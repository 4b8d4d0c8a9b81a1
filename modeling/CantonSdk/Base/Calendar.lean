import CantonSdk.Base.Text

/-!
# Calendar text

Days and milliseconds since 1970 as the ISO text `Date.toISOString` prints, for the years 0000 to 9999
that the Ledger API admits.
-/

set_option linter.all false

namespace CantonSdk.Base

/-- A day of the proleptic Gregorian calendar. -/
structure CivilDate where
  year : Int
  month : Nat
  day : Nat
  deriving DecidableEq

/-- The day that is this many days after 1970-01-01; years are counted from March inside an era of 400. -/
def civilDate (epochDay : Int) : CivilDate :=
  let shifted := epochDay + 719468
  let era := shifted / 146097
  let dayOfEra := (shifted % 146097).toNat
  let yearOfEra := (dayOfEra - dayOfEra / 1460 + dayOfEra / 36524 - dayOfEra / 146096) / 365
  let dayOfYear := dayOfEra - (365 * yearOfEra + yearOfEra / 4 - yearOfEra / 100)
  let monthFromMarch := (5 * dayOfYear + 2) / 153
  let day := dayOfYear - (153 * monthFromMarch + 2) / 5 + 1
  let month := if monthFromMarch < 10 then monthFromMarch + 3 else monthFromMarch - 9
  { year := (yearOfEra : Int) + era * 400 + (if month ≤ 2 then 1 else 0), month, day }

/-- Decimal text padded with zeros on the left. -/
def zeroPadded (width n : Nat) : String := String.ofList (padStart width '0' (Nat.toDigits 10 n))

/-- `new Date(epochDay * 86_400_000).toISOString().slice(0, 10)`. -/
def isoDay (epochDay : Int) : String :=
  let date := civilDate epochDay
  zeroPadded 4 date.year.toNat ++ "-" ++ zeroPadded 2 date.month ++ "-" ++ zeroPadded 2 date.day

/-- `new Date(seconds * 1000).toISOString().slice(0, 19)`. -/
def isoSecond (seconds : Int) : String :=
  let ofDay := (seconds % 86400).toNat
  isoDay (seconds / 86400) ++ "T" ++ zeroPadded 2 (ofDay / 3600) ++ ":"
    ++ zeroPadded 2 (ofDay / 60 % 60) ++ ":" ++ zeroPadded 2 (ofDay % 60)

/-- `new Date(milliseconds).toISOString()`. -/
def toISOString (milliseconds : Int) : String :=
  isoSecond (milliseconds / 1000) ++ "." ++ zeroPadded 3 (milliseconds % 1000).toNat ++ "Z"

example : toISOString 951782400123 = "2000-02-29T00:00:00.123Z" := by decide

example : isoDay (-719162) = "0001-01-01" := by decide

end CantonSdk.Base
