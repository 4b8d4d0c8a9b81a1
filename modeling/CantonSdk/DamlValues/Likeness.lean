import CantonSdk.DamlValues.NumericText

/-!
# Values that are alike

Two Ledger API values are alike when they have the same shape and their parts are alike, one by one. What
remains open is how far the spellings of integers and numerics, the order of the entries of maps and an absent
optional may differ; `SameValue` leaves them all the freedom that a DAML value has.
-/

set_option linter.all false

namespace CantonSdk.DamlValues

open CantonSdk.Base CantonSdk.Query.Grpc

abbrev Entry := String × Option Value

abbrev Pair := Option Value × Option Value

/-- The values directly within a value. -/
def parts : Value → List Value
  | .optional value => value.toList
  | .list elements => elements
  | .textMap entries => entries.filterMap Prod.snd
  | .genMap entries => entries.flatMap fun entry => entry.1.toList ++ entry.2.toList
  | .record fields => fields.filterMap Prod.snd
  | .variant _ value => value.toList
  | _ => []

theorem sizeOf_entry {entries : List Entry} {part : Value} (h : part ∈ entries.filterMap Prod.snd) :
    sizeOf part < sizeOf entries := by
  obtain ⟨⟨key, value⟩, hmem, hvalue⟩ := List.mem_filterMap.mp h
  obtain rfl : value = some part := hvalue
  have hentry := List.sizeOf_lt_of_mem hmem
  simp only [Prod.mk.sizeOf_spec, Option.some.sizeOf_spec] at hentry
  omega

theorem sizeOf_part {value part : Value} (h : part ∈ parts value) : sizeOf part < sizeOf value := by
  cases value with
  | optional value =>
      obtain rfl := Option.mem_toList.mp h
      simp only [Value.optional.sizeOf_spec, Option.some.sizeOf_spec]
      omega
  | list elements =>
      have hpart := List.sizeOf_lt_of_mem (show part ∈ elements from h)
      simp only [Value.list.sizeOf_spec]
      omega
  | textMap entries =>
      have hpart := sizeOf_entry h
      simp only [Value.textMap.sizeOf_spec]
      omega
  | record fields =>
      have hpart := sizeOf_entry h
      simp only [Value.record.sizeOf_spec]
      omega
  | genMap entries =>
      obtain ⟨⟨key, value⟩, hmem, hpart⟩ := List.mem_flatMap.mp h
      have hentry := List.sizeOf_lt_of_mem hmem
      simp only [Prod.mk.sizeOf_spec] at hentry
      simp only [Value.genMap.sizeOf_spec]
      rcases List.mem_append.mp hpart with hkey | hvalue
      · obtain rfl : key = some part := Option.mem_toList.mp hkey
        simp only [Option.some.sizeOf_spec] at hentry
        omega
      · obtain rfl : value = some part := Option.mem_toList.mp hvalue
        simp only [Option.some.sizeOf_spec] at hentry
        omega
  | variant constructorName value =>
      obtain rfl := Option.mem_toList.mp h
      simp only [Value.variant.sizeOf_spec, Option.some.sizeOf_spec]
      omega
  | _ => cases h

/-- What holds of a value when it holds of its parts holds of every value. -/
theorem parts_induction {motive : Value → Prop} (step : ∀ value, (∀ part ∈ parts value, motive part) → motive value)
    (value : Value) : motive value :=
  step value fun part hpart =>
    have := sizeOf_part hpart
    parts_induction step part
termination_by sizeOf value

/-! ## Alike -/

/-- How far two values that are alike may differ. -/
structure Likeness where
  int64s : String → String → Prop
  timestamps : String → String → Prop
  numerics : String → String → Prop
  /-- The orders in which two text maps list their keys. -/
  orders : List String → List String → Prop
  /-- The entries of a general map in the orders in which they may be listed. -/
  listings : List Pair → List Pair → Prop
  /-- What a present optional may hold to be like an absent one. -/
  absents : Value → Prop

section Alike

variable (like : Likeness)

mutual

def Alike : Value → Value → Prop
  | .unit => fun other => other = .unit
  | .bool value => fun other => other = .bool value
  | .int64 value => fun other => ∃ value', other = .int64 value' ∧ like.int64s value value'
  | .date epochDay => fun other => other = .date epochDay
  | .timestamp micros => fun other => ∃ micros', other = .timestamp micros' ∧ like.timestamps micros micros'
  | .numeric value => fun other => ∃ value', other = .numeric value' ∧ like.numerics value value'
  | .party value => fun other => other = .party value
  | .text value => fun other => other = .text value
  | .contractId value => fun other => other = .contractId value
  | .optional value => fun other => ∃ value', other = .optional value' ∧ OptionalAlike value value'
  | .list elements => fun other => ∃ elements', other = .list elements' ∧ ItemsAlike elements elements'
  | .textMap entries => fun other =>
      ∃ entries' listed, other = .textMap entries' ∧ listed.Perm entries' ∧ EntriesAlike entries listed ∧
        like.orders (entries.map Prod.fst) (entries'.map Prod.fst)
  | .genMap entries => fun other =>
      ∃ entries' listed, other = .genMap entries' ∧ like.listings listed entries' ∧ PairsAlike entries listed
  | .record fields => fun other =>
      ∃ fields' listed, other = .record fields' ∧ listed.Perm fields' ∧ EntriesAlike fields listed
  | .variant constructorName value => fun other =>
      ∃ value', other = .variant constructorName value' ∧ PartAlike value value'
  | .enum constructorName => fun other => other = .enum constructorName
  | .unset => fun other => other = .unset

def PartAlike : Option Value → Option Value → Prop
  | none => fun other => other = none
  | some value => fun other => ∃ value', other = some value' ∧ Alike value value'

def OptionalAlike : Option Value → Option Value → Prop
  | none => fun other => other = none ∨ ∃ value', other = some value' ∧ like.absents value'
  | some value => fun other => other = none ∧ like.absents value ∨ ∃ value', other = some value' ∧ Alike value value'

def ItemsAlike : List Value → List Value → Prop
  | [] => fun others => others = []
  | value :: rest => fun others => ∃ value' rest', others = value' :: rest' ∧ Alike value value' ∧ ItemsAlike rest rest'

def EntriesAlike : List Entry → List Entry → Prop
  | [] => fun others => others = []
  | (key, value) :: rest => fun others =>
      ∃ value' rest', others = (key, value') :: rest' ∧ PartAlike value value' ∧ EntriesAlike rest rest'

def PairsAlike : List Pair → List Pair → Prop
  | [] => fun others => others = []
  | (key, value) :: rest => fun others =>
      ∃ key' value' rest', others = (key', value') :: rest' ∧ PartAlike key key' ∧ PartAlike value value' ∧
        PairsAlike rest rest'

end

/-- Entries under one key with values that are alike. -/
def EntryAlike (entry entry' : Entry) : Prop := entry'.1 = entry.1 ∧ PartAlike like entry.2 entry'.2

def PairAlike (pair pair' : Pair) : Prop := PartAlike like pair.1 pair'.1 ∧ PartAlike like pair.2 pair'.2

variable {like}

theorem itemsAlike_iff {values values' : List Value} :
    ItemsAlike like values values' ↔ List.Forall₂ (Alike like) values values' := by
  induction values generalizing values' with
  | nil => rw [ItemsAlike, List.forall₂_nil_left_iff]
  | cons value rest ih =>
      rw [ItemsAlike, List.forall₂_cons_left_iff]
      constructor
      · intro h
        obtain ⟨value', rest', rfl, hvalue, hrest⟩ := h
        exact ⟨value', rest', hvalue, ih.mp hrest, rfl⟩
      · intro h
        obtain ⟨value', rest', hvalue, hrest, rfl⟩ := h
        exact ⟨value', rest', rfl, hvalue, ih.mpr hrest⟩

theorem entriesAlike_iff {entries entries' : List Entry} :
    EntriesAlike like entries entries' ↔ List.Forall₂ (EntryAlike like) entries entries' := by
  induction entries generalizing entries' with
  | nil => rw [EntriesAlike, List.forall₂_nil_left_iff]
  | cons entry rest ih =>
      rw [EntriesAlike, List.forall₂_cons_left_iff]
      constructor
      · intro h
        obtain ⟨value', rest', rfl, hvalue, hrest⟩ := h
        exact ⟨(entry.1, value'), rest', ⟨rfl, hvalue⟩, ih.mp hrest, rfl⟩
      · intro h
        obtain ⟨entry', rest', ⟨hkey, hvalue⟩, hrest, rfl⟩ := h
        exact ⟨entry'.2, rest', by rw [← hkey], hvalue, ih.mpr hrest⟩

theorem pairsAlike_iff {entries entries' : List Pair} :
    PairsAlike like entries entries' ↔ List.Forall₂ (PairAlike like) entries entries' := by
  induction entries generalizing entries' with
  | nil => rw [PairsAlike, List.forall₂_nil_left_iff]
  | cons pair rest ih =>
      rw [PairsAlike, List.forall₂_cons_left_iff]
      constructor
      · intro h
        obtain ⟨key', value', rest', rfl, hkey, hvalue, hrest⟩ := h
        exact ⟨(key', value'), rest', ⟨hkey, hvalue⟩, ih.mp hrest, rfl⟩
      · intro h
        obtain ⟨pair', rest', ⟨hkey, hvalue⟩, hrest, rfl⟩ := h
        exact ⟨pair'.1, pair'.2, rest', rfl, hkey, hvalue, ih.mpr hrest⟩

end Alike

/-! ## The same DAML value -/

/-- The number that the text of a numeric spells. -/
def numericNumber (text : String) : Option Rat :=
  (numericParts text).map fun digits => spelledNumber text digits.1 digits.2

/-- Two texts that are read as the same thing. -/
def SpellAlike {α : Type} (read : String → Option α) (text text' : String) : Prop :=
  ∃ value, read text = some value ∧ read text' = some value

/-- Two values that denote the same DAML value: integers and numerics may be spelled in any way, records may list
their fields and maps their entries in any order. -/
def sameValues : Likeness where
  int64s := SpellAlike signedDecimal
  timestamps := SpellAlike signedDecimal
  numerics := SpellAlike numericNumber
  orders _ _ := True
  listings := List.Perm
  absents _ := False

def SameValue : Value → Value → Prop := Alike sameValues

end CantonSdk.DamlValues
