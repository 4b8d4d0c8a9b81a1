import CantonSdk.Base.Framing
import CantonSdk.Base.Sorting
import Mathlib.Data.List.DropRight

/-!
# Text as the host language sees it

Strings are compared by UTF-16 code unit, classes of text are given by a character test and a range of
lengths, and names are framed with a separator that no part contains. `Collation` is what the host's
`localeCompare` is known to do.
-/

set_option linter.all false

namespace CantonSdk.Base

/-- The UTF-16 code units of one character. -/
def charUnits (c : Char) : List Nat :=
  if c.toNat < 0x10000 then [c.toNat]
  else [0xD800 + (c.toNat - 0x10000) / 0x400, 0xDC00 + (c.toNat - 0x10000) % 0x400]

def codeUnits (text : String) : List Nat := text.toList.flatMap charUnits

/-- The order of `<` on strings, and of `sort()`. -/
def compareText (left right : String) : Ordering := compare (codeUnits left) (codeUnits right)

theorem toNat_valid (c : Char) : c.toNat < 0xD800 ∨ 0xDFFF < c.toNat ∧ c.toNat < 0x110000 := c.valid

/-- A character is read off the front of a list of code units. -/
theorem charUnits_append_injective {c d : Char} {rest rest' : List Nat}
    (h : charUnits c ++ rest = charUnits d ++ rest') : c = d ∧ rest = rest' := by
  have hc := toNat_valid c
  have hd := toNat_valid d
  unfold charUnits at h
  split at h
  · split at h
    · obtain ⟨hunit, hrest⟩ := List.cons.inj h
      exact ⟨Char.toNat_inj.mp hunit, hrest⟩
    · have := (List.cons.inj h).1
      omega
  · split at h
    · have := (List.cons.inj h).1
      omega
    · obtain ⟨hhigh, htail⟩ := List.cons.inj h
      obtain ⟨hlow, hrest⟩ := List.cons.inj htail
      exact ⟨Char.toNat_inj.mp (by omega), hrest⟩

theorem charUnits_ne_nil (c : Char) : charUnits c ≠ [] := by
  unfold charUnits
  split <;> simp

theorem codeUnits_injective {left right : String} (h : codeUnits left = codeUnits right) :
    left = right := by
  have hlists : ∀ cs ds : List Char, cs.flatMap charUnits = ds.flatMap charUnits → cs = ds := by
    intro cs
    induction cs with
    | nil =>
        intro ds hds
        cases ds with
        | nil => rfl
        | cons d ds => simp [charUnits_ne_nil] at hds
    | cons c cs ih =>
        intro ds hds
        cases ds with
        | nil => simp [charUnits_ne_nil] at hds
        | cons d ds =>
            obtain ⟨rfl, hrest⟩ := charUnits_append_injective hds
            rw [ih ds hrest]
  exact String.toList_inj.mp (hlists _ _ h)

instance compareText_trans : Std.TransCmp compareText :=
  compareKey_trans compare codeUnits

theorem eq_of_compareText {left right : String} (h : compareText left right = .eq) : left = right :=
  codeUnits_injective (Std.LawfulEqOrd.eq_of_compare h)

/-- Text with between `least` and `most` characters, all of one class: `^[...]{least,most}$`. -/
def inClass (class_ : Char → Bool) (least most : Nat) (text : String) : Bool :=
  decide (least ≤ text.length ∧ text.length ≤ most) && text.toList.all class_

theorem inClass_all {class_ : Char → Bool} {least most : Nat} {text : String}
    (h : inClass class_ least most text = true) : ∀ c ∈ text.toList, class_ c = true := by
  rw [inClass, Bool.and_eq_true, List.all_eq_true] at h
  exact h.2

/-- Printable ASCII. -/
def isPlain (text : String) : Bool := text.toList.all fun c => decide (32 ≤ c.toNat ∧ c.toNat < 127)

theorem isPlain_of_inClass {class_ : Char → Bool} {least most : Nat} {text : String}
    (hclass : ∀ c, class_ c = true → 32 ≤ c.toNat ∧ c.toNat < 127)
    (h : inClass class_ least most text = true) : isPlain text = true := by
  rw [isPlain, List.all_eq_true]
  intro c hc
  rw [decide_eq_true_iff]
  exact hclass c (inClass_all h c hc)

theorem nul_not_mem_of_plain {text : String} (h : isPlain text = true) : '\x00' ∉ text.toList := by
  intro hmem
  rw [isPlain, List.all_eq_true] at h
  exact absurd (h _ hmem) (by decide)

theorem plain_of_isAlphanum {c : Char} (h : c.isAlphanum = true) : 32 ≤ c.toNat ∧ c.toNat < 127 := by
  change (((decide (c.val ≥ 'A'.val ∧ c.val ≤ 'Z'.val) || decide (c.val ≥ 'a'.val) && decide (c.val ≤ 'z'.val))
    || decide (c.val ≥ '0'.val) && decide (c.val ≤ '9'.val)) = true) at h
  simp only [Bool.or_eq_true, Bool.and_eq_true, decide_eq_true_eq, ge_iff_le, UInt32.le_iff_toNat_le] at h
  change 32 ≤ c.val.toNat ∧ c.val.toNat < 127
  have hA : 'A'.val.toNat = 65 := by decide
  have hZ : 'Z'.val.toNat = 90 := by decide
  have ha : 'a'.val.toNat = 97 := by decide
  have hz : 'z'.val.toNat = 122 := by decide
  have h0 : '0'.val.toNat = 48 := by decide
  have h9 : '9'.val.toNat = 57 := by decide
  omega

/-- `localeCompare`: a total preorder on strings that tells plain text apart. -/
structure Collation where
  localeCompare : String → String → Ordering
  trans : Std.TransCmp localeCompare
  eq_of_plain : ∀ left right, isPlain left → isPlain right → localeCompare left right = .eq →
    left = right

attribute [instance] Collation.trans

/-- The collation that compares code units. -/
def Collation.codeUnits : Collation where
  localeCompare := compareText
  trans := compareText_trans
  eq_of_plain _ _ _ _ := eq_of_compareText

/-- `text.padStart(width, fill)`. -/
def padStart (width : Nat) (fill : Char) (text : List Char) : List Char :=
  List.replicate (width - text.length) fill ++ text

theorem length_padStart {width : Nat} {text : List Char} (h : text.length ≤ width) (fill : Char) :
    (padStart width fill text).length = width := by
  rw [padStart, List.length_append, List.length_replicate]
  omega

/-- The white space of `trim`. -/
def isTrimmed (c : Char) : Bool :=
  decide (9 ≤ c.toNat ∧ c.toNat ≤ 13) || decide (0x2000 ≤ c.toNat ∧ c.toNat ≤ 0x200A)
    || [0x20, 0xA0, 0x1680, 0x2028, 0x2029, 0x202F, 0x205F, 0x3000, 0xFEFF].contains c.toNat

def trim (text : List Char) : List Char := (text.dropWhile isTrimmed).rdropWhile isTrimmed

/-- What stands before the first separator, and what stands after it. -/
theorem append_separator_injective {separator : Char} {left left' right right' : String}
    (hleft : separator ∉ left.toList) (hleft' : separator ∉ left'.toList)
    (h : left ++ separator.toString ++ right = left' ++ separator.toString ++ right') :
    left = left' ∧ right = right' := by
  have hlists := congrArg String.toList h
  simp only [String.toList_append, Char.toString, String.toList_singleton, List.append_assoc,
    List.singleton_append] at hlists
  obtain ⟨hl, hr⟩ := append_cons_injective hleft hleft' hlists
  exact ⟨String.toList_inj.mp hl, String.toList_inj.mp hr⟩

end CantonSdk.Base
