import CantonSdk.DamlValues.AcceptedValues
import CantonSdk.Query.Canonical.JsonText

/-!
# Keys of general maps

The text by which `mapGenMap` tells the keys of a general map apart. It can be read back, so two accepted values
have one text exactly when they are alike in everything but the spelling of numerics, the order of the fields of
records and the entries of general maps, and the order of the entries of text maps as far as the collation
sorts it out.
-/

set_option linter.all false

namespace CantonSdk.DamlValues

open CantonSdk.Base CantonSdk.Query.Canonical CantonSdk.Query.Grpc

variable {locale : Collation}

/-! ## Parts of a key -/

/-- A value and the text of its key. -/
def HasKey (locale : Collation) (value : Value) (text : String) : Prop := canonicalLedgerKey locale value = .ok text

def PartKey (locale : Collation) (part : Option Value) (text : String) : Prop :=
  ∃ value, part = some value ∧ HasKey locale value text

def EntryKey (locale : Collation) (entry : Entry) (field : String × String) : Prop :=
  field.1 = entry.1 ∧ PartKey locale entry.2 field.2

def PairKey (locale : Collation) (pair : Pair) (text : String) : Prop :=
  ∃ keyText valueText, text = keyText ++ ":" ++ valueText ∧ PartKey locale pair.1 keyText ∧
    PartKey locale pair.2 valueText

theorem presentText_eq_ok {part : Option Value} {text : String} :
    presentText (canonicalPart locale part) = .ok text ↔ PartKey locale part text := by
  cases part with
  | none =>
      constructor
      · intro h
        cases h
      · intro h
        obtain ⟨_, h, _⟩ := h
        cases h
  | some value =>
      rw [canonicalPart, presentText, Option.getD_some]
      constructor
      · exact fun h => ⟨value, rfl, h⟩
      · intro h
        obtain ⟨_, hvalue, h⟩ := h
        obtain rfl := Option.some.inj hvalue
        exact h

theorem canonicalItems_eq_ok {elements : List Value} {texts : List String} :
    canonicalItems locale elements = .ok texts ↔ List.Forall₂ (HasKey locale) elements texts := by
  induction elements generalizing texts with
  | nil =>
      rw [canonicalItems, List.forall₂_nil_left_iff, Except.ok.injEq]
      exact eq_comm
  | cons value rest ih =>
      rw [canonicalItems]
      constructor
      · intro h
        obtain ⟨text, htext, h⟩ := bind_eq_ok.mp h
        obtain ⟨others, hothers, h⟩ := bind_eq_ok.mp h
        cases h
        exact .cons htext (ih.mp hothers)
      · intro h
        cases h with
        | cons hvalue hrest =>
            exact bind_eq_ok.mpr ⟨_, hvalue, bind_eq_ok.mpr ⟨_, ih.mpr hrest, rfl⟩⟩

theorem canonicalEntries_eq_ok {entries : List Entry} {fields : List (String × String)} :
    canonicalEntries locale entries = .ok fields ↔ List.Forall₂ (EntryKey locale) entries fields := by
  induction entries generalizing fields with
  | nil =>
      rw [canonicalEntries, List.forall₂_nil_left_iff, Except.ok.injEq]
      exact eq_comm
  | cons entry rest ih =>
      obtain ⟨key, value⟩ := entry
      rw [canonicalEntries]
      constructor
      · intro h
        obtain ⟨text, htext, h⟩ := bind_eq_ok.mp h
        obtain ⟨others, hothers, h⟩ := bind_eq_ok.mp h
        cases h
        exact .cons ⟨rfl, presentText_eq_ok.mp htext⟩ (ih.mp hothers)
      · intro h
        cases h with
        | @cons _ field _ _ hentry hrest =>
            obtain ⟨label, text⟩ := field
            obtain ⟨rfl, hvalue⟩ := hentry
            exact bind_eq_ok.mpr ⟨_, presentText_eq_ok.mpr hvalue, bind_eq_ok.mpr ⟨_, ih.mpr hrest, rfl⟩⟩

theorem canonicalPairs_eq_ok {entries : List Pair} {texts : List String} :
    canonicalPairs locale entries = .ok texts ↔ List.Forall₂ (PairKey locale) entries texts := by
  induction entries generalizing texts with
  | nil =>
      rw [canonicalPairs, List.forall₂_nil_left_iff, Except.ok.injEq]
      exact eq_comm
  | cons pair rest ih =>
      obtain ⟨key, value⟩ := pair
      rw [canonicalPairs]
      constructor
      · intro h
        obtain ⟨keyText, hkey, h⟩ := bind_eq_ok.mp h
        obtain ⟨valueText, hvalue, h⟩ := bind_eq_ok.mp h
        obtain ⟨others, hothers, h⟩ := bind_eq_ok.mp h
        cases h
        exact .cons ⟨_, _, rfl, presentText_eq_ok.mp hkey, presentText_eq_ok.mp hvalue⟩ (ih.mp hothers)
      · intro h
        cases h with
        | cons hpair hrest =>
            obtain ⟨keyText, valueText, rfl, hkey, hvalue⟩ := hpair
            refine bind_eq_ok.mpr ⟨_, presentText_eq_ok.mpr hkey, ?_⟩
            exact bind_eq_ok.mpr ⟨_, presentText_eq_ok.mpr hvalue, bind_eq_ok.mpr ⟨_, ih.mpr hrest, rfl⟩⟩

/-! ## Keys by kind -/

/-- The case of the `sum` of a value. -/
inductive OneofKind
  | unit | bool | int64 | date | timestamp | numeric | party | text | contractId | optional | list | textMap
  | genMap | record | variant | enum | undefined

def OneofKind.memberText : OneofKind → String
  | unit => "unit"
  | bool => "bool"
  | int64 => "int64"
  | date => "date"
  | timestamp => "timestamp"
  | numeric => "numeric"
  | party => "party"
  | text => "text"
  | contractId => "contractId"
  | optional => "optional"
  | list => "list"
  | textMap => "textMap"
  | genMap => "genMap"
  | record => "record"
  | variant => "variant"
  | enum => "enum"
  | undefined => "undefined"

theorem memberText_injective {kind kind' : OneofKind} (h : kind.memberText = kind'.memberText) : kind = kind' := by
  cases kind <;> cases kind' <;> first | rfl | exact absurd h (by decide)

/-- `value.sum.oneofKind`. -/
def oneofKind : Value → OneofKind
  | .unit => .unit
  | .bool _ => .bool
  | .int64 _ => .int64
  | .date _ => .date
  | .timestamp _ => .timestamp
  | .numeric _ => .numeric
  | .party _ => .party
  | .text _ => .text
  | .contractId _ => .contractId
  | .optional _ => .optional
  | .list _ => .list
  | .textMap _ => .textMap
  | .genMap _ => .genMap
  | .record _ => .record
  | .variant _ _ => .variant
  | .enum _ => .enum
  | .unset => .undefined

/-- What may stand behind a key within a larger key. -/
def keyMarks : List Char := [',', ')', ']', '\x7d', ':']

theorem not_alphanum_of_mark : ∀ c ∈ keyMarks, c.isAlphanum = false := by
  intro c hc
  have hmarks : keyMarks.all fun c => !c.isAlphanum := by decide
  simpa using List.all_eq_true.mp hmarks c hc

theorem memberText_alphanum (kind : OneofKind) : ∀ c ∈ kind.memberText.toList, c.isAlphanum = true := by
  rw [← List.all_eq_true]
  cases kind <;> decide

theorem memberText_ne_nil (kind : OneofKind) : kind.memberText.toList ≠ [] := by
  cases kind <;> decide

/-- The characters of an entry of a text map or a field of a record. -/
def fieldChars (field : String × String) : List Char := (jsonString field.1).toList ++ ':' :: field.2.toList

/-- What stands behind the kind in the key of a map or record whose entries are sorted by their names. -/
def FieldsBody (locale : Collation) (entries : List Entry) (body : List Char) : Prop :=
  ∃ fields, List.Forall₂ (EntryKey locale) entries fields ∧
    body = ':' :: '\x7b' :: ([','].intercalate
      ((sortBy (compareKey locale.localeCompare Prod.fst) fields).map fieldChars) ++ ['\x7d'])

/-- What stands behind the kind of a value in its key. -/
def KeyBody (locale : Collation) : Value → List Char → Prop
  | .unit, body => body = []
  | .bool value, body => body = ':' :: (toString value).toList
  | .int64 value, body => body = ':' :: (jsonString value).toList
  | .date epochDay, body => body = ':' :: (toString epochDay).toList
  | .timestamp micros, body => body = ':' :: (jsonString micros).toList
  | .numeric value, body => body = ':' :: (canonicalNumeric value).toList
  | .party value, body => body = ':' :: (jsonString value).toList
  | .text value, body => body = ':' :: (jsonString value).toList
  | .contractId value, body => body = ':' :: (jsonString value).toList
  | .optional none, body => body = ':' :: "none".toList
  | .optional (some value), body =>
      ∃ inner, HasKey locale value inner ∧ body = ':' :: ("some(".toList ++ (inner.toList ++ [')']))
  | .list elements, body =>
      ∃ texts, List.Forall₂ (HasKey locale) elements texts ∧
        body = ':' :: '[' :: ([','].intercalate (texts.map String.toList) ++ [']'])
  | .textMap entries, body => FieldsBody locale entries body
  | .genMap entries, body =>
      ∃ texts, List.Forall₂ (PairKey locale) entries texts ∧
        body = ':' :: '\x7b' :: ([','].intercalate ((sortBy compareText texts).map String.toList) ++ ['\x7d'])
  | .record fields, body => FieldsBody locale fields body
  | .variant constructorName value, body =>
      ∃ inner, PartKey locale value inner ∧ body = ':' :: ((jsonString constructorName).toList ++ ':' :: inner.toList)
  | .enum constructorName, body => body = ':' :: (jsonString constructorName).toList
  | .unset, _ => False

theorem toList_canonicalFields (fields : List (String × String)) :
    (canonicalFields locale fields).toList
      = [','].intercalate ((sortBy (compareKey locale.localeCompare Prod.fst) fields).map fieldChars) := by
  have hcomma : ",".toList = [','] := rfl
  rw [canonicalFields, String.toList_intercalate, List.map_map, hcomma]
  refine congrArg _ (List.map_congr_left fun field _ => ?_)
  rw [Function.comp_apply, String.toList_append, String.toList_append, List.append_assoc]
  rfl

theorem key_body {value : Value} {text : String} (h : HasKey locale value text) :
    ∃ body, text.toList = (oneofKind value).memberText.toList ++ body ∧ KeyBody locale value body := by
  have hsplit : ∀ (front rest : String) (kind : OneofKind), front.toList = kind.memberText.toList ++ [':'] →
      (front ++ rest).toList = kind.memberText.toList ++ ':' :: rest.toList := by
    intro front rest kind hfront
    rw [String.toList_append, hfront, List.append_assoc]
    rfl
  have hframe : ∀ (front middle back : String) (kind : OneofKind) (opening closing : List Char),
      front.toList = kind.memberText.toList ++ ':' :: opening → back.toList = closing →
      (front ++ middle ++ back).toList = kind.memberText.toList ++ ':' :: (opening ++ (middle.toList ++ closing)) := by
    intro front middle back kind opening closing hfront hback
    rw [String.toList_append, String.toList_append, hfront, hback, List.append_assoc, List.append_assoc]
    rfl
  rw [HasKey] at h
  cases value with
  | unit =>
      obtain rfl := Except.ok.inj h
      exact ⟨[], (List.append_nil _).symm, rfl⟩
  | optional value =>
      rw [canonicalLedgerKey] at h
      cases value with
      | none =>
          obtain rfl := Except.ok.inj h
          exact ⟨_, hsplit "optional:" "none" .optional rfl, rfl⟩
      | some value =>
          obtain ⟨inner, hinner, h⟩ := bind_eq_ok.mp h
          obtain rfl := Except.ok.inj h
          exact ⟨_, hframe "optional:some(" inner ")" .optional _ _ rfl rfl, inner, hinner, rfl⟩
  | list elements =>
      rw [canonicalLedgerKey] at h
      obtain ⟨texts, htexts, h⟩ := bind_eq_ok.mp h
      obtain rfl := Except.ok.inj h
      refine ⟨_, hframe "list:[" _ "]" .list ['['] [']'] rfl rfl, texts, canonicalItems_eq_ok.mp htexts, ?_⟩
      rw [String.toList_intercalate]
      rfl
  | textMap entries =>
      rw [canonicalLedgerKey] at h
      obtain ⟨fields, hfields, h⟩ := bind_eq_ok.mp h
      obtain rfl := Except.ok.inj h
      refine ⟨_, hframe "textMap:\x7b" _ "\x7d" .textMap ['\x7b'] ['\x7d'] rfl rfl, fields,
        canonicalEntries_eq_ok.mp hfields, ?_⟩
      rw [toList_canonicalFields]
      rfl
  | record entries =>
      rw [canonicalLedgerKey] at h
      obtain ⟨fields, hfields, h⟩ := bind_eq_ok.mp h
      obtain rfl := Except.ok.inj h
      refine ⟨_, hframe "record:\x7b" _ "\x7d" .record ['\x7b'] ['\x7d'] rfl rfl, fields,
        canonicalEntries_eq_ok.mp hfields, ?_⟩
      rw [toList_canonicalFields]
      rfl
  | genMap entries =>
      rw [canonicalLedgerKey] at h
      obtain ⟨texts, htexts, h⟩ := bind_eq_ok.mp h
      obtain rfl := Except.ok.inj h
      refine ⟨_, hframe "genMap:\x7b" _ "\x7d" .genMap ['\x7b'] ['\x7d'] rfl rfl, texts,
        canonicalPairs_eq_ok.mp htexts, ?_⟩
      rw [String.toList_intercalate]
      rfl
  | variant constructorName value =>
      rw [canonicalLedgerKey] at h
      obtain ⟨inner, hinner, h⟩ := bind_eq_ok.mp h
      obtain rfl := Except.ok.inj h
      refine ⟨_, ?_, inner, presentText_eq_ok.mp hinner, rfl⟩
      rw [String.append_assoc, String.append_assoc]
      refine (hsplit "variant:" _ .variant rfl).trans ?_
      rw [String.toList_append, String.toList_append]
      rfl
  | bool value =>
      obtain rfl := Except.ok.inj h
      exact ⟨_, hsplit "bool:" _ .bool rfl, rfl⟩
  | int64 value =>
      obtain rfl := Except.ok.inj h
      exact ⟨_, hsplit "int64:" _ .int64 rfl, rfl⟩
  | date epochDay =>
      obtain rfl := Except.ok.inj h
      exact ⟨_, hsplit "date:" _ .date rfl, rfl⟩
  | timestamp micros =>
      obtain rfl := Except.ok.inj h
      exact ⟨_, hsplit "timestamp:" _ .timestamp rfl, rfl⟩
  | numeric value =>
      obtain rfl := Except.ok.inj h
      exact ⟨_, hsplit "numeric:" _ .numeric rfl, rfl⟩
  | party value =>
      obtain rfl := Except.ok.inj h
      exact ⟨_, hsplit "party:" _ .party rfl, rfl⟩
  | text value =>
      obtain rfl := Except.ok.inj h
      exact ⟨_, hsplit "text:" _ .text rfl, rfl⟩
  | contractId value =>
      obtain rfl := Except.ok.inj h
      exact ⟨_, hsplit "contractId:" _ .contractId rfl, rfl⟩
  | enum constructorName =>
      obtain rfl := Except.ok.inj h
      exact ⟨_, hsplit "enum:" _ .enum rfl, rfl⟩
  | unset => cases h

theorem head_keyBody {value : Value} {body : List Char} (h : KeyBody locale value body) : ∀ c ∈ body.head?, c = ':' := by
  have hcons : ∀ rest : List Char, ∀ c ∈ (':' :: rest).head?, c = ':' := fun _ c hc => (Option.some.inj hc).symm
  cases value with
  | unit =>
      obtain rfl : body = [] := h
      exact nofun
  | optional value =>
      cases value with
      | none =>
          obtain rfl : body = _ := h
          exact hcons _
      | some value =>
          obtain ⟨_, _, rfl⟩ := h
          exact hcons _
  | list | textMap | genMap | record | variant =>
      obtain ⟨_, _, rfl⟩ := h
      exact hcons _
  | unset => exact h.elim
  | _ =>
      obtain rfl : body = _ := h
      exact hcons _

end CantonSdk.DamlValues
