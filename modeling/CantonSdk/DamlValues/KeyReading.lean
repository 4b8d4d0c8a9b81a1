import CantonSdk.DamlValues.LedgerKeys

/-!
# Reading keys

Where the keys of two accepted values stand at the front of one text, the values are alike and the keys end
at the same place.
-/

set_option linter.all false

namespace CantonSdk.DamlValues

open CantonSdk.Base CantonSdk.Query.Canonical CantonSdk.Query.Grpc

variable {locale : Collation}

/-- Two values that have one key: the texts of integers and timestamps are equal, numerics have one number, and
text maps list their keys in one order when the collation has sorted them. -/
def spelledAlike (locale : Collation) : Likeness where
  int64s text text' := text = text'
  timestamps micros micros' := micros = micros'
  numerics := SpellAlike numericNumber
  orders keys keys' := sortBy locale.localeCompare keys = sortBy locale.localeCompare keys'
  listings := List.Perm
  absents _ := False

def SpelledAlike (locale : Collation) : Value → Value → Prop := Alike (spelledAlike locale)

/-! ## Numbers -/

/-- The characters of integers and numerics. -/
def isNumberChar (c : Char) : Bool := c.isDigit || c = '-' || c = '.'

theorem not_numberChar_of_mark : ∀ c ∈ keyMarks, isNumberChar c = false := by
  intro c hc
  have hmarks : keyMarks.all fun c => !isNumberChar c := by decide
  simpa using List.all_eq_true.mp hmarks c hc

theorem numberChars_of_digits {digits : List Char} (h : digits.all Char.isDigit = true) :
    ∀ c ∈ digits, isNumberChar c = true := by
  intro c hc
  rw [List.all_eq_true] at h
  rw [isNumberChar, h c hc]
  rfl

theorem numberChars_append {front back : List Char} (hfront : ∀ c ∈ front, isNumberChar c = true)
    (hback : ∀ c ∈ back, isNumberChar c = true) : ∀ c ∈ front ++ back, isNumberChar c = true := by
  intro c hc
  rcases List.mem_append.mp hc with hc | hc
  · exact hfront c hc
  · exact hback c hc

theorem numberChars_toString (n : Int) : ∀ c ∈ (toString n).toList, isNumberChar c = true := by
  cases n with
  | ofNat n =>
      rw [toList_toString_ofNat]
      exact numberChars_of_digits (toDigits_isDigit n)
  | negSucc n =>
      rw [toList_toString_negSucc]
      exact List.forall_mem_cons.mpr ⟨rfl, numberChars_of_digits (toDigits_isDigit (n + 1))⟩

theorem toString_injective {n n' : Int} (h : toString n = toString n') : n = n' := by
  have hsigned := signedDecimal_toString n
  rw [h, signedDecimal_toString] at hsigned
  exact (Option.some.inj hsigned).symm

theorem numberChars_canonicalNumeric {text : String} {digits : List Char × List Char}
    (h : numericParts text = some digits) : ∀ c ∈ (canonicalNumeric text).toList, isNumberChar c = true := by
  obtain ⟨whole, fraction⟩ := digits
  obtain ⟨_, hwhole, hfraction⟩ := numericParts_eq h
  have hcanonical := numberChars_of_digits (canonicalWhole_digits hwhole)
  have htrim := numberChars_of_digits (trimZeros_digits hfraction)
  rw [canonicalNumeric_eq h]
  split
  · exact List.all_eq_true.mp (by decide)
  · rw [String.toList_append]
    apply numberChars_append
    · rw [← List.all_eq_true]
      split <;> decide
    · rw [joinPoint]
      split
      · rw [String.toList_ofList]
        exact hcanonical
      · rw [String.toList_ofList]
        exact numberChars_append hcanonical (List.forall_mem_cons.mpr ⟨rfl, htrim⟩)

/-- Numerics with one key have one number. -/
theorem spellAlike_of_canonicalNumeric {text text' : String} {digits digits' : List Char × List Char}
    (h : numericParts text = some digits) (h' : numericParts text' = some digits')
    (hkey : canonicalNumeric text = canonicalNumeric text') : SpellAlike numericNumber text text' := by
  obtain ⟨whole, fraction⟩ := digits
  obtain ⟨whole', fraction'⟩ := digits'
  obtain ⟨front, back, hparts, hnumber⟩ := numericParts_canonicalNumeric h
  obtain ⟨front', back', hparts', hnumber'⟩ := numericParts_canonicalNumeric h'
  rw [← hkey, hparts, Option.some_inj, Prod.mk.injEq] at hparts'
  obtain ⟨rfl, rfl⟩ := hparts'
  rw [← hkey] at hnumber'
  refine ⟨spelledNumber text whole fraction, ?_, ?_⟩
  · rw [numericNumber, h, Option.map_some]
  · rw [numericNumber, h', Option.map_some, ← hnumber', hnumber]

/-! ## Reading -/

/-- Where the keys of two values stand at the front of one text, the values are alike and the keys end together. -/
def ReadTogether (locale : Collation) (value value' : Value) : Prop :=
  ∀ text text' rest rest', HasKey locale value text → HasKey locale value' text' → Follows keyMarks rest →
    Follows keyMarks rest' → text.toList ++ rest = text'.toList ++ rest' → SpelledAlike locale value value' ∧ rest = rest'

/-- The same of the characters behind the kind of the values. -/
def BodiesReadTogether (locale : Collation) (value value' : Value) : Prop :=
  ∀ body body' rest rest', KeyBody locale value body → KeyBody locale value' body' → Follows keyMarks rest →
    Follows keyMarks rest' → body ++ rest = body' ++ rest' → SpelledAlike locale value value' ∧ rest = rest'

/-- The kinds of the values are read first. -/
theorem readTogether_of_bodies {value value' : Value}
    (h : oneofKind value = oneofKind value' → BodiesReadTogether locale value value') : ReadTogether locale value value' := by
  intro text text' rest rest' htext htext' hrest hrest' heq
  obtain ⟨body, hbody, hkey⟩ := key_body htext
  obtain ⟨body', hbody', hkey'⟩ := key_body htext'
  rw [hbody, hbody', List.append_assoc, List.append_assoc] at heq
  have hstop : ∀ {value : Value} {body rest : List Char}, KeyBody locale value body → Follows keyMarks rest →
      ∀ c ∈ (body ++ rest).head?, c.isAlphanum = false := by
    intro value body rest hbody hrest c hc
    cases body with
    | nil => exact not_alphanum_of_mark c (hrest c hc)
    | cons first others =>
        obtain rfl := head_keyBody hbody first rfl
        obtain rfl := Option.some.inj hc
        rfl
  obtain ⟨hkind, hbodies⟩ := run_injective (memberText_alphanum _) (memberText_alphanum _) (hstop hkey hrest)
    (hstop hkey' hrest') heq
  exact h (memberText_injective (String.toList_inj.mp hkind)) body body' rest rest' hkey hkey' hrest hrest' hbodies

/-- Keys that end together, where they are read together, are equal. -/
theorem ReadTogether.text_eq {value value' : Value} (h : ReadTogether locale value value') {text text' : String}
    {rest rest' : List Char} (htext : HasKey locale value text) (htext' : HasKey locale value' text')
    (hrest : Follows keyMarks rest) (hrest' : Follows keyMarks rest')
    (heq : text.toList ++ rest = text'.toList ++ rest') : text = text' ∧ rest = rest' := by
  obtain ⟨_, rfl⟩ := h text text' rest rest' htext htext' hrest hrest' heq
  exact ⟨String.toList_inj.mp (List.append_cancel_right heq), rfl⟩

theorem ReadTogether.alike {value value' : Value} (h : ReadTogether locale value value') {text : String}
    (htext : HasKey locale value text) (htext' : HasKey locale value' text) : SpelledAlike locale value value' :=
  (h text text [] [] htext htext' (follows_nil _) (follows_nil _) rfl).1

theorem head_of_key {value : Value} {text : String} (h : HasKey locale value text) :
    ∃ c ∈ text.toList.head?, c.isAlphanum = true := by
  obtain ⟨body, hbody, _⟩ := key_body h
  have hall := memberText_alphanum (oneofKind value)
  have hne := memberText_ne_nil (oneofKind value)
  rw [hbody]
  generalize (oneofKind value).memberText.toList = kind at hall hne
  cases kind with
  | nil => exact absurd rfl hne
  | cons c others => exact ⟨c, rfl, hall c List.mem_cons_self⟩

/-- A part that is read together with every accepted value. -/
def ReadsParts (locale : Collation) (value : Value) : Prop := ∀ value', Accepted locale value' → ReadTogether locale value value'

variable {rest rest' : List Char}

/-- Keys and field names start with something that does not close a list. -/
theorem head_ne_close {c close : Char} (hc : c.isAlphanum = true) (hclose : close ∈ keyMarks) : c ≠ close := by
  rintro rfl
  rw [not_alphanum_of_mark c hclose] at hc
  cases hc

/-- The elements of lists. -/
theorem items_read {elements elements' : List Value} (hreads : ∀ element ∈ elements, ReadsParts locale element)
    (haccepted : ∀ element ∈ elements', Accepted locale element) {texts texts' : List String}
    (htexts : List.Forall₂ (HasKey locale) elements texts) (htexts' : List.Forall₂ (HasKey locale) elements' texts')
    (heq : [','].intercalate (texts.map String.toList) ++ ']' :: rest
      = [','].intercalate (texts'.map String.toList) ++ ']' :: rest') :
    List.Forall₂ (SpelledAlike locale) elements elements' ∧ rest = rest' := by
  have hstart : ∀ element text, HasKey locale element text → ∃ c ∈ text.toList.head?, c ≠ ']' := by
    intro element text hkey
    obtain ⟨c, hc, halphanum⟩ := head_of_key hkey
    exact ⟨c, hc, head_ne_close halphanum (by decide)⟩
  have hread : ∀ element ∈ elements, ∀ element' ∈ elements', ∀ text text' rest rest', HasKey locale element text →
      HasKey locale element' text' → Follows keyMarks rest → Follows keyMarks rest' →
      text.toList ++ rest = text'.toList ++ rest' → text = text' := by
    intro element helement element' helement' text text' rest rest' hkey hkey' hrest hrest' heq
    exact ((hreads element helement element' (haccepted element' helement')).text_eq hkey hkey' hrest hrest' heq).1
  have hcomma : ',' ∈ keyMarks := by decide
  have hclose : ']' ∈ keyMarks := by decide
  obtain ⟨rfl, hrest⟩ := written_injective hcomma hclose (by decide) hread hstart htexts htexts' heq
  refine ⟨?_, hrest⟩
  refine (forall₂_beside (forall₂_with_mem htexts).flip (forall₂_with_mem htexts').flip).imp ?_
  intro element element' hboth
  obtain ⟨text, ⟨helement, hkey⟩, helement', hkey'⟩ := hboth
  exact (hreads element helement element' (haccepted element' helement')).alike hkey hkey'

/-- What stands between the brackets of two keys, and behind it. -/
theorem inner_eq {opening closing : Char} {inner inner' : List Char}
    (h : ':' :: opening :: (inner ++ [closing]) ++ rest = ':' :: opening :: (inner' ++ [closing]) ++ rest') :
    inner ++ closing :: rest = inner' ++ closing :: rest' := by
  rw [List.cons_append, List.cons_append, List.cons_append, List.cons_append, List.append_assoc, List.append_assoc] at h
  exact (List.cons.inj (List.cons.inj h).2).2

theorem mem_entryParts {entries : List Entry} {entry : Entry} {value : Value} (hentry : entry ∈ entries)
    (hvalue : entry.2 = some value) : value ∈ entries.filterMap Prod.snd :=
  List.mem_filterMap.mpr ⟨entry, hentry, hvalue⟩

/-- The entries of text maps and the fields of records, in the order in which the collation lists them. -/
theorem fields_read {entries entries' : List Entry} (hreads : ∀ part ∈ entries.filterMap Prod.snd, ReadsParts locale part)
    (haccepted : ∀ part ∈ entries'.filterMap Prod.snd, Accepted locale part) {body body' : List Char}
    (hbody : FieldsBody locale entries body) (hbody' : FieldsBody locale entries' body')
    (heq : body ++ rest = body' ++ rest') :
    List.Forall₂ (EntryAlike (spelledAlike locale)) (sortBy (compareKey locale.localeCompare Prod.fst) entries)
      (sortBy (compareKey locale.localeCompare Prod.fst) entries') ∧ rest = rest' := by
  obtain ⟨fields, hfields, rfl⟩ := hbody
  obtain ⟨fields', hfields', rfl⟩ := hbody'
  have hstart : ∀ entry field, EntryKey locale entry field → ∃ c ∈ (fieldChars field).head?, c ≠ '\x7d' := by
    intro entry field _
    rw [fieldChars, toList_jsonString]
    exact ⟨'"', rfl, by decide⟩
  have hread : ∀ entry ∈ sortBy (compareKey locale.localeCompare Prod.fst) entries,
      ∀ entry' ∈ sortBy (compareKey locale.localeCompare Prod.fst) entries', ∀ field field' rest rest',
      EntryKey locale entry field → EntryKey locale entry' field' → Follows keyMarks rest → Follows keyMarks rest' →
      fieldChars field ++ rest = fieldChars field' ++ rest' → field = field' := by
    intro entry hentry entry' hentry' field field' rest rest' hkey hkey' hrest hrest' heq
    obtain ⟨_, value, hvalue, htext⟩ := hkey
    obtain ⟨_, value', hvalue', htext'⟩ := hkey'
    have hreadValue := hreads value (mem_entryParts (mem_sortBy.mp hentry) hvalue) value'
      (haccepted value' (mem_entryParts (mem_sortBy.mp hentry') hvalue'))
    rw [fieldChars, fieldChars, List.append_assoc, List.append_assoc] at heq
    obtain ⟨hlabel, hbehind⟩ := jsonString_append_injective heq
    exact Prod.ext hlabel (hreadValue.text_eq htext htext' hrest hrest' (List.cons.inj hbehind).2).1
  have hsorted := @forall₂_sortBy _ _ _ _ locale.localeCompare Prod.fst Prod.fst _ _ hfields fun _ _ h => h.1.symm
  have hsorted' := @forall₂_sortBy _ _ _ _ locale.localeCompare Prod.fst Prod.fst _ _ hfields' fun _ _ h => h.1.symm
  have hcomma : ',' ∈ keyMarks := by decide
  have hclose : '\x7d' ∈ keyMarks := by decide
  obtain ⟨hsame, hrest⟩ := written_injective hcomma hclose (by decide) hread hstart hsorted hsorted' (inner_eq heq)
  rw [← hsame] at hsorted'
  refine ⟨?_, hrest⟩
  refine (forall₂_beside (forall₂_with_mem hsorted).flip (forall₂_with_mem hsorted').flip).imp ?_
  intro entry entry' hboth
  obtain ⟨field, ⟨hentry, hlabel, value, hvalue, htext⟩, hentry', hlabel', value', hvalue', htext'⟩ := hboth
  have hreadValue := hreads value (mem_entryParts (mem_sortBy.mp hentry) hvalue) value'
    (haccepted value' (mem_entryParts (mem_sortBy.mp hentry') hvalue'))
  refine ⟨hlabel'.symm.trans hlabel, ?_⟩
  rw [hvalue, hvalue']
  exact ⟨value', rfl, hreadValue.alike htext htext'⟩

theorem mem_pairParts {entries : List Pair} {pair : Pair} {value : Value} (hpair : pair ∈ entries)
    (hvalue : pair.1 = some value ∨ pair.2 = some value) :
    value ∈ entries.flatMap fun entry => entry.1.toList ++ entry.2.toList := by
  rw [List.mem_flatMap]
  refine ⟨pair, hpair, List.mem_append.mpr ?_⟩
  rw [Option.mem_toList, Option.mem_toList]
  exact hvalue

/-- The entries of general maps, in the order of their texts. -/
theorem pairs_read {entries entries' : List Pair}
    (hreads : ∀ part ∈ parts (.genMap entries), ReadsParts locale part)
    (haccepted : ∀ part ∈ parts (.genMap entries'), Accepted locale part) {texts texts' : List String}
    (htexts : List.Forall₂ (PairKey locale) entries texts) (htexts' : List.Forall₂ (PairKey locale) entries' texts')
    (heq : [','].intercalate ((sortBy compareText texts).map String.toList) ++ '\x7d' :: rest
      = [','].intercalate ((sortBy compareText texts').map String.toList) ++ '\x7d' :: rest') :
    (∃ listed, listed.Perm entries' ∧ List.Forall₂ (PairAlike (spelledAlike locale)) entries listed) ∧ rest = rest' := by
  have htoList : ∀ keyText valueText : String, (keyText ++ ":" ++ valueText).toList
      = keyText.toList ++ ':' :: valueText.toList := by
    intro keyText valueText
    rw [String.toList_append, String.toList_append, List.append_assoc]
    rfl
  have hstart : ∀ pair text, PairKey locale pair text → ∃ c ∈ text.toList.head?, c ≠ '\x7d' := by
    intro pair text hkey
    obtain ⟨keyText, valueText, rfl, ⟨key, _, hkeyText⟩, _⟩ := hkey
    obtain ⟨c, hc, halphanum⟩ := head_of_key hkeyText
    refine ⟨c, ?_, head_ne_close halphanum (by decide)⟩
    rw [htoList]
    cases hlist : keyText.toList with
    | nil =>
        rw [hlist] at hc
        cases hc
    | cons d others => rwa [hlist] at hc
  have hreadBoth : ∀ pair ∈ entries, ∀ pair' ∈ entries', ∀ text text' rest rest', PairKey locale pair text →
      PairKey locale pair' text' → Follows keyMarks rest → Follows keyMarks rest' →
      text.toList ++ rest = text'.toList ++ rest' → text = text' ∧ PairAlike (spelledAlike locale) pair pair' := by
    intro pair hpair pair' hpair' text text' rest rest' hkey hkey' hrest hrest' heq
    obtain ⟨keyText, valueText, rfl, ⟨key, hkeyPart, hkeyText⟩, value, hvaluePart, hvalueText⟩ := hkey
    obtain ⟨keyText', valueText', rfl, ⟨key', hkeyPart', hkeyText'⟩, value', hvaluePart', hvalueText'⟩ := hkey'
    have hreadKey := hreads key (mem_pairParts hpair (.inl hkeyPart)) key' (haccepted key' (mem_pairParts hpair' (.inl hkeyPart')))
    have hreadValue := hreads value (mem_pairParts hpair (.inr hvaluePart)) value'
      (haccepted value' (mem_pairParts hpair' (.inr hvaluePart')))
    rw [htoList, htoList, List.append_assoc, List.append_assoc] at heq
    have hcolon : ∀ others : List Char, Follows keyMarks (':' :: others) := fun _ => follows_cons (by decide)
    obtain ⟨rfl, hbehind⟩ := hreadKey.text_eq hkeyText hkeyText' (hcolon _) (hcolon _) heq
    obtain ⟨rfl, _⟩ := hreadValue.text_eq hvalueText hvalueText' hrest hrest' (List.cons.inj hbehind).2
    rw [PairAlike, hkeyPart, hkeyPart', hvaluePart, hvaluePart']
    exact ⟨rfl, ⟨key', rfl, hreadKey.alike hkeyText hkeyText'⟩, value', rfl, hreadValue.alike hvalueText hvalueText'⟩
  have hlisted : ∀ {entries : List Pair} {texts other : List String}, List.Forall₂ (PairKey locale) entries texts →
      other.Perm texts → ∃ listed, List.Forall₂ (PairKey locale) listed other ∧ listed.Perm entries := by
    intro entries texts other htexts hperm
    obtain ⟨listed, hkeys, hentries⟩ := List.perm_comp_forall₂ hperm htexts.flip
    exact ⟨listed, hkeys.flip, hentries⟩
  obtain ⟨sorted, hsorted, hentries⟩ := hlisted htexts (perm_sortBy compareText texts)
  obtain ⟨sorted', hsorted', hentries'⟩ := hlisted htexts' (perm_sortBy compareText texts')
  have hread : ∀ pair ∈ sorted, ∀ pair' ∈ sorted', ∀ text text' rest rest', PairKey locale pair text →
      PairKey locale pair' text' → Follows keyMarks rest → Follows keyMarks rest' →
      text.toList ++ rest = text'.toList ++ rest' → text = text' :=
    fun pair hpair pair' hpair' text text' rest rest' hkey hkey' hrest hrest' heq =>
      (hreadBoth pair (hentries.mem_iff.mp hpair) pair' (hentries'.mem_iff.mp hpair') text text' rest rest' hkey hkey'
        hrest hrest' heq).1
  have hcomma : ',' ∈ keyMarks := by decide
  have hclose : '\x7d' ∈ keyMarks := by decide
  obtain ⟨hsame, hrest⟩ := written_injective hcomma hclose (by decide) hread hstart hsorted hsorted' heq
  -- the sorted texts are the same, so the texts are, in some order
  have hperm : texts.Perm texts' := by
    refine (perm_sortBy compareText texts).symm.trans ?_
    rw [hsame]
    exact perm_sortBy compareText texts'
  obtain ⟨listed, hkeys, hperm⟩ := hlisted htexts' hperm
  refine ⟨⟨listed, hperm, ?_⟩, hrest⟩
  refine (forall₂_beside (forall₂_with_mem htexts).flip (forall₂_with_mem hkeys).flip).imp ?_
  intro pair pair' hboth
  obtain ⟨text, ⟨hpair, hkey⟩, hpair', hkey'⟩ := hboth
  exact (hreadBoth pair hpair pair' (hperm.mem_iff.mp hpair') text text [] [] hkey hkey' (follows_nil _) (follows_nil _)
    rfl).2

/-! ## Every value -/

theorem numbers_read {front front' : List Char} (hfront : ∀ c ∈ front, isNumberChar c = true)
    (hfront' : ∀ c ∈ front', isNumberChar c = true) (hrest : Follows keyMarks rest) (hrest' : Follows keyMarks rest')
    (h : front ++ rest = front' ++ rest') : front = front' ∧ rest = rest' :=
  run_injective hfront hfront' (fun c hc => not_numberChar_of_mark c (hrest c hc))
    (fun c hc => not_numberChar_of_mark c (hrest' c hc)) h

/-- The text of a scalar. -/
theorem strings_read {text text' : String}
    (h : ':' :: (jsonString text).toList ++ rest = ':' :: (jsonString text').toList ++ rest') : text = text' ∧ rest = rest' :=
  jsonString_append_injective (List.cons.inj h).2

/-- The entries of one list are alike the entries of another in the order in which the collation lists both. -/
theorem exists_listed {entries entries' : List Entry}
    (h : List.Forall₂ (EntryAlike (spelledAlike locale)) (sortBy (compareKey locale.localeCompare Prod.fst) entries)
      (sortBy (compareKey locale.localeCompare Prod.fst) entries')) :
    (∃ listed : List Entry, listed.Perm entries' ∧ EntriesAlike (spelledAlike locale) entries listed) ∧
      sortBy locale.localeCompare (entries.map Prod.fst) = sortBy locale.localeCompare (entries'.map Prod.fst) := by
  constructor
  · obtain ⟨listed, hlisted, hperm⟩ := List.perm_comp_forall₂ (perm_sortBy _ entries).symm h
    exact ⟨listed, hperm.trans (perm_sortBy _ entries'), entriesAlike_iff.mpr hlisted⟩
  · rw [← map_sortBy, ← map_sortBy, ← List.forall₂_eq_eq_eq, List.forall₂_map_left_iff, List.forall₂_map_right_iff]
    exact h.imp fun _ _ hentry => hentry.1.symm

/-- The keys of accepted values are read together. -/
theorem readsParts (value : Value) (hvalue : Accepted locale value) : ReadsParts locale value := by
  induction value using parts_induction with
  | step value ih =>
  have hreads : ∀ part ∈ parts value, ReadsParts locale part :=
    fun part hpart => ih part hpart (accepted_parts hvalue part hpart)
  intro value' hvalue'
  have haccepted := accepted_parts hvalue'
  have hformed := formed_of_accepted hvalue
  have hformed' := formed_of_accepted hvalue'
  apply readTogether_of_bodies
  intro hkind body body' rest rest' hbody hbody' hrest hrest' heq
  cases value with
  | list elements =>
      cases value' with
      | list elements' =>
          obtain ⟨texts, htexts, rfl⟩ := hbody
          obtain ⟨texts', htexts', rfl⟩ := hbody'
          obtain ⟨hitems, hrests⟩ := items_read hreads haccepted htexts htexts' (inner_eq heq)
          exact ⟨⟨elements', rfl, itemsAlike_iff.mpr hitems⟩, hrests⟩
      | _ => cases hkind
  | textMap entries =>
      cases value' with
      | textMap entries' =>
          obtain ⟨hfields, hrests⟩ := fields_read hreads haccepted hbody hbody' heq
          obtain ⟨⟨listed, hperm, halike⟩, horder⟩ := exists_listed hfields
          exact ⟨⟨entries', listed, rfl, hperm, halike, horder⟩, hrests⟩
      | _ => cases hkind
  | record fields =>
      cases value' with
      | record fields' =>
          obtain ⟨hfields, hrests⟩ := fields_read hreads haccepted hbody hbody' heq
          obtain ⟨⟨listed, hperm, halike⟩, _⟩ := exists_listed hfields
          exact ⟨⟨fields', listed, rfl, hperm, halike⟩, hrests⟩
      | _ => cases hkind
  | genMap entries =>
      cases value' with
      | genMap entries' =>
          obtain ⟨texts, htexts, rfl⟩ := hbody
          obtain ⟨texts', htexts', rfl⟩ := hbody'
          obtain ⟨⟨listed, hperm, halike⟩, hrests⟩ := pairs_read hreads haccepted htexts htexts' (inner_eq heq)
          exact ⟨⟨entries', listed, rfl, hperm, pairsAlike_iff.mpr halike⟩, hrests⟩
      | _ => cases hkind
  | variant constructorName value =>
      cases value' with
      | variant constructorName' value' =>
          obtain ⟨inner, ⟨value, rfl, hinner⟩, rfl⟩ := hbody
          obtain ⟨inner', ⟨value', rfl, hinner'⟩, rfl⟩ := hbody'
          rw [List.cons_append, List.cons_append, List.append_assoc, List.append_assoc] at heq
          obtain ⟨rfl, hbehind⟩ := jsonString_append_injective (List.cons.inj heq).2
          obtain ⟨halike, hrests⟩ := hreads value List.mem_cons_self value' (haccepted value' List.mem_cons_self) _ _ _ _
            hinner hinner' hrest hrest' (List.cons.inj hbehind).2
          exact ⟨⟨some value', rfl, value', rfl, halike⟩, hrests⟩
      | _ => cases hkind
  | optional value =>
      cases value' with
      | optional value' =>
          cases value with
          | none =>
              obtain rfl : body = _ := hbody
              cases value' with
              | none =>
                  obtain rfl : body' = _ := hbody'
                  exact ⟨⟨none, rfl, .inl rfl⟩, List.append_cancel_left heq⟩
              | some value' =>
                  obtain ⟨inner', _, rfl⟩ := hbody'
                  exact absurd (List.cons.inj (List.cons.inj heq).2).1 (by decide)
          | some value =>
              obtain ⟨inner, hinner, rfl⟩ := hbody
              cases value' with
              | none =>
                  obtain rfl : body' = _ := hbody'
                  exact absurd (List.cons.inj (List.cons.inj heq).2).1 (by decide)
              | some value' =>
                  obtain ⟨inner', hinner', rfl⟩ := hbody'
                  rw [List.cons_append, List.cons_append, List.append_assoc, List.append_assoc, List.append_assoc,
                    List.append_assoc] at heq
                  have hbehind := List.append_cancel_left (List.cons.inj heq).2
                  have hmark : ∀ others : List Char, Follows keyMarks ([')'] ++ others) := fun _ => follows_cons (by decide)
                  obtain ⟨halike, hrests⟩ := hreads value List.mem_cons_self value' (haccepted value' List.mem_cons_self)
                    _ _ _ _ hinner hinner' (hmark rest) (hmark rest') hbehind
                  exact ⟨⟨some value', rfl, .inr ⟨value', rfl, halike⟩⟩, List.append_cancel_left hrests⟩
      | _ => cases hkind
  | unit =>
      cases value' with
      | unit =>
          obtain rfl : body = _ := hbody
          obtain rfl : body' = _ := hbody'
          exact ⟨rfl, heq⟩
      | _ => cases hkind
  | bool value =>
      cases value' with
      | bool value' =>
          obtain rfl : body = _ := hbody
          obtain rfl : body' = _ := hbody'
          cases value <;> cases value'
          · exact ⟨rfl, List.append_cancel_left heq⟩
          · exact absurd (List.cons.inj (List.cons.inj heq).2).1 (by decide)
          · exact absurd (List.cons.inj (List.cons.inj heq).2).1 (by decide)
          · exact ⟨rfl, List.append_cancel_left heq⟩
      | _ => cases hkind
  | int64 value =>
      cases value' with
      | int64 value' =>
          obtain rfl : body = _ := hbody
          obtain rfl : body' = _ := hbody'
          obtain ⟨rfl, hrests⟩ := strings_read heq
          exact ⟨⟨value, rfl, rfl⟩, hrests⟩
      | _ => cases hkind
  | timestamp micros =>
      cases value' with
      | timestamp micros' =>
          obtain rfl : body = _ := hbody
          obtain rfl : body' = _ := hbody'
          obtain ⟨rfl, hrests⟩ := strings_read heq
          exact ⟨⟨micros, rfl, rfl⟩, hrests⟩
      | _ => cases hkind
  | party value =>
      cases value' with
      | party value' =>
          obtain rfl : body = _ := hbody
          obtain rfl : body' = _ := hbody'
          obtain ⟨rfl, hrests⟩ := strings_read heq
          exact ⟨rfl, hrests⟩
      | _ => cases hkind
  | text value =>
      cases value' with
      | text value' =>
          obtain rfl : body = _ := hbody
          obtain rfl : body' = _ := hbody'
          obtain ⟨rfl, hrests⟩ := strings_read heq
          exact ⟨rfl, hrests⟩
      | _ => cases hkind
  | contractId value =>
      cases value' with
      | contractId value' =>
          obtain rfl : body = _ := hbody
          obtain rfl : body' = _ := hbody'
          obtain ⟨rfl, hrests⟩ := strings_read heq
          exact ⟨rfl, hrests⟩
      | _ => cases hkind
  | enum constructorName =>
      cases value' with
      | enum constructorName' =>
          obtain rfl : body = _ := hbody
          obtain rfl : body' = _ := hbody'
          obtain ⟨rfl, hrests⟩ := strings_read heq
          exact ⟨rfl, hrests⟩
      | _ => cases hkind
  | date epochDay =>
      cases value' with
      | date epochDay' =>
          obtain rfl : body = _ := hbody
          obtain rfl : body' = _ := hbody'
          obtain ⟨htext, hrests⟩ := numbers_read (numberChars_toString _) (numberChars_toString _) hrest hrest'
            (List.cons.inj heq).2
          obtain rfl := toString_injective (String.toList_inj.mp htext)
          exact ⟨rfl, hrests⟩
      | _ => cases hkind
  | numeric value =>
      cases value' with
      | numeric value' =>
          obtain rfl : body = _ := hbody
          obtain rfl : body' = _ := hbody'
          obtain ⟨digits, hdigits⟩ := hformed
          obtain ⟨digits', hdigits'⟩ := hformed'
          obtain ⟨htext, hrests⟩ := numbers_read (numberChars_canonicalNumeric hdigits)
            (numberChars_canonicalNumeric hdigits') hrest hrest' (List.cons.inj heq).2
          exact ⟨⟨value', rfl, spellAlike_of_canonicalNumeric hdigits hdigits' (String.toList_inj.mp htext)⟩, hrests⟩
      | _ => cases hkind
  | unset => exact hformed.elim

end CantonSdk.DamlValues
