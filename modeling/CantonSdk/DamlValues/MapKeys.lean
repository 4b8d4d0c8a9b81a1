import CantonSdk.DamlValues.KeyReading

/-!
# Duplicate keys of general maps

`mapGenMap` refuses a general map when two of its keys are spelled alike. It refuses exactly the maps with two
keys of one DAML value when no two keys differ in their spelling alone.
-/

set_option linter.all false

namespace CantonSdk.DamlValues

open CantonSdk.Base CantonSdk.Query.Canonical CantonSdk.Query.Grpc

variable {locale : Collation}

/-- Every accepted value has a key. -/
theorem exists_key (value : Value) (h : Accepted locale value) : ∃ text, HasKey locale value text := by
  induction value using parts_induction with
  | step value ih =>
  have hparts : ∀ part ∈ parts value, ∃ text, HasKey locale part text :=
    fun part hpart => ih part hpart (accepted_parts h part hpart)
  have hpart : ∀ {part : Option Value}, (∃ inner, part = some inner) → (∀ inner ∈ part, inner ∈ parts value) →
      ∃ text, PartKey locale part text := by
    intro part hpresent hmem
    obtain ⟨inner, rfl⟩ := hpresent
    obtain ⟨text, htext⟩ := hparts inner (hmem inner rfl)
    exact ⟨text, inner, rfl, htext⟩
  have hformed := formed_of_accepted h
  cases value with
  | optional value =>
      cases value with
      | none => exact ⟨_, rfl⟩
      | some inner =>
          obtain ⟨text, htext⟩ := hparts inner List.mem_cons_self
          exact ⟨_, bind_eq_ok.mpr ⟨text, htext, rfl⟩⟩
  | list elements =>
      obtain ⟨texts, htexts⟩ := exists_related hparts
      exact ⟨_, bind_eq_ok.mpr ⟨texts, canonicalItems_eq_ok.mpr htexts, rfl⟩⟩
  | textMap entries =>
      have hentries : ∀ entry ∈ entries, ∃ field, EntryKey locale entry field := by
        intro entry hentry
        obtain ⟨text, htext⟩ := hpart (hformed.2 entry hentry) fun inner hinner => mem_entryParts hentry hinner
        exact ⟨(entry.1, text), rfl, htext⟩
      obtain ⟨fields, hfields⟩ := exists_related hentries
      exact ⟨_, bind_eq_ok.mpr ⟨fields, canonicalEntries_eq_ok.mpr hfields, rfl⟩⟩
  | record entries =>
      have hentries : ∀ entry ∈ entries, ∃ field, EntryKey locale entry field := by
        intro entry hentry
        obtain ⟨text, htext⟩ := hpart (hformed.2.2 entry hentry) fun inner hinner => mem_entryParts hentry hinner
        exact ⟨(entry.1, text), rfl, htext⟩
      obtain ⟨fields, hfields⟩ := exists_related hentries
      exact ⟨_, bind_eq_ok.mpr ⟨fields, canonicalEntries_eq_ok.mpr hfields, rfl⟩⟩
  | genMap entries =>
      have hentries : ∀ pair ∈ entries, ∃ text, PairKey locale pair text := by
        intro pair hpair
        obtain ⟨hkeyPresent, hvaluePresent⟩ := hformed pair hpair
        obtain ⟨keyText, hkeyText⟩ := hpart hkeyPresent fun inner hinner => mem_pairParts hpair (.inl hinner)
        obtain ⟨valueText, hvalueText⟩ := hpart hvaluePresent fun inner hinner => mem_pairParts hpair (.inr hinner)
        exact ⟨_, keyText, valueText, rfl, hkeyText, hvalueText⟩
      obtain ⟨texts, htexts⟩ := exists_related hentries
      exact ⟨_, bind_eq_ok.mpr ⟨texts, canonicalPairs_eq_ok.mpr htexts, rfl⟩⟩
  | variant constructorName value =>
      obtain ⟨inner, rfl⟩ := hformed
      obtain ⟨text, htext⟩ := hparts inner List.mem_cons_self
      exact ⟨_, bind_eq_ok.mpr ⟨text, htext, rfl⟩⟩
  | unset => exact hformed.elim
  | _ => exact ⟨_, rfl⟩

/-! ## Values that are spelled alike -/

theorem eq_of_perm_of_keys {α : Type} {list other : List (String × α)} (hperm : list.Perm other)
    (hnodup : (list.map Prod.fst).Nodup) (hkeys : list.map Prod.fst = other.map Prod.fst) : list = other := by
  induction list generalizing other with
  | nil => exact hperm.nil_eq
  | cons entry rest ih =>
      cases other with
      | nil => cases hkeys
      | cons entry' rest' =>
          obtain ⟨hkey, hrest⟩ := List.cons.inj hkeys
          have hmem : entry' ∈ entry :: rest := hperm.mem_iff.mpr List.mem_cons_self
          rw [List.map_cons, List.nodup_cons] at hnodup
          have hsame : entry' = entry := by
            rcases List.mem_cons.mp hmem with hsame | hlater
            · exact hsame
            · exact absurd (hkey ▸ List.mem_map_of_mem hlater) hnodup.1
          subst hsame
          rw [ih hperm.cons_inv hnodup.2 hrest]

/-- The names of the fields of accepted records are told apart by every collation. -/
theorem isPlain_of_name {name : String} (h : isNameString name.toList = true) : isPlain name = true := by
  have hchars : ∀ c ∈ name.toList, isNameChar c = true := by
    intro c hc
    generalize name.toList = chars at h hc
    cases chars with
    | nil => cases hc
    | cons first rest =>
        simp only [isNameString, isNameStart, Bool.and_eq_true, Bool.or_eq_true, List.all_eq_true] at h
        rcases List.mem_cons.mp hc with rfl | hrest
        · simp only [isNameChar, Char.isAlphanum, Bool.or_eq_true]
          exact h.1.1.imp_left fun hstart => hstart.imp_left .inl
        · exact h.2 c hrest
  rw [isPlain, List.all_eq_true]
  intro c hc
  have hname := hchars c hc
  simp only [isNameChar, Bool.or_eq_true, decide_eq_true_eq] at hname
  rw [decide_eq_true_iff]
  rcases hname with (halphanum | rfl) | rfl
  · exact plain_of_isAlphanum halphanum
  · decide
  · decide

/-- Entries that are alike in some order, and of which the collation lists the names in one order, are written in
one way. -/
theorem fieldsBody_eq {entries entries' listed : List Entry} (hperm : listed.Perm entries')
    (hnodup : (entries'.map Prod.fst).Nodup) (halike : EntriesAlike (spelledAlike locale) entries listed)
    (horder : sortBy locale.localeCompare (entries.map Prod.fst) = sortBy locale.localeCompare (entries'.map Prod.fst))
    (hsame : ∀ entry ∈ entries, ∀ entry' ∈ entries', EntryAlike (spelledAlike locale) entry entry' →
      ∀ text text', PartKey locale entry.2 text → PartKey locale entry'.2 text' → text = text')
    {body body' : List Char} (hbody : FieldsBody locale entries body) (hbody' : FieldsBody locale entries' body') :
    body = body' := by
  obtain ⟨fields, hfields, rfl⟩ := hbody
  obtain ⟨fields', hfields', rfl⟩ := hbody'
  have hsorted := @forall₂_sortBy _ _ _ _ locale.localeCompare Prod.fst Prod.fst _ _ hfields fun _ _ h => h.1.symm
  have hsorted' := @forall₂_sortBy _ _ _ _ locale.localeCompare Prod.fst Prod.fst _ _ hfields' fun _ _ h => h.1.symm
  obtain ⟨aligned, haligned, hpermAligned⟩ := List.perm_comp_forall₂
    (perm_sortBy (compareKey locale.localeCompare Prod.fst) entries) (entriesAlike_iff.mp halike)
  have hpermBoth : aligned.Perm (sortBy (compareKey locale.localeCompare Prod.fst) entries') :=
    (hpermAligned.trans hperm).trans (perm_sortBy _ entries').symm
  have hkeys : aligned.map Prod.fst = (sortBy (compareKey locale.localeCompare Prod.fst) entries').map Prod.fst := by
    rw [map_sortBy, ← horder, ← map_sortBy, ← List.forall₂_eq_eq_eq, List.forall₂_map_left_iff,
      List.forall₂_map_right_iff]
    exact (haligned.imp fun _ _ hentry => hentry.1).flip
  have haligned' : aligned = sortBy (compareKey locale.localeCompare Prod.fst) entries' := by
    refine eq_of_perm_of_keys hpermBoth ?_ hkeys
    exact ((hpermAligned.trans hperm).map Prod.fst).nodup_iff.mpr hnodup
  rw [haligned'] at haligned
  have hfieldsSame := images_eq_of_forall₂ haligned hsorted hsorted' ?_
  · rw [hfieldsSame]
  · intro entry hentry entry' hentry' hboth field field' hfield hfield'
    refine Prod.ext (hfield.1.trans (hboth.1.symm.trans hfield'.1.symm)) ?_
    exact hsame entry (mem_sortBy.mp hentry) entry' (mem_sortBy.mp hentry') hboth _ _ hfield.2 hfield'.2

/-- The key of a value says no more than how the value is spelled. -/
theorem key_eq_of_spelledAlike (value : Value) (hvalue : Accepted locale value) {value' : Value}
    (hvalue' : Accepted locale value') (h : SpelledAlike locale value value') {text text' : String}
    (htext : HasKey locale value text) (htext' : HasKey locale value' text') : text = text' := by
  induction value using parts_induction generalizing value' text text' with
  | step value ih =>
  have haccepted := accepted_parts hvalue
  have haccepted' := accepted_parts hvalue'
  have hformed := formed_of_accepted hvalue
  have hformed' := formed_of_accepted hvalue'
  have hpart : ∀ {part part' : Option Value}, (∀ inner ∈ part, inner ∈ parts value) →
      (∀ inner ∈ part', inner ∈ parts value') → PartAlike (spelledAlike locale) part part' →
      ∀ text text', PartKey locale part text → PartKey locale part' text' → text = text' := by
    intro part part' hmem hmem' halike text text' htext htext'
    obtain ⟨inner, rfl, hinner⟩ := htext
    obtain ⟨inner', rfl, hinner'⟩ := htext'
    obtain ⟨_, hsome, halikeInner⟩ := halike
    obtain rfl := Option.some.inj hsome
    exact ih inner (hmem inner rfl) (haccepted inner (hmem inner rfl)) (haccepted' inner' (hmem' inner' rfl)) halikeInner
      hinner hinner'
  obtain ⟨body, hbody, hkey⟩ := key_body htext
  obtain ⟨body', hbody', hkey'⟩ := key_body htext'
  suffices hsame : oneofKind value = oneofKind value' ∧ body = body' by
    rw [← String.toList_inj, hbody, hbody', hsame.1, hsame.2]
  cases value with
  | list elements =>
      obtain ⟨elements', rfl, halike⟩ := h
      obtain ⟨texts, htexts, rfl⟩ := hkey
      obtain ⟨texts', htexts', rfl⟩ := hkey'
      have htextsSame := images_eq_of_forall₂ (itemsAlike_iff.mp halike) htexts htexts' fun element helement element'
        helement' hboth _ _ => ih element helement (haccepted element helement) (haccepted' element' helement') hboth
      rw [htextsSame]
      exact ⟨rfl, rfl⟩
  | textMap entries =>
      obtain ⟨entries', listed, rfl, hperm, halike, horder⟩ := h
      refine ⟨rfl, fieldsBody_eq hperm hformed'.1 halike horder ?_ hkey hkey'⟩
      intro entry hentry entry' hentry' hboth
      exact hpart (fun _ hinner => mem_entryParts hentry hinner) (fun _ hinner => mem_entryParts hentry' hinner) hboth.2
  | record fields =>
      obtain ⟨fields', listed, rfl, hperm, halike⟩ := h
      have hkeys : (fields.map Prod.fst).Perm (fields'.map Prod.fst) := by
        have hlisted : fields.map Prod.fst = listed.map Prod.fst := by
          rw [← List.forall₂_eq_eq_eq, List.forall₂_map_left_iff, List.forall₂_map_right_iff]
          exact (entriesAlike_iff.mp halike).imp fun _ _ hentry => hentry.1.symm
        rw [hlisted]
        exact hperm.map Prod.fst
      have hstrict : ∀ name ∈ fields.map Prod.fst, ∀ name' ∈ fields.map Prod.fst,
          locale.localeCompare name name' = .eq → name = name' := by
        intro name hname name' hname' htie
        obtain ⟨field, hfield, rfl⟩ := List.mem_map.mp hname
        obtain ⟨field', hfield', rfl⟩ := List.mem_map.mp hname'
        exact locale.eq_of_plain _ _ (isPlain_of_name (hformed.2.1 field hfield))
          (isPlain_of_name (hformed.2.1 field' hfield')) htie
      refine ⟨rfl, fieldsBody_eq hperm hformed'.1 halike (sortBy_eq_of_perm hstrict hkeys) ?_ hkey hkey'⟩
      intro entry hentry entry' hentry' hboth
      exact hpart (fun _ hinner => mem_entryParts hentry hinner) (fun _ hinner => mem_entryParts hentry' hinner) hboth.2
  | genMap entries =>
      obtain ⟨entries', listed, rfl, hperm, halike⟩ := h
      obtain ⟨texts, htexts, rfl⟩ := hkey
      obtain ⟨texts', htexts', rfl⟩ := hkey'
      obtain ⟨textsListed, hkeys, hpermTexts⟩ := List.perm_comp_forall₂ hperm htexts'
      have htextsSame : texts = textsListed := by
        refine images_eq_of_forall₂ (pairsAlike_iff.mp halike) htexts hkeys ?_
        intro pair hpair pair' hpair' hboth text text' htext htext'
        have hpair' := hperm.mem_iff.mp hpair'
        obtain ⟨keyText, valueText, rfl, hkeyText, hvalueText⟩ := htext
        obtain ⟨keyText', valueText', rfl, hkeyText', hvalueText'⟩ := htext'
        rw [hpart (fun _ hinner => mem_pairParts hpair (.inl hinner)) (fun _ hinner => mem_pairParts hpair' (.inl hinner))
            hboth.1 _ _ hkeyText hkeyText',
          hpart (fun _ hinner => mem_pairParts hpair (.inr hinner)) (fun _ hinner => mem_pairParts hpair' (.inr hinner))
            hboth.2 _ _ hvalueText hvalueText']
      rw [htextsSame, sortBy_eq_of_perm (fun _ _ _ _ => eq_of_compareText) hpermTexts]
      exact ⟨rfl, rfl⟩
  | variant constructorName value =>
      obtain ⟨value', rfl, halike⟩ := h
      obtain ⟨inner, hinner, rfl⟩ := hkey
      obtain ⟨inner', hinner', rfl⟩ := hkey'
      rw [hpart (fun _ => Option.mem_toList.mpr) (fun _ => Option.mem_toList.mpr) halike _ _ hinner hinner']
      exact ⟨rfl, rfl⟩
  | optional value =>
      obtain ⟨value', rfl, halike⟩ := h
      cases value with
      | none =>
          obtain rfl | ⟨_, _, hnever⟩ := halike
          · exact ⟨rfl, (show body = _ from hkey).trans (show body' = _ from hkey').symm⟩
          · exact hnever.elim
      | some inner =>
          obtain ⟨_, hnever⟩ | ⟨inner', rfl, halike⟩ := halike
          · exact hnever.elim
          · obtain ⟨text, htext, rfl⟩ := hkey
            obtain ⟨text', htext', rfl⟩ := hkey'
            rw [ih inner List.mem_cons_self (haccepted inner List.mem_cons_self) (haccepted' inner' List.mem_cons_self)
              halike htext htext']
            exact ⟨rfl, rfl⟩
  | int64 value =>
      obtain ⟨value', rfl, rfl⟩ := h
      exact ⟨rfl, (show body = _ from hkey).trans (show body' = _ from hkey').symm⟩
  | timestamp micros =>
      obtain ⟨micros', rfl, rfl⟩ := h
      exact ⟨rfl, (show body = _ from hkey).trans (show body' = _ from hkey').symm⟩
  | numeric value =>
      obtain ⟨value', rfl, number, hnumber, hnumber'⟩ := h
      obtain ⟨⟨whole, fraction⟩, hdigits, hspelled⟩ := Option.map_eq_some_iff.mp hnumber
      obtain ⟨⟨whole', fraction'⟩, hdigits', hspelled'⟩ := Option.map_eq_some_iff.mp hnumber'
      have hcanonical := canonicalNumeric_congr hdigits hdigits' (hspelled.trans hspelled'.symm)
      refine ⟨rfl, (show body = _ from hkey).trans ?_⟩
      rw [hcanonical]
      exact (show body' = _ from hkey').symm
  | unset => exact hformed.elim
  | _ =>
      obtain rfl : value' = _ := h
      exact ⟨rfl, (show body = _ from hkey).trans (show body' = _ from hkey').symm⟩

/-- Values that are spelled alike denote the same DAML value. -/
theorem sameValue_of_spelledAlike (value : Value) (hvalue : Accepted locale value) {value' : Value}
    (h : SpelledAlike locale value value') : SameValue value value' := by
  induction value using parts_induction generalizing value' with
  | step value ih =>
  have haccepted := accepted_parts hvalue
  have hformed := formed_of_accepted hvalue
  have hpart : ∀ {part part' : Option Value}, (∀ inner ∈ part, inner ∈ parts value) →
      PartAlike (spelledAlike locale) part part' → PartAlike sameValues part part' := by
    intro part part' hmem halike
    cases part with
    | none => exact halike
    | some inner =>
        obtain ⟨inner', rfl, halikeInner⟩ := halike
        exact ⟨inner', rfl, ih inner (hmem inner rfl) (haccepted inner (hmem inner rfl)) halikeInner⟩
  have hentries : ∀ {entries listed : List Entry}, (∀ entry ∈ entries, ∀ inner ∈ entry.2, inner ∈ parts value) →
      EntriesAlike (spelledAlike locale) entries listed → EntriesAlike sameValues entries listed := by
    intro entries listed hmem halike
    refine entriesAlike_iff.mpr ((forall₂_with_mem (entriesAlike_iff.mp halike)).imp ?_)
    intro entry entry' hboth
    exact ⟨hboth.2.1, hpart (hmem entry hboth.1) hboth.2.2⟩
  cases value with
  | list elements =>
      obtain ⟨elements', rfl, halike⟩ := h
      refine ⟨elements', rfl, itemsAlike_iff.mpr ((forall₂_with_mem (itemsAlike_iff.mp halike)).imp ?_)⟩
      intro element element' hboth
      exact ih element hboth.1 (haccepted element hboth.1) hboth.2
  | textMap entries =>
      obtain ⟨entries', listed, rfl, hperm, halike, _⟩ := h
      exact ⟨entries', listed, rfl, hperm, hentries (fun _ hentry _ hinner => mem_entryParts hentry hinner) halike, trivial⟩
  | record fields =>
      obtain ⟨fields', listed, rfl, hperm, halike⟩ := h
      exact ⟨fields', listed, rfl, hperm, hentries (fun _ hentry _ hinner => mem_entryParts hentry hinner) halike⟩
  | genMap entries =>
      obtain ⟨entries', listed, rfl, hperm, halike⟩ := h
      refine ⟨entries', listed, rfl, hperm, pairsAlike_iff.mpr ((forall₂_with_mem (pairsAlike_iff.mp halike)).imp ?_)⟩
      intro pair pair' hboth
      exact ⟨hpart (fun _ hinner => mem_pairParts hboth.1 (.inl hinner)) hboth.2.1,
        hpart (fun _ hinner => mem_pairParts hboth.1 (.inr hinner)) hboth.2.2⟩
  | variant constructorName value =>
      obtain ⟨value', rfl, halike⟩ := h
      exact ⟨value', rfl, hpart (fun _ => Option.mem_toList.mpr) halike⟩
  | optional value =>
      obtain ⟨value', rfl, halike⟩ := h
      cases value with
      | none => exact ⟨value', rfl, halike⟩
      | some inner =>
          obtain hnever | ⟨inner', rfl, halikeInner⟩ := halike
          · exact hnever.2.elim
          · exact ⟨some inner', rfl, .inr ⟨inner', rfl,
              ih inner List.mem_cons_self (haccepted inner List.mem_cons_self) halikeInner⟩⟩
  | int64 value =>
      obtain ⟨value', rfl, rfl⟩ := h
      obtain ⟨integer, hinteger⟩ := hformed
      exact ⟨value, rfl, integer, hinteger, hinteger⟩
  | timestamp micros =>
      obtain ⟨micros', rfl, rfl⟩ := h
      obtain ⟨integer, hinteger⟩ := hformed
      exact ⟨micros, rfl, integer, hinteger, hinteger⟩
  | _ => exact h

/-! ## General maps -/

/-- Two keys of a list stand in a relation. -/
def SomeTwo (R : Value → Value → Prop) (keys : List Value) : Prop :=
  ∃ (first second : Nat) (key key' : Value), first ≠ second ∧ keys[first]? = some key ∧ keys[second]? = some key' ∧
    R key key'

/-- The mapping of a value succeeds at a depth. -/
def Maps (locale : Collation) (depth : Nat) (value : Value) : Prop := ∃ mapped, mapValue locale depth value = .ok mapped

/-- Two keys are spelled alike exactly when one text occurs twice among their texts. -/
theorem someTwo_spelledAlike_iff {keys : List Value} {texts : List String} (haccepted : ∀ key ∈ keys, Accepted locale key)
    (htexts : List.Forall₂ (HasKey locale) keys texts) : SomeTwo (SpelledAlike locale) keys ↔ ¬ texts.Nodup := by
  obtain ⟨hlength, hget⟩ := List.forall₂_iff_get.mp htexts
  have hat : ∀ (index : Nat) (key : Value), keys[index]? = some key →
      Accepted locale key ∧ ∃ text, texts[index]? = some text ∧ HasKey locale key text := by
    intro index key hkey
    obtain ⟨hindex, rfl⟩ := List.getElem?_eq_some_iff.mp hkey
    exact ⟨haccepted _ (List.getElem_mem hindex), texts[index], List.getElem?_eq_getElem (hlength ▸ hindex), hget index hindex _⟩
  constructor
  · intro h hnodup
    obtain ⟨first, second, key, key', hne, hkey, hkey', halike⟩ := h
    obtain ⟨hfirst, text, htext, hhas⟩ := hat first key hkey
    obtain ⟨hsecond, text', htext', hhas'⟩ := hat second key' hkey'
    obtain rfl := key_eq_of_spelledAlike key hfirst hsecond halike hhas hhas'
    obtain ⟨hindex, _⟩ := List.getElem?_eq_some_iff.mp htext
    exact hne ((List.getElem?_inj hindex hnodup).mp (htext.trans htext'.symm))
  · intro h
    rw [List.nodup_iff_getElem?_ne_getElem?] at h
    simp only [not_forall, not_not] at h
    obtain ⟨first, second, hlt, hsecond, hsame⟩ := h
    have hfirst : first < texts.length := hlt.trans hsecond
    have hkey := List.getElem?_eq_getElem (hlength.symm ▸ hfirst : first < keys.length)
    have hkey' := List.getElem?_eq_getElem (hlength.symm ▸ hsecond : second < keys.length)
    obtain ⟨hfirstOk, text, htext, hhas⟩ := hat first _ hkey
    obtain ⟨hsecondOk, text', htext', hhas'⟩ := hat second _ hkey'
    obtain rfl := Option.some.inj (htext.symm.trans (hsame.trans htext'))
    exact ⟨first, second, _, _, hlt.ne, hkey, hkey', (readsParts _ hfirstOk _ hsecondOk).alike hhas hhas'⟩

/-- A general map whose keys and values are mapped is refused exactly when one text occurs twice among the texts of
its keys. -/
theorem mapGenMap_succeeds_iff {depth index : Nat} {seen : List String} {entries : List (Value × Value)} {texts : List String}
    (hmaps : ∀ entry ∈ entries, Maps locale depth entry.1 ∧ Maps locale depth entry.2)
    (htexts : List.Forall₂ (HasKey locale) (entries.map Prod.fst) texts) :
    (∃ pairs, mapGenMap locale depth index seen (entries.map fun entry => (some entry.1, some entry.2)) = .ok pairs) ↔
      texts.Nodup ∧ ∀ text ∈ texts, text ∉ seen := by
  induction entries generalizing index seen texts with
  | nil =>
      cases htexts
      exact iff_of_true ⟨[], rfl⟩ ⟨List.nodup_nil, nofun⟩
  | cons entry rest ih =>
      obtain ⟨key, value⟩ := entry
      cases htexts with
      | @cons _ text _ others htext hothers =>
          rw [List.forall_mem_cons] at hmaps
          obtain ⟨⟨⟨mappedKey, hkey⟩, mappedValue, hvalue⟩, hrest⟩ := hmaps
          have hcanonical : canonicalLedgerKey locale key = .ok text := htext
          have hstep : mapGenMap locale depth index seen ((some key, some value) :: rest.map fun entry => (some entry.1, some entry.2))
              = if text ∈ seen then .error (.validation s!"gRPC query gen-map has duplicate key at entry {index}")
                else do
                  return .array [mappedKey, mappedValue] :: (← mapGenMap locale depth (index + 1) (seen ++ [text])
                    (rest.map fun entry => (some entry.1, some entry.2))) := by
            simp only [mapGenMap, mapPart, canonicalPart, hkey, hvalue, hcanonical]
            rfl
          rw [List.map_cons, hstep, List.nodup_cons, List.forall_mem_cons]
          by_cases hseen : text ∈ seen
          · rw [if_pos hseen]
            refine iff_of_false ?_ fun h => h.2.1 hseen
            intro h
            obtain ⟨_, h⟩ := h
            cases h
          · rw [if_neg hseen]
            have hloop := @ih (index + 1) (seen ++ [text]) others hrest hothers
            have hfresh : (∀ other ∈ others, other ∉ seen ++ [text]) ↔ text ∉ others ∧ ∀ other ∈ others, other ∉ seen := by
              simp only [List.mem_append, List.mem_singleton, not_or]
              constructor
              · exact fun h => ⟨fun hmem => (h text hmem).2 rfl, fun other hother => (h other hother).1⟩
              · intro h other hother
                refine ⟨h.2 other hother, ?_⟩
                rintro rfl
                exact h.1 hother
            rw [hfresh] at hloop
            constructor
            · intro h
              obtain ⟨pairs, h⟩ := h
              obtain ⟨mapped, hmapped, _⟩ := bind_eq_ok.mp h
              obtain ⟨hnodup, hnew, hunseen⟩ := hloop.mp ⟨mapped, hmapped⟩
              exact ⟨⟨hnew, hnodup⟩, hseen, hunseen⟩
            · intro h
              obtain ⟨⟨hnew, hnodup⟩, _, hunseen⟩ := h
              obtain ⟨mapped, hmapped⟩ := hloop.mpr ⟨hnodup, hnew, hunseen⟩
              exact ⟨_, bind_eq_ok.mpr ⟨mapped, hmapped, rfl⟩⟩

/-- The entries of a general map are refused. -/
def Refuses (locale : Collation) (depth : Nat) (entries : List (Value × Value)) : Prop :=
  ∃ error, mapGenMap locale depth 0 [] (entries.map fun entry => (some entry.1, some entry.2)) = .error error

theorem refuses_iff {depth : Nat} {entries : List (Value × Value)}
    (hmaps : ∀ entry ∈ entries, Maps locale depth entry.1 ∧ Maps locale depth entry.2) :
    Refuses locale depth entries ↔ SomeTwo (SpelledAlike locale) (entries.map Prod.fst) := by
  have haccepted : ∀ key ∈ entries.map Prod.fst, Accepted locale key := by
    intro key hkey
    obtain ⟨entry, hentry, rfl⟩ := List.mem_map.mp hkey
    exact ⟨depth, (hmaps entry hentry).1⟩
  obtain ⟨texts, htexts⟩ := exists_related fun key hkey => exists_key key (haccepted key hkey)
  have hsucceeds := @mapGenMap_succeeds_iff locale depth 0 [] entries texts hmaps htexts
  rw [someTwo_spelledAlike_iff haccepted htexts, Refuses]
  cases hmapped : mapGenMap locale depth 0 [] (entries.map fun entry => (some entry.1, some entry.2)) with
  | error error =>
      refine iff_of_true ⟨error, rfl⟩ ?_
      intro hnodup
      obtain ⟨pairs, hpairs⟩ := hsucceeds.mpr ⟨hnodup, fun _ _ => List.not_mem_nil⟩
      rw [hmapped] at hpairs
      cases hpairs
  | ok pairs =>
      refine iff_of_false nofun ?_
      rw [not_not]
      exact (hsucceeds.mp ⟨pairs, hmapped⟩).1

/-- A general map whose keys and values are mapped is refused exactly when two of its keys denote the same DAML value,
if and only if two such keys, where there are any, come with two keys that are spelled alike. -/
theorem duplicates_refused_iff {depth : Nat} {entries : List (Value × Value)}
    (hmaps : ∀ entry ∈ entries, Maps locale depth entry.1 ∧ Maps locale depth entry.2) :
    (Refuses locale depth entries ↔ SomeTwo SameValue (entries.map Prod.fst)) ↔
      (SomeTwo SameValue (entries.map Prod.fst) → SomeTwo (SpelledAlike locale) (entries.map Prod.fst)) := by
  have hspelled : SomeTwo (SpelledAlike locale) (entries.map Prod.fst) → SomeTwo SameValue (entries.map Prod.fst) := by
    intro h
    obtain ⟨first, second, key, key', hne, hkey, hkey', halike⟩ := h
    obtain ⟨entry, hentry, rfl⟩ := List.mem_map.mp (List.mem_of_getElem? hkey)
    have haccepted : Accepted locale entry.1 := ⟨depth, (hmaps entry hentry).1⟩
    exact ⟨first, second, entry.1, key', hne, hkey, hkey', sameValue_of_spelledAlike entry.1 haccepted halike⟩
  rw [refuses_iff hmaps]
  exact ⟨fun h => h.mpr, fun h => ⟨hspelled, h⟩⟩

/-- A map with the keys `0` and `-0`. -/
def signedZeros : List (Value × Value) := [(.int64 "0", .unit), (.int64 "-0", .unit)]

theorem maps_signedZeros : ∀ entry ∈ signedZeros, Maps Collation.codeUnits 1 entry.1 ∧ Maps Collation.codeUnits 1 entry.2 := by
  intro entry hentry
  simp only [signedZeros, List.mem_cons, List.not_mem_nil, or_false] at hentry
  rcases hentry with rfl | rfl
  · exact ⟨⟨.text "0", rfl⟩, .object [], rfl⟩
  · exact ⟨⟨.text "-0", rfl⟩, .object [], rfl⟩

theorem duplicates_refused_zeros :
    (Refuses Collation.codeUnits 1 signedZeros ↔ SomeTwo SameValue (signedZeros.map Prod.fst)) ↔
      (SomeTwo SameValue (signedZeros.map Prod.fst) →
        SomeTwo (SpelledAlike Collation.codeUnits) (signedZeros.map Prod.fst)) :=
  duplicates_refused_iff maps_signedZeros

/-- One integer, spelled in two ways, is the key of two entries of an accepted map. -/
theorem signed_zeros_accepted :
    (∀ entry ∈ signedZeros, Maps Collation.codeUnits 1 entry.1 ∧ Maps Collation.codeUnits 1 entry.2) ∧
      SomeTwo SameValue (signedZeros.map Prod.fst) ∧ ¬ Refuses Collation.codeUnits 1 signedZeros := by
  refine ⟨maps_signedZeros, ?_, ?_⟩
  · exact ⟨0, 1, .int64 "0", .int64 "-0", by decide, rfl, rfl, "-0", rfl, 0, by decide, by decide⟩
  · intro h
    obtain ⟨error, h⟩ := h
    have hmapped : mapGenMap Collation.codeUnits 1 0 [] (signedZeros.map fun entry => (some entry.1, some entry.2))
        = .ok [.array [.text "0", .object []], .array [.text "-0", .object []]] := by rfl
    rw [hmapped] at h
    cases h

end CantonSdk.DamlValues
