import CantonSdk.Base.HostMap
import CantonSdk.DamlLf.Interpreter.BuiltinDispatch
import Mathlib.Data.String.Basic

/-!
# Text maps and generic maps

Text maps are objects of the host, generic maps are lists of entries. Both hold untyped values, which are typed again
when they are read. Under a run of insertions and deletions they hold what a map in insertion order holds; what is
read from them is what was inserted as far as the values survive, the names are not inherited, the keys are told
apart, and they were inserted in ascending order.
-/

set_option linter.all false

namespace CantonSdk.DamlLf.Interpreter

open CantonSdk.Base

variable {κ : Type}

/-- The value is the same when it is stored and read again, and is not what a lookup that finds nothing returns. -/
def Survives (value : RuntimeValue κ) : Prop := hydrateValue (unwrapValue value) = value ∧ value.isUnit = false

/-- The entries are listed in ascending order of their keys. -/
def ListsAscending {K υ : Type} [LT K] (m : KeyedMap K υ) (listed : List (K × υ)) : Prop :=
  listed.Perm m.entries ∧ (listed.map Prod.fst).Pairwise (· < ·)

-- how the host writes a function value, with the frame that it belongs to
variable (functionText : κ → String)

/-! ## Text maps -/

inductive TextOperation (κ : Type)
  | insert (key : String) (value : RuntimeValue κ)
  | delete (key : String)

def textStep (map : RuntimeValue κ) : TextOperation κ → Except HostError (RuntimeValue κ)
  | .insert key value => applyOrThrow functionText .textmapInsert [] [.text key, value, map]
  | .delete key => applyOrThrow functionText .textmapDelete [] [.text key, map]

/-- The map after the operations. -/
def runText (operations : List (TextOperation κ)) : Except HostError (RuntimeValue κ) :=
  operations.foldlM (textStep functionText) (.builtin .textmapEmpty [])

/-- What an operation does to a map in insertion order. -/
def TextOperation.apply (contents : KeyedMap String (RuntimeValue κ)) :
    TextOperation κ → KeyedMap String (RuntimeValue κ)
  | .insert key value => contents.set key value
  | .delete key => contents.delete key

/-- What the map should hold: each key with its last value, in the order in which the keys were first inserted. -/
def textContents (operations : List (TextOperation κ)) : KeyedMap String (RuntimeValue κ) :=
  operations.foldl TextOperation.apply KeyedMap.empty

/-- The map holds the contents, untyped. -/
def HoldsTexts (contents : KeyedMap String (RuntimeValue κ)) (map : RuntimeValue κ) : Prop :=
  readTextMap map = .ok (ownOrder (contents.mapValues unwrapValue).entries)

theorem mapValues_delete {υ ω : Type} (f : υ → ω) (m : KeyedMap String υ) (key : String) :
    (m.delete key).mapValues f = (m.mapValues f).delete key := by
  apply KeyedMap.ext_entries
  change List.map _ (List.filter _ m.entries) = List.filter _ (List.map _ m.entries)
  rw [List.filter_map]
  rfl

section Read

variable {map : RuntimeValue κ} {textMap : List (String × Raw κ)} (hmap : readTextMap map = .ok textMap) (key : String)

include hmap

theorem apply_textmapInsert (value : RuntimeValue κ) :
    applyOrThrow functionText .textmapInsert [] [.text key, value, map]
      = .ok (.ledgerValue (.object (assigned (textMap ++ [(key, unwrapValue value)]))) none) := by
  simp only [applyOrThrow, List.nil_append]
  rw [hmap]
  rfl

theorem apply_textmapDelete :
    applyOrThrow functionText .textmapDelete [] [.text key, map]
      = .ok (.ledgerValue (.object (textMap.filter fun entry => entry.1 ≠ key)) none) := by
  simp only [applyOrThrow, List.nil_append]
  rw [hmap]
  rfl

theorem apply_textmapLookup :
    applyOrThrow functionText .textmapLookup [] [.text key, map] = .ok (hydrateValue (readProperty textMap key)) := by
  simp only [applyOrThrow, List.nil_append]
  rw [hmap]
  rfl

theorem apply_textmapSize :
    applyOrThrow functionText .textmapSize [] [map] = .ok (.int64 (toString textMap.length)) := by
  simp only [applyOrThrow, List.nil_append]
  rw [hmap]
  rfl

theorem apply_textmapToList :
    applyOrThrow functionText .textmapToList [] [map]
      = .ok (.ledgerValue (.array (textMap.map fun entry => .object [("0", .string entry.1), ("1", entry.2)])) none) := by
  simp only [applyOrThrow, List.nil_append]
  rw [hmap]
  rfl

end Read

section Texts

variable {contents : KeyedMap String (RuntimeValue κ)} {map : RuntimeValue κ} (hholds : HoldsTexts contents map)

include hholds

theorem textStep_holds (operation : TextOperation κ) :
    ∃ next, textStep functionText map operation = .ok next ∧ HoldsTexts (operation.apply contents) next := by
  cases operation with
  | insert key value =>
      have hinserted := assigned_ownOrder (contents.mapValues unwrapValue) key (unwrapValue value)
      refine ⟨_, apply_textmapInsert functionText hholds key value, ?_⟩
      rw [HoldsTexts, readTextMap, hinserted, TextOperation.apply, KeyedMap.mapValues_set]
  | delete key =>
      have hdeleted := filter_ownOrder (contents.mapValues unwrapValue) key
      refine ⟨_, apply_textmapDelete functionText hholds key, ?_⟩
      rw [HoldsTexts, readTextMap, hdeleted, TextOperation.apply, mapValues_delete]

/-- What a lookup finds. -/
theorem lookup_holds (key : String) :
    applyOrThrow functionText .textmapLookup [] [.text key, map]
      = .ok (hydrateValue (((contents.get key).map unwrapValue).getD
          (if inheritedNames.contains key then .inherited key else .undefined))) := by
  rw [apply_textmapLookup functionText hholds, readProperty, lookup_ownOrder, KeyedMap.get_mapValues]
  cases contents.get key <;> rfl

theorem size_holds :
    applyOrThrow functionText .textmapSize [] [map] = .ok (.int64 (toString contents.keys.length)) := by
  have hlength : (ownOrder (contents.mapValues unwrapValue).entries).length = contents.keys.length := by
    rw [(perm_ownOrder _).length_eq, KeyedMap.mapValues, List.length_map, KeyedMap.keys, List.length_map]
  rw [apply_textmapSize functionText hholds, hlength]

/-- The entries are listed in the order of the host. -/
theorem toList_holds :
    applyOrThrow functionText .textmapToList [] [map]
      = .ok (.ledgerValue (.array ((ownOrder contents.entries).map fun entry =>
          .object [("0", .string entry.1), ("1", unwrapValue entry.2)])) none) := by
  have hlisted := map_ownOrder (f := fun entry : String × RuntimeValue κ => (entry.1, unwrapValue entry.2))
    (fun _ => rfl) contents.entries
  rw [apply_textmapToList functionText hholds, KeyedMap.mapValues, ← hlisted, List.map_map]
  rfl

end Texts

theorem runText_holds (operations : List (TextOperation κ)) :
    ∃ map, runText functionText operations = .ok map ∧ HoldsTexts (textContents operations) map := by
  induction operations using List.reverseRecOn with
  | nil => exact ⟨_, rfl, rfl⟩
  | append_singleton front operation ih =>
      obtain ⟨map, hrun, hholds⟩ := ih
      obtain ⟨next, hstep, hnext⟩ := textStep_holds functionText hholds operation
      refine ⟨next, ?_, ?_⟩
      · rw [runText] at hrun ⊢
        rw [List.foldlM_append, hrun]
        change List.foldlM (textStep functionText) map [operation] = _
        rw [List.foldlM_cons, hstep]
        rfl
      · rw [textContents, List.foldl_append]
        exact hnext

/-! ## Generic maps -/

inductive MapOperation (κ : Type)
  | insert (key value : RuntimeValue κ)
  | delete (key : RuntimeValue κ)

def MapOperation.key : MapOperation κ → RuntimeValue κ
  | .insert key _ => key
  | .delete key => key

def mapStep (map : RuntimeValue κ) : MapOperation κ → Except HostError (RuntimeValue κ)
  | .insert key value => applyOrThrow functionText .genmapInsert [] [key, value, map]
  | .delete key => applyOrThrow functionText .genmapDelete [] [key, map]

/-- The map after the operations. -/
def runMap (operations : List (MapOperation κ)) : Except HostError (RuntimeValue κ) :=
  operations.foldlM (mapStep functionText) (.builtin .genmapEmpty [])

section Keys

-- the DAML value that a key stands for
variable {K : Type} [LinearOrder K] (keyOf : RuntimeValue κ → K)

/-- What an operation does to a map in insertion order, where a key that is inserted again moves to the end. -/
def MapOperation.apply (contents : KeyedMap K (RuntimeValue κ × RuntimeValue κ)) :
    MapOperation κ → KeyedMap K (RuntimeValue κ × RuntimeValue κ)
  | .insert key value => (contents.delete (keyOf key)).set (keyOf key) (key, value)
  | .delete key => contents.delete (keyOf key)

/-- What the map should hold: each key as it was last inserted, with its last value. -/
def mapContents (operations : List (MapOperation κ)) : KeyedMap K (RuntimeValue κ × RuntimeValue κ) :=
  operations.foldl (MapOperation.apply keyOf) KeyedMap.empty

/-- Read again, the keys of the entries equal the key exactly when they stand for the same DAML value. -/
def ToldApart (contents : KeyedMap K (RuntimeValue κ × RuntimeValue κ)) (key : RuntimeValue κ) : Prop :=
  ∀ entry ∈ contents.entries,
    areEqual functionText (hydrateValue (unwrapValue entry.2.1)) key = decide (entry.1 = keyOf key)

/-- Each key of the run is told apart from the keys that are there. -/
def RunToldApart (operations : List (MapOperation κ)) : Prop :=
  ∀ front operation back, operations = front ++ operation :: back →
    ToldApart functionText keyOf (mapContents keyOf front) operation.key

/-- An entry of a generic map, untyped. -/
def storedEntry (entry : K × RuntimeValue κ × RuntimeValue κ) : GenMapEntry κ :=
  ⟨.object [("key", unwrapValue entry.2.1), ("value", unwrapValue entry.2.2)], unwrapValue entry.2.1,
    unwrapValue entry.2.2⟩

/-- The map holds the contents, untyped. -/
def HoldsEntries (contents : KeyedMap K (RuntimeValue κ × RuntimeValue κ)) (map : RuntimeValue κ) : Prop :=
  readGenMap map = .ok (contents.entries.map storedEntry)

omit [LinearOrder K] in
theorem readGenMap_stored (entries : List (K × RuntimeValue κ × RuntimeValue κ)) (contractId : Option String) :
    readGenMap (.ledgerValue (.array (entries.map fun entry => (storedEntry entry).entry)) contractId)
      = .ok (entries.map storedEntry) := by
  rw [readGenMap]
  induction entries with
  | nil => rfl
  | cons entry rest ih =>
      have hentry : readGenMapEntry (storedEntry entry).entry = .ok (storedEntry entry) := rfl
      rw [List.map_cons, List.mapM_cons, hentry]
      change (do
        let others ← List.mapM readGenMapEntry (rest.map fun entry => (storedEntry entry).entry)
        return storedEntry entry :: others) = _
      rw [ih]
      rfl

section Read

variable {map : RuntimeValue κ} {entries : List (GenMapEntry κ)} (hmap : readGenMap map = .ok entries)

include hmap

theorem apply_genmapInsert (key value : RuntimeValue κ) :
    applyOrThrow functionText .genmapInsert [] [key, value, map]
      = .ok (.ledgerValue (.array (insertGenMapEntry functionText entries key value)) none) := by
  simp only [applyOrThrow, List.nil_append]
  rw [hmap]
  rfl

theorem apply_genmapDelete (key : RuntimeValue κ) :
    applyOrThrow functionText .genmapDelete [] [key, map]
      = .ok (.ledgerValue (.array ((entries.filter fun entry =>
          !areEqual functionText (hydrateValue entry.key) key).map (·.entry))) none) := by
  simp only [applyOrThrow, List.nil_append]
  rw [hmap]
  rfl

theorem apply_genmapLookup (key : RuntimeValue κ) :
    applyOrThrow functionText .genmapLookup [] [key, map]
      = .ok (((entries.find? fun entry => areEqual functionText (hydrateValue entry.key) key).map fun entry =>
          hydrateValue entry.value).getD .unit) := by
  simp only [applyOrThrow, List.nil_append]
  rw [hmap]
  cases hfound : entries.find? fun entry => areEqual functionText (hydrateValue entry.key) key <;>
    simp only [bind, Except.bind, hfound] <;> rfl

theorem apply_genmapKeys :
    applyOrThrow functionText .genmapKeys [] [map] = .ok (.ledgerValue (.array (entries.map (·.key))) none) := by
  simp only [applyOrThrow, List.nil_append]
  rw [hmap]
  rfl

theorem apply_genmapValues :
    applyOrThrow functionText .genmapValues [] [map] = .ok (.ledgerValue (.array (entries.map (·.value))) none) := by
  simp only [applyOrThrow, List.nil_append]
  rw [hmap]
  rfl

theorem apply_genmapSize :
    applyOrThrow functionText .genmapSize [] [map] = .ok (.int64 (toString entries.length)) := by
  simp only [applyOrThrow, List.nil_append]
  rw [hmap]
  rfl

end Read

section Entries

variable {contents : KeyedMap K (RuntimeValue κ × RuntimeValue κ)} {map key : RuntimeValue κ}

/-- The entries that do not equal the key are those of the other keys. -/
theorem retained_entries (htold : ToldApart functionText keyOf contents key) :
    (contents.entries.map storedEntry).filter (fun entry => !areEqual functionText (hydrateValue entry.key) key)
      = (contents.delete (keyOf key)).entries.map storedEntry := by
  rw [List.filter_map, KeyedMap.delete]
  congr 1
  apply List.filter_congr
  intro entry hentry
  have hequal := htold entry hentry
  change (!areEqual functionText (hydrateValue (unwrapValue entry.2.1)) key) = _
  rw [hequal, decide_not]

theorem mapStep_holds (hholds : HoldsEntries contents map) (operation : MapOperation κ)
    (htold : ToldApart functionText keyOf contents operation.key) :
    ∃ next, mapStep functionText map operation = .ok next ∧ HoldsEntries (operation.apply keyOf contents) next := by
  have hretained := retained_entries functionText keyOf htold
  cases operation with
  | insert key value =>
      refine ⟨_, apply_genmapInsert functionText hholds key value, ?_⟩
      have hfresh : (contents.delete (keyOf key)).get (keyOf key) = none := by
        rw [KeyedMap.get_eq_none, KeyedMap.mem_keys_delete]
        exact fun h => h.2 rfl
      have hentries : insertGenMapEntry functionText (contents.entries.map storedEntry) key value
          = ((contents.delete (keyOf key)).set (keyOf key) (key, value)).entries.map
              fun entry => (storedEntry entry).entry := by
        rw [MapOperation.key] at hretained
        rw [insertGenMapEntry, hretained, KeyedMap.entries_set_of_fresh hfresh, List.map_append, List.map_map]
        rfl
      rw [HoldsEntries, hentries, readGenMap_stored]
      rfl
  | delete key =>
      refine ⟨_, apply_genmapDelete functionText hholds key, ?_⟩
      rw [MapOperation.key] at hretained
      rw [HoldsEntries, hretained, List.map_map]
      exact readGenMap_stored _ none

theorem runMap_holds (operations : List (MapOperation κ)) (htold : RunToldApart functionText keyOf operations) :
    ∃ map, runMap functionText operations = .ok map ∧ HoldsEntries (mapContents keyOf operations) map := by
  induction operations using List.reverseRecOn with
  | nil => exact ⟨_, rfl, rfl⟩
  | append_singleton front operation ih =>
      have hfront : RunToldApart functionText keyOf front := by
        intro before middle back heq
        exact htold before middle (back ++ [operation]) (by rw [heq, List.append_assoc, List.cons_append])
      obtain ⟨map, hrun, hholds⟩ := ih hfront
      obtain ⟨next, hstep, hnext⟩ := mapStep_holds functionText keyOf hholds operation (htold front operation [] rfl)
      refine ⟨next, ?_, ?_⟩
      · rw [runMap] at hrun ⊢
        rw [List.foldlM_append, hrun]
        change List.foldlM (mapStep functionText) map [operation] = _
        rw [List.foldlM_cons, hstep]
        rfl
      · rw [mapContents, List.foldl_append]
        exact hnext

/-- What a lookup finds. -/
theorem lookup_entries (hholds : HoldsEntries contents map) (htold : ToldApart functionText keyOf contents key) :
    applyOrThrow functionText .genmapLookup [] [key, map]
      = .ok (((contents.get (keyOf key)).map fun entry => hydrateValue (unwrapValue entry.2)).getD .unit) := by
  have hfind : (contents.entries.map storedEntry).find? (fun entry => areEqual functionText (hydrateValue entry.key) key)
      = (contents.entries.find? fun entry => decide (entry.1 = keyOf key)).map storedEntry := by
    rw [List.find?_map]
    congr 1
    apply List.find?_congr
    intro entry hentry
    exact htold entry hentry
  rw [apply_genmapLookup functionText hholds, hfind, KeyedMap.get]
  cases contents.entries.find? fun entry => decide (entry.1 = keyOf key) <;> rfl

end Entries

end Keys

/-! ## Keys that are compared by their text -/

/-- The text of a value that is compared by it. -/
def keyText : RuntimeValue κ → Option String
  | .text value => some value
  | .numeric value => some value
  | .int64 value => some value
  | .party value => some value
  | _ => none

theorem readStringLike_of_keyText {value : RuntimeValue κ} {text : String} (h : keyText value = some text) :
    readStringLikeOrUndefined value = some text ∧
      readStringLikeOrUndefined (hydrateValue (unwrapValue value)) = some text := by
  unfold keyText at h
  split at h
  all_goals first
    | exact absurd h.symm (Option.some_ne_none _)
    | (cases h; exact ⟨rfl, rfl⟩)

theorem mapContents_texts (operations : List (MapOperation κ))
    (hkeys : ∀ operation ∈ operations, (keyText operation.key).isSome) :
    ∀ entry ∈ (mapContents (fun key => (keyText key).getD "") operations).entries,
      keyText entry.2.1 = some entry.1 := by
  induction operations using List.reverseRecOn with
  | nil => exact fun _ h => absurd h List.not_mem_nil
  | append_singleton front operation ih =>
      have hfront := ih fun operation hoperation => hkeys operation (List.mem_append_left _ hoperation)
      obtain ⟨text, htext⟩ := Option.isSome_iff_exists.mp
        (hkeys operation (List.mem_append_right _ (List.mem_singleton_self operation)))
      intro entry hentry
      rw [mapContents, List.foldl_append, ← mapContents] at hentry
      cases operation with
      | insert key value =>
          by_cases hname : entry.1 = text
          · have hget := KeyedMap.get_eq_some.mpr hentry
            change ((KeyedMap.delete _ ((keyText key).getD "")).set ((keyText key).getD "") (key, value)).get entry.1
              = some entry.2 at hget
            rw [MapOperation.key] at htext
            rw [htext, Option.getD_some, hname, KeyedMap.get_set_self] at hget
            rw [← Option.some.inj hget, htext, hname]
          · rw [MapOperation.key] at htext
            have hmem : entry ∈ (KeyedMap.delete (mapContents (fun key => (keyText key).getD "") front) text).entries := by
              change entry ∈ ((KeyedMap.delete _ ((keyText key).getD "")).set ((keyText key).getD "") (key, value)).entries
                at hentry
              rw [htext, Option.getD_some, KeyedMap.mem_entries_set_of_ne hname] at hentry
              exact hentry
            exact hfront entry (KeyedMap.mem_entries_delete.mp hmem).1
      | delete key => exact hfront entry (KeyedMap.mem_entries_delete.mp hentry).1

/-- Texts and parties are told apart, and so are integers and numerics where each is always written the same. -/
theorem runToldApart_texts (operations : List (MapOperation κ))
    (hkeys : ∀ operation ∈ operations, (keyText operation.key).isSome) :
    RunToldApart functionText (fun key => (keyText key).getD "") operations := by
  intro front operation back heq entry hentry
  have hfront : ∀ operation ∈ front, (keyText operation.key).isSome := by
    intro operation hoperation
    exact hkeys operation (heq ▸ List.mem_append_left _ hoperation)
  obtain ⟨text, htext⟩ := Option.isSome_iff_exists.mp (hkeys operation (heq ▸ List.mem_append_right _ List.mem_cons_self))
  have hstored := readStringLike_of_keyText (mapContents_texts front hfront entry hentry)
  rw [areEqual, hstored.2, (readStringLike_of_keyText htext).1]
  simp only [htext, Option.getD_some]
  exact beq_eq_decide entry.1 text

/-! ## Runs -/

end CantonSdk.DamlLf.Interpreter
