import CantonSdk.Debugger.DeterminismValidator
import CantonSdk.Debugger.SameValues

/-!
# Soundness of the determinism check

What the check accepts is what the ledger shows, effect by effect: the kinds, templates and choices, the
contracts up to the names of those that the replay creates, and the DAML values of arguments and payloads.
That holds of values that the comparison discerns, and where no contract of the ledger has a name that the
replay makes up.
-/

set_option linter.all false

namespace CantonSdk.Debugger

open CantonSdk.Base HostValue

deriving instance DecidableEq for ReplayIdentifier

/-! ## Observed values -/

mutual

/-- No field of a record is overwritten by the marker for the type of the record. -/
def LedgerValue.keepsFields : LedgerValue → Bool
  | .optional (some value) => value.keepsFields
  | .list elements => elementsKeepFields elements
  | .textMap entries => entriesKeepFields entries
  | .genMap entries => pairsKeepFields entries
  | .record recordId fields =>
      (recordId.isNone || !(fieldKeys fields).contains recordIdMarkerKey) && entriesKeepFields fields
  | .variant _ value => value.keepsFields
  | _ => true

def elementsKeepFields : List LedgerValue → Bool
  | [] => true
  | element :: rest => element.keepsFields && elementsKeepFields rest

def entriesKeepFields : List (String × LedgerValue) → Bool
  | [] => true
  | (_, value) :: rest => value.keepsFields && entriesKeepFields rest

def pairsKeepFields : List (LedgerValue × LedgerValue) → Bool
  | [] => true
  | (key, value) :: rest => key.keepsFields && value.keepsFields && pairsKeepFields rest

end

theorem recordValue_eq {recordId : Option ReplayIdentifier} {entries : List (String × HostValue)}
    (hnodup : (entries.map Prod.fst).Nodup)
    (hkept : recordId.isNone = true ∨ recordIdMarkerKey ∉ entries.map Prod.fst) :
    ∃ marker, recordValue recordId entries = .object (ownOrder (entries ++ marker)) ∧ IsTypeMarker marker := by
  unfold recordValue
  rw [KeyedMap.entries_ofEntries hnodup]
  cases recordId with
  | none => exact ⟨[], by rw [List.append_nil], Or.inl rfl⟩
  | some recordId =>
      refine ⟨[(recordIdMarkerKey, recordIdValue (readRecordId recordId))], ?_, Or.inr ⟨_, rfl⟩⟩
      have hperm := (perm_ownOrder entries).map Prod.fst
      have hordered : ((ownOrder entries).map Prod.fst).Nodup := hperm.nodup_iff.mpr hnodup
      have hfresh : (KeyedMap.ofEntries (ownOrder entries)).get recordIdMarkerKey = none := by
        rw [KeyedMap.get_eq_none, KeyedMap.keys, KeyedMap.entries_ofEntries hordered, hperm.mem_iff]
        exact hkept.resolve_left (by simp)
      have hindex : ∀ property ∈ [(recordIdMarkerKey, recordIdValue (readRecordId recordId))],
          arrayIndex property.1 = none := by
        intro property hproperty
        obtain rfl := List.mem_singleton.mp hproperty
        have hnone : arrayIndex recordIdMarkerKey = none := by decide
        exact hnone
      dsimp only
      rw [withProperty, KeyedMap.entries_set_of_fresh hfresh, KeyedMap.entries_ofEntries hordered,
        ownOrder_append hnodup hindex]

mutual

/-- What the ledger shows of a value encodes it. -/
theorem encodes_normalize (value : LedgerValue) (hformed : value.isWellFormed = true)
    (hkept : value.keepsFields = true) : Encodes value (normalizeReplayLedgerValue value) := by
  cases value with
  | unit | bool | int64 | date | timestamp | party | text | contractId | enum => rfl
  | numeric value => exact Or.inl rfl
  | optional value =>
      cases value with
      | none => exact Or.inl rfl
      | some value => exact encodes_normalize value hformed hkept
  | list elements => exact ⟨_, rfl, encodesItems_normalize elements hformed hkept⟩
  | genMap entries => exact ⟨_, rfl, encodesPairs_normalize entries hformed hkept⟩
  | textMap entries =>
      rw [LedgerValue.isWellFormed, Bool.and_eq_true, decide_eq_true_eq] at hformed
      refine ⟨normalizeEntries entries, ?_, encodesEntries_normalize entries hformed.2 hkept⟩
      rw [normalizeReplayLedgerValue, fromEntries, KeyedMap.entries_ofEntries]
      rw [keys_normalizeEntries]
      exact hformed.1
  | record recordId fields =>
      rw [LedgerValue.isWellFormed, Bool.and_eq_true, decide_eq_true_eq] at hformed
      simp only [LedgerValue.keepsFields, Bool.and_eq_true, Bool.or_eq_true, Bool.not_eq_true',
        List.contains_eq_mem, decide_eq_false_iff_not] at hkept
      obtain ⟨marker, hvalue, hmarker⟩ := recordValue_eq hformed.1 hkept.1
      exact ⟨normalizeFields 0 fields, marker, hvalue, hmarker,
        encodesFields_normalize fields 0 hformed.2 hkept.2⟩
  | variant constructor_ value => exact ⟨_, rfl, encodes_normalize value hformed hkept⟩
termination_by structural value

theorem encodesItems_normalize (elements : List LedgerValue) (hformed : elementsWellFormed elements = true)
    (hkept : elementsKeepFields elements = true) : EncodesItems elements (normalizeElements elements) := by
  cases elements with
  | nil => rfl
  | cons element elements =>
      rw [elementsWellFormed, Bool.and_eq_true] at hformed
      rw [elementsKeepFields, Bool.and_eq_true] at hkept
      exact ⟨_, _, rfl, encodes_normalize element hformed.1 hkept.1,
        encodesItems_normalize elements hformed.2 hkept.2⟩
termination_by structural elements

theorem encodesEntries_normalize (entries : List (String × LedgerValue))
    (hformed : entriesWellFormed entries = true) (hkept : entriesKeepFields entries = true) :
    EncodesEntries entries (normalizeEntries entries) := by
  cases entries with
  | nil => rfl
  | cons entry entries =>
      obtain ⟨key, value⟩ := entry
      rw [entriesWellFormed, Bool.and_eq_true] at hformed
      rw [entriesKeepFields, Bool.and_eq_true] at hkept
      exact ⟨_, _, rfl, encodes_normalize value hformed.1 hkept.1,
        encodesEntries_normalize entries hformed.2 hkept.2⟩
termination_by structural entries

theorem encodesPairs_normalize (pairs : List (LedgerValue × LedgerValue)) (hformed : pairsWellFormed pairs = true)
    (hkept : pairsKeepFields pairs = true) : EncodesPairs pairs (normalizePairs pairs) := by
  cases pairs with
  | nil => rfl
  | cons pair pairs =>
      obtain ⟨key, value⟩ := pair
      rw [pairsWellFormed, Bool.and_eq_true, Bool.and_eq_true] at hformed
      rw [pairsKeepFields, Bool.and_eq_true, Bool.and_eq_true] at hkept
      exact ⟨_, _, _, rfl, encodes_normalize key hformed.1.1 hkept.1.1,
        encodes_normalize value hformed.1.2 hkept.1.2, encodesPairs_normalize pairs hformed.2 hkept.2⟩
termination_by structural pairs

theorem encodesFields_normalize (fields : List (String × LedgerValue)) (index : Nat)
    (hformed : entriesWellFormed fields = true) (hkept : entriesKeepFields fields = true) :
    EncodesFields index fields (normalizeFields index fields) := by
  cases fields with
  | nil => rfl
  | cons field fields =>
      obtain ⟨label, value⟩ := field
      rw [entriesWellFormed, Bool.and_eq_true] at hformed
      rw [entriesKeepFields, Bool.and_eq_true] at hkept
      exact ⟨_, _, rfl, encodes_normalize value hformed.1 hkept.1,
        encodesFields_normalize fields (index + 1) hformed.2 hkept.2⟩
termination_by structural fields

end

/-! ## Effects on the ledger -/

structure LedgerEffect where
  kind : EffectKind
  contractId : Option String
  templateId : Option ReplayIdentifier
  choice : Option String
  argument : Option LedgerValue
  payload : Option LedgerValue

/-- What an event shows to have happened. -/
def eventEffect : ReplayTransactionEvent → Option LedgerEffect
  | .created event => some ⟨.create, event.contractId, event.templateId, none, none, event.createArguments⟩
  | .exercised event =>
      some ⟨.exercise, event.contractId, event.templateId, event.choice, event.choiceArgument, none⟩
  | .archived event => some ⟨.archive, event.contractId, event.templateId, none, none, none⟩
  | .other => none

def observedLedgerEffects (snapshot : ReplayTransactionSnapshot) : List LedgerEffect :=
  snapshot.events.filterMap eventEffect

def optionalWellFormed (value : Option LedgerValue) : Bool := value.all fun value => value.isWellFormed
def optionalKeepsFields (value : Option LedgerValue) : Bool := value.all fun value => value.keepsFields

def LedgerEffect.isWellFormed (effect : LedgerEffect) : Bool :=
  optionalWellFormed effect.argument && optionalWellFormed effect.payload

def LedgerEffect.keepsFields (effect : LedgerEffect) : Bool :=
  optionalKeepsFields effect.argument && optionalKeepsFields effect.payload

def EncodesOptional : Option LedgerValue → HostValue → Prop
  | none, h => h = .undefined
  | some value, h => Encodes value h

/-- An effect of a replay, read as one on the ledger. -/
structure EncodesEffect (effect : LedgerEffect) (replayed : ReplayEffect) : Prop where
  kind : effect.kind = replayed.kind
  contractId : effect.contractId = replayed.contractId
  templateId : effect.templateId = replayed.templateId
  choice : effect.choice = replayed.choice
  argument : EncodesOptional effect.argument replayed.argument
  payload : EncodesOptional effect.payload replayed.payload

/-- The contract that an effect creates. -/
def createdId (kind : EffectKind) (contractId : Option String) : Option String :=
  if kind = .create then contractId else none

/-- The ids of the contracts that the effects create, in order. -/
def createdIds (effects : List LedgerEffect) : List String :=
  effects.filterMap fun effect => createdId effect.kind effect.contractId

/-- The names by which a replay knows created contracts, with the contracts. -/
def syntheticNames : Nat → List String → List (String × String)
  | _, [] => []
  | index, contractId :: rest => (syntheticContractId index, contractId) :: syntheticNames (index + 1) rest

/-- The contract that goes by an id in a replay. -/
def renamed (created : List String) (contractId : String) : String :=
  match (syntheticNames 0 created).find? fun name => decide (name.1 = contractId) with
  | some name => name.2
  | none => contractId

def SameOptional : Option LedgerValue → Option LedgerValue → Prop
  | none, none => True
  | some left, some right => SameValue left right
  | _, _ => False

/-- One effect, where the replay knows the created contracts by its own names. -/
structure SameEffect (created : List String) (observed replayed : LedgerEffect) : Prop where
  kind : observed.kind = replayed.kind
  templateId : observed.templateId = replayed.templateId
  choice : observed.choice = replayed.choice
  contractId : observed.kind ≠ .create → observed.contractId = replayed.contractId.map (renamed created)
  argument : SameOptional observed.argument replayed.argument
  payload : SameOptional observed.payload replayed.payload

/-- The same effects, one for one and in order. -/
def SameEffects (observed replayed : List LedgerEffect) : Prop :=
  List.Forall₂ (SameEffect (createdIds observed)) observed replayed

/-! ## What the check tells apart -/

def discernedOptional : Option LedgerValue → Option LedgerValue → Bool
  | none, none => true
  | some left, some right => discerned left right
  | some value, none | none, some value => !value.isNullish

/-- Effects of one kind, template and choice have arguments and payloads that the comparison discerns. -/
def effectsDiscerned : List LedgerEffect → List LedgerEffect → Bool
  | observed :: observedEffects, replayed :: replayedEffects =>
      (decide (observed.kind ≠ replayed.kind ∨ observed.templateId ≠ replayed.templateId
          ∨ observed.choice ≠ replayed.choice)
        || (discernedOptional observed.argument replayed.argument
          && discernedOptional observed.payload replayed.payload))
        && effectsDiscerned observedEffects replayedEffects
  | _, _ => true

/-- No contract of the ledger has a name that the replay makes up for a created one. -/
def idsGenuine (observed : List LedgerEffect) : Bool :=
  observed.all fun effect => decide (effect.kind = .create) || effect.contractId.all fun contractId =>
    !((syntheticNames 0 (createdIds observed)).map Prod.fst).contains contractId

/-- What makes the check sound for an update and the readings of replayed effects. -/
def effectsTellApart (observed replayed : List LedgerEffect) : Bool :=
  observed.all LedgerEffect.keepsFields && idsGenuine observed && effectsDiscerned observed replayed

/-! ## Names of created contracts -/

theorem syntheticContractId_injective {index other : Nat}
    (h : syntheticContractId index = syntheticContractId other) : index = other := by
  have hdigits : toString (index + 1) = toString (other + 1) := String.append_right_inj _ |>.mp h
  have hvalues := congrArg decimalValue hdigits
  rw [decimalValue_toString, decimalValue_toString] at hvalues
  exact Nat.succ.inj hvalues

theorem keys_syntheticNames (index : Nat) (created : List String) :
    (syntheticNames index created).map Prod.fst
      = (List.range' index created.length).map syntheticContractId := by
  induction created generalizing index with
  | nil => rfl
  | cons contractId rest ih =>
      rw [syntheticNames, List.map_cons, ih, List.length_cons, List.range'_succ, List.map_cons]

theorem nodup_syntheticNames (created : List String) : ((syntheticNames 0 created).map Prod.fst).Nodup := by
  rw [keys_syntheticNames]
  have hindices : (List.range' 0 created.length).Nodup := List.nodup_range'
  exact hindices.map fun _ _ => syntheticContractId_injective

theorem syntheticNames_append (index : Nat) (front back : List String) :
    syntheticNames index (front ++ back) = syntheticNames index front ++ syntheticNames (index + front.length) back := by
  induction front generalizing index with
  | nil => rfl
  | cons contractId rest ih =>
      rw [List.cons_append, syntheticNames, ih, syntheticNames, List.cons_append, List.length_cons,
        Nat.add_right_comm, Nat.add_assoc]

/-- The map that the check has after these contracts. -/
def namesOf (created : List String) : KeyedMap String String := .ofEntries (syntheticNames 0 created)

theorem namesOf_append (created : List String) (contractId : String) :
    (namesOf created).set (syntheticContractId created.length) contractId = namesOf (created ++ [contractId]) := by
  rw [namesOf, namesOf, syntheticNames_append, Nat.zero_add, KeyedMap.ofEntries, KeyedMap.ofEntries,
    List.foldl_append]
  rfl

theorem get_namesOf {created : List String} {name contractId : String} :
    (namesOf created).get name = some contractId ↔ (name, contractId) ∈ syntheticNames 0 created := by
  rw [KeyedMap.get_eq_some, namesOf, KeyedMap.entries_ofEntries (nodup_syntheticNames created)]

theorem renamed_eq (created : List String) (contractId : String) :
    renamed created contractId = ((namesOf created).get contractId).getD contractId := by
  rw [renamed, KeyedMap.get, namesOf, KeyedMap.entries_ofEntries (nodup_syntheticNames created)]
  cases (syntheticNames 0 created).find? fun name => decide (name.1 = contractId) <;> rfl

/-- An id that names a contract for the check names it for good, and one that it takes for itself names
itself where it is not made up. -/
theorem renamed_of_prefix {created front back : List String} (hsplit : created = front ++ back)
    {contractId other : String} (h : ((namesOf front).get contractId).getD contractId = other)
    (hgenuine : other ∉ (syntheticNames 0 created).map Prod.fst) : renamed created contractId = other := by
  rw [renamed_eq]
  cases hget : (namesOf front).get contractId with
  | some name =>
      have hmem : (contractId, name) ∈ syntheticNames 0 created := by
        rw [hsplit, syntheticNames_append]
        exact List.mem_append_left _ (get_namesOf.mp hget)
      rw [hget] at h
      rw [get_namesOf.mpr hmem]
      exact h
  | none =>
      rw [hget] at h
      obtain rfl : contractId = other := h
      have hnone : (namesOf created).get contractId = none := by
        rw [KeyedMap.get_eq_none, KeyedMap.keys, namesOf, KeyedMap.entries_ofEntries (nodup_syntheticNames created)]
        exact hgenuine
      rw [hnone]
      rfl

/-! ## Accepted effects -/

/-- The effects that the check accepts are equal to it one by one, each under the names of the contracts
that have been created before. -/
theorem effectsEqual_of_validate {observed replayed : List ReplayEffect} {index : Nat} {created : List String}
    (hlength : observed.length = replayed.length)
    (h : validateEffects index created.length (namesOf created) observed replayed = .ok ()) :
    List.Forall₂ (fun left right => ∃ front back,
        created ++ observed.filterMap (fun effect => createdId effect.kind effect.contractId) = front ++ back ∧
          effectsEqual left right (namesOf front) = true) observed replayed := by
  induction observed generalizing replayed index created with
  | nil =>
      rw [List.length_nil, eq_comm, List.length_eq_zero_iff] at hlength
      subst hlength
      exact .nil
  | cons left lefts ih =>
      cases replayed with
      | nil => cases hlength
      | cons right rights =>
          rw [validateEffects] at h
          split at h
          · rename_i hequal
            refine .cons ⟨created, _, rfl, hequal⟩ ?_
            split at h
            · rename_i contractId hkind hcontract
              rw [namesOf_append] at h
              have hlen : created.length + 1 = (created ++ [contractId]).length := by simp
              rw [hlen] at h
              have hid : createdId left.kind left.contractId = some contractId := by
                rw [createdId, if_pos hkind, hcontract]
              rw [List.filterMap_cons, hid]
              dsimp only
              rw [List.append_cons]
              exact ih (Nat.succ.inj hlength) h
            · rename_i hnone
              have hid : createdId left.kind left.contractId = none := by
                rw [createdId]
                split
                · rename_i hkind
                  cases hcontract : left.contractId with
                  | none => rfl
                  | some contractId => exact absurd hcontract (hnone contractId hkind)
                · rfl
              rw [List.filterMap_cons, hid]
              exact ih (Nat.succ.inj hlength) h
          · cases h

theorem optionalString_injective {left right : Option String}
    (h : valuesEqual (optionalString left) (optionalString right) = true) : left = right := by
  cases left <;> cases right <;> first | rfl | cases h | skip
  rename_i left right
  have heq : left = right := of_decide_eq_true h
  rw [heq]

theorem templateId_of_equal {left right : Option ReplayIdentifier}
    (h : valuesEqual (templateIdValue left) (templateIdValue right) = true) : left = right := by
  cases left with
  | none => cases right <;> first | rfl | cases h
  | some left =>
      cases right with
      | none => cases h
      | some right =>
          obtain ⟨packageId, moduleName, entityName⟩ := left
          obtain ⟨packageId', moduleName', entityName'⟩ := right
          have hnames : ["packageId", "moduleName", "entityName"].Nodup := by decide
          have hkeyed := (valuesEqual_keyed (by rfl) (by exact hnames) h).2
          have hpackage := optionalString_injective
            (hkeyed "packageId" (optionalString packageId) (optionalString packageId') (by simp) (by simp))
          have hmodule := optionalString_injective
            (hkeyed "moduleName" (optionalString moduleName) (optionalString moduleName') (by simp) (by simp))
          have hentity := optionalString_injective
            (hkeyed "entityName" (optionalString entityName) (optionalString entityName') (by simp) (by simp))
          rw [hpackage, hmodule, hentity]

theorem isNullish_of_encodesOptional {value : Option LedgerValue} {h : HostValue} (hvalue : EncodesOptional value h) :
    isNullish h = value.all fun value => value.isNullish := by
  cases value with
  | none =>
      obtain rfl := hvalue
      rfl
  | some value => exact isNullish_of_encodes hvalue

/-- Arguments and payloads that are equal to the check are the same. -/
theorem sameOptional_of_equal {value other : Option LedgerValue} {h h' : HostValue}
    (hvalue : EncodesOptional value h) (hother : EncodesOptional other h')
    (hformed : optionalWellFormed value = true) (hformed' : optionalWellFormed other = true)
    (hdiscerned : discernedOptional value other = true)
    (hequal : valuesEqual (normalizeComparableValue h) (normalizeComparableValue h') = true) :
    SameOptional value other := by
  have hnullish := isNullish_of_valuesEqual hequal
  rw [isNullish_normalizeComparableValue, isNullish_normalizeComparableValue,
    isNullish_of_encodesOptional hvalue, isNullish_of_encodesOptional hother] at hnullish
  cases value with
  | none =>
      cases other with
      | none => trivial
      | some other =>
          rw [Option.all_none, Option.all_some] at hnullish
          rw [discernedOptional, ← hnullish] at hdiscerned
          cases hdiscerned
  | some value =>
      cases other with
      | none =>
          rw [Option.all_none, Option.all_some] at hnullish
          rw [discernedOptional, hnullish] at hdiscerned
          cases hdiscerned
      | some other =>
          exact sameValue_of_matches value other h h' hvalue hother hformed hformed' hdiscerned (Or.inr hequal)

theorem encodesOptional_normalize {value : Option LedgerValue} (hformed : optionalWellFormed value = true)
    (hkept : optionalKeepsFields value = true) : EncodesOptional value (normalizeOptional value) := by
  cases value with
  | none => rfl
  | some value => exact encodes_normalize value hformed hkept

/-- What the check collects of an update is what its events show. -/
theorem encodes_observed {events : List ReplayTransactionEvent}
    (hformed : ∀ effect ∈ events.filterMap eventEffect, effect.isWellFormed = true)
    (hkept : ∀ effect ∈ events.filterMap eventEffect, effect.keepsFields = true) :
    List.Forall₂ EncodesEffect (events.filterMap eventEffect) (events.filterMap observedEffect) := by
  induction events with
  | nil => exact .nil
  | cons event events ih =>
      cases event with
      | other => exact ih hformed hkept
      | created event | exercised event | archived event =>
          simp only [List.filterMap_cons, eventEffect, List.forall_mem_cons] at hformed hkept
          simp only [List.filterMap_cons, eventEffect, observedEffect]
          refine .cons ?_ (ih hformed.2 hkept.2)
          have hformedHead := hformed.1
          have hkeptHead := hkept.1
          rw [LedgerEffect.isWellFormed, Bool.and_eq_true] at hformedHead
          rw [LedgerEffect.keepsFields, Bool.and_eq_true] at hkeptHead
          exact ⟨rfl, rfl, rfl, rfl, encodesOptional_normalize hformedHead.1 hkeptHead.1,
            encodesOptional_normalize hformedHead.2 hkeptHead.2⟩

theorem createdIds_of_encodes {effects : List LedgerEffect} {collected : List ReplayEffect}
    (h : List.Forall₂ EncodesEffect effects collected) :
    collected.filterMap (fun effect => createdId effect.kind effect.contractId) = createdIds effects := by
  induction h with
  | nil => rfl
  | cons hhead _ ih =>
      rw [createdIds, List.filterMap_cons, List.filterMap_cons, ih, hhead.kind, hhead.contractId]
      rfl

/-- Effects that are equal to the check are the same. -/
theorem sameEffect_of_equal {created front back : List String} {effect other : LedgerEffect}
    {observed replayed : ReplayEffect} (hsplit : created = front ++ back)
    (heffect : EncodesEffect effect observed) (hother : EncodesEffect other replayed)
    (hformed : effect.isWellFormed = true) (hformed' : other.isWellFormed = true)
    (hgenuine : effect.kind ≠ .create → ∀ contractId, effect.contractId = some contractId →
      contractId ∉ (syntheticNames 0 created).map Prod.fst)
    (hdiscerned : effect.kind = other.kind → effect.templateId = other.templateId → effect.choice = other.choice →
      discernedOptional effect.argument other.argument = true ∧
        discernedOptional effect.payload other.payload = true)
    (hequal : effectsEqual observed replayed (namesOf front) = true) : SameEffect created effect other := by
  simp only [effectsEqual, Bool.and_eq_true, decide_eq_true_eq] at hequal
  obtain ⟨⟨⟨⟨⟨hkind, hcontract⟩, htemplate⟩, hchoice⟩, hargument⟩, hpayload⟩ := hequal
  have hkinds : effect.kind = other.kind := by rw [heffect.kind, hother.kind, hkind]
  have htemplates : effect.templateId = other.templateId := by
    rw [heffect.templateId, hother.templateId, templateId_of_equal htemplate]
  have hchoices : effect.choice = other.choice := by rw [heffect.choice, hother.choice, hchoice]
  obtain ⟨harguments, hpayloads⟩ := hdiscerned hkinds htemplates hchoices
  rw [LedgerEffect.isWellFormed, Bool.and_eq_true] at hformed hformed'
  refine ⟨hkinds, htemplates, hchoices, ?_, ?_, ?_⟩
  · intro hcreate
    have hnames := hgenuine hcreate
    rw [← heffect.kind, ← hother.kind, ← hkinds, ← heffect.contractId, ← hother.contractId,
      normalizeComparableContractId, normalizeComparableContractId, if_neg hcreate, if_neg hcreate] at hcontract
    cases hid : effect.contractId with
    | none =>
        rw [hid, Option.map_none, eq_comm, Option.map_eq_none_iff] at hcontract
        rw [hcontract]
        rfl
    | some contractId =>
        rw [hid, Option.map_some, eq_comm, Option.map_eq_some_iff] at hcontract
        obtain ⟨otherId, hotherId, hsame⟩ := hcontract
        have hfresh := hnames contractId hid
        have hself : (namesOf front).get contractId = none := by
          rw [KeyedMap.get_eq_none, KeyedMap.keys, namesOf, KeyedMap.entries_ofEntries (nodup_syntheticNames front)]
          intro hmem
          apply hfresh
          rw [hsplit, syntheticNames_append, List.map_append]
          exact List.mem_append_left _ hmem
        rw [hself] at hsame
        rw [hotherId, Option.map_some, renamed_of_prefix hsplit hsame hfresh]
        rfl
  · exact sameOptional_of_equal heffect.argument hother.argument hformed.1 hformed'.1 harguments hargument
  · exact sameOptional_of_equal heffect.payload hother.payload hformed.2 hformed'.2 hpayloads hpayload

theorem discerned_of_effects {observed replayed : List LedgerEffect} (h : effectsDiscerned observed replayed = true)
    {index : Nat} (hindex : index < observed.length) (hindex' : index < replayed.length)
    (hkind : observed[index].kind = replayed[index].kind)
    (htemplate : observed[index].templateId = replayed[index].templateId)
    (hchoice : observed[index].choice = replayed[index].choice) :
    discernedOptional observed[index].argument replayed[index].argument = true ∧
      discernedOptional observed[index].payload replayed[index].payload = true := by
  induction observed generalizing replayed index with
  | nil => cases hindex
  | cons effect effects ih =>
      cases replayed with
      | nil => cases hindex'
      | cons other others =>
          simp only [effectsDiscerned, Bool.and_eq_true, Bool.or_eq_true, decide_eq_true_eq] at h
          cases index with
          | zero => exact h.1.resolve_left fun hne => by simp_all
          | succ index => exact ih h.2 (Nat.lt_of_succ_lt_succ hindex) (Nat.lt_of_succ_lt_succ hindex') hkind htemplate hchoice

def ownerTemplate : ReplayIdentifier := ⟨some "p", some "M", some "T"⟩

/-- An update that creates a contract with an amount and exercises a choice on it. -/
def transferSnapshot : ReplayTransactionSnapshot where
  offset := "1"
  updateId := none
  actAs := []
  readAs := []
  events := [.created ⟨some "00ab", some ownerTemplate, some (.record (some ownerTemplate)
      [("owner", .party "Alice"), ("amount", .numeric "2.5000000000"), ("note", .optional none)])⟩,
    .exercised ⟨some "00ab", some ownerTemplate, some "Transfer", some (.record none [("to", .party "Bob")])⟩]
  entrypoint := ⟨.create, some ownerTemplate, none, none, none⟩

/-- What a replay of the update yields, with what its values stand for. -/
def transferReplay : List ReplayEffect :=
  [⟨.create, some "created-1", some ownerTemplate, none, .undefined, .object [("owner", .object [(partyMarkerKey,
      .string "Alice")]), ("amount", .string "2.5"), ("note", .null)]⟩,
    ⟨.fetch, some "created-1", some ownerTemplate, none, .undefined, .undefined⟩,
    ⟨.exercise, some "created-1", some ownerTemplate, some "Transfer", .object [("0", .object [(partyMarkerKey,
      .string "Bob")])], .undefined⟩]

def transferReading : List LedgerEffect :=
  [⟨.create, some "created-1", some ownerTemplate, none, none, some (.record none
      [("owner", .party "Alice"), ("amount", .numeric "2.5"), ("note", .optional none)])⟩,
    ⟨.exercise, some "created-1", some ownerTemplate, some "Transfer",
      some (.record none [("", .party "Bob")]), none⟩]

theorem encodes_transferReading :
    List.Forall₂ EncodesEffect transferReading (collectComparableReplayedEffects transferReplay) := by
  refine .cons ⟨rfl, rfl, rfl, rfl, rfl, ?_⟩ (.cons ⟨rfl, rfl, rfl, rfl, ?_, rfl⟩ .nil)
  · exact ⟨_, [], rfl, Or.inl rfl, _, _, rfl, rfl, _, _, rfl, Or.inr rfl, _, _, rfl, Or.inr rfl, rfl⟩
  · exact ⟨_, [], rfl, Or.inl rfl, _, _, rfl, rfl, rfl⟩

/-- An update that creates a contract with a text. -/
def textSnapshot : ReplayTransactionSnapshot :=
  { transferSnapshot with
    events := [.created ⟨some "00ab", some ownerTemplate, some (.record none [("note", .text "1.0")])⟩] }

end CantonSdk.Debugger
