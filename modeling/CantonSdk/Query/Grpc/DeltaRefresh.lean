import CantonSdk.Query.Grpc.ContractCache

/-!
# A delta refresh stores what a full refresh would

The window that a delta refresh has read holds every update between the base and the ledger end. Each
of its entries takes one contract out of the active set or puts one in, and the patch follows: what it
has not removed of the base, together with what it has added, are the active contracts so far. Rows are
stored contract by contract, so the patched rows are those of the active contracts at the end.
-/

set_option linter.all false

namespace CantonSdk.Query.Grpc

open CantonSdk.Base CantonSdk.Query.Canonical

variable {locale : Collation}

/-! ### The window -/

theorem collectUpdates_append {first second : List DeltaUpdate} {entries others : List DeltaEntry}
    (hfirst : collectUpdates first = some entries) (hsecond : collectUpdates second = some others) :
    collectUpdates (first ++ second) = some (entries ++ others) := by
  induction first generalizing entries with
  | nil =>
      obtain rfl := Option.some.inj hfirst
      exact hsecond
  | cons update rest ih =>
      obtain ⟨head, hhead, hfirst⟩ := Option.bind_eq_some_iff.mp hfirst
      obtain ⟨tail, htail, hfirst⟩ := Option.bind_eq_some_iff.mp hfirst
      obtain rfl := Option.some.inj hfirst
      rw [List.cons_append, List.append_assoc]
      exact Option.bind_eq_some_iff.mpr ⟨head, hhead, Option.bind_eq_some_iff.mpr ⟨_, ih htail, rfl⟩⟩

/-- A walk holds the entries of the ledger from the base up to where it stands. -/
structure DeltaWalk.Exact (ledger : Ledger (Option DeltaTransaction)) (baseOffset endOffset : Nat)
    (walk : DeltaWalk) : Prop where
  end_eq : walk.endOffset = endOffset
  base_le : baseOffset ≤ walk.expectedLowestExclusive
  collected : ∃ updates, ledger.Covers baseOffset walk.expectedLowestExclusive updates ∧
    collectUpdates updates = some walk.entries

theorem receiveDeltaPage_cases {walk : DeltaWalk}
    {response : GetUpdatesPageResponse (Option DeltaTransaction)} {outcome : DeltaOutcome}
    (h : receiveDeltaPage walk response = some outcome) :
    ∃ highest collected,
      parseOffset response.lowestPageOffsetExclusive = some walk.expectedLowestExclusive ∧
      parseOffset response.highestPageOffsetInclusive = some highest ∧
      walk.expectedLowestExclusive ≤ highest ∧ collectUpdates response.updates = some collected ∧
      ((highest = walk.endOffset ∧ outcome = .finished (walk.entries ++ collected)) ∨
        ∃ tokens token updatesSeen, outcome = .continues { walk with
          entries := walk.entries ++ collected
          seenPageTokens := tokens
          expectedLowestExclusive := highest
          pageToken := token
          updatesSeen := updatesSeen }) := by
  unfold receiveDeltaPage at h
  split at h
  · rename_i lowest highest hlowest hhighest
    split at h
    · cases h
    · obtain ⟨rfl, hordered⟩ : lowest = walk.expectedLowestExclusive ∧ lowest ≤ highest := by omega
      unfold receiveDeltaWithin at h
      split at h
      · cases h
      · split at h
        · cases h
        · rename_i collected hcollected
          refine ⟨highest, collected, hlowest, hhighest, hordered, hcollected, ?_⟩
          split at h
          · split at h
            · rename_i hend
              exact Or.inl ⟨hend, (Option.some.inj h).symm⟩
            · cases h
          · split at h
            · cases h
            · split at h
              · cases h
              · exact Or.inr ⟨_, _, _, (Option.some.inj h).symm⟩
  · cases h

/-- What a walk returns are the entries of the ledger up to the end it was given. -/
theorem readDeltaPages_covers {ledger : Ledger (Option DeltaTransaction)} {baseOffset endOffset : Nat}
    {pagesLeft : Nat} {walk : DeltaWalk} (hwalk : walk.Exact ledger baseOffset endOffset)
    {pages : List (GetUpdatesPageResponse (Option DeltaTransaction))}
    (hpages : ∀ response ∈ pages, ledger.Answers response) {entries : List DeltaEntry}
    (h : readDeltaPages pagesLeft walk pages = some entries) :
    ∃ updates, ledger.Covers baseOffset endOffset updates ∧ collectUpdates updates = some entries := by
  induction pages generalizing pagesLeft walk with
  | nil => cases pagesLeft <;> cases h
  | cons response rest ih =>
      cases pagesLeft with
      | zero => cases h
      | succ pagesLeft =>
          obtain ⟨hresponse, hrest⟩ := List.forall_mem_cons.mp hpages
          rw [readDeltaPages] at h
          cases hreceive : receiveDeltaPage walk response with
          | none => simp [hreceive] at h
          | some outcome =>
              obtain ⟨highest, collected, hlowest, hhighest, hordered, hcollected, houtcome⟩ :=
                receiveDeltaPage_cases hreceive
              obtain ⟨updates, hcovers, hentries⟩ := hwalk.collected
              have hpage := hresponse _ highest hlowest hhighest hordered
              have hboth := hcovers.append hpage hwalk.base_le hordered
              have hall := collectUpdates_append hentries hcollected
              rcases houtcome with ⟨hend, rfl⟩ | ⟨tokens, token, updatesSeen, rfl⟩
              · simp only [hreceive] at h
                obtain rfl := Option.some.inj h
                rw [hend, hwalk.end_eq] at hboth
                exact ⟨_, hboth, hall⟩
              · simp only [hreceive] at h
                apply ih _ hrest h
                exact ⟨hwalk.end_eq, Nat.le_trans hwalk.base_le hordered, _, hboth, hall⟩

/-! ### Active contracts along the ledger -/

def isOfContract (contractId : String) (response : GetActiveContractsResponse) : Bool :=
  (toActiveEntry response).any fun entry => decide (entry.event.contractId = contractId)

/-- A create makes its contract active, and an archive ends the contract. -/
def afterEntry (active : List GetActiveContractsResponse) : DeltaEntry → List GetActiveContractsResponse
  | .created event synchronizerId => active ++ [survivor (event, synchronizerId)]
  | .archived contractId => active.filter fun response => !isOfContract contractId response

def afterEntries (active : List GetActiveContractsResponse) (entries : List DeltaEntry) :
    List GetActiveContractsResponse :=
  entries.foldl afterEntry active

/-- What the participant says of its active contracts at each offset: a contract has one creation, and
where only transactions lie between two offsets their creates and archives make the difference. -/
structure ActiveSets (ledger : Ledger (Option DeltaTransaction))
    (active : Nat → List GetActiveContractsResponse) : Prop where
  agree : ∀ offset ≤ ledger.endOffset, ActivationsAgree (active offset)
  delta : ∀ low high updates entries, low ≤ high → ledger.Covers low high updates →
    collectUpdates updates = some entries → (active high).Perm (afterEntries (active low) entries)

/-! ### The patch -/

/-- The patch stands for the active contracts that it leaves. -/
structure DeltaPatch.Holds (base : List GetActiveContractsResponse) (baseIds : List String)
    (patch : DeltaPatch) (active : List GetActiveContractsResponse) : Prop where
  active_eq : active = (base.filter fun response =>
      patch.removes.all fun id => !isOfContract id response)
    ++ patch.adds.values.map survivor
  added_key : ∀ entry ∈ patch.adds.entries, entry.1 = entry.2.1.contractId
  added_fresh : ∀ entry ∈ patch.adds.entries, entry.1 ∉ baseIds

theorem isOfContract_survivor {contractId : String} {added : CreatedEvent × String} :
    isOfContract contractId (survivor added) = decide (added.1.contractId = contractId) := rfl

section Patch

variable {base active : List GetActiveContractsResponse} {baseIds : List String}
  {patch next : DeltaPatch}

theorem DeltaPatch.Holds.archive_added (h : patch.Holds base baseIds active)
    (hbase : ∀ id, ∀ response ∈ base, isOfContract id response = true → id ∈ baseIds)
    {contractId : String} (hadded : patch.adds.has contractId = true) :
    ({ patch with adds := patch.adds.delete contractId } : DeltaPatch).Holds base baseIds
      (active.filter fun response => !isOfContract contractId response) := by
  obtain ⟨added, hget⟩ := KeyedMap.has_iff.mp hadded
  have hfresh := h.added_fresh _ (KeyedMap.get_eq_some.mp hget)
  refine ⟨?_, ?_, ?_⟩
  · rw [h.active_eq, List.filter_append]
    congr 1
    · -- The base holds no contract that the window has added.
      apply List.filter_eq_self.mpr
      intro response hmem
      have hnot : isOfContract contractId response ≠ true := fun hof =>
        hfresh (hbase contractId response (List.mem_filter.mp hmem).1 hof)
      simpa using hnot
    · rw [KeyedMap.values, KeyedMap.values, KeyedMap.delete, List.map_map, List.map_map,
        List.filter_map]
      congr 1
      apply List.filter_congr
      intro entry hentry
      simp [isOfContract_survivor, h.added_key entry hentry]
  · exact fun entry hentry => h.added_key entry (KeyedMap.mem_entries_delete.mp hentry).1
  · exact fun entry hentry => h.added_fresh entry (KeyedMap.mem_entries_delete.mp hentry).1

theorem DeltaPatch.Holds.archive_base (h : patch.Holds base baseIds active) {contractId : String}
    (hadded : patch.adds.has contractId ≠ true) :
    ({ patch with removes := contractId :: patch.removes } : DeltaPatch).Holds base baseIds
      (active.filter fun response => !isOfContract contractId response) := by
  refine ⟨?_, h.added_key, h.added_fresh⟩
  rw [h.active_eq, List.filter_append, List.filter_filter]
  refine congrArg₂ (· ++ ·) ?_ ?_
  · apply List.filter_congr
    intro response _
    rw [List.all_cons]
  · apply List.filter_eq_self.mpr
    intro response hmem
    obtain ⟨added, hvalue, rfl⟩ := List.mem_map.mp hmem
    obtain ⟨entry, hentry, rfl⟩ := List.mem_map.mp hvalue
    have hkey := h.added_key entry hentry
    have hne : entry.2.1.contractId ≠ contractId := by
      rw [← hkey]
      intro heq
      exact hadded (KeyedMap.has_iff.mpr ⟨entry.2, heq ▸ KeyedMap.get_eq_some.mpr hentry⟩)
    simp [isOfContract_survivor, hne]

theorem DeltaPatch.Holds.create (h : patch.Holds base baseIds active) {event : CreatedEvent}
    {synchronizerId : String} (hbase : event.contractId ∉ baseIds)
    (hadded : patch.adds.has event.contractId ≠ true) :
    ({ patch with adds := patch.adds.set event.contractId (event, synchronizerId) } :
      DeltaPatch).Holds base baseIds (active ++ [survivor (event, synchronizerId)]) := by
  have hnone : patch.adds.get event.contractId = none := by
    cases hget : patch.adds.get event.contractId with
    | none => rfl
    | some added => exact absurd (KeyedMap.has_iff.mpr ⟨added, hget⟩) hadded
  have hentries : (patch.adds.set event.contractId (event, synchronizerId)).entries
      = patch.adds.entries ++ [(event.contractId, (event, synchronizerId))] :=
    KeyedMap.entries_set_of_fresh hnone
  refine ⟨?_, ?_, ?_⟩
  · rw [h.active_eq, KeyedMap.values, KeyedMap.values, hentries, List.map_append, List.map_append,
      List.append_assoc]
    rfl
  · intro entry hentry
    rw [hentries] at hentry
    rcases List.mem_append.mp hentry with hentry | hentry
    · exact h.added_key entry hentry
    · rw [List.mem_singleton.mp hentry]
  · intro entry hentry
    rw [hentries] at hentry
    rcases List.mem_append.mp hentry with hentry | hentry
    · exact h.added_fresh entry hentry
    · rw [List.mem_singleton.mp hentry]
      exact hbase

/-- One entry of the window. -/
theorem DeltaPatch.Holds.step (h : patch.Holds base baseIds active)
    (hbase : ∀ id, ∀ response ∈ base, isOfContract id response = true → id ∈ baseIds)
    {entry : DeltaEntry} (hstep : applyDeltaEntry baseIds patch entry = some next) :
    next.Holds base baseIds (afterEntry active entry) := by
  cases entry with
  | created event synchronizerId =>
      rw [applyDeltaEntry] at hstep
      split at hstep
      · cases hstep
      · rename_i hfresh
        rw [not_or] at hfresh
        obtain rfl := Option.some.inj hstep
        exact h.create hfresh.1 hfresh.2
  | archived contractId =>
      rw [applyDeltaEntry] at hstep
      split at hstep
      · rename_i hadded
        obtain rfl := Option.some.inj hstep
        exact h.archive_added hbase hadded
      · rename_i hadded
        split at hstep
        · obtain rfl := Option.some.inj hstep
          exact h.archive_base hadded
        · cases hstep

/-- The entries of a whole window. -/
theorem DeltaPatch.Holds.run (h : patch.Holds base baseIds active)
    (hbase : ∀ id, ∀ response ∈ base, isOfContract id response = true → id ∈ baseIds)
    {entries : List DeltaEntry} (hrun : entries.foldlM (applyDeltaEntry baseIds) patch = some next) :
    next.Holds base baseIds (afterEntries active entries) := by
  induction entries generalizing patch active with
  | nil =>
      obtain rfl := Option.some.inj hrun
      exact h
  | cons entry rest ih =>
      rw [List.foldlM_cons] at hrun
      obtain ⟨middle, hmiddle, hrest⟩ := Option.bind_eq_some_iff.mp hrun
      exact ih (h.step hbase hmiddle) hrest

end Patch

/-! ### Stored rows -/

/-- Rows in the order of their ids, one for each contract of a snapshot. -/
structure RowsOf {α : Type} (locale : Collation) (key : α → String)
    (holds : String → α → Prop) (rows : List α) : Prop where
  mem_iff : ∀ row, row ∈ rows ↔ holds (key row) row
  plain : ∀ row ∈ rows, isPlain (key row) = true
  keys_nodup : (rows.map key).Nodup
  sorted : sortBy (compareKey locale.localeCompare key) rows = rows

theorem RowsOf.strict {α : Type} {key : α → String} {holds : String → α → Prop} {rows : List α}
    (h : RowsOf locale key holds rows) :
    ∀ a ∈ rows, ∀ b ∈ rows, compareKey locale.localeCompare key a b = .eq → a = b := by
  intro a ha b hb htie
  exact List.inj_on_of_nodup_map h.keys_nodup ha hb
    (locale.eq_of_plain _ _ (h.plain a ha) (h.plain b hb) htie)

/-- Dropping the rows of some contracts and adding those of others. -/
theorem RowsOf.patch {α : Type} {key : α → String} {holdsBefore holdsFresh holds : String → α → Prop}
    {before fresh after : List α} {removed : List String}
    (hbefore : RowsOf locale key holdsBefore before) (hfresh : RowsOf locale key holdsFresh fresh)
    (hafter : RowsOf locale key holds after)
    (hdisjoint : ∀ a ∈ before, ∀ b ∈ fresh, key a ≠ key b)
    (hholds : ∀ id row, holds id row ↔ (holdsBefore id row ∧ id ∉ removed) ∨ holdsFresh id row) :
    sortBy (compareKey locale.localeCompare key)
      ((before.filter fun row => decide (key row ∉ removed)) ++ fresh) = after := by
  have hperm : after.Perm ((before.filter fun row => decide (key row ∉ removed)) ++ fresh) := by
    rw [List.perm_ext_iff_of_nodup hafter.keys_nodup.of_map]
    · intro row
      rw [hafter.mem_iff, hholds, ← hbefore.mem_iff, ← hfresh.mem_iff, List.mem_append,
        List.mem_filter, decide_eq_true_iff]
    · apply List.Nodup.of_map key
      rw [List.map_append]
      apply (hbefore.keys_nodup.sublist (List.filter_sublist.map _)).append hfresh.keys_nodup
      intro id hid hid'
      obtain ⟨a, ha, rfl⟩ := List.mem_map.mp hid
      obtain ⟨b, hb, hsame⟩ := List.mem_map.mp hid'
      exact hdisjoint a (List.mem_filter.mp ha).1 b hb hsame.symm
  rw [← sortBy_eq_of_perm hafter.strict hperm]
  exact hafter.sorted

/-- What a snapshot holds of a contract, as its metadata. -/
def HoldsMetadata (locale : Collation) (activeContracts : List GetActiveContractsResponse) (id : String)
    (entry : GrpcCachedCreationMetadata) : Prop :=
  ∃ row creation, reconciledActive locale activeContracts id = some (row, creation) ∧
    entry = creationMetadata creation

def HoldsRow (locale : Collation) (activeContracts : List GetActiveContractsResponse) (id : String)
    (row : ContractRow) : Prop :=
  ∃ creation, reconciledActive locale activeContracts id = some (row, creation)

section Stored

variable {activeContracts : List GetActiveContractsResponse}
  {rows : List ContractRow × List GrpcCachedCreationMetadata}

theorem storedRows_run (h : storedRows locale activeContracts = .ok rows) :
    ∃ fragment, ∃ _ : MapperRun locale [] activeContracts fragment,
      rows = (fragment.contracts, fragment.creationIdentities.map creationMetadata) := by
  obtain ⟨fragment, hfragment, h⟩ := bind_eq_ok.mp h
  obtain ⟨run⟩ := mapGrpcQueryRelationFragment_ok.mp hfragment
  exact ⟨fragment, run, (Except.ok.inj h).symm⟩

theorem storedRows_contracts (h : storedRows locale activeContracts = .ok rows) :
    RowsOf locale ContractRow.contractId (HoldsRow locale activeContracts) rows.1 := by
  obtain ⟨fragment, run, rfl⟩ := storedRows_run h
  have hnodup := run.contract_ids.nodup_iff.mpr (KeyedMap.keys_nodup' _)
  refine ⟨fun row => run.mem_active_contracts, run.plain_contracts, hnodup, ?_⟩
  have hsorted : ∀ list : List ContractRow, fragment.contracts.Perm list →
      sortBy (compareKey locale.localeCompare ContractRow.contractId) fragment.contracts
        = sortBy (compareKey locale.localeCompare ContractRow.contractId) list := by
    intro list hperm
    apply sortBy_eq_of_perm _ hperm
    intro a ha b hb htie
    exact List.inj_on_of_nodup_map hnodup ha hb
      (locale.eq_of_plain _ _ (run.plain_contracts a ha) (run.plain_contracts b hb) htie)
  have hperm : fragment.contracts.Perm run.reconciled.contracts.values := by
    rw [run.contracts_eq]
    exact perm_sortBy _ _
  rw [hsorted _ hperm, ← run.contracts_eq]

theorem storedRows_metadata (h : storedRows locale activeContracts = .ok rows) :
    RowsOf locale GrpcCachedCreationMetadata.contractId (HoldsMetadata locale activeContracts) rows.2 := by
  obtain ⟨fragment, run, rfl⟩ := storedRows_run h
  have hkeys : (fragment.creationIdentities.map creationMetadata).map
      GrpcCachedCreationMetadata.contractId
      = fragment.creationIdentities.map GrpcQueryCreationIdentity.contractId := by
    rw [List.map_map]
    rfl
  have hnodup := run.creation_ids.nodup_iff.mpr (KeyedMap.keys_nodup' _)
  refine ⟨?_, ?_, hkeys ▸ hnodup, ?_⟩
  · intro entry
    constructor
    · intro hentry
      obtain ⟨creation, hcreation, rfl⟩ := List.mem_map.mp hentry
      obtain ⟨row, hpair⟩ := run.mem_active_creations.mp hcreation
      exact ⟨row, creation, hpair, rfl⟩
    · intro hholds
      obtain ⟨row, creation, hpair, rfl⟩ := hholds
      exact List.mem_map.mpr ⟨creation, run.mem_active_creations.mpr ⟨row, hpair⟩, rfl⟩
  · intro entry hentry
    obtain ⟨creation, hcreation, rfl⟩ := List.mem_map.mp hentry
    exact run.plain_creations creation hcreation
  · have hstrict : ∀ a ∈ fragment.creationIdentities, ∀ b ∈ fragment.creationIdentities,
        compareKey locale.localeCompare GrpcQueryCreationIdentity.contractId a b = .eq → a = b := by
      intro a ha b hb htie
      exact List.inj_on_of_nodup_map hnodup ha hb
        (locale.eq_of_plain _ _ (run.plain_creations a ha) (run.plain_creations b hb) htie)
    have hperm : fragment.creationIdentities.Perm run.reconciled.creations.values := by
      rw [run.creations_eq]
      exact perm_sortBy _ _
    have hself := (sortBy_eq_of_perm hstrict hperm).trans run.creations_eq.symm
    have hmap : (sortBy (compareKey locale.localeCompare GrpcQueryCreationIdentity.contractId)
        fragment.creationIdentities).map creationMetadata
        = sortBy (compareKey locale.localeCompare GrpcCachedCreationMetadata.contractId)
          (fragment.creationIdentities.map creationMetadata) :=
      List.map_insertionSort _ _ _ _ fun _ _ _ _ => Iff.rfl
    rw [← hmap, hself]

/-- The metadata stand beside the rows, one each. -/
theorem storedRows_ids (h : storedRows locale activeContracts = .ok rows) :
    rows.2.map GrpcCachedCreationMetadata.contractId = rows.1.map ContractRow.contractId := by
  have hcontracts := storedRows_contracts h
  have hmetadata := storedRows_metadata h
  rw [← hcontracts.sorted, ← hmetadata.sorted, map_sortBy, map_sortBy]
  apply sortBy_eq_of_perm
  · intro a ha b hb htie
    obtain ⟨entry, hentry, rfl⟩ := List.mem_map.mp ha
    obtain ⟨other, hother, rfl⟩ := List.mem_map.mp hb
    exact locale.eq_of_plain _ _ (hmetadata.plain entry hentry) (hmetadata.plain other hother) htie
  · rw [List.perm_ext_iff_of_nodup hmetadata.keys_nodup hcontracts.keys_nodup]
    intro id
    constructor
    · intro hid
      obtain ⟨entry, hentry, rfl⟩ := List.mem_map.mp hid
      obtain ⟨row, creation, hpair, _⟩ := (hmetadata.mem_iff entry).mp hentry
      obtain ⟨hrow, _⟩ := reconciledActive_ids hpair
      exact List.mem_map.mpr ⟨row, (hcontracts.mem_iff row).mpr ⟨creation, hrow ▸ hpair⟩, hrow⟩
    · intro hid
      obtain ⟨row, hrow, rfl⟩ := List.mem_map.mp hid
      obtain ⟨creation, hpair⟩ := (hcontracts.mem_iff row).mp hrow
      obtain ⟨_, hcreation⟩ := reconciledActive_ids hpair
      have hid : (creationMetadata creation).contractId = row.contractId := hcreation
      rw [← hid] at hpair
      exact List.mem_map.mpr ⟨creationMetadata creation,
        (hmetadata.mem_iff _).mpr ⟨row, creation, hpair, rfl⟩, hid⟩

theorem mem_storedRows_ids (h : storedRows locale activeContracts = .ok rows) {id : String} :
    id ∈ rows.1.map ContractRow.contractId ↔ activations (activeEntries activeContracts) id ≠ [] := by
  obtain ⟨fragment, run, rfl⟩ := storedRows_run h
  exact run.active_ids

end Stored

/-! ### The rows of a patched snapshot -/

theorem activations_kept {base : List GetActiveContractsResponse} {removes : List String} (id : String) :
    activations (activeEntries (base.filter fun response =>
      removes.all fun removed => !isOfContract removed response)) id
      = if id ∈ removes then [] else activations (activeEntries base) id := by
  induction base with
  | nil => simp [activeEntries, activations]
  | cons response rest ih =>
      cases hentry : toActiveEntry response with
      | none =>
          have hkept : (removes.all fun removed => !isOfContract removed response) = true := by
            simp [isOfContract, hentry]
          rw [List.filter_cons, if_pos hkept, activeEntries, activeEntries,
            List.filterMap_cons_none hentry, List.filterMap_cons_none hentry]
          exact ih
      | some entry =>
          have hcons : ∀ list : List GetActiveContractsResponse,
              activations (activeEntries (response :: list)) id
                = if entry.event.contractId = id then entry :: activations (activeEntries list) id
                  else activations (activeEntries list) id := by
            intro list
            rw [activeEntries, List.filterMap_cons_some hentry, activations, List.filter_cons]
            simp only [decide_eq_true_eq]
            rfl
          have hkept : (removes.all fun removed => !isOfContract removed response) = true ↔
              entry.event.contractId ∉ removes := by
            simp only [isOfContract, hentry, Option.any_some, List.all_eq_true, Bool.not_eq_true',
              decide_eq_false_iff_not]
            exact ⟨fun h hmem => h _ hmem rfl, fun h removed hmem heq => h (heq ▸ hmem)⟩
          by_cases hremoved : entry.event.contractId ∈ removes
          · rw [List.filter_cons, if_neg (fun h => hkept.mp h hremoved), ih, hcons]
            by_cases hid : id ∈ removes
            · rw [if_pos hid, if_pos hid]
            · have hne : entry.event.contractId ≠ id := fun heq => hid (heq ▸ hremoved)
              rw [if_neg hid, if_neg hid, if_neg hne]
          · rw [List.filter_cons, if_pos (hkept.mpr hremoved), hcons, hcons, ih]
            by_cases hid : id ∈ removes
            · have hne : entry.event.contractId ≠ id := fun heq => hremoved (heq.symm ▸ hid)
              rw [if_pos hid, if_pos hid, if_neg hne]
            · rw [if_neg hid, if_neg hid]

theorem ActiveValid.reconciled {activeContracts : List GetActiveContractsResponse}
    (h : ActiveValid locale activeContracts) {id : String} :
    activations (activeEntries activeContracts) id ≠ [] ↔
      ∃ pair, reconciledActive locale activeContracts id = some pair := by
  rw [reconciledActive]
  by_cases hnone : activations (activeEntries activeContracts) id = []
  · simp [hnone]
  · obtain ⟨pair, hpair⟩ := h.reconciles id hnone
    simp [hnone, hpair, Except.toOption]

section Patched

variable {base fresh after : List GetActiveContractsResponse} {removes : List String}

/-- The active contracts after a patch: what is kept of the base, and contracts the base has not. -/
structure Patched (locale : Collation) (base : List GetActiveContractsResponse) (removes : List String)
    (fresh after : List GetActiveContractsResponse) : Prop where
  base_valid : ActiveValid locale base
  fresh_valid : ActiveValid locale fresh
  disjoint : ∀ id, activations (activeEntries fresh) id ≠ [] → activations (activeEntries base) id = []
  perm : after.Perm ((base.filter fun response =>
    removes.all fun removed => !isOfContract removed response) ++ fresh)
  agree : ActivationsAgree after

theorem Patched.activations (h : Patched locale base removes fresh after) (id : String) :
    (activations (activeEntries after) id).Perm
      ((if id ∈ removes then [] else activations (activeEntries base) id)
        ++ activations (activeEntries fresh) id) := by
  have hentries := (h.perm.filterMap toActiveEntry).filter fun entry =>
    decide (entry.event.contractId = id)
  rw [List.filterMap_append, List.filter_append] at hentries
  rw [← activations_kept]
  exact hentries

/-- Contract by contract, the patched snapshot holds what its parts hold. -/
theorem Patched.reconciledActive_eq (h : Patched locale base removes fresh after) (id : String) :
    reconciledActive locale after id =
      if CantonSdk.Query.Grpc.activations (activeEntries fresh) id = [] then
        if id ∈ removes then none else reconciledActive locale base id
      else reconciledActive locale fresh id := by
  have hperm := h.activations id
  split
  · rename_i hfresh
    rw [hfresh, List.append_nil] at hperm
    split
    · rename_i hremoved
      rw [if_pos hremoved] at hperm
      rw [reconciledActive, if_pos hperm.eq_nil]
    · rename_i hkept
      rw [if_neg hkept] at hperm
      exact reconciledActive_perm h.agree hperm
  · rename_i hfresh
    rw [h.disjoint id hfresh, ite_self, List.nil_append] at hperm
    exact reconciledActive_perm h.agree hperm

theorem Patched.holds (h : Patched locale base removes fresh after) {id : String}
    {pair : ContractRow × GrpcQueryCreationIdentity} :
    reconciledActive locale after id = some pair ↔
      (reconciledActive locale base id = some pair ∧ id ∉ removes) ∨
        reconciledActive locale fresh id = some pair := by
  have hbase : ∀ pair, reconciledActive locale base id = some pair →
      CantonSdk.Query.Grpc.activations (activeEntries base) id ≠ [] :=
    fun pair hpair => h.base_valid.reconciled.mpr ⟨pair, hpair⟩
  rw [h.reconciledActive_eq id]
  by_cases hfresh : CantonSdk.Query.Grpc.activations (activeEntries fresh) id = []
  · have hnone : reconciledActive locale fresh id = none := by
      rw [reconciledActive, if_pos hfresh]
    by_cases hremoved : id ∈ removes
    · simp [hfresh, hremoved, hnone]
    · simp [hfresh, hremoved, hnone]
  · rw [if_neg hfresh]
    constructor
    · exact Or.inr
    · intro hheld
      rcases hheld with ⟨hheld, _⟩ | hheld
      · exact absurd (h.disjoint id hfresh) (hbase pair hheld)
      · exact hheld

theorem Patched.valid (h : Patched locale base removes fresh after) : ActiveValid locale after := by
  have hentries := h.perm.filterMap toActiveEntry
  refine ⟨?_, ?_, ?_⟩
  · intro response hresponse
    rcases List.mem_append.mp (h.perm.mem_iff.mp hresponse) with hbase | hfresh
    · exact h.base_valid.entry_valid response (List.mem_filter.mp hbase).1
    · exact h.fresh_valid.entry_valid response hfresh
  · rw [activeEntries, (hentries.map activationKey).nodup_iff, List.filterMap_append, List.map_append]
    apply List.Nodup.append
    · exact h.base_valid.keys_nodup.sublist ((List.filter_sublist.filterMap _).map _)
    · exact h.fresh_valid.keys_nodup
    · intro key hkey hkey'
      obtain ⟨entry, hentry, rfl⟩ := List.mem_map.mp hkey
      obtain ⟨other, hother, hsame⟩ := List.mem_map.mp hkey'
      have hentry : entry ∈ activeEntries base :=
        (List.filter_sublist.filterMap _).subset hentry
      obtain ⟨_, creation, hcreation⟩ := h.base_valid.mem_entries hentry
      obtain ⟨_, creation', hcreation'⟩ := h.fresh_valid.mem_entries hother
      have hid := (append_separator_injective
        (nul_not_mem_of_plain (creationDescriptor_ok hcreation').2.2.2.2.1)
        (nul_not_mem_of_plain (creationDescriptor_ok hcreation).2.2.2.2.1) hsame).1
      have hne := List.ne_nil_of_mem (mem_activations.mpr ⟨hother, hid⟩)
      exact absurd (h.disjoint _ hne) (List.ne_nil_of_mem (mem_activations.mpr ⟨hentry, rfl⟩))
  · intro id hne
    have hperm := h.activations id
    obtain ⟨pair, hpair⟩ : ∃ pair, reconciledActive locale after id = some pair := by
      by_cases hfresh : CantonSdk.Query.Grpc.activations (activeEntries fresh) id = []
      · rw [hfresh, List.append_nil] at hperm
        by_cases hremoved : id ∈ removes
        · rw [if_pos hremoved] at hperm
          exact absurd hperm.eq_nil hne
        · rw [if_neg hremoved] at hperm
          obtain ⟨pair, hpair⟩ := h.base_valid.reconciled.mp fun hnil => hne (hnil ▸ hperm).eq_nil
          exact ⟨pair, h.holds.mpr (Or.inl ⟨hpair, hremoved⟩)⟩
      · obtain ⟨pair, hpair⟩ := h.fresh_valid.reconciled.mp hfresh
        exact ⟨pair, h.holds.mpr (Or.inr hpair)⟩
    rw [reconciledActive, if_neg hne, toOption_eq_some_iff] at hpair
    exact ⟨pair, hpair⟩

end Patched

theorem storedRows_valid {activeContracts : List GetActiveContractsResponse}
    {rows : List ContractRow × List GrpcCachedCreationMetadata}
    (h : storedRows locale activeContracts = .ok rows) : ActiveValid locale activeContracts := by
  obtain ⟨fragment, run, _⟩ := storedRows_run h
  exact run.active_valid

/-- What is stored of a patched snapshot are the patched rows. -/
theorem storedRows_patched {base fresh after : List GetActiveContractsResponse} {removes : List String}
    (h : Patched locale base removes fresh after)
    {before added : List ContractRow × List GrpcCachedCreationMetadata}
    (hbase : storedRows locale base = .ok before) (hfresh : storedRows locale fresh = .ok added) :
    storedRows locale after = .ok (
      sortBy (compareKey locale.localeCompare ContractRow.contractId)
        ((before.1.filter fun row => decide (row.contractId ∉ removes)) ++ added.1),
      sortBy (compareKey locale.localeCompare GrpcCachedCreationMetadata.contractId)
        ((before.2.filter fun entry => decide (entry.contractId ∉ removes)) ++ added.2)) := by
  obtain ⟨fragment, hfragment⟩ := mapActiveContracts_succeeds.mpr h.valid
  have hafter : storedRows locale after
      = .ok (fragment.contracts, fragment.creationIdentities.map creationMetadata) :=
    bind_eq_ok.mpr ⟨fragment, hfragment, rfl⟩
  have hids : ∀ id, id ∈ before.1.map ContractRow.contractId →
      id ∉ added.1.map ContractRow.contractId := by
    intro id hid hid'
    rw [mem_storedRows_ids hbase] at hid
    rw [mem_storedRows_ids hfresh] at hid'
    exact hid (h.disjoint id hid')
  rw [hafter]
  congr 1
  refine Prod.ext ?_ ?_
  · symm
    apply (storedRows_contracts hbase).patch (storedRows_contracts hfresh) (storedRows_contracts hafter)
    · intro a ha b hb hsame
      exact hids _ (List.mem_map_of_mem ha) (hsame ▸ List.mem_map_of_mem hb)
    · intro id row
      simp only [HoldsRow, h.holds, exists_or, exists_and_right]
  · symm
    apply (storedRows_metadata hbase).patch (storedRows_metadata hfresh) (storedRows_metadata hafter)
    · intro a ha b hb hsame
      have ha' := List.mem_map_of_mem (f := GrpcCachedCreationMetadata.contractId) ha
      have hb' := List.mem_map_of_mem (f := GrpcCachedCreationMetadata.contractId) hb
      rw [storedRows_ids hbase] at ha'
      rw [storedRows_ids hfresh] at hb'
      exact hids _ ha' (hsame ▸ hb')
    · intro id entry
      simp only [HoldsMetadata, h.holds]
      constructor
      · intro hheld
        obtain ⟨row, creation, ⟨hpair, hkept⟩ | hpair, heq⟩ := hheld
        · exact Or.inl ⟨⟨row, creation, hpair, heq⟩, hkept⟩
        · exact Or.inr ⟨row, creation, hpair, heq⟩
      · intro hheld
        rcases hheld with ⟨⟨row, creation, hpair, heq⟩, hkept⟩ | ⟨row, creation, hpair, heq⟩
        · exact ⟨row, creation, Or.inl ⟨hpair, hkept⟩, heq⟩
        · exact ⟨row, creation, Or.inr hpair, heq⟩

theorem afterEntries_perm {active other : List GetActiveContractsResponse} (h : active.Perm other)
    (entries : List DeltaEntry) : (afterEntries active entries).Perm (afterEntries other entries) := by
  induction entries generalizing active other with
  | nil => exact h
  | cons entry rest ih =>
      apply ih
      cases entry with
      | created event synchronizerId => exact h.append_right _
      | archived contractId => exact h.filter _

theorem ActivationsAgree.perm {activeContracts others : List GetActiveContractsResponse}
    (h : ActivationsAgree others) (hperm : activeContracts.Perm others) :
    ActivationsAgree activeContracts := by
  have hentries := hperm.filterMap toActiveEntry
  intro a ha b hb
  exact h a (hentries.mem_iff.mp ha) b (hentries.mem_iff.mp hb)

section Refresh

variable {ledger : Ledger (Option DeltaTransaction)} {active : Nat → List GetActiveContractsResponse}
  {base : CachedContractSnapshot} {baseContracts activeContracts : List GetActiveContractsResponse}
  {baseOffset endOffset : Nat}

/-- The active contracts at the end of a window, as a patch of those at its beginning. -/
theorem patched_of_window (hactive : ActiveSets ledger active)
    (hlisted : baseContracts.Perm (active baseOffset))
    (hbase : storedRows locale baseContracts = .ok (base.contracts, base.creationMetadata))
    {updates : List DeltaUpdate} (hordered : baseOffset ≤ endOffset)
    (hcovers : ledger.Covers baseOffset endOffset updates) {entries : List DeltaEntry}
    (hentries : collectUpdates updates = some entries) {patch : DeltaPatch}
    (hpatch : entries.foldlM (applyDeltaEntry (base.contracts.map ContractRow.contractId)) .empty
      = some patch) {added : List ContractRow × List GrpcCachedCreationMetadata}
    (hadded : storedRows locale (patch.adds.values.map survivor) = .ok added)
    (hend : activeContracts.Perm (active endOffset)) :
    Patched locale baseContracts patch.removes (patch.adds.values.map survivor) activeContracts := by
  have hids : ∀ id, ∀ response ∈ baseContracts, isOfContract id response = true →
      id ∈ base.contracts.map ContractRow.contractId := by
    intro id response hresponse hof
    rw [mem_storedRows_ids hbase]
    obtain ⟨entry, hentry, hid⟩ := (Option.any_eq_true _ _).mp hof
    exact List.ne_nil_of_mem (mem_activations.mpr
      ⟨List.mem_filterMap.mpr ⟨response, hresponse, hentry⟩, of_decide_eq_true hid⟩)
  have hstart : DeltaPatch.empty.Holds baseContracts (base.contracts.map ContractRow.contractId)
      baseContracts := by
    refine ⟨?_, fun _ hmem => absurd hmem List.not_mem_nil, fun _ hmem => absurd hmem List.not_mem_nil⟩
    simp [DeltaPatch.empty, KeyedMap.empty, KeyedMap.values]
  have hholds := hstart.run hids hpatch
  refine ⟨storedRows_valid hbase, storedRows_valid hadded, ?_, ?_, (hactive.agree _ hcovers.1).perm hend⟩
  · intro id hne
    obtain ⟨entry, hentry⟩ := List.exists_mem_of_ne_nil _ hne
    obtain ⟨hmem, rfl⟩ := mem_activations.mp hentry
    obtain ⟨response, hresponse, hmapped⟩ := List.mem_filterMap.mp hmem
    obtain ⟨value, hvalue, rfl⟩ := List.mem_map.mp hresponse
    obtain ⟨keyed, hkeyed, rfl⟩ := List.mem_map.mp hvalue
    obtain rfl := Option.some.inj hmapped
    have hfresh := hholds.added_fresh keyed hkeyed
    rw [hholds.added_key keyed hkeyed, mem_storedRows_ids hbase, not_not] at hfresh
    exact hfresh
  · rw [← hholds.active_eq]
    exact (hend.trans (hactive.delta _ _ _ _ hordered hcovers hentries)).trans
      (afterEntries_perm hlisted.symm entries)

theorem storedRows_nil : storedRows locale [] = .ok ([], []) := rfl

theorem writeSnapshot_ok {scope : RefreshScope} {activeAtOffset : String}
    {rows : List ContractRow × List GrpcCachedCreationMetadata} {refresh : RefreshKind}
    {offsetGap : Option String} {deltaUpdateCount : Option Nat} {result : ContractCacheResult}
    {snapshot : CachedContractSnapshot}
    (h : writeSnapshot scope activeAtOffset rows refresh offsetGap deltaUpdateCount
      = .ok (result, snapshot)) :
    snapshot.activeAtOffset = activeAtOffset ∧
      (snapshot.contracts, snapshot.creationMetadata) = rows ∧
      ∀ refresh offsetGap deltaUpdateCount, ∃ result',
        writeSnapshot scope activeAtOffset rows refresh offsetGap deltaUpdateCount
          = .ok (result', snapshot) := by
  obtain ⟨expiresAtEpochMs, hexpiry, h⟩ := bind_eq_ok.mp h
  obtain ⟨rfl, rfl⟩ := Prod.mk.inj (Except.ok.inj h)
  exact ⟨rfl, rfl, fun _ _ _ => ⟨_, bind_eq_ok.mpr ⟨expiresAtEpochMs, hexpiry, rfl⟩⟩⟩

/-- A delta refresh that writes has either found nothing new or patched a complete window. -/
theorem tryDeltaRefresh_cases {scope : RefreshScope} {options : GrpcContractCacheDeltaOptions}
    {answers : DeltaAnswers} {result : ContractCacheResult} {snapshot : CachedContractSnapshot}
    (hoffset : parseOffset base.activeAtOffset = some baseOffset)
    (h : tryDeltaRefresh locale scope options base answers = .ok (some (result, snapshot))) :
    ∃ ledgerEnd rows refresh offsetGap count, parseOffset answers.ledgerEnd = some ledgerEnd ∧
      writeSnapshot scope answers.ledgerEnd rows refresh offsetGap count = .ok (result, snapshot) ∧
      ((ledgerEnd = baseOffset ∧ rows = (base.contracts, base.creationMetadata)) ∨
        (baseOffset ≤ ledgerEnd ∧ ∃ entries patch,
          readDeltaWindow options base baseOffset ledgerEnd answers.pages = some entries ∧
          entries.foldlM (applyDeltaEntry (base.contracts.map ContractRow.contractId)) .empty
            = some patch ∧
          patchRows locale base patch = .ok rows)) := by
  unfold tryDeltaRefresh at h
  split at h
  · rename_i baseOffset' pruned ledgerEnd hbase _ hend
    obtain rfl := Option.some.inj (hoffset.symm.trans hbase)
    have htext := toString_parseOffset hend
    split at h
    · cases h
    · split at h
      · rename_i hsame
        subst hsame
        rw [← toString_parseOffset hbase, htext] at h
        cases hwrite : writeSnapshot scope answers.ledgerEnd (base.contracts, base.creationMetadata)
            .noop (some "0") none with
        | error error => simp [hwrite, Except.map] at h
        | ok written =>
            rw [hwrite] at h
            obtain rfl := Option.some.inj (Except.ok.inj h)
            exact ⟨ledgerEnd, _, _, _, _, hend, hwrite, Or.inl ⟨rfl, rfl⟩⟩
      · split at h
        · cases h
        · split at h
          · cases h
          · rename_i rows count hpatched
            split at h
            · cases h
            · rename_i written hwrite
              obtain rfl := Option.some.inj (Except.ok.inj h)
              rw [htext] at hwrite
              obtain ⟨entries, hentries, hpatched⟩ := Option.bind_eq_some_iff.mp hpatched
              obtain ⟨patch, hpatch, hpatched⟩ := Option.bind_eq_some_iff.mp hpatched
              obtain ⟨found, hrows, hpatched⟩ := Option.bind_eq_some_iff.mp hpatched
              obtain ⟨rfl, _⟩ := Prod.mk.inj (Option.some.inj hpatched)
              exact ⟨ledgerEnd, _, _, _, _, hend, hwrite, Or.inr ⟨by omega, entries, patch, hentries,
                hpatch, toOption_eq_some_iff.mp hrows⟩⟩
  · cases h

/-- What a delta refresh writes is what a full refresh of the ledger end would write. -/
theorem delta_refresh_eq_full (hactive : ActiveSets ledger active)
    (hoffset : parseOffset base.activeAtOffset = some baseOffset)
    (hlisted : baseContracts.Perm (active baseOffset))
    (hbase : storedRows locale baseContracts = .ok (base.contracts, base.creationMetadata))
    {answers : DeltaAnswers}
    (hend : ∀ endOffset, parseOffset answers.ledgerEnd = some endOffset → endOffset ≤ ledger.endOffset)
    (hpages : ∀ response ∈ answers.pages, ledger.Answers response)
    {scope : RefreshScope} {options : GrpcContractCacheDeltaOptions} {result : ContractCacheResult}
    {snapshot : CachedContractSnapshot}
    (h : tryDeltaRefresh locale scope options base answers = .ok (some (result, snapshot))) :
    snapshot.activeAtOffset = answers.ledgerEnd ∧
    snapshot.creationMetadata.map GrpcCachedCreationMetadata.contractId
      = snapshot.contracts.map ContractRow.contractId ∧
    (snapshot.contracts.map ContractRow.contractId).Nodup ∧
    ∃ endOffset, parseOffset answers.ledgerEnd = some endOffset ∧
      ∀ pages activeContracts, activeContracts.Perm (active endOffset) →
        readActiveContracts none [] pages = .ok (answers.ledgerEnd, activeContracts) →
        ∃ result', fullRefresh locale scope (some base) pages = .ok (result', snapshot) := by
  obtain ⟨ledgerEnd, rows, refresh, offsetGap, count, hparsed, hwrite, hcases⟩ :=
    tryDeltaRefresh_cases hoffset h
  obtain ⟨hsnapshotOffset, hrows, hrewrite⟩ := writeSnapshot_ok hwrite
  have hstored : ∀ activeContracts : List GetActiveContractsResponse,
      activeContracts.Perm (active ledgerEnd) → storedRows locale activeContracts = .ok rows := by
    intro activeContracts hperm
    rcases hcases with ⟨rfl, rfl⟩ | ⟨hordered, entries, patch, hentries, hpatch, hpatched⟩
    · have hcovers : ledger.Covers ledgerEnd ledgerEnd [] :=
        ⟨hend _ hparsed, (window_empty _ _).symm⟩
      have hpatched : Patched locale baseContracts DeltaPatch.empty.removes [] activeContracts :=
        patched_of_window hactive hlisted hbase (Nat.le_refl _) hcovers rfl rfl storedRows_nil hperm
      have hstill := storedRows_patched hpatched hbase storedRows_nil
      simp only [DeltaPatch.empty, List.not_mem_nil, not_false_eq_true, decide_true, List.filter_true,
        List.append_nil, (storedRows_contracts hbase).sorted, (storedRows_metadata hbase).sorted]
        at hstill
      exact hstill
    · have hstart : DeltaWalk.Exact ledger baseOffset ledgerEnd
          { endOffset := ledgerEnd
            maxUpdates := options.maxUpdates.getD (max 1000 (2 * base.contracts.length))
            entries := []
            seenPageTokens := []
            expectedLowestExclusive := baseOffset
            pageToken := none
            updatesSeen := 0 } :=
        ⟨rfl, Nat.le_refl _, [], ⟨Nat.le_trans hordered (hend _ hparsed), (window_empty _ _).symm⟩, rfl⟩
      obtain ⟨updates, hcovers, hcollected⟩ := readDeltaPages_covers hstart hpages hentries
      obtain ⟨added, hadded, hpatched⟩ := bind_eq_ok.mp hpatched
      obtain rfl := Except.ok.inj hpatched
      exact storedRows_patched (patched_of_window hactive hlisted hbase hordered hcovers hcollected
        hpatch hadded hperm) hbase hadded
  have hatEnd := hstored _ (.refl _)
  rw [← hrows] at hatEnd
  refine ⟨hsnapshotOffset, storedRows_ids hatEnd, (storedRows_contracts hatEnd).keys_nodup, ledgerEnd,
    hparsed, ?_⟩
  intro pages activeContracts hperm hread
  obtain ⟨result', hresult⟩ := hrewrite .full (fullOffsetGap (some base) answers.ledgerEnd) none
  refine ⟨result', bind_eq_ok.mpr ⟨_, hread, bind_eq_ok.mpr ⟨rows, hstored _ hperm, hresult⟩⟩⟩

end Refresh

/-! ### A ledger whose updates are all transactions -/

theorem collectUpdates_filter {updates : List DeltaUpdate} {entries : List DeltaEntry}
    (h : collectUpdates updates = some entries) (keep : DeltaUpdate → Bool) :
    ∃ kept, collectUpdates (updates.filter keep) = some kept := by
  induction updates generalizing entries with
  | nil => exact ⟨[], rfl⟩
  | cons update rest ih =>
      obtain ⟨head, hhead, h⟩ := Option.bind_eq_some_iff.mp h
      obtain ⟨tail, htail, _⟩ := Option.bind_eq_some_iff.mp h
      obtain ⟨kept, hkept⟩ := ih htail
      rw [List.filter_cons]
      split
      · exact ⟨head ++ kept, Option.bind_eq_some_iff.mpr
          ⟨head, hhead, Option.bind_eq_some_iff.mpr ⟨kept, hkept, rfl⟩⟩⟩
      · exact ⟨kept, hkept⟩

/-- The active contracts that replaying the ledger from its start leaves. -/
def replayed (ledger : Ledger (Option DeltaTransaction)) (offset : Nat) :
    List GetActiveContractsResponse :=
  afterEntries [] ((collectUpdates (window position 0 offset ledger.updates)).getD [])

/-- Replaying transactions gives the active sets that a delta refresh relies on. -/
theorem replayed_activeSets {ledger : Ledger (Option DeltaTransaction)} {entries : List DeltaEntry}
    (hcollected : collectUpdates ledger.updates = some entries)
    (hagree : ∀ offset ≤ ledger.endOffset, ActivationsAgree (replayed ledger offset)) :
    ActiveSets ledger (replayed ledger) where
  agree := hagree
  delta := by
    intro low high updates others hordered hcovers hothers
    obtain ⟨before, hbefore⟩ : ∃ before,
        collectUpdates (window position 0 low ledger.updates) = some before :=
      collectUpdates_filter hcollected _
    have hwhole : collectUpdates (window position 0 high ledger.updates) = some (before ++ others) := by
      rw [← window_append_window (Nat.zero_le low) hordered ledger.increasing, ← hcovers.2]
      exact collectUpdates_append hbefore hothers
    rw [replayed, replayed, hwhole, hbefore, Option.getD_some, Option.getD_some, afterEntries,
      List.foldl_append]
    exact .refl _

/-- One token archived while another is created. -/
def tokenLedger : Ledger (Option DeltaTransaction) where
  updates := [
    .transaction "1" (some ⟨"global", [.created (tokenCreated "1" 0 "c1")]⟩),
    .transaction "2" (some ⟨"global", [.created (tokenCreated "2" 0 "c2")]⟩),
    .transaction "3" (some ⟨"global", [.archived "c1"]⟩)]
  endOffset := 3
  offsets_valid := by
    intro update hupdate
    simp only [List.mem_cons, List.not_mem_nil, or_false] at hupdate
    rcases hupdate with rfl | rfl | rfl
    · exact ⟨1, by decide⟩
    · exact ⟨2, by decide⟩
    · exact ⟨3, by decide⟩
  increasing := by decide

/-- The snapshot of the ledger after its first transaction. -/
def tokenSnapshot : CachedContractSnapshot where
  endpointScope := "participant"
  parties := none
  activeAtOffset := "1"
  expiresAtEpochMs := 0
  contracts := [{
    contractId := "c1"
    templateId := tokenTemplate
    packageId := "pkg"
    payload := .object []
    witnesses := ["alice"]
    createdEventOffset := "1"
    createdAt := 0
    archivedEventOffset := none
    archivedAt := none
    active := true }]
  creationMetadata := [⟨"c1", "tokens", some "pkg"⟩]

/-- The rest of the ledger, on two pages. -/
def tokenAnswers : DeltaAnswers where
  participantPrunedUpToInclusive := "0"
  ledgerEnd := "3"
  pages := [
    { updates := window position 1 2 tokenLedger.updates
      lowestPageOffsetExclusive := "1"
      highestPageOffsetInclusive := "2"
      nextPageToken := some [7] },
    { updates := window position 2 3 tokenLedger.updates
      lowestPageOffsetExclusive := "2"
      highestPageOffsetInclusive := "3"
      nextPageToken := none }]

theorem activationsAgree_of_nodup {activeContracts : List GetActiveContractsResponse}
    (h : ((activeEntries activeContracts).map fun entry => entry.event.contractId).Nodup) :
    ActivationsAgree activeContracts := by
  intro a ha b hb hid
  rw [List.inj_on_of_nodup_map h ha hb hid]
  exact ⟨rfl, rfl, rfl, rfl, rfl⟩

theorem delta_refresh_eq_full_run : ∃ result snapshot,
    tryDeltaRefresh .codeUnits ⟨"participant", none, .ok 60000⟩ ⟨none, none⟩ tokenSnapshot tokenAnswers
      = .ok (some (result, snapshot)) ∧
    snapshot.activeAtOffset = "3" ∧
    ∃ endOffset, parseOffset "3" = some endOffset ∧
      ∀ pages activeContracts, activeContracts.Perm (replayed tokenLedger endOffset) →
        readActiveContracts none [] pages = .ok ("3", activeContracts) →
        ∃ result', fullRefresh .codeUnits ⟨"participant", none, .ok 60000⟩ (some tokenSnapshot) pages
          = .ok (result', snapshot) := by
  have hcollected : (collectUpdates tokenLedger.updates).isSome = true := by decide +kernel
  obtain ⟨entries, hentries⟩ := Option.isSome_iff_exists.mp hcollected
  have hagree : ∀ offset ≤ 3, ActivationsAgree (replayed tokenLedger offset) := by
    have hnodup : ∀ offset ≤ 3, ((activeEntries (replayed tokenLedger offset)).map fun entry =>
        entry.event.contractId).Nodup := by decide
    exact fun offset hoffset => activationsAgree_of_nodup (hnodup offset hoffset)
  have hrows : storedRows .codeUnits (replayed tokenLedger 1)
      = .ok (tokenSnapshot.contracts, tokenSnapshot.creationMetadata) := by
    apply toOption_eq_some_iff.mp
    decide +kernel
  have hpages : ∀ response ∈ tokenAnswers.pages, tokenLedger.Answers response := by
    intro response hresponse lowest highest hlowest hhighest _
    simp only [tokenAnswers, List.mem_cons, List.not_mem_nil, or_false] at hresponse
    rcases hresponse with rfl | rfl
    · obtain rfl : 1 = lowest := Option.some.inj hlowest
      obtain rfl : 2 = highest := Option.some.inj hhighest
      exact ⟨by decide, rfl⟩
    · obtain rfl : 2 = lowest := Option.some.inj hlowest
      obtain rfl : 3 = highest := Option.some.inj hhighest
      exact ⟨by decide, rfl⟩
  have hwritten : (tryDeltaRefresh .codeUnits ⟨"participant", none, .ok 60000⟩ ⟨none, none⟩ tokenSnapshot
      tokenAnswers).toOption.join.isSome = true := by decide +kernel
  obtain ⟨⟨result, snapshot⟩, hwritten⟩ := Option.isSome_iff_exists.mp hwritten
  rw [Option.join_eq_some_iff, toOption_eq_some_iff] at hwritten
  have hend : ∀ endOffset, parseOffset tokenAnswers.ledgerEnd = some endOffset →
      endOffset ≤ tokenLedger.endOffset := by
    intro endOffset hparsed
    obtain rfl : 3 = endOffset := Option.some.inj hparsed
    decide
  obtain ⟨hoffset, _, _, hfull⟩ := delta_refresh_eq_full (replayed_activeSets hentries hagree) rfl
    (.refl _) hrows hend hpages hwritten
  exact ⟨result, snapshot, hwritten, hoffset, hfull⟩

end CantonSdk.Query.Grpc
