import CantonSdk.Query.Grpc.DeltaRefresh
import Mathlib.Data.Finset.Basic

/-!
# Windows that a delta refresh has to refuse

Read as a run over the set of active contracts, a window creates contracts that are not active and
archives contracts that are. The loop of `tryDeltaRefreshAsync` keeps three collections instead: the ids
of the base, what the window has added, and what it has removed of the base. They tell every create of an
active contract, and every archive of a contract that is neither in the base nor added; only the archive
of a base contract that is removed already goes unnoticed.
-/

set_option linter.all false

namespace CantonSdk.Query.Grpc

open CantonSdk.Base CantonSdk.Query.Canonical

/-! ### Consistent windows -/

/-- The active ids after an entry; none where it creates an active contract or archives an inactive one. -/
def activeAfter (active : Finset String) : DeltaEntry → Option (Finset String)
  | .created event _ =>
      if event.contractId ∈ active then none else some (insert event.contractId active)
  | .archived contractId => if contractId ∈ active then some (active.erase contractId) else none

/-- Folded from these active ids, the entries create inactive contracts and archive active ones. -/
def ConsistentFrom (active : Finset String) (entries : List DeltaEntry) : Prop :=
  (entries.foldlM activeAfter active).isSome = true

instance (active : Finset String) (entries : List DeltaEntry) :
    Decidable (ConsistentFrom active entries) :=
  inferInstanceAs (Decidable (_ = _))

namespace DeltaEntry

def contractId : DeltaEntry → String
  | created event _ => event.contractId
  | archived contractId => contractId

def isCreate : DeltaEntry → Bool
  | created _ _ => true
  | archived _ => false

end DeltaEntry

/-- The ids that a window archives, one for each archive. -/
def archivedIds (entries : List DeltaEntry) : List String :=
  (entries.filter fun entry => !entry.isCreate).map DeltaEntry.contractId

/-- The archives among the base contracts. -/
def archivedBaseIds (baseIds : List String) (entries : List DeltaEntry) : List String :=
  (archivedIds entries).filter fun id => decide (id ∈ baseIds)

/-- The entries about contracts outside the base. -/
def foreignEntries (baseIds : List String) (entries : List DeltaEntry) : List DeltaEntry :=
  entries.filter fun entry => decide (entry.contractId ∉ baseIds)

def CreatesBase (baseIds : List String) (entries : List DeltaEntry) : Prop :=
  ∃ entry ∈ entries, entry.isCreate = true ∧ entry.contractId ∈ baseIds

/-- The creates whose contract no later entry archives. -/
def unarchivedCreates : List DeltaEntry → List (CreatedEvent × String)
  | [] => []
  | .created event synchronizerId :: rest =>
      if event.contractId ∈ archivedIds rest then unarchivedCreates rest
      else (event, synchronizerId) :: unarchivedCreates rest
  | .archived _ :: rest => unarchivedCreates rest

section Entries

variable {active : Finset String} {baseIds : List String} {entries rest : List DeltaEntry}
  {event : CreatedEvent} {synchronizerId contractId : String}

@[simp] theorem consistentFrom_nil : ConsistentFrom active [] := rfl

theorem consistentFrom_created :
    ConsistentFrom active (.created event synchronizerId :: rest) ↔
      event.contractId ∉ active ∧ ConsistentFrom (insert event.contractId active) rest := by
  by_cases hactive : event.contractId ∈ active
  · simp [ConsistentFrom, activeAfter, hactive]
  · simp [ConsistentFrom, activeAfter, hactive]

theorem consistentFrom_archived :
    ConsistentFrom active (.archived contractId :: rest) ↔
      contractId ∈ active ∧ ConsistentFrom (active.erase contractId) rest := by
  by_cases hactive : contractId ∈ active
  · simp [ConsistentFrom, activeAfter, hactive]
  · simp [ConsistentFrom, activeAfter, hactive]

@[simp] theorem archivedIds_created :
    archivedIds (.created event synchronizerId :: rest) = archivedIds rest := rfl

@[simp] theorem archivedIds_archived :
    archivedIds (.archived contractId :: rest) = contractId :: archivedIds rest := rfl

@[simp] theorem archivedBaseIds_created :
    archivedBaseIds baseIds (.created event synchronizerId :: rest) = archivedBaseIds baseIds rest := rfl

theorem archivedBaseIds_archived :
    archivedBaseIds baseIds (.archived contractId :: rest)
      = if contractId ∈ baseIds then contractId :: archivedBaseIds baseIds rest
        else archivedBaseIds baseIds rest := by
  simp [archivedBaseIds, List.filter_cons]

theorem foreignEntries_created :
    foreignEntries baseIds (.created event synchronizerId :: rest)
      = if event.contractId ∈ baseIds then foreignEntries baseIds rest
        else .created event synchronizerId :: foreignEntries baseIds rest := by
  by_cases hbase : event.contractId ∈ baseIds
  · rw [if_pos hbase]
    exact List.filter_cons_of_neg (by rw [decide_eq_true_iff]; exact not_not.mpr hbase)
  · rw [if_neg hbase]
    exact List.filter_cons_of_pos (decide_eq_true hbase)

theorem foreignEntries_archived :
    foreignEntries baseIds (.archived contractId :: rest)
      = if contractId ∈ baseIds then foreignEntries baseIds rest
        else .archived contractId :: foreignEntries baseIds rest := by
  by_cases hbase : contractId ∈ baseIds
  · rw [if_pos hbase]
    exact List.filter_cons_of_neg (by rw [decide_eq_true_iff]; exact not_not.mpr hbase)
  · rw [if_neg hbase]
    exact List.filter_cons_of_pos (decide_eq_true hbase)

theorem createsBase_cons {entry : DeltaEntry} :
    CreatesBase baseIds (entry :: rest) ↔
      (entry.isCreate = true ∧ entry.contractId ∈ baseIds) ∨ CreatesBase baseIds rest :=
  List.exists_mem_cons_iff ..

end Entries

/-! ### What the loop notices -/

/-- What the window has added is outside the base, each create under its own id. -/
structure DeltaPatch.Fresh (baseIds : List String) (patch : DeltaPatch) : Prop where
  key : ∀ entry ∈ patch.adds.entries, entry.1 = entry.2.1.contractId
  outside : ∀ id ∈ patch.adds.keys, id ∉ baseIds

section Loop

variable {baseIds : List String} {patch next : DeltaPatch} {entries rest : List DeltaEntry}
  {event : CreatedEvent} {synchronizerId contractId : String}

theorem DeltaPatch.fresh_empty : DeltaPatch.empty.Fresh baseIds :=
  ⟨fun _ hentry => absurd hentry List.not_mem_nil, fun _ hid => absurd hid List.not_mem_nil⟩

theorem DeltaPatch.Fresh.create (h : patch.Fresh baseIds) (hbase : event.contractId ∉ baseIds)
    (habsent : event.contractId ∉ patch.adds.keys) :
    ({ patch with adds := patch.adds.set event.contractId (event, synchronizerId) } :
      DeltaPatch).Fresh baseIds := by
  refine ⟨?_, ?_⟩
  · intro entry hentry
    rw [KeyedMap.entries_set_of_fresh (KeyedMap.get_eq_none.mpr habsent)] at hentry
    rcases List.mem_append.mp hentry with hentry | hentry
    · exact h.key entry hentry
    · rw [List.mem_singleton.mp hentry]
  · intro id hid
    rcases KeyedMap.mem_keys_set.mp hid with rfl | hid
    · exact hbase
    · exact h.outside id hid

theorem DeltaPatch.Fresh.archive (h : patch.Fresh baseIds) (contractId : String) :
    ({ patch with adds := patch.adds.delete contractId } : DeltaPatch).Fresh baseIds := by
  refine ⟨?_, ?_⟩
  · intro entry hentry
    exact h.key entry (KeyedMap.mem_entries_delete.mp hentry).1
  · intro id hid
    exact h.outside id (KeyedMap.mem_keys_delete.mp hid).1

theorem DeltaPatch.Fresh.remove (h : patch.Fresh baseIds) (contractId : String) :
    ({ patch with removes := contractId :: patch.removes } : DeltaPatch).Fresh baseIds :=
  ⟨h.key, h.outside⟩

/-- What the loop does with one entry. -/
theorem applyDeltaEntry_created :
    applyDeltaEntry baseIds patch (.created event synchronizerId) = some next ↔
      event.contractId ∉ baseIds ∧ event.contractId ∉ patch.adds.keys ∧
        next = { patch with adds := patch.adds.set event.contractId (event, synchronizerId) } := by
  simp only [applyDeltaEntry, KeyedMap.has, decide_eq_true_eq, Option.ite_none_left_eq_some, not_or,
    Option.some.injEq, and_assoc]
  exact and_congr_right fun _ => and_congr_right fun _ => eq_comm

theorem applyDeltaEntry_archived (h : patch.Fresh baseIds) :
    applyDeltaEntry baseIds patch (.archived contractId) = some next ↔
      (contractId ∉ baseIds ∧ contractId ∈ patch.adds.keys ∧
        next = { patch with adds := patch.adds.delete contractId }) ∨
      (contractId ∈ baseIds ∧ next = { patch with removes := contractId :: patch.removes }) := by
  rw [applyDeltaEntry, KeyedMap.has]
  by_cases hadded : contractId ∈ patch.adds.keys
  · have hbase := h.outside _ hadded
    simp [hadded, hbase, eq_comm]
  · by_cases hbase : contractId ∈ baseIds
    · simp [hadded, hbase, eq_comm]
    · simp [hadded, hbase]

theorem keys_set_toFinset {adds : KeyedMap String (CreatedEvent × String)} {added : CreatedEvent × String} :
    (adds.set contractId added).keys.toFinset = insert contractId adds.keys.toFinset := by
  ext id
  simp [KeyedMap.mem_keys_set]

theorem keys_delete_toFinset {adds : KeyedMap String (CreatedEvent × String)} :
    (adds.delete contractId).keys.toFinset = adds.keys.toFinset.erase contractId := by
  ext id
  simp [KeyedMap.mem_keys_delete, and_comm]

/-- The loop refuses a create of a base contract, and among the other contracts every create of a live
one and every archive of one that is not live. -/
theorem patch_isSome (h : patch.Fresh baseIds) :
    (entries.foldlM (applyDeltaEntry baseIds) patch).isSome = true ↔
      ¬ CreatesBase baseIds entries ∧
        ConsistentFrom patch.adds.keys.toFinset (foreignEntries baseIds entries) := by
  induction entries generalizing patch with
  | nil => simp [CreatesBase, foreignEntries]
  | cons entry rest ih =>
      rw [List.foldlM_cons, Option.bind_eq_bind, Option.isSome_bind, Option.any_eq_true,
        createsBase_cons]
      cases entry with
      | created event synchronizerId =>
          simp only [applyDeltaEntry_created, DeltaEntry.isCreate, DeltaEntry.contractId, true_and,
            not_or, foreignEntries_created]
          by_cases hbase : event.contractId ∈ baseIds
          · simp [hbase]
          · rw [if_neg hbase, consistentFrom_created, List.mem_toFinset, ← keys_set_toFinset]
            constructor
            · rintro ⟨next, ⟨_, habsent, rfl⟩, hrest⟩
              obtain ⟨hcreates, hconsistent⟩ := (ih (h.create hbase habsent)).mp hrest
              exact ⟨⟨hbase, hcreates⟩, habsent, hconsistent⟩
            · rintro ⟨⟨_, hcreates⟩, habsent, hconsistent⟩
              exact ⟨_, ⟨hbase, habsent, rfl⟩,
                (ih (h.create hbase habsent)).mpr ⟨hcreates, hconsistent⟩⟩
      | archived contractId =>
          simp only [applyDeltaEntry_archived h, DeltaEntry.isCreate, DeltaEntry.contractId,
            Bool.false_eq_true, false_and, false_or, foreignEntries_archived]
          by_cases hbase : contractId ∈ baseIds
          · -- The patch only notes that the base contract is gone.
            rw [if_pos hbase]
            constructor
            · rintro ⟨next, ⟨hnot, _⟩ | ⟨_, rfl⟩, hrest⟩
              · exact absurd hbase hnot
              · exact (ih (h.remove contractId)).mp hrest
            · intro hrest
              exact ⟨_, Or.inr ⟨hbase, rfl⟩, (ih (h.remove contractId)).mpr hrest⟩
          · rw [if_neg hbase, consistentFrom_archived, List.mem_toFinset, ← keys_delete_toFinset]
            constructor
            · rintro ⟨next, ⟨_, hadded, rfl⟩ | ⟨hin, _⟩, hrest⟩
              · obtain ⟨hcreates, hconsistent⟩ := (ih (h.archive contractId)).mp hrest
                exact ⟨hcreates, hadded, hconsistent⟩
              · exact absurd hin hbase
            · rintro ⟨hcreates, hadded, hconsistent⟩
              exact ⟨_, Or.inl ⟨hbase, hadded, rfl⟩,
                (ih (h.archive contractId)).mpr ⟨hcreates, hconsistent⟩⟩

/-- Of a window that the loop accepts, the active set tells in addition whether a base contract that is
gone is archived again. -/
theorem consistentFrom_of_patch (h : patch.Fresh baseIds)
    (hpatch : entries.foldlM (applyDeltaEntry baseIds) patch = some next) {active : Finset String}
    (hactive : ∀ id, id ∈ active ↔ (id ∈ baseIds ∧ id ∉ patch.removes) ∨ id ∈ patch.adds.keys) :
    ConsistentFrom active entries ↔
      (archivedBaseIds baseIds entries).Nodup ∧
        ∀ id ∈ archivedBaseIds baseIds entries, id ∉ patch.removes := by
  induction entries generalizing patch active with
  | nil => simp [archivedBaseIds, archivedIds]
  | cons entry rest ih =>
      rw [List.foldlM_cons] at hpatch
      obtain ⟨middle, hmiddle, hrest⟩ := Option.bind_eq_some_iff.mp hpatch
      cases entry with
      | created event synchronizerId =>
          obtain ⟨hbase, habsent, rfl⟩ := applyDeltaEntry_created.mp hmiddle
          have hinactive : event.contractId ∉ active := by simp [hactive, hbase, habsent]
          rw [consistentFrom_created, archivedBaseIds_created, and_iff_right hinactive]
          refine ih (h.create hbase habsent) hrest ?_
          intro id
          rw [Finset.mem_insert, hactive, KeyedMap.mem_keys_set]
          exact or_left_comm
      | archived contractId =>
          rw [consistentFrom_archived, archivedBaseIds_archived]
          rcases (applyDeltaEntry_archived h).mp hmiddle with ⟨hbase, hadded, rfl⟩ | ⟨hbase, rfl⟩
          · have hlive : contractId ∈ active := (hactive _).mpr (Or.inr hadded)
            rw [and_iff_right hlive, if_neg hbase]
            refine ih (h.archive contractId) hrest ?_
            intro id
            rw [Finset.mem_erase, hactive, KeyedMap.mem_keys_delete]
            have hne : id ∈ baseIds → id ≠ contractId := by
              rintro hid rfl
              exact hbase hid
            tauto
          · have habsent : contractId ∉ patch.adds.keys := fun hin => h.outside _ hin hbase
            have hlive : contractId ∈ active ↔ contractId ∉ patch.removes := by
              simp [hactive, hbase, habsent]
            have hgone : ∀ id, id ∈ active.erase contractId ↔
                (id ∈ baseIds ∧ id ∉ contractId :: patch.removes) ∨ id ∈ patch.adds.keys := by
              intro id
              rw [Finset.mem_erase, hactive, List.mem_cons]
              have hne : id ∈ patch.adds.keys → id ≠ contractId := by
                rintro hid rfl
                exact habsent hid
              tauto
            rw [hlive, ih (h.remove contractId) hrest hgone, if_pos hbase, List.nodup_cons]
            simp only [List.mem_cons, not_or, forall_eq_or_imp]
            constructor
            · rintro ⟨hremoved, hnodup, hothers⟩
              exact ⟨⟨fun hin => (hothers _ hin).1 rfl, hnodup⟩, hremoved, fun id hid => (hothers id hid).2⟩
            · rintro ⟨⟨hin, hnodup⟩, hremoved, hothers⟩
              refine ⟨hremoved, hnodup, fun id hid => ⟨?_, hothers id hid⟩⟩
              rintro rfl
              exact hin hid

/-- What is left of the additions is what the window creates and does not archive. -/
theorem values_of_patch (h : patch.Fresh baseIds)
    (hpatch : entries.foldlM (applyDeltaEntry baseIds) patch = some next) :
    next.adds.values
      = (patch.adds.values.filter fun added => decide (added.1.contractId ∉ archivedIds entries))
        ++ unarchivedCreates entries := by
  induction entries generalizing patch with
  | nil =>
      obtain rfl := Option.some.inj hpatch
      simp [archivedIds, unarchivedCreates]
  | cons entry rest ih =>
      rw [List.foldlM_cons] at hpatch
      obtain ⟨middle, hmiddle, hrest⟩ := Option.bind_eq_some_iff.mp hpatch
      cases entry with
      | created event synchronizerId =>
          obtain ⟨hbase, habsent, rfl⟩ := applyDeltaEntry_created.mp hmiddle
          rw [ih (h.create hbase habsent) hrest, archivedIds_created, unarchivedCreates,
            KeyedMap.values, KeyedMap.entries_set_of_fresh (KeyedMap.get_eq_none.mpr habsent),
            List.map_append, List.filter_append, List.append_assoc]
          by_cases harchived : event.contractId ∈ archivedIds rest
          · simp [harchived, KeyedMap.values]
          · simp [harchived, KeyedMap.values]
      | archived contractId =>
          rw [archivedIds_archived, unarchivedCreates]
          rcases (applyDeltaEntry_archived h).mp hmiddle with ⟨_, _, rfl⟩ | ⟨hbase, rfl⟩
          · rw [ih (h.archive contractId) hrest, KeyedMap.values, KeyedMap.values, KeyedMap.delete,
              List.filter_map, List.filter_map, List.filter_filter]
            congr 2
            apply List.filter_congr
            intro entry hentry
            simp [h.key entry hentry, Bool.and_comm]
          · rw [ih (h.remove contractId) hrest]
            congr 1
            apply List.filter_congr
            intro added hadded
            obtain ⟨entry, hentry, rfl⟩ := List.mem_map.mp hadded
            have hne : entry.2.1.contractId ≠ contractId := by
              rw [← h.key entry hentry]
              rintro rfl
              exact h.outside _ (List.mem_map_of_mem hentry) hbase
            simp [hne]

end Loop

/-! ### The refresh -/

section Refresh

variable {locale : Collation} {scope : RefreshScope} {options : GrpcContractCacheDeltaOptions}
  {base : CachedContractSnapshot} {answers : DeltaAnswers} {entries : List DeltaEntry}

/-- The entries of the window that a delta refresh reads, where its offsets make it read one. -/
def deltaWindow (options : GrpcContractCacheDeltaOptions) (base : CachedContractSnapshot)
    (answers : DeltaAnswers) : Option (List DeltaEntry) :=
  match parseOffset base.activeAtOffset, parseOffset answers.participantPrunedUpToInclusive,
      parseOffset answers.ledgerEnd with
  | some baseOffset, some pruned, some ledgerEnd =>
      if pruned > baseOffset ∨ ledgerEnd ≤ baseOffset ∨
          ledgerEnd - baseOffset > options.maxOffsetGap.getD deltaDefaultMaxOffsetGap then none
      else readDeltaWindow options base baseOffset ledgerEnd answers.pages
  | _, _, _ => none

/-- The ids whose rows the base holds. -/
def CachedContractSnapshot.contractIds (base : CachedContractSnapshot) : List String :=
  base.contracts.map ContractRow.contractId

/-- The refresh gives a window up wherever it is not consistent with the base; nothing is then written. -/
def RefusesInconsistent (locale : Collation) (scope : RefreshScope)
    (options : GrpcContractCacheDeltaOptions) (base : CachedContractSnapshot) (answers : DeltaAnswers) :
    Prop :=
  ∀ entries, deltaWindow options base answers = some entries →
    ¬ ConsistentFrom base.contractIds.toFinset entries →
    tryDeltaRefresh locale scope options base answers = .ok none

/-- A refresh that has read its window writes what the patch leaves. -/
theorem tryDeltaRefresh_of_window (hwindow : deltaWindow options base answers = some entries) :
    tryDeltaRefresh locale scope options base answers = .ok none ↔
      ∀ patch, entries.foldlM (applyDeltaEntry base.contractIds) .empty = some patch →
        (∃ error, patchRows locale base patch = .error error) ∨ ∃ error, scope.expiry = .error error := by
  unfold deltaWindow at hwindow
  split at hwindow
  · rename_i baseOffset pruned ledgerEnd hbase hpruned hend
    split at hwindow
    · cases hwindow
    · rename_i hread
      have hordered : ¬ (pruned > baseOffset ∨ ledgerEnd < baseOffset) := by omega
      have hmoved : ¬ ledgerEnd = baseOffset := by omega
      have hgap : ¬ ledgerEnd - baseOffset > options.maxOffsetGap.getD deltaDefaultMaxOffsetGap := by omega
      simp only [tryDeltaRefresh, hbase, hpruned, hend, if_neg hordered, if_neg hmoved, if_neg hgap,
        patchWindow, hwindow, Option.bind_eq_bind, Option.bind_some]
      change _ ↔ ∀ patch, entries.foldlM (applyDeltaEntry (base.contracts.map ContractRow.contractId))
        .empty = some patch → _
      cases entries.foldlM (applyDeltaEntry (base.contracts.map ContractRow.contractId)) .empty with
      | none => simp
      | some patch =>
          simp only [Option.some.injEq, forall_eq', Option.bind_some]
          cases patchRows locale base patch with
          | error error => simp [Except.toOption]
          | ok rows =>
              cases hexpiry : scope.expiry with
              | error error => simp [writeSnapshot, hexpiry, Except.toOption, bind, Except.bind]
              | ok expiresAtEpochMs =>
                  simp [writeSnapshot, hexpiry, Except.toOption, bind, Except.bind, pure, Except.pure]
  · cases hwindow

/-- The rows of a patch can be mapped where those of its additions can. -/
theorem patchRows_error {patch : DeltaPatch} :
    (∃ error, patchRows locale base patch = .error error) ↔
      ∃ error, storedRows locale (patch.adds.values.map survivor) = .error error := by
  rw [patchRows]
  cases storedRows locale (patch.adds.values.map survivor) with
  | error error => simp [bind, Except.bind]
  | ok added => simp [bind, Except.bind, pure, Except.pure]

/-- The refresh refuses every inconsistent window but those in which a base contract is archived twice
and nothing else is wrong. -/
theorem refuses_inconsistent_iff :
    RefusesInconsistent locale scope options base answers ↔
      ∀ entries, deltaWindow options base answers = some entries →
        (archivedBaseIds base.contractIds entries).Nodup ∨
        CreatesBase base.contractIds entries ∨
        ¬ ConsistentFrom ∅ (foreignEntries base.contractIds entries) ∨
        (∃ error, storedRows locale ((unarchivedCreates entries).map survivor) = .error error) ∨
        ∃ error, scope.expiry = .error error := by
  refine forall_congr' fun entries => imp_congr_right fun hwindow => ?_
  rw [tryDeltaRefresh_of_window hwindow]
  have hnoticed : (entries.foldlM (applyDeltaEntry base.contractIds) .empty).isSome = true ↔ _ :=
    patch_isSome DeltaPatch.fresh_empty
  cases hpatch : entries.foldlM (applyDeltaEntry base.contractIds) DeltaPatch.empty with
  | none =>
      have hrefused : CreatesBase base.contractIds entries ∨
          ¬ ConsistentFrom ∅ (foreignEntries base.contractIds entries) := by
        rw [hpatch] at hnoticed
        by_contra hneither
        rw [not_or, not_not] at hneither
        exact absurd (hnoticed.mpr hneither) (by decide)
      refine iff_of_true (fun _ _ hsome => absurd hsome (by simp)) ?_
      tauto
  | some patch =>
      rw [hpatch] at hnoticed
      obtain ⟨hcreates, hforeign⟩ := hnoticed.mp rfl
      have hvalues := values_of_patch DeltaPatch.fresh_empty hpatch
      have hstart : ∀ id, id ∈ base.contractIds.toFinset ↔
          (id ∈ base.contractIds ∧ id ∉ DeltaPatch.empty.removes) ∨ id ∈ DeltaPatch.empty.adds.keys := by
        simp [DeltaPatch.empty]
      have hconsistent := consistentFrom_of_patch DeltaPatch.fresh_empty hpatch hstart
      have hforeign : ConsistentFrom ∅ (foreignEntries base.contractIds entries) := hforeign
      rw [hconsistent]
      simp only [Option.some.injEq, forall_eq', patchRows_error, hvalues]
      simp only [DeltaPatch.empty, KeyedMap.values, KeyedMap.empty, List.map_nil, List.filter_nil,
        List.nil_append, List.not_mem_nil, not_false_eq_true, implies_true, and_true, hcreates, hforeign,
        not_true_eq_false, false_or]
      exact Decidable.or_iff_not_imp_left.symm

end Refresh

/-- A participant that archives the contract `c1` twice. -/
def repeatingAnswers : DeltaAnswers where
  participantPrunedUpToInclusive := "0"
  ledgerEnd := "2"
  pages := [
    { updates := [.transaction "2" (some ⟨"global", [.archived "c1", .archived "c1"]⟩)]
      lowestPageOffsetExclusive := "1"
      highestPageOffsetInclusive := "2"
      nextPageToken := none }]

/-- The second archive of a base contract goes unnoticed, and the delta is written. -/
theorem repeated_archive_accepted :
    ¬ RefusesInconsistent .codeUnits ⟨"participant", none, .ok 60000⟩ ⟨none, none⟩ tokenSnapshot
      repeatingAnswers := by
  intro hrefuses
  have hwindow : deltaWindow ⟨none, none⟩ tokenSnapshot repeatingAnswers
      = some [.archived "c1", .archived "c1"] := by rfl
  have hinconsistent : ¬ ConsistentFrom tokenSnapshot.contractIds.toFinset
      [.archived "c1", .archived "c1"] := by decide
  have hnone := hrefuses _ hwindow hinconsistent
  have hwritten : (tryDeltaRefresh .codeUnits ⟨"participant", none, .ok 60000⟩ ⟨none, none⟩ tokenSnapshot
      repeatingAnswers).toOption.join.isSome = true := by decide
  rw [hnone] at hwritten
  cases hwritten

end CantonSdk.Query.Grpc
