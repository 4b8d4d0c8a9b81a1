import CantonSdk.Query.Grpc.Reconciliation

/-!
# The order of the input

Transactions are sorted by offset and events by offset and node id, so nothing depends on how they are
listed. The active contracts come without an order of their own. Whether they are accepted does not
depend on how they are listed, but two things in the fragment do: the package name of a type is that of
its last event, and activations whose synchronizers collate the same keep the order they came in.
-/

set_option linter.all false

namespace CantonSdk.Query.Grpc

open CantonSdk.Base CantonSdk.Query.Canonical

variable {locale : Collation}

/-! ### Reordered input -/

/-- One transaction with its events in two orders. -/
structure SameTransaction (transaction other : Transaction) : Prop where
  header_eq : transaction.toTransactionHeader = other.toTransactionHeader
  events_perm : transaction.events.Perm other.events

/-- The same transactions in another order, each with its events in another order. -/
def Reordered (source other : List Transaction) : Prop :=
  ∃ middle, source.Perm middle ∧ List.Forall₂ SameTransaction middle other

theorem SameTransaction.symm {transaction other : Transaction}
    (h : SameTransaction transaction other) : SameTransaction other transaction :=
  ⟨h.header_eq.symm, h.events_perm.symm⟩

theorem Reordered.symm {source other : List Transaction} (h : Reordered source other) :
    Reordered other source := by
  obtain ⟨middle, hperm, hsame⟩ := h
  obtain ⟨others, hothers, hback⟩ := List.perm_comp_forall₂ hperm hsame
  exact ⟨others, hback.symm, hothers.flip.imp fun _ _ => SameTransaction.symm⟩

theorem SameTransaction.valid {transaction other : Transaction}
    (h : SameTransaction transaction other) (hvalid : TransactionValid locale transaction) :
    TransactionValid locale other := by
  obtain ⟨hheader, hevents⟩ := h
  obtain ⟨header, events⟩ := transaction
  obtain ⟨header', events'⟩ := other
  obtain rfl : header = header' := hheader
  obtain ⟨hoffset, hfields, hpending⟩ := hvalid
  refine ⟨hoffset, ?_, fun event hevent => hpending event (hevents.mem_iff.mpr hevent)⟩
  have hempty : events.isEmpty = events'.isEmpty := by
    rw [Bool.eq_iff_iff, List.isEmpty_iff_length_eq_zero, List.isEmpty_iff_length_eq_zero,
      hevents.length_eq]
  rw [validateTransaction] at hfields ⊢
  rwa [← hempty]

section Source

variable {source other : List Transaction}

theorem Reordered.headers (h : Reordered source other) :
    (source.map Transaction.toTransactionHeader).Perm (other.map Transaction.toTransactionHeader) := by
  obtain ⟨middle, hperm, hsame⟩ := h
  have hheaders : middle.map Transaction.toTransactionHeader
      = other.map Transaction.toTransactionHeader := by
    clear hperm
    induction hsame with
    | nil => rfl
    | cons hfirst _ ih => rw [List.map_cons, List.map_cons, hfirst.header_eq, ih]
  rw [← hheaders]
  exact hperm.map _

theorem Reordered.events (h : Reordered source other) :
    (historyEvents source).Perm (historyEvents other) := by
  obtain ⟨middle, hperm, hsame⟩ := h
  refine (historyEvents_perm hperm).trans ?_
  clear hperm
  induction hsame with
  | nil => exact .refl _
  | cons hfirst _ ih =>
      rw [historyEvents, historyEvents, List.flatMap_cons, List.flatMap_cons, hfirst.header_eq]
      exact (((hfirst.events_perm.filterMap _).map _).append ih)

theorem Reordered.valid (h : Reordered source other)
    (hvalid : ∀ transaction ∈ source, TransactionValid locale transaction) :
    ∀ transaction ∈ other, TransactionValid locale transaction := by
  obtain ⟨middle, hperm, hsame⟩ := h
  intro transaction hmem
  obtain ⟨before, hbefore, hpair⟩ := exists_left_of_mem hsame hmem
  exact hpair.valid (hvalid before (hperm.mem_iff.mpr hbefore))

/-- The sorted transactions, as far as their rows are concerned. -/
theorem sortedHeaders (source : List Transaction) :
    (sortBy (compareKey compareOffset fun transaction : Transaction => transaction.offset) source).map
        Transaction.toTransactionHeader
      = sortBy (compareKey compareOffset TransactionHeader.offset)
          (source.map Transaction.toTransactionHeader) := by
  apply List.map_insertionSort
  intro a _ b _
  exact Iff.rfl

end Source

/-! ### Reading reordered input -/

section Input

variable {source other : List Transaction} {activeContracts others : List GetActiveContractsResponse}
  {input : MapperInput}

/-- Reordered input is read to the same history and the same activations, these in another order. -/
theorem readInput_reordered (hsource : Reordered source other) (hactive : activeContracts.Perm others)
    (h : readInput locale source activeContracts = .ok input) :
    ∃ input', readInput locale other others = .ok input' ∧ input'.pending = input.pending ∧
      input'.transactions.map Transaction.toTransactionHeader
        = input.transactions.map Transaction.toTransactionHeader ∧
      input.activeEntries.Perm input'.activeEntries := by
  obtain ⟨hvalid, htransactions, hpending⟩ := readInput_ok.mp h
  obtain ⟨entries, hentries, hperm⟩ := mapM_perm hactive hvalid.entries_mapped
  have hevents := hsource.events
  have hsorted : ∀ list : List Transaction, (historyEvents
      (sortBy (compareKey compareOffset fun transaction => transaction.offset) list)).Perm
      (historyEvents list) := fun _ => historyEvents_perm (perm_sortBy ..)
  refine ⟨⟨sortBy (compareKey compareOffset fun transaction => transaction.offset) other, entries,
    input.pending⟩, readInput_ok.mpr ⟨?_, rfl, ?_⟩, rfl, ?_, hperm⟩
  · exact {
      transactions_valid := hsource.valid hvalid.transactions_valid
      offsets_nodup := by
        have hoffsets := hsource.headers.map TransactionHeader.offset
        rw [List.map_map, List.map_map] at hoffsets
        exact hoffsets.nodup_iff.mp hvalid.offsets_nodup
      identities_nodup := (hevents.map _).nodup_iff.mp hvalid.identities_nodup
      entries_mapped := hentries
      activations_nodup := (hperm.map _).nodup_iff.mp hvalid.activations_nodup
      keys_encode := keyRegistry_perm ((hevents.map _).append (hperm.map _)) hvalid.keys_encode }
  · rw [hpending, htransactions]
    apply sortBy_eq_of_perm
    · intro a ha b hb
      exact hvalid.comparePending_strict a ((hsorted source).mem_iff.mp ha) b
        ((hsorted source).mem_iff.mp hb)
    · exact ((hsorted source).trans hevents).trans (hsorted other).symm
  · rw [htransactions, sortedHeaders, sortedHeaders]
    symm
    apply sortBy_eq_of_perm _ hsource.headers
    intro a ha b hb htie
    obtain ⟨first, hfirst, rfl⟩ := List.mem_map.mp ha
    obtain ⟨second, hsecond, rfl⟩ := List.mem_map.mp hb
    obtain ⟨_, hfirstOffset⟩ := (hvalid.transactions_valid first hfirst).offset_valid
    obtain ⟨_, hsecondOffset⟩ := (hvalid.transactions_valid second hsecond).offset_valid
    have hoffset := decimalValue_injective (validOffset_ok hfirstOffset).2
      (validOffset_ok hsecondOffset).2 (Std.LawfulEqOrd.eq_of_compare htie)
    rw [List.inj_on_of_nodup_map hvalid.offsets_nodup hfirst hsecond hoffset]

theorem activations_perm {entries other : List ActiveContractEntry} (h : entries.Perm other)
    (contractId : String) : (activations entries contractId).Perm (activations other contractId) :=
  h.filter _

end Input

/-! ### Reconciling reordered activations -/

section Group

variable {contractId : String} {existing : Option ContractRow}
  {historical : Option GrpcQueryCreationIdentity} {group other : List ActiveContractEntry}
  {row : ContractRow} {creation : GrpcQueryCreationIdentity}

theorem reconcileWitnesses_perm {descriptors reordered : List GrpcQueryCreationIdentity}
    (hperm : descriptors.Perm reordered) {witnesses : List String}
    (h : reconcileWitnesses contractId existing historical descriptors = .ok witnesses) :
    reconcileWitnesses contractId existing historical reordered = .ok witnesses := by
  obtain ⟨_, hfacts, h⟩ := bind_eq_ok.mp h
  obtain ⟨_, hactive, h⟩ := bind_eq_ok.mp h
  obtain ⟨_, hhistorical, h⟩ := bind_eq_ok.mp h
  rw [guardThat_eq_ok, List.all_eq_true] at hfacts
  -- All facts are those of the first, so whichever comes first has the same.
  have hfirst : (reordered.head?.map canonicalCreationFacts).getD ""
      = (descriptors.head?.map canonicalCreationFacts).getD "" := by
    cases reordered with
    | nil => rw [hperm.eq_nil]
    | cons first rest =>
        have hmem : first ∈ descriptors := hperm.mem_iff.mpr List.mem_cons_self
        simpa using hfacts first hmem
  rw [reconcileWitnesses, hfirst]
  refine bind_eq_ok.mpr ⟨(), ?_, bind_eq_ok.mpr ⟨(), hactive, bind_eq_ok.mpr ⟨(), hhistorical, ?_⟩⟩⟩
  · rw [guardThat_eq_ok, List.all_eq_true]
    exact fun descriptor hmem => hfacts descriptor (hperm.mem_iff.mpr hmem)
  · exact immutableStrings_perm ((hperm.flatMap_right _).append_left _) _ _ h

/-- Without a tie for the representative the activations of a contract can come in any order. -/
theorem reconcileContract_eq (hperm : group.Perm other)
    (hsorted : sortBy (compareActivation locale) group = sortBy (compareActivation locale) other)
    (h : reconcileContract locale contractId existing historical group = .ok (row, creation)) :
    reconcileContract locale contractId existing historical other = .ok (row, creation) := by
  obtain ⟨descriptors, hdescriptors, h⟩ := bind_eq_ok.mp h
  obtain ⟨witnesses, hwitnesses, h⟩ := bind_eq_ok.mp h
  obtain ⟨reordered, hreordered, hsame⟩ := mapM_perm hperm hdescriptors
  refine bind_eq_ok.mpr ⟨reordered, hreordered, bind_eq_ok.mpr ⟨witnesses,
    reconcileWitnesses_perm hsame hwitnesses, ?_⟩⟩
  unfold reconciledPair at h ⊢
  rwa [hsorted] at h

/-- In any order the activations of a contract are accepted or not. -/
theorem reconcileContract_succeeds (hperm : group.Perm other)
    (h : reconcileContract locale contractId existing historical group = .ok (row, creation)) :
    ∃ pair, reconcileContract locale contractId existing historical other = .ok pair := by
  obtain ⟨descriptors, hdescriptors, h⟩ := bind_eq_ok.mp h
  obtain ⟨witnesses, hwitnesses, h⟩ := bind_eq_ok.mp h
  obtain ⟨reordered, hreordered, hsame⟩ := mapM_perm hperm hdescriptors
  obtain ⟨pair, hpair⟩ : ∃ pair, reconciledPair locale existing historical other witnesses
      = .ok pair := by
    have hmem : ∀ entry, entry ∈ sortBy (compareActivation locale) other ↔ entry ∈ group := by
      intro entry
      rw [mem_sortBy, hperm.mem_iff]
    rcases reconciledPair_cases h with ⟨_, _, rfl, rfl, _⟩ | ⟨hnone, representative, hrep, _⟩
    · exact ⟨_, rfl⟩
    · cases hsorted : sortBy (compareActivation locale) other with
      | nil =>
          rw [hsorted] at hmem
          exact absurd ((hmem representative).mpr hrep) List.not_mem_nil
      | cons first rest =>
          have hfirst := (hmem first).mp (hsorted ▸ List.mem_cons_self)
          obtain ⟨created, _, hcreated⟩ := exists_right_of_mem (mapM_eq_ok.mp hdescriptors) hfirst
          have hresult : (do
              let creation ← creationDescriptor locale first.event first.event.offset
              return ({ createdRow creation with witnesses }, { creation with witnesses }) :
                Checked (ContractRow × GrpcQueryCreationIdentity))
              = .ok ({ createdRow created with witnesses }, { created with witnesses }) :=
            bind_eq_ok.mpr ⟨created, hcreated, rfl⟩
          refine ⟨_, Eq.trans ?_ hresult⟩
          unfold reconciledPair
          rw [hsorted]
          rcases hnone with rfl | rfl
          · rfl
          · cases existing <;> rfl
  exact ⟨pair, bind_eq_ok.mpr ⟨reordered, hreordered, bind_eq_ok.mpr ⟨witnesses,
    reconcileWitnesses_perm hsame hwitnesses, hpair⟩⟩⟩

end Group

/-! ### Keys of types -/

theorem publicKey_ok {identity key : String} (h : publicKey identity = .ok key) :
    canonicalPublicNumericIdentity identity = some key := by
  rw [publicKey] at h
  cases hkey : canonicalPublicNumericIdentity identity with
  | none => simp [hkey] at h
  | some found =>
      simp only [hkey] at h
      exact congrArg some (Except.ok.inj h)

theorem mem_splitDots {text : List Char} {c : Char} (h : c ∈ text) :
    c = '.' ∨ ∃ segment ∈ splitDots text, c ∈ segment := by
  induction text with
  | nil => cases h
  | cons first rest ih =>
      rw [splitDots]
      split
      · rename_i hdot
        rcases List.mem_cons.mp h with rfl | h
        · exact Or.inl hdot
        · rcases ih h with hdot | ⟨segment, hsegment, hc⟩
          · exact Or.inl hdot
          · exact Or.inr ⟨segment, List.mem_cons_of_mem _ hsegment, hc⟩
      · cases hrest : splitDots rest with
        | nil =>
            rw [hrest] at ih
            rcases List.mem_cons.mp h with rfl | h
            · exact Or.inr ⟨[c], by simp, by simp⟩
            · rcases ih h with hdot | ⟨_, hmem, _⟩
              · exact Or.inl hdot
              · cases hmem
        | cons segment segments =>
            rw [hrest] at ih
            rcases List.mem_cons.mp h with rfl | h
            · exact Or.inr ⟨_, List.mem_cons_self, List.mem_cons_self⟩
            · rcases ih h with hdot | ⟨found, hfound, hc⟩
              · exact Or.inl hdot
              · rcases List.mem_cons.mp hfound with rfl | hfound
                · exact Or.inr ⟨_, List.mem_cons_self, List.mem_cons_of_mem _ hc⟩
                · exact Or.inr ⟨found, List.mem_cons_of_mem _ hfound, hc⟩

theorem nul_not_mem_of_inClass {class_ : Char → Bool} {least most : Nat} {text : String}
    (h : inClass class_ least most text = true) (hclass : class_ '\x00' = false) :
    '\x00' ∉ text.toList := by
  intro hmem
  rw [inClass_all h _ hmem] at hclass
  cases hclass

theorem requiredTemplate_framed {template : Option Identifier} {name : String} {result : Identifier}
    (h : requiredTemplate template name = .ok result) :
    '\x00' ∉ result.packageId.toList ∧ '\x00' ∉ result.moduleName.toList := by
  obtain rfl := requiredTemplate_ok h
  obtain ⟨_, hpackage, h⟩ := bind_eq_ok.mp h
  obtain ⟨_, hmodule, h⟩ := bind_eq_ok.mp h
  constructor
  · rw [validPackageIdString] at hpackage
    split at hpackage
    · rename_i hclass
      exact nul_not_mem_of_inClass hclass (by decide)
    · cases hpackage
  · rw [validDottedNameString] at hmodule
    split at hmodule
    · rename_i hsegments
      rw [List.all_eq_true] at hsegments
      intro hmem
      rcases mem_splitDots hmem with hdot | ⟨segment, hsegment, hc⟩
      · exact absurd hdot (by decide)
      · have hname := hsegments segment hsegment
        cases segment with
        | nil => cases hc
        | cons first rest =>
            simp only [isNameString, Bool.and_eq_true, List.all_eq_true] at hname
            rcases List.mem_cons.mp hc with rfl | hc
            · exact absurd hname.1.1 (by decide)
            · exact absurd (hname.2 _ hc) (by decide)
    · cases hmodule

theorem append_frames (kind separator package module entity : String) :
    kind ++ separator ++ package ++ separator ++ module ++ separator ++ entity
      = kind ++ separator ++ (package ++ separator ++ (module ++ separator ++ entity)) := by
  simp only [String.append_assoc]

/-- The identity of a contract type determines its template. -/
theorem contractIdentity_injective {left right : Identifier}
    (hleft : '\x00' ∉ left.packageId.toList ∧ '\x00' ∉ left.moduleName.toList)
    (hright : '\x00' ∉ right.packageId.toList ∧ '\x00' ∉ right.moduleName.toList)
    (h : contractIdentity left = contractIdentity right) : left = right := by
  have hkind : '\x00' ∉ "contract-type".toList := by decide
  have hframed := ((append_frames _ _ _ _ _).symm.trans h).trans (append_frames _ _ _ _ _)
  obtain ⟨_, hframed⟩ := append_separator_injective hkind hkind hframed
  obtain ⟨hpackage, hframed⟩ := append_separator_injective hleft.1 hright.1 hframed
  obtain ⟨hmodule, hentity⟩ := append_separator_injective hleft.2 hright.2 hframed
  cases left
  cases right
  simp_all

theorem typeIdentityRows_created {event : CreatedEvent} {rows : List GrpcQueryTypeIdentity}
    (h : typeIdentityRows (.created event) = .ok rows) :
    ∃ template pk, event.templateId = some template ∧
      requiredTemplate event.templateId "event template" = .ok template ∧
      publicKey (contractIdentity template) = .ok pk ∧
      rows = [⟨pk, template, template.packageId, some event.packageName, none⟩] := by
  obtain ⟨template, htemplate, h⟩ := bind_eq_ok.mp h
  obtain ⟨pk, hpk, h⟩ := bind_eq_ok.mp h
  exact ⟨template, pk, requiredTemplate_ok htemplate, htemplate, hpk, (Except.ok.inj h).symm⟩

theorem isPlain_typeIdentityRows {event : LedgerEvent} {rows : List GrpcQueryTypeIdentity}
    (h : typeIdentityRows event = .ok rows) : ∀ row ∈ rows, isPlain row.pk = true := by
  obtain ⟨template, _, h⟩ := bind_eq_ok.mp h
  obtain ⟨pk, hpk, h⟩ := bind_eq_ok.mp h
  have hplain := isPlain_canonicalPublicNumericIdentity (publicKey_ok hpk)
  cases event with
  | created event =>
      obtain rfl := Except.ok.inj h
      simpa using hplain
  | exercised event =>
      obtain ⟨owner, _, h⟩ := bind_eq_ok.mp h
      obtain ⟨exercisePk, hexercise, h⟩ := bind_eq_ok.mp h
      obtain rfl := Except.ok.inj h
      have hplain' := isPlain_canonicalPublicNumericIdentity (publicKey_ok hexercise)
      simpa using ⟨hplain, hplain'⟩

/-! ### Types and packages -/

theorem sortedPackageIdentities_perm {ids other : List String} (h : ids.Perm other) :
    sortedPackageIdentities ids = sortedPackageIdentities other := by
  unfold sortedPackageIdentities
  rw [sortBy_eq_of_perm (fun a _ b _ => eq_of_compareText) h.dedup]

/-- A type row stands under its key, and the last row of a key is kept. -/
theorem mem_sortedTypeIdentities {rows : List GrpcQueryTypeIdentity} {row : GrpcQueryTypeIdentity} :
    row ∈ sortedTypeIdentities locale rows ↔
      (KeyedMap.ofEntries (rows.map fun row => (row.pk, row))).get row.pk = some row := by
  rw [sortedTypeIdentities, mem_sortBy, KeyedMap.mem_values]
  constructor
  · intro h
    obtain ⟨key, hkey⟩ := h
    obtain ⟨found, _, hfound⟩ := List.mem_map.mp (KeyedMap.mem_of_get_ofEntries hkey)
    obtain ⟨rfl, rfl⟩ := Prod.mk.inj hfound
    exact hkey
  · exact fun h => ⟨_, h⟩

theorem sortedTypeIdentities_eq {rows other : List GrpcQueryTypeIdentity}
    (hplain : ∀ row ∈ rows, isPlain row.pk = true)
    (hget : ∀ key, (KeyedMap.ofEntries (rows.map fun row => (row.pk, row))).get key
      = (KeyedMap.ofEntries (other.map fun row => (row.pk, row))).get key) :
    sortedTypeIdentities locale rows = sortedTypeIdentities locale other := by
  apply sortBy_eq_of_perm _ (KeyedMap.values_perm_of_get_eq hget)
  have hkeyed : ∀ row ∈ (KeyedMap.ofEntries (rows.map fun row => (row.pk, row))).values,
      (KeyedMap.ofEntries (rows.map fun row => (row.pk, row))).get row.pk = some row ∧
        isPlain row.pk = true := by
    intro row hrow
    obtain ⟨key, hkey⟩ := KeyedMap.mem_values.mp hrow
    obtain ⟨found, hmem, hfound⟩ := List.mem_map.mp (KeyedMap.mem_of_get_ofEntries hkey)
    obtain ⟨rfl, rfl⟩ := Prod.mk.inj hfound
    exact ⟨hkey, hplain found hmem⟩
  intro a ha b hb htie
  obtain ⟨haGet, haPlain⟩ := hkeyed a ha
  obtain ⟨hbGet, hbPlain⟩ := hkeyed b hb
  have hpk := locale.eq_of_plain _ _ haPlain hbPlain htie
  rw [hpk, hbGet] at haGet
  exact (Option.some.inj haGet).symm

/-! ### Runs on reordered input -/

/-- The activations that the responses stand for. -/
def activeEntries (activeContracts : List GetActiveContractsResponse) : List ActiveContractEntry :=
  activeContracts.filterMap toActiveEntry

/-- Created events of one template name one package. -/
def PackageNamesAgree (activeContracts : List GetActiveContractsResponse) : Prop :=
  ∀ a ∈ activeEntries activeContracts, ∀ b ∈ activeEntries activeContracts,
    a.event.templateId = b.event.templateId → a.event.packageName = b.event.packageName

/-- No two activations of a contract are on different synchronizers that collate the same. -/
def NoSynchronizerTies (locale : Collation) (activeContracts : List GetActiveContractsResponse) :
    Prop :=
  ∀ a ∈ activeEntries activeContracts, ∀ b ∈ activeEntries activeContracts,
    a.event.contractId = b.event.contractId →
    locale.localeCompare a.synchronizerId b.synchronizerId = .eq → a.synchronizerId = b.synchronizerId

section Runs

variable {source other : List Transaction} {activeContracts others : List GetActiveContractsResponse}
  {fragment reordered : GrpcQueryRelationFragment}

theorem MapperRun.activeEntries_eq (run : MapperRun locale source activeContracts fragment) :
    run.input.activeEntries = activeEntries activeContracts := by
  have hmapped := mapM_eq_ok.mp (readInput_ok.mp run.input_read).1.entries_mapped
  rw [activeEntries]
  generalize run.input.activeEntries = entries at hmapped
  clear run
  induction hmapped with
  | nil => rfl
  | cons hfirst _ ih => rw [List.filterMap_cons_some (activeContractEntry_ok hfirst).1, ih]

/-- Reordered input is accepted too, and the history makes the same of it. -/
theorem MapperRun.reorder (run : MapperRun locale source activeContracts fragment)
    (hsource : Reordered source other) (hactive : activeContracts.Perm others) :
    ∃ reordered, ∃ run' : MapperRun locale other others reordered,
      run'.input.pending = run.input.pending ∧ run'.history = run.history ∧
      run.input.activeEntries.Perm run'.input.activeEntries ∧
      reordered.transactions = fragment.transactions ∧ reordered.events = fragment.events ∧
      reordered.packageIdentities = fragment.packageIdentities := by
  obtain ⟨input', hinput, hpending, hheaders, hentries⟩ :=
    readInput_reordered hsource hactive run.input_read
  have hevents : run.input.events.Perm input'.events := by
    rw [MapperInput.events, MapperInput.events, hpending]
    exact (hentries.map _).append_left _
  obtain ⟨typeRows, htypes, _⟩ := mapM_perm hevents run.types_mapped
  obtain ⟨packageIds, hpackages, hsame⟩ := mapM_perm hevents run.packages_mapped
  have hmapped : (input'.transactions.mapM fun transaction =>
      mapTransaction transaction.toTransactionHeader) = .ok fragment.transactions := by
    have hmap : ∀ list : List Transaction, (list.mapM fun transaction =>
        mapTransaction transaction.toTransactionHeader)
        = (list.map Transaction.toTransactionHeader).mapM mapTransaction := fun list => by
      rw [List.mapM_map]
      rfl
    rw [hmap, hheaders, ← hmap]
    exact run.transactions_mapped
  have hspec := run.reconciled_spec
  obtain ⟨reconciled, hreconciled⟩ :
      ∃ reconciled, reconcileActiveContracts locale run.history input'.activeEntries
        = .ok reconciled := by
    apply reconcileActiveContracts_succeeds run.keyed
    intro id hne
    have hperm := activations_perm hentries id
    obtain ⟨row, creation, hresult, _⟩ := hspec.reconciled id fun hempty =>
      hne (hempty ▸ hperm).nil_eq.symm
    exact reconcileContract_succeeds hperm hresult
  refine ⟨{ fragment with
      contracts := sortBy (compareKey locale.localeCompare ContractRow.contractId)
        reconciled.contracts.values
      exercises := sortBy (compareExercise locale) reconciled.exerciseRows
      typeIdentities := sortedTypeIdentities locale typeRows.flatten
      creationIdentities := sortBy
        (compareKey locale.localeCompare GrpcQueryCreationIdentity.contractId)
        reconciled.creations.values
      activeContractIdentities := sortBy (compareActiveIdentity locale)
        (input'.activeEntries.map activeContractIdentity) }, ?_⟩
  refine ⟨⟨input', run.history, reconciled, typeRows, packageIds, hinput, hmapped, ?_, ?_,
    hreconciled, htypes, hpackages, ?_, rfl, rfl, rfl, rfl, rfl⟩, hpending, rfl, hentries, rfl, rfl, rfl⟩
  · exact hpending ▸ run.events_mapped
  · exact hpending ▸ run.history_folded
  · rw [← sortedPackageIdentities_perm hsame.flatten]
    exact run.packages_sorted

/-- Without ties an activation is determined by its contract and how its synchronizer collates. -/
theorem MapperRun.activation_eq (run : MapperRun locale source activeContracts fragment)
    (hties : NoSynchronizerTies locale activeContracts) {a b : ActiveContractEntry}
    (ha : a ∈ run.input.activeEntries) (hb : b ∈ run.input.activeEntries)
    (hcontract : a.event.contractId = b.event.contractId)
    (htie : locale.localeCompare a.synchronizerId b.synchronizerId = .eq) : a = b := by
  have hsame := hties a (run.activeEntries_eq ▸ ha) b (run.activeEntries_eq ▸ hb) hcontract htie
  apply List.inj_on_of_nodup_map (readInput_ok.mp run.input_read).1.activations_nodup ha hb
  rw [activationKey, activationKey, hcontract, hsame]

/-- Every activation passed the checks of a creation. -/
theorem MapperRun.activation_created (run : MapperRun locale source activeContracts fragment)
    {entry : ActiveContractEntry} (hentry : entry ∈ run.input.activeEntries) :
    ∃ creation, creationDescriptor locale entry.event entry.event.offset = .ok creation := by
  have hmapped := mapM_eq_ok.mp (readInput_ok.mp run.input_read).1.entries_mapped
  obtain ⟨_, _, hok⟩ := exists_left_of_mem hmapped hentry
  exact (activeContractEntry_ok hok).2

/-- Without ties both runs leave the same at every contract id. -/
theorem MapperRun.reconciled_eq (run : MapperRun locale source activeContracts fragment)
    (run' : MapperRun locale other others reordered)
    (hties : NoSynchronizerTies locale activeContracts) (hhistory : run'.history = run.history)
    (hentries : run.input.activeEntries.Perm run'.input.activeEntries) (id : String) :
    run.reconciled.contracts.get id = run'.reconciled.contracts.get id ∧
      run.reconciled.creations.get id = run'.reconciled.creations.get id := by
  have hspec := run.reconciled_spec
  have hspec' := run'.reconciled_spec
  rw [hhistory] at hspec'
  have hperm := activations_perm hentries id
  by_cases hnone : activations run.input.activeEntries id = []
  · obtain ⟨hcontract, hcreation⟩ := hspec.untouched id hnone
    obtain ⟨hcontract', hcreation'⟩ := hspec'.untouched id (hnone ▸ hperm).nil_eq.symm
    exact ⟨hcontract.trans hcontract'.symm, hcreation.trans hcreation'.symm⟩
  · obtain ⟨row, creation, hresult, hrow, hcreation⟩ := hspec.reconciled id hnone
    obtain ⟨row', creation', hresult', hrow', hcreation'⟩ := hspec'.reconciled id fun hempty =>
      hnone (hempty ▸ hperm).eq_nil
    have hsorted : sortBy (compareActivation locale) (activations run.input.activeEntries id)
        = sortBy (compareActivation locale) (activations run'.input.activeEntries id) := by
      apply sortBy_eq_of_perm _ hperm
      intro a ha b hb htie
      obtain ⟨ha, haId⟩ := mem_activations.mp ha
      obtain ⟨hb, hbId⟩ := mem_activations.mp hb
      exact run.activation_eq hties ha hb (haId.trans hbId.symm) (compareLex_eq_eq.mp htie).2
    rw [reconcileContract_eq hperm hsorted hresult] at hresult'
    obtain ⟨rfl, rfl⟩ := Prod.mk.inj (Except.ok.inj hresult')
    exact ⟨hrow.trans hrow'.symm, hcreation.trans hcreation'.symm⟩

/-- Without ties the activations are listed in one order. -/
theorem MapperRun.activations_sorted (run : MapperRun locale source activeContracts fragment)
    (run' : MapperRun locale other others reordered)
    (hties : NoSynchronizerTies locale activeContracts)
    (hentries : run.input.activeEntries.Perm run'.input.activeEntries) :
    fragment.activeContractIdentities = reordered.activeContractIdentities := by
  rw [run.activations_eq, run'.activations_eq]
  apply sortBy_eq_of_perm _ (hentries.map _)
  intro a ha b hb htie
  obtain ⟨first, hfirst, rfl⟩ := List.mem_map.mp ha
  obtain ⟨second, hsecond, rfl⟩ := List.mem_map.mp hb
  obtain ⟨hcontract, hsynchronizer⟩ := compareLex_eq_eq.mp htie
  obtain ⟨_, hfirstOk⟩ := run.activation_created hfirst
  obtain ⟨_, hsecondOk⟩ := run.activation_created hsecond
  have hid := locale.eq_of_plain _ _ (creationDescriptor_ok hfirstOk).2.2.2.2.1
    (creationDescriptor_ok hsecondOk).2.2.2.2.1 hcontract
  rw [run.activation_eq hties hfirst hsecond hid hsynchronizer]

/-- The type rows of the activations. -/
theorem MapperRun.typeRows_split (run : MapperRun locale source activeContracts fragment) :
    ∃ historyRows activeRows, run.typeRows = historyRows ++ activeRows ∧
      (run.input.pending.map PendingEvent.event).mapM typeIdentityRows = .ok historyRows ∧
      (run.input.activeEntries.map fun entry => LedgerEvent.created entry.event).mapM typeIdentityRows
        = .ok activeRows := by
  have htypes := run.types_mapped
  rw [MapperInput.events, List.mapM_append] at htypes
  obtain ⟨historyRows, hhistory, htypes⟩ := bind_eq_ok.mp htypes
  obtain ⟨activeRows, hactive, htypes⟩ := bind_eq_ok.mp htypes
  exact ⟨historyRows, activeRows, (Except.ok.inj htypes).symm, hhistory, hactive⟩

/-- Where package names agree, the activations give each type one row. -/
theorem MapperRun.type_agree (run : MapperRun locale source activeContracts fragment)
    (hnames : PackageNamesAgree activeContracts) {activeRows : List (List GrpcQueryTypeIdentity)}
    (hactive : (run.input.activeEntries.map fun entry => LedgerEvent.created entry.event).mapM
      typeIdentityRows = .ok activeRows) :
    ∀ a ∈ activeRows.flatten, ∀ b ∈ activeRows.flatten, a.pk = b.pk → a = b := by
  have hrow : ∀ row ∈ activeRows.flatten, ∃ entry ∈ run.input.activeEntries,
      entry.event.templateId = some row.templateId ∧
      requiredTemplate entry.event.templateId "event template" = .ok row.templateId ∧
      publicKey (contractIdentity row.templateId) = .ok row.pk ∧
      row = ⟨row.pk, row.templateId, row.templateId.packageId, some entry.event.packageName, none⟩ := by
    intro row hrow
    obtain ⟨rows, hrows, hmem⟩ := List.mem_flatten.mp hrow
    obtain ⟨event, hevent, hok⟩ := exists_left_of_mem (mapM_eq_ok.mp hactive) hrows
    obtain ⟨entry, hentry, rfl⟩ := List.mem_map.mp hevent
    obtain ⟨template, pk, htemplate, hrequired, hpk, rfl⟩ := typeIdentityRows_created hok
    obtain rfl := List.mem_singleton.mp hmem
    exact ⟨entry, hentry, htemplate, hrequired, hpk, rfl⟩
  intro a ha b hb hpk
  obtain ⟨first, hfirst, hfirstTemplate, hfirstOk, hfirstPk, hfirstEq⟩ := hrow a ha
  obtain ⟨second, hsecond, hsecondTemplate, hsecondOk, hsecondPk, hsecondEq⟩ := hrow b hb
  have htemplate : a.templateId = b.templateId := by
    apply contractIdentity_injective (requiredTemplate_framed hfirstOk)
      (requiredTemplate_framed hsecondOk)
    rw [hpk] at hfirstPk
    exact canonicalPublicNumericIdentity_injective (publicKey_ok hfirstPk) (publicKey_ok hsecondPk)
  have hname := hnames first (run.activeEntries_eq ▸ hfirst) second (run.activeEntries_eq ▸ hsecond)
    (hfirstTemplate.trans ((congrArg some htemplate).trans hsecondTemplate.symm))
  rw [hfirstEq, hsecondEq, hpk, htemplate, hname]

theorem MapperRun.types_sorted (run : MapperRun locale source activeContracts fragment)
    (run' : MapperRun locale other others reordered) (hnames : PackageNamesAgree activeContracts)
    (hpending : run'.input.pending = run.input.pending)
    (hentries : run.input.activeEntries.Perm run'.input.activeEntries) :
    fragment.typeIdentities = reordered.typeIdentities := by
  obtain ⟨historyRows, activeRows, hrows, hhistory, hactive⟩ := run.typeRows_split
  obtain ⟨historyRows', activeRows', hrows', hhistory', hactive'⟩ := run'.typeRows_split
  rw [hpending, hhistory] at hhistory'
  obtain rfl := Except.ok.inj hhistory'
  obtain ⟨permuted, hpermuted, hperm⟩ := mapM_perm (hentries.map _) hactive
  rw [hactive'] at hpermuted
  obtain rfl := Except.ok.inj hpermuted
  have hagree := run.type_agree hnames hactive
  rw [run.types_eq, run'.types_eq]
  apply sortedTypeIdentities_eq
  · intro row hrow
    obtain ⟨rows, hmem, hrow⟩ := List.mem_flatten.mp hrow
    obtain ⟨event, _, hok⟩ := exists_left_of_mem (mapM_eq_ok.mp run.types_mapped) hmem
    exact isPlain_typeIdentityRows hok row hrow
  · intro key
    rw [hrows, hrows', List.flatten_append, List.flatten_append, List.map_append, List.map_append]
    apply KeyedMap.get_ofEntries_of_perm (hperm.flatten.map _)
    intro a ha b hb hkey
    obtain ⟨first, hfirst, rfl⟩ := List.mem_map.mp ha
    obtain ⟨second, hsecond, rfl⟩ := List.mem_map.mp hb
    rw [hagree first hfirst second hsecond hkey]

/-- Without ties, and where package names agree, reordered input is mapped to the same fragment. -/
theorem MapperRun.reorder_eq (run : MapperRun locale source activeContracts fragment)
    (hsource : Reordered source other) (hactive : activeContracts.Perm others)
    (hnames : PackageNamesAgree activeContracts)
    (hties : NoSynchronizerTies locale activeContracts) :
    mapGrpcQueryRelationFragment locale other others = .ok fragment := by
  obtain ⟨reordered, run', hpending, hhistory, hentries, htransactions, hevents, hpackages⟩ :=
    run.reorder hsource hactive
  have hget := run.reconciled_eq run' hties hhistory hentries
  have hkeyed := run.reconciled_spec.keyed
  have hcontracts : fragment.contracts = reordered.contracts := by
    rw [run.contracts_eq, run'.contracts_eq]
    apply sortBy_eq_of_perm _ (KeyedMap.values_perm_of_get_eq fun id => (hget id).1)
    intro a ha b hb htie
    obtain ⟨first, hfirst⟩ := KeyedMap.mem_values.mp ha
    obtain ⟨second, hsecond⟩ := KeyedMap.mem_values.mp hb
    obtain ⟨rfl, hfirstPlain⟩ := hkeyed.contract_key hfirst
    obtain ⟨rfl, hsecondPlain⟩ := hkeyed.contract_key hsecond
    rw [locale.eq_of_plain _ _ hfirstPlain hsecondPlain htie, hsecond] at hfirst
    exact (Option.some.inj hfirst).symm
  have hcreations : fragment.creationIdentities = reordered.creationIdentities := by
    rw [run.creations_eq, run'.creations_eq]
    apply sortBy_eq_of_perm _ (KeyedMap.values_perm_of_get_eq fun id => (hget id).2)
    intro a ha b hb htie
    obtain ⟨first, hfirst⟩ := KeyedMap.mem_values.mp ha
    obtain ⟨second, hsecond⟩ := KeyedMap.mem_values.mp hb
    obtain ⟨firstRow, hfirstRow⟩ := (hkeyed.same_keys first).mpr ⟨a, hfirst⟩
    obtain ⟨secondRow, hsecondRow⟩ := (hkeyed.same_keys second).mpr ⟨b, hsecond⟩
    have hfirstPlain := (hkeyed.contract_key hfirstRow).2
    have hsecondPlain := (hkeyed.contract_key hsecondRow).2
    obtain rfl := hkeyed.creation_key hfirst
    obtain rfl := hkeyed.creation_key hsecond
    rw [locale.eq_of_plain _ _ hfirstPlain hsecondPlain htie, hsecond] at hfirst
    exact (Option.some.inj hfirst).symm
  have hexercises : fragment.exercises = reordered.exercises := by
    rw [run.exercises_eq, run'.exercises_eq, run.reconciled_spec.exercises_eq,
      run'.reconciled_spec.exercises_eq, hhistory]
  have hfragment : fragment = reordered := by
    have htypes := run.types_sorted run' hnames hpending hentries
    have hactivations := run.activations_sorted run' hties hentries
    cases fragment
    cases reordered
    simp_all
  rw [hfragment]
  exact mapGrpcQueryRelationFragment_ok.mpr ⟨run'⟩

/-- The row of the last activation is the row of its type. -/
theorem MapperRun.last_type {front : List GetActiveContractsResponse}
    {response : GetActiveContractsResponse} {entry : ActiveContractEntry}
    (run : MapperRun locale source (front ++ [response]) fragment)
    (hentry : toActiveEntry response = some entry) :
    ∃ template pk, entry.event.templateId = some template ∧
      publicKey (contractIdentity template) = .ok pk ∧
      ⟨pk, template, template.packageId, some entry.event.packageName, none⟩
        ∈ fragment.typeIdentities := by
  have hentries : run.input.activeEntries = activeEntries front ++ [entry] := by
    rw [run.activeEntries_eq, activeEntries, List.filterMap_append]
    simp [hentry, activeEntries]
  have htypes := run.types_mapped
  rw [MapperInput.events, hentries, List.map_append, ← List.append_assoc, List.mapM_append] at htypes
  obtain ⟨before, _, htypes⟩ := bind_eq_ok.mp htypes
  obtain ⟨last, hlast, htypes⟩ := bind_eq_ok.mp htypes
  rw [mapM_eq_ok] at hlast
  cases hlast with
  | cons hrow hnone =>
      cases hnone
      obtain ⟨template, pk, htemplate, _, hpk, rfl⟩ := typeIdentityRows_created hrow
      refine ⟨template, pk, htemplate, hpk, ?_⟩
      rw [run.types_eq, mem_sortedTypeIdentities, ← Except.ok.inj htypes, List.flatten_append,
        List.flatten_singleton, List.map_append, List.map_singleton, KeyedMap.get_ofEntries_append,
        KeyedMap.get_set_self]

theorem MapperRun.activations_nodup (run : MapperRun locale source activeContracts fragment) :
    fragment.activeContractIdentities.Nodup := by
  rw [run.activations_eq, (perm_sortBy _ _).nodup_iff]
  apply List.Nodup.of_map fun identity => identity.contractId ++ nul ++ identity.synchronizerId
  rw [List.map_map]
  exact (readInput_ok.mp run.input_read).1.activations_nodup

/-- Tied activations are listed in the order in which they came. -/
theorem MapperRun.tied_order {first second : ActiveContractEntry} {response : GetActiveContractsResponse}
    (run : MapperRun locale source (response :: others) fragment)
    (hfirst : toActiveEntry response = some first) (hsecond : second ∈ activeEntries others)
    (hcontract : first.event.contractId = second.event.contractId)
    (htie : locale.localeCompare first.synchronizerId second.synchronizerId = .eq) :
    [activeContractIdentity first, activeContractIdentity second].Sublist
      fragment.activeContractIdentities := by
  rw [run.activations_eq, run.activeEntries_eq, activeEntries, List.filterMap_cons_some hfirst]
  apply pair_sublist_sortBy
  · apply compareLex_eq_eq.mpr
    refine ⟨?_, htie⟩
    change locale.localeCompare first.event.contractId second.event.contractId = .eq
    rw [hcontract]
    exact Std.ReflCmp.compare_self
  · exact ((List.singleton_sublist.mpr hsecond).cons_cons first).map _

end Runs

/-! ### When the order shows -/

/-- Reordering the input does not change what the mapper returns. -/
def OrderInvisible (locale : Collation) (source : List Transaction)
    (activeContracts : List GetActiveContractsResponse) : Prop :=
  ∀ other others, Reordered source other → activeContracts.Perm others →
    (mapGrpcQueryRelationFragment locale other others).toOption
      = (mapGrpcQueryRelationFragment locale source activeContracts).toOption

theorem Reordered.refl (source : List Transaction) : Reordered source source := by
  refine ⟨source, .refl _, ?_⟩
  rw [List.forall₂_same]
  exact fun _ _ => ⟨rfl, .refl _⟩

section Shows

variable {source : List Transaction} {activeContracts : List GetActiveContractsResponse}
  {fragment : GrpcQueryRelationFragment}

theorem OrderInvisible.run (h : OrderInvisible locale source activeContracts)
    (hmapped : mapGrpcQueryRelationFragment locale source activeContracts = .ok fragment)
    {others : List GetActiveContractsResponse} (hperm : activeContracts.Perm others) :
    Nonempty (MapperRun locale source others fragment) := by
  have hsame := h source others (.refl source) hperm
  rw [hmapped] at hsame
  exact mapGrpcQueryRelationFragment_ok.mp (toOption_eq_some_iff.mp hsame)

/-- With the activation moved to the end, the fragment names the package it names. -/
theorem OrderInvisible.type_named (h : OrderInvisible locale source activeContracts)
    (hmapped : mapGrpcQueryRelationFragment locale source activeContracts = .ok fragment)
    {entry : ActiveContractEntry} (hentry : entry ∈ activeEntries activeContracts) :
    ∃ template pk, entry.event.templateId = some template ∧
      publicKey (contractIdentity template) = .ok pk ∧
      ⟨pk, template, template.packageId, some entry.event.packageName, none⟩
        ∈ fragment.typeIdentities := by
  obtain ⟨response, hresponse, hresponseEntry⟩ := List.mem_filterMap.mp hentry
  obtain ⟨front, back, rfl⟩ := List.append_of_mem hresponse
  have hperm : (front ++ response :: back).Perm ((front ++ back) ++ [response]) :=
    List.perm_middle.trans (List.perm_append_singleton _ _).symm
  obtain ⟨run⟩ := h.run hmapped hperm
  exact run.last_type hresponseEntry

theorem OrderInvisible.names_agree (h : OrderInvisible locale source activeContracts)
    (hmapped : mapGrpcQueryRelationFragment locale source activeContracts = .ok fragment) :
    PackageNamesAgree activeContracts := by
  obtain ⟨run⟩ := h.run hmapped (.refl _)
  intro a ha b hb htemplate
  obtain ⟨template, pk, haTemplate, haPk, haMem⟩ := h.type_named hmapped ha
  obtain ⟨template', pk', hbTemplate, hbPk, hbMem⟩ := h.type_named hmapped hb
  obtain rfl : template = template' :=
    Option.some.inj (haTemplate.symm.trans (htemplate.trans hbTemplate))
  obtain rfl : pk = pk' := Except.ok.inj (haPk.symm.trans hbPk)
  rw [run.types_eq, mem_sortedTypeIdentities] at haMem hbMem
  have hrows := Option.some.inj (haMem.symm.trans hbMem)
  simpa using hrows

theorem OrderInvisible.no_ties (h : OrderInvisible locale source activeContracts)
    (hmapped : mapGrpcQueryRelationFragment locale source activeContracts = .ok fragment) :
    NoSynchronizerTies locale activeContracts := by
  intro a ha b hb hcontract htie
  by_contra hne
  -- Either activation can be moved to the front, and the fragment then lists it before the other.
  have hfirst : ∀ first ∈ activeEntries activeContracts, ∀ second ∈ activeEntries activeContracts,
      first.event.contractId = second.event.contractId →
      locale.localeCompare first.synchronizerId second.synchronizerId = .eq →
      first.synchronizerId ≠ second.synchronizerId →
      [activeContractIdentity first, activeContractIdentity second].Sublist
        fragment.activeContractIdentities := by
    intro first hfirst second hsecond hcontract htie hne
    obtain ⟨response, hresponse, hresponseEntry⟩ := List.mem_filterMap.mp hfirst
    obtain ⟨front, back, rfl⟩ := List.append_of_mem hresponse
    obtain ⟨run⟩ := h.run hmapped List.perm_middle
    apply run.tied_order hresponseEntry _ hcontract htie
    obtain ⟨other, hother, hotherEntry⟩ := List.mem_filterMap.mp hsecond
    apply List.mem_filterMap.mpr
    refine ⟨other, ?_, hotherEntry⟩
    rcases List.mem_cons.mp (List.perm_middle.mem_iff.mp hother) with rfl | hother
    · rw [hresponseEntry] at hotherEntry
      exact absurd (congrArg ActiveContractEntry.synchronizerId (Option.some.inj hotherEntry)) hne
    · exact hother
  have hswap : locale.localeCompare b.synchronizerId a.synchronizerId = .eq := by
    have hswap : locale.localeCompare b.synchronizerId a.synchronizerId
        = (locale.localeCompare a.synchronizerId b.synchronizerId).swap := Std.OrientedCmp.eq_swap
    rw [hswap, htie]
    rfl
  obtain ⟨run⟩ := h.run hmapped (.refl _)
  exact not_both_orders run.activations_nodup (hfirst a ha b hb hcontract htie hne)
    (hfirst b hb a ha hcontract.symm hswap (Ne.symm hne))

end Shows

/-- The order of the input never decides whether it is accepted. It is invisible in the fragment exactly
when the activations of a type agree on its package name and no two of a contract are tied. -/
theorem order_invisible_iff (source : List Transaction)
    (activeContracts : List GetActiveContractsResponse) :
    (∀ other others, Reordered source other → activeContracts.Perm others →
      (mapGrpcQueryRelationFragment locale other others).toOption.isSome
        = (mapGrpcQueryRelationFragment locale source activeContracts).toOption.isSome) ∧
    ∀ fragment, mapGrpcQueryRelationFragment locale source activeContracts = .ok fragment →
      (OrderInvisible locale source activeContracts ↔
        PackageNamesAgree activeContracts ∧ NoSynchronizerTies locale activeContracts) := by
  have haccepted : ∀ {source other activeContracts others}, Reordered source other →
      activeContracts.Perm others →
      (mapGrpcQueryRelationFragment locale source activeContracts).toOption.isSome = true →
      (mapGrpcQueryRelationFragment locale other others).toOption.isSome = true := by
    intro source other activeContracts others hsource hperm h
    obtain ⟨fragment, hfragment⟩ := Option.isSome_iff_exists.mp h
    obtain ⟨run⟩ := mapGrpcQueryRelationFragment_ok.mp (toOption_eq_some_iff.mp hfragment)
    obtain ⟨reordered, run', _⟩ := run.reorder hsource hperm
    exact Option.isSome_iff_exists.mpr ⟨reordered, toOption_eq_some_iff.mpr
      (mapGrpcQueryRelationFragment_ok.mpr ⟨run'⟩)⟩
  constructor
  · intro other others hsource hperm
    rw [Bool.eq_iff_iff]
    exact ⟨haccepted hsource.symm hperm.symm, haccepted hsource hperm⟩
  · intro fragment hmapped
    constructor
    · exact fun h => ⟨h.names_agree hmapped, h.no_ties hmapped⟩
    · intro h other others hsource hperm
      obtain ⟨run⟩ := mapGrpcQueryRelationFragment_ok.mp hmapped
      rw [hmapped, run.reorder_eq hsource hperm h.1 h.2]

theorem order_invisible_iff_run :
    OrderInvisible .codeUnits [] [tokenActive "3" "c1", tokenActive "4" "c2"] ↔
      PackageNamesAgree [tokenActive "3" "c1", tokenActive "4" "c2"] ∧
        NoSynchronizerTies .codeUnits [tokenActive "3" "c1", tokenActive "4" "c2"] := by
  have hsome : (mapGrpcQueryRelationFragment .codeUnits []
      [tokenActive "3" "c1", tokenActive "4" "c2"]).toOption.isSome = true := by decide +kernel
  obtain ⟨fragment, hfragment⟩ := Option.isSome_iff_exists.mp hsome
  exact (order_invisible_iff _ _).2 fragment (toOption_eq_some_iff.mp hfragment)

/-- A token whose created event names another package. -/
def renamedActive (offset contractId : String) : GetActiveContractsResponse :=
  .activeContract (some { tokenCreated offset 0 contractId with packageName := "coins" }) "global" "0"

/-- The type of the two tokens is named by whichever comes last. -/
theorem package_name_of_last :
    ¬ OrderInvisible .codeUnits [] [tokenActive "3" "c1", renamedActive "4" "c2"] := by
  intro h
  have hswapped := h [] [renamedActive "4" "c2", tokenActive "3" "c1"] (.refl []) (.swap ..)
  exact absurd hswapped (by decide +kernel)

end CantonSdk.Query.Grpc
