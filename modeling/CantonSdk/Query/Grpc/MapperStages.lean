import CantonSdk.Query.Grpc.RelationMapper

/-!
# What each stage of the relation mapper does

One statement a stage: when it succeeds, and what it then returns. Reading succeeds exactly when every
message passes its own checks and no two share an identity, which does not mention their order; the
folds are described by what they leave at each contract id.
-/

set_option linter.all false

namespace CantonSdk.Query.Grpc

open CantonSdk.Base CantonSdk.Query.Canonical

variable {locale : Collation}

/-! ### Text -/

theorem plain_of_isLedgerChar {c : Char} (h : isLedgerChar c = true) :
    32 ≤ c.toNat ∧ c.toNat < 127 := by
  simp only [isLedgerChar, isPartyChar, Bool.or_eq_true, decide_eq_true_eq] at h
  rcases h with ((((((h | rfl) | rfl) | rfl) | rfl) | rfl) | rfl)
  · exact plain_of_isAlphanum h
  all_goals decide

theorem validLedgerString_ok {value name result : String}
    (h : validLedgerString value name = .ok result) : result = value ∧ isPlain value = true := by
  rw [validLedgerString] at h
  split at h
  · rename_i hclass
    exact ⟨(Except.ok.inj h).symm, isPlain_of_inClass (fun _ => plain_of_isLedgerChar) hclass⟩
  · cases h

theorem validOffset_ok {value name result : String} (h : validOffset value name = .ok result) :
    result = value ∧ isCanonicalDecimal value = true := by
  rw [validOffset] at h
  split at h
  · cases h
  · rename_i hcanonical
    split at h
    · cases h
    · simp only [not_or, not_not] at hcanonical
      exact ⟨(Except.ok.inj h).symm, hcanonical.1⟩

theorem uint64_ok {value name result : String} (h : uint64 value name = .ok result) :
    result = value := by
  rw [uint64] at h
  split at h
  · cases h
  · split at h
    · cases h
    · exact (Except.ok.inj h).symm

theorem requiredTemplate_ok {template : Option Identifier} {name : String} {result : Identifier}
    (h : requiredTemplate template name = .ok result) : template = some result := by
  cases template with
  | none => cases h
  | some template =>
      simp only [requiredTemplate] at h
      obtain ⟨_, _, h⟩ := bind_eq_ok.mp h
      obtain ⟨_, _, h⟩ := bind_eq_ok.mp h
      obtain ⟨_, _, h⟩ := bind_eq_ok.mp h
      exact congrArg some (Except.ok.inj h)

/-- Which parties there are decides the result, not their order. -/
theorem immutableStrings_perm {values other : List String} (hperm : values.Perm other) (name : String)
    (required : Bool) {result : List String} (h : immutableStrings values name required = .ok result) :
    immutableStrings other name required = .ok result := by
  rw [immutableStrings] at h ⊢
  split at h
  · cases h
  · rename_i hpresent
    have hnil : other = [] ↔ values = [] := by
      rw [← List.length_eq_zero_iff, ← List.length_eq_zero_iff, hperm.length_eq]
    rw [if_neg (by rwa [hnil])]
    obtain ⟨parties, hparties, hresult⟩ := bind_eq_ok.mp h
    obtain ⟨reordered, hreordered, hsame⟩ := mapM_perm hperm hparties
    rw [← Except.ok.inj hresult, bind_eq_ok]
    refine ⟨reordered, hreordered, ?_⟩
    congr 1
    exact (sortBy_eq_of_perm (fun a _ b _ => eq_of_compareText) hsame.dedup).symm

/-! ### Reading -/

/-- The created or exercised event, if it is one. -/
def toLedgerEvent : Event → Option LedgerEvent
  | .created event => some (.created event)
  | .exercised event => some (.exercised event)
  | .archived _ => none
  | .unset => none

/-- The events of a list of transactions, in the order in which they are listed. -/
def historyEvents (source : List Transaction) : List PendingEvent :=
  source.flatMap fun transaction => (transaction.events.filterMap toLedgerEvent).map fun event =>
    ⟨transaction.toTransactionHeader, event⟩

theorem pendingEvent_ok {transaction : TransactionHeader} {event : Event} {item : PendingEvent} :
    pendingEvent locale transaction event = .ok item ↔
      ∃ ledgerEvent, toLedgerEvent event = some ledgerEvent ∧
        validatePending locale transaction ledgerEvent = .ok () ∧ item = ⟨transaction, ledgerEvent⟩ := by
  have hpend : ∀ ledgerEvent : LedgerEvent,
      (do
        validatePending locale transaction ledgerEvent
        return ({ transaction, event := ledgerEvent } : PendingEvent) : Checked PendingEvent) = .ok item ↔
      validatePending locale transaction ledgerEvent = .ok () ∧ item = ⟨transaction, ledgerEvent⟩ := by
    intro ledgerEvent
    rw [bind_eq_ok]
    constructor
    · intro h
      obtain ⟨_, hvalid, hitem⟩ := h
      exact ⟨hvalid, (Except.ok.inj hitem).symm⟩
    · intro h
      exact ⟨(), h.1, congrArg Except.ok h.2.symm⟩
  cases event with
  | created event => simpa [pendingEvent, toLedgerEvent] using hpend (.created event)
  | exercised event => simpa [pendingEvent, toLedgerEvent] using hpend (.exercised event)
  | archived | unset => simp [pendingEvent, toLedgerEvent]

/-- Every event of a transaction is a ledger event that passes its checks. -/
def EventsValid (locale : Collation) (transaction : Transaction) : Prop :=
  ∀ event ∈ transaction.events, ∃ ledgerEvent, toLedgerEvent event = some ledgerEvent ∧
    validatePending locale transaction.toTransactionHeader ledgerEvent = .ok ()

theorem pendingEvents_ok {transaction : TransactionHeader} {events : List Event}
    {items : List PendingEvent} :
    events.mapM (pendingEvent locale transaction) = .ok items ↔
      (∀ event ∈ events, ∃ ledgerEvent, toLedgerEvent event = some ledgerEvent ∧
        validatePending locale transaction ledgerEvent = .ok ()) ∧
      items = (events.filterMap toLedgerEvent).map fun event => ⟨transaction, event⟩ := by
  induction events generalizing items with
  | nil =>
      rw [mapM_eq_ok, List.forall₂_nil_left_iff]
      simp
  | cons event rest ih =>
      rw [List.mapM_cons, bind_eq_ok, List.forall_mem_cons]
      constructor
      · intro h
        obtain ⟨item, hitem, h⟩ := h
        obtain ⟨others, hothers, h⟩ := bind_eq_ok.mp h
        obtain ⟨ledgerEvent, hledger, hvalid, rfl⟩ := pendingEvent_ok.mp hitem
        obtain ⟨hrest, rfl⟩ := ih.mp hothers
        refine ⟨⟨⟨ledgerEvent, hledger, hvalid⟩, hrest⟩, ?_⟩
        rw [List.filterMap_cons_some hledger, List.map_cons]
        exact (Except.ok.inj h).symm
      · intro h
        obtain ⟨⟨⟨ledgerEvent, hledger, hvalid⟩, hrest⟩, rfl⟩ := h
        refine ⟨_, pendingEvent_ok.mpr ⟨ledgerEvent, hledger, hvalid, rfl⟩, ?_⟩
        rw [bind_eq_ok]
        refine ⟨_, ih.mpr ⟨hrest, rfl⟩, ?_⟩
        rw [List.filterMap_cons_some hledger, List.map_cons]
        rfl

/-- A transaction passes its own checks. -/
structure TransactionValid (locale : Collation) (transaction : Transaction) : Prop where
  offset_valid : ∃ offset, validOffset transaction.offset "transaction offset" = .ok offset
  fields_valid : validateTransaction transaction = .ok ()
  events_valid : EventsValid locale transaction

theorem readTransactions_ok {seenOffsets : List String} {transactions : List Transaction}
    {items : List PendingEvent} :
    readTransactions locale seenOffsets transactions = .ok items ↔
      (∀ transaction ∈ transactions, TransactionValid locale transaction) ∧
      (transactions.map fun transaction => transaction.offset).Nodup ∧
      (∀ transaction ∈ transactions, transaction.offset ∉ seenOffsets) ∧
      items = historyEvents transactions := by
  induction transactions generalizing seenOffsets items with
  | nil => simp [readTransactions, historyEvents, eq_comm]
  | cons transaction rest ih =>
      rw [readTransactions, bind_eq_ok]
      constructor
      · intro h
        obtain ⟨offset, hoffset, h⟩ := h
        obtain ⟨_, hfields, h⟩ := bind_eq_ok.mp h
        obtain ⟨_, hfresh, h⟩ := bind_eq_ok.mp h
        obtain ⟨events, hevents, h⟩ := bind_eq_ok.mp h
        obtain ⟨others, hothers, h⟩ := bind_eq_ok.mp h
        obtain ⟨heventsValid, rfl⟩ := pendingEvents_ok.mp hevents
        obtain ⟨hvalid, hnodup, hunseen, rfl⟩ := ih.mp hothers
        simp only [guardThat_eq_ok, decide_eq_true_eq] at hfresh
        refine ⟨?_, ?_, ?_, (Except.ok.inj h).symm⟩
        · rw [List.forall_mem_cons]
          exact ⟨⟨⟨offset, hoffset⟩, hfields, heventsValid⟩, hvalid⟩
        · rw [List.map_cons, List.nodup_cons]
          refine ⟨?_, hnodup⟩
          intro hmem
          obtain ⟨other, hother, hsame⟩ := List.mem_map.mp hmem
          exact hunseen other hother (hsame ▸ List.mem_cons_self)
        · rw [List.forall_mem_cons]
          exact ⟨hfresh, fun other hother hseen =>
            hunseen other hother (List.mem_cons_of_mem _ hseen)⟩
      · intro h
        obtain ⟨hvalid, hnodup, hunseen, rfl⟩ := h
        rw [List.forall_mem_cons] at hvalid hunseen
        obtain ⟨⟨⟨offset, hoffset⟩, hfields, heventsValid⟩, hrestValid⟩ := hvalid
        rw [List.map_cons, List.nodup_cons] at hnodup
        refine ⟨offset, hoffset, bind_eq_ok.mpr ⟨(), hfields, bind_eq_ok.mpr ⟨(), ?_, ?_⟩⟩⟩
        · simpa using hunseen.1
        · refine bind_eq_ok.mpr ⟨_, pendingEvents_ok.mpr ⟨heventsValid, rfl⟩, ?_⟩
          refine bind_eq_ok.mpr ⟨_, ih.mpr ⟨hrestValid, hnodup.2, ?_, rfl⟩, rfl⟩
          intro other hother hseen
          rcases List.mem_cons.mp hseen with hsame | hseen
          · exact hnodup.1 (List.mem_map.mpr ⟨other, hother, hsame⟩)
          · exact hunseen.2 other hother hseen

/-- What an accepted response stands for. -/
def toActiveEntry : GetActiveContractsResponse → Option ActiveContractEntry
  | .activeContract (some event) synchronizerId reassignmentCounter =>
      some { event, synchronizerId, reassignmentCounter }
  | _ => none

theorem activeContractEntry_ok {response : GetActiveContractsResponse} {entry : ActiveContractEntry}
    (h : activeContractEntry locale response = .ok entry) :
    toActiveEntry response = some entry ∧
      ∃ creation, creationDescriptor locale entry.event entry.event.offset = .ok creation := by
  unfold activeContractEntry at h
  split at h
  · rename_i event synchronizerId reassignmentCounter
    obtain ⟨_, _, h⟩ := bind_eq_ok.mp h
    obtain ⟨creation, hcreation, h⟩ := bind_eq_ok.mp h
    obtain ⟨counter, hcounter, h⟩ := bind_eq_ok.mp h
    rw [uint64_ok hcounter] at h
    obtain rfl := Except.ok.inj h
    exact ⟨rfl, creation, hcreation⟩
  · cases h

theorem activeContractEntries_ok {responses : List GetActiveContractsResponse}
    {entries : List ActiveContractEntry} :
    activeContractEntries locale responses = .ok entries ↔
      responses.mapM (activeContractEntry locale) = .ok entries ∧
      (entries.map activationKey).Nodup := by
  rw [activeContractEntries, bind_eq_ok]
  constructor
  · intro h
    obtain ⟨mapped, hmapped, h⟩ := h
    obtain ⟨_, hdistinct, h⟩ := bind_eq_ok.mp h
    obtain rfl := Except.ok.inj h
    exact ⟨hmapped, (checkDistinct_eq_ok.mp hdistinct).1⟩
  · intro h
    refine ⟨entries, h.1, bind_eq_ok.mpr ⟨(), checkDistinct_eq_ok.mpr ⟨h.2, ?_⟩, rfl⟩⟩
    exact fun _ _ => List.not_mem_nil

/-- What has been checked about an input that the mapper has read. -/
structure InputValid (locale : Collation) (source : List Transaction)
    (activeContracts : List GetActiveContractsResponse) (input : MapperInput) : Prop where
  transactions_valid : ∀ transaction ∈ source, TransactionValid locale transaction
  offsets_nodup : (source.map fun transaction => transaction.offset).Nodup
  identities_nodup : ((historyEvents source).map fun item => eventIdentity item.event).Nodup
  entries_mapped : activeContracts.mapM (activeContractEntry locale) = .ok input.activeEntries
  activations_nodup : (input.activeEntries.map activationKey).Nodup
  keys_encode : keyRegistry ((historyEvents source).map PendingEvent.event
    ++ input.activeEntries.map fun entry => LedgerEvent.created entry.event) = .ok ()

theorem historyEvents_perm {source other : List Transaction} (h : source.Perm other) :
    (historyEvents source).Perm (historyEvents other) :=
  h.flatMap_right _

theorem keyRegistry_perm {events other : List LedgerEvent} (hperm : events.Perm other)
    (h : keyRegistry events = .ok ()) : keyRegistry other = .ok () := by
  rw [keyRegistry, checkAll_eq_ok] at h ⊢
  exact fun event hevent => h event (hperm.mem_iff.mpr hevent)

/-- Reading succeeds exactly on valid input, and what it returns is in the order of the history. -/
theorem readInput_ok {source : List Transaction} {activeContracts : List GetActiveContractsResponse}
    {input : MapperInput} :
    readInput locale source activeContracts = .ok input ↔
      InputValid locale source activeContracts input ∧
      input.transactions = sortBy (compareKey compareOffset fun transaction => transaction.offset) source ∧
      input.pending = sortBy comparePending (historyEvents input.transactions) := by
  have hsorted := perm_sortBy (compareKey compareOffset fun transaction : Transaction =>
    transaction.offset) source
  rw [readInput, bind_eq_ok]
  constructor
  · intro h
    obtain ⟨_, _, h⟩ := h
    obtain ⟨entries, hentries, h⟩ := bind_eq_ok.mp h
    obtain ⟨pending, hpending, h⟩ := bind_eq_ok.mp h
    obtain ⟨_, hdistinct, h⟩ := bind_eq_ok.mp h
    obtain ⟨_, hregistry, h⟩ := bind_eq_ok.mp h
    obtain rfl := Except.ok.inj h
    obtain ⟨hvalid, hnodup, _, rfl⟩ := readTransactions_ok.mp hpending
    obtain ⟨hmapped, hactivations⟩ := activeContractEntries_ok.mp hentries
    have hevents := historyEvents_perm hsorted
    refine ⟨?_, rfl, rfl⟩
    exact {
      transactions_valid := fun transaction hmem => hvalid transaction (hsorted.mem_iff.mpr hmem)
      offsets_nodup := (hsorted.map _).nodup_iff.mp hnodup
      identities_nodup := (hevents.map _).nodup_iff.mp (checkDistinct_eq_ok.mp hdistinct).1
      entries_mapped := hmapped
      activations_nodup := hactivations
      keys_encode := keyRegistry_perm ((hevents.map _).append_right _) hregistry }
  · intro h
    obtain ⟨hvalid, htransactions, hpending⟩ := h
    rw [htransactions] at hpending
    have hevents := historyEvents_perm hsorted
    refine ⟨(), checkAll_eq_ok.mpr ?_, bind_eq_ok.mpr ⟨input.activeEntries, ?_, ?_⟩⟩
    · intro transaction hmem
      obtain ⟨offset, hoffset⟩ := (hvalid.transactions_valid transaction hmem).offset_valid
      exact bind_eq_ok.mpr ⟨offset, hoffset, rfl⟩
    · exact activeContractEntries_ok.mpr ⟨hvalid.entries_mapped, hvalid.activations_nodup⟩
    · refine bind_eq_ok.mpr ⟨_, readTransactions_ok.mpr ⟨?_, ?_, ?_, rfl⟩, ?_⟩
      · exact fun transaction hmem =>
          hvalid.transactions_valid transaction (hsorted.mem_iff.mp hmem)
      · exact (hsorted.map _).nodup_iff.mpr hvalid.offsets_nodup
      · exact fun _ _ => List.not_mem_nil
      · refine bind_eq_ok.mpr ⟨(), checkDistinct_eq_ok.mpr ⟨?_, ?_⟩, ?_⟩
        · exact (hevents.map _).nodup_iff.mpr hvalid.identities_nodup
        · exact fun _ _ => List.not_mem_nil
        · refine bind_eq_ok.mpr ⟨(), ?_, ?_⟩
          · exact keyRegistry_perm ((hevents.symm.map _).append_right _) hvalid.keys_encode
          · rw [← htransactions] at hpending ⊢
            rw [← hpending]
            rfl

/-! ### The order of the history -/

theorem creationDescriptor_ok {event : CreatedEvent} {offset : String}
    {creation : GrpcQueryCreationIdentity}
    (h : creationDescriptor locale event offset = .ok creation) :
    creation.contractId = event.contractId ∧ creation.offset = offset ∧
      creation.packageName = event.packageName ∧ event.templateId = some creation.templateId ∧
      isPlain event.contractId = true ∧ isCanonicalDecimal offset = true := by
  unfold creationDescriptor at h
  obtain ⟨_, hoffset, h⟩ := bind_eq_ok.mp h
  obtain ⟨_, _, h⟩ := bind_eq_ok.mp h
  obtain ⟨_, hcontractId, h⟩ := bind_eq_ok.mp h
  obtain ⟨_, _, h⟩ := bind_eq_ok.mp h
  obtain ⟨_, _, h⟩ := bind_eq_ok.mp h
  obtain ⟨template, htemplate, h⟩ := bind_eq_ok.mp h
  cases harguments : event.createArguments with
  | none =>
      rw [harguments] at h
      cases h
  | some createArguments =>
      simp only [harguments] at h
      obtain ⟨_, _, h⟩ := bind_eq_ok.mp h
      obtain ⟨_, _, h⟩ := bind_eq_ok.mp h
      obtain ⟨_, _, h⟩ := bind_eq_ok.mp h
      obtain ⟨_, _, h⟩ := bind_eq_ok.mp h
      obtain ⟨_, _, h⟩ := bind_eq_ok.mp h
      obtain rfl := Except.ok.inj h
      exact ⟨rfl, rfl, rfl, requiredTemplate_ok htemplate, (validLedgerString_ok hcontractId).2,
        (validOffset_ok hoffset).2⟩

theorem validatePending_ok {transaction : TransactionHeader} {event : LedgerEvent}
    (h : validatePending locale transaction event = .ok ()) :
    event.offset = transaction.offset ∧ isCanonicalDecimal event.offset = true := by
  unfold validatePending at h
  obtain ⟨_, hoffset, h⟩ := bind_eq_ok.mp h
  obtain ⟨_, _, h⟩ := bind_eq_ok.mp h
  obtain ⟨_, hsame, _⟩ := bind_eq_ok.mp h
  rw [guardThat_eq_ok, decide_eq_true_iff] at hsame
  exact ⟨hsame, (validOffset_ok hoffset).2⟩

theorem mem_historyEvents {source : List Transaction} {item : PendingEvent} :
    item ∈ historyEvents source ↔ ∃ transaction ∈ source, ∃ event ∈ transaction.events,
      toLedgerEvent event = some item.event ∧ item.transaction = transaction.toTransactionHeader := by
  simp only [historyEvents, List.mem_flatMap, List.mem_map, List.mem_filterMap]
  constructor
  · intro h
    obtain ⟨transaction, htransaction, ledgerEvent, ⟨event, hevent, hledger⟩, rfl⟩ := h
    exact ⟨transaction, htransaction, event, hevent, hledger, rfl⟩
  · intro h
    obtain ⟨transaction, htransaction, event, hevent, hledger, hheader⟩ := h
    refine ⟨transaction, htransaction, item.event, ⟨event, hevent, hledger⟩, ?_⟩
    rw [← hheader]

section Valid

variable {source : List Transaction} {activeContracts : List GetActiveContractsResponse}
  {input : MapperInput}

theorem InputValid.event_valid (hvalid : InputValid locale source activeContracts input)
    {item : PendingEvent} (hitem : item ∈ historyEvents source) :
    validatePending locale item.transaction item.event = .ok () := by
  obtain ⟨transaction, htransaction, event, hevent, hledger, hheader⟩ := mem_historyEvents.mp hitem
  obtain ⟨ledgerEvent, hsame, hok⟩ :=
    (hvalid.transactions_valid transaction htransaction).events_valid event hevent
  obtain rfl : ledgerEvent = item.event := Option.some.inj (hsame.symm.trans hledger)
  rw [hheader]
  exact hok

/-- No two events of a valid history stand at the same offset and node id. -/
theorem InputValid.comparePending_strict (hvalid : InputValid locale source activeContracts input) :
    ∀ a ∈ historyEvents source, ∀ b ∈ historyEvents source, comparePending a b = .eq → a = b := by
  intro a ha b hb htie
  obtain ⟨haOffset, haCanonical⟩ := validatePending_ok (hvalid.event_valid ha)
  obtain ⟨hbOffset, hbCanonical⟩ := validatePending_ok (hvalid.event_valid hb)
  obtain ⟨hoffset, hnode⟩ := compareLex_eq_eq.mp htie
  have hvalue : decimalValue a.transaction.offset = decimalValue b.transaction.offset :=
    Std.LawfulEqOrd.eq_of_compare hoffset
  have hnodeId : a.event.nodeId = b.event.nodeId := Std.LawfulEqOrd.eq_of_compare hnode
  rw [← haOffset, ← hbOffset] at hvalue
  have hsame : eventIdentity a.event = eventIdentity b.event := by
    rw [eventIdentity, eventIdentity, decimalValue_injective haCanonical hbCanonical hvalue, hnodeId]
  exact List.inj_on_of_nodup_map hvalid.identities_nodup ha hb hsame

theorem InputValid.pending_perm (hinput : readInput locale source activeContracts = .ok input) :
    input.pending.Perm (historyEvents source) := by
  obtain ⟨_, htransactions, hpending⟩ := readInput_ok.mp hinput
  rw [hpending, htransactions]
  exact (perm_sortBy ..).trans (historyEvents_perm (perm_sortBy ..))

/-- The pending events strictly increase in offset and node id. -/
theorem pending_increasing (hinput : readInput locale source activeContracts = .ok input) :
    input.pending.Pairwise fun a b => comparePending a b = .lt := by
  obtain ⟨hvalid, htransactions, hpending⟩ := readInput_ok.mp hinput
  have hperm : (historyEvents input.transactions).Perm (historyEvents source) := by
    rw [htransactions]
    exact historyEvents_perm (perm_sortBy ..)
  rw [hpending]
  apply sortBy_increasing
  · exact hperm.nodup_iff.mpr hvalid.identities_nodup.of_map
  · intro a ha b hb
    exact hvalid.comparePending_strict a (hperm.mem_iff.mp ha) b (hperm.mem_iff.mp hb)

end Valid

/-! ### The fold over the history -/

/-- One event either creates a contract that is not there, or adds an exercise and perhaps archives
the contract it is on. -/
theorem applyPending_cases {s t : MapperState} {item : PendingEvent}
    (h : applyPending locale s item = .ok t) :
    (∃ event creation, item.event = .created event ∧
      creationDescriptor locale event item.transaction.offset = .ok creation ∧
      s.contracts.get event.contractId = none ∧
      t = { s with
        contracts := s.contracts.set event.contractId (createdRow creation)
        creations := s.creations.set event.contractId creation }) ∨
    ∃ event row, item.event = .exercised event ∧
      (∀ target ∈ s.contracts.get event.contractId, target.active = true) ∧
      mapExercise locale item.transaction event (s.contracts.get event.contractId) = .ok row ∧
      ((s.contracts.get event.contractId = none ∨ event.consuming = false) ∧
          t = { s with exerciseRows := s.exerciseRows ++ [row] } ∨
        ∃ target archivedAt, s.contracts.get event.contractId = some target ∧
          event.consuming = true ∧
          requiredTimestamp item.transaction.effectiveAt "transaction effective time" = .ok archivedAt ∧
          t = { s with
            exerciseRows := s.exerciseRows ++ [row]
            contracts := s.contracts.set target.contractId
              (archivedRow target item.transaction.offset archivedAt) }) := by
  unfold applyPending at h
  cases hevent : item.event with
  | created event =>
      simp only [hevent, addCreatedContract] at h
      obtain ⟨creation, hcreation, h⟩ := bind_eq_ok.mp h
      obtain ⟨_, hfresh, h⟩ := bind_eq_ok.mp h
      obtain rfl := Except.ok.inj h
      refine Or.inl ⟨event, creation, rfl, hcreation, ?_, rfl⟩
      rw [KeyedMap.get_eq_none]
      simpa [KeyedMap.has] using hfresh
  | exercised event =>
      simp only [hevent] at h
      obtain ⟨_, hactive, h⟩ := bind_eq_ok.mp h
      obtain ⟨row, hrow, h⟩ := bind_eq_ok.mp h
      rw [guardThat_eq_ok, Option.all_eq_true] at hactive
      refine Or.inr ⟨event, row, rfl, fun target htarget => hactive target htarget, hrow, ?_⟩
      cases htarget : s.contracts.get event.contractId with
      | none =>
          simp only [htarget] at h
          exact Or.inl ⟨Or.inl rfl, (Except.ok.inj h).symm⟩
      | some target =>
          simp only [htarget] at h
          cases hconsuming : event.consuming with
          | false =>
              rw [hconsuming, if_neg (by decide)] at h
              exact Or.inl ⟨Or.inr rfl, (Except.ok.inj h).symm⟩
          | true =>
              rw [hconsuming, if_pos rfl] at h
              obtain ⟨archivedAt, harchived, h⟩ := bind_eq_ok.mp h
              exact Or.inr ⟨target, archivedAt, rfl, rfl, harchived, (Except.ok.inj h).symm⟩

/-- Contracts and creations stand under their own contract ids, and under the same ones. -/
structure MapperState.Keyed (s : MapperState) : Prop where
  contract_key : ∀ {id row}, s.contracts.get id = some row → row.contractId = id ∧ isPlain id = true
  creation_key : ∀ {id creation}, s.creations.get id = some creation → creation.contractId = id
  same_keys : ∀ id, (∃ row, s.contracts.get id = some row) ↔ ∃ creation, s.creations.get id = some creation

theorem MapperState.Keyed.empty : MapperState.empty.Keyed where
  contract_key h := by cases h
  creation_key h := by cases h
  same_keys id := by simp [MapperState.empty]

/-- Setting a contract and its creation under their id. -/
theorem MapperState.Keyed.setBoth {s : MapperState} (hs : s.Keyed) {id : String} {row : ContractRow}
    {creation : GrpcQueryCreationIdentity} (hrow : row.contractId = id)
    (hcreation : creation.contractId = id) (hplain : isPlain id = true) (rows : List ExerciseRow) :
    ({ contracts := s.contracts.set id row, creations := s.creations.set id creation
       exerciseRows := rows } : MapperState).Keyed where
  contract_key := by
    intro other found hfound
    rw [KeyedMap.get_set] at hfound
    split at hfound
    · rename_i hkey
      obtain rfl := Option.some.inj hfound
      rw [hkey]
      exact ⟨hrow, hplain⟩
    · exact hs.contract_key hfound
  creation_key := by
    intro other found hfound
    rw [KeyedMap.get_set] at hfound
    split at hfound
    · rename_i hkey
      obtain rfl := Option.some.inj hfound
      rw [hkey, hcreation]
    · exact hs.creation_key hfound
  same_keys := by
    intro other
    simp only [KeyedMap.get_set]
    split
    · simp
    · exact hs.same_keys other

/-- Replacing the row of a contract that is there. -/
theorem MapperState.Keyed.setRow {s : MapperState} (hs : s.Keyed) {id : String}
    {before after : ContractRow} (hbefore : s.contracts.get id = some before)
    (hafter : after.contractId = id) (rows : List ExerciseRow) :
    ({ s with contracts := s.contracts.set id after, exerciseRows := rows } : MapperState).Keyed where
  contract_key := by
    intro other found hfound
    rw [KeyedMap.get_set] at hfound
    split at hfound
    · rename_i hkey
      obtain rfl := Option.some.inj hfound
      rw [hkey]
      exact ⟨hafter, (hs.contract_key hbefore).2⟩
    · exact hs.contract_key hfound
  creation_key := hs.creation_key
  same_keys := by
    intro other
    rw [KeyedMap.get_set]
    split
    · rename_i hkey
      rw [← hs.same_keys other, hkey]
      simp [hbefore]
    · exact hs.same_keys other

theorem applyPending_keyed {s t : MapperState} {item : PendingEvent} (hs : s.Keyed)
    (h : applyPending locale s item = .ok t) : t.Keyed := by
  rcases applyPending_cases h with ⟨event, creation, _, hcreation, _, rfl⟩ |
    ⟨event, row, _, _, _, ⟨_, rfl⟩ | ⟨target, archivedAt, htarget, _, _, rfl⟩⟩
  · obtain ⟨hid, _, _, _, hplain, _⟩ := creationDescriptor_ok hcreation
    exact hs.setBoth (createdRow_contractId.trans hid) hid hplain s.exerciseRows
  · exact ⟨hs.contract_key, hs.creation_key, hs.same_keys⟩
  · have hid := (hs.contract_key htarget).1
    have hafter : (archivedRow target item.transaction.offset archivedAt).contractId
        = event.contractId := hid
    rw [hid]
    exact hs.setRow htarget hafter _

theorem history_keyed {items : List PendingEvent} {s t : MapperState} (hs : s.Keyed)
    (h : items.foldlM (applyPending locale) s = .ok t) : t.Keyed := by
  induction items generalizing s with
  | nil =>
      obtain rfl := Except.ok.inj h
      exact hs
  | cons item rest ih =>
      rw [List.foldlM_cons] at h
      obtain ⟨middle, hmiddle, hrest⟩ := bind_eq_ok.mp h
      exact ih (applyPending_keyed hs hmiddle) hrest

/-! ### The whole mapper -/

/-- The events that name types and packages: the history, then the active contracts. -/
def MapperInput.events (input : MapperInput) : List LedgerEvent :=
  input.pending.map PendingEvent.event
    ++ input.activeEntries.map fun entry => LedgerEvent.created entry.event

/-- A run of the mapper that ends in this fragment, with what each of its stages returned. -/
structure MapperRun (locale : Collation) (source : List Transaction)
    (activeContracts : List GetActiveContractsResponse) (fragment : GrpcQueryRelationFragment) where
  input : MapperInput
  history : MapperState
  reconciled : MapperState
  typeRows : List (List GrpcQueryTypeIdentity)
  packageIds : List (List String)
  input_read : readInput locale source activeContracts = .ok input
  transactions_mapped : (input.transactions.mapM fun transaction =>
    mapTransaction transaction.toTransactionHeader) = .ok fragment.transactions
  events_mapped : input.pending.mapM mapEvent = .ok fragment.events
  history_folded : input.pending.foldlM (applyPending locale) .empty = .ok history
  active_reconciled : reconcileActiveContracts locale history input.activeEntries = .ok reconciled
  types_mapped : input.events.mapM typeIdentityRows = .ok typeRows
  packages_mapped : input.events.mapM packageIdsFor = .ok packageIds
  packages_sorted : sortedPackageIdentities packageIds.flatten = .ok fragment.packageIdentities
  contracts_eq : fragment.contracts
    = sortBy (compareKey locale.localeCompare ContractRow.contractId) reconciled.contracts.values
  exercises_eq : fragment.exercises = sortBy (compareExercise locale) reconciled.exerciseRows
  types_eq : fragment.typeIdentities = sortedTypeIdentities locale typeRows.flatten
  creations_eq : fragment.creationIdentities
    = sortBy (compareKey locale.localeCompare GrpcQueryCreationIdentity.contractId)
      reconciled.creations.values
  activations_eq : fragment.activeContractIdentities
    = sortBy (compareActiveIdentity locale) (input.activeEntries.map activeContractIdentity)

theorem mapGrpcQueryRelationFragment_ok {source : List Transaction}
    {activeContracts : List GetActiveContractsResponse} {fragment : GrpcQueryRelationFragment} :
    mapGrpcQueryRelationFragment locale source activeContracts = .ok fragment ↔
      Nonempty (MapperRun locale source activeContracts fragment) := by
  rw [mapGrpcQueryRelationFragment, bind_eq_ok]
  constructor
  · intro h
    obtain ⟨input, hinput, h⟩ := h
    obtain ⟨transactions, htransactions, h⟩ := bind_eq_ok.mp h
    obtain ⟨eventRows, hevents, h⟩ := bind_eq_ok.mp h
    obtain ⟨history, hhistory, h⟩ := bind_eq_ok.mp h
    obtain ⟨reconciled, hreconciled, h⟩ := bind_eq_ok.mp h
    obtain ⟨typeRows, htypes, h⟩ := bind_eq_ok.mp h
    obtain ⟨packageIds, hpackages, h⟩ := bind_eq_ok.mp h
    obtain ⟨packageIdentities, hidentities, h⟩ := bind_eq_ok.mp h
    obtain rfl := Except.ok.inj h
    exact ⟨⟨input, history, reconciled, typeRows, packageIds, hinput, htransactions, hevents, hhistory,
      hreconciled, htypes, hpackages, hidentities, rfl, rfl, rfl, rfl, rfl⟩⟩
  · intro h
    obtain ⟨run⟩ := h
    refine ⟨run.input, run.input_read, bind_eq_ok.mpr ⟨_, run.transactions_mapped, ?_⟩⟩
    refine bind_eq_ok.mpr ⟨_, run.events_mapped, bind_eq_ok.mpr ⟨_, run.history_folded, ?_⟩⟩
    refine bind_eq_ok.mpr ⟨_, run.active_reconciled, bind_eq_ok.mpr ⟨_, run.types_mapped, ?_⟩⟩
    refine bind_eq_ok.mpr ⟨_, run.packages_mapped, bind_eq_ok.mpr ⟨_, run.packages_sorted, ?_⟩⟩
    rw [← run.contracts_eq, ← run.exercises_eq, ← run.types_eq, ← run.creations_eq,
      ← run.activations_eq]
    rfl

theorem MapperRun.keyed {source : List Transaction}
    {activeContracts : List GetActiveContractsResponse} {fragment : GrpcQueryRelationFragment}
    (run : MapperRun locale source activeContracts fragment) : run.history.Keyed :=
  history_keyed .empty run.history_folded

/-- The rows of a keyed map of contracts, by their ids. -/
theorem MapperState.Keyed.contracts_map {s : MapperState} (hs : s.Keyed) :
    s.contracts.values.map ContractRow.contractId = s.contracts.keys := by
  rw [KeyedMap.values, KeyedMap.keys, List.map_map]
  apply List.map_congr_left
  intro entry hentry
  exact (hs.contract_key (KeyedMap.get_eq_some.mpr hentry)).1

theorem MapperState.Keyed.creations_map {s : MapperState} (hs : s.Keyed) :
    s.creations.values.map GrpcQueryCreationIdentity.contractId = s.creations.keys := by
  rw [KeyedMap.values, KeyedMap.keys, List.map_map]
  apply List.map_congr_left
  intro entry hentry
  exact hs.creation_key (KeyedMap.get_eq_some.mpr hentry)

end CantonSdk.Query.Grpc
