import CantonSdk.Transports.TopologyCodec

/-!
# Which topology responses come back

A response that is written and read again is the same, and the timestamps that are written are valid, if and only if no
timestamp of the message lies before 1970 within a second, and no store is a synchronizer that the message does not name.
-/

set_option linter.all false

namespace CantonSdk.Transports

/-! ## Timestamps -/

/-- What the format allows: the years 1 to 9999, and a fraction of a second that is counted forwards. -/
def Timestamp.Valid (timestamp : Timestamp) : Prop :=
  -62135596800 ≤ timestamp.seconds ∧ timestamp.seconds ≤ 253402300799
    ∧ 0 ≤ timestamp.nanos ∧ timestamp.nanos < 1000000000

instance (timestamp : Timestamp) : Decidable timestamp.Valid := by
  unfold Timestamp.Valid
  infer_instance

def NanosInRange (timestamp : Timestamp) : Prop := 0 ≤ timestamp.nanos ∧ timestamp.nanos < 1000000000

/-- The instant is no earlier than 1970, or within a millisecond of a full second. -/
def Timestamp.ComesBack (timestamp : Timestamp) : Prop := 0 ≤ timestamp.seconds ∨ timestamp.nanos < 1000000

instance (timestamp : Timestamp) : Decidable timestamp.ComesBack := by
  unfold Timestamp.ComesBack
  infer_instance

theorem tmod_thousand {milliseconds : Int} (h : milliseconds < 0) :
    milliseconds.tmod 1000 = milliseconds % 1000 - if milliseconds % 1000 = 0 then 0 else 1000 := by
  rw [Int.tmod_eq_emod]
  have hdvd : (1000 ∣ milliseconds) ↔ milliseconds % 1000 = 0 := Int.dvd_iff_emod_eq_zero
  split_ifs <;> omega

/-- A timestamp that is written is valid, and is read as the same date, or it is earlier by a second. -/
theorem timestamp_written {timestamp : Timestamp} (hvalid : timestamp.Valid) :
    ∃ written, mapGrpcTimestamp (mapSdkTimestamp (some timestamp)) = some written
      ∧ (timestamp.ComesBack → NanosInRange written ∧ mapSdkTimestamp (some written) = mapSdkTimestamp (some timestamp))
      ∧ (¬ timestamp.ComesBack → ¬ NanosInRange written) := by
  obtain ⟨-, -, hnonneg, hlt⟩ := hvalid
  refine ⟨_, rfl, fun hback => ?_, fun hback => ?_⟩
  · have hrest : (timestamp.seconds * 1000 + timestamp.nanos / 1000000).tmod 1000
        = (timestamp.seconds * 1000 + timestamp.nanos / 1000000) % 1000 := by
      by_cases hneg : timestamp.seconds * 1000 + timestamp.nanos / 1000000 < 0
      · rw [tmod_thousand hneg, if_pos (by unfold Timestamp.ComesBack at hback; omega), Int.sub_zero]
      · exact Int.tmod_eq_emod_of_nonneg (by omega)
    simp only [NanosInRange, mapSdkTimestamp, hrest, Int.mul_ediv_cancel _ (show (1000000 : Int) ≠ 0 by decide)]
    refine ⟨by omega, congrArg some ?_⟩
    exact Int.ediv_mul_add_emod _ 1000
  · have hneg : timestamp.seconds * 1000 + timestamp.nanos / 1000000 < 0 := by
      unfold Timestamp.ComesBack at hback
      omega
    simp only [NanosInRange, tmod_thousand hneg]
    rw [if_neg (by unfold Timestamp.ComesBack at hback; omega)]
    omega

/-! ## Stores -/

/-- The store is no synchronizer, or one that the message names. -/
def GrpcStoreId.Named (store : GrpcStoreId) : Prop := store ≠ .synchronizer .unset

theorem store_round_trip_iff (store : Option GrpcStoreId) :
    mapSdkTopologyStoreId (mapGrpcTopologyStoreId (mapSdkTopologyStoreId store)) = mapSdkTopologyStoreId store
      ↔ ∀ found ∈ store, found.Named := by
  rcases store with _ | _ | _ | kind | name
  · simp [mapSdkTopologyStoreId, mapGrpcTopologyStoreId]
  · simp [mapSdkTopologyStoreId, mapGrpcTopologyStoreId, GrpcStoreId.Named]
  · simp [mapSdkTopologyStoreId, mapGrpcTopologyStoreId, GrpcStoreId.Named]
  · cases kind <;> simp [mapSdkTopologyStoreId, mapGrpcTopologyStoreId, GrpcStoreId.Named]
  · simp [mapSdkTopologyStoreId, mapGrpcTopologyStoreId, GrpcStoreId.Named]

/-! ## Contexts -/

def BaseResult.timestamps (context : BaseResult) : List Timestamp :=
  context.sequenced.toList ++ context.validFrom.toList ++ context.validUntil.toList

def BaseResult.Valid (context : BaseResult) : Prop := ∀ timestamp ∈ context.timestamps, timestamp.Valid

/-- What makes a context come back as it was. -/
structure BaseResult.ComesBack (context : BaseResult) : Prop where
  timestamps : ∀ timestamp ∈ context.timestamps, timestamp.ComesBack
  store : ∀ store ∈ context.store, store.Named

/-- What the codec should do with the context of a result. -/
structure ContextRoundTrips (payload : Option BaseResult) : Prop where
  equal : mapGrpcTopologyBaseResult (baseResultToProto (some (mapGrpcTopologyBaseResult payload)))
    = mapGrpcTopologyBaseResult payload
  nanos : ∀ context ∈ baseResultToProto (some (mapGrpcTopologyBaseResult payload)),
    ∀ timestamp ∈ context.timestamps, NanosInRange timestamp

/-- An optional timestamp is written into the valid range, and read as the same date. -/
def FieldRoundTrips (timestamp : Option Timestamp) : Prop :=
  mapSdkTimestamp (mapGrpcTimestamp (mapSdkTimestamp timestamp)) = mapSdkTimestamp timestamp
    ∧ ∀ written ∈ mapGrpcTimestamp (mapSdkTimestamp timestamp), NanosInRange written

theorem fieldRoundTrips_iff {timestamp : Option Timestamp} (hvalid : ∀ found ∈ timestamp, found.Valid) :
    FieldRoundTrips timestamp ↔ ∀ found ∈ timestamp, found.ComesBack := by
  cases timestamp with
  | none => simp [FieldRoundTrips, mapSdkTimestamp, mapGrpcTimestamp]
  | some timestamp =>
      obtain ⟨written, hwritten, hback, hnot⟩ := timestamp_written (hvalid _ rfl)
      simp only [FieldRoundTrips, hwritten, Option.mem_def, Option.some.injEq, forall_eq']
      constructor
      · intro h
        exact Decidable.byContradiction fun hno => hnot hno h.2
      · intro h
        exact (hback h).symm

theorem contextRoundTrips_some (context : BaseResult) :
    ContextRoundTrips (some context)
      ↔ (FieldRoundTrips context.sequenced ∧ FieldRoundTrips context.validFrom ∧ FieldRoundTrips context.validUntil)
        ∧ ∀ store ∈ context.store, store.Named := by
  rw [← store_round_trip_iff]
  constructor
  · rintro ⟨hequal, hnanos⟩
    simp only [mapGrpcTopologyBaseResult, baseResultToProto, Option.bind_some, Option.map_some,
      TopologyBaseResult.mk.injEq] at hequal
    simp only [baseResultToProto, mapGrpcTopologyBaseResult, Option.mem_def, Option.some.injEq, forall_eq',
      BaseResult.timestamps, List.mem_append, Option.mem_toList, Option.bind_some] at hnanos
    exact ⟨⟨⟨hequal.2.1, fun t ht => hnanos t (.inl (.inl ht))⟩, ⟨hequal.2.2.1, fun t ht => hnanos t (.inl (.inr ht))⟩,
      ⟨hequal.2.2.2.1, fun t ht => hnanos t (.inr ht)⟩⟩, hequal.1⟩
  · rintro ⟨⟨hsequenced, hfrom, huntil⟩, hstore⟩
    refine ⟨?_, ?_⟩
    · simp only [mapGrpcTopologyBaseResult, baseResultToProto, Option.bind_some, Option.map_some,
        TopologyBaseResult.mk.injEq]
      exact ⟨hstore, hsequenced.1, hfrom.1, huntil.1, changeOp_round_trip _, rfl, rfl, rfl⟩
    · simp only [baseResultToProto, mapGrpcTopologyBaseResult, Option.mem_def, Option.some.injEq, forall_eq',
        BaseResult.timestamps, List.mem_append, Option.mem_toList, Option.bind_some]
      rintro t ((ht | ht) | ht)
      · exact hsequenced.2 t ht
      · exact hfrom.2 t ht
      · exact huntil.2 t ht

theorem contextRoundTrips_iff {payload : Option BaseResult} (hvalid : ∀ context ∈ payload, context.Valid) :
    ContextRoundTrips payload ↔ ∀ context ∈ payload, context.ComesBack := by
  cases payload with
  | none => exact ⟨fun _ _ h => by simp at h, fun _ => ⟨rfl, by simp [baseResultToProto, mapGrpcTopologyBaseResult,
      BaseResult.timestamps, mapSdkTimestamp, mapGrpcTimestamp]⟩⟩
  | some context =>
      have hcontext := hvalid context rfl
      simp only [BaseResult.Valid, BaseResult.timestamps, List.mem_append, Option.mem_toList] at hcontext
      rw [contextRoundTrips_some, fieldRoundTrips_iff fun t ht => hcontext t (.inl (.inl ht)),
        fieldRoundTrips_iff fun t ht => hcontext t (.inl (.inr ht)),
        fieldRoundTrips_iff fun t ht => hcontext t (.inr ht)]
      simp only [Option.mem_def, Option.some.injEq, forall_eq']
      constructor
      · rintro ⟨⟨hsequenced, hfrom, huntil⟩, hstore⟩
        refine ⟨fun t ht => ?_, hstore⟩
        simp only [BaseResult.timestamps, List.mem_append, Option.mem_toList] at ht
        rcases ht with (ht | ht) | ht
        · exact hsequenced t ht
        · exact hfrom t ht
        · exact huntil t ht
      · rintro ⟨htimestamps, hstore⟩
        simp only [BaseResult.timestamps, List.mem_append, Option.mem_toList] at htimestamps
        exact ⟨⟨fun t ht => htimestamps t (.inl (.inl ht)), fun t ht => htimestamps t (.inl (.inr ht)),
          fun t ht => htimestamps t (.inr ht)⟩, hstore⟩

/-! ## Items -/

section Items

variable (sha256 : List UInt8 → List UInt8)

/-- The fingerprint is computed again from the same bytes and the same format. -/
theorem signingPublicKey_round_trip (value : Option GrpcSigningPublicKey) :
    mapSdkSigningPublicKey sha256 (some (signingPublicKeyToProto (mapSdkSigningPublicKey sha256 value)))
      = mapSdkSigningPublicKey sha256 value := by
  have husage : ∀ usage : List SigningKeyUsage,
      ((usage.map mapSdkSigningKeyUsage).map signingKeyUsageToProto).map mapSdkSigningKeyUsage
        = usage.map mapSdkSigningKeyUsage := by
    intro usage
    simp only [List.map_map, List.map_inj_left, Function.comp_apply]
    exact fun found _ => usage_round_trip found
  simp only [mapSdkSigningPublicKey, signingPublicKeyToProto, Option.map_some, Option.getD_some, format_round_trip,
    keySpec_round_trip, husage, TopologySigningPublicKey.mk.injEq, and_true]
  cases value <;> rfl

theorem signingKeys_round_trip (keys : List GrpcSigningPublicKey) :
    ((keys.map fun key => mapSdkSigningPublicKey sha256 (some key)).map signingPublicKeyToProto).map
        (fun key => mapSdkSigningPublicKey sha256 (some key))
      = keys.map fun key => mapSdkSigningPublicKey sha256 (some key) := by
  simp only [List.map_map, List.map_inj_left, Function.comp_apply]
  exact fun key _ => signingPublicKey_round_trip sha256 (some key)

theorem partyToParticipant_round_trip (value : Option GrpcPartyToParticipant) :
    mapSdkPartyToParticipant sha256 (some (partyToParticipantToProto (mapSdkPartyToParticipant sha256 value)))
      = mapSdkPartyToParticipant sha256 value := by
  simp only [mapSdkPartyToParticipant, partyToParticipantToProto, Option.map_some, Option.getD_some, Option.bind_some,
    PartyToParticipant.mk.injEq, true_and]
  constructor
  · simp only [List.map_map, List.map_inj_left, Function.comp_apply, hostingParticipantToProto,
      PartyToParticipantParticipant.mk.injEq, true_and]
    exact fun participant _ => ⟨permission_round_trip _, by cases participant.onboarding <;> rfl⟩
  · cases value.bind (·.partySigningKeys) with
    | none => rfl
    | some keys =>
        simp only [mapSdkSigningKeysWithThreshold, signingKeysWithThresholdToProto, signingKeys_round_trip]

theorem partyToKeyMapping_round_trip (value : Option GrpcPartyToKeyMapping) :
    mapSdkPartyToKeyMapping sha256 (some (partyToKeyMappingToProto (mapSdkPartyToKeyMapping sha256 value)))
      = mapSdkPartyToKeyMapping sha256 value := by
  simp only [mapSdkPartyToKeyMapping, partyToKeyMappingToProto, Option.map_some, Option.getD_some,
    signingKeys_round_trip]

end Items

/-! ## Responses -/

section Responses

variable {κ ι : Type}

/-- Every timestamp of the message is valid. -/
def GrpcListResponse.Valid (message : GrpcListResponse κ) : Prop :=
  ∀ result ∈ message.results, ∀ context ∈ result.context, context.Valid

/-- Every context of the message comes back as it was. -/
def GrpcListResponse.ComesBack (message : GrpcListResponse κ) : Prop :=
  ∀ result ∈ message.results, ∀ context ∈ result.context, context.ComesBack

/-- The response that is read from the message is read again from what it is written into, with valid timestamps. -/
structure RoundTrips (fromProto : GrpcListResponse κ → ListResponse ι) (toProto : ListResponse ι → GrpcListResponse κ)
    (message : GrpcListResponse κ) : Prop where
  equal : fromProto (toProto (fromProto message)) = fromProto message
  nanos : ∀ result ∈ (toProto (fromProto message)).results, ∀ context ∈ result.context,
    ∀ timestamp ∈ context.timestamps, NanosInRange timestamp

variable {mapItem : Option κ → ι} {itemToProto : ι → κ} {message : GrpcListResponse κ}

theorem roundTrips_iff_contexts (hitem : ∀ item, mapItem (some (itemToProto (mapItem item))) = mapItem item) :
    RoundTrips (mapListResponse mapItem) (listResponseToProto itemToProto) message
      ↔ ∀ result ∈ message.results, ContextRoundTrips result.context := by
  have hequal : mapListResponse mapItem (listResponseToProto itemToProto (mapListResponse mapItem message))
        = mapListResponse mapItem message
      ↔ ∀ result ∈ message.results,
        mapGrpcTopologyBaseResult (baseResultToProto (some (mapGrpcTopologyBaseResult result.context)))
          = mapGrpcTopologyBaseResult result.context := by
    simp only [mapListResponse, listResponseToProto, ListResponse.mk.injEq, List.map_map, List.map_inj_left,
      Function.comp_apply, hitem, TopologyMappingResult.mk.injEq, Option.some.injEq, and_true]
  have hnanos : (∀ result ∈ (listResponseToProto itemToProto (mapListResponse mapItem message)).results,
        ∀ context ∈ result.context, ∀ timestamp ∈ context.timestamps, NanosInRange timestamp)
      ↔ ∀ result ∈ message.results,
        ∀ context ∈ baseResultToProto (some (mapGrpcTopologyBaseResult result.context)),
          ∀ timestamp ∈ context.timestamps, NanosInRange timestamp := by
    simp only [mapListResponse, listResponseToProto, List.map_map, List.mem_map, Function.comp_apply,
      forall_exists_index, and_imp, forall_apply_eq_imp_iff₂]
  constructor
  · rintro ⟨hsame, hrange⟩ result hresult
    exact ⟨hequal.mp hsame result hresult, hnanos.mp hrange result hresult⟩
  · intro h
    exact ⟨hequal.mpr fun result hresult => (h result hresult).equal,
      hnanos.mpr fun result hresult => (h result hresult).nanos⟩

theorem roundTrips_iff (hitem : ∀ item, mapItem (some (itemToProto (mapItem item))) = mapItem item)
    (hvalid : message.Valid) :
    RoundTrips (mapListResponse mapItem) (listResponseToProto itemToProto) message ↔ message.ComesBack := by
  rw [roundTrips_iff_contexts hitem]
  exact forall₂_congr fun result hresult => contextRoundTrips_iff (hvalid result hresult)

end Responses

/-- Both responses come back from their messages, with valid timestamps, if and only if every timestamp is no earlier than
1970 or on a full second, up to a millisecond, and every store of a synchronizer says which one. -/
theorem topology_responses_round_trip_iff (sha256 : List UInt8 → List UInt8)
    (participants : GrpcListPartyToParticipantResponse) (keys : GrpcListPartyToKeyMappingResponse)
    (hparticipants : participants.Valid) (hkeys : keys.Valid) :
    (RoundTrips (ListPartyToParticipantResponse.fromProto sha256) ListPartyToParticipantResponse.toProto participants
        ↔ participants.ComesBack)
      ∧ (RoundTrips (ListPartyToKeyMappingResponse.fromProto sha256) ListPartyToKeyMappingResponse.toProto keys
        ↔ keys.ComesBack) :=
  ⟨roundTrips_iff (partyToParticipant_round_trip sha256) hparticipants,
    roundTrips_iff (partyToKeyMapping_round_trip sha256) hkeys⟩

/-- One result without an item, sequenced at the given time. -/
def sequencedAt {κ : Type} (timestamp : Timestamp) : GrpcListResponse κ :=
  ⟨[⟨some ⟨none, some timestamp, none, none, .unspecified, [], 0, []⟩, none⟩]⟩

theorem valid_sequencedAt {κ : Type} {timestamp : Timestamp} (h : timestamp.Valid) :
    (sequencedAt (κ := κ) timestamp).Valid := by
  simpa [sequencedAt, GrpcListResponse.Valid, BaseResult.Valid, BaseResult.timestamps] using h

theorem topology_responses_round_trip_iff_epoch :
    (sequencedAt ⟨0, 500000000⟩ : GrpcListPartyToParticipantResponse).Valid
      ∧ (sequencedAt ⟨-1, 0⟩ : GrpcListPartyToKeyMappingResponse).Valid
      ∧ (RoundTrips (ListPartyToParticipantResponse.fromProto fun bytes => bytes) ListPartyToParticipantResponse.toProto
          (sequencedAt ⟨0, 500000000⟩) ↔ (sequencedAt ⟨0, 500000000⟩ : GrpcListPartyToParticipantResponse).ComesBack)
      ∧ (RoundTrips (ListPartyToKeyMappingResponse.fromProto fun bytes => bytes) ListPartyToKeyMappingResponse.toProto
          (sequencedAt ⟨-1, 0⟩) ↔ (sequencedAt ⟨-1, 0⟩ : GrpcListPartyToKeyMappingResponse).ComesBack) :=
  ⟨valid_sequencedAt (by decide), valid_sequencedAt (by decide),
    topology_responses_round_trip_iff (fun bytes => bytes) _ _ (valid_sequencedAt (by decide))
      (valid_sequencedAt (by decide))⟩

/-- Half a second before 1970 is written with a negative fraction, and read as a second and a half before 1970. -/
theorem half_second_before_1970_moves :
    (sequencedAt ⟨-1, 500000000⟩ : GrpcListPartyToParticipantResponse).Valid
      ∧ ¬ RoundTrips (ListPartyToParticipantResponse.fromProto fun bytes => bytes)
          ListPartyToParticipantResponse.toProto (sequencedAt ⟨-1, 500000000⟩) := by
  refine ⟨valid_sequencedAt (by decide), fun h => ?_⟩
  have hcontext := ((roundTrips_iff_contexts (partyToParticipant_round_trip _)).mp h _ List.mem_cons_self).equal
  exact absurd (congrArg TopologyBaseResult.sequencedAt hcontext) (by decide)

end CantonSdk.Transports
