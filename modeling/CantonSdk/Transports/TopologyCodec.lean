import CantonSdk.Hashing.Fingerprint

/-!
# The codec of topology responses

Responses that list the mappings of parties are read from their messages, and written back into messages. An enumeration
of the wire is open: a number that no name stands for is kept. A date is the number of its milliseconds, and the `int64`
of a timestamp is the number that its text denotes.
-/

set_option linter.all false

namespace CantonSdk.Transports

open CantonSdk.Hashing

/-! ## The messages -/

inductive Enums_TopologyChangeOp where
  | unspecified
  | addReplace
  | remove
  | unrecognized (number : Int)
  deriving DecidableEq

inductive Enums_ParticipantPermission where
  | unspecified
  | submission
  | confirmation
  | observation
  | unrecognized (number : Int)
  deriving DecidableEq

inductive CryptoKeyFormat where
  | unspecified
  | der
  | raw
  | derX509SubjectPublicKeyInfo
  | derPkcs8PrivateKeyInfo
  | symbolic
  | unrecognized (number : Int)
  deriving DecidableEq

inductive SigningKeyScheme where
  | unspecified
  | ed25519
  | ecDsaP256
  | ecDsaP384
  | unrecognized (number : Int)
  deriving DecidableEq

inductive SigningKeyUsage where
  | unspecified
  | namespace
  | identityDelegation
  | sequencerAuthentication
  | protocol
  | proofOfOwnership
  | unrecognized (number : Int)
  deriving DecidableEq

inductive SigningKeySpec where
  | unspecified
  | ecCurve25519
  | ecP256
  | ecP384
  | ecSecp256k1
  | mlDsa65
  | unrecognized (number : Int)
  deriving DecidableEq

structure Timestamp where
  seconds : Int
  nanos : Int
  deriving DecidableEq

/-- Which synchronizer a store is of, if the message says so. -/
inductive SynchronizerKind where
  | unset
  | id (id : String)
  | physicalId (physicalId : String)
  deriving DecidableEq

inductive GrpcStoreId where
  | unset
  | authorized
  | synchronizer (kind : SynchronizerKind)
  | temporary (name : String)
  deriving DecidableEq

structure BaseResult where
  store : Option GrpcStoreId
  sequenced : Option Timestamp
  validFrom : Option Timestamp
  validUntil : Option Timestamp
  operation : Enums_TopologyChangeOp
  transactionHash : List UInt8
  serial : Int
  signedByFingerprints : List String
  deriving DecidableEq

structure GrpcSigningPublicKey where
  format : CryptoKeyFormat
  publicKey : List UInt8
  scheme : SigningKeyScheme
  usage : List SigningKeyUsage
  keySpec : SigningKeySpec
  deriving DecidableEq

structure GrpcSigningKeysWithThreshold where
  threshold : Int
  keys : List GrpcSigningPublicKey
  deriving DecidableEq

structure GrpcHostingParticipant where
  participantUid : String
  permission : Enums_ParticipantPermission
  onboarding : Option Unit
  deriving DecidableEq

structure GrpcPartyToParticipant where
  party : String
  threshold : Int
  participants : List GrpcHostingParticipant
  partySigningKeys : Option GrpcSigningKeysWithThreshold
  deriving DecidableEq

structure GrpcPartyToKeyMapping where
  party : String
  threshold : Int
  signingKeys : List GrpcSigningPublicKey
  deriving DecidableEq

structure GrpcMappingResult (κ : Type) where
  context : Option BaseResult
  item : Option κ
  deriving DecidableEq

/-- A message that lists mappings. -/
structure GrpcListResponse (κ : Type) where
  results : List (GrpcMappingResult κ)
  deriving DecidableEq

abbrev GrpcListPartyToParticipantResponse := GrpcListResponse GrpcPartyToParticipant

abbrev GrpcListPartyToKeyMappingResponse := GrpcListResponse GrpcPartyToKeyMapping

/-! ## The responses -/

abbrev Date := Int

inductive TopologyMappingOperation where
  | unspecified
  | addReplace
  | remove
  deriving DecidableEq

inductive ParticipantPermission where
  | unspecified
  | submission
  | confirmation
  | observation
  deriving DecidableEq

inductive TopologyStoreKind where
  | authorized
  | synchronizer
  | temporary
  deriving DecidableEq

structure TopologyStoreSynchronizer where
  id : Option String
  physicalId : Option String
  deriving DecidableEq

structure TopologyStoreTemporary where
  name : String
  deriving DecidableEq

structure TopologyStoreId where
  kind : TopologyStoreKind
  authorized : Option Unit := none
  synchronizer : Option TopologyStoreSynchronizer := none
  temporary : Option TopologyStoreTemporary := none
  deriving DecidableEq

structure TopologyBaseResult where
  storeId : Option TopologyStoreId
  sequencedAt : Option Date
  validFrom : Option Date
  validUntil : Option Date
  operation : TopologyMappingOperation
  transactionHash : List UInt8
  serial : Int
  signedByFingerprints : List String
  deriving DecidableEq

structure TopologySigningPublicKey where
  fingerprint : Option String
  format : Option String
  publicKey : List UInt8
  scheme : Option String
  usage : List String
  keySpec : Option String
  deriving DecidableEq

structure TopologySigningKeysWithThreshold where
  threshold : Int
  keys : List TopologySigningPublicKey
  deriving DecidableEq

structure PartyToParticipantParticipant where
  participantUid : String
  permission : ParticipantPermission
  onboarding : Option Unit
  deriving DecidableEq

structure PartyToParticipant where
  party : String
  threshold : Int
  participants : List PartyToParticipantParticipant
  partySigningKeys : Option TopologySigningKeysWithThreshold
  deriving DecidableEq

structure PartyToKeyMapping where
  party : String
  threshold : Int
  signingKeys : List TopologySigningPublicKey
  deriving DecidableEq

structure TopologyMappingResult (ι : Type) where
  context : Option TopologyBaseResult
  item : ι
  deriving DecidableEq

/-- A response that lists mappings. -/
structure ListResponse (ι : Type) where
  results : List (TopologyMappingResult ι)
  deriving DecidableEq

abbrev ListPartyToParticipantResponse := ListResponse PartyToParticipant

abbrev ListPartyToKeyMappingResponse := ListResponse PartyToKeyMapping

/-! ## Names and numbers -/

def mapSdkTopologyChangeOp : Option Enums_TopologyChangeOp → TopologyMappingOperation
  | some .addReplace => .addReplace
  | some .remove => .remove
  | _ => .unspecified

def mapGrpcTopologyChangeOp : Option TopologyMappingOperation → Enums_TopologyChangeOp
  | some .addReplace => .addReplace
  | some .remove => .remove
  | _ => .unspecified

def mapSdkParticipantPermission : Option Enums_ParticipantPermission → ParticipantPermission
  | some .submission => .submission
  | some .confirmation => .confirmation
  | some .observation => .observation
  | _ => .unspecified

def participantPermissionToProto : Option ParticipantPermission → Enums_ParticipantPermission
  | some .submission => .submission
  | some .confirmation => .confirmation
  | some .observation => .observation
  | _ => .unspecified

def mapSdkCryptoKeyFormat : Option CryptoKeyFormat → Option String
  | some .der => "der"
  | some .raw => "raw"
  | some .derX509SubjectPublicKeyInfo => "derX509SubjectPublicKeyInfo"
  | some .derPkcs8PrivateKeyInfo => "derPkcs8PrivateKeyInfo"
  | some .symbolic => "symbolic"
  | _ => "unspecified"

def cryptoKeyFormatToProto : Option String → CryptoKeyFormat
  | some "der" => .der
  | some "raw" => .raw
  | some "derX509SubjectPublicKeyInfo" => .derX509SubjectPublicKeyInfo
  | some "derPkcs8PrivateKeyInfo" => .derPkcs8PrivateKeyInfo
  | some "symbolic" => .symbolic
  | _ => .unspecified

def mapSdkSigningKeyUsage : SigningKeyUsage → String
  | .namespace => "namespace"
  | .identityDelegation => "identityDelegation"
  | .sequencerAuthentication => "sequencerAuthentication"
  | .protocol => "protocol"
  | .proofOfOwnership => "proofOfOwnership"
  | _ => "unspecified"

def signingKeyUsageToProto : String → SigningKeyUsage
  | "namespace" => .namespace
  | "identityDelegation" => .identityDelegation
  | "sequencerAuthentication" => .sequencerAuthentication
  | "protocol" => .protocol
  | "proofOfOwnership" => .proofOfOwnership
  | _ => .unspecified

def mapSdkSigningKeySpec : Option SigningKeySpec → Option String
  | some .ecCurve25519 => "ecCurve25519"
  | some .ecP256 => "ecP256"
  | some .ecP384 => "ecP384"
  | some .ecSecp256k1 => "ecSecp256k1"
  | some .mlDsa65 => "mlDsa65"
  | _ => "unspecified"

def signingKeySpecToProto : Option String → SigningKeySpec
  | some "ecCurve25519" => .ecCurve25519
  | some "ecP256" => .ecP256
  | some "ecP384" => .ecP384
  | some "ecSecp256k1" => .ecSecp256k1
  | some "mlDsa65" => .mlDsa65
  | _ => .unspecified

theorem changeOp_round_trip (operation : Option Enums_TopologyChangeOp) :
    mapSdkTopologyChangeOp (some (mapGrpcTopologyChangeOp (some (mapSdkTopologyChangeOp operation))))
      = mapSdkTopologyChangeOp operation := by
  rcases operation with _ | _ | _ | _ | _ <;> rfl

theorem permission_round_trip (permission : Option Enums_ParticipantPermission) :
    mapSdkParticipantPermission (some (participantPermissionToProto (some (mapSdkParticipantPermission permission))))
      = mapSdkParticipantPermission permission := by
  rcases permission with _ | _ | _ | _ | _ | _ <;> rfl

theorem format_round_trip (format : Option CryptoKeyFormat) :
    mapSdkCryptoKeyFormat (some (cryptoKeyFormatToProto (mapSdkCryptoKeyFormat format)))
      = mapSdkCryptoKeyFormat format := by
  rcases format with _ | _ | _ | _ | _ | _ | _ | _ <;> rfl

theorem usage_round_trip (usage : SigningKeyUsage) :
    mapSdkSigningKeyUsage (signingKeyUsageToProto (mapSdkSigningKeyUsage usage)) = mapSdkSigningKeyUsage usage := by
  cases usage <;> rfl

theorem keySpec_round_trip (keySpec : Option SigningKeySpec) :
    mapSdkSigningKeySpec (some (signingKeySpecToProto (mapSdkSigningKeySpec keySpec)))
      = mapSdkSigningKeySpec keySpec := by
  rcases keySpec with _ | _ | _ | _ | _ | _ | _ | _ <;> rfl

/-! ## Stores and timestamps -/

def mapSdkTopologyStoreId : Option GrpcStoreId → Option TopologyStoreId
  | some .authorized => some ⟨.authorized, some (), none, none⟩
  | some (.synchronizer kind) =>
      some ⟨.synchronizer, none,
        some ⟨match kind with | .id id => some id | _ => none,
          match kind with | .physicalId physicalId => some physicalId | _ => none⟩, none⟩
  | some (.temporary name) => some ⟨.temporary, none, none, some ⟨name⟩⟩
  | _ => none

def mapGrpcTopologyStoreId : Option TopologyStoreId → Option GrpcStoreId
  | none => none
  | some value =>
      match value.kind with
      | .authorized => some .authorized
      | .synchronizer =>
          some (.synchronizer
            (match value.synchronizer.bind (·.physicalId) with
            | some physicalId => .physicalId physicalId
            | none => .id ((value.synchronizer.bind (·.id)).getD "")))
      | .temporary => some (.temporary ((value.temporary.map (·.name)).getD ""))

def mapSdkTimestamp : Option Timestamp → Option Date
  | none => none
  | some value => some (value.seconds * 1000 + value.nanos / 1000000)

/-- The seconds are rounded down, and the remainder has the sign of the milliseconds. -/
def mapGrpcTimestamp : Option Date → Option Timestamp
  | none => none
  | some milliseconds => some ⟨milliseconds / 1000, milliseconds.tmod 1000 * 1000000⟩

/-! ## Reading and writing -/

def mapGrpcTopologyBaseResult (payload : Option BaseResult) : TopologyBaseResult :=
  { storeId := mapSdkTopologyStoreId (payload.bind (·.store))
    sequencedAt := mapSdkTimestamp (payload.bind (·.sequenced))
    validFrom := mapSdkTimestamp (payload.bind (·.validFrom))
    validUntil := mapSdkTimestamp (payload.bind (·.validUntil))
    operation := mapSdkTopologyChangeOp (payload.map (·.operation))
    transactionHash := (payload.map (·.transactionHash)).getD []
    serial := (payload.map (·.serial)).getD 0
    signedByFingerprints := (payload.map (·.signedByFingerprints)).getD [] }

def baseResultToProto : Option TopologyBaseResult → Option BaseResult
  | none => none
  | some value =>
      some
        { store := mapGrpcTopologyStoreId value.storeId
          sequenced := mapGrpcTimestamp value.sequencedAt
          validFrom := mapGrpcTimestamp value.validFrom
          validUntil := mapGrpcTimestamp value.validUntil
          operation := mapGrpcTopologyChangeOp (some value.operation)
          transactionHash := value.transactionHash
          serial := value.serial
          signedByFingerprints := value.signedByFingerprints }

def signingPublicKeyToProto (value : TopologySigningPublicKey) : GrpcSigningPublicKey :=
  { format := cryptoKeyFormatToProto value.format
    publicKey := value.publicKey
    scheme := .unspecified
    usage := value.usage.map signingKeyUsageToProto
    keySpec := signingKeySpecToProto value.keySpec }

def signingKeysWithThresholdToProto : Option TopologySigningKeysWithThreshold → Option GrpcSigningKeysWithThreshold
  | none => none
  | some value => some ⟨value.threshold, value.keys.map signingPublicKeyToProto⟩

def hostingParticipantToProto (value : PartyToParticipantParticipant) : GrpcHostingParticipant :=
  { participantUid := value.participantUid
    permission := participantPermissionToProto (some value.permission)
    onboarding := value.onboarding.map fun _ => () }

def partyToParticipantToProto (value : PartyToParticipant) : GrpcPartyToParticipant :=
  { party := value.party
    threshold := value.threshold
    participants := value.participants.map hostingParticipantToProto
    partySigningKeys := signingKeysWithThresholdToProto value.partySigningKeys }

def partyToKeyMappingToProto (value : PartyToKeyMapping) : GrpcPartyToKeyMapping :=
  { party := value.party
    threshold := value.threshold
    signingKeys := value.signingKeys.map signingPublicKeyToProto }

/-- A response is read result by result. -/
def mapListResponse {κ ι : Type} (mapItem : Option κ → ι) (payload : GrpcListResponse κ) : ListResponse ι :=
  ⟨payload.results.map fun item => ⟨some (mapGrpcTopologyBaseResult item.context), mapItem item.item⟩⟩

/-- A response is written result by result. -/
def listResponseToProto {κ ι : Type} (itemToProto : ι → κ) (response : ListResponse ι) : GrpcListResponse κ :=
  ⟨response.results.map fun result => ⟨baseResultToProto result.context, some (itemToProto result.item)⟩⟩

section

variable (sha256 : List UInt8 → List UInt8)

def mapSdkSigningPublicKey (value : Option GrpcSigningPublicKey) : TopologySigningPublicKey :=
  { fingerprint := computeCantonPublicKeyFingerprint sha256 (value.map (·.publicKey))
      (mapSdkCryptoKeyFormat (value.map (·.format)))
    format := mapSdkCryptoKeyFormat (value.map (·.format))
    publicKey := (value.map (·.publicKey)).getD []
    scheme := none
    usage := ((value.map (·.usage)).getD []).map mapSdkSigningKeyUsage
    keySpec := mapSdkSigningKeySpec (value.map (·.keySpec)) }

def mapSdkSigningKeysWithThreshold : Option GrpcSigningKeysWithThreshold → Option TopologySigningKeysWithThreshold
  | none => none
  | some value => some ⟨value.threshold, value.keys.map fun key => mapSdkSigningPublicKey sha256 (some key)⟩

def mapSdkPartyToParticipant (value : Option GrpcPartyToParticipant) : PartyToParticipant :=
  { party := (value.map (·.party)).getD ""
    threshold := (value.map (·.threshold)).getD 0
    participants := ((value.map (·.participants)).getD []).map fun participant =>
      { participantUid := participant.participantUid
        permission := mapSdkParticipantPermission (some participant.permission)
        onboarding := participant.onboarding.map fun _ => () }
    partySigningKeys := mapSdkSigningKeysWithThreshold sha256 (value.bind (·.partySigningKeys)) }

def mapSdkPartyToKeyMapping (value : Option GrpcPartyToKeyMapping) : PartyToKeyMapping :=
  { party := (value.map (·.party)).getD ""
    threshold := (value.map (·.threshold)).getD 0
    signingKeys := ((value.map (·.signingKeys)).getD []).map fun key => mapSdkSigningPublicKey sha256 (some key) }

def ListPartyToParticipantResponse.fromProto (payload : GrpcListPartyToParticipantResponse) :
    ListPartyToParticipantResponse := mapListResponse (mapSdkPartyToParticipant sha256) payload

def ListPartyToKeyMappingResponse.fromProto (payload : GrpcListPartyToKeyMappingResponse) :
    ListPartyToKeyMappingResponse := mapListResponse (mapSdkPartyToKeyMapping sha256) payload

end

def ListPartyToParticipantResponse.toProto (response : ListPartyToParticipantResponse) :
    GrpcListPartyToParticipantResponse := listResponseToProto partyToParticipantToProto response

def ListPartyToKeyMappingResponse.toProto (response : ListPartyToKeyMappingResponse) :
    GrpcListPartyToKeyMappingResponse := listResponseToProto partyToKeyMappingToProto response

end CantonSdk.Transports
