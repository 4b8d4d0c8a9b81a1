import CantonSdk.Base.Checked
import CantonSdk.Base.KeyedMap
import CantonSdk.Base.Sorting
import CantonSdk.Base.Text
import CantonSdk.Transports.TopologyCodec

/-!
# Decentralized parties

How a decentralized party is prepared for signing, and how its detached signatures are checked before the party is
allocated. The participant that generates the topology transactions is a parameter, and what is sent to it is the request
that is returned.
-/

set_option linter.all false

namespace CantonSdk.Services

open CantonSdk.Base CantonSdk.Hashing CantonSdk.Transports

/-! ## Keys and requests -/

inductive ExternalPartyCryptoKeyFormat where
  | unspecified
  | der
  | raw
  | derX509SubjectPublicKeyInfo
  deriving DecidableEq

def ExternalPartyCryptoKeyFormat.text : ExternalPartyCryptoKeyFormat → String
  | .unspecified => "unspecified"
  | .der => "der"
  | .raw => "raw"
  | .derX509SubjectPublicKeyInfo => "derX509SubjectPublicKeyInfo"

inductive ExternalPartySigningKeySpec where
  | unspecified
  | ecCurve25519
  | ecP256
  | ecP384
  | ecSecp256k1
  | mlDsa65
  deriving DecidableEq

def ExternalPartySigningKeySpec.text : ExternalPartySigningKeySpec → String
  | .unspecified => "unspecified"
  | .ecCurve25519 => "ecCurve25519"
  | .ecP256 => "ecP256"
  | .ecP384 => "ecP384"
  | .ecSecp256k1 => "ecSecp256k1"
  | .mlDsa65 => "mlDsa65"

structure ExternalPartySigningPublicKey where
  format : ExternalPartyCryptoKeyFormat := .unspecified
  keyData : List UInt8 := []
  keySpec : ExternalPartySigningKeySpec := .unspecified
  deriving DecidableEq

structure DecentralizedPartyKey where
  publicKey : ExternalPartySigningPublicKey
  deriving DecidableEq

/-- What a request is made from. -/
structure DecentralizedPartyInit where
  synchronizer : Option String := none
  partyHint : Option String := none
  owners : List DecentralizedPartyKey := []
  ownerThreshold : Option Int := none
  partySigningKeys : List DecentralizedPartyKey := []
  partySigningThreshold : Option Int := none
  localParticipantObservationOnly : Option Bool := none
  otherConfirmingParticipantUids : List String := []
  confirmationThreshold : Option Int := none
  observingParticipantUids : List String := []
  identityProviderId : Option String := none
  waitForAllocation : Option Bool := none
  userId : Option String := none

inductive SigningRole where
  | owner
  | partySigningKey
  deriving DecidableEq

def SigningRole.text : SigningRole → String
  | .owner => "owner"
  | .partySigningKey => "partySigningKey"

structure PreparedSigningRequest where
  id : String
  transactionHash : List UInt8
  payload : List UInt8
  publicKeyFingerprint : String
  role : SigningRole
  deriving DecidableEq

structure PreparedTopologyTransaction where
  serializedTransaction : List UInt8
  transactionHash : List UInt8
  proposal : Bool := false
  deriving DecidableEq

structure PreparedDecentralizedParty where
  synchronizer : String
  partyId : String
  decentralizedNamespace : String
  ownerThreshold : Int
  partySigningThreshold : Int
  identityProviderId : Option String
  waitForAllocation : Option Bool
  userId : Option String
  transactions : List PreparedTopologyTransaction
  signingRequests : List PreparedSigningRequest
  deriving DecidableEq

/-! ## The proposals for the participant -/

inductive TopologyMapping where
  | decentralizedNamespaceDefinition (decentralizedNamespace : String) (threshold : Int) (owners : List String)
  | namespaceDelegation (namespaceOf : String) (targetKey : GrpcSigningPublicKey) (isRootDelegation : Bool)
  | partyToParticipant (mapping : GrpcPartyToParticipant)
  deriving DecidableEq

structure TopologyProposal where
  operation : Enums_TopologyChangeOp
  serial : Int
  store : GrpcStoreId
  mapping : TopologyMapping
  deriving DecidableEq

structure GenerateTransactionsRequest where
  proposals : List TopologyProposal
  deriving DecidableEq

structure GeneratedTransaction where
  serializedTransaction : List UInt8
  transactionHash : List UInt8
  deriving DecidableEq

def mapCryptoKeyFormat (value : String) : CryptoKeyFormat := cryptoKeyFormatToProto (some value)

def mapSigningKeySpec (value : String) : SigningKeySpec := signingKeySpecToProto (some value)

def mapSigningKeyScheme : String → SigningKeyScheme
  | "ecCurve25519" => .ed25519
  | "ecP256" => .ecDsaP256
  | "ecP384" => .ecDsaP384
  | _ => .unspecified

def toTopologyKey (value : DecentralizedPartyKey) : GrpcSigningPublicKey :=
  { format := mapCryptoKeyFormat value.publicKey.format.text
    publicKey := value.publicKey.keyData
    scheme := mapSigningKeyScheme value.publicKey.keySpec.text
    usage := [.namespace, .protocol, .proofOfOwnership]
    keySpec := mapSigningKeySpec value.publicKey.keySpec.text }

section

variable (sha256 : List UInt8 → List UInt8)

def keyFingerprint (value : DecentralizedPartyKey) : Option String :=
  computeCantonPublicKeyFingerprint sha256 (some value.publicKey.keyData) (some value.publicKey.format.text)

def fingerprintFor (value : DecentralizedPartyKey) : Except String String :=
  match keyFingerprint sha256 value with
  | none => .error "decentralized party key requires public key material"
  | some fingerprint => .ok fingerprint

/-- The fingerprints in order, each with its length before it, are what the namespace is the hash of. -/
def deriveNamespace (ownerFingerprints : List String) : String :=
  computeCantonHashHex sha256
    ((sortBy compareText ownerFingerprints).flatMap fun fingerprint =>
      writeUInt32BE (UInt32.ofNat fingerprint.toUTF8.data.toList.length) ++ fingerprint.toUTF8.data.toList)
    .decentralizedNamespace

def UniqueKeys (values : List DecentralizedPartyKey) : Prop :=
  (∀ value ∈ values, value.publicKey.keyData ≠ []) ∧ (values.map (keyFingerprint sha256)).Nodup

def validateUniqueKeys (values : List DecentralizedPartyKey) (label : String) : Except String Unit :=
  if values.any fun value => value.publicKey.keyData.length == 0 then
    .error s!"decentralized party {label} key requires public key material"
  else if ¬ (values.map (keyFingerprint sha256)).Nodup then .error s!"decentralized party {label} keys must be unique"
  else .ok ()

theorem uniqueKeys_of_validate {values : List DecentralizedPartyKey} {label : String}
    (h : validateUniqueKeys sha256 values label = .ok ()) : UniqueKeys sha256 values := by
  rw [validateUniqueKeys] at h
  split at h
  · cases h
  · rename_i hmaterial
    split at h
    · cases h
    · rename_i hunique
      refine ⟨fun value hvalue hnil => hmaterial ?_, Decidable.not_not.mp hunique⟩
      exact List.any_eq_true.mpr ⟨value, hvalue, by rw [hnil, List.length_nil]; rfl⟩

/-- A request whose keys have bytes and pairwise distinct fingerprints, with thresholds within their numbers. -/
structure CreateDecentralizedPartyRequest where
  synchronizer : String
  partyHint : String
  owners : List DecentralizedPartyKey
  ownerThreshold : Int
  partySigningKeys : List DecentralizedPartyKey
  partySigningThreshold : Int
  localParticipantObservationOnly : Bool
  otherConfirmingParticipantUids : List String
  confirmationThreshold : Int
  observingParticipantUids : List String
  identityProviderId : Option String
  waitForAllocation : Option Bool
  userId : Option String
  owners_length : 2 ≤ owners.length
  owners_unique : UniqueKeys sha256 owners
  signing_unique : UniqueKeys sha256 partySigningKeys
  threshold_within : 1 ≤ ownerThreshold ∧ ownerThreshold ≤ owners.length
  signing_within : 1 ≤ partySigningThreshold ∧ partySigningThreshold ≤ partySigningKeys.length

theorem within_of_not_outside {threshold : Int} {count : Nat} (h : ¬ (threshold < 1 ∨ threshold > count)) :
    1 ≤ threshold ∧ threshold ≤ count := by
  omega

def CreateDecentralizedPartyRequest.create (init : DecentralizedPartyInit) :
    Except String (CreateDecentralizedPartyRequest sha256) :=
  if init.synchronizer = none ∨ init.synchronizer = some "" then
    .error "decentralized party creation requires a synchronizer"
  else if init.partyHint = none ∨ init.partyHint = some "" then
    .error "decentralized party creation requires a party hint"
  else if howners : init.owners.length < 2 then
    .error "decentralized party creation requires at least two unique owner keys"
  else if init.partySigningKeys.length = 0 then
    .error "decentralized party creation requires at least one party signing key"
  else
    match init.ownerThreshold with
    | none => .error "decentralized party creation requires an owner threshold"
    | some ownerThreshold =>
        match init.partySigningThreshold with
        | none => .error "decentralized party creation requires a party signing threshold"
        | some partySigningThreshold =>
            if hthreshold : ownerThreshold < 1 ∨ ownerThreshold > init.owners.length then
              .error "decentralized party owner threshold must be within the owner key count"
            else if hsigning : partySigningThreshold < 1 ∨ partySigningThreshold > init.partySigningKeys.length then
              .error "decentralized party signing threshold must be within the party signing key count"
            else
              match hunique : validateUniqueKeys sha256 init.owners "owner" with
              | .error error => .error error
              | .ok () =>
                  match hsigningUnique : validateUniqueKeys sha256 init.partySigningKeys "party signing" with
                  | .error error => .error error
                  | .ok () =>
                      .ok
                        { synchronizer := init.synchronizer.getD ""
                          partyHint := init.partyHint.getD ""
                          owners := init.owners
                          ownerThreshold := ownerThreshold
                          partySigningKeys := init.partySigningKeys
                          partySigningThreshold := partySigningThreshold
                          localParticipantObservationOnly := init.localParticipantObservationOnly.getD false
                          otherConfirmingParticipantUids := init.otherConfirmingParticipantUids
                          confirmationThreshold := init.confirmationThreshold.getD 0
                          observingParticipantUids := init.observingParticipantUids
                          identityProviderId := init.identityProviderId
                          waitForAllocation := init.waitForAllocation
                          userId := init.userId
                          owners_length := Nat.le_of_not_lt howners
                          owners_unique := uniqueKeys_of_validate sha256 hunique
                          signing_unique := uniqueKeys_of_validate sha256 hsigningUnique
                          threshold_within := within_of_not_outside hthreshold
                          signing_within := within_of_not_outside hsigning }

end

/-! ## Preparing a party -/

def requestId (index : Nat) (role : SigningRole) (fingerprint : String) : String :=
  s!"{index}:{role.text}:{fingerprint}"

def signingRequest (index : Nat) (transaction : PreparedTopologyTransaction) (role : SigningRole)
    (publicKeyFingerprint : String) : PreparedSigningRequest :=
  { id := requestId index role publicKeyFingerprint
    transactionHash := transaction.transactionHash
    payload := transaction.transactionHash
    publicKeyFingerprint := publicKeyFingerprint
    role := role }

/-- What has to be signed for the transaction at a place: by every owner, and for the last one by the party's keys too. -/
def requestsAt (count : Nat) (ownerFingerprints keyFingerprints : List String)
    (place : PreparedTopologyTransaction × Nat) : List PreparedSigningRequest :=
  ownerFingerprints.map (signingRequest place.2 place.1 .owner)
    ++ if place.2 + 1 = count then keyFingerprints.map (signingRequest place.2 place.1 .partySigningKey) else []

section

variable {sha256 : List UInt8 → List UInt8}

def generateRequest (request : CreateDecentralizedPartyRequest sha256) (participantId : String)
    (ownerFingerprints : List String) : GenerateTransactionsRequest :=
  { proposals :=
      [⟨.addReplace, 1, .synchronizer (.id request.synchronizer),
          .decentralizedNamespaceDefinition (deriveNamespace sha256 ownerFingerprints) request.ownerThreshold
            ownerFingerprints⟩]
        ++ ((request.owners.map toTopologyKey).zip ownerFingerprints).map (fun entry =>
            ⟨.addReplace, 1, .synchronizer (.id request.synchronizer),
              .namespaceDelegation entry.2 entry.1 true⟩)
        ++ [⟨.addReplace, 1, .synchronizer (.id request.synchronizer),
          .partyToParticipant
            { party := s!"{request.partyHint}::{deriveNamespace sha256 ownerFingerprints}"
              threshold := request.confirmationThreshold
              participants :=
                ⟨participantId, if request.localParticipantObservationOnly then .observation else .confirmation, none⟩
                  :: request.otherConfirmingParticipantUids.map (⟨·, .confirmation, none⟩)
                  ++ request.observingParticipantUids.map (⟨·, .observation, none⟩)
              partySigningKeys := some ⟨request.partySigningThreshold, request.partySigningKeys.map toTopologyKey⟩ }⟩] }

/-- `generateTransactions` is the participant. -/
def prepareDecentralizedParty (request : CreateDecentralizedPartyRequest sha256) (participantId : String)
    (generateTransactions : GenerateTransactionsRequest → Except String (List GeneratedTransaction)) :
    Except String PreparedDecentralizedParty := do
  let ownerFingerprints ← request.owners.mapM (fingerprintFor sha256)
  let generated ← generateTransactions (generateRequest request participantId ownerFingerprints)
  guardThat (decide (generated.length = request.owners.length + 2))
    "decentralized party generated transaction count does not match proposals"
  let transactions := generated.map fun transaction =>
    ({ serializedTransaction := transaction.serializedTransaction
       transactionHash := transaction.transactionHash } : PreparedTopologyTransaction)
  let keyFingerprints ← request.partySigningKeys.mapM (fingerprintFor sha256)
  return {
    synchronizer := request.synchronizer
    partyId := s!"{request.partyHint}::{deriveNamespace sha256 ownerFingerprints}"
    decentralizedNamespace := deriveNamespace sha256 ownerFingerprints
    ownerThreshold := request.ownerThreshold
    partySigningThreshold := request.partySigningThreshold
    identityProviderId := request.identityProviderId
    waitForAllocation := request.waitForAllocation
    userId := request.userId
    transactions := transactions
    signingRequests := transactions.zipIdx.flatMap (requestsAt transactions.length ownerFingerprints keyFingerprints) }

end

/-! ## Signatures -/

inductive ExternalPartySignatureFormat where
  | unspecified
  | raw
  | der
  | concat
  | symbolic
  deriving DecidableEq

inductive ExternalPartySigningAlgorithmSpec where
  | unspecified
  | ed25519
  | ecDsaSha256
  | ecDsaSha384
  | mlDsa65
  deriving DecidableEq

structure ExternalPartySigningResult where
  signature : List UInt8
  format : ExternalPartySignatureFormat
  signingAlgorithmSpec : ExternalPartySigningAlgorithmSpec
  deriving DecidableEq

structure DecentralizedPartyDetachedSignature where
  signingRequestId : String
  result : ExternalPartySigningResult
  deriving DecidableEq

structure ExternalPartySignature where
  format : ExternalPartySignatureFormat
  signature : List UInt8
  signedByFingerprint : String
  signingAlgorithmSpec : ExternalPartySigningAlgorithmSpec
  deriving DecidableEq

/-- The numbers of the wire for `SignatureFormat` and `SigningAlgorithmSpec`. -/
structure GrpcSignature where
  format : Nat
  signature : List UInt8
  signedBy : String
  signingAlgorithmSpec : Nat
  deriving DecidableEq

def mapSignatureFormat : ExternalPartySignatureFormat → Nat
  | .raw => 1
  | .der => 2
  | .concat => 3
  | .symbolic => 10000
  | .unspecified => 0

def mapSigningAlgorithm : ExternalPartySigningAlgorithmSpec → Nat
  | .ed25519 => 1
  | .ecDsaSha256 => 2
  | .ecDsaSha384 => 3
  | .mlDsa65 => 4
  | .unspecified => 0

def toGeneratedSignature (value : ExternalPartySignature) : GrpcSignature :=
  { format := mapSignatureFormat value.format
    signature := value.signature
    signedBy := value.signedByFingerprint
    signingAlgorithmSpec := mapSigningAlgorithm value.signingAlgorithmSpec }

structure OnboardingTransaction where
  transaction : List UInt8
  signatures : List GrpcSignature
  deriving DecidableEq

structure AllocateExternalPartyRequest where
  synchronizer : String
  onboardingTransactions : List OnboardingTransaction
  multiHashSignatures : List GrpcSignature
  identityProviderId : Option String
  waitForAllocation : Option Bool
  userId : Option String
  deriving DecidableEq

/-! ## Finalizing a party -/

/-- The ids that have been seen, and the signatures by the text of the hash they are for. -/
structure Collected where
  seen : List String
  signaturesByHash : KeyedMap String (List ExternalPartySignature)

def signatureFor (request : PreparedSigningRequest) (result : ExternalPartySigningResult) : ExternalPartySignature :=
  { format := result.format
    signature := result.signature
    signedByFingerprint := request.publicKeyFingerprint
    signingAlgorithmSpec := result.signingAlgorithmSpec }

def Collected.add (state : Collected) (request : PreparedSigningRequest)
    (detached : DecentralizedPartyDetachedSignature) : Collected :=
  { seen := state.seen ++ [detached.signingRequestId]
    signaturesByHash := state.signaturesByHash.set (toHex request.transactionHash)
      ((state.signaturesByHash.get (toHex request.transactionHash)).getD [] ++ [signatureFor request detached.result]) }

/-- The loop over the detached signatures. -/
def collect (expected : KeyedMap String PreparedSigningRequest) (state : Collected) :
    List DecentralizedPartyDetachedSignature → Except String Collected
  | [] => .ok state
  | detached :: rest =>
      match expected.get detached.signingRequestId with
      | none => .error "decentralized party finalization has unexpected or duplicate signatures"
      | some request =>
          if detached.signingRequestId ∈ state.seen then
            .error "decentralized party finalization has unexpected or duplicate signatures"
          else if detached.result.signature.length = 0 then
            .error "decentralized party finalization has malformed signatures"
          else collect expected (state.add request detached) rest

namespace PreparedDecentralizedParty

variable (prepared : PreparedDecentralizedParty)

def requestsOf (transaction : PreparedTopologyTransaction) : List PreparedSigningRequest :=
  prepared.signingRequests.filter fun request =>
    decide (toHex request.transactionHash = toHex transaction.transactionHash)

def ownerRequired (place : PreparedTopologyTransaction × Nat) : Int :=
  if place.2 = 0 then ((prepared.requestsOf place.1).countP fun request => decide (request.role = .owner))
  else prepared.ownerThreshold

def provided (seen : List String) (role : SigningRole) (transaction : PreparedTopologyTransaction) : Nat :=
  (prepared.requestsOf transaction).countP fun request => decide (request.role = role ∧ request.id ∈ seen)

def partyRequired (transaction : PreparedTopologyTransaction) : Nat :=
  (prepared.requestsOf transaction).countP fun request => decide (request.role = .partySigningKey)

/-- The body of the loop over the transactions. -/
def checkTransaction (seen : List String) (place : PreparedTopologyTransaction × Nat) : Except String Unit :=
  if prepared.provided seen .owner place.1 < prepared.ownerRequired place
      ∨ prepared.provided seen .partySigningKey place.1 < prepared.partyRequired place.1 then
    .error "decentralized party finalization has missing signatures"
  else .ok ()

/-- The request that is sent for the allocation. -/
def allocation (collected : Collected) : AllocateExternalPartyRequest :=
  { synchronizer := prepared.synchronizer
    onboardingTransactions := prepared.transactions.map fun transaction =>
      { transaction := transaction.serializedTransaction
        signatures :=
          ((collected.signaturesByHash.get (toHex transaction.transactionHash)).getD []).map toGeneratedSignature }
    multiHashSignatures := []
    identityProviderId := prepared.identityProviderId
    waitForAllocation := prepared.waitForAllocation
    userId := prepared.userId }

end PreparedDecentralizedParty

/-- What is sent, if anything is. -/
def finalizeDecentralizedParty (prepared : PreparedDecentralizedParty)
    (signatures : List DecentralizedPartyDetachedSignature) : Except String AllocateExternalPartyRequest := do
  guardThat (decide (prepared.signingRequests.length ≠ 0))
    "decentralized party finalization is missing prepared signing requests"
  let expected := KeyedMap.ofEntries (prepared.signingRequests.map fun request => (request.id, request))
  let collected ← collect expected ⟨[], KeyedMap.empty⟩ signatures
  checkAll (prepared.checkTransaction collected.seen) prepared.transactions.zipIdx
  return prepared.allocation collected

end CantonSdk.Services
