import CantonSdk.Base.Decimal
import CantonSdk.Services.DecentralizedParty

/-!
# When a decentralized party is allocated

An allocation is sent if and only if the detached signatures are known, not empty and not repeated, every owner has signed
the namespace, enough owners have signed every other transaction, and every key of the party has signed the last one. It
then carries with each transaction the signatures that were made for it.
-/

set_option linter.all false

namespace CantonSdk.Services

open CantonSdk.Base CantonSdk.Hashing CantonSdk.Transports

/-! ## What has to be signed -/

theorem not_mem_toString {n : Nat} : ':' ∉ (toString n).toList := by
  intro hmem
  rw [Nat.toString_eq_ofList_toDigits, String.toList_ofList] at hmem
  exact absurd (List.all_eq_true.mp (toDigits_isDigit n) ':' hmem) (by decide)

theorem not_mem_roleText (role : SigningRole) : ':' ∉ role.text.toList := by
  cases role <;> decide

theorem roleText_injective {role role' : SigningRole} (h : role.text = role'.text) : role = role' := by
  cases role <;> cases role' <;> first | rfl | exact absurd h (by decide)

/-- The place, the role and the fingerprint can be told from the id of a request. -/
theorem requestId_injective {index index' : Nat} {role role' : SigningRole} {fingerprint fingerprint' : String}
    (h : requestId index role fingerprint = requestId index' role' fingerprint') :
    index = index' ∧ role = role' ∧ fingerprint = fingerprint' := by
  have hsplit : ∀ index role fingerprint, requestId index role fingerprint
      = toString index ++ ':'.toString ++ (role.text ++ ':'.toString ++ fingerprint) := by
    intro index role fingerprint
    simp [requestId, String.append_assoc, Char.toString]
    rfl
  rw [hsplit, hsplit] at h
  obtain ⟨hindex, hrest⟩ := append_separator_injective not_mem_toString not_mem_toString h
  obtain ⟨hrole, hfingerprint⟩ := append_separator_injective (not_mem_roleText _) (not_mem_roleText _) hrest
  refine ⟨?_, roleText_injective hrole, hfingerprint⟩
  rw [← decimalValue_toString index, hindex, decimalValue_toString]

/-- A party that was prepared, with the fingerprints of its owners and of its own keys. -/
structure Prepares (ownerFingerprints keyFingerprints : List String) (prepared : PreparedDecentralizedParty) : Prop where
  requests : prepared.signingRequests = prepared.transactions.zipIdx.flatMap
    (requestsAt prepared.transactions.length ownerFingerprints keyFingerprints)
  owners : 2 ≤ ownerFingerprints.length
  transactions : prepared.transactions.length = ownerFingerprints.length + 2

theorem forall₂_fingerprints {sha256 : List UInt8 → List UInt8} {keys : List DecentralizedPartyKey}
    {fingerprints : List String} (h : keys.mapM (fingerprintFor sha256) = .ok fingerprints) :
    keys.map (keyFingerprint sha256) = fingerprints.map some := by
  have hall := mapM_eq_ok.mp h
  clear h
  induction hall with
  | nil => rfl
  | cons hfirst _ ih =>
      rw [List.map_cons, List.map_cons, ih]
      congr 1
      rw [fingerprintFor] at hfirst
      split at hfirst
      · cases hfirst
      · rename_i hfound
        rw [hfound, Except.ok.inj hfirst]

variable {sha256 : List UInt8 → List UInt8} {request : CreateDecentralizedPartyRequest sha256} {participantId : String}
  {generateTransactions : GenerateTransactionsRequest → Except String (List GeneratedTransaction)}
  {prepared : PreparedDecentralizedParty}

theorem prepares_of_prepare (h : prepareDecentralizedParty request participantId generateTransactions = .ok prepared) :
    ∃ ownerFingerprints keyFingerprints,
      request.owners.map (keyFingerprint sha256) = ownerFingerprints.map some
        ∧ request.partySigningKeys.map (keyFingerprint sha256) = keyFingerprints.map some
        ∧ prepared.ownerThreshold = request.ownerThreshold
        ∧ Prepares ownerFingerprints keyFingerprints prepared := by
  obtain ⟨ownerFingerprints, howners, h⟩ := bind_eq_ok.mp h
  obtain ⟨generated, -, h⟩ := bind_eq_ok.mp h
  obtain ⟨_, hcount, h⟩ := bind_eq_ok.mp h
  obtain ⟨keyFingerprints, hkeys, h⟩ := bind_eq_ok.mp h
  cases h
  have hmap := forall₂_fingerprints howners
  have hlength : request.owners.length = ownerFingerprints.length := by
    simpa using congrArg List.length hmap
  refine ⟨ownerFingerprints, keyFingerprints, hmap, forall₂_fingerprints hkeys, rfl, rfl, ?_, ?_⟩
  · exact hlength ▸ request.owners_length
  · rw [List.length_map, of_decide_eq_true (guardThat_eq_ok.mp hcount), hlength]

/-! ## Which requests a transaction has -/

theorem filter_eq_nil_of_ne {α κ : Type} [DecidableEq κ] {key : α → κ} {list : List α} {k : κ}
    (h : ∀ a ∈ list, key a ≠ k) : list.filter (fun a => decide (key a = k)) = [] :=
  List.filter_eq_nil_iff.mpr fun a ha => by simpa using h a ha

theorem filter_eq_self_of_eq {α κ : Type} [DecidableEq κ] {key : α → κ} {list : List α} {k : κ}
    (h : ∀ a ∈ list, key a = k) : list.filter (fun a => decide (key a = k)) = list :=
  List.filter_eq_self.mpr fun a ha => by simpa using h a ha

/-- When everything that comes from an entry carries its key, and keys are distinct, what carries the key of an entry is
what comes from it. -/
theorem filter_flatMap_of_nodup {α β κ : Type} [DecidableEq κ] (key : α → κ) (tag : β → κ) {f : α → List β} {list : List α}
    (htag : ∀ a, ∀ b ∈ f a, tag b = key a) (hnodup : (list.map key).Nodup) {a : α} (ha : a ∈ list) :
    (list.flatMap f).filter (fun b => decide (tag b = key a)) = f a := by
  induction list with
  | nil => cases ha
  | cons first rest ih =>
      rw [List.map_cons, List.nodup_cons] at hnodup
      rw [List.flatMap_cons, List.filter_append]
      rcases List.mem_cons.mp ha with rfl | ha
      · rw [filter_eq_self_of_eq (htag a), filter_eq_nil_of_ne, List.append_nil]
        intro b hb heq
        obtain ⟨other, hother, hb⟩ := List.mem_flatMap.mp hb
        exact hnodup.1 (List.mem_map.mpr ⟨other, hother, by rw [← htag other b hb, heq]⟩)
      · rw [ih hnodup.2 ha, filter_eq_nil_of_ne, List.nil_append]
        intro b hb heq
        exact hnodup.1 (List.mem_map.mpr ⟨a, ha, by rw [← heq, htag first b hb]⟩)

theorem mem_requestsAt {count : Nat} {owners keys : List String} 
    {place : PreparedTopologyTransaction × Nat} {found : PreparedSigningRequest} :
    found ∈ requestsAt count owners keys place
      ↔ (∃ fingerprint ∈ owners, found = signingRequest place.2 place.1 .owner fingerprint)
        ∨ place.2 + 1 = count ∧ ∃ fingerprint ∈ keys, found = signingRequest place.2 place.1 .partySigningKey fingerprint := by
  rw [requestsAt, List.mem_append, List.mem_map]
  refine or_congr (by simp only [eq_comm]) ?_
  split_ifs with hlast
  · simp [hlast, eq_comm]
  · simp [hlast]

theorem transactionHash_of_mem_requestsAt {count : Nat} {owners keys : List String}
    {place : PreparedTopologyTransaction × Nat} {found : PreparedSigningRequest}
    (h : found ∈ requestsAt count owners keys place) : found.transactionHash = place.1.transactionHash := by
  rcases mem_requestsAt.mp h with ⟨_, -, rfl⟩ | ⟨-, _, -, rfl⟩
  · rfl
  · rfl

section Prepared

variable {owners keys : List String} (hprepares : Prepares owners keys prepared)
include hprepares

theorem requestsOf_eq (hdistinct : (prepared.transactions.map (·.transactionHash)).Nodup)
    {place : PreparedTopologyTransaction × Nat} (hplace : place ∈ prepared.transactions.zipIdx) :
    prepared.requestsOf place.1 = requestsAt prepared.transactions.length owners keys place := by
  rw [PreparedDecentralizedParty.requestsOf, hprepares.requests]
  refine filter_flatMap_of_nodup (fun place : PreparedTopologyTransaction × Nat => toHex place.1.transactionHash)
    (fun found : PreparedSigningRequest => toHex found.transactionHash) (fun a b hb => ?_) ?_ hplace
  · rw [transactionHash_of_mem_requestsAt hb]
  · have hmap : prepared.transactions.zipIdx.map (fun place => toHex place.1.transactionHash)
        = (prepared.transactions.map (·.transactionHash)).map toHex := by
      have hfst := congrArg (List.map fun found : PreparedTopologyTransaction => toHex found.transactionHash)
        (List.zipIdx_map_fst 0 prepared.transactions)
      rw [List.map_map] at hfst
      rw [List.map_map]
      exact hfst
    rw [hmap]
    exact hdistinct.map fun _ _ => toHex_injective

/-- Requests with one id are one request. -/
theorem request_eq_of_id {found other : PreparedSigningRequest} (hfound : found ∈ prepared.signingRequests)
    (hother : other ∈ prepared.signingRequests) (hid : found.id = other.id) : found = other := by
  have hshape : ∀ found ∈ prepared.signingRequests, ∃ place ∈ prepared.transactions.zipIdx, ∃ role fingerprint,
      found = signingRequest place.2 place.1 role fingerprint := by
    intro found hfound
    rw [hprepares.requests, List.mem_flatMap] at hfound
    obtain ⟨place, hplace, hfound⟩ := hfound
    rcases mem_requestsAt.mp hfound with ⟨fingerprint, -, h⟩ | ⟨-, fingerprint, -, h⟩
    · exact ⟨place, hplace, .owner, fingerprint, h⟩
    · exact ⟨place, hplace, .partySigningKey, fingerprint, h⟩
  obtain ⟨⟨transaction, index⟩, hplace, role, fingerprint, rfl⟩ := hshape _ hfound
  obtain ⟨⟨transaction', index'⟩, hplace', role', fingerprint', rfl⟩ := hshape _ hother
  obtain ⟨hindex, hrole, hfingerprint⟩ := requestId_injective hid
  dsimp only at hindex
  subst hindex hrole hfingerprint
  rw [List.mem_zipIdx_iff_getElem?] at hplace hplace'
  have htransaction : transaction = transaction' := Option.some.inj (hplace.symm.trans hplace')
  rw [htransaction]

/-- The requests by their ids. -/
theorem expected_get {id : String} {found : PreparedSigningRequest} :
    (KeyedMap.ofEntries (prepared.signingRequests.map fun request => (request.id, request))).get id = some found
      ↔ found ∈ prepared.signingRequests ∧ found.id = id := by
  have hsound : ∀ {id found},
      (KeyedMap.ofEntries (prepared.signingRequests.map fun request => (request.id, request))).get id = some found →
        found ∈ prepared.signingRequests ∧ found.id = id := by
    intro id found h
    obtain ⟨request, hrequest, heq⟩ := List.mem_map.mp (KeyedMap.mem_of_get_ofEntries h)
    cases heq
    exact ⟨hrequest, rfl⟩
  refine ⟨hsound, fun h => ?_⟩
  have hkey : id ∈ (KeyedMap.ofEntries (prepared.signingRequests.map fun request => (request.id, request))).keys := by
    rw [KeyedMap.mem_keys_ofEntries]
    exact ⟨found, List.mem_map.mpr ⟨found, h.1, by rw [h.2]⟩⟩
  obtain ⟨other, hother⟩ := KeyedMap.mem_keys.mp hkey
  obtain ⟨hmem, hid⟩ := hsound hother
  rw [hother, request_eq_of_id hprepares hmem h.1 (hid.trans h.2.symm)]

/-! ## Counting signatures by role -/

section Place

variable {seen : List String} {place : PreparedTopologyTransaction × Nat}
  (hdistinct : (prepared.transactions.map (·.transactionHash)).Nodup) (hplace : place ∈ prepared.transactions.zipIdx)
include hdistinct hplace

theorem countP_requestsOf (test : PreparedSigningRequest → Bool) :
    (prepared.requestsOf place.1).countP test
      = owners.countP (fun fingerprint => test (signingRequest place.2 place.1 .owner fingerprint))
        + if place.2 + 1 = prepared.transactions.length then
            keys.countP fun fingerprint => test (signingRequest place.2 place.1 .partySigningKey fingerprint)
          else 0 := by
  rw [requestsOf_eq hprepares hdistinct hplace, requestsAt, List.countP_append, List.countP_map]
  split_ifs
  · rw [List.countP_map]
    rfl
  · rfl

theorem provided_owner :
    prepared.provided seen .owner place.1
      = owners.countP fun fingerprint => decide (requestId place.2 .owner fingerprint ∈ seen) := by
  rw [PreparedDecentralizedParty.provided, countP_requestsOf hprepares hdistinct hplace]
  have hnone : (keys.countP fun fingerprint =>
      decide ((signingRequest place.2 place.1 .partySigningKey fingerprint).role = .owner
        ∧ (signingRequest place.2 place.1 .partySigningKey fingerprint).id ∈ seen)) = 0 :=
    List.countP_eq_zero.mpr fun _ _ => by simp [signingRequest]
  rw [hnone, ite_self, Nat.add_zero]
  exact List.countP_congr fun fingerprint _ => by simp [signingRequest]

theorem provided_partySigningKey :
    prepared.provided seen .partySigningKey place.1
      = if place.2 + 1 = prepared.transactions.length then
          keys.countP fun fingerprint => decide (requestId place.2 .partySigningKey fingerprint ∈ seen)
        else 0 := by
  rw [PreparedDecentralizedParty.provided, countP_requestsOf hprepares hdistinct hplace]
  have hnone : (owners.countP fun fingerprint =>
      decide ((signingRequest place.2 place.1 .owner fingerprint).role = .partySigningKey
        ∧ (signingRequest place.2 place.1 .owner fingerprint).id ∈ seen)) = 0 :=
    List.countP_eq_zero.mpr fun _ _ => by simp [signingRequest]
  rw [hnone, Nat.zero_add]
  split_ifs
  · exact List.countP_congr fun fingerprint _ => by simp [signingRequest]
  · rfl

theorem ownerRequired_eq :
    prepared.ownerRequired place = if place.2 = 0 then (owners.length : Int) else prepared.ownerThreshold := by
  rw [PreparedDecentralizedParty.ownerRequired, countP_requestsOf hprepares hdistinct hplace]
  simp [signingRequest]

theorem partyRequired_eq :
    prepared.partyRequired place.1 = if place.2 + 1 = prepared.transactions.length then keys.length else 0 := by
  rw [PreparedDecentralizedParty.partyRequired, countP_requestsOf hprepares hdistinct hplace]
  simp [signingRequest]

/-- The thresholds that are checked for the transaction at a place. -/
theorem checkTransaction_eq_ok :
    prepared.checkTransaction seen place = .ok ()
      ↔ (place.2 = 0 → ∀ fingerprint ∈ owners, requestId place.2 .owner fingerprint ∈ seen)
        ∧ (place.2 ≠ 0 → prepared.ownerThreshold
            ≤ owners.countP fun fingerprint => decide (requestId place.2 .owner fingerprint ∈ seen))
        ∧ (place.2 + 1 = prepared.transactions.length →
            ∀ fingerprint ∈ keys, requestId place.2 .partySigningKey fingerprint ∈ seen) := by
  have hall : ∀ (fingerprints : List String) (role : SigningRole),
      (fingerprints.length ≤ fingerprints.countP fun fingerprint => decide (requestId place.2 role fingerprint ∈ seen))
        ↔ ∀ fingerprint ∈ fingerprints, requestId place.2 role fingerprint ∈ seen := by
    intro fingerprints role
    rw [← Nat.le_antisymm_iff.trans (and_iff_right List.countP_le_length), List.countP_eq_length]
    simp only [decide_eq_true_eq]
  have hpasses : ∀ (missing : Prop) [Decidable missing] (message : String),
      (if missing then .error message else .ok () : Except String Unit) = .ok () ↔ ¬ missing := by
    intro missing _ message
    split_ifs with h
    · simp [h]
    · simp [h]
  rw [PreparedDecentralizedParty.checkTransaction, hpasses, provided_owner hprepares hdistinct hplace,
    provided_partySigningKey hprepares hdistinct hplace, ownerRequired_eq hprepares hdistinct hplace,
    partyRequired_eq hprepares hdistinct hplace, ← hall owners, ← hall keys]
  generalize (owners.countP fun fingerprint => decide (requestId place.2 .owner fingerprint ∈ seen)) = ownersSigned
  generalize (keys.countP fun fingerprint => decide (requestId place.2 .partySigningKey fingerprint ∈ seen)) = keysSigned
  split_ifs <;> omega

end Place

end Prepared

/-! ## The loop over the signatures -/

section Collect

variable {expected : KeyedMap String PreparedSigningRequest}

/-- The signature that goes with a transaction, if the request of a detached signature is for its hash. -/
def signatureOf (expected : KeyedMap String PreparedSigningRequest) (hash : List UInt8)
    (detached : DecentralizedPartyDetachedSignature) : Option ExternalPartySignature :=
  (expected.get detached.signingRequestId).bind fun request =>
    if request.transactionHash = hash then some (signatureFor request detached.result) else none

theorem get_add {state : Collected} {request : PreparedSigningRequest}
    {detached : DecentralizedPartyDetachedSignature} (hget : expected.get detached.signingRequestId = some request)
    (hash : List UInt8) :
    ((state.add request detached).signaturesByHash.get (toHex hash)).getD []
      = (state.signaturesByHash.get (toHex hash)).getD [] ++ (signatureOf expected hash detached).toList := by
  rw [Collected.add, KeyedMap.get_set, signatureOf, hget, Option.bind_some]
  by_cases hhash : request.transactionHash = hash
  · simp [hhash]
  · have hne : toHex hash ≠ toHex request.transactionHash := fun h => hhash (toHex_injective h).symm
    simp [hhash, hne]

/-- What the loop refuses is an unknown id, an id that has been seen, and an empty signature. -/
structure Admitted (expected : KeyedMap String PreparedSigningRequest) (seen : List String)
    (signatures : List DecentralizedPartyDetachedSignature) : Prop where
  known : ∀ detached ∈ signatures, ∃ request, expected.get detached.signingRequestId = some request
  nonempty : ∀ detached ∈ signatures, detached.result.signature ≠ []
  once : (signatures.map (·.signingRequestId)).Nodup
  fresh : ∀ detached ∈ signatures, detached.signingRequestId ∉ seen

theorem collect_ok {state result : Collected} {signatures : List DecentralizedPartyDetachedSignature}
    (h : collect expected state signatures = .ok result) :
    Admitted expected state.seen signatures
      ∧ result.seen = state.seen ++ signatures.map (·.signingRequestId)
      ∧ ∀ hash, (result.signaturesByHash.get (toHex hash)).getD []
        = (state.signaturesByHash.get (toHex hash)).getD [] ++ signatures.filterMap (signatureOf expected hash) := by
  induction signatures generalizing state with
  | nil =>
      cases h
      exact ⟨⟨by simp, by simp, List.nodup_nil, by simp⟩, by simp, by simp⟩
  | cons detached rest ih =>
      rw [collect] at h
      split at h
      · cases h
      · rename_i request hget
        split_ifs at h with hseen hempty
        obtain ⟨hadmitted, hresult, hsignatures⟩ := ih h
        have hfresh : ∀ other ∈ rest, other.signingRequestId ∉ state.seen
            ∧ other.signingRequestId ≠ detached.signingRequestId := by
          intro other hother
          have hnot := hadmitted.fresh other hother
          simpa [Collected.add, not_or] using hnot
        refine ⟨⟨?_, ?_, ?_, ?_⟩, ?_, fun hash => ?_⟩
        · exact List.forall_mem_cons.mpr ⟨⟨request, hget⟩, hadmitted.known⟩
        · exact List.forall_mem_cons.mpr ⟨fun hnil => hempty (by rw [hnil, List.length_nil]), hadmitted.nonempty⟩
        · rw [List.map_cons, List.nodup_cons]
          refine ⟨fun hmem => ?_, hadmitted.once⟩
          obtain ⟨other, hother, heq⟩ := List.mem_map.mp hmem
          exact (hfresh other hother).2 heq
        · exact List.forall_mem_cons.mpr ⟨hseen, fun other hother => (hfresh other hother).1⟩
        · rw [hresult, Collected.add, List.map_cons, List.append_assoc, List.singleton_append]
        · rw [hsignatures, get_add hget, List.append_assoc, List.filterMap_cons]
          cases signatureOf expected hash detached <;> simp

theorem collect_succeeds {state : Collected} {signatures : List DecentralizedPartyDetachedSignature}
    (h : Admitted expected state.seen signatures) : ∃ result, collect expected state signatures = .ok result := by
  induction signatures generalizing state with
  | nil => exact ⟨state, rfl⟩
  | cons detached rest ih =>
      obtain ⟨request, hget⟩ := h.known detached List.mem_cons_self
      have hnodup := List.nodup_cons.mp h.once
      have hrest : Admitted expected (state.add request detached).seen rest := by
        refine ⟨fun other hother => h.known other (List.mem_cons_of_mem _ hother),
          fun other hother => h.nonempty other (List.mem_cons_of_mem _ hother), hnodup.2, fun other hother => ?_⟩
        rw [Collected.add, List.mem_append, List.mem_singleton]
        rintro (hseen | heq)
        · exact h.fresh other (List.mem_cons_of_mem _ hother) hseen
        · exact hnodup.1 (List.mem_map.mpr ⟨other, hother, heq⟩)
      obtain ⟨result, hresult⟩ := ih hrest
      refine ⟨result, ?_⟩
      rw [collect, hget]
      dsimp only
      rw [if_neg (h.fresh detached List.mem_cons_self),
        if_neg fun hlength => h.nonempty detached List.mem_cons_self (List.length_eq_zero_iff.mp hlength)]
      exact hresult

end Collect

/-! ## Complete signatures -/

/-- A key has signed a transaction in a role: one of the detached signatures is for such a request. -/
def Signed (prepared : PreparedDecentralizedParty) (signatures : List DecentralizedPartyDetachedSignature)
    (transaction : PreparedTopologyTransaction) (role : SigningRole) (fingerprint : Option String) : Prop :=
  ∃ detached ∈ signatures, ∃ request ∈ prepared.signingRequests,
    request.id = detached.signingRequestId ∧ request.role = role
      ∧ request.transactionHash = transaction.transactionHash ∧ some request.publicKeyFingerprint = fingerprint

instance {signatures : List DecentralizedPartyDetachedSignature} {transaction : PreparedTopologyTransaction}
    {role : SigningRole} {fingerprint : Option String} :
    Decidable (Signed prepared signatures transaction role fingerprint) := by
  unfold Signed
  infer_instance

/-- What the signatures of a party have to be before it may be allocated. The owners of a request are distinct. -/
structure Complete (request : CreateDecentralizedPartyRequest sha256) (prepared : PreparedDecentralizedParty)
    (signatures : List DecentralizedPartyDetachedSignature) : Prop where
  known : ∀ detached ∈ signatures, ∃ found ∈ prepared.signingRequests, found.id = detached.signingRequestId
  nonempty : ∀ detached ∈ signatures, detached.result.signature ≠ []
  once : (signatures.map (·.signingRequestId)).Nodup
  namespaceSigned : ∀ transaction ∈ prepared.transactions.head?, ∀ owner ∈ request.owners,
    Signed prepared signatures transaction .owner (keyFingerprint sha256 owner)
  othersSigned : ∀ transaction ∈ prepared.transactions.tail, request.ownerThreshold
    ≤ request.owners.countP fun owner =>
      decide (Signed prepared signatures transaction .owner (keyFingerprint sha256 owner))
  lastSigned : ∀ transaction ∈ prepared.transactions.getLast?, ∀ key ∈ request.partySigningKeys,
    Signed prepared signatures transaction .partySigningKey (keyFingerprint sha256 key)

/-- The signature that is sent with a transaction, if a detached signature was made for it. -/
def madeFor (prepared : PreparedDecentralizedParty) (transaction : PreparedTopologyTransaction)
    (detached : DecentralizedPartyDetachedSignature) : Option GrpcSignature :=
  (prepared.signingRequests.find? fun request => decide (request.id = detached.signingRequestId)).bind fun request =>
    if request.transactionHash = transaction.transactionHash then
      some
        { format := mapSignatureFormat detached.result.format
          signature := detached.result.signature
          signedBy := request.publicKeyFingerprint
          signingAlgorithmSpec := mapSigningAlgorithm detached.result.signingAlgorithmSpec }
    else none

section Complete

variable {owners keys : List String} {signatures : List DecentralizedPartyDetachedSignature}
  {place : PreparedTopologyTransaction × Nat} (hprepares : Prepares owners keys prepared)
include hprepares

theorem find_request (id : String) :
    (prepared.signingRequests.find? fun request => decide (request.id = id))
      = (KeyedMap.ofEntries (prepared.signingRequests.map fun request => (request.id, request))).get id := by
  cases hget : (KeyedMap.ofEntries (prepared.signingRequests.map fun request => (request.id, request))).get id with
  | none =>
      rw [List.find?_eq_none]
      intro found hfound
      rw [decide_eq_true_eq]
      intro hid
      rw [(expected_get hprepares).mpr ⟨hfound, hid⟩] at hget
      cases hget
  | some found =>
      obtain ⟨hfound, hid⟩ := (expected_get hprepares).mp hget
      cases hfind : prepared.signingRequests.find? fun request => decide (request.id = id) with
      | none => exact absurd hid (by simpa using List.find?_eq_none.mp hfind found hfound)
      | some other =>
          have hother : other.id = id := by simpa using List.find?_some hfind
          rw [request_eq_of_id hprepares (List.mem_of_find?_eq_some hfind) hfound (hother.trans hid.symm)]

theorem madeFor_eq (transaction : PreparedTopologyTransaction) (detached : DecentralizedPartyDetachedSignature) :
    (signatureOf (KeyedMap.ofEntries (prepared.signingRequests.map fun request => (request.id, request)))
        transaction.transactionHash detached).map toGeneratedSignature
      = madeFor prepared transaction detached := by
  rw [signatureOf, madeFor, find_request hprepares]
  cases (KeyedMap.ofEntries (prepared.signingRequests.map fun request => (request.id, request))).get
      detached.signingRequestId with
  | none => rfl
  | some request =>
      rw [Option.bind_some, Option.bind_some]
      split_ifs
      · rfl
      · rfl

section Place

variable (hdistinct : (prepared.transactions.map (·.transactionHash)).Nodup)
  (hplace : place ∈ prepared.transactions.zipIdx)
include hdistinct hplace

theorem mem_requests_of_hash {found : PreparedSigningRequest} :
    found ∈ prepared.signingRequests ∧ found.transactionHash = place.1.transactionHash
      ↔ found ∈ requestsAt prepared.transactions.length owners keys place := by
  rw [← requestsOf_eq hprepares hdistinct hplace, PreparedDecentralizedParty.requestsOf, List.mem_filter,
    decide_eq_true_eq]
  exact and_congr_right fun _ => ⟨congrArg toHex, fun h => toHex_injective h⟩

theorem signed_iff {role : SigningRole} {fingerprint : String}
    (hrequest : signingRequest place.2 place.1 role fingerprint
      ∈ requestsAt prepared.transactions.length owners keys place) :
    Signed prepared signatures place.1 role (some fingerprint)
      ↔ requestId place.2 role fingerprint ∈ signatures.map (·.signingRequestId) := by
  rw [List.mem_map]
  constructor
  · rintro ⟨detached, hdetached, found, hfound, hid, hrole, hhash, hfingerprint⟩
    refine ⟨detached, hdetached, ?_⟩
    rw [← hid]
    rcases mem_requestsAt.mp ((mem_requests_of_hash hprepares hdistinct hplace).mp ⟨hfound, hhash⟩)
      with ⟨_, -, rfl⟩ | ⟨-, _, -, rfl⟩
    · obtain rfl := hrole
      rw [← Option.some.inj hfingerprint]
      rfl
    · obtain rfl := hrole
      rw [← Option.some.inj hfingerprint]
      rfl
  · rintro ⟨detached, hdetached, hid⟩
    obtain ⟨hfound, hhash⟩ := (mem_requests_of_hash hprepares hdistinct hplace).mpr hrequest
    exact ⟨detached, hdetached, _, hfound, hid.symm, rfl, hhash, rfl⟩

end Place

omit hprepares in
theorem forall_fingerprints {values : List DecentralizedPartyKey} {fingerprints : List String}
    (h : values.map (keyFingerprint sha256) = fingerprints.map some) (P : Option String → Prop) :
    (∀ value ∈ values, P (keyFingerprint sha256 value)) ↔ ∀ fingerprint ∈ fingerprints, P (some fingerprint) := by
  rw [← List.forall_mem_map (f := keyFingerprint sha256), h, List.forall_mem_map]

omit hprepares in
theorem countP_fingerprints {values : List DecentralizedPartyKey} {fingerprints : List String}
    (h : values.map (keyFingerprint sha256) = fingerprints.map some) (p : Option String → Bool) :
    values.countP (fun value => p (keyFingerprint sha256 value)) = fingerprints.countP fun fingerprint => p (some fingerprint) := by
  have hcount := congrArg (List.countP p) h
  rwa [List.countP_map, List.countP_map] at hcount

/-- The loop over the transactions checks the thresholds. -/
theorem thresholds_iff (hdistinct : (prepared.transactions.map (·.transactionHash)).Nodup)
    (howners : request.owners.map (keyFingerprint sha256) = owners.map some)
    (hkeys : request.partySigningKeys.map (keyFingerprint sha256) = keys.map some)
    (hthreshold : prepared.ownerThreshold = request.ownerThreshold) :
    checkAll (prepared.checkTransaction (signatures.map (·.signingRequestId))) prepared.transactions.zipIdx = .ok ()
      ↔ (∀ transaction ∈ prepared.transactions.head?, ∀ owner ∈ request.owners,
          Signed prepared signatures transaction .owner (keyFingerprint sha256 owner))
        ∧ (∀ transaction ∈ prepared.transactions.tail, request.ownerThreshold
          ≤ request.owners.countP fun owner =>
            decide (Signed prepared signatures transaction .owner (keyFingerprint sha256 owner)))
        ∧ (∀ transaction ∈ prepared.transactions.getLast?, ∀ key ∈ request.partySigningKeys,
          Signed prepared signatures transaction .partySigningKey (keyFingerprint sha256 key)) := by
  have howner : ∀ place ∈ prepared.transactions.zipIdx, ∀ fingerprint ∈ owners,
      (Signed prepared signatures place.1 .owner (some fingerprint)
        ↔ requestId place.2 .owner fingerprint ∈ signatures.map (·.signingRequestId)) := fun place hplace fingerprint h =>
    signed_iff hprepares hdistinct hplace (mem_requestsAt.mpr (.inl ⟨fingerprint, h, rfl⟩))
  have hkey : ∀ place ∈ prepared.transactions.zipIdx, place.2 + 1 = prepared.transactions.length →
      ∀ fingerprint ∈ keys, (Signed prepared signatures place.1 .partySigningKey (some fingerprint)
        ↔ requestId place.2 .partySigningKey fingerprint ∈ signatures.map (·.signingRequestId)) :=
    fun place hplace hlast fingerprint h =>
      signed_iff hprepares hdistinct hplace (mem_requestsAt.mpr (.inr ⟨hlast, fingerprint, h, rfl⟩))
  have hplaces : (∀ place ∈ prepared.transactions.zipIdx,
        prepared.checkTransaction (signatures.map (·.signingRequestId)) place = .ok ())
      ↔ ∀ place ∈ prepared.transactions.zipIdx,
        (place.2 = 0 → ∀ owner ∈ request.owners,
            Signed prepared signatures place.1 .owner (keyFingerprint sha256 owner))
          ∧ (place.2 ≠ 0 → request.ownerThreshold ≤ request.owners.countP fun owner =>
              decide (Signed prepared signatures place.1 .owner (keyFingerprint sha256 owner)))
          ∧ (place.2 + 1 = prepared.transactions.length → ∀ key ∈ request.partySigningKeys,
              Signed prepared signatures place.1 .partySigningKey (keyFingerprint sha256 key)) := by
    refine forall₂_congr fun place hplace => ?_
    rw [checkTransaction_eq_ok hprepares hdistinct hplace, hthreshold,
      forall_fingerprints howners (Signed prepared signatures place.1 .owner),
      forall_fingerprints hkeys (Signed prepared signatures place.1 .partySigningKey),
      countP_fingerprints howners fun fingerprint => decide (Signed prepared signatures place.1 .owner fingerprint)]
    have hcount : (owners.countP fun fingerprint =>
          decide (requestId place.2 .owner fingerprint ∈ signatures.map (·.signingRequestId)))
        = owners.countP fun fingerprint => decide (Signed prepared signatures place.1 .owner (some fingerprint)) :=
      List.countP_congr fun fingerprint h => by
        simp only [decide_eq_true_eq, howner place hplace fingerprint h]
    rw [hcount]
    exact and_congr (forall_congr' fun _ => forall₂_congr fun fingerprint h => (howner place hplace fingerprint h).symm)
      (and_congr Iff.rfl (forall_congr' fun hlast =>
        forall₂_congr fun fingerprint h => (hkey place hplace hlast fingerprint h).symm))
  rw [checkAll_eq_ok, hplaces]
  simp only [Prod.forall, List.mem_zipIdx_iff_getElem?]
  constructor
  · intro h
    refine ⟨fun transaction htransaction => ?_, fun transaction htransaction => ?_, fun transaction htransaction => ?_⟩
    · rw [List.head?_eq_getElem?] at htransaction
      exact (h transaction 0 htransaction).1 rfl
    · obtain ⟨index, hindex⟩ := List.mem_iff_getElem?.mp htransaction
      rw [List.getElem?_tail] at hindex
      exact (h transaction (index + 1) hindex).2.1 (Nat.succ_ne_zero index)
    · rw [List.getLast?_eq_getElem?] at htransaction
      have hlength := (List.getElem?_eq_some_iff.mp htransaction).1
      exact (h transaction _ htransaction).2.2 (by omega)
  · rintro ⟨hfirst, hothers, hlast⟩ transaction index hindex
    refine ⟨fun hzero => ?_, fun hne => ?_, fun hend => ?_⟩
    · subst hzero
      exact hfirst transaction (by rw [List.head?_eq_getElem?]; exact hindex)
    · obtain ⟨index, rfl⟩ := Nat.exists_eq_succ_of_ne_zero hne
      exact hothers transaction (List.mem_iff_getElem?.mpr ⟨index, by rw [List.getElem?_tail]; exact hindex⟩)
    · refine hlast transaction ?_
      rw [List.getLast?_eq_getElem?, ← hend]
      exact hindex

end Complete

/-- For every party that was prepared, with pairwise distinct hashes, and all detached signatures: an allocation is sent if
and only if they are complete, and it carries with each transaction exactly the signatures that were made for it. -/
theorem finalize_sends_iff_complete
    (hprepared : prepareDecentralizedParty request participantId generateTransactions = .ok prepared)
    (hdistinct : (prepared.transactions.map (·.transactionHash)).Nodup)
    (signatures : List DecentralizedPartyDetachedSignature) :
    ((∃ sent, finalizeDecentralizedParty prepared signatures = .ok sent) ↔ Complete request prepared signatures)
      ∧ ∀ sent, finalizeDecentralizedParty prepared signatures = .ok sent →
        sent.onboardingTransactions = prepared.transactions.map fun transaction =>
          { transaction := transaction.serializedTransaction
            signatures := signatures.filterMap (madeFor prepared transaction) } := by
  obtain ⟨owners, keys, howners, hkeys, hthreshold, hprepares⟩ := prepares_of_prepare hprepared
  have hsome : prepared.signingRequests.length ≠ 0 := by
    have hplace : 0 < prepared.transactions.length := by
      rw [hprepares.transactions]
      omega
    have howner := hprepares.owners
    have hmem : signingRequest 0 prepared.transactions[0] .owner owners[0] ∈ prepared.signingRequests := by
      rw [hprepares.requests, List.mem_flatMap]
      refine ⟨(prepared.transactions[0], 0), ?_, mem_requestsAt.mpr (.inl ⟨owners[0], List.getElem_mem _, rfl⟩)⟩
      rw [List.mem_zipIdx_iff_getElem?]
      exact List.getElem?_eq_getElem hplace
    exact fun hzero => absurd (List.length_eq_zero_iff.mp hzero) (List.ne_nil_of_mem hmem)
  have hruns : ∀ sent, finalizeDecentralizedParty prepared signatures = .ok sent ↔ ∃ collected,
      collect (KeyedMap.ofEntries (prepared.signingRequests.map fun request => (request.id, request)))
          ⟨[], KeyedMap.empty⟩ signatures = .ok collected
        ∧ checkAll (prepared.checkTransaction collected.seen) prepared.transactions.zipIdx = .ok ()
        ∧ prepared.allocation collected = sent := by
    intro sent
    constructor
    · intro h
      obtain ⟨_, -, h⟩ := bind_eq_ok.mp h
      obtain ⟨collected, hcollected, h⟩ := bind_eq_ok.mp h
      obtain ⟨_, hcheck, h⟩ := bind_eq_ok.mp h
      exact ⟨collected, hcollected, hcheck, Except.ok.inj h⟩
    · rintro ⟨collected, hcollected, hcheck, rfl⟩
      exact bind_eq_ok.mpr ⟨(), guardThat_eq_ok.mpr (decide_eq_true hsome),
        bind_eq_ok.mpr ⟨collected, hcollected, bind_eq_ok.mpr ⟨(), hcheck, rfl⟩⟩⟩
  have hthresholds := @thresholds_iff _ _ _ _ _ signatures hprepares hdistinct howners hkeys hthreshold
  refine ⟨⟨?_, fun hcomplete => ?_⟩, fun sent hsent => ?_⟩
  · rintro ⟨sent, hsent⟩
    obtain ⟨collected, hcollected, hcheck, -⟩ := (hruns sent).mp hsent
    obtain ⟨hadmitted, hseen, -⟩ := collect_ok hcollected
    rw [hseen, List.nil_append, hthresholds] at hcheck
    refine ⟨fun detached h => ?_, hadmitted.nonempty, hadmitted.once, hcheck.1, hcheck.2.1, hcheck.2.2⟩
    obtain ⟨found, hfound⟩ := hadmitted.known detached h
    exact ⟨found, (expected_get hprepares).mp hfound⟩
  · obtain ⟨collected, hcollected⟩ := @collect_succeeds
      (KeyedMap.ofEntries (prepared.signingRequests.map fun request => (request.id, request))) ⟨[], KeyedMap.empty⟩ signatures
      ⟨fun detached h => by
        obtain ⟨found, hfound, hid⟩ := hcomplete.known detached h
        exact ⟨found, (expected_get hprepares).mpr ⟨hfound, hid⟩⟩, hcomplete.nonempty, hcomplete.once, by simp⟩
    refine ⟨_, (hruns _).mpr ⟨collected, hcollected, ?_, rfl⟩⟩
    rw [(collect_ok hcollected).2.1, List.nil_append, hthresholds]
    exact ⟨hcomplete.namespaceSigned, hcomplete.othersSigned, hcomplete.lastSigned⟩
  · obtain ⟨collected, hcollected, -, rfl⟩ := (hruns sent).mp hsent
    refine List.map_congr_left fun transaction _ => ?_
    rw [(collect_ok hcollected).2.2, KeyedMap.get_empty, Option.getD_none, List.nil_append, List.map_filterMap]
    simp only [madeFor_eq hprepares]

section Example

/-- Two owners, of whom one has to sign, and one key of the party. -/
def twoOwners : CreateDecentralizedPartyRequest fun bytes => bytes where
  synchronizer := "s"
  partyHint := "p"
  owners := [⟨.raw, [1], .ecCurve25519⟩, ⟨.raw, [2], .ecCurve25519⟩].map DecentralizedPartyKey.mk
  ownerThreshold := 1
  partySigningKeys := [⟨.raw, [1], .ecCurve25519⟩].map DecentralizedPartyKey.mk
  partySigningThreshold := 1
  localParticipantObservationOnly := false
  otherConfirmingParticipantUids := []
  confirmationThreshold := 1
  observingParticipantUids := []
  identityProviderId := none
  waitForAllocation := none
  userId := none
  owners_length := by decide
  owners_unique := ⟨by decide, by decide +kernel⟩
  signing_unique := ⟨by decide, by decide +kernel⟩
  threshold_within := by decide
  signing_within := by decide

/-- A participant that generates four transactions, whose hashes are the four first numbers. -/
def fourTransactions (_ : GenerateTransactionsRequest) : Except String (List GeneratedTransaction) :=
  .ok [⟨[10], [0]⟩, ⟨[11], [1]⟩, ⟨[12], [2]⟩, ⟨[13], [3]⟩]

/-- A signature for every request. -/
def everySignature (prepared : PreparedDecentralizedParty) : List DecentralizedPartyDetachedSignature :=
  prepared.signingRequests.map fun request => ⟨request.id, [1], .raw, .ed25519⟩

theorem finalize_sends_iff_complete_twoOwners :
    ∃ prepared, prepareDecentralizedParty twoOwners "participant" fourTransactions = .ok prepared
      ∧ (prepared.transactions.map (·.transactionHash)).Nodup
      ∧ Complete twoOwners prepared (everySignature prepared) := by
  have hprepared : prepareDecentralizedParty twoOwners "participant" fourTransactions = .ok _ := rfl
  refine ⟨_, hprepared, by decide, (finalize_sends_iff_complete hprepared (by decide) _).1.mp ?_⟩
  have hok : ∀ outcome : Except String AllocateExternalPartyRequest,
      outcome.toOption.isSome = true → ∃ sent, outcome = .ok sent := fun outcome h =>
    (Option.isSome_iff_exists.mp h).imp fun _ => toOption_eq_some_iff.mp
  refine hok _ ?_
  decide +kernel

end Example

end CantonSdk.Services
