import CantonSdk.Hashing.ElementBounds

/-!
# Keys stay in bounds

What is returned for an element stays in bounds exactly when no length of four bytes has its top bit set. The search for
a key never fails and reads inside the bytes unless such a length leads it in front of them, and what it returns lies
inside the outer sequence exactly when none of the lengths is such a length and the bit string ends before the sequence.
-/

set_option linter.all false

namespace CantonSdk.Hashing

open CantonSdk.Base

/-- What is returned for an element ends where its length field says, behind its header and within the bytes. -/
def ReadsInBounds (bytes : List UInt8) (offset : Int) : Prop :=
  ∀ element log, readAsn1Element offset bytes [] = (.ok element, log) →
    ∃ endOffset, element.endOffset = some endOffset ∧ offset < element.contentOffset ∧ element.contentOffset ≤ endOffset
      ∧ endOffset ≤ bytes.length ∧ endOffset - element.contentOffset = lengthField bytes offset

section Element

variable {bytes : List UInt8} {offset : Int}

theorem lengthField_lt (h : HasTopBitLength bytes offset) : lengthField bytes offset < 2 ^ 32 := by
  have hlt := bigEndian_lt ((bytes.drop (offset + 2).toNat).take 4)
  have hlength : ((bytes.drop (offset + 2).toNat).take 4).length ≤ 4 := List.length_take_le 4 _
  have hpow : 256 ^ ((bytes.drop (offset + 2).toNat).take 4).length ≤ 256 ^ 4 := Nat.pow_le_pow_right (by decide) hlength
  rw [lengthField, h.1, if_neg (by decide)]
  exact lt_of_lt_of_le hlt hpow

theorem content_le_stop : contentPlace bytes offset ≤ stopPlace bytes offset ↔ ¬ HasTopBitLength bytes offset := by
  rw [stopPlace, signedLength]
  split
  · rename_i htop
    have hlt := lengthField_lt htop
    exact ⟨fun h => by omega, fun h => absurd htop h⟩
  · rename_i htop
    exact ⟨fun _ => htop, fun _ => by omega⟩

theorem offset_lt_content : offset < contentPlace bytes offset := by
  rw [contentPlace]
  omega

theorem isElement_of_topBit (h : HasTopBitLength bytes offset) : IsElement bytes offset := by
  have hstop := mt content_le_stop.mp (not_not.mpr h)
  obtain ⟨hbyte, hlength, -⟩ := h
  have hcontent : contentPlace bytes offset = offset + 6 := by
    rw [contentPlace, hbyte]
    omega
  exact ⟨by omega, by omega, by omega, by omega⟩

/-- In front of the bytes there is neither a tag nor a length. -/
theorem readAsn1Element_front (h : offset ≤ -2) :
    (readAsn1Element offset bytes []).1 = .ok ⟨none, offset + 2, none⟩ := by
  have hnone : ∀ place : Int, place < 0 → byteAt bytes place = none := fun place hplace => by
    rw [byteAt, if_neg (by omega)]
  have hsum : offset + 1 + 1 = offset + 2 := by omega
  rw [readAsn1Element, run_bind, run_read, andThen_ok, if_neg (by omega), run_bind, readByte, run_bind, run_read,
    andThen_ok, run_bind, run_modify, andThen_ok, run_pure, andThen_ok, hnone offset (by omega), run_bind, readAsn1Length,
    run_bind, run_read, andThen_ok, if_neg (by omega), run_bind, readByte, run_bind, run_read, andThen_ok, run_bind,
    run_modify, andThen_ok, run_pure, andThen_ok, hnone (offset + 1) (by omega), readLengthFrom, hsum]
  rfl

/-- Behind the tag, an element at the start of the bytes or in front of them is read as it stands. -/
theorem readAsn1Element_result (h : -1 ≤ offset) :
    IsElement bytes offset ∧ (readAsn1Element offset bytes []).1 = .ok (elementAt bytes offset) ∨
      ¬ IsElement bytes offset ∧ ∃ message, (readAsn1Element offset bytes []).1 = .error message := by
  by_cases hheader : offset + 2 ≤ bytes.length
  · have hrun : readAsn1Element offset bytes []
        = (readAsn1Length (offset + 1) >>= elementOf (byteAt bytes offset)) bytes [offset] := by
      rw [readAsn1Element, run_bind, run_read, andThen_ok, if_neg (by omega), run_bind]
      rfl
    rw [hrun]
    rcases runsInside_element h hheader (byteAt bytes offset) with ⟨his, places, -, helement⟩ | ⟨hnot, message, places, -, helement⟩
    · rw [helement]
      exact .inl ⟨his, rfl⟩
    · rw [helement]
      exact .inr ⟨hnot, message, rfl⟩
  · refine .inr ⟨fun h => hheader h.header, "ASN.1 element header is truncated.", ?_⟩
    rw [readAsn1Element, run_bind, run_read, andThen_ok, if_pos (by omega), run_throw]

theorem readsInBounds_iff : ReadsInBounds bytes offset ↔ -1 ≤ offset ∧ ¬ HasTopBitLength bytes offset := by
  constructor
  · intro h
    have hoffset : -1 ≤ offset := by
      by_contra hfront
      obtain ⟨endOffset, hend, -⟩ := h _ _ (Prod.ext (readAsn1Element_front (by omega)) rfl)
      exact absurd hend (by simp)
    refine ⟨hoffset, fun htop => ?_⟩
    rcases readAsn1Element_result hoffset with ⟨-, hresult⟩ | ⟨hnot, -⟩
    · obtain ⟨endOffset, hend, -, hle, -⟩ := h _ _ (Prod.ext hresult rfl)
      rw [← Option.some.inj hend] at hle
      exact content_le_stop.mp hle htop
    · exact hnot (isElement_of_topBit htop)
  · rintro ⟨hoffset, htop⟩ element log hrun
    have hsigned : signedLength bytes offset = lengthField bytes offset := by rw [signedLength, if_neg htop]
    rcases readAsn1Element_result hoffset with ⟨his, hresult⟩ | ⟨-, message, hresult⟩
    · rw [hrun] at hresult
      obtain rfl := Except.ok.inj hresult
      refine ⟨stopPlace bytes offset, rfl, offset_lt_content, content_le_stop.mpr htop, his.stop, ?_⟩
      show stopPlace bytes offset - contentPlace bytes offset = _
      rw [stopPlace, hsigned]
      omega
    · rw [hrun] at hresult
      cases hresult

end Element

/-! ## The search for a key -/

/-- One computation goes on as the other, having read places inside the bytes. -/
def LeadsTo (bytes : List UInt8) {α : Type} (x y : Reading α) : Prop :=
  ∃ places, Inside bytes places ∧ ∀ log, x bytes log = y bytes (log ++ places)

section LeadsTo

variable {α β : Type} {bytes : List UInt8} {x y z : Reading β}

theorem RunsInside.leads {x : Reading α} {f : α → Reading β} {a : α} (hx : RunsInside bytes x (.ok a)) :
    LeadsTo bytes (x >>= f) (f a) := by
  obtain ⟨places, hplaces, hx⟩ := hx
  exact ⟨places, hplaces, fun log => by rw [run_bind, hx, andThen_ok]⟩

theorem LeadsTo.trans (hxy : LeadsTo bytes x y) (hyz : LeadsTo bytes y z) : LeadsTo bytes x z := by
  obtain ⟨places, hplaces, hxy⟩ := hxy
  obtain ⟨others, hothers, hyz⟩ := hyz
  refine ⟨places ++ others, ?_, fun log => by rw [hxy, hyz, List.append_assoc]⟩
  intro place hplace
  rcases List.mem_append.mp hplace with hmem | hmem
  · exact hplaces place hmem
  · exact hothers place hmem

theorem LeadsTo.runs {result : Except String β} (hxy : LeadsTo bytes x y) (hy : RunsInside bytes y result) :
    RunsInside bytes x result := by
  obtain ⟨places, hplaces, hxy⟩ := hxy
  obtain ⟨others, hothers, hy⟩ := hy
  refine ⟨places ++ others, ?_, fun log => by rw [hxy, hy, List.append_assoc]⟩
  intro place hplace
  rcases List.mem_append.mp hplace with hmem | hmem
  · exact hplaces place hmem
  · exact hothers place hmem

theorem LeadsTo.fails (hxy : LeadsTo bytes x y) (hy : FailsInside bytes y) : FailsInside bytes x :=
  ⟨hy.choose, hxy.runs hy.choose_spec⟩

end LeadsTo

section Key

variable {spki : List UInt8}

/-- Where the algorithm is looked for. -/
def algorithmPlace (spki : List UInt8) : Int := contentPlace spki 0

/-- Where the key is looked for. -/
def keyPlace (spki : List UInt8) : Int := stopPlace spki (algorithmPlace spki)

/-- The bytes pass every check in front of the key. -/
structure IdentifiesEd25519 (spki : List UInt8) : Prop where
  outer : IsElement spki 0
  outerTag : (elementAt spki 0).tag = some asn1SequenceTag.toUInt8
  algorithm : IsElement spki (algorithmPlace spki)
  algorithmTag : (elementAt spki (algorithmPlace spki)).tag = some asn1SequenceTag.toUInt8
  identifier : IsElement spki (contentPlace spki (algorithmPlace spki))
  ed25519 : isEd25519 spki (elementAt spki (contentPlace spki (algorithmPlace spki)))

theorem algorithmPlace_nonneg : 0 ≤ algorithmPlace spki := by
  rw [algorithmPlace, contentPlace]
  omega

/-- The identifier of the algorithm decides whether the key is looked for. -/
theorem behindAlgorithm_cases (spki : List UInt8) :
    (IsElement spki (contentPlace spki (algorithmPlace spki))
          ∧ isEd25519 spki (elementAt spki (contentPlace spki (algorithmPlace spki))))
        ∧ LeadsTo spki (extractBehindAlgorithm (elementAt spki (algorithmPlace spki)))
          (extractSubjectPublicKey (elementAt spki (algorithmPlace spki))) ∨
      ¬ (IsElement spki (contentPlace spki (algorithmPlace spki))
          ∧ isEd25519 spki (elementAt spki (contentPlace spki (algorithmPlace spki))))
        ∧ (RunsInside spki (extractBehindAlgorithm (elementAt spki (algorithmPlace spki))) (.ok none)
          ∨ FailsInside spki (extractBehindAlgorithm (elementAt spki (algorithmPlace spki)))) := by
  have hplace : 0 ≤ contentPlace spki (algorithmPlace spki) := algorithmPlace_nonneg.trans offset_lt_content.le
  have hleads : LeadsTo spki (extractBehindAlgorithm (elementAt spki (algorithmPlace spki))) _ := runsInside_read.leads
  rcases runsInside_readAsn1Element spki hplace with ⟨hidentifier, hread⟩ | ⟨hnot, hread⟩
  · have hbehind := hleads.trans hread.leads
    by_cases hed25519 : isEd25519 spki (elementAt spki (contentPlace spki (algorithmPlace spki)))
    · rw [if_pos hed25519] at hbehind
      exact .inl ⟨⟨hidentifier, hed25519⟩, hbehind⟩
    · rw [if_neg hed25519] at hbehind
      exact .inr ⟨fun h => hed25519 h.2, .inl (hbehind.runs runsInside_pure)⟩
  · exact .inr ⟨fun h => hnot h.1, .inr (hleads.fails hread.bind)⟩

theorem extract_cases (spki : List UInt8) :
    IdentifiesEd25519 spki
        ∧ LeadsTo spki extractEd25519PublicKey (extractSubjectPublicKey (elementAt spki (algorithmPlace spki))) ∨
      ¬ IdentifiesEd25519 spki
        ∧ (RunsInside spki extractEd25519PublicKey (.ok none) ∨ FailsInside spki extractEd25519PublicKey) := by
  rcases runsInside_readAsn1Element spki (le_refl 0) with ⟨houter, hread⟩ | ⟨hnot, hread⟩
  · have hleads : LeadsTo spki extractEd25519PublicKey _ := hread.leads
    by_cases houterTag : (elementAt spki 0).tag = some asn1SequenceTag.toUInt8
    · rw [if_neg (not_not.mpr houterTag)] at hleads
      rcases runsInside_readAsn1Element spki algorithmPlace_nonneg with ⟨halgorithm, hread⟩ | ⟨hnot, hread⟩
      · have hleads := hleads.trans hread.leads
        by_cases halgorithmTag : (elementAt spki (algorithmPlace spki)).tag = some asn1SequenceTag.toUInt8
        · rw [if_neg (not_not.mpr halgorithmTag)] at hleads
          rcases behindAlgorithm_cases spki with ⟨⟨hidentifier, hed25519⟩, hkey⟩ | ⟨hnot, hkey⟩
          · exact .inl ⟨⟨houter, houterTag, halgorithm, halgorithmTag, hidentifier, hed25519⟩, hleads.trans hkey⟩
          · exact .inr ⟨fun h => hnot ⟨h.identifier, h.ed25519⟩, hkey.imp hleads.runs hleads.fails⟩
        · rw [if_pos halgorithmTag] at hleads
          exact .inr ⟨fun h => halgorithmTag h.algorithmTag, .inl (hleads.runs runsInside_pure)⟩
      · exact .inr ⟨fun h => hnot h.algorithm, .inr (hleads.fails hread.bind)⟩
    · rw [if_pos houterTag] at hleads
      exact .inr ⟨fun h => houterTag h.outerTag, .inl (hleads.runs runsInside_pure)⟩
  · exact .inr ⟨fun h => hnot h.outer, .inr hread.bind⟩

/-- A search that fails is one that finds no key. -/
theorem runsInside_try {result : Option (List UInt8)} (h : RunsInside spki extractEd25519PublicKey (.ok result)) :
    RunsInside spki tryExtractEd25519PublicKeyFromSpki (.ok result) := by
  obtain ⟨places, hplaces, hrun⟩ := h
  exact ⟨places, hplaces, fun log => by rw [tryExtractEd25519PublicKeyFromSpki, run_tryCatch, hrun, orElse_ok]⟩

theorem runsInside_try_of_fails (h : FailsInside spki extractEd25519PublicKey) :
    RunsInside spki tryExtractEd25519PublicKeyFromSpki (.ok none) := by
  obtain ⟨message, places, hplaces, hrun⟩ := h
  refine ⟨places, hplaces, fun log => ?_⟩
  rw [tryExtractEd25519PublicKeyFromSpki, run_tryCatch, hrun, orElse_error, run_pure]

/-- Where the key is looked for, an element is found that may be a key, or nothing. -/
theorem runsInside_subjectPublicKey (h : 0 ≤ keyPlace spki) :
    IsElement spki (keyPlace spki)
        ∧ RunsInside spki (extractSubjectPublicKey (elementAt spki (algorithmPlace spki)))
          (.ok (keyOf spki (elementAt spki (keyPlace spki)))) ∨
      ¬ IsElement spki (keyPlace spki)
        ∧ FailsInside spki (extractSubjectPublicKey (elementAt spki (algorithmPlace spki))) := by
  have hleads : LeadsTo spki (extractSubjectPublicKey (elementAt spki (algorithmPlace spki)))
      (readAsn1Element (keyPlace spki) >>= fun subjectPublicKey => return keyOf spki subjectPublicKey) := runsInside_read.leads
  rcases runsInside_readAsn1Element spki h with ⟨hkey, hread⟩ | ⟨hnot, hread⟩
  · exact .inl ⟨hkey, hleads.runs (hread.bind runsInside_pure)⟩
  · exact .inr ⟨hnot, hleads.fails hread.bind⟩

/-! ## In front of the bytes -/

section Keeps

variable {place : Int} {α : Type} {offset : Int}

/-- A place that has been read stays one that has been read. -/
abbrev KeepsPlace (place : Int) (x : Reading α) : Prop := Keeps (place ∈ ·) x

theorem keeps_readByte : KeepsPlace place (readByte offset) := fun _ _ h => List.mem_append_left _ h

theorem keeps_readLengthBytes (length : BitVec 32) (count : Nat) :
    KeepsPlace place (readLengthBytes length offset count) := by
  induction count generalizing length offset with
  | zero => exact keeps_pure
  | succ count ih => exact keeps_readByte.bind fun byte => ih _

theorem keeps_readLengthFrom (firstByte : Option UInt8) : KeepsPlace place (readLengthFrom firstByte offset) := by
  cases firstByte with
  | none => exact keeps_pure
  | some firstByte =>
      rw [readLengthFrom]
      split
      · exact keeps_pure
      · refine keeps_read.bind fun bytes => ?_
        split
        · exact keeps_throw
        · split
          · exact keeps_throw
          · exact (keeps_readLengthBytes 0 _).bind fun length => keeps_pure

theorem keeps_readAsn1Length : KeepsPlace place (readAsn1Length offset) := by
  refine keeps_read.bind fun bytes => ?_
  split
  · exact keeps_throw
  · exact keeps_readByte.bind keeps_readLengthFrom

theorem keeps_elementOf (tag : Option UInt8) (lengthResult : Asn1Length) : KeepsPlace place (elementOf tag lengthResult) := by
  refine keeps_read.bind fun bytes => ?_
  extract_lets endOffset
  split
  · exact keeps_throw
  · exact keeps_pure

end Keeps

/-- A key that is looked for in front of the bytes is looked for outside of them. -/
theorem reads_keyPlace (hplace : keyPlace spki < 0) (hlength : 2 ≤ spki.length) (log : List Int) :
    keyPlace spki ∈ (extractSubjectPublicKey (elementAt spki (algorithmPlace spki)) spki log).2 := by
  have hrest : KeepsPlace (keyPlace spki) (readAsn1Length (keyPlace spki + 1) >>= fun lengthResult =>
      elementOf (byteAt spki (keyPlace spki)) lengthResult >>= fun subjectPublicKey =>
        (return keyOf spki subjectPublicKey : Reading (Option (List UInt8)))) :=
    keeps_readAsn1Length.bind fun lengthResult => (keeps_elementOf _ lengthResult).bind fun _ => keeps_pure
  have hrun : extractSubjectPublicKey (elementAt spki (algorithmPlace spki)) spki log
      = (readAsn1Element (keyPlace spki) >>= fun subjectPublicKey =>
          (return keyOf spki subjectPublicKey : Reading (Option (List UInt8)))) spki log := rfl
  have hread : readAsn1Element (keyPlace spki) spki log
      = (readAsn1Length (keyPlace spki + 1) >>= elementOf (byteAt spki (keyPlace spki))) spki (log ++ [keyPlace spki]) := by
    rw [readAsn1Element, run_bind, run_read, andThen_ok, if_neg (by omega), run_bind]
    rfl
  rw [hrun, run_bind, hread, ← run_bind, bind_assoc]
  exact hrest spki (log ++ [keyPlace spki]) (List.mem_append_right log (List.mem_singleton_self _))

/-! ## The key inside the outer sequence -/

/-- What is returned for the element at a place. -/
def ReadsAs (bytes : List UInt8) (offset : Int) (element : Asn1Element) : Prop :=
  (readAsn1Element offset bytes []).1 = .ok element

/-- The elements that are read for the algorithm and the key lie in order and without overlap inside the outer one. -/
def LiesInside (spki : List UInt8) : Prop :=
  ∃ outer algorithm subjectPublicKey outerEnd algorithmEnd keyEnd,
    ReadsAs spki 0 outer ∧ outer.endOffset = some outerEnd
      ∧ ReadsAs spki outer.contentOffset algorithm ∧ algorithm.endOffset = some algorithmEnd
      ∧ ReadsAs spki algorithmEnd subjectPublicKey ∧ subjectPublicKey.endOffset = some keyEnd
      ∧ outer.contentOffset < algorithm.contentOffset ∧ algorithm.contentOffset ≤ algorithmEnd
      ∧ algorithmEnd < subjectPublicKey.contentOffset ∧ subjectPublicKey.contentOffset ≤ keyEnd ∧ keyEnd ≤ outerEnd

/-- The search ends without a failure, reads inside the bytes, and finds only what lies inside the outer sequence. -/
def ExtractsInBounds (spki : List UInt8) : Prop :=
  ∀ result log, tryExtractEd25519PublicKeyFromSpki spki [] = (result, log) →
    (∃ found, result = .ok found) ∧ Inside spki log ∧ ∀ key, result = .ok (some key) → LiesInside spki

/-- When an Ed25519 key is looked for, it is so behind the start of the bytes, and what is taken for the key is behind the
algorithm and before the end of the outer sequence, with lengths whose top bit is not set. -/
def KeyInBounds (spki : List UInt8) : Prop :=
  IdentifiesEd25519 spki → 0 ≤ keyPlace spki
    ∧ (IsElement spki (keyPlace spki) → (keyOf spki (elementAt spki (keyPlace spki))).isSome →
      ¬ HasTopBitLength spki (algorithmPlace spki) ∧ ¬ HasTopBitLength spki (keyPlace spki)
        ∧ stopPlace spki (keyPlace spki) ≤ stopPlace spki 0)

theorem readsAs_iff {offset : Int} {element : Asn1Element} (his : IsElement spki offset) (h : 0 ≤ offset) :
    ReadsAs spki offset element ↔ element = elementAt spki offset := by
  rcases readAsn1Element_result (show -1 ≤ offset by omega) with ⟨-, hresult⟩ | ⟨hnot, -⟩
  · rw [ReadsAs, hresult]
    exact ⟨fun h => (Except.ok.inj h).symm, fun h => by rw [h]⟩
  · exact absurd his hnot

theorem liesInside_iff (hidentifies : IdentifiesEd25519 spki) (hplace : 0 ≤ keyPlace spki)
    (hkey : IsElement spki (keyPlace spki)) :
    LiesInside spki ↔ ¬ HasTopBitLength spki (algorithmPlace spki) ∧ ¬ HasTopBitLength spki (keyPlace spki)
        ∧ stopPlace spki (keyPlace spki) ≤ stopPlace spki 0 := by
  rw [← content_le_stop, ← content_le_stop]
  constructor
  · rintro ⟨outer, algorithm, subjectPublicKey, outerEnd, algorithmEnd, keyEnd, houter, hend, halgorithm, halgorithmEnd,
      hsubject, hkeyEnd, -, halgorithmLe, -, hkeyLe, hinside⟩
    obtain rfl := (readsAs_iff hidentifies.outer (le_refl 0)).mp houter
    obtain rfl := (readsAs_iff hidentifies.algorithm algorithmPlace_nonneg).mp halgorithm
    obtain rfl : stopPlace spki (algorithmPlace spki) = algorithmEnd := Option.some.inj halgorithmEnd
    obtain rfl := (readsAs_iff hkey hplace).mp hsubject
    rw [← Option.some.inj hkeyEnd] at hkeyLe hinside
    rw [← Option.some.inj hend] at hinside
    exact ⟨halgorithmLe, hkeyLe, hinside⟩
  · rintro ⟨halgorithmLe, hkeyLe, hinside⟩
    exact ⟨_, _, _, _, _, _, (readsAs_iff hidentifies.outer (le_refl 0)).mpr rfl, rfl,
      (readsAs_iff hidentifies.algorithm algorithmPlace_nonneg).mpr rfl, rfl, (readsAs_iff hkey hplace).mpr rfl, rfl,
      offset_lt_content, halgorithmLe, offset_lt_content, hkeyLe, hinside⟩

theorem extractsInBounds_of_runs {found : Option (List UInt8)}
    (h : RunsInside spki tryExtractEd25519PublicKeyFromSpki (.ok found)) :
    ExtractsInBounds spki ↔ (found.isSome → LiesInside spki) := by
  obtain ⟨places, hplaces, hrun⟩ := h
  rw [ExtractsInBounds, hrun, List.nil_append]
  constructor
  · intro h hfound
    obtain ⟨key, rfl⟩ := Option.isSome_iff_exists.mp hfound
    exact (h _ _ rfl).2.2 key rfl
  · rintro h result log heq
    obtain ⟨rfl, rfl⟩ := Prod.mk.inj heq
    exact ⟨⟨found, rfl⟩, hplaces, fun key hkey => h (by rw [Except.ok.inj hkey, Option.isSome_some])⟩

theorem extractsInBounds_iff : ExtractsInBounds spki ↔ KeyInBounds spki := by
  rcases extract_cases spki with ⟨hidentifies, hleads⟩ | ⟨hnot, hrun⟩
  · by_cases hplace : 0 ≤ keyPlace spki
    · rcases runsInside_subjectPublicKey hplace with ⟨hkey, hrun⟩ | ⟨hnot, hrun⟩
      · rw [extractsInBounds_of_runs (runsInside_try (hleads.runs hrun)), liesInside_iff hidentifies hplace hkey]
        exact ⟨fun h _ => ⟨hplace, fun _ => h⟩, fun h => (h hidentifies).2 hkey⟩
      · rw [extractsInBounds_of_runs (runsInside_try_of_fails (hleads.fails hrun))]
        exact ⟨fun _ _ => ⟨hplace, fun hkey => absurd hkey hnot⟩, fun _ h => absurd h (by decide)⟩
    · have hread : keyPlace spki ∈ (tryExtractEd25519PublicKeyFromSpki spki []).2 := by
        obtain ⟨places, -, hleads⟩ := hleads
        have hlength : 2 ≤ spki.length := by
          have hheader := hidentifies.outer.header
          omega
        have hmem := reads_keyPlace (by omega) hlength ([] ++ places)
        rw [tryExtractEd25519PublicKeyFromSpki, run_tryCatch, hleads]
        rcases hrun : extractSubjectPublicKey (elementAt spki (algorithmPlace spki)) spki ([] ++ places) with ⟨result, log⟩
        rw [hrun] at hmem
        cases result with
        | error message => exact hmem
        | ok found => exact hmem
      refine ⟨fun h => absurd ((h _ _ rfl).2.1 _ hread).1 hplace, fun h => absurd (h hidentifies).1 hplace⟩
  · have hnone : RunsInside spki tryExtractEd25519PublicKeyFromSpki (.ok none) :=
      hrun.elim runsInside_try runsInside_try_of_fails
    rw [extractsInBounds_of_runs hnone]
    exact ⟨fun _ h => absurd h hnot, fun _ h => absurd h (by decide)⟩

end Key

/-! ## Where elements and keys stay in bounds -/

theorem stays_in_bounds_iff (bytes : List UInt8) (offset : Int) :
    (ReadsInBounds bytes offset ↔ -1 ≤ offset ∧ ¬ HasTopBitLength bytes offset)
      ∧ (ExtractsInBounds bytes ↔ KeyInBounds bytes) :=
  ⟨readsInBounds_iff, extractsInBounds_iff⟩

/-- A key behind an outer sequence that says to be empty, in the encoding of an Ed25519 key. -/
def behindEmptySequence : List UInt8 :=
  [0x30, 0x00, 0x30, 0x05, 0x06, 0x03, 0x2b, 0x65, 0x70, 0x03, 0x21, 0x00] ++ List.replicate 32 0x07

/-- An element of length 2³² - 1 ends in front of its content, and a key is found behind an empty sequence. -/
theorem length_turns_negative :
    ¬ ReadsInBounds [0x30, 0x84, 0xff, 0xff, 0xff, 0xff] 0 ∧ ¬ ExtractsInBounds behindEmptySequence := by
  constructor
  · intro h
    obtain ⟨endOffset, hend, -, hle, -⟩ := h ⟨some 0x30, 6, some 5⟩ _ rfl
    rw [← Option.some.inj hend] at hle
    exact absurd hle (by decide)
  · intro h
    have hrun : (tryExtractEd25519PublicKeyFromSpki behindEmptySequence []).1 = .ok (some (List.replicate 32 0x07)) := rfl
    obtain ⟨outer, algorithm, subjectPublicKey, outerEnd, algorithmEnd, keyEnd, houter, hend, -, -, -, -, hinner, hle, hlt,
      hkeyLe, hinside⟩ := (h _ _ rfl).2.2 _ hrun
    obtain rfl : ⟨some 0x30, 2, some 2⟩ = outer := Except.ok.inj houter
    obtain rfl : 2 = outerEnd := Option.some.inj hend
    have hcontent : 2 < algorithm.contentOffset := hinner
    omega

end CantonSdk.Hashing
