/-
# Hive.Revocation — root-signed revocation snapshots

`revocation.rs`: the revocation list, its shape rules, its root signature and its canonical
encoding. A list that passes its shape check is strictly sorted, so the binary search of the
source answers membership.

* `sign_spec` — what signing returns is well shaped and verifies under the root that signed.
* `encodeSigned_ok` — every well-shaped list with a full signature has an encoding in the budget.
* `decodeSigned_envelope` — that encoding reads back; `signed_oneEncoding` — and no other string
  is read as it.
-/
import Supgang.Hive.Identity
import Supgang.Theory.Canonical

namespace Supgang.Revocation

set_option autoImplicit false

open Theory List

def revocationVersion : UInt16 := 1
/-- Maximum revoked devices in one personal hive. -/
def maxRevokedNodes : Nat := 256
/-- Maximum canonical signed revocation snapshot size. -/
def maxSignedRevocationBytes : Nat := 9 * 1024

def revocationDomain : Bytes := utf8 "supgang/revocation/v1\x00"
def listFields : Nat := 5
def signedVersion : UInt16 := 1

/-- Revocation construction, canonicalization, or verification failure. -/
inductive RevocationError where
  | unsupportedVersion
  | invalidSerial
  | unordered
  | oversized
  | hiveRootMismatch
  | invalidSignature
  | decode (error : Cbor.DecodeError)
  | malformed
  | nonCanonical
deriving DecidableEq, Repr

instance : Cbor.FromDecode RevocationError := ⟨.decode⟩

/-- Monotonic root-authorized set of device identities denied hive access. -/
structure RevocationList where
  version : UInt16
  hiveId : HiveId
  serial : UInt64
  issuedAt : UInt64
  /-- Sorted, duplicate-free revoked device identities. -/
  revokedNodes : List NodeId
deriving DecidableEq, Repr

/-- Revocation snapshot plus its hive-root signature. -/
structure SignedRevocationList where
  list : RevocationList
  signature : Bytes
deriving DecidableEq, Repr

def RevocationList.validateShape (list : RevocationList) : Except RevocationError Unit := do
  reject (list.version ≠ revocationVersion) RevocationError.unsupportedVersion
  reject (maxRevokedNodes < list.revokedNodes.length) RevocationError.oversized
  reject ((list.serial == 0) ≠ list.revokedNodes.isEmpty) RevocationError.invalidSerial
  reject (¬list.revokedNodes.IsChain (· < ·)) RevocationError.unordered

/-- A binary search of a list that has passed its shape check, and is therefore sorted. -/
def RevocationList.contains (list : RevocationList) (nodeId : NodeId) : Bool :=
  list.revokedNodes.contains nodeId

def SignedRevocationList.contains (signed : SignedRevocationList) (nodeId : NodeId) : Bool :=
  signed.list.contains nodeId

/-! ## Encoding -/

/-- The encoding of a list, without its shape check. -/
def listBytes (list : RevocationList) : Bytes :=
  Cbor.array listFields ++ (Cbor.u16 list.version ++ (Cbor.bytes list.hiveId.1 ++
    (Cbor.u64 list.serial ++ (Cbor.u64 list.issuedAt ++ (Cbor.array list.revokedNodes.length ++
    list.revokedNodes.flatMap fun nodeId => Cbor.bytes nodeId.1)))))

def encodeList (list : RevocationList) : Except RevocationError Bytes := do
  list.validateShape
  return listBytes list

def requireArray (expected : Nat) : Cbor.Reader RevocationError Unit :=
  Cbor.requireArray .malformed expected

def readFixed : Cbor.Reader RevocationError (FixedBytes 32) := Cbor.readFixed .malformed 32

/-- The fields of a list in wire order. -/
def readList : Cbor.Reader RevocationError RevocationList := do
  requireArray listFields
  let version ← Cbor.readU16
  let hiveId ← readFixed
  let serial ← Cbor.readU64
  let issuedAt ← Cbor.readU64
  let found ← Cbor.readArray
  let count ← ofExcept (okOr found RevocationError.malformed)
  reject (maxRevokedNodes < count) RevocationError.oversized
  let revokedNodes ← Cbor.readMany readFixed count
  return { version, hiveId, serial, issuedAt, revokedNodes }

def decodeList (input : Bytes) : Except RevocationError RevocationList := do
  let (list, rest) ← readList.run input
  reject (rest ≠ []) RevocationError.malformed
  list.validateShape
  let encoded ← encodeList list
  reject (encoded ≠ input) RevocationError.nonCanonical
  return list

def encodeSignedRevocations (value : SignedRevocationList) : Except RevocationError Bytes := do
  value.list.validateShape
  reject (value.signature.length ≠ 64) RevocationError.invalidSignature
  let payload ← encodeList value.list
  let output := Cbor.array 3 ++ (Cbor.u16 signedVersion ++
    (Cbor.bytes payload ++ Cbor.bytes value.signature))
  reject (maxSignedRevocationBytes < output.length) RevocationError.oversized
  return output

/-- The payload and the signature of a signed snapshot. -/
def readEnvelope : Cbor.Reader RevocationError (Bytes × Bytes) := do
  requireArray 3
  let version ← Cbor.readU16
  reject (version ≠ signedVersion) RevocationError.unsupportedVersion
  let payload ← Cbor.readBytes
  let signature ← Cbor.readBytes
  return (payload, signature)

def decodeSignedRevocations (input : Bytes) : Except RevocationError SignedRevocationList := do
  reject (input = [] ∨ maxSignedRevocationBytes < input.length) RevocationError.oversized
  let ((payload, signature), rest) ← readEnvelope.run input
  reject (signature.length ≠ 64 ∨ rest ≠ []) RevocationError.malformed
  let list ← decodeList payload
  let value : SignedRevocationList := { list, signature }
  let encoded ← encodeSignedRevocations value
  reject (encoded ≠ input) RevocationError.nonCanonical
  return value

/-! ## Signing and verification -/

section Signatures

variable [Sha256] [Ed25519]

def SignedRevocationList.sign (list : RevocationList) (root : RootIdentity) :
    Except RevocationError SignedRevocationList := do
  list.validateShape
  reject (list.hiveId ≠ root.hiveId) RevocationError.hiveRootMismatch
  let payload ← encodeList list
  return { list, signature := (root.signDomain revocationDomain payload).1 }

/-- The signed serial-zero snapshot of a new hive. -/
def SignedRevocationList.empty (root : RootIdentity) (issuedAt : UInt64) :
    Except RevocationError SignedRevocationList :=
  sign { version := revocationVersion, hiveId := root.hiveId, serial := 0, issuedAt,
         revokedNodes := [] } root

def SignedRevocationList.verify (signed : SignedRevocationList) (rootKey : VerifyingKey) :
    Except RevocationError Unit := do
  signed.list.validateShape
  reject (signed.list.hiveId ≠ HiveId.fromRootVerifyingKey rootKey)
    RevocationError.hiveRootMismatch
  let signature ← okOr (FixedBytes.ofBytes? 64 signed.signature) RevocationError.invalidSignature
  let payload ← encodeList signed.list
  reject (¬verifyDomain rootKey revocationDomain payload signature)
    RevocationError.invalidSignature

end Signatures

/-! ## The codec reads what it writes -/

/-- What `validateShape` leaves to know about a list. -/
structure RevocationList.Shaped (list : RevocationList) : Prop where
  version : list.version = revocationVersion
  bounded : list.revokedNodes.length ≤ maxRevokedNodes
  serial_zero : list.serial = 0 ↔ list.revokedNodes = []
  sorted : list.revokedNodes.Pairwise (· < ·)

variable {list : RevocationList} {value : SignedRevocationList}

theorem validateShape_eq_ok :
    list.validateShape = .ok () ↔ list.Shaped := by
  simp only [RevocationList.validateShape, ok_steps]
  constructor
  · rintro ⟨_, hversion, _, hbounded, _, hserial, hsorted⟩
    refine ⟨not_not.mp hversion, not_lt.mp hbounded, ?_,
      isChain_iff_pairwise.mp (not_not.mp hsorted)⟩
    have := not_not.mp hserial
    rw [Bool.eq_iff_iff] at this
    simpa using this
  · rintro ⟨hversion, hbounded, hserial, hsorted⟩
    refine ⟨(), not_not.mpr hversion, (), not_lt.mpr hbounded, (), not_not.mpr ?_,
      not_not.mpr (isChain_iff_pairwise.mpr hsorted)⟩
    rw [Bool.eq_iff_iff]
    simpa using hserial

@[simp] theorem contains_iff {signed : SignedRevocationList} {nodeId : NodeId} :
    signed.contains nodeId = true ↔ nodeId ∈ signed.list.revokedNodes := by
  simp [SignedRevocationList.contains, RevocationList.contains]

theorem encodeList_ok (shaped : list.Shaped) :
    encodeList list = .ok (listBytes list) := by
  rw [encodeList, validateShape_eq_ok.mpr shaped]
  rfl

theorem fixed_run (value : FixedBytes 32) (rest : Bytes) :
    readFixed.run (Cbor.bytes value.1 ++ rest) = .ok (value, rest) :=
  Cbor.run_readFixed _ value (by omega) rest

theorem readList_run (shaped : list.Shaped) (rest : Bytes) :
    readList.run (listBytes list ++ rest) = .ok (list, rest) := by
  have hbounded := shaped.bounded
  have hfits : list.revokedNodes.length < 2 ^ 64 := by
    unfold maxRevokedNodes at hbounded
    omega
  simp (disch := first | omega | decide | simpa using hbounded) only [listBytes, readList,
    append_assoc, requireArray, Cbor.bind_reads, Cbor.run_bind_of (fixed_run _ _), Cbor.bind_array,
    okOr_some, Cbor.bind_reject, Cbor.bind_many fun nodeId _ => fixed_run nodeId]
  rfl

theorem bytes_fixed_length (value : FixedBytes 32) : (Cbor.bytes value.1).length = 34 := by
  rw [Cbor.bytes, length_append, value.2]
  rfl

theorem nodes_length (nodes : List NodeId) :
    (nodes.flatMap fun nodeId => Cbor.bytes nodeId.1).length = 34 * nodes.length := by
  induction nodes with
  | nil => rfl
  | cons nodeId nodes ih =>
    rw [flatMap_cons, length_append, bytes_fixed_length, ih, length_cons]
    omega

theorem listBytes_length_le (shaped : list.Shaped) :
    (listBytes list).length ≤ 8800 := by
  have hbounded := shaped.bounded
  have h₁ := Cbor.head_length_le 4 listFields
  have h₂ := Cbor.unsigned_length_le list.version.toNat
  have h₃ := Cbor.unsigned_length_le list.serial.toNat
  have h₄ := Cbor.unsigned_length_le list.issuedAt.toNat
  have h₅ := Cbor.head_length_le 4 list.revokedNodes.length
  simp only [listBytes, length_append, Cbor.array, Cbor.u16, Cbor.u64, bytes_fixed_length,
    nodes_length]
  unfold maxRevokedNodes at hbounded
  omega

/-- The signed envelope of a list. -/
def envelope (value : SignedRevocationList) : Bytes :=
  Cbor.array 3 ++ (Cbor.u16 signedVersion ++
    (Cbor.bytes (listBytes value.list) ++ Cbor.bytes value.signature))

theorem envelope_ne_nil (value : SignedRevocationList) : envelope value ≠ [] := by
  intro h
  have := congrArg List.length h
  simp [envelope, Cbor.array, Cbor.head] at this

theorem decodeList_listBytes (shaped : list.Shaped) :
    decodeList (listBytes list) = .ok list := by
  have hrun := readList_run shaped []
  rw [append_nil] at hrun
  simp only [decodeList, hrun, ok_bind, reject_bind, validateShape_eq_ok.mpr shaped,
    encodeList_ok shaped, ne_eq, not_true_eq_false, if_false]
  rfl

section Shaped

variable (shaped : value.list.Shaped) (full : value.signature.length = 64)

include shaped full

theorem envelope_length_le : (envelope value).length ≤ 9000 := by
  have h₁ := Cbor.head_length_le 4 3
  have h₂ := Cbor.unsigned_length_le signedVersion.toNat
  have h₃ := Cbor.bytes_length_le (listBytes value.list)
  have h₄ := listBytes_length_le shaped
  have h₅ := Cbor.bytes_length_le value.signature
  simp only [envelope, length_append, Cbor.array, Cbor.u16]
  omega

theorem encodeSigned_ok : encodeSignedRevocations value = .ok (envelope value) := by
  have hsize := envelope_length_le shaped full
  rw [encodeSignedRevocations, validateShape_eq_ok.mpr shaped, ok_bind, reject_bind,
    if_neg (not_not.mpr full), encodeList_ok shaped, ok_bind, reject_bind,
    if_neg (by unfold maxSignedRevocationBytes; rw [← envelope]; omega)]
  rfl

theorem readEnvelope_run (rest : Bytes) : readEnvelope.run (envelope value ++ rest) =
      .ok ((listBytes value.list, value.signature), rest) := by
  have hsize := listBytes_length_le shaped
  simp (disch := first | omega | decide | simp) only [envelope, readEnvelope, append_assoc,
    requireArray, Cbor.bind_reads, Cbor.bind_reject]
  rfl

/-- **Round trip.** The encoding of a well-shaped signed list reads back. -/
theorem decodeSigned_envelope : decodeSignedRevocations (envelope value) = .ok value := by
  have hsize := envelope_length_le shaped full
  have hrun := readEnvelope_run shaped full []
  rw [append_nil] at hrun
  have hfits : ¬(envelope value = [] ∨ maxSignedRevocationBytes < (envelope value).length) := by
    unfold maxSignedRevocationBytes
    exact not_or.mpr ⟨envelope_ne_nil value, by omega⟩
  rw [decodeSignedRevocations, reject_bind, if_neg hfits, hrun, ok_bind]
  simp only [reject_bind, full, ne_eq, not_true_eq_false, or_self, if_false,
    decodeList_listBytes shaped, ok_bind, encodeSigned_ok shaped full]
  rfl

end Shaped

theorem encodeSigned_eq_ok {encoded : Bytes} (h : encodeSignedRevocations value = .ok encoded) :
    value.list.Shaped ∧ value.signature.length = 64 ∧ encoded = envelope value := by
  have hgood : value.list.Shaped ∧ value.signature.length = 64 := by
    simp only [encodeSignedRevocations, ok_steps, exists_const, not_not] at h
    obtain ⟨_, hshape, hfull, -⟩ := h
    exact ⟨validateShape_eq_ok.mp hshape, hfull⟩
  rw [encodeSigned_ok hgood.1 hgood.2] at h
  cases h
  exact ⟨hgood.1, hgood.2, rfl⟩

/-- **One encoding.** The decoder takes what the encoder writes, and nothing else. -/
theorem signed_oneEncoding : OneEncoding encodeSignedRevocations decodeSignedRevocations where
  decode_encode := by
    intro value encoded h
    obtain ⟨shaped, full, rfl⟩ := encodeSigned_eq_ok h
    exact decodeSigned_envelope shaped full
  encode_decode := by
    intro value input h
    simp only [decodeSignedRevocations, ok_steps, exists_const, not_not] at h
    obtain ⟨-, ⟨⟨payload, signature⟩, rest⟩, -, -, list, -, encoded, hencode, rfl, rfl⟩ := h
    exact hencode

section Shape

variable [Sha256] [Ed25519]

/-- What signing returns is well shaped, complete and verifies under the root that signed. -/
theorem sign_spec (correct : Ed25519.Correct) {list : RevocationList} {root : RootIdentity}
    {signed : SignedRevocationList} (h : SignedRevocationList.sign list root = .ok signed) :
    signed.list = list ∧ signed.verify root.verifyingKey = .ok () := by
  simp only [SignedRevocationList.sign, ok_steps] at h
  obtain ⟨_, hshape, _, hhive, payload, hpayload, rfl⟩ := h
  refine ⟨rfl, ?_⟩
  have hsig := verifyDomain_signDomain correct root revocationDomain payload
  simp only [SignedRevocationList.verify, hshape, ok_bind, reject_bind, FixedBytes.ofBytes?_val,
    okOr_some, hpayload]
  rw [if_neg (show ¬list.hiveId ≠ HiveId.fromRootVerifyingKey root.verifyingKey from hhive)]
  simp [hsig]

/-- What verification leaves to know about a signed list. -/
theorem verify_eq_ok {signed : SignedRevocationList} {rootKey : VerifyingKey}
    (h : signed.verify rootKey = .ok ()) :
    signed.list.Shaped ∧ signed.list.hiveId = HiveId.fromRootVerifyingKey rootKey ∧
      signed.signature.length = 64 := by
  simp only [SignedRevocationList.verify, ok_steps] at h
  obtain ⟨_, hshape, _, hhive, signature, hsig, -⟩ := h
  refine ⟨validateShape_eq_ok.mp hshape, not_not.mp hhive, ?_⟩
  rw [FixedBytes.ofBytes?_eq_some.mp hsig]
  exact signature.2

end Shape

end Supgang.Revocation
