/-
# Hive.Membership — root-authorized membership certificates

`membership.rs`: the certificate, its shape rules, its root signature and its canonical encoding.
The codec lemmas are what the journal layer needs of it.

* `sign_spec` — what signing returns is well shaped and verifies under the root that signed.
* `encodeSigned_ok` — every certificate with a full signature has an encoding within the budget.
* `decodeSigned_encodeSigned` — the encoding of a well-shaped certificate reads back;
  `signed_oneEncoding` — and no other string is read as it.
-/
import Supgang.Hive.Identity
import Supgang.Theory.Canonical

namespace Supgang.Membership

set_option autoImplicit false

open Theory List

def membershipVersion : UInt16 := 1
/-- Maximum encoded signed membership envelope. -/
def maxSignedMembershipBytes : Nat := 1024
/-- Maximum membership validity window, in seconds. -/
def maxMembershipLifetimeSeconds : UInt64 := 10 * 366 * 24 * 60 * 60

def membershipDomain : Bytes := utf8 "supgang/membership/v1\x00"
def certificateFields : Nat := 9
def signedEnvelopeVersion : UInt16 := 1

/-- A membership construction or validation failure. -/
inductive MembershipError where
  | unsupportedVersion
  | zeroSerial
  | nodeKeyMismatch
  | invalidLifetime
  | lifetimeTooLong
  | missingDeviceRole
  | unknownRole
  | expired
  | hiveRootMismatch
  | invalidSignature
  | oversized
  | decode (error : Cbor.DecodeError)
  | malformed
  | nonCanonical
deriving DecidableEq, Repr

instance : Cbor.FromDecode MembershipError := ⟨.decode⟩

/-- Roles granted to one hive member. -/
structure MembershipRoles where
  bits : UInt64
deriving DecidableEq, Repr

namespace MembershipRoles

def device : MembershipRoles := ⟨1⟩
def introducer : MembershipRoles := ⟨2⟩
def controlRelay : MembershipRoles := ⟨4⟩
def knownBits : UInt64 := device.bits ||| introducer.bits ||| controlRelay.bits

def fromBits (bits : UInt64) : Except MembershipError MembershipRoles :=
  if bits &&& ~~~knownBits = 0 then .ok ⟨bits⟩ else .error .unknownRole

def contains (roles other : MembershipRoles) : Bool := roles.bits &&& other.bits == other.bits

def or (roles other : MembershipRoles) : MembershipRoles := ⟨roles.bits ||| other.bits⟩

end MembershipRoles

/-- Root-signed authorization for one stable device identity. -/
structure MembershipCertificate where
  version : UInt16
  hiveId : HiveId
  nodeId : NodeId
  deviceVerifyingKey : FixedBytes 32
  serial : UInt64
  issuedAt : UInt64
  expiresAt : UInt64
  roles : MembershipRoles
  admissionNonce : FixedBytes 32
deriving DecidableEq, Repr

/-- A membership certificate and its hive-root signature. -/
structure SignedMembership where
  certificate : MembershipCertificate
  signature : Bytes
deriving DecidableEq, Repr

def MembershipCertificate.validateShape [Sha256] (certificate : MembershipCertificate) :
    Except MembershipError Unit := do
  reject (certificate.version ≠ membershipVersion) MembershipError.unsupportedVersion
  reject (certificate.serial = 0) MembershipError.zeroSerial
  reject (certificate.nodeId ≠ NodeId.fromVerifyingKey certificate.deviceVerifyingKey)
    MembershipError.nodeKeyMismatch
  reject (certificate.expiresAt ≤ certificate.issuedAt) MembershipError.invalidLifetime
  reject (maxMembershipLifetimeSeconds < saturatingSub certificate.expiresAt certificate.issuedAt)
    MembershipError.lifetimeTooLong
  reject (certificate.roles.bits = 0 ∨ ¬certificate.roles.contains .device)
    MembershipError.missingDeviceRole
  let _ ← MembershipRoles.fromBits certificate.roles.bits

def MembershipCertificate.validateTime (certificate : MembershipCertificate) (now : UInt64) :
    Except MembershipError Unit :=
  reject (certificate.expiresAt < now) MembershipError.expired

theorem validateTime_eq_ok {certificate : MembershipCertificate} {now : UInt64} :
    certificate.validateTime now = .ok () ↔ now ≤ certificate.expiresAt := by
  rw [MembershipCertificate.validateTime, reject_eq_ok, not_lt]

/-! ## Encoding -/

def encodeCertificate (certificate : MembershipCertificate) : Bytes :=
  Cbor.array certificateFields ++ (Cbor.u16 certificate.version ++
    (Cbor.bytes certificate.hiveId.1 ++ (Cbor.bytes certificate.nodeId.1 ++
    (Cbor.bytes certificate.deviceVerifyingKey.1 ++ (Cbor.u64 certificate.serial ++
    (Cbor.u64 certificate.issuedAt ++ (Cbor.u64 certificate.expiresAt ++
    (Cbor.u64 certificate.roles.bits ++ Cbor.bytes certificate.admissionNonce.1))))))))

def requireArray (expected : Nat) : Cbor.Reader MembershipError Unit :=
  Cbor.requireArray .malformed expected

def readFixed : Cbor.Reader MembershipError (FixedBytes 32) := Cbor.readFixed .malformed 32

/-- The fields of a certificate in wire order. -/
def readCertificate : Cbor.Reader MembershipError MembershipCertificate := do
  requireArray certificateFields
  let version ← Cbor.readU16
  let hiveId ← readFixed
  let nodeId ← readFixed
  let deviceVerifyingKey ← readFixed
  let serial ← Cbor.readU64
  let issuedAt ← Cbor.readU64
  let expiresAt ← Cbor.readU64
  let bits ← Cbor.readU64
  let roles ← ofExcept (MembershipRoles.fromBits bits)
  let admissionNonce ← readFixed
  return { version, hiveId, nodeId, deviceVerifyingKey, serial, issuedAt, expiresAt, roles,
           admissionNonce }

def decodeCertificate [Sha256] (input : Bytes) : Except MembershipError MembershipCertificate := do
  let (certificate, rest) ← readCertificate.run input
  reject (rest ≠ []) MembershipError.malformed
  certificate.validateShape
  reject (encodeCertificate certificate ≠ input) MembershipError.nonCanonical
  return certificate

def encodeSignedMembership (signed : SignedMembership) : Except MembershipError Bytes := do
  reject (signed.signature.length ≠ 64) MembershipError.invalidSignature
  let output := Cbor.array 3 ++ (Cbor.u16 signedEnvelopeVersion ++
    (Cbor.bytes (encodeCertificate signed.certificate) ++ Cbor.bytes signed.signature))
  reject (maxSignedMembershipBytes < output.length) MembershipError.oversized
  return output

/-- The payload and the signature of a signed envelope. -/
def readEnvelope : Cbor.Reader MembershipError (Bytes × Bytes) := do
  requireArray 3
  let version ← Cbor.readU16
  reject (version ≠ signedEnvelopeVersion) MembershipError.unsupportedVersion
  let payload ← Cbor.readBytes
  let signature ← Cbor.readBytes
  return (payload, signature)

def decodeSignedMembership [Sha256] (input : Bytes) :
    Except MembershipError SignedMembership := do
  reject (maxSignedMembershipBytes < input.length) MembershipError.oversized
  let ((payload, signature), rest) ← readEnvelope.run input
  reject (signature.length ≠ 64 ∨ rest ≠ []) MembershipError.malformed
  let certificate ← decodeCertificate payload
  let signed : SignedMembership := { certificate, signature }
  let encoded ← encodeSignedMembership signed
  reject (encoded ≠ input) MembershipError.nonCanonical
  return signed

/-! ## Signing and verification -/

section Signatures

variable [Sha256] [Ed25519]

def SignedMembership.sign (certificate : MembershipCertificate) (root : RootIdentity) :
    Except MembershipError SignedMembership := do
  certificate.validateShape
  reject (certificate.hiveId ≠ root.hiveId) MembershipError.hiveRootMismatch
  return { certificate
           signature := (root.signDomain membershipDomain (encodeCertificate certificate)).1 }

def SignedMembership.verify (signed : SignedMembership) (rootKey : VerifyingKey) :
    Except MembershipError Unit := do
  signed.certificate.validateShape
  reject (signed.certificate.hiveId ≠ HiveId.fromRootVerifyingKey rootKey)
    MembershipError.hiveRootMismatch
  let signature ← okOr (FixedBytes.ofBytes? 64 signed.signature) MembershipError.invalidSignature
  reject (¬verifyDomain rootKey membershipDomain (encodeCertificate signed.certificate) signature)
    MembershipError.invalidSignature

end Signatures

/-! ## The codec reads what it writes -/

theorem fromBits_eq_ok {bits : UInt64} {roles : MembershipRoles}
    (h : MembershipRoles.fromBits bits = .ok roles) : roles = ⟨bits⟩ := by
  unfold MembershipRoles.fromBits at h
  split at h
  · cases h; rfl
  · cases h

theorem readCertificate_run {certificate : MembershipCertificate}
    (known : MembershipRoles.fromBits certificate.roles.bits = .ok certificate.roles)
    (rest : Bytes) :
    readCertificate.run (encodeCertificate certificate ++ rest) = .ok (certificate, rest) := by
  simp (disch := first | omega | decide) only [encodeCertificate, readCertificate, append_assoc,
    requireArray, readFixed, Cbor.bind_reads, known]
  rfl

theorem encodeCertificate_length_le (certificate : MembershipCertificate) :
    (encodeCertificate certificate).length ≤ 256 := by
  have hfixed : ∀ value : FixedBytes 32, (Cbor.bytes value.1).length ≤ 41 := fun value => by
    have := Cbor.bytes_length_le value.1
    rw [value.2] at this
    omega
  have h₁ := Cbor.head_length_le 4 certificateFields
  have h₂ := Cbor.unsigned_length_le certificate.version.toNat
  have h₃ := Cbor.unsigned_length_le certificate.serial.toNat
  have h₄ := Cbor.unsigned_length_le certificate.issuedAt.toNat
  have h₅ := Cbor.unsigned_length_le certificate.expiresAt.toNat
  have h₆ := Cbor.unsigned_length_le certificate.roles.bits.toNat
  have h₇ := hfixed certificate.hiveId
  have h₈ := hfixed certificate.nodeId
  have h₉ := hfixed certificate.deviceVerifyingKey
  have h₁₀ := hfixed certificate.admissionNonce
  simp only [encodeCertificate, length_append, Cbor.array, Cbor.u16, Cbor.u64]
  omega

/-- The signed envelope of a certificate. -/
def envelope (signed : SignedMembership) : Bytes :=
  Cbor.array 3 ++ (Cbor.u16 signedEnvelopeVersion ++
    (Cbor.bytes (encodeCertificate signed.certificate) ++ Cbor.bytes signed.signature))

variable {signed : SignedMembership}

theorem envelope_length_le (full : signed.signature.length = 64) :
    (envelope signed).length ≤ 512 := by
  have h₁ := Cbor.head_length_le 4 3
  have h₂ := Cbor.unsigned_length_le signedEnvelopeVersion.toNat
  have h₃ := Cbor.bytes_length_le (encodeCertificate signed.certificate)
  have h₄ := encodeCertificate_length_le signed.certificate
  have h₅ := Cbor.bytes_length_le signed.signature
  simp only [envelope, length_append, Cbor.array, Cbor.u16]
  omega

theorem encodeSigned_ok (full : signed.signature.length = 64) :
    encodeSignedMembership signed = .ok (envelope signed) := by
  have hsize := envelope_length_le full
  rw [encodeSignedMembership, reject_bind, if_neg (not_not.mpr full), reject_bind,
    if_neg (by unfold maxSignedMembershipBytes; rw [← envelope]; omega)]
  rfl

theorem encodeSigned_eq_ok {encoded : Bytes} (h : encodeSignedMembership signed = .ok encoded) :
    signed.signature.length = 64 ∧ encoded = envelope signed := by
  have hfull : signed.signature.length = 64 := by
    rw [encodeSignedMembership, reject_bind_eq_ok, not_not] at h
    exact h.1
  rw [encodeSigned_ok hfull] at h
  cases h
  exact ⟨hfull, rfl⟩

theorem readEnvelope_run (full : signed.signature.length = 64) (rest : Bytes) :
    readEnvelope.run (envelope signed ++ rest) =
      .ok ((encodeCertificate signed.certificate, signed.signature), rest) := by
  have hsize := encodeCertificate_length_le signed.certificate
  simp (disch := first | omega | decide | simp) only [envelope, readEnvelope, append_assoc,
    requireArray, Cbor.bind_reads, Cbor.bind_reject]
  rfl

section Shape

variable [Sha256]

variable {certificate : MembershipCertificate} {signed : SignedMembership}

/-- What `validateShape` leaves to know about a certificate. -/
theorem validateShape_eq_ok (h : certificate.validateShape = .ok ()) :
    certificate.serial ≠ 0 ∧
      certificate.nodeId = NodeId.fromVerifyingKey certificate.deviceVerifyingKey ∧
      MembershipRoles.fromBits certificate.roles.bits = .ok certificate.roles := by
  simp only [MembershipCertificate.validateShape, ok_steps] at h
  obtain ⟨_, -, _, hserial, _, hnode, _, -, _, -, _, -, roles, hroles, -⟩ := h
  refine ⟨hserial, not_not.mp hnode, ?_⟩
  rw [hroles, fromBits_eq_ok hroles]

theorem decodeCertificate_encodeCertificate (shape : certificate.validateShape = .ok ()) :
    decodeCertificate (encodeCertificate certificate) = .ok certificate := by
  have hrun := readCertificate_run (validateShape_eq_ok shape).2.2 []
  rw [append_nil] at hrun
  simp only [decodeCertificate, hrun, ok_bind, reject_bind, shape, ne_eq, not_true_eq_false,
    if_false]
  rfl

/-- **Round trip.** The encoding of a well-shaped signed certificate reads back. -/
theorem decodeSigned_encodeSigned {encoded : Bytes}
    (shape : signed.certificate.validateShape = .ok ())
    (h : encodeSignedMembership signed = .ok encoded) :
    decodeSignedMembership encoded = .ok signed := by
  obtain ⟨full, rfl⟩ := encodeSigned_eq_ok h
  have hsize := envelope_length_le full
  have hrun := readEnvelope_run full []
  rw [append_nil] at hrun
  have hfits : ¬maxSignedMembershipBytes < (envelope signed).length := by
    unfold maxSignedMembershipBytes
    omega
  rw [decodeSignedMembership, reject_bind, if_neg hfits, hrun, ok_bind]
  simp only [reject_bind, full, ne_eq, not_true_eq_false, or_self, if_false,
    decodeCertificate_encodeCertificate shape, ok_bind, h]
  rfl

theorem decodeCertificate_eq_ok {input : Bytes} (h : decodeCertificate input = .ok certificate) :
    certificate.validateShape = .ok () := by
  simp only [decodeCertificate, ok_steps, exists_const] at h
  obtain ⟨⟨found, rest⟩, -, -, _, hshape, -, rfl⟩ := h
  exact hshape

/-- **One encoding.** The decoder takes the encodings of the well-shaped certificates, and these
only. -/
theorem signed_oneEncoding : OneEncodingOf
    (fun signed : SignedMembership => signed.certificate.validateShape = .ok ())
    encodeSignedMembership decodeSignedMembership where
  decode_encode := decodeSigned_encodeSigned
  encode_decode := by
    intro signed input h
    simp only [decodeSignedMembership, ok_steps, exists_const, not_not] at h
    obtain ⟨-, ⟨⟨payload, signature⟩, rest⟩, -, -, certificate, hcertificate, encoded, hencode,
      rfl, rfl⟩ := h
    exact ⟨decodeCertificate_eq_ok hcertificate, hencode⟩

variable [Ed25519]

/-- What signing returns is well shaped, complete and verifies under the root that signed. -/
theorem sign_spec (correct : Ed25519.Correct) {root : RootIdentity}
    (h : SignedMembership.sign certificate root = .ok signed) :
    signed.certificate = certificate ∧ signed.verify root.verifyingKey = .ok () := by
  simp only [SignedMembership.sign, ok_steps] at h
  obtain ⟨_, hshape, _, hhive, rfl⟩ := h
  refine ⟨rfl, ?_⟩
  have hsig := verifyDomain_signDomain correct root membershipDomain (encodeCertificate certificate)
  simp only [SignedMembership.verify, hshape, ok_bind, reject_bind, FixedBytes.ofBytes?_val,
    okOr_some]
  rw [if_neg (show ¬certificate.hiveId ≠ HiveId.fromRootVerifyingKey root.verifyingKey from hhive)]
  simp [hsig]

/-- What verification leaves to know about a signed membership. -/
theorem verify_eq_ok {rootKey : VerifyingKey} (h : signed.verify rootKey = .ok ()) :
    signed.certificate.validateShape = .ok () ∧
      signed.certificate.hiveId = HiveId.fromRootVerifyingKey rootKey ∧
      signed.signature.length = 64 := by
  simp only [SignedMembership.verify, ok_steps] at h
  obtain ⟨_, hshape, _, hhive, signature, hsig, -⟩ := h
  refine ⟨hshape, not_not.mp hhive, ?_⟩
  rw [FixedBytes.ofBytes?_eq_some.mp hsig]
  exact signature.2

end Shape

end Supgang.Membership
