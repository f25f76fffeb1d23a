/-
# Hive.Invitation — join requests and root-authorized join bundles

`invitation.rs`: the proof of possession a joining device sends and the short-lived, root-signed
bundle it gets back. A bundle that verifies carries a membership and a revocation snapshot that
verify under the bundle's root key.

* `encodeJoinRequest`, `encodeJoinBundle` and their decoders; `request_oneEncoding`,
  `bundle_oneEncoding` — **one encoding** for each request that proves possession of its key, and
  for each bundle whose membership is well shaped.
-/
import Supgang.Hive.Membership
import Supgang.Hive.Revocation

namespace Supgang.Invitation

set_option autoImplicit false

open Theory List Supgang.Membership Revocation

def requestVersion : UInt16 := 2
def bundleVersion : UInt16 := 3
def requestDomain : Bytes := utf8 "supgang/join-request/v2\x00"
def bundleDomain : Bytes := utf8 "supgang/join-bundle/v3\x00"
def requestFields : Nat := 4
def bundleFields : Nat := 7
def maxBundleLifetimeSeconds : UInt64 := 60 * 60
/-- Maximum encoded join-request size. -/
def maxJoinRequestBytes : Nat := 512
/-- Maximum encoded root-authorized join bundle size. -/
def maxJoinBundleBytes : Nat := 12 * 1024

/-- A join artifact construction or verification failure. -/
inductive InvitationError where
  | unsupportedVersion
  | oversized
  | invalidDeviceKey
  | invalidRequestSignature
  | invalidRootKey
  | requestBindingMismatch
  | invalidBundleSignature
  | invalidBundleLifetime
  | expiredBundle
  | membership (error : MembershipError)
  | revocation (error : RevocationError)
  | decode (error : Cbor.DecodeError)
  | invalidShape
  | nonCanonical
deriving DecidableEq, Repr

instance : Cbor.FromDecode InvitationError := ⟨.decode⟩

/-- A device-generated, proof-of-possession request for hive admission. -/
structure JoinRequest where
  deviceVerifyingKey : FixedBytes 32
  nonce : FixedBytes 32
  signature : FixedBytes 64
deriving DecidableEq, Repr

/-- A root key and membership authorization returned to the joining computer. -/
structure JoinBundle where
  rootVerifyingKey : FixedBytes 32
  membership : SignedMembership
  revocations : SignedRevocationList
  issuedAt : UInt64
  expiresAt : UInt64
  signature : Bytes
deriving DecidableEq, Repr

def requestPayload (deviceKey nonce : FixedBytes 32) : Bytes :=
  beBytes 2 requestVersion.toNat ++ deviceKey.1 ++ nonce.1

def bundlePayload (rootKey : FixedBytes 32) (membership : SignedMembership)
    (revocations : SignedRevocationList) (issuedAt expiresAt : UInt64) :
    Except InvitationError Bytes := do
  let membership ← (encodeSignedMembership membership).mapError InvitationError.membership
  let revocations ← (encodeSignedRevocations revocations).mapError InvitationError.revocation
  return Cbor.array 6 ++ (Cbor.u16 bundleVersion ++ (Cbor.bytes rootKey.1 ++
    (Cbor.bytes membership ++ (Cbor.bytes revocations ++ (Cbor.u64 issuedAt ++
    Cbor.u64 expiresAt)))))

/-! ## Signing and verification -/

section Signatures

variable [Ed25519]

/-- Creates a request proving possession of the protected pending key. -/
def JoinRequest.create (pending : PendingIdentity) : JoinRequest where
  deviceVerifyingKey := pending.device.verifyingKey
  nonce := pending.requestNonce
  signature := pending.device.signDomain requestDomain
    (requestPayload pending.device.verifyingKey pending.requestNonce)

/-- Verifies the canonical proof of possession. -/
def JoinRequest.verify (request : JoinRequest) : Except InvitationError VerifyingKey := do
  reject (¬Ed25519.wellFormed request.deviceVerifyingKey) InvitationError.invalidDeviceKey
  reject (¬verifyDomain request.deviceVerifyingKey requestDomain
    (requestPayload request.deviceVerifyingKey request.nonce) request.signature)
    InvitationError.invalidRequestSignature
  return request.deviceVerifyingKey

variable [Sha256]

/-- Root-signs one short-lived response from already-persisted authority. -/
def JoinBundle.new (root : RootIdentity) (membership : SignedMembership)
    (revocations : SignedRevocationList) (issuedAt : UInt64) :
    Except InvitationError JoinBundle := do
  let rootVerifyingKey := root.verifyingKey
  (membership.verify rootVerifyingKey).mapError InvitationError.membership
  (revocations.verify rootVerifyingKey).mapError InvitationError.revocation
  reject (issuedAt < membership.certificate.issuedAt ∨ issuedAt < revocations.list.issuedAt)
    InvitationError.invalidBundleLifetime
  let expiresAt := saturatingAdd issuedAt maxBundleLifetimeSeconds
  let payload ← bundlePayload rootVerifyingKey membership revocations issuedAt expiresAt
  return { rootVerifyingKey, membership, revocations, issuedAt, expiresAt
           signature := (root.signDomain bundleDomain payload).1 }

/-- Verifies root authorization and binding to protected pending state. -/
def JoinBundle.verifyForPending (bundle : JoinBundle) (pending : PendingIdentity) (now : UInt64) :
    Except InvitationError VerifyingKey := do
  reject (¬Ed25519.wellFormed bundle.rootVerifyingKey) InvitationError.invalidRootKey
  (bundle.membership.verify bundle.rootVerifyingKey).mapError InvitationError.membership
  (bundle.revocations.verify bundle.rootVerifyingKey).mapError InvitationError.revocation
  reject (bundle.expiresAt ≤ bundle.issuedAt ∨
    maxBundleLifetimeSeconds < saturatingSub bundle.expiresAt bundle.issuedAt ∨
    bundle.issuedAt < bundle.membership.certificate.issuedAt ∨
    bundle.issuedAt < bundle.revocations.list.issuedAt) InvitationError.invalidBundleLifetime
  reject (bundle.expiresAt < now) InvitationError.expiredBundle
  let signature ← okOr (FixedBytes.ofBytes? 64 bundle.signature)
    InvitationError.invalidBundleSignature
  let payload ← bundlePayload bundle.rootVerifyingKey bundle.membership bundle.revocations
    bundle.issuedAt bundle.expiresAt
  reject (¬verifyDomain bundle.rootVerifyingKey bundleDomain payload signature)
    InvitationError.invalidBundleSignature
  reject (bundle.membership.certificate.deviceVerifyingKey ≠ pending.device.verifyingKey ∨
    bundle.membership.certificate.admissionNonce ≠ pending.requestNonce ∨
    bundle.revocations.contains bundle.membership.certificate.nodeId)
    InvitationError.requestBindingMismatch
  return bundle.rootVerifyingKey

end Signatures

/-! ## Encoding -/

def encodeJoinRequest (request : JoinRequest) : Except InvitationError Bytes := do
  let output := Cbor.array requestFields ++ (Cbor.u16 requestVersion ++
    (Cbor.bytes request.deviceVerifyingKey.1 ++ (Cbor.bytes request.nonce.1 ++
    Cbor.bytes request.signature.1)))
  reject (maxJoinRequestBytes < output.length) InvitationError.oversized
  return output

def readFixed (n : Nat) : Cbor.Reader InvitationError (FixedBytes n) :=
  Cbor.readFixed .invalidShape n

def readJoinRequest : Cbor.Reader InvitationError JoinRequest := do
  Cbor.requireArray .invalidShape requestFields
  let version ← Cbor.readU16
  reject (version ≠ requestVersion) InvitationError.unsupportedVersion
  let deviceVerifyingKey ← readFixed 32
  let nonce ← readFixed 32
  let signature ← readFixed 64
  return { deviceVerifyingKey, nonce, signature }

def decodeJoinRequest [Ed25519] (input : Bytes) : Except InvitationError JoinRequest := do
  reject (maxJoinRequestBytes < input.length) InvitationError.oversized
  let (request, rest) ← readJoinRequest.run input
  reject (rest ≠ []) InvitationError.invalidShape
  let encoded ← encodeJoinRequest request
  reject (encoded ≠ input) InvitationError.nonCanonical
  let _ ← request.verify
  return request

def encodeJoinBundle (bundle : JoinBundle) : Except InvitationError Bytes := do
  let membership ← (encodeSignedMembership bundle.membership).mapError InvitationError.membership
  let revocations ← (encodeSignedRevocations bundle.revocations).mapError
    InvitationError.revocation
  let output := Cbor.array bundleFields ++ (Cbor.u16 bundleVersion ++
    (Cbor.bytes bundle.rootVerifyingKey.1 ++ (Cbor.bytes membership ++ (Cbor.bytes revocations ++
    (Cbor.u64 bundle.issuedAt ++ (Cbor.u64 bundle.expiresAt ++ Cbor.bytes bundle.signature))))))
  reject (maxJoinBundleBytes < output.length) InvitationError.oversized
  return output

def readJoinBundle [Sha256] : Cbor.Reader InvitationError JoinBundle := do
  Cbor.requireArray .invalidShape bundleFields
  let version ← Cbor.readU16
  reject (version ≠ bundleVersion) InvitationError.unsupportedVersion
  let rootVerifyingKey ← readFixed 32
  let raw ← Cbor.readBytes
  let membership ← ofExcept ((decodeSignedMembership raw).mapError InvitationError.membership)
  let raw ← Cbor.readBytes
  let revocations ← ofExcept ((decodeSignedRevocations raw).mapError InvitationError.revocation)
  let issuedAt ← Cbor.readU64
  let expiresAt ← Cbor.readU64
  let signature ← Cbor.readBytes
  return { rootVerifyingKey, membership, revocations, issuedAt, expiresAt, signature }

def decodeJoinBundle [Sha256] (input : Bytes) : Except InvitationError JoinBundle := do
  reject (maxJoinBundleBytes < input.length) InvitationError.oversized
  let (bundle, rest) ← readJoinBundle.run input
  reject (rest ≠ []) InvitationError.invalidShape
  let encoded ← encodeJoinBundle bundle
  reject (encoded ≠ input) InvitationError.nonCanonical
  return bundle

/-! ## The codecs read what they write -/

theorem readJoinRequest_run (request : JoinRequest) :
    readJoinRequest.run (Cbor.array requestFields ++ (Cbor.u16 requestVersion ++
      (Cbor.bytes request.deviceVerifyingKey.1 ++ (Cbor.bytes request.nonce.1 ++
      Cbor.bytes request.signature.1)))) = .ok (request, []) := by
  rw [← append_nil (Cbor.bytes request.signature.1)]
  simp (disch := first | omega | decide | simp) only [readJoinRequest, readFixed, Cbor.bind_reads,
    Cbor.bind_reject]
  rfl

variable {encoded : Bytes} {bundle : JoinBundle}

theorem encodeJoinRequest_eq_ok {request : JoinRequest}
    (h : encodeJoinRequest request = .ok encoded) :
    encoded.length ≤ maxJoinRequestBytes ∧ readJoinRequest.run encoded = .ok (request, []) := by
  simp only [encodeJoinRequest, ok_steps, exists_const, not_lt] at h
  obtain ⟨hsize, rfl⟩ := h
  exact ⟨hsize, readJoinRequest_run request⟩

/-- **One encoding.** The decoder takes the encodings of requests that prove possession of their
key, and these only. -/
theorem request_oneEncoding [Ed25519] :
    OneEncodingOf (fun request : JoinRequest => ∃ key, request.verify = .ok key)
      encodeJoinRequest decodeJoinRequest where
  decode_encode := by
    intro request encoded hverify hencode
    obtain ⟨hsize, hrun⟩ := encodeJoinRequest_eq_ok hencode
    obtain ⟨key, hverify⟩ := hverify
    simp only [decodeJoinRequest, ok_steps, exists_const, not_lt, not_not]
    exact ⟨hsize, (request, []), hrun, rfl, encoded, hencode, rfl, key, hverify, rfl⟩
  encode_decode := by
    intro request input h
    simp only [decodeJoinRequest, ok_steps, exists_const, not_lt, not_not] at h
    obtain ⟨-, ⟨found, rest⟩, -, -, encoded, hencode, rfl, key, hverify, rfl⟩ := h
    exact ⟨⟨key, hverify⟩, hencode⟩

/-- What the encoder has found out about the bundle it encodes. -/
theorem encodeJoinBundle_eq_ok (h : encodeJoinBundle bundle = .ok encoded) :
    ∃ membership revocations, encodeSignedMembership bundle.membership = .ok membership ∧
      encodeSignedRevocations bundle.revocations = .ok revocations ∧
      encoded.length ≤ maxJoinBundleBytes ∧
      encoded = Cbor.array bundleFields ++ (Cbor.u16 bundleVersion ++
        (Cbor.bytes bundle.rootVerifyingKey.1 ++ (Cbor.bytes membership ++
        (Cbor.bytes revocations ++ (Cbor.u64 bundle.issuedAt ++ (Cbor.u64 bundle.expiresAt ++
        Cbor.bytes bundle.signature)))))) := by
  simp only [encodeJoinBundle, ok_steps, exists_const, not_lt] at h
  obtain ⟨membership, hmember, revocations, hrevoked, hsize, rfl⟩ := h
  exact ⟨membership, revocations, hmember, hrevoked, hsize, rfl⟩

variable [Sha256]

theorem readJoinBundle_run (shape : bundle.membership.certificate.validateShape = .ok ())
    (h : encodeJoinBundle bundle = .ok encoded) :
    readJoinBundle.run encoded = .ok (bundle, []) := by
  obtain ⟨membership, revocations, hmember, hrevoked, hsize, rfl⟩ := encodeJoinBundle_eq_ok h
  have hread := Membership.signed_oneEncoding.decode_encode shape hmember
  have hread' := Revocation.signed_oneEncoding.decode_encode hrevoked
  have hmembers : membership.length < 2 ^ 64 := by
    simp only [length_append, Cbor.bytes, maxJoinBundleBytes] at hsize
    omega
  have hrevocations : revocations.length < 2 ^ 64 := by
    simp only [length_append, Cbor.bytes, maxJoinBundleBytes] at hsize
    omega
  have hsignature : bundle.signature.length < 2 ^ 64 := by
    simp only [length_append, Cbor.bytes, maxJoinBundleBytes] at hsize
    omega
  rw [← append_nil (Cbor.bytes bundle.signature)]
  simp (disch := first | omega | decide | simp) only [readJoinBundle, readFixed, Cbor.bind_reads,
    Cbor.bind_reject, hread, hread', mapError_ok]
  rfl

/-- A membership that a bundle was read with has passed its own shape check. -/
theorem readJoinBundle_shape {input rest : Bytes}
    (h : readJoinBundle.run input = .ok (bundle, rest)) :
    bundle.membership.certificate.validateShape = .ok () := by
  simp only [readJoinBundle, Cbor.run_bind_ok, Cbor.run_ofExcept_eq_ok, mapError_eq_ok] at h
  obtain ⟨_, _, -, _, _, -, _, _, -, _, _, -, raw, _, -, membership, _, ⟨hmember, -⟩, _, _, -, _, _,
    -, _, _, -, _, _, -, _, _, -, h⟩ := h
  cases h
  exact (Membership.signed_oneEncoding.encode_decode hmember).1

/-- **One encoding.** The decoder takes the encodings of bundles with a well-shaped membership, and
these only. -/
theorem bundle_oneEncoding : OneEncodingOf
    (fun bundle : JoinBundle => bundle.membership.certificate.validateShape = .ok ())
    encodeJoinBundle decodeJoinBundle where
  decode_encode := by
    intro bundle encoded shape hencode
    obtain ⟨-, -, -, -, hsize, -⟩ := encodeJoinBundle_eq_ok hencode
    simp only [decodeJoinBundle, ok_steps, exists_const, not_lt, not_not]
    exact ⟨hsize, (bundle, []), readJoinBundle_run shape hencode, rfl, encoded, hencode, rfl, rfl⟩
  encode_decode := by
    intro bundle input h
    simp only [decodeJoinBundle, ok_steps, exists_const, not_lt, not_not] at h
    obtain ⟨-, ⟨found, rest⟩, hread, -, encoded, hencode, rfl, rfl⟩ := h
    exact ⟨readJoinBundle_shape hread, hencode⟩

end Supgang.Invitation
