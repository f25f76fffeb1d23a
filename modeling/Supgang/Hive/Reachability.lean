/-
# Hive.Reachability — short-lived claims about where a computer can be reached

`reachability.rs`: one member's signed report of an address of its own gateway, or of the address
it saw another member at, with the membership of the reporter inside.

The wire form of an address is its octets and its port. A claim about an IPv6 socket with a flow
label or a scope is well shaped, encodes, and is read back without them.

* `ReachabilityClaim.sign`, `ReachabilityClaim.verify` — the reporter's signature and what a
  receiver checks of it.
* `decodeClaim_encodeClaim` — the claim that travels is the claim with its bare address.
* `claim_oneEncoding` — **one encoding** for each well-shaped claim about a bare address.
-/
import Supgang.Hive.Candidate

namespace Supgang.Reachability

set_option autoImplicit false

open Theory List Supgang.Membership Record

/-- Maximum canonical wire size of one reachability claim. -/
def maxReachabilityClaimBytes : Nat := 2 * 1024
/-- Maximum lifetime of an ephemeral reachability claim. -/
def maxClaimLifetimeSeconds : UInt64 := 10 * 60
def maxFutureSkewSeconds : UInt64 := 5 * 60
def claimVersion : UInt16 := 1
def claimFields : Nat := 12
def payloadFields : Nat := 11
def claimDomain : Bytes := utf8 "supgang/reachability-claim/v1\x00"

/-- Reachability claim validation or canonical encoding failure. -/
inductive ReachabilityError where
  | invalidShape
  | invalidAddress
  | authorityMismatch
  | membership
  | expired
  | signature
  | oversized
deriving DecidableEq, Repr

instance : Cbor.FromDecode ReachabilityError := ⟨fun _ => .invalidShape⟩

/-- How the reporting device learned an address. -/
inductive ReachabilitySource where
  | gateway
  | peerObserved
deriving DecidableEq, Repr

def ReachabilitySource.toU8 : ReachabilitySource → UInt8
  | .gateway => 1
  | .peerObserved => 2

def ReachabilitySource.tryFrom (value : UInt8) : Except ReachabilityError ReachabilitySource :=
  if value = 1 then .ok .gateway
  else if value = 2 then .ok .peerObserved
  else .error .invalidShape

@[simp] theorem ReachabilitySource.tryFrom_toU8 (source : ReachabilitySource) :
    ReachabilitySource.tryFrom source.toU8 = .ok source := by
  cases source <;> rfl

/-- A short-lived, reporter-signed statement about a peer's reachable address. -/
structure ReachabilityClaim where
  hiveId : HiveId
  subject : NodeId
  reporter : NodeId
  reporterMembership : SignedMembership
  address : SocketAddr
  source : ReachabilitySource
  issuedAt : UInt64
  expiresAt : UInt64
  signature : Bytes
deriving DecidableEq, Repr

namespace ReachabilityClaim

/-- The corresponding ephemeral dial candidate. -/
def candidate (claim : ReachabilityClaim) : Except ReachabilityError EndpointCandidate :=
  let built :=
    match claim.source with
    | .gateway => EndpointCandidate.new .mapped .quicV1 claim.address
    | .peerObserved =>
      (EndpointCandidate.new .reflexive .quicV1 claim.address).tryCatch fun _ =>
        EndpointCandidate.new .local_ .quicV1 claim.address
  built.mapError fun _ => .invalidAddress

def validateShape (claim : ReachabilityClaim) : Except ReachabilityError Unit := do
  reject (claim.expiresAt ≤ claim.issuedAt ∨
    maxClaimLifetimeSeconds < saturatingSub claim.expiresAt claim.issuedAt ∨
    claim.reporterMembership.certificate.nodeId ≠ claim.reporter) ReachabilityError.invalidShape
  reject (claim.source = .gateway ∧ claim.reporter ≠ claim.subject)
    ReachabilityError.authorityMismatch
  reject (claim.source = .peerObserved ∧ claim.reporter = claim.subject)
    ReachabilityError.authorityMismatch
  let _ ← claim.candidate

end ReachabilityClaim

/-! ## Encoding -/

/-- The family of an address and its octets. -/
def encodeAddress : IpAddr → UInt8 × Bytes
  | .v4 octets => (4, octets.1)
  | .v6 octets => (6, octets.1)

def decodeAddress (family : UInt8) (bytes : Bytes) (port : UInt16) :
    Except ReachabilityError SocketAddr :=
  if family = 4 then do
    let octets ← okOr (FixedBytes.ofBytes? 4 bytes) ReachabilityError.invalidShape
    return SocketAddr.new (.v4 octets) port
  else if family = 6 then do
    let octets ← okOr (FixedBytes.ofBytes? 16 bytes) ReachabilityError.invalidShape
    return SocketAddr.new (.v6 octets) port
  else .error .invalidShape

def encodePayloadWithFields (claim : ReachabilityClaim) (fields : Nat) :
    Except ReachabilityError Bytes := do
  let membership ← (encodeSignedMembership claim.reporterMembership).mapError fun _ =>
    ReachabilityError.membership
  let (family, address) := encodeAddress claim.address.ip
  return Cbor.array fields ++ (Cbor.u16 claimVersion ++ (Cbor.u8 claim.source.toU8 ++
    (Cbor.bytes claim.hiveId.1 ++ (Cbor.bytes claim.subject.1 ++ (Cbor.bytes claim.reporter.1 ++
    (Cbor.bytes membership ++ (Cbor.u8 family ++ (Cbor.bytes address ++
    (Cbor.u16 claim.address.port ++ (Cbor.u64 claim.issuedAt ++ Cbor.u64 claim.expiresAt))))))))))

def encodePayload (claim : ReachabilityClaim) : Except ReachabilityError Bytes :=
  encodePayloadWithFields claim payloadFields

/-- Canonically encodes one reachability claim. -/
def encodeClaim (claim : ReachabilityClaim) : Except ReachabilityError Bytes := do
  let payload ← encodePayloadWithFields claim claimFields
  let output := payload ++ Cbor.bytes claim.signature
  reject (maxReachabilityClaimBytes < output.length) ReachabilityError.oversized
  return output

section Decoding

variable [Sha256]

/-- The fields of a claim in wire order. -/
def readClaim : Cbor.Reader ReachabilityError ReachabilityClaim := do
  Cbor.requireArray .invalidShape claimFields
  let version ← Cbor.readU16
  reject (version ≠ claimVersion) ReachabilityError.invalidShape
  let tag ← Cbor.readU8
  let source ← ofExcept (ReachabilitySource.tryFrom tag)
  let hiveId ← Cbor.readFixed .invalidShape 32
  let subject ← Cbor.readFixed .invalidShape 32
  let reporter ← Cbor.readFixed .invalidShape 32
  let raw ← Cbor.readBytes
  let reporterMembership ← ofExcept ((decodeSignedMembership raw).mapError fun _ =>
    ReachabilityError.membership)
  let family ← Cbor.readU8
  let octets ← Cbor.readBytes
  let port ← Cbor.readU16
  let address ← ofExcept (decodeAddress family octets port)
  let issuedAt ← Cbor.readU64
  let expiresAt ← Cbor.readU64
  let signature ← Cbor.readBytes
  return { hiveId, subject, reporter, reporterMembership, address, source, issuedAt, expiresAt,
           signature }

/-- Decodes and canonicalizes one reachability claim without trusting it. -/
def decodeClaim (input : Bytes) : Except ReachabilityError ReachabilityClaim := do
  reject (input = [] ∨ maxReachabilityClaimBytes < input.length) ReachabilityError.oversized
  let (claim, rest) ← readClaim.run input
  reject (rest ≠ []) ReachabilityError.invalidShape
  claim.validateShape
  let encoded ← encodeClaim claim
  reject (encoded ≠ input) ReachabilityError.invalidShape
  return claim

end Decoding

/-! ## Signing and verification -/

namespace ReachabilityClaim

variable [Sha256] [Ed25519]

/-- Creates a bounded reachability claim signed by its reporter. -/
def sign (reporterMembership : SignedMembership) (reporter : DeviceIdentity) (subject : NodeId)
    (address : SocketAddr) (source : ReachabilitySource) (issuedAt : UInt64) :
    Except ReachabilityError ReachabilityClaim := do
  let claim : ReachabilityClaim :=
    { hiveId := reporterMembership.certificate.hiveId, subject, reporter := reporter.nodeId
      reporterMembership, address, source, issuedAt
      expiresAt := saturatingAdd issuedAt maxClaimLifetimeSeconds, signature := [] }
  claim.validateShape
  let payload ← encodePayload claim
  return { claim with signature := (reporter.signDomain claimDomain payload).1 }

/-- Verifies reporter authority, time bounds, provenance, and signature. -/
def verify (claim : ReachabilityClaim) (rootKey : VerifyingKey) (now : UInt64) :
    Except ReachabilityError Unit := do
  claim.validateShape
  (claim.reporterMembership.verify rootKey).mapError fun _ => ReachabilityError.membership
  (claim.reporterMembership.certificate.validateTime now).mapError fun _ =>
    ReachabilityError.membership
  reject (claim.hiveId ≠ HiveId.fromRootVerifyingKey rootKey ∨
    claim.reporterMembership.certificate.hiveId ≠ claim.hiveId ∨
    claim.reporterMembership.certificate.nodeId ≠ claim.reporter)
    ReachabilityError.authorityMismatch
  reject (claim.expiresAt < now ∨ saturatingAdd now maxFutureSkewSeconds < claim.issuedAt)
    ReachabilityError.expired
  let key := claim.reporterMembership.certificate.deviceVerifyingKey
  reject (¬Ed25519.wellFormed key) ReachabilityError.membership
  let signature ← okOr (FixedBytes.ofBytes? 64 claim.signature) ReachabilityError.signature
  let payload ← encodePayload claim
  reject (¬verifyDomain key claimDomain payload signature) ReachabilityError.signature

end ReachabilityClaim

/-! ## The codec reads what it writes -/

/-- The claim as it travels. -/
def ReachabilityClaim.bare (claim : ReachabilityClaim) : ReachabilityClaim :=
  { claim with address := claim.address.bare }

/-- The encoding of a claim whose membership has a full signature. -/
def claimBytes (claim : ReachabilityClaim) : Bytes :=
  Cbor.array claimFields ++ (Cbor.u16 claimVersion ++ (Cbor.u8 claim.source.toU8 ++
    (Cbor.bytes claim.hiveId.1 ++ (Cbor.bytes claim.subject.1 ++ (Cbor.bytes claim.reporter.1 ++
    (Cbor.bytes (Membership.envelope claim.reporterMembership) ++
    (Cbor.u8 (encodeAddress claim.address.ip).1 ++
    (Cbor.bytes (encodeAddress claim.address.ip).2 ++ (Cbor.u16 claim.address.port ++
    (Cbor.u64 claim.issuedAt ++ (Cbor.u64 claim.expiresAt ++
    Cbor.bytes claim.signature)))))))))))

variable {claim : ReachabilityClaim}

theorem encodeClaim_eq_ok {encoded : Bytes} :
    encodeClaim claim = .ok encoded ↔ claim.reporterMembership.signature.length = 64 ∧
      (claimBytes claim).length ≤ maxReachabilityClaimBytes ∧ encoded = claimBytes claim := by
  simp only [encodeClaim, encodePayloadWithFields, ok_steps, exists_const, not_lt]
  constructor
  · rintro ⟨_, ⟨membership, hmember, rfl⟩, hsize, rfl⟩
    obtain ⟨hfull, rfl⟩ := Membership.encodeSigned_eq_ok hmember
    simp only [append_assoc] at hsize ⊢
    exact ⟨hfull, hsize, rfl⟩
  · rintro ⟨hfull, hsize, rfl⟩
    refine ⟨_, ⟨_, Membership.encodeSigned_ok hfull, rfl⟩, ?_⟩
    simp only [append_assoc]
    exact ⟨hsize, rfl⟩

theorem encodeAddress_length (ip : IpAddr) : (encodeAddress ip).2.length ≤ 16 := by
  cases ip with
  | v4 octets => exact octets.2.trans_le (by omega)
  | v6 octets => exact octets.2.le

theorem decodeAddress_encodeAddress (address : SocketAddr) :
    decodeAddress (encodeAddress address.ip).1 (encodeAddress address.ip).2 address.port =
      .ok address.bare := by
  cases address with
  | v4 octets port =>
    simp only [SocketAddr.ip, encodeAddress, decodeAddress, if_true, FixedBytes.ofBytes?_val,
      okOr_some]
    rfl
  | v6 octets port flowinfo scopeId =>
    simp only [SocketAddr.ip, encodeAddress, decodeAddress, FixedBytes.ofBytes?_val, okOr_some]
    rfl

theorem decodeAddress_unscoped {family : UInt8} {bytes : Bytes} {port : UInt16}
    {address : SocketAddr} (h : decodeAddress family bytes port = .ok address) :
    address.Unscoped := by
  unfold decodeAddress at h
  split at h
  · obtain ⟨octets, -, hmade⟩ := bind_eq_ok.mp h
    obtain rfl := pure_eq_ok.mp hmade
    trivial
  split at h
  · obtain ⟨octets, -, hmade⟩ := bind_eq_ok.mp h
    obtain rfl := pure_eq_ok.mp hmade
    exact ⟨rfl, rfl⟩
  · cases h

theorem bare_eq_self : claim.bare = claim ↔ claim.address.Unscoped := by
  rw [← SocketAddr.bare_eq_self]
  exact ⟨fun h => congrArg ReachabilityClaim.address h, fun h => by rw [ReachabilityClaim.bare, h]⟩

theorem claimBytes_bare (claim : ReachabilityClaim) : claimBytes claim.bare = claimBytes claim := by
  simp only [claimBytes, ReachabilityClaim.bare, SocketAddr.bare_ip, SocketAddr.bare_port]

/-- Flow label and scope decide nothing about the shape of a claim. -/
theorem validateShape_bare (h : claim.validateShape = .ok ()) :
    claim.bare.validateShape = .ok () := by
  have hcandidate : ∀ {found}, claim.candidate = .ok found →
      ∃ other, claim.bare.candidate = .ok other := by
    intro found hfound
    unfold ReachabilityClaim.candidate at hfound ⊢
    simp only [ReachabilityClaim.bare, EndpointCandidate.new_bare]
    cases hsource : claim.source with
    | gateway =>
      simp only [hsource, mapError_eq_ok] at hfound ⊢
      exact ⟨_, by rw [hfound]; rfl⟩
    | peerObserved =>
      simp only [hsource, mapError_eq_ok] at hfound ⊢
      cases hreflexive : EndpointCandidate.new .reflexive .quicV1 claim.address with
      | ok one => exact ⟨_, rfl⟩
      | error _ =>
        rw [hreflexive] at hfound
        exact ⟨_, congrArg (Except.map EndpointCandidate.bare) hfound⟩
  simp only [ReachabilityClaim.validateShape, bind_eq_ok, reject_eq_ok, exists_const] at h ⊢
  obtain ⟨hlife, hgateway, hobserved, found, hfound, -⟩ := h
  obtain ⟨other, hother⟩ := hcandidate hfound
  exact ⟨hlife, hgateway, hobserved, other, hother, rfl⟩

section Shape

variable [Sha256]

/-- What a claim's shape rules and those of the membership in it allow. -/
structure ReachabilityClaim.Shaped (claim : ReachabilityClaim) : Prop where
  shape : claim.validateShape = .ok ()
  membership : claim.reporterMembership.certificate.validateShape = .ok ()

variable {claim : ReachabilityClaim}

theorem readClaim_run (shape : claim.reporterMembership.certificate.validateShape = .ok ())
    (full : claim.reporterMembership.signature.length = 64)
    (short : claim.signature.length < 2 ^ 64) :
    readClaim.run (claimBytes claim) = .ok (claim.bare, []) := by
  have hmember := Membership.decodeSigned_encodeSigned shape (Membership.encodeSigned_ok full)
  have hsize := Membership.envelope_length_le full
  have hoctets := encodeAddress_length claim.address.ip
  rw [claimBytes, ← append_nil (Cbor.bytes claim.signature)]
  simp (disch := first | omega | decide | simp) only [readClaim, Cbor.bind_reads, Cbor.bind_reject,
    ReachabilitySource.tryFrom_toU8, hmember, mapError_ok, decodeAddress_encodeAddress]
  rfl

/-- **What travels.** A well-shaped claim is read back without the flow label and the scope of its
address. -/
theorem decodeClaim_encodeClaim {encoded : Bytes} (shaped : claim.Shaped)
    (h : encodeClaim claim = .ok encoded) :
    decodeClaim encoded = .ok claim.bare := by
  obtain ⟨full, hsize, rfl⟩ := encodeClaim_eq_ok.mp h
  have hshort : claim.signature.length < 2 ^ 64 := by
    simp only [claimBytes, Cbor.bytes, length_append, maxReachabilityClaimBytes] at hsize
    omega
  have hencode : encodeClaim claim.bare = .ok (claimBytes claim) := by
    rw [encodeClaim_eq_ok, claimBytes_bare]
    exact ⟨full, hsize, rfl⟩
  have hnonempty : claimBytes claim ≠ [] := by
    simp only [claimBytes, ne_eq, append_eq_nil_iff, not_and]
    exact fun hhead => absurd hhead (Cbor.head_ne_nil 4 claimFields)
  simp only [decodeClaim, ok_steps, exists_const, not_or, not_lt, not_not]
  exact ⟨⟨hnonempty, hsize⟩, (claim.bare, []), readClaim_run shaped.membership full hshort, rfl, (),
    validateShape_bare shaped.shape, claimBytes claim, hencode, rfl, rfl⟩

theorem readClaim_eq_ok {input rest : Bytes} (h : readClaim.run input = .ok (claim, rest)) :
    claim.reporterMembership.certificate.validateShape = .ok () ∧ claim.address.Unscoped := by
  simp only [readClaim, Cbor.run_bind_ok, Cbor.run_ofExcept_eq_ok, mapError_eq_ok] at h
  obtain ⟨_, _, -, _, _, -, _, _, -, _, _, -, _, _, -, _, _, -, _, _, -, _, _, -, raw, _, -,
    membership, _, ⟨hmember, -⟩, _, _, -, _, _, -, _, _, -, address, _, ⟨haddress, -⟩, _, _, -,
    _, _, -, _, _, -, h⟩ := h
  cases h
  exact ⟨(Membership.signed_oneEncoding.encode_decode hmember).1, decodeAddress_unscoped haddress⟩

/-- **One encoding.** The decoder takes the encodings of well-shaped claims about bare addresses,
and these only. -/
theorem claim_oneEncoding : OneEncodingOf
    (fun claim : ReachabilityClaim => claim.Shaped ∧ claim.address.Unscoped)
    encodeClaim decodeClaim where
  decode_encode := by
    intro claim encoded good hencode
    rw [decodeClaim_encodeClaim good.1 hencode, bare_eq_self.mpr good.2]
  encode_decode := by
    intro claim input h
    simp only [decodeClaim, ok_steps, exists_const, not_not] at h
    obtain ⟨-, ⟨found, rest⟩, hread, -, _, hshape, encoded, hencode, rfl, rfl⟩ := h
    obtain ⟨hmember, hunscoped⟩ := readClaim_eq_ok hread
    exact ⟨⟨⟨hshape, hmember⟩, hunscoped⟩, hencode⟩

end Shape

end Supgang.Reachability
