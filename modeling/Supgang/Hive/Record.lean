/-
# Hive.Record — endpoint records

`record.rs`, with the candidate and address types of `candidate.rs` and the encoder of `wire.rs`:
what a device says about itself, made canonical, checked and signed.

* `sign_sequence` — the record that is signed carries the sequence it was built with.
-/
import Supgang.Hive.Membership

namespace Supgang.Record

set_option autoImplicit false

open Theory

/-! ## Candidates -/

/-- The provenance and expected reachability scope of a candidate. -/
inductive CandidateKind where
  | local_
  | direct
  | reflexive
  | mapped
  | ownedRelay
deriving DecidableEq, Repr

def CandidateKind.toU8 : CandidateKind → UInt8
  | .local_ => 0
  | .direct => 1
  | .reflexive => 2
  | .mapped => 3
  | .ownedRelay => 4

/-- The on-wire transport for a candidate. -/
inductive CandidateTransport where
  | quicV1
deriving DecidableEq, Repr

def CandidateTransport.toU8 : CandidateTransport → UInt8
  | .quicV1 => 0

/-- A socket address of the standard library. -/
inductive SocketAddr where
  | v4 (octets : FixedBytes 4) (port : UInt16)
  | v6 (octets : FixedBytes 16) (port : UInt16) (flowinfo scopeId : UInt32)
deriving DecidableEq, Repr

namespace SocketAddr

def octets : SocketAddr → Bytes
  | v4 octets _ => octets.1
  | v6 octets _ _ _ => octets.1

def port : SocketAddr → UInt16
  | v4 _ port => port
  | v6 _ port _ _ => port

/-- The components the derived order compares, in order. -/
def sortKey : SocketAddr → List Nat
  | v4 octets port => 0 :: octets.1.map UInt8.toNat ++ [port.toNat]
  | v6 octets port flowinfo scopeId =>
    1 :: octets.1.map UInt8.toNat ++ [port.toNat, flowinfo.toNat, scopeId.toNat]

end SocketAddr

/-- A possible socket at which a node may currently be reached. -/
structure EndpointCandidate where
  kind : CandidateKind
  transport : CandidateTransport
  address : SocketAddr
deriving DecidableEq, Repr

def EndpointCandidate.sortKey (candidate : EndpointCandidate) : List Nat :=
  candidate.kind.toU8.toNat :: candidate.transport.toU8.toNat :: candidate.address.sortKey

def maxCandidates : Nat := 8

/-! ## Services and capabilities -/

def maxServiceAdverts : Nat := 4

/-- One service the signing computer offers. The name has passed its own check. -/
structure ServiceAdvert where
  name : String
  port : UInt16
  keyPin : FixedBytes 32
deriving DecidableEq, Repr

/-- The components the derived order compares, in order. -/
def ServiceAdvert.sortKey (service : ServiceAdvert) : Bytes ×ₗ Nat ×ₗ FixedBytes 32 :=
  toLex (utf8 service.name, toLex (service.port.toNat, service.keyPin))

/-- Capabilities an endpoint record may advertise. -/
structure Capabilities where
  bits : UInt64
deriving DecidableEq, Repr

namespace Capabilities

def introducer : Capabilities := ⟨1⟩
def controlRelay : Capabilities := ⟨2⟩
def knownBits : UInt64 := introducer.bits ||| controlRelay.bits

def contains (capabilities other : Capabilities) : Bool :=
  capabilities.bits &&& other.bits == other.bits

end Capabilities

/-- What a record claims about its computer beyond identity and time. -/
structure EndpointClaims where
  candidates : List EndpointCandidate
  capabilities : Capabilities
  services : List ServiceAdvert
deriving DecidableEq, Repr

/-! ## Records -/

def endpointRecordVersionV1 : UInt16 := 1
def endpointRecordVersionV2 : UInt16 := 2
def endpointRecordVersion : UInt16 := 3
/-- Maximum lifetime of one endpoint record, in seconds. -/
def maxRecordLifetimeSeconds : UInt64 := 7 * 24 * 60 * 60
/-- Maximum accepted size of a canonical unsigned endpoint record. -/
def maxEndpointRecordBytes : Nat := 3584

/-- A reason an endpoint record was rejected. -/
inductive RecordError where
  | unsupportedVersion
  | invalidServiceName
  | invalidServicePort
  | servicesNotSupported
  | tooManyServices
  | servicesNotCanonical
  | invalidDisplayName
  | zeroSequence
  | invalidLifetime
  | lifetimeTooLong
  | tooManyCandidates
  | candidatesNotCanonical
  | unknownCapability
  | signerMismatch
  | encoding
  | outlivesMembership
  | expired
  | issuedInFuture
  | invalidSignature
  | membershipMismatch
  | unauthorizedCapability
  | membership (error : Membership.MembershipError)
deriving DecidableEq, Repr

def Capabilities.fromBits (bits : UInt64) : Except RecordError Capabilities :=
  if bits &&& ~~~knownBits = 0 then .ok ⟨bits⟩ else .error .unknownCapability

/-- The authoritative, unsigned contents of one node's current endpoint record. -/
structure EndpointRecord where
  protocolVersion : UInt16
  hiveId : HiveId
  nodeId : NodeId
  displayName : Option String
  transportKeyId : TransportKeyId
  generation : UInt64
  sequence : UInt64
  issuedAt : UInt64
  expiresAt : UInt64
  candidates : List EndpointCandidate
  capabilities : Capabilities
  services : List ServiceAdvert
deriving DecidableEq, Repr

/-- An endpoint record and its author's Ed25519 signature. -/
structure SignedEndpointRecord where
  record : EndpointRecord
  signature : Bytes
deriving DecidableEq, Repr

def ServiceAdvert.validate (service : ServiceAdvert) : Except RecordError Unit :=
  reject (service.port = 0) RecordError.invalidServicePort

def validateServices (services : List ServiceAdvert) : Except RecordError Unit := do
  reject (maxServiceAdverts < services.length) RecordError.tooManyServices
  reject (¬services.IsChain fun first second => utf8 first.name < utf8 second.name)
    RecordError.servicesNotCanonical
  services.forM ServiceAdvert.validate

def EndpointRecord.validateShape (record : EndpointRecord) : Except RecordError Unit := do
  reject (record.protocolVersion ∉
    [endpointRecordVersionV1, endpointRecordVersionV2, endpointRecordVersion])
    RecordError.unsupportedVersion
  reject ((record.protocolVersion == endpointRecordVersionV1) ≠ record.displayName.isNone)
    RecordError.invalidDisplayName
  reject (record.protocolVersion < endpointRecordVersion ∧ record.services ≠ [])
    RecordError.servicesNotSupported
  validateServices record.services
  reject (record.sequence = 0) RecordError.zeroSequence
  reject (record.expiresAt ≤ record.issuedAt) RecordError.invalidLifetime
  reject (maxRecordLifetimeSeconds < saturatingSub record.expiresAt record.issuedAt)
    RecordError.lifetimeTooLong
  reject (maxCandidates < record.candidates.length) RecordError.tooManyCandidates
  reject (¬record.candidates.IsChain fun first second => first.sortKey < second.sortKey)
    RecordError.candidatesNotCanonical
  let _ ← Capabilities.fromBits record.capabilities.bits

/-- Sorts and deduplicates candidates and services before signing. -/
def EndpointRecord.canonicalizeCandidates (record : EndpointRecord) : EndpointRecord :=
  { record with
    candidates := (record.candidates.insertionSort fun a b => a.sortKey ≤ b.sortKey).destutter
      (· ≠ ·)
    services := (record.services.insertionSort fun a b => a.sortKey ≤ b.sortKey).destutter
      (· ≠ ·) }

/-! ## Encoding and signing -/

def encodeCandidate (candidate : EndpointCandidate) : Bytes :=
  Cbor.array 4 ++ (Cbor.u8 candidate.kind.toU8 ++ (Cbor.u8 candidate.transport.toU8 ++
    (Cbor.bytes candidate.address.octets ++ Cbor.u16 candidate.address.port)))

def encodeService (service : ServiceAdvert) : Bytes :=
  Cbor.array 3 ++ (Cbor.text service.name ++ (Cbor.u16 service.port ++
    Cbor.bytes service.keyPin.1))

/-- The number of fields a record of this version and display name has on the wire. -/
def recordFields (record : EndpointRecord) : Except RecordError Nat :=
  if record.protocolVersion = endpointRecordVersionV1 ∧ record.displayName.isNone then .ok 10
  else if record.protocolVersion = endpointRecordVersionV2 ∧ record.displayName.isSome then .ok 11
  else if record.protocolVersion = endpointRecordVersion ∧ record.displayName.isSome then .ok 12
  else .error .encoding

def displayNameBytes : Option String → Bytes
  | some name => Cbor.text name
  | none => []

def servicesBytes (fields : Nat) (services : List ServiceAdvert) : Bytes :=
  if fields = 12 then Cbor.array services.length ++ services.flatMap encodeService else []

/-- The bytes of a record with this many fields. -/
def recordBytes (fields : Nat) (record : EndpointRecord) : Bytes :=
  Cbor.array fields ++ (Cbor.u16 record.protocolVersion ++
    (Cbor.bytes record.hiveId.1 ++ (Cbor.bytes record.nodeId.1 ++
    (displayNameBytes record.displayName ++
    (Cbor.bytes record.transportKeyId.1 ++ (Cbor.u64 record.generation ++
    (Cbor.u64 record.sequence ++ (Cbor.u64 record.issuedAt ++ (Cbor.u64 record.expiresAt ++
    (Cbor.array record.candidates.length ++ (record.candidates.flatMap encodeCandidate ++
    (Cbor.u64 record.capabilities.bits ++ servicesBytes fields record.services))))))))))))

/-- The wire encoder; every failure of it reaches the signer as an encoding failure. -/
def encodeEndpointRecord (record : EndpointRecord) : Except RecordError Bytes := do
  let fields ← recordFields record
  let output := recordBytes fields record
  reject (maxEndpointRecordBytes < output.length) RecordError.encoding
  return output

def signatureDomain (protocolVersion : UInt16) : Except RecordError Bytes :=
  if protocolVersion = endpointRecordVersionV1 then .ok (utf8 "supgang/endpoint-record/v1\x00")
  else if protocolVersion = endpointRecordVersionV2 then .ok (utf8 "supgang/endpoint-record/v2\x00")
  else if protocolVersion = endpointRecordVersion then .ok (utf8 "supgang/endpoint-record/v3\x00")
  else .error .unsupportedVersion

variable [Sha256] [Ed25519]

/-- Canonicalizes, validates, and signs an endpoint record. -/
def SignedEndpointRecord.sign (record : EndpointRecord) (identity : DeviceIdentity) :
    Except RecordError SignedEndpointRecord := do
  let record := record.canonicalizeCandidates
  record.validateShape
  reject (record.nodeId ≠ identity.nodeId) RecordError.signerMismatch
  let payload ← encodeEndpointRecord record
  let domain ← signatureDomain record.protocolVersion
  return { record, signature := (identity.signDomain domain payload).1 }

theorem sign_sequence {record : EndpointRecord} {identity : DeviceIdentity}
    {signed : SignedEndpointRecord} (h : SignedEndpointRecord.sign record identity = .ok signed) :
    signed.record.sequence = record.sequence := by
  simp only [SignedEndpointRecord.sign, ok_steps] at h
  obtain ⟨_, -, _, -, payload, -, domain, -, rfl⟩ := h
  rfl

end Supgang.Record
