/-
# Hive.Wire — endpoint records between devices

`wire.rs` and the verification half of `record.rs`: the reader of signed records and the checks a
peer makes. The encoder is in `Hive.Record`. What travels of a candidate is its kind, transport,
octets and port; flow label and scope of an IPv6 socket stay behind.

* `EndpointRecord.bare` — a record as it travels; `encode_bare`.
* `decode_encode` — the encoding of a well-shaped record reads back as its bare form.
* `decodeSigned_encodeSigned` — the same of the signed envelope.
* `verify_sign`, `verifyAuthorized_of_verify` — a peer accepts what the device signed.
-/
import Supgang.Hive.Candidate

namespace Supgang.Record

set_option autoImplicit false

open Theory List Supgang.Membership
open Cbor (array bind_bytes bind_ofExcept bind_reads run_bind_of)

def maxSignedEndpointRecordBytes : Nat := 4096
/-- Maximum tolerated future clock skew, in seconds. -/
def maxFutureSkewSeconds : UInt64 := 5 * 60

/-- An encoding or decoding failure at the network boundary. -/
inductive WireError where
  | oversized
  | decode (error : Cbor.DecodeError)
  | wrongFieldCount
  | addressLength
  | candidate (error : CandidateError)
  | capability
  | envelopeVersion
  | recordVersion
  | displayName
  | service
  | signatureLength
  | nonCanonical
  | trailingData
deriving DecidableEq, Repr

instance : Cbor.FromDecode WireError := ⟨.decode⟩

/-! ## Names -/

def asciiLowercase (byte : UInt8) : Bool := 0x61 ≤ byte && byte ≤ 0x7a
def asciiUppercase (byte : UInt8) : Bool := 0x41 ≤ byte && byte ≤ 0x5a
def asciiDigit (byte : UInt8) : Bool := 0x30 ≤ byte && byte ≤ 0x39

def maxServiceNameBytes : Nat := 16

/-- One to sixteen lowercase ASCII letters, digits and hyphens, not starting with a hyphen. -/
def ServiceName.new (value : String) : Except RecordError String := do
  let bytes := utf8 value
  reject (bytes = [] ∨ maxServiceNameBytes < bytes.length ∨ bytes.head? = some 0x2d ∨
    ¬bytes.all fun byte => asciiLowercase byte || asciiDigit byte || byte == 0x2d)
    RecordError.invalidServiceName
  return value

/-- The one failure of a display name. -/
inductive ProfileError where
  | invalidName
deriving DecidableEq, Repr

def maxPeerNameBytes : Nat := 63

def isNameByte (byte : UInt8) : Bool :=
  asciiLowercase byte || asciiUppercase byte || asciiDigit byte || byte == 0x20 || byte == 0x2e ||
    byte == 0x5f || byte == 0x2d

/-- Of the bytes that may stand in a name, trimming takes off the blank only. -/
def PeerName.new (value : String) : Except ProfileError String := do
  let bytes := utf8 value
  reject (bytes = [] ∨ maxPeerNameBytes < bytes.length ∨
    (bytes.head? = some 0x20 ∨ bytes.getLast? = some 0x20) ∨ ¬bytes.all isNameByte)
    ProfileError.invalidName
  return value

/-! ## Reading -/

def requireArray (expected : Nat) : Cbor.Reader WireError Unit :=
  Cbor.requireArray .wrongFieldCount expected

def readFixed (n : Nat) : Cbor.Reader WireError (FixedBytes n) := Cbor.readFixed .addressLength n

def readArrayLen : Cbor.Reader WireError Nat := do
  let found ← Cbor.readArray
  ofExcept (okOr found .wrongFieldCount)

/-- The address a byte string is, by its length. -/
def readIp : Cbor.Reader WireError IpAddr := do
  let raw ← Cbor.readBytes
  match FixedBytes.ofBytes? 4 raw, FixedBytes.ofBytes? 16 raw with
  | some octets, _ => return .v4 octets
  | none, some octets => return .v6 octets
  | none, none => throw .addressLength

def readCandidate : Cbor.Reader WireError EndpointCandidate := do
  requireArray 4
  let kind ← Cbor.readU8
  let kind ← ofExcept ((CandidateKind.tryFrom kind).mapError WireError.candidate)
  let transport ← Cbor.readU8
  let transport ← ofExcept ((CandidateTransport.tryFrom transport).mapError WireError.candidate)
  let ip ← readIp
  let port ← Cbor.readU16
  ofExcept ((EndpointCandidate.new kind transport (SocketAddr.new ip port)).mapError
    WireError.candidate)

def readService : Cbor.Reader WireError ServiceAdvert := do
  requireArray 3
  let name ← Cbor.readText
  let name ← ofExcept ((ServiceName.new name).mapError fun _ => WireError.service)
  let port ← Cbor.readU16
  let keyPin ← readFixed 32
  let service : ServiceAdvert := { name, port, keyPin }
  ofExcept (service.validate.mapError fun _ => WireError.service)
  return service

/-- Whether a record of this version and number of fields carries a display name. -/
def displayNamePresent (protocolVersion : UInt16) (fields : Nat) : Except WireError Bool :=
  if protocolVersion = endpointRecordVersionV1 ∧ fields = 10 then .ok false
  else if protocolVersion = endpointRecordVersionV2 ∧ fields = 11 then .ok true
  else if protocolVersion = endpointRecordVersion ∧ fields = 12 then .ok true
  else if protocolVersion ∈
      [endpointRecordVersionV1, endpointRecordVersionV2, endpointRecordVersion] then
    .error .wrongFieldCount
  else .error .recordVersion

def readDisplayName (present : Bool) : Cbor.Reader WireError (Option String) :=
  if present then do
    let name ← Cbor.readText
    let name ← ofExcept ((PeerName.new name).mapError fun _ => WireError.displayName)
    return some name
  else return none

/-- A bounded array of items. -/
def readBounded {α : Type} (maximum : Nat) (item : Cbor.Reader WireError α) :
    Cbor.Reader WireError (List α) := do
  let count ← readArrayLen
  reject (maximum < count) WireError.oversized
  Cbor.readMany item count

/-- Only the newest version carries services. -/
def readServices (fields : Nat) : Cbor.Reader WireError (List ServiceAdvert) :=
  if fields = 12 then readBounded maxServiceAdverts readService else pure []

def readRecord : Cbor.Reader WireError EndpointRecord := do
  let fields ← readArrayLen
  let protocolVersion ← Cbor.readU16
  let present ← ofExcept (displayNamePresent protocolVersion fields)
  let hiveId ← readFixed 32
  let nodeId ← readFixed 32
  let displayName ← readDisplayName present
  let transportKeyId ← readFixed 32
  let generation ← Cbor.readU64
  let sequence ← Cbor.readU64
  let issuedAt ← Cbor.readU64
  let expiresAt ← Cbor.readU64
  let candidates ← readBounded maxCandidates readCandidate
  let bits ← Cbor.readU64
  let capabilities ← ofExcept ((Capabilities.fromBits bits).mapError fun _ => WireError.capability)
  let services ← readServices fields
  return { protocolVersion, hiveId, nodeId, displayName, transportKeyId, generation, sequence,
           issuedAt, expiresAt, candidates, capabilities, services }

/-- What the encoder refuses with, where the signer sees an encoding failure. -/
def encodeError (record : EndpointRecord) : RecordError → WireError := fun _ =>
  match recordFields record with
  | .ok _ => .oversized
  | .error _ => .recordVersion

/-- Decodes and re-encodes an unsigned record to enforce canonical bytes. -/
def decodeEndpointRecord (input : Bytes) : Except WireError EndpointRecord := do
  reject (maxEndpointRecordBytes < input.length) WireError.oversized
  let (record, rest) ← readRecord.run input
  reject (rest ≠ []) WireError.trailingData
  let encoded ← (encodeEndpointRecord record).mapError (encodeError record)
  reject (encoded ≠ input) WireError.nonCanonical
  return record

/-- The signed envelope of an encoded record. -/
def signedEnvelope (payload signature : Bytes) : Bytes :=
  Cbor.array 3 ++ (Cbor.u16 1 ++ (Cbor.bytes payload ++ Cbor.bytes signature))

def encodeSignedEndpointRecord (signed : SignedEndpointRecord) : Except WireError Bytes := do
  reject (signed.signature.length ≠ 64) WireError.signatureLength
  let payload ← (encodeEndpointRecord signed.record).mapError (encodeError signed.record)
  let output := signedEnvelope payload signed.signature
  reject (maxSignedEndpointRecordBytes < output.length) WireError.oversized
  return output

def readSigned : Cbor.Reader WireError (Bytes × Bytes) := do
  requireArray 3
  let version ← Cbor.readU16
  reject (version ≠ 1) WireError.envelopeVersion
  let payload ← Cbor.readBytes
  reject (maxEndpointRecordBytes < payload.length) WireError.oversized
  let signature ← Cbor.readBytes
  reject (signature.length ≠ 64) WireError.signatureLength
  return (payload, signature)

/-- Decodes a canonical signed endpoint-record envelope. -/
def decodeSignedEndpointRecord (input : Bytes) : Except WireError SignedEndpointRecord := do
  reject (maxSignedEndpointRecordBytes < input.length) WireError.oversized
  let ((payload, signature), rest) ← readSigned.run input
  reject (rest ≠ []) WireError.trailingData
  let record ← decodeEndpointRecord payload
  let signed : SignedEndpointRecord := { record, signature }
  let encoded ← encodeSignedEndpointRecord signed
  reject (encoded ≠ input) WireError.nonCanonical
  return signed

/-! ## Verification -/

/-- Validates freshness against a trusted local wall clock. -/
def EndpointRecord.validateTime (record : EndpointRecord) (now : UInt64) :
    Except RecordError Unit := do
  reject (record.expiresAt < now) RecordError.expired
  reject (saturatingAdd now maxFutureSkewSeconds < record.issuedAt) RecordError.issuedInFuture

section Verification

variable [Sha256] [Ed25519]

/-- Verifies canonical shape, signer identity, and signature. -/
def SignedEndpointRecord.verify (signed : SignedEndpointRecord) (key : VerifyingKey) :
    Except RecordError Unit := do
  signed.record.validateShape
  reject (signed.record.nodeId ≠ NodeId.fromVerifyingKey key) RecordError.signerMismatch
  let signature ← okOr (FixedBytes.ofBytes? 64 signed.signature) RecordError.invalidSignature
  let payload ← encodeEndpointRecord signed.record
  let domain ← signatureDomain signed.record.protocolVersion
  reject (¬verifyDomain key domain payload signature) RecordError.invalidSignature

/-- Verifies record signature, freshness, hive membership, and capability authorization. -/
def SignedEndpointRecord.verifyAuthorized (signed : SignedEndpointRecord)
    (membership : SignedMembership) (rootKey : VerifyingKey) (now : UInt64) :
    Except RecordError Unit := do
  let record := signed.record
  let certificate := membership.certificate
  (membership.verify rootKey).mapError RecordError.membership
  (certificate.validateTime now).mapError RecordError.membership
  record.validateTime now
  reject (record.hiveId ≠ certificate.hiveId ∨ record.nodeId ≠ certificate.nodeId)
    RecordError.membershipMismatch
  reject (certificate.expiresAt < record.expiresAt) RecordError.outlivesMembership
  reject (¬Ed25519.wellFormed certificate.deviceVerifyingKey) RecordError.membershipMismatch
  signed.verify certificate.deviceVerifyingKey
  reject (record.capabilities.contains .introducer ∧ ¬certificate.roles.contains .introducer)
    RecordError.unauthorizedCapability
  reject (record.capabilities.contains .controlRelay ∧ ¬certificate.roles.contains .controlRelay)
    RecordError.unauthorizedCapability

end Verification

/-! ## The reader returns what travels -/

/-- The record as it travels. -/
def EndpointRecord.bare (record : EndpointRecord) : EndpointRecord :=
  { record with candidates := record.candidates.map EndpointCandidate.bare }

/-- What a record's arguments are in the source's types, beyond what the shape check tests. -/
structure EndpointRecord.Typed (record : EndpointRecord) : Prop where
  named : ∀ name ∈ record.displayName, PeerName.new name = .ok name
  built : ∀ candidate ∈ record.candidates, candidate.Built
  services : ∀ service ∈ record.services, ServiceName.new service.name = .ok service.name

variable {record : EndpointRecord} {fields : Nat} {payload : Bytes}

theorem bare_eq_self_iff :
    record.bare = record ↔ ∀ candidate ∈ record.candidates, candidate.address.Unscoped := by
  have one : ∀ candidate : EndpointCandidate,
      candidate.bare = candidate ↔ candidate.address.Unscoped := by
    intro candidate
    rw [← SocketAddr.bare_eq_self]
    exact ⟨fun same => congrArg EndpointCandidate.address same,
      fun same => by rw [EndpointCandidate.bare, same]⟩
  constructor
  · intro same candidate member
    have listed : record.candidates.map EndpointCandidate.bare = record.candidates :=
      congrArg EndpointRecord.candidates same
    rw [← map_id record.candidates, map_map] at listed
    exact (one candidate).mp (map_inj_left.mp listed candidate member)
  · intro unscoped
    have listed : record.candidates.map EndpointCandidate.bare = record.candidates := by
      refine (map_congr_left fun candidate member => ?_).trans (map_id _)
      exact (one candidate).mpr (unscoped candidate member)
    rw [EndpointRecord.bare, listed]

theorem encodeCandidate_bare (candidate : EndpointCandidate) :
    encodeCandidate candidate.bare = encodeCandidate candidate := by
  simp only [encodeCandidate, EndpointCandidate.bare, SocketAddr.bare_octets, SocketAddr.bare_port]

theorem encode_bare (record : EndpointRecord) :
    encodeEndpointRecord record.bare = encodeEndpointRecord record := by
  have candidates : record.bare.candidates.flatMap encodeCandidate =
      record.candidates.flatMap encodeCandidate := by
    simp only [EndpointRecord.bare, flatMap_map, encodeCandidate_bare]
  unfold encodeEndpointRecord recordBytes
  rw [candidates]
  simp only [EndpointRecord.bare, length_map]
  rfl

theorem readIp_run (address : SocketAddr) (rest : Bytes) :
    readIp.run (Cbor.bytes address.octets ++ rest) = .ok (address.ip, rest) := by
  cases address with
  | v4 octets port =>
    have fits : octets.1.length < 2 ^ 64 := by rw [octets.2]; decide
    rw [readIp, SocketAddr.octets, bind_bytes fits,
      FixedBytes.ofBytes?_val]
    rfl
  | v6 octets port flowinfo scopeId =>
    have fits : octets.1.length < 2 ^ 64 := by rw [octets.2]; decide
    have short : FixedBytes.ofBytes? 4 octets.1 = none := by
      cases eq : FixedBytes.ofBytes? 4 octets.1 with
      | none => rfl
      | some four =>
        have same := FixedBytes.ofBytes?_eq_some.mp eq
        have size := four.2
        rw [← same, octets.2] at size
        cases size
    rw [readIp, SocketAddr.octets, bind_bytes fits, short,
      FixedBytes.ofBytes?_val]
    rfl

variable {candidate : EndpointCandidate} {name : String} {service : ServiceAdvert}
  {output signature : Bytes} {signed : SignedEndpointRecord}

theorem readCandidate_run (built : candidate.Built) (rest : Bytes) :
    readCandidate.run (encodeCandidate candidate ++ rest) = .ok (candidate.bare, rest) := by
  simp (disch := first | omega | decide) only [encodeCandidate, readCandidate, append_assoc,
    requireArray, bind_reads, CandidateKind.tryFrom_toU8, CandidateTransport.tryFrom_toU8,
    mapError_ok, run_bind_of (readIp_run _ _)]
  have made := built.new_bare
  rw [SocketAddr.bare] at made
  rw [made, mapError_ok, Cbor.run_ofExcept_ok]

theorem ServiceName.length_le (valid : ServiceName.new name = .ok name) :
    (utf8 name).length ≤ maxServiceNameBytes := by
  obtain ⟨good, _⟩ := reject_bind_eq_ok.mp valid
  exact not_lt.mp (not_or.mp (not_or.mp good).2).1

theorem PeerName.length_le (valid : PeerName.new name = .ok name) :
    (utf8 name).length ≤ maxPeerNameBytes := by
  obtain ⟨good, _⟩ := reject_bind_eq_ok.mp valid
  exact not_lt.mp (not_or.mp (not_or.mp good).2).1

theorem readService_run (named : ServiceName.new service.name = .ok service.name)
    (valid : service.validate = .ok ()) (rest : Bytes) :
    readService.run (encodeService service ++ rest) = .ok (service, rest) := by
  have fits : (utf8 service.name).length < 2 ^ 64 := by
    have := ServiceName.length_le named
    unfold maxServiceNameBytes at this
    omega
  simp (disch := first | omega | decide) only [encodeService, readService, append_assoc,
    requireArray, readFixed, bind_reads, named, mapError_ok, valid]
  rfl

theorem readArrayLen_run {count : Nat} (fits : count < 2 ^ 64) (rest : Bytes) :
    readArrayLen.run (array count ++ rest) = .ok (count, rest) := by
  rw [readArrayLen, Cbor.bind_array fits]
  rfl

theorem readBounded_run {α : Type} {maximum : Nat} {item : Cbor.Reader WireError α}
    {encode : α → Bytes} {values : List α} (room : values.length ≤ maximum)
    (small : maximum < 2 ^ 64)
    (hitem : ∀ value ∈ values, ∀ rest, item.run (encode value ++ rest) = .ok (value, rest))
    (rest : Bytes) :
    (readBounded maximum item).run
        (array values.length ++ (values.flatMap encode ++ rest)) = .ok (values, rest) := by
  rw [readBounded, run_bind_of (readArrayLen_run (by omega) _),
    Cbor.bind_reject (not_lt.mpr room)]
  exact Cbor.run_readMany hitem rest

/-! ## Records -/

theorem encode_eq_ok (encoded : encodeEndpointRecord record = .ok output) :
    ∃ fields, recordFields record = .ok fields ∧ output = recordBytes fields record ∧
      output.length ≤ maxEndpointRecordBytes := by
  obtain ⟨fields, counted, encoded⟩ := bind_eq_ok.mp encoded
  obtain ⟨small, encoded⟩ := reject_bind_eq_ok.mp encoded
  obtain rfl := pure_eq_ok.mp encoded
  exact ⟨fields, counted, rfl, not_lt.mp small⟩

theorem displayNamePresent_fields (counted : recordFields record = .ok fields) :
    displayNamePresent record.protocolVersion fields = .ok record.displayName.isSome ∧
      fields < 2 ^ 64 ∧ (fields ≠ 12 → record.protocolVersion < endpointRecordVersion) := by
  unfold recordFields at counted
  unfold displayNamePresent
  split at counted
  · rename_i first
    cases counted
    refine ⟨?_, by decide, fun _ => by rw [first.1]; decide⟩
    rw [if_pos ⟨first.1, rfl⟩, Option.isSome_eq_false_iff.mpr first.2]
  split at counted
  · rename_i second
    cases counted
    refine ⟨?_, by decide, fun _ => by rw [second.1]; decide⟩
    rw [if_neg (by simp), if_pos ⟨second.1, rfl⟩, second.2]
  split at counted
  · rename_i third
    cases counted
    refine ⟨?_, by decide, fun other => absurd rfl other⟩
    rw [if_neg (by simp), if_neg (by simp), if_pos ⟨third.1, rfl⟩, third.2]
  · cases counted

theorem readDisplayName_run {name : Option String}
    (named : ∀ text ∈ name, PeerName.new text = .ok text) (rest : Bytes) :
    (readDisplayName name.isSome).run (displayNameBytes name ++ rest) = .ok (name, rest) := by
  cases name with
  | none => rfl
  | some text =>
    have valid := named text rfl
    have fits : (utf8 text).length < 2 ^ 64 := by
      have := PeerName.length_le valid
      unfold maxPeerNameBytes at this
      omega
    simp only [readDisplayName, displayNameBytes, Option.isSome_some, if_true]
    rw [Cbor.bind_text fits, valid, mapError_ok, bind_ofExcept]
    rfl

/-- What the shape check leaves to know for the reader. -/
theorem validateShape_eq_ok (shape : record.validateShape = .ok ()) :
    (record.protocolVersion < endpointRecordVersion → record.services = []) ∧
      record.services.length ≤ maxServiceAdverts ∧
      (∀ service ∈ record.services, service.validate = .ok ()) ∧
      record.candidates.length ≤ maxCandidates ∧
      Capabilities.fromBits record.capabilities.bits = .ok record.capabilities := by
  simp only [EndpointRecord.validateShape, validateServices, ok_steps] at shape
  obtain ⟨_, -, _, -, _, versioned, _, ⟨_, few, _, -, checked⟩, _, -, _, -, _, -, _, short, _, -,
    capabilities, known, -⟩ := shape
  refine ⟨fun early => ?_, not_lt.mp few, ?_, not_lt.mp short, ?_⟩
  · by_contra some
    exact versioned ⟨early, some⟩
  · clear * - checked
    generalize record.services = services at checked
    induction services with
    | nil => exact forall_mem_nil _
    | cons service rest ih =>
      obtain ⟨_, valid, checked⟩ := bind_eq_ok.mp checked
      exact forall_mem_cons.mpr ⟨valid, ih checked⟩
  · rw [known]
    unfold Capabilities.fromBits at known
    split at known
    · cases known
      rfl
    · cases known

theorem readCandidates_run {candidates : List EndpointCandidate}
    (built : ∀ candidate ∈ candidates, candidate.Built) (short : candidates.length ≤ maxCandidates)
    (rest : Bytes) :
    (readBounded maxCandidates readCandidate).run
        (array candidates.length ++ (candidates.flatMap encodeCandidate ++ rest)) =
      .ok (candidates.map EndpointCandidate.bare, rest) := by
  have items : ∀ candidate ∈ candidates.map EndpointCandidate.bare, ∀ tail : Bytes,
      readCandidate.run (encodeCandidate candidate ++ tail) = .ok (candidate, tail) := by
    intro candidate member tail
    obtain ⟨source, there, rfl⟩ := mem_map.mp member
    rw [encodeCandidate_bare, readCandidate_run (built source there)]
  have room : (candidates.map EndpointCandidate.bare).length ≤ maxCandidates := by
    rwa [length_map]
  have run := readBounded_run room (by decide) items rest
  simpa only [length_map, flatMap_map, encodeCandidate_bare] using run

theorem readServices_run {services : List ServiceAdvert}
    (named : ∀ service ∈ services, ServiceName.new service.name = .ok service.name)
    (valid : ∀ service ∈ services, service.validate = .ok ())
    (few : services.length ≤ maxServiceAdverts) (absent : fields ≠ 12 → services = [])
    (rest : Bytes) :
    (readServices fields).run (servicesBytes fields services ++ rest) = .ok (services, rest) := by
  unfold readServices servicesBytes
  by_cases twelve : fields = 12
  · rw [if_pos twelve, if_pos twelve, append_assoc]
    exact readBounded_run few (by decide) (fun service member =>
      readService_run (named service member) (valid service member)) rest
  · rw [if_neg twelve, if_neg twelve, absent twelve]
    rfl

theorem readRecord_run (typed : record.Typed) (shape : record.validateShape = .ok ())
    (counted : recordFields record = .ok fields) (rest : Bytes) :
    readRecord.run (recordBytes fields record ++ rest) = .ok (record.bare, rest) := by
  obtain ⟨absent, few, services, short, known⟩ := validateShape_eq_ok shape
  obtain ⟨present, small, early⟩ := displayNamePresent_fields counted
  simp (disch := omega) only [recordBytes, readRecord, append_assoc,
    run_bind_of (readArrayLen_run small _), bind_reads, present, readFixed,
    run_bind_of (readDisplayName_run typed.named _),
    run_bind_of (readCandidates_run typed.built short _), known, mapError_ok,
    run_bind_of (readServices_run typed.services services few (fun h => absent (early h)) _)]
  rfl

/-- **Round trip.** The encoding of a well-shaped record reads back as what travels of it. -/
theorem decode_encode (typed : record.Typed) (shape : record.validateShape = .ok ())
    (encoded : encodeEndpointRecord record = .ok output) :
    decodeEndpointRecord output = .ok record.bare := by
  obtain ⟨fields, counted, rfl, small⟩ := encode_eq_ok encoded
  have run := readRecord_run typed shape counted []
  rw [append_nil] at run
  simp only [decodeEndpointRecord, reject_bind, if_neg (not_lt.mpr small), run, ok_bind,
    encode_bare, encoded, mapError_ok, ne_eq, not_true_eq_false, if_false]
  rfl

theorem signedEnvelope_length_le (small : payload.length ≤ maxEndpointRecordBytes)
    (full : signature.length = 64) :
    (signedEnvelope payload signature).length ≤ maxSignedEndpointRecordBytes := by
  have h₁ := Cbor.head_length_le 4 3
  have h₂ := Cbor.unsigned_length_le (1 : UInt16).toNat
  have h₃ := Cbor.bytes_length_le payload
  have h₄ := Cbor.bytes_length_le signature
  unfold maxEndpointRecordBytes at small
  simp only [signedEnvelope, maxSignedEndpointRecordBytes, length_append, array,
    Cbor.u16]
  omega

theorem readSigned_run (small : payload.length ≤ maxEndpointRecordBytes)
    (full : signature.length = 64) (rest : Bytes) :
    readSigned.run (signedEnvelope payload signature ++ rest) =
      .ok ((payload, signature), rest) := by
  have fits : payload.length < 2 ^ 64 := by
    unfold maxEndpointRecordBytes at small
    omega
  simp (disch := first | omega | decide | simp [full, small]) only [signedEnvelope, readSigned,
    append_assoc, requireArray, bind_reads, Cbor.bind_reject]
  rfl

theorem encodeSigned_of_encode (full : signed.signature.length = 64)
    (encoded : encodeEndpointRecord signed.record = .ok payload) :
    encodeSignedEndpointRecord signed = .ok (signedEnvelope payload signed.signature) := by
  obtain ⟨_, _, _, small⟩ := encode_eq_ok encoded
  have fits := signedEnvelope_length_le small full
  simp only [encodeSignedEndpointRecord, reject_bind, if_neg (not_not.mpr full), encoded,
    mapError_ok, ok_bind, if_neg (not_lt.mpr fits)]
  rfl

/-- The signed envelope of a well-shaped record reads back as what travels of it. -/
theorem decodeSigned_encodeSigned (typed : signed.record.Typed)
    (shape : signed.record.validateShape = .ok ()) (full : signed.signature.length = 64)
    (encoded : encodeEndpointRecord signed.record = .ok payload) :
    decodeSignedEndpointRecord (signedEnvelope payload signed.signature) =
      .ok { signed with record := signed.record.bare } := by
  obtain ⟨_, _, _, small⟩ := encode_eq_ok encoded
  have fits := signedEnvelope_length_le small full
  have run := readSigned_run small full []
  rw [append_nil] at run
  have again : encodeSignedEndpointRecord { signed with record := signed.record.bare } =
      .ok (signedEnvelope payload signed.signature) :=
    encodeSigned_of_encode full ((encode_bare signed.record).trans encoded)
  simp only [decodeSignedEndpointRecord, reject_bind, if_neg (not_lt.mpr fits), run, ok_bind,
    decode_encode typed shape encoded, again, ne_eq, not_true_eq_false, if_false]
  rfl

/-! ## What a device signs, a peer accepts -/

/-- Dropping repetitions drops no value. -/
theorem mem_destutter_ne {α : Type} [DecidableEq α] {a : α} {values : List α} :
    a ∈ values.destutter (· ≠ ·) ↔ a ∈ values := by
  refine ⟨fun member => (values.destutter_sublist (· ≠ ·)).subset member, fun member => ?_⟩
  cases values with
  | nil => exact member
  | cons first rest =>
    rw [destutter_cons']
    induction rest generalizing first with
    | nil => exact member
    | cons second rest ih =>
      by_cases same : first = second
      · subst same
        rw [List.destutter'_cons, if_neg (not_not.mpr rfl)]
        refine ih first ?_
        rcases mem_cons.mp member with rfl | member
        · exact mem_cons_self
        · exact member
      · rw [List.destutter'_cons, if_pos same]
        rcases mem_cons.mp member with rfl | member
        · exact mem_cons_self
        · exact mem_cons_of_mem _ (ih second member)

theorem mem_candidates_canonicalize :
    candidate ∈ record.canonicalizeCandidates.candidates ↔ candidate ∈ record.candidates := by
  rw [EndpointRecord.canonicalizeCandidates, mem_destutter_ne, mem_insertionSort]

theorem mem_services_canonicalize :
    service ∈ record.canonicalizeCandidates.services ↔ service ∈ record.services := by
  rw [EndpointRecord.canonicalizeCandidates, mem_destutter_ne, mem_insertionSort]

theorem EndpointRecord.Typed.canonicalize (typed : record.Typed) :
    record.canonicalizeCandidates.Typed :=
  ⟨typed.named,
    fun candidate member => typed.built candidate (mem_candidates_canonicalize.mp member),
    fun service member => typed.services service (mem_services_canonicalize.mp member)⟩

section Acceptance

variable [Sha256] [Ed25519] {record : EndpointRecord} {identity : DeviceIdentity}
  {signed : SignedEndpointRecord}

/-- What signing returns is canonical, encodes, and verifies under the device's own key. -/
theorem verify_sign (correct : Ed25519.Correct)
    (made : SignedEndpointRecord.sign record identity = .ok signed) :
    signed.record = record.canonicalizeCandidates ∧ signed.record.validateShape = .ok () ∧
      signed.signature.length = 64 ∧
      (∃ payload, encodeEndpointRecord signed.record = .ok payload) ∧
      signed.verify identity.verifyingKey = .ok () := by
  simp only [SignedEndpointRecord.sign, ok_steps] at made
  obtain ⟨_, shape, _, node, payload, encoded, domain, labelled, rfl⟩ := made
  have own : record.canonicalizeCandidates.nodeId =
      NodeId.fromVerifyingKey identity.verifyingKey := not_not.mp node
  have authentic := verifyDomain_device correct identity domain payload
  refine ⟨rfl, shape, (identity.signDomain domain payload).2, ⟨payload, encoded⟩, ?_⟩
  simp only [SignedEndpointRecord.verify, shape, ok_bind, reject_bind, FixedBytes.ofBytes?_val,
    okOr_some, encoded, labelled, if_neg (not_not.mpr own)]
  simp [authentic]

/-- A signed record passes at every time of its life under a membership it was signed for. -/
theorem verifyAuthorized_of_verify {membership : SignedMembership} {rootKey : VerifyingKey}
    {now : UInt64} (verified : signed.verify membership.certificate.deviceVerifyingKey = .ok ())
    (member : membership.verify rootKey = .ok ())
    (wellFormed : Ed25519.wellFormed membership.certificate.deviceVerifyingKey = true)
    (hive : signed.record.hiveId = membership.certificate.hiveId)
    (node : signed.record.nodeId = membership.certificate.nodeId)
    (within : signed.record.expiresAt ≤ membership.certificate.expiresAt)
    (introducer : ¬(signed.record.capabilities.contains .introducer = true ∧
      ¬membership.certificate.roles.contains .introducer = true))
    (relay : ¬(signed.record.capabilities.contains .controlRelay = true ∧
      ¬membership.certificate.roles.contains .controlRelay = true))
    (issued : signed.record.issuedAt ≤ now) (alive : now ≤ signed.record.expiresAt) :
    signed.verifyAuthorized membership rootKey now = .ok () := by
  have fresh : membership.certificate.validateTime now = .ok () :=
    reject_eq_ok.mpr (not_lt.mpr (alive.trans within))
  have timely : signed.record.validateTime now = .ok () := by
    have skew : signed.record.issuedAt ≤ saturatingAdd now maxFutureSkewSeconds := by
      refine issued.trans (UInt64.le_iff_toNat_le.mpr ?_)
      have small := now.toNat_lt
      rw [toNat_saturatingAdd]
      omega
    simp only [EndpointRecord.validateTime, reject_bind, if_neg (not_lt.mpr alive)]
    exact reject_eq_ok.mpr (not_lt.mpr skew)
  have matching : ¬(signed.record.hiveId ≠ membership.certificate.hiveId ∨
      signed.record.nodeId ≠ membership.certificate.nodeId) := by
    rw [hive, node]
    simp
  simp only [SignedEndpointRecord.verifyAuthorized, member, fresh, timely, verified, mapError_ok,
    ok_bind, reject_bind, if_neg matching, if_neg (not_lt.mpr within), wellFormed,
    not_true_eq_false, if_false, if_neg introducer]
  exact reject_eq_ok.mpr relay

end Acceptance

end Supgang.Record
