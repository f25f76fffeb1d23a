/-
# Update.Authorization — single-use authorizations of peer updates

`update/authorization.rs`: a root-signed, short-lived permission for one member to deliver one bundle
to one computer, and the ledger of nonces with which the computer uses it once. The ledger is one
JSON file; expired records are dropped from it at every reservation, so that it stays bounded.

The ledger tells nonces apart and not authorizations. While an authorization can still be used no
other of its nonce is accepted, and no authorization is ever accepted twice; a nonce that was signed
a second time is accepted again once the first authorization has expired.

* `UpdateAuthorization` — the document and its signature; `encodeAuthorization`,
  `decodeAuthorization`, `authorization_oneEncoding`.
* `NonceLedger` — the file of uses; `WellFormed.fits`, `WellFormed.readLedger` — room for every
  record, and each read back.
* `reserveAuthorization`, `receiveInner` — one use; `receiveInner_ends` is what it can leave.
* `authorization_used_once` — reservations over whole runs.
-/
import Supgang.Hive.Identity
import Supgang.Theory.Canonical
import Supgang.Theory.Json
import Supgang.Update.Model

namespace Supgang.Update

set_option autoImplicit false
set_option linter.unusedSectionVars false

open Theory List

def authorizationVersion : UInt16 := 2
def authorizationDomain : Bytes := utf8 "supgang/peer-update-authorization/v1\x00"
def maxAuthorizationLifetimeSeconds : UInt64 := 10 * 60
def maxAuthorizationBytes : Nat := 256
def maxUpdateBundleBytes : UInt64 := 160 * 1024 * 1024
def maxNonceRecords : Nat := 256
def maxNonceLedgerBytes : Nat := 128 * 1024

structure UpdateAuthorization where
  hiveId : HiveId
  issuer : NodeId
  target : NodeId
  bundleDigest : FixedBytes 32
  bundleLength : UInt64
  issuedAt : UInt64
  expiresAt : UInt64
  nonce : FixedBytes 32
  signature : Signature
deriving DecidableEq, Repr

inductive AuthorizationError where
  | invalid
  | random
deriving DecidableEq, Repr

instance : Cbor.FromDecode AuthorizationError := ⟨fun _ => .invalid⟩

namespace UpdateAuthorization

def payload (value : UpdateAuthorization) : Bytes :=
  Cbor.array 9 ++ (Cbor.u16 authorizationVersion ++ (Cbor.bytes value.hiveId.1 ++
    (Cbor.bytes value.issuer.1 ++ (Cbor.bytes value.target.1 ++ (Cbor.bytes value.bundleDigest.1 ++
    (Cbor.u64 value.bundleLength ++ (Cbor.u64 value.issuedAt ++ (Cbor.u64 value.expiresAt ++
    Cbor.bytes value.nonce.1))))))))

variable [Ed25519]

def verify (value : UpdateAuthorization) (root : VerifyingKey) (expectedHive : HiveId)
    (authenticatedIssuer localTarget : NodeId) (now : UInt64) : Except AuthorizationError Unit :=
  reject (value.hiveId ≠ expectedHive ∨ value.issuer ≠ authenticatedIssuer ∨
    value.target ≠ localTarget ∨ value.expiresAt < now ∨ now < value.issuedAt ∨
    value.expiresAt < value.issuedAt ∨
    maxAuthorizationLifetimeSeconds < saturatingSub value.expiresAt value.issuedAt ∨
    ¬(1 ≤ value.bundleLength ∧ value.bundleLength ≤ maxUpdateBundleBytes) ∨
    ¬verifyDomain root authorizationDomain value.payload value.signature)
    AuthorizationError.invalid

end UpdateAuthorization

def encodeAuthorization (value : UpdateAuthorization) : Except AuthorizationError Bytes := do
  let bytes := Cbor.array 2 ++ (Cbor.bytes value.payload ++ Cbor.bytes value.signature.1)
  reject (bytes.length = 0 ∨ maxAuthorizationBytes < bytes.length) AuthorizationError.invalid
  return bytes

def readPayload : Cbor.Reader AuthorizationError (Signature → UpdateAuthorization) := do
  Cbor.requireArray .invalid 9
  let version ← Cbor.readU16
  reject (version ≠ authorizationVersion) AuthorizationError.invalid
  let hiveId ← Cbor.readFixed .invalid 32
  let issuer ← Cbor.readFixed .invalid 32
  let target ← Cbor.readFixed .invalid 32
  let bundleDigest ← Cbor.readFixed .invalid 32
  let bundleLength ← Cbor.readU64
  let issuedAt ← Cbor.readU64
  let expiresAt ← Cbor.readU64
  let nonce ← Cbor.readFixed .invalid 32
  return fun signature => { hiveId, issuer, target, bundleDigest, bundleLength, issuedAt, expiresAt,
                            nonce, signature }

def readAuthorization : Cbor.Reader AuthorizationError (Bytes × Signature) := do
  Cbor.requireArray .invalid 2
  let payload ← Cbor.readBytes
  let signature ← Cbor.readFixed .invalid 64
  return (payload, signature)

def decodeAuthorization (bytes : Bytes) : Except AuthorizationError UpdateAuthorization := do
  reject (bytes.length = 0 ∨ maxAuthorizationBytes < bytes.length) AuthorizationError.invalid
  let ((payload, signature), rest) ← readAuthorization.run bytes
  reject (rest ≠ []) AuthorizationError.invalid
  let (build, rest) ← readPayload.run payload
  let value := build signature
  let encoded ← encodeAuthorization value
  reject (rest ≠ [] ∨ encoded ≠ bytes) AuthorizationError.invalid
  return value

theorem readPayload_run (value : UpdateAuthorization) : ∃ build : Signature → UpdateAuthorization,
    readPayload.run value.payload = .ok (build, []) ∧ build value.signature = value := by
  rw [UpdateAuthorization.payload, ← append_nil (Cbor.bytes value.nonce.1)]
  simp (disch := first | omega | decide | simp) only [readPayload, Cbor.bind_reads,
    Cbor.bind_reject]
  exact ⟨_, rfl, rfl⟩

/-- **One encoding.** The decoder takes what the encoder writes, and nothing else. -/
theorem authorization_oneEncoding : OneEncoding encodeAuthorization decodeAuthorization where
  decode_encode := by
    intro value encoded hencode
    have hencoded := hencode
    simp only [encodeAuthorization, ok_steps, exists_const] at hencoded
    obtain ⟨hsize, rfl⟩ := hencoded
    have hpayload : value.payload.length < 2 ^ 64 := by
      simp only [not_or, not_lt, length_append, Cbor.bytes, maxAuthorizationBytes] at hsize
      omega
    have hread : readAuthorization.run (Cbor.array 2 ++
        (Cbor.bytes value.payload ++ Cbor.bytes value.signature.1)) =
          .ok ((value.payload, value.signature), []) := by
      rw [← append_nil (Cbor.bytes value.signature.1), readAuthorization,
        Cbor.bind_requireArray _ (by decide), Cbor.bind_bytes hpayload,
        Cbor.bind_fixed _ _ (by decide)]
      rfl
    obtain ⟨build, hbuild, hvalue⟩ := readPayload_run value
    simp only [decodeAuthorization, ok_steps, exists_const, not_or, not_not]
    rw [not_or] at hsize
    have hagain : encodeAuthorization (build value.signature) = encodeAuthorization value := by
      rw [hvalue]
    exact ⟨hsize, _, hread, rfl, (build, []), hbuild, _, hagain.trans hencode, ⟨rfl, rfl⟩, hvalue⟩
  encode_decode := by
    intro value input h
    simp only [decodeAuthorization, ok_steps, exists_const, not_or, not_not] at h
    obtain ⟨-, ⟨⟨payload, signature⟩, _⟩, -, -, ⟨build, _⟩, -, encoded, hencode, ⟨-, rfl⟩, rfl⟩ := h
    exact hencode

/-! ## The ledger -/

/-- One use, in the texts of the file. -/
structure NonceRecord where
  issuer : Bytes
  target : Bytes
  nonce : Bytes
  digest : Bytes
  bundleLength : UInt64
  expiresAt : UInt64
deriving DecidableEq, Repr

structure NonceLedger where
  schema : Bytes
  records : List NonceRecord
deriving DecidableEq, Repr

def nonceLedgerSchema : Bytes := utf8 "supgang.update-authorization-nonces/v1"

namespace NonceRecord

def fromAuthorization (value : UpdateAuthorization) : NonceRecord where
  issuer := Json.hexEncode value.issuer.1
  target := Json.hexEncode value.target.1
  nonce := Json.hexEncode value.nonce.1
  digest := Json.hexEncode value.bundleDigest.1
  bundleLength := value.bundleLength
  expiresAt := value.expiresAt

/-- The text is the hexadecimal of 32 bytes. -/
def hex32 (text : Bytes) : Bool := (Json.hexDecode text).any (·.length == 32)

def valid (record : NonceRecord) : Bool :=
  hex32 record.issuer && hex32 record.target && hex32 record.nonce && hex32 record.digest &&
    decide (1 ≤ record.bundleLength ∧ record.bundleLength ≤ maxUpdateBundleBytes)

/-- The order of records is that of their fields. -/
def key (record : NonceRecord) : Bytes ×ₗ Bytes ×ₗ Bytes ×ₗ Bytes ×ₗ UInt64 ×ₗ UInt64 :=
  toLex (record.issuer, toLex (record.target, toLex (record.nonce, toLex (record.digest,
    toLex (record.bundleLength, record.expiresAt)))))

/-- The two are for the same issuer and target under the same nonce. -/
def sameUse (record candidate : NonceRecord) : Prop :=
  record.issuer = candidate.issuer ∧ record.target = candidate.target ∧
    record.nonce = candidate.nonce

instance (record candidate : NonceRecord) : Decidable (record.sameUse candidate) :=
  inferInstanceAs (Decidable (_ ∧ _ ∧ _))

def toJson (record : NonceRecord) : Bytes :=
  utf8 "\x7b\"issuer\":" ++ (Json.quote record.issuer ++ (utf8 ",\"target\":" ++
    (Json.quote record.target ++ (utf8 ",\"nonce\":" ++ (Json.quote record.nonce ++
    (utf8 ",\"digest\":" ++ (Json.quote record.digest ++ (utf8 ",\"bundle_length\":" ++
    (Json.decimal record.bundleLength.toNat ++ (utf8 ",\"expires_at\":" ++
    (Json.decimal record.expiresAt.toNat ++ utf8 "\x7d")))))))))))

def fromJson : Json.Parser NonceRecord := do
  Json.literal (utf8 "\x7b\"issuer\":")
  let issuer ← Json.quoted
  Json.literal (utf8 ",\"target\":")
  let target ← Json.quoted
  Json.literal (utf8 ",\"nonce\":")
  let nonce ← Json.quoted
  Json.literal (utf8 ",\"digest\":")
  let digest ← Json.quoted
  Json.literal (utf8 ",\"bundle_length\":")
  let bundleLength ← Json.number (2 ^ 64)
  Json.literal (utf8 ",\"expires_at\":")
  let expiresAt ← Json.number (2 ^ 64)
  Json.literal (utf8 "\x7d")
  return { issuer, target, nonce, digest, bundleLength := .ofNat bundleLength,
           expiresAt := .ofNat expiresAt }

end NonceRecord

namespace NonceLedger

def toVec (ledger : NonceLedger) : Bytes :=
  utf8 "\x7b\"schema\":" ++ (Json.quote ledger.schema ++ (utf8 ",\"records\":" ++
    (Json.brackets NonceRecord.toJson ledger.records ++ utf8 "\x7d")))

def fromJson (fuel : Nat) : Json.Parser NonceLedger := do
  Json.literal (utf8 "\x7b\"schema\":")
  let schema ← Json.quoted
  Json.literal (utf8 ",\"records\":")
  let records ← Json.sequence NonceRecord.fromJson fuel
  Json.literal (utf8 "\x7d")
  return { schema, records }

/-- Reads the text that `toVec` writes. The source's reader takes other texts for the same ledger,
all of which the comparison in `readLedger` refuses, and texts with escapes, which are neither the
schema nor hexadecimal. -/
def fromSlice (bytes : Bytes) : Option NonceLedger := do
  let (ledger, rest) ← (fromJson bytes.length).run bytes
  guard (rest = [])
  return ledger

end NonceLedger

/-- The records of the file; a missing file has none. -/
def readLedger (file : Option Bytes) : Except UpdateError NonceLedger :=
  match file with
  | none => pure { schema := nonceLedgerSchema, records := [] }
  | some bytes => do
      reject (bytes.length = 0 ∨ maxNonceLedgerBytes < bytes.length) UpdateError.invalidBundle
      let parsed ← okOr (NonceLedger.fromSlice bytes) .invalidBundle
      reject (parsed.toVec ≠ bytes ∨ parsed.schema ≠ nonceLedgerSchema ∨
        maxNonceRecords < parsed.records.length ∨ ∃ record ∈ parsed.records, ¬record.valid)
        UpdateError.invalidBundle
      return parsed

namespace NonceLedger

def retain (ledger : NonceLedger) (now : UInt64) : NonceLedger :=
  { ledger with records := ledger.records.filter fun record => now ≤ record.expiresAt }

def push (ledger : NonceLedger) (candidate : NonceRecord) : NonceLedger :=
  { ledger with
    records := (ledger.records ++ [candidate]).mergeSort fun one other => one.key ≤ other.key }

/-- The ledger in which the authorization is used, unless it already is or there is no room. -/
def reserve (ledger : NonceLedger) (candidate : NonceRecord) : Except UpdateError NonceLedger := do
  reject (∃ record ∈ ledger.records, record.sameUse candidate) UpdateError.replayedAuthorization
  reject (maxNonceRecords ≤ ledger.records.length) UpdateError.capacity
  reject (maxNonceLedgerBytes < (ledger.push candidate).toVec.length) UpdateError.capacity
  return ledger.push candidate

end NonceLedger

/-- The ledger's file as a running process reads it, and as a power failure would leave it. -/
structure LedgerFile where
  visible : Option Bytes
  durable : Option Bytes
deriving DecidableEq, Repr

/-- What the file system does for one call. -/
inductive Fate where
  /-- The directory or the file cannot be read. -/
  | unreadable
  /-- The call ends before the new file is renamed over the old one. -/
  | unwritten (error : UpdateError)
  /-- It ends after that, and before the directory is synchronized. -/
  | unsynced
  | done
deriving DecidableEq, Repr

def writeAtomicBounded (bytes : Bytes) (maximum : Nat) (fate : Fate) :
    EStateM UpdateError LedgerFile Unit := do
  reject (bytes.length = 0 ∨ maximum < bytes.length) UpdateError.invalidBundle
  match fate with
  | .unreadable => throw .io
  | .unwritten error => throw error
  | .unsynced => do
      modify fun file => { file with visible := some bytes }
      throw .io
  | .done => set { visible := some bytes, durable := some bytes : LedgerFile }

/-- Uses an authorization. Nothing of it is used before the ledger says so durably. -/
def reserveAuthorization (authorization : UpdateAuthorization) (now : UInt64) (fate : Fate) :
    EStateM UpdateError LedgerFile Unit := do
  reject (fate = .unreadable) UpdateError.io
  let file ← get
  let ledger ← ofExcept (readLedger file.visible)
  let next ← ofExcept ((ledger.retain now).reserve (.fromAuthorization authorization))
  writeAtomicBounded next.toVec maxNonceLedgerBytes fate

/-! ## Deliveries -/

inductive UpdateWireError where
  | invalidPreface
  | rejected
  | retryLater
  | failed
deriving DecidableEq, Repr

def mapUpdateError : UpdateError → UpdateWireError
  | .invalidBundle | .tuf | .rollback | .invalidExecutable | .incompatibleCodeIdentity
  | .replayedAuthorization => .rejected
  | .io | .busy | .capacity => .retryLater

/-- The receiving computer's hive and name. -/
structure ReceiveContext where
  rootKey : VerifyingKey
  hiveId : HiveId
  localNode : NodeId

/-- An authorization as it arrives, and what its reception meets. -/
structure Delivery where
  authorization : UpdateAuthorization
  authenticatedPeer : NodeId
  now : UInt64
  /-- The peer's session is still authorized. -/
  current : Bool
  /-- The receiver had room for it and took the lock. -/
  admitted : Bool
  fate : Fate

section Deliveries

variable [Ed25519]

/-- Receives an authorization, up to the bundle that it permits. -/
def receiveInner (context : ReceiveContext) (delivery : Delivery) :
    EStateM UpdateWireError LedgerFile Unit := do
  reject (¬delivery.current) UpdateWireError.rejected
  ofExcept ((delivery.authorization.verify context.rootKey context.hiveId
    delivery.authenticatedPeer context.localNode delivery.now).mapError
      fun _ => UpdateWireError.invalidPreface)
  reject (¬delivery.admitted) UpdateWireError.retryLater
  EStateM.adaptExcept mapUpdateError
    (reserveAuthorization delivery.authorization delivery.now delivery.fate)

inductive LedgerEvent where
  | receive (delivery : Delivery)
  /-- The medium catches up with what was written. -/
  | settle
  /-- What was not on the medium is lost. -/
  | powerFailure

structure Reservation where
  authorization : UpdateAuthorization
  time : UInt64

/-- The file and the reservations that succeeded, in their order. -/
structure Reception where
  file : LedgerFile
  reserved : List Reservation

namespace Reception

/-- Nothing was ever received. -/
def fresh : Reception := { file := ⟨none, none⟩, reserved := [] }

def after (reception : Reception) (context : ReceiveContext) : LedgerEvent → Reception
  | .receive delivery =>
    match (receiveInner context delivery).run reception.file with
    | .ok _ file =>
      { file, reserved := reception.reserved ++ [⟨delivery.authorization, delivery.now⟩] }
    | .error _ file => { reception with file }
  | .settle => { reception with file.durable := reception.file.visible }
  | .powerFailure => { reception with file.visible := reception.file.durable }

def run (reception : Reception) (context : ReceiveContext) (events : List LedgerEvent) :
    Reception :=
  events.foldl (·.after context) reception

end Reception

/-- The clock readings of a run. -/
def readings (events : List LedgerEvent) : List UInt64 :=
  events.filterMap fun
    | .receive delivery => some delivery.now
    | .settle | .powerFailure => none

end Deliveries

/-! ## A ledger reads back -/

namespace NonceRecord

theorem hex32_hexEncode (bytes : FixedBytes 32) : hex32 (Json.hexEncode bytes.1) = true := by
  simp [hex32, Json.hexDecode_hexEncode, bytes.2]

variable {text : Bytes} {record : NonceRecord}

theorem hex32_decodes (h : hex32 text = true) :
    ∃ bytes, Json.hexDecode text = some bytes ∧ bytes.length = 32 := by
  unfold hex32 at h
  cases decoded : Json.hexDecode text with
  | none => simp [decoded] at h
  | some bytes => exact ⟨bytes, rfl, by simpa [decoded] using h⟩

theorem hex32_plain (h : hex32 text = true) :
    ∀ byte ∈ text, Json.plain byte = true := by
  obtain ⟨bytes, decoded, -⟩ := hex32_decodes h
  exact Json.plain_of_hexDecode decoded

theorem quote_hex32_length (h : hex32 text = true) :
    (Json.quote text).length = 66 := by
  obtain ⟨bytes, decoded, length⟩ := hex32_decodes h
  simp [Json.quote_plain (hex32_plain h), Json.hexDecode_length decoded, length]

/-- The checks of a record, one by one. -/
theorem valid_iff : record.valid = true ↔
    hex32 record.issuer = true ∧ hex32 record.target = true ∧ hex32 record.nonce = true ∧
      hex32 record.digest = true ∧ 1 ≤ record.bundleLength ∧
      record.bundleLength ≤ maxUpdateBundleBytes := by
  simp only [valid, Bool.and_eq_true, decide_eq_true_eq, and_assoc]

theorem run_fromJson (h : record.valid = true) (rest : Bytes) :
    fromJson.run (record.toJson ++ rest) = some (record, rest) := by
  obtain ⟨issuer, target, nonce, digest, -⟩ := valid_iff.mp h
  have length := record.bundleLength.toNat_lt
  have expires := record.expiresAt.toNat_lt
  unfold toJson fromJson
  simp only [append_assoc]
  rw [Json.run_bind_of (Json.run_literal ..), Json.run_bind_of (Json.run_quoted (hex32_plain issuer) _),
    Json.run_bind_of (Json.run_literal ..), Json.run_bind_of (Json.run_quoted (hex32_plain target) _),
    Json.run_bind_of (Json.run_literal ..), Json.run_bind_of (Json.run_quoted (hex32_plain nonce) _),
    Json.run_bind_of (Json.run_literal ..), Json.run_bind_of (Json.run_quoted (hex32_plain digest) _),
    Json.run_bind_of (Json.run_literal ..)]
  -- A number ends where the comma or the brace after it begins.
  rw [Json.run_bind_of (Json.run_number length rfl), Json.run_bind_of (Json.run_literal ..),
    Json.run_bind_of (Json.run_number expires rfl), Json.run_bind_of (Json.run_literal ..)]
  simp

theorem toJson_starts (record : NonceRecord) :
    ∃ byte text, record.toJson = byte :: text ∧ byte ≠ 93 :=
  ⟨123, _, rfl, by decide⟩

/-- Four texts of 64 digits, a length of at most nine digits and a time of at most twenty. -/
theorem toJson_length_le (h : record.valid = true) :
    record.toJson.length ≤ 364 := by
  obtain ⟨issuer, target, nonce, digest, -, bounded⟩ := valid_iff.mp h
  have small : record.bundleLength.toNat < 10 ^ 9 :=
    (UInt64.le_iff_toNat_le.mp bounded).trans_lt (by decide)
  have length := Json.decimal_length_le (by decide) small
  have expires : (Json.decimal record.expiresAt.toNat).length ≤ 20 :=
    Json.decimal_length_le (by decide) (record.expiresAt.toNat_lt.trans (by decide))
  simp only [toJson, length_append, quote_hex32_length issuer, quote_hex32_length target,
    quote_hex32_length nonce, quote_hex32_length digest]
  have names : (utf8 "\x7b\"issuer\":").length = 10 ∧ (utf8 ",\"target\":").length = 10 ∧
      (utf8 ",\"nonce\":").length = 9 ∧ (utf8 ",\"digest\":").length = 10 ∧
      (utf8 ",\"bundle_length\":").length = 17 ∧ (utf8 ",\"expires_at\":").length = 14 ∧
      (utf8 "\x7d").length = 1 := by decide +kernel
  omega

theorem fromAuthorization_valid {value : UpdateAuthorization}
    (h : 1 ≤ value.bundleLength ∧ value.bundleLength ≤ maxUpdateBundleBytes) :
    (fromAuthorization value).valid = true :=
  valid_iff.mpr ⟨hex32_hexEncode _, hex32_hexEncode _, hex32_hexEncode _, hex32_hexEncode _, h⟩

end NonceRecord

namespace NonceLedger

/-- What `readLedger` requires of a ledger. -/
structure WellFormed (ledger : NonceLedger) : Prop where
  schema : ledger.schema = nonceLedgerSchema
  count : ledger.records.length ≤ maxNonceRecords
  valid : ∀ record ∈ ledger.records, record.valid = true

theorem nonceLedgerSchema_plain : ∀ byte ∈ nonceLedgerSchema, Json.plain byte = true := by
  decide +kernel

variable {ledger : NonceLedger} {candidate : NonceRecord}

theorem mem_retain {now : UInt64} {record : NonceRecord} :
    record ∈ (ledger.retain now).records ↔ record ∈ ledger.records ∧ now ≤ record.expiresAt := by
  simp [retain]

theorem mem_push {record : NonceRecord} :
    record ∈ (ledger.push candidate).records ↔ record ∈ ledger.records ∨ record = candidate := by
  simp [push]

section Records

variable (h : ledger.WellFormed)

include h

theorem WellFormed.fits : ledger.toVec.length ≤ maxNonceLedgerBytes := by
  have records : (Json.brackets NonceRecord.toJson ledger.records).length ≤
      2 + ledger.records.length * (364 + 1) :=
    Json.brackets_length_le fun record member =>
      NonceRecord.toJson_length_le (h.valid record member)
  have count : ledger.records.length ≤ 256 := h.count
  have names : (utf8 "\x7b\"schema\":").length = 10 ∧ (Json.quote nonceLedgerSchema).length = 40 ∧
      (utf8 ",\"records\":").length = 11 ∧ (utf8 "\x7d").length = 1 := by decide +kernel
  simp only [toVec, length_append, h.schema, maxNonceLedgerBytes]
  omega

theorem WellFormed.fromSlice : fromSlice ledger.toVec = some ledger := by
  have enough : ledger.records.length ≤ ledger.toVec.length := by
    have inner := Json.length_le_brackets NonceRecord.toJson ledger.records
    simp only [toVec, length_append]
    omega
  have parsed : (fromJson ledger.toVec.length).run ledger.toVec = some (ledger, []) := by
    conv_lhs => arg 2; unfold toVec
    unfold fromJson
    rw [Json.run_bind_of (Json.run_literal ..),
      Json.run_bind_of (Json.run_quoted (by rw [h.schema]; exact nonceLedgerSchema_plain) _),
      Json.run_bind_of (Json.run_literal ..),
      Json.run_bind_of (Json.run_sequence
        (fun record member => NonceRecord.run_fromJson (h.valid record member))
        (fun record _ => record.toJson_starts) enough _)]
    exact Json.run_bind_of (by simpa using Json.run_literal (utf8 "\x7d") [])
  simp [NonceLedger.fromSlice, parsed]

theorem WellFormed.sized :
    ¬(ledger.toVec.length = 0 ∨ maxNonceLedgerBytes < ledger.toVec.length) := by
  have fits := h.fits
  have named : (utf8 "\x7b\"schema\":").length = 10 := by decide +kernel
  simp only [toVec, length_append] at fits ⊢
  omega

/-- **A ledger fits its file and reads back.** -/
theorem WellFormed.readLedger : readLedger (some ledger.toVec) = .ok ledger := by
  have accepted : ¬(ledger.toVec ≠ ledger.toVec ∨ ledger.schema ≠ nonceLedgerSchema ∨
      maxNonceRecords < ledger.records.length ∨ ∃ record ∈ ledger.records, ¬record.valid) := by
    rintro (changed | other | many | ⟨record, member, invalid⟩)
    · exact changed rfl
    · exact other h.schema
    · exact absurd h.count (Nat.not_le.mpr many)
    · exact invalid (h.valid record member)
  simp only [Update.readLedger, h.fromSlice, okOr, reject_bind, if_neg h.sized, if_neg accepted,
    ok_bind, pure_eq_ok]

omit h in
theorem readLedger_wellFormed {file : Option Bytes} (h : Update.readLedger file = .ok ledger) :
    ledger.WellFormed := by
  cases file with
  | none =>
    cases h
    exact ⟨rfl, by simp, by simp⟩
  | some bytes =>
    simp only [Update.readLedger, ok_steps, exists_const] at h
    obtain ⟨-, parsed, -, accepted, rfl⟩ := h
    push Not at accepted
    exact ⟨accepted.2.1, accepted.2.2.1, fun record member => by simpa using accepted.2.2.2 record member⟩

theorem WellFormed.retain (now : UInt64) : (ledger.retain now).WellFormed where
  schema := h.schema
  count := (length_filter_le ..).trans h.count
  valid record member := h.valid record (mem_filter.mp member).1

theorem WellFormed.push (room : ledger.records.length < maxNonceRecords)
    (valid : candidate.valid = true) : (ledger.push candidate).WellFormed where
  schema := h.schema
  count := by simpa [NonceLedger.push] using room
  valid record member := by
    rcases mem_push.mp member with old | rfl
    · exact h.valid record old
    · exact valid

end Records

/-- A reservation is one more record, for a use that has none. -/
theorem reserve_eq_ok {next : NonceLedger} (h : ledger.reserve candidate = .ok next) :
    (∀ record ∈ ledger.records, ¬record.sameUse candidate) ∧
      ledger.records.length < maxNonceRecords ∧ next = ledger.push candidate := by
  simp only [reserve, ok_steps, exists_const] at h
  obtain ⟨unused, room, -, rfl⟩ := h
  push Not at unused
  exact ⟨unused, Nat.not_le.mp room, rfl⟩

/-- With room and no record of the use, there is nothing that refuses it. -/
theorem WellFormed.reserve (h : ledger.WellFormed)
    (unused : ∀ record ∈ ledger.records, ¬record.sameUse candidate)
    (room : ledger.records.length < maxNonceRecords) (valid : candidate.valid = true) :
    ledger.reserve candidate = .ok (ledger.push candidate) := by
  have fits := (h.push room valid).fits
  simp only [NonceLedger.reserve, reject_bind]
  rw [if_neg (by push Not; exact unused), if_neg (Nat.not_le.mpr room),
    if_neg (Nat.not_lt.mpr fits)]
  rfl

end NonceLedger

theorem reserveAuthorization_done {authorization : UpdateAuthorization} {now : UInt64}
    {file : LedgerFile} {ledger next : NonceLedger} (readable : readLedger file.visible = .ok ledger)
    (reserved : (ledger.retain now).reserve (.fromAuthorization authorization) = .ok next)
    (wellFormed : next.WellFormed) :
    (reserveAuthorization authorization now .done).run file =
      .ok () ⟨some next.toVec, some next.toVec⟩ := by
  have write : (writeAtomicBounded next.toVec maxNonceLedgerBytes .done).run file =
      .ok () ⟨some next.toVec, some next.toVec⟩ :=
    run_reject_bind_of_not wellFormed.sized ..
  rw [reserveAuthorization, run_reject_bind_of_not (by simp)]
  exact run_bind_eq_ok.mpr ⟨_, _, rfl, run_bind_eq_ok.mpr ⟨_, _,
    run_ofExcept_eq_ok.mpr ⟨readable, rfl⟩, run_bind_eq_ok.mpr ⟨_, _,
    run_ofExcept_eq_ok.mpr ⟨reserved, rfl⟩, write⟩⟩⟩

/-! ## Whole runs -/

section Runs

variable [Ed25519]

namespace UpdateAuthorization

variable {value : UpdateAuthorization} {root : VerifyingKey} {hive : HiveId} {peer target : NodeId}
  {now : UInt64}

theorem verify_eq_ok {u : Unit} (h : value.verify root hive peer target now = .ok u) :
    now ≤ value.expiresAt ∧ 1 ≤ value.bundleLength ∧ value.bundleLength ≤ maxUpdateBundleBytes := by
  simp only [verify, reject_eq_ok] at h
  push Not at h
  obtain ⟨-, -, -, live, -, -, -, length, -⟩ := h
  exact ⟨live, length⟩

theorem verify_expired (h : value.expiresAt < now) :
    value.verify root hive peer target now = .error .invalid :=
  if_pos (.inr (.inr (.inr (.inl h))))

end UpdateAuthorization

/-- The file after a use: one more record, of an authorization that verified. -/
structure Uses (context : ReceiveContext) (delivery : Delivery) (file : LedgerFile)
    (next : NonceLedger) : Prop where
  verified : delivery.authorization.verify context.rootKey context.hiveId
    delivery.authenticatedPeer context.localNode delivery.now = .ok ()
  reserved : ∃ ledger, readLedger file.visible = .ok ledger ∧
    (ledger.retain delivery.now).reserve (.fromAuthorization delivery.authorization) = .ok next

/-- What a reception leaves: a use that is durable when it succeeds, and otherwise the file as it
was or a use that a power failure may still undo. -/
theorem receiveInner_ends (context : ReceiveContext) (delivery : Delivery) (file : LedgerFile) :
    Ends file (receiveInner context delivery)
      (fun _ after => ∃ next, Uses context delivery file next ∧
        after = ⟨some next.toVec, some next.toVec⟩)
      fun after => after = file ∨ ∃ next, Uses context delivery file next ∧
        after = { file with visible := some next.toVec } := by
  unfold receiveInner
  refine .reject (.inl rfl) fun _ => .ofExcept (.inl rfl) fun _ verified => ?_
  refine .reject (.inl rfl) fun _ => .adaptExcept ?_
  unfold reserveAuthorization
  refine .reject (.inl rfl) fun _ => .get ?_
  refine .ofExcept (.inl rfl) fun ledger readable => .ofExcept (.inl rfl) fun next reserved => ?_
  have uses : Uses context delivery file next := by
    refine ⟨?_, ledger, readable, reserved⟩
    cases answer : delivery.authorization.verify context.rootKey context.hiveId
      delivery.authenticatedPeer context.localNode delivery.now with
    | ok _ => rfl
    | error e => rw [answer] at verified; cases verified
  unfold writeAtomicBounded
  refine .reject (.inl rfl) fun _ => ?_
  cases delivery.fate with
  | unreadable => exact .throw (.inl rfl)
  | unwritten error => exact .throw (.inl rfl)
  | unsynced => exact .inr ⟨next, uses, rfl⟩
  | done => exact ⟨next, uses, rfl⟩

/-- Every reservation is in the file, or it expired before the clock's last reading. -/
def Remembers (clock : UInt64) (reserved : List Reservation) (file : Option Bytes) : Prop :=
  ∃ ledger, readLedger file = .ok ledger ∧ ∀ reservation ∈ reserved,
    NonceRecord.fromAuthorization reservation.authorization ∈ ledger.records ∨
      reservation.authorization.expiresAt < clock

theorem Remembers.mono {clock later : UInt64} {reserved : List Reservation} {file : Option Bytes}
    (h : Remembers clock reserved file) (le : clock ≤ later) : Remembers later reserved file := by
  obtain ⟨ledger, readable, kept⟩ := h
  refine ⟨ledger, readable, fun reservation member => ?_⟩
  exact (kept reservation member).imp_right fun expired => lt_of_lt_of_le expired le

namespace Uses

variable {context : ReceiveContext} {delivery : Delivery} {file : LedgerFile} {next : NonceLedger}
  {clock : UInt64} {reserved : List Reservation}

section Uses

variable (uses : Uses context delivery file next)

include uses

/-- The next ledger is well formed and holds the use. -/
theorem readable : readLedger (some next.toVec) = .ok next := by
  obtain ⟨verified, ledger, readable, reserved⟩ := uses
  obtain ⟨-, room, rfl⟩ := NonceLedger.reserve_eq_ok reserved
  have valid := NonceRecord.fromAuthorization_valid (UpdateAuthorization.verify_eq_ok verified).2
  exact (((NonceLedger.readLedger_wellFormed readable).retain _).push room valid).readLedger

theorem recorded : NonceRecord.fromAuthorization delivery.authorization ∈ next.records := by
  obtain ⟨-, ledger, -, reserved⟩ := uses
  obtain ⟨-, -, rfl⟩ := NonceLedger.reserve_eq_ok reserved
  exact NonceLedger.mem_push.mpr (.inr rfl)

/-- Pruning drops what has expired and nothing else. -/
theorem remembers (before : Remembers clock reserved file.visible) (forward : clock ≤ delivery.now) :
    Remembers delivery.now reserved (some next.toVec) := by
  refine ⟨next, uses.readable, fun reservation member => ?_⟩
  obtain ⟨-, ledger, readable, reserve⟩ := uses
  obtain ⟨-, -, rfl⟩ := NonceLedger.reserve_eq_ok reserve
  obtain ⟨known, same, kept⟩ := before
  cases readable.symm.trans same
  rcases kept reservation member with present | expired
  · by_cases live : delivery.now ≤ reservation.authorization.expiresAt
    · exact .inl (NonceLedger.mem_push.mpr (.inl (NonceLedger.mem_retain.mpr ⟨present, live⟩)))
    · exact .inr (not_le.mp live)
  · exact .inr (lt_of_lt_of_le expired forward)

/-- An earlier reservation for the same use has expired. -/
theorem earlier_expired (before : Remembers clock reserved file.visible)
    (forward : clock ≤ delivery.now) {reservation : Reservation} (member : reservation ∈ reserved)
    (same : (NonceRecord.fromAuthorization reservation.authorization).sameUse (.fromAuthorization delivery.authorization)) :
    reservation.authorization.expiresAt < delivery.now := by
  obtain ⟨-, ledger, readable, reserve⟩ := uses
  obtain ⟨unused, -⟩ := NonceLedger.reserve_eq_ok reserve
  obtain ⟨known, as, kept⟩ := before
  cases readable.symm.trans as
  rcases kept reservation member with present | expired
  · by_contra live
    exact unused _ (NonceLedger.mem_retain.mpr ⟨present, not_lt.mp live⟩) same
  · exact lt_of_lt_of_le expired forward

end Uses

end Uses

/-- A reception that meets no obstacle uses an authorization that verifies, is not in the ledger and
finds room there. -/
theorem receiveInner_done {context : ReceiveContext} {delivery : Delivery} {file : LedgerFile}
    {ledger : NonceLedger} (current : delivery.current = true) (admitted : delivery.admitted = true)
    (done : delivery.fate = .done) (readable : readLedger file.visible = .ok ledger)
    (verified : delivery.authorization.verify context.rootKey context.hiveId
      delivery.authenticatedPeer context.localNode delivery.now = .ok ())
    (unused : ∀ record ∈ (ledger.retain delivery.now).records,
      ¬record.sameUse (.fromAuthorization delivery.authorization))
    (room : (ledger.retain delivery.now).records.length < maxNonceRecords) :
    ∃ next, next = (ledger.retain delivery.now).push (.fromAuthorization delivery.authorization) ∧
      readLedger (some next.toVec) = .ok next ∧
      (receiveInner context delivery).run file = .ok () ⟨some next.toVec, some next.toVec⟩ := by
  have valid := NonceRecord.fromAuthorization_valid (UpdateAuthorization.verify_eq_ok verified).2
  have retained := (NonceLedger.readLedger_wellFormed readable).retain delivery.now
  have reserved := retained.reserve unused room valid
  have wellFormed := retained.push room valid
  refine ⟨_, rfl, wellFormed.readLedger, ?_⟩
  rw [receiveInner, run_reject_bind_of_not (by simp [current]), verified]
  refine run_bind_eq_ok.mpr ⟨(), file, rfl, ?_⟩
  rw [run_reject_bind_of_not (by simp [admitted]), done]
  exact run_adaptExcept_eq_ok.mpr (reserveAuthorization_done readable reserved wellFormed)

/-- The later of two reservations for one use came after the earlier had expired, and within its own
time. -/
def Apart (first second : Reservation) : Prop :=
  first.authorization.issuer = second.authorization.issuer →
    first.authorization.target = second.authorization.target →
    first.authorization.nonce = second.authorization.nonce →
    first.authorization.expiresAt < second.time ∧ second.time ≤ second.authorization.expiresAt

/-- What a run keeps: both files remember, and reservations of one use stand apart. -/
structure Reception.Kept (reception : Reception) (clock : UInt64) : Prop where
  visible : Remembers clock reception.reserved reception.file.visible
  durable : Remembers clock reception.reserved reception.file.durable
  apart : reception.reserved.Pairwise Apart

namespace Reception.Kept

variable {reception : Reception} {clock : UInt64}

theorem fresh : Reception.fresh.Kept 0 := by
  have empty : Remembers 0 [] none := ⟨_, rfl, by simp⟩
  exact ⟨empty, empty, .nil⟩

theorem receive (h : reception.Kept clock) (context : ReceiveContext) (delivery : Delivery)
    (forward : clock ≤ delivery.now) :
    (reception.after context (.receive delivery)).Kept delivery.now := by
  have ends := receiveInner_ends context delivery reception.file
  unfold Reception.after
  dsimp only
  cases run : (receiveInner context delivery).run reception.file with
  | ok _ file =>
    obtain ⟨next, uses, rfl⟩ := ends.ok run
    obtain ⟨ledger, readable, kept⟩ := uses.remembers h.visible forward
    cases uses.readable.symm.trans readable
    have all : Remembers delivery.now (reception.reserved ++ [⟨delivery.authorization, delivery.now⟩])
        (some next.toVec) := by
      refine ⟨next, readable, fun reservation member => ?_⟩
      rcases mem_append.mp member with old | new
      · exact kept reservation old
      · cases mem_singleton.mp new
        exact .inl uses.recorded
    refine ⟨all, all, pairwise_append.mpr ⟨h.apart, pairwise_singleton .., ?_⟩⟩
    intro earlier member later new issuer target nonce
    cases mem_singleton.mp new
    have same : (NonceRecord.fromAuthorization earlier.authorization).sameUse
        (.fromAuthorization delivery.authorization) := by
      simp only [NonceRecord.sameUse, NonceRecord.fromAuthorization, issuer, target, nonce, and_self]
    exact ⟨uses.earlier_expired h.visible forward member same,
      (UpdateAuthorization.verify_eq_ok uses.verified).1⟩
  | error e file =>
    have durable := h.durable.mono forward
    rcases ends.error run with rfl | ⟨next, uses, rfl⟩
    · exact ⟨h.visible.mono forward, durable, h.apart⟩
    · exact ⟨uses.remembers h.visible forward, durable, h.apart⟩

/-- Over a run whose readings do not fall behind the clock or one another. -/
theorem run (h : reception.Kept clock) (context : ReceiveContext) (events : List LedgerEvent)
    (forward : ∀ reading ∈ readings events, clock ≤ reading)
    (ordered : (readings events).Pairwise (· ≤ ·)) :
    ∃ last, (reception.run context events).Kept last ∧
      ∀ now, clock ≤ now → (∀ reading ∈ readings events, reading ≤ now) → last ≤ now := by
  induction events generalizing reception clock with
  | nil => exact ⟨clock, h, fun now le _ => le⟩
  | cons event events ih =>
    cases event with
    | receive delivery =>
      obtain ⟨later, ordered⟩ := pairwise_cons.mp ordered
      have here := h.receive context delivery (forward delivery.now (mem_cons_self ..))
      obtain ⟨last, kept, latest⟩ := ih here later ordered
      refine ⟨last, kept, fun now _ bound => ?_⟩
      exact latest now (bound _ (mem_cons_self ..)) fun reading member =>
        bound reading (mem_cons_of_mem _ member)
    | settle => exact ih ⟨h.visible, h.visible, h.apart⟩ forward ordered
    | powerFailure => exact ih ⟨h.durable, h.durable, h.apart⟩ forward ordered

end Reception.Kept

/-- **An authorization is used once.** Over every run of receptions with readings of the clock that
never go back, whatever fails and whenever the power does: two reservations for the same issuer,
target and nonce are apart by the expiry of the first, so that neither is ever used twice; a
reservation that is no longer in the file is of an authorization that will not verify again; and a
ledger of as many records as it may have fits its file and reads back. -/
theorem authorization_used_once (context : ReceiveContext) (events : List LedgerEvent)
    (ordered : (readings events).Pairwise (· ≤ ·)) :
    (Reception.fresh.run context events).reserved.Pairwise Apart ∧
      (∀ file ∈ [(Reception.fresh.run context events).file.visible,
          (Reception.fresh.run context events).file.durable], ∃ ledger,
        readLedger file = .ok ledger ∧
          ∀ reservation ∈ (Reception.fresh.run context events).reserved,
            NonceRecord.fromAuthorization reservation.authorization ∈ ledger.records ∨
              ∀ root hive peer target now, (∀ reading ∈ readings events, reading ≤ now) →
                reservation.authorization.verify root hive peer target now = .error .invalid) ∧
      ∀ ledger : NonceLedger, ledger.WellFormed → ledger.toVec.length ≤ maxNonceLedgerBytes ∧
        readLedger (some ledger.toVec) = .ok ledger := by
  obtain ⟨last, kept, latest⟩ :=
    Reception.Kept.fresh.run context events (fun _ _ => UInt64.zero_le) ordered
  refine ⟨kept.apart, fun file member => ?_, fun ledger h => ⟨h.fits, h.readLedger⟩⟩
  have remembers : Remembers last (Reception.fresh.run context events).reserved file := by
    rcases mem_cons.mp member with rfl | member
    · exact kept.visible
    · cases mem_singleton.mp member
      exact kept.durable
  obtain ⟨ledger, readable, known⟩ := remembers
  refine ⟨ledger, readable, fun reservation reserved => ?_⟩
  refine (known reservation reserved).imp_right fun expired root hive peer target now bound => ?_
  exact UpdateAuthorization.verify_expired
    (lt_of_lt_of_le expired (latest now UInt64.zero_le bound))

end Runs

/-! ## A nonce that is signed again -/

/-- Stand-in signatures that always verify, enough to evaluate the model. -/
@[reducible] def trustingEd25519 : Ed25519 where
  verifyingKey secret := secret
  wellFormed _ := true
  isWeak _ := false
  sign _ _ := FixedBytes.replicate 64 0
  verifyStrict _ _ _ := true

attribute [local instance] trustingEd25519

/-- A permission of five minutes, under a nonce that does not change. -/
def permission (now : UInt64) : UpdateAuthorization where
  hiveId := .replicate 32 1
  issuer := .replicate 32 2
  target := .replicate 32 3
  bundleDigest := .replicate 32 4
  bundleLength := 1024
  issuedAt := now
  expiresAt := now + 300
  nonce := .replicate 32 5
  signature := .replicate 64 0

def permitted (now : UInt64) : Delivery where
  authorization := permission now
  authenticatedPeer := .replicate 32 2
  now
  current := true
  admitted := true
  fate := .done

def receiver : ReceiveContext where
  rootKey := .replicate 32 0
  hiveId := .replicate 32 1
  localNode := .replicate 32 3

/-- The first reservation is forgotten with its expiry, and the nonce is reserved again. -/
theorem signed_nonce_reserved_again :
    (readings [.receive (permitted 100), .receive (permitted 401)]).Pairwise (· ≤ ·) ∧
      (Reception.fresh.run receiver
        [.receive (permitted 100), .receive (permitted 401)]).reserved =
          [⟨permission 100, 100⟩, ⟨permission 401, 401⟩] ∧
      (permission 100).issuer = (permission 401).issuer ∧
      (permission 100).target = (permission 401).target ∧
      (permission 100).nonce = (permission 401).nonce := by
  refine ⟨by decide, ?_, rfl, rfl, rfl⟩
  obtain ⟨first, used, readable, received⟩ := @receiveInner_done _ receiver (permitted 100)
    ⟨none, none⟩ _ rfl rfl rfl rfl (by decide) (by simp [NonceLedger.retain]) (by decide)
  -- What the first reservation left has expired when the second arrives.
  have expired : (first.retain 401).records = [] := by
    refine eq_nil_iff_forall_not_mem.mpr fun record member => ?_
    obtain ⟨present, live⟩ := NonceLedger.mem_retain.mp member
    rw [used, NonceLedger.mem_push] at present
    rcases present with old | rfl
    · simp [NonceLedger.retain] at old
    · exact absurd live (by decide)
  obtain ⟨second, -, -, again⟩ := @receiveInner_done _ receiver (permitted 401)
    ⟨some first.toVec, some first.toVec⟩ _ rfl rfl rfl readable (by decide)
    (by intro record member; rw [show (permitted 401).now = 401 from rfl, expired] at member; cases member)
    (by rw [show (permitted 401).now = 401 from rfl, expired]; decide)
  simp only [Reception.run, foldl_cons, foldl_nil, Reception.after, Reception.fresh,
    received, again]
  rfl

/-- The same run, to which the theorem applies. -/
theorem authorization_used_once_pair :
    (readings [.receive (permitted 100), .receive (permitted 401)]).Pairwise (· ≤ ·) ∧
      (Reception.fresh.run receiver
        [.receive (permitted 100), .receive (permitted 401)]).reserved.Pairwise Apart :=
  ⟨by decide, (authorization_used_once receiver _ (by decide)).1⟩

end Supgang.Update
