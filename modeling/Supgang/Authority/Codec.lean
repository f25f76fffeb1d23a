/-
# Authority.Codec — reading manifests back

The reading half of `authority/codec.rs`. Every reader bounds what it counts before it reads it, a
certificate is proved as it is read, and a manifest is accepted only in the bytes it encodes to.

* `run_readCertificate`, `readContent_contentFields` — a certificate and a content read back.
* `decodeManifest_encode`, `decodeManifest_canonical` — **round trips** of a manifest.
* `CertifiedKey.oneEncoding` — those of a certificate on its own.
-/
import Supgang.Authority.Manifest
import Supgang.Theory.Canonical

namespace Supgang.Authority

set_option autoImplicit false
set_option linter.unusedSectionVars false

open Theory List Record
open Cbor (append_le bind_fixed bind_many bind_ofExcept bind_reads bind_reject bind_text fixedThen
  fixed_length_le headThen run_bind_of text_le unsignedThen unsigned_length_le)

/-! ## Readers -/

abbrev AuthorityReader := Cbor.Reader AuthorityError

def array (fields : Nat) : AuthorityReader Unit := Cbor.requireArray .invalid fields

def fixed (n : Nat) : AuthorityReader (FixedBytes n) := Cbor.readFixed .invalid n

def version : AuthorityReader Unit := do
  let found ← Cbor.readU8
  reject (found ≠ 1) AuthorityError.version

/-- A definite array length within its bound. -/
def count (maximum : Nat) : AuthorityReader Nat := do
  let found ← Cbor.readArray
  let value ← ofExcept (okOr found AuthorityError.invalid)
  reject (maximum < value) AuthorityError.bound
  return value

def text (maximum : Nat) : AuthorityReader String := do
  let value ← Cbor.readText
  reject (maximum < (utf8 value).length) AuthorityError.bound
  return value

def Purpose.parse (value : String) : Except AuthorityError Purpose :=
  if value = "publish" then .ok .publish
  else if value = "service" then .ok .service
  else if value = "transport-client" then .ok .transportClient
  else if value = "transport-server" then .ok .transportServer
  else if value = "attest" then .ok .attest
  else .error .unknownPurpose

def readPurpose : AuthorityReader Purpose := do
  let value ← Cbor.readText
  ofExcept (Purpose.parse value)

def readCustody : AuthorityReader SubjectCustody := do
  let value ← Cbor.readText
  if value = "hardware" then return .hardware
  else if value = "file" then return .file
  else if value = "synced" then return .synced
  else throw .invalid

theorem serviceName_eq {value name : String} (h : ServiceName.new value = .ok name) :
    ServiceName.new name = .ok name := by
  obtain ⟨_, made⟩ := reject_bind_eq_ok.mp h
  obtain rfl := pure_eq_ok.mp made
  exact h

/-- A service name, read as a text and checked. -/
def readLabel : AuthorityReader ServiceLabel := do
  let value ← text maxServiceNameBytes
  match h : ServiceName.new value with
  | .ok name => return ⟨name, serviceName_eq h⟩
  | .error error => throw (.service error)

/-- The fields of an audience behind its purpose. -/
def readAudienceFields : Purpose → Nat → AuthorityReader Audience
  | .publish, 1 => return .publish
  | .service, 3 => do
      let name ← readLabel
      let instance_ ← fixed 16
      return .service name instance_
  | .transportServer, 4 => do
      let name ← readLabel
      let instance_ ← fixed 16
      let hostname ← text 253
      return .transportServer name instance_ hostname
  | .transportClient, 3 => do
      let hive ← fixed 32
      let node ← Cbor.readNullable (fixed 32)
      return .transportClient hive node
  | .attest, 2 => do
      let instance_ ← fixed 16
      return .attest instance_
  | _, _ => throw .scope

def readAudience (purpose : Purpose) : AuthorityReader Audience := do
  let found ← Cbor.readArray
  let fields ← ofExcept (okOr found AuthorityError.invalid)
  let tag ← readPurpose
  reject (tag ≠ purpose) AuthorityError.scope
  readAudienceFields tag fields

section Readers

variable [P256]

def readSubject : AuthorityReader SubjectKey := do
  let tag ← Cbor.readText
  if tag = "p256" then do
    let raw ← Cbor.readBytes
    let key ← ofExcept ((DevicePublicKey.fromBytes raw).mapError AuthorityError.key)
    return .p256 key
  else if tag = "ed25519" then do
    let key ← fixed 32
    return .ed25519 key
  else throw .invalid

/-- The fields of a certificate up to its possession proof. -/
def readClaims : AuthorityReader CertifiedKeyClaims := do
  version
  let hive ← fixed 32
  array 2
  let issuer ← fixed 32
  let epoch ← Cbor.readU64
  let id ← fixed 16
  array 3
  let subject ← readSubject
  let custody ← readCustody
  let purpose ← readPurpose
  let audience ← readAudience purpose
  let operations ← count maxOperations
  let operations ← Cbor.readMany (text maxOperationBytes) operations
  let notBefore ← Cbor.readU64
  let notAfter ← Cbor.readU64
  let policy ← Cbor.readU16
  return { hive, issuer, epoch, id, subject, custody, purpose, audience, operations, notBefore,
           notAfter, policy }

variable [Ed25519] [Sha256]

def readCertificate : AuthorityReader CertifiedKey := do
  array 12
  let claims ← readClaims
  let possession ← fixed 64
  let certificate : CertifiedKey := { claims, possession }
  ofExcept certificate.verifyPossession
  return certificate

def readNamedService : AuthorityReader NamedService := do
  array 3
  let name ← readLabel
  let port ← Cbor.readU16
  let keyPin ← fixed 32
  return ⟨{ name := name.1, port, keyPin }, name.2⟩

def readIds (maximum : Nat) : AuthorityReader (List CertificateId) := do
  let found ← count maximum
  Cbor.readMany (fixed 16) found

/-- The fields of a content in wire order. -/
def readContentFields : AuthorityReader AuthorityContent := do
  array 8
  version
  let epoch ← Cbor.readU64
  let revision ← Cbor.readU64
  let issuedAt ← Cbor.readU64
  let nextUpdate ← Cbor.readU64
  let found ← count maxCertificates
  let certificates ← Cbor.readMany readCertificate found
  array 2
  version
  let ids ← readIds maxRevocations
  let found ← count maxServiceAdverts
  let services ← Cbor.readMany readNamedService found
  return { epoch, revision, issuedAt, nextUpdate, certificates, revocations := ⟨ids⟩, services }

def readContent (bytes : Bytes) : Except AuthorityError AuthorityContent := do
  let (content, rest) ← readContentFields.run bytes
  reject (rest ≠ []) AuthorityError.nonCanonical
  content.validate
  return content

/-- The content bytes and the signature of an envelope. -/
def readManifest : AuthorityReader AuthorityManifest := do
  array 3
  version
  let raw ← Cbor.readBytes
  let content ← ofExcept (readContent raw)
  let raw ← Cbor.readBytes
  let signature ← ofExcept ((DeviceSignature.fromBytes raw).mapError AuthorityError.key)
  return { content, signature }

def decodeManifest (bytes : Bytes) : Except AuthorityError AuthorityManifest := do
  reject (maxManifestBytes < bytes.length) AuthorityError.bound
  let (manifest, rest) ← readManifest.run bytes
  reject (rest ≠ []) AuthorityError.nonCanonical
  let encoded ← manifest.encode
  reject (encoded ≠ bytes) AuthorityError.nonCanonical
  return manifest

/-- A certificate on its own, with its possession proved. -/
def CertifiedKey.encode (certificate : CertifiedKey) : Except AuthorityError Bytes := do
  certificate.verifyPossession
  return certificateBytes certificate

def decodeCertificate (bytes : Bytes) : Except AuthorityError CertifiedKey := do
  reject (maxManifestBytes < bytes.length) AuthorityError.bound
  let (certificate, rest) ← readCertificate.run bytes
  reject (rest ≠ []) AuthorityError.nonCanonical
  reject (certificateBytes certificate ≠ bytes) AuthorityError.nonCanonical
  return certificate

end Readers

/-! ## Small items -/

theorem run_version (rest : Bytes) : version.run (Cbor.u8 1 ++ rest) = .ok ((), rest) := by
  rw [version, Cbor.bind_u8]
  exact Cbor.run_reject_of_not (by simp) _ _

theorem run_count {maximum value : Nat} (within : value ≤ maximum) (fits : maximum < 2 ^ 64)
    (rest : Bytes) : (count maximum).run (Cbor.array value ++ rest) = .ok (value, rest) := by
  rw [count, Cbor.bind_array (by omega), okOr_some, bind_ofExcept,
    bind_reject (not_lt.mpr within)]
  rfl

theorem run_text {maximum : Nat} {value : String} (within : (utf8 value).length ≤ maximum)
    (fits : maximum < 2 ^ 64) (rest : Bytes) :
    (text maximum).run (Cbor.text value ++ rest) = .ok (value, rest) := by
  rw [text, bind_text (by omega), bind_reject (not_lt.mpr within)]
  rfl

theorem run_readPurpose (purpose : Purpose) (rest : Bytes) :
    readPurpose.run (Cbor.text purpose.text ++ rest) = .ok (purpose, rest) := by
  have hparse : Purpose.parse purpose.text = .ok purpose := by
    cases purpose <;> simp [Purpose.parse, Purpose.text]
  have hshort : (utf8 purpose.text).length < 2 ^ 64 := by
    cases purpose <;> decide +kernel
  rw [readPurpose, bind_text hshort, hparse]
  rfl

theorem run_readCustody (custody : SubjectCustody) (rest : Bytes) :
    readCustody.run (Cbor.text (custodyText custody) ++ rest) = .ok (custody, rest) := by
  have hshort : (utf8 (custodyText custody)).length < 2 ^ 64 := by
    cases custody <;> decide +kernel
  rw [readCustody, bind_text hshort]
  cases custody <;> rfl

theorem run_readLabel (label : ServiceLabel) (rest : Bytes) :
    readLabel.run (Cbor.text label.1 ++ rest) = .ok (label, rest) := by
  have hlength := ServiceName.length_le label.2
  rw [readLabel, run_bind_of (run_text hlength (by decide) _)]
  split
  · rename_i name hname
    have same : name = label.1 := Except.ok.inj (hname.symm.trans label.2)
    subst same
    rfl
  · rename_i error herror
    rw [label.2] at herror
    cases herror

theorem run_readAudience_head (purpose : Purpose) {fields : Nat} (fits : fields < 2 ^ 64)
    (rest : Bytes) :
    (readAudience purpose).run (Cbor.array fields ++ (Cbor.text purpose.text ++ rest)) =
      (readAudienceFields purpose fields).run rest := by
  rw [readAudience, Cbor.bind_array fits, okOr_some, bind_ofExcept,
    run_bind_of (run_readPurpose purpose _), bind_reject (by simp)]

theorem run_readAudience {audience : Audience} {hive : HiveId}
    (checked : audience.check hive = .ok ()) (rest : Bytes) :
    (readAudience audience.purpose).run (audienceBytes audience ++ rest) = .ok (audience, rest) := by
  have head := fun {fields} fits rest =>
    @run_readAudience_head audience.purpose fields fits (rest : Bytes)
  cases audience with
  | publish =>
    simp only [audienceBytes, append_assoc]
    exact head (by decide) rest
  | service name instance_ =>
    simp only [audienceBytes, append_assoc]
    refine (head (by decide) _).trans ?_
    simp (disch := omega) only [Audience.purpose, readAudienceFields, fixed,
      run_bind_of (run_readLabel name _), bind_fixed]
    rfl
  | transportServer name instance_ hostname =>
    have named : validHostname hostname := not_not.mp (reject_eq_ok.mp checked)
    have short : (utf8 hostname).length ≤ 253 := by
      simp only [validHostname, Bool.and_eq_true, decide_eq_true_eq] at named
      exact named.1.2
    simp only [audienceBytes, append_assoc]
    refine (head (by decide) _).trans ?_
    simp (disch := omega) only [Audience.purpose, readAudienceFields, fixed,
      run_bind_of (run_readLabel name _), bind_fixed,
      run_bind_of (run_text short (by decide) _)]
    rfl
  | transportClient hive node =>
    simp only [audienceBytes, append_assoc]
    refine (head (by decide) _).trans ?_
    simp (disch := omega) only [Audience.purpose, readAudienceFields, fixed, bind_fixed]
    cases node with
    | none =>
      rw [run_bind_of (Cbor.run_readNullable_null _ _)]
      rfl
    | some node =>
      rw [run_bind_of (Cbor.run_readNullable_bytes (by rw [node.2]; decide)
        (Cbor.run_readFixed _ node (by decide) rest))]
      rfl
  | attest instance_ =>
    simp only [audienceBytes, append_assoc]
    refine (head (by decide) _).trans ?_
    simp (disch := omega) only [Audience.purpose, readAudienceFields, fixed, bind_fixed]
    rfl

section RoundTrip

variable [P256]

theorem run_readSubject (subject : SubjectKey) (rest : Bytes) :
    readSubject.run (subjectBytes subject ++ rest) = .ok (subject, rest) := by
  have hp256 : (utf8 "p256").length = 4 := by decide +kernel
  have hed25519 : (utf8 "ed25519").length = 7 := by decide +kernel
  cases subject with
  | p256 key =>
    have hkey := key.bytes.2
    simp (disch := omega) only [subjectBytes, readSubject, append_assoc, bind_reads, if_true,
      DevicePublicKey.fromBytes_toBytes, mapError_ok]
    rfl
  | ed25519 key =>
    simp (disch := omega) only [subjectBytes, readSubject, append_assoc, bind_text,
      if_true, fixed]
    rw [if_neg (by decide), bind_fixed _ key (by decide)]
    rfl

variable [Ed25519]

variable {u : Unit} {certificate : CertifiedKey}

variable {claims : CertifiedKeyClaims} {content : AuthorityContent} {manifest : AuthorityManifest}
  {bytes : Bytes}

/-- Claims that have passed `validate`, as far as reading them back needs it. -/
theorem claims_fit (valid : claims.validate = .ok u) :
    claims.audience.purpose = claims.purpose ∧ claims.audience.check claims.hive = .ok () ∧
      claims.operations.length ≤ maxOperations ∧
      ∀ operation ∈ claims.operations, (utf8 operation).length ≤ maxOperationBytes := by
  simp only [CertifiedKeyClaims.validate, ok_steps, not_or, not_lt, not_not, not_exists,
    not_and] at valid
  obtain ⟨_, -, _, -, _, purpose_eq, _, checked, _, few, _, ⟨-, each⟩, -⟩ := valid
  refine ⟨purpose_eq, checked, few, fun operation inside => ?_⟩
  have good := each operation inside
  simp only [validOperation, Bool.and_eq_true, decide_eq_true_eq] at good
  exact good.1.2

theorem run_readClaims (valid : claims.validate = .ok u) (rest : Bytes) :
    readClaims.run (claimFields claims ++ rest) = .ok (claims, rest) := by
  obtain ⟨purpose_eq, checked, few, short⟩ := claims_fit valid
  have haudience := run_readAudience checked
  rw [purpose_eq] at haudience
  simp (disch := omega) only [claimFields, readClaims, append_assoc, array, fixed,
    run_bind_of (run_version _), bind_reads, run_bind_of (run_readSubject _ _),
    run_bind_of (run_readCustody _ _), run_bind_of (run_readPurpose _ _),
    run_bind_of (haudience _), run_bind_of (run_count few (by decide) _),
    bind_many fun operation inside => run_text (short operation inside) (by decide)]
  rfl

variable [Sha256]

theorem verifyPossession_valid (proved : certificate.verifyPossession = .ok u) :
    certificate.claims.validate = .ok () := by
  obtain ⟨_, payload, -⟩ := bind_eq_ok.mp proved
  obtain ⟨_, valid, -⟩ := bind_eq_ok.mp payload
  exact valid

theorem run_readCertificate (proved : certificate.verifyPossession = .ok u) (rest : Bytes) :
    readCertificate.run (certificateBytes certificate ++ rest) = .ok (certificate, rest) := by
  simp (disch := omega) only [certificateBytes, readCertificate, append_assoc, array, fixed,
    bind_reads, run_bind_of (run_readClaims (verifyPossession_valid proved) _), proved]
  rfl

theorem run_readNamedService (service : NamedService) (rest : Bytes) :
    readNamedService.run (encodeService service.1 ++ rest) = .ok (service, rest) := by
  have hlabel := run_readLabel ⟨service.1.name, service.2⟩
  simp (disch := omega) only [encodeService, readNamedService, append_assoc, array, fixed,
    bind_reads, run_bind_of (hlabel _)]
  rfl

theorem run_readIds {maximum : Nat} {ids : List CertificateId} (few : ids.length ≤ maximum)
    (fits : maximum < 2 ^ 64) (rest : Bytes) :
    (readIds maximum).run (idsBytes ids ++ rest) = .ok (ids, rest) := by
  simp only [idsBytes, append_assoc]
  rw [readIds, run_bind_of (run_count few fits _)]
  exact Cbor.run_readMany (fun id _ rest => Cbor.run_readFixed _ id (by decide) rest) rest

theorem run_readContentFields (valid : content.Valid) (rest : Bytes) :
    readContentFields.run (contentFields content ++ rest) = .ok (content, rest) := by
  have few : content.services.length ≤ maxServiceAdverts := by
    obtain ⟨few, -⟩ := reject_bind_eq_ok.mp valid.services
    simpa using few
  simp (disch := omega) only [contentFields, readContentFields, append_assoc, array, bind_reads,
    run_bind_of (run_version _), run_bind_of (run_count valid.certificates_le (by decide) _),
    bind_many fun certificate inside => run_readCertificate (valid.proved certificate inside),
    run_bind_of (run_readIds valid.revocations_le (by decide) _),
    run_bind_of (run_count few (by decide) _),
    bind_many fun service _ => run_readNamedService service]
  rfl

theorem readContent_contentFields (valid : content.Valid) :
    readContent (contentFields content) = .ok content := by
  have hread := run_readContentFields valid []
  rw [append_nil] at hread
  have hvalid : content.validate = .ok () := validate_eq_ok.mpr valid
  simp only [readContent, hread, ok_bind, reject_bind, ne_eq, not_true_eq_false, if_false, hvalid]
  rfl

/-- A manifest that encodes is read back from its bytes. -/
theorem decodeManifest_encode (encoded : manifest.encode = .ok bytes) :
    decodeManifest bytes = .ok manifest := by
  obtain ⟨valid, fits, rfl⟩ := encode_eq_ok.mp encoded
  have hcontent : (contentFields manifest.content).length < 2 ^ 64 := by
    simp only [AuthorityManifest.bytes, manifestEnvelope, Cbor.bytes, length_append,
      maxManifestBytes] at fits
    omega
  have hsignature : manifest.signature.bytes.1.length < 2 ^ 64 := by
    rw [manifest.signature.bytes.2]
    decide
  have hread : readManifest.run manifest.bytes = .ok (manifest, []) := by
    rw [AuthorityManifest.bytes, manifestEnvelope,
      ← append_nil (Cbor.bytes manifest.signature.bytes.1)]
    simp (disch := omega) only [readManifest, array, bind_reads, run_bind_of (run_version _),
      readContent_contentFields valid, DeviceSignature.fromBytes_toBytes, mapError_ok]
    rfl
  simp only [decodeManifest, reject_bind, not_lt.mpr fits, hread, ok_bind, encoded, ne_eq,
    not_true_eq_false, if_false]
  rfl

/-- Only the bytes a manifest encodes to are accepted for it. -/
theorem decodeManifest_canonical (decoded : decodeManifest bytes = .ok manifest) :
    manifest.encode = .ok bytes := by
  simp only [decodeManifest, ok_steps, not_not] at decoded
  obtain ⟨_, -, ⟨found, rest⟩, -, _, -, encoded, hencoded, _, same, rfl⟩ := decoded
  rw [hencoded, same]

/-! ## Certificates on their own -/

theorem subjectBytes_length_le (subject : SubjectKey) : (subjectBytes subject).length ≤ 70 := by
  cases subject with
  | p256 key =>
    exact append_le (text_le (n := 4) (by decide +kernel)) (fixed_length_le _)
      |>.trans (by decide)
  | ed25519 key =>
    exact append_le (text_le (n := 7) (by decide +kernel)) (fixed_length_le _)
      |>.trans (by decide)

theorem audienceBytes_length_le {audience : Audience} {hive : HiveId}
    (checked : audience.check hive = .ok ()) : (audienceBytes audience).length ≤ 500 := by
  have hname : ∀ label : ServiceLabel, (utf8 label.1).length ≤ maxServiceNameBytes :=
    fun label => ServiceName.length_le label.2
  cases audience with
  | publish =>
    exact headThen (text_le (n := 16) (by decide +kernel)) |>.trans (by decide)
  | service name instance_ =>
    exact headThen (append_le (text_le (n := 16) (by decide +kernel)) (append_le (text_le (hname
      name)) (fixed_length_le _))) |>.trans (by decide)
  | transportServer name instance_ hostname =>
    have named : validHostname hostname := not_not.mp (reject_eq_ok.mp checked)
    simp only [validHostname, Bool.and_eq_true, decide_eq_true_eq] at named
    exact headThen (append_le (text_le (n := 16) (by decide +kernel)) (append_le (text_le (hname
      name)) (fixedThen (text_le named.1.2)))) |>.trans (by decide)
  | transportClient hive node =>
    cases node with
    | none =>
      exact headThen (append_le (text_le (n := 16) (by decide +kernel)) (fixedThen (le_refl 1)))
        |>.trans (by decide)
    | some node =>
      exact headThen (append_le (text_le (n := 16) (by decide +kernel)) (fixedThen (fixed_length_le
        _))) |>.trans (by decide)
  | attest instance_ =>
    exact headThen (append_le (text_le (n := 16) (by decide +kernel)) (fixed_length_le _))
      |>.trans (by decide)

theorem certificateBytes_length_le (valid : certificate.claims.validate = .ok u) :
    (certificateBytes certificate).length ≤ maxManifestBytes := by
  obtain ⟨-, checked, few, short⟩ := claims_fit valid
  have hcustody : (utf8 (custodyText certificate.claims.custody)).length ≤ 8 := by
    cases certificate.claims.custody <;> decide +kernel
  have hpurpose : (utf8 certificate.claims.purpose.text).length ≤ 16 := by
    cases certificate.claims.purpose <;> decide +kernel
  have hoperations : (certificate.claims.operations.flatMap Cbor.text).length ≤ 16 * (9 + 64) :=
    (Cbor.flatMap_length_le fun operation inside => text_le (short operation inside)).trans
      (Nat.mul_le_mul_right _ few)
  have hclaims : (claimFields certificate.claims).length ≤ 3000 :=
    unsignedThen (fixedThen (headThen (fixedThen (unsignedThen (fixedThen (headThen (append_le
      (subjectBytes_length_le _) (append_le (text_le hcustody) (append_le (text_le hpurpose)
      (append_le (audienceBytes_length_le checked) (headThen (append_le hoperations (unsignedThen
      (unsignedThen (unsigned_length_le _))))))))))))))) |>.trans (by decide)
  exact headThen (append_le hclaims (fixed_length_le _)) |>.trans (by decide)

/-- A certificate is proved as it is read. -/
theorem readCertificate_proved {input rest : Bytes}
    (h : readCertificate.run input = .ok (certificate, rest)) :
    certificate.verifyPossession = .ok () := by
  simp only [readCertificate, StateT.run_bind, bind_eq_ok] at h
  obtain ⟨_, -, ⟨claims, _⟩, -, ⟨possession, _⟩, -, ⟨_, _⟩, hproved, hrest⟩ := h
  cases hproof : CertifiedKey.verifyPossession ⟨claims, possession⟩ with
  | error error =>
    rw [hproof] at hproved
    cases hproved
  | ok _ =>
    cases hrest
    exact hproof

theorem CertifiedKey.oneEncoding : OneEncoding CertifiedKey.encode decodeCertificate where
  decode_encode {certificate bytes} encoded := by
    simp only [CertifiedKey.encode, ok_steps] at encoded
    obtain ⟨_, proved, rfl⟩ := encoded
    have hread := run_readCertificate proved []
    rw [append_nil] at hread
    simp only [decodeCertificate, ok_steps, exists_const, not_lt, not_not]
    exact ⟨certificateBytes_length_le (verifyPossession_valid proved), _, hread, rfl, rfl, rfl⟩
  encode_decode {certificate bytes} decoded := by
    simp only [decodeCertificate, ok_steps, exists_const, not_not] at decoded
    obtain ⟨-, ⟨found, rest⟩, hread, -, rfl, rfl⟩ := decoded
    rw [CertifiedKey.encode, readCertificate_proved hread]
    rfl

end RoundTrip

end Supgang.Authority
