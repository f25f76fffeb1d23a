/-
# Authority.Manifest — certified keys and the manifests that carry them

`authority.rs` and the writing half of `authority/codec.rs`. A device certifies subordinate keys in
a manifest it signs as a whole: a certificate carries no issuer signature of its own, only the
subject's proof of possession. A manifest is identified by its content, never by its signature.

* `AuthorityContent.Valid`, `validate_eq_ok` — the shape of a manifest's content.
* `AuthorityManifest.Verified`, `verify_eq_ok` — a manifest of this hive and issuer, signed.
-/
import Supgang.Hive.Wire
import Supgang.DeviceKey

namespace Supgang.Authority

set_option autoImplicit false
set_option linter.unusedSectionVars false

open Theory Supgang.Record

/-- Maximum size of the complete signed CBOR manifest. -/
def maxManifestBytes : Nat := 8192
/-- Maximum live certificates carried by one device. -/
def maxCertificates : Nat := 16
/-- Maximum revocation ids in one epoch. -/
def maxRevocations : Nat := 64
/-- Maximum ids remembered for lifetime non-reuse; exhaustion fails closed. -/
def maxUsedIds : Nat := 4096
/-- Maximum certificate lifetime in seconds. -/
def maxCertificateLifetime : UInt64 := 366 * 24 * 60 * 60
/-- Maximum interval to the next manifest update in seconds. -/
def maxUpdateInterval : UInt64 := 7 * 24 * 60 * 60
def possessionDomain : Bytes := utf8 "supgang/certified-key-possession/v1\x00"
def authorityDomain : Bytes := utf8 "supgang/authority/v1\x00"
def maxOperations : Nat := 16
def maxOperationBytes : Nat := 64

/-- A certificate or consumer instance identifier, generated randomly by its owner. -/
abbrev CertificateId := FixedBytes 16

/-- A rejected encoding, authority transition, or proof. -/
inductive AuthorityError where
  | version
  | bound
  | invalid
  | nonCanonical
  | unknownPurpose
  | scope
  | issuer
  | possession
  | reusedId
  | revocationRollback
  | older
  | equivocation
  | future
  | unavailable
  | storeConflict
  | key (error : DeviceKeyError)
  | service (error : RecordError)
  | decode (error : Cbor.DecodeError)
  | io
deriving DecidableEq, Repr

instance : Cbor.FromDecode AuthorityError := ⟨.decode⟩

/-- Closed authorization purposes. -/
inductive Purpose where
  | publish
  | service
  | transportClient
  | transportServer
  | attest
deriving DecidableEq, Repr

def Purpose.text : Purpose → String
  | .publish => "publish"
  | .service => "service"
  | .transportClient => "transport-client"
  | .transportServer => "transport-server"
  | .attest => "attest"

/-- A service name that has passed its check. -/
abbrev ServiceLabel := { name : String // ServiceName.new name = .ok name }

/-- A service claim whose name has passed its check. -/
abbrev NamedService := { service : ServiceAdvert // ServiceName.new service.name = .ok service.name }

section Types

variable [P256]

/-- A public key in one of the two implemented algorithms. -/
inductive SubjectKey where
  | p256 (key : DevicePublicKey)
  | ed25519 (key : FixedBytes 32)
deriving DecidableEq

/-- Exact audience schema for each purpose. -/
inductive Audience where
  | publish
  | service (name : ServiceLabel) (instance_ : CertificateId)
  | transportServer (name : ServiceLabel) (instance_ : CertificateId) (hostname : String)
  | transportClient (hive : HiveId) (node : Option NodeId)
  | attest (instance_ : CertificateId)
deriving DecidableEq

def Audience.purpose : Audience → Purpose
  | .publish => .publish
  | .service .. => .service
  | .transportServer .. => .transportServer
  | .transportClient .. => .transportClient
  | .attest .. => .attest

/-- Fields authenticated by the subject's enrollment possession proof. -/
structure CertifiedKeyClaims where
  hive : HiveId
  issuer : NodeId
  epoch : UInt64
  id : CertificateId
  subject : SubjectKey
  custody : SubjectCustody
  purpose : Purpose
  audience : Audience
  operations : List String
  notBefore : UInt64
  notAfter : UInt64
  policy : UInt16
deriving DecidableEq

/-- A statement authenticated only inside its device-signed authority manifest. -/
structure CertifiedKey where
  claims : CertifiedKeyClaims
  possession : FixedBytes 64
deriving DecidableEq

/-- Complete, sorted revocation set for one authority epoch. -/
structure CertifiedKeyRevocations where
  ids : List CertificateId
deriving DecidableEq, Repr

/-- Canonical content signed by the device, excluding signature bytes. -/
structure AuthorityContent where
  epoch : UInt64
  revision : UInt64
  issuedAt : UInt64
  nextUpdate : UInt64
  certificates : List CertifiedKey
  revocations : CertifiedKeyRevocations
  services : List NamedService
deriving DecidableEq

/-- A device-signed authority manifest. The source compares manifests by their content. -/
structure AuthorityManifest where
  content : AuthorityContent
  signature : DeviceSignature
deriving DecidableEq

/-! ## Writing -/

def subjectBytes : SubjectKey → Bytes
  | .p256 key => Cbor.text "p256" ++ Cbor.bytes key.bytes.1
  | .ed25519 key => Cbor.text "ed25519" ++ Cbor.bytes key.1

def custodyText : SubjectCustody → String
  | .hardware => "hardware"
  | .file => "file"
  | .synced => "synced"

def audienceBytes : Audience → Bytes
  | .publish => Cbor.array 1 ++ Cbor.text "publish"
  | .service name instance_ =>
    Cbor.array 3 ++ (Cbor.text "service" ++ (Cbor.text name.1 ++ Cbor.bytes instance_.1))
  | .transportServer name instance_ hostname =>
    Cbor.array 4 ++ (Cbor.text "transport-server" ++ (Cbor.text name.1 ++
      (Cbor.bytes instance_.1 ++ Cbor.text hostname)))
  | .transportClient hive node =>
    Cbor.array 3 ++ (Cbor.text "transport-client" ++ (Cbor.bytes hive.1 ++
      match node with
      | some node => Cbor.bytes node.1
      | none => Cbor.null))
  | .attest instance_ => Cbor.array 2 ++ (Cbor.text "attest" ++ Cbor.bytes instance_.1)

/-- `write_claims`: the eleven fields behind their array header. -/
def claimFields (claims : CertifiedKeyClaims) : Bytes :=
  Cbor.u8 1 ++ (Cbor.bytes claims.hive.1 ++ (Cbor.array 2 ++ (Cbor.bytes claims.issuer.1 ++
    (Cbor.u64 claims.epoch ++ (Cbor.bytes claims.id.1 ++ (Cbor.array 3 ++
    (subjectBytes claims.subject ++ (Cbor.text (custodyText claims.custody) ++
    (Cbor.text claims.purpose.text ++ (audienceBytes claims.audience ++
    (Cbor.array claims.operations.length ++ (claims.operations.flatMap Cbor.text ++
    (Cbor.u64 claims.notBefore ++ (Cbor.u64 claims.notAfter ++
    Cbor.u16 claims.policy))))))))))))))

def claimsBytes (claims : CertifiedKeyClaims) : Bytes := Cbor.array 11 ++ claimFields claims

def certificateBytes (certificate : CertifiedKey) : Bytes :=
  Cbor.array 12 ++ (claimFields certificate.claims ++ Cbor.bytes certificate.possession.1)

def idsBytes (ids : List CertificateId) : Bytes :=
  Cbor.array ids.length ++ ids.flatMap fun id => Cbor.bytes id.1

/-- The eight fields of a content behind their array header. -/
def contentFields (content : AuthorityContent) : Bytes :=
  Cbor.array 8 ++ (Cbor.u8 1 ++ (Cbor.u64 content.epoch ++ (Cbor.u64 content.revision ++
    (Cbor.u64 content.issuedAt ++ (Cbor.u64 content.nextUpdate ++
    (Cbor.array content.certificates.length ++ (content.certificates.flatMap certificateBytes ++
    (Cbor.array 2 ++ (Cbor.u8 1 ++ (idsBytes content.revocations.ids ++
    (Cbor.array content.services.length ++
      content.services.flatMap fun service => encodeService service.1)))))))))))

/-! ## Validation -/

def asciiGraphic (byte : UInt8) : Bool := 0x21 ≤ byte && byte ≤ 0x7e

def validLabel (label : Bytes) : Bool :=
  label ≠ [] && label.length ≤ 63 && label.head? ≠ some 0x2d && label.getLast? ≠ some 0x2d &&
    label.all fun byte => asciiLowercase byte || asciiDigit byte || byte == 0x2d

def validHostname (name : String) : Bool :=
  utf8 name ≠ [] && (utf8 name).length ≤ 253 && ((utf8 name).splitOn 0x2e).all validLabel

/-- An operation is one to sixty-four visible ASCII characters. -/
def validOperation (operation : String) : Bool :=
  utf8 operation ≠ [] && (utf8 operation).length ≤ maxOperationBytes &&
    (utf8 operation).all asciiGraphic

def CertifiedKeyRevocations.validate (revocations : CertifiedKeyRevocations) :
    Except AuthorityError Unit := do
  reject (maxRevocations < revocations.ids.length) AuthorityError.bound
  reject (¬revocations.ids.IsChain (· < ·)) AuthorityError.invalid

/-- Requires every prior revocation to remain in the new set. A binary search over a strictly
sorted vector is membership, here and below. -/
def CertifiedKeyRevocations.extends_ (revocations previous : CertifiedKeyRevocations) :
    Except AuthorityError Unit := do
  revocations.validate
  previous.validate
  reject (∃ id ∈ previous.ids, id ∉ revocations.ids) AuthorityError.revocationRollback

/-- The audience fits the hive, and names a hostname only as DNS has it. -/
def Audience.check (audience : Audience) (hive : HiveId) : Except AuthorityError Unit :=
  match audience with
  | .transportClient named _ => reject (named ≠ hive) AuthorityError.issuer
  | .transportServer _ _ hostname => reject (¬validHostname hostname) AuthorityError.scope
  | _ => .ok ()

variable [Ed25519]

def SubjectKey.check (subject : SubjectKey) : Except AuthorityError Unit :=
  match subject with
  | .p256 _ => .ok ()
  | .ed25519 key => do
      reject (¬Ed25519.wellFormed key) AuthorityError.invalid
      reject (Ed25519.isWeak key) AuthorityError.invalid

def CertifiedKeyClaims.validate (claims : CertifiedKeyClaims) : Except AuthorityError Unit := do
  reject (claims.policy ≠ 1) AuthorityError.version
  reject (claims.notAfter < claims.notBefore ∨
    maxCertificateLifetime < claims.notAfter - claims.notBefore) AuthorityError.invalid
  reject (claims.audience.purpose ≠ claims.purpose) AuthorityError.scope
  claims.audience.check claims.hive
  reject (maxOperations < claims.operations.length) AuthorityError.bound
  reject ((¬claims.operations.IsChain fun first second => utf8 first < utf8 second) ∨
    ∃ operation ∈ claims.operations, ¬validOperation operation) AuthorityError.invalid
  claims.subject.check

/-- Canonical possession payload, before any subject signature is attached. -/
def CertifiedKeyClaims.possessionPayload (claims : CertifiedKeyClaims) :
    Except AuthorityError Bytes := do
  claims.validate
  return claimsBytes claims

variable [Sha256]

/-- Verifies enrollment possession for precisely these claims. -/
def CertifiedKey.verifyPossession (certificate : CertifiedKey) : Except AuthorityError Unit := do
  let payload ← certificate.claims.possessionPayload
  match certificate.claims.subject with
  | .p256 key => do
      let signature ← (DeviceSignature.fromBytes certificate.possession.1).mapError fun _ =>
        AuthorityError.possession
      (key.verifyDomain possessionDomain payload signature).mapError fun _ =>
        AuthorityError.possession
  | .ed25519 key => do
      reject (¬Ed25519.wellFormed key) AuthorityError.possession
      reject (¬verifyDomain key possessionDomain payload certificate.possession)
        AuthorityError.possession

/-- One certificate of a manifest: proved, of its epoch and not revoked. -/
def AuthorityContent.checkCertificate (content : AuthorityContent) (certificate : CertifiedKey) :
    Except AuthorityError Unit := do
  certificate.verifyPossession
  reject (certificate.claims.epoch ≠ content.epoch) AuthorityError.issuer
  reject (certificate.claims.id ∈ content.revocations.ids) AuthorityError.reusedId

def AuthorityContent.validate (content : AuthorityContent) : Except AuthorityError Unit := do
  reject (content.revision = 0 ∨ content.nextUpdate < content.issuedAt ∨
    maxUpdateInterval < content.nextUpdate - content.issuedAt) AuthorityError.invalid
  reject (maxCertificates < content.certificates.length) AuthorityError.bound
  content.revocations.validate
  (validateServices (content.services.map (·.1))).mapError AuthorityError.service
  reject (¬content.certificates.IsChain fun first second => first.claims.id < second.claims.id)
    AuthorityError.reusedId
  content.certificates.forM content.checkCertificate

/-! ## Manifests -/

def contentBytes (content : AuthorityContent) : Except AuthorityError Bytes := do
  content.validate
  return contentFields content

/-- The signed envelope of a content. -/
def manifestEnvelope (content : Bytes) (signature : DeviceSignature) : Bytes :=
  Cbor.array 3 ++ (Cbor.u8 1 ++ (Cbor.bytes content ++ Cbor.bytes signature.bytes.1))

def AuthorityManifest.encode (manifest : AuthorityManifest) : Except AuthorityError Bytes := do
  let content ← contentBytes manifest.content
  let bytes := manifestEnvelope content manifest.signature
  reject (maxManifestBytes < bytes.length) AuthorityError.bound
  return bytes

/-- The P-256 node identity of an issuing device. -/
def deviceNodeId (key : DevicePublicKey) : NodeId := Sha256.digest key.identityBytes

/-- A certificate names its hive, its issuer and the epoch of its manifest. -/
def CertifiedKeyClaims.Names (claims : CertifiedKeyClaims) (hive : HiveId) (issuer : NodeId)
    (epoch : UInt64) : Prop :=
  claims.hive = hive ∧ claims.issuer = issuer ∧ claims.epoch = epoch

instance (claims : CertifiedKeyClaims) (hive : HiveId) (issuer : NodeId) (epoch : UInt64) :
    Decidable (claims.Names hive issuer epoch) := inferInstanceAs (Decidable (_ ∧ _ ∧ _))

/-- Verifies this manifest and every embedded certificate's issuer and hive. -/
def AuthorityManifest.verify (manifest : AuthorityManifest) (hive : HiveId)
    (key : DevicePublicKey) : Except AuthorityError Unit := do
  manifest.content.validate
  manifest.content.certificates.forM fun certificate =>
    reject (¬certificate.claims.Names hive (deviceNodeId key) manifest.content.epoch)
      AuthorityError.issuer
  let payload ← contentBytes manifest.content
  (key.verifyDomain authorityDomain payload manifest.signature).mapError AuthorityError.key
  let _ ← manifest.encode

/-! ## What the checks leave to know -/

/-- A content that has passed `validate`. -/
structure AuthorityContent.Valid (content : AuthorityContent) : Prop where
  revised : content.revision ≠ 0
  ordered : content.issuedAt ≤ content.nextUpdate
  interval : content.nextUpdate - content.issuedAt ≤ maxUpdateInterval
  certificates_le : content.certificates.length ≤ maxCertificates
  revocations_le : content.revocations.ids.length ≤ maxRevocations
  revocations_sorted : content.revocations.ids.IsChain (· < ·)
  services : validateServices (content.services.map (·.1)) = .ok ()
  certificates_sorted :
    content.certificates.IsChain fun first second => first.claims.id < second.claims.id
  proved : ∀ certificate ∈ content.certificates, certificate.verifyPossession = .ok ()
  epoch_eq : ∀ certificate ∈ content.certificates, certificate.claims.epoch = content.epoch
  unrevoked : ∀ certificate ∈ content.certificates,
    certificate.claims.id ∉ content.revocations.ids

variable {u : Unit} {content : AuthorityContent}

theorem CertifiedKeyRevocations.validate_eq_ok {revocations : CertifiedKeyRevocations} :
    revocations.validate = .ok u ↔
      revocations.ids.length ≤ maxRevocations ∧ revocations.ids.IsChain (· < ·) := by
  rw [CertifiedKeyRevocations.validate, reject_bind_eq_ok, reject_eq_ok, not_lt, not_not]

theorem checkCertificate_eq_ok {certificate : CertifiedKey} :
    content.checkCertificate certificate = .ok () ↔ certificate.verifyPossession = .ok () ∧
      certificate.claims.epoch = content.epoch ∧
      certificate.claims.id ∉ content.revocations.ids := by
  simp only [AuthorityContent.checkCertificate, ok_steps, exists_unit, not_not]

theorem validate_eq_ok :
    content.validate = .ok u ↔ content.Valid := by
  simp only [AuthorityContent.validate, ok_steps, exists_unit, not_or, not_lt, not_not, forM_eq_ok,
    checkCertificate_eq_ok, CertifiedKeyRevocations.validate_eq_ok]
  constructor
  · rintro ⟨⟨revised, ordered, interval⟩, length_le, ⟨ids_le, ids_sorted⟩, services, sorted, each⟩
    exact ⟨revised, ordered, interval, length_le, ids_le, ids_sorted, services, sorted,
      fun c hc => (each c hc).1, fun c hc => (each c hc).2.1, fun c hc => (each c hc).2.2⟩
  · intro valid
    exact ⟨⟨valid.revised, valid.ordered, valid.interval⟩, valid.certificates_le,
      ⟨valid.revocations_le, valid.revocations_sorted⟩, valid.services,
      valid.certificates_sorted, fun c hc =>
        ⟨valid.proved c hc, valid.epoch_eq c hc, valid.unrevoked c hc⟩⟩

theorem contentBytes_eq_ok {bytes : Bytes} :
    contentBytes content = .ok bytes ↔ content.Valid ∧ bytes = contentFields content := by
  simp only [contentBytes, ok_steps, exists_unit, validate_eq_ok]
  exact and_congr_right fun _ => eq_comm

/-- The bytes of a manifest. -/
def AuthorityManifest.bytes (manifest : AuthorityManifest) : Bytes :=
  manifestEnvelope (contentFields manifest.content) manifest.signature

theorem encode_eq_ok {manifest : AuthorityManifest} {bytes : Bytes} :
    manifest.encode = .ok bytes ↔ manifest.content.Valid ∧
      manifest.bytes.length ≤ maxManifestBytes ∧ bytes = manifest.bytes := by
  simp only [AuthorityManifest.encode, ok_steps, exists_unit, contentBytes_eq_ok, not_lt,
    ↓existsAndEq, and_true]
  exact and_congr_right fun _ => and_congr_right fun _ => eq_comm

/-- A manifest that has passed `verify`. -/
structure AuthorityManifest.Verified (manifest : AuthorityManifest) (hive : HiveId)
    (key : DevicePublicKey) : Prop where
  valid : manifest.content.Valid
  names : ∀ certificate ∈ manifest.content.certificates,
    certificate.claims.Names hive (deviceNodeId key) manifest.content.epoch
  signed : key.verifyDomain authorityDomain (contentFields manifest.content)
    manifest.signature = .ok ()
  fits : manifest.bytes.length ≤ maxManifestBytes

theorem verify_eq_ok {manifest : AuthorityManifest} {hive : HiveId} {key : DevicePublicKey} :
    manifest.verify hive key = .ok u ↔ manifest.Verified hive key := by
  simp only [AuthorityManifest.verify, ok_steps, exists_unit, validate_eq_ok, forM_eq_ok, not_not,
    contentBytes_eq_ok, encode_eq_ok, ↓existsAndEq, and_true]
  constructor
  · rintro ⟨valid, names, _, signed, _, fits⟩
    exact ⟨valid, names, signed, fits⟩
  · rintro ⟨valid, names, signed, fits⟩
    exact ⟨valid, names, valid, signed, valid, fits⟩

end Types

end Supgang.Authority
