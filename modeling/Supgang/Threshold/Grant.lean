/-
# Threshold.Grant — typed root grants and their revocations

`threshold/step/grant.rs`: the payloads of the grant operations. A grant enrolls one P-256 signer
for a consumer, with its possession proof; a revocation names a grant and the next serial. Only
owner-action grants can be encoded, so no other kind is ever decoded.

* `Grant.decode`, `Revocation.decode` — strict decoding: what was read is encoded again and
  compared.
-/
import Supgang.Threshold.Founding

namespace Supgang.Threshold

set_option autoImplicit false

open Theory

def rolePossessionDomain : Bytes := utf8 "supgang/role-possession/v1\x00"
def maxLifetime : UInt64 := 366 * 24 * 60 * 60
def maxOperations : Nat := 8

/-! ## Closed inventories -/

/-- A closed grant kind. Only owner-action policy is implemented. -/
inductive Grant.Kind where
  | ownerAction
  | release
  | codeSigning
deriving DecidableEq, Repr

def Grant.Kind.text : Grant.Kind → String
  | .ownerAction => "owner-action"
  | .release => "release"
  | .codeSigning => "code-signing"

def Grant.Kind.parse : String → Except Error Grant.Kind :=
  parseTag [.ownerAction, .release, .codeSigning] Grant.Kind.text

/-- Root-enrolled signer class. -/
inductive SignerRole where
  /-- A device credential, incapable of satisfying required presence. -/
  | device
  | ownerPresence
deriving DecidableEq, Repr

def SignerRole.text : SignerRole → String
  | .device => "device"
  | .ownerPresence => "owner-presence"

def SignerRole.parse : String → Except Error SignerRole :=
  parseTag [.device, .ownerPresence] SignerRole.text

/-- Whether a grant demands a fresh carried-device approval for each action. -/
inductive Presence where
  | required
  | policy
deriving DecidableEq, Repr

def Presence.text : Presence → String
  | .required => "required"
  | .policy => "policy"

def Presence.parse : String → Except Error Presence :=
  parseTag [.required, .policy] Presence.text

def custodyText : SubjectCustody → String
  | .hardware => "hardware"
  | .file => "file"
  | .synced => "synced"

def parseCustody : String → Except Error SubjectCustody :=
  parseTag [.hardware, .file, .synced] custodyText

/-! ## Grants -/

/-- Exact operation identifier and its fixed presence policy. -/
structure AllowedOperation where
  name : String
  presence : Presence
deriving DecidableEq, Repr

/-- Exact target scope; a hive-wide grant is an explicit choice. -/
inductive TargetScope where
  | node (node : NodeId)
  | hiveNodes (hive : HiveId)
deriving DecidableEq, Repr

/-- A hive-wide scope of another hive. -/
def TargetScope.foreign (hive : HiveId) : TargetScope → Bool
  | .hiveNodes named => named ≠ hive
  | .node _ => false

/-- The shape shared by operation names and consumer identifiers: nonempty, bounded, no dot or
hyphen at either end, no two dots in a row, every byte in the alphabet. -/
def validDotted (alphabet : UInt8 → Bool) (maximum : Nat) (value : String) : Bool :=
  let raw := utf8 value
  let edge (byte : Option UInt8) : Bool := byte = some 0x2e || byte = some 0x2d
  !raw.isEmpty && decide (raw.length ≤ maximum) && !edge raw.head? && !edge raw.getLast? &&
    raw.all alphabet && !decide ([0x2e, 0x2e] <:+: raw)

def asciiLowercase (byte : UInt8) : Bool := 0x61 ≤ byte && byte ≤ 0x7a
def asciiUppercase (byte : UInt8) : Bool := 0x41 ≤ byte && byte ≤ 0x5a
def asciiDigit (byte : UInt8) : Bool := 0x30 ≤ byte && byte ≤ 0x39

def validName (value : String) (maximum : Nat) : Bool :=
  validDotted (fun byte => asciiLowercase byte || asciiDigit byte || byte == 0x2e || byte == 0x2d)
    maximum value

def validConsumerId (value : String) : Bool :=
  validDotted (fun byte => asciiLowercase byte || asciiUppercase byte || asciiDigit byte ||
    byte == 0x2e || byte == 0x2d) 128 value

variable [Sha256] [P256]

/-- Canonical owner-action grant under a root step. -/
structure Grant where
  hive : HiveId
  /-- Random, never-reused grant identity. -/
  id : FixedBytes 16
  kind : Grant.Kind
  consumer : String
  signer : DevicePublicKey
  signerNode : NodeId
  signerRole : SignerRole
  signerCustody : SubjectCustody
  /-- Proof over the grant identity and the enrolled signer fields. -/
  possession : FixedBytes 64
  notBefore : UInt64
  notAfter : UInt64
  /-- Root-step predecessor bound into the payload. -/
  issuerHead : Digest
  /-- Predecessor's sequence. -/
  issuerSequence : UInt64
  target : TargetScope
  /-- Sorted, unique operations, at most eight. -/
  operations : List AllowedOperation
deriving DecidableEq

/-- Canonical bytes the grant's signer signs as possession proof. -/
def Grant.possessionMessage (grant : Grant) : Except Error Bytes := do
  reject (grant.kind ≠ .ownerAction ∨ grant.id = FixedBytes.replicate 16 0 ∨
    ¬validConsumerId grant.consumer) Error.invalid
  return Cbor.array 10 ++ (Cbor.unsigned 1 ++ (Cbor.bytes grant.hive.1 ++ (Cbor.bytes grant.id.1 ++
    (Cbor.text grant.kind.text ++ (Cbor.text grant.consumer ++ (Cbor.text "p256" ++
    (Cbor.bytes grant.signer.bytes.1 ++ (Cbor.bytes grant.signerNode.1 ++
    (Cbor.text grant.signerRole.text ++ Cbor.text (custodyText grant.signerCustody))))))))))

/-- Operation names strictly ascend from `previous`, and presence is demanded only of a signer that
can show it. -/
def validateOperations (role : SignerRole) : String → List AllowedOperation → Except Error Unit
  | _, [] => pure ()
  | previous, operation :: rest => do
      reject (¬validName operation.name 64 ∨ utf8 operation.name ≤ utf8 previous ∨
        (operation.presence = .required ∧ role ≠ .ownerPresence)) Error.invalid
      validateOperations role operation.name rest

def Grant.validate (grant : Grant) : Except Error Unit := do
  reject (grant.notAfter ≤ grant.notBefore ∨ maxLifetime < grant.notAfter - grant.notBefore ∨
      grant.operations = [] ∨ maxOperations < grant.operations.length ∨
      grant.target.foreign grant.hive) Error.bound
  reject (grant.signerRole = .ownerPresence ∧ grant.signerCustody ≠ .hardware) Error.authority
  validateOperations grant.signerRole "" grant.operations
  let proof ← (DeviceSignature.fromBytes grant.possession.1).mapError fun _ => Error.proof
  let message ← grant.possessionMessage
  (grant.signer.verifyDomain rolePossessionDomain message proof).mapError fun _ => Error.proof

def targetBytes : TargetScope → Bytes
  | .node node => Cbor.array 2 ++ (Cbor.text "node" ++ Cbor.bytes node.1)
  | .hiveNodes hive => Cbor.array 2 ++ (Cbor.text "hive-nodes" ++ Cbor.bytes hive.1)

def operationBytes (operation : AllowedOperation) : Bytes :=
  Cbor.array 2 ++ (Cbor.text operation.name ++ Cbor.text operation.presence.text)

def Grant.bytes (grant : Grant) : Bytes :=
  Cbor.array 12 ++ (Cbor.unsigned 1 ++ (Cbor.bytes grant.hive.1 ++ (Cbor.bytes grant.id.1 ++
    (Cbor.text grant.kind.text ++ (Cbor.text grant.consumer ++ (Cbor.array 1 ++ (Cbor.array 6 ++
    (Cbor.text "p256" ++ (Cbor.bytes grant.signer.bytes.1 ++ (Cbor.bytes grant.signerNode.1 ++
    (Cbor.text grant.signerRole.text ++ (Cbor.text (custodyText grant.signerCustody) ++
    (Cbor.bytes grant.possession.1 ++ (Cbor.unsigned 1 ++ (Cbor.u64 grant.notBefore ++
    (Cbor.u64 grant.notAfter ++ (Cbor.bytes grant.issuerHead.1 ++ (Cbor.u64 grant.issuerSequence ++
    (Cbor.array 2 ++ (targetBytes grant.target ++ (Cbor.array grant.operations.length ++
    grant.operations.flatMap operationBytes)))))))))))))))))))))

def Grant.encode (grant : Grant) : Except Error Bytes := do
  grant.validate
  return grant.bytes

def readTarget : Cbor.Reader Error TargetScope := do
  array 2
  let tag ← Cbor.readText
  let target ← fixed 32
  match tag with
  | "node" => pure (.node target)
  | "hive-nodes" => pure (.hiveNodes target)
  | _ => throw Error.invalid

def readOperation : Cbor.Reader Error AllowedOperation := do
  array 2
  let name ← Cbor.readText
  let tag ← Cbor.readText
  let presence ← ofExcept (Presence.parse tag)
  return { name, presence }

/-- The one enrolled signer of a grant. -/
def readSigner : Cbor.Reader Error (DevicePublicKey × NodeId × SignerRole × SubjectCustody ×
    FixedBytes 64) := do
  array 1
  array 6
  let algorithm ← Cbor.readText
  reject (algorithm ≠ "p256") Error.invalid
  let raw ← Cbor.readBytes
  let signer ← ofExcept ((DevicePublicKey.fromBytes raw).mapError fun _ => Error.invalid)
  let node ← fixed 32
  let roleTag ← Cbor.readText
  let role ← ofExcept (SignerRole.parse roleTag)
  let custodyTag ← Cbor.readText
  let custody ← ofExcept (parseCustody custodyTag)
  let possession ← fixed 64
  return (signer, node, role, custody, possession)

def readGrant : Cbor.Reader Error Grant := do
  array 12
  version
  let hive ← fixed 32
  let id ← fixed 16
  let kindTag ← Cbor.readText
  let kind ← ofExcept (Grant.Kind.parse kindTag)
  let consumer ← Cbor.readText
  let (signer, signerNode, signerRole, signerCustody, possession) ← readSigner
  -- The signing threshold of the grant: one signer.
  version
  let notBefore ← Cbor.readU64
  let notAfter ← Cbor.readU64
  let issuerHead ← fixed 32
  let issuerSequence ← Cbor.readU64
  array 2
  let target ← readTarget
  let length ← count maxOperations
  let operations ← Cbor.readMany readOperation length
  return { hive, id, kind, consumer, signer, signerNode, signerRole, signerCustody, possession,
           notBefore, notAfter, issuerHead, issuerSequence, target, operations }

def Grant.decode (input : Bytes) : Except Error Grant := do
  reject (12 * 1024 < input.length) Error.bound
  let (grant, _) ← readGrant.run input
  let encoded ← grant.encode
  canonical input encoded
  return grant

/-! ## Revocations -/

/-- Typed, independently sequenced revocation of one grant identity. -/
structure Revocation where
  hive : HiveId
  id : FixedBytes 16
  kind : Grant.Kind
  /-- Monotonic grant-and-role revocation serial. -/
  serial : UInt64
  issuerHead : Digest
  issuerSequence : UInt64
deriving DecidableEq, Repr

def Revocation.encode (revocation : Revocation) : Except Error Bytes := do
  reject (revocation.id = FixedBytes.replicate 16 0 ∨ revocation.serial = 0 ∨
    revocation.kind ≠ .ownerAction) Error.invalid
  return Cbor.array 7 ++ (Cbor.unsigned 1 ++ (Cbor.bytes revocation.hive.1 ++
    (Cbor.bytes revocation.id.1 ++ (Cbor.text revocation.kind.text ++
    (Cbor.u64 revocation.serial ++ (Cbor.bytes revocation.issuerHead.1 ++
    Cbor.u64 revocation.issuerSequence))))))

def readRevocation : Cbor.Reader Error Revocation := do
  array 7
  version
  let hive ← fixed 32
  let id ← fixed 16
  let kindTag ← Cbor.readText
  let kind ← ofExcept (Grant.Kind.parse kindTag)
  let serial ← Cbor.readU64
  let issuerHead ← fixed 32
  let issuerSequence ← Cbor.readU64
  return { hive, id, kind, serial, issuerHead, issuerSequence }

def Revocation.decode (input : Bytes) : Except Error Revocation := do
  reject (256 < input.length) Error.bound
  let (revocation, _) ← readRevocation.run input
  let encoded ← revocation.encode
  canonical input encoded
  return revocation

end Supgang.Threshold
