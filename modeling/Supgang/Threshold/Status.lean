/-
# Threshold.Status — the root's short-lived status

`threshold/status.rs`: which grants and members are active at one root head, under a renewal policy
and with the counts of its mode.

* `Status.encode`, `Status.decode`, `SignedStatus.encode`, `SignedStatus.decode` — the codecs.
-/
import Supgang.Threshold.Renewal

namespace Supgang.Threshold.RootStatus

set_option autoImplicit false

open Theory Renewal

/-- Fixed protocol ceiling; a consumer or owner policy can require less. -/
def maxStatusAge : UInt64 := 7 * 24 * 60 * 60
/-- Maximum active grant and member entries in one authenticated snapshot. -/
def maxActiveEntries : Nat := 256
def maxStatusBytes : Nat := 16 * 1024
def maxSignedStatusBytes : Nat := maxStatusBytes + 128

def modeText : Mode → String
  | .initial => "initial"
  | .policy => "policy"
  | .presence => "presence"

def parseMode : String → Except Error Mode :=
  parseTag [.initial, .policy, .presence] modeText

/-- Root-authorized status at one exact chain head. -/
structure Status where
  hive : HiveId
  /-- Root-chain head known to the issuer. -/
  rootHead : Digest
  /-- Member revocation snapshot serial. -/
  memberSerial : UInt64
  /-- Shared grant-and-role revocation serial. -/
  grantSerial : UInt64
  /-- Sorted active grant and role identities at this exact root head. -/
  activeGrants : List (FixedBytes 16)
  /-- Sorted active member devices at this exact root head. -/
  activeMembers : List NodeId
  issuedAt : UInt64
  /-- Last second at which this status can be used. -/
  expiresAt : UInt64
  /-- Domain-separated identity of the exact root-signed renewal policy. -/
  policyDigest : Digest
  budgetId : FixedBytes 16
  /-- Physical recertification epoch. -/
  epoch : UInt64
  mode : Mode
  /-- Cumulative counts under the policy's three independent caps. -/
  counts : Counts
deriving DecidableEq

def Status.checkActiveSets (status : Status) : Except Error Unit :=
  reject (maxActiveEntries < status.activeGrants.length ∨
    maxActiveEntries < status.activeMembers.length ∨ ¬status.activeGrants.IsChain (· < ·) ∨
    ¬status.activeMembers.IsChain (· < ·)) Error.bound

/-- The fields of a lease behind the active sets. -/
def Status.leaseBytes (status : Status) : Bytes :=
  Cbor.u64 status.issuedAt ++ (Cbor.u64 status.expiresAt ++ (Cbor.bytes status.policyDigest.1 ++
    (Cbor.bytes status.budgetId.1 ++ (Cbor.u64 status.epoch ++ (Cbor.text (modeText status.mode) ++
    (Cbor.u64 status.counts.policy ++ (Cbor.u64 status.counts.presence ++
    Cbor.u64 status.counts.total)))))))

def Status.bytes (status : Status) : Bytes :=
  Cbor.array 16 ++ (Cbor.unsigned 1 ++ (Cbor.bytes status.hive.1 ++ (Cbor.bytes status.rootHead.1 ++
    (Cbor.u64 status.memberSerial ++ (Cbor.u64 status.grantSerial ++
    (Cbor.array status.activeGrants.length ++
    ((status.activeGrants.flatMap fun id => Cbor.bytes id.1) ++
    (Cbor.array status.activeMembers.length ++
    ((status.activeMembers.flatMap fun node => Cbor.bytes node.1) ++ status.leaseBytes)))))))))

def Status.encode (status : Status) : Except Error Bytes := do
  reject (status.expiresAt ≤ status.issuedAt ∨ maxStatusAge < status.expiresAt - status.issuedAt)
    Error.bound
  status.checkActiveSets
  reject (maxStatusBytes < status.bytes.length) Error.bound
  return status.bytes

def readStatus : Cbor.Reader Error Status := do
  array 16
  version
  let hive ← fixed 32
  let rootHead ← fixed 32
  let memberSerial ← Cbor.readU64
  let grantSerial ← Cbor.readU64
  let grants ← count maxActiveEntries
  let activeGrants ← Cbor.readMany (fixed 16) grants
  let members ← count maxActiveEntries
  let activeMembers ← Cbor.readMany (fixed 32) members
  let issuedAt ← Cbor.readU64
  let expiresAt ← Cbor.readU64
  let policyDigest ← fixed 32
  let budgetId ← fixed 16
  let epoch ← Cbor.readU64
  let tag ← Cbor.readText
  let mode ← ofExcept (parseMode tag)
  let policy ← Cbor.readU64
  let presence ← Cbor.readU64
  let total ← Cbor.readU64
  return { hive, rootHead, memberSerial, grantSerial, activeGrants, activeMembers, issuedAt,
           expiresAt, policyDigest, budgetId, epoch, mode, counts := ⟨policy, presence, total⟩ }

def Status.decode (input : Bytes) : Except Error Status := do
  reject (maxStatusBytes < input.length) Error.bound
  let (status, _) ← readStatus.run input
  let encoded ← status.encode
  canonical input encoded
  return status

/-- Canonical status content plus an ordinary root signature. -/
structure SignedStatus where
  status : Status
  signature : FixedBytes 64
deriving DecidableEq

def SignedStatus.bytes (status signature : Bytes) : Bytes :=
  Cbor.array 3 ++ (Cbor.unsigned 1 ++ (Cbor.bytes status ++ Cbor.bytes signature))

def SignedStatus.encode (signed : SignedStatus) : Except Error Bytes := do
  let status ← signed.status.encode
  reject (maxSignedStatusBytes < (bytes status signed.signature.1).length) Error.bound
  return bytes status signed.signature.1

def readSignedStatus : Cbor.Reader Error SignedStatus := do
  array 3
  version
  let raw ← Cbor.readBytes
  let status ← ofExcept (Status.decode raw)
  let signature ← fixed 64
  return { status, signature }

def SignedStatus.decode (input : Bytes) : Except Error SignedStatus := do
  reject (maxSignedStatusBytes < input.length) Error.bound
  let (signed, _) ← readSignedStatus.run input
  let encoded ← signed.encode
  canonical input encoded
  return signed

end Supgang.Threshold.RootStatus
