/-
# Threshold.OwnerAction — challenges and the assertions that answer them

`threshold/owner_action.rs`: a target issues a challenge for one operation; an owner's device asserts
it, over the digests of the request and of the challenge.

* `Challenge.encode`, `Challenge.decode`, `Assertion.encode`, `Assertion.decode` — the codecs.
-/
import Supgang.Threshold.Grant

namespace Supgang.Threshold

set_option autoImplicit false

open Theory

def maxRemapAssertionAge : UInt64 := 5 * 60
def maxRequestBytes : Nat := 4 * 1024

/-! ## Challenges -/

/-- Exact challenge produced and retained by the target's consumer helper. -/
structure Challenge where
  target : NodeId
  consumer : String
  operation : String
  /-- Grant selected by the target. -/
  grantId : FixedBytes 16
  /-- Consumer-defined canonical arguments and target-observed preconditions. -/
  request : Bytes
  /-- Random, one-use target nonce. -/
  nonce : FixedBytes 16
  /-- Last second for redemption. -/
  expiresAt : UInt64
deriving DecidableEq, Repr

def Challenge.bytes (challenge : Challenge) : Bytes :=
  Cbor.array 8 ++ (Cbor.unsigned 1 ++ (Cbor.bytes challenge.target.1 ++
    (Cbor.text challenge.consumer ++ (Cbor.text challenge.operation ++
    (Cbor.bytes challenge.grantId.1 ++ (Cbor.bytes challenge.request ++
    (Cbor.bytes challenge.nonce.1 ++ Cbor.u64 challenge.expiresAt)))))))

def Challenge.encode (challenge : Challenge) : Except Error Bytes := do
  reject (challenge.request = [] ∨ maxRequestBytes < challenge.request.length ∨
    96 < (utf8 challenge.consumer).length ∨ 64 < (utf8 challenge.operation).length ∨
    challenge.consumer = "" ∨ challenge.operation = "" ∨
    challenge.nonce = FixedBytes.replicate 16 0) Error.bound
  return challenge.bytes

def readChallenge : Cbor.Reader Error Challenge := do
  array 8
  version
  let target ← fixed 32
  let consumer ← Cbor.readText
  let operation ← Cbor.readText
  let grantId ← fixed 16
  let request ← Cbor.readBytes
  let nonce ← fixed 16
  let expiresAt ← Cbor.readU64
  return { target, consumer, operation, grantId, request, nonce, expiresAt }

def Challenge.decode (input : Bytes) : Except Error Challenge := do
  reject (maxRequestBytes + 256 < input.length) Error.bound
  let (challenge, _) ← readChallenge.run input
  let encoded ← challenge.encode
  canonical input encoded
  return challenge

/-! ## Assertions -/

section Assertions

variable [P256]

/-- One owner assertion over an arbitrary canonical consumer request. -/
structure Assertion where
  hive : HiveId
  /-- Grant-named signer device. -/
  signerNode : NodeId
  /-- Grant-named public key. -/
  signerKey : DevicePublicKey
  grantId : FixedBytes 16
  target : NodeId
  consumer : String
  operation : String
  /-- Digest of canonical consumer request bytes. -/
  requestDigest : Digest
  /-- Digest of the target-issued challenge. -/
  challengeDigest : Digest
  /-- Target-issued one-use nonce. -/
  nonce : FixedBytes 16
  issuedAt : UInt64
  /-- Last second for execution. -/
  expiresAt : UInt64
  /-- Strict low-S signature over the payload. -/
  signature : FixedBytes 64
deriving DecidableEq

def Assertion.payloadBytes (assertion : Assertion) : Bytes :=
  Cbor.array 13 ++ (Cbor.unsigned 1 ++ (Cbor.text "p256" ++ (Cbor.bytes assertion.hive.1 ++
    (Cbor.array 3 ++ (Cbor.text "owner-presence" ++ (Cbor.bytes assertion.signerNode.1 ++
    (Cbor.bytes assertion.signerKey.bytes.1 ++ (Cbor.bytes assertion.grantId.1 ++
    (Cbor.bytes assertion.target.1 ++ (Cbor.text assertion.consumer ++
    (Cbor.text assertion.operation ++ (Cbor.bytes assertion.requestDigest.1 ++
    (Cbor.bytes assertion.challengeDigest.1 ++ (Cbor.bytes assertion.nonce.1 ++
    (Cbor.u64 assertion.issuedAt ++ Cbor.u64 assertion.expiresAt)))))))))))))))

/-- Canonical signed payload, independent of the signature envelope. -/
def Assertion.payload (assertion : Assertion) : Except Error Bytes := do
  reject (assertion.consumer = "" ∨ 96 < (utf8 assertion.consumer).length ∨
    assertion.operation = "" ∨ 64 < (utf8 assertion.operation).length ∨
    assertion.expiresAt ≤ assertion.issuedAt ∨
    maxRemapAssertionAge < assertion.expiresAt - assertion.issuedAt ∨
    assertion.nonce = FixedBytes.replicate 16 0) Error.bound
  return assertion.payloadBytes

def Assertion.encode (assertion : Assertion) : Except Error Bytes := do
  let _ ← (DeviceSignature.fromBytes assertion.signature.1).mapError fun _ => Error.proof
  let payload ← assertion.payload
  return Cbor.array 3 ++ (Cbor.unsigned 1 ++ (Cbor.bytes payload ++
    Cbor.bytes assertion.signature.1))

/-- The payload's bytes and the signature of an envelope. -/
def readEnvelope : Cbor.Reader Error (Bytes × FixedBytes 64) := do
  array 3
  version
  let payload ← Cbor.readBytes
  let signature ← fixed 64
  return (payload, signature)

def readPayload (signature : FixedBytes 64) : Cbor.Reader Error Assertion := do
  array 13
  version
  let algorithm ← Cbor.readText
  reject (algorithm ≠ "p256") Error.invalid
  let hive ← fixed 32
  array 3
  let role ← Cbor.readText
  reject (role ≠ "owner-presence") Error.invalid
  let signerNode ← fixed 32
  let raw ← Cbor.readBytes
  let signerKey ← ofExcept ((DevicePublicKey.fromBytes raw).mapError fun _ => Error.invalid)
  let grantId ← fixed 16
  let target ← fixed 32
  let consumer ← Cbor.readText
  let operation ← Cbor.readText
  let requestDigest ← fixed 32
  let challengeDigest ← fixed 32
  let nonce ← fixed 16
  let issuedAt ← Cbor.readU64
  let expiresAt ← Cbor.readU64
  return { hive, signerNode, signerKey, grantId, target, consumer, operation, requestDigest,
           challengeDigest, nonce, issuedAt, expiresAt, signature }

def Assertion.decode (input : Bytes) : Except Error Assertion := do
  reject (1024 < input.length) Error.bound
  let ((payload, signature), _) ← readEnvelope.run input
  let (assertion, _) ← (readPayload signature).run payload
  let again ← assertion.payload
  canonical payload again
  let encoded ← assertion.encode
  canonical input encoded
  return assertion

end Assertions

end Supgang.Threshold
