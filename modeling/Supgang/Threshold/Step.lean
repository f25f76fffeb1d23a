/-
# Threshold.Step — canonical root steps and succession payloads

`threshold/step.rs` and `threshold/regroup.rs`. A root step names its predecessor by content digest,
so steps form chains; its identity is the hash of its canonical encoding, independent of any
signature. A succession payload carries the next group, the recovery descriptor in force afterwards
and the proofs that both new groups hold their keys.

* `encode_injective` — the canonical encoding determines the step.
* `digest_inj` — where SHA-256 does not collide, so does the digest.
* `digest_ne_founding` — no step has the founding digest.
-/
import Supgang.Threshold.Grant

namespace Supgang.Threshold

set_option autoImplicit false

open Theory

/-- Domain prepended to canonical step bytes for signing. -/
def stepDomain : Bytes := utf8 "supgang/root-step/v1\x00"

/-- Closed operation inventory. -/
inductive Operation where
  | issueMembership
  | revoke
  | trustAnchor
  | allocateName
  | issueLeaf
  /-- Reserved, refused until a separate reshare protocol exists. -/
  | reshare
  /-- Planned or recovery root rotation. -/
  | succession
  /-- Reserved as a standalone operation; changes occur inside recovery only. -/
  | setRecoveryGroup
  | admitRoster
  | grant
  | revokeGrant
deriving DecidableEq, Repr

def Operation.text : Operation → String
  | .issueMembership => "issue-membership"
  | .revoke => "revoke"
  | .trustAnchor => "trust-anchor"
  | .allocateName => "allocate-name"
  | .issueLeaf => "issue-leaf"
  | .reshare => "reshare"
  | .succession => "succession"
  | .setRecoveryGroup => "set-recovery-group"
  | .admitRoster => "admit-roster"
  | .grant => "grant"
  | .revokeGrant => "revoke-grant"

def Operation.parse : String → Except Error Operation :=
  parseTag [.issueMembership, .revoke, .trustAnchor, .allocateName, .issueLeaf, .reshare,
    .succession, .setRecoveryGroup, .admitRoster, .grant, .revokeGrant] Operation.text

theorem Operation.parse_text (operation : Operation) :
    Operation.parse operation.text = .ok operation := by
  cases operation <;> decide

theorem Operation.text_length_le (operation : Operation) : (utf8 operation.text).length ≤ 18 := by
  cases operation <;> decide

/-- All fields of a root step; its identity is its canonical content, not a signature. -/
structure RootStep where
  hive : HiveId
  /-- Prior content digest or founding digest. -/
  predecessor : Digest
  /-- Predecessor sequence plus one; the founding sequence is zero. -/
  sequence : UInt64
  /-- Authorizing root epoch; a succession's successor uses epoch plus one. -/
  epoch : UInt64
  /-- Recovery generation; only recovery may advance it. -/
  recoveryGen : UInt64
  operation : Operation
  /-- Operation-specific bytes, at most 12 KiB. -/
  payload : Bytes
  proposedAt : UInt64
  proposer : NodeId
deriving DecidableEq, Repr

/-! ## Encoding -/

/-- The canonical array of a step, without the checks of `RootStep.encode`. -/
def stepBytes (step : RootStep) : Bytes :=
  Cbor.array 10 ++ (Cbor.unsigned 1 ++ (Cbor.bytes step.hive.1 ++ (Cbor.bytes step.predecessor.1 ++
    (Cbor.u64 step.sequence ++ (Cbor.u64 step.epoch ++ (Cbor.u64 step.recoveryGen ++
    (Cbor.text step.operation.text ++ (Cbor.bytes step.payload ++ (Cbor.u64 step.proposedAt ++
    Cbor.bytes step.proposer.1)))))))))

/-- The envelope fields a grant payload repeats are those of its step. -/
def issuedUnder (step : RootStep) (hive : HiveId) (head : Digest) (sequence : UInt64) :
    Except Error Unit := do
  reject (hive ≠ step.hive) Error.authority
  reject (head ≠ step.predecessor) Error.authority
  reject (sequence ≠ saturatingSub step.sequence 1) Error.authority

variable [Sha256] [P256]

/-- Checks a grant payload against the step that carries it. -/
def validateStep (step : RootStep) : Except Error Unit :=
  match step.operation with
  | .grant => do
      let grant ← Grant.decode step.payload
      issuedUnder step grant.hive grant.issuerHead grant.issuerSequence
  | .revokeGrant => do
      let revoke ← Revocation.decode step.payload
      issuedUnder step revoke.hive revoke.issuerHead revoke.issuerSequence
  | _ => pure ()

def RootStep.encode (step : RootStep) : Except Error Bytes := do
  reject (step.sequence = 0 ∨ 12 * 1024 < step.payload.length) Error.bound
  validateStep step
  reject (maxStepBytes < (stepBytes step).length) Error.bound
  return stepBytes step

def readStep : Cbor.Reader Error RootStep := do
  array 10
  version
  let hive ← fixed 32
  let predecessor ← fixed 32
  let sequence ← Cbor.readU64
  let epoch ← Cbor.readU64
  let recoveryGen ← Cbor.readU64
  let tag ← Cbor.readText
  let operation ← ofExcept (Operation.parse tag)
  let payload ← Cbor.readBytes
  let proposedAt ← Cbor.readU64
  let proposer ← fixed 32
  return { hive, predecessor, sequence, epoch, recoveryGen, operation, payload, proposedAt,
           proposer }

def RootStep.decode (input : Bytes) : Except Error RootStep := do
  reject (maxStepBytes < input.length) Error.bound
  let (step, _) ← readStep.run input
  let encoded ← step.encode
  canonical input encoded
  return step

/-- SHA-256 of canonical content, excluding signature and domain prefix. -/
def RootStep.digest (step : RootStep) : Except Error Digest := do
  let encoded ← step.encode
  return Sha256.digest encoded

/-- Exact signing message: domain followed by the whole canonical step. -/
def RootStep.message (step : RootStep) : Except Error Bytes := do
  let encoded ← step.encode
  return stepDomain ++ encoded

/-- Root step with an ordinary Ed25519 aggregate signature. -/
structure SignedStep where
  step : RootStep
  signature : Signature
deriving DecidableEq, Repr

variable [Ed25519]

/-- Strict Ed25519 verification: refuses malformed and weak keys. -/
def SignedStep.verify (signed : SignedStep) (publicKey : VerifyingKey) : Except Error Unit := do
  reject (¬Ed25519.wellFormed publicKey) Error.proof
  reject (Ed25519.isWeak publicKey) Error.proof
  let message ← signed.step.message
  reject (¬Ed25519.verifyStrict publicKey message signed.signature) Error.proof

/-! ## Succession payloads -/

variable [Frost]

/-- Authority under which a root succession occurs. -/
inductive Succession.Kind where
  /-- Current root signs and preserves recovery authority. -/
  | planned
  /-- Independent recovery group signs, advances recovery generation, retains nothing. -/
  | recovery
deriving DecidableEq, Repr

/-- Exact public transition payload, including successor possession. -/
structure Succession where
  kind : Succession.Kind
  /-- Retired root key at the named predecessor. -/
  previousKey : VerifyingKey
  successor : GroupDescriptor
  /-- Frozen retained-set digest; recovery requires the empty-set digest. -/
  retained : Digest
  /-- Recovery descriptor in force afterward. -/
  recovery : RecoveryDescriptor
  /-- Successor signature over the same step with possession slots zeroed. -/
  possession : Signature
  /-- New recovery group's possession, required only on a descriptor change. -/
  recoveryPossession : Signature
deriving DecidableEq

def Succession.Kind.text : Succession.Kind → String
  | .planned => "planned"
  | .recovery => "recovery"

def Succession.Kind.parse : String → Except Error Succession.Kind :=
  parseTag [.planned, .recovery] Succession.Kind.text

def Succession.encode (transition : Succession) : Except Error Bytes := do
  let successor ← transition.successor.encode
  let successorDigest ← transition.successor.digest
  let recovery ← transition.recovery.encode
  let recoveryDigest ← transition.recovery.digest
  return Cbor.array 10 ++ (Cbor.unsigned 1 ++ (Cbor.text transition.kind.text ++
    (Cbor.bytes transition.previousKey.1 ++ (Cbor.bytes successor ++
    (Cbor.bytes successorDigest.1 ++ (Cbor.bytes transition.retained.1 ++ (Cbor.bytes recovery ++
    (Cbor.bytes recoveryDigest.1 ++ (Cbor.bytes transition.possession.1 ++
    Cbor.bytes transition.recoveryPossession.1)))))))))

/-- A descriptor's bytes followed by its digest, which must agree. -/
def readBound {α : Type} (decode : Bytes → Except Error α) (digest : α → Except Error Digest) :
    Cbor.Reader Error α := do
  let raw ← Cbor.readBytes
  let value ← ofExcept (decode raw)
  let found ← fixed 32
  let expected ← ofExcept (digest value)
  reject (found ≠ expected) Error.proof
  return value

def readSuccession : Cbor.Reader Error Succession := do
  array 10
  version
  let tag ← Cbor.readText
  let kind ← ofExcept (Succession.Kind.parse tag)
  let previousKey ← fixed 32
  let successor ← readBound GroupDescriptor.decode GroupDescriptor.digest
  let retained ← fixed 32
  let recovery ← readBound RecoveryDescriptor.decode RecoveryDescriptor.digest
  let possession ← fixed 64
  let recoveryPossession ← fixed 64
  return { kind, previousKey, successor, retained, recovery, possession, recoveryPossession }

def Succession.decode (input : Bytes) : Except Error Succession := do
  reject (12 * 1024 < input.length) Error.bound
  let (transition, _) ← readSuccession.run input
  let encoded ← transition.encode
  canonical input encoded
  return transition

def emptySignature : Signature := FixedBytes.replicate 64 0

/-- Step that the new root and, when changed, the new recovery group must sign. -/
def Succession.possessionStep (transition : Succession) (step : RootStep) :
    Except Error RootStep := do
  reject (step.operation ≠ .succession) Error.invalid
  let payload ← Succession.encode
    { transition with possession := emptySignature, recoveryPossession := emptySignature }
  return { step with payload }

/-- The recovery slot: a proof by the new recovery group, or nothing where it does not change. -/
def Succession.verifyRecoveryPossession (transition : Succession) (possessionStep : RootStep)
    (recoveryChanged : Bool) : Except Error Unit :=
  if recoveryChanged then
    SignedStep.verify ⟨possessionStep, transition.recoveryPossession⟩
      transition.recovery.group.publicKey
  else reject (transition.recoveryPossession ≠ emptySignature) Error.invalid

def Succession.verifyPossession (transition : Succession) (step : RootStep)
    (recoveryChanged : Bool) : Except Error Unit := do
  let possessionStep ← transition.possessionStep step
  SignedStep.verify ⟨possessionStep, transition.possession⟩ transition.successor.publicKey
  transition.verifyRecoveryPossession possessionStep recoveryChanged

/-- Identity of the canonical empty retained set, required for every recovery. -/
def emptyRetainedDigest : Digest := Sha256.digest [0x80]

/-! ## The encoding determines the step -/

section Identity

omit [Ed25519] [Frost]

variable {step : RootStep}

variable {bytes : Bytes} {digest : Digest} {first second : RootStep}

theorem encode_eq_ok (h : step.encode = .ok bytes) :
    bytes = stepBytes step ∧ step.sequence ≠ 0 ∧ step.payload.length ≤ 12 * 1024 := by
  simp only [RootStep.encode, ok_steps] at h
  obtain ⟨_, hfields, _, -, _, -, rfl⟩ := h
  rw [not_or, not_lt] at hfields
  exact ⟨rfl, hfields⟩

theorem digest_eq_ok :
    step.digest = .ok digest ↔ ∃ bytes, step.encode = .ok bytes ∧ Sha256.digest bytes = digest := by
  simp only [RootStep.digest, ok_steps]

omit [Sha256] [P256] in
theorem readStep_run (fits : step.payload.length < 2 ^ 64) (rest : Bytes) :
    readStep.run (stepBytes step ++ rest) = .ok (step, rest) := by
  have htext := step.operation.text_length_le
  simp (disch := omega) only [stepBytes, readStep, List.append_assoc, array, fixed,
    Cbor.bind_reads, bind_version, Operation.parse_text]
  rfl

/-- **One encoding for each step.** Steps with one encoding are equal. -/
theorem encode_injective (hfirst : first.encode = .ok bytes) (hsecond : second.encode = .ok bytes) :
    first = second := by
  obtain ⟨rfl, -, firstFits⟩ := encode_eq_ok hfirst
  obtain ⟨same, -, secondFits⟩ := encode_eq_ok hsecond
  have firstRun : readStep.run (stepBytes first ++ []) = .ok (first, []) :=
    readStep_run (by omega) []
  have secondRun : readStep.run (stepBytes second ++ []) = .ok (second, []) :=
    readStep_run (by omega) []
  rw [same, secondRun] at firstRun
  cases firstRun
  rfl

/-- Where the hash does not collide, a digest names one step. -/
theorem digest_inj {seen : Set Bytes} (free : CollisionFree seen)
    (firstSeen : ∀ bytes, first.encode = .ok bytes → bytes ∈ seen)
    (secondSeen : ∀ bytes, second.encode = .ok bytes → bytes ∈ seen)
    (hfirst : first.digest = .ok digest) (hsecond : second.digest = .ok digest) :
    first = second := by
  obtain ⟨bytes, encoded, hash⟩ := digest_eq_ok.mp hfirst
  obtain ⟨other, encoded', hash'⟩ := digest_eq_ok.mp hsecond
  have same : bytes = other :=
    free (firstSeen bytes encoded) (secondSeen other encoded') (hash.trans hash'.symm)
  subst same
  exact encode_injective encoded encoded'

end Identity

/-- No step has the founding digest: the two are hashes of arrays of different lengths. -/
theorem digest_ne_founding {seen : Set Bytes} (free : CollisionFree seen) {step : RootStep}
    {digest : Digest} {group : GroupDescriptor} {recovery : Option RecoveryDescriptor}
    {founding : Bytes} (stepSeen : ∀ bytes, step.encode = .ok bytes → bytes ∈ seen)
    (foundingSeen : founding ∈ seen) (hfounding : foundingBytes group recovery = .ok founding)
    (h : step.digest = .ok digest) : digest ≠ Sha256.digest founding := by
  intro same
  obtain ⟨bytes, encoded, hash⟩ := digest_eq_ok.mp h
  have equal : bytes = founding :=
    free (stepSeen bytes encoded) foundingSeen (hash.trans same)
  have head := foundingBytes_head hfounding
  rw [← equal, (encode_eq_ok encoded).1] at head
  exact absurd head (by simp [stepBytes, Cbor.array, Cbor.head])

end Supgang.Threshold
