/-
# Threshold.Chain — the fork-detecting chain of root steps

`threshold/step/chain.rs`. A chain starts from the founding descriptors and is offered signed steps
one at a time. A step whose predecessor is known is verified under the group in force there and
extends the tip, repeats a record, or conflicts with an accepted child and halts the chain; a step
whose predecessor is unknown is held, unverified, until the predecessor arrives. A recovery
succession is verified under the recovery authority instead and clears what a fork left.

The source's `accept_ordinary` is written here as three parts in its own order: `acceptOrdinary`
itself down to the lookup of the predecessor, `nextContext` for the checks that read but never
write, and `extend` for what follows them.
-/
import Supgang.Threshold.Step
import Supgang.Theory.Maps

namespace Supgang.Threshold

set_option autoImplicit false

open Theory

/-- Administrative state of a verified chain. -/
inductive Status where
  /-- Ordinary operations can extend the current tip. -/
  | active
  /-- Authenticated conflicting content exists; ordinary operations are refused. -/
  | halted
  /-- Authenticated history exhausted; consumers must refuse administration. -/
  | exhausted
deriving DecidableEq, Repr

/-- Outcome of presenting a signed step. -/
inductive Outcome where
  /-- Advanced the tip, possibly draining held descendants. -/
  | accepted
  /-- Unknown predecessor; bounded untrusted memory only. -/
  | held
  /-- Byte-identical canonical content already accepted. -/
  | duplicate
  /-- Both authenticated branches retained and administration halted. -/
  | fork
deriving DecidableEq, Repr

/-- Reserved conflict evidence, independent of the ordinary history capacity. -/
structure Conflict where
  /-- Digest of the previously authenticated branch. -/
  first : Digest
  /-- Conflicting authenticated branch. -/
  second : SignedStep
deriving DecidableEq

/-- Entries by content digest, in digest order. -/
abbrev Records := Std.ExtTreeMap Digest SignedStep

variable [Sha256] [Ed25519] [P256] [Frost]

/-- What a step is checked against: the group in force after its predecessor, and its order. -/
structure Context where
  group : GroupDescriptor
  epoch : UInt64
  recoveryGen : UInt64
  sequence : UInt64
deriving DecidableEq

structure Chain where
  hive : HiveId
  founding : Digest
  tip : Digest
  current : Context
  recovery : RecoveryDescriptor
  contexts : Std.ExtTreeMap Digest Context
  records : Records
  pending : Records
  children : Std.ExtTreeMap Digest Digest
  active : List Digest
  recoveryProofs : Std.ExtTreeMap UInt64 (SignedStep × RecoveryDescriptor)
  grants : Std.ExtTreeMap (FixedBytes 16) Grant
  usedGrantIds : Std.ExtTreeSet (FixedBytes 16)
  grantRevocationSerial : UInt64
  status : Status
  recoveryFork : Bool
  conflict : Option Conflict

/-- Pins founding root and recovery descriptors before any root operation. -/
def Chain.new (group : GroupDescriptor) (recovery : RecoveryDescriptor) : Except Error Chain := do
  reject (recovery.sequence ≠ 0 ∨ recovery.predecessor ≠ FixedBytes.replicate 32 0 ∨
    recovery.group.publicKey = group.publicKey ∨ recovery.group.label ≠ group.label) Error.invalid
  let founding ← foundingDigest group (some recovery)
  let current : Context := { group, epoch := 0, recoveryGen := 0, sequence := 0 }
  return {
    hive := HiveId.fromRootVerifyingKey group.publicKey
    founding, tip := founding, current, recovery
    contexts := (∅ : Std.ExtTreeMap Digest Context).insert founding current
    records := ∅, pending := ∅, children := ∅, active := [], recoveryProofs := ∅, grants := ∅
    usedGrantIds := ∅, grantRevocationSerial := 0, status := .active, recoveryFork := false
    conflict := none }

/-- Current recovery-first order. -/
def Chain.order (chain : Chain) : UInt64 × UInt64 × UInt64 :=
  (chain.current.recoveryGen, chain.current.epoch, chain.current.sequence)

/-- Active typed grant. -/
def Chain.grant (chain : Chain) (id : FixedBytes 16) : Option Grant :=
  if chain.status = .active then chain.grants[id]? else none

/-- Programs over a chain; an error does not undo what was written before it. -/
abbrev ChainM := EStateM Error Chain

/-! ## Grant transitions -/

def Chain.validateGrantTransition (chain : Chain) (step : RootStep) : Except Error Unit :=
  match step.operation with
  | .grant => do
      let grant ← Grant.decode step.payload
      reject (maxRecords ≤ chain.usedGrantIds.size ∨ grant.id ∈ chain.usedGrantIds)
        Error.authority
  | .revokeGrant => do
      let revoke ← Revocation.decode step.payload
      reject (chain.grants[revoke.id]?.map Grant.kind ≠ some revoke.kind) Error.authority
      let serial ← okOr (checkedAdd chain.grantRevocationSerial 1) Error.bound
      reject (revoke.serial ≠ serial) Error.authority
  | _ => pure ()

def Chain.applyGrantTransition (chain : Chain) (step : RootStep) : Except Error Chain :=
  match step.operation with
  | .grant => do
      let grant ← Grant.decode step.payload
      return { chain with usedGrantIds := chain.usedGrantIds.insert grant.id
                          grants := chain.grants.insert grant.id grant }
  | .revokeGrant => do
      let revoke ← Revocation.decode step.payload
      return { chain with grants := chain.grants.erase revoke.id
                          grantRevocationSerial := revoke.serial }
  | _ => pure chain

/-! ## Ordinary steps -/

/-- The rules of a planned succession under the context of its predecessor. -/
def Chain.plannedContext (chain : Chain) (step : RootStep) (context : Context)
    (transition : Succession) : Except Error Context := do
  reject (transition.kind ≠ .planned ∨ transition.previousKey ≠ context.group.publicKey ∨
    transition.recovery ≠ chain.recovery ∨
    transition.successor.publicKey = context.group.publicKey ∨
    transition.successor.publicKey = transition.recovery.group.publicKey ∨
    transition.successor.label ≠ context.group.label) Error.authority
  let generation ← okOr (checkedAdd context.group.generation 1) Error.bound
  reject (transition.successor.generation ≠ generation) Error.authority
  transition.verifyPossession step false
  let epoch ← okOr (checkedAdd context.epoch 1) Error.bound
  return { context with group := transition.successor, epoch, sequence := step.sequence }

/-- Every check of an ordinary step against the context of its predecessor, and the context it
establishes. -/
def Chain.nextContext (chain : Chain) (signed : SignedStep) (context : Context)
    (transition : Option Succession) : Except Error Context := do
  let step := signed.step
  reject (context.recoveryGen ≠ chain.current.recoveryGen ∨ step.epoch ≠ context.epoch)
    Error.authority
  let sequence ← okOr (checkedAdd context.sequence 1) Error.bound
  reject (step.sequence ≠ sequence) Error.authority
  signed.verify context.group.publicKey
  match transition with
  | some transition => chain.plannedContext step context transition
  | none => pure { context with sequence := step.sequence }

/-- A step with an unknown predecessor, kept by its content digest. -/
def hold (signed : SignedStep) (digest : Digest) : ChainM Outcome := do
  let chain ← get
  reject (maxRecords ≤ chain.pending.size) Error.bound
  set { chain with pending := chain.pending.insert digest signed }
  return .held

def Chain.halt (chain : Chain) (first : Digest) (signed : SignedStep) (digest : Digest) : Chain :=
  { chain with
    records := if chain.records.size < maxRecords then chain.records.insert digest signed
      else chain.records
    conflict := some ⟨first, signed⟩
    status := .halted }

/-- The conflicting branch is recorded beside the accepted one. -/
def Chain.forked (chain : Chain) (existing : Digest) (signed : SignedStep) (digest : Digest)
    (next : Context) : Chain :=
  let halted := chain.halt existing signed digest
  if digest ∈ halted.records then { halted with contexts := halted.contexts.insert digest next }
  else halted

/-- The new tip, after the grant rules have been applied. -/
def Chain.advanced (chain : Chain) (signed : SignedStep) (digest : Digest) (next : Context) :
    Chain :=
  { chain with
    records := chain.records.insert digest signed
    contexts := chain.contexts.insert digest next
    current := next, tip := digest, active := chain.active ++ [digest] }

/-- A verified step: a repetition, a conflict with an accepted child, or the next tip. -/
def extend (signed : SignedStep) (digest : Digest) (next : Context) : ChainM Outcome := do
  let chain ← get
  let step := signed.step
  if digest ∈ chain.records then return .duplicate
  else match chain.children[step.predecessor]?.filter (· ≠ digest) with
    | some existing => do
        set (chain.forked existing signed digest next)
        return .fork
    | none =>
      if maxRecords ≤ chain.records.size then do
        set { chain with status := .exhausted }
        throw Error.bound
      else do
        reject (step.predecessor ≠ chain.tip) Error.authority
        ofExcept (chain.validateGrantTransition step)
        let linked := { chain with children := chain.children.insert step.predecessor digest }
        set linked
        let granted ← ofExcept (linked.applyGrantTransition step)
        set (granted.advanced signed digest next)
        return .accepted

def acceptOrdinary (signed : SignedStep) (digest : Digest) (transition : Option Succession) :
    ChainM Outcome := do
  let chain ← get
  let step := signed.step
  reject (chain.status ≠ .active) Error.halted
  reject (step.operation = .setRecoveryGroup ∨ step.operation = .reshare) Error.authority
  reject (step.recoveryGen ≠ chain.current.recoveryGen) Error.authority
  match chain.contexts[step.predecessor]? with
  | none => hold signed digest
  | some context => do
      let next ← ofExcept (chain.nextContext signed context transition)
      extend signed digest next

/-! ## Recovery successions -/

/-- A recovery naming a known predecessor agrees with its context. -/
def Chain.validateAncestor (chain : Chain) (step : RootStep) (transition : Succession) :
    Except Error Unit :=
  match chain.contexts[step.predecessor]? with
  | none => pure ()
  | some context => do
      reject (transition.previousKey ≠ context.group.publicKey ∨ step.epoch ≠ context.epoch)
        Error.authority
      let sequence ← okOr (checkedAdd context.sequence 1) Error.bound
      reject (step.sequence ≠ sequence) Error.authority

/-- A replaced recovery descriptor is the next one of its own history. -/
def validateReplacement (recovery authority : RecoveryDescriptor) : Except Error Unit := do
  let sequence ← okOr (checkedAdd authority.sequence 1) Error.bound
  reject (recovery.sequence ≠ sequence) Error.authority
  let digest ← authority.digest
  reject (recovery.predecessor ≠ digest ∨ recovery.group.publicKey = authority.group.publicKey)
    Error.authority
  let generation ← okOr (checkedAdd authority.group.generation 1) Error.bound
  reject (recovery.group.generation ≠ generation) Error.authority

/-- Nothing is asked of a recovery descriptor that does not change. -/
def validateChange (recovery authority : RecoveryDescriptor) : Except Error Unit :=
  if recovery = authority then pure () else validateReplacement recovery authority

def Chain.validateRecovery (chain : Chain) (step : RootStep) (transition : Succession)
    (authority : RecoveryDescriptor) : Except Error Unit := do
  reject (transition.retained ≠ emptyRetainedDigest ∨
    transition.successor.label ≠ chain.current.group.label ∨
    transition.successor.publicKey = transition.previousKey ∨
    transition.successor.publicKey = transition.recovery.group.publicKey ∨
    transition.recovery.group.label ≠ chain.current.group.label) Error.authority
  chain.validateAncestor step transition
  validateChange transition.recovery authority
  transition.verifyPossession step (transition.recovery ≠ authority)

/-- The recorded path that ends at `predecessor`, newest first, at most `fuel` steps of it. -/
def Chain.ancestryFrom (chain : Chain) : Nat → Digest → List Digest
  | 0, _ => []
  | fuel + 1, predecessor =>
    if predecessor = chain.founding then []
    else match chain.records[predecessor]? with
      | none => []
      | some record => predecessor :: chain.ancestryFrom fuel record.step.predecessor

def Chain.ancestry (chain : Chain) (predecessor : Digest) : List Digest :=
  (chain.ancestryFrom maxRecords predecessor).reverse

/-- The chain after an accepted recovery. It deliberately discards all grants; a successor root
must issue fresh identities, and retired identities and serials remain spent. -/
def Chain.recovered (chain : Chain) (signed : SignedStep) (digest : Digest)
    (transition : Succession) (next : Context) : Chain :=
  { chain with
    active := chain.ancestry signed.step.predecessor ++ [digest]
    grants := ∅, pending := ∅, children := ∅
    recoveryProofs :=
      chain.recoveryProofs.insert signed.step.recoveryGen (signed, chain.recovery)
    records := chain.records.insert digest signed
    contexts := chain.contexts.insert digest next
    current := next, recovery := transition.recovery, tip := digest, status := .active }

/-- A second recovery of a generation, judged under the authority that authorized the first. -/
def acceptRival (signed : SignedStep) (digest : Digest) (transition : Succession)
    (previous : SignedStep) (authority : RecoveryDescriptor) : ChainM Outcome := do
  let chain ← get
  ofExcept (signed.verify authority.group.publicKey)
  ofExcept (chain.validateRecovery signed.step transition authority)
  let known ← ofExcept previous.step.digest
  if known = digest then return .duplicate
  else do
    set { chain.halt known signed digest with recoveryFork := true }
    return .fork

/-- The first recovery of a generation. -/
def acceptFirst (signed : SignedStep) (digest : Digest) (transition : Succession) :
    ChainM Outcome := do
  let chain ← get
  let step := signed.step
  reject (step.recoveryGen ≤ chain.current.recoveryGen) Error.authority
  ofExcept (signed.verify chain.recovery.group.publicKey)
  ofExcept (chain.validateRecovery step transition chain.recovery)
  if maxRecords ≤ chain.records.size ∨ maxRecords ≤ chain.recoveryProofs.size then do
    set { chain with status := .exhausted }
    throw Error.bound
  else do
    let epoch ← ofExcept (okOr (checkedAdd step.epoch 1) Error.bound)
    set (chain.recovered signed digest transition
      { group := transition.successor, epoch, recoveryGen := step.recoveryGen,
        sequence := step.sequence })
    return .accepted

def acceptRecovery (signed : SignedStep) (digest : Digest) (transition : Succession) :
    ChainM Outcome := do
  let chain ← get
  match chain.recoveryProofs[signed.step.recoveryGen]? with
  | some (previous, authority) => acceptRival signed digest transition previous authority
  | none => acceptFirst signed digest transition

/-! ## Offering a step -/

/-- The succession a step carries, where it is one. -/
def transitionOf (step : RootStep) : Except Error (Option Succession) :=
  if step.operation = .succession then some <$> Succession.decode step.payload else pure none

/-- The first held record, in digest order, whose predecessor is known. -/
def Chain.ready (chain : Chain) : Option (Digest × SignedStep) :=
  first (fun _ signed => signed.step.predecessor ∈ chain.contexts) chain.pending

/-- Every round removes at least one record. Invalid held input is dropped without rolling back a
legitimate newly accepted predecessor. -/
def drainLoop : Nat → ChainM Unit
  | 0 => pure ()
  | rounds + 1 => do
      let chain ← get
      if chain.status ≠ .active then pure ()
      else match chain.ready with
        | none => pure ()
        | some (digest, signed) => do
            set { chain with pending := chain.pending.erase digest }
            match transitionOf signed.step with
            | .error _ => drainLoop rounds
            | .ok transition => do
                let result ← attempt id (fun chain _ => chain)
                  (acceptOrdinary signed digest transition)
                match result with
                | .error Error.bound => throw Error.bound
                | _ => drainLoop rounds

def drainPending : ChainM Unit := drainLoop maxRecords

/-- The part of `accept` a step takes by its kind: recovery authority or the ordinary group. -/
def dispatch (signed : SignedStep) (digest : Digest) (succession : Option Succession) :
    ChainM Outcome :=
  match succession.filter (·.kind = .recovery) with
  | some transition => acceptRecovery signed digest transition
  | none => acceptOrdinary signed digest succession

/-- After an acceptance, held descendants follow. -/
def follow (outcome : Outcome) : ChainM Unit :=
  if outcome = .accepted then drainPending else pure ()

def settle (outcome : Outcome) : ChainM Outcome := do
  follow outcome
  let chain ← get
  return if chain.status = .halted then .fork else outcome

/-- Verifies authority and ordering; holds unknown predecessors, detects forks. -/
def accept (signed : SignedStep) : ChainM Outcome := do
  let chain ← get
  let digest ← ofExcept signed.step.digest
  reject (signed.step.hive ≠ chain.hive) Error.authority
  reject chain.recoveryFork Error.halted
  let succession ← ofExcept (transitionOf signed.step)
  let outcome ← dispatch signed digest succession
  settle outcome

end Supgang.Threshold
