/-
# Threshold.Session — presence-gated signing with durable locks

One participant's signing machine: a record for each attempt, kept in a store that only ever
replaces the whole snapshot, and the nonces of the attempts in flight, kept in memory. The
operations are those of the source; the store is any that honours the compare-and-swap contract, so
a write may be refused, or be lost before or after it became durable.

* `Record`, `Snapshot` — the durable state; `Fate`, `Store.replace` — the store's contract.
* `Session.open`, `propose`, `commit`, `sign`, `discard` — the operations; `commit` and `sign` write
  twice, once in each of their two stages.
* `Session.roundOne`, `Session.roundTwo` — the calls into FROST, each of which enters itself in the
  log of the session; nothing reads the log back.
* `updateRecord_eq_map`, `lockScan_ends` — what one operation makes of the records.
-/
import Supgang.Threshold.Policy

namespace Supgang.Threshold

set_option autoImplicit false
set_option linter.unusedSectionVars false

open Theory List

/-- Deadline after which an unsigned commitment can be discarded. -/
def deadlineSeconds : UInt64 := 10 * 60

/-- Random identity for a single nonce lifecycle. -/
abbrev SessionId := FixedBytes 32

/-- Durable protocol phase, independent of volatile nonce secrets. -/
inductive Phase where
  /-- Step recorded before owner review. -/
  | proposed
  /-- Owner present; exact step and session locked. -/
  | committed
  /-- Public commitment durably recorded before release. -/
  | noncesIssued
  /-- Package identity recorded before computing any share. -/
  | noncesConsumed
  /-- Cached share durably recorded before release. -/
  | signed
  /-- Session abandoned; any permanent predecessor lock remains. -/
  | discarded
deriving DecidableEq, Repr

/-- One durable signing attempt. Contains no nonce secrets or signing key shares. -/
structure Record where
  /-- New random id for each attempt, including resumption. -/
  id : SessionId
  /-- Exact owner-reviewed operation. -/
  step : RootStep
  /-- Content digest committed to by the participant. -/
  stepDigest : Digest
  /-- Chain revision and role validated before committing; immutable thereafter. -/
  review : Option Review
  phase : Phase
  /-- Local commitment time; deadlines never use the coordinator's clock. -/
  committedAt : UInt64
  /-- True before share computation, retained even after discard or restart. -/
  permanent : Bool
  /-- Serialized public nonce commitment. -/
  commitment : Option Bytes
  /-- Digest of the whole bound package, not just its message. -/
  packageDigest : Option Digest
  /-- Cached signature share, released only after durable publication. -/
  cachedShare : Option Bytes
deriving DecidableEq, Repr

/-- Bounded atomic snapshot. -/
structure Snapshot where
  /-- Compare-and-swap revision, incremented exactly once per durable write. -/
  revision : UInt64
  /-- Greatest caller-supplied local time, rejecting clock rollback. -/
  lastTime : UInt64
  records : List Record
deriving DecidableEq, Repr

/-- What becomes of a write. -/
inductive Fate where
  | stored
  /-- Refused with the durable state as it was. -/
  | refused (error : Error)
  /-- Failed with an uncertain outcome: the new snapshot is durable exactly if `landed`. -/
  | lost (error : Error) (landed : Bool)
deriving DecidableEq, Repr

section Machine

variable [Sha256] [Ed25519] [P256] [Frost]

/-- A store that honours the contract. `state` is what the open handle returns, `durable` what a
reopened one will, and `fates` what the environment has in store for the writes to come. -/
structure Store where
  binding : Binding
  state : Snapshot
  durable : Snapshot
  poisoned : Bool
  fates : List Fate

namespace Store

/-- The store before its first use. -/
def fresh (binding : Binding) (fates : List Fate) : Store where
  binding
  state := { revision := 0, lastTime := 0, records := [] }
  durable := { revision := 0, lastTime := 0, records := [] }
  poisoned := false
  fates

/-- A reopened store returns its durable outcome. -/
def reopen (store : Store) : Store := { store with state := store.durable, poisoned := false }

/-- Compare-and-swap one complete snapshot. -/
def replace (expected : UInt64) (next : Snapshot) : EStateM Error Store Unit := fun store =>
  if store.poisoned ∨ expected ≠ store.state.revision then .error .store store
  else
    let rest := { store with fates := store.fates.tail }
    match store.fates.headD .stored with
    | .stored => .ok () { rest with state := next, durable := next }
    | .refused error => .error error rest
    | .lost error landed =>
      .error error
        { rest with durable := if landed then next else store.durable, poisoned := true }

end Store

/-- Coordinator package with explicit session, descriptor and generation binding. -/
structure Package where
  /-- Participants must all use this new session identity. -/
  id : SessionId
  /-- Current complete group descriptor identity. -/
  descriptor : Digest
  /-- Current share generation. -/
  generation : UInt64
  /-- Exact message and commitment set given to FROST. -/
  signing : Frost.SigningPackage

/-- Canonical wrapper identity covering the exact serialization of the package. -/
def Package.digest (package : Package) : Except Error Digest := do
  reject (maxParticipants < package.signing.signingCommitments.length ∨
    maxStepBytes + stepDomain.length < package.signing.message.length) Error.bound
  let signing ← okOr (Frost.serializePackage package.signing) Error.frost
  return Sha256.digest (Cbor.array 5 ++ (Cbor.unsigned 1 ++ (Cbor.bytes package.id.1 ++
    (Cbor.bytes package.descriptor.1 ++ (Cbor.u64 package.generation ++ Cbor.bytes signing)))))

/-- A call of round one: the nonces it returned, and the attempt they are for. -/
structure Draw where
  id : SessionId
  nonces : FrostTypes.SigningNonces

/-- A call of round two, what was durable when it was made, and the share it returned. -/
structure Use where
  package : Package
  nonces : FrostTypes.SigningNonces
  durable : Snapshot
  share : Option FrostTypes.SignatureShare

/-- The calls into FROST, in their order. -/
structure Calls where
  draws : List Draw
  uses : List Use

def Calls.draw (calls : Calls) (draw : Draw) : Calls :=
  { calls with draws := calls.draws ++ [draw] }

def Calls.use (calls : Calls) (use : Use) : Calls := { calls with uses := calls.uses ++ [use] }

/-- One participant's isolated signing machine and volatile nonce ownership. `calls` is not of the
source: it records the calls into FROST of this process. -/
structure Session where
  store : Store
  key : Frost.KeyPackage
  nonces : Std.ExtTreeMap SessionId FrostTypes.SigningNonces
  poisoned : Bool
  calls : Calls

/-- What a participant checks a step against before committing to it. -/
abbrev Policy := Binding → RootStep → Except Error Review

/-! ## Records -/

/-- Changes the first record of an attempt. -/
def updateRecord (id : SessionId) (change : Record → Record) :
    List Record → Except Error (List Record)
  | [] => throw Error.invalid
  | record :: rest =>
    if record.id = id then pure (change record :: rest)
    else do
      let rest ← updateRecord id change rest
      return record :: rest

/-- When the commitment of an attempt lapses. -/
@[irreducible] def Record.deadline (record : Record) : Except Error UInt64 :=
  okOr (checkedAdd record.committedAt deadlineSeconds) Error.bound

def Record.lapsed (record : Record) (now : UInt64) : Bool :=
  match record.deadline with
  | .ok deadline => deadline ≤ now
  | .error _ => false

/-- The record of a proposal. -/
def Record.proposal (id : SessionId) (step : RootStep) (stepDigest : Digest) : Record where
  id
  step
  stepDigest
  review := none
  phase := .proposed
  committedAt := 0
  permanent := false
  commitment := none
  packageDigest := none
  cachedShare := none

/-- An attempt that only a new proposal can resume. -/
def Record.finished (record : Record) : Bool :=
  record.phase = .signed || record.phase = .discarded

def Record.burn (record : Record) : Record :=
  if record.finished then record else { record with phase := .discarded }

/-- The lock a review takes: on the recovery generation or on the predecessor. -/
def Role.SameScope (role : Role) (first second : RootStep) : Prop :=
  if role = .recovery then first.recoveryGen = second.recoveryGen
  else first.predecessor = second.predecessor

instance (role : Role) (first second : RootStep) : Decidable (role.SameScope first second) := by
  unfold Role.SameScope
  infer_instance

/-- An earlier commitment under the role and lock that `record` is about to take. -/
def Record.Contender (record : Record) (review : Review) (prior : Record) : Prop :=
  prior.id ≠ record.id ∧ prior.phase ≠ .proposed ∧
    prior.review.any (fun earlier => earlier.role = review.role) ∧
    review.role.SameScope prior.step record.step

instance (record : Record) (review : Review) (prior : Record) :
    Decidable (record.Contender review prior) := by
  unfold Record.Contender
  infer_instance

/-- What the scan for locks leaves of an earlier record. -/
def Record.settle (record : Record) (review : Review) (now : UInt64) (prior : Record) : Record :=
  if record.Contender review prior ∧ prior.lapsed now ∧ prior.permanent = false then
    { prior with phase := .discarded }
  else prior

/-- A contender with another step has to give way. -/
def Record.Yields (record : Record) (review : Review) (now : UInt64) (prior : Record) : Prop :=
  record.Contender review prior → prior.stepDigest ≠ record.stepDigest →
    prior.permanent = false ∧ (record.settle review now prior).phase = .discarded

namespace Session

/-! ## Operations -/

/-- Opens a participant and burns incomplete attempts from a prior process. -/
def «open» (key : Frost.KeyPackage) : EStateM Error Store Session := do
  let store ← get
  let binding := store.binding
  let package ← ofExcept binding.group.publicPackage
  let identifier ← ofExcept (okOr (Frost.identifier binding.participant) Error.frost)
  reject (key.identifier ≠ identifier ∨ key.verifyingKey ≠ package.verifyingKey ∨
    package.verifyingShares.lookup key.identifier ≠ some key.verifyingShare ∨
    key.minSigners ≠ binding.group.k) Error.authority
  if store.state.records.all Record.finished then pure ()
  else do
    let revision ← ofExcept (okOr (checkedAdd store.state.revision 1) Error.bound)
    Store.replace store.state.revision
      { store.state with revision, records := store.state.records.map Record.burn }
  let store ← get
  return { store, key, nonces := ∅, poisoned := false, calls := ⟨[], []⟩ }

def record (session : Session) (id : SessionId) : Except Error Record := do
  reject session.poisoned Error.store
  okOr (session.store.state.records.find? fun record => record.id = id) Error.invalid

/-- The snapshot to be written next, at a time that is not behind the last one. -/
def next (session : Session) (now : UInt64) : Except Error Snapshot := do
  reject (session.poisoned ∨ now < session.store.state.lastTime) Error.store
  let revision ← okOr (checkedAdd session.store.state.revision 1) Error.bound
  return { revision, lastTime := now, records := session.store.state.records }

/-- A write whose outcome is uncertain leaves the session unusable until it is reopened. -/
def persist (next : Snapshot) : EStateM Error Session Unit := fun session =>
  match (Store.replace session.store.state.revision next).run session.store with
  | .ok () store => .ok () { session with store, poisoned := false }
  | .error error store => .error error { session with store, poisoned := true }

/-- Durably records a proposal, requiring a fresh id even when resuming. -/
def propose (id : SessionId) (step : RootStep) (now : UInt64) : EStateM Error Session Unit := do
  let session ← get
  reject (step.hive ≠ session.store.binding.hive) Error.authority
  let stepDigest ← ofExcept step.digest
  let next ← ofExcept (session.next now)
  reject (maxRecords ≤ next.records.length) Error.bound
  reject (next.records.any fun record => record.id = id) Error.locked
  persist { next with records := next.records ++ [.proposal id step stepDigest] }

/-- One earlier record against the commitment of `record`: a standing lock on another step refuses
it, and a lock past its deadline is discarded with its nonces. -/
def retire (record : Record) (review : Review) (now : UInt64) (prior : Record) :
    EStateM Error Session Record :=
  if record.Contender review prior then do
    let deadline ← ofExcept prior.deadline
    reject (prior.stepDigest ≠ record.stepDigest ∧ (prior.permanent ∨ now < deadline))
      Error.locked
    if deadline ≤ now ∧ prior.permanent = false ∧ prior.phase ≠ .discarded then do
      modify fun session => { session with nonces := session.nonces.erase prior.id }
      return { prior with phase := .discarded }
    else return prior
  else return prior

def lockScan (record : Record) (review : Review) (now : UInt64) :
    List Record → EStateM Error Session (List Record)
  | [] => return []
  | prior :: rest => do
      let prior ← retire record review now prior
      let rest ← lockScan record review now rest
      return prior :: rest

/-- Round one of FROST under the share of the session. -/
def roundOne (id : SessionId) (seed : FixedBytes 32) :
    EStateM Error Session (FrostTypes.SigningNonces × FrostTypes.SigningCommitments) := do
  let session ← get
  let drawn := Frost.commit session.key.signingShare seed
  set { session with calls := session.calls.draw ⟨id, drawn.1⟩ }
  return drawn

/-- Round two of FROST under the share of the session. -/
def roundTwo (package : Package) (nonces : FrostTypes.SigningNonces) :
    EStateM Error Session (Option FrostTypes.SignatureShare) := do
  let session ← get
  let share := Frost.sign package.signing nonces session.key
  set { session with calls := session.calls.use ⟨package, nonces, session.store.durable, share⟩ }
  return share

/-- Draws the nonces of a committed attempt; the public commitment is durable before it leaves. -/
def issue (id : SessionId) (now : UInt64) (seed : Option (FixedBytes 32)) :
    EStateM Error Session FrostTypes.SigningCommitments := do
  let seed ← ofExcept (okOr seed Error.random)
  let (nonces, commitment) ← roundOne id seed
  let session ← get
  let next ← ofExcept (session.next now)
  let bytes ← ofExcept (okOr (Frost.serializeCommitments commitment) Error.frost)
  let records ← ofExcept (updateRecord id (fun selected =>
    { selected with phase := .noncesIssued, commitment := some bytes }) next.records)
  persist { next with records }
  modify fun session => { session with nonces := session.nonces.insert id nonces }
  return commitment

/-- The first stage of `commit`: the reviewed step is locked before any nonce exists. -/
def lock (id : SessionId) (now : UInt64) (policy : Policy) (presence : RootStep → Bool) :
    EStateM Error Session Unit := do
  let session ← get
  let record ← ofExcept (session.record id)
  reject (record.phase ≠ .proposed) Error.locked
  let review ← ofExcept (policy session.store.binding record.step)
  let next ← ofExcept (session.next now)
  let records ← lockScan record review now next.records
  reject (¬presence record.step) Error.presence
  let records ← ofExcept (updateRecord id (fun selected =>
    { selected with phase := .committed, review := some review, committedAt := now }) records)
  persist { next with records }

/-- Presence-gated durable commitment and nonce issuance, in that order. The owner answers
`presence`, and `seed` is what the system's randomness returned. -/
def commit (id : SessionId) (now : UInt64) (policy : Policy) (presence : RootStep → Bool)
    (seed : Option (FixedBytes 32)) : EStateM Error Session FrostTypes.SigningCommitments := do
  lock id now policy presence
  issue id now seed

/-- Abandons one attempt and drops its volatile nonces; permanent locks remain. -/
def discard (id : SessionId) (now : UInt64) : EStateM Error Session Unit := do
  modify fun session => { session with nonces := session.nonces.erase id }
  let session ← get
  let next ← ofExcept (session.next now)
  let records ← ofExcept (updateRecord id (fun selected =>
    { selected with phase := .discarded }) next.records)
  persist { next with records }

def validatePackage (session : Session) (package : Package) (record : Record) :
    Except Error Unit := do
  let group := session.store.binding.group
  let commitments := package.signing.signingCommitments
  reject (package.generation ≠ group.generation) Error.proof
  let descriptor ← group.digest
  reject (package.descriptor ≠ descriptor) Error.proof
  let message ← record.step.message
  reject (package.signing.message ≠ message ∨ commitments.length < group.k.toNat ∨
    group.participants.length < commitments.length) Error.proof
  commitments.forM fun (identifier, _) => do
    let known ← group.publicPackage
    reject (identifier ∉ known.verifyingShares.map Prod.fst) Error.authority
  let own ← okOr (commitments.lookup session.key.identifier) Error.proof
  let bytes ← okOr (Frost.serializeCommitments own) Error.frost
  reject (some bytes ≠ record.commitment) Error.proof

/-- Computes the share of an attempt whose nonces are durably consumed; it is durable before it
leaves. -/
def release (package : Package) (now : UInt64) :
    EStateM Error Session FrostTypes.SignatureShare := do
  let session ← get
  let nonces ← ofExcept (okOr session.nonces[package.id]? Error.locked)
  modify fun session => { session with nonces := session.nonces.erase package.id }
  let share ← roundTwo package nonces
  let share ← ofExcept (okOr share Error.frost)
  let session ← get
  let next ← ofExcept (session.next now)
  let records ← ofExcept (updateRecord package.id (fun selected =>
    { selected with
      phase := .signed, cachedShare := some (Frost.serializeShare share) }) next.records)
  persist { next with records }
  return share

/-- The first stage of `sign`: the cached share of a retry, or `none` once the nonces of the attempt
are durably spent on this package. -/
def consume (package : Package) (now : UInt64) :
    EStateM Error Session (Option FrostTypes.SignatureShare) := do
  let session ← get
  let next ← ofExcept (session.next now)
  let record ← ofExcept (session.record package.id)
  ofExcept (session.validatePackage package record)
  let digest ← ofExcept package.digest
  match record.packageDigest with
  | some previous =>
    reject (previous ≠ digest) Error.proof
    let bytes ← ofExcept (okOr record.cachedShare Error.locked)
    let share ← ofExcept (okOr (Frost.deserializeShare bytes) Error.frost)
    return some share
  | none =>
    reject (record.phase ≠ .noncesIssued) Error.locked
    let deadline ← ofExcept record.deadline
    if deadline ≤ now then do
      discard package.id now
      throw Error.locked
    else
      let records ← ofExcept (updateRecord package.id (fun selected =>
        { selected with
          phase := .noncesConsumed, packageDigest := some digest, permanent := true })
        next.records)
      -- No share exists until this durable write has succeeded.
      persist { next with records }
      return none

/-- The second stage of `sign`. -/
def conclude (package : Package) (now : UInt64) :
    Option FrostTypes.SignatureShare → EStateM Error Session FrostTypes.SignatureShare
  | some share => return share
  | none => release package now

/-- Computes a share once, after durable consumption; exact retries use the cache. -/
def sign (package : Package) (now : UInt64) : EStateM Error Session FrostTypes.SignatureShare :=
  consume package now >>= conclude package now

/-! ## What an operation makes of the records -/

variable {id : SessionId} {change : Record → Record} {records altered : List Record}
variable {record : Record} {review : Review} {now : UInt64}

theorem updateRecord_eq_map (nodup : (records.map Record.id).Nodup)
    (run : updateRecord id change records = .ok altered) :
    (∃ selected ∈ records, selected.id = id) ∧
      altered = records.map fun record => if record.id = id then change record else record := by
  induction records generalizing altered with
  | nil => cases run
  | cons head rest ih =>
    obtain ⟨fresh, nodup⟩ := nodup_cons.mp nodup
    unfold updateRecord at run
    split at run
    · rename_i same
      obtain rfl := pure_eq_ok.mp run
      refine ⟨⟨head, mem_cons_self, same⟩, ?_⟩
      have others : ∀ other ∈ rest, other.id ≠ id := by
        intro other member equal
        exact fresh (same ▸ equal ▸ mem_map_of_mem member)
      rw [map_cons, if_pos same]
      congr 1
      refine (map_id rest).symm.trans (map_congr_left fun other member => ?_)
      exact (if_neg (others other member)).symm
    · rename_i differ
      obtain ⟨tail, changed, run⟩ := bind_eq_ok.mp run
      obtain rfl := pure_eq_ok.mp run
      obtain ⟨⟨selected, member, same⟩, rfl⟩ := ih nodup changed
      refine ⟨⟨selected, mem_cons_of_mem _ member, same⟩, ?_⟩
      rw [map_cons, if_neg differ]

/-- The scan touches nothing of the session but the nonces. -/
def Keeps (session after : Session) : Prop :=
  after.store = session.store ∧ after.key = session.key ∧ after.poisoned = session.poisoned

theorem Keeps.refl (session : Session) : Keeps session session := ⟨rfl, rfl, rfl⟩

theorem retire_ends (record : Record) (review : Review) (now : UInt64) (prior : Record)
    (session : Session) :
    Ends session (retire record review now prior)
      (fun after t => after = record.settle review now prior ∧ record.Yields review now prior ∧
        Keeps session t)
      (Keeps session) := by
  unfold retire Record.Yields
  split
  · rename_i contends
    refine .ofExcept (Keeps.refl session) fun deadline found => ?_
    refine .reject (Keeps.refl session) fun unlocked => ?_
    have clock : prior.lapsed now = true ↔ deadline ≤ now := by
      simp only [Record.lapsed, found, decide_eq_true_eq]
    have yields : prior.stepDigest ≠ record.stepDigest →
        prior.lapsed now = true ∧ prior.permanent = false := by
      intro differ
      have := not_and.mp unlocked differ
      rw [not_or, not_lt] at this
      exact ⟨clock.mpr this.2, Bool.eq_false_iff.mpr this.1⟩
    by_cases lapsed : prior.lapsed now = true ∧ prior.permanent = false
    · have settled : record.settle review now prior = { prior with phase := .discarded } :=
        if_pos ⟨contends, lapsed⟩
      rw [settled]
      split
      · exact ⟨rfl, fun _ _ => ⟨lapsed.2, rfl⟩, Keeps.refl session⟩
      · rename_i stands
        have discarded : prior.phase = .discarded := by
          by_contra alive
          exact stands ⟨clock.mp lapsed.1, lapsed.2, alive⟩
        refine ⟨?_, fun _ _ => ⟨lapsed.2, rfl⟩, Keeps.refl session⟩
        rw [← discarded]
    · have settled : record.settle review now prior = prior := if_neg fun h => lapsed h.2
      rw [settled, if_neg fun h => lapsed ⟨clock.mpr h.1, h.2.1⟩]
      exact ⟨rfl, fun _ differ => absurd (yields differ) lapsed, Keeps.refl session⟩
  · rename_i apart
    have settled : record.settle review now prior = prior := if_neg fun h => apart h.1
    rw [settled]
    exact ⟨rfl, fun contends => absurd contends apart, Keeps.refl session⟩

theorem Keeps.trans {first second third : Session} (one : Keeps first second)
    (two : Keeps second third) : Keeps first third :=
  ⟨two.1.trans one.1, two.2.1.trans one.2.1, two.2.2.trans one.2.2⟩

theorem lockScan_ends (record : Record) (review : Review) (now : UInt64)
    (records : List Record) (session : Session) :
    Ends session (lockScan record review now records)
      (fun after t => after = records.map (record.settle review now) ∧
        (∀ prior ∈ records, record.Yields review now prior) ∧ Keeps session t)
      (Keeps session) := by
  induction records generalizing session with
  | nil => exact .pure ⟨rfl, forall_mem_nil _, Keeps.refl session⟩
  | cons prior rest ih =>
    refine .seq (retire_ends record review now prior session) ?_
    rintro _ t ⟨rfl, yields, kept⟩
    refine .seq ((ih t).mono_error fun _ later => kept.trans later) ?_
    rintro _ u ⟨rfl, others, later⟩
    exact .pure ⟨rfl, forall_mem_cons.mpr ⟨yields, others⟩, kept.trans later⟩

end Session

end Machine

end Supgang.Threshold
