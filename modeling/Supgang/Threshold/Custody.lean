/-
# Threshold.Custody — a participant over its crashes, with the log of what it did

A custodian is a participant over any run of calls, failing writes and restarts, together with the
calls into FROST that its processes logged and every share that left. One invariant over the durable
records and the log is kept by every call; what the group signs, and how often nonces are used, are
both read off it.

* `Call`, `Custodian.step`, `Custodian.calls` — a participant with its log.
* `Custodian.Intact` — the invariant; `Intact.stage`, `Intact.draw`, `Intact.use`, `Intact.answer`.
* `Intact.drew`, `Intact.spend` — the two stages that call FROST keep it.
* `Sound.run` — it holds over every run.
-/
import Supgang.Threshold.Writes

namespace Supgang.Threshold

set_option autoImplicit false
set_option linter.unusedSectionVars false

open Theory List

section Machine

variable [Sha256] [Ed25519] [P256] [Frost]

/-! ## A participant and its log -/

/-- One call on a participant's machine, by its owner or by any coordinator, under any policy. -/
inductive Call where
  | propose (id : SessionId) (step : RootStep) (now : UInt64)
  | commit (id : SessionId) (now : UInt64) (policy : Policy) (presence : RootStep → Bool)
      (seed : Option (FixedBytes 32))
  | sign (package : Package) (now : UInt64)
  | discard (id : SessionId) (now : UInt64)
  /-- The process ends and the store is opened again. A crash inside an operation is a write that
  was lost and then a restart. -/
  | restart (key : Frost.KeyPackage)

inductive Machine where
  /-- No process, or one that could not open the store. -/
  | closed (store : Store)
  | running (session : Session)

def Machine.store : Machine → Store
  | .closed store => store
  | .running session => session.store

/-- The calls of one process, after those of the processes before it. -/
def Calls.append (past calls : Calls) : Calls :=
  ⟨past.draws ++ calls.draws, past.uses ++ calls.uses⟩

theorem Calls.append_draw (past calls : Calls) (draw : Draw) :
    past.append (calls.draw draw) = (past.append calls).draw draw := by
  simp only [append, Calls.draw, append_assoc]

theorem Calls.append_use (past calls : Calls) (use : Use) :
    past.append (calls.use use) = (past.append calls).use use := by
  simp only [append, Calls.use, append_assoc]

def Machine.calls : Machine → Calls
  | .closed _ => ⟨[], []⟩
  | .running session => session.calls

/-- A share that was returned, the package it was asked for with, and the role its attempt was
reviewed under. -/
structure Answer where
  package : Package
  role : Option Role
  share : FrostTypes.SignatureShare

/-- A share is read back from its serialization. -/
def SharesRoundTrip : Prop :=
  ∀ share, Frost.deserializeShare (Frost.serializeShare share) = some share

/-- A participant, the calls into FROST of the processes that ended, and the shares it has
returned. -/
structure Custodian where
  machine : Machine
  past : Calls
  answers : List Answer

namespace Custodian

def start (binding : Binding) (fates : List Fate) : Custodian where
  machine := .closed (Store.fresh binding fates)
  past := ⟨[], []⟩
  answers := []

/-- Every call into FROST so far. -/
def calls (custodian : Custodian) : Calls := custodian.past.append custodian.machine.calls

def reopen (custodian : Custodian) (key : Frost.KeyPackage) : Custodian :=
  match (Session.open key).run custodian.machine.store.reopen with
  | .ok session _ => { custodian with machine := .running session, past := custodian.calls }
  | .error _ store => { custodian with machine := .closed store, past := custodian.calls }

/-- The answer to a call of `sign`. -/
def answer (session : Session) (package : Package) (now : UInt64) : List Answer :=
  match (Session.sign package now).run session with
  | .ok share _ => [⟨package, session.roleOf package.id, share⟩]
  | .error _ _ => []

def perform (custodian : Custodian) (session : Session) : Call → Custodian
  | .propose id step now =>
    { custodian with machine := .running (left (Session.propose id step now) session) }
  | .commit id now policy presence seed =>
    { custodian with
      machine := .running (left (Session.commit id now policy presence seed) session) }
  | .sign package now =>
    { custodian with
      machine := .running (left (Session.sign package now) session)
      answers := custodian.answers ++ answer session package now }
  | .discard id now =>
    { custodian with machine := .running (left (Session.discard id now) session) }
  | .restart key => custodian.reopen key

def step (custodian : Custodian) (call : Call) : Custodian :=
  match custodian.machine, call with
  | _, .restart key => custodian.reopen key
  | .running session, call => custodian.perform session call
  | .closed _, _ => custodian

def run (custodian : Custodian) (calls : List Call) : Custodian := calls.foldl step custodian

/-! ## The invariant -/

/-- The record of an attempt binds the package: its digest is durable, and every session of this
participant accepts the package for the record. -/
structure Binds (binding : Binding) (package : Package) (record : Record) : Prop where
  named : record.id = package.id
  message : record.step.message = .ok package.signing.message
  bound : ∃ digest, package.digest = .ok digest ∧ record.packageDigest = some digest
  valid : ∀ session : Session, session.store.binding = binding →
    Frost.identifier binding.participant = some session.key.identifier →
    session.validatePackage package record = .ok ()

/-- A participant with its log, where only these packages were asked for. -/
structure Intact (packages : Set Package) (machine : Machine) (calls : Calls)
    (answers : List Answer) : Prop where
  kept : Kept machine.store.binding machine.store.durable.records
  steady : ∀ session, machine = .running session → session.Steady
  apart : Apart machine.store.durable.records
  /-- Each attempt draws once, and only once it is locked. -/
  fresh : (calls.draws.map Draw.id).Nodup
  begun : ∀ draw ∈ calls.draws, ∃ record ∈ machine.store.durable.records,
    record.id = draw.id ∧ record.phase ≠ .proposed
  /-- The nonces in memory are those that its attempt drew. -/
  held : ∀ session, machine = .running session → ∀ id nonces,
    session.nonces[id]? = some nonces → ⟨id, nonces⟩ ∈ calls.draws
  /-- Each attempt signs once, and only once it is bound to a package. -/
  once : (calls.uses.map fun use => use.package.id).Nodup
  drawn : ∀ use ∈ calls.uses, ⟨use.package.id, use.nonces⟩ ∈ calls.draws
  spent : ∀ use ∈ calls.uses, ∃ record ∈ machine.store.durable.records,
    record.id = use.package.id ∧ record.packageDigest.isSome
  locked : ∀ use ∈ calls.uses, use.package ∈ packages ∧ ∃ record ∈ use.durable.records,
    record.id = use.package.id ∧ record.permanent = true ∧
      ∃ digest, use.package.digest = .ok digest ∧ record.packageDigest = some digest
  /-- What is cached was returned by round two. -/
  sourced : ∀ record ∈ machine.store.durable.records, record.Sourced calls.uses
  answered : ∀ answer ∈ answers, answer.package ∈ packages ∧
    ∃ record ∈ machine.store.durable.records,
      Binds machine.store.binding answer.package record ∧
      (∃ role, answer.role = some role ∧ record.role = some role) ∧
      (SharesRoundTrip → record.Caches answer.share)

/-- The custodian's own log is true. -/
abbrev Sound (packages : Set Package) (custodian : Custodian) : Prop :=
  Intact packages custodian.machine custodian.calls custodian.answers

theorem start_sound (packages : Set Package) (binding : Binding) (fates : List Fate) :
    (start binding fates).Sound packages where
  kept := ⟨nodup_nil, Nat.zero_le _, forall_mem_nil _⟩
  steady := nofun
  apart := .nil
  fresh := nodup_nil
  begun := forall_mem_nil _
  held := nofun
  once := nodup_nil
  drawn := forall_mem_nil _
  spent := forall_mem_nil _
  locked := forall_mem_nil _
  sourced := forall_mem_nil _
  answered := forall_mem_nil _

end Custodian

/-! ## What outlives a write -/

theorem Session.validatePackage_congr {first second : Session} {package : Package}
    {record later : Record} (binding : first.store.binding = second.store.binding)
    (key : first.key.identifier = second.key.identifier) (step : later.step = record.step)
    (commitment : later.commitment = record.commitment) :
    first.validatePackage package record = second.validatePackage package later := by
  unfold Session.validatePackage
  rw [binding, key, step, commitment]

theorem Record.Caches.later {record later : Record} {share : FrostTypes.SignatureShare}
    (caches : record.Caches share) (outlived : record.Later later) : later.Caches share := by
  obtain ⟨bytes, cached, parsed⟩ := caches
  exact ⟨bytes, outlived.share bytes cached, parsed⟩

theorem Record.Later.role {record later : Record} (outlived : record.Later later) {role : Role}
    (under : record.role = some role) : later.role = some role := by
  obtain ⟨review, reviewed, rfl⟩ := Option.map_eq_some_iff.mp under
  rw [Record.role, outlived.review review reviewed, Option.map_some]

namespace Custodian

variable {session after : Session} {package : Package} {binding : Binding} {record : Record}
  {share : FrostTypes.SignatureShare}

theorem binds_of_bound (bound : session.Bound package record)
    (keyed : Frost.identifier session.store.binding.participant = some session.key.identifier) :
    Binds session.store.binding package record := by
  refine ⟨bound.named, Session.validatePackage_message bound.valid, bound.bound,
    fun other same own => ?_⟩
  have identifier : session.key.identifier = other.key.identifier :=
    Option.some.inj (keyed.symm.trans own)
  rw [← Session.validatePackage_congr same.symm identifier rfl rfl]
  exact bound.valid

theorem Binds.later {later : Record} (binds : Binds binding package record)
    (outlived : record.Later later) : Binds binding package later := by
  obtain ⟨named, message, ⟨digest, hashed, packaged⟩, valid⟩ := binds
  obtain ⟨packaged', commitment⟩ := outlived.package digest packaged
  refine ⟨outlived.id.trans named, outlived.step ▸ message, ⟨digest, hashed, packaged'⟩,
    fun session same own => ?_⟩
  rw [← Session.validatePackage_congr rfl rfl outlived.step commitment]
  exact valid session same own

variable {packages : Set Package} {machine : Machine} {calls past : Calls} {answers : List Answer}
  {id : SessionId} {now : UInt64}

section Ledger

variable (intact : Intact packages machine calls answers)

include intact

/-- The log stays true over whatever the store goes on to hold. -/
theorem Intact.move (other : Machine) (binding : other.store.binding = machine.store.binding)
    (kept : Kept other.store.binding other.store.durable.records)
    (outlives : Outlives machine.store.durable.records other.store.durable.records)
    (apart : Apart other.store.durable.records)
    (sourced : ∀ record ∈ other.store.durable.records, record.Sourced calls.uses)
    (steady : ∀ session, other = .running session → session.Steady)
    (held : ∀ session, other = .running session → ∀ id nonces,
      session.nonces[id]? = some nonces → ⟨id, nonces⟩ ∈ calls.draws) :
    Intact packages other calls answers := by
  refine { intact with
    kept, steady, apart, held, sourced
    begun := fun draw member => ?_
    spent := fun use member => ?_
    answered := fun answer member => ?_ }
  · obtain ⟨record, there, named, phase⟩ := intact.begun draw member
    obtain ⟨later, here, outlived⟩ := outlives record there
    exact ⟨later, here, outlived.id.trans named, outlived.started phase⟩
  · obtain ⟨record, there, named, packaged⟩ := intact.spent use member
    obtain ⟨later, here, outlived⟩ := outlives record there
    obtain ⟨digest, found⟩ := Option.isSome_iff_exists.mp packaged
    refine ⟨later, here, outlived.id.trans named, ?_⟩
    rw [(outlived.package digest found).1]
    rfl
  · obtain ⟨asked, record, there, binds, ⟨role, tagged, under⟩, caches⟩ :=
      intact.answered answer member
    obtain ⟨later, here, outlived⟩ := outlives record there
    refine ⟨asked, later, here, binding ▸ binds.later outlived,
      ⟨role, tagged, outlived.role under⟩, fun roundTrip => ?_⟩
    exact (caches roundTrip).later outlived

theorem Intact.draw
    (committed : ∃ record ∈ machine.store.durable.records,
      record.id = id ∧ record.phase = .committed)
    (undrawn : ∀ draw ∈ calls.draws, draw.id ≠ id) (nonces : FrostTypes.SigningNonces) :
    Intact packages machine (calls.draw ⟨id, nonces⟩) answers := by
  refine { intact with fresh := ?_, begun := ?_, held := ?_, drawn := ?_ }
  · rw [Calls.draw, map_append, nodup_append]
    refine ⟨intact.fresh, nodup_singleton _, ?_⟩
    intro first one second two same
    obtain ⟨draw, member, rfl⟩ := mem_map.mp one
    obtain rfl := mem_singleton.mp two
    exact undrawn draw member same
  · intro draw member
    rcases mem_append.mp member with old | new
    · exact intact.begun draw old
    · obtain rfl := mem_singleton.mp new
      obtain ⟨record, there, named, phase⟩ := committed
      exact ⟨record, there, named, by rw [phase]; nofun⟩
  · exact fun session running id nonces found =>
      mem_append_left _ (intact.held session running id nonces found)
  · exact fun use member => mem_append_left _ (intact.drawn use member)

theorem Intact.answer (asked : package ∈ packages)
    (member : record ∈ machine.store.durable.records)
    (binds : Binds machine.store.binding package record)
    (caches : SharesRoundTrip → record.Caches share) :
    Intact packages machine calls (answers ++ [⟨package, record.role, share⟩]) := by
  refine { intact with answered := ?_ }
  intro answer there
  rcases mem_append.mp there with old | new
  · exact intact.answered answer old
  · obtain rfl := mem_singleton.mp new
    obtain ⟨digest, _, packaged⟩ := binds.bound
    have legal := intact.kept.legal record member
    obtain ⟨role, under⟩ := legal.role (legal.permanent_of_packaged (by rw [packaged]; rfl))
    exact ⟨asked, record, member, binds, ⟨role, under, under⟩, caches⟩

/-- A process opens the store again, and has called nothing. -/
theorem Intact.reopen (key : Frost.KeyPackage) :
    match (Session.open key).run machine.store.reopen with
    | .ok session _ => Intact packages (.running session) calls answers ∧
        session.calls = ⟨[], []⟩
    | .error _ store => Intact packages (.closed store) calls answers := by
  have ends := Session.open_staged machine.store key
  have kept := intact.kept
  have reopens (other : Machine) (binding : other.store.binding = machine.store.binding)
      (durable : other.store.durable = machine.store.durable ∨
        machine.store.durable.Writes machine.store.binding [] other.store.durable)
      (steady : ∀ session, other = .running session → session.Steady ∧ session.nonces = ∅) :
      Intact packages other calls answers := by
    have empty : ∀ session, other = .running session → ∀ id nonces,
        session.nonces[id]? = some nonces → ⟨id, nonces⟩ ∈ calls.draws := by
      intro session running id nonces found
      rw [(steady session running).2] at found
      exact absurd found (by simp)
    rcases durable with same | writes
    · exact intact.move other binding (binding ▸ same ▸ kept) (same ▸ .refl _)
        (same ▸ intact.apart) (same ▸ intact.sourced) (fun _ running => (steady _ running).1) empty
    · have records := writes.records
      exact intact.move other binding (binding ▸ records.kept kept) (records.outlives kept)
        (records.apart kept intact.apart)
        (records.sourced (nil_subset calls.uses) kept intact.sourced)
        (fun _ running => (steady _ running).1) empty
  cases run : (Session.open key).run machine.store.reopen with
  | ok session after =>
    obtain ⟨rfl, own, unchanged | ⟨next, writes, stored⟩⟩ := ends.ok run
    · subst unchanged
      refine ⟨reopens _ rfl (.inl rfl) ?_, rfl⟩
      rintro _ ⟨⟩
      exact ⟨⟨fun _ => ⟨rfl, rfl⟩, kept.nodup, kept, own⟩, rfl⟩
    · obtain rfl := stored
      have kept' := writes.records.kept kept
      refine ⟨reopens _ rfl (.inr writes) ?_, rfl⟩
      rintro _ ⟨⟩
      exact ⟨⟨fun _ => ⟨rfl, rfl⟩, kept'.nodup, kept', own⟩, rfl⟩
  | error e after =>
    rcases ends.error run with unchanged | ⟨next, writes, failed⟩
    · subst unchanged
      exact reopens _ rfl (.inl rfl) nofun
    · rcases failed.durable with before | landed
      · exact reopens (.closed after) failed.binding (.inl before) nofun
      · exact reopens (.closed after) failed.binding (.inr (landed ▸ writes)) nofun

end Ledger

section Running

variable (intact : Intact packages (.running session) calls answers)

include intact

theorem Intact.stage (stage : Session.Stage session after) (within : after.calls.uses ⊆ calls.uses)
    (held : ∀ id nonces, after.nonces[id]? = some nonces → ⟨id, nonces⟩ ∈ calls.draws) :
    Intact packages (.running after) calls answers := by
  have steady := intact.steady session rfl
  refine intact.move (.running after) stage.binding (stage.steady steady).kept
    (stage.outlives steady) (stage.apart steady intact.apart)
    (stage.sourced steady within intact.sourced) ?_ ?_
  · rintro _ ⟨⟩
    exact stage.steady steady
  · rintro _ ⟨⟩
    exact held

theorem Intact.use {nonces : FrostTypes.SigningNonces} (asked : package ∈ packages)
    (found : session.nonces[package.id]? = some nonces)
    (unused : ∀ use ∈ calls.uses, use.package.id ≠ package.id)
    (bound : ∃ record ∈ session.store.durable.records,
      record.id = package.id ∧ record.permanent = true ∧
      ∃ digest, package.digest = .ok digest ∧ record.packageDigest = some digest)
    (share : Option FrostTypes.SignatureShare) :
    Intact packages (.running session)
      (calls.use ⟨package, nonces, session.store.durable, share⟩) answers := by
  refine { intact with
    once := ?_, drawn := ?_, spent := ?_, locked := ?_
    sourced := fun record there bytes cached => ?_ }
  · rw [Calls.use, map_append, nodup_append]
    refine ⟨intact.once, nodup_singleton _, ?_⟩
    intro first one second two same
    obtain ⟨use, member, rfl⟩ := mem_map.mp one
    obtain rfl := mem_singleton.mp two
    exact unused use member same
  · intro use member
    rcases mem_append.mp member with old | new
    · exact intact.drawn use old
    · obtain rfl := mem_singleton.mp new
      exact intact.held session rfl package.id nonces found
  · intro use member
    rcases mem_append.mp member with old | new
    · exact intact.spent use old
    · obtain rfl := mem_singleton.mp new
      obtain ⟨record, there, named, _, digest, _, packaged⟩ := bound
      exact ⟨record, there, named, by rw [packaged]; rfl⟩
  · intro use member
    rcases mem_append.mp member with old | new
    · exact intact.locked use old
    · obtain rfl := mem_singleton.mp new
      exact ⟨asked, bound⟩
  · obtain ⟨share, same, use, called, gave⟩ := intact.sourced record there bytes cached
    exact ⟨share, same, use, mem_append_left _ called, gave⟩

end Running

/-! ## Every operation keeps it -/

section Process

variable (intact : Intact packages (.running session) (past.append session.calls) answers)

include intact

theorem Intact.staged (staged : Session.Staged session after) :
    Intact packages (.running after) (past.append after.calls) answers := by
  have within : after.calls.uses ⊆ (past.append after.calls).uses := subset_append_right _ _
  rw [staged.quiet.calls] at within ⊢
  refine intact.stage staged.stage (staged.quiet.calls ▸ within) fun id nonces found => ?_
  exact intact.held session rfl id nonces (staged.quiet.fewer id nonces found)

/-- Round one is called for an attempt that has not drawn. -/
theorem Intact.drew (drew : Session.Drew id session after)
    (committed : ∃ record ∈ session.store.durable.records,
      record.id = id ∧ record.phase = .committed)
    (undrawn : ∀ draw ∈ (past.append session.calls).draws, draw.id ≠ id) :
    Intact packages (.running after) (past.append after.calls) answers := by
  have within : after.calls.uses ⊆ (past.append after.calls).uses := subset_append_right _ _
  have called : Intact packages (.running session) (past.append after.calls) answers := by
    rcases drew.calls with same | ⟨nonces, logged⟩
    · rw [same]
      exact intact
    · rw [logged, Calls.append_draw]
      exact intact.draw committed undrawn nonces
  refine called.stage drew.stage within fun other nonces found => ?_
  rcases drew.held other nonces found with earlier | drawn
  · exact called.held session rfl other nonces earlier
  · exact mem_append_right _ drawn

/-- Round two is called for an attempt that has not signed, and that is bound to the package. -/
theorem Intact.spend (asked : package ∈ packages) (spent : Session.Spent package session after)
    (unused : ∀ use ∈ (past.append session.calls).uses, use.package.id ≠ package.id)
    (bound : ∃ record ∈ session.store.durable.records,
      record.id = package.id ∧ record.permanent = true ∧
      ∃ digest, package.digest = .ok digest ∧ record.packageDigest = some digest) :
    Intact packages (.running after) (past.append after.calls) answers := by
  have within : after.calls.uses ⊆ (past.append after.calls).uses := subset_append_right _ _
  have called : Intact packages (.running session) (past.append after.calls) answers := by
    rcases spent.calls with same | ⟨nonces, share, found, logged⟩
    · rw [same]
      exact intact
    · rw [logged, Calls.append_use]
      exact intact.use asked found unused bound share
  exact called.stage spent.stage within fun other nonces found =>
    called.held session rfl other nonces (spent.fewer other nonces found)

theorem Intact.commit (policy : Policy) (presence : RootStep → Bool) (seed : Option (FixedBytes 32)) :
    Intact packages (.running (left (Session.commit id now policy presence seed) session))
      (past.append (left (Session.commit id now policy presence seed) session).calls) answers := by
  have steady := intact.steady session rfl
  have locking : Ends session (Session.lock id now policy presence) _ _ :=
    Session.lock_staged steady policy presence
  unfold Session.commit
  cases run : (Session.lock id now policy presence).run session with
  | error e t =>
    rw [left_of_error (by rw [EStateM.run_bind, run])]
    exact intact.staged (locking.error run)
  | ok u locked =>
    obtain ⟨staged, usable, clean, ⟨record, there, named, proposed⟩, committed⟩ := locking.ok run
    have steady' := staged.stage.steady steady
    -- An attempt that has drawn is past its proposal, and this one was proposed.
    have undrawn : ∀ draw ∈ (past.append session.calls).draws, draw.id ≠ id := by
      intro draw member same
      obtain ⟨begun, here, named', started⟩ := intact.begun draw member
      rw [(steady.clean usable).2] at there
      have eq := steady.kept.eq_of_id here there (named'.trans (same.trans named.symm))
      exact started (eq ▸ proposed)
    rw [left_bind run]
    rw [← staged.quiet.calls] at undrawn
    have drew : Session.Drew id locked (left (Session.issue id now seed) locked) :=
      (Session.issue_staged steady' committed seed).left
    rw [(steady'.clean clean).2] at committed
    exact (intact.staged staged).drew drew committed undrawn

theorem Intact.sign (asked : package ∈ packages) :
    Intact packages (.running (left (Session.sign package now) session))
      (past.append (left (Session.sign package now) session).calls)
      (answers ++ Custodian.answer session package now) := by
  have steady := intact.steady session rfl
  have consuming : Ends session (Session.consume package now) _ _ :=
    Session.consume_staged steady package
  rw [Custodian.answer, Session.sign]
  cases run : (Session.consume package now).run session with
  | error e t =>
    have failed : (Session.consume package now >>= Session.conclude package now).run session =
        .error e t := by
      rw [EStateM.run_bind, run]
    rw [left_of_error failed, failed, append_nil]
    exact intact.staged (consuming.error run)
  | ok result spent =>
    have follows : (Session.consume package now >>= Session.conclude package now).run session =
        (Session.conclude package now result).run spent := by
      rw [EStateM.run_bind, run]
    rw [left_bind run, follows]
    cases result with
    | some share =>
      obtain ⟨rfl, usable, record, there, bound, tagged, caches⟩ := consuming.ok run
      rw [(steady.clean usable).2] at there
      dsimp only [Session.conclude]
      rw [tagged]
      exact intact.answer asked there (binds_of_bound bound steady.keyed) fun _ => caches
    | none =>
      obtain ⟨staged, usable, clean, ⟨old, there, named, unpackaged⟩, record, here, bound,
        tagged, consumed, permanent⟩ := consuming.ok run
      have moved := intact.staged staged
      have steady' := staged.stage.steady steady
      have stored : record ∈ spent.store.durable.records := (steady'.clean clean).2 ▸ here
      have binds : Binds spent.store.binding package record := by
        rw [staged.stage.binding]
        exact binds_of_bound bound steady.keyed
      -- An attempt that has signed is bound to a package, and this one was not.
      have unused : ∀ use ∈ (past.append session.calls).uses, use.package.id ≠ package.id := by
        intro use member same
        obtain ⟨begun, held, named', packaged⟩ := intact.spent use member
        rw [(steady.clean usable).2] at there
        have eq := steady.kept.eq_of_id held there (named'.trans (same.trans named.symm))
        rw [eq, unpackaged] at packaged
        cases packaged
      rw [← staged.quiet.calls] at unused
      have locked : ∃ record ∈ spent.store.durable.records,
          record.id = package.id ∧ record.permanent = true ∧
          ∃ digest, package.digest = .ok digest ∧ record.packageDigest = some digest :=
        ⟨record, stored, bound.named, permanent, bound.bound⟩
      have releasing : Ends spent (Session.release package now) _ _ :=
        Session.release_staged steady' package here bound.named consumed bound.bound
      dsimp only [Session.conclude]
      cases run' : (Session.release package now).run spent with
      | error e after =>
        rw [left_of_error run', append_nil]
        exact moved.spend asked (releasing.error run') unused locked
      | ok share after =>
        obtain ⟨released, clean', signed⟩ := releasing.ok run'
        rw [left_of_ok run', tagged]
        rw [((released.stage.steady steady').clean clean').2] at signed
        obtain ⟨later, there', outlived⟩ := released.stage.outlives steady' record stored
        obtain rfl := (released.stage.steady steady').kept.eq_of_id there' signed outlived.id
        have answered := (moved.spend asked released unused locked).answer asked signed
          (released.stage.binding ▸ binds.later outlived)
          fun roundTrip => ⟨_, rfl, roundTrip share⟩
        exact answered

end Process

variable {custodian : Custodian}

theorem Sound.reopen (sound : custodian.Sound packages) (key : Frost.KeyPackage) :
    (custodian.reopen key).Sound packages := by
  have opened := Intact.reopen sound key
  have whole : custodian.calls.append ⟨[], []⟩ = custodian.calls := by
    simp only [Calls.append, append_nil]
  unfold Custodian.reopen
  split
  · rename_i session _ run
    rw [run] at opened
    change Intact _ (.running session) (custodian.calls.append session.calls) _
    rw [opened.2, whole]
    exact opened.1
  · rename_i store run
    rw [run] at opened
    change Intact _ (.closed store) (custodian.calls.append ⟨[], []⟩) _
    rw [whole]
    exact opened

theorem Sound.perform (sound : custodian.Sound packages)
    (running : custodian.machine = .running session) {call : Call}
    (asked : ∀ package now, call = .sign package now → package ∈ packages) :
    (custodian.perform session call).Sound packages := by
  have intact : Intact packages (.running session) (custodian.past.append session.calls)
      custodian.answers := by
    rw [Sound, Custodian.calls, running] at sound
    exact sound
  cases call with
  | propose id step now => exact intact.staged (Session.propose_staged step).left
  | commit id now policy presence seed => exact intact.commit policy presence seed
  | sign package now => exact intact.sign (asked package now rfl)
  | discard id now =>
    exact intact.staged (Session.discard_staged (intact.steady session rfl)).left
  | restart key => exact sound.reopen key

theorem Sound.step (sound : custodian.Sound packages) {call : Call}
    (asked : ∀ package now, call = .sign package now → package ∈ packages) :
    (custodian.step call).Sound packages := by
  unfold Custodian.step
  split
  · exact sound.reopen _
  · exact sound.perform ‹_› asked
  · exact sound

theorem Sound.run (sound : custodian.Sound packages) {calls : List Call}
    (asked : ∀ package now, Call.sign package now ∈ calls → package ∈ packages) :
    (custodian.run calls).Sound packages := by
  induction calls generalizing custodian with
  | nil => exact sound
  | cons call rest ih =>
    refine ih (sound.step fun package now same => ?_) fun package now member =>
      asked package now (mem_cons_of_mem _ member)
    exact asked package now (same ▸ mem_cons_self)

end Custodian

end Machine

end Supgang.Threshold
