/-
# Threshold.Writes — the one write of each stage of an operation

Every stage of an operation hands the store at most one snapshot. This module says what that
snapshot is, whatever the store then makes of it; what a record can be, and that no two rival
commitments are alive at once, follows from that alone.

* `Record.Change`, `Rewrites`, `Snapshot.Writes` — everything a snapshot handed over can change.
* `Record.Legal`, `Record.Later` — what a record satisfies, and what it keeps for good.
* `Clash`, `Apart` — of two commitments under one lock at most one is alive; `Rewrites.apart`.
* `Session.Stage` — where a stage leaves a session; `Drew`, `Spent` — what it has called of FROST.
* `propose_staged`, …, `open_staged` — each stage.
-/
import Supgang.Threshold.Session

namespace Supgang.Threshold

set_option autoImplicit false
set_option linter.unusedSectionVars false

open Theory List

section Machine

variable [Sha256] [Ed25519] [P256] [Frost]

/-! ## Records -/

/-- The record of a proposal that was reviewed and committed to. -/
def Record.commit (record : Record) (review : Review) (now : UInt64) : Record :=
  { record with phase := .committed, review := some review, committedAt := now }

/-- The role the owner's machine reviewed the step under. -/
def Record.role (record : Record) : Option Role := record.review.map Review.role

/-- A record that may still yield a share, or already has. -/
def Record.Alive (record : Record) : Prop :=
  record.permanent = true ∨ record.phase = .committed ∨ record.phase = .noncesIssued

/-- Two commitments under one lock to different steps. -/
def Clash (first second : Record) : Prop :=
  ∃ role, first.role = some role ∧ second.role = some role ∧
    role.SameScope first.step second.step ∧ first.stepDigest ≠ second.stepDigest

theorem Role.SameScope.symm {role : Role} {first second : RootStep}
    (scope : role.SameScope first second) : role.SameScope second first := by
  unfold Role.SameScope at scope ⊢
  split at scope
  · rename_i recovery
    rw [if_pos recovery]
    exact scope.symm
  · rename_i other
    rw [if_neg other]
    exact scope.symm

theorem Clash.symm {first second : Record} (clash : Clash first second) : Clash second first := by
  obtain ⟨role, one, two, scope, differ⟩ := clash
  exact ⟨role, two, one, scope.symm, differ.symm⟩

/-- Of two rivals at most one is alive. -/
def Apart (records : List Record) : Prop :=
  records.Pairwise fun first second => Clash first second → ¬(first.Alive ∧ second.Alive)

/-! ## What a snapshot handed to the store changes -/

/-- One of the calls of round two returned the share for the package that the record is bound
to. -/
def Record.Yielded (record : Record) (uses : List Use) (share : FrostTypes.SignatureShare) : Prop :=
  ∃ use ∈ uses, use.package.id = record.id ∧ use.share = some share ∧
    ∃ digest, use.package.digest = .ok digest ∧ record.packageDigest = some digest

/-- Everything one write can do to one record, after the given calls of round two. -/
inductive Record.Change (uses : List Use) (record : Record) : Record → Prop where
  | keep : record.Change uses record
  | discard : record.Change uses { record with phase := .discarded }
  | commit (review : Review) (now : UInt64) (proposed : record.phase = .proposed) :
      record.Change uses (record.commit review now)
  | issue {commitment : FrostTypes.SigningCommitments} {bytes : Bytes}
      (committed : record.phase = .committed)
      (serialized : Frost.serializeCommitments commitment = some bytes) :
      record.Change uses { record with phase := .noncesIssued, commitment := some bytes }
  | consume (digest : Digest) (issued : record.phase = .noncesIssued) :
      record.Change uses
        { record with
          phase := .noncesConsumed, packageDigest := some digest, permanent := true }
  | sign {share : FrostTypes.SignatureShare} (yielded : record.Yielded uses share)
      (consumed : record.phase = .noncesConsumed) :
      record.Change uses
        { record with phase := .signed, cachedShare := some (Frost.serializeShare share) }

/-- Everything one write can do to the records of a participant. -/
inductive Rewrites (binding : Binding) (uses : List Use) (records : List Record) :
    List Record → Prop where
  | propose {id : SessionId} {step : RootStep} {stepDigest : Digest}
      (fresh : ∀ record ∈ records, record.id ≠ id) (room : records.length < maxRecords)
      (hive : step.hive = binding.hive) (hashed : step.digest = .ok stepDigest) :
      Rewrites binding uses records (records ++ [.proposal id step stepDigest])
  /-- What becomes committed has no living rival. -/
  | change {change : Record → Record}
      (each : ∀ record ∈ records, record.Change uses (change record))
      (alone : ∀ record ∈ records, record.phase = .proposed → (change record).phase = .committed →
        ∀ other ∈ records, other.id ≠ record.id → Clash (change other) (change record) →
          ¬(change other).Alive) :
      Rewrites binding uses records (records.map change)

/-- A snapshot that a session hands to a store in state `before`. -/
structure Snapshot.Writes (binding : Binding) (uses : List Use) (before after : Snapshot) :
    Prop where
  revision : checkedAdd before.revision 1 = some after.revision
  time : before.lastTime ≤ after.lastTime
  records : Rewrites binding uses before.records after.records

/-! ## What a record can be -/

/-- What every record satisfies, from its proposal on. -/
structure Record.Legal (binding : Binding) (record : Record) : Prop where
  hive : record.step.hive = binding.hive
  digest : record.step.digest = .ok record.stepDigest
  unreviewed : record.phase = .proposed → record.review = none
  reviewed : record.phase ≠ .proposed → record.phase ≠ .discarded → record.review.isSome
  permanent : record.permanent = record.packageDigest.isSome
  locked : record.permanent = true → record.review.isSome
  uncommitted : record.phase = .proposed ∨ record.phase = .committed → record.commitment = none
  committed : record.phase = .noncesIssued ∨ record.phase = .noncesConsumed ∨
    record.phase = .signed → record.commitment.isSome
  unpackaged : record.phase = .proposed ∨ record.phase = .committed ∨
    record.phase = .noncesIssued → record.packageDigest = none
  packaged : record.phase = .noncesConsumed ∨ record.phase = .signed → record.packageDigest.isSome
  cached : record.cachedShare.isSome → record.packageDigest.isSome ∧
    (record.phase = .signed ∨ record.phase = .discarded)
  released : record.phase = .signed → record.cachedShare.isSome
  commitments : ∀ bytes ∈ record.commitment, ∃ commitment : FrostTypes.SigningCommitments,
    Frost.serializeCommitments commitment = some bytes
  shares : ∀ bytes ∈ record.cachedShare, ∃ share : FrostTypes.SignatureShare,
    bytes = Frost.serializeShare share

/-- What a record keeps for good. -/
structure Record.Later (before after : Record) : Prop where
  id : after.id = before.id
  step : after.step = before.step
  review : ∀ review ∈ before.review, after.review = some review
  started : before.phase ≠ .proposed → after.phase ≠ .proposed
  package : ∀ digest ∈ before.packageDigest,
    after.packageDigest = some digest ∧ after.commitment = before.commitment
  share : ∀ bytes ∈ before.cachedShare, after.cachedShare = some bytes

theorem Record.Later.refl (record : Record) : record.Later record :=
  ⟨rfl, rfl, fun _ found => found, fun h => h, fun _ found => ⟨found, rfl⟩, fun _ found => found⟩

namespace Record

variable {binding : Binding} {uses : List Use} {record after : Record}

theorem legal_proposal {id : SessionId} {step : RootStep} {stepDigest : Digest}
    (hive : step.hive = binding.hive) (hashed : step.digest = .ok stepDigest) :
    (proposal id step stepDigest).Legal binding where
  hive := hive
  digest := hashed
  unreviewed _ := rfl
  reviewed h := absurd rfl h
  permanent := rfl
  locked := nofun
  uncommitted _ := rfl
  committed := nofun
  unpackaged _ := rfl
  packaged := nofun
  cached := nofun
  released := nofun
  commitments := nofun
  shares := nofun

theorem Change.legal (change : record.Change uses after) (legal : record.Legal binding) :
    after.Legal binding := by
  cases change with
  | keep => exact legal
  | discard =>
    exact { legal with
      unreviewed := nofun
      reviewed := fun _ h => absurd rfl h
      uncommitted := nofun
      committed := nofun
      unpackaged := nofun
      packaged := nofun
      cached := fun h => ⟨(legal.cached h).1, .inr rfl⟩
      released := nofun }
  | commit review now proposed =>
    exact { legal with
      unreviewed := nofun
      reviewed := fun _ _ => rfl
      locked := fun _ => rfl
      uncommitted := fun _ => legal.uncommitted (.inl proposed)
      committed := nofun
      unpackaged := fun _ => legal.unpackaged (.inl proposed)
      packaged := nofun
      cached := fun h => by
        have := (legal.cached h).1
        rw [legal.unpackaged (.inl proposed)] at this
        cases this
      released := nofun }
  | @issue commitment bytes committed serialized =>
    exact { legal with
      unreviewed := nofun
      reviewed := fun _ _ => legal.reviewed (by rw [committed]; nofun) (by rw [committed]; nofun)
      uncommitted := nofun
      committed := fun _ => rfl
      unpackaged := fun _ => legal.unpackaged (.inr (.inl committed))
      packaged := nofun
      cached := fun h => by
        have := (legal.cached h).1
        rw [legal.unpackaged (.inr (.inl committed))] at this
        cases this
      released := nofun
      commitments := by
        rintro _ ⟨⟩
        exact ⟨commitment, serialized⟩ }
  | consume digest issued =>
    have reviewed := legal.reviewed (by rw [issued]; nofun) (by rw [issued]; nofun)
    exact { legal with
      unreviewed := nofun
      reviewed := fun _ _ => reviewed
      permanent := rfl
      locked := fun _ => reviewed
      uncommitted := nofun
      committed := fun _ => legal.committed (.inl issued)
      unpackaged := nofun
      packaged := fun _ => rfl
      cached := fun h => by
        have := (legal.cached h).1
        rw [legal.unpackaged (.inr (.inr issued))] at this
        cases this
      released := nofun }
  | @sign share yielded consumed =>
    have packaged := legal.packaged (.inl consumed)
    exact { legal with
      unreviewed := nofun
      reviewed := fun _ _ =>
        legal.reviewed (by rw [consumed]; nofun) (by rw [consumed]; nofun)
      uncommitted := nofun
      committed := fun _ => legal.committed (.inr (.inl consumed))
      unpackaged := nofun
      packaged := fun _ => packaged
      cached := fun _ => ⟨packaged, .inl rfl⟩
      released := fun _ => rfl
      shares := by
        rintro _ ⟨⟩
        exact ⟨share, rfl⟩ }

theorem Legal.uncached (legal : record.Legal binding) (signed : record.phase ≠ .signed)
    (discarded : record.phase ≠ .discarded) : record.cachedShare = none := by
  cases cached : record.cachedShare with
  | none => rfl
  | some bytes =>
    rcases (legal.cached (by rw [cached]; rfl)).2 with h | h
    · exact absurd h signed
    · exact absurd h discarded

/-- The package and the share of an attempt are written once. -/
theorem Change.later (change : record.Change uses after) (legal : record.Legal binding) :
    record.Later after := by
  cases change with
  | keep => exact .refl record
  | discard => exact { Later.refl record with started := nofun }
  | commit review now proposed =>
    refine { Later.refl record with started := nofun, review := ?_ }
    rintro earlier found
    rw [legal.unreviewed proposed] at found
    cases found
  | issue committed serialized =>
    have fresh := legal.unpackaged (.inr (.inl committed))
    refine { Later.refl record with started := nofun, package := ?_ }
    rintro digest found
    rw [fresh] at found
    cases found
  | consume digest issued =>
    have fresh := legal.unpackaged (.inr (.inr issued))
    refine { Later.refl record with started := nofun, package := ?_ }
    rintro digest found
    rw [fresh] at found
    cases found
  | sign yielded consumed =>
    have fresh : record.cachedShare = none :=
      legal.uncached (by rw [consumed]; nofun) (by rw [consumed]; nofun)
    refine { Later.refl record with started := nofun, share := ?_ }
    rintro bytes found
    rw [fresh] at found
    cases found

theorem Change.id (change : record.Change uses after) : after.id = record.id := by
  cases change <;> rfl

theorem Legal.permanent_of_packaged (legal : record.Legal binding)
    (packaged : record.packageDigest.isSome) : record.permanent = true :=
  legal.permanent.trans packaged

/-- A permanent lock was taken under a role. -/
theorem Legal.role (legal : record.Legal binding) (permanent : record.permanent = true) :
    ∃ role, record.role = some role := by
  obtain ⟨review, reviewed⟩ := Option.isSome_iff_exists.mp (legal.locked permanent)
  exact ⟨review.role, by rw [Record.role, reviewed, Option.map_some]⟩

/-- The record keeps its step and its review, and is alive only if it was. -/
structure Tame (before after : Record) : Prop where
  step : after.step = before.step
  stepDigest : after.stepDigest = before.stepDigest
  role : after.role = before.role
  alive : after.Alive → before.Alive

theorem Tame.refl (record : Record) : record.Tame record := ⟨rfl, rfl, rfl, fun h => h⟩

/-- Only a commitment gives a record a new life. -/
theorem Change.tame (change : record.Change uses after) (legal : record.Legal binding) :
    record.Tame after ∨ record.phase = .proposed ∧ after.phase = .committed := by
  cases change with
  | keep => exact .inl (.refl record)
  | discard =>
    refine .inl ⟨rfl, rfl, rfl, ?_⟩
    rintro (permanent | phase | phase)
    · exact .inl permanent
    · cases phase
    · cases phase
  | commit review now proposed => exact .inr ⟨proposed, rfl⟩
  | issue committed => exact .inl ⟨rfl, rfl, rfl, fun _ => .inr (.inl committed)⟩
  | consume digest issued => exact .inl ⟨rfl, rfl, rfl, fun _ => .inr (.inr issued)⟩
  | sign yielded consumed =>
    have permanent := legal.permanent_of_packaged (legal.packaged (.inl consumed))
    exact .inl ⟨rfl, rfl, rfl, fun _ => .inl permanent⟩

end Record

theorem Clash.of_tame {first second first' second' : Record} (one : first.Tame first')
    (two : second.Tame second') (clash : Clash first' second') : Clash first second := by
  unfold Clash at clash ⊢
  rwa [one.role, two.role, one.step, two.step, one.stepDigest, two.stepDigest] at clash

/-- Where the record caches a share, round two returned it. -/
def Record.Sourced (record : Record) (uses : List Use) : Prop :=
  ∀ bytes ∈ record.cachedShare, ∃ share, bytes = Frost.serializeShare share ∧
    record.Yielded uses share

/-- The share that the record of an attempt caches. -/
def Record.Caches (record : Record) (share : FrostTypes.SignatureShare) : Prop :=
  ∃ bytes, record.cachedShare = some bytes ∧ Frost.deserializeShare bytes = some share

/-- The records a store can hold: no id twice, no more than the lifetime bound, each legal. -/
structure Kept (binding : Binding) (records : List Record) : Prop where
  nodup : (records.map Record.id).Nodup
  few : records.length ≤ maxRecords
  legal : ∀ record ∈ records, record.Legal binding

section Records

variable {binding : Binding} {uses log : List Use} {records altered : List Record}

theorem Kept.eq_of_id (kept : Kept binding records) {first second : Record}
    (one : first ∈ records) (two : second ∈ records) (same : first.id = second.id) :
    first = second :=
  inj_on_of_nodup_map kept.nodup one two same

theorem Rewrites.kept (rewrites : Rewrites binding uses records altered)
    (kept : Kept binding records) : Kept binding altered := by
  cases rewrites with
  | @propose id step stepDigest fresh room hive hashed =>
    refine ⟨?_, ?_, ?_⟩
    · rw [map_append, nodup_append]
      refine ⟨kept.nodup, nodup_singleton _, ?_⟩
      intro first one second two same
      obtain ⟨record, member, rfl⟩ := mem_map.mp one
      obtain rfl := mem_singleton.mp two
      exact fresh record member same
    · rw [length_append, length_singleton]
      exact room
    · intro record member
      rcases mem_append.mp member with old | new
      · exact kept.legal record old
      · obtain rfl := mem_singleton.mp new
        exact Record.legal_proposal hive hashed
  | @change change each alone =>
    refine ⟨?_, ?_, ?_⟩
    · have ids : (records.map change).map Record.id = records.map Record.id := by
        rw [map_map]
        exact map_congr_left fun record member => (each record member).id
      rw [ids]
      exact kept.nodup
    · rw [length_map]
      exact kept.few
    · intro record member
      obtain ⟨before, there, rfl⟩ := mem_map.mp member
      exact (each before there).legal (kept.legal before there)

/-- Each record is found again, with what it keeps. -/
def Outlives (records altered : List Record) : Prop :=
  ∀ record ∈ records, ∃ after ∈ altered, record.Later after

theorem Outlives.refl (records : List Record) : Outlives records records :=
  fun record member => ⟨record, member, .refl record⟩

theorem Rewrites.outlives (rewrites : Rewrites binding uses records altered)
    (kept : Kept binding records) : Outlives records altered := by
  intro record member
  cases rewrites with
  | propose => exact ⟨record, mem_append_left _ member, .refl record⟩
  | change each alone =>
    exact ⟨_, mem_map_of_mem member, (each record member).later (kept.legal record member)⟩

theorem Record.Change.sourced {record after : Record} (change : record.Change uses after)
    (within : uses ⊆ log) (legal : record.Legal binding) (sourced : record.Sourced log) :
    after.Sourced log := by
  cases change with
  | keep | discard | commit | issue => exact sourced
  | consume digest issued =>
    have uncached := legal.uncached (by rw [issued]; nofun) (by rw [issued]; nofun)
    intro bytes cached
    rw [Option.mem_def, uncached] at cached
    cases cached
  | @sign share yielded consumed =>
    obtain ⟨use, called, gave⟩ := yielded
    rintro _ ⟨⟩
    exact ⟨share, rfl, use, within called, gave⟩

/-- A write caches no share that round two has not returned. -/
theorem Rewrites.sourced (rewrites : Rewrites binding uses records altered) (within : uses ⊆ log)
    (kept : Kept binding records) (sourced : ∀ record ∈ records, record.Sourced log) :
    ∀ record ∈ altered, record.Sourced log := by
  intro record member
  cases rewrites with
  | propose =>
    rcases mem_append.mp member with old | new
    · exact sourced record old
    · obtain rfl := mem_singleton.mp new
      exact nofun
  | change each alone =>
    obtain ⟨before, there, rfl⟩ := mem_map.mp member
    exact (each before there).sourced within (kept.legal before there) (sourced before there)

/-- No write lets two rivals live. -/
theorem Rewrites.apart (rewrites : Rewrites binding uses records altered)
    (kept : Kept binding records) (apart : Apart records) : Apart altered := by
  cases rewrites with
  | propose =>
    refine pairwise_append.mpr ⟨apart, pairwise_singleton _ _, ?_⟩
    intro first _ second member _ alive
    obtain rfl := mem_singleton.mp member
    rcases alive.2 with h | h | h <;> cases h
  | @change change each alone =>
    refine pairwise_map.mpr ?_
    have distinct : records.Pairwise fun first second => first.id ≠ second.id :=
      pairwise_map.mp kept.nodup
    refine (distinct.and apart).imp_of_mem ?_
    rintro first second one two ⟨differ, before⟩ clash ⟨alive, alive'⟩
    rcases (each second two).tame (kept.legal second two) with tame' | ⟨proposed, committed⟩
    · rcases (each first one).tame (kept.legal first one) with tame | ⟨proposed, committed⟩
      · exact before (clash.of_tame tame tame') ⟨tame.alive alive, tame'.alive alive'⟩
      · exact alone first one proposed committed second two differ.symm clash.symm alive'
    · exact alone second two proposed committed first one differ clash alive

/-- A change of the one record of an attempt, which does not commit it. -/
theorem Rewrites.update (nodup : (records.map Record.id).Nodup) {id : SessionId}
    {change : Record → Record} (run : updateRecord id change records = .ok altered)
    (changes : ∀ record ∈ records, record.id = id → record.Change uses (change record))
    (calm : ∀ record, (change record).phase ≠ .committed) :
    Rewrites binding uses records altered := by
  obtain ⟨_, rfl⟩ := Session.updateRecord_eq_map nodup run
  refine .change (fun record member => ?_) fun record member proposed committed => ?_
  · split
    · exact changes record member ‹_›
    · exact .keep
  · split at committed
    · exact absurd committed (calm record)
    · rw [proposed] at committed
      cases committed

end Records

/-! ## Where a stage leaves the store -/

/-- The store made the write. -/
def Store.Stored (store : Store) (next : Snapshot) (after : Store) : Prop :=
  after = { store with state := next, durable := next, fates := store.fates.tail }

/-- The store reported an error, which is the environment's doing or that of an earlier one. -/
structure Store.Failed (store : Store) (next : Snapshot) (after : Store) : Prop where
  binding : after.binding = store.binding
  state : after.state = store.state
  durable : after.durable = store.durable ∨ after.durable = next
  cause : store.poisoned = true ∨ store.fates.headD .stored ≠ .stored

theorem Store.replace_writes (store : Store) (next : Snapshot) :
    Ends store (Store.replace store.state.revision next) (fun _ => store.Stored next)
      (store.Failed next) := by
  unfold Ends EStateM.run Store.replace
  by_cases poisoned : store.poisoned = true
  · rw [if_pos (.inl poisoned)]
    exact ⟨rfl, rfl, .inl rfl, .inl poisoned⟩
  · rw [if_neg (by simp [poisoned])]
    cases fate : store.fates.headD .stored with
    | stored => exact rfl
    | refused error => exact ⟨rfl, rfl, .inl rfl, .inr (by rw [fate]; nofun)⟩
    | lost error landed =>
      refine ⟨rfl, rfl, ?_, .inr (by rw [fate]; nofun)⟩
      cases landed with
      | true => exact .inr rfl
      | false => exact .inl rfl

namespace Session

/-- A session over legal records, opened with the share of its participant. -/
structure Steady (session : Session) : Prop where
  clean : session.poisoned = false →
    session.store.poisoned = false ∧ session.store.state = session.store.durable
  view : (session.store.state.records.map Record.id).Nodup
  kept : Kept session.store.binding session.store.durable.records
  keyed : Frost.identifier session.store.binding.participant = some session.key.identifier

/-- The role that the attempt was reviewed under. -/
def roleOf (session : Session) (id : SessionId) : Option Role :=
  (session.record id).toOption.bind Record.role

/-- Where a stage leaves a session: at most one write, over the calls into FROST by then. -/
inductive Stage (before after : Session) : Prop where
  | idle (kept : Keeps before after)
  | stored {next : Snapshot} (clean : before.poisoned = false)
      (writes : before.store.state.Writes before.store.binding after.calls.uses next)
      (store : before.store.Stored next after.store) (key : after.key = before.key)
      (usable : after.poisoned = false)
  | failed {next : Snapshot} (clean : before.poisoned = false)
      (writes : before.store.state.Writes before.store.binding after.calls.uses next)
      (store : before.store.Failed next after.store) (key : after.key = before.key)
      (poisoned : after.poisoned = true)

/-- The nonces in memory are among the earlier ones. -/
def Fewer (before after : Session) : Prop :=
  ∀ (id : SessionId) (nonces : FrostTypes.SigningNonces),
    after.nonces[id]? = some nonces → before.nonces[id]? = some nonces

/-- FROST was not called, and nonces were only forgotten. -/
structure Quiet (before after : Session) : Prop where
  fewer : Fewer before after
  calls : after.calls = before.calls

/-- Where a stage that does not call FROST leaves a session. -/
structure Staged (before after : Session) : Prop where
  stage : Stage before after
  quiet : Quiet before after

/-- Where `issue` leaves a session: round one was called at most once, and what came into memory is
what it returned. -/
structure Drew (id : SessionId) (before after : Session) : Prop where
  stage : Stage before after
  calls : after.calls = before.calls ∨ ∃ nonces, after.calls = before.calls.draw ⟨id, nonces⟩
  held : ∀ (other : SessionId) (nonces : FrostTypes.SigningNonces),
    after.nonces[other]? = some nonces →
      before.nonces[other]? = some nonces ∨ ⟨other, nonces⟩ ∈ after.calls.draws

/-- Where `release` leaves a session: round two was called at most once, with the nonces of the
attempt and over what was durable before. -/
structure Spent (package : Package) (before after : Session) : Prop where
  stage : Stage before after
  fewer : Fewer before after
  calls : after.calls = before.calls ∨ ∃ nonces share,
    before.nonces[package.id]? = some nonces ∧
      after.calls = before.calls.use ⟨package, nonces, before.store.durable, share⟩

variable {session middle after : Session} {id : SessionId} {now : UInt64} {next : Snapshot}

theorem next_eq_ok (h : session.next now = .ok next) :
    session.poisoned = false ∧ next.records = session.store.state.records ∧
      checkedAdd session.store.state.revision 1 = some next.revision ∧
      session.store.state.lastTime ≤ next.lastTime := by
  unfold Session.next at h
  obtain ⟨usable, h⟩ := reject_bind_eq_ok.mp h
  obtain ⟨revision, counted, h⟩ := bind_eq_ok.mp h
  obtain rfl := pure_eq_ok.mp h
  obtain ⟨clean, time⟩ := not_or.mp usable
  exact ⟨Bool.eq_false_iff.mpr clean, rfl, okOr_eq_ok.mp counted, UInt64.not_lt.mp time⟩

theorem record_eq_ok {record : Record} (h : session.record id = .ok record) :
    session.poisoned = false ∧ record ∈ session.store.state.records ∧ record.id = id := by
  unfold Session.record at h
  obtain ⟨usable, h⟩ := reject_bind_eq_ok.mp h
  have found := okOr_eq_ok.mp h
  exact ⟨Bool.eq_false_iff.mpr usable, mem_of_find?_eq_some found,
    by simpa using List.find?_some found⟩

theorem validatePackage_message {package : Package} {record : Record} {u : Unit}
    (valid : session.validatePackage package record = .ok u) :
    record.step.message = .ok package.signing.message := by
  simp only [validatePackage, ok_steps, not_or, not_not] at valid
  obtain ⟨_, _, _, _, _, _, message, encoded, _, ⟨same, _⟩, _⟩ := valid
  rw [encoded, same]

theorem Fewer.erase (session : Session) (id : SessionId) :
    Fewer session { session with nonces := session.nonces.erase id } := by
  intro other nonces found
  change (session.nonces.erase id)[other]? = some nonces at found
  rw [getElem?_erase_eq] at found
  split at found
  · cases found
  · exact found

theorem Fewer.refl (session : Session) : Fewer session session := fun _ _ found => found

theorem Fewer.trans (one : Fewer session middle) (two : Fewer middle after) : Fewer session after :=
  fun id nonces found => one id nonces (two id nonces found)

theorem Quiet.refl (session : Session) : Quiet session session := ⟨.refl session, rfl⟩

theorem Quiet.trans (one : Quiet session middle) (two : Quiet middle after) : Quiet session after :=
  ⟨one.fewer.trans two.fewer, two.calls.trans one.calls⟩

theorem Quiet.erase (session : Session) (id : SessionId) :
    Quiet session { session with nonces := session.nonces.erase id } :=
  ⟨.erase session id, rfl⟩

theorem Staged.refl (session : Session) : Staged session session :=
  ⟨.idle (.refl session), .refl session⟩

theorem Stage.after_keeps (kept : Keeps session middle) (stage : Stage middle after) :
    Stage session after := by
  obtain ⟨store, key, poisoned⟩ := kept
  cases stage with
  | idle later => exact .idle (Keeps.trans ⟨store, key, poisoned⟩ later)
  | stored clean writes stored key' usable =>
    exact .stored (poisoned ▸ clean) (store ▸ writes) (store ▸ stored) (key'.trans key) usable
  | failed clean writes failed key' broken =>
    exact .failed (poisoned ▸ clean) (store ▸ writes) (store ▸ failed) (key'.trans key) broken

theorem persist_staged (clean : session.poisoned = false)
    (writes : session.store.state.Writes session.store.binding session.calls.uses next) :
    Ends session (persist next)
      (fun _ after => Staged session after ∧ after.nonces = session.nonces ∧
        after.store.state = next ∧ after.store.durable = next ∧ after.poisoned = false)
      (fun after => Staged session after) := by
  have whole := session.store.replace_writes next
  unfold persist Ends EStateM.run at *
  split at whole
  · rename_i stored
    simp only [stored, true_and, and_true]
    refine ⟨⟨.stored clean writes whole rfl rfl, .refl session, rfl⟩, ?_⟩
    rw [whole]
    exact ⟨rfl, rfl⟩
  · rename_i failed
    simp only [failed]
    exact ⟨.failed clean writes whole rfl rfl, .refl session, rfl⟩

/-- A write after the stage forgot nonces or called FROST. -/
theorem persist_after (kept : Keeps session middle) (clean : session.poisoned = false)
    (writes : session.store.state.Writes session.store.binding middle.calls.uses next) :
    Ends middle (persist next)
      (fun _ after => (Stage session after ∧ Quiet middle after) ∧ after.nonces = middle.nonces ∧
        after.store.state = next ∧ after.store.durable = next ∧ after.poisoned = false)
      (fun after => Stage session after ∧ Quiet middle after) := by
  rw [← kept.1] at writes
  exact (persist_staged (kept.2.2.trans clean) writes).mono
    (fun _ _ done => ⟨⟨done.1.stage.after_keeps kept, done.1.quiet⟩, done.2⟩)
    fun _ failed => ⟨failed.stage.after_keeps kept, failed.quiet⟩

theorem next_writes {records : List Record} {uses : List Use} (h : session.next now = .ok next)
    (rewrites : Rewrites session.store.binding uses session.store.state.records records) :
    session.poisoned = false ∧
      session.store.state.Writes session.store.binding uses { next with records } := by
  obtain ⟨clean, -, counted, time⟩ := next_eq_ok h
  exact ⟨clean, counted, time, rewrites⟩

/-! ## What each stage writes -/

theorem propose_staged (step : RootStep) :
    Ends session (propose id step now) (fun _ => Staged session) (Staged session) := by
  have stays := Staged.refl session
  refine .get (.reject stays fun hive => .ofExcept stays fun stepDigest hashed =>
    .ofExcept stays fun following ready => .reject stays fun room => .reject stays fun fresh => ?_)
  have records := (next_eq_ok ready).2.1
  rw [records] at room fresh
  have rewrites : Rewrites session.store.binding session.calls.uses session.store.state.records
      (session.store.state.records ++ [.proposal id step stepDigest]) := by
    refine .propose (fun record member same => fresh ?_) (not_le.mp room) (not_not.mp hive) hashed
    exact any_eq_true.mpr ⟨record, member, decide_eq_true same⟩
  obtain ⟨clean, writes⟩ := next_writes ready rewrites
  rw [← records] at writes
  exact (persist_staged clean writes).mono (fun _ _ done => done.1) fun _ failed => failed

theorem retire_quiet (record : Record) (review : Review) (now : UInt64) (prior : Record)
    (session : Session) :
    Ends session (retire record review now prior) (fun _ => Quiet session) (Quiet session) := by
  have stays := Quiet.refl session
  unfold retire
  split
  · refine .ofExcept stays fun deadline _ => .reject stays fun _ => ?_
    split
    · exact .bind (b := ()) rfl (.pure (Quiet.erase session prior.id))
    · exact .pure stays
  · exact .pure stays

/-- The scan forgets nonces and draws none. -/
theorem lockScan_quiet (record : Record) (review : Review) (now : UInt64) (records : List Record)
    (session : Session) :
    Ends session (lockScan record review now records) (fun _ => Quiet session)
      (Quiet session) := by
  induction records generalizing session with
  | nil => exact .pure (.refl session)
  | cons prior rest ih =>
    refine .seq (retire_quiet record review now prior session) fun _ middle first => ?_
    refine .seq ((ih middle).mono (fun _ _ => first.trans) fun _ => first.trans) ?_
    exact fun _ _ later => .pure later

theorem settle_change {uses : List Use} (record : Record) (review : Review) (now : UInt64)
    (prior : Record) : prior.Change uses (record.settle review now prior) := by
  unfold Record.settle
  split
  · exact .discard
  · exact .keep

theorem settle_id (record : Record) (review : Review) (now : UInt64) (prior : Record) :
    (record.settle review now prior).id = prior.id := by
  unfold Record.settle
  split <;> rfl

/-- A rival that the scan made give way is dead. -/
theorem settle_dead {binding : Binding} {record prior : Record} {review : Review}
    (legal : prior.Legal binding) (differ : prior.id ≠ record.id)
    (yields : record.Yields review now prior)
    (clash : Clash (record.settle review now prior) (record.commit review now)) :
    ¬(record.settle review now prior).Alive := by
  have kept : (record.settle review now prior).role = prior.role ∧
      (record.settle review now prior).step = prior.step ∧
      (record.settle review now prior).stepDigest = prior.stepDigest ∧
      (record.settle review now prior).permanent = prior.permanent := by
    unfold Record.settle
    split <;> exact ⟨rfl, rfl, rfl, rfl⟩
  obtain ⟨role, under, under', scope, rival⟩ := clash
  obtain rfl := Option.some.inj under'
  rw [kept.1] at under
  rw [kept.2.1] at scope
  rw [kept.2.2.1] at rival
  obtain ⟨earlier, found, same⟩ := Option.map_eq_some_iff.mp under
  -- A reviewed rival is a contender, so the scan had to make it give way.
  have contends : record.Contender review prior := by
    refine ⟨differ, fun phase => ?_, ?_, scope⟩
    · rw [legal.unreviewed phase] at found
      cases found
    · rw [found, Option.any_some, decide_eq_true_eq]
      exact same
  obtain ⟨passing, discarded⟩ := yields contends rival
  rintro (permanent | phase | phase)
  · rw [kept.2.2.2, passing] at permanent
    cases permanent
  · rw [discarded] at phase
    cases phase
  · rw [discarded] at phase
    cases phase

/-- The commitment of a reviewed proposal, over the records the scan left. -/
theorem commit_rewrites {binding : Binding} {uses : List Use} {records altered : List Record}
    {record : Record} {review : Review} (kept : Kept binding records) (member : record ∈ records)
    (proposed : record.phase = .proposed)
    (yields : ∀ prior ∈ records, record.Yields review now prior)
    (updated : updateRecord record.id (fun selected =>
      { selected with phase := .committed, review := some review, committedAt := now })
      (records.map (record.settle review now)) = .ok altered) :
    Rewrites binding uses records altered ∧ record.commit review now ∈ altered := by
  have ids : (records.map (record.settle review now)).map Record.id = records.map Record.id := by
    rw [map_map]
    exact map_congr_left fun prior _ => settle_id record review now prior
  obtain ⟨_, rfl⟩ := updateRecord_eq_map (ids ▸ kept.nodup) updated
  rw [map_map]
  let change := (fun selected : Record => if selected.id = record.id then
    selected.commit review now else selected) ∘ record.settle review now
  have committed : change record = record.commit review now := by
    have same : record.settle review now record = record := if_neg fun h => h.1.1 rfl
    dsimp only [change, Function.comp_apply]
    rw [same, if_pos rfl]
  have others : ∀ prior, prior.id ≠ record.id → change prior = record.settle review now prior :=
    fun prior differ => if_neg fun same => differ ((settle_id record review now prior).symm.trans same)
  have rewrites : Rewrites binding uses records (records.map change) := by
    refine .change (fun prior there => ?_) ?_
    · by_cases eq : prior.id = record.id
      · obtain rfl := kept.eq_of_id there member eq
        rw [committed]
        exact .commit review now proposed
      · rw [others prior eq]
        exact settle_change record review now prior
    · intro fresh there unlocked locks other here differ clash
      by_cases eq : fresh.id = record.id
      · obtain rfl := kept.eq_of_id there member eq
        rw [committed, others other differ] at clash
        rw [others other differ]
        exact settle_dead (kept.legal other here) differ (yields other here) clash
      · rw [others fresh eq, Record.settle] at locks
        split at locks
        · cases locks
        · rw [unlocked] at locks
          cases locks
  exact ⟨rewrites, committed ▸ mem_map_of_mem member⟩

/-- The package of an attempt, checked against its record and durably bound to it. -/
structure Bound (session : Session) (package : Package) (record : Record) : Prop where
  named : record.id = package.id
  valid : session.validatePackage package record = .ok ()
  bound : ∃ digest, package.digest = .ok digest ∧ record.packageDigest = some digest

section Steady

variable (steady : session.Steady)

include steady

theorem discard_staged :
    Ends session (discard id now) (fun _ => Staged session) (Staged session) := by
  have kept : Keeps session { session with nonces := session.nonces.erase id } := ⟨rfl, rfl, rfl⟩
  have quiet := Quiet.erase session id
  have stays : Staged session { session with nonces := session.nonces.erase id } :=
    ⟨.idle kept, quiet⟩
  refine .bind (b := ()) rfl (.get (.ofExcept stays fun following ready =>
    .ofExcept stays fun records updated => ?_))
  rw [(next_eq_ok ready).2.1] at updated
  have rewrites : Rewrites session.store.binding session.calls.uses session.store.state.records records :=
    .update steady.view updated (fun _ _ _ => .discard) fun _ => nofun
  obtain ⟨clean, writes⟩ := next_writes ready rewrites
  exact (persist_after kept clean writes).mono
    (fun _ _ done => ⟨done.1.1, quiet.trans done.1.2⟩)
    fun _ failed => ⟨failed.1, quiet.trans failed.2⟩

/-- A locked attempt was proposed, and is committed. -/
theorem lock_staged (policy : Policy) (presence : RootStep → Bool) :
    Ends session (lock id now policy presence)
      (fun _ after => Staged session after ∧ session.poisoned = false ∧ after.poisoned = false ∧
        (∃ record ∈ session.store.state.records, record.id = id ∧ record.phase = .proposed) ∧
        ∃ record ∈ after.store.state.records, record.id = id ∧ record.phase = .committed)
      (Staged session) := by
  have stays := Staged.refl session
  refine .get (.ofExcept stays fun record found => .reject stays fun phase =>
    .ofExcept stays fun review reviewed => .ofExcept stays fun following ready => ?_)
  obtain ⟨usable, member, rfl⟩ := record_eq_ok found
  have proposed := not_not.mp phase
  have source := (next_eq_ok ready).2.1
  have scan := (lockScan_ends record review now following.records session).and
    (lockScan_quiet record review now following.records session)
  refine .seq (scan.mono (fun _ _ done => done) fun _ kept => ⟨.idle kept.1, kept.2⟩) ?_
  rintro _ scanned ⟨⟨rfl, yields, kept⟩, quiet⟩
  have scanned' : Staged session scanned := ⟨.idle kept, quiet⟩
  refine .reject scanned' fun _ => .ofExcept scanned' fun locked updated => ?_
  rw [source] at yields updated
  have legal : Kept session.store.binding session.store.state.records :=
    (steady.clean usable).2 ▸ steady.kept
  obtain ⟨rewrites, placed⟩ := commit_rewrites legal member proposed yields updated
  obtain ⟨clean, writes⟩ := next_writes ready rewrites
  refine (persist_after kept clean writes).mono (fun _ after done => ?_)
    fun _ failed => ⟨failed.1, quiet.trans failed.2⟩
  refine ⟨⟨done.1.1, quiet.trans done.1.2⟩, usable, done.2.2.2.2,
    ⟨record, member, rfl, proposed⟩, ?_⟩
  rw [done.2.2.1]
  exact ⟨_, placed, rfl, rfl⟩

/-- The public commitment is durable before the nonces behind it are in memory. -/
theorem issue_staged
    (committed : ∃ record ∈ session.store.state.records, record.id = id ∧ record.phase = .committed)
    (seed : Option (FixedBytes 32)) :
    Ends session (issue id now seed) (fun _ => Drew id session) (Drew id session) := by
  have stays : Drew id session session :=
    ⟨.idle (.refl session), .inl rfl, fun _ _ found => .inl found⟩
  refine .ofExcept stays fun seed _ => ?_
  let drawn := Frost.commit session.key.signingShare seed
  let logged := { session with calls := session.calls.draw ⟨id, drawn.1⟩ }
  have kept : Keeps session logged := ⟨rfl, rfl, rfl⟩
  have called : Drew id session logged :=
    ⟨.idle kept, .inr ⟨drawn.1, rfl⟩, fun _ _ found => .inl found⟩
  refine .bind rfl (.get (.ofExcept called fun following ready =>
    .ofExcept called fun bytes serialized => .ofExcept called fun issued updated => ?_))
  have source : following.records = session.store.state.records := (next_eq_ok ready).2.1
  rw [source] at updated
  obtain ⟨selected, member, named, phase⟩ := committed
  have rewrites : Rewrites session.store.binding session.calls.uses session.store.state.records
      issued := by
    refine .update steady.view updated (fun record there same => ?_) fun _ => nofun
    obtain rfl := inj_on_of_nodup_map steady.view there member (same.trans named.symm)
    exact .issue phase (okOr_eq_ok.mp serialized)
  obtain ⟨clean, writes⟩ := next_writes ready rewrites
  refine .seq ((persist_after kept clean writes).mono_error fun after failed => ?_) ?_
  · exact ⟨failed.1, .inr ⟨drawn.1, failed.2.calls⟩,
      fun _ _ found => .inl (failed.2.fewer _ _ found)⟩
  rintro _ final ⟨⟨stage, quiet⟩, nonces, -⟩
  refine .bind (b := ()) rfl (.pure ⟨?_, .inr ⟨drawn.1, quiet.calls⟩, ?_⟩)
  · cases stage with
    | idle kept => exact .idle kept
    | stored clean writes store key usable => exact .stored clean writes store key usable
    | failed clean writes store key poisoned => exact .failed clean writes store key poisoned
  · intro other found held
    change (final.nonces.insert id drawn.1)[other]? = some found at held
    rw [getElem?_insert_eq] at held
    split at held
    · rename_i same
      obtain rfl := Option.some.inj held
      refine .inr ?_
      change _ ∈ final.calls.draws
      rw [quiet.calls, ← same]
      exact mem_append_right _ mem_cons_self
    · exact .inl (nonces ▸ held)

/-- A retry changes nothing; otherwise the nonces of an attempt without a package are durably spent
on this one. -/
theorem consume_staged (package : Package) : Ends session (consume package now)
      (fun result after => match result with
        | some share => after = session ∧ session.poisoned = false ∧
            ∃ record ∈ session.store.state.records, session.Bound package record ∧
              session.roleOf package.id = record.role ∧ record.Caches share
        | none => Staged session after ∧ session.poisoned = false ∧ after.poisoned = false ∧
            (∃ record ∈ session.store.state.records, record.id = package.id ∧
              record.packageDigest = none) ∧
            ∃ record ∈ after.store.state.records, session.Bound package record ∧
              session.roleOf package.id = record.role ∧ record.phase = .noncesConsumed ∧
              record.permanent = true)
      (Staged session) := by
  have stays := Staged.refl session
  refine .get (.ofExcept stays fun following ready => .ofExcept stays fun record found =>
    .ofExcept stays fun _ valid => .ofExcept stays fun digest hashed => ?_)
  obtain ⟨clean, member, named⟩ := record_eq_ok found
  have tagged : session.roleOf package.id = record.role := by
    rw [roleOf, found]
    rfl
  split
  · rename_i previous packaged
    refine .reject stays fun same => .ofExcept stays fun bytes cached =>
      .ofExcept stays fun share parsed => .pure ?_
    obtain rfl := not_not.mp same
    exact ⟨rfl, clean, record, member, ⟨named, valid, previous, hashed, packaged⟩, tagged, bytes,
      okOr_eq_ok.mp cached, okOr_eq_ok.mp parsed⟩
  · rename_i unpackaged
    refine .reject stays fun phase => .ofExcept stays fun deadline _ => ?_
    have issued := not_not.mp phase
    split
    · refine .seq (discard_staged steady) ?_
      exact fun _ _ done => .throw done
    refine .ofExcept stays fun locked updated => ?_
    rw [(next_eq_ok ready).2.1] at updated
    have rewrites : Rewrites session.store.binding session.calls.uses session.store.state.records locked := by
      refine .update steady.view updated (fun other there same => ?_) fun _ => nofun
      obtain rfl := inj_on_of_nodup_map steady.view there member (same.trans named.symm)
      exact .consume digest issued
    obtain ⟨_, writes⟩ := next_writes ready rewrites
    obtain ⟨_, rfl⟩ := updateRecord_eq_map steady.view updated
    refine .seq (persist_staged clean writes) ?_
    rintro _ after ⟨staged, _, state, _, usable⟩
    refine .pure ⟨staged, clean, usable, ⟨record, member, named, unpackaged⟩, ?_⟩
    rw [state]
    refine ⟨_, mem_map_of_mem member, ?_⟩
    rw [if_pos named]
    exact ⟨⟨named, valid, digest, hashed, rfl⟩, tagged, rfl, rfl⟩

/-- The share is computed from the nonces in memory, and cached before it leaves. -/
theorem release_staged (package : Package) {record : Record}
    (member : record ∈ session.store.state.records) (named : record.id = package.id)
    (consumed : record.phase = .noncesConsumed)
    (bound : ∃ digest, package.digest = .ok digest ∧ record.packageDigest = some digest) :
    Ends session (release package now)
      (fun share after => Spent package session after ∧ after.poisoned = false ∧
        { record with phase := .signed, cachedShare := some (Frost.serializeShare share) } ∈
          after.store.state.records)
      (Spent package session) := by
  have stays : Spent package session session := ⟨.idle (.refl session), .refl session, .inl rfl⟩
  refine .get (.ofExcept stays fun nonces found => ?_)
  let result := Frost.sign package.signing nonces session.key
  let used := { session with
    nonces := session.nonces.erase package.id
    calls := session.calls.use ⟨package, nonces, session.store.durable, result⟩ }
  have kept : Keeps session used := ⟨rfl, rfl, rfl⟩
  have fewer : Fewer session used := Fewer.erase session package.id
  have spent {after : Session} (stage : Stage session after) (quiet : Quiet used after) :
      Spent package session after :=
    ⟨stage, fewer.trans quiet.fewer, .inr ⟨nonces, result, okOr_eq_ok.mp found, quiet.calls⟩⟩
  have called : Spent package session used := spent (.idle kept) (.refl used)
  refine .bind (b := ()) rfl (.bind rfl (.ofExcept called fun share computed =>
    .get (.ofExcept called fun following ready => .ofExcept called fun signed updated => ?_)))
  have source : following.records = session.store.state.records := (next_eq_ok ready).2.1
  rw [source] at updated
  have rewrites : Rewrites session.store.binding used.calls.uses session.store.state.records
      signed := by
    refine .update steady.view updated (fun other there same => ?_) fun _ => nofun
    obtain rfl := inj_on_of_nodup_map steady.view there member (same.trans named.symm)
    refine .sign ⟨_, mem_append_right _ mem_cons_self, named.symm, ?_, bound⟩ consumed
    exact okOr_eq_ok.mp computed
  obtain ⟨clean, writes⟩ := next_writes ready rewrites
  obtain ⟨_, rfl⟩ := updateRecord_eq_map steady.view updated
  refine .seq ((persist_after kept clean writes).mono_error fun _ failed =>
    spent failed.1 failed.2) ?_
  rintro _ after ⟨⟨stage, quiet⟩, _, state, _, usable⟩
  refine .pure ⟨spent stage quiet, usable, ?_⟩
  rw [state]
  have there := mem_map_of_mem (f := fun record => if record.id = package.id then
    { record with phase := .signed, cachedShare := some (Frost.serializeShare share) } else record)
    member
  rwa [if_pos named] at there

end Steady

theorem burn_rewrites {binding : Binding} (records : List Record) :
    Rewrites binding [] records (records.map Record.burn) := by
  refine .change (fun record _ => ?_) fun record _ proposed committed => ?_
  · unfold Record.burn
    split
    · exact .keep
    · exact .discard
  · unfold Record.burn at committed
    split at committed
    · rw [proposed] at committed
      cases committed
    · cases committed

/-- A session opens over the durable snapshot, with what was in flight burned. -/
theorem open_staged (store : Store) (key : Frost.KeyPackage) :
    Ends store.reopen (Session.open key)
      (fun session after => session = { store := after, key, nonces := ∅, poisoned := false, calls := ⟨[], []⟩ } ∧
        Frost.identifier store.binding.participant = some key.identifier ∧
        (after = store.reopen ∨ ∃ next, store.durable.Writes store.binding [] next ∧
          store.reopen.Stored next after))
      (fun after => after = store.reopen ∨ ∃ next, store.durable.Writes store.binding [] next ∧
        store.reopen.Failed next after) := by
  refine .get (.ofExcept (.inl rfl) fun package _ => .ofExcept (.inl rfl) fun identifier found =>
    .reject (.inl rfl) fun agrees => ?_)
  have own : Frost.identifier store.binding.participant = some key.identifier := by
    rw [not_not.mp (not_or.mp agrees).1]
    exact okOr_eq_ok.mp found
  split
  · exact .get (.pure ⟨rfl, own, .inl rfl⟩)
  · refine .ofExcept (.inl rfl) fun revision counted => ?_
    have writes : store.durable.Writes store.binding []
        { store.durable with revision, records := store.durable.records.map Record.burn } :=
      ⟨okOr_eq_ok.mp counted, UInt64.le_refl _, burn_rewrites store.durable.records⟩
    refine .seq ((store.reopen.replace_writes _).mono (fun _ _ => id)
      fun _ failed => .inr ⟨_, writes, failed⟩) ?_
    exact fun _ after stored => .get (.pure ⟨rfl, own, .inr ⟨_, writes, stored⟩⟩)

/-! ## What holds of a session throughout -/

theorem Stage.binding (stage : Stage session after) :
    after.store.binding = session.store.binding := by
  cases stage with
  | idle kept => rw [kept.1]
  | stored _ _ store => rw [store]
  | failed _ _ store => exact store.binding

theorem Stage.steady (stage : Stage session after) (steady : session.Steady) : after.Steady := by
  cases stage with
  | idle kept =>
    obtain ⟨store, key, poisoned⟩ := kept
    refine ⟨fun clean => ?_, ?_, ?_, ?_⟩
    · rw [store]
      exact steady.clean (poisoned ▸ clean)
    · rw [store]
      exact steady.view
    · rw [store]
      exact steady.kept
    · rw [store, key]
      exact steady.keyed
  | stored clean writes store key usable =>
    obtain ⟨healthy, same⟩ := steady.clean clean
    have kept := writes.records.kept (same ▸ steady.kept)
    rw [Store.Stored] at store
    refine ⟨fun _ => ?_, ?_, ?_, ?_⟩
    · rw [store]
      exact ⟨healthy, rfl⟩
    · rw [store]
      exact kept.nodup
    · rw [store]
      exact kept
    · rw [store, key]
      exact steady.keyed
  | @failed next clean writes store key poisoned =>
    obtain ⟨_, same⟩ := steady.clean clean
    refine ⟨fun usable => ?_, ?_, ?_, ?_⟩
    · rw [poisoned] at usable
      cases usable
    · rw [store.state]
      exact steady.view
    · rw [store.binding]
      rcases store.durable with before | landed
      · rw [before]
        exact steady.kept
      · rw [landed]
        exact writes.records.kept (same ▸ steady.kept)
    · rw [store.binding, key]
      exact steady.keyed

theorem Stage.rewrites (stage : Stage session after) (steady : session.Steady) :
    after.store.durable.records = session.store.durable.records ∨
      Rewrites session.store.binding after.calls.uses session.store.durable.records
        after.store.durable.records := by
  cases stage with
  | idle kept => exact .inl (by rw [kept.1])
  | stored clean writes store key usable =>
    rw [store, ← (steady.clean clean).2]
    exact .inr writes.records
  | failed clean writes store key poisoned =>
    rcases store.durable with before | landed
    · exact .inl (by rw [before])
    · rw [landed, ← (steady.clean clean).2]
      exact .inr writes.records

/-- No stage loses a record, a package or a share. -/
theorem Stage.outlives (stage : Stage session after) (steady : session.Steady) :
    Outlives session.store.durable.records after.store.durable.records := by
  rcases stage.rewrites steady with same | rewrites
  · rw [same]
    exact .refl _
  · exact rewrites.outlives steady.kept

theorem Stage.apart (stage : Stage session after) (steady : session.Steady)
    (apart : Apart session.store.durable.records) : Apart after.store.durable.records := by
  rcases stage.rewrites steady with same | rewrites
  · rw [same]
    exact apart
  · exact rewrites.apart steady.kept apart

theorem Stage.sourced (stage : Stage session after) (steady : session.Steady) {log : List Use}
    (within : after.calls.uses ⊆ log)
    (sourced : ∀ record ∈ session.store.durable.records, record.Sourced log) :
    ∀ record ∈ after.store.durable.records, record.Sourced log := by
  rcases stage.rewrites steady with same | rewrites
  · rw [same]
    exact sourced
  · exact rewrites.sourced within steady.kept sourced

end Session

end Machine

end Supgang.Threshold
