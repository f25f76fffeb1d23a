/-
# State.Failures — what a failed operation leaves, and why none is for want of room

* `Operation.under_blameless` — the journal refuses nothing that an operation asks of it.
* `Operation.program_fails` — where nothing of the file system fails, a failed operation leaves the
  device as it was, but for a sequence that a failed signature had reserved.
* `Reachable` — started, opened or read, and then any operations under any faults.
* `failed_operation_changes_nothing` — **a failed operation changes nothing**.
* `store_never_full` — **the store never runs out of room**.
-/
import Supgang.State.Faults
import Supgang.State.Refinement

namespace Supgang.State

set_option autoImplicit false

open Theory Supgang.Membership Supgang.Revocation Supgang.Invitation Supgang.Record Supgang.Journal

section Failures

variable [Sha256] [Ed25519]

/-- The program's failures are not the journal's. -/
abbrev Blameless {α : Type} (device : Device) (x : DeviceM α) : Prop :=
  Yields device x (fun _ _ => True) fun error _ => error.ofJournal = false

section Blameless

variable {device : Device} {faults : Faults}

/-- The journal refuses no event and no snapshot. -/
structure Accepting (device : Device) (faults : Faults) : Prop where
  append : ∀ event : StateEvent, event.Storable →
    Blameless device (appendAuthoritative (eventBytes event) faults)
  compact : Blameless device (State.compact faults.compact)

theorem Holds.accepting (correct : Ed25519.Correct) {frames : List Bytes}
    (holds : Holds device frames) : Accepting device .none where
  append event storable := by
    obtain ⟨_, _, -, -, -, -, hrun⟩ := run_appendAuthoritative correct holds storable
    exact .of_ok hrun trivial
  compact := by
    obtain ⟨_, -, -, -, hrun⟩ := run_compact correct holds
    exact .of_ok hrun trivial

theorem accepting_of_closed (correct : Ed25519.Correct) (sound : Sound device.state)
    (closed : device.state.journal = none) (faults : Faults) : Accepting device faults where
  append event _ := .of_error (run_appendAuthoritative_none closed faults _) rfl
  compact := by
    obtain ⟨base, hbase, -⟩ := sound.compaction correct
    refine .get (.ofExcept (fun e h => ?_) fun _ _ => ?_)
    · cases hbase.symm.trans h
    · refine .of_error (e := .readOnlySnapshot) (t := device) ?_ rfl
      rw [EStateM.run_bind, run_journalMut_none closed]

/-- **The journal refuses nothing that an operation asks of it.** -/
theorem Operation.under_blameless (correct : Ed25519.Correct) (accepting : Accepting device faults)
    (operation : Operation) : Blameless device (operation.program faults) := by
  by_cases compacts : operation = .compact
  · subst compacts
    exact .seq accepting.compact fun _ _ _ => .pure trivial
  · cases operation.asks correct device compacts with
    | settled outcome own runs =>
      have run := runs faults device.state.journal device.tape
      rw [Blameless, Yields, show (operation.program faults).run device = _ from run]
      exact Yields.of_ofExcept own fun _ _ => trivial
    | commits storable change outcome own _ runs =>
      rw [Blameless, Yields, runs]
      exact Yields.seq (accepting.append _ storable) fun _ _ _ =>
        Yields.of_ofExcept own fun _ _ => trivial

end Blameless

/-! ## What a failure leaves -/

/-- The two states agree in everything an operation may change but the handle and the count. -/
structure Kept (old new : LocalState) : Prop where
  memberships : new.memberships = old.memberships
  revocations : new.revocations = old.revocations
  generation : new.generation = old.generation
  sequence : new.sequence = old.sequence
  lastMembershipSerial : new.lastMembershipSerial = old.lastMembershipSerial

/-- The next sequence was taken, and nothing else changed. -/
structure Spent (old new : LocalState) : Prop where
  memberships : new.memberships = old.memberships
  revocations : new.revocations = old.revocations
  generation : new.generation = old.generation
  sequence : checkedAdd old.sequence 1 = some new.sequence
  lastMembershipSerial : new.lastMembershipSerial = old.lastMembershipSerial

theorem Kept.refl (state : LocalState) : Kept state state := ⟨rfl, rfl, rfl, rfl, rfl⟩

variable {device : Device}

theorem GaveUp.kept {after : Device} {error : StateError} (gave : GaveUp device error after) :
    Kept device.state after.state := by
  obtain ⟨-, count, hstate⟩ := gave
  rw [hstate]
  exact ⟨rfl, rfl, rfl, rfl, rfl⟩

section Calm

variable {device : Device} {frames : List Bytes}

variable (correct : Ed25519.Correct) (holds : Holds device frames)

include correct holds

/-- **A failed operation changes nothing**; only a failed signature may cost a sequence. -/
theorem Operation.program_fails (operation : Operation) :
    Ends device operation.program (fun _ _ => True) (fun after => after = device ∨
      operation.signs = true ∧ Reaches device after ∧ Spent device.state after.state) := by
  by_cases compacts : operation = .compact
  · subst compacts
    exact .seq ((compact_ends correct holds).mono_error fun _ => .inl) fun _ _ _ => .pure trivial
  · cases operation.asks correct device compacts with
    | settled outcome _ runs =>
      have run := runs .none device.state.journal device.tape
      rw [Ends, show operation.program.run device = _ from run]
      exact Ends.of_ofExcept (.inl rfl) fun _ _ => trivial
    | commits storable change outcome _ late runs =>
      rw [Ends, runs]
      cases outcome with
      | ok value =>
        obtain ⟨_, _, -, -, -, -, appended⟩ := run_appendAuthoritative correct holds storable
        exact Ends.bind appended trivial
      | error e =>
        -- only a signature fails behind its event, which is the next sequence
        obtain ⟨signs, next, rfl, applies, counted⟩ := late e rfl
        have admissible : Admissible device.state (.sequence device.state.generation next) :=
          ⟨rfl, counted⟩
        obtain ⟨after, path, ⟨journal, count, hstate⟩, run⟩ :=
          run_commit correct holds admissible storable applies
        rw [← bind_assoc]
        refine Ends.bind run (.inr ⟨signs, path, ?_⟩)
        rw [hstate]
        exact ⟨rfl, rfl, rfl, counted, rfl⟩

end Calm

/-! ## Runs under faults -/

/-- The device an operation leaves under these faults, whether it succeeded or failed. -/
def Operation.performUnder (faults : Faults) (operation : Operation) (device : Device) : Device :=
  left (operation.program faults) device

def runUnder (operations : List (Operation × Faults)) (device : Device) : Device :=
  operations.foldl (fun device (operation, faults) => operation.performUnder faults device) device

/-- The devices a process can have: started, opened from whatever the disk holds, or read, and then
put through operations under faults. -/
inductive Reachable : Device → Prop
  | started {device : Device} (started : Started device) : Reachable device
  | opened {identity : LocalIdentity} {file : Bytes} {head : Option Bytes} {state : LocalState}
      {tape : Tape} (run : (openState identity).run (Tape.start ⟨file, [], head⟩) = .ok state tape) :
      Reachable ⟨state, tape⟩
  | read {identity : LocalIdentity} {tape : Tape} {state : LocalState}
      (run : openReadOnly identity tape.disk = .ok state) : Reachable ⟨state, tape⟩
  | operated {device : Device} (reachable : Reachable device) (operation : Operation)
      (faults : Faults) : Reachable (operation.performUnder faults device)

/-- The state is one that replay accepts; the handle is gone, or the journal holds the state. -/
structure Intact (device : Device) : Prop where
  sound : Sound device.state
  held : device.state.journal = none ∨ ∃ frames, Holds device frames

theorem Holds.intact {frames : List Bytes} (holds : Holds device frames) :
    Intact device :=
  ⟨holds.sound, .inr ⟨frames, holds⟩⟩

theorem Operation.performUnder_closed (correct : Ed25519.Correct)
    (closed : device.state.journal = none) (operation : Operation) (faults : Faults) :
    operation.performUnder faults device = device :=
  (((operation.under_idle correct closed) faults).mono (fun _ _ h => h.1) fun _ h => h).left

theorem runUnder_closed (correct : Ed25519.Correct) (closed : device.state.journal = none)
    (operations : List (Operation × Faults)) : runUnder operations device = device := by
  induction operations with
  | nil => rfl
  | cons first rest ih =>
    change runUnder rest (first.1.performUnder first.2 device) = device
    rw [first.1.performUnder_closed correct closed first.2]
    exact ih

theorem GaveUp.intact {after : Device} {error : StateError} (sound : Sound device.state)
    (gave : GaveUp device error after) : Intact after := by
  obtain ⟨-, count, hstate⟩ := gave
  constructor
  · rw [hstate]
    exact ⟨sound.roster, sound.revocations, sound.generation⟩
  · rw [hstate]
    exact .inl rfl

theorem Operation.performUnder_intact (correct : Ed25519.Correct) (intact : Intact device)
    (operation : Operation) (faults : Faults) :
    Intact (operation.performUnder faults device) := by
  rcases intact.held with closed | ⟨frames, holds⟩
  · rw [operation.performUnder_closed correct closed]
    exact intact
  · rcases operation.under_deviates correct holds faults with same | ⟨_, after, hrun, hgave⟩
    · have hperform : operation.performUnder faults device = operation.perform device := by
        rw [Operation.performUnder, left, same, Operation.perform]
        cases operation.program.run device <;> rfl
      obtain ⟨_, hholds⟩ := (operation.perform_reaches correct holds).holds correct holds
      rw [hperform]
      exact hholds.intact
    · rw [Operation.performUnder, left, hrun]
      exact hgave.intact intact.sound

/-- **Every device a process can have is intact.** -/
theorem Reachable.intact (correct : Ed25519.Correct) (reachable : Reachable device) :
    Intact device := by
  induction reachable with
  | started started =>
    obtain ⟨_, holds⟩ := started.holds correct
    exact holds.intact
  | opened run =>
    obtain ⟨_, holds⟩ := openState_holds run
    exact holds.intact
  | read run =>
    simp only [openReadOnly, ok_steps] at run
    obtain ⟨frames, -, hreplay⟩ := run
    obtain ⟨hsound, -, hjournal⟩ := replay_sound hreplay
    exact ⟨hsound, .inl hjournal⟩
  | operated _ operation faults ih => exact operation.performUnder_intact correct ih faults

/-- **A failed operation changes nothing.** Whatever the reason, the memberships, the revocations,
the generation, the sequence and the last serial are as they were; a failed signature may have cost
one sequence, and then a restart finds it spent. Once a journal call has failed, nothing that is
done with the handle changes the device or its file, and the only calls that succeed are those that
would change nothing on any handle. -/
theorem failed_operation_changes_nothing (correct : Ed25519.Correct) {device : Device}
    (reachable : Reachable device) (operation : Operation) (faults : Faults) {error : StateError}
    {after : Device} (failed : (operation.program faults).run device = .error error after) :
    (Kept device.state after.state ∨
      operation.signs = true ∧ Spent device.state after.state ∧
        ∀ kept, ∃ tape, (openState after.state.identity).run
          (Tape.start (after.tape.disk.crash kept)) = .ok after.state tape) ∧
    ∀ cause, error = .journal cause →
      (∀ later, runUnder later after = after) ∧
      ∀ later : Operation, Idle after fun faults => later.program faults := by
  have hclosed : after.state.journal = none → (∀ later, runUnder later after = after) ∧
      ∀ later : Operation, Idle after fun faults => later.program faults :=
    fun closed => ⟨runUnder_closed correct closed, fun later => later.under_idle correct closed⟩
  rcases (reachable.intact correct).held with closed | ⟨frames, holds⟩
  · obtain rfl : after = device := (operation.under_idle correct closed faults).error failed
    exact ⟨.inl (.refl _), fun _ _ => hclosed closed⟩
  · rcases operation.under_deviates correct holds faults with same | ⟨_, _, hrun, hgave⟩
    · rw [same] at failed
      refine ⟨?_, fun cause hcause => ?_⟩
      · rcases (operation.program_fails correct holds).error failed with rfl | ⟨hsigns, hpath, hspent⟩
        · exact .inl (.refl _)
        · obtain ⟨frames', holds'⟩ := hpath.holds correct holds
          refine .inr ⟨hsigns, hspent, fun kept => ?_⟩
          have hsettled : after.tape.disk.Settled := by
            rw [holds'.disk_eq]
            rfl
          rw [Disk.crash_of_settled hsettled]
          exact holds'.openState_eq
      · have hother := (operation.under_blameless correct (holds.accepting correct)).error failed
        rw [hcause] at hother
        cases hother
    · cases hrun.symm.trans failed
      obtain ⟨-, _, hstate⟩ := hgave
      exact ⟨.inl (GaveUp.kept ⟨rfl, _, hstate⟩), fun _ _ => hclosed (by rw [hstate])⟩

/-- **The store never runs out of room.** On every device that a process can have, the snapshot that
compaction would write stays below the threshold, each of its frames and of those in the journal is
one the journal takes, and no operation fails because the journal is full or refuses a payload. -/
theorem store_never_full (correct : Ed25519.Correct) {device : Device}
    (reachable : Reachable device) :
    (∃ snapshot, device.state.compactionFrames = .ok snapshot ∧
      (∀ frame ∈ snapshot, ValidPayload frame) ∧
      (image snapshot).length < authoritativeCompactionThresholdBytes) ∧
    (device.state.journal ≠ none → ∃ frames, Journal.read device.tape.disk = .ok frames ∧
      ∀ frame ∈ frames, ValidPayload frame) ∧
    ∀ (operation : Operation) (faults : Faults) (error : StateError) (after : Device),
      (operation.program faults).run device = .error error after →
        error ≠ .journal .journalFull ∧ error ≠ .journal .invalidPayload := by
  have intact := reachable.intact correct
  refine ⟨?_, fun live => ?_, fun operation faults error after failed => ?_⟩
  · obtain ⟨snapshot, hsnapshot, hstorable, hsize, -⟩ := intact.sound.compaction correct
    refine ⟨snapshot, hsnapshot, hstorable.valid, ?_⟩
    unfold authoritativeCompactionThresholdBytes
    omega
  · obtain ⟨frames, holds⟩ := intact.held.resolve_left live
    refine ⟨frames, ?_, holds.storable.valid⟩
    rw [holds.disk_eq]
    exact read_diskOf holds.storable
  · have hother : error.ofJournal = false ∨ error = .journal .io := by
      rcases intact.held with closed | ⟨frames, holds⟩
      · have accepting := accepting_of_closed correct intact.sound closed faults
        exact .inl ((operation.under_blameless correct accepting).error failed)
      · rcases operation.under_deviates correct holds faults with same | ⟨_, _, hrun, hgave⟩
        · rw [same] at failed
          exact .inl ((operation.under_blameless correct (holds.accepting correct)).error failed)
        · cases hrun.symm.trans failed
          exact .inr hgave.1
    constructor
    · rintro rfl
      simp [StateError.ofJournal] at hother
    · rintro rfl
      simp [StateError.ofJournal] at hother

end Failures

/-! ## A run under faults -/

attribute [local instance] countingSha256 acceptingEd25519

/-- The first write of an append cannot be made. -/
def fullDisk : Faults := ⟨false, none, some ⟨0, 0⟩, none, none⟩

/-- Whether a reservation fails on it. -/
def Device.full (device : Device) : Bool :=
  match (Operation.program .reserveNextSequence fullDisk).run device with
  | .ok _ _ => false
  | .error _ _ => true

/-- On a new hive a reservation fails where the disk cannot be written. -/
theorem reservation_fails : ∃ device, Started device ∧ ∃ error after,
    (Operation.program .reserveNextSequence fullDisk).run device = .error error after := by
  have hrun : newHive.any Device.full = true := by decide +kernel
  obtain ⟨device, founded, hrun⟩ := (Option.any_eq_true _ _).mp hrun
  unfold Device.full at hrun
  split at hrun
  · cases hrun
  · rename_i error after hfailed
    exact ⟨device, newHive_started founded, error, after, hfailed⟩

theorem failed_operation_changes_nothing_fullDisk : ∃ device after : Device, Started device ∧
    (∃ error, (Operation.program .reserveNextSequence fullDisk).run device = .error error after) ∧
    (Kept device.state after.state ∨
      Operation.signs .reserveNextSequence = true ∧ Spent device.state after.state ∧
        ∀ kept, ∃ tape, (openState after.state.identity).run
          (Tape.start (after.tape.disk.crash kept)) = .ok after.state tape) := by
  obtain ⟨device, hstarted, error, after, hfailed⟩ := reservation_fails
  exact ⟨device, after, hstarted, ⟨error, hfailed⟩, (failed_operation_changes_nothing acceptingEd25519_correct
    (.started hstarted) .reserveNextSequence fullDisk hfailed).1⟩

theorem Reachable.runUnder [Sha256] [Ed25519] {device : Device} (reachable : Reachable device)
    (operations : List (Operation × Faults)) : Reachable (runUnder operations device) := by
  induction operations generalizing device with
  | nil => exact reachable
  | cons first rest ih => exact ih (reachable.operated first.1 first.2)

/-- A device is admitted, a sequence reserved, the journal compacted and another sequence reserved. -/
def admission : List (Operation × Faults) :=
  [(admitKey 4, .none), (.reserveNextSequence, .none), (.compact, .none), (.reserveNextSequence, .none)]

attribute [local instance] tailSha256

theorem store_never_full_operated : ∃ device : Device, Reachable device ∧
    device.state.memberships.size = 2 ∧ device.state.sequence = 2 ∧
    (∃ snapshot, device.state.compactionFrames = .ok snapshot ∧
      (∀ frame ∈ snapshot, ValidPayload frame) ∧
      (image snapshot).length < authoritativeCompactionThresholdBytes) ∧
    ∃ frames, Journal.read device.tape.disk = .ok frames ∧
      ∀ frame ∈ frames, ValidPayload frame := by
  have done : newHive.any (fun device =>
      (runUnder admission device).state.memberships.size = 2 ∧
      (runUnder admission device).state.sequence = 2 ∧
      (runUnder admission device).state.journal.isSome) = true := by decide +kernel
  obtain ⟨device, founded, done⟩ := (Option.any_eq_true _ _).mp done
  obtain ⟨admitted, reserved, live⟩ := of_decide_eq_true done
  have reachable := (Reachable.started (newHive_started founded)).runUnder admission
  obtain ⟨snapshot, journal, -⟩ := store_never_full acceptingEd25519_correct reachable
  refine ⟨_, reachable, admitted, reserved, snapshot, journal ?_⟩
  exact Option.isSome_iff_ne_none.mp live

end Supgang.State
