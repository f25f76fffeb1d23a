/-
# State.Refinement — replay refines memory

The device starts from a new hive or from an installed join, on whatever a restart finds on its
disk, and then runs any operations. Its journal holds its state at the start, every operation
keeps that, and so the committed frames replay to the memory at every point of every run.

* `openState_holds`, `initializeState_holds`, `installJoinBundle_holds` — the three ways to start.
* `replay_refines_memory` — **replay of the committed frames is the state in memory**, and so is
  replay of the snapshot compaction would write.
-/
import Supgang.State.Device

namespace Supgang.State

set_option autoImplicit false

open Theory Supgang.Membership Supgang.Revocation Supgang.Invitation Supgang.Record Supgang.Journal

section Refinement

variable [Sha256] [Ed25519]

/-! ## Starting -/

variable {file : Bytes} {head : Option Bytes} {log : List Action} {state : LocalState} {tape : Tape}
  {device : Device}

theorem openState_holds {identity : LocalIdentity}
    (h : (openState identity).run ⟨⟨file, [], head⟩, log⟩ = .ok state tape) :
    ∃ frames, Holds ⟨state, tape⟩ frames := by
  simp only [openState, run_bind_eq_ok, run_adaptExcept_eq_ok, run_ofExcept_eq_ok] at h
  obtain ⟨⟨journal, frames⟩, opened, hopen, hreplay, rfl⟩ := h
  obtain ⟨hstorable, hdisk, rfl⟩ := open_committed hopen
  have hidentity := (replay_sound hreplay).2.1
  exact ⟨frames, hstorable, hdisk, by rw [hidentity]; exact hreplay⟩

variable {frames : List Bytes} {stored : Option LocalIdentity}

/-- A device that holds its frames opens to the state it has in memory. -/
theorem Holds.openState_eq (holds : Holds device frames) :
    ∃ tape, (openState device.state.identity).run (Tape.start device.tape.disk) =
      .ok device.state tape := by
  obtain ⟨actions, hopen⟩ := open_diskOf holds.storable []
  refine ⟨⟨diskOf frames, [] ++ actions⟩, ?_⟩
  rw [holds.disk_eq]
  simp only [openState, run_bind_eq_ok, run_adaptExcept_eq_ok, run_ofExcept_eq_ok]
  exact ⟨_, _, hopen, holds.replayed, rfl⟩

theorem initializeState_holds (correct : Ed25519.Correct) {root : RootIdentity}
    {device : DeviceIdentity} {now : UInt64}
    (h : (initializeState stored root device now).run ⟨⟨file, [], head⟩, log⟩ = .ok state tape) :
    ∃ frames, Holds ⟨state, tape⟩ frames := by
  simp only [initializeState, run_bind_eq_ok, run_adaptExcept_eq_ok, run_ofExcept_eq_ok,
    okOr_eq_ok, mapError_eq_ok] at h
  obtain ⟨⟨journal, frames⟩, opened, hopen, _, _, hfresh, secret, _, ⟨hroot, rfl⟩, founder, _,
    ⟨hfounder, rfl⟩, revocations, _, ⟨hrevocations, rfl⟩, encoded, _, ⟨hencoded, rfl⟩, appended,
    _, happend, hstate⟩ := h
  rw [run_reject] at hfresh
  split at hfresh
  · cases hfresh
  rename_i hempty
  cases hfresh
  rw [not_or, not_not] at hempty
  obtain ⟨-, rfl⟩ := hempty
  cases hstate
  obtain ⟨hcertificate, hverify⟩ := Membership.sign_spec correct hfounder
  obtain ⟨-, hrevoked⟩ := Revocation.sign_spec correct hrevocations
  rw [← (stored.getD (LocalIdentity.founder root device)).root_key secret hroot] at hverify hrevoked
  have hstorable : (StateEvent.genesis founder revocations).Storable :=
    ⟨.of_verify hverify, .of_verify hrevoked⟩
  rw [encodeEvent_ok hstorable] at hencoded
  cases hencoded
  have hlocal : LocalCertificate (stored.getD (LocalIdentity.founder root device)) founder := by
    refine ⟨hverify, ?_, ?_, ?_⟩
    · rw [hcertificate]
    · rw [hcertificate]
    · rw [hcertificate]
  -- The journal was empty, so the append can only have committed the founder event.
  rcases append_cases (open_committed hopen) (eventBytes (.genesis founder revocations))
    opened.log with ⟨hfits, hrun⟩ | ⟨-, hrun⟩ | ⟨-, hrun⟩
  · rw [hrun] at happend
    cases happend
    refine ⟨[] ++ [eventBytes (.genesis founder revocations)], hfits, rfl, ?_⟩
    rw [List.nil_append, replay]
    dsimp only [founderState]
    rw [replayGenesis_ok _ (decodeEvent_eventBytes hstorable) hlocal hrevoked, founderState,
      hcertificate]
    rfl
  · rw [hrun] at happend
    cases happend
  · rw [hrun] at happend
    cases happend

theorem installJoinBundle_holds {pending : Option PendingIdentity} {bundle : JoinBundle}
    {expectedHive : HiveId} {now : UInt64}
    (h : (installJoinBundle stored pending bundle expectedHive now).run ⟨⟨file, [], head⟩,
      log⟩ = .ok state tape) :
    ∃ frames, Holds ⟨state, tape⟩ frames := by
  unfold installJoinBundle at h
  rw [run_reject_bind] at h
  split at h
  · cases h
  cases stored with
  | some identity =>
    simp only [run_bind_eq_ok, run_ofExcept_eq_ok] at h
    obtain ⟨existing, opened, hopen, _, _, ⟨-, rfl⟩, hstate⟩ := h
    cases hstate
    exact openState_holds hopen
  | none =>
    simp only [commitGenesis, run_bind_eq_ok, run_adaptExcept_eq_ok, run_ofExcept_eq_ok, okOr_eq_ok,
      mapError_eq_ok] at h
    obtain ⟨pending, _, ⟨-, rfl⟩, rootKey, _, ⟨-, rfl⟩, _, _, ⟨-, rfl⟩, expected, _,
      ⟨-, rfl⟩, _, after, ⟨⟨journal, frames⟩, ⟨disk, log⟩, hopen, hcommit⟩, hopened⟩ := h
    have hcommitted := open_committed hopen
    rw [run_ite] at hcommit
    split at hcommit
    · -- The bundle's genesis is appended to an empty journal, or nothing is.
      simp only [run_bind_eq_ok, run_adaptExcept_eq_ok] at hcommit
      obtain ⟨appended, _, happend, hdone⟩ := hcommit
      cases hdone
      rcases append_cases hcommitted expected log with ⟨-, hrun⟩ | ⟨-, hrun⟩ | ⟨-, hrun⟩ <;>
        rw [hrun] at happend <;> cases happend
      exact openState_holds hopened
    · rw [run_reject] at hcommit
      split at hcommit
      · cases hcommit
      · cases hcommit
        obtain ⟨-, rfl, -⟩ := hcommitted
        exact openState_holds hopened

/-- A device as its owner first gets it: a new hive, or an installed join, on whatever the disk
held. -/
inductive Started : Device → Prop
  | initialized {stored : Option LocalIdentity} {root : RootIdentity} {device : DeviceIdentity}
      {now : UInt64} {file : Bytes} {head : Option Bytes} {state : LocalState} {tape : Tape}
      (run : (initializeState stored root device now).run (Tape.start ⟨file, [], head⟩) =
        .ok state tape) : Started ⟨state, tape⟩
  | installed {stored : Option LocalIdentity} {pending : Option PendingIdentity}
      {bundle : JoinBundle} {expectedHive : HiveId} {now : UInt64} {file : Bytes}
      {head : Option Bytes} {state : LocalState} {tape : Tape}
      (run : (installJoinBundle stored pending bundle expectedHive now).run
        (Tape.start ⟨file, [], head⟩) = .ok state tape) : Started ⟨state, tape⟩

theorem Started.holds (correct : Ed25519.Correct) (started : Started device) :
    ∃ frames, Holds device frames := by
  cases started with
  | initialized run => exact initializeState_holds correct run
  | installed run => exact installJoinBundle_holds run

/-! ## Runs -/

/-- The device after a run of operations, each successful or failing. -/
def runAll (operations : List Operation) (device : Device) : Device :=
  operations.foldl (fun device operation => operation.perform device) device

theorem runAll_holds (correct : Ed25519.Correct) (holds : Holds device frames)
    (operations : List Operation) : ∃ frames', Holds (runAll operations device) frames' := by
  induction operations generalizing device frames with
  | nil => exact ⟨frames, holds⟩
  | cons operation operations ih =>
    obtain ⟨middle, hmiddle⟩ := (operation.perform_reaches correct holds).holds correct holds
    exact ih hmiddle

/-- **Replay refines memory.** After every run of operations from a new hive or an installed join,
the journal's committed frames replay to the state in memory under its own handle, the state opens
again as it is, and the snapshot compaction would write replays to that state as well, with only
the number of events changed. -/
theorem replay_refines_memory (correct : Ed25519.Correct) {device : Device}
    (started : Started device) (operations : List Operation) :
    (∃ frames, Journal.read (runAll operations device).tape.disk = .ok frames ∧
      replay (runAll operations device).state.identity
        (runAll operations device).state.journal frames =
          .ok (runAll operations device).state) ∧
    (∃ tape, (openState (runAll operations device).state.identity).run
      (Tape.start (runAll operations device).tape.disk) =
        .ok (runAll operations device).state tape) ∧
    ∃ snapshot, (runAll operations device).state.compactionFrames = .ok snapshot ∧
      ∀ journal, replay (runAll operations device).state.identity journal snapshot =
        .ok { (runAll operations device).state with
          journal
          eventCount := UInt64.ofNat snapshot.length } := by
  obtain ⟨_, hstart⟩ := started.holds correct
  obtain ⟨frames, holds⟩ := runAll_holds correct hstart operations
  refine ⟨⟨frames, ?_, ?_⟩, holds.openState_eq, ?_⟩
  · rw [holds.disk_eq]
    exact read_diskOf holds.storable
  · rw [holds.journal_eq]
    exact holds.replayed
  · obtain ⟨snapshot, hsnapshot, -, -, hreplay⟩ := holds.sound.compaction correct
    exact ⟨snapshot, hsnapshot, hreplay⟩

end Refinement

/-! ## A run of the refinement theorem -/

/-- Stand-in signatures that always verify, enough to evaluate the model. -/
@[reducible] def acceptingEd25519 : Ed25519 where
  verifyingKey secret := secret
  wellFormed _ := true
  isWeak _ := false
  sign _ _ := FixedBytes.replicate 64 0
  verifyStrict _ _ _ := true

theorem acceptingEd25519_correct : @Ed25519.Correct acceptingEd25519 :=
  @Ed25519.Correct.mk acceptingEd25519 (fun _ => rfl) (fun _ => rfl) (fun _ _ => rfl)

theorem tail_length (bytes : Bytes) : ((bytes.reverse ++ List.replicate 32 0).take 32).length = 32 := by
  simp

/-- A stand-in digest that keeps the last bytes, so that different keys have different names. -/
@[reducible] def tailSha256 : Sha256 where
  digest bytes := ⟨(bytes.reverse ++ List.replicate 32 0).take 32, tail_length bytes⟩

def hiveRoot : RootIdentity := ⟨FixedBytes.replicate 32 1⟩

/-- A device that waits to be admitted. -/
def waitingDevice : PendingIdentity := ⟨⟨FixedBytes.replicate 32 9⟩, FixedBytes.replicate 32 5⟩

/-- A hive founded on an empty disk. -/
def newHive [Sha256] [Ed25519] : Option Device :=
  match (initializeState none hiveRoot ⟨FixedBytes.replicate 32 2⟩ 0).run
      (Tape.start ⟨[], [], none⟩) with
  | .ok state tape => some ⟨state, tape⟩
  | .error _ _ => none

theorem newHive_started [Sha256] [Ed25519] {device : Device} (founded : newHive = some device) :
    Started device := by
  unfold newHive at founded
  split at founded
  · rename_i started
    cases founded
    exact .initialized started
  · cases founded

/-- A device of this key is admitted. -/
def admitKey (key : UInt8) : Operation :=
  .issueMembership (FixedBytes.replicate 32 key) .device (FixedBytes.replicate 32 5) 0 60

attribute [local instance] countingSha256 acceptingEd25519

/-- A new hive can be founded on an empty disk. -/
theorem newHive_starts : ∃ device, Started device := by
  have hrun : newHive.isSome = true := by decide +kernel
  obtain ⟨device, founded⟩ := Option.isSome_iff_exists.mp hrun
  exact ⟨device, newHive_started founded⟩

theorem replay_refines_memory_newHive :
    ∃ device, Started device ∧ ∃ frames, Journal.read
      (runAll [.reserveNextSequence, .compact, .reserveNextSequence] device).tape.disk =
        .ok frames := by
  obtain ⟨device, hstarted⟩ := newHive_starts
  obtain ⟨⟨frames, hread, -⟩, -⟩ :=
    replay_refines_memory acceptingEd25519_correct hstarted
      [.reserveNextSequence, .compact, .reserveNextSequence]
  exact ⟨device, hstarted, frames, hread⟩

end Supgang.State
