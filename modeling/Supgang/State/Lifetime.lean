/-
# State.Lifetime — crashes, restarts, and what a device never takes back

The lifetime of a device is a run of operations, any of which the machine may stop in the middle
of; what the disk then holds is opened again. A crash inside a journey of journal transitions
reopens at one of the states the journey passed through, so nothing transitions cannot undo is
undone by a crash either.

* `crash_reopens` — **a crash lands on the journey**: the state a restart finds is one the device
  passed through.
* `records_strictly_increase` — no two records a device ever signed share a sequence.
-/
import Supgang.State.Refinement

namespace Supgang.State

set_option autoImplicit false

open Theory List Supgang.Membership Revocation Invitation Record Journal

section Lifetime

variable [Sha256] [Ed25519]

/-! ## Crashes inside a journey -/

/-- Opening this disk finds the journal of a device the journey from `device` passed through. -/
def LandsOn (device : Device) (disk' : Disk) : Prop :=
  ∃ middle frames, Reaches device middle ∧ Holds middle frames ∧ OpensTo disk' frames

/-- The disk does not open. -/
def Refused (disk' : Disk) : Prop :=
  openJournal.run (Tape.start disk') = .error .rollback (Tape.start disk')

variable {frames : List Bytes} {device device' : Device} {seen : Set Bytes} {disk' : Disk}
  {state : LocalState} {tape : Tape}

omit [Ed25519] in
theorem replacedStrings_subset {base : List Bytes} :
    ReplacedStrings frames base ⊆ (diskOf frames).Contents (replaceActions base) := by
  rintro part (rfl | ahead)
  · exact ⟨[], nil_prefix, by simp⟩
  · exact ⟨[.replaceFile (image base)], by simp [replaceActions], by
      simpa [Disk.apply, Disk.file] using ahead⟩

/-- A disk that lands on the journey reopens as the device it landed on. -/
theorem LandsOn.reopens (lands : LandsOn device disk')
    (h : (openState device.state.identity).run (Tape.start disk') = .ok state tape) :
    Advances device.state state ∧ ∃ frames, Holds ⟨state, tape⟩ frames := by
  obtain ⟨middle, frames, hpath, holds, hopens⟩ := lands
  obtain ⟨actions, hopened⟩ := hopens.opened
  have hadvances := Reaches.advances hpath
  have hreplay := holds.replayed
  rw [hadvances.identity_eq] at hreplay
  simp only [openState, run_bind_eq_ok, run_adaptExcept_eq_ok, run_ofExcept_eq_ok, hopened] at h
  obtain ⟨found, after, hfound, hstate, rfl⟩ := h
  cases hfound
  rw [hreplay] at hstate
  cases hstate
  exact ⟨hadvances, frames, holds.storable, rfl, holds.replayed⟩

theorem Refused.not_reopens {identity : LocalIdentity} (refused : Refused disk') :
    (openState identity).run (Tape.start disk') ≠ .ok state tape := by
  intro h
  simp only [openState, run_bind_eq_ok, run_adaptExcept_eq_ok] at h
  obtain ⟨found, after, hfound, -⟩ := h
  rw [refused] at hfound
  cases hfound

/-- The device at the start of an operation, with nothing done to its disk yet. -/
def Device.rested (device : Device) : Device := { device with tape := .start device.tape.disk }

theorem Holds.rested (holds : Holds device frames) :
    Holds device.rested frames :=
  ⟨holds.storable, holds.disk_eq, holds.replayed⟩

omit [Sha256] [Ed25519] in
theorem Returned.records_pairwise (value : Returned)
    {R : SignedEndpointRecord → SignedEndpointRecord → Prop} :
    value.records.Pairwise R := by
  cases value <;> simp [Returned.records]

/-- From the one device to the other the disk takes these calls, and a crash among them lands on the
way or leaves a disk that is refused. -/
def Travels (seen : Set Bytes) (device device' : Device) (actions : List Action) : Prop :=
  device'.tape.log = device.tape.log ++ actions ∧
    device'.tape.disk = device.tape.disk.after actions ∧
    ∀ disk', device.tape.disk.CrashOf actions disk' →
      device.tape.disk.Contents actions ⊆ seen → LandsOn device disk' ∨ Refused disk'

section Correct

variable (correct : Ed25519.Correct) (free : CollisionFree seen)

include correct free

theorem Transition.crash (step : Transition device device') (holds : Holds device frames) :
    ∃ actions, Travels seen device device' actions := by
  cases step with
  | @compact base snapshot storable =>
    refine ⟨replaceActions base, rfl, (after_replaceActions ..).symm, ?_⟩
    intro disk' crashed within
    rw [holds.disk_eq] at crashed within
    have hfree : CollisionFree (ReplacedStrings frames base) :=
      free.mono (replacedStrings_subset.trans within)
    rcases crash_replaceActions holds.storable storable hfree crashed with
      ⟨kept, rfl | rfl, hopens⟩ | hrefused
    · exact .inl ⟨device, kept, .refl, holds, hopens⟩
    · exact .inl ⟨_, kept, .single (.compact snapshot storable),
        compactedDevice_holds correct holds.sound snapshot, hopens⟩
    · exact .inr hrefused
  | @commit frames event holds admissible storable fits =>
    refine ⟨commitActions frames [eventBytes event], rfl, ?_, ?_⟩
    · rw [holds.disk_eq]
      exact (after_commitActions ..).symm
    · intro disk' crashed _
      rw [holds.disk_eq] at crashed
      obtain ⟨kept, rfl | rfl, -, hopens⟩ := crash_commit fits crashed
      · exact .inl ⟨device, kept, .refl, holds, hopens⟩
      · exact .inl ⟨_, _, .single (.commit holds admissible storable fits),
          committedDevice_holds holds admissible storable fits, hopens⟩

/-- **A crash lands on the journey**, or the disk is refused. -/
theorem Reaches.crash (path : Reaches device device') (holds : Holds device frames) :
    ∃ actions, Travels seen device device' actions := by
  induction path with
  | refl =>
    refine ⟨[], by simp, rfl, ?_⟩
    rintro disk' ⟨done, ahead, kept, rfl⟩ _
    rw [prefix_nil.mp ahead, Disk.after_nil, holds.disk_eq,
      Disk.crash_of_settled (diskOf_settled frames)]
    obtain ⟨actions, hopen⟩ := open_diskOf holds.storable []
    exact .inl ⟨device, frames, .refl, holds, opensTo_of_open holds.storable hopen⟩
  | @tail middle device' before step ih =>
    obtain ⟨first, hlog, hdisk, hfirst⟩ := ih
    obtain ⟨frames', hmiddle⟩ := Reaches.holds correct before holds
    obtain ⟨second, hlog', hdisk', hsecond⟩ := step.crash correct free hmiddle
    refine ⟨first ++ second, ?_, ?_, ?_⟩
    · rw [hlog', hlog, append_assoc]
    · rw [hdisk', hdisk, Disk.after_append]
    · intro disk' crashed within
      rcases Disk.crashOf_append crashed with hcrash | hcrash
      · exact hfirst disk' hcrash ((Disk.contents_append_left ..).trans within)
      · rw [← hdisk] at hcrash
        have hwithin := (Disk.contents_append_right ..).trans within
        rw [← hdisk] at hwithin
        rcases hsecond disk' hcrash hwithin with ⟨landed, kept, hpath, hlanded⟩ | hrefused
        · exact .inl ⟨landed, kept, before.trans hpath, hlanded⟩
        · exact .inr hrefused

/-! ## Lifetimes -/

/-- Everything a device does between two of its states, and the endpoint records it returned on
the way. A crash stops the machine somewhere in the disk calls of an operation; `seen` is a set
that covers what was on the file until then and after. -/
inductive Lifetime (seen : Set Bytes) (device : Device) :
    List SignedEndpointRecord → Device → Prop
  | start : Lifetime seen device [] device
  | returned {records : List SignedEndpointRecord} {middle after : Device} {operation : Operation}
      {value : Returned} (before : Lifetime seen device records middle)
      (run : operation.program.run middle.rested = .ok value after) :
      Lifetime seen device (records ++ value.records) after
  | failed {records : List SignedEndpointRecord} {middle after : Device} {operation : Operation}
      {error : StateError} (before : Lifetime seen device records middle)
      (run : operation.program.run middle.rested = .error error after) :
      Lifetime seen device records after
  | crashed {records : List SignedEndpointRecord} {middle : Device} {operation : Operation}
      {disk' : Disk} {state : LocalState} {tape : Tape}
      (before : Lifetime seen device records middle)
      (crash : middle.tape.disk.CrashOf (operation.perform middle.rested).tape.log disk')
      (within : middle.tape.disk.Contents (operation.perform middle.rested).tape.log ⊆ seen)
      (reopen : (openState middle.state.identity).run (Tape.start disk') = .ok state tape) :
      Lifetime seen device records ⟨state, tape⟩

/-- **A crash inside an operation reopens ahead of where the operation started.** -/
theorem crash_reopens (holds : Holds device frames) {operation : Operation}
    (crash : device.tape.disk.CrashOf (operation.perform device.rested).tape.log disk')
    (within : device.tape.disk.Contents (operation.perform device.rested).tape.log ⊆ seen)
    (reopen : (openState device.state.identity).run (Tape.start disk') = .ok state tape) :
    Advances device.state state ∧ ∃ frames, Holds ⟨state, tape⟩ frames := by
  have hpath := operation.perform_reaches correct holds.rested
  obtain ⟨actions, hlog, -, hcrash⟩ := Reaches.crash correct free hpath holds.rested
  rw [show device.rested.tape.log = [] from rfl, nil_append] at hlog
  rw [hlog] at crash within
  rcases hcrash disk' crash within with hlands | hrefused
  · have hreopened := LandsOn.reopens hlands reopen
    exact hreopened
  · exact absurd reopen hrefused.not_reopens

/-- What holds of every point of a lifetime. -/
theorem Lifetime.invariant {records : List SignedEndpointRecord} (holds : Holds device frames)
    (life : Lifetime seen device records device') :
    (∃ frames', Holds device' frames') ∧ Advances device.state device'.state ∧
      (∀ signed ∈ records, signed.record.sequence ≤ device'.state.sequence) ∧
      records.Pairwise fun earlier later => earlier.record.sequence < later.record.sequence := by
  induction life with
  | start => exact ⟨⟨frames, holds⟩, .refl _, by simp, List.Pairwise.nil⟩
  | @returned records middle after operation value before run ih =>
    obtain ⟨⟨frames', hmiddle⟩, hadvances, hbound, hincreasing⟩ := ih
    obtain ⟨hpath, hvalue⟩ := (operation.ends correct hmiddle.rested).ok run
    have hjourney := Reaches.advances hpath
    have hstep : Advances middle.state after.state := hjourney
    refine ⟨Reaches.holds correct hpath hmiddle.rested, hadvances.trans hstep, ?_, ?_⟩
    · intro signed hsigned
      rcases mem_append.mp hsigned with h | h
      · exact (hbound signed h).trans hstep.sequence_le
      · exact (hvalue signed h).2.ge
    · -- A new record is above the old durable sequence, and so above every record before it.
      refine pairwise_append.mpr ⟨hincreasing, value.records_pairwise, ?_⟩
      intro earlier hearlier later hlater
      exact lt_of_le_of_lt (hbound earlier hearlier) (hvalue later hlater).1
  | @failed records middle after operation error before run ih =>
    obtain ⟨⟨frames', hmiddle⟩, hadvances, hbound, hincreasing⟩ := ih
    have hpath := (operation.ends correct hmiddle.rested).error run
    have hjourney := Reaches.advances hpath
    have hstep : Advances middle.state after.state := hjourney
    exact ⟨Reaches.holds correct hpath hmiddle.rested, hadvances.trans hstep,
      fun signed hsigned => (hbound signed hsigned).trans hstep.sequence_le, hincreasing⟩
  | @crashed records middle operation disk' state tape before crash within reopen ih =>
    obtain ⟨⟨frames', hmiddle⟩, hadvances, hbound, hincreasing⟩ := ih
    obtain ⟨hstep, hholds⟩ := crash_reopens correct free hmiddle crash within reopen
    exact ⟨hholds, hadvances.trans hstep,
      fun signed hsigned => (hbound signed hsigned).trans hstep.sequence_le, hincreasing⟩

end Correct

/-- **A device never equivocates.** Over its whole lifetime, through any operations and any crashes
in the middle of them, each endpoint record it returned has a greater sequence than every record it
returned before. -/
theorem records_strictly_increase (correct : Ed25519.Correct) {seen : Set Bytes}
    (free : CollisionFree seen) {device device' : Device} {records : List SignedEndpointRecord}
    (started : Started device) (life : Lifetime seen device records device') :
    records.Pairwise fun earlier later => earlier.record.sequence < later.record.sequence := by
  obtain ⟨frames, holds⟩ := started.holds correct
  exact (life.invariant correct free holds).2.2.2

end Lifetime

/-! ## Runs of a new hive -/

section Runs

variable [Sha256] [Ed25519] {operations : List Operation}

/-- The device after these operations, where all of them succeed. -/
def Device.perform (device : Device) (operations : List Operation) : Option Device :=
  operations.foldlM (fun device operation =>
    match operation.program.run device.rested with
    | .error _ _ => none
    | .ok _ after => some after) device

theorem Lifetime.perform {start middle device : Device} {records : List SignedEndpointRecord}
    (life : Lifetime ∅ start records middle) (h : middle.perform operations = some device) :
    ∃ records', Lifetime ∅ start records' device := by
  induction operations generalizing middle records with
  | nil =>
    cases h
    exact ⟨records, life⟩
  | cons operation operations ih =>
    rw [Device.perform, foldlM_cons] at h
    cases ran : operation.program.run middle.rested with
    | error e after => simp [ran] at h
    | ok value after =>
      rw [ran] at h
      exact ih (life.returned ran) h

/-- A new hive after these operations. -/
def hiveAfter (operations : List Operation) : Option Device := newHive.bind (·.perform operations)

theorem hiveAfter_lifetime {device : Device} (h : hiveAfter operations = some device) :
    ∃ start records, Started start ∧ Lifetime ∅ start records device := by
  obtain ⟨start, founded, performed⟩ := Option.bind_eq_some_iff.mp h
  obtain ⟨records, life⟩ := Lifetime.start.perform performed
  exact ⟨start, records, newHive_started founded, life⟩

end Runs

attribute [local instance] countingSha256 acceptingEd25519

/-- A request to sign an address-less record that lives for a minute. -/
def signMinute : Operation :=
  .signEndpointRecord "node" (FixedBytes.replicate 32 3) ⟨[], ⟨0⟩, []⟩ 0 60

/-- What its disk does while a device signs one. -/
def Device.signing (device : Device) : List Action := (signMinute.perform device.rested).tape.log

/-- What a restart finds when the machine stops in the middle of the first writes. -/
def Device.torn (device : Device) : Disk := (device.tape.disk.after (device.signing.take 2)).crash 9

/-- While it signs, a device only appends to a file that stays short. -/
def Device.Appends (device : Device) : Prop :=
  (∀ done ∈ device.signing.inits,
    (device.tape.disk.after done).file <+: (device.tape.disk.after device.signing).file) ∧
  (device.tape.disk.after device.signing).file.length < 65536

instance (device : Device) : Decidable device.Appends := inferInstanceAs (Decidable (_ ∧ _))

theorem Device.Appends.collisionFree {device : Device} (appends : device.Appends) :
    CollisionFree (device.tape.disk.Contents device.signing) := by
  refine Set.InjOn.mono ?_ (counting_prefixes appends.2)
  rintro part ⟨done, ahead, inside⟩
  exact inside.trans (appends.1 done ((mem_inits ..).mpr ahead))

/-- Whether a device signs one, is stopped while it signs another, and after a restart signs. -/
def Device.signsAgain (device : Device) : Bool :=
  match signMinute.program.run device.rested with
  | .ok (.record _) middle =>
    match (openState middle.state.identity).run (Tape.start middle.torn) with
    | .ok state tape =>
      match signMinute.program.run (Device.mk state tape).rested with
      | .ok (.record _) _ => decide middle.Appends
      | _ => false
    | _ => false
  | _ => false

/-- Two records with a crash between them. -/
theorem records_strictly_increase_crashed : ∃ device first middle state tape second device',
    let seen := middle.tape.disk.Contents middle.signing
    Started device ∧ Lifetime seen device [first] middle ∧
    (openState middle.state.identity).run (Tape.start middle.torn) = .ok state tape ∧
    Lifetime seen device [first] ⟨state, tape⟩ ∧ Lifetime seen device [first, second] device' ∧
    first.record.sequence < second.record.sequence := by
  have hrun : newHive.any Device.signsAgain = true := by decide +kernel
  obtain ⟨device, founded, hrun⟩ := (Option.any_eq_true _ _).mp hrun
  unfold Device.signsAgain at hrun
  split at hrun
  · rename_i first middle hfirst
    split at hrun
    · rename_i state tape reopened
      split at hrun
      · rename_i second device' hsecond
        have appends : middle.Appends := of_decide_eq_true hrun
        have early : Lifetime (middle.tape.disk.Contents middle.signing) device [first] middle :=
          Lifetime.start.returned hfirst
        have crashed := early.crashed ⟨_, take_prefix 2 _, 9, rfl⟩ subset_rfl reopened
        have started := newHive_started founded
        have life := crashed.returned hsecond
        have rises := records_strictly_increase acceptingEd25519_correct appends.collisionFree
          started life
        exact ⟨device, first, middle, state, tape, second, device', started, early, reopened, crashed,
          life, by simpa [Returned.records] using rises⟩
      · cases hrun
    · cases hrun
  · cases hrun

end Supgang.State
