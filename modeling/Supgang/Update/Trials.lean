/-
# Update.Trials — how often an activated release is launched

An activation leaves a release pending, and the supervisor launches it until it is committed or
discarded, counting the launches in a file so that a release that brings the supervisor down is not
launched for ever. The count is kept by release and is cleared by `activateStaged` only: a local
candidate that has been launched three times and is staged once more is discarded without a launch.
A release that is already active and is activated again is committed without one. Apart from these
two, every activation that the supervisor comes to read is launched, at most three times.

* `Activates` — an operation makes a release pending; `Stands` — an event neither cancels nor
  replaces it.
* `launches`, `consulted` — what a run does with it.
* `activation_gets_fair_trial` — once at least, three times at most.
* `spent_candidate_is_discarded` — the run with an activation that is never launched.
-/
import Supgang.Update.Soundness

namespace Supgang.Update

set_option autoImplicit false
set_option linter.unusedSectionVars false

open Theory Theory.Crash

section Runs

variable {V : Type} [Sha256] [Platform] [LinearOrder V] {m : Mandate V} {u t : Updates V}

/-! ## Activations and launches -/

/-- The operation succeeds in making a release pending. -/
def Activates (u : Updates V) (record : SlotRecord V) : Order V → Prop
  | .activate => ∃ volume, activateStaged.run (calm u) = .ok record volume
  | .stageLocal version bytes => record.version = version ∧
      ∃ volume, (stageLocalCandidate version bytes).run (calm u) = .ok (some record.digest) volume
  | _ => False

/-- The event neither takes the pending release off nor puts another in its place: it is a round of
the supervisor or another operation that leaves it alone, or a failed activation. -/
def Stands (u : Updates V) (event : Event V) : Prop :=
  match event.order with
  | .supervise _ | .revert _ | .stage _ _ => True
  | .activate => event.crash = none ∧ succeeds activateStaged (calm u) = false
  | .stageLocal version bytes => event.crash = none ∧ ∀ digest volume,
      (stageLocalCandidate version bytes).run (calm u) ≠ .ok (some digest) volume
  | _ => False

/-- Events that leave the pending release alone, one after another. -/
def Standing : Updates V → List (Event V) → Prop
  | _, [] => True
  | u, event :: rest => Stands u event ∧ Standing (u.after event) rest

/-- The candidate that a round of the supervisor launches, if it comes to that. -/
def launched (u : Updates V) (event : Event V) : Option (SlotRecord V) :=
  match event.order with
  | .supervise _ => match select.run ⟨u, event.crash⟩ with
      | .ok (.trial candidate) _ => some candidate
      | _ => none
  | _ => none

/-- The supervisor has read what is pending and decided on it. -/
def consults (u : Updates V) (event : Event V) : Bool :=
  match event.order with
  | .supervise _ => Crash.succeeds select ⟨u, event.crash⟩
  | _ => false

/-- How often a run launches a release. -/
def launches (record : SlotRecord V) : Updates V → List (Event V) → Nat
  | _, [] => 0
  | u, event :: rest =>
    (if launched u event = some record then 1 else 0) + launches record (u.after event) rest

/-- The supervisor decides at some point of a run. -/
def consulted : Updates V → List (Event V) → Bool
  | _, [] => false
  | u, event :: rest => consults u event || consulted (u.after event) rest

/-! ## What an operation leaves alone -/

theorem Edit.pending (edit : Edit m u t) (unarmed : m.arm = none) :
    t.pending = u.pending ∨ m.disarm ∧ t.pending = none := by
  cases edit with
  | arm allowed found holds kin newer => cases unarmed.symm.trans allowed
  | disarm allowed => exact .inr ⟨allowed, rfl⟩
  | _ => exact .inl rfl

theorem Edit.attempts (edit : Edit m u t) (untold : m.tally = false) : t.attempts = u.attempts := by
  cases edit with
  | tally allowed => cases untold.symm.trans allowed
  | _ => rfl

/-- A program that may not arm or count leaves what is pending or nothing, and the count. -/
theorem settles {v : Volume (Updates V)} {α : Type} {x : Operation V α} {Q : α → Updates V → Prop}
    (leads : Leads (Edit m) v x Q) (unarmed : m.arm = none) (untold : m.tally = false) :
    ((left x v).disk.pending = v.disk.pending ∨ (left x v).disk.pending = none) ∧
      (left x v).disk.attempts = v.disk.attempts := by
  refine leads.keeps (P := fun s => (s.pending = v.disk.pending ∨ s.pending = none) ∧
    s.attempts = v.disk.attempts) ⟨.inl rfl, rfl⟩ ?_
  rintro s t ⟨pending, attempts⟩ edit
  refine ⟨?_, (edit.attempts untold).trans attempts⟩
  rcases edit.pending unarmed with same | ⟨-, none⟩
  · rw [same]
    exact pending
  · exact .inr none

variable {version : V} {crash : Option (Nat × Nat)} {w : Volume (Updates V)}

/-- The active release stays older than one it was older than, unless another is made active. -/
theorem Edit.active_lt (ranked : Ranked u) (edit : Edit m u t)
    (uninstalled : ∀ record, m.aim ≠ .install record)
    (uncommitted : ∀ record, m.aim ≠ .commit record)
    (below : ∀ active, u.active = some active → active.version < version) :
    ∀ active, t.active = some active → active.version < version := by
  cases edit with
  | install aims holds known above unstaged disarmed => exact absurd aims (uninstalled _)
  | commit aims found pushed armed holds kin newer => exact absurd aims (uncommitted _)
  | @back active record aims found before holds kin =>
    rintro _ ⟨⟩
    exact lt_of_le_of_lt (ranked.previous active record found before) (below active found)
  | _ => exact below

/-! ## One activation -/

/-- An activation after so many launches: the release is pending still, with its launches counted
over what was recorded before, or no release is; before the first launch it is pending and newer
than the active release. -/
structure Trial (record : SlotRecord V) (base count : Nat) (u : Updates V) : Prop where
  pending : u.pending = some record ∨ u.pending = none
  counted : u.pending = some record → u.attempted record = base + count
  bounded : base + count ≤ maxAttempts
  unread : count = 0 → u.pending = some record ∧
    ∀ active, u.active = some active → active.version < record.version

variable {record : SlotRecord V} {base count : Nat}

theorem attempted_congr (same : t.attempts = u.attempts) : t.attempted record = u.attempted record := by
  unfold Updates.attempted
  rw [same]

/-- Once launched, a release may be settled. -/
theorem Trial.settled (h : Trial record base (count + 1) u)
    (pending : t.pending = u.pending ∨ t.pending = none) (attempts : t.attempts = u.attempts) :
    Trial record base (count + 1) t := by
  refine ⟨?_, fun still => ?_, h.bounded, nofun⟩
  · rcases pending with same | none
    · rw [same]
      exact h.pending
    · exact .inr none
  · rw [attempted_congr attempts]
    rcases pending with same | none
    · exact h.counted (same ▸ still)
    · cases none.symm.trans still

/-- An operation that leaves the pending release and the count alone and raises nothing. -/
theorem Trial.aside (coherent : Coherent) (order : InOrder u) (h : Trial record base count u)
    {α : Type} {x : Operation V α} {Q : α → Updates V → Prop}
    (leads : Leads (Edit m) ⟨u, crash⟩ x Q) (unarmed : m.arm = none) (armed : m.disarm = false)
    (untold : m.tally = false) (uninstalled : ∀ record, m.aim ≠ .install record)
    (uncommitted : ∀ record, m.aim ≠ .commit record) :
    Trial record base count (left x ⟨u, crash⟩).disk := by
  have kept := leads.keeps (P := fun s => InOrder s ∧ Trial record base count s) ⟨order, h⟩ ?_
  · exact kept.2
  rintro s t ⟨order, h⟩ edit
  have pending : t.pending = s.pending := by
    refine (edit.pending unarmed).resolve_right ?_
    rw [armed]
    nofun
  refine ⟨edit.inOrder coherent order, ?_, fun still => ?_, h.bounded, fun zero => ?_⟩
  · rw [pending]
    exact h.pending
  · rw [attempted_congr (edit.attempts untold)]
    exact h.counted (pending ▸ still)
  · obtain ⟨is, below⟩ := h.unread zero
    refine ⟨pending.trans is, ?_⟩
    exact edit.active_lt order.ranked uninstalled uncommitted below

/-- A failed activation changes nothing. -/
theorem activateStaged_fails (failed : Crash.succeeds activateStaged (calm u) = false) :
    left activateStaged (calm u) = calm u := by
  cases staged : u.staged with
  | none =>
    have missing : okOr u.staged UpdateError.invalidBundle = .error .invalidBundle := by
      rw [staged]
      rfl
    refine left_of_error (e := .failed .invalidBundle) ?_
    unfold activateStaged
    rw [run_look_calm, run_demand_error missing]
  | some record =>
    have found : okOr u.staged UpdateError.invalidBundle = .ok record := okOr_eq_ok.mpr staged
    cases holds : u.validateRecord record with
    | error e =>
      refine left_of_error (e := .failed e) ?_
      unfold activateStaged
      rw [run_look_calm, run_demand found, run_demand_error holds]
    | ok _ =>
      cases newer : u.validateAgainstActive record with
      | error e =>
        refine left_of_error (e := .failed e) ?_
        unfold activateStaged
        rw [run_look_calm, run_demand found, run_demand holds, run_demand_error newer]
      | ok _ =>
        unfold Crash.succeeds activateStaged at failed
        rw [run_look_calm, run_demand found, run_demand holds, run_demand newer] at failed
        cases failed

variable {bytes : Bytes} {verdict : Verdict} {event : Event V}

/-- A local staging that makes nothing pending leaves what was pending and the count. -/
theorem Trial.unstagedLocal (coherent : Coherent) (order : InOrder u)
    (h : Trial record base count u)
    (failed : ∀ digest volume, (stageLocalCandidate version bytes).run (calm u) ≠ .ok (some digest)
      volume) :
    Trial record base count (left (stageLocalCandidate version bytes) (calm u)).disk := by
  have leads : Leads (Edit {}) (calm u) (prepareLocal version bytes) _ :=
    prepareLocal_leads version bytes
  have kept := h.aside coherent order leads rfl rfl rfl nofun nofun
  unfold stageLocalCandidate at failed ⊢
  cases prepared : (prepareLocal version bytes).run (calm u) with
  | error halt w =>
    rw [left_bind_error prepared, ← left_of_error prepared]
    exact kept
  | ok result w =>
    rw [left_bind prepared, ← left_of_ok prepared]
    cases result with
    | none => exact kept
    | some ready =>
      have calmed := leads.ends_calm prepared
      refine absurd ?_ (failed ready.digest (calm { w.disk with pending := some ready }))
      rw [EStateM.run_bind, prepared]
      dsimp only
      rw [calmed]
      rfl

/-! ## Rounds -/

theorem launched_of_ok {candidate : SlotRecord V}
    (run : select.run ⟨u, crash⟩ = .ok (.trial candidate) w) :
    launched u ⟨.supervise verdict, crash⟩ = some candidate := by
  simp only [launched, run]

/-- A selection that goes on to settle the pending release launches nothing. -/
theorem launched_of_settles {x : Operation V Unit} {choice : Choice V}
    (other : ∀ candidate, choice ≠ .trial candidate)
    (run : select.run ⟨u, crash⟩ = (do x return choice : Operation V (Choice V)).run ⟨u, crash⟩) :
    launched u ⟨.supervise verdict, crash⟩ = none := by
  simp only [launched, run, EStateM.run_bind]
  cases x.run ⟨u, crash⟩ with
  | error halt w => rfl
  | ok _ w =>
    cases choice with
    | trial candidate => exact absurd rfl (other candidate)
    | _ => rfl

/-- What an event makes of an activation: its launch is counted, and the first decision on it is to
launch it. -/
structure Advances (record : SlotRecord V) (base count : Nat) (u : Updates V) (event : Event V) :
    Prop where
  trial : Trial record base (count + if launched u event = some record then 1 else 0) (u.after event)
  launch : count = 0 → consults u event → launched u event = some record

/-- An event that is no round of the supervisor. -/
theorem Advances.of_trial (unlaunched : launched u event = none) (unread : consults u event = false)
    (trial : Trial record base count (u.after event)) : Advances record base count u event := by
  refine ⟨?_, fun _ reads => ?_⟩
  · rw [unlaunched, if_neg nofun]
    exact trial
  · cases unread.symm.trans reads

section Supervisor

variable {verdict : Verdict} {crash : Option (Nat × Nat)} {active : SlotRecord V}

/-- A round that settles a release launched before. -/
theorem Trial.settles (h : Trial record base (count + 1) u) {x : Operation V Unit}
    {choice : Choice V} (selected : select.run ⟨u, crash⟩ = (do
      x
      return choice : Operation V (Choice V)).run ⟨u, crash⟩)
    (other : ∀ candidate, choice ≠ .trial candidate)
    (leaves : left (supervise verdict) ⟨u, crash⟩ = left x ⟨u, crash⟩)
    (leads : Leads (Edit m) ⟨u, crash⟩ x fun _ _ => True) (unarmed : m.arm = none)
    (untold : m.tally = false) :
    Advances record base (count + 1) u ⟨.supervise verdict, crash⟩ := by
  have unlaunched : launched u ⟨.supervise verdict, crash⟩ = none :=
    launched_of_settles other selected
  obtain ⟨pending, attempts⟩ := Update.settles leads unarmed untold
  refine ⟨?_, nofun⟩
  rw [unlaunched, if_neg nofun, Updates.after]
  change Trial record base (count + 1) (left (supervise verdict) ⟨u, crash⟩).disk
  rw [leaves]
  exact h.settled pending attempts

/-- The count after one more launch. -/
theorem Trial.launch (h : Trial record base count u) (pending : u.pending = some record)
    (unspent : ¬maxAttempts ≤ u.attempted record) :
    Trial record base (count + 1) { u with
      attempts := some ⟨record.digest, record.version, u.attempted record + 1⟩ } := by
  have counted := h.counted pending
  refine ⟨.inl pending, fun _ => ?_, ?_, nofun⟩
  · simp only [Updates.attempted, and_self, if_true]
    change u.attempted record + 1 = _
    omega
  · omega

section Order

variable (order : InOrder u) (h : Trial record base count u)

include order h

theorem Trial.idles (idle : u.pending = none) :
    Advances record base count u ⟨.supervise verdict, crash⟩ := by
  have selected : select.run ⟨u, crash⟩ = .ok .active ⟨u, crash⟩ := select_active order idle
  have unlaunched : launched u ⟨.supervise verdict, crash⟩ = none := by
    simp only [launched, selected]
  have unchanged : u.after ⟨.supervise verdict, crash⟩ = u :=
    congrArg Volume.disk (left_of_ok (supervise_active (v := ⟨u, crash⟩) order idle verdict))
  refine ⟨?_, fun zero => ?_⟩
  · rw [unlaunched, if_neg nofun, unchanged]
    exact h
  · cases idle.symm.trans (h.unread zero).1

/-- A round that launches, unless it is cut short before. -/
theorem Trial.launching (found : u.active = some active) (pending : u.pending = some record)
    (inactive : record ≠ active) (unspent : ¬maxAttempts ≤ u.attempted record) :
    Advances record base count u ⟨.supervise verdict, crash⟩ := by
  have selected := select_candidate (v := ⟨u, crash⟩) order found pending inactive
  rw [if_neg unspent] at selected
  have run := supervise_trial (v := ⟨u, crash⟩) order found pending inactive unspent verdict
  have launched_on : ∀ crash',
      select.run ⟨u, crash⟩ = .ok (.trial record) ⟨{ u with
        attempts := some ⟨record.digest, record.version, u.attempted record + 1⟩ }, crash'⟩ →
      left (supervise verdict) ⟨u, crash⟩ = left (judge record verdict) ⟨{ u with
        attempts := some ⟨record.digest, record.version, u.attempted record + 1⟩ }, crash'⟩ →
      Advances record base count u ⟨.supervise verdict, crash⟩ := by
    intro crash' tried leaves
    have started : launched u ⟨.supervise verdict, crash⟩ = some record := launched_of_ok tried
    refine ⟨?_, fun _ _ => started⟩
    rw [started, if_pos rfl, Updates.after]
    change Trial record base (count + 1) (left (supervise verdict) ⟨u, crash⟩).disk
    rw [leaves]
    have judged := judge_leads (m := { aim := .commit record, disarm := true })
      (v := ⟨{ u with attempts := some ⟨record.digest, record.version, u.attempted record + 1⟩ },
        crash'⟩) rfl rfl pending verdict
    obtain ⟨still, attempts⟩ := Update.settles judged rfl rfl
    exact (h.launch pending unspent).settled still attempts
  rcases crash with _ | ⟨_ | left, done⟩
  · exact launched_on none selected (left_eq run)
  · have stopped : u.after ⟨.supervise verdict, some (0, done)⟩ = u :=
      congrArg Volume.disk (left_eq run)
    refine Advances.of_trial ?_ ?_ (by rw [stopped]; exact h)
    · simp only [launched, selected]
      rfl
    · simp only [consults, Crash.succeeds, selected]
      rfl
  · exact launched_on (some (left, done)) selected (left_eq run)

/-- A round of the supervisor over a standing activation. -/
theorem Trial.supervise (unspent : base < maxAttempts) :
    Advances record base count u ⟨.supervise verdict, crash⟩ := by
  obtain ⟨active, found⟩ := Option.isSome_iff_exists.mp order.installed
  rcases h.pending with pending | idle
  · by_cases same : record = active
    · subst same
      cases count with
      | zero => exact absurd ((h.unread rfl).2 record found) (lt_irrefl _)
      | succ count =>
        exact h.settles (select_recovered (v := ⟨u, crash⟩) order found pending) nofun
          (supervise_recovered (v := ⟨u, crash⟩) order found pending verdict)
          (commitPending_leads (m := { aim := .commit record, disarm := true }) rfl rfl pending)
          rfl rfl
    by_cases spent : maxAttempts ≤ u.attempted record
    · cases count with
      | zero =>
        have counted := h.counted pending
        omega
      | succ count =>
        have selected := select_candidate (v := ⟨u, crash⟩) order found pending same
        rw [if_pos spent] at selected
        exact h.settles selected nofun
          (supervise_spent (v := ⟨u, crash⟩) order found pending same spent verdict)
          (discardPending_leads (m := { disarm := true }) rfl) rfl rfl
    · exact h.launching order found pending same spent
  · exact h.idles order idle

end Order

end Supervisor

/-- Whatever stands by an activation. -/
theorem Trial.step (coherent : Coherent) (order : InOrder u) (h : Trial record base count u)
    (unspent : base < maxAttempts) (stands : Stands u event) :
    Advances record base count u event := by
  obtain ⟨action, crash⟩ := event
  have leads : Leads (Edit (action.mandate u)) ⟨u, crash⟩ (perform action) fun _ _ => True :=
    perform_leads action
  cases action with
  | supervise verdict => exact h.supervise order unspent
  | revert failed =>
    refine .of_trial rfl rfl (h.aside coherent order leads rfl rfl rfl ?_ ?_)
    · intro other
      change u.previous.elim Aim.idle Aim.restore ≠ .install other
      cases u.previous <;> nofun
    · intro other
      change u.previous.elim Aim.idle Aim.restore ≠ .commit other
      cases u.previous <;> nofun
  | stage running target =>
    exact .of_trial rfl rfl (h.aside coherent order leads rfl rfl rfl nofun nofun)
  | activate =>
    obtain ⟨rfl, failed⟩ := stands
    have unchanged : u.after ⟨.activate, none⟩ = u := by
      have same := activateStaged_fails failed
      exact congrArg Volume.disk ((left_map _ _ _).trans same)
    exact .of_trial rfl rfl (by rw [unchanged]; exact h)
  | stageLocal version bytes =>
    obtain ⟨rfl, failed⟩ := stands
    refine .of_trial rfl rfl ?_
    have same : u.after ⟨.stageLocal version bytes, none⟩ =
        (left (stageLocalCandidate version bytes) (calm u)).disk :=
      congrArg Volume.disk (left_map _ _ _)
    rw [same]
    exact h.unstagedLocal coherent order failed
  | install version executable => exact stands.elim
  | cancel => exact stands.elim
  | commit => exact stands.elim
  | discard => exact stands.elim

/-- Over a whole run the launches are bounded, and none is missing once the supervisor has decided or
the release is no longer pending. -/
theorem Trial.run (coherent : Coherent) (order : InOrder u) (h : Trial record base count u)
    (unspent : base < maxAttempts) {later : List (Event V)} (standing : Standing u later) :
    base + count + launches record u later ≤ maxAttempts ∧
      (consulted u later ∨ (u.run later).pending ≠ some record →
        1 ≤ count + launches record u later) := by
  induction later generalizing u count with
  | nil =>
    refine ⟨h.bounded, ?_⟩
    rintro (never | gone)
    · cases never
    · refine Nat.one_le_iff_ne_zero.mpr fun zero => gone ?_
      exact (h.unread zero).1
  | cons event rest ih =>
    have advances := h.step coherent order unspent standing.1
    have next : InOrder (u.after event) := order.run coherent [event]
    obtain ⟨bounded, launched_once⟩ := ih next advances.trial standing.2
    rw [Update.launches]
    refine ⟨by omega, fun reason => ?_⟩
    by_cases first : count = 0 ∧ consults u event
    · rw [if_pos (advances.launch first.1 first.2)]
      omega
    by_cases zero : count = 0
    · have unread : consults u event = false := by simpa [zero] using first
      have later : consulted (u.after event) rest ∨ ((u.after event).run rest).pending ≠ some record := by
        rwa [consulted, unread, Bool.false_or] at reason
      have once := launched_once later
      omega
    · omega

/-- The launches recorded before that an activation does not clear. -/
def Order.inherits (u : Updates V) (record : SlotRecord V) : Order V → Nat
  | .stageLocal _ _ => u.attempted record
  | _ => 0

theorem activateStaged_ok (run : activateStaged.run (calm u) = .ok record w) :
    u.validateAgainstActive record = .ok () ∧
      w = calm { u with attempts := none, pending := some record } := by
  unfold activateStaged at run
  rw [run_look_calm] at run
  cases found : okOr u.staged UpdateError.invalidBundle with
  | error e => cases (run_demand_error found _).symm.trans run
  | ok staged =>
    rw [run_demand found] at run
    cases holds : u.validateRecord staged with
    | error e => cases (run_demand_error holds _).symm.trans run
    | ok _ =>
      rw [run_demand holds] at run
      cases newer : u.validateAgainstActive staged with
      | error e => cases (run_demand_error newer _).symm.trans run
      | ok _ =>
        rw [run_demand newer] at run
        cases run
        exact ⟨newer, rfl⟩

theorem stageLocalCandidate_ok {digest : Digest}
    (run : (stageLocalCandidate version bytes).run (calm u) = .ok (some digest) w) :
    digest = Sha256.digest bytes ∧ w.disk.pending = some ⟨version, digest⟩ ∧
      w.disk.attempts = u.attempts ∧
      ∀ active, w.disk.active = some active → active.version < version := by
  have leads : Leads (Edit {}) (calm u) (prepareLocal version bytes) _ :=
    prepareLocal_leads version bytes
  unfold stageLocalCandidate at run
  obtain ⟨result, middle, prepared, rest⟩ := run_bind_eq_ok.mp run
  cases result with
  | none => cases rest
  | some ready =>
    obtain ⟨rfl, -, active, found, newer, -⟩ := (Ends.ok leads prepared).2 ready rfl
    have attempts := (settles leads rfl rfl).2
    rw [left_of_ok prepared] at attempts
    have calmed := leads.ends_calm prepared
    rw [calmed] at rest
    cases rest
    refine ⟨rfl, rfl, attempts, fun other isOther => ?_⟩
    cases found.symm.trans isOther
    exact newer

/-- An activation of a release that is not active begins a trial. -/
theorem Activates.trial {order : Order V} (activates : Activates u record order)
    (inactive : u.active ≠ some record) (unspent : order.inherits u record < maxAttempts) :
    Trial record (order.inherits u record) 0 (u.after ⟨order, none⟩) := by
  cases order with
  | activate =>
    obtain ⟨w, run⟩ := activates
    obtain ⟨newer, rfl⟩ := activateStaged_ok run
    have same : u.after ⟨.activate, none⟩ = { u with attempts := none, pending := some record } :=
      congrArg Volume.disk ((left_map _ _ _).trans (left_of_ok run))
    rw [same]
    refine ⟨.inl rfl, fun _ => rfl, Nat.zero_le _, fun _ => ⟨rfl, fun active found => ?_⟩⟩
    obtain ⟨other, isOther, -, newer, -⟩ := Updates.validateAgainstActive_ok.mp newer
    have found : u.active = some active := found
    cases found.symm.trans isOther
    refine newer.resolve_left fun eq => inactive ?_
    rw [found, eq]
  | stageLocal version bytes =>
    obtain ⟨rfl, w, run⟩ := activates
    obtain ⟨-, pending, attempts, newer⟩ := stageLocalCandidate_ok run
    have same : u.after ⟨.stageLocal record.version bytes, none⟩ = w.disk :=
      congrArg Volume.disk ((left_map _ _ _).trans (left_of_ok run))
    rw [same]
    refine ⟨.inl pending, fun _ => ?_, unspent.le, fun _ => ⟨pending, newer⟩⟩
    rw [attempted_congr attempts]
    rfl
  | _ => exact activates.elim

/-- **A fair trial.** After any run from an installed directory, an activation of a release that is
not active, and of which a locally staged one has attempts left, is launched three times at most
while it is neither cancelled nor replaced, and once at least before the supervisor comes to any
other decision on it or the release ceases to be pending. -/
theorem activation_gets_fair_trial (coherent : Coherent) {start : Updates V}
    (installed : start.Installed) (history : List (Event V)) {order : Order V}
    (activates : Activates (start.run history) record order)
    (inactive : (start.run history).active ≠ some record)
    (unspent : order.inherits (start.run history) record < maxAttempts) {later : List (Event V)}
    (standing : Standing ((start.run history).after ⟨order, none⟩) later) :
    launches record ((start.run history).after ⟨order, none⟩) later ≤ maxAttempts ∧
      (consulted ((start.run history).after ⟨order, none⟩) later ∨
        (((start.run history).after ⟨order, none⟩).run later).pending ≠ some record →
          1 ≤ launches record ((start.run history).after ⟨order, none⟩) later) := by
  have inOrder := (installed.inOrder coherent).run coherent history
  have trial := activates.trial inactive unspent
  have next : InOrder ((start.run history).after ⟨order, none⟩) :=
    inOrder.run coherent [⟨order, none⟩]
  obtain ⟨bounded, once⟩ := trial.run coherent next unspent standing
  refine ⟨by omega, fun reason => ?_⟩
  have := once reason
  omega

end Runs

/-! ## Activations without a launch -/

attribute [local instance] summingSha256 plainPlatform

/-- A local candidate brings the supervisor down three times. -/
def spentCandidate : List (Event Nat) :=
  [⟨.stageLocal 2 [2], none⟩, ⟨.supervise .killed, none⟩, ⟨.supervise .killed, none⟩,
    ⟨.supervise .killed, none⟩]

/-- Staged once more, it is discarded at the next round and never launched again. -/
theorem spent_candidate_is_discarded :
    ∃ (start : Updates Nat) (history later : List (Event Nat)) (record : SlotRecord Nat)
      (order : Order Nat), start.Installed ∧ Activates (start.run history) record order ∧
        (start.run history).active ≠ some record ∧
        Standing ((start.run history).after ⟨order, none⟩) later ∧
        consulted ((start.run history).after ⟨order, none⟩) later ∧
        (((start.run history).after ⟨order, none⟩).run later).pending = none ∧
        launches record ((start.run history).after ⟨order, none⟩) later = 0 := by
  refine ⟨firstInstalled, spentCandidate, [⟨.supervise .killed, none⟩], ⟨2, .replicate 32 2⟩,
    .stageLocal 2 [2], firstInstalled_installed, ⟨rfl, ?_⟩, by decide +kernel, ⟨trivial, trivial⟩,
    by decide +kernel, by decide +kernel, by decide +kernel⟩
  have answer : (match (stageLocalCandidate 2 [2]).run (calm (firstInstalled.run spentCandidate)) with
      | .ok digest _ => decide (digest = some (.replicate 32 2))
      | .error _ _ => false) = true := by decide +kernel
  split at answer
  · next digest volume run =>
    exact ⟨volume, by rw [run, of_decide_eq_true answer]⟩
  · cases answer

/-- Staged for the first time, it is launched at the first round. -/
theorem activation_gets_fair_trial_pair :
    1 ≤ launches ⟨2, .replicate 32 2⟩ (firstInstalled.after ⟨.stageLocal 2 [2], none⟩)
      [⟨.supervise .killed, none⟩] := by
  have activates : Activates (firstInstalled.run []) ⟨2, .replicate 32 2⟩ (.stageLocal 2 [2]) := by
    have answer : (match (stageLocalCandidate 2 [2]).run (calm firstInstalled) with
        | .ok digest _ => decide (digest = some (.replicate 32 2))
        | .error _ _ => false) = true := by decide +kernel
    split at answer
    · next digest volume run =>
      exact ⟨rfl, volume, by rw [← of_decide_eq_true answer]; exact run⟩
    · cases answer
  have standing : Standing ((firstInstalled.run []).after ⟨.stageLocal 2 [2], none⟩)
      [⟨.supervise .killed, none⟩] := ⟨trivial, trivial⟩
  exact (activation_gets_fair_trial plainPlatform_coherent firstInstalled_installed [] activates
    (by decide +kernel) (by decide +kernel) standing).2 (.inl (by decide +kernel))

end Supgang.Update
