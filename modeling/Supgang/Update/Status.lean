/-
# Update.Status — reading the state of the updater

`status` checks a staged release against the active one as `activateStaged` does, and refuses to
answer where the check fails. What is staged is newer than what is active when it is staged. A
revert lowers the active version and an installation takes the staged release off; a commitment
raises the active version and takes the staged release off only where it is the one committed. A
local candidate committed past an older staged release therefore leaves a directory whose status can
no longer be read.

* `Ahead` — what is staged is newer than what is active.
* `Order.Timely` — a commitment does not pass what is staged.
* `status_can_be_read` — status and activation, over runs of timely operations.
* `passed_release_blocks_status` — the run in which status fails.
-/
import Supgang.Update.Soundness

namespace Supgang.Update

set_option autoImplicit false
set_option linter.unusedSectionVars false

open Theory Theory.Crash

section Runs

variable {V : Type} [Sha256] [Platform] [LinearOrder V] {m : Mandate V} {u t : Updates V}

/-! ## Staged releases -/

/-- The staged release is newer than the active one. -/
def Ahead (u : Updates V) : Prop :=
  ∀ staged active, u.staged = some staged → u.active = some active →
    active.version < staged.version

/-- Only a commitment can pass what is staged. -/
theorem Edit.ahead (ranked : Ranked u) (h : Ahead u) (uncommitted : ∀ record, m.aim ≠ .commit record)
    (edit : Edit m u t) : Ahead t := by
  cases edit with
  | stage found holds kin newer =>
    rintro _ active ⟨⟩ isActive
    exact newer active (Updates.mem_records.mpr (.inl isActive))
  | unstage => nofun
  | install aims holds known above unstaged disarmed =>
    intro staged active isStaged
    cases unstaged.symm.trans isStaged
  | commit aims found pushed armed holds kin newer => exact absurd aims (uncommitted _)
  | @back active record aims found before holds kin =>
    rintro staged _ isStaged ⟨⟩
    exact lt_of_le_of_lt (ranked.previous active record found before) (h staged active isStaged found)
  | _ => exact h

variable {staged : SlotRecord V} {verdict : Verdict}

/-- Whoever has status and activation to answer for finds the staged release in order. -/
theorem InOrder.validateStaged (h : InOrder u) (ahead : Ahead u) (found : u.staged = some staged) :
    u.validateRecord staged = .ok () ∧ u.validateAgainstActive staged = .ok () := by
  have member := Updates.mem_records.mpr (.inr (.inr (.inl found)))
  refine ⟨h.sound.holds staged member, h.validateAgainstActive member fun active isActive => ?_⟩
  exact .inr (ahead staged active found isActive)

theorem InOrder.status (h : InOrder u) (ahead : Ahead u) (running : V) (trusted : Bool)
    (queued : Nat) :
    u.status running (.ok trusted) (.ok queued) = .ok ⟨trusted, u.active.elim running SlotRecord.version,
      u.staged.map SlotRecord.version, u.pending.isSome, queued⟩ := by
  obtain ⟨active, found⟩ := Option.isSome_iff_exists.mp h.installed
  have held : u.validateRecord active = .ok () :=
    h.sound.holds active (Updates.mem_records.mpr (.inl found))
  have checked : (u.staged.forM fun staged => do
      u.validateRecord staged
      u.validateAgainstActive staged) = (.ok () : Except UpdateError Unit) := by
    cases isStaged : u.staged with
    | none => rfl
    | some staged =>
      obtain ⟨holds, newer⟩ := h.validateStaged ahead isStaged
      simp only [Option.forM, holds, ok_bind, newer]
  have isActive : u.active.forM u.validateRecord = .ok () := by
    rw [found]
    exact held
  rw [Updates.status, h.readPending, ok_bind, isActive, ok_bind, checked]
  rfl

theorem InOrder.activates (h : InOrder u) (ahead : Ahead u) (found : u.staged = some staged) :
    ∃ volume, activateStaged.run (calm u) = .ok staged volume := by
  obtain ⟨holds, newer⟩ := h.validateStaged ahead found
  have isStaged : okOr u.staged UpdateError.invalidBundle = .ok staged := okOr_eq_ok.mpr found
  refine ⟨calm { u with attempts := none, pending := some staged }, ?_⟩
  unfold activateStaged
  rw [run_look_calm, run_demand isStaged, run_demand holds, run_demand newer]
  rfl

/-! ## Commitments -/

/-- The directory after a commitment, before it is pruned. -/
def Updates.committed (u : Updates V) (record : SlotRecord V) : Updates V :=
  { u with
    previous := if u.active = some record then u.previous else u.active
    active := some record
    pending := none
    staged := u.staged.filter fun staged => staged.digest ≠ record.digest }

theorem removeStagedIfMatching_run (digest : Digest) (f : Unit → Operation V Unit) :
    (removeStagedIfMatching digest >>= f).run (calm u) =
      (f ()).run (calm { u with
        staged := u.staged.filter fun staged => staged.digest ≠ digest }) := by
  unfold removeStagedIfMatching
  rw [bind_assoc, run_look_calm]
  cases found : u.staged with
  | none =>
    have unchanged : ({ u with staged := none } : Updates V) = u := by rw [← found]
    change (f ()).run (calm u) = (f ()).run (calm { u with staged := none })
    rw [unchanged]
  | some staged =>
    by_cases same : staged.digest = digest
    · simp only [Option.any_some, same, decide_true, if_true, Option.filter_some, ne_eq,
        not_true_eq_false, decide_false, Bool.false_eq_true, if_false]
      rfl
    · have unchanged : ({ u with staged := some staged } : Updates V) = u := by rw [← found]
      simp only [Option.any_some, same, decide_false, Bool.false_eq_true, if_false,
        Option.filter_some, ne_eq, not_false_eq_true, decide_true, if_true, unchanged]
      rfl

variable {record : SlotRecord V}

theorem commitPending_run (installed : u.active.isSome) (holds : u.validateRecord record = .ok ())
    (newer : u.validateAgainstActive record = .ok ()) :
    (commitPending record).run (calm u) = pruneSlots.run (calm (u.committed record)) := by
  unfold commitPending
  rw [run_look_calm, run_demand holds, run_demand newer]
  by_cases same : u.active = some record
  · rw [if_neg (fun h => h.2 same)]
    change ((if u.active ≠ some record then writeActive record else pure ()) >>= _).run _ = _
    rw [if_neg (not_not.mpr same)]
    change (removeStagedIfMatching record.digest >>= fun _ => pruneSlots).run
      (calm { u with pending := none }) = _
    rw [removeStagedIfMatching_run, Updates.committed, if_pos same, ← same]
  · rw [if_pos ⟨installed, same⟩]
    change ((if u.active ≠ some record then writeActive record else pure ()) >>= _).run
      (calm { u with previous := u.active }) = _
    rw [if_pos same]
    change (removeStagedIfMatching record.digest >>= fun _ => pruneSlots).run
      (calm { u with previous := u.active, active := some record, pending := none }) = _
    rw [removeStagedIfMatching_run, Updates.committed, if_neg same]

/-- A commitment of the pending release leaves it active, and staged nothing of its digest. -/
theorem commitPending_left (h : InOrder u) (pending : u.pending = some record) :
    Shelves (u.committed record) (left (commitPending record) (calm u)).disk := by
  obtain ⟨-, valid⟩ := Updates.readPending_ok.mp h.readPending
  obtain ⟨holds, newer⟩ := valid record pending
  have run := commitPending_run h.installed holds newer
  have same : left (commitPending record) (calm u) = left pruneSlots (calm (u.committed record)) := by
    unfold left
    rw [run]
  rw [same]
  exact pruneSlots_shelves (calm (u.committed record))

/-- What is committed does not pass what is staged. -/
def Timely (u : Updates V) : Prop :=
  ∀ staged pending, u.staged = some staged → u.pending = some pending →
    staged.digest = pending.digest ∨ pending.version < staged.version

theorem Ahead.of_shelves (h : Ahead u) (shelves : Shelves u t) : Ahead t := by
  obtain ⟨_, _, rfl⟩ := shelves
  exact h

theorem Timely.committed (timely : Timely u) (pending : u.pending = some record) :
    Ahead (u.committed record) := by
  rintro staged _ found ⟨⟩
  obtain ⟨isStaged, different⟩ := Option.filter_eq_some_iff.mp found
  exact (timely staged record isStaged pending).resolve_left (by simpa using different)

/-- A commitment of what is active already passes nothing. -/
theorem Ahead.recommitted (ahead : Ahead u) (active : u.active = some record) :
    Ahead (u.committed record) := by
  rintro staged _ found ⟨⟩
  exact ahead staged record (Option.filter_eq_some_iff.mp found).1 active

/-- The condition on an operation: if it commits, what is staged is of the same digest or newer. -/
def Order.Timely (u : Updates V) : Order V → Prop
  | .commit | .supervise .healthy => Update.Timely u
  | _ => True

/-- Operations that meet a condition one after another, none cut short. -/
def Meets (P : Updates V → Order V → Prop) : Updates V → List (Order V) → Prop
  | _, [] => True
  | u, order :: rest => P u order ∧ Meets P (u.after ⟨order, none⟩) rest

/-- Runs in which no crash falls. -/
def calmly (orders : List (Order V)) : List (Event V) := orders.map fun order => ⟨order, none⟩

theorem Ahead.commit (h : InOrder u) (timely : Timely u) (pending : u.pending = some record) :
    Ahead (left (commitPending record) (calm u)).disk :=
  (timely.committed pending).of_shelves (commitPending_left h pending)

theorem ahead_commitRead (h : InOrder u) (ahead : Ahead u) (timely : Timely u) :
    Ahead (left commitRead (calm u)).disk := by
  have run : commitRead.run (calm u) =
      (u.pending.forM commitPending : Operation V Unit).run (calm u) := by
    unfold commitRead
    rw [run_look_calm, run_demand h.readPending]
  rw [left_eq run]
  cases pending : u.pending with
  | none => exact ahead
  | some record => exact Ahead.commit h timely pending

section Coherent

variable (coherent : Coherent) (h : InOrder u) (ahead : Ahead u)

include coherent h ahead

/-- What no commitment passes stays ahead. -/
theorem Ahead.leads {crash : Option (Nat × Nat)} {α : Type} {x : Operation V α}
    {Q : α → Updates V → Prop} (leads : Leads (Edit m) ⟨u, crash⟩ x Q)
    (uncommitted : ∀ record, m.aim ≠ .commit record) : Ahead (left x ⟨u, crash⟩).disk := by
  have both := leads.keeps (P := fun s => InOrder s ∧ Ahead s) ⟨h, ahead⟩ fun s t both edit =>
    ⟨edit.inOrder coherent both.1, edit.ahead both.1.ranked both.2 uncommitted⟩
  exact both.2

/-- A launched candidate is committed in time, discarded, or left as it is. -/
theorem ahead_judge {candidate : SlotRecord V} (pending : u.pending = some candidate)
    (timely : Order.Timely u (.supervise verdict)) :
    Ahead (left (judge candidate verdict) (calm u)).disk := by
  cases verdict with
  | healthy => exact Ahead.commit h timely pending
  | unhealthy =>
    exact Ahead.leads coherent h ahead (discardPending_leads (m := { disarm := true }) rfl) nofun
  | killed => exact ahead

theorem ahead_supervise (timely : Order.Timely u (.supervise verdict)) :
    Ahead (left (supervise verdict) (calm u)).disk := by
  obtain ⟨active, found⟩ := Option.isSome_iff_exists.mp h.installed
  cases pending : u.pending with
  | none =>
    rw [left_of_ok (supervise_active (v := calm u) h pending verdict)]
    exact ahead
  | some candidate =>
    by_cases same : candidate = active
    · subst same
      rw [supervise_recovered (v := calm u) h found pending]
      exact (ahead.recommitted found).of_shelves (commitPending_left h pending)
    by_cases spent : maxAttempts ≤ u.attempted candidate
    · rw [supervise_spent (v := calm u) h found pending same spent]
      exact Ahead.leads coherent h ahead (discardPending_leads (m := { disarm := true }) rfl) nofun
    · rw [left_eq (supervise_trial (v := calm u) h found pending same spent verdict)]
      set attempts : Option (Attempts V) :=
        some ⟨candidate.digest, candidate.version, u.attempted candidate + 1⟩
      have tallied : Edit { tally := true } u { u with attempts } := .tally rfl
      exact ahead_judge coherent (tallied.inOrder coherent h) ahead pending timely

theorem Ahead.after {order : Order V} (timely : order.Timely u) :
    Ahead (u.after ⟨order, none⟩) := by
  have leads : Leads (Edit (order.mandate u)) ⟨u, none⟩ (perform order) fun _ _ => True :=
    perform_leads order
  cases order with
  | commit => exact ahead_commitRead h ahead timely
  | supervise verdict => exact ahead_supervise coherent h ahead timely
  | revert failed =>
    refine Ahead.leads coherent h ahead leads ?_
    intro record
    change u.previous.elim Aim.idle Aim.restore ≠ .commit record
    cases u.previous <;> nofun
  | install version executable => exact Ahead.leads coherent h ahead leads nofun
  | stage running target => exact Ahead.leads coherent h ahead leads nofun
  | activate => exact Ahead.leads coherent h ahead leads nofun
  | cancel => exact Ahead.leads coherent h ahead leads nofun
  | stageLocal version bytes => exact Ahead.leads coherent h ahead leads nofun
  | discard => exact Ahead.leads coherent h ahead leads nofun

end Coherent

theorem Meets.ahead (coherent : Coherent) (h : InOrder u) (ahead : Ahead u)
    {orders : List (Order V)} (timely : Meets (fun u order => order.Timely u) u orders) :
    Ahead (u.run (calmly orders)) := by
  induction orders generalizing u with
  | nil => exact ahead
  | cons order rest ih =>
    have next : InOrder (u.after ⟨order, none⟩) := h.run coherent [⟨order, none⟩]
    exact ih next (Ahead.after coherent h ahead timely.1) timely.2

theorem Updates.Installed.ahead (coherent : Coherent) (installed : u.Installed) : Ahead u := by
  have all := installed.keeps (P := fun s => Sound s ∧ Ranked s ∧ Ahead s)
    ⟨sound_fresh, ranked_fresh, nofun⟩ fun _ s t uncommitted all edit =>
      ⟨edit.sound coherent all.1, edit.ranked all.1 all.2.1, edit.ahead all.2.1 all.2.2 uncommitted⟩
  exact all.1.2.2

/-- **Status can be read.** From an installed directory on, whatever operations run to their end of
which none commits a release past a staged one, status answers if the trusted root and the queue
of deliveries can be read, and whenever it names a staged version, activation accepts the staged
release. -/
theorem status_can_be_read (coherent : Coherent) {start : Updates V} (installed : start.Installed)
    {orders : List (Order V)} (timely : Meets (fun u order => order.Timely u) start orders)
    {trustedRootValid : Except UpdateError Bool} {queuedDeliveryCount : Except UpdateError Nat}
    {trusted : Bool} {queued : Nat} (rootRead : trustedRootValid = .ok trusted)
    (queueRead : queuedDeliveryCount = .ok queued) (running : V) :
    ∃ status,
      (start.run (calmly orders)).status running trustedRootValid queuedDeliveryCount =
          .ok status ∧
        status.trusted = trusted ∧ status.queuedPeerDeliveries = queued ∧
        (status.stagedVersion.isSome →
          succeeds activateStaged (calm (start.run (calmly orders)))) := by
  have order := (installed.inOrder coherent).run coherent (calmly orders)
  have ahead := Meets.ahead coherent (installed.inOrder coherent) (installed.ahead coherent) timely
  subst rootRead queueRead
  refine ⟨_, order.status ahead running trusted queued, rfl, rfl, fun reported => ?_⟩
  obtain ⟨staged, found⟩ := Option.isSome_iff_exists.mp (Option.isSome_map.symm.trans reported)
  obtain ⟨volume, run⟩ := order.activates ahead found
  unfold Crash.succeeds
  rw [run]

end Runs

/-! ## The run in which status fails -/

attribute [local instance] summingSha256 plainPlatform

/-- A signed release is staged, and a newer local candidate is staged and committed past it. -/
def passedRelease : List (Order Nat) :=
  [.stage 1 ⟨3, .replicate 32 3, 1, [3]⟩, .stageLocal 4 [4], .commit]

theorem passed_release_blocks_status :
    ∃ (start : Updates Nat) (orders : List (Order Nat)), start.Installed ∧
      (start.run (calmly orders)).status 1 (.ok true) (.ok 0) = .error .rollback :=
  ⟨firstInstalled, passedRelease, firstInstalled_installed, by decide +kernel⟩

/-- The same with the candidate discarded. -/
def discardedCandidate : List (Order Nat) :=
  [.stage 1 ⟨3, .replicate 32 3, 1, [3]⟩, .stageLocal 4 [4], .discard]

theorem status_can_be_read_discarded :
    ∃ status,
      (firstInstalled.run (calmly discardedCandidate)).status 1 (.ok true) (.ok 2) = .ok status ∧
      status.trusted = true ∧ status.queuedPeerDeliveries = 2 ∧
      (status.stagedVersion.isSome →
        succeeds activateStaged (calm (firstInstalled.run (calmly discardedCandidate)))) := by
  have timely : Meets (fun u order => order.Timely u) firstInstalled discardedCandidate :=
    ⟨trivial, trivial, trivial, trivial⟩
  exact status_can_be_read plainPlatform_coherent firstInstalled_installed timely rfl rfl 1

end Supgang.Update
