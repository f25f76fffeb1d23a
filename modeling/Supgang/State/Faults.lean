/-
# State.Faults — operations over a journal whose file calls may fail

Any call that the journal makes to the file system may fail. A journal operation that fails so
returns an I/O error, and the operation of the device then gives its journal handle up.

* `Operation.asks` — what an operation asks of the journal, and when it can still fail behind that.
* `Operation.under_deviates` — **an operation under faults does what it does without them, or it
  gives the handle up**.
* `Operation.under_idle` — without a handle an operation leaves the device as it is.
-/
import Supgang.State.Device
import Supgang.Theory.Outcome

namespace Supgang.State

set_option autoImplicit false

open Theory Supgang.Membership Supgang.Revocation Supgang.Invitation Supgang.Record Supgang.Journal
open EStateM (run_bind run_get)

variable [Sha256] [Ed25519]

/-! ## One operation under faults -/

omit [Sha256] [Ed25519] in
theorem run_failing_some {α : Type} (fault : Fault) (x : EStateM JournalError Tape α)
    (tape : Tape) : ∃ tape', (failing (some fault) x).run tape = .error .io tape' :=
  ⟨_, rfl⟩

/-- A journal call failed: the handle is gone, and of the state nothing else but the count of events
may differ. -/
def GaveUp (device : Device) (error : StateError) (after : Device) : Prop :=
  error = .journal .io ∧ ∃ count, after.state =
    { device.state with journal := none, eventCount := count }

theorem run_onJournal_error {α : Type} {x : EStateM JournalError Tape α} {device : Device}
    {error : JournalError} {tape : Tape} (h : x.run device.tape = .error error tape) :
    (onJournal x).run device = .ok (.error error) { device with tape } := by
  unfold onJournal attempt
  simp only [EStateM.run] at h ⊢
  rw [h]

theorem run_attemptDevice_error {α : Type} {x : DeviceM α} {device device' : Device}
    {error : StateError} (h : x.run device = .error error device') :
    (attemptDevice x).run device = .ok (.error error) device' := by
  unfold attemptDevice attempt
  simp only [EStateM.run, id] at h ⊢
  rw [h]

variable {displayName : String} {transportKeyId : TransportKeyId} {claims : EndpointClaims}
  {deviceKey : VerifyingKey} {roles : MembershipRoles} {admissionNonce : FixedBytes 32}
  {request : JoinRequest} {expectedNode nodeId : NodeId} {incoming : SignedRevocationList}
  {issuedAt expiresAt : UInt64} {faults : Faults}

section Deviating

variable {device : Device} {frames : List Bytes}

variable (correct : Ed25519.Correct) (holds : Holds device frames)

include correct holds

theorem compact_deviates (fault : Option Fault) :
    Deviates device (compact fault) compact (GaveUp device) := by
  cases fault with
  | none => exact .inl rfl
  | some fault =>
    obtain ⟨base, hbase, -⟩ := holds.sound.compaction correct
    obtain ⟨tape, hrun⟩ := run_failing_some fault (Journal.compact base) device.tape
    refine .inr ⟨.journal .io, ⟨{ device.state with journal := none }, tape⟩, ?_, rfl,
      device.state.eventCount, rfl⟩
    simp only [compact, run_bind, run_get, hbase, run_ofExcept_ok,
      run_journalMut holds.journal_eq, run_onJournal_error hrun, takeJournal, run_modifyState]
    rfl

theorem compactIfNeeded_deviates (faults : Faults) :
    Deviates device (compactIfNeeded faults) compactIfNeeded
      (fun error after => error = .journal .io ∧ ∃ journal count, after.state =
        { device.state with journal := journal, eventCount := count }) := by
  rw [Deviates, compactIfNeeded, compactIfNeeded, run_bind, run_bind,
    run_journalMut holds.journal_eq]
  dsimp only
  by_cases hlength : faults.length = true
  · exact .inr ⟨.journal .io, device, run_reject_bind_of hlength .., rfl, _, _, rfl⟩
  · have calm : ¬Faults.none.length = true := Bool.false_ne_true
    rw [run_reject_bind_of_not hlength, run_reject_bind_of_not calm]
    simp only [run_bind, run_get]
    split
    · rcases compact_deviates correct holds faults.compact with same | ⟨error, after, hrun, hgave⟩
      · exact .inl same
      · obtain ⟨rfl, count, hstate⟩ := hgave
        exact .inr ⟨_, after, hrun, rfl, none, count, hstate⟩
    · exact .inl rfl

/-- **An append under faults** commits as it does without them, or it gives the handle up. -/
theorem appendAuthoritative_deviates {event : StateEvent} (storable : event.Storable) :
    Deviates device (appendAuthoritative (eventBytes event) faults)
      (appendAuthoritative (eventBytes event)) (GaveUp device) := by
  rcases compactIfNeeded_deviates correct holds faults with same | ⟨error, after, hrun, rfl, journal,
    count, hstate⟩
  · obtain ⟨middle, base, hmiddle, -, hholds, hsize, hcompacted⟩ := run_compactIfNeeded correct holds
    have hkept : ∃ count, middle.state =
        { device.state with journal := some (handleOf base), eventCount := count } := by
      rcases hmiddle with ⟨rfl, rfl⟩ | rfl
      · refine ⟨middle.state.eventCount, ?_⟩
        rw [← holds.journal_eq]
      · exact ⟨_, rfl⟩
    obtain ⟨-, happend⟩ := hholds.run_append hsize storable
    cases hfault : faults.append with
    | none =>
      refine .inl ?_
      have calm : Faults.none.append = none := rfl
      simp only [appendAuthoritative, run_bind, failing_calm hfault, failing_calm calm,
        run_attemptDevice_ok hcompacted, run_attemptDevice_ok (same.trans hcompacted),
        run_journalMut hholds.journal_eq, run_onJournal_ok happend]
    | some fault =>
      obtain ⟨count, hstate⟩ := hkept
      obtain ⟨tape, hrun⟩ :=
        run_failing_some fault ((handleOf base).append (eventBytes event)) middle.tape
      refine .inr ⟨.journal .io, ⟨{ middle.state with journal := none }, tape⟩, ?_, rfl, count, ?_⟩
      · simp only [appendAuthoritative, run_bind, hfault,
          run_attemptDevice_ok (same.trans hcompacted), run_journalMut hholds.journal_eq,
          run_onJournal_error hrun, takeJournal, run_modifyState]
        rfl
      · rw [hstate]
  · refine .inr ⟨.journal .io, ⟨{ after.state with journal := none }, after.tape⟩, ?_, rfl, count, ?_⟩
    · simp only [appendAuthoritative, run_bind, run_attemptDevice_error hrun, takeJournal,
        run_modifyState]
      rfl
    · rw [hstate]

end Deviating

/-! ## Devices without a handle -/

/-- The device with this handle and this disk in place of its own. -/
def Device.rehandled (device : Device) (journal : Option Journal) (tape : Tape) : Device :=
  ⟨{ device.state with journal }, tape⟩

/-- The call has its answer already: on any handle it gives that answer and changes nothing. -/
def Answered {α : Type} (device : Device) (x : Faults → DeviceM α) (answer : α) : Prop :=
  ∀ faults journal tape, (x faults).run (device.rehandled journal tape) =
    .ok answer (device.rehandled journal tape)

/-- The call leaves the device as it is: it fails, or it has its answer already. -/
def Idle {α : Type} (device : Device) (x : Faults → DeviceM α) : Prop :=
  ∀ faults, Ends device (x faults) (fun answer after => after = device ∧ Answered device x answer)
    (· = device)

section Closed

variable {device : Device}

variable (closed : device.state.journal = none)

include closed

theorem run_journalMut_none : journalMut.run device = .error .readOnlySnapshot device := by
  rw [journalMut, run_bind, run_get]
  simp only [closed]
  rfl

theorem run_appendAuthoritative_none (faults : Faults) (encoded : Bytes) :
    (appendAuthoritative encoded faults).run device = .error .readOnlySnapshot device := by
  have hcompact : (compactIfNeeded faults).run device = .error .readOnlySnapshot device := by
    rw [compactIfNeeded, run_bind, run_journalMut_none closed]
  simp only [appendAuthoritative, run_bind, run_attemptDevice_error hcompact]
  rfl

theorem compact_refused (fault : Option Fault) :
    Ends device (compact fault) (fun _ _ => False) (· = device) := by
  refine .get (.ofExcept rfl fun _ _ => ?_)
  rw [Ends, run_bind, run_journalMut_none closed]

end Closed

/-! ## What an operation asks of the journal -/

/-- The failure came from the journal. -/
def StateError.ofJournal : StateError → Bool
  | .journal _ => true
  | _ => false

/-- The outcome is no failure of the journal. -/
def OwnOutcome {α : Type} (outcome : Except StateError α) : Prop :=
  ∀ error, outcome = .error error → error.ofJournal = false

section Own

omit [Sha256] [Ed25519]

variable {α ε : Type}

theorem okOr_own {value : Option α} {error : StateError} (other : error.ofJournal = false) :
    OwnOutcome (okOr value error) := by
  cases value with
  | some _ => exact nofun
  | none =>
    rintro _ ⟨⟩
    exact other

theorem mapError_own {x : Except ε α} {f : ε → StateError}
    (other : ∀ e, (f e).ofJournal = false) : OwnOutcome (x.mapError f) := by
  cases x with
  | ok _ => exact nofun
  | error e =>
    rintro _ ⟨⟩
    exact other e

end Own

def Operation.signs : Operation → Bool
  | .signEndpointRecord .. => true
  | _ => false

/-- What a call does, by the device it finds: it has its outcome already, on any handle and under
any faults, or it commits one event and then has it. Only a signature can fail behind its event,
which is then a sequence. -/
inductive Asks {α : Type} (signs : Bool) (device : Device) (x : Faults → DeviceM α) : Prop where
  | settled (outcome : Except StateError α) (own : OwnOutcome outcome)
      (runs : ∀ faults journal tape, (x faults).run (device.rehandled journal tape) =
        (ofExcept outcome : DeviceM α).run (device.rehandled journal tape))
  | commits {event : StateEvent} (storable : event.Storable) (change : LocalState → LocalState)
      (outcome : Except StateError α) (own : OwnOutcome outcome)
      (late : ∀ error, outcome = .error error → signs = true ∧ ∃ next,
        event = .sequence device.state.generation next ∧
        (∀ state, change state = effect state event) ∧
        checkedAdd device.state.sequence 1 = some next)
      (runs : ∀ faults, (x faults).run device = (do
        appendAuthoritative (eventBytes event) faults
        modifyState change
        ofExcept outcome : DeviceM α).run device)

namespace Asks

variable {α β : Type} {signs : Bool} {device : Device} {x : Faults → DeviceM α}

theorem get {f : Faults → Device → DeviceM α}
    (same : ∀ faults journal tape, f faults (device.rehandled journal tape) = f faults device)
    (rest : Asks signs device fun faults => f faults device) :
    Asks signs device fun faults => MonadState.get >>= f faults := by
  cases rest with
  | settled outcome own runs =>
    refine .settled outcome own fun faults journal tape => ?_
    rw [run_bind, run_get]
    simp only [same, runs]
  | commits storable change outcome own late runs =>
    exact .commits storable change outcome own late runs

theorem ofExcept {v : Except StateError β} {f : Faults → β → DeviceM α} (own : OwnOutcome v)
    (rest : ∀ b, v = .ok b → Asks signs device fun faults => f faults b) :
    Asks signs device fun faults => MonadExcept.ofExcept v >>= f faults := by
  cases v with
  | ok b => exact rest b rfl
  | error e => exact .settled (.error e) (fun _ h => own _ (by cases h; rfl)) fun _ _ _ => rfl

theorem reject {bad : Prop} [Decidable bad] {e : StateError} {f : Faults → Unit → DeviceM α}
    (other : e.ofJournal = false) (rest : ¬bad → Asks signs device fun faults => f faults ()) :
    Asks signs device fun faults => Theory.reject bad e >>= f faults := by
  by_cases h : bad
  · refine .settled (.error e) (by rintro _ ⟨⟩; exact other) fun faults journal tape => ?_
    rw [run_reject_bind_of h]
    rfl
  · have same : ∀ faults, (Theory.reject bad e >>= f faults) = f faults () := fun faults =>
      funext fun s => run_reject_bind_of_not h e (f faults) s
    simpa only [same] using rest h

theorem pure (value : α) : Asks signs device fun _ => (Pure.pure value : DeviceM α) :=
  .settled (.ok value) nofun fun _ _ _ => rfl

/-- The event is encoded, committed and applied. -/
theorem commit {event : StateEvent} (storable : event.Storable) (change : LocalState → LocalState)
    (value : α) :
    Asks signs device fun faults => do
      let encoded ← MonadExcept.ofExcept (encodeEvent event)
      appendAuthoritative encoded faults
      modifyState change
      return value := by
  refine .commits storable change (.ok value) nofun nofun fun faults => ?_
  rw [encodeEvent_ok storable, run_bind, run_ofExcept_ok]
  rfl

theorem map (asks : Asks signs device x) (g : α → β) :
    Asks signs device fun faults => do return g (← x faults) := by
  have failed : ∀ {outcome : Except StateError α} {error : StateError},
      outcome.map g = .error error → outcome = .error error := by
    rintro (e | a) error h <;> cases h
    rfl
  cases asks with
  | settled outcome own runs =>
    refine .settled (outcome.map g) (fun error h => own error (failed h)) fun faults journal tape => ?_
    rw [run_bind, runs]
    cases outcome <;> rfl
  | commits storable change outcome own late runs =>
    refine .commits storable change (outcome.map g) (fun error h => own error (failed h))
      (fun error h => late error (failed h)) fun faults => ?_
    rw [run_bind, runs]
    simp only [run_bind, run_modifyState]
    cases (appendAuthoritative _ faults).run device <;> cases outcome <;> rfl

end Asks

section Asking

variable {device : Device}

theorem reserveNextSequence_asks : Asks false device fun faults => reserveNextSequence faults := by
  refine .get (fun _ _ _ => rfl) (.ofExcept (okOr_own rfl) fun next _ => ?_)
  have storable : (StateEvent.sequence device.state.generation next).Storable := trivial
  exact .commit storable _ next

/-- The sequence that is reserved is the next one, and only what follows it can still fail. -/
theorem reserved_asks {α : Type} {next : UInt64} {outcome : Except StateError α}
    (own : OwnOutcome outcome) (counted : checkedAdd device.state.sequence 1 = some next) :
    Asks true device fun faults => (do
      let persisted ← reserveNextSequence faults
      reject (persisted ≠ next) StateError.invalidSequence
      ofExcept outcome : DeviceM α) := by
  have storable : (StateEvent.sequence device.state.generation next).Storable := trivial
  refine .commits storable (effect · (.sequence device.state.generation next)) outcome own
    (fun _ _ => ⟨rfl, next, rfl, fun _ => rfl, counted⟩) fun faults => ?_
  simp only [reserveNextSequence, counted, okOr_some, encodeEvent_ok storable, run_bind, run_get,
    run_ofExcept_ok, run_modifyState]
  cases (appendAuthoritative _ faults).run device with
  | ok _ after => simp only [EStateM.run_pure, run_reject, ne_eq, not_true_eq_false, if_false, effect]
  | error e after => rfl

theorem signEndpointRecord_asks : Asks true device fun faults =>
    signEndpointRecord displayName transportKeyId claims issuedAt expiresAt faults :=
  .get (fun _ _ _ => rfl) (.ofExcept (okOr_own rfl) fun _ _ => .reject rfl fun _ =>
    .reject rfl fun _ => .reject rfl fun _ => .ofExcept (okOr_own rfl) fun _ counted =>
    .ofExcept (mapError_own fun _ => rfl) fun _ _ =>
    reserved_asks (mapError_own fun _ => rfl) (okOr_eq_ok.mp counted))

theorem issueMembership_asks (correct : Ed25519.Correct) : Asks false device fun faults =>
    issueMembership deviceKey roles admissionNonce issuedAt expiresAt faults := by
  refine .get (fun _ _ _ => rfl) (.reject rfl fun _ => .reject rfl fun _ => .reject rfl fun _ =>
    .ofExcept (okOr_own rfl) fun _ _ => .ofExcept (okOr_own rfl) fun _ _ =>
    .ofExcept (mapError_own fun _ => rfl) fun signed hsigned => ?_)
  rw [mapError_eq_ok] at hsigned
  have storable : (StateEvent.membership signed).Storable :=
    .of_verify (Membership.sign_spec correct hsigned).2
  exact .commit storable _ _

theorem authorizeJoinRequest_asks (correct : Ed25519.Correct) : Asks false device fun faults =>
    authorizeJoinRequest request expectedNode roles issuedAt expiresAt faults := by
  refine .ofExcept (mapError_own fun _ => rfl) fun key _ => .reject rfl fun _ =>
    .get (fun _ _ _ => rfl) ?_
  cases device.state.memberships[NodeId.fromVerifyingKey key]? with
  | none => exact issueMembership_asks correct
  | some existing =>
    simp only
    split
    · exact .pure existing
    · exact .settled (.error .joinMismatch) (by rintro _ ⟨⟩; rfl) fun _ _ _ => rfl

theorem persistRevocations_asks {signed : SignedRevocationList} {key : VerifyingKey}
    (verified : signed.verify key = .ok ()) {α : Type} (value : α) :
    Asks false device fun faults => do persistRevocations signed faults; return value := by
  have storable : (StateEvent.revocation signed).Storable := .of_verify verified
  simp only [persistRevocations, bind_assoc]
  exact .commit storable _ value

theorem revoke_asks (correct : Ed25519.Correct) :
    Asks false device fun faults => revoke nodeId issuedAt faults := by
  refine .get (fun _ _ _ => rfl) (.reject rfl fun _ => .reject rfl fun _ => ?_)
  split
  · exact .pure _
  · refine .reject rfl fun _ => .ofExcept (okOr_own rfl) fun _ _ => .ofExcept (okOr_own rfl)
      fun _ _ => .ofExcept (mapError_own fun _ => rfl) fun signed hsigned => ?_
    rw [mapError_eq_ok] at hsigned
    exact persistRevocations_asks (Revocation.sign_spec correct hsigned).2 signed

theorem mergeRevocations_asks :
    Asks false device fun faults => mergeRevocations incoming faults := by
  refine .get (fun _ _ _ => rfl) (.ofExcept (mapError_own fun _ => rfl) fun _ hverify => ?_)
  rw [mapError_eq_ok] at hverify
  split
  · exact .pure false
  split
  · exact .reject rfl fun _ => .pure false
  refine .reject rfl fun _ => ?_
  split
  · exact .pure false
  · exact persistRevocations_asks hverify true

end Asking

theorem Operation.asks (correct : Ed25519.Correct) (device : Device) (operation : Operation)
    (other : operation ≠ .compact) :
    Asks operation.signs device fun faults => operation.program faults := by
  cases operation with
  | reserveNextSequence => exact reserveNextSequence_asks.map _
  | signEndpointRecord => exact signEndpointRecord_asks.map _
  | issueMembership => exact (issueMembership_asks correct).map _
  | authorizeJoinRequest => exact (authorizeJoinRequest_asks correct).map _
  | revoke => exact (revoke_asks correct).map _
  | mergeRevocations => exact mergeRevocations_asks.map _
  | compact => exact absurd rfl other

/-- **Under faults an operation does what it does without them, or it gives the handle up.** -/
theorem Operation.under_deviates (correct : Ed25519.Correct) {device : Device}
    {frames : List Bytes} (holds : Holds device frames) (operation : Operation) (faults : Faults) :
    Deviates device (operation.program faults) operation.program (GaveUp device) := by
  by_cases compacts : operation = .compact
  · subst compacts
    exact (compact_deviates correct holds faults.compact).bind _
  · cases operation.asks correct device compacts with
    | settled outcome _ runs =>
      have runs := fun faults => runs faults device.state.journal device.tape
      exact .inl ((runs faults).trans (runs .none).symm)
    | commits storable change outcome _ _ runs =>
      rw [Deviates, runs, runs]
      exact (appendAuthoritative_deviates correct holds storable).bind _

/-- **Without a handle every operation leaves the device as it is**: it fails, unless it asks for
what the device answers without a change. -/
theorem Operation.under_idle (correct : Ed25519.Correct) {device : Device}
    (closed : device.state.journal = none) (operation : Operation) :
    Idle device fun faults => operation.program faults := by
  intro faults
  by_cases compacts : operation = .compact
  · subst compacts
    exact .seq (compact_refused closed faults.compact) fun _ _ => False.elim
  · cases operation.asks correct device compacts with
    | settled outcome _ runs =>
      have run := runs faults device.state.journal device.tape
      cases outcome with
      | ok answer => exact .of_ok run ⟨rfl, runs⟩
      | error e =>
        rw [Ends, show (operation.program faults).run device = .error e device from run]
    | commits storable change outcome _ _ runs =>
      rw [Ends, runs, run_bind, run_appendAuthoritative_none closed]

end Supgang.State
