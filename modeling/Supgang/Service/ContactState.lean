/-
# Service.ContactState — the published contact stays valid and is not signed in a storm

`service/contact_state.rs`. A running service holds one signed contact and replaces it when its
interfaces change, when a monotonic deadline passes, or when the wall clock has used up half of the
record's real lifetime. Near the end of the membership records get shorter and shorter, and so does
the margin.

* `refreshContactIfDue` — one turn of the service loop.
* `Turned.valid`, `Publishes.within` — whatever a turn that returns leaves is valid now.
* `signings_length_le` — full records are half a lifetime apart, and each shortened one at least
  halves what is left of the membership.
* `published_contact_valid_and_calm` — **valid, and no storm**.
-/
import Supgang.State.Publication

namespace Supgang.Service

set_option autoImplicit false
set_option linter.unusedSectionVars false

open Theory List Supgang.Membership Record State Journal

/-! ## Durations and errors -/

def nanosPerSecond : Nat := 1000000000

/-- A span of time in nanoseconds whose seconds fit 64 bits. -/
structure Duration where
  nanos : Nat
  fits : nanos < 2 ^ 64 * nanosPerSecond

def Duration.asSecs (duration : Duration) : UInt64 := UInt64.ofNat (duration.nanos / nanosPerSecond)

def Duration.half (duration : Duration) : Duration :=
  ⟨duration.nanos / 2, (Nat.div_le_self _ _).trans_lt duration.fits⟩

theorem toNat_asSecs (duration : Duration) :
    duration.asSecs.toNat = duration.nanos / nanosPerSecond := by
  have fits : duration.nanos / nanosPerSecond < 2 ^ 64 :=
    Nat.div_lt_of_lt_mul (by rw [Nat.mul_comm]; exact duration.fits)
  rw [Duration.asSecs, UInt64.toNat_ofNat', Nat.mod_eq_of_lt fits]

theorem toNat_half_asSecs (duration : Duration) :
    duration.half.asSecs.toNat = duration.asSecs.toNat / 2 := by
  rw [toNat_asSecs, toNat_asSecs, Duration.half, Nat.div_div_eq_div_mul, Nat.div_div_eq_div_mul,
    Nat.mul_comm]

/-- The failures of a service that this module can meet. -/
inductive ServiceError where
  | state (error : StateError)
  | membershipExpired
deriving DecidableEq

/-- The part of the service policy that decides what is published. -/
structure ServiceConfig where
  displayName : String
  candidates : List EndpointCandidate
  services : List ServiceAdvert
  recordLifetime : Duration
  /-- Whether interface candidates are looked up again after network changes. -/
  automaticInterfaceRefresh : Bool

/-- A root-authorized member and its signed, short-lived endpoint claim. -/
structure PeerContact where
  membership : SignedMembership
  endpoint : SignedEndpointRecord
deriving DecidableEq

/-! ## One turn -/

/-- Wall time keeps advancing while some monotonic clocks pause in sleep; signed validity is checked
independently of the deadline. -/
def needsWallClockRefresh (issuedAt expiresAt now margin : UInt64) : Bool :=
  let actualMargin := saturatingSub expiresAt issuedAt / 2
  let margin := if margin < actualMargin then margin else actualMargin
  decide (now < issuedAt) || decide (saturatingSub expiresAt now ≤ margin)

section Refresh

variable [Sha256] [Ed25519]

def requireLiveMembership (state : LocalState) (now : UInt64) : Except ServiceError Unit := do
  let membership ← okOr state.localMembership (ServiceError.state .identityMismatch)
  reject (membership.certificate.expiresAt ≤ now) ServiceError.membershipExpired

/-- Signs a contact at the time `now` that the clock shows when it is made. -/
def makeLocalContact (transportKeyId : TransportKeyId) (config : ServiceConfig) (now : UInt64) :
    EStateM ServiceError Device PeerContact := do
  let state := (← get).state
  ofExcept (requireLiveMembership state now)
  let membership ← ofExcept (okOr state.localMembership (ServiceError.state .identityMismatch))
  let capabilities : Capabilities :=
    if membership.certificate.roles.contains .introducer then .introducer else ⟨0⟩
  let endpoint ← (signEndpointRecord config.displayName transportKeyId
    { candidates := config.candidates, capabilities, services := config.services } now
    (min (saturatingAdd now config.recordLifetime.asSecs)
      membership.certificate.expiresAt)).adaptExcept ServiceError.state
  return { membership, endpoint }

/-- What the service loop keeps between turns. -/
structure Publisher where
  device : Device
  contact : PeerContact
  deadline : Nat

/-- Runs a program over the device. -/
def onDevice {α : Type} (program : EStateM ServiceError Device α) :
    EStateM ServiceError Publisher α := fun publisher =>
  match program.run publisher.device with
  | .ok value device => .ok value { publisher with device }
  | .error error device => .error error { publisher with device }

/-- One turn, with the two clocks it is given and the wall time `now` at which it signs. -/
def refreshContactIfDue (transportKeyId : TransportKeyId) (config : ServiceConfig)
    (clocks : Nat × UInt64) (interfacesChanged : Bool) (now : UInt64) :
    EStateM ServiceError Publisher Bool := do
  let (monotonic, wall) := clocks
  let publisher ← get
  ofExcept (requireLiveMembership publisher.device.state wall)
  let delay := config.recordLifetime.half
  let record := publisher.contact.endpoint.record
  if interfacesChanged = false ∧ monotonic < publisher.deadline ∧
      needsWallClockRefresh record.issuedAt record.expiresAt wall delay.asSecs = false then
    return false
  else do
    let contact ← onDevice (makeLocalContact transportKeyId config now)
    modify fun publisher => { publisher with contact, deadline := monotonic + delay.nanos }
    return true

/-! ## Signing leaves the memberships alone -/

/-- The members and the identity of the device have not changed. -/
def SameMembers (device after : Device) : Prop :=
  after.state.memberships = device.state.memberships ∧ after.state.identity = device.state.identity

theorem SameMembers.localMembership {device after : Device} (same : SameMembers device after) :
    after.state.localMembership = device.state.localMembership := by
  rw [LocalState.localMembership, same.1, same.2, LocalState.localMembership]

/-- However it ends, the program leaves the members alone. -/
def Stays {ε α : Type} (program : EStateM ε Device α) : Prop :=
  ∀ device, Ends device program (fun _ after => SameMembers device after) (SameMembers device)

namespace Stays

variable {ε ε' α β : Type}

theorem pure {value : α} : Stays (Pure.pure value : EStateM ε Device α) := fun _ => ⟨rfl, rfl⟩

theorem throw {error : ε} : Stays (MonadExcept.throw error : EStateM ε Device α) :=
  fun _ => ⟨rfl, rfl⟩

theorem get : Stays (MonadState.get : EStateM ε Device Device) := fun _ => ⟨rfl, rfl⟩

theorem ofExcept {value : Except ε α} :
    Stays (MonadExcept.ofExcept value : EStateM ε Device α) := fun _ =>
  .of_ofExcept ⟨rfl, rfl⟩ fun _ _ => ⟨rfl, rfl⟩

theorem reject {bad : Prop} [Decidable bad] {error : ε} :
    Stays (Theory.reject bad error : EStateM ε Device Unit) := by
  intro device
  rw [Ends, run_reject]
  split <;> rename_i run <;> split at run <;> cases run <;> exact ⟨rfl, rfl⟩

theorem bind {program : EStateM ε Device α} {rest : α → EStateM ε Device β}
    (first : Stays program) (then_ : ∀ value, Stays (rest value)) : Stays (program >>= rest) := by
  intro device
  refine .seq (first device) fun value middle same => ?_
  have trans : ∀ after, SameMembers middle after → SameMembers device after := fun after next =>
    ⟨next.1.trans same.1, next.2.trans same.2⟩
  exact (then_ value middle).mono (fun _ => trans) trans

theorem modifyState {change : LocalState → LocalState}
    (keeps : ∀ state, (change state).memberships = state.memberships ∧
      (change state).identity = state.identity) : Stays (State.modifyState change) :=
  fun device => keeps device.state

/-- The outcome of a program over a part of the device, whose changes leave the members alone. -/
theorem attempt {τ : Type} {part : Device → τ} {put : τ → Device → Device}
    {program : EStateM ε' τ α}
    (keeps : ∀ device, Ends (part device) program (fun _ after => SameMembers device (put after
      device))
      fun after => SameMembers device (put after device)) :
    Stays (Theory.attempt part put program : EStateM ε Device (Except ε' α)) := by
  intro device
  have ends := keeps device
  unfold Ends at ends ⊢
  cases run : program.run (part device) with
  | ok value after =>
    rw [run] at ends
    rw [EStateM.run, Theory.attempt, run]
    exact ends
  | error error after =>
    rw [run] at ends
    rw [EStateM.run, Theory.attempt, run]
    exact ends

theorem onJournal {program : EStateM JournalError Tape α} : Stays (State.onJournal program) := by
  refine .attempt fun device => ?_
  unfold Ends
  split <;> exact ⟨rfl, rfl⟩

theorem attemptDevice {program : DeviceM α} (inner : Stays program) :
    Stays (State.attemptDevice program) := .attempt inner

theorem adaptExcept {program : EStateM ε Device α} {f : ε → ε'} (inner : Stays program) :
    Stays (program.adaptExcept f) := fun device => (inner device).adaptExcept

end Stays

theorem journalMut_stays : Stays journalMut := .bind .get fun _ => .ofExcept

theorem setJournal_stays (journal : Journal) : Stays (setJournal journal) :=
  .modifyState fun _ => ⟨rfl, rfl⟩

theorem takeJournal_stays : Stays takeJournal := .modifyState fun _ => ⟨rfl, rfl⟩

theorem compact_stays : Stays compact := by
  refine .bind .get fun _ => .bind .ofExcept fun _ => .bind journalMut_stays fun _ =>
    .bind .onJournal fun outcome => ?_
  cases outcome with
  | ok journal => exact .modifyState fun _ => ⟨rfl, rfl⟩
  | error error => exact .bind takeJournal_stays fun _ => .throw

theorem compactIfNeeded_stays : Stays compactIfNeeded := by
  refine .bind journalMut_stays fun _ => .bind .reject fun _ => .bind .get fun _ => ?_
  split
  · exact compact_stays
  · exact .pure

theorem appendAuthoritative_stays (encoded : Bytes) : Stays (appendAuthoritative encoded) := by
  refine .bind (.attemptDevice compactIfNeeded_stays) fun outcome => ?_
  cases outcome with
  | error error =>
    cases error with
    | journal error => exact .bind takeJournal_stays fun _ => .throw
    | _ => exact .throw
  | ok =>
    have failing : ∀ error : JournalError,
        Stays (do takeJournal; throw (StateError.journal error) : DeviceM Unit) :=
      fun _ => .bind takeJournal_stays fun _ => .throw
    refine .bind journalMut_stays fun journal => .bind .onJournal fun outcome => ?_
    split
    · exact setJournal_stays _
    · refine .bind compact_stays fun _ => .bind journalMut_stays fun _ => .bind .onJournal ?_
      intro again
      cases again with
      | ok journal => exact setJournal_stays journal
      | error error => exact failing error
    · exact failing _

theorem reserveNextSequence_stays : Stays reserveNextSequence := by
  refine .bind .get fun _ => .bind .ofExcept fun _ => .bind .ofExcept fun encoded => ?_
  exact .bind (appendAuthoritative_stays encoded) fun _ =>
    .bind (.modifyState fun _ => ⟨rfl, rfl⟩) fun _ => .pure

theorem signEndpointRecord_stays (displayName : String) (transportKeyId : TransportKeyId)
    (claims : EndpointClaims) (issuedAt expiresAt : UInt64) :
    Stays (signEndpointRecord displayName transportKeyId claims issuedAt expiresAt) := by
  refine .bind .get fun _ => .bind .ofExcept fun _ => .bind .reject fun _ => .bind .reject fun _ =>
    .bind .reject fun _ => .bind .ofExcept fun _ => .bind .ofExcept fun _ => ?_
  exact .bind reserveNextSequence_stays fun _ => .bind .reject fun _ => .ofExcept

theorem makeLocalContact_stays (transportKeyId : TransportKeyId) (config : ServiceConfig)
    (now : UInt64) : Stays (makeLocalContact transportKeyId config now) := by
  refine .bind .get fun _ => .bind .ofExcept fun _ => .bind .ofExcept fun _ => ?_
  exact .bind (.adaptExcept (signEndpointRecord_stays _ _ _ _ _)) fun _ => .pure

/-! ## What a turn does -/

theorem requireLiveMembership_eq_ok {state : LocalState} {now : UInt64} {u : Unit} :
    requireLiveMembership state now = .ok u ↔ ∃ membership,
      state.localMembership = some membership ∧ now < membership.certificate.expiresAt := by
  simp only [requireLiveMembership, ok_steps, not_le]

/-- What a contact made at `now` is, by the membership of its device. -/
structure Made (config : ServiceConfig) (now : UInt64) (membership : SignedMembership)
    (contact : PeerContact) : Prop where
  live : now < membership.certificate.expiresAt
  membership_eq : contact.membership = membership
  issued : contact.endpoint.record.issuedAt = now
  expires : contact.endpoint.record.expiresAt =
    min (saturatingAdd now config.recordLifetime.asSecs) membership.certificate.expiresAt

theorem makeLocalContact_makes (transportKeyId : TransportKeyId) (config : ServiceConfig)
    (now : UInt64) (device : Device) :
    Ends device (makeLocalContact transportKeyId config now)
      (fun contact _ => ∃ membership, device.state.localMembership = some membership ∧
        Made config now membership contact) fun _ => True := by
  refine .get (.ofExcept trivial fun _ live => .ofExcept trivial fun membership found => ?_)
  obtain ⟨other, known, live⟩ := requireLiveMembership_eq_ok.mp live
  obtain rfl := Option.some.inj (known.symm.trans (okOr_eq_ok.mp found))
  refine .seq (P := fun signed _ => signed.record.issuedAt = now ∧ signed.record.expiresAt =
    min (saturatingAdd now config.recordLifetime.asSecs) other.certificate.expiresAt)
    (.adaptExcept ?_) fun signed after made => ?_
  · unfold Ends
    split
    · rename_i signed after run
      obtain ⟨_, next, returns⟩ := signEndpointRecord_returns run
      have made := returns.signed
      simp only [SignedEndpointRecord.sign, ok_steps] at made
      obtain ⟨_, -, _, -, _, -, _, -, rfl⟩ := made
      exact ⟨rfl, rfl⟩
    · trivial
  · exact .pure ⟨other, known, live, rfl, made.1, made.2⟩

/-- The two clocks of a turn and what it finds. Wall time is read in whole seconds. -/
structure Turn where
  config : ServiceConfig
  interfacesChanged : Bool
  monotonic : Nat
  /-- The wall clock in nanoseconds since the epoch. -/
  instant : Nat
  fits : instant < 2 ^ 64 * nanosPerSecond

def Turn.wall (turn : Turn) : UInt64 := UInt64.ofNat (turn.instant / nanosPerSecond)

theorem Turn.toNat_wall (turn : Turn) : turn.wall.toNat = turn.instant / nanosPerSecond :=
  toNat_asSecs ⟨turn.instant, turn.fits⟩

/-- The turn, where signing takes no time. -/
def Turn.refresh (turn : Turn) (transportKeyId : TransportKeyId) :
    EStateM ServiceError Publisher Bool :=
  refreshContactIfDue transportKeyId turn.config (turn.monotonic, turn.wall)
    turn.interfacesChanged turn.wall

/-- The contact is to be replaced at this turn. -/
def Turn.Due (turn : Turn) (publisher : Publisher) : Prop :=
  turn.interfacesChanged = true ∨ publisher.deadline ≤ turn.monotonic ∨
    needsWallClockRefresh publisher.contact.endpoint.record.issuedAt
      publisher.contact.endpoint.record.expiresAt turn.wall
      turn.config.recordLifetime.half.asSecs = true

/-- What a turn that returns has done. -/
structure Turned (turn : Turn) (publisher : Publisher) (membership : SignedMembership)
    (signed : Bool) (after : Publisher) : Prop where
  live : turn.wall < membership.certificate.expiresAt
  members : SameMembers publisher.device after.device
  kept : signed = false → ¬turn.Due publisher ∧ after = publisher
  made : signed = true → turn.Due publisher ∧ Made turn.config turn.wall membership after.contact ∧
    after.deadline = turn.monotonic + turn.config.recordLifetime.half.nanos

variable {publisher : Publisher} {membership : SignedMembership}

theorem onDevice_ends {α : Type} {program : EStateM ServiceError Device α} {Q : α → Device → Prop}
    {E : Device → Prop} (h : Ends publisher.device program Q E) :
    Ends publisher (onDevice program)
      (fun value after => Q value after.device ∧ after.contact = publisher.contact ∧
        after.deadline = publisher.deadline)
      (fun after => E after.device ∧ after.contact = publisher.contact ∧
        after.deadline = publisher.deadline) := by
  have step : (onDevice program).run publisher = match program.run publisher.device with
      | .ok value device => .ok value { publisher with device }
      | .error error device => .error error { publisher with device } := rfl
  unfold Ends at h ⊢
  rw [step]
  split at h <;> rename_i run <;> rw [run] <;> exact ⟨h, rfl, rfl⟩

theorem refresh_ends (transportKeyId : TransportKeyId) (turn : Turn) (publisher : Publisher) :
    Ends publisher (turn.refresh transportKeyId)
      (fun signed after => ∃ membership, publisher.device.state.localMembership = some membership ∧
        Turned turn publisher membership signed after)
      (fun after => SameMembers publisher.device after.device ∧
        after.contact = publisher.contact ∧ after.deadline = publisher.deadline) := by
  refine .get (.ofExcept ⟨⟨rfl, rfl⟩, rfl, rfl⟩ fun _ live => ?_)
  obtain ⟨membership, known, live⟩ := requireLiveMembership_eq_ok.mp live
  dsimp only
  split
  · rename_i idle
    refine .pure ⟨membership, known, live, ⟨rfl, rfl⟩, fun _ => ⟨?_, rfl⟩, nofun⟩
    rintro (changed | passed | due)
    · rw [idle.1] at changed
      cases changed
    · exact absurd idle.2.1 (not_lt.mpr passed)
    · rw [idle.2.2] at due
      cases due
  · rename_i due
    have due : turn.Due publisher := by
      by_contra idle
      simp only [Turn.Due, not_or, Bool.not_eq_true, not_le] at idle
      exact due idle
    have making := (makeLocalContact_stays transportKeyId turn.config turn.wall
      publisher.device).and (makeLocalContact_makes transportKeyId turn.config turn.wall
      publisher.device)
    refine .seq (P := fun contact after => SameMembers publisher.device after.device ∧
      Made turn.config turn.wall membership contact ∧ after.contact = publisher.contact) ?_ ?_
    · refine (onDevice_ends making).mono ?_ ?_
      · rintro contact after ⟨⟨members, other, known', made⟩, contact_eq, -⟩
        obtain rfl := Option.some.inj (known.symm.trans known')
        exact ⟨members, made, contact_eq⟩
      · rintro after ⟨⟨members, -⟩, kept⟩
        exact ⟨members, kept⟩
    · rintro contact middle ⟨members, made, -⟩
      exact ⟨membership, known, live, members, nofun, fun _ => ⟨due, made, rfl⟩⟩

/-! ## Every published contact is valid -/

/-- The publishers of a service: the one it starts with, and what turns leave. -/
inductive Publishes (transportKeyId : TransportKeyId) : Publisher → Prop
  | started {config : ServiceConfig} {now : UInt64} {device after : Device} {contact : PeerContact}
      (made : (makeLocalContact transportKeyId config now).run device = .ok contact after)
      (deadline : Nat) : Publishes transportKeyId ⟨after, contact, deadline⟩
  | turned {publisher : Publisher} (turn : Turn) (before : Publishes transportKeyId publisher) :
      Publishes transportKeyId (left (turn.refresh transportKeyId) publisher)

/-- The held record is one of the device's own membership, and does not outlive it. -/
structure Publisher.Within (publisher : Publisher) : Prop where
  own : publisher.device.state.localMembership = some publisher.contact.membership
  ends : publisher.contact.endpoint.record.expiresAt ≤
    publisher.contact.membership.certificate.expiresAt

theorem Made.within {config : ServiceConfig} {now : UInt64}
    (made : Made config now membership publisher.contact)
    (own : publisher.device.state.localMembership = some membership) : publisher.Within := by
  rw [← made.membership_eq] at own
  refine ⟨own, ?_⟩
  rw [made.expires, made.membership_eq]
  exact min_le_right _ _

theorem Turned.within {turn : Turn} {after : Publisher} {signed : Bool}
    (turned : Turned turn publisher membership signed after)
    (known : publisher.device.state.localMembership = some membership) (within : publisher.Within) :
    after.Within := by
  cases signed with
  | false => rw [(turned.kept rfl).2]; exact within
  | true => exact (turned.made rfl).2.1.within (turned.members.localMembership.trans known)

theorem Publishes.within {transportKeyId : TransportKeyId}
    (publishes : Publishes transportKeyId publisher) : publisher.Within := by
  induction publishes with
  | @started config now device after contact made deadline =>
    obtain ⟨membership, known, isMade⟩ := (makeLocalContact_makes _ _ _ device).ok made
    have same := (makeLocalContact_stays transportKeyId config now device).ok made
    exact @Made.within _ _ ⟨after, contact, deadline⟩ membership config now isMade
      (same.localMembership.trans known)
  | @turned publisher turn _ ih =>
    refine ((refresh_ends transportKeyId turn publisher).mono ?_ ?_).left
    · rintro signed after ⟨membership, known, turned⟩
      exact turned.within known ih
    · rintro after ⟨members, contact_eq, -⟩
      refine ⟨?_, by rw [contact_eq]; exact ih.ends⟩
      rw [members.localMembership, contact_eq]
      exact ih.own

theorem Turned.valid {turn : Turn} {after : Publisher} {signed : Bool}
    (turned : Turned turn publisher membership signed after)
    (lasting : nanosPerSecond ≤ turn.config.recordLifetime.nanos) :
    after.contact.endpoint.record.issuedAt ≤ turn.wall ∧
      turn.wall < after.contact.endpoint.record.expiresAt := by
  cases signed with
  | false =>
    obtain ⟨idle, rfl⟩ := turned.kept rfl
    simp only [Turn.Due, not_or, Bool.not_eq_true, needsWallClockRefresh, Bool.or_eq_false_iff,
      decide_eq_false_iff_not, not_lt, not_le] at idle
    obtain ⟨-, -, begun, left⟩ := idle
    refine ⟨begun, ?_⟩
    have positive := UInt64.lt_iff_toNat_lt.mp left
    rw [toNat_saturatingSub] at positive
    rw [UInt64.lt_iff_toNat_lt]
    omega
  | true =>
    obtain ⟨-, made, -⟩ := turned.made rfl
    have second : 0 < turn.config.recordLifetime.asSecs.toNat := by
      rw [toNat_asSecs]
      exact Nat.div_pos lasting (by decide)
    have live := UInt64.lt_iff_toNat_lt.mp turned.live
    have bounded := membership.certificate.expiresAt.toNat_lt
    refine ⟨le_of_eq made.issued, ?_⟩
    rw [made.expires]
    refine lt_min (UInt64.lt_iff_toNat_lt.mpr ?_) turned.live
    rw [toNat_saturatingAdd]
    omega

/-! ## How far apart records are signed -/

/-- Two signing times in a row: half a lifetime apart, and near the end of the membership with at
most half of the rest still to go. -/
def Spaced (lifetime ends t t' : Nat) : Prop :=
  if t + lifetime ≤ ends then t + lifetime / 2 ≤ t' else 2 * (ends - t') ≤ ends - t

section Spacing

variable {lifetime ends t : Nat} {times : List Nat}

/-- Once records are shortened, each leaves at most half of the time the one before had. -/
theorem shortened_length_le (chain : (t :: times).IsChain (Spaced lifetime ends))
    (short : ends < t + lifetime) (before : ∀ time ∈ times, time < ends) :
    times.length ≤ Nat.log 2 (ends - t) := by
  induction times generalizing t with
  | nil => exact Nat.zero_le _
  | cons t' times ih =>
    obtain ⟨spaced, chain⟩ := isChain_cons_cons.mp chain
    obtain ⟨early, before⟩ := forall_mem_cons.mp before
    rw [Spaced, if_neg (not_le.mpr short)] at spaced
    have rest := ih chain (by omega) before
    calc (t' :: times).length = times.length + 1 := length_cons
      _ ≤ Nat.log 2 (ends - t') + 1 := Nat.succ_le_succ rest
      _ = Nat.log 2 ((ends - t') * 2) := (Nat.log_mul_base (by decide) (by omega)).symm
      _ ≤ Nat.log 2 (ends - t) := Nat.log_mono_right (by omega)

theorem spaced_length_le {last : Nat} (chain : (t :: times).IsChain (Spaced lifetime ends))
    (long : 2 ≤ lifetime) (before : ∀ time ∈ times, time < ends)
    (until_ : ∀ time ∈ times, time ≤ last) :
    times.length ≤ (last - t) / (lifetime / 2) + Nat.log 2 lifetime + 1 := by
  induction times generalizing t with
  | nil => exact Nat.zero_le _
  | cons t' times ih =>
    by_cases full : t + lifetime ≤ ends
    · obtain ⟨spaced, chain⟩ := isChain_cons_cons.mp chain
      obtain ⟨early, before⟩ := forall_mem_cons.mp before
      obtain ⟨inside, until_⟩ := forall_mem_cons.mp until_
      rw [Spaced, if_pos full] at spaced
      have rest := ih chain before until_
      have longer : (last - t') / (lifetime / 2) + 1 ≤ (last - t) / (lifetime / 2) := by
        rw [← Nat.add_div_right _ (by omega)]
        exact Nat.div_le_div_right (by omega)
      rw [length_cons]
      omega
    · have few := shortened_length_le chain (not_le.mp full) before
      have smaller : Nat.log 2 (ends - t) ≤ Nat.log 2 lifetime := Nat.log_mono_right (by omega)
      exact (few.trans smaller).trans ((Nat.le_add_left _ _).trans (Nat.le_succ _))

end Spacing

/-! ## No storm -/

/-- The clocks of two turns, the monotonic one no faster than the wall clock. -/
structure Follows (earlier later : Turn) : Prop where
  monotonic : earlier.monotonic ≤ later.monotonic
  wall : earlier.instant ≤ later.instant
  slower : later.monotonic - earlier.monotonic ≤ later.instant - earlier.instant

/-- The wall times at which turns sign a record. -/
def signings (transportKeyId : TransportKeyId) : Publisher → List Turn → List Nat
  | _, [] => []
  | publisher, turn :: turns =>
    match (turn.refresh transportKeyId).run publisher with
    | .ok true after => turn.wall.toNat :: signings transportKeyId after turns
    | .ok false after => signings transportKeyId after turns
    | .error _ after => signings transportKeyId after turns

/-- The publisher holds what the turn `last` has signed. -/
structure Since (lifetime : Duration) (membership : SignedMembership) (last : Turn)
    (publisher : Publisher) : Prop where
  known : publisher.device.state.localMembership = some membership
  issued : publisher.contact.endpoint.record.issuedAt.toNat = last.wall.toNat
  expires : publisher.contact.endpoint.record.expiresAt.toNat =
    min (last.wall.toNat + lifetime.asSecs.toNat) membership.certificate.expiresAt.toNat
  deadline : publisher.deadline = last.monotonic + lifetime.half.nanos

/-- A plain turn: the lifetime is the usual one and the interfaces have not changed. -/
structure Turn.Plain (lifetime : Duration) (turn : Turn) : Prop where
  lifetime_eq : turn.config.recordLifetime = lifetime
  unchanged : turn.interfacesChanged = false

section Storm

variable {transportKeyId : TransportKeyId} {lifetime : Duration} {membership : SignedMembership}
  {last turn : Turn} {publisher after : Publisher}

theorem Turned.since (turned : Turned turn publisher membership true after)
    (known : publisher.device.state.localMembership = some membership)
    (plain : turn.Plain lifetime) : Since lifetime membership turn after := by
  obtain ⟨-, made, deadline⟩ := turned.made rfl
  rw [plain.lifetime_eq] at deadline
  refine ⟨turned.members.localMembership.trans known, by rw [made.issued], ?_, deadline⟩
  have bounded := membership.certificate.expiresAt.toNat_lt
  have smaller : (min (saturatingAdd turn.wall turn.config.recordLifetime.asSecs)
      membership.certificate.expiresAt).toNat =
      min (saturatingAdd turn.wall turn.config.recordLifetime.asSecs).toNat
        membership.certificate.expiresAt.toNat := by
    rcases le_total (saturatingAdd turn.wall turn.config.recordLifetime.asSecs)
      membership.certificate.expiresAt with le | le
    · rw [min_eq_left le, min_eq_left (UInt64.le_iff_toNat_le.mp le)]
    · rw [min_eq_right le, min_eq_right (UInt64.le_iff_toNat_le.mp le)]
  rw [made.expires, smaller, toNat_saturatingAdd, plain.lifetime_eq]
  omega

/-- Whatever makes a record due, it is due late enough. -/
theorem Since.spaced (since : Since lifetime membership last publisher) (follows : Follows last turn)
    (plain : turn.Plain lifetime) (due : turn.Due publisher)
    (live : turn.wall < membership.certificate.expiresAt) :
    Spaced lifetime.asSecs.toNat membership.certificate.expiresAt.toNat last.wall.toNat
      turn.wall.toNat := by
  have later : last.wall.toNat ≤ turn.wall.toNat := by
    rw [Turn.toNat_wall, Turn.toNat_wall]
    exact Nat.div_le_div_right follows.wall
  have live := UInt64.lt_iff_toNat_lt.mp live
  rw [Turn.Due, plain.unchanged, plain.lifetime_eq] at due
  rcases due with changed | passed | due
  · cases changed
  · -- The monotonic clock has run for half a lifetime, and the wall clock no less.
    have apart : last.wall.toNat + lifetime.asSecs.toNat / 2 ≤ turn.wall.toNat := by
      have elapsed : last.instant + lifetime.half.nanos ≤ turn.instant := by
        have slower := follows.slower
        have forward := follows.wall
        rw [since.deadline] at passed
        omega
      rw [Turn.toNat_wall, Turn.toNat_wall, ← toNat_half_asSecs, toNat_asSecs]
      exact Nat.div_add_div_le_add_div.trans (Nat.div_le_div_right elapsed)
    unfold Spaced
    split <;> omega
  · simp only [needsWallClockRefresh, Bool.or_eq_true, decide_eq_true_eq] at due
    have issued := since.issued
    have expires := since.expires
    rcases due with early | due
    · have := UInt64.lt_iff_toNat_lt.mp early
      omega
    · have two : UInt64.toNat 2 = 2 := rfl
      have margin : publisher.contact.endpoint.record.expiresAt.toNat - turn.wall.toNat ≤
          (publisher.contact.endpoint.record.expiresAt.toNat -
            publisher.contact.endpoint.record.issuedAt.toNat) / 2 := by
        rw [UInt64.le_iff_toNat_le, toNat_saturatingSub] at due
        split at due
        · rename_i less
          have less := UInt64.lt_iff_toNat_lt.mp less
          rw [UInt64.toNat_div, toNat_saturatingSub, two] at less
          omega
        · rwa [UInt64.toNat_div, toNat_saturatingSub, two] at due
      unfold Spaced
      split <;> omega

/-- Every signing is at one of the turns, before the membership ends. -/
def AmongTurns (turns : List Turn) (membership : SignedMembership) (times : List Nat) : Prop :=
  ∀ time ∈ times, time < membership.certificate.expiresAt.toNat ∧
    ∃ turn ∈ turns, time = turn.wall.toNat

variable {turns : List Turn}

theorem AmongTurns.cons {times : List Nat} (among : AmongTurns turns membership times)
    (turn : Turn) :
    AmongTurns (turn :: turns) membership times := by
  intro time inside
  obtain ⟨early, other, member, same⟩ := among time inside
  exact ⟨early, other, mem_cons_of_mem _ member, same⟩

/-- From a signing on, the signings are spaced. -/
theorem Since.signings_spaced (since : Since lifetime membership last publisher)
    (plain : ∀ turn ∈ turns, turn.Plain lifetime) (follow : (last :: turns).Pairwise Follows) :
    (last.wall.toNat :: signings transportKeyId publisher turns).IsChain
      (Spaced lifetime.asSecs.toNat membership.certificate.expiresAt.toNat) ∧
    AmongTurns turns membership (signings transportKeyId publisher turns) := by
  induction turns generalizing last publisher with
  | nil => exact ⟨.singleton _, nofun⟩
  | cons turn turns ih =>
    obtain ⟨first, plain⟩ := forall_mem_cons.mp plain
    obtain ⟨after, rest⟩ := pairwise_cons.mp follow
    have skip : (last :: turns).Pairwise Follows :=
      pairwise_cons.mpr ⟨fun other member => after other (mem_cons_of_mem _ member),
        (pairwise_cons.mp rest).2⟩
    have ends := refresh_ends transportKeyId turn publisher
    unfold signings
    unfold Ends at ends
    split at ends <;> rename_i run <;> rw [run]
    · obtain ⟨other, known, turned⟩ := ends
      obtain rfl := Option.some.inj (since.known.symm.trans known)
      rename_i signed next
      cases signed with
      | true =>
        obtain ⟨chain, among⟩ := ih (turned.since known first) plain rest
        refine ⟨isChain_cons_cons.mpr ⟨since.spaced (after turn mem_cons_self) first
          (turned.made rfl).1 turned.live, chain⟩, ?_⟩
        refine forall_mem_cons.mpr ⟨⟨UInt64.lt_iff_toNat_lt.mp turned.live, turn,
          mem_cons_self, rfl⟩, among.cons turn⟩
      | false =>
        obtain ⟨-, rfl⟩ := turned.kept rfl
        obtain ⟨chain, among⟩ := ih since plain skip
        exact ⟨chain, among.cons turn⟩
    · obtain ⟨members, contact_eq, deadline_eq⟩ := ends
      rename_i next
      have since' : Since lifetime membership last next :=
        ⟨members.localMembership.trans since.known, by rw [contact_eq]; exact since.issued,
          by rw [contact_eq]; exact since.expires, deadline_eq.trans since.deadline⟩
      obtain ⟨chain, among⟩ := ih since' plain skip
      exact ⟨chain, among.cons turn⟩

/-- The first signing of a run may come at any time; the others are spaced. -/
theorem signings_spaced (known : publisher.device.state.localMembership = some membership)
    (plain : ∀ turn ∈ turns, turn.Plain lifetime) (follow : turns.Pairwise Follows) :
    (signings transportKeyId publisher turns).IsChain
      (Spaced lifetime.asSecs.toNat membership.certificate.expiresAt.toNat) ∧
    AmongTurns turns membership (signings transportKeyId publisher turns) := by
  induction turns generalizing publisher with
  | nil => exact ⟨.nil, nofun⟩
  | cons turn turns ih =>
    obtain ⟨first, plain⟩ := forall_mem_cons.mp plain
    have rest := (pairwise_cons.mp follow).2
    have ends := refresh_ends transportKeyId turn publisher
    unfold signings
    unfold Ends at ends
    split at ends <;> rename_i run <;> rw [run]
    · obtain ⟨other, known', turned⟩ := ends
      obtain rfl := Option.some.inj (known.symm.trans known')
      rename_i signed next
      cases signed with
      | true =>
        obtain ⟨chain, among⟩ := (turned.since known first).signings_spaced plain follow
        exact ⟨chain, forall_mem_cons.mpr ⟨⟨UInt64.lt_iff_toNat_lt.mp turned.live, turn,
          mem_cons_self, rfl⟩, among.cons turn⟩⟩
      | false =>
        obtain ⟨chain, among⟩ := ih (turned.members.localMembership.trans known) plain rest
        exact ⟨chain, among.cons turn⟩
    · obtain ⟨chain, among⟩ := ih (ends.1.localMembership.trans known) plain rest
      exact ⟨chain, among.cons turn⟩

theorem signings_unknown (unknown : publisher.device.state.localMembership = none)
    (turns : List Turn) : signings transportKeyId publisher turns = [] := by
  induction turns generalizing publisher with
  | nil => rfl
  | cons turn turns ih =>
    have ends := refresh_ends transportKeyId turn publisher
    unfold signings
    unfold Ends at ends
    split at ends <;> rename_i run <;> rw [run]
    · obtain ⟨membership, known, -⟩ := ends
      rw [unknown] at known
      cases known
    · exact ih (ends.1.localMembership.trans unknown)

/-- Half a lifetime in whole seconds is at least a quarter of it. -/
theorem span_div_le (long : 2 * nanosPerSecond ≤ lifetime.nanos) (span : Nat) :
    span / (lifetime.asSecs.toNat / 2) ≤ 4 * span * nanosPerSecond / lifetime.nanos := by
  have seconds := toNat_asSecs lifetime
  have positive : 0 < nanosPerSecond := by decide
  have two : 2 ≤ lifetime.asSecs.toNat := by
    rw [seconds]
    exact (Nat.le_div_iff_mul_le positive).mpr long
  have below : lifetime.nanos < (lifetime.asSecs.toNat + 1) * nanosPerSecond := by
    rw [seconds]
    exact Nat.lt_mul_of_div_lt (Nat.lt_succ_self _) positive
  have quarter : lifetime.nanos ≤ lifetime.asSecs.toNat / 2 * (4 * nanosPerSecond) := by
    calc lifetime.nanos ≤ (lifetime.asSecs.toNat + 1) * nanosPerSecond := below.le
      _ ≤ lifetime.asSecs.toNat / 2 * 4 * nanosPerSecond := Nat.mul_le_mul_right _ (by omega)
      _ = lifetime.asSecs.toNat / 2 * (4 * nanosPerSecond) := Nat.mul_assoc _ _ _
  calc span / (lifetime.asSecs.toNat / 2)
      = span * (4 * nanosPerSecond) / (lifetime.asSecs.toNat / 2 * (4 * nanosPerSecond)) :=
        (Nat.mul_div_mul_right _ _ (by decide)).symm
    _ ≤ span * (4 * nanosPerSecond) / lifetime.nanos :=
        Nat.div_le_div_left quarter (by omega)
    _ = 4 * span * nanosPerSecond / lifetime.nanos := by
        rw [← Nat.mul_assoc, Nat.mul_comm span 4]

theorem signings_length_le {start span : Nat} (long : 2 * nanosPerSecond ≤ lifetime.nanos)
    (plain : ∀ turn ∈ turns, turn.Plain lifetime) (follow : turns.Pairwise Follows)
    (within : ∀ turn ∈ turns, start ≤ turn.wall.toNat ∧ turn.wall.toNat ≤ start + span) :
    (signings transportKeyId publisher turns).length ≤
      4 * span * nanosPerSecond / lifetime.nanos +
        Nat.log 2 (lifetime.nanos / nanosPerSecond) + 2 := by
  have seconds := toNat_asSecs lifetime
  have two : 2 ≤ lifetime.asSecs.toNat := by
    rw [seconds]
    exact (Nat.le_div_iff_mul_le (by decide)).mpr long
  cases known : publisher.device.state.localMembership with
  | none =>
    rw [signings_unknown known turns]
    exact Nat.zero_le _
  | some membership =>
    obtain ⟨chain, among⟩ := @signings_spaced _ _ transportKeyId _ _ _ _ known plain follow
    have inside : ∀ time ∈ signings transportKeyId publisher turns,
        start ≤ time ∧ time ≤ start + span := by
      intro time member
      obtain ⟨-, turn, isTurn, rfl⟩ := among time member
      exact within turn isTurn
    cases times : signings transportKeyId publisher turns with
    | nil => exact Nat.zero_le _
    | cons t rest =>
      rw [times] at chain among inside
      obtain ⟨⟨begun, -⟩, inside⟩ := forall_mem_cons.mp inside
      have few := spaced_length_le chain two
        (fun time member => (among time (mem_cons_of_mem _ member)).1)
        (fun time member => (inside time member).2)
      have shorter : (start + span - t) / (lifetime.asSecs.toNat / 2) ≤
          span / (lifetime.asSecs.toNat / 2) := Nat.div_le_div_right (by omega)
      have quarter := span_div_le long span
      rw [seconds] at few shorter quarter
      rw [length_cons]
      omega

end Storm

/-- **The published contact is always valid and not signed in a storm.** For every publisher of a
service, whatever happened before: when a turn returns, the record it holds is valid at the wall time
of the turn, is one of the device's own membership and does not outlive it; and over any further
turns without interface changes, within a span of whole wall-clock seconds, with a monotonic clock no
faster than the wall clock, the records signed are at most four in a lifetime and, at the end of the
membership, the binary logarithm of the lifetime more. -/
theorem published_contact_valid_and_calm (transportKeyId : TransportKeyId) (publisher : Publisher)
    (publishes : Publishes transportKeyId publisher) (lifetime : Duration)
    (long : 2 * nanosPerSecond ≤ lifetime.nanos) :
    (∀ (turn : Turn) (signed : Bool) (after : Publisher),
      turn.config.recordLifetime = lifetime →
      (turn.refresh transportKeyId).run publisher = .ok signed after →
      after.contact.endpoint.record.issuedAt ≤ turn.wall ∧
      turn.wall < after.contact.endpoint.record.expiresAt ∧
      after.device.state.localMembership = some after.contact.membership ∧
      after.contact.endpoint.record.expiresAt ≤ after.contact.membership.certificate.expiresAt) ∧
    (∀ (turns : List Turn) (start span : Nat), (∀ turn ∈ turns, turn.Plain lifetime) →
      turns.Pairwise Follows →
      (∀ turn ∈ turns, start ≤ turn.wall.toNat ∧ turn.wall.toNat ≤ start + span) →
      (signings transportKeyId publisher turns).length ≤
        4 * span * nanosPerSecond / lifetime.nanos +
          Nat.log 2 (lifetime.nanos / nanosPerSecond) + 4) := by
  constructor
  · intro turn signed after lifetime_eq run
    obtain ⟨membership, known, turned⟩ := (refresh_ends transportKeyId turn publisher).ok run
    have lasting : nanosPerSecond ≤ turn.config.recordLifetime.nanos := by
      rw [lifetime_eq]
      exact (Nat.le_mul_of_pos_left _ (by decide)).trans long
    obtain ⟨begun, live⟩ := turned.valid lasting
    obtain ⟨own, ends⟩ := turned.within known publishes.within
    exact ⟨begun, live, own, ends⟩
  · intro turns start span plain follow within
    exact (signings_length_le long plain follow within).trans (by omega)

end Refresh

/-! ## A founder's first hours -/

attribute [local instance] countingSha256 acceptingEd25519

def ownKeyId : TransportKeyId := FixedBytes.replicate 32 3

def sixHours : Duration := ⟨21600 * nanosPerSecond, by decide⟩

def founderConfig : ServiceConfig where
  displayName := "node"
  candidates := [linkLocal 0]
  services := []
  recordLifetime := sixHours
  automaticInterfaceRefresh := true

/-- A new hive's founder publishes its first contact. -/
def foundAndPublish : Option Publisher :=
  match (initializeState none ⟨FixedBytes.replicate 32 1⟩ ⟨FixedBytes.replicate 32 2⟩ 0).run
      (Tape.start ⟨[], [], none⟩) with
  | .error _ _ => none
  | .ok state tape =>
    match (makeLocalContact ownKeyId founderConfig 60).run ⟨state, tape⟩ with
    | .error _ _ => none
    | .ok contact device => some ⟨device, contact, sixHours.half.nanos⟩

/-- In its first day a service that is woken whenever it likes signs at most thirty-four records. -/
theorem published_contact_valid_and_calm_day : ∃ publisher, foundAndPublish = some publisher ∧
    ∀ turns : List Turn, (∀ turn ∈ turns, turn.Plain sixHours) → turns.Pairwise Follows →
      (∀ turn ∈ turns, 60 ≤ turn.wall.toNat ∧ turn.wall.toNat ≤ 60 + 86400) →
      (signings ownKeyId publisher turns).length ≤ 34 := by
  have found : foundAndPublish.isSome = true := by decide +kernel
  obtain ⟨publisher, found⟩ := Option.isSome_iff_exists.mp found
  have publishes : Publishes ownKeyId publisher := by
    unfold foundAndPublish at found
    split at found
    · cases found
    split at found
    · cases found
    · rename_i made
      cases found
      exact .started made _
  refine ⟨publisher, found, fun turns plain follow within => ?_⟩
  have few := (published_contact_valid_and_calm ownKeyId publisher publishes sixHours (by decide)).2
    turns 60 86400 plain follow within
  exact few.trans (by decide +kernel)

end Supgang.Service
