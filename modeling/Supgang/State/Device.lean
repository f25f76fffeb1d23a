/-
# State.Device — a running device moves along journal transitions

A device whose journal replays to its memory (`Holds`) changes in two ways only: it commits one
admissible event behind its frames, or it replaces them by its snapshot (`Transition`). Every
operation, successful or failing, is a journey of such transitions, and the journey keeps the
agreement.

* `run_appendAuthoritative` — **appending never fails** on such a device: the threshold leaves room
  for every event, before and after a compaction.
* `Transition.holds`, `Transition.advances` — what a transition keeps, and what it cannot undo.
* `Operation.ends` — every operation moves along transitions and returns what fits them.
-/
import Supgang.State.Replay

namespace Supgang.State

set_option autoImplicit false

open Theory List Supgang.Membership Revocation Invitation Record Journal

variable [Sha256] [Ed25519]

/-! ## Programs over a device -/

section Programs

variable {α : Type}

variable {device : Device}

theorem run_journalMut {journal : Journal} (h : device.state.journal = some journal) :
    journalMut.run device = .ok journal device := by
  simp only [journalMut, EStateM.run_bind, EStateM.run_get, h, okOr_some, run_ofExcept_ok]

@[simp] theorem run_modifyState (f : LocalState → LocalState) (device : Device) :
    (modifyState f).run device = .ok () { device with state := f device.state } := rfl

omit [Sha256] [Ed25519] in
theorem failing_calm {fault : Option Fault} (calm : fault = none)
    (x : EStateM JournalError Tape α) : failing fault x = x := by
  rw [calm]
  rfl

theorem run_onJournal_ok {x : EStateM JournalError Tape α} {a : α} {tape : Tape}
    (h : x.run device.tape = .ok a tape) :
    (onJournal x).run device = .ok (.ok a) { device with tape } :=
  run_attempt_ok h

theorem run_attemptDevice_ok {x : DeviceM α} {device' : Device} {a : α}
    (h : x.run device = .ok a device') : (attemptDevice x).run device = .ok (.ok a) device' :=
  run_attempt_ok h

end Programs

/-! ## Devices whose journal holds their state -/

variable {event : StateEvent} {device device' : Device} {frames : List Bytes}

/-- No check reads the handle or the event count. -/
theorem Admissible.rehandle {state : LocalState} (admissible : Admissible state event)
    (journal : Option Journal) (count : UInt64) :
    Admissible { state with journal := journal, eventCount := count } event := by
  cases event <;> exact admissible

/-- The disk holds these frames, and replaying them under their handle is the state in memory. -/
structure Holds (device : Device) (frames : List Bytes) : Prop where
  storable : Storable frames
  disk_eq : device.tape.disk = diskOf frames
  replayed : replay device.state.identity (some (handleOf frames)) frames = .ok device.state

section Facts

variable (holds : Holds device frames)

include holds

theorem Holds.sound : Sound device.state :=
  (replay_sound holds.replayed).1

theorem Holds.journal_eq : device.state.journal = some (handleOf frames) :=
  (replay_sound holds.replayed).2.2

theorem Holds.committed : Committed (handleOf frames) device.tape.disk frames :=
  ⟨holds.storable, holds.disk_eq, rfl⟩

end Facts

/-- The state once its journal has been replaced by these frames. -/
def rebased (state : LocalState) (base : List Bytes) : LocalState :=
  { state with journal := some (handleOf base), eventCount := UInt64.ofNat base.length }

/-- The device once this event has been committed behind these frames. -/
def committedDevice (device : Device) (frames : List Bytes) (event : StateEvent) : Device where
  state := effect { device.state with journal := some (handleOf (frames ++ [eventBytes event])) }
    event
  tape := ⟨diskOf (frames ++ [eventBytes event]),
    device.tape.log ++ commitActions frames [eventBytes event]⟩

def compactedDevice (device : Device) (base : List Bytes) : Device where
  state := rebased device.state base
  tape := ⟨diskOf base, device.tape.log ++ replaceActions base⟩

/-- The two things a device does to its journal. -/
inductive Transition (device : Device) : Device → Prop
  | compact {base : List Bytes} (snapshot : device.state.compactionFrames = .ok base)
      (storable : Storable base) : Transition device (compactedDevice device base)
  | commit {frames : List Bytes} {event : StateEvent} (holds : Holds device frames)
      (admissible : Admissible device.state event) (storable : event.Storable)
      (fits : Storable (frames ++ [eventBytes event])) :
      Transition device (committedDevice device frames event)

/-- A device after any number of journal transitions. -/
abbrev Reaches : Device → Device → Prop := Relation.ReflTransGen Transition

theorem committedDevice_holds (holds : Holds device frames)
    (admissible : Admissible device.state event) (storable : event.Storable)
    (fits : Storable (frames ++ [eventBytes event])) :
    Holds (committedDevice device frames event) (frames ++ [eventBytes event]) := by
  refine ⟨fits, rfl, ?_⟩
  have hreplay := replay_concat (replay_handle holds.replayed
    (some (handleOf (frames ++ [eventBytes event])))) (decodeEvent_eventBytes storable)
    (admissible.rehandle _ device.state.eventCount)
  have hidentity : (committedDevice device frames event).state.identity = device.state.identity := by
    cases event <;> rfl
  rw [hidentity]
  exact hreplay

theorem compactedDevice_holds (correct : Ed25519.Correct) {base : List Bytes}
    (sound : Sound device.state) (snapshot : device.state.compactionFrames = .ok base) :
    Holds (compactedDevice device base) base := by
  obtain ⟨frames, hframes, hstorable, -, hreplay⟩ := sound.compaction correct
  rw [snapshot] at hframes
  cases hframes
  exact ⟨hstorable, rfl, hreplay _⟩

/-- **Every transition keeps the journal and the memory in agreement.** -/
theorem Transition.holds (correct : Ed25519.Correct) (step : Transition device device')
    (before : Holds device frames) :
    ∃ frames', Holds device' frames' := by
  cases step with
  | compact snapshot storable => exact ⟨_, compactedDevice_holds correct before.sound snapshot⟩
  | commit holds admissible storable fits =>
    exact ⟨_, committedDevice_holds holds admissible storable fits⟩

theorem Reaches.holds (correct : Ed25519.Correct) (path : Reaches device device')
    (before : Holds device frames) :
    ∃ frames', Holds device' frames' := by
  induction path with
  | refl => exact ⟨frames, before⟩
  | tail _ step ih =>
    obtain ⟨middle, hmiddle⟩ := ih
    exact step.holds correct hmiddle

/-! ## What transitions cannot undo -/

/-- The counters and the revocations of a device only grow. -/
structure Advances (old new : LocalState) : Prop where
  identity_eq : new.identity = old.identity
  sequence_le : old.sequence ≤ new.sequence
  serial_le : old.revocations.list.serial ≤ new.revocations.list.serial
  issuedAt_le : old.revocations.list.issuedAt ≤ new.revocations.list.issuedAt
  revoked_subset : old.revocations.list.revokedNodes ⊆ new.revocations.list.revokedNodes

theorem Advances.refl (state : LocalState) : Advances state state :=
  ⟨rfl, le_rfl, le_rfl, le_rfl, List.Subset.refl _⟩

theorem Advances.trans {a b c : LocalState} (first : Advances a b) (second : Advances b c) :
    Advances a c where
  identity_eq := second.identity_eq.trans first.identity_eq
  sequence_le := first.sequence_le.trans second.sequence_le
  serial_le := first.serial_le.trans second.serial_le
  issuedAt_le := first.issuedAt_le.trans second.issuedAt_le
  revoked_subset := List.Subset.trans first.revoked_subset second.revoked_subset

theorem Admissible.advances {state : LocalState} (admissible : Admissible state event) :
    Advances state (effect state event) := by
  cases event with
  | genesis member revoked => exact admissible.elim
  | checkpoint hiveId nodeId generation sequence digest signature => exact admissible.elim
  | sequence generation sequence =>
    exact ⟨rfl, (lt_of_checkedAdd_one admissible.2).le, le_rfl, le_rfl, List.Subset.refl _⟩
  | membership signed => exact ⟨rfl, le_rfl, le_rfl, le_rfl, List.Subset.refl _⟩
  | revocation signed =>
    obtain ⟨-, hserial, htime, hkept⟩ := admissible
    exact ⟨rfl, le_rfl, hserial.le, htime, hkept⟩

theorem Transition.advances (step : Transition device device') :
    Advances device.state device'.state := by
  cases step with
  | compact snapshot storable => exact ⟨rfl, le_rfl, le_rfl, le_rfl, List.Subset.refl _⟩
  | @commit frames event holds admissible storable fits =>
    have h := (admissible.rehandle (some (handleOf (frames ++ [eventBytes event])))
      device.state.eventCount).advances
    exact ⟨h.identity_eq, h.sequence_le, h.serial_le, h.issuedAt_le, h.revoked_subset⟩

theorem Reaches.advances (path : Reaches device device') :
    Advances device.state device'.state := by
  induction path with
  | refl => exact .refl _
  | tail _ step ih => exact ih.trans step.advances

/-! ## Writing to the journal -/

/-- Below the threshold there is room for any event. -/
theorem Holds.run_append (holds : Holds device frames) (room : (image frames).length ≤ 1024 * 1024)
    (storable : event.Storable) :
    Storable (frames ++ [eventBytes event]) ∧
      ((handleOf frames).append (eventBytes event)).run device.tape =
        .ok (handleOf (frames ++ [eventBytes event])) ⟨diskOf (frames ++ [eventBytes event]),
          device.tape.log ++ commitActions frames [eventBytes event]⟩ := by
  have hevent := frameLength_le (eventBytes_length_le storable)
  have hbound := event.sizeBound_le
  rcases Journal.append_cases holds.committed (eventBytes event) device.tape.log with
    happend | ⟨hbad, -⟩ | ⟨hfull, -⟩
  · exact happend
  · exact absurd (eventBytes_validPayload storable) hbad
  · unfold maxJournalBytes at hfull
    rw [image_append, length_append, flatMap_singleton, frameBytes_length] at hfull
    omega

section Operations

variable (correct : Ed25519.Correct) (holds : Holds device frames)

include correct holds

theorem run_compact :
    ∃ base, device.state.compactionFrames = .ok base ∧ Storable base ∧
      (image base).length ≤ 180000 ∧
      compact.run device = .ok () (compactedDevice device base) := by
  obtain ⟨base, hbase, hstorable, hsize, -⟩ := holds.sound.compaction correct
  refine ⟨base, hbase, hstorable, hsize, ?_⟩
  rcases Journal.compact_cases base device.tape.disk device.tape.log with
    ⟨_, hrun⟩ | ⟨hbad, _⟩
  · simp only [compact, failing, EStateM.run_bind, EStateM.run_get, hbase, run_ofExcept_ok,
      run_journalMut holds.journal_eq, run_onJournal_ok hrun, run_modifyState]
    rfl
  · exact absurd hstorable hbad

/-- Compaction at the threshold leaves room for any event. -/
theorem run_compactIfNeeded :
    ∃ middle base, (middle = device ∧ base = frames ∨ middle = compactedDevice device base) ∧
      Reaches device middle ∧ Holds middle base ∧ (image base).length ≤ 1024 * 1024 ∧
      compactIfNeeded.run device = .ok () middle := by
  have hlength : byteLen device.tape = (image frames).length := by
    rw [byteLen, holds.disk_eq, diskOf_file]
  have calm : (reject Faults.none.length (StateError.journal .io) : DeviceM Unit).run device =
      .ok () device := rfl
  by_cases hneeded : authoritativeCompactionThresholdBytes ≤ (image frames).length
  · obtain ⟨base, hbase, hstorable, hsize, hrun⟩ := run_compact correct holds
    refine ⟨compactedDevice device base, base, .inr rfl, .single (.compact hbase hstorable),
      compactedDevice_holds correct holds.sound hbase, by omega, ?_⟩
    simp only [compactIfNeeded, EStateM.run_bind, run_journalMut holds.journal_eq, calm,
      EStateM.run_get, hlength, if_pos hneeded]
    exact hrun
  · refine ⟨device, frames, .inl ⟨rfl, rfl⟩, .refl, holds, ?_, ?_⟩
    · unfold authoritativeCompactionThresholdBytes at hneeded
      omega
    · simp only [compactIfNeeded, EStateM.run_bind, run_journalMut holds.journal_eq, calm,
        EStateM.run_get, hlength, if_neg hneeded, EStateM.run_pure]

/-- **Appending an event never fails** on a device whose journal holds its state: it compacts where
the threshold is reached and then commits the event. -/
theorem run_appendAuthoritative (storable : event.Storable) :
    ∃ middle base, (middle = device ∧ base = frames ∨ middle = compactedDevice device base) ∧
      Reaches device middle ∧ Holds middle base ∧ Storable (base ++ [eventBytes event]) ∧
      (appendAuthoritative (eventBytes event)).run device = .ok ()
        ⟨{ middle.state with journal := some (handleOf (base ++ [eventBytes event])) },
          ⟨diskOf (base ++ [eventBytes event]),
            middle.tape.log ++ commitActions base [eventBytes event]⟩⟩ := by
  obtain ⟨middle, base, hmiddle, hpath, hholds, hsize, hrun⟩ := run_compactIfNeeded correct holds
  obtain ⟨hfits, happend⟩ := hholds.run_append hsize storable
  refine ⟨middle, base, hmiddle, hpath, hholds, hfits, ?_⟩
  have calm : Faults.none.append = none := rfl
  simp only [appendAuthoritative, failing_calm calm, EStateM.run_bind, run_attemptDevice_ok hrun,
    run_journalMut hholds.journal_eq, run_onJournal_ok happend, setJournal, run_modifyState]

/-- Appending an admissible event and then applying its effect is a journey of transitions. -/
theorem run_commit (admissible : Admissible device.state event) (storable : event.Storable)
    {f : LocalState → LocalState} (heffect : ∀ state, f state = effect state event) :
    ∃ device', Reaches device device' ∧
      (∃ journal count, device'.state =
        effect { device.state with journal := journal, eventCount := count } event) ∧
      (do appendAuthoritative (eventBytes event); modifyState f).run device = .ok () device' := by
  obtain ⟨middle, base, hmiddle, hpath, hholds, hfits, hrun⟩ :=
    run_appendAuthoritative correct holds storable
  have hadmissible : Admissible middle.state event := by
    rcases hmiddle with ⟨rfl, -⟩ | rfl
    · exact admissible
    · exact admissible.rehandle ..
  refine ⟨committedDevice middle base event,
    hpath.tail (.commit hholds hadmissible storable hfits), ?_, ?_⟩
  · rcases hmiddle with ⟨rfl, -⟩ | rfl
    · exact ⟨_, middle.state.eventCount, rfl⟩
    · exact ⟨_, _, rfl⟩
  · simp only [EStateM.run_bind, hrun, run_modifyState, heffect]
    rfl

/-! ## Operations -/

variable {displayName : String} {transportKeyId : TransportKeyId} {claims : EndpointClaims}
  {deviceKey : VerifyingKey} {roles : MembershipRoles} {admissionNonce : FixedBytes 32}
  {request : JoinRequest} {expectedNode nodeId : NodeId} {incoming : SignedRevocationList}
  {issuedAt expiresAt : UInt64}

theorem reserveNextSequence_ends :
    Ends device reserveNextSequence (fun next after => Reaches device after ∧
      checkedAdd device.state.sequence 1 = some next ∧ after.state.sequence = next)
      (· = device) := by
  refine .get (.ofExcept rfl fun next hnext => .ofExcept rfl fun encoded hencoded => ?_)
  rw [okOr_eq_ok] at hnext
  have hstorable : (StateEvent.sequence device.state.generation next).Storable := trivial
  rw [encodeEvent_ok hstorable] at hencoded
  cases hencoded
  obtain ⟨after, hpath, ⟨journal, count, hstate⟩, hrun⟩ := run_commit correct holds
    (show Admissible device.state (.sequence device.state.generation next) from ⟨rfl, hnext⟩)
    hstorable fun state => rfl
  rw [← bind_assoc]
  exact .bind hrun (.pure ⟨hpath, hnext, by rw [hstate]; rfl⟩)

/-- A returned record carries the sequence the device has just reserved; where signing fails after
the reservation, the sequence is spent. -/
theorem signEndpointRecord_ends :
    Ends device (signEndpointRecord displayName transportKeyId claims issuedAt expiresAt)
      (fun signed after => Reaches device after ∧
        device.state.sequence < signed.record.sequence ∧
        after.state.sequence = signed.record.sequence) (Reaches device) := by
  have hreserve := (reserveNextSequence_ends correct holds).mono_error
    (fun after hsame => (hsame ▸ .refl : Reaches device after))
  refine .get (.ofExcept .refl fun membership _ => .reject .refl fun _ => .reject .refl fun _ =>
    .reject .refl fun _ => .ofExcept .refl fun next hnext => .ofExcept .refl fun _ _ =>
    .seq hreserve fun persisted after hreserved => ?_)
  obtain ⟨hpath, hpersisted, hafter⟩ := hreserved
  refine .reject hpath fun hsame => .of_ofExcept hpath fun signed hsigned => ?_
  rw [mapError_eq_ok] at hsigned
  have hsequence : signed.record.sequence = persisted :=
    (Record.sign_sequence hsigned).trans (not_not.mp hsame).symm
  rw [hsequence]
  exact ⟨hpath, lt_of_checkedAdd_one hpersisted, hafter⟩

theorem issueMembership_ends :
    Ends device (issueMembership deviceKey roles admissionNonce issuedAt expiresAt)
      (fun signed after => Reaches device after ∧
        NodeId.fromVerifyingKey deviceKey ∉ device.state.revocations.list.revokedNodes ∧
        signed.certificate.nodeId = NodeId.fromVerifyingKey deviceKey ∧
        signed.certificate.deviceVerifyingKey = deviceKey ∧
        signed.certificate.admissionNonce = admissionNonce ∧
        signed.certificate.expiresAt = expiresAt ∧
        after.state.revocations = device.state.revocations) (· = device) := by
  refine .get (.reject rfl fun hroom => .reject rfl fun hrevoked => .reject rfl fun hnew =>
    .ofExcept rfl fun serial hserial => .ofExcept rfl fun root hroot =>
    .ofExcept rfl fun signed hsigned => .ofExcept rfl fun encoded hencoded => ?_)
  rw [okOr_eq_ok] at hserial hroot
  rw [mapError_eq_ok] at hsigned
  obtain ⟨hcertificate, hverify⟩ := Membership.sign_spec correct hsigned
  rw [← device.state.identity.root_key root hroot] at hverify
  have hstorable : (StateEvent.membership signed).Storable := .of_verify hverify
  rw [encodeEvent_ok hstorable] at hencoded
  cases hencoded
  have hadmissible : Admissible device.state (.membership signed) := by
    refine ⟨hverify, ?_, not_le.mp hroom, ?_⟩
    · rw [hcertificate]
      exact hserial
    · rw [hcertificate]
      exact hnew
  obtain ⟨after, hpath, ⟨journal, count, hstate⟩, hrun⟩ := run_commit correct holds hadmissible
    hstorable
    (f := fun state => { state with
      memberships := state.memberships.insert (NodeId.fromVerifyingKey deviceKey) signed
      lastMembershipSerial := serial
      eventCount := saturatingAdd state.eventCount 1 })
    fun state => by rw [effect, hcertificate]
  have hkept : after.state.revocations = device.state.revocations := by rw [hstate]; rfl
  rw [← bind_assoc]
  refine .bind hrun (.pure ⟨hpath, ?_, ?_⟩)
  · simpa using hrevoked
  · rw [hcertificate]
    exact ⟨rfl, rfl, rfl, rfl, hkept⟩

/-- A returned authorization is the membership the node already had, or a new one; it is bound to
the key and the nonce of the request either way. -/
theorem authorizeJoinRequest_ends :
    Ends device (authorizeJoinRequest request expectedNode roles issuedAt expiresAt)
      (fun signed after => Reaches device after ∧
        after.state.revocations = device.state.revocations ∧
        signed.certificate.deviceVerifyingKey = request.deviceVerifyingKey ∧
        signed.certificate.admissionNonce = request.nonce ∧
        match device.state.memberships[NodeId.fromVerifyingKey request.deviceVerifyingKey]? with
        | some existing => signed = existing
        | none => NodeId.fromVerifyingKey request.deviceVerifyingKey ∉
            device.state.revocations.list.revokedNodes ∧ signed.certificate.expiresAt = expiresAt)
      (· = device) := by
  refine .ofExcept rfl fun key hkey => .reject rfl fun _ => .get ?_
  obtain rfl : request.deviceVerifyingKey = key := by
    simp only [JoinRequest.verify, ok_steps] at hkey
    obtain ⟨_, -, _, -, rfl⟩ := hkey
    rfl
  cases device.state.memberships[NodeId.fromVerifyingKey request.deviceVerifyingKey]? with
  | none =>
    refine (issueMembership_ends correct holds).mono ?_ fun _ h => h
    rintro signed after ⟨hpath, hrevoked, -, hbound, hnonce, hexpires, hkept⟩
    exact ⟨hpath, hkept, hbound, hnonce, hrevoked, hexpires⟩
  | some existing =>
    simp only
    split
    · rename_i hsame
      exact .pure ⟨.refl, rfl, hsame.1, hsame.2, rfl⟩
    · exact .throw rfl

/-- The later list keeps everything of the earlier one. -/
structure Extends (old new : SignedRevocationList) : Prop where
  serial_lt : old.list.serial < new.list.serial
  issuedAt_le : old.list.issuedAt ≤ new.list.issuedAt
  revoked_subset : old.list.revokedNodes ⊆ new.list.revokedNodes

/-- The later list keeps everything of the earlier one and revokes another node. -/
structure Grows (old new : SignedRevocationList) : Prop extends Extends old new where
  revokes : ∃ nodeId ∈ new.list.revokedNodes, nodeId ∉ old.list.revokedNodes

theorem persistRevocations_run {signed : SignedRevocationList}
    (verified : signed.verify device.state.identity.rootVerifyingKey = .ok ())
    (newer : Extends device.state.revocations signed) :
    ∃ after, Reaches device after ∧ after.state.revocations = signed ∧
      (persistRevocations signed).run device = .ok () after := by
  have hstorable : (StateEvent.revocation signed).Storable := .of_verify verified
  have hadmissible : Admissible device.state (.revocation signed) :=
    ⟨verified, newer.serial_lt, newer.issuedAt_le, newer.revoked_subset⟩
  obtain ⟨after, hpath, ⟨journal, count, hstate⟩, hrun⟩ :=
    run_commit correct holds hadmissible hstorable fun state => rfl
  refine ⟨after, hpath, by rw [hstate]; rfl, ?_⟩
  rw [persistRevocations, EStateM.run_bind, encodeEvent_ok hstorable, run_ofExcept_ok]
  exact hrun

/-- What a revocation returns is what the device then holds: the list it held, or one that has
grown. -/
theorem revoke_ends :
    Ends device (revoke nodeId issuedAt) (fun signed after => Reaches device after ∧
      after.state.revocations = signed ∧
        (signed = device.state.revocations ∨ Grows device.state.revocations signed))
      (· = device) := by
  refine .get (.reject rfl fun _ => .reject rfl fun _ => ?_)
  by_cases hrevoked : device.state.revocations.contains nodeId = true
  · rw [if_pos hrevoked]
    exact .pure ⟨.refl, rfl, .inl rfl⟩
  · rw [if_neg hrevoked]
    refine .reject rfl fun htime => .ofExcept rfl fun root hroot =>
      .ofExcept rfl fun serial hserial => .ofExcept rfl fun signed hsigned => ?_
    rw [okOr_eq_ok] at hroot hserial
    rw [mapError_eq_ok] at hsigned
    obtain ⟨hlist, hverify⟩ := Revocation.sign_spec correct hsigned
    rw [← device.state.identity.root_key root hroot] at hverify
    rw [contains_iff] at hrevoked
    have hmem : ∀ other, other ∈ signed.list.revokedNodes ↔
        other ∈ device.state.revocations.list.revokedNodes ∨ other = nodeId := by
      intro other
      rw [hlist, (perm_insertionSort ..).mem_iff, mem_append, mem_singleton]
    have hgrows : Grows device.state.revocations signed := by
      refine ⟨⟨?_, ?_, fun other hother => (hmem other).mpr (.inl hother)⟩,
        nodeId, (hmem nodeId).mpr (.inr rfl), hrevoked⟩
      · rw [hlist]
        exact lt_of_checkedAdd_one hserial
      · rw [hlist]
        exact not_lt.mp htime
    obtain ⟨after, hpath, hheld, hrun⟩ :=
      persistRevocations_run correct holds hverify hgrows.toExtends
    exact .bind hrun (.pure ⟨hpath, hheld, .inr hgrows⟩)

theorem mergeRevocations_ends :
    Ends device (mergeRevocations incoming) (fun _ after => Reaches device after)
      (· = device) := by
  refine .get (.ofExcept rfl fun _ hverify => ?_)
  rw [mapError_eq_ok] at hverify
  by_cases hless : incoming.list.serial < device.state.revocations.list.serial
  · rw [if_pos hless]
    exact .pure .refl
  · rw [if_neg hless]
    by_cases hequal : incoming.list.serial = device.state.revocations.list.serial
    · rw [if_pos hequal]
      exact .reject rfl fun _ => .pure .refl
    · rw [if_neg hequal]
      refine .reject rfl fun hrollback => ?_
      by_cases hnodes : incoming.list.revokedNodes = device.state.revocations.list.revokedNodes
      · rw [if_pos hnodes]
        exact .pure .refl
      · rw [if_neg hnodes]
        simp only [not_or, not_exists, not_and, not_not, contains_iff] at hrollback
        have hextends : Extends device.state.revocations incoming :=
          ⟨lt_of_le_of_ne (not_lt.mp hless) (Ne.symm hequal), not_lt.mp hrollback.1,
            fun nodeId hnode => hrollback.2 nodeId hnode⟩
        obtain ⟨after, hpath, -, hrun⟩ := persistRevocations_run correct holds hverify hextends
        exact .bind hrun (.pure hpath)

theorem compact_ends : Ends device compact (fun _ after => Reaches device after) (· = device) := by
  obtain ⟨base, hbase, hstorable, -, hrun⟩ := run_compact correct holds
  exact .of_ok hrun (.single (.compact hbase hstorable))

end Operations

/-! ## Runs of operations -/

/-- An operation of a running device, with its arguments. -/
inductive Operation where
  | reserveNextSequence
  | signEndpointRecord (displayName : String) (transportKeyId : TransportKeyId)
      (claims : EndpointClaims) (issuedAt expiresAt : UInt64)
  | issueMembership (deviceKey : VerifyingKey) (roles : MembershipRoles)
      (admissionNonce : FixedBytes 32) (issuedAt expiresAt : UInt64)
  | authorizeJoinRequest (request : JoinRequest) (expectedNode : NodeId) (roles : MembershipRoles)
      (issuedAt expiresAt : UInt64)
  | revoke (nodeId : NodeId) (issuedAt : UInt64)
  | mergeRevocations (incoming : SignedRevocationList)
  | compact

/-- What an operation returned. -/
inductive Returned where
  | sequence (next : UInt64)
  | record (signed : SignedEndpointRecord)
  | membership (signed : SignedMembership)
  | revocations (signed : SignedRevocationList)
  | merged (changed : Bool)
  | done

def Operation.program (operation : Operation) (faults : Faults := .none) : DeviceM Returned :=
  match operation with
  | .reserveNextSequence => return .sequence (← State.reserveNextSequence faults)
  | .signEndpointRecord displayName transportKeyId claims issuedAt expiresAt =>
    return .record (← State.signEndpointRecord displayName transportKeyId claims issuedAt expiresAt
      faults)
  | .issueMembership deviceKey roles admissionNonce issuedAt expiresAt =>
    return .membership (← State.issueMembership deviceKey roles admissionNonce issuedAt expiresAt
      faults)
  | .authorizeJoinRequest request expectedNode roles issuedAt expiresAt =>
    return .membership
      (← State.authorizeJoinRequest request expectedNode roles issuedAt expiresAt faults)
  | .revoke nodeId issuedAt => return .revocations (← State.revoke nodeId issuedAt faults)
  | .mergeRevocations incoming => return .merged (← State.mergeRevocations incoming faults)
  | .compact => do
      State.compact faults.compact
      return .done

/-- The endpoint records among what operations returned. -/
def Returned.records : Returned → List SignedEndpointRecord
  | .record signed => [signed]
  | _ => []

/-- The device an operation leaves, whether it succeeded or failed. -/
def Operation.perform (operation : Operation) (device : Device) : Device :=
  match operation.program.run device with
  | .ok _ after => after
  | .error _ after => after

/-- **Every operation is a journey of journal transitions**, and what it returns fits it. -/
theorem Operation.ends (correct : Ed25519.Correct) (holds : Holds device frames)
    (operation : Operation) :
    Ends device operation.program (fun returned after => Reaches device after ∧
      ∀ signed ∈ returned.records, device.state.sequence < signed.record.sequence ∧
        after.state.sequence = signed.record.sequence) (Reaches device) := by
  have hstay : ∀ after, after = device → Reaches device after := fun after hsame => hsame ▸ .refl
  cases operation with
  | reserveNextSequence =>
    exact .seq ((reserveNextSequence_ends correct holds).mono_error hstay)
      fun _ _ h => .pure ⟨h.1, by simp [Returned.records]⟩
  | signEndpointRecord displayName transportKeyId claims issuedAt expiresAt =>
    exact .seq (signEndpointRecord_ends correct holds)
      fun _ _ h => .pure ⟨h.1, by simpa [Returned.records] using h.2⟩
  | issueMembership deviceKey roles admissionNonce issuedAt expiresAt =>
    exact .seq ((issueMembership_ends correct holds).mono_error hstay)
      fun _ _ h => .pure ⟨h.1, by simp [Returned.records]⟩
  | authorizeJoinRequest request expectedNode roles issuedAt expiresAt =>
    exact .seq ((authorizeJoinRequest_ends correct holds).mono_error hstay)
      fun _ _ h => .pure ⟨h.1, by simp [Returned.records]⟩
  | revoke nodeId issuedAt =>
    exact .seq ((revoke_ends correct holds).mono_error hstay)
      fun _ _ h => .pure ⟨h.1, by simp [Returned.records]⟩
  | mergeRevocations incoming =>
    exact .seq ((mergeRevocations_ends correct holds).mono_error hstay)
      fun _ _ h => .pure ⟨h, by simp [Returned.records]⟩
  | compact =>
    exact .seq ((compact_ends correct holds).mono_error hstay)
      fun _ _ h => .pure ⟨h, by simp [Returned.records]⟩

theorem Operation.perform_reaches (correct : Ed25519.Correct) (holds : Holds device frames)
    (operation : Operation) :
    Reaches device (operation.perform device) := by
  have hends := operation.ends correct holds
  unfold Operation.perform
  cases hrun : operation.program.run device with
  | ok returned after => exact (hends.ok hrun).1
  | error e after => exact hends.error hrun

end Supgang.State
