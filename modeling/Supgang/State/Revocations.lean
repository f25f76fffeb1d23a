/-
# State.Revocations — revocation is permanent, and gossip converges

The rule that a revocation is never taken back is checked separately where a list is issued, where
one is merged, and where a journal is replayed. Here they meet: along every lifetime the held list
only grows, and the lists one root holder issues form a chain, so a member that is sent any of them,
in any order and any number of times, takes every one and ends at the greatest.

* `Precedes` — the order of one root holder's lists; `produced_chain`.
* `deliver_run` — delivery of lists from a chain never fails and ends at the greatest.
* `revocation_permanent_and_convergent` — both halves.
-/
import Supgang.State.Lifetime

namespace Supgang.State

set_option autoImplicit false

open Theory List Supgang.Membership Revocation Invitation Record Journal

/-! ## Chains of lists -/

/-- The later list is the earlier one, or has grown from it. -/
def Precedes (earlier later : SignedRevocationList) : Prop := earlier = later ∨ Grows earlier later

variable {a b : SignedRevocationList}

theorem Grows.trans {c : SignedRevocationList} (first : Grows a b) (second : Grows b c) :
    Grows a c := by
  obtain ⟨nodeId, hnew, hold⟩ := second.revokes
  exact ⟨⟨first.serial_lt.trans second.serial_lt, first.issuedAt_le.trans second.issuedAt_le,
    List.Subset.trans first.revoked_subset second.revoked_subset⟩,
    nodeId, hnew, fun h => hold (first.revoked_subset h)⟩

theorem Precedes.trans {c : SignedRevocationList} (first : Precedes a b) (second : Precedes b c) :
    Precedes a c := by
  rcases first with rfl | hfirst
  · exact second
  · rcases second with rfl | hsecond
    · exact .inr hfirst
    · exact .inr (hfirst.trans hsecond)

theorem Precedes.serial_le (h : Precedes a b) :
    a.list.serial ≤ b.list.serial := by
  rcases h with rfl | hgrows
  · exact le_rfl
  · exact hgrows.serial_lt.le

/-- In a chain, lists of one serial are one list. -/
theorem Precedes.eq_of_serial_le (h : Precedes a b) (back : b.list.serial ≤ a.list.serial) :
    a = b := by
  rcases h with rfl | hgrows
  · rfl
  · exact absurd hgrows.serial_lt (not_lt.mpr back)

section Chains

variable [Sha256] [Ed25519]

/-- The lists a root holder returns for a run of revocation calls, and the device it is then. -/
def produce : List (NodeId × UInt64) → Device → List SignedRevocationList × Device
  | [], device => ([], device)
  | (nodeId, issuedAt) :: calls, device =>
    match (revoke nodeId issuedAt).run device with
    | .ok signed after =>
      let (lists, last) := produce calls after
      (signed :: lists, last)
    | .error _ after => produce calls after

/-- Delivers lists to a member one after another. -/
def deliver : List SignedRevocationList → DeviceM Unit
  | [] => pure ()
  | incoming :: lists => do
      let _ ← mergeRevocations incoming
      deliver lists

variable {device : Device} {frames : List Bytes}

/-- **One root holder's lists form a chain** above the list it started from, and verify. -/
theorem produced_chain (correct : Ed25519.Correct) (holds : Holds device frames)
    (calls : List (NodeId × UInt64)) :
    (device.state.revocations :: (produce calls device).1).Pairwise Precedes ∧
      ∀ signed ∈ (produce calls device).1,
        signed.verify device.state.identity.rootVerifyingKey = .ok () := by
  induction calls generalizing device frames with
  | nil => exact ⟨pairwise_singleton .., by simp [produce]⟩
  | cons call calls ih =>
    obtain ⟨nodeId, issuedAt⟩ := call
    rw [produce]
    cases hrun : (revoke nodeId issuedAt).run device with
    | error e after =>
      rw [(revoke_ends correct holds).error hrun]
      exact ih holds
    | ok signed after =>
      obtain ⟨hpath, hheld, hgrown⟩ := (revoke_ends correct holds).ok hrun
      obtain ⟨frames', hafter⟩ := Reaches.holds correct hpath holds
      obtain ⟨hchain, hverified⟩ := ih hafter
      have hidentity := (Reaches.advances hpath).identity_eq
      rw [hidentity] at hverified
      rw [hheld] at hchain
      have hfirst : Precedes device.state.revocations signed := by
        rcases hgrown with h | h
        · exact .inl h.symm
        · exact .inr h
      refine ⟨pairwise_cons.mpr ⟨?_, hchain⟩, ?_⟩
      · intro later hlater
        rcases mem_cons.mp hlater with rfl | hlater
        · exact hfirst
        · exact hfirst.trans ((pairwise_cons.mp hchain).1 later hlater)
      · intro found hfound
        rcases mem_cons.mp hfound with rfl | hfound
        · have hsound := hafter.sound.revocations
          rwa [hheld, hidentity] at hsound
        · exact hverified found hfound

/-- Merging a list that is comparable with the one held takes the later of the two. -/
theorem mergeRevocations_run (correct : Ed25519.Correct) (holds : Holds device frames)
    {incoming : SignedRevocationList}
    (verified : incoming.verify device.state.identity.rootVerifyingKey = .ok ())
    (comparable : Precedes incoming device.state.revocations ∨
      Precedes device.state.revocations incoming) :
    ∃ changed after, Reaches device after ∧
      (mergeRevocations incoming).run device = .ok changed after ∧
      (Precedes incoming device.state.revocations ∧
          after.state.revocations = device.state.revocations ∨
        Grows device.state.revocations incoming ∧ after.state.revocations = incoming) := by
  have hstart : (mergeRevocations incoming).run device = (
      if incoming.list.serial < device.state.revocations.list.serial then pure false
      else if incoming.list.serial = device.state.revocations.list.serial then do
        reject (incoming ≠ device.state.revocations) StateError.revocationEquivocation
        return false
      else do
        reject (incoming.list.issuedAt < device.state.revocations.list.issuedAt ∨
          ∃ nodeId ∈ device.state.revocations.list.revokedNodes, ¬incoming.contains nodeId)
          StateError.revocationRollback
        if incoming.list.revokedNodes = device.state.revocations.list.revokedNodes then
          return false
        else
          persistRevocations incoming
          return true : DeviceM Bool).run device := by
    rw [mergeRevocations, EStateM.run_bind, EStateM.run_get]
    simp only
    rw [EStateM.run_bind, verified]
    rfl
  rcases comparable with hback | rfl | hgrows
  · refine ⟨false, device, .refl, ?_, .inl ⟨hback, rfl⟩⟩
    rcases hback with rfl | hgrows
    · rw [hstart, if_neg (lt_irrefl _), if_pos rfl, run_reject_bind_of_not (not_not.mpr rfl)]
      rfl
    · rw [hstart, if_pos hgrows.serial_lt]
      rfl
  · refine ⟨false, device, .refl, ?_, .inl ⟨.inl rfl, rfl⟩⟩
    rw [hstart, if_neg (lt_irrefl _), if_pos rfl, run_reject_bind_of_not (not_not.mpr rfl)]
    rfl
  · obtain ⟨after, hpath, hheld, hrun⟩ :=
      persistRevocations_run correct holds verified hgrows.toExtends
    obtain ⟨nodeId, hnew, hold⟩ := hgrows.revokes
    have hserial := hgrows.serial_lt
    refine ⟨true, after, hpath, ?_, .inr ⟨hgrows, hheld⟩⟩
    rw [hstart, if_neg hserial.not_gt, if_neg hserial.ne', run_reject_bind_of_not, if_neg,
      EStateM.run_bind, hrun]
    · rfl
    · intro hsame
      exact hold (hsame ▸ hnew)
    · rw [not_or, not_lt, not_exists]
      refine ⟨hgrows.issuedAt_le, fun other hother => hother.2 ?_⟩
      rw [contains_iff]
      exact hgrows.revoked_subset hother.1

/-- **Delivery converges.** A member that holds one list of a chain and is sent others of it takes
them all without a failure and ends at the greatest. -/
theorem deliver_run (correct : Ed25519.Correct) {chain : Set SignedRevocationList}
    (total : ∀ a ∈ chain, ∀ b ∈ chain, Precedes a b ∨ Precedes b a)
    (lists : List SignedRevocationList) (holds : Holds device frames)
    (held : device.state.revocations ∈ chain)
    (sent : ∀ incoming ∈ lists, incoming ∈ chain ∧
      incoming.verify device.state.identity.rootVerifyingKey = .ok ()) :
    ∃ after, (deliver lists).run device = .ok () after ∧
      after.state.revocations ∈ device.state.revocations :: lists ∧
      ∀ found ∈ device.state.revocations :: lists,
        found.list.serial ≤ after.state.revocations.list.serial := by
  induction lists generalizing device frames with
  | nil => exact ⟨device, rfl, mem_cons_self, by simp⟩
  | cons incoming lists ih =>
    obtain ⟨hincoming, hverified⟩ := sent incoming mem_cons_self
    obtain ⟨changed, middle, hpath, hrun, hmerged⟩ := mergeRevocations_run correct holds hverified
      (total incoming hincoming _ held)
    obtain ⟨frames', hmiddle⟩ := Reaches.holds correct hpath holds
    have hidentity := (Reaches.advances hpath).identity_eq
    have hnow : middle.state.revocations ∈ device.state.revocations :: incoming :: lists ∧
        middle.state.revocations ∈ chain ∧
        device.state.revocations.list.serial ≤ middle.state.revocations.list.serial ∧
        incoming.list.serial ≤ middle.state.revocations.list.serial := by
      rcases hmerged with ⟨hprecedes, hsame⟩ | ⟨hgrows, hsame⟩
      · rw [hsame]
        exact ⟨mem_cons_self, held, le_rfl, hprecedes.serial_le⟩
      · rw [hsame]
        exact ⟨by simp, hincoming, hgrows.serial_lt.le, le_rfl⟩
    obtain ⟨hmember, hchain, hheld, hsent⟩ := hnow
    obtain ⟨after, hdeliver, hfinal, hgreatest⟩ := ih hmiddle hchain fun found hfound => by
      obtain ⟨hfound, hverify⟩ := sent found (mem_cons_of_mem _ hfound)
      exact ⟨hfound, hidentity.symm ▸ hverify⟩
    refine ⟨after, ?_, ?_, ?_⟩
    · rw [deliver, EStateM.run_bind, hrun]
      exact hdeliver
    · rcases mem_cons.mp hfinal with h | h
      · exact h ▸ hmember
      · exact mem_cons_of_mem _ (mem_cons_of_mem _ h)
    · have hmiddle_le := hgreatest _ mem_cons_self
      intro found hfound
      rcases mem_cons.mp hfound with rfl | hfound
      · exact hheld.trans hmiddle_le
      · rcases mem_cons.mp hfound with rfl | hfound
        · exact hsent.trans hmiddle_le
        · exact hgreatest found (mem_cons_of_mem _ hfound)

/-! ## Permanence and convergence -/

/-- Between two points of a lifetime the held list only grows, and a node revoked at the first is
never admitted at the second. -/
theorem Lifetime.revocations_permanent (correct : Ed25519.Correct) {seen : Set Bytes}
    (free : CollisionFree seen) {device' : Device} {records : List SignedEndpointRecord}
    (holds : Holds device frames) (life : Lifetime seen device records device') :
    Advances device.state device'.state ∧
      ∀ deviceKey roles nonce issuedAt expiresAt signed after,
        (issueMembership deviceKey roles nonce issuedAt expiresAt).run device' = .ok signed after →
        NodeId.fromVerifyingKey deviceKey ∉ device.state.revocations.list.revokedNodes := by
  obtain ⟨⟨frames', hdevice'⟩, hadvances, -, -⟩ := life.invariant correct free holds
  refine ⟨hadvances, ?_⟩
  intro deviceKey roles nonce issuedAt expiresAt signed after hrun hrevoked
  obtain ⟨-, hadmitted, -⟩ := (issueMembership_ends correct hdevice' ..).ok hrun
  exact hadmitted (hadvances.revoked_subset hrevoked)

omit [Sha256] [Ed25519] in
/-- The lists of one root holder and a list before or among them are pairwise comparable. -/
theorem produced_total {first held : SignedRevocationList} {produced : List SignedRevocationList}
    (chain : (first :: produced).Pairwise Precedes)
    (member : Precedes held first ∨ held ∈ produced) :
    ∀ a ∈ {found | found = held ∨ found ∈ produced},
      ∀ b ∈ {found | found = held ∨ found ∈ produced}, Precedes a b ∨ Precedes b a := by
  obtain ⟨hfirst, hproduced⟩ := pairwise_cons.mp chain
  have hrefl : ∀ a : SignedRevocationList, Precedes a a := fun a => .inl rfl
  have hcomparable : ∀ a ∈ produced, ∀ b ∈ produced, Precedes a b ∨ Precedes b a := by
    intro a ha b hb
    have hsymm : Std.Symm fun a b : SignedRevocationList => Precedes a b ∨ Precedes b a :=
      ⟨fun _ _ => Or.symm⟩
    exact List.Pairwise.forall_of_forall (R := fun a b => Precedes a b ∨ Precedes b a)
      (fun a ha => .inl (hrefl a)) (hproduced.imp .inl) ha hb
  have hheld : ∀ b ∈ produced, Precedes held b ∨ Precedes b held := by
    intro b hb
    rcases member with hbefore | hamong
    · exact .inl (hbefore.trans (hfirst b hb))
    · exact hcomparable held hamong b hb
  rintro a (rfl | ha) b (rfl | hb)
  · exact .inl (hrefl _)
  · exact hheld b hb
  · exact (hheld a ha).symm
  · exact hcomparable a ha b hb

/-- **Revocation is permanent and converges.** Along every lifetime a revoked node stays revoked,
the serial and the time of the held list never decrease, and no membership is issued to a node that
was ever revoked. And the lists a root holder produces in any run of revocations, delivered to a
member that holds a list from before the run or from the run itself, in any order and with any
repetitions, are all taken without a failure; the member ends with the greatest of what it held and
was sent, which is a delivered one where it held a list from before the run. -/
theorem revocation_permanent_and_convergent (correct : Ed25519.Correct) {seen : Set Bytes}
    (free : CollisionFree seen) :
    (∀ {origin device device' : Device} {records records' : List SignedEndpointRecord},
      Started origin → Lifetime seen origin records device →
      Lifetime seen device records' device' →
      device.state.revocations.list.revokedNodes ⊆ device'.state.revocations.list.revokedNodes ∧
      device.state.revocations.list.serial ≤ device'.state.revocations.list.serial ∧
      device.state.revocations.list.issuedAt ≤ device'.state.revocations.list.issuedAt ∧
      ∀ deviceKey roles nonce issuedAt expiresAt signed after,
        (issueMembership deviceKey roles nonce issuedAt expiresAt).run device' = .ok signed after →
        NodeId.fromVerifyingKey deviceKey ∉ device.state.revocations.list.revokedNodes) ∧
    ∀ {rootOrigin root memberOrigin member : Device}
      {records records' : List SignedEndpointRecord} (calls : List (NodeId × UInt64))
      (delivered : List SignedRevocationList),
      Started rootOrigin → Lifetime seen rootOrigin records root →
      Started memberOrigin → Lifetime seen memberOrigin records' member →
      member.state.identity.rootVerifyingKey = root.state.identity.rootVerifyingKey →
      (Precedes member.state.revocations root.state.revocations ∨
        member.state.revocations ∈ (produce calls root).1) →
      (∀ signed ∈ delivered, signed ∈ (produce calls root).1) →
      ∃ after, (deliver delivered).run member = .ok () after ∧
        after.state.revocations ∈ member.state.revocations :: delivered ∧
        (∀ found ∈ member.state.revocations :: delivered,
          found.list.serial ≤ after.state.revocations.list.serial) ∧
        (Precedes member.state.revocations root.state.revocations → delivered ≠ [] →
          after.state.revocations ∈ delivered) := by
  have hheld : ∀ {origin device : Device} {records : List SignedEndpointRecord}, Started origin →
      Lifetime seen origin records device → ∃ frames, Holds device frames := by
    intro origin device records started life
    obtain ⟨frames, holds⟩ := started.holds correct
    exact (life.invariant correct free holds).1
  constructor
  · intro origin device device' records records' started before after
    obtain ⟨frames, holds⟩ := hheld started before
    obtain ⟨hadvances, hissue⟩ := after.revocations_permanent correct free holds
    exact ⟨hadvances.revoked_subset, hadvances.serial_le, hadvances.issuedAt_le, hissue⟩
  · intro rootOrigin root memberOrigin member records records' calls delivered rootStarted rootLife
      memberStarted memberLife hkey hmember hsent
    obtain ⟨rootFrames, hroot⟩ := hheld rootStarted rootLife
    obtain ⟨memberFrames, hholds⟩ := hheld memberStarted memberLife
    obtain ⟨hchain, hverified⟩ := produced_chain correct hroot calls
    obtain ⟨after, hrun, hfinal, hgreatest⟩ := deliver_run correct
      (produced_total hchain hmember) delivered hholds (.inl rfl) fun incoming hincoming =>
        ⟨.inr (hsent incoming hincoming), hkey ▸ hverified incoming (hsent incoming hincoming)⟩
    refine ⟨after, hrun, hfinal, hgreatest, ?_⟩
    intro hbefore hsome
    -- A delivered list is no earlier than the one held, so ending at the held one is ending at it.
    obtain ⟨incoming, hincoming⟩ := exists_mem_of_ne_nil delivered hsome
    rcases mem_cons.mp hfinal with hsame | hdelivered
    · have hprecedes := hbefore.trans
        ((pairwise_cons.mp hchain).1 incoming (hsent incoming hincoming))
      have hback := hgreatest incoming (mem_cons_of_mem _ hincoming)
      rw [hsame] at hback ⊢
      rw [hprecedes.eq_of_serial_le hback]
      exact hincoming
    · exact hdelivered

end Chains

/-! ## A run of the theorem -/

attribute [local instance] tailSha256 acceptingEd25519

/-- The answer to the waiting device's request. -/
def answerAt (now expiresAt : UInt64) : Operation :=
  .authorizeJoinRequest (JoinRequest.create waitingDevice) waitingDevice.device.nodeId .device
    now expiresAt

/-- The waiting device, once the root holder has answered it, joins. -/
def newMember (root : Device) : Option Device := do
  let membership ← root.state.memberships[waitingDevice.device.nodeId]?
  let bundle ← (JoinBundle.new hiveRoot membership root.state.revocations 0).toOption
  match (installJoinBundle none (some waitingDevice) bundle
      hiveRoot.hiveId 0).run (Tape.start ⟨[], [], none⟩) with
  | .ok state tape => some ⟨state, tape⟩
  | .error _ _ => none

theorem newMember_started {root member : Device} (joined : newMember root = some member) :
    Started member := by
  simp only [newMember, Option.bind_eq_bind, Option.bind_eq_some_iff] at joined
  obtain ⟨membership, -, bundle, -, installed⟩ := joined
  split at installed
  · rename_i run
    cases installed
    exact .installed run
  · cases installed

def nodeOf (key : UInt8) : NodeId := NodeId.fromVerifyingKey (FixedBytes.replicate 32 key)

/-- Two more devices are admitted, and revoked after the waiting one has joined. -/
def revokedTwo : List (NodeId × UInt64) := [(nodeOf 4, 1), (nodeOf 6, 2)]

/-- Both lists sent to the member, the later one first and then once more. -/
theorem revocation_permanent_and_convergent_member : ∃ root member first second after,
    hiveAfter [answerAt 0 3600, admitKey 4, admitKey 6] = some root ∧ newMember root = some member ∧
    (produce revokedTwo root).1 = [first, second] ∧
    (deliver [second, first, second]).run member = .ok () after ∧
    after.state.revocations = second ∧ nodeOf 4 ∈ after.state.revocations.list.revokedNodes := by
  have run : ((hiveAfter [answerAt 0 3600, admitKey 4, admitKey 6]).any fun root =>
      (newMember root).any fun member =>
        member.state.revocations = root.state.revocations ∧
        member.state.identity.rootVerifyingKey = root.state.identity.rootVerifyingKey ∧
        (produce revokedTwo root).1.length = 2 ∧
        (produce revokedTwo root).1.Pairwise fun first second =>
          first.list.serial < second.list.serial ∧
            nodeOf 4 ∈ second.list.revokedNodes) = true := by decide +kernel
  obtain ⟨root, reached, run⟩ := (Option.any_eq_true _ _).mp run
  obtain ⟨member, joined, run⟩ := (Option.any_eq_true _ _).mp run
  obtain ⟨same, key, two, increasing⟩ := of_decide_eq_true run
  obtain ⟨first, second, produced⟩ := length_eq_two.mp two
  rw [produced, pairwise_pair] at increasing
  obtain ⟨origin, records, started, life⟩ := hiveAfter_lifetime reached
  obtain ⟨after, delivered, -, greatest, last⟩ := (revocation_permanent_and_convergent
    acceptingEd25519_correct (Set.injOn_empty _)).2 revokedTwo [second, first, second] started
    life (newMember_started joined) .start key (.inl (.inl same)) (by simp [produced])
  have most := greatest second (by simp)
  have among := last (.inl same) (cons_ne_nil _ _)
  have final : after.state.revocations = second := by
    by_contra other
    have earlier : after.state.revocations = first := by simpa [other] using among
    rw [earlier] at most
    exact absurd most (not_le.mpr increasing.1)
  exact ⟨root, member, first, second, after, reached, joined, produced, delivered, final,
    final ▸ increasing.2⟩

end Supgang.State
