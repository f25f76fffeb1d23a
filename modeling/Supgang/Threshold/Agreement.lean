/-
# Threshold.Agreement — a majority never signs two rival steps

Participants hold their locks in their own stores and never talk to each other, so agreement is a
property of each store and of counting. No durable write of a session lets two rival commitments
live; a share leaves only over a permanent record; two quorums of a majority share a participant,
whose store would hold both.

* `Apart.unrivalled` — two permanent locks of one participant are never on rival steps.
* `Custodian.Intact.holds` — a share that left is backed by such a lock.
* `quorums_meet`, `no_rival_quorums` — agreement.
-/
import Supgang.Threshold.Nonces

namespace Supgang.Threshold

set_option autoImplicit false
set_option linter.unusedSectionVars false

open Theory List

section Machine

variable [Sha256] [Ed25519] [P256] [Frost]

variable {records : List Record} {role : Role} {n : Nat}

/-! ## One participant -/

theorem Apart.unrivalled (apart : Apart records) {first second : Record} (one : first ∈ records)
    (two : second ∈ records) (locked : first.permanent = true) (locked' : second.permanent = true) :
    ¬Clash first second := by
  intro clash
  have symmetric : Std.Symm fun a b : Record => Clash a b → ¬(a.Alive ∧ b.Alive) :=
    ⟨fun a b apart clash alive => apart clash.symm alive.symm⟩
  have distinct : first ≠ second := by
    rintro rfl
    obtain ⟨_, _, _, _, differ⟩ := clash
    exact differ rfl
  exact Pairwise.forall apart one two distinct clash ⟨.inl locked, .inl locked'⟩

/-- The records hold a permanent lock on the step, taken under the role. -/
def Holds (records : List Record) (role : Role) (step : RootStep) : Prop :=
  ∃ record ∈ records, record.permanent = true ∧ record.role = some role ∧ record.step = step

/-- The message names the step. -/
theorem RootStep.message_inj {first second : RootStep} {message : Bytes}
    (one : first.message = .ok message) (two : second.message = .ok message) : first = second := by
  obtain ⟨bytes, encoded, same⟩ := bind_eq_ok.mp one
  obtain ⟨bytes', encoded', same'⟩ := bind_eq_ok.mp two
  have eq := append_cancel_left ((pure_eq_ok.mp same).trans (pure_eq_ok.mp same').symm)
  exact encode_injective encoded (eq ▸ encoded')

/-- A share leaves only over a permanent lock on the step it signs. -/
theorem Custodian.Intact.holds {packages : Set Package} {machine : Machine} {calls : Calls}
    {answers : List Answer} (intact : Intact packages machine calls answers) {answer : Answer}
    (member : answer ∈ answers) {step : RootStep} (under : answer.role = some role)
    (message : step.message = .ok answer.package.signing.message) :
    Holds machine.store.durable.records role step := by
  obtain ⟨_, record, here, binds, ⟨role', tagged, under'⟩, _⟩ := intact.answered answer member
  obtain ⟨digest, _, packaged⟩ := binds.bound
  obtain rfl := Option.some.inj (under.symm.trans tagged)
  have legal := intact.kept.legal record here
  have permanent := legal.permanent_of_packaged (by rw [packaged]; rfl)
  exact ⟨record, here, permanent, under', RootStep.message_inj binds.message message⟩

/-! ## The group -/

/-- Applies each call to its participant, in any interleaving. -/
def runCalls {n : Nat} (group : Fin n → Custodian) (calls : List (Fin n × Call)) : Fin n → Custodian :=
  calls.foldl (fun group call => Function.update group call.1 ((group call.1).step call.2)) group

theorem runCalls_sound {group : Fin n → Custodian} (sound : ∀ i, (group i).Sound Set.univ)
    (calls : List (Fin n × Call)) (i : Fin n) : (runCalls group calls i).Sound Set.univ := by
  induction calls generalizing group with
  | nil => exact sound i
  | cons call rest ih =>
    refine ih fun j => ?_
    beta_reduce
    by_cases eq : j = call.1
    · rw [eq, Function.update_self]
      exact (sound call.1).step fun _ _ _ => trivial
    · rw [Function.update_of_ne eq]
      exact sound j

/-- The participants that have released a share for the step, from an attempt under the role. -/
def signers {n : Nat} (group : Fin n → Custodian) (role : Role) (step : RootStep) : Finset (Fin n) :=
  Finset.univ.filter fun i => (group i).answers.any fun answer =>
    answer.role = some role ∧ step.message = .ok answer.package.signing.message

/-- The group before its first session, each participant with a store of its own. -/
def startGroup (hive : HiveId) (group : GroupDescriptor)
    (fates : Fin group.participants.length → List Fate) :
    Fin group.participants.length → Custodian := fun i =>
  Custodian.start { hive, group, participant := UInt16.ofNat (i.val + 1) } (fates i)

/-- Two sets of more than half of the participants meet. -/
theorem quorums_meet {k : Nat} (majority : n < 2 * k) {first second : Finset (Fin n)}
    (one : k ≤ first.card) (two : k ≤ second.card) : ∃ i, i ∈ first ∧ i ∈ second := by
  have size : (first ∪ second).card ≤ n := by
    simpa using Finset.card_le_univ (first ∪ second)
  have count := Finset.card_union_add_card_inter first second
  obtain ⟨i, both⟩ := Finset.card_pos.mp (show 0 < (first ∩ second).card by omega)
  exact ⟨i, Finset.mem_inter.mp both⟩

/-- The locks of a participant that has released a share. -/
theorem mem_signers {group : Fin n → Custodian} {step : RootStep} {i : Fin n}
    (sound : (group i).Sound Set.univ) (signed : i ∈ signers group role step) :
    Holds (group i).machine.store.durable.records role step := by
  rw [signers, Finset.mem_filter, any_eq_true] at signed
  obtain ⟨answer, released, found⟩ := signed.2
  obtain ⟨under, message⟩ := of_decide_eq_true found
  exact sound.holds released under message

/-- Where more than half of the group is needed, at most one step of each predecessor, or of each
recovery generation where the group recovers, gets its shares under a role, whatever the group signs
under the others. -/
theorem no_rival_quorums {hive : HiveId} {group : GroupDescriptor}
    (majority : group.participants.length < 2 * group.k.toNat)
    {fates : Fin group.participants.length → List Fate}
    {calls : List (Fin group.participants.length × Call)} {first second : RootStep}
    {digest digest' : Digest} (hashed : first.digest = .ok digest)
    (hashed' : second.digest = .ok digest') (differ : digest ≠ digest')
    (scope : role.SameScope first second) :
    ¬(group.k.toNat ≤ (signers (runCalls (startGroup hive group fates) calls) role first).card ∧
      group.k.toNat ≤
        (signers (runCalls (startGroup hive group fates) calls) role second).card) := by
  rintro ⟨one, two⟩
  obtain ⟨i, signed, signed'⟩ := quorums_meet majority one two
  have sound : (runCalls (startGroup hive group fates) calls i).Sound Set.univ :=
    runCalls_sound (fun j => Custodian.start_sound _ _ (fates j)) calls i
  obtain ⟨record, member, permanent, under, rfl⟩ := mem_signers sound signed
  obtain ⟨record', member', permanent', under', rfl⟩ := mem_signers sound signed'
  have digests := sound.kept.legal record member
  have digests' := sound.kept.legal record' member'
  refine sound.apart.unrivalled member member' permanent permanent'
    ⟨role, under, under', scope, ?_⟩
  rw [digests.digest] at hashed
  rw [digests'.digest] at hashed'
  rwa [Except.ok.inj hashed, Except.ok.inj hashed']

end Machine

/-! ## A pair that signs -/

attribute [local instance] proposerSha256 nonemptyEd25519 anyP256 unitFrost

/-- Both members open, commit to the step they were asked for and sign it. One has committed to a
rival of it before, to prove possession. -/
def pairCalls : List (Fin 2 × Call) :=
  let opened (participant : UInt16) := Call.restart (pairKey participant)
  let asked := Call.propose (FixedBytes.replicate 32 9) payloadStep.step 0
  let committed := Call.commit (FixedBytes.replicate 32 9) 0
    (ChainPolicy.review ⟨pairStart.offers [firstStep], .root⟩) (fun _ => true) (some default)
  let proves := Call.commit (FixedBytes.replicate 32 8) 0
    (fun _ _ => .ok ⟨default, .successorPossession⟩) (fun _ => true) (some default)
  [(0, opened 1), (0, .propose (FixedBytes.replicate 32 8) groundlessStep.step 0), (0, proves),
    (0, asked), (0, committed), (1, opened 2), (1, asked), (1, opened 2), (1, asked),
    (1, committed), (1, .sign pairPackage 1), (0, .sign pairPackage 1)]

/-- The second member's first write is lost, and it has to restart. -/
def pairFates : Fin 2 → List Fate := ![[], [.lost .store false]]

/-- The pair has signed one step; no other on its predecessor will be. -/
theorem no_rival_quorums_pair :
    2 ≤ (signers (runCalls (startGroup pairHive (pairGroup 1) pairFates) pairCalls) .root
      payloadStep.step).card ∧
    (signers (runCalls (startGroup pairHive (pairGroup 1) pairFates) pairCalls) .root
      groundlessStep.step).card < 2 := by
  have signed : 2 ≤ (signers (runCalls (startGroup pairHive (pairGroup 1) pairFates) pairCalls)
      .root payloadStep.step).card := by decide +kernel
  refine ⟨signed, not_le.mp fun rival => ?_⟩
  have majority : (pairGroup 1).participants.length < 2 * (pairGroup 1).k.toNat := by decide
  have named : payloadStep.step.digest = .ok (FixedBytes.replicate 32 11) := by decide +kernel
  have named' : groundlessStep.step.digest = .ok (FixedBytes.replicate 32 13) := by decide +kernel
  exact no_rival_quorums majority named named' (by decide) (by decide +kernel) ⟨signed, rival⟩

end Supgang.Threshold
