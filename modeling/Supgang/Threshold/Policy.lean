/-
# Threshold.Policy — what a participant reviews before it commits

The default policy reviews a step against the participant's own chain before anything is committed.
Its checks are those of the chain itself but for the grant rules, the permanent halt and the end of
the epochs; where these pass as well, the chain accepts what was reviewed.

* `ChainPolicy.review` — the policy of the source; `review_eq_ok`, `plain_of_review`,
  `succession_of_review` — what an accepted review says.
* `admits_of_review`, `recovers_of_review` — the chain takes the reviewed step.
* `reviewed_applies` — over every reachable chain.
-/
import Supgang.Threshold.Forgery

namespace Supgang.Threshold

set_option autoImplicit false

open Theory List

/-- What a group's signature means for the reviewed operation. -/
inductive Role where
  /-- Authorize an ordinary operation or planned succession. -/
  | root
  /-- Authorize recovery, permanently locking its recovery generation. -/
  | recovery
  /-- Prove possession of the proposed successor root, granting no authority. -/
  | successorPossession
  /-- Prove possession of a replacement recovery group, granting no authority. -/
  | recoveryPossession
deriving DecidableEq, Repr

/-- Durable binding to the local chain revision and signing purpose reviewed. -/
structure Review where
  /-- Local tip digest at review, independent of the coordinator's assertion. -/
  tip : Digest
  role : Role
deriving DecidableEq, Repr

section Runs

variable [Sha256] [Ed25519] [P256] [Frost]

/-- Store identity prevents loading another hive, group, generation or participant. -/
structure Binding where
  hive : HiveId
  group : GroupDescriptor
  /-- Participant number within that group. -/
  participant : UInt16
deriving DecidableEq

/-- Default policy for the isolated chain model and its opaque application payloads. -/
structure ChainPolicy where
  /-- Authenticated local view. -/
  chain : Chain
  /-- Explicit purpose prevents possession signing from consuming authorization. -/
  role : Role

namespace ChainPolicy

/-- The rules of each kind of succession. -/
def kindRules (policy : ChainPolicy) (step : RootStep) (transition : Succession) :
    Except Error Unit :=
  match transition.kind with
  | .planned =>
    reject (policy.chain.status ≠ .active ∨ transition.recovery ≠ policy.chain.recovery ∨
      step.recoveryGen ≠ policy.chain.order.1) Error.authority
  | .recovery => do
      let generation ← okOr (checkedAdd policy.chain.order.1 1) Error.bound
      reject (step.recoveryGen ≠ generation ∨ transition.retained ≠ emptyRetainedDigest)
        Error.authority
      validateChange transition.recovery policy.chain.recovery

/-- The group whose participants sign in the policy's role. -/
def expectedGroup (policy : ChainPolicy) (transition : Succession) : Except Error GroupDescriptor :=
  match policy.role, transition.kind with
  | .root, .planned => pure policy.chain.current.group
  | .recovery, .recovery => pure policy.chain.recovery.group
  | .successorPossession, _ => pure transition.successor
  | .recoveryPossession, .recovery =>
    if transition.recovery ≠ policy.chain.recovery then pure transition.recovery.group
    else throw Error.authority
  | _, _ => throw Error.authority

/-- Authorizations need both possessions, possessions none. -/
def possessionRules (policy : ChainPolicy) (step : RootStep) (transition : Succession) :
    Except Error Unit :=
  if policy.role = .root ∨ policy.role = .recovery then
    transition.verifyPossession step (transition.recovery ≠ policy.chain.recovery)
  else
    reject (transition.possession ≠ emptySignature ∨
      transition.recoveryPossession ≠ emptySignature) Error.proof

def succession (policy : ChainPolicy) (binding : Binding) (step : RootStep) :
    Except Error Unit := do
  let transition ← Succession.decode step.payload
  let group := policy.chain.current.group
  reject (transition.previousKey ≠ group.publicKey ∨
    transition.successor.publicKey = group.publicKey ∨
    transition.successor.publicKey = transition.recovery.group.publicKey ∨
    transition.successor.label ≠ group.label ∨ transition.recovery.group.label ≠ group.label)
    Error.authority
  let generation ← okOr (checkedAdd group.generation 1) Error.bound
  reject (transition.successor.generation ≠ generation) Error.authority
  policy.kindRules step transition
  let expected ← policy.expectedGroup transition
  reject (binding.group ≠ expected) Error.authority
  policy.possessionRules step transition

/-- What a step that is no succession has to satisfy. -/
def plainRules (policy : ChainPolicy) (binding : Binding) (step : RootStep) : Except Error Unit :=
  reject (policy.role ≠ .root ∨ policy.chain.status ≠ .active ∨
    binding.group ≠ policy.chain.current.group ∨ step.recoveryGen ≠ policy.chain.order.1 ∨
    step.payload = [] ∨ step.operation = .reshare ∨ step.operation = .setRecoveryGroup)
    Error.authority

def operationRules (policy : ChainPolicy) (binding : Binding) (step : RootStep) :
    Except Error Unit :=
  if step.operation = .succession then policy.succession binding step
  else policy.plainRules binding step

/-- Reviews this exact operation for the bound participant. -/
def review (policy : ChainPolicy) (binding : Binding) (step : RootStep) : Except Error Review := do
  let chain := policy.chain
  let _ ← step.encode
  reject (binding.hive ≠ chain.hive ∨ step.hive ≠ chain.hive ∨ step.predecessor ≠ chain.tip)
    Error.authority
  let sequence ← okOr (checkedAdd chain.order.2.2 1) Error.bound
  reject (step.sequence ≠ sequence ∨ step.epoch ≠ chain.order.2.1 ∨
    chain.current.group.publicKey = chain.recovery.group.publicKey) Error.authority
  policy.operationRules binding step
  return { tip := chain.tip, role := policy.role }

/-! ## What an accepted review says -/

variable {policy : ChainPolicy} {binding : Binding} {step : RootStep} {result : Review}

/-- The place of the step in the reviewed chain. -/
structure Placed (chain : Chain) (step : RootStep) : Prop where
  sameHive : step.hive = chain.hive
  onTip : step.predecessor = chain.tip
  sequence : checkedAdd chain.current.sequence 1 = some step.sequence
  epoch : step.epoch = chain.current.epoch

/-- The rules both kinds of succession share. -/
structure Succeeds (chain : Chain) (transition : Succession) : Prop where
  previousKey : transition.previousKey = chain.current.group.publicKey
  replaced : transition.successor.publicKey ≠ chain.current.group.publicKey
  separate : transition.successor.publicKey ≠ transition.recovery.group.publicKey
  successorLabel : transition.successor.label = chain.current.group.label
  recoveryLabel : transition.recovery.group.label = chain.current.group.label
  generation : checkedAdd chain.current.group.generation 1 = some transition.successor.generation

section Reviewed

variable (reviewed : policy.review binding step = .ok result)

include reviewed

theorem review_eq_ok : (∃ bytes, step.encode = .ok bytes) ∧ Placed policy.chain step ∧
      policy.operationRules binding step = .ok () := by
  simp only [review, ok_steps] at reviewed
  obtain ⟨bytes, encoded, _, first, sequence, next, _, second, _, rules, -⟩ := reviewed
  simp only [not_or, not_not] at first second
  refine ⟨⟨bytes, encoded⟩, ⟨first.2.1, first.2.2, ?_, second.2.1⟩, rules⟩
  rw [second.1]
  exact next

/-- A reviewed step that is no succession. -/
theorem plain_of_review (plain : step.operation ≠ .succession) :
    policy.chain.status = .active ∧ binding.group = policy.chain.current.group ∧
      step.recoveryGen = policy.chain.current.recoveryGen ∧ step.operation ≠ .reshare ∧
      step.operation ≠ .setRecoveryGroup ∧ policy.role = .root := by
  obtain ⟨-, -, rules⟩ := review_eq_ok reviewed
  rw [operationRules, if_neg plain, plainRules, reject_eq_ok] at rules
  simp only [not_or, not_not] at rules
  exact ⟨rules.2.1, rules.2.2.1, rules.2.2.2.1, rules.2.2.2.2.2.1, rules.2.2.2.2.2.2, rules.1⟩

/-- A reviewed succession. -/
theorem succession_of_review (carries : step.operation = .succession) :
    ∃ transition, Succession.decode step.payload = .ok transition ∧
      Succeeds policy.chain transition ∧ policy.kindRules step transition = .ok () ∧
      policy.expectedGroup transition = .ok binding.group ∧
      policy.possessionRules step transition = .ok () := by
  obtain ⟨-, -, rules⟩ := review_eq_ok reviewed
  rw [operationRules, if_pos carries] at rules
  simp only [succession, ok_steps] at rules
  obtain ⟨transition, decoded, _, shared, generation, next, _, same, _, kind, expected, group, _,
    bound, possession⟩ := rules
  simp only [not_or, not_not] at shared same bound
  refine ⟨transition, decoded, ⟨shared.1, shared.2.1, shared.2.2.1, shared.2.2.2.1, shared.2.2.2.2,
    by rw [same]; exact next⟩, kind, ?_, possession⟩
  rw [bound]
  exact group

end Reviewed

end ChainPolicy

/-! ## The chain takes what was reviewed -/

variable {seen : Set Bytes} {chain : Chain} {role : Role} {binding : Binding} {result : Review}
  {signed : SignedStep} {digest : Digest}

/-- An ordinary step of the current generation on the tip is not recorded yet. -/
theorem Sound.unrecorded_on_tip (sound : Sound seen chain) (free : CollisionFree seen)
    {succession : Option Succession}
    (presented : Presented seen chain.hive signed digest succession)
    (planned : ∀ transition ∈ succession, transition.kind = .planned)
    (generation : signed.step.recoveryGen = chain.current.recoveryGen)
    (onTip : signed.step.predecessor = chain.tip) : digest ∉ chain.records := by
  intro there
  obtain ⟨recorded, found⟩ := exists_getElem? there
  have same := sound.recorded_step free presented found
  obtain ⟨other, decoded, stands⟩ := (sound.recorded digest recorded found).decoded
  rw [same, presented.decoded] at decoded
  cases decoded
  exact (stands planned).2 (by rw [same, generation]) (by rw [same, onTip])

/-- A reviewed ordinary step or planned succession is admitted on the tip. -/
theorem admits_of_review (sound : Sound seen chain)
    (reviewed : ChainPolicy.review ⟨chain, .root⟩ binding signed.step = .ok result)
    (verified : signed.verify binding.group.publicKey = .ok ())
    (epochs : signed.step.operation = .succession → checkedAdd chain.current.epoch 1 ≠ none) :
    ∃ succession next, transitionOf signed.step = .ok succession ∧
      (∀ transition ∈ succession, transition.kind = .planned) ∧
      chain.Admits signed succession chain.current next := by
  obtain ⟨-, placed, -⟩ := ChainPolicy.review_eq_ok reviewed
  have known : chain.contexts[signed.step.predecessor]? = some chain.current := by
    rw [placed.onTip]
    exact sound.tipContext
  by_cases carries : signed.step.operation = .succession
  · obtain ⟨transition, decoded, succeeds, kind, expected, possession⟩ :=
      ChainPolicy.succession_of_review reviewed carries
    have planned : transition.kind = .planned := by
      cases kind' : transition.kind with
      | planned => rfl
      | recovery => simp [ChainPolicy.expectedGroup, kind'] at expected
    simp only [ChainPolicy.kindRules, planned, reject_eq_ok, not_or, not_not] at kind
    simp only [ChainPolicy.expectedGroup, planned, pure_eq_ok] at expected
    rw [ChainPolicy.possessionRules, if_pos (.inl rfl)] at possession
    obtain ⟨epoch, higher⟩ := Option.ne_none_iff_exists'.mp (epochs carries)
    refine ⟨some transition, { chain.current with
        group := transition.successor, epoch, sequence := signed.step.sequence }, ?_, ?_, ?_⟩
    · rw [transitionOf, if_pos carries, decoded]
      rfl
    · intro other there
      cases there
      exact planned
    · refine ⟨kind.1, by simp [carries], kind.2.2, known, nextContext_eq_ok.mpr ⟨rfl, placed.epoch,
        placed.sequence, by rw [expected]; exact verified, .inr ⟨transition, epoch, rfl, planned,
        succeeds.previousKey, kind.2.1, succeeds.replaced, succeeds.separate,
        succeeds.successorLabel, succeeds.generation, ?_, higher, rfl⟩⟩⟩
      have unchanged : decide (transition.recovery ≠ chain.recovery) = false := by
        simpa using kind.2.1
      rw [← unchanged]
      exact possession
  · obtain ⟨active, group, generation, reshare, recovery, -⟩ :=
      ChainPolicy.plain_of_review reviewed carries
    refine ⟨none, { chain.current with sequence := signed.step.sequence }, ?_, by simp, active,
      ⟨recovery, reshare⟩, generation, known, nextContext_eq_ok.mpr ⟨rfl, placed.epoch,
      placed.sequence, ?_, .inl ⟨rfl, rfl⟩⟩⟩
    · rw [transitionOf, if_neg carries]
      rfl
    · change binding.group = chain.current.group at group
      rw [← group]
      exact verified

/-- A reviewed recovery is accepted as the next one. -/
theorem recovers_of_review (sound : Sound seen chain)
    (reviewed : ChainPolicy.review ⟨chain, .recovery⟩ binding signed.step = .ok result)
    (verified : signed.verify binding.group.publicKey = .ok ())
    (epochs : signed.step.operation = .succession → checkedAdd chain.current.epoch 1 ≠ none)
    (room : chain.records.size < maxRecords ∧ chain.recoveryProofs.size < maxRecords)
    (digest : Digest) :
    ∃ transition next, transitionOf signed.step = .ok (some transition) ∧
      transition.kind = .recovery ∧
      (acceptRecovery signed digest transition).run chain =
        .ok .accepted (chain.recovered signed digest transition next) := by
  obtain ⟨-, placed, -⟩ := ChainPolicy.review_eq_ok reviewed
  have carries : signed.step.operation = .succession := by
    by_contra plain
    obtain ⟨-, -, -, -, -, role⟩ := ChainPolicy.plain_of_review reviewed plain
    cases role
  obtain ⟨transition, decoded, succeeds, kind, expected, possession⟩ :=
    ChainPolicy.succession_of_review reviewed carries
  have recovery : transition.kind = .recovery := by
    cases kind' : transition.kind with
    | recovery => rfl
    | planned => simp [ChainPolicy.expectedGroup, kind'] at expected
  simp only [ChainPolicy.kindRules, recovery, ok_steps, not_or, not_not] at kind
  obtain ⟨generation, next, _, ⟨sameGeneration, retained⟩, change⟩ := kind
  simp only [ChainPolicy.expectedGroup, recovery, pure_eq_ok] at expected
  rw [ChainPolicy.possessionRules, if_pos (.inr rfl)] at possession
  obtain ⟨epoch, higher⟩ := Option.ne_none_iff_exists'.mp (epochs carries)
  have newer : chain.current.recoveryGen < signed.step.recoveryGen := by
    rw [sameGeneration]
    exact lt_of_checkedAdd_one next
  have unproved : chain.recoveryProofs[signed.step.recoveryGen]? = none := by
    refine Std.ExtTreeMap.getElem?_eq_none fun proved => ?_
    exact absurd newer (not_lt.mpr (sound.proved _ proved))
  have valid : chain.validateRecovery signed.step transition chain.recovery = .ok () := by
    refine validateRecovery_eq_ok.mpr ⟨⟨retained, succeeds.successorLabel, ?_, succeeds.separate,
      succeeds.recoveryLabel, validateChange_eq_ok.mp change, possession⟩, ?_⟩
    · rw [succeeds.previousKey]
      exact succeeds.replaced
    · refine validateAncestor_eq_ok.mpr fun context found => ?_
      rw [placed.onTip, sound.tipContext] at found
      cases found
      exact ⟨succeeds.previousKey, placed.epoch, placed.sequence⟩
  let context : Context := {
    group := transition.successor, epoch, recoveryGen := signed.step.recoveryGen
    sequence := signed.step.sequence }
  refine ⟨transition, context, ?_, recovery, ?_⟩
  · rw [transitionOf, if_pos carries, decoded]
    rfl
  · rw [acceptRecovery, EStateM.run_bind, EStateM.run_get]
    simp only []
    rw [unproved]
    refine acceptFirst_accepts newer ?_ valid ?_ ?_ digest
    · change chain.recovery.group = binding.group at expected
      rw [expected]
      exact verified
    · omega
    · rw [placed.epoch]
      exact higher

/-- What was accepted stays recorded and active while held descendants follow. -/
theorem settle_keeps (digest : Digest) (recorded : digest ∈ chain.records)
    (active : digest ∈ chain.active) :
    Ends chain (settle .accepted) (fun _ after => digest ∈ after.records ∧ digest ∈ after.active)
      (fun after => digest ∈ after.records ∧ digest ∈ after.active) := by
  have drained : Ends chain drainPending
      (fun _ after => digest ∈ after.records ∧ digest ∈ after.active)
      (fun after => digest ∈ after.records ∧ digest ∈ after.active) := by
    refine drainLoop_ends ?_ ?_ maxRecords chain ⟨recorded, active⟩
    · intro chain other signed kept _
      exact kept
    · rintro chain other signed succession ⟨recorded, active⟩ - - -
      have cases' := acceptOrdinary_cases
        { chain with pending := chain.pending.erase other } signed other succession
      rw [Ends]
      generalize (acceptOrdinary signed other succession).run
        { chain with pending := chain.pending.erase other } = result at cases'
      cases cases' with
      | refused | held | duplicate | exhausted => exact ⟨recorded, active⟩
      | fork admits fresh child conflict =>
        rcases Chain.forked_eq fresh with ⟨-, eq⟩ | ⟨-, eq⟩
        · rw [eq]
          exact ⟨mem_insert_iff.mpr (.inr recorded), active⟩
        · rw [eq]
          exact ⟨recorded, active⟩
      | @extended context next admits fresh room onTip valid =>
        obtain ⟨_, _, _, eq⟩ := Chain.extended_eq
          { chain with pending := chain.pending.erase other } signed other next
        rw [eq]
        exact ⟨mem_insert_iff.mpr (.inr recorded), mem_append_left _ active⟩
  rw [settle, follow, if_pos rfl]
  refine .seq drained fun _ after kept => .get ?_
  exact .pure kept

theorem applied_of_run {after : Chain}
    (run : (accept signed).run chain = (settle .accepted).run after)
    (recorded : digest ∈ after.records) (active : digest ∈ after.active)
    (open' : after.status = .active) :
    digest ∈ (chain.offer signed).records ∧ digest ∈ (chain.offer signed).active ∧
      (after.ready = none → chain.answer signed = .ok .accepted ∧ chain.offer signed = after) := by
  have offered : chain.offer signed = finalChain ((settle .accepted).run after) := by
    rw [← run, Chain.offer]
    cases (accept signed).run chain <;> rfl
  obtain ⟨first, second⟩ := final_of_ends (settle_keeps digest recorded active)
  rw [← offered] at first second
  refine ⟨first, second, fun idle => ?_⟩
  exact answer_offer (run.trans (settle_of_idle open' idle))

/-- **What was reviewed can be applied.** On every reachable chain below its bounds that is not
stopped for good, a step reviewed for an authorizing role and validly signed by the bound group is
recorded and becomes active, where it passes the grant rules and is no succession in the last epoch.
The answer is `accepted`, for a recovery always and otherwise unless a held record stands ready. -/
theorem reviewed_applies (free : CollisionFree seen) {group : GroupDescriptor}
    {recovery : RecoveryDescriptor} {offered : List SignedStep}
    (reached : Reached seen group recovery offered chain)
    (authorizes : role = .root ∨ role = .recovery)
    (reviewed : ChainPolicy.review ⟨chain, role⟩ binding signed.step = .ok result)
    (verified : signed.verify binding.group.publicKey = .ok ()) (within : Within seen signed)
    (room : chain.records.size < maxRecords ∧ chain.recoveryProofs.size < maxRecords)
    (unforked : chain.recoveryFork = false)
    (grants : chain.validateGrantTransition signed.step = .ok ())
    (epochs : signed.step.operation = .succession → checkedAdd chain.current.epoch 1 ≠ none) :
    ∃ digest, signed.step.digest = .ok digest ∧ digest ∈ (chain.offer signed).records ∧
      digest ∈ (chain.offer signed).active ∧
      ((role = .recovery ∨ ∀ (other : Digest) (held : SignedStep),
          chain.pending[other]? = some held →
            held.step.predecessor ∉ chain.contexts ∧ held.step.predecessor ≠ digest) →
        chain.answer signed = .ok .accepted ∧ (chain.offer signed).tip = digest) := by
  have sound := reached.sound free
  obtain ⟨⟨bytes, encoded⟩, placed, -⟩ := ChainPolicy.review_eq_ok reviewed
  have hashed := digest_eq_ok.mpr ⟨bytes, encoded, rfl⟩
  generalize Sha256.digest bytes = digest at hashed
  refine ⟨digest, hashed, ?_⟩
  rcases authorizes with rfl | rfl
  · obtain ⟨succession, next, decoded, planned, admits⟩ :=
      admits_of_review sound reviewed verified epochs
    have presented : Presented seen chain.hive signed digest succession :=
      ⟨hashed, placed.sameHive, decoded, within⟩
    have fresh := sound.unrecorded_on_tip free presented planned admits.generation placed.onTip
    have step : Extends seen chain (digest, signed) (chain.extended signed digest next) :=
      .intro presented admits fresh room.1 placed.onTip grants
    have run := accept_run hashed placed.sameHive unforked decoded
    have ordinary : (acceptOrdinary signed digest succession).run chain =
        .ok .accepted (chain.extended signed digest next) := by
      rw [acceptOrdinary_of_admits admits]
      refine extend_accepts fresh ?_ room.1 placed.onTip grants
      rw [Std.ExtTreeMap.getElem?_eq_none fun parent => (sound.parents _ parent).2 placed.onTip]
      rfl
    rw [dispatch_planned planned, EStateM.run_bind, ordinary] at run
    obtain ⟨_, _, _, same⟩ := chain.extended_eq signed digest next
    have active : digest ∈ (chain.extended signed digest next).active := by
      rw [same]
      simp
    have open' : (chain.extended signed digest next).status = .active := by
      rw [same]
      exact admits.active
    obtain ⟨recorded, active, answers⟩ := applied_of_run run step.after_eq.2.1 active open'
    refine ⟨recorded, active, fun quiet => ?_⟩
    have quiet := quiet.resolve_left (by decide)
    have idle : (chain.extended signed digest next).ready = none := by
      refine ready_eq_none.mpr fun other held found standing => ?_
      rw [same] at found
      rcases (step.after_eq.2.2.2 _).mp standing with onIt | known
      · exact (quiet other held found).2 onIt
      · exact (quiet other held found).1 known
    obtain ⟨answer, offer⟩ := answers idle
    rw [offer]
    exact ⟨answer, step.after_eq.1⟩
  · obtain ⟨transition, next, decoded, kind, accepted⟩ :=
      recovers_of_review sound reviewed verified epochs room digest
    have run := accept_run hashed placed.sameHive unforked decoded
    rw [dispatch_recovery kind, EStateM.run_bind, accepted] at run
    have onRecord : digest ∈ (chain.recovered signed digest transition next).records :=
      mem_insert_iff.mpr (.inl rfl)
    have onPath : digest ∈ (chain.recovered signed digest transition next).active :=
      mem_append_right _ (mem_singleton.mpr rfl)
    obtain ⟨recorded, active, answers⟩ := applied_of_run run onRecord onPath rfl
    refine ⟨recorded, active, fun _ => ?_⟩
    obtain ⟨answer, offer⟩ := answers rfl
    rw [offer]
    exact ⟨answer, rfl⟩

end Runs

/-! ## Fixed inputs -/

attribute [local instance] proposerSha256 nonemptyEd25519 anyP256 unitFrost

def pairBinding : Binding := ⟨pairHive, pairGroup 1, 1⟩

/-- A step on the tip with a payload, as the policy asks. -/
def payloadStep : SignedStep := pairStep 11 10 2 .revoke [0]

/-- The review passes a withdrawal of a grant that was never made, which the chain refuses. -/
theorem reviewed_refused :
    ChainPolicy.review ⟨pairStart.offers [firstStep], .root⟩ pairBinding groundlessStep.step =
      .ok ⟨FixedBytes.replicate 32 10, .root⟩ ∧
    groundlessStep.verify pairBinding.group.publicKey = .ok () ∧
    (pairStart.offers [firstStep]).answer groundlessStep = .error .authority := by
  decide +kernel

theorem reviewed_applies_payload :
    ∃ digest, payloadStep.step.digest = .ok digest ∧
      digest ∈ ((pairStart.offers [firstStep]).offer payloadStep).active := by
  have free := pairSeen_free [firstStep, payloadStep] (by decide +kernel)
  have reached : Reached (fun bytes => bytes ∈ pairSeen [firstStep, payloadStep])
      (pairGroup 1) pairRecovery [firstStep] (pairStart.offers [firstStep]) :=
    ⟨⟨pairStart, pairStart_founded, rfl⟩, pairSeen_founded _, fun signed there =>
      pairSeen_within [firstStep, payloadStep] signed (by
        rw [mem_singleton.mp there]
        exact mem_cons_self)⟩
  have reviewed : ChainPolicy.review ⟨pairStart.offers [firstStep], .root⟩ pairBinding
      payloadStep.step = .ok ⟨FixedBytes.replicate 32 10, .root⟩ := by decide +kernel
  obtain ⟨digest, hashed, -, active, -⟩ := reviewed_applies free reached (.inl rfl) reviewed
    (by decide +kernel) (pairSeen_within [firstStep, payloadStep] payloadStep (by simp))
    (by decide +kernel) (by decide +kernel) (by decide +kernel) (by decide +kernel)
  exact ⟨digest, hashed, active⟩

end Supgang.Threshold
