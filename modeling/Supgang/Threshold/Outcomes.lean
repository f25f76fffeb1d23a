/-
# Threshold.Outcomes — every way an offered step can end

One inversion lemma for each part of `accept`, stated over the whole chain: which checks were passed
and which chain results. Every invariant of the chain is proved from these cases and never from the
programs themselves.

* `acceptOrdinary_cases`, `acceptRecovery_cases` — the endings of the two kinds of step.
* `extend_accepts`, `extend_forks`, `acceptFirst_accepts` — when the endings that change a chain occur.
* `drainLoop_ends` — what every held step keeps, draining keeps.
* `accept_ends` — what the two kinds of step keep, offering any step keeps.
-/
import Supgang.Theory.Outcome
import Supgang.Threshold.Chain

namespace Supgang.Threshold

set_option autoImplicit false
set_option linter.unusedSectionVars false

open Theory
open EStateM (run_bind run_get)

variable [Sha256] [Ed25519] [P256] [Frost]

/-! ## What an ordinary step does -/

/-- The grant rules applied to a chain that has validated them. -/
def Chain.granted (chain : Chain) (step : RootStep) : Chain :=
  match chain.applyGrantTransition step with
  | .ok granted => granted
  | .error _ => chain

/-- The chain after `signed` became its tip. -/
def Chain.extended (chain : Chain) (signed : SignedStep) (digest : Digest) (next : Context) :
    Chain :=
  (Chain.granted { chain with children := chain.children.insert signed.step.predecessor digest }
    signed.step).advanced signed digest next

/-- Only the three grant fields change. -/
theorem Chain.granted_eq (chain : Chain) (step : RootStep) :
    ∃ grants used serial, chain.granted step =
      { chain with grants := grants, usedGrantIds := used, grantRevocationSerial := serial } := by
  unfold granted applyGrantTransition
  cases step.operation with
  | grant => cases Grant.decode step.payload <;> exact ⟨_, _, _, rfl⟩
  | revokeGrant => cases Revocation.decode step.payload <;> exact ⟨_, _, _, rfl⟩
  | _ => exact ⟨_, _, _, rfl⟩

variable {step : RootStep} {chain : Chain} {context next : Context} {transition : Succession}
  {signed : SignedStep} {digest : Digest} {authority : RecoveryDescriptor}

theorem Chain.applyGrantTransition_of_valid (chain : Chain) {other : Chain}
    (valid : other.validateGrantTransition step = .ok ()) :
    chain.applyGrantTransition step = .ok (chain.granted step) := by
  unfold validateGrantTransition at valid
  unfold granted applyGrantTransition
  cases operation : step.operation with
  | grant =>
    simp only [operation, bind_eq_ok] at valid
    obtain ⟨grant, decoded, -⟩ := valid
    simp only [decoded]
    rfl
  | revokeGrant =>
    simp only [operation, bind_eq_ok] at valid
    obtain ⟨revoke, decoded, -⟩ := valid
    simp only [decoded]
    rfl
  | _ => rfl

/-- The step passes every check that comes before the chain is changed. -/
structure Chain.Admits (chain : Chain) (signed : SignedStep) (transition : Option Succession)
    (context next : Context) : Prop where
  active : chain.status = .active
  permitted : signed.step.operation ≠ .setRecoveryGroup ∧ signed.step.operation ≠ .reshare
  generation : signed.step.recoveryGen = chain.current.recoveryGen
  known : chain.contexts[signed.step.predecessor]? = some context
  checked : chain.nextContext signed context transition = .ok next

/-- The rules of a planned succession, as its checks leave them. -/
structure Chain.Planned (chain : Chain) (step : RootStep) (context : Context)
    (transition : Succession) (epoch : UInt64) (next : Context) : Prop where
  kind : transition.kind = .planned
  previousKey : transition.previousKey = context.group.publicKey
  recovery : transition.recovery = chain.recovery
  replaced : transition.successor.publicKey ≠ context.group.publicKey
  separate : transition.successor.publicKey ≠ transition.recovery.group.publicKey
  label : transition.successor.label = context.group.label
  generation : checkedAdd context.group.generation 1 = some transition.successor.generation
  possession : transition.verifyPossession step false = .ok ()
  higher : checkedAdd context.epoch 1 = some epoch
  next : next = { context with group := transition.successor, epoch, sequence := step.sequence }

theorem plannedContext_eq_ok (h : chain.plannedContext step context transition = .ok next) :
    ∃ epoch, chain.Planned step context transition epoch next := by
  simp only [Chain.plannedContext, ok_steps, exists_unit, not_or, not_not, ↓existsAndEq,
    true_and] at h
  obtain ⟨⟨kind, previousKey, recovery, replaced, separate, label⟩, generation, possession, epoch,
    higher, eq⟩ := h
  exact ⟨epoch, kind, previousKey, recovery, replaced, separate, label, generation, possession,
    higher, eq.symm⟩

variable {epoch : UInt64} {recovery : RecoveryDescriptor} {previous : SignedStep} {P : Chain → Prop}

/-- A planned succession that obeys its rules is checked. -/
theorem Chain.Planned.checked (planned : chain.Planned step context transition epoch next) :
    chain.plannedContext step context transition = .ok next := by
  obtain ⟨kind, previousKey, recovery, replaced, separate, label, generation, possession, higher,
    rfl⟩ := planned
  simp only [Chain.plannedContext, ok_steps, exists_unit, not_or, not_not, ↓existsAndEq, true_and]
  exact ⟨⟨kind, previousKey, recovery, replaced, separate, label⟩, generation, possession, epoch,
    higher, rfl⟩

section Admitted

variable {chain : Chain} {signed : SignedStep} {succession : Option Succession}
  {context next : Context}

/-- What the checks of an admitted step leave to know. -/
theorem nextContext_eq_ok :
    chain.nextContext signed context succession = .ok next ↔
      context.recoveryGen = chain.current.recoveryGen ∧ signed.step.epoch = context.epoch ∧
      checkedAdd context.sequence 1 = some signed.step.sequence ∧
      signed.verify context.group.publicKey = .ok () ∧
      ((succession = none ∧ next = { context with sequence := signed.step.sequence }) ∨
        ∃ transition epoch, succession = some transition ∧
          chain.Planned signed.step context transition epoch next) := by
  simp only [Chain.nextContext, ok_steps, exists_unit, not_or, not_not, ↓existsAndEq, true_and]
  constructor
  · rintro ⟨⟨generation, epoch⟩, higher, verified, rest⟩
    refine ⟨generation, epoch, higher, verified, ?_⟩
    cases succession with
    | none => exact .inl ⟨rfl, (pure_eq_ok.mp rest).symm⟩
    | some transition =>
      obtain ⟨epoch, planned⟩ := plannedContext_eq_ok rest
      exact .inr ⟨transition, epoch, rfl, planned⟩
  · rintro ⟨generation, epoch, higher, verified, rest⟩
    refine ⟨⟨generation, epoch⟩, higher, verified, ?_⟩
    rcases rest with ⟨rfl, rfl⟩ | ⟨transition, epoch, rfl, planned⟩
    · rfl
    · exact planned.checked

section Admits

variable (admits : chain.Admits signed succession context next)

include admits

theorem Chain.Admits.sameGeneration : context.recoveryGen = chain.current.recoveryGen :=
  (nextContext_eq_ok.mp admits.checked).1

theorem Chain.Admits.verified : signed.verify context.group.publicKey = .ok () :=
  (nextContext_eq_ok.mp admits.checked).2.2.2.1

/-- The context an admitted step makes: the same group at the next sequence, or the successor. -/
theorem Chain.Admits.next_cases :
    (succession = none ∧ next = { context with sequence := signed.step.sequence }) ∨
      ∃ transition epoch, succession = some transition ∧
        chain.Planned signed.step context transition epoch next :=
  (nextContext_eq_ok.mp admits.checked).2.2.2.2

theorem Chain.Admits.planned : ∀ transition ∈ succession, transition.kind = .planned := by
  rintro transition ⟨⟩
  rcases admits.next_cases with ⟨none, -⟩ | ⟨_, _, some, rules⟩
  · cases none
  · cases some
    exact rules.kind

end Admits

end Admitted

/-- Every way an ordinary step can end. -/
inductive Chain.Ordinary (chain : Chain) (signed : SignedStep) (digest : Digest)
    (transition : Option Succession) : EStateM.Result Error Chain Outcome → Prop where
  | refused (e : Error) : Ordinary chain signed digest transition (.error e chain)
  | held (active : chain.status = .active)
      (unknown : chain.contexts[signed.step.predecessor]? = none)
      (room : chain.pending.size < maxRecords) :
      Ordinary chain signed digest transition
        (.ok .held { chain with pending := chain.pending.insert digest signed })
  | duplicate {context next : Context} (admits : chain.Admits signed transition context next)
      (recorded : digest ∈ chain.records) :
      Ordinary chain signed digest transition (.ok .duplicate chain)
  | fork {context next : Context} {existing : Digest}
      (admits : chain.Admits signed transition context next) (fresh : digest ∉ chain.records)
      (child : chain.children[signed.step.predecessor]? = some existing)
      (conflict : existing ≠ digest) :
      Ordinary chain signed digest transition
        (.ok .fork (chain.forked existing signed digest next))
  | exhausted {context next : Context} (admits : chain.Admits signed transition context next)
      (fresh : digest ∉ chain.records) (full : maxRecords ≤ chain.records.size) :
      Ordinary chain signed digest transition (.error .bound { chain with status := .exhausted })
  | extended {context next : Context} (admits : chain.Admits signed transition context next)
      (fresh : digest ∉ chain.records) (room : chain.records.size < maxRecords)
      (onTip : signed.step.predecessor = chain.tip)
      (valid : chain.validateGrantTransition signed.step = .ok ()) :
      Ordinary chain signed digest transition
        (.ok .accepted (chain.extended signed digest next))

/-- What becomes of a verified step, branch by branch. -/
def Chain.extension (chain : Chain) (signed : SignedStep) (digest : Digest) (next : Context) :
    EStateM.Result Error Chain Outcome :=
  if digest ∈ chain.records then .ok .duplicate chain
  else match chain.children[signed.step.predecessor]?.filter (· ≠ digest) with
    | some existing => .ok .fork (chain.forked existing signed digest next)
    | none =>
      if maxRecords ≤ chain.records.size then .error .bound { chain with status := .exhausted }
      else if signed.step.predecessor ≠ chain.tip then .error .authority chain
      else match chain.validateGrantTransition signed.step with
        | .error e => .error e chain
        | .ok _ => .ok .accepted (chain.extended signed digest next)

theorem extend_run (chain : Chain) (signed : SignedStep) (digest : Digest) (next : Context) :
    (extend signed digest next).run chain = chain.extension signed digest next := by
  unfold extend Chain.extension
  rw [run_bind, run_get]
  simp only [run_ite]
  refine if_congr Iff.rfl rfl ?_
  cases chain.children[signed.step.predecessor]?.filter (· ≠ digest) with
  | some existing => rfl
  | none =>
    simp only [run_ite]
    refine if_congr Iff.rfl rfl ?_
    rw [run_reject_bind]
    refine if_congr Iff.rfl rfl ?_
    cases valid : chain.validateGrantTransition signed.step with
    | error e => rfl
    | ok =>
      have applied := Chain.applyGrantTransition_of_valid
        { chain with children := chain.children.insert signed.step.predecessor digest } valid
      simp only [run_bind, run_ofExcept_ok, EStateM.run_set, applied]
      rfl

/-- What becomes of an ordinary step, branch by branch. -/
def Chain.judgement (chain : Chain) (signed : SignedStep) (digest : Digest)
    (transition : Option Succession) : EStateM.Result Error Chain Outcome :=
  if chain.status ≠ .active then .error .halted chain
  else if signed.step.operation = .setRecoveryGroup ∨ signed.step.operation = .reshare then
    .error .authority chain
  else if signed.step.recoveryGen ≠ chain.current.recoveryGen then .error .authority chain
  else match chain.contexts[signed.step.predecessor]? with
    | none =>
      if maxRecords ≤ chain.pending.size then .error .bound chain
      else .ok .held { chain with pending := chain.pending.insert digest signed }
    | some context =>
      match chain.nextContext signed context transition with
      | .error e => .error e chain
      | .ok next => chain.extension signed digest next

theorem acceptOrdinary_run (chain : Chain) (signed : SignedStep) (digest : Digest)
    (transition : Option Succession) :
    (acceptOrdinary signed digest transition).run chain =
      chain.judgement signed digest transition := by
  unfold acceptOrdinary Chain.judgement
  rw [run_bind, run_get]
  simp only [run_reject_bind]
  refine if_congr Iff.rfl rfl (if_congr Iff.rfl rfl (if_congr Iff.rfl rfl ?_))
  cases chain.contexts[signed.step.predecessor]? with
  | none =>
    simp only [hold]
    rw [run_bind, run_get]
    simp only [run_reject_bind]
    rfl
  | some context =>
    simp only []
    cases chain.nextContext signed context transition with
    | error e => rfl
    | ok next =>
      rw [run_bind, run_ofExcept_ok]
      exact extend_run chain signed digest next

theorem acceptOrdinary_of_admits {transition : Option Succession}
    (admits : chain.Admits signed transition context next) (digest : Digest) :
    (acceptOrdinary signed digest transition).run chain = (extend signed digest next).run chain := by
  rw [acceptOrdinary_run, extend_run, Chain.judgement, if_neg (not_not.mpr admits.active),
    if_neg (not_or.mpr admits.permitted), if_neg (not_not.mpr admits.generation)]
  simp only [admits.known, admits.checked]

theorem extend_accepts (fresh : digest ∉ chain.records)
    (alone : chain.children[signed.step.predecessor]?.filter (· ≠ digest) = none)
    (room : chain.records.size < maxRecords) (onTip : signed.step.predecessor = chain.tip)
    (valid : chain.validateGrantTransition signed.step = .ok ()) :
    (extend signed digest next).run chain =
      .ok .accepted (chain.extended signed digest next) := by
  rw [extend_run, Chain.extension, if_neg fresh, alone]
  simp only [valid, if_neg (not_le.mpr room), if_neg (not_not.mpr onTip)]

theorem extend_forks {existing : Digest} (fresh : digest ∉ chain.records)
    (child : chain.children[signed.step.predecessor]? = some existing)
    (conflict : existing ≠ digest) :
    (extend signed digest next).run chain =
      .ok .fork (chain.forked existing signed digest next) := by
  rw [extend_run, Chain.extension, if_neg fresh, child, Option.filter_some,
    if_pos (decide_eq_true conflict)]

theorem extend_duplicate (recorded : digest ∈ chain.records) :
    (extend signed digest next).run chain = .ok .duplicate chain := by
  rw [extend_run, Chain.extension, if_pos recorded]

/-- A verified step ends in one of the ways of an ordinary step. -/
theorem extend_cases {transition : Option Succession}
    (admits : chain.Admits signed transition context next) (digest : Digest) :
    chain.Ordinary signed digest transition ((extend signed digest next).run chain) := by
  rw [extend_run, Chain.extension]
  split
  · exact .duplicate admits ‹_›
  rename_i fresh
  split
  · rename_i child
    obtain ⟨found, conflict⟩ := Option.filter_eq_some_iff.mp child
    exact .fork admits fresh found (of_decide_eq_true conflict)
  split
  · exact .exhausted admits fresh ‹_›
  rename_i full
  split
  · exact .refused .authority
  rename_i onTip
  split
  · exact .refused _
  · exact .extended admits fresh (not_le.mp full) (not_not.mp onTip) ‹_›

/-- Every ordinary step ends in one of the ways listed. -/
theorem acceptOrdinary_cases (chain : Chain) (signed : SignedStep) (digest : Digest)
    (transition : Option Succession) :
    chain.Ordinary signed digest transition
      ((acceptOrdinary signed digest transition).run chain) := by
  refine Yields.result.mp (.get (.reject (fun _ => .refused _) fun active => .reject
    (fun _ => .refused _) fun reserved => .reject (fun _ => .refused _) fun generation => ?_))
  cases known : chain.contexts[signed.step.predecessor]? with
  | none =>
    exact .get (.reject (fun _ => .refused _) fun full =>
      .of_ok rfl (.held (not_not.mp active) known (not_le.mp full)))
  | some context =>
    refine .ofExcept (fun e _ => .refused e) fun next checked => Yields.result.mpr ?_
    exact extend_cases ⟨not_not.mp active, not_or.mp reserved, not_not.mp generation, known,
      checked⟩ digest

/-! ## What a recovery does -/

/-- A replaced recovery descriptor is the next one of its own history. -/
structure Replaces (recovery authority : RecoveryDescriptor) : Prop where
  sequence : checkedAdd authority.sequence 1 = some recovery.sequence
  predecessor : authority.digest = .ok recovery.predecessor
  fresh : recovery.group.publicKey ≠ authority.group.publicKey
  generation : checkedAdd authority.group.generation 1 = some recovery.group.generation

theorem validateReplacement_eq_ok :
    validateReplacement recovery authority = .ok () ↔ Replaces recovery authority := by
  simp only [validateReplacement, ok_steps, exists_unit, not_or, not_not, ↓existsAndEq, true_and,
    and_true]
  constructor
  · rintro ⟨higher, hashed, fresh, next⟩
    exact ⟨higher, hashed, fresh, next⟩
  · rintro ⟨higher, hashed, fresh, next⟩
    exact ⟨higher, hashed, fresh, next⟩

theorem validateChange_eq_ok : validateChange recovery authority = .ok () ↔
      recovery = authority ∨ Replaces recovery authority := by
  unfold validateChange
  by_cases same : recovery = authority
  · rw [if_pos same]
    exact ⟨fun _ => .inl same, fun _ => rfl⟩
  · rw [if_neg same, validateReplacement_eq_ok]
    exact ⟨.inr, fun h => h.resolve_left same⟩

/-- The rules of a recovery succession that do not look at the contexts of a chain: `label` is the
hive's label, `authority` the recovery descriptor it is judged under. -/
structure RecoveryRules (label : String) (step : RootStep) (transition : Succession)
    (authority : RecoveryDescriptor) : Prop where
  retained : transition.retained = emptyRetainedDigest
  successorLabel : transition.successor.label = label
  replaced : transition.successor.publicKey ≠ transition.previousKey
  separate : transition.successor.publicKey ≠ transition.recovery.group.publicKey
  recoveryLabel : transition.recovery.group.label = label
  change : transition.recovery = authority ∨ Replaces transition.recovery authority
  possession : transition.verifyPossession step (transition.recovery ≠ authority) = .ok ()

theorem validateRecovery_eq_ok :
    chain.validateRecovery step transition authority = .ok () ↔
      RecoveryRules chain.current.group.label step transition authority ∧
      chain.validateAncestor step transition = .ok () := by
  simp only [Chain.validateRecovery, ok_steps, exists_unit, not_or, not_not]
  constructor
  · rintro ⟨⟨retained, label, replaced, separate, recoveryLabel⟩, ancestor, change, possession⟩
    exact ⟨⟨retained, label, replaced, separate, recoveryLabel, validateChange_eq_ok.mp change,
      possession⟩, ancestor⟩
  · rintro ⟨⟨retained, label, replaced, separate, recoveryLabel, change, possession⟩, ancestor⟩
    exact ⟨⟨retained, label, replaced, separate, recoveryLabel⟩, ancestor,
      validateChange_eq_ok.mpr change, possession⟩

/-- A recovery is consistent with the context of its predecessor, where that is known. -/
theorem validateAncestor_eq_ok :
    chain.validateAncestor step transition = .ok () ↔
      ∀ context, chain.contexts[step.predecessor]? = some context →
        transition.previousKey = context.group.publicKey ∧ step.epoch = context.epoch ∧
        checkedAdd context.sequence 1 = some step.sequence := by
  unfold Chain.validateAncestor
  cases known : chain.contexts[step.predecessor]? with
  | none => simp
  | some context =>
    simp only [ok_steps, exists_unit, not_or, not_not, Option.some_inj, ↓existsAndEq, and_true,
      forall_eq', and_assoc]

/-- Every way a recovery succession can end. -/
inductive Chain.Recovery (chain : Chain) (signed : SignedStep) (digest : Digest)
    (transition : Succession) : EStateM.Result Error Chain Outcome → Prop where
  | refused (e : Error) : Recovery chain signed digest transition (.error e chain)
  | duplicate : Recovery chain signed digest transition (.ok .duplicate chain)
  | rival {previous : SignedStep} {authority : RecoveryDescriptor} {known : Digest}
      (proved : chain.recoveryProofs[signed.step.recoveryGen]? = some (previous, authority))
      (verified : signed.verify authority.group.publicKey = .ok ())
      (valid : chain.validateRecovery signed.step transition authority = .ok ())
      (hashed : previous.step.digest = .ok known) (different : known ≠ digest) :
      Recovery chain signed digest transition
        (.ok .fork { chain.halt known signed digest with recoveryFork := true })
  | exhausted (full : maxRecords ≤ chain.records.size ∨ maxRecords ≤ chain.recoveryProofs.size) :
      Recovery chain signed digest transition (.error .bound { chain with status := .exhausted })
  | recovered {epoch : UInt64} (unproved : chain.recoveryProofs[signed.step.recoveryGen]? = none)
      (newer : chain.current.recoveryGen < signed.step.recoveryGen)
      (verified : signed.verify chain.recovery.group.publicKey = .ok ())
      (valid : chain.validateRecovery signed.step transition chain.recovery = .ok ())
      (room : chain.records.size < maxRecords)
      (next : checkedAdd signed.step.epoch 1 = some epoch) :
      Recovery chain signed digest transition
        (.ok .accepted (chain.recovered signed digest transition
          { group := transition.successor, epoch, recoveryGen := signed.step.recoveryGen,
            sequence := signed.step.sequence }))

/-- A second recovery of a generation that passes its checks forks the chain for good. -/
theorem acceptRival_forks {known : Digest}
    (verified : signed.verify authority.group.publicKey = .ok ())
    (valid : chain.validateRecovery signed.step transition authority = .ok ())
    (hashed : previous.step.digest = .ok known) (different : known ≠ digest) :
    (acceptRival signed digest transition previous authority).run chain =
      .ok .fork { chain.halt known signed digest with recoveryFork := true } := by
  unfold acceptRival
  rw [run_bind, run_get]
  simp only [run_bind, verified, valid, hashed, run_ofExcept_ok, if_neg different]
  rfl

theorem acceptRival_cases (digest : Digest) (transition : Succession)
    (proved : chain.recoveryProofs[signed.step.recoveryGen]? = some (previous, authority)) :
    chain.Recovery signed digest transition
      ((acceptRival signed digest transition previous authority).run chain) :=
  Yields.result.mp (.get (.ofExcept (fun e _ => .refused e) fun _ verified =>
    .ofExcept (fun e _ => .refused e) fun _ valid => .ofExcept (fun e _ => .refused e)
    fun _ hashed => .ite (fun _ => .pure .duplicate) fun different =>
      .of_ok rfl (.rival proved verified valid hashed different)))

/-- A first recovery that passes its checks, with room for it, is the new tip. -/
theorem acceptFirst_accepts (newer : chain.current.recoveryGen < signed.step.recoveryGen)
    (verified : signed.verify chain.recovery.group.publicKey = .ok ())
    (valid : chain.validateRecovery signed.step transition chain.recovery = .ok ())
    (room : ¬(maxRecords ≤ chain.records.size ∨ maxRecords ≤ chain.recoveryProofs.size))
    (next : checkedAdd signed.step.epoch 1 = some epoch) (digest : Digest) :
    (acceptFirst signed digest transition).run chain =
      .ok .accepted (chain.recovered signed digest transition
        { group := transition.successor, epoch, recoveryGen := signed.step.recoveryGen,
          sequence := signed.step.sequence }) := by
  unfold acceptFirst
  rw [run_bind, run_get]
  simp only []
  rw [run_reject_bind_of_not (not_le.mpr newer)]
  simp only [run_bind, verified, valid, run_ofExcept_ok, if_neg room, next, okOr_some]
  rfl

theorem acceptFirst_cases (digest : Digest) (transition : Succession)
    (unproved : chain.recoveryProofs[signed.step.recoveryGen]? = none) :
    chain.Recovery signed digest transition ((acceptFirst signed digest transition).run chain) :=
  Yields.result.mp (.get (.reject (fun _ => .refused _) fun older =>
    .ofExcept (fun e _ => .refused e) fun _ verified => .ofExcept (fun e _ => .refused e)
    fun _ valid => .ite (fun full => .of_error rfl (.exhausted full)) fun room =>
      .ofExcept (fun e _ => .refused e) fun _ next => .of_ok rfl (.recovered unproved
        (not_le.mp older) verified valid (not_le.mp (not_or.mp room).1) (okOr_eq_ok.mp next))))

/-- Every recovery succession ends in one of the ways listed. -/
theorem acceptRecovery_cases (chain : Chain) (signed : SignedStep) (digest : Digest)
    (transition : Succession) :
    chain.Recovery signed digest transition
      ((acceptRecovery signed digest transition).run chain) := by
  unfold acceptRecovery
  rw [run_bind, run_get]
  cases proved : chain.recoveryProofs[signed.step.recoveryGen]? with
  | none => simpa only [proved] using acceptFirst_cases digest transition proved
  | some proof =>
    obtain ⟨previous, authority⟩ := proof
    simpa only [proved] using acceptRival_cases digest transition proved

/-! ## Draining and offering -/

/-- One round of draining, as an equation. -/
theorem drainLoop_run (rounds : Nat) (chain : Chain) :
    (drainLoop (rounds + 1)).run chain =
      if chain.status ≠ .active then .ok () chain
      else match chain.ready with
        | none => .ok () chain
        | some (digest, signed) =>
          let erased : Chain := { chain with pending := chain.pending.erase digest }
          match transitionOf signed.step with
          | .error _ => (drainLoop rounds).run erased
          | .ok transition =>
            match (acceptOrdinary signed digest transition).run erased with
            | .ok _ after => (drainLoop rounds).run after
            | .error .bound after => .error .bound after
            | .error _ after => (drainLoop rounds).run after := by
  rw [drainLoop, run_bind, run_get]
  simp only []
  rw [run_ite]
  by_cases active : chain.status = .active
  · rw [if_neg (not_not.mpr active), if_neg (not_not.mpr active)]
    cases chain.ready with
    | none => rfl
    | some entry =>
      obtain ⟨digest, signed⟩ := entry
      simp only [run_bind, EStateM.run_set]
      cases transitionOf signed.step with
      | error e => rfl
      | ok transition =>
        simp only []
        rw [run_bind]
        unfold attempt
        simp only [EStateM.run, id]
        cases acceptOrdinary signed digest transition
            { chain with pending := chain.pending.erase digest } with
        | ok outcome after => rfl
        | error e after => cases e <;> rfl
  · rw [if_pos active, if_pos active]
    rfl

/-- What dropping a held step and offering it keep, draining keeps. -/
theorem drainLoop_ends
    (drop : ∀ chain digest signed, P chain → chain.ready = some (digest, signed) →
      P { chain with pending := chain.pending.erase digest })
    (offer : ∀ chain digest signed transition, P chain → chain.status = .active →
      chain.ready = some (digest, signed) → transitionOf signed.step = .ok transition →
      Ends { chain with pending := chain.pending.erase digest } (acceptOrdinary signed digest
      transition) (fun _ => P) P) :
    ∀ (rounds : Nat) (chain : Chain), P chain → Ends chain (drainLoop rounds) (fun _ => P) P := by
  intro rounds
  induction rounds with
  | zero =>
    intro chain holds
    exact holds
  | succ rounds ih =>
    intro chain holds
    rw [Ends, drainLoop_run]
    by_cases active : chain.status = .active
    · rw [if_neg (not_not.mpr active)]
      cases found : chain.ready with
      | none => exact holds
      | some entry =>
        obtain ⟨digest, signed⟩ := entry
        simp only []
        cases decoded : transitionOf signed.step with
        | error e => exact ih _ (drop chain digest signed holds found)
        | ok transition =>
          have after := offer chain digest signed transition holds active found decoded
          rw [Ends] at after
          simp only []
          cases ran : (acceptOrdinary signed digest transition).run
              { chain with pending := chain.pending.erase digest } with
          | ok outcome state =>
            rw [ran] at after
            exact ih state after
          | error e state =>
            rw [ran] at after
            cases e <;> first | exact after | exact ih state after
    · rw [if_pos active]
      exact holds

/-- Where a step goes by its kind. -/
theorem dispatch_cases (signed : SignedStep) (digest : Digest) (succession : Option Succession) :
    (∃ transition, succession = some transition ∧ transition.kind = .recovery ∧
      dispatch signed digest succession = acceptRecovery signed digest transition) ∨
    ((∀ transition ∈ succession, transition.kind = .planned) ∧
      dispatch signed digest succession = acceptOrdinary signed digest succession) := by
  cases succession with
  | none => exact .inr ⟨by simp, rfl⟩
  | some transition =>
    cases kind : transition.kind with
    | planned =>
      refine .inr ⟨by simpa using kind, ?_⟩
      rw [dispatch, Option.filter_some, if_neg (by simp [kind])]
    | recovery =>
      refine .inl ⟨transition, rfl, kind, ?_⟩
      rw [dispatch, Option.filter_some, if_pos (by simp [kind])]

theorem dispatch_planned {succession : Option Succession}
    (planned : ∀ transition ∈ succession, transition.kind = .planned) :
    dispatch signed digest succession = acceptOrdinary signed digest succession := by
  rcases dispatch_cases signed digest succession with ⟨transition, rfl, kind, -⟩ | ⟨-, eq⟩
  · rw [planned transition rfl] at kind
    cases kind
  · exact eq

/-- What both kinds of step and draining keep, offering a step keeps. -/
theorem accept_ends (holds : P chain)
    (step : ∀ digest succession, signed.step.digest = .ok digest → signed.step.hive = chain.hive →
      chain.recoveryFork = false → transitionOf signed.step = .ok succession →
      Ends chain (dispatch signed digest succession) (fun _ => P) P)
    (drain : ∀ after, P after → Ends after drainPending (fun _ => P) P) :
    Ends chain (accept signed) (fun _ => P) P := by
  unfold accept
  refine .get (.ofExcept holds fun digest hashed => .reject holds fun sameHive =>
    .reject holds fun open' => .ofExcept holds fun succession decoded => ?_)
  refine .seq (step digest succession hashed (not_not.mp sameHive) (by simpa using open') decoded) ?_
  intro outcome after kept
  unfold settle follow
  by_cases accepted : outcome = .accepted
  · rw [if_pos accepted]
    refine .seq (drain after kept) ?_
    intro _ final settled
    exact settled
  · rw [if_neg accepted]
    exact kept

end Supgang.Threshold
