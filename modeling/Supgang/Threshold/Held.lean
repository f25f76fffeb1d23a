/-
# Threshold.Held — records that wait for their predecessor

Held records are untrusted memory: nothing but the drain reads them. A step whose predecessor is
known is judged without looking at them, so the chain can be compared with the same chain holding
other records.

* `Chain.holding` — the chain with other held records; `nextContext_holding`, `extended_holding`,
  `forked_holding` — nothing else notices; `acceptOrdinary_holding` — as one statement.
* `ready_eq_none` — when the drain takes nothing more.
* `drainLoop_idle`, `drainLoop_judge`, `drainLoop_take` — a drain with nothing ready, and one round of
  a drain.
-/
import Supgang.Threshold.RecoveryFork

namespace Supgang.Threshold

set_option autoImplicit false
set_option linter.unusedSectionVars false

open Theory

variable [Sha256] [Ed25519] [P256] [Frost]
variable {chain after : Chain} {signed : SignedStep} {digest : Digest} {held : Records}
  {succession : Option Succession} {context next : Context}

/-! ## The chain with other held records -/

/-- The chain with `held` in place of the records it holds. -/
def Chain.holding (chain : Chain) (held : Records) : Chain := { chain with pending := held }

@[simp] theorem Chain.holding_pending : (chain.holding held).pending = held := rfl

@[simp] theorem Chain.holding_holding (other : Records) :
    (chain.holding held).holding other = chain.holding other := rfl

theorem Chain.holding_self : chain.holding chain.pending = chain := rfl

theorem nextContext_holding :
    (chain.holding held).nextContext signed context succession =
      chain.nextContext signed context succession := rfl

theorem granted_holding (step : RootStep) :
    (chain.holding held).granted step = (chain.granted step).holding held := by
  simp only [Chain.granted, Chain.applyGrantTransition]
  cases step.operation with
  | grant => cases Grant.decode step.payload <;> rfl
  | revokeGrant => cases Revocation.decode step.payload <;> rfl
  | _ => rfl

theorem extended_holding (signed : SignedStep) (digest : Digest) (next : Context) :
    (chain.holding held).extended signed digest next =
      (chain.extended signed digest next).holding held := by
  let linked : Chain :=
    { chain with children := chain.children.insert signed.step.predecessor digest }
  have granted : (linked.holding held).granted signed.step =
      (linked.granted signed.step).holding held := granted_holding signed.step
  exact congrArg (Chain.advanced · signed digest next) granted

theorem forked_holding (existing : Digest) (signed : SignedStep) (digest : Digest)
    (next : Context) :
    (chain.holding held).forked existing signed digest next =
      (chain.forked existing signed digest next).holding held := by
  simp only [Chain.forked]
  change (if digest ∈ (chain.halt existing signed digest).records then _ else _) = _
  split <;> rfl

/-- The same result, holding other records. -/
def holdingResult (held : Records) :
    EStateM.Result Error Chain Outcome → EStateM.Result Error Chain Outcome
  | .ok outcome chain => .ok outcome (chain.holding held)
  | .error e chain => .error e (chain.holding held)

theorem eq_holdingResult {first second : EStateM.Result Error Chain Outcome}
    (paired : Paired (fun chain other => other = chain.holding held) first second) :
    second = holdingResult held first := by
  cases paired <;> subst_vars <;> rfl

theorem extension_holding (signed : SignedStep) (digest : Digest) (next : Context) :
    Paired (fun chain other => other = chain.holding held)
      (chain.extension signed digest next)
      ((chain.holding held).extension signed digest next) := by
  refine .ite (fun _ => .ok _ rfl) fun _ => ?_
  have children_eq : (chain.holding held).children = chain.children := rfl
  rw [children_eq]
  cases chain.children[signed.step.predecessor]?.filter (· ≠ digest) with
  | some existing => exact .ok _ (forked_holding existing signed digest next)
  | none =>
    refine .ite (fun _ => .error _ rfl) fun _ => .ite (fun _ => .error _ rfl) fun _ => ?_
    have grant_eq : (chain.holding held).validateGrantTransition signed.step =
      chain.validateGrantTransition signed.step := rfl
    rw [grant_eq]
    cases chain.validateGrantTransition signed.step with
    | error e => exact .error e rfl
    | ok => exact .ok _ (extended_holding signed digest next)

/-- **Held records are not read.** A step whose predecessor is known is judged as it would be if the
chain held other records. -/
theorem acceptOrdinary_holding (known : signed.step.predecessor ∈ chain.contexts)
    (digest : Digest) (succession : Option Succession) (held : Records) :
    (acceptOrdinary signed digest succession).run (chain.holding held) =
      holdingResult held ((acceptOrdinary signed digest succession).run chain) := by
  obtain ⟨context, found⟩ := exists_getElem? known
  have found' : (chain.holding held).contexts[signed.step.predecessor]? = some context := found
  rw [acceptOrdinary_run, acceptOrdinary_run, Chain.judgement, Chain.judgement, found, found']
  refine eq_holdingResult (.ite (fun _ => .error _ rfl) fun _ => .ite (fun _ => .error _ rfl)
    fun _ => .ite (fun _ => .error _ rfl) fun _ => ?_)
  simp only [nextContext_holding]
  cases chain.nextContext signed context succession with
  | error e => exact .error e rfl
  | ok next => exact extension_holding signed digest next

/-! ## Draining -/

theorem ready_eq_none : chain.ready = none ↔
    ∀ (digest : Digest) (signed : SignedStep), chain.pending[digest]? = some signed →
      signed.step.predecessor ∉ chain.contexts := by
  rw [Chain.ready, first_eq_none]
  simp

theorem drainLoop_idle (idle : chain.status ≠ .active ∨ chain.ready = none) (rounds : Nat) :
    (drainLoop rounds).run chain = .ok () chain := by
  cases rounds with
  | zero => rfl
  | succ rounds =>
    rw [drainLoop_run]
    by_cases active : chain.status = .active
    · rw [if_neg (not_not.mpr active), idle.resolve_left (not_not.mpr active)]
    · rw [if_pos active]

/-- What a drain does once it has judged a record: only a bound stops it. -/
def carryOn (rounds : Nat) :
    EStateM.Result Error Chain Outcome → EStateM.Result Error Chain Unit
  | .ok _ after => (drainLoop rounds).run after
  | .error .bound after => .error .bound after
  | .error _ after => (drainLoop rounds).run after

theorem drainLoop_judge (active : chain.status = .active)
    (ready : chain.ready = some (digest, signed)) (decoded : transitionOf signed.step = .ok
      succession)
    (rounds : Nat) :
    (drainLoop (rounds + 1)).run chain = carryOn rounds
      ((acceptOrdinary signed digest succession).run
        (chain.holding (chain.pending.erase digest))) := by
  rw [drainLoop_run, if_neg (not_not.mpr active), ready]
  simp only [decoded]
  rfl

theorem carryOn_error {e : Error} (unbound : e ≠ .bound) (rounds : Nat) (chain : Chain) :
    carryOn rounds (.error e chain) = (drainLoop rounds).run chain := by
  cases e with
  | bound => exact absurd rfl unbound
  | _ => rfl

/-- One round that takes a record which is not refused. -/
theorem drainLoop_take {outcome : Outcome} (active : chain.status = .active)
    (ready : chain.ready = some (digest, signed)) (decoded : transitionOf signed.step = .ok
      succession)
    (run : (acceptOrdinary signed digest succession).run
      (chain.holding (chain.pending.erase digest)) = .ok outcome after) (rounds : Nat) :
    (drainLoop (rounds + 1)).run chain = (drainLoop rounds).run after := by
  rw [drainLoop_judge active ready decoded, run]
  rfl

end Supgang.Threshold
