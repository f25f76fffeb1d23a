/-
# Threshold.Forgery — steps that no key authenticates change nothing

Steps whose signature does not verify are offered between those of a run. With a known predecessor
they are refused; with an unknown one they are held like any other step and dropped by the drain once
their predecessor is known. The chain is the same as without them, but for the records it holds.

* `Inert` — a held step that the drain will drop.
* `Hides` — two chains that differ only in inert held records; `drain_hides`, `offer_hides` — the
  same step offered to both; `offer_inserted` — an unauthenticated step offered to one.
* `unauthenticated_harmless` — whole runs.
-/
import Supgang.Threshold.Delivery

namespace Supgang.Threshold

set_option autoImplicit false
set_option linter.unusedSectionVars false

open Theory List
open EStateM (run_bind run_get)

/-- A step of a run, or one inserted into it. -/
inductive Event where
  | genuine (signed : SignedStep)
  | inserted (signed : SignedStep)

def Event.signed : Event → SignedStep
  | .genuine signed => signed
  | .inserted signed => signed

def Event.genuine? : Event → Option SignedStep
  | .genuine signed => some signed
  | .inserted _ => none

section Runs

variable [Sha256] [Ed25519] [P256] [Frost]
variable {seen : Set Bytes} {chain other after : Chain} {signed : SignedStep} {digest : Digest}
  {succession : Option Succession} {held : Records} {context : Context}
  {known : Std.ExtTreeMap Digest Context}

/-! ## Contexts are never replaced -/

theorem Transition.contexts (free : CollisionFree seen) (sound : Sound seen chain)
    (step : Transition seen chain after) (found : chain.contexts[digest]? = some context) :
    after.contexts[digest]? = some context := by
  have kept : ∀ {fresh : Digest} {next : Context}, fresh ∉ chain.contexts →
      (chain.contexts.insert fresh next)[digest]? = some context := by
    intro fresh next unknown
    rw [getElem?_insert_eq, if_neg ?_]
    · exact found
    · rintro rfl
      exact unknown (mem_of_getElem? found)
  cases step with
  | hold | drop | exhaust | rival => exact found
  | @fork signed digest' existing succession context' next presented admits fresh =>
    rcases Chain.forked_eq fresh with ⟨-, eq⟩ | ⟨-, eq⟩
    · rw [eq]
      exact kept (sound.fresh free presented fresh)
    · rw [eq]
      exact found
  | @extend signed digest' succession context' next presented admits fresh =>
    obtain ⟨_, _, _, eq⟩ := chain.extended_eq signed digest' next
    rw [eq]
    exact kept (sound.fresh free presented fresh)
  | recover presented kind unforked unproved newer =>
    exact kept (sound.fresh free presented (sound.unrecorded_of_newer free presented newer))

theorem Ran.contexts (free : CollisionFree seen) (sound : Sound seen chain)
    (ran : Ran seen chain after) (found : chain.contexts[digest]? = some context) :
    after.contexts[digest]? = some context := by
  induction ran with
  | refl => exact found
  | tail earlier step ih => exact step.contexts free (sound.ran free earlier) ih

/-! ## Inert records -/

/-- No group that its predecessor may turn out to have authenticates the step. -/
def Inert (known : Std.ExtTreeMap Digest Context) (signed : SignedStep) : Prop :=
  ∀ context, known[signed.step.predecessor]? = some context →
    signed.verify context.group.publicKey ≠ .ok () ∧ checkedAdd context.sequence 1 ≠ none

/-- Of a step that can be encoded, verification says nothing but that it failed. -/
theorem verify_error {key : VerifyingKey} (hashed : signed.step.digest = .ok digest)
    (fails : signed.verify key ≠ .ok ()) : signed.verify key = .error .proof := by
  obtain ⟨bytes, encoded, -⟩ := digest_eq_ok.mp hashed
  have message : signed.step.message = .ok (stepDomain ++ bytes) := by
    rw [RootStep.message, encoded]
    rfl
  revert fails
  rw [SignedStep.verify, message]
  by_cases formed : ¬Ed25519.wellFormed key
  · rw [reject_bind, if_pos formed]
    exact fun _ => rfl
  rw [reject_bind, if_neg formed]
  by_cases weak : Ed25519.isWeak key
  · rw [reject_bind, if_pos weak]
    exact fun _ => rfl
  rw [reject_bind, if_neg weak, ok_bind]
  by_cases verified : ¬Ed25519.verifyStrict key (stepDomain ++ bytes) signed.signature
  · intro _
    rw [reject, if_pos verified]
    rfl
  · intro fails
    exact absurd (reject_eq_ok.mpr verified) fails

theorem nextContext_inert (chain : Chain) (hashed : signed.step.digest = .ok digest)
    (fails : signed.verify context.group.publicKey ≠ .ok ()) (succession : Option Succession) :
    ∃ e, chain.nextContext signed context succession = .error e ∧
      (checkedAdd context.sequence 1 ≠ none → e ≠ .bound) := by
  have proof := verify_error hashed fails
  unfold Chain.nextContext
  simp only []
  by_cases order : context.recoveryGen ≠ chain.current.recoveryGen ∨ signed.step.epoch ≠ context.epoch
  · rw [reject_bind, if_pos order]
    exact ⟨.authority, rfl, fun _ => by decide⟩
  rw [reject_bind, if_neg order]
  cases next : checkedAdd context.sequence 1 with
  | none => exact ⟨.bound, rfl, fun some => absurd rfl some⟩
  | some sequence =>
    rw [okOr_some, ok_bind]
    by_cases place : signed.step.sequence ≠ sequence
    · rw [reject_bind, if_pos place]
      exact ⟨.authority, rfl, fun _ => by decide⟩
    · rw [reject_bind, if_neg place, proof]
      exact ⟨.proof, rfl, fun _ => by decide⟩

/-- With a known predecessor, a step that does not verify is refused. -/
theorem acceptOrdinary_unverified (hashed : signed.step.digest = .ok digest)
    (found : chain.contexts[signed.step.predecessor]? = some context)
    (fails : signed.verify context.group.publicKey ≠ .ok ()) (succession : Option Succession) :
    ∃ e, (acceptOrdinary signed digest succession).run chain = .error e chain ∧
      (checkedAdd context.sequence 1 ≠ none → e ≠ .bound) := by
  obtain ⟨e, refused, unbound⟩ := nextContext_inert chain hashed fails succession
  refine (Yields.result (P := fun result => ∃ e : Error, result = .error e chain ∧
    (checkedAdd context.sequence 1 ≠ none → e ≠ .bound))).mp
    (.get (.reject (fun _ => ⟨_, rfl, fun _ => nofun⟩) fun _ =>
      .reject (fun _ => ⟨_, rfl, fun _ => nofun⟩) fun _ =>
      .reject (fun _ => ⟨_, rfl, fun _ => nofun⟩) fun _ => ?_))
  simp only [found, refused]
  exact ⟨e, rfl, unbound⟩

/-! ## Chains that differ in inert records -/

/-- The second chain is the first, holding inert records besides its own. -/
structure Hides (known : Std.ExtTreeMap Digest Context) (chain other : Chain) : Prop where
  same : other = chain.holding other.pending
  kept : ∀ (digest : Digest) (signed : SignedStep), chain.pending[digest]? = some signed →
    other.pending[digest]? = some signed
  extra : ∀ (digest : Digest) (signed : SignedStep), other.pending[digest]? = some signed →
    signed.step.digest = .ok digest ∧
      (chain.pending[digest]? = some signed ∨ Inert known signed)

/-- The same answer, and chains that differ in inert records. -/
inductive Alike {α : Type} (known : Std.ExtTreeMap Digest Context) :
    EStateM.Result Error Chain α → EStateM.Result Error Chain α → Prop where
  | ok {chain other : Chain} (a : α) (hides : Hides known chain other) :
      Alike known (.ok a chain) (.ok a other)
  | error {chain other : Chain} (e : Error) (hides : Hides known chain other) :
      Alike known (.error e chain) (.error e other)

theorem Alike.of_paired {α : Type} {first second : EStateM.Result Error Chain α}
    (paired : Paired (Hides known) first second) : Alike known first second := by
  cases paired with
  | ok a hides => exact .ok a hides
  | error e hides => exact .error e hides

theorem Hides.holding {records : Records}
    (kept : ∀ (digest : Digest) (signed : SignedStep), chain.pending[digest]? = some signed →
      records[digest]? = some signed)
    (extra : ∀ (digest : Digest) (signed : SignedStep), records[digest]? = some signed →
      signed.step.digest = .ok digest ∧ (chain.pending[digest]? = some signed ∨
      Inert known signed)) :
    Hides known chain (chain.holding records) := ⟨rfl, kept, extra⟩

/-- Taking the same record from both. -/
theorem Hides.erase (hides : Hides known chain other) (digest : Digest) (core : Chain) :
    Hides known (core.holding (chain.pending.erase digest))
      (core.holding (other.pending.erase digest)) := by
  refine ⟨rfl, fun key signed => ?_, fun key signed => ?_⟩ <;>
    simp only [Chain.holding_pending, getElem?_erase_eq] <;> split
  · exact fun found => nomatch found
  · exact hides.kept key signed
  · exact fun found => nomatch found
  · exact hides.extra key signed

/-- Taking an inert record that only the second chain holds. -/
theorem Hides.drop (hides : Hides known chain other) (alone : chain.pending[digest]? = none) :
    Hides known chain (chain.holding (other.pending.erase digest)) := by
  refine .holding (fun key signed found => ?_) (fun key signed => ?_)
  · rw [getElem?_erase_eq, if_neg ?_]
    · exact hides.kept key signed found
    · rintro rfl
      rw [alone] at found
      cases found
  · rw [getElem?_erase_eq]
    split
    · exact fun found => nomatch found
    · exact hides.extra key signed

/-- The state a run ends in. -/
def finalChain {α : Type} : EStateM.Result Error Chain α → Chain
  | .ok _ chain => chain
  | .error _ chain => chain

theorem final_of_ends {α : Type} {x : ChainM α} {P : Chain → Prop}
    (ends : Ends chain x (fun _ => P) P) :
    P (finalChain (x.run chain)) := by
  rw [Ends] at ends
  cases run : x.run chain with
  | ok a after =>
    rw [run] at ends
    exact ends
  | error e after =>
    rw [run] at ends
    exact ends

/-! ## Draining both -/

theorem Hides.size_le (hides : Hides known chain other) :
    chain.pending.size ≤ other.pending.size := by
  have keys : chain.pending.keys ⊆ other.pending.keys := by
    intro digest there
    obtain ⟨signed, found⟩ := exists_getElem? (Std.ExtTreeMap.mem_keys.mp there)
    exact Std.ExtTreeMap.mem_keys.mpr (mem_of_getElem? (hides.kept digest signed found))
  have short := (Std.ExtTreeMap.nodup_keys (t := chain.pending)).subperm keys |>.length_le
  simpa [Std.ExtTreeMap.length_keys] using short

theorem ancestryFrom_holding (chain : Chain) (held : Records) (fuel : Nat) (digest : Digest) :
    (chain.holding held).ancestryFrom fuel digest = chain.ancestryFrom fuel digest := by
  induction fuel generalizing digest with
  | zero => rfl
  | succ fuel ih =>
    simp only [Chain.ancestryFrom, ih]
    rfl

/-- An accepted recovery drops what was held. -/
theorem recovered_holding (chain : Chain) (held : Records) (signed : SignedStep) (digest : Digest)
    (transition : Succession) (next : Context) :
    (chain.holding held).recovered signed digest transition next =
      chain.recovered signed digest transition next := by
  rw [Chain.recovered, Chain.recovered, Chain.ancestry, Chain.ancestry, ancestryFrom_holding]
  rfl

/-- A step whose predecessor is known leaves the held records as they are. -/
theorem acceptOrdinary_pending (standing : signed.step.predecessor ∈ chain.contexts)
    (digest : Digest) (succession : Option Succession) :
    (finalChain ((acceptOrdinary signed digest succession).run chain)).pending = chain.pending := by
  have kept := acceptOrdinary_holding standing digest succession chain.pending
  rw [chain.holding_self] at kept
  rw [kept]
  cases (acceptOrdinary signed digest succession).run chain <;> rfl

theorem Alike.final {α : Type} {first second : EStateM.Result Error Chain α}
    (alike : Alike known first second) : Hides known (finalChain first) (finalChain second) := by
  cases alike with
  | ok a hides => exact hides
  | error e hides => exact hides

/-- A step refused by the first checks of an offer, which look at the hive and the recovery fork
only. -/
theorem accept_fate (hive : HiveId) (fork : Bool) (signed : SignedStep) :
    (∃ e, ∀ chain : Chain, chain.hive = hive → chain.recoveryFork = fork →
      (accept signed).run chain = .error e chain) ∨
    (fork = false ∧ ∃ digest succession, signed.step.digest = .ok digest ∧
      signed.step.hive = hive ∧ transitionOf signed.step = .ok succession) := by
  have begin : ∀ chain : Chain, (accept signed).run chain = EStateM.run (do
      let digest ← ofExcept signed.step.digest
      reject (signed.step.hive ≠ chain.hive) Error.authority
      reject chain.recoveryFork Error.halted
      let succession ← ofExcept (transitionOf signed.step)
      let outcome ← dispatch signed digest succession
      settle outcome) chain := fun _ => rfl
  cases hashed : signed.step.digest with
  | error e =>
    refine .inl ⟨e, fun chain _ _ => ?_⟩
    rw [begin, hashed]
    rfl
  | ok digest =>
    by_cases sameHive : signed.step.hive = hive
    swap
    · refine .inl ⟨.authority, fun chain same _ => ?_⟩
      rw [begin, hashed, run_bind, run_ofExcept_ok, same]
      simp only []
      rw [run_reject_bind_of sameHive]
    cases fork with
    | true =>
      refine .inl ⟨.halted, fun chain same forked => ?_⟩
      rw [begin, hashed, run_bind, run_ofExcept_ok, same, forked]
      simp only []
      rw [run_reject_bind_of_not (not_not.mpr sameHive), run_reject_bind_of trivial]
    | false =>
      cases decoded : transitionOf signed.step with
      | ok succession => exact .inr ⟨rfl, digest, succession, rfl, sameHive, rfl⟩
      | error e =>
        refine .inl ⟨e, fun chain same unforked => ?_⟩
        rw [begin, hashed, run_bind, run_ofExcept_ok, same, unforked]
        simp only []
        rw [run_reject_bind_of_not (not_not.mpr sameHive), run_reject_bind_of_not (by simp),
          decoded]
        rfl

/-- The recovery descriptor a recovery of this generation is judged under. -/
def Chain.authorityFor (chain : Chain) (generation : UInt64) : RecoveryDescriptor :=
  match chain.recoveryProofs[generation]? with
  | some (_, authority) => authority
  | none => chain.recovery

/-- No key authenticates the step: not that of its predecessor's group or, where it is a recovery,
not that of the recovery authority that judges it. -/
structure Unauthenticated (known : Std.ExtTreeMap Digest Context) (chain : Chain)
    (signed : SignedStep) : Prop where
  ordinary : IsOrdinary signed → ∀ context, known[signed.step.predecessor]? = some context →
    signed.verify context.group.publicKey ≠ .ok ()
  recovery : ¬IsOrdinary signed →
    signed.verify (chain.authorityFor signed.step.recoveryGen).group.publicKey ≠ .ok ()

/-- The step repeats the content of no step that the chain holds under another signature, and stands
on no context whose sequence is the last one (`last_number_shelters_fork`). -/
structure Unobtrusive (known : Std.ExtTreeMap Digest Context) (chain : Chain)
    (signed : SignedStep) : Prop where
  undisplaced : ∀ (digest : Digest) (held : SignedStep), signed.step.digest = .ok digest →
    chain.pending[digest]? = some held → held = signed
  numbered : ∀ context, known[signed.step.predecessor]? = some context →
    checkedAdd context.sequence 1 ≠ none

/-- An unauthenticated recovery is refused. -/
theorem acceptRecovery_unverified
    (fails : signed.verify (chain.authorityFor signed.step.recoveryGen).group.publicKey ≠ .ok ())
    (digest : Digest) (transition : Succession) :
    ∃ e, (acceptRecovery signed digest transition).run chain = .error e chain := by
  rw [Chain.authorityFor] at fails
  refine (Yields.result (P := fun result => ∃ e, result = .error e chain)).mp (.get ?_)
  cases proved : chain.recoveryProofs[signed.step.recoveryGen]? with
  | some proof =>
    simp only [proved] at fails
    exact .get (.ofExcept (fun e _ => ⟨e, rfl⟩) fun _ verified => absurd verified fails)
  | none =>
    simp only [proved] at fails
    exact .get (.reject (fun _ => ⟨_, rfl⟩) fun _ =>
      .ofExcept (fun e _ => ⟨e, rfl⟩) fun _ verified => absurd verified fails)

section Hidden

variable (hides : Hides known chain (chain.holding held))

include hides

theorem Hides.ready_none (idle : (chain.holding held).ready = none) : chain.ready = none := by
  refine ready_eq_none.mpr fun digest signed found => ?_
  exact ready_eq_none.mp idle digest signed (hides.kept digest signed found)

theorem Hides.idle {more rounds : Nat}
    (idle : chain.status ≠ .active ∨ (chain.holding held).ready = none) :
    Alike known ((drainLoop rounds).run chain) ((drainLoop more).run (chain.holding held)) := by
  rw [drainLoop_idle (idle.imp id hides.ready_none), drainLoop_idle idle]
  exact .ok () hides

omit hides in
/-- **Draining both.** The same records are taken, and the inert ones are dropped in between. -/
theorem drain_hides (free : CollisionFree seen) :
    ∀ (more rounds : Nat) (chain : Chain) (held : Records), Sound seen chain →
      Hides known chain (chain.holding held) → held.size ≤ more → chain.pending.size ≤ rounds →
      (∀ (digest : Digest) (context : Context),
        (finalChain ((drainLoop rounds).run chain)).contexts[digest]? = some context →
          known[digest]? = some context) →
      Alike known ((drainLoop rounds).run chain) ((drainLoop more).run (chain.holding held)) := by
  intro more
  -- On the records of the second chain: each of its rounds takes one of them.
  induction more with
  | zero =>
    intro rounds chain held sound hides enough _ _
    refine hides.idle (.inr (ready_eq_none.mpr fun digest signed found => ?_))
    have positive := size_erase_lt found
    simp only [Chain.holding_pending] at positive
    omega
  | succ more ih =>
    intro rounds chain held sound hides enough enough' ends
    by_cases active : chain.status = .active
    swap
    · exact hides.idle (.inl active)
    cases ready : (chain.holding held).ready with
    | none => exact hides.idle (.inr ready)
    | some taken =>
      obtain ⟨digest, signed⟩ := taken
      obtain ⟨found, standing, -⟩ := first_spec ready
      have standing : signed.step.predecessor ∈ chain.contexts := of_decide_eq_true standing
      have smaller : (held.erase digest).size < held.size := size_erase_lt found
      have active' : (chain.holding held).status = .active := active
      obtain ⟨hashed, whose⟩ := hides.extra digest signed found
      cases own : chain.pending[digest]? with
      | some mine =>
        -- Both take it, and both judge it alike.
        have same := hides.kept digest mine own
        rw [found] at same
        cases same
        have taken : chain.ready = some (digest, signed) := first_of_extends hides.kept ready own
        have smaller' : (chain.pending.erase digest).size < chain.pending.size :=
          size_erase_lt own
        obtain ⟨fewer, rfl⟩ : ∃ fewer, rounds = fewer + 1 := ⟨rounds - 1, by omega⟩
        obtain ⟨succession, presented⟩ := sound.keyed digest signed own
        have dropped : Sound seen (chain.holding (chain.pending.erase digest)) :=
          sound.drop digest
        have left := acceptOrdinary_leaves dropped.keyed presented
        have run := acceptOrdinary_holding standing digest succession
          (chain.pending.erase digest)
        have run' := acceptOrdinary_holding standing digest succession (held.erase digest)
        rw [drainLoop_judge active taken presented.decoded, run] at ends ⊢
        rw [drainLoop_judge active' ready presented.decoded]
        simp only [Chain.holding_pending, Chain.holding_holding]
        rw [run']
        have onward : ∀ core : Chain, Ran seen (chain.holding (chain.pending.erase digest))
            (core.holding (chain.pending.erase digest)) →
            (∀ (other : Digest) (context : Context), (finalChain ((drainLoop fewer).run
              (core.holding (chain.pending.erase digest)))).contexts[other]? = some context →
                known[other]? = some context) →
            Alike known ((drainLoop fewer).run (core.holding (chain.pending.erase digest)))
              ((drainLoop more).run (core.holding (held.erase digest))) := by
          intro core ran ends
          exact ih fewer (core.holding (chain.pending.erase digest)) (held.erase digest)
            (dropped.ran free ran) (hides.erase digest core) (by omega)
            (by simp only [Chain.holding_pending]; omega) ends
        cases judged : (acceptOrdinary signed digest succession).run chain with
        | ok outcome core =>
          rw [judged] at ends run
          exact onward core (left.ok run).1 ends
        | error e core =>
          rw [judged] at ends run
          simp only [holdingResult] at ends ⊢
          by_cases bound : e = .bound
          · subst bound
            exact .error .bound (hides.erase digest core)
          · rw [carryOn_error bound] at ends ⊢
            rw [carryOn_error bound]
            exact onward core (left.error run).1 ends
      | none =>
        -- Only the second chain holds it, and drops it.
        rw [own] at whose
        have inert := whose.resolve_left fun found => nomatch found
        obtain ⟨context, here⟩ := exists_getElem? standing
        have ran := (final_of_ends (drainLoop_leaves ⟨.refl, sound.keyed⟩ rounds)).1
        obtain ⟨fails, unbounded⟩ := inert context (ends _ _ (ran.contexts free sound here))
        have next := ih rounds chain (held.erase digest) sound (hides.drop own) (by omega) enough'
          ends
        cases decoded : transitionOf signed.step with
        | error e =>
          rw [drainLoop_run more, if_neg (not_not.mpr active'), ready]
          simp only [decoded]
          exact next
        | ok succession =>
          have here' : (chain.holding (held.erase digest)).contexts[
            signed.step.predecessor]? = some context := here
          obtain ⟨e, refused, unbound⟩ :=
            acceptOrdinary_unverified hashed here' fails succession
          rw [drainLoop_judge active' ready decoded]
          simp only [Chain.holding_pending, Chain.holding_holding]
          rw [refused, carryOn_error (unbound unbounded)]
          exact next

/-! ## Offering to both -/

/-- Both chains with the same change. -/
theorem Hides.change {core : Chain} (pending : core.pending = chain.pending) :
    Hides known core (core.holding held) := by
  refine .holding ?_ ?_
  · rw [pending]
    exact hides.kept
  · rw [pending]
    exact hides.extra

theorem acceptRival_alike (signed : SignedStep) (digest : Digest) (transition : Succession)
    (previous : SignedStep) (authority : RecoveryDescriptor) :
    Paired (Hides known) ((acceptRival signed digest transition previous authority).run chain)
      ((acceptRival signed digest transition previous authority).run (chain.holding held)) := by
  refine .ofExcept hides fun _ _ => .ofExcept hides fun _ _ => .ofExcept hides fun known _ => ?_
  simp only [run_ite]
  exact .ite (fun _ => .ok _ hides) fun _ => .ok _ (hides.change rfl)

theorem acceptFirst_alike (signed : SignedStep) (digest : Digest) (transition : Succession) :
    Paired (Hides known) ((acceptFirst signed digest transition).run chain)
      ((acceptFirst signed digest transition).run (chain.holding held)) := by
  refine .reject hides fun _ => .ofExcept hides fun _ _ => .ofExcept hides fun _ _ => ?_
  simp only [run_ite]
  refine .ite (fun _ => .error _ (hides.change rfl)) fun _ => .ofExcept hides fun epoch _ => ?_
  simp only [run_bind, EStateM.run_set, recovered_holding]
  refine .ok Outcome.accepted ⟨rfl, fun _ _ => id, fun other waits found => ?_⟩
  simp [Chain.recovered] at found

theorem acceptRecovery_alike (signed : SignedStep) (digest : Digest) (transition : Succession) :
    Paired (Hides known) ((acceptRecovery signed digest transition).run chain)
      ((acceptRecovery signed digest transition).run (chain.holding held)) := by
  change Paired _ (EStateM.run (match chain.recoveryProofs[signed.step.recoveryGen]? with
    | some (_, _) => _ | none => _) chain) (EStateM.run (match
      chain.recoveryProofs[signed.step.recoveryGen]? with | some (_, _) => _ | none => _) _)
  cases chain.recoveryProofs[signed.step.recoveryGen]? with
  | none => exact acceptFirst_alike hides signed digest transition
  | some proof => exact acceptRival_alike hides signed digest transition proof.1 proof.2

/-- The same ordinary step. -/
theorem acceptOrdinary_alike (hashed : signed.step.digest = .ok digest)
    (room : held.size < maxRecords) (succession : Option Succession) :
    Paired (Hides known) ((acceptOrdinary signed digest succession).run chain)
      ((acceptOrdinary signed digest succession).run (chain.holding held)) := by
  by_cases standing : signed.step.predecessor ∈ chain.contexts
  · have kept := acceptOrdinary_pending standing digest succession
    rw [acceptOrdinary_holding standing digest succession held]
    cases judged : (acceptOrdinary signed digest succession).run chain with
    | ok outcome core =>
      rw [judged] at kept
      exact .ok outcome (hides.change kept)
    | error e core =>
      rw [judged] at kept
      exact .error e (hides.change kept)
  · have missing : chain.contexts[signed.step.predecessor]? = none :=
      Std.ExtTreeMap.getElem?_eq_none standing
    have missing' : (chain.holding held).contexts[signed.step.predecessor]? = none := missing
    have room' : ¬maxRecords ≤ chain.pending.size := not_le.mpr (hides.size_le.trans_lt room)
    have roomToo : ¬maxRecords ≤ (chain.holding held).pending.size := not_le.mpr room
    rw [acceptOrdinary_run, acceptOrdinary_run, Chain.judgement, Chain.judgement, missing, missing']
    simp only [if_neg room', if_neg roomToo]
    refine .ite (fun _ => .error _ hides) fun _ => .ite (fun _ => .error _ hides) fun _ =>
      .ite (fun _ => .error _ hides) fun _ => .ok Outcome.held ⟨rfl, fun other waits => ?_,
        fun other waits => ?_⟩
    · change (chain.pending.insert digest signed)[other]? = some waits →
        (held.insert digest signed)[other]? = some waits
      rw [getElem?_insert_eq, getElem?_insert_eq]
      split
      · exact id
      · exact hides.kept other waits
    · change (held.insert digest signed)[other]? = some waits → _ ∧
        ((chain.pending.insert digest signed)[other]? = some waits ∨ _)
      rw [getElem?_insert_eq, getElem?_insert_eq]
      split
      · rename_i same
        intro found
        cases found
        exact ⟨same ▸ hashed, .inl rfl⟩
      · exact hides.extra other waits

theorem dispatch_alike (hashed : signed.step.digest = .ok digest) (room : held.size < maxRecords)
    (succession : Option Succession) : Alike known ((dispatch signed digest succession).run chain)
      ((dispatch signed digest succession).run (chain.holding held)) := by
  rcases dispatch_cases signed digest succession with ⟨transition, rfl, -, eq⟩ | ⟨-, eq⟩
  · rw [eq]
    exact .of_paired (acceptRecovery_alike hides signed digest transition)
  · rw [eq]
    exact .of_paired (acceptOrdinary_alike hides hashed room succession)

theorem settle_alike (free : CollisionFree seen) (sound : Sound seen chain)
    (small : held.size ≤ maxRecords) (outcome : Outcome)
    (ends : ∀ (digest : Digest) (context : Context), (finalChain ((settle outcome).run
      chain)).contexts[digest]? = some context → known[digest]? = some context) :
    Alike known ((settle outcome).run chain) ((settle outcome).run (chain.holding held)) := by
  by_cases accepted : outcome = .accepted
  · subst accepted
    have settled : ∀ chain : Chain, (settle .accepted).run chain =
        match drainPending.run chain with
        | .ok _ after => .ok (if after.status = .halted then .fork else .accepted) after
        | .error e after => .error e after := by
      intro chain
      rw [settle, follow, if_pos rfl, run_bind]
      cases drainPending.run chain <;> rfl
    have drained := drain_hides free maxRecords maxRecords chain held sound hides small sound.bounded
      (by
        intro digest context found
        refine ends digest context ?_
        rw [settled]
        change (finalChain (drainPending.run chain)).contexts[digest]? = some context at found
        cases run : drainPending.run chain <;> rw [run] at found <;> exact found)
    rw [settled, settled]
    change Alike known (drainPending.run chain) (drainPending.run (chain.holding held)) at drained
    generalize drainPending.run chain = one at drained
    generalize drainPending.run (chain.holding held) = two at drained
    cases drained with
    | error e hides => exact .error e hides
    | @ok after other u hides =>
      have status : other.status = after.status := by rw [hides.same]; rfl
      simp only [status]
      exact .ok _ hides
  · rw [settle_of_ne accepted, settle_of_ne accepted]
    exact .ok _ hides

/-- **The same step offered to both.** -/
theorem offer_hides (free : CollisionFree seen) (sound : Sound seen chain)
    (sound' : Sound seen (chain.holding held)) (within : Within seen signed)
    (room : held.size < maxRecords)
    (ends : ∀ (digest : Digest) (context : Context), (chain.offer signed).contexts[digest]? = some
      context → known[digest]? = some context) :
    Hides known (chain.offer signed) ((chain.holding held).offer signed) := by
  rcases accept_fate chain.hive chain.recoveryFork signed with ⟨e, refused⟩ |
    ⟨unforked, digest, succession, hashed, sameHive, decoded⟩
  · rw [(answer_offer_error (refused chain rfl rfl)).2,
      (answer_offer_error (refused (chain.holding held) rfl rfl)).2]
    exact hides
  have run := accept_run hashed sameHive unforked decoded
  have run' : (accept signed).run (chain.holding held) =
      (dispatch signed digest succession >>= settle).run (chain.holding held) :=
    accept_run hashed sameHive unforked decoded
  have offered : ∀ chain : Chain, chain.offer signed = finalChain ((accept signed).run chain) := by
    intro chain
    rw [Chain.offer]
    cases (accept signed).run chain <;> rfl
  have presented : Presented seen chain.hive signed digest succession :=
    ⟨hashed, sameHive, decoded, within⟩
  have left := dispatch_leaves sound.keyed unforked presented
  have left' : Ends (chain.holding held) (dispatch signed digest succession) _ _ :=
    dispatch_leaves sound'.keyed unforked presented
  rw [offered, run] at ends
  rw [offered, offered, run, run']
  rw [run_bind] at ends ⊢
  rw [run_bind]
  have alike := dispatch_alike hides hashed room succession
  generalize first : (dispatch signed digest succession).run chain = one at alike ends
  generalize second : (dispatch signed digest succession).run (chain.holding held) = two at alike
  cases alike with
  | error e hides => exact hides
  | @ok after other outcome hides =>
    have same := hides.same
    rw [same] at hides second ⊢
    have sound := sound.ran free (left.ok first).1
    have sound' := sound'.ran free (left'.ok second).1
    exact (settle_alike hides free sound sound'.bounded outcome ends).final

/-! ## Offering an unauthenticated step to one -/

/-- **An unauthenticated step offered to the second chain only.** -/
theorem offer_inserted
    (covered : ∀ (digest : Digest) (context : Context), chain.contexts[digest]? = some context →
      known[digest]? = some context)
    (unauthenticated : Unauthenticated known (chain.holding held) signed)
    (unobtrusive : signed.step.predecessor ∉ chain.contexts → Unobtrusive known chain signed) :
    Hides known chain ((chain.holding held).offer signed) := by
  rcases accept_fate chain.hive chain.recoveryFork signed with ⟨e, refused⟩ |
    ⟨unforked, digest, succession, hashed, sameHive, decoded⟩
  · rw [(answer_offer_error (refused (chain.holding held) rfl rfl)).2]
    exact hides
  have run : (accept signed).run (chain.holding held) =
      (dispatch signed digest succession >>= settle).run (chain.holding held) :=
    accept_run hashed sameHive unforked decoded
  rw [run_bind] at run
  have refuses : (∃ e, (dispatch signed digest succession).run (chain.holding held) =
      .error e (chain.holding held)) → Hides known chain ((chain.holding held).offer signed) := by
    rintro ⟨e, refused⟩
    rw [refused] at run
    rw [(answer_offer_error run).2]
    exact hides
  rcases dispatch_cases signed digest succession with ⟨transition, rfl, kind, eq⟩ | ⟨planned, eq⟩
  · refine refuses ?_
    rw [eq]
    refine acceptRecovery_unverified (unauthenticated.recovery fun ordinary => ?_) digest transition
    have other := ordinary transition decoded
    rw [kind] at other
    cases other
  have ordinary : IsOrdinary signed := by
    intro transition carried
    rw [decoded] at carried
    cases carried
    exact planned transition rfl
  cases found : chain.contexts[signed.step.predecessor]? with
  | some context =>
    refine refuses ?_
    rw [eq]
    obtain ⟨e, refused, -⟩ := acceptOrdinary_unverified hashed
      (show (chain.holding held).contexts[signed.step.predecessor]? = some context from found)
      (unauthenticated.ordinary ordinary context (covered _ _ found)) succession
    exact ⟨e, refused⟩
  | none =>
    rw [eq] at run refuses
    have unobtrusive := unobtrusive fun standing => by
      obtain ⟨context, here⟩ := exists_getElem? standing
      cases found.symm.trans here
    have cases' := acceptOrdinary_cases (chain.holding held) signed digest succession
    have unknown : ∀ context next, ¬(chain.holding held).Admits signed succession context next := by
      intro context next admits
      have standing : chain.contexts[signed.step.predecessor]? = some context := admits.known
      rw [found] at standing
      cases standing
    generalize (acceptOrdinary signed digest succession).run (chain.holding held) = result
      at cases' run refuses
    cases cases' with
    | refused e => exact refuses ⟨e, rfl⟩
    | duplicate admits => exact absurd admits (unknown _ _)
    | fork admits => exact absurd admits (unknown _ _)
    | exhausted admits => exact absurd admits (unknown _ _)
    | extended admits => exact absurd admits (unknown _ _)
    | held =>
      rw [(answer_offer (run.trans (settle_of_ne (by decide) _))).2]
      refine .holding (fun key waits there => ?_) (fun key waits => ?_)
      · rw [Chain.holding_pending, getElem?_insert_eq]
        split
        · rename_i same
          subst same
          rw [unobtrusive.undisplaced digest waits hashed there]
        · exact hides.kept key waits there
      · rw [Chain.holding_pending, getElem?_insert_eq]
        split
        · rename_i same
          intro there
          cases there
          exact ⟨same ▸ hashed, .inr fun context standing =>
            ⟨unauthenticated.ordinary ordinary context standing,
              unobtrusive.numbered context standing⟩⟩
        · exact hides.extra key waits

end Hidden

/-! ## Whole runs -/

/-- **Unauthenticated steps cannot interfere.** Take any run of offers on a reachable chain, with
unauthenticated steps inserted anywhere. Where none of these that is held repeats the content of a
step that the run without them then holds under another signature or stands on one of the last
sequence, and the records held stay below their bound, the final chain is that of the run without
them in everything but the records held. -/
theorem unauthenticated_harmless (free : CollisionFree seen) {group : GroupDescriptor}
    {recovery : RecoveryDescriptor} {offered : List SignedStep} {base : Chain}
    (reached : Reached seen group recovery offered base) (events : List Event)
    (within : ∀ event ∈ events, Within seen event.signed)
    (inserted : ∀ before signed behind, events = before ++ .inserted signed :: behind →
      Unauthenticated (base.offers (events.filterMap Event.genuine?)).contexts
        (base.offers (before.map Event.signed)) signed ∧
      (signed.step.predecessor ∉ (base.offers (before.filterMap Event.genuine?)).contexts →
        Unobtrusive (base.offers (events.filterMap Event.genuine?)).contexts
          (base.offers (before.filterMap Event.genuine?)) signed))
    (room : ∀ before behind, events = before ++ behind →
      (base.offers (before.map Event.signed)).pending.size < maxRecords) :
    ∃ held, base.offers (events.map Event.signed) =
      (base.offers (events.filterMap Event.genuine?)).holding held := by
  have sound := reached.sound free
  have withinAll : ∀ done behind, events = done ++ behind →
      ∀ signed ∈ done.map Event.signed, Within seen signed := by
    intro done behind split signed there
    obtain ⟨event, inside, rfl⟩ := mem_map.mp there
    exact within event (by rw [split]; exact mem_append_left _ inside)
  have withinGenuine : ∀ done : List Event, (∀ event ∈ done, event ∈ events) →
      ∀ signed ∈ done.filterMap Event.genuine?, Within seen signed := by
    intro done inside signed there
    obtain ⟨event, present, found⟩ := mem_filterMap.mp there
    cases event with
    | genuine other =>
      cases found
      exact within _ (inside _ present)
    | inserted other => cases found
  -- What the genuine part of a beginning of the run knows is known at its end.
  have covered : ∀ done behind, events = done ++ behind →
      ∀ (digest : Digest) (context : Context),
        (base.offers (done.filterMap Event.genuine?)).contexts[digest]? = some context →
        (base.offers (events.filterMap Event.genuine?)).contexts[digest]? = some context := by
    intro done behind split digest context found
    have first := offers_leaves sound.keyed
      (withinGenuine done fun event there => by rw [split]; exact mem_append_left _ there)
    have second := offers_leaves first.2
      (withinGenuine behind fun event there => by rw [split]; exact mem_append_right _ there)
    rw [split, filterMap_append, base.offers_append]
    exact second.1.contexts free (sound.ran free first.1) found
  have simulation : ∀ done behind, events = done ++ behind →
      Hides (base.offers (events.filterMap Event.genuine?)).contexts
        (base.offers (done.filterMap Event.genuine?)) (base.offers (done.map Event.signed)) := by
    intro done
    induction done using List.reverseRecOn with
    | nil =>
      intro behind split
      refine ⟨rfl, fun _ _ => id, fun digest signed found => ⟨?_, .inl found⟩⟩
      obtain ⟨_, presented⟩ := sound.keyed digest signed found
      exact presented.hashed
    | append_singleton done event ih =>
      intro behind split
      have split' : events = done ++ event :: behind := by rw [split]; simp
      have hides := ih (event :: behind) split'
      have small := room done (event :: behind) split'
      have soundAll := sound.ran free
        (offers_leaves sound.keyed (withinAll done (event :: behind) split')).1
      have soundGenuine := sound.ran free (offers_leaves sound.keyed
        (withinGenuine done fun event there => by
          rw [split']; exact mem_append_left _ there)).1
      have known := covered done (event :: behind) split'
      have known' := covered (done ++ [event]) behind split
      have same := hides.same
      cases event with
      | genuine signed =>
        have here := within (.genuine signed) (by rw [split']; simp)
        rw [filterMap_append] at known' ⊢
        rw [map_append]
        simp only [filterMap_cons, Event.genuine?, filterMap_nil, map_cons,
          map_nil, Event.signed, base.offers_concat] at known' ⊢
        rw [same] at hides soundAll ⊢
        exact offer_hides hides free soundGenuine soundAll here small known'
      | inserted signed =>
        obtain ⟨unauthenticated, unobtrusive⟩ := inserted done signed behind split'
        rw [filterMap_append, map_append]
        simp only [filterMap_cons, Event.genuine?, filterMap_nil, append_nil,
          map_cons, map_nil, Event.signed, base.offers_concat]
        rw [same] at hides unauthenticated ⊢
        exact offer_inserted hides known unauthenticated unobtrusive
  exact ⟨_, (simulation events [] (append_nil events).symm).same⟩

end Runs

/-! ## Fixed inputs -/

attribute [local instance] proposerSha256 nonemptyEd25519 anyP256 unitFrost

/-- The content of `leftStep` under a signature that does not verify. -/
def forgedStep : SignedStep := { leftStep with signature := emptySignature }

/-- A copy of a held step under a wrong signature takes its place, and both are lost. -/
theorem held_step_displaced :
    forgedStep.verify (pairGroup 1).publicKey ≠ .ok () ∧
    (pairStart.offers [leftStep, firstStep]).tip = FixedBytes.replicate 32 11 ∧
    (pairStart.offers [leftStep, forgedStep, firstStep]).tip = FixedBytes.replicate 32 10 := by
  decide +kernel

/-- A recovery that moves the chain near the last sequence. -/
def lateRotation : SignedStep :=
  { rotation with step := { rotation.step with sequence := 0 - 3 } }

/-- A step after that recovery, with so many sequences left. -/
def lateStep (name predecessor : UInt8) (left : UInt64) : SignedStep :=
  let signed := pairStep name predecessor (0 - left - 1) .revoke []
  { signed with step := { signed.step with epoch := 1, recoveryGen := 1 } }

/-- A forged step on one of the last sequence stops the drain before its rival is looked at. -/
theorem last_number_shelters_fork :
    (pairStart.offers [lateRotation, lateStep 14 13 0, lateStep 15 13 0, lateStep 13 11 1]).status =
      .halted ∧
    (pairStart.offers [lateRotation, { lateStep 12 14 0 with signature := emptySignature },
      lateStep 14 13 0, lateStep 15 13 0, lateStep 13 11 1]).status = .active := by
  decide +kernel

theorem forgedStep_fails (key : VerifyingKey) : forgedStep.verify key ≠ .ok () := by
  intro verified
  simp only [SignedStep.verify, ok_steps] at verified
  obtain ⟨-, -, -, -, message, -, accepted⟩ := verified
  have rejected : Ed25519.verifyStrict key message forgedStep.signature = false :=
    decide_eq_false (not_not.mpr rfl)
  rw [rejected] at accepted
  simp at accepted

/-- The forged copy offered before the step it copies. -/
theorem unauthenticated_harmless_forged :
    ∃ held, pairStart.offers [forgedStep, leftStep, firstStep] =
      (pairStart.offers [leftStep, firstStep]).holding held := by
  have free := pairSeen_free [leftStep, firstStep] (by decide +kernel)
  have reached : Reached (fun bytes => bytes ∈ pairSeen [leftStep, firstStep])
      (pairGroup 1) pairRecovery [] pairStart :=
    ⟨⟨pairStart, pairStart_founded, rfl⟩, pairSeen_founded _, by simp⟩
  have given := pairSeen_within [leftStep, firstStep]
  have empty : pairStart.pending.isEmpty = true := by decide +kernel
  have numbered : (pairStart.offers [leftStep, firstStep]).contexts[
      forgedStep.step.predecessor]?.map Context.sequence = some 1 := by decide +kernel
  refine unauthenticated_harmless free reached
    [.inserted forgedStep, .genuine leftStep, .genuine firstStep] ?_ ?_ ?_
  · intro event there
    simp only [mem_cons, not_mem_nil, or_false] at there
    rcases there with rfl | rfl | rfl
    · exact given leftStep (by simp)
    · exact given leftStep (by simp)
    · exact given firstStep (by simp)
  · intro before signed behind split
    have whole : before = [] ∧ signed = forgedStep := by
      cases before with
      | nil =>
        cases split
        exact ⟨rfl, rfl⟩
      | cons event before =>
        have inside : Event.inserted signed ∈ [Event.genuine leftStep, .genuine firstStep] := by
          rw [(List.cons.inj split).2]
          simp
        simp at inside
    obtain ⟨rfl, rfl⟩ := whole
    refine ⟨⟨fun _ _ _ => forgedStep_fails _, fun _ => forgedStep_fails _⟩, fun _ => ⟨?_, ?_⟩⟩
    · intro digest held _ found
      rw [show pairStart.offers ([].filterMap Event.genuine?) = pairStart from rfl,
        Std.ExtTreeMap.isEmpty_iff.mp empty] at found
      simp at found
    · intro context found
      change (pairStart.offers [leftStep, firstStep]).contexts[
        forgedStep.step.predecessor]? = some context at found
      rw [found] at numbered
      have sequence : context.sequence = 1 := Option.some.inj numbered
      rw [sequence]
      decide
  · intro before behind split
    rcases before with _ | ⟨_, _ | ⟨_, _ | ⟨_, _ | ⟨_, _⟩⟩⟩⟩ <;> cases split <;> decide +kernel

end Supgang.Threshold
