/-
# Threshold.RecoveryFork — two recoveries of one generation stop a chain for good

A chain keeps, for each recovery generation, the accepted recovery and the recovery descriptor that
was in force when it was accepted. A different recovery of that generation is judged under that
descriptor, whatever has happened since, and stops the chain permanently.

* `accept_run` — what is left of `accept` once its first checks have passed.
* `Chain.Recovers` — an offer accepted as a recovery; `offer_proofs` — the proofs a chain keeps are
  its accepted recoveries, each with the descriptor it was accepted under; `offers_proofs` — over runs.
* `Contests` — a different recovery of a proved generation, valid under that descriptor;
  `answer_contests` — it stops the chain; `offer_contested` — nothing else does.
* `accept_stopped` — a stopped chain refuses every step and stays as it is.
* `recovery_fork_remembered` — all of this over whole runs.
-/
import Supgang.Threshold.Ancestry

namespace Supgang.Threshold

set_option autoImplicit false
set_option linter.unusedSectionVars false

open Theory List
open EStateM (run_bind run_get)

section Runs

variable [Sha256] [Ed25519] [P256] [Frost]
variable {seen : Set Bytes} {start chain after : Chain} {signed : SignedStep} {digest : Digest}
  {transition : Succession}

/-! ## The first checks of an offer -/

theorem accept_run {succession : Option Succession} (hashed : signed.step.digest = .ok digest)
    (sameHive : signed.step.hive = chain.hive) (unforked : chain.recoveryFork = false)
    (decoded : transitionOf signed.step = .ok succession) :
    (accept signed).run chain = (dispatch signed digest succession >>= settle).run chain := by
  rw [accept, run_bind, run_get]
  simp only []
  rw [hashed, run_bind, run_ofExcept_ok]
  simp only []
  rw [run_reject_bind_of_not (not_not.mpr sameHive), run_reject_bind_of_not (by simp [unforked]),
    decoded, run_bind, run_ofExcept_ok]

/-- A stopped chain refuses every step and stays as it is. -/
theorem accept_stopped (stopped : chain.recoveryFork = true) (signed : SignedStep) :
    ∃ e, (accept signed).run chain = .error e chain ∧
      (∀ digest, signed.step.digest = .ok digest → signed.step.hive = chain.hive →
        e = Error.halted) := by
  rw [accept, run_bind, run_get]
  simp only []
  cases hashed : signed.step.digest with
  | error e =>
    rw [run_bind, run_ofExcept_error]
    exact ⟨e, rfl, by simp⟩
  | ok digest =>
    rw [run_bind, run_ofExcept_ok]
    simp only []
    by_cases sameHive : signed.step.hive = chain.hive
    · rw [run_reject_bind_of_not (not_not.mpr sameHive), run_reject_bind_of stopped]
      exact ⟨_, rfl, fun _ _ _ => rfl⟩
    · rw [run_reject_bind_of sameHive]
      exact ⟨_, rfl, fun _ _ same => absurd same sameHive⟩

theorem offer_stopped (stopped : chain.recoveryFork = true) (signed : SignedStep) :
    chain.offer signed = chain := by
  obtain ⟨e, run, -⟩ := accept_stopped stopped signed
  rw [Chain.offer, run]

theorem offers_stopped (stopped : chain.recoveryFork = true) (steps : List SignedStep) :
    chain.offers steps = chain := by
  induction steps with
  | nil => rfl
  | cons signed rest ih =>
    change (chain.offer signed).offers rest = chain
    rw [offer_stopped stopped, ih]

/-! ## Accepted recoveries -/

/-- The offer is accepted as a recovery. -/
def Chain.Recovers (chain : Chain) (signed : SignedStep) : Prop :=
  ∃ transition, transitionOf signed.step = .ok (some transition) ∧ transition.kind = .recovery ∧
    chain.answer signed = .ok .accepted

theorem settle_of_ne {outcome : Outcome} (ne : outcome ≠ .accepted) (chain : Chain) :
    (settle outcome).run chain =
      .ok (if chain.status = .halted then .fork else outcome) chain := by
  rw [settle, follow, if_neg ne]
  rfl

/-- With nothing ready there is nothing to follow an acceptance. -/
theorem settle_of_idle (active : chain.status = .active) (idle : chain.ready = none) :
    (settle .accepted).run chain = .ok .accepted chain := by
  have drained : drainPending.run chain = .ok () chain := by
    rw [drainPending, show maxRecords = 255 + 1 from rfl, drainLoop_run, if_neg (not_not.mpr active),
      idle]
  rw [settle, follow, if_pos rfl, run_bind, drained]
  simp only [run_bind, run_get]
  rw [if_neg (by rw [active]; decide)]
  rfl

theorem dispatch_recovery (kind : transition.kind = .recovery) (signed : SignedStep)
    (digest : Digest) :
    dispatch signed digest (some transition) = acceptRecovery signed digest transition := by
  rw [dispatch, Option.filter_some_pos (by simpa using kind)]

/-- A step that is not refused passed the first checks. -/
theorem answer_presented {outcome : Outcome} (answer : chain.answer signed = .ok outcome) :
    ∃ digest succession, Presented Set.univ chain.hive signed digest succession ∧
      chain.recoveryFork = false := by
  have passed : Ends chain (accept signed)
      (fun _ _ => ∃ digest succession, Presented Set.univ chain.hive signed digest succession ∧
        chain.recoveryFork = false) (fun _ => True) := by
    rw [accept]
    refine .get (.ofExcept trivial fun digest hashed => .reject trivial fun sameHive =>
      .reject trivial fun unforked => .ofExcept trivial fun succession decoded => ?_)
    have presented : Presented Set.univ chain.hive signed digest succession :=
      ⟨hashed, not_not.mp sameHive, decoded, fun _ _ => trivial⟩
    rw [Ends]
    split
    · exact ⟨digest, succession, presented, Bool.not_eq_true _ ▸ unforked⟩
    · trivial
  rw [Chain.answer] at answer
  rw [Ends] at passed
  split at answer
  · rename_i run
    rw [run] at passed
    exact passed
  · cases answer

theorem Chain.Recovers.presented (recovers : chain.Recovers signed) :
    ∃ digest transition, Presented Set.univ chain.hive signed digest (some transition) ∧
      transition.kind = .recovery ∧ chain.recoveryFork = false := by
  obtain ⟨transition, decoded, kind, answer⟩ := recovers
  obtain ⟨digest, succession, presented, unforked⟩ := answer_presented answer
  have same := presented.decoded
  rw [decoded] at same
  cases same
  exact ⟨digest, transition, presented, kind, unforked⟩

/-- An offer leaves everything about recoveries as it was, unless it is a recovery itself. -/
theorem offer_keepsRecovery (chain : Chain) (signed : SignedStep) :
    (KeepsRecovery chain (chain.offer signed) ∧ ¬chain.Recovers signed) ∨
      ∃ digest transition, Presented Set.univ chain.hive signed digest (some transition) ∧
        transition.kind = .recovery ∧ chain.recoveryFork = false := by
  by_cases recovery : ∃ digest transition, Presented Set.univ chain.hive signed digest
      (some transition) ∧ transition.kind = .recovery ∧ chain.recoveryFork = false
  · exact .inr recovery
  · refine .inl ⟨?_, fun recovers => recovery recovers.presented⟩
    refine offer_of_ends (accept_ends (.refl chain) ?_ ?_)
    · intro digest succession hashed sameHive unforked decoded
      rcases dispatch_cases signed digest succession with ⟨transition, rfl, kind, -⟩ | ⟨-, eq⟩
      · exact absurd ⟨digest, transition, ⟨hashed, sameHive, decoded, fun _ _ => trivial⟩, kind,
          unforked⟩ recovery
      · rw [eq]
        exact acceptOrdinary_keepsRecovery chain signed digest succession
    · intro middle kept
      exact (drainPending_keepsRecovery middle).mono (fun _ _ late => kept.trans late)
        (fun _ late => kept.trans late)

/-- A recovery offered to a chain that was not stopped, by what it changes. -/
inductive Chain.RecoveryOffer (chain : Chain) (signed : SignedStep) (digest : Digest)
    (transition : Succession) : Prop where
  | kept (kept : KeepsRecovery chain (chain.offer signed))
      (answer : chain.answer signed ≠ .ok .accepted)
  | stopped {previous : SignedStep} {authority : RecoveryDescriptor} {known : Digest}
      (proved : chain.recoveryProofs[signed.step.recoveryGen]? = some (previous, authority))
      (verified : signed.verify authority.group.publicKey = .ok ())
      (valid : chain.validateRecovery signed.step transition authority = .ok ())
      (hashed : previous.step.digest = .ok known) (different : known ≠ digest)
      (answer : chain.answer signed = .ok .fork)
      (fork : (chain.offer signed).recoveryFork = true)
      (proofs : (chain.offer signed).recoveryProofs = chain.recoveryProofs)
  | recovered (unproved : chain.recoveryProofs[signed.step.recoveryGen]? = none)
      (answer : chain.answer signed = .ok .accepted)
      (fork : (chain.offer signed).recoveryFork = false)
      (proofs : (chain.offer signed).recoveryProofs =
        chain.recoveryProofs.insert signed.step.recoveryGen (signed, chain.recovery))

theorem offer_recovers (presented : Presented seen chain.hive signed digest (some transition))
    (kind : transition.kind = .recovery) (unforked : chain.recoveryFork = false) :
    chain.RecoveryOffer signed digest transition := by
  have run := accept_run presented.hashed presented.sameHive unforked presented.decoded
  rw [dispatch_recovery kind, run_bind] at run
  have cases' := acceptRecovery_cases chain signed digest transition
  generalize (acceptRecovery signed digest transition).run chain = result at cases' run
  cases cases' with
  | refused e =>
    obtain ⟨answer, offer⟩ := answer_offer_error run
    refine .kept ?_ (by simp [answer])
    rw [offer]
    exact .refl chain
  | exhausted full =>
    obtain ⟨answer, offer⟩ := answer_offer_error run
    refine .kept ?_ (by simp [answer])
    rw [offer]
    exact ⟨rfl, rfl, rfl⟩
  | duplicate =>
    obtain ⟨answer, offer⟩ := answer_offer (run.trans (settle_of_ne (by decide) chain))
    refine .kept ?_ ?_
    · rw [offer]
      exact .refl chain
    · rw [answer]
      split <;> simp
  | rival proved verified valid hashed different =>
    obtain ⟨answer, offer⟩ := answer_offer (run.trans (settle_of_ne (by decide) _))
    refine .stopped proved verified valid hashed different (answer.trans ?_) ?_ ?_
    · split <;> rfl
    · rw [offer]
    · rw [offer]
      rfl
  | recovered unproved newer verified valid room next =>
    obtain ⟨answer, offer⟩ := answer_offer (run.trans (settle_of_idle rfl rfl))
    refine .recovered unproved answer ?_ ?_
    · rw [offer]
      exact unforked
    · rw [offer]
      rfl

/-! ## The proofs a chain keeps -/

/-- One offer keeps every proof and adds at most its own. -/
theorem offer_proofs (chain : Chain) (signed : SignedStep) (generation : UInt64)
    (proof : SignedStep × RecoveryDescriptor) :
    (chain.offer signed).recoveryProofs[generation]? = some proof ↔
      chain.recoveryProofs[generation]? = some proof ∨
        (chain.Recovers signed ∧ generation = signed.step.recoveryGen ∧
          proof = (signed, chain.recovery)) := by
  rcases offer_keepsRecovery chain signed with ⟨kept, refused⟩ |
    ⟨digest, transition, presented, kind, unforked⟩
  · rw [kept.proofs]
    refine ⟨.inl, ?_⟩
    rintro (old | ⟨recovers, -, -⟩)
    · exact old
    · exact absurd recovers refused
  · cases offer_recovers presented kind unforked with
    | kept kept answer =>
      rw [kept.proofs]
      refine ⟨.inl, ?_⟩
      rintro (old | ⟨⟨-, -, -, accepted⟩, -, -⟩)
      · exact old
      · exact absurd accepted answer
    | stopped proved verified valid hashed different answer fork proofs =>
      rw [proofs]
      refine ⟨.inl, ?_⟩
      rintro (old | ⟨⟨-, -, -, accepted⟩, -, -⟩)
      · exact old
      · rw [answer] at accepted
        cases accepted
    | recovered unproved answer fork proofs =>
      have recovers : chain.Recovers signed := ⟨transition, presented.decoded, kind, answer⟩
      rw [proofs, getElem?_insert_eq]
      split
      · rename_i same
        subst same
        constructor
        · intro added
          cases added
          exact .inr ⟨recovers, rfl, rfl⟩
        · rintro (old | ⟨-, -, rfl⟩)
          · rw [unproved] at old
            cases old
          · rfl
      · rename_i other
        refine ⟨.inl, ?_⟩
        rintro (old | ⟨-, same, -⟩)
        · exact old
        · exact absurd same.symm other

/-- The proofs after a run are its accepted recoveries, each with the descriptor then in force. -/
theorem offers_proofs (unproved : start.recoveryProofs = ∅) (steps : List SignedStep)
    (generation : UInt64) (proof : SignedStep × RecoveryDescriptor) :
    (start.offers steps).recoveryProofs[generation]? = some proof ↔
      ∃ earlier first later, steps = earlier ++ first :: later ∧
        (start.offers earlier).Recovers first ∧ generation = first.step.recoveryGen ∧
        proof = (first, (start.offers earlier).recovery) := by
  -- On the run, from its end: the last offer adds its own proof or none.
  induction steps using List.reverseRecOn with
  | nil =>
    simp [Chain.offers, unproved]
  | append_singleton steps signed ih =>
    rw [start.offers_concat, offer_proofs, ih]
    constructor
    · rintro (⟨earlier, first, later, rfl, rest⟩ | ⟨recovers, rfl, rfl⟩)
      · exact ⟨earlier, first, later ++ [signed], by simp, rest⟩
      · exact ⟨steps, signed, [], rfl, recovers, rfl, rfl⟩
    · rintro ⟨earlier, first, later, split, rest⟩
      rcases eq_nil_or_concat later with rfl | ⟨later, last, rfl⟩
      · obtain ⟨rfl, same⟩ := append_inj' split rfl
        cases same
        exact .inr rest
      · rw [concat_eq_append, ← cons_append, ← append_assoc] at split
        obtain ⟨rfl, -⟩ := append_inj' split rfl
        exact .inl ⟨earlier, first, later, rfl, rest⟩

/-! ## The label of the hive -/

theorem Transition.label (sound : Sound seen chain) (step : Transition seen chain after) :
    after.current.group.label = chain.current.group.label := by
  cases step with
  | hold | drop | exhaust | rival => rfl
  | fork presented admits fresh child conflict =>
    rcases Chain.forked_eq fresh with ⟨-, eq⟩ | ⟨-, eq⟩ <;> rw [eq]
  | @extend signed digest succession context next presented admits fresh room onTip valid =>
    have here := sound.context_eq admits onTip
    obtain ⟨_, _, _, eq⟩ := chain.extended_eq signed digest next
    rw [eq]
    rcases admits.next_cases with ⟨-, rfl⟩ | ⟨transition, epoch, -, planned⟩
    · rw [here]
    · rw [planned.next, ← here]
      exact planned.label
  | recover presented kind unforked unproved newer verified valid room next =>
    exact (validateRecovery_eq_ok.mp valid).1.successorLabel

theorem Ran.label (free : CollisionFree seen) (sound : Sound seen start)
    (ran : Ran seen start chain) : chain.current.group.label = start.current.group.label := by
  induction ran with
  | refl => rfl
  | tail earlier step ih => exact (step.label (sound.ran free earlier)).trans ih

/-! ## Contesting a generation -/

/-- A different recovery of an accepted one's generation, valid under the authority that was in
force when that one was accepted. -/
structure Contests (chain : Chain) (label : String) (first : SignedStep)
    (authority : RecoveryDescriptor) (signed : SignedStep) (transition : Succession) : Prop where
  decoded : transitionOf signed.step = .ok (some transition)
  kind : transition.kind = .recovery
  generation : signed.step.recoveryGen = first.step.recoveryGen
  different : signed.step ≠ first.step
  sameHive : signed.step.hive = chain.hive
  verified : signed.verify authority.group.publicKey = .ok ()
  rules : RecoveryRules label signed.step transition authority
  /-- It agrees with the context of its predecessor, where the chain knows it. -/
  ancestor : ∀ context, chain.contexts[signed.step.predecessor]? = some context →
    transition.previousKey = context.group.publicKey ∧ signed.step.epoch = context.epoch ∧
    checkedAdd context.sequence 1 = some signed.step.sequence

/-- Only an encoded step can be verified. -/
theorem verify_digest {key : VerifyingKey} (verified : signed.verify key = .ok ()) :
    ∃ digest, signed.step.digest = .ok digest := by
  simp only [SignedStep.verify, bind_eq_ok, RootStep.message] at verified
  obtain ⟨-, -, -, -, message, ⟨bytes, encoded, -⟩, -⟩ := verified
  exact ⟨_, digest_eq_ok.mpr ⟨bytes, encoded, rfl⟩⟩

theorem answer_contests (free : CollisionFree seen) (unforked : chain.recoveryFork = false)
    {first : SignedStep} {authority : RecoveryDescriptor} {known : Digest}
    (proved : chain.recoveryProofs[first.step.recoveryGen]? = some (first, authority))
    (firstHashed : first.step.digest = .ok known) (firstWithin : Within seen first)
    (within : Within seen signed)
    (contests : Contests chain chain.current.group.label first authority signed transition) :
    chain.answer signed = .ok .fork ∧ (chain.offer signed).recoveryFork = true := by
  obtain ⟨digest, hashed⟩ := verify_digest contests.verified
  have valid : chain.validateRecovery signed.step transition authority = .ok () :=
    validateRecovery_eq_ok.mpr ⟨contests.rules, validateAncestor_eq_ok.mpr contests.ancestor⟩
  have different : known ≠ digest := by
    rintro rfl
    exact contests.different (digest_inj free within firstWithin hashed firstHashed)
  have rival : (acceptRecovery signed digest transition).run chain =
      .ok .fork { chain.halt known signed digest with recoveryFork := true } := by
    rw [acceptRecovery, run_bind, run_get]
    simp only []
    rw [contests.generation, proved]
    exact acceptRival_forks contests.verified valid firstHashed different
  have run := accept_run hashed contests.sameHive unforked contests.decoded
  rw [dispatch_recovery contests.kind, run_bind, rival] at run
  obtain ⟨answer, offer⟩ := answer_offer (run.trans (settle_of_ne (by decide) _))
  refine ⟨answer.trans ?_, by rw [offer]⟩
  split <;> rfl

/-- Nothing but a contested generation stops a chain for good. -/
theorem offer_contested (unforked : chain.recoveryFork = false)
    (stopped : (chain.offer signed).recoveryFork = true) :
    ∃ first authority transition,
      chain.recoveryProofs[signed.step.recoveryGen]? = some (first, authority) ∧
      (signed.step.recoveryGen = first.step.recoveryGen →
        Contests chain chain.current.group.label first authority signed transition) := by
  have changed : ¬KeepsRecovery chain (chain.offer signed) := by
    intro kept
    rw [kept.fork, unforked] at stopped
    cases stopped
  rcases offer_keepsRecovery chain signed with ⟨kept, -⟩ | ⟨digest, transition, presented, kind, -⟩
  · exact absurd kept changed
  · cases offer_recovers presented kind unforked with
    | kept kept => exact absurd kept changed
    | recovered unproved answer fork =>
      rw [fork] at stopped
      cases stopped
    | @stopped first authority known proved verified valid hashed different =>
      obtain ⟨rules, ancestor⟩ := validateRecovery_eq_ok.mp valid
      refine ⟨first, authority, transition, proved, fun generation => ⟨presented.decoded, kind,
        generation, ?_, presented.sameHive, verified, rules, validateAncestor_eq_ok.mp ancestor⟩⟩
      intro same
      have again := presented.hashed
      rw [same, hashed] at again
      cases again
      exact different rfl

/-- The offer at which a run stopped for good. -/
theorem offers_contested (unforked : start.recoveryFork = false) (steps : List SignedStep)
    (stopped : (start.offers steps).recoveryFork = true) :
    ∃ before signed rest, steps = before ++ signed :: rest ∧
      (start.offers before).recoveryFork = false ∧
      ((start.offers before).offer signed).recoveryFork = true := by
  induction steps using List.reverseRecOn with
  | nil =>
    rw [show start.offers [] = start from rfl, unforked] at stopped
    cases stopped
  | append_singleton steps signed ih =>
    cases earlier : (start.offers steps).recoveryFork with
    | true =>
      obtain ⟨before, contest, rest, rfl, calm, fork⟩ := ih earlier
      exact ⟨before, contest, rest ++ [signed], by simp, calm, fork⟩
    | false =>
      rw [start.offers_concat] at stopped
      exact ⟨steps, signed, [], rfl, earlier, stopped⟩

/-- **A recovery fork is remembered for ever.** After any run from a founding that has not yet been
stopped for good, a recovery that contests an accepted one's generation is answered with a fork and
stops the chain; a stopped chain refuses every step, with `halted` every well-formed step of its
hive, and never changes again; and a run is stopped for good in no other way. -/
theorem recovery_fork_remembered (free : CollisionFree seen) {group : GroupDescriptor}
    {recovery : RecoveryDescriptor} (founded : Chain.new group recovery = .ok start)
    (foundedWithin : ∀ bytes, foundingBytes group (some recovery) = .ok bytes → bytes ∈ seen)
    (steps : List SignedStep) (within : ∀ signed ∈ steps, Within seen signed) :
    let chain := start.offers steps
    (∀ earlier first later, steps = earlier ++ first :: later →
      (start.offers earlier).Recovers first → chain.recoveryFork = false →
      ∀ signed transition, Within seen signed →
        Contests chain group.label first (start.offers earlier).recovery signed transition →
        chain.answer signed = .ok .fork ∧ (chain.offer signed).recoveryFork = true) ∧
    (chain.recoveryFork = true → (∀ more, chain.offers more = chain) ∧
      ∀ signed, ∃ e, chain.answer signed = .error e ∧
        ((∃ digest, signed.step.digest = .ok digest) → signed.step.hive = chain.hive →
          e = Error.halted)) ∧
    (chain.recoveryFork = true → ∃ before signed rest, steps = before ++ signed :: rest ∧
      (start.offers before).recoveryFork = false ∧
      ∃ earlier first later transition, before = earlier ++ first :: later ∧
        (start.offers earlier).Recovers first ∧
        Contests (start.offers before) group.label first (start.offers earlier).recovery signed
          transition) := by
  intro chain
  have sound := new_sound founded foundedWithin
  obtain ⟨bytes, encoded, separate, rfl⟩ := new_eq_ok founded
  have labelled : ∀ run, (∀ signed ∈ run, Within seen signed) →
      (Chain.offers _ run).current.group.label = group.label := fun run within =>
    (offers_leaves sound.keyed within).1.label free sound
  refine ⟨?_, ?_, ?_⟩
  · intro earlier first later split recovers unforked signed transition seenSigned contests
    have proved := (offers_proofs rfl steps first.step.recoveryGen _).mpr
      ⟨earlier, first, later, split, recovers, rfl, rfl⟩
    obtain ⟨known, _, presented, -⟩ := recovers.presented
    have there : first ∈ steps := by
      rw [split]
      exact mem_append_right _ mem_cons_self
    rw [← labelled steps within] at contests
    exact answer_contests free unforked proved presented.hashed (within first there) seenSigned
      contests
  · intro stopped
    refine ⟨offers_stopped stopped, fun signed => ?_⟩
    obtain ⟨e, run, halted⟩ := accept_stopped stopped signed
    exact ⟨e, (answer_offer_error run).1, fun ⟨digest, hashed⟩ => halted digest hashed⟩
  · intro stopped
    obtain ⟨before, signed, rest, split, calm, fork⟩ := offers_contested rfl steps stopped
    obtain ⟨first, authority, transition, proved, contests⟩ := offer_contested calm fork
    obtain ⟨earlier, found, later, split', recovers, generation, pair⟩ :=
      (offers_proofs rfl before _ _).mp proved
    cases pair
    have contests := contests generation
    rw [labelled before fun signed there => within signed (by rw [split]; simp [there])] at contests
    exact ⟨before, signed, rest, split, calm, earlier, first, later, transition, split', recovers,
      contests⟩

end Runs

/-! ## Fixed inputs -/

attribute [local instance] proposerSha256 nonemptyEd25519 anyP256 unitFrost

/-- Another recovery of the generation of `rotation`. -/
def rivalRotation : SignedStep :=
  { rotation with step := { rotation.step with proposer := FixedBytes.replicate 32 12 } }

/-- A step of some other hive. -/
def foreignStep : SignedStep :=
  { firstStep with step := { firstStep.step with hive := FixedBytes.replicate 32 9 } }

/-- A step of another hive offered to a stopped chain is refused for its hive, not with `halted`. -/
theorem stopped_refuses_foreign :
    (pairStart.offers [firstStep, rotation, rivalRotation]).recoveryFork = true ∧
    (pairStart.offers [firstStep, rotation]).answer rivalRotation = .ok .fork ∧
    (pairStart.offers [firstStep, rotation, rivalRotation]).answer foreignStep =
      .error .authority := by
  decide +kernel

theorem rivalRotation_contests : Contests (pairStart.offers [firstStep, rotation])
    (pairGroup 1).label rotation (pairStart.offers [firstStep]).recovery rivalRotation
    rotatedKeys := by
  have labelled : (pairStart.offers [firstStep, rotation]).current.group.label =
      (pairGroup 1).label := by decide +kernel
  have valid : (pairStart.offers [firstStep, rotation]).validateRecovery rivalRotation.step
      rotatedKeys (pairStart.offers [firstStep]).recovery = .ok () := by decide +kernel
  obtain ⟨rules, ancestor⟩ := validateRecovery_eq_ok.mp valid
  rw [labelled] at rules
  exact {
    decoded := by decide +kernel
    kind := rfl
    generation := rfl
    different := by decide +kernel
    sameHive := by decide +kernel
    verified := by decide +kernel
    rules
    ancestor := validateAncestor_eq_ok.mp ancestor }

/-- The rival is answered with a fork, and then the chain stands still whatever is offered, as only a
contested recovery could have stopped it. -/
theorem recovery_fork_remembered_stopped :
    let forked := pairStart.offers [firstStep, rotation, rivalRotation]
    (pairStart.offers [firstStep, rotation]).answer rivalRotation = .ok .fork ∧
    (∀ more, forked.offers more = forked) ∧
    ∃ before signed rest, [firstStep, rotation, rivalRotation] = before ++ signed :: rest ∧
      (pairStart.offers before).recoveryFork = false ∧
      ∃ earlier first later transition, before = earlier ++ first :: later ∧
        Contests (pairStart.offers before) (pairGroup 1).label first
          (pairStart.offers earlier).recovery signed transition := by
  intro forked
  have all := pairSeen_within [firstStep, rotation, rivalRotation]
  have free := pairSeen_free [firstStep, rotation, rivalRotation] (by decide +kernel)
  have recovers : (pairStart.offers [firstStep]).Recovers rotation :=
    ⟨rotatedKeys, by decide +kernel, rfl, by decide +kernel⟩
  obtain ⟨stops, -, -⟩ := recovery_fork_remembered free pairStart_founded (pairSeen_founded _)
    [firstStep, rotation] fun signed there => all signed (mem_append_left [rivalRotation] there)
  obtain ⟨answer, -⟩ := stops [firstStep] rotation [] rfl recovers (by decide +kernel)
    rivalRotation rotatedKeys (all _ (by simp)) rivalRotation_contests
  have stopped : forked.recoveryFork = true := by decide +kernel
  obtain ⟨-, still, contested⟩ := recovery_fork_remembered free pairStart_founded
    (pairSeen_founded _) [firstStep, rotation, rivalRotation] all
  obtain ⟨before, signed, rest, split, calm, earlier, first, later, transition, cut, -, contests⟩ :=
    contested stopped
  exact ⟨answer, (still stopped).1, before, signed, rest, split, calm, earlier, first, later,
    transition, cut, contests⟩

end Supgang.Threshold
