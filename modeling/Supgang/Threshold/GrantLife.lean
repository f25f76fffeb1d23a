/-
# Threshold.GrantLife — grants, from the step that introduces them to the one that ends them

A grant is introduced by an accepted step and ends with an accepted revocation of its identity or
with the next accepted recovery, which discards every grant. Its identity is spent from the first
step on and cannot be granted again.

A step is accepted when it becomes the tip, in an offer of its own or drained in another's; a step
recorded as the other side of a fork is not.

* `SignedStep.introduces`, `SignedStep.revokes`, `SignedStep.recovers` — what a step is for.
* `Trace` — the accepted steps of a run, in their order; `Ended` — an identity that is over.
* `GrantChange` — the three ways an extension changes the grant fields.
* `Life` — the invariant of a trace; `grant_life_cycle`.
-/
import Supgang.Threshold.Ancestry

namespace Supgang.Threshold

set_option autoImplicit false
set_option linter.unusedSectionVars false

open Theory List
open Relation (ReflTransGen)

section Lives

variable [Sha256] [Ed25519] [P256] [Frost]

/-! ## What a step is for -/

/-- The grant that a step makes. -/
def SignedStep.introduces (signed : SignedStep) : Option Grant :=
  match signed.step.operation with
  | .grant => (Grant.decode signed.step.payload).toOption
  | _ => none

/-- The identity that a step revokes. -/
def SignedStep.revokes (signed : SignedStep) : Option (FixedBytes 16) :=
  match signed.step.operation with
  | .revokeGrant => (Revocation.decode signed.step.payload).toOption.map Revocation.id
  | _ => none

/-- The step is a recovery succession. -/
def SignedStep.recovers (signed : SignedStep) : Bool :=
  match transitionOf signed.step with
  | .ok (some transition) => transition.kind = .recovery
  | _ => false

/-- What the grant rules did: a new grant under an unspent identity, the end of a standing one with
the next serial, or nothing. -/
inductive Chain.GrantChange (chain : Chain) (signed : SignedStep) (after : Chain) : Prop where
  | grant {grant : Grant} (introduces : signed.introduces = some grant)
      (revokes : signed.revokes = none) (unspent : grant.id ∉ chain.usedGrantIds)
      (grants : after.grants = chain.grants.insert grant.id grant)
      (used : after.usedGrantIds = chain.usedGrantIds.insert grant.id)
      (serial : after.grantRevocationSerial = chain.grantRevocationSerial)
  | revoke {id : FixedBytes 16} (introduces : signed.introduces = none)
      (revokes : signed.revokes = some id) (standing : id ∈ chain.grants)
      (grants : after.grants = chain.grants.erase id)
      (used : after.usedGrantIds = chain.usedGrantIds)
      (serial : after.grantRevocationSerial.toNat = chain.grantRevocationSerial.toNat + 1)
  | other (introduces : signed.introduces = none) (revokes : signed.revokes = none)
      (grants : after.grants = chain.grants) (used : after.usedGrantIds = chain.usedGrantIds)
      (serial : after.grantRevocationSerial = chain.grantRevocationSerial)

variable {digest : Digest} {next : Context} {signed : SignedStep} {id : FixedBytes 16}

theorem Chain.extended_grantChange {chain : Chain}
    (valid : chain.validateGrantTransition signed.step = .ok ()) :
    chain.GrantChange signed (chain.extended signed digest next) := by
  unfold validateGrantTransition at valid
  cases operation : signed.step.operation with
  | grant =>
    simp only [operation, ok_steps, not_or] at valid
    obtain ⟨grant, decoded, -, unspent⟩ := valid
    have introduces : signed.introduces = some grant := by
      simp [SignedStep.introduces, operation, decoded, Except.toOption]
    refine .grant introduces ?_ unspent ?_ ?_ ?_ <;>
      simp [SignedStep.revokes, extended, granted, applyGrantTransition, advanced, operation,
        decoded]
  | revokeGrant =>
    simp only [operation, ok_steps, not_not] at valid
    obtain ⟨revocation, decoded, -, standing, serial, higher, same⟩ := valid
    have revokes : signed.revokes = some revocation.id := by
      simp [SignedStep.revokes, operation, decoded, Except.toOption]
    have present : revocation.id ∈ chain.grants := by
      obtain ⟨grant, found, -⟩ := Option.map_eq_some_iff.mp standing
      exact mem_of_getElem? found
    have next : revocation.serial.toNat = chain.grantRevocationSerial.toNat + 1 := by
      rw [same]
      simpa using checkedAdd_eq_some.mp higher
    refine .revoke ?_ revokes present ?_ ?_ ?_ <;>
      simp [SignedStep.introduces, extended, granted, applyGrantTransition, advanced, operation,
        decoded, next]
  | _ =>
    refine .other ?_ ?_ ?_ ?_ ?_ <;>
      simp [SignedStep.introduces, SignedStep.revokes, extended, granted, applyGrantTransition,
        advanced, operation, pure, Except.pure]

/-! ## The accepted steps of a run -/

/-- The accepted steps with their digests, oldest first: those that became the tip. -/
inductive Trace (seen : Set Bytes) (start : Chain) : List (Digest × SignedStep) → Chain → Prop where
  | start : Trace seen start [] start
  | rest {accepted : List (Digest × SignedStep)} {chain after : Chain}
      (trace : Trace seen start accepted chain) (step : Transition seen chain after)
      (tip : after.tip = chain.tip) : Trace seen start accepted after
  | accept {accepted : List (Digest × SignedStep)} {chain after : Chain} {signed : SignedStep}
      (trace : Trace seen start accepted chain) (step : Transition seen chain after)
      (tip : after.tip ≠ chain.tip) (recorded : after.records[after.tip]? = some signed) :
      Trace seen start (accepted ++ [(after.tip, signed)]) after

variable {seen : Set Bytes} {start chain after : Chain} {accepted : List (Digest × SignedStep)}

theorem Trace.ran (trace : Trace seen start accepted chain) : Ran seen start chain := by
  induction trace with
  | start => exact .refl
  | rest _ step _ ih => exact ih.tail step
  | accept _ step _ _ ih => exact ih.tail step

/-- A step that becomes the tip extended it, or recovered. -/
inductive Accepts (chain : Chain) (digest : Digest) (signed : SignedStep) (after : Chain) : Prop where
  | extend {next : Context} (hashed : signed.step.digest = .ok digest)
      (ordinary : signed.recovers = false)
      (generation : signed.step.recoveryGen = chain.current.recoveryGen)
      (kept : next.recoveryGen = chain.current.recoveryGen)
      (valid : chain.validateGrantTransition signed.step = .ok ())
      (eq : after = chain.extended signed digest next)
  | recover {transition : Succession} {next : Context} (hashed : signed.step.digest = .ok digest)
      (recovers : signed.recovers = true)
      (eq : after = chain.recovered signed digest transition next)

theorem Chain.Admits.ordinary {succession : Option Succession} {context : Context}
    (admits : chain.Admits signed succession context next)
    (decoded : transitionOf signed.step = .ok succession) : signed.recovers = false := by
  rw [SignedStep.recovers, decoded]
  cases succession with
  | none => rfl
  | some transition => simp [admits.planned transition rfl]

/-- Which transitions move the tip, and where to. -/
theorem Transition.moves (sound : Sound seen chain) (free : CollisionFree seen)
    (step : Transition seen chain after) :
    (after.tip = chain.tip ∧ after.active = chain.active ∧ after.current = chain.current ∧
        after.grants = chain.grants ∧ after.usedGrantIds = chain.usedGrantIds ∧
        after.grantRevocationSerial = chain.grantRevocationSerial) ∨
      (after.tip ≠ chain.tip ∧ ∃ signed, after.records[after.tip]? = some signed ∧
        Accepts chain after.tip signed after) := by
  cases step with
  | hold | drop | exhaust => exact .inl ⟨rfl, rfl, rfl, rfl, rfl, rfl⟩
  | fork presented admits fresh child conflict =>
    rcases Chain.forked_eq fresh with ⟨-, eq⟩ | ⟨-, eq⟩ <;> rw [eq] <;>
      exact .inl ⟨rfl, rfl, rfl, rfl, rfl, rfl⟩
  | @rival signed previous digest known transition authority presented kind unforked proved
      verified valid hashed different =>
      obtain ⟨records, eq, -⟩ := chain.halt_eq known signed digest
      rw [eq]
      exact .inl ⟨rfl, rfl, rfl, rfl, rfl, rfl⟩
  | @extend signed digest succession context next presented admits fresh room onTip valid =>
    have unknown := sound.fresh free presented fresh
    have tip : (chain.extended signed digest next).tip = digest := by
      obtain ⟨_, _, _, eq⟩ := chain.extended_eq signed digest next
      rw [eq]
    refine .inr ⟨?_, signed, ?_, ?_⟩
    · rw [tip]
      rintro rfl
      exact unknown (mem_of_getElem? sound.tipContext)
    · rw [tip]
      obtain ⟨_, _, _, eq⟩ := chain.extended_eq signed digest next
      rw [eq, getElem?_insert_eq, if_pos rfl]
    · rw [tip]
      exact .extend presented.hashed (admits.ordinary presented.decoded) admits.generation
        admits.generation_eq valid rfl
  | @recover signed digest transition epoch presented kind unforked unproved newer verified valid
      room next =>
      have unknown := sound.fresh free presented (sound.unrecorded_of_newer free presented newer)
      have recovers : signed.recovers = true := by
        rw [SignedStep.recovers, presented.decoded]
        simp [kind]
      refine .inr ⟨?_, signed, ?_, .recover presented.hashed recovers rfl⟩
      · rintro (rfl : digest = chain.tip)
        exact unknown (mem_of_getElem? sound.tipContext)
      · simp [Chain.recovered]

/-- Every run has a trace, and every trace goes on with the run. -/
theorem Trace.goes_on (free : CollisionFree seen) (sound : Sound seen start)
    (trace : Trace seen start accepted chain) (ran : Ran seen chain after) :
    ∃ more, Trace seen start (accepted ++ more) after := by
  induction ran with
  | refl => exact ⟨[], by rwa [append_nil]⟩
  | tail _ step ih =>
    obtain ⟨more, trace⟩ := ih
    rcases step.moves (sound.ran free trace.ran) free with ⟨tip, -⟩ | ⟨tip, signed, recorded, -⟩
    · exact ⟨more, trace.rest step tip⟩
    · exact ⟨more ++ [(_, signed)], by
        rw [← append_assoc]
        exact trace.accept step tip recorded⟩

/-! ## The invariant -/

/-- Some accepted step introduced the identity. -/
def Introduced (accepted : List (Digest × SignedStep)) (id : FixedBytes 16) : Prop :=
  ∃ entry ∈ accepted, ∃ grant, entry.2.introduces = some grant ∧ grant.id = id

/-- The identity is over: an accepted step revoked it, or an accepted recovery came after it had been
granted. -/
def Ended (accepted : List (Digest × SignedStep)) (id : FixedBytes 16) : Prop :=
  ∃ early entry late, accepted = early ++ entry :: late ∧
    (entry.2.revokes = some id ∨ (entry.2.recovers = true ∧ Introduced early id))

/-- The grant was introduced by an accepted step of the current generation which, with all that were
accepted since, is the end of the active path; none of them revoked it or recovered. -/
def Stands (accepted : List (Digest × SignedStep)) (chain : Chain) (id : FixedBytes 16)
    (grant : Grant) : Prop :=
  ∃ early entry late stem, accepted = early ++ entry :: late ∧
    entry.2.introduces = some grant ∧ grant.id = id ∧
    entry.2.step.recoveryGen = chain.current.recoveryGen ∧
    (∀ later ∈ late, later.2.revokes ≠ some id ∧ later.2.recovers = false) ∧
    chain.active = stem ++ (entry :: late).map Prod.fst

theorem Introduced.append (h : Introduced accepted id) (more : List (Digest × SignedStep)) :
    Introduced (accepted ++ more) id := by
  obtain ⟨entry, there, rest⟩ := h
  exact ⟨entry, mem_append_left _ there, rest⟩

theorem Ended.append (h : Ended accepted id) (more : List (Digest × SignedStep)) :
    Ended (accepted ++ more) id := by
  obtain ⟨early, entry, late, rfl, ends⟩ := h
  exact ⟨early, entry, late ++ more, by simp, ends⟩

/-- One more accepted step ends an identity only by revoking it, or by recovering. -/
theorem ended_concat {entry : Digest × SignedStep} (h : Ended (accepted ++ [entry]) id) :
    Ended accepted id ∨ entry.2.revokes = some id ∨
      (entry.2.recovers = true ∧ Introduced accepted id) := by
  obtain ⟨early, at', late, eq, ends⟩ := h
  rcases eq_nil_or_concat late with rfl | ⟨before, last, rfl⟩
  · obtain ⟨rfl, same⟩ := append_inj' eq rfl
    cases singleton_inj.mp same
    exact .inr ends
  · rw [concat_eq_append, ← cons_append, ← append_assoc] at eq
    obtain ⟨rfl, -⟩ := append_inj' eq rfl
    exact .inl ⟨early, at', before, rfl, ends⟩

structure Life (accepted : List (Digest × SignedStep)) (chain : Chain) : Prop where
  serial : chain.grantRevocationSerial.toNat = accepted.countP (·.2.revokes.isSome)
  spent : ∀ id, Introduced accepted id → id ∈ chain.usedGrantIds
  introduced : ∀ id ∈ chain.grants, Introduced accepted id
  ended : ∀ id, Ended accepted id → id ∈ chain.usedGrantIds ∧ id ∉ chain.grants
  stands : ∀ id grant, chain.grants[id]? = some grant → Stands accepted chain id grant
  hashed : ∀ entry ∈ accepted, entry.2.step.digest = .ok entry.1

namespace Life

/-- What leaves the grant fields, the path and the generation alone keeps a life. -/
theorem rest (life : Life accepted chain) (active : after.active = chain.active)
    (current : after.current = chain.current) (grants : after.grants = chain.grants)
    (used : after.usedGrantIds = chain.usedGrantIds)
    (serial : after.grantRevocationSerial = chain.grantRevocationSerial) : Life accepted after where
  serial := by rw [serial, life.serial]
  spent := by rw [used]; exact life.spent
  introduced := by rw [grants]; exact life.introduced
  ended := by rw [used, grants]; exact life.ended
  stands := by
    rw [grants]
    unfold Stands
    rw [active, current]
    exact life.stands
  hashed := life.hashed

theorem grant_of_ended (life : Life accepted chain) {id : FixedBytes 16}
    (ended : Ended accepted id) : chain.grant id = none := by
  have gone := (life.ended id ended).2
  unfold Chain.grant
  split
  · exact Std.ExtTreeMap.getElem?_eq_none gone
  · rfl

end Life

/-- A standing grant goes on standing under one more step that does not end it. -/
theorem Stands.concat {grant : Grant} (h : Stands accepted chain id grant)
    (revokes : signed.revokes ≠ some id) (recovers : signed.recovers = false)
    (generation : after.current.recoveryGen = chain.current.recoveryGen)
    (active : after.active = chain.active ++ [digest]) :
    Stands (accepted ++ [(digest, signed)]) after id grant := by
  obtain ⟨early, entry, late, stem, rfl, introduces, same, current, quiet, path⟩ := h
  refine ⟨early, entry, late ++ [(digest, signed)], stem, by simp, introduces, same,
    current.trans generation.symm, ?_, by simp [active, path]⟩
  intro later there
  rcases mem_append.mp there with old | new
  · exact quiet later old
  · cases mem_singleton.mp new
    exact ⟨revokes, recovers⟩

theorem Introduced.concat {entry : Digest × SignedStep} (h : Introduced (accepted ++ [entry]) id) :
    Introduced accepted id ∨
      ∃ grant, entry.2.introduces = some grant ∧ grant.id = id := by
  obtain ⟨at', there, rest⟩ := h
  rcases mem_append.mp there with old | new
  · exact .inl ⟨at', old, rest⟩
  · cases mem_singleton.mp new
    exact .inr rest

theorem Introduced.of_concat (h : Introduced (accepted ++ [(digest, signed)]) id)
    (none : signed.introduces = none) :
    Introduced accepted id := by
  rcases h.concat with old | ⟨grant, new, -⟩
  · exact old
  · cases none.symm.trans new

theorem hashed_concat (old : ∀ entry ∈ accepted, entry.2.step.digest = .ok entry.1)
    (hashed : signed.step.digest = .ok digest) :
    ∀ entry ∈ accepted ++ [(digest, signed)], entry.2.step.digest = .ok entry.1 := by
  intro entry there
  rcases mem_append.mp there with before | new
  · exact old entry before
  · cases mem_singleton.mp new
    exact hashed

theorem Life.recover (life : Life accepted chain) (hashed : signed.step.digest = .ok digest)
    (recovers : signed.recovers = true) (transition : Succession) (next : Context) :
    Life (accepted ++ [(digest, signed)]) (chain.recovered signed digest transition next) := by
  have succession : signed.step.operation = .succession := by
    by_contra other
    simp [SignedStep.recovers, transitionOf, other, pure, Except.pure] at recovers
  have introduces : signed.introduces = none := by simp [SignedStep.introduces, succession]
  have revokes : signed.revokes = none := by simp [SignedStep.revokes, succession]
  have empty : (chain.recovered signed digest transition next).grants = ∅ := rfl
  constructor
  · simp [countP_append, revokes, Chain.recovered, life.serial]
  · intro id introduced
    exact life.spent id (introduced.of_concat introduces)
  · intro id there
    simp [empty] at there
  · intro id ended
    refine ⟨?_, by simp [empty]⟩
    rcases ended_concat ended with old | new | ⟨-, granted⟩
    · exact (life.ended id old).1
    · rw [revokes] at new
      cases new
    · exact life.spent id granted
  · intro id grant found
    simp [empty] at found
  · exact hashed_concat life.hashed hashed

theorem Life.extend (life : Life accepted chain) (hashed : signed.step.digest = .ok digest)
    (ordinary : signed.recovers = false)
    (generation : signed.step.recoveryGen = chain.current.recoveryGen)
    (kept : next.recoveryGen = chain.current.recoveryGen)
    (valid : chain.validateGrantTransition signed.step = .ok ()) :
    Life (accepted ++ [(digest, signed)]) (chain.extended signed digest next) := by
  have path : (chain.extended signed digest next).active = chain.active ++ [digest] := by
    obtain ⟨_, _, _, eq⟩ := chain.extended_eq signed digest next
    rw [eq]
  have current : (chain.extended signed digest next).current.recoveryGen =
      chain.current.recoveryGen := by
    obtain ⟨_, _, _, eq⟩ := chain.extended_eq signed digest next
    rw [eq]
    exact kept
  have change : chain.GrantChange signed (chain.extended signed digest next) :=
    chain.extended_grantChange valid
  generalize chain.extended signed digest next = after at *
  -- An ordinary step ends what it revokes and introduces at most its own grant.
  have endedBefore (id : FixedBytes 16) (ended : Ended (accepted ++ [(digest, signed)]) id) :
      Ended accepted id ∨ signed.revokes = some id := by
    rcases ended_concat ended with old | new | ⟨recovers, -⟩
    · exact .inl old
    · exact .inr new
    · cases ordinary.symm.trans recovers
  have hashes := hashed_concat life.hashed hashed
  cases change with
  | @grant grant introduces revokes unspent grants used serial =>
    refine ⟨by simp [countP_append, revokes, serial, life.serial], ?_, ?_, ?_, ?_, hashes⟩
    · intro id introduced
      rw [used]
      rcases introduced.concat with old | ⟨other, new, rfl⟩
      · exact Std.ExtTreeSet.mem_insert.mpr (.inr (life.spent id old))
      · cases introduces.symm.trans new
        exact Std.ExtTreeSet.mem_insert_self
    · intro id there
      rw [grants] at there
      rcases mem_insert_iff.mp there with rfl | old
      · exact ⟨_, mem_append_right _ (mem_singleton_self _), grant, introduces, rfl⟩
      · exact (life.introduced id old).append _
    · intro id ended
      rw [used, grants]
      have before := (endedBefore id ended).resolve_right (by simp [revokes])
      obtain ⟨spent, gone⟩ := life.ended id before
      refine ⟨Std.ExtTreeSet.mem_insert.mpr (.inr spent), fun there => ?_⟩
      rcases mem_insert_iff.mp there with rfl | old
      · exact unspent spent
      · exact gone old
    · intro id held found
      rw [grants, getElem?_insert_eq] at found
      split at found
      · rename_i same
        cases found
        exact ⟨accepted, (digest, signed), [], chain.active, rfl, introduces, same,
          generation.trans current.symm, by simp, by simp [path]⟩
      · exact (life.stands id held found).concat (by simp [revokes]) ordinary current path
  | @revoke revoked introduces revokes standing grants used serial =>
    refine ⟨by simp [countP_append, revokes, serial, life.serial], ?_, ?_, ?_, ?_, hashes⟩
    · intro id introduced
      rw [used]
      exact life.spent id (introduced.of_concat introduces)
    · intro id there
      rw [grants] at there
      exact (life.introduced id (Std.ExtTreeMap.mem_of_mem_erase there)).append _
    · intro id ended
      rw [used, grants]
      rcases endedBefore id ended with old | new
      · obtain ⟨spent, gone⟩ := life.ended id old
        exact ⟨spent, fun there => gone (Std.ExtTreeMap.mem_of_mem_erase there)⟩
      · cases revokes.symm.trans new
        exact ⟨life.spent _ (life.introduced _ standing), by simp⟩
    · intro id held found
      rw [grants, getElem?_erase_eq] at found
      split at found
      · cases found
      · rename_i other
        exact (life.stands id held found).concat (by simpa [revokes] using other) ordinary
          current path
  | other introduces revokes grants used serial =>
    refine ⟨by simp [countP_append, revokes, serial, life.serial], ?_, ?_, ?_, ?_, hashes⟩
    · intro id introduced
      rw [used]
      exact life.spent id (introduced.of_concat introduces)
    · intro id there
      rw [grants] at there
      exact (life.introduced id there).append _
    · intro id ended
      rw [used, grants]
      exact life.ended id ((endedBefore id ended).resolve_right (by simp [revokes]))
    · intro id held found
      rw [grants] at found
      exact (life.stands id held found).concat (by simp [revokes]) ordinary current path

theorem Trace.life (free : CollisionFree seen) (sound : Sound seen start)
    (first : Life [] start) (trace : Trace seen start accepted chain) : Life accepted chain := by
  induction trace with
  | start => exact first
  | rest trace step tip ih =>
    rcases step.moves (sound.ran free trace.ran) free with
      ⟨-, active, current, grants, used, serial⟩ | ⟨moved, -⟩
    · exact ih.rest active current grants used serial
    · exact absurd tip moved
  | accept trace step tip recorded ih =>
    rcases step.moves (sound.ran free trace.ran) free with ⟨same, -⟩ | ⟨-, signed, found, accepts⟩
    · exact absurd same tip
    · cases found.symm.trans recorded
      cases accepts with
      | extend hashed ordinary generation kept valid eq =>
        have next := ih.extend hashed ordinary generation kept valid
        rwa [← eq] at next
      | @recover transition next hashed recovers eq =>
        have recovered := ih.recover hashed recovers transition next
        rwa [← eq] at recovered

theorem Life.new {group : GroupDescriptor} {recovery : RecoveryDescriptor}
    (founded : Chain.new group recovery = .ok start) : Life [] start := by
  obtain ⟨bytes, -, -, rfl⟩ := new_eq_ok founded
  refine ⟨rfl, ?_, by simp, ?_, by simp, by simp⟩
  · rintro id ⟨entry, there, -⟩
    cases there
  · rintro id ⟨early, entry, late, eq, -⟩
    simp at eq

/-- **The life of a grant.** Over every run of offers, and for every account of the steps accepted in
it, drained ones and recoveries among them: an identity that was revoked, or granted before a
recovery, is not returned again, then or after any further offers; the revocation serial is the
number of accepted revocations and never falls; a standing grant was introduced by an accepted step
of the current recovery generation on the active path, and nothing accepted before or since revoked
it; and no grant is returned while the chain is not active. -/
theorem grant_life_cycle (free : CollisionFree seen) {group : GroupDescriptor}
    {recovery : RecoveryDescriptor} (founded : Chain.new group recovery = .ok start)
    (foundedWithin : ∀ bytes, foundingBytes group (some recovery) = .ok bytes → bytes ∈ seen)
    (earlier later : List SignedStep)
    (within : ∀ signed ∈ earlier ++ later, Within seen signed) :
    let before := start.offers earlier
    let chain := start.offers (earlier ++ later)
    (∃ accepted, Trace seen start accepted before) ∧
    ∀ accepted, Trace seen start accepted before →
      (∃ more, Trace seen start (accepted ++ more) chain) ∧
      (∀ entry ∈ accepted, entry.2.step.digest = .ok entry.1) ∧
      (∀ id, Ended accepted id → before.grant id = none ∧ chain.grant id = none) ∧
      before.grantRevocationSerial.toNat = accepted.countP (·.2.revokes.isSome) ∧
      before.grantRevocationSerial ≤ chain.grantRevocationSerial ∧
      (∀ id grant, before.grants[id]? = some grant →
        Stands accepted before id grant ∧ ∀ entry ∈ accepted, entry.2.revokes ≠ some id) ∧
      (∀ id, before.status ≠ .active → before.grant id = none) := by
  intro before chain
  have sound := new_sound founded foundedWithin
  have first := Life.new founded
  obtain ⟨ranBefore, keyed⟩ :=
    offers_leaves sound.keyed fun signed there => within signed (mem_append_left _ there)
  have onward : Ran seen before chain := by
    rw [show chain = before.offers later from start.offers_append earlier later]
    exact (offers_leaves keyed fun signed there => within signed (mem_append_right _ there)).1
  refine ⟨Trace.start.goes_on free sound ranBefore, fun accepted trace => ?_⟩
  obtain ⟨more, further⟩ := trace.goes_on free sound onward
  have life := trace.life free sound first
  have lifeAfter := further.life free sound first
  refine ⟨⟨more, further⟩, life.hashed, ?_, life.serial, ?_, ?_, fun id idle => if_neg idle⟩
  · intro id ended
    exact ⟨life.grant_of_ended ended, lifeAfter.grant_of_ended (ended.append more)⟩
  · rw [UInt64.le_iff_toNat_le, life.serial, lifeAfter.serial, countP_append]
    exact Nat.le_add_right ..
  · intro id grant found
    refine ⟨life.stands id grant found, fun entry there revokes => ?_⟩
    obtain ⟨early, late, rfl⟩ := append_of_mem there
    exact (life.ended id ⟨early, entry, late, rfl, .inl revokes⟩).2 (mem_of_getElem? found)

end Lives

/-! ## A grant and its revocation -/

attribute [local instance] proposerSha256 nonemptyEd25519 anyP256 unitFrost

/-- A grant of one operation to one signer. -/
def pairGrant : Grant where
  hive := pairHive
  id := FixedBytes.replicate 16 7
  kind := .ownerAction
  consumer := "consumer"
  signer := pairPoint 1
  signerNode := FixedBytes.replicate 32 1
  signerRole := .device
  signerCustody := .file
  possession := FixedBytes.replicate 64 1
  notBefore := 0
  notAfter := 1
  issuerHead := FixedBytes.replicate 32 2
  issuerSequence := 0
  target := .hiveNodes pairHive
  operations := [⟨"open", .policy⟩]

def granting : SignedStep := pairStep 10 2 1 .grant (pairGrant.encode.toOption.getD [])

def revoking : SignedStep :=
  pairStep 11 10 2 .revokeGrant ((Revocation.encode {
    hive := pairHive, id := pairGrant.id, kind := .ownerAction, serial := 1
    issuerHead := FixedBytes.replicate 32 10, issuerSequence := 1 }).toOption.getD [])

/-- The grant stands after the first step, and the second takes the serial to one. -/
theorem grant_life_cycle_granted :
    (∃ accepted, Stands accepted (pairStart.offers [granting]) pairGrant.id pairGrant ∧
      (pairStart.offers [granting]).grantRevocationSerial.toNat =
        accepted.countP (·.2.revokes.isSome)) ∧
    (pairStart.offers ([granting] ++ [revoking])).grant pairGrant.id = none ∧
    (pairStart.offers ([granting] ++ [revoking])).grantRevocationSerial = 1 := by
  have free := pairSeen_free ([granting] ++ [revoking]) (by decide +kernel)
  obtain ⟨⟨accepted, trace⟩, every⟩ := grant_life_cycle free pairStart_founded (pairSeen_founded _)
    [granting] [revoking] (pairSeen_within _)
  obtain ⟨-, -, -, serial, -, stands, -⟩ := every accepted trace
  have found : (pairStart.offers [granting]).grants[pairGrant.id]? = some pairGrant := by
    decide +kernel
  exact ⟨⟨accepted, (stands _ _ found).1, serial⟩, by decide +kernel, by decide +kernel⟩

end Supgang.Threshold
