/-
# Threshold.Delivery — the order of delivery does not matter

The steps of one line of history are offered to a chain in any order and with any repetitions. A step
that comes early is held until its predecessor is known, so after each offer the chain has accepted
the longest delivered beginning of the line and holds the rest.

* `Extends`, `Follows` — one accepted step, and a line of them, before anything held is drained.
* `Later` — what accepted steps leave as it was; `Follows.again` — an accepted step offered again.
* `Stage` — where a delivery stands; `drain_stage`, `offer_stage` — one drain and one offer.
* `delivery_converges` — an unforked line converges; `delivery_forks` — two steps on its end fork.
-/
import Supgang.Threshold.Held

namespace Supgang.Threshold

set_option autoImplicit false
set_option linter.unusedSectionVars false

open Theory List

section Runs

variable [Sha256] [Ed25519] [P256] [Frost]
variable {seen : Set Bytes} {chain base middle last after : Chain} {signed : SignedStep}
  {digest : Digest} {held : Records} {entry : Digest × SignedStep}
  {line rest ends : List (Digest × SignedStep)}

/-! ## Accepted steps -/

/-- One accepted step: the chain after it, before anything held is drained. -/
inductive Extends (seen : Set Bytes) (chain : Chain) : Digest × SignedStep → Chain → Prop where
  | intro {signed : SignedStep} {digest : Digest} {succession : Option Succession}
      {context next : Context} (presented : Presented seen chain.hive signed digest succession)
      (admits : chain.Admits signed succession context next) (fresh : digest ∉ chain.records)
      (room : chain.records.size < maxRecords) (onTip : signed.step.predecessor = chain.tip)
      (valid : chain.validateGrantTransition signed.step = .ok ()) :
      Extends seen chain (digest, signed) (chain.extended signed digest next)

/-- Steps accepted one after the other. -/
inductive Follows (seen : Set Bytes) : Chain → List (Digest × SignedStep) → Chain → Prop where
  | nil (chain : Chain) : Follows seen chain [] chain
  | cons {chain middle last : Chain} {entry : Digest × SignedStep}
      {rest : List (Digest × SignedStep)} (step : Extends seen chain entry middle)
      (follows : Follows seen middle rest last) : Follows seen chain (entry :: rest) last

/-- What accepted steps leave as it was. -/
structure Later (before after : Chain) : Prop where
  hive : after.hive = before.hive
  active : before.status = .active → after.status = .active
  unforked : after.recoveryFork = before.recoveryFork
  generation : after.current.recoveryGen = before.current.recoveryGen
  recovery : after.recovery = before.recovery
  contexts : ∀ (digest : Digest) (context : Context), before.contexts[digest]? = some context →
    after.contexts[digest]? = some context
  records : ∀ digest ∈ before.records, digest ∈ after.records
  children : ∀ parent child : Digest, before.children[parent]? = some child →
    after.children[parent]? = some child
  pending : after.pending = before.pending

theorem Later.refl (chain : Chain) : Later chain chain :=
  ⟨rfl, id, rfl, rfl, rfl, fun _ _ => id, fun _ => id, fun _ _ => id, rfl⟩

theorem Later.trans {first second third : Chain} (early : Later first second)
    (late : Later second third) : Later first third where
  hive := late.hive.trans early.hive
  active active := late.active (early.active active)
  unforked := late.unforked.trans early.unforked
  generation := late.generation.trans early.generation
  recovery := late.recovery.trans early.recovery
  contexts digest context known := late.contexts digest context (early.contexts digest context known)
  records digest there := late.records digest (early.records digest there)
  children parent child there := late.children parent child (early.children parent child there)
  pending := late.pending.trans early.pending

theorem Later.known (later : Later chain after) {parent : Digest} (known : parent ∈ chain.contexts) :
    parent ∈ after.contexts := by
  obtain ⟨context, found⟩ := exists_getElem? known
  exact mem_of_getElem? (later.contexts parent context found)

variable {succession : Option Succession} {first : Digest × SignedStep}
  {done : List (Digest × SignedStep)} {current : Chain}

/-- A step that was admitted is admitted later as well. -/
theorem Later.admits (later : Later chain after) {context next : Context}
    (admits : chain.Admits signed succession context next) :
    after.Admits signed succession context next := by
  refine ⟨later.active admits.active, admits.permitted,
    admits.generation.trans later.generation.symm, later.contexts _ _ admits.known, ?_⟩
  obtain ⟨same, epoch, sequence, verified, rest⟩ := nextContext_eq_ok.mp admits.checked
  refine nextContext_eq_ok.mpr ⟨same.trans later.generation.symm, epoch, sequence, verified, ?_⟩
  rcases rest with plain | ⟨transition, higher, carried, planned⟩
  · exact .inl plain
  · exact .inr ⟨transition, higher, carried, planned.kind, planned.previousKey,
      planned.recovery.trans later.recovery.symm, planned.replaced, planned.separate, planned.label,
      planned.generation, planned.possession, planned.higher, planned.next⟩

section Accepted

variable (step : Extends seen chain entry after)

include step

theorem Extends.transition : Transition seen chain after := by
  cases step with
  | intro presented admits fresh room onTip valid =>
    exact .extend presented admits fresh room onTip valid

theorem Extends.hashed : entry.2.step.digest = .ok entry.1 := by
  cases step with
  | intro presented => exact presented.hashed

theorem Extends.fresh : entry.1 ∉ chain.records := by
  cases step with
  | intro _ _ fresh => exact fresh

theorem Extends.onTip : entry.2.step.predecessor = chain.tip := by
  cases step with
  | intro _ _ _ _ onTip => exact onTip

theorem Extends.presented : ∃ succession context next,
    Presented seen chain.hive entry.2 entry.1 succession ∧
      chain.Admits entry.2 succession context next ∧
      after = chain.extended entry.2 entry.1 next := by
  cases step with
  | intro presented admits => exact ⟨_, _, _, presented, admits, rfl⟩

theorem Extends.decoded : ∃ succession, transitionOf entry.2.step = .ok succession := by
  obtain ⟨succession, _, _, presented, -⟩ := step.presented
  exact ⟨succession, presented.decoded⟩

theorem Extends.admits (decoded : transitionOf entry.2.step = .ok succession) :
    ∃ context next, chain.Admits entry.2 succession context next := by
  obtain ⟨_, context, next, presented, admits, -⟩ := step.presented
  cases presented.decoded.symm.trans decoded
  exact ⟨context, next, admits⟩

theorem Extends.records (other : Digest) :
    other ∈ after.records ↔ other = entry.1 ∨ other ∈ chain.records := by
  cases step with
  | @intro signed digest _ _ next =>
    obtain ⟨_, _, _, eq⟩ := chain.extended_eq signed digest next
    rw [eq]
    exact mem_insert_iff

theorem Extends.after_eq :
    after.tip = entry.1 ∧ entry.1 ∈ after.records ∧
      after.children[chain.tip]? = some entry.1 ∧
      ∀ other, other ∈ after.contexts ↔ other = entry.1 ∨ other ∈ chain.contexts := by
  cases step with
  | @intro signed digest succession context next presented admits fresh room onTip valid =>
    obtain ⟨_, _, _, eq⟩ := chain.extended_eq signed digest next
    rw [eq]
    refine ⟨rfl, mem_insert_iff.mpr (.inl rfl), ?_, fun other => mem_insert_iff⟩
    rw [← onTip, getElem?_insert_eq, if_pos rfl]

theorem Extends.sound (free : CollisionFree seen) (sound : Sound seen chain) : Sound seen after :=
  sound.transition free step.transition

/-- The step is accepted, whatever the chain holds. -/
theorem Extends.run (sound : Sound seen chain) (decoded : transitionOf entry.2.step = .ok succession) (held : Records) :
    (acceptOrdinary entry.2 entry.1 succession).run (chain.holding held) =
      .ok .accepted (after.holding held) := by
  cases step with
  | @intro signed digest succession' context next presented admits fresh room onTip valid =>
    cases presented.decoded.symm.trans decoded
    have childless : chain.children[signed.step.predecessor]? = none := by
      refine Std.ExtTreeMap.getElem?_eq_none fun parent => ?_
      exact (sound.parents _ parent).2 onTip
    rw [acceptOrdinary_holding (mem_of_getElem? admits.known), acceptOrdinary_of_admits admits,
      extend_accepts fresh (by rw [childless]; rfl) room onTip valid]
    rfl

end Accepted

theorem Chain.forked_evidence (chain : Chain) (existing : Digest) (signed : SignedStep)
    (digest : Digest) (next : Context) :
    (chain.forked existing signed digest next).status = .halted ∧
      (chain.forked existing signed digest next).conflict = some ⟨existing, signed⟩ ∧
      (chain.forked existing signed digest next).recoveryFork = chain.recoveryFork ∧
      (chain.forked existing signed digest next).hive = chain.hive := by
  simp only [Chain.forked]
  split <;> exact ⟨rfl, rfl, rfl, rfl⟩

/-! ## Lines of accepted steps -/

theorem Follows.append (first : Follows seen chain line middle)
    (second : Follows seen middle rest last) : Follows seen chain (line ++ rest) last := by
  induction first with
  | nil => exact second
  | cons step _ ih => exact .cons step (ih second)

theorem Follows.split (follows : Follows seen chain (line ++ rest) last) :
    ∃ middle, Follows seen chain line middle ∧ Follows seen middle rest last := by
  induction line generalizing chain with
  | nil => exact ⟨chain, .nil chain, follows⟩
  | cons entry line ih =>
    cases follows with
    | cons step follows =>
      obtain ⟨middle, first, second⟩ := ih follows
      exact ⟨middle, .cons step first, second⟩

/-- A step of the line, where it was accepted. -/
theorem Follows.of_mem (follows : Follows seen chain line last) (there : entry ∈ line) :
    ∃ before behind middle after, line = before ++ entry :: behind ∧
      Follows seen chain before middle ∧ Extends seen middle entry after ∧
      Follows seen after behind last := by
  obtain ⟨before, behind, rfl⟩ := append_of_mem there
  obtain ⟨middle, first, second⟩ := follows.split
  cases second with
  | cons step rest => exact ⟨before, behind, middle, _, rfl, first, step, rest⟩

theorem Follows.sound (free : CollisionFree seen) (sound : Sound seen chain)
    (follows : Follows seen chain line last) : Sound seen last := by
  induction follows with
  | nil => exact sound
  | cons step _ ih => exact ih (step.sound free sound)

/-- What the line makes known. -/
theorem Follows.contexts (follows : Follows seen chain line last) (other : Digest) :
    other ∈ last.contexts ↔ other ∈ chain.contexts ∨ ∃ entry ∈ line, entry.1 = other := by
  induction follows with
  | nil => simp
  | cons step _ ih =>
    rw [ih, step.after_eq.2.2.2 other]
    simp only [mem_cons, exists_eq_or_imp]
    tauto

theorem Follows.records (follows : Follows seen chain line last) (other : Digest) :
    other ∈ last.records ↔ other ∈ chain.records ∨ ∃ entry ∈ line, entry.1 = other := by
  induction follows with
  | nil => simp
  | cons step _ ih =>
    rw [ih, step.records other]
    simp only [mem_cons, exists_eq_or_imp]
    tauto

theorem Follows.tip (follows : Follows seen chain line last) (nonempty : line ≠ []) :
    ∃ entry ∈ line, last.tip = entry.1 := by
  induction follows with
  | nil => exact absurd rfl nonempty
  | @cons chain middle last entry rest step follows ih =>
    cases follows with
    | nil => exact ⟨entry, mem_cons_self, step.after_eq.1⟩
    | cons step' follows' =>
      obtain ⟨found, there, tip⟩ := ih (cons_ne_nil _ _)
      exact ⟨found, mem_cons_of_mem _ there, tip⟩

section Keeping

variable (free : CollisionFree seen) (sound : Sound seen chain)

include free sound

theorem Extends.later (step : Extends seen chain entry after) : Later chain after := by
  cases step with
  | @intro signed digest succession context next presented admits fresh room onTip valid =>
    have unknown := sound.fresh free presented fresh
    obtain ⟨_, _, _, eq⟩ := chain.extended_eq signed digest next
    rw [eq]
    refine ⟨rfl, id, rfl, admits.generation_eq, rfl, ?_, ?_, ?_, rfl⟩
    · intro other context found
      rw [getElem?_insert_eq, if_neg ?_]
      · exact found
      · rintro rfl
        exact unknown (mem_of_getElem? found)
    · intro other there
      exact mem_insert_iff.mpr (.inr there)
    · intro parent child found
      rw [getElem?_insert_eq, if_neg ?_]
      · exact found
      · rintro rfl
        exact (sound.parents _ (mem_of_getElem? found)).2 onTip

/-- Another step on the same predecessor is a fork from then on, whatever the chain holds. -/
theorem Extends.forks (step : Extends seen chain entry after) {other : Digest × SignedStep}
    {rival final : Chain} (rivals : Extends seen chain other rival) (different : other.1 ≠ entry.1)
    (onward : Later after final) (fresh : other.1 ∉ final.records)
    (decoded : transitionOf other.2.step = .ok succession) (held : Records) :
    ∃ forked, (acceptOrdinary other.2 other.1 succession).run (final.holding held) = .ok .fork forked ∧
      forked.status = .halted ∧ forked.conflict = some ⟨entry.1, other.2⟩ ∧
      forked.recoveryFork = final.recoveryFork ∧ forked.hive = final.hive := by
  obtain ⟨-, -, child, -⟩ := step.after_eq
  obtain ⟨context, next, admits⟩ := rivals.admits decoded
  have admits := ((step.later free sound).trans onward).admits admits
  rw [← rivals.onTip] at child
  refine ⟨(final.forked entry.1 other.2 other.1 next).holding held, ?_, ?_⟩
  · rw [acceptOrdinary_holding (mem_of_getElem? admits.known), acceptOrdinary_of_admits admits,
      extend_forks fresh (onward.children _ _ child) different.symm]
    rfl
  · exact final.forked_evidence entry.1 other.2 other.1 next

theorem Follows.later (follows : Follows seen chain line last) : Later chain last := by
  induction follows with
  | nil chain => exact .refl chain
  | cons step _ ih => exact (step.later free sound).trans (ih (step.sound free sound))

/-- No step of the line was known or recorded before it. -/
theorem Follows.fresh (follows : Follows seen chain line last) :
    ∀ entry ∈ line, entry.1 ∉ chain.contexts ∧ entry.1 ∉ chain.records := by
  induction follows with
  | nil => simp
  | @cons chain middle last entry rest step follows ih =>
    intro found there
    obtain ⟨_, _, _, presented, -⟩ := step.presented
    have later := step.later free sound
    rcases mem_cons.mp there with rfl | there
    · exact ⟨sound.fresh free presented step.fresh, step.fresh⟩
    · obtain ⟨unknown, unrecorded⟩ := ih (step.sound free sound) found there
      exact ⟨fun known => unknown (later.known known),
        fun recorded => unrecorded (later.records _ recorded)⟩

theorem Follows.nodup (follows : Follows seen chain line last) : (line.map Prod.fst).Nodup := by
  induction follows with
  | nil => exact nodup_nil
  | @cons chain middle last entry rest step follows ih =>
    refine nodup_cons.mpr ⟨?_, ih (step.sound free sound)⟩
    intro again
    obtain ⟨found, there, same⟩ := mem_map.mp again
    have unrecorded := (follows.fresh free (step.sound free sound) found there).2
    rw [same] at unrecorded
    exact unrecorded step.after_eq.2.1

/-- Behind the next step of the line, every step stands on what is still unknown. -/
theorem Follows.unknown (follows : Follows seen chain (entry :: rest) last) :
    (∀ later ∈ rest, later.2.step.predecessor ∉ chain.contexts) ∧ last.tip ∉ chain.contexts := by
  have fresh := follows.fresh free sound
  constructor
  · intro later there
    obtain ⟨before, behind, rfl⟩ := append_of_mem there
    rw [← cons_append] at follows
    obtain ⟨middle, first, second⟩ := follows.split
    cases second with
    | cons step _ =>
      obtain ⟨found, inside, tip⟩ := first.tip (cons_ne_nil _ _)
      rw [step.onTip, tip]
      exact (fresh found (by
        rw [← cons_append]
        exact mem_append_left _ inside)).1
  · obtain ⟨found, inside, tip⟩ := follows.tip (cons_ne_nil _ _)
    rw [tip]
    exact (fresh found inside).1

/-- A step of the line offered again is known. -/
theorem Follows.again (follows : Follows seen chain line last) (there : entry ∈ line)
    (onward : Later last after) (decoded : transitionOf entry.2.step = .ok succession)
    (held : Records) : (acceptOrdinary entry.2 entry.1 succession).run (after.holding held) =
      .ok .duplicate (after.holding held) := by
  obtain ⟨_, _, middle, _, -, first, step, rest⟩ := follows.of_mem there
  have sound := first.sound free sound
  have late := (rest.later free (step.sound free sound)).trans onward
  obtain ⟨context, next, admits⟩ := step.admits decoded
  have admits := ((step.later free sound).trans late).admits admits
  rw [acceptOrdinary_holding (mem_of_getElem? admits.known), acceptOrdinary_of_admits admits,
    extend_duplicate (late.records _ step.after_eq.2.1)]
  rfl

end Keeping

/-! ## Histories -/

/-- A step that its own checks refuse, and not for a bound. -/
inductive Chain.Refuses (chain : Chain) (signed : SignedStep) : Prop where
  | reserved (reserved : signed.step.operation = .setRecoveryGroup ∨
      signed.step.operation = .reshare)
  | generation (other : signed.step.recoveryGen ≠ chain.current.recoveryGen)
  | checks {succession : Option Succession} {context : Context} {e : Error}
      (decoded : transitionOf signed.step = .ok succession)
      (known : chain.contexts[signed.step.predecessor]? = some context)
      (refused : chain.nextContext signed context succession = .error e) (unbound : e ≠ .bound)
  | grants {succession : Option Succession} {context next : Context} {e : Error}
      (decoded : transitionOf signed.step = .ok succession)
      (admits : chain.Admits signed succession context next)
      (room : chain.records.size < maxRecords) (onTip : signed.step.predecessor = chain.tip)
      (refused : chain.validateGrantTransition signed.step = .error e) (unbound : e ≠ .bound)

/-- A refused record is dropped by the drain. -/
theorem Chain.Refuses.dropped (refuses : chain.Refuses signed) (sound : Sound seen chain)
    (active : chain.status = .active) (decoded : transitionOf signed.step = .ok succession)
    (known : signed.step.predecessor ∈ chain.contexts) (digest : Digest) (held : Records)
    (rounds : Nat) :
    carryOn rounds ((acceptOrdinary signed digest succession).run (chain.holding held)) =
      (drainLoop rounds).run (chain.holding held) := by
  rw [acceptOrdinary_holding known]
  cases refuses with
  | reserved reserved =>
    rw [acceptOrdinary_run, Chain.judgement, if_neg (not_not.mpr active), if_pos reserved]
    rfl
  | generation other =>
    rw [acceptOrdinary_run, Chain.judgement, if_neg (not_not.mpr active), if_pos other, ite_self]
    rfl
  | checks decoded' here refused unbound =>
    cases decoded.symm.trans decoded'
    rw [acceptOrdinary_run, Chain.judgement, if_neg (not_not.mpr active), here]
    simp only [refused]
    split
    · rfl
    split
    · rfl
    · exact carryOn_error unbound rounds _
  | grants decoded' admits room onTip refused unbound =>
    cases decoded.symm.trans decoded'
    have childless : chain.children[signed.step.predecessor]? = none :=
      Std.ExtTreeMap.getElem?_eq_none fun parent => (sound.parents _ parent).2 onTip
    rw [acceptOrdinary_of_admits admits, extend_run, Chain.extension, childless]
    simp only [Option.filter_none, if_neg (not_le.mpr room), if_neg (not_not.mpr onTip), refused]
    split
    · rfl
    · exact carryOn_error unbound rounds _

/-- Whichever of the held records were accepted behind the chain, any other that then stands on what
is known is accepted next or refused by its own checks: they do not fork and meet no bound. -/
def Orderly (seen : Set Bytes) (held : Records) (chain : Chain) : Prop :=
  ∀ line after, Follows seen chain line after →
    (∀ entry ∈ line, held[entry.1]? = some entry.2) →
    ∀ (digest : Digest) (signed : SignedStep), held[digest]? = some signed →
      signed.step.predecessor ∈ after.contexts →
      (digest, signed) ∈ line ∨ after.Refuses signed ∨
        ∃ next, Extends seen after (digest, signed) next

/-- A line of steps that a chain would accept one after the other and steps it would each accept at
its end, with room to hold them all. The records held before are refused on the line and orderly
behind its end. -/
structure Branches (seen : Set Bytes) (base : Chain) (line ends : List (Digest × SignedStep))
    (last : Chain) : Prop where
  active : base.status = .active
  follows : Follows seen base line last
  acceptable : ∀ entry ∈ ends, ∃ after, Extends seen last entry after
  distinct : (ends.map Prod.fst).Nodup
  foreign : ∀ done rest current, line = done ++ rest → Follows seen base done current →
    ∀ (digest : Digest) (signed : SignedStep), base.pending[digest]? = some signed →
      signed.step.predecessor ∈ current.contexts → current.Refuses signed
  behind : ∀ entry ∈ ends, ∀ after, Extends seen last entry after →
    Orderly seen base.pending after
  room : base.pending.size + (line ++ ends).length ≤ maxRecords

/-- Branches of a sound chain. -/
structure History (seen : Set Bytes) (base : Chain) (line ends : List (Digest × SignedStep))
    (last : Chain) : Prop extends Branches seen base line ends last where
  free : CollisionFree seen
  sound : Sound seen base

/-- What is held was held before or is a step of `rest` or `ends`, and of these all that were
delivered wait. -/
structure Waiting (base : Chain) (rest ends : List (Digest × SignedStep))
    (delivered : List SignedStep) (held : Records) : Prop where
  origin : ∀ (digest : Digest) (signed : SignedStep), held[digest]? = some signed →
    base.pending[digest]? = some signed ∨ ((digest, signed) ∈ rest ++ ends ∧ signed ∈ delivered)
  waits : ∀ entry ∈ rest ++ ends, entry.2 ∈ delivered → held[entry.1]? = some entry.2

/-- A step of a history, in terms of its beginning. -/
structure Belongs (seen : Set Bytes) (base : Chain) (entry : Digest × SignedStep) : Prop where
  presented : ∃ succession, Presented seen base.hive entry.2 entry.1 succession ∧
    ∀ transition ∈ succession, transition.kind = .planned
  permitted : entry.2.step.operation ≠ .setRecoveryGroup ∧ entry.2.step.operation ≠ .reshare
  generation : entry.2.step.recoveryGen = base.current.recoveryGen

variable {delivered : List SignedStep}

theorem Follows.belongs (free : CollisionFree seen) (sound : Sound seen base)
    (follows : Follows seen base line last) (step : Extends seen last entry after) :
    Belongs seen base entry := by
  have later := follows.later free sound
  obtain ⟨succession, _, _, presented, admits, -⟩ := step.presented
  exact ⟨⟨succession, later.hive ▸ presented, admits.planned⟩, admits.permitted,
    admits.generation.trans later.generation⟩

/-- A step that has not been delivered does not wait. -/
theorem Waiting.skip (waiting : Waiting base (entry :: rest) ends delivered held)
    (undelivered : entry.2 ∉ delivered) : Waiting base rest ends delivered held := by
  refine ⟨fun digest signed found => ?_, fun other there => waiting.waits other (mem_cons_of_mem _ there)⟩
  refine (waiting.origin digest signed found).imp_right fun ⟨there, waits⟩ => ⟨?_, waits⟩
  rcases mem_cons.mp there with rfl | there
  · exact absurd waits undelivered
  · exact there

/-- With none of the steps delivered, only what was held before is held. -/
theorem Waiting.none (waiting : Waiting base [] ends delivered held)
    (undelivered : ∀ entry ∈ ends, entry.2 ∉ delivered) :
    ∀ (digest : Digest) (signed : SignedStep), held[digest]? = some signed →
      base.pending[digest]? = some signed := by
  intro digest signed found
  refine (waiting.origin digest signed found).resolve_right ?_
  rintro ⟨there, waits⟩
  exact undelivered _ there waits

/-- Offering a step that no waiting step is does not change what waits. -/
theorem Waiting.deliver (waiting : Waiting base rest ends delivered held)
    (elsewhere : ∀ digest, (digest, signed) ∉ rest ++ ends) :
    Waiting base rest ends (signed :: delivered) held := by
  refine ⟨fun digest other found => ?_, fun other there waits => ?_⟩
  · exact (waiting.origin digest other found).imp_right fun ⟨there, waits⟩ =>
      ⟨there, mem_cons_of_mem _ waits⟩
  · refine waiting.waits other there ((mem_cons.mp waits).resolve_left ?_)
    rintro rfl
    exact elsewhere _ there

/-- A record is taken: the others that were delivered still wait. -/
theorem Waiting.erase {rest' ends' : List (Digest × SignedStep)}
    (waiting : Waiting base rest ends delivered held)
    (fewer : ∀ other ∈ rest' ++ ends', other ∈ rest ++ ends ∧
      (other.2 ∈ delivered → digest ≠ other.1))
    (only : ∀ other ∈ rest ++ ends, other.2 ∈ delivered → other.1 = digest ∨
      other ∈ rest' ++ ends') :
    Waiting base rest' ends' delivered (held.erase digest) := by
  refine ⟨fun other signed found => ?_, fun other there waits => ?_⟩
  · rw [getElem?_erase_eq] at found
    split at found
    · cases found
    · rename_i apart
      refine (waiting.origin other signed found).imp_right fun ⟨there, waits⟩ => ⟨?_, waits⟩
      exact (only _ there waits).resolve_left (Ne.symm apart)
  · obtain ⟨there, apart⟩ := fewer other there
    rw [getElem?_erase_eq, if_neg (apart waits)]
    exact waiting.waits other there waits

/-- A record that is none of the delivered steps is dropped. -/
theorem Waiting.drop (waiting : Waiting base rest ends delivered held)
    (found : held[digest]? = some signed)
    (other : ¬((digest, signed) ∈ rest ++ ends ∧ signed ∈ delivered)) :
    Waiting base rest ends delivered (held.erase digest) := by
  refine waiting.erase (fun entry there => ⟨there, fun waits same => ?_⟩)
    fun entry there _ => .inr there
  subst same
  have here := waiting.waits entry there waits
  rw [found] at here
  cases here
  exact other ⟨there, waits⟩

/-- There is room for what waits. -/
theorem Waiting.size_le (waiting : Waiting base rest ends delivered held) :
    held.size ≤ base.pending.size + (rest ++ ends).length := by
  have keys : held.keys ⊆ base.pending.keys ++ (rest ++ ends).map Prod.fst := by
    intro digest there
    obtain ⟨signed, found⟩ := exists_getElem? (Std.ExtTreeMap.mem_keys.mp there)
    rcases waiting.origin digest signed found with before | ⟨inside, -⟩
    · exact mem_append_left _ (Std.ExtTreeMap.mem_keys.mpr (mem_of_getElem? before))
    · exact mem_append_right _ (mem_map.mpr ⟨_, inside, rfl⟩)
  have short := (Std.ExtTreeMap.nodup_keys (t := held)).subperm keys |>.length_le
  simpa [Std.ExtTreeMap.length_keys] using short

/-- A step whose predecessor is still missing is held. -/
theorem Later.holds (later : Later base chain) (active : base.status = .active)
    (belongs : Belongs seen base entry) (unknown : entry.2.step.predecessor ∉ chain.contexts)
    (room : held.size < maxRecords) (succession : Option Succession) :
    (acceptOrdinary entry.2 entry.1 succession).run (chain.holding held) =
      .ok .held (chain.holding (held.insert entry.1 entry.2)) := by
  have missing : (chain.holding held).contexts[entry.2.step.predecessor]? = none :=
    Std.ExtTreeMap.getElem?_eq_none unknown
  have generation : entry.2.step.recoveryGen = (chain.holding held).current.recoveryGen :=
    belongs.generation.trans later.generation.symm
  have active' : (chain.holding held).status = .active := later.active active
  rw [acceptOrdinary_run, Chain.judgement, if_neg (not_not.mpr active'),
    if_neg (not_or.mpr belongs.permitted), if_neg (not_not.mpr generation), missing]
  exact if_neg (not_le.mpr room)

theorem mem_of_behind (split : line = done ++ rest) : ∀ other ∈ rest ++ ends, other ∈ line ++ ends := by
  intro other there
  rw [split, append_assoc]
  exact mem_append_right _ there

/-- An answer that is not an acceptance leaves the chain to itself. -/
theorem offer_of_ordinary {outcome : Outcome}
    (run : (accept signed).run chain = (acceptOrdinary signed digest succession >>= settle).run
      chain)
    (ordinary : (acceptOrdinary signed digest succession).run chain = .ok outcome after)
    (refused : outcome ≠ .accepted) :
    (∃ outcome, chain.answer signed = .ok outcome) ∧ chain.offer signed = after := by
  rw [EStateM.run_bind, ordinary] at run
  obtain ⟨answer, offer⟩ := answer_offer (run.trans (settle_of_ne refused after))
  exact ⟨⟨_, answer⟩, offer⟩

/-- An acceptance is followed by a drain. -/
theorem offer_of_accepted {final : Chain}
    (run : (accept signed).run chain = (acceptOrdinary signed digest succession >>= settle).run
      chain)
    (ordinary : (acceptOrdinary signed digest succession).run chain = .ok .accepted after)
    (drained : drainPending.run after = .ok () final) :
    (∃ outcome, chain.answer signed = .ok outcome) ∧ chain.offer signed = final := by
  rw [EStateM.run_bind, ordinary] at run
  have settled : (settle .accepted).run after =
      .ok (if final.status = .halted then .fork else .accepted) final := by
    rw [settle, follow, if_pos rfl, EStateM.run_bind, drained]
    rfl
  obtain ⟨answer, offer⟩ := answer_offer (run.trans settled)
  exact ⟨⟨_, answer⟩, offer⟩

/-! ## Stages of a delivery -/

section Stages

variable (seen : Set Bytes) (base : Chain) (line ends : List (Digest × SignedStep)) (last : Chain)
  (delivered : List SignedStep)

/-- Where a delivery stands, by the steps delivered so far. -/
inductive Stage : Chain → Prop where
  /-- The next step of the line is missing. -/
  | growing {done rest : List (Digest × SignedStep)} {first : Digest × SignedStep}
      {current : Chain} {held : Records} (split : line = done ++ first :: rest)
      (follows : Follows seen base done current) (onward : Follows seen current (first :: rest)
        last)
      (undelivered : first.2 ∉ delivered) (waiting : Waiting base rest ends delivered held) :
      Stage (current.holding held)
  /-- The whole line is accepted. -/
  | complete {held : Records} (undelivered : ∀ entry ∈ ends, entry.2 ∉ delivered)
      (kept : ∀ (digest : Digest) (signed : SignedStep), held[digest]? = some signed →
        base.pending[digest]? = some signed) : Stage (last.holding held)
  /-- One of the steps at the end is accepted, and perhaps records held before behind it. -/
  | chosen {entry : Digest × SignedStep} {after final : Chain}
      {tail : List (Digest × SignedStep)} {held : Records} (chosen : entry ∈ ends)
      (step : Extends seen last entry after) (follows : Follows seen after tail final)
      (undelivered : ∀ other ∈ ends, other ≠ entry → other.2 ∉ delivered) :
      Stage (final.holding held)
  /-- A second one forked the chain. -/
  | forked {first second : Digest × SignedStep} {chain : Chain} (one : first ∈ ends)
      (two : second ∈ ends) (different : first ≠ second) (halted : chain.status = .halted)
      (conflict : chain.conflict = some ⟨first.1, second.2⟩) (unforked : chain.recoveryFork = false)
      (hive : chain.hive = base.hive) : Stage chain

/-- Where a drain stands: on the line, or behind one of the steps at its end. -/
inductive Draining : Chain → Prop where
  | line {done rest : List (Digest × SignedStep)} {current : Chain} {held : Records}
      (split : line = done ++ rest) (follows : Follows seen base done current)
      (onward : Follows seen current rest last)
      (waiting : Waiting base rest ends delivered held) : Draining (current.holding held)
  | behind {entry : Digest × SignedStep} {after final : Chain}
      {tail : List (Digest × SignedStep)} {held : Records} (there : entry ∈ ends)
      (step : Extends seen last entry after) (follows : Follows seen after tail final)
      (before : ∀ record ∈ tail, base.pending[record.1]? = some record.2)
      (waiting : Waiting base [] (ends.filter (· ≠ entry)) delivered held) :
      Draining (final.holding held)

end Stages

section Delivering

variable (history : History seen base line ends last)

include history

theorem History.belongs : ∀ entry ∈ line ++ ends, Belongs seen base entry := by
  intro entry there
  rcases mem_append.mp there with inside | atEnd
  · obtain ⟨_, _, _, _, rfl, first, step, -⟩ := history.follows.of_mem inside
    exact first.belongs history.free history.sound step
  · obtain ⟨after, step⟩ := history.acceptable entry atEnd
    exact history.follows.belongs history.free history.sound step

theorem History.nodup : ((line ++ ends).map Prod.fst).Nodup := by
  rw [map_append]
  refine List.Nodup.append (history.follows.nodup history.free history.sound) history.distinct ?_
  intro digest inside atEnd
  obtain ⟨entry, there, rfl⟩ := mem_map.mp inside
  obtain ⟨other, thereToo, same⟩ := mem_map.mp atEnd
  obtain ⟨after, step⟩ := history.acceptable other thereToo
  refine step.fresh ((history.follows.records other.1).mpr (.inr ⟨entry, there, same.symm⟩))

/-- The steps of a history are told apart by their digests, and by their contents. -/
theorem History.same_of_digest {second : Digest × SignedStep} (one : first ∈ line ++ ends)
    (two : second ∈ line ++ ends) (same : first.1 = second.1) : first = second :=
  inj_on_of_nodup_map history.nodup one two same

theorem History.same_of_signed {second : Digest × SignedStep} (one : first ∈ line ++ ends)
    (two : second ∈ line ++ ends) (same : first.2 = second.2) : first = second := by
  refine history.same_of_digest one two ?_
  obtain ⟨_, presented, -⟩ := (history.belongs first one).presented
  obtain ⟨_, presented', -⟩ := (history.belongs second two).presented
  have hashed := presented.hashed
  rw [same, presented'.hashed] at hashed
  exact (Except.ok.inj hashed).symm

/-- A delivery begins at the first stage. -/
theorem History.begins : Stage seen base line ends last [] base := by
  rw [← base.holding_self]
  cases line with
  | nil =>
    cases history.follows
    exact .complete (fun _ _ => not_mem_nil) fun _ _ => id
  | cons first rest =>
    exact .growing (nil_append (first :: rest)).symm (.nil base) history.follows not_mem_nil
      ⟨fun _ _ => .inl, fun _ _ none => nomatch none⟩

theorem History.last_sound : Sound seen last := history.follows.sound history.free history.sound

theorem History.end_known (there : entry ∈ ends) :
    entry.2.step.predecessor = last.tip ∧ entry.2.step.predecessor ∈ last.contexts := by
  obtain ⟨after, step⟩ := history.acceptable entry there
  refine ⟨step.onTip, ?_⟩
  rw [step.onTip]
  exact mem_of_getElem? history.last_sound.tipContext

/-- Steps accepted behind one end leave the others unrecorded. -/
theorem History.unrecorded {final : Chain} {tail : List (Digest × SignedStep)}
    {other : Digest × SignedStep} (there : entry ∈ ends) (step : Extends seen last entry after)
    (follows : Follows seen after tail final) (thereToo : other ∈ ends) (different : other ≠ entry) :
    other.1 ≠ entry.1 ∧ other.1 ∉ final.records := by
  obtain ⟨rival, rivals⟩ := history.acceptable other thereToo
  have apart : other.1 ≠ entry.1 := fun same => different
    (history.same_of_digest (mem_append_right _ thereToo) (mem_append_right _ there) same)
  have whole : Follows seen last (entry :: tail) final := .cons step follows
  refine ⟨apart, fun recorded => ?_⟩
  rcases (whole.records _).mp recorded with before | ⟨record, inside, same⟩
  · exact rivals.fresh before
  rcases mem_cons.mp inside with rfl | inside
  · exact apart same.symm
  · -- It would stand where the other does, on the end of the line.
    have unknown := (whole.unknown history.free history.last_sound).1 record inside
    obtain ⟨_, _, middle, _, -, first, again, -⟩ := whole.of_mem (mem_cons_of_mem _ inside)
    obtain ⟨_, _, _, presented, -⟩ := again.presented
    obtain ⟨_, _, _, presented', -⟩ := rivals.presented
    have hashed := presented'.hashed
    rw [← same] at hashed
    have equal := digest_inj history.free presented.within presented'.within presented.hashed hashed
    rw [equal] at unknown
    exact unknown (history.end_known thereToo).2

theorem History.onward {final : Chain} {tail : List (Digest × SignedStep)}
    (step : Extends seen last entry after) (follows : Follows seen after tail final) :
    Later base last ∧ Later last after ∧ Later after final ∧ Sound seen final := by
  have sound := history.last_sound
  have sound' := step.sound history.free sound
  exact ⟨history.follows.later history.free history.sound, step.later history.free sound,
    follows.later history.free sound', follows.sound history.free sound'⟩

/-- A second step at the end forks the chain. -/
theorem History.forks {final : Chain} {tail : List (Digest × SignedStep)}
    {other : Digest × SignedStep} (there : entry ∈ ends) (step : Extends seen last entry after)
    (follows : Follows seen after tail final) (thereToo : other ∈ ends) (different : other ≠ entry)
    (decoded : transitionOf other.2.step = .ok succession) (held : Records) :
    ∃ forked, (acceptOrdinary other.2 other.1 succession).run (final.holding held) =
      .ok .fork forked ∧ forked.status = .halted ∧
      ∀ delivered, Stage seen base line ends last delivered forked := by
  obtain ⟨begun, later, onward, -⟩ := history.onward step follows
  obtain ⟨rival, rivals⟩ := history.acceptable other thereToo
  obtain ⟨apart, fresh⟩ := history.unrecorded there step follows thereToo different
  obtain ⟨forked, run, halted, conflict, fork, hive⟩ := step.forks history.free
    history.last_sound rivals apart onward fresh decoded held
  refine ⟨forked, run, halted, fun delivered => .forked there thereToo different.symm halted conflict
    ?_ ?_⟩
  · rw [fork, onward.unforked, later.unforked, begun.unforked]
    exact history.sound.unforked history.active
  · rw [hive, onward.hive, later.hive, begun.hive]

/-- A drain with nothing ready is done. -/
theorem Draining.idle (draining : Draining seen base line ends last delivered chain)
    (idle : chain.ready = none) : Stage seen base line ends last delivered chain := by
  cases draining with
  | @line done rest current held split follows onward waiting =>
    cases rest with
    | nil =>
      cases onward
      have undelivered : ∀ entry ∈ ends, entry.2 ∉ delivered := fun entry there delivers =>
        ready_eq_none.mp idle entry.1 entry.2 (waiting.waits entry there delivers)
          (history.end_known there).2
      exact .complete undelivered (waiting.none undelivered)
    | cons first rest =>
      have undelivered : first.2 ∉ delivered := by
        intro delivers
        refine ready_eq_none.mp idle first.1 first.2
          (waiting.waits first mem_cons_self delivers) ?_
        cases onward with
        | cons step _ =>
          rw [step.onTip]
          exact mem_of_getElem? (follows.sound history.free history.sound).tipContext
      exact .growing split follows onward undelivered (waiting.skip undelivered)
  | @behind entry after final tail held there step follows before waiting =>
    obtain ⟨-, later, onward, -⟩ := history.onward step follows
    refine .chosen there step follows fun other thereToo different delivers => ?_
    refine ready_eq_none.mp idle other.1 other.2 (waiting.waits other ?_ delivers) ?_
    · exact mem_filter.mpr ⟨thereToo, decide_eq_true different⟩
    · exact onward.known (later.known (history.end_known thereToo).2)

/-- Only the next step of the line, or one at its end behind it, is ready of those that wait. -/
theorem History.ready_next (split : line = done ++ rest) (follows : Follows seen base done current)
    (onward : Follows seen current rest last) (there : (digest, signed) ∈ rest ++ ends)
    (standing : signed.step.predecessor ∈ current.contexts) :
    (rest = [] ∧ (digest, signed) ∈ ends) ∨ ∃ behind, rest = (digest, signed) :: behind := by
  cases rest with
  | nil => exact .inl ⟨rfl, there⟩
  | cons entry rest =>
    obtain ⟨behind, tip⟩ := onward.unknown history.free (follows.sound history.free history.sound)
    rw [cons_append, mem_cons, mem_append] at there
    rcases there with rfl | later | atEnd
    · exact .inr ⟨rest, rfl⟩
    · exact absurd standing (behind _ later)
    · rw [(history.end_known atEnd).1] at standing
      exact absurd standing tip

/-- **One round of a drain.** The record it takes is accepted or dropped, or it forks the chain. -/
theorem Draining.round (draining : Draining seen base line ends last delivered chain)
    (ready : chain.ready = some (digest, signed)) :
    ∃ next, (∀ rounds, (drainLoop (rounds + 1)).run chain = (drainLoop rounds).run next) ∧
      ((Draining seen base line ends last delivered next ∧ next.pending.size < chain.pending.size) ∨
        (Stage seen base line ends last delivered next ∧ next.status = .halted)) := by
  obtain ⟨found, standing, -⟩ := first_spec ready
  have standing : signed.step.predecessor ∈ chain.contexts := of_decide_eq_true standing
  have smaller := size_erase_lt found
  -- What was held before was presented, and a drain leaves it as it was.
  have decodes : base.pending[digest]? = some signed →
      ∃ succession, transitionOf signed.step = .ok succession := fun before => by
    obtain ⟨succession, presented⟩ := history.sound.keyed digest signed before
    exact ⟨succession, presented.decoded⟩
  cases draining with
  | @line done rest current held split follows onward waiting =>
    have sound := follows.sound history.free history.sound
    have active : (current.holding held).status = .active :=
      (follows.later history.free history.sound).active history.active
    by_cases genuine : (digest, signed) ∈ rest ++ ends ∧ signed ∈ delivered
    swap
    · have before := (waiting.origin digest signed found).resolve_right genuine
      obtain ⟨succession, decoded⟩ := decodes before
      have refuses := history.foreign done rest current split follows digest signed before standing
      refine ⟨current.holding (held.erase digest), fun rounds => ?_,
        .inl ⟨.line split follows onward (waiting.drop found genuine), smaller⟩⟩
      rw [drainLoop_judge active ready decoded]
      exact refuses.dropped sound active decoded standing digest _ rounds
    obtain ⟨there, waits⟩ := genuine
    have inside := mem_of_behind split _ there
    have apart : ∀ other ∈ rest ++ ends, other ≠ (digest, signed) → digest ≠ other.1 :=
      fun other thereToo different same => different
        (history.same_of_digest (mem_of_behind split _ thereToo) inside same.symm)
    rcases history.ready_next split follows onward there standing with ⟨rfl, atEnd⟩ | ⟨behind, rfl⟩
    · cases onward
      obtain ⟨after, step⟩ := history.acceptable _ atEnd
      obtain ⟨succession, decoded⟩ := step.decoded
      refine ⟨after.holding (held.erase digest), fun rounds => drainLoop_take active ready decoded
        (step.run sound decoded _) rounds, .inl ⟨.behind atEnd step (.nil after) nofun
          (waiting.erase (fun other thereToo => ?_) fun other thereToo _ => ?_), smaller⟩⟩
      · obtain ⟨thereToo, different⟩ := mem_filter.mp thereToo
        exact ⟨thereToo, fun _ => apart other thereToo (of_decide_eq_true different)⟩
      · by_cases same : other = (digest, signed)
        · exact .inl (by rw [same])
        · exact .inr (mem_filter.mpr ⟨thereToo, decide_eq_true same⟩)
    · cases onward with
      | @cons _ middle _ _ _ step onward =>
        obtain ⟨succession, decoded⟩ := step.decoded
        have split' : line = (done ++ [(digest, signed)]) ++ behind := by simp [split]
        refine ⟨middle.holding (held.erase digest), fun rounds => drainLoop_take active ready
          decoded (step.run sound decoded _) rounds, .inl ⟨.line split' (follows.append (.cons step
            (.nil _))) onward (waiting.erase (fun other thereToo => ?_) fun other thereToo _ => ?_),
            smaller⟩⟩
        · refine ⟨mem_cons_of_mem _ thereToo, fun _ => apart other (mem_cons_of_mem _ thereToo) ?_⟩
          rintro rfl
          have nodup := history.nodup
          rw [split, append_assoc, cons_append, map_append, map_cons] at nodup
          exact (nodup_cons.mp (nodup_append.mp nodup).2.1).1 (mem_map.mpr ⟨_, thereToo, rfl⟩)
        · rcases mem_cons.mp thereToo with same | thereToo
          · exact .inl (by rw [same])
          · exact .inr thereToo
  | @behind entry after final tail held there step follows before waiting =>
    obtain ⟨begun, later, onward, sound⟩ := history.onward step follows
    have active : (final.holding held).status = .active :=
      onward.active (later.active (begun.active history.active))
    by_cases genuine : (digest, signed) ∈ [] ++ ends.filter (· ≠ entry) ∧ signed ∈ delivered
    · obtain ⟨thereToo, different⟩ := mem_filter.mp genuine.1
      obtain ⟨rival, rivals⟩ := history.acceptable _ thereToo
      obtain ⟨succession, decoded⟩ := rivals.decoded
      obtain ⟨forked, run, halted, stage⟩ := history.forks there step follows thereToo
        (of_decide_eq_true different) decoded (held.erase digest)
      exact ⟨forked, fun rounds => drainLoop_take active ready decoded run rounds,
        .inr ⟨stage delivered, halted⟩⟩
    have held' := (waiting.origin digest signed found).resolve_right genuine
    have waiting' := waiting.drop found genuine
    obtain ⟨succession, decoded⟩ := decodes held'
    rcases history.behind entry there after step tail final follows before digest signed held'
      standing with again | refuses | ⟨next, extends'⟩
    · refine ⟨final.holding (held.erase digest), fun rounds => drainLoop_take active ready decoded
        (follows.again history.free (step.sound history.free
          history.last_sound) again (.refl final) decoded _) rounds,
        .inl ⟨.behind there step follows before waiting', smaller⟩⟩
    · refine ⟨final.holding (held.erase digest), fun rounds => ?_,
        .inl ⟨.behind there step follows before waiting', smaller⟩⟩
      rw [drainLoop_judge active ready decoded]
      exact refuses.dropped sound active decoded standing digest _ rounds
    · refine ⟨next.holding (held.erase digest), fun rounds => drainLoop_take active ready decoded
        (extends'.run sound decoded _) rounds, .inl ⟨.behind there step
          (follows.append (.cons extends' (.nil next))) (fun record inside => ?_) waiting',
          smaller⟩⟩
      rcases mem_append.mp inside with inside | here
      · exact before record inside
      · rw [mem_singleton.mp here]
        exact held'

/-- **One drain.** It accepts the delivered steps that follow, as far as none is missing. -/
theorem drain_stage (rounds : Nat) (draining : Draining seen base line ends last delivered chain)
    (enough : chain.pending.size ≤ rounds) :
    ∃ final, (drainLoop rounds).run chain = .ok () final ∧
      Stage seen base line ends last delivered final := by
  -- Each round takes a record.
  induction rounds generalizing chain with
  | zero =>
    have idle : chain.ready = none := ready_eq_none.mpr fun digest signed found => by
      have := size_erase_lt found
      omega
    exact ⟨chain, drainLoop_idle (.inr idle) 0, draining.idle history idle⟩
  | succ rounds ih =>
    cases ready : chain.ready with
    | none => exact ⟨chain, drainLoop_idle (.inr ready) _, draining.idle history ready⟩
    | some taken =>
      obtain ⟨next, run, ⟨draining', smaller⟩ | ⟨stage, halted⟩⟩ := draining.round history ready
      · rw [run]
        exact ih draining' (by omega)
      · rw [run]
        exact ⟨next, drainLoop_idle (.inl (by rw [halted]; decide)) rounds, stage⟩

/-! ## One offer -/

/-- An offered ordinary step of a history, once its first checks have passed. -/
theorem History.accept_run (there : entry ∈ line ++ ends) (hive : chain.hive = base.hive)
    (unforked : chain.recoveryFork = false) :
    ∃ succession, transitionOf entry.2.step = .ok succession ∧
      (accept entry.2).run chain =
        (acceptOrdinary entry.2 entry.1 succession >>= settle).run chain := by
  obtain ⟨succession, presented, planned⟩ := (history.belongs entry there).presented
  refine ⟨succession, presented.decoded, ?_⟩
  rw [Threshold.accept_run presented.hashed (presented.sameHive.trans hive.symm) unforked
    presented.decoded, dispatch_planned planned]

/-- A step that is held waits with the others. -/
theorem Waiting.insert (split : line = done ++ rest)
    (waiting : Waiting base rest ends delivered held) (there : entry ∈ rest ++ ends) :
    Waiting base rest ends (entry.2 :: delivered) (held.insert entry.1 entry.2) := by
  have inside : ∀ other ∈ rest ++ ends, other ∈ line ++ ends := mem_of_behind split
  refine ⟨fun digest signed found => ?_, fun other thereToo waits => ?_⟩
  · rw [getElem?_insert_eq] at found
    split at found
    · rename_i same
      cases found
      exact .inr ⟨same ▸ there, mem_cons_self⟩
    · exact (waiting.origin digest signed found).imp_right fun ⟨thereToo, waits⟩ =>
        ⟨thereToo, mem_cons_of_mem _ waits⟩
  · rw [getElem?_insert_eq]
    split
    · rename_i same
      rw [history.same_of_digest (inside entry there) (inside other thereToo) same]
    · rename_i apart
      refine waiting.waits other thereToo ((mem_cons.mp waits).resolve_left fun equal => apart ?_)
      rw [history.same_of_signed (inside other thereToo) (inside entry there) equal]

/-- An offer while a step of the line is missing. -/
theorem offer_growing (split : line = done ++ first :: rest)
    (follows : Follows seen base done current) (onward : Follows seen current (first :: rest) last)
    (undelivered : first.2 ∉ delivered) (waiting : Waiting base rest ends delivered held)
    (there : entry ∈ line ++ ends) :
    (∃ outcome, (current.holding held).answer entry.2 = .ok outcome) ∧
      Stage seen base line ends last (entry.2 :: delivered) ((current.holding held).offer entry.2) := by
  have sound := follows.sound history.free history.sound
  have later := follows.later history.free history.sound
  have split' : line = (done ++ [first]) ++ rest := by simp [split]
  have size := waiting.size_le
  have room := history.room
  simp only [split, length_append, length_cons] at room size
  have unforked : (current.holding held).recoveryFork = false :=
    later.unforked.trans (history.sound.unforked history.active)
  have hive : (current.holding held).hive = base.hive := later.hive
  obtain ⟨succession, decoded, run⟩ := history.accept_run there hive unforked
  have cases' : entry ∈ done ∨ entry = first ∨ entry ∈ rest ++ ends := by
    rw [split] at there
    simp only [append_assoc, mem_append, cons_append, mem_cons] at there ⊢
    exact there
  have firstThere : first ∈ line ++ ends := by simp [split]
  have nodup := history.nodup
  rw [split, append_assoc, cons_append, map_append, map_cons] at nodup
  obtain ⟨-, tailNodup, apart⟩ := nodup_append.mp nodup
  have firstApart := (nodup_cons.mp tailNodup).1
  rcases cases' with inside | rfl | behind
  · -- It was accepted before.
    have known := follows.again history.free history.sound inside (.refl current) decoded held
    obtain ⟨answer, offer⟩ := offer_of_ordinary run known (by decide)
    have digestApart : ∀ other ∈ first :: (rest ++ ends), entry.1 ≠ other.1 := fun other thereToo =>
      apart _ (mem_map.mpr ⟨entry, inside, rfl⟩) _ (mem_map.mpr ⟨other, thereToo, rfl⟩)
    refine ⟨answer, ?_⟩
    rw [offer]
    refine .growing split follows onward ?_ (waiting.deliver ?_)
    · intro delivers
      rcases mem_cons.mp delivers with same | before
      · exact digestApart first mem_cons_self
          (history.same_of_signed there firstThere same.symm ▸ rfl)
      · exact undelivered before
    · intro digest thereToo
      have same := history.same_of_signed (mem_of_behind split' _ thereToo) there rfl
      exact digestApart _ (mem_cons_of_mem _ thereToo) (by rw [same])
  · -- It is the one that was missing.
    cases onward with
    | @cons _ middle _ _ _ step onward =>
      have waiting' : Waiting base rest ends (entry.2 :: delivered) held := by
        refine waiting.deliver fun digest thereToo => ?_
        have same := history.same_of_signed (mem_of_behind split' _ thereToo) there rfl
        exact firstApart (mem_map.mpr ⟨_, thereToo, by rw [same]⟩)
      obtain ⟨final, drained, stage⟩ := drain_stage history maxRecords (.line split'
        (follows.append (.cons step (.nil middle))) onward waiting') (by
          rw [Chain.holding_pending]
          omega)
      obtain ⟨answer, offer⟩ := offer_of_accepted run (step.run sound decoded held) drained
      rw [offer]
      exact ⟨answer, stage⟩
  · -- Its predecessor is still missing.
    obtain ⟨unknown, tip⟩ := onward.unknown history.free sound
    have missing : entry.2.step.predecessor ∉ current.contexts := by
      rcases mem_append.mp behind with inRest | atEnd
      · exact unknown entry inRest
      · rw [(history.end_known atEnd).1]
        exact tip
    have small : held.size < maxRecords := by omega
    have holds := later.holds history.active (history.belongs entry there) missing small succession
    obtain ⟨answer, offer⟩ := offer_of_ordinary run holds (by decide)
    refine ⟨answer, ?_⟩
    rw [offer]
    refine .growing split follows onward ?_ (waiting.insert history split' behind)
    intro delivers
    rcases mem_cons.mp delivers with same | before
    · have equal := history.same_of_signed firstThere there same
      exact firstApart (mem_map.mpr ⟨entry, behind, by rw [equal]⟩)
    · exact undelivered before

/-- An offer after the whole line was accepted. -/
theorem offer_complete (undelivered : ∀ entry ∈ ends, entry.2 ∉ delivered)
    (kept : ∀ (digest : Digest) (signed : SignedStep), held[digest]? = some signed →
      base.pending[digest]? = some signed)
    (there : entry ∈ line ++ ends) :
    (∃ outcome, (last.holding held).answer entry.2 = .ok outcome) ∧
      Stage seen base line ends last (entry.2 :: delivered) ((last.holding held).offer entry.2) := by
  have sound := history.follows.sound history.free history.sound
  have later := history.follows.later history.free history.sound
  have hive : (last.holding held).hive = base.hive := later.hive
  obtain ⟨succession, decoded, run⟩ := history.accept_run there hive
    (later.unforked.trans (history.sound.unforked history.active))
  have others : ∀ other ∈ ends, other ≠ entry → other.2 ∉ entry.2 :: delivered := by
    intro other thereToo different delivers
    rcases mem_cons.mp delivers with same | before
    · exact different (history.same_of_signed (mem_append_right _ thereToo) there same)
    · exact undelivered other thereToo before
  by_cases atEnd : entry ∈ ends
  · obtain ⟨after, step⟩ := history.acceptable entry atEnd
    have waiting : Waiting base [] (ends.filter (· ≠ entry)) (entry.2 :: delivered) held := by
      refine ⟨fun digest signed found => .inl (kept digest signed found), fun other inside waits => ?_⟩
      obtain ⟨thereToo, different⟩ := mem_filter.mp inside
      exact absurd waits (others other thereToo (of_decide_eq_true different))
    have small : held.size ≤ maxRecords := by
      have empty : Waiting base [] [] [] held :=
        ⟨fun digest signed found => .inl (kept digest signed found), nofun⟩
      exact empty.size_le.trans ((Nat.le_add_right _ _).trans history.room)
    obtain ⟨final, drained, stage⟩ := drain_stage history maxRecords
      (.behind atEnd step (.nil after) nofun waiting) small
    obtain ⟨answer, offer⟩ := offer_of_accepted run (step.run sound decoded held) drained
    rw [offer]
    exact ⟨answer, stage⟩
  · have inside := (mem_append.mp there).resolve_right atEnd
    obtain ⟨answer, offer⟩ := offer_of_ordinary run
      (history.follows.again history.free history.sound inside (.refl last) decoded held) (by decide)
    rw [offer]
    exact ⟨answer, .complete (fun other thereToo => others other thereToo fun same =>
      atEnd (same ▸ thereToo)) kept⟩

/-- An offer after one of the steps at the end was accepted. -/
theorem offer_chosen {chosen : Digest × SignedStep} {final : Chain}
    {tail : List (Digest × SignedStep)} (atEnd : chosen ∈ ends)
    (step : Extends seen last chosen after) (follows : Follows seen after tail final)
    (undelivered : ∀ other ∈ ends, other ≠ chosen → other.2 ∉ delivered)
    (there : entry ∈ line ++ ends) :
    (∃ outcome, (final.holding held).answer entry.2 = .ok outcome) ∧
      Stage seen base line ends last (entry.2 :: delivered)
        ((final.holding held).offer entry.2) := by
  obtain ⟨begun, later, onward, -⟩ := history.onward step follows
  have hive : (final.holding held).hive = base.hive :=
    onward.hive.trans (later.hive.trans begun.hive)
  have unforked : final.recoveryFork = false := onward.unforked.trans
    (later.unforked.trans (begun.unforked.trans (history.sound.unforked history.active)))
  obtain ⟨succession, decoded, run⟩ := history.accept_run there hive unforked
  by_cases rival : entry ∈ ends ∧ entry ≠ chosen
  · -- A second step on the same predecessor.
    obtain ⟨forked, ordinary, -, stage⟩ := history.forks atEnd step follows rival.1 rival.2 decoded held
    obtain ⟨answer, offer⟩ := offer_of_ordinary run ordinary (by decide)
    rw [offer]
    exact ⟨answer, stage _⟩
  · -- It was accepted before.
    have inside : entry ∈ line ++ [chosen] := by
      rw [not_and_or, not_not] at rival
      rcases rival with elsewhere | same
      · exact mem_append_left _ ((mem_append.mp there).resolve_right elsewhere)
      · simp [same]
    have known := (history.follows.append (.cons step (.nil after))).again history.free history.sound
      inside onward decoded held
    obtain ⟨answer, offer⟩ := offer_of_ordinary run known (by decide)
    rw [offer]
    refine ⟨answer, .chosen atEnd step follows fun other thereToo different delivers => ?_⟩
    rcases mem_cons.mp delivers with same | before
    · have equal := history.same_of_signed (mem_append_right _ thereToo) there same
      exact rival (equal ▸ ⟨thereToo, different⟩)
    · exact undelivered other thereToo different before

/-- **One offer.** It moves a delivery on, and is refused only after a fork. -/
theorem offer_stage (stage : Stage seen base line ends last delivered chain)
    (there : entry ∈ line ++ ends) : ((∃ outcome, chain.answer entry.2 = .ok outcome) ∨ ends ≠ []) ∧
      Stage seen base line ends last (entry.2 :: delivered) (chain.offer entry.2) := by
  cases stage with
  | growing split follows onward undelivered waiting =>
    obtain ⟨answer, next⟩ := offer_growing history split follows onward undelivered waiting there
    exact ⟨.inl answer, next⟩
  | complete undelivered kept =>
    obtain ⟨answer, next⟩ := offer_complete history undelivered kept there
    exact ⟨.inl answer, next⟩
  | chosen atEnd step follows undelivered =>
    obtain ⟨answer, next⟩ := offer_chosen history atEnd step follows undelivered there
    exact ⟨.inl answer, next⟩
  | forked one two different halted conflict unforked hive =>
    obtain ⟨succession, decoded, run⟩ := history.accept_run there hive unforked
    have refused : (acceptOrdinary entry.2 entry.1 succession).run chain = .error .halted chain := by
      rw [acceptOrdinary_run, Chain.judgement, if_pos (by rw [halted]; decide)]
    rw [EStateM.run_bind, refused] at run
    obtain ⟨-, offer⟩ := answer_offer_error run
    rw [offer]
    exact ⟨.inr (ne_nil_of_mem one), .forked one two different halted conflict unforked hive⟩

/-- **A whole delivery.** -/
theorem offers_stage :
    ∀ (steps : List SignedStep), (∀ signed ∈ steps, ∃ entry ∈ line ++ ends, entry.2 = signed) →
      ∀ chain delivered, Stage seen base line ends last delivered chain →
      Stage seen base line ends last (steps.reverse ++ delivered) (chain.offers steps) := by
  intro steps
  induction steps with
  | nil =>
    intro _ chain delivered stage
    exact stage
  | cons signed rest ih =>
    intro within chain delivered stage
    obtain ⟨entry, there, rfl⟩ := within _ mem_cons_self
    have next := (offer_stage history stage there).2
    have final := ih (fun other inside => within other (mem_cons_of_mem _ inside)) _ _ next
    rw [reverse_cons, append_assoc]
    exact final

end Delivering

/-! ## Steps accepted in order -/

/-- Every step of the list is accepted when it is offered in its place. -/
def AcceptedInOrder (chain : Chain) (steps : List SignedStep) : Prop :=
  ∀ before signed behind, steps = before ++ signed :: behind →
    (chain.offers before).answer signed = .ok .accepted

/-- The step is no recovery succession. -/
def IsOrdinary (signed : SignedStep) : Prop :=
  ∀ transition, transitionOf signed.step = .ok (some transition) → transition.kind = .planned

theorem AcceptedInOrder.nil (chain : Chain) : AcceptedInOrder chain [] := by
  intro before signed behind split
  simp at split

theorem acceptedInOrder_cons {rest : List SignedStep} :
    AcceptedInOrder chain (signed :: rest) ↔
      chain.answer signed = .ok .accepted ∧ AcceptedInOrder (chain.offer signed) rest := by
  constructor
  · intro accepted
    refine ⟨accepted [] signed rest rfl, fun before other behind split => ?_⟩
    exact accepted (signed :: before) other behind (by rw [split, cons_append])
  · rintro ⟨answer, accepted⟩ before other behind split
    cases before with
    | nil =>
      cases split
      exact answer
    | cons first before =>
      cases split
      exact accepted before other behind rfl

/-- What an accepted ordinary step did, where nothing held stands on it. -/
theorem extends_of_answer (within : Within seen signed) (ordinary : IsOrdinary signed)
    (answer : chain.answer signed = .ok .accepted)
    (foreign : ∀ (digest : Digest) (held : SignedStep), chain.pending[digest]? = some held →
      held.step.predecessor ∉ chain.contexts ∧ signed.step.digest ≠ .ok held.step.predecessor) :
    ∃ digest, Extends seen chain (digest, signed) (chain.offer signed) := by
  obtain ⟨digest, succession, presented, unforked⟩ := answer_presented answer
  have run := accept_run presented.hashed presented.sameHive unforked presented.decoded
  rw [dispatch_planned fun transition there => ordinary transition (there ▸ presented.decoded),
    EStateM.run_bind] at run
  have cases' := acceptOrdinary_cases chain signed digest succession
  generalize (acceptOrdinary signed digest succession).run chain = result at cases' run
  have unaccepted : ∀ {outcome after}, outcome ≠ .accepted →
      (accept signed).run chain = (settle outcome).run after → False := by
    intro outcome after refused run
    rw [(answer_offer (run.trans (settle_of_ne refused after))).1] at answer
    split at answer
    · cases answer
    · exact refused (Except.ok.inj answer)
  cases cases' with
  | refused e =>
    rw [(answer_offer_error run).1] at answer
    cases answer
  | exhausted =>
    rw [(answer_offer_error run).1] at answer
    cases answer
  | held => exact (unaccepted (by decide) run).elim
  | duplicate => exact (unaccepted (by decide) run).elim
  | fork => exact (unaccepted (by decide) run).elim
  | @extended context next admits fresh room onTip valid =>
    have step : Extends seen chain (digest, signed) (chain.extended signed digest next) :=
      .intro ⟨presented.hashed, presented.sameHive, presented.decoded, within⟩ admits fresh room
        onTip valid
    have idle : (chain.extended signed digest next).ready = none := by
      refine ready_eq_none.mpr fun other held found standing => ?_
      obtain ⟨_, _, _, same⟩ := chain.extended_eq signed digest next
      rw [same] at found
      obtain ⟨unknown, apart⟩ := foreign other held found
      rcases (step.after_eq.2.2.2 _).mp standing with stands | known
      · rw [stands] at apart
        exact apart presented.hashed
      · exact unknown known
    have active : (chain.extended signed digest next).status = .active := by
      obtain ⟨_, _, _, same⟩ := chain.extended_eq signed digest next
      rw [same]
      exact admits.active
    rw [(answer_offer (run.trans (settle_of_idle active idle))).2]
    exact ⟨digest, step⟩

/-- Steps accepted in order are a line, where nothing held stands on any of them. -/
theorem AcceptedInOrder.follows (free : CollisionFree seen) :
    ∀ (steps : List SignedStep) (chain : Chain), Sound seen chain →
      (∀ signed ∈ steps, Within seen signed ∧ IsOrdinary signed) → AcceptedInOrder chain steps →
      (∀ (digest : Digest) (held : SignedStep), chain.pending[digest]? = some held →
        held.step.predecessor ∉ chain.contexts ∧
        ∀ signed ∈ steps, signed.step.digest ≠ .ok held.step.predecessor) →
      ∃ line, line.map Prod.snd = steps ∧ Follows seen chain line (chain.offers steps) := by
  intro steps
  induction steps with
  | nil =>
    intro chain _ _ _ _
    exact ⟨[], rfl, .nil chain⟩
  | cons signed rest ih =>
    intro chain sound given accepted foreign
    have here := given signed mem_cons_self
    obtain ⟨answer, onward⟩ := acceptedInOrder_cons.mp accepted
    obtain ⟨digest, step⟩ := extends_of_answer here.1 here.2 answer
      fun digest held found => ⟨(foreign digest held found).1,
        (foreign digest held found).2 signed mem_cons_self⟩
    have later := step.later free sound
    obtain ⟨line, same, follows⟩ := ih (chain.offer signed) (step.sound free sound)
      (fun other there => given other (mem_cons_of_mem _ there)) onward (by
        intro other held found
        rw [later.pending] at found
        obtain ⟨unknown, apart⟩ := foreign other held found
        refine ⟨fun standing => ?_, fun x there => apart x (mem_cons_of_mem _ there)⟩
        rcases (step.after_eq.2.2.2 _).mp standing with stands | known
        · exact apart signed mem_cons_self (by rw [stands]; exact step.hashed)
        · exact unknown known)
    exact ⟨(digest, signed) :: line, by rw [map_cons, same], .cons step follows⟩

theorem Follows.length_le (follows : Follows seen chain line last)
    (bounded : chain.records.size ≤ maxRecords) :
    chain.records.size + line.length ≤ maxRecords := by
  induction follows with
  | nil => simpa using bounded
  | @cons chain middle last entry rest step _ ih =>
    cases step with
    | @intro signed digest succession context next presented admits fresh room onTip valid =>
      obtain ⟨_, _, _, same⟩ := chain.extended_eq signed digest next
      have unseen : chain.records.contains digest = false := by
        rw [← Bool.not_eq_true, ← Std.ExtTreeMap.mem_iff_contains]
        exact fresh
      have grown : (chain.extended signed digest next).records.size = chain.records.size + 1 := by
        rw [same]
        simp only [Std.ExtTreeMap.size_insert, unseen]
        rfl
      have := ih (by omega)
      simp only [length_cons]
      omega

/-- Without steps at the end no delivery forks. -/
theorem Stage.unforked (stage : Stage seen base line [] last delivered chain)
    (empty : base.pending = ∅) (all : ∀ entry ∈ line, entry.2 ∈ delivered) :
    chain = last.holding ∅ := by
  cases stage with
  | growing split follows onward undelivered waiting =>
    exact absurd (all _ (by simp [split])) undelivered
  | @complete held _ kept =>
    have none : held = ∅ := by
      refine Std.ExtTreeMap.ext_getElem? fun digest => ?_
      rw [Std.ExtTreeMap.getElem?_empty, Option.eq_none_iff_forall_ne_some]
      intro signed found
      have before := kept digest signed found
      rw [empty] at before
      simp at before
    rw [none]
  | chosen atEnd => cases atEnd
  | forked one => cases one

/-- **An unforked chain converges under reordering.** Where a new chain accepts ordinary steps one
after the other, every delivery of just these steps, in any order and with any repetitions, is never
refused and ends with the same chain, active and with nothing held. -/
theorem delivery_converges (free : CollisionFree seen) {group : GroupDescriptor}
    {recovery : RecoveryDescriptor} {start : Chain} (founded : Chain.new group recovery = .ok start)
    (foundedWithin : ∀ bytes, foundingBytes group (some recovery) = .ok bytes → bytes ∈ seen)
    {steps : List SignedStep} (given : ∀ signed ∈ steps, Within seen signed ∧ IsOrdinary signed)
    (accepted : AcceptedInOrder start steps) {deliveries : List SignedStep}
    (covers : ∀ signed, signed ∈ deliveries ↔ signed ∈ steps) :
    (∀ before signed behind, deliveries = before ++ signed :: behind →
      ∃ outcome, (start.offers before).answer signed = .ok outcome) ∧
    start.offers deliveries = start.offers steps ∧
    (start.offers deliveries).status = .active ∧ (start.offers deliveries).pending = ∅ := by
  have sound := new_sound founded foundedWithin
  obtain ⟨bytes, encoded, separate, rfl⟩ := new_eq_ok founded
  set start : Chain := _ with begin
  obtain ⟨line, same, follows⟩ := AcceptedInOrder.follows free steps start sound given accepted
    (by intro digest held found; simp [begin] at found)
  have bounded := follows.length_le (by simp [begin])
  have history : History seen start line [] (start.offers steps) := {
    free, sound, active := rfl, follows
    acceptable := by simp
    distinct := by simp
    foreign := by intro _ _ _ _ _ digest held found; simp [begin] at found
    behind := by simp
    room := by simpa [begin] using bounded }
  have entries : ∀ signed, signed ∈ deliveries → ∃ entry ∈ line ++ [], entry.2 = signed := by
    intro signed there
    have inside := (covers signed).mp there
    rw [← same] at inside
    rw [append_nil]
    exact mem_map.mp inside
  have stage := offers_stage history deliveries entries start [] history.begins
  have final := stage.unforked rfl (by
    intro entry there
    rw [append_nil, mem_reverse, covers, ← same]
    exact mem_map.mpr ⟨entry, there, rfl⟩)
  have later := follows.later free sound
  have ends : (start.offers steps).holding ∅ = start.offers steps := by
    rw [show (∅ : Records) = (start.offers steps).pending from later.pending.symm]
    rfl
  rw [ends] at final
  refine ⟨?_, final, ?_, ?_⟩
  · intro before signed behind split
    have earlier := offers_stage history before (fun other there => entries other (by
      rw [split]
      exact mem_append_left _ there)) start [] history.begins
    obtain ⟨entry, there, rfl⟩ := entries signed (by simp [split])
    exact (offer_stage history earlier there).1.resolve_right (not_not.mpr rfl)
  · rw [final]
    exact later.active rfl
  · rw [final, later.pending]

/-- Both conflicting digests can be recovered from the evidence. -/
def Conflict.Names (conflict : Conflict) (first second : SignedStep) : Prop :=
  (first.step.digest = .ok conflict.first ∧ conflict.second = second) ∨
    (second.step.digest = .ok conflict.first ∧ conflict.second = first)

/-- A step that passes every check against the context of its predecessor, whose accepted child is a
different one. -/
structure Rivals (chain : Chain) (one two : SignedStep) : Prop where
  sameHive : two.step.hive = chain.hive
  different : one.step.digest ≠ two.step.digest
  child : ∃ digest, one.step.digest = .ok digest ∧
    chain.children[two.step.predecessor]? = some digest
  unrecorded : ∀ digest, two.step.digest = .ok digest → digest ∉ chain.records
  admitted : ∃ succession context next, transitionOf two.step = .ok succession ∧
    chain.Admits two succession context next

/-- **Fork detection does not depend on the order of delivery.** Every delivery of the steps of two
branches, in any order and with any repetitions, halts the chain with both in its evidence. And from
the moment one of two such steps is the accepted child of their predecessor, the other is a fork. -/
theorem delivery_forks (free : CollisionFree seen) {group : GroupDescriptor}
    {recovery : RecoveryDescriptor} {offered : List SignedStep}
    (reached : Reached seen group recovery offered base) :
    (∀ (path : List (Digest × SignedStep)) (one two : Digest × SignedStep) (last : Chain),
      Branches seen base path [one, two] last →
      ∀ deliveries : List SignedStep,
        (∀ signed, signed ∈ deliveries ↔ ∃ entry ∈ path ++ [one, two], entry.2 = signed) →
        (base.offers deliveries).status = .halted ∧
          ∃ conflict, (base.offers deliveries).conflict = some conflict ∧
            conflict.Names one.2 two.2) ∧
    (∀ one two : SignedStep, Rivals base one two →
      base.answer two = .ok .fork ∧ (base.offer two).status = .halted ∧
        ∃ conflict, (base.offer two).conflict = some conflict ∧ conflict.Names one two) := by
  have sound := reached.sound free
  constructor
  · intro path one two last branches deliveries entries
    have history : History seen base path [one, two] last := { branches with free, sound }
    have apart : one ≠ two := by
      rintro rfl
      simpa using branches.distinct
    have hashed : ∀ entry ∈ [one, two], entry.2.step.digest = .ok entry.1 := by
      intro entry there
      obtain ⟨after, step⟩ := branches.acceptable entry there
      exact step.hashed
    have delivers : ∀ entry ∈ path ++ [one, two], entry.2 ∈ deliveries.reverse ++ [] := by
      intro entry there
      rw [append_nil, mem_reverse, entries]
      exact ⟨entry, there, rfl⟩
    have stage := offers_stage history deliveries (fun signed there => (entries signed).mp there)
      base [] history.begins
    generalize base.offers deliveries = chain at stage
    cases stage with
    | growing split follows onward undelivered waiting =>
      exact absurd (delivers _ (by simp [split])) undelivered
    | complete undelivered => exact absurd (delivers one (by simp)) (undelivered _ (by simp))
    | @chosen entry after final tail held atEnd step follows undelivered =>
      by_cases which : entry = one
      · exact absurd (delivers two (by simp))
          (undelivered _ (by simp) (by rw [which]; exact apart.symm))
      · exact absurd (delivers one (by simp)) (undelivered _ (by simp) (Ne.symm which))
    | @forked one' two' _ atOne atTwo different halted conflict unforked hive =>
      refine ⟨halted, _, conflict, ?_⟩
      simp only [mem_cons, not_mem_nil, or_false] at atOne atTwo
      rcases atOne with rfl | rfl <;> rcases atTwo with rfl | rfl
      · exact absurd rfl different
      · exact .inl ⟨hashed _ (by simp), rfl⟩
      · exact .inr ⟨hashed _ (by simp), rfl⟩
      · exact absurd rfl different
  · intro one two rivals
    obtain ⟨succession, context, next, decoded, admits⟩ := rivals.admitted
    obtain ⟨child, childHashed, accepted⟩ := rivals.child
    obtain ⟨digest, hashed⟩ := verify_digest admits.verified
    have run := accept_run hashed rivals.sameHive (sound.unforked admits.active) decoded
    have conflict : child ≠ digest := by
      rintro rfl
      exact rivals.different (childHashed.trans hashed.symm)
    have fresh := rivals.unrecorded digest hashed
    have ordinary : (acceptOrdinary two digest succession).run base =
        .ok .fork (base.forked child two digest next) := by
      rw [acceptOrdinary_of_admits admits, extend_forks fresh accepted conflict]
    rw [dispatch_planned admits.planned, EStateM.run_bind, ordinary] at run
    obtain ⟨answer, offer⟩ := answer_offer (run.trans (settle_of_ne (by decide) _))
    rw [offer]
    refine ⟨answer.trans (by split <;> rfl), ?_⟩
    obtain ⟨halted, evidence, -⟩ := base.forked_evidence child two digest next
    exact ⟨halted, _, evidence, .inl ⟨childHashed, rfl⟩⟩

end Runs

/-! ## Fixed inputs -/

attribute [local instance] proposerSha256 nonemptyEd25519 anyP256 unitFrost

/-- Two different steps on `firstStep`. -/
def leftStep : SignedStep := pairStep 11 10 2 .revoke []

def rightStep : SignedStep := pairStep 12 10 2 .revoke []

/-- The withdrawal of a grant that was never made. -/
def groundlessStep : SignedStep :=
  let revocation : Revocation := {
    hive := pairHive, id := FixedBytes.replicate 16 1, kind := .ownerAction, serial := 1
    issuerHead := FixedBytes.replicate 32 10, issuerSequence := 1 }
  pairStep 13 10 2 .revokeGrant (revocation.encode.toOption.getD [])

theorem plain_ordinary (name predecessor : UInt8) (sequence : UInt64) :
    IsOrdinary (pairStep name predecessor sequence .revoke []) := by
  intro transition decoded
  simp [transitionOf, pairStep] at decoded

theorem delivery_converges_reordered :
    pairStart.offers [leftStep, firstStep, leftStep] = pairStart.offers [firstStep, leftStep] ∧
    (pairStart.offers [leftStep, firstStep, leftStep]).status = .active := by
  have free := pairSeen_free [firstStep, leftStep] (by decide +kernel)
  have accepted : AcceptedInOrder pairStart [firstStep, leftStep] := by
    refine acceptedInOrder_cons.mpr ⟨by decide +kernel, ?_⟩
    exact acceptedInOrder_cons.mpr ⟨by decide +kernel, .nil _⟩
  obtain ⟨-, same, active, -⟩ := delivery_converges free pairStart_founded (pairSeen_founded _)
    (by
      intro signed there
      refine ⟨pairSeen_within _ signed there, ?_⟩
      simp only [mem_cons, not_mem_nil, or_false] at there
      rcases there with rfl | rfl <;> exact plain_ordinary _ _ _)
    accepted (by
      intro signed
      show signed ∈ [leftStep, firstStep, leftStep] ↔ _
      simp only [mem_cons, not_mem_nil, or_false]
      tauto)
  exact ⟨same, active⟩

/-- Two correctly signed steps on one predecessor: the chain halts in one order of delivery and
accepts the second in the other, where the grant rules refuse the first. -/
theorem refused_rival_forgotten :
    groundlessStep.step.predecessor = leftStep.step.predecessor ∧
    groundlessStep.step ≠ leftStep.step ∧
    groundlessStep.verify (pairGroup 1).publicKey = .ok () ∧
    leftStep.verify (pairGroup 1).publicKey = .ok () ∧
    (pairStart.offers [firstStep, groundlessStep, leftStep]).status = .active ∧
    (pairStart.offers [firstStep, groundlessStep, leftStep]).conflict = none ∧
    (pairStart.offers [firstStep, leftStep, groundlessStep]).status = .halted := by
  decide +kernel

/-- A step on `leftStep` for an epoch that the chain does not have. -/
def strayStep : SignedStep :=
  let signed := pairStep 14 11 3 .revoke []
  { signed with step := { signed.step with epoch := 9 } }

/-- The pair's chain, holding the stray step, and then `firstStep`. -/
def strayHeld : Chain := pairStart.offers [strayStep]

def strayLast : Chain := strayHeld.offer firstStep

def straySeen : Set Bytes :=
  fun bytes => bytes ∈ pairSeen [firstStep, leftStep, rightStep, strayStep]

theorem strayHeld_only {digest : Digest} {signed : SignedStep}
    (found : strayHeld.pending[digest]? = some signed) : signed = strayStep := by
  have listed : strayHeld.pending.toList = [(FixedBytes.replicate 32 14, strayStep)] := by
    decide +kernel
  have there := Std.ExtTreeMap.mem_toList_iff_getElem?_eq_some.mpr found
  rw [listed] at there
  exact congrArg Prod.snd (mem_singleton.mp there)

/-- One of two steps on `firstStep`. -/
def forkEntry (name : UInt8) : Digest × SignedStep :=
  (.replicate 32 name, pairStep name 10 2 .revoke [])

theorem stray_first : Extends straySeen strayHeld (.replicate 32 10, firstStep) strayLast := by
  have accepted : strayHeld.answer firstStep = .ok .accepted := by decide +kernel
  obtain ⟨digest, first⟩ := extends_of_answer
    (pairSeen_within [firstStep, leftStep, rightStep, strayStep] firstStep (by simp))
    (plain_ordinary _ _ _) accepted (by
      intro digest held found
      rw [strayHeld_only found]
      decide +kernel)
  have hashed : firstStep.step.digest = .ok (FixedBytes.replicate 32 10) := by decide +kernel
  rw [Except.ok.inj (hashed.symm.trans first.hashed)]
  exact first

theorem stray_ends : ∀ entry ∈ [forkEntry 11, forkEntry 12],
    ∃ after, Extends straySeen strayLast entry after := by
  have within := pairSeen_within [firstStep, leftStep, rightStep, strayStep]
  refine forall_mem_cons.mpr ⟨?_, forall_mem_singleton.mpr ?_⟩
  all_goals
    refine ⟨_, .intro (show Presented _ _ _ _ none from ⟨by decide +kernel, by decide +kernel, rfl,
      within _ (by simp [leftStep, rightStep])⟩) (show Chain.Admits _ _ _ strayLast.current
      { strayLast.current with sequence := 2 } from ⟨by decide +kernel, by decide, by decide +kernel,
      by decide +kernel, by decide +kernel⟩) (by decide +kernel) (by decide +kernel)
      (by decide +kernel) rfl⟩

/-- The stray step fails its checks wherever its predecessor is known. -/
theorem stray_epoch {entry : Digest × SignedStep} (there : entry ∈ [forkEntry 11, forkEntry 12])
    {after : Chain} (step : Extends straySeen strayLast entry after) {context : Context}
    (found : after.contexts[strayStep.step.predecessor]? = some context) :
    strayStep.step.epoch ≠ context.epoch := by
  have stands : entry.2.step.predecessor = .replicate 32 10 ∧
      entry.2.step.operation ≠ .succession := by
    simp only [mem_cons, not_mem_nil, or_false] at there
    rcases there with rfl | rfl <;> exact ⟨rfl, by decide⟩
  obtain ⟨succession, before, next, presented, admits, rfl⟩ := step.presented
  obtain ⟨_, _, _, eq⟩ := strayLast.extended_eq entry.2 entry.1 next
  have known : strayLast.contexts[(.replicate 32 10 : Digest)]?.map Context.epoch = some 0 := by
    decide +kernel
  have unknown : strayLast.contexts[strayStep.step.predecessor]? = none := by decide +kernel
  rw [eq, getElem?_insert_eq, unknown] at found
  rw [← stands.1, admits.known] at known
  split at found
  · cases found
    rcases admits.next_cases with ⟨-, rfl⟩ | ⟨transition, _, rfl, -⟩
    · rw [show before.epoch = 0 from Option.some.inj known]
      decide
    · have decoded := presented.decoded
      rw [transitionOf, if_neg stands.2] at decoded
      cases decoded
  · cases found

/-- With a stray step held on one of them, two steps on `firstStep` fork the chain. -/
theorem delivery_forks_reordered :
    (strayHeld.offers [rightStep, leftStep, firstStep]).status = .halted := by
  have free : CollisionFree straySeen := pairSeen_free _ (by decide +kernel)
  have reached : Reached straySeen (pairGroup 1) pairRecovery [strayStep] strayHeld :=
    ⟨⟨pairStart, pairStart_founded, rfl⟩, pairSeen_founded _, fun signed there =>
      pairSeen_within _ signed (by rw [mem_singleton.mp there]; simp)⟩
  have branches : Branches straySeen strayHeld [(.replicate 32 10, firstStep)]
      [forkEntry 11, forkEntry 12] strayLast := {
    active := by decide +kernel
    follows := .cons stray_first (.nil _)
    acceptable := stray_ends
    distinct := by decide
    foreign := by
      intro done rest current split follows digest signed found standing
      rw [strayHeld_only found] at standing
      rcases (follows.contexts _).mp standing with known | ⟨entry, there, same⟩
      · exact absurd known (by decide +kernel)
      · have inside : entry ∈ [((.replicate 32 10 : Digest), firstStep)] := by simp [split, there]
        rw [mem_singleton.mp inside] at same
        exact absurd same (by decide +kernel)
    behind := by
      intro entry there after step line final follows held digest signed found standing
      cases follows with
      | @cons _ _ _ record _ extending _ =>
        obtain ⟨_, context, _, -, admits, -⟩ := extending.presented
        have known := admits.known
        have epoch := (nextContext_eq_ok.mp admits.checked).2.1
        rw [strayHeld_only (held record mem_cons_self)] at known epoch
        exact absurd epoch (stray_epoch there step known)
      | nil =>
        obtain rfl := strayHeld_only found
        obtain ⟨context, known⟩ := exists_getElem? standing
        have refused : after.nextContext strayStep context none = .error .authority := by
          rw [Chain.nextContext, reject_bind, if_pos (.inr (stray_epoch there step known))]
        exact .inr (.inl (.checks rfl known refused (by decide)))
    room := by decide +kernel }
  refine ((delivery_forks free reached).1 _ _ _ _ branches [rightStep, leftStep, firstStep] ?_).1
  intro signed
  simp only [cons_append, nil_append, mem_cons, not_mem_nil, or_false, exists_eq_or_imp,
    exists_eq_left, eq_comm, forkEntry, leftStep, rightStep]
  tauto

end Supgang.Threshold
