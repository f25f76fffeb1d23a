/-
# Threshold.Lineage — what a chain can become, one record at a time

Offering one step may record several: an accepted step is followed by the held steps it connects.
`Transition` is the change a single record makes, and an offer is a sequence of them, so every
property of runs is proved from seven cases.

* `offers_leaves` — offering steps is a sequence of transitions.
* `Sound` — the invariant of reachable chains: the tip carries the current context, known contexts
  are the founding and recorded ones, no accepted child of the tip exists, recovery proofs are not
  from the future; `Sound.transition` keeps it.
* `Sound.fresh` — a step that is not recorded has no context yet.
-/
import Supgang.Threshold.Outcomes

namespace Supgang.Threshold

set_option autoImplicit false
set_option linter.unusedSectionVars false

open Theory
open Relation (ReflTransGen)

variable [Sha256] [Ed25519] [P256] [Frost]

/-! ## One record at a time -/

/-- Every string hashed for a step is one of `seen`. -/
def Within (seen : Set Bytes) (signed : SignedStep) : Prop :=
  ∀ bytes, signed.step.encode = .ok bytes → bytes ∈ seen

/-- A step that reached the dispatch of `accept` on a chain of this hive. -/
structure Presented (seen : Set Bytes) (hive : HiveId) (signed : SignedStep) (digest : Digest)
    (succession : Option Succession) : Prop where
  hashed : signed.step.digest = .ok digest
  sameHive : signed.step.hive = hive
  decoded : transitionOf signed.step = .ok succession
  within : Within seen signed

/-- The change one record makes. -/
inductive Transition (seen : Set Bytes) (chain : Chain) : Chain → Prop where
  | hold {signed : SignedStep} {digest : Digest} {succession : Option Succession}
      (presented : Presented seen chain.hive signed digest succession)
      (active : chain.status = .active)
      (unknown : chain.contexts[signed.step.predecessor]? = none)
      (room : chain.pending.size < maxRecords) :
      Transition seen chain { chain with pending := chain.pending.insert digest signed }
  | drop (digest : Digest) :
      Transition seen chain { chain with pending := chain.pending.erase digest }
  | exhaust : Transition seen chain { chain with status := .exhausted }
  | fork {signed : SignedStep} {digest existing : Digest} {succession : Option Succession}
      {context next : Context} (presented : Presented seen chain.hive signed digest succession)
      (admits : chain.Admits signed succession context next) (fresh : digest ∉ chain.records)
      (child : chain.children[signed.step.predecessor]? = some existing)
      (conflict : existing ≠ digest) :
      Transition seen chain (chain.forked existing signed digest next)
  | extend {signed : SignedStep} {digest : Digest} {succession : Option Succession}
      {context next : Context} (presented : Presented seen chain.hive signed digest succession)
      (admits : chain.Admits signed succession context next) (fresh : digest ∉ chain.records)
      (room : chain.records.size < maxRecords) (onTip : signed.step.predecessor = chain.tip)
      (valid : chain.validateGrantTransition signed.step = .ok ()) :
      Transition seen chain (chain.extended signed digest next)
  | recover {signed : SignedStep} {digest : Digest} {transition : Succession} {epoch : UInt64}
      (presented : Presented seen chain.hive signed digest (some transition))
      (kind : transition.kind = .recovery) (unforked : chain.recoveryFork = false)
      (unproved : chain.recoveryProofs[signed.step.recoveryGen]? = none)
      (newer : chain.current.recoveryGen < signed.step.recoveryGen)
      (verified : signed.verify chain.recovery.group.publicKey = .ok ())
      (valid : chain.validateRecovery signed.step transition chain.recovery = .ok ())
      (room : chain.records.size < maxRecords)
      (next : checkedAdd signed.step.epoch 1 = some epoch) :
      Transition seen chain (chain.recovered signed digest transition
        { group := transition.successor, epoch, recoveryGen := signed.step.recoveryGen,
          sequence := signed.step.sequence })
  | rival {signed previous : SignedStep} {digest known : Digest} {transition : Succession}
      {authority : RecoveryDescriptor}
      (presented : Presented seen chain.hive signed digest (some transition))
      (kind : transition.kind = .recovery) (unforked : chain.recoveryFork = false)
      (proved : chain.recoveryProofs[signed.step.recoveryGen]? = some (previous, authority))
      (verified : signed.verify authority.group.publicKey = .ok ())
      (valid : chain.validateRecovery signed.step transition authority = .ok ())
      (hashed : previous.step.digest = .ok known) (different : known ≠ digest) :
      Transition seen chain { chain.halt known signed digest with recoveryFork := true }

/-- A sequence of transitions. -/
abbrev Ran (seen : Set Bytes) : Chain → Chain → Prop := ReflTransGen (Transition seen)

/-! ## The shape of the three larger updates -/

theorem Chain.extended_eq (chain : Chain) (signed : SignedStep) (digest : Digest)
    (next : Context) :
    ∃ grants used serial, chain.extended signed digest next =
      { chain with
        children := chain.children.insert signed.step.predecessor digest
        records := chain.records.insert digest signed
        contexts := chain.contexts.insert digest next
        current := next, tip := digest, active := chain.active ++ [digest]
        grants := grants, usedGrantIds := used, grantRevocationSerial := serial } := by
  obtain ⟨grants, used, serial, eq⟩ := Chain.granted_eq
    { chain with children := chain.children.insert signed.step.predecessor digest } signed.step
  refine ⟨grants, used, serial, ?_⟩
  rw [Chain.extended, eq]
  rfl

variable {digest : Digest} {next context : Context} {signed : SignedStep}
  {succession : Option Succession} {steps : List SignedStep}
  {records : Records} {group : GroupDescriptor} {recovery : RecoveryDescriptor}

variable {existing : Digest} {recorded : SignedStep} {contexts : Std.ExtTreeMap Digest Context}
  {status : Status} {conflict : Option Conflict}

/-- The conflicting branch is recorded with its context, or, where the history is full, only kept
as the conflict. -/
theorem Chain.forked_eq {chain : Chain} (fresh : digest ∉ chain.records) :
    (chain.records.size < maxRecords ∧ chain.forked existing signed digest next =
      { chain with
        records := chain.records.insert digest signed
        contexts := chain.contexts.insert digest next
        conflict := some ⟨existing, signed⟩, status := .halted }) ∨
    (maxRecords ≤ chain.records.size ∧ chain.forked existing signed digest next =
      { chain with conflict := some ⟨existing, signed⟩, status := .halted }) := by
  unfold Chain.forked Chain.halt
  by_cases room : chain.records.size < maxRecords
  · refine .inl ⟨room, ?_⟩
    simp only [if_pos room]
    rw [if_pos (mem_insert_iff.mpr (.inl rfl))]
  · refine .inr ⟨not_lt.mp room, ?_⟩
    simp only [if_neg room]
    rw [if_neg fresh]

theorem Chain.halt_eq (chain : Chain) (known : Digest) (signed : SignedStep) (digest : Digest) :
    ∃ records, chain.halt known signed digest =
        { chain with records, conflict := some ⟨known, signed⟩, status := .halted } ∧
      (records = chain.records ∨ records = chain.records.insert digest signed) := by
  unfold Chain.halt
  by_cases room : chain.records.size < maxRecords
  · exact ⟨_, by simp only [if_pos room], .inr rfl⟩
  · exact ⟨_, by simp only [if_neg room], .inl rfl⟩

/-! ## Offers are sequences of transitions -/

/-- Every held step was presented. -/
def Keyed (seen : Set Bytes) (chain : Chain) : Prop :=
  ∀ digest signed, chain.pending[digest]? = some signed →
    ∃ succession, Presented seen chain.hive signed digest succession

/-- What offering a step leaves: transitions, and held steps that were presented. -/
def Leaves (seen : Set Bytes) (before after : Chain) : Prop :=
  Ran seen before after ∧ Keyed seen after

variable {seen : Set Bytes} {chain after : Chain}

section Keyed

variable (keyed : Keyed seen chain)

include keyed

theorem Keyed.erase (digest : Digest) :
    Keyed seen { chain with pending := chain.pending.erase digest } := by
  intro other signed found
  simp only [getElem?_erase_eq] at found
  split at found
  · cases found
  · exact keyed other signed found

theorem Keyed.insert (presented : Presented seen chain.hive signed digest succession) :
    Keyed seen { chain with pending := chain.pending.insert digest signed } := by
  intro other held found
  simp only [getElem?_insert_eq] at found
  split at found
  · rename_i same
    cases found
    exact ⟨succession, same ▸ presented⟩
  · exact keyed other held found

theorem acceptOrdinary_leaves (presented : Presented seen chain.hive signed digest succession) :
    Ends chain (acceptOrdinary signed digest succession) (fun _ => Leaves seen chain)
      (Leaves seen chain) := by
  have cases' := acceptOrdinary_cases chain signed digest succession
  rw [Ends]
  generalize (acceptOrdinary signed digest succession).run chain = result at cases'
  cases cases' with
  | refused e => exact ⟨.refl, keyed⟩
  | held active unknown room =>
    exact ⟨.single (.hold presented active unknown room), keyed.insert presented⟩
  | duplicate admits recorded => exact ⟨.refl, keyed⟩
  | fork admits fresh child conflict =>
    refine ⟨.single (.fork presented admits fresh child conflict), ?_⟩
    rcases Chain.forked_eq fresh with ⟨-, eq⟩ | ⟨-, eq⟩ <;> rw [eq] <;> exact keyed
  | exhausted admits fresh full => exact ⟨.single .exhaust, keyed⟩
  | extended admits fresh room onTip valid =>
    refine ⟨.single (.extend presented admits fresh room onTip valid), ?_⟩
    obtain ⟨_, _, _, eq⟩ := chain.extended_eq signed digest _
    rw [eq]
    exact keyed

theorem acceptRecovery_leaves (unforked : chain.recoveryFork = false) {transition : Succession}
    (kind : transition.kind = .recovery)
    (presented : Presented seen chain.hive signed digest (some transition)) :
    Ends chain (acceptRecovery signed digest transition) (fun _ => Leaves seen chain)
      (Leaves seen chain) := by
  have cases' := acceptRecovery_cases chain signed digest transition
  rw [Ends]
  generalize (acceptRecovery signed digest transition).run chain = result at cases'
  cases cases' with
  | refused e => exact ⟨.refl, keyed⟩
  | duplicate => exact ⟨.refl, keyed⟩
  | @rival previous authority known proved verified valid hashed different =>
    refine ⟨.single (.rival presented kind unforked proved verified valid hashed different), ?_⟩
    obtain ⟨records, eq, -⟩ := chain.halt_eq known signed digest
    rw [eq]
    exact keyed
  | exhausted full => exact ⟨.single .exhaust, keyed⟩
  | recovered unproved newer verified valid room next =>
    refine ⟨.single (.recover presented kind unforked unproved newer verified valid room next), ?_⟩
    intro other held found
    simp [Chain.recovered] at found

omit keyed in
theorem drainLoop_leaves {start : Chain}
    (left : Leaves seen start chain) (rounds : Nat) :
    Ends chain (drainLoop rounds) (fun _ => Leaves seen start) (Leaves seen start) := by
  refine drainLoop_ends ?_ ?_ rounds chain left
  · rintro chain digest signed ⟨ran, keyed⟩ -
    exact ⟨ran.tail (.drop digest), keyed.erase digest⟩
  · rintro chain digest signed succession ⟨ran, keyed⟩ - found decoded
    obtain ⟨held, -, -⟩ := first_spec found
    obtain ⟨other, presented⟩ := keyed digest signed held
    have same : other = succession := by
      have := presented.decoded.symm.trans decoded
      cases this
      rfl
    subst same
    have erased := keyed.erase digest
    refine (acceptOrdinary_leaves erased presented).mono ?_ ?_
    · rintro _ after ⟨onward, keyed'⟩
      exact ⟨(ran.tail (.drop digest)).trans onward, keyed'⟩
    · rintro after ⟨onward, keyed'⟩
      exact ⟨(ran.tail (.drop digest)).trans onward, keyed'⟩

theorem dispatch_leaves (unforked : chain.recoveryFork = false)
    (presented : Presented seen chain.hive signed digest succession) :
    Ends chain (dispatch signed digest succession) (fun _ => Leaves seen chain)
      (Leaves seen chain) := by
  rcases dispatch_cases signed digest succession with ⟨transition, rfl, kind, eq⟩ | ⟨-, eq⟩
  · rw [eq]
    exact acceptRecovery_leaves keyed unforked kind presented
  · rw [eq]
    exact acceptOrdinary_leaves keyed presented

/-- **Offering a step is a sequence of transitions**, whatever it returns. -/
theorem accept_leaves (within : Within seen signed) :
    Ends chain (accept signed) (fun _ => Leaves seen chain) (Leaves seen chain) := by
  refine accept_ends ⟨.refl, keyed⟩ ?_ fun after left => drainLoop_leaves left maxRecords
  intro digest succession hashed sameHive unforked decoded
  exact dispatch_leaves keyed unforked ⟨hashed, sameHive, decoded, within⟩

end Keyed

/-- The chain after a step was offered, accepted or not. -/
def Chain.offer (chain : Chain) (signed : SignedStep) : Chain :=
  match (accept signed).run chain with
  | .ok _ after => after
  | .error _ after => after

/-- What `accept` returns for an offered step. -/
def Chain.answer (chain : Chain) (signed : SignedStep) : Except Error Outcome :=
  match (accept signed).run chain with
  | .ok outcome _ => .ok outcome
  | .error e _ => .error e

/-- The chain after steps were offered one after the other. -/
def Chain.offers (chain : Chain) (steps : List SignedStep) : Chain := steps.foldl Chain.offer chain

theorem Chain.offers_append (chain : Chain) (first second : List SignedStep) :
    chain.offers (first ++ second) = (chain.offers first).offers second :=
  List.foldl_append

theorem Chain.offers_concat (chain : Chain) (steps : List SignedStep) (signed : SignedStep) :
    chain.offers (steps ++ [signed]) = (chain.offers steps).offer signed := by
  rw [offers_append]
  rfl

theorem answer_offer {outcome : Outcome}
    (run : (accept signed).run chain = .ok outcome after) :
    chain.answer signed = .ok outcome ∧ chain.offer signed = after := by
  rw [Chain.answer, Chain.offer, run]
  exact ⟨rfl, rfl⟩

theorem answer_offer_error {e : Error}
    (run : (accept signed).run chain = .error e after) :
    chain.answer signed = .error e ∧ chain.offer signed = after := by
  rw [Chain.answer, Chain.offer, run]
  exact ⟨rfl, rfl⟩

theorem offer_of_ends {P : Chain → Prop}
    (ends : Ends chain (accept signed) (fun _ => P) P) : P (chain.offer signed) := by
  rw [Ends] at ends
  rw [Chain.offer]
  cases ran : (accept signed).run chain <;> simpa only [ran] using ends

theorem offers_leaves (keyed : Keyed seen chain)
    (within : ∀ signed ∈ steps, Within seen signed) :
    Leaves seen chain (chain.offers steps) := by
  induction steps using List.reverseRecOn with
  | nil => exact ⟨.refl, keyed⟩
  | append_singleton steps signed ih =>
    rw [Chain.offers_concat]
    obtain ⟨ran, keyed'⟩ := ih fun other there => within other (List.mem_append_left _ there)
    obtain ⟨onward, keyed''⟩ :=
      offer_of_ends (accept_leaves keyed' (within signed (by simp)))
    exact ⟨ran.trans onward, keyed''⟩

/-! ## The invariant of reachable chains -/

/-- What is known of a recorded step. An ordinary one stands on a context, and never on the tip. -/
structure Recorded (seen : Set Bytes) (chain : Chain) (digest : Digest) (signed : SignedStep) :
    Prop where
  hashed : signed.step.digest = .ok digest
  within : Within seen signed
  generation : signed.step.recoveryGen ≤ chain.current.recoveryGen
  decoded : ∃ succession, transitionOf signed.step = .ok succession ∧
    ((∀ transition ∈ succession, transition.kind = .planned) →
      signed.step.predecessor ∈ chain.contexts ∧
      (signed.step.recoveryGen = chain.current.recoveryGen →
        signed.step.predecessor ≠ chain.tip))

/-- The invariant of reachable chains. -/
structure Sound (seen : Set Bytes) (chain : Chain) : Prop where
  founded : ∃ group recovery bytes, foundingBytes group recovery = .ok bytes ∧ bytes ∈ seen ∧
    chain.founding = Sha256.digest bytes
  tipContext : chain.contexts[chain.tip]? = some chain.current
  known : ∀ digest ∈ chain.contexts, digest = chain.founding ∨ digest ∈ chain.records
  recorded : ∀ digest signed, chain.records[digest]? = some signed →
    Recorded seen chain digest signed
  keyed : Keyed seen chain
  parents : ∀ parent ∈ chain.children, parent ∈ chain.contexts ∧ parent ≠ chain.tip
  proved : ∀ generation ∈ chain.recoveryProofs, generation ≤ chain.current.recoveryGen
  unforked : chain.status = .active → chain.recoveryFork = false
  bounded : chain.pending.size ≤ maxRecords

/-- A step on the tip is judged in the current context. -/
theorem Sound.context_eq (sound : Sound seen chain)
    (admits : chain.Admits signed succession context next)
    (onTip : signed.step.predecessor = chain.tip) : context = chain.current := by
  have known := admits.known
  rw [onTip, sound.tipContext] at known
  exact (Option.some.inj known).symm

theorem Chain.Admits.generation_eq (admits : chain.Admits signed succession context next) :
    next.recoveryGen = chain.current.recoveryGen := by
  rw [admits.sameGeneration.symm]
  rcases admits.next_cases with ⟨-, rfl⟩ | ⟨transition, epoch, -, planned⟩
  · rfl
  · rw [planned.next]

/-- A new record on an old context: the records and contexts grow, the tip stays. -/
theorem Recorded.grow (known : Recorded seen chain digest signed)
    (grows : ∀ parent ∈ chain.contexts, parent ∈ contexts) {fork : Bool} :
    Recorded seen { chain with records, contexts, status, recoveryFork := fork, conflict }
      digest signed where
  hashed := known.hashed
  within := known.within
  generation := known.generation
  decoded := by
    obtain ⟨succession, decoded, ordinary⟩ := known.decoded
    refine ⟨succession, decoded, ?_⟩
    intro planned
    obtain ⟨there, off⟩ := ordinary planned
    exact ⟨grows _ there, off⟩

/-- Inserting a record under a new digest leaves the others as they were. -/
theorem getElem?_insert_cases {other : Digest}
    (found : (records.insert digest signed)[other]? = some recorded) :
    records[other]? = some recorded ∨ (other = digest ∧ recorded = signed) := by
  rw [getElem?_insert_eq] at found
  split at found
  · rename_i same
    cases found
    exact .inr ⟨same.symm, rfl⟩
  · exact .inl found

theorem not_planned {transition : Succession} (kind : transition.kind = .recovery) :
    ¬∀ other ∈ some transition, other.kind = .planned := by
  intro planned
  have := planned transition rfl
  rw [kind] at this
  cases this

section Sound

variable (sound : Sound seen chain)

include sound

section Presented

variable (free : CollisionFree seen)
  (presented : Presented seen chain.hive signed digest succession)

include free presented

/-- A presented step that is not recorded has no context yet. -/
theorem Sound.fresh (unrecorded : digest ∉ chain.records) : digest ∉ chain.contexts := by
  intro there
  obtain ⟨group, recovery, bytes, encoded, within, hash⟩ := sound.founded
  rcases sound.known digest there with founding | recorded
  · exact digest_ne_founding free presented.within within encoded presented.hashed
      (founding.trans hash)
  · exact unrecorded recorded

/-- What a chain records, it records for one step. -/
theorem Sound.recorded_step (found : chain.records[digest]? = some recorded) :
    recorded.step = signed.step := by
  have known := sound.recorded digest recorded found
  exact digest_inj free known.within presented.within known.hashed presented.hashed

/-- A recovery of a new generation is not recorded yet. -/
theorem Sound.unrecorded_of_newer (newer : chain.current.recoveryGen < signed.step.recoveryGen) :
    digest ∉ chain.records := by
  intro there
  obtain ⟨recorded, found⟩ := exists_getElem? there
  have older := (sound.recorded digest recorded found).generation
  rw [sound.recorded_step free presented found] at older
  exact absurd newer (not_lt.mpr older)

end Presented

/-! ### Each transition keeps it -/

/-- The held steps may change alone. -/
theorem Sound.holding {pending : Records}
    (keyed : Keyed seen { chain with pending }) (bounded : pending.size ≤ maxRecords) :
    Sound seen { chain with pending } where
  founded := sound.founded
  tipContext := sound.tipContext
  known := sound.known
  recorded digest signed found := by
    obtain ⟨hashed, within, generation, decoded⟩ := sound.recorded digest signed found
    exact ⟨hashed, within, generation, decoded⟩
  keyed := keyed
  parents := sound.parents
  proved := sound.proved
  unforked := sound.unforked
  bounded := bounded

theorem Sound.hold
    (presented : Presented seen chain.hive signed digest succession)
    (room : chain.pending.size < maxRecords) :
    Sound seen { chain with pending := chain.pending.insert digest signed } :=
  sound.holding (sound.keyed.insert presented) (size_insert_le.trans room)

theorem Sound.drop (digest : Digest) :
    Sound seen { chain with pending := chain.pending.erase digest } :=
  sound.holding (sound.keyed.erase digest) (Std.ExtTreeMap.size_erase_le.trans sound.bounded)

/-- What a conflicting branch, an exhausted history or a rival recovery leave: possibly one more
record with its context, and a chain that is no longer active. -/
theorem Sound.stop {fork : Bool} (stopped : status ≠ .active)
    (kept : ∀ parent ∈ chain.contexts, parent ∈ contexts)
    (tip : contexts[chain.tip]? = some chain.current)
    (known : ∀ digest ∈ contexts, digest = chain.founding ∨ digest ∈ records)
    (recorded : ∀ digest signed, records[digest]? = some signed →
      chain.records[digest]? = some signed ∨ Recorded seen
        { chain with records, contexts, status, recoveryFork := fork, conflict } digest signed) :
    Sound seen { chain with records, contexts, status, recoveryFork := fork, conflict } where
  founded := sound.founded
  tipContext := tip
  known := known
  recorded digest signed found := by
    rcases recorded digest signed found with old | new
    · exact (sound.recorded digest signed old).grow kept
    · exact new
  keyed := sound.keyed
  parents parent there :=
    ⟨kept parent (sound.parents parent there).1, (sound.parents parent there).2⟩
  proved := sound.proved
  unforked active := absurd active stopped
  bounded := sound.bounded

theorem Sound.exhaust :
    Sound seen { chain with status := .exhausted } :=
  sound.stop (by decide : Status.exhausted ≠ .active) (fun _ there => there) sound.tipContext
    sound.known fun _ _ found => .inl found

theorem Sound.known_insert :
    ∀ other ∈ chain.contexts.insert digest next,
      other = chain.founding ∨ other ∈ chain.records.insert digest signed := by
  intro other there
  rcases mem_insert_iff.mp there with rfl | there
  · exact .inr (mem_insert_iff.mpr (.inl rfl))
  · rcases sound.known other there with founding | recorded
    · exact .inl founding
    · exact .inr (mem_insert_iff.mpr (.inr recorded))

theorem Sound.fork (free : CollisionFree seen)
    (presented : Presented seen chain.hive signed digest succession)
    (admits : chain.Admits signed succession context next) (fresh : digest ∉ chain.records)
    (child : chain.children[signed.step.predecessor]? = some existing) :
    Sound seen (chain.forked existing signed digest next) := by
  have distinct : ∀ parent ∈ chain.contexts, parent ≠ digest :=
    fun _ there => ne_of_mem_of_not_mem there (sound.fresh free presented fresh)
  rcases Chain.forked_eq fresh with ⟨-, eq⟩ | ⟨-, eq⟩
  · rw [eq]
    refine sound.stop (by decide) ?_ ?_ ?_ ?_
    · intro parent there
      exact mem_insert_iff.mpr (.inr there)
    · rw [getElem?_insert_eq, if_neg (distinct _ (mem_of_getElem? sound.tipContext)).symm]
      exact sound.tipContext
    · exact sound.known_insert
    · intro other recorded found
      rcases getElem?_insert_cases found with old | ⟨rfl, rfl⟩
      · exact .inl old
      · refine .inr ⟨presented.hashed, presented.within, admits.generation.le, ?_⟩
        refine ⟨succession, presented.decoded, fun _ => ⟨?_, fun _ => ?_⟩⟩
        · exact mem_insert_iff.mpr (.inr (mem_of_getElem? admits.known))
        · exact (sound.parents _ (mem_of_getElem? child)).2
  · rw [eq]
    exact sound.stop (by decide) (fun _ there => there) sound.tipContext sound.known
      fun _ _ found => .inl found

theorem Sound.rival {known : Digest} {transition : Succession}
    (presented : Presented seen chain.hive signed digest (some transition))
    (kind : transition.kind = .recovery) (proved : signed.step.recoveryGen ∈ chain.recoveryProofs) :
    Sound seen { chain.halt known signed digest with recoveryFork := true } := by
  obtain ⟨records, eq, grown⟩ := chain.halt_eq known signed digest
  rw [eq]
  refine sound.stop (by decide : Status.halted ≠ .active) (fun _ there => there) sound.tipContext ?_ ?_
  · intro other there
    rcases sound.known other there with founding | recorded
    · exact .inl founding
    · rcases grown with rfl | rfl
      · exact .inr recorded
      · exact .inr (mem_insert_iff.mpr (.inr recorded))
  · intro other recorded found
    rcases grown with rfl | rfl
    · exact .inl found
    · rcases getElem?_insert_cases found with old | ⟨rfl, rfl⟩
      · exact .inl old
      · exact .inr ⟨presented.hashed, presented.within, sound.proved _ proved, some transition,
          presented.decoded, fun planned => (not_planned kind planned).elim⟩

theorem Sound.extend (free : CollisionFree seen)
    (presented : Presented seen chain.hive signed digest succession)
    (admits : chain.Admits signed succession context next) (fresh : digest ∉ chain.records)
    (onTip : signed.step.predecessor = chain.tip) :
    Sound seen (chain.extended signed digest next) := by
  have distinct : ∀ parent ∈ chain.contexts, parent ≠ digest :=
    fun _ there => ne_of_mem_of_not_mem there (sound.fresh free presented fresh)
  have tipKnown : chain.tip ∈ chain.contexts := mem_of_getElem? sound.tipContext
  have generation := admits.generation_eq
  obtain ⟨grants, used, serial, eq⟩ := chain.extended_eq signed digest next
  rw [eq]
  refine ⟨sound.founded, ?_, ?_, ?_, sound.keyed, ?_, ?_, sound.unforked, sound.bounded⟩
  · show (chain.contexts.insert digest next)[digest]? = some next
    rw [getElem?_insert_eq, if_pos rfl]
  · exact sound.known_insert
  · intro other recorded found
    rcases getElem?_insert_cases found with old | ⟨rfl, rfl⟩
    · obtain ⟨hashed, within, older, succession', decoded, ordinary⟩ :=
        sound.recorded other recorded old
      refine ⟨hashed, within, ?_, succession', decoded, fun planned => ?_⟩
      · show recorded.step.recoveryGen ≤ next.recoveryGen
        rw [generation]
        exact older
      · obtain ⟨there, -⟩ := ordinary planned
        exact ⟨mem_insert_iff.mpr (.inr there), fun _ => distinct _ there⟩
    · refine ⟨presented.hashed, presented.within, ?_, succession, presented.decoded, fun _ => ?_⟩
      · show recorded.step.recoveryGen ≤ next.recoveryGen
        rw [generation]
        exact admits.generation.le
      · rw [onTip]
        exact ⟨mem_insert_iff.mpr (.inr tipKnown), fun _ => distinct _ tipKnown⟩
  · intro parent there
    rcases mem_insert_iff.mp there with rfl | there
    · rw [onTip]
      exact ⟨mem_insert_iff.mpr (.inr tipKnown), distinct _ tipKnown⟩
    · have known := (sound.parents parent there).1
      exact ⟨mem_insert_iff.mpr (.inr known), distinct _ known⟩
  · intro proof there
    show proof ≤ next.recoveryGen
    rw [generation]
    exact sound.proved proof there

theorem Sound.recover {transition : Succession} {epoch : UInt64}
    (presented : Presented seen chain.hive signed digest (some transition))
    (kind : transition.kind = .recovery) (unforked : chain.recoveryFork = false)
    (newer : chain.current.recoveryGen < signed.step.recoveryGen) :
    Sound seen (chain.recovered signed digest transition
      { group := transition.successor, epoch, recoveryGen := signed.step.recoveryGen,
        sequence := signed.step.sequence }) := by
  refine ⟨sound.founded, ?_, ?_, ?_, ?_, ?_, ?_, fun _ => unforked, ?_⟩
  · show (chain.contexts.insert digest _)[digest]? = some _
    rw [getElem?_insert_eq, if_pos rfl]
    rfl
  · exact sound.known_insert
  · intro other recorded found
    rcases getElem?_insert_cases found with old | ⟨rfl, rfl⟩
    · obtain ⟨hashed, within, older, succession, decoded, ordinary⟩ :=
        sound.recorded other recorded old
      refine ⟨hashed, within, older.trans newer.le, succession, decoded, fun planned => ?_⟩
      -- Earlier records are of earlier generations.
      refine ⟨mem_insert_iff.mpr (.inr (ordinary planned).1), fun same => ?_⟩
      have sameGeneration : recorded.step.recoveryGen = signed.step.recoveryGen := same
      rw [sameGeneration] at older
      exact absurd newer (not_lt.mpr older)
    · exact ⟨presented.hashed, presented.within, le_refl _, some transition, presented.decoded,
        fun planned => (not_planned kind planned).elim⟩
  · intro other held found
    simp [Chain.recovered] at found
  · intro parent there
    simp [Chain.recovered] at there
  · intro proof there
    rcases mem_insert_iff.mp there with rfl | there
    · exact le_refl _
    · exact (sound.proved proof there).trans newer.le
  · simp [Chain.recovered]

end Sound

theorem Sound.transition (free : CollisionFree seen) (sound : Sound seen chain)
    (step : Transition seen chain after) : Sound seen after := by
  cases step with
  | hold presented active unknown room => exact sound.hold presented room
  | drop digest => exact sound.drop digest
  | exhaust => exact sound.exhaust
  | fork presented admits fresh child conflict => exact sound.fork free presented admits fresh child
  | extend presented admits fresh room onTip valid =>
    exact sound.extend free presented admits fresh onTip
  | recover presented kind unforked unproved newer verified valid room next =>
    exact sound.recover presented kind unforked newer
  | rival presented kind unforked proved verified valid hashed different =>
    exact sound.rival presented kind (mem_of_getElem? proved)

theorem Sound.ran (free : CollisionFree seen) (sound : Sound seen chain)
    (ran : Ran seen chain after) : Sound seen after := by
  induction ran with
  | refl => exact sound
  | tail _ last ih => exact ih.transition free last

/-! ## From the founding on -/

/-- What a new chain is: the founding descriptors, nothing recorded, nothing held. -/
theorem new_eq_ok (h : Chain.new group recovery = .ok chain) :
    ∃ bytes, foundingBytes group (some recovery) = .ok bytes ∧
      recovery.group.publicKey ≠ group.publicKey ∧
      chain =
        { hive := HiveId.fromRootVerifyingKey group.publicKey
          founding := Sha256.digest bytes, tip := Sha256.digest bytes
          current := { group, epoch := 0, recoveryGen := 0, sequence := 0 }, recovery
          contexts := (∅ : Std.ExtTreeMap Digest Context).insert (Sha256.digest bytes)
            { group, epoch := 0, recoveryGen := 0, sequence := 0 }
          records := ∅, pending := ∅, children := ∅, active := [], recoveryProofs := ∅, grants := ∅
          usedGrantIds := ∅, grantRevocationSerial := 0, status := .active, recoveryFork := false
          conflict := none } := by
  simp only [Chain.new, foundingDigest, ok_steps, not_or] at h
  obtain ⟨-, ⟨-, -, separate, -⟩, _, ⟨bytes, encoded, rfl⟩, rfl⟩ := h
  exact ⟨bytes, encoded, separate, rfl⟩

/-- A chain that offers of `seen` steps to a new chain lead to. -/
structure Reached (seen : Set Bytes) (group : GroupDescriptor) (recovery : RecoveryDescriptor)
    (steps : List SignedStep) (chain : Chain) : Prop where
  founded : ∃ start, Chain.new group recovery = .ok start ∧ chain = start.offers steps
  foundedWithin : ∀ bytes, foundingBytes group (some recovery) = .ok bytes → bytes ∈ seen
  within : ∀ signed ∈ steps, Within seen signed

theorem new_sound (h : Chain.new group recovery = .ok chain)
    (within : ∀ bytes, foundingBytes group (some recovery) = .ok bytes → bytes ∈ seen) :
    Sound seen chain := by
  obtain ⟨bytes, encoded, -, rfl⟩ := new_eq_ok h
  refine ⟨⟨group, some recovery, bytes, encoded, within bytes encoded, rfl⟩, ?_, ?_, ?_, ?_, ?_, ?_,
    fun _ => rfl, by simp⟩
  · simp
  · intro digest there
    rcases mem_insert_iff.mp there with rfl | there
    · exact .inl rfl
    · simp at there
  · intro digest signed found
    simp at found
  · intro digest signed found
    simp at found
  · intro parent there
    simp at there
  · intro generation there
    simp at there

/-- Every chain of a run has come there from the founding by transitions. -/
theorem Reached.ran (reached : Reached seen group recovery steps chain) :
    ∃ start, Chain.new group recovery = .ok start ∧ Sound seen start ∧ Ran seen start chain := by
  obtain ⟨⟨start, founded, rfl⟩, foundedWithin, within⟩ := reached
  have sound := new_sound founded foundedWithin
  exact ⟨start, founded, sound, (offers_leaves sound.keyed within).1⟩

theorem Reached.sound (free : CollisionFree seen)
    (reached : Reached seen group recovery steps chain) : Sound seen chain := by
  obtain ⟨start, -, sound, ran⟩ := reached.ran
  exact sound.ran free ran

end Supgang.Threshold
