/-
# Threshold.Ancestry — where the authority of a chain comes from

Over any run of offers from a founding: the order of the chain only grows, its group is the founding
one or was installed by a step signed by the group it replaced or by the recovery authority then in
force, the recovery descriptor changes only under its predecessor, the two keys stay apart, and the
active digests are the path of records that ends at the tip.

* `Chain.rank` — the order, compared recovery generation first; `Transition.rank`.
* `Installs` — one step that puts a group in force, with the signature it needed.
* `PathFrom` — a predecessor-linked path of records; `Rooted` — every record stands on the founding
  or on an earlier record, so a walk back always arrives.
* `authority_lineage` — all five over whole runs.
* `stopped_chain_stands` — a chain that a fork has stopped stands still.
-/
import Supgang.Threshold.Lineage

namespace Supgang.Threshold

set_option autoImplicit false
set_option linter.unusedSectionVars false

open Theory List
open Relation (ReflTransGen)

section Runs

variable [Sha256] [Ed25519] [P256] [Frost]
variable {seen : Set Bytes} {start chain after : Chain}

/-! ## The order grows -/

/-- The order of a chain, recovery generation first, then epoch, then sequence. -/
def Chain.rank (chain : Chain) : UInt64 ×ₗ UInt64 ×ₗ UInt64 :=
  toLex (chain.order.1, toLex (chain.order.2.1, chain.order.2.2))

variable {first second : Chain} {transition : Succession}

theorem rank_lt_of_generation (newer : first.current.recoveryGen < second.current.recoveryGen) :
    first.rank < second.rank :=
  Prod.Lex.toLex_lt_toLex.mpr (.inl newer)

variable {digest : Digest} {next : Context} {signed : SignedStep} {succession : Option Succession}

/-- An admitted step on the tip moves the order up. -/
theorem rank_extended (sound : Sound seen chain) {context : Context}
    (admits : chain.Admits signed succession context next)
    (onTip : signed.step.predecessor = chain.tip) :
    chain.rank < (chain.extended signed digest next).rank := by
  have here := sound.context_eq admits onTip
  obtain ⟨-, -, higher, -, rest⟩ := nextContext_eq_ok.mp admits.checked
  obtain ⟨grants, used, serial, eq⟩ := chain.extended_eq signed digest next
  rw [eq]
  subst here
  refine Prod.Lex.toLex_lt_toLex.mpr (.inr ?_)
  rcases rest with ⟨-, rfl⟩ | ⟨transition, epoch, -, planned⟩
  · exact ⟨rfl, Prod.Lex.toLex_lt_toLex.mpr (.inr ⟨rfl, lt_of_checkedAdd_one higher⟩)⟩
  · rw [planned.next]
    exact ⟨rfl, Prod.Lex.toLex_lt_toLex.mpr (.inl (lt_of_checkedAdd_one planned.higher))⟩

/-- A transition that keeps the tip keeps the order; one that moves the tip moves it up. -/
theorem Transition.rank (sound : Sound seen chain) (step : Transition seen chain after) :
    (after.tip = chain.tip ∧ after.rank = chain.rank) ∨ chain.rank < after.rank := by
  cases step with
  | hold | drop | exhaust => exact .inl ⟨rfl, rfl⟩
  | fork presented admits fresh child conflict =>
    rcases Chain.forked_eq fresh with ⟨-, eq⟩ | ⟨-, eq⟩ <;> rw [eq] <;> exact .inl ⟨rfl, rfl⟩
  | extend presented admits fresh room onTip valid => exact .inr (rank_extended sound admits onTip)
  | recover presented kind unforked unproved newer verified valid room next =>
    exact .inr (rank_lt_of_generation newer)
  | rival => exact .inl ⟨rfl, rfl⟩

theorem Ran.rank (free : CollisionFree seen) (sound : Sound seen chain)
    (ran : Ran seen chain after) :
    chain.rank ≤ after.rank ∧ (chain.tip ≠ after.tip → chain.rank < after.rank) := by
  induction ran with
  | refl => exact ⟨le_refl _, fun moved => absurd rfl moved⟩
  | tail earlier last ih =>
    rcases last.rank (sound.ran free earlier) with ⟨sameTip, sameRank⟩ | higher
    · rw [sameTip, sameRank]
      exact ih
    · exact ⟨ih.1.trans higher.le, fun _ => ih.1.trans_lt higher⟩

/-! ## Groups are installed under signature -/

/-- One step of the chain puts `group` in force: a planned succession signed by the group it replaces,
with the successor's possession proof, or a recovery signed by the recovery authority in force. -/
inductive Installs (seen : Set Bytes) (chain after : Chain) (group : GroupDescriptor) : Prop where
  | planned {signed : SignedStep} {digest : Digest} {transition : Succession} {next : Context}
      (step : Transition seen chain after)
      (presented : Presented seen chain.hive signed digest (some transition))
      (kind : transition.kind = .planned) (installed : transition.successor = group)
      (signedBy : signed.verify chain.current.group.publicKey = .ok ())
      (possession : transition.verifyPossession signed.step false = .ok ())
      (becomes : after = chain.extended signed digest next)
  | recovery {signed : SignedStep} {digest : Digest} {transition : Succession} {next : Context}
      (step : Transition seen chain after)
      (presented : Presented seen chain.hive signed digest (some transition))
      (kind : transition.kind = .recovery) (installed : transition.successor = group)
      (signedBy : signed.verify chain.recovery.group.publicKey = .ok ())
      (becomes : after = chain.recovered signed digest transition next)

theorem Transition.group (sound : Sound seen chain) (step : Transition seen chain after) :
    after.current.group = chain.current.group ∨ Installs seen chain after after.current.group := by
  have taken := step
  cases step with
  | hold | drop | exhaust => exact .inl rfl
  | fork presented admits fresh child conflict =>
    rcases Chain.forked_eq fresh with ⟨-, eq⟩ | ⟨-, eq⟩ <;> rw [eq] <;> exact .inl rfl
  | @extend signed digest succession context next presented admits fresh room onTip valid =>
    obtain rfl := sound.context_eq admits onTip
    have current : (chain.extended signed digest next).current = next := by
      obtain ⟨_, _, _, eq⟩ := chain.extended_eq signed digest next
      rw [eq]
    rw [current]
    rcases admits.next_cases with ⟨-, rfl⟩ | ⟨transition, epoch, rfl, planned⟩
    · exact .inl rfl
    · rw [planned.next] at taken ⊢
      exact .inr (.planned taken presented planned.kind rfl admits.verified planned.possession rfl)
  | recover presented kind unforked unproved newer verified valid room next =>
    exact .inr (.recovery taken presented kind rfl verified rfl)
  | rival => exact .inl rfl

/-- The group in force is that of the start, or one step of the run installed it. -/
theorem Ran.group (free : CollisionFree seen) (sound : Sound seen start)
    (ran : Ran seen start chain) :
    chain.current.group = start.current.group ∨
      ∃ before after, Ran seen start before ∧ Installs seen before after chain.current.group ∧
        Ran seen after chain := by
  induction ran with
  | refl => exact .inl rfl
  | @tail middle last earlier step ih =>
    rcases step.group (sound.ran free earlier) with same | installs
    · rw [same]
      rcases ih with old | ⟨before, after, ran, installs, onward⟩
      · exact .inl old
      · exact .inr ⟨before, after, ran, installs, onward.tail step⟩
    · exact .inr ⟨middle, last, earlier, installs, .refl⟩

/-! ## The two keys stay apart -/

theorem Transition.separate (sound : Sound seen chain) (step : Transition seen chain after)
    (apart : chain.current.group.publicKey ≠ chain.recovery.group.publicKey) :
    after.current.group.publicKey ≠ after.recovery.group.publicKey := by
  cases step with
  | hold | drop | exhaust => exact apart
  | fork presented admits fresh child conflict =>
    rcases Chain.forked_eq fresh with ⟨-, eq⟩ | ⟨-, eq⟩ <;> rw [eq] <;> exact apart
  | @extend signed digest succession context next presented admits fresh room onTip valid =>
    obtain rfl := sound.context_eq admits onTip
    obtain ⟨_, _, _, eq⟩ := chain.extended_eq signed digest next
    rw [eq]
    rcases admits.next_cases with ⟨-, rfl⟩ | ⟨transition, epoch, rfl, planned⟩
    · exact apart
    · rw [planned.next]
      have := planned.separate
      rwa [planned.recovery] at this
  | recover presented kind unforked unproved newer verified valid room next =>
    exact (validateRecovery_eq_ok.mp valid).1.separate
  | rival => exact apart

theorem Ran.separate (free : CollisionFree seen) (sound : Sound seen start)
    (apart : start.current.group.publicKey ≠ start.recovery.group.publicKey)
    (ran : Ran seen start chain) :
    chain.current.group.publicKey ≠ chain.recovery.group.publicKey := by
  induction ran with
  | refl => exact apart
  | tail earlier last ih => exact last.separate (sound.ran free earlier) ih

/-! ## The recovery descriptor changes under its predecessor -/

/-- An offered step replaces the recovery descriptor: signed under the one it replaces, one sequence
and one generation further, naming its digest. -/
def Rotates (chain after : Chain) (signed : SignedStep) : Prop :=
  ∃ transition, transitionOf signed.step = .ok (some transition) ∧ transition.kind = .recovery ∧
    signed.verify chain.recovery.group.publicKey = .ok () ∧
    after.recovery = transition.recovery ∧ Replaces transition.recovery chain.recovery

/-- Everything that recoveries are judged by is as it was. -/
structure KeepsRecovery (before after : Chain) : Prop where
  recovery : after.recovery = before.recovery
  proofs : after.recoveryProofs = before.recoveryProofs
  fork : after.recoveryFork = before.recoveryFork

theorem KeepsRecovery.refl (chain : Chain) : KeepsRecovery chain chain := ⟨rfl, rfl, rfl⟩

theorem KeepsRecovery.trans {third : Chain} (early : KeepsRecovery first second)
    (late : KeepsRecovery second third) : KeepsRecovery first third :=
  ⟨late.recovery.trans early.recovery, late.proofs.trans early.proofs, late.fork.trans early.fork⟩

theorem acceptOrdinary_keepsRecovery (chain : Chain) (signed : SignedStep) (digest : Digest)
    (succession : Option Succession) :
    Ends chain (acceptOrdinary signed digest succession) (fun _ => KeepsRecovery chain)
      (KeepsRecovery chain) := by
  have cases' := acceptOrdinary_cases chain signed digest succession
  rw [Ends]
  generalize (acceptOrdinary signed digest succession).run chain = result at cases'
  cases cases' with
  | refused | held | duplicate | exhausted => exact ⟨rfl, rfl, rfl⟩
  | fork admits fresh child conflict =>
    rcases Chain.forked_eq fresh with ⟨-, eq⟩ | ⟨-, eq⟩ <;> rw [eq] <;> exact ⟨rfl, rfl, rfl⟩
  | @extended context next admits fresh room onTip valid =>
    obtain ⟨_, _, _, eq⟩ := chain.extended_eq signed digest next
    rw [eq]
    exact ⟨rfl, rfl, rfl⟩

/-- Draining only takes ordinary steps. -/
theorem drainPending_keepsRecovery (chain : Chain) :
    Ends chain drainPending (fun _ => KeepsRecovery chain) (KeepsRecovery chain) := by
  refine drainLoop_ends ?_ ?_ maxRecords chain (.refl chain)
  · intro middle digest held kept _
    exact kept.trans ⟨rfl, rfl, rfl⟩
  · intro middle digest held succession kept _ _ _
    have same : KeepsRecovery chain { middle with pending := middle.pending.erase digest } :=
      kept.trans ⟨rfl, rfl, rfl⟩
    exact (acceptOrdinary_keepsRecovery _ held digest succession).mono
      (fun _ _ late => same.trans late) (fun _ late => same.trans late)

theorem acceptRecovery_rotates (chain : Chain) (digest : Digest)
    (decoded : transitionOf signed.step = .ok (some transition))
    (kind : transition.kind = .recovery) : Ends chain (acceptRecovery signed digest transition)
      (fun _ after => after.recovery = chain.recovery ∨ Rotates chain after signed)
      (fun after => after.recovery = chain.recovery ∨ Rotates chain after signed) := by
  have cases' := acceptRecovery_cases chain signed digest transition
  rw [Ends]
  generalize (acceptRecovery signed digest transition).run chain = result at cases'
  cases cases' with
  | refused | duplicate | exhausted | rival => exact .inl rfl
  | recovered unproved newer verified valid room next =>
    rcases (validateRecovery_eq_ok.mp valid).1.change with same | replaces
    · exact .inl same
    · exact .inr ⟨transition, decoded, kind, verified, rfl, replaces⟩

/-- **The recovery descriptor changes only under its predecessor.** -/
theorem offer_recovery (chain : Chain) (signed : SignedStep) :
    (chain.offer signed).recovery = chain.recovery ∨
      Rotates chain (chain.offer signed) signed := by
  refine offer_of_ends
    (P := fun after => after.recovery = chain.recovery ∨ Rotates chain after signed)
    (accept_ends (.inl rfl) ?_ ?_)
  · intro digest succession hashed sameHive unforked decoded
    rcases dispatch_cases signed digest succession with ⟨transition, rfl, kind, eq⟩ | ⟨-, eq⟩
    · rw [eq]
      exact acceptRecovery_rotates chain digest decoded kind
    · rw [eq]
      exact (acceptOrdinary_keepsRecovery chain signed digest succession).mono
        (fun _ _ kept => .inl kept.recovery) (fun _ kept => .inl kept.recovery)
  · intro middle holds
    have carry : ∀ after, KeepsRecovery middle after →
        (after.recovery = chain.recovery ∨ Rotates chain after signed) := by
      intro after kept
      rcases holds with old | ⟨transition, decoded, kind, verified, new, replaces⟩
      · exact .inl (kept.recovery.trans old)
      · exact .inr ⟨transition, decoded, kind, verified, kept.recovery.trans new, replaces⟩
    exact (drainPending_keepsRecovery middle).mono (fun _ => carry) carry

/-! ## Paths of records -/

/-- Each digest is a record that names the one before it, the first one `origin`. -/
def PathFrom (records : Records) : Digest → List Digest → Prop
  | _, [] => True
  | origin, digest :: rest =>
    (∃ signed, records[digest]? = some signed ∧ signed.step.predecessor = origin) ∧
      PathFrom records digest rest

theorem pathFrom_concat {records : Records} :
    ∀ {origin : Digest} {path : List Digest},
      PathFrom records origin (path ++ [digest]) ↔
        PathFrom records origin path ∧
          ∃ signed, records[digest]? = some signed ∧
            signed.step.predecessor = path.getLastD origin
  | origin, [] => by simp [PathFrom]
  | origin, first :: rest => by
    rw [cons_append, PathFrom, PathFrom, pathFrom_concat, getLastD_cons, and_assoc]

/-- Records only grow, and a digest keeps naming one step. -/
def Grows (before after : Records) : Prop :=
  ∀ (digest : Digest) (signed : SignedStep), before[digest]? = some signed →
    ∃ kept, after[digest]? = some kept ∧ kept.step = signed.step

theorem Grows.refl (records : Records) : Grows records records :=
  fun _ signed found => ⟨signed, found, rfl⟩

theorem PathFrom.grow {before after : Records} (grows : Grows before after) :
    ∀ {origin : Digest} {path : List Digest}, PathFrom before origin path →
      PathFrom after origin path
  | _, [], _ => trivial
  | _, digest :: rest, ⟨⟨signed, found, named⟩, onward⟩ => by
    obtain ⟨kept, there, same⟩ := grows digest signed found
    exact ⟨⟨kept, there, by rw [same, named]⟩, onward.grow grows⟩

/-- A new record grows the records, also where the same step is written again. -/
theorem Sound.grows (sound : Sound seen chain) (free : CollisionFree seen)
    (presented : Presented seen chain.hive signed digest succession) :
    Grows chain.records (chain.records.insert digest signed) := by
  intro other recorded found
  rw [getElem?_insert_eq]
  by_cases same : digest = other
  · subst same
    exact ⟨signed, if_pos rfl, (sound.recorded_step free presented found).symm⟩
  · exact ⟨recorded, (if_neg same).trans found, rfl⟩

/-- Walking back along recorded predecessors gives a path, from wherever the walk stopped. -/
theorem ancestryFrom_path (chain : Chain) :
    ∀ (fuel : Nat) (digest : Digest), ∃ origin,
      PathFrom chain.records origin (chain.ancestryFrom fuel digest).reverse ∧
        (chain.ancestryFrom fuel digest).reverse.getLastD origin = digest := by
  intro fuel
  induction fuel with
  | zero =>
    intro digest
    exact ⟨digest, trivial, rfl⟩
  | succ fuel ih =>
    intro digest
    rw [Chain.ancestryFrom]
    by_cases founding : digest = chain.founding
    · rw [if_pos founding]
      exact ⟨digest, trivial, rfl⟩
    · rw [if_neg founding]
      cases found : chain.records[digest]? with
      | none => exact ⟨digest, trivial, rfl⟩
      | some record =>
        obtain ⟨origin, path, last⟩ := ih record.step.predecessor
        refine ⟨origin, ?_, ?_⟩
        · rw [reverse_cons, pathFrom_concat]
          exact ⟨path, record, found, last.symm⟩
        · simp

/-! ## A walk back arrives at the founding -/

/-- The records in the order they were made: each stands on the founding or on an earlier one. -/
def Rooted (chain : Chain) : Prop :=
  ∃ order : List Digest, (∀ digest ∈ chain.records, digest ∈ order) ∧
    order.length ≤ chain.records.size ∧
    ∀ before digest later, order = before ++ digest :: later →
      ∃ signed, chain.records[digest]? = some signed ∧
        (signed.step.predecessor = chain.founding ∨ signed.step.predecessor ∈ before)

/-- One more record that stands on a known context. -/
theorem Rooted.record (sound : Sound seen chain) (rooted : Rooted chain)
    (fresh : digest ∉ chain.records) (known : signed.step.predecessor ∈ chain.contexts)
    (founding : after.founding = chain.founding)
    (records : after.records = chain.records.insert digest signed) : Rooted after := by
  obtain ⟨order, complete, short, stands⟩ := rooted
  refine ⟨order ++ [digest], ?_, ?_, ?_⟩
  · intro other there
    rw [records] at there
    rcases mem_insert_iff.mp there with rfl | there
    · simp
    · exact mem_append_left _ (complete other there)
  · have unseen : chain.records.contains digest = false := by
      rw [← Bool.not_eq_true, ← Std.ExtTreeMap.mem_iff_contains]
      exact fresh
    rw [records, Std.ExtTreeMap.size_insert, unseen, length_append, length_singleton]
    simpa using short
  · intro before other later split
    rw [records, founding, getElem?_insert_eq]
    rcases eq_nil_or_concat later with rfl | ⟨later, last, rfl⟩
    · have parts := append_inj' split rfl
      obtain ⟨rfl, same⟩ := parts
      cases same
      refine ⟨signed, if_pos rfl, ?_⟩
      rcases sound.known _ known with found | recorded
      · exact .inl found
      · exact .inr (complete _ recorded)
    · have parts : order = before ++ other :: later := by
        rw [concat_eq_append, ← cons_append, ← append_assoc] at split
        exact (append_inj' split rfl).1
      obtain ⟨recorded, found, stood⟩ := stands before other later parts
      refine ⟨recorded, ?_, stood⟩
      rw [if_neg ?_]
      · exact found
      · rintro rfl
        exact fresh (mem_of_getElem? found)

/-- With room to walk all records, the walk back from a known digest arrives. -/
theorem Rooted.walk {order : List Digest}
    (stands : ∀ before digest later, order = before ++ digest :: later →
      ∃ signed, chain.records[digest]? = some signed ∧
        (signed.step.predecessor = chain.founding ∨ signed.step.predecessor ∈ before)) :
    ∀ (fuel : Nat) (before later : List Digest) (digest : Digest), order = before ++ later →
      before.length ≤ fuel → (digest = chain.founding ∨ digest ∈ before) →
      PathFrom chain.records chain.founding (chain.ancestryFrom fuel digest).reverse ∧
        (chain.ancestryFrom fuel digest).reverse.getLastD chain.founding = digest := by
  intro fuel
  -- On the fuel: the record named is earlier than the one that names it.
  induction fuel with
  | zero =>
    intro before later digest split short known
    have empty : before = [] := eq_nil_of_length_eq_zero (Nat.le_zero.mp short)
    subst empty
    rcases known with founding | inside
    · exact ⟨trivial, founding.symm⟩
    · cases inside
  | succ fuel ih =>
    intro before later digest split short known
    rw [Chain.ancestryFrom]
    by_cases founding : digest = chain.founding
    · rw [if_pos founding]
      exact ⟨trivial, founding.symm⟩
    · rw [if_neg founding]
      obtain ⟨first, rest, rfl⟩ := append_of_mem (known.resolve_left founding)
      have split' : order = first ++ digest :: (rest ++ later) := by
        rw [split, append_assoc, cons_append]
      obtain ⟨signed, found, stood⟩ := stands first digest (rest ++ later) split'
      have shorter : first.length ≤ fuel := by
        rw [length_append, length_cons] at short
        omega
      obtain ⟨path, last⟩ := ih first (digest :: (rest ++ later)) signed.step.predecessor split'
        shorter stood
      simp only [found]
      refine ⟨?_, by simp⟩
      rw [reverse_cons, pathFrom_concat]
      exact ⟨path, signed, found, last.symm⟩

theorem Rooted.ancestry (sound : Sound seen chain) (rooted : Rooted chain)
    (room : chain.records.size < maxRecords) (known : digest ∈ chain.contexts) :
    PathFrom chain.records chain.founding (chain.ancestry digest) ∧
      (chain.ancestry digest).getLastD chain.founding = digest := by
  obtain ⟨order, complete, short, stands⟩ := rooted
  refine Rooted.walk stands maxRecords order [] digest (append_nil _).symm (by omega) ?_
  rcases sound.known digest known with founding | recorded
  · exact .inl founding
  · exact .inr (complete digest recorded)

/-! ## The active path of a run -/

/-- Somewhere in the run, an accepted recovery named a predecessor the chain did not know. -/
def Strayed (seen : Set Bytes) (start chain : Chain) : Prop :=
  ∃ before signed digest transition next, Ran seen start before ∧
    Transition seen before (before.recovered signed digest transition next) ∧
    signed.step.predecessor ∉ before.contexts ∧
    Ran seen (before.recovered signed digest transition next) chain

theorem Strayed.tail (strayed : Strayed seen start chain) (step : Transition seen chain after) :
    Strayed seen start after := by
  obtain ⟨before, signed, digest, transition, next, ran, recovered, unknown, onward⟩ := strayed
  exact ⟨before, signed, digest, transition, next, ran, recovered, unknown, onward.tail step⟩

/-- The active digests are a path of records to the tip, from the founding unless the run strayed. -/
structure Lined (seen : Set Bytes) (start chain : Chain) : Prop where
  path : ∃ origin, PathFrom chain.records origin chain.active ∧
    chain.active.getLastD origin = chain.tip ∧
    (origin = chain.founding ∨ Strayed seen start chain)
  rooted : chain.recoveryFork = true ∨ Strayed seen start chain ∨ Rooted chain

/-- A transition that only stops the chain, or only holds and drops steps, keeps the path. -/
theorem Lined.keep (lined : Lined seen start chain) (step : Transition seen chain after)
    (founding : after.founding = chain.founding) (active : after.active = chain.active)
    (tip : after.tip = chain.tip) (grows : Grows chain.records after.records)
    (rooted : after.recoveryFork = true ∨
      (chain.recoveryFork = after.recoveryFork ∧ (Rooted chain → Rooted after))) :
    Lined seen start after := by
  obtain ⟨⟨origin, path, last, from'⟩, old⟩ := lined
  constructor
  · refine ⟨origin, ?_, ?_, ?_⟩
    · rw [active]
      exact path.grow grows
    · rw [active, tip, last]
    · rw [founding]
      exact from'.imp id fun strayed => strayed.tail step
  · rcases rooted with forked | ⟨sameFork, rooted⟩
    · exact .inl forked
    · rw [← sameFork]
      exact old.imp id (Or.imp (fun strayed => strayed.tail step) rooted)

theorem Lined.extend (sound : Sound seen chain) (free : CollisionFree seen)
    (lined : Lined seen start chain)
    (presented : Presented seen chain.hive signed digest succession)
    (fresh : digest ∉ chain.records) (onTip : signed.step.predecessor = chain.tip)
    (step : Transition seen chain (chain.extended signed digest next)) :
    Lined seen start (chain.extended signed digest next) := by
  obtain ⟨⟨origin, path, last, from'⟩, old⟩ := lined
  have grows := sound.grows free presented
  have known : signed.step.predecessor ∈ chain.contexts := by
    rw [onTip]
    exact mem_of_getElem? sound.tipContext
  obtain ⟨grants, used, serial, eq⟩ := chain.extended_eq signed digest next
  constructor
  · refine ⟨origin, ?_, ?_, ?_⟩
    · rw [eq]
      refine pathFrom_concat.mpr ⟨path.grow grows, signed, ?_, ?_⟩
      · rw [getElem?_insert_eq, if_pos rfl]
      · rw [onTip, last]
    · rw [eq]
      simp
    · rcases from' with same | strayed
      · left
        rw [same, eq]
      · exact .inr (strayed.tail step)
  · rcases old with forked | strayed | rooted
    · left
      rw [eq]
      exact forked
    · exact .inr (.inl (strayed.tail step))
    · refine .inr (.inr (rooted.record sound fresh known ?_ ?_)) <;> rw [eq]

theorem Lined.recover (sound : Sound seen chain) (free : CollisionFree seen)
    (ran : Ran seen start chain) (lined : Lined seen start chain)
    (presented : Presented seen chain.hive signed digest (some transition))
    (unforked : chain.recoveryFork = false)
    (newer : chain.current.recoveryGen < signed.step.recoveryGen)
    (room : chain.records.size < maxRecords)
    (step : Transition seen chain (chain.recovered signed digest transition next)) :
    Lined seen start (chain.recovered signed digest transition next) := by
  have fresh := sound.unrecorded_of_newer free presented newer
  have grows := sound.grows free presented
  have last : ((chain.records.insert digest signed)[digest]? : Option SignedStep) = some signed := by
    rw [getElem?_insert_eq, if_pos rfl]
  by_cases known : signed.step.predecessor ∈ chain.contexts
  · rcases lined.rooted with forked | strayed | rooted
    · rw [unforked] at forked
      cases forked
    · obtain ⟨origin, path, arrives⟩ := ancestryFrom_path chain maxRecords signed.step.predecessor
      refine ⟨⟨origin, pathFrom_concat.mpr ⟨path.grow grows, signed, last, arrives.symm⟩, ?_,
        .inr (strayed.tail step)⟩, .inr (.inl (strayed.tail step))⟩
      simp [Chain.recovered]
    · obtain ⟨path, arrives⟩ := rooted.ancestry sound room known
      refine ⟨⟨chain.founding, pathFrom_concat.mpr ⟨path.grow grows, signed, last, arrives.symm⟩, ?_,
        .inl rfl⟩, .inr (.inr (rooted.record sound fresh known rfl rfl))⟩
      simp [Chain.recovered]
  · -- The recovery itself strays.
    have strayed : Strayed seen start (chain.recovered signed digest transition next) :=
      ⟨chain, signed, digest, transition, next, ran, step, known, .refl⟩
    obtain ⟨origin, path, arrives⟩ := ancestryFrom_path chain maxRecords signed.step.predecessor
    refine ⟨⟨origin, pathFrom_concat.mpr ⟨path.grow grows, signed, last, arrives.symm⟩, ?_,
      .inr strayed⟩, .inr (.inl strayed)⟩
    simp [Chain.recovered]

theorem Ran.lined (free : CollisionFree seen) (sound : Sound seen start)
    (first : Lined seen start start) (ran : Ran seen start chain) : Lined seen start chain := by
  induction ran with
  | refl => exact first
  | @tail chain after earlier step ih =>
    have here := sound.ran free earlier
    cases step with
    | hold presented active unknown room =>
      exact ih.keep (.hold presented active unknown room) rfl rfl rfl (.refl _)
        (.inr ⟨rfl, fun rooted => rooted⟩)
    | drop digest =>
      exact ih.keep (.drop digest) rfl rfl rfl (.refl _) (.inr ⟨rfl, fun rooted => rooted⟩)
    | exhaust => exact ih.keep .exhaust rfl rfl rfl (.refl _) (.inr ⟨rfl, fun rooted => rooted⟩)
    | fork presented admits fresh child conflict =>
      have step := Transition.fork presented admits fresh child conflict
      have known := mem_of_getElem? admits.known
      rcases Chain.forked_eq fresh with ⟨-, eq⟩ | ⟨-, eq⟩
      · rw [eq] at step ⊢
        exact ih.keep step rfl rfl rfl (here.grows free presented)
          (.inr ⟨rfl, fun rooted => rooted.record here fresh known rfl rfl⟩)
      · rw [eq] at step ⊢
        exact ih.keep step rfl rfl rfl (.refl _) (.inr ⟨rfl, fun rooted => rooted⟩)
    | extend presented admits fresh room onTip valid =>
      exact ih.extend here free presented fresh onTip
        (.extend presented admits fresh room onTip valid)
    | recover presented kind unforked unproved newer verified valid room next =>
      exact ih.recover here free earlier presented unforked newer room
        (.recover presented kind unforked unproved newer verified valid room next)
    | @rival signed previous digest known transition authority presented kind unforked proved
        verified valid hashed different =>
        have step := Transition.rival presented kind unforked proved verified valid hashed different
        obtain ⟨records, eq, grown⟩ := chain.halt_eq known signed digest
        rw [eq] at step ⊢
        refine ih.keep step rfl rfl rfl ?_ (.inl rfl)
        rcases grown with rfl | rfl
        · exact .refl _
        · exact here.grows free presented

/-- **Authority lineage.** Over every run of offers from a founding: the order never falls and rises
whenever the tip moves; the group in force is the founding one or was installed under the signature
of the group it replaced, or of the recovery authority then in force; an offer changes the recovery
descriptor only under the signature of the one it replaces, one sequence and one generation further
and naming its digest; the two keys are never equal; and the active digests are the path of records
that ends at the tip, from the founding digest unless an accepted recovery named a predecessor the
chain did not know. -/
theorem authority_lineage (free : CollisionFree seen) {group : GroupDescriptor}
    {recovery : RecoveryDescriptor} (founded : Chain.new group recovery = .ok start)
    (foundedWithin : ∀ bytes, foundingBytes group (some recovery) = .ok bytes → bytes ∈ seen)
    (earlier later : List SignedStep)
    (within : ∀ signed ∈ earlier ++ later, Within seen signed) :
    let before := start.offers earlier
    let chain := start.offers (earlier ++ later)
    (before.rank ≤ chain.rank ∧ (before.tip ≠ chain.tip → before.rank < chain.rank)) ∧
    (chain.current.group = group ∨ ∃ first second, Ran seen start first ∧
      Installs seen first second chain.current.group ∧ Ran seen second chain) ∧
    (∀ signed, (chain.offer signed).recovery = chain.recovery ∨
      Rotates chain (chain.offer signed) signed) ∧
    chain.current.group.publicKey ≠ chain.recovery.group.publicKey ∧
    ∃ origin, PathFrom chain.records origin chain.active ∧
      chain.active.getLastD origin = chain.tip ∧
      (origin = chain.founding ∨ Strayed seen start chain) := by
  intro before chain
  have sound := new_sound founded foundedWithin
  have earlierWithin : ∀ signed ∈ earlier, Within seen signed :=
    fun signed there => within signed (mem_append_left _ there)
  obtain ⟨ranBefore, keyed⟩ := offers_leaves sound.keyed earlierWithin
  have ranChain : Ran seen start chain := (offers_leaves sound.keyed within).1
  have ranBetween : Ran seen before chain := by
    rw [show chain = before.offers later from start.offers_append earlier later]
    exact (offers_leaves keyed fun signed there => within signed (mem_append_right _ there)).1
  obtain ⟨bytes, encoded, separate, rfl⟩ := new_eq_ok founded
  refine ⟨ranBetween.rank free (sound.ran free ranBefore), ranChain.group free sound,
    offer_recovery chain, ranChain.separate free sound separate.symm, ?_⟩
  exact (ranChain.lined free sound
    ⟨⟨_, trivial, rfl, .inl rfl⟩, .inr (.inr ⟨[], by simp, by simp, by simp⟩)⟩).path

/-! ## A chain that has stopped -/

/-- Stopped and as before, or past a recovery, which a recovery fork rules out. -/
def Stays (before chain : Chain) : Prop :=
  (chain.status ≠ .active ∧ (chain.tip, chain.current, chain.recovery, chain.active, chain.grants) =
      (before.tip, before.current, before.recovery, before.active, before.grants) ∧
    (before.recoveryFork = true → chain.recoveryFork = true)) ∨
  (before.recoveryFork = false ∧ before.current.recoveryGen < chain.current.recoveryGen)

theorem Transition.stays {before : Chain} (step : Transition seen chain after)
    (stays : Stays before chain) : Stays before after := by
  rcases stays with ⟨stopped, same, forked⟩ | ⟨unforked, newer⟩
  · cases step with
    | hold _ active => exact absurd active stopped
    | drop => exact .inl ⟨stopped, same, forked⟩
    | exhaust => exact .inl ⟨nofun, same, forked⟩
    | fork _ admits => exact absurd admits.active stopped
    | extend _ admits => exact absurd admits.active stopped
    | recover _ _ unforked _ newer =>
      have current : chain.current = before.current := congrArg (·.2.1) same
      exact .inr ⟨by simpa [unforked] using forked, current ▸ newer⟩
    | rival => exact .inl ⟨nofun, same, fun _ => rfl⟩
  · -- The generation never falls.
    refine .inr ⟨unforked, newer.trans_le ?_⟩
    cases step with
    | fork _ _ fresh => rcases Chain.forked_eq fresh with ⟨-, eq⟩ | ⟨-, eq⟩ <;> rw [eq]
    | extend _ admits => exact admits.generation_eq.ge
    | recover _ _ _ _ newer => exact newer.le
    | _ => exact le_rfl

/-- **A stopped chain stands still.** Over every run of offers from a founding: once a fork or a full
history has stopped the chain, its tip, context, recovery descriptor, active digests and grants stay
until a recovery of a newer generation is accepted, and after a recovery fork for ever. -/
theorem stopped_chain_stands {group : GroupDescriptor} {recovery : RecoveryDescriptor}
    (founded : Chain.new group recovery = .ok start) (earlier later : List SignedStep)
    (stopped : (start.offers earlier).status ≠ .active) :
    Stays (start.offers earlier) (start.offers (earlier ++ later)) := by
  have sound : Sound Set.univ start := new_sound founded fun _ _ => trivial
  have within (signed : SignedStep) : Within Set.univ signed := fun _ _ => trivial
  obtain ⟨-, keyed⟩ := offers_leaves sound.keyed fun signed (_ : signed ∈ earlier) => within signed
  have ran := (offers_leaves keyed fun signed (_ : signed ∈ later) => within signed).1
  rw [Chain.offers_append]
  generalize (start.offers earlier).offers later = chain at ran ⊢
  induction ran with
  | refl => exact .inl ⟨stopped, rfl, id⟩
  | tail _ step ih => exact step.stays ih

end Runs

/-! ## Fixed inputs -/

/-- A hash by the last bytes: a step is named by its proposer, a founding by its recovery key. -/
@[reducible] def proposerSha256 : Sha256 where
  digest bytes := ⟨(bytes.reverse ++ List.replicate 32 0).take 32, by simp⟩

/-- A scheme in which every signature but the empty one verifies. -/
@[reducible] def nonemptyEd25519 : Ed25519 where
  verifyingKey secret := secret
  wellFormed _ := true
  isWeak _ := false
  sign _ _ := FixedBytes.replicate 64 1
  verifyStrict _ _ signature := signature ≠ emptySignature

@[reducible] def anyP256 : P256 where
  onCurve _ := true
  lowS _ := true
  verifyPrehash _ _ _ := true

@[reducible] def unitFrost : Frost where
  Identifier := UInt16
  VerifyingShare := FixedBytes 32
  GroupKey := FixedBytes 32
  SigningShare := Unit
  SigningNonces := Unit
  SigningCommitments := Unit
  SignatureShare := Unit
  identifierEq := inferInstance
  verifyingShareEq := inferInstance
  groupKeyEq := inferInstance
  identifier := some
  deserializeVerifyingShare := some
  deserializeVerifyingKey := some
  serializePackage _ := some []
  serializeCommitments _ := some []
  serializeShare _ := []
  deserializeShare _ := some ()
  commit _ _ := ((), ())
  sign _ _ _ := some ()

attribute [local instance] proposerSha256 nonemptyEd25519 anyP256 unitFrost

def pairPoint (byte : UInt8) : DevicePublicKey := ⟨FixedBytes.replicate 33 byte, rfl⟩

/-- Two participants under one key. -/
def pairGroup (key : UInt8) : GroupDescriptor where
  label := "hive"
  k := 2
  generation := 0
  participants := [⟨1, pairPoint 1, FixedBytes.replicate 32 1⟩,
    ⟨2, pairPoint 2, FixedBytes.replicate 32 2⟩]
  publicKey := FixedBytes.replicate 32 key

def pairRecovery : RecoveryDescriptor := ⟨0, FixedBytes.replicate 32 0, pairGroup 2⟩

def pairHive : HiveId := HiveId.fromRootVerifyingKey (pairGroup 1).publicKey

/-- A signed step of the pair's hive, named by its proposer. -/
def pairStep (name predecessor : UInt8) (sequence : UInt64) (operation : Operation)
    (payload : Bytes) : SignedStep where
  step := {
    hive := pairHive, predecessor := FixedBytes.replicate 32 predecessor, sequence, epoch := 0
    recoveryGen := 0, operation, payload, proposedAt := 0, proposer := FixedBytes.replicate 32 name }
  signature := FixedBytes.replicate 64 1

/-- What the hash is applied to when these steps are offered to the pair's chain. -/
def pairSeen (steps : List SignedStep) : List Bytes :=
  (foundingBytes (pairGroup 1) (some pairRecovery) :: steps.map fun signed => signed.step.encode)
    |>.filterMap Except.toOption

theorem pairSeen_within (steps : List SignedStep) :
    ∀ signed ∈ steps, Within (fun bytes => bytes ∈ pairSeen steps) signed := by
  intro signed there bytes encoded
  refine mem_filterMap.mpr ⟨signed.step.encode, ?_, by rw [encoded]; rfl⟩
  exact mem_cons_of_mem _ (mem_map_of_mem there)

theorem pairSeen_founded (steps : List SignedStep) :
    ∀ bytes, foundingBytes (pairGroup 1) (some pairRecovery) = .ok bytes →
      bytes ∈ pairSeen steps := by
  intro bytes encoded
  exact mem_filterMap.mpr ⟨_, mem_cons_self, by rw [encoded]; rfl⟩

theorem pairSeen_free (steps : List SignedStep)
    (distinct : ((pairSeen steps).map Sha256.digest).Nodup) :
    CollisionFree fun bytes => bytes ∈ pairSeen steps :=
  inj_on_of_nodup_map distinct

/-- A recovery to a new root key and a new recovery key. -/
def rotatedKeys : Succession where
  kind := .recovery
  previousKey := FixedBytes.replicate 32 1
  successor := pairGroup 3
  retained := emptyRetainedDigest
  recovery := ⟨1, FixedBytes.replicate 32 2, { pairGroup 4 with generation := 1 }⟩
  possession := FixedBytes.replicate 64 1
  recoveryPossession := FixedBytes.replicate 64 1

def rotation : SignedStep :=
  let signed := pairStep 11 10 2 .succession (rotatedKeys.encode.toOption.getD [])
  { signed with step := { signed.step with recoveryGen := 1 } }

/-- The pair's chain before any offer. -/
def pairStart : Chain := (Chain.new (pairGroup 1) pairRecovery).toOption.get (by decide +kernel)

theorem pairStart_founded : Chain.new (pairGroup 1) pairRecovery = .ok pairStart := by
  have founded : (Chain.new (pairGroup 1) pairRecovery).toOption.isSome = true := by decide +kernel
  cases eq : Chain.new (pairGroup 1) pairRecovery with
  | ok start => simp [pairStart, eq, Except.toOption]
  | error error =>
    rw [eq] at founded
    cases founded

/-- An ordinary step on the founding. -/
def firstStep : SignedStep := pairStep 10 2 1 .revoke []

theorem stopped_chain_stands_forked : Stays (pairStart.offers [firstStep, pairStep 12 2 1 .revoke []])
    (pairStart.offers ([firstStep, pairStep 12 2 1 .revoke []] ++ [rotation])) :=
  stopped_chain_stands pairStart_founded _ _ (by decide +kernel)

/-- A step and then a recovery that rotates both keys. -/
theorem authority_lineage_rotated :
    (pairStart.offers ([firstStep] ++ [rotation])).recovery ≠ pairRecovery ∧
    (pairStart.offers [firstStep]).rank < (pairStart.offers ([firstStep] ++ [rotation])).rank ∧
    (pairStart.offers ([firstStep] ++ [rotation])).current.group.publicKey ≠
      (pairStart.offers ([firstStep] ++ [rotation])).recovery.group.publicKey := by
  have free := pairSeen_free ([firstStep] ++ [rotation]) (by decide +kernel)
  obtain ⟨⟨-, rises⟩, -, -, apart, -⟩ := authority_lineage free pairStart_founded
    (pairSeen_founded _) [firstStep] [rotation] (pairSeen_within _)
  have moved : (pairStart.offers [firstStep]).tip ≠ (pairStart.offers ([firstStep] ++ [rotation])).tip := by
    decide +kernel
  have rotated : (pairStart.offers ([firstStep] ++ [rotation])).recovery ≠ pairRecovery := by
    decide +kernel
  exact ⟨rotated, rises moved, apart⟩

end Supgang.Threshold
