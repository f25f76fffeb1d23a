/-
# Theory.Program — fallible and stateful programs

Two shapes of program are embedded throughout: a pure computation that may refuse (`Except`), and
a computation over a state that an error does not undo (`EStateM`), which is what a method with a
mutable receiver and an early `return Err` is. This module fixes the early-return idiom `reject`
and the inversion lemmas every proof about such programs peels them apart with.

* `reject bad e` — refuse with `e` when `bad` holds; `reject_eq_ok`, `run_reject`.
* `bind_eq_ok`, `run_bind_eq_ok` — a success of a sequence is a success of each part.
* `okOr` — an absent value read as a refusal.
* `ok_steps`, `run_steps` — the success of a program, read off all its steps.
* `Avoids e x` — `x` never refuses with `e`; one rule for each construct.
* `Ends s x Q E` — from `s` the program succeeds with `Q` or fails in a state of `E`; one rule for
  each construct. With `E` the state `s` itself it says that a failure leaves no trace.
* `left` — the state a program leaves, in either case.
* `attempt` — the outcome of a program over a part of the state, as a value to branch on.
-/
import Supgang.Theory.Bytes

namespace Supgang.Theory

set_option autoImplicit false

universe u

/-- Refuse with `e` when `bad` holds. -/
def reject {ε : Type u} {m : Type → Type} [Monad m] [MonadExceptOf ε m] (bad : Prop)
    [Decidable bad] (e : ε) : m Unit :=
  if bad then throwThe ε e else pure ()

/-- An absent value refused with `e`. -/
def okOr {ε α : Type} (value : Option α) (e : ε) : Except ε α :=
  match value with
  | some a => .ok a
  | none => .error e

/-! ## Pure computations -/

section Pure

variable {ε ε' α β : Type}

theorem bind_eq_ok {x : Except ε α} {f : α → Except ε β} {b : β} :
    (x >>= f) = .ok b ↔ ∃ a, x = .ok a ∧ f a = .ok b := by
  cases x with
  | error e => simp [bind, Except.bind]
  | ok a => simp [bind, Except.bind]

variable {bad : Prop}

@[simp] theorem reject_eq_ok [Decidable bad] {e : ε} {u : Unit} :
    (reject bad e : Except ε Unit) = .ok u ↔ ¬bad := by
  unfold reject
  split <;> simp_all [throwThe, MonadExceptOf.throw, pure, Except.pure]

theorem reject_bind_eq_ok [Decidable bad] {e : ε} {f : Unit → Except ε β} {b : β} :
    (reject bad e >>= f) = .ok b ↔ ¬bad ∧ f () = .ok b := by
  rw [bind_eq_ok]
  exact ⟨fun ⟨(), ok, rest⟩ => ⟨reject_eq_ok.mp ok, rest⟩,
    fun ⟨good, rest⟩ => ⟨(), reject_eq_ok.mpr good, rest⟩⟩

theorem reject_bind [Decidable bad] {e : ε} {f : Unit → Except ε β} :
    (reject bad e >>= f) = if bad then .error e else f () := by
  unfold reject
  split <;> rfl

theorem ok_bind (a : α) (f : α → Except ε β) : ((.ok a : Except ε α) >>= f) = f a := rfl

theorem error_bind (e : ε) (f : α → Except ε β) :
    ((.error e : Except ε α) >>= f) = .error e := rfl

@[simp] theorem okOr_eq_ok {value : Option α} {e : ε} {a : α} :
    okOr value e = .ok a ↔ value = some a := by
  cases value <;> simp [okOr]

@[simp] theorem okOr_some (a : α) (e : ε) : okOr (some a) e = .ok a := rfl

@[simp] theorem mapError_eq_ok {f : ε → ε'} {x : Except ε α} {a : α} :
    x.mapError f = .ok a ↔ x = .ok a := by
  cases x <;> simp [Except.mapError]

@[simp] theorem mapError_ok (f : ε → ε') (a : α) :
    (Except.ok a : Except ε α).mapError f = .ok a := rfl

@[simp] theorem pure_eq_ok {a b : α} : (pure a : Except ε α) = .ok b ↔ a = b := by
  simp [pure, Except.pure]

/-- The success of a computation, read off its steps. -/
theorem ok_steps :
    (∀ (α β : Type) (x : Except ε α) (f : α → Except ε β) (b : β),
      (x >>= f) = .ok b ↔ ∃ a, x = .ok a ∧ f a = .ok b) ∧
    (∀ (bad : Prop) (_ : Decidable bad) (e : ε) (u : Unit),
      (reject bad e : Except ε Unit) = .ok u ↔ ¬bad) ∧
    (∀ (α : Type) (value : Option α) (e : ε) (a : α), okOr value e = .ok a ↔ value = some a) ∧
    (∀ (α : Type) (a b : α), (pure a : Except ε α) = .ok b ↔ a = b) ∧
    ∀ (ε' α : Type) (f : ε' → ε) (x : Except ε' α) (a : α), x.mapError f = .ok a ↔ x = .ok a :=
  ⟨fun _ _ _ _ _ => bind_eq_ok, fun _ _ _ _ => reject_eq_ok, fun _ _ _ _ => okOr_eq_ok,
    fun _ _ _ => pure_eq_ok, fun _ _ _ _ _ => mapError_eq_ok⟩

theorem exists_unit {p : Unit → Prop} : (∃ u, p u) ↔ p () :=
  ⟨fun ⟨_, h⟩ => h, fun h => ⟨(), h⟩⟩

/-- A check of every element succeeds when each check does. -/
theorem forM_eq_ok {values : List α} {check : α → Except ε Unit} {u : Unit} :
    values.forM check = .ok u ↔ ∀ value ∈ values, check value = .ok () := by
  induction values with
  | nil => simp [List.forM, pure_eq_ok]
  | cons value values ih =>
    rw [List.forM, bind_eq_ok, List.forall_mem_cons, ← ih, exists_unit]

/-! ## Errors a computation never gives -/

/-- The computation may refuse, but never with `e`. -/
def Avoids (e : ε) (x : Except ε α) : Prop := x ≠ .error e

namespace Avoids

variable {e : ε} {x : Except ε α}

theorem ok {a : α} : Avoids e (.ok a : Except ε α) := nofun

theorem pure {a : α} : Avoids e (Pure.pure a : Except ε α) := nofun

theorem reject {bad : Prop} [Decidable bad] {other : ε} (differs : other ≠ e) :
    Avoids e (reject bad other : Except ε Unit) := by
  intro failed
  unfold Theory.reject at failed
  split at failed
  · exact differs (Except.error.inj failed)
  · cases failed

theorem bind {f : α → Except ε β} (first : Avoids e x) (rest : ∀ a, Avoids e (f a)) :
    Avoids e (x >>= f) := by
  cases x with
  | error other => exact fun failed => first (congrArg Except.error (Except.error.inj failed))
  | ok a => exact rest a

theorem mapError {f : ε' → ε} {y : Except ε' α} (differs : ∀ other, f other ≠ e) :
    Avoids e (y.mapError f) := by
  cases y with
  | error other => exact fun failed => differs other (Except.error.inj failed)
  | ok a => exact ok

theorem forM {values : List α} {check : α → Except ε Unit} (each : ∀ a, Avoids e (check a)) :
    Avoids e (values.forM check) := by
  induction values with
  | nil => exact ok
  | cons value values ih => exact bind (each value) fun _ => ih

theorem foldlM {σ : Type} {step : σ → α → Except ε σ} {values : List α}
    (each : ∀ s a, Avoids e (step s a)) (s : σ) : Avoids e (values.foldlM step s) := by
  induction values generalizing s with
  | nil => exact ok
  | cons value values ih =>
    rw [List.foldlM_cons]
    exact bind (each s value) fun t => ih t

end Avoids

end Pure

/-! ## Computations over a state -/

section Stateful

variable {ε ε' σ τ α β : Type}

@[simp] theorem run_ofExcept_ok (a : α) (s : σ) :
    (ofExcept (.ok a : Except ε α) : EStateM ε σ α).run s = .ok a s := rfl

@[simp] theorem run_ofExcept_error (e : ε) (s : σ) :
    (ofExcept (.error e : Except ε α) : EStateM ε σ α).run s = .error e s := rfl

@[simp] theorem run_ite {c : Prop} [Decidable c] (x y : EStateM ε σ α) (s : σ) :
    (if c then x else y).run s = if c then x.run s else y.run s := by
  split <;> rfl

variable {bad : Prop}

@[simp] theorem run_reject [Decidable bad] (e : ε) (s : σ) :
    (reject bad e : EStateM ε σ Unit).run s = if bad then .error e s else .ok () s := by
  unfold reject
  split <;> rfl

theorem run_reject_bind [Decidable bad] (e : ε) (f : Unit → EStateM ε σ β) (s : σ) :
    (reject bad e >>= f).run s = if bad then .error e s else (f ()).run s := by
  rw [EStateM.run_bind, run_reject]
  by_cases h : bad
  · simp only [if_pos h]
  · simp only [if_neg h]

theorem run_reject_bind_of [Decidable bad] (h : bad) (e : ε) (f : Unit → EStateM ε σ β) (s : σ) :
    (reject bad e >>= f).run s = .error e s := by
  rw [run_reject_bind, if_pos h]

theorem run_reject_bind_of_not [Decidable bad] (h : ¬bad) (e : ε) (f : Unit →
    EStateM ε σ β) (s : σ) :
    (reject bad e >>= f).run s = (f ()).run s := by
  rw [run_reject_bind, if_neg h]

theorem run_bind_eq_ok {x : EStateM ε σ α} {f : α → EStateM ε σ β} {s s'' : σ} {b : β} :
    (x >>= f).run s = .ok b s'' ↔ ∃ a s', x.run s = .ok a s' ∧ (f a).run s' = .ok b s'' := by
  rw [EStateM.run_bind]
  cases x.run s <;> simp

theorem run_ofExcept_eq_ok {x : Except ε α} {s s' : σ} {a : α} :
    (ofExcept x : EStateM ε σ α).run s = .ok a s' ↔ x = .ok a ∧ s' = s := by
  cases x <;> simp [eq_comm]

theorem run_adaptExcept_eq_ok {f : ε → ε'} {x : EStateM ε σ α} {s t : σ} {a : α} :
    (x.adaptExcept f).run s = .ok a t ↔ x.run s = .ok a t := by
  unfold EStateM.adaptExcept EStateM.run
  cases hrun : x s <;> simp [hrun]

/-- The success of a program, read off its steps. -/
theorem run_steps :
    (∀ s a t : σ, (get : EStateM ε σ σ).run s = .ok a t ↔ s = a ∧ s = t) ∧
    (∀ (α : Type) (x : Except ε α) (s t : σ) (a : α),
      (ofExcept x : EStateM ε σ α).run s = .ok a t ↔ x = .ok a ∧ s = t) ∧
    (∀ (bad : Prop) (_ : Decidable bad) (e : ε) (s t : σ) (u : Unit),
      (reject bad e : EStateM ε σ Unit).run s = .ok u t ↔ ¬bad ∧ s = t) ∧
    (∀ (α : Type) (a b : α) (s t : σ), (pure a : EStateM ε σ α).run s = .ok b t ↔ a = b ∧ s = t) ∧
    ∀ (α β : Type) (x : EStateM ε σ α) (f : α → EStateM ε σ β) (s t : σ) (b : β),
      (x >>= f).run s = .ok b t ↔ ∃ a s', x.run s = .ok a s' ∧ (f a).run s' = .ok b t := by
  refine ⟨by simp, fun α x s t a => ?_, fun bad _ e s t u => ?_, by simp,
    fun _ _ _ _ _ _ _ => run_bind_eq_ok⟩
  · cases x <;> simp
  · rw [run_reject]
    split <;> simp [*]

/-- Runs a program over one part of the state and hands its outcome on as a value: the part of the
state changes as the program changed it, whether it succeeded or not. -/
def attempt (part : σ → τ) (put : τ → σ → σ) (x : EStateM ε τ α) :
    EStateM ε' σ (Except ε α) := fun s =>
  match x.run (part s) with
  | .ok a t => .ok (.ok a) (put t s)
  | .error e t => .ok (.error e) (put t s)

theorem run_attempt_ok {part : σ → τ} {put : τ → σ → σ} {x : EStateM ε τ α} {s : σ} {t : τ} {a : α}
    (h : x.run (part s) = .ok a t) :
    (attempt part put x : EStateM ε' σ (Except ε α)).run s = .ok (.ok a) (put t s) := by
  rw [EStateM.run, attempt, h]

/-! ## Where a program ends -/

variable {Q : α → σ → Prop} {E : σ → Prop} {s : σ}
variable {x : EStateM ε σ α} {a : α} {t : σ} {e : ε} {f : β → EStateM ε σ α} {P : α → σ → Prop}
  {F : σ → Prop}

/-- The program succeeds with `Q`, or fails in a state of `E`. -/
def Ends (s : σ) (x : EStateM ε σ α) (Q : α → σ → Prop) (E : σ → Prop) : Prop :=
  match x.run s with
  | .ok a t => Q a t
  | .error _ t => E t

namespace Ends

theorem of_ok (h : x.run s = .ok a t) (post : Q a t) : Ends s x Q E := by
  rw [Ends, h]
  exact post

theorem pure (post : Q a s) : Ends s (Pure.pure a : EStateM ε σ α) Q E := post

theorem throw (fail : E s) : Ends s (MonadExcept.throw e : EStateM ε σ α) Q E := fail

theorem get {f : σ → EStateM ε σ α} (rest : Ends s (f s) Q E) :
    Ends s (MonadState.get >>= f) Q E :=
  rest

theorem ofExcept {v : Except ε β} (fail : E s) (rest : ∀ b, v = .ok b → Ends s (f b) Q E) :
    Ends s (MonadExcept.ofExcept v >>= f) Q E := by
  cases v with
  | error e => exact fail
  | ok b => exact rest b rfl

theorem of_ofExcept {v : Except ε α} (fail : E s) (post : ∀ a, v = .ok a → Q a s) :
    Ends s (MonadExcept.ofExcept v : EStateM ε σ α) Q E := by
  cases v with
  | error e => exact fail
  | ok a => exact post a rfl

theorem reject {bad : Prop} [Decidable bad] {f : Unit → EStateM ε σ α} (fail : E s)
    (rest : ¬bad → Ends s (f ()) Q E) : Ends s (Theory.reject bad e >>= f) Q E := by
  by_cases h : bad
  · rw [Ends, run_reject_bind_of h]
    exact fail
  · rw [Ends, run_reject_bind_of_not h]
    exact rest h

/-- After a program that succeeded, the rest runs from the state it left. -/
theorem bind {x : EStateM ε σ β} {b : β} (h : x.run s = .ok b t) (rest : Ends t (f b) Q E) :
    Ends s (x >>= f) Q E := by
  rw [Ends, EStateM.run_bind, h]
  exact rest

theorem seq {x : EStateM ε σ β} {P : β → σ → Prop} (first : Ends s x P E)
    (rest : ∀ b t, P b t → Ends t (f b) Q E) : Ends s (x >>= f) Q E := by
  unfold Ends at first
  rw [Ends, EStateM.run_bind]
  cases hrun : x.run s with
  | ok b t =>
    rw [hrun] at first
    exact rest b t first
  | error e t =>
    rw [hrun] at first
    exact first

theorem mono (h : Ends s x P F) (weaker : ∀ a t, P a t → Q a t) (fail : ∀ t, F t → E t) :
    Ends s x Q E := by
  unfold Ends at h ⊢
  split at h
  · exact weaker _ _ h
  · exact fail _ h

theorem mono_error (h : Ends s x Q F) (fail : ∀ t, F t → E t) : Ends s x Q E :=
  h.mono (fun _ _ post => post) fail

/-- Another name for the error changes nothing of where the program ends. -/
theorem adaptExcept {f : ε → ε'} (h : Ends s x Q E) : Ends s (x.adaptExcept f) Q E := by
  unfold Ends EStateM.adaptExcept EStateM.run at *
  cases run : x s with
  | ok a t => simpa [run] using h
  | error e t => simpa [run] using h

/-- Two accounts of one run hold together. -/
theorem and (first : Ends s x Q E) (second : Ends s x P F) :
    Ends s x (fun a t => Q a t ∧ P a t) fun t => E t ∧ F t := by
  unfold Ends at *
  cases run : x.run s with
  | ok a t =>
    rw [run] at first second
    exact ⟨first, second⟩
  | error e t =>
    rw [run] at first second
    exact ⟨first, second⟩

/-- Where the program returned, its postcondition holds. -/
theorem ok (h : Ends s x Q E) (run : x.run s = .ok a t) : Q a t := by
  rw [Ends, run] at h
  exact h

theorem error (h : Ends s x Q E) (run : x.run s = .error e t) : E t := by
  rw [Ends, run] at h
  exact h

end Ends

/-- The state in which a program ends, whether it succeeded or not. -/
def left (x : EStateM ε σ α) (s : σ) : σ :=
  match x.run s with
  | .ok _ t => t
  | .error _ t => t

theorem left_of_ok (h : x.run s = .ok a t) : left x s = t := by
  rw [left, h]

theorem left_of_error (h : x.run s = .error e t) : left x s = t := by
  rw [left, h]

theorem left_bind {f : α → EStateM ε σ β} (h : x.run s = .ok a t) :
    left (x >>= f) s = left (f a) t := by
  rw [left, EStateM.run_bind, h]
  rfl

/-- Where a program and its failures agree on what they leave, it is left. -/
theorem Ends.left (h : Ends s x (fun _ => E) E) : E (left x s) := by
  unfold Ends at h
  unfold Theory.left
  split at h <;> exact h

end Stateful

end Supgang.Theory
