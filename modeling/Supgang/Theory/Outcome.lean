/-
# Theory.Outcome — programs whose errors matter

`Ends` says where a program ends and forgets which error it ended with. Here the postcondition of a
failure sees the error, and a program may be compared with another that succeeds wherever it does.

* `Yields s x Q E` — the program succeeds with `Q`, or fails with `E` of its error; one rule for each
  construct.
* `Deviates s x y E` — `x` does what `y` does, or it fails with `E`.
* `Paired R` — the results of two runs, the same but for related states.
-/
import Supgang.Theory.Program

namespace Supgang.Theory

set_option autoImplicit false

variable {ε ε' σ τ α β : Type}

/-! ## Postconditions of failures -/

section Yields

variable {s : σ} {Q : α → σ → Prop} {E : ε → σ → Prop}

/-- The program succeeds with `Q`, or fails with `E`. -/
def Yields (s : σ) (x : EStateM ε σ α) (Q : α → σ → Prop) (E : ε → σ → Prop) : Prop :=
  match x.run s with
  | .ok a t => Q a t
  | .error e t => E e t

namespace Yields

variable {x : EStateM ε σ α} {t : σ} {e : ε} {f : β → EStateM ε σ α}

theorem of_ok {a : α} (h : x.run s = .ok a t) (post : Q a t) : Yields s x Q E := by
  rw [Yields, h]
  exact post

theorem of_error (h : x.run s = .error e t) (post : E e t) : Yields s x Q E := by
  rw [Yields, h]
  exact post

theorem pure {a : α} (post : Q a s) : Yields s (Pure.pure a : EStateM ε σ α) Q E := post

theorem get {f : σ → EStateM ε σ α} (rest : Yields s (f s) Q E) :
    Yields s (MonadState.get >>= f) Q E :=
  rest

theorem ofExcept {v : Except ε β} (fail : ∀ e, v = .error e → E e s)
    (rest : ∀ b, v = .ok b → Yields s (f b) Q E) : Yields s (MonadExcept.ofExcept v >>= f) Q E := by
  cases v with
  | error e => exact fail e rfl
  | ok b => exact rest b rfl

theorem of_ofExcept {v : Except ε α} (fail : ∀ e, v = .error e → E e s)
    (post : ∀ a, v = .ok a → Q a s) :
    Yields s (MonadExcept.ofExcept v : EStateM ε σ α) Q E := by
  cases v with
  | error e => exact fail e rfl
  | ok a => exact post a rfl

theorem reject {bad : Prop} [Decidable bad] {f : Unit → EStateM ε σ α} (fail : bad → E e s)
    (rest : ¬bad → Yields s (f ()) Q E) : Yields s (Theory.reject bad e >>= f) Q E := by
  by_cases h : bad
  · exact .of_error (run_reject_bind_of h e f s) (fail h)
  · rw [Yields, run_reject_bind_of_not h]
    exact rest h

theorem ite {c : Prop} [Decidable c] {x y : EStateM ε σ α} (yes : c → Yields s x Q E)
    (no : ¬c → Yields s y Q E) : Yields s (if c then x else y) Q E := by
  split
  · exact yes ‹_›
  · exact no ‹_›

theorem seq {x : EStateM ε σ β} {P : β → σ → Prop} (first : Yields s x P E)
    (rest : ∀ b t, P b t → Yields t (f b) Q E) : Yields s (x >>= f) Q E := by
  unfold Yields at first
  rw [Yields, EStateM.run_bind]
  cases run : x.run s with
  | ok b t =>
    rw [run] at first
    exact rest b t first
  | error e t =>
    rw [run] at first
    exact first

/-- What holds of both kinds of result holds of the result. -/
theorem result {P : EStateM.Result ε σ α → Prop} :
    Yields s x (fun a t => P (.ok a t)) (fun e t => P (.error e t)) ↔ P (x.run s) := by
  rw [Yields]
  split
  · rw [‹x.run s = _›]
  · rw [‹x.run s = _›]

theorem error (h : Yields s x Q E) (run : x.run s = .error e t) : E e t := by
  rw [Yields, run] at h
  exact h

end Yields

end Yields

/-! ## Programs that may fail where another goes on -/

section Deviates

variable {s : σ} {E : ε → σ → Prop}

/-- From this state the first program does what the second does, or it fails with `E`. -/
def Deviates (s : σ) (x y : EStateM ε σ α) (E : ε → σ → Prop) : Prop :=
  x.run s = y.run s ∨ ∃ e t, x.run s = .error e t ∧ E e t

namespace Deviates

/-- What follows is the same. -/
theorem bind {x y : EStateM ε σ β} (first : Deviates s x y E) (f : β → EStateM ε σ α) :
    Deviates s (x >>= f) (y >>= f) E := by
  rcases first with same | ⟨e, t, failed, post⟩
  · exact .inl (by rw [EStateM.run_bind, EStateM.run_bind, same])
  · exact .inr ⟨e, t, by rw [EStateM.run_bind, failed], post⟩

end Deviates

end Deviates

/-! ## Two runs side by side -/

section Paired

variable {R : σ → τ → Prop} {s : σ} {t : τ}

/-- The same answer or the same error, in related states. -/
inductive Paired (R : σ → τ → Prop) :
    EStateM.Result ε σ α → EStateM.Result ε τ α → Prop where
  | ok {s : σ} {t : τ} (a : α) (related : R s t) : Paired R (.ok a s) (.ok a t)
  | error {s : σ} {t : τ} (e : ε) (related : R s t) : Paired R (.error e s) (.error e t)

namespace Paired

theorem ofExcept {v : Except ε β} {f : β → EStateM ε σ α} {g : β → EStateM ε τ α}
    (related : R s t) (rest : ∀ b, v = .ok b → Paired R ((f b).run s) ((g b).run t)) :
    Paired R ((MonadExcept.ofExcept v >>= f).run s) ((MonadExcept.ofExcept v >>= g).run t) := by
  cases v with
  | error e => exact .error e related
  | ok b => exact rest b rfl

theorem ite {c : Prop} [Decidable c] {first other : EStateM.Result ε σ α}
    {first' other' : EStateM.Result ε τ α} (yes : c → Paired R first first')
    (no : ¬c → Paired R other other') :
    Paired R (if c then first else other) (if c then first' else other') := by
  split
  · exact yes ‹_›
  · exact no ‹_›

theorem reject {bad : Prop} [Decidable bad] {e : ε} {f : Unit → EStateM ε σ α}
    {g : Unit → EStateM ε τ α} (related : R s t)
    (rest : ¬bad → Paired R ((f ()).run s) ((g ()).run t)) :
    Paired R ((Theory.reject bad e >>= f).run s) ((Theory.reject bad e >>= g).run t) := by
  rw [run_reject_bind, run_reject_bind]
  exact .ite (fun _ => .error e related) rest

end Paired

end Paired

end Supgang.Theory
