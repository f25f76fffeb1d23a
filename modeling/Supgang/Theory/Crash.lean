/-
# Theory.Crash — programs that a crash may cut short

A program changes a store one operation at a time, and the process may end before any of them or
inside one, which then leaves what it leaves. The environment decides when, before the program
starts: `Volume` carries the store with the number of operations still to be made. An error ends a
program as well, so what holds of every state in which it can end holds of every state in between.

* `Script ε σ α` — such programs; `change`, `atomic`, `demand`, `refuse`, `following`.
* `Leads R v x Q` — the store is only ever changed by steps of `R`, and a success has `Q`; one rule
  for each construct.
* `calm` — no crash; `run_look`, `run_demand` step through a program.
-/
import Mathlib.Logic.Relation
import Supgang.Theory.Program

namespace Supgang.Theory.Crash

set_option autoImplicit false

open Relation (ReflTransGen)

variable {ε σ α β : Type}

/-- Why a program ended early. -/
inductive Halt (ε : Type) where
  | failed (error : ε)
  | crashed
deriving DecidableEq, Repr

/-- A store and the crash that awaits it: after so many operations, inside the next of which so much
is done. -/
structure Volume (σ : Type) where
  disk : σ
  crash : Option (Nat × Nat)

/-- A volume that no crash awaits. -/
def calm (disk : σ) : Volume σ := ⟨disk, none⟩

abbrev Script (ε σ α : Type) := EStateM (Halt ε) (Volume σ) α

/-- The store as it is. -/
def look : Script ε σ σ := do
  let volume ← get
  return volume.disk

/-- One operation; `torn` is what it leaves when a crash falls inside it. -/
def change (torn : Nat → σ → σ) (whole : σ → σ) : Script ε σ Unit := fun volume =>
  match volume.crash with
  | none => .ok () ⟨whole volume.disk, none⟩
  | some (0, done) => .error .crashed ⟨torn done volume.disk, none⟩
  | some (left + 1, done) => .ok () ⟨whole volume.disk, some (left, done)⟩

/-- An operation that is made whole or not at all. -/
def atomic (whole : σ → σ) : Script ε σ Unit := change (fun _ disk => disk) whole

/-- A computation that reads no more of the store. -/
def demand (x : Except ε α) : Script ε σ α := ofExcept (x.mapError Halt.failed)

def refuse (bad : Prop) [Decidable bad] (error : ε) : Script ε σ Unit :=
  reject bad (Halt.failed error)

/-- Runs `last` after `x` even where `x` failed, though not after a crash. The error of `x` comes
first. -/
def following (x : Script ε σ α) (last : Script ε σ Unit) : Script ε σ α := fun volume =>
  match x.run volume with
  | .ok a volume => (last >>= fun _ => pure a).run volume
  | .error .crashed volume => .error .crashed volume
  | .error (.failed error) volume =>
    match last.run volume with
    | .error .crashed volume => .error .crashed volume
    | .ok _ volume | .error (.failed _) volume => .error (.failed error) volume

/-- Whether the program returns. -/
def succeeds (x : Script ε σ α) (v : Volume σ) : Bool :=
  match x.run v with
  | .ok _ _ => true
  | .error _ _ => false

theorem succeeds_iff {x : Script ε σ α} {v : Volume σ} :
    succeeds x v = true ↔ ∃ a, x.run v = .ok a (left x v) := by
  unfold succeeds left
  cases x.run v with
  | ok a w => simp
  | error halt w => simp

/-! ## Every state in between -/

variable {R : σ → σ → Prop} {v : Volume σ} {Q : α → σ → Prop}

/-- The program changes the store by steps of `R` only, whether it succeeds or not, and calls for no
crash of its own. -/
def Leads (R : σ → σ → Prop) (v : Volume σ) (x : Script ε σ α) (Q : α → σ → Prop) : Prop :=
  Ends v x
    (fun a w => (ReflTransGen R v.disk w.disk ∧ (v.crash = none → w.crash = none)) ∧ Q a w.disk)
    fun w => ReflTransGen R v.disk w.disk

namespace Leads

theorem pure {a : α} (post : Q a v.disk) : Leads R v (Pure.pure a : Script ε σ α) Q :=
  Ends.pure ⟨⟨.refl, id⟩, post⟩

theorem look {f : σ → Script ε σ α} (rest : Leads R v (f v.disk) Q) :
    Leads R v (Crash.look >>= f) Q :=
  rest

variable {f : β → Script ε σ α} {x : Script ε σ α} {whole : σ → σ}

theorem demand {x : Except ε β} (rest : ∀ b, x = .ok b → Leads R v (f b) Q) :
    Leads R v (Crash.demand x >>= f) Q := by
  cases x with
  | error e => exact Ends.throw .refl
  | ok b => exact rest b rfl

theorem of_demand {x : Except ε α} (post : ∀ a, x = .ok a → Q a v.disk) :
    Leads R v (Crash.demand x : Script ε σ α) Q := by
  cases x with
  | error e => exact Ends.throw .refl
  | ok a => exact Ends.pure ⟨⟨.refl, id⟩, post a rfl⟩

theorem refuse {bad : Prop} [Decidable bad] {e : ε} {f : Unit → Script ε σ α}
    (rest : ¬bad → Leads R v (f ()) Q) : Leads R v (Crash.refuse bad e >>= f) Q :=
  Ends.reject .refl rest

theorem seq {x : Script ε σ β} {P : β → σ → Prop} (first : Leads R v x P)
    (rest : ∀ b w, ReflTransGen R v.disk w.disk → P b w.disk → Leads R w (f b) Q) :
    Leads R v (x >>= f) Q := by
  refine Ends.seq first fun b w done => ?_
  refine (rest b w done.1.1 done.2).mono (fun a u later => ?_) fun u later => ?_
  · exact ⟨⟨done.1.1.trans later.1.1, later.1.2 ∘ done.1.2⟩, later.2⟩
  · exact done.1.1.trans later

theorem mono {P : α → σ → Prop} {S : σ → σ → Prop} (h : Leads R v x P)
    (steps : ∀ s t, R s t → S s t) (weaker : ∀ a s, P a s → Q a s) : Leads S v x Q := by
  refine Ends.mono h (fun a w done => ?_) fun w done => ?_
  · exact ⟨⟨ReflTransGen.mono steps _ _ done.1.1, done.1.2⟩, weaker a _ done.2⟩
  · exact ReflTransGen.mono steps _ _ done

theorem imp {P : α → σ → Prop} (h : Leads R v x P) (weaker : ∀ a s, P a s → Q a s) :
    Leads R v x Q :=
  h.mono (fun _ _ step => step) weaker

/-- An operation, made or torn. -/
theorem change {torn : Nat → σ → σ} (torn_step : ∀ n, R v.disk (torn n v.disk))
    (step : R v.disk (whole v.disk)) :
    Leads R v (Crash.change torn whole : Script ε σ Unit) fun _ s => s = whole v.disk := by
  unfold Leads Ends EStateM.run Crash.change
  rcases v with ⟨disk, _ | ⟨_ | left, done⟩⟩
  · exact ⟨⟨.single step, id⟩, rfl⟩
  · exact .single (torn_step done)
  · exact ⟨⟨.single step, nofun⟩, rfl⟩

theorem atomic (step : R v.disk (whole v.disk)) :
    Leads R v (Crash.atomic whole : Script ε σ Unit) fun _ s => s = whole v.disk := by
  unfold Leads Ends EStateM.run Crash.atomic Crash.change
  rcases v with ⟨disk, _ | ⟨_ | left, done⟩⟩
  · exact ⟨⟨.single step, id⟩, rfl⟩
  · exact .refl
  · exact ⟨⟨.single step, nofun⟩, rfl⟩

theorem following {last : Script ε σ Unit} (first : Leads R v x Q)
    (second : ∀ w, Leads R w last fun _ _ => True) :
    Leads R v (Crash.following x last) fun _ _ => True := by
  cases run : x.run v with
  | ok a w =>
    have sequence : Leads R v (x >>= fun a => last >>= fun _ => Pure.pure a) fun _ _ => True :=
      first.seq fun _ w _ _ => (second w).seq fun _ _ _ _ => .pure trivial
    unfold Leads Ends at *
    rw [EStateM.run_bind, run] at sequence
    dsimp only [EStateM.run, Crash.following]
    rw [show x v = .ok a w from run]
    exact sequence
  | error halt w =>
    have reached := Ends.error first run
    have ended := second w
    unfold Leads Ends at *
    dsimp only [EStateM.run, Crash.following]
    rw [show x v = .error halt w from run]
    cases halt with
    | crashed => exact reached
    | failed error =>
      dsimp only [EStateM.run] at ended ⊢
      rcases final : last w with ⟨_, t⟩ | ⟨_ | _, t⟩ <;> rw [final] at ended
      · exact reached.trans ended.1.1
      · exact reached.trans ended
      · exact reached.trans ended

/-- What every step keeps, the program keeps, and so does a crash. -/
theorem keeps {P : σ → Prop} (h : Leads R v x Q) (start : P v.disk)
    (step : ∀ s t, P s → R s t → P t) : P (left x v).disk := by
  have reached : ReflTransGen R v.disk (left x v).disk := by
    have ends : Ends v x (fun _ w => ReflTransGen R v.disk w.disk)
        fun w => ReflTransGen R v.disk w.disk :=
      Ends.mono h (fun _ _ done => done.1.1) fun _ failed => failed
    exact ends.left
  generalize (left x v).disk = final at reached ⊢
  induction reached with
  | refl => exact start
  | tail _ last ih => exact step _ _ ih last

/-- A program that no crash awaits leaves a store that none awaits. -/
theorem ends_calm {disk : σ} {a : α} {w : Volume σ} (h : Leads R (calm disk) x Q)
    (run : x.run (calm disk) = .ok a w) : w = calm w.disk := by
  have crash := (Ends.ok h run).1.2 rfl
  rw [calm, ← crash]

end Leads

/-! ## Step by step -/

section Steps

variable {f : β → Script ε σ α}

theorem run_look (f : σ → Script ε σ α) (v : Volume σ) :
    (look >>= f).run v = (f v.disk).run v := rfl

theorem run_demand {x : Except ε β} {b : β} (value : x = .ok b) (v : Volume σ) :
    (demand x >>= f).run v = (f b).run v := by
  rw [value]
  rfl

theorem run_demand_error {x : Except ε β} {e : ε} (value : x = .error e) (v : Volume σ) :
    (demand x >>= f).run v = .error (.failed e) v := by
  rw [value]
  rfl

theorem run_look_calm (f : σ → Script ε σ α) (disk : σ) :
    (look >>= f).run (calm disk) = (f disk).run (calm disk) := rfl

variable {x : Script ε σ β} {v w : Volume σ}

theorem run_bind_congr {y : Script ε σ β} (same : x.run v = y.run v) (f : β → Script ε σ α) :
    (x >>= f).run v = (y >>= f).run v := by
  rw [EStateM.run_bind, same, EStateM.run_bind]

theorem left_eq {x y : Script ε σ α} (same : x.run v = y.run w) : left x v = left y w := by
  unfold left
  rw [same]

theorem left_bind_error {halt : Halt ε} (run : x.run v = .error halt w) (f : β → Script ε σ α) :
    left (x >>= f) v = w := by
  unfold left
  rw [EStateM.run_bind, run]

theorem left_map (x : Script ε σ β) (g : β → α) (v : Volume σ) :
    left (x >>= fun b => pure (g b)) v = left x v := by
  unfold left
  rw [EStateM.run_bind]
  cases x.run v <;> rfl

end Steps

end Supgang.Theory.Crash
