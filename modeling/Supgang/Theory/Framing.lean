/-
# Theory.Framing — self-delimiting frames and the scan of a torn log

A log is a concatenation of frames, each of which says where it ends. A reader walks it from the
front and stops at the first frame that is not all there. This module is about such readers for
any frame format: `front` looks at the front of a byte string, and `scan` is the reader's loop.

* `Framing front encode valid` — the three facts a frame format owes: a whole frame is read
  whatever follows it, a proper prefix of one reads as incomplete, and whatever reads as a frame
  is the encoding of a valid value.
* `Framing.scan_torn` — a log that ends in a torn frame reads as its whole frames.
* `Framing.prefix_split` — every prefix of a log is a log that ends in a torn frame.
* `Framing.scan_sound` — what a scan returns was written there; `Framing.scan_fuel` — a scan ends.
-/
import Supgang.Theory.Program

namespace Supgang.Theory

set_option autoImplicit false

open List

/-- What stands at the front of a byte string. -/
inductive Front (α ε : Type) where
  | frame (value : α) (size : Nat)
  | incomplete
  | malformed (error : ε)
deriving DecidableEq, Repr

/-- Reads frames off the front, from `offset` on, until the bytes run out. Returns the frames and
the offset after the last of them. -/
def scan {α ε : Type} (front : Nat → Bytes → Front α ε) :
    Nat → Nat → Bytes → Except ε (List α × Nat)
  | 0, offset, _ => .ok ([], offset)
  | fuel + 1, offset, bytes =>
    if bytes = [] then .ok ([], offset)
    else match front offset bytes with
      | .incomplete => .ok ([], offset)
      | .malformed error => .error error
      | .frame value size => do
          let (values, stop) ← scan front fuel (offset + size) (bytes.drop size)
          .ok (value :: values, stop)

/-- What a frame format owes its reader. -/
structure Framing {α ε : Type} (front : Nat → Bytes → Front α ε) (encode : α → Bytes)
    (valid : α → Prop) : Prop where
  nonempty : ∀ a, encode a ≠ []
  front_whole : ∀ offset a rest, valid a →
    front offset (encode a ++ rest) = .frame a (encode a).length
  front_torn : ∀ offset a torn, valid a → torn <+: encode a → torn ≠ encode a → torn ≠ [] →
    front offset torn = .incomplete
  front_sound : ∀ offset bytes a size, front offset bytes = .frame a size →
    valid a ∧ size = (encode a).length ∧ encode a <+: bytes

namespace Framing

variable {α ε : Type} {front : Nat → Bytes → Front α ε} {encode : α → Bytes} {valid : α → Prop}

/-- The start of a frame that is not all there, or nothing. -/
def Torn (encode : α → Bytes) (valid : α → Prop) (torn : Bytes) : Prop :=
  torn = [] ∨ ∃ a, valid a ∧ torn <+: encode a ∧ torn ≠ encode a

/-- A log that ends in a torn frame reads as its whole frames. -/
theorem scan_torn (format : Framing front encode valid) {torn : Bytes}
    (hTorn : Torn encode valid torn) (values : List α) (good : ∀ a ∈ values, valid a) :
    ∀ fuel offset, (values.flatMap encode ++ torn).length ≤ fuel →
      scan front fuel offset (values.flatMap encode ++ torn) =
        .ok (values, offset + (values.flatMap encode).length) := by
  induction values with
  | nil =>
    intro fuel offset enough
    cases fuel with
    | zero => rfl
    | succ fuel =>
      by_cases empty : torn = []
      · simp [scan, empty]
      · obtain ⟨a, ha, ahead, proper⟩ := hTorn.resolve_left empty
        simp [scan, empty, format.front_torn offset a torn ha ahead proper empty]
  | cons a values ih =>
    intro fuel offset enough
    have hsize := length_pos_iff.mpr (format.nonempty a)
    rw [flatMap_cons, append_assoc] at enough ⊢
    rw [length_append] at enough
    cases fuel with
    | zero => omega
    | succ fuel =>
      have more : encode a ++ (values.flatMap encode ++ torn) ≠ [] := by
        simp [format.nonempty a]
      have hrest := ih (fun b hb => good b (mem_cons_of_mem a hb)) fuel
        (offset + (encode a).length) (by omega)
      simp only [scan, if_neg more,
        format.front_whole offset a _ (good a mem_cons_self), drop_left, hrest]
      simp [bind, Except.bind, Nat.add_assoc]

/-- Every prefix of a log is a log that ends in a torn frame. -/
theorem prefix_split (values : List α) (good : ∀ a ∈ values, valid a) {part : Bytes}
    (ahead : part <+: values.flatMap encode) :
    ∃ whole torn, whole <+: values ∧ part = whole.flatMap encode ++ torn ∧
      Torn encode valid torn := by
  induction values generalizing part with
  | nil => exact ⟨[], [], prefix_rfl, by simpa using ahead, .inl rfl⟩
  | cons a values ih =>
    rw [flatMap_cons] at ahead
    rcases prefix_append_cases ahead with inside | ⟨rest, rfl, beyond⟩
    · by_cases all : part = encode a
      · exact ⟨[a], [], by simp, by simp [all], .inl rfl⟩
      · exact ⟨[], part, by simp, by simp,
          .inr ⟨a, good a mem_cons_self, inside, all⟩⟩
    · obtain ⟨whole, torn, hwhole, rfl, hTorn⟩ :=
        ih (fun b hb => good b (mem_cons_of_mem a hb)) beyond
      exact ⟨a :: whole, torn, by simpa using hwhole, by simp, hTorn⟩

/-- What a scan returns is valid and was written there. -/
theorem scan_sound (format : Framing front encode valid) {fuel offset stop : Nat} {bytes : Bytes}
    {values : List α} (h : scan front fuel offset bytes = .ok (values, stop)) :
    (∀ a ∈ values, valid a) ∧ values.flatMap encode <+: bytes ∧
      stop = offset + (values.flatMap encode).length := by
  induction fuel generalizing offset bytes values with
  | zero =>
    simp only [scan, Except.ok.injEq, Prod.mk.injEq] at h
    obtain ⟨rfl, rfl⟩ := h
    simp
  | succ fuel ih =>
    rw [scan] at h
    split at h
    · simp only [Except.ok.injEq, Prod.mk.injEq] at h
      obtain ⟨rfl, rfl⟩ := h
      simp
    · split at h
      · simp only [Except.ok.injEq, Prod.mk.injEq] at h
        obtain ⟨rfl, rfl⟩ := h
        simp
      · cases h
      · rename_i value size found
        obtain ⟨⟨rest, stop'⟩, hrest, out⟩ := bind_eq_ok.mp h
        simp only [Except.ok.injEq, Prod.mk.injEq] at out
        obtain ⟨rfl, rfl⟩ := out
        obtain ⟨hvalid, rfl, tail, rfl⟩ := format.front_sound _ _ _ _ found
        obtain ⟨hall, ahead, rfl⟩ := ih hrest
        rw [drop_left] at ahead
        refine ⟨forall_mem_cons.mpr ⟨hvalid, hall⟩, ?_, by simp [Nat.add_assoc]⟩
        rw [flatMap_cons]
        exact (prefix_append_right_inj _).mpr ahead

/-- As much fuel as there are bytes is enough: the reader stops by itself. -/
theorem scan_fuel (format : Framing front encode valid) {bytes : Bytes} :
    ∀ {fuel more : Nat} (offset : Nat), bytes.length ≤ fuel → bytes.length ≤ more →
      scan front fuel offset bytes = scan front more offset bytes := by
  intro fuel
  induction fuel generalizing bytes with
  | zero =>
    intro more offset enough _
    obtain rfl : bytes = [] := by simpa using enough
    cases more <;> rfl
  | succ fuel ih =>
    intro more offset enough enough'
    cases more with
    | zero =>
      obtain rfl : bytes = [] := by simpa using enough'
      rfl
    | succ more =>
      rw [scan, scan]
      split
      · rfl
      · cases found : front offset bytes with
        | incomplete => rfl
        | malformed error => rfl
        | frame value size =>
          obtain ⟨-, rfl, tail, rfl⟩ := format.front_sound _ _ _ _ found
          have hsize := length_pos_iff.mpr (format.nonempty value)
          rw [length_append] at enough enough'
          have same := ih (offset + (encode value).length) (by omega : tail.length ≤ fuel)
            (by omega : tail.length ≤ more)
          dsimp only
          rw [drop_left, same]

end Framing

end Supgang.Theory
