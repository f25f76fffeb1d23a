/-
# Theory.Bytes — byte strings, fixed-width identifiers and machine words

The byte vocabulary every other module is written in. Nothing here names the program.

* `Bytes` — an unbounded byte string; `FixedBytes n` — a byte string that carries the proof of
  its width, ordered lexicographically, so it can key an ordered map.
* `beBytes w n` / `ofBE` — fixed-width big-endian writing and reading; `ofBE_beBytes` reads back
  what fits and `beBytes_ofBE` writes back what was read.
* `checkedAdd`, `saturatingAdd`, `saturatingSub` — the three ways 64-bit counters and clocks are
  combined; each is characterised by the natural number it denotes.
-/
import Mathlib

namespace Supgang.Theory

set_option autoImplicit false

open List

/-! ## Orders on machine words -/

instance leftLeaningMaxUInt8 : Std.LawfulOrderLeftLeaningMax UInt8 where
  max_eq_left a b h := by
    show (if a ≤ b then b else a) = a
    split
    · exact UInt8.le_antisymm h ‹_›
    · rfl
  max_eq_right a b h := by
    show (if a ≤ b then b else a) = b
    exact if_pos ((UInt8.le_total a b).resolve_right h)

instance leftLeaningMaxUInt64 : Std.LawfulOrderLeftLeaningMax UInt64 where
  max_eq_left a b h := by
    show (if a ≤ b then b else a) = a
    split
    · exact UInt64.le_antisymm h ‹_›
    · rfl
  max_eq_right a b h := by
    show (if a ≤ b then b else a) = b
    exact if_pos ((UInt64.le_total a b).resolve_right h)

instance linearOrderUInt8 : LinearOrder UInt8 := .ofStd UInt8

instance linearOrderUInt64 : LinearOrder UInt64 := .ofStd UInt64

/-! ## Byte strings -/

/-- A byte string of any length. -/
abbrev Bytes := List UInt8

/-- A byte string of exactly `n` bytes, in the lexicographic order. -/
abbrev FixedBytes (n : Nat) := { bytes : Bytes // bytes.length = n }

/-- `n` copies of one byte. -/
def FixedBytes.replicate (n : Nat) (byte : UInt8) : FixedBytes n :=
  ⟨List.replicate n byte, length_replicate⟩

instance (n : Nat) : Inhabited (FixedBytes n) := ⟨FixedBytes.replicate n 0⟩

instance (n : Nat) : Std.TransOrd (FixedBytes n) where
  eq_swap {a b} := (Std.OrientedCmp.eq_swap : compare a.1 b.1 = (compare b.1 a.1).swap)
  isLE_trans {a b c} first second :=
    (Std.TransCmp.isLE_trans (show (compare a.1 b.1).isLE from first) second :
      (compare a.1 c.1).isLE)

instance (n : Nat) : Std.LawfulEqOrd (FixedBytes n) where
  eq_of_compare {a b} h := Subtype.ext
    (Std.LawfulEqCmp.eq_of_compare (show compare a.1 b.1 = .eq from h))

-- Named at the widths of an identifier and of a digest, which are the keys of the maps.
instance transOrd16 : Std.TransOrd (FixedBytes 16) := inferInstance
instance transOrd32 : Std.TransOrd (FixedBytes 32) := inferInstance
instance lawfulBEq16 : LawfulBEq (FixedBytes 16) := inferInstance

/-- Reads a byte string as one of exactly `n` bytes. -/
def FixedBytes.ofBytes? (n : Nat) (bytes : Bytes) : Option (FixedBytes n) :=
  if h : bytes.length = n then some ⟨bytes, h⟩ else none

variable {n : Nat} {a b : UInt64}

@[simp] theorem FixedBytes.ofBytes?_val (bytes : FixedBytes n) :
    FixedBytes.ofBytes? n bytes.1 = some bytes :=
  dif_pos bytes.2

theorem FixedBytes.ofBytes?_eq_some {bytes : Bytes} {fixed : FixedBytes n} :
    FixedBytes.ofBytes? n bytes = some fixed ↔ bytes = fixed.1 := by
  refine ⟨fun h => ?_, fun h => h ▸ ofBytes?_val fixed⟩
  unfold ofBytes? at h
  split at h
  · cases h; rfl
  · cases h

/-- The bytes of a text. -/
def utf8 (text : String) : Bytes := text.toUTF8.data.toList

/-- `bytes.get(..n)`: the first `n` bytes, when there are that many. -/
def slice (bytes : Bytes) (n : Nat) : Option Bytes :=
  if n ≤ bytes.length then some (bytes.take n) else none

theorem slice_append (bytes rest : Bytes) : slice (bytes ++ rest) bytes.length = some bytes := by
  simp [slice]

theorem slice_eq_some {bytes part : Bytes} :
    slice bytes n = some part ↔ part <+: bytes ∧ part.length = n := by
  unfold slice
  constructor
  · intro h
    split at h
    · cases h
      exact ⟨List.take_prefix .., by simp; omega⟩
    · cases h
  · rintro ⟨⟨rest, rfl⟩, rfl⟩
    simp

/-- A prefix of a concatenation stops inside the first part or reaches into the second. -/
theorem prefix_append_cases {α : Type*} {part first second : List α}
    (h : part <+: first ++ second) :
    part <+: first ∨ ∃ rest, part = first ++ rest ∧ rest <+: second := by
  rcases prefix_or_prefix_of_prefix h (prefix_append first second) with
    inside | ⟨rest, rfl⟩
  · exact .inl inside
  · exact .inr ⟨rest, rfl, (prefix_append_right_inj first).mp h⟩

theorem prefix_pair_cases {α : Type*} {part : List α} {a b : α} (h : part <+: [a, b]) :
    part = [] ∨ part = [a] ∨ part = [a, b] := by
  rcases prefix_cons_iff.mp h with rfl | ⟨rest, rfl, inside⟩
  · exact .inl rfl
  · rcases prefix_cons_iff.mp inside with rfl | ⟨more, rfl, last⟩
    · exact .inr (.inl rfl)
    · rw [prefix_nil.mp last]
      exact .inr (.inr rfl)

/-! ## Big-endian integers -/

/-- The low `w` bytes of `n`, most significant first. -/
def beBytes : Nat → Nat → Bytes
  | 0, _ => []
  | w + 1, n => UInt8.ofNat (n / 256 ^ w) :: beBytes w n

/-- The natural number a byte string writes, most significant byte first. -/
def ofBE : Bytes → Nat
  | [] => 0
  | byte :: rest => byte.toNat * 256 ^ rest.length + ofBE rest

@[simp] theorem beBytes_length (w n : Nat) : (beBytes w n).length = w := by
  induction w with
  | zero => rfl
  | succ w ih => simp [beBytes, ih]

theorem ofBE_lt (bytes : Bytes) : ofBE bytes < 256 ^ bytes.length := by
  induction bytes with
  | nil => simp [ofBE]
  | cons byte rest ih =>
    have hbyte : byte.toNat + 1 ≤ 256 := byte.toNat_lt
    calc byte.toNat * 256 ^ rest.length + ofBE rest
        < byte.toNat * 256 ^ rest.length + 256 ^ rest.length := by omega
      _ = (byte.toNat + 1) * 256 ^ rest.length := by ring
      _ ≤ 256 * 256 ^ rest.length := Nat.mul_le_mul_right _ hbyte
      _ = 256 ^ (byte :: rest).length := by rw [length_cons]; ring

theorem ofBE_beBytes_mod (w n : Nat) : ofBE (beBytes w n) = n % 256 ^ w := by
  induction w with
  | zero => simp [beBytes, ofBE, Nat.mod_one]
  | succ w ih =>
    simp only [beBytes, ofBE, beBytes_length, ih, UInt8.toNat_ofNat']
    rw [show (2 : Nat) ^ 8 = 256 from rfl, pow_succ, Nat.mod_mul, Nat.add_comm, Nat.mul_comm]

@[simp] theorem ofBE_beBytes {w : Nat} (fits : n < 256 ^ w) : ofBE (beBytes w n) = n := by
  rw [ofBE_beBytes_mod, Nat.mod_eq_of_lt fits]

theorem beBytes_ofBE_add (bytes : Bytes) (high : Nat) :
    beBytes bytes.length (high * 256 ^ bytes.length + ofBE bytes) = bytes := by
  induction bytes generalizing high with
  | nil => rfl
  | cons byte rest ih =>
    have hpos : 0 < 256 ^ rest.length := by positivity
    have hsplit : high * 256 ^ (rest.length + 1) + (byte.toNat * 256 ^ rest.length + ofBE rest)
        = (high * 256 + byte.toNat) * 256 ^ rest.length + ofBE rest := by ring
    simp only [length_cons, ofBE, beBytes, hsplit, ih]
    congr 1
    rw [Nat.add_comm, Nat.add_mul_div_right _ _ hpos, Nat.div_eq_of_lt (ofBE_lt rest)]
    apply UInt8.toNat.inj
    simp

@[simp] theorem beBytes_ofBE (bytes : Bytes) : beBytes bytes.length (ofBE bytes) = bytes := by
  simpa using beBytes_ofBE_add bytes 0

/-! ## 64-bit counters -/

/-- `checked_add` on 64-bit words: `none` on overflow. -/
def checkedAdd (a b : UInt64) : Option UInt64 :=
  if a.toNat + b.toNat < 2 ^ 64 then some (a + b) else none

/-- `saturating_add` on 64-bit words. -/
def saturatingAdd (a b : UInt64) : UInt64 :=
  if a.toNat + b.toNat < 2 ^ 64 then a + b else UInt64.ofNat (2 ^ 64 - 1)

/-- `saturating_sub` on 64-bit words. -/
def saturatingSub (a b : UInt64) : UInt64 :=
  if b ≤ a then a - b else 0

theorem toNat_add_of_lt (fits : a.toNat + b.toNat < 2 ^ 64) :
    (a + b).toNat = a.toNat + b.toNat := by
  rw [UInt64.toNat_add, Nat.mod_eq_of_lt fits]

theorem checkedAdd_eq_some {c : UInt64} :
    checkedAdd a b = some c ↔ c.toNat = a.toNat + b.toNat := by
  unfold checkedAdd
  split
  · rename_i fits
    rw [Option.some_inj, ← UInt64.toNat_inj, toNat_add_of_lt fits, eq_comm]
  · rename_i overflow
    have := c.toNat_lt
    simp only [reduceCtorEq, false_iff]
    omega

theorem lt_of_checkedAdd_one (h : checkedAdd a 1 = some b) : a < b := by
  rw [UInt64.lt_iff_toNat_lt, checkedAdd_eq_some.mp h]
  simp

theorem toNat_saturatingAdd (a b : UInt64) :
    (saturatingAdd a b).toNat = min (a.toNat + b.toNat) (2 ^ 64 - 1) := by
  unfold saturatingAdd
  split
  · rename_i fits
    rw [toNat_add_of_lt fits]
    omega
  · rw [UInt64.toNat_ofNat']
    omega

theorem toNat_saturatingSub (a b : UInt64) :
    (saturatingSub a b).toNat = a.toNat - b.toNat := by
  unfold saturatingSub
  split
  · rename_i le
    exact UInt64.toNat_sub_of_le a b le
  · rename_i lt
    rw [UInt64.le_iff_toNat_le] at lt
    simp only [UInt64.toNat_zero]
    omega

end Supgang.Theory
