/-
# Theory.Canonical — documents with one encoding

A decoder that encodes again what it has read, and compares, accepts at most one string for each
document. It accepts every encoding when its reader takes encodings apart and its size limit is no
smaller than they are.

* `OneEncoding encode decode` — the two are inverse to each other wherever they succeed.
* `OneEncodingOf good encode decode` — the same for the documents that pass a check, which the
  decoder makes and the encoder need not.
* `strict` — read, encode again, compare; `strict_oneEncoding`.
-/
import Supgang.Theory.Cbor

namespace Supgang.Theory

set_option autoImplicit false

open List

variable {ε ε' α : Type}

/-! ## Items on the front of a string -/

/-- Reading alone fails with decoding errors only. -/
local instance : Cbor.FromDecode Cbor.DecodeError := ⟨id⟩

theorem Cbor.u64_append_inj {a b : UInt64} {rest rest' : Bytes}
    (same : Cbor.u64 a ++ rest = Cbor.u64 b ++ rest') : a = b ∧ rest = rest' := by
  have hread : ∀ (value : UInt64) (rest : Bytes),
      (Cbor.readU64 : Cbor.Reader Cbor.DecodeError UInt64).run (Cbor.u64 value ++ rest) =
        .ok (value, rest) := Cbor.run_readU64
  exact Cbor.append_inj_of_run (hread a rest) (hread b rest') same

variable {n : Nat}

theorem Cbor.fixed_append_inj (fits : n < 2 ^ 64) {a b : FixedBytes n} {rest rest' : Bytes}
    (same : Cbor.bytes a.1 ++ rest = Cbor.bytes b.1 ++ rest') :
    a = b ∧ rest = rest' := by
  let encode (value : FixedBytes n) : Bytes := Cbor.bytes value.1
  have hread : ∀ (value : FixedBytes n) (rest : Bytes),
      (Cbor.readFixed Cbor.DecodeError.endOfInput n).run (encode value ++ rest) =
        .ok (value, rest) := fun value rest => Cbor.run_readFixed _ value fits rest
  exact Cbor.append_inj_of_run (hread a rest) (hread b rest') same

/-- A short length has a short head. -/
theorem Cbor.head_length_le_two (major : Nat) (short : n < 256) :
    (Cbor.head major n).length ≤ 2 := by
  unfold Cbor.head
  split
  · simp
  · simp [short]

theorem Cbor.head_length_le_three (major : Nat) (short : n < 65536) :
    (Cbor.head major n).length ≤ 3 := by
  unfold Cbor.head
  split
  · simp
  split
  · simp
  · simp [short]

theorem Cbor.fixed_length_le (value : FixedBytes n) :
    (Cbor.bytes value.1).length ≤ 9 + n := by
  have := Cbor.bytes_length_le value.1
  rwa [value.2] at this

theorem Cbor.bytes_le {value : Bytes} (short : value.length ≤ n) :
    (Cbor.bytes value).length ≤ 9 + n :=
  (Cbor.bytes_length_le value).trans (by omega)

theorem Cbor.text_le {value : String} (short : (utf8 value).length ≤ n) :
    (Cbor.text value).length ≤ 9 + n := by
  have := Cbor.head_length_le 3 (utf8 value).length
  rw [Cbor.text, length_append]
  omega

theorem Cbor.append_le {a b : Bytes} {m : Nat} (first : a.length ≤ m) (second : b.length ≤ n) :
    (a ++ b).length ≤ m + n := by
  rw [length_append]
  omega

section Then

variable {m : Nat} {rest : Bytes} (short : rest.length ≤ m)

include short

/-- The length of a head and what follows it; below the same for an integer and a fixed string. -/
theorem Cbor.headThen {major k : Nat} : (Cbor.head major k ++ rest).length ≤ 9 + m :=
  append_le (head_length_le ..) short

theorem Cbor.unsignedThen {k : Nat} : (Cbor.unsigned k ++ rest).length ≤ 9 + m :=
  append_le (unsigned_length_le _) short

theorem Cbor.fixedThen {value : FixedBytes n} :
    (Cbor.bytes value.1 ++ rest).length ≤ 9 + n + m :=
  append_le (fixed_length_le value) short

end Then

theorem Cbor.flatMap_length_le {values : List α} {encode : α → Bytes} {bound : Nat}
    (each : ∀ value ∈ values, (encode value).length ≤ bound) :
    (values.flatMap encode).length ≤ values.length * bound := by
  induction values with
  | nil => simp
  | cons value values ih =>
    have hhead := each value mem_cons_self
    have htail := ih fun other hother => each other (mem_cons_of_mem value hother)
    rw [flatMap_cons, length_append, length_cons, Nat.succ_mul]
    omega

/-! ## One encoding for each document -/

/-- Decoding undoes encoding, and the other way round. -/
structure OneEncoding (encode : α → Except ε Bytes) (decode : Bytes → Except ε' α) : Prop where
  decode_encode : ∀ {value bytes}, encode value = .ok bytes → decode bytes = .ok value
  encode_decode : ∀ {value bytes}, decode bytes = .ok value → encode value = .ok bytes

namespace OneEncoding

variable {encode : α → Except ε Bytes} {decode : Bytes → Except ε' α}

/-- Different documents have different encodings. -/
theorem encode_injective (one : OneEncoding encode decode) {a b : α} {bytes : Bytes}
    (first : encode a = .ok bytes) (second : encode b = .ok bytes) : a = b :=
  Except.ok.inj ((one.decode_encode first).symm.trans (one.decode_encode second))

end OneEncoding

/-- Decoding undoes the encoding of a good document, and decodes good documents only. -/
structure OneEncodingOf (good : α → Prop) (encode : α → Except ε Bytes)
    (decode : Bytes → Except ε' α) : Prop where
  decode_encode : ∀ {value bytes}, good value → encode value = .ok bytes → decode bytes = .ok value
  encode_decode : ∀ {value bytes}, decode bytes = .ok value → good value ∧ encode value = .ok bytes

theorem OneEncodingOf.decode_injective {good : α → Prop} {encode : α → Except ε Bytes}
    {decode : Bytes → Except ε' α} (one : OneEncodingOf good encode decode) {a b : Bytes}
    {value : α} (first : decode a = .ok value) (second : decode b = .ok value) : a = b :=
  Except.ok.inj ((one.encode_decode first).2.symm.trans (one.encode_decode second).2)

/-- Reads a bounded string, encodes what it read and compares. -/
def strict (limit : Nat) (long mismatch : ε) (reader : Cbor.Reader ε α)
    (encode : α → Except ε Bytes) (input : Bytes) : Except ε α := do
  reject (limit < input.length) long
  let (value, _) ← reader.run input
  let encoded ← encode value
  reject (input ≠ encoded) mismatch
  return value

section Strict

variable {limit : Nat} {long mismatch : ε} {reader : Cbor.Reader ε α}
  {encode : α → Except ε Bytes} {value : α} {bytes : Bytes}

theorem strict_encodes (h : strict limit long mismatch reader encode bytes = .ok value) :
    encode value = .ok bytes := by
  simp only [strict, ok_steps, exists_const, not_not] at h
  obtain ⟨-, ⟨found, rest⟩, -, encoded, hencode, rfl, rfl⟩ := h
  exact hencode

theorem strict_of_run {rest : Bytes} (hencode : encode value = .ok bytes)
    (short : bytes.length ≤ limit) (run : reader.run bytes = .ok (value, rest)) :
    strict limit long mismatch reader encode bytes = .ok value := by
  simp only [strict, ok_steps, exists_const, not_not, not_lt]
  exact ⟨short, (value, rest), run, bytes, hencode, rfl, rfl⟩

/-- **A strict decoder takes one encoding of each document**, provided it reads back what the
encoder wrote. -/
theorem strict_oneEncoding (reads : ∀ value bytes, encode value = .ok bytes →
    bytes.length ≤ limit ∧ ∃ rest, reader.run bytes = .ok (value, rest)) :
    OneEncoding encode (strict limit long mismatch reader encode) where
  decode_encode hencode := by
    obtain ⟨short, rest, run⟩ := reads _ _ hencode
    exact strict_of_run hencode short run
  encode_decode := strict_encodes

end Strict

end Supgang.Theory
