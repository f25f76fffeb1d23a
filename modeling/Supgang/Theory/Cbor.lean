/-
# Theory.Cbor — the CBOR items a deterministic encoding is built from

Writing is a function to bytes, always with the shortest head; reading is a state program over the
bytes left. Reading is more liberal than writing, as decoders are: a head of any width is
accepted, so a format that wants one spelling for each value compares what it read with what it
would have written.

* `head major n` — the shortest head; `run_readHead` reads it back.
* `unsigned`, `bytes`, `text`, `array`, `bool`, `null` — the items; `readU8`, `readU16`, `readU64`,
  `readBytes`, `readText`, `readArray`, `readBool` and the `run_…` lemmas, one round trip each, with any bytes
  following.
* `FromDecode ε` — the error type `ε` has a place for a decoding failure.
* `readMany` — a counted run of items; `bind_u64` and its like run a program from its first reader on.
-/
import Supgang.Theory.Program

namespace Supgang.Theory.Cbor

set_option autoImplicit false

open List

/-! ## Writing -/

/-- The initial byte and argument of an item, as short as the argument allows. -/
def head (major n : Nat) : Bytes :=
  if n < 24 then [UInt8.ofNat (major * 32 + n)]
  else if n < 256 ^ 1 then UInt8.ofNat (major * 32 + 24) :: beBytes 1 n
  else if n < 256 ^ 2 then UInt8.ofNat (major * 32 + 25) :: beBytes 2 n
  else if n < 256 ^ 4 then UInt8.ofNat (major * 32 + 26) :: beBytes 4 n
  else UInt8.ofNat (major * 32 + 27) :: beBytes 8 n

def unsigned (n : Nat) : Bytes := head 0 n
def u8 (n : UInt8) : Bytes := unsigned n.toNat
def u16 (n : UInt16) : Bytes := unsigned n.toNat
def u64 (n : UInt64) : Bytes := unsigned n.toNat
def bytes (value : Bytes) : Bytes := head 2 value.length ++ value
def text (value : String) : Bytes := head 3 (utf8 value).length ++ utf8 value
def array (count : Nat) : Bytes := head 4 count
def bool (value : Bool) : Bytes := if value then [0xf5] else [0xf4]
def null : Bytes := [0xf6]

/-! ## Reading -/

/-- Why the front of the input is not the item asked for. -/
inductive DecodeError where
  | endOfInput
  | typeMismatch
  | overflow
  | invalidText
deriving DecidableEq, Repr

/-- An error type with a place for decoding failures. -/
class FromDecode (ε : Type) where
  decode : DecodeError → ε

instance : FromDecode DecodeError := ⟨id⟩

/-- A reader over the bytes that are left. -/
abbrev Reader (ε α : Type) := StateT Bytes (Except ε) α

variable {ε : Type} [FromDecode ε]

def fail {α : Type} (error : DecodeError) : Reader ε α := fun _ => .error (FromDecode.decode error)

/-- The next `n` bytes. -/
def take (n : Nat) : Reader ε Bytes := fun input =>
  if n ≤ input.length then .ok (input.take n, input.drop n)
  else .error (FromDecode.decode .endOfInput)

/-- The initial byte, as its major type and additional information. -/
def initial : Reader ε (Nat × Nat) := fun input =>
  match input with
  | [] => .error (FromDecode.decode .endOfInput)
  | byte :: rest => .ok ((byte.toNat / 32, byte.toNat % 32), rest)

/-- The argument that additional information `info` announces. -/
def argument (info : Nat) : Reader ε Nat :=
  if info < 24 then pure info
  else match info with
    | 24 => ofBE <$> take 1
    | 25 => ofBE <$> take 2
    | 26 => ofBE <$> take 4
    | 27 => ofBE <$> take 8
    | _ => fail .typeMismatch

/-- The argument of an item of the given major type and definite length. -/
def readHead (major : Nat) : Reader ε Nat := do
  let (found, info) ← initial
  if found ≠ major then fail .typeMismatch
  else argument info

def readUnsigned (bound : Nat) : Reader ε Nat := do
  let n ← readHead 0
  if n < bound then pure n else fail .overflow

def readU8 : Reader ε UInt8 := UInt8.ofNat <$> readUnsigned (2 ^ 8)
def readU16 : Reader ε UInt16 := UInt16.ofNat <$> readUnsigned (2 ^ 16)
def readU64 : Reader ε UInt64 := UInt64.ofNat <$> readUnsigned (2 ^ 64)

def readBytes : Reader ε Bytes := do
  let n ← readHead 2
  take n

def readText : Reader ε String := do
  let n ← readHead 3
  let raw ← take n
  match String.fromUTF8? ⟨raw.toArray⟩ with
  | some value => pure value
  | none => fail .invalidText

/-- The length of an array, or `none` for an array of indefinite length. -/
def readArray : Reader ε (Option Nat) := do
  let (found, info) ← initial
  if found ≠ 4 then fail .typeMismatch
  else if info = 31 then pure none
  else some <$> argument info

/-- Reads `count` items in a row. -/
def readMany {α : Type} (item : Reader ε α) : Nat → Reader ε (List α)
  | 0 => pure []
  | count + 1 => do
      let value ← item
      let values ← readMany item count
      pure (value :: values)

/-- An array of exactly the expected length. -/
def requireArray (error : ε) (expected : Nat) : Reader ε Unit := do
  let found ← readArray
  reject (found ≠ some expected) error

/-- A byte string of exactly `n` bytes. -/
def readFixed (error : ε) (n : Nat) : Reader ε (FixedBytes n) := do
  let raw ← readBytes
  ofExcept (okOr (FixedBytes.ofBytes? n raw) error)

def readBool : Reader ε Bool := fun input =>
  match input with
  | [] => .error (FromDecode.decode .endOfInput)
  | first :: rest =>
    if first = 0xf4 then .ok (false, rest)
    else if first = 0xf5 then .ok (true, rest)
    else .error (FromDecode.decode .typeMismatch)

/-- An item, or the null that stands for its absence. -/
def readNullable {α : Type} (item : Reader ε α) : Reader ε (Option α) := fun input =>
  match input with
  | [] => .error (FromDecode.decode .endOfInput)
  | first :: rest => if first = 0xf6 then .ok (none, rest) else (some <$> item).run input

/-! ## Running readers -/

section Run

variable {α β : Type}

omit [FromDecode ε] in
@[simp] theorem run_ofExcept_ok (a : α) (input : Bytes) :
    (ofExcept (.ok a : Except ε α) : Reader ε α).run input = .ok (a, input) := rfl

omit [FromDecode ε] in
theorem run_reject_of_not {bad : Prop} [Decidable bad] (h : ¬bad) (e : ε) (input : Bytes) :
    (reject bad e : Reader ε Unit).run input = .ok ((), input) := by
  rw [reject, if_neg h]
  rfl

omit [FromDecode ε] in
theorem run_bind_of {x : Reader ε α} {f : α → Reader ε β} {input rest : Bytes} {a : α}
    (h : x.run input = .ok (a, rest)) : (x >>= f).run input = (f a).run rest := by
  rw [StateT.run_bind, h, ok_bind]

omit [FromDecode ε] in
/-- What a reader that has read something did first. -/
theorem run_bind_ok {x : Reader ε α} {f : α → Reader ε β} {input : Bytes} {out : β × Bytes} :
    (x >>= f).run input = .ok out ↔
      ∃ a rest, x.run input = .ok (a, rest) ∧ (f a).run rest = .ok out := by
  rw [StateT.run_bind, bind_eq_ok]
  exact Prod.exists

omit [FromDecode ε] in
theorem run_ofExcept_eq_ok {x : Except ε α} {input rest : Bytes} {a : α} :
    (ofExcept x : Reader ε α).run input = .ok (a, rest) ↔ x = .ok a ∧ input = rest := by
  cases x with
  | error e => exact ⟨fun h => (nomatch h), fun h => (nomatch h.1)⟩
  | ok b => rw [run_ofExcept_ok, Except.ok.injEq, Prod.mk.injEq, Except.ok.injEq]

end Run

/-! ## Round trips -/

theorem run_take (value rest : Bytes) :
    (take value.length : Reader ε Bytes).run (value ++ rest) = .ok (value, rest) := by
  simp [take, StateT.run]

theorem run_take_of_length {value : Bytes} {n : Nat} (h : value.length = n) (rest : Bytes) :
    (take n : Reader ε Bytes).run (value ++ rest) = .ok (value, rest) := by
  rw [← h]
  exact run_take value rest

theorem run_initial {major info : Nat} (hmajor : major < 8) (hinfo : info < 32) (rest : Bytes) :
    (initial : Reader ε (Nat × Nat)).run (UInt8.ofNat (major * 32 + info) :: rest) =
      .ok ((major, info), rest) := by
  have hbyte : (UInt8.ofNat (major * 32 + info)).toNat = major * 32 + info := by
    rw [UInt8.toNat_ofNat', Nat.mod_eq_of_lt (by omega)]
  simp only [initial, StateT.run, hbyte]
  congr 3 <;> omega

theorem run_argument_word {w n : Nat} (fits : n < 256 ^ w) (rest : Bytes) :
    (ofBE <$> take w : Reader ε Nat).run (beBytes w n ++ rest) = .ok (n, rest) := by
  rw [StateT.run_map, run_take_of_length (beBytes_length w n)]
  simp [Functor.map, Except.map, ofBE_beBytes fits]

/-- A head is an initial byte and an argument that reads back. -/
theorem head_spec (major : Nat) {n : Nat} (fits : n < 2 ^ 64) :
    ∃ info tail, info < 28 ∧ head major n = UInt8.ofNat (major * 32 + info) :: tail ∧
      ∀ rest, (argument info : Reader ε Nat).run (tail ++ rest) = .ok (n, rest) := by
  unfold head
  by_cases h0 : n < 24
  · refine ⟨n, [], by omega, by rw [if_pos h0], fun rest => ?_⟩
    simp only [argument, if_pos h0]
    rfl
  by_cases h1 : n < 256 ^ 1
  · exact ⟨24, beBytes 1 n, by omega, by rw [if_neg h0, if_pos h1],
      fun rest => run_argument_word h1 rest⟩
  by_cases h2 : n < 256 ^ 2
  · exact ⟨25, beBytes 2 n, by omega, by rw [if_neg h0, if_neg h1, if_pos h2],
      fun rest => run_argument_word h2 rest⟩
  by_cases h4 : n < 256 ^ 4
  · exact ⟨26, beBytes 4 n, by omega, by rw [if_neg h0, if_neg h1, if_neg h2, if_pos h4],
      fun rest => run_argument_word h4 rest⟩
  · exact ⟨27, beBytes 8 n, by omega, by rw [if_neg h0, if_neg h1, if_neg h2, if_neg h4],
      fun rest => run_argument_word fits rest⟩

theorem run_readHead {major n : Nat} (hmajor : major < 8) (fits : n < 2 ^ 64) (rest : Bytes) :
    (readHead major : Reader ε Nat).run (head major n ++ rest) = .ok (n, rest) := by
  obtain ⟨info, tail, hinfo, hhead, hargument⟩ := @head_spec ε _ major n fits
  simp only [readHead, StateT.run_bind, hhead, cons_append,
    run_initial hmajor (by omega : info < 32), ok_bind]
  simpa using hargument rest

theorem run_readUnsigned {bound n : Nat} (hn : n < bound) (fits : n < 2 ^ 64) (rest : Bytes) :
    (readUnsigned bound : Reader ε Nat).run (unsigned n ++ rest) = .ok (n, rest) := by
  simp only [readUnsigned, unsigned, StateT.run_bind, run_readHead (by omega : 0 < 8) fits, ok_bind,
    if_pos hn]
  rfl

@[simp] theorem run_readU8 (n : UInt8) (rest : Bytes) :
    (readU8 : Reader ε UInt8).run (u8 n ++ rest) = .ok (n, rest) := by
  have hn := n.toNat_lt
  rw [readU8, StateT.run_map, u8, run_readUnsigned hn (by omega)]
  simp [Functor.map, Except.map]

@[simp] theorem run_readU16 (n : UInt16) (rest : Bytes) :
    (readU16 : Reader ε UInt16).run (u16 n ++ rest) = .ok (n, rest) := by
  have hn := n.toNat_lt
  rw [readU16, StateT.run_map, u16, run_readUnsigned hn (by omega)]
  simp [Functor.map, Except.map]

@[simp] theorem run_readU64 (n : UInt64) (rest : Bytes) :
    (readU64 : Reader ε UInt64).run (u64 n ++ rest) = .ok (n, rest) := by
  have hn := n.toNat_lt
  rw [readU64, StateT.run_map, u64, run_readUnsigned hn hn]
  simp [Functor.map, Except.map]

theorem run_readBytes {value : Bytes} (fits : value.length < 2 ^ 64) (rest : Bytes) :
    (readBytes : Reader ε Bytes).run (bytes value ++ rest) = .ok (value, rest) := by
  rw [readBytes, bytes, append_assoc, StateT.run_bind, run_readHead (by omega) fits, ok_bind]
  exact run_take value rest

theorem fromUTF8?_utf8 (value : String) :
    String.fromUTF8? ⟨(utf8 value).toArray⟩ = some value := by
  have hbytes : (⟨(utf8 value).toArray⟩ : ByteArray) = value.toByteArray := by
    simp [utf8, String.toUTF8]
  rw [hbytes, String.fromUTF8?, dif_pos value.isValidUTF8]
  rfl

theorem run_readText {value : String} (fits : (utf8 value).length < 2 ^ 64) (rest : Bytes) :
    (readText : Reader ε String).run (text value ++ rest) = .ok (value, rest) := by
  rw [readText, text, append_assoc, StateT.run_bind, run_readHead (by omega) fits, ok_bind,
    StateT.run_bind, run_take, ok_bind]
  simp only [fromUTF8?_utf8]
  rfl

theorem run_readArray {count : Nat} (fits : count < 2 ^ 64) (rest : Bytes) :
    (readArray : Reader ε (Option Nat)).run (array count ++ rest) = .ok (some count, rest) := by
  obtain ⟨info, tail, hinfo, hhead, hargument⟩ := @head_spec ε _ 4 count fits
  have hfinite : info ≠ 31 := by omega
  simp only [readArray, array, StateT.run_bind, hhead, cons_append,
    run_initial (by omega : 4 < 8) (by omega : info < 32), ok_bind, ne_eq, not_true_eq_false,
    if_false, if_neg hfinite, StateT.run_map, hargument rest]
  rfl

theorem run_requireArray (error : ε) {count : Nat} (fits : count < 2 ^ 64) (rest : Bytes) :
    (requireArray error count).run (array count ++ rest) = .ok ((), rest) := by
  rw [requireArray, run_bind_of (run_readArray fits rest)]
  exact run_reject_of_not (by simp) error rest

theorem run_readFixed (error : ε) {n : Nat} (value : FixedBytes n) (fits : n < 2 ^ 64)
    (rest : Bytes) : (readFixed error n).run (bytes value.1 ++ rest) = .ok (value, rest) := by
  rw [readFixed, run_bind_of (run_readBytes (by rw [value.2]; exact fits) rest),
    FixedBytes.ofBytes?_val, okOr_some, run_ofExcept_ok]

theorem run_readNullable_null {α : Type} (item : Reader ε α) (rest : Bytes) :
    (readNullable item).run (null ++ rest) = .ok (none, rest) := rfl

/-- An item with a head does not start like a null. -/
theorem run_readNullable_head {α : Type} {item : Reader ε α} {major n : Nat} {rest rest' : Bytes}
    {value : α} (hmajor : major < 7) (fits : n < 2 ^ 64)
    (h : item.run (head major n ++ rest) = .ok (value, rest')) :
    (readNullable item).run (head major n ++ rest) = .ok (some value, rest') := by
  obtain ⟨info, tail, hinfo, hhead, -⟩ := @head_spec ε _ major n fits
  have hfirst : UInt8.ofNat (major * 32 + info) ≠ 0xf6 := by
    intro same
    have := congrArg UInt8.toNat same
    rw [UInt8.toNat_ofNat', Nat.mod_eq_of_lt (by omega)] at this
    have null : UInt8.toNat 0xf6 = 246 := rfl
    omega
  rw [hhead] at h ⊢
  change (if UInt8.ofNat (major * 32 + info) = 0xf6 then _ else (some <$> item).run _) = _
  rw [if_neg hfirst, StateT.run_map]
  simp only [cons_append] at h ⊢
  rw [h]
  rfl

theorem run_readNullable_bytes {α : Type} {item : Reader ε α} {string rest rest' : Bytes} {value : α}
    (fits : string.length < 2 ^ 64) (h : item.run (bytes string ++ rest) = .ok (value, rest')) :
    (readNullable item).run (bytes string ++ rest) = .ok (some value, rest') := by
  rw [bytes, append_assoc] at h ⊢
  exact run_readNullable_head (by omega) fits h

theorem run_readBool (value : Bool) (rest : Bytes) :
    (readBool : Reader ε Bool).run (bool value ++ rest) = .ok (value, rest) := by
  cases value <;> rfl

omit [FromDecode ε] in
/-- A counted run of items reads back when each item does. -/
theorem run_readMany {α : Type} {item : Reader ε α} {encode : α → Bytes} {values : List α}
    (hitem : ∀ value ∈ values, ∀ rest, item.run (encode value ++ rest) = .ok (value, rest))
    (rest : Bytes) :
    (readMany item values.length).run (values.flatMap encode ++ rest) = .ok (values, rest) := by
  induction values with
  | nil => rfl
  | cons value values ih =>
    have hhead := hitem value mem_cons_self
    have htail := ih fun v hv => hitem v (mem_cons_of_mem value hv)
    simp only [length_cons, readMany, flatMap_cons, append_assoc, StateT.run_bind,
      hhead, ok_bind, htail]
    rfl

omit [FromDecode ε] in
/-- What a reader takes off the front of any string is determined by the string. -/
theorem append_inj_of_run {α : Type} {item : Reader ε α} {encode : α → Bytes} {a b : α}
    {rest rest' : Bytes} (first : item.run (encode a ++ rest) = .ok (a, rest))
    (second : item.run (encode b ++ rest') = .ok (b, rest'))
    (same : encode a ++ rest = encode b ++ rest') : a = b ∧ rest = rest' := by
  rw [same, second] at first
  cases first
  exact ⟨rfl, rfl⟩

/-! ## The first reader of a program

The round trips again, as rules that run a program from its first reader on. -/

section First

variable {α β : Type}

omit [FromDecode ε] in
theorem bind_ofExcept (a : α) (f : α → Reader ε β) (input : Bytes) :
    (ofExcept (.ok a) >>= f).run input = (f a).run input := run_bind_of (run_ofExcept_ok a input)

omit [FromDecode ε] in
theorem bind_reject {bad : Prop} [Decidable bad] (good : ¬bad) (e : ε) (f : Unit → Reader ε β)
    (input : Bytes) : (reject bad e >>= f).run input = (f ()).run input :=
  run_bind_of (run_reject_of_not good e input)

theorem bind_u8 (n : UInt8) (f : UInt8 → Reader ε β) (rest : Bytes) :
    (readU8 >>= f).run (u8 n ++ rest) = (f n).run rest := run_bind_of (run_readU8 n rest)

theorem bind_u16 (n : UInt16) (f : UInt16 → Reader ε β) (rest : Bytes) :
    (readU16 >>= f).run (u16 n ++ rest) = (f n).run rest := run_bind_of (run_readU16 n rest)

theorem bind_u64 (n : UInt64) (f : UInt64 → Reader ε β) (rest : Bytes) :
    (readU64 >>= f).run (u64 n ++ rest) = (f n).run rest := run_bind_of (run_readU64 n rest)

theorem bind_bytes {value : Bytes} (fits : value.length < 2 ^ 64) (f : Bytes → Reader ε β)
    (rest : Bytes) : (readBytes >>= f).run (bytes value ++ rest) = (f value).run rest :=
  run_bind_of (run_readBytes fits rest)

theorem bind_text {value : String} (fits : (utf8 value).length < 2 ^ 64) (f : String → Reader ε β)
    (rest : Bytes) : (readText >>= f).run (text value ++ rest) = (f value).run rest :=
  run_bind_of (run_readText fits rest)

theorem bind_array {count : Nat} (fits : count < 2 ^ 64) (f : Option Nat → Reader ε β)
    (rest : Bytes) : (readArray >>= f).run (array count ++ rest) = (f (some count)).run rest :=
  run_bind_of (run_readArray fits rest)

theorem bind_requireArray (error : ε) {count : Nat} (fits : count < 2 ^ 64) (f : Unit → Reader ε β)
    (rest : Bytes) : (requireArray error count >>= f).run (array count ++ rest) = (f ()).run rest :=
  run_bind_of (run_requireArray error fits rest)

theorem bind_fixed (error : ε) {n : Nat} (value : FixedBytes n) (fits : n < 2 ^ 64)
    (f : FixedBytes n → Reader ε β) (rest : Bytes) :
    (readFixed error n >>= f).run (bytes value.1 ++ rest) = (f value).run rest :=
  run_bind_of (run_readFixed error value fits rest)

/-- One set of rules for a whole program. -/
theorem bind_reads :
    (∀ (α : Type) (a : α) (f : α → Reader ε β) input,
      (ofExcept (.ok a) >>= f).run input = (f a).run input) ∧
    (∀ n (f : _ → Reader ε β) rest, (readU8 >>= f).run (u8 n ++ rest) = (f n).run rest) ∧
    (∀ n (f : _ → Reader ε β) rest, (readU16 >>= f).run (u16 n ++ rest) = (f n).run rest) ∧
    (∀ n (f : _ → Reader ε β) rest, (readU64 >>= f).run (u64 n ++ rest) = (f n).run rest) ∧
    (∀ value, value.length < 2 ^ 64 → ∀ (f : _ → Reader ε β) rest,
      (readBytes >>= f).run (bytes value ++ rest) = (f value).run rest) ∧
    (∀ value, (utf8 value).length < 2 ^ 64 → ∀ (f : _ → Reader ε β) rest,
      (readText >>= f).run (text value ++ rest) = (f value).run rest) ∧
    (∀ error count, count < 2 ^ 64 → ∀ (f : _ → Reader ε β) rest,
      (requireArray error count >>= f).run (array count ++ rest) = (f ()).run rest) ∧
    ∀ error n (value : FixedBytes n), n < 2 ^ 64 → ∀ (f : _ → Reader ε β) rest,
      (readFixed error n >>= f).run (bytes value.1 ++ rest) = (f value).run rest :=
  ⟨fun _ => bind_ofExcept, bind_u8, bind_u16, bind_u64, fun _ => bind_bytes, fun _ => bind_text,
    fun error _ => bind_requireArray error, fun error _ => bind_fixed error⟩

omit [FromDecode ε] in
theorem bind_many {item : Reader ε α} {encode : α → Bytes} {values : List α}
    (each : ∀ value ∈ values, ∀ rest, item.run (encode value ++ rest) = .ok (value, rest))
    (f : List α → Reader ε β) (rest : Bytes) :
    (readMany item values.length >>= f).run (values.flatMap encode ++ rest) = (f values).run rest :=
  run_bind_of (run_readMany each rest)

end First

/-! ## Sizes -/

theorem head_ne_nil (major n : Nat) : head major n ≠ [] := by
  unfold head
  split
  · simp
  split
  · simp
  split
  · simp
  split <;> simp

theorem head_length_le (major n : Nat) : (head major n).length ≤ 9 := by
  unfold head
  split
  · simp
  split
  · simp
  split
  · simp
  split <;> simp

theorem unsigned_length_le (n : Nat) : (unsigned n).length ≤ 9 := head_length_le 0 n

theorem bytes_length_le (value : Bytes) : (bytes value).length ≤ 9 + value.length := by
  have := head_length_le 2 value.length
  rw [bytes, length_append]
  omega

end Supgang.Theory.Cbor
