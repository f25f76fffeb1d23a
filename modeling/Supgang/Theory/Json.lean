/-
# Theory.Json — hexadecimal, decimal and quoted texts

The compact texts that small state files are kept in: what is written, and a reader of it that
stops where a text ends. The reader reads the texts that need no escape.

* `hexEncode`, `hexDecode` — bytes as pairs of digits; `hexDecode_hexEncode`.
* `decimal` — a number without leading zeros; `quote` — a text between quotation marks.
* `Parser` — readers; `literal`, `quoted`, `number`, `sequence` with `run_literal`, `run_quoted`,
  `run_number`, `run_sequence`: each reads back what was written, whatever follows.
-/
import Mathlib.Data.Nat.Digits.Lemmas
import Supgang.Theory.Bytes

namespace Supgang.Theory.Json

set_option autoImplicit false

open List

/-! ## Hexadecimal -/

def hexDigit (n : Nat) : UInt8 := if n < 10 then UInt8.ofNat (48 + n) else UInt8.ofNat (87 + n)

/-- Two lowercase digits for each byte. -/
def hexEncode (bytes : Bytes) : Bytes :=
  bytes.flatMap fun byte => [hexDigit (byte.toNat / 16), hexDigit (byte.toNat % 16)]

/-- The value of a digit of either case. -/
def hexValue (char : UInt8) : Option Nat :=
  if 48 ≤ char ∧ char ≤ 57 then some (char.toNat - 48)
  else if 97 ≤ char ∧ char ≤ 102 then some (char.toNat - 87)
  else if 65 ≤ char ∧ char ≤ 70 then some (char.toNat - 55)
  else none

def hexDecode : Bytes → Option Bytes
  | [] => some []
  | [_] => none
  | high :: low :: rest => do
      let high ← hexValue high
      let low ← hexValue low
      let rest ← hexDecode rest
      return UInt8.ofNat (high * 16 + low) :: rest

variable {n : Nat} {text : Bytes}

theorem hexValue_hexDigit (small : n < 16) : hexValue (hexDigit n) = some n := by
  interval_cases n <;> rfl

theorem hexDecode_hexEncode (bytes : Bytes) : hexDecode (hexEncode bytes) = some bytes := by
  induction bytes with
  | nil => rfl
  | cons byte rest ih =>
    have bound := byte.toNat_lt
    have halves : byte.toNat / 16 * 16 + byte.toNat % 16 = byte.toNat := by omega
    change (hexValue (hexDigit (byte.toNat / 16))).bind (fun high =>
      (hexValue (hexDigit (byte.toNat % 16))).bind fun low =>
        (hexDecode (hexEncode rest)).bind fun rest =>
          some (UInt8.ofNat (high * 16 + low) :: rest)) = _
    rw [hexValue_hexDigit (by omega), hexValue_hexDigit (by omega), ih]
    change some (UInt8.ofNat (byte.toNat / 16 * 16 + byte.toNat % 16) :: rest) = _
    rw [halves, UInt8.ofNat_toNat]

/-- A text that decodes has two digits for each byte. -/
theorem hexDecode_length {bytes : Bytes} (h : hexDecode text = some bytes) :
    text.length = 2 * bytes.length := by
  induction text using hexDecode.induct generalizing bytes with
  | case1 => cases h; rfl
  | case2 => cases h
  | case3 high low rest ih =>
    simp only [hexDecode, Option.bind_eq_bind, Option.bind_eq_some_iff, Option.pure_def,
      Option.some.injEq] at h
    obtain ⟨_, -, _, -, decoded, more, rfl⟩ := h
    simp only [length_cons, ih more]
    omega

/-! ## Texts that are written without an escape -/

/-- A byte that stands for itself between quotation marks. -/
def plain (byte : UInt8) : Bool := 32 ≤ byte && byte != 34 && byte != 92

theorem plain_of_hexValue {char : UInt8} (h : hexValue char = some n) :
    plain char = true := by
  revert h
  revert n
  revert char
  decide +kernel

theorem plain_of_hexDecode {bytes : Bytes} (h : hexDecode text = some bytes) :
    ∀ char ∈ text, plain char = true := by
  induction text using hexDecode.induct generalizing bytes with
  | case1 => simp
  | case2 => cases h
  | case3 high low rest ih =>
    simp only [hexDecode, Option.bind_eq_bind, Option.bind_eq_some_iff, Option.pure_def,
      Option.some.injEq] at h
    obtain ⟨_, first, _, second, decoded, more, -⟩ := h
    intro char member
    rcases mem_cons.mp member with rfl | member
    · exact plain_of_hexValue first
    · rcases mem_cons.mp member with rfl | member
      · exact plain_of_hexValue second
      · exact ih more char member

/-- What stands for one byte of a text. -/
def escape (byte : UInt8) : Bytes :=
  match byte with
  | 34 => utf8 "\\\""
  | 92 => utf8 "\\\\"
  | 8 => utf8 "\\b"
  | 12 => utf8 "\\f"
  | 10 => utf8 "\\n"
  | 13 => utf8 "\\r"
  | 9 => utf8 "\\t"
  | byte => if byte < 32 then utf8 "\\u00" ++ hexEncode [byte] else [byte]

def quote (text : Bytes) : Bytes := 34 :: (text.flatMap escape ++ [34])

theorem escape_plain {byte : UInt8} (h : plain byte = true) : escape byte = [byte] := by
  revert h
  revert byte
  decide +kernel

theorem quote_plain (h : ∀ byte ∈ text, plain byte = true) :
    quote text = 34 :: (text ++ [34]) := by
  have same : text.flatMap escape = text := by
    rw [← flatMap_singleton' text, flatMap_assoc]
    refine flatMap_congr fun byte member => ?_
    simpa using escape_plain (h byte member)
  rw [quote, same]

/-! ## Decimal -/

/-- The digits of a number, most significant first. -/
def decimal (n : Nat) : Bytes :=
  if n = 0 then [48] else (Nat.digits 10 n).reverse.map fun digit => UInt8.ofNat (48 + digit)

def isDigit (byte : UInt8) : Bool := 48 ≤ byte && byte ≤ 57

/-- The number that a text of digits denotes. -/
def decimalValue (text : Bytes) : Nat :=
  text.foldl (fun value digit => value * 10 + (digit.toNat - 48)) 0

theorem decimalValue_decimal (n : Nat) : decimalValue (decimal n) = n := by
  unfold decimal
  split
  · subst n; rfl
  · have value (digits : List Nat) (small : ∀ digit ∈ digits, digit < 10) :
        decimalValue (digits.reverse.map fun digit => UInt8.ofNat (48 + digit)) =
          Nat.ofDigits 10 digits := by
      induction digits with
      | nil => rfl
      | cons digit rest ih =>
        have here := small digit (by simp)
        have kept : (UInt8.ofNat (48 + digit)).toNat = 48 + digit := by simp; omega
        unfold decimalValue at *
        rw [reverse_cons, map_append, foldl_append,
          ih fun other member => small other (by simp [member]), Nat.ofDigits_cons]
        simp only [map_cons, map_nil, foldl_cons, foldl_nil, kept]
        omega
    rw [value _ fun digit member => Nat.digits_lt_base (by norm_num) member, Nat.ofDigits_digits]

theorem isDigit_of_mem_decimal {byte : UInt8} (h : byte ∈ decimal n) :
    isDigit byte = true := by
  unfold decimal at h
  split at h
  · cases mem_singleton.mp h; rfl
  · obtain ⟨digit, member, rfl⟩ := mem_map.mp h
    have small := Nat.digits_lt_base (by norm_num) (mem_reverse.mp member)
    interval_cases digit <;> rfl

theorem decimal_ne_nil (n : Nat) : decimal n ≠ [] := by
  unfold decimal
  split
  · simp
  · rename_i positive
    simpa [Nat.digits_eq_nil_iff_eq_zero] using positive

theorem decimal_length_le {width : Nat} (positive : 0 < width) (h : n < 10 ^ width) :
    (decimal n).length ≤ width := by
  unfold decimal
  split
  · exact positive
  · simpa using (Nat.digits_length_le_iff (by norm_num) n).mpr h

/-! ## Readers -/

abbrev Parser (α : Type) := StateT Bytes Option α

section Parsers

variable {α : Type}

def literal (expected : Bytes) : Parser Unit := fun input =>
  if expected.isPrefixOf input then some ((), input.drop expected.length) else none

/-- The longest start of the input all of whose bytes pass. -/
def span (accepts : UInt8 → Bool) : Parser Bytes := fun input =>
  some (input.takeWhile accepts, input.dropWhile accepts)

/-- A text between quotation marks that holds no escape. -/
def quoted : Parser Bytes := do
  literal [34]
  let text ← span plain
  literal [34]
  return text

/-- A number below the bound. -/
def number (bound : Nat) : Parser Nat := do
  let digits ← span isDigit
  if digits = [] ∨ bound ≤ decimalValue digits then failure else return decimalValue digits

/-- The further items of a sequence, and the bracket that ends it. -/
def furtherItems (item : Parser α) : Nat → Parser (List α)
  | 0 => failure
  | fuel + 1 => fun input =>
    match input with
    | 93 :: rest => some ([], rest)
    | 44 :: rest => do
        let (first, rest) ← item.run rest
        let (others, rest) ← (furtherItems item fuel).run rest
        return (first :: others, rest)
    | _ => none

/-- At most `fuel` items between brackets, with commas between them. -/
def sequence (item : Parser α) (fuel : Nat) : Parser (List α) := fun input =>
  match input with
  | 91 :: 93 :: rest => some ([], rest)
  | 91 :: rest => do
      let (first, rest) ← item.run rest
      let (others, rest) ← (furtherItems item fuel).run rest
      return (first :: others, rest)
  | _ => none

/-- What `sequence` reads. -/
def brackets (encode : α → Bytes) : List α → Bytes
  | [] => [91, 93]
  | first :: others => 91 :: (encode first ++ (others.flatMap (fun a => 44 :: encode a) ++ [93]))

variable {encode : α → Bytes} {values : List α} {item : Parser α}

theorem brackets_length_le {width : Nat} (each : ∀ a ∈ values, (encode a).length ≤ width) :
    (brackets encode values).length ≤ 2 + values.length * (width + 1) := by
  have further (others : List α) (bounded : ∀ a ∈ others, (encode a).length ≤ width) :
      (others.flatMap fun a => 44 :: encode a).length ≤ others.length * (width + 1) := by
    induction others with
    | nil => simp
    | cons a others ih =>
      have here := bounded a (by simp)
      have rest := ih fun b member => bounded b (by simp [member])
      simp only [flatMap_cons, length_append, length_cons, Nat.add_mul, Nat.one_mul]
      omega
  cases values with
  | nil => simp [brackets]
  | cons first others =>
    have here := each first (by simp)
    have rest := further others fun b member => each b (by simp [member])
    simp only [brackets, length_cons, length_append, length_nil, Nat.add_mul,
      Nat.one_mul]
    omega

theorem length_le_brackets (encode : α → Bytes) (values : List α) :
    values.length ≤ (brackets encode values).length := by
  have further (others : List α) :
      others.length ≤ (others.flatMap fun a => 44 :: encode a).length := by
    induction others with
    | nil => simp
    | cons a others ih =>
      simp only [flatMap_cons, length_append, length_cons]
      omega
  cases values with
  | nil => simp
  | cons first others =>
    have rest := further others
    simp only [brackets, length_cons, length_append]
    omega

theorem run_literal (expected rest : Bytes) :
    (literal expected).run (expected ++ rest) = some ((), rest) := by
  have starts : expected.isPrefixOf (expected ++ rest) = true := by simp
  change (if _ then _ else _) = _
  rw [if_pos starts, drop_left]

variable {rest : Bytes}

theorem run_span {accepts : UInt8 → Bool} {text : Bytes}
    (inside : ∀ byte ∈ text, accepts byte = true) (ends : rest.head?.any accepts = false) :
    (span accepts).run (text ++ rest) = some (text, rest) := by
  change some (_, _) = _
  rw [takeWhile_append_of_pos inside, dropWhile_append_of_pos inside]
  cases rest with
  | nil => simp
  | cons next rest =>
    have stops : ¬accepts next = true := by simpa using ends
    rw [takeWhile_cons_of_neg stops, dropWhile_cons_of_neg stops, append_nil]

theorem run_bind_of {β : Type} {x : Parser α} {f : α → Parser β} {input : Bytes} {a : α}
    (h : x.run input = some (a, rest)) : (x >>= f).run input = (f a).run rest := by
  rw [StateT.run_bind, h]
  rfl

theorem run_quoted {text : Bytes} (h : ∀ byte ∈ text, plain byte = true) (rest : Bytes) :
    quoted.run (quote text ++ rest) = some (text, rest) := by
  have shape : quote text ++ rest = [34] ++ (text ++ 34 :: rest) := by simp [quote_plain h]
  rw [shape, quoted, run_bind_of (run_literal ..), run_bind_of (run_span h rfl)]
  exact run_bind_of (run_literal [34] rest)

theorem run_number {n bound : Nat} (small : n < bound) (ends : rest.head?.any isDigit = false) :
    (number bound).run (decimal n ++ rest) = some (n, rest) := by
  have accepted : ¬(decimal n = [] ∨ bound ≤ decimalValue (decimal n)) := by
    rw [decimalValue_decimal]
    simp [decimal_ne_nil, small]
  rw [number, run_bind_of (run_span (fun _ => isDigit_of_mem_decimal) ends), if_neg accepted,
    decimalValue_decimal]
  rfl

theorem run_furtherItems {fuel : Nat}
    (each : ∀ a ∈ values, ∀ rest, item.run (encode a ++ rest) = some (a, rest))
    (enough : values.length < fuel) (rest : Bytes) :
    (furtherItems item fuel).run (values.flatMap (fun a => 44 :: encode a) ++ 93 :: rest) =
      some (values, rest) := by
  induction values generalizing fuel with
  | nil =>
    obtain ⟨fuel, rfl⟩ := Nat.exists_eq_add_of_lt enough
    rfl
  | cons first others ih =>
    obtain ⟨fuel, rfl⟩ : ∃ n, fuel = n + 1 := ⟨fuel - 1, by simp at enough; omega⟩
    have here := each first (by simp) (others.flatMap (fun a => 44 :: encode a) ++ 93 :: rest)
    have further := ih (fun a member => each a (mem_cons_of_mem _ member))
      (show others.length < fuel by simpa using enough)
    rw [flatMap_cons, cons_append, cons_append, append_assoc]
    change ((item.run _).bind fun pair => ((furtherItems item fuel).run pair.2).bind fun more =>
      some (pair.1 :: more.1, more.2)) = _
    rw [here, Option.bind_some, further, Option.bind_some]

/-- A sequence is read back; an item must not begin with the bracket that ends one. -/
theorem run_sequence {fuel : Nat}
    (each : ∀ a ∈ values, ∀ rest, item.run (encode a ++ rest) = some (a, rest))
    (starts : ∀ a ∈ values, ∃ byte text, encode a = byte :: text ∧ byte ≠ 93)
    (enough : values.length ≤ fuel) (rest : Bytes) :
    (sequence item fuel).run (brackets encode values ++ rest) = some (values, rest) := by
  cases values with
  | nil => rfl
  | cons first others =>
    obtain ⟨byte, text, begins, open_⟩ := starts first (by simp)
    have here := each first (by simp) (others.flatMap (fun a => 44 :: encode a) ++ 93 :: rest)
    have further := run_furtherItems (fun a member => each a (mem_cons_of_mem _ member))
      (show others.length < fuel by simpa using enough) rest
    have shape : brackets encode (first :: others) ++ rest =
        91 :: byte :: (text ++ (others.flatMap (fun a => 44 :: encode a) ++ 93 :: rest)) := by
      simp [brackets, begins]
    have unfolds : ∀ tail, (sequence item fuel).run (91 :: byte :: tail) =
        (item.run (byte :: tail)).bind fun pair => ((furtherItems item fuel).run pair.2).bind
          fun more => some (pair.1 :: more.1, more.2) := by
      intro tail
      change sequence item fuel (91 :: byte :: tail) = _
      unfold sequence
      split
      · rename_i same
        simp at same
        exact absurd same.1 open_
      · rename_i same
        cases same
        rfl
      · rename_i other
        exact absurd rfl (other _)
    rw [shape, unfolds]
    rw [begins, cons_append] at here
    rw [here, Option.bind_some, further, Option.bind_some]

end Parsers

end Supgang.Theory.Json
