/-
# Theory.Json -- lists of strings as JSON, over bytes that need not be UTF-8

`marshal` and `unmarshal` write and read a list of strings as Go's `encoding/json` does.
A string is a sequence of bytes; what is no UTF-8 in it is written as U+FFFD.  So a list
comes back with each string coerced to UTF-8 (`unmarshal_marshal`), and unchanged exactly
if each of them is the UTF-8 encoding of some characters (`coerced_eq_iff`).
-/
import SentryGate.Theory.Bytes

namespace SentryGate.Theory.Json

open Bytes

set_option autoImplicit false

/-! ## Characters -/

/-- The character a text begins with, in UTF-8. -/
def decodeRune (s : List UInt8) : Option Char := s.toByteArray.utf8DecodeChar? 0

theorem decodeRune_encode (c : Char) (rest : List UInt8) :
    decodeRune (String.utf8EncodeChar c ++ rest) = some c := by
  unfold decodeRune
  rw [List.toByteArray_append]
  exact ByteArray.utf8DecodeChar?_utf8EncodeChar_append

/-- The encoding of a character: its code below 128, and otherwise a first byte above. -/
theorem encode_cons (c : Char) : ∃ b tail, String.utf8EncodeChar c = b :: tail ∧
    tail.length = c.utf8Size - 1 ∧ (b.toNat = c.toNat ∨ 128 ≤ b.toNat) := by
  have length := String.length_utf8EncodeChar c
  cases encoded : String.utf8EncodeChar c with
  | nil =>
      have := c.utf8Size_pos
      rw [encoded, List.length_nil] at length
      omega
  | cons b tail =>
      rw [encoded, List.length_cons] at length
      refine ⟨b, tail, rfl, by omega, ?_⟩
      have code : c.toNat = c.val.toNat := rfl
      unfold String.utf8EncodeChar at encoded
      dsimp only at encoded
      split_ifs at encoded with one two three <;> obtain ⟨rfl, -⟩ := List.cons.inj encoded <;>
        rw [UInt8.toNat_ofNat'] <;> omega

/-- The characters of a text, `none` for a byte that begins none.  The first `skip` bytes
belong to a character that was read. -/
def runes : ℕ → List UInt8 → List (Option Char)
  | _, [] => []
  | skip + 1, _ :: s => runes skip s
  | 0, b :: s =>
      match decodeRune (b :: s) with
      | none => none :: runes 0 s
      | some c => some c :: runes (c.utf8Size - 1) s

theorem runes_skip (read s : List UInt8) : runes read.length (read ++ s) = runes 0 s := by
  induction read with
  | nil => rfl
  | cons b read ih => exact ih

theorem runes_encode (c : Char) (s : List UInt8) :
    runes 0 (String.utf8EncodeChar c ++ s) = some c :: runes 0 s := by
  have decoded := decodeRune_encode c s
  obtain ⟨b, tail, encoded, length, -⟩ := encode_cons c
  rw [encoded, List.cons_append] at decoded ⊢
  rw [runes, decoded]
  refine congrArg (some c :: ·) ?_
  rw [← length, runes_skip]

/-- What JSON makes of a string: its characters, U+FFFD for what is none. -/
def coerced (s : List UInt8) : List UInt8 :=
  (runes 0 s).flatMap fun r => String.utf8EncodeChar (r.getD '\uFFFD')

theorem runes_flatMap (chars : List Char) :
    runes 0 (chars.flatMap String.utf8EncodeChar) = chars.map some := by
  induction chars with
  | nil => rfl
  | cons c chars ih => rw [List.flatMap_cons, runes_encode, ih, List.map_cons]

/-- **A string is kept exactly if it is UTF-8.** -/
theorem coerced_eq_iff (s : List UInt8) :
    coerced s = s ↔ ∃ chars : List Char, s = chars.flatMap String.utf8EncodeChar := by
  constructor
  · intro kept
    refine ⟨(runes 0 s).map (·.getD '\uFFFD'), ?_⟩
    rw [List.flatMap_map]
    exact kept.symm
  · rintro ⟨chars, rfl⟩
    unfold coerced
    rw [runes_flatMap, List.flatMap_map]
    rfl

/-! ## Writing -/

/-- The escape of a code below 65536. -/
def escapeCode (n : ℕ) : List UInt8 :=
  [92, 117, hexDigit (n / 4096 % 16), hexDigit (n / 256 % 16), hexDigit (n / 16 % 16),
    hexDigit (n % 16)]

/-- The characters with an escape of two bytes, and its second byte. -/
def shortEscapes : List (Char × UInt8) :=
  [('"', 34), ('\\', 92), ('\x08', 98), ('\x0c', 102), ('\n', 110), ('\r', 114), ('\t', 116)]

/-- A character within a JSON string: escaped where it is a quote, a backslash or a control
character, would be special in HTML, or ends a line in JavaScript. -/
def escape (c : Char) : List UInt8 :=
  match shortEscapes.find? (·.1 = c) with
  | some (_, b) => [92, b]
  | none =>
      if c.toNat < 32 ∨ c = '<' ∨ c = '>' ∨ c = '&' ∨ c = '\u2028' ∨ c = '\u2029' then
        escapeCode c.toNat
      else String.utf8EncodeChar c

/-- What is written for a character, or for a byte that begins none. -/
def escape? (r : Option Char) : List UInt8 := escape (r.getD '\uFFFD')

def quote (s : List UInt8) : List UInt8 := 34 :: ((runes 0 s).flatMap escape? ++ [34])

/-- `json.Marshal` of a list of strings. -/
def marshal : List (List UInt8) → List UInt8
  | [] => [91, 93]
  | s :: rest => 91 :: (quote s ++ (rest.flatMap (fun s => 44 :: quote s) ++ [93]))

/-! ## Reading -/

def hexValue (b : UInt8) : Option ℕ :=
  if 48 ≤ b.toNat ∧ b.toNat ≤ 57 then some (b.toNat - 48)
  else if 97 ≤ b.toNat ∧ b.toNat ≤ 102 then some (b.toNat - 87)
  else if 65 ≤ b.toNat ∧ b.toNat ≤ 70 then some (b.toNat - 55)
  else none

/-- Four hexadecimal digits. -/
def readCode : List UInt8 → Option (ℕ × List UInt8)
  | a :: b :: c :: d :: rest => do
      let a ← hexValue a
      let b ← hexValue b
      let c ← hexValue c
      let d ← hexValue d
      some (a * 4096 + b * 256 + c * 16 + d, rest)
  | _ => none

/-- The character of a code; two surrogates in a row are one, a single one is none. -/
def codeRune (n : ℕ) (rest : List UInt8) : Char × List UInt8 :=
  if n < 0xD800 ∨ 0xE000 ≤ n then (Char.ofNat n, rest)
  else
    match rest with
    | 92 :: 117 :: next =>
        match readCode next with
        | some (m, rest') =>
            if n < 0xDC00 ∧ 0xDC00 ≤ m ∧ m < 0xE000 then
              (Char.ofNat (0x10000 + (n - 0xD800) * 1024 + (m - 0xDC00)), rest')
            else ('\uFFFD', rest)
        | none => ('\uFFFD', rest)
    | _ => ('\uFFFD', rest)

/-- What follows a backslash. -/
def readEscape : List UInt8 → Option (Char × List UInt8)
  | [] => none
  | b :: rest =>
      if b = 117 then (readCode rest).map fun (n, rest) => codeRune n rest
      else if b = 47 then some ('/', rest)
      else (shortEscapes.find? (·.2 = b)).map fun (c, _) => (c, rest)

/-- One character of a string. -/
def readRune : List UInt8 → Option (Char × List UInt8)
  | [] => none
  | b :: rest =>
      if b = 92 then readEscape rest
      else if b.toNat < 32 then none
      else match decodeRune (b :: rest) with
        | none => some ('\uFFFD', rest)
        | some c => some (c, rest.drop (c.utf8Size - 1))

/-- A string up to its closing quote, within as many characters as the bound says. -/
def readString : ℕ → List UInt8 → Option (List Char × List UInt8)
  | 0, _ => none
  | _ + 1, [] => none
  | bound + 1, b :: s =>
      if b = 34 then some ([], s)
      else do
        let (c, rest) ← readRune (b :: s)
        let (chars, rest) ← readString bound rest
        some (c :: chars, rest)

/-- The strings of an array, up to the end of the text. -/
def readStrings : ℕ → List UInt8 → Option (List (List UInt8))
  | bound + 1, 34 :: s => do
      let (chars, rest) ← readString s.length s
      let string := chars.flatMap String.utf8EncodeChar
      match rest with
      | [93] => some [string]
      | 44 :: rest => (readStrings bound rest).map (string :: ·)
      | _ => none
  | _, _ => none

/-- `json.Unmarshal` of a text as `marshal` writes it, without blanks, into a list of
strings. -/
def unmarshal (s : List UInt8) : Option (List (List UInt8)) :=
  match s with
  | [110, 117, 108, 108] => some []
  | [91, 93] => some []
  | 91 :: rest => readStrings rest.length rest
  | _ => none

/-! ## Round trip -/

theorem hexValue_hexDigit {n : ℕ} (small : n < 16) : hexValue (hexDigit n) = some n := by
  revert n
  decide

theorem readCode_escapeCode {n : ℕ} (small : n < 65536) (rest : List UInt8) :
    readCode ((escapeCode n).drop 2 ++ rest) = some (n, rest) := by
  have digits : ∀ k, hexValue (hexDigit (k % 16)) = some (k % 16) := fun k =>
    hexValue_hexDigit (Nat.mod_lt k (by decide))
  show readCode (_ :: _ :: _ :: _ :: rest) = _
  simp only [readCode, digits, Option.bind_eq_bind, Option.bind_some]
  congr 2
  omega

/-- A short escape is read as its character. -/
theorem readEscape_short {c d : Char} {b : UInt8} (short : shortEscapes.find? (·.1 = c) = some (d, b))
    (rest : List UInt8) : readEscape (b :: rest) = some (c, rest) := by
  have table : ∀ p ∈ shortEscapes, p.2 ≠ 117 ∧ p.2 ≠ 47 ∧ shortEscapes.find? (·.2 = p.2) = some p := by
    decide
  obtain rfl : d = c := by simpa using List.find?_some short
  obtain ⟨code, slash, found⟩ := table _ (List.mem_of_find?_eq_some short)
  dsimp only at code slash found
  rw [readEscape, if_neg code, if_neg slash, found]
  rfl

theorem readRune_code {n : ℕ} (small : n < 0xD800) (rest : List UInt8) :
    readRune (escapeCode n ++ rest) = some (Char.ofNat n, rest) := by
  have read := readCode_escapeCode (n := n) (by omega) rest
  have single : codeRune n rest = (Char.ofNat n, rest) := by
    unfold codeRune
    rw [if_pos (Or.inl small)]
  show (readCode ((escapeCode n).drop 2 ++ rest)).map _ = _
  rw [read, Option.map_some]
  exact congrArg some single

/-- A character without a short escape begins with no quote and no backslash. -/
theorem encode_unescaped {c : Char} (unescaped : shortEscapes.find? (·.1 = c) = none) :
    ∃ b tail, String.utf8EncodeChar c = b :: tail ∧ tail.length = c.utf8Size - 1 ∧
      (b.toNat = c.toNat ∨ 128 ≤ b.toNat) ∧ b ≠ 92 ∧ b ≠ 34 := by
  obtain ⟨b, tail, encoded, length, code⟩ := encode_cons c
  have other : ∀ d : Char, d ∈ ['\\', '"'] → d ≠ c := by
    rintro d member rfl
    have absent := List.find?_eq_none.mp unescaped
    simp [shortEscapes] at absent member
    tauto
  have apart : ∀ d : Char, d ∈ ['\\', '"'] → b ≠ UInt8.ofNat d.toNat := by
    intro d member same
    have small : d.toNat < 128 := by
      rcases List.mem_pair.mp member with rfl | rfl <;> decide
    have value : b.toNat = d.toNat := by
      rw [same, UInt8.toNat_ofNat']
      omega
    rcases code with equal | above
    · exact other d member (Char.ext (UInt32.toNat_inj.mp (value.symm.trans equal)))
    · omega
  exact ⟨b, tail, encoded, length, code, apart '\\' (by decide), apart '"' (by decide)⟩

theorem readRune_encode {c : Char} (unescaped : shortEscapes.find? (·.1 = c) = none)
    (printable : ¬ c.toNat < 32) (rest : List UInt8) :
    readRune (String.utf8EncodeChar c ++ rest) = some (c, rest) := by
  have decoded := decodeRune_encode c rest
  obtain ⟨b, tail, encoded, length, code, slash, -⟩ := encode_unescaped unescaped
  rw [encoded, List.cons_append] at decoded ⊢
  rw [readRune, if_neg slash, if_neg (by omega), decoded]
  refine congrArg (fun tail => some (c, tail)) ?_
  rw [← length, List.drop_left]

/-- What is written for a character is read as it. -/
theorem readRune_escape (c : Char) (rest : List UInt8) :
    readRune (escape c ++ rest) = some (c, rest) := by
  unfold escape
  split
  · rename_i d b short
    exact readEscape_short short rest
  · rename_i unescaped
    split
    · rename_i special
      have low : c.toNat < 0xD800 := by
        rcases special with control | rfl | rfl | rfl | rfl | rfl
        · omega
        all_goals decide
      rw [readRune_code low, Char.ofNat_toNat]
    · rename_i plain
      exact readRune_encode unescaped (fun control => plain (Or.inl control)) rest

/-- Nothing that is written for a character begins with a quote. -/
theorem escape_cons (c : Char) : ∃ b tail, escape c = b :: tail ∧ b ≠ 34 := by
  unfold escape
  split
  · exact ⟨_, _, rfl, by decide⟩
  · rename_i unescaped
    split
    · exact ⟨_, _, rfl, by decide⟩
    · obtain ⟨b, tail, encoded, -, -, -, quoted⟩ := encode_unescaped unescaped
      exact ⟨b, tail, encoded, quoted⟩

theorem readString_escape? {bound : ℕ} {rs : List (Option Char)} (enough : rs.length < bound)
    (rest : List UInt8) :
    readString bound (rs.flatMap escape? ++ 34 :: rest) = some (rs.map (·.getD '\uFFFD'), rest) := by
  induction rs generalizing bound with
  | nil =>
      obtain ⟨bound, rfl⟩ : ∃ k, bound = k + 1 := ⟨bound - 1, by simp at enough; omega⟩
      rfl
  | cons r rs ih =>
      obtain ⟨bound, rfl⟩ : ∃ k, bound = k + 1 := ⟨bound - 1, by simp at enough; omega⟩
      have read := readRune_escape (r.getD '\uFFFD') (rs.flatMap escape? ++ 34 :: rest)
      obtain ⟨b, tail, written, open_⟩ := escape_cons (r.getD '\uFFFD')
      rw [List.flatMap_cons, List.append_assoc, escape?]
      rw [written, List.cons_append] at read ⊢
      rw [readString, if_neg open_, read]
      simp only [Option.bind_eq_bind, Option.bind_some]
      rw [ih (by simpa using enough)]
      rfl

/-- Where every part has a byte, a text has as many bytes as parts. -/
theorem length_le_flatMap {α β : Type} {f : α → List β} (some_byte : ∀ a, f a ≠ []) {l : List α} :
    l.length ≤ (l.flatMap f).length := by
  induction l with
  | nil => exact Nat.zero_le _
  | cons a l ih =>
      have := List.length_pos_of_ne_nil (some_byte a)
      rw [List.flatMap_cons, List.length_append, List.length_cons]
      omega

/-- A quoted string is read up to its end, coerced. -/
theorem readString_quote (s rest : List UInt8) {bound : ℕ}
    (enough : ((runes 0 s).flatMap escape? ++ 34 :: rest).length ≤ bound) :
    ∃ chars, readString bound ((runes 0 s).flatMap escape? ++ 34 :: rest) = some (chars, rest) ∧
      chars.flatMap String.utf8EncodeChar = coerced s := by
  have some_byte : (runes 0 s).length ≤ ((runes 0 s).flatMap escape?).length := by
    refine length_le_flatMap fun r => ?_
    obtain ⟨b, tail, written, -⟩ := escape_cons (r.getD '\uFFFD')
    rw [escape?, written]
    exact List.cons_ne_nil b tail
  rw [List.length_append, List.length_cons] at enough
  refine ⟨_, readString_escape? (by omega) rest, ?_⟩
  rw [List.flatMap_map]
  rfl

/-- The strings of an array are read one after the other. -/
theorem readStrings_quote {bound : ℕ} (s : List UInt8) (rest : List (List UInt8))
    (enough : rest.length < bound) :
    readStrings bound (quote s ++ (rest.flatMap (fun s => 44 :: quote s) ++ [93])) =
      some (coerced s :: rest.map coerced) := by
  induction rest generalizing bound s with
  | nil =>
      obtain ⟨bound, rfl⟩ : ∃ k, bound = k + 1 := ⟨bound - 1, by simp at enough; omega⟩
      obtain ⟨chars, read, same⟩ := readString_quote s [93] le_rfl
      unfold quote
      rw [List.flatMap_nil, List.nil_append, List.cons_append, List.append_assoc, List.singleton_append,
        readStrings, read]
      simp only [Option.bind_eq_bind, Option.bind_some, same, List.map_nil]
  | cons s' rest ih =>
      obtain ⟨bound, rfl⟩ : ∃ k, bound = k + 1 := ⟨bound - 1, by simp at enough; omega⟩
      have fewer : rest.length < bound := by simpa using enough
      have later := ih s' fewer
      obtain ⟨chars, read, same⟩ := readString_quote s
        (44 :: (quote s' ++ (rest.flatMap (fun s => 44 :: quote s) ++ [93]))) le_rfl
      rw [List.flatMap_cons, List.append_assoc, List.cons_append]
      conv_lhs => rw [quote, List.cons_append, List.append_assoc, List.singleton_append]
      rw [readStrings, read]
      simp only [Option.bind_eq_bind, Option.bind_some, same]
      rw [later, Option.map_some, List.map_cons]

/-- **A list of strings comes back, each coerced to UTF-8.** -/
theorem unmarshal_marshal (ss : List (List UInt8)) : unmarshal (marshal ss) = some (ss.map coerced) := by
  cases ss with
  | nil => rfl
  | cons s rest =>
      have bytes : rest.length ≤ (rest.flatMap fun s => 44 :: quote s).length :=
        length_le_flatMap fun s => List.cons_ne_nil 44 (quote s)
      have enough : rest.length <
          (quote s ++ (rest.flatMap (fun s => 44 :: quote s) ++ [93])).length := by
        rw [List.length_append, List.length_append, List.length_singleton]
        omega
      exact readStrings_quote s rest enough

end SentryGate.Theory.Json
