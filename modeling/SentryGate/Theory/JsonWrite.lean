/-
# Theory.JsonWrite -- writing JSON, and the strings between the quotes

`render` writes a value without white space.  Its text means the value, with each string
coerced to UTF-8 (`reads_render`), so reading it gives the value back.
-/
import SentryGate.Theory.JsonText

namespace SentryGate.Theory.JsonText

open Bytes Json

set_option autoImplicit false

/-! ## Strings between quotes -/

section Strings

theorem automaton_append {σ : Type} {next : σ → UInt8 → Option σ} {q q' : σ} {w w' : List UInt8}
    (first : automaton next q w = some q') :
    automaton next q (w ++ w') = automaton next q' w' := by
  induction w generalizing q with
  | nil =>
      cases first
      rfl
  | cons b w ih =>
      obtain ⟨p, taken, rest⟩ := Option.bind_eq_some_iff.mp first
      simp only [List.cons_append, automaton, taken, Option.bind_some]
      exact ih rest

/-- Bytes that are no control characters, quotes or backslashes stand for themselves. -/
theorem isString_plain {w : List UInt8}
    (plain : ∀ b ∈ w, 32 ≤ b.toNat ∧ b ≠ 34 ∧ b ≠ 92) : IsString w := by
  induction w with
  | nil => rfl
  | cons b w ih =>
      obtain ⟨printable, open_, slash⟩ := plain b List.mem_cons_self
      have next : InString.next .plain b = some .plain := by
        simp [InString.next, slash, open_, Nat.not_lt.mpr printable]
      simp only [IsString, automaton, next, Option.bind_some]
      exact ih fun c member => plain c (List.mem_cons_of_mem b member)

theorem isString_code (n : ℕ) : IsString (escapeCode n) := by
  have digits : ∀ k, (hexValue (hexDigit (k % 16))).isSome = true := by
    intro k
    rw [hexValue_hexDigit (Nat.mod_lt k (by decide))]
    rfl
  simp [IsString, escapeCode, automaton, InString.next, InString.digits, digits]

/-- The bytes of a character: its code, or all of them above the ASCII ones. -/
theorem encode_bytes (c : Char) (b : UInt8) (member : b ∈ String.utf8EncodeChar c) :
    b.toNat = c.toNat ∨ 128 ≤ b.toNat := by
  have code : c.toNat = c.val.toNat := rfl
  unfold String.utf8EncodeChar at member
  dsimp only at member
  split_ifs at member with one two three <;> simp only [List.mem_cons, List.not_mem_nil, or_false] at member
  · subst member
    rw [UInt8.toNat_ofNat']
    omega
  · rcases member with rfl | rfl <;> rw [UInt8.toNat_ofNat'] <;> omega
  · rcases member with rfl | rfl | rfl <;> rw [UInt8.toNat_ofNat'] <;> omega
  · rcases member with rfl | rfl | rfl | rfl <;> rw [UInt8.toNat_ofNat'] <;> omega

/-- What is written for a character may stand in a string. -/
theorem isString_escape (c : Char) : IsString (escape c) := by
  unfold escape
  split
  · rename_i d b short
    have table : ∀ p ∈ shortEscapes, IsString [92, p.2] := by
      unfold IsString
      decide
    exact table _ (List.mem_of_find?_eq_some short)
  · rename_i unescaped
    split
    · exact isString_code c.toNat
    · rename_i ordinary
      have printable : ¬ c.toNat < 32 := fun control => ordinary (Or.inl control)
      have absent : ∀ d ∈ ['"', '\\'], d.toNat ≠ c.toNat := by
        intro d member same
        have equal : d = c := Char.ext (UInt32.toNat_inj.mp same)
        have none_ := List.find?_eq_none.mp unescaped
        rw [← equal] at none_
        revert none_
        rcases List.mem_pair.mp member with rfl | rfl <;> decide
      refine isString_plain fun b member => ?_
      rcases encode_bytes c b member with same | above
      · refine ⟨by omega, ?_, ?_⟩ <;> rintro rfl
        · exact absent '"' (by decide) same
        · exact absent '\\' (by decide) same
      · refine ⟨by omega, ?_, ?_⟩ <;> rintro rfl <;> revert above <;> decide

theorem isString_runes (rs : List (Option Char)) : IsString (rs.flatMap escape?) := by
  induction rs with
  | nil => rfl
  | cons r rs ih =>
      rw [List.flatMap_cons, escape?, IsString, automaton_append (isString_escape _)]
      exact ih

/-- A quoted string is read as it, coerced to UTF-8. -/
theorem unquote_runes (s : List UInt8) : unquote ((runes 0 s).flatMap escape?) = coerced s := by
  have length : ((runes 0 s).flatMap escape? ++ [34]).length ≤
      ((runes 0 s).flatMap escape?).length + 1 := by simp
  obtain ⟨chars, read, same⟩ := readString_quote s [] length
  unfold unquote
  rw [read]
  exact same

theorem reads_quote (d : ℕ) (s : List UInt8) :
    Reads d (.value (.string (coerced s))) (quote s) := by
  rw [← unquote_runes]
  exact .string d (isString_runes _)

/-- What was read is UTF-8. -/
theorem coerced_unquote (raw : List UInt8) : coerced (unquote raw) = unquote raw := by
  rw [coerced_eq_iff]
  unfold unquote
  split
  · rename_i chars read
    exact ⟨chars, rfl⟩
  · exact ⟨[], rfl⟩

theorem encode_ascii (b : UInt8) (low : b.toNat < 128) :
    String.utf8EncodeChar (Char.ofNat b.toNat) = [b] := by
  have table : ∀ n < 128, String.utf8EncodeChar (Char.ofNat n) = [UInt8.ofNat n] := by decide
  rw [table b.toNat low, UInt8.ofNat_toNat]

/-- ASCII is kept. -/
theorem coerced_ascii {s : List UInt8} (plain : ∀ b ∈ s, b.toNat < 128) : Json.coerced s = s := by
  rw [coerced_eq_iff]
  refine ⟨s.map fun b => Char.ofNat b.toNat, ?_⟩
  rw [List.flatMap_map]
  conv_lhs => rw [← List.map_id s, List.map_eq_flatMap]
  exact List.flatMap_congr fun b member => (encode_ascii b (plain b member)).symm

/-- The texts among the members of an object are UTF-8. -/
theorem Reads.utf8 {d : ℕ} {part : Part} {t : List UInt8} (reads : Reads d part t) :
    match part with
    | .value (.string s) => Json.coerced s = s
    | .members ms => ∀ m ∈ ms, ∀ s, m.2 = .string s → Json.coerced s = s
    | _ => True := by
  induction reads with
  | string d ok => exact coerced_unquote _
  | member before name between gap value behind ih =>
      intro m member s text
      rw [List.mem_singleton.mp member] at text
      simp only at text
      subst text
      exact ih
  | members first before name between gap value behind ih ih' =>
      intro m member s text
      rcases List.mem_append.mp member with old | new
      · exact ih m old s text
      · rw [List.mem_singleton.mp new] at text
        simp only at text
        subst text
        exact ih'
  | _ => trivial

end Strings

/-! ## Writing -/

mutual

/-- The text of a value, without white space. -/
def render : Value → List UInt8
  | .null => nullText
  | .bool b => if b then trueText else falseText
  | .number t => t
  | .string s => quote s
  | .array vs => 91 :: (renderItems vs ++ [93])
  | .object ms => 123 :: (renderMembers ms ++ [125])

def renderItems : List Value → List UInt8
  | [] => []
  | [v] => render v
  | v :: vs => render v ++ 44 :: renderItems vs

def renderMembers : List (List UInt8 × Value) → List UInt8
  | [] => []
  | [(key, v)] => quote key ++ 58 :: render v
  | (key, v) :: ms => quote key ++ 58 :: render v ++ 44 :: renderMembers ms

end

mutual

/-- The value with every string coerced to UTF-8. -/
def Value.coerced : Value → Value
  | .null => .null
  | .bool b => .bool b
  | .number t => .number t
  | .string s => .string (Json.coerced s)
  | .array vs => .array (coercedItems vs)
  | .object ms => .object (coercedMembers ms)

def Value.coercedItems : List Value → List Value
  | [] => []
  | v :: vs => v.coerced :: coercedItems vs

def Value.coercedMembers : List (List UInt8 × Value) → List (List UInt8 × Value)
  | [] => []
  | (key, v) :: ms => (Json.coerced key, v.coerced) :: coercedMembers ms

end

mutual

/-- The numbers are numbers, and the value is nested at most so deep. -/
def Value.Fits : ℕ → Value → Prop
  | _, .null | _, .bool _ | _, .string _ => True
  | _, .number t => IsNumber t
  | 0, .array _ | 0, .object _ => False
  | d + 1, .array vs => FitItems d vs
  | d + 1, .object ms => FitMembers d ms

def Value.FitItems : ℕ → List Value → Prop
  | _, [] => True
  | d, v :: vs => v.Fits d ∧ FitItems d vs

def Value.FitMembers : ℕ → List (List UInt8 × Value) → Prop
  | _, [] => True
  | d, (_, v) :: ms => v.Fits d ∧ FitMembers d ms

end

section Written

variable {d : ℕ}

theorem Reads.items_cons {part : Part} {t : List UInt8} (reads : Reads d part t) :
    ∀ {vs : List Value}, part = .items vs → ∀ {v : Value} {u : List UInt8},
      Reads d (.value v) u → Reads d (.items (v :: vs)) (u ++ 44 :: t) := by
  induction reads with
  | item before value behind =>
      rintro _ ⟨⟩ v u first
      have one := Reads.item blank_nil first blank_nil
      simpa using one.items before value behind
  | items init before value behind ih =>
      rintro _ ⟨⟩ v u first
      simpa using (ih rfl first).items before value behind
  | _ => rintro _ ⟨⟩

theorem reads_member {key : List UInt8} {v : Value} {u : List UInt8} (value : Reads d (.value v) u) :
    Reads d (.members [(Json.coerced key, v)]) (quote key ++ 58 :: u) := by
  rw [← unquote_runes]
  simpa [quote] using Reads.member blank_nil (isString_runes (runes 0 key)) blank_nil blank_nil value
    blank_nil

theorem Reads.members_cons {part : Part} {t : List UInt8} (reads : Reads d part t) :
    ∀ {ms : List (List UInt8 × Value)}, part = .members ms → ∀ {key : List UInt8} {v : Value}
      {u : List UInt8}, Reads d (.value v) u →
      Reads d (.members ((Json.coerced key, v) :: ms)) (quote key ++ 58 :: (u ++ 44 :: t)) := by
  induction reads with
  | member before name between gap value behind =>
      rintro _ ⟨⟩ key v u first
      simpa using (reads_member first).members before name between gap value behind
  | members init before name between gap value behind ih =>
      rintro _ ⟨⟩ key v u first
      simpa using (ih rfl first).members before name between gap value behind
  | _ => rintro _ ⟨⟩

end Written

mutual

/-- **The text of a value means it**, with its strings coerced to UTF-8. -/
theorem reads_render : ∀ (v : Value) {d : ℕ}, v.Fits d → Reads d (.value v.coerced) (render v)
  | .null, d, _ => by
      simp only [Value.coerced, render]
      exact .null d
  | .bool b, d, _ => by
      simp only [Value.coerced, render]
      cases b with
      | false => exact .isFalse d
      | true => exact .isTrue d
  | .number t, d, fits => by
      simp only [Value.Fits] at fits
      simp only [Value.coerced, render]
      exact .number d fits
  | .string s, d, _ => by
      simp only [Value.coerced, render]
      exact reads_quote d s
  | .array [], 0, fits => by simp only [Value.Fits] at fits
  | .array [], d + 1, _ => by
      simp only [Value.coerced, Value.coercedItems, render, renderItems]
      exact .emptyArray d blank_nil
  | .array (v :: vs), 0, fits => by simp only [Value.Fits] at fits
  | .array (v :: vs), d + 1, fits => by
      simp only [Value.Fits] at fits
      simp only [Value.coerced, render]
      exact .array (reads_renderItems v vs fits)
  | .object [], 0, fits => by simp only [Value.Fits] at fits
  | .object [], d + 1, _ => by
      simp only [Value.coerced, Value.coercedMembers, render, renderMembers]
      exact .emptyObject d blank_nil
  | .object (m :: ms), 0, fits => by simp only [Value.Fits] at fits
  | .object (m :: ms), d + 1, fits => by
      simp only [Value.Fits] at fits
      simp only [Value.coerced, render]
      exact .object (reads_renderMembers m ms fits)

theorem reads_renderItems : ∀ (v : Value) (vs : List Value) {d : ℕ}, Value.FitItems d (v :: vs) →
    Reads d (.items (Value.coercedItems (v :: vs))) (renderItems (v :: vs))
  | v, [], d, fits => by
      simp only [Value.FitItems] at fits
      simp only [Value.coercedItems, renderItems]
      simpa using Reads.item blank_nil (reads_render v fits.1) blank_nil
  | v, v' :: vs, d, fits => by
      simp only [Value.FitItems] at fits
      simp only [Value.coercedItems, renderItems]
      exact (reads_renderItems v' vs fits.2).items_cons rfl (reads_render v fits.1)

theorem reads_renderMembers : ∀ (m : List UInt8 × Value) (ms : List (List UInt8 × Value)) {d : ℕ},
    Value.FitMembers d (m :: ms) →
    Reads d (.members (Value.coercedMembers (m :: ms))) (renderMembers (m :: ms))
  | (key, v), [], d, fits => by
      simp only [Value.FitMembers] at fits
      simp only [Value.coercedMembers, renderMembers]
      exact reads_member (reads_render v fits.1)
  | (key, v), (key', v') :: ms, d, fits => by
      simp only [Value.FitMembers] at fits
      simp only [Value.coercedMembers, renderMembers]
      have rest := reads_renderMembers (key', v') ms fits.2
      simpa [Value.coercedMembers] using rest.members_cons rfl (reads_render v fits.1)

end

end SentryGate.Theory.JsonText
