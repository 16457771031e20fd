/-
# Theory.Text -- byte strings, and string types with named constants

A Go `string` is a finite sequence of bytes, so it is `GoString` here: any byte
sequence, valid UTF-8 or not.  `ascii` renders the literals of the source.

A Go string type with named constants (`type Verdict string`) holds one of those
constants or any other text.  `Wire` says that a closed enumeration has pairwise
distinct texts, and `Open` is the string type over it: a named value, or a text
that no named value has.  So `Open.text` is a bijection with `GoString`
(`ofText_text`, `text_ofText`), and no text is represented twice.

`Pattern` is a regular expression from the beginning of a text to its end: character
classes one after the other, each repeated between two numbers of times.
-/
import Mathlib.Data.List.Nodup

namespace SentryGate.Theory.Text

set_option autoImplicit false

/-- A Go string: a sequence of bytes. -/
abbrev GoString := List UInt8

instance : LawfulBEq GoString := inferInstance

/-- The bytes of an ASCII literal. -/
def ascii (s : String) : GoString :=
  s.toList.map fun c => UInt8.ofNat c.toNat

/-- A closed enumeration whose values have pairwise distinct texts. -/
class Wire (α : Type) where
  text : α → GoString
  values : List α
  complete : ∀ a, a ∈ values
  distinct : (values.map text).Nodup

theorem Wire.injective {α : Type} [Wire α] {a b : α} (same : Wire.text a = Wire.text b) :
    a = b :=
  List.inj_on_of_nodup_map Wire.distinct (Wire.complete a) (Wire.complete b) same

/-- A string type with named constants: a named value or any other text. -/
inductive Open (α : Type) [Wire α] where
  | named (a : α)
  | other (s : GoString) (unnamed : ∀ a : α, Wire.text a ≠ s)

namespace Open

variable {α : Type} [Wire α]

instance [DecidableEq α] : DecidableEq (Open α)
  | .named a, .named b => decidable_of_iff (a = b) (by simp)
  | .other s _, .other t _ => decidable_of_iff (s = t) (by simp)
  | .named _, .other _ _ => isFalse (by simp)
  | .other _ _, .named _ => isFalse (by simp)

/-- The bytes of a value. -/
def text : Open α → GoString
  | .named a => Wire.text a
  | .other s _ => s

/-- The value with the given bytes. -/
def ofText (s : GoString) : Open α :=
  match h : (Wire.values (α := α)).find? (fun a => Wire.text a == s) with
  | some a => .named a
  | none => .other s fun a e => by
      have absent := List.find?_eq_none.mp h a (Wire.complete a)
      exact absent (by simpa using e)

@[simp] theorem text_ofText (s : GoString) : (ofText s : Open α).text = s := by
  unfold ofText
  split
  · rename_i a found
    have hit := List.find?_some found
    simpa [text] using hit
  · rfl

theorem text_injective : Function.Injective (text : Open α → GoString) := by
  intro x y same
  cases x with
  | named a =>
      cases y with
      | named b => exact congrArg _ (Wire.injective same)
      | other s unnamed => exact absurd same (unnamed a)
  | other s unnamed =>
      cases y with
      | named b => exact absurd same.symm (unnamed b)
      | other t _ =>
          have st : s = t := same
          subst st
          rfl

@[simp] theorem ofText_text (x : Open α) : ofText x.text = x :=
  text_injective (text_ofText _)

end Open

/-! ## Separators -/

/-- Two texts with a last separator agree before and behind it. -/
theorem append_cons_injective {α : Type} {sep : α} {a b c d : List α} (behind : sep ∉ b)
    (behind' : sep ∉ d) (same : a ++ sep :: b = c ++ sep :: d) : a = c ∧ b = d := by
  -- a longer first part would put the separator into one of the second parts
  rcases List.append_eq_append_iff.mp same with ⟨x, rfl, rest⟩ | ⟨x, rfl, rest⟩
  · cases x with
    | nil => exact ⟨by simp, (List.cons.inj rest).2⟩
    | cons y ys =>
        have inside : b = ys ++ sep :: d := (List.cons.inj rest).2
        exact absurd (by simp [inside]) behind
  · cases x with
    | nil => exact ⟨by simp, (List.cons.inj rest).2.symm⟩
    | cons y ys =>
        have inside : d = ys ++ sep :: b := (List.cons.inj rest).2
        exact absurd (by simp [inside]) behind'

/-! ## Patterns -/

/-- A class of ASCII characters: the ranges it is made of. -/
abbrev CharClass := List (Char × Char)

def CharClass.contains (c : CharClass) (b : UInt8) : Bool :=
  c.any fun (first, last) => first.toNat ≤ b.toNat && b.toNat ≤ last.toNat

/-- Classes, each with the least and the largest number of times it is repeated. -/
abbrev Pattern := List (CharClass × ℕ × ℕ)

/-- The whole text matches the pattern. -/
def Pattern.matchString : Pattern → GoString → Bool
  | [], s => s.isEmpty
  | (c, least, most) :: rest, s =>
      (List.range (most + 1)).any fun k =>
        decide (least ≤ k ∧ k ≤ s.length) && (s.take k).all c.contains &&
          Pattern.matchString rest (s.drop k)

/-- A text that matches has no bytes but those of the classes. -/
theorem Pattern.contains_of_matchString {p : Pattern} {s : GoString} (matched : p.matchString s = true) :
    ∀ b ∈ s, ∃ part ∈ p, part.1.contains b = true := by
  induction p generalizing s with
  | nil =>
      rw [List.isEmpty_iff.mp matched]
      exact fun b member => absurd member List.not_mem_nil
  | cons part p ih =>
      obtain ⟨c, least, most⟩ := part
      obtain ⟨k, -, split⟩ := List.any_eq_true.mp matched
      simp only [Bool.and_eq_true, List.all_eq_true] at split
      obtain ⟨⟨-, front⟩, rest⟩ := split
      intro b member
      rw [← List.take_append_drop k s] at member
      rcases List.mem_append.mp member with first | later
      · exact ⟨_, List.mem_cons_self, front b first⟩
      · obtain ⟨part, listed, contains⟩ := ih rest b later
        exact ⟨part, List.mem_cons_of_mem _ listed, contains⟩

/-- A pattern of ASCII classes. -/
def Pattern.isAscii (p : Pattern) : Bool := p.all fun part => part.1.all fun range => range.2.toNat < 128

theorem Pattern.ascii_of_matchString {p : Pattern} (plain : p.isAscii = true) {s : GoString}
    (matched : p.matchString s = true) : ∀ b ∈ s, b.toNat < 128 := by
  intro b member
  obtain ⟨part, listed, contains⟩ := contains_of_matchString matched b member
  obtain ⟨range, within, between⟩ := List.any_eq_true.mp contains
  have low := of_decide_eq_true (List.all_eq_true.mp (List.all_eq_true.mp plain part listed) range within)
  simp only [Bool.and_eq_true, decide_eq_true_eq] at between
  omega

end SentryGate.Theory.Text
