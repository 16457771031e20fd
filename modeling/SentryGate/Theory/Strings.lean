/-
# Theory.Strings -- white space, trimming and cutting of byte strings

Go's `strings` over bytes that need not be UTF-8.

* `isSpace` -- Unicode's white space; `hasSpace` decodes a string and looks for it.
* `trimSpace` -- encoded white space taken off both ends.  What is left is the string
  without it and neither begins nor ends with any (`trimSpace_trimmed`).
* `cut` -- a string before and behind the first separator (`cut_eq_iff`).
-/
import Mathlib.Data.List.TakeWhile
import SentryGate.Theory.Json

namespace SentryGate.Theory.Strings

open Json

set_option autoImplicit false

/-! ## White space -/

/-- The characters with Unicode's property White_Space. -/
def spaces : List Char :=
  ['\t', '\n', '\x0b', '\x0c', '\r', ' ', '\u0085', '\u00a0', '\u1680', '\u2000', '\u2001',
    '\u2002', '\u2003', '\u2004', '\u2005', '\u2006', '\u2007', '\u2008', '\u2009', '\u200a',
    '\u2028', '\u2029', '\u202f', '\u205f', '\u3000']

/-- `unicode.IsSpace`. -/
def isSpace (c : Char) : Bool := spaces.contains c

/-- `strings.IndexFunc(s, unicode.IsSpace) >= 0`: a byte that begins no character is none. -/
def hasSpace (s : List UInt8) : Bool := (runes 0 s).any fun r => r.any isSpace

/-! ## Trimming -/

section Strip

variable (encode : Char → List UInt8)

/-- A string without the white space it begins with, for one way to write characters.  The
first `skip` bytes belong to a character that was read. -/
def strip : ℕ → List UInt8 → List UInt8
  | _, [] => []
  | skip + 1, _ :: s => strip skip s
  | 0, b :: s =>
      match spaces.find? fun c => (encode c).isPrefixOf (b :: s) with
      | none => b :: s
      | some c => strip ((encode c).length - 1) s

theorem strip_skip (read s : List UInt8) : strip encode read.length (read ++ s) = strip encode 0 s := by
  induction read with
  | nil => rfl
  | cons b read ih => exact ih

variable {encode}

theorem strip_space (written : ∀ c, encode c ≠ []) {s : List UInt8} {c : Char}
    (first : spaces.find? (fun c => (encode c).isPrefixOf s) = some c) :
    c ∈ spaces ∧ ∃ rest, s = encode c ++ rest ∧ strip encode 0 s = strip encode 0 rest := by
  have hit : (encode c).isPrefixOf s = true := by simpa using List.find?_some first
  have starts : encode c <+: s := List.isPrefixOf_iff_prefix.mp hit
  obtain ⟨rest, rfl⟩ := starts
  refine ⟨List.mem_of_find?_eq_some first, rest, rfl, ?_⟩
  cases encoded : encode c with
  | nil => exact absurd encoded (written c)
  | cons b tail =>
      rw [encoded, List.cons_append] at first
      rw [List.cons_append, strip, first]
      show strip encode ((encode c).length - 1) (tail ++ rest) = strip encode 0 rest
      rw [encoded]
      exact strip_skip encode tail rest

theorem strip_end {s : List UInt8}
    (last : spaces.find? (fun c => (encode c).isPrefixOf s) = none) : strip encode 0 s = s := by
  cases s with
  | nil => rfl
  | cons b s => rw [strip, last]

/-- What is taken off is white space, and none is left at the front. -/
theorem strip_spec (written : ∀ c, encode c ≠ []) (s : List UInt8) :
    (∃ off : List Char, (∀ c ∈ off, c ∈ spaces) ∧ s = off.flatMap encode ++ strip encode 0 s) ∧
      ∀ c ∈ spaces, ¬encode c <+: strip encode 0 s := by
  cases found : spaces.find? fun c => (encode c).isPrefixOf s with
  | none =>
      rw [strip_end found]
      refine ⟨⟨[], by simp, by simp⟩, fun c space starts => ?_⟩
      exact List.find?_eq_none.mp found c space (List.isPrefixOf_iff_prefix.mpr starts)
  | some c =>
      obtain ⟨space, rest, rfl, same⟩ := strip_space written found
      have shorter : rest.length < (encode c ++ rest).length := by
        have := List.length_pos_of_ne_nil (written c)
        simp only [List.length_append]
        omega
      obtain ⟨⟨off, spaces', taken⟩, left⟩ := strip_spec written rest
      rw [same]
      refine ⟨⟨c :: off, ?_, ?_⟩, left⟩
      · intro d member
        rcases List.mem_cons.mp member with rfl | later
        · exact space
        · exact spaces' d later
      · rw [List.flatMap_cons, List.append_assoc, ← taken]
termination_by s.length

end Strip

/-- `strings.TrimSpace`. -/
def trimSpace (s : List UInt8) : List UInt8 :=
  (strip (fun c => (String.utf8EncodeChar c).reverse) 0
    (strip String.utf8EncodeChar 0 s).reverse).reverse

/-- `t` is `s` without the white space around it. -/
structure Trimmed (s t : List UInt8) : Prop where
  around : ∃ before behind : List Char, (∀ c ∈ before, isSpace c = true) ∧
    (∀ c ∈ behind, isSpace c = true) ∧
    s = before.flatMap String.utf8EncodeChar ++ t ++ behind.flatMap String.utf8EncodeChar
  front : ∀ c, isSpace c = true → ¬String.utf8EncodeChar c <+: t
  back : ∀ c, isSpace c = true → ¬String.utf8EncodeChar c <:+ t

theorem isSpace_iff (c : Char) : isSpace c = true ↔ c ∈ spaces := List.contains_iff_mem

theorem encode_ne_nil (c : Char) : String.utf8EncodeChar c ≠ [] := by
  obtain ⟨b, tail, encoded, -⟩ := encode_cons c
  rw [encoded]
  exact List.cons_ne_nil b tail

/-- **Trimming takes off the white space at both ends and nothing else.** -/
theorem trimSpace_trimmed (s : List UInt8) : Trimmed s (trimSpace s) := by
  obtain ⟨⟨before, spaces, taken⟩, front⟩ := strip_spec encode_ne_nil s
  have written : ∀ c, (String.utf8EncodeChar c).reverse ≠ [] := fun c =>
    mt List.reverse_eq_nil_iff.mp (encode_ne_nil c)
  obtain ⟨⟨behind, spaces', taken'⟩, back⟩ :=
    strip_spec written (strip String.utf8EncodeChar 0 s).reverse
  have inner : strip String.utf8EncodeChar 0 s =
      trimSpace s ++ behind.reverse.flatMap String.utf8EncodeChar := by
    have turned := congrArg List.reverse taken'
    rw [List.reverse_reverse, List.reverse_append, List.reverse_flatMap] at turned
    simp only [Function.comp_def, List.reverse_reverse] at turned
    exact turned
  refine ⟨⟨before, behind.reverse, ?_, ?_, ?_⟩, ?_, ?_⟩
  · exact fun c member => (isSpace_iff c).mpr (spaces c member)
  · exact fun c member => (isSpace_iff c).mpr (spaces' c (List.mem_reverse.mp member))
  · rw [List.append_assoc, ← inner]
    exact taken
  · intro c space starts
    refine front c ((isSpace_iff c).mp space) ?_
    rw [inner]
    exact starts.trans (List.prefix_append _ _)
  · intro c space ends
    refine back c ((isSpace_iff c).mp space) ?_
    have starts := List.reverse_prefix.mpr ends
    rwa [trimSpace, List.reverse_reverse] at starts

/-! ## Cutting -/

/-- `strings.Cut`: the string before and behind the first separator, and whether there is
one. -/
def cut (sep : UInt8) (s : List UInt8) : List UInt8 × List UInt8 × Bool :=
  if s.contains sep then (s.takeWhile (· != sep), (s.dropWhile (· != sep)).tail, true)
  else (s, [], false)

theorem cut_eq_iff {sep : UInt8} {s before behind : List UInt8} :
    cut sep s = (before, behind, true) ↔ s = before ++ sep :: behind ∧ sep ∉ before := by
  constructor
  · intro found
    unfold cut at found
    split at found
    · rename_i inside
      simp only [Prod.mk.injEq, and_true] at found
      obtain ⟨rfl, rfl⟩ := found
      refine ⟨?_, fun member => by simpa using List.mem_takeWhile_imp member⟩
      have parts := List.takeWhile_append_dropWhile (p := (· != sep)) (l := s)
      cases rest : s.dropWhile (· != sep) with
      | nil =>
          have passed := List.dropWhile_eq_nil_iff.mp rest sep (List.contains_iff_mem.mp inside)
          simp at passed
      | cons b tail =>
          have stopped := List.head?_dropWhile_not (· != sep) s
          rw [rest] at stopped parts
          obtain rfl : b = sep := by simpa using stopped
          exact parts.symm
    · simp at found
  · rintro ⟨rfl, first⟩
    have passed : ∀ b ∈ before, (b != sep) = true := by
      intro b member
      exact bne_iff_ne.mpr fun same => first (same ▸ member)
    unfold cut
    rw [if_pos (by simp), List.takeWhile_append_of_pos passed, List.dropWhile_append_of_pos passed]
    simp

end SentryGate.Theory.Strings
