/-
# Theory.Decimal -- decimal texts of a fixed width, and their lexicographic order

`pad w n` writes `n` with `w` decimal digits.  Texts of one width are ordered as the
numbers they write (`pad_lt`), and texts that are put together from parts of equal length
are ordered part by part (`append_lt_append`).

`trimmed` drops the zeros at the end, as fractions are written.  Two fractions whose texts
part ways are ordered as the numbers (`trimmed_lt`); where one is an initial part of the
other, only what follows them decides.
-/
import SentryGate.Theory.Text
import Mathlib.Data.List.DropRight
import Mathlib.Data.List.Infix
import Mathlib.Tactic.Ring

namespace SentryGate.Theory.Decimal

set_option autoImplicit false

/-! ## Lexicographic order -/

section Lex

variable {α : Type} [LT α]

/-- Texts with first parts of equal length are compared part by part. -/
theorem append_lt_append {a a' x x' : List α} (same : a.length = a'.length)
    (less : a < a' ∨ a = a' ∧ x < x') : a ++ x < a' ++ x' := by
  induction a generalizing a' with
  | nil =>
      obtain rfl := List.length_eq_zero_iff.mp same.symm
      rcases less with less | ⟨-, less⟩
      · exact absurd less (List.not_lt_nil _)
      · exact less
  | cons c a ih =>
      cases a' with
      | nil => cases same
      | cons c' a' =>
          rw [List.cons_append, List.cons_append, List.cons_lt_cons_iff]
          rcases less with less | ⟨equal, less⟩
          · rcases List.cons_lt_cons_iff.mp less with first | ⟨first, rest⟩
            · exact Or.inl first
            · exact Or.inr ⟨first, ih (Nat.succ.inj same) (Or.inl rest)⟩
          · obtain ⟨rfl, rfl⟩ := List.cons.inj equal
            exact Or.inr ⟨rfl, ih rfl (Or.inr ⟨rfl, less⟩)⟩

/-- Three parts between separators are compared one after the other. -/
theorem fields_lt {a a' b b' c c' sep : List α} (first : a.length = a'.length)
    (second : b.length = b'.length) (less : a < a' ∨ a = a' ∧ (b < b' ∨ b = b' ∧ c < c')) :
    a ++ sep ++ b ++ sep ++ c < a' ++ sep ++ b' ++ sep ++ c' := by
  refine append_lt_append (by simp only [List.length_append, first, second]) ?_
  rcases less with less | ⟨rfl, less | ⟨rfl, less⟩⟩
  · refine Or.inl (append_lt_append (by simp only [List.length_append, first, second]) (Or.inl ?_))
    exact append_lt_append (by simp only [List.length_append, first])
      (Or.inl (append_lt_append first (Or.inl less)))
  · refine Or.inl (append_lt_append (by simp only [List.length_append, second]) (Or.inl ?_))
    exact append_lt_append rfl (Or.inr ⟨rfl, less⟩)
  · exact Or.inr ⟨rfl, less⟩

/-- What two texts have in common does not count. -/
theorem lt_of_append_lt [Std.Irrefl fun a b : α => a < b] {p x x' : List α} (less : p ++ x < p ++ x') :
    x < x' := by
  induction p with
  | nil => exact less
  | cons c p ih =>
      rw [List.cons_append, List.cons_append, List.cons_lt_cons_iff] at less
      rcases less with less | ⟨-, rest⟩
      · exact absurd less (Std.Irrefl.irrefl c)
      · exact ih rest

/-- Where the first difference is, the order is. -/
theorem diverged_lt (p : List α) {a b : α} (r r' : List α) (less : a < b) :
    p ++ a :: r < p ++ b :: r' :=
  append_lt_append rfl (Or.inr ⟨rfl, List.cons_lt_cons_iff.mpr (Or.inl less)⟩)

end Lex

/-- Two lists of which neither begins the other have a first difference. -/
theorem diverge {α : Type} [DecidableEq α] {u v : List α} (first : ¬ u <+: v) (second : ¬ v <+: u) :
    ∃ p a b r r', u = p ++ a :: r ∧ v = p ++ b :: r' ∧ a ≠ b := by
  induction u generalizing v with
  | nil => exact absurd List.nil_prefix first
  | cons c u ih =>
      cases v with
      | nil => exact absurd List.nil_prefix second
      | cons d v =>
          by_cases same : c = d
          · subst same
            obtain ⟨p, a, b, r, r', rfl, rfl, differ⟩ := ih
              (fun part => first (List.cons_prefix_cons.mpr ⟨rfl, part⟩))
              (fun part => second (List.cons_prefix_cons.mpr ⟨rfl, part⟩))
            exact ⟨c :: p, a, b, r, r', rfl, rfl, differ⟩
          · exact ⟨[], c, d, u, v, rfl, rfl, same⟩

/-! ## Digits -/

/-- The digit of a number below ten. -/
def digit (n : ℕ) : UInt8 := UInt8.ofNat (48 + n)

theorem digit_toNat {n : ℕ} (small : n < 10) : (digit n).toNat = 48 + n := by
  unfold digit
  rw [UInt8.toNat_ofNat']
  omega

theorem digit_lt {m n : ℕ} (less : m < n) (small : n < 10) : digit m < digit n := by
  rw [UInt8.lt_iff_toNat_lt, digit_toNat small, digit_toNat (less.trans small)]
  omega

/-- The number with `w` digits, the highest of them dropped if it has more. -/
def pad : ℕ → ℕ → List UInt8
  | 0, _ => []
  | w + 1, n => pad w (n / 10) ++ [digit (n % 10)]

theorem length_pad (w n : ℕ) : (pad w n).length = w := by
  induction w generalizing n with
  | zero => rfl
  | succ w ih => rw [pad, List.length_append, ih, List.length_singleton]

/-- Every byte of it is a digit. -/
theorem pad_digits {w n : ℕ} : ∀ c ∈ pad w n, ∃ k < 10, c = digit k := by
  induction w generalizing n with
  | zero => simp [pad]
  | succ w ih =>
      intro c member
      rw [pad, List.mem_append, List.mem_singleton] at member
      rcases member with before | rfl
      · exact ih c before
      · exact ⟨n % 10, Nat.mod_lt _ (by decide), rfl⟩

/-- **Decimal texts of one width are ordered as the numbers.** -/
theorem pad_lt {w m n : ℕ} (less : m < n) (fits : n < 10 ^ w) : pad w m < pad w n := by
  induction w generalizing m n with
  | zero => omega
  | succ w ih =>
      rw [pad, pad]
      refine append_lt_append (by rw [length_pad, length_pad]) ?_
      rcases Nat.lt_or_eq_of_le (Nat.div_le_div_right less.le) with higher | same
      · exact Or.inl (ih higher (by omega))
      · refine Or.inr ⟨by rw [same], List.cons_lt_cons_iff.mpr (Or.inl (digit_lt ?_ ?_))⟩ <;> omega

theorem pad_injective {w m n : ℕ} (small : m < 10 ^ w) (fits : n < 10 ^ w)
    (same : pad w m = pad w n) : m = n := by
  rcases Nat.lt_trichotomy m n with less | equal | more
  · exact absurd (same ▸ pad_lt less fits) (List.lt_irrefl _)
  · exact equal
  · exact absurd (same ▸ pad_lt more small) (List.lt_irrefl _)

/-! ## Reading -/

/-- The number a decimal text writes. -/
def number (s : List UInt8) : Option ℕ :=
  s.foldlM (fun n c => if 48 ≤ c.toNat ∧ c.toNat ≤ 57 then some (10 * n + (c.toNat - 48)) else none) 0

theorem number_concat {s : List UInt8} {n d : ℕ} (read : number s = some n) (small : d < 10) :
    number (s ++ [digit d]) = some (10 * n + d) := by
  unfold number at read ⊢
  rw [List.foldlM_append, read]
  have code := digit_toNat small
  simp only [Option.bind_eq_bind, Option.bind_some, List.foldlM_cons, List.foldlM_nil, code]
  rw [if_pos (by omega)]
  simp

theorem number_pad {w n : ℕ} (fits : n < 10 ^ w) : number (pad w n) = some n := by
  induction w generalizing n with
  | zero =>
      obtain rfl : n = 0 := by omega
      rfl
  | succ w ih =>
      rw [pad, number_concat (ih (by omega)) (Nat.mod_lt _ (by decide))]
      congr 1
      omega

/-! ## Fractions -/

/-- The number with `w` digits, without the zeros at its end. -/
def trimmed (w n : ℕ) : List UInt8 := (pad w n).rdropWhile (· == digit 0)

theorem trimmed_zeros (w n : ℕ) :
    ∃ k, k + (trimmed w n).length = w ∧ pad w n = trimmed w n ++ List.replicate k (digit 0) := by
  have parts : pad w n = trimmed w n ++ (pad w n).rtakeWhile (· == digit 0) := by
    unfold trimmed List.rdropWhile List.rtakeWhile
    rw [← List.reverse_append, List.takeWhile_append_dropWhile, List.reverse_reverse]
  have zeros : (pad w n).rtakeWhile (· == digit 0) =
      List.replicate ((pad w n).rtakeWhile (· == digit 0)).length (digit 0) := by
    refine List.eq_replicate_iff.mpr ⟨rfl, fun c member => ?_⟩
    simpa using List.mem_rtakeWhile_imp member
  refine ⟨_, ?_, parts.trans (by rw [← zeros])⟩
  have length := congrArg List.length parts
  rw [List.length_append, length_pad] at length
  omega

theorem trimmed_injective {w m n : ℕ} (small : m < 10 ^ w) (fits : n < 10 ^ w)
    (same : trimmed w m = trimmed w n) : m = n := by
  obtain ⟨k, length, whole⟩ := trimmed_zeros w m
  obtain ⟨k', length', whole'⟩ := trimmed_zeros w n
  rw [same] at length whole
  obtain rfl : k = k' := by omega
  exact pad_injective small fits (whole.trans whole'.symm)

/-- No text of digits comes before as many zeros. -/
theorem zeros_least {s : List UInt8} (digits : ∀ c ∈ s, ∃ k < 10, c = digit k) :
    ¬ s < List.replicate s.length (digit 0) := by
  induction s with
  | nil => exact List.not_lt_nil _
  | cons c s ih =>
      rw [List.length_cons, List.replicate_succ, List.cons_lt_cons_iff]
      rintro (less | ⟨-, rest⟩)
      · obtain ⟨k, small, rfl⟩ := digits c List.mem_cons_self
        rw [UInt8.lt_iff_toNat_lt, digit_toNat small, digit_toNat (by decide)] at less
        omega
      · exact ih (fun c member => digits c (List.mem_cons_of_mem _ member)) rest

/-- The fraction of the larger number does not begin that of the smaller. -/
theorem trimmed_not_start {w m n : ℕ} (less : m < n) (fits : n < 10 ^ w) :
    ¬ trimmed w n <+: trimmed w m := by
  rintro ⟨e, whole⟩
  obtain ⟨k, length, zeros⟩ := trimmed_zeros w m
  obtain ⟨k', length', zeros'⟩ := trimmed_zeros w n
  have order := pad_lt less fits
  have digits := pad_digits (w := w) (n := m)
  rw [zeros, ← whole, List.append_assoc] at order digits
  rw [zeros'] at order
  have rest : e ++ List.replicate k (digit 0) < List.replicate k' (digit 0) := lt_of_append_lt order
  have count : k' = (e ++ List.replicate k (digit 0)).length := by
    have whole := congrArg List.length whole
    rw [List.length_append] at whole ⊢
    rw [List.length_replicate]
    omega
  rw [count] at rest
  exact zeros_least (fun c member => digits c (List.mem_append_right _ member)) rest

/-- **Fractions that part ways are ordered as the numbers.** -/
theorem trimmed_lt {w m n : ℕ} (less : m < n) (fits : n < 10 ^ w)
    (apart : ¬ trimmed w m <+: trimmed w n) :
    ∃ p a b r r', trimmed w m = p ++ a :: r ∧ trimmed w n = p ++ b :: r' ∧ a < b := by
  obtain ⟨p, a, b, r, r', left, right, differ⟩ := diverge apart (trimmed_not_start less fits)
  refine ⟨p, a, b, r, r', left, right, ?_⟩
  obtain ⟨k, -, zeros⟩ := trimmed_zeros w m
  obtain ⟨k', -, zeros'⟩ := trimmed_zeros w n
  rw [left, List.append_assoc, List.cons_append] at zeros
  rw [right, List.append_assoc, List.cons_append] at zeros'
  have order := pad_lt less fits
  rw [zeros, zeros'] at order
  rcases List.cons_lt_cons_iff.mp (lt_of_append_lt order) with first | ⟨same, -⟩
  · exact first
  · exact absurd same differ

/-- The digits of a fraction give back the number. -/
theorem number_trimmed {w n : ℕ} (fits : n < 10 ^ w) :
    ∃ v, number (trimmed w n) = some v ∧ v * 10 ^ (w - (trimmed w n).length) = n := by
  obtain ⟨k, length, zeros⟩ := trimmed_zeros w n
  have read := number_pad fits
  have count : w - (trimmed w n).length = k := by omega
  rw [zeros] at read
  rw [count]
  have scaled : ∀ k v, number (trimmed w n) = some v →
      number (trimmed w n ++ List.replicate k (digit 0)) = some (v * 10 ^ k) := by
    intro k v start
    induction k with
    | zero => simpa using start
    | succ k ih =>
        rw [List.replicate_succ', ← List.append_assoc, number_concat ih (by decide)]
        congr 1
        rw [pow_succ]
        ring
  cases start : number (trimmed w n) with
  | none =>
      unfold number at read start
      rw [List.foldlM_append, start] at read
      cases read
  | some v =>
      have whole := (scaled k v start).symm.trans read
      exact ⟨v, rfl, Option.some.inj whole⟩

/-- Every byte of a fraction is a digit. -/
theorem trimmed_digits {w n : ℕ} : ∀ c ∈ trimmed w n, ∃ k < 10, c = digit k := by
  intro c member
  obtain ⟨k, -, zeros⟩ := trimmed_zeros w n
  exact pad_digits (w := w) (n := n) c (zeros ▸ List.mem_append_left _ member)

end SentryGate.Theory.Decimal
