/-
# Theory.Counting -- counting and splitting lists that change at one place

* `countP_set_add` -- how a count changes when one entry is replaced, without
  subtraction.
* `eq_of_countP_le_one` -- where at most one entry counts, two that count are one.
* `countP_le_one_of_unique` -- and the other way round.
* `split_concat` -- an entry of a list that grew by one is an old one or the last.
* `getElem?_set_some`, `getElem?_concat_some` -- where an entry comes from after a change
  at one place.
* `filter_eq_singleton` -- what one entry alone satisfies selects that entry.
* `filter_set_other`, `filter_set_single` -- a selection after a change at one place, by
  whether the entry there is selected.
-/
import Mathlib.Data.List.Basic

namespace SentryGate.Theory.Counting

set_option autoImplicit false

variable {β : Type} {p : β → Bool} {xs : List β} {i j : Nat} {x y : β}

theorem getElem?_set_some (found : (xs.set i y)[j]? = some x) :
    (j = i ∧ x = y) ∨ (j ≠ i ∧ xs[j]? = some x) := by
  by_cases here : i = j
  · subst here
    have inside := (List.getElem?_eq_some_iff.mp found).1
    rw [List.length_set] at inside
    rw [List.getElem?_set_self inside] at found
    exact Or.inl ⟨rfl, (Option.some.inj found).symm⟩
  · rw [List.getElem?_set_ne here] at found
    exact Or.inr ⟨Ne.symm here, found⟩

theorem getElem?_concat_some (found : (xs ++ [y])[j]? = some x) :
    xs[j]? = some x ∨ (j = xs.length ∧ x = y) := by
  rw [List.getElem?_append] at found
  split at found
  · exact Or.inl found
  · rw [List.getElem?_singleton] at found
    split at found
    · exact Or.inr ⟨by omega, (Option.some.inj found).symm⟩
    · cases found

theorem countP_set_add (found : xs[i]? = some x) (y : β) :
    (xs.set i y).countP p + (if p x then 1 else 0) = xs.countP p + (if p y then 1 else 0) := by
  obtain ⟨inside, rfl⟩ := List.getElem?_eq_some_iff.mp found
  have counted : p xs[i] = true → 0 < xs.countP p :=
    fun holds => List.countP_pos_iff.mpr ⟨xs[i], List.getElem_mem inside, holds⟩
  rw [List.countP_set inside]
  split
  · rename_i holds
    have := counted holds
    omega
  · omega

theorem countP_set_eq (found : xs[i]? = some x) (same : p y = p x) :
    (xs.set i y).countP p = xs.countP p := by
  have counted := countP_set_add (p := p) found y
  rw [same] at counted
  exact Nat.add_right_cancel counted

theorem eq_of_countP_le_one (single : xs.countP p ≤ 1) (here : xs[i]? = some x) (holds : p x = true)
    (there : xs[j]? = some y) (holds' : p y = true) : i = j := by
  induction xs generalizing i j with
  | nil => cases here
  | cons z zs ih =>
      -- an entry of the tail that counts leaves no room for the head
      have tail : ∀ {n : Nat} {v : β}, zs[n]? = some v → p v = true → 0 < zs.countP p :=
        fun found ok => List.countP_pos_iff.mpr ⟨_, List.mem_of_getElem? found, ok⟩
      rw [List.countP_cons] at single
      cases i with
      | zero =>
          cases j with
          | zero => rfl
          | succ j =>
              cases here
              have := tail there holds'
              rw [if_pos holds] at single
              omega
      | succ i =>
          cases j with
          | zero =>
              cases there
              have := tail here holds
              rw [if_pos holds'] at single
              omega
          | succ j =>
              have fewer : zs.countP p ≤ 1 := by omega
              rw [ih fewer here there]

theorem countP_le_one_of_unique
    (unique : ∀ (i j : Nat) (x y : β), xs[i]? = some x → p x = true → xs[j]? = some y → p y = true → i = j) :
    xs.countP p ≤ 1 := by
  induction xs with
  | nil => exact Nat.zero_le 1
  | cons z zs ih =>
      have tail : zs.countP p ≤ 1 := by
        refine ih fun i j x y here holds there holds' => ?_
        exact Nat.succ.inj (unique (i + 1) (j + 1) x y here holds there holds')
      rw [List.countP_cons]
      by_cases head : p z = true
      · -- the head counts, so nothing in the tail does
        have none_there : zs.countP p = 0 := by
          rw [List.countP_eq_zero]
          intro x member holds
          obtain ⟨i, there⟩ := List.mem_iff_getElem?.mp member
          exact Nat.noConfusion (unique 0 (i + 1) z x rfl head there holds)
        rw [if_pos head]
        omega
      · rw [if_neg head]
        exact tail

theorem split_concat {before after : List β} (same : xs ++ [y] = before ++ x :: after) :
    (∃ after, xs = before ++ x :: after) ∨ (xs = before ∧ y = x) := by
  rcases List.eq_nil_or_concat after with rfl | ⟨after', last, rfl⟩
  · obtain ⟨rest, ends⟩ := List.append_inj' same rfl
    exact Or.inr ⟨rest, by simpa using ends⟩
  · refine Or.inl ⟨after', ?_⟩
    have rest : xs ++ [y] = (before ++ x :: after') ++ [last] := by simpa using same
    exact (List.append_inj' rest rfl).1

/-- In a list without repetitions, what only one member satisfies selects that member. -/
theorem filter_eq_singleton {α : Type} {l : List α} {p : α → Bool} {a : α} (distinct : l.Nodup)
    (member : a ∈ l) (holds : p a = true) (only : ∀ b ∈ l, p b = true → b = a) :
    l.filter p = [a] := by
  obtain ⟨n, same⟩ : ∃ n, l.filter p = List.replicate n a := by
    refine ⟨_, List.eq_replicate_of_mem ?_⟩
    intro b selected
    obtain ⟨inside, chosen⟩ := List.mem_filter.mp selected
    exact only b inside chosen
  have few : n ≤ 1 := by
    have once := distinct.filter p
    rw [same] at once
    exact List.nodup_replicate.mp once
  have some_there : a ∈ List.replicate n a := by
    rw [← same]
    exact List.mem_filter.mpr ⟨member, holds⟩
  have positive : n ≠ 0 := (List.mem_replicate.mp some_there).1
  obtain rfl : n = 1 := by omega
  exact same

/-- A list around one of its places. -/
theorem exists_split (found : xs[i]? = some x) :
    ∃ before after, xs = before ++ x :: after ∧ ∀ y, xs.set i y = before ++ y :: after := by
  induction xs generalizing i with
  | nil => cases found
  | cons z zs ih =>
      cases i with
      | zero =>
          cases found
          exact ⟨[], zs, rfl, fun _ => rfl⟩
      | succ i =>
          obtain ⟨before, after, rfl, changed⟩ := ih found
          exact ⟨z :: before, after, rfl, fun y => congrArg _ (changed y)⟩

theorem filter_set_other (found : xs[i]? = some x) (before : p x = false) (after : p y = false) :
    (xs.set i y).filter p = xs.filter p := by
  obtain ⟨front, back, rfl, changed⟩ := exists_split found
  rw [changed y]
  simp [before, after]

theorem filter_set_single (found : xs[i]? = some x) (before : p x = true) (after : p y = true)
    (single : (xs.filter p).length = 1) : (xs.set i y).filter p = [y] := by
  obtain ⟨front, back, rfl, changed⟩ := exists_split found
  rw [changed y]
  have alone : (front.filter p).length = 0 ∧ (back.filter p).length = 0 := by
    rw [List.filter_append, List.filter_cons_of_pos before, List.length_append,
      List.length_cons] at single
    omega
  rw [List.filter_append, List.filter_cons_of_pos after, List.length_eq_zero_iff.mp alone.1,
    List.length_eq_zero_iff.mp alone.2]
  rfl

end SentryGate.Theory.Counting
