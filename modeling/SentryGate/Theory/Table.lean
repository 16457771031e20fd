/-
# Theory.Table -- tables with a primary key, and the statements that change them

A `Table` lists its rows in the order of their rowids and carries that no two of
them share a key.  The statements are those of SQL, each returning the table after
it with the number of rows it changed: `insertOrIgnore` (INSERT .. ON CONFLICT DO
NOTHING), `upsert` (INSERT .. ON CONFLICT DO UPDATE .. WHERE) and `update`
(UPDATE .. WHERE).

`find?_insert`, `upsert_cases` and `find?_update` say what a lookup by key finds after
each of them; `update_count` that an UPDATE which pins the key changes the one
row it finds, or none.

`selectBy` is a SELECT with ORDER BY (`orderBy`), which changes nothing exactly where the
rows are ordered already (`insertionSort_eq_iff`).
-/
import Mathlib.Data.List.Nodup
import Mathlib.Data.List.Sort

namespace SentryGate.Theory

set_option autoImplicit false

/-- Rows in the order of their rowids, no two with the same key. -/
structure Table (ρ κ : Type) (key : ρ → κ) where
  rows : List ρ
  unique : (rows.map key).Nodup

namespace Table

variable {ρ κ : Type} [DecidableEq κ] {key : ρ → κ}

def empty : Table ρ κ key where
  rows := []
  unique := List.nodup_nil

/-- SELECT .. WHERE key = k. -/
def find? (t : Table ρ κ key) (k : κ) : Option ρ := t.rows.find? fun r => key r = k

/-- SELECT .. WHERE p ORDER BY rowid. -/
def select (t : Table ρ κ key) (p : ρ → Bool) : List ρ := t.rows.filter p

theorem find?_eq_none_iff (t : Table ρ κ key) (k : κ) :
    t.find? k = none ↔ ∀ r ∈ t.rows, key r ≠ k := by
  simp [find?]

/-- A lookup finds exactly the row with the key. -/
theorem find?_eq_some_iff (t : Table ρ κ key) (k : κ) (r : ρ) :
    t.find? k = some r ↔ r ∈ t.rows ∧ key r = k := by
  constructor
  · intro found
    have named := List.find?_some found
    exact ⟨List.mem_of_find?_eq_some found, by simpa using named⟩
  · rintro ⟨member, named⟩
    cases found : t.find? k with
    | none => exact absurd named ((t.find?_eq_none_iff k).mp found r member)
    | some r' =>
        have named' := List.find?_some found
        have same : key r' = key r := by
          rw [named]
          simpa using named'
        rw [List.inj_on_of_nodup_map t.unique (List.mem_of_find?_eq_some found) member same]

/-- Append a row under a new key. -/
def insert (t : Table ρ κ key) (r : ρ) (fresh : t.find? (key r) = none) : Table ρ κ key where
  rows := t.rows ++ [r]
  unique := by
    rw [List.map_append, List.nodup_append]
    refine ⟨t.unique, List.nodup_singleton _, ?_⟩
    intro a there b here same
    obtain ⟨r', member, rfl⟩ := List.mem_map.mp there
    rw [List.map_singleton, List.mem_singleton] at here
    exact (t.find?_eq_none_iff _).mp fresh r' member (same.trans here)

/-- INSERT .. ON CONFLICT(key) DO NOTHING. -/
def insertOrIgnore (t : Table ρ κ key) (r : ρ) : Table ρ κ key × Nat :=
  if fresh : t.find? (key r) = none then (t.insert r fresh, 1) else (t, 0)

/-- Change the rows in place, without touching their keys. -/
def mapRows (t : Table ρ κ key) (f : ρ → ρ) (keeps : ∀ r, key (f r) = key r) : Table ρ κ key where
  rows := t.rows.map f
  unique := by
    rw [List.map_map, show key ∘ f = key from funext keeps]
    exact t.unique

/-- The row `r` in the place of the row with its key. -/
def replaceBy (key : ρ → κ) (r x : ρ) : ρ := if key x = key r then r else x

theorem key_replaceBy (r x : ρ) : key (replaceBy key r x) = key x := by
  unfold replaceBy
  split
  · rename_i same
    exact same.symm
  · rfl

/-- INSERT .. ON CONFLICT(key) DO UPDATE SET every other column WHERE p. -/
def upsert (t : Table ρ κ key) (r : ρ) (p : ρ → Bool) : Table ρ κ key × Nat :=
  if fresh : t.find? (key r) = none then (t.insert r fresh, 1)
  else if (t.find? (key r)).any p then (t.mapRows (replaceBy key r) (key_replaceBy r), 1)
  else (t, 0)

omit [DecidableEq κ] in
theorem key_where (p : ρ → Bool) (f : ρ → ρ) (keeps : ∀ r, key (f r) = key r) (r : ρ) :
    key (if p r then f r else r) = key r := by
  split
  · exact keeps r
  · rfl

/-- UPDATE .. SET f WHERE p, for an `f` that leaves the key alone. -/
def update (t : Table ρ κ key) (p : ρ → Bool) (f : ρ → ρ) (keeps : ∀ r, key (f r) = key r) :
    Table ρ κ key × Nat :=
  (t.mapRows (fun r => if p r then f r else r) (key_where p f keeps), t.rows.countP p)

/-! ## What a lookup finds afterwards -/

variable (t : Table ρ κ key)

theorem find?_insert (r : ρ) (fresh : t.find? (key r) = none) (k : κ) :
    (t.insert r fresh).find? k = if k = key r then some r else t.find? k := by
  have split : (t.insert r fresh).find? k = (t.find? k).or (if key r = k then some r else none) := by
    unfold find? insert
    rw [List.find?_append]
    congr 1
    simp only [List.find?_singleton, decide_eq_true_eq]
  rw [split]
  by_cases here : k = key r
  · subst here
    simp [fresh]
  · rw [if_neg here, if_neg (Ne.symm here), Option.or_none]

theorem find?_mapRows (f : ρ → ρ) (keeps : ∀ r, key (f r) = key r) (k : κ) :
    (t.mapRows f keeps).find? k = (t.find? k).map f := by
  unfold find? mapRows
  rw [List.find?_map]
  simp only [Function.comp_def, keeps]

/-- After an UPDATE a lookup finds the changed row. -/
theorem find?_update (p : ρ → Bool) (f : ρ → ρ) (keeps : ∀ r, key (f r) = key r) (k : κ) :
    (t.update p f keeps).1.find? k = (t.find? k).map fun r => if p r then f r else r :=
  t.find?_mapRows _ (key_where p f keeps) k

/-- An UPDATE that pins the key changes the row it finds, or none. -/
theorem update_count (p : ρ → Bool) (f : ρ → ρ) (keeps : ∀ r, key (f r) = key r) (k : κ)
    (pinned : ∀ r, p r = true → key r = k) :
    (t.update p f keeps).2 = if (t.find? k).any p then 1 else 0 := by
  have counts : ∀ rows : List ρ, (rows.map key).Nodup →
      rows.countP p = if (rows.find? fun r => key r = k).any p then 1 else 0 := by
    intro rows
    induction rows with
    | nil => intro _; rfl
    | cons r rows ih =>
        intro unique
        rw [List.map_cons, List.nodup_cons] at unique
        obtain ⟨fresh, rest⟩ := unique
        rw [List.countP_cons, List.find?_cons]
        by_cases here : key r = k
        · -- the row with the key: no other row can match
          have none_there : rows.countP p = 0 := by
            rw [List.countP_eq_zero]
            intro x member matched
            refine fresh ?_
            rw [here, ← pinned x matched]
            exact List.mem_map_of_mem member
          simp [here, none_there]
        · have other : p r = false := by
            by_contra matched
            exact here (pinned r (by simpa using matched))
          simp [here, other, ih rest]
  exact counts t.rows t.unique

/-- An INSERT adds its row under a new key, or changes nothing. -/
theorem insertOrIgnore_cases (r : ρ) :
    (t.find? (key r) = none ∧ (t.insertOrIgnore r).2 = 1 ∧
      (t.insertOrIgnore r).1.rows = t.rows ++ [r]) ∨
    ((t.find? (key r)).isSome ∧ t.insertOrIgnore r = (t, 0)) := by
  unfold insertOrIgnore
  by_cases fresh : t.find? (key r) = none
  · rw [dif_pos fresh]
    exact Or.inl ⟨fresh, rfl, rfl⟩
  · rw [dif_neg fresh]
    exact Or.inr ⟨Option.isSome_iff_ne_none.mpr fresh, rfl⟩

/-- No INSERT hides a row. -/
theorem find?_insertOrIgnore {r : ρ} {k : κ} (there : (t.find? k).isSome) :
    ((t.insertOrIgnore r).1.find? k).isSome := by
  unfold insertOrIgnore
  split
  · rw [find?_insert]
    split
    · rfl
    · exact there
  · exact there

/-- The upsert takes a key that is absent, or whose row meets the condition; otherwise it
changes nothing. -/
theorem upsert_cases (r : ρ) (p : ρ → Bool) :
    ((t.find? (key r)).all p = true ∧ (t.upsert r p).2 = 1 ∧
      ∀ k, (t.upsert r p).1.find? k = if k = key r then some r else t.find? k) ∨
    ((t.find? (key r)).all p = false ∧ t.upsert r p = (t, 0)) := by
  unfold upsert
  by_cases fresh : t.find? (key r) = none
  · rw [dif_pos fresh, fresh]
    exact Or.inl ⟨rfl, rfl, fun k => t.find?_insert r fresh k⟩
  rw [dif_neg fresh]
  obtain ⟨e, found⟩ := Option.ne_none_iff_exists'.mp fresh
  rw [found, Option.any_some, Option.all_some]
  by_cases taken : p e = true
  · rw [if_pos taken]
    refine Or.inl ⟨taken, rfl, fun k => ?_⟩
    rw [find?_mapRows]
    by_cases here : k = key r
    · subst here
      have named := ((t.find?_eq_some_iff _ e).mp found).2
      simp [found, replaceBy, named]
    · rw [if_neg here]
      cases other : t.find? k with
      | none => rfl
      | some x =>
          have named := ((t.find?_eq_some_iff _ x).mp other).2
          simp [replaceBy, named, here]
  · rw [if_neg taken]
    exact Or.inr ⟨by simpa using taken, rfl⟩

/-- The rows are what lookups by their own key find. -/
theorem mem_rows_iff (r : ρ) : r ∈ t.rows ↔ t.find? (key r) = some r := by
  rw [find?_eq_some_iff]
  exact ⟨fun member => ⟨member, rfl⟩, And.left⟩

/-- A row after an upsert is the new one or an old one. -/
theorem mem_upsert {r x : ρ} {p : ρ → Bool} (member : x ∈ (t.upsert r p).1.rows) :
    x = r ∨ x ∈ t.rows := by
  rcases t.upsert_cases r p with ⟨-, -, finds⟩ | ⟨-, same⟩
  · rw [mem_rows_iff, finds] at member
    split at member
    · exact Or.inl (Option.some.inj member).symm
    · exact Or.inr ((t.mem_rows_iff x).mpr member)
  · rw [same] at member
    exact Or.inr member

omit [DecidableEq κ] in
/-- A row after an UPDATE is a changed one or an old one. -/
theorem mem_update {p : ρ → Bool} {f : ρ → ρ} {keeps : ∀ r, key (f r) = key r} {x : ρ}
    (member : x ∈ (t.update p f keeps).1.rows) : x ∈ t.rows ∨ ∃ r ∈ t.rows, x = f r := by
  obtain ⟨r, there, rfl⟩ := List.mem_map.mp member
  split
  · exact Or.inr ⟨r, there, rfl⟩
  · exact Or.inl there

omit [DecidableEq κ] in
/-- An UPDATE that changes no row leaves the table as it is. -/
theorem update_nothing {p : ρ → Bool} {f : ρ → ρ} {keeps : ∀ r, key (f r) = key r}
    (none_changed : (t.update p f keeps).2 = 0) : (t.update p f keeps).1 = t := by
  have same : t.rows.map (fun r => if p r then f r else r) = t.rows := by
    conv_rhs => rw [← List.map_id t.rows]
    refine List.map_congr_left fun r member => ?_
    rw [if_neg (List.countP_eq_zero.mp none_changed r member), id]
  obtain ⟨rows, unique⟩ := t
  simp only [update, mapRows, mk.injEq]
  exact same

/-! ## ORDER BY -/

/-- ORDER BY f, g. -/
def orderBy {α : Type} [LT α] [LE α] (f g : ρ → α) (a b : ρ) : Prop :=
  f a < f b ∨ f a = f b ∧ g a ≤ g b

instance {α : Type} [LT α] [LE α] [DecidableEq α] [DecidableLT α] [DecidableLE α] (f g : ρ → α) :
    DecidableRel (orderBy f g) :=
  fun a b => inferInstanceAs (Decidable (f a < f b ∨ f a = f b ∧ g a ≤ g b))

section Ordered

variable {α : Type} [LT α] [LE α] [Std.LawfulOrderLT α] [Std.IsLinearOrder α] (f g : ρ → α)

instance : Std.Total (orderBy f g) where
  total a b := by
    rcases Std.lt_trichotomy (f a) (f b) with less | same | more
    · exact Or.inl (Or.inl less)
    · rcases Std.le_total (a := g a) (b := g b) with less | more
      · exact Or.inl (Or.inr ⟨same, less⟩)
      · exact Or.inr (Or.inr ⟨same.symm, more⟩)
    · exact Or.inr (Or.inl more)

instance : IsTrans ρ (orderBy f g) where
  trans a b c := by
    rintro (less | ⟨same, less⟩) (less' | ⟨same', less'⟩)
    · exact Or.inl (Std.lt_trans less less')
    · exact Or.inl (same' ▸ less)
    · exact Or.inl (same ▸ less')
    · exact Or.inr ⟨same.trans same', Std.le_trans less less'⟩

end Ordered

/-- SELECT .. WHERE p ORDER BY r. -/
def selectBy (p : ρ → Bool) (r : ρ → ρ → Prop) [DecidableRel r] : List ρ :=
  (t.select p).insertionSort r

/-- Sorting leaves a list as it is exactly if it is sorted. -/
theorem insertionSort_eq_iff {r : ρ → ρ → Prop} [DecidableRel r] [Std.Total r] [IsTrans ρ r]
    {l : List ρ} : l.insertionSort r = l ↔ l.Pairwise r := by
  constructor
  · intro same
    rw [← same]
    exact List.pairwise_insertionSort r _
  · exact List.Pairwise.insertionSort_eq

end Table

end SentryGate.Theory
