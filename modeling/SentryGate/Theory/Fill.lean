/-
# Theory.Fill -- loops that check their elements and fill a map

A loop goes over a list, stops with an error at the first element that does not pass its
check, and puts every other one into what it has filled so far.  It ends well exactly if
each element passes when its turn comes (`foldlM_ok_iff`).  Where the check compares an
element with what is filled only to refuse a key it has, that is: each element is good in
itself, and their keys are distinct (`passes_distinct_iff`).

Maps are partial functions and sets their membership tests.  `fillMap_ok_iff` and
`fillSet_ok_iff` say when one is filled and what it then contains.
-/
import Mathlib.Data.List.Nodup
import Mathlib.Logic.Function.Basic

namespace SentryGate.Theory.Fill

set_option autoImplicit false

variable {α β ε κ ν : Type}

/-! ## Loops -/

/-- Each element passes when its turn comes. -/
def Passes (good : β → α → Prop) (put : β → α → β) : β → List α → Prop
  | _, [] => True
  | b, a :: l => good b a ∧ Passes good put (put b a) l

/-- A computation that fails on a condition. -/
theorem ite_error_ok_iff {c : Prop} [Decidable c] {e : ε} {x : Except ε α} {a : α} :
    (if c then .error e else x) = .ok a ↔ ¬ c ∧ x = .ok a := by
  by_cases refused : c <;> simp [refused]

theorem ok_eq_ok_iff {a b : α} : (.ok a : Except ε α) = .ok b ↔ b = a := by
  rw [Except.ok.injEq, eq_comm]

theorem bind_ok_iff {x : Except ε α} {f : α → Except ε β} {b : β} :
    x.bind f = .ok b ↔ ∃ a, x = .ok a ∧ f a = .ok b := by
  cases x <;> simp [Except.bind]

section Loop

variable {good : β → α → Prop} {put : β → α → β}

/-- **A loop ends well exactly if each element passes in its turn**, and then has put all
of them. -/
theorem foldlM_ok_iff {step : β → α → Except ε β}
    (spec : ∀ b a b', step b a = .ok b' ↔ good b a ∧ b' = put b a) {l : List α} {b b' : β} :
    l.foldlM step b = .ok b' ↔ Passes good put b l ∧ b' = l.foldl put b := by
  induction l generalizing b with
  | nil =>
      show Except.ok b = .ok b' ↔ _
      rw [ok_eq_ok_iff, Passes, true_and, List.foldl_nil]
  | cons a l ih =>
      rw [List.foldlM_cons, List.foldl_cons, Passes]
      refine bind_ok_iff.trans ?_
      simp only [spec, ih]
      constructor
      · rintro ⟨_, ⟨good, rfl⟩, rest, rfl⟩
        exact ⟨⟨good, rest⟩, rfl⟩
      · rintro ⟨⟨good, rest⟩, rfl⟩
        exact ⟨_, ⟨good, rfl⟩, rest, rfl⟩

theorem passes_map {γ : Type} {f : γ → α} {l : List γ} {b : β} :
    Passes (fun b x => good b (f x)) (fun b x => put b (f x)) b l ↔ Passes good put b (l.map f) := by
  induction l generalizing b with
  | nil => rfl
  | cons x l ih => exact and_congr_right' ih

/-- A loop that also counts its elements, for its errors. -/
theorem foldlM_zipIdx_ok_iff {step : β → α × ℕ → Except ε β}
    (spec : ∀ b a i b', step b (a, i) = .ok b' ↔ good b a ∧ b' = put b a) {l : List α} {b b' : β} :
    l.zipIdx.foldlM step b = .ok b' ↔ Passes good put b l ∧ b' = l.foldl put b := by
  have places : l.zipIdx.map Prod.fst = l := List.zipIdx_map_fst 0 l
  have counted : ∀ b x b', step b x = .ok b' ↔ good b x.1 ∧ b' = put b x.1 :=
    fun b x b' => spec b x.1 x.2 b'
  rw [foldlM_ok_iff counted, passes_map, places, ← List.foldl_map, places]

/-- A check that does not look at what is filled. -/
theorem passes_iff {P : α → Prop} {l : List α} {b : β} :
    Passes (fun _ a => P a) put b l ↔ ∀ a ∈ l, P a := by
  induction l generalizing b with
  | nil => simp [Passes]
  | cons a l ih => rw [Passes, ih, List.forall_mem_cons]

/-- Two checks in one loop. -/
theorem passes_and_iff {good' : β → α → Prop} {l : List α} {b : β} :
    Passes (fun b a => good b a ∧ good' b a) put b l ↔
      Passes good put b l ∧ Passes good' put b l := by
  induction l generalizing b with
  | nil => simp [Passes]
  | cons a l ih =>
      simp only [Passes, ih]
      exact and_and_and_comm

/-- **A check that refuses the keys it has**: the elements are good in themselves, under
distinct keys that are new. -/
theorem passes_distinct_iff [DecidableEq κ] (has : β → κ → Bool) (key : α → κ) {P : α → Prop}
    (law : ∀ b a k, P a → has (put b a) k = (has b k || decide (k = key a))) {l : List α} {b : β} :
    Passes (fun b a => P a ∧ has b (key a) = false) put b l ↔
      (∀ a ∈ l, P a) ∧ (l.map key).Nodup ∧ ∀ a ∈ l, has b (key a) = false := by
  induction l generalizing b with
  | nil => simp [Passes]
  | cons a l ih =>
      rw [Passes, ih, List.map_cons, List.nodup_cons, List.forall_mem_cons, List.forall_mem_cons]
      constructor
      · rintro ⟨⟨good, new⟩, rest, distinct, fresh⟩
        have apart : ∀ x ∈ l, has b (key x) = false ∧ key x ≠ key a := fun x member => by
          have absent := fresh x member
          rw [law b a _ good] at absent
          simpa using absent
        refine ⟨⟨good, rest⟩, ⟨?_, distinct⟩, new, fun x member => (apart x member).1⟩
        intro member
        obtain ⟨x, there, same⟩ := List.mem_map.mp member
        exact (apart x there).2 same
      · rintro ⟨⟨good, rest⟩, ⟨first, distinct⟩, new, fresh⟩
        refine ⟨⟨good, new⟩, rest, distinct, fun x member => ?_⟩
        have other : key x ≠ key a := fun same => first (same ▸ List.mem_map_of_mem member)
        rw [law b a _ good, fresh x member]
        simpa using other

end Loop

/-! ## Maps and sets -/

section Map

variable [DecidableEq κ] (key : α → κ) (value : α → Option ν)

/-- `m[key] = value`. -/
def putMap (m : κ → Option ν) (a : α) : κ → Option ν := Function.update m (key a) (value a)

theorem foldl_putMap_of_notMem {k : κ} {l : List α} (absent : k ∉ l.map key) (m : κ → Option ν) :
    l.foldl (putMap key value) m k = m k := by
  induction l generalizing m with
  | nil => rfl
  | cons a l ih =>
      rw [List.map_cons, List.mem_cons, not_or] at absent
      rw [List.foldl_cons, ih absent.2]
      exact Function.update_of_ne absent.1 _ _

theorem foldl_putMap_of_mem {l : List α} (distinct : (l.map key).Nodup) {a : α} (member : a ∈ l)
    (m : κ → Option ν) : l.foldl (putMap key value) m (key a) = value a := by
  induction l generalizing m with
  | nil => cases member
  | cons x l ih =>
      rw [List.map_cons, List.nodup_cons] at distinct
      rw [List.foldl_cons]
      rcases List.mem_cons.mp member with rfl | later
      · rw [foldl_putMap_of_notMem key value distinct.1]
        exact Function.update_self _ _ _
      · exact ih distinct.2 later _

/-- **A filled map contains its elements and nothing else.** -/
theorem fillMap_eq_some_iff {l : List α} (distinct : (l.map key).Nodup) (k : κ) (v : ν) :
    l.foldl (putMap key value) (fun _ => none) k = some v ↔ ∃ a ∈ l, key a = k ∧ value a = some v := by
  by_cases there : k ∈ l.map key
  · obtain ⟨a, member, rfl⟩ := List.mem_map.mp there
    rw [foldl_putMap_of_mem key value distinct member]
    constructor
    · intro found
      exact ⟨a, member, rfl, found⟩
    · rintro ⟨x, other, same, found⟩
      rwa [← List.inj_on_of_nodup_map distinct other member same]
  · rw [foldl_putMap_of_notMem key value there]
    constructor
    · intro found
      cases found
    · rintro ⟨a, member, rfl, -⟩
      exact absurd (List.mem_map_of_mem member) there

theorem putMap_isSome {m : κ → Option ν} {a : α} (valued : (value a).isSome) (k : κ) :
    (putMap key value m a k).isSome = ((m k).isSome || decide (k = key a)) := by
  unfold putMap
  by_cases here : k = key a
  · subst here
    simp [valued]
  · simp [here]

variable {key value}

theorem eq_fillMap_iff {l : List α} (distinct : (l.map key).Nodup) {m : κ → Option ν} :
    m = l.foldl (putMap key value) (fun _ => none) ↔
      ∀ k v, m k = some v ↔ ∃ a ∈ l, key a = k ∧ value a = some v := by
  constructor
  · rintro rfl k v
    exact fillMap_eq_some_iff key value distinct k v
  · intro contents
    funext k
    exact Option.ext fun v => (contents k v).trans (fillMap_eq_some_iff key value distinct k v).symm

/-- **A loop that fills a map** refuses what is bad or has a key it met before; it ends
with its elements and nothing else. -/
theorem fillMap_ok_iff {step : (κ → Option ν) → α × ℕ → Except ε (κ → Option ν)} {P : α → Prop}
    (valued : ∀ a, P a → (value a).isSome)
    (spec : ∀ m a i m', step m (a, i) = .ok m' ↔
      (P a ∧ (m (key a)).isSome = false) ∧ m' = putMap key value m a)
    {l : List α} {filled : κ → Option ν} :
    l.zipIdx.foldlM step (fun _ => none) = .ok filled ↔
      ((∀ a ∈ l, P a) ∧ (l.map key).Nodup) ∧
        ∀ k v, filled k = some v ↔ ∃ a ∈ l, key a = k ∧ value a = some v := by
  have law : ∀ m a k, P a →
      (putMap key value m a k).isSome = ((m k).isSome || decide (k = key a)) :=
    fun m a k good => putMap_isSome key value (valued a good) k
  have distinct : Passes (fun m a => P a ∧ (m (key a)).isSome = false) (putMap key value)
      (fun _ => none) l ↔ _ :=
    passes_distinct_iff (fun (m : κ → Option ν) k => (m k).isSome) key law
  rw [foldlM_zipIdx_ok_iff spec, distinct]
  constructor
  · rintro ⟨⟨good, keys, -⟩, contents⟩
    exact ⟨⟨good, keys⟩, (eq_fillMap_iff keys).mp contents⟩
  · rintro ⟨⟨good, keys⟩, contents⟩
    exact ⟨⟨good, keys, fun _ _ => rfl⟩, (eq_fillMap_iff keys).mpr contents⟩

end Map

section Set

variable [DecidableEq κ]

/-- `s[k] = struct{}{}`. -/
def putSet (s : κ → Bool) (k : κ) : κ → Bool := Function.update s k true

theorem putSet_apply (s : κ → Bool) (x k : κ) : putSet s x k = (s k || decide (k = x)) := by
  unfold putSet
  by_cases here : k = x
  · subst here
    simp
  · simp [here]

/-- The set of the elements of a list. -/
def membersOf (l : List κ) : κ → Bool := l.foldl putSet fun _ => false

/-- **A filled set contains its elements and nothing else.** -/
theorem membersOf_iff (l : List κ) (k : κ) : membersOf l k = true ↔ k ∈ l := by
  have filled : ∀ s : κ → Bool, l.foldl putSet s k = true ↔ s k = true ∨ k ∈ l := by
    induction l with
    | nil => intro s; simp
    | cons x l ih =>
        intro s
        rw [List.foldl_cons, ih, putSet_apply, Bool.or_eq_true, decide_eq_true_eq, List.mem_cons,
          or_assoc]
  exact (filled fun _ => false).trans (by simp)

theorem eq_membersOf_iff {l : List κ} {s : κ → Bool} :
    s = membersOf l ↔ ∀ k, s k = true ↔ k ∈ l := by
  constructor
  · rintro rfl k
    exact membersOf_iff l k
  · intro contents
    funext k
    exact Bool.eq_iff_iff.mpr ((contents k).trans (membersOf_iff l k).symm)

/-- **A loop that fills a set** refuses what is bad or met before. -/
theorem fillSet_ok_iff {step : (κ → Bool) → κ → Except ε (κ → Bool)} {P : κ → Prop}
    (spec : ∀ s k s', step s k = .ok s' ↔ (P k ∧ s k = false) ∧ s' = putSet s k)
    {l : List κ} {filled : κ → Bool} :
    l.foldlM step (fun _ => false) = .ok filled ↔
      ((∀ k ∈ l, P k) ∧ l.Nodup) ∧ filled = membersOf l := by
  have law : ∀ s x k, P x → putSet s x k = (s k || decide (k = x)) := fun s x k _ => putSet_apply s x k
  have distinct : Passes (fun s k => P k ∧ s k = false) putSet (fun _ => false) l ↔ _ :=
    passes_distinct_iff (fun (s : κ → Bool) k => s k) (fun k => k) law
  rw [foldlM_ok_iff spec, distinct, List.map_id']
  simp [membersOf]

end Set

end SentryGate.Theory.Fill
