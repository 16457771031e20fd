/-
# Theory.Pool -- programs that borrow cells from a pool

A pool lends cells: a program gets one (a used one, or a new one), stores to it, loads from it and
puts it back, between its other calls.  The cells are shared memory; nothing but the programs
themselves keeps them apart.

`Simulates` relates a program with a cell to one that carries the value along: the first may load
only from the cell it has, stores are remembered, and what it puts back it has cleared.  It has a
rule for each construct, and for `bind`.

Where every program simulates its plain one, a crew that shares a pool is a crew of the plain
programs (`Crew.pooled_refines`): the same shared state, the same calls and answers, the same results;
in every state no cell is lent twice, none that is lent is in the pool, and those in the pool are
clear.
-/
import Mathlib.Data.List.Nodup
import Mathlib.Logic.Function.Basic
import SentryGate.Theory.Crew

namespace SentryGate.Theory

open Machine Counting

set_option autoImplicit false

/-! ## Cells -/

/-- The calls of a program with access to a pool. -/
inductive Borrow (κ γ : Type) where
  | plain (k : κ)
  | get
  | store (cell : ℕ) (v : γ)
  | load (cell : ℕ)
  | put (cell : ℕ)

abbrev Borrow.Answer {κ : Type} (ρ : κ → Type) (γ : Type) : Borrow κ γ → Type
  | .plain k => ρ k
  | .get => ℕ
  | .store _ _ => Unit
  | .load _ => γ
  | .put _ => Unit

/-- The memory of all cells ever made, and those in the pool. -/
structure Cells (γ : Type) where
  contents : ℕ → γ
  made : ℕ
  free : List ℕ

namespace Cells

variable {γ : Type}

def empty (clear : γ) : Cells γ := ⟨fun _ => clear, 0, []⟩

/-- One of the pool, or a new one. -/
def get (clear : γ) (pick : ℕ) (cells : Cells γ) : Cells γ × ℕ :=
  match cells.free[pick]? with
  | some cell => ({ cells with free := cells.free.eraseIdx pick }, cell)
  | none =>
      ({ cells with contents := Function.update cells.contents cells.made clear,
                    made := cells.made + 1 }, cells.made)

def store (cells : Cells γ) (cell : ℕ) (v : γ) : Cells γ :=
  { cells with contents := Function.update cells.contents cell v }

def put (cells : Cells γ) (cell : ℕ) : Cells γ := { cells with free := cell :: cells.free }

/-- The pool gives a cell up. -/
def drop (cells : Cells γ) (pick : ℕ) : Cells γ := { cells with free := cells.free.eraseIdx pick }

end Cells

/-! ## Programs with a cell -/

namespace Dialogue

variable {κ : Type} {ρ : κ → Type} {γ α β α' β' : Type}

/-- The program with the cell and its contents `b`, if it has one, does what the plain program
does; when they return, `Φ` holds of what is lent then and of both results. -/
def Simulates (clear : γ) (Φ : Option (ℕ × γ) → α → α' → Prop) :
    Option (ℕ × γ) → Dialogue (Borrow.Answer ρ γ) α → Dialogue ρ α' → Prop
  | b, .done a, q => ∃ a', q = .done a' ∧ Φ b a a'
  | b, .ask (.plain k) next, q => ∃ next', q = .ask k next' ∧ ∀ r, Simulates clear Φ b (next r) (next' r)
  | b, .ask .get next, q =>
      b = none ∧ ∀ cell v, Simulates clear Φ (some (cell, v)) (next cell) q
  | b, .ask (.store cell v) next, q =>
      (∃ old, b = some (cell, old)) ∧ Simulates clear Φ (some (cell, v)) (next ()) q
  | b, .ask (.load cell) next, q => ∃ v, b = some (cell, v) ∧ Simulates clear Φ b (next v) q
  | b, .ask (.put cell) next, q => b = some (cell, clear) ∧ Simulates clear Φ none (next ()) q

variable {clear : γ} {Φ : Option (ℕ × γ) → α → α' → Prop} {Ψ : Option (ℕ × γ) → β → β' → Prop}
  {b : Option (ℕ × γ)}

/-- The rule of composition. -/
theorem Simulates.bind {p : Dialogue (Borrow.Answer ρ γ) α} {q : Dialogue ρ α'}
    {f : α → Dialogue (Borrow.Answer ρ γ) β} {g : α' → Dialogue ρ β'}
    (first : Simulates clear Φ b p q)
    (second : ∀ b a a', Φ b a a' → Simulates clear Ψ b (f a) (g a')) :
    Simulates clear Ψ b (p >>= f) (q >>= g) := by
  change Simulates clear Ψ b (p.bind f) (q.bind g)
  induction p generalizing b q with
  | done a =>
      obtain ⟨a', rfl, holds⟩ := first
      exact second b a a' holds
  | ask k next ih =>
      cases k with
      | plain k =>
          obtain ⟨next', rfl, rest⟩ := first
          exact ⟨_, rfl, fun r => ih r (rest r)⟩
      | get => exact ⟨first.1, fun cell v => ih cell (first.2 cell v)⟩
      | store cell v => exact ⟨first.1, ih () first.2⟩
      | load cell =>
          obtain ⟨v, lent, rest⟩ := first
          exact ⟨v, lent, ih v rest⟩
      | put cell => exact ⟨first.1, ih () first.2⟩

/-- What is done with the pool before the plain program is at its next call, or after its last. -/
theorem Simulates.first {p : Dialogue (Borrow.Answer ρ γ) α}
    {f : α → Dialogue (Borrow.Answer ρ γ) β} {q : Dialogue ρ β'}
    {Φ : Option (ℕ × γ) → α → Unit → Prop}
    (first : Simulates clear Φ b p (Pure.pure () : Dialogue ρ Unit))
    (second : ∀ b a, Φ b a () → Simulates clear Ψ b (f a) q) :
    Simulates clear Ψ b (p >>= f) q :=
  Simulates.bind (g := fun _ => q) first fun b a _ holds => second b a holds

theorem bind_pure_self (q : Dialogue ρ β') : (q >>= Pure.pure) = q := by
  change q.bind .done = q
  induction q with
  | done a => rfl
  | ask k next ih => exact congrArg (Dialogue.ask k) (funext ih)

theorem Simulates.last {p : Dialogue (Borrow.Answer ρ γ) α}
    {f : α → Dialogue (Borrow.Answer ρ γ) β} {q : Dialogue ρ β'}
    {Φ : Option (ℕ × γ) → α → β' → Prop} (first : Simulates clear Φ b p q)
    (second : ∀ b a a', Φ b a a' → Simulates clear Ψ b (f a) (Pure.pure a')) :
    Simulates clear Ψ b (p >>= f) q := by
  rw [← bind_pure_self q]
  exact first.bind second

/-- A call that has nothing to do with the pool. -/
def plainly (k : κ) : Dialogue (Borrow.Answer ρ γ) (ρ k) := .ask (.plain k) .done

def getCell : Dialogue (Borrow.Answer ρ γ) ℕ := .ask .get .done

def storeCell (cell : ℕ) (v : γ) : Dialogue (Borrow.Answer ρ γ) Unit := .ask (.store cell v) .done

def loadCell (cell : ℕ) : Dialogue (Borrow.Answer ρ γ) γ := .ask (.load cell) .done

def putCell (cell : ℕ) : Dialogue (Borrow.Answer ρ γ) Unit := .ask (.put cell) .done

namespace Simulates

variable {cell : ℕ} {v old : γ} {q : Dialogue ρ β'}

theorem pure {a : α} {a' : α'} (holds : Φ b a a') :
    Simulates clear Φ b (Pure.pure a) (Pure.pure a' : Dialogue ρ α') :=
  ⟨a', rfl, holds⟩

theorem plainly {k : κ} {f : ρ k → Dialogue (Borrow.Answer ρ γ) β} {g : ρ k → Dialogue ρ β'}
    (rest : ∀ r, Simulates clear Ψ b (f r) (g r)) :
    Simulates clear Ψ b (Dialogue.plainly k >>= f) (call k >>= g) :=
  ⟨_, rfl, rest⟩

theorem getCell {f : ℕ → Dialogue (Borrow.Answer ρ γ) β}
    (rest : ∀ cell v, Simulates clear Ψ (some (cell, v)) (f cell) q) :
    Simulates clear Ψ none (Dialogue.getCell >>= f) q :=
  ⟨rfl, rest⟩

theorem storeCell {f : Unit → Dialogue (Borrow.Answer ρ γ) β}
    (rest : Simulates clear Ψ (some (cell, v)) (f ()) q) :
    Simulates clear Ψ (some (cell, old)) (Dialogue.storeCell cell v >>= f) q :=
  ⟨⟨old, rfl⟩, rest⟩

theorem loadCell {f : γ → Dialogue (Borrow.Answer ρ γ) β}
    (rest : Simulates clear Ψ (some (cell, v)) (f v) q) :
    Simulates clear Ψ (some (cell, v)) (Dialogue.loadCell cell >>= f) q :=
  ⟨v, rfl, rest⟩

theorem putCell {f : Unit → Dialogue (Borrow.Answer ρ γ) β}
    (rest : Simulates clear Ψ none (f ()) q) :
    Simulates clear Ψ (some (cell, clear)) (Dialogue.putCell cell >>= f) q :=
  ⟨rfl, rest⟩

end Simulates

/-- The cell a program has after one more call. -/
def lentNext (now : Option ℕ) : Sigma (Borrow.Answer ρ γ) → Option ℕ
  | ⟨.get, cell⟩ => some cell
  | ⟨.put _, _⟩ => none
  | _ => now

/-- The cell a program has after these calls. -/
def lent (trace : List (Sigma (Borrow.Answer ρ γ))) : Option ℕ := trace.foldl lentNext none

/-- The call, if it has nothing to do with the pool. -/
def plainCall : Sigma (Borrow.Answer ρ γ) → Option (Sigma ρ)
  | ⟨.plain k, r⟩ => some ⟨k, r⟩
  | _ => none

def plainCalls (trace : List (Sigma (Borrow.Answer ρ γ))) : List (Sigma ρ) := trace.filterMap plainCall

theorem lent_concat (trace : List (Sigma (Borrow.Answer ρ γ))) (x : Sigma (Borrow.Answer ρ γ)) :
    lent (trace ++ [x]) = lentNext (lent trace) x := by
  simp [lent]

theorem plainCalls_concat (trace : List (Sigma (Borrow.Answer ρ γ)))
    (x : Sigma (Borrow.Answer ρ γ)) :
    plainCalls (trace ++ [x]) = plainCalls trace ++ (plainCall x).toList := by
  cases here : plainCall x <;> simp [plainCalls, here]

end Dialogue

/-! ## Crews that share a pool -/

namespace Crew

open Dialogue

variable {κ : Type} {ρ : κ → Type} {σ ι α χ ν γ : Type}

/-- The crew with a pool beside its shared state: who asks is told which cell it gets, and the
pool may give cells up. -/
def pooled (rules : Rules ρ σ ι α χ ν) (clear : γ) (program : ι → Dialogue (Borrow.Answer ρ γ) α) :
    Rules (Borrow.Answer ρ γ) (σ × Cells γ) ι α (χ × ℕ) (ν ⊕ ℕ) where
  program
  reply := fun (c, pick) (s, cells) k =>
    match k with
    | .plain k => (rules.reply c s k).map fun (s', r) => ((s', cells), r)
    | .get => some ((s, (cells.get clear pick).1), (cells.get clear pick).2)
    | .store cell v => some ((s, cells.store cell v), ())
    | .load cell => some ((s, cells), cells.contents cell)
    | .put cell => some ((s, cells.put cell), ())
  other := fun (s, cells) n =>
    match n with
    | .inl n => (rules.other s n).map fun s' => (s', cells)
    | .inr pick => some (s, cells.drop pick)

/-- What is lent to whom: the cells are apart from each other and from those in the pool, which
are clear. -/
structure Lent (clear : γ) (cells : Cells γ) (b : ℕ → Option (ℕ × γ)) : Prop where
  contents : ∀ {i cell v}, b i = some (cell, v) → cells.contents cell = v
  made : ∀ {i cell v}, b i = some (cell, v) → cell < cells.made
  apart : ∀ {i j cell v w}, b i = some (cell, v) → b j = some (cell, w) → i = j
  kept : ∀ {i cell v}, b i = some (cell, v) → cell ∉ cells.free
  free : ∀ cell ∈ cells.free, cell < cells.made ∧ cells.contents cell = clear
  nodup : cells.free.Nodup

namespace Lent

variable {clear : γ} {cells : Cells γ} {b : ℕ → Option (ℕ × γ)}

theorem empty (clear : γ) : Lent clear (Cells.empty clear) fun _ => none where
  contents := by simp
  made := by simp
  apart := by simp
  kept := by simp
  free := by simp [Cells.empty]
  nodup := List.nodup_nil

theorem drop (lent : Lent clear cells b) (pick : ℕ) : Lent clear (cells.drop pick) b where
  contents := lent.contents
  made := lent.made
  apart := lent.apart
  kept holds member := lent.kept holds (List.mem_of_mem_eraseIdx member)
  free cell member := lent.free cell (List.mem_of_mem_eraseIdx member)
  nodup := lent.nodup.sublist (List.eraseIdx_sublist cells.free pick)

/-- One member's cell changes, and the others' stay as they are. -/
theorem update (lent : Lent clear cells b) {cells' : Cells γ} {i : ℕ} {mine : Option (ℕ × γ)}
    (apart : ∀ j cell v w, j ≠ i → b j = some (cell, v) → mine ≠ some (cell, w))
    (others : ∀ j cell v, j ≠ i → b j = some (cell, v) →
      cells'.contents cell = v ∧ cell < cells'.made ∧ cell ∉ cells'.free)
    (own : ∀ cell v, mine = some (cell, v) →
      cells'.contents cell = v ∧ cell < cells'.made ∧ cell ∉ cells'.free)
    (free : ∀ cell ∈ cells'.free, cell < cells'.made ∧ cells'.contents cell = clear)
    (nodup : cells'.free.Nodup) : Lent clear cells' (Function.update b i mine) := by
  have each : ∀ {j cell v}, Function.update b i mine j = some (cell, v) →
      cells'.contents cell = v ∧ cell < cells'.made ∧ cell ∉ cells'.free := by
    intro j cell v holds
    by_cases here : j = i
    · subst here
      rw [Function.update_self] at holds
      exact own cell v holds
    · rw [Function.update_of_ne here] at holds
      exact others j cell v here holds
  refine ⟨fun holds => (each holds).1, fun holds => (each holds).2.1, ?_,
    fun holds => (each holds).2.2, free, nodup⟩
  intro j k cell v w first second
  by_cases one : j = i <;> by_cases two : k = i
  · rw [one, two]
  · subst one
    rw [Function.update_self] at first
    rw [Function.update_of_ne two] at second
    exact absurd first (apart k cell w v two second)
  · subst two
    rw [Function.update_self] at second
    rw [Function.update_of_ne one] at first
    exact absurd second (apart j cell v w one first)
  · rw [Function.update_of_ne one] at first
    rw [Function.update_of_ne two] at second
    exact lent.apart first second

/-- Who has a cell stores to it. -/
theorem store (lent : Lent clear cells b) {i cell : ℕ} {old : γ} (holds : b i = some (cell, old))
    (v : γ) : Lent clear (cells.store cell v) (Function.update b i (some (cell, v))) := by
  have other : ∀ j cell' w, j ≠ i → b j = some (cell', w) → cell' ≠ cell := by
    rintro j cell' w apart there rfl
    exact apart (lent.apart there holds)
  refine lent.update ?_ ?_ ?_ ?_ lent.nodup
  · intro j cell' w w' apart there same
    exact other j cell' w apart there (by cases same; rfl)
  · intro j cell' w apart there
    refine ⟨?_, lent.made there, lent.kept there⟩
    show Function.update cells.contents cell v cell' = w
    rw [Function.update_of_ne (other j cell' w apart there)]
    exact lent.contents there
  · rintro cell' w ⟨⟩
    exact ⟨Function.update_self _ _ _, lent.made holds, lent.kept holds⟩
  · intro cell' member
    refine ⟨(lent.free cell' member).1, ?_⟩
    have apart : cell' ≠ cell := by
      rintro rfl
      exact lent.kept holds member
    show Function.update cells.contents cell v cell' = clear
    rw [Function.update_of_ne apart]
    exact (lent.free cell' member).2

/-- Who has cleared a cell puts it back. -/
theorem put (lent : Lent clear cells b) {i cell : ℕ} (holds : b i = some (cell, clear)) :
    Lent clear (cells.put cell) (Function.update b i none) := by
  refine lent.update (fun j cell' v w _ _ same => by cases same) ?_ (fun cell' v same => by cases same) ?_
    (List.nodup_cons.mpr ⟨lent.kept holds, lent.nodup⟩)
  · intro j cell' v apart there
    refine ⟨lent.contents there, lent.made there, ?_⟩
    intro member
    rcases List.mem_cons.mp member with rfl | old
    · exact apart (lent.apart there holds)
    · exact lent.kept there old
  · intro cell' member
    rcases List.mem_cons.mp member with rfl | old
    · exact ⟨lent.made holds, lent.contents holds⟩
    · exact lent.free cell' old

/-- Who has none gets one. -/
theorem get (lent : Lent clear cells b) (i pick : ℕ) :
    ∃ v, Lent clear (cells.get clear pick).1
      (Function.update b i (some ((cells.get clear pick).2, v))) := by
  cases there : cells.free[pick]? with
  | some cell =>
      have got : cells.get clear pick = ({ cells with free := cells.free.eraseIdx pick }, cell) := by
        rw [Cells.get, there]
      have member := List.mem_of_getElem? there
      have gone : cell ∉ cells.free.eraseIdx pick := by
        intro still
        obtain ⟨place, other, again⟩ := List.mem_eraseIdx_iff_getElem?.mp still
        have inside := (List.getElem?_eq_some_iff.mp there).1
        exact other ((List.getElem?_inj inside lent.nodup).mp (there.trans again.symm)).symm
      rw [got]
      refine ⟨cells.contents cell, lent.update ?_ ?_ ?_ ?_
        (lent.nodup.sublist (List.eraseIdx_sublist cells.free pick))⟩
      · rintro j cell' v w - holds ⟨⟩
        exact lent.kept holds member
      · intro j cell' v _ holds
        exact ⟨lent.contents holds, lent.made holds,
          fun still => lent.kept holds (List.mem_of_mem_eraseIdx still)⟩
      · rintro cell' v ⟨⟩
        exact ⟨rfl, (lent.free cell member).1, gone⟩
      · intro cell' still
        exact lent.free cell' (List.mem_of_mem_eraseIdx still)
  | none =>
      have got : cells.get clear pick = ({ cells with
          contents := Function.update cells.contents cells.made clear,
          made := cells.made + 1 }, cells.made) := by
        rw [Cells.get, there]
      rw [got]
      have old : ∀ {cell}, cell < cells.made →
          Function.update cells.contents cells.made clear cell = cells.contents cell :=
        fun before => Function.update_of_ne (Nat.ne_of_lt before) _ _
      refine ⟨clear, lent.update ?_ ?_ ?_ ?_ lent.nodup⟩
      · rintro j cell' v w - holds ⟨⟩
        exact Nat.lt_irrefl _ (lent.made holds)
      · intro j cell' v _ holds
        have before := lent.made holds
        exact ⟨(old before).trans (lent.contents holds), Nat.lt_succ_of_lt before, lent.kept holds⟩
      · rintro cell' v ⟨⟩
        exact ⟨Function.update_self _ _ _, Nat.lt_succ_self _,
          fun member => Nat.lt_irrefl _ (lent.free _ member).1⟩
      · intro cell' member
        obtain ⟨before, same⟩ := lent.free cell' member
        exact ⟨Nat.lt_succ_of_lt before, (old before).trans same⟩

end Lent

variable {rules : Rules ρ σ ι α χ ν} {clear : γ} {program : ι → Dialogue (Borrow.Answer ρ γ) α}

/-- Both return the same, and nothing is lent then. -/
def Same (b : Option (ℕ × γ)) (a a' : α) : Prop := b = none ∧ a = a'

/-- A crew with a pool, and one of plain programs. -/
structure Paired (clear : γ) (s : Crew (Borrow.Answer ρ γ) (σ × Cells γ) ι α) (t : Crew ρ σ ι α)
    (b : ℕ → Option (ℕ × γ)) : Prop where
  shared : t.shared = s.shared.1
  lends : Lent clear s.shared.2 b
  length : t.members.length = s.members.length
  idle : ∀ i, s.members.length ≤ i → b i = none
  members : ∀ i m, s.members[i]? = some m → ∃ m', t.members[i]? = some m' ∧ m'.input = m.input ∧
    m'.trace = plainCalls m.trace ∧ lent m.trace = (b i).map Prod.fst ∧
    Simulates clear Same (b i) m.rest m'.rest

variable {s s' : Crew (Borrow.Answer ρ γ) (σ × Cells γ) ι α} {t : Crew ρ σ ι α}
  {b : ℕ → Option (ℕ × γ)}

/-- A call to the pool: the plain crew stays as it is. -/
theorem Paired.stutter (paired : Paired clear s t b) {i : ℕ}
    {m : Member (Borrow.Answer ρ γ) ι α} {k : Borrow κ γ} {r : Borrow.Answer ρ γ k}
    {next : Borrow.Answer ρ γ k → Dialogue (Borrow.Answer ρ γ) α} {cells : Cells γ}
    {mine : Option (ℕ × γ)} (found : s.members[i]? = some m)
    (pool : plainCall (⟨k, r⟩ : Sigma (Borrow.Answer ρ γ)) = none)
    (now : lentNext (lent m.trace) ⟨k, r⟩ = mine.map Prod.fst)
    (lends : Lent clear cells (Function.update b i mine))
    (rest : ∀ m', t.members[i]? = some m' → Simulates clear Same mine (next r) m'.rest) :
    Paired clear ⟨(s.shared.1, cells), s.members.set i (told m k r next)⟩ t
      (Function.update b i mine) where
  shared := paired.shared
  lends := lends
  length := by
    rw [List.length_set]
    exact paired.length
  idle j outside := by
    rw [List.length_set] at outside
    have inside := (List.getElem?_eq_some_iff.mp found).1
    rw [Function.update_of_ne (by omega)]
    exact paired.idle j outside
  members j m₁ there := by
    rcases getElem?_set_some there with ⟨rfl, rfl⟩ | ⟨other, old⟩
    · obtain ⟨m', here, input, calls, -, -⟩ := paired.members j m found
      refine ⟨m', here, input, ?_, ?_, ?_⟩
      · simp [told, plainCalls_concat, pool, calls]
      · rw [Function.update_self]
        exact (lent_concat _ _).trans now
      · rw [Function.update_self]
        exact rest m' here
    · rw [Function.update_of_ne other]
      exact paired.members j m₁ old

/-- A call that has nothing to do with the pool: the plain program makes it too. -/
theorem Paired.plain (paired : Paired clear s t b) {i : ℕ} {m : Member (Borrow.Answer ρ γ) ι α}
    {m' : Member ρ ι α} {k : κ} {r : ρ k}
    {next : Borrow.Answer ρ γ (.plain k) → Dialogue (Borrow.Answer ρ γ) α}
    {next' : ρ k → Dialogue ρ α} {shared : σ} (found : s.members[i]? = some m)
    (here : t.members[i]? = some m') (rest : Simulates clear Same (b i) (next r) (next' r)) :
    Paired clear ⟨(shared, s.shared.2), s.members.set i (told m (.plain k) r next)⟩
      ⟨shared, t.members.set i (told m' k r next')⟩ b where
  shared := rfl
  lends := paired.lends
  length := by
    rw [List.length_set, List.length_set]
    exact paired.length
  idle j outside := by
    rw [List.length_set] at outside
    exact paired.idle j outside
  members j m₁ there := by
    rcases getElem?_set_some there with ⟨rfl, rfl⟩ | ⟨other, old⟩
    · obtain ⟨m₂, again, input, calls, lends, -⟩ := paired.members j m found
      cases here.symm.trans again
      refine ⟨told m' k r next', List.getElem?_set_self (List.getElem?_eq_some_iff.mp here).1, input,
        ?_, ?_, rest⟩
      · show m'.trace ++ _ = plainCalls (m.trace ++ _)
        rw [plainCalls_concat, calls]
        rfl
      · exact (lent_concat _ _).trans lends
    · obtain ⟨m₂, again, both⟩ := paired.members j m₁ old
      exact ⟨m₂, (List.getElem?_set_ne (Ne.symm other)).trans again, both⟩

theorem Paired.enter (paired : Paired clear s t b) (input : ι)
    (simulates : Simulates clear Same none (program input) (rules.program input)) :
    Paired clear { s with members := s.members ++ [entrant (pooled rules clear program) input] }
      { t with members := t.members ++ [entrant rules input] } b where
  shared := paired.shared
  lends := paired.lends
  length := by
    rw [List.length_append, List.length_append, paired.length]
    rfl
  idle i outside := by
    rw [List.length_append] at outside
    exact paired.idle i (by omega)
  members i m there := by
    rcases getElem?_concat_some there with old | ⟨rfl, rfl⟩
    · obtain ⟨m', here, both⟩ := paired.members i m old
      refine ⟨m', ?_, both⟩
      rw [List.getElem?_append_left (List.getElem?_eq_some_iff.mp here).1]
      exact here
    · refine ⟨entrant rules input, ?_, rfl, rfl, ?_, ?_⟩
      · rw [← paired.length]
        exact List.getElem?_concat_length
      · rw [paired.idle _ (Nat.le_refl _)]
        rfl
      · rw [paired.idle _ (Nat.le_refl _)]
        exact simulates

/-- **One step of the crew with the pool is a step of the plain one, or none.** -/
theorem Paired.step (paired : Paired clear s t b)
    (simulates : ∀ input, Simulates clear Same none (program input) (rules.program input))
    {l : Label ι (χ × ℕ) (ν ⊕ ℕ)} (taken : Taken (pooled rules clear program) s l s') :
    ∃ t' b', Steps (step rules) anyStep t t' ∧ Paired clear s' t' b' := by
  cases taken with
  | enter input =>
      exact ⟨_, b, (Steps.refl t).tail (l := .enter input) trivial rfl,
        paired.enter input (simulates input)⟩
  | other n shared changes =>
      cases n with
      | inl n =>
          obtain ⟨shared', moved, rfl⟩ := Option.map_eq_some_iff.mp changes
          have moved' : rules.other t.shared n = some shared' := by rw [paired.shared, moved]
          exact ⟨_, b, (Steps.refl t).tail trivial (Taken.other n shared' moved').step,
            rfl, paired.lends, paired.length, paired.idle, paired.members⟩
      | inr pick =>
          cases changes
          exact ⟨t, b, Steps.refl t, paired.shared, paired.lends.drop pick, paired.length,
            paired.idle, paired.members⟩
  | answer i c m k next shared r found asks given =>
      obtain ⟨c, pick⟩ := c
      obtain ⟨m', here, input, calls, lends, rest⟩ := paired.members i m found
      rw [asks] at rest
      cases k with
      | plain k =>
          obtain ⟨next', asks', rest'⟩ := rest
          obtain ⟨⟨shared', r'⟩, answered, same⟩ := Option.map_eq_some_iff.mp given
          cases same
          have answered' : rules.reply c t.shared k = some (shared', r) := by
            rw [paired.shared, answered]
          exact ⟨_, b, (Steps.refl t).tail trivial
            (Taken.answer i c m' k next' shared' r here asks' answered').step,
            paired.plain found here (rest' r)⟩
      | get =>
          cases given
          obtain ⟨v, lends'⟩ := paired.lends.get i pick
          refine ⟨t, _, Steps.refl t, paired.stutter found rfl rfl lends' ?_⟩
          intro m'' again
          cases here.symm.trans again
          exact rest.2 _ v
      | store cell v =>
          cases given
          obtain ⟨⟨old, holds⟩, rest'⟩ := rest
          refine ⟨t, _, Steps.refl t, paired.stutter found rfl ?_ (paired.lends.store holds v) ?_⟩
          · rw [lends, holds]
            rfl
          · intro m'' again
            cases here.symm.trans again
            exact rest'
      | load cell =>
          cases given
          obtain ⟨v, holds, rest'⟩ := rest
          have unchanged : Function.update b i (some (cell, v)) = b := by
            rw [← holds]
            exact Function.update_eq_self i b
          have lends' : Lent clear s.shared.2 (Function.update b i (some (cell, v))) := by
            rw [unchanged]
            exact paired.lends
          refine ⟨t, _, Steps.refl t, paired.stutter found rfl ?_ lends' ?_⟩
          · rw [lends, holds]
            rfl
          · intro m'' again
            cases here.symm.trans again
            rw [paired.lends.contents holds, ← holds]
            exact rest'
      | put cell =>
          cases given
          obtain ⟨holds, rest'⟩ := rest
          refine ⟨t, _, Steps.refl t, paired.stutter found rfl rfl (paired.lends.put holds) ?_⟩
          intro m'' again
          cases here.symm.trans again
          exact rest'

/-- **A crew that shares a pool is a crew of plain programs.** -/
theorem pooled_refines
    (simulates : ∀ input, Simulates clear Same none (program input) (rules.program input))
    {start : σ}
    (run : Steps (step (pooled rules clear program)) anyStep (fresh (start, Cells.empty clear)) s) :
    ∃ t b, Steps (step rules) anyStep (fresh start) t ∧ Paired clear s t b := by
  refine run.invariant (P := fun s => ∃ t b, Steps (step rules) anyStep (fresh start) t ∧
    Paired clear s t b) ?_ ⟨fresh start, fun _ => none, Steps.refl _, ?_⟩
  · rintro u l v ⟨t, b, reached, paired⟩ - taken
    obtain ⟨t', b', more, paired'⟩ := paired.step simulates (step_taken taken)
    exact ⟨t', b', reached.trans more, paired'⟩
  · exact ⟨rfl, Lent.empty clear, rfl, fun _ _ => rfl, by simp [fresh]⟩

end Crew

end SentryGate.Theory
