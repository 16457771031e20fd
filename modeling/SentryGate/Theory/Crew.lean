/-
# Theory.Crew -- programs side by side over a shared state

A crew is a shared state and any number of programs under way (`Dialogue`), each with what it
was begun for and what it has asked and heard.  A step lets a program begin, answers the next
call of one of them, or changes the shared state from outside.  An answer comes from the shared
state and may change it; a call that gets none waits.  Nothing orders the steps.

* `Follows` -- having asked and heard this, a program goes on as that.  What it asked is the
  beginning of one of its runs (`Follows.begins`, `Follows.asks`), so what is known of its runs
  is known of every moment on the way.
* `Taken` -- the step function read backwards; `Steps.follows` -- in every state reached, each
  program is where its transcript leads.
* `Path.heard` -- whatever a program heard was answered in a state on the way, and what the
  answer left leads to the last state.
-/
import SentryGate.Theory.Dialogue
import SentryGate.Theory.Machine
import SentryGate.Theory.Counting

namespace SentryGate.Theory

open Machine Counting

set_option autoImplicit false

/-! ## A program on its way -/

namespace Dialogue

variable {κ : Type} {ρ : κ → Type} {α : Type}

/-- Having made these calls and heard these answers, the program goes on as `rest`. -/
inductive Follows (p : Dialogue ρ α) : List (Sigma ρ) → Dialogue ρ α → Prop where
  | begin : Follows p [] p
  | heard {trace : List (Sigma ρ)} {k : κ} {next : ρ k → Dialogue ρ α}
      (prior : Follows p trace (.ask k next)) (r : ρ k) : Follows p (trace ++ [⟨k, r⟩]) (next r)

variable {p rest : Dialogue ρ α} {trace : List (Sigma ρ)}

theorem Follows.runs (follows : Follows p trace rest) {more : List (Sigma ρ)} {a : α}
    (runs : Runs rest more a) : Runs p (trace ++ more) a := by
  induction follows generalizing more with
  | begin => exact runs
  | heard prior r ih =>
      rw [List.append_assoc]
      exact ih (.ask _ _ r more a runs)

theorem exists_runs [∀ k, Nonempty (ρ k)] (p : Dialogue ρ α) : ∃ trace a, Runs p trace a := by
  induction p with
  | done a => exact ⟨[], a, .done a⟩
  | ask k next ih =>
      obtain ⟨r⟩ : Nonempty (ρ k) := inferInstance
      obtain ⟨trace, a, runs⟩ := ih r
      exact ⟨⟨k, r⟩ :: trace, a, .ask k next r trace a runs⟩

/-- What was asked and heard is the beginning of a run. -/
theorem Follows.begins [∀ k, Nonempty (ρ k)] (follows : Follows p trace rest) :
    ∃ more a, Runs p (trace ++ more) a := by
  obtain ⟨more, a, runs⟩ := exists_runs rest
  exact ⟨more, a, follows.runs runs⟩

/-- So is it with the next call and any answer to it. -/
theorem Follows.asks [∀ k, Nonempty (ρ k)] {k : κ} {next : ρ k → Dialogue ρ α}
    (follows : Follows p trace (.ask k next)) (r : ρ k) :
    ∃ more a, Runs p (trace ++ ⟨k, r⟩ :: more) a := by
  obtain ⟨more, a, runs⟩ := (follows.heard r).begins
  exact ⟨more, a, by simpa using runs⟩

/-- A program that has returned ran so. -/
theorem Follows.returned {a : α} (follows : Follows p trace (.done a)) : Runs p trace a := by
  simpa using follows.runs (.done a)

end Dialogue

/-! ## Crews -/

/-- A program under way: what it was begun for, what it asked and heard, what is left of it. -/
structure Member {κ : Type} (ρ : κ → Type) (ι α : Type) where
  input : ι
  trace : List (Sigma ρ)
  rest : Dialogue ρ α

structure Crew {κ : Type} (ρ : κ → Type) (σ ι α : Type) where
  shared : σ
  members : List (Member ρ ι α)

namespace Crew

variable {κ : Type} {ρ : κ → Type} {σ ι α χ ν : Type}

/-- Who moves: a program begins, the next call of a program is answered in some
circumstances, or the shared state changes otherwise. -/
inductive Label (ι χ ν : Type) where
  | enter (input : ι)
  | answer (i : ℕ) (c : χ)
  | other (n : ν)

/-- How programs begin, how calls are answered, and what else changes the shared state. -/
structure Rules (ρ : κ → Type) (σ ι α χ ν : Type) where
  program : ι → Dialogue ρ α
  reply : χ → σ → (k : κ) → Option (σ × ρ k)
  other : σ → ν → Option σ

/-- The program that begins. -/
def entrant (rules : Rules ρ σ ι α χ ν) (input : ι) : Member ρ ι α := ⟨input, [], rules.program input⟩

/-- The program with one more answer. -/
def told (m : Member ρ ι α) (k : κ) (r : ρ k) (next : ρ k → Dialogue ρ α) : Member ρ ι α :=
  { m with trace := m.trace ++ [⟨k, r⟩], rest := next r }

def step (rules : Rules ρ σ ι α χ ν) (s : Crew ρ σ ι α) : Label ι χ ν → Option (Crew ρ σ ι α)
  | .enter input => some { s with members := s.members ++ [entrant rules input] }
  | .answer i c =>
      match s.members[i]? with
      | none => none
      | some m =>
          match m.rest with
          | .done _ => none
          | .ask k next =>
              (rules.reply c s.shared k).map fun (shared, r) =>
                { shared, members := s.members.set i (told m k r next) }
  | .other n => (rules.other s.shared n).map fun shared => { s with shared }

/-- Everything a step can do. -/
inductive Taken (rules : Rules ρ σ ι α χ ν) (s : Crew ρ σ ι α) :
    Label ι χ ν → Crew ρ σ ι α → Prop where
  | enter (input : ι) :
      Taken rules s (.enter input) { s with members := s.members ++ [entrant rules input] }
  | answer (i : ℕ) (c : χ) (m : Member ρ ι α) (k : κ) (next : ρ k → Dialogue ρ α) (shared : σ)
      (r : ρ k) (found : s.members[i]? = some m) (asks : m.rest = .ask k next)
      (given : rules.reply c s.shared k = some (shared, r)) :
      Taken rules s (.answer i c) { shared, members := s.members.set i (told m k r next) }
  | other (n : ν) (shared : σ) (changes : rules.other s.shared n = some shared) :
      Taken rules s (.other n) { s with shared }

variable {rules : Rules ρ σ ι α χ ν} {G : Crew ρ σ ι α → Label ι χ ν → Prop} {s s' t : Crew ρ σ ι α}
  {l : Label ι χ ν}

/-- **Every step is one of these.** -/
theorem step_taken (taken : step rules s l = some s') : Taken rules s l s' := by
  cases l with
  | enter input =>
      cases taken
      exact .enter input
  | answer i c =>
      simp only [step] at taken
      split at taken
      · cases taken
      · rename_i m found
        split at taken
        · cases taken
        · rename_i k next asks
          obtain ⟨⟨shared, r⟩, given, same⟩ := Option.map_eq_some_iff.mp taken
          cases same
          exact .answer i c m k next shared r found asks given
  | other n =>
      obtain ⟨shared, changes, same⟩ := Option.map_eq_some_iff.mp taken
      cases same
      exact .other n shared changes

theorem Taken.step (taken : Taken rules s l s') : step rules s l = some s' := by
  cases taken with
  | enter input => rfl
  | answer i c m k next shared r found asks given => simp [Crew.step, found, asks, given]
  | other n shared changes => simp [Crew.step, changes]

/-- Where a member after a step comes from. -/
theorem Taken.member (taken : Taken rules s l s') {m : Member ρ ι α} (present : m ∈ s'.members) :
    m ∈ s.members ∨ (∃ input, l = .enter input ∧ m = entrant rules input) ∨
    ∃ i c m₀ k r next, l = .answer i c ∧ s.members[i]? = some m₀ ∧ m₀.rest = .ask k next ∧
      rules.reply c s.shared k = some (s'.shared, r) ∧ m = told m₀ k r next := by
  cases taken with
  | enter input =>
      rcases List.mem_append.mp present with old | new
      · exact Or.inl old
      · exact Or.inr (Or.inl ⟨input, rfl, List.mem_singleton.mp new⟩)
  | answer i c m₀ k next shared r found asks given =>
      rcases List.mem_or_eq_of_mem_set present with old | new
      · exact Or.inl old
      · exact Or.inr (Or.inr ⟨i, c, m₀, k, r, next, rfl, found, asks, given, new⟩)
  | other n shared changes => exact Or.inl present

/-- Every program is where its transcript leads. -/
def Followed (rules : Rules ρ σ ι α χ ν) (s : Crew ρ σ ι α) : Prop :=
  ∀ m ∈ s.members, (rules.program m.input).Follows m.trace m.rest

theorem Followed.step (followed : Followed rules s) (taken : Taken rules s l s') :
    Followed rules s' := by
  intro m present
  rcases taken.member present with old | ⟨input, -, rfl⟩ |
    ⟨i, c, m₀, k, r, next, -, found, asks, -, rfl⟩
  · exact followed m old
  · exact .begin
  · have before := followed m₀ (List.mem_of_getElem? found)
    rw [asks] at before
    exact before.heard r

/-- A crew that no program has entered. -/
def fresh (shared : σ) : Crew ρ σ ι α := ⟨shared, []⟩

theorem Steps.follows {start : σ} (run : Steps (step rules) G (fresh start) s) :
    Followed rules s := by
  refine run.invariant (P := Followed rules)
    (fun u l v followed _ taken => followed.step (step_taken taken)) ?_
  simp [Followed, fresh]

/-! ## What was heard -/

/-- The call was made, behind these others, in a state that the run from `s` to `t` has left,
and answered there; what the answer left leads to `t`. -/
def Given (rules : Rules ρ σ ι α χ ν) (G : Crew ρ σ ι α → Label ι χ ν → Prop)
    (s : Crew ρ σ ι α) (past : List (Crew ρ σ ι α)) (t : Crew ρ σ ι α) (i : ℕ)
    (before : List (Sigma ρ)) (k : κ) (r : ρ k) : Prop :=
  ∃ u ∈ past, ∃ m next c v, Steps (step rules) G s u ∧ u.members[i]? = some m ∧
    m.trace = before ∧ m.rest = .ask k next ∧ rules.reply c u.shared k = some (v.shared, r) ∧
    Steps (step rules) G v t

variable {past : List (Crew ρ σ ι α)}

theorem Given.later {i : ℕ} {before : List (Sigma ρ)} {k : κ} {r : ρ k}
    (given : Given rules G s past t i before k r) {t' : Crew ρ σ ι α} (admitted : G t l)
    (taken : step rules t l = some t') : Given rules G s (past ++ [t]) t' i before k r := by
  obtain ⟨u, left, m, next, c, v, reached, found, prior, asks, answered, leads⟩ := given
  exact ⟨u, List.mem_append_left _ left, m, next, c, v, reached, found, prior, asks, answered,
    leads.tail admitted taken⟩

/-- **Whatever a program heard since `s` was answered on the way.** -/
theorem Path.heard {i : ℕ} {m : Member ρ ι α} {before after : List (Sigma ρ)} {k : κ} {r : ρ k}
    (path : Path (step rules) G s past t) (found : t.members[i]? = some m)
    (here : m.trace = before ++ ⟨k, r⟩ :: after)
    (since : ∀ m₀, s.members[i]? = some m₀ → m₀.trace.length ≤ before.length) :
    Given rules G s past t i before k r := by
  induction path generalizing m after with
  | refl =>
      have short := since m found
      rw [here, List.length_append, List.length_cons] at short
      omega
  | @tail past u v l prior admitted taken ih =>
      have keep : ∀ m₀ after, u.members[i]? = some m₀ → m₀.trace = before ++ ⟨k, r⟩ :: after →
          Given rules G s (past ++ [u]) v i before k r :=
        fun m₀ after there same => (ih there same).later admitted taken
      cases step_taken taken with
      | enter input =>
          rcases getElem?_concat_some found with old | ⟨-, rfl⟩
          · exact keep m after old here
          · simp [entrant] at here
      | answer j c m₀ k' next shared r' found₀ asks given =>
          rcases getElem?_set_some found with ⟨rfl, rfl⟩ | ⟨-, old⟩
          · rcases split_concat here with ⟨after', old⟩ | ⟨begins, last⟩
            · exact keep m₀ after' found₀ old
            · cases last
              exact ⟨u, List.mem_concat_self, m₀, next, c, _, prior.steps, found₀, begins, asks,
                given, Steps.refl _⟩
          · exact keep m after old here
      | other n shared changes => exact keep m after found here

theorem Steps.heard {i : ℕ} {m : Member ρ ι α} {before after : List (Sigma ρ)} {k : κ} {r : ρ k}
    (run : Steps (step rules) G s t) (found : t.members[i]? = some m)
    (here : m.trace = before ++ ⟨k, r⟩ :: after)
    (since : ∀ m₀, s.members[i]? = some m₀ → m₀.trace.length ≤ before.length) :
    ∃ past, Given rules G s past t i before k r := by
  obtain ⟨past, path⟩ := run.path
  exact ⟨past, Path.heard path found here since⟩

/-! ## Members as time goes by -/

/-- The member, possibly some answers later. -/
def Member.Grows (m m' : Member ρ ι α) : Prop :=
  m'.input = m.input ∧ m.trace <+: m'.trace ∧ ∀ a, m.rest = .done a → m' = m

theorem Member.Grows.refl (m : Member ρ ι α) : Member.Grows m m :=
  ⟨rfl, List.prefix_rfl, fun _ _ => rfl⟩

theorem Member.Grows.trans {m m' m'' : Member ρ ι α} (first : Member.Grows m m')
    (second : Member.Grows m' m'') : Member.Grows m m'' := by
  refine ⟨second.1.trans first.1, first.2.1.trans second.2.1, fun a done => ?_⟩
  have same := first.2.2 a done
  exact (second.2.2 a (by rw [same]; exact done)).trans same

/-- A member stays at its place, and one that has returned stays as it is. -/
theorem Steps.grows {i : ℕ} {m : Member ρ ι α} (run : Steps (step rules) G s t)
    (found : s.members[i]? = some m) : ∃ m', t.members[i]? = some m' ∧ Member.Grows m m' := by
  refine run.invariant (P := fun t => ∃ m', t.members[i]? = some m' ∧ Member.Grows m m') ?_
    ⟨m, found, .refl m⟩
  rintro u l v ⟨m', there, grows⟩ - taken
  cases step_taken taken with
  | enter input =>
      refine ⟨m', ?_, grows⟩
      show (u.members ++ _)[i]? = _
      rw [List.getElem?_append_left (List.getElem?_eq_some_iff.mp there).1]
      exact there
  | answer j c m₀ k next shared r found₀ asks given =>
      by_cases here : j = i
      · subst here
        cases found₀.symm.trans there
        refine ⟨told m' k r next, ?_, grows.trans ⟨rfl, ⟨_, rfl⟩, fun a done => ?_⟩⟩
        · exact List.getElem?_set_self (List.getElem?_eq_some_iff.mp there).1
        · rw [asks] at done
          cases done
      · exact ⟨m', (List.getElem?_set_ne here).trans there, grows⟩
  | other n shared changes => exact ⟨m', there, grows⟩

end Crew

end SentryGate.Theory
