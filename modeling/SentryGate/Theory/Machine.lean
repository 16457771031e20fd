/-
# Theory.Machine -- guarded step machines, their runs, invariants and the past

A machine is a partial step function `step : σ → ℓ → Option σ`: the label holds
every choice the environment makes, so a run is a list of labels and a concrete
run is computed (`exec`).  A guard `G : σ → ℓ → Prop` restricts which steps a run
may take, judged on the state before the step; `Steps step G` is reachability by
steps that all meet the guard.

* `Steps.invariant` -- a predicate that every admitted step preserves holds in
  every state reached.
* `Path` -- a run together with the states it left behind, for properties that
  speak of the past; `InOrder` says that two things happened one after the other.
* `steps_of_exec`, `steps_of_execWhile` -- a computed run is a run, with or without a
  guard.
* `outputs_eq`, `afterInputs_related` -- two machines that answer every input, related by a
  simulation, give the same answers and stay related.
-/
import Mathlib.Logic.Relation

namespace SentryGate.Theory.Machine

set_option autoImplicit false

variable {σ ℓ : Type}

/-- Every step is admitted. -/
def anyStep : σ → ℓ → Prop := fun _ _ => True

/-- One admitted step. -/
def Next (step : σ → ℓ → Option σ) (G : σ → ℓ → Prop) (s s' : σ) : Prop :=
  ∃ l, G s l ∧ step s l = some s'

/-- Any number of admitted steps. -/
def Steps (step : σ → ℓ → Option σ) (G : σ → ℓ → Prop) : σ → σ → Prop :=
  Relation.ReflTransGen (Next step G)

/-- Run a list of labels; `none` if one of them is not enabled. -/
def exec (step : σ → ℓ → Option σ) : σ → List ℓ → Option σ
  | s, [] => some s
  | s, l :: ls => (step s l).bind fun s' => exec step s' ls

/-- The steps that a computable guard admits. -/
def admits (g : σ → ℓ → Bool) : σ → ℓ → Prop := fun s l => g s l = true

/-- Run a list of labels under a guard; `none` if one of them is not enabled or not
admitted. -/
def execWhile (step : σ → ℓ → Option σ) (g : σ → ℓ → Bool) : σ → List ℓ → Option σ
  | s, [] => some s
  | s, l :: ls => if g s l then (step s l).bind fun s' => execWhile step g s' ls else none

variable {step : σ → ℓ → Option σ} {G : σ → ℓ → Prop}

namespace Steps

theorem refl (s : σ) : Steps step G s s := Relation.ReflTransGen.refl

theorem trans {s t u : σ} (first : Steps step G s t) (second : Steps step G t u) :
    Steps step G s u :=
  Relation.ReflTransGen.trans first second

theorem tail {s t u : σ} {l : ℓ} (first : Steps step G s t) (admitted : G t l)
    (taken : step t l = some u) : Steps step G s u :=
  Relation.ReflTransGen.tail first ⟨l, admitted, taken⟩

/-- A run under a guard is a run under one that admits more. -/
theorem mono {H : σ → ℓ → Prop} (wider : ∀ s l, G s l → H s l) {s t : σ}
    (run : Steps step G s t) : Steps step H s t := by
  refine Relation.ReflTransGen.mono ?_ s t run
  rintro u v ⟨l, admitted, taken⟩
  exact ⟨l, wider u l admitted, taken⟩

/-- Induction along a run, from its first state. -/
theorem induction {s t : σ} {P : σ → Prop} (run : Steps step G s t) (base : P s)
    (next : ∀ u l v, Steps step G s u → P u → G u l → step u l = some v → P v) : P t := by
  induction run with
  | refl => exact base
  | tail prior last ih =>
      obtain ⟨l, admitted, taken⟩ := last
      exact next _ l _ prior ih admitted taken

/-- **The invariant rule.** -/
theorem invariant {P : σ → Prop} (keeps : ∀ s l s', P s → G s l → step s l = some s' → P s')
    {s t : σ} (run : Steps step G s t) (base : P s) : P t :=
  run.induction base fun u l v _ hu admitted taken => keeps u l v hu admitted taken

end Steps

theorem steps_of_exec {s t : σ} {ls : List ℓ} (ran : exec step s ls = some t) :
    Steps step anyStep s t := by
  induction ls generalizing s with
  | nil => cases ran; exact Steps.refl _
  | cons l ls ih =>
      obtain ⟨u, taken, rest⟩ := Option.bind_eq_some_iff.mp ran
      exact (Steps.refl s |>.tail trivial taken).trans (ih rest)

theorem steps_of_execWhile {g : σ → ℓ → Bool} {s t : σ} {ls : List ℓ}
    (ran : execWhile step g s ls = some t) : Steps step (admits g) s t := by
  induction ls generalizing s with
  | nil => cases ran; exact Steps.refl _
  | cons l ls ih =>
      unfold execWhile at ran
      split at ran
      · rename_i admitted
        obtain ⟨u, taken, rest⟩ := Option.bind_eq_some_iff.mp ran
        exact (Steps.refl s |>.tail admitted taken).trans (ih rest)
      · cases ran

/-- The guard only refuses: a run under it ends where the same labels lead without it. -/
theorem exec_of_execWhile {g : σ → ℓ → Bool} {s t : σ} {ls : List ℓ}
    (ran : execWhile step g s ls = some t) : exec step s ls = some t := by
  induction ls generalizing s with
  | nil => exact ran
  | cons l ls ih =>
      unfold execWhile at ran
      split at ran
      · obtain ⟨u, taken, rest⟩ := Option.bind_eq_some_iff.mp ran
        exact Option.bind_eq_some_iff.mpr ⟨u, taken, ih rest⟩
      · cases ran

/-- A run from `s₀` to `s` by admitted steps, with the states it left behind in
order. -/
inductive Path (step : σ → ℓ → Option σ) (G : σ → ℓ → Prop) (s₀ : σ) : List σ → σ → Prop where
  | refl : Path step G s₀ [] s₀
  | tail {past : List σ} {s s' : σ} {l : ℓ} (prior : Path step G s₀ past s) (admitted : G s l)
      (taken : step s l = some s') : Path step G s₀ (past ++ [s]) s'

theorem Path.steps {s₀ s : σ} {past : List σ} (path : Path step G s₀ past s) :
    Steps step G s₀ s := by
  induction path with
  | refl => exact Steps.refl _
  | tail _ admitted taken ih => exact ih.tail admitted taken

theorem Steps.path {s₀ s : σ} (run : Steps step G s₀ s) : ∃ past, Path step G s₀ past s := by
  refine run.induction (P := fun s => ∃ past, Path step G s₀ past s) ⟨[], .refl⟩ ?_
  rintro u l v - ⟨past, path⟩ admitted taken
  exact ⟨past ++ [u], path.tail admitted taken⟩

/-- Along the states of a run, one with `P` and then, at it or after it, one with `Q`. -/
def InOrder (P Q : σ → Prop) (states : List σ) : Prop :=
  ∃ before u after, states = before ++ u :: after ∧ Q u ∧ ∃ v ∈ before ++ [u], P v

theorem InOrder.append {P Q : σ → Prop} {states : List σ} (seen : InOrder P Q states)
    (more : List σ) : InOrder P Q (states ++ more) := by
  obtain ⟨before, u, after, rfl, holds, earlier⟩ := seen
  exact ⟨before, u, after ++ more, by simp, holds, earlier⟩

/-! ## Machines that answer -/

section Answers

variable {τ ι ω : Type}

/-- The answers of a machine to a list of inputs. -/
def outputs (answer : σ → ι → σ × ω) : σ → List ι → List ω
  | _, [] => []
  | s, i :: inputs => (answer s i).2 :: outputs answer (answer s i).1 inputs

/-- The state of a machine after a list of inputs. -/
def afterInputs (answer : σ → ι → σ × ω) (s : σ) (inputs : List ι) : σ :=
  inputs.foldl (fun s i => (answer s i).1) s

theorem length_outputs (answer : σ → ι → σ × ω) (s : σ) (inputs : List ι) :
    (outputs answer s inputs).length = inputs.length := by
  induction inputs generalizing s with
  | nil => rfl
  | cons i inputs ih => exact congrArg _ (ih _)

theorem outputs_append (answer : σ → ι → σ × ω) (s : σ) (first second : List ι) :
    outputs answer s (first ++ second) =
      outputs answer s first ++ outputs answer (afterInputs answer s first) second := by
  induction first generalizing s with
  | nil => rfl
  | cons i first ih => exact congrArg _ (ih _)

theorem afterInputs_append (answer : σ → ι → σ × ω) (s : σ) (first second : List ι) :
    afterInputs answer s (first ++ second) =
      afterInputs answer (afterInputs answer s first) second :=
  List.foldl_append

/-- **The simulation rule**: related states give the same answer and stay related. -/
theorem outputs_eq {answer : σ → ι → σ × ω} {answer' : τ → ι → τ × ω} {R : σ → τ → Prop}
    {P : ι → Prop}
    (simulates : ∀ s t i, P i → R s t →
      (answer s i).2 = (answer' t i).2 ∧ R (answer s i).1 (answer' t i).1)
    {s : σ} {t : τ} (related : R s t) (inputs : List ι) (accepted : ∀ i ∈ inputs, P i) :
    outputs answer s inputs = outputs answer' t inputs := by
  induction inputs generalizing s t with
  | nil => rfl
  | cons i inputs ih =>
      obtain ⟨same, next⟩ := simulates s t i (accepted i List.mem_cons_self) related
      unfold outputs
      rw [same, ih next fun j member => accepted j (List.mem_cons_of_mem i member)]

theorem afterInputs_related {answer : σ → ι → σ × ω} {answer' : τ → ι → τ × ω} {R : σ → τ → Prop}
    {P : ι → Prop}
    (simulates : ∀ s t i, P i → R s t →
      (answer s i).2 = (answer' t i).2 ∧ R (answer s i).1 (answer' t i).1)
    {s : σ} {t : τ} (related : R s t) (inputs : List ι) (accepted : ∀ i ∈ inputs, P i) :
    R (afterInputs answer s inputs) (afterInputs answer' t inputs) := by
  induction inputs generalizing s t with
  | nil => exact related
  | cons i inputs ih =>
      exact ih (simulates s t i (accepted i List.mem_cons_self) related).2
        fun j member => accepted j (List.mem_cons_of_mem i member)

end Answers

end SentryGate.Theory.Machine
