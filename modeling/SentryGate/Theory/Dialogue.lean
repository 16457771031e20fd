/-
# Theory.Dialogue -- programs that ask and go on with the answers

A `Dialogue` is a program whose only way to reach the world is to make calls: a
call `k` is answered by some `ρ k`, and the program goes on with the answer.
Nothing is fixed about who answers, so what holds in every run (`Runs`) holds for
every behaviour of the callees.

`Always` is the rule of postconditions for such programs: it follows the program
call by call (`always_bind`) and says what every run satisfies (`Runs.of_always`).
`serve` answers all calls from a state; its transcript is a run (`serve_runs`).
-/
import Mathlib.Data.Sigma.Basic

namespace SentryGate.Theory

set_option autoImplicit false

/-- A program that makes calls `k : κ`, answered by `ρ k`, and returns an `α`. -/
inductive Dialogue {κ : Type} (ρ : κ → Type) (α : Type) where
  | done (a : α)
  | ask (k : κ) (next : ρ k → Dialogue ρ α)

namespace Dialogue

variable {κ : Type} {ρ : κ → Type} {α β : Type}

protected def bind : Dialogue ρ α → (α → Dialogue ρ β) → Dialogue ρ β
  | .done a, f => f a
  | .ask k next, f => .ask k fun r => (next r).bind f

instance : Monad (Dialogue ρ) where
  pure := .done
  bind := Dialogue.bind

/-- Make one call and return its answer. -/
def call (k : κ) : Dialogue ρ (ρ k) := .ask k .done

/-! ## Runs -/

/-- The program can make exactly these calls, hear these answers and return this. -/
inductive Runs : Dialogue ρ α → List (Sigma ρ) → α → Prop where
  | done (a : α) : Runs (.done a) [] a
  | ask (k : κ) (next : ρ k → Dialogue ρ α) (r : ρ k) (rest : List (Sigma ρ)) (a : α)
      (goes : Runs (next r) rest a) : Runs (.ask k next) (⟨k, r⟩ :: rest) a

/-- In every run the calls, their answers and the result satisfy `Q`. -/
def Always : Dialogue ρ α → (List (Sigma ρ) → α → Prop) → Prop
  | .done a, Q => Q [] a
  | .ask k next, Q => ∀ r, (next r).Always fun rest a => Q (⟨k, r⟩ :: rest) a

theorem Runs.of_always {p : Dialogue ρ α} {trace : List (Sigma ρ)} {a : α}
    {Q : List (Sigma ρ) → α → Prop} (runs : Runs p trace a) (always : p.Always Q) :
    Q trace a := by
  induction runs generalizing Q with
  | done a => exact always
  | ask k next r rest a goes ih => exact ih (always r)

theorem Always.mono {p : Dialogue ρ α} {Q R : List (Sigma ρ) → α → Prop} (always : p.Always Q)
    (weaker : ∀ trace a, Q trace a → R trace a) : p.Always R := by
  induction p generalizing Q R with
  | done a => exact weaker [] a always
  | ask k next ih => exact fun r => ih r (always r) fun rest a => weaker (⟨k, r⟩ :: rest) a

/-! ## The rule for each construct -/

variable {Q : List (Sigma ρ) → β → Prop}

@[simp] theorem always_pure {Q : List (Sigma ρ) → α → Prop} (a : α) :
    (pure a : Dialogue ρ α).Always Q ↔ Q [] a := Iff.rfl

@[simp] theorem always_call {k : κ} {Q : List (Sigma ρ) → ρ k → Prop} :
    (call k : Dialogue ρ (ρ k)).Always Q ↔ ∀ r, Q [⟨k, r⟩] r := Iff.rfl

@[simp] theorem always_bind (p : Dialogue ρ α) (f : α → Dialogue ρ β) :
    (p >>= f).Always Q ↔
      p.Always fun first a => (f a).Always fun rest b => Q (first ++ rest) b := by
  change (p.bind f).Always Q ↔ _
  induction p generalizing Q with
  | done a => rfl
  | ask k next ih =>
      refine forall_congr' fun r => ?_
      exact ih r

/-! ## Answering from a state -/

variable {σ : Type}

/-- Run the program, answering every call from a state. -/
def serve (handler : σ → (k : κ) → σ × ρ k) : Dialogue ρ α → σ → List (Sigma ρ) × α × σ
  | .done a, s => ([], a, s)
  | .ask k next, s =>
      let (s', r) := handler s k
      let (rest, a, t) := serve handler (next r) s'
      (⟨k, r⟩ :: rest, a, t)

theorem serve_runs (handler : σ → (k : κ) → σ × ρ k) (p : Dialogue ρ α) (s : σ) :
    Runs p (serve handler p s).1 (serve handler p s).2.1 := by
  induction p generalizing s with
  | done a => exact .done a
  | ask k next ih => exact .ask k next _ _ _ (ih _ _)

end Dialogue

end SentryGate.Theory
