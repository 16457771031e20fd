/-
# Theory.Linearize -- linearizability of a concurrent run

An object is a machine that answers (`Machine.outputs`).  A concurrent run of calls on
it is known by what the callers see: what each asked, when it began, and when it
returned with which answer.  The run is linearizable if the calls can be put into one
order, each taking effect at once, that gives the answers returned and the final
state, and in which no call comes before another that had returned when it began.

`Linearization` is such an order.  It grows with a run: a call begins (`begin`), takes
effect after all that have (`take`), returns what it got (`returns`).
-/
import SentryGate.Theory.Machine
import SentryGate.Theory.Counting
import Mathlib.Data.List.Nodup

namespace SentryGate.Theory.Linearize

open Machine Counting

set_option autoImplicit false

variable {σ ι ω : Type}

/-- A call as its caller sees it. -/
structure Call (ι ω : Type) where
  op : ι
  began : Nat
  /-- When the call returned, and what. -/
  returned : Option (Nat × ω)
  deriving DecidableEq

/-- A call's place in a sequential order, with the answer it gets there. -/
structure Turn (ι ω : Type) where
  index : Nat
  op : ι
  out : ω

/-- `later` had returned when `first` began. -/
def Late (calls : List (Call ι ω)) (first later : Turn ι ω) : Prop :=
  ∃ cf cl e out, calls[first.index]? = some cf ∧ calls[later.index]? = some cl ∧
    cl.returned = some (e, out) ∧ e < cf.began

/-- The order explains the calls by the atomic object that went from `s₀` to `s`. -/
structure Linearization (answer : σ → ι → σ × ω) (s₀ : σ) (calls : List (Call ι ω)) (s : σ)
    (order : List (Turn ι ω)) : Prop where
  once : (order.map Turn.index).Nodup
  complete : ∀ i c, calls[i]? = some c → c.returned.isSome → i ∈ order.map Turn.index
  honest : ∀ turn ∈ order, ∃ c, calls[turn.index]? = some c ∧ c.op = turn.op ∧
    ∀ e out, c.returned = some (e, out) → out = turn.out
  answers : outputs answer s₀ (order.map Turn.op) = order.map Turn.out
  final : afterInputs answer s₀ (order.map Turn.op) = s
  realTime : order.Pairwise fun first later => ¬ Late calls first later

def Linearizable (answer : σ → ι → σ × ω) (s₀ : σ) (calls : List (Call ι ω)) (s : σ) : Prop :=
  ∃ order, Linearization answer s₀ calls s order

namespace Linearization

variable {answer : σ → ι → σ × ω} {s₀ s : σ} {calls : List (Call ι ω)} {order : List (Turn ι ω)}

theorem nil (answer : σ → ι → σ × ω) (s₀ : σ) : Linearization answer s₀ [] s₀ [] where
  once := List.nodup_nil
  complete := by simp
  honest := by simp
  answers := rfl
  final := rfl
  realTime := List.Pairwise.nil

/-- A call begins. -/
theorem begin (lin : Linearization answer s₀ calls s order) {c : Call ι ω}
    (pending : c.returned = none) : Linearization answer s₀ (calls ++ [c]) s order where
  once := lin.once
  complete i c' found done := by
    rcases getElem?_concat_some found with old | ⟨-, rfl⟩
    · exact lin.complete i c' old done
    · simp [pending] at done
  honest turn member := by
    obtain ⟨c', found, rest⟩ := lin.honest turn member
    refine ⟨c', ?_, rest⟩
    rw [List.getElem?_append_left (List.getElem?_eq_some_iff.mp found).1]
    exact found
  answers := lin.answers
  final := lin.final
  realTime := by
    refine lin.realTime.imp_of_mem ?_
    rintro first later firstThere laterThere early ⟨cf, cl, e, out, foundFirst, foundLater, rest⟩
    obtain ⟨cf', there, -⟩ := lin.honest first firstThere
    obtain ⟨cl', there', -⟩ := lin.honest later laterThere
    rw [List.getElem?_append_left (List.getElem?_eq_some_iff.mp there).1] at foundFirst
    rw [List.getElem?_append_left (List.getElem?_eq_some_iff.mp there').1] at foundLater
    exact early ⟨cf, cl, e, out, foundFirst, foundLater, rest⟩

/-- A pending call takes effect, after all that have. -/
theorem take (lin : Linearization answer s₀ calls s order) {i : Nat} {c : Call ι ω} {s' : σ}
    {out : ω} (found : calls[i]? = some c) (pending : c.returned = none)
    (fresh : i ∉ order.map Turn.index) (effect : answer s c.op = (s', out)) :
    Linearization answer s₀ calls s' (order ++ [⟨i, c.op, out⟩]) where
  once := by
    rw [List.map_append, List.map_singleton, List.nodup_append]
    refine ⟨lin.once, List.nodup_singleton i, ?_⟩
    intro j member k last same
    obtain rfl : j = i := same.trans (List.mem_singleton.mp last)
    exact fresh member
  complete j c' found' done := by
    rw [List.map_append]
    exact List.mem_append_left _ (lin.complete j c' found' done)
  honest turn member := by
    rcases List.mem_append.mp member with old | new
    · exact lin.honest turn old
    · rw [List.mem_singleton.mp new]
      exact ⟨c, found, rfl, by simp [pending]⟩
  answers := by
    rw [List.map_append, List.map_append, outputs_append, lin.answers, lin.final]
    simp [outputs, effect]
  final := by
    rw [List.map_append, afterInputs_append, lin.final]
    simp [afterInputs, effect]
  realTime := by
    rw [List.pairwise_append]
    refine ⟨lin.realTime, List.pairwise_singleton _ _, ?_⟩
    rintro first - later last ⟨cf, cl, e, out', -, foundLater, done, -⟩
    rw [List.mem_singleton.mp last] at foundLater
    cases found.symm.trans foundLater
    rw [pending] at done
    cases done

/-- A call that returned got its answer from the atomic object, after other calls of the
run. -/
theorem explains (lin : Linearization answer s₀ calls s order) {i e : Nat} {c : Call ι ω} {out : ω}
    (found : calls[i]? = some c) (done : c.returned = some (e, out)) :
    ∃ before : List ι, (∀ op ∈ before, ∃ c' ∈ calls, c'.op = op) ∧
      (answer (afterInputs answer s₀ before) c.op).2 = out := by
  have listed := lin.complete i c found (by rw [done]; rfl)
  obtain ⟨turn, member, rfl⟩ := List.mem_map.mp listed
  obtain ⟨c', found', op, same⟩ := lin.honest turn member
  cases found.symm.trans found'
  obtain ⟨first, second, split⟩ := List.append_of_mem member
  have answers := lin.answers
  rw [split, List.map_append, List.map_append, outputs_append, List.map_cons, List.map_cons]
    at answers
  have lengths : (outputs answer s₀ (first.map Turn.op)).length = (first.map Turn.out).length := by
    rw [length_outputs, List.length_map, List.length_map]
  have tail := (List.append_inj answers lengths).2
  refine ⟨first.map Turn.op, ?_, ?_⟩
  · intro op' there
    obtain ⟨turn', earlier, rfl⟩ := List.mem_map.mp there
    obtain ⟨c', found', op', -⟩ := lin.honest turn' (split ▸ List.mem_append_left _ earlier)
    exact ⟨c', List.mem_of_getElem? found', op'⟩
  · rw [op, same e out done]
    exact (List.cons.inj tail).1

/-- A call that took effect returns, later than every call began. -/
theorem returns (lin : Linearization answer s₀ calls s order) {i now : Nat} {c : Call ι ω}
    {out : ω} (found : calls[i]? = some c) (taken : ⟨i, c.op, out⟩ ∈ order)
    (began : ∀ c ∈ calls, c.began < now) :
    Linearization answer s₀ (calls.set i { c with returned := some (now, out) }) s order where
  once := lin.once
  complete j c' found' done := by
    rcases getElem?_set_some found' with ⟨rfl, -⟩ | ⟨-, old⟩
    · exact List.mem_map_of_mem taken
    · exact lin.complete j c' old done
  honest turn member := by
    obtain ⟨c', there, op, out'⟩ := lin.honest turn member
    by_cases here : i = turn.index
    · have same := List.inj_on_of_nodup_map lin.once taken member here
      subst same
      refine ⟨{ c with returned := some (now, out) }, ?_, rfl, ?_⟩
      · rw [List.getElem?_set_self (List.getElem?_eq_some_iff.mp found).1]
      · intro e o done
        cases done
        rfl
    · exact ⟨c', by rw [List.getElem?_set_ne here]; exact there, op, out'⟩
  answers := lin.answers
  final := lin.final
  realTime := by
    refine lin.realTime.imp ?_
    rintro first later early ⟨cf, cl, e, o, foundFirst, foundLater, done, before⟩
    -- whether or not it is the one that returns, `first` began when it did before
    have start : ∃ cf', calls[first.index]? = some cf' ∧ cf'.began = cf.began := by
      rcases getElem?_set_some foundFirst with ⟨here, rfl⟩ | ⟨-, old⟩
      · exact ⟨c, here ▸ found, rfl⟩
      · exact ⟨cf, old, rfl⟩
    obtain ⟨cf', there, same⟩ := start
    rcases getElem?_set_some foundLater with ⟨here, rfl⟩ | ⟨-, old⟩
    · cases done
      have earlier := began cf' (List.mem_of_getElem? there)
      omega
    · exact early ⟨cf', cl, e, o, there, old, done, same ▸ before⟩

end Linearization

end SentryGate.Theory.Linearize
