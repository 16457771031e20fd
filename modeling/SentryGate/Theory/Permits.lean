/-
# Theory.Permits -- programs side by side that take permits and give them back

Some answers hand a permit to the program that asked, others take one back (`Use`).  A program is
`Balanced` if it takes a permit only when it has none, gives back only one it has, returns
without any, and makes only calls that are free to make with one, or without.  That is a condition
on the program alone, checked call by call (`Balanced.bind`).

Where every program of a crew is balanced and the shared state counts the permits that answers
hand out (`Permits`), in every state reached:

* the permits in use are the programs that have one, and no more than the limit
  (`Permits.metered`);
* a program with a permit can be led to give it back, whatever the others do not do
  (`Permits.gives_back`), so a program that waits for one need not wait for ever
  (`Permits.served`), and one that waits for nothing else can be led to its end
  (`Permits.finishes`).
-/
import SentryGate.Theory.Crew

namespace SentryGate.Theory

open Machine Counting

set_option autoImplicit false

/-- What a call, with its answer, does to the permit of the program that made it. -/
inductive Use where
  | take | give | neither
  deriving DecidableEq

namespace Use

/-- Whether the program has a permit afterwards. -/
def after : Use → Bool → Bool
  | .take, _ => true
  | .give, _ => false
  | .neither, held => held

/-- One is taken without having one, and given back while having one. -/
def Fits : Use → Bool → Prop
  | .take, held => held = false
  | .give, held => held = true
  | .neither, _ => True

/-- How the number of permits in use changes. -/
def Counts : Use → ℕ → ℕ → Prop
  | .take, before, after => after = before + 1
  | .give, before, after => before = after + 1
  | .neither, before, after => after = before

end Use

/-! ## Balanced programs -/

namespace Dialogue

variable {κ : Type} {ρ : κ → Type} {α β : Type}

/-- From here on the program uses permits as it should; `free` are the calls it may make with and
without one. -/
def Balanced (use : Sigma ρ → Use) (free : Bool → κ → Prop) : Bool → Dialogue ρ α → Prop
  | held, .done _ => held = false
  | held, .ask k next =>
      free held k ∧
      ∀ r, (use ⟨k, r⟩).Fits held ∧ Balanced use free ((use ⟨k, r⟩).after held) (next r)

/-- Whether a program has a permit after these calls. -/
def held (use : Sigma ρ → Use) (trace : List (Sigma ρ)) : Bool :=
  trace.foldl (fun now x => (use x).after now) false

variable {use : Sigma ρ → Use} {free : Bool → κ → Prop}

theorem held_concat (trace : List (Sigma ρ)) (x : Sigma ρ) :
    held use (trace ++ [x]) = (use x).after (held use trace) := by
  simp [held]

theorem Balanced.bind {p : Dialogue ρ α} {f : α → Dialogue ρ β} {now : Bool}
    (first : Balanced use free now p) (second : ∀ a, Balanced use free false (f a)) :
    Balanced use free now (p >>= f) := by
  change Balanced use free now (p.bind f)
  induction p generalizing now with
  | done a =>
      obtain rfl : now = false := first
      exact second a
  | ask k next ih =>
      refine ⟨first.1, fun r => ⟨(first.2 r).1, ?_⟩⟩
      exact ih r (first.2 r).2

theorem Follows.balanced {p rest : Dialogue ρ α} {trace : List (Sigma ρ)}
    (follows : p.Follows trace rest) (balanced : Balanced use free false p) :
    Balanced use free (held use trace) rest := by
  induction follows with
  | begin => exact balanced
  | heard prior r ih =>
      rw [held_concat]
      exact (ih.2 r).2

end Dialogue

/-! ## Crews with permits -/

namespace Crew

open Dialogue

variable {κ : Type} {ρ : κ → Type} {σ ι α χ ν : Type}

/-- Every program is balanced, and the shared state counts permits up to a limit.  Whoever has
one is answered. -/
structure Permits (rules : Rules ρ σ ι α χ ν) (use : Sigma ρ → Use) (free : Bool → κ → Prop)
    (inUse limit : σ → ℕ) : Prop where
  program : ∀ input, Balanced use free false (rules.program input)
  counts : ∀ {c s k s' r}, rules.reply c s k = some (s', r) →
    (use ⟨k, r⟩).Counts (inUse s) (inUse s')
  bounded : ∀ {c s k s' r}, rules.reply c s k = some (s', r) → inUse s ≤ limit s →
    inUse s' ≤ limit s
  fixed : ∀ {c s k s' r}, rules.reply c s k = some (s', r) → limit s' = limit s
  other : ∀ {s n s'}, rules.other s n = some s' → inUse s' = inUse s ∧ limit s' = limit s
  answers : ∀ c s k, free true k → 0 < inUse s → (rules.reply c s k).isSome

/-- The permits in use are the programs that have one, within the limit. -/
structure Metered (use : Sigma ρ → Use) (inUse : σ → ℕ) (bound : ℕ) (s : Crew ρ σ ι α) : Prop where
  count : inUse s.shared = s.members.countP fun m => held use m.trace
  within : inUse s.shared ≤ bound

variable {rules : Rules ρ σ ι α χ ν} {use : Sigma ρ → Use} {free : Bool → κ → Prop} {inUse limit : σ → ℕ}
  {G : Crew ρ σ ι α → Label ι χ ν → Prop} {s s' t : Crew ρ σ ι α} {l : Label ι χ ν} {i : ℕ}
  {m : Member ρ ι α}

namespace Permits

theorem limit_step (permits : Permits rules use free inUse limit) (taken : Taken rules s l s') :
    limit s'.shared = limit s.shared := by
  cases taken with
  | enter input => rfl
  | answer i c m k next shared r found asks given => exact permits.fixed given
  | other n shared changes => exact (permits.other changes).2

/-- A step keeps count. -/
theorem metered_step (permits : Permits rules use free inUse limit) (followed : Followed rules s)
    (metered : Metered use inUse (limit s.shared) s) (taken : Taken rules s l s') :
    Metered use inUse (limit s'.shared) s' := by
  rw [permits.limit_step taken]
  cases taken with
  | enter input =>
      refine ⟨?_, metered.within⟩
      show inUse s.shared = _
      rw [List.countP_append, metered.count]
      simp [entrant, held]
  | answer i c m k next shared r found asks given =>
      refine ⟨?_, permits.bounded given metered.within⟩
      have follows := followed m (List.mem_of_getElem? found)
      rw [asks] at follows
      have fits := ((follows.balanced (permits.program m.input)).2 r).1
      have counts := permits.counts given
      have changed := countP_set_add (p := fun m => held use m.trace) found (told m k r next)
      rw [metered.count] at counts
      simp only [told, held_concat] at changed ⊢
      cases used : use ⟨k, r⟩ <;> rw [used] at fits counts changed <;>
        simp only [Use.Fits, Use.Counts, Use.after] at fits counts changed
      · rw [fits] at changed
        simp only [Bool.false_eq_true, if_false, if_true] at changed
        omega
      · rw [fits] at changed
        simp only [Bool.false_eq_true, if_false, if_true] at changed
        omega
      · rw [counts]
        exact (Nat.add_right_cancel changed).symm
  | other n shared changes =>
      obtain ⟨same, -⟩ := permits.other changes
      refine ⟨same.trans metered.count, ?_⟩
      show inUse shared ≤ _
      rw [same]
      exact metered.within

/-- **In every state reached the permits are counted**, and the limit is the first one. -/
theorem metered (permits : Permits rules use free inUse limit) {start : σ}
    (unused : inUse start = 0) (run : Steps (step rules) G (fresh start) s) :
    limit s.shared = limit start ∧ Metered use inUse (limit start) s := by
  have both : limit s.shared = limit start ∧ Metered use inUse (limit s.shared) s := by
    refine run.induction
      (P := fun s => limit s.shared = limit start ∧ Metered use inUse (limit s.shared) s) ?_ ?_
    · exact ⟨rfl, by simpa [fresh] using unused, by simp [fresh, unused]⟩
    · intro u l v before holds _ taken
      have move := step_taken taken
      exact ⟨(permits.limit_step move).trans holds.1,
        permits.metered_step (Crew.Steps.follows before) holds.2 move⟩
  exact ⟨both.1, both.1 ▸ both.2⟩

/-- Who has a permit asks for something, and is answered. -/
theorem goes_on (permits : Permits rules use free inUse limit) (followed : Followed rules s)
    (metered : Metered use inUse (limit s.shared) s) (found : s.members[i]? = some m)
    (holds : held use m.trace = true) (c : χ) :
    ∃ k next shared r, m.rest = .ask k next ∧ rules.reply c s.shared k = some (shared, r) := by
  have member := List.mem_of_getElem? found
  have balanced := (followed m member).balanced (permits.program m.input)
  rw [holds] at balanced
  have some_used : 0 < inUse s.shared := by
    rw [metered.count]
    exact List.countP_pos_iff.mpr ⟨m, member, holds⟩
  cases rest : m.rest with
  | done a =>
      rw [rest] at balanced
      cases balanced
  | ask k next =>
      rw [rest] at balanced
      obtain ⟨⟨shared, r⟩, given⟩ :=
        Option.isSome_iff_exists.mp (permits.answers c s.shared k balanced.1 some_used)
      exact ⟨k, next, shared, r, rfl, given⟩

/-- **A permit is given back** once its program is answered long enough, by nobody else's doing. -/
theorem gives_back (permits : Permits rules use free inUse limit) (followed : Followed rules s)
    (metered : Metered use inUse (limit s.shared) s) (found : s.members[i]? = some m)
    (holds : held use m.trace = true) (c : χ) (admitted : ∀ u, G u (.answer i c)) :
    ∃ t m', Steps (step rules) G s t ∧ Followed rules t ∧ Metered use inUse (limit t.shared) t ∧
      limit t.shared = limit s.shared ∧ t.members[i]? = some m' ∧ held use m'.trace = false ∧
      t.members.countP (fun m => held use m.trace) + 1 =
        s.members.countP (fun m => held use m.trace) ∧
      ∀ j, j ≠ i → t.members[j]? = s.members[j]? := by
  -- induction on what is left of the program: with the last answer it would have returned
  generalize left : m.rest = rest
  induction rest generalizing s m with
  | done a =>
      obtain ⟨k, next, -, -, asks, -⟩ := permits.goes_on followed metered found holds c
      cases left.symm.trans asks
  | ask k next ih =>
      obtain ⟨k', next', shared, r, asks, given⟩ := permits.goes_on followed metered found holds c
      cases left.symm.trans asks
      let u : Crew ρ σ ι α := { shared, members := s.members.set i (told m k r next) }
      have taken : step rules s (.answer i c) = some u := by
        simp [step, found, left, given, u]
      have move := step_taken taken
      have inside := (List.getElem?_eq_some_iff.mp found).1
      have here : u.members[i]? = some (told m k r next) := List.getElem?_set_self inside
      have elsewhere : ∀ j, j ≠ i → u.members[j]? = s.members[j]? :=
        fun j other => List.getElem?_set_ne (Ne.symm other)
      have fewer := countP_set_add (p := fun m => held use m.trace) found (told m k r next)
      cases still : held use (told m k r next).trace with
      | false =>
          refine ⟨u, _, (Steps.refl s).tail (admitted s) taken, followed.step move,
            permits.metered_step followed metered move, permits.limit_step move, here, still, ?_,
            elsewhere⟩
          simp only [holds, still, if_true, Bool.false_eq_true, if_false] at fewer
          exact fewer
      | true =>
          obtain ⟨t, m', rest, followed', metered', kept, there, free', count, others⟩ :=
            ih r (followed.step move) (permits.metered_step followed metered move) here still rfl
          refine ⟨t, m', ((Steps.refl s).tail (admitted s) taken).trans rest, followed', metered',
            kept.trans (permits.limit_step move), there, free', ?_, ?_⟩
          · simp only [holds, still, if_true] at fewer
            rw [count]
            exact Nat.add_right_cancel fewer
          · intro j other
            rw [others j other, elsewhere j other]

/-- **A program that waits for a permit can be served**: it is, or it is after someone else was
led to give one back. -/
theorem served (permits : Permits rules use free inUse limit) (followed : Followed rules s)
    (metered : Metered use inUse (limit s.shared) s) (positive : 0 < limit s.shared) {k : κ}
    {next : ρ k → Dialogue ρ α} (found : s.members[i]? = some m) (asks : m.rest = .ask k next)
    (without : held use m.trace = false) (c : χ) (admitted : ∀ u j, G u (.answer j c))
    (room : ∀ u, Steps (step rules) G s u → u.members[i]? = some m →
      inUse u.shared < limit u.shared → (rules.reply c u.shared k).isSome) :
    ∃ t, Steps (step rules) G s t ∧ t.members[i]? = some m ∧
      (step rules t (.answer i c)).isSome := by
  have enabled : ∀ t : Crew ρ σ ι α, Steps (step rules) G s t → t.members[i]? = some m →
      inUse t.shared < limit t.shared → (step rules t (.answer i c)).isSome := by
    intro t reached there under
    simp [step, there, asks, room t reached there under]
  by_cases under : inUse s.shared < limit s.shared
  · exact ⟨s, Steps.refl s, found, enabled s (Steps.refl s) found under⟩
  · have someone : 0 < s.members.countP fun m => held use m.trace := by
      rw [← metered.count]
      omega
    obtain ⟨m', member, holds⟩ := List.countP_pos_iff.mp someone
    obtain ⟨j, there⟩ := List.mem_iff_getElem?.mp member
    have apart : i ≠ j := by
      rintro rfl
      cases found.symm.trans there
      rw [without] at holds
      cases holds
    obtain ⟨t, -, run, -, counted, kept, -, -, count, others⟩ :=
      permits.gives_back followed metered there holds c fun u => admitted u j
    have still : t.members[i]? = some m := (others i apart).trans found
    refine ⟨t, run, still, enabled t run still ?_⟩
    have before := metered.within
    rw [metered.count] at before
    rw [counted.count, kept]
    omega

/-- **A program can be led to its end** if, wherever it gets to, its calls are answered as long as
a permit is left. -/
theorem finishes (permits : Permits rules use free inUse limit) {start : σ}
    (unused : inUse start = 0) (positive : 0 < limit start)
    (run : Steps (step rules) G (fresh start) s) {H : Crew ρ σ ι α → Label ι χ ν → Prop} {c : χ}
    (stricter : ∀ u l, H u l → G u l) (admitted : ∀ u j, H u (.answer j c))
    (found : s.members[i]? = some m)
    (room : ∀ u m' k next, Steps (step rules) H s u → u.members[i]? = some m' →
      m'.rest = .ask k next → inUse u.shared < limit u.shared →
      (rules.reply c u.shared k).isSome) :
    ∃ t m' a, Steps (step rules) H s t ∧ t.members[i]? = some m' ∧ m'.rest = .done a := by
  -- induction on what is left of the program, from any state on the way
  suffices leads : ∀ rest u m', Steps (step rules) H s u → u.members[i]? = some m' →
      m'.rest = rest →
      ∃ t m' a, Steps (step rules) H s t ∧ t.members[i]? = some m' ∧ m'.rest = .done a from
    leads _ s m (Steps.refl s) found rfl
  intro rest
  induction rest with
  | done a =>
      intro u m' reached here left
      exact ⟨u, m', a, reached, here, left⟩
  | ask k next ih =>
      intro u m' reached here left
      have whole := run.trans (reached.mono stricter)
      obtain ⟨fixed, metered⟩ := permits.metered unused whole
      have followed := Crew.Steps.follows whole
      rw [← fixed] at metered
      -- a state, perhaps after others, in which the call is answered
      have ready : ∃ v, Steps (step rules) H u v ∧ v.members[i]? = some m' ∧
          (step rules v (.answer i c)).isSome := by
        cases holds : held use m'.trace with
        | false =>
            exact permits.served followed metered (fixed ▸ positive) here left holds c admitted
              fun v onward there => room v m' k next (reached.trans onward) there left
        | true =>
            obtain ⟨k', next', shared, r, asks, given⟩ :=
              permits.goes_on followed metered here holds c
            exact ⟨u, Steps.refl u, here, by simp [step, here, asks, given]⟩
      obtain ⟨v, onward, there, enabled⟩ := ready
      obtain ⟨w, taken⟩ := Option.isSome_iff_exists.mp enabled
      have reached' := (reached.trans onward).tail (admitted v i) taken
      cases step_taken taken with
      | answer _ _ m₀ k' next' shared r found' asks given =>
          cases there.symm.trans found'
          cases left.symm.trans asks
          exact ih r _ _ reached'
            (List.getElem?_set_self (List.getElem?_eq_some_iff.mp there).1) rfl

end Permits

end Crew

end SentryGate.Theory
