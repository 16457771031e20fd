/-
# Theory.Critical -- what is done under one lock is done at once

A lock is a single permit (`Theory.Permits`).  The calls of a program between taking it and
giving it back are a section (`sections`).  If answers to calls made without the lock leave
some part of the shared state alone, that part changes only within sections, and sections do
not overlap: in every state reached it is what the closed sections made of the first one, one
after the other, and then the open one, if there is one (`Explained`).

The sections stand in the order in which they ended, each with its program, and later states
only add to them (`Critical.explained`).  What is then left to prove about a program is what one
of its sections does by itself.
-/
import Mathlib.Data.List.Induction
import SentryGate.Theory.Permits

namespace SentryGate.Theory

open Machine Counting

set_option autoImplicit false

/-! ## Sections of a transcript -/

namespace Dialogue

variable {κ : Type} {ρ : κ → Type}

/-- The sections that are closed, each without the call that opened it, and the one that is
open. -/
structure Sections {κ : Type} (ρ : κ → Type) where
  closed : List (List (Sigma ρ))
  opened : Option (List (Sigma ρ))

def Sections.next (use : Sigma ρ → Use) (now : Sections ρ) (x : Sigma ρ) : Sections ρ :=
  match use x, now.opened with
  | .take, _ => { now with opened := some [] }
  | .give, some calls => ⟨now.closed ++ [calls ++ [x]], none⟩
  | .neither, some calls => { now with opened := some (calls ++ [x]) }
  | _, none => now

def sections (use : Sigma ρ → Use) (trace : List (Sigma ρ)) : Sections ρ :=
  trace.foldl (Sections.next use) ⟨[], none⟩

variable {use : Sigma ρ → Use}

theorem sections_concat (trace : List (Sigma ρ)) (x : Sigma ρ) :
    sections use (trace ++ [x]) = (sections use trace).next use x := by
  simp [sections]

theorem sections_take {trace : List (Sigma ρ)} {x : Sigma ρ} (takes : use x = .take) :
    sections use (trace ++ [x]) = ⟨(sections use trace).closed, some []⟩ := by
  rw [sections_concat, Sections.next, takes]

theorem sections_give {trace calls : List (Sigma ρ)} {x : Sigma ρ} (gives : use x = .give)
    (opened : (sections use trace).opened = some calls) :
    sections use (trace ++ [x]) = ⟨(sections use trace).closed ++ [calls ++ [x]], none⟩ := by
  rw [sections_concat, Sections.next, gives, opened]

theorem sections_inside {trace calls : List (Sigma ρ)} {x : Sigma ρ} (plain : use x = .neither)
    (opened : (sections use trace).opened = some calls) :
    sections use (trace ++ [x]) = ⟨(sections use trace).closed, some (calls ++ [x])⟩ := by
  rw [sections_concat, Sections.next, plain, opened]

theorem sections_outside {trace : List (Sigma ρ)} {x : Sigma ρ} (plain : use x = .neither)
    (none_open : (sections use trace).opened = none) :
    sections use (trace ++ [x]) = sections use trace := by
  rw [sections_concat, Sections.next, plain, none_open]

/-- A section goes on with calls that leave the permit alone. -/
theorem sections_body {trace calls body : List (Sigma ρ)}
    (opened : (sections use trace).opened = some calls) (plain : ∀ x ∈ body, use x = .neither) :
    sections use (trace ++ body) = ⟨(sections use trace).closed, some (calls ++ body)⟩ := by
  induction body generalizing trace calls with
  | nil => rw [List.append_nil, List.append_nil, ← opened]
  | cons x body ih =>
      have here := sections_inside (plain x List.mem_cons_self) opened
      have rest := ih (by rw [here]) fun y member => plain y (List.mem_cons_of_mem x member)
      rw [here] at rest
      simpa using rest

/-- Calls before the first section leave no trace in them. -/
theorem sections_cons {x : Sigma ρ} (plain : use x = .neither) (trace : List (Sigma ρ)) :
    sections use (x :: trace) = sections use trace := by
  have first : Sections.next use ⟨[], none⟩ x = ⟨[], none⟩ := by rw [Sections.next, plain]
  rw [sections, List.foldl_cons, first, sections]

theorem sections_plain {trace : List (Sigma ρ)} (plain : ∀ x ∈ trace, use x = .neither) :
    sections use trace = ⟨[], none⟩ := by
  induction trace with
  | nil => rfl
  | cons x trace ih =>
      rw [sections_cons (plain x List.mem_cons_self)]
      exact ih fun y member => plain y (List.mem_cons_of_mem x member)

section Single

variable {x y : Sigma ρ} {body trace : List (Sigma ρ)} (takes : use x = .take)
  (gives : use y = .give) (plain : ∀ z ∈ body, use z = .neither)
include takes plain

theorem sections_begun {calls : List (Sigma ρ)} (part : calls <+: body) :
    sections use (x :: calls) = ⟨[], some calls⟩ := by
  have taken : sections use ([] ++ [x]) = ⟨[], some []⟩ := sections_take takes
  have inside : sections use (([] ++ [x]) ++ calls) = ⟨_, some ([] ++ calls)⟩ :=
    sections_body (by rw [taken]) fun z member => plain z (part.subset member)
  rw [taken] at inside
  exact inside

include gives

theorem sections_whole : sections use (x :: (body ++ [y])) = ⟨[body ++ [y]], none⟩ := by
  have begun := sections_begun takes plain List.prefix_rfl
  have closed := sections_give gives (by rw [begun])
  rw [begun] at closed
  exact closed

/-- On the way through a single section: before it, inside, or behind it. -/
theorem sections_single (part : trace <+: x :: (body ++ [y])) :
    sections use trace = ⟨[], none⟩ ∨
    (∃ calls, calls <+: body ∧ sections use trace = ⟨[], some calls⟩) ∨
    sections use trace = ⟨[body ++ [y]], none⟩ := by
  rcases List.prefix_cons_iff.mp part with rfl | ⟨calls, rfl, rest⟩
  · exact Or.inl rfl
  · rcases List.prefix_concat_iff.mp rest with rfl | within
    · exact Or.inr (Or.inr (sections_whole takes gives plain))
    · exact Or.inr (Or.inl ⟨calls, within, sections_begun takes plain within⟩)

end Single

/-- A section is open exactly while the permit is held. -/
theorem opened_isSome (trace : List (Sigma ρ)) :
    (sections use trace).opened.isSome = held use trace := by
  induction trace using List.reverseRecOn with
  | nil => rfl
  | append_singleton trace x ih =>
      rw [sections_concat, held_concat, ← ih]
      cases used : use x <;> cases opened : (sections use trace).opened <;>
        simp [Sections.next, Use.after, used, opened]

theorem exists_opened {trace : List (Sigma ρ)} (holds : held use trace = true) :
    ∃ calls, (sections use trace).opened = some calls := by
  rw [← opened_isSome] at holds
  exact Option.isSome_iff_exists.mp holds

theorem none_opened {trace : List (Sigma ρ)} (free : held use trace = false) :
    (sections use trace).opened = none := by
  rw [← opened_isSome] at free
  simpa using free

end Dialogue

/-! ## What a list of calls does -/

section Ran

variable {κ : Type} {ρ : κ → Type} {δ : Type}

/-- The calls, with their answers, lead from `d` to `d'`. -/
def Ran (effect : δ → Sigma ρ → δ → Prop) : δ → List (Sigma ρ) → δ → Prop
  | d, [], d' => d' = d
  | d, x :: calls, d' => ∃ e, effect d x e ∧ Ran effect e calls d'

variable {effect : δ → Sigma ρ → δ → Prop} {d d' e : δ}

theorem Ran.append {first second : List (Sigma ρ)} (ran : Ran effect d first e)
    (more : Ran effect e second d') : Ran effect d (first ++ second) d' := by
  induction first generalizing d with
  | nil =>
      obtain rfl : e = d := ran
      exact more
  | cons x first ih =>
      obtain ⟨u, here, rest⟩ := ran
      exact ⟨u, here, ih rest⟩

theorem Ran.concat {calls : List (Sigma ρ)} {x : Sigma ρ} (ran : Ran effect d calls e)
    (acts : effect e x d') : Ran effect d (calls ++ [x]) d' :=
  ran.append ⟨d', acts, rfl⟩

theorem Ran.split {first second : List (Sigma ρ)} (ran : Ran effect d (first ++ second) d') :
    ∃ e, Ran effect d first e ∧ Ran effect e second d' := by
  induction first generalizing d with
  | nil => exact ⟨d, rfl, ran⟩
  | cons x first ih =>
      obtain ⟨u, here, rest⟩ := ran
      obtain ⟨e, before, after⟩ := ih rest
      exact ⟨e, ⟨u, here, before⟩, after⟩

theorem Ran.quiet {calls : List (Sigma ρ)} (ran : Ran effect d calls d')
    (idle : ∀ x ∈ calls, ∀ e e', effect e x e' → e' = e) : d' = d := by
  induction calls generalizing d with
  | nil => exact ran
  | cons x calls ih =>
      obtain ⟨e, here, rest⟩ := ran
      rw [ih rest fun y member => idle y (List.mem_cons_of_mem x member)]
      exact idle x List.mem_cons_self d e here

end Ran

/-! ## Crews with a lock -/

namespace Crew

open Dialogue

variable {κ : Type} {ρ : κ → Type} {σ ι α χ ν δ : Type}

/-- A single permit protects the view: answers to calls that are made without it, and everything
else, leave the view alone. -/
structure Critical (rules : Rules ρ σ ι α χ ν) (use : Sigma ρ → Use) (free : Bool → κ → Prop)
    (inUse limit : σ → ℕ) (view : σ → δ) (effect : δ → Sigma ρ → δ → Prop) : Prop where
  permits : Permits rules use free inUse limit
  acts : ∀ {c s k s' r}, rules.reply c s k = some (s', r) → effect (view s) ⟨k, r⟩ (view s')
  quiet : ∀ {c s k s' r}, rules.reply c s k = some (s', r) → free false k → view s' = view s
  other : ∀ {s n s'}, rules.other s n = some s' → view s' = view s

/-- The sections that ended, in that order and each with its program, explain the state. -/
structure Explained (use : Sigma ρ → Use) (view : σ → δ) (effect : δ → Sigma ρ → δ → Prop) (d₀ : δ)
    (s : Crew ρ σ ι α) (order : List (ℕ × List (Sigma ρ))) (d : δ) : Prop where
  owners : ∀ entry ∈ order, entry.1 < s.members.length
  own : ∀ (i : ℕ) (m : Member ρ ι α), s.members[i]? = some m →
    (order.filter fun entry => entry.1 = i).map Prod.snd = (sections use m.trace).closed
  ran : Ran effect d₀ (order.flatMap Prod.snd) d
  opened : ∀ m ∈ s.members, ∀ calls, (sections use m.trace).opened = some calls →
    Ran effect d calls (view s.shared)
  idle : (∀ m ∈ s.members, held use m.trace = false) → view s.shared = d

variable {rules : Rules ρ σ ι α χ ν} {use : Sigma ρ → Use} {free : Bool → κ → Prop}
  {inUse limit : σ → ℕ} {view : σ → δ} {effect : δ → Sigma ρ → δ → Prop} {d₀ d : δ}
  {G : Crew ρ σ ι α → Label ι χ ν → Prop} {s s' t : Crew ρ σ ι α} {l : Label ι χ ν}
  {order : List (ℕ × List (Sigma ρ))}

/-- Where one has the permit, no other does. -/
theorem Metered.alone {i j : ℕ} {m m' : Member ρ ι α} (metered : Metered use inUse 1 s)
    (found : s.members[i]? = some m) (holds : held use m.trace = true)
    (there : s.members[j]? = some m') (other : j ≠ i) : held use m'.trace = false := by
  cases has : held use m'.trace with
  | false => rfl
  | true =>
      have single : s.members.countP (fun m => held use m.trace) ≤ 1 := by
        rw [← metered.count]
        exact metered.within
      exact absurd (eq_of_countP_le_one single there has found holds) other

namespace Explained

theorem enter (explained : Explained use view effect d₀ s order d) (input : ι) :
    Explained use view effect d₀ { s with members := s.members ++ [entrant rules input] } order d where
  owners entry member := by
    rw [List.length_append]
    exact Nat.lt_add_right _ (explained.owners entry member)
  own i m found := by
    rcases getElem?_concat_some found with old | ⟨rfl, rfl⟩
    · exact explained.own i m old
    · have none_own : order.filter (fun entry => entry.1 = s.members.length) = [] := by
        rw [List.filter_eq_nil_iff]
        intro entry member
        simpa using Nat.ne_of_lt (explained.owners entry member)
      rw [none_own]
      rfl
  ran := explained.ran
  opened m member calls opened := by
    rcases List.mem_append.mp member with old | new
    · exact explained.opened m old calls opened
    · rw [List.mem_singleton.mp new] at opened
      cases opened
  idle none_held := explained.idle fun m member => none_held m (List.mem_append_left _ member)

theorem other (explained : Explained use view effect d₀ s order d) {shared : σ}
    (same : view shared = view s.shared) :
    Explained use view effect d₀ { s with shared } order d where
  owners := explained.owners
  own := explained.own
  ran := explained.ran
  opened m member calls opened := by
    show Ran effect d calls (view shared)
    rw [same]
    exact explained.opened m member calls opened
  idle none_held := same.trans (explained.idle none_held)

section Told

variable {i : ℕ} {m : Member ρ ι α} {k : κ} {r : ρ k} {next : ρ k → Dialogue ρ α} {shared : σ}

/-- The crew after an answer. -/
abbrev after (s : Crew ρ σ ι α) (i : ℕ) (m : Member ρ ι α) (k : κ) (r : ρ k)
    (next : ρ k → Dialogue ρ α) (shared : σ) : Crew ρ σ ι α :=
  { shared, members := s.members.set i (told m k r next) }

theorem after_self (found : s.members[i]? = some m) :
    (after s i m k r next shared).members[i]? = some (told m k r next) :=
  List.getElem?_set_self (List.getElem?_eq_some_iff.mp found).1

theorem after_elsewhere {j : ℕ} (other : j ≠ i) :
    (after s i m k r next shared).members[j]? = s.members[j]? :=
  List.getElem?_set_ne (Ne.symm other)

/-- An answer that ends the sections `more`, all of the member that got it. -/
theorem tell (explained : Explained use view effect d₀ s order d) (found : s.members[i]? = some m)
    {more : List (List (Sigma ρ))} {d' : δ}
    (closed : (sections use (told m k r next).trace).closed = (sections use m.trace).closed ++ more)
    (ran : Ran effect d more.flatten d')
    (elsewhere : ∀ j m', j ≠ i → s.members[j]? = some m' →
      ∀ calls, (sections use m'.trace).opened = some calls → Ran effect d' calls (view shared))
    (here : ∀ calls, (sections use (told m k r next).trace).opened = some calls →
      Ran effect d' calls (view shared))
    (idle : (∀ m' ∈ (after s i m k r next shared).members, held use m'.trace = false) →
      view shared = d') :
    Explained use view effect d₀ (after s i m k r next shared) (order ++ more.map (i, ·)) d' where
  owners entry listed := by
    rw [List.length_set]
    rcases List.mem_append.mp listed with old | new
    · exact explained.owners entry old
    · obtain ⟨calls, -, rfl⟩ := List.mem_map.mp new
      exact (List.getElem?_eq_some_iff.mp found).1
  own j m' found' := by
    rw [List.filter_append, List.map_append]
    rcases getElem?_set_some found' with ⟨rfl, rfl⟩ | ⟨other, old⟩
    · have all_own : (more.map (j, ·)).filter (fun entry => entry.1 = j) = more.map (j, ·) := by
        simp [List.filter_eq_self]
      rw [explained.own j m found, closed, all_own, List.map_map]
      congr 1
      exact List.map_id _
    · have none_own : (more.map (i, ·)).filter (fun entry => entry.1 = j) = [] := by
        simp [List.filter_eq_nil_iff, Ne.symm other]
      rw [explained.own j m' old, none_own, List.map_nil, List.append_nil]
  ran := by
    have flat : (more.map (i, ·)).flatMap Prod.snd = more.flatten := by
      rw [List.flatMap_map, List.flatMap_id']
    rw [List.flatMap_append, flat]
    exact explained.ran.append ran
  opened m' listed calls opened := by
    obtain ⟨j, there⟩ := List.mem_iff_getElem?.mp listed
    rcases getElem?_set_some there with ⟨-, rfl⟩ | ⟨other, old⟩
    · exact here calls opened
    · exact elsewhere j m' other old calls opened
  idle := idle

/-- The lock is taken: nobody had it, and nobody else has it now. -/
theorem take (explained : Explained use view effect d₀ s order d) (found : s.members[i]? = some m)
    (metered : Metered use inUse 1 (after s i m k r next shared)) (used : use ⟨k, r⟩ = .take)
    (without : held use m.trace = false) (same : view shared = view s.shared) :
    Explained use view effect d₀ (after s i m k r next shared) order d := by
  have sec : sections use (told m k r next).trace = ⟨(sections use m.trace).closed, some []⟩ :=
    sections_take used
  have holds : held use (told m k r next).trace = true := by rw [← opened_isSome, sec]; rfl
  have others : ∀ j m', j ≠ i → s.members[j]? = some m' → held use m'.trace = false :=
    fun j m' other old =>
      metered.alone (after_self found) holds ((after_elsewhere other).trans old) other
  have start : view s.shared = d := by
    refine explained.idle fun m' listed => ?_
    obtain ⟨j, old⟩ := List.mem_iff_getElem?.mp listed
    by_cases other : j = i
    · subst other
      cases found.symm.trans old
      exact without
    · exact others j m' other old
  have told_all : Explained use view effect d₀ (after s i m k r next shared) (order ++ [].map (i, ·)) d := by
    refine explained.tell found (by rw [sec]; simp) rfl ?_ ?_ ?_
    · intro j m' other old calls opened
      rw [none_opened (others j m' other old)] at opened
      cases opened
    · intro calls opened
      rw [sec] at opened
      cases opened
      exact same.trans start
    · intro none_held
      have absurd_held := none_held _ (List.mem_of_getElem? (after_self found))
      rw [holds] at absurd_held
      cases absurd_held
  simpa using told_all

/-- The lock is given back, and a section ends. -/
theorem give (explained : Explained use view effect d₀ s order d) (found : s.members[i]? = some m)
    (metered : Metered use inUse 1 s) (used : use ⟨k, r⟩ = .give) (holds : held use m.trace = true)
    (acts : effect (view s.shared) ⟨k, r⟩ (view shared)) :
    ∃ calls, Ran effect d calls (view shared) ∧ Explained use view effect d₀
      (after s i m k r next shared) (order ++ [(i, calls)]) (view shared) := by
  obtain ⟨calls, opened⟩ := exists_opened holds
  have sec : sections use (told m k r next).trace =
      ⟨(sections use m.trace).closed ++ [calls ++ [⟨k, r⟩]], none⟩ := sections_give used opened
  have ran : Ran effect d (calls ++ [⟨k, r⟩]) (view shared) :=
    (explained.opened m (List.mem_of_getElem? found) calls opened).concat acts
  have told_all : Explained use view effect d₀ (after s i m k r next shared)
      (order ++ [calls ++ [⟨k, r⟩]].map (i, ·)) (view shared) := by
    refine explained.tell found (by rw [sec]) ?_ ?_ ?_ fun _ => rfl
    · rw [List.flatten_singleton]
      exact ran
    · intro j m' other old calls' opened'
      rw [none_opened (metered.alone found holds old other)] at opened'
      cases opened'
    · intro calls' opened'
      rw [sec] at opened'
      cases opened'
  exact ⟨_, ran, told_all⟩

/-- A call within a section. -/
theorem inside (explained : Explained use view effect d₀ s order d) (found : s.members[i]? = some m)
    (metered : Metered use inUse 1 s) (used : use ⟨k, r⟩ = .neither)
    (holds : held use m.trace = true) (acts : effect (view s.shared) ⟨k, r⟩ (view shared)) :
    Explained use view effect d₀ (after s i m k r next shared) order d := by
  obtain ⟨calls, opened⟩ := exists_opened holds
  have sec : sections use (told m k r next).trace =
      ⟨(sections use m.trace).closed, some (calls ++ [⟨k, r⟩])⟩ := sections_inside used opened
  have ran := explained.opened m (List.mem_of_getElem? found) calls opened
  have told_all : Explained use view effect d₀ (after s i m k r next shared) (order ++ [].map (i, ·)) d := by
    refine explained.tell found (by rw [sec]; simp) rfl ?_ ?_ ?_
    · intro j m' other old calls' opened'
      rw [none_opened (metered.alone found holds old other)] at opened'
      cases opened'
    · intro calls' opened'
      rw [sec] at opened'
      cases opened'
      exact ran.concat acts
    · intro none_held
      have absurd_held := none_held _ (List.mem_of_getElem? (after_self found))
      rw [← opened_isSome, sec] at absurd_held
      cases absurd_held
  simpa using told_all

/-- A call without the lock. -/
theorem outside (explained : Explained use view effect d₀ s order d) (found : s.members[i]? = some m)
    (used : use ⟨k, r⟩ = .neither) (without : held use m.trace = false)
    (same : view shared = view s.shared) :
    Explained use view effect d₀ (after s i m k r next shared) order d := by
  have sec : sections use (told m k r next).trace = sections use m.trace :=
    sections_outside used (none_opened without)
  have told_all : Explained use view effect d₀ (after s i m k r next shared) (order ++ [].map (i, ·)) d := by
    refine explained.tell found (by rw [sec]; simp) rfl ?_ ?_ ?_
    · intro j m' other old calls opened
      rw [same]
      exact explained.opened m' (List.mem_of_getElem? old) calls opened
    · intro calls opened
      rw [sec, none_opened without] at opened
      cases opened
    · intro none_held
      refine same.trans (explained.idle fun m' listed => ?_)
      obtain ⟨j, old⟩ := List.mem_iff_getElem?.mp listed
      by_cases other : j = i
      · subst other
        cases found.symm.trans old
        exact without
      · exact none_held m' (List.mem_of_getElem? ((after_elsewhere other).trans old))
  simpa using told_all

end Told

/-- One step adds at most the section that ended with it. -/
theorem step (explained : Explained use view effect d₀ s order d)
    (critical : Critical rules use free inUse limit view effect) (followed : Followed rules s)
    (metered : Metered use inUse 1 s) (metered' : Metered use inUse 1 s')
    (taken : Taken rules s l s') :
    ∃ more d', Ran effect d (more.flatMap Prod.snd) d' ∧
      Explained use view effect d₀ s' (order ++ more) d' := by
  cases taken with
  | enter input => exact ⟨[], d, rfl, by simpa using explained.enter input⟩
  | other n shared changes =>
      exact ⟨[], d, rfl, by simpa using explained.other (critical.other changes)⟩
  | answer i c m k next shared r found asks given =>
      have follows := followed m (List.mem_of_getElem? found)
      rw [asks] at follows
      have balanced := follows.balanced (critical.permits.program m.input)
      have fits := (balanced.2 r).1
      cases used : use ⟨k, r⟩ with
      | take =>
          rw [used] at fits
          have without : held use m.trace = false := fits
          refine ⟨[], d, rfl, ?_⟩
          rw [List.append_nil]
          exact explained.take found metered' used without
            (critical.quiet given (without ▸ balanced.1))
      | give =>
          rw [used] at fits
          obtain ⟨calls, ran, holds⟩ := explained.give found metered used fits (critical.acts given)
          exact ⟨[(i, calls)], _, by simpa using ran, holds⟩
      | neither =>
          refine ⟨[], d, rfl, ?_⟩
          rw [List.append_nil]
          cases holds : held use m.trace with
          | true => exact explained.inside found metered used holds (critical.acts given)
          | false =>
              exact explained.outside found used holds (critical.quiet given (holds ▸ balanced.1))

end Explained

namespace Critical

variable {start : σ}

theorem fresh_explained (use : Sigma ρ → Use) (view : σ → δ) (effect : δ → Sigma ρ → δ → Prop)
    (start : σ) :
    Explained use view effect (view start) (fresh start : Crew ρ σ ι α) [] (view start) where
  owners := by simp
  own := by simp [fresh]
  ran := rfl
  opened := by simp [fresh]
  idle _ := rfl

/-- **Sections explain every state reached**, and what happens later only adds to them. -/
theorem later (critical : Critical rules use free inUse limit view effect)
    (unused : inUse start = 0) (single : limit start = 1)
    (run : Steps (step rules) G (fresh start) s)
    (explained : Explained use view effect (view start) s order d)
    (more : Steps (step rules) G s t) :
    ∃ more d', Ran effect d (more.flatMap Prod.snd) d' ∧
      Explained use view effect (view start) t (order ++ more) d' := by
  refine more.induction (P := fun t => ∃ more d', Ran effect d (more.flatMap Prod.snd) d' ∧
    Explained use view effect (view start) t (order ++ more) d') ?_ ?_
  · exact ⟨[], d, rfl, by simpa using explained⟩
  rintro u l v before ⟨more, d', ran, holds⟩ admitted taken
  have whole := run.trans before
  have metered := (critical.permits.metered unused whole).2
  have metered' := (critical.permits.metered unused (whole.tail admitted taken)).2
  rw [single] at metered metered'
  obtain ⟨last, e, ran', next⟩ :=
    holds.step critical (Crew.Steps.follows whole) metered metered' (step_taken taken)
  refine ⟨more ++ last, e, ?_, by simpa using next⟩
  rw [List.flatMap_append]
  exact ran.append ran'

theorem explained (critical : Critical rules use free inUse limit view effect)
    (unused : inUse start = 0) (single : limit start = 1)
    (run : Steps (step rules) G (fresh start) s) :
    ∃ order d, Explained use view effect (view start) s order d := by
  obtain ⟨order, d, -, holds⟩ :=
    critical.later unused single (Steps.refl _) (fresh_explained use view effect start) run
  exact ⟨_, d, holds⟩

end Critical

end Crew

end SentryGate.Theory
