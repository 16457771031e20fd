/-
# Policy.ReloadLoop -- Close ends the reload loop

`loop` is one goroutine: its rounds follow each other (`inTurn`), and `done` is closed as it
returns.

Once a `Close` has returned no round of the loop is under way and none begins, and `done` is
closed only once; and no goroutine can be left waiting for ever, not even a `Close` that waits for
a loop in the middle of a Reload that waits for others (`close_stops_loop`).
-/
import SentryGate.Policy.ReloadCalls

namespace SentryGate.Policy

open Theory Theory.Text Theory.Machine Theory.Counting Contracts

set_option autoImplicit false

/-! ## Rounds -/

/-- A round of the loop that is under way, or was the last one. -/
def TaskState.unticked (m : TaskState) : Bool :=
  m.input == .round && match m.rest with
    | .done .ticked => false
    | _ => true

/-- The loop is one goroutine: a round begins when the one before has ticked. -/
def inTurn (s : Goroutines) : LoaderLabel → Bool
  | .enter .round => s.shared.loops && s.members.all fun m => !TaskState.unticked m
  | _ => true

variable {go : Runtime} {yaml : GoString → Decoded} {l₀ : Loader} {interval : Int}
  {s s' t : Goroutines}

/-! ## What the loop and Close ask -/

theorem TaskRun.closes {task : Task} {full : List (Sigma LoaderCall.Answer)} {a : TaskResult}
    (run : TaskRun go yaml task full a) (closes : ⟨.closeDone, ()⟩ ∈ full) :
    task = .round ∧ full = [⟨.select, false⟩, ⟨.closeDone, ()⟩] ∧ a = .stopped := by
  cases run with
  | stopped => exact ⟨rfl, rfl, rfl⟩
  | reloaded reloading => cases reloading <;> simp at closes
  | ticked reloading => cases reloading <;> simp at closes
  | _ => simp at closes

/-- Who has closed `done` was the loop, and has returned. -/
theorem stopped_of_closeDone {task : Task} {trace : List (Sigma LoaderCall.Answer)}
    {rest : Goroutine TaskResult} (follows : (taskCalls go yaml task).Follows trace rest)
    (closes : ⟨.closeDone, ()⟩ ∈ trace) : task = .round ∧ rest = .done .stopped := by
  obtain ⟨more, a, runs⟩ := Dialogue.exists_runs rest
  have run : TaskRun go yaml task _ a := (follows.runs runs).of_always (task_runs task)
  obtain ⟨rfl, whole, rfl⟩ := run.closes (List.mem_append_left more closes)
  refine ⟨rfl, ?_⟩
  -- it was the last thing to do
  rcases trace with _ | ⟨x, _ | ⟨y, trace⟩⟩
  · cases closes
  · cases whole
    simp at closes
  · obtain rfl : more = [] := by
      have none_left := congrArg List.length whole
      simp only [List.length_append, List.length_cons, List.length_nil] at none_left
      exact List.eq_nil_of_length_eq_zero (by omega)
    cases runs
    rfl

/-- Only the loop closes `done`. -/
theorem round_of_asks_closeDone {task : Task} {trace : List (Sigma LoaderCall.Answer)}
    {next : LoaderCall.Answer .closeDone → Goroutine TaskResult}
    (follows : (taskCalls go yaml task).Follows trace (.ask .closeDone next)) : task = .round := by
  obtain ⟨more, a, runs⟩ := follows.asks ()
  have run : TaskRun go yaml task _ a := runs.of_always (task_runs task)
  exact (run.closes (by simp)).1

/-- A round returns because of a tick, or after it has closed `done`. -/
theorem TaskRun.round {full : List (Sigma LoaderCall.Answer)} {a : TaskResult}
    (run : TaskRun go yaml .round full a) : a = .ticked ∨ ⟨.closeDone, ()⟩ ∈ full := by
  cases run with
  | ticked reloading => exact Or.inl rfl
  | stopped => exact Or.inr (by simp)

theorem TaskRun.waits {task : Task} {full : List (Sigma LoaderCall.Answer)} {a : TaskResult}
    (run : TaskRun go yaml task full a) (waits : ⟨.waitDone, ()⟩ ∈ full) : task = .close := by
  cases run with
  | closed => rfl
  | reloaded reloading => cases reloading <;> simp at waits
  | ticked reloading => cases reloading <;> simp at waits
  | _ => simp at waits

/-- Only `Close` waits for `done`. -/
theorem close_of_asks_waitDone {task : Task} {trace : List (Sigma LoaderCall.Answer)}
    {next : LoaderCall.Answer .waitDone → Goroutine TaskResult}
    (follows : (taskCalls go yaml task).Follows trace (.ask .waitDone next)) : task = .close := by
  obtain ⟨more, a, runs⟩ := follows.asks ()
  have run : TaskRun go yaml task _ a := runs.of_always (task_runs task)
  exact run.waits (by simp)

/-! ## In every state -/

/-- What is closed stays closed. -/
structure Shutting (s s' : Site) : Prop where
  stop : s.stop = true → s'.stop = true
  done : s.done = true → s'.done = true
  loops : s'.loops = s.loops

theorem Answered.shutting {k : LoaderCall} {s s' : Site} {r : k.Answer}
    (answered : Answered s k s' r) : Shutting s s' := by
  cases answered <;> constructor <;> intros <;> first | rfl | assumption

theorem shutting_step {l : LoaderLabel} (taken : Crew.Taken (loaderRules go yaml) s l s') :
    Shutting s.shared s'.shared := by
  cases taken with
  | enter input => exact ⟨id, id, rfl⟩
  | answer i c m k next shared r found asks given => exact (reply_answered given).shutting
  | other n => exact n.elim

theorem shutting_later {G : Goroutines → LoaderLabel → Prop}
    (run : Steps (loaderStep go yaml) G s t) : Shutting s.shared t.shared := by
  refine run.invariant (P := fun t => Shutting s.shared t.shared) ?_ ⟨id, id, rfl⟩
  intro u l v so_far _ taken
  have next := shutting_step (Crew.step_taken taken)
  exact ⟨next.stop ∘ so_far.stop, next.done ∘ so_far.done, next.loops.trans so_far.loops⟩

/-- What a goroutine heard was answered in a state on the way. -/
theorem heard_answered {G : Goroutines → LoaderLabel → Prop} {start : Site}
    (run : Steps (loaderStep go yaml) G (Crew.fresh start) s) {m : TaskState} (member : m ∈ s.members)
    {k : LoaderCall} {r : k.Answer} (heard : ⟨k, r⟩ ∈ m.trace) :
    ∃ u v : Goroutines, Answered u.shared k v.shared r ∧ Shutting v.shared s.shared := by
  obtain ⟨i, found⟩ := List.mem_iff_getElem?.mp member
  obtain ⟨before, after, here⟩ := List.append_of_mem heard
  obtain ⟨-, u, -, -, -, c, v, -, -, -, -, given, leads⟩ :=
    Crew.Steps.heard run found here (by simp [Crew.fresh])
  exact ⟨u, v, reply_answered given, shutting_later leads⟩

/-- Runs of the loader, in which the loop is one goroutine. -/
abbrev Reaches (go : Runtime) (yaml : GoString → Decoded) : Goroutines → Goroutines → Prop :=
  Steps (loaderStep go yaml) (admits inTurn)

section Heard

variable (run : Reaches go yaml (Crew.fresh (Site.new l₀ interval)) s) {m : TaskState}
  (member : m ∈ s.members)
include run member

theorem done_of_closeDone (heard : ⟨.closeDone, ()⟩ ∈ m.trace) : s.shared.done = true := by
  obtain ⟨u, v, answered, shutting⟩ := heard_answered run member heard
  generalize v.shared = left at answered shutting
  cases answered
  exact shutting.done rfl

theorem done_of_waitDone (heard : ⟨.waitDone, ()⟩ ∈ m.trace) : s.shared.done = true := by
  obtain ⟨u, v, answered, shutting⟩ := heard_answered run member heard
  generalize v.shared = left at answered shutting
  cases answered with
  | waited done => exact shutting.done done

theorem stop_of_closeStop (heard : ⟨.closeStop, ()⟩ ∈ m.trace) : s.shared.stop = true := by
  obtain ⟨u, v, answered, shutting⟩ := heard_answered run member heard
  generalize v.shared = left at answered shutting
  cases answered
  exact shutting.stop rfl

end Heard

/-- There is one loop, and it closes `done`. -/
structure Looping (s : Goroutines) : Prop where
  one : s.members.countP TaskState.unticked ≤ 1
  loops : ∀ m ∈ s.members, m.input = .round → s.shared.loops = true
  closed : s.shared.done = true → s.shared.loops = true →
    ∃ m ∈ s.members, ⟨.closeDone, ()⟩ ∈ m.trace
  unlooped : s.shared.loops = false → s.shared.done = true

/-- An answer does not start another round. -/
theorem unticked_of_told {m : TaskState} {k : LoaderCall} {r : k.Answer}
    {next : k.Answer → Goroutine TaskResult} (asks : m.rest = .ask k next)
    (unticked : TaskState.unticked (Crew.told m k r next) = true) :
    TaskState.unticked m = true := by
  simp only [TaskState.unticked, asks, Crew.told, Bool.and_eq_true] at unticked ⊢
  exact ⟨unticked.1, trivial⟩

theorem inTurn_round (s : Goroutines) :
    inTurn s (.enter .round) = true ↔
      s.shared.loops = true ∧ s.members.countP TaskState.unticked = 0 := by
  simp [inTurn, List.countP_eq_zero]

theorem Answered.done_before {k : LoaderCall} {s s' : Site} {r : k.Answer}
    (answered : Answered s k s' r) (done : s'.done = true) :
    s.done = true ∨ (⟨k, r⟩ : Sigma LoaderCall.Answer) = ⟨.closeDone, ()⟩ := by
  cases answered with
  | done before => exact Or.inr rfl
  | _ => exact Or.inl done

theorem Looping.step {l : LoaderLabel} (looping : Looping s) (admitted : inTurn s l = true)
    (taken : Crew.Taken (loaderRules go yaml) s l s') : Looping s' := by
  cases taken with
  | enter input =>
      refine ⟨?_, ?_, ?_, looping.unlooped⟩
      · show (s.members ++ [Crew.entrant (loaderRules go yaml) input]).countP _ ≤ 1
        rw [List.countP_append]
        by_cases round : input = .round
        · subst round
          rw [((inTurn_round s).mp admitted).2, Nat.zero_add]
          exact List.countP_le_length
        · have other : TaskState.unticked (Crew.entrant (loaderRules go yaml) input) = false := by
            simp [TaskState.unticked, Crew.entrant, round]
          rw [List.countP_singleton, other]
          exact looping.one
      · intro m member round
        rcases List.mem_append.mp member with old | new
        · exact looping.loops m old round
        · rw [List.mem_singleton.mp new] at round
          obtain rfl : input = .round := round
          exact ((inTurn_round s).mp admitted).1
      · intro done loops
        obtain ⟨m, member, closes⟩ := looping.closed done loops
        exact ⟨m, List.mem_append_left _ member, closes⟩
  | answer i c m k next shared r found asks given =>
      have answered := reply_answered given
      have fixed : shared.loops = s.shared.loops := answered.shutting.loops
      refine ⟨?_, ?_, ?_, ?_⟩
      · have fewer := countP_set_add (p := TaskState.unticked) found (Crew.told m k r next)
        have one := looping.one
        have kept := unticked_of_told (r := r) asks
        show (s.members.set i (Crew.told m k r next)).countP _ ≤ 1
        cases now : TaskState.unticked (Crew.told m k r next) with
        | false =>
            simp only [now, Bool.false_eq_true, if_false] at fewer
            omega
        | true =>
            simp only [now, kept now, if_true] at fewer
            omega
      · intro m' member round
        show shared.loops = true
        rw [fixed]
        rcases List.mem_or_eq_of_mem_set member with old | rfl
        · exact looping.loops m' old round
        · exact looping.loops m (List.mem_of_getElem? found) round
      · intro done loops
        have here := List.mem_of_getElem?
          (List.getElem?_set_self (List.getElem?_eq_some_iff.mp found).1 (a := Crew.told m k r next))
        rcases answered.done_before done with before | last
        · obtain ⟨m', member, closes⟩ := looping.closed before (fixed.symm.trans loops)
          obtain ⟨j, there⟩ := List.mem_iff_getElem?.mp member
          by_cases same : i = j
          · subst same
            cases found.symm.trans there
            exact ⟨_, here, List.mem_append_left _ closes⟩
          · exact ⟨m', List.mem_of_getElem? ((List.getElem?_set_ne same).trans there), closes⟩
        · exact ⟨_, here, List.mem_append_right _ (last ▸ List.mem_singleton_self _)⟩
      · intro unlooped
        exact answered.shutting.done (looping.unlooped (fixed.symm.trans unlooped))
  | other n => exact n.elim

theorem looping (run : Reaches go yaml (Crew.fresh (Site.new l₀ interval)) s) : Looping s := by
  refine run.invariant (P := Looping) (fun u l v holds admitted taken =>
    holds.step admitted (Crew.step_taken taken)) ⟨?_, ?_, ?_, ?_⟩
  · exact Nat.zero_le 1
  · intro m member
    cases member
  · intro done loops
    simp only [Crew.fresh, Site.new, decide_eq_true_eq] at done loops
    omega
  · intro unlooped
    simp only [Crew.fresh, Site.new, decide_eq_false_iff_not, decide_eq_true_eq] at unlooped ⊢
    omega

/-! ## What follows -/

theorem unticked_of_asks {m : TaskState} {k : LoaderCall} {next : k.Answer → Goroutine TaskResult}
    (round : m.input = .round) (asks : m.rest = .ask k next) : TaskState.unticked m = true := by
  simp [TaskState.unticked, round, asks]

theorem unticked_of_stopped {m : TaskState} (round : m.input = .round)
    (stopped : m.rest = .done .stopped) : TaskState.unticked m = true := by
  simp [TaskState.unticked, round, stopped]

section Reached

variable (run : Reaches go yaml (Crew.fresh (Site.new l₀ interval)) s)
include run

/-- `done` is not closed twice. -/
theorem open_of_asks_closeDone {i : ℕ} {m : TaskState}
    {next : LoaderCall.Answer .closeDone → Goroutine TaskResult} (found : s.members[i]? = some m)
    (asks : m.rest = .ask .closeDone next) : s.shared.done = false := by
  have followed := Crew.Steps.follows run
  have follows := followed m (List.mem_of_getElem? found)
  rw [asks] at follows
  have round : m.input = .round := round_of_asks_closeDone follows
  have all := looping run
  cases done : s.shared.done with
  | false => rfl
  | true =>
      -- whoever closed it was the loop, and there is only one
      have loops := all.loops m (List.mem_of_getElem? found) round
      obtain ⟨m', member, closes⟩ := all.closed done loops
      obtain ⟨round', stopped⟩ := stopped_of_closeDone (followed m' member) closes
      obtain ⟨j, there⟩ := List.mem_iff_getElem?.mp member
      obtain rfl := eq_of_countP_le_one all.one found (unticked_of_asks round asks) there
        (unticked_of_stopped round' stopped)
      cases found.symm.trans there
      cases asks.symm.trans stopped

/-- With `done` closed the loop is over. -/
theorem over_of_done (done : s.shared.done = true) :
    (∀ m ∈ s.members, m.input = .round → ∃ a, m.rest = .done a) ∧
      inTurn s (.enter .round) = false := by
  have followed := Crew.Steps.follows run
  have all := looping run
  -- either there is no loop, or its last round has returned
  by_cases loops : s.shared.loops = true
  · obtain ⟨m', member', closes⟩ := all.closed done loops
    obtain ⟨round', stopped⟩ := stopped_of_closeDone (followed m' member') closes
    have last := unticked_of_stopped round' stopped
    constructor
    · intro m member round
      cases rest : m.rest with
      | done a => exact ⟨a, rfl⟩
      | ask k next =>
          obtain ⟨i, found⟩ := List.mem_iff_getElem?.mp member
          obtain ⟨j, there⟩ := List.mem_iff_getElem?.mp member'
          obtain rfl := eq_of_countP_le_one all.one found (unticked_of_asks round rest) there last
          cases found.symm.trans there
          cases rest.symm.trans stopped
    · rw [Bool.eq_false_iff]
      intro turn
      have some_left : 0 < s.members.countP TaskState.unticked :=
        List.countP_pos_iff.mpr ⟨m', member', last⟩
      rw [((inTurn_round s).mp turn).2] at some_left
      omega
  · constructor
    · intro m member round
      exact absurd (all.loops m member round) loops
    · simp [inTurn, loops]

end Reached

/-! ## No goroutine waits for ever -/

/-- Only answers, in these circumstances. -/
def answering (c : Moment) : Goroutines → LoaderLabel → Prop := fun _ l => ∃ i, l = .answer i c

theorem inTurn_of_answering {c : Moment} (u : Goroutines) (l : LoaderLabel) (answers : answering c u l) :
    admits inTurn u l := by
  obtain ⟨i, rfl⟩ := answers
  exact rfl

theorem length_answering {c : Moment} (run : Steps (loaderStep go yaml) (answering c) s t) :
    t.members.length = s.members.length := by
  refine run.invariant (P := fun t => t.members.length = s.members.length) ?_ rfl
  rintro u _ v same ⟨i, rfl⟩ taken
  cases Crew.step_taken taken with
  | answer i c m k next shared r found asks given =>
      show (u.members.set i _).length = _
      rw [List.length_set, same]

/-- Answers start no round. -/
theorem unticked_before {c : Moment} (run : Steps (loaderStep go yaml) (answering c) s t) {j : ℕ}
    {m : TaskState} (there : t.members[j]? = some m) (unticked : TaskState.unticked m = true) :
    ∃ m₀, s.members[j]? = some m₀ ∧ TaskState.unticked m₀ = true := by
  have inside : j < s.members.length := by
    rw [← length_answering run]
    exact (List.getElem?_eq_some_iff.mp there).1
  refine ⟨_, List.getElem?_eq_getElem inside, ?_⟩
  obtain ⟨m', again, same, -, stays⟩ := Crew.Steps.grows run (List.getElem?_eq_getElem inside)
  cases there.symm.trans again
  simp only [TaskState.unticked, Bool.and_eq_true, beq_iff_eq] at unticked ⊢
  refine ⟨same.symm.trans unticked.1, ?_⟩
  split
  · rename_i ticked
    rw [stays _ ticked, ticked] at unticked
    cases unticked.2
  · rfl

/-- Between rounds, with `stop` closed, the next round closes `done`. -/
theorem last_round (stop : s.shared.stop = true) (loops : s.shared.loops = true)
    (between : s.members.countP TaskState.unticked = 0) (c : Moment) :
    ∃ t, Reaches go yaml s t ∧ t.shared.done = true := by
  cases done : s.shared.done with
  | true => exact ⟨s, Steps.refl s, done⟩
  | false =>
      have turn : inTurn s (.enter .round) = true := (inTurn_round s).mpr ⟨loops, between⟩
      let entered : Goroutines :=
        { s with members := s.members ++ [Crew.entrant (loaderRules go yaml) .round] }
      have first : Reaches go yaml s entered := (Steps.refl s).tail turn rfl
      have here : entered.members[s.members.length]? =
          some (Crew.entrant (loaderRules go yaml) .round) := List.getElem?_concat_length
      have select : (loaderRules go yaml).reply { c with ticked := false } entered.shared .select =
          some (s.shared, false) := by
        simp [loaderRules, Site.reply, entered, stop]
      have second := first.tail (inTurn_of_answering _ _ ⟨_, rfl⟩)
        (Crew.Taken.answer _ _ _ .select _ _ _ here rfl select).step
      have close : (loaderRules go yaml).reply c s.shared .closeDone =
          some ({ s.shared with done := true }, ()) := by
        simp [loaderRules, Site.reply, done]
      have third := second.tail (inTurn_of_answering _ _ ⟨_, rfl⟩) (Crew.Taken.answer _ _ _ .closeDone _ _ _
        (List.getElem?_set_self (List.getElem?_eq_some_iff.mp here).1) rfl close).step
      exact ⟨_, third, rfl⟩

section Leads

variable (run : Reaches go yaml (Crew.fresh (Site.new l₀ interval)) s)
include run

/-- A goroutine that does not wait for `done`, or not in vain, is led to its end by answers. -/
theorem leads {i : ℕ} {m : TaskState} {c : Moment} (found : s.members[i]? = some m)
    (ticks : c.ticked = true) (ready : m.input = .close → s.shared.done = true) :
    ∃ t m' a, Steps (loaderStep go yaml) (answering c) s t ∧ t.members[i]? = some m' ∧
      m'.rest = .done a := by
  refine reloadMu_permits.finishes rfl Nat.one_pos run inTurn_of_answering
    (fun u j => ⟨j, rfl⟩) found ?_
  intro u m' k next reached there asks unlocked
  have whole : Reaches go yaml _ u := run.trans (reached.mono inTurn_of_answering)
  have follows := Crew.Steps.follows whole m' (List.mem_of_getElem? there)
  have balanced := follows.balanced (balanced_taskCalls m'.input)
  rw [asks] at follows balanced
  have without : Dialogue.held reloadMu m'.trace = false := by
    have count := (reloadMu_permits.metered rfl whole).2.count
    have none_held : u.members.countP (fun m => Dialogue.held reloadMu m.trace) = 0 := by omega
    simpa using List.countP_eq_zero.mp none_held m' (List.mem_of_getElem? there)
  rw [without] at balanced
  have outside : Free false k := balanced.1
  cases k with
  | lockReload => simp [loaderRules, Site.reply, Nat.lt_one_iff.mp unlocked]
  | select => simp [loaderRules, Site.reply, ticks]
  | closeDone => simp [loaderRules, Site.reply, open_of_asks_closeDone whole there asks]
  | waitDone =>
      obtain ⟨m'', again, grows⟩ := Crew.Steps.grows reached found
      cases there.symm.trans again
      have close : m.input = .close := grows.1.symm.trans (close_of_asks_waitDone follows)
      simp [loaderRules, Site.reply, (shutting_later reached).done (ready close)]
  | _ => first | rfl | cases outside

/-- With `stop` closed, the loop can be led to close `done`. -/
theorem closes_done (stop : s.shared.stop = true) (c : Moment) (ticks : c.ticked = true) :
    ∃ t, Reaches go yaml s t ∧ t.shared.done = true := by
  have all := looping run
  cases loops : s.shared.loops with
  | false => exact ⟨s, Steps.refl s, all.unlooped loops⟩
  | true =>
      by_cases between : s.members.countP TaskState.unticked = 0
      · exact last_round stop loops between c
      · -- a round is under way, or was the last one
        obtain ⟨m, member, unticked⟩ := List.countP_pos_iff.mp (Nat.pos_of_ne_zero between)
        obtain ⟨i, found⟩ := List.mem_iff_getElem?.mp member
        have round : m.input = .round := by
          simp only [TaskState.unticked, Bool.and_eq_true, beq_iff_eq] at unticked
          exact unticked.1
        obtain ⟨t, m', a, answers, there, returned⟩ := leads run found ticks
          (fun close => by rw [round] at close; cases close)
        have onward : Reaches go yaml s t := answers.mono inTurn_of_answering
        have whole := run.trans onward
        obtain ⟨m'', again, grows⟩ := Crew.Steps.grows answers found
        cases there.symm.trans again
        have follows := Crew.Steps.follows whole m' (List.mem_of_getElem? there)
        rw [returned] at follows
        have ran : TaskRun go yaml m'.input m'.trace a := follows.returned.of_always (task_runs _)
        rw [grows.1, round] at ran
        rcases ran.round with rfl | closes
        · -- it ticked, so that the next round is the last
          have shutting := shutting_later answers
          have between' : t.members.countP TaskState.unticked = 0 := by
            rw [List.countP_eq_zero]
            intro other listed still
            obtain ⟨j, place⟩ := List.mem_iff_getElem?.mp listed
            obtain ⟨m₀, before, unticked₀⟩ := unticked_before answers place still
            obtain rfl := eq_of_countP_le_one all.one found unticked before unticked₀
            cases there.symm.trans place
            simp [TaskState.unticked, returned] at still
          obtain ⟨t', more, done⟩ := last_round (shutting.stop stop)
            (shutting.loops.trans loops) between' c
          exact ⟨t', onward.trans more, done⟩
        · exact ⟨t, onward, done_of_closeDone whole (List.mem_of_getElem? there) closes⟩

/-- A `Close` that has not returned has closed `stop`, or is about to. -/
theorem closes_stop {i : ℕ} {m : TaskState} (found : s.members[i]? = some m)
    (close : m.input = .close) {k : LoaderCall} {next : k.Answer → Goroutine TaskResult}
    (asks : m.rest = .ask k next) (c : Moment) :
    ∃ t, Reaches go yaml s t ∧ t.shared.stop = true := by
  have member := List.mem_of_getElem? found
  have follows := Crew.Steps.follows run m member
  rw [asks, close] at follows
  obtain ⟨r⟩ := answer_nonempty k
  obtain ⟨more, a, runs⟩ := follows.asks r
  have ran : TaskRun go yaml .close _ a := runs.of_always (task_runs .close)
  generalize whole : m.trace ++ ⟨k, r⟩ :: more = full at ran
  cases ran
  cases trace : m.trace with
  | nil =>
      rw [trace] at whole
      cases whole
      exact ⟨_, (Steps.refl s).tail (inTurn_of_answering _ _ ⟨i, rfl⟩)
        (Crew.Taken.answer i c m .closeStop next _ () found asks rfl).step, rfl⟩
  | cons x before =>
      rw [trace] at whole
      obtain rfl : x = _ := (List.cons.inj whole).1
      refine ⟨s, Steps.refl s, stop_of_closeStop run member ?_⟩
      rw [trace]
      exact List.mem_cons_self

/-- **Every goroutine can be led to its end.** -/
theorem returns {i : ℕ} {m : TaskState} (found : s.members[i]? = some m) :
    ∃ t m' a, Reaches go yaml s t ∧ t.members[i]? = some m' ∧ m'.rest = .done a := by
  let c : Moment := ⟨.ok [], .listed, ⟨0⟩, true⟩
  by_cases close : m.input = .close
  · cases rest : m.rest with
    | done a => exact ⟨s, m, a, Steps.refl s, found, rest⟩
    | ask k next =>
        obtain ⟨u, first, stop⟩ := closes_stop run found close rest c
        obtain ⟨v, second, done⟩ := closes_done (run.trans first) stop c rfl
        have onward := first.trans second
        obtain ⟨m', there, grows⟩ := Crew.Steps.grows onward found
        obtain ⟨t, m'', a, answers, last, returned⟩ :=
          leads (run.trans onward) (c := c) there rfl fun _ => done
        exact ⟨t, m'', a, onward.trans (answers.mono inTurn_of_answering), last, returned⟩
  · obtain ⟨t, m', a, answers, there, returned⟩ :=
      leads run (c := c) found rfl fun same => absurd same close
    exact ⟨t, m', a, answers.mono inTurn_of_answering, there, returned⟩

end Leads

/-- **Close ends the loop.**  With any number of callers of Reload, Status and Close: the loop
closes `done` at most once; when a Close has returned, no round is under way, then and ever after,
and none begins; and no goroutine can get stuck, neither a Close that waits for the loop nor one
that waits for `reloadMu`. -/
theorem close_stops_loop (go : Runtime) (yaml : GoString → Decoded) (l₀ : Loader) (interval : Int)
    (s : Goroutines) (run : Reaches go yaml (Crew.fresh (Site.new l₀ interval)) s) :
    (∀ (i : ℕ) (m : TaskState) next, s.members[i]? = some m → m.rest = .ask .closeDone next →
      s.shared.done = false) ∧
    (∀ m ∈ s.members, m.rest = .done .closed → ∀ t, Reaches go yaml s t →
      (∀ m' ∈ t.members, m'.input = .round → ∃ a, m'.rest = .done a) ∧
        inTurn t (.enter .round) = false) ∧
    ∀ (i : ℕ) (m : TaskState), s.members[i]? = some m →
      ∃ (t : Goroutines) (m' : TaskState) (a : TaskResult), Reaches go yaml s t ∧
        t.members[i]? = some m' ∧ m'.rest = .done a := by
  refine ⟨fun i m next found asks => open_of_asks_closeDone run found asks, ?_,
    fun i m found => returns run found⟩
  intro m member closed t later
  have follows := Crew.Steps.follows run m member
  rw [closed] at follows
  have ran : TaskRun go yaml m.input m.trace .closed := follows.returned.of_always (task_runs _)
  have done : s.shared.done = true := by
    refine done_of_waitDone run member ?_
    generalize m.input = task, m.trace = trace at ran ⊢
    cases ran
    exact List.mem_cons_of_mem _ List.mem_cons_self
  exact over_of_done (run.trans later) ((shutting_later later).done done)

/-- A tick, a Close, and a Reload that has the lock the loop waits for. -/
def crossing : List LoaderLabel :=
  [.enter .round, .answer 0 (finding []), .enter .close, .answer 1 (finding []), .enter .reload,
    .answer 2 (finding [])]

theorem close_stops_loop_crossing :
    ∃ s m, execWhile (loaderStep .plain Served.versionsYaml) inTurn
        (Crew.fresh (Site.new Served.firstLoader 1)) crossing = some s ∧
      s.members[1]? = some m ∧ m.input = .close ∧
      ∃ (t : Goroutines) (m' : TaskState) (a : TaskResult),
        Reaches .plain Served.versionsYaml s t ∧ t.members[1]? = some m' ∧ m'.rest = .done a := by
  have ran : execWhile (loaderStep .plain Served.versionsYaml) inTurn
      (Crew.fresh (Site.new Served.firstLoader 1)) crossing = some _ := rfl
  have reached : Reaches .plain Served.versionsYaml _ _ := steps_of_execWhile ran
  refine ⟨_, _, ran, rfl, rfl, ?_⟩
  exact (close_stops_loop .plain Served.versionsYaml Served.firstLoader 1 _ reached).2.2 1 _ rfl

end SentryGate.Policy
