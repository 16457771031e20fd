/-
# Policy.StatusCalls -- Status while the policy is reloaded

`Status` takes two steps: it loads the active snapshot, and then, under the lock, reads the
load time and the error fields.  Any number of callers and reloads interleave; reloads are
serialized among themselves, and each commits in one locked step.

Between the two steps of a call a Reload may activate another policy.  The call then returns
the old version and digest with the new load time, which the loader never had at any instant
(`status_torn`).  Where no such Reload commits while a call is between its steps, every
Status is the state of the loader at one instant (`status_atomic`).
-/
import SentryGate.Policy.Loader

namespace SentryGate.Policy

open Theory.Text Theory.Machine Contracts

set_option autoImplicit false

/-! ## Callers and reloads -/

/-- The loader with its callers of Status. -/
structure Served where
  loader : Loader
  /-- The snapshot a caller has loaded and not yet reported. -/
  held : ℕ → Option Snapshot
  /-- What was returned, with the oldest first. -/
  returned : List Status

inductive ServedLabel where
  /-- `cur := l.current.Load()`. -/
  | begin (caller : ℕ)
  /-- The rest of `Status`, under the lock. -/
  | finish (caller : ℕ)
  | reload (v : Visit)

namespace Served

variable (go : Runtime) (yaml : GoString → Decoded)

def step (s : Served) : ServedLabel → Option Served
  | .begin caller =>
      if s.held caller = none then
        some { s with held := Function.update s.held caller (some s.loader.current) }
      else none
  | .finish caller =>
      (s.held caller).map fun cur =>
        { s with held := Function.update s.held caller none
                 returned := s.returned ++ [s.loader.statusOf cur] }
  | .reload v => some { s with loader := (s.loader.reload go yaml v).1 }

/-- No call has begun. -/
def initial (l : Loader) : Served := { loader := l, held := fun _ => none, returned := [] }

/-- What Status reports of a snapshot. -/
def Reported (s : Snapshot) : GoString × GoString × Int := (s.version, s.digest, s.maxParallelTasks)

/-- A Reload does not activate another policy while a call is between its two steps. -/
def Undisturbed (s : Served) : ServedLabel → Prop
  | .reload v => ∀ caller cur, s.held caller = some cur →
      Reported (s.loader.reload go yaml v).1.current = Reported cur
  | _ => True

end Served

/-! ## A call by itself -/

theorem Loader.statusOf_eq_iff (l : Loader) (cur : Snapshot) :
    l.statusOf cur = l.status ↔ Served.Reported cur = Served.Reported l.current := by
  unfold Loader.status Loader.statusOf Served.Reported
  by_cases failed : l.lastErr ≠ []
  · simp only [if_pos failed, Status.mk.injEq, Prod.mk.injEq]
    tauto
  · simp only [if_neg failed, Status.mk.injEq, Prod.mk.injEq]
    tauto

namespace Served

/-! ## Any run -/

section Runs

variable {go : Runtime} {yaml : GoString → Decoded}

/-- What callers hold is what the loader would report, and what was returned was its state at
an instant. -/
structure Whole (past : List Served) (s : Served) : Prop where
  held : ∀ caller cur, s.held caller = some cur → Reported cur = Reported s.loader.current
  returned : ∀ st ∈ s.returned, ∃ u ∈ past ++ [s], st = u.loader.status

theorem Whole.step {past : List Served} {s s' : Served} {label : ServedLabel} (whole : Whole past s)
    (undisturbed : Undisturbed go yaml s label) (taken : step go yaml s label = some s') :
    Whole (past ++ [s]) s' := by
  have earlier : ∀ st ∈ s.returned, ∃ u ∈ (past ++ [s]) ++ [s'], st = u.loader.status := by
    intro st member
    obtain ⟨u, seen, same⟩ := whole.returned st member
    exact ⟨u, List.mem_append_left _ seen, same⟩
  cases label with
  | begin caller =>
      simp only [Served.step] at taken
      split at taken
      · cases taken
        refine ⟨fun other cur holds => ?_, earlier⟩
        rcases eq_or_ne other caller with rfl | apart
        · simp only [Function.update_self, Option.some.injEq] at holds
          rw [holds]
        · simp only [Function.update_of_ne apart] at holds
          exact whole.held other cur holds
      · cases taken
  | finish caller =>
      obtain ⟨cur, holding, rfl⟩ := Option.map_eq_some_iff.mp taken
      refine ⟨fun other cur' holds => ?_, fun st member => ?_⟩
      · rcases eq_or_ne other caller with rfl | apart
        · simp at holds
        · simp only [Function.update_of_ne apart] at holds
          exact whole.held other cur' holds
      · rcases List.mem_append.mp member with before | last
        · exact earlier st before
        · have now := (s.loader.statusOf_eq_iff cur).mpr (whole.held caller cur holding)
          rw [List.mem_singleton.mp last, now]
          exact ⟨s, by simp, rfl⟩
  | reload v =>
      cases taken
      exact ⟨fun caller cur holds => (undisturbed caller cur holds).symm, earlier⟩

/-- **Every Status is the state of the loader at one instant**, for any callers and any
reloads, where no Reload activates another policy between the two steps of a call; and a call
that ends reports the loader as it is then exactly if it still holds the active policy. -/
theorem status_atomic (go : Runtime) (yaml : GoString → Decoded) (l : Loader) :
    (∀ past s, Path (step go yaml) (Undisturbed go yaml) (initial l) past s →
      ∀ st ∈ s.returned, ∃ u ∈ past ++ [s], st = u.loader.status) ∧
    ∀ (s : Served) caller cur, s.held caller = some cur →
      ∃ s', step go yaml s (.finish caller) = some s' ∧
        (s'.returned = s.returned ++ [s.loader.status] ↔
          Reported cur = Reported s.loader.current) := by
  constructor
  · intro past s path
    refine Whole.returned ?_
    induction path with
    | refl =>
        constructor
        · intro caller cur holds
          cases holds
        · intro st member
          cases member
    | tail _ undisturbed taken whole => exact whole.step undisturbed taken
  · intro s caller cur holding
    refine ⟨_, Option.map_eq_some_iff.mpr ⟨cur, holding, rfl⟩, ?_⟩
    rw [← s.loader.statusOf_eq_iff]
    simp

end Runs

/-! ## A torn Status -/

/-- The next version of the test policy. -/
def nextPolicy : Document := { testPolicy with version := ascii "v2" }

/-- The file with either version. -/
def versionsYaml (raw : GoString) : Decoded :=
  .document (if raw = ascii "one" then testPolicy else nextPolicy) false

/-- The snapshot of a version. -/
def versionOf (doc : Document) (raw : GoString) : Snapshot :=
  { doc.snapshot with digest := rawDigest .plain raw }

/-- The loader of the first version. -/
def firstLoader : Loader where
  current := versionOf testPolicy (ascii "one")
  loadedAt := ⟨1⟩
  lastErr := []
  lastErrAt := ⟨0⟩
  lastBadKey := []
  log := []

/-- The loader after the file was replaced. -/
def nextLoader : Loader := firstLoader.activate (versionOf nextPolicy (ascii "two")) ⟨2⟩

theorem firstLoader_starts :
    newLoader .plain versionsYaml ⟨.ok (ascii "one"), .listed, ⟨1⟩⟩ = .ok firstLoader := by
  have parsed : parse .plain versionsYaml .listed (ascii "one") =
      .ok (versionOf testPolicy (ascii "one")) :=
    parse_of_valid rfl testPolicy_valid .listed
  unfold newLoader load
  simp only [parsed]
  rfl

theorem firstLoader_reload :
    (firstLoader.reload .plain versionsYaml ⟨.ok (ascii "two"), .listed, ⟨2⟩⟩).1 = nextLoader := by
  have valid : Valid nextPolicy := by decide +kernel
  have parsed : parse .plain versionsYaml .listed (ascii "two") =
      .ok (versionOf nextPolicy (ascii "two")) :=
    parse_of_valid rfl valid .listed
  have other : rawDigest .plain (ascii "two") ≠ firstLoader.current.digest := by decide
  unfold Loader.reload
  simp only [if_neg other, parsed]
  rfl

/-- **A Status can mix two policies**: the file is replaced between the two steps of a call,
which returns the version and digest of the old policy with the load time of the new one. -/
theorem status_torn :
    ∃ past s st, newLoader .plain versionsYaml ⟨.ok (ascii "one"), .listed, ⟨1⟩⟩ = .ok firstLoader ∧
      Path (step .plain versionsYaml) anyStep (initial firstLoader) past s ∧ st ∈ s.returned ∧
      ∀ u ∈ past ++ [s], st ≠ u.loader.status := by
  have replaced : step .plain versionsYaml
      { initial firstLoader with
        held := Function.update (fun _ => none) 0 (some firstLoader.current) }
      (.reload ⟨.ok (ascii "two"), .listed, ⟨2⟩⟩) =
      some { loader := nextLoader
             held := Function.update (fun _ => none) 0 (some firstLoader.current)
             returned := [] } := by
    rw [← firstLoader_reload]
    rfl
  have idle : Path (step .plain versionsYaml) anyStep (initial firstLoader) []
      (initial firstLoader) := .refl
  have reloaded := (idle.tail (l := .begin 0) trivial rfl).tail trivial replaced
  refine ⟨_, _, nextLoader.statusOf firstLoader.current, firstLoader_starts,
    reloaded.tail (l := .finish 0) trivial rfl, by simp, ?_⟩
  have newer : nextLoader.statusOf firstLoader.current ≠ firstLoader.status := by
    intro same
    exact absurd (congrArg Status.loadedAt same) (by decide)
  have older : nextLoader.statusOf firstLoader.current ≠ nextLoader.status := by
    intro same
    exact absurd (congrArg Status.version same) (by decide)
  simp only [List.nil_append, List.cons_append, List.mem_cons, List.not_mem_nil, or_false]
  rintro u (rfl | rfl | rfl | rfl)
  · exact newer
  · exact newer
  · exact older
  · exact older

/-- The file is replaced; then it cannot be read between the two steps of a call, which reports
the new policy and that error. -/
theorem status_atomic_after_reload :
    ∃ past s st, Path (step .plain versionsYaml) (Undisturbed .plain versionsYaml)
        (initial firstLoader) past s ∧ s.returned = [st] ∧ st.version = ascii "v2" ∧
      st.lastReloadErrorAt = some ⟨3⟩ ∧ ∃ u ∈ past ++ [s], st = u.loader.status := by
  have idle : Path (step .plain versionsYaml) (Undisturbed .plain versionsYaml)
      (initial firstLoader) [] (initial firstLoader) := .refl
  have silent : Undisturbed .plain versionsYaml (initial firstLoader)
      (.reload ⟨.ok (ascii "two"), .listed, ⟨2⟩⟩) := by
    intro caller snap holds
    cases holds
  have replaced : step .plain versionsYaml (initial firstLoader)
      (.reload ⟨.ok (ascii "two"), .listed, ⟨2⟩⟩) = some (initial nextLoader) := by
    rw [← firstLoader_reload]
    rfl
  have begins : Undisturbed .plain versionsYaml (initial nextLoader) (.begin 0) := trivial
  have rejected : Undisturbed .plain versionsYaml
      { initial nextLoader with
        held := Function.update (fun _ => none) 0 (some nextLoader.current) }
      (.reload ⟨.error (ascii "gone"), .listed, ⟨3⟩⟩) := by
    -- a Reload that fails leaves the policy active that the call has loaded
    intro caller cur holds
    simp only [Function.update_apply] at holds
    split_ifs at holds
    cases holds
    rfl
  have ends : ∀ u, Undisturbed .plain versionsYaml u (.finish 0) := fun _ => trivial
  have path := (((idle.tail silent replaced).tail begins rfl).tail rejected rfl).tail (ends _) rfl
  have atomic := (status_atomic .plain versionsYaml firstLoader).1 _ _ path
  exact ⟨_, _, _, path, rfl, by decide, by decide, atomic _ List.mem_cons_self⟩

end Served

end SentryGate.Policy
