/-
# Policy.ReloadCalls -- the loader with all its goroutines

`Reload`, `Status`, `Close` and `loop` of `internal/policy/loader.go`, operation by operation:
`Reload` takes `reloadMu`, reads the file, loads the active snapshot, and writes what comes of it
before it gives `reloadMu` back.  Any number of callers run side by side with the reload loop.
What is done under `mu` is one operation.

Reloads do not mix (`reloads_atomic`): the loader is what `Loader.reload` makes of the first one,
with the file's contents in the order in which they were read.  A Reload that was overtaken never
brings an older file back, and each returns the error of its own turn.
-/
import SentryGate.Policy.StatusCalls
import SentryGate.Theory.Critical

namespace SentryGate.Policy

open Theory Theory.Text Theory.Machine Theory.Counting Contracts

set_option autoImplicit false

/-! ## Operations -/

inductive LoaderCall where
  | lockReload
  | unlockReload
  | readFile
  | currentSnapshot
  | mapOrder
  /-- This and the next three are done under `mu`; what they write of the clock is the answer. -/
  | clearError
  | recordError (badKey err : GoString)
  | activate (cur next : Snapshot)
  | lockedStatus (cur : Snapshot)
  /-- `select` of the loop: a tick, or `stop` is closed. -/
  | select
  | closeDone
  /-- `closeOnce.Do`. -/
  | closeStop
  | waitDone

abbrev LoaderCall.Answer : LoaderCall → Type
  | .readFile => Except GoString GoString
  | .currentSnapshot => Snapshot
  | .mapOrder => MapOrder
  | .recordError _ _ => Time
  | .activate _ _ => Time
  | .lockedStatus _ => Status
  | .select => Bool
  | _ => Unit

abbrev Goroutine (β : Type) := Dialogue LoaderCall.Answer β

def LoaderCall.ask (k : LoaderCall) : Goroutine k.Answer := Dialogue.call k

section Programs

variable (go : Runtime) (yaml : GoString → Decoded)

/-- `Reload`. -/
def reloadCalls : Goroutine (Option GoString) := do
  let _ ← LoaderCall.ask .lockReload
  match ← LoaderCall.ask .readFile with
  | .error text =>
      let err := ascii "policy: read: " ++ text
      let _ ← LoaderCall.ask (.recordError (ascii "read:" ++ err) err)
      let _ ← LoaderCall.ask .unlockReload
      return some err
  | .ok raw =>
      let cur ← LoaderCall.ask .currentSnapshot
      let digest := rawDigest go raw
      if digest = cur.digest then
        let _ ← LoaderCall.ask .clearError
        let _ ← LoaderCall.ask .unlockReload
        return none
      else
        let maps ← LoaderCall.ask .mapOrder
        match parse go yaml maps raw with
        | .error err =>
            let _ ← LoaderCall.ask (.recordError digest err)
            let _ ← LoaderCall.ask .unlockReload
            return some err
        | .ok next =>
            let _ ← LoaderCall.ask (.activate cur next)
            let _ ← LoaderCall.ask .unlockReload
            return none

/-- What a goroutine is for; a round is one turn of `loop`. -/
inductive Task where
  | reload
  | status
  | round
  | close
  deriving DecidableEq

inductive TaskResult where
  | reloaded (err : Option GoString)
  | status (st : Status)
  | ticked
  | stopped
  | closed
  deriving DecidableEq

def taskCalls : Task → Goroutine TaskResult
  | .reload => do
      let err ← reloadCalls go yaml
      return .reloaded err
  | .status => do
      let cur ← LoaderCall.ask .currentSnapshot
      let st ← LoaderCall.ask (.lockedStatus cur)
      return .status st
  | .round => do
      if ← LoaderCall.ask .select then
        let _ ← reloadCalls go yaml
        return .ticked
      else
        let _ ← LoaderCall.ask .closeDone
        return .stopped
  | .close => do
      let _ ← LoaderCall.ask .closeStop
      let _ ← LoaderCall.ask .waitDone
      return .closed

end Programs

/-! ## What goroutines share -/

structure Site where
  loader : Loader
  /-- How many hold `reloadMu`. -/
  locked : ℕ
  /-- What the file system answered so far. -/
  reads : List (Except GoString GoString)
  /-- Whether `stop` and `done` are closed. -/
  stop : Bool
  done : Bool
  /-- Whether `NewLoader` starts the loop. -/
  loops : Bool

/-- What `NewLoader` returns. -/
def Site.new (loader : Loader) (interval : Int) : Site where
  loader
  locked := 0
  reads := []
  stop := false
  done := decide (interval ≤ 0)
  loops := decide (0 < interval)

/-- What the world has ready for an operation. -/
structure Moment where
  read : Except GoString GoString
  maps : MapOrder
  now : Time
  ticked : Bool

/-- The commit of a policy that is new, where `cur` was active before. -/
def Loader.activateFrom (l : Loader) (cur next : Snapshot) (now : Time) : Loader :=
  { l.clearError with
    current := next
    loadedAt := now
    log := l.log ++ [.reloaded next.version next.digest cur.version cur.digest] ++
      if next.maxParallelTasks ≠ cur.maxParallelTasks
        then [.maxParallelTasksChanged next.maxParallelTasks] else [] }

/-- How an operation goes; `none` while it waits, and where Go would panic. -/
def Site.reply (c : Moment) (s : Site) : (k : LoaderCall) → Option (Site × k.Answer)
  | .lockReload => if s.locked = 0 then some ({ s with locked := 1 }, ()) else none
  | .unlockReload => if 0 < s.locked then some ({ s with locked := s.locked - 1 }, ()) else none
  | .readFile => some ({ s with reads := s.reads ++ [c.read] }, c.read)
  | .currentSnapshot => some (s, s.loader.current)
  | .mapOrder => some (s, c.maps)
  | .clearError => some ({ s with loader := s.loader.clearError }, ())
  | .recordError badKey err =>
      some ({ s with loader := s.loader.recordError badKey err c.now }, c.now)
  | .activate cur next => some ({ s with loader := s.loader.activateFrom cur next c.now }, c.now)
  | .lockedStatus cur => some (s, s.loader.statusOf cur)
  | .select => if c.ticked then some (s, true) else if s.stop then some (s, false) else none
  | .closeDone => if s.done then none else some ({ s with done := true }, ())
  | .closeStop => some ({ s with stop := true }, ())
  | .waitDone => if s.done then some (s, ()) else none

abbrev Goroutines := Crew LoaderCall.Answer Site Task TaskResult

abbrev LoaderLabel := Crew.Label Task Moment Empty

abbrev TaskState := Member LoaderCall.Answer Task TaskResult

def loaderRules (go : Runtime) (yaml : GoString → Decoded) :
    Crew.Rules LoaderCall.Answer Site Task TaskResult Moment Empty where
  program := taskCalls go yaml
  reply := Site.reply
  other _ n := n.elim

abbrev loaderStep (go : Runtime) (yaml : GoString → Decoded) :
    Goroutines → LoaderLabel → Option Goroutines :=
  Crew.step (loaderRules go yaml)

/-! ## Sections -/

/-- What an operation does to `reloadMu`. -/
def reloadMu : Sigma LoaderCall.Answer → Use
  | ⟨.lockReload, _⟩ => .take
  | ⟨.unlockReload, _⟩ => .give
  | _ => .neither

/-- The operations of a Reload that has `reloadMu`. -/
def LoaderCall.inside : LoaderCall → Bool
  | .unlockReload | .readFile | .currentSnapshot | .mapOrder | .clearError => true
  | .recordError _ _ | .activate _ _ => true
  | _ => false

/-- The operations made without it. -/
def LoaderCall.outside : LoaderCall → Bool
  | .lockReload | .currentSnapshot | .lockedStatus _ | .select | .closeDone | .closeStop => true
  | .waitDone => true
  | _ => false

def Free (held : Bool) (k : LoaderCall) : Prop := (if held then k.inside else k.outside) = true

/-- What `reloadMu` protects. -/
structure Guarded where
  loader : Loader
  reads : List (Except GoString GoString)

def Site.guarded (s : Site) : Guarded := ⟨s.loader, s.reads⟩

/-- What an operation does to it. -/
def Acts (d : Guarded) (x : Sigma LoaderCall.Answer) (d' : Guarded) : Prop :=
  match x with
  | ⟨.readFile, r⟩ => d' = { d with reads := d.reads ++ [r] }
  | ⟨.currentSnapshot, cur⟩ => cur = d.loader.current ∧ d' = d
  | ⟨.clearError, _⟩ => d' = { d with loader := d.loader.clearError }
  | ⟨.recordError badKey err, now⟩ => d' = { d with loader := d.loader.recordError badKey err now }
  | ⟨.activate cur next, now⟩ => d' = { d with loader := d.loader.activateFrom cur next now }
  | _ => d' = d

section Lock

variable {go : Runtime} {yaml : GoString → Decoded}

/-- Everything an answer can do to what is shared. -/
inductive Answered (s : Site) : (k : LoaderCall) → Site → k.Answer → Prop where
  | lock (unlocked : s.locked = 0) : Answered s .lockReload { s with locked := 1 } ()
  | unlock (locked : 0 < s.locked) : Answered s .unlockReload { s with locked := s.locked - 1 } ()
  | read (r : Except GoString GoString) : Answered s .readFile { s with reads := s.reads ++ [r] } r
  | current : Answered s .currentSnapshot s s.loader.current
  | order (maps : MapOrder) : Answered s .mapOrder s maps
  | cleared : Answered s .clearError { s with loader := s.loader.clearError } ()
  | recorded (badKey err : GoString) (now : Time) :
      Answered s (.recordError badKey err)
        { s with loader := s.loader.recordError badKey err now } now
  | activated (cur next : Snapshot) (now : Time) :
      Answered s (.activate cur next) { s with loader := s.loader.activateFrom cur next now } now
  | status (cur : Snapshot) : Answered s (.lockedStatus cur) s (s.loader.statusOf cur)
  | ticked : Answered s .select s true
  | stopped (stop : s.stop = true) : Answered s .select s false
  | done (before : s.done = false) : Answered s .closeDone { s with done := true } ()
  | stop : Answered s .closeStop { s with stop := true } ()
  | waited (done : s.done = true) : Answered s .waitDone s ()

theorem reply_answered {c : Moment} {s s' : Site} {k : LoaderCall} {r : k.Answer}
    (given : s.reply c k = some (s', r)) : Answered s k s' r := by
  cases k with
  | lockReload =>
      simp only [Site.reply] at given
      split at given
      · rename_i unlocked
        cases given
        exact .lock unlocked
      · cases given
  | unlockReload =>
      simp only [Site.reply] at given
      split at given
      · rename_i locked
        cases given
        exact .unlock locked
      · cases given
  | readFile => cases given; exact .read _
  | currentSnapshot => cases given; exact .current
  | mapOrder => cases given; exact .order _
  | clearError => cases given; exact .cleared
  | recordError badKey err => cases given; exact .recorded badKey err _
  | activate cur next => cases given; exact .activated cur next _
  | lockedStatus cur => cases given; exact .status cur
  | select =>
      simp only [Site.reply] at given
      split at given
      · cases given
        exact .ticked
      · split at given
        · rename_i stop
          cases given
          exact .stopped stop
        · cases given
  | closeDone =>
      simp only [Site.reply] at given
      split at given
      · cases given
      · rename_i before
        cases given
        exact .done (by simpa using before)
  | closeStop => cases given; exact .stop
  | waitDone =>
      simp only [Site.reply] at given
      split at given
      · rename_i done
        cases given
        exact .waited done
      · cases given

theorem balanced_reloadCalls : (reloadCalls go yaml).Balanced reloadMu Free false := by
  refine ⟨rfl, fun _ => ⟨rfl, rfl, fun file => ⟨trivial, ?_⟩⟩⟩
  cases file with
  | error text => exact ⟨rfl, fun _ => ⟨trivial, rfl, fun _ => ⟨rfl, rfl⟩⟩⟩
  | ok raw =>
      refine ⟨rfl, fun cur => ⟨trivial, ?_⟩⟩
      by_cases same : rawDigest go raw = cur.digest
      · simp only [Dialogue.bind, if_pos same]
        exact ⟨rfl, fun _ => ⟨trivial, rfl, fun _ => ⟨rfl, rfl⟩⟩⟩
      · simp only [Dialogue.bind, if_neg same]
        refine ⟨rfl, fun maps => ⟨trivial, ?_⟩⟩
        cases parsed : parse go yaml maps raw with
        | error err =>
            simp only [Dialogue.bind, parsed]
            exact ⟨rfl, fun _ => ⟨trivial, rfl, fun _ => ⟨rfl, rfl⟩⟩⟩
        | ok next =>
            simp only [Dialogue.bind, parsed]
            exact ⟨rfl, fun _ => ⟨trivial, rfl, fun _ => ⟨rfl, rfl⟩⟩⟩

theorem balanced_taskCalls (task : Task) : (taskCalls go yaml task).Balanced reloadMu Free false := by
  cases task with
  | reload => exact balanced_reloadCalls.bind fun err => rfl
  | status => exact ⟨rfl, fun cur => ⟨trivial, rfl, fun st => ⟨trivial, rfl⟩⟩⟩
  | round =>
      refine ⟨rfl, fun ticked => ⟨trivial, ?_⟩⟩
      cases ticked with
      | true => exact balanced_reloadCalls.bind fun err => rfl
      | false => exact ⟨rfl, fun _ => ⟨trivial, rfl⟩⟩
  | close => exact ⟨rfl, fun _ => ⟨trivial, rfl, fun _ => ⟨trivial, rfl⟩⟩⟩

/-- `reloadMu` is a lock, and who has it is never kept waiting. -/
theorem reloadMu_permits :
    Crew.Permits (loaderRules go yaml) reloadMu Free Site.locked fun _ => 1 where
  program := balanced_taskCalls
  counts := by
    intro c s k s' r given
    cases reply_answered given with
    | lock unlocked =>
        rw [unlocked]
        exact rfl
    | unlock locked => exact (Nat.sub_add_cancel locked).symm
    | _ => rfl
  bounded := by
    intro c s k s' r given within
    cases reply_answered given with
    | lock unlocked => exact Nat.le_refl 1
    | unlock locked => exact (Nat.sub_le _ _).trans within
    | _ => exact within
  fixed _ := rfl
  other := by
    intro s n
    exact n.elim
  answers := by
    intro c s k inside locked
    cases k with
    | unlockReload => simp [loaderRules, Site.reply, locked]
    | _ => first | rfl | cases inside

/-- It protects the loader and what was read for it. -/
theorem reloadMu_critical :
    Crew.Critical (loaderRules go yaml) reloadMu Free Site.locked (fun _ => 1) Site.guarded
      Acts where
  permits := reloadMu_permits
  acts := by
    intro c s k s' r given
    cases reply_answered given with
    | current => exact ⟨rfl, rfl⟩
    | _ => exact rfl
  quiet := by
    intro c s k s' r given outside
    cases reply_answered given <;> first | rfl | cases outside
  other := by
    intro s n
    exact n.elim

end Lock

/-! ## What a goroutine asks -/

section Runs

variable {go : Runtime} {yaml : GoString → Decoded}

/-- What a Reload does while it has `reloadMu`, and what it returns. -/
inductive Reloading (go : Runtime) (yaml : GoString → Decoded) :
    List (Sigma LoaderCall.Answer) → Option GoString → Prop where
  | unreadable (text : GoString) (now : Time) :
      Reloading go yaml
        [⟨.readFile, .error text⟩,
          ⟨.recordError (ascii "read:" ++ (ascii "policy: read: " ++ text))
            (ascii "policy: read: " ++ text), now⟩]
        (some (ascii "policy: read: " ++ text))
  | unchanged (raw : GoString) (cur : Snapshot) (same : rawDigest go raw = cur.digest) :
      Reloading go yaml
        [⟨.readFile, .ok raw⟩, ⟨.currentSnapshot, cur⟩, ⟨.clearError, ()⟩] none
  | rejected (raw : GoString) (cur : Snapshot) (maps : MapOrder) (err : GoString) (now : Time)
      (other : rawDigest go raw ≠ cur.digest) (failed : parse go yaml maps raw = .error err) :
      Reloading go yaml
        [⟨.readFile, .ok raw⟩, ⟨.currentSnapshot, cur⟩, ⟨.mapOrder, maps⟩,
          ⟨.recordError (rawDigest go raw) err, now⟩]
        (some err)
  | activated (raw : GoString) (cur : Snapshot) (maps : MapOrder) (next : Snapshot) (now : Time)
      (other : rawDigest go raw ≠ cur.digest) (parsed : parse go yaml maps raw = .ok next) :
      Reloading go yaml
        [⟨.readFile, .ok raw⟩, ⟨.currentSnapshot, cur⟩, ⟨.mapOrder, maps⟩,
          ⟨.activate cur next, now⟩]
        none

/-- The section of a Reload, without the Lock. -/
abbrev section_ (body : List (Sigma LoaderCall.Answer)) : List (Sigma LoaderCall.Answer) :=
  body ++ [⟨.unlockReload, ()⟩]

/-- What a goroutine asks and hears until it returns. -/
inductive TaskRun (go : Runtime) (yaml : GoString → Decoded) :
    Task → List (Sigma LoaderCall.Answer) → TaskResult → Prop where
  | reloaded {body : List (Sigma LoaderCall.Answer)} {err : Option GoString}
      (reloading : Reloading go yaml body err) :
      TaskRun go yaml .reload (⟨.lockReload, ()⟩ :: section_ body) (.reloaded err)
  | status (cur : Snapshot) (st : Status) :
      TaskRun go yaml .status [⟨.currentSnapshot, cur⟩, ⟨.lockedStatus cur, st⟩] (.status st)
  | ticked {body : List (Sigma LoaderCall.Answer)} {err : Option GoString}
      (reloading : Reloading go yaml body err) :
      TaskRun go yaml .round (⟨.select, true⟩ :: ⟨.lockReload, ()⟩ :: section_ body) .ticked
  | stopped : TaskRun go yaml .round [⟨.select, false⟩, ⟨.closeDone, ()⟩] .stopped
  | closed : TaskRun go yaml .close [⟨.closeStop, ()⟩, ⟨.waitDone, ()⟩] .closed

theorem reload_runs : (reloadCalls go yaml).Always fun trace err =>
    ∃ body, trace = ⟨.lockReload, ()⟩ :: section_ body ∧ Reloading go yaml body err := by
  simp only [reloadCalls, LoaderCall.ask, Dialogue.always_bind, Dialogue.always_call]
  intro _ file
  cases file with
  | error text =>
      intro now _
      exact ⟨_, rfl, .unreadable text now⟩
  | ok raw =>
      simp only [Dialogue.always_bind, Dialogue.always_call]
      intro cur
      by_cases same : rawDigest go raw = cur.digest
      · simp only [if_pos same]
        intro _ _
        exact ⟨_, rfl, .unchanged raw cur same⟩
      · simp only [if_neg same, Dialogue.always_bind, Dialogue.always_call]
        intro maps
        cases parsed : parse go yaml maps raw with
        | error err =>
            intro now _
            exact ⟨_, rfl, .rejected raw cur maps err now same parsed⟩
        | ok next =>
            intro now _
            exact ⟨_, rfl, .activated raw cur maps next now same parsed⟩

theorem task_runs (task : Task) : (taskCalls go yaml task).Always (TaskRun go yaml task) := by
  cases task with
  | reload =>
      refine (Dialogue.always_bind _ _).mpr (reload_runs.mono ?_)
      rintro _ err ⟨body, rfl, reloading⟩
      show TaskRun go yaml .reload (_ ++ []) _
      rw [List.append_nil]
      exact .reloaded reloading
  | status => exact fun cur st => .status cur st
  | round =>
      intro ticked
      cases ticked with
      | true =>
          refine (Dialogue.always_bind (reloadCalls go yaml) _).mpr (reload_runs.mono ?_)
          rintro _ err ⟨body, rfl, reloading⟩
          show TaskRun go yaml .round (_ :: (_ ++ [])) _
          rw [List.append_nil]
          exact .ticked reloading
      | false => exact fun _ => .stopped
  | close => exact fun _ _ => .closed

instance answer_nonempty (k : LoaderCall) : Nonempty k.Answer := by
  cases k with
  | readFile => exact ⟨.ok []⟩
  | currentSnapshot => exact ⟨testPolicy.snapshot⟩
  | mapOrder => exact ⟨.listed⟩
  | recordError badKey err => exact ⟨⟨0⟩⟩
  | activate cur next => exact ⟨⟨0⟩⟩
  | lockedStatus cur => exact ⟨⟨[], [], ⟨0⟩, 0, [], [], none⟩⟩
  | select => exact ⟨true⟩
  | _ => exact ⟨()⟩

/-- A goroutine on its way has asked the beginning of one of these. -/
theorem task_begins {task : Task} {trace : List (Sigma LoaderCall.Answer)}
    {rest : Goroutine TaskResult} (follows : (taskCalls go yaml task).Follows trace rest) :
    ∃ full a, trace <+: full ∧ TaskRun go yaml task full a := by
  obtain ⟨more, a, runs⟩ := follows.begins
  exact ⟨trace ++ more, a, List.prefix_append trace more, runs.of_always (task_runs task)⟩

/-- The one section of a goroutine, at any time. -/
inductive Sectioned (go : Runtime) (yaml : GoString → Decoded) :
    Dialogue.Sections LoaderCall.Answer → Prop where
  | outside : Sectioned go yaml ⟨[], none⟩
  | inside {body calls : List (Sigma LoaderCall.Answer)} {err : Option GoString}
      (reloading : Reloading go yaml body err) (part : calls <+: body) :
      Sectioned go yaml ⟨[], some calls⟩
  | behind {body : List (Sigma LoaderCall.Answer)} {err : Option GoString}
      (reloading : Reloading go yaml body err) : Sectioned go yaml ⟨[section_ body], none⟩

namespace Sectioned

variable {sec : Dialogue.Sections LoaderCall.Answer}

theorem closed_length (sectioned : Sectioned go yaml sec) : sec.closed.length ≤ 1 := by
  cases sectioned <;> simp

theorem of_closed (sectioned : Sectioned go yaml sec) {calls : List (Sigma LoaderCall.Answer)}
    (ended : calls ∈ sec.closed) :
    ∃ body err, Reloading go yaml body err ∧ calls = section_ body := by
  cases sectioned with
  | outside => cases ended
  | inside reloading part => cases ended
  | behind reloading => exact ⟨_, _, reloading, List.mem_singleton.mp ended⟩

theorem of_opened (sectioned : Sectioned go yaml sec) {calls : List (Sigma LoaderCall.Answer)}
    (opened : sec.opened = some calls) : ∃ body err, Reloading go yaml body err ∧ calls <+: body := by
  cases sectioned with
  | outside => cases opened
  | inside reloading part =>
      cases opened
      exact ⟨_, _, reloading, part⟩
  | behind reloading => cases opened

end Sectioned

theorem Reloading.plain {body : List (Sigma LoaderCall.Answer)} {err : Option GoString}
    (reloading : Reloading go yaml body err) : ∀ x ∈ body, reloadMu x = .neither := by
  cases reloading <;> simp [reloadMu]

theorem Reloading.sectioned {body trace : List (Sigma LoaderCall.Answer)} {err : Option GoString}
    (reloading : Reloading go yaml body err) (part : trace <+: ⟨.lockReload, ()⟩ :: section_ body) :
    Sectioned go yaml (Dialogue.sections reloadMu trace) := by
  rcases Dialogue.sections_single rfl rfl reloading.plain part with same | ⟨calls, within, same⟩ |
    same
  · rw [same]
    exact .outside
  · rw [same]
    exact .inside reloading within
  · rw [same]
    exact .behind reloading

theorem TaskRun.sectioned {task : Task} {full trace : List (Sigma LoaderCall.Answer)}
    {a : TaskResult} (run : TaskRun go yaml task full a) (part : trace <+: full) :
    Sectioned go yaml (Dialogue.sections reloadMu trace) := by
  -- three tasks never take the lock
  have without : (∀ x ∈ full, reloadMu x = .neither) →
      Sectioned go yaml (Dialogue.sections reloadMu trace) := by
    intro plain
    rw [Dialogue.sections_plain fun x member => plain x (part.subset member)]
    exact .outside
  cases run with
  | reloaded reloading => exact reloading.sectioned part
  | status cur st => exact without (by simp [reloadMu])
  | ticked reloading =>
      rcases List.prefix_cons_iff.mp part with rfl | ⟨calls, rfl, rest⟩
      · exact .outside
      · rw [Dialogue.sections_cons rfl]
        exact reloading.sectioned rest
  | stopped => exact without (by simp [reloadMu])
  | closed => exact without (by simp [reloadMu])

/-! ## What a section does -/

/-- The loader's surroundings, as a Reload finds them. -/
def Visit.hear (v : Visit) : Sigma LoaderCall.Answer → Visit
  | ⟨.readFile, read⟩ => { v with read }
  | ⟨.mapOrder, maps⟩ => { v with maps }
  | ⟨.recordError _ _, now⟩ => { v with now }
  | ⟨.activate _ _, now⟩ => { v with now }
  | _ => v

def visitOf (calls : List (Sigma LoaderCall.Answer)) : Visit :=
  calls.foldl Visit.hear ⟨.ok [], .listed, ⟨0⟩⟩

theorem activateFrom_current (l : Loader) (next : Snapshot) (now : Time) :
    l.activateFrom l.current next now = l.activate next now := rfl

/-- **By itself, a section is a Reload.** -/
theorem Reloading.ran {body : List (Sigma LoaderCall.Answer)} {err : Option GoString} {d d' : Guarded}
    (reloading : Reloading go yaml body err) (ran : Ran Acts d body d') :
    d.loader.reload go yaml (visitOf body) = (d'.loader, err) ∧
      d'.reads = d.reads ++ [(visitOf body).read] := by
  cases reloading with
  | unreadable text now =>
      obtain ⟨_, rfl, _, rfl, rfl⟩ := ran
      exact ⟨rfl, rfl⟩
  | unchanged raw cur same =>
      obtain ⟨_, rfl, _, ⟨rfl, rfl⟩, _, rfl, rfl⟩ := ran
      exact ⟨by simp [Loader.reload, visitOf, Visit.hear, same], rfl⟩
  | rejected raw cur maps err now other failed =>
      obtain ⟨_, rfl, _, ⟨rfl, rfl⟩, _, rfl, _, rfl, rfl⟩ := ran
      exact ⟨by simp [Loader.reload, visitOf, Visit.hear, other, failed], rfl⟩
  | activated raw cur maps next now other parsed =>
      obtain ⟨_, rfl, _, ⟨rfl, rfl⟩, _, rfl, _, rfl, rfl⟩ := ran
      refine ⟨?_, rfl⟩
      simp [Loader.reload, visitOf, Visit.hear, other, parsed, activateFrom_current]

/-- It reads, looks, and commits with its last call. -/
theorem Reloading.shape {body : List (Sigma LoaderCall.Answer)} {err : Option GoString}
    (reloading : Reloading go yaml body err) :
    ∃ read looks commit, body = ⟨.readFile, read⟩ :: (looks ++ [commit]) ∧
      ∀ x ∈ looks, ∀ d d', Acts d x d' → d' = d := by
  cases reloading with
  | unreadable text now => exact ⟨_, [], _, rfl, by simp⟩
  | unchanged raw cur same => exact ⟨_, [⟨.currentSnapshot, cur⟩], _, rfl, by simp [Acts]⟩
  | rejected raw cur maps err now other failed =>
      exact ⟨_, [⟨.currentSnapshot, cur⟩, ⟨.mapOrder, maps⟩], _, rfl, by simp [Acts]⟩
  | activated raw cur maps next now other parsed =>
      exact ⟨_, [⟨.currentSnapshot, cur⟩, ⟨.mapOrder, maps⟩], _, rfl, by simp [Acts]⟩

/-- In the middle of a section the loader is as before it, or as after it. -/
theorem Reloading.begun {body calls : List (Sigma LoaderCall.Answer)} {err : Option GoString}
    {d d' : Guarded} (reloading : Reloading go yaml body err) (part : calls <+: body)
    (ran : Ran Acts d calls d') :
    ∃ (last : List Visit) (pending : List (Except GoString GoString)),
      last.length + pending.length ≤ 1 ∧ d'.loader = d.loader.after go yaml last ∧
      d'.reads = d.reads ++ last.map Visit.read ++ pending := by
  by_cases whole : calls = body
  · subst whole
    obtain ⟨same, reads⟩ := reloading.ran ran
    refine ⟨[visitOf calls], [], Nat.le_refl 1, ?_, by simpa using reads⟩
    show d'.loader = (d.loader.reload go yaml (visitOf calls)).1
    rw [same]
  · -- short of its last call the section has read the file at most
    obtain ⟨read, looks, commit, rfl, quiet⟩ := reloading.shape
    rcases List.prefix_cons_iff.mp part with rfl | ⟨rest, rfl, part'⟩
    · obtain rfl : d' = d := ran
      exact ⟨[], [], Nat.zero_le 1, rfl, by simp⟩
    · rcases List.prefix_concat_iff.mp part' with rfl | within
      · exact absurd rfl whole
      · obtain ⟨e, reads, looked⟩ := ran
        obtain rfl : e = { d with reads := d.reads ++ [read] } := reads
        obtain rfl := looked.quiet fun x member => quiet x (within.subset member)
        exact ⟨[], [read], Nat.le_refl 1, rfl, by simp⟩

/-! ## All sections, one after the other -/

/-- Whose turn it was, and what was found. -/
abbrev Turn := ℕ × Visit

def turnsOf (order : List (ℕ × List (Sigma LoaderCall.Answer))) : List Turn :=
  order.map fun entry => (entry.1, visitOf entry.2)

/-- The loader after these turns. -/
abbrev Loader.turned (go : Runtime) (yaml : GoString → Decoded) (l : Loader) (turns : List Turn) :
    Loader :=
  l.after go yaml (turns.map Prod.snd)

/-- Every entry is the section of a Reload. -/
def Complete (go : Runtime) (yaml : GoString → Decoded)
    (order : List (ℕ × List (Sigma LoaderCall.Answer))) : Prop :=
  ∀ entry ∈ order, ∃ body err, Reloading go yaml body err ∧ entry.2 = section_ body

theorem Reloading.ran_section {body : List (Sigma LoaderCall.Answer)} {err : Option GoString}
    {d d' : Guarded} (reloading : Reloading go yaml body err) (ran : Ran Acts d (section_ body) d') :
    d.loader.reload go yaml (visitOf (section_ body)) = (d'.loader, err) ∧
      d'.reads = d.reads ++ [(visitOf (section_ body)).read] := by
  obtain ⟨e, inside, _, rfl, rfl⟩ := ran.split
  have same : visitOf (section_ body) = visitOf body := by
    rw [visitOf, List.foldl_append]
    rfl
  rw [same]
  exact reloading.ran inside

/-- **Sections one after the other are Reloads one after the other.** -/
theorem Complete.ran {order : List (ℕ × List (Sigma LoaderCall.Answer))} {d d' : Guarded}
    (complete : Complete go yaml order) (ran : Ran Acts d (order.flatMap Prod.snd) d') :
    d'.loader = d.loader.turned go yaml (turnsOf order) ∧
      d'.reads = d.reads ++ (turnsOf order).map fun turn => turn.2.read := by
  induction order generalizing d with
  | nil =>
      obtain rfl : d' = d := ran
      exact ⟨rfl, (List.append_nil _).symm⟩
  | cons entry order ih =>
      obtain ⟨e, first, rest⟩ := Ran.split ran
      obtain ⟨body, err, reloading, same⟩ := complete entry List.mem_cons_self
      rw [same] at first
      obtain ⟨reloaded, reads⟩ := reloading.ran_section first
      obtain ⟨loader', reads'⟩ := ih (fun other member => complete other (List.mem_cons_of_mem _ member)) rest
      have here : (d.loader.reload go yaml (visitOf entry.2)).1 = e.loader := by rw [same, reloaded]
      constructor
      · rw [loader', ← here]
        rfl
      · rw [reads', reads, ← same]
        simp [turnsOf]

/-- A goroutine that has reloaded did so in one section. -/
theorem TaskRun.reloads {task : Task} {trace : List (Sigma LoaderCall.Answer)} {a : TaskResult}
    (run : TaskRun go yaml task trace a)
    (reloads : a = .ticked ∨ ∃ err, a = .reloaded err) :
    ∃ body err, Reloading go yaml body err ∧
      (Dialogue.sections reloadMu trace).closed = [section_ body] ∧
      ∀ err', a = .reloaded err' → err' = err := by
  cases run with
  | reloaded reloading =>
      refine ⟨_, _, reloading, ?_, fun err' same => by cases same; rfl⟩
      rw [Dialogue.sections_whole rfl rfl reloading.plain]
  | ticked reloading =>
      refine ⟨_, _, reloading, ?_, fun err' same => by cases same⟩
      rw [Dialogue.sections_cons rfl, Dialogue.sections_whole rfl rfl reloading.plain]
  | _ => rcases reloads with same | ⟨err, same⟩ <;> cases same

end Runs

/-! ## Reloads one at a time -/

section Atomic

variable {go : Runtime} {yaml : GoString → Decoded} {l₀ : Loader} {s t : Goroutines}

/-- What the goroutines did comes to these turns, in this order. -/
structure Serial (go : Runtime) (yaml : GoString → Decoded) (l₀ : Loader) (s : Goroutines)
    (turns : List Turn) : Prop where
  /-- A turn is that of a goroutine that has begun; none has two. -/
  owners : ∀ turn ∈ turns, turn.1 < s.members.length
  single : (turns.map Prod.fst).Nodup
  /-- Who has reloaded had its turn, and returned the error of that turn. -/
  returned : ∀ i m, s.members[i]? = some m →
    m.rest = .done .ticked ∨ (∃ err, m.rest = .done (.reloaded err)) → i ∈ turns.map Prod.fst
  error : ∀ i m err, s.members[i]? = some m → m.rest = .done (.reloaded err) →
    ∀ before v behind, turns = before ++ (i, v) :: behind →
      ((l₀.turned go yaml before).reload go yaml v).2 = err
  /-- The loader is what the turns made of it, and perhaps one that is about to end; the file was
  read once for each, and perhaps for one that goes on. -/
  loader : ∃ (last : List Visit) (pending : List (Except GoString GoString)),
    last.length + pending.length ≤ 1 ∧ (s.shared.locked = 0 → last = [] ∧ pending = []) ∧
    s.shared.loader = l₀.after go yaml (turns.map Prod.snd ++ last) ∧
    s.shared.reads = (turns.map Prod.snd ++ last).map Visit.read ++ pending

/-- The sections of the goroutines explain the loader. -/
abbrev LoaderExplained (l₀ : Loader) (s : Goroutines)
    (order : List (ℕ × List (Sigma LoaderCall.Answer))) (d : Guarded) : Prop :=
  Crew.Explained reloadMu Site.guarded Acts ⟨l₀, []⟩ s order d

namespace Serial

variable {order : List (ℕ × List (Sigma LoaderCall.Answer))} {d : Guarded}

theorem sectioned (followed : Crew.Followed (loaderRules go yaml) s) {m : TaskState}
    (member : m ∈ s.members) : Sectioned go yaml (Dialogue.sections reloadMu m.trace) := by
  obtain ⟨full, a, part, run⟩ := task_begins (followed m member)
  exact run.sectioned part

theorem own_length (explained : LoaderExplained l₀ s order d)
    (followed : Crew.Followed (loaderRules go yaml) s) (i : ℕ) :
    (order.filter fun entry => entry.1 = i).length ≤ 1 := by
  cases found : s.members[i]? with
  | none =>
      have none_own : order.filter (fun entry => entry.1 = i) = [] := by
        rw [List.filter_eq_nil_iff]
        intro entry listed
        have inside := explained.owners entry listed
        have outside := List.getElem?_eq_none_iff.mp found
        simp only [decide_eq_true_eq]
        omega
      rw [none_own]
      exact Nat.zero_le 1
  | some m =>
      have own := congrArg List.length (explained.own i m found)
      rw [List.length_map] at own
      rw [own]
      exact (sectioned followed (List.mem_of_getElem? found)).closed_length

theorem complete (explained : LoaderExplained l₀ s order d)
    (followed : Crew.Followed (loaderRules go yaml) s) : Complete go yaml order := by
  intro entry listed
  obtain ⟨m, found⟩ : ∃ m, s.members[entry.1]? = some m :=
    ⟨_, List.getElem?_eq_getElem (explained.owners entry listed)⟩
  have closed : entry.2 ∈ (Dialogue.sections reloadMu m.trace).closed := by
    rw [← explained.own entry.1 m found]
    exact List.mem_map_of_mem (List.mem_filter.mpr ⟨listed, by simp⟩)
  exact (sectioned followed (List.mem_of_getElem? found)).of_closed closed

/-- Who has reloaded has one section, with the error it returned. -/
theorem own_section (explained : LoaderExplained l₀ s order d)
    (followed : Crew.Followed (loaderRules go yaml) s) {i : ℕ} {m : TaskState} {a : TaskResult}
    (found : s.members[i]? = some m) (done : m.rest = .done a)
    (reloads : a = .ticked ∨ ∃ err, a = .reloaded err) :
    ∃ body err, Reloading go yaml body err ∧
      (order.filter fun entry => entry.1 = i).map Prod.snd = [section_ body] ∧
      ∀ err', a = .reloaded err' → err' = err := by
  have follows := followed m (List.mem_of_getElem? found)
  rw [done] at follows
  have run : TaskRun go yaml m.input m.trace a := follows.returned.of_always (task_runs m.input)
  rw [explained.own i m found]
  exact run.reloads reloads

/-- The loader at any moment, from the sections that have ended and the one under way. -/
theorem loader_of (explained : LoaderExplained l₀ s order d)
    (followed : Crew.Followed (loaderRules go yaml) s)
    (metered : Crew.Metered reloadMu Site.locked 1 s) :
    ∃ (last : List Visit) (pending : List (Except GoString GoString)),
      last.length + pending.length ≤ 1 ∧ (s.shared.locked = 0 → last = [] ∧ pending = []) ∧
      s.shared.loader = l₀.after go yaml ((turnsOf order).map Prod.snd ++ last) ∧
      s.shared.reads = ((turnsOf order).map Prod.snd ++ last).map Visit.read ++ pending := by
  obtain ⟨loader, reads⟩ := (complete explained followed).ran explained.ran
  have reads' : d.reads = ((turnsOf order).map Prod.snd).map Visit.read := by
    rw [reads, List.map_map]
    rfl
  by_cases free : ∀ m ∈ s.members, Dialogue.held reloadMu m.trace = false
  · have same : s.shared.guarded = d := explained.idle free
    refine ⟨[], [], Nat.zero_le 1, fun _ => ⟨rfl, rfl⟩, ?_, ?_⟩
    · rw [List.append_nil]
      exact (congrArg Guarded.loader same).trans loader
    · rw [List.append_nil, List.append_nil]
      exact (congrArg Guarded.reads same).trans reads'
  · obtain ⟨m, member, holds⟩ : ∃ m ∈ s.members, Dialogue.held reloadMu m.trace = true := by
      simpa using free
    obtain ⟨calls, opened⟩ := Dialogue.exists_opened holds
    obtain ⟨body, err, reloading, part⟩ := (sectioned followed member).of_opened opened
    obtain ⟨last, pending, short, loader', reads''⟩ :=
      reloading.begun part (explained.opened m member calls opened)
    refine ⟨last, pending, short, fun unlocked => ?_, ?_, ?_⟩
    · have locked : 0 < s.members.countP fun m => Dialogue.held reloadMu m.trace :=
        List.countP_pos_iff.mpr ⟨m, member, holds⟩
      rw [← metered.count, unlocked] at locked
      omega
    · show s.shared.guarded.loader = _
      rw [loader', loader]
      exact (afterInputs_append _ _ _ _).symm
    · show s.shared.guarded.reads = _
      rw [reads'', reads', List.map_append]

/-- **Reloads are serial** in every state their sections explain. -/
theorem of_explained (explained : LoaderExplained l₀ s order d)
    (followed : Crew.Followed (loaderRules go yaml) s)
    (metered : Crew.Metered reloadMu Site.locked 1 s) : Serial go yaml l₀ s (turnsOf order) where
  owners := by
    intro turn listed
    obtain ⟨entry, there, rfl⟩ := List.mem_map.mp listed
    exact explained.owners entry there
  single := by
    rw [turnsOf, List.map_map, List.nodup_iff_count_le_one]
    intro i
    rw [List.count_eq_countP, List.countP_map, List.countP_eq_length_filter]
    exact own_length explained followed i
  returned := by
    intro i m found returned
    obtain ⟨a, done, reloads⟩ : ∃ a, m.rest = .done a ∧ (a = .ticked ∨ ∃ err, a = .reloaded err) := by
      rcases returned with ticked | ⟨err, reloaded⟩
      · exact ⟨_, ticked, Or.inl rfl⟩
      · exact ⟨_, reloaded, Or.inr ⟨err, rfl⟩⟩
    obtain ⟨body, err, -, own, -⟩ := own_section explained followed found done reloads
    obtain ⟨entry, here, -⟩ := List.mem_map.mp (own ▸ List.mem_singleton_self (section_ body))
    obtain ⟨listed, mine⟩ := List.mem_filter.mp here
    rw [turnsOf, List.map_map]
    exact List.mem_map.mpr ⟨entry, listed, by simpa using mine⟩
  error := by
    intro i m err found done before v behind same
    obtain ⟨body, err', reloading, own, error⟩ :=
      own_section explained followed found done (Or.inr ⟨err, rfl⟩)
    rw [error err rfl]
    -- the entry of the turn is the section of this goroutine
    obtain ⟨first, rest, rfl, rfl, cut⟩ := List.map_eq_append_iff.mp same
    obtain ⟨entry, last, rfl, here, -⟩ := List.map_eq_cons_iff.mp cut
    cases here
    have mine : entry.2 = section_ body := by
      have among : entry.2 ∈ ((first ++ entry :: last).filter fun e => e.1 = entry.1).map Prod.snd :=
        List.mem_map_of_mem (List.mem_filter.mpr ⟨by simp, by simp⟩)
      rw [own] at among
      exact List.mem_singleton.mp among
    have ran := explained.ran
    rw [List.flatMap_append, List.flatMap_cons] at ran
    obtain ⟨e, before, rest⟩ := ran.split
    obtain ⟨e', here, -⟩ := rest.split
    have all := complete explained followed
    obtain ⟨loader, -⟩ := Complete.ran (fun other member => all other (List.mem_append_left _ member)) before
    rw [mine] at here
    obtain ⟨reloaded, -⟩ := reloading.ran_section here
    rw [loader] at reloaded
    rw [mine]
    exact congrArg Prod.snd reloaded
  loader := loader_of explained followed metered

end Serial

/-- The turns of every state reached, and of the states after it. -/
theorem serial_later {interval : Int}
    (run : Steps (loaderStep go yaml) anyStep (Crew.fresh (Site.new l₀ interval)) s)
    (later : Steps (loaderStep go yaml) anyStep s t) :
    ∃ turns more, Serial go yaml l₀ s turns ∧ Serial go yaml l₀ t (turns ++ more) := by
  obtain ⟨order, d, explained⟩ := reloadMu_critical.explained rfl rfl run
  obtain ⟨more, d', -, explained'⟩ := reloadMu_critical.later rfl rfl run explained later
  have whole := run.trans later
  have serial := Serial.of_explained explained (Crew.Steps.follows run)
    (reloadMu_permits.metered rfl run).2
  have serial' := Serial.of_explained explained' (Crew.Steps.follows whole)
    (reloadMu_permits.metered rfl whole).2
  rw [turnsOf, List.map_append] at serial'
  exact ⟨_, _, serial, serial'⟩

/-- The bytes of what was read. -/
def bytesRead (reads : List (Except GoString GoString)) : List GoString :=
  reads.flatMap fun
    | .error _ => []
    | .ok raw => [raw]

theorem bytesRead_visits (visits : List Visit) :
    bytesRead (visits.map Visit.read) = visits.flatMap Visit.bytes := by
  rw [bytesRead, List.flatMap_map]
  rfl

/-- The active policy is the newest one, after any reloads. -/
theorem tracks_after {raw₀ : GoString} {maps₀ : MapOrder} {visits : List Visit}
    (parsed : parse go yaml maps₀ raw₀ = .ok l₀.current)
    (free : go.Separates (raw₀ :: visits.flatMap Visit.bytes)) :
    Tracks go yaml (raw₀ :: visits.flatMap Visit.bytes) (l₀.after go yaml visits).current := by
  have backed : Backed go yaml (raw₀ :: visits.flatMap Visit.bytes) l₀ :=
    ⟨raw₀, List.mem_cons_self, maps₀, parsed⟩
  have related := afterInputs_related (R := fun l r => l.view = r ∧ Backed go yaml _ l)
    (answer_simulates free) ⟨rfl, backed⟩ visits
    fun v member raw bytes => List.mem_cons_of_mem _ (List.mem_flatMap.mpr ⟨v, member, bytes⟩)
  have first : Tracks go yaml [raw₀] l₀.view.current :=
    ⟨raw₀, MostRecent.of_last [] ⟨maps₀, _, parsed⟩, (parse_ok parsed).2⟩
  have current : (l₀.after go yaml visits).current = _ := congrArg Reparsing.current related.1
  rw [current]
  exact first.run visits

/-- The active policy is the newest one that was read, a Reload that goes on aside. -/
theorem Serial.tracks {turns : List Turn} (serial : Serial go yaml l₀ s turns) {raw₀ : GoString}
    {maps₀ : MapOrder} (parsed : parse go yaml maps₀ raw₀ = .ok l₀.current)
    (free : go.Separates (raw₀ :: bytesRead s.shared.reads)) :
    ∃ seen pending, s.shared.reads = seen ++ pending ∧ pending.length ≤ 1 ∧
      (s.shared.locked = 0 → pending = []) ∧
      Tracks go yaml (raw₀ :: bytesRead seen) s.shared.loader.current := by
  obtain ⟨last, pending, short, idle, loader, reads⟩ := serial.loader
  refine ⟨_, pending, reads, Nat.le_trans (Nat.le_add_left _ _) short, fun free => (idle free).2, ?_⟩
  rw [loader, bytesRead_visits]
  refine tracks_after parsed ?_
  rw [← bytesRead_visits]
  have fewer : ∀ x ∈ raw₀ :: bytesRead ((turns.map Prod.snd ++ last).map Visit.read),
      x ∈ raw₀ :: bytesRead s.shared.reads := by
    intro x member
    rw [reads, bytesRead, List.flatMap_append]
    rcases List.mem_cons.mp member with rfl | read
    · exact List.mem_cons_self
    · exact List.mem_cons_of_mem _ (List.mem_append_left _ read)
  exact fun x hx y hy => free x (fewer x hx) y (fewer y hy)

/-- **Reloads do not mix.**  With any number of goroutines, in any order of their operations: the
loader is what Reloads one after the other make of the first one, the file read once for each and
in that order; each returns the error of its own turn; and what has returned stays before what
begins later.  So the active policy is always the newest valid one that was read: a Reload that
was overtaken never brings an older file back. -/
theorem reloads_atomic (go : Runtime) (yaml : GoString → Decoded) (raw₀ : GoString)
    (maps₀ : MapOrder) (now₀ : Time) (l₀ : Loader) (interval : Int) (s t : Goroutines)
    (started : newLoader go yaml ⟨.ok raw₀, maps₀, now₀⟩ = .ok l₀)
    (run : Steps (loaderStep go yaml) anyStep (Crew.fresh (Site.new l₀ interval)) s)
    (later : Steps (loaderStep go yaml) anyStep s t) :
    (∃ turns more, Serial go yaml l₀ s turns ∧ Serial go yaml l₀ t (turns ++ more)) ∧
    (go.Separates (raw₀ :: bytesRead s.shared.reads) →
      ∃ seen pending, s.shared.reads = seen ++ pending ∧ pending.length ≤ 1 ∧
        (s.shared.locked = 0 → pending = []) ∧
        Tracks go yaml (raw₀ :: bytesRead seen) s.shared.loader.current) := by
  obtain ⟨turns, more, serial, serial'⟩ := serial_later run later
  exact ⟨⟨turns, more, serial, serial'⟩, serial.tracks (newLoader_ok started).2⟩

/-- What an operation finds: this file. -/
def finding (raw : GoString) : Moment := ⟨.ok raw, .listed, ⟨2⟩, true⟩

/-- Two Reloads begin; the second has the lock first, and the file is new by then.  The first one
waits for it and finds the file unchanged. -/
def overlapping : List LoaderLabel :=
  [.enter .reload, .enter .reload] ++ List.replicate 6 (.answer 1 (finding (ascii "two"))) ++
    List.replicate 5 (.answer 0 (finding (ascii "two")))

theorem reloads_atomic_overlapping :
    ∃ s, exec (loaderStep .plain Served.versionsYaml)
        (Crew.fresh (Site.new Served.firstLoader 1)) overlapping = some s ∧
      ∃ seen pending, s.shared.reads = seen ++ pending ∧ pending.length ≤ 1 ∧
        (s.shared.locked = 0 → pending = []) ∧
        Tracks .plain Served.versionsYaml (ascii "one" :: bytesRead seen)
          s.shared.loader.current := by
  have runs : (exec (loaderStep .plain Served.versionsYaml)
      (Crew.fresh (Site.new Served.firstLoader 1)) overlapping).isSome = true := by decide +kernel
  obtain ⟨s, ran⟩ := Option.isSome_iff_exists.mp runs
  exact ⟨s, ran, (reloads_atomic .plain Served.versionsYaml _ _ _ _ 1 s s Served.firstLoader_starts
    (steps_of_exec ran) (Steps.refl s)).2 fun _ _ _ _ same => same⟩

end Atomic

end SentryGate.Policy
