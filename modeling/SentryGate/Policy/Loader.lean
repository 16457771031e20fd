/-
# Policy.Loader -- the active policy, and reloading it

`Parse` of `internal/policy/schema.go` and the `Loader` of `loader.go`.  The YAML decoder is a
parameter: what it delivers for the bytes of a file.  Every call meets Go's maps in an order
of its own (`MapOrder`), and reads the file as it is then (`Visit`).

`Reparsing` is what the loader is for: a loader that parses the file every time.  `Reload`
skips the parse where the digest of the bytes is that of the active policy; its `view` is
still the re-parsing loader, over any sequence of good, bad, missing and restored files
(`loader_refines_reparsing`).  What carries this is that the active policy was parsed from
bytes with its digest (`Backed`).
-/
import SentryGate.Policy.Build
import SentryGate.Theory.Bytes
import SentryGate.Theory.Machine

namespace SentryGate.Policy

open Theory.Text Theory.Bytes Theory.Machine Contracts

set_option autoImplicit false

/-! ## Parse -/

/-- What the YAML decoder, with KnownFields, makes of a file. -/
inductive Decoded where
  /-- The first Decode reports io.EOF. -/
  | eof
  /-- The first Decode fails otherwise. -/
  | failed (text : GoString)
  /-- A document; `more` unless the second Decode reports io.EOF. -/
  | document (doc : Document) (more : Bool)

/-- The order in which one call meets the entries of a document's map. -/
structure MapOrder where
  order : Document → List (GoString × GoString)
  perm : ∀ doc, (order doc).Perm doc.environments

/-- `rawDigest`. -/
def rawDigest (go : Runtime) (raw : GoString) : GoString := hex (go.sha256 raw)

section Source

variable (go : Runtime) (yaml : GoString → Decoded)

/-- `Parse`. -/
def parse (maps : MapOrder) (raw : GoString) : Except GoString Snapshot :=
  match yaml raw with
  | .eof => .error (ascii "policy: document is empty")
  | .failed text => .error (ascii "policy: decode: " ++ text)
  | .document _ true => .error (ascii "policy: file must contain exactly one YAML document")
  | .document doc false =>
      match build go doc (maps.order doc) with
      | .error text => .error (ascii "policy: " ++ text)
      | .ok s => .ok { s with digest := rawDigest go raw }

/-! ## The loader -/

/-- What a call sees of its surroundings: the file or why it cannot be read, the order of
its maps, and the clock. -/
structure Visit where
  read : Except GoString GoString
  maps : MapOrder
  now : Time

/-- `Load`. -/
def load (v : Visit) : Except GoString Snapshot :=
  match v.read with
  | .error text => .error (ascii "policy: read: " ++ text)
  | .ok raw => parse go yaml v.maps raw

inductive LogLine where
  | reloaded (version digest previousVersion previousDigest : GoString)
  | maxParallelTasksChanged (configured : Int)
  | rejected (error activeVersion activeDigest : GoString)
  deriving DecidableEq

/-- `Loader`, from NewLoader on: the active policy is never nil. -/
structure Loader where
  current : Snapshot
  loadedAt : Time
  lastErr : GoString
  lastErrAt : Time
  lastBadKey : GoString
  log : List LogLine

/-- `NewLoader`. -/
def newLoader (v : Visit) : Except GoString Loader :=
  match load go yaml v with
  | .error text => .error text
  | .ok s =>
      .ok { current := s, loadedAt := v.now, lastErr := [], lastErrAt := ⟨0⟩, lastBadKey := [], log := [] }

namespace Loader

/-- `clearError`. -/
def clearError (l : Loader) : Loader := { l with lastErr := [], lastErrAt := ⟨0⟩, lastBadKey := [] }

/-- `recordError`. -/
def recordError (l : Loader) (badKey err : GoString) (now : Time) : Loader :=
  { l with
    lastErr := err
    lastErrAt := now
    lastBadKey := badKey
    log := if badKey ≠ l.lastBadKey
      then l.log ++ [.rejected err l.current.version l.current.digest] else l.log }

/-- The commit of a policy that is new. -/
def activate (l : Loader) (next : Snapshot) (now : Time) : Loader :=
  { l.clearError with
    current := next
    loadedAt := now
    log := l.log ++ [.reloaded next.version next.digest l.current.version l.current.digest] ++
      if next.maxParallelTasks ≠ l.current.maxParallelTasks
        then [.maxParallelTasksChanged next.maxParallelTasks] else [] }

/-- `Reload`: the loader after it, and the error it returns. -/
def reload (l : Loader) (v : Visit) : Loader × Option GoString :=
  match v.read with
  | .error text =>
      let err := ascii "policy: read: " ++ text
      (l.recordError (ascii "read:" ++ err) err v.now, some err)
  | .ok raw =>
      let digest := rawDigest go raw
      if digest = l.current.digest then (l.clearError, none)
      else
        match parse go yaml v.maps raw with
        | .error err => (l.recordError digest err v.now, some err)
        | .ok next => (l.activate next v.now, none)

end Loader

end Source

/-- What `Status` returns; `lastReloadErrorAt` is a nil pointer where there is no error. -/
structure Status where
  version : GoString
  digest : GoString
  loadedAt : Time
  maxParallelTasks : Int
  reloadStatus : GoString
  lastReloadError : GoString
  lastReloadErrorAt : Option Time
  deriving DecidableEq

/-- What `Status` reads under the lock, for a snapshot it loaded. -/
def Loader.statusOf (l : Loader) (cur : Snapshot) : Status :=
  let st : Status :=
    { version := cur.version
      digest := cur.digest
      loadedAt := l.loadedAt
      maxParallelTasks := cur.maxParallelTasks
      reloadStatus := ascii "ok"
      lastReloadError := []
      lastReloadErrorAt := none }
  if l.lastErr ≠ [] then
    { st with
      reloadStatus := ascii "error"
      lastReloadError := l.lastErr
      lastReloadErrorAt := some l.lastErrAt }
  else st

/-- `Status`, with no Reload in progress. -/
def Loader.status (l : Loader) : Status := l.statusOf l.current

/-! ## The loader that always parses -/

/-- A loader that parses the file every time: its policy, since when the policy has these
contents, and the last reload's error if it failed. -/
structure Reparsing where
  current : Snapshot
  loadedAt : Time
  failure : Option (GoString × Time)

namespace Reparsing

def reload (go : Runtime) (yaml : GoString → Decoded) (r : Reparsing) (v : Visit) :
    Reparsing × Option GoString :=
  match load go yaml v with
  | .error err => ({ r with failure := some (err, v.now) }, some err)
  | .ok s =>
      ({ current := s
         loadedAt := if s.digest = r.current.digest then r.loadedAt else v.now
         failure := none }, none)

def status (r : Reparsing) : Status where
  version := r.current.version
  digest := r.current.digest
  loadedAt := r.loadedAt
  maxParallelTasks := r.current.maxParallelTasks
  reloadStatus := if r.failure.isSome then ascii "error" else ascii "ok"
  lastReloadError := (r.failure.map Prod.fst).getD []
  lastReloadErrorAt := r.failure.map Prod.snd

end Reparsing

/-- The loader as the re-parsing loader it stands for. -/
def Loader.view (l : Loader) : Reparsing where
  current := l.current
  loadedAt := l.loadedAt
  failure := if l.lastErr = [] then none else some (l.lastErr, l.lastErrAt)

theorem Loader.status_view (l : Loader) : l.view.status = l.status := by
  unfold Loader.status Loader.statusOf Loader.view Reparsing.status
  by_cases clean : l.lastErr = [] <;> simp [clean]

/-! ## What Parse delivers -/

section Parse

variable {go : Runtime} {yaml : GoString → Decoded} {maps : MapOrder} {raw : GoString}

theorem parse_error_ne_nil {err : GoString} (failed : parse go yaml maps raw = .error err) :
    err ≠ [] := by
  have texts : ∀ text rest : GoString, text ≠ [] → text ++ rest ≠ [] := by
    intro text rest some
    simp [some]
  unfold parse at failed
  split at failed
  · cases failed
    decide
  · cases failed
    exact texts _ _ (by decide)
  · cases failed
    decide
  · split at failed <;> cases failed
    exact texts _ _ (by decide)

/-- A snapshot is parsed from bytes with its digest, whatever order the maps have. -/
theorem parse_ok {s : Snapshot} (parsed : parse go yaml maps raw = .ok s) :
    s.digest = rawDigest go raw ∧ ∀ maps', parse go yaml maps' raw = .ok s := by
  unfold parse at parsed
  split at parsed
  · cases parsed
  · cases parsed
  · cases parsed
  · rename_i doc decoded
    split at parsed
    · cases parsed
    · rename_i t built
      cases parsed
      refine ⟨rfl, fun maps' => ?_⟩
      have same : build go doc (maps'.order doc) = .ok t :=
        (build_ok_iff (maps'.perm doc)).mpr ((build_ok_iff (maps.perm doc)).mp built)
      unfold parse
      rw [decoded]
      simp only [same]

/-- A file with one valid document is accepted. -/
theorem parse_of_valid {doc : Document} (decoded : yaml raw = .document doc false)
    (valid : Valid doc) (maps : MapOrder) :
    parse go yaml maps raw = .ok { doc.snapshot with digest := rawDigest go raw } := by
  have built : build go doc (maps.order doc) = .ok doc.snapshot := valid.build (maps.perm doc)
  unfold parse
  rw [decoded]
  simp only [built]

end Parse

/-! ## One reload -/

section Reload

variable {go : Runtime} {yaml : GoString → Decoded} {seen : List GoString} {l : Loader} {v : Visit}

/-- The active policy was parsed from bytes that have been seen. -/
def Backed (go : Runtime) (yaml : GoString → Decoded) (seen : List GoString) (l : Loader) : Prop :=
  ∃ raw ∈ seen, ∃ maps, parse go yaml maps raw = .ok l.current

/-- The bytes a call reads. -/
def Visit.bytes (v : Visit) : List GoString :=
  match v.read with
  | .error _ => []
  | .ok raw => [raw]

/-- Where the digest of the bytes is that of the active policy, so is what they parse to. -/
theorem Backed.parse_same (backed : Backed go yaml seen l) (free : go.Separates seen)
    {raw : GoString} (read : raw ∈ seen) (same : rawDigest go raw = l.current.digest)
    (maps : MapOrder) : parse go yaml maps raw = .ok l.current := by
  obtain ⟨raw', read', maps', parsed⟩ := backed
  obtain ⟨digest, any⟩ := parse_ok parsed
  have equal : raw = raw' := by
    rw [digest] at same
    exact free raw read raw' read' (hex_injective same)
  rw [equal]
  exact any maps

theorem view_recordError {badKey err : GoString} (some_text : err ≠ []) (now : Time) :
    (l.recordError badKey err now).view = { l.view with failure := some (err, now) } := by
  simp [Loader.view, Loader.recordError, some_text]

/-- **One Reload is one step of the re-parsing loader.** -/
theorem reload_view (backed : Backed go yaml seen l) (free : go.Separates seen)
    (read : ∀ raw ∈ v.bytes, raw ∈ seen) :
    (l.reload go yaml v).2 = (l.view.reload go yaml v).2 ∧
      (l.reload go yaml v).1.view = (l.view.reload go yaml v).1 ∧
      Backed go yaml seen (l.reload go yaml v).1 := by
  unfold Loader.reload Reparsing.reload load
  unfold Visit.bytes at read
  cases file : v.read with
  | error text =>
      refine ⟨rfl, view_recordError ?_ v.now, backed⟩
      simp [ascii]
  | ok raw =>
      have known : raw ∈ seen := read raw (by rw [file]; exact List.mem_singleton_self raw)
      by_cases same : rawDigest go raw = l.current.digest
      · -- the shortcut: parsing would have delivered the active policy again
        have again := backed.parse_same free known same v.maps
        simp only [if_pos same, again]
        refine ⟨by trivial, ?_, backed⟩
        simp [Loader.view, Loader.clearError]
      · simp only [if_neg same]
        cases parsed : parse go yaml v.maps raw with
        | error err => exact ⟨rfl, view_recordError (parse_error_ne_nil parsed) v.now, backed⟩
        | ok next =>
            have fresh : next.digest ≠ l.current.digest := by
              rw [(parse_ok parsed).1]
              exact same
            refine ⟨rfl, ?_, raw, known, v.maps, parsed⟩
            simp [Loader.view, Loader.activate, Loader.clearError, fresh]

end Reload

/-! ## Any sequence of reloads -/

section Runs

variable {go : Runtime} {yaml : GoString → Decoded}

/-- What is seen of a Reload: the error it returns, and Current and Status after it. -/
def Loader.answer (go : Runtime) (yaml : GoString → Decoded) (l : Loader) (v : Visit) :
    Loader × Option GoString × Snapshot × Status :=
  let (l', err) := l.reload go yaml v
  (l', err, l'.current, l'.status)

def Reparsing.answer (go : Runtime) (yaml : GoString → Decoded) (r : Reparsing) (v : Visit) :
    Reparsing × Option GoString × Snapshot × Status :=
  let (r', err) := r.reload go yaml v
  (r', err, r'.current, r'.status)

/-- The loader after some reloads. -/
abbrev Loader.after (go : Runtime) (yaml : GoString → Decoded) (l : Loader) (visits : List Visit) :
    Loader :=
  afterInputs (Loader.answer go yaml) l visits

theorem answer_simulates {seen : List GoString} (free : go.Separates seen) (l : Loader)
    (r : Reparsing) (v : Visit) (read : ∀ raw ∈ v.bytes, raw ∈ seen)
    (related : l.view = r ∧ Backed go yaml seen l) :
    (l.answer go yaml v).2 = (r.answer go yaml v).2 ∧
      (l.answer go yaml v).1.view = (r.answer go yaml v).1 ∧
      Backed go yaml seen (l.answer go yaml v).1 := by
  obtain ⟨rfl, backed⟩ := related
  obtain ⟨error, view, kept⟩ := reload_view backed free read
  refine ⟨?_, view, kept⟩
  unfold Loader.answer Reparsing.answer
  simp only
  rw [error, ← Loader.status_view, view, ← view]
  rfl

/-- Parse accepts the bytes. -/
def Accepted (go : Runtime) (yaml : GoString → Decoded) (raw : GoString) : Prop :=
  ∃ maps s, parse go yaml maps raw = .ok s

/-- The last of these bytes that Parse accepts. -/
def MostRecent (go : Runtime) (yaml : GoString → Decoded) (reads : List GoString)
    (raw : GoString) : Prop :=
  ∃ before behind, reads = before ++ raw :: behind ∧ Accepted go yaml raw ∧
    ∀ later ∈ behind, ¬Accepted go yaml later

theorem MostRecent.of_last (reads : List GoString) {raw : GoString}
    (accepted : Accepted go yaml raw) : MostRecent go yaml (reads ++ [raw]) raw :=
  ⟨reads, [], rfl, accepted, by simp⟩

theorem MostRecent.skip {reads : List GoString} {raw later : GoString}
    (recent : MostRecent go yaml reads raw) (refused : ¬Accepted go yaml later) :
    MostRecent go yaml (reads ++ [later]) raw := by
  obtain ⟨before, behind, rfl, accepted, none⟩ := recent
  refine ⟨before, behind ++ [later], by simp, accepted, fun x member => ?_⟩
  rcases List.mem_append.mp member with earlier | last
  · exact none x earlier
  · rw [List.mem_singleton.mp last]
    exact refused

/-- The policy is what the last accepted bytes parse to. -/
def Tracks (go : Runtime) (yaml : GoString → Decoded) (reads : List GoString) (s : Snapshot) : Prop :=
  ∃ raw, MostRecent go yaml reads raw ∧ ∀ maps, parse go yaml maps raw = .ok s

theorem Tracks.reload {r : Reparsing} {reads : List GoString} (tracks : Tracks go yaml reads r.current)
    (v : Visit) : Tracks go yaml (reads ++ v.bytes) (r.reload go yaml v).1.current := by
  obtain ⟨raw, recent, parses⟩ := tracks
  unfold Reparsing.reload load Visit.bytes
  cases v.read with
  | error text => exact ⟨raw, by rwa [List.append_nil], parses⟩
  | ok next =>
      simp only
      cases parsed : parse go yaml v.maps next with
      | error err =>
          refine ⟨raw, recent.skip ?_, parses⟩
          rintro ⟨maps, s, accepted⟩
          rw [(parse_ok accepted).2 v.maps] at parsed
          cases parsed
      | ok s => exact ⟨next, .of_last reads ⟨v.maps, s, parsed⟩, (parse_ok parsed).2⟩

theorem Tracks.run {r : Reparsing} {reads : List GoString} (tracks : Tracks go yaml reads r.current)
    (visits : List Visit) :
    Tracks go yaml (reads ++ visits.flatMap Visit.bytes)
      (afterInputs (Reparsing.answer go yaml) r visits).current := by
  induction visits generalizing r reads with
  | nil => rwa [List.flatMap_nil, List.append_nil]
  | cons v visits ih =>
      rw [List.flatMap_cons, ← List.append_assoc]
      exact ih (r := (r.answer go yaml v).1) (tracks.reload v)

/-- A Status describes a policy. -/
def Status.Describes (st : Status) (s : Snapshot) : Prop :=
  st.version = s.version ∧ st.digest = s.digest ∧ st.maxParallelTasks = s.maxParallelTasks

theorem Loader.status_describes (l : Loader) : l.status.Describes l.current := by
  rw [← l.status_view]
  exact ⟨rfl, rfl, rfl⟩

/-- What one Reload does. -/
structure Conforms (go : Runtime) (yaml : GoString → Decoded) (l : Loader) (v : Visit) : Prop where
  succeeds : (l.reload go yaml v).2 = none ↔
    ∃ raw s, v.read = .ok raw ∧ parse go yaml v.maps raw = .ok s
  digest : (l.reload go yaml v).2 = none →
    ∀ raw, v.read = .ok raw → (l.reload go yaml v).1.current.digest = rawDigest go raw
  kept : (l.reload go yaml v).2 ≠ none → (l.reload go yaml v).1.current = l.current
  describes : (l.reload go yaml v).1.status.Describes (l.reload go yaml v).1.current
  failed : ∀ err, (l.reload go yaml v).2 = some err →
    (l.reload go yaml v).1.status.reloadStatus = ascii "error" ∧
    (l.reload go yaml v).1.status.lastReloadError = err ∧
    (l.reload go yaml v).1.status.lastReloadErrorAt = some v.now
  clean : (l.reload go yaml v).2 = none →
    (l.reload go yaml v).1.status.reloadStatus = ascii "ok" ∧
    (l.reload go yaml v).1.status.lastReloadError = [] ∧
    (l.reload go yaml v).1.status.lastReloadErrorAt = none

theorem load_ok_iff {v : Visit} {s : Snapshot} :
    load go yaml v = .ok s ↔ ∃ raw, v.read = .ok raw ∧ parse go yaml v.maps raw = .ok s := by
  unfold load
  cases v.read with
  | error text => simp
  | ok raw => simp

section Step

variable {seen : List GoString} {l : Loader} {v : Visit} (backed : Backed go yaml seen l)
  (free : go.Separates seen) (read : ∀ raw ∈ v.bytes, raw ∈ seen)
include backed free read

theorem reload_of_error {err : GoString} (loaded : load go yaml v = .error err) :
    (l.reload go yaml v).2 = some err ∧ (l.reload go yaml v).1.current = l.current ∧
      (l.reload go yaml v).1.status =
        ({ l.view with failure := some (err, v.now) } : Reparsing).status := by
  obtain ⟨error, view, -⟩ := reload_view backed free read
  have stepped : l.view.reload go yaml v =
      ({ l.view with failure := some (err, v.now) }, some err) := by
    unfold Reparsing.reload
    rw [loaded]
  rw [stepped] at error view
  refine ⟨error, congrArg Reparsing.current view, ?_⟩
  rw [← Loader.status_view, view]

theorem reload_of_ok {s : Snapshot} (loaded : load go yaml v = .ok s) :
    (l.reload go yaml v).2 = none ∧ (l.reload go yaml v).1.current = s ∧
      (l.reload go yaml v).1.view.failure = none := by
  obtain ⟨error, view, -⟩ := reload_view backed free read
  unfold Reparsing.reload at error view
  rw [loaded] at error view
  exact ⟨error, congrArg Reparsing.current view, congrArg Reparsing.failure view⟩

theorem conforms : Conforms go yaml l v := by
  have describes := (l.reload go yaml v).1.status_describes
  cases loaded : load go yaml v with
  | error err =>
      obtain ⟨returned, kept, status⟩ := reload_of_error backed free read loaded
      have refused : ¬∃ raw s, v.read = .ok raw ∧ parse go yaml v.maps raw = .ok s := by
        rintro ⟨raw, s, accepted⟩
        rw [load_ok_iff.mpr ⟨raw, accepted⟩] at loaded
        cases loaded
      refine ⟨⟨by simp [returned], fun accepted => absurd accepted refused⟩, by simp [returned],
        fun _ => kept, describes, ?_, by simp [returned]⟩
      intro err' same
      obtain rfl : err = err' := by simpa [returned] using same
      rw [status]
      exact ⟨rfl, rfl, rfl⟩
  | ok s =>
      obtain ⟨returned, current, clean⟩ := reload_of_ok backed free read loaded
      obtain ⟨raw, file, parsed⟩ := load_ok_iff.mp loaded
      refine ⟨⟨fun _ => ⟨raw, s, file, parsed⟩, fun _ => returned⟩, fun _ raw' file' => ?_,
        by simp [returned], describes, by simp [returned], fun _ => ?_⟩
      · rw [file] at file'
        cases file'
        rw [current]
        exact (parse_ok parsed).1
      · rw [← Loader.status_view]
        simp [Reparsing.status, clean]

end Step

theorem newLoader_ok {raw : GoString} {maps : MapOrder} {now : Time} {l : Loader}
    (started : newLoader go yaml ⟨.ok raw, maps, now⟩ = .ok l) :
    l.view = { current := l.current, loadedAt := now, failure := none } ∧
      parse go yaml maps raw = .ok l.current := by
  unfold newLoader load at started
  simp only at started
  split at started
  · cases started
  · rename_i parsed
    cases started
    exact ⟨rfl, parsed⟩

/-- **The loader is a loader that always parses.**  From any valid file and over any reloads,
each with a file of its own or none: the same errors, policies and states are seen as if the
file had been parsed each time; the active policy is what the last accepted bytes parse to;
and every single Reload does what it says, the digest shortcut included. -/
theorem loader_refines_reparsing (go : Runtime) (yaml : GoString → Decoded) (raw₀ : GoString)
    (maps₀ : MapOrder) (now₀ : Time) (l₀ : Loader) (visits : List Visit)
    (started : newLoader go yaml ⟨.ok raw₀, maps₀, now₀⟩ = .ok l₀)
    (free : go.Separates (raw₀ :: visits.flatMap Visit.bytes)) :
    l₀.view = { current := l₀.current, loadedAt := now₀, failure := none } ∧
    outputs (Loader.answer go yaml) l₀ visits = outputs (Reparsing.answer go yaml) l₀.view visits ∧
    (∀ before behind, visits = before ++ behind →
      (l₀.after go yaml before).status.Describes (l₀.after go yaml before).current ∧
      Tracks go yaml (raw₀ :: before.flatMap Visit.bytes) (l₀.after go yaml before).current) ∧
    ∀ before v behind, visits = before ++ v :: behind →
      Conforms go yaml (l₀.after go yaml before) v := by
  obtain ⟨clean, parsed⟩ := newLoader_ok started
  have backed : Backed go yaml (raw₀ :: visits.flatMap Visit.bytes) l₀ :=
    ⟨raw₀, List.mem_cons_self, maps₀, parsed⟩
  have read : ∀ v ∈ visits, ∀ raw ∈ v.bytes, raw ∈ raw₀ :: visits.flatMap Visit.bytes :=
    fun v member raw bytes => List.mem_cons_of_mem _ (List.mem_flatMap.mpr ⟨v, member, bytes⟩)
  have related (before : List Visit) (part : ∀ v ∈ before, v ∈ visits) :
      (l₀.after go yaml before).view = afterInputs (Reparsing.answer go yaml) l₀.view before ∧
        Backed go yaml (raw₀ :: visits.flatMap Visit.bytes) (l₀.after go yaml before) :=
    afterInputs_related (R := fun l r => l.view = r ∧ Backed go yaml _ l) (answer_simulates free)
      ⟨rfl, backed⟩ before fun v member => read v (part v member)
  refine ⟨clean, ?_, ?_, ?_⟩
  · exact outputs_eq (R := fun l r => l.view = r ∧ Backed go yaml _ l) (answer_simulates free)
      ⟨rfl, backed⟩ visits read
  · rintro before behind rfl
    obtain ⟨view, -⟩ := related before fun v member => List.mem_append_left behind member
    have current : (l₀.after go yaml before).current = _ := congrArg Reparsing.current view
    have first : Tracks go yaml [raw₀] l₀.view.current :=
      ⟨raw₀, MostRecent.of_last [] ⟨maps₀, _, parsed⟩, (parse_ok parsed).2⟩
    refine ⟨Loader.status_describes _, ?_⟩
    rw [current]
    exact first.run before
  · rintro before v behind rfl
    obtain ⟨-, backed'⟩ := related before fun v member => List.mem_append_left _ member
    exact conforms backed' free (read v (by simp))

/-- The order in which a document lists its environments. -/
def MapOrder.listed : MapOrder := ⟨Document.environments, fun _ => List.Perm.refl _⟩

/-- A file that holds the test policy, or is broken. -/
def testYaml (raw : GoString) : Decoded :=
  if raw = ascii "policy" then .document testPolicy false else .failed (ascii "line 1")

/-- The file is broken, then gone, then restored. -/
def testVisits : List Visit :=
  [⟨.ok (ascii "broken"), .listed, ⟨2⟩⟩, ⟨.error (ascii "gone"), .listed, ⟨3⟩⟩,
    ⟨.ok (ascii "policy"), .listed, ⟨4⟩⟩]

theorem testLoader_starts :
    ∃ l₀, newLoader .plain testYaml ⟨.ok (ascii "policy"), .listed, ⟨1⟩⟩ = .ok l₀ := by
  have parsed : parse .plain testYaml .listed (ascii "policy") = .ok _ :=
    parse_of_valid rfl testPolicy_valid .listed
  unfold newLoader load
  simp only [parsed]
  exact ⟨_, rfl⟩

/-- The re-parsing loader sees the same of a file that breaks, vanishes and comes back. -/
theorem loader_refines_restored :
    ∃ l₀, newLoader .plain testYaml ⟨.ok (ascii "policy"), .listed, ⟨1⟩⟩ = .ok l₀ ∧
      outputs (Loader.answer .plain testYaml) l₀ testVisits =
        outputs (Reparsing.answer .plain testYaml) l₀.view testVisits := by
  obtain ⟨l₀, started⟩ := testLoader_starts
  exact ⟨l₀, started, (loader_refines_reparsing .plain testYaml _ _ _ l₀ testVisits started
    fun _ _ _ _ same => same).2.1⟩

end Runs

end SentryGate.Policy
