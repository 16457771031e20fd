/-
# Policy.Build -- from a policy document to a snapshot

`build` of `internal/policy/schema.go`, with its error texts.  A document is what the YAML
decoder delivers; its environments are a Go map, so `build` takes the order in which the
loop meets them.

`Valid` is the language `build` accepts and `Contains` what the snapshot then holds, both
read off the lists of the document: `build_ok_iff`.  Neither mentions the order.
-/
import SentryGate.Policy.Schema
import SentryGate.Theory.Fill
import Mathlib.Data.Fintype.Basic
import Mathlib.Tactic.MkIffOfInductiveProp

namespace SentryGate.Policy

open Theory.Text Theory.Fill Contracts

set_option autoImplicit false

/-! ## Documents -/

instance : Wire EnvironmentMode where
  text
    | .allow => ascii "allow"
    | .requireApproval => ascii "require_approval"
    | .deny => ascii "deny"
  values := [.allow, .requireApproval, .deny]
  complete m := by cases m <;> decide
  distinct := by decide

structure AgentDocument where
  id : GoString
  commands : List GoString

structure TargetDocument where
  id : GoString
  environment : GoString
  /-- `none` where the document does not set it -/
  isProtected : Option Bool

/-- The on-disk schema. -/
structure Document where
  version : GoString
  maxParallelTasks : Int
  /-- The entries of the map, in some order. -/
  environments : List (GoString × GoString)
  commands : List GoString
  agents : List AgentDocument
  targets : List TargetDocument
  /-- A map has one value for a key. -/
  keyed : (environments.map Prod.fst).Nodup

def maxParallelTasksLimit : Int := 10000

/-- `^[A-Za-z0-9._:-]{1,64}$` -/
def versionPattern : Pattern :=
  [([('A', 'Z'), ('a', 'z'), ('0', '9'), ('.', '.'), ('_', '_'), (':', ':'), ('-', '-')], 1, 64)]

/-- `^[a-z][a-z0-9_-]{0,31}$` -/
def environmentPattern : Pattern :=
  [([('a', 'z')], 1, 1), ([('a', 'z'), ('0', '9'), ('_', '_'), ('-', '-')], 0, 31)]

/-- `^[A-Z][A-Z0-9_]{0,63}$` -/
def commandPattern : Pattern :=
  [([('A', 'Z')], 1, 1), ([('A', 'Z'), ('0', '9'), ('_', '_')], 0, 63)]

/-- `^[A-Za-z0-9._-]{1,64}$` -/
def agentIDPattern : Pattern :=
  [([('A', 'Z'), ('a', 'z'), ('0', '9'), ('.', '.'), ('_', '_'), ('-', '-')], 1, 64)]

/-- `^[A-Za-z0-9._:-]{1,128}$` -/
def targetIDPattern : Pattern :=
  [([('A', 'Z'), ('a', 'z'), ('0', '9'), ('.', '.'), ('_', '_'), (':', ':'), ('-', '-')], 1, 128)]

/-! ## The loops of build -/

section Loops

variable (go : Runtime)

/-- The loop over the environments. -/
def addEnvironment (environments : GoString → Option EnvironmentMode) (entry : GoString × GoString) :
    Except GoString (GoString → Option EnvironmentMode) :=
  let (name, mode) := entry
  if !environmentPattern.matchString name then
    .error (ascii "environment name " ++ go.quote name ++ ascii " is invalid")
  else
    match (Open.ofText mode : Open EnvironmentMode) with
    | .named m => .ok (Function.update environments name (some m))
    | .other .. =>
        .error (ascii "environment " ++ go.quote name ++ ascii ": mode " ++ go.quote mode ++
          ascii " must be allow, require_approval or deny")

/-- The loop over the commands. -/
def addCommand (commands : CommandType → Bool) (c : GoString) : Except GoString (CommandType → Bool) :=
  if !commandPattern.matchString c then
    .error (ascii "command " ++ go.quote c ++ ascii " is invalid")
  else if commands c then
    .error (ascii "command " ++ go.quote c ++ ascii " is declared more than once")
  else .ok (Function.update commands c true)

/-- The loop over the commands of one agent. -/
def addAllowed (commands : CommandType → Bool) (agentID : GoString) (allowed : CommandType → Bool)
    (c : GoString) : Except GoString (CommandType → Bool) :=
  if !commands c then
    .error (ascii "agent " ++ go.quote agentID ++ ascii ": command " ++ go.quote c ++
      ascii " is not in the command catalogue")
  else if allowed c then
    .error (ascii "agent " ++ go.quote agentID ++ ascii ": command " ++ go.quote c ++
      ascii " is listed more than once")
  else .ok (Function.update allowed c true)

/-- The loop over the agents. -/
def addAgent (commands : CommandType → Bool) (agents : GoString → Option (CommandType → Bool))
    (entry : AgentDocument × ℕ) : Except GoString (GoString → Option (CommandType → Bool)) :=
  let (a, i) := entry
  if !agentIDPattern.matchString a.id then
    .error (ascii "agents[" ++ ascii (toString i) ++ ascii "]: id " ++ go.quote a.id ++
      ascii " is invalid")
  else if (agents a.id).isSome then
    .error (ascii "agent " ++ go.quote a.id ++ ascii " is declared more than once")
  else if a.commands = [] then
    .error (ascii "agent " ++ go.quote a.id ++ ascii ": commands must not be empty")
  else
    (a.commands.foldlM (addAllowed go commands a.id) fun _ => false).bind fun allowed =>
      .ok (Function.update agents a.id (some allowed))

/-- The loop over the targets. -/
def addTarget (environments : GoString → Option EnvironmentMode) (targets : GoString → Option Target)
    (entry : TargetDocument × ℕ) : Except GoString (GoString → Option Target) :=
  let (t, i) := entry
  if !targetIDPattern.matchString t.id then
    .error (ascii "targets[" ++ ascii (toString i) ++ ascii "]: id " ++ go.quote t.id ++
      ascii " is invalid")
  else if (targets t.id).isSome then
    .error (ascii "target " ++ go.quote t.id ++ ascii " is declared more than once")
  else if (environments t.environment).isNone then
    .error (ascii "target " ++ go.quote t.id ++ ascii ": environment " ++ go.quote t.environment ++
      ascii " is not declared")
  else
    match t.isProtected with
    | none => .error (ascii "target " ++ go.quote t.id ++ ascii ": protected must be set explicitly")
    | some isProtected =>
        .ok (Function.update targets t.id (some { id := t.id, environment := t.environment, isProtected }))

/-- `build`, meeting the environments in the given order. -/
def build (doc : Document) (order : List (GoString × GoString)) : Except GoString Snapshot :=
  if doc.version = [] then .error (ascii "version is required")
  else if !versionPattern.matchString doc.version then
    .error (ascii "version " ++ go.quote doc.version ++ ascii " is invalid")
  else if doc.maxParallelTasks < 1 ∨ doc.maxParallelTasks > maxParallelTasksLimit then
    .error (ascii "max_parallel_tasks must be between 1 and 10000")
  else if doc.environments = [] then
    .error (ascii "environments must declare at least one environment")
  else
    (order.foldlM (addEnvironment go) fun _ => none).bind fun environments =>
    if doc.commands = [] then .error (ascii "commands must declare at least one command")
    else
      (doc.commands.foldlM (addCommand go) fun _ => false).bind fun commands =>
      if doc.agents = [] then .error (ascii "agents must declare at least one agent")
      else
        (doc.agents.zipIdx.foldlM (addAgent go commands) fun _ => none).bind fun agents =>
        if doc.targets = [] then .error (ascii "targets must declare at least one target")
        else
          (doc.targets.zipIdx.foldlM (addTarget go environments) fun _ => none).bind fun targets =>
          .ok { version := doc.version, digest := [], maxParallelTasks := doc.maxParallelTasks
                environments, commands, agents, targets }

end Loops

/-! ## The documents that are accepted -/

instance : Fintype EnvironmentMode where
  elems := {.allow, .requireApproval, .deny}
  complete m := by cases m <;> decide

/-- What `build` asks of a document. -/
@[mk_iff]
structure Valid (doc : Document) : Prop where
  version : versionPattern.matchString doc.version = true
  maxParallelTasks : 1 ≤ doc.maxParallelTasks ∧ doc.maxParallelTasks ≤ 10000
  someEnvironment : doc.environments ≠ []
  environments : ∀ entry ∈ doc.environments,
    environmentPattern.matchString entry.1 = true ∧ ∃ mode : EnvironmentMode, entry.2 = Wire.text mode
  someCommand : doc.commands ≠ []
  commands : ∀ c ∈ doc.commands, commandPattern.matchString c = true
  commandsDistinct : doc.commands.Nodup
  someAgent : doc.agents ≠ []
  agents : ∀ a ∈ doc.agents, agentIDPattern.matchString a.id = true ∧ a.commands ≠ [] ∧
    a.commands.Nodup ∧ ∀ c ∈ a.commands, c ∈ doc.commands
  agentsDistinct : (doc.agents.map AgentDocument.id).Nodup
  someTarget : doc.targets ≠ []
  targets : ∀ t ∈ doc.targets, targetIDPattern.matchString t.id = true ∧
    t.environment ∈ doc.environments.map Prod.fst ∧ t.isProtected.isSome
  targetsDistinct : (doc.targets.map TargetDocument.id).Nodup

instance (doc : Document) : Decidable (Valid doc) := decidable_of_iff' _ (valid_iff doc)

/-- The snapshot holds the entries of the document, and nothing else. -/
structure Contains (doc : Document) (s : Snapshot) : Prop where
  version : s.version = doc.version
  maxParallelTasks : s.maxParallelTasks = doc.maxParallelTasks
  environments : ∀ name mode, s.environments name = some mode ↔ (name, Wire.text mode) ∈ doc.environments
  commands : ∀ c, s.commands c = true ↔ c ∈ doc.commands
  agents : ∀ id allowed, s.agents id = some allowed ↔
    ∃ a ∈ doc.agents, a.id = id ∧ ∀ c, allowed c = true ↔ c ∈ a.commands
  targets : ∀ id target, s.targets id = some target ↔ ∃ t ∈ doc.targets, t.id = id ∧
    target.id = id ∧ target.environment = t.environment ∧ t.isProtected = some target.isProtected

/-- The digest, which `Parse` sets, is not part of it. -/
theorem Contains.withDigest {doc : Document} {s : Snapshot} (holds : Contains doc s)
    (digest : GoString) : Contains doc { s with digest } :=
  ⟨holds.version, holds.maxParallelTasks, holds.environments, holds.commands, holds.agents, holds.targets⟩

/-! ## Lookups -/

section Lookups

variable {doc : Document} {s : Snapshot}

theorem Contains.hasCommand_iff (holds : Contains doc s) (c : CommandType) :
    s.hasCommand c = true ↔ c ∈ doc.commands :=
  holds.commands c

theorem Contains.agents_of_mem (holds : Contains doc s) {a : AgentDocument} (member : a ∈ doc.agents) :
    s.agents a.id = some (membersOf a.commands) :=
  (holds.agents a.id _).mpr ⟨a, member, rfl, membersOf_iff a.commands⟩

theorem Contains.hasAgent_iff (holds : Contains doc s) (agentID : GoString) :
    s.hasAgent agentID = true ↔ agentID ∈ doc.agents.map AgentDocument.id := by
  unfold Snapshot.hasAgent
  constructor
  · intro known
    obtain ⟨allowed, found⟩ := Option.isSome_iff_exists.mp known
    obtain ⟨a, member, rfl, -⟩ := (holds.agents _ _).mp found
    exact List.mem_map_of_mem member
  · intro declared
    obtain ⟨a, member, rfl⟩ := List.mem_map.mp declared
    rw [holds.agents_of_mem member]
    rfl

theorem Contains.agentMayUse_iff (holds : Contains doc s) (agentID : GoString) (c : CommandType) :
    s.agentMayUse agentID c = true ↔ ∃ a ∈ doc.agents, a.id = agentID ∧ c ∈ a.commands := by
  unfold Snapshot.agentMayUse
  constructor
  · intro may
    split at may
    · cases may
    · rename_i allowed found
      obtain ⟨a, member, named, listed⟩ := (holds.agents _ _).mp found
      exact ⟨a, member, named, (listed c).mp may⟩
  · rintro ⟨a, member, rfl, listed⟩
    rw [holds.agents_of_mem member]
    exact (membersOf_iff a.commands c).mpr listed

/-- A registered target, by what is known of it. -/
theorem Contains.target_iff (holds : Contains doc s) {id : GoString} {Q : GoString → Bool → Prop} :
    (∃ t, s.target id = some t ∧ Q t.environment t.isProtected) ↔
      ∃ t ∈ doc.targets, t.id = id ∧ ∃ b, t.isProtected = some b ∧ Q t.environment b := by
  constructor
  · rintro ⟨target, found, fact⟩
    obtain ⟨t, member, named, -, environment, set⟩ := (holds.targets _ _).mp found
    exact ⟨t, member, named, _, set, environment ▸ fact⟩
  · rintro ⟨t, member, rfl, b, set, fact⟩
    exact ⟨⟨t.id, t.environment, b⟩, (holds.targets _ _).mpr ⟨t, member, rfl, rfl, rfl, set⟩, fact⟩

theorem Contains.target_isSome_iff (holds : Contains doc s) (valid : Valid doc) (id : GoString) :
    (s.target id).isSome ↔ id ∈ doc.targets.map TargetDocument.id := by
  rw [Option.isSome_iff_exists]
  constructor
  · rintro ⟨target, found⟩
    obtain ⟨t, member, rfl, -⟩ := (holds.targets _ _).mp found
    exact List.mem_map_of_mem member
  · intro registered
    obtain ⟨t, member, rfl⟩ := List.mem_map.mp registered
    obtain ⟨b, set⟩ := Option.isSome_iff_exists.mp (valid.targets t member).2.2
    exact ⟨⟨t.id, t.environment, b⟩, (holds.targets _ _).mpr ⟨t, member, rfl, rfl, rfl, set⟩⟩

/-- **The environment of a registered target has a mode.** -/
theorem Contains.declared (holds : Contains doc s) (valid : Valid doc) {id : GoString} {t : Target}
    (found : s.target id = some t) : ∃ mode, s.environmentMode t.environment = some mode := by
  obtain ⟨entry, member, -, -, environment, -⟩ := (holds.targets _ _).mp found
  obtain ⟨⟨name, text⟩, listed, same⟩ := List.mem_map.mp (valid.targets entry member).2.1
  obtain ⟨-, mode, rfl⟩ := valid.environments _ listed
  refine ⟨mode, (holds.environments _ mode).mpr ?_⟩
  rw [environment, ← same]
  exact listed

end Lookups

/-! ## What the loops do -/

section Specs

variable {go : Runtime}

/-- The mode a text names. -/
def modeOf (text : GoString) : Option EnvironmentMode :=
  match (Open.ofText text : Open EnvironmentMode) with
  | .named m => some m
  | .other .. => none

theorem modeOf_eq_some_iff (text : GoString) (mode : EnvironmentMode) :
    modeOf text = some mode ↔ text = Wire.text mode := by
  unfold modeOf
  constructor
  · intro named
    split at named
    · rename_i m read
      cases named
      rw [← Open.text_ofText (α := EnvironmentMode) text, read]
      rfl
    · cases named
  · rintro rfl
    rw [show (Open.ofText (Wire.text mode) : Open EnvironmentMode) = .named mode from
      Open.ofText_text (.named mode)]

theorem addEnvironment_ok_iff (m : GoString → Option EnvironmentMode) (entry : GoString × GoString)
    (m' : GoString → Option EnvironmentMode) :
    addEnvironment go m entry = .ok m' ↔
      (environmentPattern.matchString entry.1 = true ∧ (modeOf entry.2).isSome) ∧
        m' = putMap Prod.fst (fun e => modeOf e.2) m entry := by
  unfold addEnvironment putMap modeOf
  dsimp only
  rw [ite_error_ok_iff]
  cases (Open.ofText entry.2 : Open EnvironmentMode) with
  | named m =>
      rw [ok_eq_ok_iff]
      simp
  | other => simp

theorem addCommand_ok_iff (commands : CommandType → Bool) (c : GoString)
    (commands' : CommandType → Bool) :
    addCommand go commands c = .ok commands' ↔
      (commandPattern.matchString c = true ∧ commands c = false) ∧ commands' = putSet commands c := by
  unfold addCommand putSet
  rw [ite_error_ok_iff, ite_error_ok_iff, ok_eq_ok_iff]
  simp [and_assoc]

theorem addAllowed_ok_iff (commands : CommandType → Bool) (agentID : GoString)
    (allowed : CommandType → Bool) (c : GoString) (allowed' : CommandType → Bool) :
    addAllowed go commands agentID allowed c = .ok allowed' ↔
      (commands c = true ∧ allowed c = false) ∧ allowed' = putSet allowed c := by
  unfold addAllowed putSet
  rw [ite_error_ok_iff, ite_error_ok_iff, ok_eq_ok_iff]
  simp [and_assoc]

theorem addAgent_ok_iff (commands : CommandType → Bool) (m : GoString → Option (CommandType → Bool))
    (a : AgentDocument) (i : ℕ) (m' : GoString → Option (CommandType → Bool)) :
    addAgent go commands m (a, i) = .ok m' ↔
      ((agentIDPattern.matchString a.id = true ∧ a.commands ≠ [] ∧ a.commands.Nodup ∧
          ∀ c ∈ a.commands, commands c = true) ∧ (m a.id).isSome = false) ∧
        m' = putMap AgentDocument.id (fun a => some (membersOf a.commands)) m a := by
  unfold addAgent putMap
  dsimp only
  rw [ite_error_ok_iff, ite_error_ok_iff, ite_error_ok_iff, bind_ok_iff]
  simp only [fillSet_ok_iff (addAllowed_ok_iff commands a.id), ok_eq_ok_iff]
  constructor
  · rintro ⟨pattern, new, nonempty, _, ⟨⟨known, distinct⟩, rfl⟩, rfl⟩
    exact ⟨⟨⟨by simpa using pattern, nonempty, distinct, known⟩, by simpa using new⟩, rfl⟩
  · rintro ⟨⟨⟨pattern, nonempty, distinct, known⟩, new⟩, rfl⟩
    exact ⟨by simpa using pattern, by simpa using new, nonempty, _, ⟨⟨known, distinct⟩, rfl⟩, rfl⟩

/-- The target of an entry that says whether it is protected. -/
def TargetDocument.target (t : TargetDocument) : Option Target :=
  t.isProtected.map fun isProtected => { id := t.id, environment := t.environment, isProtected }

theorem TargetDocument.target_eq_some_iff (t : TargetDocument) (target : Target) :
    t.target = some target ↔ target.id = t.id ∧ target.environment = t.environment ∧
      t.isProtected = some target.isProtected := by
  obtain ⟨id, environment, isProtected⟩ := target
  simp only [TargetDocument.target, Option.map_eq_some_iff, Target.mk.injEq]
  constructor
  · rintro ⟨_, set, rfl, rfl, rfl⟩
    exact ⟨rfl, rfl, set⟩
  · rintro ⟨rfl, rfl, set⟩
    exact ⟨_, set, rfl, rfl, rfl⟩

theorem addTarget_ok_iff (environments : GoString → Option EnvironmentMode)
    (m : GoString → Option Target) (t : TargetDocument) (i : ℕ) (m' : GoString → Option Target) :
    addTarget go environments m (t, i) = .ok m' ↔
      ((targetIDPattern.matchString t.id = true ∧ (environments t.environment).isSome ∧
          t.isProtected.isSome) ∧ (m t.id).isSome = false) ∧
        m' = putMap TargetDocument.id TargetDocument.target m t := by
  unfold addTarget putMap TargetDocument.target
  dsimp only
  rw [ite_error_ok_iff, ite_error_ok_iff, ite_error_ok_iff]
  cases t.isProtected with
  | none => simp
  | some isProtected =>
      rw [ok_eq_ok_iff]
      simp [Option.isSome_iff_ne_none]
      tauto

end Specs

/-! ## The result -/

section Result

variable {go : Runtime} {doc : Document} {order : List (GoString × GoString)} {s : Snapshot}

theorem environments_hold {m : GoString → Option EnvironmentMode} :
    (∀ name mode, m name = some mode ↔
        ∃ entry ∈ doc.environments, entry.1 = name ∧ modeOf entry.2 = some mode) ↔
      ∀ name mode, m name = some mode ↔ (name, Wire.text mode) ∈ doc.environments := by
  refine forall_congr' fun name => forall_congr' fun mode => iff_congr Iff.rfl ?_
  simp only [modeOf_eq_some_iff]
  constructor
  · rintro ⟨⟨_, _⟩, member, rfl, rfl⟩
    exact member
  · intro member
    exact ⟨_, member, rfl, rfl⟩

theorem environments_ok_iff (perm : order.Perm doc.environments)
    {m : GoString → Option EnvironmentMode} :
    order.foldlM (addEnvironment go) (fun _ => none) = .ok m ↔
      (∀ entry ∈ doc.environments, environmentPattern.matchString entry.1 = true ∧
          ∃ mode : EnvironmentMode, entry.2 = Wire.text mode) ∧
        ∀ name mode, m name = some mode ↔ (name, Wire.text mode) ∈ doc.environments := by
  have distinct : (order.map Prod.fst).Nodup := (perm.map Prod.fst).nodup_iff.mpr doc.keyed
  have moded : ∀ text, (modeOf text).isSome ↔ ∃ mode : EnvironmentMode, text = Wire.text mode :=
    fun text => by simp only [Option.isSome_iff_exists, modeOf_eq_some_iff]
  rw [foldlM_ok_iff addEnvironment_ok_iff, passes_iff, eq_fillMap_iff distinct]
  simp only [moded, perm.mem_iff, environments_hold]

theorem commands_ok_iff {l : List GoString} {commands : CommandType → Bool} :
    l.foldlM (addCommand go) (fun _ => false) = .ok commands ↔
      ((∀ c ∈ l, commandPattern.matchString c = true) ∧ l.Nodup) ∧ ∀ c, commands c = true ↔ c ∈ l := by
  rw [fillSet_ok_iff addCommand_ok_iff, eq_membersOf_iff]

theorem agents_hold {l : List AgentDocument} {m : GoString → Option (CommandType → Bool)} :
    (∀ id allowed, m id = some allowed ↔
        ∃ a ∈ l, a.id = id ∧ some (membersOf a.commands) = some allowed) ↔
      ∀ id allowed, m id = some allowed ↔
        ∃ a ∈ l, a.id = id ∧ ∀ c, allowed c = true ↔ c ∈ a.commands := by
  simp only [Option.some.injEq, eq_comm (b := (_ : CommandType → Bool)), eq_membersOf_iff]

theorem agents_ok_iff {commands : CommandType → Bool} {l : List AgentDocument}
    {m : GoString → Option (CommandType → Bool)} :
    l.zipIdx.foldlM (addAgent go commands) (fun _ => none) = .ok m ↔
      ((∀ a ∈ l, agentIDPattern.matchString a.id = true ∧ a.commands ≠ [] ∧ a.commands.Nodup ∧
          ∀ c ∈ a.commands, commands c = true) ∧ (l.map AgentDocument.id).Nodup) ∧
        ∀ id allowed, m id = some allowed ↔
          ∃ a ∈ l, a.id = id ∧ ∀ c, allowed c = true ↔ c ∈ a.commands := by
  rw [fillMap_ok_iff (fun _ _ => rfl) (addAgent_ok_iff commands), agents_hold]

theorem targets_hold {l : List TargetDocument} {m : GoString → Option Target} :
    (∀ id target, m id = some target ↔ ∃ t ∈ l, t.id = id ∧ t.target = some target) ↔
      ∀ id target, m id = some target ↔ ∃ t ∈ l, t.id = id ∧ target.id = id ∧
        target.environment = t.environment ∧ t.isProtected = some target.isProtected := by
  refine forall_congr' fun id => forall_congr' fun target => iff_congr Iff.rfl ?_
  refine exists_congr fun t => and_congr_right fun _ => and_congr_right fun same => ?_
  rw [TargetDocument.target_eq_some_iff, same]

theorem targets_ok_iff {environments : GoString → Option EnvironmentMode} {l : List TargetDocument}
    {m : GoString → Option Target} :
    l.zipIdx.foldlM (addTarget go environments) (fun _ => none) = .ok m ↔
      ((∀ t ∈ l, targetIDPattern.matchString t.id = true ∧ (environments t.environment).isSome ∧
          t.isProtected.isSome) ∧ (l.map TargetDocument.id).Nodup) ∧
        ∀ id target, m id = some target ↔ ∃ t ∈ l, t.id = id ∧ target.id = id ∧
          target.environment = t.environment ∧ t.isProtected = some target.isProtected := by
  have valued : ∀ t : TargetDocument, (targetIDPattern.matchString t.id = true ∧
      (environments t.environment).isSome ∧ t.isProtected.isSome) → t.target.isSome := by
    rintro t ⟨-, -, set⟩
    rwa [TargetDocument.target, Option.isSome_map]
  rw [fillMap_ok_iff valued (addTarget_ok_iff environments), targets_hold]

/-- `build` succeeds where each loop does. -/
theorem build_loops :
    build go doc order = .ok s ↔
      (versionPattern.matchString doc.version = true ∧ (1 ≤ doc.maxParallelTasks ∧
        doc.maxParallelTasks ≤ 10000) ∧ doc.environments ≠ [] ∧ doc.commands ≠ [] ∧
        doc.agents ≠ [] ∧ doc.targets ≠ []) ∧
      ∃ environments commands agents targets,
        order.foldlM (addEnvironment go) (fun _ => none) = .ok environments ∧
        doc.commands.foldlM (addCommand go) (fun _ => false) = .ok commands ∧
        doc.agents.zipIdx.foldlM (addAgent go commands) (fun _ => none) = .ok agents ∧
        doc.targets.zipIdx.foldlM (addTarget go environments) (fun _ => none) = .ok targets ∧
        s = { version := doc.version, digest := [], maxParallelTasks := doc.maxParallelTasks
              environments, commands, agents, targets } := by
  have named : versionPattern.matchString doc.version = true → doc.version ≠ [] := by
    intro pattern empty
    rw [empty] at pattern
    exact absurd pattern (by decide)
  unfold build maxParallelTasksLimit
  simp only [ite_error_ok_iff, bind_ok_iff, ok_eq_ok_iff, Bool.not_eq_true', Bool.not_eq_false, not_or,
    Int.not_lt, gt_iff_lt]
  constructor
  · rintro ⟨-, version, tasks, someEnvironment, environments, filled₁, someCommand, commands, filled₂,
      someAgent, agents, filled₃, someTarget, targets, filled₄, built⟩
    exact ⟨⟨version, tasks, someEnvironment, someCommand, someAgent, someTarget⟩, environments, commands,
      agents, targets, filled₁, filled₂, filled₃, filled₄, built⟩
  · rintro ⟨⟨version, tasks, someEnvironment, someCommand, someAgent, someTarget⟩, environments,
      commands, agents, targets, filled₁, filled₂, filled₃, filled₄, built⟩
    exact ⟨named version, version, tasks, someEnvironment, environments, filled₁, someCommand, commands,
      filled₂, someAgent, agents, filled₃, someTarget, targets, filled₄, built⟩

/-- **What `build` accepts, and what it builds.** -/
theorem build_ok_iff (perm : order.Perm doc.environments) :
    build go doc order = .ok s ↔ Valid doc ∧ Contains doc s ∧ s.digest = [] := by
  rw [build_loops]
  simp only [environments_ok_iff perm, commands_ok_iff, agents_ok_iff, targets_ok_iff]
  constructor
  · rintro ⟨⟨version, tasks, someEnvironment, someCommand, someAgent, someTarget⟩, environments, commands,
      agents, targets, ⟨validEnvironments, environmentsHold⟩, ⟨⟨validCommands, distinct₁⟩, commandsHold⟩,
      ⟨⟨validAgents, distinct₂⟩, agentsHold⟩, ⟨⟨validTargets, distinct₃⟩, targetsHold⟩, rfl⟩
    refine ⟨⟨version, tasks, someEnvironment, validEnvironments, someCommand, validCommands, distinct₁,
      someAgent, ?_, distinct₂, someTarget, ?_, distinct₃⟩, ⟨rfl, rfl, environmentsHold, commandsHold,
      agentsHold, targetsHold⟩, rfl⟩
    · intro a member
      obtain ⟨pattern, nonempty, distinct, known⟩ := validAgents a member
      exact ⟨pattern, nonempty, distinct, fun c listed => (commandsHold c).mp (known c listed)⟩
    · intro t member
      obtain ⟨pattern, declared, set⟩ := validTargets t member
      obtain ⟨mode, found⟩ := Option.isSome_iff_exists.mp declared
      have entry := (environmentsHold t.environment mode).mp found
      exact ⟨pattern, List.mem_map_of_mem (f := Prod.fst) entry, set⟩
  · rintro ⟨valid, holds, digest⟩
    refine ⟨⟨valid.version, valid.maxParallelTasks, valid.someEnvironment, valid.someCommand,
      valid.someAgent, valid.someTarget⟩, s.environments, s.commands, s.agents, s.targets,
      ⟨valid.environments, holds.environments⟩, ⟨⟨valid.commands, valid.commandsDistinct⟩, holds.commands⟩,
      ⟨⟨?_, valid.agentsDistinct⟩, holds.agents⟩, ⟨⟨?_, valid.targetsDistinct⟩, holds.targets⟩, ?_⟩
    · intro a member
      obtain ⟨pattern, nonempty, distinct, known⟩ := valid.agents a member
      exact ⟨pattern, nonempty, distinct, fun c listed => (holds.commands c).mpr (known c listed)⟩
    · intro t member
      obtain ⟨pattern, declared, set⟩ := valid.targets t member
      obtain ⟨⟨name, text⟩, entry, rfl⟩ := List.mem_map.mp declared
      obtain ⟨-, mode, rfl⟩ := valid.environments _ entry
      have found := (holds.environments _ mode).mpr entry
      exact ⟨pattern, Option.isSome_iff_exists.mpr ⟨mode, found⟩, set⟩
    · rw [← holds.version, ← digest, ← holds.maxParallelTasks]

/-- The snapshot of a document. -/
def Document.snapshot (doc : Document) : Snapshot where
  version := doc.version
  digest := []
  maxParallelTasks := doc.maxParallelTasks
  environments := doc.environments.foldl (putMap Prod.fst fun e => modeOf e.2) fun _ => none
  commands := membersOf doc.commands
  agents := doc.agents.foldl (putMap AgentDocument.id fun a => some (membersOf a.commands)) fun _ => none
  targets := doc.targets.foldl (putMap TargetDocument.id TargetDocument.target) fun _ => none

theorem Valid.contains (valid : Valid doc) : Contains doc doc.snapshot where
  version := rfl
  maxParallelTasks := rfl
  environments := environments_hold.mp ((eq_fillMap_iff doc.keyed).mp rfl)
  commands := membersOf_iff doc.commands
  agents := agents_hold.mp ((eq_fillMap_iff valid.agentsDistinct).mp rfl)
  targets := targets_hold.mp ((eq_fillMap_iff valid.targetsDistinct).mp rfl)

theorem Valid.build (valid : Valid doc) (perm : order.Perm doc.environments) :
    build go doc order = .ok doc.snapshot :=
  (build_ok_iff perm).mpr ⟨valid, valid.contains, rfl⟩

end Result

/-- **A policy is accepted exactly if it is valid**, in whatever order its environments are
met; the snapshot then contains the entries of the document and is the same for every
order. -/
theorem build_accepts_iff (go : Runtime) (doc : Document) (order : List (GoString × GoString))
    (perm : order.Perm doc.environments) :
    ((∃ s, build go doc order = .ok s) ↔ Valid doc) ∧
      ∀ s, build go doc order = .ok s →
        Contains doc s ∧ ∀ order', order'.Perm doc.environments → build go doc order' = .ok s := by
  refine ⟨⟨?_, ?_⟩, ?_⟩
  · rintro ⟨s, built⟩
    exact ((build_ok_iff perm).mp built).1
  · intro valid
    exact ⟨doc.snapshot, valid.build perm⟩
  · intro s built
    have accepted := (build_ok_iff perm).mp built
    exact ⟨accepted.2.1, fun order' perm' => (build_ok_iff perm').mpr accepted⟩

/-- The policy of the evaluation tests. -/
def testPolicy : Document where
  version := ascii "v1"
  maxParallelTasks := 4
  environments := [(ascii "staging", ascii "allow"), (ascii "production", ascii "require_approval"),
    (ascii "lab", ascii "deny")]
  commands := [ascii "MODIFY_ROUTING", ascii "UPDATE_CERTIFICATE", ascii "DELETE_POLICY"]
  agents := [
    { id := ascii "agent-a"
      commands := [ascii "MODIFY_ROUTING", ascii "UPDATE_CERTIFICATE", ascii "DELETE_POLICY"] },
    { id := ascii "agent-routing-only", commands := [ascii "MODIFY_ROUTING"] }]
  targets := [
    { id := ascii "ROOT_CORE_EDGE", environment := ascii "production", isProtected := some true },
    { id := ascii "stage-protected", environment := ascii "staging", isProtected := some true },
    { id := ascii "edge-1", environment := ascii "staging", isProtected := some false },
    { id := ascii "prod-1", environment := ascii "production", isProtected := some false },
    { id := ascii "lab-1", environment := ascii "lab", isProtected := some false }]
  keyed := by decide

theorem testPolicy_valid : Valid testPolicy := by decide +kernel

theorem build_accepts_testPolicy :
    ∃ s, build .plain testPolicy testPolicy.environments.reverse = .ok s ∧
      build .plain testPolicy testPolicy.environments = .ok s ∧ Contains testPolicy s := by
  obtain ⟨accepts, holds⟩ := build_accepts_iff .plain testPolicy _ (List.reverse_perm _)
  obtain ⟨s, built⟩ := accepts.mpr testPolicy_valid
  obtain ⟨contains, same⟩ := holds s built
  exact ⟨s, built, same _ (List.Perm.refl _), contains⟩

end SentryGate.Policy
