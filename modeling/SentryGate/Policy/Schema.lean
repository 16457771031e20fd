/-
# Policy.Schema -- the validated policy snapshot and its lookups

`internal/policy/schema.go`.  A Go map is the partial function it stands for; a
set (`map[K]struct{}`) is its membership test.  `Snapshot`'s fields are
unexported and filled only by `build`, so the mode of an environment is one of
the three modes `build` accepts.
-/
import SentryGate.Contracts

namespace SentryGate.Policy

open Theory.Text Contracts

set_option autoImplicit false

/-- The rule applied to every mutation in an environment. -/
inductive EnvironmentMode where
  | allow | requireApproval | deny
  deriving DecidableEq

/-- A registered infrastructure target. -/
structure Target where
  id : GoString
  environment : GoString
  isProtected : Bool
  deriving DecidableEq

/-- An immutable, validated policy. -/
structure Snapshot where
  version : GoString
  digest : GoString
  maxParallelTasks : Int
  environments : GoString → Option EnvironmentMode
  commands : CommandType → Bool
  agents : GoString → Option (CommandType → Bool)
  targets : GoString → Option Target

namespace Snapshot

/-- The command is in the catalogue. -/
def hasCommand (s : Snapshot) (c : CommandType) : Bool := s.commands c

/-- The agent is declared. -/
def hasAgent (s : Snapshot) (agentID : GoString) : Bool := (s.agents agentID).isSome

/-- A declared agent is permitted to issue the command. -/
def agentMayUse (s : Snapshot) (agentID : GoString) (c : CommandType) : Bool :=
  match s.agents agentID with
  | none => false
  | some cmds => cmds c

theorem hasAgent_of_agentMayUse {s : Snapshot} {agentID : GoString} {c : CommandType}
    (may : s.agentMayUse agentID c = true) : s.hasAgent agentID = true := by
  unfold agentMayUse at may
  unfold hasAgent
  split at may
  · cases may
  · rename_i found
    rw [found]
    rfl

/-- The registered target with the given ID. -/
def target (s : Snapshot) (id : GoString) : Option Target := s.targets id

/-- The rule for a declared environment. -/
def environmentMode (s : Snapshot) (name : GoString) : Option EnvironmentMode :=
  s.environments name

end Snapshot

end SentryGate.Policy
