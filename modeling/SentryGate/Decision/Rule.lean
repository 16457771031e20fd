/-
# Decision.Rule -- the verdict, read off the policy document

`Evaluate` looks things up in the maps of a snapshot; the policy is a document of lists.
`Permitted` and `failing` state the rule over those lists: a request that every check lets
pass gets the verdict of the target's environment, any other one is denied for the checks
that fail, in their fixed order.  `evaluate_follows_document` says that evaluating on the
snapshot `build` makes of the document is this rule; the fallback of `Evaluate` for an
environment without a mode is never taken, since `build` refuses a target in one.

`evaluate_tightened` is about two policies: one that only takes permissions away never
gives a request a higher verdict.
-/
import SentryGate.Policy.Build
import SentryGate.Decision.Evaluate

namespace SentryGate.Decision

open Theory.Text Contracts Policy

set_option autoImplicit false

/-! ## The checks -/

/-- The checks behind a denial, in the order they are made. -/
def checks : List ReasonName :=
  [.agentUnknown, .commandUnknown, .commandNotPermitted, .targetUnregistered, .targetProtected,
    .environmentDenied]

section Snapshots

variable (s : Snapshot) (agentID : GoString) (p : AgentProposal)

/-- The check fails on the snapshot. -/
def fails : ReasonName → Bool
  | .agentUnknown => !s.hasAgent agentID
  | .commandUnknown => !s.hasCommand p.type
  | .commandNotPermitted =>
      s.hasAgent agentID && s.hasCommand p.type && !s.agentMayUse agentID p.type
  | .targetUnregistered => (s.target p.targetID).isNone
  | .targetProtected => (s.target p.targetID).any Target.isProtected
  | .environmentDenied =>
      (s.target p.targetID).any fun t => s.environmentMode t.environment = some .deny
  | _ => false

/-- The reasons to deny a request. -/
def denials : List ReasonCode := (checks.filter (fails s agentID p)).map .named

/-- Every check passes, in an environment of the given mode. -/
structure Grants (mode : EnvironmentMode) : Prop where
  command : s.hasCommand p.type = true
  agent : s.agentMayUse agentID p.type = true
  target : ∃ t, s.target p.targetID = some t ∧ t.isProtected = false ∧
    s.environmentMode t.environment = some mode

/-- What `evaluate` can answer, and when. -/
inductive Evaluated : Verdict → List ReasonCode → Prop where
  | allow (grants : Grants s agentID p .allow) : Evaluated .allow [.named .environmentAllowed]
  | requireApproval (grants : Grants s agentID p .requireApproval) :
      Evaluated .requireApproval [.named .approvalRequired]
  | deny (failed : denials s agentID p ≠ []) : Evaluated .deny (denials s agentID p)
  | unavailable (t : Target) (found : s.target p.targetID = some t)
      (undeclared : s.environmentMode t.environment = none) :
      Evaluated .deny [.named .policyUnavailable]

end Snapshots

variable {s : Snapshot} {agentID : GoString} {p : AgentProposal}

theorem mem_denials_iff {r : ReasonName} :
    .named r ∈ denials s agentID p ↔ fails s agentID p r = true := by
  unfold denials
  cases r <;> simp [checks, fails]

theorem denials_eq_nil_iff_pass :
    denials s agentID p = [] ↔ ∀ r, fails s agentID p r = false := by
  unfold denials
  rw [List.map_eq_nil_iff, List.filter_eq_nil_iff]
  constructor
  · intro pass r
    cases r <;> first | rfl | exact Bool.eq_false_iff.mpr (pass _ (by decide))
  · intro pass r _
    simp [pass r]

/-- The list `evaluate` collects. -/
theorem denials_eq :
    (if s.hasAgent agentID then [] else [.named .agentUnknown]) ++
      (if s.hasCommand p.type then [] else [.named .commandUnknown]) ++
      (if s.hasAgent agentID && s.hasCommand p.type && !s.agentMayUse agentID p.type
        then [.named .commandNotPermitted] else []) ++
      (match s.target p.targetID with
        | none => [.named .targetUnregistered]
        | some t => if t.isProtected then [.named .targetProtected] else []) ++
      (if ((s.target p.targetID).bind fun t => s.environmentMode t.environment) = some .deny
        then [.named .environmentDenied] else []) = denials s agentID p := by
  have one : ∀ r l, (List.filter (fails s agentID p) (r :: l)).map Open.named =
      (if fails s agentID p r then [.named r] else []) ++ (l.filter (fails s agentID p)).map .named := by
    intro r l
    rw [List.filter_cons]
    split <;> rfl
  have target : (match s.target p.targetID with
      | none => [.named .targetUnregistered]
      | some t => if t.isProtected then [.named .targetProtected] else [] : List ReasonCode) =
      (if fails s agentID p .targetUnregistered then [.named .targetUnregistered] else []) ++
        (if fails s agentID p .targetProtected then [.named .targetProtected] else []) := by
    unfold fails
    cases s.target p.targetID <;> simp
  have environment : ((s.target p.targetID).bind fun t => s.environmentMode t.environment) = some .deny ↔
      fails s agentID p .environmentDenied = true := by
    unfold fails
    cases s.target p.targetID <;> simp
  unfold denials checks
  simp only [one, target, environment, List.filter_nil, List.map_nil, List.append_nil, List.append_assoc]
  have unknown : ∀ (known : Bool) (r : ReasonCode),
      (if known then [] else [r]) = if !known then [r] else [] := by
    intro known r
    cases known <;> rfl
  rw [unknown, unknown]
  rfl

theorem evaluate_some :
    evaluate (some s) agentID p =
      let mode := (s.target p.targetID).bind fun t => s.environmentMode t.environment
      let d : Decision :=
        { verdict := .deny, reasons := denials s agentID p,
          environment := ((s.target p.targetID).map Target.environment).getD [],
          policyVersion := s.version, policyDigest := s.digest }
      if denials s agentID p ≠ [] then d
      else match mode with
        | some .requireApproval =>
            { d with verdict := .requireApproval, reasons := [.named .approvalRequired] }
        | some .allow => { d with verdict := .allow, reasons := [.named .environmentAllowed] }
        | _ => { d with reasons := [.named .policyUnavailable] } := by
  rw [← denials_eq]
  rfl

/-- A request without a reason to deny it. -/
theorem denials_eq_nil_iff :
    denials s agentID p = [] ↔
      s.hasCommand p.type = true ∧ s.agentMayUse agentID p.type = true ∧
        ∃ t, s.target p.targetID = some t ∧ t.isProtected = false ∧
          s.environmentMode t.environment ≠ some .deny := by
  rw [denials_eq_nil_iff_pass]
  constructor
  · intro pass
    have agent : s.hasAgent agentID = true := by simpa [fails] using pass .agentUnknown
    have command : s.hasCommand p.type = true := by simpa [fails] using pass .commandUnknown
    have permitted : s.agentMayUse agentID p.type = true := by
      simpa [fails, agent, command] using pass .commandNotPermitted
    have registered := pass .targetUnregistered
    have unprotected := pass .targetProtected
    have environment := pass .environmentDenied
    cases found : s.target p.targetID with
    | none => simp [fails, found] at registered
    | some t =>
        exact ⟨command, permitted, t, rfl, by simpa [fails, found] using unprotected,
          by simpa [fails, found] using environment⟩
  · rintro ⟨command, permitted, t, found, unprotected, environment⟩ r
    have agent := Snapshot.hasAgent_of_agentMayUse permitted
    cases r <;> simp [fails, agent, command, permitted, found, unprotected, environment]

/-- **What `evaluate` answers.** -/
theorem evaluate_spec (s : Snapshot) (agentID : GoString) (p : AgentProposal) :
    ∃ v reasons, Evaluated s agentID p v reasons ∧ (evaluate (some s) agentID p).verdict = v ∧
      (evaluate (some s) agentID p).reasons = reasons := by
  refine ⟨_, _, ?_, rfl, rfl⟩
  rw [evaluate_some]
  by_cases failed : denials s agentID p = []
  · obtain ⟨command, agent, t, found, unprotected, mode⟩ := denials_eq_nil_iff.mp failed
    simp only [failed, found, Option.bind_some]
    cases declared : s.environmentMode t.environment with
    | none => exact .unavailable t found declared
    | some m =>
        cases m with
        | allow => exact .allow ⟨command, agent, t, found, unprotected, declared⟩
        | requireApproval => exact .requireApproval ⟨command, agent, t, found, unprotected, declared⟩
        | deny => exact absurd declared mode
  · simp only [ne_eq, failed, not_false_eq_true, if_true]
    exact .deny failed

/-- The verdict on a request that passes every check, and the reason given for it. -/
def modeVerdict : EnvironmentMode → Verdict
  | .allow => .allow
  | .requireApproval => .requireApproval
  | .deny => .deny

def modeReason : EnvironmentMode → ReasonCode
  | .allow => .named .environmentAllowed
  | .requireApproval => .named .approvalRequired
  | .deny => .named .environmentDenied

theorem Grants.unique {mode mode' : EnvironmentMode} (grants : Grants s agentID p mode)
    (grants' : Grants s agentID p mode') : mode = mode' := by
  obtain ⟨t, found, -, declared⟩ := grants.target
  obtain ⟨t', found', -, declared'⟩ := grants'.target
  cases found.symm.trans found'
  exact Option.some.inj (declared.symm.trans declared')

theorem Grants.denials_eq_nil {mode : EnvironmentMode} (grants : Grants s agentID p mode)
    (enters : mode ≠ .deny) : denials s agentID p = [] := by
  obtain ⟨t, found, unprotected, declared⟩ := grants.target
  refine denials_eq_nil_iff.mpr ⟨grants.command, grants.agent, t, found, unprotected, ?_⟩
  rw [declared]
  simpa using enters

/-- **A request that passes every check gets the verdict of its environment.** -/
theorem Grants.evaluate {mode : EnvironmentMode} (grants : Grants s agentID p mode)
    (enters : mode ≠ .deny) :
    (evaluate (some s) agentID p).verdict = modeVerdict mode ∧
      (evaluate (some s) agentID p).reasons = [modeReason mode] := by
  obtain ⟨v, reasons, spec, verdict, listed⟩ := evaluate_spec s agentID p
  rw [verdict, listed]
  cases spec with
  | allow other =>
      cases grants.unique other
      exact ⟨rfl, rfl⟩
  | requireApproval other =>
      cases grants.unique other
      exact ⟨rfl, rfl⟩
  | deny failed => exact absurd (grants.denials_eq_nil enters) failed
  | unavailable t found undeclared =>
      obtain ⟨t', found', -, declared⟩ := grants.target
      cases found.symm.trans found'
      cases undeclared.symm.trans declared

/-- Any other verdict than a denial is that of a request which passes every check. -/
theorem grants_of_evaluate {mode : EnvironmentMode} (enters : mode ≠ .deny)
    (answered : (evaluate (some s) agentID p).verdict = modeVerdict mode) :
    Grants s agentID p mode := by
  obtain ⟨v, reasons, spec, verdict, -⟩ := evaluate_spec s agentID p
  rw [verdict] at answered
  cases mode with
  | allow => cases spec <;> first | assumption | cases answered
  | requireApproval => cases spec <;> first | assumption | cases answered
  | deny => exact absurd rfl enters

/-! ## The rule over the document -/

section Documents

variable (doc : Document) (agentID : GoString) (p : AgentProposal)

/-- Every check passes on the document, and the target's environment has the mode. -/
structure Permitted (mode : EnvironmentMode) : Prop where
  agent : ∃ a ∈ doc.agents, a.id = agentID ∧ p.type ∈ a.commands
  command : p.type ∈ doc.commands
  target : ∃ t ∈ doc.targets, t.id = p.targetID ∧ t.isProtected = some false ∧
    (t.environment, Wire.text mode) ∈ doc.environments

/-- The check fails on the document. -/
def Fails : ReasonName → Prop
  | .agentUnknown => agentID ∉ doc.agents.map AgentDocument.id
  | .commandUnknown => p.type ∉ doc.commands
  | .commandNotPermitted =>
      agentID ∈ doc.agents.map AgentDocument.id ∧ p.type ∈ doc.commands ∧
        ¬ ∃ a ∈ doc.agents, a.id = agentID ∧ p.type ∈ a.commands
  | .targetUnregistered => p.targetID ∉ doc.targets.map TargetDocument.id
  | .targetProtected => ∃ t ∈ doc.targets, t.id = p.targetID ∧ t.isProtected = some true
  | .environmentDenied => ∃ t ∈ doc.targets, t.id = p.targetID ∧
      (t.environment, Wire.text EnvironmentMode.deny) ∈ doc.environments
  | _ => False

instance : DecidablePred (Fails doc agentID p)
  | .agentUnknown => inferInstanceAs (Decidable (_ ∉ _))
  | .commandUnknown => inferInstanceAs (Decidable (_ ∉ _))
  | .commandNotPermitted => inferInstanceAs (Decidable (_ ∧ _ ∧ ¬ ∃ a ∈ _, _ ∧ _))
  | .targetUnregistered => inferInstanceAs (Decidable (_ ∉ _))
  | .targetProtected => inferInstanceAs (Decidable (∃ t ∈ _, _ ∧ _))
  | .environmentDenied => inferInstanceAs (Decidable (∃ t ∈ _, _ ∧ _))
  | .approvalRequired | .environmentAllowed | .policyUnavailable | .requestHashMismatch
  | .ingressDecisionNotFound | .ingressDecisionWrongStage | .ingressDecisionNotAllow
  | .ingressAgentMismatch | .ingressHashMismatch | .ingressIdentityMismatch
  | .ingressDecisionAlreadyClaimed => inferInstanceAs (Decidable False)

/-- The checks that fail on the document, in their order. -/
def failing : List ReasonCode := (checks.filter fun r => Fails doc agentID p r).map .named

/-- The decision is the one the document states. -/
structure Follows (d : Decision) : Prop where
  allow : d.verdict = .allow ∧ d.reasons = [.named .environmentAllowed] ↔
    Permitted doc agentID p .allow
  requireApproval : d.verdict = .requireApproval ∧ d.reasons = [.named .approvalRequired] ↔
    Permitted doc agentID p .requireApproval
  deny : ¬ Permitted doc agentID p .allow → ¬ Permitted doc agentID p .requireApproval →
    d.verdict = .deny ∧ d.reasons = failing doc agentID p ∧ failing doc agentID p ≠ []
  available : .named .policyUnavailable ∉ d.reasons

end Documents

section Documents

variable {doc : Document}

theorem grants_iff (holds : Contains doc s) {mode : EnvironmentMode} :
    Grants s agentID p mode ↔ Permitted doc agentID p mode := by
  have target : (∃ t, s.target p.targetID = some t ∧ t.isProtected = false ∧
        s.environmentMode t.environment = some mode) ↔
      ∃ t ∈ doc.targets, t.id = p.targetID ∧ t.isProtected = some false ∧
        (t.environment, Wire.text mode) ∈ doc.environments := by
    rw [holds.target_iff (Q := fun environment b =>
      b = false ∧ s.environmentMode environment = some mode)]
    refine exists_congr fun t => and_congr_right fun _ => and_congr_right fun _ => ?_
    simp only [Snapshot.environmentMode, holds.environments]
    constructor
    · rintro ⟨_, set, rfl, listed⟩
      exact ⟨set, listed⟩
    · rintro ⟨set, listed⟩
      exact ⟨false, set, rfl, listed⟩
  constructor
  · intro grants
    exact ⟨(holds.agentMayUse_iff _ _).mp grants.agent, (holds.hasCommand_iff _).mp grants.command,
      target.mp grants.target⟩
  · intro permitted
    exact ⟨(holds.hasCommand_iff _).mpr permitted.command,
      (holds.agentMayUse_iff _ _).mpr permitted.agent, target.mpr permitted.target⟩

theorem fails_iff (holds : Contains doc s) (valid : Valid doc) (r : ReasonName) :
    fails s agentID p r = true ↔ Fails doc agentID p r := by
  have targetFact : ∀ Q : GoString → Bool → Bool,
      (s.target p.targetID).any (fun t => Q t.environment t.isProtected) = true ↔
        ∃ t ∈ doc.targets, t.id = p.targetID ∧ ∃ b, t.isProtected = some b ∧ Q t.environment b = true := by
    intro Q
    rw [← holds.target_iff (Q := fun environment b => Q environment b = true)]
    simp [Option.any_eq_true]
  have agent := holds.hasAgent_iff agentID
  have command := holds.hasCommand_iff p.type
  cases r with
  | agentUnknown =>
      show (!s.hasAgent agentID) = true ↔ _ ∉ _
      rw [← agent]
      simp
  | commandUnknown =>
      show (!s.hasCommand p.type) = true ↔ _ ∉ _
      rw [← command]
      simp
  | commandNotPermitted =>
      show _ = true ↔ _ ∧ _ ∧ ¬ _
      rw [← agent, ← command, ← holds.agentMayUse_iff]
      simp [fails, and_assoc]
  | targetUnregistered =>
      show (s.target p.targetID).isNone = true ↔ _ ∉ _
      rw [← holds.target_isSome_iff valid]
      simp
  | targetProtected =>
      refine (targetFact fun _ b => b).trans ?_
      refine exists_congr fun t => and_congr_right fun _ => and_congr_right fun _ => ?_
      simp
  | environmentDenied =>
      refine (targetFact fun environment _ => s.environmentMode environment = some .deny).trans ?_
      refine exists_congr fun t => and_congr_right fun member => and_congr_right fun _ => ?_
      obtain ⟨b, set⟩ := Option.isSome_iff_exists.mp (valid.targets t member).2.2
      simp [set, Snapshot.environmentMode, holds.environments]
  | _ => simp [fails, Fails]

theorem denials_eq_failing (holds : Contains doc s) (valid : Valid doc) :
    denials s agentID p = failing doc agentID p := by
  unfold denials failing
  rw [List.filter_congr fun r _ => Bool.eq_iff_iff.mpr
    ((fails_iff holds valid r).trans decide_eq_true_iff.symm)]

/-- The fallback is not reachable, and the reasons are those of the rule. -/
theorem evaluate_follows (holds : Contains doc s) (valid : Valid doc) :
    Follows doc agentID p (evaluate (some s) agentID p) := by
  have grant : ∀ mode, mode ≠ .deny →
      ((evaluate (some s) agentID p).verdict = modeVerdict mode ∧
        (evaluate (some s) agentID p).reasons = [modeReason mode] ↔ Permitted doc agentID p mode) := by
    intro mode enters
    rw [← grants_iff holds]
    exact ⟨fun answered => grants_of_evaluate enters answered.1, fun grants => grants.evaluate enters⟩
  obtain ⟨v, reasons, spec, verdict, listed⟩ := evaluate_spec s agentID p
  have reachable : ∀ t, s.target p.targetID = some t → s.environmentMode t.environment ≠ none := by
    intro t found undeclared
    obtain ⟨mode, declared⟩ := holds.declared valid found
    cases undeclared.symm.trans declared
  refine ⟨grant .allow (by decide), grant .requireApproval (by decide), ?_, ?_⟩
  · intro notAllowed notApproved
    rw [verdict, listed, ← denials_eq_failing holds valid]
    cases spec with
    | allow grants => exact absurd ((grants_iff holds).mp grants) notAllowed
    | requireApproval grants => exact absurd ((grants_iff holds).mp grants) notApproved
    | deny failed => exact ⟨rfl, rfl, failed⟩
    | unavailable t found undeclared => exact absurd undeclared (reachable t found)
  · rw [listed]
    cases spec with
    | allow => decide
    | requireApproval => decide
    | deny =>
        rw [mem_denials_iff]
        simp [fails]
    | unavailable t found undeclared => exact absurd undeclared (reachable t found)

end Documents

/-- Evaluation gives reasons of the contract only. -/
theorem evaluate_reasons (s : Option Snapshot) (agentID : GoString) (p : AgentProposal) :
    ∀ r ∈ (evaluate s agentID p).reasons, ∃ name, r = .named name := by
  intro r member
  cases s with
  | none => exact ⟨_, List.mem_singleton.mp member⟩
  | some s =>
      obtain ⟨v, reasons, spec, -, listed⟩ := evaluate_spec s agentID p
      rw [listed] at member
      cases spec with
      | deny failed =>
          obtain ⟨name, -, rfl⟩ := List.mem_map.mp member
          exact ⟨name, rfl⟩
      | _ => exact ⟨_, List.mem_singleton.mp member⟩

theorem revalidate_reasons (go : Runtime) (s : Option Snapshot) (req : ExecutionRequest) :
    ∀ r ∈ (revalidate go s req).reasons, ∃ name, r = .named name := by
  intro r member
  have evaluated := evaluate_reasons s req.agentID req.proposal r
  unfold revalidate at member
  grind

/-- **Evaluation is the rule the policy document states**, on the snapshot `build` makes of
it, whatever digest `Parse` gives that.  Revalidation is evaluation while the request hash
is the recorded one; otherwise it denies, for evaluation's reasons to deny and the hash. -/
theorem evaluate_follows_document (go : Runtime) (doc : Document) (order : List (GoString × GoString))
    (perm : order.Perm doc.environments) (s : Snapshot) (built : build go doc order = .ok s)
    (digest : GoString) :
    (∀ agentID p, Follows doc agentID p (evaluate (some { s with digest }) agentID p)) ∧
      ∀ req, (requestHash go req.proposal = req.requestHash →
          revalidate go (some { s with digest }) req =
            evaluate (some { s with digest }) req.agentID req.proposal) ∧
        (requestHash go req.proposal ≠ req.requestHash →
          (revalidate go (some { s with digest }) req).verdict = .deny ∧
          (revalidate go (some { s with digest }) req).reasons =
            (if (evaluate (some { s with digest }) req.agentID req.proposal).verdict = .deny
              then (evaluate (some { s with digest }) req.agentID req.proposal).reasons else []) ++
              [.named .requestHashMismatch]) := by
  obtain ⟨valid, holds, -⟩ := (build_ok_iff perm).mp built
  refine ⟨fun agentID p => ?_, fun req => ⟨fun same => ?_, fun differs => ?_⟩⟩
  · exact evaluate_follows (holds.withDigest digest) valid
  · exact revalidate_of_eq same
  · exact revalidate_of_ne differs

theorem evaluate_follows_testPolicy :
    build .plain testPolicy testPolicy.environments = .ok testPolicy.snapshot ∧
      (evaluate (some testPolicy.snapshot) (ascii "agent-a")
        ⟨ascii "p", ascii "MODIFY_ROUTING", ascii "edge-1", []⟩).verdict = .allow ∧
      (evaluate (some testPolicy.snapshot) (ascii "ghost")
        ⟨ascii "p", ascii "REBOOT_ALL", ascii "ROOT_CORE_EDGE", []⟩).reasons =
        [.named .agentUnknown, .named .commandUnknown, .named .targetProtected] := by
  have same := List.Perm.refl testPolicy.environments
  have built : build .plain testPolicy testPolicy.environments = .ok testPolicy.snapshot :=
    testPolicy_valid.build same
  obtain ⟨follows, -⟩ := evaluate_follows_document .plain testPolicy _ same _ built []
  refine ⟨built, ((follows _ _).allow.mpr ?_).1, ?_⟩
  · exact ⟨by decide, by decide, by decide⟩
  · have unknown : ∀ mode, ¬ Permitted testPolicy (ascii "ghost")
        ⟨ascii "p", ascii "REBOOT_ALL", ascii "ROOT_CORE_EDGE", []⟩ mode :=
      fun mode permitted => absurd permitted.agent (by decide)
    exact ((follows _ _).deny (unknown _) (unknown _)).2.1.trans (by decide)

/-! ## Two policies -/

/-- How much a mode forbids. -/
def strictness : EnvironmentMode → ℕ
  | .allow => 0
  | .requireApproval => 1
  | .deny => 2

/-- How much a verdict lets through. -/
def rank : VerdictName → ℕ
  | .deny => 0
  | .requireApproval => 1
  | .allow => 2

/-- DENY < REQUIRE_APPROVAL < ALLOW. -/
def AtMost (v w : Verdict) : Prop := ∃ a b, v = .named a ∧ w = .named b ∧ rank a ≤ rank b

/-- The new policy only takes permissions of the old one away. -/
structure Tightens (new old : Snapshot) : Prop where
  commands : ∀ c, new.hasCommand c = true → old.hasCommand c = true
  agents : ∀ agentID, new.hasAgent agentID = true → old.hasAgent agentID = true
  agentCommands : ∀ agentID c, new.agentMayUse agentID c = true → old.agentMayUse agentID c = true
  targets : ∀ id t, new.target id = some t → ∃ t', old.target id = some t' ∧
    t.environment = t'.environment ∧ (t'.isProtected = true → t.isProtected = true)
  modes : ∀ name mode mode', new.environmentMode name = some mode →
    old.environmentMode name = some mode' → strictness mode' ≤ strictness mode

/-- Tightening, read off the documents. -/
structure Narrows (new old : Document) : Prop where
  commands : ∀ c ∈ new.commands, c ∈ old.commands
  agents : ∀ a ∈ new.agents, ∃ a' ∈ old.agents, a'.id = a.id ∧ ∀ c ∈ a.commands, c ∈ a'.commands
  targets : ∀ t ∈ new.targets, ∃ t' ∈ old.targets, t'.id = t.id ∧ t'.environment = t.environment ∧
    (t'.isProtected = some true → t.isProtected = some true)
  modes : ∀ entry ∈ new.environments, ∀ entry' ∈ old.environments, entry.1 = entry'.1 →
    ∀ mode ∈ modeOf entry.2, ∀ mode' ∈ modeOf entry'.2, strictness mode' ≤ strictness mode

theorem Narrows.tightens {doc doc' : Document} {new old : Snapshot} (narrows : Narrows doc doc')
    (valid' : Valid doc') (holds : Contains doc new) (holds' : Contains doc' old) :
    Tightens new old where
  commands c known := by
    rw [holds'.hasCommand_iff]
    exact narrows.commands c ((holds.hasCommand_iff c).mp known)
  agents agentID known := by
    obtain ⟨a, member, rfl⟩ := List.mem_map.mp ((holds.hasAgent_iff agentID).mp known)
    obtain ⟨a', member', named, -⟩ := narrows.agents a member
    rw [holds'.hasAgent_iff, ← named]
    exact List.mem_map_of_mem member'
  agentCommands agentID c may := by
    obtain ⟨a, member, rfl, listed⟩ := (holds.agentMayUse_iff agentID c).mp may
    obtain ⟨a', member', named, kept⟩ := narrows.agents a member
    exact (holds'.agentMayUse_iff _ c).mpr ⟨a', member', named, kept c listed⟩
  targets id target found := by
    obtain ⟨t, member, rfl, -, environment, set⟩ := (holds.targets id target).mp found
    obtain ⟨t', member', named, kept, protection⟩ := narrows.targets t member
    obtain ⟨b, set'⟩ := Option.isSome_iff_exists.mp (valid'.targets t' member').2.2
    refine ⟨⟨t.id, t'.environment, b⟩,
      (holds'.targets _ _).mpr ⟨t', member', named, rfl, rfl, set'⟩, environment.trans kept.symm, ?_⟩
    rintro rfl
    exact Option.some.inj (set.symm.trans (protection set'))
  modes name mode mode' declared declared' := by
    have entry := (holds.environments name mode).mp declared
    have entry' := (holds'.environments name mode').mp declared'
    exact narrows.modes _ entry _ entry' rfl mode ((modeOf_eq_some_iff _ _).mpr rfl) mode'
      ((modeOf_eq_some_iff _ _).mpr rfl)

/-- The snapshot is that of an accepted document, with some digest. -/
def Accepted (s : Snapshot) : Prop :=
  ∃ go doc order built digest, order.Perm doc.environments ∧ build go doc order = .ok built ∧
    s = { built with digest }

theorem Accepted.declared (accepted : Accepted s) {id : GoString} {t : Target}
    (found : s.target id = some t) : ∃ mode, s.environmentMode t.environment = some mode := by
  obtain ⟨go, doc, order, built, digest, perm, isBuilt, rfl⟩ := accepted
  obtain ⟨valid, holds, -⟩ := (build_ok_iff perm).mp isBuilt
  exact (holds.withDigest digest).declared valid found

section Tightened

variable {old new : Snapshot}

/-- What a tighter policy grants, the old one grants in an environment no stricter. -/
theorem Grants.loosen {mode : EnvironmentMode} (grants : Grants new agentID p mode)
    (accepted : Accepted old) (tightens : Tightens new old) :
    ∃ mode', Grants old agentID p mode' ∧ strictness mode' ≤ strictness mode := by
  obtain ⟨t, found, unprotected, declared⟩ := grants.target
  obtain ⟨t', found', environment, protection⟩ := tightens.targets _ _ found
  obtain ⟨mode', declared'⟩ := accepted.declared found'
  have unprotected' : t'.isProtected = false := by
    by_contra isProtected
    rw [protection (by simpa using isProtected)] at unprotected
    cases unprotected
  refine ⟨mode', ⟨tightens.commands _ grants.command, tightens.agentCommands _ _ grants.agent, t', found',
    unprotected', declared'⟩, ?_⟩
  exact tightens.modes _ _ _ declared (environment ▸ declared')

/-- The verdict of `evaluate` on a snapshot has a name. -/
theorem evaluate_named (s : Snapshot) (agentID : GoString) (p : AgentProposal) :
    ∃ a, (evaluate (some s) agentID p).verdict = .named a := by
  obtain ⟨v, reasons, spec, verdict, -⟩ := evaluate_spec s agentID p
  rw [verdict]
  cases spec <;> exact ⟨_, rfl⟩

/-- A grant's verdict lets more through the less strict its mode is. -/
theorem modeVerdict_atMost {mode mode' : EnvironmentMode} (le : strictness mode' ≤ strictness mode) :
    AtMost (modeVerdict mode) (modeVerdict mode') := by
  cases mode <;> cases mode' <;> first | exact ⟨_, _, rfl, rfl, by decide⟩ | exact absurd le (by decide)

theorem atMost_evaluate (accepted : Accepted old) (tightens : Tightens new old) :
    AtMost (evaluate (some new) agentID p).verdict (evaluate (some old) agentID p).verdict := by
  have granted : ∀ mode, mode ≠ .deny → (evaluate (some new) agentID p).verdict = modeVerdict mode →
      AtMost (evaluate (some new) agentID p).verdict (evaluate (some old) agentID p).verdict := by
    intro mode enters answered
    obtain ⟨mode', grants, le⟩ := (grants_of_evaluate enters answered).loosen accepted tightens
    have enters' : mode' ≠ .deny := by
      rintro rfl
      cases mode <;> first | exact absurd rfl enters | exact absurd le (by decide)
    rw [answered, (grants.evaluate enters').1]
    exact modeVerdict_atMost le
  obtain ⟨a, answered⟩ := evaluate_named new agentID p
  obtain ⟨b, answered'⟩ := evaluate_named old agentID p
  cases a with
  | allow => exact granted .allow (by decide) answered
  | requireApproval => exact granted .requireApproval (by decide) answered
  | deny => exact ⟨.deny, b, answered, answered', Nat.zero_le _⟩

end Tightened

/-- **Tightening a policy never lets more through**: neither at ingress, nor at execution,
nor from the one to the other.  Only the old policy has to be an accepted one. -/
theorem evaluate_tightened (go : Runtime) (new old : Snapshot) (accepted : Accepted old)
    (tightens : Tightens new old) :
    (∀ agentID p,
      AtMost (evaluate (some new) agentID p).verdict (evaluate (some old) agentID p).verdict) ∧
    ∀ req,
      AtMost (revalidate go (some new) req).verdict (revalidate go (some old) req).verdict ∧
      AtMost (revalidate go (some new) req).verdict
        (evaluate (some old) req.agentID req.proposal).verdict := by
  refine ⟨fun agentID p => atMost_evaluate accepted tightens, fun req => ?_⟩
  have below : AtMost (evaluate (some new) req.agentID req.proposal).verdict
      (evaluate (some old) req.agentID req.proposal).verdict := atMost_evaluate accepted tightens
  by_cases same : requestHash go req.proposal = req.requestHash
  · rw [revalidate_of_eq same, revalidate_of_eq same]
    exact ⟨below, below⟩
  · obtain ⟨b, answered⟩ := evaluate_named old req.agentID req.proposal
    rw [(revalidate_of_ne same).1, (revalidate_of_ne same).1]
    exact ⟨⟨.deny, .deny, rfl, rfl, le_refl _⟩, ⟨.deny, b, rfl, answered, Nat.zero_le _⟩⟩

/-- The policy of the tests with approvals in staging and fewer of everything else. -/
def stricterPolicy : Document :=
  { testPolicy with
    environments := [(ascii "staging", ascii "require_approval"), (ascii "production", ascii "deny")]
    commands := [ascii "MODIFY_ROUTING", ascii "UPDATE_CERTIFICATE"]
    agents := [{ id := ascii "agent-a", commands := [ascii "MODIFY_ROUTING"] }]
    targets := [
      { id := ascii "ROOT_CORE_EDGE", environment := ascii "production", isProtected := some true },
      { id := ascii "edge-1", environment := ascii "staging", isProtected := some false }]
    keyed := by decide }

theorem evaluate_tightened_testPolicy :
    Tightens stricterPolicy.snapshot testPolicy.snapshot ∧ Accepted testPolicy.snapshot ∧
      AtMost (evaluate (some stricterPolicy.snapshot) (ascii "agent-a")
          ⟨ascii "p", ascii "MODIFY_ROUTING", ascii "edge-1", []⟩).verdict
        (evaluate (some testPolicy.snapshot) (ascii "agent-a")
          ⟨ascii "p", ascii "MODIFY_ROUTING", ascii "edge-1", []⟩).verdict := by
  have same := List.Perm.refl testPolicy.environments
  have built : build .plain testPolicy testPolicy.environments = .ok testPolicy.snapshot :=
    testPolicy_valid.build same
  have accepted : Accepted testPolicy.snapshot := ⟨_, _, _, _, [], same, built, rfl⟩
  have narrows : Narrows stricterPolicy testPolicy :=
    ⟨by decide, by decide, by decide, by decide +kernel⟩
  have stricter : Valid stricterPolicy := by decide +kernel
  have tightens := narrows.tightens testPolicy_valid stricter.contains testPolicy_valid.contains
  exact ⟨tightens, accepted, (evaluate_tightened .plain _ _ accepted tightens).1 _ _⟩

end SentryGate.Decision
