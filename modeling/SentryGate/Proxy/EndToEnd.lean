/-
# Proxy.EndToEnd -- from a request to the infrastructure, and back to the client

What the proxy and the workers guarantee together, with any number of requests, runs, attempts
and policy reloads interleaved.

* `calls_requested` -- where workflows are started through the proxy alone, every call of the
  adapter stands behind a request: its key belongs to the agent, its body spells the proposal, it
  was allowed by the policy that was active while it evaluated, and the client was not told
  otherwise.  There are no more dispatches than such requests.
* `responses_durable` -- what a response says lasts: the decision it names is recorded and listed
  to whoever asks later, and the run of an accepted proposal exists and passes its ingress check.

Both rest on where things come from.  A run is attributed to the call that started it
(`Attributed`), and an answer to the state it was given in (`Crew.Path.heard`).
-/
import Mathlib.Data.List.Perm.Subperm
import SentryGate.Proxy.Gateway
import SentryGate.Workflows.Authorized
import SentryGate.Workflows.Identifiers

namespace SentryGate.Proxy

open Theory Theory.Text Theory.Machine Theory.Counting Contracts Policy Decision Workflows

set_option autoImplicit false

variable {α : Type}

/-! ## What a response tells of the calls behind it -/

/-- The status the result of a start is answered with. -/
def startCode : Except StartError WorkflowRun → ℕ
  | .ok _ => 200
  | .error .failed => 502
  | .error .workflowExecutionAlreadyStarted => 409

structure Reported (trace : Transcript) (resp : Response) : Prop where
  recorded : resp.body.decisionID ≠ [] → ∃ rec, ⟨.appendDecision rec, none⟩ ∈ trace ∧
    rec.decisionID = resp.body.decisionID ∧ rec.proposalID = resp.body.proposalID ∧
    rec.verdict = resp.body.verdict ∧ rec.reasons = resp.body.reasons
  accepted : resp.code = 200 → resp.body.decisionID ≠ [] ∧ ∃ options req,
    ⟨.executeWorkflow options req, .ok ⟨resp.body.workflowID, resp.body.runID⟩⟩ ∈ trace ∧
    req.ingressDecisionID = resp.body.decisionID
  started : ∀ options req result, ⟨.executeWorkflow options req, result⟩ ∈ trace →
    resp.code = startCode result

section Reports

variable {go : Runtime} {taskQueue : GoString} {r : Request} {trace : Transcript}

/-- A response that names no decision, and none that accepts. -/
theorem Reported.silent {code : ℕ} {body : InterceptResponse} (unnamed : body.decisionID = [])
    (refused : code ≠ 200) (unstarted : ∀ x ∈ trace, isStart x = false) :
    Reported trace ⟨code, body⟩ where
  recorded named := absurd unnamed named
  accepted ok := absurd ok refused
  started _ _ _ asked := by cases unstarted _ asked

/-- A response to a request that was judged and not executed. -/
theorem Reported.judged {policy : Option Snapshot} {text : GoString} {now : Time}
    {rec : DecisionRecord} {err : Option StoreError} {code : ℕ} {body : InterceptResponse}
    (named : body.decisionID = if err.isSome then [] else rec.decisionID)
    (proposal : rec.proposalID = body.proposalID) (verdict : rec.verdict = body.verdict)
    (reasons : rec.reasons = body.reasons) (refused : code ≠ 200) :
    Reported (recording policy text now rec err) ⟨code, body⟩ where
  recorded present := by
    cases err with
    | some e => exact absurd named present
    | none => exact ⟨rec, by simp [recording], named.symm, proposal, verdict, reasons⟩
  accepted ok := absurd ok refused
  started _ _ _ asked := by cases recording_starts _ _ _ _ _ _ asked

/-- A response to a request for which a workflow was asked. -/
theorem Reported.executed {policy : Option Snapshot} {text : GoString} {now : Time}
    {rec : DecisionRecord} {options : StartWorkflowOptions} {req : ExecutionRequest}
    {result : Except StartError WorkflowRun} {resp : Response} (present : rec.decisionID ≠ [])
    (named : resp.body.decisionID ≠ [] → rec.decisionID = resp.body.decisionID ∧
      rec.proposalID = resp.body.proposalID ∧ rec.verdict = resp.body.verdict ∧
      rec.reasons = resp.body.reasons)
    (code : resp.code = startCode result) (request : req.ingressDecisionID = rec.decisionID)
    (accepted : ∀ run, result = .ok run → rec.decisionID = resp.body.decisionID ∧
      run = ⟨resp.body.workflowID, resp.body.runID⟩) :
    Reported (recording policy text now rec none ++ [⟨.executeWorkflow options req, result⟩])
      resp where
  recorded there := ⟨rec, by simp [recording], named there⟩
  accepted ok := by
    rw [code] at ok
    cases result with
    | error err => cases err <;> cases ok
    | ok run =>
        obtain ⟨same, rfl⟩ := accepted run rfl
        exact ⟨same ▸ present, options, req, by simp, request.trans same⟩
  started options' req' result' asked := by
    rcases List.mem_append.mp asked with early | last
    · cases recording_starts _ _ _ _ _ _ early
    · cases List.mem_singleton.mp last
      exact code

/-- **Every response of the handler tells the truth about its calls.** -/
theorem intercept_reported {resp : Response} (runs : (intercept go taskQueue r).Runs trace resp) :
    Reported trace resp := by
  refine runs.of_always (Q := Reported) ?_
  unfold intercept
  split
  · rename_i agentID known
    split
    · rename_i status msg refused
      refine .silent rfl ?_ (by simp)
      rcases decodeProposal_refused refused with bad | ⟨large, -⟩
      · rw [bad]
        decide
      · rw [large]
        decide
    · rename_i prop decoded
      rw [Dialogue.always_bind, always_evaluateThrottled]
      refine ⟨fun err => .silent rfl (by decide) (by simp [isStart]),
        fun err => .silent rfl (by decide) (by simp [isStart]), fun policy => ?_⟩
      simp only [Dialogue.always_bind]
      intro text now err
      split
      · exact .judged rfl rfl rfl rfl (by decide)
      · exact .judged rfl rfl rfl rfl (by decide)
      · exact .silent rfl (by decide) (recording_starts _ _ _ _ _)
      · rename_i allowed
        cases err with
        | some e => exact .silent rfl (by decide) (recording_starts _ _ _ _ _)
        | none =>
            have present := newDecisionID_ne_nil text
            intro result
            rcases result with (_ | _) | run
            · exact .executed present (fun _ => ⟨rfl, rfl, rfl, rfl⟩) rfl rfl (fun _ ok => by cases ok)
            · exact .executed present (fun there => absurd rfl there) rfl rfl
                (fun _ ok => by cases ok)
            · refine .executed present (fun _ => ⟨rfl, rfl, rfl, rfl⟩) rfl rfl ?_
              intro run' same
              cases same
              exact ⟨rfl, rfl⟩
  · exact .silent rfl (by decide) (by simp)

end Reports

/-! ## Who asked for a run -/

/-- Workflows are started through the proxy alone. -/
def viaProxy : Requests α → GatewayLabel → Bool
  | _, .other (.system (.start _ _ _ _)) => false
  | _, _ => true

/-- The start may have succeeded. -/
def mayRun : Except StartError WorkflowRun → Bool
  | .error .workflowExecutionAlreadyStarted => false
  | _ => true

/-- The execution key of a call that may have started a workflow. -/
def startedKey : Sigma ApiCall.Answer → Option GoString
  | ⟨.ingress (.executeWorkflow _ req), result⟩ =>
      if mayRun result then some (executionKey req.ingressDecisionID) else none
  | _ => none

/-- The execution key of a request for which a workflow may have been started. -/
def requestKey (m : Session) : Option GoString :=
  m.trace.findSome? startedKey

/-- A request asked for this workflow, and may have got it. -/
def Requested (s : Requests α) (workflowID : GoString) (req : ExecutionRequest) : Prop :=
  ∃ (i : ℕ) (m : Session) (options : StartWorkflowOptions) (result : Except StartError WorkflowRun),
    s.members[i]? = some m ∧ options.id = workflowID ∧ mayRun result = true ∧
    ⟨.ingress (.executeWorkflow options req), result⟩ ∈ m.trace

/-- Every run was asked for by a request. -/
def Attributed (s : Requests α) : Prop :=
  ∀ runID run, s.shared.system.runs runID = some run → Requested s run.workflowID run.req

section Attribution

variable {d : Deployment α} {G : Requests α → GatewayLabel → Prop} {s s' t : Requests α}
  {l : GatewayLabel}

theorem Requested.later {workflowID : GoString} {req : ExecutionRequest}
    (requested : Requested s workflowID req) (run : Steps (gatewayStep d) G s t) :
    Requested t workflowID req := by
  obtain ⟨i, m, options, result, found, named, may, asked⟩ := requested
  obtain ⟨m', there, -, grows, -⟩ := Crew.Steps.grows run found
  exact ⟨i, m', options, result, there, named, may, grows.subset asked⟩

/-- The run a start leaves was asked for. -/
theorem Requested.of_told {i : ℕ} {m : Session} {options : StartWorkflowOptions}
    {req : ExecutionRequest} {result : Except StartError WorkflowRun}
    {next : Except StartError WorkflowRun → Api HttpResponse} (found : s.members[i]? = some m)
    (may : mayRun result = true) (after : s'.members =
      s.members.set i (Crew.told m (.ingress (.executeWorkflow options req)) result next)) :
    Requested s' options.id req := by
  have there := List.getElem?_set_self (List.getElem?_eq_some_iff.mp found).1
    (a := Crew.told m (.ingress (.executeWorkflow options req)) result next)
  rw [← after] at there
  exact ⟨i, _, options, result, there, rfl, may, by simp [Crew.told]⟩

/-- A step of the proxy attributes what it starts. -/
theorem Attributed.step (attributed : Attributed s) (admitted : viaProxy s l = true)
    (taken : gatewayStep d s l = some s') : Attributed s' := by
  have once : Steps (gatewayStep d) anyStep s s' := (Steps.refl s).tail trivial taken
  have old : ∀ runID run, s.shared.system.runs runID = some run →
      Requested s' run.workflowID run.req :=
    fun runID run known => (attributed runID run known).later once
  intro runID run known
  cases Crew.step_taken taken with
  | enter input => exact old runID run known
  | answer i c m k next shared r found asks given =>
      cases reply_replied given with
      | lost options req fresh =>
          simp only [Gateway.withSystem, startedRun, System.runs_setRun] at known
          split at known
          · cases known
            exact Requested.of_told found rfl rfl
          · exact old runID run known
      | started options req fresh =>
          simp only [Gateway.withSystem, startedRun, System.runs_setRun] at known
          split at known
          · cases known
            exact Requested.of_told found rfl rfl
          · exact old runID run known
      | _ => exact old runID run known
  | other n shared changes =>
      cases n with
      | reload v =>
          cases changes
          exact old runID run known
      | system l =>
          obtain ⟨system, moved, same⟩ := Option.map_eq_some_iff.mp changes
          cases same
          have move := step_move moved
          cases move.runStep known with
          | kept run₀ _ before later same =>
              rw [later.workflowID, later.req]
              exact old runID run₀ before
          | heard run₀ source reply now here before said => exact old runID run₀ before
          | started workflowID req now fresh =>
              rw [move.started fresh known] at admitted
              cases admitted
          | reset base run₀ k canceled here fresh before within => exact old base run₀ before

theorem attributed {policy : Option Snapshot} {target : α} {loader : Loader}
    (run : Steps (gatewayStep d) (admits viaProxy)
      (Crew.fresh (.new (.initial policy target) loader)) s) : Attributed s := by
  refine run.invariant (P := Attributed)
    (fun u l v before admitted taken => before.step admitted taken) ?_
  intro runID run known
  cases known

end Attribution

/-! ## What stands behind a call of the adapter -/

/-- The call is made by a run, for the request of that run. -/
def CalledFor (s : System α) (call : AdapterCall) : Prop :=
  ∃ run, s.runs call.caller.runID = some run ∧ call.caller.workflowID = run.workflowID ∧
    call.request = dispatchRequest run.req

theorem CalledFor.later {w : Worker α} {s s' : System α} {l : Workflows.Label} {call : AdapterCall}
    (called : CalledFor s call) (move : Move w s l s') : CalledFor s' call := by
  obtain ⟨run, known, named, request⟩ := called
  obtain ⟨run', known', since⟩ := move.run_kept known
  exact ⟨run', known', named.trans since.workflowID.symm, by rw [request, since.req]⟩

theorem reaches_calledFor {w : Worker α} {G : System α → Workflows.Label → Prop} {s : System α}
    (reached : Reaches w G s) : ∀ call ∈ s.backend.calls, CalledFor s call := by
  refine reached.induction (P := fun s => ∀ call ∈ s.backend.calls, CalledFor s call) ?_ ?_
  · intro policy target call member
    cases member
  intro s l s' prior called _ move call member
  rcases move.calls with same | ⟨a, launched, made, ⟨caller, calls⟩, grown⟩
  · exact (called call (same ▸ member)).later move
  · rw [grown] at member
    rcases List.mem_append.mp member with before | last
    · exact (called call before).later move
    · -- the call is made in this step, by an attempt its run waits for
      cases List.mem_singleton.mp last
      obtain ⟨run, placed⟩ := prior.placed a launched
      obtain ⟨opts, waits⟩ := placed.waits
      have asks := await_asks waits
      have request : call.request = dispatchRequest run.req := by
        cases method : call.method <;> rw [method] at calls
        · obtain ⟨-, req, act, request⟩ := calls
          rw [act] at asks
          rw [← request, asks.2.1]
          rfl
        · rw [calls.2] at asks
          exact asks.2
        · rw [calls.2] at asks
          exact asks.2.1
      have here : CalledFor s call := by
        refine ⟨run, ?_, ?_, request⟩
        · rw [← caller]
          exact placed.known
        · rw [← caller]
          exact placed.workflowID
      exact here.later move

/-- What stands behind a call of the adapter, in state `s` and with the states the run has left
in `past`: the request at place `i`. -/
structure Behind (d : Deployment α) (past : List (Requests α)) (s : Requests α)
    (call : AdapterCall) (i : ℕ) (m : Session) (agentID : GoString) : Prop where
  found : s.members[i]? = some m
  /-- It was for `intercept`, with the agent's key, and its body spells the proposal. -/
  intercepts : Intercepts d.server m.input agentID
  spells : Spells m.input.body call.request.proposal
  key : requestKey m = some call.request.idempotencyKey
  /-- In a state of the run in which it had a slot it was told the policy that was active there,
  and that policy allowed the proposal. -/
  allowed : ∃ u ∈ past, ∃ m', u.members[i]? = some m' ∧ evaluating m' = true ∧
    ⟨.ingress .currentPolicy, some u.shared.loader.current⟩ ∈ m.trace ∧
    (Decision.evaluate (some u.shared.loader.current) agentID call.request.proposal).verdict = .allow
  /-- That was recorded for the agent, under the idempotency key of the call. -/
  recorded : ∃ rec ∈ s.shared.system.backend.store.records, rec.stage = .ingress ∧
    rec.verdict = .allow ∧ rec.agentID = agentID ∧ rec.proposalID = call.request.proposal.id ∧
    executionKey rec.decisionID = call.request.idempotencyKey
  /-- A client that got a response was told that a workflow runs, or that its start failed. -/
  told : ∀ resp, m.rest = .done resp → ∃ r, resp = .intercepted r ∧ (r.code = 200 ∨ r.code = 502)

section Behind

variable {d : Deployment α} {G : Requests α → GatewayLabel → Prop} {s t : Requests α}
  {loader : Loader} {system : System α}

/-- A record that the store took while the request was under way is in the store. -/
theorem recorded_kept {i : ℕ} {m : Session} {rec : DecisionRecord}
    (run : Steps (gatewayStep d) G (Crew.fresh (.new system loader)) s)
    (found : s.members[i]? = some m)
    (written : ⟨.ingress (.appendDecision rec), none⟩ ∈ m.trace)
    (later : Steps (gatewayStep d) G s t) : rec ∈ t.shared.system.backend.store.records := by
  obtain ⟨before, after, here⟩ := List.append_of_mem written
  obtain ⟨-, u, -, -, -, c, v, -, -, -, -, given, leads⟩ :=
    Crew.Steps.heard run found here (fun m₀ there => by cases there)
  have taken : rec ∈ v.shared.system.backend.store.records := by
    generalize v.shared = g' at given
    cases reply_replied (k := .ingress (.appendDecision rec)) given with
    | read _ _ reads => cases reads
    | written _ _ told => exact MemoryStore.appendDecision_mem _ (told rfl)
  exact records_kept (gateway_steps (leads.trans later)) taken

/-- The run a request was told of exists, with its input. -/
theorem run_started {i : ℕ} {m : Session} {options : StartWorkflowOptions} {req : ExecutionRequest}
    {info : WorkflowRun} (run : Steps (gatewayStep d) G (Crew.fresh (.new system loader)) s)
    (found : s.members[i]? = some m)
    (started : ⟨.ingress (.executeWorkflow options req), .ok info⟩ ∈ m.trace)
    (later : Steps (gatewayStep d) G s t) :
    info.id = options.id ∧ ∃ r, t.shared.system.runs info.runID = some r ∧
      r.workflowID = options.id ∧ r.req = req := by
  obtain ⟨before, after, here⟩ := List.append_of_mem started
  obtain ⟨-, u, -, -, -, c, v, -, -, -, -, given, leads⟩ :=
    Crew.Steps.heard run found here (fun m₀ there => by cases there)
  have kept := gateway_steps (leads.trans later)
  generalize v.shared = g' at given kept
  cases reply_replied (k := .ingress (.executeWorkflow options req)) given with
  | read _ _ reads => cases reads
  | started _ _ fresh =>
      obtain ⟨r, known, since⟩ := run_kept kept (if_pos rfl)
      exact ⟨rfl, r, known, since.workflowID, since.req⟩

/-- What a request asked before it asked for a workflow. -/
theorem asked_before {i : ℕ} {m : Session} {options : StartWorkflowOptions} {req : ExecutionRequest}
    {result : Except StartError WorkflowRun}
    (run : Steps (gatewayStep d) G (Crew.fresh (.new system loader)) s)
    (found : s.members[i]? = some m)
    (asked : ⟨.ingress (.executeWorkflow options req), result⟩ ∈ m.trace) :
    ∃ agentID policy prop text now record trace₀ rest₀ after,
      Intercepts d.server m.input agentID ∧ Spells m.input.body prop ∧
      (Decision.evaluate policy agentID prop).verdict = .allow ∧
      record = ingressRecord d.server.go (agentRequest d.server m.input agentID) agentID prop
        (Decision.evaluate policy agentID prop) text now ∧
      req = executionRequest agentID prop record ∧ options.id = workflowID prop ∧
      (intercept d.server.go d.server.taskQueue (agentRequest d.server m.input agentID)).Follows
        trace₀ rest₀ ∧
      m.trace = trace₀.map lifted ∧ m.rest = within .intercepted rest₀ ∧
      trace₀ = recording policy text now record none ++ ⟨.executeWorkflow options req, result⟩ :: after := by
  have follows := Crew.Steps.follows run m (List.mem_of_getElem? found)
  obtain ⟨agentID, trace₀, rest₀, intercepts, follows₀, trace, rest⟩ :=
    serveHTTP_ingress (k := .executeWorkflow options req) follows asked
  rw [trace] at asked
  have asked₀ : ⟨.executeWorkflow options req, result⟩ ∈ trace₀ :=
    (List.mem_map_of_injective (a := ⟨.executeWorkflow options req, result⟩) lifted_injective).mp asked
  obtain ⟨before, after, here⟩ := List.append_of_mem asked₀
  obtain ⟨more, resp, runs⟩ := follows₀.begins
  have there : trace₀ ++ more =
      before ++ ⟨.executeWorkflow options req, result⟩ :: (after ++ more) := by simp [here]
  obtain ⟨policy, agentID', prop, text, now, record, same, known, decoded, allowed, rfl, rfl, rfl⟩ :=
    (intercept_handled runs).start there
  obtain rfl : agentID = agentID' := by
    simp only [agentIDFromContext, agentRequest, Request.ofBody] at known
    exact Option.some.inj (Option.filter_eq_some_iff.mp known).1
  exact ⟨agentID, policy, prop, text, now, record, trace₀, rest₀, after, intercepts,
    (decodeProposal_spells_iff _ _ _ _ _).mp decoded, allowed, same, rfl, rfl, follows₀, trace, rest,
    here⟩

end Behind

section Requests

variable {d : Deployment α} {past : List (Requests α)} {s : Requests α} {policy : Option Snapshot} {target : α}
  {loader : Loader}

/-- The key of a request is that of the call behind its recording. -/
theorem requestKey_recording {m : Session} {policy : Option Snapshot} {text : GoString} {now : Time}
    {record : DecisionRecord} {options : StartWorkflowOptions} {req : ExecutionRequest}
    {result : Except StartError WorkflowRun} {after : Transcript} (may : mayRun result = true)
    (trace : m.trace = (recording policy text now record none ++
      ⟨.executeWorkflow options req, result⟩ :: after).map lifted) :
    requestKey m = some (executionKey req.ingressDecisionID) := by
  have here : startedKey (lifted ⟨.executeWorkflow options req, result⟩) =
      some (executionKey req.ingressDecisionID) := if_pos may
  have silent : ((recording policy text now record none).map lifted).findSome? startedKey = none :=
    rfl
  rw [requestKey, trace, List.map_append, List.findSome?_append, silent, List.map_cons,
    List.findSome?_cons_of_isSome (by rw [here]; rfl), here]
  rfl

/-- **Behind every call of the adapter stands a request.** -/
theorem behind_call (path : Path (gatewayStep d) (admits viaProxy)
    (Crew.fresh (.new (.initial policy target) loader)) past s) {call : AdapterCall}
    (made : call ∈ s.shared.system.backend.calls) :
    ∃ i m agentID, Behind d past s call i m agentID := by
  have run := path.steps
  have reached : Reaches d.worker anyStep s.shared.system := ⟨policy, target, gateway_steps run⟩
  obtain ⟨source, known, -, request⟩ := reaches_calledFor reached call made
  obtain ⟨i, m, options, result, found, named, may, asked⟩ := attributed run _ source known
  obtain ⟨agentID, policy', prop, text, now, record, trace₀, rest₀, after, intercepts, spells, allowed,
    same, input, -, follows, trace, rest, here⟩ := asked_before run found asked
  have proposal : call.request.proposal = prop := by rw [request, input]; rfl
  have key : call.request.idempotencyKey = executionKey record.decisionID := by
    rw [request, input]; rfl
  refine ⟨i, m, agentID, found, intercepts, proposal ▸ spells, ?_, ?_, ?_, ?_⟩
  · rw [requestKey_recording may (here ▸ trace), input, key]
    rfl
  · -- the policy is the one that was active when the request, with its slot, asked for it
    obtain ⟨more, asks⟩ : ∃ more, m.trace = [⟨.ingress .ctxErr, none⟩, ⟨.ingress .acquireSlot, none⟩] ++
        ⟨.ingress .currentPolicy, policy'⟩ :: more := ⟨_, by rw [trace, here]; rfl⟩
    obtain ⟨u, left, m', next, c, v, -, there, prior, -, given, -⟩ :=
      Crew.Path.heard path found asks (fun m₀ there => by cases there)
    generalize v.shared = g' at given
    cases given
    refine ⟨u, left, m', there, ?_, ?_, proposal ▸ allowed⟩
    · rw [evaluating, prior]
      rfl
    · rw [asks]
      exact List.mem_append_right _ List.mem_cons_self
  · have written : ⟨.ingress (.appendDecision record), none⟩ ∈ m.trace := by
      rw [trace, here]
      simp [recording, lifted]
    refine ⟨record, recorded_kept run found written (Steps.refl s), ?_⟩
    rw [same, proposal]
    exact ⟨rfl, allowed, rfl, rfl, (same ▸ key).symm⟩
  · intro resp returned
    rw [rest] at returned
    cases rest₀ with
    | ask k next => cases returned
    | done response =>
        cases returned
        refine ⟨response, rfl, ?_⟩
        have asked₀ : ⟨.executeWorkflow options source.req, result⟩ ∈ trace₀ := by
          rw [here]
          simp
        rw [(intercept_reported follows.returned).started _ _ _ asked₀]
        rcases result with (_ | _) | _
        · cases may
        · exact Or.inr rfl
        · exact Or.inl rfl

/-- The keys of the dispatches are all different. -/
theorem dispatch_keys_nodup {w : Worker α} {s : System α} (reached : Reachable w s) :
    ((s.backend.calls.filter fun call => call.method = .dispatch).map
      fun call => call.request.idempotencyKey).Nodup := by
  rw [List.nodup_iff_count_le_one]
  intro key
  by_cases present : key ∈ (s.backend.calls.filter fun call => call.method = .dispatch).map
      fun call => call.request.idempotencyKey
  · obtain ⟨call, member, rfl⟩ := List.mem_map.mp present
    obtain ⟨run, -, -, request⟩ := reaches_calledFor reached call (List.mem_filter.mp member).1
    have once := (reached.fenced run.req.ingressDecisionID).1
    have same : call.request.idempotencyKey = executionKey run.req.ingressDecisionID := by
      rw [request]; rfl
    rw [same, List.count_eq_countP, List.countP_map, List.countP_filter]
    refine le_trans (le_of_eq ?_) ((Nat.le_add_right _ _).trans once)
    refine List.countP_congr fun call _ => ?_
    simp [and_comm]
  · rw [List.count_eq_zero_of_not_mem present]
    exact Nat.zero_le 1

/-- **Nothing reaches the infrastructure that no agent asked for.**  Where workflows are started
through the proxy alone, a request stands behind every call of the adapter, whatever interleaves:
with the key of the agent it is recorded for, a body that spells the proposal, and an ALLOW by the
policy that was active in a state of the run in which it had its slot; and its client was not told
that nothing was executed.
There are at most as many dispatches as requests for which a workflow was started. -/
theorem calls_requested (path : Path (gatewayStep d) (admits viaProxy)
    (Crew.fresh (.new (.initial policy target) loader)) past s) :
    (∀ call ∈ s.shared.system.backend.calls, ∃ i m agentID, Behind d past s call i m agentID) ∧
    (s.shared.system.backend.calls.countP fun call => call.method = .dispatch) ≤
      s.members.countP fun m => (requestKey m).isSome := by
  refine ⟨fun call made => behind_call path made, ?_⟩
  have reached : Reachable d.worker s.shared.system := ⟨policy, target, gateway_steps path.steps⟩
  rw [← List.length_filterMap_eq_countP, List.countP_eq_length_filter,
    ← List.length_map (fun call : AdapterCall => call.request.idempotencyKey)]
  refine (List.subperm_of_subset (dispatch_keys_nodup reached) ?_).length_le
  intro key present
  obtain ⟨call, member, rfl⟩ := List.mem_map.mp present
  obtain ⟨i, m, agentID, behind⟩ := behind_call path (List.mem_filter.mp member).1
  exact List.mem_filterMap.mpr ⟨m, List.mem_of_getElem? behind.found, behind.key⟩

end Requests

/-- The workflow goes on until its dispatch has returned. -/
def demoSaga : List Workflows.Label :=
  round (ascii "r") 0 ++ [.deliver (ascii "r") (.token (ascii "t")) ⟨1⟩] ++
  round (ascii "r") 1 ++ round (ascii "r") 2 ++ round (ascii "r") 3 ++ round (ascii "r") 4 ++
  [.launch (ascii "r"), .exec 5 calm, .exec 5 calm]

/-- A request is answered to the end, and so is the dispatch of its workflow. -/
def demoDispatch : List GatewayLabel :=
  [.enter demoPost] ++ List.replicate 8 (.answer 0 easy) ++
  demoSaga.map fun l => .other (.system l)

theorem calls_requested_demo :
    ∃ past s, Path (gatewayStep demoDeployment) (admits viaProxy) demoStart past s ∧
      (s.shared.system.backend.calls.countP fun call => call.method = .dispatch) = 1 ∧
      ∀ call ∈ s.shared.system.backend.calls, ∃ i m agentID,
        Behind demoDeployment past s call i m agentID := by
  have one : (execWhile (gatewayStep demoDeployment) viaProxy demoStart demoDispatch).map
      (fun s => s.shared.system.backend.calls.countP fun call => call.method = .dispatch) = some 1 := by
    decide +kernel
  obtain ⟨s, ran, dispatched⟩ := Option.map_eq_some_iff.mp one
  obtain ⟨past, path⟩ := (steps_of_execWhile ran).path
  exact ⟨past, s, path, dispatched, (calls_requested path).1⟩

/-! ## What a client was told -/

section Told

variable {d : Deployment α} {G : Requests α → GatewayLabel → Prop} {s t : Requests α}
  {loader : Loader} {system : System α} {i : ℕ} {m : Session} {resp : Response}

/-- What a request that came later lists was in the store before. -/
theorem listed_later (later : Steps (gatewayStep d) G s t) {j : ℕ} {reader : Session}
    {id : GoString} {rows : List DecisionRecord} {rec : DecisionRecord}
    (member : rec ∈ s.shared.system.backend.store.records) (named : rec.proposalID = id)
    (after : s.members.length ≤ j) (found : t.members[j]? = some reader)
    (listed : ⟨.listDecisionsByProposal id, .ok rows⟩ ∈ reader.trace) : rec ∈ rows := by
  obtain ⟨before, rest, here⟩ := List.append_of_mem listed
  obtain ⟨-, u, -, -, -, c, v, reached, -, -, -, given, -⟩ :=
    Crew.Steps.heard later found here fun m₀ there => by
      rw [List.getElem?_eq_none after] at there
      cases there
  have kept := records_kept (gateway_steps reached) member
  generalize v.shared = g' at given
  simp only [gatewayRules, Gateway.reply, MemoryStore.listDecisionsByProposal] at given
  split at given
  · cases given
  · split at given
    · cases given
    · simp only [Option.some.injEq, Prod.mk.injEq, Except.ok.injEq] at given
      rw [← given.2]
      exact List.mem_filter.mpr ⟨kept, by simp [named]⟩

/-- **What a response says lasts.**  The decision it names is in the store from then on, as the
response describes it, and is in the list that any later request for the proposal's decisions
gets.  The run of an accepted proposal exists from then on, for that decision, and passes the
ingress check. -/
theorem responses_durable
    (run : Steps (gatewayStep d) G (Crew.fresh (.new system loader)) s)
    (found : s.members[i]? = some m) (returned : m.rest = .done (.intercepted resp))
    (later : Steps (gatewayStep d) G s t) :
    (resp.body.decisionID ≠ [] → ∃ rec ∈ t.shared.system.backend.store.records,
      rec.decisionID = resp.body.decisionID ∧ rec.proposalID = resp.body.proposalID ∧
      rec.verdict = resp.body.verdict ∧ rec.reasons = resp.body.reasons ∧
      ∀ (j : ℕ) (reader : Session) (rows : List DecisionRecord), s.members.length ≤ j →
        t.members[j]? = some reader →
        protectedRoute reader.input = some (.decisions resp.body.proposalID) →
        reader.rest = .done (.decisions rows) → rec ∈ rows) ∧
    (resp.code = 200 → ∃ source, t.shared.system.runs resp.body.runID = some source ∧
      source.workflowID = resp.body.workflowID ∧
      source.req.ingressDecisionID = resp.body.decisionID ∧
      checkIngress d.server.go (t.shared.system.backend.store.getDecision none) source.req
        source.workflowID = none) := by
  have follows := Crew.Steps.follows run m (List.mem_of_getElem? found)
  rw [returned] at follows
  constructor
  · intro named
    obtain ⟨agentID, trace₀, -, runs, trace⟩ := serveHTTP_decides follows (by
      simp [HttpResponse.decides, named])
    obtain ⟨rec, written, decision, proposal, verdict, reasons⟩ :=
      (intercept_reported runs).recorded named
    have written' : ⟨.ingress (.appendDecision rec), none⟩ ∈ m.trace := by
      rw [trace]
      exact List.mem_map.mpr ⟨_, written, rfl⟩
    refine ⟨rec, recorded_kept run found written' later, decision, proposal, verdict, reasons, ?_⟩
    intro j reader rows after there route answered
    have reads := Crew.Steps.follows (run.trans later) reader (List.mem_of_getElem? there)
    rw [answered] at reads
    exact listed_later later (recorded_kept run found written' (Steps.refl s)) proposal after there
      (serveHTTP_listed reads route)
  · intro ok
    obtain ⟨agentID, trace₀, -, runs, trace⟩ := serveHTTP_decides follows (by
      simp [HttpResponse.decides, ok])
    obtain ⟨-, options, req, started, decision⟩ := (intercept_reported runs).accepted ok
    have started' : ⟨.ingress (.executeWorkflow options req),
        .ok ⟨resp.body.workflowID, resp.body.runID⟩⟩ ∈ m.trace := by
      rw [trace]
      exact List.mem_map.mpr ⟨_, started, rfl⟩
    obtain ⟨id, source, known, workflow, input⟩ := run_started run found started' later
    refine ⟨source, known, workflow.trans id.symm, input ▸ decision, ?_⟩
    obtain ⟨agentID, policy, prop, text, now, record, trace₁, rest₁, after, -, -, allowed, same, request,
      named, -, trace', -, here⟩ := asked_before run found started'
    have written : ⟨.ingress (.appendDecision record), none⟩ ∈ m.trace := by
      rw [trace', here]
      simp [recording, lifted]
    have member := recorded_kept run found written later
    subst same
    have authorizes := ingressRecord_authorizes d.server.go
      (agentRequest d.server m.input agentID) text now allowed
    rw [input, workflow, request, checkIngress_recorded _ member (newDecisionID_ne_nil text) rfl,
      named, authorizes.verified, Option.map_none]

end Told

/-- What a request was answered with, if it accepts a proposal. -/
def acceptance : Session → Option Response
  | ⟨_, _, .done (.intercepted resp)⟩ => if resp.code = 200 then some resp else none
  | _ => none

theorem acceptance_eq_some {m : Session} {resp : Response} (accepted : acceptance m = some resp) :
    m.rest = .done (.intercepted resp) ∧ resp.code = 200 := by
  unfold acceptance at accepted
  split at accepted
  · split_ifs at accepted with ok
    cases accepted
    exact ⟨rfl, ok⟩
  · cases accepted

theorem responses_durable_demo :
    ∃ s m resp, Steps (gatewayStep demoDeployment) anyStep demoStart s ∧ s.members[0]? = some m ∧
      m.rest = .done (.intercepted resp) ∧ resp.code = 200 ∧
      ∃ source, s.shared.system.runs resp.body.runID = some source ∧
        source.workflowID = resp.body.workflowID := by
  have accepted : ((exec (gatewayStep demoDeployment) demoStart
      ([.enter demoPost] ++ List.replicate 8 (.answer 0 easy))).bind fun s =>
        (s.members[0]?.bind acceptance)).isSome = true := by decide +kernel
  obtain ⟨resp, found⟩ := Option.isSome_iff_exists.mp accepted
  obtain ⟨s, ran, there⟩ := Option.bind_eq_some_iff.mp found
  obtain ⟨m, member, accepts⟩ := Option.bind_eq_some_iff.mp there
  obtain ⟨returned, ok⟩ := acceptance_eq_some accepts
  have reached := steps_of_exec ran
  obtain ⟨source, known, named, -, -⟩ :=
    (responses_durable reached member returned (Steps.refl s)).2 ok
  exact ⟨s, m, resp, reached, member, returned, ok, source, known, named⟩

end SentryGate.Proxy
