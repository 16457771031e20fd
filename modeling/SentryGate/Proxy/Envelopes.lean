/-
# Proxy.Envelopes -- requests that share a pool of proposals

`AcquireProposal` and `ReleaseProposal` of `proxy/proxy.go`, and `intercept` with the envelope it
decodes into.  The envelope is memory from a `sync.Pool`: the JSON decoder writes the members it
finds over whatever is there, and the handler reads the envelope again each time it uses the
proposal, while other requests get, fill and release envelopes of their own.

The handler of `Proxy.Intercept` has the proposal as a value.  `pool_transparent` says that the
two are the same: whatever a server with a pool does, one without a pool can do, call by call and
with the same responses.  No envelope is in the hands of two requests, or of one and the pool, and
those in the pool are empty.
-/
import SentryGate.Proxy.Gateway
import SentryGate.Theory.Pool

namespace SentryGate.Proxy

open Theory Theory.Text Theory.Machine Contracts Policy Decision Workflows

set_option autoImplicit false

variable {α : Type}

/-! ## The handler with an envelope -/

/-- A program of the proxy, with access to the pool. -/
abbrev Lender (β : Type) := Dialogue (Borrow.Answer Call.Answer AgentProposal) β

namespace Lender

def perform (k : Call) : Lender k.Answer := Dialogue.plainly k

/-- `proposalPool.Get()`. -/
def get : Lender ℕ := Dialogue.getCell

/-- `*p = prop` -/
def store (p : ℕ) (prop : AgentProposal) : Lender Unit := Dialogue.storeCell p prop

/-- `*p` -/
def load (p : ℕ) : Lender AgentProposal := Dialogue.loadCell p

/-- `proposalPool.Put(p)`. -/
def put (p : ℕ) : Lender Unit := Dialogue.putCell p

end Lender

def acquireProposal : Lender ℕ := do
  let p ← Lender.get
  Lender.store p emptyProposal
  return p

def releaseProposal (p : ℕ) : Lender Unit := do
  Lender.store p emptyProposal
  Lender.put p

/-- `decodeProposal`: the status and the message of the refusal, or none.  The first `Decode`
writes to the envelope as it is. -/
def decodeInto (texts : DecodeError → GoString) (body : GoString) (p : ℕ) :
    Lender (Option (ℕ × GoString)) := do
  let oversized := decide (maxBodyBytes < body.length)
  match readValue oversized (body.take maxBodyBytes) with
  | .tooLarge => return some (413, tooLargeMessage)
  | .eof => return some (400, ascii "invalid agent proposal: " ++ ascii "EOF")
  | .failed e => return some (400, ascii "invalid agent proposal: " ++ texts e)
  | .value v rest =>
  let old ← Lender.load p
  Lender.store p (storeValue old v).1
  match (storeValue old v).2 with
  | some e => return some (400, ascii "invalid agent proposal: " ++ texts e)
  | none =>
  match secondDecode texts oversized rest with
  | .tooLarge => return some (413, tooLargeMessage)
  | .eof =>
      let prop ← Lender.load p
      if proposalIDPattern.matchString prop.id then return none
      else return some (400, ascii "invalid agent proposal: id must match " ++ proposalIDPatternText)
  | _ => return some (400, ascii "invalid agent proposal: unexpected data after JSON object")

/-- `SentryProxy.Evaluate`, of a pointer. -/
def evaluateAt (agentID : GoString) (p : ℕ) : Lender Contracts.Decision := do
  let policy ← Lender.perform .currentPolicy
  let prop ← Lender.load p
  return Decision.evaluate policy agentID prop

/-- `SentryProxy.EvaluateThrottled`, of a pointer. -/
def evaluateThrottledAt (agentID : GoString) (p : ℕ) :
    Lender (Except GoString Contracts.Decision) := do
  if let some err ← Lender.perform .ctxErr then
    return .error err
  if let some err ← Lender.perform .acquireSlot then
    return .error err
  let d ← evaluateAt agentID p
  let _ ← Lender.perform .releaseSlot
  return .ok d

/-- What `intercept` answers for the proposal at `p`. -/
def interceptAt (srv : Server) (req : Request) (body : GoString) (agentID : GoString) (p : ℕ) :
    Lender Response := do
  if let some (status, msg) ← decodeInto srv.texts body p then
    return writeError status (ascii "invalid") msg
  match ← evaluateThrottledAt agentID p with
  | .error _ =>
      return writeError 503 (ascii "unavailable") (ascii "request cancelled before evaluation")
  | .ok d =>
  let text ← Lender.perform .randText
  let prop ← Lender.load p
  let now ← Lender.perform .now
  let record := ingressRecord srv.go req agentID prop d text now
  let recordErr ← Lender.perform (.appendDecision record)
  let prop ← Lender.load p
  let resp : InterceptResponse :=
    { verdict := d.verdict, reasons := d.reasons, proposalID := prop.id,
      decisionID := if recordErr.isSome then [] else record.decisionID }
  match d.verdict with
  | .deny => return ⟨403, { resp with status := ascii "rejected" }⟩
  | .requireApproval => return ⟨403, { resp with status := ascii "not_executed" }⟩
  | .other _ _ => return writeError 500 (ascii "error") (ascii "internal error")
  | .allow =>
  if recordErr.isSome then
    return writeError 503 (ascii "unavailable")
      (ascii "decision could not be recorded; proposal not executed")
  let prop ← Lender.load p
  match ← Lender.perform (.executeWorkflow (startOptions srv.taskQueue prop)
      (executionRequest agentID prop record)) with
  | .error .workflowExecutionAlreadyStarted =>
      return ⟨409, { resp with
        status := ascii "not_executed"
        error := ascii
          "a workflow for this proposal id is already running; this request was not executed" }⟩
  | .error .failed =>
      return writeError 502 (ascii "error") (ascii "failed to start workflow")
  | .ok run =>
      let prop ← Lender.load p
      return ⟨200, { resp with
        status := ascii "accepted"
        workflowID := run.id
        runID := run.runID
        next := ascii "GET /v1/decisions/" ++ prop.id ++ ascii " and /v1/audit/" ++ prop.id }⟩

/-- `intercept`; the envelope is released when it returns. -/
def interceptPooled (srv : Server) (r : HttpRequest) (agent : GoString) : Lender Response := do
  let req := agentRequest srv r agent
  let some agentID := agentIDFromContext req
    | return writeError 401 (ascii "unauthorized") (ascii "missing or invalid API key")
  let p ← acquireProposal
  let resp ← interceptAt srv req r.body agentID p
  releaseProposal p
  return resp

/-! ## It is the plain handler -/

/-- The envelope holds this proposal, and both have the same result. -/
def Holding {β : Type} (p : ℕ) (prop : AgentProposal) (b : Option (ℕ × AgentProposal)) (x y : β) : Prop :=
  b = some (p, prop) ∧ x = y

abbrev SimulatesPlain {β β' : Type} (Φ : Option (ℕ × AgentProposal) → β → β' → Prop)
    (b : Option (ℕ × AgentProposal)) (p : Lender β) (q : Handler β') : Prop :=
  Dialogue.Simulates emptyProposal Φ b p q

open Dialogue

theorem evaluateAt_simulates (agentID : GoString) (p : ℕ) (prop : AgentProposal) :
    SimulatesPlain (Holding p prop) (some (p, prop)) (evaluateAt agentID p)
      (evaluate agentID prop) :=
  Simulates.plainly fun _ => Simulates.loadCell (Simulates.pure ⟨rfl, rfl⟩)

theorem evaluateThrottledAt_simulates (agentID : GoString) (p : ℕ) (prop : AgentProposal) :
    SimulatesPlain (Holding p prop) (some (p, prop)) (evaluateThrottledAt agentID p)
      (evaluateThrottled agentID prop) := by
  refine Simulates.plainly fun ended => ?_
  cases ended with
  | some err => exact Simulates.pure ⟨rfl, rfl⟩
  | none =>
      refine Simulates.plainly fun waited => ?_
      cases waited with
      | some err => exact Simulates.pure ⟨rfl, rfl⟩
      | none =>
          refine (evaluateAt_simulates agentID p prop).bind ?_
          rintro _ d _ ⟨rfl, rfl⟩
          exact Simulates.plainly fun _ => Simulates.pure ⟨rfl, rfl⟩

/-- What the envelope holds when `decodeProposal` returns. -/
inductive DecodedInto (decoded : Except (ℕ × GoString) AgentProposal) (p : ℕ) :
    Option (ℕ × AgentProposal) → Option (ℕ × GoString) → Unit → Prop where
  | refused (status : ℕ) (msg : GoString) (left : AgentProposal)
      (same : decoded = .error (status, msg)) :
      DecodedInto decoded p (some (p, left)) (some (status, msg)) ()
  | accepted (prop : AgentProposal) (same : decoded = .ok prop) :
      DecodedInto decoded p (some (p, prop)) none ()

/-- Into an empty envelope a proposal is decoded as it is into a new value. -/
theorem decodeInto_simulates (texts : DecodeError → GoString) (agentID traceID : Option GoString)
    (body : GoString) (p : ℕ) :
    SimulatesPlain (DecodedInto (decodeProposal (.ofBody texts agentID traceID body)) p)
      (some (p, emptyProposal)) (decodeInto texts body p) (pure ()) := by
  cases got : readValue (decide (maxBodyBytes < body.length)) (body.take maxBodyBytes) with
  | tooLarge =>
      simp only [decodeInto, got]
      refine Simulates.pure (.refused _ _ _ ?_)
      simp [decodeProposal, Request.ofBody, firstDecode, got]
  | eof =>
      simp only [decodeInto, got]
      refine Simulates.pure (.refused _ _ _ ?_)
      simp [decodeProposal, Request.ofBody, firstDecode, got, Decoded.text]
  | failed e =>
      simp only [decodeInto, got]
      refine Simulates.pure (.refused _ _ _ ?_)
      simp [decodeProposal, Request.ofBody, firstDecode, got, Decoded.text]
  | value v rest =>
      simp only [decodeInto, got]
      refine Simulates.loadCell (Simulates.storeCell ?_)
      cases stored : storeValue emptyProposal v with
      | mk prop failed =>
      cases failed with
      | some e =>
          refine Simulates.pure (.refused _ _ _ ?_)
          simp [decodeProposal, Request.ofBody, firstDecode, got, stored, Decoded.text]
      | none =>
          simp only
          cases behind : secondDecode texts (decide (maxBodyBytes < body.length)) rest with
          | tooLarge =>
              refine Simulates.pure (.refused _ _ _ ?_)
              simp [decodeProposal, Request.ofBody, firstDecode, got, stored, behind]
          | value _ =>
              refine Simulates.pure (.refused _ _ _ ?_)
              simp [decodeProposal, Request.ofBody, firstDecode, got, stored, behind]
          | failed msg =>
              refine Simulates.pure (.refused _ _ _ ?_)
              simp [decodeProposal, Request.ofBody, firstDecode, got, stored, behind]
          | eof =>
              refine Simulates.loadCell ?_
              by_cases named : proposalIDPattern.matchString prop.id = true
              · rw [if_pos named]
                refine Simulates.pure (.accepted _ ?_)
                simp [decodeProposal, Request.ofBody, firstDecode, got, stored, behind, named]
              · rw [if_neg named]
                refine Simulates.pure (.refused _ _ _ ?_)
                simp [decodeProposal, Request.ofBody, firstDecode, got, stored, behind, named]

/-- Some envelope is still held, and both have the same result. -/
def Finished {β : Type} (p : ℕ) (b : Option (ℕ × AgentProposal)) (x y : β) : Prop :=
  (∃ left, b = some (p, left)) ∧ x = y

theorem interceptAt_simulates (srv : Server) (r : HttpRequest) (agent : GoString) {agentID : GoString}
    (named : agentIDFromContext (agentRequest srv r agent) = some agentID) (p : ℕ) :
    SimulatesPlain (Finished p) (some (p, emptyProposal))
      (interceptAt srv (agentRequest srv r agent) r.body agentID p)
      (intercept srv.go srv.taskQueue (agentRequest srv r agent)) := by
  have finish : ∀ (left : AgentProposal) (resp : Response),
      SimulatesPlain (Finished p) (some (p, left)) (pure resp : Lender Response) (pure resp) :=
    fun left resp => Simulates.pure ⟨⟨left, rfl⟩, rfl⟩
  unfold interceptAt intercept
  rw [named]
  refine Simulates.first (decodeInto_simulates srv.texts (some agent) r.traceID r.body p) ?_
  rintro _ _ (⟨status, msg, left, same⟩ | ⟨prop, same⟩)
  · have decoded : decodeProposal (agentRequest srv r agent) = .error (status, msg) := same
    simp only [decoded]
    exact finish left _
  · have decoded : decodeProposal (agentRequest srv r agent) = .ok prop := same
    simp only [decoded]
    refine (evaluateThrottledAt_simulates agentID p prop).bind ?_
    rintro _ evaluated _ ⟨rfl, rfl⟩
    cases evaluated with
    | error err => exact finish prop _
    | ok d =>
        refine Simulates.plainly fun text => Simulates.loadCell (Simulates.plainly fun now => ?_)
        refine Simulates.plainly fun recordErr => Simulates.loadCell ?_
        rcases verdict : d.verdict with (_ | _ | _) | _
        · cases recordErr with
          | some err => exact finish prop _
          | none =>
              refine Simulates.loadCell (Simulates.plainly fun started => ?_)
              rcases started with (_ | _) | run
              · exact finish prop _
              · exact finish prop _
              · exact Simulates.loadCell (finish prop _)
        · exact finish prop _
        · exact finish prop _
        · exact finish prop _

theorem interceptPooled_simulates (srv : Server) (r : HttpRequest) (agent : GoString) :
    SimulatesPlain Crew.Same none (interceptPooled srv r agent)
      (intercept srv.go srv.taskQueue (agentRequest srv r agent)) := by
  cases named : agentIDFromContext (agentRequest srv r agent) with
  | none =>
      simp only [interceptPooled, intercept, named]
      exact Simulates.pure ⟨rfl, rfl⟩
  | some agentID =>
      simp only [interceptPooled, named]
      refine Simulates.getCell fun p old => Simulates.storeCell ?_
      refine Simulates.last (interceptAt_simulates srv r agent named p) ?_
      rintro _ resp _ ⟨⟨left, rfl⟩, rfl⟩
      exact Simulates.storeCell (Simulates.putCell (Simulates.pure ⟨rfl, rfl⟩))

/-! ## The server with a pool -/

/-- A handler, with access to the pool. -/
abbrev PooledApi (β : Type) := Dialogue (Borrow.Answer ApiCall.Answer AgentProposal) β

/-- A handler that does not use the pool. -/
def withoutPool {β : Type} : Api β → PooledApi β
  | .done b => .done b
  | .ask k next => .ask (.plain k) fun r => withoutPool (next r)

/-- A program of the proxy among the handlers. -/
def withinPooled {β γ : Type} (wrap : β → γ) : Lender β → PooledApi γ
  | .done b => .done (wrap b)
  | .ask (.plain k) next => .ask (.plain (.ingress k)) fun r => withinPooled wrap (next r)
  | .ask .get next => .ask .get fun p => withinPooled wrap (next p)
  | .ask (.store p prop) next => .ask (.store p prop) fun r => withinPooled wrap (next r)
  | .ask (.load p) next => .ask (.load p) fun prop => withinPooled wrap (next prop)
  | .ask (.put p) next => .ask (.put p) fun r => withinPooled wrap (next r)

section Serve

variable (srv : Server)

def serveProtectedPooled (r : HttpRequest) (agentID : GoString) : PooledApi HttpResponse :=
  match protectedRoute r with
  | none => return .mux
  | some .intercept => withinPooled .intercepted (interceptPooled srv r agentID)
  | some (.decisions id) => withoutPool (decisionsByProposal id)
  | some (.audit id) => withoutPool (auditByProposal id)
  | some .policy => withoutPool policyStatus

def serveHTTPPooled (r : HttpRequest) : PooledApi HttpResponse :=
  match route r with
  | none => return .mux
  | some .healthz => withoutPool healthz
  | some .readyz => withoutPool readyz
  | some .v1 => middleware srv r (serveProtectedPooled srv r)

end Serve

abbrev SimulatesApi {β : Type} (p : PooledApi β) (q : Api β) : Prop :=
  Simulates emptyProposal Crew.Same none p q

theorem withoutPool_simulates {β : Type} (q : Api β) : SimulatesApi (withoutPool q) q := by
  induction q with
  | done b => exact ⟨b, rfl, rfl, rfl⟩
  | ask k next ih => exact ⟨next, rfl, ih⟩

theorem withinPooled_simulates {β γ : Type} (wrap : β → γ) {b : Option (ℕ × AgentProposal)}
    {p : Lender β} {q : Handler β} (simulates : SimulatesPlain Crew.Same b p q) :
    Simulates emptyProposal Crew.Same b (withinPooled wrap p) (within wrap q) := by
  induction p generalizing b q with
  | done x =>
      obtain ⟨y, rfl, returned, rfl⟩ := simulates
      exact ⟨wrap x, rfl, returned, rfl⟩
  | ask k next ih =>
      cases k with
      | plain k =>
          obtain ⟨next', rfl, rest⟩ := simulates
          exact ⟨_, rfl, fun r => ih r (rest r)⟩
      | get => exact ⟨simulates.1, fun p prop => ih p (simulates.2 p prop)⟩
      | store p prop => exact ⟨simulates.1, ih () simulates.2⟩
      | load p =>
          obtain ⟨prop, holds, rest⟩ := simulates
          exact ⟨prop, holds, ih prop rest⟩
      | put p => exact ⟨simulates.1, ih () simulates.2⟩

theorem serveHTTPPooled_simulates (srv : Server) (r : HttpRequest) :
    SimulatesApi (serveHTTPPooled srv r) (serveHTTP srv r) := by
  unfold serveHTTPPooled serveHTTP
  cases route r with
  | none => exact Simulates.pure ⟨rfl, rfl⟩
  | some outer =>
      cases outer with
      | healthz => exact withoutPool_simulates healthz
      | readyz => exact withoutPool_simulates readyz
      | v1 =>
          show SimulatesApi (middleware srv r (serveProtectedPooled srv r))
            (middleware srv r (serveProtected srv r))
          unfold middleware
          rcases srv.keyring.resolve srv.go r.apiKey with _ | ⟨agentID, _ | _⟩
          · exact Simulates.pure ⟨rfl, rfl⟩
          · exact Simulates.pure ⟨rfl, rfl⟩
          · show SimulatesApi (serveProtectedPooled srv r agentID) (serveProtected srv r agentID)
            unfold serveProtectedPooled serveProtected
            cases protectedRoute r with
            | none => exact Simulates.pure ⟨rfl, rfl⟩
            | some inner =>
                cases inner with
                | intercept =>
                    exact withinPooled_simulates _ (interceptPooled_simulates srv r agentID)
                | decisions id => exact withoutPool_simulates (decisionsByProposal id)
                | audit id => exact withoutPool_simulates (auditByProposal id)
                | policy => exact withoutPool_simulates policyStatus

/-- Requests under way, with what they share and the pool. -/
abbrev PooledRequests (α : Type) :=
  Crew (Borrow.Answer ApiCall.Answer AgentProposal) (Gateway α × Cells AgentProposal) HttpRequest
    HttpResponse

abbrev PooledSession := Member (Borrow.Answer ApiCall.Answer AgentProposal) HttpRequest HttpResponse

/-- One step of the server with the pool and everything around it; the garbage collector may empty
the pool. -/
abbrev pooledStep (d : Deployment α) : PooledRequests α →
    Crew.Label HttpRequest (Circumstance × ℕ) (Outside ⊕ ℕ) → Option (PooledRequests α) :=
  Crew.step (Crew.pooled (gatewayRules d) emptyProposal (serveHTTPPooled d.server))

/-- The server at its start, with nothing in the pool. -/
def pooledStart (system : System α) (loader : Loader) : PooledRequests α :=
  Crew.fresh (Gateway.new system loader, .empty emptyProposal)

/-- **The pool is not to be seen.**  However requests, reloads, the system and the garbage collector
interleave, the server with a pool of envelopes does what the server does that has every proposal
as a value: the same state, and for every request the same calls with the same answers and the same
response.  No envelope is held by two requests or by one and the pool, a request that has returned
holds none, and what is in the pool is empty. -/
theorem pool_transparent (d : Deployment α) (system : System α) (loader : Loader)
    (s : PooledRequests α) (run : Steps (pooledStep d) anyStep (pooledStart system loader) s) :
    (∃ t : Requests α, Steps (gatewayStep d) anyStep (Crew.fresh (.new system loader)) t ∧
      t.shared = s.shared.1 ∧ t.members.length = s.members.length ∧
      ∀ (i : ℕ) (m : PooledSession), s.members[i]? = some m → ∃ m' : Session,
        t.members[i]? = some m' ∧ m'.input = m.input ∧ m'.trace = plainCalls m.trace ∧
        ∀ resp, m.rest = .done resp → m'.rest = .done resp ∧ lent m.trace = none) ∧
    (∀ (i j : ℕ) (m m' : PooledSession) (p : ℕ), s.members[i]? = some m →
      s.members[j]? = some m' → lent m.trace = some p → lent m'.trace = some p → i = j) ∧
    (∀ m ∈ s.members, ∀ p, lent m.trace = some p → p ∉ s.shared.2.free) ∧
    s.shared.2.free.Nodup ∧
    ∀ p ∈ s.shared.2.free, s.shared.2.contents p = emptyProposal := by
  obtain ⟨t, b, reached, paired⟩ :=
    Crew.pooled_refines (serveHTTPPooled_simulates d.server) run
  -- what a request holds is what was lent to it
  have holds : ∀ (i : ℕ) (m : PooledSession) (p : ℕ), s.members[i]? = some m →
      lent m.trace = some p → ∃ prop, b i = some (p, prop) := by
    intro i m p found held
    obtain ⟨-, -, -, -, lends, -⟩ := paired.members i m found
    rw [held] at lends
    obtain ⟨⟨p', prop⟩, same, rfl⟩ := Option.map_eq_some_iff.mp lends.symm
    exact ⟨prop, same⟩
  refine ⟨⟨t, reached, paired.shared, paired.length, ?_⟩, ?_, ?_, paired.lends.nodup,
    fun p member => (paired.lends.free p member).2⟩
  · intro i m found
    obtain ⟨m', here, input, calls, lends, simulates⟩ := paired.members i m found
    refine ⟨m', here, input, calls, fun resp returned => ?_⟩
    rw [returned] at simulates
    obtain ⟨resp', returned', none_lent, rfl⟩ := simulates
    rw [lends, none_lent]
    exact ⟨returned', rfl⟩
  · intro i j m m' p found found' held held'
    obtain ⟨prop, first⟩ := holds i m p found held
    obtain ⟨prop', second⟩ := holds j m' p found' held'
    exact paired.lends.apart first second
  · intro m member p held
    obtain ⟨i, found⟩ := List.mem_iff_getElem?.mp member
    obtain ⟨prop, first⟩ := holds i m p found held
    exact paired.lends.kept first

/-- Two requests, with an envelope each; the first releases its own and the second goes on. -/
def envelopes : List (Crew.Label HttpRequest (Circumstance × ℕ) (Outside ⊕ ℕ)) :=
  [.enter demoPost, .enter { demoPost with body := ascii "\x7b\x7d" }] ++
    List.replicate 3 (.answer 0 (easy, 0)) ++ List.replicate 3 (.answer 1 (easy, 0)) ++
    List.replicate 17 (.answer 0 (easy, 0)) ++ List.replicate 2 (.answer 1 (easy, 0))

theorem pool_transparent_envelopes :
    ∃ s, exec (pooledStep demoDeployment) (pooledStart (.initial (some openPolicy) .new) demoLoader)
        envelopes = some s ∧ s.members.length = 2 ∧ s.shared.2.made = 2 ∧
      ∀ p ∈ s.shared.2.free, s.shared.2.contents p = emptyProposal := by
  have two : (exec (pooledStep demoDeployment)
      (pooledStart (.initial (some openPolicy) .new) demoLoader) envelopes).map
      (fun s => (s.members.length, s.shared.2.made)) = some (2, 2) := by decide +kernel
  obtain ⟨s, ran, same⟩ := Option.map_eq_some_iff.mp two
  exact ⟨s, ran, congrArg Prod.fst same, congrArg Prod.snd same,
    (pool_transparent demoDeployment _ demoLoader s (steps_of_exec ran)).2.2.2.2⟩

end SentryGate.Proxy
