/-
# Proxy.Server -- requests, routes, keys and handlers

`newHandler` of `cmd/sentrygate/handler.go` with its handlers, and `Middleware` of
`internal/auth/agentkeys.go`.  A request comes with its method, the segments of its path, its
API key and its body; the handlers are dialogues over the calls of `intercept` and those of the
endpoints that only read.

`serveHTTP_cases` says what one request can lead to.  Behind the middleware it is an agent's:
`intercept` runs for the agent of the presented key and the body as it was sent, and nothing
else calls what `intercept` calls.

`ServeMux` is modelled as documented, on paths that are clean.  The answers it gives by itself
(no such path, another method, a redirect) are not told apart.  Log lines are left out, and so
is the two-second timeout of the readiness probe.
-/
import SentryGate.Auth.AgentKeys
import SentryGate.Policy.Loader
import SentryGate.Proxy.ProposalText
import SentryGate.Theory.Crew

namespace SentryGate.Proxy

open Theory Theory.Text Contracts Policy Decision Auth

set_option autoImplicit false

/-! ## Requests and responses -/

inductive Method where
  | get | head | post
  | other (name : GoString)
  deriving DecidableEq

/-- `GET` in a pattern also stands for `HEAD`. -/
def Method.isGet : Method → Bool
  | .get | .head => true
  | _ => false

structure HttpRequest where
  method : Method
  /-- What is between the slashes of the path, unescaped. -/
  path : List GoString
  /-- `r.Header.Get(HeaderAPIKey)`, empty where there is none. -/
  apiKey : GoString
  traceID : Option GoString
  body : GoString
  deriving DecidableEq

inductive HttpResponse where
  /-- An answer of `ServeMux` itself. -/
  | mux
  /-- The handler panicked. -/
  | aborted
  | text (code : ℕ) (body : GoString)
  | intercepted (r : Response)
  | decisions (rows : List DecisionRecord)
  | audits (rows : List AuditRecord)
  | status (st : Status)

/-! ## Routes -/

inductive Route where
  | healthz | readyz | v1
  deriving DecidableEq

/-- The outer `ServeMux`. -/
def route (r : HttpRequest) : Option Route :=
  match r.path with
  | [only] =>
      if r.method.isGet && only == ascii "healthz" then some .healthz
      else if r.method.isGet && only == ascii "readyz" then some .readyz
      else none
  | first :: _ :: _ => if first == ascii "v1" then some .v1 else none
  | [] => none

inductive ProtectedRoute where
  | intercept
  | decisions (proposalID : GoString)
  | audit (proposalID : GoString)
  | policy
  deriving DecidableEq

/-- The `ServeMux` behind the middleware, for a path that begins with `v1`.  A wildcard stands
for one segment that is not empty. -/
def protectedRoute (r : HttpRequest) : Option ProtectedRoute :=
  match r.path with
  | [_, name] =>
      if r.method == .post && name == ascii "intercept" then some .intercept
      else if r.method.isGet && name == ascii "policy" then some .policy
      else none
  | [_, name, proposalID] =>
      if proposalID == [] then none
      else if r.method.isGet && name == ascii "decisions" then some (.decisions proposalID)
      else if r.method.isGet && name == ascii "audit" then some (.audit proposalID)
      else none
  | _ => none

/-! ## Handlers -/

/-- The calls of the handlers: those of `intercept`, and those of the endpoints that read. -/
inductive ApiCall where
  | ingress (k : Call)
  | ping
  /-- `Status` loads the active policy, and then reads the rest under the lock. -/
  | currentSnapshot
  | lockedStatus (cur : Snapshot)
  | listDecisionsByProposal (proposalID : GoString)
  | listByProposal (proposalID : GoString)

abbrev ApiCall.Answer : ApiCall → Type
  | .ingress k => k.Answer
  | .ping => Option GoString
  | .currentSnapshot => Snapshot
  | .lockedStatus _ => Status
  | .listDecisionsByProposal _ => Except StoreError (List DecisionRecord)
  | .listByProposal _ => Except StoreError (List AuditRecord)

abbrev Api (β : Type) := Dialogue ApiCall.Answer β

/-- Make one call. -/
def Api.call (k : ApiCall) : Api k.Answer := Dialogue.call k

/-- A program of the proxy among the handlers. -/
def within {β γ : Type} (wrap : β → γ) : Handler β → Api γ
  | .done b => .done (wrap b)
  | .ask k next => .ask (.ingress k) fun r => within wrap (next r)

/-- What the server is started with. -/
structure Server where
  go : Runtime
  keyring : Keyring
  taskQueue : GoString
  /-- The texts of the JSON decoder's errors. -/
  texts : DecodeError → GoString

def healthz : Api HttpResponse := return .text 200 (ascii "ok")

def readyz : Api HttpResponse := do
  match ← Api.call .ping with
  | some _ => return .text 503 (ascii "audit db not ready\n")
  | none => return .text 200 (ascii "ready")

def policyStatus : Api HttpResponse := do
  let cur ← Api.call .currentSnapshot
  let st ← Api.call (.lockedStatus cur)
  return .status st

def invalidProposalID : HttpResponse :=
  .intercepted (writeError 400 (ascii "invalid") (ascii "invalid proposal id"))

def internalError : HttpResponse :=
  .intercepted (writeError 500 (ascii "error") (ascii "internal error"))

def decisionsByProposal (id : GoString) : Api HttpResponse := do
  if !proposalIDPattern.matchString id then return invalidProposalID
  match ← Api.call (.listDecisionsByProposal id) with
  | .error _ => return internalError
  | .ok rows => return .decisions rows

def auditByProposal (id : GoString) : Api HttpResponse := do
  if !proposalIDPattern.matchString id then return invalidProposalID
  match ← Api.call (.listByProposal id) with
  | .error _ => return internalError
  | .ok rows => return .audits rows

section Serve

variable (srv : Server)

/-- `Middleware`, before handlers of any kind: `next` gets the agent of the key. -/
def middleware {m : Type → Type} [Monad m] (r : HttpRequest) (next : GoString → m HttpResponse) :
    m HttpResponse :=
  match srv.keyring.resolve srv.go r.apiKey with
  | none => return .aborted
  | some (_, false) =>
      return .text 401 (ascii
        "\x7b\"status\":\"unauthorized\",\"error\":\"missing or invalid API key\"\x7d")
  | some (agentID, true) => next agentID

/-- The request of an agent as `intercept` reads it. -/
def agentRequest (r : HttpRequest) (agentID : GoString) : Request :=
  .ofBody srv.texts (some agentID) r.traceID r.body

/-- A request behind the middleware. -/
def serveProtected (r : HttpRequest) (agentID : GoString) : Api HttpResponse :=
  match protectedRoute r with
  | none => return .mux
  | some .intercept =>
      within .intercepted (intercept srv.go srv.taskQueue (agentRequest srv r agentID))
  | some (.decisions id) => decisionsByProposal id
  | some (.audit id) => auditByProposal id
  | some .policy => policyStatus

/-- One request. -/
def serveHTTP (r : HttpRequest) : Api HttpResponse :=
  match route r with
  | none => return .mux
  | some .healthz => healthz
  | some .readyz => readyz
  | some .v1 => middleware srv r (serveProtected srv r)

end Serve

/-! ## What a request can lead to -/

instance (k : Call) : Nonempty k.Answer := by
  cases k with
  | ctxErr => exact ⟨none⟩
  | acquireSlot => exact ⟨none⟩
  | releaseSlot => exact ⟨()⟩
  | currentPolicy => exact ⟨none⟩
  | randText => exact ⟨[]⟩
  | now => exact ⟨⟨0⟩⟩
  | appendDecision rec => exact ⟨none⟩
  | executeWorkflow options req => exact ⟨.error .failed⟩

/-- A call of `intercept` among the calls. -/
def lifted : Sigma Call.Answer → Sigma ApiCall.Answer
  | ⟨k, r⟩ => ⟨.ingress k, r⟩

theorem lifted_injective : Function.Injective lifted := by
  rintro ⟨k, r⟩ ⟨k', r'⟩ same
  cases same
  rfl

/-- The calls of a program of the proxy, among the handlers, are its own. -/
theorem follows_within {β γ : Type} {wrap : β → γ} {p : Handler β}
    {trace : List (Sigma ApiCall.Answer)} {rest : Api γ}
    (follows : (within wrap p).Follows trace rest) :
    ∃ trace₀ rest₀, p.Follows trace₀ rest₀ ∧ trace = trace₀.map lifted ∧ rest = within wrap rest₀ := by
  generalize same : within wrap p = q at follows
  induction follows with
  | begin => exact ⟨[], p, .begin, rfl, same.symm⟩
  | heard prior r ih =>
      obtain ⟨trace₀, rest₀, follows₀, rfl, goes⟩ := ih
      cases rest₀ with
      | done b => cases goes
      | ask k next =>
          cases goes
          exact ⟨trace₀ ++ [⟨k, r⟩], next r, follows₀.heard r, by simp [lifted], rfl⟩

/-- The request is for `intercept`, with the key of an agent. -/
structure Intercepts (srv : Server) (r : HttpRequest) (agentID : GoString) : Prop where
  outer : route r = some .v1
  inner : protectedRoute r = some .intercept
  key : srv.keyring.resolve srv.go r.apiKey = some (agentID, true)

/-- The call is none of `intercept`. -/
def ApiCall.isRead : ApiCall → Bool
  | .ingress _ => false
  | _ => true

/-- The response names a decision, or accepts a proposal. -/
def HttpResponse.decides : HttpResponse → Bool
  | .intercepted r => r.code == 200 || r.body.decisionID != []
  | _ => false

/-- The program makes no call of `intercept`, and answers with no decision. -/
def OnlyReads : Api HttpResponse → Prop
  | .done resp => resp.decides = false
  | .ask k next => k.isRead = true ∧ ∀ r, OnlyReads (next r)

theorem OnlyReads.follows {p rest : Api HttpResponse} {trace : List (Sigma ApiCall.Answer)}
    (reads : OnlyReads p) (follows : p.Follows trace rest) :
    (∀ x ∈ trace, x.1.isRead = true) ∧ OnlyReads rest := by
  induction follows with
  | begin => exact ⟨by simp, reads⟩
  | heard prior r ih =>
      obtain ⟨before, here, later⟩ := ih
      refine ⟨fun x member => ?_, later r⟩
      rcases List.mem_append.mp member with old | new
      · exact before x old
      · rw [List.mem_singleton.mp new]
        exact here

theorem readyz_onlyReads : OnlyReads readyz := by
  refine ⟨rfl, fun answer => ?_⟩
  cases answer <;> exact rfl

theorem policyStatus_onlyReads : OnlyReads policyStatus :=
  ⟨rfl, fun _ => ⟨rfl, fun _ => rfl⟩⟩

theorem decisionsByProposal_onlyReads (id : GoString) : OnlyReads (decisionsByProposal id) := by
  unfold decisionsByProposal
  split
  · exact rfl
  · refine ⟨rfl, fun answer => ?_⟩
    cases answer <;> exact rfl

theorem auditByProposal_onlyReads (id : GoString) : OnlyReads (auditByProposal id) := by
  unfold auditByProposal
  split
  · exact rfl
  · refine ⟨rfl, fun answer => ?_⟩
    cases answer <;> exact rfl

/-- **A request is an agent's, for `intercept`, or it only reads.** -/
theorem serveHTTP_cases (srv : Server) (r : HttpRequest) :
    (∃ agentID, Intercepts srv r agentID ∧ serveHTTP srv r =
      within .intercepted (intercept srv.go srv.taskQueue (agentRequest srv r agentID))) ∨
    OnlyReads (serveHTTP srv r) := by
  unfold serveHTTP
  split
  · exact Or.inr rfl
  · exact Or.inr rfl
  · exact Or.inr readyz_onlyReads
  · rename_i outer
    unfold middleware
    split
    · exact Or.inr rfl
    · exact Or.inr rfl
    · rename_i agentID key
      unfold serveProtected
      split
      · exact Or.inr rfl
      · rename_i inner
        exact Or.inl ⟨agentID, ⟨outer, inner, key⟩, rfl⟩
      · exact Or.inr (decisionsByProposal_onlyReads _)
      · exact Or.inr (auditByProposal_onlyReads _)
      · exact Or.inr policyStatus_onlyReads

section Ingress

variable {srv : Server} {r : HttpRequest} {trace : List (Sigma ApiCall.Answer)}
  {rest : Api HttpResponse}

/-- What a request has asked so far, if it has made a call of `intercept`. -/
theorem serveHTTP_ingress (follows : (serveHTTP srv r).Follows trace rest) {k : Call}
    {answer : k.Answer} (asked : ⟨.ingress k, answer⟩ ∈ trace) :
    ∃ agentID trace₀ rest₀, Intercepts srv r agentID ∧
      (intercept srv.go srv.taskQueue (agentRequest srv r agentID)).Follows trace₀ rest₀ ∧
      trace = trace₀.map lifted ∧ rest = within .intercepted rest₀ := by
  rcases serveHTTP_cases srv r with ⟨agentID, intercepts, same⟩ | reads
  · rw [same] at follows
    obtain ⟨trace₀, rest₀, found⟩ := follows_within follows
    exact ⟨agentID, trace₀, rest₀, intercepts, found⟩
  · cases (reads.follows follows).1 _ asked

/-- What is behind a response that names a decision or accepts a proposal. -/
theorem serveHTTP_decides {resp : Response}
    (follows : (serveHTTP srv r).Follows trace (.done (.intercepted resp)))
    (decides : (HttpResponse.intercepted resp).decides = true) :
    ∃ agentID trace₀, Intercepts srv r agentID ∧
      (intercept srv.go srv.taskQueue (agentRequest srv r agentID)).Runs trace₀ resp ∧
      trace = trace₀.map lifted := by
  rcases serveHTTP_cases srv r with ⟨agentID, intercepts, same⟩ | reads
  · rw [same] at follows
    obtain ⟨trace₀, rest₀, follows₀, rfl, goes⟩ := follows_within follows
    cases rest₀ with
    | done b =>
        cases goes
        exact ⟨agentID, trace₀, intercepts, follows₀.returned, rfl⟩
    | ask k next => cases goes
  · have none_decided : HttpResponse.decides _ = false := (reads.follows follows).2
    rw [decides] at none_decided
    cases none_decided

/-- The decisions a request was answered with are those the store listed. -/
theorem serveHTTP_listed {id : GoString} {rows : List DecisionRecord}
    (follows : (serveHTTP srv r).Follows trace (.done (.decisions rows)))
    (asks : protectedRoute r = some (.decisions id)) :
    ⟨.listDecisionsByProposal id, .ok rows⟩ ∈ trace := by
  refine follows.returned.of_always (Q := fun trace resp => ∀ rows, resp = .decisions rows →
    ⟨.listDecisionsByProposal id, .ok rows⟩ ∈ trace) ?_ rows rfl
  unfold serveHTTP
  split
  · intro rows other
    cases other
  · intro rows other
    cases other
  · rintro (_ | err) rows other <;> cases other
  · unfold middleware
    split
    · intro rows other
      cases other
    · intro rows other
      cases other
    · simp only [serveProtected, asks, decisionsByProposal]
      split
      · intro rows other
        cases other
      · rintro (err | listed) rows same
        · cases same
        · cases same
          exact List.mem_singleton_self _

end Ingress

end SentryGate.Proxy
