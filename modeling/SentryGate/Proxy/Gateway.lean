/-
# Proxy.Gateway -- requests at once, over slots, a policy and the stores

The server of `cmd/sentrygate` with any number of requests under way (`Theory.Crew`): each is a
dialogue of `Proxy.Server`, and what they share are the evaluation slots of `proxy/proxy.go`, the
policy loader, and the system of stores, runs and workers.  Requests arrive, their calls are
answered, the policy is reloaded and the system takes steps of its own, in any order.

A slot is a place in a channel: sending waits for room, receiving for an entry.
`evaluations_bounded` is what the channel is for: however requests, reloads and the system
interleave, at most as many requests evaluate at a time as the policy of the start says, slots
are neither lost nor doubled, and a request waits for a slot only while all are in use and never
for good.

Whatever the proxy does, the system below sees steps of its own (`gateway_steps`).
-/
import SentryGate.Proxy.Server
import SentryGate.Theory.Permits
import SentryGate.Workflows.Fence

namespace SentryGate.Proxy

open Theory Theory.Text Theory.Machine Theory.Counting Contracts Policy Decision Workflows

set_option autoImplicit false

variable {α : Type}

/-! ## What requests share -/

structure Gateway (α : Type) where
  system : System α
  loader : Loader
  /-- `len(workerPool)` -/
  slots : ℕ
  /-- `cap(workerPool)` -/
  capacity : ℕ

/-- The capacity `NewSentryProxy` chooses. -/
def maxParallel (configured : Int) : ℕ := if configured < 1 then 1 else configured.toNat

/-- The server at its start. -/
def Gateway.new (system : System α) (loader : Loader) : Gateway α where
  system
  loader
  slots := 0
  capacity := maxParallel loader.current.maxParallelTasks

/-- How a start fails: the workflow is running already, or the call fails, perhaps after the
workflow was started. -/
inductive StartFault where
  | alreadyStarted
  | failed (started : Bool)
  deriving DecidableEq

/-- What the world has ready for one call: whether its context has ended, a random text, the
time, the ID of a run or the refusal of Temporal, a write or read that fails (and whether the
write was done all the same), and the order rows come in. -/
structure Circumstance where
  ctx : Context
  text : GoString
  now : Time
  runID : GoString
  refuses : Option StartFault
  fault : Option (Bool × StoreError)
  rows : List AuditRecord

def Gateway.withSystem (g : Gateway α) (system : System α) : Gateway α := { g with system }

/-- The system with a decision record appended. -/
def appended (s : System α) (ctx : Context) (rec : DecisionRecord) : System α :=
  { s with backend := { s.backend with store := (s.backend.store.appendDecision ctx rec).1 } }

/-- The system with a run of the request started. -/
def startedRun (s : System α) (c : Circumstance) (options : StartWorkflowOptions)
    (req : ExecutionRequest) : System α :=
  s.setRun c.runID (.started options.id req c.now)

/-- How a call is answered; `none` if it waits, or cannot be answered so. -/
def Gateway.reply (c : Circumstance) (g : Gateway α) : (k : ApiCall) → Option (Gateway α × k.Answer)
  | .ingress .ctxErr => some (g, c.ctx)
  | .ingress .acquireSlot =>
      match c.ctx with
      | some err => some (g, some err)
      | none => if g.slots < g.capacity then some ({ g with slots := g.slots + 1 }, none) else none
  | .ingress .releaseSlot =>
      if 0 < g.slots then some ({ g with slots := g.slots - 1 }, ()) else none
  | .ingress .currentPolicy => some (g, some g.loader.current)
  | .ingress .randText => some (g, c.text)
  | .ingress .now => some (g, c.now)
  | .ingress (.appendDecision rec) =>
      match c.fault with
      | some (true, err) => some (g.withSystem (appended g.system c.ctx rec), some err)
      | some (false, err) => some (g, some err)
      | none =>
          some (g.withSystem (appended g.system c.ctx rec),
            (g.system.backend.store.appendDecision c.ctx rec).2)
  | .ingress (.executeWorkflow options req) =>
      match c.refuses, g.system.runs c.runID with
      | some .alreadyStarted, _ => some (g, .error .workflowExecutionAlreadyStarted)
      | some (.failed false), _ => some (g, .error .failed)
      | some (.failed true), none =>
          some (g.withSystem (startedRun g.system c options req), .error .failed)
      | none, none =>
          some (g.withSystem (startedRun g.system c options req), .ok ⟨options.id, c.runID⟩)
      | _, some _ => none
  | .ping => some (g, c.ctx)
  | .currentSnapshot => some (g, g.loader.current)
  | .lockedStatus cur => some (g, g.loader.statusOf cur)
  | .listDecisionsByProposal id =>
      match c.fault with
      | some (_, err) => some (g, .error err)
      | none => some (g, g.system.backend.store.listDecisionsByProposal c.ctx id)
  | .listByProposal id =>
      match c.fault with
      | some (_, err) => some (g, .error err)
      | none =>
          if c.rows.Perm (g.system.backend.audits.filter fun row => row.proposalID = id)
          then some (g, .ok c.rows) else none

/-- What else happens: the policy is reloaded, or the system takes a step of its own. -/
inductive Outside where
  | reload (v : Visit)
  | system (l : Workflows.Label)

/-- What the gateway runs on: the server, the YAML decoder and the worker. -/
structure Deployment (α : Type) where
  server : Server
  yaml : GoString → Policy.Decoded
  worker : Worker α

def Gateway.outside (d : Deployment α) (g : Gateway α) : Outside → Option (Gateway α)
  | .reload v => some { g with loader := (g.loader.reload d.server.go d.yaml v).1 }
  | .system l => (Workflows.step d.worker g.system l).map g.withSystem

/-- A request under way. -/
abbrev Session := Member ApiCall.Answer HttpRequest HttpResponse

/-- The requests under way, with what they share. -/
abbrev Requests (α : Type) := Crew ApiCall.Answer (Gateway α) HttpRequest HttpResponse

abbrev GatewayLabel := Crew.Label HttpRequest Circumstance Outside

def gatewayRules (d : Deployment α) :
    Crew.Rules ApiCall.Answer (Gateway α) HttpRequest HttpResponse Circumstance Outside where
  program := serveHTTP d.server
  reply := Gateway.reply
  other := Gateway.outside d

/-- One step of the server and everything around it. -/
abbrev gatewayStep (d : Deployment α) : Requests α → GatewayLabel → Option (Requests α) :=
  Crew.step (gatewayRules d)

/-! ## What an answer can do -/

/-- Everything an answer can do. -/
inductive Replied (c : Circumstance) (g : Gateway α) : (k : ApiCall) → Gateway α → k.Answer → Prop where
  | read (k : ApiCall) (r : k.Answer) (reads : k.isRead = true) : Replied c g k g r
  | ctxErr (ctx : Context) : Replied c g (.ingress .ctxErr) g ctx
  | ended (err : GoString) : Replied c g (.ingress .acquireSlot) g (some err)
  | acquired (room : g.slots < g.capacity) :
      Replied c g (.ingress .acquireSlot) { g with slots := g.slots + 1 } none
  | released (used : 0 < g.slots) :
      Replied c g (.ingress .releaseSlot) { g with slots := g.slots - 1 } ()
  | currentPolicy : Replied c g (.ingress .currentPolicy) g (some g.loader.current)
  | randText (text : GoString) : Replied c g (.ingress .randText) g text
  | now (now : Time) : Replied c g (.ingress .now) g now
  | unwritten (rec : DecisionRecord) (err : StoreError) :
      Replied c g (.ingress (.appendDecision rec)) g (some err)
  | written (rec : DecisionRecord) (err : Option StoreError)
      (told : err = none → (g.system.backend.store.appendDecision c.ctx rec).2 = none) :
      Replied c g (.ingress (.appendDecision rec)) (g.withSystem (appended g.system c.ctx rec)) err
  | refused (options : StartWorkflowOptions) (req : ExecutionRequest) (err : StartError) :
      Replied c g (.ingress (.executeWorkflow options req)) g (.error err)
  | lost (options : StartWorkflowOptions) (req : ExecutionRequest)
      (fresh : g.system.runs c.runID = none) :
      Replied c g (.ingress (.executeWorkflow options req))
        (g.withSystem (startedRun g.system c options req)) (.error .failed)
  | started (options : StartWorkflowOptions) (req : ExecutionRequest)
      (fresh : g.system.runs c.runID = none) :
      Replied c g (.ingress (.executeWorkflow options req))
        (g.withSystem (startedRun g.system c options req)) (.ok ⟨options.id, c.runID⟩)

/-- **Every answer is one of these.** -/
theorem reply_replied {c : Circumstance} {g g' : Gateway α} {k : ApiCall} {r : k.Answer}
    (given : g.reply c k = some (g', r)) : Replied c g k g' r := by
  cases k with
  | ingress k =>
      cases k with
      | ctxErr => cases given; exact .ctxErr _
      | acquireSlot =>
          simp only [Gateway.reply] at given
          split at given
          · cases given; exact .ended _
          · split at given
            · rename_i room
              cases given; exact .acquired room
            · cases given
      | releaseSlot =>
          simp only [Gateway.reply] at given
          split at given
          · rename_i used
            cases given; exact .released used
          · cases given
      | currentPolicy => cases given; exact .currentPolicy
      | randText => cases given; exact .randText _
      | now => cases given; exact .now _
      | appendDecision rec =>
          simp only [Gateway.reply] at given
          split at given
          · cases given; exact .written rec _ (fun told => by cases told)
          · cases given; exact .unwritten rec _
          · cases given; exact .written rec _ id
      | executeWorkflow options req =>
          simp only [Gateway.reply] at given
          split at given
          · cases given; exact .refused options req _
          · cases given; exact .refused options req _
          · rename_i fresh
            cases given; exact .lost options req fresh
          · rename_i fresh
            cases given; exact .started options req fresh
          · cases given
  | ping => cases given; exact .read _ _ rfl
  | currentSnapshot => cases given; exact .read _ _ rfl
  | lockedStatus cur => cases given; exact .read _ _ rfl
  | listDecisionsByProposal id =>
      simp only [Gateway.reply] at given
      split at given <;> cases given <;> exact .read _ _ rfl
  | listByProposal id =>
      simp only [Gateway.reply] at given
      split at given
      · cases given; exact .read _ _ rfl
      · split at given
        · cases given; exact .read _ _ rfl
        · cases given

/-- An answer is a step of the system, or none. -/
theorem Replied.steps (w : Worker α) {c : Circumstance} {g g' : Gateway α} {k : ApiCall}
    {r : k.Answer} (replied : Replied c g k g' r) :
    Steps (Workflows.step w) anyStep g.system g'.system := by
  have start : ∀ options req, g.system.runs c.runID = none → Workflows.step w g.system
      (.start c.runID options req c.now) = some (g.system.setRun c.runID (.started options req c.now)) := by
    intro options req fresh
    simp only [Workflows.step, fresh]
  cases replied with
  | written rec err told => exact (Steps.refl _).tail (l := .append c.ctx rec) trivial rfl
  | lost options req fresh => exact (Steps.refl _).tail trivial (start options.id req fresh)
  | started options req fresh => exact (Steps.refl _).tail trivial (start options.id req fresh)
  | _ => exact Steps.refl _

section Runs

variable {d : Deployment α} {G : Requests α → GatewayLabel → Prop} {s t : Requests α}

/-- **The system below the proxy takes steps of its own.** -/
theorem gateway_steps (run : Steps (gatewayStep d) G s t) :
    Steps (Workflows.step d.worker) anyStep s.shared.system t.shared.system := by
  refine run.invariant (P := fun t => Steps (Workflows.step d.worker) anyStep s.shared.system
    t.shared.system) ?_ (Steps.refl _)
  intro u l v reached _ taken
  refine reached.trans ?_
  cases Crew.step_taken taken with
  | enter input => exact Steps.refl _
  | answer i c m k next shared r found asks given => exact (reply_replied given).steps d.worker
  | other n shared changes =>
      cases n with
      | reload v =>
          cases changes
          exact Steps.refl _
      | system l =>
          obtain ⟨system, moved, same⟩ := Option.map_eq_some_iff.mp changes
          cases same
          exact (Steps.refl _).tail trivial moved

end Runs

/-! ## Slots -/

/-- What a call does to the slot of its request. -/
def slotUse : Sigma ApiCall.Answer → Use
  | ⟨.ingress .acquireSlot, ended⟩ => if ended.isNone then .take else .neither
  | ⟨.ingress .releaseSlot, _⟩ => .give
  | _ => .neither

/-- The request has a slot. -/
def evaluating (m : Session) : Bool :=
  Dialogue.held slotUse m.trace

/-- The calls made while evaluating are always answered. -/
def Prompt (held : Bool) (k : ApiCall) : Prop :=
  held = true → k = .ingress .currentPolicy ∨ k = .ingress .releaseSlot

theorem OnlyReads.balanced {p : Api HttpResponse} (reads : OnlyReads p) :
    p.Balanced slotUse Prompt false := by
  induction p with
  | done b => rfl
  | ask k next ih =>
      refine ⟨fun held => Bool.noConfusion held, fun r => ?_⟩
      have plain : slotUse ⟨k, r⟩ = .neither := by
        cases k with
        | ingress k => cases reads.1
        | _ => rfl
      rw [plain]
      exact ⟨trivial, ih r (reads.2 r)⟩

theorem balanced_within {β γ : Type} {wrap : β → γ} {p : Handler β} {now : Bool}
    (balanced : p.Balanced (fun x => slotUse (lifted x)) (fun held k => Prompt held (.ingress k)) now) :
    (within wrap p).Balanced slotUse Prompt now := by
  induction p generalizing now with
  | done b => exact balanced
  | ask k next ih => exact ⟨balanced.1, fun r => ⟨(balanced.2 r).1, ih r (balanced.2 r).2⟩⟩

/-- Requests of the proxy, seen among the calls of the handlers, use slots in this way. -/
abbrev SlotBalanced {β : Type} (now : Bool) (p : Handler β) : Prop :=
  p.Balanced (fun x => slotUse (lifted x)) (fun held k => Prompt held (.ingress k)) now

theorem balanced_perform {k : Call} (plain : ∀ r, slotUse ⟨.ingress k, r⟩ = .neither) :
    SlotBalanced false (perform k) := by
  refine ⟨fun held => Bool.noConfusion held, fun r => ?_⟩
  have here : slotUse (lifted ⟨k, r⟩) = .neither := plain r
  simp only [here]
  exact ⟨trivial, rfl⟩

theorem balanced_evaluateThrottled (agentID : GoString) (prop : AgentProposal) :
    SlotBalanced false (evaluateThrottled agentID prop) := by
  refine (balanced_perform fun _ => rfl).bind fun ended => ?_
  cases ended with
  | some err => exact rfl
  | none =>
      refine ⟨fun held => Bool.noConfusion held, fun waited => ?_⟩
      cases waited with
      | some err => exact ⟨trivial, rfl⟩
      | none =>
          refine ⟨rfl, fun _ => Or.inl rfl, fun policy => ⟨trivial, ?_⟩⟩
          exact ⟨fun _ => Or.inr rfl, fun _ => ⟨rfl, rfl⟩⟩

theorem balanced_intercept (go : Runtime) (taskQueue : GoString) (r : Request) :
    SlotBalanced false (intercept go taskQueue r) := by
  unfold intercept
  split
  · split
    · exact rfl
    · refine (balanced_evaluateThrottled _ _).bind fun evaluated => ?_
      split
      · exact rfl
      · refine (balanced_perform fun _ => rfl).bind fun text => ?_
        refine (balanced_perform fun _ => rfl).bind fun now => ?_
        refine (balanced_perform fun _ => rfl).bind fun recordErr => ?_
        cases recordErr with
        | some err =>
            simp only [Option.isSome_some, if_true]
            split <;> exact rfl
        | none =>
            simp only [Option.isSome_none, Bool.false_eq_true, if_false]
            split
            · exact rfl
            · exact rfl
            · exact rfl
            · refine (balanced_perform fun _ => rfl).bind fun result => ?_
              rcases result with (_ | _) | run <;> exact rfl
  · exact rfl

theorem balanced_serveHTTP (srv : Server) (r : HttpRequest) :
    (serveHTTP srv r).Balanced slotUse Prompt false := by
  rcases serveHTTP_cases srv r with ⟨agentID, -, same⟩ | reads
  · rw [same]
    exact balanced_within (balanced_intercept _ _ _)
  · exact reads.balanced

/-- The channel counts the requests that evaluate. -/
theorem gateway_permits (d : Deployment α) :
    Crew.Permits (gatewayRules d) slotUse Prompt Gateway.slots Gateway.capacity where
  program := balanced_serveHTTP d.server
  counts := by
    intro c g k g' r given
    cases reply_replied given with
    | read _ _ reads =>
        cases k with
        | ingress k => cases reads
        | _ => rfl
    | released used => exact (Nat.sub_add_cancel used).symm
    | _ => rfl
  bounded := by
    intro c g k g' r given within
    cases reply_replied given with
    | acquired room => exact room
    | released used => exact (Nat.sub_le _ _).trans within
    | _ => exact within
  fixed given := by
    cases reply_replied given <;> rfl
  other := by
    intro g n g' changes
    cases n with
    | reload v =>
        cases changes
        exact ⟨rfl, rfl⟩
    | system l =>
        obtain ⟨system, -, same⟩ := Option.map_eq_some_iff.mp changes
        cases same
        exact ⟨rfl, rfl⟩
  answers c g k prompt used := by
    rcases prompt rfl with rfl | rfl
    · rfl
    · simp only [gatewayRules, Gateway.reply, if_pos used, Option.isSome_some]

theorem maxParallel_pos (configured : Int) : 0 < maxParallel configured := by
  unfold maxParallel
  split <;> omega

section Slots

variable {d : Deployment α} {system : System α} {loader : Loader} {s : Requests α}

/-- **Evaluation is bounded, whatever interleaves.**  The slots in use are the requests that
evaluate, never more than the policy of the start allows, reloads notwithstanding.  A request
that has returned has none; one that has a slot is never kept waiting; one that waits for a slot
waits only while all are in use, and can be served after others were answered. -/
theorem evaluations_bounded
    (run : Steps (gatewayStep d) anyStep (Crew.fresh (.new system loader)) s) :
    s.shared.capacity = maxParallel loader.current.maxParallelTasks ∧
    s.shared.slots = s.members.countP evaluating ∧
    s.members.countP evaluating ≤ maxParallel loader.current.maxParallelTasks ∧
    (∀ m ∈ s.members, ∀ resp, m.rest = .done resp → evaluating m = false) ∧
    (∀ i m, s.members[i]? = some m → evaluating m = true →
      ∀ c, (gatewayStep d s (.answer i c)).isSome) ∧
    (∀ i m next, s.members[i]? = some m → m.rest = .ask (.ingress .acquireSlot) next → ∀ c,
      (gatewayStep d s (.answer i c) = none → c.ctx = none ∧
        s.members.countP evaluating = maxParallel loader.current.maxParallelTasks) ∧
      ∃ t, Steps (gatewayStep d) anyStep s t ∧ t.members[i]? = some m ∧
        (gatewayStep d t (.answer i c)).isSome) := by
  have permits := gateway_permits d
  obtain ⟨fixed, metered⟩ := permits.metered rfl run
  have capacity : s.shared.capacity = maxParallel loader.current.maxParallelTasks := fixed
  have followed := Crew.Steps.follows run
  have here : Crew.Metered slotUse Gateway.slots s.shared.capacity s := fixed ▸ metered
  refine ⟨fixed, metered.count, metered.count ▸ metered.within, ?_, ?_, ?_⟩
  · intro m member resp returned
    have balanced := (followed m member).balanced (permits.program m.input)
    rw [returned] at balanced
    exact balanced
  · intro i m found holds c
    obtain ⟨k, next, shared, r, asks, given⟩ := permits.goes_on followed here found holds c
    simp [gatewayStep, Crew.step, found, asks, given]
  · intro i m next found asks c
    have balanced := (followed m (List.mem_of_getElem? found)).balanced (permits.program m.input)
    rw [asks] at balanced
    have without : Dialogue.held slotUse m.trace = false := (balanced.2 none).1
    constructor
    · intro waits
      simp only [gatewayStep, Crew.step, found, asks, gatewayRules, Gateway.reply] at waits
      split at waits
      · cases waits
      · rename_i live
        split at waits
        · cases waits
        · rename_i full
          refine ⟨live, ?_⟩
          have bound := here.within
          have count : s.shared.slots = s.members.countP evaluating := metered.count
          omega
    · refine permits.served followed here ?_ found asks without c (fun _ _ => trivial) ?_
      · rw [capacity]
        exact maxParallel_pos _
      · intro g _ _ room
        simp only [gatewayRules, Gateway.reply]
        split
        · rfl
        · rw [if_pos room]
          rfl

end Slots

/-! ## A concrete server

One agent, an open policy with one slot, and the deployed worker. -/

def demoServer : Server where
  go := plainSdk.toRuntime
  keyring := ⟨[⟨ascii "a", ascii "key"⟩]⟩
  taskQueue := ascii "q"
  texts _ := []

def demoDeployment : Deployment SimulatedAdapter where
  server := demoServer
  yaml _ := .eof
  worker := worker plainSdk

def demoLoader : Loader where
  current := openPolicy
  loadedAt := ⟨0⟩
  lastErr := []
  lastErrAt := ⟨0⟩
  lastBadKey := []
  log := []

def demoStart : Requests SimulatedAdapter :=
  Crew.fresh (.new (.initial (some openPolicy) .new) demoLoader)

/-- A request of the agent. -/
def demoPost : HttpRequest where
  method := .post
  path := [ascii "v1", ascii "intercept"]
  apiKey := ascii "key"
  traceID := none
  body := ascii "\x7b\"id\":\"p\",\"type\":\"c\",\"target_id\":\"n\"\x7d"

/-- A live context, no fault. -/
def easy : Circumstance where
  ctx := none
  text := ascii "t"
  now := ⟨1⟩
  runID := ascii "r"
  refuses := none
  fault := none
  rows := []

/-- Two requests, one with the slot, the other at the channel. -/
def crowd : List GatewayLabel :=
  [.enter demoPost, .enter demoPost, .answer 0 easy, .answer 0 easy, .answer 1 easy]

theorem evaluations_bounded_crowd :
    ∃ s, Steps (gatewayStep demoDeployment) anyStep demoStart s ∧
      s.members.length = 2 ∧ s.members.countP evaluating = 1 ∧
      gatewayStep demoDeployment s (.answer 1 easy) = none ∧
      s.shared.capacity = maxParallel openPolicy.maxParallelTasks := by
  have two : (exec (gatewayStep demoDeployment) demoStart crowd).map (fun s => s.members.length) =
      some 2 := by decide +kernel
  have one : (exec (gatewayStep demoDeployment) demoStart crowd).map
      (fun s => s.members.countP evaluating) = some 1 := by decide +kernel
  have waits : (exec (gatewayStep demoDeployment) demoStart crowd).map
      (fun s => (gatewayStep demoDeployment s (.answer 1 easy)).isSome) = some false := by
    decide +kernel
  obtain ⟨s, ran, -⟩ := Option.map_eq_some_iff.mp two
  rw [ran] at two one waits
  have reached := steps_of_exec ran
  exact ⟨s, reached, Option.some.inj two, Option.some.inj one, by simpa using waits,
    (evaluations_bounded reached).1⟩

end SentryGate.Proxy
