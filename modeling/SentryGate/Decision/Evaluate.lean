/-
# Decision.Evaluate -- the request hash, and the verdict on a proposal

`internal/decision/hash.go` and `evaluate.go`.  `hashInput` is the documented encoding
of a proposal, which is what `RequestHash` feeds to SHA-256 (`requestHash_exact`).
SHA-256 itself is `Runtime.sha256`; where a result needs that it does not collide, it
says on which inputs (`Separates`).
-/
import SentryGate.Policy.Schema
import SentryGate.Theory.Bytes

namespace SentryGate.Decision

open Theory.Text Theory.Bytes Contracts Policy

set_option autoImplicit false

/-! ## Request hash -/

def requestHashDomain : GoString := ascii "sentrygate.request.v1"

/-- The hashed fields of a proposal, in order. -/
def hashFields (p : AgentProposal) : List GoString :=
  [p.id, p.type, p.targetID, p.payload]

/-- What `RequestHash` writes to the hash: the domain, then each field behind its
length as a big-endian uint64. -/
def hashInput (p : AgentProposal) : GoString :=
  requestHashDomain ++ (hashFields p).flatMap (frame 8)

/-- `RequestHash`: the SHA-256 of a proposal as lowercase hex. -/
def requestHash (go : Runtime) (p : AgentProposal) : GoString :=
  hex (go.sha256 (hashInput p))

/-- Every field is shorter than 2^64 bytes, as every Go string is. -/
def Sized (p : AgentProposal) : Prop :=
  ∀ f ∈ hashFields p, f.length < 256 ^ 8

theorem hashInput_injective {p q : AgentProposal} (hp : Sized p) (hq : Sized q)
    (same : hashInput p = hashInput q) : p = q := by
  have fields : hashFields p = hashFields q :=
    frames_injective rfl hp hq (List.append_cancel_left same)
  cases p
  cases q
  simpa [hashFields] using fields

/-- SHA-256 gives no other proposal's hash input the digest of `p`'s. -/
def Separates (go : Runtime) (p : AgentProposal) : Prop :=
  ∀ q, go.sha256 (hashInput q) = go.sha256 (hashInput p) → hashInput q = hashInput p

/-- Where SHA-256 does not collide, the request hash identifies the proposal. -/
theorem requestHash_identifies {go : Runtime} {p q : AgentProposal} (free : Separates go p)
    (hp : Sized p) (hq : Sized q) (same : requestHash go q = requestHash go p) : q = p :=
  hashInput_injective hq hp (free q (hex_injective same))

/-- The writes of `RequestHash` in order: the domain, then for each field the eight bytes of
`PutUint64(uint64(len(field)))` and the field. -/
def hashWrites (p : AgentProposal) : List GoString :=
  requestHashDomain ::
    (hashFields p).flatMap fun field => [putUint64 (UInt64.ofNat field.length), field]

/-- What is written is the documented encoding. -/
theorem hashWrites_flatten (p : AgentProposal) : (hashWrites p).flatten = hashInput p := by
  simp [hashWrites, hashInput, hashFields, frame, putUint64_ofNat]

/-- **The request hash identifies the proposal.**  The bytes `RequestHash` writes are the
documented encoding, they have one reading, and where SHA-256 does not collide on the two
encodings, equal hashes mean equal proposals. -/
theorem requestHash_exact (go : Runtime) {p q : AgentProposal} (hp : Sized p) (hq : Sized q) :
    (hashWrites p).flatten = hashInput p ∧
    requestHash go p = hex (go.sha256 (hashWrites p).flatten) ∧
    ((hashWrites p).flatten = (hashWrites q).flatten ↔ p = q) ∧
    ((go.sha256 (hashInput p) = go.sha256 (hashInput q) → hashInput p = hashInput q) →
      (requestHash go p = requestHash go q ↔ p = q)) := by
  rw [hashWrites_flatten, hashWrites_flatten]
  refine ⟨rfl, rfl, ⟨hashInput_injective hp hq, congrArg hashInput⟩, fun free => ?_⟩
  constructor
  · intro same
    exact hashInput_injective hp hq (free (hex_injective same))
  · intro same
    rw [same]

/-- A byte that moves from one field to the next changes the hash. -/
theorem requestHash_exact_shifted :
    let p : AgentProposal := ⟨ascii "ab", ascii "c", ascii "t", []⟩
    let q : AgentProposal := ⟨ascii "a", ascii "bc", ascii "t", []⟩
    (requestHash .plain p = requestHash .plain q ↔ p = q) ∧ p ≠ q := by
  intro p q
  have hp : Sized p := by simp [Sized, hashFields, p, ascii]
  have hq : Sized q := by simp [Sized, hashFields, q, ascii]
  refine ⟨(requestHash_exact .plain hp hq).2.2.2 fun same => same, ?_⟩
  decide

/-! ## Evaluation -/

/-- `Evaluate`: the verdict of a policy on a proposal made by `agentID`. -/
def evaluate (s : Option Snapshot) (agentID : GoString) (p : AgentProposal) : Decision :=
  match s with
  | none =>
      { verdict := .deny, reasons := [.named .policyUnavailable], environment := [],
        policyVersion := [], policyDigest := [] }
  | some s =>
      let agentKnown := s.hasAgent agentID
      let commandKnown := s.hasCommand p.type
      let target := s.target p.targetID
      let mode := target.bind fun t => s.environmentMode t.environment
      let deny : List ReasonCode :=
        (if agentKnown then [] else [.named .agentUnknown]) ++
        (if commandKnown then [] else [.named .commandUnknown]) ++
        (if agentKnown && commandKnown && !s.agentMayUse agentID p.type
          then [.named .commandNotPermitted] else []) ++
        (match target with
          | none => [.named .targetUnregistered]
          | some t => if t.isProtected then [.named .targetProtected] else []) ++
        (if mode = some .deny then [.named .environmentDenied] else [])
      let d : Decision :=
        { verdict := .deny, reasons := deny,
          environment := (target.map Target.environment).getD [],
          policyVersion := s.version, policyDigest := s.digest }
      if deny ≠ [] then d
      else match mode with
        | some .requireApproval =>
            { d with verdict := .requireApproval, reasons := [.named .approvalRequired] }
        | some .allow => { d with verdict := .allow, reasons := [.named .environmentAllowed] }
        | _ => { d with reasons := [.named .policyUnavailable] }

/-- `Revalidate`: re-evaluate a request; a proposal that no longer matches the
recorded hash is denied. -/
def revalidate (go : Runtime) (s : Option Snapshot) (req : ExecutionRequest) : Decision :=
  let d := evaluate s req.agentID req.proposal
  if requestHash go req.proposal ≠ req.requestHash then
    let reasons := if d.verdict ≠ .deny then [] else d.reasons
    { d with verdict := .deny, reasons := reasons ++ [.named .requestHashMismatch] }
  else d

section Revalidate

variable {go : Runtime} {s : Option Snapshot} {req : ExecutionRequest}

theorem revalidate_of_eq (same : requestHash go req.proposal = req.requestHash) :
    revalidate go s req = evaluate s req.agentID req.proposal := by
  simp [revalidate, same]

theorem revalidate_of_ne (differs : requestHash go req.proposal ≠ req.requestHash) :
    (revalidate go s req).verdict = .deny ∧
      (revalidate go s req).reasons =
        (if (evaluate s req.agentID req.proposal).verdict = .deny
          then (evaluate s req.agentID req.proposal).reasons else []) ++
          [.named .requestHashMismatch] := by
  simp [revalidate, differs]

end Revalidate

/-- Re-validation allows exactly what evaluation allows with the recorded hash. -/
theorem revalidate_allow_iff (go : Runtime) (s : Option Snapshot) (req : ExecutionRequest) :
    (revalidate go s req).verdict = .allow ↔
      requestHash go req.proposal = req.requestHash ∧
        (evaluate s req.agentID req.proposal).verdict = .allow := by
  by_cases same : requestHash go req.proposal = req.requestHash
  · simp [revalidate_of_eq same, same]
  · simp [(revalidate_of_ne same).1, same]

/-- `NewDecisionID`, given what `rand.Text` returned. -/
def newDecisionID (text : GoString) : GoString := ascii "dec_" ++ text

theorem newDecisionID_ne_nil (text : GoString) : newDecisionID text ≠ [] := by
  simp [newDecisionID, ascii]

end SentryGate.Decision
