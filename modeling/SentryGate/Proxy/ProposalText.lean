/-
# Proxy.ProposalText -- from the bytes of a request body to a proposal

`decodeProposal` of `cmd/sentrygate/handler.go`, from the body on: `http.MaxBytesReader`, and
the two calls of `Decode` on a JSON decoder that allows no unknown fields.  The decoder reads a
value (`Theory.JsonText.scan`) and then stores it: names are matched without regard to case, the
last one of a name counts, `null` leaves a field as it is.  What a decoder's error says is left
to a parameter.

`decodeProposal_exact` says which bodies are accepted, in terms of the grammar of JSON alone,
and what is then in the proposal.  `proposals_round_trip` is the round trip with
`json.Marshal` of a proposal, as agents send it.
-/
import SentryGate.Proxy.Intercept
import SentryGate.Theory.JsonWrite

namespace SentryGate.Proxy

open Theory Theory.Text Theory.Json Theory.JsonText Contracts

set_option autoImplicit false

/-! ## The fields of a proposal -/

/-- The fields of `AgentProposal`. -/
inductive ProposalField where
  | id | type | targetID | payload
  deriving DecidableEq

namespace ProposalField

/-- Its JSON tag. -/
def name : ProposalField → GoString
  | .id => ascii "id"
  | .type => ascii "type"
  | .targetID => ascii "target_id"
  | .payload => ascii "payload"

def all : List ProposalField := [.id, .type, .targetID, .payload]

def get : ProposalField → AgentProposal → GoString
  | .id, p => p.id
  | .type, p => p.type
  | .targetID, p => p.targetID
  | .payload, p => p.payload

def set : ProposalField → AgentProposal → GoString → AgentProposal
  | .id, p, s => { p with id := s }
  | .type, p, s => { p with type := s }
  | .targetID, p, s => { p with targetID := s }
  | .payload, p, s => { p with payload := s }

theorem get_set (f g : ProposalField) (p : AgentProposal) (s : GoString) :
    g.get (f.set p s) = if g = f then s else g.get p := by
  cases f <;> cases g <;> rfl

theorem ext_get {p q : AgentProposal} (same : ∀ f : ProposalField, f.get p = f.get q) : p = q := by
  obtain ⟨id, type, targetID, payload⟩ := p
  have ids := same .id
  have types := same .type
  have targets := same .targetID
  have payloads := same .payload
  simp only [get] at ids types targets payloads
  subst ids types targets payloads
  rfl

end ProposalField

/-- The zero `AgentProposal`. -/
def emptyProposal : AgentProposal := ⟨[], [], [], []⟩

/-! ## The decoder -/

/-- Letters in upper case.  Of the letters beyond ASCII only the partners of `k` and `s` fold
to an ASCII letter, and no field's name has one of these two. -/
def foldName (s : GoString) : GoString :=
  s.map fun b => if 97 ≤ b.toNat ∧ b.toNat ≤ 122 then b - 32 else b

/-- The field a name is decoded into: the one of that name, or of that name in other case. -/
def fieldOf (key : GoString) : Option ProposalField :=
  (ProposalField.all.find? fun f => f.name == key) <|>
    ProposalField.all.find? fun f => foldName f.name == foldName key

/-- What a value of JSON is called in an error. -/
inductive Kind where
  | bool | number | string | array | object
  deriving DecidableEq

/-- Why a `Decode` fails. -/
inductive DecodeError where
  | invalid
  | unexpectedEOF
  | unknownField (key : GoString)
  | wrongType (field : Option ProposalField) (kind : Kind)
  deriving DecidableEq

/-- Store one member; of several errors the first is kept. -/
def storeMember (st : AgentProposal × Option DecodeError) (member : GoString × Value) :
    AgentProposal × Option DecodeError :=
  let (prop, err) := st
  match fieldOf member.1 with
  | none => (prop, err <|> some (.unknownField member.1))
  | some f =>
      match member.2 with
      | .null => st
      | .string s => (f.set prop s, err)
      | .bool _ => (prop, err <|> some (.wrongType f .bool))
      | .number _ => (prop, err <|> some (.wrongType f .number))
      | .array _ => (prop, err <|> some (.wrongType f .array))
      | .object _ => (prop, err <|> some (.wrongType f .object))

/-- Store a value into a proposal: the proposal after it, and the error. -/
def storeValue (prop : AgentProposal) : Value → AgentProposal × Option DecodeError
  | .object members => members.foldl storeMember (prop, none)
  | .null => (prop, none)
  | .bool _ => (prop, some (.wrongType none .bool))
  | .number _ => (prop, some (.wrongType none .number))
  | .string _ => (prop, some (.wrongType none .string))
  | .array _ => (prop, some (.wrongType none .array))

/-- How deep the decoder follows arrays and objects within each other. -/
def maxNestingDepth : ℕ := 10000

/-- What `Decode` got from the reader: a value and what it left unread, or why there is none. -/
inductive Got where
  | value (v : Value) (rest : GoString)
  | eof
  | tooLarge
  | failed (e : DecodeError)

/-- Read one value.  `oversized` says that the reader fails, for the size of the body, behind the
bytes it delivers; it reports the end of the body otherwise. -/
def readValue (oversized : Bool) (bytes : GoString) : Got :=
  match scan maxNestingDepth .value [] bytes with
  | .value v rest => .value v rest
  | .bad => .failed .invalid
  | .more m stack =>
      if oversized then .tooLarge
      else
        match finish m stack, m, stack with
        | some v, _, _ => .value v []
        | none, .value, [] => .eof
        | none, _, _ => .failed .unexpectedEOF

section Body

variable (texts : DecodeError → GoString)

/-- The first `Decode`, into a zero proposal, and what it left unread. -/
def firstDecode (oversized : Bool) (bytes : GoString) : Decoded AgentProposal × GoString :=
  match readValue oversized bytes with
  | .value v rest =>
      match storeValue emptyProposal v with
      | (prop, none) => (.value prop, rest)
      | (_, some e) => (.failed (texts e), rest)
  | .eof => (.eof, [])
  | .tooLarge => (.tooLarge, [])
  | .failed e => (.failed (texts e), [])

/-- The second `Decode`, into a `json.RawMessage`. -/
def secondDecode (oversized : Bool) (bytes : GoString) : Decoded Unit :=
  match readValue oversized bytes with
  | .value _ _ => .value ()
  | .eof => .eof
  | .tooLarge => .tooLarge
  | .failed e => .failed (texts e)

/-- The request of an agent with this body, as the handler reads it. -/
def Request.ofBody (agentID traceID : Option GoString) (body : GoString) : Request :=
  let oversized := decide (maxBodyBytes < body.length)
  let first := firstDecode texts oversized (body.take maxBodyBytes)
  { agentID, traceID, first := first.1, second := secondDecode texts oversized first.2 }

end Body

/-! ## What is stored -/

/-- The texts that members give a field, in order. -/
def textsOf (f : ProposalField) (members : List (GoString × Value)) : List GoString :=
  members.filterMap fun
    | (key, .string s) => if fieldOf key = some f then some s else none
    | _ => none

/-- The members give every field a text or nothing, and there are no others. -/
def Storable (members : List (GoString × Value)) : Prop :=
  ∀ m ∈ members, (∃ f, fieldOf m.1 = some f) ∧ (m.2 = .null ∨ ∃ s, m.2 = .string s)

/-- The proposal that members spell out: of each field its last text. -/
def spelled (members : List (GoString × Value)) : AgentProposal where
  id := (textsOf .id members).getLastD []
  type := (textsOf .type members).getLastD []
  targetID := (textsOf .targetID members).getLastD []
  payload := (textsOf .payload members).getLastD []

theorem get_spelled (f : ProposalField) (members : List (GoString × Value)) :
    f.get (spelled members) = (textsOf f members).getLastD [] := by
  cases f <;> rfl

section Store

/-- An error stays. -/
theorem foldl_error (members : List (GoString × Value)) (prop : AgentProposal) (e : DecodeError) :
    (members.foldl storeMember (prop, some e)).2 = some e := by
  induction members generalizing prop with
  | nil => rfl
  | cons m members ih =>
      obtain ⟨key, v⟩ := m
      have stays : ∃ prop', storeMember (prop, some e) (key, v) = (prop', some e) := by
        simp only [storeMember]
        split
        · exact ⟨prop, rfl⟩
        · cases v <;> exact ⟨_, rfl⟩
      obtain ⟨prop', same⟩ := stays
      rw [List.foldl_cons, same]
      exact ih prop'

variable {members : List (GoString × Value)} {prop : AgentProposal}

/-- One member without an error. -/
theorem storeMember_ok {m : GoString × Value} {prop' : AgentProposal}
    (ok : storeMember (prop, none) m = (prop', none)) :
    (∃ f, fieldOf m.1 = some f) ∧ (m.2 = .null ∨ ∃ s, m.2 = .string s) := by
  obtain ⟨key, v⟩ := m
  simp only [storeMember] at ok
  split at ok
  · simp at ok
  · rename_i f known
    refine ⟨⟨f, known⟩, ?_⟩
    cases v with
    | null => exact Or.inl rfl
    | string s => exact Or.inr ⟨s, rfl⟩
    | _ => simp at ok

/-- What a member that can be stored does to a field. -/
theorem storeMember_get {m : GoString × Value} (known : ∃ f, fieldOf m.1 = some f)
    (kind : m.2 = .null ∨ ∃ s, m.2 = .string s) (prop : AgentProposal) :
    ∃ prop', storeMember (prop, none) m = (prop', none) ∧
      ∀ g : ProposalField, g.get prop' = (textsOf g [m]).getLastD (g.get prop) := by
  obtain ⟨key, v⟩ := m
  obtain ⟨f, known⟩ := known
  rcases kind with rfl | ⟨s, rfl⟩
  · exact ⟨prop, by simp [storeMember, known], fun g => rfl⟩
  · refine ⟨f.set prop s, by simp [storeMember, known], fun g => ?_⟩
    rw [ProposalField.get_set]
    by_cases same : g = f
    · simp [textsOf, known, same]
    · simp [textsOf, known, same, Ne.symm same]

theorem textsOf_cons (f : ProposalField) (m : GoString × Value) (members : List (GoString × Value)) :
    textsOf f (m :: members) = textsOf f [m] ++ textsOf f members := by
  simp [textsOf, ← List.filterMap_append]

/-- Members that can be stored are, over what was there. -/
theorem foldl_storable (storable : Storable members) (prop : AgentProposal) :
    ∃ prop', members.foldl storeMember (prop, none) = (prop', none) ∧
      ∀ g : ProposalField, g.get prop' = (textsOf g members).getLastD (g.get prop) := by
  induction members generalizing prop with
  | nil => exact ⟨prop, rfl, fun g => rfl⟩
  | cons m members ih =>
      obtain ⟨known, kind⟩ := storable m List.mem_cons_self
      obtain ⟨prop₁, first, value⟩ := storeMember_get known kind prop
      obtain ⟨prop', rest, values⟩ := ih (fun m' member => storable m' (List.mem_cons_of_mem m member)) prop₁
      refine ⟨prop', by rw [List.foldl_cons, first, rest], fun g => ?_⟩
      rw [values, value, textsOf_cons g m members]
      simp [List.getLastD_eq_getLast?, List.getLast?_append]

theorem storable_of_foldl {start : AgentProposal}
    (ok : members.foldl storeMember (start, none) = (prop, none)) : Storable members := by
  induction members generalizing start with
  | nil => simp [Storable]
  | cons m members ih =>
      rw [List.foldl_cons] at ok
      cases first : storeMember (start, none) m with
      | mk prop₁ err =>
          rw [first] at ok
          cases err with
          | some e =>
              have stays := foldl_error members prop₁ e
              rw [ok] at stays
              cases stays
          | none => exact List.forall_mem_cons.mpr ⟨storeMember_ok first, ih ok⟩

/-- **What is stored without an error**: members with the names of fields and texts, and of
each field the last text. -/
theorem storeValue_object_iff :
    storeValue emptyProposal (.object members) = (prop, none) ↔
      Storable members ∧ prop = spelled members := by
  have stored : Storable members → storeValue emptyProposal (.object members) =
      (spelled members, none) := by
    intro storable
    obtain ⟨prop', folds, values⟩ := foldl_storable storable emptyProposal
    rw [storeValue, folds]
    refine congrArg (·, none) (ProposalField.ext_get fun f => ?_)
    rw [values, get_spelled]
    cases f <;> rfl
  constructor
  · intro ok
    have storable := storable_of_foldl ok
    rw [stored storable] at ok
    cases ok
    exact ⟨storable, rfl⟩
  · rintro ⟨storable, rfl⟩
    exact stored storable

end Store

/-! ## Which bodies are accepted -/

section Accept

variable {texts : DecodeError → GoString} {agentID traceID : Option GoString} {body : GoString}
  {oversized : Bool} {bytes rest : GoString} {v : Value}

/-- A value comes from a text that means it. -/
theorem readValue_value (got : readValue oversized bytes = .value v rest) :
    ∃ k t k', bytes = k ++ (t ++ (k' ++ rest)) ∧ Blank k ∧
      Reads maxNestingDepth (.value v) t ∧ Blank k' := by
  simp only [readValue] at got
  split at got
  · rename_i v' rest' read
    cases got
    exact scan_sound read
  · cases got
  · rename_i m stack ended
    split_ifs at got with limited
    split at got
    · rename_i v' complete
      cases got
      obtain ⟨k, t, k', text, found⟩ := finish_sound ended complete
      exact ⟨k, t, k', by simpa using text, found⟩
    · cases got
    · cases got

/-- The end of the body is reported behind white space. -/
theorem readValue_eof_iff : readValue oversized bytes = .eof ↔ oversized = false ∧ Blank bytes := by
  constructor
  · intro got
    simp only [readValue] at got
    split at got
    · cases got
    · cases got
    · rename_i m stack ended
      split_ifs at got with limited
      split at got
      · cases got
      · exact ⟨by simpa using limited, scan_blank_iff.mp ended⟩
      · cases got
  · rintro ⟨rfl, blank⟩
    simp only [readValue, scan_blank_iff.mpr blank]
    rfl

theorem firstDecode_value {prop : AgentProposal}
    (decoded : (firstDecode texts oversized bytes).1 = .value prop) :
    ∃ v, readValue oversized bytes = .value v (firstDecode texts oversized bytes).2 ∧
      storeValue emptyProposal v = (prop, none) := by
  cases got : readValue oversized bytes with
  | value v rest =>
      refine ⟨v, ?_⟩
      cases stored : storeValue emptyProposal v with
      | mk prop' err =>
          cases err with
          | none =>
              simp only [firstDecode, got, stored] at decoded ⊢
              cases decoded
              exact ⟨by trivial, rfl⟩
          | some e => simp [firstDecode, got, stored] at decoded
  | eof => simp [firstDecode, got] at decoded
  | tooLarge => simp [firstDecode, got] at decoded
  | failed e => simp [firstDecode, got] at decoded

/-- A body is accepted exactly if the first `Decode` delivers a proposal, the second one the end
of the body, and the ID matches. -/
theorem decodeProposal_ok_iff {r : Request} {prop : AgentProposal} :
    decodeProposal r = .ok prop ↔
      r.first = .value prop ∧ r.second = .eof ∧ proposalIDPattern.matchString prop.id = true := by
  unfold decodeProposal
  cases r.first with
  | value prop' =>
      cases r.second with
      | eof =>
          by_cases named : proposalIDPattern.matchString prop'.id = true
          · simp only [named, if_true, Except.ok.injEq, Decoded.value.injEq, true_and]
            constructor
            · rintro rfl
              exact ⟨rfl, named⟩
            · exact fun same => same.1
          · simp only [named, Bool.false_eq_true, if_false, reduceCtorEq, Decoded.value.injEq, true_and,
              false_iff]
            rintro ⟨rfl, other⟩
            exact named other
      | value u => simp
      | tooLarge => simp
      | failed message => simp
  | eof => simp
  | tooLarge => simp
  | failed message => simp

theorem secondDecode_eof_iff :
    secondDecode texts oversized bytes = .eof ↔ oversized = false ∧ Blank bytes := by
  rw [← readValue_eof_iff]
  unfold secondDecode
  cases readValue oversized bytes <;> simp

/-- The body is a proposal in JSON: at most 65536 bytes that are one object with white space
around it, nested at most 10000 deep, with no members but texts, or `null`, for the fields of a
proposal.  The proposal has the last text of each field, and its ID matches the pattern. -/
structure Spells (body : GoString) (prop : AgentProposal) : Prop where
  short : body.length ≤ 65536
  named : proposalIDPattern.matchString prop.id = true
  object : ∃ k t k' members, body = k ++ (t ++ k') ∧ Blank k ∧ Blank k' ∧
    Reads 10000 (.value (.object members)) t ∧ Storable members ∧ prop = spelled members

theorem decodeProposal_spells_iff (texts : DecodeError → GoString)
    (agentID traceID : Option GoString) (body : GoString) (prop : AgentProposal) :
    decodeProposal (Request.ofBody texts agentID traceID body) = .ok prop ↔ Spells body prop := by
  have short : decide (maxBodyBytes < body.length) = false ↔ body.length ≤ 65536 := by
    rw [decide_eq_false_iff_not, Nat.not_lt]
    rfl
  rw [decodeProposal_ok_iff]
  constructor
  · rintro ⟨first, second, named⟩
    obtain ⟨within, blank⟩ := secondDecode_eof_iff.mp second
    obtain ⟨v, got, stored⟩ := firstDecode_value first
    obtain ⟨k, t, k', text, before, reads, behind⟩ := readValue_value got
    have fits := short.mp within
    have whole : body.take maxBodyBytes = body := List.take_of_length_le fits
    rw [whole] at text blank
    cases v with
    | object members =>
        obtain ⟨storable, rfl⟩ := storeValue_object_iff.mp stored
        refine ⟨fits, named, k, t, k' ++ _, members, text, before, ?_, reads, storable, rfl⟩
        intro b member
        exact (List.mem_append.mp member).elim (behind b) (blank b)
    | null =>
        -- `null` leaves the proposal empty, and the empty ID does not match
        cases stored
        cases named
    | _ => simp [storeValue] at stored
  · rintro ⟨fits, named, k, t, k', members, text, before, behind, reads, storable, rfl⟩
    have within := short.mpr fits
    have taken : body.take maxBodyBytes = k ++ (t ++ k') := by
      rw [← text]
      exact List.take_of_length_le fits
    have got : readValue false (k ++ (t ++ k')) = .value (.object members) k' := by
      simp only [readValue, maxNestingDepth, scan_object reads le_rfl before k']
    have stored := storeValue_object_iff.mpr ⟨storable, rfl⟩
    have decoded : firstDecode texts false (k ++ (t ++ k')) = (.value (spelled members), k') := by
      simp only [firstDecode, got, stored]
    refine ⟨?_, ?_, named⟩
    · simp only [Request.ofBody, within, taken, decoded]
    · simp only [Request.ofBody, within, taken, decoded]
      exact secondDecode_eof_iff.mpr ⟨rfl, behind⟩

/-- The reader fails for the size of the body only if there is more than it delivers. -/
theorem readValue_tooLarge (got : readValue oversized bytes = .tooLarge) : oversized = true := by
  simp only [readValue] at got
  split at got
  · cases got
  · cases got
  · split_ifs at got with limited
    · exact limited
    · split at got <;> cases got

theorem decodeProposal_refused {r : Request} {status : ℕ} {message : GoString}
    (refused : decodeProposal r = .error (status, message)) :
    status = 400 ∨ status = 413 ∧ (r.first = .tooLarge ∨ r.second = .tooLarge) := by
  unfold decodeProposal at refused
  split at refused
  · split at refused
    · split_ifs at refused
      cases refused
      exact Or.inl rfl
    · rename_i large
      cases refused
      exact Or.inr ⟨rfl, Or.inr large⟩
    · cases refused
      exact Or.inl rfl
  · rename_i large
    cases refused
    exact Or.inr ⟨rfl, Or.inl large⟩
  · cases refused
    exact Or.inl rfl

/-- **The bodies that are accepted are the proposals in JSON**, each as the one proposal it
spells; every other body is refused with status 400, or, only if it has more than 65536 bytes,
413. -/
theorem decodeProposal_exact (texts : DecodeError → GoString) (agentID traceID : Option GoString)
    (body : GoString) :
    (∀ prop, decodeProposal (Request.ofBody texts agentID traceID body) = .ok prop ↔
      Spells body prop) ∧
    (∀ prop prop', Spells body prop → Spells body prop' → prop = prop') ∧
    ∀ status message,
      decodeProposal (Request.ofBody texts agentID traceID body) = .error (status, message) →
      status = 400 ∨ status = 413 ∧ 65536 < body.length := by
  have accepts := decodeProposal_spells_iff texts agentID traceID body
  refine ⟨accepts, fun prop prop' first second => ?_, fun status message refused => ?_⟩
  · have same := ((accepts prop).mpr first).symm.trans ((accepts prop').mpr second)
    exact Except.ok.inj same
  · rcases decodeProposal_refused refused with bad | ⟨large, which⟩
    · exact Or.inl bad
    · refine Or.inr ⟨large, of_decide_eq_true ?_⟩
      rcases which with first | second
      · cases got : readValue (decide (maxBodyBytes < body.length)) (body.take maxBodyBytes) with
        | tooLarge => exact readValue_tooLarge got
        | value v rest =>
            simp only [Request.ofBody, firstDecode, got] at first
            split at first <;> cases first
        | eof => simp [Request.ofBody, firstDecode, got] at first
        | failed e => simp [Request.ofBody, firstDecode, got] at first
      · simp only [Request.ofBody, secondDecode] at second
        split at second
        · cases second
        · cases second
        · rename_i got
          exact readValue_tooLarge got
        · cases second

end Accept

/-! ## Proposals as agents send them -/

/-- The members of a proposal's JSON object. -/
def proposalMembers (prop : AgentProposal) : List (GoString × Value) :=
  ProposalField.all.map fun f => (f.name, .string (f.get prop))

/-- `json.Marshal` of a proposal. -/
def marshalProposal (prop : AgentProposal) : GoString := render (.object (proposalMembers prop))

/-- The proposal with every field coerced to UTF-8. -/
def coercedProposal (prop : AgentProposal) : AgentProposal where
  id := coerced prop.id
  type := coerced prop.type
  targetID := coerced prop.targetID
  payload := coerced prop.payload

theorem get_coercedProposal (f : ProposalField) (prop : AgentProposal) :
    f.get (coercedProposal prop) = coerced (f.get prop) := by
  cases f <;> rfl

theorem coerced_name (f : ProposalField) : coerced f.name = f.name := by
  have plain : f.name.all (fun b => decide (b.toNat < 128)) = true := by cases f <;> decide
  refine coerced_ascii fun b member => ?_
  exact of_decide_eq_true (List.all_eq_true.mp plain b member)

theorem fieldOf_name (f : ProposalField) : fieldOf f.name = some f := by
  cases f <;> decide

/-- An ID that matches is ASCII. -/
theorem coerced_proposalID {id : GoString} (named : proposalIDPattern.matchString id = true) :
    coerced id = id :=
  coerced_ascii (Pattern.ascii_of_matchString (by decide) named)

theorem storable_proposalMembers (prop : AgentProposal) : Storable (proposalMembers prop) := by
  intro m member
  obtain ⟨f, -, rfl⟩ := List.mem_map.mp member
  exact ⟨⟨f, fieldOf_name f⟩, Or.inr ⟨_, rfl⟩⟩

theorem spelled_proposalMembers (prop : AgentProposal) : spelled (proposalMembers prop) = prop := by
  refine ProposalField.ext_get fun f => ?_
  rw [get_spelled]
  cases f <;>
    simp [textsOf, proposalMembers, ProposalField.all, fieldOf_name, ProposalField.get]

/-- The text of a proposal means its members, coerced. -/
theorem reads_marshalProposal (prop : AgentProposal) :
    Reads 10000 (.value (.object (proposalMembers (coercedProposal prop)))) (marshalProposal prop) := by
  have fits : (Value.object (proposalMembers prop)).Fits 10000 := by
    simp [proposalMembers, ProposalField.all, Value.Fits, Value.FitMembers]
  have same : (Value.object (proposalMembers prop)).coerced =
      .object (proposalMembers (coercedProposal prop)) := by
    simp only [proposalMembers, ProposalField.all, List.map_cons, List.map_nil, Value.coerced,
      Value.coercedMembers, coerced_name, get_coercedProposal]
  rw [← same]
  exact reads_render _ fits

/-- What an object spells out is UTF-8. -/
theorem coercedProposal_spelled {d : ℕ} {members : List (GoString × Value)} {t : GoString}
    (reads : Reads d (.value (.object members)) t) :
    coercedProposal (spelled members) = spelled members := by
  have texts : ∀ m ∈ members, ∀ s, m.2 = .string s → coerced s = s := by
    cases reads with
    | emptyObject d blank => simp
    | object inner => exact inner.utf8
  refine ProposalField.ext_get fun f => ?_
  rw [get_coercedProposal, get_spelled]
  rcases List.eq_nil_or_concat (textsOf f members) with none_ | ⟨front, last, ends⟩
  · rw [none_]
    rfl
  · have listed : last ∈ textsOf f members := by simp [ends]
    obtain ⟨⟨key, v⟩, member, found⟩ := List.mem_filterMap.mp listed
    rw [ends, List.concat_eq_append, List.getLastD_concat]
    cases v with
    | string s =>
        simp only at found
        split_ifs at found
        cases found
        exact texts _ member _ rfl
    | _ => cases found

/-- What a body that is accepted spells out is UTF-8. -/
theorem coercedProposal_accepted {texts : DecodeError → GoString} {agentID traceID : Option GoString}
    {body : GoString} {prop : AgentProposal}
    (accepted : decodeProposal (Request.ofBody texts agentID traceID body) = .ok prop) :
    coercedProposal prop = prop := by
  obtain ⟨-, -, k, t, k', members, -, -, -, reads, -, rfl⟩ :=
    (decodeProposal_spells_iff texts agentID traceID body prop).mp accepted
  exact coercedProposal_spelled reads

/-- A text that is an object and longer than the reader delivers is cut within it. -/
theorem decodeProposal_cut (texts : DecodeError → GoString) (agentID traceID : Option GoString)
    {body : GoString} {members : List (GoString × Value)}
    (reads : Reads 10000 (.value (.object members)) body) (long : 65536 < body.length) :
    decodeProposal (Request.ofBody texts agentID traceID body) =
      .error (413, tooLargeMessage) := by
  have oversized : decide (maxBodyBytes < body.length) = true := decide_eq_true long
  have behind : body.drop maxBodyBytes ≠ [] := by
    rw [ne_eq, List.drop_eq_nil_iff]
    exact Nat.not_le.mpr long
  have whole : scan maxNestingDepth .value []
      (body.take maxBodyBytes ++ body.drop maxBodyBytes) = .value (.object members) [] := by
    have object : scan maxNestingDepth .value [] ([] ++ (body ++ [])) = _ :=
      scan_object reads le_rfl blank_nil []
    rw [List.take_append_drop]
    rwa [List.nil_append, List.append_nil] at object
  obtain ⟨m, stack, cut⟩ := scan_front whole behind
  have first : firstDecode texts true (body.take maxBodyBytes) = (.tooLarge, []) := by
    simp only [firstDecode, readValue, cut, if_true]
  simp only [decodeProposal, Request.ofBody, oversized, first]

/-- The text of a proposal is accepted, as the proposal coerced to UTF-8, or too long. -/
theorem decodeProposal_marshal (texts : DecodeError → GoString) (agentID traceID : Option GoString)
    {prop : AgentProposal} (named : proposalIDPattern.matchString prop.id = true) :
    decodeProposal (Request.ofBody texts agentID traceID (marshalProposal prop)) =
      if (marshalProposal prop).length ≤ 65536 then .ok (coercedProposal prop)
      else .error (413, tooLargeMessage) := by
  have reads := reads_marshalProposal prop
  split_ifs with short
  · rw [decodeProposal_spells_iff]
    refine ⟨short, ?_, [], _, [], _, by simp, blank_nil, blank_nil, reads,
      storable_proposalMembers _, (spelled_proposalMembers _).symm⟩
    show proposalIDPattern.matchString (coerced prop.id) = true
    rw [coerced_proposalID named]
    exact named
  · exact decodeProposal_cut texts agentID traceID reads (Nat.not_le.mp short)

/-- **Proposals arrive as they were sent, if the text fits**: the JSON text of a proposal whose
ID matches is accepted as the proposal, coerced to UTF-8, if it has at most 65536 bytes, and is
refused with status 413 if it has more; and a proposal that was accepted, from whatever body, is
UTF-8, so that its own text is accepted as it is, within the same limit. -/
theorem proposals_round_trip (texts : DecodeError → GoString) (agentID traceID : Option GoString) :
    (∀ prop : AgentProposal, proposalIDPattern.matchString prop.id = true →
      decodeProposal (Request.ofBody texts agentID traceID (marshalProposal prop)) =
        if (marshalProposal prop).length ≤ 65536 then .ok (coercedProposal prop)
        else .error (413, tooLargeMessage)) ∧
    ∀ (body : GoString) (prop : AgentProposal),
      decodeProposal (Request.ofBody texts agentID traceID body) = .ok prop →
      decodeProposal (Request.ofBody texts agentID traceID (marshalProposal prop)) =
        if (marshalProposal prop).length ≤ 65536 then .ok prop
        else .error (413, tooLargeMessage) := by
  refine ⟨fun prop named => decodeProposal_marshal texts agentID traceID named, ?_⟩
  intro body prop accepted
  have named := ((decodeProposal_spells_iff texts agentID traceID body prop).mp accepted).named
  rw [decodeProposal_marshal texts agentID traceID named, coercedProposal_accepted accepted]

/-- The sample proposal, sent with a payload that is no UTF-8. -/
theorem proposals_round_trip_sample :
    let prop := { sampleProposal with payload := [60, 0xFF] }
    proposalIDPattern.matchString prop.id = true ∧ (marshalProposal prop).length ≤ 65536 ∧
      decodeProposal (Request.ofBody (fun _ => []) (some (ascii "a")) none
        (marshalProposal prop)) = .ok { sampleProposal with payload := [60, 0xEF, 0xBF, 0xBD] } := by
  intro prop
  have named : proposalIDPattern.matchString prop.id = true := by decide +kernel
  have short : (marshalProposal prop).length ≤ 65536 := by decide +kernel
  have coerces : coercedProposal prop =
      { sampleProposal with payload := [60, 0xEF, 0xBF, 0xBD] } := by decide +kernel
  have sent := (proposals_round_trip (fun _ => []) (some (ascii "a")) none).1 prop named
  rw [if_pos short, coerces] at sent
  exact ⟨named, short, sent⟩

end SentryGate.Proxy
