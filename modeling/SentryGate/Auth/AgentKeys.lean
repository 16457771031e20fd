/-
# Auth.AgentKeys -- parsing the agents' keys, and finding the agent of a key

`ParseAgentKeys` and `Keyring.Resolve` of `internal/auth/agentkeys.go`.  The keyring holds
digests: SHA-256 is `Runtime.sha256`, and `Runtime.Separates` says where it does not collide.
`crypto/subtle` compares and selects as documented.

`Lists spec entries` says of a text, without the loop, that it lists these agents with these
keys.  `ParseAgentKeys` accepts exactly the texts that list some, and the keyring it returns
then looks a key up in that list (`agentKeys_exact`).
-/
import Mathlib.Data.List.Induction
import SentryGate.Contracts
import SentryGate.Theory.Fill
import SentryGate.Theory.Strings

namespace SentryGate.Auth

open Theory.Text Theory.Fill Theory.Strings Contracts

set_option autoImplicit false

/-! ## ParseAgentKeys -/

def minKeyLength : ℕ := 16

def maxKeyLength : ℕ := 256

/-- `^[A-Za-z0-9._-]{1,64}$` -/
def agentIDPattern : Pattern :=
  [([('A', 'Z'), ('a', 'z'), ('0', '9'), ('.', '.'), ('_', '_'), ('-', '-')], 1, 64)]

/-- `","` -/
def comma : UInt8 := 44

/-- `":"` -/
def colon : UInt8 := 58

structure KeyEntry where
  agentID : GoString
  digest : GoString
  deriving DecidableEq

structure Keyring where
  entries : List KeyEntry
  deriving DecidableEq

/-- What the loop of `ParseAgentKeys` fills. -/
structure Parsing where
  entries : List KeyEntry
  seenIDs : GoString → Bool
  seenKeys : GoString → Bool

/-- One entry, with its index. -/
def parseEntry (go : Runtime) (st : Parsing) (entry : GoString × ℕ) : Except GoString Parsing :=
  let (part, i) := entry
  let pos := ascii (toString (i + 1))
  let (id, key, ok) := cut colon part
  let digest := go.sha256 key
  if !ok then .error (ascii "agent keys: entry " ++ pos ++ ascii " is not in agent-id:key form")
  else if !agentIDPattern.matchString id then
    .error (ascii "agent keys: entry " ++ pos ++ ascii " has an invalid agent id")
  else if key.length < minKeyLength then
    .error (ascii "agent keys: entry " ++ pos ++ ascii " (" ++ id ++ ascii ") key is shorter than " ++
      ascii (toString minKeyLength) ++ ascii " bytes")
  else if key.length > maxKeyLength then
    .error (ascii "agent keys: entry " ++ pos ++ ascii " (" ++ id ++ ascii ") key is longer than " ++
      ascii (toString maxKeyLength) ++ ascii " bytes")
  else if hasSpace key then
    .error (ascii "agent keys: entry " ++ pos ++ ascii " (" ++ id ++ ascii ") key contains whitespace")
  else if st.seenIDs id then
    .error (ascii "agent keys: entry " ++ pos ++ ascii " duplicates agent id " ++ id)
  else if st.seenKeys digest then
    .error (ascii "agent keys: entry " ++ pos ++ ascii " (" ++ id ++
      ascii ") reuses a key assigned to another agent")
  else
    .ok { entries := st.entries ++ [⟨id, digest⟩]
          seenIDs := Function.update st.seenIDs id true
          seenKeys := Function.update st.seenKeys digest true }

/-- `ParseAgentKeys`. -/
def parseAgentKeys (go : Runtime) (spec : GoString) : Except GoString Keyring :=
  let spec := trimSpace spec
  if spec = [] then .error (ascii "agent keys: no entries configured")
  else
    ((spec.splitOn comma).zipIdx.foldlM (parseEntry go) ⟨[], fun _ => false, fun _ => false⟩).bind
      fun st => .ok ⟨st.entries⟩

/-! ## Resolve -/

/-- `subtle.ConstantTimeCompare`. -/
def constantTimeCompare (x y : GoString) : ℕ := if x = y then 1 else 0

/-- `subtle.ConstantTimeSelect`. -/
def constantTimeSelect (v : ℕ) (x y : Int) : Int := if v = 1 then x else y

/-- The loop of `Resolve`: the last index that matched, and whether one did. -/
def matchEntries (digest : GoString) (entries : List KeyEntry) : Int × ℕ :=
  entries.zipIdx.foldl (fun (found : Int × ℕ) (entry : KeyEntry × ℕ) =>
    let eq := constantTimeCompare digest entry.1.digest
    (constantTimeSelect eq entry.2 found.1, found.2 ||| eq)) (-1, 0)

/-- `Resolve`; `none` is a panic of the index expression. -/
def Keyring.resolve (go : Runtime) (k : Keyring) (presented : GoString) : Option (GoString × Bool) :=
  let (last, found) := matchEntries (go.sha256 presented) k.entries
  if found ≠ 1 then some ([], false)
  else if last < 0 then none
  else k.entries[last.toNat]?.map fun e => (e.agentID, true)

/-! ## The texts that list keys -/

/-- The text lists these agent IDs with their keys. -/
structure Lists (spec : GoString) (entries : List (GoString × GoString)) : Prop where
  nonempty : trimSpace spec ≠ []
  parts : (trimSpace spec).splitOn comma = entries.map fun e => e.1 ++ colon :: e.2
  /-- The colon between ID and key is the first of its part. -/
  first : ∀ e ∈ entries, colon ∉ e.1
  ids : ∀ e ∈ entries, agentIDPattern.matchString e.1 = true
  lengths : ∀ e ∈ entries, 16 ≤ e.2.length ∧ e.2.length ≤ 256
  noSpace : ∀ e ∈ entries, hasSpace e.2 = false
  distinctIDs : (entries.map Prod.fst).Nodup
  distinctKeys : (entries.map Prod.snd).Nodup

/-- The ID and the key of a part. -/
def entryOf (part : GoString) : GoString × GoString := ((cut colon part).1, (cut colon part).2.1)

/-- The keys of a text: what its parts have behind their first colon. -/
def keysOf (spec : GoString) : List GoString :=
  ((trimSpace spec).splitOn comma).map fun part => (entryOf part).2

/-! ## The loop of ParseAgentKeys -/

/-- A part is good in itself. -/
structure Good (part : GoString) : Prop where
  splits : (cut colon part).2.2 = true
  id : agentIDPattern.matchString (entryOf part).1 = true
  length : 16 ≤ (entryOf part).2.length ∧ (entryOf part).2.length ≤ 256
  noSpace : hasSpace (entryOf part).2 = false

section Parse

variable (go : Runtime)

/-- The digest of the key of a part. -/
def digestOf (part : GoString) : GoString := go.sha256 (entryOf part).2

/-- What an accepted part adds. -/
def put (st : Parsing) (part : GoString) : Parsing where
  entries := st.entries ++ [⟨(entryOf part).1, digestOf go part⟩]
  seenIDs := putSet st.seenIDs (entryOf part).1
  seenKeys := putSet st.seenKeys (digestOf go part)

variable {go}

theorem parseEntry_ok_iff (st : Parsing) (part : GoString) (i : ℕ) (st' : Parsing) :
    parseEntry go st (part, i) = .ok st' ↔
      ((Good part ∧ st.seenIDs (entryOf part).1 = false) ∧
        (Good part ∧ st.seenKeys (digestOf go part) = false)) ∧ st' = put go st part := by
  unfold parseEntry put putSet digestOf
  dsimp only
  rw [ite_error_ok_iff, ite_error_ok_iff, ite_error_ok_iff, ite_error_ok_iff, ite_error_ok_iff,
    ite_error_ok_iff, ite_error_ok_iff, ok_eq_ok_iff]
  simp only [Bool.not_eq_true', Bool.not_eq_false, Bool.not_eq_true, gt_iff_lt, Nat.not_lt]
  constructor
  · rintro ⟨splits, id, long, short, noSpace, newID, newKey, rfl⟩
    have good : Good part := ⟨splits, id, ⟨long, short⟩, noSpace⟩
    exact ⟨⟨⟨good, newID⟩, ⟨good, newKey⟩⟩, rfl⟩
  · rintro ⟨⟨⟨good, newID⟩, -, newKey⟩, rfl⟩
    exact ⟨good.splits, good.id, good.length.1, good.length.2, good.noSpace, newID, newKey, rfl⟩

theorem foldl_put_entries (parts : List GoString) (st : Parsing) :
    (parts.foldl (put go) st).entries =
      st.entries ++ parts.map fun part => ⟨(entryOf part).1, digestOf go part⟩ := by
  induction parts generalizing st with
  | nil => simp
  | cons part parts ih => rw [List.foldl_cons, ih, List.map_cons, put, List.append_assoc]; rfl

/-- **What ParseAgentKeys accepts**, with the digests it compares. -/
theorem parseAgentKeys_ok_iff {spec : GoString} {k : Keyring} :
    parseAgentKeys go spec = .ok k ↔
      trimSpace spec ≠ [] ∧ (∀ part ∈ (trimSpace spec).splitOn comma, Good part) ∧
        (((trimSpace spec).splitOn comma).map fun part => (entryOf part).1).Nodup ∧
        (((trimSpace spec).splitOn comma).map (digestOf go)).Nodup ∧
        k.entries = ((trimSpace spec).splitOn comma).map
          fun part => ⟨(entryOf part).1, digestOf go part⟩ := by
  have ids : ∀ (st : Parsing) part id, Good part →
      (put go st part).seenIDs id = (st.seenIDs id || decide (id = (entryOf part).1)) :=
    fun st part id _ => putSet_apply st.seenIDs _ id
  have keys : ∀ (st : Parsing) part digest, Good part →
      (put go st part).seenKeys digest = (st.seenKeys digest || decide (digest = digestOf go part)) :=
    fun st part digest _ => putSet_apply st.seenKeys _ digest
  unfold parseAgentKeys
  dsimp only
  rw [ite_error_ok_iff, bind_ok_iff]
  simp only [foldlM_zipIdx_ok_iff parseEntry_ok_iff, passes_and_iff, ok_eq_ok_iff,
    passes_distinct_iff Parsing.seenIDs _ ids, passes_distinct_iff Parsing.seenKeys _ keys]
  constructor
  · rintro ⟨nonempty, _, ⟨⟨⟨good, distinct, -⟩, -, distinct', -⟩, rfl⟩, rfl⟩
    exact ⟨nonempty, good, distinct, distinct', foldl_put_entries _ _⟩
  · rintro ⟨nonempty, good, distinct, distinct', entries⟩
    refine ⟨nonempty, _,
      ⟨⟨⟨good, distinct, fun _ _ => trivial⟩, good, distinct', fun _ _ => trivial⟩, rfl⟩, ?_⟩
    obtain ⟨entries⟩ := k
    rw [foldl_put_entries]
    exact congrArg Keyring.mk entries

end Parse

/-! ## Texts and their parts -/

section Parts

variable {spec : GoString} {entries : List (GoString × GoString)}

theorem entryOf_append {id key : GoString} (first : colon ∉ id) :
    cut colon (id ++ colon :: key) = (id, key, true) :=
  cut_eq_iff.mpr ⟨rfl, first⟩

/-- A text lists the entries its parts split into, and no other. -/
theorem lists_iff : Lists spec entries ↔
    trimSpace spec ≠ [] ∧ (∀ part ∈ (trimSpace spec).splitOn comma, Good part) ∧
      (entries.map Prod.fst).Nodup ∧ (entries.map Prod.snd).Nodup ∧
      entries = ((trimSpace spec).splitOn comma).map entryOf := by
  constructor
  · rintro ⟨nonempty, parts, first, ids, lengths, noSpace, distinctIDs, distinctKeys⟩
    have split : ∀ e ∈ entries, cut colon (e.1 ++ colon :: e.2) = (e.1, e.2, true) :=
      fun e member => entryOf_append (first e member)
    refine ⟨nonempty, ?_, distinctIDs, distinctKeys, ?_⟩
    · rw [parts, List.forall_mem_map]
      intro e member
      have cuts := split e member
      exact ⟨by rw [cuts], by rw [entryOf, cuts]; exact ids e member,
        by rw [entryOf, cuts]; exact lengths e member,
        by rw [entryOf, cuts]; exact noSpace e member⟩
    · rw [parts, List.map_map]
      have joined : ∀ e ∈ entries, (entryOf ∘ fun e => e.1 ++ colon :: e.2) e = id e := by
        intro e member
        show entryOf (e.1 ++ colon :: e.2) = e
        rw [entryOf, split e member]
      rw [List.map_congr_left joined, List.map_id]
  · rintro ⟨nonempty, good, distinctIDs, distinctKeys, rfl⟩
    have joins : ∀ part ∈ (trimSpace spec).splitOn comma,
        part = (entryOf part).1 ++ colon :: (entryOf part).2 ∧ colon ∉ (entryOf part).1 := by
      intro part member
      refine cut_eq_iff.mp ?_
      rw [← (good part member).splits]
      rfl
    refine ⟨nonempty, ?_, ?_, ?_, ?_, ?_, distinctIDs, distinctKeys⟩
    · rw [List.map_map]
      conv_lhs => rw [← List.map_id ((trimSpace spec).splitOn comma)]
      exact List.map_congr_left fun part member => (joins part member).1
    · exact List.forall_mem_map.mpr fun part member => (joins part member).2
    · exact List.forall_mem_map.mpr fun part member => (good part member).id
    · exact List.forall_mem_map.mpr fun part member => (good part member).length
    · exact List.forall_mem_map.mpr fun part member => (good part member).noSpace

end Parts

/-! ## The loop of Resolve -/

section Resolve

/-- After the loop: the index of an entry that matches, or none does. -/
theorem matchEntries_spec (digest : GoString) (entries : List KeyEntry) :
    ((matchEntries digest entries).2 = 0 ∧ ∀ e ∈ entries, e.digest ≠ digest) ∨
    ((matchEntries digest entries).2 = 1 ∧ ∃ i e, (matchEntries digest entries).1 = (i : ℕ) ∧
      entries[i]? = some e ∧ e.digest = digest) := by
  induction entries using List.reverseRecOn with
  | nil => exact Or.inl ⟨rfl, by simp⟩
  | append_singleton entries e ih =>
      have step : matchEntries digest (entries ++ [e]) =
          (constantTimeSelect (constantTimeCompare digest e.digest) entries.length
              (matchEntries digest entries).1,
            (matchEntries digest entries).2 ||| constantTimeCompare digest e.digest) := by
        simp [matchEntries, List.zipIdx_append]
      rw [step]
      by_cases here : digest = e.digest
      · have found : (matchEntries digest entries).2 ||| 1 = 1 := by
          rcases ih with ⟨none, -⟩ | ⟨one, -⟩
          · rw [none]; rfl
          · rw [one]; rfl
        refine Or.inr ⟨by simpa [constantTimeCompare, here] using found, entries.length, e, ?_, ?_, here.symm⟩
        · simp [constantTimeSelect, constantTimeCompare, here]
        · simp
      · simp only [constantTimeCompare, here, if_false, Nat.or_zero, constantTimeSelect]
        rcases ih with ⟨none, others⟩ | ⟨one, i, x, index, entry, same⟩
        · refine Or.inl ⟨none, ?_⟩
          simp only [List.mem_append, List.mem_singleton]
          rintro x (member | rfl)
          · exact others x member
          · exact Ne.symm here
        · have inside := (List.getElem?_eq_some_iff.mp entry).1
          refine Or.inr ⟨one, i, x, by simpa using index, ?_, same⟩
          rw [List.getElem?_append_left inside]
          exact entry

/-- Resolve answers with an entry that has the digest, or there is none. -/
theorem resolve_cases (go : Runtime) (k : Keyring) (presented : GoString) :
    (k.resolve go presented = some ([], false) ∧ ∀ e ∈ k.entries, e.digest ≠ go.sha256 presented) ∨
    ∃ e ∈ k.entries, e.digest = go.sha256 presented ∧
      k.resolve go presented = some (e.agentID, true) := by
  unfold Keyring.resolve
  rcases matchEntries_spec (go.sha256 presented) k.entries with ⟨none, others⟩ |
    ⟨one, i, e, index, entry, same⟩
  · left
    refine ⟨?_, others⟩
    simp [none]
  · right
    refine ⟨e, List.mem_of_getElem? entry, same, ?_⟩
    simp [one, index, entry]

end Resolve

/-! ## Both together -/

section Exact

variable {go : Runtime} {spec : GoString} {entries : List (GoString × GoString)}

/-- The keyring of an accepted text holds its entries, the keys as digests. -/
theorem parseAgentKeys_entries {k : Keyring} (accepted : parseAgentKeys go spec = .ok k)
    (lists : Lists spec entries) :
    k.entries = entries.map fun e => ⟨e.1, go.sha256 e.2⟩ := by
  obtain ⟨-, -, -, -, held⟩ := parseAgentKeys_ok_iff.mp accepted
  obtain ⟨-, -, -, -, rfl⟩ := lists_iff.mp lists
  rw [held, List.map_map]
  rfl

theorem keysOf_eq (lists : Lists spec entries) : keysOf spec = entries.map Prod.snd := by
  obtain ⟨-, -, -, -, rfl⟩ := lists_iff.mp lists
  rw [List.map_map]
  rfl

/-- Where SHA-256 does not collide, distinct digests are distinct keys. -/
theorem parseAgentKeys_accepts_iff (free : go.Separates (keysOf spec)) :
    (∃ k, parseAgentKeys go spec = .ok k) ↔ ∃ entries, Lists spec entries := by
  constructor
  · rintro ⟨k, accepted⟩
    obtain ⟨nonempty, good, distinct, distinct', -⟩ := parseAgentKeys_ok_iff.mp accepted
    refine ⟨((trimSpace spec).splitOn comma).map entryOf,
      lists_iff.mpr ⟨nonempty, good, ?_, ?_, rfl⟩⟩
    · rw [List.map_map]
      exact distinct
    · rw [List.map_map]
      refine List.Nodup.of_map go.sha256 ?_
      rw [List.map_map]
      exact distinct'
  · rintro ⟨entries, lists⟩
    have keys := keysOf_eq lists
    obtain ⟨nonempty, good, distinctIDs, distinctKeys, rfl⟩ := lists_iff.mp lists
    refine ⟨⟨_⟩, parseAgentKeys_ok_iff.mpr ⟨nonempty, good, ?_, ?_, rfl⟩⟩
    · rw [List.map_map] at distinctIDs
      exact distinctIDs
    · rw [← keys] at distinctKeys
      have digests := distinctKeys.map_on free
      rw [keysOf, List.map_map] at digests
      exact digests

/-- **Parsing and resolving are an exact lookup.**  A text is accepted exactly if it lists
entries, and then Resolve finds the agent whose key is presented, and no other. -/
theorem agentKeys_exact (go : Runtime) (spec : GoString) (free : go.Separates (keysOf spec)) :
    Trimmed spec (trimSpace spec) ∧
    ((∃ k, parseAgentKeys go spec = .ok k) ↔ ∃ entries, Lists spec entries) ∧
    ∀ k entries, parseAgentKeys go spec = .ok k → Lists spec entries →
      ∀ presented, go.Separates (presented :: keysOf spec) →
        (∀ id, k.resolve go presented = some (id, true) ↔ (id, presented) ∈ entries) ∧
        ((∀ id, (id, presented) ∉ entries) → k.resolve go presented = some ([], false)) := by
  refine ⟨trimSpace_trimmed spec, parseAgentKeys_accepts_iff free, ?_⟩
  intro k entries accepted lists presented apart
  have held := parseAgentKeys_entries accepted lists
  -- an entry with the digest of what is presented has it as its key
  have exact_key : ∀ e ∈ k.entries, e.digest = go.sha256 presented →
      (e.agentID, presented) ∈ entries := by
    intro e member same
    rw [held] at member
    obtain ⟨x, listed, rfl⟩ := List.mem_map.mp member
    have key : x.2 ∈ keysOf spec := by
      rw [keysOf_eq lists]
      exact List.mem_map_of_mem listed
    have equal := apart x.2 (List.mem_cons_of_mem _ key) presented List.mem_cons_self same
    rw [← equal]
    exact listed
  have kept : ∀ id, (id, presented) ∈ entries → ⟨id, go.sha256 presented⟩ ∈ k.entries := by
    intro id listed
    rw [held]
    exact List.mem_map_of_mem (f := fun e => (⟨e.1, go.sha256 e.2⟩ : KeyEntry)) listed
  rcases resolve_cases go k presented with ⟨missing, others⟩ | ⟨e, member, same, found⟩
  · refine ⟨fun id => ⟨fun answer => ?_, fun listed => ?_⟩, fun _ => missing⟩
    · rw [missing] at answer
      cases answer
    · exact absurd rfl (others _ (kept id listed))
  · have listed := exact_key e member same
    refine ⟨fun id => ⟨fun answer => ?_, fun listed' => ?_⟩, fun absent => absurd listed (absent _)⟩
    · rw [found] at answer
      cases answer
      exact listed
    · have one := List.inj_on_of_nodup_map lists.distinctKeys listed listed' rfl
      cases one
      exact found

/-- Two agents, the second with a colon in its key, in a text with white space around it. -/
theorem agentKeys_exact_two_agents :
    let go : Runtime := .plain
    let entries := [(ascii "a", ascii "0123456789abcdef"), (ascii "b", ascii "k:0123456789abcdef")]
    ∃ k, parseAgentKeys go (ascii " a:0123456789abcdef,b:k:0123456789abcdef\n") = .ok k ∧
      (k.resolve go (ascii "k:0123456789abcdef") = some (ascii "b", true) ↔
        (ascii "b", ascii "k:0123456789abcdef") ∈ entries) := by
  intro go entries
  have free (strings : List GoString) : go.Separates strings := fun _ _ _ _ same => same
  have lists : Lists (ascii " a:0123456789abcdef,b:k:0123456789abcdef\n") entries :=
    ⟨by decide +kernel, by decide +kernel, by decide +kernel, by decide +kernel, by decide +kernel,
      by decide +kernel, by decide +kernel, by decide +kernel⟩
  obtain ⟨-, accepts, lookup⟩ := agentKeys_exact go _ (free _)
  obtain ⟨k, accepted⟩ := accepts.mpr ⟨entries, lists⟩
  exact ⟨k, accepted, (lookup k entries accepted lists _ (free _)).1 _⟩

end Exact

end SentryGate.Auth
