/-
# Theory.JsonText -- JSON values, the texts that mean them, and a reader

A JSON value is a `Value`; `Reads d (.value v) t` says that the text `t` means `v` and is
nested at most `d` deep.  It is the grammar of RFC 8259 over bytes that need not be UTF-8,
with any white space.

`scan` reads one value as Go's `encoding/json` does: byte by byte, with a stack of the arrays
and objects that are open.  It is the grammar, in both directions: what it returns was read
from a text that means it (`scan_sound`), and what means a value is read as it
(`Reads.passes`, `scan_object`).  `Covers` is what carries the first: for every state of the
reader, which texts lead to it.  A text that was cut off leaves the reader within the value
(`scan_front`).
-/
import SentryGate.Theory.Json

namespace SentryGate.Theory.JsonText

open Bytes Json

set_option autoImplicit false

/-! ## Values -/

/-- A JSON value.  A number is its text, a string the UTF-8 of its characters, and an object
its members in order, repeated names included. -/
inductive Value where
  | null
  | bool (b : Bool)
  | number (text : List UInt8)
  | string (s : List UInt8)
  | array (items : List Value)
  | object (members : List (List UInt8 × Value))

/-! ## Words of the language -/

/-- Blank, tab, newline and carriage return. -/
def isSpace (b : UInt8) : Bool := b == 32 || b == 9 || b == 10 || b == 13

def Blank (s : List UInt8) : Prop := ∀ b ∈ s, isSpace b = true

theorem blank_nil : Blank [] := by simp [Blank]

/-- Where the reader is between the quotes of a string. -/
inductive InString where
  | plain
  | escape
  /-- Behind a backslash and a `u`, with digits to come after the next one. -/
  | code (more : ℕ)
  deriving DecidableEq

/-- The bytes that may follow a backslash, without the `u`. -/
def escapable : List UInt8 := 47 :: shortEscapes.map Prod.snd

/-- Behind a digit, with so many digits to come. -/
def InString.digits : ℕ → InString
  | 0 => .plain
  | more + 1 => .code more

def InString.next : InString → UInt8 → Option InString
  | .plain, b => if b = 92 then some .escape else if b.toNat < 32 ∨ b = 34 then none else some .plain
  | .escape, b => if b = 117 then some (.code 3) else if b ∈ escapable then some .plain else none
  | .code more, b => if (hexValue b).isSome then some (.digits more) else none

/-- Where the reader is in a number. -/
inductive InNumber where
  | minus | zero | digits | point | fraction | e | sign | exponent
  deriving DecidableEq

def isDigit (b : UInt8) : Bool := 48 ≤ b.toNat && b.toNat ≤ 57

def isE (b : UInt8) : Bool := b == 101 || b == 69

def InNumber.next : InNumber → UInt8 → Option InNumber
  | .minus, b => if b = 48 then some .zero else if isDigit b then some .digits else none
  | .zero, b => if b = 46 then some .point else if isE b then some .e else none
  | .digits, b =>
      if isDigit b then some .digits else if b = 46 then some .point
      else if isE b then some .e else none
  | .point, b => if isDigit b then some .fraction else none
  | .fraction, b => if isDigit b then some .fraction else if isE b then some .e else none
  | .e, b => if b = 43 ∨ b = 45 then some .sign else if isDigit b then some .exponent else none
  | .sign, b => if isDigit b then some .exponent else none
  | .exponent, b => if isDigit b then some .exponent else none

/-- The first byte of a number. -/
def InNumber.first (b : UInt8) : Option InNumber :=
  if b = 45 then some .minus else if b = 48 then some .zero
  else if isDigit b then some .digits else none

def InNumber.complete : InNumber → Bool
  | .zero | .digits | .fraction | .exponent => true
  | _ => false

/-- Run an automaton. -/
def automaton {σ : Type} (next : σ → UInt8 → Option σ) : σ → List UInt8 → Option σ
  | q, [] => some q
  | q, b :: s => (next q b).bind fun q => automaton next q s

/-- What may stand between the quotes of a string. -/
def IsString (raw : List UInt8) : Prop := automaton InString.next .plain raw = some .plain

/-- The number automaton is in `n` behind this text. -/
def NumberTo (n : InNumber) : List UInt8 → Prop
  | [] => False
  | b :: s => (InNumber.first b).bind (automaton InNumber.next · s) = some n

/-- What is a number. -/
def IsNumber (t : List UInt8) : Prop := ∃ n, NumberTo n t ∧ n.complete = true

/-- The string that is written so between quotes. -/
def unquote (raw : List UInt8) : List UInt8 :=
  match readString (raw.length + 1) (raw ++ [34]) with
  | some (chars, []) => chars.flatMap String.utf8EncodeChar
  | _ => []

/-! ## The grammar -/

/-- What a text can be read as: a value, the items of an array, the members of an object. -/
inductive Part where
  | value (v : Value)
  | items (vs : List Value)
  | members (ms : List (List UInt8 × Value))

def nullText : List UInt8 := [110, 117, 108, 108]
def trueText : List UInt8 := [116, 114, 117, 101]
def falseText : List UInt8 := [102, 97, 108, 115, 101]

/-- The text means this part, with at most so many arrays and objects within each other. -/
inductive Reads : ℕ → Part → List UInt8 → Prop where
  | null (d : ℕ) : Reads d (.value .null) nullText
  | isTrue (d : ℕ) : Reads d (.value (.bool true)) trueText
  | isFalse (d : ℕ) : Reads d (.value (.bool false)) falseText
  | number (d : ℕ) {t : List UInt8} (ok : IsNumber t) : Reads d (.value (.number t)) t
  | string (d : ℕ) {raw : List UInt8} (ok : IsString raw) :
      Reads d (.value (.string (unquote raw))) (34 :: (raw ++ [34]))
  | emptyArray (d : ℕ) {b : List UInt8} (blank : Blank b) :
      Reads (d + 1) (.value (.array [])) (91 :: (b ++ [93]))
  | array {d : ℕ} {vs : List Value} {t : List UInt8} (items : Reads d (.items vs) t) :
      Reads (d + 1) (.value (.array vs)) (91 :: (t ++ [93]))
  | emptyObject (d : ℕ) {b : List UInt8} (blank : Blank b) :
      Reads (d + 1) (.value (.object [])) (123 :: (b ++ [125]))
  | object {d : ℕ} {ms : List (List UInt8 × Value)} {t : List UInt8}
      (members : Reads d (.members ms) t) : Reads (d + 1) (.value (.object ms)) (123 :: (t ++ [125]))
  | item {d : ℕ} {v : Value} {b t b' : List UInt8} (before : Blank b) (value : Reads d (.value v) t)
      (behind : Blank b') : Reads d (.items [v]) (b ++ (t ++ b'))
  | items {d : ℕ} {vs : List Value} {v : Value} {s b t b' : List UInt8}
      (first : Reads d (.items vs) s) (before : Blank b) (value : Reads d (.value v) t)
      (behind : Blank b') : Reads d (.items (vs ++ [v])) (s ++ 44 :: (b ++ (t ++ b')))
  | member {d : ℕ} {raw : List UInt8} {v : Value} {k k' b t b' : List UInt8} (before : Blank k)
      (key : IsString raw) (between : Blank k') (gap : Blank b) (value : Reads d (.value v) t)
      (behind : Blank b') :
      Reads d (.members [(unquote raw, v)])
        (k ++ 34 :: (raw ++ 34 :: (k' ++ 58 :: (b ++ (t ++ b')))))
  | members {d : ℕ} {ms : List (List UInt8 × Value)} {raw : List UInt8} {v : Value}
      {s k k' b t b' : List UInt8} (first : Reads d (.members ms) s) (before : Blank k)
      (key : IsString raw) (between : Blank k') (gap : Blank b) (value : Reads d (.value v) t)
      (behind : Blank b') :
      Reads d (.members (ms ++ [(unquote raw, v)]))
        (s ++ 44 :: (k ++ 34 :: (raw ++ 34 :: (k' ++ 58 :: (b ++ (t ++ b'))))))

/-! ## The reader -/

/-- An array or object that is open: what it holds so far, and the name whose value comes
next. -/
inductive Frame where
  | items (vs : List Value)
  | members (ms : List (List UInt8 × Value))
  | member (ms : List (List UInt8 × Value)) (key : List UInt8)

/-- What the reader is at. -/
inductive Mode where
  /-- A value comes next. -/
  | value
  /-- An array began: a value or its end. -/
  | firstItem
  /-- An object began: a name or its end. -/
  | firstKey
  | key
  | inKey (l : InString) (raw : List UInt8)
  | colon (key : List UInt8)
  | inString (l : InString) (raw : List UInt8)
  | inNumber (n : InNumber) (text : List UInt8)
  /-- Within `null`, `true` or `false`: what was read of it and what is left. -/
  | literal (read left : List UInt8) (v : Value)
  /-- A value is complete. -/
  | after (v : Value)

/-- What one byte leads to. -/
inductive Step where
  | go (m : Mode) (stack : List Frame)
  /-- The outermost value is complete, with this byte. -/
  | done (v : Value)
  /-- It was complete before this byte. -/
  | stop (v : Value)
  | bad

/-- An array or object ends. -/
def close (v : Value) : List Frame → Step
  | [] => .done v
  | stack => .go (.after v) stack

/-- A byte behind a complete value. -/
def endValue (v : Value) (stack : List Frame) (b : UInt8) : Step :=
  match stack with
  | [] => .stop v
  | .items vs :: below =>
      if isSpace b then .go (.after v) stack
      else if b = 44 then .go .value (.items (vs ++ [v]) :: below)
      else if b = 93 then close (.array (vs ++ [v])) below
      else .bad
  | .member ms key :: below =>
      if isSpace b then .go (.after v) stack
      else if b = 44 then .go .key (.members (ms ++ [(key, v)]) :: below)
      else if b = 125 then close (.object (ms ++ [(key, v)])) below
      else .bad
  | .members _ :: _ => .bad

/-- The first byte of a value. -/
def beginValue (limit : ℕ) (stack : List Frame) (b : UInt8) : Step :=
  if b = 123 then
    if stack.length < limit then .go .firstKey (.members [] :: stack) else .bad
  else if b = 91 then
    if stack.length < limit then .go .firstItem (.items [] :: stack) else .bad
  else if b = 34 then .go (.inString .plain []) stack
  else if b = 110 then .go (.literal [110] [117, 108, 108] .null) stack
  else if b = 116 then .go (.literal [116] [114, 117, 101] (.bool true)) stack
  else if b = 102 then .go (.literal [102] [97, 108, 115, 101] (.bool false)) stack
  else
    match InNumber.first b with
    | some n => .go (.inNumber n [b]) stack
    | none => .bad

/-- One byte. -/
def step (limit : ℕ) (m : Mode) (stack : List Frame) (b : UInt8) : Step :=
  match m with
  | .value => if isSpace b then .go .value stack else beginValue limit stack b
  | .firstItem =>
      if isSpace b then .go .firstItem stack
      else if b = 93 then close (.array []) stack.tail
      else beginValue limit stack b
  | .firstKey =>
      if isSpace b then .go .firstKey stack
      else if b = 125 then close (.object []) stack.tail
      else if b = 34 then .go (.inKey .plain []) stack
      else .bad
  | .key =>
      if isSpace b then .go .key stack
      else if b = 34 then .go (.inKey .plain []) stack
      else .bad
  | .inKey l raw =>
      if l = .plain ∧ b = 34 then .go (.colon (unquote raw)) stack
      else
        match l.next b with
        | some l => .go (.inKey l (raw ++ [b])) stack
        | none => .bad
  | .colon key =>
      if isSpace b then .go (.colon key) stack
      else
        match stack with
        | .members ms :: below => if b = 58 then .go .value (.member ms key :: below) else .bad
        | _ => .bad
  | .inString l raw =>
      if l = .plain ∧ b = 34 then .go (.after (.string (unquote raw))) stack
      else
        match l.next b with
        | some l => .go (.inString l (raw ++ [b])) stack
        | none => .bad
  | .inNumber n text =>
      match n.next b with
      | some n => .go (.inNumber n (text ++ [b])) stack
      | none => if n.complete then endValue (.number text) stack b else .bad
  | .literal read left v =>
      match left with
      | [] => .bad
      | c :: left =>
          if b = c then
            if left = [] then .go (.after v) stack else .go (.literal (read ++ [c]) left v) stack
          else .bad
  | .after v => endValue v stack b

section Modes

variable {limit : ℕ} {stack : List Frame} {b : UInt8} {v : Value}

@[simp] theorem step_value : step limit .value stack b =
    if isSpace b then .go .value stack else beginValue limit stack b := rfl

@[simp] theorem step_firstItem : step limit .firstItem stack b =
    if isSpace b then .go .firstItem stack
    else if b = 93 then close (.array []) stack.tail
    else beginValue limit stack b := rfl

@[simp] theorem step_firstKey : step limit .firstKey stack b =
    if isSpace b then .go .firstKey stack
    else if b = 125 then close (.object []) stack.tail
    else if b = 34 then .go (.inKey .plain []) stack
    else .bad := rfl

@[simp] theorem step_key : step limit .key stack b =
    if isSpace b then .go .key stack
    else if b = 34 then .go (.inKey .plain []) stack
    else .bad := rfl

@[simp] theorem step_colon {ms : List (List UInt8 × Value)} {key : List UInt8} :
    step limit (.colon key) (.members ms :: stack) b =
      if isSpace b then .go (.colon key) (.members ms :: stack)
      else if b = 58 then .go .value (.member ms key :: stack) else .bad := rfl

@[simp] theorem step_after : step limit (.after v) stack b = endValue v stack b := rfl

@[simp] theorem endValue_items {vs : List Value} : endValue v (.items vs :: stack) b =
    if isSpace b then .go (.after v) (.items vs :: stack)
    else if b = 44 then .go .value (.items (vs ++ [v]) :: stack)
    else if b = 93 then close (.array (vs ++ [v])) stack
    else .bad := rfl

@[simp] theorem endValue_member {ms : List (List UInt8 × Value)} {key : List UInt8} :
    endValue v (.member ms key :: stack) b =
      if isSpace b then .go (.after v) (.member ms key :: stack)
      else if b = 44 then .go .key (.members (ms ++ [(key, v)]) :: stack)
      else if b = 125 then close (.object (ms ++ [(key, v)])) stack
      else .bad := rfl

theorem step_opensArray (room : stack.length < limit) :
    step limit .value stack 91 = .go .firstItem (.items [] :: stack) := if_pos room

theorem step_opensObject (room : stack.length < limit) :
    step limit .value stack 123 = .go .firstKey (.members [] :: stack) := if_pos room

end Modes

/-- What comes of reading one value. -/
inductive Outcome where
  | value (v : Value) (rest : List UInt8)
  | bad
  /-- The text ended within it. -/
  | more (m : Mode) (stack : List Frame)

def scan (limit : ℕ) : Mode → List Frame → List UInt8 → Outcome
  | m, stack, [] => .more m stack
  | m, stack, b :: s =>
      match step limit m stack b with
      | .go m stack => scan limit m stack s
      | .done v => .value v s
      | .stop v => .value v (b :: s)
      | .bad => .bad

/-- The value that is complete if nothing more comes. -/
def finish : Mode → List Frame → Option Value
  | .after v, [] => some v
  | .inNumber n text, [] => if n.complete then some (.number text) else none
  | _, _ => none

/-! ## What is a text of the grammar is read -/

section Complete

variable {limit : ℕ} {stack : List Frame} {m : Mode}

theorem scan_cons {b : UInt8} {m' : Mode} {stack' : List Frame}
    (goes : step limit m stack b = .go m' stack') (s : List UInt8) :
    scan limit m stack (b :: s) = scan limit m' stack' s := by
  simp only [scan, goes]

/-- Of a text that is read to its very end, any beginning leaves the reader within the value. -/
theorem scan_front {p q : List UInt8} {v : Value} (read : scan limit m stack (p ++ q) = .value v [])
    (short : q ≠ []) : ∃ m' stack', scan limit m stack p = .more m' stack' := by
  induction p generalizing m stack with
  | nil => exact ⟨m, stack, rfl⟩
  | cons b p ih =>
      simp only [List.cons_append, scan] at read ⊢
      cases stepped : step limit m stack b with
      | go m' stack' =>
          rw [stepped] at read
          exact ih read
      | done v' =>
          simp only [stepped, Outcome.value.injEq, List.append_eq_nil_iff] at read
          exact absurd read.2.2 short
      | stop v' => simp [stepped] at read
      | bad => simp [stepped] at read

/-- White space is passed over wherever the reader pauses. -/
theorem scan_blank (pauses : ∀ b, isSpace b = true → step limit m stack b = .go m stack)
    {k : List UInt8} (blank : Blank k) (s : List UInt8) :
    scan limit m stack (k ++ s) = scan limit m stack s := by
  induction k with
  | nil => rfl
  | cons b k ih =>
      rw [List.cons_append, scan_cons (pauses b (blank b List.mem_cons_self))]
      exact ih fun c member => blank c (List.mem_cons_of_mem b member)

/-- A word is read by its automaton. -/
theorem scan_automaton {σ : Type} {next : σ → UInt8 → Option σ} {within : σ → List UInt8 → Mode}
    (moves : ∀ q raw b q', next q b = some q' →
      step limit (within q raw) stack b = .go (within q' (raw ++ [b])) stack)
    {q q' : σ} {raw word : List UInt8} (runs : automaton next q word = some q') (s : List UInt8) :
    scan limit (within q raw) stack (word ++ s) = scan limit (within q' (raw ++ word)) stack s := by
  induction word generalizing q raw with
  | nil =>
      cases runs
      simp
  | cons b word ih =>
      obtain ⟨p, first, rest⟩ := Option.bind_eq_some_iff.mp runs
      rw [List.cons_append, scan_cons (moves q raw b p first), ih rest, List.append_assoc]
      rfl

/-- A closing quote is no byte of a string. -/
theorem next_plain_quote : InString.next .plain 34 = none := by decide

/-- A byte of a string, of a name or of a value, is read by the automaton of strings. -/
theorem step_quoted {within : InString → List UInt8 → Mode}
    (quoted : within = .inKey ∨ within = .inString) {l l' : InString} {b : UInt8}
    (next : l.next b = some l') (raw : List UInt8) :
    step limit (within l raw) stack b = .go (within l' (raw ++ [b])) stack := by
  have open_ : ¬ (l = .plain ∧ b = 34) := by
    rintro ⟨rfl, rfl⟩
    simp [next_plain_quote] at next
  rcases quoted with rfl | rfl <;> simp only [step, if_neg open_, next]

theorem step_inNumber {n n' : InNumber} {b : UInt8} (next : n.next b = some n')
    (text : List UInt8) :
    step limit (.inNumber n text) stack b = .go (.inNumber n' (text ++ [b])) stack := by
  simp only [step, next]

/-- A name is read up to the colon. -/
theorem scan_key {raw : List UInt8} (ok : IsString raw) (s : List UInt8) :
    scan limit (.inKey .plain []) stack (raw ++ 34 :: s) =
      scan limit (.colon (unquote raw)) stack s := by
  rw [scan_automaton (fun q raw b q' next => step_quoted (.inl rfl) next raw) ok, List.nil_append]
  apply scan_cons
  rfl

theorem scan_string {raw : List UInt8} (ok : IsString raw) (s : List UInt8) :
    scan limit (.inString .plain []) stack (raw ++ 34 :: s) =
      scan limit (.after (.string (unquote raw))) stack s := by
  rw [scan_automaton (fun q raw b q' next => step_quoted (.inr rfl) next raw) ok, List.nil_append]
  apply scan_cons
  rfl

/-- What can stand behind a value in an array or an object. -/
def Delimits (c : UInt8) : Prop := isSpace c = true ∨ c = 44 ∨ c = 93 ∨ c = 125

theorem isSpace_iff (b : UInt8) : isSpace b = true ↔ b = 32 ∨ b = 9 ∨ b = 10 ∨ b = 13 := by
  simp [isSpace, or_assoc]

/-- No number goes on with a delimiter. -/
theorem next_delimiter {c : UInt8} (delimits : Delimits c) (n : InNumber) : n.next c = none := by
  rw [Delimits, isSpace_iff] at delimits
  rcases delimits with (rfl | rfl | rfl | rfl) | rfl | rfl | rfl <;> cases n <;> decide

/-- A number begins with no byte that has a meaning of its own. -/
theorem first_digit {b : UInt8} {n : InNumber} (first : InNumber.first b = some n) :
    isSpace b = false ∧ ∀ c ∈ [123, 91, 34, 110, 116, 102, 93, 125], b ≠ c := by
  have range : b = 45 ∨ isDigit b = true := by
    by_contra other
    obtain ⟨minus, digit⟩ := not_or.mp other
    have zero : b ≠ 48 := by
      rintro rfl
      exact digit (by decide)
    simp [InNumber.first, minus, digit, zero] at first
  constructor
  · rw [Bool.eq_false_iff, ne_eq, isSpace_iff]
    rintro (rfl | rfl | rfl | rfl) <;> revert range <;> decide
  · have table : List.all [123, 91, 34, 110, 116, 102, 93, 125]
        (fun c => !(c == 45 || isDigit c)) = true := by decide
    rintro c member rfl
    have apart := List.all_eq_true.mp table b member
    simp_all

theorem scan_number {t : List UInt8} (ok : IsNumber t) {c : UInt8} (delimits : Delimits c)
    (s : List UInt8) :
    scan limit .value stack (t ++ c :: s) = scan limit (.after (.number t)) stack (c :: s) := by
  obtain ⟨n, reached, complete⟩ := ok
  cases t with
  | nil => cases reached
  | cons b t =>
      obtain ⟨n₀, first, rest⟩ := Option.bind_eq_some_iff.mp reached
      have begins : step limit .value stack b = .go (.inNumber n₀ [b]) stack := by
        obtain ⟨space, other⟩ := first_digit first
        simp only [List.forall_mem_cons] at other
        simp [beginValue, space, other, first]
      rw [List.cons_append, scan_cons begins,
        scan_automaton (fun q raw b q' next => step_inNumber next raw) rest]
      have ends : step limit (.inNumber n ([b] ++ t)) stack c =
          step limit (.after (.number (b :: t))) stack c := by
        simp only [step, next_delimiter delimits n, complete, if_true]
        rfl
      simp only [scan, ends]

/-- What a value begins with. -/
theorem Reads.head {d : ℕ} {v : Value} {t : List UInt8} (reads : Reads d (.value v) t) :
    ∃ b s, t = b :: s ∧ isSpace b = false ∧ b ≠ 93 := by
  cases reads with
  | null => exact ⟨_, _, rfl, by decide, by decide⟩
  | isTrue => exact ⟨_, _, rfl, by decide, by decide⟩
  | isFalse => exact ⟨_, _, rfl, by decide, by decide⟩
  | number d ok =>
      obtain ⟨n, reached, -⟩ := ok
      cases t with
      | nil => cases reached
      | cons b t =>
          obtain ⟨n₀, first, -⟩ := Option.bind_eq_some_iff.mp reached
          obtain ⟨space, other⟩ := first_digit first
          exact ⟨b, t, rfl, space, other 93 (by decide)⟩
  | string => exact ⟨_, _, rfl, by decide, by decide⟩
  | emptyArray => exact ⟨_, _, rfl, by decide, by decide⟩
  | array => exact ⟨_, _, rfl, by decide, by decide⟩
  | emptyObject => exact ⟨_, _, rfl, by decide, by decide⟩
  | object => exact ⟨_, _, rfl, by decide, by decide⟩

/-- What the items of an array, or the members of an object, begin with. -/
theorem Reads.front {d : ℕ} {part : Part} {t : List UInt8} (reads : Reads d part t) :
    match part with
    | .value _ => True
    | .items _ => ∃ k b s, t = k ++ b :: s ∧ Blank k ∧ isSpace b = false ∧ b ≠ 93
    | .members _ => ∃ k s, t = k ++ 34 :: s ∧ Blank k := by
  induction reads with
  | item before value behind =>
      obtain ⟨b, s, rfl, space, other⟩ := value.head
      exact ⟨_, b, _, rfl, before, space, other⟩
  | items first before value behind ih =>
      obtain ⟨k, b, s, rfl, blank, space, other⟩ := ih
      exact ⟨k, b, _, by rw [List.append_assoc]; rfl, blank, space, other⟩
  | member before key between gap value behind => exact ⟨_, _, rfl, before⟩
  | members first before key between gap value behind ih =>
      obtain ⟨k, s, rfl, blank⟩ := ih
      exact ⟨k, _, by rw [List.append_assoc]; rfl, blank⟩
  | _ => trivial

/-- Behind the opening bracket, items are read as behind a comma. -/
theorem scan_firstItem {d : ℕ} {vs : List Value} {t : List UInt8} (reads : Reads d (.items vs) t)
    (s : List UInt8) :
    scan limit .firstItem stack (t ++ s) = scan limit .value stack (t ++ s) := by
  obtain ⟨k, b, t, rfl, blank, space, other⟩ := reads.front
  rw [List.append_assoc, scan_blank (by intro b space; simp [space]) blank,
    scan_blank (by intro b space; simp [space]) blank]
  have same : step limit .firstItem stack b = step limit .value stack b := by
    simp [space, other]
  simp only [List.cons_append, scan, same]

theorem scan_firstKey {d : ℕ} {ms : List (List UInt8 × Value)} {t : List UInt8}
    (reads : Reads d (.members ms) t) (s : List UInt8) :
    scan limit .firstKey stack (t ++ s) = scan limit .key stack (t ++ s) := by
  obtain ⟨k, t, rfl, blank⟩ := reads.front
  rw [List.append_assoc, scan_blank (by intro b space; simp [space]) blank,
    scan_blank (by intro b space; simp [space]) blank]
  have same : step limit .firstKey stack 34 = step limit .key stack 34 := rfl
  simp only [List.cons_append, scan, same]

/-- How the reader comes through a part of a text, up to a delimiter. -/
def Passes (limit d : ℕ) : Part → List UInt8 → Prop
  | .value v, t => ∀ (stack : List Frame) c s, d + stack.length ≤ limit → Delimits c →
      scan limit .value stack (t ++ c :: s) = scan limit (.after v) stack (c :: s)
  | .items vs, t => ∃ vs' v, vs = vs' ++ [v] ∧
      ∀ (stack : List Frame) c s, d + stack.length < limit → Delimits c →
        scan limit .value (.items [] :: stack) (t ++ c :: s) =
          scan limit (.after v) (.items vs' :: stack) (c :: s)
  | .members ms, t => ∃ ms' key v, ms = ms' ++ [(key, v)] ∧
      ∀ (stack : List Frame) c s, d + stack.length < limit → Delimits c →
        scan limit .key (.members [] :: stack) (t ++ c :: s) =
          scan limit (.after v) (.member ms' key :: stack) (c :: s)

theorem isSpace_delimits {c : UInt8} (space : isSpace c = true) : Delimits c := Or.inl space

/-- A delimiter that is the first byte of what follows a value. -/
theorem blank_delimits {k : List UInt8} (blank : Blank k) {c : UInt8} (delimits : Delimits c)
    (s : List UInt8) : ∃ c' s', k ++ c :: s = c' :: s' ∧ Delimits c' := by
  cases k with
  | nil => exact ⟨c, s, rfl, delimits⟩
  | cons b k => exact ⟨b, _, rfl, isSpace_delimits (blank b List.mem_cons_self)⟩

/-- A value with white space around it, within an array or an object. -/
theorem Passes.padded {d : ℕ} {v : Value} {t : List UInt8} (passes : Passes limit d (.value v) t)
    {k k' : List UInt8} (before : Blank k) (behind : Blank k') {stack : List Frame}
    (room : d + stack.length ≤ limit)
    (pauses : ∀ b, isSpace b = true → step limit (.after v) stack b = .go (.after v) stack)
    {c : UInt8} (delimits : Delimits c) (s : List UInt8) :
    scan limit .value stack (k ++ (t ++ k') ++ c :: s) = scan limit (.after v) stack (c :: s) := by
  obtain ⟨c', s', next, delimits'⟩ := blank_delimits behind delimits s
  calc scan limit .value stack (k ++ (t ++ k') ++ c :: s)
      = scan limit .value stack (t ++ c' :: s') := by
        rw [List.append_assoc, List.append_assoc, next,
          scan_blank (by intro b space; simp [space]) before]
    _ = scan limit (.after v) stack (k' ++ c :: s) := by
        rw [passes stack c' s' room delimits', next]
    _ = scan limit (.after v) stack (c :: s) := scan_blank pauses behind _

/-- The end of an array or object, with more to come. -/
theorem scan_close {b : UInt8} {v : Value} {below : List Frame}
    (closes : step limit m stack b = close v below) (c : UInt8) (s : List UInt8) :
    scan limit m stack (b :: c :: s) = scan limit (.after v) below (c :: s) := by
  cases below with
  | nil =>
      have stops : step limit (.after v) [] c = .stop v := rfl
      simp only [scan, closes, close, stops]
  | cons frame below => exact scan_cons closes _

theorem pauses_items (vs : List Value) (v : Value) (b : UInt8) (space : isSpace b = true) :
    step limit (.after v) (.items vs :: stack) b = .go (.after v) (.items vs :: stack) := by
  simp [space]

theorem pauses_member (ms : List (List UInt8 × Value)) (key : List UInt8) (v : Value) (b : UInt8)
    (space : isSpace b = true) :
    step limit (.after v) (.member ms key :: stack) b = .go (.after v) (.member ms key :: stack) := by
  simp [space]

/-- A name, a colon and the value behind it. -/
theorem Passes.named {d : ℕ} {v : Value} {t : List UInt8} (passes : Passes limit d (.value v) t)
    {raw k k' b b' : List UInt8} (before : Blank k) (key : IsString raw) (between : Blank k')
    (gap : Blank b) (behind : Blank b') {ms : List (List UInt8 × Value)} {stack : List Frame}
    (room : d + stack.length < limit) {c : UInt8} (delimits : Delimits c) (s : List UInt8) :
    scan limit .key (.members ms :: stack)
        (k ++ 34 :: (raw ++ 34 :: (k' ++ 58 :: (b ++ (t ++ b')))) ++ c :: s) =
      scan limit (.after v) (.member ms (unquote raw) :: stack) (c :: s) := by
  have quoted : step limit .key (.members ms :: stack) 34 =
      .go (.inKey .plain []) (.members ms :: stack) := rfl
  have colon : step limit (.colon (unquote raw)) (.members ms :: stack) 58 =
      .go .value (.member ms (unquote raw) :: stack) := rfl
  simp only [List.append_assoc, List.cons_append]
  rw [scan_blank (by intro b space; simp [space]) before, scan_cons quoted, scan_key key,
    scan_blank (by intro b space; simp [space]) between, scan_cons colon]
  have room' : d + (Frame.member ms (unquote raw) :: stack).length ≤ limit := by
    simp only [List.length_cons]
    omega
  have value := passes.padded gap behind room' (pauses_member ms (unquote raw) v) delimits s
  simpa only [List.append_assoc] using value

/-- **What means a part is read as it.** -/
theorem Reads.passes {d : ℕ} {part : Part} {t : List UInt8} (reads : Reads d part t) :
    Passes limit d part t := by
  induction reads with
  | null d => exact fun stack c s _ _ => rfl
  | isTrue d => exact fun stack c s _ _ => rfl
  | isFalse d => exact fun stack c s _ _ => rfl
  | number d ok => exact fun stack c s _ delimits => scan_number ok delimits s
  | string d ok =>
      intro stack c s _ _
      rw [List.cons_append, List.append_assoc]
      exact scan_string ok (c :: s)
  | emptyArray d blank =>
      intro stack c s room _
      have inside : stack.length < limit := by omega
      rw [List.cons_append, scan_cons (step_opensArray inside), List.append_assoc,
        scan_blank (by intro b space; simp [space]) blank]
      exact scan_close rfl c s
  | @array d vs t items ih =>
      intro stack c s room delimits
      obtain ⟨vs', v, rfl, reads⟩ := ih
      have inside : stack.length < limit := by omega
      rw [List.cons_append, scan_cons (step_opensArray inside), List.append_assoc, scan_firstItem items,
        List.singleton_append, reads stack 93 (c :: s) (by omega) (by simp [Delimits])]
      exact scan_close rfl c s
  | emptyObject d blank =>
      intro stack c s room _
      have inside : stack.length < limit := by omega
      rw [List.cons_append, scan_cons (step_opensObject inside), List.append_assoc,
        scan_blank (by intro b space; simp [space]) blank]
      exact scan_close rfl c s
  | @object d ms t members ih =>
      intro stack c s room delimits
      obtain ⟨ms', key, v, rfl, reads⟩ := ih
      have inside : stack.length < limit := by omega
      rw [List.cons_append, scan_cons (step_opensObject inside), List.append_assoc, scan_firstKey members,
        List.singleton_append, reads stack 125 (c :: s) (by omega) (by simp [Delimits])]
      exact scan_close rfl c s
  | @item d v b t b' before value behind ih =>
      refine ⟨[], v, rfl, fun stack c s room delimits => ?_⟩
      exact ih.padded before behind (by simp only [List.length_cons]; omega) (pauses_items [] v)
        delimits s
  | @items d vs v s b t b' first before value behind ih ih' =>
      obtain ⟨vs', v', rfl, reads⟩ := ih
      refine ⟨vs' ++ [v'], v, rfl, fun stack c s room delimits => ?_⟩
      have comma : step limit (.after v') (.items vs' :: stack) 44 =
          .go .value (.items (vs' ++ [v']) :: stack) := rfl
      rw [List.append_assoc, List.cons_append, reads stack 44 _ room (by simp [Delimits]),
        scan_cons comma]
      exact ih'.padded before behind (by simp only [List.length_cons]; omega) (pauses_items _ v)
        delimits s
  | member before key between gap value behind ih =>
      refine ⟨[], _, _, rfl, fun stack c s room delimits => ?_⟩
      exact ih.named before key between gap behind room delimits s
  | @members d ms raw v s k k' b t b' first before key between gap value behind ih ih' =>
      obtain ⟨ms', key', v', rfl, reads⟩ := ih
      refine ⟨ms' ++ [(key', v')], _, _, rfl, fun stack c s room delimits => ?_⟩
      have comma : step limit (.after v') (.member ms' key' :: stack) 44 =
          .go .key (.members (ms' ++ [(key', v')]) :: stack) := rfl
      rw [List.append_assoc, List.cons_append, reads stack 44 _ room (by simp [Delimits]),
        scan_cons comma]
      exact ih'.named before key between gap behind room delimits s

/-- **An object at the beginning of a text is read**, whatever follows it. -/
theorem scan_object {d : ℕ} {ms : List (List UInt8 × Value)} {t : List UInt8}
    (reads : Reads d (.value (.object ms)) t) (room : d ≤ limit) {k : List UInt8} (before : Blank k)
    (s : List UInt8) : scan limit .value [] (k ++ (t ++ s)) = .value (.object ms) s := by
  rw [scan_blank (by intro b space; simp [space]) before]
  cases reads with
  | emptyObject d blank =>
      have inside : ([] : List Frame).length < limit := by
        simp only [List.length_nil]
        omega
      rw [List.cons_append, scan_cons (step_opensObject inside), List.append_assoc,
        scan_blank (by intro b space; simp [space]) blank]
      rfl
  | @object d _ t members =>
      have passes : Passes limit d (.members ms) t := members.passes
      obtain ⟨ms', key, v, rfl, reads⟩ := passes
      have inside : ([] : List Frame).length < limit := by
        simp only [List.length_nil]
        omega
      rw [List.cons_append, scan_cons (step_opensObject inside), List.append_assoc, scan_firstKey members,
        List.singleton_append, reads [] 125 s (by simp only [List.length_nil]; omega) (by simp [Delimits])]
      rfl

end Complete

/-! ## What is read is a text of the grammar -/

/-- The text up to where the innermost open array or object goes on. -/
inductive Opened (limit : ℕ) : List Frame → List UInt8 → Prop where
  | nil : Opened limit [] []
  | items {below : List Frame} {p k : List UInt8} (outer : Opened limit below p) (blank : Blank k)
      (room : below.length < limit) : Opened limit (.items [] :: below) (p ++ (k ++ [91]))
  | moreItems {below : List Frame} {p k t : List UInt8} {vs : List Value}
      (outer : Opened limit below p) (blank : Blank k) (room : below.length < limit)
      (reads : Reads (limit - below.length - 1) (.items vs) t) :
      Opened limit (.items vs :: below) (p ++ (k ++ 91 :: (t ++ [44])))
  | members {below : List Frame} {p k : List UInt8} (outer : Opened limit below p) (blank : Blank k)
      (room : below.length < limit) : Opened limit (.members [] :: below) (p ++ (k ++ [123]))
  | moreMembers {below : List Frame} {p k t : List UInt8} {ms : List (List UInt8 × Value)}
      (outer : Opened limit below p) (blank : Blank k) (room : below.length < limit)
      (reads : Reads (limit - below.length - 1) (.members ms) t) :
      Opened limit (.members ms :: below) (p ++ (k ++ 123 :: (t ++ [44])))
  | member {below : List Frame} {ms : List (List UInt8 × Value)} {p k raw k' : List UInt8}
      (object : Opened limit (.members ms :: below) p) (blank : Blank k) (key : IsString raw)
      (blank' : Blank k') :
      Opened limit (.member ms (unquote raw) :: below) (p ++ (k ++ 34 :: (raw ++ 34 :: (k' ++ [58]))))

/-- The texts that lead to a state of the reader. -/
def Covers (limit : ℕ) (m : Mode) (stack : List Frame) (s : List UInt8) : Prop :=
  ∃ p k, Opened limit stack p ∧ Blank k ∧
    match m with
    | .value | .key => s = p ++ k
    | .firstItem => s = p ++ k ∧ ∃ below, stack = .items [] :: below
    | .firstKey => s = p ++ k ∧ ∃ below, stack = .members [] :: below
    | .inKey l raw => s = p ++ (k ++ 34 :: raw) ∧ automaton InString.next .plain raw = some l
    | .colon key => ∃ raw k', s = p ++ (k ++ 34 :: (raw ++ 34 :: k')) ∧ IsString raw ∧ Blank k' ∧
        key = unquote raw
    | .inString l raw => s = p ++ (k ++ 34 :: raw) ∧ automaton InString.next .plain raw = some l
    | .inNumber n text => s = p ++ (k ++ text) ∧ NumberTo n text
    | .literal read left v => s = p ++ (k ++ read) ∧ ∀ d, Reads d (.value v) (read ++ left)
    | .after v => ∃ t k', s = p ++ (k ++ (t ++ k')) ∧
        Reads (limit - stack.length) (.value v) t ∧ Blank k'

/-- What one byte behind the text `s` leads to is right. -/
def Lands (limit : ℕ) (s : List UInt8) (b : UInt8) : Step → Prop
  | .go m stack => Covers limit m stack (s ++ [b])
  | .done v => ∃ k t, s ++ [b] = k ++ t ∧ Blank k ∧ Reads limit (.value v) t
  | .stop v => ∃ k t k', s = k ++ (t ++ k') ∧ Blank k ∧ Reads limit (.value v) t ∧ Blank k'
  | .bad => True

section Sound

variable {limit : ℕ} {stack below : List Frame} {m : Mode} {s p k : List UInt8} {b : UInt8} {v : Value}

theorem Blank.concat (blank : Blank k) (space : isSpace b = true) : Blank (k ++ [b]) := by
  intro c member
  rcases List.mem_append.mp member with old | new
  · exact blank c old
  · rw [List.mem_singleton.mp new]
    exact space

theorem automaton_concat {σ : Type} {next : σ → UInt8 → Option σ} {q r r' : σ} {w : List UInt8}
    (runs : automaton next q w = some r) (last : next r b = some r') :
    automaton next q (w ++ [b]) = some r' := by
  induction w generalizing q with
  | nil =>
      cases runs
      simp [automaton, last]
  | cons c w ih =>
      obtain ⟨q', first, rest⟩ := Option.bind_eq_some_iff.mp runs
      simp only [List.cons_append, automaton, first, Option.bind_some]
      exact ih rest

theorem NumberTo.concat {n n' : InNumber} {t : List UInt8} (reached : NumberTo n t)
    (last : n.next b = some n') : NumberTo n' (t ++ [b]) := by
  cases t with
  | nil => cases reached
  | cons c t =>
      obtain ⟨n₀, first, rest⟩ := Option.bind_eq_some_iff.mp reached
      exact Option.bind_eq_some_iff.mpr ⟨n₀, first, automaton_concat rest last⟩

theorem Reads.ne_nil {d : ℕ} {part : Part} {t : List UInt8} (reads : Reads d part t) :
    part ≠ .items [] ∧ part ≠ .members [] := by
  cases reads <;> simp

/-- The text within the brackets of an array so far, with one more value. -/
theorem Opened.items_text {vs : List Value} (opened : Opened limit (.items vs :: below) p) {t k' : List UInt8}
    (blank : Blank k) (reads : Reads (limit - (below.length + 1)) (.value v) t) (blank' : Blank k') :
    ∃ p' j t', p ++ (k ++ (t ++ k')) = p' ++ (j ++ 91 :: t') ∧ Opened limit below p' ∧ Blank j ∧
      below.length < limit ∧ Reads (limit - below.length - 1) (.items (vs ++ [v])) t' := by
  rw [← Nat.sub_sub] at reads
  cases opened with
  | @items _ p' j outer before room =>
      exact ⟨p', j, _, by simp, outer, before, room, .item blank reads blank'⟩
  | @moreItems _ p' j t' _ outer before room first =>
      exact ⟨p', j, _, by simp, outer, before, room, .items first blank reads blank'⟩

/-- The text within the braces of an object so far, with one more member. -/
theorem Opened.members_text {ms : List (List UInt8 × Value)} {key : List UInt8}
    (opened : Opened limit (.member ms key :: below) p) {t k' : List UInt8}
    (blank : Blank k) (reads : Reads (limit - (below.length + 1)) (.value v) t) (blank' : Blank k') :
    ∃ p' j t', p ++ (k ++ (t ++ k')) = p' ++ (j ++ 123 :: t') ∧ Opened limit below p' ∧ Blank j ∧
      below.length < limit ∧ Reads (limit - below.length - 1) (.members (ms ++ [(key, v)])) t' := by
  rw [← Nat.sub_sub] at reads
  cases opened with
  | @member _ _ q c raw c' object before name between =>
      cases object with
      | @members _ p' j outer early room =>
          exact ⟨p', j, _, by simp, outer, early, room,
            .member before name between blank reads blank'⟩
      | @moreMembers _ p' j t' _ outer early room first =>
          exact ⟨p', j, _, by simp, outer, early, room,
            .members first before name between blank reads blank'⟩

/-- An array or object ends. -/
theorem lands_close {t : List UInt8} (opened : Opened limit below p) (blank : Blank k)
    (reads : Reads (limit - below.length) (.value v) t) (text : s ++ [b] = p ++ (k ++ t)) :
    Lands limit s b (close v below) := by
  cases below with
  | nil =>
      cases opened
      exact ⟨k, t, text, blank, reads⟩
  | cons frame below =>
      exact ⟨p, k, opened, blank, t, [], by rw [text, List.append_nil], reads, blank_nil⟩

/-- A byte behind a complete value. -/
theorem lands_endValue {t k' : List UInt8} (opened : Opened limit stack p) (blank : Blank k)
    (reads : Reads (limit - stack.length) (.value v) t) (blank' : Blank k')
    (text : s = p ++ (k ++ (t ++ k'))) : Lands limit s b (endValue v stack b) := by
  have paused : isSpace b = true → Lands limit s b (.go (.after v) stack) := fun space =>
    ⟨p, k, opened, blank, t, k' ++ [b], by simp [text], reads, blank'.concat space⟩
  cases stack with
  | nil =>
      cases opened
      exact ⟨k, t, k', text, blank, reads, blank'⟩
  | cons frame below =>
      cases frame with
      | items vs =>
          obtain ⟨p', j, t', same, outer, before, room, items⟩ :=
            opened.items_text blank reads blank'
          have nested : limit - below.length = limit - below.length - 1 + 1 := by omega
          simp only [endValue]
          split_ifs with space comma closed
          · exact paused space
          · subst comma
            exact ⟨_, [], .moreItems outer before room items, blank_nil, by simp [text, same]⟩
          · subst closed
            refine lands_close outer before (t := 91 :: (t' ++ [93])) ?_ (by simp [text, same])
            rw [nested]
            exact .array items
          · trivial
      | member ms key =>
          obtain ⟨p', j, t', same, outer, before, room, members⟩ :=
            opened.members_text blank reads blank'
          have nested : limit - below.length = limit - below.length - 1 + 1 := by omega
          simp only [endValue]
          split_ifs with space comma closed
          · exact paused space
          · subst comma
            exact ⟨_, [], .moreMembers outer before room members, blank_nil,
              by simp [text, same]⟩
          · subst closed
            refine lands_close outer before (t := 123 :: (t' ++ [125])) ?_ (by simp [text, same])
            rw [nested]
            exact .object members
          · trivial
      | members ms => trivial

/-- The first byte of a value. -/
theorem lands_beginValue (opened : Opened limit stack p) (blank : Blank k) (text : s = p ++ k) :
    Lands limit s b (beginValue limit stack b) := by
  unfold beginValue
  split_ifs with object room array room quoted isNull isTrue isFalse
  · subst object
    exact ⟨_, [], .members opened blank room, blank_nil, by simp [text], stack, rfl⟩
  · trivial
  · subst array
    exact ⟨_, [], .items opened blank room, blank_nil, by simp [text], stack, rfl⟩
  · trivial
  · subst quoted
    exact ⟨p, k, opened, blank, by simp [text], rfl⟩
  · subst isNull
    exact ⟨p, k, opened, blank, by simp [text], .null⟩
  · subst isTrue
    exact ⟨p, k, opened, blank, by simp [text], .isTrue⟩
  · subst isFalse
    exact ⟨p, k, opened, blank, by simp [text], .isFalse⟩
  · split
    · rename_i n first
      exact ⟨p, k, opened, blank, by simp [text], by simp [NumberTo, first, automaton]⟩
    · trivial

/-- **One byte leads from a state that covers a text to one that covers it with the byte.** -/
theorem Covers.lands (covers : Covers limit m stack s) : Lands limit s b (step limit m stack b) := by
  obtain ⟨p, k, opened, blank, rest⟩ := covers
  cases m with
  | value =>
      simp only [step]
      split_ifs with space
      · exact ⟨p, k ++ [b], opened, blank.concat space, by simp [rest]⟩
      · exact lands_beginValue opened blank rest
  | firstItem =>
      obtain ⟨text, below, rfl⟩ := rest
      simp only [step, List.tail_cons]
      split_ifs with space closed
      · exact ⟨p, k ++ [b], opened, blank.concat space, by simp [text], below, rfl⟩
      · subst closed
        cases opened with
        | @items _ p' j outer before room =>
            have nested : limit - below.length = limit - below.length - 1 + 1 := by omega
            refine lands_close outer before (t := 91 :: (k ++ [93])) ?_ (by simp [text])
            rw [nested]
            exact .emptyArray _ blank
        | moreItems outer before room reads => exact absurd rfl reads.ne_nil.1
      · exact lands_beginValue opened blank text
  | firstKey =>
      obtain ⟨text, below, rfl⟩ := rest
      simp only [step, List.tail_cons]
      split_ifs with space closed quoted
      · exact ⟨p, k ++ [b], opened, blank.concat space, by simp [text], below, rfl⟩
      · subst closed
        cases opened with
        | @members _ p' j outer before room =>
            have nested : limit - below.length = limit - below.length - 1 + 1 := by omega
            refine lands_close outer before (t := 123 :: (k ++ [125])) ?_ (by simp [text])
            rw [nested]
            exact .emptyObject _ blank
        | moreMembers outer before room reads => exact absurd rfl reads.ne_nil.2
      · subst quoted
        exact ⟨p, k, opened, blank, by simp [text], rfl⟩
      · trivial
  | key =>
      simp only [step]
      split_ifs with space quoted
      · exact ⟨p, k ++ [b], opened, blank.concat space, by simp [rest]⟩
      · subst quoted
        exact ⟨p, k, opened, blank, by simp [rest], rfl⟩
      · trivial
  | inKey l raw =>
      obtain ⟨text, runs⟩ := rest
      simp only [step]
      split_ifs with closed
      · obtain ⟨rfl, rfl⟩ := closed
        exact ⟨p, k, opened, blank, raw, [], by simp [text], runs, blank_nil, rfl⟩
      · split
        · rename_i l' next
          exact ⟨p, k, opened, blank, by simp [text], automaton_concat runs next⟩
        · trivial
  | colon key =>
      obtain ⟨raw, k', text, name, between, rfl⟩ := rest
      by_cases space : isSpace b = true
      · simp only [step, if_pos space]
        exact ⟨p, k, opened, blank, raw, k' ++ [b], by simp [text], name, between.concat space, rfl⟩
      · simp only [step, if_neg space]
        split
        · split_ifs with colon
          · subst colon
            exact ⟨_, [], .member opened blank name between, blank_nil, by simp [text]⟩
          · trivial
        · trivial
  | inString l raw =>
      obtain ⟨text, runs⟩ := rest
      simp only [step]
      split_ifs with closed
      · obtain ⟨rfl, rfl⟩ := closed
        exact ⟨p, k, opened, blank, _, [], by simp [text], .string _ runs, blank_nil⟩
      · split
        · rename_i l' next
          exact ⟨p, k, opened, blank, by simp [text], automaton_concat runs next⟩
        · trivial
  | inNumber n t =>
      obtain ⟨text, reached⟩ := rest
      simp only [step]
      split
      · rename_i n' next
        exact ⟨p, k, opened, blank, by simp [text], reached.concat next⟩
      · split_ifs with complete
        · exact lands_endValue opened blank (.number _ ⟨n, reached, complete⟩) blank_nil
            (by simp [text])
        · trivial
  | literal read left v =>
      obtain ⟨text, reads⟩ := rest
      cases left with
      | nil => trivial
      | cons c left =>
          simp only [step]
          split_ifs with same last
          · subst same last
            exact ⟨p, k, opened, blank, read ++ [b], [], by simp [text], reads _, blank_nil⟩
          · subst same
            exact ⟨p, k, opened, blank, by simp [text], by simpa using reads⟩
          · trivial
  | after v =>
      obtain ⟨t, k', text, reads, blank'⟩ := rest
      exact lands_endValue opened blank reads blank' text

/-- Reading on from a state that covers what was read. -/
theorem Covers.scan {rest : List UInt8} (covers : Covers limit m stack s) {t : List UInt8}
    (read : scan limit m stack t = .value v rest) :
    ∃ k u k', s ++ t = k ++ (u ++ (k' ++ rest)) ∧ Blank k ∧ Reads limit (.value v) u ∧ Blank k' := by
  induction t generalizing m stack s with
  | nil => cases read
  | cons b t ih =>
      have lands := covers.lands (b := b)
      simp only [JsonText.scan] at read
      split at read
      · rename_i m' stack' goes
        rw [goes] at lands
        simpa using ih lands read
      · rename_i v' ends
        rw [ends] at lands
        cases read
        obtain ⟨k, u, text, blank, reads⟩ := lands
        refine ⟨k, u, [], ?_, blank, reads, blank_nil⟩
        rw [← List.singleton_append, ← List.append_assoc, text]
        simp
      · rename_i v' ends
        rw [ends] at lands
        cases read
        obtain ⟨k, u, k', text, blank, reads, blank'⟩ := lands
        exact ⟨k, u, k', by simp [text], blank, reads, blank'⟩
      · cases read

/-- A text that ends early leads to a state that covers it. -/
theorem Covers.more {t : List UInt8} {m' : Mode} {stack' : List Frame}
    (covers : Covers limit m stack s) (ended : JsonText.scan limit m stack t = .more m' stack') :
    Covers limit m' stack' (s ++ t) := by
  induction t generalizing m stack s with
  | nil =>
      cases ended
      simpa using covers
  | cons b t ih =>
      have lands := covers.lands (b := b)
      simp only [JsonText.scan] at ended
      split at ended
      · rename_i m₁ stack₁ goes
        rw [goes] at lands
        simpa using ih lands ended
      · cases ended
      · cases ended
      · cases ended

theorem covers_nil : Covers limit .value [] [] := ⟨[], [], .nil, blank_nil, rfl⟩

/-- **What is read was written**: a value comes from a text that means it, with white space
around it. -/
theorem scan_sound {rest : List UInt8} (read : scan limit .value [] s = .value v rest) :
    ∃ k t k', s = k ++ (t ++ (k' ++ rest)) ∧ Blank k ∧ Reads limit (.value v) t ∧ Blank k' :=
  covers_nil.scan read

/-- A value that is complete at the end of a text. -/
theorem finish_sound {m : Mode} {stack : List Frame} (ended : scan limit .value [] s = .more m stack)
    (complete : finish m stack = some v) :
    ∃ k t k', s = k ++ (t ++ k') ∧ Blank k ∧ Reads limit (.value v) t ∧ Blank k' := by
  obtain ⟨p, k, opened, blank, rest⟩ := covers_nil.more ended
  unfold finish at complete
  split at complete
  · cases complete
    cases opened
    obtain ⟨t, k', text, reads, blank'⟩ := rest
    exact ⟨k, t, k', text, blank, reads, blank'⟩
  · rename_i n t
    split_ifs at complete with whole
    cases complete
    cases opened
    obtain ⟨text, reached⟩ := rest
    exact ⟨k, t, [], by simpa using text, blank, .number _ ⟨n, reached, whole⟩, blank_nil⟩
  · cases complete

/-- No value has begun exactly if there is only white space. -/
theorem scan_blank_iff : scan limit .value [] s = .more .value [] ↔ Blank s := by
  constructor
  · intro ended
    obtain ⟨p, k, opened, blank, text⟩ := covers_nil.more ended
    cases opened
    rw [List.nil_append, List.nil_append] at text
    rwa [text]
  · intro blank
    have passed : scan limit .value [] (s ++ []) = .more .value [] :=
      scan_blank (by intro b space; simp [space]) blank []
    rwa [List.append_nil] at passed

end Sound

end SentryGate.Theory.JsonText
