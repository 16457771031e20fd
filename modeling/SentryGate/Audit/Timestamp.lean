/-
# Audit.Timestamp -- how the store writes times and reasons, and how times compare

`formatTime` and `parseTime` of `internal/audit/sqlite.go`: RFC 3339 in UTC, with the
fraction of a second written without the zeros at its end.  A time of the years 0 to 9999
is read back (`parseTime_formatTime`), and no other is (`parseTime_outside`).

SQLite compares the texts byte by byte.  Whole seconds are written with a fixed width and
compare as the instants do (`secondText_lt`), and so do fractions that part ways
(`formatTime_lt`).  Where the digits of the earlier fraction begin those of the later
(`Begins`), the later text comes first (`formatTime_gt`): what follows the shorter one, `Z`,
comes after any digit and after the point.

With the JSON of a decision's reasons these are the encodings of the store (`goCodec`); a
record is read back as it was written exactly if its time is of those years and its reasons
are UTF-8 (`scanDecision_eq_iff`).
-/
import SentryGate.Theory.Calendar
import SentryGate.Theory.Decimal
import SentryGate.Theory.Json
import SentryGate.Audit.Sqlite

namespace SentryGate.Audit

open Theory Theory.Text Theory.Calendar Theory.Decimal Contracts

set_option autoImplicit false

/-! ## What is to be kept -/

/-- The bytes of a sequence of Unicode characters. -/
def Utf8 (s : GoString) : Prop := ∃ chars : List Char, s = chars.flatMap String.utf8EncodeChar

theorem utf8_ascii {text : String} (plain : text.toList.all (·.toNat < 128) = true) :
    Utf8 (ascii text) := by
  refine ⟨text.toList, ?_⟩
  unfold ascii
  rw [List.map_eq_flatMap]
  refine List.flatMap_congr fun c member => ?_
  have low : c.toNat < 128 := by simpa using List.all_eq_true.mp plain c member
  have code : c.toNat = c.val.toNat := rfl
  unfold String.utf8EncodeChar
  dsimp only
  rw [if_pos (by omega)]
  rfl

/-- An instant of the years 0 to 9999: year 0 begins 366 days before 0001-01-01, year
10000 begins 3652059 days after it. -/
def InYears (t : Time) : Prop :=
  -(366 * 86400 * 10 ^ 9) ≤ t.ns ∧ t.ns < 3652059 * 86400 * 10 ^ 9

instance (t : Time) : Decidable (InYears t) := inferInstanceAs (Decidable (_ ∧ _))

/-- The round trips Go documents. -/
structure Codec.Lawful (codec : Codec) : Prop where
  time : ∀ t, InYears t → codec.parseTime (codec.formatTime t) = some t
  reasons : ∀ rs : List GoString, (∀ r ∈ rs, Utf8 r) →
    codec.unmarshal (codec.marshal rs) = .ok rs

/-! ## Writing -/

/-- Whole seconds since 0000-01-01T00:00:00Z, which is 366 days before Go's zero time. -/
def seconds (t : Time) : ℤ := t.ns / 10 ^ 9 + 366 * 86400

def nanosecond (t : Time) : ℕ := (t.ns % 10 ^ 9).toNat

/-- A year, with four digits at least. -/
def yearText (y : ℤ) : GoString :=
  (if y < 0 then ascii "-" else []) ++ pad (max 4 (Nat.toDigits 10 y.natAbs).length) y.natAbs

/-- `2006-01-02`. -/
def dateText (date : Date) : GoString :=
  yearText date.year ++ ascii "-" ++ pad 2 date.month ++ ascii "-" ++ pad 2 date.day

/-- `15:04:05`, of the seconds since midnight. -/
def clockText (clock : ℕ) : GoString :=
  pad 2 (clock / 3600) ++ ascii ":" ++ pad 2 (clock / 60 % 60) ++ ascii ":" ++ pad 2 (clock % 60)

/-- `2006-01-02T15:04:05`. -/
def secondText (s : ℤ) : GoString :=
  dateText (dateOf (s / 86400)) ++ ascii "T" ++ clockText (s % 86400).toNat

/-- `.999999999`: nothing, or the point and the digits up to the last that is not zero. -/
def fractionText (n : ℕ) : GoString :=
  if trimmed 9 n = [] then [] else ascii "." ++ trimmed 9 n

/-- `formatTime`. -/
def formatTime (t : Time) : GoString :=
  secondText (seconds t) ++ (fractionText (nanosecond t) ++ ascii "Z")

example : formatTime ⟨0⟩ = ascii "0001-01-01T00:00:00Z" := by decide +kernel

example : formatTime ⟨63850161605120000000⟩ = ascii "2024-05-01T12:00:05.12Z" := by decide +kernel

/-! ## Reading -/

/-- `w` bytes of a text from place `i` on, as a number. -/
def field (s : GoString) (i w : ℕ) : Option ℕ := number ((s.drop i).take w)

/-- The fraction behind the seconds, in nanoseconds, up to the `Z`. -/
def parseFraction : GoString → Option ℕ
  | [90] => some 0
  | 46 :: rest =>
      let digits := rest.dropLast
      if rest.getLast? = some 90 ∧ 0 < digits.length ∧ digits.length ≤ 9 then
        (number digits).map (· * 10 ^ (9 - digits.length))
      else none
  | _ => none

/-- `parseTime`, of the texts `formatTime` writes: in UTC, with every field in its place. -/
def parseTime (s : GoString) : Option Time := do
  let year ← field s 0 4
  let month ← field s 5 2
  let day ← field s 8 2
  let hour ← field s 11 2
  let minute ← field s 14 2
  let second ← field s 17 2
  let fraction ← parseFraction (s.drop 19)
  if s[4]? = some 45 ∧ s[7]? = some 45 ∧ s[10]? = some 84 ∧ s[13]? = some 58 ∧ s[16]? = some 58 ∧
      1 ≤ month ∧ month ≤ 12 ∧ 1 ≤ day ∧
      day ≤ (monthLengths (isLeap year)).getD (month - 1) 0 ∧ hour < 24 ∧ minute < 60 ∧ second < 60
  then
    let days := dayNumber { year, month, day }
    some ⟨((days - 366) * 86400 + (hour * 3600 + minute * 60 + second)) * 10 ^ 9 + fraction⟩
  else none

example : parseTime (ascii "2024-05-01T12:00:05.12Z") = some ⟨63850161605120000000⟩ := by
  decide +kernel

/-! ## The years 0 to 9999 -/

theorem inYears_iff (t : Time) : InYears t ↔ 0 ≤ seconds t ∧ seconds t < 3652425 * 86400 := by
  unfold InYears seconds
  omega

/-- The year of the date has four digits exactly within those years. -/
theorem inYears_iff_year (t : Time) :
    InYears t ↔ 0 ≤ (dateOf (seconds t / 86400)).year ∧ (dateOf (seconds t / 86400)).year < 10000 := by
  obtain ⟨lower, upper⟩ := dateOf_year (seconds t / 86400)
  rw [inYears_iff]
  unfold cycleDays at lower upper
  omega

/-- A year of four digits is written with four. -/
theorem yearText_of_lt {y : ℤ} (lower : 0 ≤ y) (upper : y < 10000) :
    yearText y = pad 4 y.natAbs := by
  have short : (Nat.toDigits 10 y.natAbs).length ≤ 4 :=
    (Nat.length_toDigits_le_iff (by decide) (by decide)).mpr (by omega)
  unfold yearText
  rw [if_neg (by omega), List.nil_append, max_eq_left short]

/-- A text of the store begins with a year in four bytes and a dash, if it is read. -/
theorem parseTime_year {s : GoString} {t : Time} (read : parseTime s = some t) :
    (∃ year, field s 0 4 = some year) ∧ s[4]? = some 45 := by
  unfold parseTime at read
  simp only [Option.bind_eq_bind, Option.bind_eq_some_iff] at read
  obtain ⟨year, first, _, -, _, -, _, -, _, -, _, -, _, -, checked⟩ := read
  refine ⟨⟨year, first⟩, ?_⟩
  split at checked
  · rename_i passed
    exact passed.1
  · cases checked

/-- **A time outside these years is not read back.** -/
theorem parseTime_outside {t : Time} (outside : ¬ InYears t) : parseTime (formatTime t) = none := by
  rw [inYears_iff_year] at outside
  by_contra some_read
  obtain ⟨u, read⟩ := Option.ne_none_iff_exists'.mp some_read
  obtain ⟨⟨year, first⟩, dash⟩ := parseTime_year read
  unfold formatTime secondText dateText yearText at first dash
  generalize dateOf (seconds t / 86400) = date at first dash outside
  by_cases negative : date.year < 0
  · -- the sign is no digit
    rw [if_pos negative, show ascii "-" = [45] from by decide] at first
    simp [field, number] at first
  · -- the fifth digit is no dash
    rw [if_neg negative] at dash
    have long : ¬ (Nat.toDigits 10 date.year.natAbs).length ≤ 4 := by
      rw [Nat.length_toDigits_le_iff (by decide) (by decide)]
      omega
    have there : 4 < (pad (max 4 (Nat.toDigits 10 date.year.natAbs).length) date.year.natAbs).length := by
      rw [length_pad]
      omega
    simp only [List.nil_append, List.append_assoc] at dash
    rw [List.getElem?_append_left there] at dash
    obtain ⟨k, small, digit⟩ := pad_digits _ (List.mem_of_getElem? dash)
    have code := digit_toNat small
    rw [← digit] at code
    exact absurd code (by simp; omega)

/-! ## Round trip -/

theorem parseFraction_point {digits : GoString} (some_digit : digits ≠ []) (few : digits.length ≤ 9) :
    parseFraction (46 :: (digits ++ [90])) =
      (number digits).map (· * 10 ^ (9 - digits.length)) := by
  have nonempty := List.length_pos_of_ne_nil some_digit
  simp [parseFraction, nonempty, few]

theorem parseFraction_fractionText {n : ℕ} (small : n < 10 ^ 9) :
    parseFraction (fractionText n ++ ascii "Z") = some n := by
  obtain ⟨v, read, scaled⟩ := number_trimmed small
  obtain ⟨k, length, -⟩ := trimmed_zeros 9 n
  rw [show ascii "Z" = [90] from by decide]
  unfold fractionText
  generalize trimmed 9 n = digits at *
  by_cases whole : digits = []
  · subst whole
    cases read
    rw [if_pos rfl, ← scaled, Nat.zero_mul]
    rfl
  · rw [if_neg whole, show ascii "." = [46] from by decide, List.append_assoc]
    refine (parseFraction_point whole (by omega)).trans ?_
    rw [read, Option.map_some, scaled]

/-- Where the parts of a text are found, the first of four bytes, the others of two. -/
theorem layout_fields (year month day hour minute second rest : GoString) (four : year.length = 4)
    (two : ∀ part ∈ [month, day, hour, minute, second], part.length = 2) :
    let s := year ++ [45] ++ month ++ [45] ++ day ++ [84] ++
      (hour ++ [58] ++ minute ++ [58] ++ second) ++ rest
    (field s 0 4 = number year ∧ field s 5 2 = number month ∧ field s 8 2 = number day ∧
      field s 11 2 = number hour ∧ field s 14 2 = number minute ∧ field s 17 2 = number second ∧
      s.drop 19 = rest) ∧
    s[4]? = some 45 ∧ s[7]? = some 45 ∧ s[10]? = some 84 ∧ s[13]? = some 58 ∧ s[16]? = some 58 := by
  simp only [List.forall_mem_cons, List.length_eq_two] at two
  obtain ⟨⟨m, m', rfl⟩, ⟨d, d', rfl⟩, ⟨h, h', rfl⟩, ⟨i, i', rfl⟩, ⟨s, s', rfl⟩, -⟩ := two
  obtain ⟨a, b, c, e, rfl⟩ : ∃ a b c e, year = [a, b, c, e] := by
    match year, four with
    | [a, b, c, e], _ => exact ⟨a, b, c, e, rfl⟩
  exact ⟨⟨rfl, rfl, rfl, rfl, rfl, rfl, rfl⟩, rfl, rfl, rfl, rfl, rfl⟩

/-- A text with valid fields is read as the instant they name. -/
theorem parseTime_layout {year month day hour minute second n : ℕ} (years : year < 10 ^ 4)
    (valid : 1 ≤ month ∧ month ≤ 12 ∧ 1 ≤ day ∧
      day ≤ (monthLengths (isLeap year)).getD (month - 1) 0)
    (hours : hour < 24) (minutes : minute < 60) (seconds : second < 60) (small : n < 10 ^ 9) :
    parseTime (pad 4 year ++ [45] ++ pad 2 month ++ [45] ++ pad 2 day ++ [84] ++
        (pad 2 hour ++ [58] ++ pad 2 minute ++ [58] ++ pad 2 second) ++
        (fractionText n ++ ascii "Z")) =
      some ⟨((dayNumber { year, month, day } - 366) * 86400 +
        (hour * 3600 + minute * 60 + second)) * 10 ^ 9 + n⟩ := by
  obtain ⟨first, last, start, length⟩ := valid
  have days : day ≤ 31 := length.trans (monthLengths_le _ (by omega))
  have pair : ∀ {k : ℕ}, k < 100 → number (pad 2 k) = some k := fun small =>
    number_pad (w := 2) small
  obtain ⟨⟨yearField, monthField, dayField, hourField, minuteField, secondField, rest⟩, dash, dash',
      mark, colon, colon'⟩ :=
    layout_fields (pad 4 year) (pad 2 month) (pad 2 day) (pad 2 hour) (pad 2 minute) (pad 2 second)
      (fractionText n ++ ascii "Z") (length_pad 4 year) (by simp [length_pad])
  unfold parseTime
  rw [yearField, monthField, dayField, hourField, minuteField, secondField, rest,
    parseFraction_fractionText small, number_pad years, pair (by omega : month < 100),
    pair (by omega : day < 100), pair (by omega : hour < 100), pair (by omega : minute < 100),
    pair (by omega : second < 100)]
  simp only [Option.bind_eq_bind, Option.bind_some]
  rw [if_pos ⟨dash, dash', mark, colon, colon', first, last, start, length, hours, minutes, seconds⟩]

/-- **A time of these years is read back.** -/
theorem parseTime_formatTime {t : Time} (inside : InYears t) : parseTime (formatTime t) = some t := by
  obtain ⟨lower, upper⟩ := (inYears_iff_year t).mp inside
  obtain ⟨first, last, start, length⟩ := dateOf_valid (seconds t / 86400)
  have back := dayNumber_dateOf (seconds t / 86400)
  unfold formatTime secondText dateText clockText
  rw [yearText_of_lt lower upper]
  generalize dateOf (seconds t / 86400) = date at *
  obtain ⟨year, month, day⟩ := date
  obtain ⟨y, rfl⟩ := Int.eq_ofNat_of_zero_le lower
  have years : y < 10 ^ 4 := by
    simp only at upper
    omega
  have cycle : ((y : ℤ) % 400).toNat = y % 400 := by omega
  rw [cycle, isLeap_mod] at length
  have clock : (seconds t % 86400).toNat < 86400 := by omega
  refine (parseTime_layout years ⟨first, last, start, length⟩ (by omega) (by omega) (by omega)
    ?_).trans ?_
  · unfold nanosecond
    omega
  · obtain ⟨ns⟩ := t
    refine congrArg (fun ns => some (Time.mk ns)) ?_
    dsimp only
    rw [back]
    unfold seconds nanosecond
    dsimp only
    omega

/-! ## Order -/

theorem dateText_length {date : Date} (lower : 0 ≤ date.year) (upper : date.year < 10000) :
    (dateText date).length = 10 := by
  unfold dateText
  rw [yearText_of_lt lower upper]
  simp [length_pad, show (ascii "-").length = 1 from by decide]

theorem clockText_length (clock : ℕ) : (clockText clock).length = 8 := by
  unfold clockText
  simp [length_pad, show (ascii ":").length = 1 from by decide]

/-- Dates of these years are ordered as their texts. -/
theorem dateText_lt {date date' : Date} (lower : 0 ≤ date.year) (upper : date'.year < 10000)
    (months : date'.month ≤ 12) (days : date'.day ≤ 31) (before : date.Before date') :
    dateText date < dateText date' := by
  have years : date.year ≤ date'.year := by
    rcases before with less | ⟨same, -⟩
    · exact less.le
    · exact same.le
  unfold dateText
  rw [yearText_of_lt lower (by omega), yearText_of_lt (by omega) upper]
  refine fields_lt (by simp only [length_pad]) (by simp only [length_pad]) ?_
  rcases before with less | ⟨same, less | ⟨same', less⟩⟩
  · exact Or.inl (pad_lt (by omega) (by omega))
  · exact Or.inr ⟨by rw [same], Or.inl (pad_lt less (by omega))⟩
  · exact Or.inr ⟨by rw [same], Or.inr ⟨by rw [same'], pad_lt less (by omega)⟩⟩

/-- Times of one day are ordered as their texts. -/
theorem clockText_lt {clock clock' : ℕ} (before : clock < clock') (upper : clock' < 86400) :
    clockText clock < clockText clock' := by
  refine fields_lt (by simp only [length_pad]) (by simp only [length_pad]) ?_
  by_cases hours : clock / 3600 = clock' / 3600
  · refine Or.inr ⟨by rw [hours], ?_⟩
    by_cases minutes : clock / 60 % 60 = clock' / 60 % 60
    · exact Or.inr ⟨by rw [minutes], pad_lt (by omega) (by omega)⟩
    · exact Or.inl (pad_lt (by omega) (by omega))
  · exact Or.inl (pad_lt (by omega) (by omega))

/-- The date of a time of these years, as its text needs it. -/
theorem InYears.date {t : Time} (inside : InYears t) :
    let date := dateOf (seconds t / 86400)
    0 ≤ date.year ∧ date.year < 10000 ∧ date.month ≤ 12 ∧ date.day ≤ 31 := by
  obtain ⟨lower, upper⟩ := (inYears_iff_year t).mp inside
  obtain ⟨first, last, -, length⟩ := dateOf_valid (seconds t / 86400)
  exact ⟨lower, upper, last, length.trans (monthLengths_le _ (by omega))⟩

theorem secondText_length {t : Time} (inside : InYears t) : (secondText (seconds t)).length = 19 := by
  obtain ⟨lower, upper, -, -⟩ := inside.date
  unfold secondText
  rw [List.length_append, List.length_append, dateText_length lower upper, clockText_length]
  rfl

/-- **Whole seconds are ordered as their texts.** -/
theorem secondText_lt {t t' : Time} (inside : InYears t) (inside' : InYears t')
    (before : seconds t < seconds t') : secondText (seconds t) < secondText (seconds t') := by
  obtain ⟨lower, upper, -, -⟩ := inside.date
  obtain ⟨lower', upper', months, days⟩ := inside'.date
  have same : (dateText (dateOf (seconds t / 86400))).length =
      (dateText (dateOf (seconds t' / 86400))).length :=
    (dateText_length lower upper).trans (dateText_length lower' upper').symm
  unfold secondText
  by_cases day : seconds t / 86400 = seconds t' / 86400
  · rw [day]
    exact append_lt_append rfl (Or.inr ⟨rfl, clockText_lt (by omega) (by omega)⟩)
  · refine append_lt_append (by rw [List.length_append, List.length_append, same]) (Or.inl ?_)
    exact append_lt_append same
      (Or.inl (dateText_lt lower upper' months days (dateOf_lt (by omega))))

/-- The times are in one second, and the digits of the first fraction begin those of the
second. -/
def Begins (t t' : Time) : Prop :=
  seconds t = seconds t' ∧ trimmed 9 (nanosecond t) <+: trimmed 9 (nanosecond t')

instance (t t' : Time) : Decidable (Begins t t') := inferInstanceAs (Decidable (_ ∧ _))

theorem nanosecond_lt (t : Time) : nanosecond t < 10 ^ 9 := by
  unfold nanosecond
  omega

theorem digit_lt_Z {k : ℕ} (small : k < 10) : digit k < 90 := by
  rw [UInt8.lt_iff_toNat_lt, digit_toNat small]
  simp only [UInt8.reduceToNat]
  omega

/-- Fractions that part ways are ordered as their texts. -/
theorem fractionText_lt {n n' : ℕ} (before : n < n') (small : n' < 10 ^ 9)
    (apart : ¬ trimmed 9 n <+: trimmed 9 n') :
    fractionText n ++ ascii "Z" < fractionText n' ++ ascii "Z" := by
  obtain ⟨p, a, b, r, r', left, right, less⟩ := trimmed_lt before small apart
  have order := diverged_lt (ascii "." ++ p) (r ++ ascii "Z") (r' ++ ascii "Z") less
  unfold fractionText
  rw [left, right, if_neg (by simp), if_neg (by simp)]
  simpa only [List.append_assoc, List.cons_append] using order

/-- Where one fraction begins the other, the longer text comes first. -/
theorem fractionText_gt {n n' : ℕ} (before : n < n') (small : n' < 10 ^ 9)
    (begins : trimmed 9 n <+: trimmed 9 n') :
    fractionText n' ++ ascii "Z" < fractionText n ++ ascii "Z" := by
  obtain ⟨rest, whole⟩ := begins
  have digits := trimmed_digits (w := 9) (n := n')
  cases rest with
  | nil =>
      rw [List.append_nil] at whole
      have same := trimmed_injective (before.trans small) small whole
      omega
  | cons c rest =>
      obtain ⟨k, few, rfl⟩ := digits c (by simp [← whole])
      have nonempty : trimmed 9 n' ≠ [] := by simp [← whole]
      unfold fractionText
      rw [if_neg nonempty, ← whole, show ascii "Z" = [90] from by decide,
        show ascii "." = [46] from by decide]
      by_cases second : trimmed 9 n = []
      · rw [if_pos second, second]
        exact List.cons_lt_cons_iff.mpr (Or.inl (by decide))
      · rw [if_neg second]
        have order := diverged_lt ([46] ++ trimmed 9 n) (rest ++ [90]) [] (digit_lt_Z few)
        simpa only [List.append_assoc, List.cons_append, List.nil_append] using order

section Order

variable {t t' : Time} (inside : InYears t) (inside' : InYears t') (before : t.ns < t'.ns)

include inside inside' before

/-- **The texts of two times are ordered as the times**, except where one fraction begins
the other. -/
theorem formatTime_lt (apart : ¬ Begins t t') : formatTime t < formatTime t' := by
  unfold formatTime
  refine append_lt_append ((secondText_length inside).trans (secondText_length inside').symm) ?_
  by_cases second : seconds t = seconds t'
  · refine Or.inr ⟨by rw [second], fractionText_lt ?_ (nanosecond_lt t') fun begins =>
      apart ⟨second, begins⟩⟩
    unfold seconds at second
    unfold nanosecond
    omega
  · refine Or.inl (secondText_lt inside inside' ?_)
    unfold seconds at second ⊢
    omega

/-- There the later time comes first. -/
theorem formatTime_gt (begins : Begins t t') : formatTime t' < formatTime t := by
  obtain ⟨second, digits⟩ := begins
  unfold formatTime
  refine append_lt_append ((secondText_length inside').trans (secondText_length inside).symm)
    (Or.inr ⟨by rw [second], fractionText_gt ?_ (nanosecond_lt t') digits⟩)
  unfold seconds at second
  unfold nanosecond
  omega

end Order

/-! ## The encodings of the store -/

/-- `time.RFC3339Nano` and `encoding/json`.  A text that is no JSON is reported in one way
here, whatever is wrong with it. -/
def goCodec : Codec where
  formatTime := formatTime
  parseTime := parseTime
  marshal := Json.marshal
  unmarshal s :=
    match Json.unmarshal s with
    | some reasons => .ok reasons
    | none => .error (ascii "unexpected end of JSON input")

theorem goCodec_reasons (rs : List GoString) :
    goCodec.unmarshal (goCodec.marshal rs) = .ok (rs.map Json.coerced) := by
  unfold goCodec
  dsimp only
  rw [Json.unmarshal_marshal]

theorem coerced_map_eq_iff (rs : List GoString) :
    rs.map Json.coerced = rs ↔ ∀ r ∈ rs, Utf8 r := by
  conv_lhs =>
    rhs
    rw [← List.map_id rs]
  rw [List.map_inj_left]
  exact forall₂_congr fun r _ => Json.coerced_eq_iff r

/-- **The encodings keep what Go documents**, and no more: times of the years 0 to 9999 and
UTF-8 reasons. -/
theorem goCodec_lawful : goCodec.Lawful where
  time _ := parseTime_formatTime
  reasons rs utf8 := by
    rw [goCodec_reasons, (coerced_map_eq_iff rs).mpr utf8]

theorem goCodec_time_iff (t : Time) :
    (goCodec.parseTime (goCodec.formatTime t)).isSome ↔ InYears t := by
  constructor
  · intro read
    by_contra outside
    rw [show goCodec.parseTime (goCodec.formatTime t) = none from parseTime_outside outside] at read
    cases read
  · intro inside
    rw [goCodec_lawful.time t inside]
    rfl

/-! ## Decision records -/

/-- The columns of the record survive their encoding. -/
def StorableRecord (rec : DecisionRecord) : Prop :=
  (∀ reason ∈ rec.reasons, Utf8 reason.text) ∧ InYears rec.recordedAt

theorem scanDecision_decisionRow {codec : Codec} (lawful : codec.Lawful) {rec : DecisionRecord}
    (storable : StorableRecord rec) :
    scanDecision codec (decisionRow codec rec) = .ok rec := by
  have reasons : codec.unmarshal (codec.marshal (rec.reasons.map Open.text)) =
      .ok (rec.reasons.map Open.text) := by
    refine lawful.reasons _ fun r member => ?_
    obtain ⟨reason, there, rfl⟩ := List.mem_map.mp member
    exact storable.1 reason there
  unfold scanDecision decisionRow
  simp only [reasons, lawful.time _ storable.2, Open.ofText_text, List.map_map,
    Function.comp_def, List.map_id']

/-- A decision record is read back as it was written exactly if it is storable. -/
theorem scanDecision_eq_iff (rec : DecisionRecord) :
    scanDecision goCodec (decisionRow goCodec rec) = .ok rec ↔ StorableRecord rec := by
  constructor
  · intro read
    unfold scanDecision decisionRow at read
    simp only [goCodec_reasons] at read
    cases time : goCodec.parseTime (goCodec.formatTime rec.recordedAt) with
    | none =>
        rw [time] at read
        cases read
    | some t =>
        rw [time] at read
        have reasons := congrArg (fun r => r.reasons.map Open.text) (Except.ok.inj read)
        simp only [List.map_map, Function.comp_def, Open.text_ofText] at reasons
        refine ⟨fun reason member => ?_, (goCodec_time_iff _).mp (by rw [time]; rfl)⟩
        exact (Json.coerced_eq_iff _).mp (List.map_inj_left.mp reasons reason member)
  · exact scanDecision_decisionRow goCodec_lawful

end SentryGate.Audit
