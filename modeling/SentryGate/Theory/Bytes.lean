/-
# Theory.Bytes -- fixed-width big-endian integers, length framing, hexadecimal

* `bigEndian w n` -- `n` as `w` bytes, most significant first; injective below
  `256 ^ w` (`bigEndian_injective`).  `putUint64` computes the eight bytes of a 64-bit word
  by shifts.
* `frame w bs` -- `bs` behind its length in `w` bytes.  A frame can be split off
  the front of any byte string (`frame_append_inj`), whatever the framed bytes
  are, so a concatenation of frames has one reading (`frames_injective`).
* `hex` -- lowercase hexadecimal, injective.
-/
import Mathlib.Data.List.Basic
import Mathlib.Tactic.Ring

namespace SentryGate.Theory.Bytes

set_option autoImplicit false

/-! ## Big-endian integers -/

/-- The low `w` bytes of `n`, most significant first. -/
def bigEndian : Nat → Nat → List UInt8
  | 0, _ => []
  | w + 1, n => UInt8.ofNat (n / 256 ^ w) :: bigEndian w n

@[simp] theorem length_bigEndian (w n : Nat) : (bigEndian w n).length = w := by
  induction w with
  | zero => rfl
  | succ w ih => simp [bigEndian, ih]

/-- The bytes of `n` agree with those of `m` exactly when the low `w` bytes do. -/
theorem bigEndian_mod_eq {w n m : Nat} (same : bigEndian w n = bigEndian w m) :
    n % 256 ^ w = m % 256 ^ w := by
  induction w with
  | zero => simp [Nat.mod_one]
  | succ w ih =>
      simp only [bigEndian, List.cons.injEq] at same
      obtain ⟨top, rest⟩ := same
      have low := ih rest
      have high : n / 256 ^ w % 256 = m / 256 ^ w % 256 := by
        have := congrArg UInt8.toNat top
        simpa using this
      rw [Nat.pow_succ, Nat.mod_mul, Nat.mod_mul, low, high]

theorem bigEndian_injective {w n m : Nat} (hn : n < 256 ^ w) (hm : m < 256 ^ w)
    (same : bigEndian w n = bigEndian w m) : n = m := by
  have := bigEndian_mod_eq same
  rwa [Nat.mod_eq_of_lt hn, Nat.mod_eq_of_lt hm] at this

/-- A 64-bit word as eight bytes, by shifts. -/
def putUint64 (v : UInt64) : List UInt8 :=
  [(v >>> 56).toUInt8, (v >>> 48).toUInt8, (v >>> 40).toUInt8, (v >>> 32).toUInt8,
    (v >>> 24).toUInt8, (v >>> 16).toUInt8, (v >>> 8).toUInt8, v.toUInt8]

theorem putUint64_ofNat (n : Nat) : putUint64 (UInt64.ofNat n) = bigEndian 8 n := by
  simp only [putUint64, bigEndian, List.cons.injEq, and_true]
  -- byte by byte: the shift is a division, and reducing by 2^64 first does not show
  refine ⟨?_, ?_, ?_, ?_, ?_, ?_, ?_, ?_⟩
  all_goals
    apply UInt8.toNat_inj.mp
    simp [Nat.shiftRight_eq_div_pow] <;> omega

/-! ## Frames -/

/-- `bs` behind its length in `w` bytes. -/
def frame (w : Nat) (bs : List UInt8) : List UInt8 :=
  bigEndian w bs.length ++ bs

/-- A frame can be split off the front of any byte string. -/
theorem frame_append_inj {w : Nat} {a b s t : List UInt8} (ha : a.length < 256 ^ w)
    (hb : b.length < 256 ^ w) (same : frame w a ++ s = frame w b ++ t) : a = b ∧ s = t := by
  simp only [frame, List.append_assoc] at same
  obtain ⟨lengths, rest⟩ := List.append_inj same (by simp)
  exact List.append_inj rest (bigEndian_injective ha hb lengths)

/-- **A concatenation of frames has one reading.** -/
theorem frames_injective {w : Nat} :
    ∀ {as bs : List (List UInt8)}, as.length = bs.length →
      (∀ a ∈ as, a.length < 256 ^ w) → (∀ b ∈ bs, b.length < 256 ^ w) →
      as.flatMap (frame w) = bs.flatMap (frame w) → as = bs
  | [], [], _, _, _, _ => rfl
  | [], _ :: _, len, _, _, _ => by simp at len
  | _ :: _, [], len, _, _, _ => by simp at len
  | a :: as, b :: bs, len, ha, hb, same => by
      simp only [List.flatMap_cons] at same
      obtain ⟨head, rest⟩ := frame_append_inj (ha a (by simp)) (hb b (by simp)) same
      rw [head, frames_injective (by simpa using len) (fun x hx => ha x (by simp [hx]))
        (fun x hx => hb x (by simp [hx])) rest]

/-! ## Hexadecimal -/

/-- The lowercase hexadecimal digit of `n < 16`. -/
def hexDigit (n : Nat) : UInt8 :=
  UInt8.ofNat (if n < 10 then 48 + n else 87 + n)

theorem hexDigit_injective {n m : Nat} (hn : n < 16) (hm : m < 16)
    (same : hexDigit n = hexDigit m) : n = m := by
  have values := congrArg UInt8.toNat same
  simp only [hexDigit, UInt8.toNat_ofNat'] at values
  split at values <;> split at values <;> omega

/-- Two lowercase hexadecimal digits a byte. -/
def hex (bs : List UInt8) : List UInt8 :=
  bs.flatMap fun b => [hexDigit (b.toNat / 16), hexDigit (b.toNat % 16)]

theorem hex_injective : Function.Injective hex := by
  intro as
  induction as with
  | nil =>
      intro bs same
      cases bs with
      | nil => rfl
      | cons b bs => simp [hex] at same
  | cons a as ih =>
      intro bs same
      cases bs with
      | nil => simp [hex] at same
      | cons b bs =>
          simp only [hex, List.flatMap_cons, List.cons_append, List.nil_append,
            List.cons.injEq] at same
          obtain ⟨high, low, rest⟩ := same
          have ha := a.toNat_lt
          have hb := b.toNat_lt
          have top := hexDigit_injective (by omega) (by omega) high
          have bottom := hexDigit_injective (by omega) (by omega) low
          have byte : a = b := UInt8.toNat_inj.mp (by omega)
          rw [byte, ih rest]

theorem hex_ne_nil {bs : List UInt8} (nonempty : bs ≠ []) : hex bs ≠ [] := by
  cases bs with
  | nil => exact absurd rfl nonempty
  | cons b bs => simp [hex]

end SentryGate.Theory.Bytes
