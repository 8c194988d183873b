import Mathlib.Data.List.Induction
import Mathlib.Algebra.Group.Nat.Defs

/-!
# Hexadecimal text

Numbers as hexadecimal digits in bytes, as a C program writes and reads them: `formatHex` is the
conversion `%0nX`, `readHex` reads digits of either case.  What has been written is read as the
number that it was written from (`readHex_hexDigits`), and a text of digits is, but for the case of
its letters, the one that is written from its number (`map_lower_of_readHex`).
-/

namespace MtkHw.Lib

/-- A digit in upper case. -/
def hexDigit (d : Nat) : UInt8 :=
  if d < 10 then UInt8.ofNat (0x30 + d) else UInt8.ofNat (0x37 + d)

/-- The value of a digit of either case. -/
def hexDigitVal (b : UInt8) : Option Nat :=
  if 0x30 ≤ b ∧ b ≤ 0x39 then some (b.toNat - 0x30)
  else if 0x41 ≤ b ∧ b ≤ 0x46 then some (b.toNat - 0x37)
  else if 0x61 ≤ b ∧ b ≤ 0x66 then some (b.toNat - 0x57)
  else none

/-- The byte in lower case. -/
def lowerByte (b : UInt8) : UInt8 := if 0x41 ≤ b ∧ b ≤ 0x5A then b + 0x20 else b

/-- The last `k` digits of a number. -/
def hexDigits : Nat → Nat → List UInt8
  | 0, _ => []
  | k + 1, n => hexDigits k (n / 16) ++ [hexDigit (n % 16)]

/-- `%0nX` -/
def formatHex (width n : Nat) : List UInt8 := hexDigits (max width (n.log2 / 4 + 1)) n

/-- The number that the digits make, when they are digits. -/
def readHex (txt : List UInt8) : Option Nat :=
  txt.foldlM (fun value b => (hexDigitVal b).map (value * 16 + ·)) 0

/-! ## Digits -/

theorem hexDigitVal_hexDigit : ∀ d < 16, hexDigitVal (hexDigit d) = some d := by decide

theorem hexDigit_ne_zero : ∀ d < 16, hexDigit d ≠ 0 := by decide

/-- What holds of the 256 bytes. -/
theorem forall_byte {P : UInt8 → Prop} (h : ∀ n < 256, P (UInt8.ofNat n)) (b : UInt8) : P b := by
  have hb := h b.toNat b.toNat_lt
  rwa [UInt8.ofNat_toNat] at hb

theorem hexDigitVal_lt {b : UInt8} {d : Nat} (h : hexDigitVal b = some d) : d < 16 := by
  have hbyte : ∀ b, ∀ d ∈ hexDigitVal b, d < 16 := by
    intro b
    apply forall_byte (P := fun b => ∀ d ∈ hexDigitVal b, d < 16)
    decide +kernel
  exact hbyte b d h

/-- The case of a digit does not matter. -/
theorem hexDigitVal_lowerByte (b : UInt8) : hexDigitVal (lowerByte b) = hexDigitVal b := by
  apply forall_byte (P := fun b => hexDigitVal (lowerByte b) = hexDigitVal b)
  decide +kernel

/-- A digit is the one of its value, but for the case. -/
theorem lowerByte_of_hexDigitVal {b : UInt8} {d : Nat} (h : hexDigitVal b = some d) :
    lowerByte b = lowerByte (hexDigit d) := by
  have hbyte : ∀ b, ∀ d ∈ hexDigitVal b, lowerByte b = lowerByte (hexDigit d) := by
    intro b
    apply forall_byte (P := fun b => ∀ d ∈ hexDigitVal b, lowerByte b = lowerByte (hexDigit d))
    decide +kernel
  exact hbyte b d h

/-! ## Numbers -/

@[simp] theorem length_hexDigits (k n : Nat) : (hexDigits k n).length = k := by
  induction k generalizing n with
  | zero => rfl
  | succ k ih => rw [hexDigits, List.length_append, ih, List.length_singleton]

theorem zero_notMem_hexDigits (k n : Nat) : 0 ∉ hexDigits k n := by
  induction k generalizing n with
  | zero => exact List.not_mem_nil
  | succ k ih =>
    rw [hexDigits, List.mem_append, List.mem_singleton]
    rintro (hz | hz)
    · exact ih _ hz
    · exact hexDigit_ne_zero _ (Nat.mod_lt n (by decide)) hz.symm

theorem readHex_concat (txt : List UInt8) (b : UInt8) :
    readHex (txt ++ [b]) =
      (readHex txt).bind fun value => (hexDigitVal b).map (value * 16 + ·) := by
  rw [readHex, List.foldlM_append]
  cases h : readHex txt with
  | none => rw [← readHex, h]; rfl
  | some value =>
    rw [← readHex, h]
    change (hexDigitVal b).map (value * 16 + ·) >>= some = (hexDigitVal b).map (value * 16 + ·)
    exact bind_pure _

/-- Digits make a number. -/
theorem readHex_isSome {txt : List UInt8} (h : ∀ b ∈ txt, (hexDigitVal b).isSome) :
    (readHex txt).isSome := by
  induction txt using List.reverseRecOn with
  | nil => rfl
  | append_singleton txt b ih =>
    obtain ⟨htxt, hb⟩ := List.forall_mem_append.mp h
    obtain ⟨value, hvalue⟩ := Option.isSome_iff_exists.mp (ih htxt)
    obtain ⟨d, hd⟩ := Option.isSome_iff_exists.mp (hb b (List.mem_singleton_self b))
    rw [readHex_concat, hvalue, hd]
    rfl

/-- What has been written is read. -/
theorem readHex_hexDigits {k n : Nat} (h : n < 16 ^ k) : readHex (hexDigits k n) = some n := by
  induction k generalizing n with
  | zero =>
    obtain rfl := Nat.lt_one_iff.mp h
    rfl
  | succ k ih =>
    have hdiv : n / 16 < 16 ^ k := Nat.div_lt_of_lt_mul (by rwa [Nat.pow_succ, Nat.mul_comm] at h)
    rw [hexDigits, readHex_concat, ih hdiv, hexDigitVal_hexDigit _ (Nat.mod_lt n (by decide)),
      Option.bind_some, Option.map_some, Nat.div_add_mod']

/-- The digits that a text of digits has, but for their case. -/
theorem map_lower_of_readHex {txt : List UInt8} {n : Nat} (h : readHex txt = some n) :
    n < 16 ^ txt.length ∧ txt.map lowerByte = (hexDigits txt.length n).map lowerByte := by
  induction txt using List.reverseRecOn generalizing n with
  | nil =>
    cases h
    exact ⟨Nat.one_pos, rfl⟩
  | append_singleton txt b ih =>
    rw [readHex_concat, Option.bind_eq_some_iff] at h
    obtain ⟨value, hvalue, h⟩ := h
    obtain ⟨d, hd, rfl⟩ := Option.map_eq_some_iff.mp h
    obtain ⟨hlt, hmap⟩ := ih hvalue
    have hd16 := hexDigitVal_lt hd
    have hdiv : (value * 16 + d) / 16 = value := by omega
    have hmod : (value * 16 + d) % 16 = d := by omega
    rw [List.length_append, List.length_singleton, hexDigits, hdiv, hmod, List.map_append, hmap,
      List.map_append, List.map_singleton, List.map_singleton, lowerByte_of_hexDigitVal hd]
    refine ⟨?_, rfl⟩
    rw [Nat.pow_succ]
    omega

/-- A text and the one in lower case make the same number. -/
theorem readHex_congr {txt txt' : List UInt8} (h : txt.map lowerByte = txt'.map lowerByte) :
    readHex txt = readHex txt' := by
  have hlower : ∀ txt : List UInt8, readHex (txt.map lowerByte) = readHex txt := by
    intro txt
    rw [readHex, List.foldlM_map, readHex]
    simp only [hexDigitVal_lowerByte]
  rw [← hlower txt, h, hlower txt']

/-- Digits are neither added nor left out for a number that has room in them. -/
theorem formatHex_eq {width n : Nat} (hwidth : 0 < width) (h : n < 16 ^ width) :
    formatHex width n = hexDigits width n := by
  have hlog : n.log2 / 4 + 1 ≤ width := by
    by_cases hn : n = 0
    · rw [hn, Nat.log2_zero]
      exact hwidth
    · have hpow : n < 2 ^ (4 * width) := by rwa [Nat.pow_mul]
      have := (Nat.log2_lt hn).mpr hpow
      omega
  rw [formatHex, Nat.max_eq_left hlog]

end MtkHw.Lib
