import Mathlib.Data.Nat.Bitwise
import Mathlib.Tactic.Common

/-!
# Streams of bits

A buffer of octets is a stream of bits, the most significant bit of each octet first.  A field of up
to eight bits lies in one octet or in two that follow each other: `orField` puts a field into a
buffer, `getField` takes it out, both through a word of sixteen bits.

A field is a width and a value, and `Carries` says that a sequence of fields lies in the stream from
a position on.  The two rules are `Carries.snoc`, for a writer that adds a field behind the last one,
and `Carries.getField`, for a reader that takes the first one.
-/

namespace MtkHw.Lib

/-- A bit of a buffer; behind its end all bits are clear. -/
def bitAt (buf : List UInt8) (i : Nat) : Bool := (buf.getD (i / 8) 0).toNat.testBit (7 - i % 8)

/-- Set bits of an octet. -/
def orByte (buf : List UInt8) (i : Nat) (data : Nat) : List UInt8 :=
  buf.set i (buf.getD i 0 ||| UInt8.ofNat data)

/-- Put a field of `bits` bits at a position. -/
def orField (buf : List UInt8) (pos bits data : Nat) : List UInt8 :=
  let data := data &&& (0xFFFFFFFF >>> (32 - bits))
  let index := pos >>> 3
  let offset := 16 - pos % 8 - bits
  let data := data <<< offset
  let buf := orByte buf index (data >>> 8)
  if offset < 8 then orByte buf (index + 1) (data &&& 0xFF) else buf

/-- The field of `bits` bits at a position. -/
def getField (buf : List UInt8) (pos bits : Nat) : Nat :=
  let index := pos >>> 3
  let offset := 16 - pos % 8 - bits
  let data := (buf.getD index 0).toNat <<< 8
  let data := if offset < 8 then data ||| (buf.getD (index + 1) 0).toNat else data
  (data >>> offset) &&& (0xFFFFFFFF >>> (32 - bits))

/-! ## Single bits -/

theorem mask_eq : ∀ bits ≤ 8, 0xFFFFFFFF >>> (32 - bits) = 2 ^ bits - 1 := by decide

theorem testBit_mask {bits : Nat} (h : bits ≤ 8) (data j : Nat) :
    (data &&& (0xFFFFFFFF >>> (32 - bits))).testBit j = (decide (j < bits) && data.testBit j) := by
  rw [mask_eq bits h, Nat.and_two_pow_sub_one_eq_mod, Nat.testBit_mod_two_pow]

@[simp] theorem length_orByte (buf : List UInt8) (i data : Nat) :
    (orByte buf i data).length = buf.length := List.length_set

@[simp] theorem length_orField (buf : List UInt8) (pos bits data : Nat) :
    (orField buf pos bits data).length = buf.length := by
  unfold orField
  dsimp only
  split <;> simp

theorem testBit_byte_lt (b : UInt8) {j : Nat} (h : b.toNat.testBit j = true) : j < 8 := by
  by_contra hj
  rw [Nat.testBit_lt_two_pow (Nat.lt_of_lt_of_le b.toNat_lt
    (Nat.pow_le_pow_right (by decide) (Nat.le_of_not_lt hj)))] at h
  cases h

/-- A bit of a buffer in which bits of an octet are set. -/
theorem bitAt_orByte {buf : List UInt8} {i : Nat} (hi : i < buf.length) (data k : Nat) :
    bitAt (orByte buf i data) k =
      (bitAt buf k || (decide (k / 8 = i) && data.testBit (7 - k % 8))) := by
  unfold bitAt orByte
  by_cases hk : k / 8 = i
  · have hbit : 7 - k % 8 < 8 := by omega
    have hset : (buf.set i (buf.getD i 0 ||| UInt8.ofNat data)).getD (k / 8) 0 =
        buf.getD i 0 ||| UInt8.ofNat data := by
      rw [hk, List.getD_eq_getElem?_getD, List.getElem?_set_self hi, Option.getD_some]
    rw [hset, hk, UInt8.toNat_or, Nat.testBit_or, UInt8.toNat_ofNat', Nat.testBit_mod_two_pow]
    simp [hbit]
  · simp [List.getD_eq_getElem?_getD, List.getElem?_set_ne (Ne.symm hk), hk]

/-- A bit of a field, in the word through which it is put: the word begins at the octet in which the
field begins. -/
theorem testBit_word {pos bits k m : Nat} (hbits : bits ≤ 8) (hm : m + k = 8 * (pos / 8) + 15)
    (data : Nat) :
    ((data &&& (0xFFFFFFFF >>> (32 - bits))) <<< (16 - pos % 8 - bits)).testBit m =
      (decide (pos ≤ k ∧ k < pos + bits) && data.testBit (pos + bits - 1 - k)) := by
  rw [Nat.testBit_shiftLeft, testBit_mask hbits]
  by_cases hk : pos ≤ k ∧ k < pos + bits
  · have hoffset : m ≥ 16 - pos % 8 - bits := by omega
    have hwidth : m - (16 - pos % 8 - bits) < bits := by omega
    have hbit : m - (16 - pos % 8 - bits) = pos + bits - 1 - k := by omega
    rw [decide_eq_true hoffset, decide_eq_true hwidth, decide_eq_true hk, hbit, Bool.true_and]
  · rw [decide_eq_false hk]
    by_cases hoffset : m ≥ 16 - pos % 8 - bits
    · have hwidth : ¬ m - (16 - pos % 8 - bits) < bits := by omega
      rw [decide_eq_false hwidth, Bool.false_and, Bool.and_false, Bool.false_and]
    · rw [decide_eq_false hoffset, Bool.false_and, Bool.false_and]

/-- A bit of a buffer into which a field is put. -/
theorem bitAt_orField {buf : List UInt8} {pos bits : Nat} (hne : 0 < bits) (hbits : bits ≤ 8)
    (hpos : pos + bits ≤ 8 * buf.length) (data k : Nat) :
    bitAt (orField buf pos bits data) k =
      (bitAt buf k || (decide (pos ≤ k ∧ k < pos + bits) && data.testBit (pos + bits - 1 - k))) := by
  unfold orField
  simp only [Nat.shiftRight_eq_div_pow pos 3, Nat.reducePow]
  have hindex : pos / 8 < buf.length := by omega
  -- The two octets hold the high and the low half of the word.
  have hhigh (hk : k / 8 = pos / 8) :
      ((data &&& (0xFFFFFFFF >>> (32 - bits))) <<< (16 - pos % 8 - bits) >>> 8).testBit (7 - k % 8) =
        (decide (pos ≤ k ∧ k < pos + bits) && data.testBit (pos + bits - 1 - k)) := by
    rw [Nat.testBit_shiftRight]
    exact testBit_word hbits (by omega) data
  have hlow (hk : k / 8 = pos / 8 + 1) :
      ((data &&& (0xFFFFFFFF >>> (32 - bits))) <<< (16 - pos % 8 - bits) &&& 0xFF).testBit
          (7 - k % 8) =
        (decide (pos ≤ k ∧ k < pos + bits) && data.testBit (pos + bits - 1 - k)) := by
    have hbyte : 7 - k % 8 < 8 := by omega
    rw [Nat.and_two_pow_sub_one_eq_mod _ 8, Nat.testBit_mod_two_pow, decide_eq_true hbyte,
      Bool.true_and]
    exact testBit_word hbits (by omega) data
  split
  · rename_i htwo
    rw [bitAt_orByte (by rw [length_orByte]; omega), bitAt_orByte hindex, Bool.or_assoc]
    congr 1
    by_cases hfirst : k / 8 = pos / 8
    · rw [hhigh hfirst, decide_eq_true hfirst, decide_eq_false (by omega : ¬ k / 8 = pos / 8 + 1)]
      simp
    · by_cases hsecond : k / 8 = pos / 8 + 1
      · rw [hlow hsecond, decide_eq_true hsecond, decide_eq_false hfirst]
        simp
      · rw [decide_eq_false hfirst, decide_eq_false hsecond,
          decide_eq_false (by omega : ¬ (pos ≤ k ∧ k < pos + bits))]
        rfl
  · rename_i hone
    rw [bitAt_orByte hindex]
    congr 1
    by_cases hfirst : k / 8 = pos / 8
    · rw [hhigh hfirst, decide_eq_true hfirst, Bool.true_and]
    · rw [decide_eq_false hfirst, decide_eq_false (by omega : ¬ (pos ≤ k ∧ k < pos + bits))]
      rfl

/-- A bit of two octets in a word. -/
theorem testBit_twoBytes (high low : UInt8) (m : Nat) :
    (high.toNat <<< 8 ||| low.toNat).testBit m =
      if 8 ≤ m then high.toNat.testBit (m - 8) else low.toNat.testBit m := by
  rw [Nat.testBit_or, Nat.testBit_shiftLeft]
  by_cases hm : 8 ≤ m
  · have hlow : low.toNat.testBit m = false :=
      (Bool.not_eq_true _).mp fun h => absurd (testBit_byte_lt low h) (Nat.not_lt_of_le hm)
    rw [if_pos hm, hlow, decide_eq_true hm, Bool.true_and, Bool.or_false]
  · rw [if_neg hm, decide_eq_false hm, Bool.false_and, Bool.false_or]

/-- A bit of a field that is taken out. -/
theorem testBit_getField (buf : List UInt8) {pos bits : Nat} (hbits : bits ≤ 8) (j : Nat) :
    (getField buf pos bits).testBit j = (decide (j < bits) && bitAt buf (pos + bits - 1 - j)) := by
  unfold getField
  rw [testBit_mask hbits, Nat.shiftRight_eq_div_pow pos 3]
  by_cases hj : j < bits
  · congr 1
    -- The octets of the word; the second one is looked at only if the field extends into it.
    obtain ⟨low, hword, hlow⟩ : ∃ low : UInt8,
        (if 16 - pos % 8 - bits < 8 then
          (buf.getD (pos / 2 ^ 3) 0).toNat <<< 8 ||| (buf.getD (pos / 2 ^ 3 + 1) 0).toNat
        else (buf.getD (pos / 2 ^ 3) 0).toNat <<< 8) =
          ((buf.getD (pos / 8) 0).toNat <<< 8 ||| low.toNat) ∧
        (16 - pos % 8 - bits < 8 → low = buf.getD (pos / 8 + 1) 0) := by
      split
      · exact ⟨_, rfl, fun _ => rfl⟩
      · rename_i hone
        exact ⟨0, (Nat.or_zero _).symm, fun htwo => absurd htwo hone⟩
    rw [hword, Nat.testBit_shiftRight, testBit_twoBytes, bitAt]
    by_cases hfirst : (pos + bits - 1 - j) / 8 = pos / 8
    · have hbit : 16 - pos % 8 - bits + j - 8 = 7 - (pos + bits - 1 - j) % 8 := by omega
      rw [if_pos (by omega), hbit, hfirst]
    · have hsecond : (pos + bits - 1 - j) / 8 = pos / 8 + 1 := by omega
      have hbit : 16 - pos % 8 - bits + j = 7 - (pos + bits - 1 - j) % 8 := by omega
      rw [if_neg (by omega), hbit, hsecond, hlow (by omega)]
  · rw [decide_eq_false hj, Bool.false_and, Bool.false_and]

theorem getField_lt (buf : List UInt8) (pos : Nat) {bits : Nat} (hbits : bits ≤ 8) :
    getField buf pos bits < 2 ^ bits := by
  apply Nat.lt_pow_two_of_testBit
  intro j hj
  rw [testBit_getField buf hbits, decide_eq_false (Nat.not_lt_of_le hj), Bool.false_and]

/-- A field of one bit is the bit. -/
theorem getField_one (buf : List UInt8) (pos : Nat) :
    getField buf pos 1 = (bitAt buf pos).toNat := by
  have hlt : getField buf pos 1 < 2 ^ 1 := getField_lt buf pos (by decide)
  have hbit : (getField buf pos 1).testBit 0 = _ := testBit_getField buf (by decide) 0
  rw [decide_eq_true Nat.one_pos, Bool.true_and, Nat.testBit_zero, Nat.sub_zero,
    Nat.add_sub_cancel] at hbit
  rw [← hbit]
  rcases Nat.lt_succ_iff_lt_or_eq.mp hlt with hzero | hone
  · rw [Nat.lt_one_iff.mp hzero]
    rfl
  · rw [hone]
    rfl

/-! ## Sequences of fields -/

/-- The width and the value of a field. -/
abbrev Field := Nat × Nat

/-- The number of bits of some fields. -/
def bitLength (fields : List Field) : Nat := (fields.map Prod.fst).sum

/-- The stream has some fields from a position on. -/
def Carries (buf : List UInt8) : Nat → List Field → Prop
  | _, [] => True
  | pos, (bits, data) :: fields =>
      (∀ k, pos ≤ k → k < pos + bits → bitAt buf k = data.testBit (pos + bits - 1 - k)) ∧
        Carries buf (pos + bits) fields

@[simp] theorem bitLength_nil : bitLength [] = 0 := rfl

@[simp] theorem bitLength_cons (field : Field) (fields : List Field) :
    bitLength (field :: fields) = field.1 + bitLength fields := rfl

@[simp] theorem bitLength_append (fields fields' : List Field) :
    bitLength (fields ++ fields') = bitLength fields + bitLength fields' := by
  simp [bitLength]

theorem Carries.append {buf : List UInt8} {pos : Nat} {fields fields' : List Field} :
    Carries buf pos (fields ++ fields') ↔
      Carries buf pos fields ∧ Carries buf (pos + bitLength fields) fields' := by
  induction fields generalizing pos with
  | nil => simp [Carries]
  | cons field fields ih =>
    obtain ⟨bits, data⟩ := field
    simp only [List.cons_append, Carries, ih, bitLength_cons, and_assoc, Nat.add_assoc]

/-- Fields are not changed by what happens behind them. -/
theorem Carries.congr {buf buf' : List UInt8} {pos : Nat} {fields : List Field}
    (h : Carries buf pos fields)
    (hsame : ∀ k < pos + bitLength fields, bitAt buf' k = bitAt buf k) :
    Carries buf' pos fields := by
  induction fields generalizing pos with
  | nil => trivial
  | cons field fields ih =>
    obtain ⟨bits, data⟩ := field
    rw [bitLength_cons, ← Nat.add_assoc] at hsame
    refine ⟨fun k hk hlt => ?_, ih h.2 hsame⟩
    rw [hsame k (Nat.lt_of_lt_of_le hlt (Nat.le_add_right _ _))]
    exact h.1 k hk hlt

/-- A writer: the stream has the fields written so far, and is clear behind them. -/
structure Written (buf : List UInt8) (fields : List Field) : Prop where
  carries : Carries buf 0 fields
  clear : ∀ k, bitLength fields ≤ k → bitAt buf k = false

theorem Written.nil (n : Nat) : Written (List.replicate n 0) [] := by
  refine ⟨trivial, fun k _ => ?_⟩
  have hzero : (List.replicate n (0 : UInt8)).getD (k / 8) 0 = 0 := by
    rw [List.getD_eq_getElem?_getD, List.getElem?_replicate]
    split <;> rfl
  rw [bitAt, hzero]
  exact Nat.zero_testBit _

/-- A field is written behind the last one. -/
theorem Written.snoc {buf : List UInt8} {fields : List Field} (h : Written buf fields)
    {bits : Nat} (hne : 0 < bits) (hbits : bits ≤ 8)
    (hroom : bitLength fields + bits ≤ 8 * buf.length) (data : Nat) :
    Written (orField buf (bitLength fields) bits data) (fields ++ [(bits, data)]) := by
  have hbit := bitAt_orField hne hbits hroom data
  refine ⟨Carries.append.mpr ⟨h.carries.congr fun k hk => ?_, fun k hk hlt => ?_, trivial⟩,
    fun k hk => ?_⟩
  · rw [hbit, decide_eq_false (by omega), Bool.false_and, Bool.or_false]
  · rw [Nat.zero_add] at hk hlt ⊢
    rw [hbit, h.clear k hk, decide_eq_true ⟨hk, hlt⟩, Bool.true_and, Bool.false_or]
  · rw [bitLength_append, bitLength_cons, bitLength_nil, Nat.add_zero] at hk
    rw [hbit, h.clear k (Nat.le_of_add_right_le hk), decide_eq_false (by omega), Bool.false_and,
      Bool.or_false]

/-- A reader takes the first field. -/
theorem Carries.getField {buf : List UInt8} {pos bits data : Nat} {fields : List Field}
    (h : Carries buf pos ((bits, data) :: fields)) (hbits : bits ≤ 8) :
    getField buf pos bits = data % 2 ^ bits := by
  apply Nat.eq_of_testBit_eq
  intro j
  rw [testBit_getField buf hbits, Nat.testBit_mod_two_pow]
  by_cases hj : j < bits
  · rw [h.1 _ (by omega) (by omega), show pos + bits - 1 - (pos + bits - 1 - j) = j by omega]
  · rw [decide_eq_false hj, Bool.false_and, Bool.false_and]

/-- The octets behind the last field do not matter. -/
theorem Carries.take {buf : List UInt8} {fields : List Field} (h : Carries buf 0 fields) {n : Nat}
    (hn : bitLength fields ≤ 8 * n) : Carries (buf.take n) 0 fields := by
  refine h.congr fun k hk => ?_
  have hlt : k / 8 < n := by omega
  rw [bitAt, bitAt, List.getD_eq_getElem?_getD, List.getD_eq_getElem?_getD,
    List.getElem?_take_of_lt hlt]

end MtkHw.Lib
