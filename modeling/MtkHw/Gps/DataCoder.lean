import Mathlib.Algebra.Group.Nat.Defs
import MtkHw.Lib.Cursor

/-!
# The fields of a message

What the data coder writes into a buffer and reads from it.  Words are written in two halves, the
lower one first; a text has a byte before it that says whether there is one, and its length with
the final zero.  The words of `float` and `double` are their bits.

A writer is what it appends; that it stays inside the buffer is a matter of the whole message.
-/

namespace MtkHw.Gps

open Lib

/-! ## Writing -/

def putByte (input : Octet) : List Octet := [input]

def putShort (input : BitVec 16) : List Octet :=
  putByte ((input &&& 0xff).setWidth 8) ++ putByte ((input.sshiftRight 8 &&& 0xff).setWidth 8)

def putInt (input : BitVec 32) : List Octet :=
  putShort ((input &&& 0xffff).setWidth 16) ++
    putShort ((input.sshiftRight 16 &&& 0xffff).setWidth 16)

def putLong (input : BitVec 64) : List Octet :=
  putInt ((input &&& 0xffffffff).setWidth 32) ++
    putInt ((input.sshiftRight 32 &&& 0xffffffff).setWidth 32)

def putFloat (input : BitVec 32) : List Octet := putInt input

def putDouble (input : BitVec 64) : List Octet := putLong input

def putString : Option (List Octet) → List Octet
  | none => putByte 0
  | some input => putByte 1 ++ (putInt (.ofNat 32 (input.length + 1)) ++ (input ++ [0]))

def putBinary (input : List Octet) (len : BitVec 32) : List Octet :=
  putInt len ++ if 0 < len.toInt then input.take len.toInt.toNat else []

/-! ## Reading -/

def getByte : Reader Octet := Reader.next

def getShort : Reader (BitVec 16) := do
  let low ← getByte
  let high ← getByte
  return low.setWidth 16 &&& 0xff ||| high.setWidth 16 <<< 8

def getInt : Reader (BitVec 32) := do
  let low ← getShort
  let high ← getShort
  return low.setWidth 32 &&& 0xffff ||| high.setWidth 32 <<< 16

def getLong : Reader (BitVec 64) := do
  let low ← getInt
  let high ← getInt
  return low.setWidth 64 &&& 0xffffffff ||| high.setWidth 64 <<< 32

def getFloat : Reader (BitVec 32) := getInt

def getDouble : Reader (BitVec 64) := getLong

/-- The text is read where the pointer that is returned points to. -/
def getString : Reader (Option (List Octet)) := do
  let ret ← getByte
  if ret = 0 then return none
  else
    let len ← getInt
    let p ← Reader.text
    Reader.skip len.toInt
    return some p

/-- The octets that are copied to an output of `size` octets, and the length. -/
def getBinary (size : Nat) : Reader (List Octet × BitVec 32) := do
  let len ← getInt
  if 0 < len.toInt then
    let output ← Reader.copy len.toInt.toNat size
    Reader.skip len.toInt
    return (output, len)
  else return ([], len)

/-! ## What is written is read back -/

theorem reads_getByte (x : Octet) : Reads getByte (putByte x) x := .next x

/-- A word in two halves, each of which is read back. -/
theorem reads_halves {w v : Nat} {r : Reader (BitVec w)} {put : BitVec w → List Octet}
    (h : ∀ x, Reads r (put x) x) (hv : v = w + w) {mask : BitVec v}
    (hmask : mask = (BitVec.allOnes w).setWidth v) (x : BitVec v) :
    Reads (do let low ← r; let high ← r; return low.setWidth v &&& mask ||| high.setWidth v <<< w)
      (put ((x &&& mask).setWidth w) ++ put ((x.sshiftRight w &&& mask).setWidth w)) x := by
  have hand (y : BitVec v) : (y &&& mask).setWidth w = y.setWidth w := by
    rw [hmask, BitVec.setWidth_and, BitVec.setWidth_setWidth_of_le _ (by omega), BitVec.setWidth_eq,
      BitVec.and_allOnes]
  have hlow (y : BitVec w) : y.setWidth v &&& mask = y.setWidth v := by
    rw [hmask, ← BitVec.setWidth_and, BitVec.and_allOnes]
  rw [hand, hand]
  refine (h (x.setWidth w)).bind ?_
  have hhigh := (h ((x.sshiftRight w).setWidth w)).map fun high =>
    (x.setWidth w).setWidth v ||| high.setWidth v <<< w
  rw [join_halves hv] at hhigh
  simp only [hlow]
  exact hhigh

theorem reads_getShort (x : BitVec 16) : Reads getShort (putShort x) x :=
  reads_halves reads_getByte rfl rfl x

theorem reads_getInt (x : BitVec 32) : Reads getInt (putInt x) x :=
  reads_halves reads_getShort rfl rfl x

theorem reads_getLong (x : BitVec 64) : Reads getLong (putLong x) x :=
  reads_halves reads_getInt rfl rfl x

/-- A text that the program can have: no zero inside, and a length that is an `int`. -/
def CText (text : Option (List Octet)) : Prop :=
  ∀ txt ∈ text, 0 ∉ txt ∧ txt.length + 1 < 2 ^ 31

theorem toInt_ofNat_length {n : Nat} (h : n < 2 ^ 31) : (BitVec.ofNat 32 n).toInt = n := by
  rw [BitVec.toInt_ofNat']
  exact Int.bmod_eq_of_le (by omega) (by omega)

theorem reads_getString {text : Option (List Octet)} (h : CText text) :
    Reads getString (putString text) text := by
  cases text with
  | none => exact (reads_getByte 0).bind (.pure none)
  | some txt =>
    obtain ⟨hzero, hlen⟩ := h txt rfl
    refine (reads_getByte 1).bind ?_
    refine (reads_getInt (.ofNat 32 (txt.length + 1))).bind (.text hzero ?_ some)
    rw [toInt_ofNat_length hlen]
    push_cast
    rfl

/-- A memory with as many octets as its length says. -/
def Exact (input : List Octet) (len : BitVec 32) : Prop := input.length = len.toInt.toNat

theorem putBinary_of_exact {input : List Octet} {len : BitVec 32} (h : Exact input len) :
    putBinary input len = putInt len ++ input := by
  rw [putBinary]
  split
  · rw [← h, List.take_length]
  · rw [List.length_eq_zero_iff.mp (h.trans (by omega))]

/-- A memory is read back when it fits the output. -/
theorem reads_getBinary {input : List Octet} {len : BitVec 32} (h : Exact input len) {size : Nat}
    (hsize : input.length ≤ size) :
    Reads (getBinary size) (putBinary input len) (input, len) := by
  rw [putBinary_of_exact h]
  refine (reads_getInt len).bind ?_
  split
  · exact .copy (by rw [h]; omega) hsize fun output => (output, len)
  · rw [List.length_eq_zero_iff.mp (h.trans (by omega))]
    exact .pure _

/-- An output that is too small is overrun. -/
theorem overruns_getBinary {input : List Octet} {len : BitVec 32} (h : Exact input len) {size : Nat}
    (hsize : size < input.length) : Overruns (getBinary size) (putBinary input len) := by
  have hpos : 0 < len.toInt := by
    rw [Exact] at h
    omega
  rw [putBinary_of_exact h]
  refine (reads_getInt len).bind_overruns ?_
  rw [if_pos hpos, ← h]
  refine Overruns.bind (fun before after => ?_) _
  rw [Reader.copy, if_neg fun hfit => absurd hfit.1 (Nat.not_le_of_lt hsize)]

end MtkHw.Gps
