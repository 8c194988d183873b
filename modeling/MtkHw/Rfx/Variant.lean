import Mathlib.Data.List.Basic
import Mathlib.Tactic.Common

/-!
# Values of the status tables: `RfxVariant`

A tagged union with a comparison of its own.  The comparison is the equality of
the members, except for `float`, where it is the one of the language: a NaN differs
from itself and the two zeros are equal.  `Same` is equality up to the comparison.
-/

namespace MtkHw.Rfx

/-! ## `float` -/

/-- A `float` is given by its bits. -/
structure Float32Bits where
  bits : UInt32
deriving DecidableEq, Repr

namespace Float32Bits

def isNaN (a : Float32Bits) : Bool :=
  a.bits &&& 0x7F800000 == 0x7F800000 && a.bits &&& 0x007FFFFF != 0

def isZero (a : Float32Bits) : Bool := a.bits &&& 0x7FFFFFFF == 0

/-- `==` on `float`. -/
def eq (a b : Float32Bits) : Bool := !a.isNaN && !b.isNaN && (a == b || a.isZero && b.isZero)

theorem eq_iff {a b : Float32Bits} : a.eq b = true ↔
    a.isNaN = false ∧ b.isNaN = false ∧ (a = b ∨ a.isZero = true ∧ b.isZero = true) := by
  simp [eq, and_assoc]

theorem eq_symm {a b : Float32Bits} (h : a.eq b = true) : b.eq a = true := by
  rw [eq_iff] at h ⊢
  obtain ⟨ha, hb, rfl | ⟨hza, hzb⟩⟩ := h
  · exact ⟨hb, ha, .inl rfl⟩
  · exact ⟨hb, ha, .inr ⟨hzb, hza⟩⟩

theorem eq_trans {a b c : Float32Bits} (h : a.eq b = true) (h' : b.eq c = true) :
    a.eq c = true := by
  rw [eq_iff] at h h' ⊢
  obtain ⟨ha, -, hab⟩ := h
  obtain ⟨-, hc, hbc⟩ := h'
  refine ⟨ha, hc, ?_⟩
  rcases hab with rfl | ⟨hza, hzb⟩
  · exact hbc
  · rcases hbc with rfl | ⟨-, hzc⟩
    · exact .inr ⟨hza, hzb⟩
    · exact .inr ⟨hza, hzc⟩

end Float32Bits

/-! ## Variants -/

/-- `RfxNwServiceState` -/
structure RfxNwServiceState where
  rilVoiceRegState : Int32
  rilDataRegState : Int32
  rilVoiceRadioTech : Int32
  rilDataRadioTech : Int32
deriving DecidableEq, Repr

/-- `RfxCallState` -/
structure RfxCallState where
  callType : Int32
  callState : Int32
  callCount : Int32
deriving DecidableEq, Repr

/-- `RfxVariant` -/
inductive RfxVariant where
  | null
  | bool (value : Bool)
  | int (value : Int32)
  | float (value : Float32Bits)
  | string8 (value : List UInt8)
  | serviceState (value : RfxNwServiceState)
  | callState (value : RfxCallState)
  | charVector (value : List UInt8)
  | int64 (value : Int64)
deriving DecidableEq, Repr

namespace RfxVariant

/-- `isEqualWith`: the types agree, and the values of that type. -/
def isEqualWith : RfxVariant → RfxVariant → Bool
  | null, null => true
  | bool a, bool b => a == b
  | int a, int b => a == b
  | float a, float b => a.eq b
  | string8 a, string8 b => a == b
  | serviceState a, serviceState b => a == b
  | callState a, callState b => a == b
  | charVector a, charVector b => a == b
  | int64 a, int64 b => a == b
  | _, _ => false

/-- Two variants that compare equal are equal, or are `float`s. -/
theorem eq_or_float_of_isEqualWith {v w : RfxVariant} (h : v.isEqualWith w = true) :
    v = w ∨ ∃ a b, v = float a ∧ w = float b ∧ a.eq b = true := by
  cases v <;> cases w <;> first
    | exact .inl rfl
    | exact .inr ⟨_, _, rfl, rfl, h⟩
    | cases h
    | (left; simpa [isEqualWith] using h)

/-- The same value, as far as a comparison can tell. -/
def Same (v w : RfxVariant) : Prop := v = w ∨ v.isEqualWith w = true

instance (v w : RfxVariant) : Decidable (Same v w) := inferInstanceAs (Decidable (_ ∨ _))

theorem Same.refl (v : RfxVariant) : Same v v := .inl rfl

/-- Variants are the same when they are equal, or are equal `float`s. -/
theorem same_iff {v w : RfxVariant} :
    Same v w ↔ v = w ∨ ∃ a b, v = float a ∧ w = float b ∧ a.eq b = true := by
  constructor
  · rintro (rfl | h)
    · exact .inl rfl
    · exact eq_or_float_of_isEqualWith h
  · rintro (rfl | ⟨a, b, rfl, rfl, h⟩)
    · exact .inl rfl
    · exact .inr h

theorem Same.symm {v w : RfxVariant} (h : Same v w) : Same w v := by
  rw [same_iff] at h ⊢
  rcases h with rfl | ⟨a, b, rfl, rfl, h⟩
  · exact .inl rfl
  · exact .inr ⟨b, a, rfl, rfl, Float32Bits.eq_symm h⟩

theorem Same.trans {u v w : RfxVariant} (h : Same u v) (h' : Same v w) : Same u w := by
  rw [same_iff] at h h'
  rcases h with rfl | ⟨a, b, rfl, rfl, h⟩
  · exact same_iff.mpr h'
  · rcases h' with rfl | ⟨b', c, hb, rfl, h'⟩
    · exact .inr h
    · cases hb
      exact .inr (Float32Bits.eq_trans h h')

/-- `Same` is an equivalence, so a comparison may be carried over. -/
theorem Same.congr {v v' w w' : RfxVariant} (hv : Same v v') (hw : Same w w') :
    Same v w ↔ Same v' w' :=
  ⟨fun h => (hv.symm.trans h).trans hw, fun h => (hv.trans h).trans hw.symm⟩

/-- The type is not `DATA_TYPE_NULL`: the value is used instead of a default. -/
def getD (v default : RfxVariant) : RfxVariant :=
  match v with
  | null => default
  | v => v

theorem getD_self (v : RfxVariant) : v.getD v = v := by cases v <;> rfl

theorem Same.getD {v w : RfxVariant} (h : Same v w) (default : RfxVariant) :
    Same (v.getD default) (w.getD default) := by
  rcases same_iff.mp h with rfl | ⟨a, b, rfl, rfl, -⟩
  · exact .refl _
  · exact h

end RfxVariant

end MtkHw.Rfx
