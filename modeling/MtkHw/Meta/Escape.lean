import MtkHw.Lib.Framing

/-!
# The octets of META links

The constants of `MetaPub.h`, and the escape table of the links: the octet that starts a frame
and the key word are sent as pairs that start with the key word.  A frame of the META host
starts with `0x55`; the replies and the confirms of a modem are escaped for `0xA5` also.
-/

namespace MtkHw.Meta

open Lib

/-- Start of a frame. -/
def STX_OCTET : UInt8 := 0x55

/-- Start of a frame of layer 1. -/
def STX_L1_OCTET : UInt8 := 0xA5

/-- Start of an escape pair. -/
def MUX_KEY_WORD : UInt8 := 0x5A

/-- A frame is no longer than this. -/
def FRAME_MAX_LEN : Nat := 1024 * 64

/-! ## Escape pairs -/

/-- How an octet is sent, where `stx` starts a frame. -/
def escape (stx b : UInt8) : List UInt8 :=
  if b = stx then [MUX_KEY_WORD, 0x01]
  else if b = MUX_KEY_WORD then [MUX_KEY_WORD, MUX_KEY_WORD] else [b]

/-- The octets that are sent as pairs. -/
def Escaped (stx b : UInt8) : Prop := b = stx ∨ b = MUX_KEY_WORD

instance (stx b : UInt8) : Decidable (Escaped stx b) := inferInstanceAs (Decidable (_ ∨ _))

variable {stx b : UInt8}

theorem escape_of_not_escaped (h : ¬ Escaped stx b) : escape stx b = [b] := by
  rw [escape, if_neg fun hb => h (.inl hb), if_neg fun hb => h (.inr hb)]

/-- An escape pair, and the octet that it stands for. -/
theorem escape_of_escaped (h : Escaped stx b) :
    ∃ c, escape stx b = [MUX_KEY_WORD, c] ∧
      ((c = 0x01 ∧ b = stx) ∨ (c = MUX_KEY_WORD ∧ b = MUX_KEY_WORD ∧ b ≠ stx)) := by
  unfold escape
  split
  · exact ⟨0x01, rfl, .inl ⟨rfl, by assumption⟩⟩
  · rename_i hstx
    obtain hb := h.resolve_left hstx
    exact ⟨MUX_KEY_WORD, if_pos hb, .inr ⟨rfl, hb, hstx⟩⟩

theorem escape_ne_nil (stx b : UInt8) : escape stx b ≠ [] := by
  unfold escape
  split
  · exact List.cons_ne_nil _ _
  · split <;> exact List.cons_ne_nil _ _

theorem length_escape_pos (stx b : UInt8) : 0 < (escape stx b).length :=
  List.length_pos_iff.mpr (escape_ne_nil stx b)

theorem length_escape (stx b : UInt8) :
    (escape stx b).length = if Escaped stx b then 2 else 1 := by
  split
  · rename_i h
    obtain ⟨c, hc, -⟩ := escape_of_escaped h
    rw [hc]
    rfl
  · rename_i h
    rw [escape_of_not_escaped h]
    rfl

theorem length_escape_le (stx b : UInt8) : (escape stx b).length ≤ 2 := by
  rw [length_escape]
  split <;> decide

/-- A part of what is sent for an octet is nothing or the key word. -/
theorem begins_escape {tail bs : List UInt8} (h : Begins (escape stx) tail bs) :
    tail = [] ∨ tail = [MUX_KEY_WORD] := by
  cases bs with
  | nil => exact .inl h
  | cons b bs =>
    obtain ⟨hsub, hlt⟩ := h
    by_cases hb : Escaped stx b
    · obtain ⟨c, hc, -⟩ := escape_of_escaped hb
      rw [hc] at hsub hlt
      cases tail with
      | nil => exact .inl rfl
      | cons d tail =>
        obtain ⟨rfl, -⟩ := List.cons_prefix_cons.mp hsub
        obtain rfl := List.eq_nil_of_length_eq_zero (Nat.lt_one_iff.mp (Nat.lt_of_succ_lt_succ hlt))
        exact .inr rfl
    · rw [escape_of_not_escaped hb] at hlt
      exact .inl (List.eq_nil_of_length_eq_zero (Nat.lt_one_iff.mp hlt))

/-- No octet is sent as the key word alone. -/
theorem escape_append_ne (b : UInt8) (x : List UInt8) : escape stx b ++ x ≠ [MUX_KEY_WORD] := by
  intro h
  by_cases hb : Escaped stx b
  · obtain ⟨c, hc, -⟩ := escape_of_escaped hb
    rw [hc] at h
    cases h
  · rw [escape_of_not_escaped hb] at h
    exact hb (.inr (List.cons.inj h).1)

/-- What is sent for an octet tells where it ends. -/
theorem escape_append_inj {a : UInt8} {x y : List UInt8}
    (h : escape stx a ++ x = escape stx b ++ y) : x = y := by
  by_cases ha : Escaped stx a
  · obtain ⟨c, hc, -⟩ := escape_of_escaped ha
    rw [hc] at h
    by_cases hb : Escaped stx b
    · obtain ⟨d, hd, -⟩ := escape_of_escaped hb
      rw [hd] at h
      exact (List.cons.inj (List.cons.inj h).2).2
    · rw [escape_of_not_escaped hb] at h
      exact absurd (.inr (List.cons.inj h).1.symm) hb
  · rw [escape_of_not_escaped ha] at h
    by_cases hb : Escaped stx b
    · obtain ⟨d, hd, -⟩ := escape_of_escaped hb
      rw [hd] at h
      exact absurd (.inr (List.cons.inj h).1) ha
    · rw [escape_of_not_escaped hb] at h
      exact (List.cons.inj h).2

/-- What is sent for an octet tells the octet. -/
theorem eq_of_escape_append {a : UInt8} {x y : List UInt8}
    (h : escape stx a ++ x = escape stx b ++ y) : a = b := by
  obtain rfl := escape_append_inj h
  have henc := List.append_cancel_right h
  by_cases ha : Escaped stx a
  · by_cases hb : Escaped stx b
    · obtain ⟨c, hc, hca⟩ := escape_of_escaped ha
      obtain ⟨d, hd, hdb⟩ := escape_of_escaped hb
      rw [hc, hd] at henc
      obtain rfl : c = d := (List.cons.inj (List.cons.inj henc).2).1
      rcases hca with ⟨rfl, rfl⟩ | ⟨rfl, rfl, -⟩
      · exact (hdb.resolve_right fun h => absurd h.1 (by decide)).2.symm
      · exact (hdb.resolve_left fun h => absurd h.1 (by decide)).2.1.symm
    · obtain ⟨c, hc, -⟩ := escape_of_escaped ha
      rw [hc, escape_of_not_escaped hb] at henc
      cases (List.cons.inj henc).2
  · by_cases hb : Escaped stx b
    · obtain ⟨d, hd, -⟩ := escape_of_escaped hb
      rw [hd, escape_of_not_escaped ha] at henc
      cases (List.cons.inj henc).2
    · rw [escape_of_not_escaped ha, escape_of_not_escaped hb] at henc
      exact (List.cons.inj henc).1

/-! ## Two octets for a number -/

/-- The high octet of a number of 16 bits. -/
def hi (n : Nat) : UInt8 := UInt8.ofNat (n / 256)

/-- The low octet of a number. -/
def lo (n : Nat) : UInt8 := UInt8.ofNat n

/-- The number that two octets stand for. -/
def ofOctets (high low : UInt8) : Nat := high.toNat * 256 + low.toNat

theorem ofOctets_hi_lo {n : Nat} (h : n < 65536) : ofOctets (hi n) (lo n) = n := by
  rw [ofOctets, hi, lo, UInt8.toNat_ofNat', UInt8.toNat_ofNat']
  omega

end MtkHw.Meta
