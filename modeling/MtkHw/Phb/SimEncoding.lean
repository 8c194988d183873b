import Mathlib.Data.List.Forall2
import Mathlib.Data.Nat.Bitwise
import MtkHw.Phb.Encode

/-!
# The phone book: the encodings 81 and 82 of the SIM

What the loops of `encodeUCS2_0x81` and `encodeUCS2_0x82` compute.  Both turn a character into the
code of the special table, into itself when it is below 128, or into its distance from the base with
the high bit set (`Coded`).  They differ in the base, which the first takes from the first character
that needs one and the second from the least, and so in the names that they accept
(`codes81_isSome_iff`, `codes82_isSome_iff`).
-/

namespace MtkHw.Phb

open Lib

/-! ## Bits -/

section Bits

variable {c k : Nat}

/-- A number and a multiple of 128 differ in the low bits only when the high bits are the same. -/
theorem xor_lt_iff : c ^^^ 128 * k < 0x80 ↔ c / 128 = k := by
  have hdiv := Nat.xor_div_two_pow (a := c) (b := 128 * k) (n := 7)
  rw [show 2 ^ 7 = 128 from rfl, Nat.mul_div_cancel_left k (by decide)] at hdiv
  rw [← Nat.xor_eq_zero_iff, ← hdiv]
  omega

theorem xor_eq_mod (h : c / 128 = k) : c ^^^ 128 * k = c % 128 := by
  have hlt := xor_lt_iff.mpr h
  have hmod := Nat.xor_mod_two_pow (a := c) (b := 128 * k) (n := 7)
  rw [show 2 ^ 7 = 128 from rfl, Nat.mul_mod_right, Nat.xor_zero] at hmod
  omega

theorem or_high (h : c < 0x80) : c ||| 0x80 = 0x80 + c := by
  rw [Nat.or_comm]
  exact (Nat.two_pow_add_eq_or_of_lt (i := 7) h 1).symm

theorem and_mask (c : Nat) : c &&& ucs281Mask = 128 * (c / 128 % 256) := by
  have hdiv := Nat.and_div_two_pow (a := c) (b := ucs281Mask) (n := 7)
  have hmod := Nat.and_mod_two_pow (a := c) (b := ucs281Mask) (n := 7)
  have hbyte := Nat.and_two_pow_sub_one_eq_mod (c / 128) 8
  rw [show ucs281Mask / 2 ^ 7 = 2 ^ 8 - 1 from rfl, show 2 ^ 7 = 128 from rfl, hbyte] at hdiv
  rw [show ucs281Mask % 2 ^ 7 = 0 from rfl, Nat.and_zero, show 2 ^ 7 = 128 from rfl] at hmod
  omega

/-- The highest of sixteen bits. -/
theorem and_high_eq_zero_iff (h : c < 65536) : c &&& 0x8000 = 0 ↔ c < 0x8000 := by
  have hdiv := Nat.and_div_two_pow (a := c) (b := 0x8000) (n := 15)
  have hmod := Nat.and_mod_two_pow (a := c) (b := 0x8000) (n := 15)
  have hbit := Nat.and_two_pow_sub_one_eq_mod (c / 32768) 1
  rw [show 0x8000 / 2 ^ 15 = 2 ^ 1 - 1 from rfl, show 2 ^ 15 = 32768 from rfl, hbit] at hdiv
  rw [show 0x8000 % 2 ^ 15 = 0 from rfl, Nat.and_zero, show 2 ^ 15 = 32768 from rfl] at hmod
  omega

end Bits

/-! ## Characters and codes -/

/-- The character is neither in the special table nor below 128, or it is the back-quote. -/
def needsBase (c : Nat) : Bool := (specialCode c).isNone && !(c < 0x80 && c ≠ 0x60)

/-- The character is in no alphabet of the encodings. -/
def Forbidden (c : Nat) : Prop := specialCode c = none ∧ c < 0x80 ∧ c ≠ 0x60 ∧ c ∈ unsupportedChars

instance (c : Nat) : Decidable (Forbidden c) :=
  inferInstanceAs (Decidable (specialCode c = none ∧ c < 0x80 ∧ c ≠ 0x60 ∧ c ∈ unsupportedChars))

/-- What stands for the character. -/
inductive Coded (base c : Nat) : Nat → Prop where
  | special {code : Nat} (h : specialCode c = some code) : Coded base c code
  | ordinary (h : specialCode c = none) (hlt : c < 0x80) (hne : c ≠ 0x60) : Coded base c c
  | based {low : Nat} (h : needsBase c = true) (hlow : low < 0x80) (heq : c = base + low) :
      Coded base c (0x80 + low)

theorem mem_of_specialCode {c code : Nat} (h : specialCode c = some code) :
    (c, code) ∈ specialEncoding := by
  obtain ⟨entry, hfind, rfl⟩ := Option.map_eq_some_iff.mp h
  have hc := List.find?_some hfind
  rw [decide_eq_true_eq] at hc
  subst hc
  exact List.mem_of_find?_eq_some hfind

/-- The codes of the table are those of the alphabet. -/
theorem specialCode_lt {c code : Nat} (h : specialCode c = some code) : code < 0x80 := by
  have htable : specialEncoding.all (fun entry => entry.2 < 0x80) = true := rfl
  exact of_decide_eq_true (List.all_eq_true.mp htable _ (mem_of_specialCode h))

/-- The characters of the table have fifteen bits. -/
theorem lt_of_specialCode {c code : Nat} (h : specialCode c = some code) : c < 0x8000 := by
  have htable : specialEncoding.all (fun entry => entry.1 < 0x8000) = true := rfl
  exact of_decide_eq_true (List.all_eq_true.mp htable _ (mem_of_specialCode h))

theorem Coded.lt {base c code : Nat} (h : Coded base c code) : code < 0x100 := by
  cases h with
  | special h => exact (specialCode_lt h).trans (by decide)
  | ordinary _ hlt _ => exact Nat.lt_trans hlt (by decide)
  | based _ hlow _ => omega

/-! ## The encoding 81 -/

/-- The base as it can be: not set, or a multiple of 128 of fifteen bits. -/
def IsBase (base : Nat) : Prop := base = noBase ∨ ∃ k < 256, base = 128 * k

theorem ne_noBase {k : Nat} (hk : k < 256) : 128 * k ≠ noBase := by
  rw [noBase]
  omega

/-- What a turn does to a character that it accepts. -/
inductive Turn81 : Nat → Nat → Nat → Nat → Prop where
  | special {base c code : Nat} (h : specialCode c = some code) : Turn81 base c base code
  | ordinary {base c : Nat} (h : specialCode c = none) (hlt : c < 0x80) (hne : c ≠ 0x60)
      (hmem : c ∉ unsupportedChars) : Turn81 base c base c
  | backQuote : Turn81 noBase 0x60 0 0xE0
  | first {c : Nat} (h : specialCode c = none) (hle : 0x80 ≤ c) (hlt : c / 128 < 256) :
      Turn81 noBase c (128 * (c / 128)) (0x80 + c % 128)
  | next {c : Nat} (h : specialCode c = none) (hle : 0x80 ≤ c) (hlt : c / 128 < 256) :
      Turn81 (128 * (c / 128)) c (128 * (c / 128)) (0x80 + c % 128)

section Turn81

variable {base c base' code : Nat}

theorem turn81_of_code81 (hbase : IsBase base) (hc : c < 65536)
    (h : code81 base c = some (base', code)) : Turn81 base c base' code := by
  unfold code81 at h
  split at h
  · cases h
  · rename_i hhigh
    have hhigh := (and_high_eq_zero_iff hc).mp (not_not.mp hhigh)
    split at h
    · rename_i hspecial
      cases h
      exact .special hspecial
    · rename_i hspecial
      split at h
      · rename_i hlt
        split at h
        · cases h
        · rename_i hmem
          split at h
          · rename_i heq
            subst heq
            split at h
            · rename_i hnone
              cases h
              exact hnone ▸ .backQuote
            · cases h
          · rename_i hne
            cases h
            exact .ordinary hspecial hlt hne hmem
      · rename_i hge
        have hle : 0x80 ≤ c := Nat.le_of_not_lt hge
        have hlt : c / 128 < 256 := by omega
        have hmask : c &&& ucs281Mask = 128 * (c / 128) := by
          rw [and_mask, Nat.mod_eq_of_lt hlt]
        by_cases hnone : base = noBase
        · simp only [if_pos hnone, hmask, xor_eq_mod rfl, or_high (Nat.mod_lt c (by decide))] at h
          split at h
          · cases h
          · cases h
            exact hnone ▸ .first hspecial hle hlt
        · obtain ⟨k, hk, rfl⟩ := hbase.resolve_left hnone
          simp only [if_neg hnone] at h
          split at h
          · cases h
          · rename_i hxor
            obtain rfl := xor_lt_iff.mp (Nat.lt_of_not_le hxor)
            rw [xor_eq_mod rfl, or_high (Nat.mod_lt c (by decide))] at h
            cases h
            exact .next hspecial hle hlt

theorem Turn81.code81_eq (h : Turn81 base c base' code) (hc : c < 65536) :
    code81 base c = some (base', code) := by
  have hlow : ∀ c, c % 128 < 0x80 := fun c => Nat.mod_lt c (by decide)
  unfold code81
  cases h with
  | special h =>
    have hhigh := (and_high_eq_zero_iff hc).mpr (lt_of_specialCode h)
    rw [if_neg (not_not.mpr hhigh), h]
  | ordinary h hlt hne hmem =>
    have hhigh := (and_high_eq_zero_iff hc).mpr (by omega)
    rw [if_neg (not_not.mpr hhigh), h]
    simp only [if_pos hlt, if_neg hmem, if_neg hne]
  | backQuote => rfl
  | first h hle hlt =>
    have hhigh := (and_high_eq_zero_iff hc).mpr (by omega)
    have hmask : c &&& ucs281Mask = 128 * (c / 128) := by
      rw [and_mask, Nat.mod_eq_of_lt hlt]
    rw [if_neg (not_not.mpr hhigh), h]
    simp only [if_neg (Nat.not_lt.mpr hle), if_true, hmask, xor_eq_mod rfl, or_high (hlow c),
      if_neg (Nat.not_le.mpr (hlow c))]
  | next h hle hlt =>
    have hhigh := (and_high_eq_zero_iff hc).mpr (by omega)
    rw [if_neg (not_not.mpr hhigh), h]
    simp only [if_neg (Nat.not_lt.mpr hle), if_neg (ne_noBase hlt), xor_eq_mod rfl,
      or_high (hlow c), if_neg (Nat.not_le.mpr (hlow c))]

theorem Turn81.isBase (h : Turn81 base c base' code) (hbase : IsBase base) : IsBase base' := by
  cases h with
  | special _ => exact hbase
  | ordinary _ _ _ _ => exact hbase
  | backQuote => exact .inr ⟨0, by decide, rfl⟩
  | first _ _ hlt => exact .inr ⟨_, hlt, rfl⟩
  | next _ _ _ => exact hbase

/-- A base that is set stays. -/
theorem Turn81.base_eq (h : Turn81 base c base' code) (hne : base ≠ noBase) : base' = base := by
  cases h with
  | special _ => rfl
  | ordinary _ _ _ _ => rfl
  | backQuote => exact absurd rfl hne
  | first _ _ _ => exact absurd rfl hne
  | next _ _ _ => rfl

theorem needsBase_of_le (h : specialCode c = none) (hle : 0x80 ≤ c) : needsBase c = true := by
  have hge : ¬ c < 0x80 := Nat.not_lt.mpr hle
  simp [needsBase, h, hge]

theorem needsBase_eq_false_of_lt (hlt : c < 0x80) (hne : c ≠ 0x60) : needsBase c = false := by
  simp [needsBase, hlt, hne]

theorem needsBase_eq_false_of_special (h : specialCode c = some code) : needsBase c = false := by
  simp [needsBase, h]

theorem filter_needsBase_of_false {cs : List Nat} (h : needsBase c = false) :
    (c :: cs).filter needsBase = cs.filter needsBase := by
  rw [List.filter_cons, h]
  exact if_neg Bool.false_ne_true

/-- A turn codes its character, when the base is the one in the end. -/
theorem Turn81.coded {last : Nat} (h : Turn81 base c base' code)
    (hlast : base' ≠ noBase → last = base') : Coded last c code := by
  cases h with
  | special h => exact .special h
  | ordinary h hlt hne _ => exact .ordinary h hlt hne
  | backQuote =>
    obtain rfl := hlast (ne_noBase (k := 0) (by decide))
    exact .based rfl (show 0x60 < 0x80 by decide) rfl
  | first h hle hlt =>
    obtain rfl := hlast (ne_noBase hlt)
    exact .based (needsBase_of_le h hle) (Nat.mod_lt c (by decide)) (Nat.div_add_mod c 128).symm
  | next h hle hlt =>
    obtain rfl := hlast (ne_noBase hlt)
    exact .based (needsBase_of_le h hle) (Nat.mod_lt c (by decide)) (Nat.div_add_mod c 128).symm

end Turn81

/-- The loop codes the characters with the base in the end. -/
theorem codes81_coded {base base' : Nat} {cs codes : List Nat} (hbase : IsBase base)
    (hcs : ∀ c ∈ cs, c < 65536) (h : codes81 base cs = some (base', codes)) :
    IsBase base' ∧ (base ≠ noBase → base' = base) ∧ List.Forall₂ (Coded base') cs codes := by
  induction cs generalizing base codes with
  | nil =>
    cases h
    exact ⟨hbase, fun _ => rfl, .nil⟩
  | cons c cs ih =>
    obtain ⟨hc, hrest⟩ := List.forall_mem_cons.mp hcs
    simp only [codes81, bind, Option.bind_eq_some_iff] at h
    obtain ⟨⟨base₁, code⟩, hcode, ⟨base₂, codes'⟩, hcodes, heq⟩ := h
    cases heq
    have hturn := turn81_of_code81 hbase hc hcode
    obtain ⟨hisBase, hkeep, hall⟩ := ih (hturn.isBase hbase) hrest hcodes
    refine ⟨hisBase, fun hne => ?_, .cons (hturn.coded hkeep) hall⟩
    have hfirst := hturn.base_eq hne
    rw [hkeep (hfirst ▸ hne), hfirst]

/-- The characters that need a base have the same one, or there is only the back-quote. -/
def OneBase (l : List Nat) : Prop := l = [0x60] ∨ ∀ c ∈ l, 0x80 ≤ c ∧ ∀ d ∈ l, c / 128 = d / 128

instance (l : List Nat) : Decidable (OneBase l) :=
  inferInstanceAs (Decidable (l = [0x60] ∨ ∀ c ∈ l, 0x80 ≤ c ∧ ∀ d ∈ l, c / 128 = d / 128))

/-- The characters have the base, once it is set. -/
def Fits (base : Nat) (l : List Nat) : Prop :=
  if base = noBase then OneBase l else ∀ c ∈ l, 0x80 ≤ c ∧ base = 128 * (c / 128)

theorem fits_of_eq {k : Nat} (hk : k < 256) (l : List Nat) :
    Fits (128 * k) l ↔ ∀ c ∈ l, 0x80 ≤ c ∧ c / 128 = k := by
  rw [Fits, if_neg (ne_noBase hk)]
  refine forall₂_congr fun c _ => and_congr_right fun _ => ?_
  omega

/-- The first character that needs a base sets it. -/
theorem oneBase_cons {c : Nat} (hle : 0x80 ≤ c) (l : List Nat) :
    OneBase (c :: l) ↔ ∀ d ∈ l, 0x80 ≤ d ∧ d / 128 = c / 128 := by
  constructor
  · rintro (heq | hall) d hd
    · obtain rfl := (List.cons.inj heq).1
      exact absurd hle (by decide)
    · obtain ⟨hled, hsame⟩ := hall d (List.mem_cons_of_mem c hd)
      exact ⟨hled, hsame c List.mem_cons_self⟩
  · intro hall
    have hbase : ∀ d ∈ c :: l, 0x80 ≤ d ∧ d / 128 = c / 128 :=
      List.forall_mem_cons.mpr ⟨⟨hle, rfl⟩, hall⟩
    exact .inr fun d hd => ⟨(hbase d hd).1, fun e he => (hbase d hd).2.trans (hbase e he).2.symm⟩

/-- Behind a back-quote no other character may need a base. -/
theorem oneBase_backQuote (l : List Nat) : OneBase (0x60 :: l) ↔ l = [] := by
  constructor
  · rintro (heq | hall)
    · exact (List.cons.inj heq).2
    · exact absurd (hall 0x60 List.mem_cons_self).1 (by decide)
  · rintro rfl
    exact .inl rfl

section Accepted

variable {base c base' code : Nat} {cs : List Nat}

/-- A turn sets the base for the characters behind it. -/
theorem Turn81.fits_iff (h : Turn81 base c base' code) :
    Fits base ((c :: cs).filter needsBase) ↔ Fits base' (cs.filter needsBase) := by
  cases h with
  | special h =>
    rw [filter_needsBase_of_false (needsBase_eq_false_of_special h)]
  | ordinary h hlt hne _ =>
    rw [filter_needsBase_of_false (needsBase_eq_false_of_lt hlt hne)]
  | backQuote =>
    rw [List.filter_cons_of_pos rfl, Fits, if_pos rfl, oneBase_backQuote, Fits,
      if_neg (ne_noBase (k := 0) (by decide)), List.eq_nil_iff_forall_not_mem]
    refine forall_congr' fun d => ⟨fun hd hmem => absurd hmem hd, fun hall hmem => ?_⟩
    have := hall hmem
    omega
  | first h hle hlt =>
    rw [List.filter_cons_of_pos (needsBase_of_le h hle), Fits, if_pos rfl, oneBase_cons hle,
      fits_of_eq hlt]
  | next h hle hlt =>
    rw [List.filter_cons_of_pos (needsBase_of_le h hle), fits_of_eq hlt, fits_of_eq hlt,
      List.forall_mem_cons]
    exact and_iff_right ⟨hle, rfl⟩

theorem Turn81.accepted (h : Turn81 base c base' code) : c < 0x8000 ∧ ¬ Forbidden c := by
  cases h with
  | special h =>
    refine ⟨lt_of_specialCode h, fun hforbidden => ?_⟩
    rw [hforbidden.1] at h
    cases h
  | ordinary _ hlt _ hmem => exact ⟨by omega, fun hforbidden => hmem hforbidden.2.2.2⟩
  | backQuote => exact ⟨by decide, fun hforbidden => hforbidden.2.2.1 rfl⟩
  | first _ hle hlt => exact ⟨by omega, fun hforbidden => absurd hforbidden.2.1 (by omega)⟩
  | next _ hle hlt => exact ⟨by omega, fun hforbidden => absurd hforbidden.2.1 (by omega)⟩

/-- There is a turn for each character that may be accepted. -/
theorem exists_turn81 (hlt : c < 0x8000) (hforbidden : ¬ Forbidden c)
    (hfits : Fits base ((c :: cs).filter needsBase)) : ∃ base' code, Turn81 base c base' code := by
  cases hspecial : specialCode c with
  | some code => exact ⟨base, code, .special hspecial⟩
  | none =>
    have hdiv : c / 128 < 256 := by omega
    by_cases hlow : c < 0x80
    · by_cases heq : c = 0x60
      · subst heq
        rw [List.filter_cons_of_pos rfl] at hfits
        by_cases hnone : base = noBase
        · exact ⟨0, 0xE0, hnone ▸ .backQuote⟩
        · rw [Fits, if_neg hnone] at hfits
          exact absurd (hfits 0x60 List.mem_cons_self).1 (by decide)
      · exact ⟨base, c, .ordinary hspecial hlow heq fun hmem =>
          hforbidden ⟨hspecial, hlow, heq, hmem⟩⟩
    · have hle : 0x80 ≤ c := Nat.le_of_not_lt hlow
      rw [List.filter_cons_of_pos (needsBase_of_le hspecial hle)] at hfits
      by_cases hnone : base = noBase
      · subst hnone
        exact ⟨_, _, .first hspecial hle hdiv⟩
      · rw [Fits, if_neg hnone] at hfits
        obtain rfl := (hfits c List.mem_cons_self).2
        exact ⟨_, _, .next hspecial hle hdiv⟩

end Accepted

/-- The loop gets to the end exactly when every character may be accepted and fits the base. -/
theorem codes81_isSome_iff {base : Nat} {cs : List Nat} (hbase : IsBase base)
    (hcs : ∀ c ∈ cs, c < 65536) :
    (codes81 base cs).isSome ↔
      (∀ c ∈ cs, c < 0x8000 ∧ ¬ Forbidden c) ∧ Fits base (cs.filter needsBase) := by
  induction cs generalizing base with
  | nil =>
    refine iff_of_true rfl ⟨nofun, ?_⟩
    rw [Fits]
    split
    · exact .inr nofun
    · exact nofun
  | cons c cs ih =>
    obtain ⟨hc, hrest⟩ := List.forall_mem_cons.mp hcs
    rw [List.forall_mem_cons]
    cases hcode : code81 base c with
    | none =>
      refine iff_of_false (by simp [codes81, hcode]) ?_
      rintro ⟨⟨⟨hlt, hforbidden⟩, -⟩, hfits⟩
      obtain ⟨base', code, hturn⟩ := exists_turn81 hlt hforbidden hfits
      rw [hturn.code81_eq hc] at hcode
      cases hcode
    | some turn =>
      obtain ⟨base', code⟩ := turn
      have hturn := turn81_of_code81 hbase hc hcode
      have hsome : (codes81 base (c :: cs)).isSome = (codes81 base' cs).isSome := by
        simp only [codes81, hcode, bind, Option.bind_some]
        cases codes81 base' cs with
        | none => rfl
        | some codes => rfl
      rw [hsome, ih (hturn.isBase hbase) hrest, hturn.fits_iff]
      exact ⟨fun h => ⟨⟨hturn.accepted, h.1⟩, h.2⟩, fun h => ⟨h.1.2, h.2⟩⟩

/-! ## The encoding 82 -/

/-- The least and the greatest of the characters, when there are any. -/
def RangeOf (l : List Nat) : Option (Nat × Nat) → Prop
  | none => l = []
  | some (min, max) => min ∈ l ∧ max ∈ l ∧ ∀ c ∈ l, min ≤ c ∧ c ≤ max

/-- A character that needs a base is taken into account. -/
theorem RangeOf.concat {l : List Nat} {range : Option (Nat × Nat)} (h : RangeOf l range) (c : Nat) :
    RangeOf (l ++ [c]) (some (widen range c)) := by
  have hc : c ∈ l ++ [c] := List.mem_append_right l (List.mem_singleton_self c)
  cases range with
  | none =>
    obtain rfl : l = [] := h
    refine ⟨hc, hc, fun d hd => ?_⟩
    rw [List.mem_singleton.mp hd]
    exact ⟨Nat.le_refl c, Nat.le_refl c⟩
  | some range =>
    obtain ⟨min, max⟩ := range
    obtain ⟨hmin, hmax, hall⟩ := h
    have hle : min ≤ max := (hall min hmin).2
    have hmin := List.mem_append_left [c] hmin
    have hmax := List.mem_append_left [c] hmax
    have hsplit : ∀ d ∈ l ++ [c], d = c ∨ min ≤ d ∧ d ≤ max := by
      intro d hd
      rcases List.mem_append.mp hd with hd | hd
      · exact .inr (hall d hd)
      · exact .inl (List.mem_singleton.mp hd)
    rw [widen]
    split
    · refine ⟨hc, hmax, fun d hd => ?_⟩
      rcases hsplit d hd with rfl | hd <;> omega
    · split
      · refine ⟨hmin, hc, fun d hd => ?_⟩
        rcases hsplit d hd with rfl | hd <;> omega
      · refine ⟨hmin, hmax, fun d hd => ?_⟩
        rcases hsplit d hd with rfl | hd <;> omega

/-- The first loop fails at a forbidden character, or finds the range of those that need a base. -/
def Ranged (l cs : List Nat) : Option (Option (Nat × Nat)) → Prop
  | none => ∃ c ∈ cs, Forbidden c
  | some range => (∀ c ∈ cs, ¬ Forbidden c) ∧ RangeOf (l ++ cs.filter needsBase) range

section Ranged

variable {l cs : List Nat} {c : Nat} {result : Option (Option (Nat × Nat))}

theorem Ranged.skip (h : Ranged l cs result) (hneeds : needsBase c = false)
    (hforbidden : ¬ Forbidden c) : Ranged l (c :: cs) result := by
  cases result with
  | none =>
    obtain ⟨d, hd, hd'⟩ := h
    exact ⟨d, List.mem_cons_of_mem c hd, hd'⟩
  | some range =>
    refine ⟨List.forall_mem_cons.mpr ⟨hforbidden, h.1⟩, ?_⟩
    rw [filter_needsBase_of_false hneeds]
    exact h.2

theorem Ranged.take (h : Ranged (l ++ [c]) cs result) (hneeds : needsBase c = true)
    (hforbidden : ¬ Forbidden c) : Ranged l (c :: cs) result := by
  cases result with
  | none =>
    obtain ⟨d, hd, hd'⟩ := h
    exact ⟨d, List.mem_cons_of_mem c hd, hd'⟩
  | some range =>
    refine ⟨List.forall_mem_cons.mpr ⟨hforbidden, h.1⟩, ?_⟩
    rw [List.filter_cons_of_pos hneeds]
    have hrange := h.2
    rwa [List.append_assoc, List.singleton_append] at hrange

theorem not_forbidden_of_special {code : Nat} (h : specialCode c = some code) : ¬ Forbidden c := by
  rintro ⟨hnone, -⟩
  rw [hnone] at h
  cases h

/-- The three kinds of characters: of the table, below 128, and those that need a base. -/
theorem needsBase_of_not_low (h : specialCode c = none) (hlow : ¬ (c < 0x80 ∧ c ≠ 0x60)) :
    needsBase c = true := by
  by_cases hlt : c < 0x80
  · obtain rfl : c = 0x60 := by
      by_contra hne
      exact hlow ⟨hlt, hne⟩
    rfl
  · exact needsBase_of_le h (Nat.le_of_not_lt hlt)

end Ranged

theorem range82_ranged (cs : List Nat) {l : List Nat} {range : Option (Nat × Nat)}
    (h : RangeOf l range) :
    Ranged l cs (range82 range cs) := by
  induction cs generalizing l range with
  | nil => exact ⟨nofun, by rwa [List.filter_nil, List.append_nil]⟩
  | cons c cs ih =>
    cases hspecial : specialCode c with
    | some code =>
      rw [range82, hspecial, if_pos Option.isSome_some]
      exact (ih h).skip (needsBase_eq_false_of_special hspecial) (not_forbidden_of_special hspecial)
    | none =>
      rw [range82, hspecial, if_neg (by exact Bool.false_ne_true)]
      by_cases hlow : c < 0x80 ∧ c ≠ 0x60
      · rw [if_pos hlow]
        by_cases hmem : c ∈ unsupportedChars
        · rw [if_pos hmem]
          exact ⟨c, List.mem_cons_self, hspecial, hlow.1, hlow.2, hmem⟩
        · rw [if_neg hmem]
          exact (ih h).skip (needsBase_eq_false_of_lt hlow.1 hlow.2) fun hf => hmem hf.2.2.2
      · rw [if_neg hlow]
        exact (ih (h.concat c)).take (needsBase_of_not_low hspecial hlow) fun hf =>
          hlow ⟨hf.2.1, hf.2.2.1⟩

/-- The characters that need a base are less than 128 apart. -/
def Close (l : List Nat) : Prop := ∀ c ∈ l, ∀ d ∈ l, c < d + 128

instance (l : List Nat) : Decidable (Close l) :=
  inferInstanceAs (Decidable (∀ c ∈ l, ∀ d ∈ l, c < d + 128))

/-- The second loop codes a character that is not too far from the base. -/
theorem code82_coded {base c : Nat} (hc : c < 65536) (hrange : needsBase c = true →
    base ≤ c ∧ c < base + 128) : Coded base c (code82 base c) := by
  unfold code82
  cases hspecial : specialCode c with
  | some code => exact .special hspecial
  | none =>
    by_cases hlow : c < 0x80 ∧ c ≠ 0x60
    · simp only [if_pos hlow]
      exact .ordinary hspecial hlow.1 hlow.2
    · have hneeds := needsBase_of_not_low hspecial hlow
      obtain ⟨hle, hlt⟩ := hrange hneeds
      obtain ⟨low, rfl⟩ := Nat.exists_eq_add_of_le hle
      have hsub : (base + low + 65536 - base) % 65536 = low := by omega
      simp only [if_neg hlow, hsub, or_high (show low < 0x80 by omega)]
      exact .based hneeds (by omega) rfl

/-- The base is a character of sixteen bits, and the characters are coded with it. -/
theorem codes82_spec {cs : List Nat} (hcs : ∀ c ∈ cs, c < 65536) :
    match codes82 cs with
    | none => (∃ c ∈ cs, Forbidden c) ∨ ¬ Close (cs.filter needsBase)
    | some (base, codes) => base < 65536 ∧ List.Forall₂ (Coded base) cs codes ∧
        (∀ c ∈ cs, ¬ Forbidden c) ∧ Close (cs.filter needsBase) := by
  have hranged := range82_ranged cs (show RangeOf [] none from rfl)
  unfold codes82
  cases hrange : range82 none cs with
  | none =>
    rw [hrange] at hranged
    exact .inl hranged
  | some range =>
    rw [hrange] at hranged
    obtain ⟨hforbidden, hrange⟩ := hranged
    rw [List.nil_append] at hrange
    have hcoded : ∀ base, (∀ c ∈ cs, needsBase c = true → base ≤ c ∧ c < base + 128) →
        List.Forall₂ (Coded base) cs (cs.map (code82 base)) := fun base hbase =>
      List.forall₂_map_right_iff.mpr (List.forall₂_same.mpr fun c hc =>
        code82_coded (hcs c hc) (hbase c hc))
    simp only [bind, Option.bind_some]
    cases range with
    | none =>
      have hnone : cs.filter needsBase = [] := hrange
      refine ⟨by decide, hcoded 0 fun c hc hneeds => ?_, hforbidden, ?_⟩
      · have hmem : c ∈ cs.filter needsBase := List.mem_filter.mpr ⟨hc, hneeds⟩
        rw [hnone] at hmem
        cases hmem
      · rw [hnone]
        exact nofun
    | some range =>
      obtain ⟨min, max⟩ := range
      obtain ⟨hmin, hmax, hall⟩ := hrange
      simp only [Option.getD_some]
      by_cases hfar : 128 ≤ max - min
      · rw [if_pos hfar]
        refine .inr fun hclose => ?_
        have := hclose max hmax min hmin
        omega
      · rw [if_neg hfar]
        refine ⟨hcs min (List.mem_filter.mp hmin).1, hcoded min fun c hc hneeds => ?_, hforbidden,
          fun c hc d hd => ?_⟩
        · have := hall c (List.mem_filter.mpr ⟨hc, hneeds⟩)
          omega
        · have hc := hall c hc
          have hd := hall d hd
          omega

theorem codes82_isSome_iff {cs : List Nat} (hcs : ∀ c ∈ cs, c < 65536) :
    (codes82 cs).isSome ↔ (∀ c ∈ cs, ¬ Forbidden c) ∧ Close (cs.filter needsBase) := by
  have hspec := codes82_spec hcs
  cases hcodes : codes82 cs with
  | none =>
    rw [hcodes] at hspec
    refine iff_of_false Bool.false_ne_true ?_
    rintro ⟨hforbidden, hclose⟩
    rcases hspec with ⟨c, hc, hf⟩ | hfar
    · exact hforbidden c hc hf
    · exact hfar hclose
  | some result =>
    rw [hcodes] at hspec
    exact iff_of_true rfl hspec.2.2

end MtkHw.Phb
