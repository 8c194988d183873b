import MtkHw.Meta.PortHandle

/-!
# What the META host gets for a reply

A frame is escaped into a buffer of `FRAME_MAX_LEN` octets.  The loop tests nothing, and the test
at the checksum is one short.  `writeDataToPC_eq` says what becomes of a reply that
`WriteDataToPC` accepts: it is written as a whole if the frame fits with its escapes, and else the
stores go behind the buffer, or the reply is dropped.
-/

namespace MtkHw.Meta.PortHandle

open Lib

/-! ## Escaped frames -/

/-- The exclusive or of some octets. -/
def xorAll (bs : List UInt8) : UInt8 := bs.foldl (· ^^^ ·) 0

/-- The octets as they are sent. -/
def sent (bs : List UInt8) : List UInt8 := bs.flatMap (escape STX_L1_OCTET)

/-- Undo the escapes. -/
def unescape : List UInt8 → Option (List UInt8)
  | [] => some []
  | [b] => if b = MUX_KEY_WORD then none else some [b]
  | b :: c :: bs =>
      if b = MUX_KEY_WORD then
        if c = 0x01 then (unescape bs).map (STX_L1_OCTET :: ·)
        else if c = MUX_KEY_WORD then (unescape bs).map (MUX_KEY_WORD :: ·)
        else none
      else (unescape (c :: bs)).map (b :: ·)

theorem xorAll_concat (bs : List UInt8) (b : UInt8) : xorAll (bs ++ [b]) = xorAll bs ^^^ b := by
  rw [xorAll, List.foldl_append]
  rfl

/-- A checksum makes the exclusive or of all octets zero. -/
theorem xorAll_checksum (bs : List UInt8) : xorAll (bs ++ [xorAll bs]) = 0 := by
  rw [xorAll_concat, UInt8.xor_self]

theorem sent_append (bs cs : List UInt8) : sent (bs ++ cs) = sent bs ++ sent cs :=
  List.flatMap_append

theorem sent_concat (bs : List UInt8) (b : UInt8) :
    sent (bs ++ [b]) = sent bs ++ escape STX_L1_OCTET b := by
  rw [sent_append, sent, sent, List.flatMap_singleton]

/-- Every escape adds an octet. -/
theorem length_sent (bs : List UInt8) :
    (sent bs).length = bs.length + bs.countP (Escaped STX_L1_OCTET ·) := by
  induction bs with
  | nil => rfl
  | cons b bs ih =>
    rw [sent, List.flatMap_cons, List.length_append, length_escape, List.countP_cons,
      List.length_cons]
    change _ + (sent bs).length = _
    rw [ih]
    by_cases hb : Escaped STX_L1_OCTET b
    · rw [if_pos hb, if_pos (decide_eq_true hb)]
      omega
    · rw [if_neg hb, if_neg (by rwa [decide_eq_true_eq])]
      omega

theorem unescape_cons {b : UInt8} (hb : b ≠ MUX_KEY_WORD) (bs : List UInt8) :
    unescape (b :: bs) = (unescape bs).map (b :: ·) := by
  cases bs with
  | nil => exact if_neg hb
  | cons c bs => rw [unescape, if_neg hb]

/-- An octet is got back from what is sent for it. -/
theorem unescape_escape (b : UInt8) (bs : List UInt8) :
    unescape (escape STX_L1_OCTET b ++ bs) = (unescape bs).map (b :: ·) := by
  by_cases hb : Escaped STX_L1_OCTET b
  · obtain ⟨c, hc, ⟨rfl, rfl⟩ | ⟨rfl, rfl, -⟩⟩ := escape_of_escaped hb
    · rw [hc]
      rfl
    · rw [hc]
      rfl
  · rw [escape_of_not_escaped hb]
    exact unescape_cons (fun h => hb (.inr h)) bs

/-- The octets are got back from what is sent for them. -/
theorem unescape_sent (bs : List UInt8) : unescape (sent bs) = some bs := by
  induction bs with
  | nil => rfl
  | cons b bs ih =>
    change unescape (escape STX_L1_OCTET b ++ sent bs) = _
    rw [unescape_escape, ih]
    rfl

/-! ## The loop -/

/-- The octets `bs` have been escaped. -/
structure Copy.Copied (s : Copy) (bs : List UInt8) : Prop where
  dst : s.dst.Holds FRAME_MAX_LEN (sent bs)
  pTempBuf : s.pTempBuf = bs.length
  pTempDstBuf : s.pTempDstBuf = (sent bs).length
  dest_index : s.dest_index = (sent bs).length
  cCheckSum : s.cCheckSum = xorAll bs

/-- How an octet is sent, in the order of the tests. -/
theorem escape_cases (b : UInt8) :
    (b = STX_L1_OCTET ∧ escape STX_L1_OCTET b = [MUX_KEY_WORD, 0x01]) ∨
      (b ≠ STX_L1_OCTET ∧ b = MUX_KEY_WORD ∧
        escape STX_L1_OCTET b = [MUX_KEY_WORD, MUX_KEY_WORD]) ∨
      (b ≠ STX_L1_OCTET ∧ b ≠ MUX_KEY_WORD ∧ escape STX_L1_OCTET b = [b]) := by
  by_cases hstx : b = STX_L1_OCTET
  · exact .inl ⟨hstx, if_pos hstx⟩
  by_cases hkey : b = MUX_KEY_WORD
  · exact .inr (.inl ⟨hstx, hkey, by rw [escape, if_neg hstx, if_pos hkey]⟩)
  · exact .inr (.inr ⟨hstx, hkey, by rw [escape, if_neg hstx, if_neg hkey]⟩)

namespace Copy

variable {s : Copy} {bs cs : List UInt8} {b c : UInt8} {src dst : Block UInt8} {n : Nat}

/-- A pair is stored behind what has been sent, or over the octet there. -/
theorem storePair_spec (h : dst.Holds FRAME_MAX_LEN (bs ++ cs))
    (hroom : bs.length + 2 ≤ FRAME_MAX_LEN) (c : UInt8) :
    ∃ dst', storePair dst bs.length c = some dst' ∧
      dst'.Holds FRAME_MAX_LEN (bs ++ [MUX_KEY_WORD, c]) := by
  obtain ⟨dst₁, hdst₁, h₁⟩ := h.copyIn_append [MUX_KEY_WORD] (Nat.le_of_succ_le hroom)
  have hlength : (bs ++ [MUX_KEY_WORD]).length = bs.length + 1 := List.length_append
  obtain ⟨dst₂, hdst₂, h₂⟩ := h₁.store (hlength ▸ hroom) c
  rw [hlength] at hdst₂
  rw [List.append_assoc] at h₂
  refine ⟨dst₂, ?_, h₂⟩
  rw [storePair, Block.store, hdst₁]
  exact hdst₂

/-- There is no place for a pair at the end of a block. -/
theorem storePair_eq_none (h : dst.size = FRAME_MAX_LEN) (hroom : FRAME_MAX_LEN < n + 2)
    (c : UInt8) : storePair dst n c = none := by
  rw [storePair]
  cases hdst : dst.store n MUX_KEY_WORD with
  | none => rfl
  | some dst₁ =>
    rw [Option.bind_eq_bind, Option.bind_some]
    exact Block.store_eq_none (by rw [Block.size_store hdst, h]; omega) c

/-- The state behind the octet `b`, which has been sent. -/
theorem Copied.concat (h : s.Copied bs) (hdst : dst.Holds FRAME_MAX_LEN (sent (bs ++ [b])))
    (hn : (escape STX_L1_OCTET b).length = n) :
    Copied ⟨dst, s.pTempBuf + 1, s.pTempDstBuf + n, s.dest_index + n, s.cCheckSum ^^^ b⟩
      (bs ++ [b]) := by
  have hlength : (sent (bs ++ [b])).length = (sent bs).length + n := by
    rw [sent_concat, List.length_append, hn]
  refine ⟨hdst, ?_, ?_, ?_, ?_⟩
  · rw [h.pTempBuf, List.length_append]
    rfl
  · rw [hlength, h.pTempDstBuf]
  · rw [hlength, h.dest_index]
  · rw [xorAll_concat, h.cCheckSum]

/-- An octet that fits as a pair. -/
theorem Copied.pair (h : s.Copied bs) (hdst : dst.Holds FRAME_MAX_LEN (sent bs ++ cs))
    (hc : escape STX_L1_OCTET b = [MUX_KEY_WORD, c])
    (hroom : (sent bs).length + 2 ≤ FRAME_MAX_LEN) :
    ∃ s', s.pair dst b c = some s' ∧ s'.Copied (bs ++ [b]) := by
  obtain ⟨dst', hstore, hdst'⟩ := storePair_spec hdst hroom c
  rw [← hc, ← sent_concat] at hdst'
  refine ⟨_, ?_, h.concat hdst' (show (escape STX_L1_OCTET b).length = 2 by rw [hc]; rfl)⟩
  rw [Copy.pair, h.pTempDstBuf, hstore]
  rfl

/-- The octet that the loop takes next. -/
theorem Copied.load (h : s.Copied bs) (hsrc : src.Holds n (bs ++ b :: cs)) :
    src.load s.pTempBuf = some b := by
  rw [h.pTempBuf, hsrc.load (by rw [List.length_append, List.length_cons]; omega),
    List.getElem_append_right (Nat.le_refl _)]
  simp only [Nat.sub_self, List.getElem_cons_zero]

/-- An octet that fits is escaped. -/
theorem Copied.turn (h : s.Copied bs) (hsrc : src.Holds n (bs ++ b :: cs))
    (hroom : (sent (bs ++ [b])).length ≤ FRAME_MAX_LEN) :
    ∃ s', s.turn src = some s' ∧ s'.Copied (bs ++ [b]) := by
  rw [sent_concat, List.length_append] at hroom
  have hone := length_escape_pos STX_L1_OCTET b
  obtain ⟨dst, hstore, hdst⟩ := h.dst.store (by omega) b
  rw [Copy.turn, h.load hsrc, h.pTempDstBuf, Option.bind_eq_bind, Option.bind_some, hstore,
    Option.bind_eq_bind, Option.bind_some]
  rcases escape_cases b with ⟨hstx, henc⟩ | ⟨hstx, hkey, henc⟩ | ⟨hstx, hkey, henc⟩
  · rw [henc] at hroom
    rw [if_pos hstx]
    exact h.pair hdst henc hroom
  · rw [henc] at hroom
    rw [if_neg hstx, if_pos hkey]
    exact h.pair hdst henc hroom
  · rw [if_neg hstx, if_neg hkey, ← h.pTempDstBuf]
    rw [← henc, ← sent_concat] at hdst
    exact ⟨_, rfl, h.concat hdst (show (escape STX_L1_OCTET b).length = 1 by rw [henc]; rfl)⟩

/-- An octet that does not fit is stored behind the buffer. -/
theorem Copied.turn_eq_none (h : s.Copied bs) (hsrc : src.Holds n (bs ++ b :: cs))
    (hroom : FRAME_MAX_LEN < (sent (bs ++ [b])).length) : s.turn src = none := by
  rw [sent_concat, List.length_append] at hroom
  rw [Copy.turn, h.load hsrc, h.pTempDstBuf, Option.bind_eq_bind, Option.bind_some]
  cases hstore : s.dst.store (sent bs).length b with
  | none => rfl
  | some dst =>
    have hsize : dst.size = FRAME_MAX_LEN := (Block.size_store hstore).trans h.dst.size_eq
    have hpair (c : UInt8) (hlt : FRAME_MAX_LEN < (sent bs).length + 2) :
        s.pair dst b c = none := by
      rw [Copy.pair, h.pTempDstBuf, storePair_eq_none hsize hlt]
      rfl
    rw [Option.bind_eq_bind, Option.bind_some]
    rcases escape_cases b with ⟨hstx, henc⟩ | ⟨hstx, hkey, henc⟩ | ⟨-, -, henc⟩
    · rw [henc] at hroom
      rw [if_pos hstx]
      exact hpair _ hroom
    · rw [henc] at hroom
      rw [if_neg hstx, if_pos hkey]
      exact hpair _ hroom
    · -- One octet fits when it has been stored.
      rw [henc, List.length_singleton] at hroom
      rw [Block.store_eq_none (by rw [h.dst.size_eq]; omega)] at hstore
      cases hstore

/-- A part of a frame that fits is escaped. -/
theorem Copied.turns (h : s.Copied bs) (hsrc : src.Holds n (bs ++ cs))
    (hroom : (sent (bs ++ cs)).length ≤ FRAME_MAX_LEN) :
    ∃ s', Copy.turns src cs.length s = some s' ∧ s'.Copied (bs ++ cs) := by
  induction cs generalizing s bs with
  | nil =>
    rw [List.append_nil]
    exact ⟨s, rfl, h⟩
  | cons c cs ih =>
    have happend : bs ++ c :: cs = bs ++ [c] ++ cs := List.append_cons bs c cs
    have hfits : (sent (bs ++ [c])).length ≤ FRAME_MAX_LEN := by
      rw [happend, sent_append, List.length_append] at hroom
      exact Nat.le_of_add_right_le hroom
    obtain ⟨s₁, hturn, h₁⟩ := h.turn hsrc hfits
    rw [happend] at hsrc hroom ⊢
    obtain ⟨s', hturns, h'⟩ := ih h₁ hsrc hroom
    refine ⟨s', ?_, h'⟩
    rw [List.length_cons, Copy.turns, hturn, Option.bind_some, hturns]

/-- A part of a frame that does not fit is stored behind the buffer. -/
theorem Copied.turns_eq_none (h : s.Copied bs) (hsrc : src.Holds n (bs ++ cs))
    (hroom : FRAME_MAX_LEN < (sent (bs ++ cs)).length) : Copy.turns src cs.length s = none := by
  induction cs generalizing s bs with
  | nil =>
    rw [List.append_nil] at hroom
    exact absurd h.dst.length_le (Nat.not_le.mpr hroom)
  | cons c cs ih =>
    have happend : bs ++ c :: cs = bs ++ [c] ++ cs := List.append_cons bs c cs
    rw [List.length_cons, Copy.turns]
    by_cases hfits : (sent (bs ++ [c])).length ≤ FRAME_MAX_LEN
    · obtain ⟨s₁, hturn, h₁⟩ := h.turn hsrc hfits
      rw [happend] at hsrc hroom
      rw [hturn, Option.bind_some, ih h₁ hsrc hroom]
    · rw [h.turn_eq_none hsrc (Nat.not_le.mp hfits)]
      rfl

/-! ## The checksum -/

/-- A checksum that fits as a pair. -/
theorem Copied.checksumPair (h : s.Copied bs) (hroom : (sent bs).length + 2 ≤ FRAME_MAX_LEN)
    (c : UInt8) : s.checksumPair c = some (.written (sent bs ++ [MUX_KEY_WORD, c])) := by
  have hdst := h.dst
  rw [← List.append_nil (sent bs)] at hdst
  obtain ⟨dst, hstore, hdst⟩ := storePair_spec hdst hroom c
  have hlength : (sent bs ++ [MUX_KEY_WORD, c]).length = s.dest_index + 1 + 1 := by
    rw [h.dest_index, List.length_append]
    rfl
  have hread := hdst.copyOut
  rw [hlength] at hread
  rw [Copy.checksumPair, if_neg (by rw [h.dest_index]; omega), h.pTempDstBuf, hstore]
  change write dst (s.dest_index + 1 + 1) = _
  rw [write, hread]
  rfl

/-- A checksum that does not fit as a pair: the reply is dropped when there is no place for one
octet of it. -/
theorem Copied.checksumPair_of_lt (h : s.Copied bs)
    (hroom : FRAME_MAX_LEN < (sent bs).length + 2) (c : UInt8) :
    s.checksumPair c = if (sent bs).length = FRAME_MAX_LEN then some .dropped else none := by
  have hle := h.dst.length_le
  rw [Copy.checksumPair, h.dest_index]
  by_cases hfull : (sent bs).length = FRAME_MAX_LEN
  · rw [if_pos (by omega), if_pos hfull]
  · rw [if_neg (by omega), if_neg hfull, h.pTempDstBuf,
      storePair_eq_none h.dst.size_eq hroom]
    rfl

/-- A frame that fits with its checksum is written. -/
theorem Copied.checksum (h : s.Copied bs)
    (hroom : (sent (bs ++ [xorAll bs])).length ≤ FRAME_MAX_LEN) :
    s.checksum = some (.written (sent (bs ++ [xorAll bs]))) := by
  rw [sent_concat, List.length_append] at hroom
  rw [Copy.checksum, h.cCheckSum, sent_concat]
  rcases escape_cases (xorAll bs) with ⟨hstx, henc⟩ | ⟨hstx, hkey, henc⟩ | ⟨hstx, hkey, henc⟩
  · rw [henc] at hroom ⊢
    rw [if_pos hstx]
    exact h.checksumPair hroom _
  · rw [henc] at hroom ⊢
    rw [if_neg hstx, if_pos hkey]
    exact h.checksumPair hroom _
  · rw [henc] at hroom ⊢
    obtain ⟨dst, hstore, hdst⟩ := h.dst.store hroom (xorAll bs)
    have hread := hdst.copyOut
    rw [List.length_append] at hread
    rw [if_neg hstx, if_neg hkey, h.pTempDstBuf, hstore, h.dest_index]
    change write dst ((sent bs).length + 1) = _
    rw [write, show dst.copyOut 0 ((sent bs).length + 1) = _ from hread]
    rfl

/-- A frame that does not fit with its checksum is not written: the reply is dropped when there
is no place for an octet of an escaped checksum, and stored behind the buffer else. -/
theorem Copied.checksum_of_lt (h : s.Copied bs)
    (hroom : FRAME_MAX_LEN < (sent (bs ++ [xorAll bs])).length) :
    s.checksum =
      if (sent bs).length = FRAME_MAX_LEN ∧ Escaped STX_L1_OCTET (xorAll bs) then some .dropped
      else none := by
  rw [sent_concat, List.length_append] at hroom
  rw [Copy.checksum, h.cCheckSum]
  rcases escape_cases (xorAll bs) with ⟨hstx, henc⟩ | ⟨hstx, hkey, henc⟩ | ⟨hstx, hkey, henc⟩
  · rw [henc] at hroom
    rw [if_pos hstx, h.checksumPair_of_lt hroom]
    simp only [and_iff_left (show Escaped STX_L1_OCTET (xorAll bs) from .inl hstx)]
  · rw [henc] at hroom
    rw [if_neg hstx, if_pos hkey, h.checksumPair_of_lt hroom]
    simp only [and_iff_left (show Escaped STX_L1_OCTET (xorAll bs) from .inr hkey)]
  · rw [henc, List.length_singleton] at hroom
    rw [if_neg hstx, if_neg hkey, if_neg fun hfull => hfull.2.elim hstx hkey, h.pTempDstBuf,
      Block.store_eq_none (by rw [h.dst.size_eq]; omega)]
    rfl

end Copy

end MtkHw.Meta.PortHandle
