import MtkHw.Meta.UsbRxWatcher

/-!
# Frames of the META host

What the META host sends: frames for modules, with a local and a peer part, and frames for the
modem.  All octets of a frame but the first are escaped.  `outcome` is what is to become of a
frame, and the lemmas of this file follow the decoder through what is sent for one octet.
-/

namespace MtkHw.Meta

open Lib

/-- A frame that the host sends. -/
inductive HostFrame where
  | /-- A request for a module, with its length field. -/
    ap (frmLen : Nat) (localBuf peerBuf : List UInt8)
  | /-- A frame for the modem, whose checksum is for the modem to check. -/
    md (frmType : UInt8) (data : List UInt8) (checksum : UInt8)

namespace HostFrame

/-- The length field. -/
def frmLen : HostFrame → Nat
  | ap frmLen _ _ => frmLen
  | md _ data _ => data.length

/-- The type. -/
def frmType : HostFrame → UInt8
  | ap _ _ _ => RS232_INJECT_APPRIMITIVE_OCTET
  | md frmType _ _ => frmType

/-- What follows the type, without the checksum. -/
def content : HostFrame → List UInt8
  | ap _ localBuf peerBuf =>
      [lo localBuf.length, hi localBuf.length, lo peerBuf.length, hi peerBuf.length] ++
        (localBuf ++ peerBuf)
  | md _ data _ => data

/-- The exclusive or of all octets before the checksum, the start octet with them. -/
def sum (f : HostFrame) : UInt8 :=
  f.content.foldl (· ^^^ ·) (STX_OCTET ^^^ hi f.frmLen ^^^ lo f.frmLen ^^^ f.frmType)

/-- The checksum. -/
def checksum : HostFrame → UInt8
  | f@(ap _ _ _) => f.sum
  | md _ _ checksum => checksum

/-- The octets of a frame after the start octet. -/
def octets (f : HostFrame) : List UInt8 :=
  [hi f.frmLen, lo f.frmLen] ++ f.frmType :: (f.content ++ [f.checksum])

/-- What is sent for a frame. -/
def wire (f : HostFrame) : List UInt8 := STX_OCTET :: f.octets.flatMap (escape STX_OCTET)

/-- The local part of a request starts with its token and its id, and the lengths have 16
bits; a frame for the modem has one of two types. -/
def WellFormed : HostFrame → Prop
  | ap frmLen localBuf peerBuf =>
      4 ≤ localBuf.length ∧ localBuf.length < 65536 ∧ peerBuf.length < 65536 ∧
        frmLen + 5 ≤ FRAME_MAX_LEN
  | md frmType data _ =>
      (frmType = RS232_COMMAND_TYPE_OCTET ∨ frmType = RS232_INJECT_PRIMITIVE_OCTET) ∧
        data.length < 65536

instance : ∀ f : HostFrame, Decidable f.WellFormed
  | ap _ _ _ => inferInstanceAs (Decidable (_ ∧ _ ∧ _ ∧ _))
  | md _ _ _ => inferInstanceAs (Decidable (_ ∧ _))

/-- The token of a local part. -/
def token (localBuf : List UInt8) : Nat := ofOctets (localBuf.getD 1 0) (localBuf.getD 0 0)

/-- The request id of a local part. -/
def requestId (localBuf : List UInt8) : Nat := ofOctets (localBuf.getD 3 0) (localBuf.getD 2 0)

/-- What is to become of a frame: it goes to its module or to the modem, and is discarded
when there is none. -/
def outcome (c : Context) : HostFrame → Frame
  | ap _ localBuf peerBuf =>
      if c.isModule (requestId localBuf) then
        .ap (token localBuf) (requestId localBuf) localBuf peerBuf
      else .invalid
  | f@(md _ _ _) => if c.isModem 0 then .md 0 f.wire else .invalid

theorem wire_ne_nil (f : HostFrame) : f.wire ≠ [] := List.cons_ne_nil _ _

/-- No type is escaped. -/
theorem frmType_not_escaped {f : HostFrame} (hf : f.WellFormed) : ¬ Escaped STX_OCTET f.frmType := by
  cases f with
  | ap =>
    change ¬ Escaped STX_OCTET RS232_INJECT_APPRIMITIVE_OCTET
    decide
  | md frmType =>
    change ¬ Escaped STX_OCTET frmType
    rcases hf.1 with h | h
    · rw [h]
      decide
    · rw [h]
      decide

/-- What is sent, with the type and its neighbours apart. -/
theorem wire_eq {f : HostFrame} (hf : f.WellFormed) :
    f.wire = STX_OCTET :: (escape STX_OCTET (hi f.frmLen) ++ (escape STX_OCTET (lo f.frmLen) ++
      f.frmType :: (f.content ++ [f.checksum]).flatMap (escape STX_OCTET))) := by
  simp only [wire, octets, List.flatMap_append, List.flatMap_cons, List.flatMap_nil,
    escape_of_not_escaped (frmType_not_escaped hf), List.append_nil, List.cons_append,
    List.nil_append]

end HostFrame

/-! ## Single octets -/

theorem incr_of_lt {n len : Nat} (h : n < len) (hlen : len < 65536) : incr n = n + 1 :=
  Nat.mod_eq_of_lt (Nat.lt_of_le_of_lt h hlen)

namespace UsbRxWatcher

variable {c : Context} {w : UsbRxWatcher} {b : UInt8} {src : List UInt8} {k len : Nat}

/-- An octet taken, escaped or not. -/
def taken (w : UsbRxWatcher) (b : UInt8) : UsbRxWatcher :=
  if Escaped STX_OCTET b then { w with m_cOldTstFrameState := w.m_cTstFrameState } else w

/-- The fields that an escape pair leaves alone. -/
structure Same (w w' : UsbRxWatcher) : Prop where
  m_checksum : w'.m_checksum = w.m_checksum
  m_uFrameLength : w'.m_uFrameLength = w.m_uFrameLength
  m_cTstFrameState : w'.m_cTstFrameState = w.m_cTstFrameState
  m_nStartByteLen : w'.m_nStartByteLen = w.m_nStartByteLen
  m_frm_len_byte : w'.m_frm_len_byte = w.m_frm_len_byte
  header : w'.header = w.header
  received : w'.received_buf_para_length = w.received_buf_para_length
  buf : w'.buf = w.buf

theorem same_taken (w : UsbRxWatcher) (b : UInt8) : Same w (w.taken b) := by
  unfold taken
  split
  · constructor <;> rfl
  · constructor <;> rfl

/-- Escapes are seen in the states of a header and of a request. -/
def SeesEscapes (w : UsbRxWatcher) : Prop :=
  w.m_cTstFrameState ≠ .keyword ∧ w.m_cTstFrameState ≠ .mdData

theorem checkEscape_of_ne (hb : b ≠ MUX_KEY_WORD) : w.checkEscape b = none :=
  if_neg fun h => hb h.1

theorem checkEscape_keyWord (hw : w.SeesEscapes) :
    w.checkEscape MUX_KEY_WORD = some
      { w with m_cOldTstFrameState := w.m_cTstFrameState, m_cTstFrameState := .keyword } :=
  if_pos ⟨rfl, hw⟩

/-- A pair stands for its octet. -/
theorem transferFrame_pair {ch : UInt8} (hb : Escaped STX_OCTET b)
    (hch : (ch = 0x01 ∧ b = STX_OCTET) ∨ (ch = MUX_KEY_WORD ∧ b = MUX_KEY_WORD ∧ b ≠ STX_OCTET)) :
    transferFrame
        { w with m_cOldTstFrameState := w.m_cTstFrameState, m_cTstFrameState := .keyword } ch =
      (w.taken b, some b) := by
  rw [transferFrame, if_pos rfl, taken, if_pos hb]
  rcases hch with ⟨rfl, rfl⟩ | ⟨rfl, rfl, -⟩
  · rfl
  · rfl

/-- The loop of `decodeAPFrame` over what is sent for one octet. -/
theorem decodeAPFrame_escape (hw : w.SeesEscapes) (hk : k + (escape STX_OCTET b).length ≤ len)
    (hlen : len < 65536) :
    decodeAPFrame c len w k (escape STX_OCTET b ++ src) =
      match (w.taken b).apTurn c b with
      | .next w' => decodeAPFrame c len w' (k + (escape STX_OCTET b).length) src
      | .done f w' => some ⟨some f, k + (escape STX_OCTET b).length, w'⟩
      | .fault => none := by
  by_cases hb : Escaped STX_OCTET b
  · obtain ⟨ch, hpair, hch⟩ := escape_of_escaped hb
    rw [hpair] at hk ⊢
    have hk2 : k + 2 ≤ len := hk
    have hincr := incr_of_lt (Nat.lt_of_succ_lt (Nat.lt_of_succ_le hk2)) hlen
    have hincr2 := incr_of_lt (Nat.lt_of_succ_le hk2) hlen
    rw [List.cons_append, List.cons_append, List.nil_append, decodeAPFrame, if_neg (by omega),
      if_neg (by decide), checkEscape_keyWord hw]
    dsimp only
    rw [hincr, if_neg (by omega), hincr2, transferFrame_pair hb hch]
    rfl
  · rw [escape_of_not_escaped hb] at hk ⊢
    have hk1 : k + 1 ≤ len := hk
    rw [List.cons_append, List.nil_append, decodeAPFrame, if_neg (by omega),
      if_neg fun h => hb (.inl h), checkEscape_of_ne fun h => hb (.inr h), taken, if_neg hb,
      incr_of_lt hk1 hlen]
    rfl

/-- The loop of `decodeAPFrame` at the end of what is pending. -/
theorem decodeAPFrame_end {half : List UInt8} (hw : w.SeesEscapes)
    (hhalf : half = [] ∨ half = [MUX_KEY_WORD]) (hk : k + half.length = len)
    (hlen : len < 65536) :
    ∃ w', decodeAPFrame c len w k half = some ⟨none, len, w'⟩ := by
  rcases hhalf with rfl | rfl
  · obtain rfl : k = len := hk
    exact ⟨w, if_pos rfl⟩
  · have hk1 : k + 1 = len := hk
    have hincr := incr_of_lt (show k < len by omega) hlen
    rw [decodeAPFrame, if_neg (by omega), if_neg (by decide), checkEscape_keyWord hw]
    dsimp only
    rw [hincr, if_pos hk1, hk1]
    exact ⟨_, rfl⟩

end UsbRxWatcher

end MtkHw.Meta
