import MtkHw.Meta.ReplyFrame

/-!
# Replies that reach the META host

A reply is to be written to the port as a frame: its length field is right, the data are those of
the module, and the exclusive or of the frame is zero.  `writeDataToPC_eq` says what becomes of a
reply that `WriteDataToPC` accepts, and `replied_iff` that it is written as a frame if and only if
the frame fits into `FRAME_MAX_LEN` octets together with its escapes.
-/

namespace MtkHw.Meta.PortHandle

open Lib

variable {src dst : Nat → UInt8} {ds bs : List UInt8}

/-! ## Frames in their buffers -/

/-- What becomes of the octets of a frame without its checksum. -/
def result (bs : List UInt8) : Option Reply :=
  if (sent (bs ++ [xorAll bs])).length ≤ FRAME_MAX_LEN then
    some (.written (sent (bs ++ [xorAll bs])))
  else if (sent bs).length = FRAME_MAX_LEN ∧ Escaped STX_L1_OCTET (xorAll bs) then
    some .dropped
  else none

/-- The loop and the checksum, on a frame in its buffer. -/
theorem turns_checksum_eq {b : Block UInt8} {n : Nat} (hb : b.Holds n bs) :
    (Copy.turns b bs.length ⟨⟨dst, FRAME_MAX_LEN⟩, 0, 0, 0, 0⟩).bind Copy.checksum =
      result bs := by
  have hstart : Copy.Copied ⟨⟨dst, FRAME_MAX_LEN⟩, 0, 0, 0, 0⟩ [] :=
    ⟨Block.holds_nil dst FRAME_MAX_LEN, rfl, rfl, rfl, rfl⟩
  rw [result]
  by_cases hloop : (sent bs).length ≤ FRAME_MAX_LEN
  · obtain ⟨s, hturns, hcopied⟩ := hstart.turns hb hloop
    rw [List.nil_append] at hcopied
    rw [hturns, Option.bind_some]
    by_cases hfits : (sent (bs ++ [xorAll bs])).length ≤ FRAME_MAX_LEN
    · rw [if_pos hfits, hcopied.checksum hfits]
    · rw [if_neg hfits, hcopied.checksum_of_lt (Nat.not_le.mp hfits)]
  · have hlong : ¬ (sent (bs ++ [xorAll bs])).length ≤ FRAME_MAX_LEN := by
      rw [sent_append, List.length_append]
      exact fun hle => hloop (Nat.le_of_add_right_le hle)
    rw [hstart.turns_eq_none hb (Nat.not_le.mp hloop), if_neg hlong,
      if_neg fun hfull => hloop (Nat.le_of_eq hfull.1)]
    rfl

/-- What `FTMuxPrimitiveData` does with data that are as long as it is told. -/
theorem fTMuxPrimitiveData_eq {m : META_RX_DATA} {n : Nat} (hdata : m.pData.Holds n ds)
    (hlength : m.LocalLen.toNat + m.PeerLen.toNat = ds.length)
    (hmax : ds.length + 9 ≤ FRAME_MAX_LEN) :
    FTMuxPrimitiveData src dst m = result (header m.LocalLen m.PeerLen ++ ds) := by
  obtain ⟨src₁, hsrc₁, h₁⟩ :=
    (Block.holds_nil src (ds.length + 9)).copyIn (header m.LocalLen m.PeerLen)
      (show 0 + 8 ≤ ds.length + 9 by omega)
  obtain ⟨src₂, hsrc₂, h₂⟩ :=
    h₁.copyIn ds (show 8 + ds.length ≤ ds.length + 9 by omega)
  have hturns : ds.length + 9 - 1 = (header m.LocalLen m.PeerLen ++ ds).length := by
    rw [List.length_append, show (header m.LocalLen m.PeerLen).length = 8 from rfl]
    omega
  rw [FTMuxPrimitiveData, hlength, if_neg (Nat.not_lt.mpr hmax), hdata.copyOut]
  change ((Block.mk src (ds.length + 9)).copyIn 0 _).bind _ = _
  rw [show (Block.mk src (ds.length + 9)).copyIn 0 _ = _ from hsrc₁, Option.bind_some]
  change (src₁.copyIn 8 ds).bind _ = _
  rw [show src₁.copyIn 8 ds = _ from hsrc₂, Option.bind_some, hturns]
  exact turns_checksum_eq h₂

/-! ## The parts of a reply -/

namespace Parts

variable {p : Parts}

/-- The peer part, with the space for its header. -/
def peerData (p : Parts) : List UInt8 :=
  if p.Peer_len = 0 then []
  else List.replicate PEER_HEADER_LEN 0 ++ p.Peer_buf.getD (List.replicate p.Peer_len.toNat 0)

/-- The data of a reply. -/
def data (p : Parts) : List UInt8 := p.Local_buf.getD [] ++ p.peerData

/-- The length of the peer part, as the frame has it. -/
def PeerLen (p : Parts) : UInt16 := if p.Peer_len > 0 then p.Peer_len + 8 else p.Peer_len

/-- The octets of the frame, without the checksum. -/
def body (p : Parts) : List UInt8 := header p.Local_len p.PeerLen ++ p.data

/-- The octets of the frame. -/
def frame (p : Parts) : List UInt8 := p.body ++ [xorAll p.body]

theorem length_getD_peer (p : Parts) :
    (p.Peer_buf.getD (List.replicate p.Peer_len.toNat 0)).length = p.Peer_len.toNat := by
  cases hbuf : p.Peer_buf with
  | none => exact List.length_replicate
  | some bs => exact p.length_peer bs hbuf

/-- No length overflows. -/
theorem toNat_PeerLen (h : p.Accepted) : p.PeerLen.toNat = p.peerData.length := by
  have hle : p.Peer_len.toNat ≤ PEER_BUF_MAX_LEN := Nat.not_lt.mp fun hlt => h.1 (.inr hlt)
  unfold PeerLen peerData
  by_cases hzero : p.Peer_len = 0
  · rw [hzero]
    rfl
  · have hpos : p.Peer_len > 0 := UInt16.pos_iff_ne_zero.mpr hzero
    rw [if_pos hpos, if_neg hzero, List.length_append, List.length_replicate, length_getD_peer,
      UInt16.toNat_add]
    change (p.Peer_len.toNat + 8) % 65536 = 8 + p.Peer_len.toNat
    rw [PEER_BUF_MAX_LEN] at hle
    omega

theorem length_data (h : p.Accepted) :
    p.Local_len.toNat + p.PeerLen.toNat = p.data.length := by
  rw [data, List.length_append, p.length_local, toNat_PeerLen h]

/-- A reply that is accepted has room in a frame, without its escapes. -/
theorem length_data_le (h : p.Accepted) : p.data.length + 9 ≤ FRAME_MAX_LEN := by
  have hle : p.Local_len.toNat + p.Peer_len.toNat ≤ FT_MAX_LEN :=
    Nat.not_lt.mp fun hlt => h.1 (.inl hlt)
  have hpeer : p.peerData.length ≤ p.Peer_len.toNat + 8 := by
    unfold peerData
    split
    · exact Nat.zero_le _
    · rw [List.length_append, List.length_replicate, length_getD_peer, Nat.add_comm]
      exact Nat.le_refl _
  rw [data, List.length_append, p.length_local]
  rw [FT_MAX_LEN, FRAME_MAX_LEN, PEER_HEADER_LEN] at hle
  rw [FRAME_MAX_LEN]
  omega

/-- The buffer of `WriteDataToPC` starts with the data, when both parts are copied. -/
theorem copy_spec (p : Parts) :
    ∃ rest b b',
      (Block.mk (fun _ => 0) (p.Local_len.toNat + p.Peer_len.toNat + 8 + 1)).copyIn 0
        (p.Local_buf.getD []) = some b ∧
      p.copyPeer b = some b' ∧
      b'.Holds (p.Local_len.toNat + p.Peer_len.toNat + 8 + 1) (p.data ++ rest) := by
  let zeros (n : Nat) : List UInt8 := List.replicate n 0
  have hzeros : (Block.mk (fun _ => 0) (p.Local_len.toNat + p.Peer_len.toNat + 8 + 1)).Holds
      (p.Local_len.toNat + p.Peer_len.toNat + 8 + 1)
      ([] ++ (zeros p.Local_len.toNat ++ (zeros 8 ++ (zeros p.Peer_len.toNat ++ zeros 1)))) := by
    rw [List.nil_append, List.replicate_append_replicate, List.replicate_append_replicate,
      List.replicate_append_replicate,
      show p.Local_len.toNat + (8 + (p.Peer_len.toNat + 1)) =
        p.Local_len.toNat + p.Peer_len.toNat + 8 + 1 by omega]
    exact Block.holds_replicate _ 0
  obtain ⟨b, hb, hlocal⟩ := hzeros.copyIn_over (p.Local_buf.getD [])
    (by rw [p.length_local, List.length_replicate])
  rw [List.nil_append] at hlocal
  unfold data peerData copyPeer
  by_cases hzero : p.Peer_len = 0
  · refine ⟨zeros 8 ++ (zeros p.Peer_len.toNat ++ zeros 1), b, b, hb, ?_, ?_⟩
    · cases p.Peer_buf with
      | none => rfl
      | some bs => exact if_neg (by rw [hzero]; decide)
    · rw [if_pos hzero, List.append_nil]
      exact hlocal
  rw [if_neg hzero]
  cases hbuf : p.Peer_buf with
  | none =>
    refine ⟨zeros 1, b, b, hb, rfl, ?_⟩
    rw [Option.getD_none, List.append_assoc, List.append_assoc]
    exact hlocal
  | some bs =>
    rw [← List.append_assoc] at hlocal
    obtain ⟨b', hb', hpeer⟩ := hlocal.copyIn_over bs
      (by rw [p.length_peer bs hbuf, List.length_replicate])
    rw [List.length_append, p.length_local, List.length_replicate] at hb'
    refine ⟨zeros 1, b, b', hb, (if_pos (UInt16.pos_iff_ne_zero.mpr hzero)).trans hb', ?_⟩
    rw [Option.getD_some, List.append_assoc]
    rw [List.append_assoc] at hpeer ⊢
    exact hpeer

/-- What becomes of a reply that is accepted. -/
theorem writeDataToPC_eq (src dst : Nat → UInt8) (h : p.Accepted) :
    WriteDataToPC src dst p = result p.body := by
  obtain ⟨rest, b, b', hb, hb', hholds⟩ := p.copy_spec
  rw [WriteDataToPC, if_pos h, hb, Option.bind_eq_bind, Option.bind_some, hb', Option.bind_some]
  exact fTMuxPrimitiveData_eq hholds.of_append (length_data h) (length_data_le h)

end Parts

/-! ## Frames that are got back -/

/-- A frame for a local part and a peer part of some lengths: `0x55`, the length with its high
octet first, `0x60`, the two lengths with their low octets first, the data and the checksum. -/
def IsReply (localLen peerLen : Nat) (ds frame : List UInt8) : Prop :=
  ∃ high low l₀ l₁ p₀ p₁ checksum,
    frame = 0x55 :: high :: low :: 0x60 :: l₀ :: l₁ :: p₀ :: p₁ :: (ds ++ [checksum]) ∧
      ofOctets high low = localLen + peerLen + 5 ∧ ofOctets l₁ l₀ = localLen ∧
      ofOctets p₁ p₀ = peerLen ∧ xorAll frame = 0

namespace Parts

/-- No store is outside of a buffer, and the octets that are written stand for a frame. -/
def Replied (src dst : Nat → UInt8) (p : Parts) : Prop :=
  ∃ octets frame, WriteDataToPC src dst p = some (.written octets) ∧
    unescape octets = some frame ∧ IsReply p.Local_len.toNat p.peerData.length p.data frame

variable {p : Parts}

theorem isReply_frame (h : p.Accepted) :
    IsReply p.Local_len.toNat p.peerData.length p.data p.frame := by
  have hle := length_data_le h
  have hlength := length_data h
  rw [FRAME_MAX_LEN, ← hlength] at hle
  rw [← toNat_PeerLen h]
  refine ⟨_, _, _, _, _, _, xorAll p.body, rfl, ?_, ?_, ?_, xorAll_checksum p.body⟩
  · exact ofOctets_hi_lo (by omega)
  · exact ofOctets_hi_lo (by omega)
  · exact ofOctets_hi_lo (by omega)

/-- A reply is written as a frame if and only if its frame fits into the buffer, with one more
octet for each octet of it that is escaped. -/
theorem replied_iff (src dst : Nat → UInt8) (p : Parts) (h : p.Accepted) :
    p.Replied src dst ↔
      p.frame.length + p.frame.countP (Escaped STX_L1_OCTET ·) ≤ FRAME_MAX_LEN := by
  rw [Replied, writeDataToPC_eq src dst h, ← length_sent, result]
  constructor
  · rintro ⟨octets, frame, hwritten, -, -⟩
    by_contra hlong
    rw [if_neg (show ¬ (sent (p.body ++ [xorAll p.body])).length ≤ _ from hlong)] at hwritten
    split at hwritten
    · cases hwritten
    · cases hwritten
  · intro hfits
    exact ⟨_, p.frame, if_pos hfits, unescape_sent _, isReply_frame h⟩

/-- A reply of two octets. -/
def short : Parts where
  Local_buf := some [0x5A, 0xA5]
  Local_len := 2
  Peer_buf := none
  Peer_len := 0
  length_local := rfl
  length_peer := nofun

theorem replied_short : short.Replied (fun _ => 0) (fun _ => 0) :=
  (replied_iff _ _ short (by decide)).mpr (by decide)

/-- The octets of a test that the host has made, which are all escaped, are sent back. -/
def hugeData : Parts where
  Local_buf := some (List.replicate 16 0)
  Local_len := 16
  Peer_buf := some (List.replicate 40000 MUX_KEY_WORD)
  Peer_len := 40000
  length_local := List.length_replicate
  length_peer := by
    rintro bs ⟨⟩
    exact List.length_replicate

/-- They do not fit: octets are stored behind the buffer. -/
theorem not_replied_hugeData :
    hugeData.Accepted ∧ ∀ src dst,
      WriteDataToPC src dst hugeData = none ∧ ¬ hugeData.Replied src dst := by
  have haccepted : hugeData.Accepted := by decide
  have hdata : hugeData.data.length + hugeData.data.countP (Escaped STX_L1_OCTET ·) = 80024 := by
    have hkey : decide (Escaped STX_L1_OCTET MUX_KEY_WORD) = true := rfl
    rw [data, peerData, if_neg (by decide)]
    simp only [hugeData, Option.getD_some, List.length_append, List.length_replicate,
      List.countP_append, List.countP_replicate, hkey]
    rfl
  have hlong : FRAME_MAX_LEN < (sent hugeData.body).length := by
    rw [body, sent_append, List.length_append, length_sent hugeData.data, hdata, FRAME_MAX_LEN]
    omega
  have hfails (src dst : Nat → UInt8) : WriteDataToPC src dst hugeData = none := by
    rw [writeDataToPC_eq src dst haccepted, result, if_neg, if_neg]
    · exact fun hfull => Nat.ne_of_gt hlong hfull.1
    · rw [sent_append, List.length_append]
      omega
  refine ⟨haccepted, fun src dst => ⟨hfails src dst, ?_⟩⟩
  rintro ⟨octets, frame, hwritten, -⟩
  rw [hfails] at hwritten
  cases hwritten

end Parts

end MtkHw.Meta.PortHandle
