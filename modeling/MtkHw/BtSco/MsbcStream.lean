import Mathlib.Data.List.Forall2
import MtkHw.BtSco.Msbc
import MtkHw.Lib.Machine

/-!
# mSBC: frames come out of the stream

The packets of the uplink, one behind the other, are cut into blocks of 30 bytes from some position
on, and each call of the downlink gets the next block.  A call reads only when two blocks are there,
and then exactly two are there: a frame whose header stands at offset 0 or 1 lies in them, but the
end of any other one is taken from the slot of a block that has not been received.
`frames_reassembled` is what holds as long as no packet is located at such an offset.
-/

namespace MtkHw.BtSco

open Lib

/-! ## The stream -/

/-- Frames for the uplink, and the counter that it starts with. -/
structure Uplink where
  frames : List (List UInt8)
  length_eq : ∀ frame ∈ frames, frame.length = msbcBtstreamFrameByte
  iPacketW : UInt32

/-- The packets that the uplink makes. -/
def packetsOf : UInt32 → List (List UInt8) → List (List UInt8)
  | _, [] => []
  | iPacketW, frame :: frames =>
      let (iPacketW, packet) :=
        btscoProcessTxMsbc iPacketW msbcPcmFrameByte msbcPacketSizeByte frame
      packet.toList ++ packetsOf iPacketW frames

/-- The bytes on the link. -/
def Uplink.stream (u : Uplink) : List UInt8 := (packetsOf u.iPacketW u.frames).flatten

/-- A packet with the frame in it. -/
def IsPacket (frame packet : List UInt8) : Prop :=
  ∃ sn : UInt8, sn &&& 0xF = 0x8 ∧ packet = [0x01, sn] ++ frame ++ [0]

theorem packetsOf_spec (iPacketW : UInt32) (frames : List (List UInt8)) :
    List.Forall₂ IsPacket frames (packetsOf iPacketW frames) := by
  induction frames generalizing iPacketW with
  | nil => exact .nil
  | cons frame frames ih =>
    have hsn : ∀ i < 4, btscoMsbcHeader.getD i 0 &&& 0xF = 0x8 := by decide
    have hlt : (iPacketW &&& 0x3).toNat < 4 := by
      rw [UInt32.toNat_and]
      exact Nat.lt_of_le_of_lt Nat.and_le_right (by decide)
    exact .cons ⟨_, hsn _ hlt, rfl⟩ (ih (iPacketW + 1))

theorem IsPacket.length_eq {frame packet : List UInt8} (h : IsPacket frame packet) :
    packet.length = frame.length + 3 := by
  obtain ⟨sn, -, rfl⟩ := h
  simp only [List.length_append, List.length_cons, List.length_nil]
  omega

section Stream

variable (u : Uplink)

theorem Uplink.length_packet :
    ∀ packet ∈ packetsOf u.iPacketW u.frames, packet.length = 60 := by
  have hall := packetsOf_spec u.iPacketW u.frames
  have hlen := u.length_eq
  generalize packetsOf u.iPacketW u.frames = packets at hall ⊢
  generalize u.frames = frames at hall hlen
  induction hall with
  | nil => exact nofun
  | cons hpacket _ ih =>
    obtain ⟨hframe, hrest⟩ := List.forall_mem_cons.mp hlen
    refine List.forall_mem_cons.mpr ⟨?_, ih hrest⟩
    rw [hpacket.length_eq, hframe]
    rfl

theorem Uplink.length_stream : u.stream.length = 60 * u.frames.length := by
  rw [Uplink.stream, length_flatten_of_size u.length_packet,
    ← (packetsOf_spec u.iPacketW u.frames).length_eq]

variable {u}

/-- The packet at its place in the stream. -/
theorem Uplink.window_packet {m : Nat} (hm : m < u.frames.length) :
    IsPacket u.frames[m] (window u.stream (60 * m) 60) := by
  have hall := packetsOf_spec u.iPacketW u.frames
  have hm' : m < (packetsOf u.iPacketW u.frames).length := hall.length_eq ▸ hm
  have hpacket := hall.get hm hm'
  have hlen := u.length_packet _ (List.getElem_mem hm')
  have hwindow := window_flatten u.length_packet (k := m) (a := 0) (m := 60) (Nat.le_refl 60)
    (List.getElem?_eq_getElem hm')
  have hself := window_self (packetsOf u.iPacketW u.frames)[m]
  rw [hlen] at hself
  rw [Nat.add_zero, hself] at hwindow
  rw [Uplink.stream, hwindow]
  exact hpacket

/-- The header and the end of a packet, and the frame in it. -/
theorem Uplink.packet_spec {m : Nat} (hm : m < u.frames.length) :
    u.stream.getD (60 * m) 0 = 0x01 ∧ u.stream.getD (60 * m + 1) 0 &&& 0xF = 0x8 ∧
      u.stream.getD (60 * m + 59) 0 = 0 ∧ window u.stream (60 * m + 2) 57 = u.frames[m] := by
  obtain ⟨sn, hsn, hwindow⟩ := Uplink.window_packet hm
  have hframe : u.frames[m].length = 57 := u.length_eq _ (List.getElem_mem hm)
  have hget : ∀ i < 60, u.stream.getD (60 * m + i) 0 =
      ([0x01, sn] ++ u.frames[m] ++ [0]).getD i 0 := by
    intro i hi
    rw [← hwindow, getD_window _ hi]
  refine ⟨hget 0 (by decide), ?_, ?_, ?_⟩
  · rw [hget 1 (by decide)]
    exact hsn
  · rw [hget 59 (by decide), List.getD_append_right _ _ _ _ (by
      rw [List.length_append, hframe]; exact Nat.le_refl 59), List.length_append, hframe]
    rfl
  · rw [← window_window u.stream (p := 60 * m) (n := 60) (by decide), hwindow, window,
      List.append_assoc]
    exact List.take_left' hframe

end Stream

/-! ## The session -/

/-- A call with room for the samples. -/
structure MsbcCall where
  mExtMDBTSCORunning : Bool
  outsize : Nat
  room : msbcPcmFrameByte ≤ outsize
  codec : Codec

/-- A frame that has been handed to the decoder, the block that it was found in, and how many blocks
had been received. -/
structure Located where
  read : Nat
  fed : Nat
  frame : Frame
deriving DecidableEq

/-- The context, the numbers of blocks that have been received and consumed, and what has been
handed to the decoder. -/
structure Session where
  rx : Rx
  fed : Nat
  read : Nat
  located : List Located

section Session

variable (u : Uplink) (cut : Nat)

/-- A block of the stream. -/
def blockAt (k : Nat) : List UInt8 := window u.stream (cut + 30 * k) 30

/-- A call with the next block, as long as there is one. -/
def sessionStep (s : Session) (call : MsbcCall) : Option Session :=
  if cut + 30 * (s.fed + 1) ≤ u.stream.length then
    let result := btscoProcessRxMsbc call.mExtMDBTSCORunning s.rx (blockAt u cut s.fed) true
      call.outsize call.codec
    some {
      rx := result.rx
      fed := s.fed + 1
      read := s.read + (result.rx.iPacketR - s.rx.iPacketR).toNat
      located := s.located ++ (result.frame.map fun frame => ⟨s.read, s.fed + 1, frame⟩).toList }
  else none

/-- The downlink from the reset context on. -/
def msbcMachine (fEnablePLC : Bool) : Machine Session MsbcCall where
  init := ⟨Rx.reset fEnablePLC, 0, 0, []⟩
  step := sessionStep u cut

/-- Where the header stood in the stream. -/
def Located.position (e : Located) : Nat := cut + 30 * e.read + e.frame.offset

/-- The copies come from blocks that have been received. -/
def Located.Received (e : Located) : Prop :=
  ∀ c ∈ frameCopies e.frame.packet e.frame.offset,
    c.size = 0 ∨ (c.packet - e.frame.packet).toNat < e.fed - e.read

/-- The frames from number `m` on, out of blocks that have been received. -/
def Consecutive : Nat → List Located → Prop
  | _, [] => True
  | m, e :: rest =>
      u.frames[m]? = some e.frame.entirePacket ∧ e.Received ∧ Consecutive (m + 1) rest

/-- From the header of a packet on the frames are handed on in order, and in a stream that is cut
between blocks from the first packet on. -/
structure Reassembled (s : Session) : Prop where
  located : ∀ before e after, s.located = before ++ e :: after → 60 ∣ e.position cut →
    Consecutive u (e.position cut / 60) (e :: after)
  aligned : 30 ∣ cut → Consecutive u ((cut + 59) / 60) s.located

/-- The offset at which a header is found. -/
def locate (buf : List UInt8) : Option Nat := if isHeader buf 0 then some 0 else findHeader buf

/-- When the call reads, a packet that it locates begins in the first two bytes of its block, and in
a stream that is cut between blocks it locates nothing else. -/
def Ready (s : Session) (_ : MsbcCall) : Prop :=
  s.fed = s.read + 1 → ∀ i ∈ locate (blockAt u cut s.read),
    (60 ∣ cut + 30 * s.read + i → i ≤ 1) ∧ (30 ∣ cut → 60 ∣ cut + 30 * s.read + i)

instance (s : Session) (call : MsbcCall) : Decidable (Ready u cut s call) :=
  inferInstanceAs (Decidable (_ → ∀ i ∈ locate (blockAt u cut s.read), _ ∧ _))

end Session

/-! ## What a call does -/

theorem slot_ofNat (k : Nat) : (slot (UInt32.ofNat k)).val = k % 16 := by
  change (UInt32.ofNat k &&& 0xF).toNat = k % 16
  rw [UInt32.toNat_and, UInt32.toNat_ofNat']
  change k % 2 ^ 32 &&& 2 ^ 4 - 1 = k % 16
  rw [Nat.and_two_pow_sub_one_eq_mod]
  omega

theorem slot_succ_ne (k : Nat) : slot (UInt32.ofNat k) ≠ slot (UInt32.ofNat (k + 1)) := by
  intro h
  have := congrArg Fin.val h
  rw [slot_ofNat, slot_ofNat] at this
  omega

section Turns

variable {u : Uplink} {cut : Nat}

/-- The counters count the blocks, of which at most one waits, and it is in its slot. -/
structure SessionInv (u : Uplink) (cut : Nat) (s : Session) : Prop where
  written : s.rx.iPacketW = UInt32.ofNat s.fed
  consumed : s.rx.iPacketR = UInt32.ofNat s.read
  le : s.read ≤ s.fed
  waiting : s.fed ≤ s.read + 1
  inSlot : s.read < s.fed → s.rx.packetBuf (slot (UInt32.ofNat s.read)) = blockAt u cut s.read ∧
    s.rx.packetValid (slot (UInt32.ofNat s.read)) = true

/-- The bytes behind the header are those of the stream when it stands at offset 0 or 1. -/
theorem frame_eq {rx : Rx} {r : Nat}
    (hfirst : rx.packetBuf (slot (UInt32.ofNat r)) = blockAt u cut r)
    (hsecond : rx.packetBuf (slot (UInt32.ofNat (r + 1))) = blockAt u cut (r + 1)) {i : Nat}
    (hi : i ≤ 1) : (rx.frame (UInt32.ofNat r) i).entirePacket =
      window u.stream (cut + 30 * r + i + 2) 57 := by
  have hnext : UInt32.ofNat r + 1 = UInt32.ofNat (r + 1) := (UInt32.ofNat_add r 1).symm
  have hpos : cut + 30 * (r + 1) = cut + 30 * r + 30 := by omega
  rw [blockAt] at hfirst hsecond
  match i, hi with
  | 0, _ =>
    change rx.memcpy ⟨UInt32.ofNat r, 2, 28⟩ ++ (rx.memcpy ⟨UInt32.ofNat r + 1, 0, 29⟩ ++ []) = _
    rw [List.append_nil, hnext, Rx.memcpy, Rx.memcpy, hfirst, hsecond,
      window_window _ (Nat.le_refl 30), window_window _ (Nat.le_succ 29), hpos]
    exact window_append_window u.stream (cut + 30 * r + 2) 28 29
  | 1, _ =>
    change rx.memcpy ⟨UInt32.ofNat r, 3, 27⟩ ++ (rx.memcpy ⟨UInt32.ofNat r + 1, 0, 30⟩ ++
      (rx.memcpy ⟨UInt32.ofNat r + 2, 0, 0⟩ ++ [])) = _
    rw [List.append_nil, Rx.memcpy, Rx.memcpy, Rx.memcpy, window_zero, List.append_nil, hnext,
      hfirst, hsecond, window_window _ (Nat.le_refl 30), window_window _ (Nat.le_refl 30), hpos]
    exact window_append_window u.stream (cut + 30 * r + 3) 27 30

/-- What a call does to the counts and to the frames that have been handed on. -/
inductive Turn (u : Uplink) (cut : Nat) (s : Session) : Nat → List Located → Prop where
  | wait (h : s.fed = s.read) : Turn u cut s s.read s.located
  | found {i : Nat} {frame : Frame} (h : s.fed = s.read + 1)
      (hlocate : locate (blockAt u cut s.read) = some i) (hpacket : frame.packet = s.rx.iPacketR)
      (hoffset : frame.offset = i)
      (hframe : i ≤ 1 → frame.entirePacket = window u.stream (cut + 30 * s.read + i + 2) 57) :
      Turn u cut s (s.read + 2) (s.located ++ [⟨s.read, s.fed + 1, frame⟩])
  | lost (h : s.fed = s.read + 1) (hlocate : locate (blockAt u cut s.read) = none) :
      Turn u cut s (s.read + 1) s.located

theorem length_blockAt {k : Nat} (h : cut + 30 * (k + 1) ≤ u.stream.length) :
    (blockAt u cut k).length = 30 := length_window (by omega)

/-- What a read of the oldest block finds when it is valid. -/
theorem read_eq {rx : Rx} {r : Nat} (hr : rx.iPacketR = UInt32.ofNat r)
    (hbuf : rx.packetBuf (slot (UInt32.ofNat r)) = blockAt u cut r)
    (hvalid : rx.packetValid (slot (UInt32.ofNat r)) = true) :
    rx.read = match locate (blockAt u cut r) with
      | some i => (some (rx.frame (UInt32.ofNat r) i), 2)
      | none => (none, 1) := by
  rw [Rx.read, locate]
  simp only [hr, hbuf, hvalid, if_true]
  by_cases hheader : isHeader (blockAt u cut r) 0 = true
  · rw [if_pos hheader, if_pos hheader]
  · rw [if_neg hheader, if_neg hheader] <;> cases findHeader (blockAt u cut r) <;> rfl

theorem sub_toNat (a b : UInt32) : (a + b - a).toNat = b.toNat := by
  rw [UInt32.add_comm, UInt32.add_sub_cancel]

theorem ofNat_add_sub (r k : Nat) : UInt32.ofNat (r + k) - UInt32.ofNat r = UInt32.ofNat k := by
  rw [UInt32.ofNat_add, UInt32.add_comm, UInt32.add_sub_cancel]

/-- The context once the block of a call is in its slot. -/
structure Pushed (u : Uplink) (cut : Nat) (s : Session) (rx : Rx) : Prop where
  written : rx.iPacketW = UInt32.ofNat (s.fed + 1)
  consumed : rx.iPacketR = UInt32.ofNat s.read
  same : rx.iPacketR = s.rx.iPacketR
  new : rx.packetBuf (slot (UInt32.ofNat s.fed)) = blockAt u cut s.fed ∧
    rx.packetValid (slot (UInt32.ofNat s.fed)) = true
  old : s.fed = s.read + 1 → rx.packetBuf (slot (UInt32.ofNat s.read)) = blockAt u cut s.read ∧
    rx.packetValid (slot (UInt32.ofNat s.read)) = true

theorem SessionInv.push {s : Session} (hs : SessionInv u cut s) :
    Pushed u cut s (s.rx.push (blockAt u cut s.fed) true) := by
  rw [Rx.push, hs.written]
  refine ⟨(UInt32.ofNat_add s.fed 1).symm, hs.consumed, rfl,
    ⟨Function.update_self .., Function.update_self ..⟩, fun hfed => ?_⟩
  have hne : slot (UInt32.ofNat s.read) ≠ slot (UInt32.ofNat s.fed) := by
    rw [hfed]
    exact slot_succ_ne s.read
  obtain ⟨hbuf, hvalid⟩ := hs.inSlot (by omega)
  exact ⟨(Function.update_of_ne hne ..).trans hbuf, (Function.update_of_ne hne ..).trans hvalid⟩

/-- A call with too few blocks only stores its block. -/
theorem process_wait {rx : Rx} {block : List UInt8} (hblock : block.length = 30) (call : MsbcCall)
    (hshort : (rx.push block true).iPacketW - (rx.push block true).iPacketR < 2) :
    btscoProcessRxMsbc call.mExtMDBTSCORunning rx block true call.outsize call.codec =
      ⟨rx.push block true, 30, 0, none, none⟩ := by
  have htake : block.take (msbcPacketSizeByte / 2) = block :=
    List.take_of_length_le (Nat.le_of_eq hblock)
  have hinbuf : ¬ block.length < msbcPacketSizeByte / 2 := by
    rw [hblock]
    decide
  rw [btscoProcessRxMsbc, if_neg hinbuf]
  simp only [htake, if_pos (Or.inl hshort), hblock]

/-- A call with two blocks reads the older one. -/
theorem process_read {rx : Rx} {block : List UInt8} (hblock : block.length = 30) (call : MsbcCall)
    (htwo : ¬ (rx.push block true).iPacketW - (rx.push block true).iPacketR < 2) :
    (btscoProcessRxMsbc call.mExtMDBTSCORunning rx block true call.outsize call.codec).rx =
        { rx.push block true with
          iPacketR := (rx.push block true).iPacketR + (rx.push block true).read.2 } ∧
      (btscoProcessRxMsbc call.mExtMDBTSCORunning rx block true call.outsize call.codec).frame =
        (rx.push block true).read.1 := by
  have htake : block.take (msbcPacketSizeByte / 2) = block :=
    List.take_of_length_le (Nat.le_of_eq hblock)
  have hinbuf : ¬ block.length < msbcPacketSizeByte / 2 := by
    rw [hblock]
    decide
  have hread := not_or.mpr ⟨htwo, Nat.not_lt.mpr call.room⟩
  rw [btscoProcessRxMsbc, if_neg hinbuf]
  simp only [htake, if_neg hread]
  exact ⟨trivial, trivial⟩

/-- A call is one of the turns, and keeps the invariant. -/
theorem turn_of_step {s s' : Session} {call : MsbcCall} (hs : SessionInv u cut s)
    (h : sessionStep u cut s call = some s') :
    SessionInv u cut s' ∧ s'.fed = s.fed + 1 ∧ Turn u cut s s'.read s'.located := by
  unfold sessionStep at h
  split at h
  · rename_i hlen
    have hblock := length_blockAt hlen
    have hpush := hs.push
    cases h
    simp only
    rcases Nat.eq_or_lt_of_le hs.le with hfed | hfed
    · -- one block is there now, and it waits
      have hshort : (s.rx.push (blockAt u cut s.fed) true).iPacketW -
          (s.rx.push (blockAt u cut s.fed) true).iPacketR < 2 := by
        rw [hpush.written, hpush.consumed, hfed, ofNat_add_sub]
        decide
      rw [process_wait hblock call hshort]
      have hzero : ((s.rx.push (blockAt u cut s.fed) true).iPacketR - s.rx.iPacketR).toNat = 0 := by
        rw [hpush.same, UInt32.sub_self]
        rfl
      simp only [hzero, Nat.add_zero, Option.map_none, Option.toList_none, List.append_nil]
      refine ⟨⟨hpush.written, hpush.consumed, Nat.le_succ_of_le hs.le,
        Nat.succ_le_succ (Nat.le_of_eq hfed.symm), fun _ => ?_⟩, trivial, .wait hfed.symm⟩
      rw [hfed]
      exact hpush.new
    · -- the second block is there now, and the first one is read
      have hfed' : s.fed = s.read + 1 := Nat.le_antisymm hs.waiting hfed
      have hle : s.read + 2 ≤ s.fed + 1 := by omega
      have hge : s.fed + 1 ≤ s.read + 2 := by omega
      have htwo : ¬ (s.rx.push (blockAt u cut s.fed) true).iPacketW -
          (s.rx.push (blockAt u cut s.fed) true).iPacketR < 2 := by
        rw [hpush.written, hpush.consumed, hfed', Nat.add_assoc, ofNat_add_sub]
        decide
      obtain ⟨hrx, hframe⟩ := process_read hblock call htwo
      have hread := read_eq hpush.consumed (hpush.old hfed').1 (hpush.old hfed').2
      rw [hrx, hframe, hread, hpush.same, sub_toNat]
      have hsecond := hpush.new
      rw [hfed'] at hsecond
      cases hlocate : locate (blockAt u cut s.read) with
      | none =>
        simp only [Option.map_none, Option.toList_none, List.append_nil]
        refine ⟨⟨hpush.written, ?_, Nat.le_of_succ_le hle, hge, fun _ => hfed' ▸ hsecond⟩, trivial,
          .lost hfed' hlocate⟩
        rw [hs.consumed]
        exact (UInt32.ofNat_add s.read 1).symm
      | some i =>
        simp only [Option.map_some, Option.toList_some]
        refine ⟨⟨hpush.written, ?_, hle, Nat.le_succ_of_le hge, fun hlt => ?_⟩, trivial,
          .found hfed' hlocate hs.consumed.symm rfl fun hi => ?_⟩
        · rw [hs.consumed]
          exact (UInt32.ofNat_add s.read 2).symm
        · exact absurd hlt (Nat.not_lt.mpr hge)
        · exact frame_eq (hpush.old hfed').1 (hfed' ▸ hsecond.1) hi
  · cases h

end Turns

/-! ## In step with the packets -/

section Sync

variable {u : Uplink} {cut : Nat}

/-- The header of a packet at offset 0 or 1 of a block is found there. -/
theorem locate_header {r m i : Nat} (hm : m < u.frames.length) (hi : i ≤ 1)
    (hpos : cut + 30 * r + i = 60 * m) : locate (blockAt u cut r) = some i := by
  have hget : ∀ j < 30, (blockAt u cut r).getD j 0 = u.stream.getD (cut + 30 * r + j) 0 :=
    fun j hj => getD_window _ hj 0
  obtain ⟨hone, hsn, -, -⟩ := Uplink.packet_spec hm
  match i, hi with
  | 0, _ =>
    have hheader : isHeader (blockAt u cut r) 0 = true := by
      rw [isHeader, hget 0 (by decide), hget (0 + 1) (by decide),
        show cut + 30 * r + (0 + 1) = 60 * m + 1 by omega, hpos, hone, hsn]
      rfl
    exact if_pos hheader
  | 1, _ =>
    obtain ⟨k, rfl⟩ : ∃ k, m = k + 1 := Nat.exists_eq_succ_of_ne_zero (by omega)
    obtain ⟨-, -, hend, -⟩ := Uplink.packet_spec (show k < u.frames.length by omega)
    have hnone : ¬ isHeader (blockAt u cut r) 0 = true := by
      rw [isHeader, hget 0 (by decide), show cut + 30 * r + 0 = 60 * k + 59 by omega, hend]
      simp
    have hheader : isHeader (blockAt u cut r) 1 = true := by
      rw [isHeader, hget 1 (by decide), hget (1 + 1) (by decide),
        show cut + 30 * r + (1 + 1) = 60 * (k + 1) + 1 by omega, hpos, hone, hsn]
      rfl
    rw [locate, if_neg hnone, findHeader, List.range'_succ, List.find?_cons_of_pos hheader]

/-- The frames from number `m` on, each found at the header of its packet. -/
def InOrder (u : Uplink) (cut : Nat) : Nat → List Located → Prop
  | _, [] => True
  | m, e :: rest => e.position cut = 60 * m ∧ u.frames[m]? = some e.frame.entirePacket ∧
      e.Received ∧ InOrder u cut (m + 1) rest

theorem inOrder_append {m : Nat} {a b : List Located} :
    InOrder u cut m (a ++ b) ↔ InOrder u cut m a ∧ InOrder u cut (m + a.length) b := by
  induction a generalizing m with
  | nil => exact (and_iff_right trivial).symm
  | cons e a ih =>
    have hlen : m + (e :: a).length = m + 1 + a.length := by
      rw [List.length_cons]
      omega
    rw [List.cons_append, InOrder, InOrder, ih, hlen, and_assoc, and_assoc, and_assoc]

theorem InOrder.consecutive {m : Nat} {run : List Located} (h : InOrder u cut m run) :
    Consecutive u m run := by
  induction run generalizing m with
  | nil => exact trivial
  | cons e run ih => exact ⟨h.2.1, h.2.2.1, ih h.2.2.2⟩

/-- No packet has been located. -/
structure Unsynced (u : Uplink) (cut : Nat) (s : Session) : Prop where
  none : ∀ e ∈ s.located, ¬ 60 ∣ e.position cut
  aligned : 30 ∣ cut → s.located = [] ∧ (s.read = 0 ∨ s.read = 1 ∧ 60 ∣ cut + 30)

/-- The packets from number `m` on have been handed on, and the next one is due at offset `o`. -/
structure Synced (u : Uplink) (cut : Nat) (s : Session) (before run : List Located) (m o : Nat) :
    Prop where
  located_eq : s.located = before ++ run
  none : ∀ e ∈ before, ¬ 60 ∣ e.position cut
  inOrder : InOrder u cut m run
  small : o ≤ 1
  due : cut + 30 * s.read + o = 60 * (m + run.length)
  aligned : 30 ∣ cut → before = [] ∧ m = (cut + 59) / 60

/-- What a call finds at a packet that begins in the first two bytes of the block. -/
theorem inOrder_found {s : Session} {i m : Nat} {frame : Frame}
    (hlen : cut + 30 * (s.fed + 1) ≤ u.stream.length) (hfed : s.fed = s.read + 1)
    (hoffset : frame.offset = i)
    (hframe : i ≤ 1 → frame.entirePacket = window u.stream (cut + 30 * s.read + i + 2) 57)
    (hi : i ≤ 1) (hpos : cut + 30 * s.read + i = 60 * m) :
    InOrder u cut m [⟨s.read, s.fed + 1, frame⟩] := by
  have hm : m < u.frames.length := by
    rw [u.length_stream] at hlen
    omega
  obtain ⟨-, -, -, hwindow⟩ := Uplink.packet_spec hm
  refine ⟨?_, ?_, ?_, trivial⟩
  · rw [Located.position, hoffset]
    exact hpos
  · rw [hframe hi, hpos, hwindow]
    exact List.getElem?_eq_getElem hm
  · rw [Located.Received, hoffset, hfed]
    have htwo : s.read + 1 + 1 - s.read = 2 := by omega
    have hzero : (frame.packet - frame.packet).toNat < 2 := by
      rw [UInt32.sub_self]
      decide
    have hone : (frame.packet + 1 - frame.packet).toNat < 2 := by
      rw [sub_toNat]
      decide
    simp only [htwo]
    match i, hi with
    | 0, _ =>
      exact List.forall_mem_cons.mpr ⟨.inr hzero, List.forall_mem_singleton.mpr (.inr hone)⟩
    | 1, _ =>
      exact List.forall_mem_cons.mpr ⟨.inr hzero, List.forall_mem_cons.mpr
        ⟨.inr hone, List.forall_mem_singleton.mpr (.inl rfl)⟩⟩

/-- What holds along a run of calls that are ready. -/
structure StreamInv (u : Uplink) (cut : Nat) (s : Session) : Prop where
  session : SessionInv u cut s
  sync : Unsynced u cut s ∨ ∃ before run m o, Synced u cut s before run m o

theorem length_of_step {s s' : Session} {call : MsbcCall}
    (h : sessionStep u cut s call = some s') : cut + 30 * (s.fed + 1) ≤ u.stream.length := by
  unfold sessionStep at h
  split at h
  · assumption
  · cases h

/-- A session that is not in step stays so, or gets in step. -/
theorem Unsynced.step {s s' : Session} {call : MsbcCall} (hs : Unsynced u cut s)
    (hlen : cut + 30 * (s.fed + 1) ≤ u.stream.length) (hready : Ready u cut s call)
    (hturn : Turn u cut s s'.read s'.located) :
    Unsynced u cut s' ∨ ∃ before run m o, Synced u cut s' before run m o := by
  generalize hread : s'.read = read at hturn
  generalize hlocated : s'.located = located at hturn
  cases hturn with
  | wait hfed =>
    refine .inl ⟨?_, ?_⟩
    · rw [hlocated]
      exact hs.none
    · rw [hlocated, hread]
      exact hs.aligned
  | lost hfed hlocate =>
    refine .inl ⟨?_, fun hcut => ?_⟩
    · rw [hlocated]
      exact hs.none
    · obtain ⟨hnil, hstart⟩ := hs.aligned hcut
      have hpast : ¬ 60 ∣ cut + 30 * s.read := by
        rintro ⟨m, hm⟩
        have hin : m < u.frames.length := by
          rw [u.length_stream] at hlen
          omega
        rw [locate_header hin (Nat.zero_le 1) hm] at hlocate
        cases hlocate
      rw [hlocated, hread]
      refine ⟨hnil, .inr ?_⟩
      omega
  | @found i frame hfed hlocate hpacket hoffset hframe =>
    obtain ⟨hsmall, haligned⟩ := hready hfed i hlocate
    by_cases hpos : 60 ∣ cut + 30 * s.read + i
    · obtain ⟨m, hm⟩ := hpos
      have hi := hsmall ⟨m, hm⟩
      refine .inr ⟨s.located, [⟨s.read, s.fed + 1, frame⟩], m, i, hlocated, hs.none,
        inOrder_found hlen hfed hoffset hframe hi hm, hi, ?_, fun hcut => ?_⟩
      · rw [hread, List.length_singleton]
        omega
      · obtain ⟨hnil, hstart⟩ := hs.aligned hcut
        refine ⟨hnil, ?_⟩
        omega
    · refine .inl ⟨?_, fun hcut => absurd (haligned hcut) hpos⟩
      rw [hlocated, List.forall_mem_append]
      refine ⟨hs.none, List.forall_mem_singleton.mpr ?_⟩
      rw [Located.position, hoffset]
      exact hpos

/-- A session that is in step stays so. -/
theorem Synced.step {s s' : Session} {before run : List Located} {m o : Nat}
    (hs : Synced u cut s before run m o) (hlen : cut + 30 * (s.fed + 1) ≤ u.stream.length)
    (hturn : Turn u cut s s'.read s'.located) :
    ∃ run', Synced u cut s' before run' m o := by
  have hlocate : s.fed = s.read + 1 → locate (blockAt u cut s.read) = some o := by
    intro hfed
    have hin : m + run.length < u.frames.length := by
      rw [u.length_stream] at hlen
      have hdue := hs.due
      have hsmall := hs.small
      omega
    exact locate_header hin hs.small hs.due
  generalize hread : s'.read = read at hturn
  generalize hlocated : s'.located = located at hturn
  cases hturn with
  | wait hfed =>
    exact ⟨run, hlocated.trans hs.located_eq, hs.none, hs.inOrder, hs.small,
      hread.symm ▸ hs.due, hs.aligned⟩
  | lost hfed hnone =>
    rw [hlocate hfed] at hnone
    cases hnone
  | @found i frame hfed hsome hpacket hoffset hframe =>
    obtain rfl : o = i := Option.some.inj ((hlocate hfed).symm.trans hsome)
    have hfound := inOrder_found hlen hfed hoffset hframe hs.small hs.due
    refine ⟨run ++ [⟨s.read, s.fed + 1, frame⟩], ?_, hs.none,
      inOrder_append.mpr ⟨hs.inOrder, hfound⟩, hs.small, ?_, hs.aligned⟩
    · rw [hlocated, hs.located_eq, List.append_assoc]
    · rw [hread, List.length_append, List.length_singleton]
      have hdue := hs.due
      omega

theorem StreamInv.step {s s' : Session} {call : MsbcCall} (hs : StreamInv u cut s)
    (hready : Ready u cut s call) (h : sessionStep u cut s call = some s') :
    StreamInv u cut s' := by
  obtain ⟨hsession, -, hturn⟩ := turn_of_step hs.session h
  have hlen := length_of_step h
  refine ⟨hsession, ?_⟩
  rcases hs.sync with hunsynced | ⟨before, run, m, o, hsynced⟩
  · exact hunsynced.step hlen hready hturn
  · obtain ⟨run', hsynced'⟩ := hsynced.step hlen hturn
    exact .inr ⟨before, run', m, o, hsynced'⟩

/-- From a packet on the frames are in order. -/
theorem Synced.reassembled {s : Session} {before run : List Located} {m o : Nat}
    (hs : Synced u cut s before run m o) : Reassembled u cut s where
  located front e after heq hpos := by
    rw [hs.located_eq] at heq
    have hrun : ∃ first, run = first ++ e :: after := by
      rcases List.append_eq_append_iff.mp heq with ⟨first, hfront, hrun⟩ | ⟨mid, hbefore, hafter⟩
      · exact ⟨first, hrun⟩
      · cases mid with
        | nil => exact ⟨[], hafter.symm⟩
        | cons e' mid =>
          obtain ⟨rfl, -⟩ := List.cons.inj hafter
          have hmem : e ∈ before := by
            rw [hbefore]
            exact List.mem_append_right _ List.mem_cons_self
          exact absurd hpos (hs.none e hmem)
    obtain ⟨first, rfl⟩ := hrun
    have horder := (inOrder_append.mp hs.inOrder).2
    have hat : e.position cut / 60 = m + first.length := by
      rw [horder.1]
      omega
    rw [hat]
    exact horder.consecutive
  aligned hcut := by
    obtain ⟨rfl, rfl⟩ := hs.aligned hcut
    rw [hs.located_eq]
    exact hs.inOrder.consecutive

theorem Unsynced.reassembled {s : Session} (hs : Unsynced u cut s) : Reassembled u cut s where
  located front e after heq hpos := by
    have hmem : e ∈ s.located := by
      rw [heq]
      exact List.mem_append_right _ List.mem_cons_self
    exact absurd hpos (hs.none e hmem)
  aligned hcut := by
    rw [(hs.aligned hcut).1]
    exact trivial

theorem StreamInv.reassembled {s : Session} (hs : StreamInv u cut s) : Reassembled u cut s := by
  rcases hs.sync with hunsynced | ⟨before, run, m, o, hsynced⟩
  · exact hunsynced.reassembled
  · exact hsynced.reassembled

end Sync

theorem streamInv_init (u : Uplink) (cut : Nat) (fEnablePLC : Bool) :
    StreamInv u cut (msbcMachine u cut fEnablePLC).init :=
  ⟨⟨rfl, rfl, Nat.le_refl 0, Nat.zero_le 1, fun h => absurd h (Nat.lt_irrefl 0)⟩,
    .inl ⟨nofun, fun _ => ⟨rfl, .inl rfl⟩⟩⟩

/-- Along a run in which every packet that is located begins in the first two bytes of a block, and
in which a stream that is cut between blocks has no other header, the frames come out of the stream
as they were sent. -/
theorem frames_reassembled (u : Uplink) (cut : Nat) (fEnablePLC : Bool) (calls : List MsbcCall)
    (h : (msbcMachine u cut fEnablePLC).Meets (Ready u cut) (msbcMachine u cut fEnablePLC).init
      calls) :
    (msbcMachine u cut fEnablePLC).Along (Reassembled u cut) (msbcMachine u cut fEnablePLC).init
      calls :=
  (msbcMachine u cut fEnablePLC).along_of_meets (fun _ _ _ hs hready hstep => hs.step hready hstep)
    (fun _ hs => hs.reassembled) (streamInv_init u cut fEnablePLC) h

/-- Two frames of sevens. -/
def sevens : Uplink := ⟨List.replicate 2 (List.replicate 57 7), by decide, 0⟩

/-- A call with just enough room, and a codec that accepts everything. -/
def fittingCall : MsbcCall := ⟨false, 240, Nat.le_refl 240, ⟨fun _ => (57, 120), fun n _ => n⟩⟩

theorem sevens_reassembled :
    (msbcMachine sevens 59 true).Along (Reassembled sevens 59) (msbcMachine sevens 59 true).init
      [fittingCall, fittingCall] :=
  frames_reassembled sevens 59 true [fittingCall, fittingCall] (by
    refine ⟨fun h => absurd h (by decide), fun t ht => ?_⟩
    cases ht
    refine ⟨?_, fun t ht => ?_⟩
    · change _ → _
      decide +kernel
    · trivial)

/-- Cut at byte 28 the header of the second packet stands at offset 2 of its block, and the end of
the frame is what the slot of the block behind the two was allocated with. -/
theorem stale_end_of_frame :
    ¬ ∀ (u : Uplink) (cut : Nat) (fEnablePLC : Bool) (calls : List MsbcCall),
      (msbcMachine u cut fEnablePLC).Along (Reassembled u cut)
        (msbcMachine u cut fEnablePLC).init calls := by
  intro h
  have hlast : ∀ s ∈ (msbcMachine sevens 28 true).run (msbcMachine sevens 28 true).init
      [fittingCall, fittingCall, fittingCall], Reassembled sevens 28 s := fun s hs =>
    Machine.Along.last _ (h sevens 28 true [fittingCall, fittingCall, fittingCall]) hs
  have hrun : ((msbcMachine sevens 28 true).run (msbcMachine sevens 28 true).init
      [fittingCall, fittingCall, fittingCall]).map Session.located =
        some [⟨1, 3, ⟨1, 2, List.replicate 56 7 ++ [0]⟩⟩] := by decide +kernel
  obtain ⟨s, hs, hlocated⟩ := Option.map_eq_some_iff.mp hrun
  obtain ⟨hframe, -, -⟩ := (hlast s hs).located [] _ [] hlocated (by decide)
  revert hframe
  decide +kernel

end MtkHw.BtSco
