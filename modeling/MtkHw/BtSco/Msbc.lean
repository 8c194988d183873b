import Mathlib.Logic.Function.Basic
import MtkHw.Lib.Window

/-!
# mSBC over a synchronous link

The uplink packs each encoded frame of 57 bytes into a packet of 60: a header of two
bytes, the frame, and a zero.  The link carries the packets as a stream of bytes, and
hands it on in blocks of 30 bytes that need not begin where a packet does.  The downlink
keeps the blocks in sixteen slots and looks for a header in the oldest one that it has not
read: where it finds one it puts the frame together from that block and the ones behind
it, and hands it to the decoder.

The filters and the samples themselves are left out, and what the codec and the sample
rate conversion make of a frame is part of the call.
-/

namespace MtkHw.BtSco

open MtkHw.Lib

def msbcBtstreamFrameByte : Nat := 57
def msbcPacketSizeByte : Nat := 60
def msbcPcmFrameByte : Nat := 240

/-! ## The uplink -/

/-- The second byte of the header counts the packets up to four. -/
def btscoMsbcHeader : List UInt8 := [0x08, 0x38, 0xc8, 0xf8]

/-- Pack what the encoder has put out, unless there is no input or no room. -/
def btscoProcessTxMsbc (iPacketW : UInt32) (insize outsize : Nat) (encoded : List UInt8) :
    UInt32 × Option (List UInt8) :=
  if insize ≠ 0 ∧ outsize ≠ 0 then
    let index := iPacketW
    (iPacketW + 1,
      some ([0x01, btscoMsbcHeader.getD (index &&& 0x3).toNat 0] ++ encoded ++ [0]))
  else (iPacketW, none)

/-! ## The downlink -/

/-- The receiving side of the context. -/
structure Rx where
  packetBuf : Fin 16 → List UInt8
  packetValid : Fin 16 → Bool
  iPacketW : UInt32
  iPacketR : UInt32
  fEnablePLC : Bool

/-- The context as it is allocated. -/
def Rx.reset (fEnablePLC : Bool) : Rx :=
  ⟨fun _ => List.replicate 30 0, fun _ => false, 0, 0, fEnablePLC⟩

/-- The slot of a counter: `& SCO_RX_PACKET_MASK`. -/
def slot (n : UInt32) : Fin 16 := ⟨(n &&& 0xF).toNat, by
  rw [UInt32.toNat_and]
  exact Nat.lt_of_le_of_lt Nat.and_le_right (by decide)⟩

/-- A copy out of a block: the number of the block, and the bytes of it. -/
structure Copy where
  packet : UInt32
  start : Nat
  size : Nat
deriving DecidableEq, Repr

/-- The copies that make up the frame behind a header at offset `i` of block `r`. -/
def frameCopies (r : UInt32) (i : Nat) : List Copy :=
  if i = 0 then [⟨r, 2, 28⟩, ⟨r + 1, 0, 29⟩]
  else [⟨r, i + 2, 28 - i⟩, ⟨r + 1, 0, 30⟩, ⟨r + 2, 0, i - 1⟩]

/-- What a copy finds in its slot. -/
def Rx.memcpy (rx : Rx) (c : Copy) : List UInt8 :=
  window (rx.packetBuf (slot c.packet)) c.start c.size

/-- What is handed to the decoder. -/
structure Frame where
  packet : UInt32
  offset : Nat
  entirePacket : List UInt8
deriving DecidableEq, Repr

def Rx.frame (rx : Rx) (r : UInt32) (i : Nat) : Frame :=
  ⟨r, i, (frameCopies r i).flatMap rx.memcpy⟩

/-- A header at an offset of a block. -/
def isHeader (buf : List UInt8) (i : Nat) : Bool :=
  buf.getD i 0 = 0x1 ∧ buf.getD (i + 1) 0 &&& 0xF = 0x8

/-- The loop over the other offsets of a block. -/
def findHeader (buf : List UInt8) : Option Nat := (List.range' 1 28).find? (isHeader buf)

/-- The packet loss concealment: `addtohistory` of a good frame, or `dofe` in place of a
lost one, which is half bad if only its second block is lost. -/
inductive Plc where
  | addToHistory
  | dofe (btEv3HalfBad : Bool)
deriving DecidableEq, Repr

/-- The libraries at a call: the decoder's status and samples for some bytes, and the bytes
that the sample rate conversion puts out for some bytes and some room. -/
structure Codec where
  decProcess : List UInt8 → Int × Nat
  srcProcess : Nat → Nat → Nat

/-- What a call leaves and hands on. -/
structure RxResult where
  rx : Rx
  insize : Nat
  outsize : Nat
  frame : Option Frame
  plc : Option Plc

/-- Put a block into its slot. -/
def Rx.push (rx : Rx) (block : List UInt8) (packetvalid : Bool) : Rx :=
  { rx with
    packetBuf := Function.update rx.packetBuf (slot rx.iPacketW) block
    packetValid := Function.update rx.packetValid (slot rx.iPacketW) packetvalid
    iPacketW := rx.iPacketW + 1 }

/-- Read the oldest block: the frame that is found, and how many blocks are consumed. -/
def Rx.read (rx : Rx) : Option Frame × UInt32 :=
  let r := rx.iPacketR
  let buf := rx.packetBuf (slot r)
  if isHeader buf 0 then (some (rx.frame r 0), 2)
  else if rx.packetValid (slot r) then
    match findHeader buf with
    | some i => (some (rx.frame r i), 2)
    | none => (none, 1)
  else (none, 2)

/-- What the concealment is given: `status` is the decoder's, and negative without a
frame. -/
def Rx.conceal (rx : Rx) (status : Int) : Option Plc :=
  let valid1 := rx.packetValid (slot rx.iPacketR)
  let valid2 := rx.packetValid (slot (rx.iPacketR + 1))
  let good := status = msbcBtstreamFrameByte
  if rx.fEnablePLC then
    some (if good ∧ valid1 ∧ valid2 then .addToHistory
      else .dofe (good ∧ valid1 ∧ ¬valid2))
  else none

/-- One call with a block of the stream, whether it is valid, and the room for samples.  For
an external modem the samples are converted to half the rate. -/
def btscoProcessRxMsbc (mExtMDBTSCORunning : Bool) (rx : Rx) (inbuf : List UInt8)
    (packetvalid : Bool) (outsize : Nat) (codec : Codec) : RxResult :=
  let inByte := msbcPacketSizeByte / 2
  if inbuf.length < inByte then ⟨rx, 0, 0, none, none⟩
  else
    let rx' := rx.push (inbuf.take inByte) packetvalid
    if rx'.iPacketW - rx'.iPacketR < 2 ∨ outsize < msbcPcmFrameByte then
      ⟨rx', inbuf.length, 0, none, none⟩
    else
      let found := rx'.read
      let decoded := match found.1 with
        | some frame => codec.decProcess frame.entirePacket
        | none => (-1, msbcPcmFrameByte / 2)
      { rx := { rx' with iPacketR := rx'.iPacketR + found.2 }
        insize := inbuf.length
        outsize :=
          if mExtMDBTSCORunning then codec.srcProcess (decoded.2 * 2) (outsize / 2)
          else decoded.2 * 2
        frame := found.1
        plc := rx'.conceal decoded.1 }

end MtkHw.BtSco
