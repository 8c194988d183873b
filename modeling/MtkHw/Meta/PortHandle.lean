import MtkHw.Lib.Block
import MtkHw.Meta.Escape

/-!
# Replies to the META host

`WriteDataToPC` and `FTMuxPrimitiveData` of `PortHandle`: a module's reply is put together in a
buffer of its own, framed in a second one and escaped into a third one of `FRAME_MAX_LEN` octets,
which is written to the port.  Every access to the three buffers is checked, and `none` is an
access outside of one.  What an allocation finds in memory is a parameter.
-/

namespace MtkHw.Meta

open Lib

def PEER_HEADER_LEN : Nat := 8

/-- The longest peer part. -/
def PEER_BUF_MAX_LEN : Nat := 1024 * 60

/-- The longest peer part and local part together. -/
def FT_MAX_LEN : Nat := FRAME_MAX_LEN - PEER_HEADER_LEN - 9

namespace PortHandle

/-- The data that goes from a module to the port. -/
structure META_RX_DATA where
  pData : Block UInt8
  LocalLen : UInt16
  PeerLen : UInt16

/-- What becomes of a reply. -/
inductive Reply where
  | /-- `WriteDataToPC` returns 0. -/ refused
  | /-- `FTMuxPrimitiveData` gives up. -/ dropped
  | /-- The octets that `pPort->write` gets. -/ written (octets : List UInt8)
  deriving DecidableEq, Repr

/-! ## Escapes -/

/-- The variables of the loop that escapes a frame. -/
structure Copy where
  dst : Block UInt8
  pTempBuf : Nat
  pTempDstBuf : Nat
  dest_index : Nat
  cCheckSum : UInt8

namespace Copy

/-- An escape pair is stored at `pTempDstBuf`. -/
def storePair (dst : Block UInt8) (pTempDstBuf : Nat) (c : UInt8) : Option (Block UInt8) := do
  let dst ← dst.store pTempDstBuf MUX_KEY_WORD
  dst.store (pTempDstBuf + 1) c

/-- An octet that is sent as a pair with `c`; `dst` has it as it is already. -/
def pair (s : Copy) (dst : Block UInt8) (b c : UInt8) : Option Copy := do
  let dst ← storePair dst s.pTempDstBuf c
  return ⟨dst, s.pTempBuf + 1, s.pTempDstBuf + 2, s.dest_index + 2, s.cCheckSum ^^^ b⟩

/-- One turn of the loop. -/
def turn (src : Block UInt8) (s : Copy) : Option Copy := do
  let b ← src.load s.pTempBuf
  let dst ← s.dst.store s.pTempDstBuf b
  if b = STX_L1_OCTET then s.pair dst b 0x01
  else if b = MUX_KEY_WORD then s.pair dst b MUX_KEY_WORD
  else return ⟨dst, s.pTempBuf + 1, s.pTempDstBuf + 1, s.dest_index + 1, s.cCheckSum ^^^ b⟩

/-- `while (iCheckNum != (cbTxBuffer-1))`, with some turns to go. -/
def turns (src : Block UInt8) : Nat → Copy → Option Copy
  | 0, s => some s
  | n + 1, s => (s.turn src).bind (turns src n)

/-- `pPort->write(pDestptrBase, dest_index)` -/
def write (dst : Block UInt8) (dest_index : Nat) : Option Reply :=
  (dst.copyOut 0 dest_index).map .written

/-- A checksum that is sent as a pair with `c`. -/
def checksumPair (s : Copy) (c : UInt8) : Option Reply :=
  let dest_index := s.dest_index + 1
  if dest_index > FRAME_MAX_LEN then some .dropped
  else do
    let dst ← storePair s.dst s.pTempDstBuf c
    write dst (dest_index + 1)

/-- The checksum, behind the loop. -/
def checksum (s : Copy) : Option Reply :=
  if s.cCheckSum = STX_L1_OCTET then s.checksumPair 0x01
  else if s.cCheckSum = MUX_KEY_WORD then s.checksumPair MUX_KEY_WORD
  else do
    let dst ← s.dst.store s.pTempDstBuf s.cCheckSum
    write dst (s.dest_index + 1)

end Copy

/-! ## Frames -/

/-- The octets in front of the data. -/
def header (LocalLen PeerLen : UInt16) : List UInt8 :=
  [0x55, hi (LocalLen.toNat + PeerLen.toNat + 5), lo (LocalLen.toNat + PeerLen.toNat + 5), 0x60,
    lo LocalLen.toNat, hi LocalLen.toNat, lo PeerLen.toNat, hi PeerLen.toNat]

section

variable (src dst : Nat → UInt8)

/-- `FTMuxPrimitiveData`; `src` and `dst` are what its allocations find. -/
def FTMuxPrimitiveData (pMuxBuf : META_RX_DATA) : Option Reply :=
  let cbTxBuffer := pMuxBuf.LocalLen.toNat + pMuxBuf.PeerLen.toNat + 9
  if cbTxBuffer > FRAME_MAX_LEN then some .dropped
  else do
    let pMamptrBase ← Block.copyIn ⟨src, cbTxBuffer⟩ 0 (header pMuxBuf.LocalLen pMuxBuf.PeerLen)
    let data ← pMuxBuf.pData.copyOut 0 (pMuxBuf.LocalLen.toNat + pMuxBuf.PeerLen.toNat)
    let pMamptrBase ← pMamptrBase.copyIn 8 data
    let s ← Copy.turns pMamptrBase (cbTxBuffer - 1) ⟨⟨dst, FRAME_MAX_LEN⟩, 0, 0, 0, 0⟩
    s.checksum

/-- What a module hands over: the octets of the two parts, and their lengths.  A local part is
there unless its length is 0; a peer part may be missing. -/
structure Parts where
  Local_buf : Option (List UInt8)
  Local_len : UInt16
  Peer_buf : Option (List UInt8)
  Peer_len : UInt16
  length_local : (Local_buf.getD []).length = Local_len.toNat
  length_peer : ∀ bs, Peer_buf = some bs → bs.length = Peer_len.toNat

/-- The tests of `WriteDataToPC`. -/
def Parts.Accepted (p : Parts) : Prop :=
  ¬ (p.Local_len.toNat + p.Peer_len.toNat > FT_MAX_LEN ∨ p.Peer_len.toNat > PEER_BUF_MAX_LEN) ∧
    ¬ (p.Local_len = 0 ∧ p.Local_buf = none)

instance (p : Parts) : Decidable p.Accepted := inferInstanceAs (Decidable (_ ∧ _))

/-- The peer part is copied to `cPeerbuf`, if there is one. -/
def Parts.copyPeer (p : Parts) (metaRxbuf : Block UInt8) : Option (Block UInt8) :=
  match p.Peer_buf with
  | some bs =>
      if p.Peer_len > 0 then metaRxbuf.copyIn (p.Local_len.toNat + 8) bs else some metaRxbuf
  | none => some metaRxbuf

/-- `WriteDataToPC`; its own buffer is cleared. -/
def WriteDataToPC (p : Parts) : Option Reply := do
  let dataLen := p.Local_len.toNat + p.Peer_len.toNat + 8 + 1
  let metaRxbuf : Block UInt8 := ⟨fun _ => 0, dataLen⟩
  let LocalLen := p.Local_len
  let PeerLen := if p.Peer_len > 0 then p.Peer_len + 8 else p.Peer_len
  if p.Accepted then
    let metaRxbuf ← metaRxbuf.copyIn 0 (p.Local_buf.getD [])
    let metaRxbuf ← p.copyPeer metaRxbuf
    FTMuxPrimitiveData src dst ⟨metaRxbuf, LocalLen, PeerLen⟩
  else return .refused

end

end PortHandle

end MtkHw.Meta
