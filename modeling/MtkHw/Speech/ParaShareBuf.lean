import MtkHw.Lib.Ring
import Mathlib.Tactic.Common

/-!
# The shared memory of the dynamic parameters

With `USE_CCCI_SHARE_BUFFER` the parameters of the modem's speech enhancement do not travel in the
message that announces them: they lie in a ring in memory shared with the modem, between two guard
areas.  Positions are offsets from the start of the shared memory.  The read and the write position
coincide when the ring is empty and when it is full, and a flag tells the two apart.
-/

namespace MtkHw.Speech

open Lib

/-- The length of each of the two guard areas. -/
def ccciSharebufGuardLength : Nat := 32

/-- The length of the header before the parameters. -/
def ccciShareBuffHeaderLen : Nat := 6

/-- The shared memory (`mA2MParaShareBufBase` and `mA2MParaShareBufLen`) with the positions of the
ring in it (`mA2MParaShareBuf`). -/
structure ParaShareBuf where
  len : Nat
  mem : Nat → UInt8
  pRead : Nat
  pWrite : Nat
  mIsA2MParaShareBufEmpty : Bool

namespace ParaShareBuf

/-- The start of the ring. -/
def pBufBase (_ : ParaShareBuf) : Nat := ccciSharebufGuardLength

/-- The size of the ring. -/
def bufLen (r : ParaShareBuf) : Nat := r.len - 2 * ccciSharebufGuardLength

/-- The end of the ring. -/
def pBufEnd (r : ParaShareBuf) : Nat := r.pBufBase + r.bufLen

/-- `InitA2MRawParaRingBuffer`: the ring is emptied and the guard areas are filled. -/
def initA2MRawParaRingBuffer (r : ParaShareBuf) : ParaShareBuf :=
  { r with
    pRead := r.pBufBase
    pWrite := r.pBufBase
    mem := Ring.blit (Ring.blit r.mem 0 (.replicate ccciSharebufGuardLength 0xa)) r.pBufEnd
      (.replicate ccciSharebufGuardLength 0xa)
    mIsA2MParaShareBufEmpty := true }

/-- The free space of the ring, before it is cut to 16 bits. -/
def space (r : ParaShareBuf) : Nat :=
  if r.pWrite > r.pRead then r.bufLen - (r.pWrite - r.pRead)
  else if r.pWrite = r.pRead then (if r.mIsA2MParaShareBufEmpty then r.bufLen else 0)
  else r.pRead - r.pWrite

/-- `GetA2MRawParaRingBuffer`: the offset of the write position, and the free space. -/
def getA2MRawParaRingBuffer (r : ParaShareBuf) : UInt16 × UInt16 :=
  (.ofNat r.pWrite, .ofNat r.space)

/-- `AdvanceA2MRawParaRingBuffer`: the space of an acknowledged message is given back. -/
def advanceA2MRawParaRingBuffer (r : ParaShareBuf) (datalength : Nat) : ParaShareBuf :=
  let pRead := if r.pRead + datalength ≥ r.pBufEnd then r.pRead + datalength - r.bufLen
    else r.pRead + datalength
  { r with
    pRead := pRead
    mIsA2MParaShareBufEmpty := if pRead = r.pWrite then true else r.mIsA2MParaShareBufEmpty }

/-- The cells that may be written before the write position has to turn. -/
def part1 (r : ParaShareBuf) : Nat :=
  if r.pWrite ≥ r.pRead then r.pBufEnd - r.pWrite else r.pRead - r.pWrite

/-- `WriteA2MRawParaRingBuffer`: the data is copied in one part, or in two. -/
def writeA2MRawParaRingBuffer (r : ParaShareBuf) (data : List UInt8) : ParaShareBuf :=
  if data.length > r.bufLen then r
  else if r.part1 > data.length then
    { r with
      mem := Ring.blit r.mem r.pWrite data
      pWrite := r.pWrite + data.length
      mIsA2MParaShareBufEmpty := false }
  else
    { r with
      mem := Ring.blit (Ring.blit r.mem r.pWrite (data.take r.part1)) r.pBufBase
        (data.drop r.part1)
      pWrite := r.pBufBase + (data.length - r.part1)
      mIsA2MParaShareBufEmpty := false }

end ParaShareBuf

end MtkHw.Speech
