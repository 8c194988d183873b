import MtkHw.Lib.Descriptor
import MtkHw.Lib.Loop
import MtkHw.Lib.Ring

/-!
# User data in fragments

`RfxSender::sendUserData` writes a header of eight bytes and then the data, in pieces of
`MAX_FRAME_SIZE` bytes; `RfxReader::readerLoopForFragData` reads a header, collects as much
data as the header says and hands it out as an event.

The bytes written are read in order.  Each side has scripts for its calls: the writes, the
reads of headers and the reads of data.  Lengths are below 2^31, where the `int` cursors do
not overflow, and memory is always available.
-/

namespace MtkHw.Rfx

open Lib Ring

/-! ## `RfxFragmentEncoder` -/

namespace RfxFragmentEncoder

def VERSION : UInt8 := 1
def HEADER_SIZE : Nat := 8
def MAX_FRAME_SIZE : Nat := 2048
def FRAME_START_FLAG : UInt8 := 0x7F
def FRAME_END_FLAG : UInt8 := 0x7F
def FRAME_START_FLAG_SIZE : Nat := 2

end RfxFragmentEncoder

open RfxFragmentEncoder

structure RfxFragmentData where
  mVersion : Int
  mClientId : Int
  mConfig : Int
  mLength : Nat
deriving DecidableEq, Repr

/-- `RfxFragmentData()` -/
def RfxFragmentData.default : RfxFragmentData := ⟨1, -1, 0, 0⟩

/-- The header, and the zero behind it. -/
def encodeHeader (data : RfxFragmentData) : List UInt8 :=
  [FRAME_START_FLAG, FRAME_START_FLAG, VERSION, UInt8.ofInt data.mClientId, UInt8.ofInt data.mConfig,
    UInt8.ofNat (data.mLength &&& 0x00FF), UInt8.ofNat ((data.mLength &&& 0xFF00) >>> 8),
    FRAME_END_FLAG, 0]

/-- Steps over `startCount` start flags. -/
def skipStartFlags (header : Nat → UInt8) : Nat → Nat → Option Nat
  | 0, p => some p
  | startCount + 1, p =>
      if header p = FRAME_START_FLAG then skipStartFlags header startCount (p + 1) else none

def decodeHeader (header : Nat → UInt8) : RfxFragmentData :=
  match skipStartFlags header FRAME_START_FLAG_SIZE 0 with
  | none => .default
  | some p =>
      let version := header p
      let clientId := header (p + 1)
      let config := header (p + 2)
      let length := header (p + 3)
      let lengthExt := header (p + 4)
      let dataLength := length.toNat + lengthExt.toNat <<< 8
      let endFlag := header (p + 5)
      if endFlag = FRAME_END_FLAG then ⟨version.toNat, clientId.toNat, config.toNat, dataLength⟩
      else .default

/-! ## The sender -/

/-- `RAW_DATA_ERROR_GENERIC` -/
def rawDataErrorGeneric : Int := -1

/-- What has been written, and what the coming writes will do. -/
structure Channel where
  output : List UInt8
  writes : List Outcome

/-- `write(m_fd, bytes, _)` -/
def Channel.write (c : Channel) (bytes : List UInt8) : Transfer × Channel :=
  match Lib.write bytes c.writes with
  | (.count written, writes) => (.count written, ⟨c.output ++ written, writes⟩)
  | (t, writes) => (t, ⟨c.output, writes⟩)

/-- What the loop of `writelineUserData` works on. -/
structure WriteState where
  writeTimes : Nat
  writeP : Nat
  channel : Channel

/-- A turn of the loop, or the last write. -/
def writeTurn (frame : Nat → UInt8) (remain : Nat) (s : WriteState) : WriteState ⊕ Int × Channel :=
  if s.writeTimes ≠ 0 then
    let (count, channel) := s.channel.write (slice frame s.writeP MAX_FRAME_SIZE)
    let writeP := s.writeP + MAX_FRAME_SIZE
    match count with
    | .interrupted => .inl ⟨s.writeTimes, writeP, channel⟩
    | .failed => .inr (rawDataErrorGeneric, channel)
    | _ => .inl ⟨s.writeTimes - 1, writeP, channel⟩
  else
    let (count, channel) := s.channel.write (slice frame s.writeP remain)
    match count with
    | .failed => .inr (rawDataErrorGeneric, channel)
    | _ => .inr (0, channel)

/-- `RfxSender::writelineUserData`; the frame is somewhere in memory. -/
def writelineUserData (frame : Nat → UInt8) (length : Nat) (c : Channel) : Option (Int × Channel) :=
  loop (writeTurn frame (length % MAX_FRAME_SIZE))
    (length / MAX_FRAME_SIZE + c.writes.length + 1) ⟨length / MAX_FRAME_SIZE, 0, c⟩

/-- The arguments of `sendUserData`. -/
structure UserData where
  clientId : Int
  config : Int
  /-- The memory that `data` points to. -/
  frame : Nat → UInt8
  length : Nat

/-- The data. -/
def UserData.data (d : UserData) : List UInt8 := slice d.frame 0 d.length

/-- `RfxSender::sendUserData` -/
def sendUserData (d : UserData) (c : Channel) : Option (Int × Channel) := do
  let header := encodeHeader ⟨VERSION.toNat, d.clientId, d.config, d.length⟩
  let (ret, c) ← writelineUserData (fun i => header.getD i 0) HEADER_SIZE c
  if d.length > 0 then writelineUserData d.frame d.length c else return (ret, c)

/-- One call after the other. -/
def sendAll : List UserData → Channel → Option Channel
  | [], c => some c
  | d :: sends, c => do
      let (_, c) ← sendUserData d c
      sendAll sends c

/-! ## The reader -/

/-- What the loops that collect the data work on. -/
structure DataState where
  aggregateData : Nat → UInt8
  tmpData : Nat → UInt8
  writeP : Nat
  readTimes : Nat
  readTmp : Nat
  bytes : List UInt8
  reads : List Outcome

/-- Reads into `tmpData` and copies what was read behind the data collected so far; the
result is `none` when the reader returns, or waits for ever. -/
def DataState.readUpto (s : DataState) (want : Nat) : DataState ⊕ Option DataState :=
  match Lib.read want s.bytes s.reads with
  | (.interrupted, bytes, reads) => .inl { s with bytes, reads }
  | (.count got, bytes, reads) =>
      let tmpData := blit s.tmpData 0 got
      let aggregateData := blit s.aggregateData s.writeP (slice tmpData 0 got.length)
      .inl ⟨aggregateData, tmpData, s.writeP + got.length, s.readTimes, s.readTmp + got.length,
        bytes, reads⟩
  | _ => .inr none

/-- A turn of the loops that collect the data. -/
def dataTurn (remain : Nat) (s : DataState) : DataState ⊕ Option DataState :=
  if s.readTimes ≠ 0 then
    if s.readTmp < MAX_FRAME_SIZE then s.readUpto (MAX_FRAME_SIZE - s.readTmp)
    else .inl { s with readTmp := 0, readTimes := s.readTimes - 1 }
  else if s.readTmp < remain then s.readUpto (remain - s.readTmp)
  else .inr (some s)

/-- A bound for the turns of the loops. -/
def dataSize (s : DataState) : Nat := s.bytes.length + s.reads.length + s.readTimes

/-- Collects `length` bytes of data. -/
def readData (length : Nat) (bytes : List UInt8) (reads : List Outcome) : Option DataState :=
  let s : DataState := ⟨fun _ => 0, fun _ => 0, 0, length / MAX_FRAME_SIZE, 0, bytes, reads⟩
  (loop (dataTurn (length % MAX_FRAME_SIZE)) (dataSize s + 1) s).join

/-- What `readerLoopForFragData` works on. -/
structure FragState where
  header : Nat → UInt8
  bytes : List UInt8
  headerReads : List Outcome
  dataReads : List Outcome
  /-- The data of the events so far. -/
  events : List (List UInt8)

/-- A header, or part of one, has been read: the data are collected and handed out. -/
def FragState.received (s : FragState) (got bytes : List UInt8) (headerReads : List Outcome) :
    FragState ⊕ List (List UInt8) :=
  let header := blit s.header 0 got
  let fragData := decodeHeader header
  match readData fragData.mLength bytes s.dataReads with
  | none => .inr s.events
  | some d =>
      .inl ⟨header, d.bytes, headerReads, d.reads,
        s.events ++ [slice d.aggregateData 0 fragData.mLength]⟩

/-- A turn of the loop of `readerLoopForFragData`. -/
def fragTurn (s : FragState) : FragState ⊕ List (List UInt8) :=
  match Lib.read HEADER_SIZE s.bytes s.headerReads with
  | (.interrupted, bytes, headerReads) => .inl { s with bytes, headerReads }
  | (.count got, bytes, headerReads) =>
      if got = [] then .inl { s with bytes, headerReads } else s.received got bytes headerReads
  | _ => .inr s.events

/-- `RfxReader::readerLoopForFragData`: the data of the events. -/
def readerLoopForFragData (bytes : List UInt8) (headerReads dataReads : List Outcome) :
    Option (List (List UInt8)) :=
  loop fragTurn (bytes.length + headerReads.length + 1) ⟨fun _ => 0, bytes, headerReads, dataReads, []⟩

/-- The events when the bytes written by one side are read by the other. -/
def transport (sends : List UserData) (writes headerReads dataReads : List Outcome) :
    Option (List (List UInt8)) := do
  let c ← sendAll sends ⟨[], writes⟩
  readerLoopForFragData c.output headerReads dataReads

end MtkHw.Rfx
