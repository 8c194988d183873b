import MtkHw.Lib.Block
import MtkHw.Lib.Machine
import MtkHw.Speech.Message
import MtkHw.Speech.ParaRing
import MtkHw.Speech.System

/-!
# Uplink data

Recorded speech comes from the modem in messages with a payload.  The messenger copies it
into its half of the share buffer, behind what it has copied there before, and hands on a
ring buffer that covers the data: the payload behind its header, or, for raw samples, what
it has put together in a local buffer, with a header of its own for each direction.

The lengths come with the message.  A copy that leaves the payload, the local buffer or
the share buffer is a fault; the payload has as many bytes as have been read.
-/

namespace MtkHw.Speech

open Lib

def ccciMaxPayloadByte : Nat := 3440
def ccciPayloadBuffHeaderLen : Nat := 10
def ccciRawPcmBuffHeaderLen : Nat := 8
def eemcsM2aShareBuffHeaderSync : UInt16 := 0x1234
def audioFormatPcm16Bit : UInt16 := 1

/-- The half of the share buffer for data from the modem. -/
def mM2AShareBufLen : Nat := 16000

/-- The size of `SeqPcmBuf`. -/
def seqPcmBufSize : Nat := 3456

inductive RecordType where
  | ul
  | dl
  | mix
deriving DecidableEq, Repr

/-! ## Messages with a payload -/

/-- A message as it has been read from the channel: the array for its payload, and how much
of it has been read. -/
structure DataMessage where
  ccciBuff : CcciBuff
  payload : Nat → UInt8
  received : Nat
  received_le : received ≤ ccciMaxPayloadByte

/-- A half-word of a byte array. -/
def loadHalfWord (mem : Nat → UInt8) (i : Nat) : UInt16 :=
  (mem i).toUInt16 ||| (mem (i + 1)).toUInt16 <<< 8

namespace DataMessage

/-- `ReadMessage` takes the size of the message's own header off its length. -/
def readMessage (m : DataMessage) : DataMessage :=
  if m.ccciBuff.magic ≠ ccciMailboxMagicNumber then
    { m with ccciBuff := { m.ccciBuff with
        message := m.ccciBuff.message - ccciBufHeaderSize } }
  else m

/-- The received bytes. -/
def block (m : DataMessage) : Block UInt8 := ⟨m.payload, m.received⟩

def syncWord (m : DataMessage) : UInt16 := loadHalfWord m.payload 0
def dataCurIdx (m : DataMessage) : UInt16 := loadHalfWord m.payload 6
def dataTotalIdx (m : DataMessage) : UInt16 := loadHalfWord m.payload 8

def length (m : DataMessage) : Nat := m.ccciBuff.getMessageLength.toNat

end DataMessage

/-- The header before raw samples (`spcRAWPCMBufInfo`). -/
structure RawPcmBufInfo where
  u16ULFreq : UInt16
  u16ULLength : UInt16
  u16DLFreq : UInt16
  u16DLLength : UInt16

def DataMessage.rawPcmBufInfo (m : DataMessage) : RawPcmBufInfo where
  u16ULFreq := loadHalfWord m.payload ccciPayloadBuffHeaderLen
  u16ULLength := loadHalfWord m.payload (ccciPayloadBuffHeaderLen + 2)
  u16DLFreq := loadHalfWord m.payload (ccciPayloadBuffHeaderLen + 4)
  u16DLLength := loadHalfWord m.payload (ccciPayloadBuffHeaderLen + 6)

def getPcmFreq (idx_freq : UInt16) : UInt16 :=
  if idx_freq = 1 then 16000 else if idx_freq = 2 then 32000
  else if idx_freq = 3 then 48000 else 8000

/-- The header that the messenger puts before raw samples (`spcApRAWPCMBufHdr`). -/
def apRawPcmBufHdr (u16RawPcmDir u16Freq u16Length : UInt16) : List UInt8 :=
  halfWord eemcsM2aShareBuffHeaderSync ++ halfWord u16RawPcmDir ++ halfWord u16Freq ++
    halfWord u16Length ++ halfWord 1 ++ halfWord audioFormatPcm16Bit

/-! ## Copies -/

/-- Copy `k` bytes of `src`, from `i` on, to `p`. -/
def memcpy (dst : Block UInt8) (p : Nat) (src : Block UInt8) (i k : Nat) : Option (Block UInt8) :=
  if k = 0 then some dst else (src.copyOut i k).bind (dst.copyIn p)

/-- The part of the messenger that takes uplink data. -/
structure Uplink where
  m2aShareBuf : Block UInt8
  mM2AShareBufRead : Nat
  mA2M_ECCCI_DATA_READ_ACK : Bool
  mPcmRecordType : RecordType

/-- The ring buffer that is handed on, with its positions counted from `pBufBase`. -/
structure UlRingBuf where
  pRead : Nat
  pWrite : Nat
deriving DecidableEq, Repr

namespace Uplink

/-- Copy the first bytes of a buffer behind the read position, in two parts over the end. -/
def copyToShareBuf (u : Uplink) (src : Block UInt8) (length : Nat) :
    Option (Block UInt8 × Nat) :=
  let pWrite := u.mM2AShareBufRead + length
  if mM2AShareBufLen ≤ pWrite then
    let size_copy1 := mM2AShareBufLen - u.mM2AShareBufRead
    let size_copy2 := length - size_copy1
    (memcpy u.m2aShareBuf u.mM2AShareBufRead src 0 size_copy1).bind fun buf =>
      (memcpy buf 0 src size_copy1 size_copy2).map fun buf => (buf, pWrite - mM2AShareBufLen)
  else
    (memcpy u.m2aShareBuf u.mM2AShareBufRead src 0 length).map fun buf => (buf, pWrite)

/-- The last message of its data asks for the acknowledgement. -/
def readAck (u : Uplink) (m : DataMessage) : Bool :=
  if m.dataCurIdx = m.dataTotalIdx then true else u.mA2M_ECCCI_DATA_READ_ACK

def getM2AUplinkRingBuffer (u : Uplink) (m : DataMessage) : Option (Uplink × UlRingBuf) :=
  (u.copyToShareBuf m.block m.length).map fun (buf, pWrite) =>
    let pRead := u.mM2AShareBufRead + ccciPayloadBuffHeaderLen
    ({ u with
        m2aShareBuf := buf
        mM2AShareBufRead := pWrite
        mA2M_ECCCI_DATA_READ_ACK := u.readAck m },
      { pRead := if mM2AShareBufLen ≤ pRead then pRead - mM2AShareBufLen else pRead
        pWrite := pWrite })

/-- Put a header and samples of the payload behind what has been put together. -/
def appendSamples (m : DataMessage) (header : List UInt8) (i : Nat) (bytesToCopy : UInt16)
    (seq : Block UInt8 × UInt16) : Option (Block UInt8 × UInt16) :=
  let (seqPcmBuf, bytesCopied) := seq
  (seqPcmBuf.copyIn bytesCopied.toNat header).bind fun seqPcmBuf =>
    let bytesCopied := bytesCopied + .ofNat header.length
    (memcpy seqPcmBuf bytesCopied.toNat m.block i bytesToCopy.toNat).map fun seqPcmBuf =>
      (seqPcmBuf, bytesCopied + bytesToCopy)

def ulHeader (info : RawPcmBufInfo) : List UInt8 :=
  apRawPcmBufHdr 0 (getPcmFreq info.u16ULFreq) info.u16ULLength

def dlHeader (info : RawPcmBufInfo) : List UInt8 :=
  apRawPcmBufHdr 1 (getPcmFreq info.u16DLFreq) info.u16DLLength

/-- Where the samples of a payload start. -/
def samplesStart : Nat := ccciPayloadBuffHeaderLen + ccciRawPcmBuffHeaderLen

/-- What is put together of a payload. -/
def seqPcmBuf (mPcmRecordType : RecordType) (m : DataMessage) :
    Option (Block UInt8 × UInt16) :=
  let info := m.rawPcmBufInfo
  let uplink := appendSamples m (ulHeader info) samplesStart info.u16ULLength
  let downlink := appendSamples m (dlHeader info) (samplesStart + info.u16ULLength.toNat)
    info.u16DLLength
  match mPcmRecordType with
  | .ul => uplink (⟨fun _ => 0, seqPcmBufSize⟩, 0)
  | .dl => downlink (⟨fun _ => 0, seqPcmBufSize⟩, 0)
  | .mix => (uplink (⟨fun _ => 0, seqPcmBufSize⟩, 0)).bind downlink

def getM2ARawPcmRingBuffer (u : Uplink) (m : DataMessage) : Option (Uplink × UlRingBuf) :=
  -- `spcRAWPCMBufInfo` is copied out of the payload
  (m.block.copyOut ccciPayloadBuffHeaderLen ccciRawPcmBuffHeaderLen).bind fun _ =>
    (seqPcmBuf u.mPcmRecordType m).bind fun (seq, bytesCopied) =>
      (u.copyToShareBuf seq bytesCopied.toNat).map fun (buf, pWrite) =>
        ({ u with
            m2aShareBuf := buf
            mM2AShareBufRead := pWrite
            mA2M_ECCCI_DATA_READ_ACK := u.readAck m },
          ⟨u.mM2AShareBufRead, pWrite⟩)

/-- The bytes from the read to the write position. -/
def contents (u : Uplink) (r : UlRingBuf) : List UInt8 :=
  let count := if r.pRead ≤ r.pWrite then r.pWrite - r.pRead
    else r.pWrite + mM2AShareBufLen - r.pRead
  Ring.walk mM2AShareBufLen u.m2aShareBuf.mem r.pRead count

end Uplink

/-! ## Runs -/

/-- The payload behind the header. -/
def DataMessage.data (m : DataMessage) : List UInt8 :=
  Ring.slice m.payload ccciPayloadBuffHeaderLen (m.length - ccciPayloadBuffHeaderLen)

def DataMessage.ulSamples (m : DataMessage) : List UInt8 :=
  Ring.slice m.payload Uplink.samplesStart m.rawPcmBufInfo.u16ULLength.toNat

def DataMessage.dlSamples (m : DataMessage) : List UInt8 :=
  Ring.slice m.payload (Uplink.samplesStart + m.rawPcmBufInfo.u16ULLength.toNat)
    m.rawPcmBufInfo.u16DLLength.toNat

/-- The raw samples that are selected, each direction behind its header. -/
def DataMessage.rawData (m : DataMessage) : RecordType → List UInt8
  | .ul => Uplink.ulHeader m.rawPcmBufInfo ++ m.ulSamples
  | .dl => Uplink.dlHeader m.rawPcmBufInfo ++ m.dlSamples
  | .mix => Uplink.ulHeader m.rawPcmBufInfo ++ m.ulSamples ++
      (Uplink.dlHeader m.rawPcmBufInfo ++ m.dlSamples)

/-- The messenger, whether it has left its buffers, and what it has handed on last, with the
data that it should hold. -/
structure UplinkSystem where
  messenger : Uplink
  faulted : Bool
  handed : Option (List UInt8 × UlRingBuf)

inductive UplinkAction where
  | uplinkData (m : DataMessage)
  | rawPcmData (m : DataMessage)
  | setPcmRecordType (type_record : RecordType)

namespace UplinkSystem

def hand (s : UplinkSystem) (data : List UInt8) : Option (Uplink × UlRingBuf) → UplinkSystem
  | some (messenger, r) => ⟨messenger, false, some (data, r)⟩
  | none => { s with faulted := true }

/-- A message is taken if its sync word is valid. -/
def Takes (s : UplinkSystem) (m : DataMessage) : Prop :=
  s.faulted = false ∧ m.syncWord = eemcsM2aShareBuffHeaderSync

instance (s : UplinkSystem) (m : DataMessage) : Decidable (s.Takes m) := by
  unfold Takes
  infer_instance

def step (s : UplinkSystem) : UplinkAction → Option UplinkSystem
  | .uplinkData m =>
    if s.Takes m then
      some (s.hand m.readMessage.data (s.messenger.getM2AUplinkRingBuffer m.readMessage))
    else none
  | .rawPcmData m =>
    if s.Takes m then
      some (s.hand (m.readMessage.rawData s.messenger.mPcmRecordType)
        (s.messenger.getM2ARawPcmRingBuffer m.readMessage))
    else none
  | .setPcmRecordType type_record =>
    some { s with messenger := { s.messenger with mPcmRecordType := type_record } }

/-- The buffers are never left, the positions lie in the share buffer, and what is handed on
holds the data of the message. -/
structure Delivers (s : UplinkSystem) : Prop where
  safe : s.faulted = false
  read_lt : s.messenger.mM2AShareBufRead < mM2AShareBufLen
  handed : ∀ data r, s.handed = some (data, r) →
    r.pRead < mM2AShareBufLen ∧ r.pWrite < mM2AShareBufLen ∧ s.messenger.contents r = data

end UplinkSystem

def DataMessage.UlReceived (m : DataMessage) : Prop :=
  Uplink.samplesStart + m.rawPcmBufInfo.u16ULLength.toNat ≤ m.received

def DataMessage.DlReceived (m : DataMessage) : Prop :=
  m.rawPcmBufInfo.u16DLLength = 0 ∨ Uplink.samplesStart +
    m.rawPcmBufInfo.u16ULLength.toNat + m.rawPcmBufInfo.u16DLLength.toNat ≤ m.received

/-- The samples that are selected lie in what has been received. -/
def DataMessage.SamplesReceived (m : DataMessage) : RecordType → Prop
  | .ul => m.UlReceived
  | .dl => m.DlReceived
  | .mix => m.UlReceived ∧ m.DlReceived

/-- The length covers the header and is covered by what has been received; the samples that
are selected have been received, and the header before them. -/
def UplinkSystem.Kept (s : UplinkSystem) : UplinkAction → Prop
  | .uplinkData m => s.Takes m →
    ccciPayloadBuffHeaderLen ≤ m.readMessage.length ∧ m.readMessage.length ≤ m.received
  | .rawPcmData m => s.Takes m → Uplink.samplesStart ≤ m.received ∧
    m.SamplesReceived s.messenger.mPcmRecordType
  | .setPcmRecordType _ => True

def uplinkMachine (m2aShareBuf : Nat → UInt8) : Machine UplinkSystem UplinkAction where
  init := ⟨⟨⟨m2aShareBuf, mM2AShareBufLen⟩, 0, false, .ul⟩, false, none⟩
  step := UplinkSystem.step

/-! ## Copies -/

/-- A copy within both buffers. -/
theorem memcpy_eq {dst src : Block UInt8} {p i k : Nat} (hsrc : i + k ≤ src.size)
    (hdst : p + k ≤ dst.size) :
    memcpy dst p src i k =
      some { dst with mem := Ring.blit dst.mem p (Ring.slice src.mem i k) } := by
  unfold memcpy
  split_ifs with hzero
  · subst hzero
    change some dst = some { dst with mem := Ring.blit dst.mem p [] }
    rw [Ring.blit_nil]
  · rw [Block.copyOut, if_pos hsrc, Option.bind_some, Block.copyIn, Ring.length_slice,
      if_pos hdst]

/-- A copy from outside. -/
theorem memcpy_eq_none {src : Block UInt8} {i k : Nat} (hk : k ≠ 0) (h : src.size < i + k)
    (dst : Block UInt8) (p : Nat) : memcpy dst p src i k = none := by
  rw [memcpy, if_neg hk, Block.copyOut, if_neg (Nat.not_le_of_lt h), Option.bind_none]

/-- A message whose length has been received is shorter than the share buffer. -/
theorem DataMessage.length_lt (m : DataMessage) (h : m.length ≤ m.received) :
    m.length < mM2AShareBufLen :=
  Nat.lt_of_le_of_lt (h.trans m.received_le) (by decide)

namespace Uplink

variable {u : Uplink} {src : Block UInt8} {length : Nat}

/-- The ring of the share buffer, of its size and with a position inside. -/
structure Sized (u : Uplink) : Prop where
  size : u.m2aShareBuf.size = mM2AShareBufLen
  read_lt : u.mM2AShareBufRead < mM2AShareBufLen

/-- What is copied stands behind the read position. -/
theorem copyToShareBuf_eq (h : u.Sized) (hsrc : length ≤ src.size)
    (hlength : length ≤ mM2AShareBufLen) :
    ∃ buf, u.copyToShareBuf src length =
        some (buf, Ring.advance mM2AShareBufLen u.mM2AShareBufRead length) ∧
      buf.size = mM2AShareBufLen ∧
      Ring.Stores mM2AShareBufLen buf.mem u.mM2AShareBufRead (Ring.slice src.mem 0 length) := by
  have hread := h.read_lt
  have hsize := h.size
  have hstores := (Ring.Stores.nil u.m2aShareBuf.mem hread).put
    (show ([] : List UInt8).length + (Ring.slice src.mem 0 length).length ≤ mM2AShareBufLen by
      rwa [Ring.length_slice, List.length_nil, Nat.zero_add])
  rw [List.length_nil, Ring.advance_zero hread, List.nil_append] at hstores
  unfold copyToShareBuf
  dsimp only
  split_ifs with hend
  · obtain ⟨k, hk⟩ : ∃ k, k = mM2AShareBufLen - u.mM2AShareBufRead := ⟨_, rfl⟩
    have hsplit : Ring.slice src.mem 0 length =
        Ring.slice src.mem 0 k ++ Ring.slice src.mem k (length - k) := by
      rw [← Ring.slice_add_zero src.mem k (length - k),
        Nat.add_sub_cancel' (by omega)]
    have hmoved : u.mM2AShareBufRead + length - mM2AShareBufLen =
        Ring.advance mM2AShareBufLen u.mM2AShareBufRead length := by
      rw [Ring.advance, if_neg (Nat.not_lt_of_le hend)]
    rw [← hk, memcpy_eq (by omega) (by omega), Option.bind_some,
      memcpy_eq (by omega) (by change 0 + _ ≤ u.m2aShareBuf.size; omega), Option.map_some, hmoved]
    refine ⟨_, rfl, hsize, hstores.congr fun i _ => ?_⟩
    · rw [Ring.put_of_le _ (by rw [Ring.length_slice]; omega), ← hk, hsplit,
        List.take_left' (Ring.length_slice ..), List.drop_left' (Ring.length_slice ..)]
  · have hmoved : u.mM2AShareBufRead + length =
        Ring.advance mM2AShareBufLen u.mM2AShareBufRead length := by
      rw [Ring.advance, if_pos (Nat.lt_of_not_le hend)]
    rw [memcpy_eq (by omega) (by omega), Option.map_some, hmoved]
    refine ⟨_, rfl, hsize, hstores.congr fun i _ => ?_⟩
    · rw [Ring.put, if_neg (by rw [Ring.length_slice]; omega)]

/-- What is not there cannot be copied. -/
theorem copyToShareBuf_eq_none (h : u.Sized) (hsrc : src.size < length) :
    u.copyToShareBuf src length = none := by
  have hread := h.read_lt
  unfold copyToShareBuf
  dsimp only
  split_ifs with hend
  · by_cases hfirst : src.size < mM2AShareBufLen - u.mM2AShareBufRead
    · rw [memcpy_eq_none (by omega) (by omega), Option.bind_none]
    · refine Option.bind_eq_none_iff.mpr fun buf _ => ?_
      rw [memcpy_eq_none (by omega) (by omega), Option.map_none]
  · rw [memcpy_eq_none (by omega) (by omega), Option.map_none]

/-- What lies between two positions of what is stored. -/
theorem contents_eq {xs : List UInt8} {p j : Nat}
    (h : Ring.Stores mM2AShareBufLen u.m2aShareBuf.mem p xs) (hlt : xs.length < mM2AShareBufLen)
    (hj : j ≤ xs.length) :
    u.contents ⟨Ring.advance mM2AShareBufLen p j, Ring.advance mM2AShareBufLen p xs.length⟩ =
      xs.drop j := by
  have hp := h.lt
  have hcount : (if Ring.advance mM2AShareBufLen p j ≤ Ring.advance mM2AShareBufLen p xs.length
      then Ring.advance mM2AShareBufLen p xs.length - Ring.advance mM2AShareBufLen p j
      else Ring.advance mM2AShareBufLen p xs.length + mM2AShareBufLen -
        Ring.advance mM2AShareBufLen p j) = xs.length - j := by
    unfold Ring.advance
    split_ifs <;> omega
  unfold contents
  dsimp only
  rw [hcount, h.walk_part (by omega), List.take_of_length_le]
  rw [List.length_drop]

/-- The first part of a payload, without the header. -/
theorem drop_slice (m : DataMessage) (h : ccciPayloadBuffHeaderLen ≤ m.length) :
    (Ring.slice m.payload 0 m.length).drop ccciPayloadBuffHeaderLen = m.data := by
  rw [DataMessage.data, ← Nat.add_sub_cancel' h, Ring.slice_add_zero,
    List.drop_left' (Ring.length_slice ..), Nat.add_sub_cancel_left]

/-! ## The functions -/

theorem advance_header :
    (if mM2AShareBufLen ≤ u.mM2AShareBufRead + ccciPayloadBuffHeaderLen then
      u.mM2AShareBufRead + ccciPayloadBuffHeaderLen - mM2AShareBufLen
    else u.mM2AShareBufRead + ccciPayloadBuffHeaderLen) =
      Ring.advance mM2AShareBufLen u.mM2AShareBufRead ccciPayloadBuffHeaderLen := by
  unfold Ring.advance
  split_ifs <;> omega

/-- A message whose length has been received is copied. -/
theorem getM2AUplinkRingBuffer_eq (h : u.Sized) (m : DataMessage)
    (hlength : m.length ≤ m.received) :
    ∃ u', u.getM2AUplinkRingBuffer m =
        some (u', ⟨Ring.advance mM2AShareBufLen u.mM2AShareBufRead ccciPayloadBuffHeaderLen,
          Ring.advance mM2AShareBufLen u.mM2AShareBufRead m.length⟩) ∧
      u'.m2aShareBuf.size = mM2AShareBufLen ∧
      u'.mM2AShareBufRead = Ring.advance mM2AShareBufLen u.mM2AShareBufRead m.length ∧
      Ring.Stores mM2AShareBufLen u'.m2aShareBuf.mem u.mM2AShareBufRead
        (Ring.slice m.payload 0 m.length) := by
  have hsize := Nat.le_of_lt (m.length_lt hlength)
  obtain ⟨buf, hcopy, hbuf, hstores⟩ := @copyToShareBuf_eq u m.block m.length h hlength hsize
  rw [getM2AUplinkRingBuffer, hcopy, Option.map_some]
  dsimp only
  rw [advance_header]
  exact ⟨_, rfl, hbuf, rfl, hstores⟩

theorem getM2AUplinkRingBuffer_eq_none (h : u.Sized) (m : DataMessage)
    (hlength : m.received < m.length) : u.getM2AUplinkRingBuffer m = none := by
  rw [getM2AUplinkRingBuffer, copyToShareBuf_eq_none h hlength, Option.map_none]

/-- A buffer with something put behind what it holds. -/
theorem memcpy_holds {dst : Block UInt8} {size : Nat} {xs : List UInt8} (hdst : dst.Holds size xs)
    (m : DataMessage) {i k : Nat} (hsrc : k = 0 ∨ i + k ≤ m.received)
    (hroom : xs.length + k ≤ size) :
    ∃ dst', memcpy dst xs.length m.block i k = some dst' ∧
      dst'.Holds size (xs ++ Ring.slice m.payload i k) := by
  by_cases hzero : k = 0
  · subst hzero
    exact ⟨dst, if_pos rfl, by simpa [Ring.slice] using hdst⟩
  · obtain ⟨dst', hcopy, hholds⟩ := hdst.copyIn (Ring.slice m.payload i k)
      (by rwa [Ring.length_slice])
    have hfits : i + k ≤ m.block.size := hsrc.resolve_left hzero
    refine ⟨dst', ?_, hholds⟩
    rw [memcpy, if_neg hzero, Block.copyOut, if_pos hfits, Option.bind_some]
    exact hcopy

/-- A header and samples are put behind what has been put together. -/
theorem appendSamples_eq {m : DataMessage} {seq : Block UInt8} {copied : UInt16}
    {xs : List UInt8} (hseq : seq.Holds seqPcmBufSize xs) (hcopied : copied.toNat = xs.length)
    {header : List UInt8} {i : Nat} {k : UInt16} (hsrc : k.toNat = 0 ∨ i + k.toNat ≤ m.received)
    (hroom : xs.length + header.length + k.toNat ≤ seqPcmBufSize) :
    ∃ seq' copied', appendSamples m header i k (seq, copied) = some (seq', copied') ∧
      seq'.Holds seqPcmBufSize (xs ++ (header ++ Ring.slice m.payload i k.toNat)) ∧
      copied'.toNat = xs.length + (header.length + k.toNat) := by
  have hbound : seqPcmBufSize < 2 ^ 16 := by decide
  obtain ⟨seq₁, hheader, hseq₁⟩ := hseq.copyIn header (Nat.le_of_add_right_le hroom)
  have hcopied₁ : (copied + UInt16.ofNat header.length).toNat = (xs ++ header).length := by
    rw [UInt16.toNat_add, UInt16.toNat_ofNat', hcopied, List.length_append]
    omega
  obtain ⟨seq₂, hsamples, hseq₂⟩ := memcpy_holds hseq₁ m hsrc (by rwa [List.length_append])
  refine ⟨seq₂, copied + UInt16.ofNat header.length + k, ?_, ?_, ?_⟩
  · unfold appendSamples
    dsimp only
    rw [hcopied, hheader, Option.bind_some, hcopied₁, hsamples, Option.map_some]
  · rwa [← List.append_assoc]
  · rw [UInt16.toNat_add, hcopied₁, List.length_append]
    omega

/-- Samples that have not been received cannot be copied. -/
theorem appendSamples_eq_none {m : DataMessage} {i : Nat} {k : UInt16} (hk : k.toNat ≠ 0)
    (h : m.received < i + k.toNat) (header : List UInt8) (seq : Block UInt8 × UInt16) :
    appendSamples m header i k seq = none := by
  refine Option.bind_eq_none_iff.mpr fun seq' _ => ?_
  dsimp only
  rw [memcpy_eq_none hk h, Option.map_none]

/-- What has been put together of the selected samples. -/
def SeqPcm (m : DataMessage) (mPcmRecordType : RecordType) (seq : Block UInt8 × UInt16) : Prop :=
  seq.1.Holds seqPcmBufSize (m.rawData mPcmRecordType) ∧
    seq.2.toNat = (m.rawData mPcmRecordType).length

theorem length_ulHeader (info : RawPcmBufInfo) : (ulHeader info).length = 12 := rfl

theorem length_dlHeader (info : RawPcmBufInfo) : (dlHeader info).length = 12 := rfl

theorem length_ulSamples (m : DataMessage) :
    m.ulSamples.length = m.rawPcmBufInfo.u16ULLength.toNat := Ring.length_slice ..

theorem length_dlSamples (m : DataMessage) :
    m.dlSamples.length = m.rawPcmBufInfo.u16DLLength.toNat := Ring.length_slice ..

/-- The samples of the uplink, behind what has been put together. -/
theorem appendUplink_eq {m : DataMessage} (h : m.UlReceived) {seq : Block UInt8} {copied : UInt16}
    {xs : List UInt8} (hseq : seq.Holds seqPcmBufSize xs) (hcopied : copied.toNat = xs.length)
    (hroom : xs.length + 12 + m.rawPcmBufInfo.u16ULLength.toNat ≤ seqPcmBufSize) :
    ∃ seq' copied', appendSamples m (ulHeader m.rawPcmBufInfo) samplesStart
        m.rawPcmBufInfo.u16ULLength (seq, copied) = some (seq', copied') ∧
      seq'.Holds seqPcmBufSize (xs ++ (ulHeader m.rawPcmBufInfo ++ m.ulSamples)) ∧
      copied'.toNat = (xs ++ (ulHeader m.rawPcmBufInfo ++ m.ulSamples)).length := by
  rw [← length_ulHeader m.rawPcmBufInfo] at hroom
  obtain ⟨seq', copied', happend, hholds, hlength⟩ :=
    appendSamples_eq hseq hcopied (.inr h) hroom
  refine ⟨seq', copied', happend, hholds, ?_⟩
  rw [hlength, List.length_append, List.length_append, length_ulSamples]

/-- The samples of the downlink, behind what has been put together. -/
theorem appendDownlink_eq {m : DataMessage} (h : m.DlReceived) {seq : Block UInt8}
    {copied : UInt16} {xs : List UInt8} (hseq : seq.Holds seqPcmBufSize xs)
    (hcopied : copied.toNat = xs.length)
    (hroom : xs.length + 12 + m.rawPcmBufInfo.u16DLLength.toNat ≤ seqPcmBufSize) :
    ∃ seq' copied', appendSamples m (dlHeader m.rawPcmBufInfo)
        (samplesStart + m.rawPcmBufInfo.u16ULLength.toNat) m.rawPcmBufInfo.u16DLLength
        (seq, copied) = some (seq', copied') ∧
      seq'.Holds seqPcmBufSize (xs ++ (dlHeader m.rawPcmBufInfo ++ m.dlSamples)) ∧
      copied'.toNat = (xs ++ (dlHeader m.rawPcmBufInfo ++ m.dlSamples)).length := by
  rw [← length_dlHeader m.rawPcmBufInfo] at hroom
  obtain ⟨seq', copied', happend, hholds, hlength⟩ :=
    appendSamples_eq hseq hcopied (h.imp_left (congrArg UInt16.toNat)) hroom
  refine ⟨seq', copied', happend, hholds, ?_⟩
  rw [hlength, List.length_append, List.length_append, length_dlSamples]

/-- The samples of the downlink that have been received, in what is put together. -/
theorem DlReceived.le {m : DataMessage} (h : m.DlReceived) :
    m.rawPcmBufInfo.u16DLLength.toNat = 0 ∨ samplesStart + m.rawPcmBufInfo.u16ULLength.toNat +
      m.rawPcmBufInfo.u16DLLength.toNat ≤ ccciMaxPayloadByte :=
  h.imp (congrArg UInt16.toNat) fun hle => hle.trans m.received_le

/-- The samples that are selected are put together if they have been received. -/
theorem seqPcmBuf_eq {m : DataMessage} {t : RecordType} (h : m.SamplesReceived t) :
    ∃ seq, seqPcmBuf t m = some seq ∧ SeqPcm m t seq := by
  have hempty : (Block.mk (fun _ => (0 : UInt8)) seqPcmBufSize).Holds seqPcmBufSize [] :=
    Block.holds_nil _ _
  have hnone : (0 : UInt16).toNat = ([] : List UInt8).length := rfl
  have hstart : samplesStart = 18 := rfl
  have hmax : ccciMaxPayloadByte = 3440 := rfl
  have hseq : seqPcmBufSize = 3456 := rfl
  cases t with
  | ul =>
    have hul : m.UlReceived := h
    have hle := Nat.le_trans hul m.received_le
    obtain ⟨seq, copied, hput, hholds, hlength⟩ := appendUplink_eq hul hempty hnone (by
      rw [List.length_nil]
      omega)
    exact ⟨(seq, copied), hput, hholds, hlength⟩
  | dl =>
    have hdl : m.DlReceived := h
    have hle := DlReceived.le hdl
    obtain ⟨seq, copied, hput, hholds, hlength⟩ := appendDownlink_eq hdl hempty hnone (by
      rw [List.length_nil]
      omega)
    exact ⟨(seq, copied), hput, hholds, hlength⟩
  | mix =>
    obtain ⟨hul, hdl⟩ := h
    have hulLe := Nat.le_trans hul m.received_le
    have hle := DlReceived.le hdl
    obtain ⟨seq, copied, hput, hholds, hlength⟩ := appendUplink_eq hul hempty hnone (by
      rw [List.length_nil]
      omega)
    obtain ⟨seq', copied', hput', hholds', hlength'⟩ := appendDownlink_eq hdl hholds hlength (by
      rw [List.nil_append, List.length_append, length_ulHeader, length_ulSamples]
      omega)
    refine ⟨(seq', copied'), ?_, hholds', hlength'⟩
    unfold seqPcmBuf
    dsimp only
    rw [hput, Option.bind_some, hput']

/-- Nothing is put together of samples that have not been received. -/
theorem seqPcmBuf_eq_none {m : DataMessage} {t : RecordType} (hstart : samplesStart ≤ m.received)
    (h : ¬m.SamplesReceived t) : seqPcmBuf t m = none := by
  have hul : ¬m.UlReceived → ∀ seq, appendSamples m (ulHeader m.rawPcmBufInfo) samplesStart
      m.rawPcmBufInfo.u16ULLength seq = none := fun hnot =>
    appendSamples_eq_none (by unfold DataMessage.UlReceived at hnot; omega)
      (Nat.lt_of_not_le hnot) _
  have hdl : ¬m.DlReceived → ∀ seq, appendSamples m (dlHeader m.rawPcmBufInfo)
      (samplesStart + m.rawPcmBufInfo.u16ULLength.toNat) m.rawPcmBufInfo.u16DLLength seq =
        none := fun hnot => by
    obtain ⟨hzero, hlt⟩ := not_or.mp hnot
    exact appendSamples_eq_none (fun heq => hzero (UInt16.toNat_inj.mp heq))
      (Nat.lt_of_not_le hlt) _
  cases t with
  | ul => exact hul h (⟨fun _ => 0, seqPcmBufSize⟩, 0)
  | dl => exact hdl h (⟨fun _ => 0, seqPcmBufSize⟩, 0)
  | mix =>
    by_cases hulReceived : m.UlReceived
    · exact Option.bind_eq_none_iff.mpr fun seq _ => hdl (fun hdlReceived =>
        h ⟨hulReceived, hdlReceived⟩) seq
    · exact Option.bind_eq_none_iff.mpr fun seq hput => by
        rw [hul hulReceived] at hput
        cases hput

/-- The selected samples are copied if they have been received, and the header before them. -/
theorem getM2ARawPcmRingBuffer_eq (h : u.Sized) (m : DataMessage)
    (hstart : samplesStart ≤ m.received) (hsamples : m.SamplesReceived u.mPcmRecordType) :
    ∃ u', u.getM2ARawPcmRingBuffer m =
        some (u', ⟨u.mM2AShareBufRead, Ring.advance mM2AShareBufLen u.mM2AShareBufRead
          (m.rawData u.mPcmRecordType).length⟩) ∧
      u'.m2aShareBuf.size = mM2AShareBufLen ∧
      u'.mM2AShareBufRead = Ring.advance mM2AShareBufLen u.mM2AShareBufRead
        (m.rawData u.mPcmRecordType).length ∧
      Ring.Stores mM2AShareBufLen u'.m2aShareBuf.mem u.mM2AShareBufRead
        (m.rawData u.mPcmRecordType) ∧
      (m.rawData u.mPcmRecordType).length < mM2AShareBufLen := by
  obtain ⟨⟨seq, copied⟩, hseq, hholds, hlength⟩ := seqPcmBuf_eq hsamples
  have hlt : (m.rawData u.mPcmRecordType).length < mM2AShareBufLen :=
    Nat.lt_of_le_of_lt hholds.length_le (by decide)
  obtain ⟨buf, hcopy, hbuf, hstores⟩ :=
    @copyToShareBuf_eq u seq copied.toNat h
      (by rw [hlength, hholds.size_eq]; exact hholds.length_le)
      (by rw [hlength]; exact Nat.le_of_lt hlt)
  have hheader : ccciPayloadBuffHeaderLen + ccciRawPcmBuffHeaderLen ≤ m.block.size := hstart
  rw [hlength] at hcopy
  rw [hlength, hholds.slice_eq] at hstores
  rw [getM2ARawPcmRingBuffer, Block.copyOut, if_pos hheader, Option.bind_some, hseq,
    Option.bind_some]
  dsimp only
  rw [hlength, hcopy, Option.map_some]
  exact ⟨_, rfl, hbuf, rfl, hstores, hlt⟩

theorem getM2ARawPcmRingBuffer_eq_none (u : Uplink) (m : DataMessage)
    (h : ¬(samplesStart ≤ m.received ∧ m.SamplesReceived u.mPcmRecordType)) :
    u.getM2ARawPcmRingBuffer m = none := by
  by_cases hstart : samplesStart ≤ m.received
  · refine Option.bind_eq_none_iff.mpr fun _ _ => ?_
    rw [seqPcmBuf_eq_none hstart fun hsamples => h ⟨hstart, hsamples⟩, Option.bind_none]
  · have hheader : ¬ccciPayloadBuffHeaderLen + ccciRawPcmBuffHeaderLen ≤ m.block.size := hstart
    rw [getM2ARawPcmRingBuffer, Block.copyOut, if_neg hheader, Option.bind_none]

end Uplink

/-! ## Every run -/

namespace UplinkSystem

/-- Every copy stays inside, and the ring of the share buffer has its size. -/
structure Sound (s : UplinkSystem) : Prop where
  delivers : s.Delivers
  size : s.messenger.m2aShareBuf.size = mM2AShareBufLen

theorem Sound.sized {s : UplinkSystem} (h : s.Sound) : s.messenger.Sized :=
  ⟨h.size, h.delivers.read_lt⟩

/-- What a step does: a valid message is handed on, by one of the two functions, or the type of
the record is set. -/
theorem step_cases {s s' : UplinkSystem} {a : UplinkAction} (h : s.step a = some s') :
    (∃ m, a = .uplinkData m ∧ s.Takes m ∧ s' = s.hand m.readMessage.data
      (s.messenger.getM2AUplinkRingBuffer m.readMessage)) ∨
    (∃ m, a = .rawPcmData m ∧ s.Takes m ∧ s' = s.hand
      (m.readMessage.rawData s.messenger.mPcmRecordType)
      (s.messenger.getM2ARawPcmRingBuffer m.readMessage)) ∨
    (∃ t, a = .setPcmRecordType t ∧ s' = { s with
      messenger := { s.messenger with mPcmRecordType := t } }) := by
  cases a with
  | uplinkData m =>
    obtain ⟨htakes, hs'⟩ := Option.ite_none_right_eq_some.mp h
    exact .inl ⟨m, rfl, htakes, (Option.some.inj hs').symm⟩
  | rawPcmData m =>
    obtain ⟨htakes, hs'⟩ := Option.ite_none_right_eq_some.mp h
    exact .inr (.inl ⟨m, rfl, htakes, (Option.some.inj hs').symm⟩)
  | setPcmRecordType t => exact .inr (.inr ⟨t, rfl, (Option.some.inj h).symm⟩)

/-- Nothing is done with a message that is not valid. -/
theorem kept_of_stuck {s : UplinkSystem} {a : UplinkAction} (h : s.step a = none) : s.Kept a := by
  cases a with
  | uplinkData m =>
    intro htakes
    rw [step, if_pos htakes] at h
    cases h
  | rawPcmData m =>
    intro htakes
    rw [step, if_pos htakes] at h
    cases h
  | setPcmRecordType t => trivial

/-- `ReadMessage` leaves what has been received as it is. -/
theorem received_readMessage (m : DataMessage) :
    m.readMessage.received = m.received := by
  unfold DataMessage.readMessage
  split_ifs <;> rfl

theorem samplesReceived_readMessage (m : DataMessage) (t : RecordType) :
    m.readMessage.SamplesReceived t ↔ m.SamplesReceived t := by
  unfold DataMessage.readMessage
  split_ifs <;> cases t <;> rfl

/-- A message whose samples have been received is handed on. -/
theorem Sound.hand_rawPcmData {s : UplinkSystem} (h : s.Sound) (m : DataMessage)
    (hstart : Uplink.samplesStart ≤ m.received)
    (hsamples : m.SamplesReceived s.messenger.mPcmRecordType) :
    (s.hand (m.rawData s.messenger.mPcmRecordType)
      (s.messenger.getM2ARawPcmRingBuffer m)).Sound := by
  obtain ⟨messenger, hget, hbuf, hread, hstores, hlt⟩ :=
    Uplink.getM2ARawPcmRingBuffer_eq h.sized m hstart hsamples
  rw [hget]
  have hwrite := Ring.advance_lt h.delivers.read_lt (Nat.le_of_lt hlt)
  refine ⟨⟨rfl, hread ▸ hwrite, fun data r hhanded => ?_⟩, hbuf⟩
  obtain ⟨rfl, rfl⟩ := Prod.mk.inj (Option.some.inj hhanded)
  have hcontents := Uplink.contents_eq hstores hlt (Nat.zero_le _)
  rw [Ring.advance_zero h.delivers.read_lt, List.drop_zero] at hcontents
  exact ⟨h.delivers.read_lt, hwrite, hcontents⟩

/-- A message whose length has been received, and covers its header, is handed on. -/
theorem Sound.hand_uplinkData {s : UplinkSystem} (h : s.Sound) (m : DataMessage)
    (hheader : ccciPayloadBuffHeaderLen ≤ m.length) (hlength : m.length ≤ m.received) :
    (s.hand m.data (s.messenger.getM2AUplinkRingBuffer m)).Sound := by
  obtain ⟨messenger, hget, hbuf, hmoved, hstores⟩ :=
    Uplink.getM2AUplinkRingBuffer_eq h.sized m hlength
  rw [hget]
  have hlt := m.length_lt hlength
  have hslice : (Ring.slice m.payload 0 m.length).length = m.length := Ring.length_slice ..
  have hwrite := Ring.advance_lt h.delivers.read_lt (Nat.le_of_lt hlt)
  have hread := Ring.advance_lt h.delivers.read_lt (hheader.trans (Nat.le_of_lt hlt))
  refine ⟨⟨rfl, hmoved ▸ hwrite, fun data r hhanded => ?_⟩, hbuf⟩
  obtain ⟨rfl, rfl⟩ := Prod.mk.inj (Option.some.inj hhanded)
  have hcontents := Uplink.contents_eq hstores (by rwa [hslice])
    (show ccciPayloadBuffHeaderLen ≤ _ by rwa [hslice])
  rw [hslice, Uplink.drop_slice m hheader] at hcontents
  exact ⟨hread, hwrite, hcontents⟩

/-- The header is not behind the data if the length does not cover it. -/
theorem header_le_of_delivers {s : UplinkSystem} (h : s.Sound) (m : DataMessage)
    (hlength : m.length ≤ m.received)
    (hdelivers : (s.hand m.data (s.messenger.getM2AUplinkRingBuffer m)).Delivers) :
    ccciPayloadBuffHeaderLen ≤ m.length := by
  obtain ⟨_, hget, -, -, -⟩ := Uplink.getM2AUplinkRingBuffer_eq h.sized m hlength
  rw [hget] at hdelivers
  have hread := h.delivers.read_lt
  have hlt := m.length_lt hlength
  have hheader : ccciPayloadBuffHeaderLen = 10 := rfl
  have hbuf : mM2AShareBufLen = 16000 := rfl
  by_contra hshort
  have hdata : m.data = [] := by
    rw [DataMessage.data, Nat.sub_eq_zero_of_le (Nat.le_of_not_le hshort)]
    rfl
  obtain ⟨-, -, hcontents⟩ := hdelivers.handed _ _ rfl
  have hempty := congrArg List.length hcontents
  rw [hdata, Uplink.contents, Ring.length_walk, List.length_nil] at hempty
  dsimp only at hempty
  unfold Ring.advance at hempty
  split_ifs at hempty <;> omega

/-- A step that meets the condition keeps every copy inside. -/
theorem Sound.step {s s' : UplinkSystem} {a : UplinkAction} (h : s.Sound) (hkept : s.Kept a)
    (hstep : s.step a = some s') : s'.Sound := by
  obtain ⟨m, rfl, htakes, rfl⟩ | ⟨m, rfl, htakes, rfl⟩ | ⟨t, rfl, rfl⟩ := step_cases hstep
  · obtain ⟨hheader, hlength⟩ := hkept htakes
    rw [← received_readMessage] at hlength
    exact h.hand_uplinkData m.readMessage hheader hlength
  · obtain ⟨hstart, hsamples⟩ := hkept htakes
    rw [← received_readMessage] at hstart
    exact h.hand_rawPcmData m.readMessage hstart ((samplesReceived_readMessage m _).mpr hsamples)
  · exact ⟨⟨h.delivers.safe, h.delivers.read_lt, h.delivers.handed⟩, h.size⟩

/-- A step after which everything is delivered has met the condition. -/
theorem Sound.kept {s s' : UplinkSystem} {a : UplinkAction} (h : s.Sound)
    (hstep : s.step a = some s') (hdelivers : s'.Delivers) : s.Kept a := by
  obtain ⟨m, rfl, -, rfl⟩ | ⟨m, rfl, -, rfl⟩ | ⟨t, rfl, rfl⟩ := step_cases hstep
  · intro _
    have hlength : m.readMessage.length ≤ m.readMessage.received := by
      by_contra hmore
      rw [Uplink.getM2AUplinkRingBuffer_eq_none h.sized m.readMessage
        (Nat.lt_of_not_le hmore)] at hdelivers
      cases hdelivers.safe
    refine ⟨header_le_of_delivers h m.readMessage hlength hdelivers, ?_⟩
    rwa [← received_readMessage]
  · intro _
    rw [← received_readMessage, ← samplesReceived_readMessage]
    by_contra hmissing
    rw [Uplink.getM2ARawPcmRingBuffer_eq_none s.messenger m.readMessage hmissing] at hdelivers
    cases hdelivers.safe
  · trivial

/-- The data of every message is delivered exactly, and every copy stays inside, if and only if
every length covers the header and is covered by what has been received, and all the raw samples
that are selected have been received. -/
theorem uplinkMachine_delivers_iff (m2aShareBuf : Nat → UInt8) (acts : List UplinkAction) :
    (uplinkMachine m2aShareBuf).Along Delivers (uplinkMachine m2aShareBuf).init acts ↔
      (uplinkMachine m2aShareBuf).Meets Kept (uplinkMachine m2aShareBuf).init acts := by
  refine Machine.along_iff_meets_of_keeps (uplinkMachine m2aShareBuf)
    (fun s a (_ : s.Sound) hnone => kept_of_stuck hnone) (fun s h => h.delivers)
    (fun s a s' h hkept hstep => h.step hkept hstep)
    (fun s a s' h hstep hdelivers => h.kept hstep hdelivers) ?_ acts
  have hread : 0 < mM2AShareBufLen := by decide
  refine ⟨⟨rfl, hread, fun data r hhanded => ?_⟩, rfl⟩
  cases hhanded

/-- A message of four bytes, less than its header. -/
def shortMessage : DataMessage where
  ccciBuff := ⟨0, 20, 0, 0, none⟩
  payload i := if i = 0 then 0x34 else if i = 1 then 0x12 else 0
  received := 12
  received_le := by decide

/-- After a message that is shorter than its header, what is handed on is the rest of the share
buffer. -/
theorem short_message_delivers_stale_bytes :
    ∃ t, (uplinkMachine fun _ => 0).run (uplinkMachine fun _ => 0).init
        [.uplinkData shortMessage] = some t ∧
      t.handed = some ([], ⟨10, 4⟩) ∧
      ¬(uplinkMachine fun _ => 0).Along Delivers (uplinkMachine fun _ => 0).init
        [.uplinkData shortMessage] := by
  obtain ⟨t, hrun, hhanded⟩ : ∃ t, (uplinkMachine fun _ => 0).run (uplinkMachine fun _ => 0).init
      [.uplinkData shortMessage] = some t ∧ t.handed = some ([], ⟨10, 4⟩) :=
    ⟨_, rfl, by decide +kernel⟩
  refine ⟨t, hrun, hhanded, fun h => ?_⟩
  obtain ⟨-, -, hcontents⟩ := (h.last _ hrun).handed _ _ hhanded
  have hlength := congrArg List.length hcontents
  rw [Uplink.contents, Ring.length_walk] at hlength
  cases hlength

end UplinkSystem

end MtkHw.Speech
