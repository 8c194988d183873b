import Mathlib.Tactic.Common

/-!
# Speech messages

The messages the speech messenger exchanges with the modem over the CCCI channel: their
identifiers, the mailbox a message travels in, and what the messenger reads off a mailbox.  An
acknowledgement of the modem carries the identifier of the message it answers with the top bit
set.

A message that carries data keeps the offset of its data in `magic` and its length in `message`;
every other message has the magic number there and its identifier in `message`.
-/

namespace MtkHw.Speech

/-! ## Identifiers -/

def msgA2mSphOn : UInt16 := 0x2F20
def msgA2mSphOff : UInt16 := 0x2F21
def msgA2mSetSphMode : UInt16 := 0x2F22
def msgA2mSetAcousticLoopback : UInt16 := 0x2F25
def msgA2mSphRouterOn : UInt16 := 0x2F29
def msgA2mPnwOn : UInt16 := 0x2F30
def msgA2mPnwOff : UInt16 := 0x2F31
def msgA2mPcmRecOn : UInt16 := 0x2F38
def msgA2mPcmRecOff : UInt16 := 0x2F39
def msgA2mVmRecOn : UInt16 := 0x2F3A
def msgA2mVmRecOff : UInt16 := 0x2F3B
def msgA2mRecordRawPcmOn : UInt16 := 0x2F3C
def msgA2mRecordRawPcmOff : UInt16 := 0x2F3D
def msgA2mCtmOn : UInt16 := 0x2F40
def msgA2mCtmOff : UInt16 := 0x2F41
def msgA2mBgsndOn : UInt16 := 0x2F43
def msgA2mBgsndOff : UInt16 := 0x2F44
def msgA2mPnwDlDataNotify : UInt16 := 0x2F50
def msgA2mBgsndDataNotify : UInt16 := 0x2F51
def msgA2mCtmDataNotify : UInt16 := 0x2F52
def msgA2mSphUlEncryption : UInt16 := 0x2F55
def msgA2mSphDlDecryption : UInt16 := 0x2F56
def msgA2mPnwUlDataReadAck : UInt16 := 0x2F60
def msgA2mCtmDebugDataReadAck : UInt16 := 0x2F62
def msgA2mPcmRecDataReadAck : UInt16 := 0x2F63
def msgA2mVmRecDataReadAck : UInt16 := 0x2F64
def msgA2mRawPcmRecDataReadAck : UInt16 := 0x2F66
def msgA2mCustDumpReadAck : UInt16 := 0x2F67
def msgA2mEmDataRequestAck : UInt16 := 0x2F70
def msgA2mEmNb : UInt16 := 0x2F71
def msgA2mEmDmnr : UInt16 := 0x2F72
def msgA2mEmWb : UInt16 := 0x2F73
def msgA2mEmMagicon : UInt16 := 0x2F74
def msgA2mNetworkStatusAck : UInt16 := 0x2F75
def msgA2mEmHac : UInt16 := 0x2F77
def msgA2mEpofAck : UInt16 := 0x2F78
def msgA2mEmDynamicSph : UInt16 := 0x2F79
def msgA2mVibspkParameter : UInt16 := 0x2F80
def msgA2mSmartpaParameter : UInt16 := 0x2F81
def msgA2mNwCodecInfoReadAck : UInt16 := 0x2F90

/-- The message of the modem that goes with a message to the modem: its acknowledgement, or the
notice that it answers. -/
def m2aOf (id : UInt16) : UInt16 := 0x8000 ||| id

/-- The message to the modem that goes with a message of the modem. -/
def a2mOf (id : UInt16) : UInt16 := id &&& 0x7FFF

/-- Whether a message waits for an acknowledgement; the value `MESSAGE_CANCELED` is only ever
compared with. -/
inductive AckType where
  | bypassAck
  | needAck
  | canceled
  deriving DecidableEq, Repr

/-- The messages that wait for their acknowledgement. -/
def needAckMessages : List UInt16 :=
  [msgA2mSetSphMode, msgA2mSphOn, msgA2mSphOff, msgA2mSphRouterOn, msgA2mPcmRecOn, msgA2mVmRecOn,
    msgA2mPcmRecOff, msgA2mVmRecOff, msgA2mBgsndOn, msgA2mBgsndOff, msgA2mPnwOn, msgA2mPnwOff,
    msgA2mCtmOn, msgA2mCtmOff, msgA2mSetAcousticLoopback, msgA2mEmNb, msgA2mEmDmnr,
    msgA2mEmMagicon, msgA2mEmHac, msgA2mEmWb, msgA2mVibspkParameter, msgA2mSmartpaParameter,
    msgA2mRecordRawPcmOn, msgA2mRecordRawPcmOff, msgA2mEmDynamicSph]

def judgeAckOfMsg (message_id : UInt16) : AckType :=
  if message_id ∈ needAckMessages then .needAck else .bypassAck

/-- The messages that switch a function of the modem. -/
def onOffMessages : List UInt16 :=
  [msgA2mSphOn, msgA2mSphOff, msgA2mSphRouterOn, msgA2mPcmRecOn, msgA2mVmRecOn, msgA2mPcmRecOff,
    msgA2mVmRecOff, msgA2mBgsndOn, msgA2mBgsndOff, msgA2mPnwOn, msgA2mPnwOff, msgA2mCtmOn,
    msgA2mCtmOff, msgA2mSetAcousticLoopback, msgA2mRecordRawPcmOn, msgA2mRecordRawPcmOff]

def isModemFunctionOnOffMessage (message_id : UInt16) : Bool := decide (message_id ∈ onOffMessages)

/-- No message is ever marked as cancelled. -/
theorem judgeAckOfMsg_ne_canceled (id : UInt16) : judgeAckOfMsg id ≠ .canceled := by
  unfold judgeAckOfMsg
  split <;> exact nofun

/-- The identifier of a message that waits is never `0`, which stands for no message. -/
theorem ne_zero_of_needAck {id : UInt16} (h : judgeAckOfMsg id = .needAck) : id ≠ 0 := by
  rintro rfl
  exact absurd h (by decide)

/-! ## The mailbox -/

/-- A CCCI message (`ccci_buff_t`; its payload is filled when the message is written).  `call` is
the number of the `SendMessageInQueue` call that the message came with: the program does not carry
it, and no decision looks at it. -/
structure CcciBuff where
  magic : UInt32
  message : UInt32
  channel : UInt32
  reserved : UInt32
  call : Option Nat := none
  deriving DecidableEq, Repr

def ccciMailboxMagicNumber : UInt32 := 0xFFFFFFFF

def ccciA2mChannel : UInt32 := 5

/-- How the messenger is built: with the shared memory for the dynamic parameters, or without. -/
structure Build where
  useCcciShareBuffer : Bool
  deriving DecidableEq, Repr

/-- The messages whose data travels with them. -/
def payloadMessages (cfg : Build) : List UInt16 :=
  [msgA2mPnwDlDataNotify, msgA2mBgsndDataNotify, msgA2mCtmDataNotify, msgA2mEmNb, msgA2mEmWb,
    msgA2mEmDmnr, msgA2mEmMagicon, msgA2mEmHac, msgA2mVibspkParameter, msgA2mSmartpaParameter,
    msgA2mSphUlEncryption, msgA2mSphDlDecryption] ++
  (if cfg.useCcciShareBuffer then [] else [msgA2mEmDynamicSph])

def initCcciMailbox (cfg : Build) (id param_16bit : UInt16) (param_32bit : UInt32) : CcciBuff :=
  if id ∈ payloadMessages cfg then
    { magic := param_32bit
      message := param_16bit.toUInt32
      channel := ccciA2mChannel
      reserved := id.toUInt32 <<< 16 ||| param_16bit.toUInt32 }
  else
    { magic := ccciMailboxMagicNumber
      message := id.toUInt32 <<< 16 ||| param_16bit.toUInt32
      channel := ccciA2mChannel
      reserved := param_32bit }

namespace CcciBuff

def getMessageID (b : CcciBuff) : UInt16 :=
  if b.magic ≠ ccciMailboxMagicNumber then (b.reserved >>> 16).toUInt16
  else (b.message >>> 16).toUInt16

def getMessageParam (b : CcciBuff) : UInt16 :=
  if b.magic ≠ ccciMailboxMagicNumber then b.reserved.toUInt16 else b.message.toUInt16

def getMessageLength (b : CcciBuff) : UInt16 :=
  if b.magic ≠ ccciMailboxMagicNumber then b.message.toUInt16 else (b.message &&& 0xFFFF).toUInt16

def getMessageOffset (b : CcciBuff) : UInt16 :=
  if b.magic ≠ ccciMailboxMagicNumber then b.magic.toUInt16 else 0

/-- The message with the number of the call it came with. -/
def stamp (b : CcciBuff) (call : Nat) : CcciBuff := { b with call := some call }

/-- Whether a message waits for its acknowledgement. -/
def needsAck (b : CcciBuff) : Prop := judgeAckOfMsg b.getMessageID = .needAck

instance (b : CcciBuff) : Decidable b.needsAck :=
  inferInstanceAs (Decidable (judgeAckOfMsg b.getMessageID = .needAck))

end CcciBuff

/-! ## A mailbox is read as it was filled -/

/-- The upper half of a packed word. -/
theorem upper_pack (id p : UInt16) : ((id.toUInt32 <<< 16 ||| p.toUInt32) >>> 16).toUInt16 = id := by
  apply UInt16.eq_of_toBitVec_eq
  simp only [UInt32.toBitVec_toUInt16, UInt32.toBitVec_shiftRight, UInt32.toBitVec_or,
    UInt32.toBitVec_shiftLeft, UInt16.toBitVec_toUInt32]
  ext i hi
  simp
  grind

/-- A mailbox has the identifier it was filled with, when the offset of its data is not the magic
number. -/
theorem getMessageID_initCcciMailbox (cfg : Build) {id : UInt16} (p : UInt16) {q : UInt32}
    (h : q ≠ ccciMailboxMagicNumber ∨ id ∉ payloadMessages cfg) :
    (initCcciMailbox cfg id p q).getMessageID = id := by
  unfold initCcciMailbox
  split
  · rename_i hpayload
    have hq : q ≠ ccciMailboxMagicNumber := h.resolve_right (not_not_intro hpayload)
    rw [CcciBuff.getMessageID, if_pos hq, upper_pack]
  · rw [CcciBuff.getMessageID, if_neg (fun hne => hne rfl), upper_pack]

end MtkHw.Speech
