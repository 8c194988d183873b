import MtkHw.Lib.Machine
import MtkHw.Speech.Messenger
import Mathlib.Tactic.Common

/-!
# The speech messenger and its threads

Any thread may call `SendMessageInQueue`, and holds the mutex of the queue until it returns; the
reading thread handles the messages of the modem one after the other, and takes the mutex for
`ConsumeMessageInQueue` and for `MDReset_CheckMessageInQueue`.  What the reading thread does
outside the mutex it may do while a caller holds it.

One step of `speechMachine` is a piece of one thread between two points where another can notice.
The mutex keeps the other callers, and the locked part of the reading thread, out.
-/

namespace MtkHw.Speech

open Lib

/-- The caller that holds the mutex: none, one that found the modem ready, or one that is about to
write its message. -/
inductive Sender where
  | free
  | looked (b : CcciBuff)
  | writing (b : CcciBuff) (data : List UInt8)
  deriving DecidableEq, Repr

/-- What the reading thread does next: read a message, give up the queue (because of a power off or
of a reset), confirm the power off, or consume the message that was acknowledged. -/
inductive Reader where
  | idle
  | flush (epof : Bool)
  | epofAck
  | consume
  deriving DecidableEq, Repr

/-- A message the reading thread answers with, when the function it is about is on. -/
structure Reply where
  param_16bit : UInt16
  param_32bit : UInt32
  env : SendEnv

/-- The answers to the notices of the modem. -/
def noticeAnswers : List UInt16 :=
  [msgA2mPcmRecDataReadAck, msgA2mRawPcmRecDataReadAck, msgA2mVmRecDataReadAck,
    msgA2mCustDumpReadAck, msgA2mBgsndDataNotify, msgA2mPnwUlDataReadAck, msgA2mPnwDlDataNotify,
    msgA2mSphUlEncryption, msgA2mSphDlDecryption, msgA2mCtmDebugDataReadAck,
    msgA2mNetworkStatusAck, msgA2mNwCodecInfoReadAck]

/-- The length of the header that `ReadMessage` takes off a message with data. -/
def ccciBufHeaderSize : UInt32 := 16

namespace SpeechMessenger

variable (cfg : Build)

/-- The status word after an acknowledgement; the one of the dynamic parameters gives back the
space of the message at the read position. -/
def ackHandler (s : SpeechMessenger) (b : CcciBuff) : SpeechMessenger :=
  if b.getMessageID ≠ m2aOf (a2mOf b.getMessageID) then s
  else
    match switchOf (a2mOf b.getMessageID) with
    | some switch => s.answer (a2mOf b.getMessageID) b switch
    | none =>
      if cfg.useCcciShareBuffer ∧ a2mOf b.getMessageID = msgA2mEmDynamicSph then
        { s with
          mA2MParaShareBuf := s.mA2MParaShareBuf.advanceA2MRawParaRingBuffer
            s.queue.front.ccci_buff.getMessageLength.toNat }
      else s

/-- The answer to a notice of the modem, sent past the queue. -/
def answerNotice (s : SpeechMessenger) (b : CcciBuff) : Option Reply → SpeechMessenger
  | some reply =>
    if b.getMessageID = m2aOf (a2mOf b.getMessageID) ∧ a2mOf b.getMessageID ∈ noticeAnswers then
      (s.sendMessage cfg
        (initCcciMailbox cfg (a2mOf b.getMessageID) reply.param_16bit reply.param_32bit)
        reply.env).2
    else s
  | none => s

/-- The head of the queue, if there is one, is acknowledged. -/
def logAck (s : SpeechMessenger) : SpeechMessenger :=
  if s.queue.getQueueCount = 0 then s else s.log (.ack s.queue.front.ccci_buff)

/-- The end of the loop of `CCCIReadThread`: an acknowledgement that is waited for leads to the
queue. -/
def matchAck (s : SpeechMessenger) (id : UInt16) : SpeechMessenger × Reader :=
  if judgeAckOfMsg id = .needAck ∧ id = s.mWaitAckMessageID then
    ({ s with mWaitAckMessageID := 0 }.logAck, .consume)
  else (s, .idle)

/-- One turn of `CCCIReadThread` with a message it read, up to where it takes the mutex. -/
def handleMessage (s : SpeechMessenger) (b : CcciBuff) (reply : Option Reply) :
    SpeechMessenger × Reader :=
  if b.getMessageID = m2aOf msgA2mEmDataRequestAck then
    ({ s with
        mWaitAckMessageID := 0
        mIsModemResetDuringPhoneCall := false
        mIsModemReset := false
        mIsModemEPOF := false },
      .flush false)
  else if b.getMessageID = m2aOf msgA2mEpofAck then (s, .flush true)
  else ((s.ackHandler cfg b).answerNotice cfg b reply).matchAck (a2mOf b.getMessageID)

/-- `ReadMessage` with a message that came, and the turn with it; the message is left alone when
the modem is not ready. -/
def readMessage (s : SpeechMessenger) (b : CcciBuff) (ioctl : Option ModemStatus)
    (reply : Option Reply) : SpeechMessenger × Reader :=
  let b := if b.magic ≠ ccciMailboxMagicNumber then { b with message := b.message - ccciBufHeaderSize }
    else b
  let s := if b.getMessageID = m2aOf msgA2mEmDataRequestAck then { s with mIsModemEPOF := false }
    else s
  if s.getModemCurrentStatus ioctl ≠ .ready then (s, .idle) else s.handleMessage cfg b reply

/-! ## The pieces of `SendMessageInQueue` -/

/-- The mutex is taken and the modem is looked at. -/
def queueLook (s : SpeechMessenger) (b : CcciBuff) (ioctl : Option ModemStatus) :
    SpeechMessenger × Sender :=
  let b := b.stamp s.calls
  let s := { s with calls := s.calls + 1 }
  if s.getModemCurrentStatus ioctl ≠ .ready then
    ((s.noteReset.unLockShareBuf cfg b).log (.ret b true), .free)
  else (s, .looked b)

/-- The element of a message that failed is skipped. -/
def skipFailed (s : SpeechMessenger) (b : CcciBuff) : SpeechMessenger :=
  if b.needsAck then { s with queue := s.queue.dequeue } else s

/-- A message meets an empty queue: it is sent, and kept in the queue when it waits for its
acknowledgement. -/
def queueDirect (s : SpeechMessenger) (b : CcciBuff) (ioctl : Option ModemStatus) :
    SpeechMessenger × Sender :=
  let s := if b.needsAck then { s with queue := s.queue.enqueue b } else s
  match s.sendPrepare cfg b ioctl with
  | (some data, s) => (s, .writing b data)
  | (none, s) => ((s.skipFailed b).log (.ret b false), .free)

/-- The message is dropped after a power off, queued, or sent. -/
def queueEnter (s : SpeechMessenger) (b : CcciBuff) (ioctl : Option ModemStatus) :
    SpeechMessenger × Sender :=
  if s.mIsModemEPOF then ((s.a2mBufUnLock b).log (.ret b true), .free)
  else if s.queue.getQueueCount = 0 then (s.log (.take b)).queueDirect cfg b ioctl
  else ({ s.log (.take b) with queue := s.queue.enqueue b }.log (.ret b true), .free)

/-- The message is written, and the caller returns. -/
def queueLeave (s : SpeechMessenger) (b : CcciBuff) (data : List UInt8)
    (tries : Nat → WriteResult) : SpeechMessenger :=
  match s.sendWrite cfg b data tries with
  | (.noError, s) => s.log (.ret b true)
  | (.unknownError, s) => (s.skipFailed b).log (.ret b false)

end SpeechMessenger

/-! ## The system -/

/-- The messenger, the caller that holds the mutex of the queue, and the reading thread. -/
structure SpeechSystem where
  messenger : SpeechMessenger
  sender : Sender
  reader : Reader

/-- A piece of one thread: a caller takes the mutex, goes on, and writes its message and returns;
the reading thread reads a message, does what it does under the mutex, and confirms a power off. -/
inductive SpeechInput where
  | look (b : CcciBuff) (ioctl : Option ModemStatus)
  | enter (ioctl : Option ModemStatus)
  | leave (tries : Nat → WriteResult)
  | read (b : CcciBuff) (ioctl : Option ModemStatus) (reply : Option Reply)
  | locked (env : Nat → SendEnv)
  | epofAck (env : SendEnv)

namespace SpeechSystem

variable (cfg : Build)

/-- The part of the reading thread under the mutex. -/
def underMutex (s : SpeechSystem) (env : Nat → SendEnv) : Option SpeechSystem :=
  match s.reader with
  | .flush epof =>
    some { s with
      messenger := s.messenger.mdResetCheckMessageInQueue cfg
      reader := if epof then .epofAck else .idle }
  | .consume =>
    some { s with messenger := s.messenger.consumeMessageInQueue cfg env, reader := .idle }
  | .idle | .epofAck => none

/-- The power off is confirmed, and noted. -/
def confirmEpof (s : SpeechSystem) (env : SendEnv) : SpeechSystem :=
  { s with
    messenger :=
      { (s.messenger.sendMessage cfg (initCcciMailbox cfg msgA2mEpofAck 0 0) env).2 with
        mIsModemEPOF := true }
    reader := .idle }

/-- One step of one thread. -/
def step (s : SpeechSystem) (input : SpeechInput) : Option SpeechSystem :=
  match input, s.sender, s.reader with
  | .look b ioctl, .free, _ =>
    some { s with
      messenger := (s.messenger.queueLook cfg b ioctl).1
      sender := (s.messenger.queueLook cfg b ioctl).2 }
  | .enter ioctl, .looked b, _ =>
    some { s with
      messenger := (s.messenger.queueEnter cfg b ioctl).1
      sender := (s.messenger.queueEnter cfg b ioctl).2 }
  | .leave tries, .writing b data, _ =>
    some { s with messenger := s.messenger.queueLeave cfg b data tries, sender := .free }
  | .read b ioctl reply, _, .idle =>
    some { s with
      messenger := (s.messenger.readMessage cfg b ioctl reply).1
      reader := (s.messenger.readMessage cfg b ioctl reply).2 }
  | .locked env, .free, _ => s.underMutex cfg env
  | .epofAck env, _, .epofAck => some (s.confirmEpof cfg env)
  | _, _, _ => none

end SpeechSystem

/-- The system from the start of the reading thread on; the status word and the shared memories are
as they are found. -/
def speechInit (status : UInt32) (buf : Nat → UInt8) (para : ParaShareBuf) : SpeechSystem where
  messenger :=
    { queue := { pQueue := fun _ => ⟨⟨0, 0, 0, 0, none⟩, .bypassAck⟩, iQRead := 0, iQWrite := 0 }
      mWaitAckMessageID := 0
      mModemSideModemStatus := status
      mIsModemResetDuringPhoneCall := false
      mIsModemReset := false
      mIsModemEPOF := false
      mA2MShareBufMutex := false
      mA2MShareBuf := buf
      mA2MParaShareBuf := para.initA2MRawParaRingBuffer
      calls := 0
      trace := [] }
  sender := .free
  reader := .idle

/-- The speech messenger, the callers and the reading thread. -/
def speechMachine (cfg : Build) (status : UInt32) (buf : Nat → UInt8) (para : ParaShareBuf) :
    Machine SpeechSystem SpeechInput where
  init := speechInit status buf para
  step := SpeechSystem.step cfg

end MtkHw.Speech
