import MtkHw.Lib.Ring
import MtkHw.Speech.Message
import MtkHw.Speech.ParaShareBuf
import Mathlib.Tactic.Common

/-!
# The speech messenger

`SpeechMessengerECCCI` sends messages to the modem one at a time: a message that waits for its
acknowledgement stays at the head of a queue until the acknowledgement is read, and messages that
come meanwhile are queued behind it.  Every function below is the one of the program under its
name.  What the environment decides is an argument: the state of the modem each time it is looked
at, and what each `write` did.

`SendMessageInQueue` is cut where another thread can notice: after the first look at the state of
the modem, and before the first `write`.  In between the queue's mutex is held.

What the messenger does is written down in a trace, which no decision looks at.
-/

namespace MtkHw.Speech

open Lib

/-! ## The state of the modem, and the functions that are on -/

inductive ModemStatus where
  | invalid
  | init
  | ready
  | expt
  deriving DecidableEq, Repr

/-- The functions of the modem that are switched on and off, as bits of a status word. -/
inductive ModemStatusMask where
  | speech
  | record
  | bgs
  | p2w
  | tty
  | vt
  | loopback
  | vmRecord
  | speechRouter
  | rawRecord
  deriving DecidableEq, Repr

def ModemStatusMask.bit : ModemStatusMask → UInt32
  | .speech => (1 : UInt32) <<< 0
  | .record => (1 : UInt32) <<< 1
  | .bgs => (1 : UInt32) <<< 2
  | .p2w => (1 : UInt32) <<< 3
  | .tty => (1 : UInt32) <<< 4
  | .vt => (1 : UInt32) <<< 5
  | .loopback => (1 : UInt32) <<< 6
  | .vmRecord => (1 : UInt32) <<< 7
  | .speechRouter => (1 : UInt32) <<< 8
  | .rawRecord => (1 : UInt32) <<< 9

/-- What a message that switches functions does to the status word once it is answered; for some
the parameter decides. -/
inductive Switch where
  | on (mask : ModemStatusMask)
  | off (mask : ModemStatusMask)
  | byParam (mask : ModemStatusMask)
  | sphOn
  | sphOff
  deriving DecidableEq, Repr

/-- The messages that switch functions.  The handler of the acknowledgements and the handler of
the failures have the same cases. -/
def switches : List (UInt16 × Switch) :=
  [(msgA2mSphOn, .sphOn), (msgA2mSphOff, .sphOff), (msgA2mSphRouterOn, .byParam .speechRouter),
    (msgA2mPcmRecOn, .on .record), (msgA2mPcmRecOff, .off .record),
    (msgA2mRecordRawPcmOn, .on .rawRecord), (msgA2mRecordRawPcmOff, .off .rawRecord),
    (msgA2mVmRecOn, .on .vmRecord), (msgA2mVmRecOff, .off .vmRecord),
    (msgA2mBgsndOn, .on .bgs), (msgA2mBgsndOff, .off .bgs),
    (msgA2mPnwOn, .on .p2w), (msgA2mPnwOff, .off .p2w),
    (msgA2mCtmOn, .on .tty), (msgA2mCtmOff, .off .tty),
    (msgA2mSetAcousticLoopback, .byParam .loopback)]

/-- The phone call mode of a video call. -/
def rat3g324mMode : UInt16 := 2

namespace Switch

/-- `GetModemSideModemStatus` on a status word. -/
def get (status : UInt32) (mask : ModemStatusMask) : Bool := decide (status &&& mask.bit > 0)

/-- `SetModemSideModemStatus`. -/
def set (status : UInt32) (mask : ModemStatusMask) : UInt32 := status ||| mask.bit

/-- `ResetModemSideModemStatus`. -/
def reset (status : UInt32) (mask : ModemStatusMask) : UInt32 := status &&& ~~~mask.bit

/-- A function is switched off when it is on; otherwise the message is not paired. -/
def resetIfOn (status : UInt32) (mask : ModemStatusMask) : UInt32 :=
  if get status mask then reset status mask else status

/-- The status word after a message with parameter `param` is answered. -/
def apply (param : UInt16) (status : UInt32) : Switch → UInt32
  | .on mask => set status mask
  | .off mask => resetIfOn status mask
  | .byParam mask => if param &&& 1 = 1 then set status mask else resetIfOn status mask
  | .sphOn => if param = rat3g324mMode then set status .vt else set status .speech
  | .sphOff => if get status .vt then reset status .vt else resetIfOn status .speech

end Switch

/-- What a message does to the status word, if anything. -/
def switchOf (message_id : UInt16) : Option Switch := switches.lookup message_id

/-- The messages whose caller is signalled when they are answered. -/
def signals (message_id : UInt16) : Bool :=
  message_id = msgA2mSphOff || message_id = msgA2mSetAcousticLoopback

/-! ## The queue -/

def ccciMaxQueueNum : Nat := 60

structure CcciQueueElement where
  ccci_buff : CcciBuff
  ack_type : AckType
  deriving DecidableEq, Repr

/-- The message queue: an array of `CCCI_MAX_QUEUE_NUM` elements and two positions in it. -/
structure MessageQueue where
  pQueue : Nat → CcciQueueElement
  iQRead : Nat
  iQWrite : Nat

namespace MessageQueue

def getQueueCount (q : MessageQueue) : Nat :=
  if q.iQWrite < q.iQRead then q.iQWrite + ccciMaxQueueNum - q.iQRead else q.iQWrite - q.iQRead

/-- The element at the read position. -/
def front (q : MessageQueue) : CcciQueueElement := q.pQueue q.iQRead

/-- An element is stored at the write position, which moves on. -/
def enqueue (q : MessageQueue) (b : CcciBuff) : MessageQueue :=
  { q with
    pQueue := fun i => if i = q.iQWrite then ⟨b, judgeAckOfMsg b.getMessageID⟩ else q.pQueue i
    iQWrite := Ring.next ccciMaxQueueNum q.iQWrite }

/-- The read position moves on. -/
def dequeue (q : MessageQueue) : MessageQueue :=
  { q with iQRead := Ring.next ccciMaxQueueNum q.iQRead }

/-- Both positions go back to the start of the array. -/
def restart (q : MessageQueue) : MessageQueue := { q with iQRead := 0, iQWrite := 0 }

end MessageQueue

/-! ## The messenger -/

/-- What the messenger does: it writes a message with its data in full, matches an
acknowledgement with the head of the queue, discards a head as acknowledged, simulates the
acknowledgement of a message that failed, takes or releases the lock of the shared buffer on
behalf of a message, signals the driver, takes a message of a caller, and returns to a caller. -/
inductive SpeechEvent where
  | write (b : CcciBuff) (payload : List UInt8)
  | ack (b : CcciBuff)
  | consume (b : CcciBuff)
  | fail (b : CcciBuff)
  | bufLock (call : Nat)
  | bufUnLock (b : CcciBuff)
  | signal (b : CcciBuff)
  | take (b : CcciBuff)
  | ret (b : CcciBuff) (ok : Bool)
  deriving DecidableEq, Repr

/-- The messenger.  `calls` counts the calls of `SendMessageInQueue`. -/
structure SpeechMessenger where
  queue : MessageQueue
  mWaitAckMessageID : UInt16
  mModemSideModemStatus : UInt32
  mIsModemResetDuringPhoneCall : Bool
  mIsModemReset : Bool
  mIsModemEPOF : Bool
  mA2MShareBufMutex : Bool
  mA2MShareBuf : Nat → UInt8
  mA2MParaShareBuf : ParaShareBuf
  calls : Nat
  trace : List SpeechEvent

/-- What `SendMessage` and `SendMessageInQueue` return. -/
inductive SendStatus where
  | noError
  | unknownError
  deriving DecidableEq, Repr

/-- What a `write` does: it takes the whole message, or it falls short, and then `errno` and the
state of the modem are looked at. -/
inductive WriteResult where
  | full
  | short (errno : Nat) (ioctl : Option ModemStatus)
  deriving DecidableEq, Repr

/-- What the environment decides during one `SendMessage`. -/
structure SendEnv where
  ioctl : Option ModemStatus
  tries : Nat → WriteResult

/-- The messages that hold the lock of the shared buffer until they are written. -/
def shareBufMessages (cfg : Build) : List UInt16 :=
  [msgA2mEmNb, msgA2mEmWb, msgA2mEmDmnr, msgA2mEmMagicon, msgA2mEmHac, msgA2mVibspkParameter,
    msgA2mSmartpaParameter] ++ (if cfg.useCcciShareBuffer then [] else [msgA2mEmDynamicSph])

/-- The messages whose data is copied out of the shared buffer; the data of the two encryption
messages lies elsewhere. -/
def copiedMessages (cfg : Build) : List UInt16 :=
  (payloadMessages cfg).filter fun id => id ≠ msgA2mSphUlEncryption ∧ id ≠ msgA2mSphDlDecryption

/-- How often a message is tried. -/
def sendTries : Nat := 150

namespace SpeechMessenger

variable (cfg : Build)

/-- Something is written down. -/
def log (s : SpeechMessenger) (e : SpeechEvent) : SpeechMessenger :=
  { s with trace := s.trace ++ [e] }

/-- A modem that announced its power off counts as not running, and a failing `ioctl` as an
exception. -/
def getModemCurrentStatus (s : SpeechMessenger) (ioctl : Option ModemStatus) : ModemStatus :=
  if s.mIsModemEPOF then .invalid else ioctl.getD .expt

/-- The modem is found not to be ready. -/
def noteReset (s : SpeechMessenger) : SpeechMessenger :=
  { s with mIsModemResetDuringPhoneCall := true, mIsModemReset := true }

/-- `A2MBufUnLock`, while message `b` is handled. -/
def a2mBufUnLock (s : SpeechMessenger) (b : CcciBuff) : SpeechMessenger :=
  { s with mA2MShareBufMutex := false, trace := s.trace ++ [.bufUnLock b] }

/-- The lock of the shared buffer is released for the messages that hold it. -/
def unLockShareBuf (s : SpeechMessenger) (b : CcciBuff) : SpeechMessenger :=
  if b.getMessageID ∈ shareBufMessages cfg then s.a2mBufUnLock b else s

/-- The status word after the message with identifier `id` is answered by `b`, or `b` itself failed;
the caller that waits for it is signalled. -/
def answer (s : SpeechMessenger) (id : UInt16) (b : CcciBuff) (switch : Switch) : SpeechMessenger :=
  let t := { s with
    mModemSideModemStatus := switch.apply b.getMessageParam s.mModemSideModemStatus }
  if signals id then t.log (.signal b) else t

/-- `SendMsgFailErrorHandling`: the acknowledgement is simulated. -/
def sendMsgFailErrorHandling (s : SpeechMessenger) (b : CcciBuff) : SpeechMessenger :=
  match switchOf b.getMessageID with
  | some switch => (s.log (.fail b)).answer b.getMessageID b switch
  | none => (s.log (.fail b)).unLockShareBuf cfg b

/-- The data that travels with a message. -/
def payload (s : SpeechMessenger) (b : CcciBuff) : List UInt8 :=
  if b.getMessageID ∈ copiedMessages cfg then
    Ring.slice s.mA2MShareBuf b.getMessageOffset.toNat b.getMessageLength.toNat
  else []

/-- A dropped message that ends the phone call or the loopback ends the period in which such
messages are dropped. -/
def endsCall (b : CcciBuff) : Bool :=
  b.getMessageID = msgA2mSphOff ||
    b.getMessageID = msgA2mSetAcousticLoopback && b.getMessageParam &&& 1 = 0

/-- `SendMessage` up to its first `write`: the data of the message, unless the message is
dropped. -/
def sendPrepare (s : SpeechMessenger) (b : CcciBuff) (ioctl : Option ModemStatus) :
    Option (List UInt8) × SpeechMessenger :=
  let s := if s.getModemCurrentStatus ioctl ≠ .ready then s.noteReset else s
  if s.mIsModemResetDuringPhoneCall && isModemFunctionOnOffMessage b.getMessageID then
    let s := s.sendMsgFailErrorHandling cfg b
    (none, if endsCall b then { s with mIsModemResetDuringPhoneCall := false } else s)
  else
    (some (s.payload cfg b),
      if b.needsAck then { s with mWaitAckMessageID := b.getMessageID } else s)

/-- The modem turns out to be reset while a message is tried. -/
def noteResetBy (s : SpeechMessenger) (b : CcciBuff) : SpeechMessenger :=
  { s with
    mIsModemResetDuringPhoneCall :=
      if b.getMessageID ≠ msgA2mSphOff ∧ b.getMessageID ≠ msgA2mSetAcousticLoopback then true
      else s.mIsModemResetDuringPhoneCall
    mIsModemReset := true }

/-- The tries of `SendMessage`. -/
def sendLoop (b : CcciBuff) (data : List UInt8) :
    List WriteResult → SpeechMessenger → SendStatus × SpeechMessenger
  | [], s => (.unknownError, s)
  | .full :: _, s => (.noError, (s.log (.write b data)).unLockShareBuf cfg b)
  | .short errno ioctl :: rest, s =>
    let s := s.unLockShareBuf cfg b
    if errno = 3 ∨ s.getModemCurrentStatus ioctl ≠ .ready then (.unknownError, s.noteResetBy b)
    else sendLoop b data rest s

/-- `SendMessage` from its first `write` on. -/
def sendWrite (s : SpeechMessenger) (b : CcciBuff) (data : List UInt8)
    (tries : Nat → WriteResult) : SendStatus × SpeechMessenger :=
  match sendLoop cfg b data ((List.range sendTries).map tries) s with
  | (.noError, s) => (.noError, s)
  | (.unknownError, s) =>
    (.unknownError,
      if b.needsAck then
        { s with mWaitAckMessageID := 0 }.sendMsgFailErrorHandling cfg b
      else s)

/-- `SendMessage`. -/
def sendMessage (s : SpeechMessenger) (b : CcciBuff) (env : SendEnv) :
    SendStatus × SpeechMessenger :=
  match s.sendPrepare cfg b env.ioctl with
  | (none, s) => (.unknownError, s)
  | (some data, s) => s.sendWrite cfg b data env.tries

/-! ## The queue of messages -/

/-- The loop of `ConsumeMessageInQueue`: the head is discarded, and the messages behind it are sent
up to the first that waits for its acknowledgement. -/
def consumeLoop (env : Nat → SendEnv) : Nat → SpeechMessenger → SpeechMessenger
  | 0, s => s
  | n + 1, s =>
    let s := { s with queue := s.queue.dequeue }
    if s.queue.iQRead = s.queue.iQWrite then s
    else
      match s.queue.front.ack_type with
      | .bypassAck => consumeLoop env n (s.sendMessage cfg s.queue.front.ccci_buff (env n)).2
      | .needAck =>
        match s.sendMessage cfg s.queue.front.ccci_buff (env n) with
        | (.noError, s) => s
        | (.unknownError, s) => consumeLoop env n s
      | .canceled => consumeLoop env n s

/-- `ConsumeMessageInQueue`. -/
def consumeMessageInQueue (s : SpeechMessenger) (env : Nat → SendEnv) : SpeechMessenger :=
  if s.queue.getQueueCount = 0 then s
  else consumeLoop cfg env ccciMaxQueueNum (s.log (.consume s.queue.front.ccci_buff))

/-- The loop of `MDReset_CheckMessageInQueue`. -/
def mdResetLoop : Nat → SpeechMessenger → SpeechMessenger
  | 0, s => s
  | n + 1, s =>
    if s.queue.iQRead = s.queue.iQWrite then s
    else
      let b := s.queue.front.ccci_buff
      let s := if b.needsAck then s.sendMsgFailErrorHandling cfg b else s
      mdResetLoop n { s with queue := s.queue.dequeue }

/-- `MDReset_CheckMessageInQueue`: every message in the queue is given up. -/
def mdResetCheckMessageInQueue (s : SpeechMessenger) : SpeechMessenger :=
  let count := s.queue.getQueueCount
  let s := mdResetLoop cfg ccciMaxQueueNum s
  let s := if cfg.useCcciShareBuffer then
      { s with mA2MParaShareBuf := s.mA2MParaShareBuf.initA2MRawParaRingBuffer }
    else s
  if count ≠ 0 then { s with queue := s.queue.restart } else s

end SpeechMessenger

end MtkHw.Speech
