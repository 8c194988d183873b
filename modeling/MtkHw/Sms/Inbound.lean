import MtkHw.Lib.Machine

/-!
# Inbound GSM messages and their acknowledgement

The modem reports a new message with a URC, and waits for its acknowledgement.
`RmcGsmSmsUrcHandler` runs on the URC channel: it records the type of the message in
`RFX_STATUS_KEY_GSM_INBOUND_SMS_TYPE` and reports the message to the framework.
`RmcGsmSmsRequestHandler` runs on the channel `RIL_CMD_PROXY_1`: it takes requests of the
framework and events of the URC handler from one queue, acknowledges messages with a
command that depends on the recorded type, and then clears the type.

Each channel has a thread.  A step is what a thread does between two accesses to what it
shares with others; the label says which thread takes it and what comes from outside.
-/

namespace MtkHw.Sms

open Lib

/-- The values of `RFX_STATUS_KEY_GSM_INBOUND_SMS_TYPE`. -/
inductive InboundType where
  | /-- `SMS_INBOUND_NONE` -/ none
  | /-- `SMS_INBOUND_3GPP_CMT` -/ cmt
  | /-- `SMS_INBOUND_3GPP_CDS` -/ cds
  | /-- `SMS_INBOUND_3GPP_CMTI` -/ cmti
deriving DecidableEq, Repr

/-- `NEW_SMS_ERR_ACK_TYPE` -/
inductive ErrAckType where
  | none
  | cmtAckOnly
  | cmtAckReset
  | cdsAckOnly
  | cdsAckReset
deriving DecidableEq, Repr

/-- `(*errAckType) == ERR_ACK_CMT_ACK_RESET || (*errAckType) == ERR_ACK_CDS_ACK_RESET` -/
def ErrAckType.resets (e : ErrAckType) : Bool := e == .cmtAckReset || e == .cdsAckReset

/-! ## URCs -/

/-- A URC.  For those that carry a PDU, `valid` is `smsCheckReceivedPdu(..) >= 0`; the
others give what could be parsed of the line. -/
inductive Urc where
  | /-- `+CMT` -/ newSms (valid : Bool)
  | /-- `+EIMSCMT` -/ newImsSms (valid : Bool)
  | /-- `+CDS` -/ newSmsStatusReport (valid : Bool)
  | /-- `+EIMSCDS` -/ newImsSmsStatusReport (valid : Bool)
  | /-- `+CMTI` -/ newSmsOnSim (mem : Option String) (index : Option Int)
deriving DecidableEq, Repr

/-- Where the URC thread is. -/
inductive UrcPc where
  | idle
  | /-- A message is there already: an error is to be acknowledged. -/ rejecting (errAck : ErrAckType)
  | /-- `setIntValue` comes next, and then the check of the PDU. -/
    setting (type : InboundType) (errAck : ErrAckType) (valid : Bool)
  | /-- The type is recorded: the message is reported, or an error acknowledged. -/
    checking (type : InboundType) (errAck : ErrAckType) (valid : Bool)
  | /-- `setIntValue` comes next, and then the report. -/ settingOnSim
  | /-- The type is recorded: the message is reported. -/ reportingOnSim
deriving DecidableEq, Repr

/-- The handlers of URCs with a PDU, which differ in their constants. -/
def startNew (kind : InboundType) (ackOnly ackReset : ErrAckType) (valid : Bool)
    (smsType : InboundType) : UrcPc :=
  if smsType = .none then .setting kind ackReset valid else .rejecting ackOnly

def handleNewSms := startNew .cmt .cmtAckOnly .cmtAckReset
def handleNewImsSms := startNew .cmt .cmtAckOnly .cmtAckReset
def handleNewSmsStatusReport := startNew .cds .cdsAckOnly .cdsAckReset
def handleNewImsSmsStatusReport := startNew .cds .cdsAckOnly .cdsAckReset

/-- `handleNewSmsOnSim` does not look at the recorded type. -/
def handleNewSmsOnSim (mem : Option String) (index : Option Int) : UrcPc :=
  match mem with
  | none => .idle
  | some mem =>
      if mem ≠ "SM" then .idle
      else match index with
        | none => .idle
        | some _ => .settingOnSim

/-- `RmcGsmSmsUrcHandler::onHandleUrc`, up to the first access to the recorded type. -/
def onHandleUrc (smsType : InboundType) : Urc → UrcPc
  | .newSms valid => handleNewSms valid smsType
  | .newImsSms valid => handleNewImsSms valid smsType
  | .newSmsStatusReport valid => handleNewSmsStatusReport valid smsType
  | .newImsSmsStatusReport valid => handleNewImsSmsStatusReport valid smsType
  | .newSmsOnSim mem index => handleNewSmsOnSim mem index

/-! ## Requests -/

inductive AckName where
  | /-- `AT+CNMA` -/ cnma
  | /-- `AT+ECDSCNMA` -/ ecdscnma
deriving DecidableEq, Repr

/-- A command that acknowledges: `name=args`. -/
structure AtCommand where
  name : AckName
  args : String
deriving DecidableEq, Repr

/-- A request of the framework. -/
inductive AckRequest where
  | /-- `RFX_MSG_REQUEST_SMS_ACKNOWLEDGE` -/ acknowledge (ackSuccess cause : Int)
  | /-- `RFX_MSG_REQUEST_ACKNOWLEDGE_INCOMING_GSM_SMS_WITH_PDU` -/
    acknowledgeWithPdu (ackSuccess : Char) (pdu : String)
deriving DecidableEq, Repr

inductive RilErrno where
  | /-- `RIL_E_SUCCESS` -/ success
  | /-- `RIL_E_RADIO_NOT_AVAILABLE` -/ radioNotAvailable
  | /-- `RIL_E_GENERIC_FAILURE` -/ genericFailure
deriving DecidableEq, Repr

/-- The command of a message type; `none` is `goto error`. -/
def acknowledge (smsType : InboundType) (args : String) : Option AtCommand :=
  match smsType with
  | .cmt => some ⟨.cnma, args⟩
  | .cmti => some ⟨.cnma, args⟩
  | .cds => some ⟨.ecdscnma, args⟩
  | .none => none

def hexDigit (n : Nat) : Char := if n < 10 then Char.ofNat (48 + n) else Char.ofNat (55 + n)

/-- `%02X` -/
def hex02 (n : Nat) : String := String.ofList [hexDigit (n / 16), hexDigit (n % 16)]

/-- `handleSmsAcknowledge`, up to the command. -/
def handleSmsAcknowledge (smsType : InboundType) (ackSuccess cause : Int) : Option AtCommand :=
  if ackSuccess = 1 then acknowledge smsType "1, 2, \"0000\""
  else if ackSuccess = 0 then
    acknowledge smsType ("2, 3, \"00" ++ hex02 (cause % 256).toNat ++ "00\"")
  else none

/-- `handleSmsAcknowledgeWithPdu`, up to the command. -/
def handleSmsAcknowledgeWithPdu (smsType : InboundType) (ackSuccess : Char) (pdu : String) :
    Option AtCommand :=
  if ackSuccess = '1' then acknowledge smsType ("1, 2, \"" ++ pdu ++ "\"")
  else if ackSuccess = '0' then acknowledge smsType ("2, 3, \"" ++ pdu ++ "\"")
  else none

def AckRequest.command (smsType : InboundType) : AckRequest → Option AtCommand
  | .acknowledge ackSuccess cause => handleSmsAcknowledge smsType ackSuccess cause
  | .acknowledgeWithPdu ackSuccess pdu => handleSmsAcknowledgeWithPdu smsType ackSuccess pdu

/-- The result of a request that fails. -/
def AckRequest.failure : AckRequest → RilErrno
  | .acknowledge _ _ => .radioNotAvailable
  | .acknowledgeWithPdu _ _ => .genericFailure

/-- `sendNewSmsErrorAck` has one command for all messages. -/
def errorAckCommand : AtCommand := ⟨.cnma, "2, 3, \"00FF00\""⟩

/-- What is in the queue of `RIL_CMD_PROXY_1`. -/
inductive ProxyMsg where
  | request (r : AckRequest)
  | /-- `RFX_MSG_EVENT_SMS_NEW_SMS_ERR_ACK` -/ errAck (e : ErrAckType)
deriving DecidableEq, Repr

/-- Where the thread of `RIL_CMD_PROXY_1` is. -/
inductive ProxyPc where
  | idle
  | /-- The type has been read: the command comes next. -/ acking (r : AckRequest) (smsType : InboundType)
  | /-- The type is cleared next, and the request answered. -/ acked (errno : RilErrno)
  | /-- The error has been acknowledged: the type may be cleared. -/ errAcked (e : ErrAckType)
deriving DecidableEq, Repr

/-! ## The two threads -/

structure SmsState where
  /-- `RFX_STATUS_KEY_GSM_INBOUND_SMS_TYPE` -/
  smsType : InboundType
  urcPc : UrcPc
  proxyPc : ProxyPc
  /-- The queue of `RIL_CMD_PROXY_1`. -/
  queue : List ProxyMsg
  /-- The types of the messages that have been reported and not acknowledged. -/
  outstanding : List InboundType
  /-- The messages that have been acknowledged, with the command. -/
  acknowledged : List (InboundType × AtCommand)
  /-- The commands for messages that were not reported. -/
  errorAcks : List AtCommand
  /-- The answers to the framework. -/
  responses : List RilErrno
deriving DecidableEq, Repr

inductive SmsLabel where
  | /-- The URC thread takes a URC. -/ urc (u : Urc)
  | /-- The URC thread goes on. -/ urcStep
  | /-- The framework makes a request. -/ request (r : AckRequest)
  | /-- The thread of `RIL_CMD_PROXY_1` takes a message. -/ proxy
  | /-- It goes on; `ok` is the result of the command. -/ proxyStep (ok : Bool)
deriving DecidableEq, Repr

namespace SmsState

/-- The next step of the URC thread. -/
def urcStep (s : SmsState) : Option SmsState :=
  match s.urcPc with
  | .idle => none
  | .rejecting errAck => some { s with urcPc := .idle, queue := s.queue ++ [.errAck errAck] }
  | .setting kind errAck valid =>
      some { s with urcPc := .checking kind errAck valid, smsType := kind }
  | .checking kind errAck valid =>
      if valid then some { s with urcPc := .idle, outstanding := s.outstanding ++ [kind] }
      else some { s with urcPc := .idle, queue := s.queue ++ [.errAck errAck] }
  | .settingOnSim => some { s with urcPc := .reportingOnSim, smsType := .cmti }
  | .reportingOnSim => some { s with urcPc := .idle, outstanding := s.outstanding ++ [.cmti] }

/-- A command is sent for the message that was reported first. -/
def send (s : SmsState) (c : AtCommand) : SmsState :=
  match s.outstanding with
  | [] => { s with errorAcks := s.errorAcks ++ [c] }
  | kind :: outstanding =>
      { s with outstanding, acknowledged := s.acknowledged ++ [(kind, c)] }

/-- The next message for the thread of `RIL_CMD_PROXY_1`. -/
def proxy (s : SmsState) : Option SmsState :=
  match s.proxyPc, s.queue with
  | .idle, .request r :: queue => some { s with queue, proxyPc := .acking r s.smsType }
  | .idle, .errAck e :: queue =>
      some { s with queue, proxyPc := .errAcked e, errorAcks := s.errorAcks ++ [errorAckCommand] }
  | _, _ => none

/-- The next step of the thread of `RIL_CMD_PROXY_1`. -/
def proxyStep (s : SmsState) (ok : Bool) : Option SmsState :=
  match s.proxyPc with
  | .idle => none
  | .acking r smsType =>
      match r.command smsType with
      | none => some { s with proxyPc := .acked r.failure }
      | some c => some { s.send c with proxyPc := .acked (if ok then .success else r.failure) }
  | .acked errno =>
      some { s with proxyPc := .idle, smsType := .none, responses := s.responses ++ [errno] }
  | .errAcked e =>
      some { s with proxyPc := .idle, smsType := if e.resets then .none else s.smsType }

end SmsState

/-- The two threads, with nothing to do. -/
def inbound : Machine SmsState SmsLabel where
  init := ⟨.none, .idle, .idle, [], [], [], [], []⟩
  step s
    | .urc u => if s.urcPc = .idle then some { s with urcPc := onHandleUrc s.smsType u } else none
    | .urcStep => s.urcStep
    | .request r => some { s with queue := s.queue ++ [.request r] }
    | .proxy => s.proxy
    | .proxyStep ok => s.proxyStep ok

end MtkHw.Sms
