import MtkHw.Lib.Machine

/-!
# The pending queue of requests

`RfxRilAdapter::requestToMcl` puts a request into the pending queue and posts a copy
of it to the MCL dispatcher thread, which hands it to the thread of a channel, which
hands it to a handler.  A request leaves the pending queue for one of four reasons:
its handler answers a RIL request (`enqueueResponseMessage`) or a SAP request
(`enqueueSapResponseMessage`), nobody has registered for its id, or
`clearPendingQueue` empties the queue.  Answers go back through the response queue to
the main thread, which completes the request; `clearPendingQueue` completes by itself.

Every access to a queue is one step, so that the threads interleave between any two
of them.

Left out are the data of the messages and their time stamps.  The root controller is
modelled for responses without a controller of their own; a controller that does not
override `onHandleResponse` does the same.
-/

namespace MtkHw.Rfx

open MtkHw.Lib

/-! ## Messages -/

/-- `RFX_MESSAGE_TYPE`, as far as requests and their answers go. -/
inductive MessageType where
  | request
  | response
  | urc
  | sapRequest
  | sapResponse
  | sapUrc
deriving DecidableEq, Repr

/-- `RfxMessage`. -/
structure RfxMessage where
  type : MessageType
  slotId : Int
  id : Int
  pId : Int
  pToken : Int
  token : Int
  /-- The token of the caller of the RIL, which is given back to it. -/
  rilToken : Nat
  clientId : Int := -1
  error : Int := 0
deriving DecidableEq, Repr

/-- `RfxMclMessage`. -/
structure RfxMclMessage where
  type : MessageType
  id : Int
  slotId : Int
  token : Int
  error : Int := 0
deriving DecidableEq, Repr

/-- `RIL_E_RADIO_NOT_AVAILABLE` -/
def rilRadioNotAvailable : Int := 1

/-- `RIL_E_REQUEST_NOT_SUPPORTED` -/
def rilRequestNotSupported : Int := 6

/-- `RfxMclMessage::obtainRequest` and `obtainSapRequest`: the copy for the MCL. -/
def RfxMessage.toMcl (m : RfxMessage) : RfxMclMessage :=
  { type := m.type, id := m.id, slotId := m.slotId, token := m.token }

/-- `RfxMclMessage::obtainResponse` -/
def RfxMclMessage.obtainResponse (error : Int) (x : RfxMclMessage) : RfxMclMessage :=
  { type := .response, id := x.id, slotId := x.slotId, token := x.token, error := error }

/-- `RfxMclMessage::obtainSapResponse` -/
def RfxMclMessage.obtainSapResponse (error : Int) (x : RfxMclMessage) : RfxMclMessage :=
  { type := .sapResponse, id := x.id, slotId := x.slotId, token := x.token, error := error }

/-- `RfxMessage::obtainResponse`, for the answer `x` to the pending request `obj`. -/
def RfxMessage.obtainResponse (x : RfxMclMessage) (obj : RfxMessage) : RfxMessage :=
  { type := .response, slotId := x.slotId, id := obj.id, pId := obj.pId, pToken := obj.pToken
    token := obj.token, rilToken := obj.rilToken, clientId := obj.clientId, error := x.error }

/-- `RfxMessage::obtainSapResponse`, for the answer `x` to the pending request `obj`. -/
def RfxMessage.obtainSapResponse (x : RfxMclMessage) (obj : RfxMessage) : RfxMessage :=
  { type := .sapResponse, slotId := x.slotId, id := obj.id, pId := obj.pId, pToken := obj.pToken
    token := obj.token, rilToken := obj.rilToken, error := x.error }

/-- `RfxMessage::obtainResponse`, with an error for the request `msg`. -/
def RfxMessage.obtainErrorResponse (error : Int) (msg : RfxMessage) : RfxMessage :=
  { type := .response, slotId := msg.slotId, id := msg.id, pId := msg.pId, pToken := msg.pToken
    token := msg.token, rilToken := msg.rilToken, clientId := msg.clientId, error := error }

/-! ## Completions -/

/-- Who is told that a request is complete. -/
inductive CompletionCall where
  | /-- `RFX_onRequestComplete` -/ rilj
  | /-- `RtcRilClientController::onClientRequestComplete` -/ client (clientId : Int)
  | /-- `RFX_SAP_onRequestComplete` -/ bt
deriving DecidableEq, Repr

/-- The kind of request that a call completes. -/
def CompletionCall.completes : CompletionCall → MessageType
  | .rilj | .client _ => .request
  | .bt => .sapRequest

/-- A request is complete. -/
structure Completion where
  call : CompletionCall
  token : Int
  rilToken : Nat
  error : Int
deriving DecidableEq, Repr

/-- The SIM slots, and who has registered for what. -/
structure DispatchConfig where
  /-- `RfxRilUtils::getSimCount` -/
  simCount : Nat
  /-- `RfxHandlerManager::findMsgChannel` finds a channel. -/
  hasChannel : RfxMclMessage → Bool
  /-- `RfxHandlerManager::findMsgHandler` finds a handler. -/
  hasHandler : RfxMclMessage → Bool

/-- `RfxRilAdapter::responseToRilj`: the completion, if there is one. -/
def DispatchConfig.responseToRilj (cfg : DispatchConfig) (message : RfxMessage) :
    Option Completion :=
  if message.slotId < 0 ∨ message.slotId ≥ cfg.simCount then
    none
  else if message.type = .response then
    some {
      call := if message.clientId = -1 then .rilj else .client message.clientId
      token := message.token, rilToken := message.rilToken, error := message.error }
  else
    none

/-- `RfxRilAdapter::responseToBT`: the completion, if there is one. -/
def responseToBT (message : RfxMessage) : Option Completion :=
  if message.type = .sapResponse then
    some {
      call := .bt
      token := message.token, rilToken := message.rilToken, error := message.error }
  else
    none

/-- `RfxRootController::processMessage`, for an answer. -/
def DispatchConfig.processResponse (cfg : DispatchConfig) (message : RfxMessage) :
    Option Completion :=
  if message.type = .response ∨ message.type = .urc then
    cfg.responseToRilj message
  else
    responseToBT message

/-! ## The threads -/

/-- Where the thread in `clearPendingQueue` is; `tokens` were pending when it entered. -/
inductive FlushPc where
  | /-- Outside. -/ idle
  | /-- About to ask whether the queue is empty. -/ checking (tokens : List Int)
  | /-- About to take the first request, or waiting for one. -/ dequeuing (tokens : List Int)
  | /-- About to complete a request it has taken. -/ completing (tokens : List Int) (obj : RfxMessage)
deriving DecidableEq, Repr

/-- The queues between the threads, and the history. -/
structure DispatchState where
  /-- `pendingQueue` -/
  pending : List RfxMessage := []
  /-- Requests in `requestToMcl`, after `addMessageToPendingQueue`. -/
  posting : List RfxMclMessage := []
  /-- The looper of the MCL dispatcher thread. -/
  looper : List RfxMclMessage := []
  /-- The loopers of the channels. -/
  channels : List RfxMclMessage := []
  /-- The requests that handlers have been given. -/
  handled : List RfxMclMessage := []
  /-- Answers whose request has left the pending queue. -/
  answering : List RfxMessage := []
  /-- `dispatchResponseQueue`, and the looper of the main thread behind it. -/
  responses : List RfxMessage := []
  flush : FlushPc := .idle
  /-- History: the requests. -/
  accepted : List RfxMessage := []
  /-- History: the tokens that have left the pending queue. -/
  left : List Int := []
  /-- History: the completions. -/
  completed : List Completion := []
  /-- History: the tokens that were pending when `clearPendingQueue` was called, for each call
  that has returned. -/
  flushed : List Int := []
deriving Repr

/-- `Dispatch_queue::checkAndDequeue`: the first entry with the token, and the rest. -/
def checkAndDequeue (token : Int) : List RfxMessage → Option (RfxMessage × List RfxMessage)
  | [] => none
  | m :: queue =>
      if token = m.token then
        some (m, queue)
      else
        (checkAndDequeue token queue).map fun found => (found.1, m :: found.2)

namespace DispatchState

/-- An answer takes its request out of the pending queue, if it is still there. -/
def enqueueAnswer (obtain : RfxMclMessage → RfxMessage → RfxMessage) (s : DispatchState)
    (msg : RfxMclMessage) : DispatchState :=
  match checkAndDequeue msg.token s.pending with
  | none => s
  | some (obj, queue) =>
      { s with
        pending := queue
        left := s.left ++ [obj.token]
        answering := s.answering ++ [obtain msg obj] }

/-- `RfxDispatchThread::enqueueResponseMessage`, up to the response queue. -/
def enqueueResponseMessage (s : DispatchState) (msg : RfxMclMessage) : DispatchState :=
  s.enqueueAnswer RfxMessage.obtainResponse msg

/-- `RfxDispatchThread::enqueueSapResponseMessage`, up to the response queue. -/
def enqueueSapResponseMessage (s : DispatchState) (msg : RfxMclMessage) : DispatchState :=
  s.enqueueAnswer RfxMessage.obtainSapResponse msg

/-- The answer to a request nobody has registered for. -/
def notSupported (s : DispatchState) (msg : RfxMclMessage) : DispatchState :=
  s.enqueueResponseMessage (RfxMclMessage.obtainResponse rilRequestNotSupported msg)

/-- `RfxMclMessenger::onHandleMessage` -/
def onHandleMessage (cfg : DispatchConfig) (s : DispatchState) (msg : RfxMclMessage) :
    DispatchState :=
  if cfg.hasChannel msg then
    { s with channels := s.channels ++ [msg] }
  else
    s.notSupported msg

/-- `RfxHandlerManager::processMessage` -/
def processMessage (cfg : DispatchConfig) (s : DispatchState) (msg : RfxMclMessage) :
    DispatchState :=
  if cfg.hasHandler msg then
    { s with handled := s.handled ++ [msg] }
  else
    s.notSupported msg

/-- A handler answers a request, on the interface of the request. -/
def answer (s : DispatchState) (msg : RfxMclMessage) (error : Int) : DispatchState :=
  if msg.type = .sapRequest then
    s.enqueueSapResponseMessage (RfxMclMessage.obtainSapResponse error msg)
  else
    s.enqueueResponseMessage (RfxMclMessage.obtainResponse error msg)

/-- The next step of the thread in `clearPendingQueue`. -/
def flushStep (cfg : DispatchConfig) (s : DispatchState) : Option DispatchState :=
  match s.flush with
  | .idle => some { s with flush := .checking (s.pending.map RfxMessage.token) }
  | .checking tokens =>
      match s.pending with
      | [] => some { s with flush := .idle, flushed := s.flushed ++ tokens }
      | _ :: _ => some { s with flush := .dequeuing tokens }
  | .dequeuing tokens =>
      match s.pending with
      | [] => none
      | obj :: queue =>
          some { s with
            pending := queue
            left := s.left ++ [obj.token]
            flush := .completing tokens obj }
  | .completing tokens obj =>
      let response := RfxMessage.obtainErrorResponse rilRadioNotAvailable obj
      some { s with
        flush := .checking tokens
        completed := s.completed ++ (cfg.responseToRilj response).toList }

end DispatchState

/-- A step of one of the threads. -/
inductive DispatchAct where
  | /-- `requestToMcl` adds a request to the pending queue. -/ request (m : RfxMessage)
  | /-- `requestToMcl` posts its copy. -/ post (i : Nat)
  | /-- The MCL dispatcher takes a message of its looper. -/ dispatch (i : Nat)
  | /-- A channel takes a message of its looper. -/ process (i : Nat)
  | /-- A handler answers a request, perhaps not for the first time. -/ answer (i : Nat) (error : Int)
  | /-- An answer reaches the response queue. -/ respond (i : Nat)
  | /-- The main thread handles the first answer. -/ complete
  | /-- The thread in `clearPendingQueue` goes on. -/ flush
deriving DecidableEq, Repr

/-- The dispatcher.  A request has the type of one, and a token of its own. -/
def dispatcher (cfg : DispatchConfig) : Machine DispatchState DispatchAct where
  init := {}
  step s
    | .request m =>
        if (m.type = .request ∨ m.type = .sapRequest) ∧
            m.token ∉ s.accepted.map RfxMessage.token then
          some { s with
            pending := s.pending ++ [m]
            posting := s.posting ++ [m.toMcl]
            accepted := s.accepted ++ [m] }
        else
          none
    | .post i =>
        s.posting[i]?.map fun x =>
          { s with posting := s.posting.eraseIdx i, looper := s.looper ++ [x] }
    | .dispatch i =>
        s.looper[i]?.map fun x =>
          { s with looper := s.looper.eraseIdx i }.onHandleMessage cfg x
    | .process i =>
        s.channels[i]?.map fun x =>
          { s with channels := s.channels.eraseIdx i }.processMessage cfg x
    | .answer i error => s.handled[i]?.map fun x => s.answer x error
    | .respond i =>
        s.answering[i]?.map fun r =>
          { s with answering := s.answering.eraseIdx i, responses := s.responses ++ [r] }
    | .complete =>
        match s.responses with
        | [] => none
        | r :: responses =>
            some { s with
              responses := responses
              completed := s.completed ++ (cfg.processResponse r).toList }
    | .flush => s.flushStep cfg

end MtkHw.Rfx
