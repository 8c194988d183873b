import Mathlib.Data.List.Count
import Mathlib.Data.List.Nodup
import MtkHw.Lib.Machine
import MtkHw.Rfx.PendingQueue

/-!
# Pairing of dual responses

A controller that sends a request to two protocol stacks waits for both responses.  The first one is
kept in `m_wait_reponse_msg_list`, with a timer if the caller wants one, until the second one arrives or
the timer fires; `m_processed_msg_list` remembers the requests for which no response is waited for any
more.

`RequestPhase` is the history of one request.  `paired` is the result: in every run the reports are
those that the histories of the requests ask for, and the lists hold what the histories say.  A
request whose responses have been matched stays in `m_processed_msg_list`.
-/

namespace MtkHw.Rfx

open MtkHw.Lib

/-- A message with the time stamp of the request that it belongs to. -/
structure StampedMessage extends RfxMessage where
  pTimeStamp : Int
deriving DecidableEq, Repr

/-- `ResponseStatus` -/
inductive ResponseStatus where
  | noMatchAndSave
  | haveMatched
  | haveMatchedWithCChanged
  | alreadySaved
  | haveBeenDeleted
  | invalid
deriving DecidableEq, Repr

/-- `RfxController::ProcessedMsgInfo`: what a request is known by. -/
structure ProcessedMsgInfo where
  id : Int
  pTimeStamp : Int
deriving DecidableEq, Repr

/-- The request of a message. -/
def StampedMessage.request (m : StampedMessage) : ProcessedMsgInfo := ⟨m.pId, m.pTimeStamp⟩

/-- `RfxWaitReponseEntry` -/
structure WaitReponseEntry where
  m_reponse_msg : StampedMessage
  m_timer_handle : Option Nat
deriving DecidableEq, Repr

/-- The lists of a controller, and the timers that it has started, each with the message of its
helper. -/
structure PairingController where
  m_wait_reponse_msg_list : List WaitReponseEntry := []
  m_processed_msg_list : List ProcessedMsgInfo := []
  timers : List (Nat × StampedMessage) := []
  nextTimer : Nat := 0
deriving DecidableEq, Repr

namespace PairingController

/-- `removeCachedResponse` -/
def removeCachedResponse (c : PairingController) (token : Int) : PairingController :=
  { c with m_wait_reponse_msg_list :=
      c.m_wait_reponse_msg_list.eraseP fun e => e.m_reponse_msg.token = token }

/-- `setProcessedMsg` -/
def setProcessedMsg (c : PairingController) (info : ProcessedMsgInfo) : PairingController :=
  { c with m_processed_msg_list := c.m_processed_msg_list ++ [info] }

/-- `RfxTimer::stop` -/
def stopTimer (c : PairingController) (handle : Nat) : PairingController :=
  { c with timers := c.timers.filter fun t => t.1 ≠ handle }

/-- `RfxWaitReponseTimerHelper::onTimer`, behind the callback of the caller. -/
def onTimer (c : PairingController) (m_reponse_msg : StampedMessage) : PairingController :=
  (c.removeCachedResponse m_reponse_msg.token).setProcessedMsg m_reponse_msg.request

/-- The test for a response that belongs to the same request. -/
def isSameRequest (message : StampedMessage) (e : WaitReponseEntry) : Bool :=
  e.m_reponse_msg.type = message.type && e.m_reponse_msg.pTimeStamp = message.pTimeStamp &&
    e.m_reponse_msg.pId = message.pId

/-- What `preprocessResponse` does when no response of the request is waiting. -/
def storeResponse (c : PairingController) (message : StampedMessage) (callback : Bool) :
    ResponseStatus × Option StampedMessage × PairingController :=
  if message.request ∈ c.m_processed_msg_list then
    (.haveBeenDeleted, none,
      { c with m_processed_msg_list := c.m_processed_msg_list.erase message.request })
  else if callback then
    (.noMatchAndSave, none,
      { c with
        m_wait_reponse_msg_list := c.m_wait_reponse_msg_list ++ [⟨message, some c.nextTimer⟩]
        timers := c.timers ++ [(c.nextTimer, message)]
        nextTimer := c.nextTimer + 1 })
  else
    (.noMatchAndSave, none,
      { c with m_wait_reponse_msg_list := c.m_wait_reponse_msg_list ++ [⟨message, none⟩] })

/-- `preprocessResponse`: what it returns, `outResponse`, and the controller; `callback` says if the
callback for a timeout is valid. -/
def preprocessResponse (c : PairingController) (message : StampedMessage) (callback : Bool) :
    ResponseStatus × Option StampedMessage × PairingController :=
  if message.type ≠ .response then (.invalid, none, c)
  else
    match c.m_wait_reponse_msg_list.find? (isSameRequest message) with
    | none => c.storeResponse message callback
    | some messageTmp =>
      if messageTmp.m_reponse_msg.token = message.token then (.alreadySaved, none, c)
      else
        let c := { c with m_wait_reponse_msg_list :=
          c.m_wait_reponse_msg_list.eraseP (isSameRequest message) }
        let c := match messageTmp.m_timer_handle with
          | some handle => c.stopTimer handle
          | none => c
        (.haveMatched, some messageTmp.m_reponse_msg,
          c.setProcessedMsg messageTmp.m_reponse_msg.request)

end PairingController

/-! ## Runs -/

/-- What a controller is told. -/
inductive PairingEvent where
  | /-- A response arrives, and is to wait with a timer or without. -/
    response (message : StampedMessage) (callback : Bool)
  | /-- A timer fires. -/ timeout (handle : Nat)

/-- What a controller has handled. -/
inductive Handled where
  | /-- A response, with what has been reported for it. -/
    response (message : StampedMessage) (status : ResponseStatus) (outResponse : Option StampedMessage)
  | /-- A timer, with the message of its helper. -/ timeout (message : StampedMessage)
deriving DecidableEq, Repr

/-- The request that has been handled. -/
def Handled.request : Handled → ProcessedMsgInfo
  | response message .. => message.request
  | timeout message => message.request

/-- A controller, and what it has handled. -/
structure PairingSession where
  controller : PairingController := {}
  log : List Handled := []
deriving DecidableEq, Repr

/-- The controller handles an event; a timer can fire if it is running. -/
def pairingStep (s : PairingSession) : PairingEvent → Option PairingSession
  | .response message callback =>
    let (status, outResponse, controller) := s.controller.preprocessResponse message callback
    some ⟨controller, s.log ++ [.response message status outResponse]⟩
  | .timeout handle =>
    (s.controller.timers.find? fun t => t.1 = handle).map fun t =>
      ⟨(s.controller.stopTimer handle).onTimer t.2, s.log ++ [.timeout t.2]⟩

/-- The runs of a controller. -/
def pairing : Machine PairingSession PairingEvent := ⟨{}, pairingStep⟩

/-! ## The histories of requests -/

/-- How far a request is. -/
inductive RequestPhase where
  | unanswered
  | /-- One response has arrived. -/ waiting (first : StampedMessage)
  | /-- The timer has fired after the first response. -/ timedOut
  | /-- The second response has arrived in time. -/ matched
  | /-- The second response has arrived after the timer. -/ late
deriving DecidableEq, Repr

namespace RequestPhase

/-- The phase behind something that has been handled for the request. -/
def handle : RequestPhase → Handled → RequestPhase
  | unanswered, .response message .. => waiting message
  | waiting _, .response .. => matched
  | timedOut, .response .. => late
  | waiting _, .timeout _ => timedOut
  | phase, _ => phase

/-- What is to be reported for the next response. -/
def report : RequestPhase → ResponseStatus × Option StampedMessage
  | unanswered => (.noMatchAndSave, none)
  | waiting first => (.haveMatched, some first)
  | _ => (.haveBeenDeleted, none)

/-- Both responses have arrived. -/
def Completed (phase : RequestPhase) : Prop := phase = matched ∨ phase = late

/-- The entries that `m_processed_msg_list` keeps of the request. -/
def kept : RequestPhase → Nat
  | timedOut => 1
  | matched => 1
  | _ => 0

/-- The responses that have arrived. -/
def answers : RequestPhase → Nat
  | unanswered => 0
  | waiting _ => 1
  | timedOut => 1
  | matched => 2
  | late => 2

end RequestPhase

/-- How far a request is in a log. -/
def phaseOf (log : List Handled) (request : ProcessedMsgInfo) : RequestPhase :=
  log.foldl (fun phase h => if h.request = request then phase.handle h else phase) .unanswered

/-- The responses of a log. -/
def responses (log : List Handled) : List StampedMessage :=
  log.filterMap fun
    | .response message .. => some message
    | .timeout _ => none

/-- Two responses of each request at most, with different tokens. -/
structure DualResponses (log : List Handled) : Prop where
  type : ∀ message ∈ responses log, message.type = .response
  twice : ∀ request, ((responses log).map StampedMessage.request).count request ≤ 2
  tokens : (responses log).Pairwise fun message message' =>
    message.request = message'.request → message.token ≠ message'.token

/-- Responses with tokens that are all different, as `generateToken` makes them. -/
def DistinctTokens (log : List Handled) : Prop := ((responses log).map (·.token)).Nodup

/-- The reports are those that the histories ask for. -/
def Reports (log : List Handled) : Prop :=
  ∀ before message status outResponse after,
    log = before ++ .response message status outResponse :: after →
      (status, outResponse) = (phaseOf before message.request).report

/-- What is asked of the pairing. -/
structure PairsCleanly (s : PairingSession) : Prop where
  reports : Reports s.log
  waiting : ∀ e ∈ s.controller.m_wait_reponse_msg_list,
    ¬ (phaseOf s.log e.m_reponse_msg.request).Completed
  processed : ∀ info ∈ s.controller.m_processed_msg_list, ¬ (phaseOf s.log info).Completed

/-- What the pairing does: of a request whose responses have been matched, one entry is kept in
`m_processed_msg_list`. -/
structure Pairs (s : PairingSession) : Prop where
  reports : Reports s.log
  waiting : ∀ e ∈ s.controller.m_wait_reponse_msg_list,
    ¬ (phaseOf s.log e.m_reponse_msg.request).Completed
  late : ∀ request, phaseOf s.log request = .late → request ∉ s.controller.m_processed_msg_list
  matched : ∀ request, phaseOf s.log request = .matched →
    s.controller.m_processed_msg_list.count request = 1

/-! ## Logs with one more entry -/

theorem phaseOf_snoc (log : List Handled) (h : Handled) (request : ProcessedMsgInfo) :
    phaseOf (log ++ [h]) request =
      if h.request = request then (phaseOf log request).handle h else phaseOf log request :=
  List.foldl_append

theorem responses_snoc_response (log : List Handled) (message : StampedMessage)
    (status : ResponseStatus) (outResponse : Option StampedMessage) :
    responses (log ++ [.response message status outResponse]) = responses log ++ [message] := by
  rw [responses, List.filterMap_append]
  rfl

theorem responses_snoc_timeout (log : List Handled) (message : StampedMessage) :
    responses (log ++ [.timeout message]) = responses log := by
  rw [responses, List.filterMap_append]
  exact List.append_nil _

/-- One more report. -/
theorem Reports.snoc {log : List Handled} (h : Reports log) {last : Handled}
    (hlast : ∀ message status outResponse, last = .response message status outResponse →
      (status, outResponse) = (phaseOf log message.request).report) : Reports (log ++ [last]) := by
  intro before message status outResponse after heq
  rcases after.eq_nil_or_concat with rfl | ⟨init, x, rfl⟩
  · obtain ⟨rfl, hx⟩ := List.append_inj' heq rfl
    exact hlast message status outResponse (List.cons.inj hx).1
  · rw [List.concat_eq_append, ← List.cons_append, ← List.append_assoc] at heq
    obtain ⟨rfl, -⟩ := List.append_inj' heq rfl
    exact h before message status outResponse init rfl

theorem DualResponses.of_snoc {log : List Handled} {h : Handled} (hdual : DualResponses (log ++ [h])) :
    DualResponses log := by
  have happend : responses (log ++ [h]) = responses log ++ responses [h] := List.filterMap_append
  obtain ⟨htype, htwice, htokens⟩ := hdual
  rw [happend] at htype htwice htokens
  refine ⟨fun m hm => htype m (List.mem_append_left _ hm), fun request => ?_,
    (List.pairwise_append.mp htokens).1⟩
  have := htwice request
  rw [List.map_append, List.count_append] at this
  omega

theorem DistinctTokens.of_snoc {log : List Handled} {h : Handled}
    (hdistinct : DistinctTokens (log ++ [h])) : DistinctTokens log := by
  rw [DistinctTokens, responses, List.filterMap_append, List.map_append] at hdistinct
  exact (List.nodup_append.mp hdistinct).1

/-! ## Lists in which every request stands once -/

section Unique

variable {list : List WaitReponseEntry}
  (hnodup : (list.map fun e => e.m_reponse_msg.request).Nodup)

include hnodup

/-- The entry of a request is the only one. -/
theorem entry_unique {e e' : WaitReponseEntry} (he : e ∈ list) (he' : e' ∈ list)
    (h : e.m_reponse_msg.request = e'.m_reponse_msg.request) : e = e' :=
  List.inj_on_of_nodup_map hnodup he he' h

/-- Taking out the first entry that fits takes out the entry of its request. -/
theorem eraseP_eq_filter {p : WaitReponseEntry → Bool} {request : ProcessedMsgInfo}
    (hp : ∀ e ∈ list, p e = true ↔ e.m_reponse_msg.request = request) :
    list.eraseP p = list.filter fun e => e.m_reponse_msg.request ≠ request := by
  induction list with
  | nil => rfl
  | cons e list ih =>
    rw [List.map_cons, List.nodup_cons] at hnodup
    rw [List.forall_mem_cons] at hp
    by_cases hrequest : e.m_reponse_msg.request = request
    · rw [List.eraseP_cons_of_pos (hp.1.mpr hrequest), List.filter_cons_of_neg (by simpa using hrequest)]
      refine (List.filter_eq_self.mpr fun e' he' => ?_).symm
      have hother : e'.m_reponse_msg.request ≠ request := fun heq =>
        hnodup.1 (List.mem_map.mpr ⟨e', he', heq.trans hrequest.symm⟩)
      simpa using hother
    · rw [List.eraseP_cons_of_neg (fun h => hrequest (hp.1.mp h)),
        List.filter_cons_of_pos (by simpa using hrequest), ih hnodup.2 hp.2]

end Unique

/-! ## The invariant -/

/-- The lists of a controller are what the histories of the requests say. -/
structure PairingInv (s : PairingSession) : Prop where
  reports : Reports s.log
  messages : ∀ e ∈ s.controller.m_wait_reponse_msg_list, e.m_reponse_msg ∈ responses s.log
  waiting : ∀ e ∈ s.controller.m_wait_reponse_msg_list,
    phaseOf s.log e.m_reponse_msg.request = .waiting e.m_reponse_msg
  stored : ∀ request first, phaseOf s.log request = .waiting first →
    ∃ e ∈ s.controller.m_wait_reponse_msg_list, e.m_reponse_msg.request = request
  nodup : (s.controller.m_wait_reponse_msg_list.map fun e => e.m_reponse_msg.request).Nodup
  timers : ∀ t ∈ s.controller.timers, ⟨t.2, some t.1⟩ ∈ s.controller.m_wait_reponse_msg_list
  kept : ∀ request,
    s.controller.m_processed_msg_list.count request = (phaseOf s.log request).kept
  answers : ∀ request,
    ((responses s.log).map StampedMessage.request).count request = (phaseOf s.log request).answers

theorem pairingInv_init : PairingInv {} where
  reports := by
    intro before message status outResponse after h
    cases before with
    | nil => cases h
    | cons b before => cases h
  messages := fun _ he => absurd he List.not_mem_nil
  waiting := fun _ he => absurd he List.not_mem_nil
  stored := fun _ _ h => by cases h
  nodup := List.nodup_nil
  timers := fun _ ht => absurd ht List.not_mem_nil
  kept := fun _ => rfl
  answers := fun _ => rfl

/-- The responses that have been counted, with one more. -/
theorem answers_snoc {log : List Handled} {message : StampedMessage}
    (h : ∀ request, ((responses log).map StampedMessage.request).count request =
      (phaseOf log request).answers)
    {status : ResponseStatus} {outResponse : Option StampedMessage}
    (hnext : ((phaseOf log message.request).handle (.response message status outResponse)).answers =
      (phaseOf log message.request).answers + 1) (request : ProcessedMsgInfo) :
    ((responses (log ++ [.response message status outResponse])).map
        StampedMessage.request).count request =
      (phaseOf (log ++ [.response message status outResponse]) request).answers := by
  rw [responses_snoc_response, List.map_append, List.count_append, h request, phaseOf_snoc,
    List.map_singleton, List.count_singleton, Handled.request]
  by_cases heq : message.request = request
  · subst heq
    rw [if_pos rfl, beq_self_eq_true, if_pos rfl, hnext]
  · rw [if_neg heq, if_neg (by simpa using heq), Nat.add_zero]

namespace PairingInv

variable {s : PairingSession} (inv : PairingInv s)

include inv

/-- The entry of a waiting request. -/
theorem entry {request : ProcessedMsgInfo} {first : StampedMessage}
    (hphase : phaseOf s.log request = .waiting first) :
    ∃ e ∈ s.controller.m_wait_reponse_msg_list, e.m_reponse_msg = first ∧ first.request = request := by
  obtain ⟨e, he, rfl⟩ := inv.stored request first hphase
  have hfirst := (inv.waiting e he).symm.trans hphase
  cases hfirst
  exact ⟨e, he, rfl, rfl⟩

/-- An entry leaves the list, its timer is stopped and its request is remembered. -/
theorem settle {e : WaitReponseEntry} (he : e ∈ s.controller.m_wait_reponse_msg_list) {h : Handled}
    (hrequest : h.request = e.m_reponse_msg.request)
    (hkept : ((RequestPhase.waiting e.m_reponse_msg).handle h).kept = 1)
    (hreports : Reports (s.log ++ [h]))
    (hanswers : ∀ request, ((responses (s.log ++ [h])).map StampedMessage.request).count request =
      (phaseOf (s.log ++ [h]) request).answers)
    {timers : List (Nat × StampedMessage)}
    (htimers : ∀ t ∈ timers, t ∈ s.controller.timers ∧ some t.1 ≠ e.m_timer_handle) :
    PairingInv ⟨{ s.controller with
      m_wait_reponse_msg_list := s.controller.m_wait_reponse_msg_list.filter fun e' =>
        e'.m_reponse_msg.request ≠ e.m_reponse_msg.request
      m_processed_msg_list := s.controller.m_processed_msg_list ++ [e.m_reponse_msg.request]
      timers := timers }, s.log ++ [h]⟩ := by
  have hphase : ∀ request, phaseOf (s.log ++ [h]) request =
      if e.m_reponse_msg.request = request then
        (RequestPhase.waiting e.m_reponse_msg).handle h
      else phaseOf s.log request := by
    intro request
    rw [phaseOf_snoc, hrequest]
    split_ifs with heq
    · rw [← heq, inv.waiting e he]
    · rfl
  have hother : ∀ {e' : WaitReponseEntry}, e' ∈ (s.controller.m_wait_reponse_msg_list.filter fun e' =>
      e'.m_reponse_msg.request ≠ e.m_reponse_msg.request) →
      e' ∈ s.controller.m_wait_reponse_msg_list ∧
        e.m_reponse_msg.request ≠ e'.m_reponse_msg.request := by
    intro e' he'
    obtain ⟨hmem, hne⟩ := List.mem_filter.mp he'
    exact ⟨hmem, fun heq => of_decide_eq_true hne heq.symm⟩
  refine ⟨hreports, fun e' he' => ?_, fun e' he' => ?_, fun request first hwaiting => ?_,
    inv.nodup.sublist (List.filter_sublist.map _), fun t ht => ?_, fun request => ?_, hanswers⟩
  · have hsub : responses (s.log ++ [h]) = responses s.log ++ responses [h] := List.filterMap_append
    rw [hsub]
    exact List.mem_append_left _ (inv.messages e' (hother he').1)
  · rw [hphase, if_neg (hother he').2]
    exact inv.waiting e' (hother he').1
  · rw [hphase] at hwaiting
    split_ifs at hwaiting with heq
    · rw [hwaiting] at hkept
      cases hkept
    · obtain ⟨e', he', rfl⟩ := inv.stored request first hwaiting
      exact ⟨e', List.mem_filter.mpr ⟨he', decide_eq_true fun h => heq h.symm⟩, rfl⟩
  · obtain ⟨hmem, hhandle⟩ := htimers t ht
    refine List.mem_filter.mpr ⟨inv.timers t hmem, decide_eq_true fun heq => hhandle ?_⟩
    rw [← entry_unique inv.nodup (inv.timers t hmem) he heq]
  · rw [List.count_append, inv.kept request, hphase, List.count_singleton]
    by_cases heq : e.m_reponse_msg.request = request
    · rw [if_pos heq, if_pos (beq_iff_eq.mpr heq), hkept, ← heq, inv.waiting e he]
      rfl
    · rw [if_neg heq, if_neg (by simpa using heq), Nat.add_zero]

/-- The test for the same request, on the entries of the list. -/
theorem isSameRequest_iff (hdual : DualResponses s.log) {message : StampedMessage}
    (htype : message.type = .response) {e : WaitReponseEntry}
    (he : e ∈ s.controller.m_wait_reponse_msg_list) :
    PairingController.isSameRequest message e = true ↔ e.m_reponse_msg.request = message.request := by
  have hresponse := hdual.type _ (inv.messages e he)
  simp only [PairingController.isSameRequest, hresponse, htype, StampedMessage.request,
    ProcessedMsgInfo.mk.injEq, decide_true, Bool.true_and, Bool.and_eq_true, decide_eq_true_eq]
  exact and_comm

/-- Nothing is found for a request that is not waiting. -/
theorem find_none (hdual : DualResponses s.log) {message : StampedMessage}
    (htype : message.type = .response)
    (hphase : ∀ first, phaseOf s.log message.request ≠ .waiting first) :
    s.controller.m_wait_reponse_msg_list.find? (PairingController.isSameRequest message) = none := by
  refine List.find?_eq_none.mpr fun e he hsame => ?_
  have hrequest := (inv.isSameRequest_iff hdual htype he).mp hsame
  exact hphase e.m_reponse_msg (hrequest ▸ inv.waiting e he)

/-- The entry of a waiting request is found. -/
theorem find_some (hdual : DualResponses s.log) {message : StampedMessage}
    (htype : message.type = .response) {e : WaitReponseEntry}
    (he : e ∈ s.controller.m_wait_reponse_msg_list)
    (hrequest : e.m_reponse_msg.request = message.request) :
    s.controller.m_wait_reponse_msg_list.find? (PairingController.isSameRequest message) = some e := by
  have hsame := (inv.isSameRequest_iff hdual htype he).mpr hrequest
  obtain ⟨e', hfind⟩ := Option.isSome_iff_exists.mp (List.find?_isSome.mpr ⟨e, he, hsame⟩)
  have he' := List.mem_of_find?_eq_some hfind
  have hrequest' := (inv.isSameRequest_iff hdual htype he').mp (List.find?_some hfind)
  rw [hfind, entry_unique inv.nodup he' he (hrequest'.trans hrequest.symm)]

/-- A first response is stored. -/
theorem store {message : StampedMessage} (hphase : phaseOf s.log message.request = .unanswered)
    {handle : Option Nat} {timers : List (Nat × StampedMessage)} {nextTimer : Nat}
    (htimers : ∀ t ∈ timers, t ∈ s.controller.timers ∨ t.2 = message ∧ some t.1 = handle) :
    PairingInv ⟨{ s.controller with
      m_wait_reponse_msg_list := s.controller.m_wait_reponse_msg_list ++ [⟨message, handle⟩]
      timers := timers
      nextTimer := nextTimer }, s.log ++ [.response message .noMatchAndSave none]⟩ := by
  have hphase' : ∀ request, phaseOf (s.log ++ [.response message .noMatchAndSave none]) request =
      if message.request = request then .waiting message else phaseOf s.log request := by
    intro request
    rw [phaseOf_snoc, Handled.request]
    split_ifs with heq
    · rw [← heq, hphase]
      rfl
    · rfl
  have hother : ∀ e ∈ s.controller.m_wait_reponse_msg_list,
      message.request ≠ e.m_reponse_msg.request := by
    intro e he heq
    have hwaiting := inv.waiting e he
    rw [← heq, hphase] at hwaiting
    cases hwaiting
  refine ⟨inv.reports.snoc ?_, fun e he => ?_, fun e he => ?_, fun request first hwaiting => ?_, ?_,
    fun t ht => ?_, fun request => ?_, answers_snoc inv.answers (by rw [hphase]; rfl)⟩
  · intro message' status outResponse heq
    cases heq
    rw [hphase]
    rfl
  · rw [responses_snoc_response]
    rcases List.mem_append.mp he with he | he
    · exact List.mem_append_left _ (inv.messages e he)
    · rw [List.mem_singleton.mp he]
      exact List.mem_append_right _ (List.mem_singleton_self _)
  · rw [hphase']
    rcases List.mem_append.mp he with he | he
    · rw [if_neg (hother e he)]
      exact inv.waiting e he
    · rw [List.mem_singleton.mp he]
      exact if_pos rfl
  · rw [hphase'] at hwaiting
    split_ifs at hwaiting with heq
    · exact ⟨⟨message, handle⟩, List.mem_append_right _ (List.mem_singleton_self _), heq⟩
    · obtain ⟨e, he, hrequest⟩ := inv.stored request first hwaiting
      exact ⟨e, List.mem_append_left _ he, hrequest⟩
  · rw [List.map_append]
    refine List.nodup_append.mpr ⟨inv.nodup, List.nodup_singleton _, ?_⟩
    rintro request hrequest request' hrequest' rfl
    obtain ⟨e, he, rfl⟩ := List.mem_map.mp hrequest
    exact hother e he (List.mem_singleton.mp hrequest').symm
  · rcases htimers t ht with hmem | ⟨rfl, rfl⟩
    · exact List.mem_append_left _ (inv.timers t hmem)
    · exact List.mem_append_right _ (List.mem_singleton_self _)
  · rw [inv.kept request, hphase']
    split_ifs with heq
    · rw [← heq, hphase]
      rfl
    · rfl

/-- A response behind the timer lets its request be forgotten. -/
theorem forget {message : StampedMessage} (hphase : phaseOf s.log message.request = .timedOut) :
    PairingInv ⟨{ s.controller with
      m_processed_msg_list := s.controller.m_processed_msg_list.erase message.request },
      s.log ++ [.response message .haveBeenDeleted none]⟩ := by
  have hphase' : ∀ request, phaseOf (s.log ++ [.response message .haveBeenDeleted none]) request =
      if message.request = request then .late else phaseOf s.log request := by
    intro request
    rw [phaseOf_snoc, Handled.request]
    split_ifs with heq
    · rw [← heq, hphase]
      rfl
    · rfl
  refine ⟨inv.reports.snoc ?_, fun e he => ?_, fun e he => ?_, fun request first hwaiting => ?_,
    inv.nodup, inv.timers, fun request => ?_, answers_snoc inv.answers (by rw [hphase]; rfl)⟩
  · intro message' status outResponse heq
    cases heq
    rw [hphase]
    rfl
  · rw [responses_snoc_response]
    exact List.mem_append_left _ (inv.messages e he)
  · have hwaiting := inv.waiting e he
    rw [hphase', if_neg]
    · exact hwaiting
    · intro heq
      rw [← heq, hphase] at hwaiting
      cases hwaiting
  · rw [hphase'] at hwaiting
    split_ifs at hwaiting with heq
    exact inv.stored request first hwaiting
  · rw [hphase']
    by_cases heq : message.request = request
    · subst heq
      rw [if_pos rfl, List.count_erase_self, inv.kept, hphase]
      rfl
    · rw [if_neg heq, List.count_erase_of_ne (Ne.symm heq), inv.kept]

end PairingInv

/-! ## Steps and runs -/

section Steps

variable {s : PairingSession} (inv : PairingInv s)

/-- Every step handles one thing. -/
theorem pairingStep_log {s s' : PairingSession} {event : PairingEvent}
    (h : pairingStep s event = some s') : ∃ handled, s'.log = s.log ++ [handled] := by
  cases event with
  | response message callback =>
    cases h
    exact ⟨_, rfl⟩
  | timeout handle =>
    obtain ⟨t, -, rfl⟩ := Option.map_eq_some_iff.mp h
    exact ⟨_, rfl⟩

include inv

/-- A response is handled as the history of its request asks for. -/
theorem step_response {message : StampedMessage} {callback : Bool} {status : ResponseStatus}
    {outResponse : Option StampedMessage} {controller : PairingController}
    (h : s.controller.preprocessResponse message callback = (status, outResponse, controller))
    (hdual : DualResponses (s.log ++ [.response message status outResponse]))
    (hdistinct : DistinctTokens (s.log ++ [.response message status outResponse])) :
    PairingInv ⟨controller, s.log ++ [.response message status outResponse]⟩ := by
  have hbefore := hdual.of_snoc
  have hresponses := responses_snoc_response s.log message status outResponse
  have htype := hdual.type message (by
    rw [hresponses]
    exact List.mem_append_right _ (List.mem_singleton_self _))
  have hcount := hdual.twice message.request
  rw [hresponses, List.map_append, List.count_append, inv.answers, List.map_singleton,
    List.count_singleton_self] at hcount
  rw [PairingController.preprocessResponse, if_neg (not_not_intro htype)] at h
  have hprocessed := inv.kept message.request
  cases hphase : phaseOf s.log message.request with
  | unanswered =>
    rw [hphase] at hprocessed
    have hnot := List.count_eq_zero.mp hprocessed
    have hwaiting : ∀ first, phaseOf s.log message.request ≠ .waiting first := by
      intro first heq
      cases hphase.symm.trans heq
    rw [inv.find_none hbefore htype hwaiting] at h
    simp only [PairingController.storeResponse, if_neg hnot] at h
    split_ifs at h
    · cases h
      refine inv.store hphase fun t ht => ?_
      rcases List.mem_append.mp ht with ht | ht
      · exact .inl ht
      · rw [List.mem_singleton.mp ht]
        exact .inr ⟨rfl, rfl⟩
    · cases h
      exact inv.store hphase fun t ht => .inl ht
  | waiting first =>
    obtain ⟨e, he, rfl, hrequest⟩ := inv.entry hphase
    have htoken : e.m_reponse_msg.token ≠ message.token := by
      rw [DistinctTokens, hresponses, List.map_append] at hdistinct
      exact (List.nodup_append.mp hdistinct).2.2 _ (List.mem_map.mpr ⟨_, inv.messages e he, rfl⟩)
        _ (List.mem_singleton_self _)
    rw [inv.find_some hbefore htype he hrequest] at h
    dsimp only at h
    rw [if_neg htoken, eraseP_eq_filter inv.nodup fun e' he' =>
      inv.isSameRequest_iff hbefore htype he', ← hrequest] at h
    have hreports : Reports (s.log ++ [.response message .haveMatched (some e.m_reponse_msg)]) := by
      refine inv.reports.snoc fun message' status outResponse heq => ?_
      cases heq
      rw [hphase]
      rfl
    have hnext : ((phaseOf s.log message.request).handle
        (.response message .haveMatched (some e.m_reponse_msg))).answers =
          (phaseOf s.log message.request).answers + 1 := by
      rw [hphase]
      rfl
    have hanswers := answers_snoc inv.answers hnext
    have hhandled : (Handled.response message .haveMatched (some e.m_reponse_msg)).request =
        e.m_reponse_msg.request := hrequest.symm
    cases hhandle : e.m_timer_handle with
    | none =>
      rw [hhandle] at h
      cases h
      refine inv.settle he hhandled rfl hreports hanswers fun t ht => ⟨ht, ?_⟩
      rw [hhandle]
      exact Option.some_ne_none _
    | some handle =>
      rw [hhandle] at h
      cases h
      refine inv.settle he hhandled rfl hreports hanswers fun t ht => ?_
      obtain ⟨hmem, hne⟩ := List.mem_filter.mp ht
      rw [hhandle]
      exact ⟨hmem, fun heq => of_decide_eq_true hne (Option.some.inj heq)⟩
  | timedOut =>
    rw [hphase] at hprocessed
    have hmem : message.request ∈ s.controller.m_processed_msg_list := by
      rw [← List.count_pos_iff, hprocessed]
      exact Nat.one_pos
    have hwaiting : ∀ first, phaseOf s.log message.request ≠ .waiting first := by
      intro first heq
      cases hphase.symm.trans heq
    rw [inv.find_none hbefore htype hwaiting] at h
    simp only [PairingController.storeResponse, if_pos hmem] at h
    cases h
    exact inv.forget hphase
  | matched =>
    rw [hphase] at hcount
    exact absurd hcount (by decide)
  | late =>
    rw [hphase] at hcount
    exact absurd hcount (by decide)

/-- A timer takes out the entry of its own message. -/
theorem step_timeout {handle : Nat} {t : Nat × StampedMessage}
    (hfind : s.controller.timers.find? (fun t => t.1 = handle) = some t)
    (hdistinct : DistinctTokens s.log) :
    PairingInv ⟨(s.controller.stopTimer handle).onTimer t.2, s.log ++ [.timeout t.2]⟩ := by
  have ht := List.mem_of_find?_eq_some hfind
  have hhandle : t.1 = handle := by simpa using List.find?_some hfind
  have he := inv.timers t ht
  have hresponses := responses_snoc_timeout s.log t.2
  have herase : s.controller.m_wait_reponse_msg_list.eraseP
      (fun e => e.m_reponse_msg.token = t.2.token) =
      s.controller.m_wait_reponse_msg_list.filter fun e =>
        e.m_reponse_msg.request ≠ t.2.request := by
    refine eraseP_eq_filter inv.nodup fun e he' => ?_
    rw [decide_eq_true_eq]
    constructor
    · intro htoken
      rw [List.inj_on_of_nodup_map hdistinct (inv.messages e he') (inv.messages _ he) htoken]
    · intro hrequest
      rw [entry_unique inv.nodup he' he hrequest]
  rw [PairingController.onTimer, PairingController.removeCachedResponse,
    PairingController.stopTimer]
  dsimp only
  rw [herase]
  refine inv.settle he rfl rfl ?_ (fun request => ?_) fun t' ht' => ?_
  · exact inv.reports.snoc fun message status outResponse heq => by cases heq
  · rw [hresponses, inv.answers, phaseOf_snoc]
    split_ifs with heq
    · rw [← heq, show (Handled.timeout t.2).request = t.2.request from rfl, inv.waiting _ he]
      rfl
    · rfl
  · obtain ⟨hmem, hne⟩ := List.mem_filter.mp ht'
    exact ⟨hmem, fun heq => of_decide_eq_true hne ((Option.some.inj heq).trans hhandle)⟩

end Steps

/-- The invariant, as long as there are pairs of responses with distinct tokens. -/
def PairingInvIfDual (s : PairingSession) : Prop :=
  DualResponses s.log → DistinctTokens s.log → PairingInv s

theorem pairingInvIfDual_step (s : PairingSession) (event : PairingEvent) (s' : PairingSession)
    (inv : PairingInvIfDual s) (hstep : pairing.step s event = some s') : PairingInvIfDual s' := by
  intro hdual hdistinct
  obtain ⟨handled, hlog⟩ := pairingStep_log hstep
  have hinv := inv (by rw [hlog] at hdual; exact hdual.of_snoc)
    (by rw [hlog] at hdistinct; exact hdistinct.of_snoc)
  cases event with
  | response message callback =>
    cases hstep
    exact step_response hinv rfl hdual hdistinct
  | timeout handle =>
    obtain ⟨t, hfind, rfl⟩ := Option.map_eq_some_iff.mp hstep
    exact step_timeout hinv hfind hdistinct.of_snoc

/-- In a run with responses in pairs and distinct tokens the lists are what the histories say. -/
theorem pairingInv_run {events : List PairingEvent} {s : PairingSession}
    (hrun : pairing.run {} events = some s) (hdual : DualResponses s.log)
    (hdistinct : DistinctTokens s.log) : PairingInv s :=
  pairing.invariant pairingInvIfDual_step (fun _ _ => pairingInv_init) hrun hdual hdistinct

/-- **Dual responses are paired.**  In every run with two responses of each request at most, whose
tokens are all different, a response is reported as matched, with the first one, exactly if the first
one has arrived and its timer has not fired; it is reported as deleted exactly if the timer has fired;
no entry of a completed request waits.  A request with a late response is forgotten; a matched one is
kept in the list of processed requests. -/
theorem paired {events : List PairingEvent} {s : PairingSession}
    (hrun : pairing.run {} events = some s) (hdual : DualResponses s.log)
    (hdistinct : DistinctTokens s.log) : Pairs s := by
  have inv := pairingInv_run hrun hdual hdistinct
  refine ⟨inv.reports, fun e he hcompleted => ?_, fun request hlate hmem => ?_,
    fun request hmatched => ?_⟩
  · rw [inv.waiting e he] at hcompleted
    rcases hcompleted with h | h
    · cases h
    · cases h
  · have hcount := inv.kept request
    rw [hlate] at hcount
    exact List.count_eq_zero.mp hcount hmem
  · rw [inv.kept request, hmatched]
    rfl

/-- A response to the request `pId`, at time 0. -/
def plainResponse (pId token : Int) : StampedMessage :=
  { type := .response, slotId := 0, id := pId, pId := pId, pToken := 0, token := token, rilToken := 0
    pTimeStamp := 0 }

/-- What has been handled when two responses of one request have arrived. -/
def matchedLog : List Handled :=
  [.response (plainResponse 1 10) .noMatchAndSave none,
    .response (plainResponse 1 11) .haveMatched (some (plainResponse 1 10))]

theorem dualResponses_matchedLog : DualResponses matchedLog where
  type := List.forall_mem_cons.mpr ⟨rfl, List.forall_mem_singleton.mpr rfl⟩
  twice request := Nat.le_trans List.count_le_length (by decide)
  tokens := by decide

theorem distinctTokens_matchedLog : DistinctTokens matchedLog := by
  rw [DistinctTokens]
  decide

/-- Two responses of one request, the first one with a timer. -/
theorem paired_two : Pairs ⟨⟨[], [⟨1, 0⟩], [], 1⟩, matchedLog⟩ := by
  have hrun : pairing.run {} [.response (plainResponse 1 10) true,
      .response (plainResponse 1 11) true] = some ⟨⟨[], [⟨1, 0⟩], [], 1⟩, matchedLog⟩ := by
    decide
  exact paired hrun dualResponses_matchedLog distinctTokens_matchedLog

/-- Two responses of one request leave it in the list of processed requests.  And when responses of two
requests have the same token, the timer of one takes the entry of the other. -/
theorem not_pairsCleanly :
    (¬ ∀ events s, pairing.run {} events = some s → DualResponses s.log → DistinctTokens s.log →
      PairsCleanly s) ∧
    ¬ ∀ events s, pairing.run {} events = some s → DualResponses s.log → Reports s.log := by
  constructor
  · intro h
    have hrun : pairing.run {} [.response (plainResponse 1 10) false,
        .response (plainResponse 1 11) false] = some ⟨⟨[], [⟨1, 0⟩], [], 0⟩, matchedLog⟩ := by
      decide
    have hclean := h _ _ hrun dualResponses_matchedLog distinctTokens_matchedLog
    exact hclean.processed ⟨1, 0⟩ (List.mem_singleton_self _) (.inl (by decide))
  · intro h
    have hrun : pairing.run {} [.response (plainResponse 1 10) false,
        .response (plainResponse 2 10) true, .timeout 0, .response (plainResponse 1 11) false] =
        some ⟨⟨[⟨plainResponse 2 10, some 0⟩, ⟨plainResponse 1 11, none⟩], [⟨2, 0⟩], [], 1⟩,
          [.response (plainResponse 1 10) .noMatchAndSave none,
            .response (plainResponse 2 10) .noMatchAndSave none, .timeout (plainResponse 2 10),
            .response (plainResponse 1 11) .noMatchAndSave none]⟩ := by
      decide
    have hreports := h _ _ hrun ⟨?_, fun request => ?_, by decide⟩
    · have hlast := hreports [.response (plainResponse 1 10) .noMatchAndSave none,
        .response (plainResponse 2 10) .noMatchAndSave none, .timeout (plainResponse 2 10)]
        (plainResponse 1 11) .noMatchAndSave none [] rfl
      exact absurd hlast (by decide)
    · exact List.forall_mem_cons.mpr ⟨rfl, List.forall_mem_cons.mpr ⟨rfl,
        List.forall_mem_singleton.mpr rfl⟩⟩
    · change [(⟨1, 0⟩ : ProcessedMsgInfo), ⟨2, 0⟩, ⟨1, 0⟩].count request ≤ 2
      by_cases hfirst : request = ⟨1, 0⟩
      · rw [hfirst]
        decide
      · rw [List.count_cons_of_ne (Ne.symm hfirst)]
        exact List.count_le_length

end MtkHw.Rfx
