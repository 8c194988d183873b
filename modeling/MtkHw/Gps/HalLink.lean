import MtkHw.Gps.HalMessage
import MtkHw.Gps.Wakelock

/-!
# The HAL and a daemon that ends

What the HAL asks of the daemon, and the daemon knows of it, is lost when the daemon ends.  The one
that is started next says that it is new, and the worker thread of the HAL asks again for what the
user of the HAL wants (`gps_state_intent`).  So does a daemon that gets no positions: it forgets who
uses the receiver.  A request is a datagram in the queue of the daemon that runs; without a daemon
it cannot be sent.

A lock for the two threads of the HAL is named in comments only, so that their steps may come in any
order here: the thread of the user sets what is wanted, the worker thread reads it, and both send
then.  That the HAL is loaded only once, and asks for no restart, is assumed; so is that
`GpsCallbacks` have the right size.
-/

namespace MtkHw.Gps

open Lib

/-! ## The requests of the HAL -/

/-- `gpshal_state`. -/
inductive HalState where
  | unknown
  | resource
  | cleanup
  | init
  | stop
  | start
  deriving DecidableEq, Repr

/-- The functions `gpshal2mnl_gps_*`. -/
inductive HalRequest where
  | init
  | start
  | stop
  | cleanup
  deriving DecidableEq, Repr

namespace HalRequest

/-- The state that the request is for. -/
def state : HalRequest → HalState
  | init => .init
  | start => .start
  | stop => .stop
  | cleanup => .cleanup

def call : HalRequest → Hal2Mnl
  | init => .gpsInit
  | start => .gpsStart
  | stop => .gpsStop
  | cleanup => .gpsCleanup

/-- Whether the HAL uses the receiver after the request. -/
def after (used : Bool) : HalRequest → Bool
  | start => true
  | stop => false
  | init | cleanup => used

end HalRequest

/-- `update_mnld_reboot`: what the worker thread sends for a state that is wanted. -/
def updateMnldReboot : HalState → List HalRequest
  | .init | .stop => [.init]
  | .start => [.init, .start]
  | .cleanup | .unknown | .resource => []

/-- The calls that the sessions of the daemon hear of. -/
def Hal2Mnl.request? : Hal2Mnl → Option GpsRequest
  | halReboot => some .halReboot
  | gpsStart => some .halGpsStart
  | gpsStop => some .halGpsStop
  | gpsDeleteAidingData flags => some (.halGpsDeleteAidingData flags.toNat)
  | _ => none

/-- Whether the HAL uses the receiver. -/
def Mnld.halUses (m : Mnld) : Bool := (m.clients .hal).gps_used

/-! ## The link -/

/-- The HAL, the two sockets and the daemon, when it runs. -/
structure HalLink where
  gps_state : HalState
  gps_state_intent : HalState
  /-- What the thread of the user has yet to send. -/
  caller : List HalRequest
  /-- What the worker thread has yet to send. -/
  worker : List HalRequest
  /-- The notices of a new daemon that the HAL has not read. -/
  notices : Nat
  /-- The datagrams that the daemon has not read. -/
  requests : List HalRequest
  mnld : Option GpsSystem
  /-- The daemon has said that it is new. -/
  announced : Bool

/-- What can happen; `sent` is what `safe_sendto` comes to, `resource` whether the resources of the
HAL are there. -/
inductive LinkAct where
  | gpsinf (q : HalRequest) (resource : Bool)
  | callerSends (sent : Bool)
  | workerReads
  | workerSends (sent : Bool)
  | mnldReads
  | mnldInput (input : GpsInput)
  | nmeaTimeout (sent : Bool)
  | mnldStarts
  | mnldAnnounces (sent : Bool)
  | mnldEnds
  deriving DecidableEq, Repr

/-- A request that comes from the HAL. -/
def GpsInput.ofHal : GpsInput → Bool
  | .request .halReboot | .request .halGpsStart | .request .halGpsStop
  | .request (.halGpsDeleteAidingData _) => true
  | _ => false

namespace HalLink

variable (s : HalLink)

/-- `gpsinf_init`, `gpsinf_start`, `gpsinf_stop` and `gpsinf_cleanup`, up to the sending.  The
resources are asked for once. -/
def gpsinf (q : HalRequest) (resource : Bool) : HalLink :=
  { s with
    gps_state :=
      if q = .init ∧ s.gps_state_intent = .unknown ∧ resource then .resource else s.gps_state
    gps_state_intent := q.state
    caller := [q] }

/-- `gpshal2mnl_gps_*`. -/
def gpshal2mnl (q : HalRequest) (sent : Bool) : Option HalLink :=
  if s.gps_state = .unknown then some s
  else if sent then
    if s.mnld.isSome then some { s with requests := s.requests ++ [q], gps_state := q.state }
    else none
  else some s

/-- `mnl2hal_mnld_reboot`; the socket of the HAL is one of its resources. -/
def mnldReboot (sent : Bool) : Option HalLink :=
  if sent then
    if s.gps_state = .unknown then none else some { s with notices := s.notices + 1 }
  else some s

/-- The daemon handles a call. -/
def handleCall (cfg : MnldCfg) (m : GpsSystem) (call : Hal2Mnl) : GpsSystem :=
  match call.request? with
  | some r => m.next cfg (.request r)
  | none => m

def step (cfg : MnldCfg) (session : Client → Session) : LinkAct → Option HalLink
  | .gpsinf q resource => if s.caller = [] then some (s.gpsinf q resource) else none
  | .callerSends sent =>
    match s.caller with
    | [] => none
    | q :: rest => { s with caller := rest }.gpshal2mnl q sent
  | .workerReads =>
    if s.notices ≠ 0 ∧ s.worker = [] then
      some { s with notices := s.notices - 1, worker := updateMnldReboot s.gps_state_intent }
    else none
  | .workerSends sent =>
    match s.worker with
    | [] => none
    | q :: rest => { s with worker := rest }.gpshal2mnl q sent
  | .mnldReads =>
    match s.mnld, s.requests with
    | some m, q :: rest => (q.call.send.bind hal2mnlHdlr).map fun call =>
        { s with requests := rest, mnld := some ((call.map (handleCall cfg m)).getD m) }
    | _, _ => none
  | .mnldInput input =>
    if input.ofHal then none
    else s.mnld.map fun m => { s with mnld := some (m.next cfg input) }
  | .nmeaTimeout sent =>
    match s.mnld with
    | some m =>
      if m.mnld.isGpsStartedDone then
        { s with mnld := some (.handled m.engine (m.fresh.clearGpsUser.fsm cfg .stop 0))
          }.mnldReboot sent
      else none
    | none => none
  | .mnldStarts =>
    if s.mnld.isSome then none
    else some { s with mnld := some (gpsSystem cfg session).init, announced := false }
  | .mnldAnnounces sent =>
    if s.mnld.isSome ∧ s.announced = false then { s with announced := true }.mnldReboot sent
    else none
  | .mnldEnds => if s.mnld.isSome then some { s with mnld := none, requests := [] } else none

/-- The requests on their way, those first that the daemon reads first. -/
def underway : List HalRequest := s.requests ++ (s.caller ++ s.worker)

/-- Whether the HAL will use the receiver of the daemon `m` when all requests are handled. -/
def willUse (m : GpsSystem) : Bool := s.underway.foldl HalRequest.after m.mnld.halUses

/-- A step as the HAL counts on it: its two threads come one after the other, a running daemon can
be sent to, and the user stops the receiver before it initializes or cleans up. -/
def Orderly : LinkAct → Prop
  | .gpsinf q _ =>
    s.worker = [] ∧ (q = .init ∨ q = .cleanup → s.gps_state_intent ≠ .start)
  | .workerReads => s.caller = []
  | .callerSends sent | .workerSends sent => sent = true ∨ s.mnld.isNone ∨ s.gps_state = .unknown
  | .mnldAnnounces sent | .nmeaTimeout sent => sent = true ∨ s.gps_state = .unknown
  | _ => True

instance : (a : LinkAct) → Decidable (s.Orderly a)
  | .gpsinf .. => instDecidableAnd
  | .workerReads => inferInstanceAs (Decidable (s.caller = []))
  | .callerSends _ | .workerSends _ | .mnldAnnounces _ | .nmeaTimeout _ => instDecidableOr
  | .mnldReads | .mnldInput _ | .mnldStarts | .mnldEnds => isTrue trivial

end HalLink

/-- The HAL and the daemon, before the HAL is initialized and the daemon is started. -/
def halLink (cfg : MnldCfg) (session : Client → Session) : Machine HalLink LinkAct where
  init := ⟨.unknown, .unknown, [], [], 0, [], none, false⟩
  step s a := s.step cfg session a

/-! ## What the daemon knows of the HAL -/

namespace Mnld

variable {m : Mnld} {cfg : MnldCfg}

theorem halUses_switchSession {type : Capability} {c : Client} (hc : c ≠ .hal) :
    (m.switchSession c type).halUses = m.halUses := by
  rw [switchSession]
  split
  · exact congrArg GpsClient.gps_used (if_neg hc.symm)
  · rfl

theorem halUses_switchSessions (type : Capability) :
    (m.switchSessions type).halUses = m.halUses :=
  (halUses_switchSession (by simp)).trans (halUses_switchSession (by simp))

theorem halUses_ite {p : Prop} [Decidable p] {m₁ m₂ : Mnld} (h₁ : m₁.halUses = m.halUses)
    (h₂ : m₂.halUses = m.halUses) : (if p then m₁ else m₂).halUses = m.halUses := by
  split
  · exact h₁
  · exact h₂

/-- The state machine does not decide whether the HAL uses the receiver. -/
theorem halUses_fsm (event : GpsEvent) (data1 : Int) :
    (m.fsm cfg event data1).halUses = m.halUses := by
  have hstarted (data1 : Int) := (quietly_doGpsStartedHdlr m cfg data1).used .hal
  have hstopped := (quietly_doGpsStoppedHdlr m cfg).used .hal
  have hreset := (quietly_doGpsResetHdlr m).used .hal
  unfold fsm
  split
  · cases event with
    | stop => exact hstopped
    | reset => exact hreset
    | _ => rfl
  · cases event with
    | startDone =>
      exact halUses_ite (hstarted data1)
        (halUses_ite ((halUses_switchSessions _).trans (hstarted data1)) (hstarted data1))
    | _ => rfl
  · cases event with
    | start => exact hstarted 0
    | stop => exact halUses_ite rfl (halUses_ite hstopped hstopped)
    | reset | startDone => exact halUses_ite rfl rfl
    | _ => rfl
  · cases event with
    | stopDone =>
      exact halUses_ite hstopped (halUses_ite ((halUses_switchSessions _).trans hstopped) hstopped)
    | reset => exact hreset
    | _ => rfl
  · cases event with
    | startDone => exact halUses_ite (hstarted data1) (hstarted data1)
    | _ => rfl
  · cases event with
    | start => exact halUses_ite (hstarted 0) (hstarted 0)
    | stop => exact halUses_ite hstopped rfl
    | startDone => exact halUses_ite rfl rfl
    | _ => rfl
  · cases event with
    | stopDone =>
      exact halUses_ite hstopped (halUses_ite ((halUses_switchSessions _).trans hstopped)
        (halUses_ite ((halUses_switchSessions _).trans hstopped) hstopped))
    | reset => exact hreset
    | _ => rfl

end Mnld

/-- What does not come from the HAL does not change it. -/
theorem GpsSystem.next_halUses (cfg : MnldCfg) (m : GpsSystem) (input : GpsInput)
    (h : input.ofHal = false) : (m.next cfg input).mnld.halUses = m.mnld.halUses := by
  cases input with
  | request r =>
    change (r.handle cfg m.fresh).halUses = m.fresh.halUses
    cases r with
    | halReboot | halGpsStart | halGpsStop | halGpsDeleteAidingData => cases h
    | agpsResetGpsReq flags =>
      rw [GpsRequest.handle, Mnld.agpsResetGpsReq]
      split
      · rfl
      · exact Mnld.halUses_fsm _ _
    | _ => exact Mnld.halUses_fsm _ _
  | answer si_assist_req =>
    rw [next]
    split
    · rfl
    · exact Mnld.halUses_fsm _ _
    · exact Mnld.halUses_fsm _ _
  | resetDone => exact (Mnld.quietly_doGpsResetHdlr m.fresh).used .hal
  | switchTimeout =>
    rw [next]
    split
    · rw [Mnld.gpsSwitchOflModeTimeout]
      split
      · exact Mnld.halUses_fsm _ _
      · rfl
    · rfl

theorem HalRequest.delivered (q : HalRequest) :
    q.call.send.bind hal2mnlHdlr = some (some q.call) := by
  have hread : Reads (hal2mnlCall q.call.cmd) q.call.args (some q.call) := by
    cases q <;> exact .pure _
  obtain ⟨before, zeros, hsent⟩ := readCall_sent hal2mnlCall q.call.cmd q.call.args
  rw [hread before zeros] at hsent
  refine hsent.trans (if_pos ?_)
  cases q <;> decide

/-! ## Runs -/

namespace HalLink

variable {cfg : MnldCfg} {session : Client → Session} {s s' : HalLink}

theorem start_mem_updateMnldReboot {st : HalState} (h : .start ∈ updateMnldReboot st) :
    st = .start := by
  cases st <;> simp [updateMnldReboot] at h ⊢

theorem foldl_after_false {qs : List HalRequest} (h : .start ∉ qs) :
    qs.foldl HalRequest.after false = false := by
  induction qs with
  | nil => rfl
  | cons q qs ih =>
    obtain ⟨hq, hqs⟩ := not_or.mp fun hor => h (List.mem_cons.mpr hor)
    cases q with
    | start => exact absurd rfl hq
    | init | stop | cleanup => exact ih hqs

/-- Who does not use the receiver at first uses it no longer than who does. -/
theorem foldl_after_mono {qs : List HalRequest} {used : Bool}
    (h : qs.foldl HalRequest.after used = false) : qs.foldl HalRequest.after false = false := by
  induction qs generalizing used with
  | nil => rfl
  | cons q qs ih =>
    cases q with
    | start | stop => exact h
    | init | cleanup => exact ih h

/-- The receiver is not used longer than it is wanted, and it is used when it is wanted unless the
HAL is still to hear of a new daemon. -/
structure Inv (s : HalLink) : Prop where
  oneAtATime : s.caller = [] ∨ s.worker = []
  wanted : .start ∈ s.caller ++ s.worker → s.gps_state_intent = .start
  down : s.mnld = none → s.requests = []
  unready : s.gps_state = .unknown → s.requests = [] ∧ s.worker = [] ∧ s.notices = 0 ∧
    ∀ m ∈ s.mnld, m.mnld.halUses = false
  unwanted : ∀ m ∈ s.mnld, s.gps_state_intent ≠ .start → s.willUse m = false
  served : ∀ m ∈ s.mnld, s.gps_state ≠ .unknown → s.gps_state_intent = .start →
    s.announced = true → s.notices = 0 → s.willUse m = true

/-- A thread of the HAL sends the first of its requests. -/
theorem Inv.gpshal2mnl (h : s.Inv) {q : HalRequest} {c w : List HalRequest} {sent : Bool}
    (hq : s.caller ++ s.worker = q :: (c ++ w)) (hone : c = [] ∨ w = [])
    (hworker : s.worker = [] → w = [])
    (hsent : sent = true ∨ s.mnld.isNone ∨ s.gps_state = .unknown)
    (hstep : { s with caller := c, worker := w }.gpshal2mnl q sent = some s') : s'.Inv := by
  have hwanted (hmem : .start ∈ c ++ w) : s.gps_state_intent = .start :=
    h.wanted (hq ▸ List.mem_cons_of_mem q hmem)
  rw [HalLink.gpshal2mnl] at hstep
  split at hstep
  · rename_i hunknown
    cases hstep
    obtain ⟨hreq, hw, hnotices, hunused⟩ := h.unready hunknown
    refine ⟨hone, hwanted, h.down, fun _ => ⟨hreq, hworker hw, hnotices, hunused⟩,
      fun m hm hne => ?_, fun _ _ hready => absurd hunknown hready⟩
    change (s.requests ++ (c ++ w)).foldl HalRequest.after m.mnld.halUses = false
    rw [hreq, hunused m hm]
    exact foldl_after_false fun hmem => hne (hwanted hmem)
  · rename_i hready
    have hdown (hnone : s.mnld = none) : HalLink.Inv { s with caller := c, worker := w } := by
      refine ⟨hone, hwanted, h.down, fun hunknown => absurd hunknown hready, fun m hm => ?_,
        fun m hm => ?_⟩ <;> exact absurd (hnone.symm.trans hm) (by simp)
    split at hstep
    · split at hstep
      · cases hstep
        have hstate : q.state ≠ .unknown := by cases q <;> simp [HalRequest.state]
        have huse (m : GpsSystem) : ({ s with
            caller := c, worker := w, requests := s.requests ++ [q], gps_state := q.state
            } : HalLink).willUse m = s.willUse m := by
          rw [willUse, willUse, underway, underway, hq, List.append_assoc, List.singleton_append]
        refine ⟨hone, hwanted, fun hnone => ?_, fun hunknown => absurd hunknown hstate,
          fun m hm hne => (huse m).trans (h.unwanted m hm hne),
          fun m hm _ hst hann hno => (huse m).trans (h.served m hm hready hst hann hno)⟩
        rename_i hsome
        exact absurd hsome (by rw [show s.mnld = none from hnone]; simp)
      · cases hstep
    · cases hstep
      rename_i hnot
      rcases hsent with hsent | hnone | hunknown
      · exact absurd hsent hnot
      · exact hdown (Option.isNone_iff_eq_none.mp hnone)
      · exact absurd hunknown hready

/-- The daemon tells the HAL that it is new. -/
theorem Inv.mnldReboot (h : s.Inv) {daemon : Option GpsSystem} {announced sent : Bool}
    (hdown : daemon = none → s.requests = [])
    (hunready : s.gps_state = .unknown → ∀ m ∈ daemon, m.mnld.halUses = false)
    (hunwanted : ∀ m ∈ daemon, s.gps_state_intent ≠ .start → s.willUse m = false)
    (hsent : sent = true ∨ s.gps_state = .unknown)
    (hstep : { s with mnld := daemon, announced := announced }.mnldReboot sent = some s') :
    s'.Inv := by
  rw [HalLink.mnldReboot] at hstep
  split at hstep
  · split at hstep
    · cases hstep
    · rename_i hready
      cases hstep
      exact ⟨h.oneAtATime, h.wanted, hdown, fun hunknown => absurd hunknown hready, hunwanted,
        fun _ _ _ _ _ hno => absurd hno (Nat.succ_ne_zero _)⟩
  · rename_i hnot
    cases hstep
    have hunknown := hsent.resolve_left hnot
    obtain ⟨hreq, hw, hnotices, -⟩ := h.unready hunknown
    exact ⟨h.oneAtATime, h.wanted, hdown, fun _ => ⟨hreq, hw, hnotices, hunready hunknown⟩,
      hunwanted, fun _ _ hready => absurd hunknown hready⟩

/-- The daemon handles something, of the HAL or not. -/
theorem Inv.handled (h : s.Inv) {m m' : GpsSystem} {requests : List HalRequest}
    (hm : s.mnld = some m)
    (hidle : s.requests = [] → requests = [] ∧ m'.mnld.halUses = m.mnld.halUses)
    (huse : ({ s with requests, mnld := some m' } : HalLink).willUse m' = s.willUse m) :
    HalLink.Inv { s with requests, mnld := some m' } := by
  refine ⟨h.oneAtATime, h.wanted, by rintro ⟨⟩, fun hunknown => ?_, ?_, ?_⟩
  · obtain ⟨hreq, hw, hnotices, hunused⟩ := h.unready hunknown
    refine ⟨(hidle hreq).1, hw, hnotices, ?_⟩
    rintro _ ⟨⟩
    exact (hidle hreq).2.trans (hunused m hm)
  · rintro _ ⟨⟩ hne
    exact huse.trans (h.unwanted m hm hne)
  · rintro _ ⟨⟩ hready hst hann hno
    exact huse.trans (h.served m hm hready hst hann hno)

theorem Inv.step (a : LinkAct) (h : s.Inv) (ha : s.Orderly a)
    (hstep : s.step cfg session a = some s') : s'.Inv := by
  cases a with
  | gpsinf q resource =>
    obtain ⟨hworker, hstopped⟩ := ha
    rw [HalLink.step] at hstep
    split at hstep
    · rename_i hcaller
      cases hstep
      have hold : ∀ m ∈ s.mnld, s.gps_state_intent ≠ .start →
          s.requests.foldl HalRequest.after m.mnld.halUses = false := fun m hm hne => by
        have huse := h.unwanted m hm hne
        rwa [willUse, underway, hcaller, hworker, List.append_nil, List.append_nil] at huse
      have huse (m : GpsSystem) : (s.gpsinf q resource).willUse m =
          q.after (s.requests.foldl HalRequest.after m.mnld.halUses) := by
        rw [willUse, underway, HalLink.gpsinf, hworker, List.append_nil, List.foldl_append]
        rfl
      refine ⟨.inr hworker, fun hmem => ?_, h.down, fun hunknown => ?_, fun m hm hne => ?_,
        fun m hm hready hst _ _ => ?_⟩
      · rw [HalLink.gpsinf, hworker, List.append_nil, List.mem_singleton] at hmem
        exact congrArg HalRequest.state hmem.symm
      · have hold : s.gps_state = .unknown := by
          rw [HalLink.gpsinf] at hunknown
          dsimp only at hunknown
          split at hunknown
          · cases hunknown
          · exact hunknown
        exact h.unready hold
      · rw [huse]
        cases q with
        | start => exact absurd rfl hne
        | stop => rfl
        | init => exact hold m hm (hstopped (.inl rfl))
        | cleanup => exact hold m hm (hstopped (.inr rfl))
      · rw [huse]
        cases q with
        | start => rfl
        | stop | init | cleanup => cases hst
    · cases hstep
  | callerSends sent =>
    rw [HalLink.step] at hstep
    split at hstep
    · cases hstep
    · rename_i q rest hcaller
      have hone : rest = [] ∨ s.worker = [] := h.oneAtATime.imp_left fun hnil => by
        rw [hcaller] at hnil
        cases hnil
      refine h.gpshal2mnl ?_ hone id ha hstep
      rw [hcaller, List.cons_append]
  | workerSends sent =>
    rw [HalLink.step] at hstep
    split at hstep
    · cases hstep
    · rename_i q rest hworker
      have hcaller : s.caller = [] := h.oneAtATime.resolve_right fun hnil => by
        rw [hworker] at hnil
        cases hnil
      refine h.gpshal2mnl ?_ (.inl hcaller) (fun hnil => ?_) ha hstep
      · rw [hcaller, hworker]
        rfl
      · rw [hworker] at hnil
        cases hnil
  | workerReads =>
    rw [HalLink.step] at hstep
    split at hstep
    · rename_i hfree
      cases hstep
      have hcaller : s.caller = [] := ha
      have hready : s.gps_state ≠ .unknown := fun hunknown =>
        hfree.1 (h.unready hunknown).2.2.1
      refine ⟨.inl hcaller, fun hmem => ?_, h.down, fun hunknown => absurd hunknown hready,
        fun m hm hne => ?_, fun m _ _ hst _ _ => ?_⟩
      · change .start ∈ s.caller ++ updateMnldReboot s.gps_state_intent at hmem
        rw [hcaller, List.nil_append] at hmem
        exact start_mem_updateMnldReboot hmem
      · have huse := h.unwanted m hm hne
        rw [willUse, underway, hcaller, hfree.2, List.append_nil, List.append_nil] at huse
        rw [willUse, underway, hcaller, List.nil_append, List.foldl_append]
        change (updateMnldReboot s.gps_state_intent).foldl HalRequest.after
          (s.requests.foldl HalRequest.after m.mnld.halUses) = false
        rw [huse]
        exact foldl_after_false fun hmem => hne (start_mem_updateMnldReboot hmem)
      · change s.gps_state_intent = .start at hst
        rw [willUse, underway, hcaller, List.nil_append, List.foldl_append, hst]
        rfl
    · cases hstep
  | mnldReads =>
    rw [HalLink.step] at hstep
    split at hstep
    · rename_i m q rest hm hreq
      rw [q.delivered, Option.map_some] at hstep
      cases hstep
      refine h.handled hm (fun hnil => ?_) ?_
      · rw [hreq] at hnil
        cases hnil
      · have huses : ((some q.call).map (handleCall cfg m) |>.getD m).mnld.halUses =
            q.after m.mnld.halUses := by
          cases q with
          | start | stop => exact Mnld.halUses_fsm _ _
          | init | cleanup => rfl
        rw [willUse, willUse, underway, underway, huses, hreq]
        rfl
    · cases hstep
  | mnldInput input =>
    rw [HalLink.step] at hstep
    split at hstep
    · cases hstep
    · rename_i hother
      obtain ⟨m, hm, rfl⟩ := Option.map_eq_some_iff.mp hstep
      have huses := m.next_halUses cfg input ((Bool.not_eq_true _).mp hother)
      exact h.handled hm (fun hreq => ⟨hreq, huses⟩) (by rw [willUse, willUse, huses]; rfl)
  | nmeaTimeout sent =>
    rw [HalLink.step] at hstep
    split at hstep
    · rename_i m hm
      split at hstep
      · have hunused : (m.fresh.clearGpsUser.fsm cfg .stop 0).halUses = false :=
          Mnld.halUses_fsm _ _
        refine h.mnldReboot (by rintro ⟨⟩) ?_ ?_ ha hstep
        · rintro _ _ ⟨⟩
          exact hunused
        · rintro _ ⟨⟩ hne
          exact (congrArg (s.underway.foldl HalRequest.after) hunused).trans
            (foldl_after_mono (h.unwanted m hm hne))
      · cases hstep
    · cases hstep
  | mnldStarts =>
    rw [HalLink.step] at hstep
    split at hstep
    · cases hstep
    · rename_i hdown
      cases hstep
      have hreq : s.requests = [] := h.down (by simpa using hdown)
      refine ⟨h.oneAtATime, h.wanted, by rintro ⟨⟩, fun hunknown => ?_, ?_, ?_⟩
      · obtain ⟨-, hw, hnotices, -⟩ := h.unready hunknown
        refine ⟨hreq, hw, hnotices, ?_⟩
        rintro _ ⟨⟩
        rfl
      · rintro _ ⟨⟩ hne
        rw [willUse, underway]
        change (s.requests ++ (s.caller ++ s.worker)).foldl HalRequest.after false = false
        rw [hreq]
        exact foldl_after_false fun hmem => hne (h.wanted hmem)
      · rintro _ _ _ _ ⟨⟩
  | mnldAnnounces sent =>
    rw [HalLink.step] at hstep
    split at hstep
    · exact h.mnldReboot h.down (fun hunknown => (h.unready hunknown).2.2.2) h.unwanted ha hstep
    · cases hstep
  | mnldEnds =>
    rw [HalLink.step] at hstep
    split at hstep
    · cases hstep
      refine ⟨h.oneAtATime, h.wanted, fun _ => rfl, fun hunknown => ?_, by rintro _ ⟨⟩,
        by rintro _ ⟨⟩⟩
      obtain ⟨-, hw, hnotices, -⟩ := h.unready hunknown
      exact ⟨rfl, hw, hnotices, by rintro _ ⟨⟩⟩
    · cases hstep

/-- Nothing is on its way, and the daemon that runs has said that it is new. -/
structure AtRest (s : HalLink) : Prop where
  caller : s.caller = []
  worker : s.worker = []
  requests : s.requests = []
  notices : s.notices = 0
  announced : s.announced = true

/-- However often the daemon ends and is started anew, or forgets its users: when the HAL is
initialized and nothing is on its way any more, the daemon has the HAL as a user exactly if the user
of the HAL has started the receiver and not stopped it since. -/
theorem used_iff_wanted {acts : List LinkAct}
    (hrun : (halLink cfg session).run (halLink cfg session).init acts = some s)
    (hmeets : (halLink cfg session).Meets Orderly (halLink cfg session).init acts)
    (hready : s.gps_state ≠ .unknown) (hrest : s.AtRest) {m : GpsSystem} (hm : s.mnld = some m) :
    m.mnld.Used .hal ↔ s.gps_state_intent = .start := by
  have hinit : HalLink.Inv (halLink cfg session).init :=
    ⟨.inl rfl, by rintro ⟨⟩, fun _ => rfl, fun _ => ⟨rfl, rfl, rfl, by rintro _ ⟨⟩⟩,
      by rintro _ ⟨⟩, by rintro _ ⟨⟩⟩
  have h : s.Inv := (halLink cfg session).invariant_of_meets
    (fun _ a _ h ha hstep => h.step a ha hstep) hinit hmeets hrun
  have huse : s.willUse m = m.mnld.halUses := by
    rw [willUse, underway, hrest.caller, hrest.worker, hrest.requests]
    rfl
  constructor
  · intro hused
    by_contra hne
    have hunused := h.unwanted m hm hne
    rw [huse] at hunused
    exact Bool.false_ne_true (hunused.symm.trans hused)
  · intro hst
    have hserved := h.served m hm hready hst hrest.announced hrest.notices
    rwa [huse] at hserved

/-- The user starts the receiver, and the daemon ends and is started anew. -/
def startedTwice : List LinkAct :=
  [.mnldStarts, .mnldAnnounces false, .gpsinf .init true, .callerSends true, .gpsinf .start true,
    .callerSends true, .mnldReads, .mnldReads, .mnldEnds, .mnldStarts, .mnldAnnounces true,
    .workerReads, .workerSends true, .workerSends true, .mnldReads, .mnldReads]

theorem used_startedTwice : ∃ s m, (halLink ⟨false, 0⟩ apSessions).run
    (halLink ⟨false, 0⟩ apSessions).init startedTwice = some s ∧ s.mnld = some m ∧
      m.mnld.Used .hal := by
  have hmeets : (halLink ⟨false, 0⟩ apSessions).Meets Orderly
      (halLink ⟨false, 0⟩ apSessions).init startedTwice := by decide
  exact ⟨_, _, rfl, rfl,
    (used_iff_wanted rfl hmeets (by rintro ⟨⟩) ⟨rfl, rfl, rfl, rfl, rfl⟩ rfl).mpr rfl⟩

end HalLink

end MtkHw.Gps
