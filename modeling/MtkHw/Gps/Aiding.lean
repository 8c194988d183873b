import MtkHw.Gps.Acks
import Mathlib.Tactic.Common

/-!
# The deletion of aiding data

Two clients ask for the deletion of aiding data, and the flags of both are kept in one word until
the engine is started or reset.  A ledger (`Aiding`) follows the flags that are asked for and the
resets that the engine has not answered; it is read off the requests, the answers and what is sent,
and no handler looks at it.

Nothing is lost and nothing is passed twice, on every run.  The acknowledgement is another matter:
it belongs to the answer of the last reset with the flags of the client, but it is also sent along
with the acknowledgements of other clients (`Waits`).
-/

namespace MtkHw.Gps

open Lib

/-! ## The ledger -/

/-- The flags that were asked for since the last ones were passed; whether there are some among
them that the AGPS client waits for, and, for each reset that is not answered, whether it has
carried some.  `passed` says that the engine was given exactly what was due, each time, and `early`
that the AGPS client was acknowledged, while the engine was started, for flags without an answer. -/
structure Aiding where
  due : Nat
  agpsDue : Bool
  resets : List Bool
  started : Bool
  passed : Bool
  early : Bool
  deriving DecidableEq, Repr

namespace Aiding

variable (A : Aiding)

/-- The AGPS client waits for flags without an answer. -/
def pending : Bool := A.agpsDue || A.resets.any id

/-- The AGPS client does not wait any more. -/
def forget : Aiding := { A with agpsDue := false, resets := A.resets.map fun _ => false }

/-- What is sent, in the ledger. -/
def observe : GpsOutput → Aiding
  | .controlGpsStart flags =>
    { A with due := 0, started := false, passed := A.passed && flags == A.due }
  | .controlGpsStop => { A with started := false }
  | .controlGpsReset flags =>
    { A with
      due := 0
      agpsDue := false
      resets := A.resets ++ [A.agpsDue]
      passed := A.passed && flags == A.due }
  | .agpsResetGpsDone => { A.forget with early := A.early || A.started && A.pending }
  | _ => A

/-- What happens, in the ledger, before a handler runs. -/
def tell : GpsInput → Aiding
  | .request (.halGpsDeleteAidingData flags) => { A with due := A.due ||| flags }
  | .request (.agpsResetGpsReq flags) => { A with due := A.due ||| flags, agpsDue := true }
  | .request .agpsReboot => A.forget
  | .resetDone => { A with resets := A.resets.tail }
  | _ => A

end Aiding

/-- The engine is started, and not told to stop. -/
def GpsEngine.started (e : GpsEngine) : Bool := e.on && e.outstanding.isEmpty

/-- The engine when a handler runs. -/
def GpsSystem.engineAt (s : GpsSystem) : GpsInput → GpsEngine
  | .answer _ =>
    match s.engine.outstanding with
    | [] => s.engine
    | .start :: rest => { s.engine with on := true, outstanding := rest }
    | .stop :: rest => { s.engine with on := false, outstanding := rest }
  | .request _ | .resetDone | .switchTimeout => s.engine

/-- The system with the ledger of the flags. -/
structure AidingSystem where
  system : GpsSystem
  ledger : Aiding

namespace AidingSystem

/-- The ledger when a handler runs. -/
def ledgerAt (s : AidingSystem) (input : GpsInput) : Aiding :=
  { s.ledger with started := (s.system.engineAt input).started }

/-- One event; a reset is answered once.  A request without flags is acknowledged at once. -/
def step (cfg : MnldCfg) (s : AidingSystem) (input : GpsInput) : Option AidingSystem :=
  if input = .resetDone ∧ s.ledger.resets = [] then none
  else some {
    system := s.system.next cfg input
    ledger :=
      if input = .request (.agpsResetGpsReq 0) then s.ledger
      else (s.system.said cfg input).foldl Aiding.observe ((s.ledgerAt input).tell input) }

/-- Each flag that was asked for is passed once: what is due is kept, and was passed whenever the
engine was started or reset; and nothing is due in the started state. -/
structure Passes (s : AidingSystem) : Prop where
  due : s.ledger.due = s.system.mnld.delete_aiding_flag
  passed : s.ledger.passed = true
  clear : s.system.mnld.gps_state = .started → s.system.mnld.delete_aiding_flag = 0

/-- Each flag is passed once, and the AGPS client is not acknowledged early. -/
structure Deletes (s : AidingSystem) : Prop where
  passes : s.Passes
  waited : s.ledger.early = false

end AidingSystem

/-- The requests that open the receiver for the host. -/
def GpsRequest.opens : GpsRequest → Bool
  | halGpsStart | agpsOpenGpsReq | flpHbdGpsOpen | gfcHbdGpsOpen | flpTestGpsStart
  | factoryMnldGpsStart | atTestGpsStart => true
  | _ => false

/-- The client that leaves with a request. -/
def GpsRequest.leaves : GpsRequest → Option Client
  | halReboot | halGpsStop => some .hal
  | agpsReboot | agpsCloseGpsReq => some .agps
  | flpReboot | flpHbdGpsClose | flpOflLinkClose => some .flp
  | gfcReboot | gfcHbdGpsClose | gfcOflLinkClose => some .geofence
  | flpTestGpsStop => some .flpTest
  | factoryMnldGpsStop => some .factory
  | atTestGpsStop => some .atCmdTest
  | _ => none

/-- The engine stays on for another client; in offload mode only for an offload client. -/
def Mnld.StaysFor (m : Mnld) (c : Client) : Prop :=
  ∃ c' ≠ c, m.Used c' ∧ (m.gps_state = .oflStarted → c' = .flp ∨ c' = .geofence)

/-- While the AGPS client waits, no client opens the receiver of a started engine, or leaves it to
another one; the engine does not come up, it does not answer a reset before the last one the client
waits for, and the mode is not switched with the test client left. -/
def AidingSystem.Waits (s : AidingSystem) (input : GpsInput) : Prop :=
  (s.system.mnld.clients .agps).need_reset_ack = true →
    match input with
    | .request r => s.system.engine.started = true → r ≠ .agpsReboot →
      r.opens = false ∧ ∀ c, r.leaves = some c → ¬ s.system.mnld.StaysFor c
    | .answer _ => s.system.engine.outstanding.head? ≠ some .start
    | .resetDone => s.system.engine.started = true → s.ledger.resets ≠ [] →
      s.ledger.agpsDue = false ∧ true ∉ s.ledger.resets.tail
    | .switchTimeout => s.system.mnld.gps_state = .started →
      s.system.mnld.timer_switch_ofl_mode = true → s.system.mnld.NoHbd →
        ¬ s.system.mnld.Used .flpTest

/-- The GPS sessions with the ledger of the flags. -/
def aidingSystem (cfg : MnldCfg) (session : Client → Session) : Machine AidingSystem GpsInput where
  init := ⟨(gpsSystem cfg session).init, ⟨0, false, [], false, true, false⟩⟩
  step := AidingSystem.step cfg

/-! ## The ledger and the flags -/

namespace Aiding

variable {A : Aiding}

@[simp] theorem pending_forget : A.forget.pending = false := by
  simp [pending, forget]

/-- What is no command and no acknowledgement of a reset. -/
def Silent (o : GpsOutput) : Prop := ∀ A : Aiding, A.observe o = A

/-- What happens is not an acknowledgement, and not a command. -/
theorem tell_eq (A : Aiding) (input : GpsInput) :
    (A.tell input).early = A.early ∧ (A.tell input).started = A.started := by
  unfold tell
  split <;> exact ⟨rfl, rfl⟩

theorem foldl_silent {outputs : List GpsOutput} (h : ∀ o ∈ outputs, Silent o) (A : Aiding) :
    outputs.foldl observe A = A := by
  induction outputs with
  | nil => rfl
  | cons o os ih =>
    rw [List.foldl_cons, h o List.mem_cons_self A]
    exact ih fun o' ho' => h o' (List.mem_cons_of_mem _ ho')

end Aiding

namespace Mnld

variable {L A : Aiding} {m m' m'' : Mnld} {b : Bool}

/-- The ledger after what a handler has sent. -/
def aided (m : Mnld) (L : Aiding) : Aiding := m.sent.foldl Aiding.observe L

theorem aided_send (m : Mnld) (outputs : List GpsOutput) (L : Aiding) :
    (m.send outputs).aided L = outputs.foldl Aiding.observe (m.aided L) := by
  rw [aided, aided, send, List.foldl_append]

/-- The ledger agrees with the flags of the daemon. -/
structure Account (A : Aiding) (m : Mnld) : Prop where
  due : A.due = m.delete_aiding_flag
  passed : A.passed = true
  pending : A.pending = (m.clients .agps).need_reset_ack

/-- A part of a handler that has nothing to do with aiding data. -/
structure Aside (m m' : Mnld) : Prop where
  flag : m'.delete_aiding_flag = m.delete_aiding_flag
  need : (m'.clients .agps).need_reset_ack = (m.clients .agps).need_reset_ack
  aided : ∀ L, m'.aided L = m.aided L

/-- A part of a handler keeps the account; `b` says whether the AGPS client is acknowledged. -/
structure Keeps (L : Aiding) (m m' : Mnld) (b : Bool) : Prop where
  account : Account (m'.aided L) m'
  early : (m'.aided L).early =
    ((m.aided L).early || (m.aided L).started && (m.aided L).pending && b)

namespace Aside

theorem refl (m : Mnld) : Aside m m := ⟨rfl, rfl, fun _ => rfl⟩

theorem trans (h : Aside m m') (h' : Aside m' m'') : Aside m m'' :=
  ⟨h'.flag.trans h.flag, h'.need.trans h.need, fun L => (h'.aided L).trans (h.aided L)⟩

theorem account (h : Aside m m') (ha : Account (m.aided L) m) : Account (m'.aided L) m' := by
  rw [h.aided]
  exact ⟨ha.due.trans h.flag.symm, ha.passed, ha.pending.trans h.need.symm⟩

theorem keeps (h : Aside m m') (ha : Account (m.aided L) m) : Keeps L m m' false := by
  refine ⟨h.account ha, ?_⟩
  rw [h.aided, Bool.and_false, Bool.or_false]

theorem keeps_trans (h : Aside m m') (h' : Keeps L m' m'' b) : Keeps L m m'' b := by
  refine ⟨h'.account, ?_⟩
  rw [h'.early, h.aided]

end Aside

namespace Keeps

theorem trans (h : Keeps L m m' b) (h' : Keeps L m' m'' false) : Keeps L m m'' b := by
  refine ⟨h'.account, ?_⟩
  rw [h'.early, Bool.and_false, Bool.or_false, h.early]

theorem trans_aside (h : Keeps L m m' b) (h' : Aside m' m'') : Keeps L m m'' b :=
  h.trans (h'.keeps h.account)

end Keeps

theorem aside_send (m : Mnld) {outputs : List GpsOutput} (h : ∀ o ∈ outputs, Aiding.Silent o) :
    Aside m (m.send outputs) := by
  refine ⟨rfl, rfl, fun L => ?_⟩
  rw [aided_send, Aiding.foldl_silent h]

theorem aside_setClient (m : Mnld) (c : Client) {client : GpsClient}
    (h : c = .agps → client.need_reset_ack = (m.clients c).need_reset_ack) :
    Aside m (m.setClient c client) := by
  refine ⟨rfl, ?_, fun L => rfl⟩
  rcases eq_or_ne Client.agps c with rfl | hne
  · rw [setClient_clients_self]
    exact h rfl
  · rw [setClient_clients_of_ne m hne]

theorem aside_ackOpen (m : Mnld) (c : Client) {outputs : List GpsOutput}
    (h : ∀ o ∈ outputs, Aiding.Silent o) : Aside m (m.ackOpen c outputs) := by
  unfold ackOpen
  split
  · refine Aside.trans (aside_setClient m c fun _ => ?_) (aside_send _ h)
    rfl
  · exact .refl m

theorem aside_ackClose (m : Mnld) (c : Client) {outputs : List GpsOutput}
    (h : ∀ o ∈ outputs, Aiding.Silent o) : Aside m (m.ackClose c outputs) := by
  unfold ackClose
  split
  · refine Aside.trans (aside_setClient m c fun _ => ?_) (aside_send _ h)
    rfl
  · exact .refl m

theorem aside_setState (m : Mnld) (gps_state : GpsState) : Aside m (m.setState gps_state) :=
  ⟨rfl, rfl, fun _ => rfl⟩

theorem aside_dropClient (m : Mnld) (c : Client) : Aside m (m.dropClient c) :=
  aside_setClient m c fun _ => rfl

theorem aside_clearClient (m : Mnld) (c : Client) : Aside m (m.clearClient c) :=
  aside_setClient m c fun _ => rfl

theorem silent_sessionUpdate (c : Client) (id : Nat) (type : Capability) :
    ∀ o ∈ [GpsOutput.sessionUpdate c id type], Aiding.Silent o := by
  intro o ho A
  rw [List.mem_singleton.mp ho]
  rfl

theorem aside_switchSession (m : Mnld) (c : Client) (type : Capability) :
    Aside m (m.switchSession c type) := by
  unfold switchSession
  dsimp only
  split
  · have hsession (session : Session) : Aside m (m.setSession c session) :=
      ⟨rfl, rfl, fun _ => rfl⟩
    exact (hsession _).trans
      ((aside_dropClient _ c).trans (aside_send _ (silent_sessionUpdate c _ type)))
  · exact ⟨rfl, rfl, fun _ => rfl⟩

theorem aside_switchSessions (m : Mnld) (type : Capability) : Aside m (m.switchSessions type) :=
  (aside_switchSession m .flp type).trans (aside_switchSession _ .geofence type)

/-! ## What a handler passes and acknowledges -/

/-- The AGPS client is acknowledged if it waits. -/
theorem keeps_doGpsResetHdlr (h : Account (m.aided L) m) : Keeps L m m.doGpsResetHdlr true := by
  have hpending := h.pending
  unfold doGpsResetHdlr
  split
  · rename_i hneed
    have haided : ((m.setClient .agps { m.clients .agps with need_reset_ack := false }).send
        [.agpsResetGpsDone]).aided L = { (m.aided L).forget with
          early := (m.aided L).early || (m.aided L).started && (m.aided L).pending } :=
      aided_send _ _ L
    refine ⟨?_, ?_⟩
    · rw [haided]
      exact ⟨h.due, h.passed, Aiding.pending_forget⟩
    · rw [haided, Bool.and_true]
  · rename_i hneed
    refine ⟨h, ?_⟩
    rw [hpending, Bool.eq_false_iff.mpr hneed, Bool.and_false, Bool.false_and, Bool.or_false]

/-- Nothing waits behind the acknowledgement. -/
theorem doGpsResetHdlr_flag (m : Mnld) :
    m.doGpsResetHdlr.delete_aiding_flag = m.delete_aiding_flag := by
  unfold doGpsResetHdlr
  split <;> rfl

/-- What is due is passed with a reset. -/
theorem keeps_controlGpsReset (h : Account (m.aided L) m) : Keeps L m
    { m.send [.controlGpsReset m.delete_aiding_flag] with delete_aiding_flag := 0 } false := by
  have haided : ({ m.send [.controlGpsReset m.delete_aiding_flag] with
      delete_aiding_flag := 0 } : Mnld).aided L =
        (m.aided L).observe (.controlGpsReset m.delete_aiding_flag) := aided_send m _ L
  refine ⟨⟨?_, ?_, ?_⟩, ?_⟩
  · rw [haided]
    rfl
  · rw [haided]
    change ((m.aided L).passed && m.delete_aiding_flag == (m.aided L).due) = true
    rw [h.passed, h.due, beq_self_eq_true, Bool.and_self]
  · rw [haided]
    refine Eq.trans ?_ h.pending
    change (false || ((m.aided L).resets ++ [(m.aided L).agpsDue]).any id) =
      ((m.aided L).agpsDue || (m.aided L).resets.any id)
    rw [List.any_append, List.any_cons, List.any_nil, Bool.or_false, Bool.false_or, Bool.or_comm]
    rfl
  · rw [haided, Bool.and_false, Bool.or_false]
    rfl

/-- What is due is passed with a start. -/
theorem keeps_controlGpsStart (h : Account (m.aided L) m) : Keeps L m m.controlGpsStart false := by
  have haided : m.controlGpsStart.aided L =
      (m.aided L).observe (.controlGpsStart m.delete_aiding_flag) := aided_send m _ L
  refine ⟨⟨?_, ?_, ?_⟩, ?_⟩
  · rw [haided]
    rfl
  · rw [haided]
    change ((m.aided L).passed && m.delete_aiding_flag == (m.aided L).due) = true
    rw [h.passed, h.due, beq_self_eq_true, Bool.and_self]
  · rw [haided]
    exact h.pending
  · rw [haided, Bool.and_false, Bool.or_false]
    rfl

theorem keeps_controlGpsStop (h : Account (m.aided L) m) (gps_state : GpsState) :
    Keeps L m (m.controlGpsStop gps_state) false := by
  have haided : (m.controlGpsStop gps_state).aided L = (m.aided L).observe .controlGpsStop :=
    aided_send _ _ L
  refine ⟨⟨?_, ?_, ?_⟩, ?_⟩
  · rw [haided]
    exact h.due
  · rw [haided]
    exact h.passed
  · rw [haided]
    exact h.pending
  · rw [haided, Bool.and_false, Bool.or_false]
    rfl

/-- The acknowledgements of a start: the AGPS client with the others, then what is due. -/
theorem keeps_doGpsStartedHdlr (cfg : MnldCfg) (si_assist_req : Int)
    (h : Account (m.aided L) m) :
    Keeps L m (m.doGpsStartedHdlr cfg si_assist_req) true ∧
      (m.doGpsStartedHdlr cfg si_assist_req).delete_aiding_flag = 0 := by
  have hhal : ∀ o ∈ [.halGpsStatus .sessionEngineOn, .halGpsStatus .sessionBegin,
      .agpsGpsOpen si_assist_req], Aiding.Silent o := by
    simp [Aiding.Silent, Aiding.observe]
  have hagps : ∀ o ∈ [GpsOutput.agpsOpenGpsDone], Aiding.Silent o := by
    simp [Aiding.Silent, Aiding.observe]
  have hflp (ofl : Bool) : ∀ o ∈ [.flpGpsOpenDone ofl, .agpsGpsOpen si_assist_req],
      Aiding.Silent o := by
    simp [Aiding.Silent, Aiding.observe]
  have hgfc (ofl : Bool) : ∀ o ∈ [.gfcGpsOpenDone ofl, .agpsGpsOpen si_assist_req],
      Aiding.Silent o := by
    simp [Aiding.Silent, Aiding.observe]
  have hnone : ∀ o ∈ [], Aiding.Silent o := by simp
  have hacks (ofl ofl' : Bool) := (aside_ackOpen m .hal hhal).trans <|
    (aside_ackOpen _ .agps hagps).trans <| (aside_ackOpen _ .flp (hflp ofl)).trans <|
    (aside_ackOpen _ .geofence (hgfc ofl')).trans <| (aside_ackOpen _ .flpTest hnone).trans <|
    (aside_ackOpen _ .atCmdTest hnone).trans (aside_ackOpen _ .factory hnone)
  have hreset (ofl ofl' : Bool) := (hacks ofl ofl').keeps_trans
    (keeps_doGpsResetHdlr ((hacks ofl ofl').account h))
  unfold doGpsStartedHdlr
  dsimp only
  split
  · exact ⟨(hreset _ _).trans (keeps_controlGpsReset (hreset _ _).account), rfl⟩
  · rename_i hflag
    exact ⟨hreset _ _, not_not.mp hflag⟩

/-- The acknowledgements of a stop. -/
theorem keeps_doGpsStoppedHdlr (cfg : MnldCfg) (h : Account (m.aided L) m) :
    Keeps L m (m.doGpsStoppedHdlr cfg) true ∧
      (m.doGpsStoppedHdlr cfg).delete_aiding_flag = m.delete_aiding_flag := by
  have hhal : ∀ o ∈ [.halGpsStatus .sessionEnd, .halGpsStatus .sessionEngineOff,
      GpsOutput.agpsGpsClose], Aiding.Silent o := by
    simp [Aiding.Silent, Aiding.observe]
  have hagps : ∀ o ∈ [GpsOutput.agpsCloseGpsDone], Aiding.Silent o := by
    simp [Aiding.Silent, Aiding.observe]
  have hflp (ofl : Bool) : ∀ o ∈ [GpsOutput.flpGpsCloseDone ofl], Aiding.Silent o := by
    simp [Aiding.Silent, Aiding.observe]
  have hgfc (ofl : Bool) : ∀ o ∈ [GpsOutput.gfcGpsCloseDone ofl], Aiding.Silent o := by
    simp [Aiding.Silent, Aiding.observe]
  have hnlp : ∀ o ∈ [GpsOutput.cancelNlpLocation], Aiding.Silent o := by
    simp [Aiding.Silent, Aiding.observe]
  have hnone : ∀ o ∈ [], Aiding.Silent o := by simp
  have hacks (ofl ofl' : Bool) := (aside_ackClose m .hal hhal).trans <|
    (aside_ackClose _ .agps hagps).trans <|
    (aside_ackClose _ .flp (hflp ofl)).trans <| (aside_ackClose _ .geofence (hgfc ofl')).trans <|
    (aside_ackClose _ .flpTest hnone).trans <| (aside_ackClose _ .atCmdTest hnone).trans <|
    (aside_ackClose _ .factory hnone).trans (aside_send _ hnlp)
  exact ⟨(hacks _ _).keeps_trans (keeps_doGpsResetHdlr ((hacks _ _).account h)),
    (doGpsResetHdlr_flag _).trans (hacks _ _).flag⟩

/-! ## Events -/

/-- The events at which a handler acknowledges the AGPS client. -/
def acksReset (m : Mnld) : GpsEvent → Bool
  | .start => m.gps_state = .started || m.gps_state = .oflStarted
  | .stop =>
    match m.gps_state with
    | .idle => true
    | .started => !m.isAllGpsClientExit
    | .oflStarted => m.isFlpUserExist || m.isGeofenceUserExist
    | _ => false
  | .reset => m.gps_state = .idle || m.gps_state = .stopping || m.gps_state = .oflStopping
  | .startDone => m.gps_state = .starting || m.gps_state = .oflStarting
  | .stopDone => m.gps_state = .stopping || m.gps_state = .oflStopping
  | .offloadStart => false

theorem keeps_fsmGpsStateIdle (cfg : MnldCfg) (hst : m.gps_state = .idle)
    (h : Account (m.aided L) m) (event : GpsEvent) :
    Keeps L m (m.fsmGpsStateIdle cfg event) (m.acksReset event) := by
  have hstart (gps_state : GpsState) : Keeps L m (m.setState gps_state).controlGpsStart false :=
    (aside_setState m gps_state).keeps_trans
      (keeps_controlGpsStart ((aside_setState m gps_state).account h))
  unfold acksReset
  rw [hst]
  cases event with
  | start | offloadStart => exact hstart _
  | stop => exact (keeps_doGpsStoppedHdlr cfg h).1
  | reset => exact keeps_doGpsResetHdlr h
  | startDone | stopDone => exact Aside.keeps ⟨rfl, rfl, fun _ => rfl⟩ h

theorem keeps_fsmGpsStateStarting (cfg : MnldCfg) (data1 : Int) (hst : m.gps_state = .starting)
    (h : Account (m.aided L) m) (event : GpsEvent) :
    Keeps L m (m.fsmGpsStateStarting cfg data1 event) (m.acksReset event) := by
  unfold acksReset
  rw [hst]
  cases event with
  | start | stop | reset | offloadStart => exact (Aside.refl m).keeps h
  | stopDone => exact Aside.keeps ⟨rfl, rfl, fun _ => rfl⟩ h
  | startDone =>
    have hstarted := (keeps_doGpsStartedHdlr cfg data1 h).1
    unfold fsmGpsStateStarting
    dsimp only
    split
    · exact hstarted.trans (keeps_controlGpsStop hstarted.account .stopping)
    · split
      · exact hstarted.trans_aside ((aside_setState _ .started).trans (aside_switchSessions _ _))
      · exact hstarted.trans_aside ⟨rfl, rfl, fun _ => rfl⟩

theorem keeps_fsmGpsStateStarted (cfg : MnldCfg) (hst : m.gps_state = .started)
    (h : Account (m.aided L) m) (event : GpsEvent) :
    Keeps L m (m.fsmGpsStateStarted cfg event) (m.acksReset event) := by
  unfold acksReset
  rw [hst]
  cases event with
  | start => exact (keeps_doGpsStartedHdlr cfg 0 h).1
  | stop =>
    unfold fsmGpsStateStarted
    dsimp only
    cases hexit : m.isAllGpsClientExit with
    | true =>
      rw [if_pos rfl]
      exact keeps_controlGpsStop h .stopping
    | false =>
      rw [if_neg Bool.false_ne_true]
      have hstopped := (keeps_doGpsStoppedHdlr cfg h).1
      split
      · exact hstopped.trans_aside ⟨rfl, rfl, fun _ => rfl⟩
      · exact hstopped
  | reset =>
    unfold fsmGpsStateStarted
    dsimp only
    split
    · exact keeps_controlGpsReset h
    · exact (Aside.refl m).keeps h
  | startDone =>
    unfold fsmGpsStateStarted
    dsimp only
    split
    · exact (aside_send m (by simp [Aiding.Silent, Aiding.observe])).keeps h
    · exact (Aside.refl m).keeps h
  | offloadStart => exact (Aside.refl m).keeps h
  | stopDone => exact Aside.keeps ⟨rfl, rfl, fun _ => rfl⟩ h

theorem keeps_fsmGpsStateStopping (cfg : MnldCfg) (hst : m.gps_state = .stopping)
    (h : Account (m.aided L) m) (event : GpsEvent) :
    Keeps L m (m.fsmGpsStateStopping cfg event) (m.acksReset event) := by
  unfold acksReset
  rw [hst]
  cases event with
  | start | stop | offloadStart | startDone => exact (Aside.refl m).keeps h
  | reset => exact keeps_doGpsResetHdlr h
  | stopDone =>
    have hstopped := (keeps_doGpsStoppedHdlr cfg h).1
    unfold fsmGpsStateStopping
    dsimp only
    split
    · have hstart := hstopped.trans_aside (aside_setState _ .starting)
      exact hstart.trans (keeps_controlGpsStart hstart.account)
    · split
      · exact hstopped.trans_aside ((aside_setState _ .idle).trans (aside_switchSessions _ _))
      · exact hstopped.trans_aside (aside_setState _ .idle)

theorem keeps_fsmGpsStateOflStarting (cfg : MnldCfg) (data1 : Int)
    (hst : m.gps_state = .oflStarting) (h : Account (m.aided L) m) (event : GpsEvent) :
    Keeps L m (m.fsmGpsStateOflStarting cfg data1 event) (m.acksReset event) := by
  unfold acksReset
  rw [hst]
  cases event with
  | start | stop | reset | offloadStart => exact (Aside.refl m).keeps h
  | stopDone => exact Aside.keeps ⟨rfl, rfl, fun _ => rfl⟩ h
  | startDone =>
    have hstarted := (keeps_doGpsStartedHdlr cfg data1 h).1
    unfold fsmGpsStateOflStarting
    dsimp only
    split
    · exact hstarted.trans (keeps_controlGpsStop hstarted.account .oflStopping)
    · exact hstarted.trans_aside ⟨rfl, rfl, fun _ => rfl⟩

theorem keeps_fsmGpsStateOflStarted (cfg : MnldCfg) (hst : m.gps_state = .oflStarted)
    (h : Account (m.aided L) m) (event : GpsEvent) :
    Keeps L m (m.fsmGpsStateOflStarted cfg event) (m.acksReset event) := by
  unfold acksReset
  rw [hst]
  cases event with
  | start =>
    have hstarted := (keeps_doGpsStartedHdlr cfg 0 h).1
    unfold fsmGpsStateOflStarted
    dsimp only
    split
    · have hcleared := hstarted.trans_aside
        ((aside_clearClient _ .flp).trans (aside_clearClient _ .geofence))
      exact hcleared.trans (keeps_controlGpsStop hcleared.account .oflStopping)
    · exact hstarted
  | stop =>
    unfold fsmGpsStateOflStarted
    dsimp only
    cases huser : m.isFlpUserExist || m.isGeofenceUserExist with
    | true =>
      rw [if_pos rfl]
      exact (keeps_doGpsStoppedHdlr cfg h).1
    | false =>
      rw [if_neg Bool.false_ne_true]
      exact keeps_controlGpsStop h .oflStopping
  | startDone =>
    unfold fsmGpsStateOflStarted
    dsimp only
    split
    · exact (aside_send m (by simp [Aiding.Silent, Aiding.observe])).keeps h
    · exact (Aside.refl m).keeps h
  | reset | offloadStart => exact (Aside.refl m).keeps h
  | stopDone => exact Aside.keeps ⟨rfl, rfl, fun _ => rfl⟩ h

theorem keeps_fsmGpsStateOflStopping (cfg : MnldCfg) (hst : m.gps_state = .oflStopping)
    (h : Account (m.aided L) m) (event : GpsEvent) :
    Keeps L m (m.fsmGpsStateOflStopping cfg event) (m.acksReset event) := by
  unfold acksReset
  rw [hst]
  cases event with
  | start | stop | offloadStart | startDone => exact (Aside.refl m).keeps h
  | reset => exact keeps_doGpsResetHdlr h
  | stopDone =>
    have hstopped := (keeps_doGpsStoppedHdlr cfg h).1
    unfold fsmGpsStateOflStopping
    dsimp only
    split
    · have hstart := hstopped.trans_aside (aside_setState _ .oflStarting)
      exact hstart.trans (keeps_controlGpsStart hstart.account)
    · split
      · -- the machine is entered again, in the idle state
        have hidle := hstopped.trans_aside
          ((aside_setState _ .idle).trans ((aside_switchSessions _ .apMode).trans
            (aside_setState _ .starting)))
        exact hidle.trans (keeps_controlGpsStart hidle.account)
      · split
        · exact hstopped.trans_aside ((aside_setState _ .idle).trans (aside_switchSessions _ _))
        · exact hstopped.trans_aside (aside_setState _ .idle)

/-- Every event keeps the account. -/
theorem keeps_fsm (cfg : MnldCfg) (data1 : Int) (h : Account (m.aided L) m) (event : GpsEvent) :
    Keeps L m (m.fsm cfg event data1) (m.acksReset event) := by
  unfold fsm
  cases hst : m.gps_state with
  | idle => exact keeps_fsmGpsStateIdle cfg hst h event
  | starting => exact keeps_fsmGpsStateStarting cfg data1 hst h event
  | started => exact keeps_fsmGpsStateStarted cfg hst h event
  | stopping => exact keeps_fsmGpsStateStopping cfg hst h event
  | oflStarting => exact keeps_fsmGpsStateOflStarting cfg data1 hst h event
  | oflStarted => exact keeps_fsmGpsStateOflStarted cfg hst h event
  | oflStopping => exact keeps_fsmGpsStateOflStopping cfg hst h event

/-! ## What is due in the started state -/

/-- Nothing is due in the started state. -/
def Clear (m : Mnld) : Prop := m.gps_state = .started → m.delete_aiding_flag = 0

theorem clear_of_state {gps_state : GpsState} (h : m.gps_state = gps_state)
    (hne : gps_state ≠ .started) : m.Clear := fun hst => absurd (h.symm.trans hst) hne

theorem doGpsStoppedHdlr_state (m : Mnld) (cfg : MnldCfg) :
    (m.doGpsStoppedHdlr cfg).gps_state = m.gps_state := (quietly_doGpsStoppedHdlr m cfg).state

/-- A state other than the started one is left for it with nothing due. -/
theorem clear_fsm_of_ne (cfg : MnldCfg) (data1 : Int) (hst : m.gps_state ≠ .started)
    (h : Account (m.aided L) m) (event : GpsEvent) : (m.fsm cfg event data1).Clear := by
  have hreset := (quietly_doGpsResetHdlr m).state
  have hstopped := doGpsStoppedHdlr_state m cfg
  have hstarted := (quietly_doGpsStartedHdlr m cfg 0).state
  unfold fsm
  cases hstate : m.gps_state with
  | started => exact absurd hstate hst
  | idle =>
    rw [hstate] at hreset hstopped
    cases event with
    | start | offloadStart => exact clear_of_state rfl nofun
    | stop => exact clear_of_state hstopped nofun
    | reset => exact clear_of_state hreset nofun
    | startDone | stopDone => exact clear_of_state hstate nofun
  | starting =>
    cases event with
    | start | stop | reset | offloadStart | stopDone => exact clear_of_state hstate nofun
    | startDone =>
      have hflag := (keeps_doGpsStartedHdlr cfg data1 h).2
      unfold fsmGpsStateStarting
      dsimp only
      split
      · exact clear_of_state rfl nofun
      · split
        · exact fun _ => (aside_switchSessions _ _).flag.trans hflag
        · exact fun _ => hflag
  | stopping =>
    rw [hstate] at hreset
    cases event with
    | start | stop | offloadStart | startDone => exact clear_of_state hstate nofun
    | reset => exact clear_of_state hreset nofun
    | stopDone =>
      unfold fsmGpsStateStopping
      dsimp only
      split
      · exact clear_of_state rfl nofun
      · split
        · exact clear_of_state switchSessions_state nofun
        · exact clear_of_state rfl nofun
  | oflStarting =>
    cases event with
    | start | stop | reset | offloadStart | stopDone => exact clear_of_state hstate nofun
    | startDone =>
      unfold fsmGpsStateOflStarting
      dsimp only
      split
      · exact clear_of_state rfl nofun
      · exact clear_of_state rfl nofun
  | oflStarted =>
    rw [hstate] at hstopped hstarted
    cases event with
    | start =>
      unfold fsmGpsStateOflStarted
      dsimp only
      split
      · exact clear_of_state rfl nofun
      · exact clear_of_state hstarted nofun
    | stop =>
      unfold fsmGpsStateOflStarted
      dsimp only
      split
      · exact clear_of_state hstopped nofun
      · exact clear_of_state rfl nofun
    | startDone =>
      unfold fsmGpsStateOflStarted
      dsimp only
      split
      · exact clear_of_state hstate nofun
      · exact clear_of_state hstate nofun
    | reset | offloadStart | stopDone => exact clear_of_state hstate nofun
  | oflStopping =>
    rw [hstate] at hreset
    cases event with
    | start | stop | offloadStart | startDone => exact clear_of_state hstate nofun
    | reset => exact clear_of_state hreset nofun
    | stopDone =>
      unfold fsmGpsStateOflStopping
      dsimp only
      split
      · exact clear_of_state rfl nofun
      · split
        · exact clear_of_state rfl nofun
        · split
          · exact clear_of_state switchSessions_state nofun
          · exact clear_of_state rfl nofun

/-- In the started state, what is asked for is passed at once. -/
theorem clear_fsm (cfg : MnldCfg) (data1 : Int) (h : Account (m.aided L) m) (event : GpsEvent)
    (hclear : event ≠ .reset → m.Clear) : (m.fsm cfg event data1).Clear := by
  by_cases hst : m.gps_state = .started
  · unfold fsm
    rw [hst]
    unfold fsmGpsStateStarted
    cases event with
    | start => exact fun _ => (keeps_doGpsStartedHdlr cfg 0 h).2
    | stop =>
      have hstopped := (keeps_doGpsStoppedHdlr cfg h).2.trans (hclear nofun hst)
      dsimp only
      split
      · exact clear_of_state rfl nofun
      · split
        · exact fun _ => hstopped
        · exact fun _ => hstopped
    | reset =>
      dsimp only
      split
      · exact fun _ => rfl
      · rename_i hflag
        exact fun _ => not_not.mp hflag
    | startDone =>
      dsimp only
      split
      · exact fun _ => hclear nofun hst
      · exact fun _ => hclear nofun hst
    | offloadStart => exact fun _ => hclear nofun hst
    | stopDone => exact fun _ => hclear nofun hst
  · exact clear_fsm_of_ne cfg data1 hst h event

/-! ## Requests -/

/-- A request is an event after its flags are written; while the engine is started, the AGPS client
is acknowledged if it waits and the receiver is opened, or left for another client. -/
def Turns (cfg : MnldCfg) (A : Aiding) (m : Mnld) (r : GpsRequest) : Prop :=
  ∃ m₁ event, r.handle cfg m = m₁.fsm cfg event 0 ∧ m₁.sent = [] ∧
    Account (A.tell (.request r)) m₁ ∧ (event ≠ .reset → m₁.Clear) ∧
      (m.gps_state = .started ∨ m.gps_state = .oflStarted →
        (((A.tell (.request r)).pending && m₁.acksReset event) = true ↔
          (m.clients .agps).need_reset_ack = true ∧ r ≠ .agpsReboot ∧
            (r.opens = true ∨ ∃ c, r.leaves = some c ∧ m.StaysFor c)))

/-- Without the client that leaves, the engine stays on for another one. -/
theorem acksReset_stop_iff {c : Client} {client : GpsClient} (hclient : client.gps_used = false)
    (hst : m.gps_state = .started ∨ m.gps_state = .oflStarted) :
    (m.setClient c client).acksReset .stop = true ↔ m.StaysFor c := by
  have hused (c' : Client) : (m.setClient c client).Used c' ↔ c' ≠ c ∧ m.Used c' := by
    unfold Used
    rcases eq_or_ne c' c with rfl | hne
    · rw [setClient_clients_self, hclient]
      exact iff_of_false Bool.false_ne_true fun h => h.1 rfl
    · rw [setClient_clients_of_ne m hne]
      exact ⟨fun h => ⟨hne, h⟩, fun h => h.2⟩
  have hstate : (m.setClient c client).gps_state = m.gps_state := rfl
  unfold acksReset StaysFor
  rcases hst with hst | hst
  · rw [hstate, hst]
    dsimp only
    rw [Bool.not_eq_true', ← Bool.not_eq_true, ← exists_used_iff]
    refine exists_congr fun c' => ?_
    rw [hused]
    exact ⟨fun ⟨hne, hu⟩ => ⟨hne, hu, nofun⟩, fun ⟨hne, hu, _⟩ => ⟨hne, hu⟩⟩
  · rw [hstate, hst]
    dsimp only
    rw [Bool.or_eq_true]
    change (m.setClient c client).Used .flp ∨ (m.setClient c client).Used .geofence ↔ _
    rw [hused, hused]
    constructor
    · rintro (⟨hne, hu⟩ | ⟨hne, hu⟩)
      · exact ⟨.flp, hne, hu, fun _ => .inl rfl⟩
      · exact ⟨.geofence, hne, hu, fun _ => .inr rfl⟩
    · rintro ⟨c', hne, hu, hofl⟩
      rcases hofl rfl with rfl | rfl
      · exact .inl ⟨hne, hu⟩
      · exact .inr ⟨hne, hu⟩

variable {cfg : MnldCfg} {r : GpsRequest}

/-- The flags of a client do not matter to the account. -/
theorem Account.setClient (h : Account A m) (c : Client) {client : GpsClient}
    (hneed : c = .agps → client.need_reset_ack = (m.clients c).need_reset_ack) :
    Account A (m.setClient c client) :=
  ⟨h.due, h.passed, h.pending.trans (aside_setClient m c hneed).need.symm⟩

/-- A client opens the receiver for the host. -/
theorem turns_open (hsent : m.sent = []) (h : Account A m) (hclear : m.Clear) {c : Client}
    {ack : Bool} (hr : r.handle cfg m = m.openGps c ack .start cfg)
    (htell : A.tell (.request r) = A) (hne : r ≠ .agpsReboot) (hopens : r.opens = true) :
    Turns cfg A m r := by
  refine ⟨_, .start, hr, hsent, ?_, fun _ => hclear, fun hst => ?_⟩
  · rw [htell]
    refine h.setClient c fun _ => ?_
    rfl
  · rw [htell, h.pending, Bool.and_eq_true]
    refine and_congr_right fun _ => iff_of_true ?_ ⟨hne, .inl hopens⟩
    rcases hst with hst | hst
    · exact Bool.or_eq_true_iff.mpr (.inl (decide_eq_true hst))
    · exact Bool.or_eq_true_iff.mpr (.inr (decide_eq_true hst))

/-- An offload client opens the receiver. -/
theorem turns_offload (hsent : m.sent = []) (h : Account A m) (hclear : m.Clear) {c : Client}
    {session : Session} {ack : Bool}
    (hr : r.handle cfg m = (m.setSession c session).openGps c ack .offloadStart cfg)
    (htell : A.tell (.request r) = A) (hopens : r.opens = false) (hleaves : r.leaves = none) :
    Turns cfg A m r := by
  refine ⟨_, .offloadStart, hr, hsent, ?_, fun _ => hclear, fun _ => ?_⟩
  · rw [htell]
    have hsession : Account A (m.setSession c session) := ⟨h.due, h.passed, h.pending⟩
    refine hsession.setClient c fun _ => ?_
    rfl
  · rw [hopens, hleaves]
    refine iff_of_false ?_ ?_
    · rw [Bool.and_eq_true]
      exact fun hacks => Bool.false_ne_true hacks.2
    · rintro ⟨-, -, ho | ⟨c', hc', -⟩⟩
      · cases ho
      · cases hc'

/-- A client leaves. -/
theorem turns_leave (hsent : m.sent = []) (h : Account A m) (hclear : m.Clear) {c : Client}
    {client : GpsClient} (hr : r.handle cfg m = (m.setClient c client).fsm cfg .stop 0)
    (htell : A.tell (.request r) = A) (hne : r ≠ .agpsReboot) (hopens : r.opens = false)
    (hleaves : r.leaves = some c) (hused : client.gps_used = false)
    (hneed : c = .agps → client.need_reset_ack = (m.clients c).need_reset_ack) :
    Turns cfg A m r := by
  refine ⟨_, .stop, hr, hsent, ?_, fun _ => hclear, fun hst => ?_⟩
  · rw [htell]
    exact h.setClient c hneed
  · rw [htell, h.pending, Bool.and_eq_true, acksReset_stop_iff hused hst, hopens, hleaves]
    refine and_congr_right fun _ => ⟨fun hs => ⟨hne, .inr ⟨c, rfl, hs⟩⟩, ?_⟩
    rintro ⟨-, ho | ⟨c', hc', hs⟩⟩
    · cases ho
    · rwa [Option.some.inj hc']

/-- The AGPS client starts anew: it does not wait any more. -/
theorem turns_agpsReboot (hsent : m.sent = []) (h : Account A m) (hclear : m.Clear) :
    Turns cfg A m .agpsReboot := by
  refine ⟨_, .stop, rfl, hsent, ⟨h.due, h.passed, ?_⟩, fun _ => hclear, fun _ => ?_⟩
  · exact Aiding.pending_forget
  · refine iff_of_false ?_ fun hr => hr.2.1 rfl
    rw [Bool.and_eq_true]
    rintro ⟨hpending, -⟩
    rw [show A.tell (.request .agpsReboot) = A.forget from rfl, Aiding.pending_forget] at hpending
    cases hpending

/-- Flags are asked for: nobody is acknowledged while the engine is started. -/
theorem turns_reset (hsent : m.sent = []) {m₁ : Mnld} (hr : r.handle cfg m = m₁.fsm cfg .reset 0)
    (hsent₁ : m₁.sent = m.sent) (hstate : m₁.gps_state = m.gps_state)
    (h : Account (A.tell (.request r)) m₁) (hopens : r.opens = false)
    (hleaves : r.leaves = none) : Turns cfg A m r := by
  refine ⟨m₁, .reset, hr, hsent₁.trans hsent, h, fun hne => absurd rfl hne, fun hst => ?_⟩
  rw [hopens, hleaves]
  refine iff_of_false ?_ ?_
  · unfold acksReset
    rw [hstate, Bool.and_eq_true]
    rintro ⟨-, hacks⟩
    rcases hst with hst | hst
    · rw [hst] at hacks
      cases hacks
    · rw [hst] at hacks
      cases hacks
  · rintro ⟨-, -, ho | ⟨c', hc', -⟩⟩
    · cases ho
    · cases hc'

/-- Every request is an event after its flags are written, but the one for a reset without flags. -/
theorem turns_handle (cfg : MnldCfg) (hsent : m.sent = []) (h : Account A m) (hclear : m.Clear)
    (hr : r ≠ .agpsResetGpsReq 0) : Turns cfg A m r := by
  cases r with
  | halGpsStart | agpsOpenGpsReq | flpHbdGpsOpen | gfcHbdGpsOpen | flpTestGpsStart
  | factoryMnldGpsStart | atTestGpsStart => exact turns_open hsent h hclear rfl rfl nofun rfl
  | flpOflLinkOpen | gfcOflLinkOpen => exact turns_offload hsent h hclear rfl rfl rfl rfl
  | halReboot | flpReboot | gfcReboot =>
    exact turns_leave hsent h hclear rfl rfl nofun rfl rfl rfl nofun
  | agpsReboot => exact turns_agpsReboot hsent h hclear
  | halGpsStop | agpsCloseGpsReq | flpHbdGpsClose | flpOflLinkClose | gfcHbdGpsClose
  | gfcOflLinkClose | flpTestGpsStop | factoryMnldGpsStop | atTestGpsStop =>
    exact turns_leave hsent h hclear rfl rfl nofun rfl rfl rfl fun _ => rfl
  | halGpsDeleteAidingData flags =>
    have hneed := (@Account.setClient A m h .hal
      { m.clients .hal with need_reset_ack := false } nofun).pending
    exact turns_reset hsent rfl rfl rfl
      ⟨congrArg (· ||| flags) h.due, h.passed, hneed⟩ rfl rfl
  | agpsResetGpsReq flags =>
    have hflags : flags ≠ 0 := fun hzero => hr (by rw [hzero])
    have hhandle : (GpsRequest.agpsResetGpsReq flags).handle cfg m =
        ({ m.setClient .agps { m.clients .agps with need_reset_ack := true } with
          delete_aiding_flag := m.delete_aiding_flag ||| flags } : Mnld).fsm cfg .reset 0 :=
      if_neg hflags
    refine turns_reset hsent hhandle rfl rfl ⟨congrArg (· ||| flags) h.due, h.passed, ?_⟩ rfl rfl
    rfl

end Mnld

/-! ## Runs -/

namespace AidingSystem

open Mnld

variable {cfg : MnldCfg} {s s' : AidingSystem} {input : GpsInput}

/-- The ledger agrees with the flags, the engine fits the state, and nothing is due in the started
state. -/
structure Inv (s : AidingSystem) : Prop where
  system : s.system.Inv
  account : Account s.ledger s.system.mnld
  clear : s.system.mnld.Clear

/-- The engine is started in the states that say so. -/
theorem started_iff (h : s.system.Inv) : s.system.engine.started = true ↔
    s.system.mnld.gps_state = .started ∨ s.system.mnld.gps_state = .oflStarted := by
  rw [h.engine]
  cases s.system.mnld.gps_state with
  | started => exact iff_of_true rfl (.inl rfl)
  | oflStarted => exact iff_of_true rfl (.inr rfl)
  | idle | starting | stopping | oflStarting | oflStopping =>
    refine iff_of_false Bool.false_ne_true ?_
    rintro (h | h)
    · cases h
    · cases h

/-- The last step of a run: what a handler does, against what the AGPS client waits for. -/
structure Moves (s : AidingSystem) (input : GpsInput) (s' : AidingSystem) : Prop where
  inv : s'.Inv
  early : s.ledger.early = false → (s'.ledger.early = false ↔ s.Waits input)

/-- After a handler that keeps the account. -/
theorem moves_of_keeps {system : GpsSystem} {L : Aiding} {m m' : Mnld} {b : Bool}
    (hsystem : system.Inv) (hmnld : system.mnld = m') (hclear : m'.Clear) (h : Keeps L m m' b)
    (hsent : m.sent = []) (hearly : L.early = s.ledger.early)
    (hwaits : (L.started && L.pending && b) = true ↔ ¬ s.Waits input) :
    s.Moves input ⟨system, m'.aided L⟩ := by
  subst hmnld
  refine ⟨⟨hsystem, h.account, hclear⟩, fun hfalse => ?_⟩
  have haided : m.aided L = L := by rw [aided, hsent, List.foldl_nil]
  change (system.mnld.aided L).early = false ↔ _
  rw [h.early, haided, hearly, hfalse, Bool.false_or, ← Bool.not_eq_true, hwaits, not_not]

/-- Where the AGPS client is not acknowledged, there is nothing to wait for. -/
theorem moves_of_waits {L : Aiding} {m : Mnld} {engine : GpsEngine}
    (hsystem : (GpsSystem.mk m engine).Inv) (haccount : Account L m) (hclear : m.Clear) (hearly : L.early = s.ledger.early)
    (hwaits : s.Waits input) : s.Moves input ⟨⟨m, engine⟩, L⟩ :=
  ⟨⟨hsystem, haccount, hclear⟩, fun hfalse => iff_of_true (hearly.trans hfalse) hwaits⟩

/-- A request without flags changes nothing. -/
theorem moves_noFlags (cfg : MnldCfg) (h : s.Inv) :
    s.Moves (.request (.agpsResetGpsReq 0))
      ⟨s.system.next cfg (.request (.agpsResetGpsReq 0)), s.ledger⟩ := by
  have hsystem := (GpsSystem.next_follows cfg h.system (.request (.agpsResetGpsReq 0))).1
  refine moves_of_waits hsystem ⟨h.account.due, h.account.passed, h.account.pending⟩ h.clear rfl ?_
  exact fun _ _ _ => ⟨rfl, nofun⟩

theorem account_ledgerAt (h : s.Inv) (input : GpsInput) :
    Account (s.ledgerAt input) s.system.fresh :=
  ⟨h.account.due, h.account.passed, h.account.pending⟩

/-- A request. -/
theorem moves_request (cfg : MnldCfg) (h : s.Inv) {r : GpsRequest}
    (hr : r ≠ .agpsResetGpsReq 0) :
    s.Moves (.request r) ⟨s.system.next cfg (.request r),
      (r.handle cfg s.system.fresh).aided ((s.ledgerAt (.request r)).tell (.request r))⟩ := by
  have hsystem := (GpsSystem.next_follows cfg h.system (.request r)).1
  obtain ⟨m₁, event, hhandle, hsent, haccount, hclear, hiff⟩ :=
    turns_handle cfg rfl (account_ledgerAt h (.request r)) h.clear hr
  have haided : m₁.aided ((s.ledgerAt (.request r)).tell (.request r)) =
      (s.ledgerAt (.request r)).tell (.request r) := by rw [aided, hsent, List.foldl_nil]
  rw [← haided] at haccount
  rw [hhandle]
  obtain ⟨hearly, hstarted⟩ :=
    Aiding.tell_eq (s.ledgerAt (.request r)) (.request r)
  refine moves_of_keeps hsystem hhandle (clear_fsm cfg 0 haccount event hclear)
    (keeps_fsm cfg 0 haccount event) hsent hearly ?_
  rw [hstarted]
  change (s.system.engine.started && _ && _) = true ↔ _
  cases hon : s.system.engine.started with
  | false =>
    refine iff_of_false Bool.false_ne_true (not_not_intro fun _ hstart => ?_)
    rw [hon] at hstart
    cases hstart
  | true =>
    rw [Bool.true_and, hiff ((started_iff h.system).mp hon)]
    constructor
    · rintro ⟨hneed, hne, hor⟩ hwaits
      obtain ⟨hopens, hleaves⟩ := hwaits hneed hon hne
      rcases hor with ho | ⟨c, hc, hstays⟩
      · exact Bool.false_ne_true (hopens.symm.trans ho)
      · exact hleaves c hc hstays
    · intro hnot
      by_contra hnone
      refine hnot fun hneed _ hne => ⟨Bool.eq_false_iff.mpr fun ho => ?_, fun c hc hstays => ?_⟩
      · exact hnone ⟨hneed, hne, .inl ho⟩
      · exact hnone ⟨hneed, hne, .inr ⟨c, hc, hstays⟩⟩

/-- The answer to a start acknowledges the AGPS client, the one to a stop comes too late for it. -/
theorem moves_answer (cfg : MnldCfg) (h : s.Inv) (si_assist_req : Int) :
    s.Moves (.answer si_assist_req) ⟨s.system.next cfg (.answer si_assist_req),
      (s.system.said cfg (.answer si_assist_req)).foldl Aiding.observe
        (s.ledgerAt (.answer si_assist_req))⟩ := by
  have hsystem := (GpsSystem.next_follows cfg h.system (.answer si_assist_req)).1
  have haccount : Account (s.system.fresh.aided (s.ledgerAt (.answer si_assist_req)))
      s.system.fresh := account_ledgerAt h _
  rw [GpsSystem.next] at hsystem ⊢
  rw [GpsSystem.said, GpsSystem.next]
  cases hcommand : s.system.engine.outstanding with
  | nil =>
    rw [hcommand] at hsystem
    refine moves_of_waits hsystem ⟨h.account.due, h.account.passed, h.account.pending⟩ h.clear
      rfl ?_
    intro _
    rw [hcommand]
    rintro ⟨⟩
  | cons command rest =>
    rw [hcommand] at hsystem
    rw [if_neg (List.cons_ne_nil command rest)]
    have hstate := h.system.engine
    cases command with
    | start =>
      have hstarting : s.system.fresh.acksReset .startDone = true ∧ rest = [] := by
        rw [acksReset]
        change (decide (s.system.mnld.gps_state = .starting) ||
          decide (s.system.mnld.gps_state = .oflStarting)) = true ∧ _
        cases hst : s.system.mnld.gps_state with
        | starting | oflStarting =>
          rw [hst] at hstate
          rw [hstate] at hcommand
          exact ⟨rfl, (List.cons.inj hcommand).2.symm⟩
        | idle | started | stopping | oflStarted | oflStopping =>
          rw [hst] at hstate
          rw [hstate] at hcommand
          cases hcommand
      obtain ⟨hacks, rfl⟩ := hstarting
      have hon : (s.ledgerAt (.answer si_assist_req)).started = true := by
        rw [ledgerAt, GpsSystem.engineAt, hcommand]
        rfl
      refine moves_of_keeps hsystem rfl (clear_fsm cfg si_assist_req haccount .startDone
        fun _ => h.clear) (keeps_fsm cfg si_assist_req haccount .startDone) rfl rfl ?_
      have hpending := haccount.pending
      change (s.ledgerAt (.answer si_assist_req)).pending = _ at hpending
      rw [hon, hacks, hpending, Bool.true_and, Bool.and_true]
      refine ⟨fun hneed hwaits => hwaits hneed (by rw [hcommand]; rfl), fun hnot => ?_⟩
      by_contra hneed
      exact hnot fun hneed' => absurd hneed' hneed
    | stop =>
      have hoff : (s.ledgerAt (.answer si_assist_req)).started = false := by
        rw [ledgerAt, GpsSystem.engineAt, hcommand]
        rfl
      refine moves_of_keeps hsystem rfl (clear_fsm cfg 0 haccount .stopDone fun _ => h.clear)
        (keeps_fsm cfg 0 haccount .stopDone) rfl rfl ?_
      rw [hoff, Bool.false_and]
      refine iff_of_false Bool.false_ne_true (not_not_intro fun _ => ?_)
      rw [hcommand]
      rintro ⟨⟩

/-- An answer to a reset. -/
theorem moves_resetDone (cfg : MnldCfg) (h : s.Inv) (hresets : s.ledger.resets ≠ []) :
    s.Moves .resetDone ⟨s.system.next cfg .resetDone, s.system.fresh.doGpsResetHdlr.aided
      ((s.ledgerAt .resetDone).tell .resetDone)⟩ := by
  have hsystem := (GpsSystem.next_follows cfg h.system .resetDone).1
  have haccount := account_ledgerAt h .resetDone
  obtain ⟨hearly, hstarted⟩ := Aiding.tell_eq (s.ledgerAt .resetDone) .resetDone
  have hneeds := haccount.pending
  have hclear : s.system.fresh.doGpsResetHdlr.Clear := fun hst =>
    (doGpsResetHdlr_flag _).trans
      (h.clear ((quietly_doGpsResetHdlr s.system.fresh).state.symm.trans hst))
  cases hneed : (s.system.fresh.clients .agps).need_reset_ack with
  | true =>
    have haided : s.system.fresh.doGpsResetHdlr.aided ((s.ledgerAt .resetDone).tell .resetDone) =
        ((s.ledgerAt .resetDone).tell .resetDone).observe .agpsResetGpsDone := by
      rw [doGpsResetHdlr, if_pos hneed]
      rfl
    have hdone : (s.system.fresh.doGpsResetHdlr.clients .agps).need_reset_ack = false := by
      rw [doGpsResetHdlr, if_pos hneed]
      rfl
    rw [haided]
    refine ⟨⟨hsystem, ⟨?_, haccount.passed, ?_⟩, hclear⟩, fun hfalse => ?_⟩
    · exact haccount.due.trans (doGpsResetHdlr_flag s.system.fresh).symm
    · exact Aiding.pending_forget.trans hdone.symm
    · change (s.ledger.early || s.system.engine.started &&
        (s.ledger.agpsDue || s.ledger.resets.tail.any id)) = false ↔ _
      rw [hfalse, Bool.false_or, Bool.and_eq_false_imp, Bool.or_eq_false_iff, List.any_eq_false]
      constructor
      · intro hnone _ hon _
        exact ⟨(hnone hon).1, fun hmem => (hnone hon).2 true hmem rfl⟩
      · intro hwaits hon
        obtain ⟨hdue, hmem⟩ := hwaits hneed hon hresets
        exact ⟨hdue, fun b hb hb' => hmem (hb' ▸ hb)⟩
  | false =>
    have hsame : s.system.fresh.doGpsResetHdlr = s.system.fresh := by
      rw [doGpsResetHdlr, if_neg (by rw [hneed]; exact Bool.false_ne_true)]
    rw [hneed] at hneeds
    obtain ⟨hdue, hnone⟩ := Bool.or_eq_false_iff.mp hneeds
    rw [hsame] at hclear ⊢
    rw [GpsSystem.next, hsame] at hsystem ⊢
    refine moves_of_waits hsystem ⟨haccount.due, haccount.passed, ?_⟩ hclear rfl ?_
    · rw [hneed]
      refine Bool.or_eq_false_iff.mpr ⟨hdue, List.any_eq_false.mpr fun b hb => ?_⟩
      exact List.any_eq_false.mp hnone b (List.mem_of_mem_tail hb)
    · intro hneed'
      exact absurd (hneed.symm.trans hneed') Bool.false_ne_true

/-- Without the offload clients and without host based ones, the test client is left. -/
theorem used_cleared_iff {m : Mnld} (hnone : m.NoHbd) (c : Client) :
    ((m.clearClient .flp).clearClient .geofence).Used c ↔ c = .flpTest ∧ m.Used .flpTest := by
  have hhbd (c : Client) (hc : m.Used c) : c = .flp ∨ c = .geofence ∨ c = .flpTest := by
    simp only [NoHbd, isAHbdGpsClientExist, Bool.or_eq_false_iff] at hnone
    obtain ⟨⟨⟨hhal, hagps⟩, hat⟩, hfactory⟩ := hnone
    cases c with
    | flp => exact .inl rfl
    | geofence => exact .inr (.inl rfl)
    | flpTest => exact .inr (.inr rfl)
    | hal => exact absurd (hhal.symm.trans hc) Bool.false_ne_true
    | agps => exact absurd (hagps.symm.trans hc) Bool.false_ne_true
    | atCmdTest => exact absurd (hat.symm.trans hc) Bool.false_ne_true
    | factory => exact absurd (hfactory.symm.trans hc) Bool.false_ne_true
  have hother : c ≠ .flp → c ≠ .geofence →
      (((m.clearClient .flp).clearClient .geofence).Used c ↔ m.Used c) := fun hflp hgfc => by
    unfold Used clearClient
    rw [setClient_clients_of_ne _ hgfc, setClient_clients_of_ne _ hflp]
  cases c with
  | flp | geofence => exact iff_of_false Bool.false_ne_true fun h => absurd h.1 (by rintro ⟨⟩)
  | flpTest => exact (hother (by rintro ⟨⟩) (by rintro ⟨⟩)).trans ⟨fun h => ⟨rfl, h⟩, fun h => h.2⟩
  | hal | agps | atCmdTest | factory =>
    refine (hother (by rintro ⟨⟩) (by rintro ⟨⟩)).trans (iff_of_false (fun hc => ?_) fun h => absurd h.1 (by rintro ⟨⟩))
    rcases hhbd _ hc with h | h | h <;> cases h

/-- The mode is switched. -/
theorem moves_switchTimeout (cfg : MnldCfg) (h : s.Inv) :
    s.Moves .switchTimeout ⟨s.system.next cfg .switchTimeout,
      (s.system.said cfg .switchTimeout).foldl Aiding.observe (s.ledgerAt .switchTimeout)⟩ := by
  have hsystem := (GpsSystem.next_follows cfg h.system .switchTimeout).1
  have haccount := account_ledgerAt h .switchTimeout
  rw [GpsSystem.next] at hsystem ⊢
  rw [GpsSystem.said, GpsSystem.next]
  cases htimer : s.system.mnld.timer_switch_ofl_mode with
  | false =>
    rw [htimer, if_neg Bool.false_ne_true] at hsystem
    rw [if_neg Bool.false_ne_true, if_neg Bool.false_ne_true]
    refine moves_of_waits hsystem ⟨h.account.due, h.account.passed, h.account.pending⟩ h.clear
      rfl ?_
    intro _ _ hrunning
    exact absurd (htimer.symm.trans hrunning) Bool.false_ne_true
  | true =>
    rw [htimer, if_pos rfl] at hsystem
    rw [if_pos rfl, if_pos rfl]
    rw [gpsSwitchOflModeTimeout] at hsystem ⊢
    cases hnone : s.system.mnld.isAHbdGpsClientExist with
    | true =>
      have hsome : ¬ ({ s.system.fresh with timer_switch_ofl_mode := false } :
          Mnld).isAllHbdGpsClientExit = true := by
        rw [isAllHbdGpsClientExit_eq]
        change ¬ (!s.system.mnld.isAHbdGpsClientExist) = true
        rw [hnone]
        exact Bool.false_ne_true
      rw [if_neg hsome] at hsystem ⊢
      refine moves_of_waits hsystem ⟨haccount.due, haccount.passed, haccount.pending⟩ h.clear rfl ?_
      intro _ _ _ hno
      exact absurd (hno.symm.trans hnone) Bool.false_ne_true
    | false =>
      obtain ⟨m, hm⟩ : ∃ m, m = ({ s.system.fresh with timer_switch_ofl_mode := false } : Mnld) :=
        ⟨_, rfl⟩
      have hexit : m.isAllHbdGpsClientExit = true := by
        rw [isAllHbdGpsClientExit_eq, hm]
        change (!s.system.mnld.isAHbdGpsClientExist) = true
        rw [hnone]
        rfl
      have hmnone : m.NoHbd := by
        rw [hm]
        exact hnone
      have hmaccount : Account (m.aided (s.ledgerAt .switchTimeout)) m := by
        rw [hm]
        exact ⟨haccount.due, haccount.passed, haccount.pending⟩
      have hcleared := (aside_clearClient m .flp).trans (aside_clearClient _ .geofence)
      have hclear : ((m.clearClient .flp).clearClient .geofence).Clear := by
        rw [hm]
        exact h.clear
      have hsent : ((m.clearClient .flp).clearClient .geofence).sent = [] := by rw [hm]; rfl
      have hstate : ((m.clearClient .flp).clearClient .geofence).gps_state =
          s.system.mnld.gps_state := by rw [hm]; rfl
      have htest : m.Used .flpTest ↔ s.system.mnld.Used .flpTest := by rw [hm]; rfl
      rw [← hm, if_pos hexit] at hsystem ⊢
      refine moves_of_keeps hsystem rfl
        (clear_fsm cfg 0 (hcleared.account hmaccount) .stop fun _ => hclear)
        (keeps_fsm cfg 0 (hcleared.account hmaccount) .stop) hsent rfl ?_
      change (s.system.engine.started && (s.ledgerAt .switchTimeout).pending && _) = true ↔ _
      rw [haccount.pending, Bool.and_eq_true, Bool.and_eq_true, started_iff h.system, acksReset,
        hstate]
      cases hst : s.system.mnld.gps_state with
      | started =>
        have hleft : (!((m.clearClient .flp).clearClient .geofence).isAllGpsClientExit) = true ↔
            s.system.mnld.Used .flpTest := by
          rw [Bool.not_eq_true', ← Bool.not_eq_true, ← exists_used_iff, ← htest]
          constructor
          · rintro ⟨c, hc⟩
            exact ((used_cleared_iff hmnone c).mp hc).2
          · exact fun hu => ⟨.flpTest, (used_cleared_iff hmnone _).mpr ⟨rfl, hu⟩⟩
        rw [hleft]
        constructor
        · rintro ⟨⟨-, hneed⟩, hu⟩ hwaits
          exact hwaits hneed hst htimer hnone hu
        · intro hnot
          by_contra hfalse
          exact hnot fun hneed _ _ _ hu => hfalse ⟨⟨.inl rfl, hneed⟩, hu⟩
      | oflStarted =>
        refine iff_of_false (fun hacks => ?_) (not_not_intro fun _ hstarted => ?_)
        · rw [Bool.or_eq_true] at hacks
          rcases hacks.2 with hu | hu
          · exact absurd ((used_cleared_iff hmnone .flp).mp hu).1 (by rintro ⟨⟩)
          · exact absurd ((used_cleared_iff hmnone .geofence).mp hu).1 (by rintro ⟨⟩)
        · exact absurd (hst.symm.trans hstarted) (by rintro ⟨⟩)
      | idle | starting | stopping | oflStarting | oflStopping =>
        refine iff_of_false (fun hacks => ?_) (not_not_intro fun _ hstarted => ?_)
        · rcases hacks.1.1 with heq | heq <;> cases heq
        · exact absurd (hst.symm.trans hstarted) (by rintro ⟨⟩)

/-- Every step. -/
theorem moves_step (h : s.Inv) (hstep : s.step cfg input = some s') : s.Moves input s' := by
  obtain ⟨hnot, hs'⟩ := Option.ite_none_left_eq_some.mp hstep
  obtain rfl := Option.some.inj hs'
  cases input with
  | answer si_assist_req => exact moves_answer cfg h si_assist_req
  | resetDone => exact moves_resetDone cfg h fun hresets => hnot ⟨rfl, hresets⟩
  | switchTimeout => exact moves_switchTimeout cfg h
  | request r =>
    by_cases hr : r = .agpsResetGpsReq 0
    · subst hr
      rw [if_pos rfl]
      exact moves_noFlags cfg h
    · rw [if_neg fun heq => hr (GpsInput.request.inj heq)]
      exact moves_request cfg h hr

/-- A reset that is not outstanding is not answered. -/
theorem waits_of_stuck (hstep : s.step cfg input = none) : s.Waits input := by
  unfold step at hstep
  split at hstep
  · rename_i hstuck
    obtain ⟨rfl, hresets⟩ := hstuck
    exact fun _ _ hne => absurd hresets hne
  · cases hstep

theorem Inv.passes (h : s.Inv) : s.Passes := ⟨h.account.due, h.account.passed, h.clear⟩

theorem deletes_iff (h : s.Inv) : s.Deletes ↔ s.ledger.early = false :=
  ⟨fun hd => hd.waited, fun hearly => ⟨h.passes, hearly⟩⟩

end AidingSystem

theorem aidingSystem_init_inv (cfg : MnldCfg) (session : Client → Session) :
    (aidingSystem cfg session).init.Inv :=
  ⟨gpsSystem_init_inv cfg session, ⟨rfl, rfl, rfl⟩, nofun⟩

/-- On every run, each flag that is asked for is passed to the engine once, with the next start or
reset, and nothing is due in the started state; and the AGPS client is not acknowledged before its
reset is done, while the engine is started, exactly if nobody opens or leaves the receiver while it
waits. -/
theorem aidingSystem_deletes_iff (cfg : MnldCfg) (session : Client → Session)
    (inputs : List GpsInput) :
    (aidingSystem cfg session).Along AidingSystem.Passes (aidingSystem cfg session).init inputs ∧
      ((aidingSystem cfg session).Along AidingSystem.Deletes (aidingSystem cfg session).init
          inputs ↔
        (aidingSystem cfg session).Meets AidingSystem.Waits (aidingSystem cfg session).init
          inputs) := by
  have hinit := aidingSystem_init_inv cfg session
  have hinv : ∀ s input s', AidingSystem.Inv s →
      (aidingSystem cfg session).step s input = some s' → s'.Inv :=
    fun s input s' h hstep => (AidingSystem.moves_step h hstep).inv
  refine ⟨(aidingSystem cfg session).along_of_invariant hinv (fun s h => h.passes) hinit inputs,
    (aidingSystem cfg session).along_iff_meets_of_stuck
      (fun s input hstep => AidingSystem.waits_of_stuck hstep) hinv
      (fun s input s' h hd hstep => ?_) hinit ((AidingSystem.deletes_iff hinit).mpr rfl) inputs⟩
  have hmoves := AidingSystem.moves_step h hstep
  rw [AidingSystem.deletes_iff hmoves.inv]
  exact hmoves.early hd.waited

/-- With the engine started, the answer to the reset of another client acknowledges the AGPS
client, and so does a client that opens the receiver before any answer. -/
theorem aidingSystem_not_deletes :
    ¬ (aidingSystem ⟨false, 0⟩ apSessions).Along AidingSystem.Deletes
        (aidingSystem ⟨false, 0⟩ apSessions).init
        [.request .halGpsStart, .answer 0, .request (.halGpsDeleteAidingData 1),
          .request (.agpsResetGpsReq 2), .resetDone] ∧
      ¬ (aidingSystem ⟨false, 0⟩ apSessions).Along AidingSystem.Deletes
        (aidingSystem ⟨false, 0⟩ apSessions).init
        [.request .halGpsStart, .answer 0, .request (.agpsResetGpsReq 2),
          .request .flpTestGpsStart] := by
  constructor
  · intro h
    have hlast := ((((h.2 _ rfl).2 _ rfl).2 _ rfl).2 _ rfl).2 _ rfl
    exact absurd hlast.waited (by decide)
  · intro h
    have hlast := (((h.2 _ rfl).2 _ rfl).2 _ rfl).2 _ rfl
    exact absurd hlast.waited (by decide)

end MtkHw.Gps
