import MtkHw.Gps.Session
import Mathlib.Tactic.Common

/-!
# The wakelock of the receiver

The handlers of the daemon also ask the framework to keep the processor awake, and no handler reads
what they have asked for.  It is modelled beside them: in the modes that the host serves, a session
asks when it starts and gives back when it has ended (`idle`, `stopped`); in the offload modes a
latch follows the clients, at every entry of the machine (`latch`).

A session that starts in one mode can end in the other.  With the mode chosen by the sessions of
the offload clients, that is where the wakelock is lost or asked for twice (`Matched`).
-/

namespace MtkHw.Gps

open Lib

/-! ## Requests and releases -/

/-- What is sent to the framework. -/
inductive WakelockMsg where
  | request
  | release
  deriving DecidableEq, Repr

/-- Whether the wakelock is held, while requests and releases alternate. -/
def holds : List WakelockMsg → Option Bool :=
  List.foldl (fun held msg =>
    match held, msg with
    | some false, .request => some true
    | some true, .release => some false
    | _, _ => none) (some false)

/-- The latch of `mnld_fsm`, and what was sent. -/
structure Wakelock where
  mnld_fsm_offload_lp_mode : Bool
  mnld_fsm_offload_fwk_wakelock : Bool
  sent : List WakelockMsg
  deriving DecidableEq, Repr

/-- The receiver serves the offload clients. -/
def Mnld.offloadMode (m : Mnld) (cfg : MnldCfg) : Bool :=
  cfg.OFFLOAD_enabled && (m.offloadIsAutoMode cfg || Mnld.offloadIsAlwaysOnMode cfg)

namespace Wakelock

variable (w : Wakelock)

def requestWakelock : Wakelock := { w with sent := w.sent ++ [.request] }

def releaseWakelock : Wakelock := { w with sent := w.sent ++ [.release] }

/-- The latch, before a handler runs: without a host based user the low-power mode is entered. -/
def latch (cfg : MnldCfg) (m : Mnld) : Wakelock :=
  if m.offloadMode cfg then
    if m.isAllHbdGpsClientExit then
      if w.mnld_fsm_offload_lp_mode then w
      else
        let w := if w.mnld_fsm_offload_fwk_wakelock then
          { w.releaseWakelock with mnld_fsm_offload_fwk_wakelock := false } else w
        { w with mnld_fsm_offload_lp_mode := true }
    else
      if w.mnld_fsm_offload_lp_mode then
        { w.requestWakelock with
          mnld_fsm_offload_lp_mode := false, mnld_fsm_offload_fwk_wakelock := true }
      else w
  else w

/-- The part of `fsm_gps_state_idle`. -/
def idle (cfg : MnldCfg) (m : Mnld) : GpsEvent → Wakelock
  | .start | .offloadStart => if m.offloadMode cfg then w else w.requestWakelock
  | _ => w

/-- A session has ended. -/
def stopped (cfg : MnldCfg) (m : Mnld) : Wakelock :=
  if m.offloadMode cfg then w else w.releaseWakelock

/-- The part of `fsm_gps_state_stopping`. -/
def stopping (cfg : MnldCfg) (m : Mnld) : GpsEvent → Wakelock
  | .stopDone =>
    let m := m.doGpsStoppedHdlr cfg
    if m.isAGpsClientExist then w else w.stopped cfg m
  | _ => w

/-- The part of `fsm_gps_state_ofl_stopping`; with a host based client, the machine is entered
again. -/
def oflStopping (cfg : MnldCfg) (m : Mnld) : GpsEvent → Wakelock
  | .stopDone =>
    let m := m.doGpsStoppedHdlr cfg
    if (m.isFlpUserExist || m.isGeofenceUserExist) && m.isAllHbdGpsClientExit then w
    else
      let w := w.stopped cfg m
      let m := m.setState .idle
      if m.isAHbdGpsClientExist then
        let m := m.switchSessions .apMode
        (w.latch cfg m).idle cfg m .start
      else w
  | _ => w

/-- The part of `mnld_fsm`. -/
def fsm (cfg : MnldCfg) (m : Mnld) (event : GpsEvent) : Wakelock :=
  let w := w.latch cfg m
  match m.gps_state with
  | .idle => w.idle cfg m event
  | .stopping => w.stopping cfg m event
  | .oflStopping => w.oflStopping cfg m event
  | .starting | .started | .oflStarting | .oflStarted => w

end Wakelock

/-! ## Events -/

/-- What can happen to the daemon: a request, an answer of the engine, and its timers. -/
inductive MnldInput where
  | request (r : GpsRequest)
  | startDone (si_assist_req : Int)
  | stopDone
  | resetDone
  | switchTimeout
  | nmeaTimeout
  deriving DecidableEq, Repr

namespace Mnld

variable (m : Mnld)

/-- `mtk_gps_clear_gps_user`. -/
def clearGpsUser : Mnld :=
  { m with clients := fun c => { m.clients c with gps_used := false } }

/-- `mnld_is_gps_started_done`. -/
def isGpsStartedDone : Bool := m.gps_state = .started || m.gps_state = .oflStarted

/-- The flags of a client that opens the receiver. -/
def opening (c : Client) (need_open_ack : Bool) : Mnld :=
  m.setClient c { m.clients c with
    gps_used := true, need_open_ack := need_open_ack, need_close_ack := false }

/-- The flags of a client that closes the receiver. -/
def closing (c : Client) (need_close_ack : Bool) : Mnld :=
  m.setClient c { m.clients c with
    gps_used := false, need_open_ack := false, need_close_ack := need_close_ack }

/-- The flags of a client that starts anew. -/
def rebooting (c : Client) : Mnld := m.setClient c ⟨false, false, false, false⟩

/-- The session of a client in offload mode. -/
def linking (c : Client) : Mnld := m.setSession c { m.session c with type := .oflMode }

/-- The flags that are asked to be deleted. -/
def deleting (c : Client) (need_reset_ack : Bool) (flags : Nat) : Mnld :=
  { m.setClient c { m.clients c with need_reset_ack := need_reset_ack } with
    delete_aiding_flag := m.delete_aiding_flag ||| flags }

end Mnld

/-- The entry of `mnld_fsm` at a request. -/
def GpsRequest.enter (m : Mnld) : GpsRequest → Option (Mnld × GpsEvent)
  | halReboot => some (m.rebooting .hal, .stop)
  | halGpsStart => some (m.opening .hal true, .start)
  | halGpsStop => some (m.closing .hal true, .stop)
  | halGpsDeleteAidingData flags => some (m.deleting .hal false flags, .reset)
  | agpsReboot => some (m.rebooting .agps, .stop)
  | agpsOpenGpsReq => some (m.opening .agps true, .start)
  | agpsCloseGpsReq => some (m.closing .agps true, .stop)
  | agpsResetGpsReq flags => if flags = 0 then none else some (m.deleting .agps true flags, .reset)
  | flpReboot => some (m.rebooting .flp, .stop)
  | flpHbdGpsOpen => some (m.opening .flp true, .start)
  | flpHbdGpsClose => some (m.closing .flp true, .stop)
  | flpOflLinkOpen => some ((m.linking .flp).opening .flp true, .offloadStart)
  | flpOflLinkClose => some (m.closing .flp true, .stop)
  | gfcReboot => some (m.rebooting .geofence, .stop)
  | gfcHbdGpsOpen => some (m.opening .geofence true, .start)
  | gfcHbdGpsClose => some (m.closing .geofence true, .stop)
  | gfcOflLinkOpen => some ((m.linking .geofence).opening .geofence true, .offloadStart)
  | gfcOflLinkClose => some (m.closing .geofence true, .stop)
  | flpTestGpsStart => some (m.opening .flpTest false, .start)
  | flpTestGpsStop => some (m.closing .flpTest false, .stop)
  | factoryMnldGpsStart => some (m.opening .factory false, .start)
  | factoryMnldGpsStop => some (m.closing .factory false, .stop)
  | atTestGpsStart => some (m.opening .atCmdTest false, .start)
  | atTestGpsStop => some (m.closing .atCmdTest false, .stop)

/-- The entry of `mnld_fsm` at an event, if it is entered. -/
def MnldInput.enter (m : Mnld) : MnldInput → Option (Mnld × GpsEvent)
  | request r => r.enter m
  | startDone _ => some (m, .startDone)
  | stopDone => some (m, .stopDone)
  | resetDone => none
  | switchTimeout =>
    if m.timer_switch_ofl_mode && m.isAllHbdGpsClientExit then
      some ((({ m with timer_switch_ofl_mode := false }).clearClient .flp).clearClient .geofence,
        .stop)
    else none
  | nmeaTimeout => if m.isGpsStartedDone then some (m.clearGpsUser, .stop) else none

/-- What the daemon does at an event. -/
def MnldInput.handle (cfg : MnldCfg) (m : Mnld) : MnldInput → Mnld
  | request r => r.handle cfg m
  | startDone si_assist_req => m.fsm cfg .startDone si_assist_req
  | stopDone => m.fsm cfg .stopDone 0
  | resetDone => m.doGpsResetHdlr
  | switchTimeout =>
    if m.timer_switch_ofl_mode then
      ({ m with timer_switch_ofl_mode := false }).gpsSwitchOflModeTimeout cfg
    else m
  | nmeaTimeout => if m.isGpsStartedDone then m.clearGpsUser.fsm cfg .stop 0 else m

/-- The daemon with its wakelock. -/
structure WakeSystem where
  mnld : Mnld
  wakelock : Wakelock

namespace WakeSystem

/-- One event. -/
def next (cfg : MnldCfg) (s : WakeSystem) (input : MnldInput) : WakeSystem where
  mnld := input.handle cfg s.mnld
  wakelock :=
    match input.enter s.mnld with
    | some (m, event) => s.wakelock.fsm cfg m event
    | none => s.wakelock

/-- The wakelock matches the use of the receiver. -/
structure Awake (cfg : MnldCfg) (s : WakeSystem) : Prop where
  alternates : ∃ held, holds s.wakelock.sent = some held
  host : cfg.OFFLOAD_enabled = false →
    (holds s.wakelock.sent = some true ↔ s.mnld.gps_state ≠ .idle)
  used : cfg.OFFLOAD_enabled = true →
    (∃ c, c ≠ .flp ∧ c ≠ .flpTest ∧ c ≠ .geofence ∧ s.mnld.Used c) →
      holds s.wakelock.sent = some true
  unused : cfg.OFFLOAD_enabled = true → s.mnld.gps_state = .idle → (∀ c, ¬ s.mnld.Used c) →
    holds s.wakelock.sent = some false

/-- With the offload mode always on, the first client to come is no host based one.  With the mode
chosen by the sessions, no host based client is in the low-power mode of a session that the host
has started; such a session does not end in offload mode; and no offload session ends with a host
based client. -/
def Matched (cfg : MnldCfg) (s : WakeSystem) (input : MnldInput) : Prop :=
  ∀ m event, input.enter s.mnld = some (m, event) →
    (Mnld.offloadIsAlwaysOnMode cfg = true → m.isAHbdGpsClientExist = true →
      s.wakelock.mnld_fsm_offload_lp_mode = true ∨
        s.wakelock.mnld_fsm_offload_fwk_wakelock = true) ∧
    (Mnld.supportAutoSwitchMode cfg = true →
      (m.gps_state = .starting ∨ m.gps_state = .started ∨ m.gps_state = .stopping →
        m.offloadMode cfg = true → m.isAHbdGpsClientExist = true →
          s.wakelock.mnld_fsm_offload_lp_mode = false) ∧
      (event = .stopDone → m.gps_state = .stopping → m.isAllGpsClientExit = true →
        m.offloadMode cfg = false) ∧
      (event = .stopDone → m.gps_state = .oflStopping → m.isAHbdGpsClientExist = false))

end WakeSystem

/-- The sessions of the offload clients when the daemon starts, on a chip with the offload mode or
without. -/
def startSessions (capable : Bool) : Client → Session := fun _ =>
  if capable then ⟨.apOflMode, .apOflMode, 1⟩ else ⟨.apMode, .apMode, 1⟩

def wakeSystem (cfg : MnldCfg) (capable : Bool) : Machine WakeSystem MnldInput where
  init := ⟨.initial (startSessions capable), ⟨false, false, []⟩⟩
  step s input := some (s.next cfg input)

/-! ## The entry of the machine -/

/-- What is entered is what the daemon does. -/
theorem GpsRequest.handle_of_enter {cfg : MnldCfg} {m m' : Mnld} {r : GpsRequest}
    {event : GpsEvent} (h : r.enter m = some (m', event)) :
    r.handle cfg m = m'.fsm cfg event 0 := by
  cases r with
  | agpsResetGpsReq flags =>
    obtain ⟨hflags, h⟩ := Option.ite_none_left_eq_some.mp h
    cases h
    exact if_neg hflags
  | _ =>
    cases h
    rfl

theorem MnldInput.handle_of_enter (cfg : MnldCfg) {m m' : Mnld} {input : MnldInput}
    {event : GpsEvent} (h : input.enter m = some (m', event)) :
    ∃ data1, input.handle cfg m = m'.fsm cfg event data1 := by
  cases input with
  | request r => exact ⟨0, GpsRequest.handle_of_enter h⟩
  | startDone si_assist_req =>
    cases h
    exact ⟨si_assist_req, rfl⟩
  | stopDone =>
    cases h
    exact ⟨0, rfl⟩
  | resetDone => cases h
  | switchTimeout =>
    obtain ⟨hcond, h⟩ := Option.ite_none_right_eq_some.mp h
    cases h
    obtain ⟨htimer, hexit⟩ := Bool.and_eq_true_iff.mp hcond
    refine ⟨0, ?_⟩
    rw [handle, if_pos htimer]
    exact if_pos hexit
  | nmeaTimeout =>
    obtain ⟨hcond, h⟩ := Option.ite_none_right_eq_some.mp h
    cases h
    exact ⟨0, if_pos hcond⟩

namespace Mnld

variable {cfg : MnldCfg} {m m' m₁ : Mnld} {event : GpsEvent}

/-- State, users and sessions are what the wakelock depends on. -/
structure Alike (m m' : Mnld) : Prop where
  state : m'.gps_state = m.gps_state
  used : ∀ c, (m'.clients c).gps_used = (m.clients c).gps_used
  session : m'.session = m.session

theorem Quietly.alike (h : Quietly m m') : Alike m m' := ⟨h.state, h.used, h.session⟩

namespace Alike

theorem hbd (h : Alike m m') : m'.isAHbdGpsClientExist = m.isAHbdGpsClientExist := by
  simp only [isAHbdGpsClientExist, h.used]

theorem exit (h : Alike m m') : m'.isAllGpsClientExit = m.isAllGpsClientExit := by
  simp only [isAllGpsClientExit, h.used]

theorem offloadMode (h : Alike m m') (cfg : MnldCfg) : m'.offloadMode cfg = m.offloadMode cfg := by
  unfold Mnld.offloadMode offloadIsAutoMode
  rw [h.session]

end Alike

/-- Without an entry of the machine nothing changes for the wakelock. -/
theorem alike_of_not_entered {input : MnldInput} (h : input.enter m = none) :
    Alike m (input.handle cfg m) := by
  cases input with
  | request r =>
    cases r with
    | agpsResetGpsReq flags =>
      have hflags : flags = 0 := by
        by_contra hne
        rw [MnldInput.enter, GpsRequest.enter, if_neg hne] at h
        cases h
      subst hflags
      exact ⟨rfl, fun _ => rfl, rfl⟩
    | _ => cases h
  | startDone _ | stopDone => cases h
  | resetDone => exact (quietly_doGpsResetHdlr m).alike
  | switchTimeout =>
    rw [MnldInput.handle, gpsSwitchOflModeTimeout]
    split
    · rename_i htimer
      split
      · rename_i hexit
        have hcond : (m.timer_switch_ofl_mode && m.isAllHbdGpsClientExit) = true :=
          Bool.and_eq_true_iff.mpr ⟨htimer, hexit⟩
        rw [MnldInput.enter, if_pos hcond] at h
        cases h
      · exact ⟨rfl, fun _ => rfl, rfl⟩
    · exact ⟨rfl, fun _ => rfl, rfl⟩
  | nmeaTimeout =>
    rw [MnldInput.handle]
    split
    · rename_i hstarted
      rw [MnldInput.enter, if_pos hstarted] at h
      cases h
    · exact ⟨rfl, fun _ => rfl, rfl⟩

/-- What an entry writes before the machine runs: a host based client comes with a start only, and
a session is an offload one with the start of the offload mode only. -/
structure Enters (m m₁ : Mnld) (event : GpsEvent) : Prop where
  state : m₁.gps_state = m.gps_state
  hbd : m₁.isAHbdGpsClientExist = true → m.isAHbdGpsClientExist = true ∨ event = .start
  session : event ≠ .offloadStart → m₁.session = m.session
  link : event = .offloadStart →
    (m₁.session .flp).type = .oflMode ∨ (m₁.session .geofence).type = .oflMode
  answer : event = .startDone ∨ event = .stopDone → m₁ = m

theorem isAHbdGpsClientExist_iff : m.isAHbdGpsClientExist = true ↔
    ∃ c, c ≠ .flp ∧ c ≠ .flpTest ∧ c ≠ .geofence ∧ m.Used c := by
  simp only [isAHbdGpsClientExist, Bool.or_eq_true]
  constructor
  · rintro (((h | h) | h) | h)
    · exact ⟨.hal, by rintro ⟨⟩, by rintro ⟨⟩, by rintro ⟨⟩, h⟩
    · exact ⟨.agps, by rintro ⟨⟩, by rintro ⟨⟩, by rintro ⟨⟩, h⟩
    · exact ⟨.atCmdTest, by rintro ⟨⟩, by rintro ⟨⟩, by rintro ⟨⟩, h⟩
    · exact ⟨.factory, by rintro ⟨⟩, by rintro ⟨⟩, by rintro ⟨⟩, h⟩
  · rintro ⟨c, h1, h2, h3, h⟩
    cases c with
    | hal => exact .inl (.inl (.inl h))
    | agps => exact .inl (.inl (.inr h))
    | atCmdTest => exact .inl (.inr h)
    | factory => exact .inr h
    | flp => exact absurd rfl h1
    | flpTest => exact absurd rfl h2
    | geofence => exact absurd rfl h3

/-- Host based clients come from host based clients. -/
theorem hbd_of_used (h : ∀ c, m₁.Used c → m.Used c) (hhbd : m₁.isAHbdGpsClientExist = true) :
    m.isAHbdGpsClientExist = true := by
  obtain ⟨c, h1, h2, h3, hc⟩ := isAHbdGpsClientExist_iff.mp hhbd
  exact isAHbdGpsClientExist_iff.mpr ⟨c, h1, h2, h3, h c hc⟩

/-- An entry after which nobody is new. -/
theorem enters_of_used (hstate : m₁.gps_state = m.gps_state) (hsession : m₁.session = m.session)
    (hused : ∀ c, m₁.Used c → m.Used c) (hevent : event = .stop ∨ event = .reset) :
    Enters m m₁ event := by
  refine ⟨hstate, fun h => .inl (hbd_of_used hused h), fun _ => hsession, ?_, ?_⟩
  · rintro rfl
    rcases hevent with h | h <;> cases h
  · rintro (rfl | rfl)
    · rcases hevent with h | h <;> cases h
    · rcases hevent with h | h <;> cases h

theorem enters_opening (m : Mnld) (c : Client) (ack : Bool) :
    Enters m (m.opening c ack) .start :=
  ⟨rfl, fun _ => .inr rfl, fun _ => rfl, nofun, by rintro (h | h) <;> cases h⟩

theorem enters_closing (m : Mnld) (c : Client) (ack : Bool) :
    Enters m (m.closing c ack) .stop :=
  enters_of_used rfl rfl (fun _ hc => used_of_used_setClient hc (.inr rfl)) (.inl rfl)

theorem enters_rebooting (m : Mnld) (c : Client) : Enters m (m.rebooting c) .stop :=
  enters_of_used rfl rfl (fun _ hc => used_of_used_setClient hc (.inr rfl)) (.inl rfl)

theorem enters_deleting (m : Mnld) (c : Client) (ack : Bool) (flags : Nat) :
    Enters m (m.deleting c ack flags) .reset := by
  refine enters_of_used rfl rfl (fun c' hc => ?_) (.inr rfl)
  have hsame := (@quietly_setClient m c { m.clients c with need_reset_ack := ack } rfl).used c'
  exact hsame.symm.trans hc

/-- An offload client opens the receiver. -/
theorem enters_linking (m : Mnld) {c : Client} (hc : c = .flp ∨ c = .geofence) (ack : Bool) :
    Enters m ((m.linking c).opening c ack) .offloadStart := by
  refine ⟨rfl, fun h => .inl ?_, fun hne => absurd rfl hne, fun _ => ?_,
    by rintro (h | h) <;> cases h⟩
  · obtain ⟨c', h1, h2, h3, hu⟩ := isAHbdGpsClientExist_iff.mp h
    have hne : c' ≠ c := by
      rcases hc with rfl | rfl
      · exact h1
      · exact h3
    exact isAHbdGpsClientExist_iff.mpr
      ⟨c', h1, h2, h3, used_of_used_setClient hu (.inl hne)⟩
  · rcases hc with rfl | rfl
    · exact .inl rfl
    · exact .inr rfl

/-- What every entry writes. -/
theorem enters_of_enter {input : MnldInput} (h : input.enter m = some (m₁, event)) :
    Enters m m₁ event := by
  cases input with
  | request r =>
    cases r with
    | halGpsStart | agpsOpenGpsReq | flpHbdGpsOpen | gfcHbdGpsOpen | flpTestGpsStart
    | factoryMnldGpsStart | atTestGpsStart =>
      cases h
      exact enters_opening m _ _
    | halGpsStop | agpsCloseGpsReq | flpHbdGpsClose | flpOflLinkClose | gfcHbdGpsClose
    | gfcOflLinkClose | flpTestGpsStop | factoryMnldGpsStop | atTestGpsStop =>
      cases h
      exact enters_closing m _ _
    | halReboot | agpsReboot | flpReboot | gfcReboot =>
      cases h
      exact enters_rebooting m _
    | halGpsDeleteAidingData flags =>
      cases h
      exact enters_deleting m _ _ _
    | agpsResetGpsReq flags =>
      obtain ⟨-, h⟩ := Option.ite_none_left_eq_some.mp h
      cases h
      exact enters_deleting m _ _ _
    | flpOflLinkOpen =>
      cases h
      exact enters_linking m (.inl rfl) _
    | gfcOflLinkOpen =>
      cases h
      exact enters_linking m (.inr rfl) _
  | startDone _ =>
    cases h
    exact ⟨rfl, .inl, fun _ => rfl, nofun, fun _ => rfl⟩
  | stopDone =>
    cases h
    exact ⟨rfl, .inl, fun _ => rfl, nofun, fun _ => rfl⟩
  | resetDone => cases h
  | switchTimeout =>
    obtain ⟨-, h⟩ := Option.ite_none_right_eq_some.mp h
    cases h
    refine enters_of_used rfl rfl (fun c hc => ?_) (.inl rfl)
    exact used_of_used_setClient (used_of_used_setClient hc (.inr rfl)) (.inr rfl)
  | nmeaTimeout =>
    obtain ⟨-, h⟩ := Option.ite_none_right_eq_some.mp h
    cases h
    exact enters_of_used rfl rfl (fun c hc => absurd hc Bool.false_ne_true) (.inl rfl)

/-! ## What the machine leaves -/

theorem hbd_congr (h : ∀ c, c ≠ .flp → c ≠ .geofence → (m'.Used c ↔ m.Used c)) :
    m'.isAHbdGpsClientExist = m.isAHbdGpsClientExist := by
  rw [Bool.eq_iff_iff, isAHbdGpsClientExist_iff, isAHbdGpsClientExist_iff]
  exact exists_congr fun _ => and_congr_right fun h1 => and_congr_right fun _ =>
    and_congr_right fun h3 => h _ h1 h3

theorem hbd_switchSessions (m : Mnld) (type : Capability) :
    (m.switchSessions type).isAHbdGpsClientExist = m.isAHbdGpsClientExist :=
  hbd_congr fun _ h1 h3 => switchSessions_used.trans
    ⟨fun h => h.1, fun h => ⟨h, fun hc => (hc.elim h1 h3).elim⟩⟩

theorem hbd_clearClients (m : Mnld) :
    ((m.clearClient .flp).clearClient .geofence).isAHbdGpsClientExist =
      m.isAHbdGpsClientExist := by
  refine hbd_congr fun c h1 h3 => ?_
  unfold Used clearClient setClient
  dsimp only
  rw [if_neg h3, if_neg h1]

theorem type_switchSession (m : Mnld) (c : Client) (type : Capability) :
    ((m.switchSession c type).session c).type = type := by
  unfold switchSession
  split
  · exact congrArg Session.type (if_pos rfl)
  · exact congrArg Session.type (if_pos rfl)

/-! ## The three modes -/

/-- With the mode chosen by the sessions, they are asked. -/
theorem offloadMode_iff (hauto : supportAutoSwitchMode cfg = true) (m : Mnld) :
    m.offloadMode cfg = true ↔
      (m.session .flp).type = .oflMode ∨ (m.session .geofence).type = .oflMode := by
  obtain ⟨hon, hmode⟩ := Bool.and_eq_true_iff.mp hauto
  have hmode' := decide_eq_true_iff.mp hmode
  unfold offloadMode offloadIsAutoMode offloadIsAlwaysOnMode
  rw [hon, hmode']
  simp

theorem offloadMode_of_alwaysOn (hon : offloadIsAlwaysOnMode cfg = true) (m : Mnld) :
    m.offloadMode cfg = true := by
  unfold offloadMode
  rw [hon, Bool.or_true, Bool.and_true]
  exact (Bool.and_eq_true_iff.mp hon).1

theorem offloadMode_of_host (hauto : supportAutoSwitchMode cfg = false)
    (hon : offloadIsAlwaysOnMode cfg = false) (m : Mnld) : m.offloadMode cfg = false := by
  unfold supportAutoSwitchMode at hauto
  unfold offloadMode offloadIsAutoMode
  rw [hon, hauto, Bool.false_and, Bool.or_false, Bool.and_false]

theorem alwaysOn_eq_false (hauto : supportAutoSwitchMode cfg = true) :
    offloadIsAlwaysOnMode cfg = false := by
  obtain ⟨-, hmode⟩ := Bool.and_eq_true_iff.mp hauto
  unfold offloadIsAlwaysOnMode
  rw [decide_eq_true_iff.mp hmode]
  exact Bool.and_false _

/-- A switch of the sessions to a mode of the host ends the offload mode. -/
theorem offloadMode_switchSessions (hauto : supportAutoSwitchMode cfg = true) (m : Mnld)
    {type : Capability} (htype : type ≠ .oflMode) :
    (m.switchSessions type).offloadMode cfg = false := by
  have hgfc : ((m.switchSessions type).session .geofence).type = type :=
    type_switchSession (m.switchSession .flp type) .geofence type
  have hflp : ((m.switchSessions type).session .flp).type = type := by
    rw [switchSessions, (switched_switchSession _ .geofence type).session .flp (by rintro ⟨⟩)]
    exact type_switchSession m .flp type
  rw [← Bool.not_eq_true, offloadMode_iff hauto, hflp, hgfc]
  exact fun h => htype (h.elim id id)

end Mnld

/-! ## The latch -/

theorem holds_append (xs : List WakelockMsg) (msg : WakelockMsg) :
    holds (xs ++ [msg]) =
      match holds xs, msg with
      | some false, .request => some true
      | some true, .release => some false
      | _, _ => none := by
  rw [holds, List.foldl_append]
  rfl

namespace Wakelock

variable {cfg : MnldCfg} {m : Mnld} {w : Wakelock} {event : GpsEvent}

theorem latch_of_host (h : m.offloadMode cfg = false) (w : Wakelock) : w.latch cfg m = w := by
  rw [latch, h, if_neg Bool.false_ne_true]

/-- In offload mode with a host based client. -/
theorem latch_of_hbd (h : m.offloadMode cfg = true) (hhbd : m.isAHbdGpsClientExist = true)
    (w : Wakelock) : w.latch cfg m =
      if w.mnld_fsm_offload_lp_mode then
        { w.requestWakelock with
          mnld_fsm_offload_lp_mode := false, mnld_fsm_offload_fwk_wakelock := true }
      else w := by
  rw [latch, h, if_pos rfl, Mnld.isAllHbdGpsClientExit_eq, hhbd, Bool.not_true,
    if_neg Bool.false_ne_true]

/-- In offload mode without one. -/
theorem latch_of_noHbd (h : m.offloadMode cfg = true) (hhbd : m.isAHbdGpsClientExist = false)
    (w : Wakelock) : w.latch cfg m =
      if w.mnld_fsm_offload_lp_mode then w
      else { (if w.mnld_fsm_offload_fwk_wakelock then
          { w.releaseWakelock with mnld_fsm_offload_fwk_wakelock := false } else w) with
        mnld_fsm_offload_lp_mode := true } := by
  rw [latch, h, if_pos rfl, Mnld.isAllHbdGpsClientExit_eq, hhbd, Bool.not_false, if_pos rfl]

/-! ## What is broken stays broken -/

/-- Requests and releases do not alternate. -/
def Broken (w : Wakelock) : Prop := holds w.sent = none

theorem Broken.request (h : w.Broken) : w.requestWakelock.Broken := by
  unfold Broken at h ⊢
  rw [requestWakelock, holds_append, h]

theorem Broken.release (h : w.Broken) : w.releaseWakelock.Broken := by
  unfold Broken at h ⊢
  rw [releaseWakelock, holds_append, h]

theorem Broken.latch (h : w.Broken) (cfg : MnldCfg) (m : Mnld) : (w.latch cfg m).Broken := by
  unfold Wakelock.latch
  split
  · split
    · split
      · exact h
      · dsimp only
        split
        · exact h.release
        · exact h
    · split
      · exact h.request
      · exact h
  · exact h

theorem Broken.idle (h : w.Broken) (cfg : MnldCfg) (m : Mnld) (event : GpsEvent) :
    (w.idle cfg m event).Broken := by
  unfold Wakelock.idle
  split
  · split
    · exact h
    · exact h.request
  · split
    · exact h
    · exact h.request
  · exact h

theorem Broken.stopped (h : w.Broken) (cfg : MnldCfg) (m : Mnld) :
    (w.stopped cfg m).Broken := by
  unfold Wakelock.stopped
  split
  · exact h
  · exact h.release

/-- What a handler does with the wakelock, after the latch. -/
def handler (w : Wakelock) (cfg : MnldCfg) (m : Mnld) (event : GpsEvent) : Wakelock :=
  match m.gps_state with
  | .idle => w.idle cfg m event
  | .stopping => w.stopping cfg m event
  | .oflStopping => w.oflStopping cfg m event
  | .starting | .started | .oflStarting | .oflStarted => w

theorem fsm_eq (w : Wakelock) (cfg : MnldCfg) (m : Mnld) (event : GpsEvent) :
    w.fsm cfg m event = (w.latch cfg m).handler cfg m event := rfl

theorem Broken.handler (h : w.Broken) (cfg : MnldCfg) (m : Mnld) (event : GpsEvent) :
    (w.handler cfg m event).Broken := by
  unfold Wakelock.handler
  split
  · exact h.idle cfg m event
  · unfold stopping
    split
    · dsimp only
      split
      · exact h
      · exact h.stopped cfg _
    · exact h
  · unfold oflStopping
    split
    · dsimp only
      split
      · exact h
      · split
        · exact ((h.stopped cfg _).latch cfg _).idle cfg _ _
        · exact h.stopped cfg _
    · exact h
  all_goals exact h

/-- With the offload mode always on the handlers leave the wakelock to the latch, which the machine
meets again when it is entered again. -/
theorem handler_alwaysOn (w : Wakelock) (hon : Mnld.offloadIsAlwaysOnMode cfg = true) (m : Mnld)
    (event : GpsEvent) : ∃ m' : Mnld, m'.isAHbdGpsClientExist = m.isAHbdGpsClientExist ∧
      (w.handler cfg m event = w ∨ w.handler cfg m event = w.latch cfg m') := by
  have ho := Mnld.offloadMode_of_alwaysOn hon
  have hidle (m : Mnld) (w : Wakelock) (event : GpsEvent) : w.idle cfg m event = w := by
    unfold Wakelock.idle
    split
    · rw [ho, if_pos rfl]
    · rw [ho, if_pos rfl]
    · rfl
  have hstopped (m : Mnld) : w.stopped cfg m = w := by
    rw [Wakelock.stopped, ho, if_pos rfl]
  have hsame : (((m.doGpsStoppedHdlr cfg).setState .idle).switchSessions
      .apMode).isAHbdGpsClientExist = m.isAHbdGpsClientExist :=
    (Mnld.hbd_switchSessions _ _).trans (Mnld.quietly_doGpsStoppedHdlr m cfg).alike.hbd
  refine ⟨_, hsame, ?_⟩
  unfold Wakelock.handler
  split
  · exact .inl (hidle m w event)
  · left
    unfold stopping
    split
    · dsimp only
      rw [hstopped]
      split <;> rfl
    · rfl
  · unfold oflStopping
    split
    · dsimp only
      rw [hidle, hstopped]
      split
      · exact .inl rfl
      · split
        · exact .inr rfl
        · exact .inl rfl
    · exact .inl rfl
  all_goals exact .inl rfl

end Wakelock

/-! ## The offload mode always on -/

/-- The wakelock is held for a host based client. -/
structure Follows (hbd : Bool) (w : Wakelock) : Prop where
  held : holds w.sent = some hbd
  fwk : w.mnld_fsm_offload_fwk_wakelock = hbd
  lp : hbd = true → w.mnld_fsm_offload_lp_mode = false

namespace Follows

variable {cfg : MnldCfg} {m : Mnld} {hbd : Bool} {w : Wakelock} {event : GpsEvent}

/-- The latch follows the clients, once it has been in either mode. -/
theorem latch (h : Follows hbd w) (ho : m.offloadMode cfg = true)
    (hset : m.isAHbdGpsClientExist = true →
      w.mnld_fsm_offload_lp_mode = true ∨ w.mnld_fsm_offload_fwk_wakelock = true) :
    Follows m.isAHbdGpsClientExist (w.latch cfg m) := by
  obtain ⟨hheld, hfwk, hlp⟩ := h
  cases hhbd : m.isAHbdGpsClientExist with
  | true =>
    rw [Wakelock.latch_of_hbd ho hhbd]
    split
    · rename_i hlow
      have hno : hbd = false := by
        by_contra hyes
        exact Bool.false_ne_true ((hlp (Bool.not_eq_false _ ▸ hyes)).symm.trans hlow)
      subst hno
      refine ⟨?_, rfl, fun _ => rfl⟩
      change holds (w.sent ++ [.request]) = _
      rw [holds_append, hheld]
    · rename_i hlow
      have hyes : hbd = true := hfwk.symm.trans ((hset hhbd).resolve_left hlow)
      subst hyes
      exact ⟨hheld, hfwk, hlp⟩
  | false =>
    rw [Wakelock.latch_of_noHbd ho hhbd]
    split
    · rename_i hlow
      have hno : hbd = false := by
        by_contra hyes
        exact Bool.false_ne_true ((hlp (Bool.not_eq_false _ ▸ hyes)).symm.trans hlow)
      subst hno
      exact ⟨hheld, hfwk, nofun⟩
    · split
      · rename_i hset
        have hyes : hbd = true := hfwk.symm.trans hset
        subst hyes
        refine ⟨?_, rfl, nofun⟩
        change holds (w.sent ++ [.release]) = _
        rw [holds_append, hheld]
      · rename_i hnone
        have hno : hbd = false := hfwk.symm.trans (Bool.not_eq_true _ ▸ hnone)
        subst hno
        exact ⟨hheld, hfwk, nofun⟩

/-- The handlers leave the wakelock to the latch. -/
theorem handler (h : Follows m.isAHbdGpsClientExist w) (hon : Mnld.offloadIsAlwaysOnMode cfg = true)
    (event : GpsEvent) : Follows m.isAHbdGpsClientExist (w.handler cfg m event) := by
  obtain ⟨m', hm', hhandler | hhandler⟩ := w.handler_alwaysOn hon m event
  · rwa [hhandler]
  · rw [hhandler, ← hm']
    refine Follows.latch h (Mnld.offloadMode_of_alwaysOn hon m') fun hhbd => .inr ?_
    exact h.fwk.trans (hm'.symm.trans hhbd)

end Follows

namespace Mnld

variable {cfg : MnldCfg} {m m' : Mnld}

/-- Where the machine is, in which mode, and with which clients. -/
structure Leads (cfg : MnldCfg) (m m' : Mnld) (gps_state : GpsState) (ofl : Bool) : Prop where
  state : m'.gps_state = gps_state
  ofl : m'.offloadMode cfg = ofl
  hbd : m'.isAHbdGpsClientExist = m.isAHbdGpsClientExist

theorem Alike.leads (h : Alike m m') : Leads cfg m m' m.gps_state (m.offloadMode cfg) :=
  ⟨h.state, h.offloadMode cfg, h.hbd⟩

/-- A handler that changes the state, and is told apart by it only. -/
theorem Alike.leads_setState (h : Alike m m') {gps_state : GpsState} (m₁ : Mnld)
    (hstate : m₁.gps_state = gps_state) (hclients : m₁.clients = m'.clients)
    (hsession : m₁.session = m'.session) :
    Leads cfg m m₁ gps_state (m.offloadMode cfg) := by
  refine ⟨hstate, ?_, ?_⟩
  · rw [← h.offloadMode cfg]
    unfold Mnld.offloadMode offloadIsAutoMode
    rw [hsession]
  · rw [← h.hbd]
    unfold isAHbdGpsClientExist
    rw [hclients]

end Mnld

/-! ## The mode chosen by the sessions -/

/-- Between two sessions of the receiver. -/
structure IdleRow (ofl hbd : Bool) (w : Wakelock) : Prop where
  ofl : ofl = false
  hbd : hbd = false
  held : holds w.sent = some false
  fwk : w.mnld_fsm_offload_fwk_wakelock = false

/-- In a session that the host has started. -/
structure HostRow (ofl hbd : Bool) (w : Wakelock) : Prop where
  held : holds w.sent = some true
  fwk : w.mnld_fsm_offload_fwk_wakelock = false
  lp : ofl = true → w.mnld_fsm_offload_lp_mode = !hbd

/-- In a session that was started in offload mode. -/
structure OflRow (ofl hbd : Bool) (w : Wakelock) : Prop where
  ofl : ofl = true
  held : holds w.sent = some hbd
  fwk : w.mnld_fsm_offload_fwk_wakelock = hbd
  lp : w.mnld_fsm_offload_lp_mode = !hbd

/-- The wakelock in a state. -/
def AutoRow (gps_state : GpsState) (ofl hbd : Bool) (w : Wakelock) : Prop :=
  match gps_state with
  | .idle => IdleRow ofl hbd w
  | .starting | .started | .stopping => HostRow ofl hbd w
  | .oflStarting | .oflStopping => OflRow ofl hbd w
  | .oflStarted => OflRow ofl hbd w ∧ hbd = false

/-- Between two sessions, after the latch. -/
structure IdleEntry (ofl hbd : Bool) (event : GpsEvent) (w : Wakelock) : Prop where
  held : holds w.sent = some false
  fwk : w.mnld_fsm_offload_fwk_wakelock = false
  opened : hbd = true → event = .start
  linked : ofl = true ↔ event = .offloadStart
  lp : ofl = true → w.mnld_fsm_offload_lp_mode = !hbd

/-- The wakelock in a state, after the latch. -/
def EntryRow (gps_state : GpsState) (ofl hbd : Bool) (event : GpsEvent) (w : Wakelock) : Prop :=
  match gps_state with
  | .idle => IdleEntry ofl hbd event w
  | .starting | .started | .stopping => HostRow ofl hbd w
  | .oflStarting | .oflStopping => OflRow ofl hbd w
  | .oflStarted => OflRow ofl hbd w ∧ (hbd = true → event = .start)

namespace Mnld

variable {cfg : MnldCfg} {m : Mnld} {w : Wakelock} {event : GpsEvent}

/-- After a handler the wakelock is in the row of the state it leads to. -/
def LeadsTo (cfg : MnldCfg) (m m' : Mnld) (w : Wakelock) : Prop :=
  ∃ gps_state ofl, Leads cfg m m' gps_state ofl ∧
    AutoRow gps_state ofl m.isAHbdGpsClientExist w

theorem leadsTo_idle (hst : m.gps_state = .idle)
    (h : IdleEntry (m.offloadMode cfg) m.isAHbdGpsClientExist event w) :
    LeadsTo cfg m (m.fsmGpsStateIdle cfg event) (w.idle cfg m event) := by
  have hstay {m' : Mnld} (halike : Alike m m') (hstart : event ≠ .start)
      (hoffload : event ≠ .offloadStart) : LeadsTo cfg m m' w := by
    refine ⟨.idle, m.offloadMode cfg, hst ▸ halike.leads, ?_, ?_, h.held, h.fwk⟩
    · exact Bool.eq_false_iff.mpr fun ho => hoffload (h.linked.mp ho)
    · exact Bool.eq_false_iff.mpr fun hhbd => hstart (h.opened hhbd)
  cases event with
  | start =>
    have ho : m.offloadMode cfg = false := Bool.eq_false_iff.mpr fun ho => nomatch h.linked.mp ho
    refine ⟨.starting, m.offloadMode cfg,
      (Quietly.refl m).alike.leads_setState _ rfl rfl rfl, ?_⟩
    rw [Wakelock.idle, ho, if_neg Bool.false_ne_true]
    refine ⟨?_, h.fwk, nofun⟩
    rw [Wakelock.requestWakelock, holds_append, h.held]
  | offloadStart =>
    have ho : m.offloadMode cfg = true := h.linked.mpr rfl
    have hhbd : m.isAHbdGpsClientExist = false :=
      Bool.eq_false_iff.mpr fun hhbd => nomatch h.opened hhbd
    refine ⟨.oflStarting, m.offloadMode cfg,
      (Quietly.refl m).alike.leads_setState _ rfl rfl rfl, ?_⟩
    rw [Wakelock.idle, if_pos ho, hhbd]
    have hlp := h.lp ho
    rw [hhbd] at hlp
    exact ⟨ho, h.held, h.fwk, hlp⟩
  | stop => exact hstay (quietly_doGpsStoppedHdlr m cfg).alike nofun nofun
  | reset => exact hstay (quietly_doGpsResetHdlr m).alike nofun nofun
  | startDone | stopDone => exact hstay ⟨rfl, fun _ => rfl, rfl⟩ nofun nofun

theorem leadsTo_starting (hauto : supportAutoSwitchMode cfg = true) (data1 : Int)
    (hst : m.gps_state = .starting)
    (h : HostRow (m.offloadMode cfg) m.isAHbdGpsClientExist w) :
    LeadsTo cfg m (m.fsmGpsStateStarting cfg data1 event) w := by
  have hstay {m' : Mnld} (halike : Alike m m') : LeadsTo cfg m m' w :=
    ⟨.starting, m.offloadMode cfg, hst ▸ halike.leads, h⟩
  cases event with
  | start | stop | reset | offloadStart => exact hstay (Quietly.refl m).alike
  | stopDone => exact hstay ⟨rfl, fun _ => rfl, rfl⟩
  | startDone =>
    have halike := (quietly_doGpsStartedHdlr m cfg data1).alike
    have hhost : HostRow false m.isAHbdGpsClientExist w := ⟨h.held, h.fwk, nofun⟩
    unfold fsmGpsStateStarting
    dsimp only
    split
    · exact ⟨.stopping, m.offloadMode cfg, halike.leads_setState _ rfl rfl rfl, h⟩
    · split
      · refine ⟨.started, false, ⟨switchSessions_state, ?_, ?_⟩, hhost⟩
        · exact offloadMode_switchSessions hauto _ nofun
        · exact (hbd_switchSessions _ _).trans halike.hbd
      · refine ⟨.started, false, ⟨rfl, ?_, halike.hbd⟩, hhost⟩
        rw [← Bool.not_eq_true, offloadMode_iff hauto]
        rintro (hofl | hofl) <;> cases hofl

theorem leadsTo_started (hst : m.gps_state = .started)
    (h : HostRow (m.offloadMode cfg) m.isAHbdGpsClientExist w) :
    LeadsTo cfg m (m.fsmGpsStateStarted cfg event) w := by
  have hstay {m' : Mnld} (halike : Alike m m') : LeadsTo cfg m m' w :=
    ⟨.started, m.offloadMode cfg, hst ▸ halike.leads, h⟩
  cases event with
  | start => exact hstay (quietly_doGpsStartedHdlr m cfg 0).alike
  | stop =>
    unfold fsmGpsStateStarted
    dsimp only
    split
    · exact ⟨.stopping, m.offloadMode cfg,
        (Quietly.refl m).alike.leads_setState _ rfl rfl rfl, h⟩
    · have halike := (quietly_doGpsStoppedHdlr m cfg).alike
      split
      · exact hstay ⟨halike.state, halike.used, halike.session⟩
      · exact hstay halike
  | reset =>
    unfold fsmGpsStateStarted
    dsimp only
    split
    · exact hstay ⟨rfl, fun _ => rfl, rfl⟩
    · exact hstay (Quietly.refl m).alike
  | startDone =>
    unfold fsmGpsStateStarted
    dsimp only
    split
    · exact hstay ⟨rfl, fun _ => rfl, rfl⟩
    · exact hstay (Quietly.refl m).alike
  | offloadStart => exact hstay (Quietly.refl m).alike
  | stopDone => exact hstay ⟨rfl, fun _ => rfl, rfl⟩

theorem leadsTo_stopping (hauto : supportAutoSwitchMode cfg = true) (hst : m.gps_state = .stopping)
    (h : HostRow (m.offloadMode cfg) m.isAHbdGpsClientExist w)
    (hend : event = .stopDone → m.isAllGpsClientExit = true → m.offloadMode cfg = false) :
    LeadsTo cfg m (m.fsmGpsStateStopping cfg event) (w.stopping cfg m event) := by
  have hstay {m' : Mnld} (halike : Alike m m') : LeadsTo cfg m m' w :=
    ⟨.stopping, m.offloadMode cfg, hst ▸ halike.leads, h⟩
  cases event with
  | start | stop | offloadStart | startDone => exact hstay (Quietly.refl m).alike
  | reset => exact hstay (quietly_doGpsResetHdlr m).alike
  | stopDone =>
    have halike := (quietly_doGpsStoppedHdlr m cfg).alike
    unfold fsmGpsStateStopping Wakelock.stopping
    dsimp only
    rw [isAGpsClientExist_eq, halike.exit]
    cases hexit : m.isAllGpsClientExit with
    | false =>
      rw [Bool.not_false, if_pos rfl, if_pos rfl]
      exact ⟨.starting, m.offloadMode cfg, halike.leads_setState _ rfl rfl rfl, h⟩
    | true =>
      have ho := hend rfl hexit
      have hhbd : m.isAHbdGpsClientExist = false := by
        refine Bool.eq_false_iff.mpr fun hhbd => ?_
        obtain ⟨c, hc⟩ := exists_used_of_hbd hhbd
        exact isAllGpsClientExit_iff.mp hexit c hc
      have halways : ¬ offloadIsAlwaysOnMode cfg = true := by
        rw [alwaysOn_eq_false hauto]
        exact Bool.false_ne_true
      rw [Bool.not_true, if_neg Bool.false_ne_true, if_neg halways, if_neg Bool.false_ne_true]
      refine ⟨.idle, m.offloadMode cfg, halike.leads_setState _ rfl rfl rfl, ?_⟩
      rw [Wakelock.stopped, halike.offloadMode, ho, if_neg Bool.false_ne_true, hhbd]
      refine ⟨rfl, rfl, ?_, h.fwk⟩
      rw [Wakelock.releaseWakelock, holds_append, h.held]

theorem leadsTo_oflStarting (hauto : supportAutoSwitchMode cfg = true) (data1 : Int)
    (hst : m.gps_state = .oflStarting)
    (h : OflRow (m.offloadMode cfg) m.isAHbdGpsClientExist w) :
    LeadsTo cfg m (m.fsmGpsStateOflStarting cfg data1 event) w := by
  have hstay {m' : Mnld} (halike : Alike m m') : LeadsTo cfg m m' w :=
    ⟨.oflStarting, m.offloadMode cfg, hst ▸ halike.leads, h⟩
  cases event with
  | start | stop | reset | offloadStart => exact hstay (Quietly.refl m).alike
  | stopDone => exact hstay ⟨rfl, fun _ => rfl, rfl⟩
  | startDone =>
    have halike := (quietly_doGpsStartedHdlr m cfg data1).alike
    unfold fsmGpsStateOflStarting
    dsimp only
    split
    · exact ⟨.oflStopping, m.offloadMode cfg, halike.leads_setState _ rfl rfl rfl, h⟩
    · rename_i hnone
      rw [Bool.or_eq_true, not_or, halike.hbd] at hnone
      refine ⟨.oflStarted, true, ⟨rfl, (offloadMode_iff hauto _).mpr (.inl rfl), halike.hbd⟩,
        ⟨rfl, h.held, h.fwk, h.lp⟩, Bool.eq_false_iff.mpr hnone.2⟩

theorem leadsTo_oflStarted (hst : m.gps_state = .oflStarted)
    (h : OflRow (m.offloadMode cfg) m.isAHbdGpsClientExist w)
    (hopened : m.isAHbdGpsClientExist = true → event = .start) :
    LeadsTo cfg m (m.fsmGpsStateOflStarted cfg event) w := by
  have hstay {m' : Mnld} (halike : Alike m m') (hnone : m.isAHbdGpsClientExist = false) :
      LeadsTo cfg m m' w :=
    ⟨.oflStarted, m.offloadMode cfg, hst ▸ halike.leads, h, hnone⟩
  have hnone (hevent : event ≠ .start) : m.isAHbdGpsClientExist = false :=
    Bool.eq_false_iff.mpr fun hhbd => hevent (hopened hhbd)
  cases event with
  | start =>
    have halike := (quietly_doGpsStartedHdlr m cfg 0).alike
    unfold fsmGpsStateOflStarted
    dsimp only
    rw [halike.hbd]
    cases hhbd : m.isAHbdGpsClientExist with
    | true =>
      rw [if_pos rfl]
      refine ⟨.oflStopping, m.offloadMode cfg, ⟨rfl, halike.offloadMode cfg, ?_⟩, h⟩
      exact (hbd_clearClients _).trans halike.hbd
    | false =>
      rw [if_neg Bool.false_ne_true]
      exact hstay halike hhbd
  | stop =>
    unfold fsmGpsStateOflStarted
    dsimp only
    split
    · exact hstay (quietly_doGpsStoppedHdlr m cfg).alike (hnone nofun)
    · exact ⟨.oflStopping, m.offloadMode cfg,
        (Quietly.refl m).alike.leads_setState _ rfl rfl rfl, h⟩
  | startDone =>
    unfold fsmGpsStateOflStarted
    dsimp only
    split
    · exact hstay ⟨rfl, fun _ => rfl, rfl⟩ (hnone nofun)
    · exact hstay (Quietly.refl m).alike (hnone nofun)
  | reset | offloadStart => exact hstay (Quietly.refl m).alike (hnone nofun)
  | stopDone => exact hstay ⟨rfl, fun _ => rfl, rfl⟩ (hnone nofun)

theorem leadsTo_oflStopping (hauto : supportAutoSwitchMode cfg = true)
    (hst : m.gps_state = .oflStopping)
    (h : OflRow (m.offloadMode cfg) m.isAHbdGpsClientExist w)
    (hback : event = .stopDone → m.isAHbdGpsClientExist = false) :
    LeadsTo cfg m (m.fsmGpsStateOflStopping cfg event) (w.oflStopping cfg m event) := by
  have hstay {m' : Mnld} (halike : Alike m m') : LeadsTo cfg m m' w :=
    ⟨.oflStopping, m.offloadMode cfg, hst ▸ halike.leads, h⟩
  cases event with
  | start | stop | offloadStart | startDone => exact hstay (Quietly.refl m).alike
  | reset => exact hstay (quietly_doGpsResetHdlr m).alike
  | stopDone =>
    have halike := (quietly_doGpsStoppedHdlr m cfg).alike
    have hnone := hback rfl
    have hnone' : ¬ ((m.doGpsStoppedHdlr cfg).setState .idle).isAHbdGpsClientExist = true := by
      change ¬ (m.doGpsStoppedHdlr cfg).isAHbdGpsClientExist = true
      rw [halike.hbd, hnone]
      exact Bool.false_ne_true
    unfold fsmGpsStateOflStopping Wakelock.oflStopping
    dsimp only
    rw [if_neg hnone', if_neg hnone', if_pos hauto]
    split
    · exact ⟨.oflStarting, m.offloadMode cfg, halike.leads_setState _ rfl rfl rfl, h⟩
    · rw [Wakelock.stopped, halike.offloadMode, if_pos h.ofl]
      refine ⟨.idle, false, ⟨switchSessions_state, ?_, ?_⟩, rfl, hnone, ?_, ?_⟩
      · exact offloadMode_switchSessions hauto _ nofun
      · exact (hbd_switchSessions _ _).trans halike.hbd
      · rw [h.held, hnone]
      · rw [h.fwk, hnone]

/-- After the latch, every handler leads to a row again, unless a session of the host ends in
offload mode or one in offload mode with a host based client. -/
theorem leadsTo_fsm (hauto : supportAutoSwitchMode cfg = true) (data1 : Int)
    (h : EntryRow m.gps_state (m.offloadMode cfg) m.isAHbdGpsClientExist event w)
    (hend : event = .stopDone → m.gps_state = .stopping → m.isAllGpsClientExit = true →
      m.offloadMode cfg = false)
    (hback : event = .stopDone → m.gps_state = .oflStopping → m.isAHbdGpsClientExist = false) :
    LeadsTo cfg m (m.fsm cfg event data1) (w.handler cfg m event) := by
  unfold fsm Wakelock.handler
  cases hst : m.gps_state with
  | idle =>
    rw [hst] at h
    exact leadsTo_idle hst h
  | starting =>
    rw [hst] at h
    exact leadsTo_starting hauto data1 hst h
  | started =>
    rw [hst] at h
    exact leadsTo_started hst h
  | stopping =>
    rw [hst] at h
    exact leadsTo_stopping hauto hst h fun hevent => hend hevent hst
  | oflStarting =>
    rw [hst] at h
    exact leadsTo_oflStarting hauto data1 hst h
  | oflStarted =>
    rw [hst] at h
    exact leadsTo_oflStarted hst h.1 h.2
  | oflStopping =>
    rw [hst] at h
    exact leadsTo_oflStopping hauto hst h fun hevent => hback hevent hst

end Mnld

/-! ## The latch at an entry -/

section Latch

variable {cfg : MnldCfg} {m₁ : Mnld} {w : Wakelock} {event : GpsEvent}

/-- In offload mode, the latch of a session of the host is set to the clients; a request would be a
second one. -/
theorem HostRow.latch {ofl hbd : Bool} (h : HostRow ofl hbd w)
    (hset : m₁.offloadMode cfg = true → m₁.isAHbdGpsClientExist = true →
      w.mnld_fsm_offload_lp_mode = false) :
    HostRow (m₁.offloadMode cfg) m₁.isAHbdGpsClientExist (w.latch cfg m₁) := by
  obtain ⟨hheld, hfwk, -⟩ := h
  cases ho : m₁.offloadMode cfg with
  | false =>
    rw [Wakelock.latch_of_host ho]
    exact ⟨hheld, hfwk, nofun⟩
  | true =>
    cases hhbd : m₁.isAHbdGpsClientExist with
    | true =>
      rw [Wakelock.latch_of_hbd ho hhbd, hset ho hhbd, if_neg Bool.false_ne_true]
      exact ⟨hheld, hfwk, fun _ => hset ho hhbd⟩
    | false =>
      rw [Wakelock.latch_of_noHbd ho hhbd, hfwk, if_neg Bool.false_ne_true]
      split
      · rename_i hlow
        exact ⟨hheld, hfwk, fun _ => hlow⟩
      · exact ⟨hheld, hfwk, fun _ => rfl⟩

/-- In a session of the offload mode the latch follows the clients. -/
theorem OflRow.latch {hbd : Bool} (h : OflRow true hbd w) (ho : m₁.offloadMode cfg = true) :
    OflRow true m₁.isAHbdGpsClientExist (w.latch cfg m₁) := by
  have hlp : hbd = true → w.mnld_fsm_offload_lp_mode = false := by
    rintro rfl
    exact h.lp
  have hfollows := Follows.latch ⟨h.held, h.fwk, hlp⟩ ho fun _ => by
    cases hbd with
    | true => exact .inr h.fwk
    | false => exact .inl h.lp
  refine ⟨rfl, hfollows.held, hfollows.fwk, ?_⟩
  cases hhbd : m₁.isAHbdGpsClientExist with
  | true => exact hfollows.lp hhbd
  | false =>
    rw [Wakelock.latch_of_noHbd ho hhbd]
    split
    · rename_i hlow
      exact hlow
    · rfl

/-- Between two sessions the offload mode comes with its start only. -/
theorem IdleRow.latch {ofl hbd : Bool} (h : IdleRow ofl hbd w)
    (hopened : m₁.isAHbdGpsClientExist = true → event = .start)
    (hlinked : m₁.offloadMode cfg = true ↔ event = .offloadStart) :
    IdleEntry (m₁.offloadMode cfg) m₁.isAHbdGpsClientExist event (w.latch cfg m₁) := by
  cases ho : m₁.offloadMode cfg with
  | false =>
    rw [Wakelock.latch_of_host ho]
    rw [ho] at hlinked
    exact ⟨h.held, h.fwk, hopened, hlinked, nofun⟩
  | true =>
    have hnone : m₁.isAHbdGpsClientExist = false := Bool.eq_false_iff.mpr fun hhbd => by
      have hboth := (hopened hhbd).symm.trans (hlinked.mp ho)
      cases hboth
    rw [Wakelock.latch_of_noHbd ho hnone, hnone, h.fwk, if_neg Bool.false_ne_true]
    rw [ho] at hlinked
    split
    · rename_i hlow
      exact ⟨h.held, h.fwk, nofun, hlinked, fun _ => hlow⟩
    · exact ⟨h.held, h.fwk, nofun, hlinked, fun _ => rfl⟩

end Latch

namespace Mnld

variable {cfg : MnldCfg} {m m₁ : Mnld} {w : Wakelock} {event : GpsEvent}

/-- The offload mode at an entry. -/
theorem Enters.offloadMode_iff (h : Enters m m₁ event) (hauto : supportAutoSwitchMode cfg = true) :
    m₁.offloadMode cfg = true ↔ m.offloadMode cfg = true ∨ event = .offloadStart := by
  by_cases hevent : event = .offloadStart
  · exact iff_of_true ((Mnld.offloadMode_iff hauto m₁).mpr (h.link hevent)) (.inr hevent)
  · rw [Mnld.offloadMode_iff hauto, Mnld.offloadMode_iff hauto, h.session hevent]
    exact (or_iff_left hevent).symm

/-- The row of a state at an entry. -/
theorem Enters.entryRow (h : Enters m m₁ event) (hauto : supportAutoSwitchMode cfg = true)
    (hrow : AutoRow m.gps_state (m.offloadMode cfg) m.isAHbdGpsClientExist w)
    (hset : m₁.gps_state = .starting ∨ m₁.gps_state = .started ∨ m₁.gps_state = .stopping →
      m₁.offloadMode cfg = true → m₁.isAHbdGpsClientExist = true →
        w.mnld_fsm_offload_lp_mode = false) :
    EntryRow m₁.gps_state (m₁.offloadMode cfg) m₁.isAHbdGpsClientExist event
      (w.latch cfg m₁) := by
  have hofl := h.offloadMode_iff hauto
  have hopened := h.hbd
  have hstay (hrow : OflRow (m.offloadMode cfg) m.isAHbdGpsClientExist w) :
      OflRow (m₁.offloadMode cfg) m₁.isAHbdGpsClientExist (w.latch cfg m₁) := by
    have ho := hofl.mpr (.inl hrow.ofl)
    rw [hrow.ofl] at hrow
    rw [ho]
    exact hrow.latch ho
  rw [h.state] at hset ⊢
  cases hst : m.gps_state with
  | idle =>
    rw [hst] at hrow
    have hidle : IdleRow _ _ w := hrow
    rw [hidle.ofl] at hofl
    rw [hidle.hbd] at hopened
    exact hidle.latch (fun hhbd => (hopened hhbd).resolve_left Bool.false_ne_true)
      (hofl.trans (or_iff_right Bool.false_ne_true))
  | starting =>
    rw [hst] at hrow hset
    exact HostRow.latch hrow (hset (.inl rfl))
  | started =>
    rw [hst] at hrow hset
    exact HostRow.latch hrow (hset (.inr (.inl rfl)))
  | stopping =>
    rw [hst] at hrow hset
    exact HostRow.latch hrow (hset (.inr (.inr rfl)))
  | oflStarting | oflStopping =>
    rw [hst] at hrow
    exact hstay hrow
  | oflStarted =>
    rw [hst] at hrow
    refine ⟨hstay hrow.1, fun hhbd => (hopened hhbd).resolve_left ?_⟩
    rw [hrow.2]
    exact Bool.false_ne_true

/-! ## The host alone -/

/-- Without an offload mode the wakelock is held outside of the idle state. -/
structure HostOnly (m : Mnld) (w : Wakelock) : Prop where
  held : holds w.sent = some (decide (m.gps_state ≠ .idle))
  idle : m.gps_state = .idle → m.isAHbdGpsClientExist = false

theorem HostOnly.of_ne {m : Mnld} (h : holds w.sent = some true) {gps_state : GpsState}
    (hst : m.gps_state = gps_state) (hne : gps_state ≠ .idle) : HostOnly m w := by
  subst hst
  exact ⟨by rw [h, decide_eq_true hne], fun hst => absurd hst hne⟩

theorem HostOnly.of_idle {m : Mnld} (h : holds w.sent = some false) (hst : m.gps_state = .idle)
    (hhbd : m.isAHbdGpsClientExist = false) : HostOnly m w :=
  ⟨by rw [h, decide_eq_false fun hne => hne hst], fun _ => hhbd⟩

theorem hostOnly_idle (ho : ∀ m : Mnld, m.offloadMode cfg = false) (hst : m.gps_state = .idle)
    (h : holds w.sent = some false) (hopened : m.isAHbdGpsClientExist = true → event = .start) :
    HostOnly (m.fsmGpsStateIdle cfg event) (w.idle cfg m event) := by
  have hrequest : holds (w.requestWakelock).sent = some true := by
    rw [Wakelock.requestWakelock, holds_append, h]
  have hstay {m' : Mnld} (halike : Alike m m') (hstart : event ≠ .start) : HostOnly m' w :=
    .of_idle h (halike.state.trans hst)
      (halike.hbd.trans (Bool.eq_false_iff.mpr fun hhbd => hstart (hopened hhbd)))
  cases event with
  | start =>
    rw [Wakelock.idle, ho, if_neg Bool.false_ne_true]
    exact .of_ne hrequest (show _ = GpsState.starting from rfl) nofun
  | offloadStart =>
    rw [Wakelock.idle, ho, if_neg Bool.false_ne_true]
    exact .of_ne hrequest (show _ = GpsState.oflStarting from rfl) nofun
  | stop => exact hstay (quietly_doGpsStoppedHdlr m cfg).alike nofun
  | reset => exact hstay (quietly_doGpsResetHdlr m).alike nofun
  | startDone | stopDone => exact hstay ⟨rfl, fun _ => rfl, rfl⟩ nofun

/-- The states between a start and a stop of the engine are left for another one of them. -/
theorem ne_idle_fsm (data1 : Int) (hst : m.gps_state = .starting ∨ m.gps_state = .started ∨
    m.gps_state = .oflStarting ∨ m.gps_state = .oflStarted) :
    (m.fsm cfg event data1).gps_state ≠ .idle := by
  have hne {m' : Mnld} {gps_state : GpsState} (h : m'.gps_state = gps_state)
      (hstate : gps_state ≠ .idle) : m'.gps_state ≠ .idle := h ▸ hstate
  have hstarted := (quietly_doGpsStartedHdlr m cfg 0).state
  have hstopped := (quietly_doGpsStoppedHdlr m cfg).state
  unfold fsm
  rcases hst with hst | hst | hst | hst
  · rw [hst]
    unfold fsmGpsStateStarting
    cases event with
    | startDone =>
      dsimp only
      split
      · exact hne rfl nofun
      · split
        · exact hne switchSessions_state nofun
        · exact hne rfl nofun
    | _ => exact hne hst nofun
  · rw [hst] at hstarted hstopped ⊢
    unfold fsmGpsStateStarted
    cases event with
    | start => exact hne hstarted nofun
    | stop =>
      dsimp only
      split
      · exact hne rfl nofun
      · split
        · exact hne hstopped nofun
        · exact hne hstopped nofun
    | reset =>
      dsimp only
      split
      · exact hne hst nofun
      · exact hne hst nofun
    | startDone =>
      dsimp only
      split
      · exact hne hst nofun
      · exact hne hst nofun
    | offloadStart | stopDone => exact hne hst nofun
  · rw [hst]
    unfold fsmGpsStateOflStarting
    cases event with
    | startDone =>
      dsimp only
      split
      · exact hne rfl nofun
      · exact hne rfl nofun
    | _ => exact hne hst nofun
  · rw [hst] at hstarted hstopped ⊢
    unfold fsmGpsStateOflStarted
    cases event with
    | start =>
      dsimp only
      split
      · exact hne rfl nofun
      · exact hne hstarted nofun
    | stop =>
      dsimp only
      split
      · exact hne hstopped nofun
      · exact hne rfl nofun
    | startDone =>
      dsimp only
      split
      · exact hne hst nofun
      · exact hne hst nofun
    | reset | offloadStart | stopDone => exact hne hst nofun

theorem hostOnly_stopping (ho : ∀ m : Mnld, m.offloadMode cfg = false)
    (hst : m.gps_state = .stopping) (h : holds w.sent = some true) :
    HostOnly (m.fsmGpsStateStopping cfg event) (w.stopping cfg m event) := by
  have hstay {m' : Mnld} (halike : Alike m m') : HostOnly m' w :=
    .of_ne h (halike.state.trans hst) nofun
  cases event with
  | start | stop | offloadStart | startDone => exact hstay (Quietly.refl m).alike
  | reset => exact hstay (quietly_doGpsResetHdlr m).alike
  | stopDone =>
    have hreleased : holds (w.releaseWakelock).sent = some false := by
      rw [Wakelock.releaseWakelock, holds_append, h]
    unfold fsmGpsStateStopping Wakelock.stopping
    dsimp only
    rw [isAGpsClientExist_eq]
    cases hexit : (m.doGpsStoppedHdlr cfg).isAllGpsClientExit with
    | false =>
      rw [Bool.not_false, if_pos rfl, if_pos rfl]
      exact .of_ne h (show _ = GpsState.starting from rfl) nofun
    | true =>
      have hhbd : (m.doGpsStoppedHdlr cfg).isAHbdGpsClientExist = false := by
        refine Bool.eq_false_iff.mpr fun hhbd => ?_
        obtain ⟨c, hc⟩ := exists_used_of_hbd hhbd
        exact isAllGpsClientExit_iff.mp hexit c hc
      rw [Bool.not_true, if_neg Bool.false_ne_true, if_neg Bool.false_ne_true,
        Wakelock.stopped, ho, if_neg Bool.false_ne_true]
      split
      · exact .of_idle hreleased switchSessions_state ((hbd_switchSessions _ _).trans hhbd)
      · exact .of_idle hreleased rfl hhbd

theorem hostOnly_oflStopping (ho : ∀ m : Mnld, m.offloadMode cfg = false)
    (hst : m.gps_state = .oflStopping) (h : holds w.sent = some true) :
    HostOnly (m.fsmGpsStateOflStopping cfg event) (w.oflStopping cfg m event) := by
  have hstay {m' : Mnld} (halike : Alike m m') : HostOnly m' w :=
    .of_ne h (halike.state.trans hst) nofun
  cases event with
  | start | stop | offloadStart | startDone => exact hstay (Quietly.refl m).alike
  | reset => exact hstay (quietly_doGpsResetHdlr m).alike
  | stopDone =>
    have hreleased : holds (w.releaseWakelock).sent = some false := by
      rw [Wakelock.releaseWakelock, holds_append, h]
    unfold fsmGpsStateOflStopping Wakelock.oflStopping
    dsimp only
    rw [Wakelock.stopped, ho, if_neg Bool.false_ne_true]
    split
    · exact .of_ne h (show _ = GpsState.oflStarting from rfl) nofun
    · cases hhbd : ((m.doGpsStoppedHdlr cfg).setState .idle).isAHbdGpsClientExist with
      | true =>
        rw [if_pos rfl, if_pos rfl, Wakelock.latch_of_host (ho _)]
        exact hostOnly_idle ho switchSessions_state hreleased fun _ => rfl
      | false =>
        rw [if_neg Bool.false_ne_true, if_neg Bool.false_ne_true]
        split
        · exact .of_idle hreleased switchSessions_state ((hbd_switchSessions _ _).trans hhbd)
        · exact .of_idle hreleased rfl hhbd

/-- Without an offload mode, every handler takes and gives the wakelock with the idle state. -/
theorem HostOnly.fsm (h : HostOnly m w) (ho : ∀ m : Mnld, m.offloadMode cfg = false)
    (hentry : Enters m m₁ event) (data1 : Int) :
    HostOnly (m₁.fsm cfg event data1) (w.fsm cfg m₁ event) := by
  have hheld {gps_state : GpsState} (hst : m₁.gps_state = gps_state) (hne : gps_state ≠ .idle) :
      holds w.sent = some true := by
    rw [h.held, ← hentry.state, hst, decide_eq_true hne]
  rw [Wakelock.fsm_eq, Wakelock.latch_of_host (ho m₁)]
  unfold Wakelock.handler
  cases hst : m₁.gps_state with
  | idle =>
    have hst' : m.gps_state = .idle := hentry.state.symm.trans hst
    have hfree : holds w.sent = some false := by
      rw [h.held, decide_eq_false fun hne => hne hst']
    unfold Mnld.fsm
    rw [hst]
    refine hostOnly_idle ho hst hfree fun hhbd => (hentry.hbd hhbd).resolve_left ?_
    rw [h.idle hst']
    exact Bool.false_ne_true
  | starting =>
    exact .of_ne (hheld hst nofun) rfl (ne_idle_fsm data1 (.inl hst))
  | started =>
    exact .of_ne (hheld hst nofun) rfl (ne_idle_fsm data1 (.inr (.inl hst)))
  | oflStarting =>
    exact .of_ne (hheld hst nofun) rfl (ne_idle_fsm data1 (.inr (.inr (.inl hst))))
  | oflStarted =>
    exact .of_ne (hheld hst nofun) rfl (ne_idle_fsm data1 (.inr (.inr (.inr hst))))
  | stopping =>
    unfold Mnld.fsm
    rw [hst]
    exact hostOnly_stopping ho hst (hheld hst nofun)
  | oflStopping =>
    unfold Mnld.fsm
    rw [hst]
    exact hostOnly_oflStopping ho hst (hheld hst nofun)

/-- No handler changes who of the host uses the receiver. -/
theorem hbd_fsm (m : Mnld) (cfg : MnldCfg) (event : GpsEvent) (data1 : Int) :
    (m.fsm cfg event data1).isAHbdGpsClientExist = m.isAHbdGpsClientExist := by
  have hreset := (quietly_doGpsResetHdlr m).alike.hbd
  have hstopped := (quietly_doGpsStoppedHdlr m cfg).alike.hbd
  have hstarted (data1 : Int) := (quietly_doGpsStartedHdlr m cfg data1).alike.hbd
  unfold fsm
  split
  · cases event with
    | stop => exact hstopped
    | reset => exact hreset
    | _ => rfl
  · cases event with
    | startDone =>
      unfold fsmGpsStateStarting
      dsimp only
      split
      · exact hstarted _
      · split
        · exact (hbd_switchSessions _ _).trans (hstarted _)
        · exact hstarted _
    | _ => rfl
  · unfold fsmGpsStateStarted
    cases event with
    | start => exact hstarted _
    | stop =>
      dsimp only
      split
      · rfl
      · split <;> exact hstopped
    | reset | startDone =>
      dsimp only
      split <;> rfl
    | _ => rfl
  · unfold fsmGpsStateStopping
    cases event with
    | reset => exact hreset
    | stopDone =>
      dsimp only
      split
      · exact hstopped
      · split
        · exact (hbd_switchSessions _ _).trans hstopped
        · exact hstopped
    | _ => rfl
  · unfold fsmGpsStateOflStarting
    cases event with
    | startDone =>
      dsimp only
      split <;> exact hstarted _
    | _ => rfl
  · unfold fsmGpsStateOflStarted
    cases event with
    | start =>
      dsimp only
      split
      · exact (hbd_clearClients _).trans (hstarted _)
      · exact hstarted _
    | stop =>
      dsimp only
      split
      · exact hstopped
      · rfl
    | startDone =>
      dsimp only
      split <;> rfl
    | _ => rfl
  · unfold fsmGpsStateOflStopping
    cases event with
    | reset => exact hreset
    | stopDone =>
      dsimp only
      split
      · exact hstopped
      · split
        · exact (hbd_switchSessions _ _).trans hstopped
        · split
          · exact (hbd_switchSessions _ _).trans hstopped
          · exact hstopped
    | _ => rfl

end Mnld

/-! ## Runs -/

namespace WakeSystem

open Mnld

variable {cfg : MnldCfg} {s s' : WakeSystem} {input : MnldInput}

/-- The wakelock in each of the modes. -/
structure Inv (cfg : MnldCfg) (s : WakeSystem) : Prop where
  auto : supportAutoSwitchMode cfg = true → AutoRow s.mnld.gps_state (s.mnld.offloadMode cfg)
    s.mnld.isAHbdGpsClientExist s.wakelock
  alwaysOn : offloadIsAlwaysOnMode cfg = true →
    Follows s.mnld.isAHbdGpsClientExist s.wakelock
  host : supportAutoSwitchMode cfg = false → offloadIsAlwaysOnMode cfg = false →
    HostOnly s.mnld s.wakelock

/-- What is known of the wakelock is enough. -/
theorem Inv.awake (h : Inv cfg s) : s.Awake cfg := by
  have hnone (hunused : ∀ c, ¬ s.mnld.Used c) : s.mnld.isAHbdGpsClientExist = false := by
    refine Bool.eq_false_iff.mpr fun hhbd => ?_
    obtain ⟨c, hc⟩ := exists_used_of_hbd hhbd
    exact hunused c hc
  have hused (h : ∃ c, c ≠ .flp ∧ c ≠ .flpTest ∧ c ≠ .geofence ∧ s.mnld.Used c) :
      s.mnld.isAHbdGpsClientExist = true := isAHbdGpsClientExist_iff.mpr h
  cases hauto : supportAutoSwitchMode cfg with
  | true =>
    have hon : cfg.OFFLOAD_enabled = true := (Bool.and_eq_true_iff.mp hauto).1
    have hrow := h.auto hauto
    have hoff : cfg.OFFLOAD_enabled = false → False := fun hoff =>
      Bool.false_ne_true (hoff.symm.trans hon)
    have hofl (hheld : holds s.wakelock.sent = some s.mnld.isAHbdGpsClientExist)
        (hne : s.mnld.gps_state ≠ .idle) : s.Awake cfg := by
      refine ⟨⟨_, hheld⟩, fun hoff' => (hoff hoff').elim, fun _ hu => ?_, fun _ hidle => ?_⟩
      · rw [hheld, hused hu]
      · exact absurd hidle hne
    cases hst : s.mnld.gps_state with
    | idle =>
      rw [hst] at hrow
      have hidle : IdleRow _ _ _ := hrow
      refine ⟨⟨_, hidle.held⟩, fun hoff' => (hoff hoff').elim, fun _ hu => ?_,
        fun _ _ _ => hidle.held⟩
      exact absurd (hidle.hbd.symm.trans (hused hu)) Bool.false_ne_true
    | starting | started | stopping =>
      rw [hst] at hrow
      have hhost : HostRow _ _ _ := hrow
      refine ⟨⟨_, hhost.held⟩, fun hoff' => (hoff hoff').elim, fun _ _ => hhost.held,
        fun _ hidle => ?_⟩
      rw [hst] at hidle
      cases hidle
    | oflStarting | oflStopping =>
      rw [hst] at hrow
      exact hofl (OflRow.held hrow) (by rw [hst]; exact nofun)
    | oflStarted =>
      rw [hst] at hrow
      exact hofl hrow.1.held (by rw [hst]; exact nofun)
  | false =>
    cases halways : offloadIsAlwaysOnMode cfg with
    | true =>
      have hon : cfg.OFFLOAD_enabled = true := (Bool.and_eq_true_iff.mp halways).1
      have hfollows := h.alwaysOn halways
      refine ⟨⟨_, hfollows.held⟩, fun hoff => ?_, fun _ hu => ?_, fun _ _ hunused => ?_⟩
      · exact absurd (hoff.symm.trans hon) Bool.false_ne_true
      · rw [hfollows.held, hused hu]
      · rw [hfollows.held, hnone hunused]
    | false =>
      have hhost := h.host hauto halways
      refine ⟨⟨_, hhost.held⟩, fun _ => ?_, fun _ hu => ?_, fun _ hidle _ => ?_⟩
      · rw [hhost.held, Option.some.injEq, decide_eq_true_iff]
      · rw [hhost.held, decide_eq_true]
        intro hidle
        exact Bool.false_ne_true ((hhost.idle hidle).symm.trans (hused hu))
      · rw [hhost.held, decide_eq_false fun hne => hne hidle]

/-- Where the machine is not entered, nothing changes. -/
theorem Inv.of_alike {m' : Mnld} (h : Inv cfg s) (halike : Alike s.mnld m') :
    Inv cfg ⟨m', s.wakelock⟩ := by
  refine ⟨fun hauto => ?_, fun halways => ?_, fun hauto halways => ?_⟩
  · change AutoRow m'.gps_state (m'.offloadMode cfg) m'.isAHbdGpsClientExist s.wakelock
    rw [halike.state, halike.offloadMode, halike.hbd]
    exact h.auto hauto
  · change Follows m'.isAHbdGpsClientExist s.wakelock
    rw [halike.hbd]
    exact h.alwaysOn halways
  · have hhost := h.host hauto halways
    refine ⟨?_, fun hidle => ?_⟩
    · change holds s.wakelock.sent = some (decide (m'.gps_state ≠ .idle))
      rw [halike.state]
      exact hhost.held
    · exact halike.hbd.trans (hhost.idle (halike.state.symm.trans hidle))

/-- A step that meets the condition. -/
theorem Inv.next (h : Inv cfg s) (hmatched : s.Matched cfg input) :
    Inv cfg (s.next cfg input) := by
  unfold WakeSystem.next
  cases henter : input.enter s.mnld with
  | none => exact h.of_alike (alike_of_not_entered henter)
  | some entry =>
    obtain ⟨m₁, event⟩ := entry
    obtain ⟨data1, hhandle⟩ := MnldInput.handle_of_enter cfg henter
    have hentry := enters_of_enter henter
    obtain ⟨hset, hmode⟩ := hmatched m₁ event henter
    rw [hhandle]
    refine ⟨fun hauto => ?_, fun halways => ?_, fun hauto halways => ?_⟩
    · obtain ⟨hlow, hend, hback⟩ := hmode hauto
      obtain ⟨gps_state, ofl, hleads, hrow⟩ := leadsTo_fsm hauto data1
        (hentry.entryRow hauto (h.auto hauto) hlow) hend hback
      change AutoRow (m₁.fsm cfg event data1).gps_state _ _ (s.wakelock.fsm cfg m₁ event)
      rw [hleads.state, hleads.ofl, hleads.hbd]
      exact hrow
    · change Follows (m₁.fsm cfg event data1).isAHbdGpsClientExist (s.wakelock.fsm cfg m₁ event)
      rw [hbd_fsm]
      exact ((h.alwaysOn halways).latch (offloadMode_of_alwaysOn halways m₁)
        (hset halways)).handler halways event
    · exact (h.host hauto halways).fsm (offloadMode_of_host hauto halways) hentry data1

/-- A second request, where the latch is in the low-power mode of a session of the host. -/
theorem broken_of_low {m₁ : Mnld} {ofl hbd : Bool} {w : Wakelock} (hrow : HostRow ofl hbd w)
    (ho : m₁.offloadMode cfg = true) (hhbd : m₁.isAHbdGpsClientExist = true)
    (hlow : w.mnld_fsm_offload_lp_mode = true) (event : GpsEvent) :
    (w.fsm cfg m₁ event).Broken := by
  rw [Wakelock.fsm_eq, Wakelock.latch_of_hbd ho hhbd, if_pos hlow]
  refine Wakelock.Broken.handler ?_ cfg m₁ event
  change holds (w.sent ++ [.request]) = none
  rw [holds_append, hrow.held]

/-- A second request, where an offload session ends with a host based client. -/
theorem broken_of_back (hauto : supportAutoSwitchMode cfg = true) {m : Mnld} {w : Wakelock}
    (hst : m.gps_state = .oflStopping)
    (hrow : OflRow (m.offloadMode cfg) m.isAHbdGpsClientExist w)
    (hhbd : m.isAHbdGpsClientExist = true) : (w.fsm cfg m .stopDone).Broken := by
  have hlow : w.mnld_fsm_offload_lp_mode = false := by rw [hrow.lp, hhbd, Bool.not_true]
  have halike := (quietly_doGpsStoppedHdlr m cfg).alike
  have hhbd' : (m.doGpsStoppedHdlr cfg).isAHbdGpsClientExist = true := halike.hbd.trans hhbd
  have hidle : ((m.doGpsStoppedHdlr cfg).setState .idle).isAHbdGpsClientExist = true := hhbd'
  have hhost : (((m.doGpsStoppedHdlr cfg).setState .idle).switchSessions .apMode).offloadMode
      cfg = false := offloadMode_switchSessions hauto _ nofun
  rw [Wakelock.fsm_eq, Wakelock.latch_of_hbd hrow.ofl hhbd, hlow, if_neg Bool.false_ne_true,
    Wakelock.handler, hst]
  change (w.oflStopping cfg m .stopDone).Broken
  unfold Wakelock.oflStopping
  dsimp only
  rw [isAllHbdGpsClientExit_eq, hhbd', Bool.not_true, Bool.and_false, if_neg Bool.false_ne_true,
    if_pos hidle, Wakelock.stopped, halike.offloadMode, if_pos hrow.ofl,
    Wakelock.latch_of_host hhost, Wakelock.idle, hhost, if_neg Bool.false_ne_true]
  change holds (w.sent ++ [.request]) = none
  rw [holds_append, hrow.held, hhbd]

/-- A wakelock that is not given back, where a session of the host ends in offload mode. -/
theorem held_of_end (hauto : supportAutoSwitchMode cfg = true) {m : Mnld} {w : Wakelock}
    (hst : m.gps_state = .stopping)
    (hrow : HostRow (m.offloadMode cfg) m.isAHbdGpsClientExist w)
    (hexit : m.isAllGpsClientExit = true) (ho : m.offloadMode cfg = true) (data1 : Int) :
    holds (w.fsm cfg m .stopDone).sent = some true ∧
      (m.fsm cfg .stopDone data1).gps_state = .idle ∧
        ∀ c, ¬ (m.fsm cfg .stopDone data1).Used c := by
  have halike := (quietly_doGpsStoppedHdlr m cfg).alike
  have hhbd : m.isAHbdGpsClientExist = false := by
    refine Bool.eq_false_iff.mpr fun hhbd => ?_
    obtain ⟨c, hc⟩ := exists_used_of_hbd hhbd
    exact isAllGpsClientExit_iff.mp hexit c hc
  have hlatch : HostRow (m.offloadMode cfg) m.isAHbdGpsClientExist (w.latch cfg m) :=
    HostRow.latch hrow fun _ hyes => absurd (hhbd.symm.trans hyes) Bool.false_ne_true
  have hfsm : m.fsm cfg .stopDone data1 = (m.doGpsStoppedHdlr cfg).setState .idle := by
    unfold fsm
    rw [hst]
    unfold fsmGpsStateStopping
    dsimp only
    rw [isAGpsClientExist_eq, halike.exit, hexit, Bool.not_true, if_neg Bool.false_ne_true,
      alwaysOn_eq_false hauto, if_neg Bool.false_ne_true]
  rw [hfsm]
  refine ⟨?_, rfl, isAllGpsClientExit_iff.mp (halike.exit.trans hexit)⟩
  rw [Wakelock.fsm_eq, Wakelock.handler, hst]
  change holds ((w.latch cfg m).stopping cfg m .stopDone).sent = some true
  unfold Wakelock.stopping
  dsimp only
  rw [isAGpsClientExist_eq, halike.exit, hexit, Bool.not_true, if_neg Bool.false_ne_true,
    Wakelock.stopped, halike.offloadMode, if_pos ho]
  exact hlatch.held

/-- A step after which the wakelock matches has met the condition. -/
theorem Inv.matched (h : Inv cfg s) (hawake : (s.next cfg input).Awake cfg) :
    s.Matched cfg input := by
  intro m₁ event henter
  have hentry := enters_of_enter henter
  have hwake : (s.next cfg input).wakelock = s.wakelock.fsm cfg m₁ event := by
    unfold WakeSystem.next
    rw [henter]
  have hnotBroken : ¬ (s.wakelock.fsm cfg m₁ event).Broken := fun hbroken => by
    obtain ⟨held, hheld⟩ := hawake.alternates
    rw [hwake, hbroken] at hheld
    cases hheld
  refine ⟨fun halways hhbd => ?_, fun hauto => ⟨fun hst ho hhbd => ?_, ?_, ?_⟩⟩
  · by_contra hnever
    obtain ⟨hlow, hfwk⟩ := not_or.mp hnever
    have hfollows := h.alwaysOn halways
    have hfree : holds s.wakelock.sent = some false := by
      rw [hfollows.held, ← hfollows.fwk, Bool.eq_false_iff.mpr hfwk]
    have hlatch (m : Mnld) (hhbd : m.isAHbdGpsClientExist = true) :
        s.wakelock.latch cfg m = s.wakelock := by
      rw [Wakelock.latch_of_hbd (offloadMode_of_alwaysOn halways m) hhbd, if_neg hlow]
    have hsame : s.wakelock.fsm cfg m₁ event = s.wakelock := by
      rw [Wakelock.fsm_eq, hlatch m₁ hhbd]
      obtain ⟨m', hm', hhandler | hhandler⟩ :=
        s.wakelock.handler_alwaysOn halways m₁ event
      · exact hhandler
      · exact hhandler.trans (hlatch m' (hm'.trans hhbd))
    obtain ⟨data1, hhandle⟩ := MnldInput.handle_of_enter cfg henter
    have hused : (s.next cfg input).mnld.isAHbdGpsClientExist = true := by
      change (input.handle cfg s.mnld).isAHbdGpsClientExist = true
      rw [hhandle, hbd_fsm]
      exact hhbd
    have hheld := hawake.used (Bool.and_eq_true_iff.mp halways).1
      (isAHbdGpsClientExist_iff.mp hused)
    rw [hwake, hsame, hfree] at hheld
    cases hheld
  · by_contra hlow
    have hrow : HostRow (s.mnld.offloadMode cfg) s.mnld.isAHbdGpsClientExist s.wakelock := by
      have hrow := h.auto hauto
      rw [← hentry.state] at hrow
      rcases hst with hst | hst | hst
      · rwa [hst] at hrow
      · rwa [hst] at hrow
      · rwa [hst] at hrow
    exact hnotBroken (broken_of_low hrow ho hhbd (Bool.not_eq_false _ ▸ hlow) event)
  · rintro rfl hst hexit
    obtain rfl := hentry.answer (.inr rfl)
    have hrow := h.auto hauto
    rw [hst] at hrow
    by_contra ho
    obtain ⟨data1, hhandle⟩ := MnldInput.handle_of_enter cfg henter
    obtain ⟨hheld, hidle, hunused⟩ :=
      held_of_end hauto hst hrow hexit (Bool.not_eq_false _ ▸ ho) data1
    have hnext : (s.next cfg input).mnld = s.mnld.fsm cfg .stopDone data1 := hhandle
    have hfree := hawake.unused (Bool.and_eq_true_iff.mp hauto).1 (hnext ▸ hidle)
      (hnext ▸ hunused)
    rw [hwake, hheld] at hfree
    cases hfree
  · rintro rfl hst
    obtain rfl := hentry.answer (.inr rfl)
    have hrow := h.auto hauto
    rw [hst] at hrow
    by_contra hhbd
    exact hnotBroken (broken_of_back hauto hst hrow (Bool.not_eq_false _ ▸ hhbd))

end WakeSystem

theorem wakeSystem_init_inv (cfg : MnldCfg) (capable : Bool) :
    WakeSystem.Inv cfg (wakeSystem cfg capable).init := by
  have hhost (hauto : Mnld.supportAutoSwitchMode cfg = true) :
      (wakeSystem cfg capable).init.mnld.offloadMode cfg = false := by
    rw [← Bool.not_eq_true, Mnld.offloadMode_iff hauto]
    cases capable with
    | true => rintro (h | h) <;> cases h
    | false => rintro (h | h) <;> cases h
  exact ⟨fun hauto => ⟨hhost hauto, rfl, rfl, rfl⟩, fun _ => ⟨rfl, rfl, nofun⟩,
    fun _ _ => ⟨rfl, fun _ => rfl⟩⟩

/-- The wakelock matches the use of the receiver exactly on the runs in which the latch does not
meet a session of the other mode; without an offload mode these are all runs. -/
theorem wakeSystem_awake_iff (cfg : MnldCfg) (capable : Bool) (inputs : List MnldInput) :
    (wakeSystem cfg capable).Along (WakeSystem.Awake cfg) (wakeSystem cfg capable).init inputs ↔
      (wakeSystem cfg capable).Meets (WakeSystem.Matched cfg) (wakeSystem cfg capable).init
        inputs := by
  refine (wakeSystem cfg capable).along_iff_meets_of_keeps ?_
    (fun s (h : WakeSystem.Inv cfg s) => h.awake) ?_ ?_ (wakeSystem_init_inv cfg capable) inputs
  · intro s input _ hnone
    cases hnone
  · rintro s input s' h hmatched hstep
    cases hstep
    exact h.next hmatched
  · rintro s input s' h hstep hawake
    cases hstep
    exact h.matched hawake

/-- With the offload mode always on, a host based client that comes first is left without the
wakelock; with the mode chosen by the sessions, it is asked for twice when an offload session gives
way to one of the host. -/
theorem wakeSystem_not_awake :
    ¬ (wakeSystem ⟨true, 0⟩ false).Along (WakeSystem.Awake ⟨true, 0⟩)
        (wakeSystem ⟨true, 0⟩ false).init [.request .halGpsStart] ∧
      ¬ (wakeSystem ⟨true, 1⟩ true).Along (WakeSystem.Awake ⟨true, 1⟩)
        (wakeSystem ⟨true, 1⟩ true).init
        [.request .flpOflLinkOpen, .startDone 0, .request .halGpsStart, .stopDone] := by
  constructor
  · intro h
    have hheld := (h.2 _ rfl).used rfl ⟨.hal, nofun, nofun, nofun, rfl⟩
    exact absurd hheld (by decide)
  · intro h
    obtain ⟨held, hheld⟩ := ((((h.2 _ rfl).2 _ rfl).2 _ rfl).2 _ rfl).alternates
    exact absurd (hheld.symm.trans (by decide : _ = none)) nofun

end MtkHw.Gps
