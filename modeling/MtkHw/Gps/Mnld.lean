import MtkHw.Lib.Machine

/-!
# The GPS sessions of the location daemon

The state machine of `mnld`: seven clients open and close the receiver, the engine is started and
stopped, and two of the clients can have the receiver in offload mode.  Every handler sends what it
sends in order (`sent`); of the engine it starts and stops, the answers come later as events of
their own.

Wake locks, logs, the monitoring of the sentences and the timers that end the process are left out:
no handler reads them.  The timer that switches to offload mode is kept.
-/

namespace MtkHw.Gps

/-! ## Clients and sessions -/

/-- The clients of the receiver. -/
inductive Client where
  | hal
  | agps
  | flp
  | flpTest
  | geofence
  | atCmdTest
  | factory
  deriving DecidableEq, Repr

/-- `mnld_gps_client`. -/
structure GpsClient where
  gps_used : Bool
  need_open_ack : Bool
  need_close_ack : Bool
  need_reset_ack : Bool
  deriving DecidableEq, Repr

/-- `mnld_gps_state`. -/
inductive GpsState where
  | idle
  | starting
  | started
  | stopping
  | oflStarting
  | oflStarted
  | oflStopping
  deriving DecidableEq, Repr

/-- `mnld_gps_event`. -/
inductive GpsEvent where
  | start
  | stop
  | reset
  | startDone
  | stopDone
  | offloadStart
  deriving DecidableEq, Repr

/-- `MNLD_FLP_CAPABILITY` and `MNLD_GFC_CAPABILITY`. -/
inductive Capability where
  | apMode
  | oflMode
  | apOflMode
  deriving DecidableEq, Repr

/-- `MTK_FLP_Session_T` and `MTK_GFC_Session_T`. -/
structure Session where
  type : Capability
  pre_type : Capability
  id : Nat
  deriving DecidableEq, Repr

/-- The next number of a session. -/
def genNewSession (id : Nat) : Nat := if 0xFFFFFFFF ≤ id + 1 then 0 else id + 1

/-- The settings that a run does not change. -/
structure MnldCfg where
  OFFLOAD_enabled : Bool
  OFFLOAD_switchMode : Int
  deriving DecidableEq, Repr

/-- `MTK_GPS_STATUS`. -/
inductive HalStatus where
  | sessionEngineOn
  | sessionBegin
  | sessionEnd
  | sessionEngineOff
  deriving DecidableEq, Repr

/-- What the handlers send, to the engine first. -/
inductive GpsOutput where
  | controlGpsStart (delete_aiding_flag : Nat)
  | controlGpsStop
  | controlGpsReset (delete_aiding_flag : Nat)
  | halGpsStatus (status : HalStatus)
  | agpsGpsOpen (si_assist_req : Int)
  | agpsGpsClose
  | agpsOpenGpsDone
  | agpsCloseGpsDone
  | agpsResetGpsDone
  | agpsReaidingReq
  | flpGpsOpenDone (ofl : Bool)
  | flpGpsCloseDone (ofl : Bool)
  | gfcGpsOpenDone (ofl : Bool)
  | gfcGpsCloseDone (ofl : Bool)
  | sessionUpdate (client : Client) (id : Nat) (type : Capability)
  | cancelNlpLocation
  deriving DecidableEq, Repr

/-- `g_mnld_ctx` with the sessions of the two offload clients. -/
structure Mnld where
  gps_state : GpsState
  clients : Client → GpsClient
  session : Client → Session
  delete_aiding_flag : Nat
  timer_switch_ofl_mode : Bool
  crashed : Bool
  sent : List GpsOutput

namespace Mnld

variable (m : Mnld)

def send (outputs : List GpsOutput) : Mnld := { m with sent := m.sent ++ outputs }

/-- `CRASH_TO_DEBUG`. -/
def crash : Mnld := { m with crashed := true }

def setState (gps_state : GpsState) : Mnld := { m with gps_state := gps_state }

def setClient (c : Client) (client : GpsClient) : Mnld :=
  { m with clients := fun c' => if c' = c then client else m.clients c' }

def setSession (c : Client) (session : Session) : Mnld :=
  { m with session := fun c' => if c' = c then session else m.session c' }

def startSwitchTimer : Mnld := { m with timer_switch_ofl_mode := true }

/-! ## Predicates -/

def isAllGpsClientExit : Bool :=
  !(m.clients .hal).gps_used && !(m.clients .agps).gps_used && !(m.clients .flp).gps_used &&
    !(m.clients .flpTest).gps_used && !(m.clients .atCmdTest).gps_used &&
    !(m.clients .factory).gps_used && !(m.clients .geofence).gps_used

def isAGpsClientExist : Bool :=
  (m.clients .hal).gps_used || (m.clients .agps).gps_used || (m.clients .flp).gps_used ||
    (m.clients .flpTest).gps_used || (m.clients .atCmdTest).gps_used ||
    (m.clients .factory).gps_used || (m.clients .geofence).gps_used

def isFlpUserExist : Bool := (m.clients .flp).gps_used

def isGeofenceUserExist : Bool := (m.clients .geofence).gps_used

def isAllHbdGpsClientExit : Bool :=
  !(m.clients .hal).gps_used && !(m.clients .agps).gps_used && !(m.clients .atCmdTest).gps_used &&
    !(m.clients .factory).gps_used

def isAHbdGpsClientExist : Bool :=
  (m.clients .hal).gps_used || (m.clients .agps).gps_used || (m.clients .atCmdTest).gps_used ||
    (m.clients .factory).gps_used

/-- `mnld_support_auto_switch_mode`. -/
def supportAutoSwitchMode (cfg : MnldCfg) : Bool :=
  cfg.OFFLOAD_enabled && cfg.OFFLOAD_switchMode = 1

/-- `mnld_offload_is_auto_mode`. -/
def offloadIsAutoMode (cfg : MnldCfg) : Bool :=
  cfg.OFFLOAD_enabled && cfg.OFFLOAD_switchMode = 1 &&
    ((m.session .flp).type = .oflMode || (m.session .geofence).type = .oflMode)

/-- `mnld_offload_is_always_on_mode`. -/
def offloadIsAlwaysOnMode (cfg : MnldCfg) : Bool :=
  cfg.OFFLOAD_enabled && cfg.OFFLOAD_switchMode = 0

/-! ## Acknowledgements -/

def doGpsResetHdlr : Mnld :=
  if (m.clients .agps).need_reset_ack then
    (m.setClient .agps { m.clients .agps with need_reset_ack := false }).send [.agpsResetGpsDone]
  else m

/-- A client whose opening is not acknowledged yet. -/
def ackOpen (c : Client) (outputs : List GpsOutput) : Mnld :=
  if (m.clients c).need_open_ack then
    (m.setClient c { m.clients c with need_open_ack := false }).send outputs
  else m

/-- A client whose closing is not acknowledged yet. -/
def ackClose (c : Client) (outputs : List GpsOutput) : Mnld :=
  if (m.clients c).need_close_ack then
    (m.setClient c { m.clients c with need_close_ack := false }).send outputs
  else m

/-- The mode that is told to an offload client. -/
def toldOfl (cfg : MnldCfg) : Bool := supportAutoSwitchMode cfg && m.offloadIsAutoMode cfg

def doGpsStartedHdlr (cfg : MnldCfg) (si_assist_req : Int) : Mnld :=
  let m := m.ackOpen .hal
    [.halGpsStatus .sessionEngineOn, .halGpsStatus .sessionBegin, .agpsGpsOpen si_assist_req]
  let m := m.ackOpen .agps [.agpsOpenGpsDone]
  let m := m.ackOpen .flp [.flpGpsOpenDone (m.toldOfl cfg), .agpsGpsOpen si_assist_req]
  let m := m.ackOpen .geofence [.gfcGpsOpenDone (m.toldOfl cfg), .agpsGpsOpen si_assist_req]
  let m := m.ackOpen .flpTest []
  let m := m.ackOpen .atCmdTest []
  let m := m.ackOpen .factory []
  let m := m.doGpsResetHdlr
  if m.delete_aiding_flag ≠ 0 then
    { m.send [.controlGpsReset m.delete_aiding_flag] with delete_aiding_flag := 0 }
  else m

def doGpsStoppedHdlr (cfg : MnldCfg) : Mnld :=
  let m := m.ackClose .hal
    [.halGpsStatus .sessionEnd, .halGpsStatus .sessionEngineOff, .agpsGpsClose]
  let m := m.ackClose .agps [.agpsCloseGpsDone]
  let m := m.ackClose .flp [.flpGpsCloseDone (m.toldOfl cfg)]
  let m := m.ackClose .geofence [.gfcGpsCloseDone (m.toldOfl cfg)]
  let m := m.ackClose .flpTest []
  let m := m.ackClose .atCmdTest []
  let m := m.ackClose .factory []
  (m.send [.cancelNlpLocation]).doGpsResetHdlr

/-! ## Engine and sessions -/

/-- The engine is started. -/
def controlGpsStart : Mnld :=
  { m.send [.controlGpsStart m.delete_aiding_flag] with delete_aiding_flag := 0 }

/-- The engine is stopped, in a state that waits for it. -/
def controlGpsStop (gps_state : GpsState) : Mnld :=
  (m.setState gps_state).send [.controlGpsStop]

/-- A client does not use the receiver any more. -/
def dropClient (c : Client) : Mnld :=
  m.setClient c { m.clients c with gps_used := false }

/-- A client does not use the receiver any more, and nothing is acknowledged. -/
def clearClient (c : Client) : Mnld :=
  m.setClient c
    { m.clients c with gps_used := false, need_open_ack := false, need_close_ack := false }

/-- The session of an offload client gets a type; a new one ends the session. -/
def switchSession (c : Client) (type : Capability) : Mnld :=
  if type ≠ (m.session c).pre_type then
    let id := genNewSession (m.session c).id
    ((m.setSession c ⟨type, type, id⟩).dropClient c).send [.sessionUpdate c id type]
  else m.setSession c { m.session c with type := type }

/-- The sessions of both offload clients get a type. -/
def switchSessions (type : Capability) : Mnld :=
  (m.switchSession .flp type).switchSession .geofence type

/-- A type without a new session. -/
def keepSession (c : Client) (type : Capability) : Mnld :=
  m.setSession c { m.session c with type := type, pre_type := type }

/-! ## The states -/

def fsmGpsStateIdle (cfg : MnldCfg) : GpsEvent → Mnld
  | .start => (m.setState .starting).controlGpsStart
  | .stop => m.doGpsStoppedHdlr cfg
  | .reset => m.doGpsResetHdlr
  | .offloadStart => (m.setState .oflStarting).controlGpsStart
  | .startDone | .stopDone => m.crash

def fsmGpsStateStarting (cfg : MnldCfg) (data1 : Int) : GpsEvent → Mnld
  | .stop | .start | .offloadStart | .reset => m
  | .startDone =>
    let m := m.doGpsStartedHdlr cfg data1
    if m.isAllGpsClientExit then m.controlGpsStop .stopping
    else
      let m := m.setState .started
      if m.isAHbdGpsClientExist || !supportAutoSwitchMode cfg then
        m.switchSessions .apMode
      else ((m.keepSession .flp .apMode).keepSession .geofence .apMode).startSwitchTimer
  | .stopDone => m.crash

def fsmGpsStateStarted (cfg : MnldCfg) : GpsEvent → Mnld
  | .start => m.doGpsStartedHdlr cfg 0
  | .stop =>
    if m.isAllGpsClientExit then m.controlGpsStop .stopping
    else
      let m := m.doGpsStoppedHdlr cfg
      if m.isAllHbdGpsClientExit && supportAutoSwitchMode cfg then m.startSwitchTimer else m
  | .reset =>
    if m.delete_aiding_flag ≠ 0 then
      { m.send [.controlGpsReset m.delete_aiding_flag] with delete_aiding_flag := 0 }
    else m
  | .startDone => if (m.clients .hal).gps_used then m.send [.agpsReaidingReq] else m
  | .offloadStart => m
  | .stopDone => m.crash

def fsmGpsStateStopping (cfg : MnldCfg) : GpsEvent → Mnld
  | .start | .stop => m
  | .reset => m.doGpsResetHdlr
  | .stopDone =>
    let m := m.doGpsStoppedHdlr cfg
    if m.isAGpsClientExist then (m.setState .starting).controlGpsStart
    else
      let m := m.setState .idle
      if offloadIsAlwaysOnMode cfg then
        m.switchSessions .apOflMode
      else m
  | .offloadStart | .startDone => m

def fsmGpsStateOflStarting (cfg : MnldCfg) (data1 : Int) : GpsEvent → Mnld
  | .stop | .start | .offloadStart | .reset => m
  | .startDone =>
    let m := m.doGpsStartedHdlr cfg data1
    if m.isAllGpsClientExit || m.isAHbdGpsClientExist then m.controlGpsStop .oflStopping
    else
      let m := m.setState .oflStarted
      let m := m.setSession .flp { m.session .flp with type := .oflMode }
      m.setSession .geofence { m.session .geofence with type := .oflMode }
  | .stopDone => m.crash

def fsmGpsStateOflStarted (cfg : MnldCfg) : GpsEvent → Mnld
  | .start =>
    let m := m.doGpsStartedHdlr cfg 0
    if m.isAHbdGpsClientExist then
      ((m.clearClient .flp).clearClient .geofence).controlGpsStop .oflStopping
    else m
  | .stop =>
    if m.isFlpUserExist || m.isGeofenceUserExist then m.doGpsStoppedHdlr cfg
    else m.controlGpsStop .oflStopping
  | .reset => m
  | .startDone => if (m.clients .hal).gps_used then m.send [.agpsReaidingReq] else m
  | .offloadStart => m
  | .stopDone => m.crash

/-- With a host based client, the machine is entered again, in the idle state. -/
def fsmGpsStateOflStopping (cfg : MnldCfg) : GpsEvent → Mnld
  | .start | .stop => m
  | .reset => m.doGpsResetHdlr
  | .stopDone =>
    let m := m.doGpsStoppedHdlr cfg
    if (m.isFlpUserExist || m.isGeofenceUserExist) && m.isAllHbdGpsClientExit then
      (m.setState .oflStarting).controlGpsStart
    else
      let m := m.setState .idle
      if m.isAHbdGpsClientExist then
        (m.switchSessions .apMode).fsmGpsStateIdle cfg .start
      else if supportAutoSwitchMode cfg then
        m.switchSessions .apOflMode
      else m
  | .offloadStart | .startDone => m

/-- `mnld_fsm`. -/
def fsm (cfg : MnldCfg) (event : GpsEvent) (data1 : Int) : Mnld :=
  match m.gps_state with
  | .idle => m.fsmGpsStateIdle cfg event
  | .starting => m.fsmGpsStateStarting cfg data1 event
  | .started => m.fsmGpsStateStarted cfg event
  | .stopping => m.fsmGpsStateStopping cfg event
  | .oflStarting => m.fsmGpsStateOflStarting cfg data1 event
  | .oflStarted => m.fsmGpsStateOflStarted cfg event
  | .oflStopping => m.fsmGpsStateOflStopping cfg event

/-! ## Requests -/

/-- A client opens the receiver. -/
def openGps (c : Client) (need_open_ack : Bool) (event : GpsEvent) (cfg : MnldCfg) : Mnld :=
  (m.setClient c { m.clients c with
    gps_used := true, need_open_ack := need_open_ack, need_close_ack := false }).fsm cfg event 0

/-- A client closes the receiver. -/
def closeGps (c : Client) (need_close_ack : Bool) (cfg : MnldCfg) : Mnld :=
  (m.setClient c { m.clients c with
    gps_used := false, need_open_ack := false, need_close_ack := need_close_ack }).fsm cfg .stop 0

/-- A client starts anew. -/
def rebootClient (c : Client) (cfg : MnldCfg) : Mnld :=
  (m.setClient c ⟨false, false, false, false⟩).fsm cfg .stop 0

def halReboot (cfg : MnldCfg) : Mnld := m.rebootClient .hal cfg

def halGpsStart (cfg : MnldCfg) : Mnld := m.openGps .hal true .start cfg

def halGpsStop (cfg : MnldCfg) : Mnld := m.closeGps .hal true cfg

def halGpsDeleteAidingData (flags : Nat) (cfg : MnldCfg) : Mnld :=
  ({ m.setClient .hal { m.clients .hal with need_reset_ack := false } with
    delete_aiding_flag := m.delete_aiding_flag ||| flags }).fsm cfg .reset 0

def agpsReboot (cfg : MnldCfg) : Mnld := m.rebootClient .agps cfg

def agpsOpenGpsReq (cfg : MnldCfg) : Mnld := m.openGps .agps true .start cfg

def agpsCloseGpsReq (cfg : MnldCfg) : Mnld := m.closeGps .agps true cfg

def agpsResetGpsReq (flags : Nat) (cfg : MnldCfg) : Mnld :=
  if flags = 0 then m.send [.agpsResetGpsDone]
  else
    ({ m.setClient .agps { m.clients .agps with need_reset_ack := true } with
      delete_aiding_flag := m.delete_aiding_flag ||| flags }).fsm cfg .reset 0

def flpReboot (cfg : MnldCfg) : Mnld := m.rebootClient .flp cfg

def flpHbdGpsOpen (cfg : MnldCfg) : Mnld := m.openGps .flp true .start cfg

def flpHbdGpsClose (cfg : MnldCfg) : Mnld := m.closeGps .flp true cfg

def flpOflLinkOpen (cfg : MnldCfg) : Mnld :=
  (m.setSession .flp { m.session .flp with type := .oflMode }).openGps .flp true .offloadStart cfg

def flpOflLinkClose (cfg : MnldCfg) : Mnld := m.closeGps .flp true cfg

def gfcReboot (cfg : MnldCfg) : Mnld := m.rebootClient .geofence cfg

def gfcHbdGpsOpen (cfg : MnldCfg) : Mnld := m.openGps .geofence true .start cfg

def gfcHbdGpsClose (cfg : MnldCfg) : Mnld := m.closeGps .geofence true cfg

def gfcOflLinkOpen (cfg : MnldCfg) : Mnld :=
  (m.setSession .geofence { m.session .geofence with type := .oflMode }).openGps
    .geofence true .offloadStart cfg

def gfcOflLinkClose (cfg : MnldCfg) : Mnld := m.closeGps .geofence true cfg

def flpTestGpsStart (cfg : MnldCfg) : Mnld := m.openGps .flpTest false .start cfg

def flpTestGpsStop (cfg : MnldCfg) : Mnld := m.closeGps .flpTest false cfg

def factoryMnldGpsStart (cfg : MnldCfg) : Mnld := m.openGps .factory false .start cfg

def factoryMnldGpsStop (cfg : MnldCfg) : Mnld := m.closeGps .factory false cfg

def atTestGpsStart (cfg : MnldCfg) : Mnld := m.openGps .atCmdTest false .start cfg

def atTestGpsStop (cfg : MnldCfg) : Mnld := m.closeGps .atCmdTest false cfg

/-- `mnld_gps_switch_ofl_mode_timeout`. -/
def gpsSwitchOflModeTimeout (cfg : MnldCfg) : Mnld :=
  if m.isAllHbdGpsClientExit then
    ((m.clearClient .flp).clearClient .geofence).fsm cfg .stop 0
  else m

end Mnld

/-! ## The system -/

/-- The requests of the clients. -/
inductive GpsRequest where
  | halReboot
  | halGpsStart
  | halGpsStop
  | halGpsDeleteAidingData (flags : Nat)
  | agpsReboot
  | agpsOpenGpsReq
  | agpsCloseGpsReq
  | agpsResetGpsReq (flags : Nat)
  | flpReboot
  | flpHbdGpsOpen
  | flpHbdGpsClose
  | flpOflLinkOpen
  | flpOflLinkClose
  | gfcReboot
  | gfcHbdGpsOpen
  | gfcHbdGpsClose
  | gfcOflLinkOpen
  | gfcOflLinkClose
  | flpTestGpsStart
  | flpTestGpsStop
  | factoryMnldGpsStart
  | factoryMnldGpsStop
  | atTestGpsStart
  | atTestGpsStop
  deriving DecidableEq, Repr

/-- The handler of a request. -/
def GpsRequest.handle (cfg : MnldCfg) (m : Mnld) : GpsRequest → Mnld
  | halReboot => m.halReboot cfg
  | halGpsStart => m.halGpsStart cfg
  | halGpsStop => m.halGpsStop cfg
  | halGpsDeleteAidingData flags => m.halGpsDeleteAidingData flags cfg
  | agpsReboot => m.agpsReboot cfg
  | agpsOpenGpsReq => m.agpsOpenGpsReq cfg
  | agpsCloseGpsReq => m.agpsCloseGpsReq cfg
  | agpsResetGpsReq flags => m.agpsResetGpsReq flags cfg
  | flpReboot => m.flpReboot cfg
  | flpHbdGpsOpen => m.flpHbdGpsOpen cfg
  | flpHbdGpsClose => m.flpHbdGpsClose cfg
  | flpOflLinkOpen => m.flpOflLinkOpen cfg
  | flpOflLinkClose => m.flpOflLinkClose cfg
  | gfcReboot => m.gfcReboot cfg
  | gfcHbdGpsOpen => m.gfcHbdGpsOpen cfg
  | gfcHbdGpsClose => m.gfcHbdGpsClose cfg
  | gfcOflLinkOpen => m.gfcOflLinkOpen cfg
  | gfcOflLinkClose => m.gfcOflLinkClose cfg
  | flpTestGpsStart => m.flpTestGpsStart cfg
  | flpTestGpsStop => m.flpTestGpsStop cfg
  | factoryMnldGpsStart => m.factoryMnldGpsStart cfg
  | factoryMnldGpsStop => m.factoryMnldGpsStop cfg
  | atTestGpsStart => m.atTestGpsStart cfg
  | atTestGpsStop => m.atTestGpsStop cfg

/-- What the engine is told. -/
inductive EngineCommand where
  | start
  | stop
  deriving DecidableEq, Repr

/-- The commands among what is sent. -/
def engineCommand : GpsOutput → Option EngineCommand
  | .controlGpsStart _ => some .start
  | .controlGpsStop => some .stop
  | _ => none

/-- The engine; `misused` says that it was started while it was not off, or stopped while it was
not on. -/
structure GpsEngine where
  on : Bool
  outstanding : List EngineCommand
  misused : Bool
  deriving DecidableEq, Repr

namespace GpsEngine

variable (e : GpsEngine)

/-- A command is given. -/
def command : EngineCommand → GpsEngine
  | .start => { e with
      outstanding := e.outstanding ++ [.start]
      misused := e.misused || e.on || !e.outstanding.isEmpty }
  | .stop => { e with
      outstanding := e.outstanding ++ [.stop]
      misused := e.misused || !e.on || !e.outstanding.isEmpty }

/-- The commands of a handler are given. -/
def observe (sent : List GpsOutput) : GpsEngine :=
  (sent.filterMap engineCommand).foldl command e

end GpsEngine

/-- The daemon and the engine. -/
structure GpsSystem where
  mnld : Mnld
  engine : GpsEngine

/-- What can happen: a request, the answer of the engine to the oldest command, the end of a reset,
and the expiry of the timer that switches to offload mode. -/
inductive GpsInput where
  | request (r : GpsRequest)
  | answer (si_assist_req : Int)
  | resetDone
  | switchTimeout
  deriving DecidableEq, Repr

namespace GpsSystem

/-- A handler runs; what it sends goes to the engine. -/
def handled (engine : GpsEngine) (m : Mnld) : GpsSystem := ⟨m, engine.observe m.sent⟩

/-- The daemon with nothing sent yet. -/
def fresh (s : GpsSystem) : Mnld := { s.mnld with sent := [] }

/-- One event; without an outstanding command there is no answer, and a timer that was not started
does not expire. -/
def next (cfg : MnldCfg) (s : GpsSystem) : GpsInput → GpsSystem
  | .request r => handled s.engine (r.handle cfg s.fresh)
  | .answer si_assist_req =>
    match s.engine.outstanding with
    | [] => s
    | .start :: rest =>
      handled { s.engine with on := true, outstanding := rest }
        (s.fresh.fsm cfg .startDone si_assist_req)
    | .stop :: rest =>
      handled { s.engine with on := false, outstanding := rest } (s.fresh.fsm cfg .stopDone 0)
  | .resetDone => handled s.engine s.fresh.doGpsResetHdlr
  | .switchTimeout =>
    if s.mnld.timer_switch_ofl_mode then
      handled s.engine
        (({ s.fresh with timer_switch_ofl_mode := false }).gpsSwitchOflModeTimeout cfg)
    else s

end GpsSystem

/-- The daemon when it starts, with the sessions as they are configured. -/
def Mnld.initial (session : Client → Session) : Mnld where
  gps_state := .idle
  clients := fun _ => ⟨false, false, false, false⟩
  session := session
  delete_aiding_flag := 0
  timer_switch_ofl_mode := false
  crashed := false
  sent := []

/-- The GPS sessions: the daemon, its clients and the engine. -/
def gpsSystem (cfg : MnldCfg) (session : Client → Session) : Lib.Machine GpsSystem GpsInput where
  init := ⟨.initial session, false, [], false⟩
  step s input := some (s.next cfg input)

end MtkHw.Gps
