import MtkHw.Gps.DataCoder

/-!
# The messages between the HAL and the daemon

The calls that the HAL makes of `mnld` and that `mnld` makes of the HAL.  A call is one datagram:
the version of the interface, the number of the call and the arguments; the handler on the other
side reads the number and makes the call with the arguments it reads.  A datagram is built in a
buffer of `HAL_MNL_BUFF_SIZE` bytes and read in another one, which is zero behind it.  When a buffer
is overrun there is no result.

All functions of a handler are there, so that only an unknown number is refused.
-/

namespace MtkHw.Gps

open Lib

def HAL_MNL_BUFF_SIZE : Nat := 16 * 1024

def HAL_MNL_INTERFACE_VERSION : BitVec 32 := 1

/-! ## Datagrams -/

/-- The bytes of a call. -/
def message (cmd : BitVec 32) (args : List Octet) : List Octet :=
  putInt HAL_MNL_INTERFACE_VERSION ++ (putInt cmd ++ args)

/-- What `safe_sendto` is given. -/
def sendMessage (bytes : List Octet) : Option (List Octet) :=
  if bytes.length ≤ HAL_MNL_BUFF_SIZE then some bytes else none

/-- The buffer after `safe_recvfrom`. -/
def received (datagram : List Octet) : Cursor :=
  ⟨(datagram ++ List.replicate HAL_MNL_BUFF_SIZE 0).take HAL_MNL_BUFF_SIZE, 0⟩

/-- The start of a handler. -/
def readCall {α : Type} (call : BitVec 32 → Reader α) : Reader α := do
  let _ver ← getInt
  let cmd ← getInt
  call cmd

/-- The handler comes to the call, with the arguments before it. -/
theorem readCall_received {α : Type} (call : BitVec 32 → Reader α) {cmd : BitVec 32}
    {args : List Octet} (h : (message cmd args).length ≤ HAL_MNL_BUFF_SIZE) :
    ∃ before zeros,
      readCall call (received (message cmd args)) = call cmd (.between before (args ++ zeros)) := by
  have hzeros : ∃ zeros, received (message cmd args) = .between [] (message cmd args ++ zeros) :=
    ⟨_, by rw [received, List.take_append, List.take_of_length_le h]; rfl⟩
  obtain ⟨zeros, hzeros⟩ := hzeros
  rw [hzeros, readCall, message, List.append_assoc, List.append_assoc,
    (reads_getInt _).bind_apply, (reads_getInt _).bind_apply]
  exact ⟨_, zeros, rfl⟩

/-- A call comes to its handler if it fits the buffer. -/
theorem readCall_sent {α : Type} (call : BitVec 32 → Reader α) (cmd : BitVec 32)
    (args : List Octet) : ∃ before zeros,
    ((sendMessage (message cmd args)).bind fun d => (readCall call (received d)).map Prod.fst) =
      if (message cmd args).length ≤ HAL_MNL_BUFF_SIZE then
        (call cmd (.between before (args ++ zeros))).map Prod.fst
      else none := by
  rw [sendMessage]
  split
  · rename_i hsize
    obtain ⟨before, zeros, hcall⟩ := readCall_received call hsize
    exact ⟨before, zeros, congrArg (Option.map Prod.fst) hcall⟩
  · exact ⟨[], [], rfl⟩

/-! ## From the HAL to the daemon -/

/-- The calls of `hal2mnl_interface`. -/
inductive Hal2Mnl where
  | halReboot
  | gpsInit
  | gpsStart
  | gpsStop
  | gpsCleanup
  | gpsInjectTime (time time_reference : BitVec 64) (uncertainty : BitVec 32)
  | gpsInjectLocation (lat lng : BitVec 64) (acc : BitVec 32)
  | gpsDeleteAidingData (flags : BitVec 32)
  | gpsSetPositionMode (mode recurrence min_interval preferred_acc preferred_time : BitVec 32)
  | dataConnOpen (apn : Option (List Octet))
  | dataConnOpenWithApnIpType (apn : Option (List Octet)) (ip_type : BitVec 32)
  | dataConnClosed
  | dataConnFailed
  | setServer (type : BitVec 32) (hostname : Option (List Octet)) (port : BitVec 32)
  | setRefLocation (type mcc mnc lac cid : BitVec 32)
  | setId (type : BitVec 32) (setid : Option (List Octet))
  | niMessage (msg : List Octet) (len : BitVec 32)
  | niRespond (notif_id user_response : BitVec 32)
  | updateNetworkState (connected type roaming : BitVec 32) (extra_info : Option (List Octet))
  | updateNetworkAvailability (available : BitVec 32) (apn : Option (List Octet))
  | setGpsMeasurement (enabled : Bool)
  | setGpsNavigation (enabled : Bool)
  | setVzwDebug (enabled : Bool)
  deriving DecidableEq, Repr

namespace Hal2Mnl

/-- `hal2mnl_cmd`. -/
def cmd : Hal2Mnl → BitVec 32
  | halReboot => 0
  | gpsInit => 101
  | gpsStart => 102
  | gpsStop => 103
  | gpsCleanup => 104
  | gpsInjectTime .. => 105
  | gpsInjectLocation .. => 106
  | gpsDeleteAidingData _ => 107
  | gpsSetPositionMode .. => 108
  | dataConnOpen _ => 201
  | dataConnOpenWithApnIpType .. => 202
  | dataConnClosed => 203
  | dataConnFailed => 204
  | setServer .. => 301
  | setRefLocation .. => 302
  | setId .. => 303
  | niMessage .. => 401
  | niRespond .. => 402
  | updateNetworkState .. => 501
  | updateNetworkAvailability .. => 502
  | setGpsMeasurement _ => 601
  | setGpsNavigation _ => 602
  | setVzwDebug _ => 603

def putBool (enabled : Bool) : List Octet := putInt (if enabled then 1 else 0)

def args : Hal2Mnl → List Octet
  | halReboot | gpsInit | gpsStart | gpsStop | gpsCleanup | dataConnClosed | dataConnFailed => []
  | gpsInjectTime time time_reference uncertainty =>
    putLong time ++ (putLong time_reference ++ putInt uncertainty)
  | gpsInjectLocation lat lng acc => putDouble lat ++ (putDouble lng ++ putFloat acc)
  | gpsDeleteAidingData flags => putInt flags
  | gpsSetPositionMode mode recurrence min_interval preferred_acc preferred_time =>
    putInt mode ++ (putInt recurrence ++ (putInt min_interval ++ (putInt preferred_acc ++
      putInt preferred_time)))
  | dataConnOpen apn => putString apn
  | dataConnOpenWithApnIpType apn ip_type => putString apn ++ putInt ip_type
  | setServer type hostname port => putInt type ++ (putString hostname ++ putInt port)
  | setRefLocation type mcc mnc lac cid =>
    putInt type ++ (putInt mcc ++ (putInt mnc ++ (putInt lac ++ putInt cid)))
  | setId type setid => putInt type ++ putString setid
  | niMessage msg len => putBinary msg len
  | niRespond notif_id user_response => putInt notif_id ++ putInt user_response
  | updateNetworkState connected type roaming extra_info =>
    putInt connected ++ (putInt type ++ (putInt roaming ++ putString extra_info))
  | updateNetworkAvailability available apn => putInt available ++ putString apn
  | setGpsMeasurement enabled | setGpsNavigation enabled | setVzwDebug enabled => putBool enabled

/-- A call of the HAL. -/
def send (call : Hal2Mnl) : Option (List Octet) := sendMessage (message call.cmd call.args)

/-- The arguments as a program can have them: texts, and a message as long as its length. -/
def WellFormed : Hal2Mnl → Prop
  | dataConnOpen text | dataConnOpenWithApnIpType text _ | setServer _ text _ | setId _ text
  | updateNetworkState _ _ _ text | updateNetworkAvailability _ text => CText text
  | niMessage msg len => Exact msg len
  | _ => True

/-- The size of the output that `hal2mnl_hdlr` has for a message of the network. -/
def niSize : Nat := 1024

/-- The message of the network, where there is one. -/
def niMessage? : Hal2Mnl → List Octet
  | niMessage msg _ => msg
  | _ => []

end Hal2Mnl

open Hal2Mnl in
/-- The cases of `hal2mnl_hdlr`. -/
def hal2mnlCall (cmd : BitVec 32) : Reader (Option Hal2Mnl) :=
  match cmd.toNat with
  | 0 => return some halReboot
  | 101 => return some gpsInit
  | 102 => return some gpsStart
  | 103 => return some gpsStop
  | 104 => return some gpsCleanup
  | 105 => return some (gpsInjectTime (← getLong) (← getLong) (← getInt))
  | 106 => return some (gpsInjectLocation (← getDouble) (← getDouble) (← getFloat))
  | 107 => return some (gpsDeleteAidingData (← getInt))
  | 108 => return some (gpsSetPositionMode (← getInt) (← getInt) (← getInt) (← getInt) (← getInt))
  | 201 => return some (dataConnOpen (← getString))
  | 202 => return some (dataConnOpenWithApnIpType (← getString) (← getInt))
  | 203 => return some dataConnClosed
  | 204 => return some dataConnFailed
  | 301 => return some (setServer (← getInt) (← getString) (← getInt))
  | 302 => return some (setRefLocation (← getInt) (← getInt) (← getInt) (← getInt) (← getInt))
  | 303 => return some (setId (← getInt) (← getString))
  | 401 => do
    let msg ← getBinary niSize
    return some (niMessage msg.1 msg.2)
  | 402 => return some (niRespond (← getInt) (← getInt))
  | 501 => return some (updateNetworkState (← getInt) (← getInt) (← getInt) (← getString))
  | 502 => return some (updateNetworkAvailability (← getInt) (← getString))
  | 601 => return some (setGpsMeasurement ((← getInt) ≠ 0))
  | 602 => return some (setGpsNavigation ((← getInt) ≠ 0))
  | 603 => return some (setVzwDebug ((← getInt) ≠ 0))
  | _ => return none

/-- `hal2mnl_hdlr`: the call that is made, if any. -/
def hal2mnlHdlr (datagram : List Octet) : Option (Option Hal2Mnl) :=
  (readCall hal2mnlCall (received datagram)).map Prod.fst

theorem reads_putBool (enabled : Bool) (g : Bool → Hal2Mnl) :
    Reads (do let e ← getInt; return some (g (e ≠ 0))) (Hal2Mnl.putBool enabled)
      (some (g enabled)) := by
  have hread := (reads_getInt (if enabled then 1 else 0)).map fun e => some (g (e ≠ 0))
  cases enabled <;> exact hread

open Hal2Mnl in
/-- The handler reads back what the HAL has written. -/
theorem reads_hal2mnlCall (call : Hal2Mnl) (h : call.WellFormed)
    (hni : call.niMessage?.length ≤ niSize) :
    Reads (hal2mnlCall call.cmd) call.args (some call) := by
  cases call with
  | halReboot | gpsInit | gpsStart | gpsStop | gpsCleanup | dataConnClosed | dataConnFailed =>
    exact .pure _
  | gpsInjectTime time time_reference uncertainty =>
    exact (reads_getLong time).bind ((reads_getLong time_reference).bind
      ((reads_getInt uncertainty).map _))
  | gpsInjectLocation lat lng acc =>
    exact (reads_getLong lat).bind ((reads_getLong lng).bind ((reads_getInt acc).map _))
  | gpsDeleteAidingData flags => exact (reads_getInt flags).map _
  | gpsSetPositionMode mode recurrence min_interval preferred_acc preferred_time =>
    exact (reads_getInt mode).bind ((reads_getInt recurrence).bind
      ((reads_getInt min_interval).bind ((reads_getInt preferred_acc).bind
        ((reads_getInt preferred_time).map _))))
  | dataConnOpen apn => exact (reads_getString h).map _
  | dataConnOpenWithApnIpType apn ip_type =>
    exact (reads_getString h).bind ((reads_getInt ip_type).map _)
  | setServer type hostname port =>
    exact (reads_getInt type).bind ((reads_getString h).bind ((reads_getInt port).map _))
  | setRefLocation type mcc mnc lac cid =>
    exact (reads_getInt type).bind ((reads_getInt mcc).bind ((reads_getInt mnc).bind
      ((reads_getInt lac).bind ((reads_getInt cid).map _))))
  | setId type setid => exact (reads_getInt type).bind ((reads_getString h).map _)
  | niMessage msg len =>
    exact (reads_getBinary h hni).map fun msg => some (niMessage msg.1 msg.2)
  | niRespond notif_id user_response =>
    exact (reads_getInt notif_id).bind ((reads_getInt user_response).map _)
  | updateNetworkState connected type roaming extra_info =>
    exact (reads_getInt connected).bind ((reads_getInt type).bind ((reads_getInt roaming).bind
      ((reads_getString h).map _)))
  | updateNetworkAvailability available apn =>
    exact (reads_getInt available).bind ((reads_getString h).map _)
  | setGpsMeasurement enabled => exact reads_putBool enabled setGpsMeasurement
  | setGpsNavigation enabled => exact reads_putBool enabled setGpsNavigation
  | setVzwDebug enabled => exact reads_putBool enabled setVzwDebug

/-- A call of the HAL arrives at the daemon as the same call with the same arguments, or a buffer
is overrun: that of the message, or that of a message of the network. -/
theorem hal2mnl_delivered (call : Hal2Mnl) (h : call.WellFormed) :
    call.send.bind hal2mnlHdlr =
      if (message call.cmd call.args).length ≤ HAL_MNL_BUFF_SIZE ∧
        call.niMessage?.length ≤ Hal2Mnl.niSize then some (some call) else none := by
  obtain ⟨before, zeros, hsent⟩ := readCall_sent hal2mnlCall call.cmd call.args
  refine hsent.trans ?_
  by_cases hni : call.niMessage?.length ≤ Hal2Mnl.niSize
  · rw [reads_hal2mnlCall call h hni before zeros]
    simp only [hni, and_true, Option.map_some]
  · refine Eq.trans (b := none) ?_ (if_neg fun hall => hni hall.2).symm
    cases call with
    | niMessage msg len =>
      have hcall : hal2mnlCall 401 (.between before (putBinary msg len ++ zeros)) = none :=
        (overruns_getBinary h (Nat.lt_of_not_le hni)).bind _ before zeros
      exact (congrArg (fun c => ite _ (Option.map Prod.fst c) none) hcall).trans (ite_self _)
    | _ => exact absurd (Nat.zero_le _) hni

theorem dataConnOpen_delivered : (Hal2Mnl.dataConnOpen (some [105])).send.bind hal2mnlHdlr =
    some (some (.dataConnOpen (some [105]))) :=
  (hal2mnl_delivered _ (by rintro _ ⟨⟩; decide)).trans (if_pos (by decide))

/-! ## From the daemon to the HAL -/

/-- The calls that pass one structure. -/
inductive MnlStruct where
  | location
  | gpsStatus
  | gpsSv
  | gpsCapabilities
  | gpsMeasurements
  | gpsNavigation
  | gnssMeasurements
  | gnssNavigation
  | requestDataConn
  deriving DecidableEq, Repr

/-- The calls of `mnl2hal_interface`; a structure is its bytes. -/
inductive Mnl2Hal where
  | mnldReboot
  | struct (s : MnlStruct) (bytes : List Octet)
  | nmea (timestamp : BitVec 64) (text : Option (List Octet)) (length : BitVec 32)
  | requestWakelock
  | releaseWakelock
  | requestUtcTime
  | releaseDataConn
  | requestNiNotify (session_id type : BitVec 32) (requestor_id client_name : Option (List Octet))
      (requestor_id_encoding client_name_encoding : BitVec 32)
  | requestSetId (flags : BitVec 32)
  | requestRefLoc (flags : BitVec 32)
  | vzwDebugOutput (str : Option (List Octet))
  deriving DecidableEq, Repr

def MnlStruct.cmd : MnlStruct → BitVec 32
  | location => 101
  | gpsStatus => 102
  | gpsSv => 103
  | gpsCapabilities => 105
  | gpsMeasurements => 106
  | gpsNavigation => 107
  | gnssMeasurements => 108
  | gnssNavigation => 109
  | requestDataConn => 302

namespace Mnl2Hal

/-- `mnl2hal_cmd`. -/
def cmd : Mnl2Hal → BitVec 32
  | mnldReboot => 1
  | struct s _ => s.cmd
  | nmea .. => 104
  | requestWakelock => 201
  | releaseWakelock => 202
  | requestUtcTime => 301
  | releaseDataConn => 303
  | requestNiNotify .. => 304
  | requestSetId _ => 305
  | requestRefLoc _ => 306
  | vzwDebugOutput _ => 307

def args : Mnl2Hal → List Octet
  | mnldReboot | requestWakelock | releaseWakelock | requestUtcTime | releaseDataConn => []
  | struct _ bytes => putBinary bytes (.ofNat 32 bytes.length)
  | nmea timestamp text length => putLong timestamp ++ (putString text ++ putInt length)
  | requestNiNotify session_id type requestor_id client_name requestor_id_encoding
      client_name_encoding =>
    putInt session_id ++ (putInt type ++ (putString requestor_id ++ (putString client_name ++
      (putInt requestor_id_encoding ++ putInt client_name_encoding))))
  | requestSetId flags | requestRefLoc flags => putInt flags
  | vzwDebugOutput str => putString str

/-- A call of the daemon. -/
def send (call : Mnl2Hal) : Option (List Octet) := sendMessage (message call.cmd call.args)

/-- The arguments as a program can have them; both sides are built with the same structures. -/
def WellFormed (sizeof : MnlStruct → Nat) : Mnl2Hal → Prop
  | struct s bytes => bytes.length = sizeof s ∧ sizeof s < 2 ^ 31
  | nmea _ text _ | vzwDebugOutput text => CText text
  | requestNiNotify _ _ text text' _ _ => CText text ∧ CText text'
  | _ => True

end Mnl2Hal

section

variable (sizeof : MnlStruct → Nat)

/-- The cases of `mnl2hal_hdlr` that read a structure. -/
def getStruct (s : MnlStruct) : Reader (Option Mnl2Hal) := do
  let bytes ← getBinary (sizeof s)
  return some (.struct s bytes.1)

open Mnl2Hal in
/-- The cases of `mnl2hal_hdlr`. -/
def mnl2halCall (cmd : BitVec 32) : Reader (Option Mnl2Hal) :=
  match cmd.toNat with
  | 1 => return some mnldReboot
  | 101 => getStruct sizeof .location
  | 102 => getStruct sizeof .gpsStatus
  | 103 => getStruct sizeof .gpsSv
  | 104 => return some (nmea (← getLong) (← getString) (← getInt))
  | 105 => getStruct sizeof .gpsCapabilities
  | 106 => getStruct sizeof .gpsMeasurements
  | 107 => getStruct sizeof .gpsNavigation
  | 108 => getStruct sizeof .gnssMeasurements
  | 109 => getStruct sizeof .gnssNavigation
  | 201 => return some requestWakelock
  | 202 => return some releaseWakelock
  | 301 => return some requestUtcTime
  | 302 => getStruct sizeof .requestDataConn
  | 303 => return some releaseDataConn
  | 304 => do
    return some (requestNiNotify (← getInt) (← getInt) (← getString) (← getString) (← getInt)
      (← getInt))
  | 305 => return some (requestSetId (← getInt))
  | 306 => return some (requestRefLoc (← getInt))
  | 307 => return some (vzwDebugOutput (← getString))
  | _ => return none

/-- The handler of the HAL reads back what the daemon has written. -/
theorem reads_mnl2halCall (call : Mnl2Hal) (h : call.WellFormed sizeof) :
    Reads (mnl2halCall sizeof call.cmd) call.args (some call) := by
  cases call with
  | mnldReboot | requestWakelock | releaseWakelock | requestUtcTime | releaseDataConn =>
    exact .pure _
  | struct s bytes =>
    have hexact : Exact bytes (.ofNat 32 bytes.length) := by
      rw [Exact, toInt_ofNat_length (h.1 ▸ h.2), Int.toNat_natCast]
    have hread : Reads (getStruct sizeof s) (putBinary bytes (.ofNat 32 bytes.length))
        (some (.struct s bytes)) :=
      (reads_getBinary hexact (Nat.le_of_eq h.1)).map fun bytes => some (Mnl2Hal.struct s bytes.1)
    cases s <;> exact hread
  | nmea timestamp text length =>
    exact (reads_getLong timestamp).bind ((reads_getString h).bind ((reads_getInt length).map _))
  | requestNiNotify session_id type requestor_id client_name requestor_id_encoding
      client_name_encoding =>
    exact (reads_getInt session_id).bind ((reads_getInt type).bind ((reads_getString h.1).bind
      ((reads_getString h.2).bind ((reads_getInt requestor_id_encoding).bind
        ((reads_getInt client_name_encoding).map _)))))
  | requestSetId flags => exact (reads_getInt flags).map _
  | requestRefLoc flags => exact (reads_getInt flags).map _
  | vzwDebugOutput str => exact (reads_getString h).map _

/-! ### Locations -/

/-- `count` and `report_time_interval`, which is in milliseconds here. -/
structure Report where
  count : Nat
  report_time_interval : Int
  deriving DecidableEq, Repr

namespace Report

variable (r : Report)

/-- What `hal2mnl_gps_set_position_mode` keeps for the reports. -/
def setPositionMode (min_interval : BitVec 32) : Report :=
  { r with report_time_interval := if min_interval.toInt ≤ 1000 then 1000 else min_interval.toInt }

/-- The body of `mnl2hal_hdlr`: too early, a location is only counted. -/
def hdlr (cmd : BitVec 32) : Reader (Report × Option Mnl2Hal) :=
  if cmd = MnlStruct.location.cmd then
    if r.report_time_interval > ((r.count + 1 : Nat) : Int) * 1000 then
      return ({ r with count := r.count + 1 }, none)
    else do
      let call ← mnl2halCall sizeof cmd
      return ({ r with count := 0 }, call)
  else do
    let call ← mnl2halCall sizeof cmd
    return (r, call)

/-- `mnl2hal_hdlr`. -/
def mnl2halHdlr (datagram : List Octet) : Option (Report × Option Mnl2Hal) :=
  (readCall (r.hdlr sizeof) (received datagram)).map Prod.fst

/-- The calls that a row of datagrams leads to. -/
def handleAll : Report → List (List Octet) → Option (List Mnl2Hal)
  | _, [] => some []
  | r, d :: ds => (r.mnl2halHdlr sizeof d).bind fun next =>
      (handleAll next.1 ds).map fun calls => next.2.toList ++ calls

/-- The number of locations of which one is handed on. -/
def period : Nat := max 1 ((r.report_time_interval.toNat + 999) / 1000)

end Report

def Mnl2Hal.isLocation : Mnl2Hal → Bool
  | struct .location _ => true
  | _ => false

/-- Of the locations every `p`-th one, when `c` have passed since the last; of the rest all. -/
def thin (p : Nat) : Nat → List Mnl2Hal → List Mnl2Hal
  | _, [] => []
  | c, call :: calls =>
    if call.isLocation then
      if c + 1 < p then thin p (c + 1) calls else call :: thin p 0 calls
    else call :: thin p c calls

theorem thin_filter (p c : Nat) (calls : List Mnl2Hal) :
    (thin p c calls).filter (!·.isLocation) = calls.filter (!·.isLocation) := by
  induction calls generalizing c with
  | nil => rfl
  | cons call calls ih =>
    rw [thin]
    split
    · rename_i hloc
      split <;> simp [hloc, ih]
    · rename_i hloc
      simp [hloc, ih]

theorem thin_sublist (p c : Nat) (calls : List Mnl2Hal) : (thin p c calls).Sublist calls := by
  induction calls generalizing c with
  | nil => exact .slnil
  | cons call calls ih =>
    rw [thin]
    split
    · split
      · exact (ih (c + 1)).cons call
      · exact (ih 0).cons_cons call
    · exact (ih c).cons_cons call

theorem countP_thin {p c : Nat} (hc : c < p) (calls : List Mnl2Hal) :
    (thin p c calls).countP (·.isLocation) = (c + calls.countP (·.isLocation)) / p := by
  induction calls generalizing c with
  | nil => exact (Nat.div_eq_of_lt hc).symm
  | cons call calls ih =>
    rw [thin]
    split
    · rename_i hloc
      rw [List.countP_cons_of_pos hloc]
      split
      · rename_i hlt
        rw [ih hlt, Nat.add_right_comm, Nat.add_assoc]
      · rename_i hle
        have hp : c + (calls.countP (·.isLocation) + 1) = calls.countP (·.isLocation) + p := by
          omega
        rw [List.countP_cons_of_pos hloc, ih (Nat.zero_lt_of_lt hc), hp,
          Nat.add_div_right _ (Nat.zero_lt_of_lt hc), Nat.zero_add]
    · rename_i hloc
      rw [List.countP_cons_of_neg hloc, List.countP_cons_of_neg hloc, ih hc]

theorem Mnl2Hal.isLocation_iff (call : Mnl2Hal) :
    call.isLocation = true ↔ call.cmd = MnlStruct.location.cmd := by
  cases call with
  | struct s bytes => cases s <;> exact iff_of_eq (by simp [isLocation, cmd, MnlStruct.cmd])
  | _ => simp [isLocation, cmd, MnlStruct.cmd]

/-- One call: a location that comes too early is dropped, everything else is handed on. -/
theorem Report.mnl2halHdlr_message (r : Report) {call : Mnl2Hal} (h : call.WellFormed sizeof)
    (hsize : (message call.cmd call.args).length ≤ HAL_MNL_BUFF_SIZE) :
    r.mnl2halHdlr sizeof (message call.cmd call.args) = some
      (if call.isLocation then
        if r.count + 1 < r.period then ({ r with count := r.count + 1 }, none)
        else ({ r with count := 0 }, some call)
      else (r, some call)) := by
  obtain ⟨before, zeros, hcall⟩ := readCall_received (r.hdlr sizeof) hsize
  have hread (r' : Report) :=
    ((reads_mnl2halCall sizeof call h).map fun call => (r', call)) before zeros
  have hearly : r.report_time_interval > ((r.count + 1 : Nat) : Int) * 1000 ↔
      r.count + 1 < r.period := by
    rw [period]
    omega
  rw [mnl2halHdlr, hcall, hdlr]
  by_cases hloc : call.isLocation = true
  · rw [if_pos hloc, if_pos (call.isLocation_iff.mp hloc)]
    by_cases hcount : r.count + 1 < r.period
    · rw [if_pos hcount, if_pos (hearly.mpr hcount)]
      rfl
    · rw [if_neg hcount, if_neg fun h => hcount (hearly.mp h)]
      exact congrArg (Option.map Prod.fst) (hread _)
  · rw [if_neg hloc, if_neg fun hcmd => hloc (call.isLocation_iff.mpr hcmd)]
    exact congrArg (Option.map Prod.fst) (hread _)

theorem Report.handleAll_messages (calls : List Mnl2Hal) (r : Report)
    (h : ∀ call ∈ calls, call.WellFormed sizeof ∧
      (message call.cmd call.args).length ≤ HAL_MNL_BUFF_SIZE) :
    r.handleAll sizeof (calls.map fun call => message call.cmd call.args) =
      some (thin r.period r.count calls) := by
  induction calls generalizing r with
  | nil => rfl
  | cons call calls ih =>
    obtain ⟨hwf, hsize⟩ := h call List.mem_cons_self
    have hrest (r' : Report) := ih r' fun call' hmem => h call' (List.mem_cons_of_mem _ hmem)
    rw [List.map_cons, handleAll, r.mnl2halHdlr_message sizeof hwf hsize, Option.bind_some, thin]
    split
    · split
      · rw [hrest]
        rfl
      · rw [hrest]
        rfl
    · rw [hrest]
      rfl

/-- However many calls the daemon makes of the HAL, they all arrive in their order with the same
arguments, but for the locations: with an interval of more than a second one of every `period` is
handed on. -/
theorem mnl2hal_delivered (r : Report) (calls : List Mnl2Hal)
    (h : ∀ call ∈ calls, call.WellFormed sizeof ∧
      (message call.cmd call.args).length ≤ HAL_MNL_BUFF_SIZE) :
    ∃ heard, (calls.mapM Mnl2Hal.send).bind (r.handleAll sizeof) = some heard ∧
      heard.Sublist calls ∧
      heard.filter (!·.isLocation) = calls.filter (!·.isLocation) ∧
      (r.count < r.period → heard.countP (·.isLocation) =
        (r.count + calls.countP (·.isLocation)) / r.period) := by
  have hsend : calls.mapM Mnl2Hal.send =
      some (calls.map fun call => message call.cmd call.args) := by
    induction calls with
    | nil => rfl
    | cons call calls ih =>
      rw [List.mapM_cons, ih fun call' hmem => h call' (List.mem_cons_of_mem _ hmem), Mnl2Hal.send,
        sendMessage, if_pos (h call List.mem_cons_self).2]
      rfl
  refine ⟨thin r.period r.count calls, ?_, thin_sublist _ _ calls, thin_filter _ _ calls,
    fun hc => countP_thin hc calls⟩
  rw [hsend, Option.bind_some, r.handleAll_messages sizeof calls h]

theorem locations_delivered : ∃ heard, ([.struct .location [1], .requestUtcTime,
    .struct .location [2]].mapM Mnl2Hal.send).bind (Report.handleAll (fun _ => 1) ⟨0, 2000⟩) =
      some heard ∧ heard.countP (·.isLocation) = 1 := by
  obtain ⟨heard, hheard, -, -, hcount⟩ := mnl2hal_delivered (fun _ => 1) ⟨0, 2000⟩
    [.struct .location [1], .requestUtcTime, .struct .location [2]]
    (by simp [Mnl2Hal.WellFormed]; decide)
  exact ⟨heard, hheard, hcount (by decide)⟩

end

end MtkHw.Gps
