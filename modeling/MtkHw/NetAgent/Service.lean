import MtkHw.NetAgent.Defs

/-!
# The network agent: handling of events

Two threads put requests into a queue, those of the modem and those of the kernel; a third one takes
them out and handles them, one after the other.  `setNetworkTransmitState` is called by others and
puts requests into the queue as well.

What the kernel does to the interfaces is left out.  `inet_pton` is a parameter: the address that a
text stands for.
-/

namespace MtkHw.NetAgent

/-! ## What a request says -/

namespace Urc

/-- `netagent_io_get_if_id` -/
def getIfId : Urc → UInt32
  | ifup id _ | ifdown id | ifchg id _ | setmtu id | pdnho id _ | ipchg id _ => id

/-- `netagent_io_get_addr_type` -/
def getAddrType : Urc → Option UInt32
  | ifup _ ip | ifchg _ ip | ipchg _ ip => some ip.addrType
  | ifdown _ => some addrTypeUnknown
  | setmtu _ | pdnho _ _ => none

/-- `netagent_io_get_addr_v4` -/
def getAddrV4 : Urc → Option AddrV4
  | ifup _ ip | ifchg _ ip | ipchg _ ip =>
    if ip.addrType &&& addrTypeIpv4 ≠ 0 then some ip.addrV4 else none
  | pdnho _ ho => if ho.addrType &&& addrTypeIpv4 ≠ 0 then some ho.addrV4 else none
  | ifdown _ | setmtu _ => none

/-- `netagent_io_get_addr_v6` -/
def getAddrV6 : Urc → Option AddrV6
  | ifup _ ip | ifchg _ ip | ipchg _ ip =>
    if ip.addrType &&& addrTypeIpv6 ≠ 0 then some ip.addrV6 else none
  | pdnho _ ho => if ho.addrType &&& addrTypeIpv6 ≠ 0 then some ho.addrV6 else none
  | ifdown _ | setmtu _ => none

end Urc

/-- A digit of `%02X`. -/
def upperHexDigit (n : Nat) : Char := if n < 10 then Char.ofNat (48 + n) else Char.ofNat (55 + n)

def convertIpv4ToString (addr : AddrV4) : List Char :=
  (addr.toList.map fun b => Nat.toDigits 10 b.toNat).intersperse ['.'] |>.flatten

/-- Groups of two octets. -/
def convertIpv6ToString (addr : AddrV6) : List Char :=
  addr.toList.zipIdx.flatMap fun (b, i) =>
    (if i ≠ 0 ∧ i % 2 = 0 then [':'] else []) ++
      [upperHexDigit (b.toNat / 16), upperHexDigit (b.toNat % 16)]

/-- What is left in an empty buffer. -/
def getIpv4Address (urc : Urc) : List Char :=
  match urc.getAddrV4 with
  | some addr => if addr ≠ Vector.replicate 4 0 then convertIpv4ToString addr else []
  | none => []

/-- What is left in an empty buffer. -/
def getIpv6Address (urc : Urc) : List Char :=
  match urc.getAddrV6 with
  | some addr => if addr ≠ Vector.replicate 16 0 then convertIpv6ToString addr else []
  | none => []

/-- `addressV4` and `addressV6`, after the `switch` over the type of the address. -/
def getAddresses (urc : Urc) (addrType : UInt32) : List Char × List Char :=
  if addrType = addrTypeIpv4 then (getIpv4Address urc, [])
  else if addrType = addrTypeIpv6 then ([], getIpv6Address urc)
  else if addrType = addrTypeIpv4v6 then (getIpv4Address urc, getIpv6Address urc)
  else ([], [])

/-! ## The last requests -/

/-- What `hasLastReqInfoChanged` returns. -/
inductive NetlinkRetStatus where
  | genericFailure
  | reqInfoChanged
  | reqInfoNoChanged
  | reqInfoNew
deriving DecidableEq, Repr

/-- The first request of an interface is taken out. -/
def removeLastReqInfo (interfaceId : Int) (last : List NetlinkEventReqInfo) :
    List NetlinkEventReqInfo := last.eraseP fun req => req.interfaceId = interfaceId

/-- `none` is a failure. -/
def setLastReqInfo (req : NetlinkEventReqInfo) (last : List NetlinkEventReqInfo) :
    Option (List NetlinkEventReqInfo) :=
  if req.interfaceId = invalidInterfaceId then none
  else some (removeLastReqInfo req.interfaceId last ++ [req])

/-- What two requests for an interface must have in common to be taken for the same. -/
def NetlinkEventReqInfo.sameInfo (req req' : NetlinkEventReqInfo) : Bool :=
  req.cmd = req'.cmd ∧ req.action = req'.action ∧ req.flag = req'.flag ∧ req.valid = req'.valid ∧
    req.ipv6PrefixLength = req'.ipv6PrefixLength ∧
    req.address.map Char.toLower = req'.address.map Char.toLower

def hasLastReqInfoChanged (last : List NetlinkEventReqInfo) (req : NetlinkEventReqInfo) :
    NetlinkRetStatus :=
  if req.interfaceId = invalidInterfaceId then .genericFailure
  else
    match last.find? fun req' => req'.interfaceId = req.interfaceId with
    | some req' => if req'.sameInfo req then .reqInfoNoChanged else .reqInfoChanged
    | none => .reqInfoNew

/-! ## The service -/

namespace NetAgentService

/-- The service when it has been created: the capability is to be sent to the modem. -/
def init (routeHandler : Bool) : NetAgentService where
  transIntfIds := []
  routeHandler := if routeHandler then some [] else none
  pdnHoInfo := fun _ => none
  requests := [.syncCapability]

def enqueueReqInfo (s : NetAgentService) (req : NetAgentReqInfo) : NetAgentService :=
  { s with requests := s.requests ++ [req] }

def isTransIntfIdMatched (s : NetAgentService) (transIntfId : Int) : Bool :=
  s.transIntfIds.any fun id => id = transIntfId

def getTransIntfId (s : NetAgentService) (interfaceId : Int) : Int :=
  if interfaceId = invalidInterfaceId then invalidTransIntfId
  else (s.transIntfIds.find? fun id => id.tmod transactionIdOffset = interfaceId).getD
    invalidTransIntfId

/-! ### Confirmations -/

def confirmInterfaceState (s : NetAgentService) (interfaceId : Int) (state : IfstState)
    (addrType : UInt32) : Option IoCmd :=
  let transIntfId := s.getTransIntfId interfaceId
  if invalidTransIntfId ≠ transIntfId then some (.ifst transIntfId state addrType) else none

def confirmIpUpdate (s : NetAgentService) (interfaceId : Int) (addr : Addr)
    (ipv6PrefixLength : Int) : Option IoCmd :=
  let transIntfId := s.getTransIntfId interfaceId
  if invalidTransIntfId ≠ transIntfId then some (.ipupdate transIntfId addr ipv6PrefixLength)
  else none

def confirmNoRA (s : NetAgentService) (interfaceId : Int) (flag : RaFlag) : Option IoCmd :=
  let transIntfId := s.getTransIntfId interfaceId
  if invalidTransIntfId ≠ transIntfId then some (.ra transIntfId flag) else none

/-! ### Requests of the modem -/

/-- `STATUS` -/
inductive Status where
  | disable
  | enable
  | update
deriving DecidableEq, Repr

/-- The interface of an identifier: `interfaceId %= TRANSACTION_ID_OFFSET`. -/
def interfaceOf (transIntfId : UInt32) : Int := (transIntfId.toNat % transactionIdOffset : Nat)

def clearPdnHandoverInfo (interfaceId : Int) (s : NetAgentService) : NetAgentService :=
  { s with pdnHoInfo := Function.update s.pdnHoInfo interfaceId none }

/-- The command is what is sent to the modem. -/
def configureNetworkInterface (s : NetAgentService) (urc : Urc) (config : Status) :
    NetAgentService × Option IoCmd :=
  let state := if config = .enable then IfstState.up else IfstState.down
  let s := if config = .enable then
      { s with transIntfIds := s.transIntfIds ++ [urc.getIfId.toBitVec.toInt] }
    else s
  let interfaceId := interfaceOf urc.getIfId
  match urc.getAddrType with
  | none => (s, none)
  | some addrType =>
    let addressV4 := if config = .disable then [] else (getAddresses urc addrType).1
    let cmd :=
      if config = .update then
        if addressV4.length > 0 then
          if addrType = addrTypeIpv4 ∨ addrType = addrTypeIpv4v6 then
            match urc.getAddrV4 with
            | some addr => s.confirmIpUpdate interfaceId (.v4 addr) invalidIpv6PrefixLength
            | none => none
          else none
        else none
      else s.confirmInterfaceState interfaceId state addrType
    let s := if config = .disable then
        clearPdnHandoverInfo interfaceId
          { s with
            transIntfIds := s.transIntfIds.filter fun id => id ≠ s.getTransIntfId interfaceId
            routeHandler := s.routeHandler.map (removeLastReqInfo interfaceId) }
      else s
    (s, cmd)

def recordPdnHandoverInfo (s : NetAgentService) (interfaceId : Int) (addrType : UInt32)
    (addressV4 addressV6 : List Char) : NetAgentService :=
  let pdnSrcInfo := (s.pdnHoInfo interfaceId).getD ⟨0, [], []⟩
  let pdnSrcInfo := { pdnSrcInfo with addrType }
  let pdnSrcInfo :=
    if addrType = addrTypeIpv4 then { pdnSrcInfo with addressV4 }
    else if addrType = addrTypeIpv6 then { pdnSrcInfo with addressV6 }
    else if addrType = addrTypeIpv4v6 then { pdnSrcInfo with addressV4, addressV6 }
    else pdnSrcInfo
  { s with pdnHoInfo := Function.update s.pdnHoInfo interfaceId (some pdnSrcInfo) }

def handlePdnHandoverControl (s : NetAgentService) (tranId : UInt32) (ho : HoParameter) :
    NetAgentService × Option IoCmd :=
  if ho.hostate = 0 then
    if ho.isSucc = 1 then
      let (addressV4, addressV6) := getAddresses (.pdnho tranId ho) ho.addrType
      (s.recordPdnHandoverInfo (interfaceOf tranId) ho.addrType addressV4 addressV6, none)
    else (s, none)
  else if ho.hostate = 1 then (s, some (.pdnho tranId))
  else (s, none)

def updatePdnHandoverAddr (s : NetAgentService) (transIntfId : UInt32) (ip : IpParameter) :
    Option IoCmd :=
  match s.pdnHoInfo (interfaceOf transIntfId) with
  | none => none
  | some _ =>
    if ip.addrType = addrTypeIpv4 ∨ ip.addrType = addrTypeIpv4v6 then
      s.confirmIpUpdate (interfaceOf transIntfId) (.v4 ip.addrV4) invalidIpv6PrefixLength
    else none

/-! ### Events of the kernel -/

section Kernel

variable (inetPton : List Char → Option AddrV6)

/-- The scope of an address, by the macros of `netinet/in.h`. -/
def isIpv6Global (address : List Char) : Bool :=
  if (address.take 4).map Char.toLower = ['f', 'e', '8', '0'] then false
  else
    match inetPton address with
    | none => false
    | some addr =>
      if addr[0] = 0xFF then addr[1] &&& 0x0F = 0x0E
      else if addr[0] = 0xFE ∧ addr[1] &&& 0xC0 = 0x80 then false
      else if addr[0] = 0xFE ∧ addr[1] &&& 0xC0 = 0xC0 then false
      else if addr.toList.take 12 = List.replicate 10 0 ++ [0xFF, 0xFF] then false
      else if addr.toList.take 12 = List.replicate 12 0 then
        -- IPv4 compatible, the loopback address or the unspecified one
        false
      else true

/-- `convertIpv6ToBinary`, which takes a text that is no address for the address of zeros. -/
def convertIpv6ToBinary (address : List Char) : AddrV6 :=
  (inetPton address).getD (Vector.replicate 16 0)

def isNeedNotifyIPv6RemovedToModem (s : NetAgentService) (interfaceId : Int)
    (delAddr : List Char) : Bool :=
  match s.pdnHoInfo interfaceId with
  | none => true
  | some pdnSrcInfo =>
    if pdnSrcInfo.addrType = addrTypeIpv6 ∨ pdnSrcInfo.addrType = addrTypeIpv4v6 then
      let delAddr := convertIpv6ToString (convertIpv6ToBinary inetPton delAddr)
      !delAddr.isPrefixOf pdnSrcInfo.addressV6
    else true

def updateIpv6GlobalAddress (s : NetAgentService) (req : NetlinkEventReqInfo) :
    NetAgentService × Option IoCmd :=
  match s.routeHandler with
  | none => (s, none)
  | some last =>
    if isIpv6Global inetPton req.address then
      if hasLastReqInfoChanged last req = .reqInfoNoChanged then (s, none)
      else if req.action = .addrRemoved ∧
          s.isNeedNotifyIPv6RemovedToModem inetPton req.interfaceId req.address = false then
        (s, none)
      else
        let address := if req.action = .addrRemoved then nullIpv6Address else req.address
        let ipv6PrefixLength :=
          if req.action = .addrRemoved then invalidIpv6PrefixLength else req.ipv6PrefixLength
        let cmd := s.confirmIpUpdate req.interfaceId (.v6 (convertIpv6ToBinary inetPton address))
          ipv6PrefixLength
        ({ s with routeHandler := some ((setLastReqInfo req last).getD last) }, cmd)
    else (s, none)

def notifyNoRA (s : NetAgentService) (req : NetlinkEventReqInfo) :
    NetAgentService × Option IoCmd :=
  match s.routeHandler with
  | none => (s, none)
  | some last =>
    if hasLastReqInfoChanged last req = .reqInfoNoChanged then (s, none)
    else
      let cmd := s.confirmNoRA req.interfaceId (if req.flag = 0 then .noRaRefresh else .noRaInitial)
      ({ s with routeHandler := some ((setLastReqInfo req last).getD last) }, cmd)

/-! ### The queue -/

def handleEvent (s : NetAgentService) : NetAgentReqInfo → NetAgentService × Option IoCmd
  | .ddm urc =>
    match urc with
    | .ifup _ _ => s.configureNetworkInterface urc .enable
    | .ifdown _ => s.configureNetworkInterface urc .disable
    | .ifchg _ _ => s.configureNetworkInterface urc .update
    | .setmtu _ => (s, none)
    | .pdnho id ho => s.handlePdnHandoverControl id ho
    | .ipchg id ip => (s, s.updatePdnHandoverAddr id ip)
  | .netlink req =>
    match req.cmd with
    | .ipupdate => s.updateIpv6GlobalAddress inetPton req
    | .ra => s.notifyNoRA req
  | .ifstate _ _ => (s, none)
  | .syncCapability => (s, some .syncCapability)

end Kernel

/-- The request is refused if the identifier is not in the list. -/
def setNetworkTransmitState (s : NetAgentService) (state transIntfId : Int) :
    Option NetAgentService :=
  if s.isTransIntfIdMatched transIntfId then
    some (s.enqueueReqInfo (.ifstate (transIntfId.tmod transactionIdOffset) state))
  else none

end NetAgentService

/-! ## Events of the kernel -/

/-- `onEvent`, for an address. -/
def addressReqInfo (interfaceId flag valid ipv6PrefixLength : Int) (address : List Char)
    (removed : Bool) : NetlinkEventReqInfo where
  interfaceId := interfaceId
  flag := flag
  valid := valid
  ipv6PrefixLength := ipv6PrefixLength
  address := address.take 45
  cmd := .ipupdate
  action := if removed then .addrRemoved else .addrUpdated

/-- `onEvent`, when there is no router advertisement. -/
def noRaReqInfo (interfaceId flag : Int) : NetlinkEventReqInfo where
  interfaceId := interfaceId
  flag := flag
  valid := if flag = 0 then -2 else -1
  ipv6PrefixLength := invalidIpv6PrefixLength
  address := nullIpv6Address
  cmd := .ra
  action := .noRa

/-- What may happen to the service. -/
inductive Act where
  | /-- A request of the modem is put into the queue. -/ urc (urc : Urc)
  | /-- The kernel has added or removed an address. -/
    address (interfaceId flag valid ipv6PrefixLength : Int) (address : List Char) (removed : Bool)
  | /-- The kernel has not seen a router advertisement. -/ noRa (interfaceId flag : Int)
  | /-- `setNetworkTransmitState` is called. -/ transmit (state transIntfId : Int)
  | /-- The first request of the queue is handled; a command that is sent is accepted or not. -/
    handle (success : Bool)
deriving DecidableEq, Repr

end MtkHw.NetAgent
