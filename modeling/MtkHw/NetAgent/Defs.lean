import MtkHw.Lib.Machine

/-!
# The network agent: commands and requests

The network agent brings the network interfaces of the modem up and down.  The modem reports what
is to be done for an interface in an unsolicited result code, and the agent confirms with a command;
both carry an identifier that is made of a transaction and of the interface.  The kernel reports the
addresses of the interfaces over a netlink socket, and the agent passes them on.

This file has what the parties exchange, and what the agent keeps.
-/

namespace MtkHw.NetAgent

/-! ## Constants -/

/-- `TRANSACTION_ID_OFFSET` -/
def transactionIdOffset : Nat := 100
/-- `INVALID_TRANS_INTF_ID` -/
def invalidTransIntfId : Int := -1
/-- `INVALID_INTERFACE_ID` -/
def invalidInterfaceId : Int := -1
/-- `INVALID_IPV6_PREFIX_LENGTH` -/
def invalidIpv6PrefixLength : Int := -1

/-- `NETAGENT_IO_ADDR_TYPE_UNKNOWN` -/
def addrTypeUnknown : UInt32 := 0
/-- `NETAGENT_IO_ADDR_TYPE_IPv4` -/
def addrTypeIpv4 : UInt32 := 1
/-- `NETAGENT_IO_ADDR_TYPE_IPv6` -/
def addrTypeIpv6 : UInt32 := 2
/-- `NETAGENT_IO_ADDR_TYPE_IPv4v6` -/
def addrTypeIpv4v6 : UInt32 := 3

/-- `NULL_IPV6_ADDRESS` -/
def nullIpv6Address : List Char := ['0', ':', ':', '0']

/-! ## Addresses -/

abbrev AddrV4 := Vector UInt8 4
abbrev AddrV6 := Vector UInt8 16

/-- The address of an `ipupdate` command, of which the type is a part. -/
inductive Addr where
  | v4 (addr : AddrV4)
  | v6 (addr : AddrV6)
deriving DecidableEq, Repr

/-! ## Commands to the modem -/

/-- `netagent_io_ifst_e` -/
inductive IfstState where
  | down
  | up
deriving DecidableEq, Repr

/-- `netagent_io_ra_e` -/
inductive RaFlag where
  | noRaRefresh
  | noRaInitial
deriving DecidableEq, Repr

/-- The commands that are sent with `netagent_io_send`. -/
inductive IoCmd where
  | ifst (transIntfId : Int) (state : IfstState) (addrType : UInt32)
  | ipupdate (transIntfId : Int) (addr : Addr) (ipv6PrefixLength : Int)
  | ra (transIntfId : Int) (flag : RaFlag)
  | pdnho (transIntfId : UInt32)
  | syncCapability
deriving DecidableEq, Repr

/-! ## Requests of the modem -/

/-- `netagent_io_ip_parameter_t`, without the prefix length, which is for commands. -/
structure IpParameter where
  addrType : UInt32
  addrV4 : AddrV4
  addrV6 : AddrV6
deriving DecidableEq, Repr

/-- `netagent_io_ho_parameter_t`, without what is only logged. -/
structure HoParameter where
  /-- `NETAGENT_IO_HO_STATE_START` is 0, `NETAGENT_IO_HO_STATE_STOP` is 1. -/
  hostate : UInt32
  /-- `NETAGENT_IO_HO_RESULT_SUCCESS` is 1. -/
  isSucc : UInt32
  addrType : UInt32
  addrV4 : AddrV4
  addrV6 : AddrV6
deriving DecidableEq, Repr

/-- `netagent_io_cmd_obj_t`: what the modem asks for. -/
inductive Urc where
  | ifup (transIntfId : UInt32) (ip : IpParameter)
  | ifdown (transIntfId : UInt32)
  | ifchg (transIntfId : UInt32) (ip : IpParameter)
  | setmtu (transIntfId : UInt32)
  | pdnho (transIntfId : UInt32) (ho : HoParameter)
  | ipchg (transIntfId : UInt32) (ip : IpParameter)
deriving DecidableEq, Repr

/-! ## Events of the kernel -/

/-- `ACTION` -/
inductive Action where
  | addrUpdated
  | addrRemoved
  | noRa
deriving DecidableEq, Repr

/-- `cmd` of a netlink request. -/
inductive NetlinkCmd where
  | ipupdate
  | ra
deriving DecidableEq, Repr

structure NetlinkEventReqInfo where
  interfaceId : Int
  flag : Int
  valid : Int
  ipv6PrefixLength : Int
  address : List Char
  cmd : NetlinkCmd
  action : Action
deriving DecidableEq, Repr

/-! ## What the agent keeps -/

/-- `NetAgentPdnInfo` -/
structure NetAgentPdnInfo where
  addrType : UInt32
  addressV4 : List Char
  addressV6 : List Char
deriving DecidableEq, Repr

/-- `NetAgentReqInfo`: a request in the queue. -/
inductive NetAgentReqInfo where
  | ddm (urc : Urc)
  | netlink (req : NetlinkEventReqInfo)
  | ifstate (interfaceId state : Int)
  | syncCapability
deriving DecidableEq, Repr

structure NetAgentService where
  /-- `m_lTransIntfId` -/
  transIntfIds : List Int
  /-- `m_pRouteHandler`, and the requests in its `m_pLastNetlinkEventReqInfo`. -/
  routeHandler : Option (List NetlinkEventReqInfo)
  /-- `m_pdnHoInfoMap` -/
  pdnHoInfo : Int → Option NetAgentPdnInfo
  /-- `m_pNetAgentReqInfo` -/
  requests : List NetAgentReqInfo

end MtkHw.NetAgent
