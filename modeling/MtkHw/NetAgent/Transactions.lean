import MtkHw.NetAgent.Service
import Mathlib.Algebra.Group.Int.Defs
import Mathlib.Algebra.Group.Nat.Defs

/-!
# The network agent: the current transaction of an interface

`m_lTransIntfId` grows with every request to bring an interface up, and is searched by interface for
the first identifier that matches.  `History` is the service with a record of what is current, and
of what has been sent at which time.

`confirmed_iff` is the result: the list holds the current identifiers and no others, and all that is
sent for an interface carries its current identifier, along a run of the service if and only if every
request to bring an interface up finds no other identifier of the interface in the list, and has an
identifier that an `int` can hold.
-/

namespace MtkHw.NetAgent

open Lib NetAgentService

/-! ## The service and its history -/

/-- The identifier in a confirmation. -/
def IoCmd.confirmedId : IoCmd → Option Int
  | ifst id _ _ | ipupdate id _ _ | ra id _ => some id
  | pdnho _ | syncCapability => none

/-- A command that tells the modem about the addresses of an interface. -/
def IoCmd.IsUpdate : IoCmd → Prop
  | ipupdate _ _ _ | ra _ _ => True
  | ifst _ _ _ | pdnho _ | syncCapability => False

/-- A command, and how things were when it was sent for an interface. -/
structure Confirm where
  cmd : IoCmd
  /-- The identifier of the last request to bring the interface up. -/
  current : Option Int
  /-- The last request to bring the interface down has been confirmed. -/
  down : Bool

structure History where
  service : NetAgentService
  /-- The identifier of the last request to bring an interface up, unless one to bring it down has
  come after it. -/
  current : Int → Option Int
  /-- Whether a request to bring an interface down has been confirmed since then. -/
  down : Int → Bool
  confirms : List Confirm
  /-- The identifiers that `setNetworkTransmitState` has accepted, with those that were current. -/
  transmits : List (Int × Option Int)

/-- The interface that a request is for. -/
def NetAgentReqInfo.interfaceId : NetAgentReqInfo → Int
  | ddm urc => interfaceOf urc.getIfId
  | netlink req => req.interfaceId
  | ifstate interfaceId _ => interfaceId
  | syncCapability => invalidInterfaceId

/-- What is current while a request is handled: an interface is brought up at the beginning. -/
def duringCurrent (current : Int → Option Int) : NetAgentReqInfo → Int → Option Int
  | .ddm (.ifup id _) => Function.update current (interfaceOf id) (some id.toNat)
  | _ => current

/-- What is current when a request has been handled: an interface is brought down at the end. -/
def afterCurrent (current : Int → Option Int) : NetAgentReqInfo → Int → Option Int
  | .ddm (.ifup id _) => Function.update current (interfaceOf id) (some id.toNat)
  | .ddm (.ifdown id) => Function.update current (interfaceOf id) none
  | _ => current

def duringDown (down : Int → Bool) : NetAgentReqInfo → Int → Bool
  | .ddm (.ifup id _) => Function.update down (interfaceOf id) false
  | _ => down

def afterDown (down : Int → Bool) (cmd : Option IoCmd) : NetAgentReqInfo → Int → Bool
  | .ddm (.ifup id _) => Function.update down (interfaceOf id) false
  | .ddm (.ifdown id) => Function.update down (interfaceOf id) (down (interfaceOf id) || cmd.isSome)
  | _ => down

section Machine

variable (inetPton : List Char → Option AddrV6)

/-- The first request of the queue is handled. -/
def History.handle (h : History) (req : NetAgentReqInfo) (requests : List NetAgentReqInfo) :
    History :=
  let (service, cmd) := { h.service with requests }.handleEvent inetPton req
  { service
    current := afterCurrent h.current req
    down := afterDown h.down cmd req
    confirms := h.confirms ++ cmd.toList.map fun cmd =>
      ⟨cmd, duringCurrent h.current req req.interfaceId, duringDown h.down req req.interfaceId⟩
    transmits := h.transmits }

def History.enqueue (h : History) (req : NetAgentReqInfo) : History :=
  { h with service := h.service.enqueueReqInfo req }

/-- A step of the service, with its history. -/
def History.step (h : History) : Act → Option History
  | .urc urc => some (h.enqueue (.ddm urc))
  | .address interfaceId flag valid ipv6PrefixLength address removed =>
    some (h.enqueue
      (.netlink (addressReqInfo interfaceId flag valid ipv6PrefixLength address removed)))
  | .noRa interfaceId flag => some (h.enqueue (.netlink (noRaReqInfo interfaceId flag)))
  | .transmit state transIntfId =>
    match h.service.setNetworkTransmitState state transIntfId with
    | some service =>
      some { h with
        service
        transmits := h.transmits ++
          [(transIntfId, h.current (transIntfId.tmod transactionIdOffset))] }
    | none => some h
  | .handle _ =>
    match h.service.requests with
    | req :: rest => some (h.handle inetPton req rest)
    | [] => none

def historyMachine (routeHandler : Bool) : Machine History Act where
  init := ⟨.init routeHandler, fun _ => none, fun _ => false, [], []⟩
  step := History.step inetPton

end Machine

/-! ## What is asked of the confirmations -/

structure History.Confirmed (h : History) : Prop where
  /-- The list holds the identifiers that are current, and no others. -/
  listed : ∀ id, id ∈ h.service.transIntfIds ↔ ∃ interfaceId, h.current interfaceId = some id
  /-- The list holds at most one identifier of an interface. -/
  atMostOne : ∀ id ∈ h.service.transIntfIds, ∀ id' ∈ h.service.transIntfIds,
    id.tmod transactionIdOffset = id'.tmod transactionIdOffset → id = id'
  /-- What has been sent for an interface carries the identifier that was current. -/
  sent : ∀ confirm ∈ h.confirms, ∀ id, confirm.cmd.confirmedId = some id → confirm.current = some id
  /-- Nothing about the addresses of an interface has been sent after it was confirmed to be down. -/
  quiet : ∀ confirm ∈ h.confirms, confirm.cmd.IsUpdate → confirm.down = false
  /-- `setNetworkTransmitState` has accepted identifiers that were current. -/
  transmitted : ∀ transmit ∈ h.transmits, transmit.2 = some transmit.1

/-- A request to bring an interface up that is handled finds no other identifier of the interface in
the list, and its identifier is one that an `int` can hold. -/
def History.FreshUp (h : History) (a : Act) : Prop :=
  ∀ success id ip requests, a = .handle success → h.service.requests = .ddm (.ifup id ip) :: requests →
    id.toNat < 2 ^ 31 ∧ ∀ listed ∈ h.service.transIntfIds,
      listed.tmod transactionIdOffset = interfaceOf id → listed = id.toNat

/-! ## What the service does -/

section Service

variable {s : NetAgentService} {ids : List Int}

/-- The list of identifiers while a request is handled. -/
def duringIds (ids : List Int) : NetAgentReqInfo → List Int
  | .ddm (.ifup id _) => ids ++ [id.toBitVec.toInt]
  | _ => ids

/-- The identifier that is found for an interface, if there is one. -/
theorem getTransIntfId_spec (s : NetAgentService) (interfaceId : Int) :
    s.getTransIntfId interfaceId = invalidTransIntfId ∨
      s.getTransIntfId interfaceId ∈ s.transIntfIds ∧
        (s.getTransIntfId interfaceId).tmod transactionIdOffset = interfaceId := by
  unfold getTransIntfId
  split
  · exact .inl rfl
  · cases hfind : s.transIntfIds.find? fun id => id.tmod transactionIdOffset = interfaceId with
    | none => exact .inl rfl
    | some id =>
      have hid := List.find?_some hfind
      exact .inr ⟨List.mem_of_find?_eq_some hfind, of_decide_eq_true hid⟩

/-- A command with the identifier that is found for an interface. -/
structure SentFor (ids : List Int) (interfaceId : Int) (cmd : IoCmd) : Prop where
  confirmed : ∀ id, cmd.confirmedId = some id →
    id ∈ ids ∧ id.tmod transactionIdOffset = interfaceId

theorem sentFor_getTransIntfId {interfaceId : Int} {cmd : IoCmd}
    (hcmd : cmd.confirmedId = some (s.getTransIntfId interfaceId))
    (hne : invalidTransIntfId ≠ s.getTransIntfId interfaceId) :
    SentFor s.transIntfIds interfaceId cmd := by
  refine ⟨fun id hid => ?_⟩
  obtain rfl : s.getTransIntfId interfaceId = id := Option.some.inj (hcmd.symm.trans hid)
  exact (getTransIntfId_spec s interfaceId).resolve_left hne.symm

theorem confirmInterfaceState_spec {interfaceId : Int} {state : IfstState} {addrType : UInt32}
    {cmd : IoCmd} (h : s.confirmInterfaceState interfaceId state addrType = some cmd) :
    SentFor s.transIntfIds interfaceId cmd := by
  unfold confirmInterfaceState at h
  dsimp only at h
  split at h
  · rename_i hne
    cases h
    exact sentFor_getTransIntfId rfl hne
  · cases h

theorem confirmIpUpdate_spec {interfaceId : Int} {addr : Addr} {ipv6PrefixLength : Int} {cmd : IoCmd}
    (h : s.confirmIpUpdate interfaceId addr ipv6PrefixLength = some cmd) :
    SentFor s.transIntfIds interfaceId cmd := by
  unfold confirmIpUpdate at h
  dsimp only at h
  split at h
  · rename_i hne
    cases h
    exact sentFor_getTransIntfId rfl hne
  · cases h

theorem confirmNoRA_spec {interfaceId : Int} {flag : RaFlag} {cmd : IoCmd}
    (h : s.confirmNoRA interfaceId flag = some cmd) : SentFor s.transIntfIds interfaceId cmd := by
  unfold confirmNoRA at h
  dsimp only at h
  split at h
  · rename_i hne
    cases h
    exact sentFor_getTransIntfId rfl hne
  · cases h

/-! ### One request -/

/-- The list of identifiers when a request has been handled. -/
def afterIds (s : NetAgentService) : NetAgentReqInfo → List Int
  | .ddm (.ifup id _) => s.transIntfIds ++ [id.toBitVec.toInt]
  | .ddm (.ifdown id) =>
    s.transIntfIds.filter fun listed => listed ≠ s.getTransIntfId (interfaceOf id)
  | _ => s.transIntfIds

/-- What handling a request does to the list, and what it sends. -/
structure Handled (s : NetAgentService) (req : NetAgentReqInfo)
    (r : NetAgentService × Option IoCmd) : Prop where
  ids : r.1.transIntfIds = afterIds s req
  cmd : ∀ cmd, r.2 = some cmd → SentFor (duringIds s.transIntfIds req) req.interfaceId cmd

/-- A request that leaves the list alone and sends nothing. -/
theorem Handled.none_of_ids {req : NetAgentReqInfo} {s' : NetAgentService}
    (hids : s'.transIntfIds = afterIds s req) : Handled s req (s', none) := ⟨hids, nofun⟩

theorem handled_ifup (s : NetAgentService) (id : UInt32) (ip : IpParameter) :
    Handled s (.ddm (.ifup id ip)) (s.configureNetworkInterface (.ifup id ip) .enable) where
  ids := rfl
  cmd := fun _ h => confirmInterfaceState_spec h

theorem handled_ifdown (s : NetAgentService) (id : UInt32) :
    Handled s (.ddm (.ifdown id)) (s.configureNetworkInterface (.ifdown id) .disable) where
  ids := rfl
  cmd := fun _ h => confirmInterfaceState_spec h

theorem handled_ifchg (s : NetAgentService) (id : UInt32) (ip : IpParameter) :
    Handled s (.ddm (.ifchg id ip)) (s.configureNetworkInterface (.ifchg id ip) .update) where
  ids := rfl
  cmd := by
    intro cmd h
    simp only [configureNetworkInterface, Urc.getAddrType, if_true, reduceCtorEq, if_false] at h
    split at h
    · split at h
      · split at h
        · exact confirmIpUpdate_spec h
        · cases h
      · cases h
    · cases h

theorem handled_ipchg (s : NetAgentService) (id : UInt32) (ip : IpParameter) :
    Handled s (.ddm (.ipchg id ip)) (s, s.updatePdnHandoverAddr id ip) where
  ids := rfl
  cmd := by
    intro cmd h
    unfold updatePdnHandoverAddr at h
    dsimp only at h
    split at h
    · cases h
    · split at h
      · exact confirmIpUpdate_spec h
      · cases h

theorem handled_pdnho (s : NetAgentService) (id : UInt32) (ho : HoParameter) :
    Handled s (.ddm (.pdnho id ho)) (s.handlePdnHandoverControl id ho) := by
  unfold handlePdnHandoverControl
  split
  · split
    · exact .none_of_ids rfl
    · exact .none_of_ids rfl
  · split
    · refine ⟨rfl, fun cmd h => ?_⟩
      cases h
      exact ⟨nofun⟩
    · exact .none_of_ids rfl

variable (inetPton : List Char → Option AddrV6)

theorem handled_address (s : NetAgentService) (req : NetlinkEventReqInfo) :
    Handled s (.netlink req) (s.updateIpv6GlobalAddress inetPton req) := by
  unfold updateIpv6GlobalAddress
  split
  · exact .none_of_ids rfl
  · split
    · split
      · exact .none_of_ids rfl
      · split
        · exact .none_of_ids rfl
        · exact ⟨rfl, fun cmd h => confirmIpUpdate_spec h⟩
    · exact .none_of_ids rfl

theorem handled_noRa (s : NetAgentService) (req : NetlinkEventReqInfo) :
    Handled s (.netlink req) (s.notifyNoRA req) := by
  unfold notifyNoRA
  split
  · exact .none_of_ids rfl
  · split
    · exact .none_of_ids rfl
    · exact ⟨rfl, fun cmd h => confirmNoRA_spec h⟩

/-- Handling a request adds the identifier of an interface that is brought up, removes the one that
is found for an interface that is brought down, and sends at most a confirmation with the one that is
found for the interface. -/
theorem handleEvent_spec (s : NetAgentService) (req : NetAgentReqInfo) :
    Handled s req (s.handleEvent inetPton req) := by
  cases req with
  | ddm urc =>
    cases urc with
    | ifup id ip => exact handled_ifup s id ip
    | ifdown id => exact handled_ifdown s id
    | ifchg id ip => exact handled_ifchg s id ip
    | setmtu id => exact .none_of_ids rfl
    | pdnho id ho => exact handled_pdnho s id ho
    | ipchg id ip => exact handled_ipchg s id ip
  | netlink req =>
    unfold handleEvent
    dsimp only
    split
    · exact handled_address inetPton s req
    · exact handled_noRa s req
  | ifstate interfaceId state => exact .none_of_ids rfl
  | syncCapability =>
    refine ⟨rfl, fun cmd h => ?_⟩
    cases h
    exact ⟨nofun⟩

end Service

/-! ## Identifiers and interfaces -/

theorem interfaceOf_nonneg (id : UInt32) : 0 ≤ interfaceOf id := Int.natCast_nonneg _

/-- The identifier of a request belongs to the interface of the request. -/
theorem tmod_toNat (id : UInt32) : ((id.toNat : Nat) : Int).tmod transactionIdOffset = interfaceOf id :=
  (Int.ofNat_tmod id.toNat transactionIdOffset).symm

/-- The identifiers that are current belong to their interfaces, and an interface that is down has
none. -/
structure Current (current : Int → Option Int) (down : Int → Bool) : Prop where
  nonneg : ∀ interfaceId id, current interfaceId = some id → 0 ≤ id
  interfaceId : ∀ interfaceId id, current interfaceId = some id →
    id.tmod transactionIdOffset = interfaceId
  down : ∀ interfaceId, down interfaceId = true → current interfaceId = none

namespace Current

variable {current : Int → Option Int} {down : Int → Bool}

theorem up (h : Current current down) (id : UInt32) :
    Current (Function.update current (interfaceOf id) (some id.toNat))
      (Function.update down (interfaceOf id) false) where
  nonneg := by
    intro interfaceId id' hid'
    by_cases hi : interfaceId = interfaceOf id
    · subst hi
      rw [Function.update_self] at hid'
      cases hid'
      exact Int.natCast_nonneg _
    · rw [Function.update_of_ne hi] at hid'
      exact h.nonneg interfaceId id' hid'
  interfaceId := by
    intro interfaceId id' hid'
    by_cases hi : interfaceId = interfaceOf id
    · subst hi
      rw [Function.update_self] at hid'
      cases hid'
      exact tmod_toNat id
    · rw [Function.update_of_ne hi] at hid'
      exact h.interfaceId interfaceId id' hid'
  down := by
    intro interfaceId hdown
    by_cases hi : interfaceId = interfaceOf id
    · subst hi
      rw [Function.update_self] at hdown
      cases hdown
    · rw [Function.update_of_ne hi] at hdown ⊢
      exact h.down interfaceId hdown

theorem remove (h : Current current down) (k : Int) (b : Bool) :
    Current (Function.update current k none) (Function.update down k b) where
  nonneg := by
    intro interfaceId id hid
    by_cases hi : interfaceId = k
    · subst hi
      rw [Function.update_self] at hid
      cases hid
    · rw [Function.update_of_ne hi] at hid
      exact h.nonneg interfaceId id hid
  interfaceId := by
    intro interfaceId id hid
    by_cases hi : interfaceId = k
    · subst hi
      rw [Function.update_self] at hid
      cases hid
    · rw [Function.update_of_ne hi] at hid
      exact h.interfaceId interfaceId id hid
  down := by
    intro interfaceId hdown
    by_cases hi : interfaceId = k
    · subst hi
      rw [Function.update_self]
    · rw [Function.update_of_ne hi] at hdown ⊢
      exact h.down interfaceId hdown

theorem during (h : Current current down) (req : NetAgentReqInfo) :
    Current (duringCurrent current req) (duringDown down req) := by
  unfold duringCurrent duringDown
  split
  · exact h.up _
  · exact h

theorem after (h : Current current down) (cmd : Option IoCmd) (req : NetAgentReqInfo) :
    Current (afterCurrent current req) (afterDown down cmd req) := by
  unfold afterCurrent afterDown
  split
  · exact h.up _
  · exact h.remove _ _
  · exact h

end Current

/-- A list holds the identifiers that are current, and no others. -/
def Lists (ids : List Int) (current : Int → Option Int) : Prop :=
  ∀ id, id ∈ ids ↔ ∃ interfaceId, current interfaceId = some id

namespace Lists

variable {ids : List Int} {current : Int → Option Int} {down : Int → Bool}

theorem mem_iff (h : Lists ids current) (hcurrent : Current current down) (id : Int) :
    id ∈ ids ↔ current (id.tmod transactionIdOffset) = some id := by
  refine (h id).trans ⟨?_, fun hid => ⟨_, hid⟩⟩
  rintro ⟨interfaceId, hid⟩
  rw [hcurrent.interfaceId interfaceId id hid]
  exact hid

/-- There is at most one identifier of an interface. -/
theorem atMostOne (h : Lists ids current) (hcurrent : Current current down) {id id' : Int}
    (hid : id ∈ ids) (hid' : id' ∈ ids)
    (hsame : id.tmod transactionIdOffset = id'.tmod transactionIdOffset) : id = id' := by
  have hid := (h.mem_iff hcurrent id).mp hid
  rw [hsame, (h.mem_iff hcurrent id').mp hid'] at hid
  exact (Option.some.inj hid).symm

/-- An interface is brought up, and the list holds no other identifier of it. -/
theorem up (h : Lists ids current) (hcurrent : Current current down) {k v : Int}
    (hfresh : ∀ id ∈ ids, id.tmod transactionIdOffset = k → id = v) :
    Lists (ids ++ [v]) (Function.update current k (some v)) := by
  intro id
  rw [List.mem_append, List.mem_singleton]
  constructor
  · rintro (hid | rfl)
    · obtain ⟨interfaceId, hi⟩ := (h id).mp hid
      by_cases hk : interfaceId = k
      · subst hk
        have hv := hfresh id hid (hcurrent.interfaceId interfaceId id hi)
        exact ⟨interfaceId, by rw [Function.update_self, hv]⟩
      · exact ⟨interfaceId, by rw [Function.update_of_ne hk, hi]⟩
    · exact ⟨k, Function.update_self _ _ _⟩
  · rintro ⟨interfaceId, hi⟩
    by_cases hk : interfaceId = k
    · subst hk
      rw [Function.update_self] at hi
      exact .inr (Option.some.inj hi).symm
    · rw [Function.update_of_ne hk] at hi
      exact .inl ((h id).mpr ⟨interfaceId, hi⟩)

/-- If the list holds what is current after an interface was brought up, it held no other identifier
of it before. -/
theorem fresh_of_up {k v w : Int} (h : Lists (ids ++ [w]) (Function.update current k (some v)))
    (hcurrent : Current (Function.update current k (some v)) down) :
    0 ≤ w ∧ ∀ id ∈ ids, id.tmod transactionIdOffset = k → id = v := by
  constructor
  · obtain ⟨interfaceId, hi⟩ := (h w).mp (List.mem_append_right _ (List.mem_singleton_self w))
    exact hcurrent.nonneg interfaceId w hi
  · intro id hid hk
    have hi := (h.mem_iff hcurrent id).mp (List.mem_append_left _ hid)
    rw [hk, Function.update_self] at hi
    exact (Option.some.inj hi).symm

/-- The identifier that is found for an interface is the one that is current. -/
theorem getTransIntfId_eq {s : NetAgentService} (h : Lists s.transIntfIds current)
    (hcurrent : Current current down) {k : Int} (hk : 0 ≤ k) :
    s.getTransIntfId k = (current k).getD invalidTransIntfId := by
  have hvalid : k ≠ invalidInterfaceId := by
    rintro rfl
    exact absurd hk (by decide)
  rw [getTransIntfId, if_neg hvalid]
  cases hfind : s.transIntfIds.find? fun id => id.tmod transactionIdOffset = k with
  | some id =>
    have htmod := List.find?_some hfind
    rw [decide_eq_true_iff] at htmod
    have hid := (h.mem_iff hcurrent id).mp (List.mem_of_find?_eq_some hfind)
    rw [← htmod, hid, Option.getD_some]
  | none =>
    cases hcur : current k with
    | none => rfl
    | some id =>
      have hnone := List.find?_eq_none.mp hfind id ((h id).mpr ⟨k, hcur⟩)
      exact absurd (decide_eq_true (hcurrent.interfaceId k id hcur)) hnone

/-- An interface is brought down. -/
theorem remove (h : Lists ids current) (hcurrent : Current current down) (k : Int) :
    Lists (ids.filter fun id => id ≠ (current k).getD invalidTransIntfId)
      (Function.update current k none) := by
  intro id
  rw [List.mem_filter, decide_eq_true_iff, h id]
  constructor
  · rintro ⟨⟨interfaceId, hi⟩, hne⟩
    refine ⟨interfaceId, ?_⟩
    rw [Function.update_of_ne]
    · exact hi
    · rintro rfl
      rw [hi] at hne
      exact hne rfl
  · rintro ⟨interfaceId, hi⟩
    by_cases hk : interfaceId = k
    · subst hk
      rw [Function.update_self] at hi
      cases hi
    · rw [Function.update_of_ne hk] at hi
      refine ⟨⟨interfaceId, hi⟩, ?_⟩
      rintro rfl
      cases hcur : current k with
      | none =>
        rw [hcur] at hi
        exact absurd (hcurrent.nonneg interfaceId _ hi) (by decide)
      | some id =>
        rw [hcur] at hi
        have hsame := hcurrent.interfaceId interfaceId id hi
        exact hk (hsame.symm.trans (hcurrent.interfaceId k id hcur))

end Lists

/-! ## Runs -/

variable {inetPton : List Char → Option AddrV6}

/-- What holds of every history. -/
def History.Sound (h : History) : Prop := Current h.current h.down

theorem step_sound {h h' : History} {a : Act} (hsound : h.Sound)
    (hstep : h.step inetPton a = some h') : h'.Sound := by
  cases a with
  | urc urc =>
    cases hstep
    exact hsound
  | address interfaceId flag valid ipv6PrefixLength address removed =>
    cases hstep
    exact hsound
  | noRa interfaceId flag =>
    cases hstep
    exact hsound
  | transmit state transIntfId =>
    unfold History.step at hstep
    dsimp only at hstep
    split at hstep
    · cases hstep
      exact hsound
    · cases hstep
      exact hsound
  | handle success =>
    unfold History.step at hstep
    dsimp only at hstep
    split at hstep
    · cases hstep
      exact hsound.after _ _
    · cases hstep

/-- The number that the list holds for an identifier, which an `int` may not be able to hold. -/
theorem toInt_eq (id : UInt32) :
    id.toBitVec.toInt = if id.toNat < 2 ^ 31 then (id.toNat : Int) else id.toNat - 2 ^ 32 := by
  rw [BitVec.toInt_eq_toNat_cond]
  exact if_congr (by change 2 * id.toNat < 2 ^ 32 ↔ _; omega) rfl rfl

theorem toInt_of_lt {id : UInt32} (h : id.toNat < 2 ^ 31) : id.toBitVec.toInt = id.toNat := by
  rw [toInt_eq, if_pos h]

theorem lt_of_toInt_nonneg {id : UInt32} (h : 0 ≤ id.toBitVec.toInt) : id.toNat < 2 ^ 31 := by
  by_contra hlarge
  have hlt := id.toNat_lt
  rw [toInt_eq, if_neg hlarge] at h
  omega

/-- When a request has been handled the list holds what is current if and only if the interface that
it brings up, if it does, had no other identifier in the list. -/
theorem lists_after {s : NetAgentService} {current : Int → Option Int} {down : Int → Bool}
    (hlists : Lists s.transIntfIds current) (hcurrent : Current current down) (req : NetAgentReqInfo) :
    Lists (afterIds s req) (afterCurrent current req) ↔
      ∀ id ip, req = .ddm (.ifup id ip) → id.toNat < 2 ^ 31 ∧ ∀ listed ∈ s.transIntfIds,
        listed.tmod transactionIdOffset = interfaceOf id → listed = id.toNat := by
  cases req with
  | ddm urc =>
    cases urc with
    | ifup id ip =>
      constructor
      · intro h id' ip' heq
        cases heq
        obtain ⟨hnonneg, hfresh⟩ := h.fresh_of_up (hcurrent.up id)
        exact ⟨lt_of_toInt_nonneg hnonneg, hfresh⟩
      · intro h
        obtain ⟨hlt, hfresh⟩ := h id ip rfl
        change Lists (s.transIntfIds ++ [id.toBitVec.toInt]) _
        rw [toInt_of_lt hlt]
        exact hlists.up hcurrent hfresh
    | ifdown id =>
      refine iff_of_true ?_ nofun
      change Lists (s.transIntfIds.filter fun listed => listed ≠ s.getTransIntfId (interfaceOf id)) _
      rw [hlists.getTransIntfId_eq hcurrent (interfaceOf_nonneg id)]
      exact hlists.remove hcurrent (interfaceOf id)
    | ifchg id ip => exact iff_of_true hlists nofun
    | setmtu id => exact iff_of_true hlists nofun
    | pdnho id ho => exact iff_of_true hlists nofun
    | ipchg id ip => exact iff_of_true hlists nofun
  | netlink req => exact iff_of_true hlists nofun
  | ifstate interfaceId state => exact iff_of_true hlists nofun
  | syncCapability => exact iff_of_true hlists nofun

/-- So does the list while the request is handled. -/
theorem lists_during {s : NetAgentService} {current : Int → Option Int} {down : Int → Bool}
    (hlists : Lists s.transIntfIds current) (hcurrent : Current current down) {req : NetAgentReqInfo}
    (hfresh : ∀ id ip, req = .ddm (.ifup id ip) → id.toNat < 2 ^ 31 ∧ ∀ listed ∈ s.transIntfIds,
      listed.tmod transactionIdOffset = interfaceOf id → listed = id.toNat) :
    Lists (duringIds s.transIntfIds req) (duringCurrent current req) := by
  unfold duringIds duringCurrent
  split
  · rename_i id ip
    obtain ⟨hlt, hfresh⟩ := hfresh id ip rfl
    rw [toInt_of_lt hlt]
    exact hlists.up hcurrent hfresh
  · exact hlists

/-- What is sent while a request is handled is what it should be. -/
theorem handle_sent {h : History} (hsound : h.Sound) (hconfirmed : h.Confirmed)
    {req : NetAgentReqInfo} {requests : List NetAgentReqInfo}
    (hlists : Lists (duringIds h.service.transIntfIds req) (duringCurrent h.current req))
    {confirm : Confirm} (hmem : confirm ∈ (h.handle inetPton req requests).confirms) :
    (∀ id, confirm.cmd.confirmedId = some id → confirm.current = some id) ∧
      (confirm.cmd.IsUpdate → confirm.down = false) := by
  rcases List.mem_append.mp hmem with hold | hnew
  · exact ⟨hconfirmed.sent confirm hold, hconfirmed.quiet confirm hold⟩
  · obtain ⟨cmd, hcmd, rfl⟩ := List.mem_map.mp hnew
    have hsent := (handleEvent_spec inetPton { h.service with requests } req).cmd cmd
      (Option.mem_toList.mp hcmd)
    have hduring := hsound.during req
    have hcurrent : ∀ id, cmd.confirmedId = some id →
        duringCurrent h.current req req.interfaceId = some id := by
      intro id hid
      obtain ⟨hlisted, hinterface⟩ := hsent.confirmed id hid
      rw [← hinterface]
      exact (hlists.mem_iff hduring id).mp hlisted
    refine ⟨hcurrent, fun hupdate => ?_⟩
    obtain ⟨id, hid⟩ : ∃ id, cmd.confirmedId = some id := by
      cases cmd with
      | ifst id state addrType => cases hupdate
      | ipupdate id addr ipv6PrefixLength => exact ⟨id, rfl⟩
      | ra id flag => exact ⟨id, rfl⟩
      | pdnho id => cases hupdate
      | syncCapability => cases hupdate
    dsimp only
    rw [← Bool.not_eq_true]
    intro hdown
    have hnone := hduring.down _ hdown
    rw [hcurrent id hid] at hnone
    cases hnone

/-- **One step.**  A step keeps what is asked of the confirmations if and only if it brings no
interface up that has another identifier in the list. -/
theorem step_confirmed {h h' : History} {a : Act} (hsound : h.Sound) (hconfirmed : h.Confirmed)
    (hstep : h.step inetPton a = some h') : h'.Confirmed ↔ h.FreshUp a := by
  cases a with
  | urc urc =>
    cases hstep
    exact iff_of_true ⟨hconfirmed.listed, hconfirmed.atMostOne, hconfirmed.sent, hconfirmed.quiet,
      hconfirmed.transmitted⟩ nofun
  | address interfaceId flag valid ipv6PrefixLength address removed =>
    cases hstep
    exact iff_of_true ⟨hconfirmed.listed, hconfirmed.atMostOne, hconfirmed.sent, hconfirmed.quiet,
      hconfirmed.transmitted⟩ nofun
  | noRa interfaceId flag =>
    cases hstep
    exact iff_of_true ⟨hconfirmed.listed, hconfirmed.atMostOne, hconfirmed.sent, hconfirmed.quiet,
      hconfirmed.transmitted⟩ nofun
  | transmit state transIntfId =>
    refine iff_of_true ?_ nofun
    unfold History.step setNetworkTransmitState at hstep
    dsimp only at hstep
    by_cases hmatched : h.service.isTransIntfIdMatched transIntfId = true
    · rw [if_pos hmatched] at hstep
      cases hstep
      refine ⟨hconfirmed.listed, hconfirmed.atMostOne, hconfirmed.sent, hconfirmed.quiet, ?_⟩
      intro transmit hmem
      rcases List.mem_append.mp hmem with hold | hnew
      · exact hconfirmed.transmitted transmit hold
      · cases List.mem_singleton.mp hnew
        obtain ⟨id, hid, heq⟩ := List.any_eq_true.mp hmatched
        obtain rfl : id = transIntfId := of_decide_eq_true heq
        exact (Lists.mem_iff hconfirmed.listed hsound id).mp hid
    · rw [if_neg hmatched] at hstep
      cases hstep
      exact hconfirmed
  | handle success =>
    unfold History.step at hstep
    dsimp only at hstep
    cases hrequests : h.service.requests with
    | nil =>
      rw [hrequests] at hstep
      cases hstep
    | cons req requests =>
      rw [hrequests] at hstep
      cases hstep
      have hids := (handleEvent_spec inetPton { h.service with requests } req).ids
      have hafter := lists_after (s := { h.service with requests }) hconfirmed.listed hsound req
      rw [← hids] at hafter
      constructor
      · intro hconfirmed' success' id ip requests' _ heq
        rw [hrequests] at heq
        cases heq
        exact hafter.mp hconfirmed'.listed id ip rfl
      · intro hfresh
        have hfresh' : ∀ id ip, req = .ddm (.ifup id ip) → _ := fun id ip heq =>
          hfresh success id ip requests rfl (by rw [hrequests, heq])
        have hlists := hafter.mpr hfresh'
        have hduring := lists_during hconfirmed.listed hsound hfresh'
        exact {
          listed := hlists
          atMostOne := fun id hid id' hid' => hlists.atMostOne (hsound.after none req) hid hid'
          sent := fun confirm hmem => (handle_sent hsound hconfirmed hduring hmem).1
          quiet := fun confirm hmem => (handle_sent hsound hconfirmed hduring hmem).2
          transmitted := hconfirmed.transmitted }

/-- A request is handled unless there is none. -/
theorem freshUp_of_stuck {h : History} {a : Act} (hstep : h.step inetPton a = none) : h.FreshUp a := by
  intro success id ip requests ha hrequests
  subst ha
  unfold History.step at hstep
  dsimp only at hstep
  rw [hrequests] at hstep
  cases hstep

/-- **When the confirmations carry the current transaction.**  Along a run the list holds the current
identifiers, everything that is sent for an interface carries its current one, nothing about its
addresses is sent after it was confirmed to be down, and `setNetworkTransmitState` accepts current
ones only, if and only if every request to bring an interface up finds no other identifier of the
interface in the list, and has one that an `int` can hold. -/
theorem confirmed_iff (routeHandler : Bool) (acts : List Act) :
    (historyMachine inetPton routeHandler).Along History.Confirmed
        (historyMachine inetPton routeHandler).init acts ↔
      (historyMachine inetPton routeHandler).Meets History.FreshUp
        (historyMachine inetPton routeHandler).init acts := by
  refine Machine.along_iff_meets_of_stuck _ (fun _ _ => freshUp_of_stuck)
    (fun _ _ _ => step_sound) (fun _ _ _ => step_confirmed) ?_ ?_ acts
  · exact ⟨nofun, nofun, nofun⟩
  · exact ⟨fun id => iff_of_false nofun nofun, nofun, nofun, nofun, nofun⟩

/-- Interface 1 is brought up for the transactions 1 and 2, and not down in between. -/
def twoTransactions : List Act :=
  let ip : IpParameter := ⟨addrTypeIpv4, #v[10, 0, 0, 2], Vector.replicate 16 0⟩
  [.urc (.ifup 101 ip), .urc (.ifup 201 ip), .handle true, .handle true, .handle true]

/-- The second request is confirmed with the identifier of the first one. -/
theorem twoTransactions_not_confirmed :
    ∃ h, (historyMachine (fun _ => none) true).run (historyMachine (fun _ => none) true).init
        twoTransactions = some h ∧
      h.confirms.map (fun confirm => (confirm.cmd, confirm.current)) =
        [(.syncCapability, none), (.ifst 101 .up addrTypeIpv4, some 101),
          (.ifst 101 .up addrTypeIpv4, some 201)] ∧
      ¬ h.Confirmed := by
  have hrun : ((historyMachine (fun _ => none) true).run
      (historyMachine (fun _ => none) true).init twoTransactions).map
      (fun h => (h.service.transIntfIds,
        h.confirms.map fun confirm => (confirm.cmd, confirm.current))) =
      some ([101, 201], [(.syncCapability, none), (.ifst 101 .up addrTypeIpv4, some 101),
        (.ifst 101 .up addrTypeIpv4, some 201)]) := by decide +kernel
  obtain ⟨h, hh, heq⟩ := Option.map_eq_some_iff.mp hrun
  rw [Prod.mk.injEq] at heq
  refine ⟨h, hh, heq.2, fun hconfirmed => ?_⟩
  have hone := hconfirmed.atMostOne 101 (by rw [heq.1]; decide) 201 (by rw [heq.1]; decide) rfl
  exact absurd hone (by decide)

end MtkHw.NetAgent
