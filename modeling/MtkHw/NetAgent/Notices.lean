import MtkHw.NetAgent.Transactions

/-!
# The network agent: events that are skipped

For every interface the agent remembers the last event of the kernel that it has handled, and skips
an event that says the same again.  The event is remembered whether the modem has been told about it
or not, and it is forgotten when the interface is brought down, but not when it is brought up again.

`Notices` is the service with a record of what the modem has really been told.  `skips_iff` is the
result: whatever is skipped has been sent, along a run of the service, if and only if every event
that is remembered has been sent, and no transaction is opened again while an event is remembered
for it.
-/

namespace MtkHw.NetAgent

open Lib NetAgentService

/-! ## The service and what it has sent -/

/-- A command that tells the modem about an IPv6 address, or that there is no router. -/
def IoCmd.isNotice : IoCmd → Bool
  | ipupdate _ (.v6 _) _ | ra _ _ => true
  | ipupdate _ (.v4 _) _ | ifst _ _ _ | pdnho _ | syncCapability => false

structure Notices where
  service : NetAgentService
  /-- The last notice that the modem has accepted for the current transaction of an interface, since
  the request that opened the transaction. -/
  sent : Int → Option IoCmd

/-- Handling a request has opened the transaction that is current for an interface. -/
def opens (s s' : NetAgentService) (req : NetAgentReqInfo) (interfaceId : Int) : Bool :=
  s'.getTransIntfId interfaceId != s.getTransIntfId interfaceId ||
    match req with
    | .ddm (.ifup id _) => s'.getTransIntfId interfaceId == id.toBitVec.toInt
    | _ => false

/-- What has been sent when a request has been handled. -/
def afterSent (s s' : NetAgentService) (sent : Int → Option IoCmd) (req : NetAgentReqInfo)
    (cmd : Option IoCmd) (success : Bool) (interfaceId : Int) : Option IoCmd :=
  if opens s s' req interfaceId then none
  else
    match cmd with
    | some cmd =>
      if success && cmd.isNotice && cmd.confirmedId == some (s'.getTransIntfId interfaceId) then
        some cmd
      else sent interfaceId
    | none => sent interfaceId

section Machine

variable (inetPton : List Char → Option AddrV6)

/-- The first request of the queue is handled. -/
def Notices.handle (n : Notices) (req : NetAgentReqInfo) (requests : List NetAgentReqInfo)
    (success : Bool) : Notices :=
  let s := { n.service with requests }
  let (s', cmd) := s.handleEvent inetPton req
  ⟨s', afterSent s s' n.sent req cmd success⟩

def Notices.enqueue (n : Notices) (req : NetAgentReqInfo) : Notices :=
  { n with service := n.service.enqueueReqInfo req }

/-- A step of the service, with the record of what has been sent. -/
def Notices.step (n : Notices) : Act → Option Notices
  | .urc urc => some (n.enqueue (.ddm urc))
  | .address interfaceId flag valid ipv6PrefixLength address removed =>
    some (n.enqueue
      (.netlink (addressReqInfo interfaceId flag valid ipv6PrefixLength address removed)))
  | .noRa interfaceId flag => some (n.enqueue (.netlink (noRaReqInfo interfaceId flag)))
  | .transmit state transIntfId =>
    match n.service.setNetworkTransmitState state transIntfId with
    | some service => some { n with service }
    | none => some n
  | .handle success =>
    match n.service.requests with
    | req :: rest => some (n.handle inetPton req rest success)
    | [] => none

def noticesMachine (routeHandler : Bool) : Machine Notices Act where
  init := ⟨.init routeHandler, fun _ => none⟩
  step := Notices.step inetPton

/-! ## What is asked of the events that are skipped -/

/-- The event is skipped, as one that has not changed. -/
def Skips (s : NetAgentService) (req : NetlinkEventReqInfo) : Prop :=
  ∃ last, s.routeHandler = some last ∧ hasLastReqInfoChanged last req = .reqInfoNoChanged ∧
    (req.cmd = .ipupdate → isIpv6Global inetPton req.address = true)

/-- The command that carries the information of an event, for the current transaction of its
interface. -/
def notice (s : NetAgentService) (req : NetlinkEventReqInfo) : IoCmd :=
  match req.cmd with
  | .ipupdate =>
    .ipupdate (s.getTransIntfId req.interfaceId)
      (.v6 (convertIpv6ToBinary inetPton
        (if req.action = .addrRemoved then nullIpv6Address else req.address)))
      (if req.action = .addrRemoved then invalidIpv6PrefixLength else req.ipv6PrefixLength)
  | .ra =>
    .ra (s.getTransIntfId req.interfaceId) (if req.flag = 0 then .noRaRefresh else .noRaInitial)

/-- The modem has been told about every event that would be skipped, since the current transaction
of the interface was opened, and it has been told nothing else since. -/
def Notices.Told (n : Notices) : Prop :=
  ∀ req, Skips inetPton n.service req →
    n.sent req.interfaceId = some (notice inetPton n.service req)

/-- The event is remembered when it is handled. -/
def Remembers (s : NetAgentService) (req : NetlinkEventReqInfo) : Prop :=
  ∃ last, s.routeHandler = some last ∧ req.interfaceId ≠ invalidInterfaceId ∧
    hasLastReqInfoChanged last req ≠ .reqInfoNoChanged ∧
    (req.cmd = .ipupdate → isIpv6Global inetPton req.address = true ∧
      ¬(req.action = .addrRemoved ∧
        s.isNeedNotifyIPv6RemovedToModem inetPton req.interfaceId req.address = false))

/-- An event that is remembered is for an interface with a current transaction, and the modem
accepts the command, unless it has been told the same already; and a request that opens a
transaction finds no event remembered for the transaction. -/
def Notices.Passes (n : Notices) (success : Bool) : NetAgentReqInfo → Prop
  | .netlink event => Remembers inetPton n.service event →
      success = true ∧ n.service.getTransIntfId event.interfaceId ≠ invalidTransIntfId ∨
        n.sent event.interfaceId = some (notice inetPton n.service event)
  | .ddm (.ifup id _) => ∀ last, n.service.routeHandler = some last → ∀ event ∈ last,
      n.service.getTransIntfId event.interfaceId ≠ id.toBitVec.toInt
  | .ddm _ | .ifstate _ _ | .syncCapability => True

/-- So it is for the request that a step handles. -/
def Notices.Sends (n : Notices) (a : Act) : Prop :=
  ∀ success req requests, a = .handle success → n.service.requests = req :: requests →
    n.Passes inetPton success req

instance decidableRemembers (s : NetAgentService) (req : NetlinkEventReqInfo) :
    Decidable (Remembers inetPton s req) :=
  match hroute : s.routeHandler with
  | none => isFalse fun ⟨_, hlast, _⟩ => by
      rw [hroute] at hlast
      cases hlast
  | some last =>
      decidable_of_iff (req.interfaceId ≠ invalidInterfaceId ∧
        hasLastReqInfoChanged last req ≠ .reqInfoNoChanged ∧
        (req.cmd = .ipupdate → isIpv6Global inetPton req.address = true ∧
          ¬(req.action = .addrRemoved ∧
            s.isNeedNotifyIPv6RemovedToModem inetPton req.interfaceId req.address = false)))
        ⟨fun h => ⟨last, hroute, h⟩, fun ⟨_, hlast, h⟩ => by
          rw [hroute] at hlast
          cases hlast
          exact h⟩

instance decidablePasses (n : Notices) (success : Bool) :
    ∀ req, Decidable (n.Passes inetPton success req)
  | .netlink event => inferInstanceAs (Decidable (Remembers inetPton n.service event → _ ∨ _))
  | .ddm (.ifup id _) =>
      match hroute : n.service.routeHandler with
      | none => isTrue fun _ hlast => by
          rw [hroute] at hlast
          cases hlast
      | some last =>
          @decidable_of_iff _
            (∀ event ∈ last, n.service.getTransIntfId event.interfaceId ≠ id.toBitVec.toInt)
            ⟨fun h _ hlast => by
              rw [hroute] at hlast
              cases hlast
              exact h, fun h => h last hroute⟩ (List.decidableBAll _ last)
  | .ddm (.ifdown _) | .ddm (.ifchg _ _) | .ddm (.setmtu _) | .ddm (.pdnho _ _) | .ddm (.ipchg _ _)
  | .ifstate _ _ | .syncCapability => isTrue trivial

instance decidableSends (n : Notices) : ∀ a, Decidable (n.Sends inetPton a)
  | .handle success =>
      match hrequests : n.service.requests with
      | [] => isTrue fun _ _ _ _ h => by
          rw [hrequests] at h
          cases h
      | req :: rest =>
          decidable_of_iff (n.Passes inetPton success req)
            ⟨fun h _ _ _ ha heq => by
              rw [hrequests] at heq
              cases ha
              cases heq
              exact h, fun h => h success req rest rfl hrequests⟩
  | .urc _ | .address _ _ _ _ _ _ | .noRa _ _ | .transmit _ _ => isTrue fun _ _ _ h => by cases h

end Machine

/-! ## Remembering an event -/

section Last

variable {last : List NetlinkEventReqInfo} {req : NetlinkEventReqInfo}

theorem mem_of_mem_removeLastReqInfo {k : Int} (h : req ∈ removeLastReqInfo k last) : req ∈ last :=
  List.mem_of_mem_eraseP h

/-- Where at most one event is remembered for an interface, none is left. -/
theorem interfaceId_ne_of_removed {k : Int} (hnodup : (last.map (·.interfaceId)).Nodup)
    (h : req ∈ removeLastReqInfo k last) : req.interfaceId ≠ k := by
  induction last with
  | nil => cases h
  | cons first last ih =>
    rw [List.map_cons, List.nodup_cons] at hnodup
    by_cases hfirst : first.interfaceId = k
    · rw [removeLastReqInfo, List.eraseP_cons_of_pos (by simpa using hfirst)] at h
      rintro rfl
      exact hnodup.1 (hfirst ▸ List.mem_map_of_mem h)
    · rw [removeLastReqInfo, List.eraseP_cons_of_neg (by simpa using hfirst)] at h
      rcases List.mem_cons.mp h with rfl | h
      · exact hfirst
      · exact ih hnodup.2 h

theorem sameInfo_refl (req : NetlinkEventReqInfo) : req.sameInfo req = true := by
  simp [NetlinkEventReqInfo.sameInfo]

/-- An event that is skipped says the same as one that is remembered for the interface. -/
theorem exists_sameInfo (h : hasLastReqInfoChanged last req = .reqInfoNoChanged) :
    ∃ event ∈ last, event.interfaceId = req.interfaceId ∧ event.sameInfo req = true := by
  unfold hasLastReqInfoChanged at h
  split at h
  · cases h
  · split at h
    · rename_i event hfind
      split at h
      · rename_i hsame
        have hid := List.find?_some hfind
        exact ⟨event, List.mem_of_find?_eq_some hfind, of_decide_eq_true hid, hsame⟩
      · cases h
    · cases h

/-- An event that is remembered is skipped when it comes again. -/
theorem noChanged_of_mem (hnodup : (last.map (·.interfaceId)).Nodup) (hmem : req ∈ last)
    (hvalid : req.interfaceId ≠ invalidInterfaceId) :
    hasLastReqInfoChanged last req = .reqInfoNoChanged := by
  have hfind : last.find? (fun event => event.interfaceId = req.interfaceId) = some req := by
    induction last with
    | nil => cases hmem
    | cons first last ih =>
      rw [List.map_cons, List.nodup_cons] at hnodup
      rcases List.mem_cons.mp hmem with rfl | hmem
      · exact List.find?_cons_of_pos (decide_eq_true rfl)
      · have hne : first.interfaceId ≠ req.interfaceId :=
          fun heq => hnodup.1 (heq ▸ List.mem_map_of_mem hmem)
        rw [List.find?_cons_of_neg (by simpa using hne)]
        exact ih hnodup.2 hmem
  rw [hasLastReqInfoChanged, if_neg hvalid, hfind]
  exact if_pos (sameInfo_refl req)

end Last

/-! ## What handling a request does -/

/-- The transactions and the remembered events stay as they are, and the modem is told nothing about
an IPv6 address. -/
structure Quiet (s : NetAgentService) (r : NetAgentService × Option IoCmd) : Prop where
  ids : r.1.transIntfIds = s.transIntfIds
  routeHandler : r.1.routeHandler = s.routeHandler
  cmd : ∀ cmd, r.2 = some cmd → cmd.isNotice = false

/-- A request to which nothing is sent. -/
theorem Quiet.nothing {s s' : NetAgentService} (hids : s'.transIntfIds = s.transIntfIds)
    (hroute : s'.routeHandler = s.routeHandler) : Quiet s (s', none) := ⟨hids, hroute, nofun⟩

section Handling

variable {s : NetAgentService}

theorem confirmIpUpdate_v4 {interfaceId : Int} {addr : AddrV4} {ipv6PrefixLength : Int}
    {cmd : IoCmd}
    (h : s.confirmIpUpdate interfaceId (.v4 addr) ipv6PrefixLength = some cmd) :
    cmd.isNotice = false := by
  unfold confirmIpUpdate at h
  dsimp only at h
  split at h
  · cases h
    rfl
  · cases h

theorem quiet_ifchg (s : NetAgentService) (id : UInt32) (ip : IpParameter) :
    Quiet s (s.configureNetworkInterface (.ifchg id ip) .update) where
  ids := rfl
  routeHandler := rfl
  cmd := by
    intro cmd h
    simp only [configureNetworkInterface, Urc.getAddrType, if_true, reduceCtorEq, if_false] at h
    split at h
    · split at h
      · split at h
        · exact confirmIpUpdate_v4 h
        · cases h
      · cases h
    · cases h

theorem quiet_ipchg (s : NetAgentService) (id : UInt32) (ip : IpParameter) :
    Quiet s (s, s.updatePdnHandoverAddr id ip) where
  ids := rfl
  routeHandler := rfl
  cmd := by
    intro cmd h
    unfold updatePdnHandoverAddr at h
    dsimp only at h
    split at h
    · cases h
    · split at h
      · exact confirmIpUpdate_v4 h
      · cases h

theorem quiet_pdnho (s : NetAgentService) (id : UInt32) (ho : HoParameter) :
    Quiet s (s.handlePdnHandoverControl id ho) := by
  unfold handlePdnHandoverControl
  split
  · split
    · exact .nothing rfl rfl
    · exact .nothing rfl rfl
  · split
    · refine ⟨rfl, rfl, fun cmd h => ?_⟩
      cases h
      rfl
    · exact .nothing rfl rfl

variable (inetPton : List Char → Option AddrV6)

/-- An event that is remembered: the modem is to be told about it. -/
theorem handle_of_remembers {req : NetlinkEventReqInfo} (h : Remembers inetPton s req) :
    ∃ last, s.routeHandler = some last ∧
      s.handleEvent inetPton (.netlink req) =
        ({ s with routeHandler := some (removeLastReqInfo req.interfaceId last ++ [req]) },
          if invalidTransIntfId ≠ s.getTransIntfId req.interfaceId then
            some (notice inetPton s req) else none) := by
  obtain ⟨last, hroute, hvalid, hchanged, haddress⟩ := h
  refine ⟨last, hroute, ?_⟩
  have hset : setLastReqInfo req last = some (removeLastReqInfo req.interfaceId last ++ [req]) :=
    if_neg hvalid
  unfold handleEvent notice
  dsimp only
  cases hcmd : req.cmd with
  | ipupdate =>
    obtain ⟨hglobal, hneed⟩ := haddress hcmd
    simp only [updateIpv6GlobalAddress, hroute, hglobal, if_true, if_neg hchanged, if_neg hneed,
      hset, Option.getD_some, confirmIpUpdate]
  | ra =>
    simp only [notifyNoRA, hroute, if_neg hchanged, hset, Option.getD_some, confirmNoRA]

/-- An event that is not remembered changes nothing, and the modem is not told about it. -/
theorem handle_of_not_remembers {req : NetlinkEventReqInfo} (h : ¬ Remembers inetPton s req) :
    s.handleEvent inetPton (.netlink req) = (s, none) := by
  cases hroute : s.routeHandler with
  | none =>
    unfold handleEvent
    dsimp only
    split
    · simp only [updateIpv6GlobalAddress, hroute]
    · simp only [notifyNoRA, hroute]
  | some last =>
    have hsame : { s with routeHandler := some last } = s := by rw [← hroute]
    by_cases hvalid : req.interfaceId = invalidInterfaceId
    · -- nothing is sent for an invalid interface, and nothing is remembered
      have hset : setLastReqInfo req last = none := if_pos hvalid
      have hnone : s.getTransIntfId req.interfaceId = invalidTransIntfId := if_pos hvalid
      unfold handleEvent
      dsimp only
      split
      · simp only [updateIpv6GlobalAddress, hroute, confirmIpUpdate, hnone, hset, Option.getD_none,
          hsame, ne_eq, not_true_eq_false, if_false, ite_self]
      · simp only [notifyNoRA, hroute, confirmNoRA, hnone, hset, Option.getD_none, hsame, ne_eq,
          not_true_eq_false, if_false, ite_self]
    · by_cases hchanged : hasLastReqInfoChanged last req = .reqInfoNoChanged
      · unfold handleEvent
        dsimp only
        split
        · simp only [updateIpv6GlobalAddress, hroute, if_pos hchanged, ite_self]
        · simp only [notifyNoRA, hroute, if_pos hchanged]
      · have hnot : ¬(req.cmd = .ipupdate → _) := fun haddress =>
          h ⟨last, hroute, hvalid, hchanged, haddress⟩
        rw [Classical.not_imp] at hnot
        obtain ⟨hcmd, haddress⟩ := hnot
        rw [not_and, Classical.not_not] at haddress
        simp only [handleEvent, hcmd, updateIpv6GlobalAddress, hroute, if_neg hchanged]
        by_cases hglobal : isIpv6Global inetPton req.address = true
        · rw [if_pos hglobal, if_pos (haddress hglobal)]
        · rw [if_neg hglobal]

end Handling

/-! ## The current transactions -/

section Current

variable {s s' : NetAgentService}

theorem getTransIntfId_congr (hids : s'.transIntfIds = s.transIntfIds) (interfaceId : Int) :
    s'.getTransIntfId interfaceId = s.getTransIntfId interfaceId := by
  unfold getTransIntfId
  rw [hids]

/-- A transaction that is opened does not take the place of one that is current. -/
theorem getTransIntfId_append {id interfaceId : Int}
    (hids : s'.transIntfIds = s.transIntfIds ++ [id])
    (hcurrent : s.getTransIntfId interfaceId ≠ invalidTransIntfId) :
    s'.getTransIntfId interfaceId = s.getTransIntfId interfaceId := by
  unfold getTransIntfId at hcurrent ⊢
  rw [hids]
  split
  · rfl
  · rename_i hvalid
    rw [if_neg hvalid] at hcurrent
    rw [List.find?_append]
    cases hfind : s.transIntfIds.find? fun id => id.tmod transactionIdOffset = interfaceId with
    | none =>
      rw [hfind] at hcurrent
      exact absurd rfl hcurrent
    | some id => rfl

/-- The transactions of the other interfaces stay current when an interface is brought down. -/
theorem getTransIntfId_filter {interfaceId k : Int}
    (hids : s'.transIntfIds = s.transIntfIds.filter fun id => id ≠ s.getTransIntfId k)
    (hne : interfaceId ≠ k) : s'.getTransIntfId interfaceId = s.getTransIntfId interfaceId := by
  by_cases hvalid : interfaceId = invalidInterfaceId
  · rw [getTransIntfId, if_pos hvalid, getTransIntfId, if_pos hvalid]
  · rw [getTransIntfId, if_neg hvalid, getTransIntfId, if_neg hvalid, hids, List.find?_filter]
    congr 2
    funext id
    by_cases hid : id.tmod transactionIdOffset = interfaceId
    · have hkept : id ≠ s.getTransIntfId k := by
        rintro rfl
        rcases getTransIntfId_spec s k with hnone | ⟨-, hk⟩
        · rw [hnone] at hid
          exact hvalid hid.symm
        · exact hne (hid.symm.trans hk)
      simp [hid, hkept]
    · simp [hid]

end Current

section Sent

variable {s s' : NetAgentService} {sent : Int → Option IoCmd} {req : NetAgentReqInfo}
  {cmd : Option IoCmd} {success : Bool}

/-- An interface is to be brought up. -/
def NetAgentReqInfo.bringsUp : NetAgentReqInfo → Bool
  | .ddm (.ifup _ _) => true
  | _ => false

/-- No transaction is opened by a request that leaves the list alone and brings nothing up. -/
theorem opens_eq_false (hids : s'.transIntfIds = s.transIntfIds) (hreq : req.bringsUp = false)
    (interfaceId : Int) : opens s s' req interfaceId = false := by
  unfold opens
  rw [getTransIntfId_congr hids, bne_self_eq_false, Bool.false_or]
  split
  · cases hreq
  · rfl

/-- What has been sent, after a command that is no notice. -/
theorem afterSent_of_not_notice (hcmd : ∀ c, cmd = some c → c.isNotice = false)
    (interfaceId : Int) :
    afterSent s s' sent req cmd success interfaceId =
      if opens s s' req interfaceId then none else sent interfaceId := by
  unfold afterSent
  congr 1
  cases cmd with
  | none => rfl
  | some c =>
    dsimp only
    rw [hcmd c rfl, Bool.and_false, Bool.false_and, if_neg Bool.false_ne_true]

end Sent

/-! ## What holds of every run -/

section Runs

variable (inetPton : List Char → Option AddrV6)

structure Notices.Sound (n : Notices) : Prop where
  remembered : ∀ last, n.service.routeHandler = some last → ∀ event ∈ last,
    event.interfaceId ≠ invalidInterfaceId ∧
      (event.cmd = .ipupdate → isIpv6Global inetPton event.address = true)
  /-- At most one event is remembered for an interface. -/
  nodup : ∀ last, n.service.routeHandler = some last → (last.map (·.interfaceId)).Nodup
  /-- What has been sent has been sent for a current transaction. -/
  current : ∀ interfaceId cmd, n.sent interfaceId = some cmd →
    n.service.getTransIntfId interfaceId ≠ invalidTransIntfId

/-- The modem has been told about every event that is remembered. -/
def Notices.Accounted (n : Notices) : Prop :=
  ∀ last, n.service.routeHandler = some last → ∀ event ∈ last,
    n.sent event.interfaceId = some (notice inetPton n.service event)

variable {inetPton}

/-- The information of an event depends on what is compared only. -/
theorem notice_congr (hcase : ∀ a b : List Char, a.map Char.toLower = b.map Char.toLower →
    inetPton a = inetPton b) {s : NetAgentService} {event req : NetlinkEventReqInfo}
    (hid : event.interfaceId = req.interfaceId) (hsame : event.sameInfo req = true) :
    notice inetPton s event = notice inetPton s req := by
  simp only [NetlinkEventReqInfo.sameInfo, decide_eq_true_eq] at hsame
  obtain ⟨hcmd, haction, hflag, -, hprefix, haddress⟩ := hsame
  have hbinary : convertIpv6ToBinary inetPton event.address =
      convertIpv6ToBinary inetPton req.address := by
    rw [convertIpv6ToBinary, hcase _ _ haddress, convertIpv6ToBinary]
  unfold notice
  rw [hcmd, haction, hflag, hprefix, hid, apply_ite (convertIpv6ToBinary inetPton),
    apply_ite (convertIpv6ToBinary inetPton), hbinary]

theorem told_iff (hcase : ∀ a b : List Char, a.map Char.toLower = b.map Char.toLower →
    inetPton a = inetPton b) {n : Notices} (hsound : n.Sound inetPton) :
    n.Told inetPton ↔ n.Accounted inetPton := by
  constructor
  · intro h last hroute event hmem
    obtain ⟨hvalid, haddress⟩ := hsound.remembered last hroute event hmem
    exact h event ⟨last, hroute, noChanged_of_mem (hsound.nodup last hroute) hmem hvalid, haddress⟩
  · rintro h req ⟨last, hroute, hchanged, -⟩
    obtain ⟨event, hmem, hid, hsame⟩ := exists_sameInfo hchanged
    rw [← hid, h last hroute event hmem, notice_congr hcase hid hsame]

/-- The same transactions, events and notices. -/
structure SameBooks (n n' : Notices) : Prop where
  ids : n'.service.transIntfIds = n.service.transIntfIds
  routeHandler : n'.service.routeHandler = n.service.routeHandler
  sent : n'.sent = n.sent

theorem notice_congr_ids {s s' : NetAgentService} {event : NetlinkEventReqInfo}
    (h : s'.getTransIntfId event.interfaceId = s.getTransIntfId event.interfaceId) :
    notice inetPton s' event = notice inetPton s event := by
  unfold notice
  rw [h]

theorem SameBooks.sound {n n' : Notices} (h : SameBooks n n') (hsound : n.Sound inetPton) :
    n'.Sound inetPton where
  remembered := by
    rw [h.routeHandler]
    exact hsound.remembered
  nodup := by
    rw [h.routeHandler]
    exact hsound.nodup
  current := by
    intro interfaceId cmd hsent
    rw [h.sent] at hsent
    rw [getTransIntfId_congr h.ids]
    exact hsound.current interfaceId cmd hsent

theorem SameBooks.accounted {n n' : Notices} (h : SameBooks n n') :
    n'.Accounted inetPton ↔ n.Accounted inetPton := by
  unfold Notices.Accounted
  rw [h.routeHandler, h.sent]
  refine forall₄_congr fun last hroute event hmem => ?_
  rw [notice_congr_ids (getTransIntfId_congr h.ids _)]

/-! ### One request -/

section Request

variable {n : Notices} {requests : List NetAgentReqInfo} {success : Bool}

theorem handle_quiet {req : NetAgentReqInfo} (hreq : req.bringsUp = false)
    (h : Quiet { n.service with requests } ({ n.service with requests }.handleEvent inetPton req)) :
    SameBooks n (n.handle inetPton req requests success) where
  ids := h.ids
  routeHandler := h.routeHandler
  sent := by
    funext interfaceId
    have hsent : (n.handle inetPton req requests success).sent interfaceId =
        if opens { n.service with requests }
          ({ n.service with requests }.handleEvent inetPton req).1 req interfaceId then none
        else n.sent interfaceId := afterSent_of_not_notice h.cmd interfaceId
    rwa [opens_eq_false h.ids hreq, if_neg Bool.false_ne_true] at hsent

/-- What is sent when an interface is brought up or down is no notice. -/
theorem confirmInterfaceState_not_notice {s : NetAgentService} {interfaceId : Int}
    {state : IfstState} {addrType : UInt32} {cmd : IoCmd}
    (h : s.confirmInterfaceState interfaceId state addrType = some cmd) : cmd.isNotice = false := by
  unfold confirmInterfaceState at h
  dsimp only at h
  split at h
  · cases h
    rfl
  · cases h

/-- What an interface is left with when one has been brought up. -/
theorem handle_ifup (inetPton : List Char → Option AddrV6) (requests : List NetAgentReqInfo)
    (success : Bool) (id : UInt32) (ip : IpParameter) {interfaceId : Int}
    (hcurrent : n.service.getTransIntfId interfaceId ≠ invalidTransIntfId) :
    (n.handle inetPton (.ddm (.ifup id ip)) requests success).service.getTransIntfId interfaceId =
        n.service.getTransIntfId interfaceId ∧
      (n.handle inetPton (.ddm (.ifup id ip)) requests success).sent interfaceId =
        if n.service.getTransIntfId interfaceId = id.toBitVec.toInt then none
        else n.sent interfaceId := by
  generalize hn' : n.handle inetPton (.ddm (.ifup id ip)) requests success = n'
  have hids : n'.service.transIntfIds = n.service.transIntfIds ++ [id.toBitVec.toInt] := hn' ▸ rfl
  have hsame := getTransIntfId_append hids hcurrent
  refine ⟨hsame, ?_⟩
  have hsent : n'.sent interfaceId =
      if opens n.service n'.service (.ddm (.ifup id ip)) interfaceId then none
      else n.sent interfaceId := by
    subst hn'
    exact afterSent_of_not_notice (fun _ h => confirmInterfaceState_not_notice h) interfaceId
  rw [hsent, opens, hsame, bne_self_eq_false, Bool.false_or]
  exact if_congr beq_iff_eq rfl rfl

/-- A command that is no notice changes what has been sent only where a transaction is opened. -/
theorem sent_of_some {n' : Notices} {req : NetAgentReqInfo} {interfaceId : Int} {cmd : IoCmd}
    (hsent : n'.sent interfaceId =
      if opens n.service n'.service req interfaceId then none else n.sent interfaceId)
    (h : n'.sent interfaceId = some cmd) :
    n.sent interfaceId = some cmd ∧
      n'.service.getTransIntfId interfaceId = n.service.getTransIntfId interfaceId := by
  rw [hsent] at h
  split at h
  · cases h
  · rename_i hopens
    refine ⟨h, ?_⟩
    unfold opens at hopens
    rw [Bool.or_eq_true, not_or, bne_iff_ne, ne_eq, not_not] at hopens
    exact hopens.1

theorem notice_isNotice (s : NetAgentService) (req : NetlinkEventReqInfo) :
    (notice inetPton s req).isNotice = true := by
  unfold notice
  cases req.cmd with
  | ipupdate => rfl
  | ra => rfl

theorem notice_confirmedId (s : NetAgentService) (req : NetlinkEventReqInfo) :
    (notice inetPton s req).confirmedId = some (s.getTransIntfId req.interfaceId) := by
  unfold notice
  cases req.cmd with
  | ipupdate => rfl
  | ra => rfl

/-- Two interfaces have no transaction in common. -/
theorem getTransIntfId_inj {s : NetAgentService} {interfaceId k : Int}
    (h : s.getTransIntfId interfaceId = s.getTransIntfId k)
    (hvalid : s.getTransIntfId k ≠ invalidTransIntfId) : interfaceId = k := by
  obtain ⟨-, hk⟩ := (getTransIntfId_spec s k).resolve_left hvalid
  obtain ⟨-, hi⟩ := (getTransIntfId_spec s interfaceId).resolve_left (h ▸ hvalid)
  rw [← hi, h, hk]

/-- What has been sent, after the command for an event. -/
theorem afterSent_notice {s s' : NetAgentService} (hids : s'.transIntfIds = s.transIntfIds)
    (sent : Int → Option IoCmd) (event : NetlinkEventReqInfo) (success : Bool) (interfaceId : Int) :
    afterSent s s' sent (.netlink event)
        (if invalidTransIntfId ≠ s.getTransIntfId event.interfaceId then
          some (notice inetPton s event) else none) success interfaceId =
      if interfaceId = event.interfaceId ∧ success = true ∧
        s.getTransIntfId event.interfaceId ≠ invalidTransIntfId then some (notice inetPton s event)
      else sent interfaceId := by
  unfold afterSent
  rw [opens_eq_false hids rfl, if_neg Bool.false_ne_true]
  by_cases hvalid : s.getTransIntfId event.interfaceId = invalidTransIntfId
  · rw [if_neg (not_not_intro hvalid.symm)]
    exact (if_neg fun hc => hc.2.2 hvalid).symm
  · rw [if_pos (Ne.symm hvalid)]
    dsimp only
    rw [notice_isNotice, notice_confirmedId, Bool.and_true, getTransIntfId_congr hids]
    refine if_congr ?_ rfl rfl
    rw [Bool.and_eq_true, beq_iff_eq, Option.some_inj]
    constructor
    · rintro ⟨hsuccess, hid⟩
      exact ⟨getTransIntfId_inj hid.symm hvalid, hsuccess, hvalid⟩
    · rintro ⟨rfl, hsuccess, -⟩
      exact ⟨hsuccess, rfl⟩

/-- What is left when an event has been remembered. -/
theorem handle_netlink (requests : List NetAgentReqInfo) (success : Bool)
    {event : NetlinkEventReqInfo} (h : Remembers inetPton n.service event) :
    ∃ last, n.service.routeHandler = some last ∧
      (n.handle inetPton (.netlink event) requests success).service.routeHandler =
        some (removeLastReqInfo event.interfaceId last ++ [event]) ∧
      (n.handle inetPton (.netlink event) requests success).service.transIntfIds =
        n.service.transIntfIds ∧
      ∀ interfaceId, (n.handle inetPton (.netlink event) requests success).sent interfaceId =
        if interfaceId = event.interfaceId ∧ success = true ∧
          n.service.getTransIntfId event.interfaceId ≠ invalidTransIntfId then
            some (notice inetPton n.service event)
        else n.sent interfaceId := by
  have hremembers : Remembers inetPton { n.service with requests } event := h
  obtain ⟨last, hroute, hevent⟩ := handle_of_remembers inetPton hremembers
  refine ⟨last, hroute, ?_, ?_, fun interfaceId => ?_⟩
  · simp only [Notices.handle, hevent]
  · simp only [Notices.handle, hevent]
  · simp only [Notices.handle, hevent]
    exact afterSent_notice rfl n.sent event success interfaceId

/-! ### The step lemmas -/

/-- What a request leaves, when its command is no notice and it remembers no event. -/
structure Unnoticed (n n' : Notices) (req : NetAgentReqInfo) : Prop where
  routeHandler : ∀ last', n'.service.routeHandler = some last' →
    ∃ last, n.service.routeHandler = some last ∧ last'.Sublist last
  sent : ∀ interfaceId, n'.sent interfaceId =
    if opens n.service n'.service req interfaceId then none else n.sent interfaceId

theorem Unnoticed.sound {n' : Notices} {req : NetAgentReqInfo} (h : Unnoticed n n' req)
    (hsound : n.Sound inetPton) : n'.Sound inetPton where
  remembered := by
    intro last' hlast' event hmem
    obtain ⟨last, hlast, hsub⟩ := h.routeHandler last' hlast'
    exact hsound.remembered last hlast event (hsub.subset hmem)
  nodup := by
    intro last' hlast'
    obtain ⟨last, hlast, hsub⟩ := h.routeHandler last' hlast'
    exact (hsound.nodup last hlast).sublist (hsub.map _)
  current := by
    intro interfaceId cmd hcmd
    obtain ⟨hsent, hsame⟩ := sent_of_some (h.sent interfaceId) hcmd
    rw [hsame]
    exact hsound.current interfaceId cmd hsent

theorem unnoticed_ifup (id : UInt32) (ip : IpParameter) :
    Unnoticed n (n.handle inetPton (.ddm (.ifup id ip)) requests success) (.ddm (.ifup id ip)) where
  routeHandler := fun last hlast => ⟨last, hlast, .refl last⟩
  sent := fun interfaceId =>
    afterSent_of_not_notice (fun _ h => confirmInterfaceState_not_notice h) interfaceId

theorem unnoticed_ifdown (id : UInt32) :
    Unnoticed n (n.handle inetPton (.ddm (.ifdown id)) requests success) (.ddm (.ifdown id)) where
  routeHandler := by
    intro last' hlast'
    obtain ⟨last, hlast, rfl⟩ := Option.map_eq_some_iff.mp hlast'
    exact ⟨last, hlast, List.eraseP_sublist⟩
  sent := fun interfaceId =>
    afterSent_of_not_notice (fun _ h => confirmInterfaceState_not_notice h) interfaceId

/-- An interface is brought up: the events that are remembered stay accounted for, unless the
transaction of one of them is opened again. -/
theorem accounted_ifup (hsound : n.Sound inetPton) (h : n.Accounted inetPton) (id : UInt32)
    (ip : IpParameter) :
    (n.handle inetPton (.ddm (.ifup id ip)) requests success).Accounted inetPton ↔
      ∀ last, n.service.routeHandler = some last → ∀ event ∈ last,
        n.service.getTransIntfId event.interfaceId ≠ id.toBitVec.toInt := by
  refine forall₄_congr fun last hlast event hmem => ?_
  have hsent := h last hlast event hmem
  obtain ⟨hsame, hsent'⟩ :=
    handle_ifup inetPton requests success id ip (hsound.current _ _ hsent)
  rw [hsent', notice_congr_ids hsame]
  by_cases hopened : n.service.getTransIntfId event.interfaceId = id.toBitVec.toInt
  · rw [if_pos hopened]
    exact iff_of_false nofun (not_not_intro hopened)
  · rw [if_neg hopened]
    exact iff_of_true hsent hopened

/-- An interface is brought down: the events of the others stay accounted for. -/
theorem accounted_ifdown (hsound : n.Sound inetPton) (h : n.Accounted inetPton) (id : UInt32) :
    (n.handle inetPton (.ddm (.ifdown id)) requests success).Accounted inetPton := by
  intro last' hlast' event hmem
  obtain ⟨last, hlast, rfl⟩ := Option.map_eq_some_iff.mp hlast'
  have hother := interfaceId_ne_of_removed (hsound.nodup last hlast) hmem
  have hsame : (n.handle inetPton (.ddm (.ifdown id)) requests success).service.getTransIntfId
      event.interfaceId = n.service.getTransIntfId event.interfaceId :=
    getTransIntfId_filter rfl hother
  have hopens : opens n.service (n.handle inetPton (.ddm (.ifdown id)) requests success).service
      (.ddm (.ifdown id)) event.interfaceId = false := by
    unfold opens
    rw [hsame, bne_self_eq_false, Bool.false_or]
  rw [(unnoticed_ifdown id).sent event.interfaceId, hopens, if_neg Bool.false_ne_true,
    notice_congr_ids hsame]
  exact h last hlast event (mem_of_mem_removeLastReqInfo hmem)

/-- An event is remembered: it is accounted for if the modem accepts the command, or has been told
the same before. -/
theorem accounted_netlink (hsound : n.Sound inetPton) (h : n.Accounted inetPton)
    {event : NetlinkEventReqInfo} (hevent : Remembers inetPton n.service event) :
    (n.handle inetPton (.netlink event) requests success).Accounted inetPton ↔
      (success = true ∧ n.service.getTransIntfId event.interfaceId ≠ invalidTransIntfId ∨
        n.sent event.interfaceId = some (notice inetPton n.service event)) := by
  obtain ⟨last, hlast, hlast', hids, hsent⟩ := handle_netlink requests success hevent
  generalize n.handle inetPton (.netlink event) requests success = n' at hlast' hids hsent ⊢
  have hnotice : ∀ other, notice inetPton n'.service other = notice inetPton n.service other :=
    fun other => notice_congr_ids (getTransIntfId_congr hids _)
  constructor
  · intro h'
    have hself := h' _ hlast' event (List.mem_append_right _ (List.mem_singleton_self event))
    rw [hsent, hnotice] at hself
    by_cases hsends : success = true ∧
        n.service.getTransIntfId event.interfaceId ≠ invalidTransIntfId
    · exact .inl hsends
    · rw [if_neg fun hc => hsends hc.2] at hself
      exact .inr hself
  · intro htold last' hlast'' other hmem
    rw [hlast'] at hlast''
    cases hlast''
    rw [hsent, hnotice]
    rcases List.mem_append.mp hmem with hold | hnew
    · have hother := interfaceId_ne_of_removed (hsound.nodup last hlast) hold
      rw [if_neg fun hc => hother hc.1]
      exact h last hlast other (mem_of_mem_removeLastReqInfo hold)
    · obtain rfl := List.mem_singleton.mp hnew
      rcases htold with hsends | htold
      · exact if_pos ⟨rfl, hsends⟩
      · rw [htold]
        exact ite_self _

/-- An event is remembered, as the only one of its interface. -/
theorem sound_netlink (hsound : n.Sound inetPton) {event : NetlinkEventReqInfo}
    (hevent : Remembers inetPton n.service event) :
    (n.handle inetPton (.netlink event) requests success).Sound inetPton := by
  obtain ⟨last, hlast, hlast', hids, hsent⟩ := handle_netlink requests success hevent
  obtain ⟨-, -, hvalid, -, haddress⟩ := hevent
  generalize n.handle inetPton (.netlink event) requests success = n' at hlast' hids hsent ⊢
  refine ⟨?_, ?_, ?_⟩
  · intro last' hlast'' other hmem
    rw [hlast'] at hlast''
    cases hlast''
    rcases List.mem_append.mp hmem with hold | hnew
    · exact hsound.remembered last hlast other (mem_of_mem_removeLastReqInfo hold)
    · obtain rfl := List.mem_singleton.mp hnew
      exact ⟨hvalid, fun hcmd => (haddress hcmd).1⟩
  · intro last' hlast''
    rw [hlast'] at hlast''
    cases hlast''
    rw [List.map_append, List.map_singleton, List.nodup_append]
    refine ⟨(hsound.nodup last hlast).sublist (List.eraseP_sublist.map _),
      List.pairwise_singleton _ _, ?_⟩
    rintro interfaceId hmem _ hself rfl
    obtain ⟨other, hother, rfl⟩ := List.mem_map.mp hmem
    exact interfaceId_ne_of_removed (hsound.nodup last hlast) hother (List.mem_singleton.mp hself)
  · intro interfaceId cmd hcmd
    rw [hsent] at hcmd
    rw [getTransIntfId_congr hids]
    split at hcmd
    · rename_i hc
      rw [hc.1]
      exact hc.2.2
    · exact hsound.current interfaceId cmd hcmd

/-- An event that is not remembered leaves everything as it was. -/
theorem sameBooks_netlink {event : NetlinkEventReqInfo}
    (hevent : ¬ Remembers inetPton n.service event) :
    SameBooks n (n.handle inetPton (.netlink event) requests success) := by
  have hnot : ¬ Remembers inetPton { n.service with requests } event := hevent
  have hhandle := handle_of_not_remembers inetPton hnot
  refine handle_quiet rfl ?_
  rw [hhandle]
  exact .nothing rfl rfl

end Request

/-- A request that changes nothing in the records. -/
theorem handle_of_sameBooks {n n' : Notices} (h : SameBooks n n') (hsound : n.Sound inetPton)
    {P : Prop} (hP : P) :
    n'.Sound inetPton ∧ (n.Accounted inetPton → (n'.Accounted inetPton ↔ P)) :=
  ⟨h.sound hsound, fun haccounted => iff_of_true (h.accounted.mpr haccounted) hP⟩

/-- **One request.**  Handling a request keeps the records in order, and keeps every event that is
remembered accounted for if and only if the events that are remembered are sent. -/
theorem handle_accounted {n : Notices} (hsound : n.Sound inetPton) (req : NetAgentReqInfo)
    (requests : List NetAgentReqInfo) (success : Bool) :
    (n.handle inetPton req requests success).Sound inetPton ∧
      (n.Accounted inetPton →
        ((n.handle inetPton req requests success).Accounted inetPton ↔
          n.Passes inetPton success req)) := by
  cases req with
  | ddm urc =>
    cases urc with
    | ifup id ip =>
      exact ⟨(unnoticed_ifup id ip).sound hsound,
        fun haccounted => accounted_ifup hsound haccounted id ip⟩
    | ifdown id =>
      exact ⟨(unnoticed_ifdown id).sound hsound,
        fun haccounted => iff_of_true (accounted_ifdown hsound haccounted id) trivial⟩
    | ifchg id ip =>
      exact handle_of_sameBooks (handle_quiet rfl (quiet_ifchg _ id ip)) hsound trivial
    | setmtu id =>
      exact handle_of_sameBooks (handle_quiet rfl (.nothing rfl rfl)) hsound trivial
    | pdnho id ho =>
      exact handle_of_sameBooks (handle_quiet rfl (quiet_pdnho _ id ho)) hsound trivial
    | ipchg id ip =>
      exact handle_of_sameBooks (handle_quiet rfl (quiet_ipchg _ id ip)) hsound trivial
  | netlink event =>
    by_cases hevent : Remembers inetPton n.service event
    · exact ⟨sound_netlink hsound hevent,
        fun haccounted => (accounted_netlink hsound haccounted hevent).trans
          ⟨fun h _ => h, fun h => h hevent⟩⟩
    · exact handle_of_sameBooks (sameBooks_netlink hevent) hsound
        fun h => absurd h hevent
  | ifstate interfaceId state =>
    exact handle_of_sameBooks (handle_quiet rfl (.nothing rfl rfl)) hsound trivial
  | syncCapability =>
    refine handle_of_sameBooks (handle_quiet rfl ⟨rfl, rfl, fun cmd h => ?_⟩) hsound
      trivial
    cases h
    rfl

/-! ### Runs -/

theorem sameBooks_enqueue (n : Notices) (req : NetAgentReqInfo) : SameBooks n (n.enqueue req) :=
  ⟨rfl, rfl, rfl⟩

/-- **One step.** -/
theorem step_accounted {n n' : Notices} {a : Act} (hsound : n.Sound inetPton)
    (hstep : n.step inetPton a = some n') :
    n'.Sound inetPton ∧
      (n.Accounted inetPton → (n'.Accounted inetPton ↔ n.Sends inetPton a)) := by
  cases a with
  | urc urc =>
    cases hstep
    exact handle_of_sameBooks (sameBooks_enqueue n _) hsound fun _ _ _ h => by cases h
  | address interfaceId flag valid ipv6PrefixLength address removed =>
    cases hstep
    exact handle_of_sameBooks (sameBooks_enqueue n _) hsound fun _ _ _ h => by cases h
  | noRa interfaceId flag =>
    cases hstep
    exact handle_of_sameBooks (sameBooks_enqueue n _) hsound fun _ _ _ h => by cases h
  | transmit state transIntfId =>
    have hsame : SameBooks n n' := by
      unfold Notices.step setNetworkTransmitState at hstep
      dsimp only at hstep
      by_cases hmatched : n.service.isTransIntfIdMatched transIntfId = true
      · rw [if_pos hmatched] at hstep
        cases hstep
        exact ⟨rfl, rfl, rfl⟩
      · rw [if_neg hmatched] at hstep
        cases hstep
        exact ⟨rfl, rfl, rfl⟩
    exact handle_of_sameBooks hsame hsound fun _ _ _ h => by cases h
  | handle success =>
    unfold Notices.step at hstep
    dsimp only at hstep
    cases hrequests : n.service.requests with
    | nil =>
      rw [hrequests] at hstep
      cases hstep
    | cons req requests =>
      rw [hrequests] at hstep
      cases hstep
      obtain ⟨hsound', hiff⟩ := handle_accounted hsound req requests success
      refine ⟨hsound', fun haccounted => (hiff haccounted).trans
        ⟨?_, fun h => h success req requests rfl hrequests⟩⟩
      intro h success' req' requests' ha heq
      rw [hrequests] at heq
      cases ha
      cases heq
      exact h

/-- A request is handled unless there is none. -/
theorem sends_of_stuck {n : Notices} {a : Act} (hstep : n.step inetPton a = none) :
    n.Sends inetPton a := by
  rintro success req requests rfl hrequests
  unfold Notices.step at hstep
  dsimp only at hstep
  rw [hrequests] at hstep
  cases hstep

/-- **When the modem has been told.**  Along a run, whatever event would be skipped has been sent to
the modem for the current transaction of its interface since the transaction was opened, and no
other notice has been since, if and only if every event that is remembered is for an interface with
a current transaction and is accepted by the modem, and no transaction is opened again while an
event is remembered for it. -/
theorem skips_iff (hcase : ∀ a b : List Char, a.map Char.toLower = b.map Char.toLower →
    inetPton a = inetPton b) (routeHandler : Bool) (acts : List Act) :
    (noticesMachine inetPton routeHandler).Along (Notices.Told inetPton)
        (noticesMachine inetPton routeHandler).init acts ↔
      (noticesMachine inetPton routeHandler).Meets (Notices.Sends inetPton)
        (noticesMachine inetPton routeHandler).init acts := by
  have hnothing : ∀ last, (noticesMachine inetPton routeHandler).init.service.routeHandler =
      some last → last = [] := by
    intro last hlast
    cases routeHandler with
    | false => cases hlast
    | true => exact (Option.some.inj hlast).symm
  have hinit : (noticesMachine inetPton routeHandler).init.Sound inetPton := by
    refine ⟨fun last hlast event hmem => ?_, fun last hlast => ?_, nofun⟩
    · rw [hnothing last hlast] at hmem
      cases hmem
    · rw [hnothing last hlast]
      exact List.nodup_nil
  refine Machine.along_iff_meets_of_stuck _ (fun _ _ => sends_of_stuck) ?_ ?_ hinit ?_ acts
  · intro n a n' hsound hstep
    have hstep : n.step inetPton a = some n' := hstep
    exact (step_accounted hsound hstep).1
  · intro n a n' hsound htold hstep
    have hstep : n.step inetPton a = some n' := hstep
    obtain ⟨hsound', hiff⟩ := step_accounted hsound hstep
    exact (told_iff hcase hsound').trans (hiff ((told_iff hcase hsound).mp htold))
  · refine (told_iff hcase hinit).mpr fun last hlast event hmem => ?_
    rw [hnothing last hlast] at hmem
    cases hmem

end Runs

/-! ## Two runs -/

/-- `inet_pton` for two texts, in whatever case. -/
def inetPtonOfTwo (text : List Char) : Option AddrV6 :=
  if text.map Char.toLower = "2001:db8::1".toList then
    some #v[0x20, 0x01, 0x0D, 0xB8, 0, 0, 0, 0, 0, 0, 0, 0, 0, 0, 0, 1]
  else if text.map Char.toLower = "0::0".toList then some (Vector.replicate 16 0)
  else none

/-- Interface 1 is brought up, and the kernel adds an address to it, and says so again. -/
def addressTwice : List Act :=
  let ip : IpParameter := ⟨addrTypeIpv6, Vector.replicate 4 0, Vector.replicate 16 0⟩
  [.urc (.ifup 101 ip), .handle true, .handle true,
    .address 1 0 600 64 "2001:db8::1".toList false, .handle true,
    .address 1 0 600 64 "2001:DB8::1".toList false, .handle true]

/-- The second event is skipped, and the modem has been told. -/
theorem skips_iff_addressTwice :
    (noticesMachine inetPtonOfTwo true).Along (Notices.Told inetPtonOfTwo)
      (noticesMachine inetPtonOfTwo true).init addressTwice := by
  refine (skips_iff (fun a b h => ?_) true addressTwice).mpr (by decide +kernel)
  unfold inetPtonOfTwo
  rw [h]

/-- The kernel adds an address to interface 1 before it is brought up. -/
def addressEarly : List Act :=
  let ip : IpParameter := ⟨addrTypeIpv6, Vector.replicate 4 0, Vector.replicate 16 0⟩
  [.handle true, .address 1 0 600 64 "2001:db8::1".toList false, .handle true,
    .urc (.ifup 101 ip), .handle true]

/-- The modem has not been told about the address, and the event is skipped when it comes again. -/
theorem addressEarly_not_told :
    ¬ (noticesMachine inetPtonOfTwo true).Along (Notices.Told inetPtonOfTwo)
      (noticesMachine inetPtonOfTwo true).init addressEarly := by
  let event := addressReqInfo 1 0 600 64 "2001:db8::1".toList false
  have hrun : ((noticesMachine inetPtonOfTwo true).run (noticesMachine inetPtonOfTwo true).init
      addressEarly).map (fun n => (n.service.routeHandler, n.sent 1)) =
      some (some [event], none) := by decide +kernel
  obtain ⟨n, hn, heq⟩ := Option.map_eq_some_iff.mp hrun
  rw [Prod.mk.injEq] at heq
  intro h
  have hskips : Skips inetPtonOfTwo n.service event :=
    ⟨[event], heq.1, by decide +kernel, fun _ => by decide +kernel⟩
  have htold : n.sent 1 = some _ := (h.last _ hn) event hskips
  rw [heq.2] at htold
  cases htold

end MtkHw.NetAgent
