import Mathlib.Data.Finset.Basic
import MtkHw.NetAgent.Service

/-!
# The network agent: the addresses of a handover

When a handover starts, the agent records the addresses that the interface has.  When it comes to
the target network, the modem tells the new addresses: the agent gives them to the kernel, takes the
recorded ones from it, and tells the modem the IPv4 address.  The kernel reports every address that
it loses, and the removal of the recorded IPv6 address is not passed on to the modem.

The addresses of an interface are a set of texts, in the notation in which the agent writes them; an
empty text is no address, and the functions of the kernel refuse it.  What else adds and removes
addresses is left to the environment.

The new addresses are not compared with the recorded ones, and the record stays when it has been
used.  `handover_iff` says in which runs that does no harm.
-/

namespace MtkHw.NetAgent

open Lib
open NetAgentService (interfaceOf)

/-! ## The kernel -/

/-- The addresses of an interface. -/
abbrev Addresses := Finset (List Char)

/-- `ifc_add_address` -/
def ifcAddAddress (addresses : Addresses) (address : List Char) : Addresses :=
  if address = [] then addresses else insert address addresses

/-- `ifc_del_address` -/
def ifcDelAddress (addresses : Addresses) (address : List Char) : Addresses :=
  if address = [] then addresses else addresses.erase address

theorem mem_foldl_ifcAddAddress {texts : List (List Char)} {addresses : Addresses}
    {t : List Char} : t ∈ texts.foldl ifcAddAddress addresses ↔
      t ∈ addresses ∨ t ≠ [] ∧ t ∈ texts := by
  induction texts generalizing addresses with
  | nil => simp
  | cons text texts ih =>
    rw [List.foldl_cons, ih, ifcAddAddress]
    by_cases htext : text = []
    · subst htext
      rw [if_pos rfl, List.mem_cons]
      tauto
    · rw [if_neg htext, Finset.mem_insert, List.mem_cons]
      constructor
      · rintro ((rfl | h) | h)
        · exact .inr ⟨htext, .inl rfl⟩
        · exact .inl h
        · exact .inr ⟨h.1, .inr h.2⟩
      · rintro (h | ⟨hne, rfl | h⟩)
        · exact .inl (.inr h)
        · exact .inl (.inl rfl)
        · exact .inr ⟨hne, h⟩

theorem mem_foldl_ifcDelAddress {texts : List (List Char)} {addresses : Addresses}
    {t : List Char} : t ∈ texts.foldl ifcDelAddress addresses ↔
      t ∈ addresses ∧ ¬ (t ≠ [] ∧ t ∈ texts) := by
  induction texts generalizing addresses with
  | nil => simp
  | cons text texts ih =>
    rw [List.foldl_cons, ih, ifcDelAddress]
    by_cases htext : text = []
    · subst htext
      rw [if_pos rfl, List.mem_cons]
      tauto
    · rw [if_neg htext, Finset.mem_erase, List.mem_cons]
      constructor
      · rintro ⟨⟨hne, hmem⟩, hnot⟩
        refine ⟨hmem, ?_⟩
        rintro ⟨hne', rfl | h⟩
        · exact hne rfl
        · exact hnot ⟨hne', h⟩
      · rintro ⟨hmem, hnot⟩
        refine ⟨⟨?_, hmem⟩, fun h => hnot ⟨h.1, .inr h.2⟩⟩
        rintro rfl
        exact hnot ⟨htext, .inl rfl⟩

/-! ## The addresses of a record and of a request -/

/-- The texts that the `switch` over a type of address goes through. -/
def addressesByType (addrType : UInt32) (addressV4 addressV6 : List Char) : List (List Char) :=
  if addrType = addrTypeIpv4 then [addressV4]
  else if addrType = addrTypeIpv6 then [addressV6]
  else if addrType = addrTypeIpv4v6 then [addressV4, addressV6]
  else []

/-- What `updatePdnHandoverAddr` adds. -/
def newTexts (transIntfId : UInt32) (ip : IpParameter) : List (List Char) :=
  let (addressV4, addressV6) := getAddresses (.ipchg transIntfId ip) ip.addrType
  addressesByType ip.addrType addressV4 addressV6

/-- What `updatePdnHandoverAddr` deletes. -/
def NetAgentPdnInfo.texts (pdnSrcInfo : NetAgentPdnInfo) : List (List Char) :=
  addressesByType pdnSrcInfo.addrType pdnSrcInfo.addressV4 pdnSrcInfo.addressV6

/-- The kernel's part of `updatePdnHandoverAddr`. -/
def NetAgentService.updateKernelAddresses (s : NetAgentService) (transIntfId : UInt32)
    (ip : IpParameter) (addresses : Addresses) : Addresses :=
  let addresses := (newTexts transIntfId ip).foldl ifcAddAddress addresses
  match s.pdnHoInfo (interfaceOf transIntfId) with
  | none => addresses
  | some pdnSrcInfo => pdnSrcInfo.texts.foldl ifcDelAddress addresses

/-- The recorded IPv6 address, if the record has one. -/
def NetAgentPdnInfo.sourceV6 (pdnSrcInfo : NetAgentPdnInfo) : Option (List Char) :=
  if (pdnSrcInfo.addrType = addrTypeIpv6 ∨ pdnSrcInfo.addrType = addrTypeIpv4v6) ∧
      pdnSrcInfo.addressV6 ≠ [] then some pdnSrcInfo.addressV6
  else none

/-- An address that an IPCHG gives. -/
def IsNew (transIntfId : UInt32) (ip : IpParameter) (t : List Char) : Prop :=
  t ≠ [] ∧ t ∈ newTexts transIntfId ip

/-- A source address that is recorded for an interface. -/
def NetAgentService.IsSource (s : NetAgentService) (interfaceId : Int) (t : List Char) : Prop :=
  ∃ pdnSrcInfo, s.pdnHoInfo interfaceId = some pdnSrcInfo ∧ t ≠ [] ∧ t ∈ pdnSrcInfo.texts

/-- What the kernel has afterwards. -/
theorem mem_updateKernelAddresses {s : NetAgentService} {transIntfId : UInt32} {ip : IpParameter}
    {addresses : Addresses} {t : List Char} :
    t ∈ s.updateKernelAddresses transIntfId ip addresses ↔
      (t ∈ addresses ∨ IsNew transIntfId ip t) ∧ ¬ s.IsSource (interfaceOf transIntfId) t := by
  unfold NetAgentService.updateKernelAddresses NetAgentService.IsSource IsNew
  cases hrecord : s.pdnHoInfo (interfaceOf transIntfId) with
  | none => simp [mem_foldl_ifcAddAddress]
  | some pdnSrcInfo => simp [mem_foldl_ifcDelAddress, mem_foldl_ifcAddAddress]

/-! ## Texts of addresses -/

/-- Every IPv6 address is written in 39 characters. -/
theorem length_convertIpv6ToString (addr : AddrV6) : (convertIpv6ToString addr).length = 39 := by
  have hsnd : addr.toList.zipIdx.map Prod.snd = List.range 16 := by
    rw [List.zipIdx_map_snd, Vector.length_toList, List.range_eq_range']
  have hlen : (convertIpv6ToString addr).length =
      ((addr.toList.zipIdx.map Prod.snd).map fun i =>
        if i ≠ 0 ∧ i % 2 = 0 then 3 else 2).sum := by
    rw [convertIpv6ToString, List.length_flatMap, List.map_map]
    congr 1
    refine List.map_congr_left fun p _ => ?_
    simp only [Function.comp_apply]
    split <;> rfl
  rw [hlen, hsnd]
  rfl

/-- The text of an IPv4 address is not empty. -/
theorem convertIpv4ToString_ne_nil (addr : AddrV4) : convertIpv4ToString addr ≠ [] := by
  have hlen : addr.toList.length = 4 := Vector.length_toList
  unfold convertIpv4ToString
  match haddr : addr.toList with
  | a :: b :: rest =>
    intro h
    have hfirst : Nat.toDigits 10 a.toNat ++ _ = [] := h
    exact Nat.toDigits_ne_nil (List.append_eq_nil_iff.mp hfirst).1
  | [] | [_] =>
    rw [haddr] at hlen
    cases hlen

/-- What is recorded of an IPv6 address is nothing, or an address written out. -/
def Canonical (t : List Char) : Prop := t = [] ∨ ∃ addr, t = convertIpv6ToString addr

theorem canonical_getIpv6Address (urc : Urc) : Canonical (getIpv6Address urc) := by
  unfold getIpv6Address
  split
  · split
    · exact .inr ⟨_, rfl⟩
    · exact .inl rfl
  · exact .inl rfl

theorem canonical_getAddresses (urc : Urc) (addrType : UInt32) :
    Canonical (getAddresses urc addrType).2 := by
  unfold getAddresses
  split_ifs
  · exact .inl rfl
  · exact canonical_getIpv6Address urc
  · exact canonical_getIpv6Address urc
  · exact .inl rfl

/-- An address is compared with the beginning of what is recorded, which is all of it. -/
theorem isPrefixOf_canonical {t : List Char} (h : Canonical t) (addr : AddrV6) :
    (convertIpv6ToString addr).isPrefixOf t = true ↔ t = convertIpv6ToString addr := by
  rw [List.isPrefixOf_iff_prefix]
  constructor
  · intro hstart
    have hlen := length_convertIpv6ToString addr
    rcases h with rfl | ⟨addr', rfl⟩
    · rw [List.prefix_nil.mp hstart] at hlen
      cases hlen
    · exact (hstart.eq_of_length (hlen.trans (length_convertIpv6ToString addr').symm)).symm
  · rintro rfl
    exact List.prefix_rfl

/-! ## The machine -/

/-- The kernel has lost an IPv6 address. -/
structure RemovalNotice where
  interfaceId : Int
  address : List Char
  /-- The handover that deleted it, if one did. -/
  handover : Option Nat
deriving DecidableEq, Repr

/-- The agent and the kernel. -/
structure HoRun where
  svc : NetAgentService
  /-- What each interface has. -/
  addresses : Int → Addresses
  /-- What the kernel will report, the oldest first. -/
  notices : List RemovalNotice
  /-- How many handovers have been recorded for each interface. -/
  handovers : Int → Nat

/-- What happens next. -/
inductive HoAct where
  | /-- A handover starts or stops. -/ pdnho (tranId : UInt32) (ho : HoParameter)
  | /-- The addresses have changed. -/ ipchg (transIntfId : UInt32) (ip : IpParameter)
  | /-- Something else adds an address. -/ kernelAdd (interfaceId : Int) (address : List Char)
  | /-- Something else removes an IPv6 address. -/ kernelRemove (interfaceId : Int) (addr : AddrV6)
  | /-- The kernel reports the oldest removal, in its own notation. -/ removed (delAddr : List Char)
deriving DecidableEq, Repr

namespace HoRun

/-- A handover that starts well is recorded. -/
def records (ho : HoParameter) : Bool := ho.hostate = 0 ∧ ho.isSucc = 1

/-- `handlePdnHandoverControl` -/
def pdnho (s : HoRun) (tranId : UInt32) (ho : HoParameter) : HoRun :=
  { s with
    svc := (s.svc.handlePdnHandoverControl tranId ho).1
    handovers :=
      if records ho then
        Function.update s.handovers (interfaceOf tranId) (s.handovers (interfaceOf tranId) + 1)
      else s.handovers }

/-- The IPv6 address that `updatePdnHandoverAddr` takes from the kernel. -/
def ipchgNotices (s : HoRun) (transIntfId : UInt32) (ip : IpParameter) : List RemovalNotice :=
  let i := interfaceOf transIntfId
  match (s.svc.pdnHoInfo i).bind NetAgentPdnInfo.sourceV6 with
  | none => []
  | some address =>
      if address ∈ (newTexts transIntfId ip).foldl ifcAddAddress (s.addresses i) then
        [⟨i, address, some (s.handovers i)⟩]
      else []

/-- `updatePdnHandoverAddr` -/
def ipchg (s : HoRun) (transIntfId : UInt32) (ip : IpParameter) : HoRun :=
  let i := interfaceOf transIntfId
  { s with
    addresses := Function.update s.addresses i
      (s.svc.updateKernelAddresses transIntfId ip (s.addresses i))
    notices := s.notices ++ s.ipchgNotices transIntfId ip }

/-- An address goes that the agent has not deleted. -/
def kernelRemove (s : HoRun) (i : Int) (addr : AddrV6) : Option HoRun :=
  if convertIpv6ToString addr ∈ s.addresses i then
    some { s with
      addresses := Function.update s.addresses i
        (ifcDelAddress (s.addresses i) (convertIpv6ToString addr))
      notices := s.notices ++ [⟨i, convertIpv6ToString addr, none⟩] }
  else none

/-- The oldest removal is reported in a text that stands for the address. -/
def report (inetPton : List Char → Option AddrV6) (s : HoRun) (delAddr : List Char) :
    Option HoRun :=
  match s.notices with
  | [] => none
  | notice :: notices =>
      if convertIpv6ToString (NetAgentService.convertIpv6ToBinary inetPton delAddr) =
          notice.address then
        some { s with notices := notices }
      else none

/-- One step. -/
def step (inetPton : List Char → Option AddrV6) (s : HoRun) : HoAct → Option HoRun
  | .pdnho tranId ho => some (s.pdnho tranId ho)
  | .ipchg transIntfId ip => some (s.ipchg transIntfId ip)
  | .kernelAdd i address =>
      some { s with
        addresses := Function.update s.addresses i (ifcAddAddress (s.addresses i) address) }
  | .kernelRemove i addr => s.kernelRemove i addr
  | .removed delAddr => s.report inetPton delAddr

end HoRun

section Runs

variable (inetPton : List Char → Option AddrV6)

/-- The agent, started with the identifiers `ids` in its list, and interfaces with `addresses`. -/
def hoMachine (ids : List Int) (addresses : Int → Addresses) : Machine HoRun HoAct where
  init := ⟨{ NetAgentService.init true with transIntfIds := ids }, addresses, [], fun _ => 0⟩
  step := HoRun.step inetPton

/-! ## What a handover should do -/

/-- An IPCHG leaves the interface with the new addresses in place of the recorded ones. -/
structure IpchgOk (s : HoRun) (transIntfId : UInt32) (ip : IpParameter) : Prop where
  /-- What it was given is there. -/
  new_mem : ∀ t, IsNew transIntfId ip t →
    t ∈ (s.ipchg transIntfId ip).addresses (interfaceOf transIntfId)
  /-- What is reported to the modem is there, where zeros stand for a lost address. -/
  reported_mem : ∀ id addr len,
    s.svc.updatePdnHandoverAddr transIntfId ip = some (.ipupdate id (.v4 addr) len) →
    addr ≠ Vector.replicate 4 0 →
    convertIpv4ToString addr ∈ (s.ipchg transIntfId ip).addresses (interfaceOf transIntfId)
  /-- What was recorded and is not new is gone. -/
  source_gone : ∀ t, s.svc.IsSource (interfaceOf transIntfId) t → ¬ IsNew transIntfId ip t →
    t ∉ (s.ipchg transIntfId ip).addresses (interfaceOf transIntfId)
  /-- No other address of the interface is touched. -/
  untouched : ∀ t, ¬ s.svc.IsSource (interfaceOf transIntfId) t → ¬ IsNew transIntfId ip t →
    (t ∈ (s.ipchg transIntfId ip).addresses (interfaceOf transIntfId) ↔
      t ∈ s.addresses (interfaceOf transIntfId))
  /-- No other interface is touched. -/
  other_interfaces : ∀ i ≠ interfaceOf transIntfId,
    (s.ipchg transIntfId ip).addresses i = s.addresses i

/-- The kernel reports the removal of `notice`. -/
def Reports (delAddr : List Char) (notice : RemovalNotice) : Prop :=
  convertIpv6ToString (NetAgentService.convertIpv6ToBinary inetPton delAddr) = notice.address

/-- What a step should do: an IPCHG as above, and of the removals only those of a source address
that the handover on record has deleted are hidden. -/
def HandoverOk (s : HoRun) : HoAct → Prop
  | .ipchg transIntfId ip => IpchgOk s transIntfId ip
  | .removed delAddr => ∀ notice ∈ s.notices.head?, Reports inetPton delAddr notice →
      s.svc.isNeedNotifyIPv6RemovedToModem inetPton notice.interfaceId delAddr = false →
      s.svc.IsSource notice.interfaceId notice.address ∧
        notice.handover = some (s.handovers notice.interfaceId)
  | .pdnho .. | .kernelAdd .. | .kernelRemove .. => True

/-- No new address is a recorded one, and what is lost by other causes is not the recorded IPv6
address. -/
def HandoverApart (s : HoRun) : HoAct → Prop
  | .ipchg transIntfId ip =>
      ∀ t, IsNew transIntfId ip t → ¬ s.svc.IsSource (interfaceOf transIntfId) t
  | .removed delAddr => ∀ notice ∈ s.notices.head?, Reports inetPton delAddr notice →
      (s.svc.pdnHoInfo notice.interfaceId).bind NetAgentPdnInfo.sourceV6 = some notice.address →
      notice.handover = some (s.handovers notice.interfaceId)
  | .pdnho .. | .kernelAdd .. | .kernelRemove .. => True

/-! ## The proof -/

theorem ipchg_addresses (s : HoRun) (transIntfId : UInt32) (ip : IpParameter) :
    (s.ipchg transIntfId ip).addresses (interfaceOf transIntfId) =
      s.svc.updateKernelAddresses transIntfId ip (s.addresses (interfaceOf transIntfId)) :=
  Function.update_self ..

/-- The IPv4 address that is told to the modem is one that was given. -/
theorem isNew_of_reported {s : NetAgentService} {transIntfId : UInt32} {ip : IpParameter}
    {id : Int} {addr : AddrV4} {len : Int}
    (h : s.updatePdnHandoverAddr transIntfId ip = some (.ipupdate id (.v4 addr) len))
    (hne : addr ≠ Vector.replicate 4 0) : IsNew transIntfId ip (convertIpv4ToString addr) := by
  have htype : (ip.addrType = addrTypeIpv4 ∨ ip.addrType = addrTypeIpv4v6) ∧ ip.addrV4 = addr := by
    unfold NetAgentService.updatePdnHandoverAddr at h
    split at h
    · cases h
    · split at h
      · rename_i htype
        refine ⟨htype, ?_⟩
        unfold NetAgentService.confirmIpUpdate at h
        dsimp only at h
        split at h
        · cases h
          rfl
        · cases h
      · cases h
  obtain ⟨htype, rfl⟩ := htype
  have htext : getIpv4Address (.ipchg transIntfId ip) = convertIpv4ToString ip.addrV4 := by
    have hbit : ip.addrType &&& addrTypeIpv4 ≠ 0 := by
      rcases htype with htype | htype <;> rw [htype] <;> decide
    rw [getIpv4Address, Urc.getAddrV4, if_pos hbit]
    exact if_pos hne
  refine ⟨convertIpv4ToString_ne_nil ip.addrV4, ?_⟩
  rw [← htext]
  rcases htype with htype | htype
  · simp [newTexts, getAddresses, addressesByType, htype]
  · simp [newTexts, getAddresses, addressesByType, htype, addrTypeIpv4, addrTypeIpv6,
      addrTypeIpv4v6]

/-- An IPCHG does what it should exactly if no new address is a recorded one. -/
theorem ipchgOk_iff (s : HoRun) (transIntfId : UInt32) (ip : IpParameter) :
    IpchgOk s transIntfId ip ↔
      ∀ t, IsNew transIntfId ip t → ¬ s.svc.IsSource (interfaceOf transIntfId) t := by
  constructor
  · intro h t hnew
    have hmem := h.new_mem t hnew
    rw [ipchg_addresses, mem_updateKernelAddresses] at hmem
    exact hmem.2
  · intro h
    constructor
    · intro t hnew
      rw [ipchg_addresses, mem_updateKernelAddresses]
      exact ⟨.inr hnew, h t hnew⟩
    · intro id addr len hcmd hne
      have hnew := isNew_of_reported hcmd hne
      rw [ipchg_addresses, mem_updateKernelAddresses]
      exact ⟨.inr hnew, h _ hnew⟩
    · intro t hsource _ hmem
      rw [ipchg_addresses, mem_updateKernelAddresses] at hmem
      exact hmem.2 hsource
    · intro t hsource hnew
      rw [ipchg_addresses, mem_updateKernelAddresses]
      constructor
      · rintro ⟨hmem | hnew', -⟩
        · exact hmem
        · exact absurd hnew' hnew
      · exact fun hmem => ⟨.inl hmem, hsource⟩
    · intro i hi
      exact Function.update_of_ne hi _ _

/-- What is recorded of IPv6 addresses is written out by the agent. -/
def RecordsCanonical (s : HoRun) : Prop :=
  ∀ i pdnSrcInfo, s.svc.pdnHoInfo i = some pdnSrcInfo → Canonical pdnSrcInfo.addressV6

/-- The recorded IPv6 address is a source address. -/
theorem isSource_of_sourceV6 {s : NetAgentService} {i : Int} {t : List Char}
    (h : (s.pdnHoInfo i).bind NetAgentPdnInfo.sourceV6 = some t) : s.IsSource i t := by
  obtain ⟨pdnSrcInfo, hrecord, hv6⟩ := Option.bind_eq_some_iff.mp h
  unfold NetAgentPdnInfo.sourceV6 at hv6
  split at hv6
  · rename_i hcond
    cases hv6
    refine ⟨pdnSrcInfo, hrecord, hcond.2, ?_⟩
    rcases hcond.1 with htype | htype
    · simp [NetAgentPdnInfo.texts, addressesByType, htype, addrTypeIpv4, addrTypeIpv6]
    · simp [NetAgentPdnInfo.texts, addressesByType, htype, addrTypeIpv4, addrTypeIpv6,
        addrTypeIpv4v6]
  · cases hv6

/-- The removal of the recorded IPv6 address is hidden, and no other. -/
theorem hides_iff {s : HoRun} (h : RecordsCanonical s) (i : Int) (delAddr : List Char) :
    s.svc.isNeedNotifyIPv6RemovedToModem inetPton i delAddr = false ↔
      (s.svc.pdnHoInfo i).bind NetAgentPdnInfo.sourceV6 =
        some (convertIpv6ToString (NetAgentService.convertIpv6ToBinary inetPton delAddr)) := by
  unfold NetAgentService.isNeedNotifyIPv6RemovedToModem
  cases hrecord : s.svc.pdnHoInfo i with
  | none => simp
  | some pdnSrcInfo =>
    have hprefix := isPrefixOf_canonical (h i pdnSrcInfo hrecord)
      (NetAgentService.convertIpv6ToBinary inetPton delAddr)
    have hlen := length_convertIpv6ToString
      (NetAgentService.convertIpv6ToBinary inetPton delAddr)
    rw [Option.bind_some, NetAgentPdnInfo.sourceV6]
    dsimp only
    by_cases htype : pdnSrcInfo.addrType = addrTypeIpv6 ∨ pdnSrcInfo.addrType = addrTypeIpv4v6
    · rw [if_pos htype, Bool.not_eq_false', hprefix]
      constructor
      · intro heq
        rw [if_pos, heq]
        refine ⟨htype, fun hnil => ?_⟩
        rw [← heq, hnil] at hlen
        cases hlen
      · intro heq
        split at heq
        · exact Option.some.inj heq
        · cases heq
    · rw [if_neg htype, if_neg fun hc => htype hc.1]
      exact iff_of_false (by decide) (by simp)

/-- Every step leaves the records as the agent writes them. -/
theorem recordsCanonical_step {s s' : HoRun} {a : HoAct} (h : RecordsCanonical s)
    (hstep : HoRun.step inetPton s a = some s') : RecordsCanonical s' := by
  cases a with
  | pdnho tranId ho =>
    cases hstep
    intro i pdnSrcInfo hrecord
    change ((s.svc.handlePdnHandoverControl tranId ho).1).pdnHoInfo i = some pdnSrcInfo at hrecord
    unfold NetAgentService.handlePdnHandoverControl at hrecord
    split_ifs at hrecord
    · have hnew : Canonical (getAddresses (.pdnho tranId ho) ho.addrType).2 :=
        canonical_getAddresses _ _
      unfold NetAgentService.recordPdnHandoverInfo at hrecord
      dsimp only at hrecord
      by_cases hi : i = interfaceOf tranId
      · subst hi
        have hold : Canonical
            ((s.svc.pdnHoInfo (interfaceOf tranId)).getD ⟨0, [], []⟩).addressV6 := by
          cases hold : s.svc.pdnHoInfo (interfaceOf tranId) with
          | none => exact .inl rfl
          | some old => exact h _ old hold
        rw [Function.update_self, Option.some.injEq] at hrecord
        subst hrecord
        split_ifs
        · exact hold
        · exact hnew
        · exact hnew
        · exact hold
      · rw [Function.update_of_ne hi] at hrecord
        exact h i pdnSrcInfo hrecord
    · exact h i pdnSrcInfo hrecord
    · exact h i pdnSrcInfo hrecord
    · exact h i pdnSrcInfo hrecord
  | ipchg transIntfId ip =>
    cases hstep
    exact h
  | kernelAdd i address =>
    cases hstep
    exact h
  | kernelRemove i addr =>
    change s.kernelRemove i addr = some s' at hstep
    unfold HoRun.kernelRemove at hstep
    split at hstep
    · cases hstep
      exact h
    · cases hstep
  | removed delAddr =>
    change s.report inetPton delAddr = some s' at hstep
    unfold HoRun.report at hstep
    split at hstep
    · cases hstep
    · split at hstep
      · cases hstep
        exact h
      · cases hstep

/-- A step does what it should exactly if the addresses are kept apart. -/
theorem handoverOk_iff {s : HoRun} (h : RecordsCanonical s) (a : HoAct) :
    HandoverOk inetPton s a ↔ HandoverApart inetPton s a := by
  cases a with
  | pdnho | kernelAdd | kernelRemove => exact Iff.rfl
  | ipchg transIntfId ip => exact ipchgOk_iff s transIntfId ip
  | removed delAddr =>
    refine forall₂_congr fun notice _ => imp_congr_right fun hreports => ?_
    rw [hides_iff inetPton h, hreports]
    refine imp_congr_right fun hsource => and_iff_right ?_
    exact isSource_of_sourceV6 hsource

/-- **When a handover exchanges the addresses of an interface.**  In a run in which handovers start
and stop, the addresses change and the kernel gets and loses others, every change leaves exactly the
new addresses in place of the recorded ones, and of the removals only those that the handover on
record has made are hidden, if and only if no new address is a recorded one and no removal by
others, or by an earlier handover, is one of the recorded IPv6 address. -/
theorem handover_iff (ids : List Int) (addresses : Int → Addresses) (acts : List HoAct) :
    (hoMachine inetPton ids addresses).Meets (HandoverOk inetPton)
        (hoMachine inetPton ids addresses).init acts ↔
      (hoMachine inetPton ids addresses).Meets (HandoverApart inetPton)
        (hoMachine inetPton ids addresses).init acts := by
  refine Machine.meets_congr _ (fun s a s' hs => recordsCanonical_step inetPton hs)
    (fun s a hs => handoverOk_iff inetPton hs a) ?_ acts
  intro i pdnSrcInfo hrecord
  cases hrecord

end Runs

/-- The address 10.0.0.1. -/
def hoAddress : AddrV4 := #v[10, 0, 0, 1]

/-- A handover with an IPv4 address, which is the same afterwards. -/
def sameAddress : List HoAct :=
  [.kernelAdd 0 (convertIpv4ToString hoAddress),
    .pdnho 100 ⟨0, 1, addrTypeIpv4, hoAddress, Vector.replicate 16 0⟩,
    .ipchg 100 ⟨addrTypeIpv4, hoAddress, Vector.replicate 16 0⟩]

/-- The interface loses the address that it was given. -/
theorem sameAddress_lost : ¬ ∀ (inetPton : List Char → Option AddrV6) (ids : List Int)
    (addresses : Int → Addresses) (acts : List HoAct),
    (hoMachine inetPton ids addresses).Meets (HandoverOk inetPton)
      (hoMachine inetPton ids addresses).init acts := by
  intro h
  have hrun := h (fun _ => none) [100] (fun _ => ∅) sameAddress
  have hipchg := ((hrun.2 _ rfl).2 _ rfl).1
  have hnew : IsNew 100 ⟨addrTypeIpv4, hoAddress, Vector.replicate 16 0⟩
      (convertIpv4ToString hoAddress) := by
    constructor <;> decide +kernel
  have hmem := hipchg.new_mem _ hnew
  revert hmem
  decide +kernel

end MtkHw.NetAgent
