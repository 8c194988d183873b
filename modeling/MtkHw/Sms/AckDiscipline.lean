import MtkHw.Sms.Inbound

/-!
# The discipline of acknowledgements

While a message that was reported is not acknowledged, the recorded type should be its
type: then its acknowledgement is sent with its own command, and no other message is
reported.

The argument counts the *owners* of the recorded type: the URC thread between recording
the type and reporting the message, a message that has been reported, an event that will
clear the type, and the thread of `RIL_CMD_PROXY_1` when it is about to.  There is one
owner when a type is recorded and none otherwise (`AckInv`).

Two handlers do not respect this.  `handleNewSmsOnSim` records its type without looking at
what is recorded, and an acknowledgement clears the type even if there is no message.  The
discipline is kept by the runs in which neither does harm (`acknowledgements_disciplined`).
-/

namespace MtkHw.Sms

open Lib

/-- The command that acknowledges messages of a type. -/
def InboundType.ackName : InboundType → AckName
  | .cds => .ecdscnma
  | _ => .cnma

/-- What the acknowledgement of inbound messages is meant to keep. -/
structure Disciplined (s : SmsState) : Prop where
  /-- No second message is reported before the first is acknowledged. -/
  one : s.outstanding.length ≤ 1
  /-- The recorded type is that of the message. -/
  type_eq : ∀ kind ∈ s.outstanding, s.smsType = kind
  /-- Messages are acknowledged with the command of their own type. -/
  ownKind : ∀ a ∈ s.acknowledged, a.2.name = a.1.ackName

/-- The success code of the request is 0 or 1. -/
def AckRequest.Supported : AckRequest → Prop
  | .acknowledge ackSuccess _ => ackSuccess = 1 ∨ ackSuccess = 0
  | .acknowledgeWithPdu ackSuccess _ => ackSuccess = '1' ∨ ackSuccess = '0'

/-- The type of a message on the SIM is recorded when no type is, and requests are handled
when a message has been reported. -/
def AckCond (s : SmsState) : SmsLabel → Prop
  | .urcStep => s.urcPc = .settingOnSim → s.smsType = .none
  | .proxy => ∀ r queue, s.proxyPc = .idle → s.queue = .request r :: queue →
      s.outstanding ≠ [] ∧ r.Supported
  | _ => True

/-! ## Commands -/

theorem acknowledge_eq {smsType : InboundType} (h : smsType ≠ .none) (args : String) :
    acknowledge smsType args = some ⟨smsType.ackName, args⟩ := by
  cases smsType with
  | none => exact absurd rfl h
  | cmt | cds | cmti => rfl

/-- A supported request is answered with the command of the recorded type. -/
theorem AckRequest.Supported.command {r : AckRequest} (hr : r.Supported) {smsType : InboundType}
    (h : smsType ≠ .none) : ∃ c, r.command smsType = some c ∧ c.name = smsType.ackName := by
  cases r with
  | acknowledge ackSuccess cause =>
    rcases hr with rfl | rfl
    · exact ⟨_, acknowledge_eq h _, rfl⟩
    · exact ⟨_, acknowledge_eq h _, rfl⟩
  | acknowledgeWithPdu ackSuccess pdu =>
    rcases hr with rfl | rfl
    · exact ⟨_, acknowledge_eq h _, rfl⟩
    · exact ⟨_, acknowledge_eq h _, rfl⟩

/-! ## Owners of the recorded type -/

/-- The URC thread has recorded a type and has not passed it on. -/
def UrcPc.owners : UrcPc → Nat
  | .checking _ _ _ => 1
  | .reportingOnSim => 1
  | _ => 0

/-- The thread of `RIL_CMD_PROXY_1` is about to clear the type. -/
def ProxyPc.owners : ProxyPc → Nat
  | .acked _ => 1
  | .errAcked e => if e.resets then 1 else 0
  | _ => 0

/-- The event will clear the type. -/
def ProxyMsg.resets : ProxyMsg → Bool
  | .errAck e => e.resets
  | .request _ => false

@[simp] theorem UrcPc.owners_idle : UrcPc.idle.owners = 0 := rfl

@[simp] theorem ProxyPc.owners_idle : ProxyPc.idle.owners = 0 := rfl

theorem countP_errAck (e : ErrAckType) :
    [ProxyMsg.errAck e].countP ProxyMsg.resets = (ProxyPc.errAcked e).owners := by
  cases e with
  | none | cmtAckOnly | cmtAckReset | cdsAckOnly | cdsAckReset => rfl

/-- The owners of the recorded type. -/
def SmsState.owners (s : SmsState) : Nat :=
  s.urcPc.owners + s.outstanding.length + s.queue.countP ProxyMsg.resets + s.proxyPc.owners

/-- What the URC thread knows. -/
def UrcPc.Ok (smsType : InboundType) : UrcPc → Prop
  | .rejecting errAck => errAck.resets = false
  | .setting kind errAck _ => smsType = .none ∧ kind ≠ .none ∧ errAck.resets = true
  | .checking kind errAck _ => smsType = kind ∧ errAck.resets = true
  | .reportingOnSim => smsType = .cmti
  | _ => True

/-- What the thread of `RIL_CMD_PROXY_1` knows. -/
def ProxyPc.Ok (smsType : InboundType) (outstanding : List InboundType) : ProxyPc → Prop
  | .acking r smsType' => smsType' = smsType ∧ outstanding ≠ [] ∧ r.Supported
  | _ => True

/-- The invariant of the runs that meet the condition. -/
structure AckInv (s : SmsState) : Prop where
  owners_eq : s.owners = if s.smsType = .none then 0 else 1
  type_eq : ∀ kind ∈ s.outstanding, s.smsType = kind
  urc : s.urcPc.Ok s.smsType
  proxy : s.proxyPc.Ok s.smsType s.outstanding
  ownKind : ∀ a ∈ s.acknowledged, a.2.name = a.1.ackName

theorem AckInv.owners_le {s : SmsState} (h : AckInv s) : s.owners ≤ 1 := by
  rw [h.owners_eq]
  split
  · exact Nat.zero_le _
  · exact Nat.le_refl _

theorem AckInv.disciplined {s : SmsState} (h : AckInv s) : Disciplined s := by
  refine ⟨?_, h.type_eq, h.ownKind⟩
  have := h.owners_le
  unfold SmsState.owners at this
  omega

theorem ackInv_init : AckInv inbound.init := by
  constructor
  · rfl
  · exact List.forall_mem_nil _
  · trivial
  · trivial
  · exact List.forall_mem_nil _

/-! ## The URC thread -/

theorem startNew_ok {kind smsType : InboundType} {ackOnly ackReset : ErrAckType} (valid : Bool)
    (hkind : kind ≠ .none) (honly : ackOnly.resets = false) (hreset : ackReset.resets = true) :
    (startNew kind ackOnly ackReset valid smsType).Ok smsType ∧
      (startNew kind ackOnly ackReset valid smsType).owners = 0 := by
  unfold startNew
  split
  · rename_i hnone
    exact ⟨⟨hnone, hkind, hreset⟩, rfl⟩
  · exact ⟨honly, rfl⟩

theorem handleNewSmsOnSim_ok (mem : Option String) (index : Option Int) (smsType : InboundType) :
    (handleNewSmsOnSim mem index).Ok smsType ∧ (handleNewSmsOnSim mem index).owners = 0 := by
  unfold handleNewSmsOnSim
  cases mem with
  | none => exact ⟨trivial, rfl⟩
  | some mem =>
    dsimp only
    split
    · exact ⟨trivial, rfl⟩
    · cases index with
      | none => exact ⟨trivial, rfl⟩
      | some index => exact ⟨trivial, rfl⟩

/-- What a handler knows after it has read the recorded type. -/
theorem onHandleUrc_ok (smsType : InboundType) (u : Urc) :
    (onHandleUrc smsType u).Ok smsType ∧ (onHandleUrc smsType u).owners = 0 := by
  cases u with
  | newSms valid => exact startNew_ok valid (by simp) rfl rfl
  | newImsSms valid => exact startNew_ok valid (by simp) rfl rfl
  | newSmsStatusReport valid => exact startNew_ok valid (by simp) rfl rfl
  | newImsSmsStatusReport valid => exact startNew_ok valid (by simp) rfl rfl
  | newSmsOnSim mem index => exact handleNewSmsOnSim_ok mem index smsType

/-- Nobody owns the type when none is recorded. -/
theorem AckInv.owners_zero {s : SmsState} (h : AckInv s) (hnone : s.smsType = .none) :
    s.urcPc.owners = 0 ∧ s.outstanding = [] ∧ s.queue.countP ProxyMsg.resets = 0 ∧
      s.proxyPc.owners = 0 := by
  have hzero := h.owners_eq
  rw [if_pos hnone, SmsState.owners] at hzero
  refine ⟨?_, List.length_eq_zero_iff.mp ?_, ?_, ?_⟩
  all_goals omega

/-- A type is recorded. -/
theorem AckInv.record {s : SmsState} (h : AckInv s) (hnone : s.smsType = .none)
    {kind : InboundType} (hkind : kind ≠ .none) {pc : UrcPc} (hpc : pc.Ok kind)
    (howns : pc.owners = 1) : AckInv { s with urcPc := pc, smsType := kind } := by
  obtain ⟨-, houtstanding, hqueue, hproxy⟩ := h.owners_zero hnone
  constructor
  · rw [if_neg hkind]
    change pc.owners + s.outstanding.length + s.queue.countP ProxyMsg.resets + s.proxyPc.owners = 1
    rw [howns, houtstanding, hqueue, hproxy]
    rfl
  · intro kind' hmem
    rw [houtstanding] at hmem
    cases hmem
  · exact hpc
  · have hok := h.proxy
    change s.proxyPc.Ok kind s.outstanding
    cases hpc' : s.proxyPc with
    | acking r smsType =>
      rw [hpc'] at hok
      exact absurd houtstanding hok.2.1
    | idle | acked | errAcked => trivial
  · exact h.ownKind

/-- The URC thread reports the message whose type it has recorded. -/
theorem AckInv.report {s : SmsState} (h : AckInv s) {kind : InboundType}
    (hkind : s.smsType = kind) (howns : s.urcPc.owners = 1) :
    AckInv { s with urcPc := .idle, outstanding := s.outstanding ++ [kind] } := by
  have howners := h.owners_eq
  have hle := h.owners_le
  unfold SmsState.owners at howners hle
  have hnil : s.outstanding = [] := List.length_eq_zero_iff.mp (by omega)
  constructor
  · rw [← h.owners_eq]
    simp only [SmsState.owners, UrcPc.owners_idle, List.length_append, List.length_singleton]
    omega
  · intro kind' hmem
    rw [hnil] at hmem
    rw [List.mem_singleton.mp hmem]
    exact hkind
  · trivial
  · have hok := h.proxy
    change s.proxyPc.Ok s.smsType (s.outstanding ++ [kind])
    cases hpc : s.proxyPc with
    | acking r smsType =>
      rw [hpc] at hok
      exact absurd hnil hok.2.1
    | idle | acked | errAcked => trivial
  · exact h.ownKind

/-- The URC thread leaves it to the other thread to acknowledge an error. -/
theorem AckInv.sendEvent {s : SmsState} (h : AckInv s) {errAck : ErrAckType}
    (howns : s.urcPc.owners = (ProxyPc.errAcked errAck).owners) :
    AckInv { s with urcPc := .idle, queue := s.queue ++ [.errAck errAck] } := by
  constructor
  · rw [← h.owners_eq]
    simp only [SmsState.owners, UrcPc.owners_idle, List.countP_append, countP_errAck, howns]
    omega
  · exact h.type_eq
  · trivial
  · exact h.proxy
  · exact h.ownKind

/-- A step of the URC thread. -/
theorem AckInv.urcStep {s s' : SmsState} (h : AckInv s) (hcond : AckCond s .urcStep)
    (hstep : s.urcStep = some s') : AckInv s' := by
  unfold SmsState.urcStep at hstep
  have hurc := h.urc
  cases hpc : s.urcPc with
  | idle =>
    rw [hpc] at hstep
    cases hstep
  | rejecting errAck =>
    rw [hpc] at hstep hurc
    cases hstep
    refine h.sendEvent ?_
    have hno : errAck.resets = false := hurc
    rw [hpc, ProxyPc.owners, hno]
    rfl
  | setting kind errAck valid =>
    rw [hpc] at hstep hurc
    cases hstep
    exact h.record hurc.1 hurc.2.1 ⟨rfl, hurc.2.2⟩ rfl
  | checking kind errAck valid =>
    rw [hpc] at hstep hurc
    cases valid with
    | true =>
      cases hstep
      exact h.report hurc.1 (by rw [hpc]; rfl)
    | false =>
      cases hstep
      refine h.sendEvent ?_
      rw [hpc, ProxyPc.owners, hurc.2]
      rfl
  | settingOnSim =>
    rw [hpc] at hstep
    cases hstep
    exact h.record (hcond hpc) (by simp) rfl rfl
  | reportingOnSim =>
    rw [hpc] at hstep hurc
    cases hstep
    exact h.report hurc (by rw [hpc]; rfl)

/-! ## The thread of `RIL_CMD_PROXY_1` -/

/-- The type is cleared by its owner. -/
theorem AckInv.clear {s : SmsState} (h : AckInv s) (howns : s.proxyPc.owners = 1)
    (responses : List RilErrno) :
    AckInv { s with proxyPc := .idle, smsType := .none, responses := responses } := by
  have hle := h.owners_le
  unfold SmsState.owners at hle
  have hnil : s.outstanding = [] := List.length_eq_zero_iff.mp (by omega)
  constructor
  · simp only [SmsState.owners, ProxyPc.owners, if_true]
    omega
  · intro kind hmem
    rw [hnil] at hmem
    cases hmem
  · have hok := h.urc
    change s.urcPc.Ok .none
    cases hpc : s.urcPc with
    | setting kind errAck valid =>
      rw [hpc] at hok
      exact ⟨rfl, hok.2⟩
    | checking | reportingOnSim =>
      rw [hpc, howns] at hle
      simp only [UrcPc.owners] at hle
      omega
    | rejecting errAck =>
      rw [hpc] at hok
      exact hok
    | idle | settingOnSim => trivial
  · trivial
  · exact h.ownKind

/-- The next message is taken. -/
theorem AckInv.takeProxy {s s' : SmsState} (h : AckInv s) (hcond : AckCond s .proxy)
    (hstep : s.proxy = some s') : AckInv s' := by
  unfold SmsState.proxy at hstep
  split at hstep
  · rename_i r queue hpc hqueue
    cases hstep
    obtain ⟨hne, hr⟩ := hcond r queue hpc hqueue
    constructor
    · rw [← h.owners_eq]
      simp [SmsState.owners, ProxyPc.owners, hpc, hqueue, ProxyMsg.resets]
    · exact h.type_eq
    · exact h.urc
    · exact ⟨rfl, hne, hr⟩
    · exact h.ownKind
  · rename_i e queue hpc hqueue
    cases hstep
    constructor
    · rw [← h.owners_eq]
      have hcount : ([ProxyMsg.errAck e] ++ queue).countP ProxyMsg.resets =
          (ProxyPc.errAcked e).owners + queue.countP ProxyMsg.resets := by
        rw [List.countP_append, countP_errAck]
      simp only [SmsState.owners, hpc, hqueue, ProxyPc.owners_idle]
      rw [← List.singleton_append, hcount]
      omega
    · exact h.type_eq
    · exact h.urc
    · trivial
    · exact h.ownKind
  · cases hstep

/-- A request is answered with the command of the message. -/
theorem AckInv.send {s : SmsState} (h : AckInv s) {r : AckRequest} {smsType : InboundType}
    (hpc : s.proxyPc = .acking r smsType) :
    ∃ c, r.command smsType = some c ∧ ∀ errno, AckInv { s.send c with proxyPc := .acked errno } := by
  have hok := h.proxy
  rw [hpc] at hok
  obtain ⟨rfl, hne, hr⟩ := hok
  obtain ⟨kind, outstanding, houtstanding⟩ := List.exists_cons_of_ne_nil hne
  have hkind : s.smsType = kind := h.type_eq kind (houtstanding ▸ List.mem_cons_self)
  have howners := h.owners_eq
  have hnone : s.smsType ≠ .none := by
    intro hnone
    rw [(h.owners_zero hnone).2.1] at houtstanding
    cases houtstanding
  obtain ⟨c, hc, hname⟩ := hr.command hnone
  refine ⟨c, hc, fun errno => ?_⟩
  unfold SmsState.send
  rw [houtstanding]
  constructor
  · change SmsState.owners _ = if s.smsType = .none then 0 else 1
    rw [← howners]
    simp only [SmsState.owners, ProxyPc.owners, hpc, houtstanding, List.length_cons]
    omega
  · exact fun kind' hmem => h.type_eq kind' (houtstanding ▸ List.mem_cons_of_mem _ hmem)
  · exact h.urc
  · trivial
  · intro a hmem
    rcases List.mem_append.mp hmem with hold | hnew
    · exact h.ownKind a hold
    · rw [List.mem_singleton.mp hnew, ← hkind]
      exact hname

/-- A step of the thread. -/
theorem AckInv.proxyStep {s s' : SmsState} (h : AckInv s) {ok : Bool}
    (hstep : s.proxyStep ok = some s') : AckInv s' := by
  unfold SmsState.proxyStep at hstep
  cases hpc : s.proxyPc with
  | idle =>
    rw [hpc] at hstep
    cases hstep
  | acking r smsType =>
    rw [hpc] at hstep
    obtain ⟨c, hc, hinv⟩ := h.send hpc
    dsimp only at hstep
    rw [hc] at hstep
    cases hstep
    exact hinv _
  | acked errno =>
    rw [hpc] at hstep
    cases hstep
    exact h.clear (by rw [hpc]; rfl) _
  | errAcked e =>
    rw [hpc] at hstep
    cases hstep
    cases he : e.resets with
    | true => exact h.clear (by rw [hpc, ProxyPc.owners, he]; rfl) _
    | false =>
      constructor
      · change SmsState.owners _ = if s.smsType = .none then 0 else 1
        rw [← h.owners_eq]
        simp [SmsState.owners, ProxyPc.owners, hpc, he]
      · exact h.type_eq
      · exact h.urc
      · trivial
      · exact h.ownKind

/-! ## Runs -/

/-- What a step that meets the condition preserves. -/
theorem ackInv_step {s s' : SmsState} {a : SmsLabel} (h : AckInv s) (hcond : AckCond s a)
    (hstep : inbound.step s a = some s') : AckInv s' := by
  cases a with
  | urc u =>
    simp only [inbound] at hstep
    split at hstep
    · rename_i hpc
      cases hstep
      obtain ⟨hok, howns⟩ := onHandleUrc_ok s.smsType u
      constructor
      · change SmsState.owners _ = if s.smsType = .none then 0 else 1
        rw [← h.owners_eq]
        simp only [SmsState.owners, hpc, howns]
        rfl
      · exact h.type_eq
      · exact hok
      · exact h.proxy
      · exact h.ownKind
    · cases hstep
  | urcStep => exact h.urcStep hcond hstep
  | request r =>
    cases hstep
    constructor
    · change SmsState.owners _ = if s.smsType = .none then 0 else 1
      rw [← h.owners_eq]
      simp [SmsState.owners, ProxyMsg.resets]
    · exact h.type_eq
    · exact h.urc
    · exact h.proxy
    · exact h.ownKind
  | proxy => exact h.takeProxy hcond hstep
  | proxyStep ok => exact h.proxyStep hstep

/-- **The discipline of acknowledgements** is kept along all runs in which `+CMTI` records
its type only when none is recorded, and requests to acknowledge, with a success code of 0 or
1, are handled only when a message has been reported. -/
theorem acknowledgements_disciplined {acts : List SmsLabel}
    (h : inbound.Meets AckCond inbound.init acts) :
    inbound.Along Disciplined inbound.init acts :=
  inbound.along_of_meets (fun _ _ _ => ackInv_step) (fun _ => AckInv.disciplined) ackInv_init h

/-- A message that is acknowledged, an invalid status report, and a message on the SIM. -/
theorem acknowledgements_disciplined_three :
    let acts := [SmsLabel.urc (.newSms true), .urcStep, .urcStep, .request (.acknowledge 1 0), .proxy,
      .proxyStep true, .proxyStep true, .urc (.newSmsStatusReport false), .urcStep, .urcStep, .proxy,
      .proxyStep true, .urc (.newSmsOnSim (some "SM") (some 3)), .urcStep, .urcStep]
    inbound.Along Disciplined inbound.init acts ∧
      (inbound.run inbound.init acts).map SmsState.outstanding = some [.cmti] := by
  refine ⟨acknowledgements_disciplined ?_, by decide⟩
  refine .cons _ rfl trivial (.cons _ rfl ?_ (.cons _ rfl ?_ (.cons _ rfl trivial ?_)))
  · rintro ⟨⟩
  · rintro ⟨⟩
  · refine .cons _ rfl ?_ (.cons _ rfl trivial (.cons _ rfl trivial (.cons _ rfl trivial ?_)))
    · rintro r queue - hqueue
      cases hqueue
      exact ⟨List.cons_ne_nil _ _, .inl rfl⟩
    · refine .cons _ rfl ?_ (.cons _ rfl ?_ (.cons _ rfl ?_ (.cons _ rfl trivial ?_)))
      · rintro ⟨⟩
      · rintro ⟨⟩
      · rintro r queue - hqueue
        cases hqueue
      · refine .cons _ rfl trivial (.cons _ rfl (fun _ => rfl) (.cons _ rfl ?_ trivial))
        rintro ⟨⟩

/-- A message on the SIM arrives while a status report is not acknowledged: its type replaces
that of the report, and the report is acknowledged with the command of the other type. -/
theorem acknowledgements_undisciplined :
    let acts := [SmsLabel.urc (.newSmsStatusReport true), .urcStep, .urcStep,
      .urc (.newSmsOnSim (some "SM") (some 3)), .urcStep, .urcStep, .request (.acknowledge 1 0),
      .proxy, .proxyStep true]
    (inbound.run inbound.init acts).map (fun s => (s.outstanding, s.acknowledged)) =
        some ([.cmti], [(.cds, ⟨.cnma, "1, 2, \"0000\""⟩)]) ∧
      ¬ inbound.Along Disciplined inbound.init acts := by
  refine ⟨by decide, fun h => ?_⟩
  have hlast := Machine.Along.last inbound h rfl
  exact absurd (hlast.ownKind _ List.mem_cons_self) (by decide)

end MtkHw.Sms
