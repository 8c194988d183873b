import MtkHw.Gps.Session
import Mathlib.Tactic.Common

/-!
# Every client is answered

What a client asked last is written down in a ledger (`Asked`) with the acknowledgements that were
sent since.  A ledger is read off the requests and what is sent, and no handler looks at it; the
flags of a client follow it (`Books`) on every run.  An acknowledgement that is still owed is a
flag that is still set (`Owes`), and that can fail in three ways only (`Flushed`).
-/

namespace MtkHw.Gps

open Lib

/-! ## The ledger -/

/-- The clients that are answered; the others are tests. -/
def Client.answered : Client → Bool
  | .hal | .agps | .flp | .geofence => true
  | .flpTest | .atCmdTest | .factory => false

/-- What a client asked last, and was not given up since, with the acknowledgements sent since;
`early` counts those that were sent while the engine was off. -/
inductive Asked where
  | nothing
  | opened (acks early : Nat)
  | closed (acks : Nat)
  deriving DecidableEq, Repr

/-- The client that is told that the receiver is open. -/
def openAck : GpsOutput → Option Client
  | .halGpsStatus .sessionEngineOn => some .hal
  | .agpsOpenGpsDone => some .agps
  | .flpGpsOpenDone _ => some .flp
  | .gfcGpsOpenDone _ => some .geofence
  | _ => none

/-- The client that is told that the receiver is closed. -/
def closeAck : GpsOutput → Option Client
  | .halGpsStatus .sessionEngineOff => some .hal
  | .agpsCloseGpsDone => some .agps
  | .flpGpsCloseDone _ => some .flp
  | .gfcGpsCloseDone _ => some .geofence
  | _ => none

/-- The client whose session is switched. -/
def sessionOf : GpsOutput → Option Client
  | .sessionUpdate c _ _ => some c
  | _ => none

/-- What is sent, in the ledger of a client: a session switch gives up an opening. -/
def Asked.observe (c : Client) (on : Bool) : Asked → GpsOutput → Asked
  | .nothing, _ => .nothing
  | .opened acks early, o =>
    if openAck o = some c then .opened (acks + 1) (if on then early else early + 1)
    else if sessionOf o = some c then .nothing
    else .opened acks early
  | .closed acks, o => if closeAck o = some c then .closed (acks + 1) else .closed acks

/-- What a request writes into the ledger of its client. -/
def GpsRequest.asks : GpsRequest → Option (Client × Asked)
  | halReboot => some (.hal, .nothing)
  | halGpsStart => some (.hal, .opened 0 0)
  | halGpsStop => some (.hal, .closed 0)
  | agpsReboot => some (.agps, .nothing)
  | agpsOpenGpsReq => some (.agps, .opened 0 0)
  | agpsCloseGpsReq => some (.agps, .closed 0)
  | flpReboot => some (.flp, .nothing)
  | flpHbdGpsOpen | flpOflLinkOpen => some (.flp, .opened 0 0)
  | flpHbdGpsClose | flpOflLinkClose => some (.flp, .closed 0)
  | gfcReboot => some (.geofence, .nothing)
  | gfcHbdGpsOpen | gfcOflLinkOpen => some (.geofence, .opened 0 0)
  | gfcHbdGpsClose | gfcOflLinkClose => some (.geofence, .closed 0)
  | halGpsDeleteAidingData _ | agpsResetGpsReq _ | flpTestGpsStart | flpTestGpsStop
  | factoryMnldGpsStart | factoryMnldGpsStop | atTestGpsStart | atTestGpsStop => none

/-- The ledgers with a request. -/
def askedBy (L : Client → Asked) (r : GpsRequest) : Client → Asked :=
  match r.asks with
  | some (c, a) => fun c' => if c' = c then a else L c'
  | none => L

/-- What is sent at an event; nothing, when no handler runs. -/
def GpsSystem.said (cfg : MnldCfg) (s : GpsSystem) (input : GpsInput) : List GpsOutput :=
  match input with
  | .answer _ => if s.engine.outstanding = [] then [] else (s.next cfg input).mnld.sent
  | .switchTimeout => if s.mnld.timer_switch_ofl_mode then (s.next cfg input).mnld.sent else []
  | .request _ | .resetDone => (s.next cfg input).mnld.sent

/-- The system with the ledger of every client. -/
structure AckSystem where
  system : GpsSystem
  ledger : Client → Asked

namespace AckSystem

/-- The ledger with the request of an event. -/
def asked (s : AckSystem) (input : GpsInput) : Client → Asked :=
  match input with
  | .request r => askedBy s.ledger r
  | .answer _ | .resetDone | .switchTimeout => s.ledger

/-- One event, and what is sent. -/
def next (cfg : MnldCfg) (s : AckSystem) (input : GpsInput) : AckSystem where
  system := s.system.next cfg input
  ledger := fun c => (s.system.said cfg input).foldl
    (Asked.observe c (s.system.next cfg input).engine.on) (s.asked input c)

/-- Every client is answered: an opening and a closing is acknowledged once, the opening while the
engine is on, or the acknowledgement is still to come; and with no command outstanding none is. -/
structure Answered (s : AckSystem) : Prop where
  opened : ∀ c acks early, s.ledger c = .opened acks early →
    early = 0 ∧ (acks = 1 ∨ acks = 0 ∧ (s.system.mnld.clients c).need_open_ack = true)
  closed : ∀ c acks, s.ledger c = .closed acks →
    acks = 1 ∨ acks = 0 ∧ (s.system.mnld.clients c).need_close_ack = true
  settled : s.system.engine.outstanding = [] → ∀ c,
    (s.system.mnld.clients c).need_open_ack = false ∧
      (s.system.mnld.clients c).need_close_ack = false

/-- The events that lose an acknowledgement: an opening in offload mode while the receiver is on, a
start of the engine that leaves closed clients behind with others that use it, and the switch to
offload mode while an offload client waits. -/
def Flushed (s : AckSystem) : GpsInput → Prop
  | .request .flpOflLinkOpen | .request .gfcOflLinkOpen =>
    s.system.mnld.gps_state ≠ .started ∧ s.system.mnld.gps_state ≠ .oflStarted
  | .answer _ =>
    (s.system.mnld.gps_state = .starting ∨
        s.system.mnld.gps_state = .oflStarting ∧ s.system.mnld.NoHbd) →
      (∃ c, s.system.mnld.Used c) → ∀ c, (s.system.mnld.clients c).need_close_ack = false
  | .switchTimeout =>
    s.system.mnld.timer_switch_ofl_mode = true → s.system.mnld.NoHbd →
      ∀ c, c = .flp ∨ c = .geofence →
        ¬ ((s.system.mnld.clients c).need_open_ack = true ∧ s.system.mnld.Used c) ∧
          (s.system.mnld.clients c).need_close_ack = false
  | _ => True

end AckSystem

/-- The GPS sessions with the ledgers of the clients. -/
def ackSystem (cfg : MnldCfg) (session : Client → Session) : Machine AckSystem GpsInput where
  init := ⟨(gpsSystem cfg session).init, fun _ => .nothing⟩
  step s input := some (s.next cfg input)

/-! ## The books of a client -/

/-- At most one acknowledgement, and none while the engine is off. -/
def Asked.Counted : Asked → Prop
  | .nothing => True
  | .opened acks early => acks ≤ 1 ∧ early = 0
  | .closed acks => acks ≤ 1

/-- The flags of a client follow its ledger. -/
structure Books (c : Client) (client : GpsClient) (a : Asked) : Prop where
  test : c.answered = false → a = .nothing
  opening : client.need_open_ack = true →
    (a = .opened 0 0 ∧ client.gps_used = true) ∨ (a = .nothing ∧ client.gps_used = false)
  closing : client.need_close_ack = true → a = .closed 0
  counted : a.Counted

/-- What a client still waits for is owed to it. -/
structure Owes (client : GpsClient) (a : Asked) : Prop where
  opened : ∀ early, a = .opened 0 early → client.need_open_ack = true
  closed : a = .closed 0 → client.need_close_ack = true

@[simp] theorem Asked.foldl_nothing (c : Client) (on : Bool) (outputs : List GpsOutput) :
    outputs.foldl (observe c on) .nothing = .nothing := by
  induction outputs with
  | nil => rfl
  | cons o outputs ih => exact ih

/-- What is no acknowledgement and no session switch. -/
def Silent (o : GpsOutput) : Prop := openAck o = none ∧ closeAck o = none ∧ sessionOf o = none

theorem Asked.observe_silent {o : GpsOutput} (h : Silent o) (c : Client) (on : Bool) (a : Asked) :
    a.observe c on o = a := by
  obtain ⟨hopen, hclose, hsession⟩ := h
  cases a with
  | nothing => rfl
  | opened acks early =>
    rw [observe, hopen, hsession, if_neg nofun, if_neg nofun]
  | closed acks => rw [observe, hclose, if_neg nofun]

theorem Asked.foldl_silent {outputs : List GpsOutput} (h : ∀ o ∈ outputs, Silent o) (c : Client)
    (on : Bool) (a : Asked) : outputs.foldl (observe c on) a = a := by
  induction outputs generalizing a with
  | nil => rfl
  | cons o outputs ih =>
    rw [List.foldl_cons, observe_silent (h o List.mem_cons_self)]
    exact ih (fun o' ho' => h o' (List.mem_cons_of_mem _ ho')) a

/-- The acknowledgement of an opening. -/
theorem Books.acked_open {c : Client} {client : GpsClient} {a : Asked} (h : Books c client a)
    (hneed : client.need_open_ack = true) {a' : Asked}
    (hack : a = .opened 0 0 → a' = .opened 1 0) (hno : a = .nothing → a' = .nothing) :
    Books c { client with need_open_ack := false } a' ∧
      Owes { client with need_open_ack := false } a' := by
  rcases h.opening hneed with ⟨ha, -⟩ | ⟨ha, -⟩
  · have htest : c.answered = false → a' = .nothing := fun hc => by
      have hnothing := h.test hc
      rw [ha] at hnothing
      exact absurd hnothing nofun
    have hclosing : client.need_close_ack ≠ true := fun hclose => by
      have hclosed := h.closing hclose
      rw [ha] at hclosed
      exact absurd hclosed nofun
    rw [hack ha] at htest ⊢
    exact ⟨⟨htest, nofun, fun hclose => absurd hclose hclosing, Nat.le_refl 1, rfl⟩,
      ⟨nofun, nofun⟩⟩
  · have hclosing : client.need_close_ack ≠ true := fun hclose => by
      have hclosed := h.closing hclose
      rw [ha] at hclosed
      exact absurd hclosed nofun
    rw [hno ha]
    exact ⟨⟨fun _ => rfl, nofun, fun hclose => absurd hclose hclosing, trivial⟩, ⟨nofun, nofun⟩⟩

/-- The acknowledgement of a closing. -/
theorem Books.acked_close {c : Client} {client : GpsClient} {a : Asked} (h : Books c client a)
    (hneed : client.need_close_ack = true) {a' : Asked} (hack : a = .closed 0 → a' = .closed 1) :
    Books c { client with need_close_ack := false } a' ∧
      Owes { client with need_close_ack := false } a' := by
  have ha := h.closing hneed
  have htest : c.answered = true := by
    by_contra hc
    have hnothing := h.test ((Bool.not_eq_true _).mp hc)
    rw [ha] at hnothing
    exact absurd hnothing nofun
  have hopening : client.need_open_ack ≠ true := fun hopen => by
    rcases h.opening hopen with ⟨hopened, -⟩ | ⟨hnothing, -⟩
    · rw [ha] at hopened
      exact absurd hopened nofun
    · rw [ha] at hnothing
      exact absurd hnothing nofun
  rw [hack ha]
  refine ⟨⟨fun hc => ?_, fun hopen => absurd hopen hopening, nofun, Nat.le_refl 1⟩, ⟨nofun, nofun⟩⟩
  rw [htest] at hc
  exact absurd hc nofun

/-! ## Handlers and books -/

namespace Mnld

variable {on : Bool} {L : Client → Asked} {m m' m'' : Mnld}

/-- The ledger of a client after what a handler has sent. -/
def asked (m : Mnld) (on : Bool) (L : Client → Asked) (c : Client) : Asked :=
  m.sent.foldl (Asked.observe c on) (L c)

/-- A part of a handler keeps the books, and what is owed. -/
structure Kept (on : Bool) (L : Client → Asked) (m m' : Mnld) : Prop where
  books : ∀ c, Books c (m.clients c) (m.asked on L c) →
    Books c (m'.clients c) (m'.asked on L c)
  owes : ∀ c, Books c (m.clients c) (m.asked on L c) →
    Owes (m.clients c) (m.asked on L c) → Owes (m'.clients c) (m'.asked on L c)

namespace Kept

theorem refl (m : Mnld) : Kept on L m m := ⟨fun _ h => h, fun _ _ h => h⟩

theorem trans (h : Kept on L m m') (h' : Kept on L m' m'') : Kept on L m m'' :=
  ⟨fun c hc => h'.books c (h.books c hc),
    fun c hc howes => h'.owes c (h.books c hc) (h.owes c hc howes)⟩

/-- Clients and what is sent stay. -/
theorem of_eq (hclients : m'.clients = m.clients) (hsent : m'.sent = m.sent) :
    Kept on L m m' := by
  have hasked (c : Client) : m'.asked on L c = m.asked on L c := by rw [asked, hsent, asked]
  constructor
  · intro c hc
    rw [hasked, hclients]
    exact hc
  · intro c _ howes
    rw [hasked, hclients]
    exact howes

/-- Nothing of a client is written that the books follow. -/
theorem of_flags (hsent : m'.sent = m.sent)
    (hused : ∀ c, (m'.clients c).gps_used = (m.clients c).gps_used)
    (hopen : ∀ c, (m'.clients c).need_open_ack = (m.clients c).need_open_ack)
    (hclose : ∀ c, (m'.clients c).need_close_ack = (m.clients c).need_close_ack) :
    Kept on L m m' := by
  have hasked (c : Client) : m'.asked on L c = m.asked on L c := by rw [asked, hsent, asked]
  constructor
  · intro c hc
    rw [hasked]
    refine ⟨hc.test, fun hneed => ?_, fun hneed => ?_, hc.counted⟩
    · rw [hused]
      exact hc.opening ((hopen c).symm.trans hneed)
    · exact hc.closing ((hclose c).symm.trans hneed)
  · intro c _ howes
    rw [hasked]
    exact ⟨fun early ha => (hopen c).trans (howes.opened early ha),
      fun ha => (hclose c).trans (howes.closed ha)⟩

end Kept

theorem kept_setState (m : Mnld) (gps_state : GpsState) : Kept on L m (m.setState gps_state) :=
  .of_eq rfl rfl

theorem asked_send (m : Mnld) (outputs : List GpsOutput) (c : Client) :
    (m.send outputs).asked on L c = outputs.foldl (Asked.observe c on) (m.asked on L c) := by
  rw [asked, asked, send, List.foldl_append]

theorem kept_send (m : Mnld) {outputs : List GpsOutput} (h : ∀ o ∈ outputs, Silent o) :
    Kept on L m (m.send outputs) := by
  constructor
  · intro c hc
    rw [asked_send, Asked.foldl_silent h]
    exact hc
  · intro c _ howes
    rw [asked_send, Asked.foldl_silent h]
    exact howes

theorem silent_singleton {o : GpsOutput} (h : Silent o) : ∀ o' ∈ [o], Silent o' := by
  intro o' ho'
  rw [List.mem_singleton.mp ho']
  exact h

theorem setClient_clients_self (m : Mnld) (c : Client) (client : GpsClient) :
    (m.setClient c client).clients c = client := if_pos rfl

theorem setClient_clients_of_ne (m : Mnld) {c c' : Client} (h : c' ≠ c) (client : GpsClient) :
    (m.setClient c client).clients c' = m.clients c' := if_neg h

/-- A client is acknowledged: the others do not see it. -/
theorem kept_ack (m : Mnld) (c : Client) (client : GpsClient) {outputs : List GpsOutput}
    (hother : ∀ c' ≠ c, ∀ a, outputs.foldl (Asked.observe c' on) a = a)
    (hself : Books c (m.clients c) (m.asked on L c) →
      Books c client (outputs.foldl (Asked.observe c on) (m.asked on L c)) ∧
        Owes client (outputs.foldl (Asked.observe c on) (m.asked on L c))) :
    Kept on L m ((m.setClient c client).send outputs) := by
  have hasked (c' : Client) : ((m.setClient c client).send outputs).asked on L c' =
      outputs.foldl (Asked.observe c' on) (m.asked on L c') := asked_send _ outputs c'
  have hclients (c' : Client) : ((m.setClient c client).send outputs).clients c' =
      (m.setClient c client).clients c' := rfl
  constructor
  · intro c' hc
    rw [hasked, hclients]
    rcases eq_or_ne c' c with rfl | hne
    · rw [setClient_clients_self]
      exact (hself hc).1
    · rw [setClient_clients_of_ne m hne, hother c' hne]
      exact hc
  · intro c' hc howes
    rw [hasked, hclients]
    rcases eq_or_ne c' c with rfl | hne
    · rw [setClient_clients_self]
      exact (hself hc).2
    · rw [setClient_clients_of_ne m hne, hother c' hne]
      exact howes

/-- What is sent for an opening: one acknowledgement, to the client. -/
structure AcksOpen (c : Client) (outputs : List GpsOutput) : Prop where
  other : ∀ c' ≠ c, ∀ a, outputs.foldl (Asked.observe c' true) a = a
  self : c.answered = true → outputs.foldl (Asked.observe c true) (.opened 0 0) = .opened 1 0

/-- What is sent for a closing: one acknowledgement, to the client. -/
structure AcksClose (on : Bool) (c : Client) (outputs : List GpsOutput) : Prop where
  other : ∀ c' ≠ c, ∀ a, outputs.foldl (Asked.observe c' on) a = a
  self : c.answered = true → outputs.foldl (Asked.observe c on) (.closed 0) = .closed 1

theorem kept_ackOpen (m : Mnld) {c : Client} {outputs : List GpsOutput}
    (h : AcksOpen c outputs) : Kept true L m (m.ackOpen c outputs) := by
  rw [ackOpen]
  split
  · rename_i hneed
    refine kept_ack m c _ h.other fun hbooks => hbooks.acked_open hneed (fun ha => ?_) fun ha => ?_
    · rw [ha]
      refine h.self ?_
      by_contra hc
      have hnothing := hbooks.test ((Bool.not_eq_true _).mp hc)
      rw [ha] at hnothing
      exact absurd hnothing nofun
    · rw [ha, Asked.foldl_nothing]
  · exact .refl m

theorem kept_ackClose (m : Mnld) {c : Client} {outputs : List GpsOutput}
    (h : AcksClose on c outputs) : Kept on L m (m.ackClose c outputs) := by
  rw [ackClose]
  split
  · rename_i hneed
    refine kept_ack m c _ h.other fun hbooks => hbooks.acked_close hneed fun ha => ?_
    rw [ha]
    refine h.self ?_
    by_contra hc
    have hnothing := hbooks.test ((Bool.not_eq_true _).mp hc)
    rw [ha] at hnothing
    exact absurd hnothing nofun
  · exact .refl m

/-- The flag of a reset. -/
theorem setClient_reset (m : Mnld) (c c' : Client) (need_reset_ack : Bool) :
    ((m.setClient c { m.clients c with need_reset_ack := need_reset_ack }).clients c').gps_used =
        (m.clients c').gps_used ∧
      ((m.setClient c { m.clients c with need_reset_ack := need_reset_ack }).clients
        c').need_open_ack = (m.clients c').need_open_ack ∧
      ((m.setClient c { m.clients c with need_reset_ack := need_reset_ack }).clients
        c').need_close_ack = (m.clients c').need_close_ack := by
  rcases eq_or_ne c' c with rfl | hne
  · rw [setClient_clients_self]
    exact ⟨rfl, rfl, rfl⟩
  · rw [setClient_clients_of_ne m hne]
    exact ⟨rfl, rfl, rfl⟩

theorem kept_doGpsResetHdlr (m : Mnld) : Kept on L m m.doGpsResetHdlr := by
  rw [doGpsResetHdlr]
  split
  · have hflags : Kept on L m
        (m.setClient .agps { m.clients .agps with need_reset_ack := false }) :=
      .of_flags rfl (fun c => (setClient_reset m .agps c false).1)
        (fun c => (setClient_reset m .agps c false).2.1)
        fun c => (setClient_reset m .agps c false).2.2
    exact hflags.trans (kept_send _ (silent_singleton ⟨rfl, rfl, rfl⟩))
  · exact .refl m

/-- The reset that waits for the engine. -/
theorem kept_controlGpsReset (m : Mnld) : Kept on L m
    { m.send [.controlGpsReset m.delete_aiding_flag] with delete_aiding_flag := 0 } :=
  (kept_send m (silent_singleton ⟨rfl, rfl, rfl⟩)).trans (.of_eq rfl rfl)

theorem kept_doGpsStartedHdlr (m : Mnld) (cfg : MnldCfg) (si_assist_req : Int) :
    Kept true L m (m.doGpsStartedHdlr cfg si_assist_req) := by
  have hhal : AcksOpen .hal
      [.halGpsStatus .sessionEngineOn, .halGpsStatus .sessionBegin, .agpsGpsOpen si_assist_req] :=
    ⟨fun c hc a => by cases c <;> first | exact absurd rfl hc | (cases a <;> rfl), fun _ => rfl⟩
  have hagps : AcksOpen .agps [.agpsOpenGpsDone] :=
    ⟨fun c hc a => by cases c <;> first | exact absurd rfl hc | (cases a <;> rfl), fun _ => rfl⟩
  have hflp (ofl : Bool) : AcksOpen .flp [.flpGpsOpenDone ofl, .agpsGpsOpen si_assist_req] :=
    ⟨fun c hc a => by cases c <;> first | exact absurd rfl hc | (cases a <;> rfl), fun _ => rfl⟩
  have hgfc (ofl : Bool) :
      AcksOpen .geofence [.gfcGpsOpenDone ofl, .agpsGpsOpen si_assist_req] :=
    ⟨fun c hc a => by cases c <;> first | exact absurd rfl hc | (cases a <;> rfl), fun _ => rfl⟩
  have htest {c : Client} (hc : c.answered = false) : AcksOpen c [] :=
    ⟨fun _ _ _ => rfl, fun h => absurd h (by rw [hc]; exact nofun)⟩
  have hacks (ofl ofl' : Bool) := (kept_ackOpen (L := L) m hhal).trans <|
    (kept_ackOpen _ hagps).trans <| (kept_ackOpen _ (hflp ofl)).trans <|
    (kept_ackOpen _ (hgfc ofl')).trans <| (kept_ackOpen _ (htest (c := .flpTest) rfl)).trans <|
    (kept_ackOpen _ (htest (c := .atCmdTest) rfl)).trans <|
    (kept_ackOpen _ (htest (c := .factory) rfl)).trans (kept_doGpsResetHdlr _)
  unfold doGpsStartedHdlr
  dsimp only
  split
  · exact (hacks _ _).trans (kept_controlGpsReset _)
  · exact hacks _ _

theorem kept_doGpsStoppedHdlr (m : Mnld) (cfg : MnldCfg) :
    Kept on L m (m.doGpsStoppedHdlr cfg) := by
  have hhal : AcksClose on .hal
      [.halGpsStatus .sessionEnd, .halGpsStatus .sessionEngineOff, .agpsGpsClose] :=
    ⟨fun c hc a => by cases c <;> first | exact absurd rfl hc | (cases a <;> rfl), fun _ => rfl⟩
  have hagps : AcksClose on .agps [.agpsCloseGpsDone] :=
    ⟨fun c hc a => by cases c <;> first | exact absurd rfl hc | (cases a <;> rfl), fun _ => rfl⟩
  have hflp (ofl : Bool) : AcksClose on .flp [.flpGpsCloseDone ofl] :=
    ⟨fun c hc a => by cases c <;> first | exact absurd rfl hc | (cases a <;> rfl), fun _ => rfl⟩
  have hgfc (ofl : Bool) : AcksClose on .geofence [.gfcGpsCloseDone ofl] :=
    ⟨fun c hc a => by cases c <;> first | exact absurd rfl hc | (cases a <;> rfl), fun _ => rfl⟩
  have htest {c : Client} (hc : c.answered = false) : AcksClose on c [] :=
    ⟨fun _ _ _ => rfl, fun h => absurd h (by rw [hc]; exact nofun)⟩
  exact (kept_ackClose m hhal).trans <| (kept_ackClose _ hagps).trans <|
    (kept_ackClose _ (hflp _)).trans <| (kept_ackClose _ (hgfc _)).trans <|
    (kept_ackClose _ (htest (c := .flpTest) rfl)).trans <|
    (kept_ackClose _ (htest (c := .atCmdTest) rfl)).trans <|
    (kept_ackClose _ (htest (c := .factory) rfl)).trans <|
    (kept_send _ (silent_singleton ⟨rfl, rfl, rfl⟩)).trans (kept_doGpsResetHdlr _)

theorem kept_controlGpsStart (m : Mnld) : Kept on L m m.controlGpsStart :=
  (kept_send m (silent_singleton ⟨rfl, rfl, rfl⟩)).trans (.of_eq rfl rfl)

theorem kept_controlGpsStop (m : Mnld) (gps_state : GpsState) :
    Kept on L m (m.controlGpsStop gps_state) :=
  (kept_setState m gps_state).trans (kept_send _ (silent_singleton ⟨rfl, rfl, rfl⟩))

/-- A session switch gives up an opening, and the client does not use the receiver. -/
theorem kept_switchSession (m : Mnld) (c : Client) (type : Capability) :
    Kept on L m (m.switchSession c type) := by
  rw [switchSession]
  split
  · dsimp only
    have hasked (c' : Client) (id : Nat) (session : Session) :
        (((m.setSession c session).dropClient c).send [.sessionUpdate c id type]).asked on L c' =
          (m.asked on L c').observe c' on (.sessionUpdate c id type) := asked_send _ _ c'
    have hother {c' : Client} (hne : c' ≠ c) (id : Nat) (a : Asked) :
        a.observe c' on (.sessionUpdate c id type) = a := by
      have hsession : sessionOf (.sessionUpdate c id type) ≠ some c' := fun h => by
        cases h
        exact hne rfl
      cases a with
      | nothing => rfl
      | opened acks early => rw [Asked.observe, if_neg (by rintro ⟨⟩), if_neg hsession]
      | closed acks => rw [Asked.observe, if_neg (by rintro ⟨⟩)]
    have hgiven (id acks early : Nat) :
        (Asked.opened acks early).observe c on (.sessionUpdate c id type) = .nothing := by
      rw [Asked.observe, if_neg (by rintro ⟨⟩)]
      exact if_pos rfl
    constructor
    · intro c' hc
      rw [hasked]
      rcases eq_or_ne c' c with rfl | hne
      · change Books c' ((m.setClient c' { m.clients c' with gps_used := false }).clients c') _
        rw [setClient_clients_self]
        cases ha : m.asked on L c' with
        | nothing =>
          rw [ha] at hc
          refine ⟨fun _ => rfl, fun _ => .inr ⟨rfl, rfl⟩, hc.closing, trivial⟩
        | opened acks early =>
          rw [ha] at hc
          rw [hgiven]
          refine ⟨fun _ => rfl, fun _ => .inr ⟨rfl, rfl⟩, fun hclose => ?_, trivial⟩
          exact absurd (hc.closing hclose) (by rintro ⟨⟩)
        | closed acks =>
          rw [ha] at hc
          rw [Asked.observe, if_neg (by rintro ⟨⟩)]
          refine ⟨hc.test, fun hopen => ?_, hc.closing, hc.counted⟩
          rcases hc.opening hopen with ⟨hopened, -⟩ | ⟨hnothing, -⟩
          · exact absurd hopened (by rintro ⟨⟩)
          · exact absurd hnothing (by rintro ⟨⟩)
      · change Books c' ((m.setClient c { m.clients c with gps_used := false }).clients c') _
        rw [setClient_clients_of_ne m hne, hother hne]
        exact hc
    · intro c' hc howes
      rw [hasked]
      rcases eq_or_ne c' c with rfl | hne
      · change Owes ((m.setClient c' { m.clients c' with gps_used := false }).clients c') _
        rw [setClient_clients_self]
        cases ha : m.asked on L c' with
        | nothing => exact ⟨by rintro _ ⟨⟩, by rintro ⟨⟩⟩
        | opened acks early =>
          rw [hgiven]
          exact ⟨by rintro _ ⟨⟩, by rintro ⟨⟩⟩
        | closed acks =>
          rw [ha] at howes
          rw [Asked.observe, if_neg (by rintro ⟨⟩)]
          exact ⟨by rintro _ ⟨⟩, howes.closed⟩
      · change Owes ((m.setClient c { m.clients c with gps_used := false }).clients c') _
        rw [setClient_clients_of_ne m hne, hother hne]
        exact howes
  · exact .of_eq rfl rfl

theorem kept_switchSessions (m : Mnld) (type : Capability) :
    Kept on L m (m.switchSessions type) :=
  (kept_switchSession m .flp type).trans (kept_switchSession _ .geofence type)

/-! ## Flags that are pending -/

/-- No opening is pending. -/
def NoOpening (m : Mnld) : Prop := ∀ c, (m.clients c).need_open_ack = false

/-- No closing is pending. -/
def NoClosing (m : Mnld) : Prop := ∀ c, (m.clients c).need_close_ack = false

/-- A client with a pending opening uses the receiver. -/
def OpeningUsed (m : Mnld) : Prop := ∀ c, (m.clients c).need_open_ack = true → m.Used c

theorem NoOpening.openingUsed (h : m.NoOpening) : m.OpeningUsed := by
  intro c hopen
  rw [h c] at hopen
  exact absurd hopen nofun

theorem NoOpening.not_used (h : m.NoOpening) (c : Client) :
    ¬ ((m.clients c).need_open_ack = true ∧ m.Used c) := by
  rw [h c]
  exact fun hc => Bool.false_ne_true hc.1

theorem ackOpen_need_open_ack (m : Mnld) (c c' : Client) (outputs : List GpsOutput) :
    ((m.ackOpen c outputs).clients c').need_open_ack =
      if c' = c then false else (m.clients c').need_open_ack := by
  rw [ackOpen]
  rcases eq_or_ne c' c with rfl | hne
  · rw [if_pos rfl]
    split
    · change ((m.setClient c' _).clients c').need_open_ack = _
      rw [setClient_clients_self]
    · rename_i hno
      exact (Bool.not_eq_true _).mp hno
  · rw [if_neg hne]
    split
    · change ((m.setClient c _).clients c').need_open_ack = _
      rw [setClient_clients_of_ne m hne]
    · rfl

theorem ackOpen_need_close_ack (m : Mnld) (c c' : Client) (outputs : List GpsOutput) :
    ((m.ackOpen c outputs).clients c').need_close_ack = (m.clients c').need_close_ack := by
  rw [ackOpen]
  split
  · change ((m.setClient c _).clients c').need_close_ack = _
    rcases eq_or_ne c' c with rfl | hne
    · rw [setClient_clients_self]
    · rw [setClient_clients_of_ne m hne]
  · rfl

theorem ackClose_need_close_ack (m : Mnld) (c c' : Client) (outputs : List GpsOutput) :
    ((m.ackClose c outputs).clients c').need_close_ack =
      if c' = c then false else (m.clients c').need_close_ack := by
  rw [ackClose]
  rcases eq_or_ne c' c with rfl | hne
  · rw [if_pos rfl]
    split
    · change ((m.setClient c' _).clients c').need_close_ack = _
      rw [setClient_clients_self]
    · rename_i hno
      exact (Bool.not_eq_true _).mp hno
  · rw [if_neg hne]
    split
    · change ((m.setClient c _).clients c').need_close_ack = _
      rw [setClient_clients_of_ne m hne]
    · rfl

theorem ackClose_need_open_ack (m : Mnld) (c c' : Client) (outputs : List GpsOutput) :
    ((m.ackClose c outputs).clients c').need_open_ack = (m.clients c').need_open_ack := by
  rw [ackClose]
  split
  · change ((m.setClient c _).clients c').need_open_ack = _
    rcases eq_or_ne c' c with rfl | hne
    · rw [setClient_clients_self]
    · rw [setClient_clients_of_ne m hne]
  · rfl

/-- A reset does not touch what is pending. -/
theorem doGpsResetHdlr_pending (m : Mnld) (c : Client) :
    (m.doGpsResetHdlr.clients c).need_open_ack = (m.clients c).need_open_ack ∧
      (m.doGpsResetHdlr.clients c).need_close_ack = (m.clients c).need_close_ack := by
  rw [doGpsResetHdlr]
  split
  · exact (setClient_reset m .agps c false).2
  · exact ⟨rfl, rfl⟩

theorem doGpsStartedHdlr_noOpening (m : Mnld) (cfg : MnldCfg) (si_assist_req : Int) :
    (m.doGpsStartedHdlr cfg si_assist_req).NoOpening := by
  have hsent (m : Mnld) (c : Client) : (({ m.send [.controlGpsReset m.delete_aiding_flag] with
      delete_aiding_flag := 0 } : Mnld).clients c) = m.clients c := rfl
  intro c
  unfold doGpsStartedHdlr
  dsimp only
  split
  all_goals
    first | rw [hsent] | skip
    rw [(doGpsResetHdlr_pending _ c).1]
    simp only [ackOpen_need_open_ack]
    cases c <;> rfl

theorem doGpsStartedHdlr_need_close_ack (m : Mnld) (cfg : MnldCfg) (si_assist_req : Int)
    (c : Client) : ((m.doGpsStartedHdlr cfg si_assist_req).clients c).need_close_ack =
      (m.clients c).need_close_ack := by
  have hsent (m : Mnld) (c : Client) : (({ m.send [.controlGpsReset m.delete_aiding_flag] with
      delete_aiding_flag := 0 } : Mnld).clients c) = m.clients c := rfl
  unfold doGpsStartedHdlr
  dsimp only
  split
  all_goals
    first | rw [hsent] | skip
    rw [(doGpsResetHdlr_pending _ c).2]
    simp only [ackOpen_need_close_ack]

theorem doGpsStoppedHdlr_noClosing (m : Mnld) (cfg : MnldCfg) :
    (m.doGpsStoppedHdlr cfg).NoClosing := by
  intro c
  have hsent (m : Mnld) : ((m.send [.cancelNlpLocation]).clients c) = m.clients c := rfl
  unfold doGpsStoppedHdlr
  dsimp only
  rw [(doGpsResetHdlr_pending _ c).2, hsent]
  simp only [ackClose_need_close_ack]
  cases c <;> rfl

theorem doGpsStoppedHdlr_need_open_ack (m : Mnld) (cfg : MnldCfg) (c : Client) :
    ((m.doGpsStoppedHdlr cfg).clients c).need_open_ack = (m.clients c).need_open_ack := by
  have hsent (m : Mnld) : ((m.send [.cancelNlpLocation]).clients c) = m.clients c := rfl
  unfold doGpsStoppedHdlr
  dsimp only
  rw [(doGpsResetHdlr_pending _ c).1, hsent]
  simp only [ackClose_need_open_ack]

theorem switchSession_pending (m : Mnld) (c : Client) (type : Capability) (c' : Client) :
    ((m.switchSession c type).clients c').need_open_ack = (m.clients c').need_open_ack ∧
      ((m.switchSession c type).clients c').need_close_ack = (m.clients c').need_close_ack := by
  rw [switchSession]
  split
  · change ((m.setClient c _).clients c').need_open_ack = _ ∧
      ((m.setClient c _).clients c').need_close_ack = _
    rcases eq_or_ne c' c with rfl | hne
    · rw [setClient_clients_self]
      exact ⟨rfl, rfl⟩
    · rw [setClient_clients_of_ne m hne]
      exact ⟨rfl, rfl⟩
  · exact ⟨rfl, rfl⟩

theorem switchSessions_pending (m : Mnld) (type : Capability) (c : Client) :
    ((m.switchSessions type).clients c).need_open_ack = (m.clients c).need_open_ack ∧
      ((m.switchSessions type).clients c).need_close_ack = (m.clients c).need_close_ack :=
  ⟨(switchSession_pending _ .geofence type c).1.trans (switchSession_pending m .flp type c).1,
    (switchSession_pending _ .geofence type c).2.trans (switchSession_pending m .flp type c).2⟩

/-! ## Events -/

/-- The books are kept, and a pending opening is used unless the engine starts. -/
structure Sound (on : Bool) (L : Client → Asked) (m : Mnld) : Prop where
  books : ∀ c, Books c (m.clients c) (m.asked on L c)
  opening : m.gps_state ≠ .starting → m.OpeningUsed

/-- The states without an outstanding command. -/
def Settled (gps_state : GpsState) : Prop :=
  gps_state = .idle ∨ gps_state = .started ∨ gps_state = .oflStarted

/-- What is owed is paid, at the latest when no command is outstanding. -/
structure Paid (on : Bool) (L : Client → Asked) (m : Mnld) : Prop where
  owes : ∀ c, Owes (m.clients c) (m.asked on L c)
  settled : Settled m.gps_state → m.NoOpening ∧ m.NoClosing

variable {cfg : MnldCfg}

theorem Kept.allBooks (hk : Kept on L m m')
    (h : ∀ c, Books c (m.clients c) (m.asked on L c)) :
    ∀ c, Books c (m'.clients c) (m'.asked on L c) := fun c => hk.books c (h c)

theorem Kept.allOwes (hk : Kept on L m m') (h : ∀ c, Books c (m.clients c) (m.asked on L c))
    (howes : ∀ c, Owes (m.clients c) (m.asked on L c)) :
    ∀ c, Owes (m'.clients c) (m'.asked on L c) := fun c => hk.owes c (h c) (howes c)

/-- The clients stay as they are, apart from what is acknowledged. -/
theorem OpeningUsed.mono (h : m.OpeningUsed)
    (hopen : ∀ c, (m'.clients c).need_open_ack = true → (m.clients c).need_open_ack = true)
    (hused : ∀ c, m.Used c → m'.Used c) : m'.OpeningUsed :=
  fun c hc => hused c (h c (hopen c hc))

theorem doGpsStoppedHdlr_openingUsed (cfg : MnldCfg) (h : m.OpeningUsed) :
    (m.doGpsStoppedHdlr cfg).OpeningUsed := by
  refine h.mono (fun c hc => ?_) fun c hc => ?_
  · rw [doGpsStoppedHdlr_need_open_ack] at hc
    exact hc
  · exact ((quietly_doGpsStoppedHdlr m cfg).used c).trans hc

/-- A client that is cleared has nothing pending. -/
theorem books_clearClient (c : Client) (h : ∀ c, Books c (m.clients c) (m.asked on L c)) :
    ∀ c', Books c' ((m.clearClient c).clients c') ((m.clearClient c).asked on L c') := by
  intro c'
  change Books c' ((m.setClient c _).clients c') (m.asked on L c')
  rcases eq_or_ne c' c with rfl | hne
  · rw [setClient_clients_self]
    exact ⟨(h c').test, nofun, nofun, (h c').counted⟩
  · rw [setClient_clients_of_ne m hne]
    exact h c'

theorem owes_clearClient {c : Client} (hbooks : Books c (m.clients c) (m.asked on L c))
    (hopen : ¬ ((m.clients c).need_open_ack = true ∧ m.Used c))
    (hclose : (m.clients c).need_close_ack = false)
    (h : ∀ c, Owes (m.clients c) (m.asked on L c)) :
    ∀ c', Owes ((m.clearClient c).clients c') ((m.clearClient c).asked on L c') := by
  intro c'
  change Owes ((m.setClient c _).clients c') (m.asked on L c')
  rcases eq_or_ne c' c with rfl | hne
  · rw [setClient_clients_self]
    constructor
    · intro early ha
      have hneed := (h c').opened early ha
      rcases hbooks.opening hneed with ⟨-, hused⟩ | ⟨hnothing, -⟩
      · exact absurd ⟨hneed, hused⟩ hopen
      · rw [ha] at hnothing
        exact absurd hnothing nofun
    · intro ha
      have hneed := (h c').closed ha
      rw [hclose] at hneed
      exact absurd hneed nofun
  · rw [setClient_clients_of_ne m hne]
    exact h c'

theorem clearClient_pending (m : Mnld) (c c' : Client) :
    (((m.clearClient c).clients c').need_open_ack = true →
        (m.clients c').need_open_ack = true ∧ c' ≠ c) ∧
      (((m.clearClient c).clients c').need_close_ack = true →
        (m.clients c').need_close_ack = true ∧ c' ≠ c) := by
  change (((m.setClient c _).clients c').need_open_ack = true → _) ∧
    (((m.setClient c _).clients c').need_close_ack = true → _)
  rcases eq_or_ne c' c with rfl | hne
  · rw [setClient_clients_self]
    exact ⟨nofun, nofun⟩
  · rw [setClient_clients_of_ne m hne]
    exact ⟨fun h => ⟨h, hne⟩, fun h => ⟨h, hne⟩⟩

theorem NoOpening.clearClient (h : m.NoOpening) (c : Client) : (m.clearClient c).NoOpening := by
  intro c'
  refine (Bool.not_eq_true _).mp fun hopen => ?_
  have hold := ((clearClient_pending m c c').1 hopen).1
  rw [h c'] at hold
  exact absurd hold nofun

theorem NoClosing.clearClient (h : m.NoClosing) (c : Client) : (m.clearClient c).NoClosing := by
  intro c'
  refine (Bool.not_eq_true _).mp fun hclose => ?_
  have hold := ((clearClient_pending m c c').2 hclose).1
  rw [h c'] at hold
  exact absurd hold nofun

/-- A start: openings are acknowledged at once when the receiver is on. -/
theorem sound_fsm_start (cfg : MnldCfg)
    (hon : m.gps_state = .started ∨ m.gps_state = .oflStarted → on = true)
    (h : Sound on L m) :
    Sound on L (m.fsm cfg .start 0) ∧
      ((∀ c, Owes (m.clients c) (m.asked on L c)) → (Settled m.gps_state → m.NoClosing) →
        Paid on L (m.fsm cfg .start 0)) := by
  have hstay (hst : ¬ Settled m.gps_state) : Sound on L m ∧
      ((∀ c, Owes (m.clients c) (m.asked on L c)) → (Settled m.gps_state → m.NoClosing) →
        Paid on L m) :=
    ⟨h, fun howes _ => ⟨howes, fun hsettled => absurd hsettled hst⟩⟩
  unfold fsm
  split
  · have hk : Kept on L m (m.setState .starting).controlGpsStart :=
      (kept_setState m .starting).trans (kept_controlGpsStart _)
    exact ⟨⟨hk.allBooks h.books, fun hne => absurd rfl hne⟩,
      fun howes _ => ⟨hk.allOwes h.books howes, by rintro (h | h | h) <;> cases h⟩⟩
  · rename_i hst
    exact hstay (by rw [hst]; rintro (h | h | h) <;> cases h)
  · rename_i hst
    rw [hon (.inl hst)] at h ⊢
    have hk := kept_doGpsStartedHdlr (L := L) m cfg 0
    have hnone := doGpsStartedHdlr_noOpening m cfg 0
    refine ⟨⟨hk.allBooks h.books, fun _ => hnone.openingUsed⟩, fun howes hclose =>
      ⟨hk.allOwes h.books howes, fun _ => ⟨hnone, fun c => ?_⟩⟩⟩
    exact (doGpsStartedHdlr_need_close_ack m cfg 0 c).trans (hclose (.inr (.inl hst)) c)
  · rename_i hst
    exact hstay (by rw [hst]; rintro (h | h | h) <;> cases h)
  · rename_i hst
    exact hstay (by rw [hst]; rintro (h | h | h) <;> cases h)
  · rename_i hst
    rw [hon (.inr hst)] at h ⊢
    have hk := kept_doGpsStartedHdlr (L := L) m cfg 0
    have hnone := doGpsStartedHdlr_noOpening m cfg 0
    have hclosing (hclose : m.NoClosing) : (m.doGpsStartedHdlr cfg 0).NoClosing := fun c =>
      (doGpsStartedHdlr_need_close_ack m cfg 0 c).trans (hclose c)
    rw [fsmGpsStateOflStarted]
    split
    · have hstop : Kept true L _ _ := kept_controlGpsStop
        (((m.doGpsStartedHdlr cfg 0).clearClient .flp).clearClient .geofence) .oflStopping
      have hbooks := books_clearClient .geofence
        (books_clearClient .flp (hk.allBooks h.books))
      refine ⟨⟨hstop.allBooks hbooks, fun _ =>
        ((hnone.clearClient .flp).clearClient .geofence).openingUsed⟩, fun howes hclose =>
        ⟨hstop.allOwes hbooks ?_, by rintro (h | h | h) <;> cases h⟩⟩
      have hclosed := hclosing (hclose (.inr (.inr hst)))
      exact owes_clearClient (books_clearClient .flp (hk.allBooks h.books) .geofence)
        ((hnone.clearClient .flp).not_used _) (hclosed.clearClient .flp _)
        (owes_clearClient (hk.allBooks h.books .flp) (hnone.not_used _) (hclosed _)
          (hk.allOwes h.books howes))
    · exact ⟨⟨hk.allBooks h.books, fun _ => hnone.openingUsed⟩, fun howes hclose =>
        ⟨hk.allOwes h.books howes, fun _ => ⟨hnone, hclosing (hclose (.inr (.inr hst)))⟩⟩⟩
  · rename_i hst
    exact hstay (by rw [hst]; rintro (h | h | h) <;> cases h)

/-- A stop: closings are acknowledged at once, unless the engine is stopped or a command is
outstanding. -/
theorem sound_fsm_stop (cfg : MnldCfg) (h : Sound on L m) :
    Sound on L (m.fsm cfg .stop 0) ∧
      ((∀ c, Owes (m.clients c) (m.asked on L c)) → (Settled m.gps_state → m.NoOpening) →
        Paid on L (m.fsm cfg .stop 0)) := by
  have hstay (hst : ¬ Settled m.gps_state) : Sound on L m ∧
      ((∀ c, Owes (m.clients c) (m.asked on L c)) → (Settled m.gps_state → m.NoOpening) →
        Paid on L m) :=
    ⟨h, fun howes _ => ⟨howes, fun hsettled => absurd hsettled hst⟩⟩
  -- the closings are acknowledged
  have hstopped (hst : Settled m.gps_state) {m' : Mnld}
      (hclients : m'.clients = (m.doGpsStoppedHdlr cfg).clients)
      (hsent : m'.sent = (m.doGpsStoppedHdlr cfg).sent)
      (hne : m.gps_state ≠ .starting) : Sound on L m' ∧
      ((∀ c, Owes (m.clients c) (m.asked on L c)) → (Settled m.gps_state → m.NoOpening) →
        Paid on L m') := by
    have hk : Kept on L m m' := (kept_doGpsStoppedHdlr m cfg).trans (.of_eq hclients hsent)
    have hused : m'.OpeningUsed := by
      refine (doGpsStoppedHdlr_openingUsed cfg (h.opening hne)).mono (fun c hc => ?_)
        fun c hc => ?_
      · rw [hclients] at hc
        exact hc
      · rw [Used, hclients]
        exact hc
    refine ⟨⟨hk.allBooks h.books, fun _ => hused⟩, fun howes hopen =>
      ⟨hk.allOwes h.books howes, fun _ => ⟨fun c => ?_, fun c => ?_⟩⟩⟩
    · rw [hclients, doGpsStoppedHdlr_need_open_ack]
      exact hopen hst c
    · rw [hclients]
      exact doGpsStoppedHdlr_noClosing m cfg c
  -- the engine is stopped first
  have hstop (hne : m.gps_state ≠ .starting) {gps_state : GpsState}
      (hgps : ¬ Settled gps_state) : Sound on L (m.controlGpsStop gps_state) ∧
      ((∀ c, Owes (m.clients c) (m.asked on L c)) → (Settled m.gps_state → m.NoOpening) →
        Paid on L (m.controlGpsStop gps_state)) := by
    have hk : Kept on L m _ := kept_controlGpsStop m gps_state
    exact ⟨⟨hk.allBooks h.books, fun _ => h.opening hne⟩, fun howes _ =>
      ⟨hk.allOwes h.books howes, fun hsettled => absurd hsettled hgps⟩⟩
  unfold fsm
  split
  · rename_i hst
    exact hstopped (.inl hst) rfl rfl (by rw [hst]; rintro ⟨⟩)
  · rename_i hst
    exact hstay (by rw [hst]; rintro (h | h | h) <;> cases h)
  · rename_i hst
    have hne : m.gps_state ≠ .starting := by rw [hst]; rintro ⟨⟩
    rw [fsmGpsStateStarted]
    split
    · exact hstop hne (by rintro (h | h | h) <;> cases h)
    · dsimp only
      split
      · exact hstopped (.inr (.inl hst)) rfl rfl hne
      · exact hstopped (.inr (.inl hst)) rfl rfl hne
  · rename_i hst
    exact hstay (by rw [hst]; rintro (h | h | h) <;> cases h)
  · rename_i hst
    exact hstay (by rw [hst]; rintro (h | h | h) <;> cases h)
  · rename_i hst
    have hne : m.gps_state ≠ .starting := by rw [hst]; rintro ⟨⟩
    rw [fsmGpsStateOflStarted]
    split
    · exact hstopped (.inr (.inr hst)) rfl rfl hne
    · exact hstop hne (by rintro (h | h | h) <;> cases h)
  · rename_i hst
    exact hstay (by rw [hst]; rintro (h | h | h) <;> cases h)

/-- A part of a handler that touches neither what is pending nor who uses the receiver. -/
theorem sound_of_kept (hk : Kept on L m m') (hstate : m'.gps_state = m.gps_state)
    (hpending : ∀ c, (m'.clients c).need_open_ack = (m.clients c).need_open_ack ∧
      (m'.clients c).need_close_ack = (m.clients c).need_close_ack)
    (hused : ∀ c, m.Used c → m'.Used c) (h : Sound on L m) :
    Sound on L m' ∧ (Paid on L m → Paid on L m') := by
  refine ⟨⟨hk.allBooks h.books, fun hne => ?_⟩, fun hpaid =>
    ⟨hk.allOwes h.books hpaid.owes, fun hsettled => ?_⟩⟩
  · rw [hstate] at hne
    refine (h.opening hne).mono (fun c hc => ?_) hused
    rw [(hpending c).1] at hc
    exact hc
  · rw [hstate] at hsettled
    obtain ⟨hopen, hclose⟩ := hpaid.settled hsettled
    exact ⟨fun c => (hpending c).1.trans (hopen c), fun c => (hpending c).2.trans (hclose c)⟩

theorem sound_doGpsResetHdlr (h : Sound on L m) :
    Sound on L m.doGpsResetHdlr ∧ (Paid on L m → Paid on L m.doGpsResetHdlr) :=
  sound_of_kept (kept_doGpsResetHdlr m) (quietly_doGpsResetHdlr m).state
    (doGpsResetHdlr_pending m)
    (fun c hc => ((quietly_doGpsResetHdlr m).used c).trans hc) h

theorem sound_fsm_reset (cfg : MnldCfg) (h : Sound on L m) :
    Sound on L (m.fsm cfg .reset 0) ∧ (Paid on L m → Paid on L (m.fsm cfg .reset 0)) := by
  unfold fsm
  split
  · exact sound_doGpsResetHdlr h
  · exact ⟨h, id⟩
  · rw [fsmGpsStateStarted]
    split
    · exact sound_of_kept (kept_controlGpsReset m) rfl (fun _ => ⟨rfl, rfl⟩) (fun _ hc => hc) h
    · exact ⟨h, id⟩
  · exact sound_doGpsResetHdlr h
  · exact ⟨h, id⟩
  · exact ⟨h, id⟩
  · exact sound_doGpsResetHdlr h

/-- A start in offload mode does nothing while the receiver is on. -/
theorem sound_fsm_offloadStart (cfg : MnldCfg) (h : Sound on L m) {c : Client}
    (hopen : (m.clients c).need_open_ack = true) :
    Sound on L (m.fsm cfg .offloadStart 0) ∧
      ((∀ c, Owes (m.clients c) (m.asked on L c)) → (Paid on L (m.fsm cfg .offloadStart 0) ↔
        m.gps_state ≠ .started ∧ m.gps_state ≠ .oflStarted)) := by
  have hstay (hst : ¬ Settled m.gps_state) : Sound on L m ∧
      ((∀ c, Owes (m.clients c) (m.asked on L c)) →
        (Paid on L m ↔ m.gps_state ≠ .started ∧ m.gps_state ≠ .oflStarted)) :=
    ⟨h, fun howes => iff_of_true ⟨howes, fun hsettled => absurd hsettled hst⟩
      ⟨fun hst' => hst (.inr (.inl hst')), fun hst' => hst (.inr (.inr hst'))⟩⟩
  have hlost (hst : m.gps_state = .started ∨ m.gps_state = .oflStarted) : Sound on L m ∧
      ((∀ c, Owes (m.clients c) (m.asked on L c)) →
        (Paid on L m ↔ m.gps_state ≠ .started ∧ m.gps_state ≠ .oflStarted)) := by
    refine ⟨h, fun _ => iff_of_false (fun hpaid => ?_) fun hne => hst.elim hne.1 hne.2⟩
    have hnone := (hpaid.settled (.inr hst)).1 c
    rw [hopen] at hnone
    exact absurd hnone nofun
  unfold fsm
  split
  · rename_i hst
    have hk : Kept on L m (m.setState .oflStarting).controlGpsStart :=
      (kept_setState m .oflStarting).trans (kept_controlGpsStart _)
    refine ⟨⟨hk.allBooks h.books, fun _ => h.opening (by rw [hst]; exact nofun)⟩, fun howes =>
      iff_of_true ⟨hk.allOwes h.books howes, nofun⟩ ?_⟩
    rw [hst]
    exact ⟨nofun, nofun⟩
  · rename_i hst
    exact hstay (by rw [hst]; exact nofun)
  · rename_i hst
    exact hlost (.inl hst)
  · rename_i hst
    exact hstay (by rw [hst]; exact nofun)
  · rename_i hst
    exact hstay (by rw [hst]; exact nofun)
  · rename_i hst
    exact hlost (.inr hst)
  · rename_i hst
    exact hstay (by rw [hst]; exact nofun)

/-- A state that is reached with all openings acknowledged and the closings left. -/
theorem sound_started (hbooks : ∀ c, Books c (m'.clients c) (m'.asked on L c))
    (hnone : m'.NoOpening) (hsettled : Settled m'.gps_state)
    (hclose : ∀ c, (m'.clients c).need_close_ack = (m.clients c).need_close_ack)
    (howes : (∀ c, Owes (m.clients c) (m.asked on L c)) →
      ∀ c, Owes (m'.clients c) (m'.asked on L c)) :
    Sound on L m' ∧ ((∀ c, Owes (m.clients c) (m.asked on L c)) →
      (Paid on L m' ↔ m.NoClosing)) := by
  refine ⟨⟨hbooks, fun _ => hnone.openingUsed⟩, fun ho => ⟨fun hpaid c => ?_, fun hno =>
    ⟨howes ho, fun _ => ⟨hnone, fun c => (hclose c).trans (hno c)⟩⟩⟩⟩
  exact (hclose c).symm.trans ((hpaid.settled hsettled).2 c)

/-- The receiver has started: the closings that came in between are left. -/
theorem sound_startDone_starting (cfg : MnldCfg) (h : Sound true L m)
    (hst : m.gps_state = .starting) (data1 : Int) :
    Sound true L (m.fsm cfg .startDone data1) ∧
      ((∀ c, Owes (m.clients c) (m.asked true L c)) →
        (Paid true L (m.fsm cfg .startDone data1) ↔ ((∃ c, m.Used c) → m.NoClosing))) := by
  have hq := quietly_doGpsStartedHdlr m cfg data1
  have hk := kept_doGpsStartedHdlr (L := L) m cfg data1
  have hnone := doGpsStartedHdlr_noOpening m cfg data1
  have hclose := doGpsStartedHdlr_need_close_ack m cfg data1
  unfold fsm
  rw [hst]
  dsimp only
  rw [fsmGpsStateStarting]
  dsimp only
  split
  · rename_i hexit
    rw [hq.isAllGpsClientExit] at hexit
    have hks := hk.trans (kept_controlGpsStop _ .stopping)
    exact ⟨⟨hks.allBooks h.books, fun _ => hnone.openingUsed⟩, fun howes =>
      iff_of_true ⟨hks.allOwes h.books howes, by rintro (h | h | h) <;> cases h⟩
        fun hsome => absurd hexit (exists_used_iff.mp hsome)⟩
  · rename_i hsome
    rw [hq.isAllGpsClientExit, ← exists_used_iff] at hsome
    -- the state that is left does not depend on the sessions
    have hdone {m' : Mnld} (hk' : Kept true L (m.doGpsStartedHdlr cfg data1) m')
        (hpending : ∀ c, (m'.clients c).need_open_ack =
            ((m.doGpsStartedHdlr cfg data1).clients c).need_open_ack ∧
          (m'.clients c).need_close_ack =
            ((m.doGpsStartedHdlr cfg data1).clients c).need_close_ack)
        (hstate : m'.gps_state = .started) : Sound true L m' ∧
          ((∀ c, Owes (m.clients c) (m.asked true L c)) →
            (Paid true L m' ↔ ((∃ c, m.Used c) → m.NoClosing))) := by
      have hks := hk.trans hk'
      obtain ⟨hsound, hpaid⟩ := sound_started (m := m) (hks.allBooks h.books)
        (fun c => (hpending c).1.trans (hnone c)) (by rw [hstate]; exact .inr (.inl rfl))
        (fun c => (hpending c).2.trans (hclose c)) (hks.allOwes h.books)
      exact ⟨hsound, fun howes => (hpaid howes).trans
        ⟨fun hno _ => hno, fun hno => hno hsome⟩⟩
    have hset : Kept true L (m.doGpsStartedHdlr cfg data1)
        ((m.doGpsStartedHdlr cfg data1).setState .started) := .of_eq rfl rfl
    split
    · refine hdone (hset.trans (kept_switchSessions _ .apMode))
        (switchSessions_pending _ .apMode) ?_
      rw [switchSessions_state]
      rfl
    · exact hdone (.of_eq rfl rfl) (fun _ => ⟨rfl, rfl⟩) rfl

/-- The receiver has started in offload mode. -/
theorem sound_startDone_oflStarting (cfg : MnldCfg) (h : Sound true L m)
    (hst : m.gps_state = .oflStarting) (data1 : Int) :
    Sound true L (m.fsm cfg .startDone data1) ∧
      ((∀ c, Owes (m.clients c) (m.asked true L c)) →
        (Paid true L (m.fsm cfg .startDone data1) ↔
          (m.NoHbd → (∃ c, m.Used c) → m.NoClosing))) := by
  have hq := quietly_doGpsStartedHdlr m cfg data1
  have hk := kept_doGpsStartedHdlr (L := L) m cfg data1
  have hnone := doGpsStartedHdlr_noOpening m cfg data1
  unfold fsm
  rw [hst]
  dsimp only
  rw [fsmGpsStateOflStarting]
  dsimp only
  split
  · rename_i hleave
    have hks := hk.trans (kept_controlGpsStop _ .oflStopping)
    refine ⟨⟨hks.allBooks h.books, fun _ => hnone.openingUsed⟩, fun howes =>
      iff_of_true ⟨hks.allOwes h.books howes, by rintro (h | h | h) <;> cases h⟩ fun hno hsome => ?_⟩
    rw [hq.isAllGpsClientExit, hq.isAHbdGpsClientExist, Bool.or_eq_true] at hleave
    rcases hleave with hexit | hhbd
    · exact absurd hexit (exists_used_iff.mp hsome)
    · rw [hno] at hhbd
      exact absurd hhbd (by rintro ⟨⟩)
  · rename_i hstays
    rw [hq.isAllGpsClientExit, hq.isAHbdGpsClientExist, Bool.or_eq_true, not_or,
      ← exists_used_iff, Bool.not_eq_true] at hstays
    have hset (flp gfc : Session) : Kept true L (m.doGpsStartedHdlr cfg data1)
        ((((m.doGpsStartedHdlr cfg data1).setState .oflStarted).setSession .flp flp).setSession
          .geofence gfc) := .of_eq rfl rfl
    have hdone (flp gfc : Session) := sound_started (m := m)
      ((hk.trans (hset flp gfc)).allBooks h.books) hnone (.inr (.inr rfl))
      (doGpsStartedHdlr_need_close_ack m cfg data1) ((hk.trans (hset flp gfc)).allOwes h.books)
    exact ⟨(hdone _ _).1, fun howes => ((hdone _ _).2 howes).trans
      ⟨fun hno _ _ => hno, fun hno => hno hstays.2 hstays.1⟩⟩

/-- The receiver has stopped: all closings are acknowledged. -/
theorem sound_stopDone_stopping (cfg : MnldCfg) (h : Sound on L m)
    (hst : m.gps_state = .stopping) :
    Sound on L (m.fsm cfg .stopDone 0) ∧
      ((∀ c, Owes (m.clients c) (m.asked on L c)) → Paid on L (m.fsm cfg .stopDone 0)) := by
  have hq := quietly_doGpsStoppedHdlr m cfg
  have hk : Kept on L m _ := kept_doGpsStoppedHdlr m cfg
  have hnoclose := doGpsStoppedHdlr_noClosing m cfg
  have hused : (m.doGpsStoppedHdlr cfg).OpeningUsed :=
    doGpsStoppedHdlr_openingUsed cfg (h.opening (by rw [hst]; rintro ⟨⟩))
  unfold fsm
  rw [hst]
  dsimp only
  rw [fsmGpsStateStopping]
  dsimp only
  split
  · have hks : Kept on L m ((m.doGpsStoppedHdlr cfg).setState .starting).controlGpsStart :=
      hk.trans ((kept_setState _ .starting).trans (kept_controlGpsStart _))
    exact ⟨⟨hks.allBooks h.books, fun hne => absurd rfl hne⟩,
      fun howes => ⟨hks.allOwes h.books howes, by rintro (h | h | h) <;> cases h⟩⟩
  · rename_i hno
    rw [isAGpsClientExist_eq, Bool.not_eq_true', Bool.not_eq_false, isAllGpsClientExit_iff] at hno
    have hnone : (m.doGpsStoppedHdlr cfg).NoOpening := fun c =>
      (Bool.not_eq_true _).mp fun hopen => hno c (hused c hopen)
    have hset : Kept on L m ((m.doGpsStoppedHdlr cfg).setState .idle) :=
      hk.trans (.of_eq rfl rfl)
    split
    · have hks := hset.trans (kept_switchSessions _ .apOflMode)
      have hpending := switchSessions_pending ((m.doGpsStoppedHdlr cfg).setState .idle) .apOflMode
      have hnone' : (((m.doGpsStoppedHdlr cfg).setState .idle).switchSessions
          .apOflMode).NoOpening := fun c => (hpending c).1.trans (hnone c)
      exact ⟨⟨hks.allBooks h.books, fun _ => hnone'.openingUsed⟩, fun howes =>
        ⟨hks.allOwes h.books howes, fun _ => ⟨hnone', fun c =>
          (hpending c).2.trans (hnoclose c)⟩⟩⟩
    · exact ⟨⟨hset.allBooks h.books, fun _ => hnone.openingUsed⟩, fun howes =>
        ⟨hset.allOwes h.books howes, fun _ => ⟨hnone, hnoclose⟩⟩⟩

/-- A client that waits for its opening is no test. -/
theorem answered_of_opening (h : ∀ c, Books c (m.clients c) (m.asked on L c))
    (hused : m.OpeningUsed) {c : Client} (hopen : (m.clients c).need_open_ack = true) :
    c.answered = true := by
  by_contra hc
  have hnothing := (h c).test ((Bool.not_eq_true _).mp hc)
  rcases (h c).opening hopen with ⟨hopened, -⟩ | ⟨-, hno⟩
  · rw [hnothing] at hopened
    exact absurd hopened nofun
  · have hu : (m.clients c).gps_used = true := hused c hopen
    rw [hno] at hu
    exact absurd hu nofun

/-- The receiver has stopped in offload mode. -/
theorem sound_stopDone_oflStopping (cfg : MnldCfg) (h : Sound on L m)
    (hst : m.gps_state = .oflStopping) :
    Sound on L (m.fsm cfg .stopDone 0) ∧
      ((∀ c, Owes (m.clients c) (m.asked on L c)) → Paid on L (m.fsm cfg .stopDone 0)) := by
  have hk : Kept on L m _ := kept_doGpsStoppedHdlr m cfg
  have hnoclose := doGpsStoppedHdlr_noClosing m cfg
  have hused : (m.doGpsStoppedHdlr cfg).OpeningUsed :=
    doGpsStoppedHdlr_openingUsed cfg (h.opening (by rw [hst]; rintro ⟨⟩))
  have hbooks := hk.allBooks h.books
  unfold fsm
  rw [hst]
  dsimp only
  rw [fsmGpsStateOflStopping]
  dsimp only
  split
  · have hks : Kept on L m ((m.doGpsStoppedHdlr cfg).setState .oflStarting).controlGpsStart :=
      hk.trans ((kept_setState _ .oflStarting).trans (kept_controlGpsStart _))
    exact ⟨⟨hks.allBooks h.books, fun _ => hused⟩,
      fun howes => ⟨hks.allOwes h.books howes, by rintro (h | h | h) <;> cases h⟩⟩
  · rename_i hagain
    have hset : Kept on L m ((m.doGpsStoppedHdlr cfg).setState .idle) :=
      hk.trans (.of_eq rfl rfl)
    split
    · -- the machine is entered again, and an opening that was given up is still pending
      have hks := (hset.trans (kept_switchSessions _ .apMode)).trans
        ((kept_setState _ .starting).trans (kept_controlGpsStart _))
      exact ⟨⟨hks.allBooks h.books, fun hne => absurd rfl hne⟩,
        fun howes => ⟨hks.allOwes h.books howes, by rintro (h | h | h) <;> cases h⟩⟩
    · rename_i hno
      have hnohbd : (m.doGpsStoppedHdlr cfg).isAHbdGpsClientExist = false :=
        (Bool.not_eq_true _).mp hno
      rw [isAllHbdGpsClientExit_eq, hnohbd, Bool.not_false, Bool.and_true, Bool.or_eq_true,
        not_or] at hagain
      have hnone : (m.doGpsStoppedHdlr cfg).NoOpening := by
        intro c
        refine (Bool.not_eq_true _).mp fun hopen => ?_
        have hanswered := answered_of_opening hbooks hused hopen
        have hu : ((m.doGpsStoppedHdlr cfg).clients c).gps_used = true := hused c hopen
        cases c with
        | flp => exact hagain.1 hu
        | geofence => exact hagain.2 hu
        | flpTest | atCmdTest | factory => exact absurd hanswered (by rintro ⟨⟩)
        | hal | agps =>
          rw [isAHbdGpsClientExist, hu] at hnohbd
          simp only [Bool.true_or, Bool.or_true] at hnohbd
          exact absurd hnohbd (by rintro ⟨⟩)
      split
      · have hks := hset.trans (kept_switchSessions _ .apOflMode)
        have hpending := switchSessions_pending ((m.doGpsStoppedHdlr cfg).setState .idle) .apOflMode
        have hnone' : (((m.doGpsStoppedHdlr cfg).setState .idle).switchSessions
            .apOflMode).NoOpening := fun c => (hpending c).1.trans (hnone c)
        exact ⟨⟨hks.allBooks h.books, fun _ => hnone'.openingUsed⟩, fun howes =>
          ⟨hks.allOwes h.books howes, fun _ => ⟨hnone', fun c =>
            (hpending c).2.trans (hnoclose c)⟩⟩⟩
      · exact ⟨⟨hset.allBooks h.books, fun _ => hnone.openingUsed⟩, fun howes =>
          ⟨hset.allOwes h.books howes, fun _ => ⟨hnone, hnoclose⟩⟩⟩

/-! ## Requests -/

/-- A client is written, and its ledger. -/
theorem sound_setClient {L' : Client → Asked} (m' : Mnld) (hsent : m.sent = []) (h : Sound on L m)
    {c : Client} {client : GpsClient} (hL : ∀ c' ≠ c, L' c' = L c')
    (hclients : m'.clients = (m.setClient c client).clients) (hsent' : m'.sent = [])
    (hstate : m'.gps_state = m.gps_state) (hbooks : Books c client (L' c))
    (hused : client.need_open_ack = true → client.gps_used = true) :
    Sound on L' m' ∧ ((∀ c, Owes (m.clients c) (m.asked on L c)) → Owes client (L' c) →
      ∀ c, Owes (m'.clients c) (m'.asked on L' c)) := by
  have hasked (c' : Client) : m'.asked on L' c' = L' c' := by
    rw [asked, hsent']
    rfl
  have hold {c' : Client} (hne : c' ≠ c) : L' c' = m.asked on L c' := by
    rw [asked, hsent]
    exact hL c' hne
  refine ⟨⟨fun c' => ?_, fun hne c' hopen => ?_⟩, fun howes hself c' => ?_⟩
  · rw [hasked, hclients]
    rcases eq_or_ne c' c with rfl | hne
    · rw [setClient_clients_self]
      exact hbooks
    · rw [setClient_clients_of_ne m hne, hold hne]
      exact h.books c'
  · rw [hstate] at hne
    rw [hclients] at hopen
    rw [Used, hclients]
    rcases eq_or_ne c' c with rfl | hc
    · rw [setClient_clients_self] at hopen ⊢
      exact hused hopen
    · rw [setClient_clients_of_ne m hc] at hopen ⊢
      exact h.opening hne c' hopen
  · rw [hasked, hclients]
    rcases eq_or_ne c' c with rfl | hne
    · rw [setClient_clients_self]
      exact hself
    · rw [setClient_clients_of_ne m hne, hold hne]
      exact howes c'

/-- What the ledger of a client says after an opening: it is asked for, unless it is a test. -/
def OpenedBy (c : Client) (ack : Bool) (a : Asked) : Prop :=
  (ack = true ∧ c.answered = true ∧ a = .opened 0 0) ∨ (ack = false ∧ a = .nothing)

/-- What the ledger of a client says after a closing. -/
def ClosedBy (c : Client) (ack : Bool) (a : Asked) : Prop :=
  (ack = true ∧ c.answered = true ∧ a = .closed 0) ∨ (ack = false ∧ a = .nothing)

theorem OpenedBy.books {c : Client} {ack : Bool} {a : Asked} (h : OpenedBy c ack a)
    (need_reset_ack : Bool) :
    Books c ⟨true, ack, false, need_reset_ack⟩ a ∧ Owes ⟨true, ack, false, need_reset_ack⟩ a := by
  rcases h with ⟨rfl, hc, rfl⟩ | ⟨rfl, rfl⟩
  · refine ⟨⟨fun htest => ?_, fun _ => .inl ⟨rfl, rfl⟩, nofun, Nat.zero_le 1, rfl⟩,
      ⟨fun _ _ => rfl, nofun⟩⟩
    rw [hc] at htest
    exact absurd htest nofun
  · exact ⟨⟨fun _ => rfl, nofun, nofun, trivial⟩, ⟨nofun, nofun⟩⟩

theorem ClosedBy.books {c : Client} {ack : Bool} {a : Asked} (h : ClosedBy c ack a)
    (need_reset_ack : Bool) :
    Books c ⟨false, false, ack, need_reset_ack⟩ a ∧
      Owes ⟨false, false, ack, need_reset_ack⟩ a := by
  rcases h with ⟨rfl, hc, rfl⟩ | ⟨rfl, rfl⟩
  · refine ⟨⟨fun htest => ?_, nofun, fun _ => rfl, Nat.zero_le 1⟩, ⟨nofun, fun _ => rfl⟩⟩
    rw [hc] at htest
    exact absurd htest nofun
  · exact ⟨⟨fun _ => rfl, nofun, nofun, trivial⟩, ⟨nofun, nofun⟩⟩

variable {L' : Client → Asked} {c : Client} {ack : Bool}

/-- Pending closings after a client is written that does not wait for one. -/
theorem NoClosing.setClient (h : m.NoClosing) {client : GpsClient}
    (hclient : client.need_close_ack = false) : (m.setClient c client).NoClosing := by
  intro c'
  rcases eq_or_ne c' c with rfl | hne
  · rw [setClient_clients_self]
    exact hclient
  · rw [setClient_clients_of_ne m hne]
    exact h c'

theorem NoOpening.setClient (h : m.NoOpening) {client : GpsClient}
    (hclient : client.need_open_ack = false) : (m.setClient c client).NoOpening := by
  intro c'
  rcases eq_or_ne c' c with rfl | hne
  · rw [setClient_clients_self]
    exact hclient
  · rw [setClient_clients_of_ne m hne]
    exact h c'

theorem sound_openGps (cfg : MnldCfg) (hsent : m.sent = []) (h : Sound on L m)
    (hon : m.gps_state = .started ∨ m.gps_state = .oflStarted → on = true)
    (hL : ∀ c' ≠ c, L' c' = L c') (hself : OpenedBy c ack (L' c)) :
    Sound on L' (m.openGps c ack .start cfg) ∧
      (Paid on L m → Paid on L' (m.openGps c ack .start cfg)) := by
  obtain ⟨hbooks, howes⟩ := hself.books (m.clients c).need_reset_ack
  obtain ⟨hsound, hall⟩ := sound_setClient (m.setClient c ⟨true, ack, false,
    (m.clients c).need_reset_ack⟩)
    hsent h hL rfl hsent rfl hbooks fun _ => rfl
  obtain ⟨hfsm, hpaid⟩ := sound_fsm_start cfg
    (m := m.setClient c ⟨true, ack, false, (m.clients c).need_reset_ack⟩) hon hsound
  exact ⟨hfsm, fun hp => hpaid (hall hp.owes howes) fun hsettled =>
    (hp.settled hsettled).2.setClient rfl⟩

theorem sound_openGps_offload (cfg : MnldCfg) (hsent : m.sent = []) (h : Sound on L m)
    (hL : ∀ c' ≠ c, L' c' = L c') (hself : OpenedBy c true (L' c)) (session : Session) :
    Sound on L' ((m.setSession c session).openGps c true .offloadStart cfg) ∧
      (Paid on L m → (Paid on L' ((m.setSession c session).openGps c true .offloadStart cfg) ↔
        m.gps_state ≠ .started ∧ m.gps_state ≠ .oflStarted)) := by
  obtain ⟨hbooks, howes⟩ := hself.books (m.clients c).need_reset_ack
  obtain ⟨hsound, hall⟩ := sound_setClient ((m.setSession c session).setClient c ⟨true, true,
    false, (m.clients c).need_reset_ack⟩)
    hsent h hL rfl hsent rfl hbooks fun _ => rfl
  obtain ⟨hfsm, hpaid⟩ := sound_fsm_offloadStart cfg hsound (c := c)
    (congrArg GpsClient.need_open_ack (setClient_clients_self _ c _))
  exact ⟨hfsm, fun hp => hpaid (hall hp.owes howes)⟩

theorem sound_closeGps (cfg : MnldCfg) (hsent : m.sent = []) (h : Sound on L m)
    (hL : ∀ c' ≠ c, L' c' = L c') (hself : ClosedBy c ack (L' c)) :
    Sound on L' (m.closeGps c ack cfg) ∧ (Paid on L m → Paid on L' (m.closeGps c ack cfg)) := by
  obtain ⟨hbooks, howes⟩ := hself.books (m.clients c).need_reset_ack
  obtain ⟨hsound, hall⟩ := sound_setClient (m.setClient c ⟨false, false, ack,
    (m.clients c).need_reset_ack⟩)
    hsent h hL rfl hsent rfl hbooks nofun
  obtain ⟨hfsm, hpaid⟩ := sound_fsm_stop cfg hsound
  exact ⟨hfsm, fun hp => hpaid (hall hp.owes howes) fun hsettled =>
    (hp.settled hsettled).1.setClient rfl⟩

theorem sound_rebootClient (cfg : MnldCfg) (hsent : m.sent = []) (h : Sound on L m)
    (hL : ∀ c' ≠ c, L' c' = L c') (hself : L' c = .nothing) :
    Sound on L' (m.rebootClient c cfg) ∧ (Paid on L m → Paid on L' (m.rebootClient c cfg)) := by
  obtain ⟨hsound, hall⟩ := sound_setClient (m.setClient c ⟨false, false, false, false⟩)
    hsent h hL rfl hsent rfl ⟨fun _ => hself, nofun, nofun, by rw [hself]; trivial⟩ nofun
  obtain ⟨hfsm, hpaid⟩ := sound_fsm_stop cfg hsound
  refine ⟨hfsm, fun hp => hpaid (hall hp.owes ?_) fun hsettled =>
    (hp.settled hsettled).1.setClient rfl⟩
  rw [hself]
  exact ⟨nofun, nofun⟩

/-- A reset is asked for: the ledgers stay. -/
theorem sound_resetReq (cfg : MnldCfg) (h : Sound on L m) (hk : Kept on L m m')
    (hstate : m'.gps_state = m.gps_state)
    (hpending : ∀ c, (m'.clients c).need_open_ack = (m.clients c).need_open_ack ∧
      (m'.clients c).need_close_ack = (m.clients c).need_close_ack)
    (hused : ∀ c, m.Used c → m'.Used c) :
    Sound on L (m'.fsm cfg .reset 0) ∧ (Paid on L m → Paid on L (m'.fsm cfg .reset 0)) := by
  obtain ⟨hsound, hpaid⟩ := sound_of_kept hk hstate hpending hused h
  obtain ⟨hfsm, hpaid'⟩ := sound_fsm_reset cfg hsound
  exact ⟨hfsm, fun hp => hpaid' (hpaid hp)⟩

/-- A request keeps the books; it is paid unless it opens in offload mode while the receiver is
on. -/
theorem sound_handle (cfg : MnldCfg) (hsent : m.sent = []) (h : Sound on L m)
    (hon : m.gps_state = .started ∨ m.gps_state = .oflStarted → on = true) (r : GpsRequest) :
    Sound on (askedBy L r) (r.handle cfg m) ∧
      (Paid on L m → (Paid on (askedBy L r) (r.handle cfg m) ↔
        (r = .flpOflLinkOpen ∨ r = .gfcOflLinkOpen →
          m.gps_state ≠ .started ∧ m.gps_state ≠ .oflStarted))) := by
  have hother (c : Client) (a : Asked) :
      ∀ c' ≠ c, (fun c' => if c' = c then a else L c' : Client → Asked) c' = L c' :=
    fun _ hne => if_neg hne
  have hkept {P : Prop} {L' : Client → Asked} {m' : Mnld}
      (hne : r ≠ .flpOflLinkOpen ∧ r ≠ .gfcOflLinkOpen)
      (hm' : Sound on L' m' ∧ (Paid on L m → Paid on L' m')) : Sound on L' m' ∧
        (Paid on L m → (Paid on L' m' ↔ (r = .flpOflLinkOpen ∨ r = .gfcOflLinkOpen → P))) :=
    ⟨hm'.1, fun hp => iff_of_true (hm'.2 hp) fun hr => absurd hr (not_or.mpr hne)⟩
  have htest (c : Client) (hc : c.answered = false) : L c = .nothing := by
    have hbooks := (h.books c).test hc
    rw [asked, hsent] at hbooks
    exact hbooks
  cases r with
  | halReboot | agpsReboot | flpReboot | gfcReboot =>
    exact hkept ⟨nofun, nofun⟩ (sound_rebootClient cfg hsent h (hother _ _) rfl)
  | halGpsStart | agpsOpenGpsReq | flpHbdGpsOpen | gfcHbdGpsOpen =>
    exact hkept ⟨nofun, nofun⟩
      (sound_openGps cfg hsent h hon (hother _ _) (.inl ⟨rfl, rfl, rfl⟩))
  | flpTestGpsStart | factoryMnldGpsStart | atTestGpsStart =>
    exact hkept ⟨nofun, nofun⟩
      (sound_openGps cfg hsent h hon (fun _ _ => rfl) (.inr ⟨rfl, htest _ rfl⟩))
  | halGpsStop | agpsCloseGpsReq | flpHbdGpsClose | flpOflLinkClose | gfcHbdGpsClose
  | gfcOflLinkClose =>
    exact hkept ⟨nofun, nofun⟩
      (sound_closeGps cfg hsent h (hother _ _) (.inl ⟨rfl, rfl, rfl⟩))
  | flpTestGpsStop | factoryMnldGpsStop | atTestGpsStop =>
    exact hkept ⟨nofun, nofun⟩
      (sound_closeGps cfg hsent h (fun _ _ => rfl) (.inr ⟨rfl, htest _ rfl⟩))
  | flpOflLinkOpen =>
    obtain ⟨hsound, hpaid⟩ := sound_openGps_offload cfg hsent h
      (hother .flp (.opened 0 0)) (.inl ⟨rfl, rfl, rfl⟩)
      { m.session .flp with type := .oflMode }
    exact ⟨hsound, fun hp => (hpaid hp).trans ⟨fun hst _ => hst, fun hst => hst (.inl rfl)⟩⟩
  | gfcOflLinkOpen =>
    obtain ⟨hsound, hpaid⟩ := sound_openGps_offload cfg hsent h
      (hother .geofence (.opened 0 0)) (.inl ⟨rfl, rfl, rfl⟩)
      { m.session .geofence with type := .oflMode }
    exact ⟨hsound, fun hp => (hpaid hp).trans ⟨fun hst _ => hst, fun hst => hst (.inr rfl)⟩⟩
  | halGpsDeleteAidingData flags =>
    refine hkept ⟨nofun, nofun⟩ (sound_resetReq cfg h (.of_flags rfl ?_ ?_ ?_) rfl ?_ ?_)
    · exact fun c => (setClient_reset m .hal c false).1
    · exact fun c => (setClient_reset m .hal c false).2.1
    · exact fun c => (setClient_reset m .hal c false).2.2
    · exact fun c => (setClient_reset m .hal c false).2
    · exact fun c hc => (setClient_reset m .hal c false).1.trans hc
  | agpsResetGpsReq flags =>
    refine hkept ⟨nofun, nofun⟩ ?_
    change Sound on L (m.agpsResetGpsReq flags cfg) ∧
      (Paid on L m → Paid on L (m.agpsResetGpsReq flags cfg))
    rw [agpsResetGpsReq]
    split
    · exact sound_of_kept (kept_send m (silent_singleton ⟨rfl, rfl, rfl⟩)) rfl
        (fun _ => ⟨rfl, rfl⟩) (fun _ hc => hc) h
    · refine sound_resetReq cfg h (.of_flags rfl ?_ ?_ ?_) rfl ?_ ?_
      · exact fun c => (setClient_reset m .agps c true).1
      · exact fun c => (setClient_reset m .agps c true).2.1
      · exact fun c => (setClient_reset m .agps c true).2.2
      · exact fun c => (setClient_reset m .agps c true).2
      · exact fun c hc => (setClient_reset m .agps c true).1.trans hc

/-! ## The switch to offload mode -/

theorem fsm_stop_of_not_settled (h : ¬ Settled m.gps_state) : m.fsm cfg .stop 0 = m := by
  unfold fsm
  split
  · rename_i hst
    exact absurd (.inl hst) h
  · rfl
  · rename_i hst
    exact absurd (.inr (.inl hst)) h
  · rfl
  · rfl
  · rename_i hst
    exact absurd (.inr (.inr hst)) h
  · rfl

/-- The offload clients are dropped: what they wait for is lost. -/
theorem sound_switchTimeout (cfg : MnldCfg) (h : Sound on L m) :
    Sound on L (m.gpsSwitchOflModeTimeout cfg) ∧
      (Paid on L m → (Paid on L (m.gpsSwitchOflModeTimeout cfg) ↔ (m.NoHbd →
        ∀ c, c = .flp ∨ c = .geofence → ¬ ((m.clients c).need_open_ack = true ∧ m.Used c) ∧
          (m.clients c).need_close_ack = false))) := by
  rw [gpsSwitchOflModeTimeout]
  split
  · rename_i hno
    rw [isAllHbdGpsClientExit_eq, Bool.not_eq_true'] at hno
    have hbooks := books_clearClient .flp h.books
    have hsound : Sound on L ((m.clearClient .flp).clearClient .geofence) := by
      refine ⟨books_clearClient .geofence hbooks, fun hne c hc => ?_⟩
      obtain ⟨hc', hgfc⟩ := (clearClient_pending _ .geofence c).1 hc
      obtain ⟨hopen, hflp⟩ := (clearClient_pending m .flp c).1 hc'
      change (((m.setClient .flp _).setClient .geofence _).clients c).gps_used = true
      rw [setClient_clients_of_ne _ hgfc, setClient_clients_of_ne m hflp]
      exact h.opening hne c hopen
    obtain ⟨hfsm, hpaid⟩ := sound_fsm_stop cfg hsound
    refine ⟨hfsm, fun hp => ⟨fun hp' _ c hc => ?_, fun hwait => hpaid ?_ fun hsettled => ?_⟩⟩
    · -- the flags of the client are cleared, and nothing is acknowledged
      have hcleared : ((((m.clearClient .flp).clearClient .geofence).clients c).need_open_ack
          = false) ∧ ((((m.clearClient .flp).clearClient .geofence).clients c).need_close_ack
          = false) := by
        rcases hc with rfl | rfl
        · exact ⟨rfl, rfl⟩
        · exact ⟨rfl, rfl⟩
      by_cases hsettled : Settled m.gps_state
      · obtain ⟨hopen, hclose⟩ := hp.settled hsettled
        exact ⟨hopen.not_used c, hclose c⟩
      · rw [fsm_stop_of_not_settled
          (m := (m.clearClient .flp).clearClient .geofence) hsettled] at hp'
        have howes : Owes _ (m.asked on L c) := hp'.owes c
        constructor
        · rintro ⟨hopen, hused⟩
          rcases (h.books c).opening hopen with ⟨hopened, -⟩ | ⟨-, hno'⟩
          · have hneed := howes.opened 0 hopened
            rw [hcleared.1] at hneed
            exact absurd hneed (by rintro ⟨⟩)
          · rw [Used, hno'] at hused
            exact absurd hused (by rintro ⟨⟩)
        · refine (Bool.not_eq_true _).mp fun hclose => ?_
          have hneed := howes.closed ((h.books c).closing hclose)
          rw [hcleared.2] at hneed
          exact absurd hneed (by rintro ⟨⟩)
    · obtain ⟨hflp, hflp'⟩ := hwait hno .flp (.inl rfl)
      obtain ⟨hgfc, hgfc'⟩ := hwait hno .geofence (.inr rfl)
      exact owes_clearClient (hbooks .geofence) hgfc hgfc'
        (owes_clearClient (h.books .flp) hflp hflp' hp.owes)
    · exact ((hp.settled hsettled).1.clearClient .flp).clearClient .geofence
  · rename_i hno
    rw [isAllHbdGpsClientExit_eq, Bool.not_eq_true', Bool.not_eq_false] at hno
    refine ⟨h, fun hp => iff_of_true hp fun hnone => ?_⟩
    rw [NoHbd, hno] at hnone
    exact absurd hnone (by rintro ⟨⟩)

end Mnld

/-! ## Runs -/

theorem GpsEngine.observe_on (e : GpsEngine) (sent : List GpsOutput) :
    (e.observe sent).on = e.on := by
  rw [observe]
  generalize sent.filterMap engineCommand = commands
  induction commands generalizing e with
  | nil => rfl
  | cons command commands ih =>
    rw [List.foldl_cons, ih]
    cases command with
    | start => rfl
    | stop => rfl

namespace AckSystem

variable {cfg : MnldCfg} {s : AckSystem}

/-- The engine fits the state, and the books are kept. -/
structure Inv (s : AckSystem) : Prop where
  system : s.system.Inv
  sound : ∀ on, Mnld.Sound on s.ledger s.system.fresh

theorem settled_iff (h : s.system.Inv) :
    s.system.engine.outstanding = [] ↔ Mnld.Settled s.system.mnld.gps_state := by
  rw [h.engine]
  cases s.system.mnld.gps_state with
  | idle => exact iff_of_true rfl (.inl rfl)
  | started => exact iff_of_true rfl (.inr (.inl rfl))
  | oflStarted => exact iff_of_true rfl (.inr (.inr rfl))
  | starting | oflStarting | stopping | oflStopping => exact iff_of_false nofun nofun

/-- A client is answered exactly if what is owed to it is paid. -/
theorem answered_iff (h : s.Inv) (on : Bool) :
    s.Answered ↔ Mnld.Paid on s.ledger s.system.fresh := by
  have hsettled := settled_iff h.system
  constructor
  · intro ha
    refine ⟨fun c => ⟨fun early hc => ?_, fun hc => ?_⟩, fun hst => ?_⟩
    · rcases (ha.opened c 0 early hc).2 with hacks | ⟨-, hneed⟩
      · exact absurd hacks nofun
      · exact hneed
    · rcases ha.closed c 0 hc with hacks | ⟨-, hneed⟩
      · exact absurd hacks nofun
      · exact hneed
    · have hnone := ha.settled (hsettled.mpr hst)
      exact ⟨fun c => (hnone c).1, fun c => (hnone c).2⟩
  · intro hp
    refine ⟨fun c acks early hc => ?_, fun c acks hc => ?_, fun hout c => ?_⟩
    · have hcounted : (s.ledger c).Counted := ((h.sound on).books c).counted
      rw [hc] at hcounted
      refine ⟨hcounted.2, ?_⟩
      cases acks with
      | zero => exact .inr ⟨rfl, (hp.owes c).opened early hc⟩
      | succ acks => exact .inl (Nat.le_antisymm hcounted.1 (Nat.succ_pos acks))
    · have hcounted : (s.ledger c).Counted := ((h.sound on).books c).counted
      rw [hc] at hcounted
      cases acks with
      | zero => exact .inr ⟨rfl, (hp.owes c).closed hc⟩
      | succ acks => exact .inl (Nat.le_antisymm hcounted (Nat.succ_pos acks))
    · obtain ⟨hopen, hclose⟩ := hp.settled (hsettled.mp hout)
      exact ⟨hopen c, hclose c⟩

/-- A handler that keeps the books. -/
theorem inv_handled (cfg : MnldCfg) (input : GpsInput) {e : GpsEngine} {m : Mnld}
    (hsystem : (s.system.next cfg input).Inv)
    (hnext : s.system.next cfg input = GpsSystem.handled e m)
    (hsaid : s.system.said cfg input = (s.system.next cfg input).mnld.sent)
    (hsound : Mnld.Sound e.on (s.asked input) m) :
    (s.next cfg input).Inv ∧
      ((s.next cfg input).Answered ↔ Mnld.Paid e.on (s.asked input) m) := by
  have hledger (c : Client) : (s.next cfg input).ledger c = m.asked e.on (s.asked input) c := by
    change (s.system.said cfg input).foldl _ _ = _
    rw [hsaid, hnext]
    change m.sent.foldl (Asked.observe c (e.observe m.sent).on) _ = _
    rw [GpsEngine.observe_on]
    rfl
  have hclients : (s.next cfg input).system.mnld = m := by
    change (s.system.next cfg input).mnld = m
    rw [hnext]
    rfl
  have hasked (on : Bool) (c : Client) :
      (s.next cfg input).system.fresh.asked on (s.next cfg input).ledger c =
        m.asked e.on (s.asked input) c := hledger c
  have hinv : (s.next cfg input).Inv := by
    refine ⟨hsystem, fun on => ⟨fun c => ?_, fun hne => ?_⟩⟩
    · rw [hasked, GpsSystem.fresh, hclients]
      exact hsound.books c
    · rw [GpsSystem.fresh, hclients] at hne ⊢
      exact hsound.opening hne
  refine ⟨hinv, (answered_iff hinv true).trans ⟨fun hp => ⟨fun c => ?_, fun hst => ?_⟩, fun hp =>
    ⟨fun c => ?_, fun hst => ?_⟩⟩⟩
  · have howes := hp.owes c
    rw [hasked, GpsSystem.fresh, hclients] at howes
    exact howes
  · have hsettled := hp.settled
    rw [GpsSystem.fresh, hclients] at hsettled
    exact hsettled hst
  · rw [hasked, GpsSystem.fresh, hclients]
    exact hp.owes c
  · rw [GpsSystem.fresh, hclients] at hst ⊢
    exact hp.settled hst

/-- An event without a handler. -/
theorem inv_idle (cfg : MnldCfg) (input : GpsInput) (h : s.Inv)
    (hnext : s.system.next cfg input = s.system)
    (hsaid : s.system.said cfg input = []) (hasked : s.asked input = s.ledger) :
    (s.next cfg input).Inv ∧ (s.Answered → (s.next cfg input).Answered) := by
  have heq : s.next cfg input = s := by
    rw [next, hnext, hsaid, hasked]
    rfl
  rw [heq]
  exact ⟨h, id⟩

theorem next_answered (cfg : MnldCfg) (h : s.Inv) (input : GpsInput) :
    (s.next cfg input).Inv ∧
      (s.Answered → ((s.next cfg input).Answered ↔ s.Flushed input)) := by
  have hsystem := (GpsSystem.next_follows cfg h.system input).1
  have hengine := h.system.engine
  cases input with
  | request r =>
    have hon : s.system.fresh.gps_state = .started ∨ s.system.fresh.gps_state = .oflStarted →
        s.system.engine.on = true := by
      intro hst
      rw [hengine]
      change s.system.mnld.gps_state = _ ∨ s.system.mnld.gps_state = _ at hst
      rcases hst with hst | hst
      · rw [hst]
        rfl
      · rw [hst]
        rfl
    obtain ⟨hsound, hpaid⟩ := Mnld.sound_handle cfg rfl
      (h.sound s.system.engine.on) hon r
    obtain ⟨hinv, hans⟩ := inv_handled cfg _ hsystem rfl rfl hsound
    refine ⟨hinv, fun ha => hans.trans
      ((hpaid ((answered_iff h s.system.engine.on).mp ha)).trans ?_)⟩
    cases r with
    | flpOflLinkOpen => exact ⟨fun hst => hst (.inl rfl), fun hst _ => hst⟩
    | gfcOflLinkOpen => exact ⟨fun hst => hst (.inr rfl), fun hst _ => hst⟩
    | _ => exact iff_of_true (fun hr => hr.elim (by rintro ⟨⟩) (by rintro ⟨⟩)) trivial
  | resetDone =>
    obtain ⟨hsound, hpaid⟩ := Mnld.sound_doGpsResetHdlr (h.sound s.system.engine.on)
    obtain ⟨hinv, hans⟩ := inv_handled cfg _ hsystem rfl rfl hsound
    exact ⟨hinv, fun ha => hans.trans
      (iff_of_true (hpaid ((answered_iff h s.system.engine.on).mp ha)) trivial)⟩
  | switchTimeout =>
    cases htimer : s.system.mnld.timer_switch_ofl_mode with
    | false =>
      obtain ⟨hinv, hans⟩ := inv_idle cfg .switchTimeout h
        (by rw [GpsSystem.next, htimer]; rfl) (by rw [GpsSystem.said, htimer]; rfl) rfl
      refine ⟨hinv, fun ha => iff_of_true (hans ha) fun htrue => ?_⟩
      rw [htimer] at htrue
      exact absurd htrue (by rintro ⟨⟩)
    | true =>
      have hcleared : Mnld.Sound s.system.engine.on s.ledger
          { s.system.fresh with timer_switch_ofl_mode := false } :=
        ⟨(h.sound _).books, (h.sound s.system.engine.on).opening⟩
      obtain ⟨hsound, hpaid⟩ := Mnld.sound_switchTimeout cfg hcleared
      obtain ⟨hinv, hans⟩ := inv_handled cfg .switchTimeout hsystem
        (by rw [GpsSystem.next, htimer]; rfl) (by rw [GpsSystem.said, htimer]; rfl) hsound
      refine ⟨hinv, fun ha => hans.trans ((hpaid ?_).trans ⟨fun hw _ => hw, fun hw => hw htimer⟩)⟩
      have hp := (answered_iff h s.system.engine.on).mp ha
      exact ⟨hp.owes, hp.settled⟩
  | answer si_assist_req =>
    -- an answer that is not waited for
    have hnone (hout : s.system.engine.outstanding = [])
        (hstart : s.system.mnld.gps_state ≠ .starting)
        (hofl : s.system.mnld.gps_state ≠ .oflStarting) :
        (s.next cfg (.answer si_assist_req)).Inv ∧ (s.Answered →
          ((s.next cfg (.answer si_assist_req)).Answered ↔ s.Flushed (.answer si_assist_req))) := by
      obtain ⟨hinv, hans⟩ := inv_idle cfg (.answer si_assist_req) h
        (by rw [GpsSystem.next, hout]) (by rw [GpsSystem.said, if_pos hout]) rfl
      refine ⟨hinv, fun ha => iff_of_true (hans ha) ?_⟩
      rintro (hst | ⟨hst, -⟩)
      · exact absurd hst hstart
      · exact absurd hst hofl
    -- the answer to a command, and what is left of it
    have hsome (command : EngineCommand) {m : Mnld} {on : Bool} {P : Prop}
        (hout : s.system.engine.outstanding = [command])
        (hnext : s.system.next cfg (.answer si_assist_req) =
          GpsSystem.handled { s.system.engine with on := on, outstanding := [] } m)
        (hm : Mnld.Sound on s.ledger m ∧
          ((∀ c, Owes (s.system.fresh.clients c) (s.system.fresh.asked on s.ledger c)) →
            (Mnld.Paid on s.ledger m ↔ P)))
        (hP : P ↔ s.Flushed (.answer si_assist_req)) :
        (s.next cfg (.answer si_assist_req)).Inv ∧ (s.Answered →
          ((s.next cfg (.answer si_assist_req)).Answered ↔ s.Flushed (.answer si_assist_req))) := by
      obtain ⟨hinv, hans⟩ := inv_handled cfg _ hsystem hnext
        (by rw [GpsSystem.said, if_neg (by rw [hout]; rintro ⟨⟩)]) hm.1
      exact ⟨hinv, fun ha => hans.trans ((hm.2 ((answered_iff h on).mp ha).owes).trans hP)⟩
    cases hst : s.system.mnld.gps_state with
    | idle | started | oflStarted =>
      rw [hst] at hengine
      exact hnone (by rw [hengine]; rfl) (by rw [hst]; rintro ⟨⟩) (by rw [hst]; rintro ⟨⟩)
    | starting =>
      rw [hst] at hengine
      refine hsome .start (by rw [hengine]; rfl) (by rw [GpsSystem.next, hengine]; rfl)
        (Mnld.sound_startDone_starting cfg (h.sound true) hst si_assist_req) ?_
      exact ⟨fun hclose _ => hclose, fun hclose => hclose (.inl hst)⟩
    | oflStarting =>
      rw [hst] at hengine
      refine hsome .start (by rw [hengine]; rfl) (by rw [GpsSystem.next, hengine]; rfl)
        (Mnld.sound_startDone_oflStarting cfg (h.sound true) hst si_assist_req) ?_
      constructor
      · rintro hclose (hst' | ⟨-, hno⟩)
        · rw [hst] at hst'
          exact absurd hst' (by rintro ⟨⟩)
        · exact hclose hno
      · exact fun hclose hno => hclose (.inr ⟨hst, hno⟩)
    | stopping =>
      rw [hst] at hengine
      obtain ⟨hsound, hpaid⟩ := Mnld.sound_stopDone_stopping cfg (h.sound false) hst
      refine hsome .stop (P := True) (by rw [hengine]; rfl)
        (by rw [GpsSystem.next, hengine]; rfl)
        ⟨hsound, fun howes => iff_of_true (hpaid howes) trivial⟩ (iff_of_true trivial ?_)
      rintro (hst' | ⟨hst', -⟩)
      · rw [hst] at hst'
        exact absurd hst' (by rintro ⟨⟩)
      · rw [hst] at hst'
        exact absurd hst' (by rintro ⟨⟩)
    | oflStopping =>
      rw [hst] at hengine
      obtain ⟨hsound, hpaid⟩ := Mnld.sound_stopDone_oflStopping cfg (h.sound false) hst
      refine hsome .stop (P := True) (by rw [hengine]; rfl)
        (by rw [GpsSystem.next, hengine]; rfl)
        ⟨hsound, fun howes => iff_of_true (hpaid howes) trivial⟩ (iff_of_true trivial ?_)
      rintro (hst' | ⟨hst', -⟩)
      · rw [hst] at hst'
        exact absurd hst' (by rintro ⟨⟩)
      · rw [hst] at hst'
        exact absurd hst' (by rintro ⟨⟩)

end AckSystem

/-- Along every run, every client is answered exactly if no event loses an acknowledgement. -/
theorem ackSystem_answered_iff (cfg : MnldCfg) (session : Client → Session)
    (inputs : List GpsInput) :
    (ackSystem cfg session).Along AckSystem.Answered (ackSystem cfg session).init inputs ↔
      (ackSystem cfg session).Meets AckSystem.Flushed (ackSystem cfg session).init inputs := by
  have htotal : ∀ s input, ∃ s', (ackSystem cfg session).step s input = some s' :=
    fun s input => ⟨_, rfl⟩
  have hinv : ∀ s input s', s.Inv → (ackSystem cfg session).step s input = some s' → s'.Inv := by
    intro s input s' h hstep
    cases hstep
    exact (AckSystem.next_answered cfg h input).1
  have hkeeps : ∀ s input s', s.Inv → s.Answered →
      (ackSystem cfg session).step s input = some s' → (s'.Answered ↔ s.Flushed input) := by
    intro s input s' h ha hstep
    cases hstep
    exact (AckSystem.next_answered cfg h input).2 ha
  have hinit : (ackSystem cfg session).init.Inv :=
    ⟨gpsSystem_init_inv cfg session, fun _ =>
      ⟨fun _ => ⟨fun _ => rfl, nofun, nofun, trivial⟩, fun _ _ hopen => absurd hopen nofun⟩⟩
  have hanswered : (ackSystem cfg session).init.Answered :=
    ⟨nofun, nofun, fun _ _ => ⟨rfl, rfl⟩⟩
  exact (ackSystem cfg session).along_iff_meets htotal hinv hkeeps hinit hanswered inputs

/-- The assistance client closes while the engine starts for the framework too: it is not
answered.  And the location client opens in offload mode while the receiver is on. -/
theorem ackSystem_not_answered :
    ¬ (ackSystem ⟨false, 0⟩ apSessions).Along AckSystem.Answered
        (ackSystem ⟨false, 0⟩ apSessions).init
        [.request .halGpsStart, .request .agpsOpenGpsReq, .request .agpsCloseGpsReq, .answer 0] ∧
      ¬ (ackSystem ⟨true, 1⟩ apSessions).Along AckSystem.Answered
        (ackSystem ⟨true, 1⟩ apSessions).init
        [.request .halGpsStart, .answer 0, .request .flpOflLinkOpen] := by
  constructor
  · intro h
    have hlast := (((h.2 _ rfl).2 _ rfl).2 _ rfl).2 _ rfl
    exact absurd (hlast.settled rfl .agps).2 nofun
  · intro h
    have hlast := ((h.2 _ rfl).2 _ rfl).2 _ rfl
    exact absurd (hlast.settled rfl .flp).1 nofun

end MtkHw.Gps
