import MtkHw.Gps.Mnld
import Mathlib.Tactic.Common

/-!
# The session machine follows its clients

Runs of the daemon with its engine.  What the engine is told depends on the state of the machine
alone (`EngineFits`), so an answer always comes in a state that waits for it.  Whether a client is
left alone is a matter of two steps: a session of an offload client that is switched when the
receiver has started, and the end of the offload mode while the test client uses the receiver
(`Attended`).
-/

namespace MtkHw.Gps

open Lib

namespace Mnld

variable {m m' m'' : Mnld}

/-! ## Who uses the receiver -/

/-- A client uses the receiver. -/
def Used (m : Mnld) (c : Client) : Prop := (m.clients c).gps_used = true

/-- No host based client uses the receiver. -/
def NoHbd (m : Mnld) : Prop := m.isAHbdGpsClientExist = false

theorem isAllGpsClientExit_iff : m.isAllGpsClientExit = true ↔ ∀ c, ¬ m.Used c := by
  simp only [isAllGpsClientExit, Bool.and_eq_true, Bool.not_eq_true', Used, Bool.not_eq_true]
  constructor
  · rintro ⟨⟨⟨⟨⟨⟨h1, h2⟩, h3⟩, h4⟩, h5⟩, h6⟩, h7⟩ c
    cases c with
    | hal => exact h1
    | agps => exact h2
    | flp => exact h3
    | flpTest => exact h4
    | geofence => exact h7
    | atCmdTest => exact h5
    | factory => exact h6
  · intro h
    exact ⟨⟨⟨⟨⟨⟨h .hal, h .agps⟩, h .flp⟩, h .flpTest⟩, h .atCmdTest⟩, h .factory⟩, h .geofence⟩

theorem isAGpsClientExist_eq : m.isAGpsClientExist = !m.isAllGpsClientExit := by
  simp only [isAGpsClientExist, isAllGpsClientExit, Bool.not_and, Bool.not_not]

theorem isAllHbdGpsClientExit_eq : m.isAllHbdGpsClientExit = !m.isAHbdGpsClientExist := by
  simp only [isAHbdGpsClientExist, isAllHbdGpsClientExit, Bool.not_or]

theorem exists_used_iff : (∃ c, m.Used c) ↔ ¬ m.isAllGpsClientExit = true := by
  rw [isAllGpsClientExit_iff, not_forall]
  exact exists_congr fun c => not_not.symm

/-- A client that is used is host based, or one of the offload clients. -/
theorem used_cases {c : Client} (h : m.Used c) :
    m.isAHbdGpsClientExist = true ∨ m.Used .flp ∨ m.Used .geofence ∨ m.Used .flpTest := by
  cases c with
  | flp => exact .inr (.inl h)
  | geofence => exact .inr (.inr (.inl h))
  | flpTest => exact .inr (.inr (.inr h))
  | hal | agps | atCmdTest | factory =>
    left
    simp only [Used] at h
    simp only [isAHbdGpsClientExist, h, Bool.true_or, Bool.or_true]

/-- A host based client uses the receiver. -/
theorem exists_used_of_hbd (h : m.isAHbdGpsClientExist = true) : ∃ c, m.Used c := by
  simp only [isAHbdGpsClientExist, Bool.or_eq_true] at h
  rcases h with ((h | h) | h) | h
  · exact ⟨.hal, h⟩
  · exact ⟨.agps, h⟩
  · exact ⟨.atCmdTest, h⟩
  · exact ⟨.factory, h⟩

/-! ## Handlers that only acknowledge -/

/-- Nothing has happened but acknowledgements. -/
structure Quietly (m m' : Mnld) : Prop where
  state : m'.gps_state = m.gps_state
  used : ∀ c, (m'.clients c).gps_used = (m.clients c).gps_used
  session : m'.session = m.session
  crashed : m'.crashed = m.crashed
  commands : m'.sent.filterMap engineCommand = m.sent.filterMap engineCommand

namespace Quietly

theorem refl (m : Mnld) : Quietly m m := ⟨rfl, fun _ => rfl, rfl, rfl, rfl⟩

theorem trans (h : Quietly m m') (h' : Quietly m' m'') : Quietly m m'' :=
  ⟨h'.state.trans h.state, fun c => (h'.used c).trans (h.used c), h'.session.trans h.session,
    h'.crashed.trans h.crashed, h'.commands.trans h.commands⟩

theorem isAllGpsClientExit (h : Quietly m m') :
    m'.isAllGpsClientExit = m.isAllGpsClientExit := by
  simp only [Mnld.isAllGpsClientExit, h.used]

theorem isAHbdGpsClientExist (h : Quietly m m') :
    m'.isAHbdGpsClientExist = m.isAHbdGpsClientExist := by
  simp only [Mnld.isAHbdGpsClientExist, h.used]

theorem exists_used (h : Quietly m m') : (∃ c, m'.Used c) ↔ ∃ c, m.Used c := by
  simp only [Used, h.used]

end Quietly

/-- Sending what is no command. -/
theorem quietly_send (m : Mnld) {outputs : List GpsOutput}
    (h : outputs.filterMap engineCommand = []) : Quietly m (m.send outputs) := by
  refine ⟨rfl, fun _ => rfl, rfl, rfl, ?_⟩
  rw [send, List.filterMap_append, h, List.append_nil]

/-- Writing the flags of a client. -/
theorem quietly_setClient (m : Mnld) (c : Client) {client : GpsClient}
    (h : client.gps_used = (m.clients c).gps_used) : Quietly m (m.setClient c client) := by
  refine ⟨rfl, fun c' => ?_, rfl, rfl, rfl⟩
  rw [setClient]
  dsimp only
  split
  · rename_i hc
    rw [h, hc]
  · rfl

theorem quietly_doGpsResetHdlr (m : Mnld) : Quietly m m.doGpsResetHdlr := by
  unfold doGpsResetHdlr
  split
  · refine Quietly.trans (quietly_setClient m .agps ?_) (quietly_send _ rfl)
    rfl
  · exact .refl m

theorem quietly_ackOpen (m : Mnld) (c : Client) {outputs : List GpsOutput}
    (h : outputs.filterMap engineCommand = []) : Quietly m (m.ackOpen c outputs) := by
  unfold ackOpen
  split
  · refine Quietly.trans (quietly_setClient m c ?_) (quietly_send _ h)
    rfl
  · exact .refl m

theorem quietly_ackClose (m : Mnld) (c : Client) {outputs : List GpsOutput}
    (h : outputs.filterMap engineCommand = []) : Quietly m (m.ackClose c outputs) := by
  unfold ackClose
  split
  · refine Quietly.trans (quietly_setClient m c ?_) (quietly_send _ h)
    rfl
  · exact .refl m

theorem quietly_doGpsStartedHdlr (m : Mnld) (cfg : MnldCfg) (si_assist_req : Int) :
    Quietly m (m.doGpsStartedHdlr cfg si_assist_req) := by
  have hreset (m' : Mnld) (h : Quietly m m') : Quietly m
      { m'.send [.controlGpsReset m'.delete_aiding_flag] with delete_aiding_flag := 0 } :=
    h.trans ⟨rfl, fun _ => rfl, rfl, rfl, (quietly_send m' rfl).commands⟩
  unfold doGpsStartedHdlr
  dsimp only
  split
  on_goal 1 => apply hreset
  all_goals
    exact (quietly_ackOpen m .hal rfl).trans <| (quietly_ackOpen _ .agps rfl).trans <|
      (quietly_ackOpen _ .flp rfl).trans <| (quietly_ackOpen _ .geofence rfl).trans <|
      (quietly_ackOpen _ .flpTest rfl).trans <| (quietly_ackOpen _ .atCmdTest rfl).trans <|
      (quietly_ackOpen _ .factory rfl).trans (quietly_doGpsResetHdlr _)

theorem quietly_doGpsStoppedHdlr (m : Mnld) (cfg : MnldCfg) :
    Quietly m (m.doGpsStoppedHdlr cfg) :=
  (quietly_ackClose m .hal rfl).trans <| (quietly_ackClose _ .agps rfl).trans <|
    (quietly_ackClose _ .flp rfl).trans <| (quietly_ackClose _ .geofence rfl).trans <|
    (quietly_ackClose _ .flpTest rfl).trans <| (quietly_ackClose _ .atCmdTest rfl).trans <|
    (quietly_ackClose _ .factory rfl).trans <| (quietly_send _ rfl).trans
    (quietly_doGpsResetHdlr _)

/-! ## The engine and the state -/

/-- The engine in a state of the machine. -/
def engineOf : GpsState → GpsEngine
  | .idle => ⟨false, [], false⟩
  | .starting | .oflStarting => ⟨false, [.start], false⟩
  | .started | .oflStarted => ⟨true, [], false⟩
  | .stopping | .oflStopping => ⟨true, [.stop], false⟩

/-- After a handler, the engine is the one of the state. -/
structure Fits (e : GpsEngine) (m : Mnld) : Prop where
  crashed : m.crashed = false
  engine : e.observe m.sent = engineOf m.gps_state
  offload : m.gps_state = .oflStarted → m.NoHbd

/-- In a state without an outstanding command, the receiver is on exactly if a client uses it. -/
def Served (m : Mnld) : Prop :=
  match m.gps_state with
  | .idle => ∀ c, ¬ m.Used c
  | .started | .oflStarted => ∃ c, m.Used c
  | _ => True

/-- Nothing is sent to the engine yet. -/
structure Unsent (m : Mnld) : Prop where
  crashed : m.crashed = false
  commands : m.sent.filterMap engineCommand = []

theorem Unsent.quietly (h : m.Unsent) (hq : Quietly m m') : m'.Unsent :=
  ⟨hq.crashed.trans h.crashed, hq.commands.trans h.commands⟩

variable {e : GpsEngine} {cfg : MnldCfg}

theorem fits_of_quietly (h : m.Unsent) (he : e = engineOf m.gps_state)
    (hoff : m.gps_state = .oflStarted → m.NoHbd) (hq : Quietly m m') : Fits e m' where
  crashed := (h.quietly hq).crashed
  engine := by
    rw [GpsEngine.observe, (h.quietly hq).commands, hq.state, he]
    rfl
  offload := by
    rw [hq.state, NoHbd, hq.isAHbdGpsClientExist]
    exact hoff

theorem served_of_quietly (hq : Quietly m m') : m'.Served ↔ m.Served := by
  unfold Served
  rw [hq.state]
  simp only [Used, hq.used]

/-- The engine is started while it is off. -/
theorem fits_controlGpsStart (h : m.Unsent) (he : e = engineOf .idle) {gps_state : GpsState}
    (hst : gps_state = .starting ∨ gps_state = .oflStarting) :
    Fits e (m.setState gps_state).controlGpsStart ∧
      (m.setState gps_state).controlGpsStart.Served := by
  have hobserve : e.observe (m.setState gps_state).controlGpsStart.sent =
      ⟨false, [.start], false⟩ := by
    change e.observe (m.sent ++ [.controlGpsStart m.delete_aiding_flag]) = _
    rw [GpsEngine.observe, List.filterMap_append, h.commands, he]
    rfl
  rcases hst with rfl | rfl
  · exact ⟨⟨h.crashed, hobserve, nofun⟩, trivial⟩
  · exact ⟨⟨h.crashed, hobserve, nofun⟩, trivial⟩

/-- The engine is stopped while it is on. -/
theorem fits_controlGpsStop (h : m.Unsent) (he : e = engineOf .started) {gps_state : GpsState}
    (hst : gps_state = .stopping ∨ gps_state = .oflStopping) :
    Fits e (m.controlGpsStop gps_state) ∧ (m.controlGpsStop gps_state).Served := by
  have hobserve : e.observe (m.controlGpsStop gps_state).sent = ⟨true, [.stop], false⟩ := by
    change e.observe (m.sent ++ [.controlGpsStop]) = _
    rw [GpsEngine.observe, List.filterMap_append, h.commands, he]
    rfl
  rcases hst with rfl | rfl
  · exact ⟨⟨h.crashed, hobserve, nofun⟩, trivial⟩
  · exact ⟨⟨h.crashed, hobserve, nofun⟩, trivial⟩

/-! ## Requests -/

/-- A start, when a client uses the receiver. -/
theorem fsm_start (h : m.Unsent) (he : e = engineOf m.gps_state) (hu : ∃ c, m.Used c) :
    Fits e (m.fsm cfg .start 0) ∧ (m.fsm cfg .start 0).Served := by
  have hstay (hst : m.gps_state ≠ .oflStarted) (hserved : m.Served) {m' : Mnld}
      (hq : Quietly m m') : Fits e m' ∧ m'.Served :=
    ⟨fits_of_quietly h he (fun hoff => absurd hoff hst) hq, (served_of_quietly hq).mpr hserved⟩
  unfold fsm
  split
  · rename_i hst
    rw [hst] at he
    exact fits_controlGpsStart h he (.inl rfl)
  · rename_i hst
    exact hstay (by rw [hst]; exact nofun) (by rw [Served, hst]; trivial) (.refl m)
  · rename_i hst
    exact hstay (by rw [hst]; exact nofun) (by rw [Served, hst]; exact hu)
      (quietly_doGpsStartedHdlr m cfg 0)
  · rename_i hst
    exact hstay (by rw [hst]; exact nofun) (by rw [Served, hst]; trivial) (.refl m)
  · rename_i hst
    exact hstay (by rw [hst]; exact nofun) (by rw [Served, hst]; trivial) (.refl m)
  · rename_i hst
    have hq := quietly_doGpsStartedHdlr m cfg 0
    rw [fsmGpsStateOflStarted]
    split
    · rw [hst] at he
      refine fits_controlGpsStop ⟨?_, ?_⟩ he (.inr rfl)
      · exact (h.quietly hq).crashed
      · exact (h.quietly hq).commands
    · rename_i hno
      rw [hq.isAHbdGpsClientExist, Bool.not_eq_true] at hno
      refine ⟨fits_of_quietly h he (fun _ => hno) hq, (served_of_quietly hq).mpr ?_⟩
      rw [Served, hst]
      exact hu
  · rename_i hst
    exact hstay (by rw [hst]; exact nofun) (by rw [Served, hst]; trivial) (.refl m)

/-- A start in offload mode. -/
theorem fsm_offloadStart (h : m.Unsent) (he : e = engineOf m.gps_state) (hu : ∃ c, m.Used c)
    (hoff : m.gps_state = .oflStarted → m.NoHbd) :
    Fits e (m.fsm cfg .offloadStart 0) ∧ (m.fsm cfg .offloadStart 0).Served := by
  have hstay (hserved : m.Served) : Fits e m ∧ m.Served :=
    ⟨fits_of_quietly h he hoff (.refl m), hserved⟩
  unfold fsm
  split
  · rename_i hst
    rw [hst] at he
    exact fits_controlGpsStart h he (.inr rfl)
  all_goals
    rename_i hst
    refine hstay ?_
    rw [Served, hst]
    first | exact hu | trivial

/-- A stop. -/
theorem fsm_stop (cfg : MnldCfg) (h : m.Unsent) (he : e = engineOf m.gps_state)
    (hoff : m.gps_state = .oflStarted → m.NoHbd) :
    Fits e (m.fsm cfg .stop 0) ∧
      ((m.gps_state = .idle → ∀ c, ¬ m.Used c) → (m.fsm cfg .stop 0).Served) := by
  have hstay (hserved : (m.gps_state = .idle → ∀ c, ¬ m.Used c) → m.Served) {m' : Mnld}
      (hq : Quietly m m') :
      Fits e m' ∧ ((m.gps_state = .idle → ∀ c, ¬ m.Used c) → m'.Served) :=
    ⟨fits_of_quietly h he hoff hq, fun hidle => (served_of_quietly hq).mpr (hserved hidle)⟩
  have hstopped {gps_state : GpsState} (he : e = engineOf .started)
      (hst : gps_state = .stopping ∨ gps_state = .oflStopping) :
      Fits e (m.controlGpsStop gps_state) ∧
        ((m.gps_state = .idle → ∀ c, ¬ m.Used c) → (m.controlGpsStop gps_state).Served) := by
    obtain ⟨hfits, hserved⟩ := fits_controlGpsStop h he hst
    exact ⟨hfits, fun _ => hserved⟩
  have hq := quietly_doGpsStoppedHdlr m cfg
  unfold fsm
  split
  · rename_i hst
    exact hstay (fun hidle => by rw [Served, hst]; exact hidle hst) hq
  · rename_i hst
    exact hstay (fun _ => by rw [Served, hst]; trivial) (.refl m)
  · rename_i hst
    rw [fsmGpsStateStarted]
    split
    · rw [hst] at he
      exact hstopped he (.inl rfl)
    · rename_i hsome
      have hserved : m.Served := by
        rw [Served, hst]
        exact exists_used_iff.mpr hsome
      dsimp only
      split
      · exact hstay (fun _ => hserved) (hq.trans ⟨rfl, fun _ => rfl, rfl, rfl, rfl⟩)
      · exact hstay (fun _ => hserved) hq
  · rename_i hst
    exact hstay (fun _ => by rw [Served, hst]; trivial) (.refl m)
  · rename_i hst
    exact hstay (fun _ => by rw [Served, hst]; trivial) (.refl m)
  · rename_i hst
    rw [fsmGpsStateOflStarted]
    split
    · rename_i huser
      refine hstay (fun _ => ?_) hq
      rw [Served, hst]
      rcases Bool.or_eq_true_iff.mp huser with hflp | hgfc
      · exact ⟨.flp, hflp⟩
      · exact ⟨.geofence, hgfc⟩
    · rw [hst] at he
      exact hstopped he (.inr rfl)
  · rename_i hst
    exact hstay (fun _ => by rw [Served, hst]; trivial) (.refl m)

/-- A reset does not touch the session. -/
theorem fsm_reset (cfg : MnldCfg) (h : m.Unsent) (he : e = engineOf m.gps_state)
    (hoff : m.gps_state = .oflStarted → m.NoHbd) :
    Fits e (m.fsm cfg .reset 0) ∧ (m.Served → (m.fsm cfg .reset 0).Served) := by
  have hstay {m' : Mnld} (hq : Quietly m m') : Fits e m' ∧ (m.Served → m'.Served) :=
    ⟨fits_of_quietly h he hoff hq, (served_of_quietly hq).mpr⟩
  have hq := quietly_doGpsResetHdlr m
  unfold fsm
  split
  · exact hstay hq
  · exact hstay (.refl m)
  · rw [fsmGpsStateStarted]
    split
    · exact hstay ⟨rfl, fun _ => rfl, rfl, rfl, (quietly_send m rfl).commands⟩
    · exact hstay (.refl m)
  · exact hstay hq
  · exact hstay (.refl m)
  · exact hstay (.refl m)
  · exact hstay hq

/-! ## Sessions that are switched -/

/-- What a switch of a session leaves as it is, and who is dropped. -/
structure Switched (m : Mnld) (c : Client) (type : Capability) (m' : Mnld) : Prop where
  state : m'.gps_state = m.gps_state
  crashed : m'.crashed = m.crashed
  commands : m'.sent.filterMap engineCommand = m.sent.filterMap engineCommand
  session : ∀ c', c' ≠ c → m'.session c' = m.session c'
  used : ∀ c', m'.Used c' ↔ m.Used c' ∧ (c' = c → (m.session c).pre_type = type)

theorem switched_switchSession (m : Mnld) (c : Client) (type : Capability) :
    Switched m c type (m.switchSession c type) := by
  rw [switchSession]
  split
  · rename_i hnew
    refine ⟨rfl, rfl, (quietly_send _ rfl).commands, fun c' hc' => if_neg hc', fun c' => ?_⟩
    by_cases hc : c' = c
    · subst hc
      refine iff_of_false ?_ fun h => hnew (h.2 rfl).symm
      change ¬ ((if c' = c' then _ else _ : GpsClient).gps_used = true)
      rw [if_pos rfl]
      exact Bool.false_ne_true
    · change (if c' = c then _ else m.clients c' : GpsClient).gps_used = true ↔ _
      rw [if_neg hc]
      exact ⟨fun h => ⟨h, fun heq => absurd heq hc⟩, fun h => h.1⟩
  · rename_i hold
    refine ⟨rfl, rfl, rfl, fun c' hc' => if_neg hc', fun c' => ?_⟩
    exact ⟨fun h => ⟨h, fun _ => (not_not.mp hold).symm⟩, fun h => h.1⟩

theorem switchSessions_used {type : Capability} {c : Client} :
    (m.switchSessions type).Used c ↔
      m.Used c ∧ (c = .flp ∨ c = .geofence → (m.session c).pre_type = type) := by
  have hflp := switched_switchSession m .flp type
  have hgfc := switched_switchSession (m.switchSession .flp type) .geofence type
  rw [switchSessions, hgfc.used, hflp.used, hflp.session .geofence nofun]
  constructor
  · rintro ⟨⟨hu, h1⟩, h2⟩
    refine ⟨hu, ?_⟩
    rintro (rfl | rfl)
    · exact h1 rfl
    · exact h2 rfl
  · rintro ⟨hu, h⟩
    refine ⟨⟨hu, ?_⟩, ?_⟩
    · rintro rfl
      exact h (.inl rfl)
    · rintro rfl
      exact h (.inr rfl)

theorem switchSessions_state {type : Capability} :
    (m.switchSessions type).gps_state = m.gps_state :=
  (switched_switchSession _ _ _).state.trans (switched_switchSession _ _ _).state

theorem Unsent.switchSessions (h : m.Unsent) (type : Capability) :
    (m.switchSessions type).Unsent where
  crashed := ((switched_switchSession _ _ _).crashed.trans
    (switched_switchSession _ _ _).crashed).trans h.crashed
  commands := ((switched_switchSession _ _ _).commands.trans
    (switched_switchSession _ _ _).commands).trans h.commands

/-- A state in which nothing is sent to the engine. -/
theorem fits_of_unsent (h : m.Unsent) (he : e = engineOf m.gps_state)
    (hoff : m.gps_state = .oflStarted → m.NoHbd) : Fits e m :=
  fits_of_quietly h he hoff (.refl m)

/-! ## Answers -/

/-- When the receiver has started, a client is left: there was none, or a host based session does
not end the sessions of the offload clients, or a client uses the receiver whose session goes on. -/
def ClientRemains (cfg : MnldCfg) (m : Mnld) : Prop :=
  (∃ c, m.Used c) → supportAutoSwitchMode cfg = true ∨
    ∃ c, m.Used c ∧ (c = .flp ∨ c = .geofence → (m.session c).pre_type = .apMode)

/-- The receiver has started. -/
theorem fsm_startDone_starting (cfg : MnldCfg) (h : m.Unsent) (hst : m.gps_state = .starting)
    (he : e = engineOf .started) (data1 : Int) :
    Fits e (m.fsm cfg .startDone data1) ∧
      ((m.fsm cfg .startDone data1).Served ↔ m.ClientRemains cfg) := by
  have hq := quietly_doGpsStartedHdlr m cfg data1
  have hu := h.quietly hq
  unfold fsm
  rw [hst]
  dsimp only
  rw [fsmGpsStateStarting]
  dsimp only
  split
  · rename_i hexit
    obtain ⟨hfits, hserved⟩ := fits_controlGpsStop hu he (.inl rfl)
    refine ⟨hfits, iff_of_true hserved fun hsome => ?_⟩
    rw [hq.isAllGpsClientExit] at hexit
    exact absurd hexit (exists_used_iff.mp hsome)
  · rename_i hsome
    rw [hq.isAllGpsClientExit, ← exists_used_iff] at hsome
    have hstarted : ((m.doGpsStartedHdlr cfg data1).setState .started).Unsent := ⟨hu.1, hu.2⟩
    split
    · rename_i hswitch
      refine ⟨fits_of_unsent (hstarted.switchSessions .apMode) ?_ ?_, ?_⟩
      · rw [switchSessions_state]
        exact he
      · rw [switchSessions_state]
        exact nofun
      · have hserved : ((((m.doGpsStartedHdlr cfg data1).setState .started).switchSessions
            .apMode).Served ↔ ∃ c, (((m.doGpsStartedHdlr cfg data1).setState
              .started).switchSessions .apMode).Used c) := by
          rw [Served, switchSessions_state]
          exact Iff.rfl
        refine hserved.trans ?_
        have hleft : ∀ c, (((m.doGpsStartedHdlr cfg data1).setState .started).switchSessions
            .apMode).Used c ↔ m.Used c ∧ (c = .flp ∨ c = .geofence →
              (m.session c).pre_type = .apMode) := by
          intro c
          rw [switchSessions_used]
          change (m.doGpsStartedHdlr cfg data1).Used c ∧ (_ →
            ((m.doGpsStartedHdlr cfg data1).session c).pre_type = _) ↔ _
          rw [hq.session, Used, hq.used]
          exact Iff.rfl
        simp only [hleft]
        constructor
        · exact fun hex _ => .inr hex
        · intro hremains
          rcases hremains hsome with hauto | hex
          · -- the switch is for a host based client, whose session goes on
            rw [hauto, Bool.not_true, Bool.or_false] at hswitch
            have hhbd : m.isAHbdGpsClientExist = true := by
              rw [← hq.isAHbdGpsClientExist]
              exact hswitch
            simp only [isAHbdGpsClientExist, Bool.or_eq_true] at hhbd
            rcases hhbd with ((hc | hc) | hc) | hc
            · exact ⟨.hal, hc, nofun⟩
            · exact ⟨.agps, hc, nofun⟩
            · exact ⟨.atCmdTest, hc, nofun⟩
            · exact ⟨.factory, hc, nofun⟩
          · exact hex
    · rename_i hswitch
      rw [Bool.or_eq_true, not_or, Bool.not_eq_true', Bool.not_eq_false] at hswitch
      refine ⟨⟨hu.1, ?_, nofun⟩, iff_of_true ?_ fun _ => .inl hswitch.2⟩
      · change e.observe (m.doGpsStartedHdlr cfg data1).sent = engineOf .started
        rw [GpsEngine.observe, hu.commands, he]
        rfl
      · obtain ⟨c, hc⟩ := hq.exists_used.mpr hsome
        exact ⟨c, hc⟩

/-- The receiver has started in offload mode. -/
theorem fsm_startDone_oflStarting (cfg : MnldCfg) (h : m.Unsent) (hst : m.gps_state = .oflStarting)
    (he : e = engineOf .started) (data1 : Int) :
    Fits e (m.fsm cfg .startDone data1) ∧ (m.fsm cfg .startDone data1).Served := by
  have hq := quietly_doGpsStartedHdlr m cfg data1
  have hu := h.quietly hq
  unfold fsm
  rw [hst]
  dsimp only
  rw [fsmGpsStateOflStarting]
  dsimp only
  split
  · exact fits_controlGpsStop hu he (.inr rfl)
  · rename_i hstays
    rw [Bool.or_eq_true, not_or, Bool.not_eq_true, Bool.not_eq_true] at hstays
    refine ⟨⟨hu.1, ?_, fun _ => hstays.2⟩, ?_⟩
    · change e.observe (m.doGpsStartedHdlr cfg data1).sent = engineOf .oflStarted
      rw [GpsEngine.observe, hu.commands, he]
      rfl
    · refine exists_used_iff.mpr ?_
      change ¬ (m.doGpsStartedHdlr cfg data1).isAllGpsClientExit = true
      rw [hstays.1]
      exact Bool.false_ne_true

/-- The receiver has stopped. -/
theorem fsm_stopDone_stopping (cfg : MnldCfg) (h : m.Unsent) (hst : m.gps_state = .stopping)
    (he : e = engineOf .idle) :
    Fits e (m.fsm cfg .stopDone 0) ∧ (m.fsm cfg .stopDone 0).Served := by
  have hq := quietly_doGpsStoppedHdlr m cfg
  have hu := h.quietly hq
  unfold fsm
  rw [hst]
  dsimp only
  rw [fsmGpsStateStopping]
  dsimp only
  split
  · exact fits_controlGpsStart hu he (.inl rfl)
  · rename_i hnone
    rw [isAGpsClientExist_eq, Bool.not_eq_true', Bool.not_eq_false, isAllGpsClientExit_iff]
      at hnone
    have hidle : ((m.doGpsStoppedHdlr cfg).setState .idle).Unsent := ⟨hu.1, hu.2⟩
    split
    · refine ⟨fits_of_unsent (hidle.switchSessions .apOflMode) ?_ ?_, ?_⟩
      · rw [switchSessions_state]
        exact he
      · rw [switchSessions_state]
        exact nofun
      · rw [Served, switchSessions_state]
        intro c hc
        exact hnone c (switchSessions_used.mp hc).1
    · exact ⟨fits_of_unsent hidle he nofun, hnone⟩

/-- The receiver has stopped in offload mode. -/
theorem fsm_stopDone_oflStopping (cfg : MnldCfg) (h : m.Unsent) (hst : m.gps_state = .oflStopping)
    (he : e = engineOf .idle) :
    Fits e (m.fsm cfg .stopDone 0) ∧
      ((m.fsm cfg .stopDone 0).Served ↔
        (m.Used .flpTest → m.isAHbdGpsClientExist = true ∨ m.Used .flp ∨ m.Used .geofence)) := by
  have hq := quietly_doGpsStoppedHdlr m cfg
  have hu := h.quietly hq
  unfold fsm
  rw [hst]
  dsimp only
  rw [fsmGpsStateOflStopping]
  dsimp only
  split
  · rename_i hagain
    obtain ⟨hfits, hserved⟩ := fits_controlGpsStart hu he (.inr rfl)
    refine ⟨hfits, iff_of_true hserved fun _ => .inr ?_⟩
    obtain ⟨huser, -⟩ := (Bool.and_eq_true_iff).mp hagain
    rcases Bool.or_eq_true_iff.mp huser with hflp | hgfc
    · exact .inl ((hq.used .flp).symm.trans hflp)
    · exact .inr ((hq.used .geofence).symm.trans hgfc)
  · rename_i hagain
    have hidle : ((m.doGpsStoppedHdlr cfg).setState .idle).Unsent := ⟨hu.1, hu.2⟩
    split
    · rename_i hhbd
      obtain ⟨hfits, hserved⟩ := fits_controlGpsStart (hidle.switchSessions .apMode) he (.inl rfl)
      refine ⟨hfits, iff_of_true hserved fun _ => .inl ?_⟩
      rw [← hq.isAHbdGpsClientExist]
      exact hhbd
    · rename_i hno
      have hnohbd : m.isAHbdGpsClientExist = false := by
        rw [← hq.isAHbdGpsClientExist]
        exact (Bool.not_eq_true _).mp hno
      have hnooff : ¬ m.Used .flp ∧ ¬ m.Used .geofence := by
        rw [isAllHbdGpsClientExit_eq, hq.isAHbdGpsClientExist, hnohbd, Bool.not_false,
          Bool.and_true, Bool.or_eq_true, not_or] at hagain
        exact ⟨fun hc => hagain.1 ((hq.used .flp).trans hc),
          fun hc => hagain.2 ((hq.used .geofence).trans hc)⟩
      -- only the test client can be left
      have honly : (∀ c, ¬ m.Used c) ↔
          (m.Used .flpTest → m.isAHbdGpsClientExist = true ∨ m.Used .flp ∨ m.Used .geofence) := by
        constructor
        · exact fun hnone htest => absurd htest (hnone .flpTest)
        · intro htest c hc
          rcases used_cases hc with hhbd | hflp | hgfc | htst
          · rw [hnohbd] at hhbd
            exact Bool.false_ne_true hhbd
          · exact hnooff.1 hflp
          · exact hnooff.2 hgfc
          · rcases htest htst with hhbd | hflp | hgfc
            · rw [hnohbd] at hhbd
              exact Bool.false_ne_true hhbd
            · exact hnooff.1 hflp
            · exact hnooff.2 hgfc
      have hsame (c : Client) : (m.doGpsStoppedHdlr cfg).Used c ↔ m.Used c := by
        rw [Used, hq.used]
        exact Iff.rfl
      split
      · refine ⟨fits_of_unsent (hidle.switchSessions .apOflMode) ?_ ?_, ?_⟩
        · rw [switchSessions_state]
          exact he
        · rw [switchSessions_state]
          exact nofun
        · refine Iff.trans ?_ honly
          rw [Served, switchSessions_state]
          refine forall_congr' fun c => not_congr ?_
          rw [switchSessions_used]
          refine ⟨fun hc => (hsame c).mp hc.1, fun hc => ⟨(hsame c).mpr hc, ?_⟩⟩
          rintro (rfl | rfl)
          · exact absurd hc hnooff.1
          · exact absurd hc hnooff.2
      · refine ⟨fits_of_unsent hidle he nofun, Iff.trans ?_ honly⟩
        exact forall_congr' fun c => not_congr (hsame c)

/-! ## Handlers of the clients -/

/-- Host based clients do not come with offload clients. -/
theorem NoHbd.mono (h : m.NoHbd)
    (hused : ∀ c, c ≠ .flp → c ≠ .geofence → m'.Used c → m.Used c) : m'.NoHbd := by
  rw [NoHbd, isAHbdGpsClientExist, Bool.or_eq_false_iff, Bool.or_eq_false_iff,
    Bool.or_eq_false_iff] at h ⊢
  obtain ⟨⟨⟨h1, h2⟩, h3⟩, h4⟩ := h
  have hno (c : Client) (hf : c ≠ .flp) (hg : c ≠ .geofence)
      (hc : (m.clients c).gps_used = false) : (m'.clients c).gps_used = false := by
    refine (Bool.not_eq_true _).mp fun hu => ?_
    have hold : (m.clients c).gps_used = true := hused c hf hg hu
    rw [hc] at hold
    exact Bool.false_ne_true hold
  exact ⟨⟨⟨hno .hal nofun nofun h1, hno .agps nofun nofun h2⟩, hno .atCmdTest nofun nofun h3⟩,
    hno .factory nofun nofun h4⟩

theorem used_setClient_self {c : Client} {client : GpsClient} (h : client.gps_used = true) :
    (m.setClient c client).Used c := by
  change (if c = c then client else m.clients c).gps_used = true
  rw [if_pos rfl]
  exact h

theorem used_of_used_setClient {c c' : Client} {client : GpsClient}
    (h : (m.setClient c client).Used c') (hc : c' ≠ c ∨ client.gps_used = false) : m.Used c' := by
  change (if c' = c then client else m.clients c').gps_used = true at h
  split at h
  · rename_i heq
    rcases hc with hne | hno
    · exact absurd heq hne
    · rw [hno] at h
      exact absurd h Bool.false_ne_true
  · exact h

/-- A client opens the receiver. -/
theorem fits_openGps (h : m.Unsent) (he : e = engineOf m.gps_state) (c : Client) (ack : Bool) :
    Fits e (m.openGps c ack .start cfg) ∧ (m.openGps c ack .start cfg).Served :=
  fsm_start ⟨h.1, h.2⟩ he ⟨c, used_setClient_self rfl⟩

/-- An offload client opens the receiver in offload mode. -/
theorem fits_openGps_offload (h : m.Unsent) (he : e = engineOf m.gps_state)
    (hoff : m.gps_state = .oflStarted → m.NoHbd) {c : Client} (hc : c = .flp ∨ c = .geofence) :
    Fits e ((m.setSession c { m.session c with type := .oflMode }).openGps c true .offloadStart
        cfg) ∧
      ((m.setSession c { m.session c with type := .oflMode }).openGps c true .offloadStart
        cfg).Served := by
  refine fsm_offloadStart ⟨h.1, h.2⟩ he ⟨c, used_setClient_self rfl⟩ fun hst => ?_
  refine (hoff hst).mono fun c' hflp hgfc hu => ?_
  refine used_of_used_setClient hu (.inl ?_)
  rintro rfl
  rcases hc with rfl | rfl
  · exact hflp rfl
  · exact hgfc rfl

/-- A client does not use the receiver any more. -/
theorem fits_leave (cfg : MnldCfg) (he : e = engineOf m.gps_state)
    (hoff : m.gps_state = .oflStarted → m.NoHbd) {m' : Mnld} (hm' : m'.Unsent)
    (hst : m'.gps_state = m.gps_state) (hused : ∀ c, m'.Used c → m.Used c) :
    Fits e (m'.fsm cfg .stop 0) ∧ (m.Served → (m'.fsm cfg .stop 0).Served) := by
  have he' : e = engineOf m'.gps_state := he.trans (congrArg engineOf hst.symm)
  obtain ⟨hfits, hserved⟩ := fsm_stop cfg hm' he' fun hofl => by
    rw [hst] at hofl
    exact (hoff hofl).mono fun c _ _ hc => hused c hc
  refine ⟨hfits, fun hold => hserved fun hidle c hc => ?_⟩
  rw [hst] at hidle
  rw [Served, hidle] at hold
  exact hold c (hused c hc)

theorem fits_closeGps (h : m.Unsent) (he : e = engineOf m.gps_state)
    (hoff : m.gps_state = .oflStarted → m.NoHbd) (c : Client) (ack : Bool) :
    Fits e (m.closeGps c ack cfg) ∧ (m.Served → (m.closeGps c ack cfg).Served) :=
  fits_leave _ he hoff ⟨h.1, h.2⟩ rfl fun _ hc' => used_of_used_setClient hc' (.inr rfl)

theorem fits_rebootClient (h : m.Unsent) (he : e = engineOf m.gps_state)
    (hoff : m.gps_state = .oflStarted → m.NoHbd) (c : Client) :
    Fits e (m.rebootClient c cfg) ∧ (m.Served → (m.rebootClient c cfg).Served) :=
  fits_leave _ he hoff ⟨h.1, h.2⟩ rfl fun _ hc' => used_of_used_setClient hc' (.inr rfl)

/-- A reset is asked for. -/
theorem fits_resetReq (h : m.Unsent) (he : e = engineOf m.gps_state)
    (hoff : m.gps_state = .oflStarted → m.NoHbd) {m' : Mnld} (hq : Quietly m m') :
    Fits e (m'.fsm cfg .reset 0) ∧ (m.Served → (m'.fsm cfg .reset 0).Served) := by
  have he' : e = engineOf m'.gps_state := he.trans (congrArg engineOf hq.state.symm)
  obtain ⟨hfits, hserved⟩ := fsm_reset cfg (h.quietly hq) he' fun hst => by
    rw [hq.state] at hst
    rw [NoHbd, hq.isAHbdGpsClientExist]
    exact hoff hst
  exact ⟨hfits, fun hold => hserved ((served_of_quietly hq).mpr hold)⟩

theorem fits_handle (cfg : MnldCfg) (h : m.Unsent) (he : e = engineOf m.gps_state)
    (hoff : m.gps_state = .oflStarted → m.NoHbd) (r : GpsRequest) :
    Fits e (r.handle cfg m) ∧ (m.Served → (r.handle cfg m).Served) := by
  have hopened {m' : Mnld} (hm' : Fits e m' ∧ m'.Served) : Fits e m' ∧ (m.Served → m'.Served) :=
    ⟨hm'.1, fun _ => hm'.2⟩
  cases r with
  | halReboot | agpsReboot | flpReboot | gfcReboot => exact fits_rebootClient h he hoff _
  | halGpsStart | agpsOpenGpsReq | flpHbdGpsOpen | gfcHbdGpsOpen | flpTestGpsStart
  | factoryMnldGpsStart | atTestGpsStart =>
    exact hopened (fits_openGps h he _ _)
  | halGpsStop | agpsCloseGpsReq | flpHbdGpsClose | flpOflLinkClose | gfcHbdGpsClose
  | gfcOflLinkClose | flpTestGpsStop | factoryMnldGpsStop | atTestGpsStop =>
    exact fits_closeGps h he hoff _ _
  | flpOflLinkOpen => exact hopened (fits_openGps_offload h he hoff (.inl rfl))
  | gfcOflLinkOpen => exact hopened (fits_openGps_offload h he hoff (.inr rfl))
  | halGpsDeleteAidingData flags =>
    refine fits_resetReq h he hoff ?_
    have hq : Quietly m
        (m.setClient .hal { m.clients .hal with need_reset_ack := false }) :=
      quietly_setClient m .hal rfl
    exact ⟨hq.state, hq.used, hq.session, hq.crashed, hq.commands⟩
  | agpsResetGpsReq flags =>
    change Fits e (m.agpsResetGpsReq flags cfg) ∧ (m.Served → (m.agpsResetGpsReq flags cfg).Served)
    rw [agpsResetGpsReq]
    split
    · have hq : Quietly m (m.send [.agpsResetGpsDone]) := quietly_send m rfl
      exact ⟨fits_of_quietly h he hoff hq, (served_of_quietly hq).mpr⟩
    · refine fits_resetReq h he hoff ?_
      have hq : Quietly m
          (m.setClient .agps { m.clients .agps with need_reset_ack := true }) :=
        quietly_setClient m .agps rfl
      exact ⟨hq.state, hq.used, hq.session, hq.crashed, hq.commands⟩

end Mnld

/-! ## Runs -/

namespace GpsSystem

variable {cfg : MnldCfg} {s : GpsSystem}

/-- The engine fits the state, and the receiver is in offload mode for offload clients only. -/
structure Inv (s : GpsSystem) : Prop where
  crashed : s.mnld.crashed = false
  engine : s.engine = Mnld.engineOf s.mnld.gps_state
  offload : s.mnld.gps_state = .oflStarted → s.mnld.NoHbd

/-- The machine follows its clients: it has not crashed, the engine was started only while it was
off and stopped only while it was on, and with no command outstanding the machine is idle exactly
if no client uses the receiver. -/
structure Follows (s : GpsSystem) : Prop where
  crashed : s.mnld.crashed = false
  engine : s.engine.misused = false
  idle : s.engine.outstanding = [] → (s.mnld.gps_state = .idle ↔ ∀ c, ¬ s.mnld.Used c)
  started : s.engine.outstanding = [] → s.mnld.gps_state ≠ .idle →
    s.mnld.gps_state = .started ∨ s.mnld.gps_state = .oflStarted

/-- The two answers that can leave the machine without its clients. -/
def Attended (cfg : MnldCfg) (s : GpsSystem) : GpsInput → Prop
  | .answer _ =>
    (s.mnld.gps_state = .starting → s.mnld.ClientRemains cfg) ∧
      (s.mnld.gps_state = .oflStopping → s.mnld.Used .flpTest →
        s.mnld.isAHbdGpsClientExist = true ∨ s.mnld.Used .flp ∨ s.mnld.Used .geofence)
  | _ => True

theorem follows_iff (h : s.Inv) : s.Follows ↔ s.mnld.Served := by
  have hengine := h.engine
  rw [Mnld.Served]
  cases hst : s.mnld.gps_state with
  | idle =>
    rw [hst] at hengine
    constructor
    · intro hf
      exact (hf.idle (by rw [hengine]; rfl)).mp hst
    · intro hnone
      exact ⟨h.crashed, by rw [hengine]; rfl, fun _ => iff_of_true hst hnone,
        fun _ hne => absurd hst hne⟩
  | started | oflStarted =>
    rw [hst] at hengine
    constructor
    · intro hf
      by_contra hnone
      have hidle := (hf.idle (by rw [hengine]; rfl)).mpr (not_exists.mp hnone)
      rw [hst] at hidle
      exact absurd hidle nofun
    · rintro ⟨c, hc⟩
      refine ⟨h.crashed, by rw [hengine]; rfl, fun _ => iff_of_false ?_ fun hnone => hnone c hc,
        fun _ _ => by rw [hst]; first | exact .inl rfl | exact .inr rfl⟩
      rw [hst]
      exact nofun
  | starting | oflStarting | stopping | oflStopping =>
    rw [hst] at hengine
    refine iff_of_true ⟨h.crashed, by rw [hengine]; rfl, fun hnone => ?_, fun hnone => ?_⟩ trivial
    all_goals
      rw [hengine] at hnone
      exact absurd hnone nofun

/-- A handler that fits. -/
theorem inv_handled {e : GpsEngine} {m : Mnld} (h : Mnld.Fits e m) : (handled e m).Inv :=
  ⟨h.crashed, h.engine, h.offload⟩

/-- One event: the invariant is kept, and the machine goes on following its clients exactly if the
event does not leave it without them. -/
theorem next_follows (cfg : MnldCfg) (h : s.Inv) (input : GpsInput) :
    (s.next cfg input).Inv ∧
      (s.Follows → ((s.next cfg input).Follows ↔ s.Attended cfg input)) := by
  have hunsent : s.fresh.Unsent := ⟨h.crashed, rfl⟩
  have hfollows : s.Follows → s.fresh.Served := (follows_iff h).mp
  -- a handler after which the machine is followed under a condition
  have hdone {e : GpsEngine} {m : Mnld} {P : Prop} (hfits : Mnld.Fits e m)
      (hiff : s.fresh.Served → (m.Served ↔ P)) :
      (handled e m).Inv ∧ (s.Follows → ((handled e m).Follows ↔ P)) :=
    ⟨inv_handled hfits, fun hf => (follows_iff (inv_handled hfits)).trans (hiff (hfollows hf))⟩
  -- the condition is about two states only
  have hattended (input : GpsInput) (h1 : s.mnld.gps_state ≠ .starting)
      (h2 : s.mnld.gps_state ≠ .oflStopping) : s.Attended cfg input := by
    cases input with
    | answer si_assist_req => exact ⟨fun hst => absurd hst h1, fun hst => absurd hst h2⟩
    | request _ | resetDone | switchTimeout => trivial
  cases input with
  | request r =>
    obtain ⟨hfits, hserved⟩ := Mnld.fits_handle cfg hunsent h.engine h.offload r
    exact hdone hfits fun hold => iff_of_true (hserved hold) trivial
  | resetDone =>
    have hq := Mnld.quietly_doGpsResetHdlr s.fresh
    exact hdone (Mnld.fits_of_quietly hunsent h.engine h.offload hq) fun hold =>
      iff_of_true ((Mnld.served_of_quietly hq).mpr hold) trivial
  | switchTimeout =>
    rw [next]
    split
    · rw [Mnld.gpsSwitchOflModeTimeout]
      split
      · have hused : ∀ c, ((({ s.fresh with timer_switch_ofl_mode := false } : Mnld).clearClient
            .flp).clearClient .geofence).Used c → s.fresh.Used c := fun c hc =>
          Mnld.used_of_used_setClient (Mnld.used_of_used_setClient hc (.inr rfl)) (.inr rfl)
        have hcleared : ((({ s.fresh with timer_switch_ofl_mode := false } : Mnld).clearClient
            .flp).clearClient .geofence).Unsent := ⟨h.crashed, rfl⟩
        obtain ⟨hfits, hserved⟩ := Mnld.fits_leave cfg (m := s.fresh) h.engine h.offload
          hcleared rfl hused
        exact hdone hfits fun hold => iff_of_true (hserved hold) trivial
      · exact hdone ⟨h.crashed, h.engine, h.offload⟩ fun hold => iff_of_true hold trivial
    · exact ⟨h, fun hf => iff_of_true hf trivial⟩
  | answer si_assist_req =>
    have hengine := h.engine
    rw [next]
    cases hst : s.mnld.gps_state with
    | idle | started | oflStarted =>
      rw [hst] at hengine
      rw [hengine]
      exact ⟨h, fun hf => iff_of_true hf
        (hattended _ (by rw [hst]; exact nofun) (by rw [hst]; exact nofun))⟩
    | starting =>
      rw [hst] at hengine
      rw [hengine]
      obtain ⟨hfits, hiff⟩ := Mnld.fsm_startDone_starting cfg hunsent hst rfl
        si_assist_req
      refine hdone hfits fun _ => hiff.trans
        ⟨fun hr => ⟨fun _ => hr, fun heq => ?_⟩, fun ha => ha.1 hst⟩
      rw [hst] at heq
      exact absurd heq nofun
    | oflStarting =>
      rw [hst] at hengine
      rw [hengine]
      obtain ⟨hfits, hs⟩ := Mnld.fsm_startDone_oflStarting cfg hunsent hst rfl
        si_assist_req
      exact hdone hfits fun _ => iff_of_true hs
        (hattended _ (by rw [hst]; exact nofun) (by rw [hst]; exact nofun))
    | stopping =>
      rw [hst] at hengine
      rw [hengine]
      obtain ⟨hfits, hs⟩ := Mnld.fsm_stopDone_stopping cfg hunsent hst rfl
      exact hdone hfits fun _ => iff_of_true hs
        (hattended _ (by rw [hst]; exact nofun) (by rw [hst]; exact nofun))
    | oflStopping =>
      rw [hst] at hengine
      rw [hengine]
      obtain ⟨hfits, hiff⟩ := Mnld.fsm_stopDone_oflStopping cfg hunsent hst rfl
      refine hdone hfits fun _ => hiff.trans
        ⟨fun hr => ⟨fun heq => ?_, fun _ => hr⟩, fun ha => ha.2 hst⟩
      rw [hst] at heq
      exact absurd heq nofun

end GpsSystem

theorem gpsSystem_init_inv (cfg : MnldCfg) (session : Client → Session) :
    (gpsSystem cfg session).init.Inv := ⟨rfl, rfl, nofun⟩

theorem gpsSystem_step_inv (cfg : MnldCfg) (session : Client → Session) (s : GpsSystem)
    (input : GpsInput) (s' : GpsSystem) (h : s.Inv)
    (hstep : (gpsSystem cfg session).step s input = some s') : s'.Inv := by
  cases hstep
  exact (GpsSystem.next_follows cfg h input).1

/-- On every run the machine does not crash, and the engine is started only while it is off and
stopped only while it is on; and it follows its clients along a run exactly if no answer of the
engine leaves it without them. -/
theorem gpsSystem_follows_iff (cfg : MnldCfg) (session : Client → Session)
    (inputs : List GpsInput) :
    (gpsSystem cfg session).Along
        (fun s => s.mnld.crashed = false ∧ s.engine.misused = false)
        (gpsSystem cfg session).init inputs ∧
      ((gpsSystem cfg session).Along GpsSystem.Follows (gpsSystem cfg session).init inputs ↔
        (gpsSystem cfg session).Meets (GpsSystem.Attended cfg) (gpsSystem cfg session).init
          inputs) := by
  have htotal : ∀ s input, ∃ s', (gpsSystem cfg session).step s input = some s' :=
    fun s input => ⟨_, rfl⟩
  have hinit := gpsSystem_init_inv cfg session
  have hinv := gpsSystem_step_inv cfg session
  have hkeeps : ∀ s input s', s.Inv → s.Follows →
      (gpsSystem cfg session).step s input = some s' →
        (s'.Follows ↔ s.Attended cfg input) := by
    intro s input s' h hf hstep
    cases hstep
    exact (GpsSystem.next_follows cfg h input).2 hf
  have hsafe : ∀ s : GpsSystem, s.Inv → s.mnld.crashed = false ∧ s.engine.misused = false := by
    intro s h
    refine ⟨h.crashed, ?_⟩
    rw [h.engine]
    cases s.mnld.gps_state with
    | idle | starting | started | stopping | oflStarting | oflStarted | oflStopping => rfl
  have hfollows : (gpsSystem cfg session).init.Follows :=
    (GpsSystem.follows_iff hinit).mpr fun _ => Bool.false_ne_true
  exact ⟨(gpsSystem cfg session).along_of_invariant hinv hsafe hinit inputs,
    (gpsSystem cfg session).along_iff_meets htotal hinv hkeeps hinit hfollows inputs⟩

/-- The sessions of the offload clients when the daemon is built without a choice of the chip. -/
def apSessions : Client → Session := fun _ => ⟨.apMode, .apMode, 1⟩

/-- With the offload mode always on, the second session of the receiver starts for the location
client and drops it; and the test client is left when the offload mode ends. -/
theorem gpsSystem_not_follows :
    ¬ (gpsSystem ⟨true, 0⟩ apSessions).Along GpsSystem.Follows
        (gpsSystem ⟨true, 0⟩ apSessions).init
        [.request .halGpsStart, .answer 0, .request .halGpsStop, .answer 0,
          .request .flpHbdGpsOpen, .answer 0] ∧
      ¬ (gpsSystem ⟨true, 1⟩ apSessions).Along GpsSystem.Follows
        (gpsSystem ⟨true, 1⟩ apSessions).init
        [.request .flpOflLinkOpen, .answer 0, .request .flpTestGpsStart,
          .request .flpOflLinkClose, .answer 0] := by
  constructor
  · intro h
    have hlast := (((((h.2 _ rfl).2 _ rfl).2 _ rfl).2 _ rfl).2 _ rfl).2 _ rfl
    have hnone := (hlast.idle rfl).mpr fun c => by
      cases c with
      | hal | agps | flp | flpTest | geofence | atCmdTest | factory => exact nofun
    exact absurd hnone nofun
  · intro h
    have hlast := ((((h.2 _ rfl).2 _ rfl).2 _ rfl).2 _ rfl).2 _ rfl
    exact (hlast.idle rfl).mp rfl .flpTest rfl

end MtkHw.Gps
