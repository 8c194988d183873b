import MtkHw.Lib.Machine
import MtkHw.Mux.Command
import MtkHw.Mux.Transmit

/-!
# Acknowledging commands: `write_tx_msc_response`

`handle_command` leaves the acknowledgement of a command in
`tx_msc_response_cache` and signals; the thread `write_tx_msc_response` takes it
from there and writes it on DLCI 0.  The cache holds one acknowledgement, its
length is found with `strlen`, and the signal is sent without the mutex of the
wait.

The model interleaves the two threads at every access to the cache and to the
condition variable.  `after` is what the heap holds behind the cached block when
`strlen` runs into it.
-/

namespace MtkHw.Mux

open Lib

/-- The string that starts a piece of memory: `strlen` stops at the first NUL. -/
def cString (memory : List UInt8) : List UInt8 := memory.takeWhile (· ≠ 0)

/-- Where the receiving thread is. -/
inductive RxPc where
  | /-- Between two commands. -/ idle
  | /-- In `handle_command`, about to fill the cache. -/ storing (data : List UInt8)
  | /-- About to signal. -/ signalling
deriving DecidableEq, Repr

/-- Where `write_tx_msc_response` is. -/
inductive RespPc where
  | /-- About to test the cache. -/ top
  | /-- Has found the cache empty, about to wait. -/ toWait
  | /-- In `pthread_cond_wait`. -/ waiting
  | /-- About to take what is in the cache. -/ taking
  | /-- About to write. -/ sending (tmp : List UInt8)
  | /-- Has read through a null pointer. -/ crashed
deriving DecidableEq, Repr

/-- The two threads and what they share. -/
structure RespState (cfg : MuxConfig) where
  /-- `tx_msc_response_cache` -/
  cache : Option (List UInt8)
  rx : RxPc
  resp : RespPc
  st : CommandState
  tx : TxState
  /-- History: the commands received. -/
  received : List (SupportedCommand cfg)

/-- One step of either thread. -/
inductive RespAct (cfg : MuxConfig) where
  | /-- A command arrives. -/ receive (c : SupportedCommand cfg)
  | /-- The cache is filled. -/ store
  | /-- `pthread_cond_signal` -/ signal
  | /-- The responder tests the cache. -/ test
  | /-- The responder begins to wait. -/ wait
  | /-- The wait ends without a signal. -/ spurious
  | /-- The responder takes what is in the cache. -/ take (after : List UInt8)
  | /-- The responder writes a frame. -/ send

namespace RespState

variable {cfg : MuxConfig}

/-- The payloads of the frames that the responder has written. -/
def responses (s : RespState cfg) : List (List UInt8) := s.tx.framesWritten.map GSM0710Frame.data

/-- The responses that are due: one for each command, in order. -/
def due (s : RespState cfg) : List (List UInt8) := s.received.map SupportedCommand.response

def step (cmuxMode : Bool) (s : RespState cfg) : RespAct cfg → Option (RespState cfg)
  | .receive c =>
      if s.rx = .idle then
        (handleCommand s.st c.data).map fun result =>
          let s := { s with st := result.st, received := s.received ++ [c] }
          match result.reply with
          | .ack data => { s with rx := .storing data }
          | .nsc response =>
              { s with tx :=
                  (writeFrame cfg cmuxMode s.tx 0 response response.length gsm0710TypeUih).2 }
          | .nothing => s
      else none
  | .store =>
      match s.rx with
      | .storing data => some { s with cache := some data, rx := .signalling }
      | _ => none
  | .signal =>
      if s.rx = .signalling then
        some { s with rx := .idle, resp := if s.resp = .waiting then .taking else s.resp }
      else none
  | .test =>
      if s.resp = .top then some { s with resp := if s.cache.isNone then .toWait else .taking }
      else none
  | .wait => if s.resp = .toWait then some { s with resp := .waiting } else none
  | .spurious => if s.resp = .waiting then some { s with resp := .taking } else none
  | .take after =>
      if s.resp = .taking then
        match s.cache with
        | none => some { s with resp := .crashed }
        | some block => some { s with cache := none, resp := .sending (cString (block ++ after)) }
      else none
  | .send =>
      match s.resp with
      | .sending tmp =>
          let tx := (writeFrame cfg cmuxMode s.tx 0 tmp tmp.length gsm0710TypeUih).2
          some { s with tx, resp := .top }
      | _ => none

/-- No command has arrived, and the responder is about to test the cache. -/
def init (st : CommandState) : RespState cfg := ⟨none, .idle, .top, st, {}, []⟩

end RespState

/-- The two threads; `st` is what the commands find. -/
def respMachine (cfg : MuxConfig) (cmuxMode : Bool) (st : CommandState) :
    Machine (RespState cfg) (RespAct cfg) := ⟨RespState.init st, RespState.step cmuxMode⟩

/-! ## Faithful acknowledgement -/

/-- The responder is alive, what it has written is the first of what is due, and
when the threads have come to rest it is all of it. -/
structure Faithful {cfg : MuxConfig} (s : RespState cfg) : Prop where
  alive : s.resp ≠ .crashed
  responses_prefix : s.responses <+: s.due
  rest : s.rx = .idle → s.resp = .waiting → s.responses = s.due

/-- The conditions on a step: nothing unsent is overwritten; the responder does
not begin to wait when a response is cached and its signal is gone; it does not
read an empty cache; and `strlen` finds the length of what it reads. -/
def RespCond {cfg : MuxConfig} (s : RespState cfg) : RespAct cfg → Prop
  | .store => s.cache = none
  | .wait => s.rx = .idle → s.cache = none
  | .take after => ∃ block, s.cache = some block ∧ 0 ∉ block ∧ cString after = []
  | _ => True

/-- What the responder has taken and not written. -/
def RespPc.held : RespPc → List (List UInt8)
  | .sending tmp => [tmp]
  | _ => []

/-- What the receiving thread has acknowledged and not stored. -/
def RxPc.held : RxPc → List (List UInt8)
  | .storing data => [data]
  | _ => []

/-- What has been acknowledged and is not written yet, oldest first. -/
def RespState.inFlight {cfg : MuxConfig} (s : RespState cfg) : List (List UInt8) :=
  s.resp.held ++ s.cache.toList ++ s.rx.held

/-- What the runs that meet the conditions keep. -/
structure RespInv {cfg : MuxConfig} (s : RespState cfg) : Prop where
  alive : s.resp ≠ .crashed
  account : s.responses ++ s.inFlight = s.due
  rest : s.rx = .idle → s.resp = .waiting → s.cache = none
  fullWrites : s.tx.FullWrites
  running : s.tx.stopMuxd = false

theorem cString_of_notMem {block after : List UInt8} (hblock : 0 ∉ block)
    (hafter : cString after = []) : cString (block ++ after) = block := by
  unfold cString at *
  rw [List.takeWhile_append_of_pos, hafter, List.append_nil]
  intro b hb
  have hne : b ≠ 0 := fun hzero => hblock (hzero ▸ hb)
  simpa using hne

theorem RespInv.faithful {cfg : MuxConfig} {s : RespState cfg} (h : RespInv s) : Faithful s := by
  refine ⟨h.alive, ⟨s.inFlight, h.account⟩, ?_⟩
  intro hrx hresp
  have haccount := h.account
  simpa [RespState.inFlight, hrx, hresp, h.rest hrx hresp, RespPc.held, RxPc.held] using haccount

theorem respInv_init (cfg : MuxConfig) (st : CommandState) :
    RespInv (RespState.init st : RespState cfg) :=
  ⟨by simp [RespState.init], rfl, by simp [RespState.init], fun _ ho => by simp [RespState.init] at ho, rfl⟩

/-- What is in flight fits in a frame on DLCI 0. -/
theorem RespInv.length_le {cfg : MuxConfig} {s : RespState cfg} (h : RespInv s) {tmp : List UInt8}
    (htmp : tmp ∈ s.inFlight) : tmp.length ≤ cfg.negotiatedN1 0 := by
  have hdue : tmp ∈ s.due := by
    rw [← h.account]
    exact List.mem_append_right _ htmp
  obtain ⟨c, -, rfl⟩ := List.mem_map.mp hdue
  rw [c.length_response]
  exact c.length_le

theorem receive_inv {cfg : MuxConfig} {cmuxMode : Bool} {s s' : RespState cfg}
    {c : SupportedCommand cfg} (h : RespInv s) (hstep : s.step cmuxMode (.receive c) = some s') :
    RespInv s' := by
  obtain ⟨st', action, hhandle⟩ := handleCommand_supported c s.st
  simp only [RespState.step, hhandle] at hstep
  split at hstep
  · rename_i hidle
    cases hstep
    refine ⟨h.alive, ?_, by simp, h.fullWrites, h.running⟩
    have haccount := h.account
    simp only [RespState.inFlight, hidle, RxPc.held, List.append_nil] at haccount
    simp only [RespState.responses, RespState.inFlight, RespState.due, RxPc.held, List.map_append,
      List.map_cons, List.map_nil] at haccount ⊢
    rw [← haccount]
    simp only [List.append_assoc]
  · cases hstep

theorem store_inv {cfg : MuxConfig} {cmuxMode : Bool} {s s' : RespState cfg} (h : RespInv s)
    (hcond : s.cache = none) (hstep : s.step cmuxMode .store = some s') : RespInv s' := by
  simp only [RespState.step] at hstep
  split at hstep
  · rename_i data hrx
    cases hstep
    refine ⟨h.alive, ?_, by simp, h.fullWrites, h.running⟩
    have haccount := h.account
    simpa [RespState.responses, RespState.due, RespState.inFlight, hrx, hcond, RxPc.held]
      using haccount
  · cases hstep

theorem take_inv {cfg : MuxConfig} {cmuxMode : Bool} {s s' : RespState cfg} {after : List UInt8}
    (h : RespInv s) (hcond : RespCond s (.take after))
    (hstep : s.step cmuxMode (.take after) = some s') : RespInv s' := by
  obtain ⟨block, hcache, hblock, hafter⟩ := hcond
  simp only [RespState.step, hcache, cString_of_notMem hblock hafter] at hstep
  split at hstep
  · rename_i hresp
    cases hstep
    refine ⟨by simp, ?_, by simp, h.fullWrites, h.running⟩
    have haccount := h.account
    simpa [RespState.responses, RespState.due, RespState.inFlight, hresp, hcache, RespPc.held]
      using haccount
  · cases hstep

theorem send_inv {cfg : MuxConfig} {cmuxMode : Bool} {s s' : RespState cfg} (h : RespInv s)
    (hstep : s.step cmuxMode .send = some s') : RespInv s' := by
  simp only [RespState.step] at hstep
  split at hstep
  · rename_i tmp hresp
    cases hstep
    obtain ⟨-, hemits⟩ := writeFrame_emits cfg cmuxMode h.fullWrites h.running 0 tmp
      (Nat.le_refl _) gsm0710TypeUih
    refine ⟨by simp, ?_, by simp, hemits.fullWrites, hemits.running⟩
    have hle : tmp.length ≤ cfg.negotiatedN1 0 :=
      h.length_le (by simp [RespState.inFlight, hresp, RespPc.held])
    have htmp : tmp.take (min (cfg.negotiatedN1 0) tmp.length) = tmp := by
      rw [Nat.min_eq_right hle, List.take_length]
    have haccount := h.account
    simp only [RespState.responses, RespState.due, RespState.inFlight, hresp, RespPc.held,
      hemits.framesWritten, List.map_append, List.map_cons, List.map_nil, htmp] at haccount ⊢
    simpa using haccount
  · cases hstep

/-- A step that meets the conditions keeps the invariant. -/
theorem resp_step_inv {cfg : MuxConfig} {cmuxMode : Bool} {s s' : RespState cfg} {a : RespAct cfg}
    (h : RespInv s) (hcond : RespCond s a) (hstep : s.step cmuxMode a = some s') : RespInv s' := by
  cases a with
  | receive c => exact receive_inv h hstep
  | store => exact store_inv h hcond hstep
  | take after => exact take_inv h hcond hstep
  | send => exact send_inv h hstep
  | signal =>
    simp only [RespState.step] at hstep
    split at hstep
    · rename_i hrx
      cases hstep
      have haccount := h.account
      by_cases hwait : s.resp = .waiting
      · simp only [if_pos hwait]
        refine ⟨by simp, ?_, by simp, h.fullWrites, h.running⟩
        simpa [RespState.responses, RespState.due, RespState.inFlight, hrx, hwait, RespPc.held,
          RxPc.held] using haccount
      · simp only [if_neg hwait]
        refine ⟨h.alive, ?_, fun _ hresp => absurd hresp hwait, h.fullWrites, h.running⟩
        simpa [RespState.responses, RespState.due, RespState.inFlight, hrx, RxPc.held]
          using haccount
    · cases hstep
  | test =>
    simp only [RespState.step] at hstep
    split at hstep
    · rename_i hresp
      have haccount := h.account
      cases hcache : s.cache with
      | none =>
        simp only [hcache] at hstep
        cases hstep
        refine ⟨by simp, ?_, by simp, h.fullWrites, h.running⟩
        simpa [RespState.responses, RespState.due, RespState.inFlight, hcache, hresp, RespPc.held]
          using haccount
      | some block =>
        simp only [hcache] at hstep
        cases hstep
        refine ⟨by simp, ?_, by simp, h.fullWrites, h.running⟩
        simpa [RespState.responses, RespState.due, RespState.inFlight, hcache, hresp, RespPc.held]
          using haccount
    · cases hstep
  | wait =>
    simp only [RespState.step] at hstep
    split at hstep
    · rename_i hresp
      cases hstep
      have haccount := h.account
      refine ⟨by simp, ?_, fun hrx _ => hcond hrx, h.fullWrites, h.running⟩
      simpa [RespState.responses, RespState.due, RespState.inFlight, hresp, RespPc.held]
        using haccount
    · cases hstep
  | spurious =>
    simp only [RespState.step] at hstep
    split at hstep
    · rename_i hresp
      cases hstep
      have haccount := h.account
      refine ⟨by simp, ?_, by simp, h.fullWrites, h.running⟩
      simpa [RespState.responses, RespState.due, RespState.inFlight, hresp, RespPc.held]
        using haccount
    · cases hstep

/-- **When commands are acknowledged faithfully.**  In every run whose steps meet
the conditions, the responder writes one response for each command, in order, each
the command with its C/R bit cleared. -/
theorem acknowledgements_faithful (cfg : MuxConfig) (cmuxMode : Bool) (st : CommandState)
    (acts : List (RespAct cfg))
    (hmeets : (respMachine cfg cmuxMode st).Meets RespCond (respMachine cfg cmuxMode st).init acts) :
    (respMachine cfg cmuxMode st).Along Faithful (respMachine cfg cmuxMode st).init acts :=
  Machine.along_of_meets _ (fun _ _ _ => resp_step_inv) (fun _ => RespInv.faithful)
    (respInv_init cfg st) hmeets

/-- A `TEST` command without a value. -/
def bareTest {cfg : MuxConfig} (h : 2 ≤ cfg.negotiatedN1 0) : SupportedCommand cfg :=
  ⟨[0x23, 0x01], 0x23, rfl, by decide, by decide, h⟩

/-- One command that is stored, signalled, taken and written; the responder then
begins to wait. -/
def oneCommand {cfg : MuxConfig} (c : SupportedCommand cfg) : List (RespAct cfg) :=
  [.receive c, .store, .signal, .test, .take [], .send, .test, .wait]

/-- A run in which one command is acknowledged. -/
theorem acknowledgements_faithful_one :
    let M := respMachine ⟨32, fun _ => 32, by decide⟩ true ⟨false, fun _ => false, fun _ => false⟩
    M.Along Faithful M.init (oneCommand (bareTest (by decide))) ∧
      (M.run M.init (oneCommand (bareTest (by decide)))).map RespState.responses =
        some [[0x21, 0x01]] := by
  refine ⟨acknowledgements_faithful _ true _ _ ?_, by decide⟩
  refine .cons _ rfl trivial (.cons _ rfl rfl (.cons _ rfl trivial (.cons _ rfl trivial ?_)))
  refine .cons _ rfl ⟨_, rfl, by decide, rfl⟩ (.cons _ rfl trivial (.cons _ rfl trivial ?_))
  exact .cons _ rfl (fun _ => rfl) trivial

/-! ## Runs that are not faithful -/

/-- A `TEST` command whose value is a zero octet. -/
def zeroTest {cfg : MuxConfig} (h : 3 ≤ cfg.negotiatedN1 0) : SupportedCommand cfg :=
  ⟨[0x23, 0x03, 0x00], 0x23, rfl, by decide, by decide, h⟩

/-- The response to a command with a zero octet is cut short there, and of two
commands received before the responder runs only the second is acknowledged; in
both runs the threads have come to rest. -/
theorem acknowledgements_unfaithful :
    let M := respMachine ⟨32, fun _ => 32, by decide⟩ true ⟨false, fun _ => false, fun _ => false⟩
    let two : List (RespAct _) :=
      [.receive (bareTest (by decide)), .store, .signal, .receive (zeroTest (by decide)), .store,
        .signal, .test, .take [], .send, .test, .wait]
    let view := fun s : RespState ⟨32, fun _ => 32, by decide⟩ => (s.rx, s.resp, s.responses, s.due)
    (M.run M.init (oneCommand (zeroTest (by decide)))).map view =
        some (.idle, .waiting, [[0x21, 0x03]], [[0x21, 0x03, 0x00]]) ∧
      (M.run M.init two).map view =
        some (.idle, .waiting, [[0x21, 0x03]], [[0x21, 0x01], [0x21, 0x03, 0x00]]) := by
  exact ⟨by decide, by decide⟩

end MtkHw.Mux
