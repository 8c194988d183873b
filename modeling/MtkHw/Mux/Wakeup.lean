import MtkHw.Lib.Machine
import MtkHw.Mux.BaseFrame

/-!
# The serial reader and the frame assembler

`thread_serial_device_read` fills the receive buffer and goes to sleep when it is
full; `assemble_frame_thread` takes frames out of it and wakes the reader.  They
share the buffer and two condition variables: `newdataready_signal`, for the
assembler to wait on, and `bufferready_signal`, for the reader.

The model interleaves them at every access to what they share.  The assembler's
part inside `gsm0710_base_buffer_get_frame` is `baseStep`, so each turn of its
loops, the parse on local copies and the store back are steps of their own.  A
thread that holds a mutex over several steps is at a place that says so
(`ReaderPc.holdsBufferready`, `AsmPc.holdsNewdata`), and a step that needs a mutex
held by the other thread cannot be taken.  A condition wait releases its mutex and
may end without a signal.  The errors of `read()` that make the muxer abort are
left out, and so is what the assembler does with a frame, which touches nothing
shared here.

The assembler does not signal when the octets stored are too few for a frame,
although it may have consumed some before it finds that out.  `lostWakeup_iff`
says that this is the only way to lose a wake-up.
-/

namespace MtkHw.Mux

open Lib

/-! ## Places in the code -/

/-- Where the serial reader is. -/
inductive ReaderPc where
  | /-- At the start of `thread_serial_device_read`. -/ top
  | /-- In `read()`, for at most `length` octets. -/ reading (length : Nat)
  | /-- Entering `gsm0710_buffer_write`. -/ writing (input : List UInt8)
  | /-- The octets are copied; `datacount` is to be raised. -/ copied (length : Nat)
  | /-- `newdataready` is to be set. -/ counted
  | /-- `newdataready_signal` is to be sent. -/ notifying
  | /-- The buffer was full: `bufferready_lock` is to be taken. -/ locking
  | /-- Holds the lock, `input_sleeping` is set, at the loop test. -/ testing
  | /-- Holds the lock, has found the buffer full. -/ full
  | /-- In `pthread_cond_wait`. -/ waiting
  | /-- Signalled: the lock is to be taken again. -/ woken
  | /-- Holds the lock, has found room. -/ leaving
deriving DecidableEq, Repr

/-- Where the frame assembler is. -/
inductive AsmPc where
  | /-- At the start of a turn of `assemble_frame_thread`. -/ top
  | /-- Holds `newdataready_lock`, at the loop test. -/ testing
  | /-- Holds the lock, about to look at `input_sleeping`. -/ idle
  | /-- Holds the lock, about to clear `newdataready`. -/ clearing
  | /-- In `pthread_cond_wait`. -/ waiting
  | /-- In `extract_frames`, in `gsm0710_base_buffer_get_frame`. -/ pass (loc : BaseLocal)
  | /-- Has got a frame, about to signal. -/ got (frame : GSM0710Frame)
  | /-- Handling a frame. -/ handling (frame : GSM0710Frame)
  | /-- `Gsm0710Muxd_Assert(13)` -/ asserted
deriving DecidableEq, Repr

/-- The reader holds `bufferready_lock`. -/
def ReaderPc.holdsBufferready : ReaderPc → Bool
  | .testing | .full | .leaving => true
  | _ => false

/-- The assembler holds `newdataready_lock`. -/
def AsmPc.holdsNewdata : AsmPc → Bool
  | .testing | .idle | .clearing => true
  | _ => false

/-- The assembler is not in `extract_frames`. -/
def AsmPc.betweenPasses : AsmPc → Bool
  | .top | .testing | .idle | .clearing | .waiting => true
  | _ => false

/-- The reader has found the buffer full, and has not been signalled since. -/
def ReaderPc.asleep : ReaderPc → Bool
  | .full | .waiting => true
  | _ => false

/-- Where a step inside `gsm0710_base_buffer_get_frame` leads. -/
def AsmPc.after : BaseLocal ⊕ BaseExit → AsmPc
  | .inl loc => .pass loc
  | .inr (.ret none) => .top
  | .inr (.ret (some frame)) => .got frame
  | .inr .assert13 => .asserted

/-- The shared buffer and the places of the two threads. -/
structure WakeState where
  buf : GSM0710Buffer
  reader : ReaderPc
  asm : AsmPc

/-- A label: which thread moves, and what the serial device does. -/
inductive WakeAct where
  | /-- `read()` returns octets. -/ read (chunk : List UInt8)
  | /-- `read()` is interrupted or finds nothing. -/ readNothing
  | /-- The reader moves on. -/ reader
  | /-- The assembler moves on. -/ asm
  | /-- `pthread_cond_wait` returns to the reader without a signal. -/ spuriousReader
  | /-- `pthread_cond_wait` returns to the assembler without a signal. -/ spuriousAsm
deriving DecidableEq, Repr

namespace WakeState

/-! ## Steps -/

/-- `pthread_cond_signal(&buf->bufferready_signal)` if the reader sleeps. -/
def signalReader (s : WakeState) : WakeState :=
  if s.buf.inputSleeping ∧ s.reader = .waiting then { s with reader := .woken } else s

/-- `pthread_cond_signal(&buf->newdataready_signal)` -/
def signalAsm (s : WakeState) : WakeState :=
  if s.asm = .waiting then { s with asm := .testing } else s

/-- A step of the reader that does not depend on the device. -/
def readerStep (s : WakeState) : Option WakeState :=
  match s.reader with
  | .top =>
      some { s with reader := if s.buf.free > 0 then .reading s.buf.free else .locking }
  | .reading _ => none
  | .writing input =>
      let input := input.take (min input.length s.buf.free)
      some { s with buf := s.buf.copyIn input, reader := .copied input.length }
  | .copied length => some { s with buf := s.buf.count length, reader := .counted }
  | .counted =>
      if s.asm.holdsNewdata then none
      else some { s with buf := { s.buf with newdataready := true }, reader := .notifying }
  | .notifying => some { s.signalAsm with reader := .top }
  | .locking => some { s with buf := { s.buf with inputSleeping := true }, reader := .testing }
  | .testing => some { s with reader := if s.buf.free > 0 then .leaving else .full }
  | .full => some { s with reader := .waiting }
  | .waiting => none
  | .woken => some { s with reader := .testing }
  | .leaving => some { s with buf := { s.buf with inputSleeping := false }, reader := .top }

/-- A step of the assembler. -/
def asmStep (cfg : MuxConfig) (s : WakeState) : Option WakeState :=
  match s.asm with
  | .top => some { s with asm := .testing }
  | .testing =>
      some { s with asm := if s.buf.datacount > 0 ∧ s.buf.newdataready then .clearing else .idle }
  | .idle => some { s with asm := if s.buf.inputSleeping then .clearing else .waiting }
  | .clearing =>
      some { s with buf := { s.buf with newdataready := false }, asm := .pass ⟨.find, 0⟩ }
  | .waiting => none
  | .pass loc =>
      if loc.pc = .noFlag ∧ s.reader.holdsBufferready then none
      else
        let out := baseStep cfg loc s.buf
        let s := if loc.pc = .noFlag then s.signalReader else s
        some { s with buf := out.2, asm := .after out.1 }
  | .got frame =>
      if s.reader.holdsBufferready then none
      else some { s.signalReader with asm := .handling frame }
  | .handling _ => some { s with asm := .pass ⟨.find, 0⟩ }
  | .asserted => none

/-- A step of either thread. -/
def step (cfg : MuxConfig) (s : WakeState) : WakeAct → Option WakeState
  | .read chunk =>
      match s.reader with
      | .reading length =>
          if chunk ≠ [] ∧ chunk.length ≤ min length gsm0710BufferSize then
            some { s with reader := .writing chunk }
          else none
      | _ => none
  | .readNothing =>
      match s.reader with
      | .reading _ => some { s with reader := .top }
      | _ => none
  | .reader => s.readerStep
  | .asm => s.asmStep cfg
  | .spuriousReader => if s.reader = .waiting then some { s with reader := .woken } else none
  | .spuriousAsm => if s.asm = .waiting then some { s with asm := .testing } else none

/-- Both threads start with an empty buffer. -/
def init : WakeState := ⟨GSM0710Buffer.init, .top, .top⟩

end WakeState

open WakeState in
/-- The two threads. -/
def wakeMachine (cfg : MuxConfig) : Machine WakeState WakeAct := ⟨WakeState.init, WakeState.step cfg⟩

/-! ## Lost wake-ups -/

/-- The assembler is between two passes and the reader is asleep: the buffer is
full, so the reader has nothing to wake up for. -/
def NoLostWakeup (s : WakeState) : Prop :=
  s.asm.betweenPasses = true → s.reader.asleep = true → s.buf.free = 0

/-- The step finds too few octets for a frame, in a buffer that is not full, and
the reader is asleep. -/
def StarvesAsleep (cfg : MuxConfig) (s : WakeState) (a : WakeAct) : Prop :=
  a = .asm ∧ (∃ d, s.asm = .pass ⟨.parse, d⟩) ∧ parse cfg s.buf = .starved ∧
    s.reader.asleep = true ∧ 0 < s.buf.free

/-- The places of the reader at which `input_sleeping` is set. -/
def ReaderPc.marked : ReaderPc → Bool
  | .testing | .full | .waiting | .woken | .leaving => true
  | _ => false

/-- What the runs without a starving step keep. -/
structure WakeInv (s : WakeState) : Prop where
  noLoss : NoLostWakeup s
  marked : s.reader.marked = true → s.buf.inputSleeping = true
  parsed : ∀ backup d, s.asm ≠ .pass ⟨.store backup .starved, d⟩

/-- A reader that is awake loses nothing. -/
theorem WakeInv.awake {s : WakeState} (hawake : s.reader.asleep = false)
    (hmarked : s.reader.marked = true → s.buf.inputSleeping = true)
    (hparsed : ∀ backup d, s.asm ≠ .pass ⟨.store backup .starved, d⟩) : WakeInv s := by
  refine ⟨?_, hmarked, hparsed⟩
  intro _ hasleep
  rw [hawake] at hasleep
  cases hasleep

/-- A reader that has not marked itself asleep is awake. -/
theorem WakeInv.unmarked {s : WakeState} (hunmarked : s.reader.marked = false)
    (hparsed : ∀ backup d, s.asm ≠ .pass ⟨.store backup .starved, d⟩) : WakeInv s := by
  refine .awake ?_ ?_ hparsed
  · generalize s.reader = reader at hunmarked
    cases reader <;> first | rfl | cases hunmarked
  · intro hmarked
    rw [hunmarked] at hmarked
    cases hmarked

theorem BaseMove.inputSleeping {cfg : MuxConfig} {buf buf' : GSM0710Buffer} {d : Nat} {pc : BasePc}
    {r : BaseLocal ⊕ BaseExit} (h : BaseMove cfg buf d pc r buf') :
    buf'.inputSleeping = buf.inputSleeping := by
  cases h <;> rfl

/-- A pass ends where no flag is found, or where too few octets are found. -/
theorem BaseMove.ends {cfg : MuxConfig} {buf buf' : GSM0710Buffer} {d : Nat} {pc : BasePc}
    {r : BaseLocal ⊕ BaseExit} (h : BaseMove cfg buf d pc r buf')
    (hends : (AsmPc.after r).betweenPasses = true) :
    pc = .noFlag ∨ (pc = .parse ∧ parse cfg buf = .starved ∧ buf' = buf) ∨
      ∃ backup, pc = .store backup .starved := by
  cases h with
  | noFlag => exact .inl rfl
  | starved hparse => exact .inr (.inl ⟨rfl, hparse, rfl⟩)
  | storeStarved backup => exact .inr (.inr ⟨backup, rfl⟩)
  | dropped backup cur =>
    unfold baseEnter at hends
    split at hends <;> cases hends
  | _ => cases hends

/-- Only what has been parsed is stored back. -/
theorem BaseMove.parsed_after {cfg : MuxConfig} {buf buf' : GSM0710Buffer} {d : Nat} {pc : BasePc}
    {r : BaseLocal ⊕ BaseExit} (h : BaseMove cfg buf d pc r buf') (backup d' : Nat) :
    AsmPc.after r ≠ .pass ⟨.store backup .starved, d'⟩ := by
  cases h with
  | parsed hparse =>
    intro heq
    simp only [AsmPc.after, AsmPc.pass.injEq, BaseLocal.mk.injEq, BasePc.store.injEq] at heq
    exact hparse heq.1.2
  | dropped backup' cur =>
    unfold baseEnter
    split <;> simp [AsmPc.after]
  | _ => simp [AsmPc.after]

theorem signalReader_buf (s : WakeState) : s.signalReader.buf = s.buf := by
  unfold WakeState.signalReader
  split <;> rfl

/-- After a signal the reader is not asleep, for want of the mutex it could not
have been on its way to sleep. -/
theorem signalReader_asleep {s : WakeState} (h : WakeInv s)
    (hlock : s.reader.holdsBufferready = false) : s.signalReader.reader.asleep = false := by
  unfold WakeState.signalReader
  by_cases hwait : s.buf.inputSleeping ∧ s.reader = .waiting
  · rw [if_pos hwait]
    rfl
  · rw [if_neg hwait]
    have hmarked := h.marked
    cases hreader : s.reader with
    | full => simp [hreader, ReaderPc.holdsBufferready] at hlock
    | waiting => simp [hreader, hmarked, ReaderPc.marked] at hwait
    | _ => rfl

theorem signalReader_marked {s : WakeState} (h : WakeInv s) :
    s.signalReader.reader.marked = true → s.buf.inputSleeping = true := by
  unfold WakeState.signalReader
  split
  · rename_i hwait
    exact fun _ => hwait.1
  · exact h.marked

theorem signalAsm_parsed {s : WakeState} (h : WakeInv s) (backup d : Nat) :
    s.signalAsm.asm ≠ .pass ⟨.store backup .starved, d⟩ := by
  unfold WakeState.signalAsm
  split
  · simp
  · exact h.parsed backup d

/-- The reader only goes to sleep when it finds the buffer full. -/
theorem readerStep_inv {s s' : WakeState} (h : WakeInv s) (hstep : s.readerStep = some s') :
    WakeInv s' := by
  obtain ⟨buf, reader, asm⟩ := s
  cases reader with
  | top =>
    cases hstep
    refine .unmarked ?_ h.parsed
    dsimp only
    split <;> rfl
  | reading _ | waiting => cases hstep
  | writing _ | copied _ | leaving =>
    cases hstep
    exact .unmarked rfl h.parsed
  | counted =>
    simp only [WakeState.readerStep] at hstep
    split at hstep
    · cases hstep
    · cases hstep
      exact .unmarked rfl h.parsed
  | notifying =>
    cases hstep
    exact .unmarked rfl (signalAsm_parsed h)
  | locking =>
    cases hstep
    exact .awake rfl (fun _ => rfl) h.parsed
  | testing =>
    cases hstep
    by_cases hfree : buf.free > 0
    · simp only [if_pos hfree]
      exact .awake rfl (fun _ => h.marked rfl) h.parsed
    · simp only [if_neg hfree]
      exact ⟨fun _ _ => Nat.eq_zero_of_not_pos hfree, fun _ => h.marked rfl, h.parsed⟩
  | full =>
    cases hstep
    exact ⟨fun hasm _ => h.noLoss hasm rfl, fun _ => h.marked rfl, h.parsed⟩
  | woken =>
    cases hstep
    exact .awake rfl (fun _ => h.marked rfl) h.parsed

/-- A step of the assembler inside `gsm0710_base_buffer_get_frame`. -/
theorem asmStep_pass {cfg : MuxConfig} {s s' : WakeState} {pc : BasePc} {d : Nat}
    (hpc : s.asm = .pass ⟨pc, d⟩) (hstep : s.asmStep cfg = some s') :
    ∃ r, BaseMove cfg s.buf d pc r s'.buf ∧ s'.asm = .after r ∧
      if pc = .noFlag then s.reader.holdsBufferready = false ∧ s'.reader = s.signalReader.reader
      else s'.reader = s.reader := by
  have hmove := baseStep_move cfg pc d s.buf
  simp only [WakeState.asmStep, hpc] at hstep
  by_cases hflag : pc = .noFlag
  · simp only [hflag, true_and, if_true] at hstep ⊢
    split at hstep
    · cases hstep
    · rename_i hlock
      cases hstep
      exact ⟨_, hflag ▸ hmove, rfl, by simpa using hlock, rfl⟩
  · simp only [hflag, false_and, if_false] at hstep ⊢
    cases hstep
    exact ⟨_, hmove, rfl, rfl⟩

/-- The assembler only leaves a pass behind a signal, or starving. -/
theorem asmStep_inv {cfg : MuxConfig} {s s' : WakeState} (h : WakeInv s)
    (hcond : ¬ StarvesAsleep cfg s .asm) (hstep : s.asmStep cfg = some s') : WakeInv s' := by
  cases hasm : s.asm with
  | top =>
    have hbetween : s.asm.betweenPasses = true := by rw [hasm]; rfl
    simp only [WakeState.asmStep, hasm] at hstep
    cases hstep
    exact ⟨fun _ hasleep => h.noLoss hbetween hasleep, h.marked, fun _ _ => by simp⟩
  | testing | idle =>
    have hbetween : s.asm.betweenPasses = true := by rw [hasm]; rfl
    simp only [WakeState.asmStep, hasm] at hstep
    cases hstep
    refine ⟨fun _ hasleep => h.noLoss hbetween hasleep, h.marked, ?_⟩
    intro backup d heq
    dsimp only at heq
    split_ifs at heq
  | clearing | handling _ =>
    simp only [WakeState.asmStep, hasm] at hstep
    cases hstep
    refine ⟨?_, h.marked, fun _ _ => by simp⟩
    intro hbetween
    cases hbetween
  | waiting | asserted =>
    simp only [WakeState.asmStep, hasm] at hstep
    cases hstep
  | got frame =>
    simp only [WakeState.asmStep, hasm] at hstep
    split at hstep
    · cases hstep
    · rename_i hlock
      cases hstep
      refine .awake (signalReader_asleep h (by simpa using hlock)) ?_ (fun _ _ => by simp)
      simpa [signalReader_buf] using signalReader_marked h
  | pass loc =>
    obtain ⟨pc, d⟩ := loc
    obtain ⟨r, hmove, hafter, hreader⟩ := asmStep_pass hasm hstep
    have hinput := hmove.inputSleeping
    by_cases hflag : pc = .noFlag
    · rw [if_pos hflag] at hreader
      refine .awake (hreader.2 ▸ signalReader_asleep h hreader.1) ?_ ?_
      · rw [hreader.2, hinput]
        exact signalReader_marked h
      · rw [hafter]
        exact hmove.parsed_after
    · rw [if_neg hflag] at hreader
      refine ⟨?_, by rw [hreader, hinput]; exact h.marked, by rw [hafter]; exact hmove.parsed_after⟩
      intro hbetween hasleep
      rw [hafter] at hbetween
      rw [hreader] at hasleep
      rcases hmove.ends hbetween with hpc | ⟨rfl, hstarved, hbuf⟩ | ⟨backup, rfl⟩
      · exact absurd hpc hflag
      · rw [hbuf]
        by_contra hfree
        exact hcond ⟨rfl, ⟨d, hasm⟩, hstarved, hasleep, Nat.pos_of_ne_zero hfree⟩
      · exact absurd hasm (h.parsed backup d)

/-- A step that does not starve a sleeping reader keeps the invariant. -/
theorem step_inv {cfg : MuxConfig} {s s' : WakeState} {a : WakeAct} (h : WakeInv s)
    (hcond : ¬ StarvesAsleep cfg s a) (hstep : s.step cfg a = some s') : WakeInv s' := by
  cases a with
  | read chunk =>
    simp only [WakeState.step] at hstep
    split at hstep
    · split at hstep
      · cases hstep
        exact .unmarked rfl h.parsed
      · cases hstep
    · cases hstep
  | readNothing =>
    simp only [WakeState.step] at hstep
    split at hstep
    · cases hstep
      exact .unmarked rfl h.parsed
    · cases hstep
  | reader => exact readerStep_inv h hstep
  | asm => exact asmStep_inv h hcond hstep
  | spuriousReader =>
    simp only [WakeState.step] at hstep
    split at hstep
    · rename_i hwait
      cases hstep
      exact .awake rfl (fun _ => h.marked (by rw [hwait]; rfl)) h.parsed
    · cases hstep
  | spuriousAsm =>
    simp only [WakeState.step] at hstep
    split at hstep
    · rename_i hwait
      cases hstep
      exact ⟨fun _ hasleep => h.noLoss (by rw [hwait]; rfl) hasleep, h.marked, fun _ _ => by simp⟩
    · cases hstep

theorem wakeInv_init : WakeInv WakeState.init := .unmarked rfl (fun _ _ => by simp [WakeState.init])

/-- A step that starves a sleeping reader loses its wake-up. -/
theorem starves_loses {cfg : MuxConfig} {s : WakeState} {a : WakeAct} (h : StarvesAsleep cfg s a) :
    ∃ s', s.step cfg a = some s' ∧ ¬ NoLostWakeup s' := by
  obtain ⟨rfl, ⟨d, hasm⟩, hstarved, hasleep, hfree⟩ := h
  refine ⟨{ s with asm := .top }, ?_, ?_⟩
  · simp [WakeState.step, WakeState.asmStep, hasm, baseStep, hstarved, AsmPc.after]
  · intro hnone
    have := hnone rfl hasleep
    dsimp only at this
    omega

/-- **When wake-ups are lost.**  Along every run of the two threads, a reader that
is asleep between two passes of the assembler has a full buffer before it, if and
only if no step of the run finds too few octets for a frame in a buffer with room
while the reader is asleep. -/
theorem lostWakeup_iff (cfg : MuxConfig) (acts : List WakeAct) :
    (wakeMachine cfg).Along NoLostWakeup (wakeMachine cfg).init acts ↔
      (wakeMachine cfg).Meets (fun s a => ¬ StarvesAsleep cfg s a) (wakeMachine cfg).init acts := by
  constructor
  · exact Machine.meets_of_along _ fun s a hc => starves_loses (not_not.mp hc)
  · exact Machine.along_of_meets _ (fun s a s' => step_inv) (fun s h => h.noLoss) wakeInv_init

/-! ## A run that loses one -/

/-- The labels of a reader that takes `chunk` and is ready to read again. -/
def readSteps (chunk : List UInt8) : List WakeAct :=
  [.reader, .read chunk, .reader, .reader, .reader, .reader]

/-- The reader takes a chunk that fits, while the assembler has not started. -/
theorem run_readSteps (cfg : MuxConfig) {buf : GSM0710Buffer} {chunk : List UInt8}
    (hne : chunk ≠ []) (hfit : chunk.length ≤ buf.free) :
    (wakeMachine cfg).run ⟨buf, .top, .top⟩ (readSteps chunk) =
      some ⟨(buf.write chunk).1, .top, .top⟩ := by
  have hlen : 0 < chunk.length := List.length_pos_iff.mpr hne
  have hfree : buf.free > 0 := by omega
  have hsize : buf.free ≤ gsm0710BufferSize := Nat.sub_le _ _
  have hmin : chunk.length ≤ min buf.free gsm0710BufferSize := by omega
  simp only [readSteps, wakeMachine, Machine.run, WakeState.step, WakeState.readerStep, if_pos hfree,
    hne, ne_eq, not_false_eq_true, true_and, if_pos hmin, Option.bind_some, WakeState.signalAsm,
    AsmPc.holdsNewdata, Bool.false_eq_true, if_false, GSM0710Buffer.take_free hfit]
  simp [GSM0710Buffer.write, GSM0710Buffer.take_free hfit]

/-- A reader that finds the buffer full goes to sleep. -/
theorem run_fallAsleep (cfg : MuxConfig) {buf : GSM0710Buffer} (hfull : buf.free = 0) :
    (wakeMachine cfg).run ⟨buf, .top, .top⟩ (List.replicate 4 .reader) =
      some ⟨{ buf with inputSleeping := true }, .waiting, .top⟩ := by
  have hfull' : GSM0710Buffer.free { buf with inputSleeping := true } = 0 := hfull
  simp [List.replicate, wakeMachine, Machine.run, WakeState.step, WakeState.readerStep, hfull,
    hfull']

/-- The assembler skips flags one by one. -/
theorem run_skipFlags (cfg : MuxConfig) (reader : ReaderPc) (d : Nat) {n : Nat} :
    ∀ {buf : GSM0710Buffer}, buf.contents = List.replicate n gsm0710FrameFlag →
      ∃ buf' : GSM0710Buffer, (wakeMachine cfg).run ⟨buf, reader, .pass ⟨.skip, d⟩⟩
          (List.replicate n .asm) = some ⟨buf', reader, .pass ⟨.skip, d⟩⟩ ∧
        buf'.datacount = 0 ∧ buf'.flagFound = buf.flagFound ∧
          buf'.inputSleeping = buf.inputSleeping := by
  induction n with
  | zero =>
    intro buf hflags
    exact ⟨buf, rfl, GSM0710Buffer.contents_eq_nil.mp hflags, rfl, rfl⟩
  | succ n ih =>
    intro buf hflags
    have hlen := congrArg List.length hflags
    rw [GSM0710Buffer.length_contents, List.length_replicate] at hlen
    have hpos : 0 < buf.datacount := by omega
    rw [GSM0710Buffer.contents_eq_cons hpos, List.replicate_succ, List.cons.injEq] at hflags
    obtain ⟨buf', hrun, hzero, hfound, hsleeping⟩ := ih hflags.2
    refine ⟨buf', ?_, hzero, hfound, hsleeping⟩
    rw [List.replicate_succ, Machine.run_cons_eq_some]
    refine ⟨⟨buf.inc, reader, .pass ⟨.skip, d⟩⟩, ?_, hrun⟩
    simp [wakeMachine, WakeState.step, WakeState.asmStep, baseStep, GSM0710Buffer.length, hpos,
      hflags.1, AsmPc.after]

/-- The assembler begins a pass and takes the first flag. -/
theorem run_firstFlag (cfg : MuxConfig) (reader : ReaderPc) {n : Nat} {buf : GSM0710Buffer}
    (hflags : buf.contents = List.replicate (n + 1) gsm0710FrameFlag)
    (hnew : buf.newdataready = true) (hfound : buf.flagFound = false) :
    ∃ buf' : GSM0710Buffer, (wakeMachine cfg).run ⟨buf, reader, .top⟩ (List.replicate 5 .asm) =
        some ⟨buf', reader, .pass ⟨.skip, 0⟩⟩ ∧
      buf'.contents = List.replicate n gsm0710FrameFlag ∧ buf'.flagFound = true ∧
        buf'.inputSleeping = buf.inputSleeping := by
  have hlen := congrArg List.length hflags
  rw [GSM0710Buffer.length_contents, List.length_replicate] at hlen
  have hpos : 0 < buf.datacount := by omega
  rw [GSM0710Buffer.contents_eq_cons hpos, List.replicate_succ, List.cons.injEq] at hflags
  have hhead : buf.data buf.readp = gsm0710FrameFlag := hflags.1
  refine ⟨GSM0710Buffer.inc { buf with newdataready := false, flagFound := true }, ?_, hflags.2,
    rfl, rfl⟩
  simp [List.replicate, wakeMachine, Machine.run, WakeState.step, WakeState.asmStep, baseStep,
    GSM0710Buffer.length, GSM0710Buffer.head, GSM0710Buffer.inc, hpos, hnew, hfound, hhead,
    AsmPc.after]

/-- Without octets the assembler ends its pass, and does not signal. -/
theorem run_starve (cfg : MuxConfig) (reader : ReaderPc) {buf : GSM0710Buffer}
    (hempty : buf.datacount = 0) :
    (wakeMachine cfg).run ⟨buf, reader, .pass ⟨.skip, 0⟩⟩ (List.replicate 2 .asm) =
      some ⟨buf, reader, .top⟩ := by
  have hparse : parse cfg buf = .starved := by simp [parse, hempty]
  simp [List.replicate, wakeMachine, Machine.run, WakeState.step, WakeState.asmStep, baseStep,
    GSM0710Buffer.length, hempty, hparse, AsmPc.after]

/-- The reader sleeps before an empty buffer, and the assembler goes round
without ever seeing an octet. -/
structure Stuck (s : WakeState) : Prop where
  reader : s.reader = .waiting
  empty : s.buf.datacount = 0
  sleeping : s.buf.inputSleeping = true
  found : s.buf.flagFound = true
  asm : s.asm ∈ [.top, .testing, .idle, .clearing, .pass ⟨.find, 0⟩, .pass ⟨.skip, 0⟩,
    .pass ⟨.parse, 0⟩]

theorem Stuck.step {cfg : MuxConfig} {s s' : WakeState} {a : WakeAct} (h : Stuck s)
    (ha : a ≠ .spuriousReader) (hstep : s.step cfg a = some s') : Stuck s' := by
  obtain ⟨buf, reader, asm⟩ := s
  obtain ⟨rfl, hempty, hsleeping, hfound, hasm⟩ := h
  dsimp only at hempty hsleeping hfound hasm
  have hparse : parse cfg buf = .starved := by simp [parse, hempty]
  cases a with
  | spuriousReader => exact absurd rfl ha
  | read _ | readNothing | reader => cases hstep
  | spuriousAsm =>
    simp only [WakeState.step] at hstep
    split at hstep
    · rename_i hwait
      rw [hwait] at hasm
      simp at hasm
    · cases hstep
  | asm =>
    simp only [List.mem_cons, List.not_mem_nil, or_false] at hasm
    rcases hasm with rfl | rfl | rfl | rfl | rfl | rfl | rfl
    all_goals
      simp only [WakeState.step, WakeState.asmStep, baseStep, GSM0710Buffer.length, hempty,
        hsleeping, hfound, hparse] at hstep
      cases hstep
      refine ⟨rfl, ?_, ?_, ?_, ?_⟩ <;> simp [hempty, hsleeping, hfound, AsmPc.after]

/-- Without a spurious wake-up it stays so for ever. -/
theorem Stuck.run {cfg : MuxConfig} {s s' : WakeState} {acts : List WakeAct} (h : Stuck s)
    (hacts : WakeAct.spuriousReader ∉ acts)
    (hrun : (wakeMachine cfg).run s acts = some s') : Stuck s' := by
  induction acts generalizing s with
  | nil =>
    cases hrun
    exact h
  | cons a acts ih =>
    obtain ⟨s₁, hstep, hrest⟩ := (wakeMachine cfg).run_cons_eq_some.mp hrun
    simp only [List.mem_cons, not_or] at hacts
    exact ih (h.step (Ne.symm hacts.1) hstep) hacts.2 hrest

/-- `n + 1` flags arrive; the reader goes to sleep; the assembler makes one pass. -/
def flagFlood (n : Nat) : List WakeAct :=
  readSteps (List.replicate (n + 1) gsm0710FrameFlag) ++ List.replicate 4 .reader ++
    (List.replicate 5 .asm ++ (List.replicate n .asm ++ List.replicate 2 .asm))

/-- A buffer full of flags puts the reader to sleep for ever: the assembler
consumes them all, finds nothing to parse, and never signals. -/
theorem run_flagFlood (cfg : MuxConfig) {n : Nat} (hn : n + 1 = gsm0710BufferSize) :
    ∃ s, (wakeMachine cfg).run WakeState.init (flagFlood n) = some s ∧ Stuck s ∧ s.asm = .top := by
  have hfit : (List.replicate (n + 1) gsm0710FrameFlag).length ≤ GSM0710Buffer.init.free := by
    rw [List.length_replicate, hn]
    decide
  have hne : List.replicate (n + 1) gsm0710FrameFlag ≠ [] := List.cons_ne_nil _ _
  have hread := run_readSteps cfg hne hfit
  have hcontents := GSM0710Buffer.contents_write GSM0710Buffer.wf_init hfit
  have hnew : (GSM0710Buffer.init.write (List.replicate (n + 1) gsm0710FrameFlag)).1.newdataready =
      true := rfl
  have hfound : (GSM0710Buffer.init.write (List.replicate (n + 1) gsm0710FrameFlag)).1.flagFound =
      false := rfl
  generalize (GSM0710Buffer.init.write (List.replicate (n + 1) gsm0710FrameFlag)).1 = buf
    at hread hcontents hnew hfound
  rw [GSM0710Buffer.contents_init, List.nil_append] at hcontents
  have hcount := congrArg List.length hcontents
  rw [GSM0710Buffer.length_contents, List.length_replicate] at hcount
  have hsleep := @run_fallAsleep cfg buf (by simp [GSM0710Buffer.free, hcount, hn])
  obtain ⟨buf₁, hfirst, hcontents₁, hfound₁, hsleeping₁⟩ :=
    @run_firstFlag cfg .waiting _ { buf with inputSleeping := true } hcontents hnew hfound
  obtain ⟨buf₂, hskip, hempty₂, hfound₂, hsleeping₂⟩ := run_skipFlags cfg .waiting 0 hcontents₁
  have hstarve := run_starve cfg .waiting hempty₂
  refine ⟨⟨buf₂, .waiting, .top⟩, ?_, ?_, rfl⟩
  · rw [flagFlood, Machine.run_append, Machine.run_append]
    simp only [WakeState.init, hread, hsleep, Option.bind_some]
    rw [Machine.run_append, hfirst, Option.bind_some, Machine.run_append, hskip, Option.bind_some,
      hstarve]
  · exact ⟨rfl, hempty₂, hsleeping₂.trans hsleeping₁, hfound₂.trans hfound₁, by simp⟩

/-- 4096 flags that arrive at once: the reader sleeps before an empty buffer, the
assembler has ended its pass, and without a spurious wake-up the reader sleeps on
whatever the two threads do. -/
theorem flagFlood_loses :
    ∃ s, (wakeMachine ⟨32, fun _ => 1509, by decide⟩).run WakeState.init (flagFlood 4095) = some s ∧
      ¬ NoLostWakeup s ∧
      ∀ acts s', WakeAct.spuriousReader ∉ acts →
        (wakeMachine ⟨32, fun _ => 1509, by decide⟩).run s acts = some s' →
          s'.reader = .waiting ∧ s'.buf.free = gsm0710BufferSize := by
  obtain ⟨s, hrun, hstuck, hasm⟩ := run_flagFlood ⟨32, fun _ => 1509, by decide⟩ (n := 4095) rfl
  refine ⟨s, hrun, ?_, ?_⟩
  · intro hnone
    have hzero := hnone (by rw [hasm]; rfl) (by rw [hstuck.reader]; rfl)
    rw [GSM0710Buffer.free, hstuck.empty] at hzero
    exact absurd hzero (by decide)
  · intro acts s' hacts hrun'
    have hstuck' := hstuck.run hacts hrun'
    exact ⟨hstuck'.reader, by simp [GSM0710Buffer.free, hstuck'.empty]⟩

end MtkHw.Mux
