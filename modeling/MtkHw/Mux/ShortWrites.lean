import MtkHw.Mux.AdvCodec
import MtkHw.Mux.BaseCodec

/-!
# Short and failing writes

In basic mode `write_frame` makes up to three `write()` calls for a frame, and gives up when one of
them does not take everything; `handle_channel_data` then has the frame written again, from its
prefix on.  What the device had taken of the first attempt stays on the wire.

An attempt of which the device took nothing, or the start flag only, does no harm: further flags
between the frames are fill, which `gsm0710_base_buffer_get_frame` skips.  `shortWrites_harmless`
says that the peer gets every frame when the broken attempts are of this kind.  After any other
broken attempt the peer takes the octets of the next one for the rest of the first
(`secondPrefix_harmful`).
-/

namespace MtkHw.Mux

open Lib GSM0710Buffer

/-! ## What the device takes -/

/-- How many of `length` bytes the device takes, when an interrupted call is made again. -/
def taken (length : Nat) : List WriteOutcome → Nat
  | .failed .EINTR :: script => taken length script
  | .failed _ :: _ => 0
  | .short n :: _ => min n length
  | .full :: _ | [] => length

/-- What the device does after that. -/
def afterTaken : List WriteOutcome → List WriteOutcome
  | .failed .EINTR :: script => afterTaken script
  | _ :: script => script
  | [] => []

/-- The modem does not go into its exception state. -/
def NoException (script : List WriteOutcome) : Prop :=
  ∀ o ∈ script, o ≠ .failed .ETXTBSY ∧ o ≠ .failed .ENODEV

theorem afterTaken_suffix (script : List WriteOutcome) : afterTaken script <:+ script := by
  induction script with
  | nil => exact List.suffix_rfl
  | cons o script ih =>
    cases o with
    | failed e =>
      cases e with
      | EINTR => exact ih.trans (List.suffix_cons _ _)
      | EAGAIN | EBADF | EIO | ETXTBSY | ENODEV | other => exact List.suffix_cons _ _
    | full => exact List.suffix_cons _ _
    | short n => exact List.suffix_cons _ _

theorem NoException.suffix {script script' : List WriteOutcome} (h : NoException script)
    (hsuffix : script' <:+ script) : NoException script' :=
  fun o ho => h o (hsuffix.subset ho)

namespace TxState

/-- The state after a `write()` of `buf`, which left `errno` behind. -/
def take (tx : TxState) (buf : List UInt8) (errno : Errno) : TxState :=
  { tx with
    script := afterTaken tx.script
    errno
    wire := tx.wire ++ buf.take (taken buf.length tx.script) }

/-- A `write()`, made again when it is interrupted: it takes as much as the device says, and fails
only where it takes nothing. -/
theorem writeRetry_spec (buf : List UInt8) (tx : TxState) :
    ∃ c e, writeRetry buf tx.script tx = (c, tx.take buf e) ∧
      (c = some (taken buf.length tx.script) ∨
        c = none ∧ taken buf.length tx.script = 0 ∧ .failed e ∈ tx.script) := by
  obtain ⟨script, errno, wire, pf, stop, ee, frames⟩ := tx
  induction script generalizing errno with
  | nil =>
    exact ⟨some buf.length, errno, by simp [writeRetry, write, take, taken, afterTaken], .inl rfl⟩
  | cons o script ih =>
    cases o with
    | full =>
      exact ⟨some buf.length, errno, by simp [writeRetry, write, take, taken, afterTaken], .inl rfl⟩
    | short n =>
      refine ⟨some (min n buf.length), errno, ?_, .inl rfl⟩
      simp [writeRetry, write, take, taken, afterTaken, List.take_eq_take_min]
    | failed e =>
      cases e with
      | EINTR =>
        obtain ⟨c, e, heq, hc⟩ := ih .EINTR
        refine ⟨c, e, ?_, ?_⟩
        · rw [writeRetry]
          exact heq
        · rcases hc with hc | ⟨hnone, hzero, hmem⟩
          · exact .inl hc
          · exact .inr ⟨hnone, hzero, List.mem_cons_of_mem _ hmem⟩
      | EAGAIN | EBADF | EIO | ETXTBSY | ENODEV | other =>
        exact ⟨none, _, by simp [writeRetry, write, take, taken, afterTaken],
          .inr ⟨rfl, rfl, List.mem_cons_self⟩⟩

end TxState

/-! ## Broken attempts -/

/-- The `write()` calls of these lengths all take everything. -/
def WholeWrites : List Nat → List WriteOutcome → Prop
  | [], _ => True
  | length :: lengths, script =>
      taken length script = length ∧ WholeWrites lengths (afterTaken script)

instance decidableWholeWrites : ∀ lengths script, Decidable (WholeWrites lengths script)
  | [], _ => isTrue trivial
  | length :: lengths, script =>
      @instDecidableAnd _ _ (Nat.decEq (taken length script) length)
        (decidableWholeWrites lengths (afterTaken script))

/-- `prefix_length` -/
def prefixLength (length : Nat) : Nat := if length > 127 then 5 else 4

/-- The lengths of the `write()` calls for a frame of `length` octets: prefix, data and postfix. -/
def partLengths (length : Nat) : List Nat :=
  if length > 0 then [prefixLength length, length, 2] else [prefixLength length, 2]

/-- A frame of `length` octets goes out whole, or nothing of it does, or its start flag only. -/
def CleanAttempt (script : List WriteOutcome) (length : Nat) : Prop :=
  WholeWrites (partLengths length) script ∨ taken (prefixLength length) script ≤ 1

instance decidableCleanAttempt (script : List WriteOutcome) (length : Nat) :
    Decidable (CleanAttempt script length) := inferInstanceAs (Decidable (_ ∨ _))

/-- Each call of `write_frame` in turn is clean. -/
def CleanRun (cfg : MuxConfig) : TxState → List WriteCall → Prop
  | _, [] => True
  | tx, call :: calls =>
      CleanAttempt tx.script (min (cfg.negotiatedN1 call.channel) call.length) ∧
        CleanRun cfg (writeFrame cfg false tx call.channel call.input call.length call.type).2 calls

instance decidableCleanRun (cfg : MuxConfig) : ∀ calls tx, Decidable (CleanRun cfg tx calls)
  | [], _ => isTrue trivial
  | _ :: calls, _ =>
      @instDecidableAnd _ _ (decidableCleanAttempt _ _) (decidableCleanRun cfg calls _)

/-- Each call of `write_frame` in the loop of `handle_channel_data` is clean. -/
def CleanLoop (cfg : MuxConfig) (buf : List UInt8) (channel : Nat) :
    Nat → Nat → Nat → TxState → Prop
  | 0, _, _, _ => True
  | fuel + 1, written, i, tx =>
      written ≠ buf.length ∧ i < gsm0710WriteRetries →
        CleanAttempt tx.script (min (cfg.negotiatedN1 channel) (buf.length - written)) ∧
          let r := writeFrame cfg false tx channel (buf.drop written) (buf.length - written)
            gsm0710TypeUih
          CleanLoop cfg buf channel fuel (written + r.1) (if r.1 = 0 then i + 1 else i) r.2

instance decidableCleanLoop (cfg : MuxConfig) (buf : List UInt8) (channel : Nat) :
    ∀ fuel written i tx, Decidable (CleanLoop cfg buf channel fuel written i tx)
  | 0, _, _, _ => isTrue trivial
  | fuel + 1, _, _, _ =>
      have := decidableCleanLoop cfg buf channel fuel
      inferInstanceAs (Decidable (_ → _ ∧ _))

/-- Each call of `write_frame` that `handle_channel_data` makes is clean. -/
def CleanSend (cfg : MuxConfig) (tx : TxState) (buf : List UInt8) (channel : Nat) : Prop :=
  CleanLoop cfg buf channel (buf.length + gsm0710WriteRetries) 0 0 tx

instance decidableCleanSend (cfg : MuxConfig) (tx : TxState) (buf : List UInt8) (channel : Nat) :
    Decidable (CleanSend cfg tx buf channel) := decidableCleanLoop cfg buf channel _ _ _ _

/-! ## What an attempt leaves on the wire -/

/-- From `tx` to `tx'` exactly `frames` have gone out, with fill between them. -/
structure Continues (tx tx' : TxState) (frames : List GSM0710Frame) : Prop where
  wire : ∃ w, tx'.wire = tx.wire ++ w ∧ FilledBase frames w
  framesWritten : tx'.framesWritten = tx.framesWritten ++ frames
  script : tx'.script <:+ tx.script
  running : tx'.stopMuxd = tx.stopMuxd

namespace Continues

variable {tx tx' tx'' : TxState} {frames frames' : List GSM0710Frame}

theorem refl (tx : TxState) : Continues tx tx [] :=
  ⟨⟨[], (List.append_nil _).symm, .nil⟩, (List.append_nil _).symm, List.suffix_rfl, rfl⟩

theorem trans (h : Continues tx tx' frames) (h' : Continues tx' tx'' frames') :
    Continues tx tx'' (frames ++ frames') := by
  obtain ⟨w, hw, hfilled⟩ := h.wire
  obtain ⟨w', hw', hfilled'⟩ := h'.wire
  refine ⟨⟨w ++ w', ?_, hfilled.append hfilled'⟩, ?_, h'.script.trans h.script,
    h'.running.trans h.running⟩
  · rw [hw', hw, List.append_assoc]
  · rw [h'.framesWritten, h.framesWritten, List.append_assoc]

end Continues

/-- One `write()` later, `bytes` have gone out. -/
structure Takes (tx tx' : TxState) (bytes : List UInt8) : Prop where
  wire : tx'.wire = tx.wire ++ bytes
  script : tx'.script = afterTaken tx.script
  framesWritten : tx'.framesWritten = tx.framesWritten
  running : tx'.stopMuxd = tx.stopMuxd

/-- A part that the device takes whole. -/
theorem writePart_whole {tx : TxState} {buf : List UInt8} (hne : buf ≠ [])
    (h : taken buf.length tx.script = buf.length) (anyErrno : Bool) (length : Nat) :
    ∃ tx', writePart anyErrno length buf tx = .ok tx' ∧ Takes tx tx' buf := by
  obtain ⟨c, e, hwrite, hc⟩ := TxState.writeRetry_spec buf tx
  refine ⟨tx.take buf e, ?_, ?_, rfl, rfl, rfl⟩
  · rcases hc with rfl | ⟨-, hzero, -⟩
    · simp only [writePart, hwrite, h, if_true]
    · exact absurd (List.length_eq_zero_iff.mp (h.symm.trans hzero)) hne
  · rw [TxState.take, h, List.take_length]

/-- A prefix or payload that the device does not take whole. -/
theorem writePart_broken {tx : TxState} {buf : List UInt8} (hno : NoException tx.script)
    (h : taken buf.length tx.script ≠ buf.length) (length : Nat) :
    ∃ e, writePart false length buf tx = .error (0, tx.take buf e) := by
  obtain ⟨c, e, hwrite, hc⟩ := TxState.writeRetry_spec buf tx
  refine ⟨e, ?_⟩
  rcases hc with rfl | ⟨rfl, -, hmem⟩
  · have hshort : some (taken buf.length tx.script) ≠ some buf.length :=
      fun heq => h (Option.some.inj heq)
    simp only [writePart, hwrite, if_neg hshort]
    rfl
  · have he := hno _ hmem
    have hbusy : e ≠ .ETXTBSY := fun heq => he.1 (congrArg _ heq)
    have hgone : e ≠ .ENODEV := fun heq => he.2 (congrArg _ heq)
    simp [writePart, hwrite, TxState.take, hbusy, hgone]

theorem length_prefix (channel : Nat) (control : UInt8) (length : Nat) :
    (gsm0710FrameFlag :: baseHeader channel control length).length = prefixLength length := by
  simp only [baseHeader, lengthField, prefixLength, List.length_cons]
  split
  · rfl
  · rfl

/-- One octet of a prefix, or none, is fill. -/
theorem filled_take_prefix {n : Nat} (hn : n ≤ 1) (rest : List UInt8) :
    FilledBase [] ((gsm0710FrameFlag :: rest).take n) := by
  rcases Nat.le_one_iff_eq_zero_or_eq_one.mp hn with rfl | rfl
  · exact .nil
  · exact .fill .nil

/-- What an attempt leaves when the device takes all of it. -/
theorem writeFrameBase_whole {tx : TxState} (channel : Nat) (control : UInt8) {data : List UInt8}
    (hwhole : WholeWrites (partLengths data.length) tx.script) :
    (writeFrameBase tx channel control data).1 = data.length ∧
      Continues tx (writeFrameBase tx channel control data).2
        [⟨UInt8.ofNat channel, control, data⟩] := by
  have hprefix := length_prefix channel control data.length
  have hframe : FilledBase [⟨UInt8.ofNat channel, control, data⟩]
      (encodeBase ⟨UInt8.ofNat channel, control, data⟩) := .single _
  rw [encodeBase_ofNat] at hframe
  have hpostfix : [frameCalcCrc (baseHeader channel control data.length), gsm0710FrameFlag] ≠ [] :=
    List.cons_ne_nil _ _
  have hfirst : taken (prefixLength data.length) tx.script = prefixLength data.length := by
    unfold partLengths at hwhole
    split at hwhole
    · exact hwhole.1
    · exact hwhole.1
  rw [← hprefix] at hfirst
  obtain ⟨tx₁, hpart₁, htakes₁⟩ := writePart_whole (List.cons_ne_nil _ _) hfirst false data.length
  by_cases hlen : data.length > 0
  · rw [partLengths, if_pos hlen] at hwhole
    obtain ⟨-, hsecond, hthird, -⟩ := hwhole
    rw [← htakes₁.script] at hsecond hthird
    obtain ⟨tx₂, hpart₂, htakes₂⟩ :=
      writePart_whole (List.ne_nil_of_length_pos hlen) hsecond false data.length
    rw [← htakes₂.script] at hthird
    obtain ⟨tx₃, hpart₃, htakes₃⟩ := writePart_whole hpostfix hthird true data.length
    simp only [writeFrameBase, hpart₁, if_pos hlen, hpart₂, hpart₃, bind, Except.bind]
    refine ⟨trivial, ⟨_, ?_, hframe⟩, ?_, ?_, ?_⟩
    · rw [htakes₃.wire, htakes₂.wire, htakes₁.wire]
      simp
    · rw [htakes₃.framesWritten, htakes₂.framesWritten, htakes₁.framesWritten]
    · rw [htakes₃.script, htakes₂.script, htakes₁.script]
      exact ((afterTaken_suffix _).trans (afterTaken_suffix _)).trans (afterTaken_suffix _)
    · exact (htakes₃.running.trans htakes₂.running).trans htakes₁.running
  · obtain rfl : data = [] := List.eq_nil_of_length_eq_zero (Nat.eq_zero_of_not_pos hlen)
    rw [partLengths, if_neg hlen] at hwhole
    obtain ⟨-, hsecond, -⟩ := hwhole
    rw [← htakes₁.script] at hsecond
    obtain ⟨tx₂, hpart₂, htakes₂⟩ := writePart_whole hpostfix hsecond true ([] : List UInt8).length
    simp only [writeFrameBase, hpart₁, if_neg hlen, hpart₂, bind, Except.bind, pure, Except.pure]
    refine ⟨trivial, ⟨_, ?_, hframe⟩, ?_, ?_, ?_⟩
    · rw [htakes₂.wire, htakes₁.wire]
      simp
    · rw [htakes₂.framesWritten, htakes₁.framesWritten]
    · rw [htakes₂.script, htakes₁.script]
      exact (afterTaken_suffix _).trans (afterTaken_suffix _)
    · exact htakes₂.running.trans htakes₁.running

/-- A clean attempt reports nothing and leaves fill, or reports the frame and leaves it. -/
theorem writeFrameBase_continues {tx : TxState} (hno : NoException tx.script) (channel : Nat)
    (control : UInt8) {data : List UInt8} (hclean : CleanAttempt tx.script data.length) :
    (writeFrameBase tx channel control data).1 = 0 ∧
        Continues tx (writeFrameBase tx channel control data).2 [] ∨
      (writeFrameBase tx channel control data).1 = data.length ∧
        Continues tx (writeFrameBase tx channel control data).2
          [⟨UInt8.ofNat channel, control, data⟩] := by
  have hprefix := length_prefix channel control data.length
  by_cases hbroken : taken (prefixLength data.length) tx.script = prefixLength data.length
  · right
    refine writeFrameBase_whole channel control (hclean.resolve_right ?_)
    rw [hbroken, prefixLength]
    split
    · decide
    · decide
  · left
    have hone : taken (prefixLength data.length) tx.script ≤ 1 := by
      rcases hclean with hwhole | hone
      · unfold partLengths at hwhole
        split at hwhole
        · exact absurd hwhole.1 hbroken
        · exact absurd hwhole.1 hbroken
      · exact hone
    rw [← hprefix] at hbroken hone
    obtain ⟨e, hpart⟩ := writePart_broken hno hbroken data.length
    simp only [writeFrameBase, hpart, bind, Except.bind]
    refine ⟨trivial, ⟨_, rfl, filled_take_prefix hone _⟩, (List.append_nil _).symm,
      afterTaken_suffix _, rfl⟩

/-- What a clean call of `write_frame` reports, and what it leaves. -/
theorem writeFrame_continues (cfg : MuxConfig) {tx : TxState} (hno : NoException tx.script)
    (hrun : tx.stopMuxd = false) (channel : Nat) {input : List UInt8} {length : Nat}
    (hlen : length ≤ input.length) (type : UInt8)
    (hclean : CleanAttempt tx.script (min (cfg.negotiatedN1 channel) length)) :
    (writeFrame cfg false tx channel input length type).1 = 0 ∧
        Continues tx (writeFrame cfg false tx channel input length type).2 [] ∨
      (writeFrame cfg false tx channel input length type).1 =
          min (cfg.negotiatedN1 channel) length ∧
        Continues tx (writeFrame cfg false tx channel input length type).2
          [⟨UInt8.ofNat channel, (frameControl tx input type).1,
            input.take (min (cfg.negotiatedN1 channel) length)⟩] := by
  have hcount : (input.take (min (cfg.negotiatedN1 channel) length)).length =
      min (cfg.negotiatedN1 channel) length := by
    rw [List.length_take]
    omega
  rw [writeFrame, if_neg (by simp [hrun])]
  have hno' : NoException
      { tx with uihPfBitReceived := (frameControl tx input type).2 }.script := hno
  have h := writeFrameBase_continues hno' channel (frameControl tx input type).1
    (hcount.symm ▸ hclean)
  rw [hcount] at h
  rcases h with ⟨hzero, hcont⟩ | ⟨hall, hcont⟩
  · exact .inl ⟨hzero, hcont.wire, hcont.framesWritten, hcont.script, hcont.running⟩
  · exact .inr ⟨hall, hcont.wire, hcont.framesWritten, hcont.script, hcont.running⟩

theorem WrittenBy.sendable_base {cfg : MuxConfig} (hn1 : ∀ c < 64, cfg.negotiatedN1 c ≤ 1509)
    {call : WriteCall} {f : GSM0710Frame} (h : WrittenBy cfg call f) : Sendable cfg f := by
  have hlt := call.channel_lt
  have hmax := hn1 call.channel hlt
  have hchannel : f.channel.toNat = call.channel := by
    rw [h.channel_eq, UInt8.toNat_ofNat']
    omega
  have hlength : f.length ≤ cfg.negotiatedN1 call.channel := by
    rw [GSM0710Frame.length, h.data_eq, List.length_take]
    exact (Nat.min_le_left ..).trans (Nat.min_le_left ..)
  exact ⟨hchannel ▸ hlt, hchannel ▸ hlength, by omega, (h.sendable hn1).not_ui⟩

/-- What clean calls of `write_frame` leave, one after the other. -/
theorem writeAll_continues {cfg : MuxConfig} (hn1 : ∀ c < 64, cfg.negotiatedN1 c ≤ 1509)
    (calls : List WriteCall) {tx : TxState} (hno : NoException tx.script)
    (hrun : tx.stopMuxd = false) (hclean : CleanRun cfg tx calls) :
    ∃ frames, Continues tx (writeAll cfg false tx calls) frames ∧
      ∀ f ∈ frames, Sendable cfg f := by
  induction calls generalizing tx with
  | nil => exact ⟨[], .refl tx, fun f hf => absurd hf List.not_mem_nil⟩
  | cons call calls ih =>
    have hcall := writeFrame_continues cfg hno hrun call.channel call.length_le call.type hclean.1
    generalize hr : writeFrame cfg false tx call.channel call.input call.length call.type = r
      at hcall
    have hstep : ∃ frames, Continues tx r.2 frames ∧ ∀ f ∈ frames, Sendable cfg f := by
      rcases hcall with ⟨-, hcont⟩ | ⟨-, hcont⟩
      · exact ⟨[], hcont, fun f hf => absurd hf List.not_mem_nil⟩
      · refine ⟨_, hcont, fun f hf => ?_⟩
        have hwritten : WrittenBy cfg call f := by
          obtain rfl := List.mem_singleton.mp hf
          exact ⟨rfl, frameControl_fst .., rfl⟩
        exact hwritten.sendable_base hn1
    obtain ⟨frames, hcont, hsendable⟩ := hstep
    obtain ⟨frames', hcont', hsendable'⟩ := ih (hno.suffix hcont.script)
      (hcont.running.trans hrun) (hr ▸ hclean.2)
    refine ⟨frames ++ frames', ?_, ?_⟩
    · rw [writeAll, List.foldl_cons, hr]
      exact hcont.trans hcont'
    · intro f hf
      rcases List.mem_append.mp hf with hf | hf
      · exact hsendable f hf
      · exact hsendable' f hf

/-- What the loop of `handle_channel_data` leaves when its calls of `write_frame` are clean. -/
theorem handleChannelDataLoop_continues (cfg : MuxConfig) (buf : List UInt8) (channel : Nat) :
    ∀ (fuel written i : Nat) (tx : TxState), NoException tx.script → tx.stopMuxd = false →
      written ≤ buf.length → CleanLoop cfg buf channel fuel written i tx →
      ∃ more frames tx', handleChannelDataLoop cfg false buf channel fuel written i tx =
          (written + more, tx') ∧
        Continues tx tx' frames ∧ (∀ f ∈ frames, Segment cfg channel f) ∧
        frames.flatMap GSM0710Frame.data = (buf.drop written).take more ∧
        written + more ≤ buf.length := by
  intro fuel
  induction fuel with
  | zero =>
    intro written i tx _ _ hle _
    exact ⟨0, [], tx, rfl, .refl tx, fun f hf => absurd hf List.not_mem_nil, rfl, hle⟩
  | succ fuel ih =>
    intro written i tx hno hrun hle hclean
    rw [handleChannelDataLoop]
    by_cases hgo : written ≠ buf.length ∧ i < gsm0710WriteRetries
    · rw [if_pos hgo]
      obtain ⟨hattempt, hloop⟩ := hclean hgo
      have hinput : (buf.drop written).length = buf.length - written := List.length_drop
      have hcall := writeFrame_continues cfg hno hrun channel (Nat.le_of_eq hinput.symm)
        gsm0710TypeUih hattempt
      generalize hr : writeFrame cfg false tx channel (buf.drop written) (buf.length - written)
        gsm0710TypeUih = r at hcall hloop
      obtain ⟨last, tx₁⟩ := r
      dsimp only at hcall hloop ⊢
      have hstep : ∃ frames, Continues tx tx₁ frames ∧ (∀ f ∈ frames, Segment cfg channel f) ∧
          frames.flatMap GSM0710Frame.data = (buf.drop written).take last ∧
          written + last ≤ buf.length := by
        rcases hcall with ⟨rfl, hcont⟩ | ⟨rfl, hcont⟩
        · exact ⟨[], hcont, fun f hf => absurd hf List.not_mem_nil, rfl, hle⟩
        · refine ⟨_, hcont, fun f hf => ?_, List.flatMap_singleton .., by omega⟩
          obtain rfl := List.mem_singleton.mp hf
          refine ⟨rfl, frameControl_fst .., ?_⟩
          simp only [GSM0710Frame.length, List.length_take]
          omega
      obtain ⟨frames, hcont, hseg, hdata, hle₁⟩ := hstep
      obtain ⟨more, frames', tx', hrest, hcont', hseg', hdata', hle'⟩ :=
        ih (written + last) _ tx₁ (hno.suffix hcont.script) (hcont.running.trans hrun) hle₁ hloop
      refine ⟨last + more, frames ++ frames', tx', ?_, hcont.trans hcont', ?_, ?_, by omega⟩
      · rw [hrest, Nat.add_assoc]
      · intro f hf
        rcases List.mem_append.mp hf with hf | hf
        · exact hseg f hf
        · exact hseg' f hf
      · rw [List.flatMap_append, hdata, hdata', ← List.drop_drop, ← List.take_add]
    · rw [if_neg hgo]
      exact ⟨0, [], tx, rfl, .refl tx, fun f hf => absurd hf List.not_mem_nil, rfl, hle⟩

/-- What `handle_channel_data` leaves when its calls of `write_frame` are clean. -/
theorem handleChannelData_continues (cfg : MuxConfig) {tx : TxState} (hno : NoException tx.script)
    (hrun : tx.stopMuxd = false) {buf : List UInt8} {channel : Nat}
    (hclean : CleanSend cfg tx buf channel) :
    ∃ frames, Continues tx (handleChannelData cfg false tx buf channel).2 frames ∧
      (∀ f ∈ frames, Segment cfg channel f) ∧
      frames.flatMap GSM0710Frame.data =
        buf.take (buf.length - (handleChannelData cfg false tx buf channel).1) := by
  obtain ⟨more, frames, tx', hloop, hcont, hseg, hdata, hle⟩ := handleChannelDataLoop_continues cfg
    buf channel (buf.length + gsm0710WriteRetries) 0 0 tx hno hrun (Nat.zero_le _) hclean
  simp only [handleChannelData, hloop]
  refine ⟨frames, hcont, hseg, ?_⟩
  rw [hdata, List.drop_zero]
  congr 1
  omega

/-! ## What the peer gets -/

/-- A peer that is fed the octets on the wire, in whatever pieces and asked whenever, gets the
frames `frames` and nothing else. -/
def PeerReceives (cfg : MuxConfig) (wire : List UInt8) (frames : List GSM0710Frame) : Prop :=
  ∀ ops : List (Receiver.Op UInt8), Receiver.fed ops = wire →
    (baseReceiver cfg).Fits GSM0710Buffer.init ops → ∀ k, frames.length ≤ k →
      ∃ buf, (baseReceiver cfg).run GSM0710Buffer.init (ops ++ List.replicate k .ask) =
        some (frames, buf)

/-- When `handle_channel_data` says that nothing of `buf` remains, the peer receives exactly `buf`
on the channel, and the frames that are written afterwards. -/
def Harmless (cfg : MuxConfig) (tx : TxState) (buf : List UInt8) (channel : Nat)
    (after : List WriteCall) : Prop :=
  let r := handleChannelData cfg false tx buf channel
  let t := writeAll cfg false r.2 after
  r.1 = 0 → ∃ own later, r.2.framesWritten = tx.framesWritten ++ own ∧
    t.framesWritten = r.2.framesWritten ++ later ∧
    (∀ f ∈ own, f.channel = UInt8.ofNat channel) ∧ own.flatMap GSM0710Frame.data = buf ∧
    PeerReceives cfg t.wire t.framesWritten

/-- Nothing has been written yet, the mux is not being stopped, and the modem will not go into its
exception state. -/
structure TxState.Opened (tx : TxState) : Prop where
  wire : tx.wire = []
  framesWritten : tx.framesWritten = []
  running : tx.stopMuxd = false
  noException : NoException tx.script

/-- A stream with nothing but fill between its frames is received. -/
theorem Continues.peerReceives {cfg : MuxConfig} {tx tx' : TxState} {frames : List GSM0710Frame}
    (hopened : tx.Opened) (h : Continues tx tx' frames) (hsendable : ∀ f ∈ frames, Sendable cfg f) :
    PeerReceives cfg tx'.wire tx'.framesWritten := by
  intro ops hfed hfit k hk
  obtain ⟨w, hw, hfilled⟩ := h.wire
  rw [hopened.wire, List.nil_append] at hw
  have hframes := h.framesWritten
  rw [hopened.framesWritten, List.nil_append] at hframes
  have hpending : BasePending cfg GSM0710Buffer.init frames (Receiver.fed ops) := by
    refine ⟨wf_init, rfl, hsendable, ?_⟩
    rw [hfed, hw]
    exact hfilled
  rw [hframes] at hk ⊢
  obtain ⟨buf, hrun, -⟩ := (baseReceiver_decodes cfg).run_all hpending hfit hk
  exact ⟨buf, hrun⟩

/-- **Short and failing writes.**  Whatever has been written before, and whatever the device does:
if an attempt that breaks off has put nothing on the wire, or its start flag only, then a byte
string of which `handle_channel_data` says that nothing remains is received by the peer on its
channel, exactly, and so is every frame that is written afterwards. -/
theorem shortWrites_harmless (cfg : MuxConfig) (hn1 : ∀ c < 64, cfg.negotiatedN1 c ≤ 1509)
    {tx : TxState} (hopened : tx.Opened) (before after : List WriteCall) (buf : List UInt8)
    {channel : Nat} (hchannel : channel < cfg.maxChannels) (hbefore : CleanRun cfg tx before)
    (hsend : CleanSend cfg (writeAll cfg false tx before) buf channel)
    (hafter : CleanRun cfg
      (handleChannelData cfg false (writeAll cfg false tx before) buf channel).2 after) :
    Harmless cfg (writeAll cfg false tx before) buf channel after := by
  obtain ⟨frames₁, hcont₁, hsendable₁⟩ :=
    writeAll_continues hn1 before hopened.noException hopened.running hbefore
  have hno₁ := hopened.noException.suffix hcont₁.script
  have hrun₁ := hcont₁.running.trans hopened.running
  obtain ⟨own, hcont₂, hseg, hdata⟩ := handleChannelData_continues cfg hno₁ hrun₁ hsend
  obtain ⟨later, hcont₃, hsendable₃⟩ := writeAll_continues hn1 after (hno₁.suffix hcont₂.script)
    (hcont₂.running.trans hrun₁) hafter
  intro hzero
  refine ⟨own, later, hcont₂.framesWritten, hcont₃.framesWritten,
    fun f hf => (hseg f hf).channel_eq, ?_, ?_⟩
  · rw [hdata, hzero, Nat.sub_zero, List.take_length]
  · refine ((hcont₁.trans hcont₂).trans hcont₃).peerReceives hopened fun f hf => ?_
    have hsendable₂ : ∀ f ∈ own, Sendable cfg f := fun f hf =>
      (hseg f hf).sendable (fun c hc => hn1 c (Nat.lt_of_lt_of_le hc cfg.maxChannels_le)) hchannel
    rcases List.mem_append.mp hf with hf | hf
    · rcases List.mem_append.mp hf with hf | hf
      · exact hsendable₁ f hf
      · exact hsendable₂ f hf
    · exact hsendable₃ f hf

/-- Three octets on channel 1, the first of them a flag, in frames of at most two: of the first
attempt the device takes nothing, of the second the start flag.  A frame for channel 4 goes out
before them and another one after them, the latter after an interrupted call. -/
theorem shortWrites_harmless_three :
    let cfg : MuxConfig := ⟨32, fun _ => 2, by decide⟩
    let call : WriteCall := ⟨4, [0x45], 1, 0xEF, by decide, by decide, by decide⟩
    let tx : TxState :=
      { script := [.full, .full, .full, .failed .EAGAIN, .short 1, .full, .full, .full, .short 9,
          .full, .short 2, .failed .EINTR] }
    (handleChannelData cfg false (writeAll cfg false tx [call]) [0xF9, 0x41, 0x42] 1).1 = 0 ∧
      Harmless cfg (writeAll cfg false tx [call]) [0xF9, 0x41, 0x42] 1 [call] := by
  refine ⟨by decide +kernel, ?_⟩
  exact shortWrites_harmless ⟨32, fun _ => 2, by decide⟩ (fun _ _ => by simp)
    ⟨rfl, rfl, rfl, by unfold NoException; decide⟩ [_] [_] [0xF9, 0x41, 0x42]
    (by decide) (by decide +kernel) (by decide +kernel) (by decide +kernel)

/-- The device takes the prefix of the first attempt and nothing else; the second goes out whole,
and `handle_channel_data` says that nothing remains.  The peer takes the second prefix for the
payload of the first, and drops the frame. -/
theorem secondPrefix_harmful :
    ¬ Harmless ⟨32, fun _ => 2, by decide⟩ { script := [.full, .failed .EAGAIN] } [0x41, 0x42] 1
      [] := by
  intro h
  obtain ⟨own, later, -, -, -, -, hpeer⟩ := h (by decide +kernel)
  obtain ⟨buf, hrun⟩ := hpeer [.feed _] (List.append_nil _) ⟨by decide +kernel, trivial⟩ 1
    (by decide +kernel)
  have hnone : ((baseReceiver ⟨32, fun _ => 2, by decide⟩).run GSM0710Buffer.init
      ([.feed (writeAll ⟨32, fun _ => 2, by decide⟩ false (handleChannelData
        ⟨32, fun _ => 2, by decide⟩ false { script := [.full, .failed .EAGAIN] } [0x41, 0x42]
          1).2 []).wire] ++ List.replicate 1 .ask)).map Prod.fst = some [] := by
    decide +kernel
  rw [hrun] at hnone
  exact absurd (show (writeAll _ _ _ _).framesWritten = [] from Option.some.inj hnone)
    (by decide +kernel)

/-- Where only the closing flag is missing, the start flag of the next attempt closes the frame, and
the octets behind it may be skipped as a whole: what becomes of a broken attempt depends on the
payload, too. -/
example :
    let cfg : MuxConfig := ⟨32, fun _ => 64, by decide⟩
    let t := (handleChannelData cfg false { script := [.full, .full, .short 1] } [1, 2, 3] 1).2
    ((baseReceiver cfg).run GSM0710Buffer.init
      ([.feed t.wire] ++ List.replicate 3 .ask)).map Prod.fst = some t.framesWritten := by
  decide +kernel

end MtkHw.Mux
