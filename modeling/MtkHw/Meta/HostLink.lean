import MtkHw.Meta.HostDecode

/-!
# The link of the META host

What becomes of the frames that the META host sends, whatever the reads that the calls of
`onReceived` pass on.  A call delivers what has been completely received, and keeps the part of
the next frame, as long as

* no frame but the last one of the call is discarded: after a frame that is not valid the call
  returns, and what has been received behind the frame waits for the next call;
* the decoder does not take the octet of the memory behind what is pending for the second
  octet of an escape pair of a length field.

`delivered_iff` says that both are necessary.
-/

namespace MtkHw.Meta

open Lib HostFrame

/-- The frame is not discarded. -/
def Accepted (c : Context) (f : HostFrame) : Prop := f.outcome c ≠ .invalid

instance (c : Context) (f : HostFrame) : Decidable (Accepted c f) :=
  inferInstanceAs (Decidable (_ ≠ _))

/-- All that the host has sent up to a call. -/
def received (calls : List Call) : List UInt8 := calls.flatMap Call.buf

theorem received_nil : received [] = [] := rfl

theorem received_cons (call : Call) (calls : List Call) :
    received (call :: calls) = call.buf ++ received calls := rfl

/-- A call that completes the frames `new` and has `tail` of the next one discards no frame but
the last, and does not read behind what is pending unless it discards that one. -/
def Clean (c : Context) (new : List HostFrame) (tail : List UInt8) (call : Call) : Prop :=
  (∀ f ∈ new.dropLast, Accepted c f) ∧
    ((∀ f ∈ new, Accepted c f) → ¬ UsbRxWatcher.Overreads (call.behind tail) tail)

theorem clean_nil {c : Context} {tail : List UInt8} {call : Call} :
    Clean c [] tail call ↔ ¬ UsbRxWatcher.Overreads (call.behind tail) tail :=
  ⟨fun h => h.2 fun _ hf => absurd hf List.not_mem_nil,
    fun h => ⟨fun _ hf => absurd hf List.not_mem_nil, fun _ => h⟩⟩

/-- A frame that is not discarded does not matter. -/
theorem clean_cons {c : Context} {f : HostFrame} {new : List HostFrame} {tail : List UInt8}
    {call : Call} (hf : Accepted c f) : Clean c (f :: new) tail call ↔ Clean c new tail call := by
  have hall : (∀ g ∈ f :: new, Accepted c g) ↔ ∀ g ∈ new, Accepted c g := by
    rw [List.forall_mem_cons]
    exact and_iff_right hf
  have hlast : (∀ g ∈ (f :: new).dropLast, Accepted c g) ↔ ∀ g ∈ new.dropLast, Accepted c g := by
    cases new with
    | nil => rfl
    | cons g new =>
      rw [List.dropLast_cons_cons, List.forall_mem_cons]
      exact and_iff_right hf
  rw [Clean, Clean, hall, hlast]

/-- A frame that is discarded has to be the last one. -/
theorem clean_cons_discarded {c : Context} {f : HostFrame} {new : List HostFrame}
    {tail : List UInt8} {call : Call} (hf : ¬ Accepted c f) :
    Clean c (f :: new) tail call ↔ new = [] := by
  constructor
  · rintro ⟨h, -⟩
    cases new with
    | nil => rfl
    | cons g new =>
      rw [List.dropLast_cons_cons] at h
      exact absurd (h f List.mem_cons_self) hf
  · rintro rfl
    exact ⟨fun _ hg => absurd hg List.not_mem_nil, fun h => absurd (h f List.mem_cons_self) hf⟩

namespace HostLink

variable {c : Context} {behind : List UInt8 → UInt8} {s : HostLink} {f : HostFrame}
  {fs new : List HostFrame} {rest tail : List UInt8}

/-- The watcher has taken the frames of `new`, and keeps `tail`. -/
def Took (c : Context) (s : HostLink) (new : List HostFrame) (tail : List UInt8) (s' : HostLink) :
    Prop :=
  s'.log = s.log ++ new.map (outcome c) ∧ s'.remain = tail

theorem Took.length_log {s' : HostLink} (h : Took c s new tail s') :
    s'.log.length = s.log.length + new.length := by
  rw [h.1, List.length_append, List.length_map]

theorem Took.cons {s' s'' : HostLink} {tail' : List UInt8} (h : Took c s [f] tail' s')
    (h' : Took c s' new tail s'') : Took c s (f :: new) tail s'' := by
  refine ⟨?_, h'.2⟩
  rw [h'.1, h.1, List.append_assoc]
  rfl

/-! ## Turns -/

/-- A frame is taken, and more is pending. -/
theorem turn_accepted (behind : List UInt8 → UInt8) (s : HostLink) (hf : f.WellFormed)
    (haccepted : Accepted c f) (hrest : rest ≠ []) (hlen : (f.wire ++ rest).length < 65536) :
    ∃ s', turn c behind (s, f.wire ++ rest) = .inl (s', rest) ∧ Took c s [f] [] s' := by
  obtain ⟨w', hdecode⟩ := UsbRxWatcher.decode_wire hf c rest hlen (behind (f.wire ++ rest)) s.watcher
  have hlt : f.wire.length < (f.wire ++ rest).length := by
    rw [List.length_append]
    exact Nat.lt_add_of_pos_right (List.length_pos_iff.mpr hrest)
  have hdrop : (f.wire ++ rest).drop f.wire.length = rest := List.drop_left' rfl
  rw [turn, hdecode]
  unfold Accepted at haccepted
  cases houtcome : f.outcome c with
  | invalid => exact absurd houtcome haccepted
  | ap token id localBuf peerBuf =>
    dsimp only
    rw [if_pos hlt, hdrop]
    exact ⟨_, rfl, by rw [List.map_singleton, houtcome], rfl⟩
  | md mdId data =>
    dsimp only
    rw [if_pos hlt, hdrop]
    exact ⟨_, rfl, by rw [List.map_singleton, houtcome], rfl⟩

/-- A frame is taken, and nothing else is pending. -/
theorem turn_last (behind : List UInt8 → UInt8) (s : HostLink) (hf : f.WellFormed)
    (hlen : f.wire.length < 65536) :
    ∃ s', turn c behind (s, f.wire) = .inr (some s') ∧ Took c s [f] [] s' := by
  have hdecode := UsbRxWatcher.decode_wire hf c [] (by rwa [List.append_nil]) (behind f.wire)
    s.watcher
  rw [List.append_nil] at hdecode
  obtain ⟨w', hdecode⟩ := hdecode
  rw [turn, hdecode]
  cases houtcome : f.outcome c with
  | invalid =>
    dsimp only
    rw [if_pos rfl]
    exact ⟨_, rfl, by rw [List.map_singleton, houtcome], rfl⟩
  | ap token id localBuf peerBuf =>
    dsimp only
    rw [if_neg (Nat.lt_irrefl _), if_pos rfl]
    exact ⟨_, rfl, by rw [List.map_singleton, houtcome], rfl⟩
  | md mdId data =>
    dsimp only
    rw [if_neg (Nat.lt_irrefl _), if_pos rfl]
    exact ⟨_, rfl, by rw [List.map_singleton, houtcome], rfl⟩

/-- After a frame that is discarded the rest waits. -/
theorem turn_discarded (behind : List UInt8 → UInt8) (s : HostLink) (hf : f.WellFormed)
    (hdiscarded : ¬ Accepted c f)
    (hlen : (f.wire ++ rest).length < 65536) :
    ∃ s', turn c behind (s, f.wire ++ rest) = .inr (some s') ∧ Took c s [f] rest s' := by
  obtain ⟨w', hdecode⟩ := UsbRxWatcher.decode_wire hf c rest hlen (behind (f.wire ++ rest)) s.watcher
  have houtcome : f.outcome c = .invalid := not_not.mp hdiscarded
  have hdrop : (f.wire ++ rest).drop f.wire.length = rest := List.drop_left' rfl
  rw [turn, hdecode, houtcome]
  dsimp only
  by_cases hrest : rest = []
  · subst hrest
    rw [List.append_nil, if_pos rfl]
    exact ⟨_, rfl, by rw [List.map_singleton, houtcome], rfl⟩
  · have hlt : f.wire.length < (f.wire ++ rest).length := by
      rw [List.length_append]
      exact Nat.lt_add_of_pos_right (List.length_pos_iff.mpr hrest)
    rw [if_neg (Nat.ne_of_gt hlt), if_pos hlt, hdrop]
    exact ⟨_, rfl, by rw [List.map_singleton, houtcome], rfl⟩

/-- A part of a frame is kept, unless the decoder reads behind it. -/
theorem turn_begins (hfs : ∀ f ∈ fs, f.WellFormed ∧ f.wire.length < 65536)
    (h : Begins wire tail fs) :
    (UsbRxWatcher.Overreads (behind tail) tail → turn c behind (s, tail) = .inr none) ∧
      (¬ UsbRxWatcher.Overreads (behind tail) tail →
        ∃ s', turn c behind (s, tail) = .inr (some s') ∧ Took c s [] tail s') := by
  by_cases htail : tail = []
  · subst htail
    refine ⟨fun hover => ?_, fun _ => ⟨{ s with remain := [] }, rfl, ?_, rfl⟩⟩
    · rcases hover.1 with h | ⟨b, h⟩ <;> cases h
    · exact (List.append_nil _).symm
  · cases fs with
    | nil => exact absurd h htail
    | cons f fs =>
      obtain ⟨hf, hfits⟩ := hfs f List.mem_cons_self
      obtain ⟨hover, hkeep⟩ :=
        UsbRxWatcher.decode_begins hf hfits c (behind tail) h htail s.watcher
      refine ⟨fun h => ?_, fun h => ?_⟩
      · rw [turn, hover h]
      · obtain ⟨w', hdecode⟩ := hkeep h
        rw [turn, hdecode]
        dsimp only
        rw [if_pos rfl]
        exact ⟨_, rfl, (List.append_nil _).symm, rfl⟩

/-! ## Calls -/

/-- Words that are not empty leave nothing only when there are none. -/
theorem pending_eq_nil {new : List HostFrame} {tail : List UInt8}
    (h : new.flatMap wire ++ tail = []) : new = [] ∧ tail = [] := by
  obtain ⟨hnew, htail⟩ := List.append_eq_nil_iff.mp h
  cases new with
  | nil => exact ⟨rfl, htail⟩
  | cons f new =>
    rw [List.flatMap_cons] at hnew
    exact absurd (List.append_eq_nil_iff.mp hnew).1 (wire_ne_nil f)

/-- A clean call takes all that has been completely received. -/
theorem loop_clean {call : Call} {n : Nat} (hfs : ∀ f ∈ fs, f.WellFormed ∧ f.wire.length < 65536)
    (hnew : ∀ f ∈ new, f.WellFormed) (hbegins : Begins wire tail fs)
    (hlen : (new.flatMap wire ++ tail).length < 65536) (hn : new.length < n)
    (hclean : Clean c new tail call) :
    ∃ s', loop (turn c call.behind) n (s, new.flatMap wire ++ tail) = some (some s') ∧
      Took c s new tail s' := by
  induction new generalizing s n with
  | nil =>
    obtain ⟨n, rfl⟩ := Nat.exists_eq_succ_of_ne_zero (Nat.ne_of_gt hn)
    obtain ⟨s', hturn, htook⟩ := (turn_begins (c := c) (s := s) hfs hbegins).2 (clean_nil.mp hclean)
    exact ⟨s', loop_of_inr hturn, htook⟩
  | cons f new ih =>
    obtain ⟨n, rfl⟩ := Nat.exists_eq_succ_of_ne_zero (Nat.ne_of_gt (Nat.zero_lt_of_lt hn))
    rw [List.flatMap_cons, List.append_assoc] at hlen ⊢
    obtain ⟨hf, hnew⟩ := List.forall_mem_cons.mp hnew
    by_cases hrest : new.flatMap wire ++ tail = []
    · obtain ⟨rfl, rfl⟩ := pending_eq_nil hrest
      rw [hrest, List.append_nil] at hlen ⊢
      obtain ⟨s', hturn, htook⟩ := turn_last (c := c) call.behind s hf hlen
      exact ⟨s', loop_of_inr hturn, htook⟩
    · by_cases haccepted : Accepted c f
      · obtain ⟨s₁, hturn, htook₁⟩ := turn_accepted call.behind s hf haccepted
          hrest hlen
        obtain ⟨s', hloop, htook⟩ := ih (s := s₁) (n := n) hnew
          (Nat.lt_of_le_of_lt (List.sublist_append_right f.wire _).length_le hlen)
          (Nat.lt_of_succ_lt_succ hn) ((clean_cons haccepted).mp hclean)
        exact ⟨s', (loop_of_inl hturn).trans hloop, htook₁.cons htook⟩
      · obtain rfl := (clean_cons_discarded haccepted).mp hclean
        obtain ⟨s', hturn, htook⟩ := turn_discarded call.behind s hf haccepted hlen
        exact ⟨s', loop_of_inr hturn, htook⟩

/-- A call that is not clean fails, or leaves a frame that has been completely received. -/
theorem loop_not_clean {call : Call} {n : Nat} {s' : HostLink}
    (hfs : ∀ f ∈ fs, f.WellFormed ∧ f.wire.length < 65536)
    (hnew : ∀ f ∈ new, f.WellFormed) (hbegins : Begins wire tail fs)
    (hlen : (new.flatMap wire ++ tail).length < 65536)
    (hclean : ¬ Clean c new tail call)
    (hloop : loop (turn c call.behind) n (s, new.flatMap wire ++ tail) = some (some s')) :
    s'.log.length < s.log.length + new.length := by
  induction new generalizing s n with
  | nil =>
    cases n with
    | zero => cases hloop
    | succ n =>
      have hturn := (turn_begins (c := c) (s := s) hfs hbegins).1
        (not_not.mp fun hover => hclean (clean_nil.mpr hover))
      rw [List.flatMap_nil, List.nil_append, loop_of_inr hturn] at hloop
      cases hloop
  | cons f new ih =>
    cases n with
    | zero => cases hloop
    | succ n =>
      rw [List.flatMap_cons, List.append_assoc] at hlen hloop
      obtain ⟨hf, hnew⟩ := List.forall_mem_cons.mp hnew
      by_cases haccepted : Accepted c f
      · rw [clean_cons haccepted] at hclean
        have hrest : new.flatMap wire ++ tail ≠ [] := by
          intro hrest
          obtain ⟨rfl, rfl⟩ := pending_eq_nil hrest
          refine hclean (clean_nil.mpr fun hover => ?_)
          rcases hover.1 with h | ⟨b, h⟩ <;> cases h
        obtain ⟨s₁, hturn, htook₁⟩ := turn_accepted call.behind s hf haccepted
          hrest hlen
        rw [loop_of_inl hturn] at hloop
        have hlt := ih hnew
          (Nat.lt_of_le_of_lt (List.sublist_append_right f.wire _).length_le hlen) hclean hloop
        rw [htook₁.length_log, List.length_singleton] at hlt
        rw [List.length_cons]
        omega
      · obtain ⟨s₁, hturn, htook⟩ := turn_discarded call.behind s hf haccepted hlen
        rw [loop_of_inr hturn] at hloop
        cases hloop
        have hpos : 0 < new.length := by
          refine List.length_pos_iff.mpr fun hnil => hclean ?_
          exact (clean_cons_discarded haccepted).mpr hnil
        rw [htook.length_log, List.length_singleton, List.length_cons]
        omega

/-- `sofar` has been received: the log has what is to become of the frames in it, and the part of
the next one is kept. -/
structure Good (c : Context) (fs : List HostFrame) (sofar : List UInt8) (s : HostLink) : Prop where
  log : s.log = (completed wire fs sofar.length).map (outcome c)
  remain : s.remain = unfinished wire fs sofar
  sent : sofar <+: fs.flatMap wire

theorem good_new (c : Context) (fs : List HostFrame) : Good c fs [] .new := by
  have hnone : completed wire fs ([] : List UInt8).length = [] :=
    (begins_nil wire_ne_nil fs).completed
  refine ⟨?_, ?_, List.nil_prefix⟩
  · rw [hnone]
    rfl
  · rw [unfinished, hnone]
    rfl

end HostLink

/-- A call after `before` that is clean. -/
def CleanCall (c : Context) (fs : List HostFrame) (before : List UInt8) (call : Call) : Prop :=
  Clean c
    ((completed wire fs (before ++ call.buf).length).drop (completed wire fs before.length).length)
    (unfinished wire fs (before ++ call.buf)) call

namespace HostLink

variable {c : Context} {fs : List HostFrame} {sofar : List UInt8} {s : HostLink} {call : Call}

/-- One call. -/
theorem Good.onReceived (hfs : ∀ f ∈ fs, f.WellFormed ∧ f.wire.length < 65536)
    (h : Good c fs sofar s) (hsent : sofar ++ call.buf <+: fs.flatMap wire)
    (hpending : (unfinished wire fs sofar ++ call.buf).length ≤ 65535) :
    (CleanCall c fs sofar call →
      ∃ s', onReceived c s call = some s' ∧ Good c fs (sofar ++ call.buf) s') ∧
    ∀ s', onReceived c s call = some s' →
      s'.log = (completed wire fs (sofar ++ call.buf).length).map (outcome c) →
        CleanCall c fs sofar call := by
  obtain ⟨new, rest, hrest, hcompleted, hbytes, hbegins⟩ := completed_step hsent
  have hclean : CleanCall c fs sofar call ↔ Clean c new (unfinished wire fs (sofar ++ call.buf)) call := by
    rw [CleanCall, hcompleted, List.drop_left' rfl]
  have hmem : ∀ f ∈ new ++ rest, f.WellFormed ∧ f.wire.length < 65536 := by
    intro f hf
    refine hfs f ?_
    rw [hrest]
    exact List.mem_append_right _ hf
  have hnew : ∀ f ∈ new, f.WellFormed := fun f hf => (hmem f (List.mem_append_left _ hf)).1
  have hrestMem : ∀ f ∈ rest, f.WellFormed ∧ f.wire.length < 65536 :=
    fun f hf => hmem f (List.mem_append_right _ hf)
  have hdata : s.pending call = new.flatMap wire ++ unfinished wire fs (sofar ++ call.buf) := by
    rw [pending, h.remain, hbytes]
  have hlen : (new.flatMap wire ++ unfinished wire fs (sofar ++ call.buf)).length < 65536 := by
    rw [← hbytes]
    exact Nat.lt_succ_of_le hpending
  have hroom : ¬ (s.remain ≠ [] ∧ REMAIN_BUF_SIZE < (s.pending call).length) := by
    rintro ⟨-, hlt⟩
    rw [hdata, REMAIN_BUF_SIZE] at hlt
    omega
  have hlog : (completed wire fs (sofar ++ call.buf).length).map (outcome c) =
      s.log ++ new.map (outcome c) := by
    rw [hcompleted, List.map_append, h.log]
  rw [hclean, HostLink.onReceived, if_neg hroom, hdata, hlog]
  refine ⟨fun hclean => ?_, fun s' hloop hs' => ?_⟩
  · have hn : new.length <
        (new.flatMap wire ++ unfinished wire fs (sofar ++ call.buf)).length + 1 := by
      have hwords : new.length ≤ (new.flatMap wire).length := length_le_flatMap wire_ne_nil new
      rw [List.length_append]
      omega
    obtain ⟨s', hloop, hs', hremain⟩ := loop_clean (s := s) hrestMem hnew hbegins hlen hn hclean
    refine ⟨s', by rw [hloop]; rfl, ?_, hremain, hsent⟩
    rw [hlog, hs']
  · by_contra hclean
    rw [Option.join_eq_some_iff] at hloop
    have hlt := loop_not_clean hrestMem hnew hbegins hlen hclean hloop
    rw [hs', List.length_append, List.length_map] at hlt
    exact absurd hlt (Nat.lt_irrefl _)

/-- A run of calls. -/
theorem Good.run {calls : List Call} (hfs : ∀ f ∈ fs, f.WellFormed ∧ f.wire.length < 65536)
    (h : Good c fs sofar s) (hsent : sofar ++ received calls = fs.flatMap wire)
    (hpending : ∀ before call, before ++ [call] <+: calls →
      (unfinished wire fs (sofar ++ received before) ++ call.buf).length ≤ 65535) :
    (∀ before, before <+: calls → ∃ s', (machine c).run s before = some s' ∧
        s'.log = (completed wire fs (sofar ++ received before).length).map (outcome c)) ↔
      ∀ before call, before ++ [call] <+: calls → CleanCall c fs (sofar ++ received before) call := by
  induction calls generalizing s sofar with
  | nil =>
    refine ⟨fun _ before call hbefore => ?_, fun _ before hbefore => ?_⟩
    · have hnil := (List.append_eq_nil_iff.mp (List.prefix_nil.mp hbefore)).2
      exact absurd hnil (List.cons_ne_nil _ _)
    · obtain rfl := List.prefix_nil.mp hbefore
      refine ⟨s, rfl, ?_⟩
      rw [h.log, received_nil, List.append_nil]
  | cons call calls ih =>
    rw [received_cons, ← List.append_assoc] at hsent
    rw [forall_step_cons] at hpending
    rw [forall_prefix_cons, forall_step_cons]
    simp only [received_cons, received_nil, List.append_nil, ← List.append_assoc] at hpending ⊢
    obtain ⟨hto, hfrom⟩ := h.onReceived hfs ⟨received calls, hsent⟩ hpending.1
    constructor
    · rintro ⟨-, hruns⟩
      obtain ⟨s₁, hrun, hlog⟩ := hruns [] List.nil_prefix
      have hstep : HostLink.onReceived c s call = some s₁ := by
        simpa [Machine.run_cons, machine] using hrun
      rw [received_nil, List.append_nil] at hlog
      have hclean := hfrom s₁ hstep hlog
      obtain ⟨s₂, hstep₂, h₁⟩ := hto hclean
      refine ⟨hclean, (ih h₁ hsent hpending.2).mp fun before hb => ?_⟩
      obtain ⟨s', hrun', hlog'⟩ := hruns before hb
      obtain ⟨s₃, hstep₃, hrun₃⟩ := (machine c).run_cons_eq_some.mp hrun'
      obtain rfl : s₂ = s₃ := Option.some.inj (hstep₂.symm.trans hstep₃)
      exact ⟨s', hrun₃, hlog'⟩
    · rintro ⟨hclean, hcleans⟩
      obtain ⟨s₁, hstep, h₁⟩ := hto hclean
      refine ⟨⟨s, rfl, h.log⟩, fun before hb => ?_⟩
      obtain ⟨s', hrun, hlog⟩ := (ih h₁ hsent hpending.2).mpr hcleans before hb
      exact ⟨s', (machine c).run_cons_eq_some.mpr ⟨s₁, hstep, hrun⟩, hlog⟩

end HostLink

/-! ## The link -/

/-- Every call returns, and at its end all frames completely received so far have been delivered
or discarded, each once and in order. -/
def Delivered (c : Context) (fs : List HostFrame) (calls : List Call) : Prop :=
  ∀ before, before <+: calls → ∃ s, (HostLink.machine c).run .new before = some s ∧
    s.log = (completed wire fs (received before).length).map (outcome c)

/-- **The calls deliver what has been received.**  For every sequence of well-formed frames and
every way to cut what is sent for them into calls with at most 65535 pending octets, at the end
of every call all frames completely received so far have been delivered or discarded, each
once and in order, exactly if all calls are clean. -/
theorem delivered_iff (c : Context) {fs : List HostFrame} (hfs : ∀ f ∈ fs, f.WellFormed)
    {calls : List Call} (hsent : received calls = fs.flatMap wire)
    (hpending : ∀ before call, before ++ [call] <+: calls →
      (unfinished wire fs (received before) ++ call.buf).length ≤ 65535) :
    Delivered c fs calls ↔
      ∀ before call, before ++ [call] <+: calls → CleanCall c fs (received before) call := by
  have hfits : ∀ f ∈ fs, f.wire.length ≤ 65535 :=
    le_of_pending (begins_nil wire_ne_nil fs) hsent hpending
  have hboth : ∀ f ∈ fs, f.WellFormed ∧ f.wire.length < 65536 :=
    fun f hf => ⟨hfs f hf, Nat.lt_succ_of_le (hfits f hf)⟩
  exact (HostLink.good_new c fs).run hboth hsent hpending

/-! ## Two requests -/

/-- A host with a module for the requests with id 5, and the modem 0. -/
def oneModule : Context := ⟨fun id => id = 5, fun id => id = 0, fun _ => false⟩

/-- A request with an id and no parameters. -/
def request (id : UInt8) : HostFrame := .ap 8 [1, 0, id, 0] []

/-- A read of the port, with zeroes behind it. -/
def read (buf : List UInt8) : Call := ⟨buf, fun _ => 0⟩

/-- A request and a frame for the modem, in two reads that are cut within the request. -/
theorem delivered_two_reads :
    Delivered oneModule [request 5, .md 0x64 [0x55] 0]
      [read ((request 5).wire.take 7),
        read ((request 5).wire.drop 7 ++ (HostFrame.md 0x64 [0x55] 0).wire)] := by
  refine (delivered_iff oneModule ?_ ?_ ?_).mpr ?_
  · simp only [List.forall_mem_cons]
    exact ⟨by decide, by decide, fun _ h => absurd h List.not_mem_nil⟩
  · rfl
  · rw [forall_step_cons, forall_step_cons]
    refine ⟨by decide, by decide, fun before b h => ?_⟩
    exact absurd (List.prefix_nil.mp h) (List.append_ne_nil_of_right_ne_nil _ (List.cons_ne_nil _ _))
  · rw [forall_step_cons, forall_step_cons]
    refine ⟨⟨by decide, fun _ h => ?_⟩, ⟨by decide, fun _ h => ?_⟩, fun before b h => ?_⟩
    · exact absurd h.2 (by decide)
    · exact absurd h.2 (by decide)
    · exact absurd (List.prefix_nil.mp h)
        (List.append_ne_nil_of_right_ne_nil _ (List.cons_ne_nil _ _))

/-- A request with an id that no module has, and one for the module, in one read: the second one
has been completely received, and is not delivered. -/
theorem not_delivered_behind_unregistered :
    (∀ f ∈ [request 6, request 5], f.WellFormed) ∧
      received [read ((request 6).wire ++ (request 5).wire)] =
        [request 6, request 5].flatMap wire ∧
      (received [read ((request 6).wire ++ (request 5).wire)]).length ≤ 65535 ∧
      ¬ Delivered oneModule [request 6, request 5]
        [read ((request 6).wire ++ (request 5).wire)] := by
  refine ⟨?_, rfl, by decide, fun h => ?_⟩
  · simp only [List.forall_mem_cons]
    exact ⟨by decide, by decide, fun _ h => absurd h List.not_mem_nil⟩
  · obtain ⟨s, hrun, hlog⟩ := h _ (List.prefix_refl _)
    have hlogs : (((HostLink.machine oneModule).run .new
        [read ((request 6).wire ++ (request 5).wire)]).map HostLink.log) = some [.invalid] := by
      decide +kernel
    rw [hrun, Option.map_some, hlog] at hlogs
    exact absurd hlogs (by decide)

end MtkHw.Meta
