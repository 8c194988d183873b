import Mathlib.Data.List.Nodup
import Mathlib.Data.List.Perm.Basic
import MtkHw.Rfx.PendingQueue

/-!
# Every request is completed once, and on its own interface

The token of an accepted request is in exactly one place: the pending queue, the
hands of `clearPendingQueue`, an answer on its way to the main thread, or the
completions.  `DispatchInv` says so with two permutations, one for the pending queue
and one for what has left it, and adds that every answer has the kind of its request.

Two steps break the kind of an answer, both for a SAP request: the answer to a request
that nobody has registered for, and the answer that `clearPendingQueue` gives.  Both
are RIL responses.
-/

namespace MtkHw.Rfx

open MtkHw.Lib

/-! ## The law and the condition -/

namespace DispatchState

/-- The tokens of the answers that are on their way. -/
def underway (s : DispatchState) : List Int :=
  (s.answering ++ s.responses).map RfxMessage.token

/-- The tokens of the completions. -/
def completedTokens (s : DispatchState) : List Int := s.completed.map Completion.token

end DispatchState

/-- What is promised about requests. -/
structure Lawful (s : DispatchState) : Prop where
  /-- A token leaves the pending queue at most once. -/
  left_once : s.left.Nodup
  /-- A token is completed at most once. -/
  completed_once : s.completedTokens.Nodup
  /-- A request is completed by the call of its own interface. -/
  own_interface : ∀ c ∈ s.completed, ∀ m ∈ s.accepted, m.token = c.token →
    c.call.completes = m.type
  /-- When `clearPendingQueue` has returned, the requests that were pending have been
  completed, those aside which were answered in the meantime and whose answer is on its way. -/
  flushed : ∀ t ∈ s.flushed, t ∈ s.completedTokens ∨ t ∈ s.underway

/-- The condition on a step: the slot of a request is one of the SIM slots, a SAP request that
is pending has a channel and a handler, and `clearPendingQueue` meets no SAP request. -/
def DispatchCond (cfg : DispatchConfig) (s : DispatchState) : DispatchAct → Prop
  | .request m => 0 ≤ m.slotId ∧ m.slotId < cfg.simCount
  | .dispatch i => ∀ x, s.looper[i]? = some x → x.type = .sapRequest →
      x.token ∈ s.pending.map RfxMessage.token → cfg.hasChannel x
  | .process i => ∀ x, s.channels[i]? = some x → x.type = .sapRequest →
      x.token ∈ s.pending.map RfxMessage.token → cfg.hasHandler x
  | .flush => ∀ tokens obj queue, s.flush = .dequeuing tokens → s.pending = obj :: queue →
      obj.type ≠ .sapRequest
  | .post _ | .answer _ _ | .respond _ | .complete => True

/-! ## The invariant -/

/-- The type of the answer to a request. -/
def MessageType.answer : MessageType → MessageType
  | .sapRequest => .sapResponse
  | _ => .response

/-- An answer to a request, on its interface. -/
structure Answers (r m : RfxMessage) : Prop where
  token_eq : r.token = m.token
  slotId_eq : r.slotId = m.slotId
  type_eq : r.type = m.type.answer

/-- A request that can be completed. -/
structure Acceptable (cfg : DispatchConfig) (m : RfxMessage) : Prop where
  type_or : m.type = .request ∨ m.type = .sapRequest
  slotId_nonneg : 0 ≤ m.slotId
  slotId_lt : m.slotId < cfg.simCount

/-- The request `clearPendingQueue` has taken. -/
def FlushPc.held : FlushPc → List RfxMessage
  | .completing _ obj => [obj]
  | .idle | .checking _ | .dequeuing _ => []

/-- The tokens that were pending when `clearPendingQueue` was called. -/
def FlushPc.tokens : FlushPc → List Int
  | .idle => []
  | .checking tokens | .dequeuing tokens | .completing tokens _ => tokens

/-- Each token is in one place, and what is under way fits its request. -/
structure DispatchInv (cfg : DispatchConfig) (s : DispatchState) : Prop where
  distinct : (s.accepted.map RfxMessage.token).Nodup
  acceptable : ∀ m ∈ s.accepted, Acceptable cfg m
  pending_sub : ∀ m ∈ s.pending, m ∈ s.accepted
  held_sub : ∀ m ∈ s.flush.held, m ∈ s.accepted ∧ m.type = .request
  copies : ∀ x ∈ s.posting ++ s.looper ++ s.channels ++ s.handled, ∃ m ∈ s.accepted, x = m.toMcl
  answers : ∀ r ∈ s.answering ++ s.responses, ∃ m ∈ s.accepted, Answers r m
  completions : ∀ c ∈ s.completed, ∃ m ∈ s.accepted,
    c.token = m.token ∧ c.call.completes = m.type
  balance : (s.pending.map RfxMessage.token ++ s.left).Perm (s.accepted.map RfxMessage.token)
  left_perm : s.left.Perm (s.flush.held.map RfxMessage.token ++ (s.underway ++ s.completedTokens))
  waiting : ∀ t ∈ s.flush.tokens, t ∈ s.accepted.map RfxMessage.token
  flushed : ∀ t ∈ s.flushed, t ∈ s.underway ++ s.completedTokens

theorem dispatchInv_init (cfg : DispatchConfig) : DispatchInv cfg (dispatcher cfg).init := by
  constructor <;> simp [dispatcher, DispatchState.underway, DispatchState.completedTokens,
    FlushPc.held, FlushPc.tokens]

/-- Two requests with one token are the same. -/
theorem DispatchInv.eq_of_token {cfg : DispatchConfig} {s : DispatchState} (h : DispatchInv cfg s)
    {m m' : RfxMessage} (hm : m ∈ s.accepted) (hm' : m' ∈ s.accepted) (ht : m.token = m'.token) :
    m = m' :=
  List.inj_on_of_nodup_map h.distinct hm hm' ht

/-- The invariant implies the law. -/
theorem DispatchInv.lawful {cfg : DispatchConfig} {s : DispatchState} (h : DispatchInv cfg s) :
    Lawful s := by
  have hleft : s.left.Nodup := (h.balance.nodup_iff.mpr h.distinct).of_append_right
  constructor
  · exact hleft
  · exact (h.left_perm.nodup_iff.mp hleft).of_append_right.of_append_right
  · intro c hc m hm ht
    obtain ⟨m', hm', htoken, hcall⟩ := h.completions c hc
    rw [h.eq_of_token hm hm' (ht.trans htoken), hcall]
  · intro t ht
    exact (List.mem_append.mp (h.flushed t ht)).symm

/-! ## Answers -/

/-- An entry that is found has the token, and is the only thing that is missing afterwards. -/
theorem checkAndDequeue_some {token : Int} {queue rest : List RfxMessage} {m : RfxMessage}
    (h : checkAndDequeue token queue = some (m, rest)) : m.token = token ∧ queue.Perm (m :: rest) := by
  induction queue generalizing rest with
  | nil => cases h
  | cons m' queue ih =>
    rw [checkAndDequeue] at h
    split_ifs at h with htoken
    · cases h
      exact ⟨htoken.symm, List.Perm.refl _⟩
    · obtain ⟨⟨found, rest'⟩, hfound, heq⟩ := Option.map_eq_some_iff.mp h
      cases heq
      obtain ⟨hm, hperm⟩ := ih hfound
      exact ⟨hm, (hperm.cons m').trans (List.Perm.swap _ _ _)⟩

section Steps

variable {cfg : DispatchConfig} {s : DispatchState}

/-- An answer to a pending request, on its interface, keeps the invariant. -/
theorem DispatchInv.enqueueAnswer (h : DispatchInv cfg s) {msg : RfxMclMessage}
    {obtain' : RfxMclMessage → RfxMessage → RfxMessage}
    (hobtain : ∀ m ∈ s.pending, m.token = msg.token → Answers (obtain' msg m) m) :
    DispatchInv cfg (s.enqueueAnswer obtain' msg) := by
  rw [DispatchState.enqueueAnswer]
  cases hfound : checkAndDequeue msg.token s.pending with
  | none => exact h
  | some found =>
    obtain ⟨obj, queue⟩ := found
    obtain ⟨htoken, hperm⟩ := checkAndDequeue_some hfound
    have hmem : obj ∈ s.pending := hperm.mem_iff.mpr List.mem_cons_self
    have hanswers := hobtain obj hmem htoken
    have hsettled : (s.underway ++ s.completedTokens ++ [obj.token]).Perm
        ((s.answering ++ [obtain' msg obj] ++ s.responses).map RfxMessage.token ++
          s.completedTokens) := by
      rw [DispatchState.underway, ← hanswers.token_eq, List.perm_iff_count]
      intro t
      simp only [List.map_append, List.map_cons, List.map_nil, List.count_append]
      omega
    refine { h with
      pending_sub := fun m hm => h.pending_sub m (hperm.mem_iff.mpr (List.mem_cons_of_mem _ hm))
      answers := ?_, balance := ?_, left_perm := ?_, flushed := ?_ }
    · intro r hr
      simp only [List.mem_append, List.mem_singleton] at hr
      rcases hr with (hr | rfl) | hr
      · exact h.answers r (List.mem_append_left _ hr)
      · exact ⟨obj, h.pending_sub obj hmem, hanswers⟩
      · exact h.answers r (List.mem_append_right _ hr)
    · refine List.Perm.trans ?_ h.balance
      have hmap := hperm.map RfxMessage.token
      rw [List.perm_iff_count] at hmap ⊢
      intro t
      have := hmap t
      simp only [List.map_cons, List.count_append, List.count_cons, List.count_nil] at this ⊢
      omega
    · have hleft := h.left_perm.append_right [obj.token]
      rw [List.append_assoc] at hleft
      exact hleft.trans (hsettled.append_left _)
    · intro t ht
      exact hsettled.mem_iff.mp (List.mem_append_left _ (h.flushed t ht))

/-- The copies of the requests may be moved about. -/
theorem DispatchInv.move (h : DispatchInv cfg s) {posting looper channels handled : List RfxMclMessage}
    (hsub : ∀ x ∈ posting ++ looper ++ channels ++ handled,
      x ∈ s.posting ++ s.looper ++ s.channels ++ s.handled) :
    DispatchInv cfg { s with
      posting := posting, looper := looper, channels := channels, handled := handled } :=
  { h with copies := fun x hx => h.copies x (hsub x hx) }

/-- A copy on its way to a handler is that of a request. -/
theorem DispatchInv.eq_of_copy (h : DispatchInv cfg s) {x : RfxMclMessage}
    (hx : x ∈ s.posting ++ s.looper ++ s.channels ++ s.handled) {m : RfxMessage}
    (hm : m ∈ s.pending) (ht : m.token = x.token) : x = m.toMcl := by
  obtain ⟨m', hm', rfl⟩ := h.copies x hx
  rw [h.eq_of_token (h.pending_sub m hm) hm' ht]

/-- The answer of a handler. -/
theorem DispatchInv.answer (h : DispatchInv cfg s) {x : RfxMclMessage} (hx : x ∈ s.handled)
    (error : Int) : DispatchInv cfg (s.answer x error) := by
  have hcopy := fun m => h.eq_of_copy (List.mem_append_right _ hx) (m := m)
  rw [DispatchState.answer]
  split_ifs with htype
  · apply h.enqueueAnswer
    intro m hm ht
    have heq := hcopy m hm ht
    have hsap : m.type = .sapRequest := by
      rw [heq] at htype
      exact htype
    constructor
    · rfl
    · rw [heq]
      rfl
    · rw [hsap]
      rfl
  · apply h.enqueueAnswer
    intro m hm ht
    have heq := hcopy m hm ht
    have hril : m.type = .request := by
      rw [heq] at htype
      exact (h.acceptable m (h.pending_sub m hm)).type_or.resolve_right htype
    constructor
    · rfl
    · rw [heq]
      rfl
    · rw [hril]
      rfl

/-- The answer to a RIL request nobody has registered for. -/
theorem DispatchInv.notSupported (h : DispatchInv cfg s) {x : RfxMclMessage}
    (hx : ∃ m ∈ s.accepted, x = m.toMcl)
    (hsap : x.type = .sapRequest → x.token ∉ s.pending.map RfxMessage.token) :
    DispatchInv cfg (s.notSupported x) := by
  apply h.enqueueAnswer
  intro m hm ht
  obtain ⟨m', hm', rfl⟩ := hx
  obtain rfl : m = m' := h.eq_of_token (h.pending_sub m hm) hm' ht
  have hril : m.type = .request := by
    refine (h.acceptable m hm').type_or.resolve_right fun htype => ?_
    exact hsap htype (List.mem_map_of_mem hm)
  constructor
  · rfl
  · rfl
  · rw [hril]
    rfl

/-- An answer reaches the response queue. -/
theorem DispatchInv.respond (h : DispatchInv cfg s) {i : Nat} {r : RfxMessage}
    (hr : s.answering[i]? = some r) :
    DispatchInv cfg { s with
      answering := s.answering.eraseIdx i, responses := s.responses ++ [r] } := by
  obtain ⟨hi, rfl⟩ := List.getElem?_eq_some_iff.mp hr
  have hperm : (s.answering ++ s.responses).Perm
      (s.answering.eraseIdx i ++ (s.responses ++ [s.answering[i]])) := by
    have herase := List.getElem_cons_eraseIdx_perm hi
    rw [List.perm_iff_count] at herase ⊢
    intro t
    have := herase t
    simp only [List.count_append, List.count_cons, List.count_nil] at this ⊢
    omega
  have hunderway := (hperm.map RfxMessage.token).append_right s.completedTokens
  refine { h with answers := ?_, left_perm := ?_, flushed := ?_ }
  · exact fun r hr => h.answers r (hperm.mem_iff.mpr hr)
  · exact h.left_perm.trans (hunderway.append_left _)
  · exact fun t ht => hunderway.mem_iff.mp (h.flushed t ht)

/-- The answer to a request in a SIM slot completes it, on its interface. -/
theorem processResponse_eq {m r : RfxMessage} (hm : Acceptable cfg m) (hr : Answers r m) :
    ∃ c, cfg.processResponse r = some c ∧ c.token = m.token ∧ c.call.completes = m.type := by
  have hslot : ¬(r.slotId < 0 ∨ r.slotId ≥ cfg.simCount) := by
    rw [hr.slotId_eq]
    rintro (hneg | hge)
    · exact Int.not_lt.mpr hm.slotId_nonneg hneg
    · exact Int.not_le.mpr hm.slotId_lt hge
  rcases hm.type_or with htype | htype
  · have hresponse : r.type = .response := by rw [hr.type_eq, htype]; rfl
    refine ⟨⟨if r.clientId = -1 then .rilj else .client r.clientId, r.token, r.rilToken, r.error⟩,
      ?_, hr.token_eq, ?_⟩
    · rw [DispatchConfig.processResponse, if_pos (.inl hresponse), DispatchConfig.responseToRilj,
        if_neg hslot, if_pos hresponse]
    · dsimp only
      split_ifs
      · exact htype.symm
      · exact htype.symm
  · have hresponse : r.type = .sapResponse := by rw [hr.type_eq, htype]; rfl
    refine ⟨⟨.bt, r.token, r.rilToken, r.error⟩, ?_, hr.token_eq, htype.symm⟩
    rw [DispatchConfig.processResponse, if_neg (by simp [hresponse]), responseToBT,
      if_pos hresponse]

/-- The main thread handles an answer. -/
theorem DispatchInv.complete (h : DispatchInv cfg s) {r : RfxMessage} {responses : List RfxMessage}
    (hr : s.responses = r :: responses) :
    DispatchInv cfg { s with
      responses := responses, completed := s.completed ++ (cfg.processResponse r).toList } := by
  have hmem : r ∈ s.answering ++ s.responses := by
    rw [hr]
    exact List.mem_append_right _ List.mem_cons_self
  obtain ⟨m, hm, hanswers⟩ := h.answers r hmem
  obtain ⟨c, hc, htoken, hcall⟩ := processResponse_eq (h.acceptable m hm) hanswers
  have hsettled : (s.underway ++ s.completedTokens).Perm
      ((s.answering ++ responses).map RfxMessage.token ++
        (s.completed ++ [c]).map Completion.token) := by
    rw [DispatchState.underway, DispatchState.completedTokens, hr, List.perm_iff_count]
    intro t
    simp only [List.map_append, List.map_cons, List.map_nil, List.count_append, List.count_cons,
      List.count_nil, hanswers.token_eq, htoken]
    omega
  rw [hc]
  refine { h with answers := ?_, completions := ?_, left_perm := ?_, flushed := ?_ }
  · intro r' hr'
    refine h.answers r' ?_
    rw [hr]
    rcases List.mem_append.mp hr' with hr' | hr'
    · exact List.mem_append_left _ hr'
    · exact List.mem_append_right _ (List.mem_cons_of_mem _ hr')
  · intro c' hc'
    rcases List.mem_append.mp hc' with hc' | hc'
    · exact h.completions c' hc'
    · obtain rfl := List.mem_singleton.mp hc'
      exact ⟨m, hm, htoken, hcall⟩
  · exact h.left_perm.trans (hsettled.append_left _)
  · exact fun t ht => hsettled.mem_iff.mp (h.flushed t ht)

/-- A request is accepted. -/
theorem DispatchInv.request (h : DispatchInv cfg s) {m : RfxMessage} (hm : Acceptable cfg m)
    (hnew : m.token ∉ s.accepted.map RfxMessage.token) :
    DispatchInv cfg { s with
      pending := s.pending ++ [m]
      posting := s.posting ++ [m.toMcl]
      accepted := s.accepted ++ [m] } := by
  have hold : ∀ m' ∈ s.accepted, m' ∈ s.accepted ++ [m] := fun m' => List.mem_append_left _
  have hlast : m ∈ s.accepted ++ [m] := List.mem_append_right _ List.mem_cons_self
  constructor
  · change ((s.accepted ++ [m]).map RfxMessage.token).Nodup
    rw [List.map_append, List.map_singleton]
    exact List.nodup_append.mpr ⟨h.distinct, List.nodup_singleton _, fun t ht t' ht' => by
      rintro rfl
      obtain rfl := List.mem_singleton.mp ht'
      exact hnew ht⟩
  · intro m' hm'
    rcases List.mem_append.mp hm' with hm' | hm'
    · exact h.acceptable m' hm'
    · obtain rfl := List.mem_singleton.mp hm'
      exact hm
  · intro m' hm'
    rcases List.mem_append.mp hm' with hm' | hm'
    · exact hold _ (h.pending_sub m' hm')
    · obtain rfl := List.mem_singleton.mp hm'
      exact hlast
  · exact fun m' hm' => (h.held_sub m' hm').imp_left (hold m')
  · intro x hx
    simp only [List.mem_append, List.mem_singleton, or_assoc] at hx
    rcases hx with hx | rfl | hx
    · obtain ⟨m', hm', heq⟩ := h.copies x (by simp [hx])
      exact ⟨m', hold _ hm', heq⟩
    · exact ⟨m, hlast, rfl⟩
    · obtain ⟨m', hm', heq⟩ := h.copies x (by simp [hx])
      exact ⟨m', hold _ hm', heq⟩
  · intro r hr
    obtain ⟨m', hm', hanswers⟩ := h.answers r hr
    exact ⟨m', hold _ hm', hanswers⟩
  · intro c hc
    obtain ⟨m', hm', hc'⟩ := h.completions c hc
    exact ⟨m', hold _ hm', hc'⟩
  · have hbalance := h.balance
    change ((s.pending ++ [m]).map RfxMessage.token ++ s.left).Perm
      ((s.accepted ++ [m]).map RfxMessage.token)
    rw [List.perm_iff_count] at hbalance ⊢
    intro t
    have := hbalance t
    simp only [List.map_append, List.map_cons, List.map_nil, List.count_append] at this ⊢
    omega
  · exact h.left_perm
  · intro t ht
    change t ∈ (s.accepted ++ [m]).map RfxMessage.token
    rw [List.map_append]
    exact List.mem_append_left _ (h.waiting t ht)
  · exact h.flushed

/-- A step of the thread in `clearPendingQueue`. -/
theorem DispatchInv.flushStep (h : DispatchInv cfg s) {s' : DispatchState}
    (hril : ∀ tokens obj queue, s.flush = .dequeuing tokens → s.pending = obj :: queue →
      obj.type ≠ .sapRequest)
    (hstep : s.flushStep cfg = some s') : DispatchInv cfg s' := by
  have hwaiting := h.waiting
  have hleft := h.left_perm
  have hheld := h.held_sub
  rw [DispatchState.flushStep] at hstep
  cases hpc : s.flush with
  | idle =>
    rw [hpc] at hstep hleft
    cases hstep
    refine { h with held_sub := ?_, left_perm := hleft, waiting := ?_ }
    · rintro m ⟨⟩
    · intro t ht
      obtain ⟨m, hm, rfl⟩ := List.mem_map.mp ht
      exact List.mem_map_of_mem (h.pending_sub m hm)
  | checking tokens =>
    rw [hpc] at hstep hleft hwaiting
    have hsub := h.pending_sub
    have hbalance := h.balance
    cases hpending : s.pending with
    | nil =>
      rw [hpending] at hstep hsub hbalance
      cases hstep
      refine { h with pending_sub := hsub, held_sub := ?_, balance := hbalance,
                      left_perm := hleft, waiting := ?_, flushed := ?_ }
      · rintro m ⟨⟩
      · rintro t ⟨⟩
      · -- The queue is empty, so all that was accepted has left it.
        intro t ht
        rcases List.mem_append.mp ht with ht | ht
        · exact h.flushed t ht
        · exact hleft.mem_iff.mp (hbalance.mem_iff.mpr (hwaiting t ht))
    | cons obj queue =>
      rw [hpending] at hstep hsub hbalance
      cases hstep
      refine { h with pending_sub := hsub, held_sub := ?_, balance := hbalance,
                      left_perm := hleft, waiting := hwaiting }
      rintro m ⟨⟩
  | dequeuing tokens =>
    rw [hpc] at hstep hleft hwaiting
    cases hpending : s.pending with
    | nil =>
      rw [hpending] at hstep
      cases hstep
    | cons obj queue =>
      rw [hpending] at hstep
      cases hstep
      have hobj : obj ∈ s.accepted := h.pending_sub obj (by rw [hpending]; exact List.mem_cons_self)
      refine { h with pending_sub := ?_, held_sub := ?_, balance := ?_, left_perm := ?_,
                      waiting := hwaiting }
      · intro m hm
        exact h.pending_sub m (by rw [hpending]; exact List.mem_cons_of_mem _ hm)
      · intro m hm
        obtain rfl := List.mem_singleton.mp hm
        exact ⟨hobj, (h.acceptable m hobj).type_or.resolve_right (hril tokens m queue hpc hpending)⟩
      · have hbalance := h.balance
        rw [hpending, List.perm_iff_count] at hbalance
        rw [List.perm_iff_count]
        intro t
        have := hbalance t
        simp only [List.map_cons, List.count_append, List.count_cons, List.count_nil] at this ⊢
        omega
      · exact (hleft.append_right [obj.token]).trans List.perm_append_comm
  | completing tokens obj =>
    rw [hpc] at hstep hleft hwaiting hheld
    cases hstep
    obtain ⟨hobj, htype⟩ := hheld obj List.mem_cons_self
    have hanswers : Answers (RfxMessage.obtainErrorResponse rilRadioNotAvailable obj) obj := by
      constructor
      · rfl
      · rfl
      · rw [htype]
        rfl
    obtain ⟨c, hc, htoken, hcall⟩ := processResponse_eq (h.acceptable obj hobj) hanswers
    have hcomplete :
        cfg.responseToRilj (RfxMessage.obtainErrorResponse rilRadioNotAvailable obj) = some c := by
      rw [← hc, DispatchConfig.processResponse, if_pos (.inl rfl)]
    rw [hcomplete]
    have hsettled : ([obj.token] ++ (s.underway ++ s.completedTokens)).Perm
        (s.underway ++ (s.completed ++ [c]).map Completion.token) := by
      rw [DispatchState.completedTokens, List.map_append, List.map_singleton, htoken,
        ← List.append_assoc s.underway]
      exact List.perm_append_comm
    refine { h with held_sub := ?_, completions := ?_, left_perm := ?_, waiting := hwaiting,
                    flushed := ?_ }
    · rintro m ⟨⟩
    · intro c' hc'
      rcases List.mem_append.mp hc' with hc' | hc'
      · exact h.completions c' hc'
      · obtain rfl := List.mem_singleton.mp hc'
        exact ⟨obj, hobj, htoken, hcall⟩
    · exact hleft.trans hsettled
    · exact fun t ht => hsettled.mem_iff.mp (List.mem_append_right _ (h.flushed t ht))

end Steps

/-! ## Runs -/

/-- What a step that meets the condition preserves. -/
theorem dispatchInv_step {cfg : DispatchConfig} {s s' : DispatchState} {a : DispatchAct}
    (h : DispatchInv cfg s) (hcond : DispatchCond cfg s a)
    (hstep : (dispatcher cfg).step s a = some s') : DispatchInv cfg s' := by
  cases a with
  | request m =>
    simp only [dispatcher] at hstep
    split_ifs at hstep with hm
    cases hstep
    exact h.request ⟨hm.1, hcond.1, hcond.2⟩ hm.2
  | post i =>
    obtain ⟨x, hx, rfl⟩ := Option.map_eq_some_iff.mp hstep
    apply h.move
    intro y hy
    have hmem := List.mem_of_getElem? hx
    simp only [List.mem_append, List.mem_singleton] at hy ⊢
    rcases hy with ((hy | hy | rfl) | hy) | hy
    · exact .inl (.inl (.inl (List.mem_of_mem_eraseIdx hy)))
    · exact .inl (.inl (.inr hy))
    · exact .inl (.inl (.inl hmem))
    · exact .inl (.inr hy)
    · exact .inr hy
  | dispatch i =>
    obtain ⟨x, hx, rfl⟩ := Option.map_eq_some_iff.mp hstep
    have hmem : x ∈ s.looper := List.mem_of_getElem? hx
    rw [DispatchState.onHandleMessage]
    split_ifs with hchannel
    · apply h.move
      intro y hy
      simp only [List.mem_append, List.mem_singleton] at hy ⊢
      rcases hy with ((hy | hy) | hy | rfl) | hy
      · exact .inl (.inl (.inl hy))
      · exact .inl (.inl (.inr (List.mem_of_mem_eraseIdx hy)))
      · exact .inl (.inr hy)
      · exact .inl (.inl (.inr hmem))
      · exact .inr hy
    · have hcopy := h.copies x (by simp [hmem])
      refine DispatchInv.notSupported (h.move ?_) hcopy fun hsap ht => hchannel (hcond x hx hsap ht)
      intro y hy
      simp only [List.mem_append] at hy ⊢
      exact hy.imp_left (Or.imp_left (Or.imp_right List.mem_of_mem_eraseIdx))
  | process i =>
    obtain ⟨x, hx, rfl⟩ := Option.map_eq_some_iff.mp hstep
    have hmem : x ∈ s.channels := List.mem_of_getElem? hx
    rw [DispatchState.processMessage]
    split_ifs with hhandler
    · apply h.move
      intro y hy
      simp only [List.mem_append, List.mem_singleton] at hy ⊢
      rcases hy with (hy | hy) | hy | rfl
      · exact .inl (.inl hy)
      · exact .inl (.inr (List.mem_of_mem_eraseIdx hy))
      · exact .inr hy
      · exact .inl (.inr hmem)
    · have hcopy := h.copies x (by simp [hmem])
      refine DispatchInv.notSupported (h.move ?_) hcopy fun hsap ht => hhandler (hcond x hx hsap ht)
      intro y hy
      simp only [List.mem_append] at hy ⊢
      exact hy.imp_left (Or.imp_right List.mem_of_mem_eraseIdx)
  | answer i error =>
    obtain ⟨x, hx, rfl⟩ := Option.map_eq_some_iff.mp hstep
    exact h.answer (List.mem_of_getElem? hx) error
  | respond i =>
    obtain ⟨r, hr, rfl⟩ := Option.map_eq_some_iff.mp hstep
    exact h.respond hr
  | complete =>
    simp only [dispatcher] at hstep
    cases hresponses : s.responses with
    | nil =>
      rw [hresponses] at hstep
      cases hstep
    | cons r responses =>
      rw [hresponses] at hstep
      cases hstep
      exact h.complete hresponses
  | flush => exact h.flushStep hcond hstep

/-- **Every request is completed once and on its own interface** along all runs in which the
requests are for SIM slots, SAP requests have a channel and a handler while they are pending, and
`clearPendingQueue` takes no SAP request. -/
theorem requests_completed {cfg : DispatchConfig} {acts : List DispatchAct}
    (h : (dispatcher cfg).Meets (DispatchCond cfg) (dispatcher cfg).init acts) :
    (dispatcher cfg).Along Lawful (dispatcher cfg).init acts :=
  (dispatcher cfg).along_of_meets (fun _ _ _ => dispatchInv_step) (fun _ => DispatchInv.lawful)
    (dispatchInv_init cfg) h

/-- Two SIM slots, and handlers for the ids below `100`. -/
def twoSlots : DispatchConfig where
  simCount := 2
  hasChannel x := x.id < 100
  hasHandler x := x.id < 100

/-- A RIL request of slot `1`. -/
def rilRequest (id token : Int) : RfxMessage :=
  { type := .request, slotId := 1, id := id, pId := id, pToken := token, token := token
    rilToken := token.toNat }

/-- A SAP request of slot `0`. -/
def sapRequest (id token : Int) : RfxMessage :=
  { type := .sapRequest, slotId := 0, id := id, pId := id, pToken := token, token := token
    rilToken := token.toNat }

/-- A SAP request that is answered twice, and a RIL request that is flushed. -/
theorem requests_completed_two :
    let acts := [DispatchAct.request (sapRequest 3 7), .post 0, .request (rilRequest 5 8),
      .dispatch 0, .process 0, .answer 0 0, .answer 0 0, .respond 0, .complete, .flush, .flush,
      .flush, .flush, .flush]
    (dispatcher twoSlots).Along Lawful (dispatcher twoSlots).init acts ∧
      ((dispatcher twoSlots).run (dispatcher twoSlots).init acts).map (fun s =>
        (s.flushed, s.completed)) = some ([8], [⟨.bt, 7, 7, 0⟩, ⟨.rilj, 8, 8, 1⟩]) := by
  refine ⟨requests_completed ?_, by decide⟩
  refine .cons _ rfl ⟨by decide, by decide⟩ (.cons _ rfl trivial
    (.cons _ rfl ⟨by decide, by decide⟩ (.cons _ rfl ?_ (.cons _ rfl ?_ (.cons _ rfl trivial
      (.cons _ rfl trivial (.cons _ rfl trivial (.cons _ rfl trivial ?_))))))))
  · rintro x hx - -
    cases hx
    rfl
  · rintro x hx - -
    cases hx
    rfl
  · refine .cons _ rfl ?_ (.cons _ rfl ?_ (.cons _ rfl ?_ (.cons _ rfl ?_ (.cons _ rfl ?_ trivial))))
    · rintro tokens obj queue ⟨⟩
    · rintro tokens obj queue ⟨⟩
    · rintro tokens obj queue hpc hpending
      cases hpending
      decide
    · rintro tokens obj queue ⟨⟩
    · rintro tokens obj queue ⟨⟩

/-- A SAP request that nobody has registered for, and one that is flushed, are completed by
`RFX_onRequestComplete`. -/
theorem requests_not_completed :
    let unsupported := [DispatchAct.request (sapRequest 100 7), .post 0, .dispatch 0, .respond 0,
      .complete]
    let flushed := [DispatchAct.request (sapRequest 3 7), .flush, .flush, .flush, .flush]
    ¬(dispatcher twoSlots).Along Lawful (dispatcher twoSlots).init unsupported ∧
      ¬(dispatcher twoSlots).Along Lawful (dispatcher twoSlots).init flushed := by
  refine ⟨fun h => ?_, fun h => ?_⟩
  · have hlast := Machine.Along.last _ h rfl
    exact absurd (hlast.own_interface _ List.mem_cons_self _ List.mem_cons_self rfl) (by decide)
  · have hlast := Machine.Along.last _ h rfl
    exact absurd (hlast.own_interface _ List.mem_cons_self _ List.mem_cons_self rfl) (by decide)

end MtkHw.Rfx
