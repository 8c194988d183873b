import MtkHw.Meta.HostFrame

/-!
# Decoding the frames of the META host

`decode_wire`: a frame that is pending as a whole, whatever follows it, is decoded to its outcome,
and the count is its length.  `decode_begins`: of a part of a frame nothing is decoded and all is
counted, unless the part ends in the middle of an escape pair of the length field; there the
decoder reads the octet of the memory behind what is pending.

Both follow the decoder through the octets of a frame, with an invariant that says what the
decoder has after some of them.
-/

namespace MtkHw.Meta

open Lib HostFrame

namespace UsbRxWatcher

/-! ## Requests -/

section Request

variable {c : Context} {frmLen : Nat} {localBuf peerBuf : List UInt8} {sum : UInt8}

/-- After `bs` of the content of a request. -/
structure InRequest (localBuf peerBuf : List UInt8) (sum : UInt8) (bs : List UInt8)
    (w : UsbRxWatcher) : Prop where
  header : w.header = bs.take 4
  m_checksum : w.m_checksum = bs.foldl (· ^^^ ·) sum
  short : bs.length < 4 →
    w.m_cTstFrameState = .apInjectPrimitiveHeader ∧ w.received_buf_para_length = 0
  long : 4 ≤ bs.length → w.received_buf_para_length = bs.length - 4 ∧
    w.buf = bs.drop 4 ++
      List.replicate (localBuf.length + peerBuf.length + 1 - (bs.length - 4)) 0 ∧
    w.m_cTstFrameState =
      if bs.length < 4 + (localBuf.length + peerBuf.length) then .apPrimLocalParaData
      else .checksum

theorem InRequest.of_same {bs : List UInt8} {w w' : UsbRxWatcher}
    (h : InRequest localBuf peerBuf sum bs w) (hsame : Same w w') :
    InRequest localBuf peerBuf sum bs w' := by
  constructor
  · rw [hsame.header, h.header]
  · rw [hsame.m_checksum, h.m_checksum]
  · rw [hsame.m_cTstFrameState, hsame.received]
    exact h.short
  · rw [hsame.m_cTstFrameState, hsame.received, hsame.buf]
    exact h.long

theorem InRequest.seesEscapes {bs : List UInt8} {w : UsbRxWatcher}
    (h : InRequest localBuf peerBuf sum bs w) : w.SeesEscapes := by
  unfold SeesEscapes
  by_cases hlen : bs.length < 4
  · rw [(h.short hlen).1]
    decide
  · rw [(h.long (Nat.le_of_not_lt hlen)).2.2]
    split <;> decide

theorem length_content_ap (frmLen : Nat) : (content (.ap frmLen localBuf peerBuf)).length =
    4 + (localBuf.length + peerBuf.length) := by
  rw [content, List.length_append, List.length_append]
  rfl

/-- The lengths that the first four octets of the content say. -/
theorem lengths_of_header (frmLen : Nat) {w : UsbRxWatcher}
    (hfits : localBuf.length + peerBuf.length < 65536)
    (hheader : w.header = (content (.ap frmLen localBuf peerBuf)).take 4) :
    w.local_len = localBuf.length ∧ w.peer_len = peerBuf.length := by
  have hfour : w.header =
      [lo localBuf.length, hi localBuf.length, lo peerBuf.length, hi peerBuf.length] := hheader
  rw [local_len, peer_len, hfour]
  exact ⟨ofOctets_hi_lo (by omega), ofOctets_hi_lo (by omega)⟩

/-- The decoder with one more octet of the header. -/
def store (w : UsbRxWatcher) (b : UInt8) : UsbRxWatcher :=
  { w with header := w.header ++ [b], m_checksum := w.m_checksum ^^^ b }

theorem apTurn_header {w : UsbRxWatcher} {b : UInt8}
    (hstate : w.m_cTstFrameState = .apInjectPrimitiveHeader) (hlen : w.header.length < 3) :
    w.apTurn c b = .next (w.store b) := by
  have hfull : ¬ ((w.store b).header.length = PRIM_HEADER_SIZE ∧ (w.store b).local_len ≠ 0) := by
    rintro ⟨hlength, -⟩
    rw [store, List.length_append] at hlength
    exact absurd (Nat.succ.inj hlength) (Nat.ne_of_lt hlen)
  cases w
  cases hstate
  exact (if_pos (Nat.lt_of_lt_of_le hlen (by decide))).trans (if_neg hfull)

/-- The last octet of the header, which says that there is a local part. -/
theorem apTurn_header_last {w : UsbRxWatcher} {b : UInt8}
    (hstate : w.m_cTstFrameState = .apInjectPrimitiveHeader) (hlen : w.header.length = 3)
    (hlocal : (w.store b).local_len ≠ 0) :
    w.apTurn c b = .next { w.store b with
      m_cTstFrameState := .apPrimLocalParaData
      buf := List.replicate ((w.store b).local_len + (w.store b).peer_len + 1) 0 } := by
  have hfull : (w.store b).header.length = PRIM_HEADER_SIZE ∧ (w.store b).local_len ≠ 0 := by
    refine ⟨?_, hlocal⟩
    rw [store, List.length_append, hlen]
    rfl
  have hroom : w.header.length < PRIM_HEADER_SIZE := Nat.lt_of_le_of_lt (Nat.le_of_eq hlen) (by decide)
  cases w
  cases hstate
  exact (if_pos hroom).trans (if_pos hfull)

/-- An octet of the parts, the last one or not. -/
theorem apTurn_para {w : UsbRxWatcher} {b : UInt8}
    (hstate : w.m_cTstFrameState = .apPrimLocalParaData) :
    w.apTurn c b = .next { w with
      buf := w.buf.set w.received_buf_para_length b
      received_buf_para_length := incr w.received_buf_para_length
      m_checksum := w.m_checksum ^^^ b
      m_cTstFrameState :=
        if w.local_len + w.peer_len = incr w.received_buf_para_length then .checksum
        else .apPrimLocalParaData } := by
  rw [apTurn, hstate]
  change (if w.local_len + w.peer_len = _ then Turn.next _ else Turn.next _) = _
  split <;> rfl

theorem set_append_replicate (bs : List UInt8) (b : UInt8) {n : Nat} (hn : 0 < n) :
    (bs ++ List.replicate n 0).set bs.length b = bs ++ [b] ++ List.replicate (n - 1) 0 := by
  obtain ⟨n, rfl⟩ := Nat.exists_eq_succ_of_ne_zero (Nat.ne_of_gt hn)
  rw [List.set_append_right _ _ (Nat.le_refl _), Nat.sub_self, List.replicate_succ,
    List.append_assoc]
  rfl

/-- The next octet of the content. -/
theorem InRequest.apTurn {bs more : List UInt8} {b : UInt8} {w : UsbRxWatcher}
    (hlocal4 : 4 ≤ localBuf.length) (hfits : localBuf.length + peerBuf.length < 65536)
    (hcontent : bs ++ b :: more = content (.ap frmLen localBuf peerBuf))
    (h : InRequest localBuf peerBuf sum bs w) :
    ∃ w', w.apTurn c b = .next w' ∧ InRequest localBuf peerBuf sum (bs ++ [b]) w' := by
  have hlength : bs.length + 1 ≤ 4 + (localBuf.length + peerBuf.length) := by
    rw [← length_content_ap frmLen, ← hcontent, List.length_append, List.length_cons]
    omega
  have hsum : w.m_checksum ^^^ b = (bs ++ [b]).foldl (· ^^^ ·) sum := by
    rw [List.foldl_append, h.m_checksum]
    rfl
  have hbs : (bs ++ [b]).length = bs.length + 1 := List.length_append
  by_cases hshort : bs.length < 4
  · obtain ⟨hstate, hreceived⟩ := h.short hshort
    have hbefore : w.header = bs := by
      rw [h.header]
      exact List.take_of_length_le (Nat.le_of_lt hshort)
    have hheader : (w.store b).header = (bs ++ [b]).take 4 := by
      rw [List.take_of_length_le (Nat.le_trans (Nat.le_of_eq hbs) hshort), store, hbefore]
    by_cases hlast : bs.length = 3
    · have hfour : (w.store b).header = (content (.ap frmLen localBuf peerBuf)).take 4 := by
        rw [hheader, ← hcontent, List.append_cons bs b more]
        exact (List.take_append_of_le_length (by omega)).symm
      obtain ⟨hlocal, hpeer⟩ := lengths_of_header frmLen hfits hfour
      rw [apTurn_header_last hstate (hbefore ▸ hlast) (by omega)]
      refine ⟨_, rfl, hheader, hsum, fun hlt => absurd hlt (by omega), fun _ => ⟨?_, ?_, ?_⟩⟩
      · change w.received_buf_para_length = _
        omega
      · dsimp only
        rw [hlocal, hpeer, List.drop_eq_nil_of_le (by omega), List.nil_append, hbs, hlast]
        rfl
      · rw [if_pos (by omega)]
    · rw [apTurn_header hstate (by rw [hbefore]; omega)]
      exact ⟨_, rfl, hheader, hsum, fun _ => ⟨hstate, hreceived⟩, fun hle => absurd hle (by omega)⟩
  · have hlong := Nat.le_of_not_lt hshort
    obtain ⟨hreceived, hbuf, hstate⟩ := h.long hlong
    rw [if_pos (by omega)] at hstate
    have hheader : w.header = (bs ++ [b]).take 4 := by
      rw [h.header, List.take_append_of_le_length hlong]
    have hfour : w.header = (content (.ap frmLen localBuf peerBuf)).take 4 := by
      rw [h.header, ← hcontent, List.take_append_of_le_length hlong]
    obtain ⟨hlocal, hpeer⟩ := lengths_of_header frmLen hfits hfour
    have hincr : incr w.received_buf_para_length = (bs ++ [b]).length - 4 := by
      rw [hreceived, hbs, Nat.sub_add_comm hlong]
      exact Nat.mod_eq_of_lt (by omega)
    have hdrop : (bs.drop 4).length = bs.length - 4 := List.length_drop
    rw [apTurn_para hstate, hlocal, hpeer, hincr]
    refine ⟨_, rfl, hheader, hsum, fun hlt => absurd hlt (by omega), fun _ => ⟨rfl, ?_, ?_⟩⟩
    · dsimp only
      rw [hbuf, hreceived, ← hdrop, set_append_replicate _ _ (by omega),
        List.drop_append_of_le_length hlong, hbs, hdrop]
      congr 2
      omega
    · by_cases hlast : localBuf.length + peerBuf.length = (bs ++ [b]).length - 4
      · rw [if_pos hlast, if_neg (by omega)]
      · rw [if_neg hlast, if_pos (by omega)]

/-- The loop over what is sent for a part of the content. -/
theorem InRequest.decodeAPFrame {bs cs more : List UInt8} {k len : Nat} {w : UsbRxWatcher}
    (c : Context) (src : List UInt8) (hlocal4 : 4 ≤ localBuf.length) (hfits : localBuf.length + peerBuf.length < 65536)
    (hcontent : bs ++ (cs ++ more) = content (.ap frmLen localBuf peerBuf))
    (h : InRequest localBuf peerBuf sum bs w)
    (hk : k + (cs.flatMap (escape STX_OCTET)).length ≤ len) (hlen : len < 65536) :
    ∃ w', InRequest localBuf peerBuf sum (bs ++ cs) w' ∧
      UsbRxWatcher.decodeAPFrame c len w k (cs.flatMap (escape STX_OCTET) ++ src) =
        UsbRxWatcher.decodeAPFrame c len w' (k + (cs.flatMap (escape STX_OCTET)).length) src := by
  induction cs generalizing bs w k with
  | nil => exact ⟨w, by rwa [List.append_nil], rfl⟩
  | cons b cs ih =>
    rw [List.flatMap_cons, List.length_append] at hk ⊢
    obtain ⟨w₁, hturn, h₁⟩ :=
      (h.of_same (same_taken w b)).apTurn (c := c) hlocal4 hfits hcontent
    rw [List.cons_append, List.append_cons] at hcontent
    have hrest : k + (escape STX_OCTET b).length + (cs.flatMap (escape STX_OCTET)).length ≤ len := by
      omega
    obtain ⟨w', h', hrun⟩ := ih hcontent h₁ hrest
    refine ⟨w', by rwa [List.append_cons], ?_⟩
    rw [List.append_assoc, decodeAPFrame_escape h.seesEscapes (by omega) hlen, hturn]
    dsimp only
    rw [hrun, Nat.add_assoc]

/-- The checksum. -/
theorem InRequest.done {b : UInt8} {w : UsbRxWatcher} (hlocal4 : 4 ≤ localBuf.length)
    (hfits : localBuf.length + peerBuf.length < 65536)
    (hb : (content (.ap frmLen localBuf peerBuf)).foldl (· ^^^ ·) sum = b)
    (h : InRequest localBuf peerBuf sum (content (.ap frmLen localBuf peerBuf)) w) :
    ∃ w', w.apTurn c b = .done (outcome c (.ap frmLen localBuf peerBuf)) w' := by
  obtain ⟨hlocal, hpeer⟩ := lengths_of_header frmLen hfits h.header
  have hlong : 4 ≤ (content (.ap frmLen localBuf peerBuf)).length := by
    rw [length_content_ap]
    omega
  obtain ⟨-, hbuf, hstate⟩ := h.long hlong
  rw [if_neg (by rw [length_content_ap]; omega)] at hstate
  have hparts : w.buf = localBuf ++ (peerBuf ++ [0]) := by
    rw [hbuf, length_content_ap, Nat.add_sub_cancel_left, Nat.add_sub_cancel_left]
    exact List.append_assoc localBuf peerBuf [0]
  have hget : ∀ i < 4, w.buf.getD i 0 = localBuf.getD i 0 := by
    intro i hi
    rw [hparts, List.getD_eq_getElem?_getD, List.getElem?_append_left (by omega),
      List.getD_eq_getElem?_getD]
  have htask : w.sendFtTask c = outcome c (.ap frmLen localBuf peerBuf) := by
    rw [sendFtTask, hlocal, hpeer, hget 0 (by decide), hget 1 (by decide),
      hget 2 (by decide), hget 3 (by decide), hparts, List.take_left' rfl, List.drop_left' rfl,
      List.take_left' rfl]
    rfl
  rw [UsbRxWatcher.apTurn, hstate]
  dsimp only
  rw [if_neg (not_not.mpr (h.m_checksum.trans hb)), htask]
  exact ⟨_, rfl⟩

end Request

/-! ## Frames for the modem -/

section Modem

variable {data : List UInt8} {b : UInt8} {newLen k more : Nat} {w : UsbRxWatcher} (c : Context)
  (frmType : UInt8) (src : List UInt8)

/-- The loop of `decodeMDFrame` over what is sent for one octet.  A pair counts for one more
octet of the expected length. -/
theorem mdLoop_escape (hstart : w.m_nStartByteLen = 0)
    (hk : k + (escape STX_OCTET b).length ≤ data.length) (hlen : data.length < 65536)
    (hfew : more ≤ 65536) (hexpect : k + 1 + more = newLen + 3 + w.m_frm_len_byte) :
    ∃ newLen', k + (escape STX_OCTET b).length + more = newLen' + 3 + w.m_frm_len_byte ∧
      w.mdLoop c data frmType newLen k (escape STX_OCTET b ++ src) =
        if more = 0 then some (w.mdFrame c data frmType (k + (escape STX_OCTET b).length))
        else w.mdLoop c data frmType newLen' (k + (escape STX_OCTET b).length) src := by
  -- The tests after an octet that is not a start octet.
  have htail : ∀ (ch : UInt8) (newLen' k' : Nat), ch ≠ STX_OCTET → k' ≤ data.length →
      k' + more = newLen' + 3 + w.m_frm_len_byte →
      w.mdTail c data frmType newLen' k' ch =
        if more = 0 then some (w.mdFrame c data frmType k') else none := by
    intro ch newLen' k' hch hk' hexpect'
    rw [mdTail, if_neg hch, hstart]
    by_cases hmore : more = 0
    · rw [if_pos hmore, if_pos (by omega)]
    · rw [if_neg hmore, if_neg]
      omega
  by_cases hb : Escaped STX_OCTET b
  · obtain ⟨ch, hpair, hch⟩ := escape_of_escaped hb
    rw [hpair] at hk ⊢
    have hk2 : k + 2 ≤ data.length := hk
    have hincr := incr_of_lt (Nat.lt_of_succ_lt (Nat.lt_of_succ_le hk2)) hlen
    have hincr2 := incr_of_lt (Nat.lt_of_succ_le hk2) hlen
    have hne : ch ≠ STX_OCTET := by
      rcases hch with ⟨rfl, -⟩ | ⟨rfl, -, -⟩ <;> decide
    have hcounts : ch = MUX_KEY_WORD ∨ ch = 0x01 := by
      rcases hch with ⟨h, -⟩ | ⟨h, -, -⟩
      · exact .inr h
      · exact .inl h
    refine ⟨newLen + 1, by dsimp only [List.length_cons, List.length_nil]; omega, ?_⟩
    rw [List.cons_append, List.cons_append, List.nil_append, mdLoop, if_neg (by omega), if_pos rfl,
      hincr, if_neg (by omega)]
    dsimp only
    rw [if_pos hcounts, hincr2, htail ch _ _ hne hk2 (by omega)]
    by_cases hmore : more = 0
    · rw [if_pos hmore, if_pos hmore]
      rfl
    · rw [if_neg hmore, if_neg hmore]
      rfl
  · rw [escape_of_not_escaped hb] at hk ⊢
    have hk1 : k + 1 ≤ data.length := hk
    refine ⟨newLen, hexpect, ?_⟩
    rw [List.cons_append, List.nil_append, mdLoop.eq_def]
    dsimp only
    rw [if_neg (by omega), if_neg fun h => hb (.inr h), incr_of_lt hk1 hlen,
      htail b _ _ (fun h => hb (.inl h)) hk1 hexpect]
    by_cases hmore : more = 0
    · rw [if_pos hmore, if_pos hmore]
      rfl
    · rw [if_neg hmore, if_neg hmore]
      rfl

/-- The loop over what is sent for a part of the data, with octets still to come. -/
theorem mdLoop_flatMap (hstart : w.m_nStartByteLen = 0) {cs : List UInt8}
    (hk : k + (cs.flatMap (escape STX_OCTET)).length ≤ data.length) (hlen : data.length < 65536)
    (hmore : more ≠ 0) (hfew : cs.length + more ≤ 65537)
    (hexpect : k + cs.length + more = newLen + 3 + w.m_frm_len_byte) :
    ∃ newLen', k + (cs.flatMap (escape STX_OCTET)).length + more = newLen' + 3 + w.m_frm_len_byte ∧
      w.mdLoop c data frmType newLen k (cs.flatMap (escape STX_OCTET) ++ src) =
        w.mdLoop c data frmType newLen' (k + (cs.flatMap (escape STX_OCTET)).length) src := by
  induction cs generalizing k newLen with
  | nil => exact ⟨newLen, hexpect, rfl⟩
  | cons b cs ih =>
    rw [List.flatMap_cons, List.length_append] at hk ⊢
    rw [List.length_cons] at hfew hexpect
    have hexpect₀ : k + 1 + (cs.length + more) = newLen + 3 + w.m_frm_len_byte := by omega
    have hk₀ : k + (escape STX_OCTET b).length ≤ data.length := by omega
    obtain ⟨newLen₁, hexpect₁, hstep⟩ :=
      mdLoop_escape c frmType (cs.flatMap (escape STX_OCTET) ++ src) hstart hk₀ hlen (by omega)
        hexpect₀
    have hexpect₂ : k + (escape STX_OCTET b).length + cs.length + more =
        newLen₁ + 3 + w.m_frm_len_byte := by omega
    obtain ⟨newLen', hexpect', hrun⟩ := ih (by omega) (by omega) hexpect₂
    refine ⟨newLen', by omega, ?_⟩
    rw [List.append_assoc, hstep, if_neg (by omega), hrun, Nat.add_assoc]

/-- The loop of `decodeMDFrame` at the end of what is pending. -/
theorem mdLoop_end (newLen : Nat) (w : UsbRxWatcher) {half : List UInt8}
    (hhalf : half = [] ∨ half = [MUX_KEY_WORD])
    (hk : k + half.length = data.length) (hlen : data.length < 65536) :
    ∃ w', w.mdLoop c data frmType newLen k half = some ⟨none, data.length, w'⟩ := by
  rcases hhalf with rfl | rfl
  · obtain rfl : k = data.length := hk
    exact ⟨w, if_pos rfl⟩
  · have hk1 : k + 1 = data.length := hk
    have hincr := incr_of_lt (show k < data.length by omega) hlen
    rw [mdLoop, if_neg (by omega), if_pos rfl, hincr, if_pos hk1, hk1]
    exact ⟨w, rfl⟩

end Modem

/-! ## Headers -/

section Header

variable {b : UInt8} {data : List UInt8} {frmLen lenByte k : Nat} {sum : UInt8} {w : UsbRxWatcher}
  (c : Context) (behind : UInt8) (src : List UInt8)

/-- The decoder in a header: its state, what it has of the length field and how many octets
the field has taken, and the checksum so far. -/
structure InHeader (state : TstFrameState) (frmLen lenByte : Nat) (sum : UInt8)
    (w : UsbRxWatcher) : Prop where
  state : w.m_cTstFrameState = state
  m_uFrameLength : w.m_uFrameLength = frmLen
  m_frm_len_byte : w.m_frm_len_byte = lenByte
  m_checksum : w.m_checksum = sum
  m_nStartByteLen : w.m_nStartByteLen = 0

/-- An octet of the length field taken, escaped or not. -/
def takenLength (w : UsbRxWatcher) (b : UInt8) : UsbRxWatcher :=
  if Escaped STX_OCTET b then (w.taken b).countPair else w

theorem InHeader.takenLength {state : TstFrameState} (hstate : state = .lenHi ∨ state = .lenLo)
    (h : InHeader state frmLen lenByte sum w) :
    InHeader state frmLen (lenByte + ((escape STX_OCTET b).length - 1)) sum (w.takenLength b) := by
  have hsame := same_taken w b
  rw [UsbRxWatcher.takenLength, length_escape]
  split
  · rw [countPair, if_pos (by rw [hsame.m_cTstFrameState, h.state]; exact hstate)]
    constructor
    · exact hsame.m_cTstFrameState.trans h.state
    · exact hsame.m_uFrameLength.trans h.m_uFrameLength
    · exact congrArg (· + 1) (hsame.m_frm_len_byte.trans h.m_frm_len_byte)
    · exact hsame.m_checksum.trans h.m_checksum
    · exact hsame.m_nStartByteLen.trans h.m_nStartByteLen
  · exact h

/-- The loop of `decode` over what is sent for one octet of a length field. -/
theorem decodeLoop_escape {w' : UsbRxWatcher} (hstate : w.m_cTstFrameState ≠ .stx)
    (hw : w.SeesEscapes) (hk : k + (escape STX_OCTET b).length ≤ data.length)
    (hlen : data.length < 65536) (hturn : (w.takenLength b).headerTurn b = .next w') :
    decodeLoop c behind data w k (escape STX_OCTET b ++ src) =
      decodeLoop c behind data w' (k + (escape STX_OCTET b).length) src := by
  unfold UsbRxWatcher.takenLength at hturn
  by_cases hb : Escaped STX_OCTET b
  · rw [if_pos hb] at hturn
    obtain ⟨ch, hpair, hch⟩ := escape_of_escaped hb
    rw [hpair] at hk ⊢
    have hk2 : k + 2 ≤ data.length := hk
    have hincr := incr_of_lt (Nat.lt_of_succ_lt (Nat.lt_of_succ_le hk2)) hlen
    have hincr2 := incr_of_lt (Nat.lt_of_succ_le hk2) hlen
    rw [List.cons_append, List.cons_append, List.nil_append, decodeLoop.eq_def]
    dsimp only
    rw [if_neg (by omega), if_neg (by decide), if_neg hstate, checkEscape_keyWord hw]
    dsimp only
    rw [transferFrame_pair hb hch]
    dsimp only
    rw [hturn, hincr, hincr2]
    rfl
  · rw [if_neg hb] at hturn
    rw [escape_of_not_escaped hb] at hk ⊢
    have hk1 : k + 1 ≤ data.length := hk
    rw [List.cons_append, List.nil_append, decodeLoop.eq_def]
    dsimp only
    rw [if_neg (by omega), if_neg fun h => hb (.inl h), if_neg hstate,
      checkEscape_of_ne fun h => hb (.inr h)]
    dsimp only
    rw [hturn, incr_of_lt hk1 hlen]
    rfl

/-- The start octet. -/
theorem decode_stx (w : UsbRxWatcher) :
    ∃ w', InHeader .lenHi 0 2 STX_OCTET w' ∧
      w.decode c behind (STX_OCTET :: src) = decodeLoop c behind (STX_OCTET :: src) w' 1 src :=
  ⟨w.start 1, ⟨rfl, rfl, rfl, rfl, rfl⟩, rfl⟩

/-- The high octet of the length field. -/
theorem InHeader.lenHi (h : InHeader .lenHi frmLen lenByte sum w)
    (hk : k + (escape STX_OCTET b).length ≤ data.length) (hlen : data.length < 65536) :
    ∃ w', InHeader .lenLo (b.toNat * 256) (lenByte + ((escape STX_OCTET b).length - 1))
        (sum ^^^ b) w' ∧
      decodeLoop c behind data w k (escape STX_OCTET b ++ src) =
        decodeLoop c behind data w' (k + (escape STX_OCTET b).length) src := by
  have ht := h.takenLength (b := b) (.inl rfl)
  have hturn : (w.takenLength b).headerTurn b = .next { w.takenLength b with
      m_uFrameLength := b.toNat * 256
      m_cTstFrameState := .lenLo
      m_checksum := (w.takenLength b).m_checksum ^^^ b } := by
    rw [headerTurn, ht.state]
  refine ⟨_, ?_, decodeLoop_escape c behind src ?_ ?_ hk hlen hturn⟩
  · exact ⟨rfl, rfl, ht.m_frm_len_byte, congrArg (· ^^^ b) ht.m_checksum, ht.m_nStartByteLen⟩
  · rw [h.state]
    decide
  · rw [SeesEscapes, h.state]
    decide

/-- The low octet of the length field. -/
theorem InHeader.lenLo (h : InHeader .lenLo frmLen lenByte sum w)
    (hmax : frmLen + b.toNat + 5 ≤ FRAME_MAX_LEN)
    (hk : k + (escape STX_OCTET b).length ≤ data.length) (hlen : data.length < 65536) :
    ∃ w', InHeader .type (frmLen + b.toNat) (lenByte + ((escape STX_OCTET b).length - 1))
        (sum ^^^ b) w' ∧
      decodeLoop c behind data w k (escape STX_OCTET b ++ src) =
        decodeLoop c behind data w' (k + (escape STX_OCTET b).length) src := by
  have ht := h.takenLength (b := b) (.inr rfl)
  have hmod : (frmLen + b.toNat) % 65536 = frmLen + b.toNat := by
    rw [FRAME_MAX_LEN] at hmax
    exact Nat.mod_eq_of_lt (by omega)
  have hturn : (w.takenLength b).headerTurn b = .next { w.takenLength b with
      m_uFrameLength := frmLen + b.toNat
      m_cTstFrameState := .type
      m_checksum := (w.takenLength b).m_checksum ^^^ b } := by
    rw [headerTurn, ht.state]
    dsimp only
    rw [ht.m_uFrameLength, hmod, if_neg (Nat.not_lt.mpr hmax)]
  refine ⟨_, ?_, decodeLoop_escape c behind src ?_ ?_ hk hlen hturn⟩
  · exact ⟨rfl, rfl, ht.m_frm_len_byte, congrArg (· ^^^ b) ht.m_checksum, ht.m_nStartByteLen⟩
  · rw [h.state]
    decide
  · rw [SeesEscapes, h.state]
    decide

/-- The type. -/
theorem InHeader.type (h : InHeader .type frmLen lenByte sum w) (hb : ¬ Escaped STX_OCTET b)
    (hk : k < data.length) (hlen : data.length < 65536) :
    ∃ w', InHeader .type frmLen lenByte (sum ^^^ b) w' ∧
      decodeLoop c behind data w k (b :: src) = w'.dispatchFrame c b data src (k + 1) := by
  refine ⟨{ w with m_checksum := w.m_checksum ^^^ b }, ?_, ?_⟩
  · exact ⟨h.state, h.m_uFrameLength, h.m_frm_len_byte, congrArg (· ^^^ b) h.m_checksum,
      h.m_nStartByteLen⟩
  · rw [decodeLoop.eq_def]
    dsimp only
    rw [if_neg (by omega), if_neg fun hstx => hb (.inl hstx), h.state, if_neg (by decide),
      checkEscape_of_ne fun hkey => hb (.inr hkey), incr_of_lt hk hlen]
    dsimp only
    rw [headerTurn, h.state]

/-- At the end of what is pending, between two octets. -/
theorem decodeLoop_nil (hk : k = data.length) :
    decodeLoop c behind data w k [] = some ⟨none, data.length, w⟩ := by
  rw [decodeLoop, if_pos hk, hk]

/-- At the end of what is pending, in the middle of an escape pair of the length field. -/
theorem InHeader.half {state : TstFrameState} (hstate : state = .lenHi ∨ state = .lenLo)
    (h : InHeader state frmLen lenByte sum w) (hfrmLen : frmLen ≤ 65280)
    (hk : k + 1 = data.length) (hlen : data.length < 65536) :
    if behind = 0x01 ∨ behind = MUX_KEY_WORD then
      decodeLoop c behind data w k [MUX_KEY_WORD] = none
    else ∃ w', decodeLoop c behind data w k [MUX_KEY_WORD] = some ⟨none, data.length, w'⟩ := by
  have hsees : w.SeesEscapes := by
    rw [SeesEscapes, h.state]
    rcases hstate with rfl | rfl <;> decide
  have hne : w.m_cTstFrameState ≠ .stx := by
    rw [h.state]
    rcases hstate with rfl | rfl <;> decide
  have hincr := incr_of_lt (show k < data.length by omega) hlen
  by_cases hbehind : behind = 0x01 ∨ behind = MUX_KEY_WORD
  · rw [if_pos hbehind, decodeLoop.eq_def]
    dsimp only
    rw [if_neg (by omega), if_neg (by decide), if_neg hne, checkEscape_keyWord hsees]
    rcases hbehind with rfl | rfl
    · rfl
    · rfl
  · -- The key word stands for itself.
    have hturn : ∃ w', headerTurn { w with m_cOldTstFrameState := w.m_cTstFrameState }
        MUX_KEY_WORD = .next w' := by
      rcases hstate with rfl | rfl
      · rw [headerTurn, h.state]
        exact ⟨_, rfl⟩
      · have hkey : MUX_KEY_WORD.toNat = 90 := rfl
        rw [headerTurn, h.state]
        dsimp only
        rw [if_neg (by rw [h.m_uFrameLength, FRAME_MAX_LEN, hkey]; omega)]
        exact ⟨_, rfl⟩
    obtain ⟨w', hturn⟩ := hturn
    rw [if_neg hbehind, decodeLoop.eq_def]
    dsimp only
    rw [if_neg (by omega), if_neg (by decide), if_neg hne, checkEscape_keyWord hsees]
    dsimp only
    rw [transferFrame, if_pos rfl, if_neg fun hb => hbehind (.inr hb),
      if_neg fun hb => hbehind (.inl hb)]
    dsimp only
    rw [hturn, hincr]
    exact ⟨w', decodeLoop_nil c behind hk⟩

end Header

/-! ## Whole frames -/

section Frames

variable {c : Context} {f : HostFrame} {data rest : List UInt8}

/-- What is sent for a frame up to its type, before `src`. -/
def withHeader (f : HostFrame) (src : List UInt8) : List UInt8 :=
  STX_OCTET :: (escape STX_OCTET (hi f.frmLen) ++
    (escape STX_OCTET (lo f.frmLen) ++ f.frmType :: src))

theorem length_withHeader (f : HostFrame) (src : List UInt8) :
    (withHeader f src).length = (escape STX_OCTET (hi f.frmLen)).length +
      (escape STX_OCTET (lo f.frmLen)).length + 2 + src.length := by
  rw [withHeader, List.length_cons, List.length_append, List.length_append, List.length_cons]
  omega

theorem wire_append (hf : f.WellFormed) (rest : List UInt8) : f.wire ++ rest = withHeader f
    (f.content.flatMap (escape STX_OCTET) ++ (escape STX_OCTET f.checksum ++ rest)) := by
  rw [wire_eq hf, withHeader, List.flatMap_append]
  simp only [List.cons_append, List.append_assoc, List.flatMap_cons, List.flatMap_nil,
    List.nil_append]

/-- A frame is longer than its content. -/
theorem length_content_lt (hf : f.WellFormed) : f.content.length + 5 ≤ f.wire.length := by
  have hwire := congrArg List.length (wire_append hf [])
  have hhi := length_escape_pos STX_OCTET (hi f.frmLen)
  have hlo := length_escape_pos STX_OCTET (lo f.frmLen)
  have hsum := length_escape_pos STX_OCTET f.checksum
  have hcontent := length_le_flatMap (escape_ne_nil STX_OCTET) f.content
  rw [List.append_nil, length_withHeader, List.append_nil, List.length_append] at hwire
  omega

/-- The length field of a frame that fits. -/
theorem frmLen_le (hf : f.WellFormed) (hfits : f.wire.length < 65536) :
    f.frmLen + 5 ≤ FRAME_MAX_LEN := by
  cases f with
  | ap => exact hf.2.2.2
  | md frmType octets checksum =>
    have hlt := length_content_lt hf
    change octets.length + 5 ≤ 1024 * 64
    change octets.length + 5 ≤ _ at hlt
    omega

/-- The decoder gets to the type. -/
theorem decode_withHeader (hf : f.WellFormed) (hfits : f.wire.length < 65536) (behind : UInt8)
    {src : List UInt8} (hlen : (withHeader f src).length < 65536) (w : UsbRxWatcher) :
    ∃ w' k, InHeader .type f.frmLen (k - 2)
        (STX_OCTET ^^^ hi f.frmLen ^^^ lo f.frmLen ^^^ f.frmType) w' ∧
      2 ≤ k ∧ k + src.length = (withHeader f src).length ∧ (withHeader f src).drop k = src ∧
      w.decode c behind (withHeader f src) =
        w'.dispatchFrame c f.frmType (withHeader f src) src k := by
  have hmax := frmLen_le hf hfits
  have hfrmLen : (hi f.frmLen).toNat * 256 + (lo f.frmLen).toNat = f.frmLen := by
    rw [FRAME_MAX_LEN] at hmax
    exact ofOctets_hi_lo (by omega)
  have htype := frmType_not_escaped hf
  have hlength := length_withHeader f src
  have hhi := length_escape_pos STX_OCTET (hi f.frmLen)
  have hlo := length_escape_pos STX_OCTET (lo f.frmLen)
  have hdrop : (withHeader f src).drop (1 + (escape STX_OCTET (hi f.frmLen)).length +
      (escape STX_OCTET (lo f.frmLen)).length + 1) = src := by
    rw [withHeader, ← List.singleton_append, ← List.singleton_append (l := src),
      ← List.append_assoc, ← List.append_assoc, ← List.append_assoc]
    refine List.drop_left' ?_
    simp only [List.length_append, List.length_cons, List.length_nil]
  generalize hdata : withHeader f src = data at hlen hlength hdrop ⊢
  obtain ⟨w₀, h₀, hdecode⟩ := decode_stx c behind (escape STX_OCTET (hi f.frmLen) ++
    (escape STX_OCTET (lo f.frmLen) ++ f.frmType :: src)) w
  rw [show STX_OCTET :: (escape STX_OCTET (hi f.frmLen) ++
    (escape STX_OCTET (lo f.frmLen) ++ f.frmType :: src)) = data from hdata] at hdecode
  have hk₁ : 1 + (escape STX_OCTET (hi f.frmLen)).length ≤ data.length := by omega
  have hk₂ : 1 + (escape STX_OCTET (hi f.frmLen)).length +
      (escape STX_OCTET (lo f.frmLen)).length < data.length := by omega
  have hmax₂ : (hi f.frmLen).toNat * 256 + (lo f.frmLen).toNat + 5 ≤ FRAME_MAX_LEN := by
    rw [hfrmLen]
    exact hmax
  obtain ⟨w₁, h₁, hstep₁⟩ := h₀.lenHi c behind (escape STX_OCTET (lo f.frmLen) ++ f.frmType :: src)
    hk₁ hlen
  obtain ⟨w₂, h₂, hstep₂⟩ := h₁.lenLo c behind (f.frmType :: src) hmax₂ (Nat.le_of_lt hk₂) hlen
  obtain ⟨w₃, h₃, hstep₃⟩ := h₂.type c behind src htype hk₂ hlen
  refine ⟨w₃, _, ?_, ?_, ?_, hdrop, ((hdecode.trans hstep₁).trans hstep₂).trans hstep₃⟩
  · rw [hfrmLen] at h₃
    convert h₃ using 1
    omega
  · omega
  · omega

/-- The decoder of requests before their content. -/
theorem inRequest_start {frmLen lenByte : Nat} {localBuf peerBuf : List UInt8} {sum : UInt8}
    {w : UsbRxWatcher} (h : InHeader .type frmLen lenByte sum w) :
    InRequest localBuf peerBuf sum [] { w with
      m_cTstFrameState := .apInjectPrimitiveHeader
      header := []
      received_buf_para_length := 0 } :=
  ⟨rfl, h.m_checksum, fun _ => ⟨rfl, rfl⟩, fun h => absurd h (by decide)⟩

section Dispatch

variable {lenByte k : Nat} {sum b : UInt8} {w : UsbRxWatcher}

/-- The content and the checksum of a request. -/
theorem InHeader.request {n k' frmLen : Nat} {localBuf peerBuf : List UInt8}
    (h : InHeader .type n lenByte sum w) (c : Context) (rest : List UInt8)
    (hlocal4 : 4 ≤ localBuf.length) (hfits : localBuf.length + peerBuf.length < 65536)
    (hb : (content (.ap frmLen localBuf peerBuf)).foldl (· ^^^ ·) sum = b)
    (hcount : k + ((content (.ap frmLen localBuf peerBuf)).flatMap (escape STX_OCTET)).length +
      (escape STX_OCTET b).length = k') (hk : k' ≤ data.length) (hlen : data.length < 65536) :
    ∃ w', w.dispatchFrame c RS232_INJECT_APPRIMITIVE_OCTET data
        ((content (.ap frmLen localBuf peerBuf)).flatMap (escape STX_OCTET) ++
          (escape STX_OCTET b ++ rest)) k =
      some ⟨some (outcome c (.ap frmLen localBuf peerBuf)), k', w'⟩ := by
  rw [← hcount] at hk
  have hall : [] ++ (content (.ap frmLen localBuf peerBuf) ++ []) =
      content (.ap frmLen localBuf peerBuf) := List.append_nil _
  obtain ⟨w₁, h₁, hrun⟩ := (inRequest_start h).decodeAPFrame c (escape STX_OCTET b ++ rest) hlocal4
    hfits hall (Nat.le_of_add_right_le hk) hlen
  obtain ⟨w₂, hdone⟩ := (h₁.of_same (same_taken w₁ b)).done (c := c) hlocal4 hfits hb
  refine ⟨w₂, ?_⟩
  change UsbRxWatcher.decodeAPFrame c _ _ _ _ = _
  rw [hrun, decodeAPFrame_escape h₁.seesEscapes hk hlen, hdone, ← hcount]

/-- A part of what follows the type of a request. -/
theorem InHeader.request_part {n frmLen : Nat} {localBuf peerBuf cs more half : List UInt8}
    (h : InHeader .type n lenByte sum w) (c : Context)
    (hlocal4 : 4 ≤ localBuf.length) (hfits : localBuf.length + peerBuf.length < 65536)
    (hcontent : cs ++ more = content (.ap frmLen localBuf peerBuf))
    (hhalf : half = [] ∨ half = [MUX_KEY_WORD])
    (hk : k + (cs.flatMap (escape STX_OCTET) ++ half).length = data.length)
    (hlen : data.length < 65536) :
    ∃ w', w.dispatchFrame c RS232_INJECT_APPRIMITIVE_OCTET data
        (cs.flatMap (escape STX_OCTET) ++ half) k = some ⟨none, data.length, w'⟩ := by
  rw [List.length_append, ← Nat.add_assoc] at hk
  obtain ⟨w₁, h₁, hrun⟩ := (inRequest_start h).decodeAPFrame c half hlocal4 hfits hcontent
    (Nat.le.intro hk) hlen
  obtain ⟨w₂, hend⟩ := decodeAPFrame_end (c := c) h₁.seesEscapes hhalf hk hlen
  refine ⟨w₂, ?_⟩
  change UsbRxWatcher.decodeAPFrame c _ _ _ _ = _
  rw [hrun, hend]

/-- The dispatch of a frame for the modem. -/
theorem dispatch_md {frmType : UInt8} (htype : frmType = RS232_COMMAND_TYPE_OCTET ∨
      frmType = RS232_INJECT_PRIMITIVE_OCTET) (c : Context) (src : List UInt8) :
    w.dispatchFrame c frmType data src k =
      { w with m_cTstFrameState := .mdData }.mdLoop c data frmType w.m_uFrameLength k
        (data.drop k) :=
  if_pos htype.symm

/-- The data and the checksum of a frame for the modem. -/
theorem InHeader.modem {k' : Nat} {frmType : UInt8} {octets : List UInt8}
    (h : InHeader .type octets.length lenByte sum w) (c : Context) (rest : List UInt8)
    (htype : frmType = RS232_COMMAND_TYPE_OCTET ∨ frmType = RS232_INJECT_PRIMITIVE_OCTET)
    (hdrop : data.drop k = octets.flatMap (escape STX_OCTET) ++ (escape STX_OCTET b ++ rest))
    (hlenByte : k = lenByte + 2) (hoctets : octets.length ≤ 65536)
    (hcount : k + (octets.flatMap (escape STX_OCTET)).length + (escape STX_OCTET b).length = k')
    (hk : k' ≤ data.length) (hlen : data.length < 65536) :
    ∃ w', w.dispatchFrame c frmType data
        (octets.flatMap (escape STX_OCTET) ++ (escape STX_OCTET b ++ rest)) k =
      some ⟨some (if c.isModem 0 then .md 0 (data.take k') else .invalid), k', w'⟩ := by
  have hstart : { w with m_cTstFrameState := .mdData }.m_nStartByteLen = 0 := h.m_nStartByteLen
  have hexpect : k + octets.length + 1 = w.m_uFrameLength + 3 + w.m_frm_len_byte := by
    rw [h.m_uFrameLength, h.m_frm_len_byte]
    omega
  rw [← hcount] at hk
  obtain ⟨newLen, hexpect₁, hrun⟩ := mdLoop_flatMap c frmType (escape STX_OCTET b ++ rest) hstart
    (Nat.le_of_add_right_le hk) hlen (by decide) (Nat.succ_le_succ hoctets) hexpect
  obtain ⟨newLen₂, -, hlast⟩ := mdLoop_escape c frmType rest hstart hk hlen (Nat.zero_le _) hexpect₁
  rw [hcount] at hlast hk
  have hlenOf : (k' + 4294967296 - 0) % 65536 = k' := by
    omega
  rw [dispatch_md htype, hdrop, hrun, hlast, if_pos rfl, mdFrame, hstart, hlenOf, sendMdTask,
    if_pos htype.symm]
  exact ⟨_, rfl⟩

/-- A part of what follows the type of a frame for the modem. -/
theorem InHeader.modem_part {frmType : UInt8} {octets cs more half : List UInt8}
    (h : InHeader .type octets.length lenByte sum w) (c : Context)
    (htype : frmType = RS232_COMMAND_TYPE_OCTET ∨ frmType = RS232_INJECT_PRIMITIVE_OCTET)
    (hdrop : data.drop k = cs.flatMap (escape STX_OCTET) ++ half)
    (hcontent : cs ++ more = octets ++ [b]) (hmore : more ≠ [])
    (hlenByte : k = lenByte + 2) (hoctets : octets.length ≤ 65536)
    (hhalf : half = [] ∨ half = [MUX_KEY_WORD])
    (hk : k + (cs.flatMap (escape STX_OCTET) ++ half).length = data.length)
    (hlen : data.length < 65536) :
    ∃ w', w.dispatchFrame c frmType data (cs.flatMap (escape STX_OCTET) ++ half) k =
      some ⟨none, data.length, w'⟩ := by
  rw [List.length_append, ← Nat.add_assoc] at hk
  have hlength : cs.length + more.length = octets.length + 1 := by
    rw [← List.length_append, hcontent, List.length_append]
    rfl
  have hstart : { w with m_cTstFrameState := .mdData }.m_nStartByteLen = 0 := h.m_nStartByteLen
  have hexpect : k + cs.length + more.length = w.m_uFrameLength + 3 + w.m_frm_len_byte := by
    rw [h.m_uFrameLength, h.m_frm_len_byte]
    omega
  obtain ⟨newLen, -, hrun⟩ := mdLoop_flatMap c frmType half hstart (Nat.le.intro hk) hlen
    (fun hnil => hmore (List.eq_nil_of_length_eq_zero hnil)) (by omega) hexpect
  obtain ⟨w', hend⟩ := mdLoop_end c frmType newLen { w with m_cTstFrameState := .mdData } hhalf hk
    hlen
  refine ⟨w', ?_⟩
  rw [dispatch_md htype, hdrop, hrun, hend]

end Dispatch

/-- **A frame that is pending as a whole** is decoded to its outcome. -/
theorem decode_wire (hf : f.WellFormed) (c : Context) (rest : List UInt8)
    (hlen : (f.wire ++ rest).length < 65536) (behind : UInt8) (w : UsbRxWatcher) :
    ∃ w', w.decode c behind (f.wire ++ rest) = some ⟨some (f.outcome c), f.wire.length, w'⟩ := by
  have hfits : f.wire.length < 65536 := by
    rw [List.length_append] at hlen
    omega
  have hcontent := length_content_lt hf
  have htake : (f.wire ++ rest).take f.wire.length = f.wire := List.take_left' rfl
  have hlength : (f.wire ++ rest).length = f.wire.length + rest.length := List.length_append
  rw [wire_append hf] at hlen hlength htake ⊢
  obtain ⟨w₀, k, h₀, hk2, hk, hdrop, hdecode⟩ := decode_withHeader (c := c) hf hfits behind hlen w
  rw [hdecode]
  generalize withHeader _ _ = data at hlen hk hlength hdrop htake ⊢
  simp only [List.length_append] at hk
  have hcount : k + (f.content.flatMap (escape STX_OCTET)).length +
      (escape STX_OCTET f.checksum).length = f.wire.length := by
    omega
  have hle : f.wire.length ≤ data.length := by
    omega
  cases f with
  | ap frmLen localBuf peerBuf =>
    rw [length_content_ap] at hcontent
    have hchecksum : (content (.ap frmLen localBuf peerBuf)).foldl (· ^^^ ·)
        (STX_OCTET ^^^ hi (HostFrame.frmLen (.ap frmLen localBuf peerBuf)) ^^^
          lo (HostFrame.frmLen (.ap frmLen localBuf peerBuf)) ^^^
            HostFrame.frmType (.ap frmLen localBuf peerBuf)) =
        checksum (.ap frmLen localBuf peerBuf) := by
      rw [checksum, HostFrame.sum]
    exact h₀.request c rest hf.1 (by omega) hchecksum hcount hle hlen
  | md frmType octets checksum =>
    have hoctets : octets.length + 5 ≤ (md frmType octets checksum).wire.length := hcontent
    have hmodem := h₀.modem c rest hf.1 hdrop (by omega) (by omega) hcount hle hlen
    rw [htake] at hmodem
    exact hmodem

/-! ## Parts of frames -/

/-- What is pending ends in the middle of an escape pair of the length field. -/
def SplitsLength (tail : List UInt8) : Prop :=
  tail = [STX_OCTET, MUX_KEY_WORD] ∨ ∃ b, tail = STX_OCTET :: (escape STX_OCTET b ++ [MUX_KEY_WORD])

/-- The octet of the memory behind what is pending completes the escape pair. -/
def Overreads (behind : UInt8) (tail : List UInt8) : Prop :=
  SplitsLength tail ∧ (behind = 0x01 ∨ behind = MUX_KEY_WORD)

theorem not_splitsLength_stx : ¬ SplitsLength [STX_OCTET] := by
  rintro (h | ⟨b, h⟩)
  · cases h
  · exact List.append_ne_nil_of_right_ne_nil _ (List.cons_ne_nil _ _) (List.cons.inj h).2.symm

theorem not_splitsLength_hi (a : UInt8) : ¬ SplitsLength (STX_OCTET :: escape STX_OCTET a) := by
  rw [← List.append_nil (escape STX_OCTET a)]
  rintro (h | ⟨b, h⟩)
  · exact escape_append_ne a [] (List.cons.inj h).2
  · cases escape_append_inj (List.cons.inj h).2

theorem not_splitsLength_lo (a b : UInt8) (x : List UInt8) :
    ¬ SplitsLength (STX_OCTET :: (escape STX_OCTET a ++ (escape STX_OCTET b ++ x))) := by
  rintro (h | ⟨b', h⟩)
  · exact escape_append_ne a _ (List.cons.inj h).2
  · exact escape_append_ne b x (escape_append_inj (List.cons.inj h).2)

/-- **A part of a frame** is kept as a whole, unless the decoder reads behind it. -/
theorem decode_begins {fs : List HostFrame} {tail : List UInt8} (hf : f.WellFormed)
    (hfits : f.wire.length < 65536) (c : Context) (behind : UInt8)
    (h : Begins wire tail (f :: fs)) (htail : tail ≠ []) (w : UsbRxWatcher) :
    (Overreads behind tail → w.decode c behind tail = none) ∧
      (¬ Overreads behind tail → ∃ w', w.decode c behind tail = some ⟨none, tail.length, w'⟩) := by
  obtain ⟨hsub, hlt⟩ := h
  obtain ⟨s, q, rfl⟩ := List.exists_cons_of_ne_nil htail
  obtain ⟨rfl, hq⟩ := List.cons_prefix_cons.mp hsub
  obtain ⟨left, hoctets, hpart, hbegins⟩ := completed_spec hq
  generalize completed (escape STX_OCTET) f.octets q.length = done at hoctets hpart
  generalize unfinished (escape STX_OCTET) f.octets q = half at hpart hbegins
  subst hpart
  have hhalf := begins_escape hbegins
  have hleft : left ≠ [] := by
    rintro rfl
    obtain rfl : half = [] := hbegins
    rw [List.append_nil] at hoctets hlt
    rw [wire, hoctets] at hlt
    exact absurd hlt (Nat.lt_irrefl _)
  have hlen := Nat.lt_trans hlt hfits
  have hmax := frmLen_le hf hfits
  -- A result that is as claimed whatever the octet behind.
  have hwhole : ∀ {data : List UInt8} {r : Option Decoded}, ¬ SplitsLength data →
      (∃ w', r = some ⟨none, data.length, w'⟩) → (Overreads behind data → r = none) ∧
        (¬ Overreads behind data → ∃ w', r = some ⟨none, data.length, w'⟩) :=
    fun hnot hr => ⟨fun hover => absurd hover.1 hnot, fun _ => hr⟩
  -- A result that depends on the octet behind.
  have hsplit : ∀ {data : List UInt8} {r : Option Decoded}, SplitsLength data →
      (if behind = 0x01 ∨ behind = MUX_KEY_WORD then r = none
        else ∃ w', r = some ⟨none, data.length, w'⟩) → (Overreads behind data → r = none) ∧
        (¬ Overreads behind data → ∃ w', r = some ⟨none, data.length, w'⟩) := by
    intro data r hdata hr
    refine ⟨fun hover => ?_, fun hover => ?_⟩
    · rwa [if_pos hover.2] at hr
    · rwa [if_neg fun hb => hover ⟨hdata, hb⟩] at hr
  obtain ⟨w₀, h₀, hstx⟩ := decode_stx c behind (done.flatMap (escape STX_OCTET) ++ half) w
  rw [octets] at hoctets
  rcases done with _ | ⟨a, _ | ⟨b, _ | ⟨t, cs⟩⟩⟩
  · rw [List.flatMap_nil, List.nil_append] at hstx hlen ⊢
    rw [hstx]
    rcases hhalf with rfl | rfl
    · exact hwhole not_splitsLength_stx ⟨w₀, decodeLoop_nil c behind rfl⟩
    · exact hsplit (.inl rfl) (h₀.half c behind (.inl rfl) (by decide) rfl hlen)
  · have hk₁ : 1 + (escape STX_OCTET a).length ≤
        (STX_OCTET :: ([a].flatMap (escape STX_OCTET) ++ half)).length := by
      simp only [List.flatMap_cons, List.flatMap_nil, List.length_cons, List.length_append]
      omega
    obtain ⟨w₁, h₁, hstep₁⟩ := h₀.lenHi c behind half hk₁ hlen
    rw [List.flatMap_cons, List.flatMap_nil, List.append_nil] at hstx hstep₁ hlen ⊢
    rw [hstx, hstep₁]
    rcases hhalf with rfl | rfl
    · rw [List.append_nil]
      refine hwhole (not_splitsLength_hi a) ⟨w₁, decodeLoop_nil c behind ?_⟩
      exact Nat.add_comm 1 _
    · refine hsplit (.inr ⟨a, rfl⟩) (h₁.half c behind (.inr rfl) ?_ ?_ hlen)
      · have ha := a.toNat_lt
        omega
      · simp only [List.length_cons, List.length_append, List.length_nil]
        omega
  · simp only [List.cons_append, List.nil_append, List.cons.injEq] at hoctets
    obtain ⟨rfl, rfl, rfl⟩ := hoctets
    obtain rfl : half = [] := by
      have hlt := hbegins.2
      rw [escape_of_not_escaped (frmType_not_escaped hf)] at hlt
      exact List.eq_nil_of_length_eq_zero (Nat.lt_one_iff.mp hlt)
    have hform : [hi f.frmLen, lo f.frmLen].flatMap (escape STX_OCTET) ++ [] =
        escape STX_OCTET (hi f.frmLen) ++ (escape STX_OCTET (lo f.frmLen) ++ []) := by
      simp only [List.flatMap_cons, List.flatMap_nil, List.append_nil]
    rw [hform] at hstx hlen ⊢
    generalize hdata : STX_OCTET :: (escape STX_OCTET (hi f.frmLen) ++
      (escape STX_OCTET (lo f.frmLen) ++ [])) = data at hstx hlen ⊢
    have hk : 1 + (escape STX_OCTET (hi f.frmLen)).length +
        (escape STX_OCTET (lo f.frmLen)).length = data.length := by
      rw [← hdata]
      simp only [List.length_cons, List.length_append, List.append_nil]
      omega
    have hfrmLen : (hi f.frmLen).toNat * 256 + (lo f.frmLen).toNat + 5 ≤ FRAME_MAX_LEN := by
      have hvalue := ofOctets_hi_lo (n := f.frmLen) (by rw [FRAME_MAX_LEN] at hmax; omega)
      rw [ofOctets] at hvalue
      rw [hvalue]
      exact hmax
    obtain ⟨w₁, h₁, hstep₁⟩ := h₀.lenHi c behind (escape STX_OCTET (lo f.frmLen) ++ [])
      (Nat.le_of_add_right_le (Nat.le_of_eq hk)) hlen
    obtain ⟨w₂, h₂, hstep₂⟩ := h₁.lenLo c behind [] hfrmLen (Nat.le_of_eq hk) hlen
    rw [hstx, hstep₁, hstep₂]
    refine hwhole ?_ ⟨w₂, decodeLoop_nil c behind hk⟩
    rw [← hdata]
    exact not_splitsLength_lo _ _ []
  · simp only [List.cons_append, List.nil_append, List.cons.injEq] at hoctets
    obtain ⟨rfl, rfl, rfl, hcontent⟩ := hoctets
    have hform : STX_OCTET :: ((hi f.frmLen :: lo f.frmLen :: f.frmType :: cs).flatMap
        (escape STX_OCTET) ++ half) = withHeader f (cs.flatMap (escape STX_OCTET) ++ half) := by
      simp only [withHeader, List.flatMap_cons, escape_of_not_escaped (frmType_not_escaped hf),
        List.append_assoc, List.cons_append, List.nil_append]
    rw [hform] at hlen ⊢
    obtain ⟨w₁, k, h₁, hk2, hk, hdrop, hdecode⟩ :=
      decode_withHeader (c := c) hf hfits behind hlen w
    have hnot : ¬ SplitsLength (withHeader f (cs.flatMap (escape STX_OCTET) ++ half)) :=
      not_splitsLength_lo _ _ _
    rw [hdecode]
    refine hwhole hnot ?_
    have hlength := length_content_lt hf
    cases f with
    | ap frmLen localBuf peerBuf =>
      rw [length_content_ap] at hlength
      obtain rfl | ⟨more, last, rfl⟩ := left.eq_nil_or_concat
      · exact absurd rfl hleft
      · rw [List.concat_eq_append, ← List.append_assoc] at hcontent
        have hmore := (List.append_inj' hcontent rfl).1.symm
        exact h₁.request_part c hf.1 (by omega) hmore hhalf hk hlen
    | md frmType octets checksum =>
      have hoctets : octets.length + 5 ≤ (md frmType octets checksum).wire.length := hlength
      exact h₁.modem_part c hf.1 hdrop hcontent.symm hleft (by omega) (by omega) hhalf hk hlen

end Frames

end UsbRxWatcher

end MtkHw.Meta
