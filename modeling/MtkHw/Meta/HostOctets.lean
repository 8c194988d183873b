import MtkHw.Meta.HostMemory

/-!
# What an octet does to the META host decoder

Each routine of the decoder keeps an invariant of its counter, its pointer and its buffers, and
lowers a measure, under hypotheses that are made into one condition in `HostSafety`.

A call ends because the measure goes down: the octets of the activation that are left, and before
them three times the octets of the activation, plus a rank of the state.  An activation may leave
all its octets to the next one, but then the state goes from `RS232_FRAME_LENLO` to
`RS232_FRAME_TYPE`, or from there to `RS232_FRAME_STX`.
-/

namespace MtkHw.Meta

open Lib

/-! ## The invariant -/

/-- The second octet of a pair may be read again as an octet of its own. -/
def Place.isPair : Place → Bool
  | headerPair => true
  | apPair => true
  | _ => false

/-- The type of the frame, for a frame of a modem. -/
def Place.modemType : Place → Option UInt8
  | md frmType _ => some frmType
  | mdPair frmType _ => some frmType
  | mdFlow frmType _ => some frmType
  | _ => none

namespace Host

/-- The state of the decoder of a request, and what it has stored. -/
structure ApInv (f : TstFrameState) (w : UsbRxWatcher) : Prop where
  state : f = .apInjectPrimitiveHeader ∨ f = .apPrimLocalParaData ∨ f = .checksum
  header : f = .apInjectPrimitiveHeader → w.received_buf_para_length = 0
  para : f = .apPrimLocalParaData → w.received_buf_para_length < w.local_len + w.peer_len

/-- What holds where the decoder reads its next octet, the `u16Length`-th of `len`. -/
def PlaceInv (w : UsbRxWatcher) (len : Nat) (p : Place) (u16Length : Nat) : Prop :=
  match p with
  | .header => True
  | .headerPair => w.m_cTstFrameState = .keyword
  | .ap => ApInv w.m_cTstFrameState w
  | .apPair => u16Length < len ∧ w.m_cTstFrameState = .keyword ∧ ApInv w.m_cOldTstFrameState w
  | .md _ _ => True
  | .mdPair _ _ => u16Length < len
  | .mdFlow _ _ => u16Length < len
  | .tunnel t => t.data_len + (len - u16Length) = t.src.length
  | .tunnelFlow t => u16Length < len ∧ t.data_len + (len - u16Length) = t.src.length
  | .tunnelSum t _ => t.newlen ≤ t.src.length

/-- What holds of the counter and of the pointer. -/
def ControlInv (w : UsbRxWatcher) (data : List UInt8) : Control → Prop
  | .idle => True
  | .fault _ => False
  | .back frame u16Length =>
      u16Length ≤ data.length ∧ (frame = none → u16Length = data.length ∨ 1 ≤ u16Length) ∧
        (frame ≠ none → 1 ≤ u16Length)
  | .decoding p u16Length src =>
      src = data.drop u16Length ∧ u16Length ≤ data.length ∧ (p ≠ .header → 1 ≤ u16Length) ∧
        PlaceInv w data.length p u16Length

/-- The invariant of runs. -/
structure Inv (s : Host) : Prop where
  data_le : s.data.length ≤ REMAIN_BUF_SIZE
  remain_le : s.remain.length ≤ REMAIN_BUF_SIZE
  header_le : s.watcher.header.length ≤ PRIM_HEADER_SIZE
  control : ControlInv s.watcher s.data s.control

/-! ## The measure -/

/-- The states in which an activation may leave all its octets to the next one. -/
def rank : TstFrameState → Nat
  | .lenLo => 2
  | .type => 1
  | _ => 0

/-- The rank with which an activation began, while it may leave all its octets. -/
def lead (w : UsbRxWatcher) : Place → Nat → Nat
  | .header, 0 => rank w.m_cTstFrameState
  | .headerPair, 1 => rank w.m_cOldTstFrameState
  | _, _ => 0

/-- How many activations may follow. -/
def outer (s : Host) : Nat :=
  match s.control with
  | .idle => 0
  | .fault _ => 0
  | .back none u16Length =>
      if u16Length = s.data.length then 1
      else 3 * (s.data.length - (u16Length - 1)) + rank s.watcher.m_cTstFrameState + 2
  | .back (some .invalid) _ => 1
  | .back (some _) u16Length =>
      3 * (s.data.length - u16Length) + rank s.watcher.m_cTstFrameState + 2
  | .decoding p u16Length _ => 3 * s.data.length + lead s.watcher p u16Length + 1

/-- What the activation has left to read. -/
def inner (s : Host) : Nat :=
  match s.control with
  | .decoding p _ src => 2 * src.length + if p.isPair then 2 else 1
  | _ => 0

theorem rank_le (state : TstFrameState) : rank state ≤ 2 := by
  cases state <;> simp [rank]

/-- Behind the first octet of an activation, only its pair may still leave it. -/
theorem lead_le {w : UsbRxWatcher} {p : Place} {u16Length r : Nat} (hpos : 1 ≤ u16Length)
    (hrank : p.isPair = true → u16Length = 1 → rank w.m_cOldTstFrameState ≤ r) :
    lead w p u16Length ≤ r := by
  unfold lead
  split
  · omega
  · exact hrank rfl rfl
  · exact Nat.zero_le r

/-- The state `s'` follows in the activation of `s`, which began with the rank `r`, and leaves
less than `n`. -/
structure Follows (s s' : Host) (r n : Nat) : Prop where
  inv : s'.Inv
  outer_le : s'.outer ≤ 3 * s.data.length + r + 1
  inner_lt : s'.inner < n

/-! ## Going on and returning -/

/-- The decoder has taken `u16Length` octets, and `src` are the others. -/
structure Taken (s : Host) (w : UsbRxWatcher) (u16Length : Nat) (src : List UInt8) : Prop where
  data_le : s.data.length ≤ REMAIN_BUF_SIZE
  remain_le : s.remain.length ≤ REMAIN_BUF_SIZE
  header_le : w.header.length ≤ PRIM_HEADER_SIZE
  src_eq : src = s.data.drop u16Length
  le : u16Length ≤ s.data.length
  pos : 1 ≤ u16Length

namespace Taken

variable {s : Host} {w : UsbRxWatcher} {u16Length r n : Nat} {src : List UInt8}

/-- The fields of the decoder change. -/
theorem update (ht : Taken s w u16Length src) {w' : UsbRxWatcher}
    (hheader : w'.header.length ≤ PRIM_HEADER_SIZE) : Taken s w' u16Length src :=
  ⟨ht.data_le, ht.remain_le, hheader, ht.src_eq, ht.le, ht.pos⟩

theorem length_src (ht : Taken s w u16Length src) : src.length = s.data.length - u16Length := by
  rw [ht.src_eq, List.length_drop]

/-- The decoder goes on. -/
theorem goto (ht : Taken s w u16Length src) {p : Place}
    (hplace : PlaceInv w s.data.length p u16Length)
    (hrank : p.isPair = true → u16Length = 1 → rank w.m_cOldTstFrameState ≤ r)
    (hn : 2 * src.length + (if p.isPair then 2 else 1) < n) :
    Follows s (s.goto w p u16Length src) r n where
  inv := ⟨ht.data_le, ht.remain_le, ht.header_le, ht.src_eq, ht.le, fun _ => ht.pos, hplace⟩
  outer_le := Nat.succ_le_succ (Nat.add_le_add_left (lead_le ht.pos hrank) _)
  inner_lt := hn

/-- The decoder goes on at a place that is not behind a key word. -/
theorem goto_plain (ht : Taken s w u16Length src) {p : Place} (hp : p.isPair = false)
    (hplace : PlaceInv w s.data.length p u16Length) (hn : 2 * src.length + 1 < n) :
    Follows s (s.goto w p u16Length src) r n :=
  ht.goto hplace (fun h => by simp [hp] at h) (by rw [hp]; exact hn)

/-- `decode` returns `NULL`. -/
theorem back_none (ht : Taken s w u16Length src) (hn : 0 < n)
    (hrank : u16Length = s.data.length ∨ 2 ≤ u16Length ∨ rank w.m_cTstFrameState < r) :
    Follows s (s.back w none u16Length) r n where
  inv := ⟨ht.data_le, ht.remain_le, ht.header_le, ht.le, fun _ => .inr ht.pos,
    fun h => absurd rfl h⟩
  outer_le := by
    have hle := rank_le w.m_cTstFrameState
    have := ht.le
    have := ht.pos
    show (if u16Length = s.data.length then 1
      else 3 * (s.data.length - (u16Length - 1)) + rank w.m_cTstFrameState + 2) ≤ _
    split_ifs <;> omega
  inner_lt := hn

/-- `decode` returns a frame. -/
theorem back_some (ht : Taken s w u16Length src) (hn : 0 < n) (f : Frame) :
    Follows s (s.back w (some f) u16Length) r n where
  inv := ⟨ht.data_le, ht.remain_le, ht.header_le, ht.le, fun h => (nomatch h), fun _ => ht.pos⟩
  outer_le := by
    have hle := rank_le w.m_cTstFrameState
    have := ht.le
    have := ht.pos
    cases f with
    | invalid => exact Nat.le_add_left 1 _
    | ap token id localBuf peerBuf =>
      show 3 * (s.data.length - u16Length) + rank w.m_cTstFrameState + 2 ≤ _
      omega
    | md mdId data =>
      show 3 * (s.data.length - u16Length) + rank w.m_cTstFrameState + 2 ≤ _
      omega
  inner_lt := hn

/-! ## Headers -/

/-- `dispatchFrame`. -/
theorem dispatch (ht : Taken s w u16Length src) (ch : UInt8) (hr : u16Length = 1 → 1 ≤ r)
    (hn : 2 * src.length + 1 < n) : Follows s (s.dispatch w ch u16Length src) r n := by
  unfold Host.dispatch
  rw [← ht.src_eq]
  split_ifs
  · exact goto_plain (ht.update (by exact ht.header_le)) rfl trivial hn
  · exact goto_plain (ht.update (by exact ht.header_le)) rfl trivial hn
  · exact goto_plain (ht.update (by exact ht.header_le)) rfl trivial hn
  · exact goto_plain (ht.update (Nat.zero_le _)) rfl ⟨.inl rfl, fun _ => rfl, nofun⟩ hn
  · refine goto_plain (ht.update (by exact ht.header_le)) rfl ?_ hn
    show 0 + (s.data.length - u16Length) = src.length
    rw [ht.length_src, Nat.zero_add]
  · refine back_none (ht.update (by exact ht.header_le)) (by omega) ?_
    have := ht.pos
    show _ ∨ _ ∨ 0 < r
    omega

/-- The `switch` of `decode`. -/
theorem headerOctet (ht : Taken s w u16Length src) (ch : UInt8)
    (hrank : u16Length = 1 → rank w.m_cTstFrameState ≤ r) (hn : 2 * src.length + 1 < n) :
    Follows s (s.headerOctet w ch u16Length src) r n := by
  have hpos := ht.pos
  unfold Host.headerOctet UsbRxWatcher.headerTurn
  cases hstate : w.m_cTstFrameState with
  | lenLo =>
    dsimp only
    split_ifs
    · refine back_none (ht.update (by exact ht.header_le)) (by omega) ?_
      rw [hstate] at hrank
      simp only [rank] at hrank ⊢
      omega
    · exact goto_plain (ht.update (by exact ht.header_le)) rfl trivial hn
  | type =>
    rw [hstate] at hrank
    exact dispatch (ht.update (by exact ht.header_le)) ch hrank hn
  | _ => exact goto_plain (ht.update (by exact ht.header_le)) rfl trivial hn

/-! ## Requests -/

/-- The body of `decodeAPFrame`. -/
theorem apOctet (ht : Taken s w u16Length src) (c : Context) (ch : UInt8)
    (hap : ApInv w.m_cTstFrameState w)
    (hfull : w.m_cTstFrameState = .apInjectPrimitiveHeader → w.header.length ≠ PRIM_HEADER_SIZE)
    (hn : 2 * src.length + 1 < n) : Follows s (s.apOctet c w ch u16Length src) r n := by
  have hroom : ¬(w.m_cTstFrameState = .apPrimLocalParaData ∧
      w.local_len + w.peer_len + 1 ≤ w.received_buf_para_length) := by
    rintro ⟨hstate, hle⟩
    have := hap.para hstate
    omega
  unfold Host.apOctet UsbRxWatcher.apTurn
  rw [if_neg hroom]
  rcases hap.state with hstate | hstate | hstate
  · have hlt : w.header.length < PRIM_HEADER_SIZE :=
      Nat.lt_of_le_of_ne ht.header_le (hfull hstate)
    have hheader : (w.header ++ [ch]).length ≤ PRIM_HEADER_SIZE := by
      rw [List.length_append]
      exact hlt
    simp only [hstate, if_pos hlt]
    split_ifs with hfull
    · refine goto_plain (ht.update hheader) rfl ⟨.inr (.inl rfl), nofun, fun _ => ?_⟩ hn
      rw [hap.header hstate]
      exact Nat.add_pos_left (Nat.pos_of_ne_zero hfull.2) _
    · exact goto_plain (ht.update hheader) rfl
        ⟨.inl rfl, fun _ => hap.header hstate, nofun⟩ hn
  · have hlt := hap.para hstate
    have hincr : incr w.received_buf_para_length ≤ w.received_buf_para_length + 1 :=
      Nat.mod_le _ _
    simp only [hstate]
    split_ifs with hfull
    · exact goto_plain (ht.update (by exact ht.header_le)) rfl
        ⟨.inr (.inr rfl), nofun, nofun⟩ hn
    · refine goto_plain (ht.update (by exact ht.header_le)) rfl
        ⟨.inr (.inl rfl), nofun, fun _ => ?_⟩ hn
      exact Nat.lt_of_le_of_ne (Nat.le_trans hincr hlt) fun heq => hfull heq.symm
  · simp only [hstate]
    split_ifs
    · exact back_some (ht.update (by exact ht.header_le)) (by omega) _
    · exact back_some (ht.update (by exact ht.header_le)) (by omega) _

end Taken

/-! ## Frames of modems -/

/-- How far an octet of a modem frame takes the decoder, that has taken `u16Length` octets. -/
def MdTurn.Within (w : UsbRxWatcher) (len u16Length : Nat) : MdTurn → Prop
  | .null u16Length' => u16Length' = u16Length + 1 ∧ u16Length' = len
  | .next p u16Length' => u16Length' = u16Length + 1 ∧ p.isPair = false ∧
      PlaceInv w len p u16Length'
  | .ends u16Length' => 1 ≤ u16Length' ∧ u16Length' ≤ u16Length + 1

section Modem

variable {s : Host} {w : UsbRxWatcher} {u16Length : Nat}

theorem mdTail_within (frmType : UInt8) (newLen : Nat) (ch : UInt8) (hpos : 1 ≤ u16Length)
    (hwrap : u16Length < 65535) :
    (s.mdTail frmType newLen (u16Length + 1) ch).Within w s.data.length u16Length := by
  unfold Host.mdTail
  split_ifs
  · have hdecr : decr (u16Length + 1) = u16Length := by
      unfold decr
      omega
    rw [hdecr]
    exact ⟨hpos, Nat.le_succ _⟩
  · exact ⟨Nat.le_add_left 1 _, Nat.le_refl _⟩
  · exact ⟨rfl, rfl, trivial⟩

theorem mdBody_within (uart : Bool) (frmType : UInt8) (newLen : Nat) (ch : UInt8)
    (hpos : 1 ≤ u16Length) (hlt : u16Length < s.data.length) (hwrap : u16Length < 65535) :
    (s.mdBody uart frmType newLen (u16Length + 1) ch).Within w s.data.length u16Length := by
  unfold Host.mdBody
  split_ifs with hflow hend
  · exact ⟨rfl, hend⟩
  · exact ⟨rfl, rfl, Nat.lt_of_le_of_ne hlt hend⟩
  · exact mdTail_within frmType newLen ch hpos hwrap

theorem mdTurn_within {p : Place} (uart : Bool) (ch : UInt8) (hpos : 1 ≤ u16Length)
    (hlt : u16Length < s.data.length) (hwrap : u16Length < 65535) {frmType : UInt8}
    (hp : p.modemType = some frmType) :
    (s.mdTurn uart p u16Length ch).Within w s.data.length u16Length := by
  have hincr : incr u16Length = u16Length + 1 := Nat.mod_eq_of_lt (by omega)
  cases p with
  | md frmType newLen =>
    dsimp only [Host.mdTurn]
    rw [hincr]
    split_ifs with hkey hend
    · exact ⟨rfl, hend⟩
    · exact ⟨rfl, rfl, Nat.lt_of_le_of_ne hlt hend⟩
    · exact mdBody_within uart frmType newLen ch hpos hlt hwrap
  | mdPair frmType newLen =>
    dsimp only [Host.mdTurn]
    rw [hincr]
    exact mdBody_within uart frmType _ ch hpos hlt hwrap
  | mdFlow frmType newLen =>
    dsimp only [Host.mdTurn]
    rw [hincr]
    exact mdTail_within frmType _ ch hpos hwrap
  | _ => cases hp

end Modem

/-- A frame that is sent to a modem does not end before its recorded start. -/
def StartsBefore (c : Context) (uart : Bool) (s : Host) (frmType : UInt8) : MdTurn → Prop
  | .ends u16Length => s.watcher.sendMdTask c [] frmType ≠ .invalid →
      s.watcher.m_nStartByteLen ≤ (s.flow uart (s.data.take u16Length)).1.length
  | _ => True

instance (c : Context) (uart : Bool) (s : Host) (frmType : UInt8) :
    ∀ turn, Decidable (s.StartsBefore c uart frmType turn)
  | .ends _ => inferInstanceAs (Decidable (_ → _))
  | .null _ => isTrue trivial
  | .next _ _ => isTrue trivial

/-- Whether there is a modem for a frame does not depend on its octets. -/
theorem sendMdTask_invalid {w : UsbRxWatcher} {c : Context} {frmType : UInt8}
    {data : List UInt8} (h : w.sendMdTask c data frmType = .invalid) (data' : List UInt8) :
    w.sendMdTask c data' frmType = .invalid := by
  unfold UsbRxWatcher.sendMdTask at h ⊢
  dsimp only at h ⊢
  split_ifs at h ⊢ <;> rfl

/-- Undoing the escapes of the flow control leaves no more octets. -/
theorem length_flowControl_le (flag : Bool) (octets : List UInt8) :
    (flowControl flag octets).1.length ≤ octets.length := by
  fun_induction flowControl flag octets with
  | case1 => exact Nat.le_refl 0
  | case2 => exact Nat.zero_le 1
  | case3 ch hch => cases getUARTEsc ch <;> simp
  | case4 => exact Nat.le_refl 1
  | case5 ch ch' rest b hb r ih => exact Nat.succ_le_succ ih
  | case6 => exact Nat.zero_le _
  | case7 ch' rest b hb r ih => exact Nat.succ_le_succ (Nat.le_succ_of_le ih)
  | case8 => exact Nat.zero_le _
  | case9 ch ch' rest hch r ih => exact Nat.succ_le_succ ih

theorem length_flow_le (s : Host) (uart : Bool) (octets : List UInt8) :
    (s.flow uart octets).1.length ≤ octets.length := by
  unfold flow
  split_ifs
  · exact length_flowControl_le _ octets
  · exact Nat.le_refl _

namespace Taken

variable {s : Host} {w : UsbRxWatcher} {u16Length r n : Nat} {src : List UInt8}

/-- `decode` returns a frame, and the escapes of the flow control in it are undone. -/
theorem back_flowed (ht : Taken s w u16Length src) (hn : 0 < n) (flag : Bool) (f : Frame) :
    Follows s ({ s with m_flow_ctrl_flag := flag }.back w (some f) u16Length) r n :=
  have hback : Follows s (s.back w (some f) u16Length) r n := ht.back_some hn f
  ⟨⟨hback.inv.data_le, hback.inv.remain_le, hback.inv.header_le, hback.inv.control⟩,
    hback.outer_le, hn⟩

/-- The end of `decodeMDFrame`. -/
theorem endModemFrame (ht : Taken s s.watcher u16Length src) (c : Context) (uart : Bool)
    (frmType : UInt8) (hwrap : u16Length ≤ 65535)
    (hstart : s.watcher.sendMdTask c [] frmType ≠ .invalid →
      s.watcher.m_nStartByteLen ≤ (s.flow uart (s.data.take u16Length)).1.length) (hn : 0 < n) :
    Follows s (s.endModemFrame c uart frmType u16Length) r n := by
  have hflowed := length_flow_le s uart (s.data.take u16Length)
  rw [List.length_take_of_le ht.le] at hflowed
  have hlen : (s.flow uart (s.data.take u16Length)).1.length ≤
      ((s.flow uart (s.data.take u16Length)).1 ++
        s.data.drop (s.flow uart (s.data.take u16Length)).1.length).length := by
    rw [List.length_append]
    exact Nat.le_add_right _ _
  unfold Host.endModemFrame
  dsimp only
  split
  case h_1 mdId data heq =>
    have hmodem : s.watcher.sendMdTask c [] frmType ≠ .invalid := fun hnone => by
      rw [sendMdTask_invalid hnone _] at heq
      cases heq
    have hle := hstart hmodem
    rw [if_pos (by omega)]
    exact ht.back_flowed hn _ _
  case h_2 => exact ht.back_flowed hn _ _

/-! ## Frames of a tunnel -/

/-- The end of `decodeLTE_C2KFrame`. -/
theorem endTunnelFrame (ht : Taken s w u16Length src) {t : TunnelFrame} (c : Context)
    (uart : Bool) (hsrc : t.newlen ≤ t.src.length) (hn : 0 < n) :
    Follows s (s.endTunnelFrame c uart w t u16Length) r n := by
  unfold Host.endTunnelFrame
  rw [if_pos hsrc]
  exact ht.back_flowed hn _ _

/-- The checksum of a frame of a tunnel. -/
theorem compareSum (ht : Taken s w u16Length src) {t : TunnelFrame} (c : Context) (uart : Bool)
    (ch : UInt8) (hsrc : t.newlen ≤ t.src.length) (hn : 0 < n) :
    Follows s (s.compareSum c uart w t ch u16Length) r n := by
  unfold Host.compareSum
  split_ifs
  · exact ht.back_some hn _
  · exact endTunnelFrame (ht.update (by exact ht.header_le)) c uart hsrc hn

/-- `decodeLTE_C2KFrame`, behind the escape of the flow control. -/
theorem tunnelBody (ht : Taken s s.watcher u16Length src) {t : TunnelFrame} (c : Context)
    (uart : Bool) (ch : UInt8) (htwo : 2 ≤ u16Length)
    (hsrc : t.data_len + (s.data.length - u16Length) = t.src.length)
    (hn : 2 * src.length + 1 < n) :
    Follows s (s.tunnelBody c uart t ch u16Length src) r n := by
  have ht' : Taken s { s.watcher with m_cTstFrameState := .stx } u16Length src :=
    ht.update (by exact ht.header_le)
  have hpos : 0 < n := by omega
  unfold Host.tunnelBody
  dsimp only
  split_ifs with hend
  · have hnewlen : t.newlen ≤ t.src.length := by omega
    exact ht'.goto_plain rfl hnewlen hn
  · have hnewlen : t.newlen ≤ t.src.length := by omega
    exact ht'.goto_plain rfl hnewlen hn
  · have hnewlen : t.newlen ≤ t.src.length := by omega
    exact ht'.compareSum c uart ch hnewlen hpos
  · exact ht'.back_none hpos (.inr (.inl htwo))
  · have hnewlen : t.newlen ≤ t.src.length := by omega
    exact ht'.compareSum c uart ch hnewlen hpos
  · have hnewlen : t.newlen ≤ t.src.length := by omega
    exact ht.endTunnelFrame c uart hnewlen hpos
  · exact goto_plain (ht.update (by exact ht.header_le)) rfl hsrc hn

/-- The second octet of an escaped checksum. -/
theorem tunnelSumOctet (ht : Taken s s.watcher (u16Length + 1) src) {t : TunnelFrame}
    (c : Context) (uart flow : Bool) (ch : UInt8) (hwrap : u16Length < 65535)
    (hsrc : t.newlen ≤ t.src.length) (hn : 0 < n) :
    Follows s (s.tunnelSumOctet c uart t flow ch u16Length) r n := by
  have hincr : incr u16Length = u16Length + 1 := Nat.mod_eq_of_lt (by omega)
  unfold Host.tunnelSumOctet
  rw [hincr]
  dsimp only
  split
  · exact ht.back_some hn _
  · exact ht.compareSum c uart _ hsrc hn

/-- An octet of a frame of a modem. -/
theorem mdOctet (ht : Taken s s.watcher (u16Length + 1) src) {p : Place} {frmType : UInt8}
    (hp : p.modemType = some frmType) (c : Context) (uart : Bool) (ch : UInt8)
    (hpos : 1 ≤ u16Length) (hwrap : u16Length < 65535)
    (hstart : s.StartsBefore c uart frmType (s.mdTurn uart p u16Length ch))
    (hn : 2 * src.length + 1 < n) :
    Follows s (s.mdOctet c uart p frmType ch u16Length src) r n := by
  have hwithin := mdTurn_within (w := s.watcher) uart ch hpos ht.le hwrap hp
  unfold Host.mdOctet
  cases hturn : s.mdTurn uart p u16Length ch with
  | null u16Length' =>
    rw [hturn] at hwithin
    obtain ⟨rfl, hend⟩ := hwithin
    exact ht.back_none (by omega) (.inl hend)
  | next p' u16Length' =>
    rw [hturn] at hwithin
    obtain ⟨rfl, hpair, hplace⟩ := hwithin
    exact ht.goto_plain hpair hplace hn
  | ends u16Length' =>
    rw [hturn] at hwithin
    have ht' : Taken s s.watcher u16Length' (s.data.drop u16Length') :=
      ⟨ht.data_le, ht.remain_le, ht.header_le, rfl, Nat.le_trans hwithin.2 ht.le, hwithin.1⟩
    rw [hturn] at hstart
    exact ht'.endModemFrame c uart frmType (by have := hwithin.2; omega) hstart (by omega)

end Taken

end Host

end MtkHw.Meta
