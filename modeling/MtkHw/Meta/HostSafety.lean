import Mathlib.Data.Prod.Lex
import MtkHw.Meta.HostOctets

/-!
# When the META host decoder keeps to its memory

`Guarded` names the branches in which the decoder goes wrong: the second octet of an escape
pair is not pending, the 16-bit counter wraps, a frame of a module has no local parameters, a
frame of a modem ends before the recorded start, and `szRemainBuf` does not hold what is
pending.  As long as none of them is taken, every other access is inside of the memory, and
every call returns (`survives`).
-/

namespace MtkHw.Meta

open Lib

/-- The octets that the current call of `decode` has counted. -/
def Control.counted : Control → Nat
  | .decoding _ u16Length _ => u16Length
  | .back _ u16Length => u16Length
  | _ => 0

namespace Host

/-! ## The condition -/

/-- The octet `ch` is taken without a fault. -/
def OctetGuard (c : Context) (uart : Bool) (s : Host) (ch : UInt8) (u16Length : Nat)
    (p : Place) : Prop :=
  (u16Length < 65535 ∨ p.isPair = true ∧ ch ≠ MUX_KEY_WORD ∧ ch ≠ 0x01) ∧
    match p with
    | .ap => s.watcher.m_cTstFrameState = .apInjectPrimitiveHeader →
        s.watcher.header.length = PRIM_HEADER_SIZE → ch = STX_OCTET ∨ ch = MUX_KEY_WORD
    | .apPair => s.watcher.m_cOldTstFrameState = .apInjectPrimitiveHeader →
        s.watcher.header.length ≠ PRIM_HEADER_SIZE
    | .md frmType _ => s.StartsBefore c uart frmType (s.mdTurn uart p u16Length ch)
    | .mdPair frmType _ => s.StartsBefore c uart frmType (s.mdTurn uart p u16Length ch)
    | .mdFlow frmType _ => s.StartsBefore c uart frmType (s.mdTurn uart p u16Length ch)
    | _ => True

instance (c : Context) (uart : Bool) (s : Host) (ch : UInt8) (u16Length : Nat) :
    ∀ p, Decidable (s.OctetGuard c uart ch u16Length p)
  | .header => inferInstanceAs (Decidable (_ ∧ True))
  | .headerPair => inferInstanceAs (Decidable (_ ∧ True))
  | .ap => inferInstanceAs (Decidable (_ ∧ (_ → _ → _)))
  | .apPair => inferInstanceAs (Decidable (_ ∧ (_ → _)))
  | .md frmType newLen => inferInstanceAs (Decidable (_ ∧
      s.StartsBefore c uart frmType (s.mdTurn uart (.md frmType newLen) u16Length ch)))
  | .mdPair frmType newLen => inferInstanceAs (Decidable (_ ∧
      s.StartsBefore c uart frmType (s.mdTurn uart (.mdPair frmType newLen) u16Length ch)))
  | .mdFlow frmType newLen => inferInstanceAs (Decidable (_ ∧
      s.StartsBefore c uart frmType (s.mdTurn uart (.mdFlow frmType newLen) u16Length ch)))
  | .tunnel _ => inferInstanceAs (Decidable (_ ∧ True))
  | .tunnelFlow _ => inferInstanceAs (Decidable (_ ∧ True))
  | .tunnelSum _ _ => inferInstanceAs (Decidable (_ ∧ True))

/-- The state before a step, and its label, keep the step to the memory. -/
def Guarded (c : Context) (uart : Bool) (s : Host) : Label → Prop
  | .receive buf => s.remain = [] ∨ s.remain.length + buf.length ≤ REMAIN_BUF_SIZE
  | .tick =>
      match s.control with
      | .decoding p _ [] => p.isHead = true
      | .decoding p u16Length (ch :: _) => s.OctetGuard c uart ch u16Length p
      | _ => True

instance (c : Context) (uart : Bool) (s : Host) : ∀ label, Decidable (s.Guarded c uart label)
  | .receive _ => inferInstanceAs (Decidable (_ ∨ _))
  | .tick =>
      match hcontrol : s.control with
      | .decoding p _ [] => decidable_of_iff (p.isHead = true) (by simp only [Guarded, hcontrol])
      | .decoding p u16Length (ch :: _) =>
          decidable_of_iff (s.OctetGuard c uart ch u16Length p) (by simp only [Guarded, hcontrol])
      | .idle => isTrue (by simp only [Guarded, hcontrol])
      | .back _ _ => isTrue (by simp only [Guarded, hcontrol])
      | .fault _ => isTrue (by simp only [Guarded, hcontrol])

/-! ## Octets -/

section Octets

variable {s : Host} {u16Length : Nat} {ch : UInt8} {src : List UInt8}

/-- The octet is counted. -/
theorem taken_succ {p : Place} (hs : s.Inv)
    (hcontrol : s.control = .decoding p u16Length (ch :: src)) :
    Taken s s.watcher (u16Length + 1) src := by
  have hinv := hs.control
  rw [hcontrol] at hinv
  obtain ⟨hsrc, -, -, -⟩ := hinv
  have htail : src = s.data.drop (u16Length + 1) := by
    rw [← List.tail_drop, ← hsrc, List.tail_cons]
  have hlt : u16Length < s.data.length := by
    by_contra hle
    rw [List.drop_of_length_le (Nat.le_of_not_lt hle)] at hsrc
    cases hsrc
  exact ⟨hs.data_le, hs.remain_le, hs.header_le, htail, hlt, Nat.le_add_left 1 _⟩

/-- An octet behind a key word that is no pair with it is not counted. -/
theorem taken_same {p : Place} (hs : s.Inv)
    (hcontrol : s.control = .decoding p u16Length (ch :: src)) (hp : p ≠ .header) :
    Taken s s.watcher u16Length (ch :: src) := by
  have hinv := hs.control
  rw [hcontrol] at hinv
  exact ⟨hs.data_le, hs.remain_le, hs.header_le, hinv.1, hinv.2.1, hinv.2.2.1 hp⟩

theorem checkEscape_eq_some {w w' : UsbRxWatcher} (h : w.checkEscape ch = some w') :
    w' = { w with m_cOldTstFrameState := w.m_cTstFrameState, m_cTstFrameState := .keyword } := by
  unfold UsbRxWatcher.checkEscape at h
  split_ifs at h
  cases h
  rfl

/-- What `transferFrame` does behind a key word: the octet makes a pair, or it does not. -/
theorem transferFrame_keyword {w : UsbRxWatcher} (hw : w.m_cTstFrameState = .keyword)
    (ch : UInt8) :
    ((ch = MUX_KEY_WORD ∨ ch = 0x01) ∧ ∃ b,
        w.transferFrame ch = ({ w with m_cTstFrameState := w.m_cOldTstFrameState }, some b)) ∨
      w.transferFrame ch = ({ w with m_cTstFrameState := w.m_cOldTstFrameState }, none) := by
  unfold UsbRxWatcher.transferFrame
  rw [if_pos hw]
  split_ifs with hkey hone
  · exact .inl ⟨.inl hkey, _, rfl⟩
  · exact .inl ⟨.inr hone, _, rfl⟩
  · exact .inr rfl

/-- An octet that is counted does not make the counter wrap. -/
theorem OctetGuard.lt {c : Context} {uart : Bool} {p : Place}
    (hguard : s.OctetGuard c uart ch u16Length p)
    (hp : p.isPair = true → ch = MUX_KEY_WORD ∨ ch = 0x01) : u16Length < 65535 := by
  rcases hguard.1 with hlt | ⟨hpair, hkey, hone⟩
  · exact hlt
  · exact absurd (hp hpair) (not_or.mpr ⟨hkey, hone⟩)

theorem inner_cons {p : Place} (hcontrol : s.control = .decoding p u16Length (ch :: src)) :
    s.inner = 2 * (src.length + 1) + if p.isPair then 2 else 1 := by
  simp only [inner, hcontrol, List.length_cons]

theorem placeInv {p : Place} (hs : s.Inv)
    (hcontrol : s.control = .decoding p u16Length (ch :: src)) :
    PlaceInv s.watcher s.data.length p u16Length := by
  have hinv := hs.control
  rw [hcontrol] at hinv
  exact hinv.2.2.2

variable (c : Context) (uart : Bool)

theorem header_follows (hs : s.Inv)
    (hcontrol : s.control = .decoding .header u16Length (ch :: src))
    (hguard : s.OctetGuard c uart ch u16Length .header) :
    Follows s (s.octet c uart .header ch u16Length src) (lead s.watcher .header u16Length)
      s.inner := by
  have ht := taken_succ hs hcontrol
  have hwrap := hguard.lt nofun
  have hincr : incr u16Length = u16Length + 1 := Nat.mod_eq_of_lt (by omega)
  have hinner : s.inner = 2 * (src.length + 1) + 1 := inner_cons hcontrol
  have hrank : u16Length + 1 = 1 →
      rank s.watcher.m_cTstFrameState ≤ lead s.watcher .header u16Length := fun h => by
    obtain rfl : u16Length = 0 := by omega
    exact Nat.le_refl _
  dsimp only [Host.octet]
  rw [hinner, hincr]
  split_ifs
  · exact Taken.goto_plain (ht.update (by exact ht.header_le)) rfl trivial (by omega)
  · exact ht.goto_plain rfl trivial (by omega)
  · split
    · exact ht.headerOctet ch hrank (by omega)
    · rename_i w' hescape
      rw [checkEscape_eq_some hescape]
      exact Taken.goto (ht.update (by exact ht.header_le)) rfl (fun _ => hrank)
        (by show 2 * src.length + 2 < _; omega)

theorem headerPair_follows (hs : s.Inv)
    (hcontrol : s.control = .decoding .headerPair u16Length (ch :: src))
    (hguard : s.OctetGuard c uart ch u16Length .headerPair) :
    Follows s (s.octet c uart .headerPair ch u16Length src)
      (lead s.watcher .headerPair u16Length) s.inner := by
  have ht := taken_succ hs hcontrol
  have ht' := taken_same hs hcontrol nofun
  have hinner : s.inner = 2 * (src.length + 1) + 2 := inner_cons hcontrol
  have hpos := ht'.pos
  dsimp only [Host.octet]
  rw [hinner]
  rcases transferFrame_keyword (placeInv hs hcontrol) ch with ⟨hpair, b, hb⟩ | hnone
  · have hwrap := hguard.lt fun _ => hpair
    have hincr : incr u16Length = u16Length + 1 := Nat.mod_eq_of_lt (by omega)
    rw [hb, hincr]
    refine Taken.headerOctet (ht.update ?_) b (fun h => by omega) (by omega)
    unfold UsbRxWatcher.countPair
    split_ifs <;> exact ht.header_le
  · rw [hnone]
    refine Taken.headerOctet (ht'.update (by exact ht'.header_le)) MUX_KEY_WORD ?_ ?_
    · rintro rfl
      exact Nat.le_refl _
    · rw [List.length_cons]
      omega

theorem ap_follows (hs : s.Inv)
    (hcontrol : s.control = .decoding .ap u16Length (ch :: src))
    (hguard : s.OctetGuard c uart ch u16Length .ap) :
    Follows s (s.octet c uart .ap ch u16Length src) (lead s.watcher .ap u16Length)
      s.inner := by
  have ht := taken_succ hs hcontrol
  have hpos := (taken_same hs hcontrol nofun).pos
  have hwrap := hguard.lt nofun
  have hincr : incr u16Length = u16Length + 1 := Nat.mod_eq_of_lt (by omega)
  have hinner : s.inner = 2 * (src.length + 1) + 1 := inner_cons hcontrol
  have hap : ApInv s.watcher.m_cTstFrameState s.watcher := placeInv hs hcontrol
  dsimp only [Host.octet]
  rw [hinner, hincr]
  by_cases hstx : ch = STX_OCTET
  · rw [if_pos hstx]
    exact ht.back_none (by omega) (.inr (.inl (by omega)))
  · rw [if_neg hstx]
    cases hescape : s.watcher.checkEscape ch with
    | none =>
      refine ht.apOctet c ch hap (fun hstate hfull => ?_) (by omega)
      have hkey : ch = MUX_KEY_WORD := (hguard.2 hstate hfull).resolve_left hstx
      unfold UsbRxWatcher.checkEscape at hescape
      rw [hstate, if_pos ⟨hkey, nofun, nofun⟩] at hescape
      cases hescape
    | some w' =>
      rw [checkEscape_eq_some hescape]
      dsimp only
      split_ifs with hend
      · exact Taken.back_none (ht.update (by exact ht.header_le)) (by omega) (.inl hend)
      · exact Taken.goto (ht.update (by exact ht.header_le))
          ⟨Nat.lt_of_le_of_ne ht.le hend, rfl, hap.state, hap.header, hap.para⟩
          (fun _ h => by omega) (by show 2 * src.length + 2 < _; omega)

theorem apPair_follows (hs : s.Inv)
    (hcontrol : s.control = .decoding .apPair u16Length (ch :: src))
    (hguard : s.OctetGuard c uart ch u16Length .apPair) :
    Follows s (s.octet c uart .apPair ch u16Length src) (lead s.watcher .apPair u16Length)
      s.inner := by
  have ht := taken_succ hs hcontrol
  have ht' := taken_same hs hcontrol nofun
  have hinner : s.inner = 2 * (src.length + 1) + 2 := inner_cons hcontrol
  obtain ⟨-, hstate, hap⟩ := placeInv hs hcontrol
  have hap' : ApInv s.watcher.m_cOldTstFrameState
      { s.watcher with m_cTstFrameState := s.watcher.m_cOldTstFrameState } :=
    ⟨hap.state, hap.header, hap.para⟩
  dsimp only [Host.octet]
  rw [hinner]
  rcases transferFrame_keyword hstate ch with ⟨hpair, b, hb⟩ | hnone
  · have hwrap := hguard.lt fun _ => hpair
    have hincr : incr u16Length = u16Length + 1 := Nat.mod_eq_of_lt (by omega)
    rw [hb, hincr]
    exact Taken.apOctet (ht.update (by exact ht.header_le)) c b hap' hguard.2 (by omega)
  · rw [hnone]
    refine Taken.apOctet (ht'.update (by exact ht'.header_le)) c MUX_KEY_WORD hap' hguard.2 ?_
    rw [List.length_cons]
    omega

theorem md_follows {p : Place} {frmType : UInt8} (hs : s.Inv)
    (hcontrol : s.control = .decoding p u16Length (ch :: src))
    (hp : p.modemType = some frmType) (hpair : p.isPair = false)
    (hwrap : u16Length < 65535)
    (hguard : s.StartsBefore c uart frmType (s.mdTurn uart p u16Length ch)) :
    Follows s (s.mdOctet c uart p frmType ch u16Length src) (lead s.watcher p u16Length)
      s.inner := by
  have hinner := inner_cons hcontrol
  rw [hpair] at hinner
  refine (taken_succ hs hcontrol).mdOctet hp c uart ch ?_ hwrap hguard ?_
  · refine (taken_same hs hcontrol ?_).pos
    rintro rfl
    cases hp
  · rw [hinner]
    show 2 * src.length + 1 < 2 * (src.length + 1) + 1
    omega

theorem tunnel_follows {t : TunnelFrame} (hs : s.Inv)
    (hcontrol : s.control = .decoding (.tunnel t) u16Length (ch :: src))
    (hguard : s.OctetGuard c uart ch u16Length (.tunnel t)) :
    Follows s (s.octet c uart (.tunnel t) ch u16Length src)
      (lead s.watcher (.tunnel t) u16Length) s.inner := by
  have ht := taken_succ hs hcontrol
  have hle := ht.le
  have hpos := (taken_same hs hcontrol nofun).pos
  have hwrap := hguard.lt nofun
  have hincr : incr u16Length = u16Length + 1 := Nat.mod_eq_of_lt (by omega)
  have hinner : s.inner = 2 * (src.length + 1) + 1 := inner_cons hcontrol
  have hsrc : t.data_len + (s.data.length - u16Length) = t.src.length := placeInv hs hcontrol
  have hsrc' : t.data_len + 1 + (s.data.length - (u16Length + 1)) = t.src.length := by omega
  dsimp only [Host.octet, Host.tunnelOctet]
  rw [hinner, hincr]
  split_ifs with hflow hend
  · exact ht.back_none (by omega) (.inl hend)
  · exact ht.goto_plain rfl ⟨Nat.lt_of_le_of_ne hle hend, hsrc'⟩ (by omega)
  · exact ht.tunnelBody c uart ch (by omega) hsrc' (by omega)

theorem tunnelFlow_follows {t : TunnelFrame} (hs : s.Inv)
    (hcontrol : s.control = .decoding (.tunnelFlow t) u16Length (ch :: src))
    (hguard : s.OctetGuard c uart ch u16Length (.tunnelFlow t)) :
    Follows s (s.octet c uart (.tunnelFlow t) ch u16Length src)
      (lead s.watcher (.tunnelFlow t) u16Length) s.inner := by
  have ht := taken_succ hs hcontrol
  have hle := ht.le
  have hpos := (taken_same hs hcontrol nofun).pos
  have hwrap := hguard.lt nofun
  have hincr : incr u16Length = u16Length + 1 := Nat.mod_eq_of_lt (by omega)
  have hinner : s.inner = 2 * (src.length + 1) + 1 := inner_cons hcontrol
  obtain ⟨hlt, hsrc⟩ := placeInv hs hcontrol
  have hsrc' : t.data_len + 1 + (s.data.length - (u16Length + 1)) = t.src.length := by omega
  dsimp only [Host.octet, Host.tunnelFlowOctet]
  rw [hinner, hincr]
  split
  · exact ht.back_none (by omega) (.inr (.inl (by omega)))
  · exact ht.tunnelBody c uart _ (by omega) hsrc' (by omega)

theorem tunnelSum_follows {t : TunnelFrame} {flow : Bool} (hs : s.Inv)
    (hcontrol : s.control = .decoding (.tunnelSum t flow) u16Length (ch :: src))
    (hguard : s.OctetGuard c uart ch u16Length (.tunnelSum t flow)) :
    Follows s (s.octet c uart (.tunnelSum t flow) ch u16Length src)
      (lead s.watcher (.tunnelSum t flow) u16Length) s.inner := by
  refine (taken_succ hs hcontrol).tunnelSumOctet c uart flow ch (hguard.lt nofun)
    (placeInv hs hcontrol) ?_
  rw [inner_cons hcontrol]
  exact Nat.succ_pos _

end Octets

/-- An octet taken under the condition keeps the invariant, and lowers the measure. -/
theorem octet_follows {s : Host} {p : Place} {u16Length : Nat} {ch : UInt8} {src : List UInt8}
    (hs : s.Inv) (hcontrol : s.control = .decoding p u16Length (ch :: src)) (c : Context)
    (uart : Bool) (hguard : s.OctetGuard c uart ch u16Length p) :
    Follows s (s.octet c uart p ch u16Length src) (lead s.watcher p u16Length) s.inner := by
  cases p with
  | header => exact header_follows c uart hs hcontrol hguard
  | headerPair => exact headerPair_follows c uart hs hcontrol hguard
  | ap => exact ap_follows c uart hs hcontrol hguard
  | apPair => exact apPair_follows c uart hs hcontrol hguard
  | md => exact md_follows c uart hs hcontrol rfl rfl (hguard.lt nofun) hguard.2
  | mdPair => exact md_follows c uart hs hcontrol rfl rfl (hguard.lt nofun) hguard.2
  | mdFlow => exact md_follows c uart hs hcontrol rfl rfl (hguard.lt nofun) hguard.2
  | tunnel => exact tunnel_follows c uart hs hcontrol hguard
  | tunnelFlow => exact tunnelFlow_follows c uart hs hcontrol hguard
  | tunnelSum => exact tunnelSum_follows c uart hs hcontrol hguard

/-! ## Steps -/

section Steps

variable {s : Host} (c : Context) (uart : Bool)

/-- The measure of a state. -/
def progress (s : Host) : ℕ ×ₗ ℕ := toLex (s.outer, s.inner)

/-- `onReceived` begins an activation. -/
theorem activate_inv {remain data : List UInt8} (hs : s.Inv) (hdata : data.length ≤ REMAIN_BUF_SIZE)
    (hremain : remain.length ≤ REMAIN_BUF_SIZE) :
    ({ s with remain := remain }.activate data).Inv :=
  ⟨hdata, hremain, hs.header_le, rfl, Nat.zero_le _, fun h => absurd rfl h, trivial⟩

theorem drop_le (hs : s.Inv) (n : Nat) : (s.data.drop n).length ≤ REMAIN_BUF_SIZE :=
  (List.drop_sublist n s.data).length_le.trans hs.data_le

/-- `onReceived` returns, with octets that are kept. -/
theorem keep_inv (octets : List UInt8) (hs : s.Inv) (hle : octets.length ≤ REMAIN_BUF_SIZE) :
    (s.keep octets).Inv ∧ (s.keep octets).outer = 0 := by
  unfold keep
  rw [if_pos hle]
  exact ⟨⟨hs.data_le, hle, hs.header_le, trivial⟩, rfl⟩

/-- `onReceived` returns, and keeps what it has kept. -/
theorem idle_inv (hs : s.Inv) : { s with control := .idle }.Inv :=
  ⟨hs.data_le, hs.remain_le, hs.header_le, trivial⟩

/-- Behind the return of `decode` with a frame that is valid. -/
theorem received_frame_progress {u16Length : Nat} (hs : s.Inv) (f : Frame) (hf : f ≠ .invalid) :
    (s.received (some f) u16Length).Inv ∧ (s.received (some f) u16Length).outer ≤
      3 * (s.data.length - u16Length) + rank s.watcher.m_cTstFrameState + 1 := by
  have hreceived : s.received (some f) u16Length =
      if u16Length < s.data.length then
        if (s.data.drop u16Length).length ≤ REMAIN_BUF_SIZE then
          { s with remain := [] }.activate (s.data.drop u16Length)
        else s.fail .remain
      else if s.data.length = u16Length then s.keep []
      else { s with control := .idle } := by
    cases f with
    | invalid => exact absurd rfl hf
    | ap token id localBuf peerBuf => rfl
    | md mdId data => rfl
  rw [hreceived, if_pos (drop_le hs _)]
  split_ifs
  · refine ⟨activate_inv hs (drop_le hs _) (Nat.zero_le _), ?_⟩
    show 3 * (s.data.drop u16Length).length + rank s.watcher.m_cTstFrameState + 1 ≤ _
    rw [List.length_drop]
  · obtain ⟨hinv, houter⟩ := keep_inv [] hs (Nat.zero_le _)
    exact ⟨hinv, houter ▸ Nat.zero_le _⟩
  · exact ⟨idle_inv hs, Nat.zero_le _⟩

/-- Behind the return of `decode`. -/
theorem received_progress {frame : Option Frame} {u16Length : Nat} (hs : s.Inv)
    (hcontrol : s.control = .back frame u16Length) :
    (s.received frame u16Length).Inv ∧ (s.received frame u16Length).outer < s.outer := by
  have hinv := hs.control
  rw [hcontrol] at hinv
  obtain ⟨hle, hnone, hsome⟩ := hinv
  have houter : s.outer = outer { s with control := .back frame u16Length } := by
    unfold outer
    rw [hcontrol]
  rw [houter]
  match frame with
  | none =>
    by_cases hend : s.data.length = u16Length
    · obtain ⟨hkept, hzero⟩ := keep_inv _ hs hs.data_le
      have hreceived : s.received none u16Length = s.keep s.data := if_pos hend
      rw [hreceived, hzero]
      refine ⟨hkept, ?_⟩
      show 0 < if u16Length = s.data.length then 1 else _
      split_ifs <;> exact Nat.succ_pos _
    · have hpos : u16Length ≠ 0 := by
        rcases hnone rfl with h | h <;> omega
      have hreceived : s.received none u16Length =
          { s with remain := [] }.activate (s.data.drop (u16Length - 1)) := by
        dsimp only [received]
        rw [if_neg hend, if_neg hpos]
      rw [hreceived]
      refine ⟨activate_inv hs (drop_le hs _) (Nat.zero_le _), ?_⟩
      show 3 * (s.data.drop (u16Length - 1)).length + rank s.watcher.m_cTstFrameState + 1 <
        if u16Length = s.data.length then 1
        else 3 * (s.data.length - (u16Length - 1)) + rank s.watcher.m_cTstFrameState + 2
      rw [if_neg (Ne.symm hend), List.length_drop]
      exact Nat.lt_succ_self _
  | some .invalid =>
    obtain ⟨hempty, hempty_outer⟩ := keep_inv [] hs (Nat.zero_le _)
    obtain ⟨hrest, hrest_outer⟩ := keep_inv _ hs (drop_le hs u16Length)
    show (if s.data.length = u16Length then s.keep []
      else if u16Length < s.data.length then s.keep (s.data.drop u16Length)
      else { s with control := .idle }).Inv ∧
      outer (if s.data.length = u16Length then s.keep []
      else if u16Length < s.data.length then s.keep (s.data.drop u16Length)
      else { s with control := .idle }) < 1
    split_ifs
    · exact ⟨hempty, Nat.lt_one_iff.mpr hempty_outer⟩
    · exact ⟨hrest, Nat.lt_one_iff.mpr hrest_outer⟩
    · exact ⟨idle_inv hs, Nat.zero_lt_one⟩
  | some (.ap token id localBuf peerBuf) =>
    exact (received_frame_progress hs (.ap token id localBuf peerBuf) nofun).imp_right
      Nat.lt_succ_of_le
  | some (.md mdId data) =>
    exact (received_frame_progress hs (.md mdId data) nofun).imp_right Nat.lt_succ_of_le

/-- A step of `decode` or behind it. -/
theorem tick_progress (hs : s.Inv) (hbusy : s.control ≠ .idle)
    (hguard : s.Guarded c uart .tick) :
    ∃ s', s.tick c uart = some s' ∧ s'.Inv ∧ s'.progress < s.progress := by
  cases hcontrol : s.control with
  | idle => exact absurd hcontrol hbusy
  | fault f =>
    have hinv := hs.control
    rw [hcontrol] at hinv
    exact hinv.elim
  | back frame u16Length =>
    obtain ⟨hinv, houter⟩ := received_progress hs hcontrol
    refine ⟨_, ?_, hinv, Prod.Lex.left _ _ houter⟩
    unfold tick
    rw [hcontrol]
  | decoding p u16Length src =>
    have hinv := hs.control
    rw [hcontrol] at hinv
    obtain ⟨hsrc, hle, hpos, -⟩ := hinv
    have houter : s.outer = 3 * s.data.length + lead s.watcher p u16Length + 1 := by
      unfold outer
      rw [hcontrol]
    suffices hfollows : ∃ s', s.tick c uart = some s' ∧
        Follows s s' (lead s.watcher p u16Length) s.inner by
      obtain ⟨s', htick, hs'⟩ := hfollows
      refine ⟨s', htick, hs'.inv, Prod.Lex.lt_iff.mpr ?_⟩
      rcases Nat.lt_or_eq_of_le (hs'.outer_le.trans_eq houter.symm) with hlt | heq
      · exact .inl hlt
      · exact .inr ⟨heq, hs'.inner_lt⟩
    unfold tick
    rw [hcontrol]
    by_cases hend : p.isHead = true ∧ u16Length = s.data.length
    · refine ⟨_, congrArg some (if_pos hend), ?_⟩
      refine ⟨⟨hs.data_le, hs.remain_le, hs.header_le, hle, fun _ => .inl hend.2, ?_⟩, ?_, ?_⟩
      · exact fun h => absurd rfl h
      · show (if u16Length = s.data.length then 1 else _) ≤ _
        rw [if_pos hend.2]
        exact Nat.le_add_left 1 _
      · show 0 < s.inner
        unfold inner
        rw [hcontrol]
        dsimp only
        split_ifs <;> exact Nat.succ_pos _
    · refine ⟨_, congrArg some (if_neg hend), ?_⟩
      unfold Guarded at hguard
      rw [hcontrol] at hguard
      cases src with
      | nil =>
        refine absurd ⟨hguard, ?_⟩ hend
        have := List.drop_eq_nil_iff.mp hsrc.symm
        omega
      | cons ch src => exact octet_follows hs hcontrol c uart hguard

/-- A call of `onReceived`. -/
theorem receive_inv {buf : List UInt8} (hs : s.Inv) (hbuf : buf.length ≤ PUMP_BUF_SIZE)
    (hguard : s.Guarded c uart (.receive buf)) : (s.receive buf).Inv := by
  have hle : (s.remain ++ buf).length ≤ REMAIN_BUF_SIZE := by
    rw [List.length_append]
    rcases hguard with hnil | hle
    · rw [hnil]
      exact (Nat.zero_add _).trans_le (hbuf.trans (by decide))
    · exact hle
  have hroom : ¬(s.remain ≠ [] ∧ REMAIN_BUF_SIZE < s.remain.length + buf.length) := fun h =>
    absurd h.2 (not_lt.mpr (by rwa [List.length_append] at hle))
  unfold receive
  rw [if_neg hroom]
  exact activate_inv hs hle hs.remain_le

end Steps

/-! ## Runs -/

section Runs

variable (c : Context) (uart : Bool)

theorem init_inv : Inv (machine c uart).init :=
  ⟨Nat.zero_le _, Nat.zero_le _, Nat.zero_le _, trivial⟩

/-- A step under the condition keeps the invariant. -/
theorem step_inv {s s' : Host} {label : Label} (hs : s.Inv) (hguard : s.Guarded c uart label)
    (hstep : (machine c uart).step s label = some s') : s'.Inv := by
  cases label with
  | receive buf =>
    dsimp only [machine] at hstep
    split at hstep
    · split_ifs at hstep with hbuf
      cases hstep
      exact receive_inv c uart hs hbuf hguard
    · cases hstep
  | tick =>
    have hbusy : s.control ≠ .idle := fun hidle => by
      dsimp only [machine, tick] at hstep
      rw [hidle] at hstep
      cases hstep
    obtain ⟨t, htick, ht, -⟩ := tick_progress c uart hs hbusy hguard
    cases htick.symm.trans hstep
    exact ht

/-- Nothing has been read or written outside of the memory. -/
structure Safe (s : Host) : Prop where
  noFault : ∀ f, s.control ≠ .fault f
  counted_le : s.control.counted ≤ s.data.length
  header_le : s.watcher.header.length ≤ PRIM_HEADER_SIZE
  remain_le : s.remain.length ≤ REMAIN_BUF_SIZE

/-- The call returns after finitely many steps, if these meet the condition. -/
def Returns (s : Host) : Prop :=
  ∃ n, (machine c uart).Meets (Guarded c uart) s (List.replicate n .tick) →
    ∃ m ≤ n, ∃ s', (machine c uart).run s (List.replicate m .tick) = some s' ∧
      s'.control = .idle

theorem Inv.safe {s : Host} (hs : s.Inv) : s.Safe := by
  have hinv := hs.control
  refine ⟨fun f hf => ?_, ?_, hs.header_le, hs.remain_le⟩
  · rw [hf] at hinv
    exact hinv
  · cases hcontrol : s.control with
    | idle => exact Nat.zero_le _
    | fault f => exact Nat.zero_le _
    | back frame u16Length =>
      rw [hcontrol] at hinv
      exact hinv.1
    | decoding p u16Length src =>
      rw [hcontrol] at hinv
      exact hinv.2.1

theorem Inv.returns {s : Host} (hs : s.Inv) : s.Returns c uart :=
  (machine c uart).done_of_decreases wellFounded_lt
    (fun _ hs hbusy hguard => tick_progress c uart hs hbusy hguard) hs

/-- As long as no step is one of those that go wrong, the decoder keeps to its memory, and every
call returns. -/
theorem survives (labels : List Label)
    (h : (machine c uart).Meets (Guarded c uart) .new labels) :
    (machine c uart).Along (fun s => s.Safe ∧ s.Returns c uart) .new labels :=
  (machine c uart).along_of_meets (fun _ _ _ hs hguard hstep => step_inv c uart hs hguard hstep)
    (fun _ hs => ⟨hs.safe, hs.returns c uart⟩) (init_inv c uart) h

end Runs

/-! ## A run, and a run that goes wrong -/

/-- One module, and no modem. -/
def oneModule : Context := ⟨fun id => id == 7, fun _ => false, fun _ => false⟩

/-- A request in two reads. -/
theorem survives_two :
    (machine oneModule false).Along (fun s => s.Safe ∧ s.Returns oneModule false) .new
      ([.receive [0x55, 0x00, 0x09, 0x66, 0x04, 0x00]] ++ List.replicate 8 .tick ++
        [.receive [0x00, 0x00, 0x01, 0x00, 0x07, 0x00, 0x38]] ++ List.replicate 14 .tick) :=
  survives oneModule false _ (by decide +kernel)

/-- A read that ends with the first octet of a pair in a header. -/
theorem pair_read_behind :
    ¬(machine oneModule false).Along (fun s => s.Safe ∧ s.Returns oneModule false) .new
      [.receive [0x55, 0x5A], .tick, .tick, .tick] := by
  intro h
  have hrun : (machine oneModule false).run .new [.receive [0x55, 0x5A], .tick, .tick, .tick] =
      some (fail ((new.receive [0x55, 0x5A]).goto
        { UsbRxWatcher.new.start 1 with
          m_cTstFrameState := .keyword
          m_cOldTstFrameState := .lenHi } .headerPair 2 []) .read) := by
    rfl
  exact (h.last _ hrun).1.noFault .read rfl

end Host

end MtkHw.Meta
