import Mathlib.Data.List.Flatten
import MtkHw.Meta.ModemFeed

/-!
# Behind a bad frame of a modem

What becomes of the frames that follow a frame with a wrong checksum, or a length field that is
too long.  Both exits of `process` go to the state of no frame and leave `m_bufLen` as it is, and
a start octet does not set it either: the frame behind is counted from there, and is lost
(`recovers_iff`).

The one bad frame that does no harm is one that the watcher counts wrong itself: it looks for the
checksum one octet early, and the octet behind takes it to the start.
-/

namespace MtkHw.Meta

open Lib Ring Scanner

/-! ## Frames that begin like others -/

namespace ModemFrame

variable {f g : ModemFrame} {a b : UInt8} {x : List UInt8}

theorem enc_eq (h : f.isL1 = g.isL1) : f.enc = g.enc := by
  cases f with
  | ps => cases g with
    | ps => rfl
    | l1 => cases h
  | l1 => cases g with
    | ps => cases h
    | l1 => rfl

theorem isL1_eq (h : f.start = g.start) : f.isL1 = g.isL1 := by
  cases f with
  | ps => cases g with
    | ps => rfl
    | l1 => exact absurd (show STX_OCTET = STX_L1_OCTET from h) (by decide)
  | l1 => cases g with
    | ps => exact absurd (show STX_L1_OCTET = STX_OCTET from h) (by decide)
    | l1 => rfl

theorem eq_of_enc_append (f : ModemFrame) {y : List UInt8} (h : f.enc a ++ x = f.enc b ++ y) :
    a = b := by
  cases f with
  | ps => exact eq_of_escape_append h
  | l1 => exact (List.cons.inj h).1

/-- What is sent for a frame, with any checksum, tells the octets that it begins with. -/
theorem exists_octets {os : List UInt8}
    (h : f.start :: (os.flatMap f.enc ++ x) = g.body ++ g.enc b) :
    f.isL1 = g.isL1 ∧ ∃ more, g.octets ++ [b] = os ++ more ∧ x = more.flatMap f.enc := by
  rw [body, List.cons_append] at h
  obtain ⟨hstart, hrest⟩ := List.cons.inj h
  have hl1 := isL1_eq hstart
  have hflat : os.flatMap f.enc ++ x = (g.octets ++ [b]).flatMap f.enc := by
    rw [hrest, List.flatMap_append, List.flatMap_singleton, enc_eq hl1]
  exact ⟨hl1, exists_append_of_flatMap f.enc_ne_nil (fun _ _ _ _ h => f.eq_of_enc_append h) hflat⟩

/-- The length field tells the length. -/
theorem length_content_eq (hf : f.content.length < 65536) (hg : g.content.length < 65536)
    (hl1 : f.isL1 = g.isL1) (hlen1 : f.len1 = g.len1) (hlen2 : f.len2 = g.len2) :
    f.content.length = g.content.length := by
  rw [← f.toNat_len hf, ← g.toNat_len hg, hl1, hlen1, hlen2]

/-- No frame, with any checksum, is the beginning of another one. -/
theorem eq_nil_of_append (hf : f.content.length < 65536) (hg : g.content.length < 65536)
    (h : f.body ++ f.enc a ++ x = g.body ++ g.enc b) : x = [] := by
  have hform : f.start :: ((f.octets ++ [a]).flatMap f.enc ++ x) = g.body ++ g.enc b := by
    rw [← h, List.flatMap_append, List.flatMap_singleton, body]
    rfl
  obtain ⟨hl1, more, hoctets, rfl⟩ := exists_octets hform
  rw [List.append_assoc] at hoctets
  obtain ⟨hlen1, htail⟩ := List.cons.inj hoctets
  obtain ⟨hlen2, -⟩ := List.cons.inj htail
  have hlength := congrArg List.length hoctets
  simp only [List.length_append, length_octets, List.length_singleton,
    length_content_eq hf hg hl1 hlen1.symm hlen2.symm] at hlength
  have hmore : more.length = 0 := by omega
  rw [List.eq_nil_of_length_eq_zero hmore]
  rfl

theorem WellFormed.length_content_lt (hf : f.WellFormed) : f.content.length < 65532 := by
  have hcontent := length_le_flatMap f.enc_ne_nil f.content
  have hwire := hf.2
  rw [f.wire_eq, body, octets, List.flatMap_cons, List.flatMap_cons] at hwire
  simp only [List.length_append, List.length_cons] at hwire
  omega

variable {fs : List ModemFrame}

/-- Behind a frame with any checksum there is no frame that begins with it. -/
theorem append_notMem_wires (hfs : ∀ g ∈ fs, g.WellFormed) (hf : f.content.length < 65536)
    (b : UInt8) (hx : x ≠ []) : f.body ++ f.enc b ++ x ∉ fs.map wire := by
  intro h
  obtain ⟨g, hg, hwire⟩ := List.mem_map.mp h
  rw [g.wire_eq] at hwire
  exact hx (eq_nil_of_append hf ((hfs g hg).length_content_lt.trans (by decide)) hwire.symm)

/-- A frame without its checksum is none. -/
theorem body_notMem_wires (hfs : ∀ g ∈ fs, g.WellFormed) (hf : f.content.length < 65536) :
    f.body ∉ fs.map wire := by
  intro h
  obtain ⟨g, hg, hwire⟩ := List.mem_map.mp h
  rw [g.wire_eq] at hwire
  have hall : g.body ++ g.enc (g.sum g.octets) ++ f.enc 0 = f.body ++ f.enc 0 := by rw [hwire]
  exact f.enc_ne_nil 0
    (eq_nil_of_append ((hfs g hg).length_content_lt.trans (by decide)) hf hall)

theorem filter_body (hfs : ∀ g ∈ fs, g.WellFormed) (hf : f.WellFormed) :
    [f.body].filter (fun e => decide (e ∈ fs.map wire)) = [] := by
  have hnot := body_notMem_wires hfs (hf.length_content_lt.trans (by decide))
  rw [List.filter_cons_of_neg (by rwa [decide_eq_true_eq])]
  rfl

/-! ## Frames of one octet value -/

theorem foldl_xor_replicate (b : UInt8) (n : Nat) :
    (List.replicate (2 * n + 1) b).foldl (· ^^^ ·) b = 0 := by
  induction n with
  | zero => exact UInt8.xor_self
  | succ n ih =>
    have hsplit : List.replicate (2 * (n + 1) + 1) b = b :: b :: List.replicate (2 * n + 1) b := rfl
    rw [hsplit, List.foldl_cons, List.foldl_cons, UInt8.xor_self, UInt8.zero_xor, ih]

/-- An octet that is sent as start octets only is one. -/
theorem eq_of_enc_stx (h : ∀ c ∈ escape STX_L1_OCTET b, c = STX_OCTET) : b = STX_OCTET := by
  by_cases hb : Escaped STX_L1_OCTET b
  · obtain ⟨c, hpair, -⟩ := escape_of_escaped hb
    rw [hpair] at h
    exact absurd (h MUX_KEY_WORD List.mem_cons_self) (by decide)
  · rw [escape_of_not_escaped hb] at h
    exact h b List.mem_cons_self

/-- No frame is made of start octets only. -/
theorem wire_ne_replicate (hf : f.WellFormed) (n : Nat) : f.wire ≠ List.replicate n STX_OCTET := by
  intro h
  have hall : ∀ c ∈ f.wire, c = STX_OCTET := (List.eq_replicate_iff.mp h).2
  cases f with
  | l1 content =>
    exact absurd (show STX_L1_OCTET = STX_OCTET from hall _ List.mem_cons_self) (by decide)
  | ps content =>
    have hlength : content.length < 65532 := hf.length_content_lt
    have hoctets : ∀ c ∈ (ps content).octets ++ [(ps content).sum (ps content).octets],
        c = STX_OCTET := fun c hc =>
      eq_of_enc_stx fun d hd => hall d (List.mem_cons_of_mem _ (List.mem_flatMap.mpr ⟨c, hc, hd⟩))
    have hhi : hi content.length = STX_OCTET := hoctets _ List.mem_cons_self
    have hlo : lo content.length = STX_OCTET :=
      hoctets _ (List.mem_cons_of_mem _ List.mem_cons_self)
    have hsum : (ps content).sum (ps content).octets = STX_OCTET :=
      hoctets _ (List.mem_append_right _ List.mem_cons_self)
    have hvalue := ofOctets_hi_lo (hlength.trans (by decide))
    rw [hhi, hlo] at hvalue
    have hcount : (ps content).octets.length = 2 * 10923 + 1 := by
      rw [length_octets]
      change 2 + content.length = _
      rw [← hvalue]
      rfl
    have hform : (ps content).octets = List.replicate (2 * 10923 + 1) STX_OCTET :=
      List.eq_replicate_iff.mpr ⟨hcount, fun c hc => hoctets c (List.mem_append_left _ hc)⟩
    rw [hform, sum] at hsum
    change (List.replicate (2 * 10923 + 1) STX_OCTET).foldl (· ^^^ ·) STX_OCTET = _ at hsum
    rw [foldl_xor_replicate] at hsum
    exact absurd hsum (by decide)

end ModemFrame

/-! ## Bad frames -/

/-- A frame with some checksum, or the beginning of one that is too long, up to its length field. -/
inductive BadFrame where
  | checksum (f : ModemFrame) (b : UInt8)
  | tooLong (isL1 : Bool) (len : Nat)

namespace BadFrame

/-- What is sent for it. -/
def wire : BadFrame → List UInt8
  | checksum f b => f.body ++ f.enc b
  | tooLong true len => [STX_L1_OCTET, lo len, hi len]
  | tooLong false len => STX_OCTET :: [hi len, lo len].flatMap (escape STX_L1_OCTET)

/-- The checksum is wrong and the frame is well formed otherwise, or the length field exceeds
what `process` allows. -/
def IsBad : BadFrame → Prop
  | checksum f b => f.WellFormed ∧ b ≠ f.sum f.octets
  | tooLong _ len => FRAME_MAX_LEN < len + 4 ∧ len < 65536

/-- The watcher counts the frame wrong, and its checksum is no start octet. -/
def Resets : BadFrame → Prop
  | checksum f b => f.isL1 = false ∧ ¬ f.Counted ∧ b ≠ STX_OCTET
  | tooLong _ _ => False

end BadFrame

namespace MdRxWatcher

variable {w w' : MdRxWatcher} {f : ModemFrame} {fs : List ModemFrame} {b : UInt8}
  {bytes : List UInt8} {reads : List (List UInt8)}

theorem holds_of_slice (hlt : bytes.length < 65536) (hbufLen : w.m_bufLen = bytes.length)
    (hslice : slice w.m_frmBuf 0 w.m_bufLen = bytes) : Holds w.m_frmBuf w.m_bufLen bytes := by
  refine ⟨hbufLen.trans (Nat.mod_eq_of_lt hlt).symm, fun _ => ?_⟩
  rw [← hbufLen]
  exact hslice

theorem length_wire_lt (hf : f.WellFormed) (b : UInt8) : (f.body ++ f.enc b).length < 65536 := by
  have hwire := hf.2
  have hle : (f.enc b).length ≤ 2 := by
    cases f with
    | ps => exact length_escape_le _ b
    | l1 => exact Nat.le_succ 1
  rw [f.wire_eq, List.length_append] at hwire
  rw [List.length_append]
  omega

/-- A wrong checksum of a frame that is counted right: all of it stays in the buffer. -/
theorem scan_wrong (hw : w.Reset) (hf : f.WellFormed) (hcounted : f.Counted)
    (hb : b ≠ f.sum f.octets) :
    ∃ w', scan octet w (f.body ++ f.enc b) = ⟨w', [], false⟩ ∧
      Holds w'.m_frmBuf w'.m_bufLen (f.body ++ f.enc b) := by
  have hlt := length_wire_lt hf b
  have hneed : f.need = f.content.length := by
    rw [ModemFrame.need, hcounted.1]
    rfl
  have hlength : f.octets.length = 2 + f.need := by rw [f.length_octets, hneed]
  obtain ⟨w₁, h₁, hrun⟩ := hw.scan hf.2 (List.append_nil f.octets) (Nat.le_of_eq hlength)
  have hroom : w₁.m_bufLen + (f.enc b).length < 65536 := by
    rw [h₁.m_bufLen]
    rwa [List.length_append] at hlt
  obtain ⟨w', -, -, hwrong, hlast⟩ := h₁.checksum hf.2 (List.append_nil _) hlength
    (by rw [hneed]; exact fun h => hcounted.2 (List.eq_nil_of_length_eq_zero h)) hroom
  obtain ⟨hbufLen, hslice⟩ := hwrong (Ne.symm hb)
  have hform : f.start :: (f.octets ++ [b]).flatMap f.enc = f.body ++ f.enc b := by
    rw [List.flatMap_append, List.flatMap_singleton]
    rfl
  rw [hform] at hbufLen hslice
  refine ⟨w', ?_, holds_of_slice hlt hbufLen hslice⟩
  have hscan := hlast []
  rw [if_neg (Ne.symm hb), ← hrun, List.append_nil] at hscan
  exact hscan

/-- A frame that is counted wrong, with a checksum that is no start octet: the watcher is at the
start behind it. -/
theorem scan_resets (hw : w.Reset) (hf : f.WellFormed) (hl1 : f.isL1 = false)
    (hcounted : ¬ f.Counted) (hb : b ≠ STX_OCTET) :
    ∃ w' out, scan octet w (f.body ++ f.enc b) = ⟨w', out, false⟩ ∧ w'.Reset ∧
      (out = [] ∨ out = [f.body]) := by
  obtain ⟨-, w₁, hstat, hbody⟩ := scan_body hw hf hcounted (hf.1 hl1)
  obtain ⟨w₂, hidle, hreset⟩ := scan_idle hstat b
  have henc : f.enc = escape STX_L1_OCTET := by
    cases f with
    | ps => rfl
    | l1 => cases hl1
  rw [← henc] at hidle
  rcases hbody with ⟨-, hbody⟩ | ⟨-, -, hbody⟩
  · exact ⟨w₂, [f.body], by rw [scan_append hbody, hidle]; rfl, hreset hb, .inr rfl⟩
  · exact ⟨w₂, [], by rw [scan_append hbody, hidle]; rfl, hreset hb, .inl rfl⟩

/-- A start octet outside of frames. -/
theorem octet_stx (h : w.Expects) (hstat : w.m_frmStat = .stx) :
    ∃ w', w.octet STX_OCTET = .next w' ∧ w'.m_bufLen = u16 (w.m_bufLen + 1) ∧
      w'.m_frmBuf = blit w.m_frmBuf w.m_bufLen [STX_OCTET] := by
  have hcounts := octet_counts h STX_OCTET
  have hfirst : ∃ w₁, w.octet STX_OCTET = .next w₁ ∧ w₁.m_frmStat = .lenHi := by
    unfold octet
    rw [if_pos ⟨.inl rfl, by rw [hstat]; decide⟩]
    dsimp only
    rw [if_pos (by rw [hstat]; decide)]
    exact ⟨_, rfl, rfl⟩
  obtain ⟨w₁, hoctet, hlenHi⟩ := hfirst
  rw [hoctet] at hcounts
  refine ⟨w₁, hoctet, hcounts.2.resolve_left fun hreset => ?_⟩
  rw [hreset.1] at hlenHi
  cases hlenHi

/-- Any other frame that is counted wrong or has a wrong checksum stays in the buffer, or has
been handed over without its checksum, which is a start octet. -/
theorem scan_stays (hw : w.Reset) (h : w.Expects) (hf : f.WellFormed)
    (hb : f.Counted → b ≠ f.sum f.octets) (hnot : ¬(BadFrame.checksum f b).Resets) :
    (∃ w', scan octet w (f.body ++ f.enc b) = ⟨w', [], false⟩ ∧
        Holds w'.m_frmBuf w'.m_bufLen (f.body ++ f.enc b)) ∨
      (f.enc b = [STX_OCTET] ∧
        ∃ w', scan octet w f.body = ⟨w', [f.body], false⟩ ∧ w'.Reset) := by
  have hlt := length_wire_lt hf b
  by_cases hcounted : f.Counted
  · exact .inl (scan_wrong hw hf hcounted (hb hcounted))
  · by_cases hnil : f.content = []
    · obtain ⟨-, w', hscan, hbufLen, hslice⟩ := scan_empty hw hf hnil b
      exact .inl ⟨w', hscan, holds_of_slice hlt hbufLen hslice⟩
    · obtain ⟨hl1, w₁, hstat, hbody⟩ := scan_body hw hf hcounted hnil
      obtain rfl : b = STX_OCTET := by
        by_contra hne
        exact hnot ⟨hl1, hcounted, hne⟩
      have henc : f.enc STX_OCTET = [STX_OCTET] := by
        cases f with
        | ps => rfl
        | l1 => rfl
      rcases hbody with ⟨hzero, hbody⟩ | ⟨hbufLen, hslice, hbody⟩
      · exact .inr ⟨henc, w₁, hbody, hstat, hzero⟩
      · have h₁ : w₁.Expects := h.of_scan hbody
        obtain ⟨w₂, hoctet, hbufLen₂, hfrmBuf₂⟩ := octet_stx h₁ hstat
        rw [henc] at hlt ⊢
        rw [List.length_append] at hlt
        have hholds := holds_of_slice (Nat.lt_of_succ_lt hlt) hbufLen hslice
        refine .inl ⟨w₂, ?_, ?_⟩
        · rw [scan_append hbody, scan_of_next hoctet]
          rfl
        · rw [hbufLen₂, hfrmBuf₂]
          exact hholds.push STX_OCTET

/-- A length field that is too long stops the watcher, and stays in the buffer. -/
theorem scan_length_field (hw : w.Reset) (f : ModemFrame) {b₁ b₂ : UInt8}
    (h₁ : ¬ Escaped STX_L1_OCTET b₁) (h₂ : ¬ Escaped STX_L1_OCTET b₂)
    (hlen : u16 ((if f.isL1 then b₁.toNat else b₁.toNat * 256) +
      if f.isL1 then b₂.toNat * 256 else b₂.toNat) + 4 > FRAME_MAX_LEN) :
    ∃ w₁ w', scan octet w [f.start, b₁] = ⟨w₁, [], false⟩ ∧ w₁.octet b₂ = .stop w' ∧
      Holds w'.m_frmBuf w'.m_bufLen [f.start, b₁, b₂] := by
  obtain ⟨w₀, hframe, hstart⟩ := hw.start f
  have hbufLen₀ : w₀.m_bufLen = 1 := hframe.m_bufLen
  obtain ⟨hlenHi, -⟩ : w₀.m_frmStat = .lenHi ∧ w₀.m_frmLen = 0 := hframe.phase
  obtain ⟨v₁, hstored₁, hoctet₁⟩ :=
    octet_single (w := w₀) hframe.inside (.inr h₁) (by rw [hbufLen₀]; decide)
  have hne₀ : w₀.m_frmStat ≠ .checksum := by
    rw [hlenHi]
    rintro ⟨⟩
  have hswitch₁ : v₁.switch b₁ = .next { v₁ with
      m_frmLen := if v₁.m_bL1Header then b₁.toNat else b₁.toNat * 256
      m_frmStat := .lenLo
      m_chkSum := v₁.m_chkSum ^^^ b₁ } := by
    rw [switch, hstored₁.m_frmStat, hlenHi]
  have hl1 : v₁.m_bL1Header = f.isL1 := (hstored₁.m_bL1Header hne₀).trans hframe.m_bL1Header
  have hbufLen₁ : v₁.m_bufLen = 2 := by
    rw [hstored₁.m_bufLen, hbufLen₀]
    rfl
  rw [hswitch₁, hl1] at hoctet₁
  generalize hw₁ : ({ v₁ with
      m_frmLen := if f.isL1 then b₁.toNat else b₁.toNat * 256
      m_frmStat := .lenLo
      m_chkSum := v₁.m_chkSum ^^^ b₁
      m_bL1Header := f.isL1 } : MdRxWatcher) = w₁ at hoctet₁
  have hlenLo : w₁.m_frmStat = .lenLo := by rw [← hw₁]
  have hframe₁ : w₁.m_bufLen = 2 ∧ w₁.m_bL1Header = f.isL1 ∧
      w₁.m_frmLen = (if f.isL1 then b₁.toNat else b₁.toNat * 256) ∧
        slice w₁.m_frmBuf 0 w₁.m_bufLen = [f.start, b₁] := by
    rw [← hw₁]
    refine ⟨hbufLen₁, rfl, rfl, ?_⟩
    exact hstored₁.m_frmBuf.trans (congrArg (· ++ [b₁]) hframe.m_frmBuf)
  obtain ⟨v₂, hstored₂, hoctet₂⟩ := octet_single (w := w₁)
    ⟨by rw [hlenLo]; rintro ⟨⟩, by rw [hlenLo]; rintro ⟨⟩⟩ (.inr h₂)
    (by rw [hframe₁.1]; decide)
  have hne₁ : w₁.m_frmStat ≠ .checksum := by
    rw [hlenLo]
    rintro ⟨⟩
  refine ⟨w₁, { v₂ with
    m_frmLen := u16 (v₂.m_frmLen + if v₂.m_bL1Header then b₂.toNat * 256 else b₂.toNat)
    m_frmStat := .stx }, ?_, ?_, ?_⟩
  · rw [hstart [b₁], scan_of_next hoctet₁]
    rfl
  · rw [hoctet₂, switch, hstored₂.m_frmStat, hlenLo]
    dsimp only
    rw [if_pos]
    rw [hstored₂.m_frmLen, hstored₂.m_bL1Header hne₁, hframe₁.2.1, hframe₁.2.2.1]
    exact hlen
  · refine holds_of_slice (show 3 < 65536 by decide) ?_ ?_
    · change v₂.m_bufLen = 3
      rw [hstored₂.m_bufLen, hframe₁.1]
      rfl
    · change slice v₂.m_frmBuf 0 v₂.m_bufLen = _
      rw [hstored₂.m_frmBuf, hframe₁.2.2.2]
      rfl

/-- The beginning of a frame that is too long stops the watcher, and stays in the buffer. -/
theorem scan_tooLong (hw : w.Reset) (isL1 : Bool) {len : Nat}
    (hbad : (BadFrame.tooLong isL1 len).IsBad) :
    ∃ x ch w₁ w', (BadFrame.tooLong isL1 len).wire = x ++ [ch] ∧
      scan octet w x = ⟨w₁, [], false⟩ ∧ w₁.octet ch = .stop w' ∧
        (BadFrame.tooLong isL1 len).wire.length < 65536 ∧
          Holds w'.m_frmBuf w'.m_bufLen (BadFrame.tooLong isL1 len).wire := by
  obtain ⟨hlong, hlt⟩ := hbad
  have hlens : len = 65533 ∨ len = 65534 ∨ len = 65535 := by
    unfold FRAME_MAX_LEN at hlong
    omega
  have hplain : ¬ Escaped STX_L1_OCTET (hi len) ∧ ¬ Escaped STX_L1_OCTET (lo len) := by
    rcases hlens with rfl | rfl | rfl <;> decide
  have hvalue : (hi len).toNat * 256 + (lo len).toNat = len := ofOctets_hi_lo hlt
  have hmax : u16 len + 4 > FRAME_MAX_LEN := by
    rw [u16, Nat.mod_eq_of_lt hlt]
    exact hlong
  cases isL1 with
  | true =>
    obtain ⟨w₁, w', hscan, hstop, hholds⟩ :=
      scan_length_field hw (.l1 []) hplain.2 hplain.1 (by
        change u16 ((lo len).toNat + (hi len).toNat * 256) + 4 > FRAME_MAX_LEN
        rwa [Nat.add_comm (lo len).toNat, hvalue])
    have hfits : (BadFrame.tooLong true len).wire.length < 65536 := (by decide : 3 < 65536)
    exact ⟨[STX_L1_OCTET, lo len], hi len, w₁, w', rfl, hscan, hstop, hfits, hholds⟩
  | false =>
    obtain ⟨w₁, w', hscan, hstop, hholds⟩ :=
      scan_length_field hw (.ps []) hplain.1 hplain.2 (by
        change u16 ((hi len).toNat * 256 + (lo len).toNat) + 4 > FRAME_MAX_LEN
        rwa [hvalue])
    have hwire : (BadFrame.tooLong false len).wire = [STX_OCTET, hi len, lo len] := by
      change STX_OCTET :: (escape _ (hi len) ++ (escape _ (lo len) ++ [])) = _
      rw [escape_of_not_escaped hplain.1, escape_of_not_escaped hplain.2]
      rfl
    rw [hwire]
    exact ⟨[STX_OCTET, hi len], lo len, w₁, w', rfl, hscan, hstop, (by decide : 3 < 65536), hholds⟩

/-! ## A start octet too many -/

/-- A frame that is sent does not stop the watcher before its end. -/
theorem not_stopped_of_begins (hw : w.Reset) (hf : f.WellFormed) (h : bytes <+: f.wire) :
    (scan octet w bytes).stopped = false := by
  have hall : (scan octet w f.wire).stopped = false := by
    by_cases hcounted : f.Counted
    · obtain ⟨w', -, hscan⟩ := scan_wire hw hf.2 hcounted
      have hwhole := hscan []
      rw [List.append_nil] at hwhole
      rw [hwhole]
      rfl
    · exact (scan_late hw hf hcounted).1
  obtain ⟨rest, hrest⟩ := h
  rw [← hrest] at hall
  rw [scan_of_append hall]

/-- What a start octet before the frames `fs` leads to, after the octets `taken`. -/
inductive Shifted (G : List (List UInt8)) (w₀ : MdRxWatcher) (taken : List UInt8) (w : MdRxWatcher)
    (out : List (List UInt8)) : Prop
  | /-- All octets are in the buffer. -/
    whole : w.Expects → out = [] → scan octet w₀ (STX_OCTET :: taken) = ⟨w, [], false⟩ →
      Holds w.m_frmBuf w.m_bufLen (STX_OCTET :: taken) → Shifted G w₀ taken w out
  | /-- The watcher has gone astray. -/
    astray (bad : List UInt8) : (∀ z, z ≠ [] → bad ++ z ∉ G) → bad.length < 65536 →
      Astray G bad taken.length w out → Shifted G w₀ taken w out
  | /-- The first frame that has been handed over is made of the first octets. -/
    first (e : List UInt8) (rest : List (List UInt8)) :
      out.filter (fun e => decide (e ∈ G)) = e :: rest → e <+: STX_OCTET :: taken →
        Shifted G w₀ taken w out

theorem Shifted.octet {G : List (List UInt8)} {bad taken : List UInt8} {w₀ : MdRxWatcher}
    {out : List (List UInt8)} (hbad : ∀ z, z ≠ [] → bad ++ z ∉ G) (hfits : bad.length < 65536)
    (hgo : ∀ x z, (scan octet w₀ x).stopped = true → x ++ z ∉ G)
    (h : Shifted G w₀ taken w out) (ch : UInt8) :
    match w.octet ch with
    | .next w' => Shifted G w₀ (taken ++ [ch]) w' out
    | .emit e w' => Shifted G w₀ (taken ++ [ch]) w' (out ++ [e])
    | .stop w' => ∀ x, Shifted G w₀ (taken ++ ch :: x) w' out := by
  have hlen : (taken ++ [ch]).length = taken.length + 1 := List.length_append
  have hmore : ∀ x, (taken ++ [ch]).length ≤ (taken ++ ch :: x).length := fun x => by
    rw [hlen, List.length_append, List.length_cons]
    omega
  cases h with
  | whole hexpects hout hscan hholds =>
    subst hout
    have hcounts := octet_counts hexpects ch
    have hpush := hholds.push ch
    have hlen' : (STX_OCTET :: taken ++ [ch]).length = taken.length + 2 := by
      rw [List.length_append]
      rfl
    have hlost : ∀ w' : MdRxWatcher, w'.Expects → ∀ out', weight G out' + w'.m_bufLen <
        (taken ++ [ch]).length → Shifted G w₀ (taken ++ [ch]) w' out' :=
      fun w' hexpects' out' hlt => .astray bad hbad hfits ⟨hexpects', .inr hlt⟩
    cases hturn : w.octet ch with
    | next w' =>
      rw [hturn] at hcounts
      rcases hcounts.2 with hreset | ⟨hbufLen, hfrmBuf⟩
      · refine hlost w' hcounts.1 [] ?_
        rw [hreset.2, hlen]
        exact Nat.succ_pos _
      · refine .whole hcounts.1 rfl ?_ ?_
        · rw [← List.cons_append, scan_append hscan, scan_of_next hturn]
          rfl
        · rw [hbufLen, hfrmBuf]
          exact hpush
    | emit e w' =>
      rw [hturn] at hcounts
      obtain ⟨hexpects', hreset, rfl⟩ := hcounts
      obtain ⟨hbufLen, hslice⟩ := hpush
      by_cases hlt : (STX_OCTET :: taken ++ [ch]).length < 65536
      · rw [hbufLen, u16, Nat.mod_eq_of_lt hlt, hslice hlt]
        by_cases hmem : STX_OCTET :: taken ++ [ch] ∈ G
        · refine .first _ [] ?_ (List.prefix_refl _)
          exact List.filter_cons_of_pos (by simpa using hmem)
        · refine hlost w' hexpects' _ ?_
          rw [List.nil_append, weight_of_notMem hmem, hreset.2, hlen]
          exact Nat.succ_pos _
      · refine hlost w' hexpects' _ ?_
        have hweight := weight_singleton_le G
          (slice (blit w.m_frmBuf w.m_bufLen [ch]) 0 (u16 (w.m_bufLen + 1)))
        rw [length_slice] at hweight
        rw [List.nil_append, hreset.2, hlen]
        unfold u16 at hbufLen hweight
        unfold u16
        omega
    | stop w' =>
      rw [hturn] at hcounts
      obtain ⟨hexpects', hbufLen, hfrmBuf⟩ := hcounts
      intro x
      by_cases hlt : (STX_OCTET :: taken ++ [ch]).length < 65536
      · -- What stops the watcher begins no frame.
        have hstopped :
            (scan MdRxWatcher.octet w₀ (STX_OCTET :: taken ++ [ch])).stopped = true := by
          rw [scan_append hscan, scan_of_stop hturn]
          rfl
        refine .astray _ (fun z _ => hgo _ z hstopped) hlt ⟨hexpects', .inl ⟨rfl, [], ?_, ?_⟩⟩
        · exact Nat.zero_le _
        · rw [List.append_nil, hbufLen, hfrmBuf]
          exact hpush
      · refine .astray bad hbad hfits ⟨hexpects', .inr (Nat.lt_of_lt_of_le ?_ (hmore x))⟩
        have hcount := hpush.1
        rw [hbufLen, hcount, hlen]
        change 0 + u16 _ < _
        unfold u16
        omega
  | astray bad' hbad' hfits' hastray =>
    have hnext := hastray.octet hbad' hfits' ch
    cases hturn : w.octet ch with
    | next w' =>
      rw [hturn, ← hlen] at hnext
      exact .astray bad' hbad' hfits' hnext
    | emit e w' =>
      rw [hturn, ← hlen] at hnext
      exact .astray bad' hbad' hfits' hnext
    | stop w' =>
      rw [hturn, ← hlen] at hnext
      exact fun x => .astray bad' hbad' hfits' (hnext.mono (hmore x))
  | first e rest hfilter hbegins =>
    have hlater : ∀ x, e <+: STX_OCTET :: (taken ++ x) := fun x =>
      hbegins.trans (List.prefix_append (STX_OCTET :: taken) x)
    cases hturn : w.octet ch with
    | next w' => exact .first e rest hfilter (hlater _)
    | emit e' w' =>
      refine .first e (rest ++ [e'].filter fun e => decide (e ∈ G)) ?_ (hlater _)
      rw [List.filter_append, hfilter]
      rfl
    | stop w' => exact fun x => .first e rest hfilter (hlater _)

/-- A list that begins with itself, one place on, is of one value. -/
theorem eq_replicate_of_begins {l more : List UInt8} (h : l <+: b :: (l ++ more)) :
    l = List.replicate l.length b := by
  induction l generalizing more with
  | nil => rfl
  | cons a l ih =>
    obtain ⟨rfl, htail⟩ := List.cons_prefix_cons.mp h
    have hrest := ih htail
    rw [List.length_cons, List.replicate_succ, ← hrest]

/-- **A start octet too many**, before frames: they are not what is handed over. -/
theorem feed_shifted (hw : w.Reset) (h : w.Expects) (hfs : ∀ g ∈ fs, g.WellFormed) (hne : fs ≠ [])
    (hreads : reads.flatten = STX_OCTET :: fs.flatMap ModemFrame.wire) :
    (w.feed reads).2.filter (fun e => decide (e ∈ fs.map ModemFrame.wire)) ≠
      fs.map ModemFrame.wire := by
  intro hfilter
  obtain ⟨g, fs, rfl⟩ := List.exists_cons_of_ne_nil hne
  have hg := hfs g List.mem_cons_self
  obtain ⟨w₁, hframe, hstart⟩ := hw.start (.ps [])
  have hscan : scan octet w [STX_OCTET] = ⟨w₁, [], false⟩ := hstart []
  obtain ⟨reads', hflatten, -, hfeed⟩ := exists_feed hscan hreads
  have hflatten : reads'.flatten = (g :: fs).flatMap ModemFrame.wire := hflatten
  rw [hfeed, List.nil_append] at hfilter
  have h₁ : w₁.Expects := h.of_scan hscan
  have hbegin : Shifted ((g :: fs).map ModemFrame.wire) w [] w₁ [] :=
    .whole h₁ rfl hscan (holds_of_slice (by decide) hframe.m_bufLen hframe.m_frmBuf)
  have hgo : ∀ x z, (scan octet w x).stopped = true → x ++ z ∉ (g :: fs).map ModemFrame.wire := by
    intro x z hstopped hmem
    obtain ⟨g', hg', hwire⟩ := List.mem_map.mp hmem
    rw [not_stopped_of_begins hw (hfs g' hg') ⟨z, hwire.symm⟩] at hstopped
    cases hstopped
  have hbad : ∀ z, z ≠ [] → g.body ++ g.enc 0 ++ z ∉ (g :: fs).map ModemFrame.wire := fun z hz =>
    ModemFrame.append_notMem_wires hfs (hg.length_content_lt.trans (by decide)) 0 hz
  have hend := feed_induction (P := Shifted ((g :: fs).map ModemFrame.wire) w)
    (fun taken w out ch h => h.octet hbad (length_wire_lt hg 0) hgo ch) [] hbegin reads'
  rw [List.nil_append, List.nil_append, hflatten] at hend
  cases hend with
  | whole _ hout _ _ =>
    rw [hout] at hfilter
    cases hfilter
  | astray bad' _ _ hastray =>
    have hweight : weight ((g :: fs).map ModemFrame.wire) (w₁.feed reads').2 =
        ((g :: fs).flatMap ModemFrame.wire).length := by
      rw [weight, hfilter, List.flatMap_def]
    have hpos : 0 < ((g :: fs).flatMap ModemFrame.wire).length := by
      rw [List.flatMap_cons]
      exact List.length_pos_iff.mpr (List.append_ne_nil_of_left_ne_nil g.wire_ne_nil _)
    rcases hastray.lost with ⟨hzero, -⟩ | hlt
    · omega
    · omega
  | first e rest hfirst hbegins =>
    rw [hfilter] at hfirst
    obtain ⟨rfl, -⟩ := List.cons.inj hfirst
    rw [List.flatMap_cons] at hbegins
    exact ModemFrame.wire_ne_replicate hg _ (eq_replicate_of_begins hbegins)

/-! ## Frames behind -/

theorem weight_le (G out : List (List UInt8)) : weight G out ≤ out.flatten.length :=
  (List.Sublist.flatten List.filter_sublist).length_le

theorem weight_eq_of_filter {out : List (List UInt8)}
    (h : out.filter (fun e => decide (e ∈ fs.map ModemFrame.wire)) = fs.map ModemFrame.wire) :
    weight (fs.map ModemFrame.wire) out = (fs.flatMap ModemFrame.wire).length := by
  rw [weight, h, List.flatMap_def]

/-- Of the frames behind a frame that is counted wrong fewer octets are handed over than it has
itself. -/
theorem weight_feed_of_not_counted {gs : List ModemFrame} {y : List UInt8} (hw : w.Reset)
    (h : w.Expects) (hgs : ∀ g ∈ gs, g.WellFormed) (hf : f.WellFormed) (hcounted : ¬ f.Counted)
    (hreads : reads.flatten = f.wire ++ y) :
    weight (gs.map ModemFrame.wire) (w.feed reads).2 ≤ y.length + 1 := by
  have hcontent : f.content.length < 65536 := hf.length_content_lt.trans (by decide)
  have hbody : weight (gs.map ModemFrame.wire) [f.body] = 0 :=
    weight_of_notMem (ModemFrame.body_notMem_wires hgs hcontent)
  rw [f.wire_eq] at hreads
  by_cases hresets : (BadFrame.checksum f (f.sum f.octets)).Resets
  · obtain ⟨w₁, out, hscan, hw₁, hout⟩ := scan_resets hw hf hresets.1 hcounted hresets.2.2
    obtain ⟨reads', hflatten, -, hfeed⟩ := exists_feed hscan hreads
    have h₁ : w₁.Expects := h.of_scan hscan
    have hle := weight_feed_le (G := gs.map ModemFrame.wire) h₁ reads'
    have hzero : weight (gs.map ModemFrame.wire) out = 0 := by
      rcases hout with rfl | rfl
      · rfl
      · exact hbody
    rw [hfeed, weight_append, hzero]
    rw [hw₁.2, hflatten] at hle
    omega
  · rcases scan_stays hw h hf (fun hc => absurd hc hcounted) hresets with
      ⟨w₁, hscan, hholds⟩ | ⟨hstx, w₁, hscan, hw₁⟩
    · obtain ⟨reads', hflatten, -, hfeed⟩ := exists_feed hscan hreads
      have h₁ : w₁.Expects := h.of_scan hscan
      have hlt := weight_feed_lt (G := gs.map ModemFrame.wire)
        (fun z hz => ModemFrame.append_notMem_wires hgs hcontent _ hz)
        (length_wire_lt hf _) h₁ hholds reads'
      rw [hflatten] at hlt
      rw [hfeed, List.nil_append]
      dsimp only
      omega
    · rw [hstx, List.append_assoc] at hreads
      obtain ⟨reads', hflatten, -, hfeed⟩ := exists_feed hscan hreads
      have h₁ : w₁.Expects := h.of_scan hscan
      have hle := weight_feed_le (G := gs.map ModemFrame.wire) h₁ reads'
      rw [hw₁.2, hflatten, List.singleton_append, List.length_cons] at hle
      rw [hfeed, weight_append, hbody]
      omega

/-- Frames that are handed over from the start on, in reads, are counted right. -/
theorem counted_of_filter (hw : w.Reset) (h : w.Expects) (hfs : ∀ f ∈ fs, f.WellFormed)
    (hreads : reads.flatten = fs.flatMap ModemFrame.wire)
    (hfilter : (w.feed reads).2.filter (fun e => decide (e ∈ fs.map ModemFrame.wire)) =
      fs.map ModemFrame.wire) : ∀ f ∈ fs, f.Counted := by
  cases hfind : fs.find? fun f => decide ¬ f.Counted with
  | none =>
    intro f hf
    have hnot := List.find?_eq_none.mp hfind f hf
    rwa [decide_eq_true_eq, not_not] at hnot
  | some f =>
    -- The first frame that is counted wrong: there is no room left for it.
    obtain ⟨hcounted, before, after, rfl, hbefore⟩ := List.find?_eq_some_iff_append.mp hfind
    have hcounted : ¬ f.Counted := of_decide_eq_true hcounted
    have hgood : ∀ g ∈ before, g.WellFormed ∧ g.Counted := by
      intro g hg
      have hnot := hbefore g hg
      rw [Bool.not_eq_true', decide_eq_false_iff_not, not_not] at hnot
      exact ⟨hfs g (List.mem_append_left _ hg), hnot⟩
    have hf := hfs f (List.mem_append_right _ List.mem_cons_self)
    have htotal := weight_eq_of_filter hfilter
    obtain ⟨w₁, hw₁, hframes⟩ := scan_frames hw hgood
    have hscan : scan octet w (before.flatMap ModemFrame.wire) =
        ⟨w₁, before.map ModemFrame.wire, false⟩ := by
      have hall := hframes []
      rwa [List.append_nil, scan_nil, Scanned.after, List.append_nil] at hall
    rw [List.flatMap_append, List.flatMap_cons] at hreads
    obtain ⟨reads', hflatten, -, hfeed⟩ := exists_feed hscan hreads
    have h₁ : w₁.Expects := h.of_scan hscan
    have hlate := weight_feed_of_not_counted hw₁ h₁ hfs hf hcounted hflatten
    have hearly := weight_le ((before ++ f :: after).map ModemFrame.wire)
      (before.map ModemFrame.wire)
    have hwire : 3 ≤ f.wire.length := by
      rw [f.wire_eq, ModemFrame.body, ModemFrame.octets, List.flatMap_cons, List.flatMap_cons]
      have hlen1 := f.length_enc_pos f.len1
      have hlen2 := f.length_enc_pos f.len2
      simp only [List.length_append, List.length_cons]
      omega
    rw [hfeed, weight_append, List.flatMap_append, List.flatMap_cons, List.length_append,
      List.length_append] at htotal
    rw [← List.flatMap_def] at hearly
    omega

end MdRxWatcher

/-! ## Recovery -/

local instance lawfulFrame : LawfulBEq (List UInt8) := inferInstance

/-- The frames `fs` are handed over in the reads, each once and in their order. -/
def Recovers (eComType : ComType) (hasPort : Bool) (memory : Nat → UInt8) (s : ModemLink)
    (reads : List (List UInt8)) (fs : List ModemFrame) : Prop :=
  fs = [] ∨ ∃ s' out, (ModemLink.machine eComType hasPort memory).run s reads = some s' ∧
    s'.confirms = s.confirms ++ out ∧
      out.filter (fun e => decide (e ∈ fs.map ModemFrame.wire)) = fs.map ModemFrame.wire

open MdRxWatcher

variable {eComType : ComType} {hasPort : Bool} {memory : Nat → UInt8} {s : ModemLink}
  {earlier reads : List (List UInt8)} {fs : List ModemFrame} {bad : BadFrame}

/-- Frames that are handed over behind a bad frame: the watcher is at the start behind it, and
they are counted right. -/
theorem resets_of_feed {w : MdRxWatcher} (hw : w.Reset) (h : w.Expects) (hbad : bad.IsBad)
    (hfs : ∀ f ∈ fs, f.WellFormed) (hne : fs ≠ [])
    (hreads : reads.flatten = bad.wire ++ fs.flatMap ModemFrame.wire)
    (hfilter : (w.feed reads).2.filter (fun e => decide (e ∈ fs.map ModemFrame.wire)) =
      fs.map ModemFrame.wire) : bad.Resets ∧ ∀ f ∈ fs, f.Counted := by
  have hpos : 0 < (fs.flatMap ModemFrame.wire).length := by
    obtain ⟨g, gs, rfl⟩ := List.exists_cons_of_ne_nil hne
    rw [List.flatMap_cons]
    exact List.length_pos_iff.mpr (List.append_ne_nil_of_left_ne_nil g.wire_ne_nil _)
  have hweight := weight_eq_of_filter hfilter
  cases bad with
  | tooLong isL1 len =>
    obtain ⟨x, ch, w₁, w', hwire, hscan, hstop, hfits, hholds⟩ := scan_tooLong hw isL1 hbad
    have hstopped : (scan octet w (BadFrame.tooLong isL1 len).wire).stopped = true := by
      rw [hwire, scan_append hscan, scan_of_stop hstop]
      rfl
    have hnot : ∀ z, z ≠ [] →
        (BadFrame.tooLong isL1 len).wire ++ z ∉ fs.map ModemFrame.wire := by
      intro z _ hmem
      obtain ⟨g, hg, hgwire⟩ := List.mem_map.mp hmem
      rw [not_stopped_of_begins hw (hfs g hg) ⟨z, hgwire.symm⟩] at hstopped
      cases hstopped
    have h' : w'.Expects := by
      have hcounts := octet_counts (h.of_scan hscan) ch
      rw [hstop] at hcounts
      exact hcounts.1
    rw [hwire, List.append_assoc, List.singleton_append] at hreads
    obtain ⟨reads₁, hflatten, -, hfeed⟩ := exists_feed hscan hreads
    obtain ⟨reads₂, hle, hfeed₂⟩ := exists_feed_of_stop hstop hflatten
    rw [hfeed, hfeed₂, List.nil_append] at hweight
    have hlt := weight_feed_lt hnot hfits h' hholds reads₂
    dsimp only at hweight
    exact absurd hweight (by omega)
  | checksum f b =>
    obtain ⟨hf, hb⟩ := hbad
    have hcontent : f.content.length < 65536 := hf.length_content_lt.trans (by decide)
    by_cases hresets : (BadFrame.checksum f b).Resets
    · refine ⟨hresets, ?_⟩
      obtain ⟨w₁, out, hscan, hw₁, hout⟩ :=
        scan_resets hw hf hresets.1 hresets.2.1 hresets.2.2
      obtain ⟨reads', hflatten, -, hfeed⟩ := exists_feed hscan hreads
      have h₁ : w₁.Expects := h.of_scan hscan
      refine counted_of_filter hw₁ h₁ hfs hflatten ?_
      rw [hfeed, List.filter_append] at hfilter
      rcases hout with rfl | rfl
      · exact hfilter
      · rwa [ModemFrame.filter_body hfs hf] at hfilter
    · rcases scan_stays hw h hf (fun _ => hb) hresets with
        ⟨w₁, hscan, hholds⟩ | ⟨hstx, w₁, hscan, hw₁⟩
      · obtain ⟨reads', hflatten, -, hfeed⟩ := exists_feed hscan hreads
        have hflatten : reads'.flatten = fs.flatMap ModemFrame.wire := hflatten
        have h₁ : w₁.Expects := h.of_scan hscan
        have hlt := weight_feed_lt (G := fs.map ModemFrame.wire)
          (fun z hz => ModemFrame.append_notMem_wires hfs hcontent b hz) (length_wire_lt hf b) h₁
          hholds reads'
        rw [hfeed, List.nil_append] at hweight
        dsimp only at hweight
        rw [hflatten] at hlt
        exact absurd hweight (by omega)
      · rw [BadFrame.wire, hstx, List.append_assoc] at hreads
        obtain ⟨reads', hflatten, -, hfeed⟩ := exists_feed hscan hreads
        have h₁ : w₁.Expects := h.of_scan hscan
        rw [hfeed, List.filter_append, ModemFrame.filter_body hfs hf] at hfilter
        exact absurd hfilter (feed_shifted hw₁ h₁ hfs hne hflatten)

/-- Frames that are counted right, behind a bad frame that takes the watcher to its start. -/
theorem scan_recovers {w : MdRxWatcher} (hw : w.Reset) (hbad : bad.IsBad) (hresets : bad.Resets)
    (hfs : ∀ f ∈ fs, f.WellFormed) (hcounted : ∀ f ∈ fs, f.Counted) :
    ∃ w' out, scan octet w (bad.wire ++ fs.flatMap ModemFrame.wire) = ⟨w', out, false⟩ ∧
      out.filter (fun e => decide (e ∈ fs.map ModemFrame.wire)) = fs.map ModemFrame.wire := by
  cases bad with
  | tooLong isL1 len => exact hresets.elim
  | checksum f b =>
    obtain ⟨hf, -⟩ := hbad
    obtain ⟨w₁, out, hscan, hw₁, hout⟩ := scan_resets hw hf hresets.1 hresets.2.1 hresets.2.2
    obtain ⟨w', -, hframes⟩ := scan_frames hw₁ fun g hg => ⟨hfs g hg, hcounted g hg⟩
    have hrest : scan octet w₁ (fs.flatMap ModemFrame.wire) =
        ⟨w', fs.map ModemFrame.wire, false⟩ := by
      have hall := hframes []
      rwa [List.append_nil, scan_nil, Scanned.after, List.append_nil] at hall
    refine ⟨w', out ++ fs.map ModemFrame.wire, ?_, ?_⟩
    · rw [BadFrame.wire, scan_append hscan, hrest]
      rfl
    · have hall : (fs.map ModemFrame.wire).filter
          (fun e => decide (e ∈ fs.map ModemFrame.wire)) = fs.map ModemFrame.wire :=
        List.filter_eq_self.mpr fun e he => decide_eq_true he
      rw [List.filter_append, hall]
      rcases hout with rfl | rfl
      · rfl
      · rw [ModemFrame.filter_body hfs hf]
        rfl

/-- **Behind a bad frame**: from any state at the start that reads lead to, the frames that follow
a bad frame immediately are handed over, each once, exactly if there is none, or the bad frame is
one of those that take the watcher to its start, the frames are counted right, and no read has
more than 65535 octets. -/
theorem recovers_iff
    (hreach : (ModemLink.machine eComType hasPort memory).run
      (ModemLink.machine eComType hasPort memory).init earlier = some s)
    (hreset : s.watcher.Reset) (hbad : bad.IsBad) (hfs : ∀ f ∈ fs, f.WellFormed)
    (hsent : reads.flatten = bad.wire ++ fs.flatMap ModemFrame.wire) :
    Recovers eComType hasPort memory s reads fs ↔
      fs = [] ∨ bad.Resets ∧ (∀ f ∈ fs, f.Counted) ∧ ∀ buf ∈ reads, buf.length ≤ 65535 := by
  have hexpects : s.watcher.Expects := ModemLink.expects_of_run hreach (expects_new memory)
  constructor
  · rintro (rfl | ⟨s', out, hrun, hconfirms, hfilter⟩)
    · exact .inl rfl
    · by_cases hne : fs = []
      · exact .inl hne
      have hout : out = (s.watcher.feed reads).2 :=
        List.append_cancel_left (hconfirms.symm.trans (ModemLink.run_feed hrun).2)
      rw [hout] at hfilter
      obtain ⟨hresets, hcounted⟩ := resets_of_feed hreset hexpects hbad hfs hne hsent hfilter
      obtain ⟨w', out', hscan, -⟩ := scan_recovers hreset hbad hresets hfs hcounted
      refine .inr ⟨hresets, hcounted, ModemLink.short_of_run hrun ?_⟩
      rw [hsent, hscan]
  · rintro (rfl | ⟨hresets, hcounted, hshort⟩)
    · exact .inl rfl
    · obtain ⟨w', out, hscan, hfilter⟩ := scan_recovers hreset hbad hresets hfs hcounted
      obtain ⟨s', hrun⟩ := ModemLink.exists_run eComType hasPort memory hshort s
      rw [← hsent] at hscan
      refine .inr ⟨s', out, hrun, ?_, hfilter⟩
      rw [(ModemLink.run_feed hrun).2, feed_of_scan hscan]

/-! ## A long frame, and a short one -/

/-- The long frame with a wrong checksum, and two frames behind it, in two reads. -/
theorem recovers_behind_long :
    Recovers .usb true (fun _ => 0) ⟨.new fun _ => 0, [], []⟩
      [(BadFrame.checksum longFrame 0).wire, twoFrames.flatMap ModemFrame.wire] twoFrames := by
  have hsum : (0 : UInt8) ≠ longFrame.sum longFrame.octets := by
    have hzeros : ∀ n (a : UInt8), (List.replicate n (0 : UInt8)).foldl (· ^^^ ·) a = a := by
      intro n
      induction n with
      | zero => exact fun _ => rfl
      | succ n ih =>
        intro a
        rw [List.replicate_succ, List.foldl_cons, UInt8.xor_zero, ih]
    have hlength : longFrame.content.length = 0x5A00 := List.length_replicate
    have hvalue : longFrame.sum longFrame.octets = STX_OCTET ^^^ hi 0x5A00 ^^^ lo 0x5A00 := by
      change (hi longFrame.content.length :: lo longFrame.content.length ::
        List.replicate 0x5A00 0).foldl (· ^^^ ·) STX_OCTET = _
      rw [hlength, List.foldl_cons, List.foldl_cons, hzeros]
    rw [hvalue]
    decide
  have htwo : ∀ f ∈ twoFrames, f.WellFormed := by
    simp only [twoFrames, List.forall_mem_cons]
    exact ⟨⟨by decide, by decide⟩, ⟨by decide, by decide⟩, fun _ h => absurd h List.not_mem_nil⟩
  have hreach : (ModemLink.machine .usb true fun _ => 0).run
      (ModemLink.machine .usb true fun _ => 0).init [] = some ⟨.new fun _ => 0, [], []⟩ := rfl
  have hbad : (BadFrame.checksum longFrame 0).IsBad := ⟨longFrame_wellFormed, hsum⟩
  have hresets : (BadFrame.checksum longFrame 0).Resets := ⟨rfl, longFrame_not_counted, by decide⟩
  refine (recovers_iff hreach (reset_new _) hbad htwo ?_).mpr (.inr ⟨hresets, by decide, ?_⟩)
  · rw [List.flatten_cons, List.flatten_singleton]
  · refine List.forall_mem_cons.mpr ⟨?_, List.forall_mem_singleton.mpr (by decide)⟩
    exact Nat.le_of_lt_succ (MdRxWatcher.length_wire_lt longFrame_wellFormed 0)

/-- A short frame with a wrong checksum, and a frame behind it that is lost. -/
theorem not_recovers_behind_short :
    (BadFrame.checksum (.ps [0]) 0).IsBad ∧ (ModemFrame.ps [0]).WellFormed ∧
      ¬ Recovers .usb true (fun _ => 0) ⟨.new fun _ => 0, [], []⟩
        [(BadFrame.checksum (.ps [0]) 0).wire ++ (ModemFrame.ps [0]).wire] [.ps [0]] := by
  refine ⟨⟨⟨by decide, by decide⟩, by decide⟩, ⟨by decide, by decide⟩, ?_⟩
  rintro (hnil | ⟨s', out, hrun, hconfirms, hfilter⟩)
  · cases hnil
  · have hnone : ((ModemLink.machine .usb true fun _ => 0).run ⟨.new fun _ => 0, [], []⟩
        [(BadFrame.checksum (.ps [0]) 0).wire ++ (ModemFrame.ps [0]).wire]).map
          ModemLink.confirms = some [] := by
      decide +kernel
    rw [hrun] at hnone
    have hout : out = [] := by
      have hempty := Option.some.inj hnone
      rwa [hconfirms] at hempty
    rw [hout] at hfilter
    exact absurd hfilter (by decide)

end MtkHw.Meta
