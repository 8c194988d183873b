import MtkHw.Meta.MdRxWatcher

/-!
# Frames of a modem

A modem sends frames that start with `0x55`, with the high octet of the length first and all
octets after the start escaped, and frames of layer 1 that start with `0xA5`, with the low octet
first and no escapes.

The length field counts the octets of the content without their escapes, and the watcher adds
one for each escape pair that it takes.  It forgets the pair of the high octet: `need` is the
number of octets of the content that it waits for.  `scan_wire` is for the frames where it
waits for all of them; `not_first` is for the others.
-/

namespace MtkHw.Meta

open Lib Ring Scanner

/-- A frame of a modem. -/
inductive ModemFrame where
  | /-- A frame that starts with `0x55`. -/ ps (content : List UInt8)
  | /-- A frame of layer 1. -/ l1 (content : List UInt8)

namespace ModemFrame

/-- The content. -/
def content : ModemFrame → List UInt8
  | ps content => content
  | l1 content => content

/-- It is one of layer 1. -/
def isL1 : ModemFrame → Bool
  | ps _ => false
  | l1 _ => true

/-- The start octet. -/
def start : ModemFrame → UInt8
  | ps _ => STX_OCTET
  | l1 _ => STX_L1_OCTET

/-- How an octet is sent. -/
def enc : ModemFrame → UInt8 → List UInt8
  | ps _ => escape STX_L1_OCTET
  | l1 _ => fun b => [b]

/-- The first octet of the length field. -/
def len1 : ModemFrame → UInt8
  | ps content => hi content.length
  | l1 content => lo content.length

/-- The second octet of the length field. -/
def len2 : ModemFrame → UInt8
  | ps content => lo content.length
  | l1 content => hi content.length

/-- The octets between the start octet and the checksum. -/
def octets (f : ModemFrame) : List UInt8 := f.len1 :: f.len2 :: f.content

/-- The exclusive or of some octets after the start octet. -/
def sum (f : ModemFrame) (bs : List UInt8) : UInt8 := bs.foldl (· ^^^ ·) f.start

/-- What is sent for a frame. -/
def wire (f : ModemFrame) : List UInt8 :=
  f.start :: (f.octets ++ [f.sum f.octets]).flatMap f.enc

/-- What is sent before the checksum. -/
def body (f : ModemFrame) : List UInt8 := f.start :: f.octets.flatMap f.enc

/-- A frame that starts with `0x55` has content, and frames have fewer than 65532 octets as sent. -/
def WellFormed (f : ModemFrame) : Prop :=
  (f.isL1 = false → f.content ≠ []) ∧ f.wire.length < 65532

/-- The octets of the content that the watcher waits for. -/
def need (f : ModemFrame) : Nat := f.content.length - ((f.enc f.len1).length - 1)

/-- The watcher waits for all of the content: the high octet of the length field is not escaped,
and there is content. -/
def Counted (f : ModemFrame) : Prop := (f.enc f.len1).length = 1 ∧ f.content ≠ []

instance (f : ModemFrame) : Decidable f.Counted := inferInstanceAs (Decidable (_ ∧ _))

theorem length_octets (f : ModemFrame) : f.octets.length = 2 + f.content.length := by
  rw [octets, List.length_cons, List.length_cons]
  omega

/-- The length field, in the order of the frame. -/
theorem toNat_len (f : ModemFrame) (h : f.content.length < 65536) :
    (if f.isL1 then f.len1.toNat else f.len1.toNat * 256) +
      (if f.isL1 then f.len2.toNat * 256 else f.len2.toNat) = f.content.length := by
  have hvalue := ofOctets_hi_lo h
  rw [ofOctets] at hvalue
  cases f with
  | ps => exact hvalue
  | l1 => exact (Nat.add_comm _ _).trans hvalue

theorem wire_eq (f : ModemFrame) : f.wire = f.body ++ f.enc (f.sum f.octets) := by
  rw [wire, body, List.flatMap_append, List.flatMap_singleton, List.cons_append]

theorem wire_ne_nil (f : ModemFrame) : f.wire ≠ [] := List.cons_ne_nil _ _

theorem enc_ne_nil (f : ModemFrame) (b : UInt8) : f.enc b ≠ [] := by
  cases f with
  | ps => exact escape_ne_nil _ b
  | l1 => exact List.cons_ne_nil _ _

theorem length_enc_pos (f : ModemFrame) (b : UInt8) : 0 < (f.enc b).length :=
  List.length_pos_iff.mpr (f.enc_ne_nil b)

/-- A pair of the first octet of the length field means that there is content. -/
theorem pair_le (f : ModemFrame) : (f.enc f.len1).length - 1 ≤ f.content.length := by
  cases f with
  | l1 => exact Nat.zero_le _
  | ps content =>
    change (escape STX_L1_OCTET (hi content.length)).length - 1 ≤ content.length
    cases content with
    | nil => decide
    | cons b content =>
      have h := length_escape_le STX_L1_OCTET (hi (b :: content).length)
      rw [List.length_cons] at h ⊢
      omega

end ModemFrame

namespace MdRxWatcher

variable {f : ModemFrame} {b : UInt8} {x : List UInt8} {w w' : MdRxWatcher}

/-! ## Single octets -/

/-- The watcher has stored `bytes`, and has counted a pair of them. -/
structure Stored (w : MdRxWatcher) (bytes : List UInt8) (w' : MdRxWatcher) : Prop where
  m_bufLen : w'.m_bufLen = w.m_bufLen + bytes.length
  m_frmLen : w'.m_frmLen = w.m_frmLen + (bytes.length - 1)
  m_frmBuf : slice w'.m_frmBuf 0 w'.m_bufLen = slice w.m_frmBuf 0 w.m_bufLen ++ bytes
  m_frmStat : w'.m_frmStat = w.m_frmStat
  m_chkSum : w'.m_chkSum = w.m_chkSum
  m_bL1Header : w.m_frmStat ≠ .checksum → w'.m_bL1Header = w.m_bL1Header

theorem store_bufLen (ch : UInt8) (h : w.m_bufLen + 1 < 65536) :
    (w.store ch).m_bufLen = w.m_bufLen + 1 := Nat.mod_eq_of_lt h

/-- An octet stored behind the others. -/
theorem slice_store (w : MdRxWatcher) (ch : UInt8) :
    slice (w.store ch).m_frmBuf 0 (w.m_bufLen + 1) = slice w.m_frmBuf 0 w.m_bufLen ++ [ch] := by
  have h := slice_blit w.m_frmBuf 0 w.m_bufLen [ch]
  rw [Nat.zero_add] at h
  exact h

/-- One octet stored. -/
theorem stored_store (ch : UInt8) (h : w.m_bufLen + 1 < 65536) : Stored w [ch] (w.store ch) where
  m_bufLen := store_bufLen ch h
  m_frmLen := rfl
  m_frmBuf := by rw [store_bufLen ch h, slice_store]
  m_frmStat := rfl
  m_chkSum := rfl
  m_bL1Header := fun _ => rfl

/-- The states in which the watcher is in a frame. -/
def InsideFrame (stat : FrmStat) : Prop := stat ≠ .stx ∧ stat ≠ .keyword

/-- What the watcher goes on with after a turn. -/
def resume (turn : Turn MdRxWatcher (List UInt8)) (x : List UInt8) :
    Scanned MdRxWatcher (List UInt8) :=
  match turn with
  | .next w => scan octet w x
  | .emit e w => (scan octet w x).after [e]
  | .stop w => ⟨w, [], true⟩

theorem scan_cons (w : MdRxWatcher) (ch : UInt8) (x : List UInt8) :
    scan octet w (ch :: x) = resume (w.octet ch) x := by
  cases h : w.octet ch with
  | next w' => exact scan_of_next h x
  | emit e w' => exact scan_of_emit h x
  | stop w' => exact scan_of_stop h x

/-- An octet that is not the start of an escape pair. -/
theorem octet_single {ch : UInt8} (hstat : InsideFrame w.m_frmStat)
    (hch : w.m_bL1Header = true ∨ ¬ Escaped STX_L1_OCTET ch) (hroom : w.m_bufLen + 1 < 65536) :
    ∃ w₁, Stored w [ch] w₁ ∧ w.octet ch = w₁.switch ch := by
  unfold octet
  by_cases hstart : (ch = STX_OCTET ∨ ch = STX_L1_OCTET) ∧ w.m_frmStat ≠ .mdConfirmData ∧
      w.m_frmStat ≠ .lenHi ∧ w.m_frmStat ≠ .lenLo
  · have hchecksum : w.m_frmStat = .checksum := by
      cases h : w.m_frmStat with
      | stx => exact absurd h hstat.1
      | lenHi => exact absurd h hstart.2.2.1
      | lenLo => exact absurd h hstart.2.2.2
      | mdConfirmData => exact absurd h hstart.2.1
      | checksum => rfl
      | keyword => exact absurd h hstat.2
    rw [if_pos hstart]
    dsimp only
    rw [if_neg (not_not.mpr hchecksum)]
    refine ⟨_, ?_, rfl⟩
    have h := stored_store (w := w) ch hroom
    exact { h with m_bL1Header := fun hne => absurd hchecksum hne }
  · have hkey : ¬ (w.m_bL1Header = false ∧ ch = MUX_KEY_WORD ∧ w.m_frmStat ≠ .keyword) := by
      rintro ⟨hl1, hkey, -⟩
      rcases hch with h | h
      · rw [h] at hl1
        cases hl1
      · exact h (.inr hkey)
    rw [if_neg hstart, if_neg hkey, if_neg hstat.2]
    exact ⟨_, stored_store ch hroom, rfl⟩

/-- An escape pair. -/
theorem octet_pair {ch : UInt8} (hstat : InsideFrame w.m_frmStat) (hl1 : w.m_bL1Header = false)
    (hch : (ch = 0x01 ∧ b = STX_L1_OCTET) ∨
      (ch = MUX_KEY_WORD ∧ b = MUX_KEY_WORD ∧ b ≠ STX_L1_OCTET))
    (hroom : w.m_bufLen + 2 < 65536) (hfrmLen : w.m_frmLen + 1 < 65536) :
    ∃ w₀ w₁, w.octet MUX_KEY_WORD = .next w₀ ∧ Stored w [MUX_KEY_WORD, ch] w₁ ∧
      w₀.octet ch = w₁.switch b := by
  have hne : ch ≠ STX_OCTET ∧ ch ≠ STX_L1_OCTET := by
    rcases hch with ⟨rfl, -⟩ | ⟨rfl, -⟩ <;> decide
  have hfirst := store_bufLen MUX_KEY_WORD (Nat.lt_of_succ_lt hroom)
  have hsecond : u16 ((w.store MUX_KEY_WORD).m_bufLen + 1) = w.m_bufLen + 2 := by
    rw [hfirst]
    exact Nat.mod_eq_of_lt hroom
  refine ⟨{ w.store MUX_KEY_WORD with m_frmStat0 := w.m_frmStat, m_frmStat := .keyword },
    { (w.store MUX_KEY_WORD).store ch with
      m_frmStat0 := w.m_frmStat
      m_frmLen := u16 (w.m_frmLen + 1) }, ?_, ?_, ?_⟩
  · unfold octet
    rw [if_neg fun h => absurd h.1 (by decide), if_pos ⟨hl1, rfl, hstat.2⟩]
  · constructor
    · exact hsecond
    · exact Nat.mod_eq_of_lt hfrmLen
    · change slice ((w.store MUX_KEY_WORD).store ch).m_frmBuf 0
        (u16 ((w.store MUX_KEY_WORD).m_bufLen + 1)) = _
      rw [hsecond, ← Nat.succ_eq_add_one, ← hfirst, slice_store, hfirst, slice_store,
        List.append_assoc]
      rfl
    · rfl
    · rfl
    · exact fun _ => rfl
  · unfold octet
    rw [if_neg fun h => h.1.elim hne.1 hne.2, if_neg fun h => absurd rfl h.2.2, if_pos rfl]
    dsimp only
    rcases hch with ⟨rfl, rfl⟩ | ⟨rfl, rfl, -⟩
    · rfl
    · rfl

/-- What is sent for one octet, in a frame. -/
theorem scan_enc (hstat : InsideFrame w.m_frmStat) (hl1 : w.m_bL1Header = f.isL1)
    (hroom : w.m_bufLen + (f.enc b).length < 65536) (hfrmLen : w.m_frmLen + 1 < 65536) :
    ∃ w₁, Stored w (f.enc b) w₁ ∧ ∀ x, scan octet w (f.enc b ++ x) = resume (w₁.switch b) x := by
  cases f with
  | l1 content =>
    obtain ⟨w₁, hstored, hoctet⟩ := octet_single hstat (.inl hl1) hroom
    refine ⟨w₁, hstored, fun x => ?_⟩
    rw [← hoctet]
    exact scan_cons w b x
  | ps content =>
    change w.m_bufLen + (escape STX_L1_OCTET b).length < 65536 at hroom
    change ∃ w₁, Stored w (escape STX_L1_OCTET b) w₁ ∧
      ∀ x, scan octet w (escape STX_L1_OCTET b ++ x) = _
    by_cases hb : Escaped STX_L1_OCTET b
    · obtain ⟨ch, hpair, hch⟩ := escape_of_escaped hb
      rw [hpair] at hroom ⊢
      obtain ⟨w₀, w₁, hfirst, hstored, hsecond⟩ := octet_pair hstat hl1 hch hroom hfrmLen
      refine ⟨w₁, hstored, fun x => ?_⟩
      rw [List.cons_append, scan_of_next hfirst, List.cons_append, scan_cons, hsecond]
      rfl
    · rw [escape_of_not_escaped hb] at hroom ⊢
      obtain ⟨w₁, hstored, hoctet⟩ := octet_single hstat (.inr hb) hroom
      refine ⟨w₁, hstored, fun x => ?_⟩
      rw [← hoctet]
      exact scan_cons w b x

/-! ## In a frame -/

/-- Where the watcher is after `n` octets of a frame: its state, and the length it expects. -/
def Phase (f : ModemFrame) (n : Nat) (w : MdRxWatcher) : Prop :=
  match n with
  | 0 => w.m_frmStat = .lenHi ∧ w.m_frmLen = 0
  | 1 =>
      w.m_frmStat = .lenLo ∧
        w.m_frmLen = if f.isL1 then f.len1.toNat else f.len1.toNat * 256
  | n =>
      w.m_frmStat = (if n = 2 ∨ n < 2 + f.need then .mdConfirmData else .checksum) ∧
        w.m_frmLen + 3 + n = w.m_bufLen + 2 + f.need

/-- Behind the length field. -/
theorem phase_iff {n : Nat} (hn : 2 ≤ n) : Phase f n w ↔
    w.m_frmStat = (if n = 2 ∨ n < 2 + f.need then .mdConfirmData else .checksum) ∧
      w.m_frmLen + 3 + n = w.m_bufLen + 2 + f.need := by
  obtain ⟨m, rfl⟩ := Nat.exists_eq_add_of_le' hn
  rfl

/-- After the start octet and the octets `bs`. -/
structure InFrame (f : ModemFrame) (bs : List UInt8) (w : MdRxWatcher) : Prop where
  m_bufLen : w.m_bufLen = (f.start :: bs.flatMap f.enc).length
  m_frmBuf : slice w.m_frmBuf 0 w.m_bufLen = f.start :: bs.flatMap f.enc
  m_bL1Header : w.m_bL1Header = f.isL1
  m_chkSum : w.m_chkSum = f.sum bs
  phase : Phase f bs.length w

/-- A state from which the watcher takes a frame: it is in none, and has stored nothing. -/
def Reset (w : MdRxWatcher) : Prop := w.m_frmStat = .stx ∧ w.m_bufLen = 0

/-- The start octet. -/
theorem Reset.start (hw : w.Reset) (f : ModemFrame) :
    ∃ w', InFrame f [] w' ∧ ∀ x, scan octet w (f.start :: x) = scan octet w' x := by
  have hstart : (f.start = STX_OCTET ∨ f.start = STX_L1_OCTET) ∧ w.m_frmStat ≠ .mdConfirmData ∧
      w.m_frmStat ≠ .lenHi ∧ w.m_frmStat ≠ .lenLo := by
    rw [hw.1]
    cases f with
    | ps => exact ⟨.inl rfl, by decide, by decide, by decide⟩
    | l1 => exact ⟨.inr rfl, by decide, by decide, by decide⟩
  have hoctet : w.octet f.start = .next { w.store f.start with
      m_bL1Header := f.start = STX_L1_OCTET
      m_frmStat := .lenHi
      m_chkSum := f.start
      m_frmLen := 0 } := by
    unfold octet
    rw [if_pos hstart]
    dsimp only
    rw [if_pos (by rw [hw.1]; decide)]
  have hbufLen : (w.store f.start).m_bufLen = 1 := by
    rw [store_bufLen f.start (by rw [hw.2]; decide), hw.2]
  refine ⟨{ w.store f.start with
    m_bL1Header := f.start = STX_L1_OCTET
    m_frmStat := .lenHi
    m_chkSum := f.start
    m_frmLen := 0 }, ⟨hbufLen, ?_, ?_, rfl, rfl, rfl⟩, fun x => scan_of_next hoctet x⟩
  · change slice (w.store f.start).m_frmBuf 0 (w.store f.start).m_bufLen = _
    have hslice := slice_store w f.start
    rw [hw.2] at hslice
    rw [hbufLen]
    exact hslice
  · cases f with
    | ps => rfl
    | l1 => rfl

/-- What the watcher has stored leaves room for the rest of the frame. -/
theorem InFrame.room {bs more : List UInt8} (h : InFrame f bs w) (hoctets : bs ++ more = f.octets) :
    w.m_bufLen + (more.flatMap f.enc).length + 1 ≤ f.wire.length := by
  have hsum := f.length_enc_pos (f.sum f.octets)
  rw [h.m_bufLen, ModemFrame.wire, ← hoctets]
  simp only [List.flatMap_append, List.length_cons, List.length_append, List.flatMap_cons,
    List.flatMap_nil, List.append_nil]
  rw [hoctets]
  omega

theorem InFrame.inside {bs : List UInt8} (h : InFrame f bs w) : InsideFrame w.m_frmStat := by
  have hphase := h.phase
  match hn : bs.length with
  | 0 =>
    rw [hn] at hphase
    rw [hphase.1]
    exact ⟨by decide, by decide⟩
  | 1 =>
    rw [hn] at hphase
    rw [hphase.1]
    exact ⟨by decide, by decide⟩
  | n + 2 =>
    rw [hn] at hphase
    rw [hphase.1]
    split
    · exact ⟨by decide, by decide⟩
    · exact ⟨by decide, by decide⟩

/-- The length that the watcher expects fits. -/
theorem InFrame.frmLen_le {bs more : List UInt8} (hfits : f.wire.length < 65532)
    (h : InFrame f bs w) (hoctets : bs ++ more = f.octets) : w.m_frmLen + 3 ≤ f.wire.length := by
  have hroom := h.room hoctets
  have hmore := length_le_flatMap f.enc_ne_nil more
  have hbs := length_le_flatMap f.enc_ne_nil bs
  have hbufLen := h.m_bufLen
  have hlength : bs.length + more.length = 2 + f.content.length := by
    rw [← f.length_octets, ← hoctets, List.length_append]
  have hphase := h.phase
  rw [List.length_cons] at hbufLen
  match hn : bs.length with
  | 0 =>
    rw [hn] at hphase
    rw [hphase.2]
    omega
  | 1 =>
    rw [hn] at hphase
    rw [hphase.2]
    have hvalue := f.toNat_len (by omega)
    omega
  | n + 2 =>
    rw [hn] at hphase
    have hexpect : w.m_frmLen + 3 + (n + 2) = w.m_bufLen + 2 + f.need := hphase.2
    have hneed : f.need ≤ f.content.length := Nat.sub_le _ _
    omega

theorem InFrame.of_switch {bs : List UInt8} {w₁ : MdRxWatcher} (h : InFrame f bs w)
    (hstored : Stored w (f.enc b) w₁) (hstat : w.m_frmStat ≠ .checksum) {w' : MdRxWatcher}
    (hbufLen : w'.m_bufLen = w₁.m_bufLen) (hfrmBuf : w'.m_frmBuf = w₁.m_frmBuf)
    (hl1 : w'.m_bL1Header = w₁.m_bL1Header) (hchkSum : w'.m_chkSum = w₁.m_chkSum ^^^ b)
    (hphase : Phase f (bs ++ [b]).length w') : InFrame f (bs ++ [b]) w' := by
  have hform : f.start :: (bs ++ [b]).flatMap f.enc = f.start :: bs.flatMap f.enc ++ f.enc b := by
    rw [List.flatMap_append, List.flatMap_cons, List.flatMap_nil, List.append_nil]
    rfl
  refine ⟨?_, ?_, ?_, ?_, hphase⟩
  · rw [hform, List.length_append, ← h.m_bufLen, hbufLen, hstored.m_bufLen]
  · rw [hform, ← h.m_frmBuf, ← hstored.m_frmBuf, hbufLen, hfrmBuf]
  · rw [hl1, hstored.m_bL1Header hstat, h.m_bL1Header]
  · rw [hchkSum, hstored.m_chkSum, h.m_chkSum, ModemFrame.sum, ModemFrame.sum, List.foldl_append]
    rfl

/-- The next octet. -/
theorem InFrame.next {bs more : List UInt8} (hfits : f.wire.length < 65532)
    (hoctets : bs ++ b :: more = f.octets) (hneed : bs.length < 2 + f.need) (h : InFrame f bs w) :
    ∃ w', InFrame f (bs ++ [b]) w' ∧ ∀ x, scan octet w (f.enc b ++ x) = scan octet w' x := by
  have hroom := h.room hoctets
  rw [List.flatMap_cons, List.length_append] at hroom
  have hfrmLen := h.frmLen_le hfits hoctets
  obtain ⟨w₁, hstored, hscan⟩ :=
    scan_enc (b := b) h.inside h.m_bL1Header (by omega) (by omega)
  have hphase := h.phase
  have hlen : (bs ++ [b]).length = bs.length + 1 := List.length_append
  match hn : bs.length with
  | 0 =>
    rw [hn] at hphase
    obtain rfl := List.eq_nil_of_length_eq_zero hn
    obtain ⟨rfl, -⟩ := List.cons.inj hoctets
    have hne : w.m_frmStat ≠ .checksum := by
      rw [hphase.1]
      decide
    have hswitch : w₁.switch f.len1 = .next { w₁ with
        m_frmLen := if w₁.m_bL1Header then f.len1.toNat else f.len1.toNat * 256
        m_frmStat := .lenLo
        m_chkSum := w₁.m_chkSum ^^^ f.len1 } := by
      rw [switch, hstored.m_frmStat, hphase.1]
    have hnext : Phase f 1 { w₁ with
        m_frmLen := if w₁.m_bL1Header then f.len1.toNat else f.len1.toNat * 256
        m_frmStat := .lenLo
        m_chkSum := w₁.m_chkSum ^^^ f.len1 } := by
      refine ⟨rfl, ?_⟩
      dsimp only
      rw [hstored.m_bL1Header hne, h.m_bL1Header]
    refine ⟨_, h.of_switch hstored hne ?_ ?_ ?_ ?_ hnext, fun x => by rw [hscan, hswitch]; rfl⟩
    · rfl
    · rfl
    · rfl
    · rfl
  | 1 =>
    rw [hn] at hphase
    obtain ⟨b₁, rfl⟩ := List.length_eq_one_iff.mp hn
    obtain ⟨rfl, hrest⟩ := List.cons.inj hoctets
    obtain ⟨rfl, rfl⟩ : b = f.len2 ∧ more = f.content := List.cons.inj hrest
    have hne : w.m_frmStat ≠ .checksum := by
      rw [hphase.1]
      decide
    have hcontent := length_le_flatMap f.enc_ne_nil f.content
    have hvalue := f.toNat_len (by omega)
    have hbufLen := h.m_bufLen
    have hpos := f.length_enc_pos f.len2
    have hpair := f.pair_le
    have hpos₁ := f.length_enc_pos f.len1
    rw [List.flatMap_cons, List.flatMap_nil, List.append_nil, List.length_cons] at hbufLen
    have hfrmLen₁ : w₁.m_frmLen +
        (if w₁.m_bL1Header then f.len2.toNat * 256 else f.len2.toNat) =
          f.content.length + ((f.enc f.len2).length - 1) := by
      rw [hstored.m_frmLen, hstored.m_bL1Header hne, h.m_bL1Header, hphase.2]
      omega
    have hmax : ¬ u16 (f.content.length + ((f.enc f.len2).length - 1)) + 4 > FRAME_MAX_LEN := by
      rw [u16, FRAME_MAX_LEN]
      omega
    have hvalue₁ : u16 (f.content.length + ((f.enc f.len2).length - 1)) =
        f.content.length + ((f.enc f.len2).length - 1) := Nat.mod_eq_of_lt (by omega)
    have hswitch : w₁.switch f.len2 = .next { w₁ with
        m_frmLen := f.content.length + ((f.enc f.len2).length - 1)
        m_frmStat := .mdConfirmData
        m_chkSum := w₁.m_chkSum ^^^ f.len2 } := by
      rw [switch, hstored.m_frmStat, hphase.1]
      dsimp only
      rw [hfrmLen₁, if_neg hmax, hvalue₁]
    have hnext : Phase f 2 { w₁ with
        m_frmLen := f.content.length + ((f.enc f.len2).length - 1)
        m_frmStat := .mdConfirmData
        m_chkSum := w₁.m_chkSum ^^^ f.len2 } := by
      refine ⟨(if_pos (.inl rfl)).symm, ?_⟩
      change f.content.length + ((f.enc f.len2).length - 1) + 3 + 2 = w₁.m_bufLen + 2 + f.need
      rw [hstored.m_bufLen, hbufLen, ModemFrame.need]
      omega
    refine ⟨_, h.of_switch hstored hne ?_ ?_ ?_ ?_ hnext, fun x => by rw [hscan, hswitch]; rfl⟩
    · rfl
    · rfl
    · rfl
    · rfl
  | n + 2 =>
    rw [hn] at hphase
    obtain ⟨hstat, hexpect⟩ := hphase
    rw [if_pos (.inr (hn ▸ hneed))] at hstat
    have hne : w.m_frmStat ≠ .checksum := by
      rw [hstat]
      decide
    have hpos := f.length_enc_pos b
    have hswitch : w₁.switch b = .next { w₁ with
        m_frmStat := if w₁.m_bufLen = w₁.m_frmLen + 3 then .checksum else .mdConfirmData
        m_chkSum := w₁.m_chkSum ^^^ b } := by
      rw [switch, hstored.m_frmStat, hstat]
    have hnext : Phase f (bs ++ [b]).length { w₁ with
        m_frmStat := if w₁.m_bufLen = w₁.m_frmLen + 3 then .checksum else .mdConfirmData
        m_chkSum := w₁.m_chkSum ^^^ b } := by
      rw [hlen, hn]
      rw [hn] at hneed
      refine ⟨?_, ?_⟩
      · dsimp only
        rw [hstored.m_bufLen, hstored.m_frmLen]
        by_cases hlast : n + 3 < 2 + f.need
        · rw [if_neg (by omega), if_pos (.inr hlast)]
        · rw [if_pos (by omega), if_neg (by omega)]
      · dsimp only
        rw [hstored.m_bufLen, hstored.m_frmLen]
        omega
    refine ⟨_, h.of_switch hstored hne ?_ ?_ ?_ ?_ hnext, fun x => by rw [hscan, hswitch]; rfl⟩
    · rfl
    · rfl
    · rfl
    · rfl

/-- Some more octets. -/
theorem InFrame.scan {bs cs more : List UInt8} (hfits : f.wire.length < 65532)
    (hoctets : bs ++ (cs ++ more) = f.octets) (hneed : (bs ++ cs).length ≤ 2 + f.need)
    (h : InFrame f bs w) :
    ∃ w', InFrame f (bs ++ cs) w' ∧
      ∀ x, Scanner.scan octet w (cs.flatMap f.enc ++ x) = Scanner.scan octet w' x := by
  induction cs generalizing bs w with
  | nil => exact ⟨w, by rwa [List.append_nil], fun _ => rfl⟩
  | cons b cs ih =>
    rw [List.length_append, List.length_cons] at hneed
    obtain ⟨w₁, h₁, hstep⟩ := h.next hfits hoctets (by omega)
    rw [List.cons_append, List.append_cons] at hoctets
    have hlen : ((bs ++ [b]) ++ cs).length ≤ 2 + f.need := by
      rw [← List.append_cons, List.length_append]
      exact hneed
    obtain ⟨w', h', hrun⟩ := ih hoctets hlen h₁
    refine ⟨w', by rwa [List.append_cons], fun x => ?_⟩
    rw [List.flatMap_cons, List.append_assoc, hstep, hrun]

/-- Octets of a frame, from its start. -/
theorem Reset.scan {cs more : List UInt8} (hw : w.Reset) (hfits : f.wire.length < 65532)
    (hoctets : cs ++ more = f.octets) (hneed : cs.length ≤ 2 + f.need) :
    ∃ w', InFrame f cs w' ∧
      ∀ x, Scanner.scan octet w (f.start :: (cs.flatMap f.enc ++ x)) = Scanner.scan octet w' x := by
  obtain ⟨w₀, h₀, hstart⟩ := hw.start f
  have hall : [] ++ (cs ++ more) = f.octets := hoctets
  obtain ⟨w', h', hrun⟩ := h₀.scan hfits hall hneed
  exact ⟨w', h', fun x => (hstart _).trans (hrun x)⟩

/-! ## Frames that the watcher counts right -/

/-- The octet after all that the watcher waits for: a checksum.  What is stored with a wrong one
stays. -/
theorem InFrame.checksum {bs more : List UInt8} (hfits : f.wire.length < 65532)
    (hoctets : bs ++ more = f.octets) (hneed : bs.length = 2 + f.need) (hpos : f.need ≠ 0)
    (hroom : w.m_bufLen + (f.enc b).length < 65536) (h : InFrame f bs w) :
    ∃ w', w'.m_frmStat = .stx ∧ (f.sum bs = b → w'.m_bufLen = 0) ∧
      (f.sum bs ≠ b → w'.m_bufLen = (f.start :: (bs ++ [b]).flatMap f.enc).length ∧
        slice w'.m_frmBuf 0 w'.m_bufLen = f.start :: (bs ++ [b]).flatMap f.enc) ∧
      ∀ x, Scanner.scan octet w (f.enc b ++ x) = if f.sum bs = b then
          (Scanner.scan octet w' x).after [f.start :: (bs ++ [b]).flatMap f.enc]
        else Scanner.scan octet w' x := by
  have hfrmLen := h.frmLen_le hfits hoctets
  obtain ⟨w₁, hstored, hscan⟩ := scan_enc (b := b) h.inside h.m_bL1Header hroom (by omega)
  obtain ⟨hstat, hexpect⟩ := (phase_iff (by omega)).mp h.phase
  rw [if_neg (by omega)] at hstat
  have hlen₁ : u16 (w₁.m_frmLen + 4) = w₁.m_bufLen := by
    have hpos := f.length_enc_pos b
    rw [hstored.m_frmLen, hstored.m_bufLen]
    refine (Nat.mod_eq_of_lt ?_).trans ?_
    · omega
    · omega
  have hform : f.start :: (bs ++ [b]).flatMap f.enc =
      f.start :: bs.flatMap f.enc ++ f.enc b := by
    rw [List.flatMap_append, List.flatMap_singleton, List.cons_append]
  have hslice : slice w₁.m_frmBuf 0 w₁.m_bufLen = f.start :: (bs ++ [b]).flatMap f.enc := by
    rw [hform, hstored.m_frmBuf, h.m_frmBuf]
  by_cases hb : f.sum bs = b
  · refine ⟨{ w₁ with m_frmStat := .stx, m_bufLen := 0, m_frmLen := 0, m_chkSum := 0 ^^^ b }, rfl,
      fun _ => rfl, fun hne => absurd hb hne, fun x => ?_⟩
    have hswitch : w₁.switch b = .emit (slice w₁.m_frmBuf 0 (u16 (w₁.m_frmLen + 4)))
        { w₁ with m_frmStat := .stx, m_bufLen := 0, m_frmLen := 0, m_chkSum := 0 ^^^ b } := by
      rw [switch, hstored.m_frmStat, hstat]
      dsimp only
      rw [if_pos (by rw [hstored.m_chkSum, h.m_chkSum, hb])]
    rw [hscan, hswitch, hlen₁, if_pos hb, hslice]
    rfl
  · refine ⟨{ w₁ with m_frmStat := .stx, m_chkSum := w₁.m_chkSum ^^^ b }, rfl,
      fun h => absurd h hb, fun _ => ⟨?_, hslice⟩, fun x => ?_⟩
    · change w₁.m_bufLen = _
      rw [hform, List.length_append, ← h.m_bufLen, hstored.m_bufLen]
    have hswitch : w₁.switch b = .next { w₁ with
        m_frmStat := .stx
        m_chkSum := w₁.m_chkSum ^^^ b } := by
      rw [switch, hstored.m_frmStat, hstat]
      dsimp only
      rw [if_neg (by rw [hstored.m_chkSum, h.m_chkSum]; exact hb)]
    rw [hscan, hswitch, if_neg hb]
    rfl

/-- **A frame that is counted right** is handed over at its last octet. -/
theorem scan_wire (hw : w.Reset) (hfits : f.wire.length < 65532) (hcounted : f.Counted) :
    ∃ w', w'.Reset ∧
      ∀ x, Scanner.scan octet w (f.wire ++ x) = (Scanner.scan octet w' x).after [f.wire] := by
  have hneed : f.need = f.content.length := by
    rw [ModemFrame.need, hcounted.1]
    rfl
  obtain ⟨w₁, h₁, hrun⟩ := hw.scan hfits (List.append_nil f.octets)
    (by rw [f.length_octets, hneed])
  have hroom : w₁.m_bufLen + (f.enc (f.sum f.octets)).length < 65536 := by
    have hlen := h₁.m_bufLen
    have hwire : f.wire.length = (f.start :: f.octets.flatMap f.enc).length +
        (f.enc (f.sum f.octets)).length := by
      rw [ModemFrame.wire, List.flatMap_append, List.flatMap_cons, List.flatMap_nil,
        List.append_nil, ← List.cons_append, List.length_append]
    omega
  obtain ⟨w', hstat, hbufLen, -, hlast⟩ := h₁.checksum hfits (List.append_nil _)
    (by rw [f.length_octets, hneed])
    (by rw [hneed]; exact fun h => hcounted.2 (List.eq_nil_of_length_eq_zero h)) hroom
  refine ⟨w', ⟨hstat, hbufLen rfl⟩, fun x => ?_⟩
  have hform : f.wire ++ x =
      f.start :: (f.octets.flatMap f.enc ++ (f.enc (f.sum f.octets) ++ x)) := by
    simp only [ModemFrame.wire, List.flatMap_append, List.flatMap_cons, List.flatMap_nil,
      List.append_nil, List.cons_append, List.append_assoc]
  rw [hform, hrun, hlast, if_pos rfl]
  rfl

/-! ## Parts of frames -/

/-- The key word starts an escape pair. -/
theorem octet_keyWord (hstat : w.m_frmStat ≠ .keyword) (hl1 : w.m_bL1Header = false) :
    w.octet MUX_KEY_WORD = .next
      { w.store MUX_KEY_WORD with m_frmStat0 := w.m_frmStat, m_frmStat := .keyword } := by
  unfold octet
  rw [if_neg fun h => absurd h.1 (by decide), if_pos ⟨hl1, rfl, hstat⟩]

/-- A part of what is sent for an octet. -/
theorem begins_enc {half left : List UInt8} (h : Begins f.enc half left) :
    half = [] ∨ (f.isL1 = false ∧ half = [MUX_KEY_WORD]) := by
  cases f with
  | ps content =>
    rcases begins_escape h with rfl | rfl
    · exact .inl rfl
    · exact .inr ⟨rfl, rfl⟩
  | l1 content =>
    cases left with
    | nil => exact .inl h
    | cons b left => exact .inl (List.eq_nil_of_length_eq_zero (Nat.lt_one_iff.mp h.2))

/-- Of a part of a frame nothing is handed over. -/
theorem scan_begins {fs : List ModemFrame} {tail : List UInt8} (hw : w.Reset)
    (hfits : f.wire.length < 65532) (hcounted : f.Counted)
    (h : Begins ModemFrame.wire tail (f :: fs)) :
    ∃ w', Scanner.scan octet w tail = ⟨w', [], false⟩ := by
  obtain ⟨hsub, hlt⟩ := h
  cases tail with
  | nil => exact ⟨w, rfl⟩
  | cons s q =>
    obtain ⟨rfl, hq⟩ := List.cons_prefix_cons.mp hsub
    obtain ⟨left, hoctets, hpart, hbegins⟩ := completed_spec hq
    generalize completed f.enc (f.octets ++ [f.sum f.octets]) q.length = done at hoctets hpart
    generalize unfinished f.enc (f.octets ++ [f.sum f.octets]) q = half at hpart hbegins
    subst hpart
    obtain rfl | ⟨more, last, rfl⟩ := left.eq_nil_or_concat
    · obtain rfl : half = [] := hbegins
      rw [List.append_nil] at hoctets hlt
      rw [ModemFrame.wire, hoctets] at hlt
      exact absurd hlt (Nat.lt_irrefl _)
    · rw [List.concat_eq_append, ← List.append_assoc] at hoctets
      have hmore := (List.append_inj' hoctets rfl).1.symm
      have hneed : done.length ≤ 2 + f.need := by
        have hlength := f.length_octets
        rw [← hmore, List.length_append] at hlength
        rw [ModemFrame.need, hcounted.1]
        omega
      obtain ⟨w₁, h₁, hrun⟩ := hw.scan hfits hmore hneed
      rw [hrun]
      rcases begins_enc hbegins with rfl | ⟨hl1, rfl⟩
      · exact ⟨w₁, rfl⟩
      · exact ⟨_, scan_of_next (octet_keyWord h₁.inside.2 (h₁.m_bL1Header.trans hl1)) []⟩

/-! ## Frames that the watcher counts wrong -/

/-- The `switch` outside of frames. -/
theorem switch_stx (h : w.m_frmStat = .stx) (ch : UInt8) :
    w.switch ch = .next { w with m_bufLen := 0, m_frmLen := 0, m_chkSum := ch ^^^ ch } := by
  rw [switch, h]

/-- An octet that starts no frame, outside of frames. -/
theorem octet_idle {ch : UInt8} (hstat : w.m_frmStat = .stx)
    (hch : ch ≠ STX_OCTET ∧ ch ≠ STX_L1_OCTET) (hkey : w.m_bL1Header = true ∨ ch ≠ MUX_KEY_WORD) :
    ∃ w', w.octet ch = .next w' ∧ w'.Reset ∧ w'.m_bL1Header = w.m_bL1Header := by
  have hnot : ¬ (w.m_bL1Header = false ∧ ch = MUX_KEY_WORD ∧ w.m_frmStat ≠ .keyword) := by
    rintro ⟨hl1, hword, -⟩
    rcases hkey with h | h
    · rw [h] at hl1
      cases hl1
    · exact h hword
  have hswitch := switch_stx (w := w.store ch) hstat ch
  unfold octet
  rw [if_neg fun h => h.1.elim hch.1 hch.2, if_neg hnot, if_neg (by rw [hstat]; decide), hswitch]
  exact ⟨_, rfl, ⟨hstat, rfl⟩, rfl⟩

/-- The second octet of a pair, outside of frames. -/
theorem octet_idle_pair {ch : UInt8} (hstat : w.m_frmStat = .keyword)
    (hstat0 : w.m_frmStat0 = .stx) (hch : ch ≠ STX_OCTET ∧ ch ≠ STX_L1_OCTET) :
    ∃ w', w.octet ch = .next w' ∧ w'.Reset := by
  unfold octet
  rw [if_neg fun h => h.1.elim hch.1 hch.2, if_neg fun h => h.2.2 hstat, if_pos hstat]
  refine ⟨_, switch_stx ?_ _, ?_, rfl⟩
  · exact hstat0
  · exact hstat0

/-- Outside of frames an octet of a frame with escapes hands nothing over; an octet that starts
no frame takes the watcher to its start. -/
theorem scan_idle (hstat : w.m_frmStat = .stx) (b : UInt8) :
    ∃ w', Scanner.scan octet w (escape STX_L1_OCTET b) = ⟨w', [], false⟩ ∧
      (b ≠ STX_OCTET → w'.Reset) := by
  by_cases hb : Escaped STX_L1_OCTET b
  · obtain ⟨ch, hpair, hch⟩ := escape_of_escaped hb
    have hne : ch ≠ STX_OCTET ∧ ch ≠ STX_L1_OCTET := by
      rcases hch with ⟨rfl, -⟩ | ⟨rfl, -⟩ <;> decide
    rw [hpair]
    cases hl1 : w.m_bL1Header with
    | true =>
      obtain ⟨w₁, hfirst, hreset₁, hl1₁⟩ :=
        octet_idle hstat (show MUX_KEY_WORD ≠ STX_OCTET ∧ MUX_KEY_WORD ≠ STX_L1_OCTET by decide)
          (.inl hl1)
      obtain ⟨w₂, hsecond, hreset₂, -⟩ := octet_idle hreset₁.1 hne (.inl (hl1₁.trans hl1))
      exact ⟨w₂, (scan_of_next hfirst _).trans (scan_of_next hsecond _), fun _ => hreset₂⟩
    | false =>
      have hfirst := octet_keyWord (w := w) (by rw [hstat]; decide) hl1
      obtain ⟨w₂, hsecond, hreset₂⟩ := octet_idle_pair (w := { w.store MUX_KEY_WORD with
        m_frmStat0 := w.m_frmStat
        m_frmStat := .keyword }) rfl hstat hne
      exact ⟨w₂, (scan_of_next hfirst _).trans (scan_of_next hsecond _), fun _ => hreset₂⟩
  · rw [escape_of_not_escaped hb]
    by_cases hstx : b = STX_OCTET
    · subst hstx
      have hfirst : ∃ w₁, w.octet STX_OCTET = .next w₁ := by
        unfold octet
        rw [if_pos ⟨.inl rfl, by rw [hstat]; decide⟩]
        dsimp only
        rw [if_pos (by rw [hstat]; decide)]
        exact ⟨_, rfl⟩
      obtain ⟨w₁, hfirst⟩ := hfirst
      exact ⟨w₁, scan_of_next hfirst _, fun h => absurd rfl h⟩
    · obtain ⟨w₁, hfirst, hreset, -⟩ :=
        octet_idle hstat ⟨hstx, fun h => hb (.inl h)⟩ (.inr fun h => hb (.inr h))
      exact ⟨w₁, scan_of_next hfirst _, fun _ => hreset⟩

/-- An empty frame of layer 1: the watcher waits in the state of the data. -/
theorem scan_empty (hw : w.Reset) (hf : f.WellFormed) (hnil : f.content = []) (b : UInt8) :
    f.isL1 = true ∧ ∃ w', Scanner.scan octet w (f.body ++ f.enc b) = ⟨w', [], false⟩ ∧
      w'.m_bufLen = (f.body ++ f.enc b).length ∧
        slice w'.m_frmBuf 0 w'.m_bufLen = f.body ++ f.enc b := by
  obtain ⟨hcontent, hfits⟩ := hf
  have hl1 : f.isL1 = true := by
    cases h : f.isL1 with
    | true => rfl
    | false => exact absurd hnil (hcontent h)
  have hneed : f.need = 0 := by
    rw [ModemFrame.need, hnil]
    exact Nat.zero_sub _
  have hoctets : f.octets.length = 2 := by
    rw [f.length_octets, hnil]
    rfl
  obtain ⟨w₁, h₁, hrun⟩ := hw.scan hfits (List.append_nil f.octets) (by rw [hoctets, hneed])
  have hroom := h₁.room (List.append_nil f.octets)
  have hfrmLen := h₁.frmLen_le hfits (List.append_nil f.octets)
  obtain ⟨hstat, hexpect⟩ := (phase_iff (by rw [hoctets])).mp h₁.phase
  rw [if_pos (.inl hoctets)] at hstat
  have henc : f.enc b = [b] := by
    cases f with
    | ps => cases hl1
    | l1 => rfl
  obtain ⟨w₂, hstored, hscan⟩ := scan_enc (b := b) h₁.inside h₁.m_bL1Header
    (by rw [henc, List.length_singleton]; omega) (by omega)
  have hswitch : w₂.switch b = .next { w₂ with
      m_frmStat := if w₂.m_bufLen = w₂.m_frmLen + 3 then .checksum else .mdConfirmData
      m_chkSum := w₂.m_chkSum ^^^ b } := by
    rw [switch, hstored.m_frmStat, hstat]
  have hwire := hscan []
  rw [hswitch, ← hrun, List.append_nil] at hwire
  refine ⟨hl1, _, hwire, ?_, ?_⟩
  · change w₂.m_bufLen = _
    rw [List.length_append, hstored.m_bufLen, h₁.m_bufLen]
    rfl
  · change slice w₂.m_frmBuf 0 w₂.m_bufLen = _
    rw [hstored.m_frmBuf, h₁.m_frmBuf]
    rfl

/-- The watcher takes the last octet of the content for the checksum. -/
theorem scan_body (hw : w.Reset) (hf : f.WellFormed) (hcounted : ¬ f.Counted)
    (hnil : f.content ≠ []) :
    f.isL1 = false ∧ ∃ w₁, w₁.m_frmStat = .stx ∧
      ((w₁.m_bufLen = 0 ∧ Scanner.scan octet w f.body = ⟨w₁, [f.body], false⟩) ∨
        (w₁.m_bufLen = f.body.length ∧ slice w₁.m_frmBuf 0 w₁.m_bufLen = f.body ∧
          Scanner.scan octet w f.body = ⟨w₁, [], false⟩)) := by
  obtain ⟨hcontent, hfits⟩ := hf
  have hlen1 : (f.enc f.len1).length ≠ 1 := fun h => hcounted ⟨h, hnil⟩
  have hl1 : f.isL1 = false := by
    cases f with
    | ps => rfl
    | l1 => exact absurd rfl hlen1
  have henc : f.enc = escape STX_L1_OCTET := by
    cases f with
    | ps => rfl
    | l1 => exact absurd rfl hlen1
  have hpair : (f.enc f.len1).length = 2 := by
    have hle := length_escape_le STX_L1_OCTET f.len1
    have hpos := f.length_enc_pos f.len1
    rw [henc] at hlen1 hpos ⊢
    omega
  have hlength := f.length_octets
  have hcontentPos := List.length_pos_iff.mpr hnil
  obtain hempty | ⟨pre, last, hpre⟩ := f.octets.eq_nil_or_concat
  · rw [hempty] at hlength
    exact absurd hlength (by rw [List.length_nil]; omega)
  · rw [List.concat_eq_append] at hpre
    have hneed : pre.length = 2 + f.need := by
      rw [hpre, List.length_append, List.length_singleton] at hlength
      rw [ModemFrame.need, hpair]
      omega
    have hneedPos : f.need ≠ 0 := by
      -- A high octet that is escaped is not zero.
      intro hzero
      rw [ModemFrame.need, hpair] at hzero
      have hone : f.content.length = 1 := by omega
      cases f with
      | ps content =>
        change (escape STX_L1_OCTET (hi content.length)).length = 2 at hpair
        change content.length = 1 at hone
        rw [hone] at hpair
        exact absurd hpair (by decide)
      | l1 content => exact hlen1 rfl
    obtain ⟨w₁, h₁, hrun⟩ := hw.scan hfits hpre.symm (Nat.le_of_eq hneed)
    have hroom := h₁.room hpre.symm
    rw [List.flatMap_cons, List.flatMap_nil, List.append_nil] at hroom
    have hfit : w₁.m_bufLen + (f.enc last).length < 65536 := by omega
    obtain ⟨w₂, hstat, hzero, hwrong, hlast⟩ := h₁.checksum hfits hpre.symm hneed hneedPos hfit
    have hbody : f.start :: (pre ++ [last]).flatMap f.enc = f.body := by
      rw [← hpre]
      rfl
    have hwhole : Scanner.scan octet w f.body = Scanner.scan octet w₁ (f.enc last ++ []) := by
      rw [← hrun, ← hbody, List.flatMap_append, List.flatMap_singleton, List.append_nil]
    rw [hbody] at hwrong hlast
    rw [hlast] at hwhole
    refine ⟨hl1, w₂, hstat, ?_⟩
    by_cases hsum : f.sum pre = last
    · rw [if_pos hsum] at hwhole
      exact .inl ⟨hzero hsum, hwhole⟩
    · rw [if_neg hsum] at hwhole
      exact .inr ⟨(hwrong hsum).1, (hwrong hsum).2, hwhole⟩

/-- **A frame that is counted wrong** is not handed over at its last octet: something is handed
over earlier, or nothing. -/
theorem scan_late (hw : w.Reset) (hf : f.WellFormed) (hcounted : ¬ f.Counted) :
    (Scanner.scan octet w f.wire).stopped = false ∧
      ((Scanner.scan octet w f.wire).out = [] ∨
        ∃ p q, f.wire = p ++ q ∧ q ≠ [] ∧ (Scanner.scan octet w p).out ≠ []) := by
  rw [f.wire_eq]
  by_cases hnil : f.content = []
  · obtain ⟨-, w', hscan, -⟩ := scan_empty hw hf hnil (f.sum f.octets)
    rw [hscan]
    exact ⟨rfl, .inl rfl⟩
  · obtain ⟨hl1, w₁, hstat, hbody⟩ := scan_body hw hf hcounted hnil
    have henc : f.enc = escape STX_L1_OCTET := by
      cases f with
      | ps => rfl
      | l1 => cases hl1
    obtain ⟨w₂, hidle, -⟩ := scan_idle hstat (f.sum f.octets)
    rw [← henc] at hidle
    rcases hbody with ⟨-, hbody⟩ | ⟨-, -, hbody⟩
    · rw [scan_append hbody, hidle]
      refine ⟨rfl, .inr ⟨f.body, _, rfl, f.enc_ne_nil _, ?_⟩⟩
      rw [hbody]
      exact List.cons_ne_nil _ _
    · rw [scan_append hbody, hidle]
      exact ⟨rfl, .inl rfl⟩

end MdRxWatcher

end MtkHw.Meta
