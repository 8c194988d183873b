import MtkHw.Meta.ModemFrame

/-!
# Forwarding the confirms of a modem

What `process` hands to `processMDConfirm` for the frames that a modem sends, whatever the reads
in which they come, and what is written for it.  `forwarded_iff` says for which frames and reads
the watcher hands over what has been completely received, at the end of every read.

A frame that the watcher counts wrong leaves it in a state that the rest of the stream may do
anything with.  What it hands over then is still what it has stored since it was last in no
frame (`scan_holds`), so that the frame itself is not handed over in its turn (`lost`).
-/

namespace MtkHw.Meta

open Lib Ring Scanner

/-! ## Writes -/

/-- Over USB and sockets a confirm is written as it is. -/
theorem processMDConfirm_unchanged {eComType : ComType} (h : eComType = .usb ∨ eComType = .socket)
    (pdata : List UInt8) : processMDConfirm eComType true pdata = [pdata] := by
  rcases h with rfl | rfl
  · rfl
  · rfl

/-- Whatever has been flushed, all of the data is written escaped. -/
theorem flatten_uartLoop (pdata pCache : List UInt8) :
    (uartLoop pdata pCache).flatten = pCache ++ pdata.flatMap uartEscape := by
  induction pdata generalizing pCache with
  | nil =>
    rw [uartLoop, List.flatMap_nil, List.append_nil]
    split
    · exact List.append_nil pCache
    · rename_i h
      rw [List.eq_nil_of_length_eq_zero (Nat.eq_zero_of_not_pos h)]
      rfl
  | cons b rest ih =>
    rw [uartLoop]
    split
    · rw [List.flatten_cons, ih, List.flatMap_cons, List.nil_append, List.append_assoc]
    · rw [ih, List.flatMap_cons, List.append_assoc]

/-- Over UART a confirm is written escaped. -/
theorem processMDConfirm_uart (pdata : List UInt8) :
    (processMDConfirm .uart true pdata).flatten = pdata.flatMap uartEscape :=
  flatten_uartLoop pdata []

namespace MdRxWatcher

variable {w w' : MdRxWatcher} {ch : UInt8} {e : List UInt8}

/-! ## Any octets -/

/-- The watcher expects the checksum where it has stored all but the checksum. -/
structure Expects (w : MdRxWatcher) : Prop where
  bufLen_lt : w.m_bufLen < 65536
  frmLen_lt : w.m_frmLen < 65536
  frmStat0 : w.m_frmStat0 ≠ .keyword
  checksum : w.m_frmStat = .checksum → w.m_bufLen = w.m_frmLen + 3
  pair : w.m_frmStat = .keyword → w.m_frmStat0 = .checksum → w.m_bufLen = u16 (w.m_frmLen + 4)

theorem expects_new (memory : Nat → UInt8) : (MdRxWatcher.new memory).Expects where
  bufLen_lt := Nat.zero_lt_succ _
  frmLen_lt := Nat.zero_lt_succ _
  frmStat0 := by rintro ⟨⟩
  checksum := by rintro ⟨⟩
  pair := by rintro ⟨⟩

/-- Outside of frames and of pairs there is nothing to expect. -/
theorem Expects.of_stat (hbufLen : w.m_bufLen < 65536) (hfrmLen : w.m_frmLen < 65536)
    (hstat0 : w.m_frmStat0 ≠ .keyword) (hchecksum : w.m_frmStat ≠ .checksum)
    (hkeyword : w.m_frmStat ≠ .keyword) : w.Expects :=
  ⟨hbufLen, hfrmLen, hstat0, fun h => absurd h hchecksum, fun h => absurd h hkeyword⟩

/-- What an octet does to a watcher with the octets `frmBuf` and the count `bufLen`: it counts
on, or is in no frame again, or hands over what it has stored. -/
def Does (frmBuf : Nat → UInt8) (bufLen : Nat) : Turn MdRxWatcher (List UInt8) → Prop
  | .next w' => w'.Expects ∧ (w'.Reset ∨ (w'.m_bufLen = bufLen ∧ w'.m_frmBuf = frmBuf))
  | .emit e w' => w'.Expects ∧ w'.Reset ∧ e = slice frmBuf 0 bufLen
  | .stop w' => w'.Expects

/-- The `switch`, after an octet has been stored. -/
theorem switch_does (hbufLen : w.m_bufLen < 65536) (hfrmLen : w.m_frmLen < 65536)
    (hstat0 : w.m_frmStat0 ≠ .keyword) (hkeyword : w.m_frmStat ≠ .keyword)
    (hchecksum : w.m_frmStat = .checksum → w.m_bufLen = u16 (w.m_frmLen + 4)) (ch : UInt8) :
    Does w.m_frmBuf w.m_bufLen (w.switch ch) := by
  have hch := ch.toNat_lt
  have hu16 : ∀ n, u16 n < 65536 := fun n => Nat.mod_lt n (by decide)
  unfold switch
  cases hstat : w.m_frmStat with
  | lenHi =>
    refine ⟨Expects.of_stat hbufLen ?_ hstat0 (by rintro ⟨⟩) (by rintro ⟨⟩), .inr ⟨rfl, rfl⟩⟩
    dsimp only
    split
    · omega
    · omega
  | lenLo =>
    have hlen := hu16 (w.m_frmLen + if w.m_bL1Header then ch.toNat * 256 else ch.toNat)
    dsimp only
    generalize u16 (w.m_frmLen + if w.m_bL1Header then ch.toNat * 256 else ch.toNat) = m_frmLen
      at hlen ⊢
    split
    · exact Expects.of_stat hbufLen hlen hstat0 (by rintro ⟨⟩) (by rintro ⟨⟩)
    · exact ⟨Expects.of_stat hbufLen hlen hstat0 (by rintro ⟨⟩) (by rintro ⟨⟩), .inr ⟨rfl, rfl⟩⟩
  | mdConfirmData =>
    refine ⟨⟨hbufLen, hfrmLen, hstat0, fun h => ?_, fun h => ?_⟩, .inr ⟨rfl, rfl⟩⟩
    · dsimp only at h
      by_contra hne
      rw [if_neg hne] at h
      cases h
    · dsimp only at h
      split at h
      · cases h
      · cases h
  | checksum =>
    dsimp only
    split
    · refine ⟨Expects.of_stat (Nat.zero_lt_succ _) (Nat.zero_lt_succ _) hstat0 (by rintro ⟨⟩)
        (by rintro ⟨⟩), ⟨rfl, rfl⟩, ?_⟩
      rw [hchecksum hstat]
    · exact ⟨Expects.of_stat hbufLen hfrmLen hstat0 (by rintro ⟨⟩) (by rintro ⟨⟩), .inr ⟨rfl, rfl⟩⟩
  | stx =>
    refine ⟨Expects.of_stat (Nat.zero_lt_succ _) (Nat.zero_lt_succ _) hstat0 ?_ ?_, .inl ⟨rfl, rfl⟩⟩
    · rintro ⟨⟩
    · rintro ⟨⟩
  | keyword => exact absurd hstat hkeyword

/-- **Any octet**, in any state. -/
theorem octet_does (h : w.Expects) (ch : UInt8) :
    Does (blit w.m_frmBuf w.m_bufLen [ch]) (u16 (w.m_bufLen + 1)) (w.octet ch) := by
  have hu16 : ∀ n, u16 n < 65536 := fun n => Nat.mod_lt n (by decide)
  have hchecksum : w.m_frmStat = .checksum → u16 (w.m_bufLen + 1) = u16 (w.m_frmLen + 4) := by
    intro hstat
    rw [h.checksum hstat]
  unfold octet
  split
  · dsimp only
    split
    · exact ⟨Expects.of_stat (hu16 _) (Nat.zero_lt_succ _) h.frmStat0 (by rintro ⟨⟩) (by rintro ⟨⟩),
        .inr ⟨rfl, rfl⟩⟩
    · rename_i hstat
      have hstat := not_not.mp hstat
      refine switch_does ?_ ?_ ?_ ?_ ?_ ch
      · exact hu16 _
      · exact h.frmLen_lt
      · exact h.frmStat0
      · change w.m_frmStat ≠ .keyword
        rw [hstat]
        rintro ⟨⟩
      · exact fun _ => hchecksum hstat
  · split
    · rename_i hkey
      refine ⟨⟨hu16 _, h.frmLen_lt, hkey.2.2, ?_, fun _ => hchecksum⟩, .inr ⟨rfl, rfl⟩⟩
      rintro ⟨⟩
    · split
      · rename_i hstat
        refine switch_does ?_ ?_ ?_ ?_ ?_ _
        · exact hu16 _
        · exact hu16 _
        · exact h.frmStat0
        · exact h.frmStat0
        · intro hstat0
          have hpair := h.pair hstat hstat0
          change u16 (w.m_bufLen + 1) = u16 (u16 (w.m_frmLen + 1) + 4)
          rw [hpair]
          unfold u16
          omega
      · rename_i hstat
        refine switch_does ?_ ?_ ?_ ?_ ?_ ch
        · exact hu16 _
        · exact h.frmLen_lt
        · exact h.frmStat0
        · exact hstat
        · exact hchecksum

/-- The buffer holds the octets `bytes`, as far as there is room, and counts them. -/
def Holds (frmBuf : Nat → UInt8) (bufLen : Nat) (bytes : List UInt8) : Prop :=
  bufLen = u16 bytes.length ∧ (bytes.length < 65536 → slice frmBuf 0 bytes.length = bytes)

theorem Holds.push {frmBuf : Nat → UInt8} {bufLen : Nat} {bytes : List UInt8}
    (h : Holds frmBuf bufLen bytes) (ch : UInt8) :
    Holds (blit frmBuf bufLen [ch]) (u16 (bufLen + 1)) (bytes ++ [ch]) := by
  obtain ⟨rfl, hslice⟩ := h
  rw [Holds, List.length_append, List.length_singleton]
  refine ⟨?_, fun hlt => ?_⟩
  · unfold u16
    omega
  · have hmod : u16 bytes.length = bytes.length := Nat.mod_eq_of_lt (Nat.lt_of_succ_lt hlt)
    have hblit := slice_blit frmBuf 0 bytes.length [ch]
    rw [Nat.zero_add] at hblit
    rw [hmod]
    exact hblit.trans (congrArg (· ++ [ch]) (hslice (Nat.lt_of_succ_lt hlt)))

theorem Reset.holds (h : w.Reset) : Holds w.m_frmBuf w.m_bufLen [] := ⟨h.2, fun _ => rfl⟩

/-! ## Any streams -/

/-- The watcher keeps its expectations, and has handed over no more than it has got. -/
theorem scan_expects (h : w.Expects) (x : List UInt8) :
    (Scanner.scan octet w x).final.Expects ∧
      (Scanner.scan octet w x).out.flatten.length ≤ w.m_bufLen + x.length := by
  induction x generalizing w with
  | nil => exact ⟨h, Nat.zero_le _⟩
  | cons ch x ih =>
    have hdoes := octet_does h ch
    have hmod : u16 (w.m_bufLen + 1) ≤ w.m_bufLen + 1 := Nat.mod_le _ _
    rw [scan_cons, List.length_cons]
    cases hturn : w.octet ch with
    | next w' =>
      rw [hturn] at hdoes
      obtain ⟨hexpects, hbufLen⟩ := hdoes
      have hle : w'.m_bufLen ≤ w.m_bufLen + 1 := by
        rcases hbufLen with hreset | ⟨hbufLen, -⟩
        · rw [hreset.2]
          exact Nat.zero_le _
        · rwa [hbufLen]
      obtain ⟨hfinal, hout⟩ := ih hexpects
      exact ⟨hfinal, hout.trans (by omega)⟩
    | emit e w' =>
      rw [hturn] at hdoes
      obtain ⟨hexpects, hreset, rfl⟩ := hdoes
      obtain ⟨hfinal, hout⟩ := ih hexpects
      refine ⟨hfinal, ?_⟩
      change (_ :: (Scanner.scan octet w' x).out).flatten.length ≤ _
      rw [List.flatten_cons, List.length_append, length_slice]
      rw [hreset.2] at hout
      omega
    | stop w' =>
      rw [hturn] at hdoes
      exact ⟨hdoes, Nat.zero_le _⟩

/-- Where nothing has been handed over, the buffer holds what has come since the watcher was last
in no frame. -/
theorem scan_holds (hw : w.Reset) (h : w.Expects) {x : List UInt8}
    (hscan : Scanner.scan octet w x = ⟨w', [], false⟩) :
    ∃ x₁ y w₁, x = x₁ ++ y ∧ w₁.Reset ∧ Scanner.scan octet w₁ y = ⟨w', [], false⟩ ∧
      Holds w'.m_frmBuf w'.m_bufLen y := by
  induction x using List.reverseRecOn generalizing w' with
  | nil =>
    cases hscan
    exact ⟨[], [], w, rfl, hw, rfl, hw.holds⟩
  | append_singleton x ch ih =>
    have hgo : (Scanner.scan octet w (x ++ [ch])).stopped = false := by rw [hscan]
    have hbefore := scan_of_append hgo
    have hlast := scan_append hbefore [ch]
    rw [hscan, scan_cons] at hlast
    have hexpects := (scan_expects h x).1
    generalize (Scanner.scan octet w x).final = v at hbefore hlast hexpects
    generalize (Scanner.scan octet w x).out = out at hbefore hlast
    have hdoes := octet_does hexpects ch
    cases hturn : v.octet ch with
    | next v' =>
      rw [hturn] at hlast hdoes
      obtain ⟨rfl, hout, -⟩ := Scanned.mk.inj hlast
      obtain rfl : out = [] := (List.append_eq_nil_iff.mp hout.symm).1
      obtain ⟨x₁, y, w₁, rfl, hw₁, hy, hholds⟩ := ih hbefore
      rcases hdoes.2 with hreset | ⟨hbufLen, hfrmBuf⟩
      · exact ⟨x₁ ++ y ++ [ch], [], w', (List.append_nil _).symm, hreset, rfl, hreset.holds⟩
      · refine ⟨x₁, y ++ [ch], w₁, List.append_assoc .., hw₁, ?_, ?_⟩
        · rw [scan_append hy, scan_of_next hturn]
          rfl
        · rw [hbufLen, hfrmBuf]
          exact hholds.push ch
    | emit e v' =>
      rw [hturn] at hlast
      exact absurd (Scanned.mk.inj hlast).2.1.symm
        (List.append_ne_nil_of_right_ne_nil _ (List.cons_ne_nil _ _))
    | stop v' =>
      rw [hturn] at hlast
      exact absurd (Scanned.mk.inj hlast).2.2 Bool.false_ne_true

variable {f : ModemFrame} {fs : List ModemFrame}

/-- **A frame that is counted wrong is lost**: with whatever is sent behind it, it is not handed
over in its turn. -/
theorem lost (hw : w.Reset) (h : w.Expects) (hf : f.WellFormed) (hcounted : ¬ f.Counted)
    {tail : List UInt8} (htail : tail.length < 65536) :
    (Scanner.scan octet w (f.wire ++ (fs.flatMap ModemFrame.wire ++ tail))).out ≠
      f.wire :: fs.map ModemFrame.wire := by
  intro hout
  obtain ⟨before, b, after, v, v', hstream, hbefore, hemit, hrest⟩ := exists_first hout
  have hexpects := (scan_expects h before).1
  rw [hbefore] at hexpects
  have hdoes := octet_does hexpects b
  rw [hemit] at hdoes
  obtain ⟨hexpects', hreset', hwire⟩ := hdoes
  obtain ⟨x₁, y, w₁, rfl, hw₁, hy, hholds⟩ := scan_holds hw h hbefore
  obtain ⟨hbufLen, hslice⟩ := hholds.push b
  rw [hbufLen] at hwire
  have hlength : f.wire.length = u16 (y ++ [b]).length := by
    rw [hwire, length_slice]
  by_cases hlt : (y ++ [b]).length < 65536
  · -- The frame itself has been stored: it would be handed over at its end.
    rw [u16, Nat.mod_eq_of_lt hlt, hslice hlt] at hwire
    obtain hnone | ⟨p, q, hsplit, hq, hearly⟩ := (scan_late hw₁ hf hcounted).2
    · rw [hwire, scan_append hy, scan_of_emit hemit] at hnone
      exact absurd hnone (List.cons_ne_nil _ _)
    · refine hearly ?_
      obtain ⟨r, c, rfl⟩ := List.eq_nil_or_concat q |>.resolve_left hq
      rw [List.concat_eq_append, hwire, ← List.append_assoc] at hsplit
      obtain ⟨rfl, -⟩ := List.append_inj' hsplit rfl
      have hgo : (Scanner.scan octet w₁ (p ++ r)).stopped = false := by rw [hy]
      have hpart := scan_of_append hgo
      have hboth := scan_append hpart r
      rw [hy] at hboth
      exact (List.append_eq_nil_iff.mp (Scanned.mk.inj hboth).2.1.symm).1
  · -- The count of the stored octets has gone round: more has been taken than is handed over.
    have hleft := (scan_expects hexpects' after).2
    rw [← hrest, hreset'.2, ← List.flatMap_def] at hleft
    have htotal := congrArg List.length hstream
    have hfits := hf.2
    simp only [List.length_append, List.length_cons, List.length_nil] at htotal hlt hlength
    unfold u16 at hlength
    omega

/-! ## Frames that are all counted right -/

/-- Frames are handed over one after the other. -/
theorem scan_frames (hw : w.Reset) (hfs : ∀ f ∈ fs, f.WellFormed ∧ f.Counted) :
    ∃ w', w'.Reset ∧ ∀ x, Scanner.scan octet w (fs.flatMap ModemFrame.wire ++ x) =
      (Scanner.scan octet w' x).after (fs.map ModemFrame.wire) := by
  induction fs generalizing w with
  | nil => exact ⟨w, hw, fun _ => rfl⟩
  | cons f fs ih =>
    obtain ⟨hf, hrest⟩ := List.forall_mem_cons.mp hfs
    obtain ⟨w₁, hw₁, hfirst⟩ := scan_wire hw hf.1.2 hf.2
    obtain ⟨w', hw', hframes⟩ := ih hw₁ hrest
    refine ⟨w', hw', fun x => ?_⟩
    rw [List.flatMap_cons, List.append_assoc, hfirst, hframes]
    rfl

/-- A beginning of the stream: what is handed over is what has been completely received. -/
theorem scan_stream (hw : w.Reset) (hfs : ∀ f ∈ fs, f.WellFormed ∧ f.Counted) {sofar : List UInt8}
    (hsofar : sofar <+: fs.flatMap ModemFrame.wire) :
    ∃ w', Scanner.scan octet w sofar =
      ⟨w', (completed ModemFrame.wire fs sofar.length).map ModemFrame.wire, false⟩ := by
  obtain ⟨rest, hrest, hbytes, hbegins⟩ := completed_spec hsofar
  generalize completed ModemFrame.wire fs sofar.length = done at hrest hbytes ⊢
  generalize unfinished ModemFrame.wire fs sofar = tail at hbytes hbegins
  subst hrest hbytes
  have hdone : ∀ f ∈ done, f.WellFormed ∧ f.Counted := fun f hf =>
    hfs f (List.mem_append_left _ hf)
  obtain ⟨w₁, hw₁, hframes⟩ := scan_frames hw hdone
  rw [hframes]
  cases rest with
  | nil =>
    obtain rfl : tail = [] := hbegins
    exact ⟨w₁, by rw [scan_nil, Scanned.after, List.append_nil]⟩
  | cons f rest =>
    obtain ⟨hf, hcounted⟩ := hfs f (List.mem_append_right _ List.mem_cons_self)
    obtain ⟨w', htail⟩ := scan_begins hw₁ hf.2 hcounted hbegins
    exact ⟨w', by rw [htail, Scanned.after, List.append_nil]⟩

/-- Up to the end of the first frame that is counted wrong the watcher is not stopped. -/
theorem scan_not_stopped (hw : w.Reset) (hfs : ∀ f ∈ fs, f.WellFormed ∧ f.Counted)
    (hf : f.WellFormed) (hcounted : ¬ f.Counted) {sofar : List UInt8}
    (hsofar : sofar <+: (fs ++ [f]).flatMap ModemFrame.wire) :
    (Scanner.scan octet w sofar).stopped = false := by
  obtain ⟨w₁, hw₁, hframes⟩ := scan_frames hw hfs
  have hall : (Scanner.scan octet w ((fs ++ [f]).flatMap ModemFrame.wire)).stopped = false := by
    rw [List.flatMap_append, List.flatMap_singleton, hframes]
    exact (scan_late hw₁ hf hcounted).1
  obtain ⟨left, hleft⟩ := hsofar
  rw [← hleft] at hall
  rw [scan_of_append hall]

/-- Once the first frame that is counted wrong has been received, not all has been handed over. -/
theorem lost_stream (hw : w.Reset) (h : w.Expects) (hfs : ∀ f ∈ fs, f.WellFormed ∧ f.Counted)
    (hf : f.WellFormed) (hcounted : ¬ f.Counted) {more : List ModemFrame}
    (hmore : ∀ f ∈ more, f.WellFormed) {sofar : List UInt8}
    (hsofar : sofar <+: (fs ++ [f] ++ more).flatMap ModemFrame.wire)
    (hle : ((fs ++ [f]).flatMap ModemFrame.wire).length ≤ sofar.length) :
    (Scanner.scan octet w sofar).out ≠
      (completed ModemFrame.wire (fs ++ [f] ++ more) sofar.length).map ModemFrame.wire := by
  rw [List.flatMap_append] at hsofar
  obtain ⟨x, rfl⟩ := List.prefix_of_prefix_length_le (List.prefix_append ..) hsofar hle
  obtain ⟨rest, hrest, hx, hbegins⟩ := completed_spec ((List.prefix_append_right_inj _).mp hsofar)
  rw [List.length_append, completed_append]
  generalize completed ModemFrame.wire more x.length = done at hrest hx ⊢
  generalize unfinished ModemFrame.wire more x = tail at hx hbegins
  subst hrest hx
  have htail : tail.length < 65536 := by
    cases rest with
    | nil =>
      obtain rfl : tail = [] := hbegins
      exact Nat.zero_lt_succ _
    | cons g rest =>
      have hg := (hmore g (List.mem_append_right _ List.mem_cons_self)).2
      exact hbegins.2.trans (hg.trans (by decide))
  obtain ⟨w₁, hw₁, hframes⟩ := scan_frames hw hfs
  have h₁ : w₁.Expects := by
    have hfinal := (scan_expects h (fs.flatMap ModemFrame.wire ++ [])).1
    rw [hframes] at hfinal
    exact hfinal
  intro hout
  rw [List.flatMap_append, List.flatMap_singleton, List.append_assoc, hframes, List.map_append,
    List.map_append, List.append_assoc] at hout
  exact lost hw₁ h₁ hf hcounted htail (List.append_cancel_left hout)

/-! ## Reads -/

/-- The loop takes the rest of a read; on a long read it returns only when it is stopped. -/
theorem processLoop_eq {len u16Length : Nat} {src : List UInt8} (hlt : u16Length < 65536)
    (hlen : len < 65536 → u16Length + src.length = len) :
    processLoop len w u16Length src =
      if (Scanner.scan octet w src).stopped = true ∨ len < 65536 then
        some ((Scanner.scan octet w src).final, (Scanner.scan octet w src).out)
      else none := by
  have hmod : ∀ n, u16 n < 65536 := fun n => Nat.mod_lt n (by decide)
  induction src generalizing w u16Length with
  | nil =>
    rw [processLoop, scan_nil]
    by_cases hshort : len < 65536
    · rw [if_neg (by rw [← hlen hshort]; exact Nat.lt_irrefl _), if_pos (.inr hshort)]
    · rw [if_pos (by omega), if_neg (by rintro (h | h); exacts [Bool.false_ne_true h, hshort h])]
  | cons ch src ih =>
    have hgo : u16Length < len := by
      by_cases hshort : len < 65536
      · rw [← hlen hshort, List.length_cons]
        omega
      · omega
    have hnext : len < 65536 → u16 (u16Length + 1) + src.length = len := by
      intro hshort
      have hsum := hlen hshort
      rw [List.length_cons] at hsum
      unfold u16
      omega
    rw [processLoop, if_pos hgo, scan_cons]
    cases w.octet ch with
    | next w' => exact ih (hmod _) hnext
    | emit e w' =>
      dsimp only
      rw [ih (hmod _) hnext]
      by_cases hreturns : (Scanner.scan octet w' src).stopped = true ∨ len < 65536
      · rw [if_pos hreturns]
        exact (if_pos hreturns).symm
      · rw [if_neg hreturns]
        exact (if_neg hreturns).symm
    | stop w' => exact (if_pos (.inl rfl)).symm

/-- A read. -/
theorem process_eq (w : MdRxWatcher) (buf : List UInt8) :
    w.process buf =
      if (Scanner.scan octet w buf).stopped = true ∨ buf.length < 65536 then
        some ((Scanner.scan octet w buf).final, (Scanner.scan octet w buf).out)
      else none :=
  processLoop_eq (Nat.zero_lt_succ _) fun _ => Nat.zero_add _

end MdRxWatcher

namespace ModemLink

open MdRxWatcher

variable {eComType : ComType} {hasPort : Bool} {memory : Nat → UInt8} {s s' : ModemLink}
  {sofar buf : List UInt8} {fs : List ModemFrame}

/-- The watcher has taken all of `sofar`, and has handed over what it gives. -/
def Took (memory : Nat → UInt8) (sofar : List UInt8) (s : ModemLink) : Prop :=
  scan octet (.new memory) sofar = ⟨s.watcher, s.confirms, false⟩

theorem took_init (eComType : ComType) (hasPort : Bool) (memory : Nat → UInt8) :
    Took memory [] (machine eComType hasPort memory).init := rfl

/-- A read that returns. -/
theorem Took.read (h : Took memory sofar s)
    (hread : ModemLink.read eComType hasPort s buf = some s') :
    ((scan octet (.new memory) (sofar ++ buf)).stopped = true ∨ buf.length < 65536) ∧
      s'.watcher = (scan octet (.new memory) (sofar ++ buf)).final ∧
        s'.confirms = (scan octet (.new memory) (sofar ++ buf)).out := by
  rw [ModemLink.read, process_eq] at hread
  rw [scan_append h]
  by_cases hreturns : (scan octet s.watcher buf).stopped = true ∨ buf.length < 65536
  · rw [if_pos hreturns] at hread
    obtain rfl := Option.some.inj hread
    exact ⟨hreturns, rfl, rfl⟩
  · rw [if_neg hreturns] at hread
    cases hread

/-- Where the watcher is not stopped it has taken the read. -/
theorem Took.next (h : Took memory sofar s)
    (hread : ModemLink.read eComType hasPort s buf = some s')
    (hgo : (scan octet (.new memory) (sofar ++ buf)).stopped = false) :
    Took memory (sofar ++ buf) s' := by
  obtain ⟨-, hwatcher, hconfirms⟩ := h.read hread
  rw [Took, hwatcher, hconfirms, ← hgo]

/-- Reads that return. -/
theorem Took.run {reads : List (List UInt8)} (h : Took memory sofar s)
    (hrun : (machine eComType hasPort memory).run s reads = some s')
    (hgo : (scan octet (.new memory) (sofar ++ reads.flatten)).stopped = false) :
    Took memory (sofar ++ reads.flatten) s' := by
  induction reads generalizing s sofar with
  | nil =>
    obtain rfl := Option.some.inj hrun
    rwa [List.flatten_nil, List.append_nil]
  | cons buf reads ih =>
    obtain ⟨s₁, hstep, hrest⟩ := (Machine.run_cons_eq_some _).mp hrun
    rw [List.flatten_cons, ← List.append_assoc] at hgo ⊢
    exact ih (h.next hstep (by rw [scan_of_append hgo])) hrest hgo

/-- Short reads return. -/
theorem exists_run (eComType : ComType) (hasPort : Bool) (memory : Nat → UInt8)
    {reads : List (List UInt8)} (hshort : ∀ buf ∈ reads, buf.length ≤ 65535) (s : ModemLink) :
    ∃ s', (machine eComType hasPort memory).run s reads = some s' := by
  induction reads generalizing s with
  | nil => exact ⟨s, rfl⟩
  | cons buf reads ih =>
    obtain ⟨hbuf, hrest⟩ := List.forall_mem_cons.mp hshort
    have hread : ∃ s₁, ModemLink.read eComType hasPort s buf = some s₁ := by
      rw [ModemLink.read, process_eq, if_pos (.inr (Nat.lt_succ_of_le hbuf))]
      exact ⟨_, rfl⟩
    obtain ⟨s₁, hread⟩ := hread
    obtain ⟨s', hrun⟩ := ih hrest s₁
    exact ⟨s', (Machine.run_cons_eq_some _).mpr ⟨s₁, hread, hrun⟩⟩

/-- What is written is what is handed over. -/
theorem writes_eq {reads : List (List UInt8)}
    (hrun : (machine eComType hasPort memory).run (machine eComType hasPort memory).init reads =
      some s) : s.writes = s.confirms.flatMap (processMDConfirm eComType hasPort) := by
  have hstep : ∀ s buf s', s.writes = s.confirms.flatMap (processMDConfirm eComType hasPort) →
      (machine eComType hasPort memory).step s buf = some s' →
        s'.writes = s'.confirms.flatMap (processMDConfirm eComType hasPort) := by
    intro s buf s' h hread
    change Option.map _ (s.watcher.process buf) = some s' at hread
    rw [Option.map_eq_some_iff] at hread
    obtain ⟨r, -, rfl⟩ := hread
    dsimp only
    rw [List.flatMap_append, h]
  exact Machine.invariant _ hstep rfl hrun

/-- What is written for the confirms. -/
def Written (eComType : ComType) (s : ModemLink) : Prop :=
  (eComType = .usb ∨ eComType = .socket → s.writes = s.confirms) ∧
    (eComType = .uart → s.writes.flatten = s.confirms.flatten.flatMap uartEscape)

theorem written_of_writes (h : s.writes = s.confirms.flatMap (processMDConfirm eComType true)) :
    Written eComType s := by
  rw [Written, h]
  constructor
  · intro hcom
    rw [funext (processMDConfirm_unchanged hcom)]
    exact List.flatMap_singleton' s.confirms
  · rintro rfl
    induction s.confirms with
    | nil => rfl
    | cons e es ih =>
      rw [List.flatMap_cons, List.flatten_append, ih, processMDConfirm_uart, List.flatten_cons,
        List.flatMap_append]

end ModemLink

/-! ## The link -/

/-- At the end of every read what has been handed over is what was sent for the frames completely
received so far, each once and in order, and is written as it is or escaped. -/
def Forwarded (eComType : ComType) (hasPort : Bool) (memory : Nat → UInt8) (fs : List ModemFrame)
    (reads : List (List UInt8)) : Prop :=
  ∀ before, before <+: reads → ∃ s,
    (ModemLink.machine eComType hasPort memory).run
      (ModemLink.machine eComType hasPort memory).init before = some s ∧
    s.confirms = (completed ModemFrame.wire fs before.flatten.length).map ModemFrame.wire ∧
    (hasPort = true → ModemLink.Written eComType s)

variable {eComType : ComType} {hasPort : Bool} {memory : Nat → UInt8} {fs : List ModemFrame}
  {reads : List (List UInt8)}

/-- The start state. -/
theorem reset_new (memory : Nat → UInt8) : (MdRxWatcher.new memory).Reset := ⟨rfl, rfl⟩

/-- Frames that are forwarded are counted right. -/
theorem Forwarded.counted (hfs : ∀ f ∈ fs, f.WellFormed)
    (hsent : reads.flatten = fs.flatMap ModemFrame.wire)
    (h : Forwarded eComType hasPort memory fs reads) : ∀ f ∈ fs, f.Counted := by
  cases hfind : fs.find? fun f => decide ¬ f.Counted with
  | none =>
    intro f hf
    have hnot := List.find?_eq_none.mp hfind f hf
    rwa [decide_eq_true_eq, not_not] at hnot
  | some f =>
    -- The first frame that is counted wrong, and the read that completes it.
    obtain ⟨hcounted, a, b, rfl, ha⟩ := List.find?_eq_some_iff_append.mp hfind
    have hcounted : ¬ f.Counted := of_decide_eq_true hcounted
    have hcountedA : ∀ g ∈ a, g.WellFormed ∧ g.Counted := by
      intro g hg
      have hnot := ha g hg
      rw [Bool.not_eq_true', decide_eq_false_iff_not, not_not] at hnot
      exact ⟨hfs g (List.mem_append_left _ hg), hnot⟩
    have hf := hfs f (List.mem_append_right _ List.mem_cons_self)
    have hb : ∀ g ∈ b, g.WellFormed := fun g hg =>
      hfs g (List.mem_append_right _ (List.mem_cons_of_mem f hg))
    rw [List.append_cons a f b] at hsent
    have hpos : 0 < ((a ++ [f]).flatMap ModemFrame.wire).length := by
      rw [List.flatMap_append, List.flatMap_singleton]
      exact List.length_pos_iff.mpr (List.append_ne_nil_of_right_ne_nil _ f.wire_ne_nil)
    have hlen : ((a ++ [f]).flatMap ModemFrame.wire).length ≤ reads.flatten.length := by
      have hprefix := List.prefix_append ((a ++ [f]).flatMap ModemFrame.wire)
        (b.flatMap ModemFrame.wire)
      rw [← List.flatMap_append, ← hsent] at hprefix
      exact hprefix.length_le
    obtain ⟨before, buf, after, rfl, hlt, hle⟩ := exists_piece hpos hlen
    obtain ⟨s, hrun, -⟩ := h before (List.prefix_append _ _)
    obtain ⟨s', hrun', hconfirms, -⟩ := h (before ++ [buf]) ⟨after, (List.append_cons ..).symm⟩
    have hfirst : before.flatten <+: (a ++ [f]).flatMap ModemFrame.wire := by
      refine List.prefix_of_prefix_length_le ?_ (List.prefix_append _ (b.flatMap ModemFrame.wire))
        (Nat.le_of_lt hlt)
      rw [← List.flatMap_append, ← hsent, List.flatten_append]
      exact List.prefix_append _ _
    have htook := (ModemLink.took_init eComType hasPort memory).run hrun
      (MdRxWatcher.scan_not_stopped (reset_new memory) hcountedA hf hcounted hfirst)
    rw [List.nil_append] at htook
    obtain ⟨s₁, hrun₁, hlast⟩ := (Machine.run_snoc_eq_some _).mp hrun'
    obtain rfl : s = s₁ := Option.some.inj (hrun.symm.trans hrun₁)
    obtain ⟨-, -, hout⟩ := htook.read hlast
    exfalso
    refine MdRxWatcher.lost_stream (reset_new memory) (MdRxWatcher.expects_new memory) hcountedA hf
      hcounted hb ⟨after.flatten, ?_⟩ hle ?_
    · rw [← hsent, ← List.flatten_append, ← List.append_cons]
    · rw [← List.append_cons, ← hconfirms, hout, List.flatten_append, List.flatten_singleton]

/-- **The watcher forwards what has been received.**  For every sequence of well-formed frames and
every way to cut what is sent for them into reads, at the end of every read the confirms handed
over and written are those completely received so far, exactly if the watcher counts all the
frames right and no read has more than 65535 octets. -/
theorem forwarded_iff (eComType : ComType) (hasPort : Bool) (memory : Nat → UInt8)
    (hfs : ∀ f ∈ fs, f.WellFormed) (hsent : reads.flatten = fs.flatMap ModemFrame.wire) :
    Forwarded eComType hasPort memory fs reads ↔
      (∀ f ∈ fs, f.Counted) ∧ ∀ buf ∈ reads, buf.length ≤ 65535 := by
  constructor
  · intro h
    have hcounted := h.counted hfs hsent
    refine ⟨hcounted, fun buf hbuf => ?_⟩
    obtain ⟨before, after, rfl⟩ := List.append_of_mem hbuf
    have hgo : ∀ sofar, sofar <+: fs.flatMap ModemFrame.wire →
        (scan MdRxWatcher.octet (.new memory) sofar).stopped = false := by
      intro sofar hsofar
      obtain ⟨w', hscan⟩ := MdRxWatcher.scan_stream (reset_new memory)
        (fun f hf => ⟨hfs f hf, hcounted f hf⟩) hsofar
      rw [hscan]
    rw [List.flatten_append, List.flatten_cons] at hsent
    obtain ⟨s', hrun', -⟩ := h (before ++ [buf]) ⟨after, (List.append_cons ..).symm⟩
    obtain ⟨s, hrun, hlast⟩ := (Machine.run_snoc_eq_some _).mp hrun'
    have htook := (ModemLink.took_init eComType hasPort memory).run hrun
      (hgo _ ⟨buf ++ after.flatten, hsent⟩)
    rw [List.nil_append] at htook
    rw [← List.append_assoc] at hsent
    rcases (htook.read hlast).1 with hstopped | hshort
    · rw [hgo _ ⟨after.flatten, hsent⟩] at hstopped
      cases hstopped
    · exact Nat.le_of_lt_succ hshort
  · rintro ⟨hcounted, hshort⟩ before hbefore
    obtain ⟨s, hrun⟩ := ModemLink.exists_run eComType hasPort memory
      (fun buf hbuf => hshort buf (hbefore.subset hbuf))
      (ModemLink.machine eComType hasPort memory).init
    obtain ⟨after, rfl⟩ := hbefore
    rw [List.flatten_append] at hsent
    obtain ⟨w', hscan⟩ := MdRxWatcher.scan_stream (reset_new memory)
      (fun f hf => ⟨hfs f hf, hcounted f hf⟩) ⟨after.flatten, hsent⟩
    have htook := (ModemLink.took_init eComType hasPort memory).run hrun (by
      rw [List.nil_append, hscan])
    rw [ModemLink.Took, List.nil_append, hscan] at htook
    refine ⟨s, hrun, (Scanned.mk.inj htook).2.1.symm, ?_⟩
    rintro rfl
    exact ModemLink.written_of_writes (ModemLink.writes_eq hrun)

/-! ## Two frames, and a long one -/

/-- A frame with an octet that is escaped twice, and one of layer 1. -/
def twoFrames : List ModemFrame := [.ps [0xA5, 0x11], .l1 [0x5A]]

/-- The two frames over UART, in two reads that are cut within an escape pair. -/
theorem forwarded_two_frames :
    Forwarded .uart true (fun _ => 0) twoFrames
      [(twoFrames.flatMap ModemFrame.wire).take 4, (twoFrames.flatMap ModemFrame.wire).drop 4] := by
  refine (forwarded_iff .uart true (fun _ => 0) ?_ ?_).mpr ⟨?_, ?_⟩
  · simp only [twoFrames, List.forall_mem_cons]
    exact ⟨⟨by decide, by decide⟩, ⟨by decide, by decide⟩, fun _ h => absurd h List.not_mem_nil⟩
  · decide
  · decide
  · decide

/-- A frame with 23040 zeroes: the high octet of its length field is the key word. -/
def longFrame : ModemFrame := .ps (List.replicate 0x5A00 0)

theorem longFrame_wellFormed : longFrame.WellFormed := by
  refine ⟨fun _ h => List.replicate_succ_ne_nil h, ?_⟩
  have hzeros :
      (List.replicate 0x5A00 0).flatMap (escape STX_L1_OCTET) = List.replicate 0x5A00 0 := by
    have hzero : escape STX_L1_OCTET 0 = [0] := by decide
    rw [List.flatMap_replicate, hzero, List.flatten_replicate_singleton]
  have hoctets : longFrame.octets = hi 0x5A00 :: lo 0x5A00 :: List.replicate 0x5A00 0 := by
    rw [ModemFrame.octets, longFrame, ModemFrame.len1, ModemFrame.len2, ModemFrame.content,
      List.length_replicate]
  have henc : longFrame.enc = escape STX_L1_OCTET := rfl
  have hhi := length_escape_le STX_L1_OCTET (hi 0x5A00)
  have hlo := length_escape_le STX_L1_OCTET (lo 0x5A00)
  have hsum := length_escape_le STX_L1_OCTET (longFrame.sum longFrame.octets)
  rw [ModemFrame.wire, List.length_cons, List.flatMap_append, List.flatMap_singleton,
    List.length_append, henc, hoctets, List.flatMap_cons, List.flatMap_cons, hzeros,
    List.length_append, List.length_append, List.length_replicate, ← hoctets]
  omega

theorem longFrame_not_counted : ¬ longFrame.Counted := by
  intro h
  have hpair := h.1
  rw [longFrame, ModemFrame.len1, ModemFrame.enc, List.length_replicate] at hpair
  exact absurd hpair (by decide)

/-- The long frame in one read is not forwarded: the pair of its length field is not counted. -/
theorem not_forwarded_long :
    (∀ f ∈ [longFrame], f.WellFormed) ∧
      [longFrame.wire].flatten = [longFrame].flatMap ModemFrame.wire ∧
      ¬ Forwarded .usb true (fun _ => 0) [longFrame] [longFrame.wire] := by
  have hfs : ∀ f ∈ [longFrame], f.WellFormed := List.forall_mem_singleton.mpr longFrame_wellFormed
  have hsent : [longFrame.wire].flatten = [longFrame].flatMap ModemFrame.wire := by
    rw [List.flatten_singleton, List.flatMap_singleton]
  refine ⟨hfs, hsent, fun h => longFrame_not_counted ?_⟩
  exact h.counted hfs hsent longFrame List.mem_cons_self

end MtkHw.Meta
