import MtkHw.Meta.ModemConfirm

/-!
# What a modem's watcher hands over, by length

The watcher hands over what it has stored, and so never more than it has got.  Where it has
stored octets that begin no frame it cannot make up for them: of the frames that it is asked for
it hands over fewer octets than it gets from then on, unless it hands over none (`weight_feed`).

`feed` is what a run of reads does, whether or not each of them returns: where the watcher is
stopped by a length field, the rest of the read is lost.
-/

namespace MtkHw.Meta

open Lib Ring Scanner

/-! ## Reads -/

namespace MdRxWatcher

/-- A stream keeps what the watcher expects. -/
theorem Expects.of_scan {w : MdRxWatcher} {x : List UInt8} {r : Scanned MdRxWatcher (List UInt8)}
    (h : w.Expects) (hscan : scan octet w x = r) : r.final.Expects :=
  hscan ▸ (scan_expects h x).1

/-- What reads lead to, and what is handed over for them. -/
def feed : MdRxWatcher → List (List UInt8) → MdRxWatcher × List (List UInt8)
  | w, [] => (w, [])
  | w, buf :: reads =>
      let r := feed (scan octet w buf).final reads
      (r.1, (scan octet w buf).out ++ r.2)

variable {w w' : MdRxWatcher} {ch : UInt8} {x : List UInt8} {reads : List (List UInt8)}

theorem feed_cons (w : MdRxWatcher) (buf : List UInt8) (reads : List (List UInt8)) :
    w.feed (buf :: reads) = (((scan octet w buf).final.feed reads).1,
      (scan octet w buf).out ++ ((scan octet w buf).final.feed reads).2) := rfl

/-- A read that begins with `x`, at whose last octet the watcher is not stopped. -/
theorem feed_append {out : List (List UInt8)} (h : scan octet w x = ⟨w', out, false⟩)
    (buf : List UInt8) (reads : List (List UInt8)) :
    w.feed ((x ++ buf) :: reads) =
      ((w'.feed (buf :: reads)).1, out ++ (w'.feed (buf :: reads)).2) := by
  rw [feed_cons, feed_cons, scan_append h, Scanned.after, List.append_assoc]

/-- The beginning of a stream, in reads, that does not stop the watcher. -/
theorem exists_feed {y : List UInt8} {out : List (List UInt8)}
    (h : scan octet w x = ⟨w', out, false⟩) (hreads : reads.flatten = x ++ y) :
    ∃ reads', reads'.flatten = y ∧ (∀ n, (∀ buf ∈ reads, buf.length ≤ n) →
        ∀ buf ∈ reads', buf.length ≤ n) ∧
      w.feed reads = ((w'.feed reads').1, out ++ (w'.feed reads').2) := by
  induction reads generalizing w x out with
  | nil =>
    obtain ⟨rfl, rfl⟩ := List.append_eq_nil_iff.mp hreads.symm
    cases h
    exact ⟨[], rfl, fun _ h => h, rfl⟩
  | cons buf reads ih =>
    rw [List.flatten_cons] at hreads
    rcases List.append_eq_append_iff.mp hreads with ⟨rest, rfl, hrest⟩ | ⟨rest, rfl, hrest⟩
    · -- The whole read is a part of the beginning.
      have hfirst := scan_of_append (by rw [h] : (scan octet w (buf ++ rest)).stopped = false)
      have hlast := scan_append hfirst rest
      rw [h] at hlast
      obtain ⟨hfinal, hout, hgo⟩ := Scanned.mk.inj hlast
      have hsecond : scan octet (scan octet w buf).final rest =
          ⟨w', (scan octet (scan octet w buf).final rest).out, false⟩ := by
        rw [hfinal, hgo]
      obtain ⟨reads', hy, hshort, hfeed⟩ := ih hsecond hrest
      refine ⟨reads', hy, fun n hn => hshort n (List.forall_mem_cons.mp hn).2, ?_⟩
      rw [feed_cons, hfeed, hout, List.append_assoc]
    · -- The beginning ends in this read.
      refine ⟨rest :: reads, ?_, fun n hn => ?_, feed_append h rest reads⟩
      · rw [List.flatten_cons, hrest]
      · obtain ⟨hbuf, hlater⟩ := List.forall_mem_cons.mp hn
        rw [List.length_append] at hbuf
        exact List.forall_mem_cons.mpr ⟨(Nat.le_add_left _ _).trans hbuf, hlater⟩

/-- Behind an octet that stops the watcher, the rest of its read is lost. -/
theorem exists_feed_of_stop {y : List UInt8} (h : w.octet ch = .stop w')
    (hreads : reads.flatten = ch :: y) :
    ∃ reads', reads'.flatten.length ≤ y.length ∧ w.feed reads = w'.feed reads' := by
  induction reads with
  | nil => cases hreads
  | cons buf reads ih =>
    rw [List.flatten_cons] at hreads
    cases buf with
    | nil =>
      obtain ⟨reads', hle, hfeed⟩ := ih hreads
      exact ⟨reads', hle, hfeed⟩
    | cons ch' buf =>
      obtain ⟨rfl, rfl⟩ := List.cons.inj hreads
      refine ⟨reads, ?_, ?_⟩
      · exact (List.suffix_append buf reads.flatten).length_le
      · rw [feed_cons, scan_of_stop h]
        rfl

/-! ## Octets that stop the watcher -/

theorem switch_stop (h : w.switch ch = .stop w') :
    w'.m_bufLen = w.m_bufLen ∧ w'.m_frmBuf = w.m_frmBuf := by
  unfold switch at h
  cases hstat : w.m_frmStat with
  | lenLo =>
    rw [hstat] at h
    dsimp only at h
    generalize u16 (w.m_frmLen + if w.m_bL1Header then ch.toNat * 256 else ch.toNat) = m_frmLen
      at h
    split_ifs at h
    cases h
    exact ⟨rfl, rfl⟩
  | checksum =>
    rw [hstat] at h
    dsimp only at h
    split_ifs at h
  | _ =>
    rw [hstat] at h
    cases h

/-- An octet that stops the watcher is stored. -/
theorem octet_stop (h : w.octet ch = .stop w') :
    w'.m_bufLen = u16 (w.m_bufLen + 1) ∧ w'.m_frmBuf = blit w.m_frmBuf w.m_bufLen [ch] := by
  unfold octet at h
  split at h
  · dsimp only at h
    split at h
    · cases h
    · exact switch_stop h
  · split at h
    · cases h
    · split at h
      · exact switch_stop h
      · exact switch_stop h

/-! ## Lengths -/

variable {G : List (List UInt8)} {bad : List UInt8} {n m : Nat} {out : List (List UInt8)}

/-- How many octets of the frames `G` have been handed over. -/
def weight (G out : List (List UInt8)) : Nat := (out.filter fun e => decide (e ∈ G)).flatten.length

theorem weight_append (G out out' : List (List UInt8)) :
    weight G (out ++ out') = weight G out + weight G out' := by
  rw [weight, List.filter_append, List.flatten_append, List.length_append]
  rfl

theorem weight_of_notMem {e : List UInt8} (h : e ∉ G) : weight G [e] = 0 := by
  rw [weight, List.filter_cons_of_neg (by simpa using h)]
  rfl

theorem weight_singleton_le (G : List (List UInt8)) (e : List UInt8) : weight G [e] ≤ e.length := by
  by_cases h : e ∈ G
  · rw [weight, List.filter_cons_of_pos (by simpa using h), List.flatten_cons, List.length_append]
    exact Nat.le_refl _
  · rw [weight_of_notMem h]
    exact Nat.zero_le _

/-- An octet in any state, with the counts of the buffer. -/
theorem octet_counts (h : w.Expects) (ch : UInt8) :
    match w.octet ch with
    | .next w' => w'.Expects ∧ (w'.Reset ∨ (w'.m_bufLen = u16 (w.m_bufLen + 1) ∧
        w'.m_frmBuf = blit w.m_frmBuf w.m_bufLen [ch]))
    | .emit e w' => w'.Expects ∧ w'.Reset ∧
        e = slice (blit w.m_frmBuf w.m_bufLen [ch]) 0 (u16 (w.m_bufLen + 1))
    | .stop w' => w'.Expects ∧ w'.m_bufLen = u16 (w.m_bufLen + 1) ∧
        w'.m_frmBuf = blit w.m_frmBuf w.m_bufLen [ch] := by
  have hdoes := octet_does h ch
  cases hturn : w.octet ch with
  | next w' =>
    rw [hturn] at hdoes
    exact hdoes
  | emit e w' =>
    rw [hturn] at hdoes
    exact hdoes
  | stop w' =>
    rw [hturn] at hdoes
    exact ⟨hdoes, octet_stop hturn⟩

/-- A condition on the octets that have come, on the watcher and on what it has handed over, that
any octet keeps, is kept by reads.  An octet that stops the watcher takes the rest of its read
along. -/
theorem feed_induction {P : List UInt8 → MdRxWatcher → List (List UInt8) → Prop}
    (hoctet : ∀ taken w out ch, P taken w out →
      match w.octet ch with
      | .next w' => P (taken ++ [ch]) w' out
      | .emit e w' => P (taken ++ [ch]) w' (out ++ [e])
      | .stop w' => ∀ x, P (taken ++ ch :: x) w' out)
    (taken : List UInt8) (h : P taken w out) (reads : List (List UInt8)) :
    P (taken ++ reads.flatten) (w.feed reads).1 (out ++ (w.feed reads).2) := by
  have hscan : ∀ (x : List UInt8) taken w out, P taken w out →
      P (taken ++ x) (scan octet w x).final (out ++ (scan octet w x).out) := by
    intro x
    induction x with
    | nil =>
      intro taken w out h
      rwa [scan_nil, List.append_nil, List.append_nil]
    | cons ch x ih =>
      intro taken w out h
      have hnext := hoctet taken w out ch h
      rw [scan_cons]
      cases hturn : w.octet ch with
      | next w' =>
        rw [hturn] at hnext
        rw [List.append_cons]
        exact ih _ _ _ hnext
      | emit e w' =>
        rw [hturn] at hnext
        have hrest := ih _ _ _ hnext
        rwa [List.append_assoc out, ← List.append_cons] at hrest
      | stop w' =>
        rw [hturn] at hnext
        exact (List.append_nil out).symm ▸ hnext x
  induction reads generalizing taken w out with
  | nil =>
    change P (taken ++ []) w (out ++ [])
    rwa [List.append_nil, List.append_nil]
  | cons buf reads ih =>
    have hrest := ih _ (hscan buf taken w out h)
    rw [List.flatten_cons, ← List.append_assoc, feed_cons, ← List.append_assoc]
    exact hrest

/-- The same for a condition on the number of octets, that more octets do not hurt. -/
theorem feed_length_induction {P : Nat → MdRxWatcher → List (List UInt8) → Prop}
    (hmono : ∀ n m w out, n ≤ m → P n w out → P m w out)
    (hoctet : ∀ n w out ch, P n w out →
      match w.octet ch with
      | .next w' => P (n + 1) w' out
      | .emit e w' => P (n + 1) w' (out ++ [e])
      | .stop w' => P (n + 1) w' out)
    (h : P n w out) (reads : List (List UInt8)) :
    P (n + reads.flatten.length) (w.feed reads).1 (out ++ (w.feed reads).2) := by
  refine feed_induction (P := fun taken w out => P (n + taken.length) w out)
    (fun taken w out ch h => ?_) [] h reads
  have hnext := hoctet _ w out ch h
  have hlen : n + (taken ++ [ch]).length = n + taken.length + 1 := by
    rw [List.length_append]
    rfl
  rw [hlen]
  cases hturn : w.octet ch with
  | next w' =>
    rw [hturn] at hnext
    exact hnext
  | emit e w' =>
    rw [hturn] at hnext
    exact hnext
  | stop w' =>
    rw [hturn] at hnext
    refine fun x => hmono _ _ _ _ ?_ hnext
    rw [List.length_append, List.length_cons]
    omega

/-- The watcher has handed over and stored no more than the `n` octets that it has got. -/
structure Bounded (G : List (List UInt8)) (n : Nat) (w : MdRxWatcher) (out : List (List UInt8)) :
    Prop where
  expects : w.Expects
  le : weight G out + w.m_bufLen ≤ n

theorem Bounded.octet (h : Bounded G n w out) (ch : UInt8) :
    match w.octet ch with
    | .next w' => Bounded G (n + 1) w' out
    | .emit e w' => Bounded G (n + 1) w' (out ++ [e])
    | .stop w' => Bounded G (n + 1) w' out := by
  have hcounts := octet_counts h.expects ch
  have hmod : u16 (w.m_bufLen + 1) ≤ w.m_bufLen + 1 := Nat.mod_le _ _
  have hle := h.le
  cases hturn : w.octet ch with
  | next w' =>
    rw [hturn] at hcounts
    refine ⟨hcounts.1, ?_⟩
    rcases hcounts.2 with hreset | ⟨hbufLen, -⟩
    · rw [hreset.2]
      omega
    · rw [hbufLen]
      omega
  | emit e w' =>
    rw [hturn] at hcounts
    obtain ⟨hexpects, hreset, rfl⟩ := hcounts
    refine ⟨hexpects, ?_⟩
    have hweight := weight_singleton_le G
      (slice (blit w.m_frmBuf w.m_bufLen [ch]) 0 (u16 (w.m_bufLen + 1)))
    rw [length_slice] at hweight
    rw [weight_append, hreset.2]
    omega
  | stop w' =>
    rw [hturn] at hcounts
    refine ⟨hcounts.1, ?_⟩
    rw [hcounts.2.1]
    omega

/-- Reads: the watcher hands over no more octets than it had stored, and gets. -/
theorem weight_feed_le (h : w.Expects) (reads : List (List UInt8)) :
    weight G (w.feed reads).2 ≤ w.m_bufLen + reads.flatten.length := by
  have hstart : Bounded G w.m_bufLen w [] := ⟨h, Nat.le_of_eq (Nat.zero_add _)⟩
  have hend := feed_length_induction (P := Bounded G)
    (fun n m w out hle h => ⟨h.expects, h.le.trans hle⟩)
    (fun n w out ch h => h.octet ch) hstart reads
  exact (Nat.le_add_right _ _).trans hend.le

/-- The watcher has stored the octets `bad` before what it has got, or has lost an octet of the
`n` that it has got. -/
structure Astray (G : List (List UInt8)) (bad : List UInt8) (n : Nat) (w : MdRxWatcher)
    (out : List (List UInt8)) : Prop where
  expects : w.Expects
  lost : (weight G out = 0 ∧ ∃ z, z.length ≤ n ∧ Holds w.m_frmBuf w.m_bufLen (bad ++ z)) ∨
    weight G out + w.m_bufLen < n

theorem Bounded.astray (h : Bounded G n w out) : Astray G bad (n + 1) w out :=
  ⟨h.expects, .inr (Nat.lt_succ_of_le h.le)⟩

theorem Astray.mono (h : Astray G bad n w out) (hle : n ≤ m) : Astray G bad m w out := by
  refine ⟨h.expects, ?_⟩
  rcases h.lost with ⟨hweight, z, hz, hholds⟩ | hlt
  · exact .inl ⟨hweight, z, hz.trans hle, hholds⟩
  · exact .inr (hlt.trans_le hle)

/-- What is handed over with `bad` before it is none of the frames, or has gone round. -/
theorem weight_slice_lt {frmBuf : Nat → UInt8} {bufLen : Nat} {z : List UInt8}
    (hbad : ∀ z, z ≠ [] → bad ++ z ∉ G) (hfits : bad.length < 65536) (hz : z ≠ [])
    (h : Holds frmBuf bufLen (bad ++ z)) : weight G [slice frmBuf 0 bufLen] < z.length := by
  obtain ⟨hbufLen, hslice⟩ := h
  have hpos := List.length_pos_iff.mpr hz
  have hlength : (bad ++ z).length = bad.length + z.length := List.length_append
  by_cases hlt : (bad ++ z).length < 65536
  · rw [hbufLen, u16, Nat.mod_eq_of_lt hlt, hslice hlt, weight_of_notMem (hbad z hz)]
    exact hpos
  · have hweight := weight_singleton_le G (slice frmBuf 0 bufLen)
    rw [length_slice] at hweight
    unfold u16 at hbufLen
    omega

theorem Astray.octet (hbad : ∀ z, z ≠ [] → bad ++ z ∉ G) (hfits : bad.length < 65536)
    (h : Astray G bad n w out) (ch : UInt8) :
    match w.octet ch with
    | .next w' => Astray G bad (n + 1) w' out
    | .emit e w' => Astray G bad (n + 1) w' (out ++ [e])
    | .stop w' => Astray G bad (n + 1) w' out := by
  rcases h.lost with ⟨hweight, z, hz, hholds⟩ | hlt
  · have hcounts := octet_counts h.expects ch
    have hpush := hholds.push ch
    rw [List.append_assoc] at hpush
    have hlen : (z ++ [ch]).length = z.length + 1 := List.length_append
    have hz' : (z ++ [ch]).length ≤ n + 1 := hlen.trans_le (Nat.succ_le_succ hz)
    cases hturn : w.octet ch with
    | next w' =>
      rw [hturn] at hcounts
      refine ⟨hcounts.1, ?_⟩
      rcases hcounts.2 with hreset | ⟨hbufLen, hfrmBuf⟩
      · right
        rw [hweight, hreset.2]
        exact Nat.succ_pos n
      · left
        rw [hbufLen, hfrmBuf]
        exact ⟨hweight, z ++ [ch], hz', hpush⟩
    | emit e w' =>
      rw [hturn] at hcounts
      obtain ⟨hexpects, hreset, rfl⟩ := hcounts
      refine ⟨hexpects, .inr ?_⟩
      have hne : z ++ [ch] ≠ [] := List.append_ne_nil_of_right_ne_nil z (List.cons_ne_nil _ _)
      have hlt := weight_slice_lt hbad hfits hne hpush
      rw [weight_append, hweight, hreset.2]
      omega
    | stop w' =>
      rw [hturn] at hcounts
      obtain ⟨hexpects, hbufLen, hfrmBuf⟩ := hcounts
      refine ⟨hexpects, .inl ?_⟩
      rw [hbufLen, hfrmBuf]
      exact ⟨hweight, z ++ [ch], hz', hpush⟩
  · obtain ⟨k, rfl⟩ : ∃ k, n = k + 1 := ⟨n - 1, by omega⟩
    have hbounded : Bounded G k w out := ⟨h.expects, Nat.le_of_lt_succ hlt⟩
    have hnext := hbounded.octet ch
    cases hturn : w.octet ch with
    | next w' =>
      rw [hturn] at hnext
      exact hnext.astray
    | emit e w' =>
      rw [hturn] at hnext
      exact hnext.astray
    | stop w' =>
      rw [hturn] at hnext
      exact hnext.astray

/-- **Reads, behind octets that begin no frame**: of the frames none is handed over, or fewer
octets than come. -/
theorem weight_feed_lt (hbad : ∀ z, z ≠ [] → bad ++ z ∉ G) (hfits : bad.length < 65536)
    (h : w.Expects) (hholds : Holds w.m_frmBuf w.m_bufLen bad) (reads : List (List UInt8)) :
    weight G (w.feed reads).2 = 0 ∨ weight G (w.feed reads).2 < reads.flatten.length := by
  have hstart : Astray G bad 0 w [] := by
    refine ⟨h, .inl ⟨rfl, [], Nat.le_refl 0, ?_⟩⟩
    rwa [List.append_nil]
  have hend := feed_length_induction (P := Astray G bad) (fun n m w out hle h => h.mono hle)
    (fun n w out ch h => h.octet hbad hfits ch) hstart reads
  rw [Nat.zero_add, List.nil_append] at hend
  rcases hend.lost with ⟨hweight, -⟩ | hlt
  · exact .inl hweight
  · exact .inr ((Nat.le_add_right _ _).trans_lt hlt)

/-- Reads without octets. -/
theorem feed_of_flatten_eq_nil (h : reads.flatten = []) : w.feed reads = (w, []) := by
  induction reads with
  | nil => rfl
  | cons buf reads ih =>
    obtain ⟨rfl, hrest⟩ := List.append_eq_nil_iff.mp (List.flatten_cons.symm.trans h)
    rw [feed_cons, scan_nil, ih hrest]
    rfl

/-- Reads that do not stop the watcher are taken as one. -/
theorem feed_of_scan (h : scan octet w reads.flatten = ⟨w', out, false⟩) :
    w.feed reads = (w', out) := by
  obtain ⟨reads', hnil, -, hfeed⟩ := exists_feed h (List.append_nil _).symm
  rw [hfeed, feed_of_flatten_eq_nil hnil, List.append_nil]

end MdRxWatcher

/-! ## Runs -/

namespace ModemLink

open MdRxWatcher

variable {eComType : ComType} {hasPort : Bool} {memory : Nat → UInt8} {s s' : ModemLink}
  {buf : List UInt8} {reads : List (List UInt8)}

/-- What a read that returns does. -/
theorem read_feed (hread : ModemLink.read eComType hasPort s buf = some s') :
    ((scan octet s.watcher buf).stopped = true ∨ buf.length < 65536) ∧
      s'.watcher = (scan octet s.watcher buf).final ∧
        s'.confirms = s.confirms ++ (scan octet s.watcher buf).out := by
  rw [ModemLink.read, process_eq] at hread
  split_ifs at hread with hreturns
  · cases hread
    exact ⟨hreturns, rfl, rfl⟩
  · cases hread

/-- What reads that return do. -/
theorem run_feed (hrun : (machine eComType hasPort memory).run s reads = some s') :
    s'.watcher = (s.watcher.feed reads).1 ∧
      s'.confirms = s.confirms ++ (s.watcher.feed reads).2 := by
  induction reads generalizing s with
  | nil =>
    cases hrun
    exact ⟨rfl, (List.append_nil _).symm⟩
  | cons buf reads ih =>
    obtain ⟨s₁, hstep, hrest⟩ := (Machine.run_cons_eq_some _).mp hrun
    obtain ⟨-, hwatcher, hconfirms⟩ := read_feed hstep
    obtain ⟨hfinal, hout⟩ := ih hrest
    rw [feed_cons, ← hwatcher, ← List.append_assoc, ← hconfirms]
    exact ⟨hfinal, hout⟩

/-- Reads that return without stopping the watcher are short. -/
theorem short_of_run (hrun : (machine eComType hasPort memory).run s reads = some s')
    (hgo : (scan octet s.watcher reads.flatten).stopped = false) :
    ∀ buf ∈ reads, buf.length ≤ 65535 := by
  induction reads generalizing s with
  | nil => exact fun _ h => absurd h List.not_mem_nil
  | cons buf reads ih =>
    obtain ⟨s₁, hstep, hrest⟩ := (Machine.run_cons_eq_some _).mp hrun
    obtain ⟨hreturns, hwatcher, -⟩ := read_feed hstep
    rw [List.flatten_cons] at hgo
    have hfirst := scan_of_append hgo
    rw [scan_append hfirst, ← hwatcher] at hgo
    refine List.forall_mem_cons.mpr ⟨?_, ih hrest hgo⟩
    rcases hreturns with hstopped | hshort
    · rw [hfirst] at hstopped
      cases hstopped
    · exact Nat.le_of_lt_succ hshort

/-- Reads keep what the watcher expects. -/
theorem expects_of_run (hrun : (machine eComType hasPort memory).run s reads = some s')
    (h : s.watcher.Expects) : s'.watcher.Expects := by
  have hstep : ∀ s buf s', s.watcher.Expects →
      (machine eComType hasPort memory).step s buf = some s' → s'.watcher.Expects := by
    intro s buf s' h hread
    obtain ⟨-, hwatcher, -⟩ := read_feed hread
    rw [hwatcher]
    exact (scan_expects h buf).1
  exact Machine.invariant _ hstep h hrun

end ModemLink

end MtkHw.Meta
