import MtkHw.Gps.NmeaEpoch
import MtkHw.Lib.Lines

/-!
# The lines of a buffer

What the reader makes of the lines of a buffer.  A line that is too long is dropped up to its end;
but when the end itself is the byte that does not fit, the reader drops up to the next one, and the
following line is lost.  The satellites are reported with the last byte of a buffer when that byte
ends a sentence that is parsed.

`nmeaParserProcess_framesLines_iff` says for which buffers every line that fits is handed on and
the satellites are reported with the last one.
-/

namespace MtkHw.Gps

open Lib.Scanner Lib.Lines

/-- The end of a line. -/
def newline : UInt8 := '\n'.toUInt8

/-- A line that fits, its end included. -/
def fitsLine (line : List UInt8) : Bool := line.length ≤ NMEA_MAX_SIZE

/-- A line of which only the end does not fit. -/
def lateLine (line : List UInt8) : Bool := line.length = NMEA_MAX_SIZE + 1

/-! ## What is handed on -/

/-- The sentence that `nmea_reader_parse` is called with. -/
def parseCall (m : Nmea) (c : UInt8) : Option (List UInt8) :=
  if m.reader.overflow then none
  else if NMEA_MAX_SIZE ≤ m.reader.line.length then none
  else if c = newline then some (m.reader.line ++ [c])
  else none

/-- The sentences that `nmea_reader_parse` is called with, over a buffer. -/
def parseCalls (strtod : List UInt8 → Float) : Nmea → List UInt8 → List (List UInt8)
  | _, [] => []
  | m, c :: cs =>
    (parseCall m c).toList ++ parseCalls strtod (nmeaReaderAddc strtod cs.isEmpty m c) cs

/-- The line of a call of `mnl2hal_nmea`. -/
def NmeaReport.line? : NmeaReport → Option (List UInt8)
  | .nmea line => some line
  | .location _ => none
  | .gpsSv _ => none

/-- A call of `mnl2hal_gps_sv`. -/
def NmeaReport.isGpsSv : NmeaReport → Bool
  | .gpsSv _ => true
  | .location _ => false
  | .nmea _ => false

/-- The lines are handed on, those that fit and no others, and the satellites are reported once
when the buffer ends with a line. -/
structure FramesLines (strtod : List UInt8 → Float) (nmea_cash : Nat → NmeaCash)
    (buffer : List UInt8) : Prop where
  parsed : parseCalls strtod ⟨.init, nmea_cash, []⟩ buffer =
    (lines newline buffer).filter fitsLine
  reported : (mtkMnlNmeaParserProcess strtod nmea_cash buffer).reports.filterMap NmeaReport.line? =
    (lines newline buffer).filter fitsLine
  satellites : (mtkMnlNmeaParserProcess strtod nmea_cash buffer).reports.countP NmeaReport.isGpsSv =
    if buffer.getLast? = some newline then 1 else 0

/-- No line that fits comes after an odd number of lines of which only the end does not fit. -/
def Apart (ls : List (List UInt8)) : Prop :=
  ∀ before line, before ++ [line] <+: ls → fitsLine line = true → ¬ Odd (lateRun lateLine before)

/-- No line of a buffer is lost, and a line at its end fits and is parsed. -/
structure Readable (buffer : List UInt8) : Prop where
  apart : Apart (lines newline buffer)
  last : ∀ line, buffer.getLast? = some newline → (lines newline buffer).getLast? = some line →
    fitsLine line = true ∧ parsable line = true

/-! ## The reader of lines -/

theorem not_fits_of_late (line : List UInt8) (h : lateLine line = true) :
    fitsLine line = false := by
  have hlength : line.length = NMEA_MAX_SIZE + 1 := of_decide_eq_true h
  exact decide_eq_false (by omega)

/-- Bytes inside a line never complete one. -/
theorem scan_tail {text : List UInt8} (h : newline ∉ text) (s : List UInt8 × Bool) :
    (scan lineStep s text).out = [] := by
  induction text generalizing s with
  | nil => rfl
  | cons c cs ih =>
    obtain ⟨hc, hcs⟩ := not_or.mp (mt List.mem_cons.mpr h)
    cases hstep : lineStep s c with
    | next t =>
      rw [scan_of_next hstep]
      exact ih hcs t
    | emit line t =>
      unfold lineStep at hstep
      rw [if_neg (fun heq : c = '\n'.toUInt8 => hc heq.symm)] at hstep
      split at hstep
      · cases hstep
      split at hstep
      · cases hstep
      · cases hstep
    | stop t => exact absurd hstep (lineStep_ne_stop _ _ _)

/-- Dropping goes up to the next end of line. -/
theorem scan_drop {body : List UInt8} (h : newline ∉ body) (line rest : List UInt8) :
    scan lineStep (line, true) (body ++ newline :: rest) = scan lineStep (line, false) rest := by
  induction body with
  | nil =>
    have hstep : lineStep (line, true) newline = .next (line, false) := rfl
    exact scan_of_next hstep rest
  | cons c cs ih =>
    obtain ⟨hc, hcs⟩ := not_or.mp (mt List.mem_cons.mpr h)
    have hstep : lineStep (line, true) c = .next (line, true) := by
      have hend : decide (c ≠ '\n'.toUInt8) = true :=
        decide_eq_true fun heq : c = newline => hc heq.symm
      rw [lineStep, if_pos rfl, hend]
    rw [List.cons_append, scan_of_next hstep]
    exact ih hcs

/-- Bytes that fit are added to the line. -/
theorem scan_add {body : List UInt8} (h : newline ∉ body) (line rest : List UInt8)
    (hroom : line.length + body.length ≤ NMEA_MAX_SIZE) :
    scan lineStep (line, false) (body ++ rest) = scan lineStep (line ++ body, false) rest := by
  induction body generalizing line with
  | nil => rw [List.nil_append, List.append_nil]
  | cons c cs ih =>
    obtain ⟨hc, hcs⟩ := not_or.mp (mt List.mem_cons.mpr h)
    rw [List.length_cons] at hroom
    have hstep : lineStep (line, false) c = .next (line ++ [c], false) := by
      rw [lineStep, if_neg Bool.false_ne_true, if_neg (by dsimp only; omega),
        if_neg (fun heq : c = '\n'.toUInt8 => hc heq.symm)]
    rw [List.cons_append, scan_of_next hstep, ih hcs, List.append_assoc, List.singleton_append]
    rw [List.length_append, List.length_singleton]
    omega

/-- A byte that does not fit is lost, and dropping begins. -/
theorem scan_full {line : List UInt8} (h : NMEA_MAX_SIZE ≤ line.length) (c : UInt8)
    (rest : List UInt8) :
    scan lineStep (line, false) (c :: rest) = scan lineStep ([], true) rest := by
  have hstep : lineStep (line, false) c = .next ([], true) := by
    rw [lineStep, if_neg Bool.false_ne_true, if_pos h]
  exact scan_of_next hstep rest

/-- The bytes are read as their lines are. -/
theorem scan_lines (buffer : List UInt8) (drops : Bool) :
    (scan lineStep ([], drops) buffer).out =
      kept fitsLine lateLine drops (lines newline buffer) := by
  induction buffer using text_induction newline generalizing drops with
  | tail text h => rw [scan_tail h, lines_of_notMem h]; cases drops <;> rfl
  | line body rest h ih =>
    rw [lines_line h]
    cases drops with
    | true => rw [scan_drop h, ih, kept]
    | false =>
      have hlength : (body ++ [newline]).length = body.length + 1 := List.length_append
      rw [kept]
      rcases Nat.lt_trichotomy body.length NMEA_MAX_SIZE with hfits | hlate | hlong
      · have hstep : lineStep (body, false) newline = .emit (body ++ [newline]) ([], false) := by
          rw [lineStep, if_neg Bool.false_ne_true, if_neg (Nat.not_le.mpr hfits), newline,
            if_pos rfl]
        have hpass : fitsLine (body ++ [newline]) = true := decide_eq_true (by rw [hlength]; omega)
        rw [scan_add h [] _ (by rw [List.length_nil]; omega), List.nil_append,
          scan_of_emit hstep, if_pos hpass, ← ih]
        rfl
      · rw [scan_add h [] _ (by rw [List.length_nil]; omega), List.nil_append,
          scan_full (Nat.le_of_eq hlate.symm), ih, if_neg, lateLine, hlength, hlate,
          decide_eq_true rfl]
        rw [fitsLine, hlength, decide_eq_true_iff]
        omega
      · have hmore : newline ∉ body.drop (NMEA_MAX_SIZE + 1) :=
          fun hmem => h (List.mem_of_mem_drop hmem)
        have htake : newline ∉ body.take NMEA_MAX_SIZE := fun hmem => h (List.mem_of_mem_take hmem)
        have hsplit : body ++ newline :: rest = body.take NMEA_MAX_SIZE ++
            body[NMEA_MAX_SIZE] :: (body.drop (NMEA_MAX_SIZE + 1) ++ newline :: rest) := by
          rw [← List.cons_append, ← List.drop_eq_getElem_cons hlong, ← List.append_assoc,
            List.take_append_drop]
        have htaken : (body.take NMEA_MAX_SIZE).length = NMEA_MAX_SIZE :=
          List.length_take_of_le (Nat.le_of_lt hlong)
        rw [hsplit, scan_add htake [] _ (by rw [List.length_nil]; omega), List.nil_append,
          scan_full (Nat.le_of_eq htaken.symm), scan_drop hmore, ih, if_neg, lateLine, hlength,
          decide_eq_false (by omega)]
        rw [fitsLine, hlength, decide_eq_true_iff]
        omega

/-! ## The parser of sentences -/

/-- A byte of `nmea_reader_addc` completes the line that is parsed. -/
theorem parseCall_eq (m : Nmea) (c : UInt8) :
    (parseCall m c).toList = (scan lineStep (lineOf m) [c]).out := by
  unfold parseCall
  split
  · rename_i hover
    have hstep : lineStep (lineOf m) c = .next (m.reader.line, c ≠ '\n'.toUInt8) := if_pos hover
    rw [scan_of_next hstep]
    rfl
  · rename_i hover
    have hover' : ¬ (lineOf m).2 = true := hover
    split
    · rename_i hfull
      have hstep : lineStep (lineOf m) c = .next ([], true) := by
        rw [lineStep, if_neg hover']
        exact if_pos hfull
      rw [scan_of_next hstep]
      rfl
    · rename_i hfull
      have hfull' : ¬ NMEA_MAX_SIZE ≤ (lineOf m).1.length := hfull
      split
      · rename_i hend
        have hstep : lineStep (lineOf m) c = .emit (m.reader.line ++ [c]) ([], false) := by
          rw [lineStep, if_neg hover', if_neg hfull']
          exact if_pos hend
        rw [scan_of_emit hstep]
        rfl
      · rename_i hend
        have hstep : lineStep (lineOf m) c = .next (m.reader.line ++ [c], false) := by
          rw [lineStep, if_neg hover', if_neg hfull']
          exact if_neg hend
        rw [scan_of_next hstep]
        rfl

variable (strtod : List UInt8 → Float)

/-- A sentence by itself reports nothing. -/
theorem parseSentence_reports (m : Nmea) (tzer : List Token) :
    (parseSentence strtod m tzer).reports = m.reports := by
  unfold parseSentence
  dsimp only
  split
  · rfl
  split
  · rw [parseGsa]
    dsimp only
    split <;> rfl
  split
  · rfl
  split
  · rfl
  split
  · rfl
  split
  · rfl
  split <;> rfl

/-- What `nmea_reader_parse` reports is no line, and the satellites once if it gets to the end. -/
theorem parse_reports (m : Nmea) (tag : Bool) :
    (nmeaReaderParse strtod m tag).reports.filterMap NmeaReport.line? =
        m.reports.filterMap NmeaReport.line? ∧
      (nmeaReaderParse strtod m tag).reports.countP NmeaReport.isGpsSv =
        m.reports.countP NmeaReport.isGpsSv +
          if tag = true ∧ parsable m.reader.line = true then 1 else 0 := by
  have hlocation (m : Nmea) :
      (reportLocation m tag).reports.filterMap NmeaReport.line? =
          m.reports.filterMap NmeaReport.line? ∧
        (reportLocation m tag).reports.countP NmeaReport.isGpsSv =
          m.reports.countP NmeaReport.isGpsSv := by
    rw [reportLocation]
    split
    · exact ⟨by rw [List.filterMap_append]; exact List.append_nil _, List.countP_append⟩
    · exact ⟨rfl, rfl⟩
  rw [nmeaReaderParse]
  by_cases hparsable : parsable m.reader.line = true
  · rw [if_pos hparsable]
    obtain ⟨hlines, hcount⟩ := hlocation (parseSentence strtod m (nmeaTokenizerInit m.reader.line))
    rw [parseSentence_reports] at hlines hcount
    dsimp only
    rw [reportSv]
    cases tag with
    | true =>
      rw [if_pos rfl, if_pos ⟨rfl, hparsable⟩]
      dsimp only
      rw [List.filterMap_append, List.countP_append, hlines, hcount]
      exact ⟨List.append_nil _, rfl⟩
    | false =>
      rw [if_neg Bool.false_ne_true, if_neg fun h => Bool.false_ne_true h.1]
      exact ⟨hlines, hcount⟩
  · rw [if_neg hparsable, if_neg fun h => hparsable h.2]
    exact ⟨rfl, rfl⟩

variable {strtod}

/-- A byte that does not end a line reports nothing. -/
theorem addc_reports {m : Nmea} {c : UInt8} {s : List UInt8 × Bool}
    (h : lineStep (lineOf m) c = .next s) (tag : Bool) :
    (nmeaReaderAddc strtod tag m c).reports = m.reports := by
  unfold lineStep lineOf at h
  dsimp only at h
  unfold nmeaReaderAddc
  split
  · rfl
  · rename_i hover
    rw [if_neg hover] at h
    split
    · rfl
    · rename_i hfull
      rw [if_neg hfull] at h
      dsimp only
      split
      · rename_i hend
        rw [if_pos hend] at h
        exact absurd h nofun
      · rfl

variable (strtod)

/-- The line that a byte ends, if any, is handed on. -/
theorem addc_lines (m : Nmea) (c : UInt8) (tag : Bool) :
    lineOf (nmeaReaderAddc strtod tag m c) = (scan lineStep (lineOf m) [c]).final ∧
      (nmeaReaderAddc strtod tag m c).reports.filterMap NmeaReport.line? =
        m.reports.filterMap NmeaReport.line? ++ (scan lineStep (lineOf m) [c]).out := by
  cases hstep : lineStep (lineOf m) c with
  | next s =>
    rw [(addc_next strtod tag hstep).1, addc_reports hstep, scan_of_next hstep]
    exact ⟨rfl, (List.append_nil _).symm⟩
  | emit line s =>
    obtain ⟨hs, -, hreports⟩ := addc_emit strtod hstep tag
    rw [hs, hreports, List.filterMap_append, (parse_reports strtod _ tag).1, scan_of_emit hstep]
    exact ⟨rfl, rfl⟩
  | stop t => exact absurd hstep (lineStep_ne_stop _ _ _)

/-- The satellites are reported with a byte that ends the buffer and a line that is parsed. -/
theorem addc_satellites (m : Nmea) (c : UInt8) (tag : Bool) :
    (nmeaReaderAddc strtod tag m c).reports.countP NmeaReport.isGpsSv =
      m.reports.countP NmeaReport.isGpsSv +
        if tag = true ∧ (scan lineStep (lineOf m) [c]).out.any parsable = true then 1 else 0 := by
  cases hstep : lineStep (lineOf m) c with
  | next s =>
    rw [addc_reports hstep, scan_of_next hstep, if_neg fun h => Bool.false_ne_true h.2]
    rfl
  | emit line s =>
    obtain ⟨-, -, hreports⟩ := addc_emit strtod hstep tag
    have hany : (scan lineStep (lineOf m) [c]).out.any parsable = parsable line := by
      rw [scan_of_emit hstep]
      exact Bool.or_false _
    rw [hreports, List.countP_append, (parse_reports strtod _ tag).2, hany]
    rfl
  | stop t => exact absurd hstep (lineStep_ne_stop _ _ _)

/-! ## Buffers -/

/-- Lines of a text in two pieces. -/
theorem out_append (s : List UInt8 × Bool) (bytes bytes' : List UInt8) :
    (scan lineStep s (bytes ++ bytes')).out = (scan lineStep s bytes).out ++
      (scan lineStep (scan lineStep s bytes).final bytes').out := by
  rw [scan_append (scan_lineStep bytes s) bytes']
  rfl

/-- Every byte is taken in turn, the last one as the end of the buffer. -/
theorem addAll_cons (m : Nmea) (c : UInt8) (cs : List UInt8) :
    nmeaReaderAddAll strtod m (c :: cs) =
      nmeaReaderAddAll strtod (nmeaReaderAddc strtod cs.isEmpty m c) cs := by
  cases cs with
  | nil => rfl
  | cons c' cs => rfl

/-- The lines that are read are parsed and handed on. -/
theorem addAll_lines (buffer : List UInt8) (m : Nmea) :
    parseCalls strtod m buffer = (scan lineStep (lineOf m) buffer).out ∧
      (nmeaReaderAddAll strtod m buffer).reports.filterMap NmeaReport.line? =
        m.reports.filterMap NmeaReport.line? ++ (scan lineStep (lineOf m) buffer).out := by
  induction buffer generalizing m with
  | nil => exact ⟨rfl, (List.append_nil _).symm⟩
  | cons c cs ih =>
    obtain ⟨hline, hreports⟩ := addc_lines strtod m c cs.isEmpty
    obtain ⟨hcalls, hrest⟩ := ih (nmeaReaderAddc strtod cs.isEmpty m c)
    rw [hline] at hcalls hrest
    rw [← List.singleton_append, out_append]
    constructor
    · rw [List.singleton_append, parseCalls, parseCall_eq, hcalls]
    · rw [List.singleton_append, addAll_cons, hrest, hreports, List.append_assoc]

/-- Before the last byte the satellites are not reported. -/
theorem foldl_satellites (bytes : List UInt8) (m : Nmea) :
    (bytes.foldl (nmeaReaderAddc strtod false) m).reports.countP NmeaReport.isGpsSv =
      m.reports.countP NmeaReport.isGpsSv := by
  induction bytes generalizing m with
  | nil => rfl
  | cons c cs ih =>
    rw [List.foldl_cons, ih, addc_satellites, if_neg fun h => Bool.false_ne_true h.1]
    rfl

/-- With the last byte they are reported if it ends a line that is parsed. -/
theorem process_satellites (nmea_cash : Nat → NmeaCash) (bytes : List UInt8) (c : UInt8) :
    (mtkMnlNmeaParserProcess strtod nmea_cash (bytes ++ [c])).reports.countP NmeaReport.isGpsSv =
      if (scan lineStep (scan lineStep ([], false) bytes).final [c]).out.any parsable = true then 1
      else 0 := by
  have hfinal : lineOf (bytes.foldl (nmeaReaderAddc strtod false) ⟨.init, nmea_cash, []⟩) =
      (scan lineStep ([], false) bytes).final := (foldl_addc strtod bytes ⟨.init, nmea_cash, []⟩).1
  rw [mtkMnlNmeaParserProcess, addAll_snoc, addc_satellites, foldl_satellites, hfinal]
  simp only [true_and, List.countP_nil, Nat.zero_add]

/-- The line that the last byte ends. -/
theorem out_last (bytes : List UInt8) {line : List UInt8}
    (h : lines newline (bytes ++ [newline]) = lines newline bytes ++ [line]) :
    (scan lineStep (scan lineStep ([], false) bytes).final [newline]).out =
      kept fitsLine lateLine (decide (Odd (lateRun lateLine (lines newline bytes)))) [line] := by
  have hout := out_append ([], false) bytes [newline]
  rw [scan_lines, scan_lines, h, kept_append, dropsNext_eq_odd not_fits_of_late] at hout
  exact (List.append_cancel_left hout).symm

/-- A byte inside a line ends none. -/
theorem out_inside (s : List UInt8 × Bool) {c : UInt8} (h : c ≠ newline) :
    (scan lineStep s [c]).out = [] :=
  scan_tail (fun hmem => h (List.mem_singleton.mp hmem).symm) s

/-- When no line that fits is lost, the satellites are reported with a line at the end, if and only
if that line fits and is parsed. -/
theorem satellites_iff (nmea_cash : Nat → NmeaCash) {buffer : List UInt8}
    (h : Apart (lines newline buffer)) :
    (mtkMnlNmeaParserProcess strtod nmea_cash buffer).reports.countP NmeaReport.isGpsSv =
        (if buffer.getLast? = some newline then 1 else 0) ↔
      ∀ line, buffer.getLast? = some newline → (lines newline buffer).getLast? = some line →
        fitsLine line = true ∧ parsable line = true := by
  rcases List.eq_nil_or_concat buffer with rfl | ⟨bytes, c, rfl⟩
  · exact ⟨fun _ line h => absurd h (by rintro ⟨⟩), fun _ => rfl⟩
  rw [List.concat_eq_append] at h ⊢
  rw [process_satellites, List.getLast?_concat]
  by_cases hc : c = newline
  · subst hc
    obtain ⟨line, hline⟩ := lines_concat newline bytes
    rw [out_last bytes hline, hline, List.getLast?_concat, if_pos rfl]
    by_cases hfits : fitsLine line = true
    · have heven : ¬ Odd (lateRun lateLine (lines newline bytes)) :=
        h (lines newline bytes) line ⟨[], by rw [hline, List.append_nil]⟩ hfits
      rw [decide_eq_false heven, kept, if_pos hfits, kept, List.any_cons, List.any_nil,
        Bool.or_false]
      constructor
      · intro hcount line' _ hline'
        cases hline'
        refine ⟨hfits, ?_⟩
        by_contra hparsable
        rw [if_neg hparsable] at hcount
        cases hcount
      · intro hparsed
        rw [if_pos (hparsed line rfl rfl).2]
    · have hnone (drops : Bool) : kept fitsLine lateLine drops [line] = [] := by
        cases drops with
        | true => rfl
        | false =>
          rw [kept, if_neg hfits]
          cases lateLine line <;> rfl
      rw [hnone]
      exact ⟨fun hcount => absurd hcount (by rintro ⟨⟩),
        fun hparsed => absurd (hparsed line rfl rfl).1 hfits⟩
  · rw [out_inside _ hc, if_neg fun heq => hc (Option.some.inj heq)]
    exact ⟨fun _ line heq => absurd (Option.some.inj heq) hc, fun _ => rfl⟩

/-- The lines that are handed on. -/
theorem process_lines (nmea_cash : Nat → NmeaCash) (buffer : List UInt8) :
    parseCalls strtod ⟨.init, nmea_cash, []⟩ buffer =
        kept fitsLine lateLine false (lines newline buffer) ∧
      (mtkMnlNmeaParserProcess strtod nmea_cash buffer).reports.filterMap NmeaReport.line? =
        kept fitsLine lateLine false (lines newline buffer) := by
  rw [← scan_lines]
  exact addAll_lines strtod buffer ⟨.init, nmea_cash, []⟩

/-- The lines that fit are parsed and handed on, and the satellites are reported once with a line
at the end, if and only if the buffer is `Readable`. -/
theorem nmeaParserProcess_framesLines_iff (nmea_cash : Nat → NmeaCash) (buffer : List UInt8) :
    FramesLines strtod nmea_cash buffer ↔ Readable buffer := by
  obtain ⟨hparsed, hreported⟩ := process_lines strtod nmea_cash buffer
  have hapart : kept fitsLine lateLine false (lines newline buffer) =
      (lines newline buffer).filter fitsLine ↔ Apart (lines newline buffer) :=
    kept_eq_filter_iff not_fits_of_late (lines newline buffer)
  constructor
  · intro h
    have happart := hapart.mp (hparsed.symm.trans h.parsed)
    exact ⟨happart, (satellites_iff strtod nmea_cash happart).mp h.satellites⟩
  · intro h
    have hfilter := hapart.mpr h.apart
    exact ⟨hparsed.trans hfilter, hreported.trans hfilter,
      (satellites_iff strtod nmea_cash h.apart).mpr h.last⟩

/-- After 255 bytes the end of the line does not fit, and the next line is lost. -/
theorem nmeaParserProcess_loses_line : ¬ ∀ strtod nmea_cash buffer,
    FramesLines strtod nmea_cash buffer := by
  intro h
  have hparsed := (h (fun _ => 0) (fun _ => .zero) (List.replicate 255 'a'.toUInt8 ++
    newline :: text ['$', 'G', 'P', 'G', 'L', 'L', ',', ',', '\n'])).parsed
  rw [(process_lines _ _ _).1] at hparsed
  exact absurd hparsed (by decide +kernel)

end MtkHw.Gps
