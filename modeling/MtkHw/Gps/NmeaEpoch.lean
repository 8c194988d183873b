import MtkHw.Gps.Nmea
import Mathlib.Data.List.Induction

/-!
# What an epoch leaves behind

The reader lives as long as a buffer, so the flags of the satellites are all that a buffer can
leave to the next one.  They are dropped with the report at the end of a buffer (`Closes`), and
what the buffers after the last such report have said about the satellites stays (`Left`).
-/

namespace MtkHw.Gps

open Lib.Scanner

variable (strtod : List UInt8 → Float)

/-! ## Two runs -/

/-- The satellites that can be reported. -/
def Shown (prn : Nat) : Prop := (svOf prn).isSome

instance (prn : Nat) : Decidable (Shown prn) := inferInstanceAs (Decidable (_ = _))

/-- The flags of the satellites that can be reported are the same. -/
def CashAgrees (c c' : Nat → NmeaCash) : Prop := ∀ prn, Shown prn → c prn = c' prn

/-- Two parsers that differ at most in what they know of satellites that are not reported. -/
structure Same (m m' : Nmea) : Prop where
  reader : m.reader = m'.reader
  reports : m.reports = m'.reports
  cash : CashAgrees m.nmea_cash m'.nmea_cash

/-- A satellite has a positive number. -/
theorem pos_of_svOf {prn : Int} {sv : Int × SvType} (h : svOf prn = some sv) : 0 < prn := by
  unfold svOf at h
  grind

theorem shown_of_svOf {prn : Int} {sv : Int × SvType} (h : svOf prn = some sv) :
    Shown prn.toNat := by
  rw [Shown, Int.toNat_of_nonneg (Int.le_of_lt (pos_of_svOf h)), h]
  rfl

variable {strtod}

theorem updateSvStatus_same {c c' : Nat → NmeaCash} (h : CashAgrees c c') (r : NmeaReader)
    (prn : Int) (elevation azimuth snr : Token) :
    nmeaReaderUpdateSvStatus strtod c r prn elevation azimuth snr =
      nmeaReaderUpdateSvStatus strtod c' r prn elevation azimuth snr := by
  unfold nmeaReaderUpdateSvStatus
  dsimp only
  split
  · rfl
  · cases hsv : svOf prn with
    | none => rfl
    | some sv => rw [h prn.toNat (shown_of_svOf hsv)]

theorem parseGsv_same {c c' : Nat → NmeaCash} (h : CashAgrees c c') (r : NmeaReader)
    (sv_type : SvType) (tzer : List Token) :
    parseGsv strtod c r sv_type tzer = parseGsv strtod c' r sv_type tzer := by
  have hupdate : nmeaReaderUpdateSvStatus strtod c = nmeaReaderUpdateSvStatus strtod c' := by
    funext r prn elevation azimuth snr
    exact updateSvStatus_same h r prn elevation azimuth snr
  have hsatellites : parseGsvSatellites strtod c = parseGsvSatellites strtod c' := by
    funext r sv_type tzer sv_num
    rw [parseGsvSatellites, hupdate]
    rfl
  rw [parseGsv, hsatellites]
  rfl

theorem CashAgrees.setCash {c c' : Nat → NmeaCash} (h : CashAgrees c c') (flag : CashFlag)
    (prn : Nat) : CashAgrees (setCash flag c prn) (setCash flag c' prn) := by
  intro prn' hshown
  rw [Gps.setCash, Gps.setCash, h prn' hshown]

theorem CashAgrees.foldl_setCash {c c' : Nat → NmeaCash} (h : CashAgrees c c') (flag : CashFlag)
    (prns : List Nat) :
    CashAgrees (prns.foldl (Gps.setCash flag) c) (prns.foldl (Gps.setCash flag) c') := by
  induction prns generalizing c c' with
  | nil => exact h
  | cons prn prns ih => exact ih (h.setCash flag prn)

variable {m m' : Nmea}

theorem Same.withReader (h : Same m m') {r r' : NmeaReader} (hr : r = r') :
    Same { m with reader := r } { m' with reader := r' } := ⟨hr, h.reports, h.cash⟩

theorem Same.parseSentence (h : Same m m') (tzer : List Token) :
    Same (parseSentence strtod m tzer) (parseSentence strtod m' tzer) := by
  obtain ⟨reader, cash, reports⟩ := m
  obtain ⟨reader', cash', reports'⟩ := m'
  obtain ⟨hreader, hreports, hcash⟩ := h
  dsimp only at hreader hreports hcash
  subst hreader
  subst hreports
  unfold Gps.parseSentence
  dsimp only
  split
  · exact ⟨rfl, rfl, hcash⟩
  split
  · rw [parseGsa, parseGsa]
    dsimp only
    split
    · exact ⟨rfl, rfl, hcash.foldl_setCash _ _⟩
    · exact ⟨rfl, rfl, hcash⟩
  split
  · exact ⟨rfl, rfl, hcash⟩
  split
  · exact ⟨rfl, rfl, hcash.foldl_setCash _ _⟩
  split
  · exact ⟨rfl, rfl, hcash.foldl_setCash _ _⟩
  split
  · exact ⟨parseGsv_same hcash _ _ _, rfl, hcash⟩
  split
  · exact ⟨rfl, rfl, hcash⟩
  · exact ⟨rfl, rfl, hcash⟩

theorem Same.report (h : Same m m') (tag : Bool) :
    Same (reportSv (reportLocation m tag) tag) (reportSv (reportLocation m' tag) tag) := by
  obtain ⟨reader, cash, reports⟩ := m
  obtain ⟨reader', cash', reports'⟩ := m'
  obtain ⟨hreader, hreports, hcash⟩ := h
  dsimp only at hreader hreports hcash
  subst hreader
  subst hreports
  rw [reportLocation, reportLocation]
  dsimp only
  split
  · rw [reportSv, reportSv]
    dsimp only
    split
    · exact ⟨rfl, rfl, fun _ _ => rfl⟩
    · exact ⟨rfl, rfl, hcash⟩
  · rw [reportSv, reportSv]
    dsimp only
    split
    · exact ⟨rfl, rfl, fun _ _ => rfl⟩
    · exact ⟨rfl, rfl, hcash⟩

theorem Same.parse (h : Same m m') (strtod : List UInt8 → Float) (tag : Bool) :
    Same (nmeaReaderParse strtod m tag) (nmeaReaderParse strtod m' tag) := by
  rw [nmeaReaderParse, nmeaReaderParse, h.reader]
  split
  · exact (h.parseSentence _).report tag
  · exact h

theorem Same.addc (h : Same m m') (tag : Bool) (c : UInt8) :
    Same (nmeaReaderAddc strtod tag m c) (nmeaReaderAddc strtod tag m' c) := by
  rw [nmeaReaderAddc, nmeaReaderAddc, h.reader]
  split
  · exact h.withReader rfl
  split
  · exact h.withReader rfl
  · dsimp only
    have hadded := h.withReader (r := { m'.reader with line := m'.reader.line ++ [c] }) rfl
    split
    · have hparsed := hadded.parse strtod tag
      exact ⟨by rw [hparsed.reader], by rw [hparsed.reports, hparsed.reader], hparsed.cash⟩
    · exact hadded

theorem Same.addAll (h : Same m m') (bytes : List UInt8) :
    Same (nmeaReaderAddAll strtod m bytes) (nmeaReaderAddAll strtod m' bytes) := by
  induction bytes generalizing m m' with
  | nil => exact h
  | cons c bytes ih =>
    cases bytes with
    | nil => exact h.addc true c
    | cons c' bytes => exact ih (h.addc false c)

/-- What is reported depends on the flags of the satellites that can be reported alone. -/
theorem process_same {c c' : Nat → NmeaCash} (h : CashAgrees c c') (buffer : List UInt8) :
    (mtkMnlNmeaParserProcess strtod c buffer).reports =
      (mtkMnlNmeaParserProcess strtod c' buffer).reports :=
  have hsame : Same ⟨.init, c, []⟩ ⟨.init, c', []⟩ := ⟨rfl, rfl, h⟩
  (hsame.addAll buffer).reports

/-! ## What a buffer says -/

/-- What a sentence says about the satellites: those with a flag. -/
def said (flag : CashFlag) (line : List UInt8) : List Nat :=
  let tzer := nmeaTokenizerInit line
  let p := (nmeaTokenizerGet tzer 0).rest
  if ¬ parsable line ∨ starts (p.drop 2) ['G', 'G', 'A'] then []
  else if starts (p.drop 2) ['G', 'S', 'A'] then
    let fix_mode := (nmeaTokenizerGet tzer 2).toInt
    if flag = .usedInFix ∧ (fix_mode = 2 ∨ fix_mode = 3) then
      activeSatellites (svTypeOf p) tzer
    else []
  else if starts (p.drop 2) ['R', 'M', 'C'] then []
  else if starts (p.drop 5) ['E', 'P', 'H'] then
    if flag = .ephemeris then listedSatellites tzer else []
  else if starts (p.drop 5) ['A', 'L', 'M'] then
    if flag = .almanac then listedSatellites tzer else []
  else []

/-- The lines of a buffer: a byte is added to a line, ends it, or is dropped. -/
def lineStep (s : List UInt8 × Bool) (c : UInt8) : Turn (List UInt8 × Bool) (List UInt8) :=
  if s.2 then .next (s.1, c ≠ '\n'.toUInt8)
  else if NMEA_MAX_SIZE ≤ s.1.length then .next ([], true)
  else if c = '\n'.toUInt8 then .emit (s.1 ++ [c]) ([], false)
  else .next (s.1 ++ [c], false)

/-- A buffer has a sentence that says something of a satellite. -/
def Marks (buffer : List UInt8) (flag : CashFlag) (prn : Nat) : Prop :=
  ∃ line ∈ (scan lineStep ([], false) buffer).out, prn ∈ said flag line

/-- The last byte of a buffer ends a sentence that is parsed. -/
def Closes (buffer : List UInt8) : Prop :=
  ∃ before c line s, buffer = before ++ [c] ∧
    lineStep (scan lineStep ([], false) before).final c = .emit line s ∧ parsable line = true

/-- What the buffers after the last report have said. -/
def Left (history : List (List UInt8)) (flag : CashFlag) (prn : Nat) : Prop :=
  ∃ before buffer after, history = before ++ buffer :: after ∧ Marks buffer flag prn ∧
    ∀ b ∈ buffer :: after, ¬ Closes b

theorem has_set (cash : NmeaCash) (flag flag' : CashFlag) :
    (cash.set flag').has flag = (cash.has flag || decide (flag = flag')) := by
  cases flag with
  | ephemeris => cases flag' <;> simp [NmeaCash.set, NmeaCash.has]
  | almanac => cases flag' <;> simp [NmeaCash.set, NmeaCash.has]
  | usedInFix => cases flag' <;> simp [NmeaCash.set, NmeaCash.has]

/-- Setting a flag of satellites. -/
theorem foldl_setCash_has (c : Nat → NmeaCash) (flag flag' : CashFlag) (prns : List Nat)
    (prn : Nat) : ((prns.foldl (setCash flag') c) prn).has flag = true ↔
      (c prn).has flag = true ∨ flag = flag' ∧ prn ∈ prns := by
  induction prns generalizing c with
  | nil => exact ⟨.inl, fun h => h.elim id fun hmem => absurd hmem.2 List.not_mem_nil⟩
  | cons prn' prns ih =>
    rw [List.foldl_cons, ih, List.mem_cons]
    by_cases heq : prn = prn'
    · rw [setCash, if_pos heq, has_set, Bool.or_eq_true, decide_eq_true_iff]
      constructor
      · rintro ((hold | hflag) | ⟨hflag, hmem⟩)
        · exact .inl hold
        · exact .inr ⟨hflag, .inl heq⟩
        · exact .inr ⟨hflag, .inr hmem⟩
      · rintro (hold | ⟨hflag, -⟩)
        · exact .inl (.inl hold)
        · exact .inl (.inr hflag)
    · rw [setCash, if_neg heq]
      constructor
      · rintro (hold | ⟨hflag, hmem⟩)
        · exact .inl hold
        · exact .inr ⟨hflag, .inr hmem⟩
      · rintro (hold | ⟨hflag, hmem | hmem⟩)
        · exact .inl hold
        · exact absurd hmem heq
        · exact .inr ⟨hflag, hmem⟩

/-- A sentence that is parsed. -/
theorem parseSentence_has {line : List UInt8} (hline : parsable line = true) (flag : CashFlag)
    (prn : Nat) :
    ((parseSentence strtod m (nmeaTokenizerInit line)).nmea_cash prn).has flag = true ↔
      (m.nmea_cash prn).has flag = true ∨ prn ∈ said flag line := by
  have hno {P : Prop} : P ↔ P ∨ prn ∈ ([] : List Nat) :=
    ⟨.inl, fun h => h.elim id fun hmem => absurd hmem List.not_mem_nil⟩
  have hlisted (flag' : CashFlag) (prns : List Nat) :
      ((prns.foldl (setCash flag') m.nmea_cash) prn).has flag = true ↔
        (m.nmea_cash prn).has flag = true ∨ prn ∈ if flag = flag' then prns else [] := by
    rw [foldl_setCash_has]
    by_cases hflag : flag = flag'
    · rw [if_pos hflag]
      exact or_congr_right ⟨fun h => h.2, fun h => ⟨hflag, h⟩⟩
    · rw [if_neg hflag]
      exact or_congr_right ⟨fun h => absurd h.1 hflag, fun h => absurd h List.not_mem_nil⟩
  unfold parseSentence said
  rw [hline]
  dsimp only
  simp only [not_true_eq_false, false_or]
  split
  · exact hno
  split
  · rw [parseGsa]
    dsimp only
    by_cases hfix : (nmeaTokenizerGet (nmeaTokenizerInit line) 2).toInt = 2 ∨
        (nmeaTokenizerGet (nmeaTokenizerInit line) 2).toInt = 3
    · rw [if_pos (by simpa [NmeaReader.locFixed] using hfix), hlisted]
      simp only [hfix, and_true]
    · rw [if_neg (by simpa [NmeaReader.locFixed] using hfix), if_neg fun h => hfix h.2]
      exact hno
  split
  · exact hno
  split
  · exact hlisted .ephemeris _
  split
  · exact hlisted .almanac _
  · split
    · exact hno
    split
    · exact hno
    · exact hno

/-! ## What a buffer leaves -/

/-- A part of the parser leaves the line alone. -/
def SameLine (r r' : NmeaReader) : Prop := r'.line = r.line ∧ r'.overflow = r.overflow

theorem SameLine.refl (r : NmeaReader) : SameLine r r := ⟨rfl, rfl⟩

theorem SameLine.trans {r r' r'' : NmeaReader} (h : SameLine r r') (h' : SameLine r' r'') :
    SameLine r r'' := ⟨h'.1.trans h.1, h'.2.trans h.2⟩

theorem sameLine_latlong (r : NmeaReader) (latitude longitude : Token) (lat lon : UInt8) :
    SameLine r (nmeaReaderUpdateLatlong strtod r latitude lat longitude lon) := by
  rw [nmeaReaderUpdateLatlong]
  dsimp only
  split
  · exact .refl r
  split
  · exact .refl r
  · exact ⟨rfl, rfl⟩

theorem sameLine_altitude (r : NmeaReader) (tok : Token) :
    SameLine r (nmeaReaderUpdateAltitude strtod r tok) := by
  rw [nmeaReaderUpdateAltitude]
  split
  · exact .refl r
  · exact ⟨rfl, rfl⟩

theorem sameLine_bearing (r : NmeaReader) (tok : Token) :
    SameLine r (nmeaReaderUpdateBearing strtod r tok) := by
  rw [nmeaReaderUpdateBearing]
  split
  · exact .refl r
  · exact ⟨rfl, rfl⟩

theorem sameLine_speed (r : NmeaReader) (tok : Token) :
    SameLine r (nmeaReaderUpdateSpeed strtod r tok) := by
  rw [nmeaReaderUpdateSpeed]
  split
  · exact .refl r
  · exact ⟨rfl, rfl⟩

theorem sameLine_accuracy (r : NmeaReader) (tok : Token) :
    SameLine r (nmeaReaderUpdateAccuracy strtod r tok) := by
  rw [nmeaReaderUpdateAccuracy]
  split
  · exact .refl r
  · exact ⟨rfl, rfl⟩

theorem sameLine_svStatus (c : Nat → NmeaCash) (r : NmeaReader) (prn : Int)
    (elevation azimuth snr : Token) :
    SameLine r (nmeaReaderUpdateSvStatus strtod c r prn elevation azimuth snr) := by
  rw [nmeaReaderUpdateSvStatus]
  dsimp only
  split
  · exact .refl r
  split
  · exact .refl r
  · exact ⟨rfl, rfl⟩

/-- The satellites of a sentence, one by one. -/
theorem sameLine_foldl {step : NmeaReader → Nat → NmeaReader}
    (hstep : ∀ r idx, SameLine r (step r idx)) (idxs : List Nat) (r : NmeaReader) :
    SameLine r (idxs.foldl step r) := by
  induction idxs generalizing r with
  | nil => exact .refl r
  | cons idx idxs ih => exact (hstep r idx).trans (ih (step r idx))

theorem sameLine_parseGsv (c : Nat → NmeaCash) (r : NmeaReader) (sv_type : SvType)
    (tzer : List Token) : SameLine r (parseGsv strtod c r sv_type tzer) := by
  have hstart (r : NmeaReader) (seq : Int) : SameLine r (startGsv r seq) := by
    rw [startGsv]
    split
    · exact ⟨rfl, rfl⟩
    · exact .refl r
  have hfinish (r : NmeaReader) (cnt : Int) : SameLine r (finishGsv r cnt) := by
    rw [finishGsv]
    split
    · exact ⟨rfl, rfl⟩
    · exact ⟨rfl, rfl⟩
  have hsatellites (r : NmeaReader) (sv_num : Int) :
      SameLine r (parseGsvSatellites strtod c r sv_type tzer sv_num) :=
    sameLine_foldl (fun r idx => sameLine_svStatus c r _ _ _ _) _ r
  rw [parseGsv]
  split
  · exact (hstart _ _).trans ((hsatellites _ _).trans (hfinish _ _))
  · exact (hstart _ _).trans (hsatellites _ _)

theorem sameLine_parseSentence (m : Nmea) (tzer : List Token) :
    SameLine m.reader (parseSentence strtod m tzer).reader := by
  unfold parseSentence
  dsimp only
  split
  · exact (sameLine_latlong _ _ _ _ _).trans (sameLine_altitude _ _)
  split
  · rw [parseGsa]
    dsimp only
    split
    · exact ⟨rfl, rfl⟩
    · exact ⟨rfl, rfl⟩
  split
  · change SameLine m.reader (parseRmc strtod m.reader tzer)
    rw [parseRmc]
    split
    · exact (sameLine_latlong _ _ _ _ _).trans <|
        (sameLine_bearing _ _).trans (sameLine_speed _ _)
    · exact .refl _
  split
  · exact .refl _
  split
  · exact .refl _
  split
  · exact sameLine_parseGsv _ _ _ _
  split
  · change SameLine m.reader (parseAccuracy strtod m.reader tzer)
    rw [parseAccuracy]
    split
    · exact sameLine_accuracy _ _
    · exact .refl _
  · exact .refl _

theorem sameLine_parse (m : Nmea) (tag : Bool) :
    SameLine m.reader (nmeaReaderParse strtod m tag).reader := by
  have hlocation (m : Nmea) : SameLine m.reader (reportLocation m tag).reader := by
    rw [reportLocation]
    split
    · exact ⟨rfl, rfl⟩
    · exact .refl _
  have hsv (m : Nmea) : SameLine m.reader (reportSv m tag).reader := by
    rw [reportSv]
    split
    · exact ⟨rfl, rfl⟩
    · exact .refl _
  rw [nmeaReaderParse]
  split
  · exact (sameLine_parseSentence m _).trans ((hlocation _).trans (hsv _))
  · exact .refl _

/-- A sentence that does not end the buffer adds what it says. -/
theorem parse_has (m : Nmea) (flag : CashFlag) (prn : Nat) :
    ((nmeaReaderParse strtod m false).nmea_cash prn).has flag = true ↔
      (m.nmea_cash prn).has flag = true ∨ prn ∈ said flag m.reader.line := by
  have hreport (m : Nmea) : reportSv (reportLocation m false) false = m := by
    rw [reportLocation, if_neg (fun h => Bool.false_ne_true h.2.2), reportSv,
      if_neg Bool.false_ne_true]
  rw [nmeaReaderParse]
  split
  · rename_i hline
    rw [hreport]
    exact parseSentence_has hline flag prn
  · rename_i hline
    rw [said]
    dsimp only
    rw [if_pos (.inl hline)]
    exact ⟨.inl, fun h => h.elim id fun hmem => absurd hmem List.not_mem_nil⟩

/-- A sentence that ends the buffer drops all that is known, when it is parsed. -/
theorem parse_cash (m : Nmea) : (nmeaReaderParse strtod m true).nmea_cash =
    if parsable m.reader.line then fun _ => .zero else m.nmea_cash := by
  rw [nmeaReaderParse]
  split
  · rw [reportSv, if_pos rfl]
  · rfl

/-- The state of the line. -/
def lineOf (m : Nmea) : List UInt8 × Bool := (m.reader.line, m.reader.overflow)

/-- A byte that does not end a line. -/
theorem addc_next (strtod : List UInt8 → Float) (tag : Bool) {m : Nmea} {c : UInt8}
    {s : List UInt8 × Bool} (h : lineStep (lineOf m) c = .next s) :
    lineOf (nmeaReaderAddc strtod tag m c) = s ∧
      (nmeaReaderAddc strtod tag m c).nmea_cash = m.nmea_cash := by
  unfold lineStep lineOf at h
  dsimp only at h
  unfold nmeaReaderAddc
  split
  · rename_i hover
    rw [if_pos hover] at h
    cases h
    exact ⟨rfl, rfl⟩
  · rename_i hover
    rw [if_neg hover] at h
    split
    · rename_i hfull
      rw [if_pos hfull] at h
      cases h
      exact ⟨rfl, rfl⟩
    · rename_i hfull
      rw [if_neg hfull] at h
      dsimp only
      split
      · rename_i hend
        rw [if_pos hend] at h
        exact absurd h nofun
      · rename_i hend
        rw [if_neg hend] at h
        cases h
        refine ⟨?_, rfl⟩
        rw [lineOf, (Bool.not_eq_true _).mp hover]

/-- A byte that ends a line: the line is parsed. -/
theorem addc_emit (strtod : List UInt8 → Float) {m : Nmea} {c : UInt8} {line : List UInt8}
    {s : List UInt8 × Bool} (h : lineStep (lineOf m) c = .emit line s) (tag : Bool) :
    lineOf (nmeaReaderAddc strtod tag m c) = s ∧
      (nmeaReaderAddc strtod tag m c).nmea_cash =
        (nmeaReaderParse strtod { m with reader := { m.reader with line := line } } tag).nmea_cash ∧
      (nmeaReaderAddc strtod tag m c).reports =
        (nmeaReaderParse strtod { m with reader := { m.reader with line := line } } tag).reports ++
          [.nmea line] := by
  unfold lineStep lineOf at h
  dsimp only at h
  unfold nmeaReaderAddc
  split
  · rename_i hover
    rw [if_pos hover] at h
    exact absurd h nofun
  · rename_i hover
    rw [if_neg hover] at h
    split
    · rename_i hfull
      rw [if_pos hfull] at h
      exact absurd h nofun
    · rename_i hfull
      rw [if_neg hfull] at h
      dsimp only
      split
      · rename_i hend
        rw [if_pos hend] at h
        cases h
        refine ⟨?_, rfl, ?_⟩
        · rw [lineOf, (sameLine_parse _ tag).2, (Bool.not_eq_true _).mp hover]
        · dsimp only
          rw [(sameLine_parse _ tag).1]
      · rename_i hend
        rw [if_neg hend] at h
        exact absurd h nofun

theorem lineStep_ne_stop (s t : List UInt8 × Bool) (c : UInt8) : lineStep s c ≠ .stop t := by
  unfold lineStep
  split
  · exact nofun
  split
  · exact nofun
  split
  · exact nofun
  · exact nofun

theorem scan_lineStep (bytes : List UInt8) (s : List UInt8 × Bool) :
    scan lineStep s bytes =
      ⟨(scan lineStep s bytes).final, (scan lineStep s bytes).out, false⟩ := by
  induction bytes generalizing s with
  | nil => rfl
  | cons c bytes ih =>
    cases hstep : lineStep s c with
    | next s' =>
      rw [scan_of_next hstep]
      exact ih s'
    | emit line s' =>
      rw [scan_of_emit hstep, ih s']
      rfl
    | stop t => exact absurd hstep (lineStep_ne_stop _ _ _)

/-- The bytes before the last one: the lines among them add what they say. -/
theorem foldl_addc (strtod : List UInt8 → Float) (bytes : List UInt8) (m : Nmea) :
    lineOf (bytes.foldl (nmeaReaderAddc strtod false) m) =
        (scan lineStep (lineOf m) bytes).final ∧
      ∀ flag prn, ((bytes.foldl (nmeaReaderAddc strtod false) m).nmea_cash prn).has flag = true ↔
        (m.nmea_cash prn).has flag = true ∨
          ∃ line ∈ (scan lineStep (lineOf m) bytes).out, prn ∈ said flag line := by
  induction bytes generalizing m with
  | nil =>
    refine ⟨rfl, fun flag prn => ⟨.inl, ?_⟩⟩
    rintro (hold | ⟨line, hline, -⟩)
    · exact hold
    · exact absurd hline List.not_mem_nil
  | cons c bytes ih =>
    obtain ⟨hfinal, hhas⟩ := ih (nmeaReaderAddc strtod false m c)
    rw [List.foldl_cons]
    cases hstep : lineStep (lineOf m) c with
    | next s =>
      obtain ⟨hs, hcash⟩ := addc_next strtod false hstep
      rw [scan_of_next hstep, ← hs]
      refine ⟨hfinal, fun flag prn => (hhas flag prn).trans ?_⟩
      rw [hcash]
    | emit line s =>
      obtain ⟨hs, hcash, -⟩ := addc_emit strtod hstep false
      rw [scan_of_emit hstep, ← hs]
      refine ⟨hfinal, fun flag prn => (hhas flag prn).trans ?_⟩
      rw [hcash, parse_has]
      dsimp only
      constructor
      · rintro ((hold | hmem) | ⟨line', hline', hmem⟩)
        · exact .inl hold
        · exact .inr ⟨line, List.mem_cons_self, hmem⟩
        · exact .inr ⟨line', List.mem_cons_of_mem _ hline', hmem⟩
      · rintro (hold | ⟨line', hline', hmem⟩)
        · exact .inl (.inl hold)
        · rcases List.mem_cons.mp hline' with rfl | hline'
          · exact .inl (.inr hmem)
          · exact .inr ⟨line', hline', hmem⟩
    | stop t => exact absurd hstep (lineStep_ne_stop _ _ _)

/-- The last byte ends the buffer. -/
theorem addAll_snoc (bytes : List UInt8) (c : UInt8) (m : Nmea) :
    nmeaReaderAddAll strtod m (bytes ++ [c]) =
      nmeaReaderAddc strtod true (bytes.foldl (nmeaReaderAddc strtod false) m) c := by
  induction bytes generalizing m with
  | nil => rfl
  | cons c' bytes ih =>
    rw [List.foldl_cons, ← ih]
    cases bytes with
    | nil => rfl
    | cons c'' bytes => rfl

theorem said_of_not_parsable {line : List UInt8} (h : parsable line ≠ true) (flag : CashFlag) :
    said flag line = [] := by
  rw [said]
  dsimp only
  rw [if_pos (.inl h)]

/-- The flags after a buffer: none, when its last sentence was parsed, and else those from before
with what the buffer says. -/
theorem process_has (c : Nat → NmeaCash) (buffer : List UInt8) (flag : CashFlag) (prn : Nat) :
    ((mtkMnlNmeaParserProcess strtod c buffer).nmea_cash prn).has flag = true ↔
      ¬ Closes buffer ∧ ((c prn).has flag = true ∨ Marks buffer flag prn) := by
  rcases List.eq_nil_or_concat buffer with rfl | ⟨bytes, b, rfl⟩
  · have hopen : ¬ Closes [] := by
      rintro ⟨before, c', line, s, h, -⟩
      exact absurd h.symm (List.append_ne_nil_of_right_ne_nil before nofun)
    refine ⟨fun h => ⟨hopen, .inl h⟩, ?_⟩
    rintro ⟨-, hold | ⟨line, hline, -⟩⟩
    · exact hold
    · exact absurd hline List.not_mem_nil
  · rw [List.concat_eq_append]
    obtain ⟨hfinal, hhas⟩ := foldl_addc strtod bytes ⟨.init, c, []⟩
    change lineOf _ = (scan lineStep ([], false) bytes).final at hfinal
    have hsnoc := scan_append (scan_lineStep bytes ([], false)) [b]
    have hcloses : Closes (bytes ++ [b]) ↔ ∃ line s,
        lineStep (scan lineStep ([], false) bytes).final b = .emit line s ∧
          parsable line = true := by
      constructor
      · rintro ⟨before, c', line, s, h, hrest⟩
        obtain ⟨rfl, hb⟩ := List.append_inj' h rfl
        cases hb
        exact ⟨line, s, hrest⟩
      · rintro ⟨line, s, hrest⟩
        exact ⟨bytes, b, line, s, rfl, hrest⟩
    rw [mtkMnlNmeaParserProcess, addAll_snoc, hcloses, Marks, hsnoc]
    cases hstep : lineStep (scan lineStep ([], false) bytes).final b with
    | next s =>
      rw [scan_of_next hstep, Scanned.after, scan_nil, List.append_nil]
      rw [← hfinal] at hstep
      rw [(addc_next strtod true hstep).2, hhas]
      refine ⟨fun h => ⟨?_, h⟩, fun h => h.2⟩
      rintro ⟨line, s', hemit, -⟩
      exact absurd hemit nofun
    | emit line s =>
      rw [scan_of_emit hstep, Scanned.after, Scanned.after, scan_nil, List.append_nil]
      rw [← hfinal] at hstep
      rw [(addc_emit strtod hstep true).2.1, parse_cash]
      dsimp only
      by_cases hline : parsable line = true
      · rw [if_pos hline]
        refine ⟨fun h => ?_, fun h => absurd ⟨line, s, rfl, hline⟩ h.1⟩
        cases flag with
        | ephemeris | almanac | usedInFix => exact absurd h Bool.false_ne_true
      · rw [if_neg hline, hhas]
        have hout : (∃ line' ∈ (scan lineStep ([], false) bytes).out ++ [line],
            prn ∈ said flag line') ↔
              ∃ line' ∈ (scan lineStep ([], false) bytes).out, prn ∈ said flag line' := by
          constructor
          · rintro ⟨line', hline', hmem⟩
            rcases List.mem_append.mp hline' with hold | hnew
            · exact ⟨line', hold, hmem⟩
            · rw [List.mem_singleton.mp hnew, said_of_not_parsable hline] at hmem
              exact absurd hmem List.not_mem_nil
          · rintro ⟨line', hline', hmem⟩
            exact ⟨line', List.mem_append_left _ hline', hmem⟩
        rw [hout]
        refine ⟨fun h => ⟨?_, h⟩, fun h => h.2⟩
        rintro ⟨line', s', hemit, hparsed⟩
        cases hemit
        exact hline hparsed
    | stop t => exact absurd hstep (lineStep_ne_stop _ _ _)

/-- The flags after a history. -/
theorem cashAfter_has (strtod : List UInt8 → Float) (history : List (List UInt8))
    (flag : CashFlag) (prn : Nat) :
    (cashAfter strtod history prn).has flag = true ↔ Left history flag prn := by
  have hsnoc (history : List (List UInt8)) (buffer : List UInt8) :
      cashAfter strtod (history ++ [buffer]) =
        (mtkMnlNmeaParserProcess strtod (cashAfter strtod history) buffer).nmea_cash := by
    rw [cashAfter, List.foldl_append]
    rfl
  induction history using List.reverseRecOn with
  | nil =>
    refine ⟨fun h => ?_, ?_⟩
    · cases flag with
      | ephemeris | almanac | usedInFix => exact absurd h Bool.false_ne_true
    · rintro ⟨before, buffer, after, h, -⟩
      exact absurd h.symm (List.append_ne_nil_of_right_ne_nil before nofun)
  | append_singleton history buffer ih =>
    have hold : (cashAfter strtod history prn).has flag = true ↔ Left history flag prn := ih
    rw [hsnoc, process_has, hold]
    constructor
    · rintro ⟨hopen, ⟨before, marking, after, rfl, hmarks, hrest⟩ | hmarks⟩
      · refine ⟨before, marking, after ++ [buffer], by simp, hmarks, fun b hb => ?_⟩
        rw [← List.cons_append] at hb
        rcases List.mem_append.mp hb with hold | hnew
        · exact hrest b hold
        · rw [List.mem_singleton.mp hnew]
          exact hopen
      · refine ⟨history, buffer, [], rfl, hmarks, fun b hb => ?_⟩
        rw [List.mem_singleton.mp hb]
        exact hopen
    · rintro ⟨before, marking, after, h, hmarks, hrest⟩
      rcases List.eq_nil_or_concat after with rfl | ⟨after', last, rfl⟩
      · obtain ⟨rfl, hlast⟩ := List.append_inj' h rfl
        cases hlast
        exact ⟨hrest _ List.mem_cons_self, .inr hmarks⟩
      · rw [List.concat_eq_append, ← List.cons_append, ← List.append_assoc] at h
        obtain ⟨rfl, hlast⟩ := List.append_inj' h rfl
        cases hlast
        refine ⟨hrest _ (List.mem_cons_of_mem _ (by simp)), .inl
          ⟨before, marking, after', rfl, hmarks, fun b hb => hrest b ?_⟩⟩
        rw [List.concat_eq_append, ← List.cons_append]
        exact List.mem_append_left _ hb

/-! ## A buffer that shows a satellite -/

/-- A buffer with one sentence, for one satellite. -/
def probe (prn : Nat) : List UInt8 :=
  text ['$', 'G', 'P', 'G', 'S', 'V', ',', '1', ',', '1', ',', '1', ','] ++
    [48 + (prn / 100).toUInt8, 48 + (prn / 10 % 10).toUInt8, 48 + (prn % 10).toUInt8,
      '\n'.toUInt8]

/-- The sentence is one about the satellite. -/
theorem probe_tokens : ∀ prn < 450, parsable (probe prn) = true ∧
    (let tzer := nmeaTokenizerInit (probe prn)
      let p := (nmeaTokenizerGet tzer 0).rest
      p = (probe prn).drop 1 ∧ (nmeaTokenizerGet tzer 1).toInt = 1 ∧
        (nmeaTokenizerGet tzer 2).toInt = 1 ∧ (nmeaTokenizerGet tzer 3).toInt = 1 ∧
        (nmeaTokenizerGet tzer 4).toInt = prn) := by
  decide +kernel

theorem probe_end : ∀ prn < 450, '\n'.toUInt8 ∉ (probe prn).dropLast := by
  decide +kernel

theorem lt_of_shown {prn : Nat} (h : Shown prn) : prn < 450 := by
  obtain ⟨sv, hsv⟩ := Option.isSome_iff_exists.mp h
  unfold svOf at hsv
  grind

/-- The names of the sentence. -/
theorem probe_name (prn : Nat) : svTypeOf ((probe prn).drop 1) = .gps ∧
    starts (((probe prn).drop 1).drop 2) ['G', 'G', 'A'] = false ∧
    starts (((probe prn).drop 1).drop 2) ['G', 'S', 'A'] = false ∧
    starts (((probe prn).drop 1).drop 2) ['R', 'M', 'C'] = false ∧
    starts (((probe prn).drop 1).drop 5) ['E', 'P', 'H'] = false ∧
    starts (((probe prn).drop 1).drop 5) ['A', 'L', 'M'] = false ∧
    starts (((probe prn).drop 1).drop 2) ['G', 'S', 'V'] = true :=
  ⟨rfl, rfl, rfl, rfl, rfl, rfl, rfl⟩

/-- Bytes of a line. -/
theorem foldl_addc_line (bytes : List UInt8) (m : Nmea) (hopen : m.reader.overflow = false)
    (hlen : m.reader.line.length + bytes.length ≤ NMEA_MAX_SIZE)
    (hend : '\n'.toUInt8 ∉ bytes) : bytes.foldl (nmeaReaderAddc strtod false) m =
      { m with reader := { m.reader with line := m.reader.line ++ bytes } } := by
  induction bytes generalizing m with
  | nil => rw [List.append_nil]; rfl
  | cons c bytes ih =>
    have hc : c ≠ '\n'.toUInt8 := fun h => hend (h ▸ List.mem_cons_self)
    have hroom : ¬ NMEA_MAX_SIZE ≤ m.reader.line.length := by
      rw [List.length_cons] at hlen
      omega
    have hadd : nmeaReaderAddc strtod false m c =
        { m with reader := { m.reader with line := m.reader.line ++ [c] } } := by
      rw [nmeaReaderAddc, hopen, if_neg Bool.false_ne_true, if_neg hroom]
      exact if_neg hc
    rw [List.foldl_cons, hadd]
    have hrest : '\n'.toUInt8 ∉ bytes := fun h => hend (List.mem_cons_of_mem _ h)
    refine (ih { m with reader := { m.reader with line := m.reader.line ++ [c] } } hopen ?_
      hrest).trans ?_
    · dsimp only
      rw [List.length_append, List.length_singleton]
      rw [List.length_cons] at hlen
      omega
    · dsimp only
      rw [List.append_assoc]
      rfl

/-- The satellite of the sentence, in a reader that has none yet. -/
theorem probe_svStatus (strtod : List UInt8 → Float) (c : Nat → NmeaCash) {prn : Nat}
    (h : Shown prn) (r : NmeaReader) (hcount : r.sv_count = 0) (hstatus : r.sv_status = NmeaReader.init.sv_status)
    (elevation azimuth snr : Token) : ∃ (sv : GnssSv) (rest : List GnssSv),
      nmeaReaderUpdateSvStatus strtod c r prn elevation azimuth snr = { r with
        sv_count := 1
        sv_status := ⟨0, { sv with flags := svFlags (c prn) 0 } :: rest⟩ } := by
  obtain ⟨sv, hsv⟩ := Option.isSome_iff_exists.mp h
  have hlist : NmeaReader.init.sv_status =
      ⟨0, GnssSv.zero :: List.replicate 63 GnssSv.zero⟩ := rfl
  have hroom : ¬ MTK_MNLD_GNSS_MAX_SVS ≤ 0 + 0 := by decide
  rw [nmeaReaderUpdateSvStatus, hcount, hstatus, hlist]
  dsimp only
  rw [if_neg hroom, hsv, Int.toNat_natCast]
  exact ⟨⟨sv.1, sv.2, (snr.toFloat strtod).toFloat32, Float32.ofInt elevation.toInt,
    Float32.ofInt azimuth.toInt, 0⟩, List.replicate 63 GnssSv.zero, rfl⟩

theorem probe_gsv (strtod : List UInt8 → Float) (c : Nat → NmeaCash) {prn : Nat}
    (h : Shown prn) (r : NmeaReader) (hstatus : r.sv_status = NmeaReader.init.sv_status) :
    ∃ (sv : GnssSv) (rest : List GnssSv),
      parseGsv strtod c r .gps (nmeaTokenizerInit (probe prn)) = { r with
        sv_count := 1
        sv_status := ⟨1, { sv with flags := svFlags (c prn) 0 } :: rest⟩ } := by
  obtain ⟨-, -, hnum, hseq, hcnt, hid⟩ := probe_tokens prn (lt_of_shown h)
  have hnumbers : min (toInt (1 - toInt ((1 - 1) * (NMEA_MAX_SV_INFO : Int))))
      (NMEA_MAX_SV_INFO : Int) = 1 := by decide
  have hstart : startGsv r 1 = { r with sv_count := 0 } := if_pos rfl
  have hone (r : NmeaReader) (tzer : List Token) : parseGsvSatellites strtod c r .gps tzer 1 =
      nmeaReaderUpdateSvStatus strtod c r (nmeaTokenizerGet tzer 4).toInt
        (nmeaTokenizerGet tzer 5) (nmeaTokenizerGet tzer 6) (nmeaTokenizerGet tzer 7) := rfl
  obtain ⟨sv, rest, hsv⟩ := probe_svStatus strtod c h { r with sv_count := 0 } rfl
    hstatus (nmeaTokenizerGet (nmeaTokenizerInit (probe prn)) 5)
    (nmeaTokenizerGet (nmeaTokenizerInit (probe prn)) 6)
    (nmeaTokenizerGet (nmeaTokenizerInit (probe prn)) 7)
  refine ⟨sv, rest, ?_⟩
  rw [parseGsv, hnum, hseq, hcnt, hnumbers, if_pos rfl, hstart, hone, hid, hsv, finishGsv]
  exact if_pos (by decide : ((1 : Nat) : Int) ≤ 1)

theorem probe_sentence (m : Nmea) {prn : Nat} (h : Shown prn) :
    parseSentence strtod m (nmeaTokenizerInit (probe prn)) = { m with
      reader := parseGsv strtod m.nmea_cash m.reader .gps (nmeaTokenizerInit (probe prn)) } := by
  obtain ⟨-, hname, -⟩ := probe_tokens prn (lt_of_shown h)
  obtain ⟨htype, hgga, hgsa, hrmc, heph, halm, hgsv⟩ := probe_name prn
  rw [parseSentence]
  simp only [hname, htype, hgga, hgsa, hrmc, heph, halm, hgsv, Bool.false_eq_true, if_false,
    if_true]

/-- The buffer is read to the end of its line. -/
theorem probe_process (c : Nat → NmeaCash) {prn : Nat} (h : Shown prn) :
    mtkMnlNmeaParserProcess strtod c (probe prn) = nmeaReaderAddc strtod true
      ⟨{ NmeaReader.init with line := (probe prn).dropLast }, c, []⟩ '\n'.toUInt8 := by
  have hsplit : probe prn = (probe prn).dropLast ++ ['\n'.toUInt8] := rfl
  have hlen : 0 + 16 ≤ NMEA_MAX_SIZE := by decide
  have hend := probe_end prn (lt_of_shown h)
  rw [mtkMnlNmeaParserProcess, hsplit, addAll_snoc,
    foldl_addc_line (probe prn).dropLast ⟨.init, c, []⟩ rfl hlen hend]
  rfl

/-- What is reported of the satellite are its flags. -/
theorem probe_reports (strtod : List UInt8 → Float) (c : Nat → NmeaCash) {prn : Nat}
    (h : Shown prn) :
    ∃ (sv : GnssSv) (rest : List GnssSv),
      (mtkMnlNmeaParserProcess strtod c (probe prn)).reports =
        [.gpsSv ⟨1, { sv with flags := svFlags (c prn) 0 } :: rest⟩, .nmea (probe prn)] := by
  have hparsable := (probe_tokens prn (lt_of_shown h)).1
  obtain ⟨sv, rest, hsv⟩ := probe_gsv strtod c h
    { NmeaReader.init with line := probe prn } rfl
  have hstep : lineStep (lineOf ⟨{ NmeaReader.init with line := (probe prn).dropLast }, c, []⟩)
      '\n'.toUInt8 = .emit (probe prn) ([], false) := rfl
  refine ⟨sv, rest, ?_⟩
  rw [probe_process c h, (addc_emit strtod hstep true).2.2, nmeaReaderParse, if_pos hparsable,
    probe_sentence _ h]
  dsimp only
  rw [hsv, reportLocation, if_neg fun hfix => Bool.false_ne_true hfix.1, reportSv, if_pos rfl]
  rfl

/-- The flags of a satellite that is shown for the first time tell what is known of it. -/
theorem svFlags_injective : ∀ c c' : NmeaCash, svFlags c 0 = svFlags c' 0 → c = c' := by
  rintro ⟨e, a, u⟩ ⟨e', a', u'⟩
  cases e <;> cases a <;> cases u <;> cases e' <;> cases a' <;> cases u' <;> decide

/-- When every next buffer is reported alike, the same is known of the satellites. -/
theorem cashAgrees_of_reports {c c' : Nat → NmeaCash}
    (h : ∀ buffer, (mtkMnlNmeaParserProcess strtod c buffer).reports =
      (mtkMnlNmeaParserProcess strtod c' buffer).reports) : CashAgrees c c' := by
  intro prn hshown
  obtain ⟨sv, rest, hreports⟩ := probe_reports strtod c hshown
  obtain ⟨sv', rest', hreports'⟩ := probe_reports strtod c' hshown
  have heq := h (probe prn)
  rw [hreports, hreports'] at heq
  have hlist := (GnssSvInfo.mk.inj (NmeaReport.gpsSv.inj (List.cons.inj heq).1)).2
  exact svFlags_injective _ _ (congrArg GnssSv.flags (List.cons.inj hlist).1)

/-! ## Epochs -/

end MtkHw.Gps
