import MtkHw.Gps.NmeaEpoch
import MtkHw.Gps.NmeaSafety

/-!
# The counters of the reader

The steps in the memory are those of the reader: on a buffer of less than 16 MiB, on which no
counter gets to the end of an `int`, the line and the counters that `NmeaMemory` computes are the
ones of the parser that reports.
-/

namespace MtkHw.Gps.NmeaMemory

/-- The counters of a reader. -/
def countersOf (r : NmeaReader) : Counters := ⟨r.sv_count, r.sv_status.num_svs, r.fix_mode⟩

/-- The reader of a parser. -/
def readerOf (m : Nmea) : Reader := ⟨m.reader.line, m.reader.overflow, countersOf m.reader⟩

/-- The satellites that a reader counts, together. -/
def total (r : NmeaReader) : Nat := r.sv_count + r.sv_status.num_svs

variable (strtod : List UInt8 → Float)

/-! ## Fixes -/

theorem countersOf_latlong (r : NmeaReader) (latitude : Token) (latitudeHemi : UInt8)
    (longitude : Token) (longitudeHemi : UInt8) :
    countersOf (nmeaReaderUpdateLatlong strtod r latitude latitudeHemi longitude longitudeHemi) =
      countersOf r := by
  unfold nmeaReaderUpdateLatlong
  split
  · rfl
  · dsimp only
    split
    · rfl
    · rfl

theorem countersOf_altitude (r : NmeaReader) (tok : Token) :
    countersOf (nmeaReaderUpdateAltitude strtod r tok) = countersOf r := by
  unfold nmeaReaderUpdateAltitude
  split
  · rfl
  · rfl

theorem countersOf_bearing (r : NmeaReader) (tok : Token) :
    countersOf (nmeaReaderUpdateBearing strtod r tok) = countersOf r := by
  unfold nmeaReaderUpdateBearing
  split
  · rfl
  · rfl

theorem countersOf_speed (r : NmeaReader) (tok : Token) :
    countersOf (nmeaReaderUpdateSpeed strtod r tok) = countersOf r := by
  unfold nmeaReaderUpdateSpeed
  split
  · rfl
  · rfl

theorem countersOf_accuracy (r : NmeaReader) (tok : Token) :
    countersOf (nmeaReaderUpdateAccuracy strtod r tok) = countersOf r := by
  unfold nmeaReaderUpdateAccuracy
  split
  · rfl
  · rfl

/-! ## Satellites -/

/-- A number that fits an `int` is kept in it. -/
theorem toInt_natCast {n : Nat} (h : n < 2 ^ 31) : toInt n = n :=
  Int.bmod_eq_of_le (by omega) (by omega)

/-- A satellite is counted alike. -/
theorem countersOf_svStatus (nmea_cash : Nat → NmeaCash) (r : NmeaReader) (prn : Int)
    (elevation azimuth snr : Token) (h : total r < 2 ^ 31) :
    countersOf (Gps.nmeaReaderUpdateSvStatus strtod nmea_cash r prn elevation azimuth snr) =
        nmeaReaderUpdateSvStatus (countersOf r) prn ∧
      total (Gps.nmeaReaderUpdateSvStatus strtod nmea_cash r prn elevation azimuth snr) ≤
        max (total r) MTK_MNLD_GNSS_MAX_SVS ∧
      (Gps.nmeaReaderUpdateSvStatus strtod nmea_cash r prn elevation azimuth snr).sv_count ≤
        max r.sv_count MTK_MNLD_GNSS_MAX_SVS := by
  have hindex : (countersOf r).svIndex = (total r : Int) := toInt_natCast h
  have htotal : r.sv_count + r.sv_status.num_svs = total r := rfl
  have hmax : MTK_MNLD_GNSS_MAX_SVS = 64 := rfl
  unfold Gps.nmeaReaderUpdateSvStatus nmeaReaderUpdateSvStatus
  dsimp only
  rw [hindex, htotal]
  by_cases hfull : MTK_MNLD_GNSS_MAX_SVS ≤ total r
  · rw [if_pos hfull, if_pos (Int.ofNat_le.mpr hfull)]
    exact ⟨rfl, Nat.le_max_left _ _, Nat.le_max_left _ _⟩
  · rw [if_neg hfull, if_neg fun hle => hfull (Int.ofNat_le.mp hle)]
    cases hsv : svOf prn with
    | none => exact ⟨rfl, Nat.le_max_left _ _, Nat.le_max_left _ _⟩
    | some sv =>
      have hsmall : r.sv_count + 1 < 2 ^ 31 := by omega
      have hnext : toInt ((countersOf r).sv_count + 1) = ((r.sv_count + 1 : Nat) : Int) :=
        toInt_natCast hsmall
      rw [if_pos Option.isSome_some, hnext]
      refine ⟨rfl, ?_, ?_⟩
      · change r.sv_count + 1 + r.sv_status.num_svs ≤ _
        omega
      · change r.sv_count + 1 ≤ _
        omega

/-- The entries of a GSV sentence are counted alike. -/
theorem countersOf_satellites (nmea_cash : Nat → NmeaCash) (r : NmeaReader) (sv_type : SvType)
    (tzer : List Token) (sv_num : Int) (h : total r < 2 ^ 31) :
    countersOf (parseGsvSatellites strtod nmea_cash r sv_type tzer sv_num) =
        gsvEntries sv_type tzer (countersOf r) (List.range sv_num.toNat) ∧
      total (parseGsvSatellites strtod nmea_cash r sv_type tzer sv_num) ≤
        max (total r) MTK_MNLD_GNSS_MAX_SVS ∧
      (parseGsvSatellites strtod nmea_cash r sv_type tzer sv_num).sv_count ≤
        max r.sv_count MTK_MNLD_GNSS_MAX_SVS := by
  rw [parseGsvSatellites, gsvEntries]
  have hmax : MTK_MNLD_GNSS_MAX_SVS = 64 := rfl
  generalize List.range sv_num.toNat = idxs
  induction idxs generalizing r with
  | nil => exact ⟨rfl, Nat.le_max_left _ _, Nat.le_max_left _ _⟩
  | cons idx idxs ih =>
    obtain ⟨hcounters, htotal, hcount⟩ := countersOf_svStatus strtod nmea_cash r
      (gsvId sv_type tzer idx) (nmeaTokenizerGet tzer (4 * (idx + 1) + 1))
      (nmeaTokenizerGet tzer (4 * (idx + 1) + 2)) (nmeaTokenizerGet tzer (4 * (idx + 1) + 3)) h
    obtain ⟨hrest, htotals, hcounts⟩ := ih _ (Nat.lt_of_le_of_lt htotal (by omega))
    rw [List.foldl_cons, List.foldl_cons, ← hcounters]
    exact ⟨hrest, Nat.le_trans htotals (by omega), Nat.le_trans hcounts (by omega)⟩

/-- The end of a group is counted alike. -/
theorem countersOf_finish (r : NmeaReader) (cnt : Int) (h : total r < 2 ^ 31)
    (hcount : r.sv_count ≤ MTK_MNLD_GNSS_MAX_SVS) :
    countersOf (Gps.finishGsv r cnt) = finishGsv (countersOf r) cnt ∧
      total (Gps.finishGsv r cnt) ≤ total r + MTK_MNLD_GNSS_MAX_SVS ∧
      (Gps.finishGsv r cnt).sv_count ≤ MTK_MNLD_GNSS_MAX_SVS := by
  have htotal : total r = r.sv_count + r.sv_status.num_svs := rfl
  have hsum : toInt ((countersOf r).num_svs + (countersOf r).sv_count) =
      ((r.sv_status.num_svs + r.sv_count : Nat) : Int) := toInt_natCast (by omega)
  rw [Gps.finishGsv, finishGsv]
  by_cases hle : (r.sv_count : Int) ≤ cnt
  · have hle' : (countersOf r).sv_count ≤ cnt := hle
    rw [if_pos hle, if_pos hle', hsum]
    refine ⟨rfl, ?_, hcount⟩
    change r.sv_count + (r.sv_status.num_svs + r.sv_count) ≤ _
    omega
  · have hle' : ¬ (countersOf r).sv_count ≤ cnt := hle
    rw [if_neg hle, if_neg hle']
    exact ⟨rfl, Nat.zero_le _, Nat.zero_le _⟩

/-- A GSV sentence is counted alike. -/
theorem countersOf_gsv (nmea_cash : Nat → NmeaCash) (r : NmeaReader) (sv_type : SvType)
    (tzer : List Token) (h : total r < 2 ^ 31 - MTK_MNLD_GNSS_MAX_SVS)
    (hcount : r.sv_count ≤ MTK_MNLD_GNSS_MAX_SVS) :
    countersOf (parseGsv strtod nmea_cash r sv_type tzer) =
        gsvCounters (countersOf r) sv_type tzer ∧
      total (parseGsv strtod nmea_cash r sv_type tzer) ≤ total r + 2 * MTK_MNLD_GNSS_MAX_SVS ∧
      (parseGsv strtod nmea_cash r sv_type tzer).sv_count ≤ MTK_MNLD_GNSS_MAX_SVS := by
  have hmax : MTK_MNLD_GNSS_MAX_SVS = 64 := rfl
  have hstart : countersOf (Gps.startGsv r (gsvHead tzer).seq) =
        startGsv (countersOf r) (gsvHead tzer).seq ∧
      total (Gps.startGsv r (gsvHead tzer).seq) ≤ total r ∧
      (Gps.startGsv r (gsvHead tzer).seq).sv_count ≤ r.sv_count := by
    rw [Gps.startGsv, startGsv]
    split
    · exact ⟨rfl, Nat.add_le_add_right (Nat.zero_le _) _, Nat.zero_le _⟩
    · exact ⟨rfl, Nat.le_refl _, Nat.le_refl _⟩
  have hparse : parseGsv strtod nmea_cash r sv_type tzer =
      if (gsvHead tzer).seq = (gsvHead tzer).num then
        Gps.finishGsv (parseGsvSatellites strtod nmea_cash
          (Gps.startGsv r (gsvHead tzer).seq) sv_type tzer (gsvHead tzer).sv_num)
          (gsvHead tzer).cnt
      else parseGsvSatellites strtod nmea_cash (Gps.startGsv r (gsvHead tzer).seq) sv_type tzer
        (gsvHead tzer).sv_num := rfl
  obtain ⟨hcounters, htotal, hcounts⟩ := countersOf_satellites strtod nmea_cash
    (Gps.startGsv r (gsvHead tzer).seq) sv_type tzer (gsvHead tzer).sv_num (by omega)
  rw [hstart.1] at hcounters
  rw [hparse, gsvCounters, ← hcounters]
  split
  · obtain ⟨hfinish, htotals, hle⟩ := countersOf_finish _ (gsvHead tzer).cnt
      (Nat.lt_of_le_of_lt htotal (by omega)) (Nat.le_trans hcounts (by omega))
    exact ⟨hfinish, Nat.le_trans htotals (by omega), hle⟩
  · exact ⟨rfl, Nat.le_trans htotal (by omega), Nat.le_trans hcounts (by omega)⟩

/-! ## Sentences -/

/-- A sentence is counted alike. -/
theorem countersOf_sentence (m : Nmea) (line : List UInt8)
    (h : total m.reader < 2 ^ 31 - MTK_MNLD_GNSS_MAX_SVS)
    (hcount : m.reader.sv_count ≤ MTK_MNLD_GNSS_MAX_SVS) :
    countersOf (parseSentence strtod m (nmeaTokenizerInit line)).reader =
        sentenceCounters (countersOf m.reader) line ∧
      total (parseSentence strtod m (nmeaTokenizerInit line)).reader ≤
        total m.reader + 2 * MTK_MNLD_GNSS_MAX_SVS ∧
      (parseSentence strtod m (nmeaTokenizerInit line)).reader.sv_count ≤
        MTK_MNLD_GNSS_MAX_SVS := by
  -- most sentences leave the counters as they are
  have hsame {r : NmeaReader} (hr : countersOf r = countersOf m.reader) :
      countersOf r = countersOf m.reader ∧
        total r ≤ total m.reader + 2 * MTK_MNLD_GNSS_MAX_SVS ∧
        r.sv_count ≤ MTK_MNLD_GNSS_MAX_SVS := by
    obtain ⟨hsv, hnum, -⟩ := Counters.mk.inj hr
    have hsv' : r.sv_count = m.reader.sv_count := Int.ofNat_inj.mp hsv
    have hnum' : r.sv_status.num_svs = m.reader.sv_status.num_svs := Int.ofNat_inj.mp hnum
    refine ⟨hr, ?_, hsv'.trans_le hcount⟩
    rw [total, hsv', hnum']
    exact Nat.le_add_right _ _
  rw [parseSentence, sentenceCounters, kindOf]
  generalize (nmeaTokenizerGet (nmeaTokenizerInit line) 0).rest = p
  by_cases hgga : starts (p.drop 2) ['G', 'G', 'A'] = true
  · rw [if_pos hgga, if_pos hgga]
    exact hsame ((countersOf_altitude strtod _ _).trans (countersOf_latlong strtod _ _ _ _ _))
  rw [if_neg hgga, if_neg hgga]
  by_cases hgsa : starts (p.drop 2) ['G', 'S', 'A'] = true
  · rw [if_pos hgsa, if_pos hgsa, parseGsa]
    dsimp only
    split
    · exact ⟨rfl, Nat.le_add_right _ _, hcount⟩
    · exact ⟨rfl, Nat.le_add_right _ _, hcount⟩
  rw [if_neg hgsa, if_neg hgsa]
  by_cases hrmc : starts (p.drop 2) ['R', 'M', 'C'] = true
  · rw [if_pos hrmc, if_pos hrmc]
    refine hsame ?_
    change countersOf (parseRmc strtod m.reader (nmeaTokenizerInit line)) = _
    rw [parseRmc]
    split
    · exact (countersOf_speed strtod _ _).trans <| (countersOf_bearing strtod _ _).trans
        (countersOf_latlong strtod _ _ _ _ _)
    · rfl
  rw [if_neg hrmc, if_neg hrmc]
  by_cases heph : starts (p.drop 5) ['E', 'P', 'H'] = true
  · rw [if_pos heph, if_pos heph]
    exact hsame rfl
  rw [if_neg heph, if_neg heph]
  by_cases halm : starts (p.drop 5) ['A', 'L', 'M'] = true
  · rw [if_pos halm, if_pos halm]
    exact hsame rfl
  rw [if_neg halm, if_neg halm]
  by_cases hgsv : starts (p.drop 2) ['G', 'S', 'V'] = true
  · rw [if_pos hgsv, if_pos hgsv]
    exact countersOf_gsv strtod _ _ _ _ h hcount
  rw [if_neg hgsv, if_neg hgsv]
  by_cases haccuracy : starts (p.drop 2) ['A', 'C', 'C', 'U', 'R', 'A', 'C', 'Y'] = true
  · rw [if_pos haccuracy, if_pos haccuracy]
    refine hsame ?_
    change countersOf (parseAccuracy strtod m.reader (nmeaTokenizerInit line)) = _
    rw [parseAccuracy]
    split
    · exact countersOf_accuracy strtod _ _
    · rfl
  · rw [if_neg haccuracy, if_neg haccuracy]
    exact hsame rfl

/-- `nmea_reader_parse` counts alike. -/
theorem countersOf_parse (m : Nmea) (tag : Bool)
    (h : total m.reader < 2 ^ 31 - MTK_MNLD_GNSS_MAX_SVS)
    (hcount : m.reader.sv_count ≤ MTK_MNLD_GNSS_MAX_SVS) :
    countersOf (Gps.nmeaReaderParse strtod m tag).reader =
        nmeaReaderParse (countersOf m.reader) m.reader.line tag ∧
      total (Gps.nmeaReaderParse strtod m tag).reader ≤
        total m.reader + 2 * MTK_MNLD_GNSS_MAX_SVS ∧
      (Gps.nmeaReaderParse strtod m tag).reader.sv_count ≤ MTK_MNLD_GNSS_MAX_SVS := by
  rw [Gps.nmeaReaderParse, nmeaReaderParse]
  split
  · obtain ⟨hcounters, htotal, hle⟩ := countersOf_sentence strtod m m.reader.line h hcount
    have hlocation (m : Nmea) : countersOf (reportLocation m tag).reader = countersOf m.reader ∧
        total (reportLocation m tag).reader = total m.reader ∧
        (reportLocation m tag).reader.sv_count = m.reader.sv_count := by
      rw [reportLocation]
      split
      · exact ⟨rfl, rfl, rfl⟩
      · exact ⟨rfl, rfl, rfl⟩
    obtain ⟨hreport, hreportTotal, hreportCount⟩ :=
      hlocation (parseSentence strtod m (nmeaTokenizerInit m.reader.line))
    dsimp only
    rw [reportSv, ← hcounters]
    split
    · refine ⟨?_, Nat.zero_le _, Nat.zero_le _⟩
      rw [← hreport]
      rfl
    · exact ⟨hreport, hreportTotal.le.trans htotal, hreportCount.le.trans hle⟩
  · exact ⟨rfl, Nat.le_add_right _ _, hcount⟩

/-! ## Buffers -/

/-- A byte is taken alike. -/
theorem readerOf_addc (m : Nmea) (tag : Bool) (c : UInt8)
    (h : total m.reader < 2 ^ 31 - MTK_MNLD_GNSS_MAX_SVS)
    (hcount : m.reader.sv_count ≤ MTK_MNLD_GNSS_MAX_SVS) :
    readerOf (nmeaReaderAddc strtod tag m c) = (readerOf m).addc tag c ∧
      total (nmeaReaderAddc strtod tag m c).reader ≤ total m.reader + 2 * MTK_MNLD_GNSS_MAX_SVS ∧
      (nmeaReaderAddc strtod tag m c).reader.sv_count ≤ MTK_MNLD_GNSS_MAX_SVS := by
  have hreader : (readerOf m).overflow = m.reader.overflow ∧
    (readerOf m).line = m.reader.line := ⟨rfl, rfl⟩
  rw [nmeaReaderAddc, Reader.addc, hreader.1, hreader.2]
  by_cases hover : m.reader.overflow = true
  · rw [if_pos hover, if_pos hover]
    exact ⟨rfl, Nat.le_add_right _ _, hcount⟩
  rw [if_neg hover, if_neg hover]
  by_cases hfull : NMEA_MAX_SIZE ≤ m.reader.line.length
  · rw [if_pos hfull, if_pos hfull]
    exact ⟨rfl, Nat.le_add_right _ _, hcount⟩
  rw [if_neg hfull, if_neg hfull]
  by_cases hend : c = '\n'.toUInt8
  · dsimp only
    rw [if_pos hend, if_pos hend]
    obtain ⟨hcounters, htotal, hle⟩ := countersOf_parse strtod
      { m with reader := { m.reader with line := m.reader.line ++ [c] } } tag h hcount
    refine ⟨?_, htotal, hle⟩
    have hsame := @sameLine_parse strtod
      { m with reader := { m.reader with line := m.reader.line ++ [c] } } tag
    rw [readerOf, hsame.2]
    exact congrArg (Reader.mk [] m.reader.overflow) hcounters
  · dsimp only
    rw [if_neg hend, if_neg hend]
    exact ⟨rfl, Nat.le_add_right _ _, hcount⟩

/-- The bytes of a buffer, each with the parser that takes it. -/
def parsersFrom : Nmea → List UInt8 → List (Nmea × Bool × UInt8)
  | _, [] => []
  | m, c :: cs =>
    (m, cs.isEmpty, c) :: parsersFrom (nmeaReaderAddc strtod cs.isEmpty m c) cs

theorem bytesFrom_eq (buffer : List UInt8) (m : Nmea)
    (h : total m.reader + 128 * buffer.length < 2 ^ 31 - MTK_MNLD_GNSS_MAX_SVS)
    (hcount : m.reader.sv_count ≤ MTK_MNLD_GNSS_MAX_SVS) :
    bytesFrom (readerOf m) buffer =
      (parsersFrom strtod m buffer).map fun x => (readerOf x.1, x.2) := by
  have hmax : MTK_MNLD_GNSS_MAX_SVS = 64 := rfl
  induction buffer generalizing m with
  | nil => rfl
  | cons c cs ih =>
    rw [List.length_cons] at h
    obtain ⟨hreader, htotal, hle⟩ := readerOf_addc strtod m cs.isEmpty c (by omega) hcount
    rw [bytesFrom, parsersFrom, List.map_cons, ← hreader, ih _ (by omega) hle]

end MtkHw.Gps.NmeaMemory
