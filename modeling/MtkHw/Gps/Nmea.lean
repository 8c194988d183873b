import MtkHw.Lib.Scanner
import Mathlib.Tactic.Common
import Mathlib.Algebra.Group.Int.Defs
import Mathlib.Algebra.Group.Nat.Defs

/-!
# The sentences of the receiver

The parser of the sentences that the receiver writes.  A buffer is read byte by byte; a sentence is
parsed when its end of line comes, and what a buffer says about the satellites and the position is
reported with the last byte of the buffer.  The reader lives as long as a buffer; the flags of the
satellites (`NmeaCash`) live on.

The conversion of a text to a number is the one of the C library and is a parameter.  The date and
the time of a fix, which come from the system clock, and the self test are left out.
-/

namespace MtkHw.Gps

/-! ## Data -/

/-- `SV_TYPE`. -/
inductive SvType where
  | unknown
  | gps
  | sbas
  | glonass
  | qzss
  | bds
  | galileo
  deriving DecidableEq, Repr

def NMEA_MAX_SIZE : Nat := 255
def NMEA_MAX_SV_INFO : Nat := 4
def MAX_NMEA_TOKENS : Nat := 64
def MTK_MNLD_GNSS_MAX_SVS : Nat := 64

/-- The number of satellites of the platform. -/
def GPS_MAX_SVS : Nat := 32

/-- `gps_location`, without the time. -/
structure GpsLocation where
  flags : Nat
  lat : Float
  lng : Float
  alt : Float
  speed : Float32
  bearing : Float32
  accuracy : Float32

def MTK_GPS_LOCATION_HAS_LAT_LONG : Nat := 0x0001
def MTK_GPS_LOCATION_HAS_ALT : Nat := 0x0002
def MTK_GPS_LOCATION_HAS_SPEED : Nat := 0x0004
def MTK_GPS_LOCATION_HAS_BEARING : Nat := 0x0008
def MTK_GPS_LOCATION_HAS_ACCURACY : Nat := 0x0010

/-- `gnss_sv`. -/
structure GnssSv where
  svid : Int
  constellation : SvType
  c_n0_dbhz : Float32
  elevation : Float32
  azimuth : Float32
  flags : UInt8

/-- `gnss_sv_info`. -/
structure GnssSvInfo where
  num_svs : Nat
  sv_list : List GnssSv

/-- `NmeaCash`: what the sentences have said about a satellite. -/
structure NmeaCash where
  has_ephemeris_data : Bool
  has_almanac_data : Bool
  used_in_fix : Bool
  deriving DecidableEq, Repr

/-- The flags of a satellite. -/
inductive CashFlag where
  | ephemeris
  | almanac
  | usedInFix
  deriving DecidableEq, Repr

namespace NmeaCash

def zero : NmeaCash := ⟨false, false, false⟩

/-- A flag. -/
def has (cash : NmeaCash) : CashFlag → Bool
  | .ephemeris => cash.has_ephemeris_data
  | .almanac => cash.has_almanac_data
  | .usedInFix => cash.used_in_fix

/-- A flag is set. -/
def set (cash : NmeaCash) : CashFlag → NmeaCash
  | .ephemeris => { cash with has_ephemeris_data := true }
  | .almanac => { cash with has_almanac_data := true }
  | .usedInFix => { cash with used_in_fix := true }

end NmeaCash

/-- A flag of a satellite is set. -/
def setCash (flag : CashFlag) (nmea_cash : Nat → NmeaCash) (prn : Nat) : Nat → NmeaCash :=
  fun prn' => if prn' = prn then (nmea_cash prn').set flag else nmea_cash prn'

/-- `NmeaReader`; the position in the line is the length of what is read of it. -/
structure NmeaReader where
  line : List UInt8
  overflow : Bool
  fix : GpsLocation
  fix_mode : Int
  sv_count : Nat
  sv_status : GnssSvInfo

/-- What is reported. -/
inductive NmeaReport where
  | location (fix : GpsLocation)
  | gpsSv (sv_status : GnssSvInfo)
  | nmea (line : List UInt8)

/-- The parser: a reader, the flags of the satellites and what was reported. -/
structure Nmea where
  reader : NmeaReader
  nmea_cash : Nat → NmeaCash
  reports : List NmeaReport

def GnssSv.zero : GnssSv := ⟨0, .unknown, 0, 0, 0, 0⟩

/-- `nmea_reader_init`. -/
def NmeaReader.init : NmeaReader where
  line := []
  overflow := false
  fix := ⟨0, 0, 0, 0, 0, 0, 0⟩
  fix_mode := 0
  sv_count := 0
  sv_status := ⟨0, List.replicate MTK_MNLD_GNSS_MAX_SVS GnssSv.zero⟩

/-! ## Tokens -/

/-- A token: a pointer into the line, as what is left of the line there, and a length. -/
structure Token where
  rest : List UInt8
  len : Nat
  deriving DecidableEq, Repr

/-- The byte a token points to; past the line there are zeros. -/
def Token.head (tok : Token) : UInt8 := tok.rest.headD 0

/-- A text of the source. -/
def text (s : List Char) : List UInt8 := s.map Char.toUInt8

/-- `memcmp` with a text. -/
def starts (p : List UInt8) (s : List Char) : Bool := (text s).isPrefixOf p

/-- The tokens of `len` bytes; every round takes a byte. -/
def tokensFrom : Nat → List UInt8 → Nat → List Token
  | 0, _, _ => []
  | fuel + 1, p, len =>
    if len = 0 then []
    else
      let q := (p.take len).idxOf ','.toUInt8
      ⟨p, q⟩ :: tokensFrom fuel (p.drop (q + 1)) (len - (q + 1))

/-- `nmea_tokenizer_init`: without the dollar sign, the end of line and the checksum. -/
def nmeaTokenizerInit (line : List UInt8) : List Token :=
  let p := if line.head? = some '$'.toUInt8 then line.drop 1 else line
  let len := p.length
  let len :=
    if 0 < len ∧ p[len - 1]? = some '\n'.toUInt8 then
      let len := len - 1
      if 0 < len ∧ p[len - 1]? = some '\r'.toUInt8 then len - 1 else len
    else len
  let len := if 3 ≤ len ∧ p[len - 3]? = some '*'.toUInt8 then len - 3 else len
  (tokensFrom len p len).take MAX_NMEA_TOKENS

/-- `nmea_tokenizer_get`. -/
def nmeaTokenizerGet (tzer : List Token) (index : Nat) : Token := tzer.getD index ⟨[], 0⟩

/-- The value in an `int`. -/
def toInt (x : Int) : Int := Int.bmod x (2 ^ 32)

/-- The digits of `str2int`. -/
def str2intDigits : Int → Nat → List UInt8 → Option Int
  | result, 0, _ => some result
  | _, _ + 1, [] => none
  | result, len + 1, c :: p =>
    if 48 ≤ c.toNat ∧ c.toNat < 58 then
      str2intDigits (toInt (result * 10 + (c.toNat - 48 : Nat))) len p
    else none

/-- `str2int`. -/
def str2int (p : List UInt8) (len : Nat) : Int :=
  if p.head? = some '-'.toUInt8 then
    match str2intDigits 0 (len - 1) (p.drop 1) with
    | some result => -result
    | none => -1
  else (str2intDigits 0 len p).getD (-1)

def Token.toInt (tok : Token) : Int := str2int tok.rest tok.len

section

variable (strtod : List UInt8 → Float)

/-- `str2float`. -/
def str2float (p : List UInt8) (len : Nat) : Float :=
  if 16 ≤ len then 0 else strtod (p.take len)

def Token.toFloat (tok : Token) : Float := str2float strtod tok.rest tok.len

/-! ## Fixes -/

def convertFromHhmm (tok : Token) : Float :=
  let val := tok.toFloat strtod
  let degrees := (val.floor / 100).toInt32.toInt
  let minutes := val - Float.ofInt degrees * 100
  Float.ofInt degrees + minutes / 60.0

def nmeaReaderUpdateAltitude (r : NmeaReader) (altitude : Token) : NmeaReader :=
  if altitude.len = 0 then r
  else { r with fix := { r.fix with
    flags := r.fix.flags ||| MTK_GPS_LOCATION_HAS_ALT
    alt := altitude.toFloat strtod } }

def nmeaReaderUpdateLatlong (r : NmeaReader) (latitude : Token) (latitudeHemi : UInt8)
    (longitude : Token) (longitudeHemi : UInt8) : NmeaReader :=
  if latitude.len < 6 then r
  else
    let lat := convertFromHhmm strtod latitude
    let lat := if latitudeHemi = 'S'.toUInt8 then -lat else lat
    if longitude.len < 6 then r
    else
      let lon := convertFromHhmm strtod longitude
      let lon := if longitudeHemi = 'W'.toUInt8 then -lon else lon
      { r with fix := { r.fix with
        flags := r.fix.flags ||| MTK_GPS_LOCATION_HAS_LAT_LONG
        lat := lat
        lng := lon } }

def nmeaReaderUpdateBearing (r : NmeaReader) (bearing : Token) : NmeaReader :=
  if bearing.len = 0 then r
  else { r with fix := { r.fix with
    flags := r.fix.flags ||| MTK_GPS_LOCATION_HAS_BEARING
    bearing := (bearing.toFloat strtod).toFloat32 } }

def nmeaReaderUpdateSpeed (r : NmeaReader) (speed : Token) : NmeaReader :=
  if speed.len = 0 then r
  else { r with fix := { r.fix with
    flags := r.fix.flags ||| MTK_GPS_LOCATION_HAS_SPEED
    speed := (speed.toFloat strtod / 1.942795467).toFloat32 } }

def nmeaReaderUpdateAccuracy (r : NmeaReader) (accuracy : Token) : NmeaReader :=
  if accuracy.len = 0 then r
  else { r with fix := { r.fix with
    flags := r.fix.flags ||| MTK_GPS_LOCATION_HAS_ACCURACY
    accuracy := (accuracy.toFloat strtod).toFloat32 } }

/-! ## Satellites -/

/-- The satellite of a number, and its constellation. -/
def svOf (prn : Int) : Option (Int × SvType) :=
  if 0 < prn ∧ prn ≤ 32 then some (prn, .gps)
  else if 65 ≤ prn ∧ prn ≤ 96 then some (prn - 64, .glonass)
  else if 201 ≤ prn ∧ prn ≤ 237 then some (prn - 200, .bds)
  else if 401 ≤ prn ∧ prn ≤ 436 then some (prn - 400, .galileo)
  else if 193 ≤ prn ∧ prn ≤ 197 then some (prn, .qzss)
  else if 33 ≤ prn ∧ prn ≤ 64 then some (prn + 87, .sbas)
  else none

/-- A flag is set or cleared. -/
def putFlag (flags mask : UInt8) (on : Bool) : UInt8 :=
  if on then flags ||| mask else flags &&& ~~~mask

/-- The flags of a satellite. -/
def svFlags (cash : NmeaCash) (flags : UInt8) : UInt8 :=
  putFlag (putFlag (putFlag flags 0x04 cash.used_in_fix) 0x02 cash.has_almanac_data) 0x01
    cash.has_ephemeris_data

def nmeaReaderUpdateSvStatus (nmea_cash : Nat → NmeaCash) (r : NmeaReader) (prn : Int)
    (elevation azimuth snr : Token) : NmeaReader :=
  let sv_index := r.sv_count + r.sv_status.num_svs
  if MTK_MNLD_GNSS_MAX_SVS ≤ sv_index then r
  else
    match svOf prn with
    | none => r
    | some (svid, constellation) =>
      { r with
        sv_count := r.sv_count + 1
        sv_status := { r.sv_status with
          sv_list := r.sv_status.sv_list.modify sv_index fun sv =>
            { svid := svid
              constellation := constellation
              c_n0_dbhz := (snr.toFloat strtod).toFloat32
              elevation := Float32.ofInt elevation.toInt
              azimuth := Float32.ofInt azimuth.toInt
              flags := svFlags (nmea_cash prn.toNat) sv.flags } } }

/-! ## Sentences -/

/-- The constellation of the first two bytes. -/
def svTypeOf (p : List UInt8) : SvType :=
  if starts p ['B', 'D'] then .bds
  else if starts p ['G', 'P'] then .gps
  else if starts p ['G', 'L'] then .glonass
  else if starts p ['G', 'A'] then .galileo
  else .gps

/-- The number of a satellite in its constellation. -/
def satelliteId (sv_type : SvType) (id : Int) : Int :=
  match sv_type with
  | .bds => toInt (id + 200)
  | .galileo => toInt (id + 400)
  | _ => id

def NmeaReader.locFixed (r : NmeaReader) : Bool := r.fix_mode = 2 || r.fix_mode = 3

def parseGga (r : NmeaReader) (tzer : List Token) : NmeaReader :=
  let r := nmeaReaderUpdateLatlong strtod r (nmeaTokenizerGet tzer 2)
    (nmeaTokenizerGet tzer 3).head (nmeaTokenizerGet tzer 4) (nmeaTokenizerGet tzer 5).head
  nmeaReaderUpdateAltitude strtod r (nmeaTokenizerGet tzer 9)

/-- The satellites of a fix, up to the first empty field; a number that is out of range is passed
over. -/
def activeSatellites (sv_type : SvType) (tzer : List Token) : List Nat :=
  (((List.range 12).map fun idx => nmeaTokenizerGet tzer (idx + 3)).takeWhile
    fun tok => tok.len ≠ 0).filterMap fun tok =>
      let sate_id := satelliteId sv_type tok.toInt
      if 0 ≤ sate_id ∧ sate_id < 450 then some sate_id.toNat else none

def parseGsa (m : Nmea) (sv_type : SvType) (tzer : List Token) : Nmea :=
  let m := { m with reader := { m.reader with fix_mode := (nmeaTokenizerGet tzer 2).toInt } }
  if m.reader.locFixed then
    { m with
      nmea_cash := (activeSatellites sv_type tzer).foldl (setCash .usedInFix) m.nmea_cash }
  else m

def parseRmc (r : NmeaReader) (tzer : List Token) : NmeaReader :=
  if (nmeaTokenizerGet tzer 2).head = 'A'.toUInt8 then
    let r := nmeaReaderUpdateLatlong strtod r (nmeaTokenizerGet tzer 3)
      (nmeaTokenizerGet tzer 4).head (nmeaTokenizerGet tzer 5) (nmeaTokenizerGet tzer 6).head
    let r := nmeaReaderUpdateBearing strtod r (nmeaTokenizerGet tzer 8)
    nmeaReaderUpdateSpeed strtod r (nmeaTokenizerGet tzer 7)
  else r

/-- The satellites with a positive number in a list for all satellites. -/
def listedSatellites (tzer : List Token) : List Nat :=
  ((List.range GPS_MAX_SVS).filter fun idx => 0 < (nmeaTokenizerGet tzer (idx + 2)).toInt).map
    fun idx => idx + 1

def parseEph (m : Nmea) (tzer : List Token) : Nmea :=
  { m with nmea_cash := (listedSatellites tzer).foldl (setCash .ephemeris) m.nmea_cash }

def parseAlm (m : Nmea) (tzer : List Token) : Nmea :=
  { m with nmea_cash := (listedSatellites tzer).foldl (setCash .almanac) m.nmea_cash }

/-- The first sentence of a group starts a new count. -/
def startGsv (r : NmeaReader) (seq : Int) : NmeaReader :=
  if seq = 1 then { r with sv_count := 0 } else r

/-- The satellites of a sentence. -/
def parseGsvSatellites (nmea_cash : Nat → NmeaCash) (r : NmeaReader) (sv_type : SvType)
    (tzer : List Token) (sv_num : Int) : NmeaReader :=
  (List.range sv_num.toNat).foldl (fun r idx =>
    let base_idx := 4 * (idx + 1)
    nmeaReaderUpdateSvStatus strtod nmea_cash r
      (satelliteId sv_type (nmeaTokenizerGet tzer base_idx).toInt)
      (nmeaTokenizerGet tzer (base_idx + 1)) (nmeaTokenizerGet tzer (base_idx + 2))
      (nmeaTokenizerGet tzer (base_idx + 3))) r

/-- The last sentence of a group ends the count. -/
def finishGsv (r : NmeaReader) (cnt : Int) : NmeaReader :=
  if (r.sv_count : Int) ≤ cnt then
    { r with sv_status := { r.sv_status with num_svs := r.sv_status.num_svs + r.sv_count } }
  else { r with sv_count := 0, sv_status := { r.sv_status with num_svs := 0 } }

def parseGsv (nmea_cash : Nat → NmeaCash) (r : NmeaReader) (sv_type : SvType)
    (tzer : List Token) : NmeaReader :=
  let num := (nmeaTokenizerGet tzer 1).toInt
  let seq := (nmeaTokenizerGet tzer 2).toInt
  let cnt := (nmeaTokenizerGet tzer 3).toInt
  let sv_base := toInt ((seq - 1) * NMEA_MAX_SV_INFO)
  let sv_num := min (toInt (cnt - sv_base)) NMEA_MAX_SV_INFO
  let r := parseGsvSatellites strtod nmea_cash (startGsv r seq) sv_type tzer sv_num
  if seq = num then finishGsv r cnt else r

def parseAccuracy (r : NmeaReader) (tzer : List Token) : NmeaReader :=
  if r.fix_mode = 3 ∨ r.fix_mode = 2 then
    nmeaReaderUpdateAccuracy strtod r (nmeaTokenizerGet tzer 1)
  else r

/-- What a sentence says, by its name. -/
def parseSentence (m : Nmea) (tzer : List Token) : Nmea :=
  let p := (nmeaTokenizerGet tzer 0).rest
  let sv_type := svTypeOf p
  if starts (p.drop 2) ['G', 'G', 'A'] then { m with reader := parseGga strtod m.reader tzer }
  else if starts (p.drop 2) ['G', 'S', 'A'] then parseGsa m sv_type tzer
  else if starts (p.drop 2) ['R', 'M', 'C'] then
    { m with reader := parseRmc strtod m.reader tzer }
  else if starts (p.drop 5) ['E', 'P', 'H'] then parseEph m tzer
  else if starts (p.drop 5) ['A', 'L', 'M'] then parseAlm m tzer
  else if starts (p.drop 2) ['G', 'S', 'V'] then
    { m with reader := parseGsv strtod m.nmea_cash m.reader sv_type tzer }
  else if starts (p.drop 2) ['A', 'C', 'C', 'U', 'R', 'A', 'C', 'Y'] then
    { m with reader := parseAccuracy strtod m.reader tzer }
  else m

/-! ## Reports -/

/-- The position is reported at the end, when there is a fix. -/
def reportLocation (m : Nmea) (gps_nmea_end_tag : Bool) : Nmea :=
  if m.reader.locFixed ∧ m.reader.fix.flags ≠ 0 ∧ gps_nmea_end_tag then
    { m with
      reports := m.reports ++ [.location m.reader.fix]
      reader := { m.reader with fix := { m.reader.fix with flags := 0 } } }
  else m

/-- The satellites are reported at the end, and what is known of them is dropped. -/
def reportSv (m : Nmea) (gps_nmea_end_tag : Bool) : Nmea :=
  if gps_nmea_end_tag then
    { reports := m.reports ++ [.gpsSv m.reader.sv_status]
      reader := { m.reader with
        sv_count := 0
        sv_status := { m.reader.sv_status with num_svs := 0 } }
      nmea_cash := fun _ => .zero }
  else m

/-- The sentences that are parsed: not too short, and with a name that is not too short. -/
def parsable (line : List UInt8) : Bool :=
  9 ≤ line.length && 5 ≤ (nmeaTokenizerGet (nmeaTokenizerInit line) 0).len

/-- `nmea_reader_parse`. -/
def nmeaReaderParse (m : Nmea) (gps_nmea_end_tag : Bool) : Nmea :=
  if parsable m.reader.line then
    let m := parseSentence strtod m (nmeaTokenizerInit m.reader.line)
    reportSv (reportLocation m gps_nmea_end_tag) gps_nmea_end_tag
  else m

/-- `nmea_reader_addc`. -/
def nmeaReaderAddc (gps_nmea_end_tag : Bool) (m : Nmea) (c : UInt8) : Nmea :=
  if m.reader.overflow then
    { m with reader := { m.reader with overflow := c ≠ '\n'.toUInt8 } }
  else if NMEA_MAX_SIZE ≤ m.reader.line.length then
    { m with reader := { m.reader with overflow := true, line := [] } }
  else
    let m := { m with reader := { m.reader with line := m.reader.line ++ [c] } }
    if c = '\n'.toUInt8 then
      let m := nmeaReaderParse strtod m gps_nmea_end_tag
      { m with
        reports := m.reports ++ [.nmea m.reader.line]
        reader := { m.reader with line := [] } }
    else m

/-- The bytes of a buffer: the last one ends it. -/
def nmeaReaderAddAll : Nmea → List UInt8 → Nmea
  | m, [] => m
  | m, [c] => nmeaReaderAddc strtod true m c
  | m, c :: c' :: cs => nmeaReaderAddAll (nmeaReaderAddc strtod false m c) (c' :: cs)

/-- `mtk_mnl_nmea_parser_process`: a new reader, with the flags of the satellites. -/
def mtkMnlNmeaParserProcess (nmea_cash : Nat → NmeaCash) (buffer : List UInt8) : Nmea :=
  nmeaReaderAddAll strtod ⟨.init, nmea_cash, []⟩ buffer

/-- The flags of the satellites after a history of buffers. -/
def cashAfter (history : List (List UInt8)) : Nat → NmeaCash :=
  history.foldl (fun nmea_cash buffer => (mtkMnlNmeaParserProcess strtod nmea_cash buffer).nmea_cash)
    fun _ => .zero

end

end MtkHw.Gps
