import MtkHw.Gps.Nmea
import MtkHw.Lib.Trace

/-!
# The memory of the parser of sentences

Which elements of its arrays the parser reads and writes, in order, and how often its loops go
round.  What is done depends on the bytes of the sentence and on three counters, which are `int`s
here: the satellites of the group, the satellites that are to be reported, and the mode of the fix.

The line, the tokens, the satellites of the report and the flags of the satellites are bounded one
by one.  The two arrays of the self test, `prn` and `snr`, have room for 32 satellites and share
their counter with the report, which has room for 64.
-/

namespace MtkHw.Gps.NmeaMemory

/-! ## Steps -/

/-- The arrays: the line `in` of the reader, the tokens, the satellites of the report, the flags of
the satellites, the arrays of the self test, the copy of a number and the empty text. -/
inductive Cell where
  | line
  | tokens
  | svList
  | nmeaCash
  | prn
  | snr
  | temp
  | dummy
  deriving DecidableEq, Repr

/-- The number of elements. -/
def Cell.size : Cell → Nat
  | .line => NMEA_MAX_SIZE + 1
  | .tokens => MAX_NMEA_TOKENS
  | .svList => MTK_MNLD_GNSS_MAX_SVS
  | .nmeaCash => 450
  | .prn => 32
  | .snr => 32
  | .temp => 16
  | .dummy => 1

/-- An element is read or written, or a loop goes round. -/
inductive Step where
  | read (cell : Cell) (index : Int)
  | write (cell : Cell) (index : Int)
  | round
  deriving DecidableEq, Repr

/-- The element exists. -/
def Step.Inside : Step → Prop
  | .read cell index => 0 ≤ index ∧ index < cell.size
  | .write cell index => 0 ≤ index ∧ index < cell.size
  | .round => True

/-- `memset` of a whole array. -/
def clearSteps (cell : Cell) : List Step := (List.range cell.size).map fun i : Nat => .write cell i

section Line

/-! ## Texts

A pointer into the line is the part of the line that is left there. -/

variable (line : List UInt8)

/-- The byte `i` after a pointer. -/
def byteAt (p : List UInt8) (i : Nat) : Step := .read .line (line.length - p.length + i : Nat)

/-- The first `n` bytes after a pointer. -/
def bytesAt (p : List UInt8) (n : Nat) : List Step := (List.range n).map (byteAt line p)

/-- `tok.p[0]`; a token that is missing points to the empty text. -/
def headStep (tok : Token) : Step :=
  if tok.rest = [] then .read .dummy 0 else byteAt line tok.rest 0

/-- The tokens: a comma is looked for and the token is stored, if there is room. -/
def tokenSteps (p : List UInt8) (len count : Nat) : List Step :=
  if len = 0 then []
  else
    let q := (p.take len).idxOf ','.toUInt8
    .round :: bytesAt line p (min (q + 1) len) ++
      (if count < MAX_NMEA_TOKENS then [.write .tokens count] else []) ++
      tokenSteps (p.drop (q + 1)) (len - (q + 1)) (count + 1)
termination_by len

/-- `nmea_tokenizer_init`. -/
def nmeaTokenizerInitSteps : List Step :=
  let p := if line.head? = some '$'.toUInt8 then line.drop 1 else line
  let dollar := if 0 < line.length then [byteAt line line 0] else []
  let len := p.length
  let newline := if 0 < len then [byteAt line p (len - 1)] else []
  let ended : Prop := 0 < len ∧ p[len - 1]? = some '\n'.toUInt8
  let return_ := if ended ∧ 0 < len - 1 then [byteAt line p (len - 2)] else []
  let len :=
    if 0 < len ∧ p[len - 1]? = some '\n'.toUInt8 then
      let len := len - 1
      if 0 < len ∧ p[len - 1]? = some '\r'.toUInt8 then len - 1 else len
    else len
  let star := if 3 ≤ len then [byteAt line p (len - 3)] else []
  let len := if 3 ≤ len ∧ p[len - 3]? = some '*'.toUInt8 then len - 3 else len
  dollar ++ newline ++ return_ ++ star ++ tokenSteps line p len 0

/-- `nmea_tokenizer_get`. -/
def nmeaTokenizerGetSteps (tzer : List Token) (index : Nat) : List Step :=
  if index < tzer.length then [.read .tokens index] else []

/-- The digits of `str2int`, up to the first byte that is none. -/
def digitSteps : Nat → List UInt8 → List Step
  | 0, _ => []
  | _ + 1, [] => [.round, byteAt line [] 0]
  | len + 1, c :: p =>
    .round :: byteAt line (c :: p) 0 ::
      if 48 ≤ c.toNat ∧ c.toNat < 58 then digitSteps len p else []

/-- `str2int`. -/
def str2intSteps (tok : Token) : List Step :=
  headStep line tok ::
    if tok.rest.head? = some '-'.toUInt8 then digitSteps line (tok.len - 1) (tok.rest.drop 1)
    else digitSteps line tok.len tok.rest

/-- `str2float`: a number that is not too long is copied. -/
def str2floatSteps (tok : Token) : List Step :=
  if 16 ≤ tok.len then []
  else
    bytesAt line tok.rest tok.len ++ (List.range tok.len).map (fun i : Nat => .write .temp i) ++
      [.write .temp tok.len]

/-- Comparisons with texts at places after a pointer, up to the first one that holds. -/
def memcmpSteps (p : List UInt8) : List (Nat × List Char) → List Step
  | [] => []
  | (k, s) :: rest =>
    bytesAt line (p.drop k) s.length ++ if starts (p.drop k) s then [] else memcmpSteps p rest

/-! ## Fixes -/

/-- A field of at least one byte is converted. -/
def updateSteps (tok : Token) : List Step := if tok.len = 0 then [] else str2floatSteps line tok

/-- A part of a token. -/
def part (tok : Token) (start len : Nat) : Token := ⟨tok.rest.drop start, len⟩

/-- `nmea_reader_update_time`. -/
def nmeaReaderUpdateTimeSteps (tok : Token) : List Step :=
  if tok.len < 6 then []
  else
    str2intSteps line (part tok 0 2) ++ str2intSteps line (part tok 2 2) ++
      str2floatSteps line (part tok 4 (tok.len - 4))

/-- `nmea_reader_update_date`. -/
def nmeaReaderUpdateDateSteps (date time : Token) : List Step :=
  if date.len ≠ 6 then []
  else
    let day := (part date 0 2).toInt
    let mon := (part date 2 2).toInt
    let year := (part date 4 2).toInt + 2000
    str2intSteps line (part date 0 2) ++ str2intSteps line (part date 2 2) ++
      str2intSteps line (part date 4 2) ++
      if day < 0 ∨ mon < 0 ∨ year < 0 then [] else nmeaReaderUpdateTimeSteps line time

/-- `nmea_reader_update_latlong`. -/
def nmeaReaderUpdateLatlongSteps (latitude longitude : Token) : List Step :=
  if latitude.len < 6 then []
  else
    str2floatSteps line latitude ++
      if longitude.len < 6 then [] else str2floatSteps line longitude

end Line

/-! ## Counters -/

/-- The counters of the reader. -/
structure Counters where
  sv_count : Int
  num_svs : Int
  fix_mode : Int
  deriving DecidableEq, Repr

def Counters.init : Counters := ⟨0, 0, 0⟩

def Counters.locFixed (s : Counters) : Bool := s.fix_mode = 2 || s.fix_mode = 3

/-- The element of the report for the next satellite. -/
def Counters.svIndex (s : Counters) : Int := toInt (s.sv_count + s.num_svs)

/-- `nmea_reader_update_sv_status`: a satellite with a number that is known is counted, if the
report has room. -/
def nmeaReaderUpdateSvStatus (s : Counters) (prn : Int) : Counters :=
  if (MTK_MNLD_GNSS_MAX_SVS : Int) ≤ s.svIndex then s
  else if (svOf prn).isSome then { s with sv_count := toInt (s.sv_count + 1) }
  else s

/-- The numbers of the head of a GSV sentence. -/
structure GsvHead where
  num : Int
  seq : Int
  cnt : Int
  sv_num : Int

def gsvHead (tzer : List Token) : GsvHead :=
  let num := (nmeaTokenizerGet tzer 1).toInt
  let seq := (nmeaTokenizerGet tzer 2).toInt
  let cnt := (nmeaTokenizerGet tzer 3).toInt
  let sv_base := toInt ((seq - 1) * NMEA_MAX_SV_INFO)
  ⟨num, seq, cnt, min (toInt (cnt - sv_base)) NMEA_MAX_SV_INFO⟩

/-- The number of an entry of a GSV sentence. -/
def gsvId (sv_type : SvType) (tzer : List Token) (idx : Nat) : Int :=
  satelliteId sv_type (nmeaTokenizerGet tzer (4 * (idx + 1))).toInt

/-- The first sentence of a group starts a new count. -/
def startGsv (s : Counters) (seq : Int) : Counters :=
  if seq = 1 then { s with sv_count := 0 } else s

/-- The counters after some entries. -/
def gsvEntries (sv_type : SvType) (tzer : List Token) (s : Counters) (idxs : List Nat) : Counters :=
  idxs.foldl (fun s idx => nmeaReaderUpdateSvStatus s (gsvId sv_type tzer idx)) s

/-- The last sentence of a group ends the count. -/
def finishGsv (s : Counters) (cnt : Int) : Counters :=
  if s.sv_count ≤ cnt then { s with num_svs := toInt (s.num_svs + s.sv_count) }
  else { s with sv_count := 0, num_svs := 0 }

def gsvCounters (s : Counters) (sv_type : SvType) (tzer : List Token) : Counters :=
  let head := gsvHead tzer
  let s := gsvEntries sv_type tzer (startGsv s head.seq) (List.range head.sv_num.toNat)
  if head.seq = head.num then finishGsv s head.cnt else s

/-! ## Sentences -/

/-- The sentences with a name of their own. -/
inductive Kind where
  | gga
  | gsa
  | rmc
  | eph
  | alm
  | gsv
  | accuracy
  | other
  deriving DecidableEq, Repr

/-- The kind of a sentence, by its name. -/
def kindOf (p : List UInt8) : Kind :=
  if starts (p.drop 2) ['G', 'G', 'A'] then .gga
  else if starts (p.drop 2) ['G', 'S', 'A'] then .gsa
  else if starts (p.drop 2) ['R', 'M', 'C'] then .rmc
  else if starts (p.drop 5) ['E', 'P', 'H'] then .eph
  else if starts (p.drop 5) ['A', 'L', 'M'] then .alm
  else if starts (p.drop 2) ['G', 'S', 'V'] then .gsv
  else if starts (p.drop 2) ['A', 'C', 'C', 'U', 'R', 'A', 'C', 'Y'] then .accuracy
  else .other

/-- The comparisons that find the kind. -/
def kindNames : List (Nat × List Char) :=
  [(2, ['G', 'G', 'A']), (2, ['G', 'S', 'A']), (2, ['R', 'M', 'C']), (5, ['E', 'P', 'H']),
    (5, ['A', 'L', 'M']), (2, ['G', 'S', 'V']), (2, ['A', 'C', 'C', 'U', 'R', 'A', 'C', 'Y'])]

/-- The comparisons that find the constellation. -/
def svTypeNames : List (Nat × List Char) :=
  [(0, ['B', 'D']), (0, ['G', 'P']), (0, ['G', 'L']), (0, ['G', 'A'])]

section Sentences

variable (line : List UInt8) (tzer : List Token)

/-- A field is taken. -/
def get (index : Nat) : List Step := nmeaTokenizerGetSteps tzer index

/-- A field is taken and converted to an `int`. -/
def getInt (index : Nat) : List Step :=
  get tzer index ++ str2intSteps line (nmeaTokenizerGet tzer index)

def ggaSteps : List Step :=
  get tzer 1 ++ get tzer 2 ++ get tzer 3 ++ get tzer 4 ++ get tzer 5 ++ get tzer 9 ++
    get tzer 10 ++ nmeaReaderUpdateTimeSteps line (nmeaTokenizerGet tzer 1) ++
    [headStep line (nmeaTokenizerGet tzer 3), headStep line (nmeaTokenizerGet tzer 5)] ++
    nmeaReaderUpdateLatlongSteps line (nmeaTokenizerGet tzer 2) (nmeaTokenizerGet tzer 4) ++
    updateSteps line (nmeaTokenizerGet tzer 9)

/-- The satellites of a fix, up to the first empty field. -/
def gsaSatelliteSteps (sv_type : SvType) : List Nat → List Step
  | [] => []
  | idx :: idxs =>
    let tok := nmeaTokenizerGet tzer (idx + 3)
    .round :: get tzer (idx + 3) ++
      if tok.len = 0 then []
      else
        let sate_id := satelliteId sv_type tok.toInt
        str2intSteps line tok ++
          (if 0 ≤ sate_id ∧ sate_id < 450 then
            [.write .nmeaCash sate_id, .write .nmeaCash sate_id] else []) ++
          gsaSatelliteSteps sv_type idxs

def gsaSteps (s : Counters) (sv_type : SvType) : List Step :=
  getInt line tzer 2 ++
    if s.locFixed then gsaSatelliteSteps line tzer sv_type (List.range 12) else []

def rmcSteps : List Step :=
  get tzer 1 ++ get tzer 2 ++ get tzer 3 ++ get tzer 4 ++ get tzer 5 ++ get tzer 6 ++
    get tzer 7 ++ get tzer 8 ++ get tzer 9 ++ [headStep line (nmeaTokenizerGet tzer 2)] ++
    if (nmeaTokenizerGet tzer 2).head = 'A'.toUInt8 then
      nmeaReaderUpdateDateSteps line (nmeaTokenizerGet tzer 9) (nmeaTokenizerGet tzer 1) ++
        [headStep line (nmeaTokenizerGet tzer 4), headStep line (nmeaTokenizerGet tzer 6)] ++
        nmeaReaderUpdateLatlongSteps line (nmeaTokenizerGet tzer 3) (nmeaTokenizerGet tzer 5) ++
        updateSteps line (nmeaTokenizerGet tzer 8) ++ updateSteps line (nmeaTokenizerGet tzer 7)
    else []

/-- The list for all satellites of the EPH and ALM sentences. -/
def listSteps : List Step :=
  getInt line tzer 1 ++ (List.range GPS_MAX_SVS).flatMap fun idx =>
    .round :: getInt line tzer (idx + 2) ++
      if 0 < (nmeaTokenizerGet tzer (idx + 2)).toInt then [.write .nmeaCash (idx + 1 : Nat)] else []

/-- `nmea_reader_update_sv_status`. -/
def nmeaReaderUpdateSvStatusSteps (s : Counters) (prn : Int) (elevation azimuth snr : Token) :
    List Step :=
  if (MTK_MNLD_GNSS_MAX_SVS : Int) ≤ s.svIndex then []
  else if (svOf prn).isSome then
    [.write .svList s.svIndex, .write .svList s.svIndex] ++
      str2floatSteps line snr ++ [.write .svList s.svIndex] ++
      str2intSteps line elevation ++ [.write .svList s.svIndex] ++
      str2intSteps line azimuth ++ [.write .svList s.svIndex] ++
      [.read .nmeaCash prn, .read .svList s.svIndex, .write .svList s.svIndex] ++
      [.read .nmeaCash prn, .read .svList s.svIndex, .write .svList s.svIndex] ++
      [.read .nmeaCash prn, .read .svList s.svIndex, .write .svList s.svIndex]
  else []

/-- An entry of a GSV sentence. -/
def gsvEntrySteps (s : Counters) (sv_type : SvType) (idx : Nat) : List Step :=
  let base_idx := 4 * (idx + 1)
  let tok_snr := nmeaTokenizerGet tzer (base_idx + 3)
  .round :: getInt line tzer base_idx ++ get tzer (base_idx + 1) ++ get tzer (base_idx + 2) ++
    get tzer (base_idx + 3) ++
    str2intSteps line (nmeaTokenizerGet tzer base_idx) ++ [.write .prn s.sv_count] ++
    str2floatSteps line tok_snr ++ [.write .snr s.sv_count] ++
    nmeaReaderUpdateSvStatusSteps line s (gsvId sv_type tzer idx)
      (nmeaTokenizerGet tzer (base_idx + 1)) (nmeaTokenizerGet tzer (base_idx + 2)) tok_snr

def gsvSteps (s : Counters) (sv_type : SvType) : List Step :=
  let head := gsvHead tzer
  get tzer 1 ++ get tzer 2 ++ get tzer 3 ++ str2intSteps line (nmeaTokenizerGet tzer 1) ++
    str2intSteps line (nmeaTokenizerGet tzer 2) ++ str2intSteps line (nmeaTokenizerGet tzer 3) ++
    (List.range head.sv_num.toNat).flatMap fun idx =>
      gsvEntrySteps line tzer
        (gsvEntries sv_type tzer (startGsv s head.seq) (List.range idx)) sv_type idx

def accuracySteps (s : Counters) : List Step :=
  if s.fix_mode = 3 ∨ s.fix_mode = 2 then
    get tzer 1 ++ updateSteps line (nmeaTokenizerGet tzer 1)
  else []

end Sentences

/-- The counters after a sentence that is parsed. -/
def sentenceCounters (s : Counters) (line : List UInt8) : Counters :=
  let tzer := nmeaTokenizerInit line
  let p := (nmeaTokenizerGet tzer 0).rest
  match kindOf p with
  | .gsa => { s with fix_mode := (nmeaTokenizerGet tzer 2).toInt }
  | .gsv => gsvCounters s (svTypeOf p) tzer
  | _ => s

/-- What is done for a sentence, by its name. -/
def sentenceSteps (s : Counters) (line : List UInt8) : List Step :=
  let tzer := nmeaTokenizerInit line
  let p := (nmeaTokenizerGet tzer 0).rest
  memcmpSteps line p svTypeNames ++ memcmpSteps line p kindNames ++
    match kindOf p with
    | .gga => ggaSteps line tzer
    | .gsa => gsaSteps line tzer (sentenceCounters s line) (svTypeOf p)
    | .rmc => rmcSteps line tzer
    | .eph => listSteps line tzer
    | .alm => listSteps line tzer
    | .gsv => gsvSteps line tzer s (svTypeOf p)
    | .accuracy => accuracySteps line tzer s
    | .other => []

/-- `nmea_reader_parse`: the counters. -/
def nmeaReaderParse (s : Counters) (line : List UInt8) (gps_nmea_end_tag : Bool) : Counters :=
  if parsable line then
    let s := sentenceCounters s line
    if gps_nmea_end_tag then { s with sv_count := 0, num_svs := 0 } else s
  else s

/-- `nmea_reader_parse`: the steps. -/
def nmeaReaderParseSteps (s : Counters) (line : List UInt8) (gps_nmea_end_tag : Bool) :
    List Step :=
  if line.length < 9 then []
  else
    nmeaTokenizerInitSteps line ++ get (nmeaTokenizerInit line) 0 ++
      if (nmeaTokenizerGet (nmeaTokenizerInit line) 0).len < 5 then []
      else
        sentenceSteps s line ++ if gps_nmea_end_tag then clearSteps .nmeaCash else []

/-! ## Bytes -/

/-- The reader: its line and its counters. -/
structure Reader where
  line : List UInt8
  overflow : Bool
  counters : Counters
  deriving DecidableEq, Repr

def Reader.init : Reader := ⟨[], false, .init⟩

/-- The sentence that a byte completes. -/
def Reader.sentence (r : Reader) (c : UInt8) : Option (List UInt8) :=
  if r.overflow then none
  else if NMEA_MAX_SIZE ≤ r.line.length then none
  else if c = '\n'.toUInt8 then some (r.line ++ [c])
  else none

/-- `nmea_reader_addc`: the reader. -/
def Reader.addc (r : Reader) (gps_nmea_end_tag : Bool) (c : UInt8) : Reader :=
  if r.overflow then { r with overflow := c ≠ '\n'.toUInt8 }
  else if NMEA_MAX_SIZE ≤ r.line.length then { r with overflow := true, line := [] }
  else if c = '\n'.toUInt8 then
    { r with line := [], counters := nmeaReaderParse r.counters (r.line ++ [c]) gps_nmea_end_tag }
  else { r with line := r.line ++ [c] }

/-- `nmea_reader_addc`: the steps. -/
def Reader.addcSteps (r : Reader) (gps_nmea_end_tag : Bool) (c : UInt8) : List Step :=
  if r.overflow then []
  else if NMEA_MAX_SIZE ≤ r.line.length then []
  else
    .write .line r.line.length ::
      if c = '\n'.toUInt8 then
        nmeaReaderParseSteps r.counters (r.line ++ [c]) gps_nmea_end_tag ++ clearSteps .line
      else []

/-- The bytes of a buffer, each with the reader that takes it; the last one ends the buffer. -/
def bytesFrom : Reader → List UInt8 → List (Reader × Bool × UInt8)
  | _, [] => []
  | r, c :: cs => (r, cs.isEmpty, c) :: bytesFrom (r.addc cs.isEmpty c) cs

/-- `mtk_mnl_nmea_parser_process`. -/
def bufferBytes (buffer : List UInt8) : List (Reader × Bool × UInt8) := bytesFrom .init buffer

end MtkHw.Gps.NmeaMemory
