import MtkHw.Lib.Machine
import Mathlib.Logic.Function.Basic
import Mathlib.Tactic.Common

/-!
# The downloader of orbit data

Orbit data comes in pieces of three days.  A piece is downloaded with its MD5 file, checked, and
appended to the file that is handed on; a piece that does not match its MD5 is cut after the last
whole segment whose satellites all pass their checksum.  Flags remember which pieces are there;
they outlive the calls and are reset with a new day.

What the network and the file system answer is the input of a call, and may be anything: a download
leaves any bytes, a file that is there need not be found or deleted.  Files that are there are
opened, and what is written is written.
-/

namespace MtkHw.Gps.Epo

/-! ## Data -/

abbrev Bytes := List UInt8

/-- `MTK_EPO_TYPE`. -/
inductive EpoType where
  | gpsGlo
  | gps
  deriving DecidableEq, Repr

def MTK_EPO_ONE_SV_SIZE : Nat := 72
def MTK_EPO_SET_GPS_SVNum : Nat := 32
def MTK_EPO_SET_GLO_SVNum : Nat := 24
def EPO_INVALIDE_DL_MAX_RETRY_TIME : Nat := 3
def EPO_MERGE_FULL_FILE : Int := -1
def buf_size : Nat := 256

/-- `max_sv_num`: the satellites of a segment. -/
def EpoType.max_sv_num : EpoType → Nat
  | .gps => MTK_EPO_SET_GPS_SVNum
  | .gpsGlo => MTK_EPO_SET_GPS_SVNum + MTK_EPO_SET_GLO_SVNum

/-- `max_segment_size`. -/
def EpoType.max_segment_size (type : EpoType) : Nat := 72 * type.max_sv_num

inductive DownloadResult where
  | success
  | fail
  deriving DecidableEq, Repr

/-- What has happened to a piece since the last new day. -/
inductive Event where
  | downloaded (piece : Nat) (data : Bytes)
  | verified (piece : Nat) (data : Bytes)
  deriving DecidableEq, Repr

/-- The flags, the files and what the last call answered.  An MD5 file is there or not. -/
structure State where
  md5Available : Nat → Bool
  datAvailable : Nat → Bool
  last_DL_Date : Int
  md5File : Nat → Bool
  datFile : Nat → Option Bytes
  hal : Option Bytes
  result : DownloadResult
  log : List Event

/-! ## Answers of the world -/

/-- How the download of an MD5 file ends; a download that fails may leave a file. -/
inductive Md5Download where
  | updated
  | fail (left : Option Bool)

/-- How the download of a piece ends: with some bytes, or with what a failed one leaves, if it was
tried at all. -/
inductive DatDownload where
  | success (data : Bytes)
  | fail (left : Option (Option Bytes))

/-- The answers for a piece. -/
structure PieceInput where
  unlinkHal : Bool
  md5 : Md5Download
  dat : DatDownload
  md5Match : Bool
  fileSize : Bool
  reads : Nat
  unlinkMd5 : Bool
  unlinkDat : Bool

/-- The answers for a round of the download. -/
structure AttemptInput where
  resetMd5 : Nat → Bool
  resetDat : Nat → Bool
  accessMd5 : Nat → Bool
  accessDat : Nat → Bool
  piece : Nat → PieceInput
  cleanMd5 : Nat → Bool
  cleanDat : Nat → Bool

/-- A call: the day, the configured days and the answers. -/
structure RunInput where
  tm_mday : Int
  gps_epo_download_days : Nat
  unlinkHal : Bool
  attempt : Nat → AttemptInput

/-! ## Checksums -/

/-- The word `i` of a record. -/
def word (record : Bytes) (i : Nat) : UInt32 :=
  ((record.drop (4 * i)).take 4).foldr (fun b w => w * 256 + b.toUInt32) 0

/-- `mtk_epo_1sv_checksum_check`. -/
def mtkEpo1svChecksumCheck (record : Bytes) : Bool :=
  (List.range 17).foldl (fun checksum i => checksum ^^^ word record i) 0 = word record 17

/-- The satellites at the beginning of a file that pass the checksum, as far as it can be read. -/
def countSv : Nat → Bytes → Nat
  | 0, _ => 0
  | reads + 1, data =>
    if MTK_EPO_ONE_SV_SIZE ≤ data.length ∧
        mtkEpo1svChecksumCheck (data.take MTK_EPO_ONE_SV_SIZE) then
      countSv reads (data.drop MTK_EPO_ONE_SV_SIZE) + 1
    else 0

/-- `epo_DAT_checksum_check`: the length of the valid segments, or an error. -/
def epoDatChecksumCheck (type : EpoType) (gps_epo_file_count : Nat) (data : Bytes)
    (x : PieceInput) : Int :=
  if x.fileSize then
    let sv_cnt := countSv x.reads data
    if 8 < sv_cnt / type.max_sv_num ∨ 0 < gps_epo_file_count then
      (sv_cnt / type.max_sv_num * type.max_segment_size : Nat)
    else -1
  else -1

/-! ## Merging -/

/-- The bytes that are copied, block by block, until the length is reached. -/
def copied (file_length : Int) (len : Nat) (data : Bytes) : Bytes :=
  if data = [] then []
  else
    let block := data.take buf_size
    let len := len + block.length
    if file_length ≠ EPO_MERGE_FULL_FILE ∧ file_length ≤ len then block
    else block ++ copied file_length len (data.drop buf_size)
termination_by data.length
decreasing_by
  rename_i hne _
  have hpos := List.length_pos_iff.mpr hne
  rw [List.length_drop]
  have hbuf : buf_size = 256 := rfl
  omega

/-- `unlink` of a file. -/
def unlink (done : Bool) (file : Option Bytes) : Option Bytes := if done then none else file

/-- `epo_DAT_file_merge`: the first piece starts the file anew. -/
def epoDatFileMerge (s : State) (i : Nat) (file_length : Int) (x : PieceInput) : State :=
  let hal := if i = 0 then unlink x.unlinkHal s.hal else s.hal
  { s with hal := some (hal.getD [] ++ copied file_length 0 ((s.datFile i).getD [])) }

/-! ## A piece -/

def State.bothValid (s : State) (i : Nat) : Bool := s.md5Available i && s.datAvailable i

/-- The MD5 file of a piece, and whether it is there. -/
def fetchMd5 (s : State) (i : Nat) (x : PieceInput) : State × Bool :=
  if s.md5Available i then (s, true)
  else
    match x.md5 with
    | .updated =>
      ({ s with
        md5File := Function.update s.md5File i true
        md5Available := Function.update s.md5Available i true }, true)
    | .fail left =>
      ({ s with md5File := Function.update s.md5File i (left.getD (s.md5File i)) }, false)

/-- A piece is downloaded. -/
def State.download (s : State) (i : Nat) (data : Bytes) : State :=
  { s with
    datFile := Function.update s.datFile i (some data)
    log := s.log ++ [.downloaded i data] }

/-- A piece has matched its MD5. -/
def State.verify (s : State) (i : Nat) (data : Bytes) : State :=
  { s with
    datAvailable := Function.update s.datAvailable i true
    log := s.log ++ [.verified i data] }

/-- A piece is given up. -/
def State.discard (s : State) (i : Nat) (x : PieceInput) : State :=
  { s with
    datAvailable := Function.update s.datAvailable i false
    md5Available := Function.update s.md5Available i false
    md5File := Function.update s.md5File i (s.md5File i && !x.unlinkMd5)
    datFile := Function.update s.datFile i (unlink x.unlinkDat (s.datFile i)) }

/-- The end of a round of the loop over the pieces. -/
structure RoundEnd where
  state : State
  ret : DownloadResult
  goesOn : Bool

/-- What is done with a piece that was downloaded. -/
def checkPiece (type : EpoType) (s : State) (i : Nat) (data : Bytes) (x : PieceInput) :
    RoundEnd :=
  if x.md5Match then
    ⟨epoDatFileMerge (s.verify i data) i EPO_MERGE_FULL_FILE x, .success, true⟩
  else
    let valid_file_length := epoDatChecksumCheck type i data x
    if 0 < valid_file_length then ⟨epoDatFileMerge s i valid_file_length x, .success, false⟩
    else ⟨s.discard i x, .fail, false⟩

/-- A round of the loop over the pieces. -/
def pieceRound (type : EpoType) (s : State) (i : Nat) (ret : DownloadResult) (x : PieceInput) :
    RoundEnd :=
  if s.bothValid i then ⟨epoDatFileMerge s i EPO_MERGE_FULL_FILE x, ret, true⟩
  else
    let fetched := fetchMd5 s i x
    if fetched.2 then
      match x.dat with
      | .success data => checkPiece type (fetched.1.download i data) i data x
      | .fail left =>
        ⟨{ fetched.1 with
          datFile := Function.update fetched.1.datFile i (left.getD (fetched.1.datFile i)) },
          .fail, false⟩
    else ⟨fetched.1, if i = 0 then .fail else ret, false⟩

/-! ## A call -/

/-- The end of the loop over the pieces, with `gps_epo_file_count`. -/
structure LoopEnd where
  state : State
  ret : DownloadResult
  count : Nat

/-- The loop over the pieces; `n` of them are left. -/
def pieceLoop (type : EpoType) (input : Nat → PieceInput) :
    State → DownloadResult → Nat → Nat → LoopEnd
  | s, ret, i, 0 => ⟨s, ret, i⟩
  | s, ret, i, n + 1 =>
    let e := pieceRound type s i ret (input i)
    if e.goesOn then pieceLoop type input e.state e.ret (i + 1) n else ⟨e.state, e.ret, i⟩

/-- A new day: everything is downloaded again. -/
def newDay (s : State) (tm_mday : Int) (piece : Nat) (x : AttemptInput) : State :=
  if s.last_DL_Date ≠ tm_mday then
    { s with
      md5Available := fun _ => false
      datAvailable := fun _ => false
      last_DL_Date := tm_mday
      md5File := fun i => s.md5File i && !(decide (i < piece) && x.resetMd5 i)
      datFile := fun i => if i < piece then unlink (x.resetDat i) (s.datFile i) else s.datFile i
      log := [] }
  else s

/-- `check_epo_file_exist`. -/
def checkEpoFileExist (s : State) (piece : Nat) (x : AttemptInput) : State :=
  { s with
    md5Available := fun i =>
      s.md5Available i && (decide (piece ≤ i) || (s.md5File i && x.accessMd5 i))
    datAvailable := fun i =>
      s.datAvailable i && (decide (piece ≤ i) || ((s.datFile i).isSome && x.accessDat i)) }

/-- The files of the pieces are deleted. -/
def clean (s : State) (piece : Nat) (x : AttemptInput) : State :=
  { s with
    md5File := fun i => s.md5File i && !(decide (i < piece) && x.cleanMd5 i)
    datFile := fun i => if i < piece then unlink (x.cleanDat i) (s.datFile i) else s.datFile i }

/-- The state in which the loop over the pieces begins. -/
def attemptStart (s : State) (tm_mday : Int) (piece : Nat) (x : AttemptInput) : State :=
  checkEpoFileExist (newDay s tm_mday piece x) piece x

/-- The rounds of the download; when the first piece fails, there is another one. -/
def attempts (type : EpoType) (x : RunInput) (piece : Nat) :
    Nat → Nat → State → DownloadResult → State
  | 0, _, s, ret => { s with result := ret }
  | n + 1, k, s, ret =>
    let e := pieceLoop type (x.attempt k).piece (attemptStart s x.tm_mday piece (x.attempt k)) ret 0
      piece
    if e.ret = .success then { clean e.state piece (x.attempt k) with result := .success }
    else if e.count = 0 then attempts type x piece n (k + 1) e.state e.ret
    else { e.state with result := e.ret }

/-- The number of pieces, of three days each. -/
def RunInput.gps_epo_download_piece (x : RunInput) : Nat :=
  x.gps_epo_download_days / 3 + if 0 < x.gps_epo_download_days % 3 then 1 else 0

/-- `epo_file_download_impl`. -/
def epoFileDownloadImpl (type : EpoType) (s : State) (x : RunInput) : State :=
  attempts type x x.gps_epo_download_piece (EPO_INVALIDE_DL_MAX_RETRY_TIME + 1) 0
    { s with hal := unlink x.unlinkHal s.hal } .success

/-- A process that has just been started, with files that may be left from an earlier one. -/
def State.start (md5File : Nat → Bool) (datFile : Nat → Option Bytes) (hal : Option Bytes) :
    State where
  md5Available := fun _ => false
  datAvailable := fun _ => false
  last_DL_Date := -1
  md5File := md5File
  datFile := datFile
  hal := hal
  result := .fail
  log := []

/-- The downloader: its actions are calls of `epo_file_download_impl`. -/
def epoMachine (type : EpoType) (md5File : Nat → Bool) (datFile : Nat → Option Bytes)
    (hal : Option Bytes) : Lib.Machine State RunInput where
  init := .start md5File datFile hal
  step s x := some (epoFileDownloadImpl type s x)

end MtkHw.Gps.Epo
