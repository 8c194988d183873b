import MtkHw.Gps.Epo
import Mathlib.Data.List.Basic

/-!
# Only verified orbit data is handed on

When a call succeeds, the file that is handed on consists of pieces that have matched their MD5, in
order, and at the end possibly of whole segments of one piece more whose satellites all pass their
checksum.

Three things can go wrong, and `RunFits` excludes them.  A cut piece is copied in blocks of 256
bytes, of which a segment for GPS and GLONASS is no multiple, so that the copy may go on behind the
cut.  The flag of a piece stays set while the piece is downloaded again, with another file.  And a
file that is handed on and cannot be deleted is appended to.
-/

namespace MtkHw.Gps.Epo

variable {type : EpoType}

/-! ## What is handed on -/

/-- The record `i` of a file. -/
def record (data : Bytes) (i : Nat) : Bytes :=
  (data.drop (MTK_EPO_ONE_SV_SIZE * i)).take MTK_EPO_ONE_SV_SIZE

/-- A beginning of a file that consists of whole segments with valid satellites. -/
def WholeSegments (type : EpoType) (data tail : Bytes) : Prop :=
  ∃ n, tail = data.take (n * type.max_segment_size) ∧ n * type.max_segment_size ≤ data.length ∧
    ∀ j < n * type.max_sv_num, mtkEpo1svChecksumCheck (record data j) = true

/-- Some pieces have matched their MD5, one after the other. -/
def Verified (log : List Event) (pieces : List Bytes) : Prop :=
  ∀ j data, pieces[j]? = some data → .verified j data ∈ log

/-- The file that is handed on consists of verified pieces and at most a valid part of the next
one. -/
def Injected (type : EpoType) (s : State) : Prop :=
  ∃ pieces tail, s.hal.getD [] = pieces.flatten ++ tail ∧ Verified s.log pieces ∧
    (tail = [] ∨ ∃ data, .downloaded pieces.length data ∈ s.log ∧ WholeSegments type data tail)

/-! ## The condition -/

/-- The piece itself is downloaded in a round. -/
def Downloads (s : State) (i : Nat) (x : PieceInput) : Prop :=
  s.bothValid i = false ∧ (fetchMd5 s i x).2 = true

/-- The piece is cut: it does not match its MD5, and has valid segments. -/
def Cuts (type : EpoType) (s : State) (i : Nat) (x : PieceInput) (data : Bytes) : Prop :=
  Downloads s i x ∧ x.dat = .success data ∧ x.md5Match = false ∧
    0 < epoDatChecksumCheck type i data x

/-- The piece is merged as a whole. -/
def MergesAll (s : State) (i : Nat) (x : PieceInput) : Prop :=
  s.bothValid i = true ∨ Downloads s i x ∧ (∃ data, x.dat = .success data) ∧ x.md5Match = true

/-- The piece gets a file that has not matched its MD5, and that stays. -/
def Replaces (type : EpoType) (s : State) (i : Nat) (x : PieceInput) (data : Bytes) : Prop :=
  Cuts type s i x data ∨ Downloads s i x ∧ x.dat = .fail (some (some data))

/-- A round that does not go wrong. -/
structure RoundFits (type : EpoType) (s : State) (i : Nat) (x : PieceInput) : Prop where
  /-- The first piece that is merged does not find an old file. -/
  anew : i = 0 → MergesAll s i x ∨ (∃ data, Cuts type s i x data) →
    s.hal.getD [] = [] ∨ x.unlinkHal = true
  /-- A piece that is flagged as there does not get another file. -/
  fresh : ∀ data, Replaces type s i x data → s.datAvailable i = false
  /-- A cut is at the end of a block or of the file. -/
  whole : ∀ data, Cuts type s i x data →
    epoDatChecksumCheck type i data x % buf_size = 0 ∨
      epoDatChecksumCheck type i data x = data.length

/-- The rounds of the loop over the pieces do not go wrong. -/
def LoopFits (type : EpoType) (input : Nat → PieceInput) :
    State → DownloadResult → Nat → Nat → Prop
  | _, _, _, 0 => True
  | s, ret, i, n + 1 =>
    RoundFits type s i (input i) ∧
      ((pieceRound type s i ret (input i)).goesOn = true →
        LoopFits type input (pieceRound type s i ret (input i)).state
          (pieceRound type s i ret (input i)).ret (i + 1) n)

/-- The rounds of the download do not go wrong. -/
def AttemptsFit (type : EpoType) (x : RunInput) (piece : Nat) :
    Nat → Nat → State → DownloadResult → Prop
  | 0, _, _, _ => True
  | n + 1, k, s, ret =>
    LoopFits type (x.attempt k).piece (attemptStart s x.tm_mday piece (x.attempt k)) ret 0 piece ∧
      let e := pieceLoop type (x.attempt k).piece
        (attemptStart s x.tm_mday piece (x.attempt k)) ret 0 piece
      (e.ret = .fail → e.count = 0 → AttemptsFit type x piece n (k + 1) e.state e.ret)

/-- A call that does not go wrong; one without pieces deletes the old file. -/
structure RunFits (type : EpoType) (s : State) (x : RunInput) : Prop where
  empty : x.gps_epo_download_piece = 0 → s.hal.getD [] = [] ∨ x.unlinkHal = true
  rounds : AttemptsFit type x x.gps_epo_download_piece (EPO_INVALIDE_DL_MAX_RETRY_TIME + 1) 0
    { s with hal := unlink x.unlinkHal s.hal } .success

/-! ## Copies -/

theorem copied_nil (file_length : Int) (len : Nat) : copied file_length len [] = [] := by
  rw [copied, if_pos rfl]

/-- A whole file is copied. -/
theorem copied_full (len : Nat) (data : Bytes) : copied EPO_MERGE_FULL_FILE len data = data := by
  induction hn : data.length using Nat.strongRecOn generalizing len data with
  | ind n ih =>
    subst hn
    rw [copied]
    split
    · rename_i hnil
      exact hnil.symm
    · rename_i hne
      have hpos := List.length_pos_iff.mpr hne
      have hbuf : buf_size = 256 := rfl
      dsimp only
      rw [if_neg fun h => h.1 rfl, ih _ (by rw [List.length_drop]; omega) _ _ rfl,
        List.take_append_drop]

/-- The end of the block that a cut is in. -/
def blockEnd (length : Nat) : Nat := (length + (buf_size - 1)) / buf_size * buf_size

/-- The block of the cut is copied to its end, or to the end of the file. -/
theorem copied_part {length : Nat} (len : Nat) (data : Bytes) (hlen : len < length)
    (hblock : len % buf_size = 0) :
    copied length len data = data.take (blockEnd length - len) := by
  induction hn : data.length using Nat.strongRecOn generalizing len data with
  | ind n ih =>
    subst hn
    have hbuf : buf_size = 256 := rfl
    have hend : blockEnd length = (length + 255) / 256 * 256 := rfl
    have hpart : (length : Int) ≠ EPO_MERGE_FULL_FILE := by
      have hfull : EPO_MERGE_FULL_FILE = -1 := rfl
      omega
    rw [copied]
    split
    · rename_i hnil
      rw [hnil, List.take_nil]
    · rename_i hne
      have hpos := List.length_pos_iff.mpr hne
      dsimp only
      rw [List.length_take]
      by_cases hlast : length ≤ len + min buf_size data.length
      · rw [if_pos ⟨hpart, by exact_mod_cast hlast⟩]
        have hsame : blockEnd length - len = buf_size := by
          rw [hbuf] at hblock
          omega
        rw [hsame]
      · have hmore : ¬ ((length : Int) ≠ EPO_MERGE_FULL_FILE ∧
            (length : Int) ≤ ((len + min buf_size data.length : Nat) : Int)) := by
          rintro ⟨-, hle⟩
          exact hlast (Int.ofNat_le.mp hle)
        rw [if_neg hmore]
        rcases Nat.lt_or_ge data.length buf_size with hshort | hlong
        · rw [List.drop_of_length_le (Nat.le_of_lt hshort), copied_nil, List.append_nil,
            List.take_of_length_le (Nat.le_of_lt hshort), List.take_of_length_le (by omega)]
        · rw [Nat.min_eq_left hlong, ih _ (by rw [List.length_drop]; omega) _ _ (by omega)
            (by rw [Nat.add_mod_right, hblock]) rfl]
          have hsplit :
              blockEnd length - len = buf_size + (blockEnd length - (len + buf_size)) := by omega
          rw [hsplit, List.take_add]

/-- A cut at the end of a block or of the file is kept. -/
theorem copied_cut {length : Nat} {data : Bytes} (hpos : 0 < length)
    (hcut : length % buf_size = 0 ∨ length = data.length) :
    copied length 0 data = data.take length := by
  rw [copied_part 0 data hpos (Nat.zero_mod _), Nat.sub_zero]
  have hend : blockEnd length = (length + 255) / 256 * 256 := rfl
  rcases hcut with hblock | hall
  · have hsame : blockEnd length = length := by
      have hblock256 : length % 256 = 0 := hblock
      omega
    rw [hsame]
  · rw [List.take_of_length_le (by omega), List.take_of_length_le (by omega)]

/-! ## Checksums -/

/-- The satellites that are counted are there and valid. -/
theorem countSv_spec (reads : Nat) (data : Bytes) :
    MTK_EPO_ONE_SV_SIZE * countSv reads data ≤ data.length ∧
      ∀ j < countSv reads data, mtkEpo1svChecksumCheck (record data j) = true := by
  induction reads generalizing data with
  | zero => exact ⟨Nat.zero_le _, fun j hj => absurd hj (Nat.not_lt_zero j)⟩
  | succ reads ih =>
    rw [countSv]
    split
    · rename_i hvalid
      obtain ⟨hlength, hrecords⟩ := ih (data.drop MTK_EPO_ONE_SV_SIZE)
      rw [List.length_drop] at hlength
      constructor
      · rw [Nat.mul_add, Nat.mul_one]
        omega
      · intro j hj
        cases j with
        | zero => exact hvalid.2
        | succ j =>
          have hrecord := hrecords j (Nat.lt_of_succ_lt_succ hj)
          rw [record, List.drop_drop] at hrecord
          rw [record, Nat.mul_add, Nat.mul_one, Nat.add_comm]
          exact hrecord
    · exact ⟨Nat.zero_le _, fun j hj => absurd hj (Nat.not_lt_zero j)⟩

/-- What the checksums leave of a piece are whole segments. -/
theorem epoDatChecksumCheck_spec {i : Nat} {data : Bytes} {x : PieceInput}
    (h : 0 < epoDatChecksumCheck type i data x) :
    ∃ length : Nat, epoDatChecksumCheck type i data x = length ∧ 0 < length ∧
      WholeSegments type data (data.take length) := by
  rw [epoDatChecksumCheck] at h ⊢
  split at h
  · rename_i hsize
    rw [if_pos hsize]
    dsimp only at h ⊢
    split at h
    · rename_i henough
      rw [if_pos henough]
      obtain ⟨hlength, hrecords⟩ := countSv_spec x.reads data
      have hwhole : countSv x.reads data / type.max_sv_num * type.max_sv_num ≤
        countSv x.reads data := Nat.div_mul_le_self _ _
      have hsegments : countSv x.reads data / type.max_sv_num * type.max_segment_size =
          MTK_EPO_ONE_SV_SIZE * (countSv x.reads data / type.max_sv_num * type.max_sv_num) := by
        rw [EpoType.max_segment_size, MTK_EPO_ONE_SV_SIZE]
        exact Nat.mul_left_comm _ _ _
      have hle : countSv x.reads data / type.max_sv_num * type.max_segment_size ≤ data.length := by
        rw [hsegments]
        exact Nat.le_trans (Nat.mul_le_mul_left _ hwhole) hlength
      exact ⟨_, rfl, Int.natCast_pos.mp h, _, rfl, hle,
        fun j hj => hrecords j (Nat.lt_of_lt_of_le hj hwhole)⟩
    · exact absurd h (by decide)
  · exact absurd h (by decide)

/-- A segment for GPS is a whole number of blocks, so that a cut of one is never copied beyond. -/
theorem epoDatChecksumCheck_gps {i : Nat} {data : Bytes} {x : PieceInput}
    (h : 0 < epoDatChecksumCheck .gps i data x) :
    epoDatChecksumCheck .gps i data x % buf_size = 0 := by
  rw [epoDatChecksumCheck] at h ⊢
  split at h
  · rename_i hsize
    rw [if_pos hsize]
    dsimp only at h ⊢
    split at h
    · rename_i henough
      rw [if_pos henough]
      have hsegment : EpoType.gps.max_segment_size = 9 * buf_size := rfl
      rw [hsegment, ← Nat.mul_assoc]
      exact_mod_cast Nat.mul_mod_left _ _
    · exact absurd h (by decide)
  · exact absurd h (by decide)

/-! ## Rounds -/

/-- A piece that is flagged as there has matched its MD5. -/
def Flagged (s : State) : Prop :=
  ∀ i data, s.datAvailable i = true → s.datFile i = some data → .verified i data ∈ s.log

/-- A piece that is flagged as there is there. -/
def Present (s : State) (piece : Nat) : Prop :=
  ∀ i < piece, s.datAvailable i = true → s.datFile i ≠ none

/-- The pieces before `i` have been merged. -/
def Merged (s : State) (i : Nat) : Prop :=
  0 < i → ∃ pieces, pieces.length = i ∧ s.hal.getD [] = pieces.flatten ∧ Verified s.log pieces

section Round

variable {s : State} {i piece : Nat} {ret : DownloadResult} {x : PieceInput}

theorem Verified.mono {log log' : List Event} {pieces : List Bytes} (h : Verified log pieces)
    (hlog : ∀ e ∈ log, e ∈ log') : Verified log' pieces :=
  fun j data hj => hlog _ (h j data hj)

theorem Verified.concat {log : List Event} {pieces : List Bytes} {data : Bytes}
    (h : Verified log pieces) (hdata : .verified pieces.length data ∈ log) :
    Verified log (pieces ++ [data]) := by
  intro j data' hj
  rcases Nat.lt_trichotomy j pieces.length with hlt | rfl | hgt
  · rw [List.getElem?_append_left hlt] at hj
    exact h j data' hj
  · rw [List.getElem?_concat_length] at hj
    cases hj
    exact hdata
  · rw [List.getElem?_eq_none (by rw [List.length_append, List.length_singleton]; omega)] at hj
    cases hj

/-- The file that a piece is appended to. -/
theorem hal_before (hmerged : Merged s i)
    (hanew : i = 0 → s.hal.getD [] = [] ∨ x.unlinkHal = true) :
    ∃ pieces, pieces.length = i ∧
      (if i = 0 then unlink x.unlinkHal s.hal else s.hal).getD [] = pieces.flatten ∧
      Verified s.log pieces := by
  by_cases hi : i = 0
  · subst hi
    refine ⟨[], rfl, ?_, fun j data hj => absurd hj nofun⟩
    rw [if_pos rfl, unlink]
    rcases hanew rfl with hempty | hdone
    · split
      · rfl
      · exact hempty
    · rw [if_pos hdone]
      rfl
  · rw [if_neg hi]
    exact hmerged (Nat.pos_of_ne_zero hi)

/-- A verified piece is appended. -/
theorem merged_succ {data : Bytes} (hmerged : Merged s i)
    (hanew : i = 0 → s.hal.getD [] = [] ∨ x.unlinkHal = true) (hfile : s.datFile i = some data)
    (hverified : .verified i data ∈ s.log) :
    Merged (epoDatFileMerge s i EPO_MERGE_FULL_FILE x) (i + 1) := by
  intro _
  obtain ⟨pieces, rfl, hhal, hpieces⟩ := hal_before hmerged hanew
  refine ⟨pieces ++ [data], List.length_append, ?_, hpieces.concat hverified⟩
  change (if pieces.length = 0 then unlink x.unlinkHal s.hal else s.hal).getD [] ++
    copied EPO_MERGE_FULL_FILE 0 ((s.datFile pieces.length).getD []) = _
  rw [hhal, hfile, Option.getD_some, copied_full, List.flatten_append, List.flatten_singleton]

/-- The valid part of a piece is appended. -/
theorem injected_cut {data : Bytes} (hmerged : Merged s i)
    (hanew : i = 0 → s.hal.getD [] = [] ∨ x.unlinkHal = true) (hfile : s.datFile i = some data)
    (hdownloaded : .downloaded i data ∈ s.log) (hpos : 0 < epoDatChecksumCheck type i data x)
    (hwhole : epoDatChecksumCheck type i data x % buf_size = 0 ∨
      epoDatChecksumCheck type i data x = data.length) :
    Injected type (epoDatFileMerge s i (epoDatChecksumCheck type i data x) x) := by
  obtain ⟨pieces, rfl, hhal, hpieces⟩ := hal_before hmerged hanew
  obtain ⟨length, hlength, hlpos, hsegments⟩ := epoDatChecksumCheck_spec hpos
  have hcut : length % buf_size = 0 ∨ length = data.length := by
    rw [hlength] at hwhole
    exact_mod_cast hwhole
  refine ⟨pieces, data.take length, ?_, hpieces, .inr ⟨data, hdownloaded, hsegments⟩⟩
  change (if pieces.length = 0 then unlink x.unlinkHal s.hal else s.hal).getD [] ++
    copied _ 0 ((s.datFile pieces.length).getD []) = _
  rw [hhal, hfile, Option.getD_some, hlength, copied_cut hlpos hcut]

/-- The pieces that have been merged are verified. -/
theorem Merged.injected (h : Merged s i) (hempty : i = 0 → s.hal.getD [] = []) :
    Injected type s := by
  by_cases hi : i = 0
  · exact ⟨[], [], hempty hi, fun j data hj => absurd hj nofun, .inl rfl⟩
  · obtain ⟨pieces, -, hhal, hpieces⟩ := h (Nat.pos_of_ne_zero hi)
    exact ⟨pieces, [], by rw [hhal, List.append_nil], hpieces, .inl rfl⟩

/-- The flags and files that a state has for the pieces. -/
structure SamePieces (s t : State) : Prop where
  datAvailable : t.datAvailable = s.datAvailable
  datFile : t.datFile = s.datFile
  log : t.log = s.log

/-- Fetching an MD5 file leaves the pieces as they are, and the file that is handed on. -/
theorem fetchMd5_same (s : State) (i : Nat) (x : PieceInput) :
    SamePieces s (fetchMd5 s i x).1 ∧ (fetchMd5 s i x).1.hal = s.hal := by
  rw [fetchMd5]
  split
  · exact ⟨⟨rfl, rfl, rfl⟩, rfl⟩
  · cases x.md5 with
    | updated => exact ⟨⟨rfl, rfl, rfl⟩, rfl⟩
    | fail left => exact ⟨⟨rfl, rfl, rfl⟩, rfl⟩

/-- Merging leaves the pieces as they are. -/
theorem epoDatFileMerge_same (s : State) (i : Nat) (file_length : Int) (x : PieceInput) :
    SamePieces s (epoDatFileMerge s i file_length x) := ⟨rfl, rfl, rfl⟩

/-- Flags and files may go. -/
theorem Flagged.of_fewer {t : State} (hs : Flagged s)
    (hflags : ∀ j, t.datAvailable j = true → s.datAvailable j = true)
    (hfiles : ∀ j data, t.datFile j = some data → s.datFile j = some data)
    (hlog : t.log = s.log) : Flagged t := by
  intro j data hflag hfile
  rw [hlog]
  exact hs j data (hflags j hflag) (hfiles j data hfile)

theorem SamePieces.flagged {t : State} (h : SamePieces s t) (hs : Flagged s) : Flagged t :=
  hs.of_fewer (fun j hj => by rwa [h.datAvailable] at hj)
    (fun j data hj => by rwa [h.datFile] at hj) h.log

theorem SamePieces.present {t : State} (h : SamePieces s t) (hs : Present s piece) :
    Present t piece := by
  intro j hj hflag
  rw [h.datAvailable] at hflag
  rw [h.datFile]
  exact hs j hj hflag

/-- The pieces other than `i` that are flagged as there have matched their MD5. -/
def FlaggedBut (s : State) (i : Nat) : Prop :=
  ∀ j, j ≠ i → ∀ data, s.datAvailable j = true → s.datFile j = some data →
    .verified j data ∈ s.log

/-- One piece may get any file. -/
theorem Flagged.but {t : State} (hs : Flagged s) (hflags : t.datAvailable = s.datAvailable)
    (hfiles : ∀ j, j ≠ i → t.datFile j = s.datFile j) (hlog : ∀ e ∈ s.log, e ∈ t.log) :
    FlaggedBut t i := by
  intro j hj data hflag hfile
  rw [hflags] at hflag
  rw [hfiles j hj] at hfile
  exact hlog _ (hs j data hflag hfile)

theorem FlaggedBut.flagged (hs : FlaggedBut s i)
    (hi : ∀ data, s.datAvailable i = true → s.datFile i = some data → .verified i data ∈ s.log) :
    Flagged s := by
  intro j data hflag hfile
  rcases eq_or_ne j i with rfl | hj
  · exact hi data hflag hfile
  · exact hs j hj data hflag hfile

/-- A piece that gets a file is there. -/
theorem Present.update {t : State} {data : Bytes} (hs : Present s piece)
    (hflags : t.datAvailable = s.datAvailable) (hfiles : ∀ j, j ≠ i → t.datFile j = s.datFile j)
    (hfile : t.datFile i = some data) : Present t piece := by
  intro j hj hflag
  rw [hflags] at hflag
  rcases eq_or_ne j i with rfl | hne
  · rw [hfile]
    exact Option.some_ne_none data
  · rw [hfiles j hne]
    exact hs j hj hflag

/-- Pieces that have been merged stay so while the file is left alone. -/
theorem Merged.of_same {t : State} (h : Merged s i) (hhal : t.hal = s.hal)
    (hlog : ∀ e ∈ s.log, e ∈ t.log) : Merged t i := by
  intro hi
  obtain ⟨pieces, hlength, hflatten, hpieces⟩ := h hi
  exact ⟨pieces, hlength, by rw [hhal, hflatten], hpieces.mono hlog⟩

/-- What a round keeps. -/
structure RoundKeeps (type : EpoType) (piece i : Nat) (e : RoundEnd) : Prop where
  flagged : Flagged e.state
  merged : e.goesOn = true → Present e.state piece ∧ Merged e.state (i + 1)
  injected : e.goesOn = false → e.ret = .success → Injected type e.state

/-- A piece that has matched its MD5 is flagged. -/
theorem FlaggedBut.verify {data : Bytes} (hs : FlaggedBut s i) (hfile : s.datFile i = some data) :
    Flagged (s.verify i data) := by
  intro j data' hflag hdata
  rcases eq_or_ne j i with rfl | hj
  · change s.datFile j = some data' at hdata
    rw [hfile] at hdata
    cases hdata
    exact List.mem_append_right _ (List.mem_singleton.mpr rfl)
  · change Function.update s.datAvailable i true j = true at hflag
    rw [Function.update_of_ne hj] at hflag
    exact List.mem_append_left _ (hs j hj data' hflag hdata)

theorem Present.verify {data : Bytes} (hs : Present s piece) (hfile : s.datFile i = some data) :
    Present (s.verify i data) piece := by
  intro j hj hflag
  change s.datFile j ≠ none
  rcases eq_or_ne j i with rfl | hne
  · rw [hfile]
    exact Option.some_ne_none data
  · change Function.update s.datAvailable i true j = true at hflag
    rw [Function.update_of_ne hne] at hflag
    exact hs j hj hflag

/-- A piece that is given up is flagged no more. -/
theorem FlaggedBut.discard (hs : FlaggedBut s i) : Flagged (s.discard i x) := by
  intro j data hflag hfile
  have hj : j ≠ i := by
    rintro rfl
    change Function.update s.datAvailable j false j = true at hflag
    rw [Function.update_self] at hflag
    cases hflag
  change Function.update s.datAvailable i false j = true at hflag
  change Function.update s.datFile i _ j = some data at hfile
  rw [Function.update_of_ne hj] at hflag hfile
  exact hs j hj data hflag hfile

/-- A piece that was downloaded is appended if it has matched its MD5, and its valid part if it has
not. -/
theorem checkPiece_keeps {data : Bytes} (hs : FlaggedBut s i) (hpresent : Present s piece)
    (hmerged : Merged s i) (hfile : s.datFile i = some data)
    (hdownloaded : .downloaded i data ∈ s.log)
    (hanew : i = 0 → x.md5Match = true ∨ 0 < epoDatChecksumCheck type i data x →
      s.hal.getD [] = [] ∨ x.unlinkHal = true)
    (hcut : x.md5Match = false → 0 < epoDatChecksumCheck type i data x →
      s.datAvailable i = false ∧ (epoDatChecksumCheck type i data x % buf_size = 0 ∨
        epoDatChecksumCheck type i data x = data.length)) :
    RoundKeeps type piece i (checkPiece type s i data x) := by
  rw [checkPiece]
  split
  · rename_i hmatch
    have hlog : ∀ e ∈ s.log, e ∈ (s.verify i data).log := fun e he => List.mem_append_left _ he
    have hverified : .verified i data ∈ (s.verify i data).log :=
      List.mem_append_right _ (List.mem_singleton.mpr rfl)
    have hsame := epoDatFileMerge_same (s.verify i data) i EPO_MERGE_FULL_FILE x
    exact ⟨hsame.flagged (hs.verify hfile), fun _ => ⟨hsame.present (hpresent.verify hfile),
      merged_succ (hmerged.of_same rfl hlog) (fun hi => hanew hi (.inl hmatch)) hfile hverified⟩,
      nofun⟩
  · rename_i hmatch
    dsimp only
    split
    · rename_i hvalid
      obtain ⟨hfresh, hwhole⟩ := hcut (Bool.eq_false_iff.mpr hmatch) hvalid
      refine ⟨(epoDatFileMerge_same s i _ x).flagged (hs.flagged fun data' hflag => ?_), nofun,
        fun _ _ => injected_cut hmerged (fun hi => hanew hi (.inr hvalid)) hfile hdownloaded hvalid
          hwhole⟩
      rw [hfresh] at hflag
      cases hflag
    · exact ⟨hs.discard, nofun, nofun⟩

/-- A round that fits appends a verified piece, or ends the loop with what may be handed on. -/
theorem pieceRound_keeps (hfits : RoundFits type s i x) (hs : Flagged s)
    (hpresent : Present s piece) (hi : i < piece) (hmerged : Merged s i) :
    RoundKeeps type piece i (pieceRound type s i ret x) := by
  obtain ⟨hsame, hhal⟩ := fetchMd5_same s i x
  rw [pieceRound]
  split
  · rename_i hboth
    have hflag : s.datAvailable i = true := (Bool.and_eq_true_iff.mp hboth).2
    obtain ⟨data, hfile⟩ := Option.ne_none_iff_exists'.mp (hpresent i hi hflag)
    have hkeep := epoDatFileMerge_same s i EPO_MERGE_FULL_FILE x
    exact ⟨hkeep.flagged hs, fun _ => ⟨hkeep.present hpresent,
      merged_succ hmerged (fun h => hfits.anew h (.inl (.inl hboth))) hfile
        (hs i data hflag hfile)⟩, nofun⟩
  · rename_i hboth
    dsimp only
    split
    · rename_i hmd5
      have hdownloads : Downloads s i x := ⟨Bool.eq_false_iff.mpr hboth, hmd5⟩
      have hother : ∀ file j, j ≠ i →
          Function.update (fetchMd5 s i x).1.datFile i file j = s.datFile j := by
        intro file j hj
        rw [Function.update_of_ne hj, hsame.datFile]
      cases hdat : x.dat with
      | success data =>
        have hlog : ∀ e ∈ s.log, e ∈ ((fetchMd5 s i x).1.download i data).log := by
          intro e he
          refine List.mem_append_left _ ?_
          rw [hsame.log]
          exact he
        have hcut : x.md5Match = false → 0 < epoDatChecksumCheck type i data x →
            Cuts type s i x data := fun hmatch hvalid => ⟨hdownloads, hdat, hmatch, hvalid⟩
        refine checkPiece_keeps (hs.but hsame.datAvailable (hother _) hlog)
          (hpresent.update hsame.datAvailable (hother _) (Function.update_self _ _ _))
          (hmerged.of_same hhal hlog) (Function.update_self _ _ _)
          (List.mem_append_right _ (List.mem_singleton.mpr rfl)) (fun h hor => ?_)
          fun hmatch hvalid => ⟨?_, hfits.whole data (hcut hmatch hvalid)⟩
        rotate_left
        · change (fetchMd5 s i x).1.datAvailable i = false
          rw [hsame.datAvailable]
          exact hfits.fresh data (.inl (hcut hmatch hvalid))
        change (fetchMd5 s i x).1.hal.getD [] = [] ∨ x.unlinkHal = true
        rw [hhal]
        refine hfits.anew h ?_
        cases hmatch : x.md5Match with
        | true => exact .inl (.inr ⟨hdownloads, ⟨data, hdat⟩, hmatch⟩)
        | false =>
          refine .inr ⟨data, hcut hmatch (hor.resolve_left ?_)⟩
          rw [hmatch]
          exact Bool.false_ne_true
      | fail left =>
        refine ⟨?_, nofun, nofun⟩
        have hbut : FlaggedBut { (fetchMd5 s i x).1 with
            datFile := Function.update (fetchMd5 s i x).1.datFile i
              (left.getD ((fetchMd5 s i x).1.datFile i)) } i :=
          hs.but hsame.datAvailable (hother _) fun e he => by
            rw [hsame.log]
            exact he
        refine hbut.flagged fun data hflag hfile => ?_
        change (fetchMd5 s i x).1.datAvailable i = true at hflag
        change Function.update (fetchMd5 s i x).1.datFile i _ i = some data at hfile
        rw [Function.update_self] at hfile
        cases left with
        | none => exact (hsame.flagged hs) i data hflag hfile
        | some file =>
          change file = some data at hfile
          subst hfile
          rw [hsame.datAvailable, hfits.fresh data (.inr ⟨hdownloads, hdat⟩)] at hflag
          cases hflag
    · refine ⟨hsame.flagged hs, nofun, fun _ hsuccess => ?_⟩
      have hi0 : i ≠ 0 := by
        rintro rfl
        cases hsuccess
      exact (hmerged.of_same hhal fun e he => by rw [hsame.log]; exact he).injected
        fun h => absurd h hi0

end Round

/-! ## Calls -/

section Call

variable {s : State} {piece : Nat}

/-- The loop over the pieces leaves what may be handed on, when it succeeds. -/
theorem pieceLoop_keeps {input : Nat → PieceInput} {ret : DownloadResult} {i n : Nat}
    (hfits : LoopFits type input s ret i n) (hs : Flagged s) (hpresent : Present s piece)
    (hn : i + n = piece) (hmerged : Merged s i) (hempty : piece = 0 → s.hal.getD [] = []) :
    Flagged (pieceLoop type input s ret i n).state ∧
      ((pieceLoop type input s ret i n).ret = .success →
        Injected type (pieceLoop type input s ret i n).state) := by
  induction n generalizing s ret i with
  | zero => exact ⟨hs, fun _ => hmerged.injected fun hi => hempty (by rw [← hn, hi])⟩
  | succ n ih =>
    have hkeeps : RoundKeeps type piece i (pieceRound type s i ret (input i)) :=
      pieceRound_keeps hfits.1 hs hpresent (by omega) hmerged
    rw [pieceLoop]
    split
    · rename_i hgoes
      obtain ⟨hpresent', hmerged'⟩ := hkeeps.merged hgoes
      exact ih (hfits.2 hgoes) hkeeps.flagged hpresent' (by omega) hmerged'
        fun hpiece => absurd hpiece (by omega)
    · rename_i hends
      exact ⟨hkeeps.flagged, hkeeps.injected (Bool.eq_false_iff.mpr hends)⟩

/-- With a new day no piece is flagged. -/
theorem newDay_flagged (tm_mday : Int) (x : AttemptInput) (hs : Flagged s) :
    Flagged (newDay s tm_mday piece x) := by
  rw [newDay]
  split
  · exact fun j data hflag => absurd hflag Bool.false_ne_true
  · exact hs

/-- Pieces that are not there are not flagged when the loop begins. -/
theorem attemptStart_spec (piece : Nat) (tm_mday : Int) (x : AttemptInput) (hs : Flagged s) :
    Flagged (attemptStart s tm_mday piece x) ∧ Present (attemptStart s tm_mday piece x) piece ∧
      (attemptStart s tm_mday piece x).hal = s.hal := by
  refine ⟨(newDay_flagged tm_mday x hs).of_fewer
    (fun j hj => (Bool.and_eq_true_iff.mp hj).1) (fun j data hj => hj) rfl, ?_, ?_⟩
  · intro j hj hflag
    have hthere := (Bool.and_eq_true_iff.mp hflag).2
    rw [decide_eq_false (Nat.not_le.mpr hj), Bool.false_or] at hthere
    exact Option.isSome_iff_ne_none.mp (Bool.and_eq_true_iff.mp hthere).1
  · rw [attemptStart, checkEpoFileExist, newDay]
    split <;> rfl

/-- Deleting the files of the pieces leaves the flags right. -/
theorem clean_flagged (x : AttemptInput) (hs : Flagged s) : Flagged (clean s piece x) := by
  refine hs.of_fewer (fun j hj => hj) (fun j data hfile => ?_) rfl
  change (if j < piece then unlink (x.cleanDat j) (s.datFile j) else s.datFile j) = _ at hfile
  rw [unlink] at hfile
  split at hfile
  · split at hfile
    · cases hfile
    · exact hfile
  · exact hfile

/-- The rounds of the download leave what may be handed on, when they succeed. -/
theorem attempts_keeps {x : RunInput} {n k : Nat} {ret : DownloadResult}
    (hfits : AttemptsFit type x piece n k s ret) (hs : Flagged s)
    (hempty : piece = 0 → s.hal.getD [] = []) (hret : n = 0 → ret = .fail) :
    Flagged (attempts type x piece n k s ret) ∧
      ((attempts type x piece n k s ret).result = .success →
        Injected type (attempts type x piece n k s ret)) := by
  induction n generalizing k s ret with
  | zero =>
    refine ⟨hs, fun hsuccess => ?_⟩
    change ret = .success at hsuccess
    rw [hret rfl] at hsuccess
    cases hsuccess
  | succ n ih =>
    obtain ⟨hflagged, hpresent, hhal⟩ :=
      attemptStart_spec piece x.tm_mday (x.attempt k) hs
    obtain ⟨hloop, hinjected⟩ := pieceLoop_keeps hfits.1 hflagged hpresent (Nat.zero_add _)
      (fun h => absurd h (Nat.lt_irrefl 0)) (fun hpiece => by rw [hhal, hempty hpiece])
    rw [attempts]
    split
    · rename_i hsuccess
      exact ⟨clean_flagged _ hloop, fun _ => hinjected hsuccess⟩
    · rename_i hfail
      have hfailed : (pieceLoop type (x.attempt k).piece
          (attemptStart s x.tm_mday piece (x.attempt k)) ret 0 piece).ret = .fail := by
        cases hend : (pieceLoop type (x.attempt k).piece
          (attemptStart s x.tm_mday piece (x.attempt k)) ret 0 piece).ret with
        | success => exact absurd hend hfail
        | fail => rfl
      split
      · rename_i hcount
        refine ih (hfits.2 hfailed hcount) hloop (fun hpiece => ?_) fun _ => hfailed
        subst hpiece
        change (attemptStart s x.tm_mday 0 (x.attempt k)).hal.getD [] = []
        rw [hhal, hempty rfl]
      · exact ⟨hloop, fun hsuccess => absurd hsuccess hfail⟩

/-- A call that does not go wrong leaves what may be handed on, when it succeeds. -/
theorem epoFileDownloadImpl_keeps {x : RunInput} (hfits : RunFits type s x) (hs : Flagged s) :
    Flagged (epoFileDownloadImpl type s x) ∧
      ((epoFileDownloadImpl type s x).result = .success →
        Injected type (epoFileDownloadImpl type s x)) := by
  refine attempts_keeps hfits.rounds hs (fun hpiece => ?_) nofun
  change (unlink x.unlinkHal s.hal).getD [] = []
  rw [unlink]
  rcases hfits.empty hpiece with hempty | hdone
  · split
    · rfl
    · exact hempty
  · rw [if_pos hdone]
    rfl

end Call

/-! ## Runs -/

/-- Along every run whose calls do not go wrong, a call that succeeds hands on verified pieces, in
order, and at most a valid part of the next one. -/
theorem epoDownload_injected (type : EpoType) (md5File : Nat → Bool)
    (datFile : Nat → Option Bytes) (hal : Option Bytes) (acts : List RunInput)
    (h : (epoMachine type md5File datFile hal).Meets (RunFits type) (.start md5File datFile hal)
      acts) :
    (epoMachine type md5File datFile hal).Along (fun s => s.result = .success → Injected type s)
      (.start md5File datFile hal) acts := by
  refine (epoMachine type md5File datFile hal).along_of_meets
    (fun s x s' hs hfits hstep => ?_)
    (fun s (hs : Flagged s ∧ (s.result = .success → Injected type s)) => hs.2)
    ⟨fun j data hflag => absurd hflag Bool.false_ne_true, nofun⟩ h
  cases hstep
  exact epoFileDownloadImpl_keeps hfits hs.1

/-- A piece that is downloaded with its MD5 file. -/
def answers (md5Match : Bool) (data : Bytes) : PieceInput where
  unlinkHal := true
  md5 := .updated
  dat := .success data
  md5Match := md5Match
  fileSize := true
  reads := 60
  unlinkMd5 := true
  unlinkDat := true

/-- Two pieces are asked for; the second one does not match its MD5. -/
def twoPieces (data : Bytes) : RunInput where
  tm_mday := 1
  gps_epo_download_days := 6
  unlinkHal := true
  attempt _ :=
    { resetMd5 := fun _ => true
      resetDat := fun _ => true
      accessMd5 := fun _ => true
      accessDat := fun _ => true
      piece := fun i => if i = 0 then answers true [1] else answers false data
      cleanMd5 := fun _ => true
      cleanDat := fun _ => true }

/-- For GPS the first segment of the second piece is handed on behind the first piece. -/
theorem epoDownload_injected_twoPieces :
    (epoMachine .gps (fun _ => false) (fun _ => none) none).Along
      (fun s => s.result = .success → Injected .gps s)
      (.start (fun _ => false) (fun _ => none) none) [twoPieces (List.replicate 2400 0)] := by
  refine epoDownload_injected .gps _ _ _ _ ⟨⟨fun _ => .inl rfl, ⟨?_, ?_⟩, ?_⟩, fun _ _ => trivial⟩
  · exact ⟨fun _ _ => .inl rfl, fun _ _ => rfl, fun data h => absurd h.2.2.1 (by decide)⟩
  · exact fun _ => ⟨⟨nofun, fun _ _ => rfl, fun data h => .inl (epoDatChecksumCheck_gps h.2.2.2)⟩,
      fun _ => trivial⟩
  · exact fun hfail => absurd hfail (by decide +kernel)

section Overshoot

variable {data : Bytes}

/-- The state in which the second piece has been downloaded. -/
def secondPiece (type : EpoType) (data : Bytes) : State :=
  let x := (twoPieces data).attempt 0
  let first := (pieceRound type (attemptStart (.start (fun _ => false) (fun _ => none) none) 1 2 x)
    0 .success (x.piece 0)).state
  (fetchMd5 first 1 (x.piece 1)).1.download 1 data

theorem secondPiece_hal : (secondPiece type data).hal = some [1] := by
  change some ([] ++ copied EPO_MERGE_FULL_FILE 0 [1]) = _
  rw [copied_full]
  rfl

/-- The first piece is the only one that has matched its MD5. -/
theorem secondPiece_verified {j : Nat} {piece : Bytes}
    (h : .verified j piece ∈ (secondPiece type data).log) : j = 0 ∧ piece = [1] := by
  change _ ∈ [Event.downloaded 0 [1], .verified 0 [1], .downloaded 1 data] at h
  simpa only [List.mem_cons, reduceCtorEq, Event.verified.injEq, false_or, or_false,
    List.not_mem_nil] using h

/-- The call hands on the first piece and the cut of the second one. -/
theorem epoFileDownloadImpl_twoPieces
    (hcut : 0 < epoDatChecksumCheck type 1 data (answers false data)) :
    epoFileDownloadImpl type (.start (fun _ => false) (fun _ => none) none) (twoPieces data) =
      { clean (epoDatFileMerge (secondPiece type data) 1
          (epoDatChecksumCheck type 1 data (answers false data)) (answers false data)) 2
          ((twoPieces data).attempt 0) with
        result := .success } := by
  have hround : checkPiece type (secondPiece type data) 1 data (answers false data) =
      ⟨epoDatFileMerge (secondPiece type data) 1
        (epoDatChecksumCheck type 1 data (answers false data)) (answers false data), .success,
        false⟩ := by
    rw [checkPiece, if_neg (by exact Bool.false_ne_true), if_pos hcut]
  have hloop : pieceLoop type ((twoPieces data).attempt 0).piece
      (attemptStart (.start (fun _ => false) (fun _ => none) none) 1 2 ((twoPieces data).attempt 0))
      .success 0 2 = ⟨epoDatFileMerge (secondPiece type data) 1
        (epoDatChecksumCheck type 1 data (answers false data)) (answers false data), .success,
        1⟩ := by
    change (if (checkPiece type (secondPiece type data) 1 data (answers false data)).goesOn then _
      else LoopEnd.mk (checkPiece type (secondPiece type data) 1 data (answers false data)).state
        (checkPiece type (secondPiece type data) 1 data (answers false data)).ret 1) = _
    rw [hround]
    rfl
  have hpiece : (twoPieces data).gps_epo_download_piece = 2 := by
    have hdays : (twoPieces data).gps_epo_download_days = 6 := rfl
    rw [RunInput.gps_epo_download_piece, hdays]
    exact rfl
  have hstart : { State.start (fun _ => false) (fun _ => none) none with
      hal := unlink (twoPieces data).unlinkHal none } =
      State.start (fun _ => false) (fun _ => none) none := rfl
  have hday : (twoPieces data).tm_mday = 1 := rfl
  have hhal : (State.start (fun _ => false) (fun _ => none) none).hal = none := rfl
  rw [epoFileDownloadImpl, hpiece, hhal, hstart, attempts, hday]
  simp only
  rw [hloop, if_pos rfl]

/-- For GPS and GLONASS the copy goes on behind the cut, with bytes that nothing has verified. -/
theorem epoDownload_not_injected : ¬ ∀ (type : EpoType) (md5File : Nat → Bool)
    (datFile : Nat → Option Bytes) (hal : Option Bytes) (acts : List RunInput),
    (epoMachine type md5File datFile hal).Along (fun s => s.result = .success → Injected type s)
      (.start md5File datFile hal) acts := by
  intro h
  have hcheck : epoDatChecksumCheck .gpsGlo 1 (List.replicate 4200 0)
      (answers false (List.replicate 4200 0)) = (4032 : Nat) := by decide +kernel
  have hrun := (h .gpsGlo (fun _ => false) (fun _ => none) none
    [twoPieces (List.replicate 4200 0)]).2 _ rfl
  rw [epoFileDownloadImpl_twoPieces (by rw [hcheck]; exact Int.natCast_pos.mpr (by decide))] at hrun
  obtain ⟨pieces, tail, hhal, hverified, htail⟩ := hrun rfl
  have hlength : 4097 = (pieces.flatten ++ tail).length := by
    have hend : blockEnd 4032 = 4096 := rfl
    rw [← hhal]
    change _ = ((secondPiece _ _).hal.getD [] ++ copied _ 0 (List.replicate 4200 0)).length
    rw [hcheck, secondPiece_hal, copied_part 0 _ (by decide) rfl, Option.getD_some, hend,
      List.length_append, List.length_take, List.length_replicate]
    rfl
  have hpieces : pieces.flatten.length ≤ 1 := by
    cases pieces with
    | nil => exact Nat.zero_le 1
    | cons first rest =>
      cases rest with
      | nil =>
        rw [(secondPiece_verified (hverified 0 first rfl)).2]
        exact Nat.le_refl 1
      | cons second rest =>
        exact absurd (secondPiece_verified (hverified 1 second rfl)).1 Nat.one_ne_zero
  have hsegments : tail.length % 4032 = 0 := by
    rcases htail with rfl | ⟨data, -, n, rfl, hle, -⟩
    · rfl
    · rw [List.length_take, Nat.min_eq_left hle]
      exact Nat.mul_mod_left n 4032
  rw [List.length_append] at hlength
  omega

end Overshoot

end MtkHw.Gps.Epo
