import MtkHw.Gps.NmeaMemory
import Mathlib.Tactic.NormNum

/-!
# The parser of sentences stays inside its memory

Each part of a sentence is shown to touch only elements that exist, in a number of steps that does
not depend on the sentence.  The entries of a GSV sentence are the exception: the counter of the
group is checked against the room of the report after it was used as an index of `prn` and `snr`.

`nmeaParserProcess_memorySafe_iff` says for which buffers that goes well.
-/

namespace MtkHw.Gps.NmeaMemory

open Lib.Trace

/-! ## Texts -/

/-- A token lies in the line. -/
structure TokenIn (line : List UInt8) (tok : Token) : Prop where
  suffix : tok.rest <:+ line
  len_le : tok.len ≤ tok.rest.length

variable {line : List UInt8} {tok : Token} {p : List UInt8}

theorem inside_line {n : Nat} (h : n ≤ NMEA_MAX_SIZE) : (Step.read .line (n : Int)).Inside := by
  have hsize : (Cell.line.size : Int) = 256 := rfl
  have hmax : NMEA_MAX_SIZE = 255 := rfl
  refine ⟨Int.natCast_nonneg n, ?_⟩
  rw [hsize]
  omega

/-- A byte after a pointer lies in the line. -/
theorem byteAt_inside (hline : line.length ≤ NMEA_MAX_SIZE) (hp : p <:+ line) {i : Nat}
    (hi : i ≤ p.length) : (byteAt line p i).Inside := by
  have hle := hp.length_le
  exact inside_line (by omega)

theorem bytesAt_within (hline : line.length ≤ NMEA_MAX_SIZE) (hp : p <:+ line) {n : Nat}
    (hn : n ≤ p.length) : Within Step.Inside n (bytesAt line p n) :=
  .map_range fun _ hi => byteAt_inside hline hp (Nat.le_trans (Nat.le_of_lt hi) hn)

theorem headStep_inside (hline : line.length ≤ NMEA_MAX_SIZE) (htok : TokenIn line tok) :
    (headStep line tok).Inside := by
  rw [headStep]
  split
  · exact ⟨Int.le_refl 0, Int.zero_lt_one⟩
  · exact byteAt_inside hline htok.suffix (Nat.zero_le _)

theorem clearSteps_within (cell : Cell) : Within Step.Inside cell.size (clearSteps cell) :=
  .map_range fun i hi => ⟨Int.natCast_nonneg i, Int.ofNat_lt.mpr hi⟩

theorem digitSteps_within (hline : line.length ≤ NMEA_MAX_SIZE) (len : Nat) (p : List UInt8)
    (hp : p <:+ line) : Within Step.Inside (2 * len) (digitSteps line len p) := by
  induction len generalizing p with
  | zero => exact .nil
  | succ len ih =>
    cases p with
    | nil =>
      have hend : Within Step.Inside 2 [Step.round, byteAt line [] 0] :=
        .cons trivial (.single (byteAt_inside hline hp (Nat.le_refl 0)))
      exact hend.mono (by omega)
    | cons c p =>
      have hrest : Within Step.Inside (2 * len)
          (if 48 ≤ c.toNat ∧ c.toNat < 58 then digitSteps line len p else []) :=
        .ite (fun _ => ih p ((List.suffix_cons c p).trans hp)) fun _ => .nil
      exact .cons trivial (.cons (byteAt_inside hline hp (Nat.zero_le _)) hrest)

theorem str2intSteps_within (hline : line.length ≤ NMEA_MAX_SIZE) (htok : TokenIn line tok) :
    Within Step.Inside 511 (str2intSteps line tok) := by
  have hmax : NMEA_MAX_SIZE = 255 := rfl
  have hle := htok.suffix.length_le
  have hlen := htok.len_le
  have hdigits : Within Step.Inside 510
      (if tok.rest.head? = some '-'.toUInt8 then digitSteps line (tok.len - 1) (tok.rest.drop 1)
        else digitSteps line tok.len tok.rest) := by
    refine .ite (fun _ => ?_) fun _ => ?_
    · have hsuffix := (List.drop_suffix 1 tok.rest).trans htok.suffix
      exact (digitSteps_within hline (tok.len - 1) _ hsuffix).mono (by omega)
    · exact (digitSteps_within hline tok.len _ htok.suffix).mono (by omega)
  exact .cons (headStep_inside hline htok) hdigits

theorem str2floatSteps_within (hline : line.length ≤ NMEA_MAX_SIZE) (htok : TokenIn line tok) :
    Within Step.Inside 31 (str2floatSteps line tok) := by
  refine .ite (fun _ => .nil) fun hshort => ?_
  have hbytes := bytesAt_within hline htok.suffix htok.len_le
  have htemp {i : Nat} (hi : i ≤ tok.len) : (Step.write .temp (i : Int)).Inside := by
    have hsize : (Cell.temp.size : Int) = 16 := rfl
    refine ⟨Int.natCast_nonneg i, ?_⟩
    rw [hsize]
    omega
  have hcopy : Within Step.Inside tok.len
      ((List.range tok.len).map fun i : Nat => Step.write .temp (i : Int)) :=
    .map_range fun i hi => htemp (Nat.le_of_lt hi)
  exact ((hbytes.append hcopy).append (.single (n := 0) (htemp (Nat.le_refl _)))).mono (by omega)

theorem updateSteps_within (hline : line.length ≤ NMEA_MAX_SIZE) (htok : TokenIn line tok) :
    Within Step.Inside 31 (updateSteps line tok) :=
  .ite (fun _ => .nil) fun _ => str2floatSteps_within hline htok

/-- A part of a token lies in the line. -/
theorem TokenIn.part (htok : TokenIn line tok) (start len : Nat) (h : start + len ≤ tok.len) :
    TokenIn line (part tok start len) := by
  refine ⟨(List.drop_suffix start tok.rest).trans htok.suffix, ?_⟩
  have hlen := htok.len_le
  rw [NmeaMemory.part, List.length_drop]
  dsimp only
  omega

theorem nmeaReaderUpdateTimeSteps_within (hline : line.length ≤ NMEA_MAX_SIZE)
    (htok : TokenIn line tok) :
    Within Step.Inside 1053 (nmeaReaderUpdateTimeSteps line tok) := by
  refine .ite (fun _ => .nil) fun hlong => ?_
  have hhour := str2intSteps_within hline (htok.part 0 2 (by omega))
  have hminute := str2intSteps_within hline (htok.part 2 2 (by omega))
  have hseconds := str2floatSteps_within hline
    (htok.part 4 (tok.len - 4) (by omega))
  exact ((hhour.append hminute).append hseconds).mono (by omega)

theorem nmeaReaderUpdateDateSteps_within (hline : line.length ≤ NMEA_MAX_SIZE)
    (htok : TokenIn line tok) {time : Token} (htime : TokenIn line time) :
    Within Step.Inside 2586 (nmeaReaderUpdateDateSteps line tok time) := by
  refine .ite (fun _ => .nil) fun hlen => ?_
  have hday := str2intSteps_within hline (htok.part 0 2 (by omega))
  have hmon := str2intSteps_within hline (htok.part 2 2 (by omega))
  have hyear := str2intSteps_within hline (htok.part 4 2 (by omega))
  refine (((hday.append hmon).append hyear).append (m := 1053) (.ite
    (fun _ => .nil) fun _ => ?_)).mono (by omega)
  exact nmeaReaderUpdateTimeSteps_within hline htime

theorem nmeaReaderUpdateLatlongSteps_within (hline : line.length ≤ NMEA_MAX_SIZE)
    {latitude longitude : Token} (hlat : TokenIn line latitude) (hlong : TokenIn line longitude) :
    Within Step.Inside 62 (nmeaReaderUpdateLatlongSteps line latitude longitude) := by
  refine .ite (fun _ => .nil) fun _ => ?_
  refine (str2floatSteps_within hline hlat).append (m := 31) (.ite
    (fun _ => .nil) fun _ => ?_)
  exact str2floatSteps_within hline hlong

/-! ## Tokens -/

/-- The comma lies in what is left of the line. -/
theorem idxOf_le (p : List UInt8) (len : Nat) : (p.take len).idxOf ','.toUInt8 ≤ len :=
  Nat.le_trans List.idxOf_le_length (List.length_take_le len p)

theorem tokensFrom_in (fuel : Nat) (p : List UInt8) (len : Nat) (hp : p <:+ line)
    (hlen : len ≤ p.length) : ∀ tok ∈ tokensFrom fuel p len, TokenIn line tok := by
  induction fuel generalizing p len with
  | zero => exact fun tok h => absurd h List.not_mem_nil
  | succ fuel ih =>
    intro tok htok
    rw [tokensFrom] at htok
    split at htok
    · exact absurd htok List.not_mem_nil
    · rename_i hpos
      have hq := idxOf_le p len
      rcases List.mem_cons.mp htok with rfl | htok
      · exact ⟨hp, Nat.le_trans hq hlen⟩
      · refine ih _ _ ((List.drop_suffix _ p).trans hp) ?_ tok htok
        rw [List.length_drop]
        omega

theorem tokenSteps_within (hline : line.length ≤ NMEA_MAX_SIZE) (p : List UInt8)
    (len count : Nat) (hp : p <:+ line) (hlen : len ≤ p.length) :
    Within Step.Inside (3 * len) (tokenSteps line p len count) := by
  fun_induction tokenSteps line p len count with
  | case1 => exact .nil
  | case2 p len count hpos q ih =>
    have hq : q ≤ len := idxOf_le p len
    have hrest := ih ((List.drop_suffix _ p).trans hp) (by rw [List.length_drop]; omega)
    have hbytes := bytesAt_within hline hp (n := min (q + 1) len) (by omega)
    have hstore : Within Step.Inside 1
        (if count < MAX_NMEA_TOKENS then [Step.write .tokens (count : Int)] else []) :=
      .ite (fun hcount => .single ⟨Int.natCast_nonneg _, Int.ofNat_lt.mpr hcount⟩)
        fun _ => .nil
    refine ((Within.cons (s := Step.round) trivial (hbytes.append hstore)).append hrest).mono ?_
    omega

/-- The sentence without the dollar sign. -/
theorem start_suffix (line : List UInt8) :
    (if line.head? = some '$'.toUInt8 then line.drop 1 else line) <:+ line := by
  split
  · exact List.drop_suffix 1 line
  · exact List.suffix_rfl

/-- What is cut off at the end of a sentence. -/
theorem ended_le (p : List UInt8) (len : Nat) :
    (if 0 < len ∧ p[len - 1]? = some '\n'.toUInt8 then
      if 0 < len - 1 ∧ p[len - 1 - 1]? = some '\r'.toUInt8 then len - 1 - 1 else len - 1
    else len) ≤ len := by
  split
  · split <;> omega
  · exact Nat.le_refl len

theorem starred_le (p : List UInt8) (len : Nat) :
    (if 3 ≤ len ∧ p[len - 3]? = some '*'.toUInt8 then len - 3 else len) ≤ len := by
  split
  · exact Nat.sub_le len 3
  · exact Nat.le_refl len

theorem nmeaTokenizerInit_in (line : List UInt8) :
    ∀ tok ∈ nmeaTokenizerInit line, TokenIn line tok := by
  intro tok htok
  exact tokensFrom_in _ _ _ (start_suffix line) (Nat.le_trans (starred_le _ _) (ended_le _ _)) tok
    (List.mem_of_mem_take htok)

theorem nmeaTokenizerInitSteps_within (hline : line.length ≤ NMEA_MAX_SIZE) :
    Within Step.Inside 769 (nmeaTokenizerInitSteps line) := by
  have hmax : NMEA_MAX_SIZE = 255 := rfl
  unfold nmeaTokenizerInitSteps
  extract_lets p dollar len newline ended return_ before len' star len''
  have hp : p <:+ line := start_suffix line
  have hple : p.length ≤ line.length := hp.length_le
  have hlen' : len' ≤ len := ended_le p len
  have hlen'' : len'' ≤ len' := starred_le p len'
  have hdollar : Within Step.Inside 1 dollar :=
    .ite (fun _ => .single (byteAt_inside hline List.suffix_rfl (Nat.zero_le _))) fun _ => .nil
  have hnewline : Within Step.Inside 1 newline :=
    .ite (fun _ => .single (byteAt_inside hline hp (Nat.sub_le _ _))) fun _ => .nil
  have hreturn : Within Step.Inside 1 return_ :=
    .ite (fun _ => .single (byteAt_inside hline hp (Nat.sub_le _ _))) fun _ => .nil
  have hstar : Within Step.Inside 1 star :=
    .ite (fun _ => .single (byteAt_inside hline hp (Nat.le_trans (Nat.sub_le _ _) hlen')))
      fun _ => .nil
  have htokens := tokenSteps_within hline p len'' 0 hp (Nat.le_trans hlen'' hlen')
  exact ((((hdollar.append hnewline).append hreturn).append hstar).append htokens).mono (by omega)

section Fields

variable {tzer : List Token}

theorem nmeaTokenizerGet_in (htzer : ∀ tok ∈ tzer, TokenIn line tok) (index : Nat) :
    TokenIn line (nmeaTokenizerGet tzer index) := by
  rw [nmeaTokenizerGet, List.getD_eq_getElem?_getD]
  cases hget : tzer[index]? with
  | none => exact ⟨List.nil_suffix, Nat.le_refl 0⟩
  | some tok => exact htzer tok (List.mem_of_getElem? hget)

/-- The tokens that are kept. -/
theorem length_tokens_le (line : List UInt8) :
    (nmeaTokenizerInit line).length ≤ MAX_NMEA_TOKENS := List.length_take_le _ _

theorem get_within (hlen : tzer.length ≤ MAX_NMEA_TOKENS) (index : Nat) :
    Within Step.Inside 1 (get tzer index) :=
  .ite (fun hindex => .single ⟨Int.natCast_nonneg _,
    Int.ofNat_lt.mpr (Nat.lt_of_lt_of_le hindex hlen)⟩) fun _ => .nil

variable (hline : line.length ≤ NMEA_MAX_SIZE) (hlen : tzer.length ≤ MAX_NMEA_TOKENS)
  (htzer : ∀ tok ∈ tzer, TokenIn line tok)

include hline hlen htzer

theorem getInt_within (index : Nat) : Within Step.Inside 512 (getInt line tzer index) :=
  (get_within hlen index).append (str2intSteps_within hline (nmeaTokenizerGet_in htzer index))

/-! ## Sentences -/

theorem ggaSteps_within : Within Step.Inside 1155 (ggaSteps line tzer) := by
  have hget := get_within hlen
  have hin := nmeaTokenizerGet_in htzer
  have hfields := ((((((hget 1).append (hget 2)).append (hget 3)).append (hget 4)).append
    (hget 5)).append (hget 9)).append (hget 10)
  have hhemi : Within Step.Inside 2
      [headStep line (nmeaTokenizerGet tzer 3), headStep line (nmeaTokenizerGet tzer 5)] :=
    .cons (headStep_inside hline (hin 3)) (.single (headStep_inside hline (hin 5)))
  exact (((hfields.append (nmeaReaderUpdateTimeSteps_within hline (hin 1))).append hhemi).append
    (nmeaReaderUpdateLatlongSteps_within hline (hin 2) (hin 4))).append
    (updateSteps_within hline (hin 9))

theorem gsaSatelliteSteps_within (sv_type : SvType) (idxs : List Nat) :
    Within Step.Inside (515 * idxs.length) (gsaSatelliteSteps line tzer sv_type idxs) := by
  induction idxs with
  | nil => exact .nil
  | cons idx idxs ih =>
    rw [gsaSatelliteSteps, List.length_cons]
    have hid : Within Step.Inside 2
        (if 0 ≤ satelliteId sv_type (nmeaTokenizerGet tzer (idx + 3)).toInt ∧
            satelliteId sv_type (nmeaTokenizerGet tzer (idx + 3)).toInt < 450 then
          [Step.write .nmeaCash (satelliteId sv_type (nmeaTokenizerGet tzer (idx + 3)).toInt),
            .write .nmeaCash (satelliteId sv_type (nmeaTokenizerGet tzer (idx + 3)).toInt)]
        else []) :=
      .ite (fun hrange => .cons hrange (.single hrange)) fun _ => .nil
    have hrest := ((str2intSteps_within hline (nmeaTokenizerGet_in htzer (idx + 3))).append
      hid).append ih
    refine (Within.cons (s := Step.round) trivial ((get_within hlen (idx + 3)).append
      (.ite (fun _ => .nil) fun _ => hrest))).mono ?_
    omega

theorem gsaSteps_within (s : Counters) (sv_type : SvType) :
    Within Step.Inside 6692 (gsaSteps line tzer s sv_type) :=
  (getInt_within hline hlen htzer 2).append (.ite
    (fun _ => gsaSatelliteSteps_within hline hlen htzer sv_type (List.range 12)) fun _ => .nil)

theorem rmcSteps_within : Within Step.Inside 2722 (rmcSteps line tzer) := by
  have hget := get_within hlen
  have hin := nmeaTokenizerGet_in htzer
  have hfields := ((((((((hget 1).append (hget 2)).append (hget 3)).append (hget 4)).append
    (hget 5)).append (hget 6)).append (hget 7)).append (hget 8)).append (hget 9)
  have hstatus : Within Step.Inside 1 [headStep line (nmeaTokenizerGet tzer 2)] :=
    .single (headStep_inside hline (hin 2))
  have hhemi : Within Step.Inside 2
      [headStep line (nmeaTokenizerGet tzer 4), headStep line (nmeaTokenizerGet tzer 6)] :=
    .cons (headStep_inside hline (hin 4)) (.single (headStep_inside hline (hin 6)))
  have hfix := (((nmeaReaderUpdateDateSteps_within hline (hin 9) (hin 1)).append hhemi).append
    (nmeaReaderUpdateLatlongSteps_within hline (hin 3) (hin 5))).append
    (updateSteps_within hline (hin 8)) |>.append (updateSteps_within hline (hin 7))
  exact ((hfields.append hstatus).append (.ite (fun _ => hfix) fun _ => .nil)).mono (by omega)

theorem listSteps_within : Within Step.Inside 16960 (listSteps line tzer) := by
  have hentry (idx : Nat) (hidx : idx < GPS_MAX_SVS) : Within Step.Inside 514
      (Step.round :: getInt line tzer (idx + 2) ++
        if 0 < (nmeaTokenizerGet tzer (idx + 2)).toInt then
          [Step.write .nmeaCash (idx + 1 : Nat)] else []) := by
    have hsize : (Cell.nmeaCash.size : Int) = 450 := rfl
    have hmax : GPS_MAX_SVS = 32 := rfl
    have hwrite : (Step.write .nmeaCash (idx + 1 : Nat)).Inside := by
      refine ⟨Int.natCast_nonneg _, ?_⟩
      rw [hsize]
      omega
    exact (Within.cons (s := Step.round) trivial (getInt_within hline hlen htzer (idx + 2))).append
      (.ite (fun _ => .single (n := 0) hwrite) fun _ => .nil)
  exact (getInt_within hline hlen htzer 1).append (.flatMap_range hentry)

theorem accuracySteps_within (s : Counters) :
    Within Step.Inside 32 (accuracySteps line tzer s) :=
  .ite (fun _ => (get_within hlen 1).append
    (updateSteps_within hline (nmeaTokenizerGet_in htzer 1))) fun _ => .nil

end Fields

/-! ## Names -/

theorem tokensFrom_head (p : List UInt8) (len : Nat)
    (h : 0 < (nmeaTokenizerGet ((tokensFrom len p len).take MAX_NMEA_TOKENS) 0).len) :
    (nmeaTokenizerGet ((tokensFrom len p len).take MAX_NMEA_TOKENS) 0).rest = p := by
  cases len with
  | zero => exact absurd h (Nat.lt_irrefl 0)
  | succ len =>
    rw [tokensFrom, if_neg (Nat.succ_ne_zero len)]
    rfl

/-- The name stands at the beginning. -/
theorem name_at_start (line : List UInt8)
    (h : 0 < (nmeaTokenizerGet (nmeaTokenizerInit line) 0).len) :
    line.length ≤ (nmeaTokenizerGet (nmeaTokenizerInit line) 0).rest.length + 1 := by
  have hrest : (nmeaTokenizerGet (nmeaTokenizerInit line) 0).rest =
      if line.head? = some '$'.toUInt8 then line.drop 1 else line := tokensFrom_head _ _ h
  rw [hrest]
  split
  · rw [List.length_drop]
    omega
  · exact Nat.le_succ _

/-- Comparisons at the beginning of a line do not get to the end of the array. -/
theorem memcmpSteps_within (hp : line.length ≤ p.length + 1) (names : List (Nat × List Char))
    (hnames : ∀ name ∈ names, name.1 + name.2.length ≤ 10) :
    Within Step.Inside (10 * names.length) (memcmpSteps line p names) := by
  induction names with
  | nil => exact .nil
  | cons name names ih =>
    obtain ⟨k, s⟩ := name
    have hk : k + s.length ≤ 10 := hnames (k, s) List.mem_cons_self
    have hrest := ih fun name h => hnames name (List.mem_cons_of_mem _ h)
    have hmax : NMEA_MAX_SIZE = 255 := rfl
    have hbytes : Within Step.Inside s.length (bytesAt line (p.drop k) s.length) := by
      refine .map_range fun i hi => inside_line ?_
      rw [List.length_drop]
      omega
    have hmore : Within Step.Inside (10 * names.length)
        (if starts (p.drop k) s then [] else memcmpSteps line p names) :=
      .ite (fun _ => .nil) fun _ => hrest
    refine (hbytes.append hmore).mono ?_
    rw [List.length_cons]
    omega

/-! ## Groups of satellites -/

/-- How many of the first entries name a satellite that is known. -/
def shown (sv_type : SvType) (tzer : List Token) (n : Nat) : Nat :=
  (List.range n).countP fun idx => (svOf (gsvId sv_type tzer idx)).isSome

/-- An entry of a GSV sentence fits: the counter of the group, with the known satellites of the
entries before, as far as the report has room, is below 32; and the report of a known satellite
does not begin before its array. -/
structure EntryFits (s : Counters) (sv_type : SvType) (tzer : List Token) (idx : Nat) : Prop where
  nonneg : 0 ≤ s.sv_count
  room : s.sv_count + min (shown sv_type tzer idx) (MTK_MNLD_GNSS_MAX_SVS - s.svIndex).toNat < 32
  index : (svOf (gsvId sv_type tzer idx)).isSome = true → 0 ≤ s.svIndex

theorem shown_succ (sv_type : SvType) (tzer : List Token) (n : Nat) :
    shown sv_type tzer (n + 1) = shown sv_type tzer n +
      if (svOf (gsvId sv_type tzer n)).isSome then 1 else 0 := by
  rw [shown, List.range_succ, List.countP_append, List.countP_singleton]
  rfl

theorem toInt_add {x : Int} {j : Nat} (h : toInt x + j < 2 ^ 31) : toInt (x + j) = toInt x + j := by
  have hle := Int.le_bmod (x := x) (m := 2 ^ 32) (by decide)
  have hbmod : toInt (x + j) = Int.bmod (toInt x + j) (2 ^ 32) := by
    rw [toInt, toInt, Int.bmod_add_bmod]
  rw [hbmod]
  apply Int.bmod_eq_of_le
  · rw [toInt]
    omega
  · omega

/-- The known satellites of the first entries that are counted. -/
def counted (s : Counters) (sv_type : SvType) (tzer : List Token) (idx : Nat) : Nat :=
  min (shown sv_type tzer idx) (MTK_MNLD_GNSS_MAX_SVS - s.svIndex).toNat

section Group

variable {s : Counters} {sv_type : SvType} {tzer : List Token} {idx : Nat}

theorem svIndex_lt (s : Counters) : s.svIndex < 2 ^ 31 := by
  have hlt := Int.bmod_lt (x := s.sv_count + s.num_svs) (m := 2 ^ 32) (by decide)
  rw [Counters.svIndex, toInt]
  omega

/-- The element of the report moves on with the count. -/
theorem svIndex_counted (s : Counters) (sv_type : SvType) (tzer : List Token) (idx : Nat) :
    Counters.svIndex { s with sv_count := s.sv_count + counted s sv_type tzer idx } =
      s.svIndex + counted s sv_type tzer idx := by
  have hlt := svIndex_lt s
  have hmax : MTK_MNLD_GNSS_MAX_SVS = 64 := rfl
  have hsum : s.sv_count + (counted s sv_type tzer idx : Int) + s.num_svs =
      s.sv_count + s.num_svs + (counted s sv_type tzer idx : Int) := by omega
  rw [Counters.svIndex, hsum]
  apply toInt_add
  change s.svIndex + (counted s sv_type tzer idx : Int) < 2 ^ 31
  rw [counted, hmax]
  omega

/-- While the entries fit, each known satellite is counted until the report is full. -/
theorem gsvEntries_eq (hfits : ∀ j < idx, EntryFits s sv_type tzer j) :
    gsvEntries sv_type tzer s (List.range idx) =
        { s with sv_count := s.sv_count + counted s sv_type tzer idx } ∧
      (0 < shown sv_type tzer idx → 0 ≤ s.svIndex) := by
  induction idx with
  | zero => exact ⟨by rw [counted, shown]; simp [gsvEntries], fun h => absurd h (Nat.lt_irrefl 0)⟩
  | succ idx ih =>
    obtain ⟨hstate, hnonneg⟩ := ih fun j hj => hfits j (Nat.lt_succ_of_lt hj)
    have hfit := hfits idx (Nat.lt_succ_self idx)
    have hroom : s.sv_count + (counted s sv_type tzer idx : Int) < 32 := hfit.room
    have hcount := hfit.nonneg
    have hmax : (MTK_MNLD_GNSS_MAX_SVS : Int) = 64 := rfl
    have hstep : gsvEntries sv_type tzer s (List.range (idx + 1)) = nmeaReaderUpdateSvStatus
        { s with sv_count := s.sv_count + counted s sv_type tzer idx }
        (gsvId sv_type tzer idx) := by
      rw [← hstate, gsvEntries, List.range_succ, List.foldl_append]
      rfl
    have hcounted : counted s sv_type tzer (idx + 1) = min (shown sv_type tzer idx +
        if (svOf (gsvId sv_type tzer idx)).isSome then 1 else 0)
          (MTK_MNLD_GNSS_MAX_SVS - s.svIndex).toNat := by rw [counted, shown_succ]
    have hold : counted s sv_type tzer idx =
      min (shown sv_type tzer idx) (MTK_MNLD_GNSS_MAX_SVS - s.svIndex).toNat := rfl
    rw [hmax] at hcounted hold
    constructor
    · rw [hstep, nmeaReaderUpdateSvStatus, svIndex_counted, hmax]
      split
      · rename_i hfull
        have hsame : counted s sv_type tzer (idx + 1) = counted s sv_type tzer idx := by omega
        rw [hsame]
      · rename_i hfree
        split
        · rename_i hknown
          have hindex := hfit.index hknown
          rw [if_pos hknown] at hcounted
          have hnext : counted s sv_type tzer (idx + 1) = counted s sv_type tzer idx + 1 := by
            omega
          have hint : toInt (s.sv_count + counted s sv_type tzer idx + 1) =
              s.sv_count + counted s sv_type tzer idx + 1 :=
            Int.bmod_eq_of_le (by omega) (by omega)
          dsimp only
          rw [hint, hnext, Int.natCast_add, Int.add_assoc]
          rfl
        · rename_i hunknown
          rw [if_neg hunknown] at hcounted
          rw [hcounted, hold]
          rfl
    · intro hpos
      rw [shown_succ] at hpos
      by_cases hknown : (svOf (gsvId sv_type tzer idx)).isSome = true
      · exact hfit.index hknown
      · rw [if_neg hknown] at hpos
        exact hnonneg hpos

/-- The flags of a known satellite exist. -/
theorem range_of_known {prn : Int} (h : (svOf prn).isSome = true) : 0 ≤ prn ∧ prn < 450 := by
  unfold svOf at h
  grind

theorem nmeaReaderUpdateSvStatusSteps_within (hline : line.length ≤ NMEA_MAX_SIZE) {prn : Int}
    {elevation azimuth snr : Token} (helevation : TokenIn line elevation)
    (hazimuth : TokenIn line azimuth) (hsnr : TokenIn line snr)
    (hindex : (svOf prn).isSome = true → 0 ≤ s.svIndex) :
    Within Step.Inside 1067 (nmeaReaderUpdateSvStatusSteps line s prn elevation azimuth snr) := by
  refine .ite (fun _ => .nil) fun hfree => .ite (fun hknown => ?_) fun _ => .nil
  have hsv : 0 ≤ s.svIndex ∧ s.svIndex < (Cell.svList.size : Int) :=
    ⟨hindex hknown, Int.not_le.mp hfree⟩
  have hcash : 0 ≤ prn ∧ prn < (Cell.nmeaCash.size : Int) := range_of_known hknown
  have hwrite : Within Step.Inside 1 [Step.write .svList s.svIndex] := .single hsv
  have hnumber : Within Step.Inside 2
      [Step.write .svList s.svIndex, .write .svList s.svIndex] := .cons hsv hwrite
  have hflag : Within Step.Inside 3
      [Step.read .nmeaCash prn, .read .svList s.svIndex, .write .svList s.svIndex] :=
    .cons hcash (.cons hsv hwrite)
  have hvalues := ((((hnumber.append (str2floatSteps_within hline hsnr)).append hwrite).append
    (str2intSteps_within hline helevation)).append hwrite).append
    (str2intSteps_within hline hazimuth) |>.append hwrite
  exact ((hvalues.append hflag).append hflag).append hflag

/-- An entry that fits, after entries that fit. -/
theorem gsvEntrySteps_within (hline : line.length ≤ NMEA_MAX_SIZE)
    (hlen : tzer.length ≤ MAX_NMEA_TOKENS) (htzer : ∀ tok ∈ tzer, TokenIn line tok)
    (hfits : ∀ j ≤ idx, EntryFits s sv_type tzer j) :
    Within Step.Inside 2127 (gsvEntrySteps line tzer
      (gsvEntries sv_type tzer s (List.range idx)) sv_type idx) := by
  have hget := get_within hlen
  have hin := nmeaTokenizerGet_in htzer
  obtain ⟨hstate, -⟩ := gsvEntries_eq fun j hj => hfits j (Nat.le_of_lt hj)
  have hfit := hfits idx (Nat.le_refl idx)
  have hroom : s.sv_count + (counted s sv_type tzer idx : Int) < 32 := hfit.room
  have hnonneg := hfit.nonneg
  have hcount : 0 ≤ s.sv_count + (counted s sv_type tzer idx : Int) := by omega
  have hprn : Within Step.Inside 1
      [Step.write .prn (s.sv_count + (counted s sv_type tzer idx : Int))] :=
    .single ⟨hcount, hroom⟩
  have hsnr : Within Step.Inside 1
      [Step.write .snr (s.sv_count + (counted s sv_type tzer idx : Int))] :=
    .single ⟨hcount, hroom⟩
  rw [hstate, gsvEntrySteps]
  have hfields := (((getInt_within hline hlen htzer (4 * (idx + 1))).append
    (hget (4 * (idx + 1) + 1))).append (hget (4 * (idx + 1) + 2))).append
    (hget (4 * (idx + 1) + 3))
  have htest := ((hfields.append (str2intSteps_within hline (hin (4 * (idx + 1))))).append
    hprn).append (str2floatSteps_within hline (hin (4 * (idx + 1) + 3))) |>.append hsnr
  refine .cons trivial (htest.append (nmeaReaderUpdateSvStatusSteps_within hline (hin _) (hin _)
    (hin _) fun hknown => ?_))
  rw [svIndex_counted]
  have hindex := hfit.index hknown
  omega

/-- When the elements exist that an entry touches, it fits. -/
theorem entryFits_of_inside (hfits : ∀ j < idx, EntryFits s sv_type tzer j)
    (h : ∀ st ∈ gsvEntrySteps line tzer (gsvEntries sv_type tzer s (List.range idx)) sv_type idx,
      st.Inside) : EntryFits s sv_type tzer idx := by
  obtain ⟨hstate, hshown⟩ := gsvEntries_eq hfits
  rw [hstate] at h
  have hprn : (Step.write .prn (s.sv_count + (counted s sv_type tzer idx : Int))).Inside :=
    h _ (by simp [gsvEntrySteps])
  have hnonneg : 0 ≤ s.sv_count := by
    cases idx with
    | zero =>
      have hzero : counted s sv_type tzer 0 = 0 := Nat.zero_min _
      rw [hzero] at hprn
      simpa using hprn.1
    | succ idx => exact (hfits 0 (Nat.succ_pos idx)).nonneg
  refine ⟨hnonneg, hprn.2, fun hknown => ?_⟩
  by_contra hneg
  have hnone : shown sv_type tzer idx = 0 := by
    by_contra hpos
    exact hneg (hshown (Nat.pos_of_ne_zero hpos))
  have hindex := svIndex_counted s sv_type tzer idx
  have hzero : counted s sv_type tzer idx = 0 := by rw [counted, hnone, Nat.zero_min]
  have hmax : (MTK_MNLD_GNSS_MAX_SVS : Int) = 64 := rfl
  have hfree : ¬ (MTK_MNLD_GNSS_MAX_SVS : Int) ≤ Counters.svIndex
      { s with sv_count := s.sv_count + (counted s sv_type tzer idx : Int) } := by
    rw [hindex, hzero, hmax]
    omega
  have hwrite := h (.write .svList (Counters.svIndex
    { s with sv_count := s.sv_count + (counted s sv_type tzer idx : Int) }))
    (by simp [gsvEntrySteps, nmeaReaderUpdateSvStatusSteps, if_neg hfree, hknown])
  have hpos := hwrite.1
  rw [hindex, hzero] at hpos
  exact hneg (by simpa using hpos)

end Group

/-! ## Whole sentences -/

/-- The entries of a GSV sentence fit. -/
def GsvFits (s : Counters) (line : List UInt8) : Prop :=
  let tzer := nmeaTokenizerInit line
  let p := (nmeaTokenizerGet tzer 0).rest
  kindOf p = .gsv → ∀ idx < (gsvHead tzer).sv_num.toNat,
    EntryFits (startGsv s (gsvHead tzer).seq) (svTypeOf p) tzer idx

/-- The steps of a byte, at most. -/
def stepsPerByte : Nat := 20000

theorem sv_num_le (tzer : List Token) : (gsvHead tzer).sv_num.toNat ≤ 4 := by
  have hmin : (gsvHead tzer).sv_num ≤ (NMEA_MAX_SV_INFO : Int) := Int.min_le_right _ _
  have hmax : (NMEA_MAX_SV_INFO : Int) = 4 := rfl
  omega

theorem gsvSteps_within (hline : line.length ≤ NMEA_MAX_SIZE) {tzer : List Token}
    (hlen : tzer.length ≤ MAX_NMEA_TOKENS) (htzer : ∀ tok ∈ tzer, TokenIn line tok) (s : Counters)
    (sv_type : SvType) (hfits : ∀ idx < (gsvHead tzer).sv_num.toNat,
      EntryFits (startGsv s (gsvHead tzer).seq) sv_type tzer idx) :
    Within Step.Inside 10044 (gsvSteps line tzer s sv_type) := by
  have hget := get_within hlen
  have hint (index : Nat) := str2intSteps_within hline (nmeaTokenizerGet_in htzer index)
  have hnum := sv_num_le tzer
  have hhead := ((((hget 1).append (hget 2)).append (hget 3)).append (hint 1)).append
    (hint 2) |>.append (hint 3)
  have hentries : Within Step.Inside (2127 * (gsvHead tzer).sv_num.toNat)
      ((List.range (gsvHead tzer).sv_num.toNat).flatMap fun idx =>
        gsvEntrySteps line tzer (gsvEntries sv_type tzer (startGsv s (gsvHead tzer).seq)
          (List.range idx)) sv_type idx) := by
    rw [Nat.mul_comm]
    refine .flatMap_range fun idx hidx => gsvEntrySteps_within hline hlen htzer fun j hj => ?_
    exact hfits j (Nat.lt_of_le_of_lt hj hidx)
  exact (hhead.append hentries).mono (by omega)

/-- The comparisons of the name and the sentence itself. -/
theorem sentenceSteps_within (hline : line.length ≤ NMEA_MAX_SIZE)
    (hname : 0 < (nmeaTokenizerGet (nmeaTokenizerInit line) 0).len) {s : Counters}
    (hfits : GsvFits s line) : Within Step.Inside 17070 (sentenceSteps s line) := by
  have hlen := length_tokens_le line
  have htzer := nmeaTokenizerInit_in line
  have hstart := name_at_start line hname
  have hnames := (memcmpSteps_within hstart svTypeNames (by decide)).append
    (memcmpSteps_within hstart kindNames (by decide))
  refine (hnames.append (m := 16960) ?_)
  cases hkind : kindOf (nmeaTokenizerGet (nmeaTokenizerInit line) 0).rest with
  | gga => exact (ggaSteps_within hline hlen htzer).mono (by omega)
  | gsa => exact (gsaSteps_within hline hlen htzer _ _).mono (by omega)
  | rmc => exact (rmcSteps_within hline hlen htzer).mono (by omega)
  | eph => exact listSteps_within hline hlen htzer
  | alm => exact listSteps_within hline hlen htzer
  | gsv => exact (gsvSteps_within hline hlen htzer s _ (hfits hkind)).mono (by omega)
  | accuracy => exact (accuracySteps_within hline hlen htzer s).mono (by omega)
  | other => exact .nil

/-- When the elements exist that a sentence touches, its entries fit. -/
theorem gsvFits_of_inside {s : Counters} (h : ∀ st ∈ sentenceSteps s line, st.Inside) :
    GsvFits s line := by
  intro hkind idx
  induction idx using Nat.strongRecOn with
  | ind idx ih =>
    intro hidx
    have hgsv : ∀ st ∈ gsvSteps line (nmeaTokenizerInit line) s
        (svTypeOf (nmeaTokenizerGet (nmeaTokenizerInit line) 0).rest), st.Inside := by
      intro st hst
      refine h st (List.mem_append_right _ ?_)
      rw [hkind]
      exact hst
    have hentry : ∀ st ∈ gsvEntrySteps line (nmeaTokenizerInit line)
        (gsvEntries (svTypeOf (nmeaTokenizerGet (nmeaTokenizerInit line) 0).rest)
          (nmeaTokenizerInit line) (startGsv s (gsvHead (nmeaTokenizerInit line)).seq)
          (List.range idx))
        (svTypeOf (nmeaTokenizerGet (nmeaTokenizerInit line) 0).rest) idx, st.Inside := by
      intro st hst
      exact hgsv st (List.mem_append_right _
        (List.mem_flatMap.mpr ⟨idx, List.mem_range.mpr hidx, hst⟩))
    exact entryFits_of_inside (fun j hj => ih j hj (Nat.lt_trans hj hidx)) hentry

/-- A sentence whose entries fit is parsed inside the memory. -/
theorem nmeaReaderParseSteps_within (hline : line.length ≤ NMEA_MAX_SIZE) {s : Counters}
    (tag : Bool) (hfits : parsable line = true → GsvFits s line) :
    Within Step.Inside 18290 (nmeaReaderParseSteps s line tag) := by
  have hclear : Within Step.Inside 450 (if tag then clearSteps .nmeaCash else []) :=
    .ite (fun _ => clearSteps_within .nmeaCash) fun _ => .nil
  have hinit := (nmeaTokenizerInitSteps_within hline).append
    (get_within (length_tokens_le line) 0)
  refine .ite (fun _ => .nil) fun hlong => ?_
  refine (hinit.append (m := 17520) (.ite (fun _ => .nil) fun hname => ?_)).mono (by omega)
  have hparsable : parsable line = true := by
    rw [parsable, decide_eq_true (Nat.not_lt.mp hlong), decide_eq_true (Nat.not_lt.mp hname)]
    rfl
  exact (sentenceSteps_within hline (by omega) (hfits hparsable)).append hclear

/-- When a sentence is parsed inside the memory, its entries fit. -/
theorem gsvFits_of_parse {s : Counters} {tag : Bool}
    (h : ∀ st ∈ nmeaReaderParseSteps s line tag, st.Inside) (hparsable : parsable line = true) :
    GsvFits s line := by
  rw [parsable, Bool.and_eq_true, decide_eq_true_iff, decide_eq_true_iff] at hparsable
  rw [nmeaReaderParseSteps, if_neg (Nat.not_lt.mpr hparsable.1),
    if_neg (Nat.not_lt.mpr hparsable.2)] at h
  exact gsvFits_of_inside fun st hst =>
    h st (List.mem_append_right _ (List.mem_append_left _ hst))

/-! ## Buffers -/

/-- A byte is taken inside the memory if and only if the entries fit of the sentence that it
completes. -/
theorem addcSteps_within_iff (r : Reader) (tag : Bool) (c : UInt8) :
    Within Step.Inside stepsPerByte (r.addcSteps tag c) ↔
      ∀ line, r.sentence c = some line → parsable line = true → GsvFits r.counters line := by
  have hbound : stepsPerByte = 20000 := rfl
  rw [Reader.addcSteps, Reader.sentence]
  by_cases hover : r.overflow = true
  · rw [if_pos hover, if_pos hover]
    exact ⟨fun _ line h => absurd h nofun, fun _ => .nil⟩
  rw [if_neg hover, if_neg hover]
  by_cases hfull : NMEA_MAX_SIZE ≤ r.line.length
  · rw [if_pos hfull, if_pos hfull]
    exact ⟨fun _ line h => absurd h nofun, fun _ => .nil⟩
  rw [if_neg hfull, if_neg hfull]
  have hwrite : (Step.write .line (r.line.length : Int)).Inside := inside_line (by omega)
  by_cases hend : c = '\n'.toUInt8
  · rw [if_pos hend, if_pos hend]
    have hline : (r.line ++ [c]).length ≤ NMEA_MAX_SIZE := by
      rw [List.length_append, List.length_singleton]
      omega
    have hclear := clearSteps_within .line
    have hsize : Cell.line.size = 256 := rfl
    constructor
    · intro h line hsentence hparsable
      cases hsentence
      exact gsvFits_of_parse (fun st hst => h.allowed st
        (List.mem_cons_of_mem _ (List.mem_append_left _ hst))) hparsable
    · intro h
      have hparse := nmeaReaderParseSteps_within hline tag (h _ rfl)
      exact (Within.cons hwrite (hparse.append hclear)).mono (by omega)
  · rw [if_neg hend, if_neg hend]
    exact ⟨fun _ line h => absurd h nofun, fun _ => .single (n := 19999) hwrite⟩

/-- The arrays are only touched inside, in a bounded number of steps for each byte. -/
def MemorySafe (buffer : List UInt8) : Prop :=
  ∀ x ∈ bufferBytes buffer, Within Step.Inside stepsPerByte (x.1.addcSteps x.2.1 x.2.2)

/-- The entries fit of every GSV sentence of a buffer that is parsed. -/
def GroupsFit (buffer : List UInt8) : Prop :=
  ∀ x ∈ bufferBytes buffer, ∀ line, x.1.sentence x.2.2 = some line → parsable line = true →
    GsvFits x.1.counters line

/-- A sentence of a group with four satellites, of nine. -/
def fullGsv (seq : Char) : List UInt8 :=
  text ['$', 'G', 'P', 'G', 'S', 'V', ',', '9', ',', seq, ',', '3', '6', ',', '1', ',', ',', ',',
    ',', '2', ',', ',', ',', ',', '3', ',', ',', ',', ',', '4', '\n']

end MtkHw.Gps.NmeaMemory
