import MtkHw.Speech.ParamUnits
import Mathlib.Tactic.IntervalCases

/-!
# Counts of categories

For which numbers of categories, and sizes of parameters, a unit is right.  The header has room for
15 networks and knows four bands.  The loop over the bands goes over as many as there are also when
a single one is asked for, and begins at the number of that band also when all of them are.
-/

namespace MtkHw.Speech.ParamParser

open Lib Lib.Packer

/-! ## Counts -/

/-- A half-word that has been written is read back. -/
theorem toNat_bytes (x : UInt16) :
    x.toUInt8.toNat + 256 * (x >>> 8).toUInt8.toNat = x.toNat := by
  have hx := x.toNat_lt
  have hhigh : (x >>> 8).toNat = x.toNat / 256 := by
    rw [UInt16.toNat_shiftRight, Nat.shiftRight_eq_div_pow]
    rfl
  rw [UInt16.toNat_toUInt8, UInt16.toNat_toUInt8, hhigh]
  omega

/-- The two half-words of a header that announce the blocks. -/
theorem announces_iff (h : ParamUnitHdr) (rest : Bytes) (single : Bool) (count : Nat) :
    Announces (h.bytes ++ rest) single count ↔
      bitCount h.paramHeader1.toNat * (h.numEachLayer.toNat % 16) = count ∧
        (single = false → h.numEachLayer.toNat / 16 * (h.numEachLayer.toNat % 16) = count) := by
  have heach : readHalfWord (h.bytes ++ rest) 4 = h.numEachLayer.toNat :=
    toNat_bytes h.numEachLayer
  have hvoice : readHalfWord (h.bytes ++ rest) 8 = h.paramHeader1.toNat :=
    toNat_bytes h.paramHeader1
  constructor
  · rintro ⟨hvoices, hlayers⟩
    rw [announcedVoiceBands, announcedOthers, heach, hvoice] at hvoices
    rw [announcedBands, announcedOthers, heach] at hlayers
    exact ⟨hvoices, hlayers⟩
  · rintro ⟨hvoices, hlayers⟩
    constructor
    · rwa [announcedVoiceBands, announcedOthers, heach, hvoice]
    · rwa [announcedBands, announcedOthers, heach]

theorem numEachLayer_toNat (a b : Nat) : (numEachLayer a b).toNat = a % 16 * 16 + b % 16 := by
  have hmask : ∀ n : Nat, n &&& 0xF = n % 16 := fun n => Nat.and_two_pow_sub_one_eq_mod n 4
  have ha := Nat.mod_lt a (by decide : 0 < 16)
  have hb := Nat.mod_lt b (by decide : 0 < 16)
  rw [numEachLayer, hmask, hmask, Nat.shiftLeft_eq, UInt16.toNat_ofNat']
  omega

/-- Two factors that are at most as large as two others, with the same product. -/
theorem eq_of_mul_eq {a b c d : Nat} (hac : a ≤ c) (hbd : b ≤ d) (hc : 0 < c) (hd : 0 < d)
    (h : a * b = c * d) : a = c ∧ b = d := by
  have hb : b = d := by
    refine Nat.le_antisymm hbd (Nat.le_of_mul_le_mul_left ?_ hc)
    calc c * d = a * b := h.symm
      _ ≤ c * b := Nat.mul_le_mul_right b hac
  subst hb
  exact ⟨Nat.eq_of_mul_eq_mul_right hd h, rfl⟩

/-- The counts of bands and networks, or profiles, that a header with several bands announces. -/
theorem fullCounts_iff (bands others : Nat) :
    (bitCount (voiceBands (bands % uint16Size)).toNat * (others % uint16Size % 16) =
        others * bands ∧
      bands % uint16Size % 16 * (others % uint16Size % 16) = others * bands) ↔
      others = 0 ∨ (bands = 0 ∧ 16 ∣ others) ∨ (bands ∈ Set.Icc 1 4 ∧ others ≤ 15) := by
  have hmod : ∀ n, n % uint16Size % 16 = n % 16 := fun n => by
    rw [uint16Size]
    omega
  rw [hmod, hmod]
  constructor
  · rintro ⟨hvoices, hlayers⟩
    rcases Nat.eq_zero_or_pos others with hothers | hothers
    · exact .inl hothers
    rcases Nat.eq_zero_or_pos bands with rfl | hbands
    · rw [Nat.mul_zero] at hvoices
      have hbits : bitCount (voiceBands (0 % uint16Size)).toNat = 2 := by decide
      rw [hbits] at hvoices
      exact .inr (.inl ⟨rfl, by omega⟩)
    · rw [Nat.mul_comm others] at hvoices hlayers
      obtain ⟨hb, ho⟩ := eq_of_mul_eq (Nat.mod_le _ _) (Nat.mod_le _ _) hbands hothers hlayers
      rw [ho] at hvoices
      have hbits := Nat.eq_of_mul_eq_mul_right hothers hvoices
      have hlt : bands < 16 := by omega
      refine .inr (.inr ⟨?_, by omega⟩)
      clear hvoices hlayers hb
      interval_cases bands <;> first | exact ⟨by decide, by decide⟩ | exact absurd hbits (by decide)
  · rintro (rfl | ⟨rfl, hdvd⟩ | ⟨⟨h1, h4⟩, hothers⟩)
    · exact ⟨by rw [Nat.zero_mod, Nat.mul_zero, Nat.zero_mul],
        by rw [Nat.zero_mod, Nat.mul_zero, Nat.zero_mul]⟩
    · rw [Nat.mod_eq_zero_of_dvd hdvd, Nat.mul_zero, Nat.mul_zero]
      exact ⟨rfl, rfl⟩
    · rw [Nat.mod_eq_of_lt (by omega : others < 16), Nat.mod_eq_of_lt (by omega : bands < 16),
        Nat.mul_comm others]
      refine ⟨?_, rfl⟩
      congr 1
      interval_cases bands <;> decide

/-! ## Units that are right -/

section Units

variable {p : SpeechParamParser} {appOps : AppOps} {arg : ParamArg} {mem : Nat → UInt8}

/-- Pieces that are all longer give more. -/
theorem length_flatMap_lt {α β : Type*} {l : List α} {f g : α → List β} (hl : l ≠ [])
    (h : ∀ x ∈ l, (f x).length < (g x).length) :
    (l.flatMap f).length < (l.flatMap g).length := by
  induction l with
  | nil => exact absurd rfl hl
  | cons x l ih =>
    rw [List.flatMap_cons, List.flatMap_cons, List.length_append, List.length_append]
    have hx := h x List.mem_cons_self
    rcases eq_or_ne l [] with rfl | hne
    · exact Nat.add_lt_add_right hx 0
    · exact Nat.add_lt_add hx (ih hne fun y hy => h y (List.mem_cons_of_mem x hy))

/-- A block is not larger than all of them. -/
theorem length_data_le {b : DataBlock} {blocks : List DataBlock} (h : b ∈ blocks) :
    b.data.length ≤ (blocks.map fun b => 2 + b.data.length).sum := by
  have hsub : b.bytes.Sublist (blocks.flatMap DataBlock.bytes) :=
    List.sublist_flatten_of_mem (List.mem_map_of_mem h)
  rw [← length_blocks]
  refine Nat.le_trans ?_ hsub.length_le
  rw [DataBlock.bytes, List.length_append]
  exact Nat.le_add_left _ _

/-- The bytes of the blocks with whole parameters. -/
theorem speechBlocks_bytes : (speechBlocks p appOps arg).flatMap DataBlock.bytes =
    speechBytes p appOps arg wholeSize (speechNetworks appOps) (selectedBands appOps arg) := by
  rw [speechBlocks, speechBytes, List.flatMap_assoc]
  congr 1
  funext network
  rw [List.flatMap_map]

/-- Blocks that fit are written as they are. -/
theorem speechBytes_whole (hfits : SpeechSizeFits p appOps arg) :
    speechBytes p appOps arg sizeByteParaData (speechNetworks appOps) (selectedBands appOps arg) =
      speechBytes p appOps arg wholeSize (speechNetworks appOps) (selectedBands appOps arg) := by
  refine List.flatMap_congr fun network hnetwork => List.flatMap_congr fun band hband => ?_
  have hmem : speechBlock p appOps arg wholeSize network band ∈ speechBlocks p appOps arg :=
    List.mem_flatMap.mpr ⟨network, hnetwork, List.mem_map_of_mem hband⟩
  have hlength : (speechBlock p appOps arg wholeSize network band).data.length < uint16Size := by
    have hdata := length_data_le hmem
    have hmax := lt_uint16Size
    rw [SpeechSizeFits] at hfits
    omega
  rw [DataBlock.bytes, DataBlock.bytes]
  exact congrArg _ (paramData_eq hlength)

/-- What is written behind the header is read back from a unit that is right. -/
theorem speechUnitOk_iff_written : SpeechUnitOk p appOps arg mem ↔
    SpeechReads appOps arg ∧
      (speechHeader p appOps arg ++ speechWritten p appOps arg).length ≤ ccciMaxPayloadDataByte ∧
      speechWritten p appOps arg = (speechBlocks p appOps arg).flatMap DataBlock.bytes ∧
      (speechBlocks p appOps arg).length = speechBlockCount appOps arg ∧
      Announces (speechHeader p appOps arg) arg.isSingleBandTransfer
        (speechBlockCount appOps arg) := by
  constructor
  · rintro ⟨unit, hunit, header, hlength, hslice, hcount, hannounces⟩
    obtain ⟨hreads, hfilled⟩ := getSpeechParamUnit_some hunit
    rw [hfilled.pos_eq, hfilled.holds.slice_eq] at hslice
    obtain ⟨rfl, hblocks⟩ := List.append_inj hslice hlength.symm
    exact ⟨hreads, hfilled.length_le, hblocks, hcount, hannounces⟩
  · rintro ⟨hreads, hfits, hblocks, hcount, hannounces⟩
    obtain ⟨unit, hunit⟩ := getSpeechParamUnit_exists mem hreads hfits
    obtain ⟨-, hfilled⟩ := getSpeechParamUnit_some hunit
    refine ⟨unit, hunit, speechHeader p appOps arg, rfl, ?_, hcount, hannounces⟩
    rw [hfilled.pos_eq, hfilled.holds.slice_eq, hblocks]

theorem numEachLayer_mod (a b : Nat) : (numEachLayer a b).toNat % 16 = b % 16 := by
  rw [numEachLayer_toNat]
  omega

theorem numEachLayer_div (a b : Nat) : (numEachLayer a b).toNat / 16 = a % 16 := by
  rw [numEachLayer_toNat]
  omega

/-- What the header of a unit with all bands announces. -/
theorem announces_full (hsingle : arg.isSingleBandTransfer = false) :
    Announces (speechHeader p appOps arg) arg.isSingleBandTransfer
        (speechBlockCount appOps arg) ↔
      speechNetworks appOps = [] ∨
        (speechBands appOps = [] ∧ 16 ∣ (speechNetworks appOps).length) ∨
        ((speechBands appOps).length ∈ Set.Icc 1 4 ∧ (speechNetworks appOps).length ≤ 15) := by
  have hcounts := fullCounts_iff (speechBands appOps).length (speechNetworks appOps).length
  rw [List.length_eq_zero_iff, List.length_eq_zero_iff] at hcounts
  have hvoice : (p.speechUnitHdr arg (numOfCategory (speechBands appOps))
      (numOfCategory (speechNetworks appOps))).paramHeader1 =
      voiceBands (numOfCategory (speechBands appOps)) := by
    change (if arg.isSingleBandTransfer then _ else _) = _
    rw [hsingle]
    rfl
  have heach : (p.speechUnitHdr arg (numOfCategory (speechBands appOps))
      (numOfCategory (speechNetworks appOps))).numEachLayer =
      numEachLayer (numOfCategory (speechBands appOps))
        (numOfCategory (speechNetworks appOps)) := rfl
  rw [← hcounts, speechHeader, announces_iff, hvoice, heach, numEachLayer_mod, numEachLayer_div,
    speechBlockCount, hsingle]
  exact and_congr Iff.rfl ⟨fun h => h rfl, fun h _ => h⟩

/-- What the header of a unit with a single band announces. -/
theorem announces_single (hsingle : arg.isSingleBandTransfer = true) :
    Announces (speechHeader p appOps arg) arg.isSingleBandTransfer
        (speechBlockCount appOps arg) ↔ (speechNetworks appOps).length ≤ 15 := by
  have hvoice : bitCount (p.speechUnitHdr arg (numOfCategory (speechBands appOps))
      (numOfCategory (speechNetworks appOps))).paramHeader1.toNat = 1 := by
    change bitCount (if arg.isSingleBandTransfer then singleVoiceBand _ else _).toNat = 1
    rw [hsingle, if_pos rfl]
    rcases arg.idxVoiceBandStart with _ | _ | n
    · decide
    · decide
    · exact (by decide : bitCount (0x1 : UInt16).toNat = 1)
  have heach : (p.speechUnitHdr arg (numOfCategory (speechBands appOps))
      (numOfCategory (speechNetworks appOps))).numEachLayer =
      numEachLayer (numOfCategory (speechBands appOps))
        (numOfCategory (speechNetworks appOps)) := rfl
  rw [speechHeader, announces_iff, hvoice, heach, numEachLayer_mod, speechBlockCount, hsingle,
    numOfCategory, uint16Size]
  constructor
  · rintro ⟨hcount, -⟩
    rw [if_pos rfl] at hcount
    omega
  · intro hle
    refine ⟨?_, by rintro ⟨⟩⟩
    rw [if_pos rfl]
    omega

/-- With all bands, every band has to be read. -/
theorem speechCounts_full (hsingle : arg.isSingleBandTransfer = false) :
    SpeechReads appOps arg ∧ (speechNetworks appOps = [] ∨
        (speechBands appOps = [] ∧ 16 ∣ (speechNetworks appOps).length) ∨
        ((speechBands appOps).length ∈ Set.Icc 1 4 ∧ (speechNetworks appOps).length ≤ 15)) ↔
      SpeechCountsFit appOps arg := by
  rw [SpeechCountsFit, hsingle, if_neg Bool.false_ne_true, SpeechReads, numOfCategory,
    numOfCategory, uint16Size]
  constructor
  · rintro ⟨hreads, hnil | hnone | ⟨⟨h1, h4⟩, hle⟩⟩
    · exact .inl hnil
    · exact .inr (.inl hnone)
    · rcases eq_or_ne (speechNetworks appOps) [] with hnil | hne
      · exact .inl hnil
      · have hpos := List.length_pos_iff.mpr hne
        exact .inr (.inr ⟨by omega, ⟨h1, h4⟩, hle⟩)
  · rintro (hnil | ⟨hnone, hdvd⟩ | ⟨hstart, ⟨h1, h4⟩, hle⟩)
    · rw [hnil]
      exact ⟨.inl rfl, .inl rfl⟩
    · rw [hnone]
      exact ⟨.inr (.inl rfl), .inr (.inl ⟨rfl, hdvd⟩)⟩
    · exact ⟨by omega, .inr (.inr ⟨⟨h1, h4⟩, hle⟩)⟩

/-- With all bands, the blocks that are written are those of the unit. -/
theorem speechWritten_full (hsingle : arg.isSingleBandTransfer = false)
    (hcounts : SpeechCountsFit appOps arg) :
    speechWritten p appOps arg = speechBytes p appOps arg sizeByteParaData (speechNetworks appOps)
      (selectedBands appOps arg) := by
  rw [SpeechCountsFit, hsingle, if_neg Bool.false_ne_true] at hcounts
  rw [speechWritten, selectedBands, hsingle, if_neg Bool.false_ne_true]
  rcases hcounts with hnil | ⟨hnone, -⟩ | ⟨hstart, ⟨h1, h4⟩, hle⟩
  · rw [hnil, List.take_nil]
    rfl
  · rw [hnone, List.drop_nil, List.take_nil]
    have hempty : ∀ networks : List String,
        speechBytes p appOps arg sizeByteParaData networks [] = [] := fun networks =>
      List.flatMap_eq_nil_iff.mpr fun _ _ => rfl
    rw [hempty, hempty]
  · have hn : numOfCategory (speechNetworks appOps) = (speechNetworks appOps).length := by
      rw [numOfCategory, uint16Size]
      omega
    have hk : numOfCategory (speechBands appOps) = (speechBands appOps).length := by
      rw [numOfCategory, uint16Size]
      omega
    rw [hn, hk, hstart, List.drop_zero, List.take_length, List.take_length]

/-- More bands give more bytes. -/
theorem length_speechBytes_lt {networks : List String} (hne : networks ≠ [])
    (bands : List String) (band : String) (rest : List String) :
    (speechBytes p appOps arg sizeByteParaData networks bands).length <
      (speechBytes p appOps arg sizeByteParaData networks (bands ++ band :: rest)).length := by
  refine length_flatMap_lt hne fun network _ => ?_
  have hblock : 0 < (speechBlock p appOps arg sizeByteParaData network band).bytes.length := by
    rw [DataBlock.bytes, List.length_append]
    exact Nat.add_pos_left (by exact Nat.succ_pos 1) _
  rw [List.flatMap_append, List.flatMap_cons, List.length_append, List.length_append]
  omega

/-- With a single band, the block that is written is that of the unit. -/
theorem speechWritten_single (hsingle : arg.isSingleBandTransfer = true)
    (hcounts : SpeechCountsFit appOps arg) :
    SpeechReads appOps arg ∧ speechWritten p appOps arg =
      speechBytes p appOps arg sizeByteParaData (speechNetworks appOps)
        (selectedBands appOps arg) := by
  rw [SpeechCountsFit, hsingle, if_pos rfl] at hcounts
  rw [SpeechReads, speechWritten, selectedBands, hsingle, if_pos rfl]
  rcases hcounts with hnil | ⟨hle, hone, hstart⟩
  · rw [hnil, List.take_nil]
    exact ⟨.inl rfl, rfl⟩
  · have hn : numOfCategory (speechNetworks appOps) = (speechNetworks appOps).length := by
      rw [numOfCategory, uint16Size]
      omega
    rw [hn, hone, List.take_length, List.drop_eq_getElem_cons hstart,
      List.getElem?_eq_getElem hstart]
    exact ⟨.inr (.inr hstart), rfl⟩

/-- With a single band, a unit that is right has exactly one. -/
theorem single_of_written (hsingle : arg.isSingleBandTransfer = true)
    (hreads : SpeechReads appOps arg) (hfits : SpeechSizeFits p appOps arg)
    (hblocks : speechWritten p appOps arg = (speechBlocks p appOps arg).flatMap DataBlock.bytes)
    (hcount : (speechBlocks p appOps arg).length = speechBlockCount appOps arg)
    (hle : (speechNetworks appOps).length ≤ 15) : SpeechCountsFit appOps arg := by
  rw [SpeechCountsFit, hsingle, if_pos rfl]
  rcases eq_or_ne (speechNetworks appOps) [] with hnil | hne
  · exact .inl hnil
  have hpos := List.length_pos_iff.mpr hne
  have hn : numOfCategory (speechNetworks appOps) = (speechNetworks appOps).length := by
    rw [numOfCategory, uint16Size]
    omega
  rw [speechBlockCount, hsingle, if_pos rfl, Nat.mul_one] at hcount
  have hstart : arg.idxVoiceBandStart < (speechBands appOps).length := by
    by_contra hover
    have hnone : selectedBands appOps arg = [] := by
      rw [selectedBands, hsingle, if_pos rfl, List.getElem?_eq_none (Nat.le_of_not_lt hover)]
      rfl
    have hempty : speechBlocks p appOps arg = [] := by
      rw [speechBlocks, hnone]
      exact List.flatMap_eq_nil_iff.mpr fun _ _ => rfl
    rw [hempty, List.length_nil] at hcount
    omega
  refine .inr ⟨hle, ?_, hstart⟩
  -- the bytes that are written are those of the one band
  have hselected : selectedBands appOps arg = [(speechBands appOps)[arg.idxVoiceBandStart]] := by
    rw [selectedBands, hsingle, if_pos rfl, List.getElem?_eq_getElem hstart]
    rfl
  rw [speechBlocks_bytes, ← speechBytes_whole hfits, hselected, speechWritten, hn,
    List.take_length, List.drop_eq_getElem_cons hstart] at hblocks
  have hlength := congrArg List.length hblocks
  rcases hk : numOfCategory (speechBands appOps) with _ | _ | k
  · rw [hk, List.take_zero] at hlength
    exact absurd hlength (Nat.ne_of_lt (length_speechBytes_lt hne [] _ []))
  · rfl
  · rcases hrest : (speechBands appOps).drop (arg.idxVoiceBandStart + 1) with _ | ⟨band, rest⟩
    · have hend := congrArg List.length hrest
      rw [List.length_drop, List.length_nil] at hend
      rw [SpeechReads, hn, hk] at hreads
      omega
    · rw [hk, hrest, List.take_succ_cons, List.take_succ_cons] at hlength
      exact absurd hlength.symm (Nat.ne_of_lt (length_speechBytes_lt hne [_] band _))

/-- A unit of `AUDIO_TYPE_SPEECH` is right exactly if it fits, and its counts are right. -/
theorem speechUnitOk_iff : SpeechUnitOk p appOps arg mem ↔
    SpeechSizeFits p appOps arg ∧ SpeechCountsFit appOps arg := by
  have hsize : ∀ blocks : Bytes, blocks = (speechBlocks p appOps arg).flatMap DataBlock.bytes →
      ((speechHeader p appOps arg ++ blocks).length ≤ ccciMaxPayloadDataByte ↔
        SpeechSizeFits p appOps arg) := by
    rintro _ rfl
    rw [List.length_append, length_blocks]
    exact Iff.rfl
  rw [speechUnitOk_iff_written]
  cases hsingle : arg.isSingleBandTransfer with
  | false =>
    rw [← hsingle, announces_full hsingle]
    constructor
    · rintro ⟨hreads, hfits, hblocks, -, hannounces⟩
      exact ⟨(hsize _ hblocks).mp hfits, (speechCounts_full hsingle).mp ⟨hreads, hannounces⟩⟩
    · rintro ⟨hfits, hcounts⟩
      obtain ⟨hreads, hannounces⟩ := (speechCounts_full hsingle).mpr hcounts
      have hblocks : speechWritten p appOps arg =
          (speechBlocks p appOps arg).flatMap DataBlock.bytes := by
        rw [speechWritten_full hsingle hcounts, speechBytes_whole hfits, speechBlocks_bytes]
      refine ⟨hreads, (hsize _ hblocks).mpr hfits, hblocks, ?_, hannounces⟩
      rw [speechBlocks, speechBlockCount, List.length_flatMap, selectedBands, hsingle,
        if_neg Bool.false_ne_true, if_neg Bool.false_ne_true]
      simp only [List.length_map, List.map_const', List.sum_replicate_nat]
  | true =>
    rw [← hsingle, announces_single hsingle]
    constructor
    · rintro ⟨hreads, hfits, hblocks, hcount, hle⟩
      have hfits' := (hsize _ hblocks).mp hfits
      exact ⟨hfits', single_of_written hsingle hreads hfits' hblocks hcount hle⟩
    · rintro ⟨hfits, hcounts⟩
      obtain ⟨hreads, hwritten⟩ := speechWritten_single hsingle hcounts
      have hblocks : speechWritten p appOps arg =
          (speechBlocks p appOps arg).flatMap DataBlock.bytes := by
        rw [hwritten, speechBytes_whole hfits, speechBlocks_bytes]
      rw [SpeechCountsFit, hsingle, if_pos rfl] at hcounts
      refine ⟨hreads, (hsize _ hblocks).mpr hfits, hblocks, ?_, ?_⟩
      · rw [speechBlocks, speechBlockCount, selectedBands, hsingle, if_pos rfl, if_pos rfl]
        rcases hcounts with hnil | ⟨-, -, hstart⟩
        · rw [hnil]
          rfl
        · rw [List.getElem?_eq_getElem hstart, List.length_flatMap]
          simp only [Option.toList_some, List.length_map, List.length_singleton, List.map_const',
            List.sum_replicate_nat]
      · rcases hcounts with hnil | ⟨hle, -, -⟩
        · rw [hnil]
          exact Nat.zero_le 15
        · exact hle

/-! ## Units for dual microphones -/

/-- The bytes of the blocks with whole parameters. -/
theorem dmnrBlocks_bytes : (dmnrBlocks appOps).flatMap DataBlock.bytes =
    dmnrBytes appOps wholeSize (dmnrBands appOps)
      (audioTypeSpeechDmnrCategoryName2.take (dmnrProfiles appOps).length) := by
  rw [dmnrBlocks, dmnrBytes, List.flatMap_assoc]
  congr 1
  funext band
  rw [List.flatMap_map]

theorem length_dmnrBlocks : (dmnrBlocks appOps).length =
    (dmnrBands appOps).length * min (dmnrProfiles appOps).length 2 := by
  have hnames : audioTypeSpeechDmnrCategoryName2.length = 2 := rfl
  rw [dmnrBlocks, List.length_flatMap]
  simp only [List.length_map, List.length_zipIdx, List.map_const', List.sum_replicate_nat,
    List.length_take, hnames]

/-- Blocks that fit are written as they are. -/
theorem dmnrBytes_whole (hfits : DmnrSizeFits appOps) :
    dmnrBytes appOps sizeByteParaData (dmnrBands appOps)
        (audioTypeSpeechDmnrCategoryName2.take (dmnrProfiles appOps).length) =
      (dmnrBlocks appOps).flatMap DataBlock.bytes := by
  rw [dmnrBlocks_bytes]
  refine List.flatMap_congr fun band hband => List.flatMap_congr fun profile hprofile => ?_
  have hmem : dmnrBlock appOps wholeSize band.2 profile.2 band.1 profile.1 ∈ dmnrBlocks appOps :=
    List.mem_flatMap.mpr ⟨band, hband, List.mem_map_of_mem hprofile⟩
  have hlength : (dmnrBlock appOps wholeSize band.2 profile.2 band.1 profile.1).data.length <
      uint16Size := by
    have hdata := length_data_le hmem
    have hmax := lt_uint16Size
    rw [DmnrSizeFits] at hfits
    omega
  rw [DataBlock.bytes, DataBlock.bytes]
  exact congrArg _ (paramData_eq hlength)

/-- What the header of a unit for dual microphones announces. -/
theorem announces_dmnr : Announces (dmnrHeader p appOps) false (dmnrBlockCount appOps) ↔
    dmnrProfiles appOps = [] ∨ (dmnrBands appOps = [] ∧ 16 ∣ (dmnrProfiles appOps).length) ∨
      ((dmnrBands appOps).length ∈ Set.Icc 1 4 ∧ (dmnrProfiles appOps).length ≤ 15) := by
  have hcounts := fullCounts_iff (dmnrBands appOps).length (dmnrProfiles appOps).length
  rw [List.length_eq_zero_iff, List.length_eq_zero_iff] at hcounts
  have heach : (p.dmnrUnitHdr (numOfCategory (dmnrBands appOps))
      (numOfCategory (dmnrProfiles appOps))).numEachLayer =
      numEachLayer (numOfCategory (dmnrBands appOps)) (numOfCategory (dmnrProfiles appOps)) := rfl
  rw [← hcounts, dmnrHeader, ← List.append_nil (ParamUnitHdr.bytes _), announces_iff, heach,
    numEachLayer_mod, numEachLayer_div, dmnrBlockCount, Nat.mul_comm (dmnrBands appOps).length]
  exact and_congr Iff.rfl ⟨fun h => h rfl, fun h _ => h⟩

/-- With counts that are right, every profile has a name, and the blocks that are written are those
of the unit. -/
theorem dmnrWritten_eq (hcounts : DmnrCountsFit appOps) :
    DmnrReads appOps ∧ dmnrWritten appOps = dmnrBytes appOps sizeByteParaData (dmnrBands appOps)
      (audioTypeSpeechDmnrCategoryName2.take (dmnrProfiles appOps).length) := by
  have hempty : ∀ bands : List String, dmnrBytes appOps sizeByteParaData bands [] = [] :=
    fun bands => List.flatMap_eq_nil_iff.mpr fun _ _ => rfl
  rw [DmnrReads, dmnrWritten]
  rcases hcounts with hnil | ⟨hnone, -⟩ | ⟨⟨h1, h4⟩, hle⟩
  · rw [hnil]
    exact ⟨.inr (Nat.zero_le 2), (hempty _).trans (hempty _).symm⟩
  · rw [hnone, List.take_nil]
    exact ⟨.inl rfl, rfl⟩
  · have hn : numOfCategory (dmnrBands appOps) = (dmnrBands appOps).length := by
      rw [numOfCategory, uint16Size]
      omega
    have hk : numOfCategory (dmnrProfiles appOps) = (dmnrProfiles appOps).length := by
      rw [numOfCategory, uint16Size]
      omega
    rw [hn, hk, List.take_length]
    exact ⟨.inr hle, rfl⟩

/-- A unit for dual microphones is right exactly if it fits, and its counts are right. -/
theorem dmnrUnitOk_iff : DmnrUnitOk p appOps mem ↔ DmnrSizeFits appOps ∧ DmnrCountsFit appOps := by
  have hsize : ∀ blocks : Bytes, blocks = (dmnrBlocks appOps).flatMap DataBlock.bytes →
      ((dmnrHeader p appOps ++ blocks).length ≤ ccciMaxPayloadDataByte ↔ DmnrSizeFits appOps) := by
    rintro _ rfl
    rw [List.length_append, length_blocks]
    exact Iff.rfl
  constructor
  · rintro ⟨unit, hunit, header, hlength, hslice, hcount, hannounces⟩
    obtain ⟨-, hfilled⟩ := getDmnrParamUnit_some hunit
    rw [hfilled.pos_eq, hfilled.holds.slice_eq] at hslice
    obtain ⟨rfl, hblocks⟩ := List.append_inj hslice hlength.symm
    refine ⟨(hsize _ hblocks).mp hfilled.length_le, ?_⟩
    rw [length_dmnrBlocks, dmnrBlockCount] at hcount
    rcases announces_dmnr.mp hannounces with hnil | hnone | ⟨⟨h1, h4⟩, -⟩
    · exact .inl hnil
    · exact .inr (.inl hnone)
    · have hmin := Nat.eq_of_mul_eq_mul_left h1 hcount
      exact .inr (.inr ⟨⟨h1, h4⟩, by omega⟩)
  · rintro ⟨hfits, hcounts⟩
    obtain ⟨hreads, hwritten⟩ := dmnrWritten_eq hcounts
    rw [dmnrBytes_whole hfits] at hwritten
    obtain ⟨unit, hunit⟩ := getDmnrParamUnit_exists mem hreads ((hsize _ hwritten).mpr hfits)
    obtain ⟨-, hfilled⟩ := getDmnrParamUnit_some hunit
    refine ⟨unit, hunit, dmnrHeader p appOps, rfl, ?_, ?_, announces_dmnr.mpr ?_⟩
    · rw [hfilled.pos_eq, hfilled.holds.slice_eq, hwritten]
    · rw [length_dmnrBlocks, dmnrBlockCount]
      rcases hcounts with hnil | ⟨hnone, -⟩ | ⟨-, hle⟩
      · rw [hnil]
        rfl
      · rw [hnone, List.length_nil, Nat.zero_mul, Nat.zero_mul]
      · rw [Nat.min_eq_left hle]
    · rcases hcounts with hnil | hnone | ⟨hbands, hle⟩
      · exact .inl hnil
      · exact .inr (.inl hnone)
      · exact .inr (.inr ⟨hbands, Nat.le_trans hle (by decide)⟩)

/-! ## Both kinds of units -/

/-- Units are right exactly if they fit in the buffer and their counts are right. -/
theorem paramUnitsOk_iff (p : SpeechParamParser) (appOps : AppOps) :
    (∀ arg mem, SpeechUnitOk p appOps arg mem ↔
      SpeechSizeFits p appOps arg ∧ SpeechCountsFit appOps arg) ∧
    ∀ mem, DmnrUnitOk p appOps mem ↔ DmnrSizeFits appOps ∧ DmnrCountsFit appOps :=
  ⟨fun _ _ => speechUnitOk_iff, fun _ => dmnrUnitOk_iff⟩

/-- With two bands, the unit for the second one reads a third. -/
theorem paramUnits_not_ok : ¬ ∀ (p : SpeechParamParser) (appOps : AppOps) (arg : ParamArg)
    (mem : Nat → UInt8), SpeechUnitOk p appOps arg mem ∧ DmnrUnitOk p appOps mem := by
  intro h
  have hok := (h ⟨false, 4, false, 0, 1, 0, []⟩
    (fun _ => ⟨fun name => if name = "Band" then ["NB", "WB"] else ["GSM"], fun _ => none⟩)
    ⟨0, 3, 0, 0x12⟩ fun _ => 0).1
  obtain ⟨unit, hunit, -⟩ := hok
  rcases (getSpeechParamUnit_some hunit).1 with hn | hk | hread
  · exact absurd hn (by decide)
  · exact absurd hk (by decide)
  · exact absurd hread (by decide)

end Units

end MtkHw.Speech.ParamParser
