import MtkHw.Speech.ParamParser
import Mathlib.Data.List.Basic
import Mathlib.Order.Interval.Set.Defs
import Mathlib.Algebra.GroupWithZero.Nat

/-!
# Units of speech parameters describe themselves

The modem reads from the header of a unit how many blocks follow it: `numEachLayer` has the number
of bands and that of networks or profiles, `paramHeader[1]` a bit for each band.  What the parser
writes is put together here, as a list of bytes, and compared with what the header says.
-/

namespace MtkHw.Speech.ParamParser

open Lib Lib.Packer

/-! ## What the modem reads -/

/-- A half-word of a unit. -/
def readHalfWord (unit : Bytes) (offset : Nat) : Nat :=
  (unit.getD offset 0).toNat + 256 * (unit.getD (offset + 1) 0).toNat

/-- The number of bands in `numEachLayer`. -/
def announcedBands (unit : Bytes) : Nat := readHalfWord unit 4 / 16

/-- The number of networks or profiles in `numEachLayer`. -/
def announcedOthers (unit : Bytes) : Nat := readHalfWord unit 4 % 16

/-- The number of bits of a half-word. -/
def bitCount (n : Nat) : Nat := ((List.range 16).filter n.testBit).length

/-- The number of bands in `paramHeader[1]`. -/
def announcedVoiceBands (unit : Bytes) : Nat := bitCount (readHalfWord unit 8)

/-- The header announces a number of blocks.  With a single band, `paramHeader[1]` says so. -/
structure Announces (unit : Bytes) (single : Bool) (count : Nat) : Prop where
  voiceBands : announcedVoiceBands unit * announcedOthers unit = count
  eachLayer : single = false → announcedBands unit * announcedOthers unit = count

/-! ## Blocks -/

/-- A block: its half-word and the parameters. -/
structure DataBlock where
  dataHeader : UInt16
  data : Bytes

def DataBlock.bytes (b : DataBlock) : Bytes := halfWord b.dataHeader ++ b.data

/-- The size of a parameter. -/
def wholeSize : DataType → Nat → Nat
  | .int, _ | .uint, _ | .float, _ | .other, _ => 4
  | .byteArray, arraySize | .ubyteArray, arraySize => arraySize
  | .shortArray, arraySize | .ushortArray, arraySize => arraySize * 2
  | .intArray, arraySize | .uintArray, arraySize => arraySize * 4

/-- A parameter of a given size; nothing, where it is missing. -/
def paramBytes (sizeOf : DataType → Nat → Nat) : Option Param → Bytes
  | none => []
  | some param => (List.range (sizeOf param.dataType param.arraySize)).map param.data

/-- The parameters of a path, one behind the other. -/
def paramData (sizeOf : DataType → Nat → Nat) (audioType : AudioType) (paramName : List String)
    (path : String) : Bytes :=
  match audioType.paramUnit path with
  | none => []
  | some paramUnit => paramName.flatMap fun name => paramBytes sizeOf (paramUnit name)

section Speech

variable (p : SpeechParamParser) (appOps : AppOps) (arg : ParamArg)

def speechBands : List String := (appOps audioTypeSpeech).categoryType "Band"
def speechNetworks : List String := (appOps audioTypeSpeech).categoryType "Network"

/-- The block for a band and a network. -/
def speechBlock (sizeOf : DataType → Nat → Nat) (network band : String) : DataBlock where
  dataHeader := p.setMDParamDataHdr band network
  data := paramData sizeOf (appOps audioTypeSpeech) p.speechParamName
    (p.speechPath arg band network)

/-- The bands of the unit: all of them, or the one that is asked for. -/
def selectedBands : List String :=
  if arg.isSingleBandTransfer then (speechBands appOps)[arg.idxVoiceBandStart]?.toList
  else speechBands appOps

/-- The blocks of the unit, with whole parameters. -/
def speechBlocks : List DataBlock :=
  (speechNetworks appOps).flatMap fun network =>
    (selectedBands appOps arg).map (speechBlock p appOps arg wholeSize network)

/-- The number of blocks: one for each network and band, or for each network. -/
def speechBlockCount : Nat :=
  (speechNetworks appOps).length *
    if arg.isSingleBandTransfer then 1 else (speechBands appOps).length

/-- A unit is written: behind a header of 18 bytes it has the blocks that the header announces, in
order and whole, and its size is returned. -/
def SpeechUnitOk (mem : Nat → UInt8) : Prop :=
  ∃ unit, p.getSpeechParamUnit appOps ⟨mem, ccciMaxPayloadDataByte⟩ arg = some unit ∧
    ∃ header : Bytes, header.length = 18 ∧
      Ring.slice unit.block.mem 0 unit.pos =
        header ++ (speechBlocks p appOps arg).flatMap DataBlock.bytes ∧
      (speechBlocks p appOps arg).length = speechBlockCount appOps arg ∧
      Announces header arg.isSingleBandTransfer (speechBlockCount appOps arg)

/-- The counts that a unit is right for. -/
def SpeechCountsFit : Prop :=
  speechNetworks appOps = [] ∨
    if arg.isSingleBandTransfer then
      (speechNetworks appOps).length ≤ 15 ∧ numOfCategory (speechBands appOps) = 1 ∧
        arg.idxVoiceBandStart < (speechBands appOps).length
    else
      (speechBands appOps = [] ∧ 16 ∣ (speechNetworks appOps).length) ∨
        (arg.idxVoiceBandStart = 0 ∧ (speechBands appOps).length ∈ Set.Icc 1 4 ∧
          (speechNetworks appOps).length ≤ 15)

/-- The blocks fit behind the header. -/
def SpeechSizeFits : Prop :=
  18 + ((speechBlocks p appOps arg).map fun b => 2 + b.data.length).sum ≤ ccciMaxPayloadDataByte

end Speech

section Dmnr

variable (p : SpeechParamParser) (appOps : AppOps)

def dmnrBands : List String := (appOps audioTypeSpeechDmnr).categoryType "Band"
def dmnrProfiles : List String := (appOps audioTypeSpeechDmnr).categoryType "Profile"

/-- The block for a band and a profile. -/
def dmnrBlock (sizeOf : DataType → Nat → Nat) (idxBand idxProfile : Nat) (band profile : String) :
    DataBlock where
  dataHeader := dmnrDataHdr idxBand idxProfile
  data := paramData sizeOf (appOps audioTypeSpeechDmnr) audioTypeSpeechDmnrParamName
    (categoryPath audioTypeSpeechDmnrCategoryType [band, profile])

/-- The blocks of the unit, with whole parameters; there are names for two profiles. -/
def dmnrBlocks : List DataBlock :=
  (dmnrBands appOps).zipIdx.flatMap fun band =>
    (audioTypeSpeechDmnrCategoryName2.take (dmnrProfiles appOps).length).zipIdx.map fun profile =>
      dmnrBlock appOps wholeSize band.2 profile.2 band.1 profile.1

def dmnrBlockCount : Nat := (dmnrBands appOps).length * (dmnrProfiles appOps).length

/-- A unit for dual microphones is written. -/
def DmnrUnitOk (mem : Nat → UInt8) : Prop :=
  ∃ unit, p.getDmnrParamUnit appOps ⟨mem, ccciMaxPayloadDataByte⟩ = some unit ∧
    ∃ header : Bytes, header.length = 16 ∧
      Ring.slice unit.block.mem 0 unit.pos =
        header ++ (dmnrBlocks appOps).flatMap DataBlock.bytes ∧
      (dmnrBlocks appOps).length = dmnrBlockCount appOps ∧
      Announces header false (dmnrBlockCount appOps)

def DmnrCountsFit : Prop :=
  dmnrProfiles appOps = [] ∨ (dmnrBands appOps = [] ∧ 16 ∣ (dmnrProfiles appOps).length) ∨
    ((dmnrBands appOps).length ∈ Set.Icc 1 4 ∧ (dmnrProfiles appOps).length ≤ 2)

def DmnrSizeFits : Prop :=
  16 + ((dmnrBlocks appOps).map fun b => 2 + b.data.length).sum ≤ ccciMaxPayloadDataByte

end Dmnr

/-! ## What is written -/

theorem lt_uint16Size : ccciMaxPayloadDataByte < uint16Size := by decide

theorem mapM_some {α β : Type*} (f : α → β) (l : List α) :
    l.mapM (fun x => some (f x)) = some (l.map f) := by
  induction l with
  | nil => rfl
  | cons x l ih =>
    rw [List.mapM_cons, ih]
    rfl

/-- The parameters of a path are put behind each other, as far as their sizes are known. -/
theorem getSpeechParamFromAppParser_appends (audioType : AudioType) (paramName : List String)
    (path : String) :
    Appends (fun p : Packer UInt8 => p) (fun _ => True) maxByteParamSpeech
      (getSpeechParamFromAppParser audioType paramName path)
      (some (paramData sizeByteParaData audioType paramName path)) := by
  rw [paramData]
  unfold getSpeechParamFromAppParser
  cases audioType.paramUnit path with
  | none => exact appends_pure
  | some paramUnit =>
    have hround : ∀ name ∈ paramName, Appends (fun p : Packer UInt8 => p) (fun _ => True)
        maxByteParamSpeech (fun bufParamUnit =>
          match paramUnit name with
          | none => some bufParamUnit
          | some param => bufParamUnit.put uint16Size
              ((List.range (sizeByteParaData param.dataType param.arraySize)).map param.data))
        (some (paramBytes sizeByteParaData (paramUnit name))) := by
      intro name _
      cases paramUnit name with
      | none => exact appends_pure
      | some param => exact appends_put (by decide) _
    have hloop := Appends.foldlM paramName hround
    rw [mapM_some] at hloop
    exact hloop

/-- The array for the parameters of a block has its size. -/
def HasRoom (b : Buffers) : Prop := b.packedParamUnitFromApp.size = maxByteParamSpeech

/-- A block is put behind the others. -/
theorem putBlock_appends (audioType : AudioType) (paramName : List String) (dataHeader : UInt16)
    (path : String) :
    Appends Buffers.unit HasRoom ccciMaxPayloadDataByte
      (putBlock audioType paramName dataHeader path)
      (some (halfWord dataHeader ++ paramData sizeByteParaData audioType paramName path)) := by
  have happ := getSpeechParamFromAppParser_appends audioType paramName path
  constructor
  · intro b b' xs hroom hfilled hput
    obtain ⟨unit, hhdr, hpack⟩ := Option.bind_eq_some_iff.mp hput
    obtain ⟨packed, hpacked, hcopy⟩ := Option.bind_eq_some_iff.mp hpack
    obtain ⟨_, ⟨⟩, -, hpfilled⟩ := happ.of_some trivial (filled_nil hroom) hpacked
    obtain ⟨data, hdata, hend⟩ := Option.bind_eq_some_iff.mp hcopy
    obtain ⟨unit', hunit, hb'⟩ := Option.bind_eq_some_iff.mp hend
    obtain rfl := Option.some.inj (hpfilled.copyOut.symm.trans hdata)
    obtain rfl := Option.some.inj hb'
    refine ⟨_, rfl, hpfilled.holds.size_eq, ?_⟩
    rw [← List.append_assoc]
    exact (hfilled.of_put lt_uint16Size hhdr).of_put lt_uint16Size hunit
  · rintro b xs _ hroom hfilled ⟨⟩ hfits
    rw [List.length_append, ← Nat.add_assoc] at hfits
    obtain ⟨unit, hhdr, hfilled'⟩ := hfilled.put lt_uint16Size (halfWord dataHeader)
      (Nat.le_of_add_right_le hfits)
    have hdata : (paramData sizeByteParaData audioType paramName path).length ≤
        maxByteParamSpeech := Nat.le_trans (Nat.le_add_left _ _) hfits
    obtain ⟨packed, hpacked⟩ := (happ.from_nil trivial (filled_nil hroom)).2.mpr ⟨_, rfl, hdata⟩
    obtain ⟨_, ⟨⟩, -, hpfilled⟩ := happ.of_some trivial (filled_nil hroom) hpacked
    obtain ⟨unit', hunit, -⟩ := hfilled'.put lt_uint16Size
      (paramData sizeByteParaData audioType paramName path) (by rwa [List.length_append])
    refine ⟨⟨unit', packed.block⟩, ?_⟩
    change ((b.unit.put uint16Size (halfWord dataHeader)).bind _) = _
    rw [hhdr, Option.bind_some]
    change ((getSpeechParamFromAppParser audioType paramName path
      ⟨b.packedParamUnitFromApp, 0⟩).bind _) = _
    rw [hpacked, Option.bind_some]
    change ((packed.block.copyOut 0 packed.pos).bind _) = _
    rw [hpfilled.copyOut, Option.bind_some]
    change ((unit.put uint16Size _).bind _) = _
    rw [List.nil_append, hunit]
    rfl

/-! ## Loops over categories -/

section Loops

variable {α β : Type*}

/-- A loop that reads a table from an index on reads the entries there, if they exist. -/
theorem mapM_range'_getElem? (l : List β) (f : Nat → β → Bytes) (s k : Nat) :
    (List.range' s k).mapM (fun j => l[j]?.map (f j)) =
      if k = 0 ∨ s + k ≤ l.length then
        some ((((l.drop s).take k).zipIdx s).map fun x => f x.2 x.1)
      else none := by
  induction k generalizing s with
  | zero => rw [if_pos (.inl rfl), List.take_zero]; rfl
  | succ k ih =>
    rw [List.range'_succ, List.mapM_cons, ih]
    by_cases hs : s < l.length
    · rw [List.getElem?_eq_getElem hs, List.drop_eq_getElem_cons hs, List.take_succ_cons,
        List.zipIdx_cons]
      by_cases hk : s + (k + 1) ≤ l.length
      · rw [if_pos (.inr (by omega)), if_pos (.inr hk)]
        rfl
      · rw [if_neg (by omega), if_neg (by omega)]
        rfl
    · have hnone : ¬ (k + 1 = 0 ∨ s + (k + 1) ≤ l.length) := by omega
      rw [List.getElem?_eq_none (Nat.le_of_not_lt hs), if_neg hnone]
      rfl

theorem mapM_congr {γ : Type*} {f g : α → Option γ} {l : List α} (h : ∀ x ∈ l, f x = g x) :
    l.mapM f = l.mapM g := by
  induction l with
  | nil => rfl
  | cons x l ih =>
    rw [List.mapM_cons, List.mapM_cons, h x List.mem_cons_self,
      ih fun y hy => h y (List.mem_cons_of_mem x hy)]

/-- The pieces of two loops, one inside of the other, over the categories of two types. -/
theorem nested_pieces {as : List α} {bs : List β} {n start k : Nat} (hn : n ≤ as.length)
    (block : Nat → Nat → α → β → Bytes) :
    ((List.range n).mapM fun i =>
      ((List.range' start k).mapM fun j =>
        as[i]?.bind fun a => bs[j]?.bind fun b => some (block i j a b)).map List.flatten).map
          List.flatten =
      if n = 0 ∨ k = 0 ∨ start + k ≤ bs.length then
        some ((as.take n).zipIdx.flatMap fun a =>
          (((bs.drop start).take k).zipIdx start).flatMap fun b => block a.2 b.2 a.1 b.1)
      else none := by
  -- a round of the outer loop reads the table of the inner one
  have hround : ∀ i (hi : i < as.length), ((List.range' start k).mapM fun j =>
      as[i]?.bind fun a => bs[j]?.bind fun b => some (block i j a b)) =
      if k = 0 ∨ start + k ≤ bs.length then
        some ((((bs.drop start).take k).zipIdx start).map fun b => block i b.2 as[i] b.1)
      else none := by
    intro i hi
    rw [← mapM_range'_getElem? bs (fun j b => block i j as[i] b) start k]
    refine mapM_congr fun j _ => ?_
    rw [List.getElem?_eq_getElem hi]
    cases bs[j]? <;> rfl
  by_cases hinner : k = 0 ∨ start + k ≤ bs.length
  · have hread := mapM_range'_getElem? as (fun i a =>
      (((bs.drop start).take k).zipIdx start).flatMap fun b => block i b.2 a b.1) 0 n
    rw [← List.range_eq_range', if_pos (.inr (by rwa [Nat.zero_add])), List.drop_zero] at hread
    rw [if_pos (.inr hinner), mapM_congr fun i hi => ?_, hread]
    · rfl
    · have hlt : i < as.length := Nat.lt_of_lt_of_le (List.mem_range.mp hi) hn
      rw [hround i hlt, if_pos hinner, List.getElem?_eq_getElem hlt]
      rfl
  · cases n with
    | zero =>
      rw [if_pos (.inl rfl)]
      rfl
    | succ n =>
      have hlt : 0 < as.length := Nat.lt_of_lt_of_le (Nat.succ_pos n) hn
      rw [if_neg (by omega), List.range_succ_eq_map, List.mapM_cons, hround 0 hlt, if_neg hinner]
      rfl

end Loops

theorem flatMap_zipIdx {α β : Type*} (l : List α) (s : Nat) (f : α → List β) :
    (l.zipIdx s).flatMap (fun x => f x.1) = l.flatMap f := by
  calc (l.zipIdx s).flatMap (fun x => f x.1) = ((l.zipIdx s).map Prod.fst).flatMap f := by
        rw [List.flatMap_map]
    _ = l.flatMap f := by rw [List.zipIdx_map_fst]

section Writes

variable {p : SpeechParamParser} {appOps : AppOps} {arg : ParamArg} {mem : Nat → UInt8}

/-- The blocks that are written for some networks and bands. -/
def speechBytes (p : SpeechParamParser) (appOps : AppOps) (arg : ParamArg)
    (sizeOf : DataType → Nat → Nat) (networks bands : List String) : Bytes :=
  networks.flatMap fun network => bands.flatMap fun band =>
    (speechBlock p appOps arg sizeOf network band).bytes

/-- A round of the two loops puts the block of its network and band. -/
theorem speechRound_appends (p : SpeechParamParser) (appOps : AppOps) (arg : ParamArg) (i j : Nat) :
    Appends Buffers.unit HasRoom ccciMaxPayloadDataByte
      (fun b => p.speechRound appOps arg i b j)
      ((speechNetworks appOps)[i]?.bind fun network => (speechBands appOps)[j]?.bind fun band =>
        some (speechBlock p appOps arg sizeByteParaData network band).bytes) :=
  Appends.lookup fun network _ => Appends.lookup fun band _ =>
    putBlock_appends (appOps audioTypeSpeech) p.speechParamName (p.setMDParamDataHdr band network)
      (p.speechPath arg band network)

/-- The two loops over the networks and bands. -/
theorem speechLoops_append (p : SpeechParamParser) (appOps : AppOps) (arg : ParamArg)
    {n k : Nat} (hn : n ≤ (speechNetworks appOps).length) :
    Appends Buffers.unit HasRoom ccciMaxPayloadDataByte
      (fun b => (List.range n).foldlM (fun b idxNetwork =>
        (List.range' arg.idxVoiceBandStart k).foldlM (p.speechRound appOps arg idxNetwork) b) b)
      (if n = 0 ∨ k = 0 ∨ arg.idxVoiceBandStart + k ≤ (speechBands appOps).length then
        some (speechBytes p appOps arg sizeByteParaData ((speechNetworks appOps).take n)
          (((speechBands appOps).drop arg.idxVoiceBandStart).take k))
      else none) := by
  have hloops := Appends.foldlM (List.range n) fun i _ =>
    Appends.foldlM (List.range' arg.idxVoiceBandStart k) fun j _ =>
      speechRound_appends p appOps arg i j
  rw [nested_pieces hn fun _ _ network band =>
    (speechBlock p appOps arg sizeByteParaData network band).bytes] at hloops
  have hbytes : ((speechNetworks appOps).take n).zipIdx.flatMap (fun a =>
      ((((speechBands appOps).drop arg.idxVoiceBandStart).take k).zipIdx
        arg.idxVoiceBandStart).flatMap fun b =>
          (speechBlock p appOps arg sizeByteParaData a.1 b.1).bytes) =
      speechBytes p appOps arg sizeByteParaData ((speechNetworks appOps).take n)
        (((speechBands appOps).drop arg.idxVoiceBandStart).take k) := by
    have hinner : ∀ network, ((((speechBands appOps).drop arg.idxVoiceBandStart).take k).zipIdx
        arg.idxVoiceBandStart).flatMap (fun b =>
          (speechBlock p appOps arg sizeByteParaData network b.1).bytes) =
        (((speechBands appOps).drop arg.idxVoiceBandStart).take k).flatMap fun band =>
          (speechBlock p appOps arg sizeByteParaData network band).bytes :=
      fun network => flatMap_zipIdx _ _ fun band =>
        (speechBlock p appOps arg sizeByteParaData network band).bytes
    simp only [hinner]
    exact flatMap_zipIdx _ 0 fun network =>
      (((speechBands appOps).drop arg.idxVoiceBandStart).take k).flatMap fun band =>
        (speechBlock p appOps arg sizeByteParaData network band).bytes
  rw [hbytes] at hloops
  exact hloops

theorem numOfCategory_le (l : List String) : numOfCategory l ≤ l.length := Nat.mod_le _ _

/-- The categories that a unit of `AUDIO_TYPE_SPEECH` reads. -/
def SpeechReads (appOps : AppOps) (arg : ParamArg) : Prop :=
  numOfCategory (speechNetworks appOps) = 0 ∨ numOfCategory (speechBands appOps) = 0 ∨
    arg.idxVoiceBandStart + numOfCategory (speechBands appOps) ≤ (speechBands appOps).length

/-- The header of a unit of `AUDIO_TYPE_SPEECH`, with the mode and the volume. -/
def speechHeader (p : SpeechParamParser) (appOps : AppOps) (arg : ParamArg) : Bytes :=
  (p.speechUnitHdr arg (numOfCategory (speechBands appOps))
    (numOfCategory (speechNetworks appOps))).bytes ++ halfWord arg.idxInfo

/-- The blocks of a unit of `AUDIO_TYPE_SPEECH`, as they are written. -/
def speechWritten (p : SpeechParamParser) (appOps : AppOps) (arg : ParamArg) : Bytes :=
  speechBytes p appOps arg sizeByteParaData
    ((speechNetworks appOps).take (numOfCategory (speechNetworks appOps)))
    (((speechBands appOps).drop arg.idxVoiceBandStart).take (numOfCategory (speechBands appOps)))

/-- What a unit has become when it is returned. -/
theorem getSpeechParamUnit_some {unit : Packer UInt8}
    (h : p.getSpeechParamUnit appOps ⟨mem, ccciMaxPayloadDataByte⟩ arg = some unit) :
    SpeechReads appOps arg ∧ unit.Filled ccciMaxPayloadDataByte
      (speechHeader p appOps arg ++ speechWritten p appOps arg) := by
  rw [SpeechParamParser.getSpeechParamUnit] at h
  simp only [bind, Option.bind_eq_some_iff] at h
  obtain ⟨u, hhdr, v, hv, b, hb, hend⟩ := h
  obtain rfl := Option.some.inj hend
  have hempty : (Buffers.start ⟨mem, ccciMaxPayloadDataByte⟩).unit.Filled
      ccciMaxPayloadDataByte [] := filled_nil rfl
  have hu := hempty.of_put lt_uint16Size hhdr
  have hfilled := hu.of_put lt_uint16Size hv
  obtain ⟨blocks, hblocks, -, hunit⟩ :=
    (speechLoops_append p appOps arg (numOfCategory_le _)).of_some (by exact rfl) hfilled hb
  split at hblocks
  · rename_i hreads
    obtain rfl := Option.some.inj hblocks
    exact ⟨hreads, hunit⟩
  · cases hblocks

/-- A unit is returned, if the categories exist and the blocks fit. -/
theorem getSpeechParamUnit_exists (mem : Nat → UInt8) (hreads : SpeechReads appOps arg)
    (hfits : (speechHeader p appOps arg ++ speechWritten p appOps arg).length ≤
      ccciMaxPayloadDataByte) :
    ∃ unit, p.getSpeechParamUnit appOps ⟨mem, ccciMaxPayloadDataByte⟩ arg = some unit := by
  rw [List.length_append] at hfits
  have hempty : (Buffers.start ⟨mem, ccciMaxPayloadDataByte⟩).unit.Filled
      ccciMaxPayloadDataByte [] := filled_nil rfl
  obtain ⟨u, hhdr, hu⟩ := hempty.put lt_uint16Size (p.speechUnitHdr arg
    (numOfCategory (speechBands appOps)) (numOfCategory (speechNetworks appOps))).bytes
    (by exact (by decide : 0 + 16 ≤ ccciMaxPayloadDataByte))
  obtain ⟨v, hinfo, hv⟩ := hu.put lt_uint16Size (halfWord arg.idxInfo)
    (by exact (by decide : 16 + 2 ≤ ccciMaxPayloadDataByte))
  have hroom : HasRoom { Buffers.start ⟨mem, ccciMaxPayloadDataByte⟩ with unit := v } := rfl
  obtain ⟨b, hb⟩ := (speechLoops_append p appOps arg (numOfCategory_le _)).exists_some hroom hv
    (if_pos hreads) hfits
  refine ⟨b.unit, ?_⟩
  rw [SpeechParamParser.getSpeechParamUnit]
  simp only [bind, Option.bind_eq_some_iff]
  exact ⟨u, hhdr, v, hinfo, b, hb, rfl⟩

/-- A round of the two loops for dual microphones. -/
theorem dmnrRound_appends (appOps : AppOps) (i j : Nat) :
    Appends Buffers.unit HasRoom ccciMaxPayloadDataByte (fun b => dmnrRound appOps i b j)
      ((dmnrBands appOps)[i]?.bind fun band =>
        audioTypeSpeechDmnrCategoryName2[j]?.bind fun profile =>
          some (dmnrBlock appOps sizeByteParaData i j band profile).bytes) :=
  Appends.lookup fun band _ => Appends.lookup fun profile _ =>
    putBlock_appends (appOps audioTypeSpeechDmnr) audioTypeSpeechDmnrParamName (dmnrDataHdr i j)
      (categoryPath audioTypeSpeechDmnrCategoryType [band, profile])

/-- The blocks that are written for some bands and profiles. -/
def dmnrBytes (appOps : AppOps) (sizeOf : DataType → Nat → Nat) (bands profiles : List String) :
    Bytes :=
  bands.zipIdx.flatMap fun band => profiles.zipIdx.flatMap fun profile =>
    (dmnrBlock appOps sizeOf band.2 profile.2 band.1 profile.1).bytes

/-- The two loops for dual microphones. -/
theorem dmnrLoops_append (appOps : AppOps) {n k : Nat} (hn : n ≤ (dmnrBands appOps).length) :
    Appends Buffers.unit HasRoom ccciMaxPayloadDataByte
      (fun b => (List.range n).foldlM (fun b idxBand =>
        (List.range k).foldlM (dmnrRound appOps idxBand) b) b)
      (if n = 0 ∨ k ≤ 2 then
        some (dmnrBytes appOps sizeByteParaData ((dmnrBands appOps).take n)
          (audioTypeSpeechDmnrCategoryName2.take k))
      else none) := by
  have hloops := Appends.foldlM (List.range n) fun i _ =>
    Appends.foldlM (List.range' 0 k) fun j _ => dmnrRound_appends appOps i j
  rw [nested_pieces hn fun i j band profile =>
    (dmnrBlock appOps sizeByteParaData i j band profile).bytes] at hloops
  have hreads : (n = 0 ∨ k = 0 ∨ 0 + k ≤ audioTypeSpeechDmnrCategoryName2.length) ↔
      (n = 0 ∨ k ≤ 2) := by
    have hnames : audioTypeSpeechDmnrCategoryName2.length = 2 := rfl
    omega
  simp only [hreads, List.drop_zero, ← List.range_eq_range'] at hloops
  exact hloops

/-- The header of a unit for dual microphones. -/
def dmnrHeader (p : SpeechParamParser) (appOps : AppOps) : Bytes :=
  (p.dmnrUnitHdr (numOfCategory (dmnrBands appOps)) (numOfCategory (dmnrProfiles appOps))).bytes

/-- The blocks of a unit for dual microphones, as they are written. -/
def dmnrWritten (appOps : AppOps) : Bytes :=
  dmnrBytes appOps sizeByteParaData ((dmnrBands appOps).take (numOfCategory (dmnrBands appOps)))
    (audioTypeSpeechDmnrCategoryName2.take (numOfCategory (dmnrProfiles appOps)))

/-- The names of profiles that a unit for dual microphones reads. -/
def DmnrReads (appOps : AppOps) : Prop :=
  numOfCategory (dmnrBands appOps) = 0 ∨ numOfCategory (dmnrProfiles appOps) ≤ 2

/-- What a unit for dual microphones has become when it is returned. -/
theorem getDmnrParamUnit_some {unit : Packer UInt8}
    (h : p.getDmnrParamUnit appOps ⟨mem, ccciMaxPayloadDataByte⟩ = some unit) :
    DmnrReads appOps ∧
      unit.Filled ccciMaxPayloadDataByte (dmnrHeader p appOps ++ dmnrWritten appOps) := by
  rw [SpeechParamParser.getDmnrParamUnit] at h
  simp only [bind, Option.bind_eq_some_iff] at h
  obtain ⟨u, hhdr, b, hb, hend⟩ := h
  obtain rfl := Option.some.inj hend
  have hempty : (Buffers.start ⟨mem, ccciMaxPayloadDataByte⟩).unit.Filled
      ccciMaxPayloadDataByte [] := filled_nil rfl
  have hfilled := hempty.of_put lt_uint16Size hhdr
  obtain ⟨blocks, hblocks, -, hunit⟩ :=
    (dmnrLoops_append appOps (numOfCategory_le _)).of_some (by exact rfl) hfilled hb
  split at hblocks
  · rename_i hreads
    obtain rfl := Option.some.inj hblocks
    exact ⟨hreads, hunit⟩
  · cases hblocks

/-- A unit for dual microphones is returned, if its profiles have names and the blocks fit. -/
theorem getDmnrParamUnit_exists (mem : Nat → UInt8) (hreads : DmnrReads appOps)
    (hfits : (dmnrHeader p appOps ++ dmnrWritten appOps).length ≤ ccciMaxPayloadDataByte) :
    ∃ unit, p.getDmnrParamUnit appOps ⟨mem, ccciMaxPayloadDataByte⟩ = some unit := by
  rw [List.length_append] at hfits
  have hempty : (Buffers.start ⟨mem, ccciMaxPayloadDataByte⟩).unit.Filled
      ccciMaxPayloadDataByte [] := filled_nil rfl
  obtain ⟨u, hhdr, hu⟩ := hempty.put lt_uint16Size (dmnrHeader p appOps)
    (by exact (by decide : 0 + 16 ≤ ccciMaxPayloadDataByte))
  have hroom : HasRoom { Buffers.start ⟨mem, ccciMaxPayloadDataByte⟩ with unit := u } := rfl
  obtain ⟨b, hb⟩ := (dmnrLoops_append appOps (numOfCategory_le _)).exists_some hroom hu
    (if_pos hreads) hfits
  refine ⟨b.unit, ?_⟩
  rw [SpeechParamParser.getDmnrParamUnit]
  simp only [bind, Option.bind_eq_some_iff]
  exact ⟨u, hhdr, b, hb, rfl⟩

end Writes

/-! ## Whole parameters -/

section Whole

variable {audioType : AudioType} {paramName : List String} {path : String}

/-- A size that fits in 16 bits is right. -/
theorem sizeByteParaData_eq {dataType : DataType} {arraySize : Nat}
    (h : wholeSize dataType arraySize < uint16Size) :
    sizeByteParaData dataType arraySize = wholeSize dataType arraySize := by
  cases dataType <;> simp only [sizeByteParaData, wholeSize, uint16Size] at h ⊢ <;> omega

/-- Parameters that fit in 16 bits are copied as a whole. -/
theorem paramData_eq (h : (paramData wholeSize audioType paramName path).length < uint16Size) :
    paramData sizeByteParaData audioType paramName path =
      paramData wholeSize audioType paramName path := by
  rw [paramData] at h ⊢
  rw [paramData]
  cases hunit : audioType.paramUnit path with
  | none => rfl
  | some paramUnit =>
    rw [hunit] at h
    change (paramName.flatMap fun name => paramBytes wholeSize (paramUnit name)).length < _ at h
    change (paramName.flatMap fun name => paramBytes sizeByteParaData (paramUnit name)) = _
    induction paramName with
    | nil => rfl
    | cons name rest ih =>
      rw [List.flatMap_cons, List.length_append] at h
      rw [List.flatMap_cons, ih (Nat.lt_of_le_of_lt (Nat.le_add_left _ _) h)]
      have hname : paramBytes sizeByteParaData (paramUnit name) =
          paramBytes wholeSize (paramUnit name) := by
        have hlength := Nat.lt_of_le_of_lt (Nat.le_add_right _ _) h
        cases hparam : paramUnit name with
        | none => rfl
        | some param =>
          rw [hparam, paramBytes, List.length_map, List.length_range] at hlength
          rw [paramBytes, paramBytes, sizeByteParaData_eq hlength]
      rw [hname]
      rfl

/-- The sum of the sizes of blocks is that of their bytes. -/
theorem length_blocks (blocks : List DataBlock) :
    (blocks.flatMap DataBlock.bytes).length =
      (blocks.map fun b => 2 + b.data.length).sum := by
  rw [List.length_flatMap]
  congr 1
  exact List.map_congr_left fun b _ => List.length_append

end Whole

end MtkHw.Speech.ParamParser
