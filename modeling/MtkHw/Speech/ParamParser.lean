import MtkHw.Lib.Packer
import MtkHw.Speech.ParaRing

/-!
# The parser of speech parameters

The parameters for the modem come from a framework that keeps them by categories: for each band and
network there is a set of parameters, for dual microphones one for each band and profile.  The
parser asks how many categories there are, writes a header that says so, and behind it a block for
each of them, a half-word and the parameters.

The framework is not part of the program.  It has a list of names for each type of categories,
answers `NULL` behind the end of it, and gives a set of parameters by a path of names.

What is written goes into two arrays, one for a block and one for the unit.  A write or a read
outside of an array, or of a category that does not exist, is a fault.  The positions in the arrays
are 16-bit numbers.
-/

namespace MtkHw.Speech.ParamParser

open Lib

abbrev Bytes := List UInt8

def ccciMaxPayloadDataByte : Nat := 3434
def maxByteParamSpeech : Nat := 3434

/-- The values of a `uint16_t`. -/
def uint16Size : Nat := 65536

/-! ## The framework -/

/-- `DATA_TYPE`. -/
inductive DataType where
  | int
  | uint
  | float
  | byteArray
  | ubyteArray
  | shortArray
  | ushortArray
  | intArray
  | uintArray
  | other
  deriving DecidableEq, Repr

/-- A parameter: its type, the number of its elements, and the bytes at its address. -/
structure Param where
  dataType : DataType
  arraySize : Nat
  data : Nat → UInt8

/-- The parameters of a set, by name. -/
abbrev ParamUnit := String → Option Param

/-- The names of the categories, by category type, and the sets of parameters, by path. -/
structure AudioType where
  categoryType : String → List String
  paramUnit : String → Option ParamUnit

/-- The types of parameters, by name. -/
abbrev AppOps := String → AudioType

/-- `categoryTypeGetNumOfCategory`, kept in a `uint16_t`. -/
def numOfCategory (categoryType : List String) : Nat := categoryType.length % uint16Size

/-- `categoryTypeGetCategoryByIndex`: the name of a category. -/
def categoryByIndex (categoryType : List String) (index : Nat) : Option String :=
  categoryType[index]?

/-! ## Names -/

def audioTypeSpeech : String := "Speech"
def audioTypeSpeechDmnr : String := "SpeechDMNR"

def audioTypeSpeechCategoryType : List String := ["Band", "Profile", "VolIndex", "Network"]

def audioTypeSpeechParamName : List String :=
  ["speech_mode_para", "sph_in_fir", "sph_out_fir", "sph_in_iir_mic1_dsp", "sph_in_iir_mic2_dsp",
    "sph_in_iir_enh_dsp", "sph_out_iir_enh_dsp"]

def audioTypeSpeechCategoryName3 : List String := ["0", "1", "2", "3", "4", "5", "6"]

def audioTypeSpeechDmnrCategoryType : List String := ["Band", "Profile"]
def audioTypeSpeechDmnrCategoryName2 : List String := ["Handset", "MagiConference"]
def audioTypeSpeechDmnrParamName : List String := ["dmnr_para"]

/-- `speech_profile_t`. -/
inductive SpeechProfile where
  | handset
  | fourPoleHeadset
  | handsfree
  | btEarphone
  | btNrecOff
  | magiconference
  | hac
  | lpbkHandset
  | lpbkHeadset
  | lpbkHandsfree
  | threePoleHeadset
  | fivePoleHeadset
  | fivePoleHeadsetAnc
  | usbHeadset
  | handsetSv
  | handsfreeSv
  | ttyHcoHandset
  | ttyHcoHandsfree
  | ttyVcoHandset
  | ttyVcoHandsfree
  deriving DecidableEq, Repr

/-- `audioType_Speech_CategoryName2`. -/
def audioTypeSpeechCategoryName2 : SpeechProfile → String
  | .handset => "Normal"
  | .fourPoleHeadset => "4_pole_Headset"
  | .handsfree => "Handsfree"
  | .btEarphone => "BT_Earphone"
  | .btNrecOff => "BT_NREC_Off"
  | .magiconference => "MagiConference"
  | .hac => "HAC"
  | .lpbkHandset => "Lpbk_Handset"
  | .lpbkHeadset => "Lpbk_Headset"
  | .lpbkHandsfree => "Lpbk_Handsfree"
  | .threePoleHeadset => "3_pole_Headset"
  | .fivePoleHeadset => "5_pole_Headset"
  | .fivePoleHeadsetAnc => "5_pole_Headset+ANC"
  | .usbHeadset => "Usb_Headset"
  | .handsetSv => "Handset_SV"
  | .handsfreeSv => "Handsfree_SV"
  | .ttyHcoHandset => "Tty_HCO_Handset"
  | .ttyHcoHandsfree => "Tty_HCO_Handsfree"
  | .ttyVcoHandset => "Tty_VCO_Handset"
  | .ttyVcoHandsfree => "Tty_VCO_Handsfree"

/-! ## The parser -/

/-- `SPEECH_NETWORK_STRUCT`. -/
structure SpeechNetwork where
  name : String
  supportBit : UInt16

/-- `SpeechParamParser`, as it has been initialised. -/
structure SpeechParamParser where
  isLPBK : Bool
  numHeadsetPole : UInt8
  isSV : Bool
  idxTTY : UInt8
  mSpeechParamVerFirst : UInt8
  mSpeechParamVerLast : UInt8
  mListSpeechNetwork : List SpeechNetwork

/-- `isNetworkSupport`: versions 1 and 2. -/
def SpeechParamParser.isNetworkSupport (p : SpeechParamParser) : Bool :=
  p.mSpeechParamVerFirst = 2 || p.mSpeechParamVerFirst = 1

def SpeechParamParser.numSpeechParam (p : SpeechParamParser) : Nat :=
  if p.mSpeechParamVerFirst = 2 then 7 else 3

/-- The arguments: the mode, the volume, noise reduction of a headset, and the option of the parser
(bit 1: single band, bits 4 to 7: number of the band). -/
structure ParamArg where
  sphMode : Int32
  idxVolume : Int32
  btHeadsetNrecOn : Int32
  parserOption : Int32

def ParamArg.isSingleBandTransfer (arg : ParamArg) : Bool := arg.parserOption &&& 0x2 ≠ 0

def ParamArg.idxVoiceBandStart (arg : ParamArg) : Nat :=
  ((arg.parserOption &&& 0xf0) >>> 4).toUInt32.toNat % 256

def speechModeNormal : Int32 := 0
def speechModeEarphone : Int32 := 1
def speechModeLoudSpeaker : Int32 := 2
def speechModeBtEarphone : Int32 := 3
def speechModeBtCordless : Int32 := 4
def speechModeBtCarkit : Int32 := 5
def speechModeMagicConCall : Int32 := 6
def speechModeHac : Int32 := 8
def speechModeUsbAudio : Int32 := 9

def ttyParamOff : UInt8 := 0
def ttyParamVco : UInt8 := 2

/-- `GetSpeechProfile`. -/
def SpeechParamParser.getSpeechProfile (p : SpeechParamParser) (sphMode : Int32)
    (btHeadsetNrecOn : Bool) : SpeechProfile :=
  if p.isLPBK then
    if sphMode = speechModeEarphone then .lpbkHeadset
    else if sphMode = speechModeLoudSpeaker then .lpbkHandsfree
    else .lpbkHandset
  else if sphMode = speechModeNormal then
    if p.idxTTY = ttyParamOff then if p.isSV then .handsetSv else .handset
    else if p.idxTTY = ttyParamVco then .ttyVcoHandset
    else .ttyHcoHandset
  else if sphMode = speechModeEarphone then
    if p.numHeadsetPole = 3 then .threePoleHeadset
    else if p.numHeadsetPole = 5 then .fivePoleHeadset
    else .fourPoleHeadset
  else if sphMode = speechModeLoudSpeaker then
    if p.idxTTY = ttyParamOff then if p.isSV then .handsfreeSv else .handsfree
    else if p.idxTTY = ttyParamVco then .ttyVcoHandsfree
    else .ttyHcoHandsfree
  else if sphMode = speechModeBtEarphone ∨ sphMode = speechModeBtCordless ∨
      sphMode = speechModeBtCarkit then
    if btHeadsetNrecOn then .btEarphone else .btNrecOff
  else if sphMode = speechModeMagicConCall then .magiconference
  else if sphMode = speechModeHac then .hac
  else if sphMode = speechModeUsbAudio then .usbHeadset
  else .handset

/-- The name of a volume; 3 stands for the volumes that do not exist. -/
def volumeName (idxVolume : Int32) : String :=
  if 6 < idxVolume ∨ idxVolume < 0 then "3"
  else audioTypeSpeechCategoryName3.getD idxVolume.toInt.toNat "3"

/-- `sizeByteParaData`. -/
def sizeByteParaData (dataType : DataType) (arraySize : Nat) : Nat :=
  let arraySize := arraySize % uint16Size
  match dataType with
  | .int | .uint | .float | .other => 4
  | .byteArray | .ubyteArray => arraySize
  | .shortArray | .ushortArray => arraySize * 2 % uint16Size
  | .intArray | .uintArray => arraySize * 4 % uint16Size

/-- The path of a set of parameters. -/
def categoryPath (categoryType categoryName : List String) : String :=
  ",".intercalate ((categoryType.zip categoryName).map fun c => c.1 ++ "," ++ c.2)

/-- `GetSpeechParamFromAppParser`: the parameters are copied one behind the other; those that are
missing are left out. -/
def getSpeechParamFromAppParser (audioType : AudioType) (paramName : List String) (path : String)
    (bufParamUnit : Packer UInt8) : Option (Packer UInt8) :=
  match audioType.paramUnit path with
  | none => some bufParamUnit
  | some paramUnit =>
    paramName.foldlM (fun bufParamUnit name =>
      match paramUnit name with
      | none => some bufParamUnit
      | some param =>
        bufParamUnit.put uint16Size
          ((List.range (sizeByteParaData param.dataType param.arraySize)).map param.data))
      bufParamUnit

/-! ## Headers -/

/-- `SPEECH_DYNAMIC_PARAM_UNIT_HDR_STRUCT`. -/
structure ParamUnitHdr where
  sphParserVer : UInt16
  numLayer : UInt16
  numEachLayer : UInt16
  paramHeader0 : UInt16
  paramHeader1 : UInt16
  paramHeader2 : UInt16
  paramHeader3 : UInt16
  sphUnitMagiNum : UInt16

/-- The header as it lies in memory. -/
def ParamUnitHdr.bytes (h : ParamUnitHdr) : Bytes :=
  halfWord h.sphParserVer ++ halfWord h.numLayer ++ halfWord h.numEachLayer ++
    halfWord h.paramHeader0 ++ halfWord h.paramHeader1 ++ halfWord h.paramHeader2 ++
    halfWord h.paramHeader3 ++ halfWord h.sphUnitMagiNum

/-- `numEachLayer`: two numbers of four bits. -/
def numEachLayer (numBand numOther : Nat) : UInt16 :=
  UInt16.ofNat (((numBand &&& 0xF) <<< 4) + (numOther &&& 0xF))

/-- The bands of a unit with several bands, a bit for each. -/
def voiceBands : Nat → UInt16
  | 1 => 0x1
  | 2 => 0x3
  | 3 => 0x7
  | 4 => 0xF
  | _ => 0x3

/-- The band of a unit with a single band. -/
def singleVoiceBand : Nat → UInt16
  | 0 => 0x1
  | 1 => 0x2
  | _ => 0x1

/-- `SetMDParamUnitHdr`, on a header with its number of categories. -/
def SpeechParamParser.setMDParamUnitHdr (p : SpeechParamParser)
    (sphUnitMagiNum paramHeader0 paramHeader1 numEachLayer : UInt16) : ParamUnitHdr where
  sphParserVer := 1
  numLayer := 0x2
  numEachLayer := numEachLayer
  paramHeader0 := paramHeader0
  paramHeader1 := paramHeader1
  paramHeader2 := p.mSpeechParamVerFirst.toUInt16 <<< 4 + p.mSpeechParamVerLast.toUInt16
  paramHeader3 := 0
  sphUnitMagiNum := sphUnitMagiNum

/-- The header for `AUDIO_TYPE_SPEECH`. -/
def SpeechParamParser.speechUnitHdr (p : SpeechParamParser) (arg : ParamArg)
    (numBand numNetwork : Nat) : ParamUnitHdr :=
  p.setMDParamUnitHdr 0xAA01 0x1F
    (if arg.isSingleBandTransfer then singleVoiceBand arg.idxVoiceBandStart else voiceBands numBand)
    (numEachLayer numBand numNetwork)

/-- The header for `AUDIO_TYPE_SPEECH_DMNR`. -/
def SpeechParamParser.dmnrUnitHdr (p : SpeechParamParser) (numBand numProfile : Nat) :
    ParamUnitHdr :=
  p.setMDParamUnitHdr 0xAA03 0x3 (voiceBands numBand) (numEachLayer numBand numProfile)

/-- `SetMDParamDataHdr`. -/
def SpeechParamParser.setMDParamDataHdr (p : SpeechParamParser) (cateBand cateNetwork : String) :
    UInt16 :=
  let dataHeader : UInt16 :=
    if cateBand = "NB" then 0x1000
    else if cateBand = "WB" then 0x2000
    else if cateBand = "SWB" then 0x3000
    else if cateBand = "FB" then 0x4000
    else 0
  let maskNetwork : UInt16 :=
    match p.mListSpeechNetwork.find? fun network => cateNetwork = network.name with
    | some network => network.supportBit
    | none => 0
  if p.isNetworkSupport then dataHeader ||| maskNetwork else dataHeader >>> 8 ||| 0xF

/-- The mode and the volume, behind the header of `AUDIO_TYPE_SPEECH`. -/
def ParamArg.idxInfo (arg : ParamArg) : UInt16 :=
  (arg.sphMode &&& 0xF).toUInt32.toUInt16 + (arg.idxVolume <<< 4).toUInt32.toUInt16

/-! ## Units -/

/-- The array for the unit, `size`, and the array for the parameters of a block. -/
structure Buffers where
  unit : Packer UInt8
  packedParamUnitFromApp : Block UInt8

/-- A block: its half-word, and behind it the parameters of a path. -/
def putBlock (audioType : AudioType) (paramName : List String) (dataHeader : UInt16)
    (path : String) (b : Buffers) : Option Buffers := do
  let unit ← b.unit.put uint16Size (halfWord dataHeader)
  let packed ← getSpeechParamFromAppParser audioType paramName path ⟨b.packedParamUnitFromApp, 0⟩
  let data ← packed.block.copyOut 0 packed.pos
  let unit ← unit.put uint16Size data
  some ⟨unit, packed.block⟩

/-- The arrays when the unit begins. -/
def Buffers.start (bufParamUnit : Block UInt8) : Buffers where
  unit := ⟨bufParamUnit, 0⟩
  packedParamUnitFromApp := ⟨fun _ => 0, maxByteParamSpeech⟩

/-- The parameters of `AUDIO_TYPE_SPEECH`. -/
def SpeechParamParser.speechParamName (p : SpeechParamParser) : List String :=
  audioTypeSpeechParamName.take p.numSpeechParam

/-- The path for a band and a network. -/
def SpeechParamParser.speechPath (p : SpeechParamParser) (arg : ParamArg)
    (cateBand cateNetwork : String) : String :=
  categoryPath audioTypeSpeechCategoryType
    [cateBand,
      audioTypeSpeechCategoryName2 (p.getSpeechProfile arg.sphMode (arg.btHeadsetNrecOn ≠ 0)),
      volumeName arg.idxVolume, cateNetwork]

/-- The block for a network and a band. -/
def SpeechParamParser.speechRound (p : SpeechParamParser) (appOps : AppOps) (arg : ParamArg)
    (idxNetwork : Nat) (b : Buffers) (idxBand : Nat) : Option Buffers := do
  let audioType := appOps audioTypeSpeech
  let cateNetwork ← categoryByIndex (audioType.categoryType "Network") idxNetwork
  let cateBand ← categoryByIndex (audioType.categoryType "Band") idxBand
  putBlock audioType p.speechParamName (p.setMDParamDataHdr cateBand cateNetwork)
    (p.speechPath arg cateBand cateNetwork) b

/-- `GetSpeechParamUnit`. -/
def SpeechParamParser.getSpeechParamUnit (p : SpeechParamParser) (appOps : AppOps)
    (bufParamUnit : Block UInt8) (arg : ParamArg) : Option (Packer UInt8) := do
  let audioType := appOps audioTypeSpeech
  let numNetwork := numOfCategory (audioType.categoryType "Network")
  let numBand := numOfCategory (audioType.categoryType "Band")
  let b := Buffers.start bufParamUnit
  let unit ← b.unit.put uint16Size (p.speechUnitHdr arg numBand numNetwork).bytes
  let unit ← unit.put uint16Size (halfWord arg.idxInfo)
  let b ← (List.range numNetwork).foldlM (fun b idxNetwork =>
    (List.range' arg.idxVoiceBandStart numBand).foldlM (p.speechRound appOps arg idxNetwork) b)
    { b with unit := unit }
  some b.unit

/-- The half-word of a block for dual microphones. -/
def dmnrDataHdr (idxBand idxProfile : Nat) : UInt16 :=
  UInt16.ofNat (((idxBand + 1) <<< 4) + (idxProfile + 1))

/-- The block for a band and a profile. -/
def dmnrRound (appOps : AppOps) (idxBand : Nat) (b : Buffers) (idxProfile : Nat) :
    Option Buffers := do
  let audioType := appOps audioTypeSpeechDmnr
  let cateBand ← categoryByIndex (audioType.categoryType "Band") idxBand
  let profile ← audioTypeSpeechDmnrCategoryName2[idxProfile]?
  putBlock audioType audioTypeSpeechDmnrParamName (dmnrDataHdr idxBand idxProfile)
    (categoryPath audioTypeSpeechDmnrCategoryType [cateBand, profile]) b

/-- `GetDmnrParamUnit`. -/
def SpeechParamParser.getDmnrParamUnit (p : SpeechParamParser) (appOps : AppOps)
    (bufParamUnit : Block UInt8) : Option (Packer UInt8) := do
  let audioType := appOps audioTypeSpeechDmnr
  let numBand := numOfCategory (audioType.categoryType "Band")
  let numProfile := numOfCategory (audioType.categoryType "Profile")
  let b := Buffers.start bufParamUnit
  let unit ← b.unit.put uint16Size (p.dmnrUnitHdr numBand numProfile).bytes
  let b ← (List.range numBand).foldlM (fun b idxBand =>
    (List.range numProfile).foldlM (dmnrRound appOps idxBand) b) { b with unit := unit }
  some b.unit

end MtkHw.Speech.ParamParser
