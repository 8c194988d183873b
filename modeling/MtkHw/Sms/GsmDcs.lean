import MtkHw.Sms.CdmaNode

/-!
# Fields of a GSM message

The checks of the single fields of a PDU, and what the data coding scheme says about the alphabet, the
class and the compression of the message.  An `int` of the source is a number of 32 bits here, where
its bits are looked at.
-/

namespace MtkHw.Sms

def TPDU_MAX_TPDU_SIZE : Nat := 175
def TPDU_MAX_ADDR_LEN : Int := 11
def TPDU_ONE_MSG_OCTET : Nat := 140

def TPDU_MTI_BITS : BitVec 32 := 0x03
def TPDU_MTI_DELIVER : BitVec 32 := 0x00
def TPDU_MTI_SUBMIT : BitVec 32 := 0x01
def TPDU_MTI_UNSPECIFIED : BitVec 32 := 0x02
def TPDU_MTI_RESERVED : BitVec 32 := 0x03

def TPDU_VPF_BITS : BitVec 32 := 0x18
def TPDU_VPF_NOT_PRESENT : BitVec 32 := 0x00
def TPDU_VPF_RELATIVE : BitVec 32 := 0x02

def TPDU_PID_DEFAULT_PID : BitVec 32 := 0x00
def TPDU_PID_CHECK : BitVec 32 := 0xC0
def TPDU_PID_RESERVED : BitVec 32 := 0x80

def TPDU_DCS_CODING1 : BitVec 32 := 0xc0
def TPDU_DCS_CODING2 : BitVec 32 := 0xf0
def TPDU_DCS_RESERVE_BIT : BitVec 32 := 0x08
def TPDU_DCS_ALPHABET_CHECK : BitVec 32 := 0x0c
def TPDU_DCS_COMPRESS_CHECK : BitVec 32 := 0x20

/-- `SMS_ENCODING_ENUM` -/
inductive SmsEncoding where
  | sevenBit
  | eightBit
  | sixteenBit
  | unknown
deriving DecidableEq, Repr

/-- The cast of a number of two bits. -/
def SmsEncoding.ofBits (bits : BitVec 32) : SmsEncoding :=
  if bits = 0 then sevenBit
  else if bits = 1 then eightBit
  else if bits = 2 then sixteenBit
  else unknown

/-- `SMS_MESSAGE_CLASS_ENUM` -/
inductive SmsMessageClass where
  | class0
  | class1
  | class2
  | class3
  | unspecified
deriving DecidableEq, Repr

/-- The cast of a number of two bits. -/
def SmsMessageClass.ofBits (bits : BitVec 32) : SmsMessageClass :=
  if bits = 0 then class0
  else if bits = 1 then class1
  else if bits = 2 then class2
  else class3

/-- `TPDU_ERROR_CAUSE_ENUM`, as far as the checks set it. -/
inductive TpduErrorCause where
  | noError
  | msgLenExceeded
deriving DecidableEq, Repr

/-- `smsFoCheck` -/
def smsFoCheck (fo : BitVec 32) : Bool :=
  if TPDU_MTI_RESERVED ≤ fo &&& TPDU_MTI_BITS then false
  else if (fo &&& TPDU_VPF_BITS) >>> 3 ≠ TPDU_VPF_NOT_PRESENT ∧
      (fo &&& TPDU_VPF_BITS) >>> 3 ≠ TPDU_VPF_RELATIVE then false
  else true

/-- `smsPidCheck` -/
def smsPidCheck (pid : BitVec 32) : Bool :=
  if pid ≠ TPDU_PID_DEFAULT_PID then
    !(pid &&& TPDU_PID_CHECK = TPDU_PID_CHECK || pid &&& TPDU_PID_CHECK = TPDU_PID_RESERVED)
  else true

/-- `smsDcsCheck` -/
def smsDcsCheck (dcs : BitVec 32) : Bool :=
  if dcs = 0 then true
  else
    let coding_group := dcs &&& 0xf0
    if dcs &&& TPDU_DCS_CODING2 = TPDU_DCS_CODING2 then
      !(dcs &&& TPDU_DCS_RESERVE_BIT = TPDU_DCS_RESERVE_BIT)
    else if dcs &&& TPDU_DCS_CODING1 = 0x00 then
      if dcs &&& TPDU_DCS_ALPHABET_CHECK = TPDU_DCS_ALPHABET_CHECK then false
      else if dcs &&& TPDU_DCS_COMPRESS_CHECK = TPDU_DCS_COMPRESS_CHECK then false
      else true
    else if coding_group &&& 0xc0 = 0x80 then false
    else if coding_group = 0xc0 ∨ coding_group = 0xd0 ∨ coding_group = 0xe0 then
      !(dcs &&& 0x04 = 0x04)
    else true

/-- What `smsDecodeDcs` finds. -/
structure DecodedDcs where
  alphabet_type : SmsEncoding
  msg_class : SmsMessageClass
  is_compress : Bool
deriving DecidableEq, Repr

/-- The default values of `smsDecodeDcs`. -/
def DecodedDcs.default : DecodedDcs := ⟨.sevenBit, .unspecified, false⟩

/-- What `smsDecodeDcs` reads in the coding group. -/
def decodeCodingGroup (dcs : BitVec 32) : DecodedDcs :=
  let coding_group : BitVec 8 := (dcs.sshiftRight 4).setWidth 8
  if coding_group = 0x0f then
    if dcs &&& 0x08 = 0x08 then { DecodedDcs.default with alphabet_type := .unknown }
    else { DecodedDcs.default with
      msg_class := .ofBits (dcs &&& 0x03)
      alphabet_type := .ofBits ((dcs &&& 0x04).sshiftRight 2) }
  else if coding_group ||| 0x07 = 0x07 then
    { msg_class := if dcs &&& 0x10 = 0x10 then .ofBits (dcs &&& 0x03) else .unspecified
      alphabet_type := .ofBits (dcs.sshiftRight 2 &&& 0x03)
      is_compress := (coding_group &&& 0x02) >>> 1 = 1 }
  else if coding_group &&& 0x0c = 0x08 then .default
  else if coding_group &&& 0x0f = 0x0e then
    { DecodedDcs.default with alphabet_type := .sixteenBit }
  else .default

/-- `smsDecodeDcs` -/
def smsDecodeDcs (dcs : BitVec 32) : DecodedDcs :=
  if dcs = 0 then .default
  else if dcs = 0x84 then { DecodedDcs.default with alphabet_type := .sixteenBit }
  else if (decodeCodingGroup dcs).alphabet_type = .unknown then
    { decodeCodingGroup dcs with alphabet_type := .sevenBit }
  else decodeCodingGroup dcs

/-- `smsIsLenIn8bit` -/
def smsIsLenIn8bit (dcs : BitVec 32) : Bool :=
  let decoded := smsDecodeDcs dcs
  decoded.is_compress || decoded.alphabet_type = .eightBit || decoded.alphabet_type = .sixteenBit

/-- `smsMsgLenInOctet`: the octets of `len` octets or septets. -/
def smsMsgLenInOctet (dcs : BitVec 32) (len : Nat) : Nat :=
  if smsIsLenIn8bit dcs then len else (len * 7 + 7) / 8

/-- `smsHexCharToDecInt`, with the value of the digits before. -/
def hexCharsToDecInt (value : Int) : List Char → Int
  | [] => value
  | c :: hex =>
    match hexValue c with
    | some digit => hexCharsToDecInt (value * 16 + digit) hex
    | none => -1

/-- `smsHexCharToDecInt` -/
def smsHexCharToDecInt (hex : List Char) (length : Nat) : Int := hexCharsToDecInt 0 (hex.take length)

/-! ## What the fields tell -/

/-- A message is not longer in octets than the length that is announced. -/
theorem smsMsgLenInOctet_le (dcs : BitVec 32) (len : Nat) : smsMsgLenInOctet dcs len ≤ len := by
  rw [smsMsgLenInOctet]
  split
  · exact Nat.le_refl _
  · omega

/-- The value of two digits. -/
theorem smsHexCharToDecInt_pair {text : List Char} {high low : Char} (h : IsHex (high :: low :: text)) :
    smsHexCharToDecInt (high :: low :: text) 2 =
      (UInt8.ofNat ((hexValue high).getD 0 * 16 + (hexValue low).getD 0)).toNat := by
  have hhigh := h high List.mem_cons_self
  have hlow := h low (List.mem_cons_of_mem _ List.mem_cons_self)
  obtain ⟨m, hm⟩ := Option.isSome_iff_exists.mp hhigh
  obtain ⟨n, hn⟩ := Option.isSome_iff_exists.mp hlow
  have hm' := RmcTlvNode.hexValue_lt hm
  have hn' := RmcTlvNode.hexValue_lt hn
  have hvalue : smsHexCharToDecInt (high :: low :: text) 2 = (0 * 16 + (m : Int)) * 16 + n := by
    simp only [smsHexCharToDecInt, List.take_succ_cons, List.take_zero, hexCharsToDecInt, hm, hn]
  rw [hvalue, hm, hn, Option.getD_some, Option.getD_some, UInt8.toNat_ofNat',
    Nat.mod_eq_of_lt (show m * 16 + n < 2 ^ 8 by omega)]
  omega

end MtkHw.Sms
