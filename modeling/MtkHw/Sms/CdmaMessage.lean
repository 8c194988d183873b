import MtkHw.Sms.CdmaAddress
import MtkHw.Sms.CdmaBearer

/-!
# Messages from the modem

`toMessage` converts the text of a message: two digits for its type, and then nodes, one after the
other, whose values it copies into a `RIL_CDMA_SMS_Message`.  Lengths and counts in the text are taken
as they are.
-/

namespace MtkHw.Sms

open Lib

/-! ## The message -/

/-- `RIL_CDMA_SMS_SUBADDRESS_MAX` -/
def rilCdmaSmsSubaddressMax : Nat := 36
/-- `RIL_CDMA_SMS_BEARER_DATA_MAX` -/
def rilCdmaSmsBearerDataMax : Nat := 255

/-- `RIL_CDMA_SMS_Subaddress` -/
structure RilCdmaSmsSubaddress where
  subaddressType : Nat
  odd : UInt8
  numberOfDigits : UInt8
  digits : List UInt8
  digits_length : digits.length = rilCdmaSmsSubaddressMax

/-- `RIL_CDMA_SMS_Message` -/
structure RilCdmaSmsMessage where
  uTeleserviceID : Int
  bIsServicePresent : Bool
  uServicecategory : Int
  sAddress : RilCdmaSmsAddress
  sSubAddress : RilCdmaSmsSubaddress
  uBearerDataLen : Nat
  aBearerData : List UInt8
  aBearerData_length : aBearerData.length = rilCdmaSmsBearerDataMax

/-- `memset(pMessage, 0, sizeof(RIL_CDMA_SMS_Message))` -/
def RilCdmaSmsMessage.zero : RilCdmaSmsMessage where
  uTeleserviceID := 0
  bIsServicePresent := false
  uServicecategory := 0
  sAddress := ⟨.fourBit, .notDataNetwork, 0, 0, 0, List.replicate rilCdmaSmsAddressMax 0,
    List.length_replicate⟩
  sSubAddress := ⟨0, 0, 0, List.replicate rilCdmaSmsSubaddressMax 0, List.length_replicate⟩
  uBearerDataLen := 0
  aBearerData := List.replicate rilCdmaSmsBearerDataMax 0
  aBearerData_length := List.length_replicate

/-- `subAddr.digits[i] = digit` -/
def RilCdmaSmsSubaddress.setDigit (subAddr : RilCdmaSmsSubaddress) (i : Nat) (digit : UInt8) :
    Except CdmaFault RilCdmaSmsSubaddress :=
  if i < rilCdmaSmsSubaddressMax then
    .ok { subAddr with
      digits := subAddr.digits.set i digit
      digits_length := by rw [List.length_set, subAddr.digits_length] }
  else .error .store

/-! ## The nodes -/

namespace RmcTlvNode

/-- The constructors that take a text and check the tag. -/
def ofHexTagged (tags : List Nat) (text : List Char) (p len : Nat) : Except CdmaFault RmcTlvNode := do
  let node ← ofHex text p len
  return { node with error := if node.tag ∉ tags then true else node.error }

/-- `m_value[i]` -/
def valueAt (node : RmcTlvNode) (i : Nat) : Except CdmaFault UInt8 :=
  match node.value[i]? with
  | some octet => .ok octet
  | none => .error .range

/-- Two octets as a number. -/
def wordAt (node : RmcTlvNode) : Except CdmaFault Int :=
  if node.error then .ok (-1)
  else do
    let high ← node.valueAt 0
    let low ← node.valueAt 1
    return (high.toNat <<< 8 ||| low.toNat : Nat)

end RmcTlvNode

/-- `TeleServiceId(hexPdu, len)` -/
def teleServiceIdOfHex := RmcTlvNode.ofHexTagged [0x00]
/-- `ServiceCategory(hexPdu, len)` -/
def serviceCategoryOfHex := RmcTlvNode.ofHexTagged [0x01]
/-- `CdmaSmsSubAddress(hexPdu, len)` -/
def cdmaSmsSubAddressOfHex := RmcTlvNode.ofHexTagged [0x03, 0x05]
/-- `BearerReplyOpt(hexPdu, len)` -/
def bearerReplyOptOfHex := RmcTlvNode.ofHexTagged [0x06]
/-- `CauseCode(hexPdu, len)` -/
def causeCodeOfHex := RmcTlvNode.ofHexTagged [0x07]
/-- `BearerData(hexPdu, len)` -/
def bearerDataOfHex := RmcTlvNode.ofHexTagged [0x08]

/-- `TeleServiceId::CT_WAP_PUSH_TID` -/
def ctWapPushTid : Int := 0xFDEA

def getTeleServiceId (node : RmcTlvNode) : Except CdmaFault Int := node.wordAt

def isCtWapPush (node : RmcTlvNode) : Except CdmaFault Bool := do
  return (← getTeleServiceId node) == ctWapPushTid

def getServiceCategory (node : RmcTlvNode) : Except CdmaFault Int := node.wordAt

/-- `getSubAddr(subAddr)`, without what it returns. -/
def getSubAddr (node : RmcTlvNode) (subAddr : RilCdmaSmsSubaddress) :
    Except CdmaFault RilCdmaSmsSubaddress :=
  if node.error then .ok subAddr
  else do
    let (subaddressType, body) ← (BitwiseInputStream.init node.value).read 3
    let subAddr := { subAddr with subaddressType := subaddressType.toNat }
    if subAddr.subaddressType > 1 then return subAddr
    let (odd, body) ← body.read 1
    let (numberOfDigits, body) ← body.read 8
    let subAddr := { subAddr with odd, numberOfDigits }
    if numberOfDigits.toNat > rilCdmaSmsSubaddressMax then return subAddr
    let (subAddr, _) ← (List.range numberOfDigits.toNat).foldlM
      (BitwiseInputStream.readMany (fun _ => 8) RilCdmaSmsSubaddress.setDigit) (subAddr, body)
    return subAddr

def getReplySeq (node : RmcTlvNode) : Except CdmaFault Int :=
  if node.error then .ok (-1)
  else do
    let octet ← node.valueAt 0
    return ((octet >>> 2 &&& 0x3F).toNat : Int)

/-- Octets are stored in `aBearerData`. -/
def RilCdmaSmsMessage.setBearerData (message : RilCdmaSmsMessage) (octets : List UInt8) (len : Nat) :
    Except CdmaFault RilCdmaSmsMessage :=
  if h : octets.length ≤ rilCdmaSmsBearerDataMax then
    .ok { message with
      uBearerDataLen := len
      aBearerData := octets ++ message.aBearerData.drop octets.length
      aBearerData_length := by
        rw [List.length_append, List.length_drop, message.aBearerData_length]
        omega }
  else .error .store

/-- `getBearerData(isCtWap, aBearerData, &uBearerDataLen)`, when the loops go round at most `turns`
times. -/
def getBearerData (turns : Nat) (node : RmcTlvNode) (isCtWap : Bool) (message : RilCdmaSmsMessage) :
    Except CdmaFault RilCdmaSmsMessage :=
  if node.error then .ok message
  else if isCtWap then
    match specialProcessForCtWapPush turns node.value with
    | some (.ok target) => message.setBearerData target target.length
    | some (.error fault) => .error fault
    | none => .error .running
  else message.setBearerData node.value node.length

/-! ## The conversion -/

/-- Where the conversion is, and what it has found. -/
structure MessageState where
  /-- `p - q` -/
  p : Nat
  isCtWapPush : Bool
  message : RilCdmaSmsMessage
  /-- `*pReplySeqNo` -/
  replySeqNo : Int

/-- `strtol(…, NULL, 16)` on a text of digits. -/
def strtol16 (text : List Char) : Nat :=
  (text.takeWhile fun c => (hexValue c).isSome).foldl (fun n c => n * 16 + (hexValue c).getD 0) 0

/-- The node with the given tag and length is converted. -/
def convertNode (turns : Nat) (text : List Char) (tag : List Char) (len : Nat) (s : MessageState) :
    Option (Except CdmaFault MessageState) :=
  if tag = ['0', '0'] then some do
    let node ← teleServiceIdOfHex text s.p len
    let isCtWapPush ← isCtWapPush node
    let id ← if isCtWapPush then pure 0x1004 else getTeleServiceId node
    return { s with isCtWapPush, message := { s.message with uTeleserviceID := id } }
  else if tag = ['0', '1'] then some do
    let node ← serviceCategoryOfHex text s.p len
    let category ← getServiceCategory node
    return { s with
      message := { s.message with bIsServicePresent := true, uServicecategory := category } }
  else if tag = ['0', '2'] then some do
    let node ← CdmaSmsAddress.ofHex text s.p len
    let (_, sAddress) ← node.getAddress s.message.sAddress
    return { s with message := { s.message with sAddress } }
  else if tag = ['0', '3'] then some do
    let node ← cdmaSmsSubAddressOfHex text s.p len
    let sSubAddress ← getSubAddr node s.message.sSubAddress
    return { s with message := { s.message with sSubAddress } }
  else if tag = ['0', '4'] then some do
    let _ ← CdmaSmsAddress.ofHex text s.p len
    return s
  else if tag = ['0', '5'] then some do
    let _ ← cdmaSmsSubAddressOfHex text s.p len
    return s
  else if tag = ['0', '6'] then some do
    let node ← bearerReplyOptOfHex text s.p len
    return { s with replySeqNo := ← getReplySeq node }
  else if tag = ['0', '7'] then some do
    let _ ← causeCodeOfHex text s.p len
    return s
  else if tag = ['0', '8'] then some do
    let node ← bearerDataOfHex text s.p len
    return { s with message := ← getBearerData turns node s.isCtWapPush s.message }
  else none

/-- A turn of the loop over the nodes. -/
def messageTurn (turns : Nat) (text : List Char) (s : MessageState) :
    MessageState ⊕ Except CdmaFault MessageState :=
  if s.p + 4 < text.length then
    let len := strtol16 ((text.drop (s.p + 2)).take 2) * 2 + 4
    match convertNode turns text ((text.drop s.p).take 2) len s with
    | none => .inr (.ok s)
    | some (.error fault) => .inr (.error fault)
    | some (.ok s') => .inl { s' with p := s.p + len }
  else .inr (.ok s)

/-- `toMessage`, when the loops go round at most `turns` times: `none` when they need more, and
otherwise what is found, unless the text is refused at once. -/
def toMessage (turns : Nat) (text : List Char) : Option (Except CdmaFault (Option MessageState)) :=
  if text.length % 2 ≠ 0 ∨ text.length < 2 then some (.ok none)
  else (loop (messageTurn turns text) turns ⟨2, false, .zero, -1⟩).map fun r => r.map some

/-- The conversion comes to its end, and nothing goes wrong. -/
def MessageSafe (text : List Char) : Prop := ∃ turns r, toMessage turns text = some (.ok r)

end MtkHw.Sms
