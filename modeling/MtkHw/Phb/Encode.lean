import MtkHw.Lib.Buffer
import MtkHw.Lib.Hex
import MtkHw.Lib.Text

/-!
# The phone book: names in commands

A name arrives as text, four hexadecimal digits for each character, and is put into the command
that writes the entry.  `requestWritePhbEntry` and `requestEditUPBEntry` first try to write the
characters one by one to an array; when that fails they try the encodings `81` and `82` of the SIM,
and at last they send the digits themselves.  In TC1 mode the characters are those of the GSM
alphabet, otherwise those below 128.

The arrays are memories with a size, and every access is checked: none is one outside the array.
The tables are those of a build without `ESC_SUPPORT`, which nothing in the repository defines.
-/

namespace MtkHw.Phb

open Lib Lib.Ring

/-! ## Characters -/

/-- The bytes of a literal. -/
def ascii (txt : List Char) : List UInt8 := txt.map fun c => UInt8.ofNat c.toNat

/-- `RIL_MAX_PHB_NAME_LEN` -/
def maxPhbNameLen : Nat := 40

/-- `RIL_MAX_PHB_EMAIL_LEN` -/
def maxPhbEmailLen : Nat := 60

/-- `RilPhbCpbwEncode` -/
inductive RilPhbCpbwEncode where
  | ira
  | ucs2
  | ucs281
  | ucs282
  | gsm7bit
deriving DecidableEq, Repr

/-- The number of the encoding. -/
def RilPhbCpbwEncode.toNat : RilPhbCpbwEncode → Nat
  | .ira => 0
  | .ucs2 => 1
  | .ucs281 => 2
  | .ucs282 => 3
  | .gsm7bit => 4

/-- `specialEncoding`: characters, and their codes in the GSM alphabet. -/
def specialEncoding : List (Nat × Nat) := [
  (0x0040, 0x00), (0x00A3, 0x01), (0x0024, 0x02), (0x00A5, 0x03), (0x00E8, 0x04), (0x00E9, 0x05),
  (0x00F9, 0x06), (0x00EC, 0x07), (0x00F2, 0x08), (0x00C7, 0x09), (0x0020, 0x20), (0x00D8, 0x0B),
  (0x00F8, 0x0C), (0x0020, 0x20), (0x00C5, 0x0E), (0x00E5, 0x0F), (0x0394, 0x10), (0x005F, 0x11),
  (0x03A6, 0x12), (0x0393, 0x13), (0x039B, 0x14), (0x03A9, 0x15), (0x03A0, 0x16), (0x03A8, 0x17),
  (0x03A3, 0x18), (0x0398, 0x19), (0x039E, 0x1A), (0x00C6, 0x1C), (0x00E6, 0x1D), (0x00DF, 0x1E),
  (0x00C9, 0x1F), (0x00A4, 0x24), (0x00A1, 0x40), (0x00C4, 0x5B), (0x00D6, 0x5C), (0x00D1, 0x5D),
  (0x00DC, 0x5E), (0x00A7, 0x5F), (0x00BF, 0x60), (0x00E4, 0x7B), (0x00F6, 0x7C), (0x00F1, 0x7D),
  (0x00FC, 0x7E), (0x00E0, 0x7F)]

/-- The characters of the GSM default alphabet by their codes; `FFFF` stands for the escape. -/
def languageChars : List Nat := [
  0x0040, 0x00A3, 0x0024, 0x00A5, 0x00E8, 0x00E9, 0x00F9, 0x00EC,
  0x00F2, 0x00C7, 0x000A, 0x00D8, 0x00F8, 0x000D, 0x00C5, 0x00E5,
  0x0394, 0x005F, 0x03A6, 0x0393, 0x039B, 0x03A9, 0x03A0, 0x03A8,
  0x03A3, 0x0398, 0x039E, 0xFFFF, 0x00C6, 0x00E6, 0x00DF, 0x00C9,
  0x0020, 0x0021, 0x0022, 0x0023, 0x00A4, 0x0025, 0x0026, 0x0027,
  0x0028, 0x0029, 0x002A, 0x002B, 0x002C, 0x002D, 0x002E, 0x002F,
  0x0030, 0x0031, 0x0032, 0x0033, 0x0034, 0x0035, 0x0036, 0x0037,
  0x0038, 0x0039, 0x003A, 0x003B, 0x003C, 0x003D, 0x003E, 0x003F,
  0x00A1, 0x0041, 0x0042, 0x0043, 0x0044, 0x0045, 0x0046, 0x0047,
  0x0048, 0x0049, 0x004A, 0x004B, 0x004C, 0x004D, 0x004E, 0x004F,
  0x0050, 0x0051, 0x0052, 0x0053, 0x0054, 0x0055, 0x0056, 0x0057,
  0x0058, 0x0059, 0x005A, 0x00C4, 0x00D6, 0x00D1, 0x00DC, 0x00A7,
  0x00BF, 0x0061, 0x0062, 0x0063, 0x0064, 0x0065, 0x0066, 0x0067,
  0x0068, 0x0069, 0x006A, 0x006B, 0x006C, 0x006D, 0x006E, 0x006F,
  0x0070, 0x0071, 0x0072, 0x0073, 0x0074, 0x0075, 0x0076, 0x0077,
  0x0078, 0x0079, 0x007A, 0x00E4, 0x00F6, 0x00F1, 0x00FC, 0x00E0]

/-- The characters of the extension table, and their codes behind the escape. -/
def extensionChars : List (Nat × UInt8) := [
  (0x000C, 10), (0x005E, 20), (0x007B, 40), (0x007D, 41), (0x005C, 47), (0x005B, 60), (0x007E, 61),
  (0x005D, 62), (0x007C, 64), (0x20AC, 101)]

/-- The digits of a character in lower case. -/
def lowerHex (c : Nat) : List UInt8 := (hexDigits 4 c).map lowerByte

/-- `languageTable` -/
def languageTable : List (List UInt8) := languageChars.map lowerHex

/-- `languageTableExt` -/
def languageTableExt : List (List UInt8) := extensionChars.map fun entry => lowerHex entry.1

/-- `gsm7bitValue` -/
def gsm7bitValue : List UInt8 := extensionChars.map Prod.snd

/-- `hexCharToDecInt` of four bytes of a string. -/
def hexCharToDecInt (hex : List UInt8) : Int :=
  match readHex hex with
  | some value => value
  | none => -1

/-- Compares the bytes with a row of a table, and puts them in lower case as far as it gets. -/
def matchRow : List UInt8 → List UInt8 → List UInt8 × Bool
  | b :: src, r :: row =>
      if lowerByte b ≠ r then (lowerByte b :: src, false)
      else (lowerByte b :: (matchRow src row).1, (matchRow src row).2)
  | src, _ => (src, true)

/-- The first row that is equal, from row `i` on. -/
def findRow : List (List UInt8) → Nat → List UInt8 → List UInt8 × Option Nat
  | [], _, src => (src, none)
  | row :: rows, i, src =>
      if (matchRow src row).2 then ((matchRow src row).1, some i)
      else findRow rows (i + 1) (matchRow src row).1

/-- `isMatchGsm7bit` -/
def isMatchGsm7bit (src : List UInt8) : List UInt8 × Option Nat := findRow languageTable 0 src

/-- `isGsm7bitExtension` -/
def isGsm7bitExtension (src : List UInt8) : List UInt8 × Option UInt8 :=
  let (src, i) := findRow languageTableExt 0 src
  (src, i.bind (gsm7bitValue[·]?))

/-! ## Character by character -/

/-- The text of a name, four bytes for each character. -/
def charsOf : List UInt8 → List (List UInt8)
  | a :: b :: c :: d :: rest => [a, b, c, d] :: charsOf rest
  | _ => []

/-- What is left of the digits, and the bytes that are written for the character; none breaks off
the loop. -/
def charBytes (tc1 : Bool) (hex : List UInt8) : List UInt8 × Option (List UInt8) :=
  if tc1 then
    match isMatchGsm7bit hex with
    | (hex, some tmp) => (hex, some [UInt8.ofNat tmp])
    | (hex, none) =>
        match isGsm7bitExtension hex with
        | (hex, some tmp) => (hex, some [0x1B, tmp])
        | (hex, none) => (hex, none)
  else if 128 ≤ hexCharToDecInt hex then (hex, none)
  else (hex, some [UInt8.ofInt (hexCharToDecInt hex)])

/-- What the loop over the characters leaves. -/
structure Packed where
  buf : Nat → UInt8
  /-- The text, of which the loop changes the case. -/
  line : List (List UInt8)
  /-- The loop has got to the end. -/
  complete : Bool
  asciiNotSupported : Bool

/-- The loop over the characters. -/
def packChars (tc1 : Bool) (size : Nat) (buf : Nat → UInt8) (j : Nat) (asciiNotSupported : Bool) :
    List (List UInt8) → Option Packed
  | [] => (store buf size j 0).map fun buf => ⟨buf, [], true, asciiNotSupported⟩
  | hex :: line =>
      match charBytes tc1 hex with
      | (hex, none) =>
          (store buf size j 0).map fun buf => ⟨buf, hex :: line, false, asciiNotSupported⟩
      | (hex, some bytes) => do
          let buf ← storeAll buf size j bytes
          let packed ← packChars tc1 size buf (j + bytes.length)
            (asciiNotSupported || !tc1 && hexCharToDecInt hex = 0x60) line
          some { packed with line := hex :: packed.line }

/-! ## The encodings of the SIM -/

/-- The code that the table has for the character. -/
def specialCode (c : Nat) : Option Nat :=
  (specialEncoding.find? fun entry => c = entry.1).map Prod.snd

/-- Characters below 128 that the GSM default alphabet does not have. -/
def unsupportedChars : List Nat :=
  [0x0020, 0x005E, 0x007B, 0x007D, 0x005B, 0x007E, 0x005D, 0x005C, 0x007C]

/-- The `unsigned short` that four digits are read as. -/
def alphaChar (hex : List UInt8) : Nat := (hexCharToDecInt hex % 65536).toNat

/-- `tmpAlphaId`, which has room for so many characters and gets a zero behind them. -/
def fillAlphaId (room : Nat) (src : List (List UInt8)) : Option (List Nat) :=
  if src.length < room then some (src.map alphaChar) else none

/-- The base that no character has set. -/
def noBase : Nat := 0xFF000000

/-- `RIL_PHB_UCS2_81_MASK` -/
def ucs281Mask : Nat := 0x7F80

/-- A turn of the loop in `encodeUCS2_0x81`: the base, and what replaces the character; none is the
return of zero, at once or because the loop breaks off. -/
def code81 (base c : Nat) : Option (Nat × Nat) :=
  if c &&& 0x8000 ≠ 0 then none
  else
    match specialCode c with
    | some code => some (base, code)
    | none =>
        if c < 0x80 then
          if c ∈ unsupportedChars then none
          else if c = 0x60 then if base = noBase then some (0, 0xE0) else none
          else some (base, c)
        else
          let base := if base = noBase then c &&& ucs281Mask else base
          if 0x80 ≤ c ^^^ base then none else some (base, c ^^^ base ||| 0x80)

/-- The loop in `encodeUCS2_0x81`. -/
def codes81 : Nat → List Nat → Option (Nat × List Nat)
  | base, [] => some (base, [])
  | base, c :: cs => do
      let (base, code) ← code81 base c
      let (base, codes) ← codes81 base cs
      some (base, code :: codes)

/-- `min` and `max` after another character; none stands for -1. -/
def widen (range : Option (Nat × Nat)) (c : Nat) : Nat × Nat :=
  match range with
  | none => (c, c)
  | some (min, max) => if c < min then (c, max) else if max < c then (min, c) else (min, max)

/-- The first loop in `encodeUCS2_0x82`: the least and the greatest character that need the base. -/
def range82 : Option (Nat × Nat) → List Nat → Option (Option (Nat × Nat))
  | range, [] => some range
  | range, c :: cs =>
      if (specialCode c).isSome then range82 range cs
      else if c < 0x80 ∧ c ≠ 0x60 then
        if c ∈ unsupportedChars then none else range82 range cs
      else range82 (some (widen range c)) cs

/-- A turn of the second loop in `encodeUCS2_0x82`. -/
def code82 (base c : Nat) : Nat :=
  match specialCode c with
  | some code => code
  | none => if c < 0x80 ∧ c ≠ 0x60 then c else (c + 65536 - base) % 65536 ||| 0x80

/-- The base and the codes of `encodeUCS2_0x82`. -/
def codes82 (cs : List Nat) : Option (Nat × List Nat) := do
  let (min, max) := (← range82 none cs).getD (0, 0)
  if 128 ≤ max - min then none else some (min, cs.map (code82 min))

/-- The loop that writes the codes: where it gets to, and how many codes have taken two bytes. -/
def writeCodes (size : Nat) :
    (Nat → UInt8) → Nat → Nat → List Nat → Option ((Nat → UInt8) × Nat × Nat)
  | des, p, extra, [] => some (des, p, extra)
  | des, p, extra, code :: codes =>
      if code &&& 0xFF00 ≠ 0x1B00 then do
        let des ← sprintfAt des size p (formatHex 2 code)
        writeCodes size des (p + 2) extra codes
      else do
        let des ← sprintfAt des size p (formatHex 4 code)
        writeCodes size des (p + 4) (extra + 1) codes

/-- The header is printed, the codes are written from `start` on, and their number in the header is
corrected when some take two bytes. -/
def makeUp (des : Nat → UInt8) (size : Nat) (header : List UInt8) (start : Nat) (codes : List Nat) :
    Option ((Nat → UInt8) × Nat) := do
  let des ← sprintfAt des size 0 header
  let (des, p, extra) ← writeCodes size des start 0 codes
  let realLen := extra + codes.length
  let des ←
    if codes.length < realLen then do
      let des ← store des size 2 (hexDigit (realLen / 16))
      store des size 3 (hexDigit (realLen % 16))
    else some des
  let des ← store des size p 0
  some (des, realLen)

/-- `81`, the number of the codes and the base, of which seven digits are printed when it is not
set. -/
def header81 (base len : Nat) : List UInt8 :=
  ascii ['8', '1'] ++ formatHex 2 len ++ formatHex 2 (base >>> 7)

/-- `82`, the number of the codes and the base. -/
def header82 (base len : Nat) : List UInt8 :=
  ascii ['8', '2'] ++ formatHex 2 len ++ formatHex 4 base

/-- `encodeUCS2_0x81` -/
def encodeUCS2_0x81 (src : List (List UInt8)) (des : Nat → UInt8) (size maxLen : Nat) :
    Option ((Nat → UInt8) × Nat) := do
  let tmpAlphaId ← fillAlphaId (maxPhbNameLen + 3 + 1) src
  let len := tmpAlphaId.length
  if len ≤ 3 then some (des, 0)
  else if maxLen < (len + 3) * 2 + 1 then some (des, 0)
  else
    match codes81 noBase tmpAlphaId with
    | none => some (des, 0)
    | some (base, codes) => makeUp des size (header81 base len) 6 codes

/-- `encodeUCS2_0x82` -/
def encodeUCS2_0x82 (src : List (List UInt8)) (des : Nat → UInt8) (size maxLen : Nat) :
    Option ((Nat → UInt8) × Nat) := do
  let tmpAlphaId ← fillAlphaId (maxPhbNameLen + 4 + 1) src
  let len := tmpAlphaId.length
  if len ≤ 4 then some (des, 0)
  else if maxLen < (len + 4) * 2 + 1 then some (des, 0)
  else
    match codes82 tmpAlphaId with
    | none => some (des, 0)
    | some (base, codes) => makeUp des size (header82 base len) 8 codes

/-! ## Escapes -/

/-- The loop that writes the text again with `code` for the byte `key`; it breaks off at the end of
the array. -/
def escapeLoop (size : Nat) (key : UInt8) (code : List UInt8) :
    (Nat → UInt8) → Nat → List UInt8 → Option ((Nat → UInt8) × Nat)
  | buf, j, [] => some (buf, j)
  | buf, j, b :: temp =>
      if b = key then
        if j + 2 < size - 1 then do
          let buf ← storeAll buf size j code
          if j + code.length = size - 1 then some (buf, j + code.length)
          else escapeLoop size key code buf (j + code.length) temp
        else some (buf, j)
      else do
        let buf ← store buf size j b
        if j + 1 = size - 1 then some (buf, j + 1) else escapeLoop size key code buf (j + 1) temp

/-- The string in the array is copied to `temp` and written again. -/
def escapeWith (size : Nat) (key : UInt8) (code : List UInt8) (buf : Nat → UInt8) :
    Option (Nat → UInt8) := do
  let temp ← strAt buf size 0
  let (buf, j) ← escapeLoop size key code buf 0 temp
  store buf size j 0

/-- `\` -/
def backslash : UInt8 := 0x5C

/-- `"` -/
def quote : UInt8 := 0x22

/-- `\5c` -/
def backslashCode : List UInt8 := [0x5C, 0x35, 0x63]

/-- `\22` -/
def quoteCode : List UInt8 := [0x5C, 0x32, 0x32]

/-! ## Requests -/

/-- A name is put into an array of `size` bytes that holds zeros. -/
def packName (tc1 : Bool) (size : Nat) (try82 : Bool) (line : List UInt8) :
    Option ((Nat → UInt8) × RilPhbCpbwEncode) := do
  let packed ← packChars tc1 size (fun _ => 0) 0 false (charsOf line)
  let line := packed.line.flatten
  if !packed.complete || packed.asciiNotSupported then
    let (buf, n) ← encodeUCS2_0x81 packed.line packed.buf size size
    if n ≠ 0 then some (buf, .ucs281)
    else
      let (buf, n) ← if try82 then encodeUCS2_0x82 packed.line buf size size else some (buf, 0)
      if n ≠ 0 then some (buf, .ucs282)
      else (storeAll buf size 0 (line.take size)).map fun buf => (buf, .ucs2)
  else if tc1 then (storeAll packed.buf size 0 (line.take size)).map fun buf => (buf, .gsm7bit)
  else
    let buf ← escapeWith size backslash backslashCode packed.buf
    let buf ← escapeWith size quote quoteCode buf
    some (buf, .ira)

/-- `RIL_Errno`, as far as it is answered before a command is sent. -/
inductive RilErrno where
  | genericFailure
  | textStringTooLong
deriving DecidableEq, Repr

/-- What a request comes to. -/
inductive PhbOutcome where
  | error (ret : RilErrno)
  | command (cmd : List UInt8)
deriving DecidableEq, Repr

/-- `%d` -/
def decimal (i : Int) : List UInt8 := ascii (formatInt i)

/-- The fields of `RIL_PhbEntryStructure` that the command is made of. -/
structure RilPhbEntry where
  index : Int
  number : Option (List UInt8)
  ton : Int
  alphaId : Option (List UInt8)

/-- `AT+EPBW=%d, "%s", %d, "%s", 0, %d` -/
def epbwCommand (index : Int) (number : List UInt8) (ton : Int) (alphaId : List UInt8)
    (encodeMethod : RilPhbCpbwEncode) : List UInt8 :=
  ascii ['A', 'T', '+', 'E', 'P', 'B', 'W', '='] ++ decimal index ++ ascii [',', ' ', '"'] ++
    number ++ ascii ['"', ',', ' '] ++ decimal ton ++ ascii [',', ' ', '"'] ++ alphaId ++
    ascii ['"', ',', ' ', '0', ',', ' '] ++ decimal encodeMethod.toNat

/-- The size of `alphaId`, and of `str` for a name. -/
def nameSize : Nat := maxPhbNameLen * 4 + 4 + 1

/-- The size of `str` for an e-mail address. -/
def emailSize : Nat := maxPhbEmailLen * 4 + 4 + 1

/-- `requestWritePhbEntry`, up to the command; `selected` is what `selectPhbStorage` returns. -/
def requestWritePhbEntry (tc1 selected : Bool) (entry : RilPhbEntry) : Option PhbOutcome :=
  if !selected then some (.error .genericFailure)
  else if entry.alphaId.isNone ∧ entry.number.isNone then
    some (.command (ascii ['A', 'T', '+', 'E', 'P', 'B', 'W', '='] ++ decimal entry.index))
  else
    let line := entry.alphaId.getD []
    let number := entry.number.getD []
    if line.length = 0 ∧ number.length = 0 then some (.error .genericFailure)
    else if line.length % 4 ≠ 0 then some (.error .genericFailure)
    else if maxPhbNameLen * 4 < line.length then some (.error .textStringTooLong)
    else do
      let (buf, encodeMethod) ← packName tc1 nameSize true line
      let alphaId ← strAt buf nameSize 0
      some (.command (epbwCommand entry.index number entry.ton alphaId encodeMethod))

/-- The texts with commas between them, behind `AT+EPBUM=2,`. -/
def epbumCommand (fields : List (List UInt8)) : List UInt8 :=
  ascii ['A', 'T', '+', 'E', 'P', 'B', 'U', 'M', '=', '2', ','] ++ joinWith 0x2C fields

/-- The text in quotation marks. -/
def quoted (txt : List UInt8) : List UInt8 := quote :: txt ++ [quote]

/-- The text of a field of at most `maxLen` characters, and its encoding. -/
def packField (tc1 : Bool) (size maxLen : Nat) (line : List UInt8)
    (command : List UInt8 → RilPhbCpbwEncode → List UInt8) : Option PhbOutcome :=
  if line.length = 0 then some (.error .genericFailure)
  else if line.length % 4 ≠ 0 then some (.error .genericFailure)
  else if maxLen * 4 < line.length then some (.error .textStringTooLong)
  else do
    let (buf, encodeMethod) ← packName tc1 size false line
    let str ← strAt buf size 0
    some (.command (command str encodeMethod))

/-- `requestEditUPBEntry`, up to the command. -/
def requestEditUPBEntry (tc1 : Bool) (params : List (List UInt8)) : Option PhbOutcome := do
  let kind ← params[0]?
  if kind = ascii ['4'] ∨ kind = ascii ['3'] ∨ kind = ascii ['2'] then
    let line ← params[3]?
    let p1 ← params[1]?
    let p2 ← params[2]?
    packField tc1 nameSize maxPhbNameLen line fun str encodeMethod =>
      epbumCommand [kind, p2, p1, quoted str, decimal encodeMethod.toNat]
  else if kind = ascii ['1'] then
    let line ← params[3]?
    let p1 ← params[1]?
    let p2 ← params[2]?
    packField tc1 emailSize maxPhbEmailLen line fun str _ => epbumCommand [kind, p2, p1, quoted str]
  else if 4 < params.length ∧ kind = ascii ['0'] then
    let p1 ← params[1]?
    let p2 ← params[2]?
    let p3 ← params[3]?
    let p4 ← params[4]?
    let p5 ← params[5]?
    some (.command (epbumCommand [kind, p2, p1, quoted p3, p4, p5]))
  else some (.command [])

end MtkHw.Phb
