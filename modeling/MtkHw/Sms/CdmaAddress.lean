import MtkHw.Sms.CdmaNode

/-!
# Addresses of a CDMA message

`CdmaSmsAddress` packs an address into a stream of bits: the modes, in 8-bit mode a type and for some
networks a plan, the number of digits, and the digits, four or eight bits each.  The stream is padded
to whole octets.  `getAddress` reads it back.

`addressFields` is the layout that the two have in common.  `cdmaSmsAddress_roundTrip` is the result:
an address that is packed, written as text and read again is the same.
-/

namespace MtkHw.Sms

open Lib

/-! ## Addresses -/

/-- `RIL_CDMA_SMS_ADDRESS_MAX` -/
def rilCdmaSmsAddressMax : Nat := 36

/-- `RIL_CDMA_SMS_DigitMode` -/
inductive DigitMode where
  | /-- `RIL_CDMA_SMS_DIGIT_MODE_4_BIT` -/ fourBit
  | /-- `RIL_CDMA_SMS_DIGIT_MODE_8_BIT` -/ eightBit
deriving DecidableEq, Repr

/-- `RIL_CDMA_SMS_NumberMode` -/
inductive NumberMode where
  | /-- `RIL_CDMA_SMS_NUMBER_MODE_NOT_DATA_NETWORK` -/ notDataNetwork
  | /-- `RIL_CDMA_SMS_NUMBER_MODE_DATA_NETWORK` -/ dataNetwork
deriving DecidableEq, Repr

def DigitMode.toNat : DigitMode → Nat
  | .fourBit => 0
  | .eightBit => 1

def NumberMode.toNat : NumberMode → Nat
  | .notDataNetwork => 0
  | .dataNetwork => 1

/-- A mode that has been read as one bit. -/
def DigitMode.ofBit (bit : UInt8) : DigitMode := if bit = 0 then .fourBit else .eightBit

/-- A mode that has been read as one bit. -/
def NumberMode.ofBit (bit : UInt8) : NumberMode := if bit = 0 then .notDataNetwork else .dataNetwork

/-- `RIL_CDMA_SMS_Address` -/
structure RilCdmaSmsAddress where
  digitMode : DigitMode
  numberMode : NumberMode
  numberType : Nat
  numberPlan : Nat
  numberOfDigits : UInt8
  digits : List UInt8
  digits_length : digits.length = rilCdmaSmsAddressMax

namespace RilCdmaSmsAddress

/-- The number of bits of a digit: `size`. -/
def digitBits (addr : RilCdmaSmsAddress) : Nat :=
  match addr.digitMode with
  | .fourBit => 4
  | .eightBit => 8

/-- `addr.digits[i]` -/
def digit (addr : RilCdmaSmsAddress) (i : Nat) : Except CdmaFault UInt8 :=
  match addr.digits[i]? with
  | some digit => .ok digit
  | none => .error .range

/-- `addr.digits[i] = digit` -/
def setDigit (addr : RilCdmaSmsAddress) (i : Nat) (digit : UInt8) :
    Except CdmaFault RilCdmaSmsAddress :=
  if i < rilCdmaSmsAddressMax then
    .ok { addr with
      digits := addr.digits.set i digit
      digits_length := by rw [List.length_set, addr.digits_length] }
  else .error .store

end RilCdmaSmsAddress

/-! ## The node of an address -/

/-- `CdmaSmsAddress`, with `m_number`. -/
structure CdmaSmsAddress extends RmcTlvNode where
  number : List UInt8

namespace CdmaSmsAddress

def origAddress : Nat := 0x02
def destAddress : Nat := 0x04

def dtmf2Char (dtmf : UInt8) : UInt8 :=
  if dtmf > 0 ∧ dtmf ≤ 9 then dtmf + 48
  else if dtmf = 10 then 48
  else if dtmf = 11 then 42
  else if dtmf = 12 then 35
  else 0

/-- The fields in front of the digits. -/
def writeHeader (addr : RilCdmaSmsAddress) (body : BitwiseOutputStream) :
    Except CdmaFault BitwiseOutputStream := do
  let body ← body.write 1 addr.digitMode.toNat
  let body ← body.write 1 addr.numberMode.toNat
  let body ←
    if addr.digitMode = .eightBit then do
      let body ← body.write 3 addr.numberType
      if addr.numberMode = .notDataNetwork then body.write 4 addr.numberPlan else pure body
    else pure body
  body.write 8 addr.numberOfDigits.toNat

/-- A digit is written, and a DTMF digit replaced by its character. -/
def writeDigit (body : BitwiseOutputStream) (addr : RilCdmaSmsAddress) (i : Nat) :
    Except CdmaFault (BitwiseOutputStream × RilCdmaSmsAddress) := do
  let digit ← addr.digit i
  let body ← body.write addr.digitBits digit.toNat
  let addr ← if addr.digitMode = .fourBit then addr.setDigit i (dtmf2Char digit) else pure addr
  return (body, addr)

/-- What is written of an address, without the padding. -/
def writeBody (addr : RilCdmaSmsAddress) :
    Except CdmaFault (BitwiseOutputStream × RilCdmaSmsAddress) := do
  let body ← writeHeader addr (BitwiseOutputStream.init (40 * 8))
  (List.range addr.numberOfDigits.toNat).foldlM (fun s i => writeDigit s.1 s.2 i) (body, addr)

/-- The number of bits that pad a stream to whole octets. -/
def paddingBits (body : BitwiseOutputStream) : Nat := (body.getByteLen <<< 3) - body.pos

/-- `CdmaSmsAddress(addr, isMo)`, and what it leaves of `addr`. -/
def ofAddress (addr : RilCdmaSmsAddress) (isMo : Bool) :
    Except CdmaFault (CdmaSmsAddress × RilCdmaSmsAddress) := do
  let (body, addr) ← writeBody addr
  let length := body.getByteLen
  let body ← body.write (paddingBits body) 0
  return ({
    tag := if isMo then destAddress else origAddress, length
    value := body.buf.take length, error := false
    number := addr.digits.take addr.numberOfDigits.toNat }, addr)

/-- `CdmaSmsAddress(hexPdu, len)` -/
def ofHex (text : List Char) (p len : Nat) : Except CdmaFault CdmaSmsAddress := do
  let node ← RmcTlvNode.ofHex text p len
  return {
    node with
    number := []
    error := if node.tag ≠ origAddress ∧ node.tag ≠ destAddress then true else node.error }

/-- The fields in front of the digits. -/
def readHeader (addr : RilCdmaSmsAddress) (body : BitwiseInputStream) :
    Except CdmaFault (RilCdmaSmsAddress × BitwiseInputStream) := do
  let (digitMode, body) ← body.read 1
  let (numberMode, body) ← body.read 1
  let addr := { addr with
    digitMode := .ofBit digitMode, numberMode := .ofBit numberMode }
  let (addr, body) ←
    if addr.digitMode = .eightBit then
      if addr.numberMode = .dataNetwork then do
        let (numberType, body) ← body.read 3
        pure ({ addr with numberType := numberType.toNat }, body)
      else do
        let (numberType, body) ← body.read 3
        let (numberPlan, body) ← body.read 4
        pure ({ addr with numberType := numberType.toNat, numberPlan := numberPlan.toNat }, body)
    else pure (addr, body)
  let (numberOfDigits, body) ← body.read 8
  return ({ addr with numberOfDigits }, body)

/-- A digit is read. -/
def readDigit (addr : RilCdmaSmsAddress) (body : BitwiseInputStream) (i : Nat) :
    Except CdmaFault (RilCdmaSmsAddress × BitwiseInputStream) := do
  let (digit, body) ← body.read addr.digitBits
  let addr ← addr.setDigit i digit
  return (addr, body)

/-- `getAddress(addr)`: what it returns, and what it leaves in `addr`. -/
def getAddress (node : CdmaSmsAddress) (addr : RilCdmaSmsAddress) :
    Except CdmaFault (Bool × RilCdmaSmsAddress) :=
  if node.error then .ok (false, addr)
  else do
    let (addr, body) ← readHeader addr (BitwiseInputStream.init node.value)
    let (addr, _) ← (List.range addr.numberOfDigits.toNat).foldlM
      (fun s i => readDigit s.1 s.2 i) (addr, body)
    return (true, addr)

/-! ## The layout -/

/-- The fields in front of the digits. -/
def headerFields (addr : RilCdmaSmsAddress) : List Field :=
  [(1, addr.digitMode.toNat), (1, addr.numberMode.toNat)] ++
    (match addr.digitMode, addr.numberMode with
      | .fourBit, _ => []
      | .eightBit, .dataNetwork => [(3, addr.numberType)]
      | .eightBit, .notDataNetwork => [(3, addr.numberType), (4, addr.numberPlan)]) ++
    [(8, addr.numberOfDigits.toNat)]

/-- The fields of some digits. -/
def digitFields (addr : RilCdmaSmsAddress) (digits : List UInt8) : List Field :=
  digits.map fun digit => (addr.digitBits, digit.toNat)

/-- All the fields of an address. -/
def addressFields (addr : RilCdmaSmsAddress) : List Field :=
  headerFields addr ++ digitFields addr (addr.digits.take addr.numberOfDigits.toNat)

theorem bitLength_digitFields (addr : RilCdmaSmsAddress) (digits : List UInt8) :
    bitLength (digitFields addr digits) = addr.digitBits * digits.length := by
  induction digits with
  | nil => rfl
  | cons digit digits ih =>
    rw [digitFields, List.map_cons, bitLength_cons, ← digitFields, ih, List.length_cons, Nat.mul_succ]
    exact Nat.add_comm _ _

theorem digitBits_bounds (addr : RilCdmaSmsAddress) : 0 < addr.digitBits ∧ addr.digitBits ≤ 8 := by
  unfold RilCdmaSmsAddress.digitBits
  cases addr.digitMode <;> decide

/-- A header takes ten, thirteen or seventeen bits. -/
theorem bitLength_headerFields (addr : RilCdmaSmsAddress) :
    (addr.digitBits = 4 ∧ bitLength (headerFields addr) = 10) ∨
      (addr.digitBits = 8 ∧ (bitLength (headerFields addr) = 13 ∨
        bitLength (headerFields addr) = 17)) := by
  unfold headerFields RilCdmaSmsAddress.digitBits
  cases addr.digitMode with
  | fourBit => exact .inl ⟨rfl, rfl⟩
  | eightBit =>
    cases addr.numberMode with
    | dataNetwork => exact .inr ⟨rfl, .inl rfl⟩
    | notDataNetwork => exact .inr ⟨rfl, .inr rfl⟩

theorem headerFields_bounds (addr : RilCdmaSmsAddress) :
    ∀ field ∈ headerFields addr, 0 < field.1 ∧ field.1 ≤ 8 := by
  unfold headerFields
  cases addr.digitMode <;> cases addr.numberMode <;> simp

section Packing

variable {addr : RilCdmaSmsAddress}

theorem length_take_digits (h : addr.numberOfDigits.toNat ≤ rilCdmaSmsAddressMax) :
    (addr.digits.take addr.numberOfDigits.toNat).length = addr.numberOfDigits.toNat := by
  rw [List.length_take, addr.digits_length, Nat.min_eq_left h]

/-! ## Writing -/

theorem writeHeader_eq (body : BitwiseOutputStream) :
    writeHeader addr body = body.writeAll (headerFields addr) := by
  unfold writeHeader headerFields BitwiseOutputStream.writeAll
  cases addr.digitMode with
  | fourBit => simp [List.foldlM]
  | eightBit => cases addr.numberMode <;> simp [List.foldlM]

/-- What the loop over the digits has written, and has left of the address. -/
theorem writeDigits_spec {body : BitwiseOutputStream} (hbody : body.Has (headerFields addr))
    (hend : body.endPos = 2560) {n : Nat} (hn : n ≤ rilCdmaSmsAddressMax) :
    ∃ body' addr', (List.range n).foldlM (fun s i => writeDigit s.1 s.2 i) (body, addr) =
        Except.ok (body', addr') ∧
      body'.Has (headerFields addr ++ digitFields addr (addr.digits.take n)) ∧
      body'.endPos = 2560 ∧ addr'.digitMode = addr.digitMode ∧
      ∀ j ≥ n, addr'.digits[j]? = addr.digits[j]? := by
  induction n with
  | zero =>
    refine ⟨body, addr, rfl, ?_, hend, rfl, fun _ _ => rfl⟩
    rw [List.take_zero]
    exact (List.append_nil (headerFields addr)).symm ▸ hbody
  | succ n ih =>
    obtain ⟨body', addr', hloop, hhas, hend', hmode, hrest⟩ := ih (Nat.le_of_succ_le hn)
    have hlt : n < addr.digits.length := by
      rw [addr.digits_length]
      exact hn
    have hbits : addr'.digitBits = addr.digitBits := by
      rw [RilCdmaSmsAddress.digitBits, hmode]
      rfl
    have hdigit : addr'.digit n = .ok addr.digits[n] := by
      rw [RilCdmaSmsAddress.digit, hrest n (Nat.le_refl n), List.getElem?_eq_getElem hlt]
    obtain ⟨hpos, hle⟩ := digitBits_bounds addr
    have hroom : bitLength (headerFields addr ++ digitFields addr (addr.digits.take n)) +
        addr.digitBits < body'.endPos := by
      have hheader := bitLength_headerFields addr
      have hmax : n + 1 ≤ 36 := hn
      rw [hend', bitLength_append, bitLength_digitFields, List.length_take,
        Nat.min_eq_left (Nat.le_of_lt hlt)]
      rcases hheader with ⟨hsize, hlength⟩ | ⟨hsize, hlength | hlength⟩ <;>
        rw [hsize, hlength] <;> omega
    obtain ⟨body'', hwrite, hhas', hend''⟩ := hhas.write hpos hle hroom addr.digits[n].toNat
    have hfields : headerFields addr ++ digitFields addr (addr.digits.take n) ++
        [(addr.digitBits, addr.digits[n].toNat)] =
        headerFields addr ++ digitFields addr (addr.digits.take (n + 1)) := by
      rw [List.append_assoc, List.take_add_one, List.getElem?_eq_getElem hlt, digitFields, digitFields,
        List.map_append]
      rfl
    rw [hfields] at hhas'
    rw [List.range_succ, List.foldlM_append, hloop]
    simp only [List.foldlM_cons, List.foldlM_nil, writeDigit, hdigit, hbits, hwrite, bind, Except.bind,
      pure, Except.pure]
    by_cases hfour : addr'.digitMode = .fourBit
    · rw [if_pos hfour, RilCdmaSmsAddress.setDigit, if_pos (Nat.lt_of_succ_le hn)]
      refine ⟨_, _, rfl, hhas', hend''.trans hend', hmode, fun j hj => ?_⟩
      dsimp only
      rw [List.getElem?_set_ne (by omega)]
      exact hrest j (Nat.le_of_succ_le hj)
    · rw [if_neg hfour]
      exact ⟨_, _, rfl, hhas', hend''.trans hend', hmode, fun j hj => hrest j (Nat.le_of_succ_le hj)⟩

/-- The padding is from two to seven bits. -/
theorem paddingBits_bounds {body : BitwiseOutputStream} (hbody : body.Has (addressFields addr))
    (hn : addr.numberOfDigits.toNat ≤ rilCdmaSmsAddressMax) :
    1 ≤ paddingBits body ∧ paddingBits body ≤ 7 ∧
      bitLength (addressFields addr) + paddingBits body = 8 * body.getByteLen ∧
      1 ≤ body.getByteLen ∧ body.getByteLen ≤ 39 := by
  have hmax : addr.numberOfDigits.toNat ≤ 36 := hn
  have hpos := hbody.pos_eq
  rw [addressFields, bitLength_append, bitLength_digitFields, length_take_digits hn] at hpos
  rw [addressFields, bitLength_append, bitLength_digitFields, length_take_digits hn, paddingBits,
    BitwiseOutputStream.getByteLen_eq, Nat.shiftLeft_eq]
  rcases bitLength_headerFields addr with ⟨hsize, hlength⟩ | ⟨hsize, hlength | hlength⟩ <;>
    rw [hsize, hlength] at hpos ⊢ <;> omega

/-- The encoder trips no assertion, and packs the fields of the address. -/
theorem ofAddress_spec (hn : addr.numberOfDigits.toNat ≤ rilCdmaSmsAddressMax) (isMo : Bool) :
    ∃ body left node left', writeBody addr = .ok (body, left) ∧
      1 ≤ paddingBits body ∧ paddingBits body ≤ 7 ∧
      ofAddress addr isMo = .ok (node, left') ∧
      node.tag = (if isMo then destAddress else origAddress) ∧ node.error = false ∧
      1 ≤ node.length ∧ node.length ≤ 39 ∧ node.value.length = node.length ∧
      bitLength (addressFields addr) ≤ 8 * node.length ∧
      Carries node.value 0 (addressFields addr) := by
  obtain ⟨header, hheader, hhas, hend⟩ := (BitwiseOutputStream.has_init (40 * 8)).writeAll
    (headerFields_bounds addr) (by
      have := bitLength_headerFields addr
      rw [bitLength_nil, BitwiseOutputStream.init]
      dsimp only
      omega)
  obtain ⟨body, left, hloop, hbody, hend', -, -⟩ := writeDigits_spec hhas hend hn
  obtain ⟨hpad, hpad', hlength, hone, hmax⟩ := paddingBits_bounds hbody hn
  obtain ⟨padded, hwrite, hpadded, hend''⟩ := hbody.write hpad (Nat.le_succ_of_le hpad') (by
    rw [hend', ← addressFields]
    omega) 0
  have hwriteBody : writeBody addr = .ok (body, left) := by
    rw [writeBody, writeHeader_eq, hheader]
    exact hloop
  have hbuf : padded.buf.length = 320 := by
    have := hpadded.endPos_eq
    omega
  refine ⟨body, left, ⟨⟨if isMo then destAddress else origAddress, body.getByteLen,
    padded.buf.take body.getByteLen, false⟩, left.digits.take left.numberOfDigits.toNat⟩, left,
    hwriteBody, hpad, hpad', ?_, rfl, rfl, hone, hmax, ?_, ?_, ?_⟩
  · rw [ofAddress, hwriteBody]
    simp only [bind, Except.bind, hwrite]
    rfl
  · exact List.length_take_of_le (by omega)
  · exact Nat.le_of_add_right_le (Nat.le_of_eq hlength)
  · exact (Carries.append.mp hpadded.written.carries).1.take
      (Nat.le_of_add_right_le (Nat.le_of_eq hlength))

/-! ## Reading -/

/-- What an address and what is read of it have in common. -/
structure SameAddress (addr addr' : RilCdmaSmsAddress) : Prop where
  digitMode : addr'.digitMode = addr.digitMode
  numberMode : addr'.numberMode = addr.numberMode
  numberOfDigits : addr'.numberOfDigits = addr.numberOfDigits
  digits : ∀ i < addr.numberOfDigits.toNat, addr'.digits[i]? = addr.digits[i]?
  numberType : addr.digitMode = .eightBit → addr'.numberType = addr.numberType
  numberPlan : addr.digitMode = .eightBit → addr.numberMode = .notDataNetwork →
    addr'.numberPlan = addr.numberPlan

theorem ofBit_digitMode (mode : DigitMode) :
    DigitMode.ofBit (UInt8.ofNat (mode.toNat % 2 ^ 1)) = mode := by
  cases mode <;> rfl

theorem ofBit_numberMode (mode : NumberMode) :
    NumberMode.ofBit (UInt8.ofNat (mode.toNat % 2 ^ 1)) = mode := by
  cases mode <;> rfl

theorem ofNat_toNat_digits (n : UInt8) : UInt8.ofNat (n.toNat % 2 ^ 8) = n := by
  rw [Nat.mod_eq_of_lt n.toNat_lt, UInt8.ofNat_toNat]

/-- The header is read back, and the digits left in front. -/
theorem readHeader_spec (htype : addr.numberType < 8) (hplan : addr.numberPlan < 16)
    {body : BitwiseInputStream} {fields : List Field}
    (hbody : body.Ahead (headerFields addr ++ fields)) (addr₀ : RilCdmaSmsAddress) :
    ∃ addr' body', readHeader addr₀ body = .ok (addr', body') ∧ body'.Ahead fields ∧
      addr'.digitMode = addr.digitMode ∧ addr'.numberMode = addr.numberMode ∧
      addr'.numberOfDigits = addr.numberOfDigits ∧
      (addr.digitMode = .eightBit → addr'.numberType = addr.numberType) ∧
      (addr.digitMode = .eightBit → addr.numberMode = .notDataNetwork →
        addr'.numberPlan = addr.numberPlan) := by
  obtain ⟨digitMode, numberMode, numberType, numberPlan, numberOfDigits, digits, hdigits⟩ := addr
  dsimp only at htype hplan
  have htypeBits : (UInt8.ofNat (numberType % 2 ^ 3)).toNat = numberType := by
    rw [UInt8.toNat_ofNat']
    omega
  have hplanBits : (UInt8.ofNat (numberPlan % 2 ^ 4)).toNat = numberPlan := by
    rw [UInt8.toNat_ofNat']
    omega
  unfold headerFields at hbody
  unfold readHeader
  obtain ⟨body₁, hread₁, hbody₁⟩ := hbody.read (by decide) (by decide)
  obtain ⟨body₂, hread₂, hbody₂⟩ := hbody₁.read (by decide) (by decide)
  rw [hread₁]
  simp only [bind, Except.bind, hread₂, ofBit_digitMode, ofBit_numberMode]
  cases digitMode with
  | fourBit =>
    obtain ⟨body₃, hread₃, hbody₃⟩ := hbody₂.read (by decide) (by decide)
    rw [if_neg nofun]
    simp only [pure, Except.pure, hread₃, ofNat_toNat_digits]
    exact ⟨_, _, rfl, hbody₃, rfl, rfl, rfl, nofun, nofun⟩
  | eightBit =>
    rw [if_pos rfl]
    cases numberMode with
    | dataNetwork =>
      obtain ⟨body₃, hread₃, hbody₃⟩ := hbody₂.read (by decide) (by decide)
      obtain ⟨body₄, hread₄, hbody₄⟩ := hbody₃.read (by decide) (by decide)
      rw [if_pos rfl, hread₃]
      simp only [pure, Except.pure, hread₄, ofNat_toNat_digits]
      exact ⟨_, _, rfl, hbody₄, rfl, rfl, rfl, fun _ => htypeBits, nofun⟩
    | notDataNetwork =>
      obtain ⟨body₃, hread₃, hbody₃⟩ := hbody₂.read (by decide) (by decide)
      obtain ⟨body₄, hread₄, hbody₄⟩ := hbody₃.read (by decide) (by decide)
      obtain ⟨body₅, hread₅, hbody₅⟩ := hbody₄.read (by decide) (by decide)
      rw [if_neg nofun, hread₃]
      simp only [pure, Except.pure, hread₄, hread₅, ofNat_toNat_digits]
      exact ⟨_, _, rfl, hbody₅, rfl, rfl, rfl, fun _ => htypeBits, fun _ _ => hplanBits⟩

/-- The digits are read back, and the rest of the address is left as it is. -/
theorem readDigits_spec {bits : Nat} (hpos : 0 < bits) (hle : bits ≤ 8) {digits : List UInt8}
    (hlength : digits.length ≤ rilCdmaSmsAddressMax) (hbits : ∀ digit ∈ digits, digit.toNat < 2 ^ bits)
    {addr₀ : RilCdmaSmsAddress} (haddr : addr₀.digitBits = bits) {body : BitwiseInputStream}
    (hbody : body.Ahead (digits.map fun digit => (bits, digit.toNat))) {n : Nat}
    (hn : n ≤ digits.length) :
    ∃ addr' body', (List.range n).foldlM (fun s i => readDigit s.1 s.2 i) (addr₀, body) =
        Except.ok (addr', body') ∧
      body'.Ahead ((digits.drop n).map fun digit => (bits, digit.toNat)) ∧
      (∀ i < n, addr'.digits[i]? = digits[i]?) ∧
      addr' = { addr₀ with digits := addr'.digits, digits_length := addr'.digits_length } := by
  induction n with
  | zero => exact ⟨addr₀, body, rfl, hbody, nofun, rfl⟩
  | succ n ih =>
    obtain ⟨addr', body', hloop, hahead, hread, hsame⟩ := ih (Nat.le_of_succ_le hn)
    have hdrop : digits.drop n = digits[n] :: digits.drop (n + 1) := List.drop_eq_getElem_cons hn
    rw [hdrop, List.map_cons] at hahead
    obtain ⟨body'', hdigit, hahead'⟩ := hahead.read hpos hle
    rw [Nat.mod_eq_of_lt (hbits _ (List.getElem_mem hn)), UInt8.ofNat_toNat] at hdigit
    have hsize : addr'.digitBits = bits := by
      rw [hsame]
      exact haddr
    have hroom : n < rilCdmaSmsAddressMax := Nat.lt_of_lt_of_le hn hlength
    rw [List.range_succ, List.foldlM_append, hloop]
    simp only [List.foldlM_cons, List.foldlM_nil, readDigit, hsize, hdigit, bind, Except.bind, pure,
      Except.pure, RilCdmaSmsAddress.setDigit, if_pos hroom]
    refine ⟨_, _, rfl, hahead', fun i hi => ?_, ?_⟩
    · dsimp only
      rcases Nat.lt_succ_iff_lt_or_eq.mp hi with hlt | rfl
      · rw [List.getElem?_set_ne (Nat.ne_of_gt hlt)]
        exact hread i hlt
      · rw [List.getElem?_set_self (by rw [addr'.digits_length]; exact hroom),
          List.getElem?_eq_getElem hn]
    · rw [hsame]

/-- What has been packed is read back. -/
theorem getAddress_spec (hn : addr.numberOfDigits.toNat ≤ rilCdmaSmsAddressMax)
    (htype : addr.numberType < 8) (hplan : addr.numberPlan < 16)
    (hdigits : addr.digitMode = .fourBit →
      ∀ digit ∈ addr.digits.take addr.numberOfDigits.toNat, digit < 16)
    (node : CdmaSmsAddress) (herror : node.error = false)
    (hroom : bitLength (addressFields addr) ≤ 8 * node.value.length)
    (hcarries : Carries node.value 0 (addressFields addr)) (addr₀ : RilCdmaSmsAddress) :
    ∃ addr', getAddress node addr₀ = .ok (true, addr') ∧ SameAddress addr addr' := by
  have hbody : (BitwiseInputStream.init node.value).Ahead (addressFields addr) := by
    refine ⟨hcarries, ?_⟩
    rw [BitwiseInputStream.init, Nat.shiftLeft_eq, Nat.mul_comm]
    change 0 + bitLength (addressFields addr) ≤ 2 ^ 3 * node.value.length
    rw [Nat.zero_add]
    exact hroom
  obtain ⟨header, body, hheader, hahead, hmode, hnumberMode, hcount, hnumberType, hnumberPlan⟩ :=
    readHeader_spec htype hplan hbody addr₀
  have hsize : header.digitBits = addr.digitBits := by
    rw [RilCdmaSmsAddress.digitBits, hmode]
    rfl
  have hwidth : ∀ digit ∈ addr.digits.take addr.numberOfDigits.toNat,
      digit.toNat < 2 ^ addr.digitBits := by
    intro digit hmem
    unfold RilCdmaSmsAddress.digitBits
    cases hdigitMode : addr.digitMode with
    | fourBit => exact hdigits hdigitMode digit hmem
    | eightBit => exact digit.toNat_lt
  obtain ⟨hpos, hle⟩ := digitBits_bounds addr
  have hlength := length_take_digits hn
  obtain ⟨addr', body', hloop, -, hread, hsame⟩ := readDigits_spec hpos hle
    (by rw [hlength]; exact hn) hwidth hsize hahead (Nat.le_of_eq hlength.symm)
  refine ⟨addr', ?_, ?_⟩
  · rw [getAddress, herror, if_neg Bool.false_ne_true, hheader]
    simp only [bind, Except.bind, hcount, hloop]
    rfl
  · rw [hsame]
    refine ⟨hmode, hnumberMode, hcount, fun i hi => ?_, hnumberType, hnumberPlan⟩
    dsimp only
    rw [hread i hi, List.getElem?_take_of_lt hi]

end Packing

/-- **Addresses survive the way to the modem and back.**  For every address of at most
`RIL_CDMA_SMS_ADDRESS_MAX` digits whose fields fit, the encoder trips no assertion, its padding is
from one to seven bits, and the text of its node is read as an address with the same modes, the same
digits, and the same type and plan where the format has them. -/
theorem cdmaSmsAddress_roundTrip (addr : RilCdmaSmsAddress) (isMo : Bool) (addr₀ : RilCdmaSmsAddress)
    (hn : addr.numberOfDigits.toNat ≤ rilCdmaSmsAddressMax) (htype : addr.numberType < 8)
    (hplan : addr.numberPlan < 16)
    (hdigits : addr.digitMode = .fourBit →
      ∀ digit ∈ addr.digits.take addr.numberOfDigits.toNat, digit < 16) :
    ∃ body left node left' node' addr',
      writeBody addr = .ok (body, left) ∧ 1 ≤ paddingBits body ∧ paddingBits body ≤ 7 ∧
      ofAddress addr isMo = .ok (node, left') ∧
      ofHex (node.toHexHeader ++ node.toHexBody) 0 (node.toHexHeader ++ node.toHexBody).length =
        .ok node' ∧
      getAddress node' addr₀ = .ok (true, addr') ∧ SameAddress addr addr' := by
  obtain ⟨body, left, node, left', hbody, hpad, hpad', hnode, htag, herror, hone, hmax, hvalue, hroom,
    hcarries⟩ := ofAddress_spec hn isMo
  have htag' : node.tag = origAddress ∨ node.tag = destAddress := by
    rw [htag]
    cases isMo with
    | true => exact .inr rfl
    | false => exact .inl rfl
  have htext := RmcTlvNode.ofHex_toHex node.toRmcTlvNode
    (by rcases htag' with h | h <;> rw [h] <;> decide) (by omega) hvalue hone herror
  have hofHex : ofHex (node.toHexHeader ++ node.toHexBody) 0
      (node.toHexHeader ++ node.toHexBody).length = .ok { node with number := [] } := by
    rw [ofHex, htext]
    have hknown : ¬ (node.tag ≠ origAddress ∧ node.tag ≠ destAddress) := by
      rintro ⟨horig, hdest⟩
      exact htag'.elim horig hdest
    simp only [bind, Except.bind, pure, Except.pure, if_neg hknown]
  obtain ⟨addr', hget, hsame⟩ := getAddress_spec hn htype hplan hdigits
    { node with number := [] } herror (by rw [hvalue]; exact hroom) hcarries addr₀
  exact ⟨body, left, node, left', _, addr', hbody, hpad, hpad', hnode, hofHex, hget, hsame⟩

/-- Four DTMF digits. -/
def fourDigits : RilCdmaSmsAddress where
  digitMode := .fourBit
  numberMode := .notDataNetwork
  numberType := 0
  numberPlan := 0
  numberOfDigits := 4
  digits := [1, 10, 11, 12] ++ List.replicate 32 0
  digits_length := by decide

theorem fourDigits_roundTrip : ∃ body left node left' node' addr',
    writeBody fourDigits = .ok (body, left) ∧ 1 ≤ paddingBits body ∧ paddingBits body ≤ 7 ∧
    ofAddress fourDigits true = .ok (node, left') ∧
    ofHex (node.toHexHeader ++ node.toHexBody) 0 (node.toHexHeader ++ node.toHexBody).length =
      .ok node' ∧
    getAddress node' fourDigits = .ok (true, addr') ∧ SameAddress fourDigits addr' :=
  cdmaSmsAddress_roundTrip fourDigits true fourDigits (by decide) (by decide) (by decide)
    fun _ => by decide +kernel

end CdmaSmsAddress

end MtkHw.Sms
