import MtkHw.Sms.CdmaMessage

/-!
# The grammar of messages from the modem

`WellFormed` is the grammar of the texts that `toMessage` can cope with, on the octets that the digits
stand for: a type, and nodes that are as long as they say and whose values are what their tags ask
for, up to a tag that is not known.

`toMessage_safe_iff` is the result: the conversion of a text of hex digits comes to its end without a
failed assertion, and without a read or a store outside of an object, if and only if the text is well
formed.
-/

namespace MtkHw.Sms

open Lib

/-! ## Well-formed texts -/

/-- The number of bits in front of the digits of an address. -/
def addressHeaderBits (value : List UInt8) : Nat :=
  if bitAt value 0 = false then 10 else if bitAt value 1 = true then 13 else 17

/-- The digits of an address are as many as it says, and not too many. -/
def AddressFits (value : List UInt8) : Prop :=
  let count := getField value (addressHeaderBits value - 8) 8
  let size := if bitAt value 0 = false then 4 else 8
  addressHeaderBits value + size * count ≤ 8 * value.length ∧ count ≤ rilCdmaSmsAddressMax

/-- The digits of a subaddress are as many as it says, unless its type or its count is refused. -/
def SubAddressFits (value : List UInt8) : Prop :=
  let count := getField value 4 8
  getField value 0 3 > 1 ∨ 12 ≤ 8 * value.length ∧
    (count > rilCdmaSmsSubaddressMax ∨ 12 + 8 * count ≤ 8 * value.length)

/-- The value of a node is what its tag asks for. -/
def ValueOk (isCtWap : Bool) (tag : UInt8) (value : List UInt8) : Prop :=
  if tag = 0 ∨ tag = 1 then 2 ≤ value.length
  else if tag = 2 then AddressFits value
  else if tag = 3 then SubAddressFits value
  else if tag = 8 then isCtWap = true → CtWapParams value 0
  else True

/-- Whether the message is a push message, after a node. -/
def nextCtWap (isCtWap : Bool) (tag : UInt8) (value : List UInt8) : Bool :=
  if tag = 0 then value.take 2 == [0xFD, 0xEA] else isCtWap

/-- Octets that are a sequence of nodes, up to a tag that is not known or a rest that is too short. -/
inductive NodesOk : Bool → List UInt8 → Prop
  | short {isCtWap : Bool} {octets : List UInt8} (hshort : octets.length ≤ 2) : NodesOk isCtWap octets
  | unknown {isCtWap : Bool} {tag : UInt8} {octets : List UInt8} (htag : 8 < tag) :
      NodesOk isCtWap (tag :: octets)
  | node {isCtWap : Bool} {tag : UInt8} {value octets : List UInt8} (htag : tag ≤ 8)
      (hne : value ≠ []) (hlength : value.length ≤ 255) (hvalue : ValueOk isCtWap tag value)
      (rest : NodesOk (nextCtWap isCtWap tag value) octets) :
      NodesOk isCtWap (tag :: UInt8.ofNat value.length :: (value ++ octets))

/-- The octets of a text are a type and a sequence of nodes, or nothing at all. -/
def WellFormed (text : List Char) : Prop := NodesOk false (textOctets text).tail

/-! ## Values -/

section Values

variable {value : List UInt8}

theorem init_eq (value : List UInt8) :
    BitwiseInputStream.init value = ⟨value, 0, 8 * value.length⟩ := by
  rw [BitwiseInputStream.init, Nat.shiftLeft_eq, Nat.mul_comm]

/-- A field of a value is read, if it is all there, and the stream left behind it. -/
theorem read_bind {α : Type} (value : List UInt8) (pos bits : Nat) (hne : 0 < bits)
    (hbits : bits ≤ 8) (f : UInt8 × BitwiseInputStream → Except CdmaFault α) :
    (BitwiseInputStream.read ⟨value, pos, 8 * value.length⟩ bits >>= f) =
      if pos + bits ≤ 8 * value.length then
        f (UInt8.ofNat (getField value pos bits), ⟨value, pos + bits, 8 * value.length⟩)
      else .error .read := by
  rw [BitwiseInputStream.read_eq _ hne hbits]
  dsimp only
  split
  · rfl
  · rfl

theorem toNat_field (value : List UInt8) (pos : Nat) {bits : Nat} (hbits : bits ≤ 8) :
    (UInt8.ofNat (getField value pos bits)).toNat = getField value pos bits :=
  UInt8.toNat_ofNat_of_lt' (Nat.lt_of_lt_of_le (getField_lt value pos hbits)
    (Nat.pow_le_pow_right Nat.two_pos hbits))

/-! ### Addresses -/

theorem digitMode_ofBit (value : List UInt8) (pos : Nat) :
    DigitMode.ofBit (UInt8.ofNat (getField value pos 1)) =
      if bitAt value pos = false then .fourBit else .eightBit := by
  rw [getField_one]
  cases bitAt value pos <;> rfl

theorem numberMode_ofBit (value : List UInt8) (pos : Nat) :
    NumberMode.ofBit (UInt8.ofNat (getField value pos 1)) =
      if bitAt value pos = false then .notDataNetwork else .dataNetwork := by
  rw [getField_one]
  cases bitAt value pos <;> rfl

/-- The fields in front of the digits are read if they are all there. -/
theorem readHeader_eq (value : List UInt8) (addr : RilCdmaSmsAddress) :
    ∃ addr', CdmaSmsAddress.readHeader addr (BitwiseInputStream.init value) =
        (if addressHeaderBits value ≤ 8 * value.length then
          .ok (addr', ⟨value, addressHeaderBits value, 8 * value.length⟩)
        else .error .read) ∧
      addr'.digitBits = (if bitAt value 0 = false then 4 else 8) ∧
      addr'.numberOfDigits.toNat = getField value (addressHeaderBits value - 8) 8 := by
  rw [init_eq, CdmaSmsAddress.readHeader]
  simp only [read_bind value _ 1 (by decide) (by decide), digitMode_ofBit, numberMode_ofBit]
  unfold addressHeaderBits
  cases hmode : bitAt value 0 with
  | false =>
    simp only [if_true, reduceCtorEq, if_false, pure_bind,
      read_bind value _ 8 (by decide) (by decide)]
    refine ⟨{ addr with
      digitMode := .fourBit
      numberMode := if bitAt value 1 = false then .notDataNetwork else .dataNetwork
      numberOfDigits := UInt8.ofNat (getField value 2 8) }, ?_, rfl, toNat_field value 2 (Nat.le_refl 8)⟩
    split_ifs <;> first | rfl | omega
  | true =>
    cases hnumber : bitAt value 1 with
    | true =>
      simp only [if_true, reduceCtorEq, if_false, pure_bind,
        read_bind value _ 8 (by decide) (by decide),
        read_bind value _ 3 (by decide) (by decide)]
      refine ⟨{ addr with
        digitMode := .eightBit, numberMode := .dataNetwork
        numberType := (UInt8.ofNat (getField value 2 3)).toNat
        numberOfDigits := UInt8.ofNat (getField value 5 8) }, ?_, rfl, toNat_field value 5 (Nat.le_refl 8)⟩
      split_ifs <;> first | rfl | omega
    | false =>
      simp only [if_true, reduceCtorEq, if_false, pure_bind,
        read_bind value _ 8 (by decide) (by decide),
        read_bind value _ 4 (by decide) (by decide),
        read_bind value _ 3 (by decide) (by decide)]
      refine ⟨{ addr with
        digitMode := .eightBit, numberMode := .notDataNetwork
        numberType := (UInt8.ofNat (getField value 2 3)).toNat
        numberPlan := (UInt8.ofNat (getField value 5 4)).toNat
        numberOfDigits := UInt8.ofNat (getField value 9 8) }, ?_, rfl, toNat_field value 9 (Nat.le_refl 8)⟩
      split_ifs <;> first | rfl | omega

theorem setDigit_ok (addr : RilCdmaSmsAddress) (i : Nat) (digit : UInt8)
    (hroom : i < rilCdmaSmsAddressMax) :
    ∃ addr', addr.setDigit i digit = .ok addr' ∧ addr'.digitBits = addr.digitBits := by
  rw [RilCdmaSmsAddress.setDigit, if_pos hroom]
  exact ⟨_, rfl, rfl⟩

theorem setDigit_error (addr : RilCdmaSmsAddress) (i : Nat) (digit : UInt8)
    (hroom : ¬ i < rilCdmaSmsAddressMax) : ∃ fault, addr.setDigit i digit = .error fault :=
  ⟨_, if_neg hroom⟩

/-- An address is taken out if all its digits are there, and there is room for them. -/
theorem getAddress_iff {node : CdmaSmsAddress} (herror : node.error = false)
    (addr : RilCdmaSmsAddress) :
    (∃ r, node.getAddress addr = .ok r) ↔ AddressFits node.value := by
  obtain ⟨addr', hheader, hbits, hcount⟩ := readHeader_eq node.value addr
  obtain ⟨hpos, hle⟩ := CdmaSmsAddress.digitBits_bounds addr'
  rw [CdmaSmsAddress.getAddress, herror, if_neg Bool.false_ne_true, hheader, AddressFits]
  dsimp only
  rw [← hbits, ← hcount]
  by_cases hroom : addressHeaderBits node.value ≤ 8 * node.value.length
  · rw [if_pos hroom]
    refine (exists_bind_ok (List.foldlM (BitwiseInputStream.readMany RilCdmaSmsAddress.digitBits
      RilCdmaSmsAddress.setDigit) (addr', _) _) fun s => (true, s.1)).trans ?_
    refine (BitwiseInputStream.readMany_iff hpos hle setDigit_ok setDigit_error rfl hroom _).trans ?_
    exact and_congr_right fun _ => forall_lt_iff_le
  · rw [if_neg hroom]
    refine iff_of_false (by rintro ⟨r, ⟨⟩⟩) fun h => hroom ?_
    exact Nat.le_of_add_right_le h.1

/-! ### Subaddresses -/

theorem setSubDigit_ok (subAddr : RilCdmaSmsSubaddress) (i : Nat) (digit : UInt8)
    (hroom : i < rilCdmaSmsSubaddressMax) :
    ∃ subAddr', subAddr.setDigit i digit = .ok subAddr' ∧ 8 = 8 := by
  rw [RilCdmaSmsSubaddress.setDigit, if_pos hroom]
  exact ⟨_, rfl, rfl⟩

theorem setSubDigit_error (subAddr : RilCdmaSmsSubaddress) (i : Nat) (digit : UInt8)
    (hroom : ¬ i < rilCdmaSmsSubaddressMax) : ∃ fault, subAddr.setDigit i digit = .error fault :=
  ⟨_, if_neg hroom⟩

/-- A subaddress is taken out if all its digits are there, unless it is refused. -/
theorem getSubAddr_iff {node : RmcTlvNode} (herror : node.error = false) (hne : node.value ≠ [])
    (subAddr : RilCdmaSmsSubaddress) :
    (∃ r, getSubAddr node subAddr = .ok r) ↔ SubAddressFits node.value := by
  have hlength := List.length_pos_iff.mpr hne
  rw [getSubAddr, herror, if_neg Bool.false_ne_true, init_eq, SubAddressFits]
  rw [read_bind node.value _ 3 (by decide) (by decide), if_pos (by omega)]
  dsimp only
  rw [toNat_field _ _ (show 3 ≤ 8 by decide)]
  by_cases htype : getField node.value 0 3 > 1
  · rw [if_pos htype]
    exact iff_of_true ⟨_, rfl⟩ (.inl htype)
  · rw [if_neg htype, read_bind node.value _ 1 (by decide) (by decide), if_pos (by omega),
      read_bind node.value _ 8 (by decide) (by decide), or_iff_right htype]
    by_cases hcount : 0 + 3 + 1 + 8 ≤ 8 * node.value.length
    · rw [if_pos hcount, and_iff_right hcount]
      dsimp only
      rw [toNat_field _ _ (Nat.le_refl 8)]
      by_cases hmax : getField node.value 4 8 > rilCdmaSmsSubaddressMax
      · rw [if_pos hmax]
        exact iff_of_true ⟨_, rfl⟩ (.inl hmax)
      · rw [if_neg hmax, or_iff_right hmax]
        refine (exists_bind_ok (List.foldlM _ _ _) Prod.fst).trans ?_
        refine (BitwiseInputStream.readMany_iff (show 0 < 8 by decide) (Nat.le_refl 8) setSubDigit_ok
          setSubDigit_error rfl hcount _).trans ?_
        exact and_iff_left fun i hi => Nat.lt_of_lt_of_le hi (Nat.le_of_not_lt hmax)
    · rw [if_neg hcount]
      exact iff_of_false (fun ⟨_, h⟩ => absurd h nofun) fun h => hcount h.1

/-! ### Numbers -/

/-- Two octets are asked for. -/
theorem wordAt_iff {node : RmcTlvNode} (herror : node.error = false) :
    (∃ r, node.wordAt = .ok r) ↔ 2 ≤ node.value.length := by
  obtain ⟨tag, length, value, error⟩ := node
  cases herror
  cases value with
  | nil => exact iff_of_false (fun ⟨_, h⟩ => absurd h nofun) (by simp)
  | cons high value =>
    cases value with
    | nil => exact iff_of_false (fun ⟨_, h⟩ => absurd h nofun) (by simp)
    | cons low value => exact iff_of_true ⟨_, rfl⟩ (by simp)

/-- The number of push messages, and the octets it consists of. -/
theorem isCtWapPush_eq {node : RmcTlvNode} (herror : node.error = false) {id : Int}
    (hid : node.wordAt = .ok id) : isCtWapPush node = .ok (node.value.take 2 == [0xFD, 0xEA]) := by
  obtain ⟨tag, length, value, error⟩ := node
  cases herror
  obtain ⟨high, low, rest, rfl⟩ : ∃ high low rest, value = high :: low :: rest := by
    cases value with
    | nil => cases hid
    | cons high value =>
      cases value with
      | nil => cases hid
      | cons low rest => exact ⟨high, low, rest, rfl⟩
  change Except.ok ((((high.toNat <<< 8 ||| low.toNat : Nat) : Int)) == 0xFDEA) = _
  have hlow := low.toNat_lt
  rw [← Nat.shiftLeft_add_eq_or_of_lt hlow, Nat.shiftLeft_eq]
  congr 1
  rw [Bool.eq_iff_iff, beq_iff_eq, beq_iff_eq, List.take_succ_cons, List.take_succ_cons, List.take_zero,
    List.cons.injEq, List.cons.injEq, ← UInt8.toNat_inj, ← UInt8.toNat_inj, and_iff_left rfl]
  change ((high.toNat * 2 ^ 8 + low.toNat : Nat) : Int) = 0xFDEA ↔ high.toNat = 0xFD ∧ low.toNat = 0xEA
  omega

/-! ### Bearer data -/

theorem setBearerData_iff (message : RilCdmaSmsMessage) (octets : List UInt8) (len : Nat) :
    (∃ r, message.setBearerData octets len = .ok r) ↔ octets.length ≤ 255 := by
  unfold RilCdmaSmsMessage.setBearerData
  split
  · rename_i hroom
    exact iff_of_true ⟨_, rfl⟩ hroom
  · rename_i hroom
    exact iff_of_false (fun ⟨_, h⟩ => absurd h nofun) hroom

/-- If the bearer data of a push message is taken out its parameters are well formed. -/
theorem getBearerData_sound {node : RmcTlvNode} (herror : node.error = false)
    (hlength : node.value.length ≤ 255) {turns : Nat} {isCtWap : Bool}
    {message message' : RilCdmaSmsMessage}
    (h : getBearerData turns node isCtWap message = .ok message') (hwap : isCtWap = true) :
    CtWapParams node.value 0 := by
  rw [getBearerData, herror, if_neg Bool.false_ne_true, if_pos hwap] at h
  split at h
  · rename_i target hloop
    exact ctWap_sound hlength hloop ((setBearerData_iff _ _ _).mp ⟨message', h⟩) (Nat.zero_le _)
  · cases h
  · cases h

/-- Well-formed bearer data is taken out, if the loops may go round often enough. -/
theorem getBearerData_total {node : RmcTlvNode} (herror : node.error = false)
    (hlength : node.value.length ≤ 255) {isCtWap : Bool}
    (hvalue : isCtWap = true → CtWapParams node.value 0) :
    ∃ enough, ∀ turns ≥ enough, ∀ message, ∃ message',
      getBearerData turns node isCtWap message = .ok message' := by
  cases isCtWap with
  | false =>
    refine ⟨0, fun turns _ message => ?_⟩
    rw [getBearerData, herror]
    exact (setBearerData_iff message node.value node.length).mpr hlength
  | true =>
    obtain ⟨enough, target, hloop, htarget⟩ :=
      ctWap_total hlength (hvalue rfl) 0 rfl [] (Nat.zero_le _)
    refine ⟨enough, fun turns hturns message => ?_⟩
    obtain ⟨more, rfl⟩ := Nat.exists_eq_add_of_le hturns
    have hwalk : specialProcessForCtWapPush (enough + more) node.value = some (.ok target) :=
      loop_add hloop more
    rw [getBearerData, herror, if_neg Bool.false_ne_true, if_pos rfl, hwalk]
    exact (setBearerData_iff message target target.length).mpr (htarget.trans hlength)

end Values

/-! ## Nodes in a text -/

/-- The two digits of a known tag. -/
def tagText (tag : UInt8) : List Char := ['0', Char.ofNat (48 + tag.toNat)]

section Nodes

variable {text : List Char}

/-- A digit below ten is a decimal digit. -/
theorem digit_of_hexValue {c : Char} {n : Nat} (h : hexValue c = some n) (hn : n < 10) :
    c = Char.ofNat (48 + n) := by
  unfold hexValue at h
  split_ifs at h with hdigit
  · obtain ⟨hlow, hhigh⟩ := hdigit
    change 48 ≤ c.toNat at hlow
    cases h
    rw [Nat.add_sub_cancel' hlow, Char.ofNat_toNat]
  all_goals
    cases h
    omega

/-- A text that is long enough begins with four digits, the tag and the length of a node. -/
theorem header_of_text (h : IsHex text) (hlong : 4 < text.length) :
    ∃ tag len octets, textOctets text = tag :: len :: octets ∧
      strtol16 ((text.drop 2).take 2) = len.toNat ∧
      (tag ≤ 8 → text.take 2 = tagText tag) ∧
      ∀ known ≤ (8 : UInt8), text.take 2 = tagText known → tag = known := by
  obtain ⟨c₀, c₁, c₂, c₃, rest, rfl⟩ : ∃ c₀ c₁ c₂ c₃ rest, text = c₀ :: c₁ :: c₂ :: c₃ :: rest := by
    match text, hlong with
    | c₀ :: c₁ :: c₂ :: c₃ :: rest, _ => exact ⟨c₀, c₁, c₂, c₃, rest, rfl⟩
  obtain ⟨⟨n₀, h₀, hn₀⟩, h⟩ := RmcTlvNode.isHex_cons h
  obtain ⟨⟨n₁, h₁, hn₁⟩, h⟩ := RmcTlvNode.isHex_cons h
  obtain ⟨⟨n₂, h₂, hn₂⟩, h⟩ := RmcTlvNode.isHex_cons h
  obtain ⟨⟨n₃, h₃, hn₃⟩, h⟩ := RmcTlvNode.isHex_cons h
  have htag : (UInt8.ofNat (n₀ * 16 + n₁)).toNat = n₀ * 16 + n₁ :=
    UInt8.toNat_ofNat_of_lt' (show n₀ * 16 + n₁ < 256 by omega)
  have hlen : (UInt8.ofNat (n₂ * 16 + n₃)).toNat = n₂ * 16 + n₃ :=
    UInt8.toNat_ofNat_of_lt' (show n₂ * 16 + n₃ < 256 by omega)
  refine ⟨UInt8.ofNat (n₀ * 16 + n₁), UInt8.ofNat (n₂ * 16 + n₃), textOctets rest, ?_, ?_, ?_, ?_⟩
  · simp only [textOctets, h₀, h₁, h₂, h₃, Option.getD_some]
  · rw [hlen]
    simp [strtol16, h₂, h₃]
  · intro hknown
    rw [UInt8.le_iff_toNat_le, htag] at hknown
    change n₀ * 16 + n₁ ≤ 8 at hknown
    obtain rfl : n₀ = 0 := by omega
    have hc₀ := digit_of_hexValue h₀ (by decide)
    have hc₁ := digit_of_hexValue h₁ (by omega)
    rw [tagText, htag, hc₀, hc₁, Nat.zero_mul, Nat.zero_add]
    rfl
  · intro known hknown htext
    rw [tagText, List.take_succ_cons, List.take_succ_cons, List.take_zero] at htext
    cases htext
    have hle : known.toNat ≤ 8 := hknown
    have hdigit : ∀ n ≤ 8, hexValue (Char.ofNat (48 + n)) = some n := by decide
    rw [hdigit _ hle] at h₁
    cases h₁
    obtain rfl : 0 = n₀ := Option.some.inj h₀
    rw [Nat.zero_mul, Nat.zero_add, UInt8.ofNat_toNat]

/-- A node that is all there is taken out of the text. -/
theorem ofHex_ok (h : IsHex text) {p : Nat} (hp : p ≤ text.length) {tag len : UInt8}
    {octets : List UInt8} (hoctets : textOctets (text.drop p) = tag :: len :: octets)
    (hne : 1 ≤ len.toNat) (hlen : len.toNat ≤ octets.length) :
    RmcTlvNode.ofHex text p (len.toNat * 2 + 4) =
      .ok ⟨tag.toNat, len.toNat, octets.take len.toNat, false⟩ := by
  have hhex : IsHex (text.drop p) := fun c hc => h c (List.mem_of_mem_drop hc)
  rw [RmcTlvNode.ofHex, RmcTlvNode.hex2Bin_drop hp,
    show len.toNat * 2 + 4 = 2 * (len.toNat + 2) by omega,
    RmcTlvNode.hex2Bin_eq hhex (by omega) (by rw [hoctets]; simp only [List.length_cons]; omega), hoctets]
  simp only [bind, Except.bind, pure, Except.pure, List.take_succ_cons, List.getD_cons_zero,
    List.getD_cons_succ, List.drop_succ_cons, List.drop_zero]
  congr 2
  exact decide_eq_false (by omega)

/-- A node that is longer than the text, or that has no value, trips an assertion. -/
theorem ofHex_error {p : Nat} (hp : p ≤ text.length) (heven : (text.drop p).length % 2 = 0)
    {tag len : UInt8} {octets : List UInt8}
    (hoctets : textOctets (text.drop p) = tag :: len :: octets)
    (hbad : len.toNat = 0 ∨ octets.length < len.toNat) :
    ∃ fault, RmcTlvNode.ofHex text p (len.toNat * 2 + 4) = .error fault := by
  obtain ⟨fault, hfault⟩ := RmcTlvNode.hex2Bin_error heven (k := len.toNat + 2) (by
    rw [hoctets]
    simp only [List.length_cons]
    omega)
  refine ⟨fault, ?_⟩
  rw [RmcTlvNode.ofHex, RmcTlvNode.hex2Bin_drop hp,
    show len.toNat * 2 + 4 = 2 * (len.toNat + 2) by omega, hfault]
  rfl

/-! ### One node -/

/-- A node is converted exactly if a condition holds, and then the message is a push message or not. -/
structure Converts (x : Except CdmaFault MessageState) (isCtWap : Bool) (P : Prop) : Prop where
  iff : (∃ s', x = .ok s') ↔ P
  isCtWapPush_eq : ∀ s', x = .ok s' → s'.isCtWapPush = isCtWap

/-- A conversion that is one computation, of which something is kept. -/
theorem converts_bind {α : Type} {x : Except CdmaFault α} {g : α → MessageState} {isCtWap : Bool}
    {P : Prop} (hx : (∃ a, x = .ok a) ↔ P) (hg : ∀ a, (g a).isCtWapPush = isCtWap) :
    Converts (x >>= fun a => .ok (g a)) isCtWap P where
  iff := by
    refine Iff.trans ?_ hx
    cases x with
    | error fault => exact iff_of_false (fun ⟨_, h⟩ => absurd h nofun) (fun ⟨_, h⟩ => absurd h nofun)
    | ok a => exact iff_of_true ⟨g a, rfl⟩ ⟨a, rfl⟩
  isCtWapPush_eq := by
    intro s' h
    cases x with
    | error fault => cases h
    | ok a =>
      cases h
      exact hg a

/-- What is asked of a node, when the loops go round at most `turns` times. -/
def NodeOk (turns : Nat) (s : MessageState) (tag : UInt8) (node : RmcTlvNode) : Prop :=
  if tag = 8 then ∃ message', getBearerData turns node s.isCtWapPush s.message = .ok message'
  else ValueOk s.isCtWapPush tag node.value

/-- A text whose tag is not known is not converted. -/
theorem convertNode_unknown {tag : List Char} (h : ∀ known ≤ (8 : UInt8), tag ≠ tagText known)
    (turns : Nat) (text : List Char) (len : Nat) (s : MessageState) :
    convertNode turns text tag len s = none := by
  rw [convertNode, if_neg (show tag ≠ ['0', '0'] from h 0 (by decide)),
    if_neg (show tag ≠ ['0', '1'] from h 1 (by decide)),
    if_neg (show tag ≠ ['0', '2'] from h 2 (by decide)),
    if_neg (show tag ≠ ['0', '3'] from h 3 (by decide)),
    if_neg (show tag ≠ ['0', '4'] from h 4 (by decide)),
    if_neg (show tag ≠ ['0', '5'] from h 5 (by decide)),
    if_neg (show tag ≠ ['0', '6'] from h 6 (by decide)),
    if_neg (show tag ≠ ['0', '7'] from h 7 (by decide)),
    if_neg (show tag ≠ ['0', '8'] from h 8 (by decide))]

theorem ofHexTagged_ok {node : RmcTlvNode} {p len : Nat}
    (hnode : RmcTlvNode.ofHex text p len = .ok node) {tags : List Nat} (htag : node.tag ∈ tags) :
    RmcTlvNode.ofHexTagged tags text p len = .ok node := by
  rw [RmcTlvNode.ofHexTagged, hnode]
  change Except.ok { node with error := if node.tag ∉ tags then true else node.error } = _
  rw [if_neg (not_not_intro htag)]

theorem ofHexTagged_error {p len : Nat} {fault : CdmaFault}
    (hnode : RmcTlvNode.ofHex text p len = .error fault) (tags : List Nat) :
    RmcTlvNode.ofHexTagged tags text p len = .error fault := by
  rw [RmcTlvNode.ofHexTagged, hnode]
  rfl

theorem addressOfHex_ok {node : RmcTlvNode} {p len : Nat}
    (hnode : RmcTlvNode.ofHex text p len = .ok node) (htag : node.tag = 2 ∨ node.tag = 4) :
    CdmaSmsAddress.ofHex text p len = .ok { node with number := [] } := by
  rw [CdmaSmsAddress.ofHex, hnode]
  have hknown : ¬ (node.tag ≠ CdmaSmsAddress.origAddress ∧ node.tag ≠ CdmaSmsAddress.destAddress) := by
    rintro ⟨horig, hdest⟩
    exact htag.elim horig hdest
  simp only [bind, Except.bind, pure, Except.pure, if_neg hknown]

theorem known_tags {tag : UInt8} (htag : tag ≤ 8) : tag = 0 ∨ tag = 1 ∨ tag = 2 ∨ tag = 3 ∨ tag = 4 ∨
    tag = 5 ∨ tag = 6 ∨ tag = 7 ∨ tag = 8 := by
  have hall : ∀ n ≤ 8, UInt8.ofNat n = 0 ∨ UInt8.ofNat n = 1 ∨ UInt8.ofNat n = 2 ∨
      UInt8.ofNat n = 3 ∨ UInt8.ofNat n = 4 ∨ UInt8.ofNat n = 5 ∨ UInt8.ofNat n = 6 ∨
      UInt8.ofNat n = 7 ∨ UInt8.ofNat n = 8 := by decide
  have htag' := hall tag.toNat htag
  rwa [UInt8.ofNat_toNat] at htag'

/-- A teleservice id is taken out, and tells whether the message is a push message. -/
theorem converts_teleServiceId {node : RmcTlvNode} (herror : node.error = false)
    (g : Bool → Int → MessageState) (hg : ∀ b id, (g b id).isCtWapPush = b) :
    Converts (isCtWapPush node >>= fun b =>
        if b = true then .ok (g b 0x1004) else getTeleServiceId node >>= fun id => .ok (g b id))
      (node.value.take 2 == [0xFD, 0xEA]) (2 ≤ node.value.length) := by
  have hiff := wordAt_iff herror
  cases hword : node.wordAt with
  | error fault =>
    have hpush : isCtWapPush node = .error fault := by
      rw [isCtWapPush, getTeleServiceId, hword]
      rfl
    rw [hpush]
    refine ⟨iff_of_false (fun ⟨_, h⟩ => absurd h nofun) fun h => ?_, fun _ h => absurd h nofun⟩
    obtain ⟨id, hid⟩ := hiff.mpr h
    rw [hword] at hid
    cases hid
  | ok id =>
    rw [isCtWapPush_eq herror hword, getTeleServiceId, hword]
    change Converts (if _ then _ else .ok (g _ id)) _ _
    have hlong := hiff.mp ⟨id, hword⟩
    split
    · refine ⟨iff_of_true ⟨_, rfl⟩ hlong, fun s' h => ?_⟩
      cases h
      exact hg _ _
    · refine ⟨iff_of_true ⟨_, rfl⟩ hlong, fun s' h => ?_⟩
      cases h
      exact hg _ _

/-- **A node that is there.**  It is converted if its value is what its tag asks for. -/
theorem convertNode_ok {tag : UInt8} (htag : tag ≤ 8) {s : MessageState} {len : Nat}
    {node : RmcTlvNode} (hnode : RmcTlvNode.ofHex text s.p len = .ok node)
    (hnodeTag : node.tag = tag.toNat) (herror : node.error = false) (hne : node.value ≠ [])
    (turns : Nat) :
    ∃ x, convertNode turns text (tagText tag) len s = some x ∧
      Converts x (nextCtWap s.isCtWapPush tag node.value) (NodeOk turns s tag node) := by
  rcases known_tags htag with rfl | rfl | rfl | rfl | rfl | rfl | rfl | rfl | rfl
  · refine ⟨_, rfl, ?_⟩
    change Converts (teleServiceIdOfHex text s.p len >>= fun node => isCtWapPush node >>= fun b =>
      if b = true then .ok { s with isCtWapPush := b, message := { s.message with
        uTeleserviceID := 0x1004 } }
      else getTeleServiceId node >>= fun id => .ok { s with isCtWapPush := b, message := { s.message with
        uTeleserviceID := id } }) _ _
    rw [teleServiceIdOfHex, ofHexTagged_ok hnode (by rw [hnodeTag]; decide)]
    exact converts_teleServiceId herror (fun b id => { s with isCtWapPush := b, message := { s.message with
      uTeleserviceID := id } }) fun _ _ => rfl
  · refine ⟨_, rfl, ?_⟩
    change Converts (serviceCategoryOfHex text s.p len >>= fun node =>
      getServiceCategory node >>= fun category => .ok _) _ _
    rw [serviceCategoryOfHex, ofHexTagged_ok hnode (by rw [hnodeTag]; decide)]
    exact converts_bind (wordAt_iff herror) fun _ => rfl
  · refine ⟨_, rfl, ?_⟩
    change Converts (CdmaSmsAddress.ofHex text s.p len >>= fun node =>
      node.getAddress s.message.sAddress >>= fun r => .ok _) _ _
    rw [addressOfHex_ok hnode (.inl hnodeTag)]
    exact converts_bind (getAddress_iff herror _) fun _ => rfl
  · refine ⟨_, rfl, ?_⟩
    change Converts (cdmaSmsSubAddressOfHex text s.p len >>= fun node =>
      getSubAddr node s.message.sSubAddress >>= fun r => .ok _) _ _
    rw [cdmaSmsSubAddressOfHex, ofHexTagged_ok hnode (by rw [hnodeTag]; decide)]
    exact converts_bind (getSubAddr_iff herror hne _) fun _ => rfl
  · refine ⟨_, rfl, ?_⟩
    change Converts (CdmaSmsAddress.ofHex text s.p len >>= fun node => .ok _) _ _
    rw [addressOfHex_ok hnode (.inr hnodeTag)]
    exact converts_bind (iff_of_true ⟨_, rfl⟩ trivial) fun _ => rfl
  · refine ⟨_, rfl, ?_⟩
    change Converts (cdmaSmsSubAddressOfHex text s.p len >>= fun node => .ok _) _ _
    rw [cdmaSmsSubAddressOfHex, ofHexTagged_ok hnode (by rw [hnodeTag]; decide)]
    exact converts_bind (iff_of_true ⟨_, rfl⟩ trivial) fun _ => rfl
  · refine ⟨_, rfl, ?_⟩
    change Converts (bearerReplyOptOfHex text s.p len >>= fun node =>
      getReplySeq node >>= fun r => .ok _) _ _
    rw [bearerReplyOptOfHex, ofHexTagged_ok hnode (by rw [hnodeTag]; decide)]
    refine converts_bind (iff_of_true ?_ trivial) fun _ => rfl
    obtain ⟨octet, rest, hvalue⟩ := List.exists_cons_of_ne_nil hne
    rw [getReplySeq, herror, if_neg Bool.false_ne_true, RmcTlvNode.valueAt, hvalue]
    exact ⟨_, rfl⟩
  · refine ⟨_, rfl, ?_⟩
    change Converts (causeCodeOfHex text s.p len >>= fun node => .ok _) _ _
    rw [causeCodeOfHex, ofHexTagged_ok hnode (by rw [hnodeTag]; decide)]
    exact converts_bind (iff_of_true ⟨_, rfl⟩ trivial) fun _ => rfl
  · refine ⟨_, rfl, ?_⟩
    change Converts (bearerDataOfHex text s.p len >>= fun node =>
      getBearerData turns node s.isCtWapPush s.message >>= fun r => .ok _) _ _
    rw [bearerDataOfHex, ofHexTagged_ok hnode (by rw [hnodeTag]; decide)]
    exact converts_bind Iff.rfl fun _ => rfl

/-- A node that is not all there is not converted. -/
theorem convertNode_error {tag : UInt8} (htag : tag ≤ 8) {s : MessageState} {len : Nat}
    {fault : CdmaFault} (hnode : RmcTlvNode.ofHex text s.p len = .error fault) (turns : Nat) :
    convertNode turns text (tagText tag) len s = some (.error fault) := by
  have haddress : CdmaSmsAddress.ofHex text s.p len = .error fault := by
    rw [CdmaSmsAddress.ofHex, hnode]
    rfl
  rcases known_tags htag with rfl | rfl | rfl | rfl | rfl | rfl | rfl | rfl | rfl
  · change some (teleServiceIdOfHex text s.p len >>= _) = _
    rw [teleServiceIdOfHex, ofHexTagged_error hnode]
    rfl
  · change some (serviceCategoryOfHex text s.p len >>= _) = _
    rw [serviceCategoryOfHex, ofHexTagged_error hnode]
    rfl
  · change some (CdmaSmsAddress.ofHex text s.p len >>= _) = _
    rw [haddress]
    rfl
  · change some (cdmaSmsSubAddressOfHex text s.p len >>= _) = _
    rw [cdmaSmsSubAddressOfHex, ofHexTagged_error hnode]
    rfl
  · change some (CdmaSmsAddress.ofHex text s.p len >>= _) = _
    rw [haddress]
    rfl
  · change some (cdmaSmsSubAddressOfHex text s.p len >>= _) = _
    rw [cdmaSmsSubAddressOfHex, ofHexTagged_error hnode]
    rfl
  · change some (bearerReplyOptOfHex text s.p len >>= _) = _
    rw [bearerReplyOptOfHex, ofHexTagged_error hnode]
    rfl
  · change some (causeCodeOfHex text s.p len >>= _) = _
    rw [causeCodeOfHex, ofHexTagged_error hnode]
    rfl
  · change some (bearerDataOfHex text s.p len >>= _) = _
    rw [bearerDataOfHex, ofHexTagged_error hnode]
    rfl

/-- What is asked of a node implies the grammar. -/
theorem NodeOk.valueOk {turns : Nat} {s : MessageState} {tag : UInt8} {node : RmcTlvNode}
    (h : NodeOk turns s tag node) (herror : node.error = false) (hlength : node.value.length ≤ 255) :
    ValueOk s.isCtWapPush tag node.value := by
  unfold NodeOk at h
  split at h
  · rename_i htag
    subst htag
    obtain ⟨message', hmessage'⟩ := h
    exact getBearerData_sound herror hlength hmessage'
  · exact h

/-- The grammar implies what is asked of a node, if the loops may go round often enough. -/
theorem nodeOk_of_valueOk {isCtWap : Bool} {tag : UInt8} (node : RmcTlvNode)
    (h : ValueOk isCtWap tag node.value) (herror : node.error = false)
    (hlength : node.value.length ≤ 255) :
    ∃ enough, ∀ turns ≥ enough, ∀ s : MessageState, s.isCtWapPush = isCtWap →
      NodeOk turns s tag node := by
  unfold NodeOk
  by_cases htag : tag = 8
  · subst htag
    obtain ⟨enough, henough⟩ := getBearerData_total herror hlength h
    refine ⟨enough, fun turns hturns s hs => ?_⟩
    rw [if_pos rfl, hs]
    exact henough turns hturns s.message
  · refine ⟨0, fun turns _ s hs => ?_⟩
    rw [if_neg htag, hs]
    exact h

/-! ### One turn -/

theorem messageTurn_short {s : MessageState} (hshort : text.length ≤ s.p + 4) (turns : Nat) :
    messageTurn turns text s = .inr (.ok s) := if_neg (Nat.not_lt_of_le hshort)

/-- What a turn finds, when there is more than a header left. -/
theorem messageTurn_header (h : IsHex text) {s : MessageState} (hlong : s.p + 4 < text.length) :
    ∃ tag len octets, textOctets (text.drop s.p) = tag :: len :: octets ∧
      (8 < tag → ∀ turns, messageTurn turns text s = .inr (.ok s)) ∧
      (tag ≤ 8 → ∀ turns, messageTurn turns text s =
        match convertNode turns text (tagText tag) (len.toNat * 2 + 4) s with
        | none => .inr (.ok s)
        | some (.error fault) => .inr (.error fault)
        | some (.ok s') => .inl { s' with p := s.p + (len.toNat * 2 + 4) }) := by
  have hhex : IsHex (text.drop s.p) := fun c hc => h c (List.mem_of_mem_drop hc)
  obtain ⟨tag, len, octets, hoctets, hlen, hknown, hunique⟩ := header_of_text hhex (by
    rw [List.length_drop]
    omega)
  rw [List.drop_drop] at hlen
  refine ⟨tag, len, octets, hoctets, fun htag turns => ?_, fun htag turns => ?_⟩
  · have hunknown : ∀ known ≤ (8 : UInt8), (text.drop s.p).take 2 ≠ tagText known := by
      intro known hle heq
      rw [hunique known hle heq] at htag
      exact absurd htag (UInt8.not_lt.mpr hle)
    rw [messageTurn, if_pos hlong]
    dsimp only
    rw [convertNode_unknown hunknown]
  · have hturn : messageTurn turns text s = _ := if_pos hlong
    rw [hknown htag, hlen] at hturn
    exact hturn

/-! ### All the turns -/

/-- The rest of the text behind a node. -/
theorem textOctets_next {p : Nat} {tag len : UInt8} {octets : List UInt8}
    (hoctets : textOctets (text.drop p) = tag :: len :: octets) :
    textOctets (text.drop (p + (len.toNat * 2 + 4))) = octets.drop len.toNat := by
  rw [← List.drop_drop, show len.toNat * 2 + 4 = 2 * (len.toNat + 2) by omega, RmcTlvNode.textOctets_drop,
    hoctets]
  rfl

/-- If the loop comes to its end what it has gone over is well formed. -/
theorem nodes_sound (h : IsHex text) (heven : text.length % 2 = 0) {turns n : Nat} {s r : MessageState}
    (hp : s.p ≤ text.length) (hpEven : s.p % 2 = 0)
    (hloop : loop (messageTurn turns text) n s = some (.ok r)) :
    NodesOk s.isCtWapPush (textOctets (text.drop s.p)) := by
  induction n generalizing s with
  | zero => cases hloop
  | succ n ih =>
    by_cases hlong : s.p + 4 < text.length
    · obtain ⟨tag, len, octets, hoctets, -, hturn⟩ := messageTurn_header h hlong
      have hoctetsLength : octets.length + 2 = (text.length - s.p) / 2 := by
        rw [← List.length_drop, ← RmcTlvNode.length_textOctets, hoctets]
        rfl
      rw [hoctets]
      by_cases htag : tag ≤ 8
      · have hturn := hturn htag turns
        by_cases hfits : 1 ≤ len.toNat ∧ len.toNat ≤ octets.length
        · obtain ⟨hone, hle⟩ := hfits
          have hvalue : (octets.take len.toNat).length = len.toNat := List.length_take_of_le hle
          have hne : octets.take len.toNat ≠ [] := List.ne_nil_of_length_pos (by omega)
          have hlen := len.toNat_lt
          have hnode := ofHex_ok h hp hoctets hone hle
          obtain ⟨x, hconvert, hconverts⟩ := convertNode_ok htag hnode rfl rfl hne turns
          rw [hconvert] at hturn
          cases x with
          | error fault =>
            rw [loop_of_inr hturn] at hloop
            cases hloop
          | ok s' =>
            rw [loop_of_inl hturn] at hloop
            have hrest := ih (by dsimp only; omega) (by dsimp only; omega) hloop
            dsimp only at hrest
            rw [textOctets_next hoctets, hconverts.isCtWapPush_eq s' rfl] at hrest
            have hok := (hconverts.iff.mp ⟨s', rfl⟩).valueOk rfl (by dsimp only; omega)
            have hnodes := NodesOk.node htag hne (by omega) hok hrest
            rwa [hvalue, UInt8.ofNat_toNat, List.take_append_drop] at hnodes
        · obtain ⟨fault, hfault⟩ := ofHex_error hp (by rw [List.length_drop]; omega) hoctets (by omega)
          rw [convertNode_error htag hfault] at hturn
          rw [loop_of_inr hturn] at hloop
          cases hloop
      · exact .unknown (UInt8.not_le.mp htag)
    · refine .short ?_
      rw [RmcTlvNode.length_textOctets, List.length_drop]
      omega

/-- Over well-formed octets the loop comes to its end, if it may go round often enough. -/
theorem nodes_total (h : IsHex text) (heven : text.length % 2 = 0) {isCtWap : Bool}
    {octets : List UInt8} (hnodes : NodesOk isCtWap octets) {p : Nat} (hp : p ≤ text.length)
    (hpEven : p % 2 = 0) (hoctets : textOctets (text.drop p) = octets) :
    ∃ enough, ∀ turns ≥ enough, ∀ n ≥ enough, ∀ s : MessageState, s.p = p → s.isCtWapPush = isCtWap →
      ∃ r, loop (messageTurn turns text) n s = some (.ok r) := by
  have hoctetsLength : octets.length = (text.length - p) / 2 := by
    rw [← List.length_drop, ← RmcTlvNode.length_textOctets, hoctets]
  induction hnodes generalizing p with
  | short hshort =>
    refine ⟨1, fun turns _ n hn s hs _ => ⟨s, ?_⟩⟩
    obtain ⟨n, rfl⟩ := Nat.exists_eq_add_of_le' hn
    exact loop_of_inr (messageTurn_short (by omega) turns)
  | unknown htag =>
    refine ⟨1, fun turns _ n hn s hs _ => ⟨s, ?_⟩⟩
    obtain ⟨n, rfl⟩ := Nat.exists_eq_add_of_le' hn
    subst hs
    apply loop_of_inr
    by_cases hlong : s.p + 4 < text.length
    · obtain ⟨tag, len, octets, hheader, hturn, -⟩ := messageTurn_header h hlong
      rw [hoctets] at hheader
      exact hturn ((List.cons.inj hheader).1 ▸ htag) turns
    · exact messageTurn_short (Nat.le_of_not_lt hlong) turns
  | @node isCtWap tag value octets htag hne hlength hvalue hrest ih =>
    have hlen : (UInt8.ofNat value.length).toNat = value.length :=
      UInt8.toNat_ofNat_of_lt' (Nat.lt_succ_of_le hlength)
    have hone : 1 ≤ value.length := List.length_pos_iff.mpr hne
    have hle : value.length ≤ (value ++ octets).length := by
      rw [List.length_append]
      exact Nat.le_add_right _ _
    simp only [List.length_cons, List.length_append] at hoctetsLength
    have hnext := textOctets_next hoctets
    rw [hlen, List.drop_left] at hnext
    obtain ⟨enough, henough⟩ := ih (by omega) (by omega) hnext (by omega)
    obtain ⟨enough', henough'⟩ := nodeOk_of_valueOk
      ⟨tag.toNat, value.length, value, false⟩ hvalue rfl hlength
    refine ⟨max enough enough' + 1, fun turns hturns n hn s hs hwap => ?_⟩
    obtain ⟨n, rfl⟩ := Nat.exists_eq_add_of_le' (Nat.le_of_add_left_le hn)
    subst hs
    obtain ⟨tag', len', octets', hheader, -, hturn⟩ := messageTurn_header h (s := s) (by omega)
    rw [hoctets] at hheader
    cases hheader
    have hturn := hturn htag turns
    have hnode := ofHex_ok h hp hoctets (by rwa [hlen]) (by rwa [hlen])
    rw [hlen, List.take_left] at hnode
    rw [hlen] at hturn
    obtain ⟨x, hconvert, hconverts⟩ := convertNode_ok htag hnode rfl rfl hne turns
    obtain ⟨s', rfl⟩ := hconverts.iff.mpr (henough' turns (by omega) s hwap)
    rw [hconvert] at hturn
    rw [loop_of_inl hturn]
    refine henough turns (by omega) n (by omega) _ rfl ?_
    rw [← hwap]
    exact hconverts.isCtWapPush_eq s' rfl

end Nodes

/-- **When a message is converted.**  The conversion of a text of hex digits comes to its end, trips
no assertion, reads no character past the end of the text and no octet outside of a value, and stores
no more digits and octets than there is room for, if and only if the text is well formed. -/
theorem toMessage_safe_iff {text : List Char} (hhex : IsHex text) (heven : text.length % 2 = 0) :
    MessageSafe text ↔ WellFormed text := by
  rw [WellFormed, ← List.drop_one, ← RmcTlvNode.textOctets_drop]
  by_cases hshort : text.length < 2
  · refine iff_of_true ⟨0, none, if_pos (.inr hshort)⟩ (.short ?_)
    rw [RmcTlvNode.length_textOctets, List.length_drop]
    omega
  · have hlong : ¬ (text.length % 2 ≠ 0 ∨ text.length < 2) := by omega
    constructor
    · rintro ⟨turns, r, h⟩
      rw [toMessage, if_neg hlong] at h
      obtain ⟨x, hloop, hx⟩ := Option.map_eq_some_iff.mp h
      cases x with
      | error fault => cases hx
      | ok s =>
        exact nodes_sound hhex heven (show 2 ≤ text.length from Nat.le_of_not_lt hshort) rfl hloop
    · intro hwell
      obtain ⟨enough, henough⟩ := nodes_total hhex heven hwell (Nat.le_of_not_lt hshort) rfl rfl
      obtain ⟨r, hloop⟩ := henough enough (Nat.le_refl _) enough (Nat.le_refl _) ⟨2, false, .zero, -1⟩
        rfl rfl
      refine ⟨enough, some r, ?_⟩
      rw [toMessage, if_neg hlong, hloop]
      rfl

/-- A teleservice id, an address of one digit and bearer data. -/
def plainMessage : List Char := "0000021002020200540803000110".toList

theorem plainMessage_safe : MessageSafe plainMessage := by
  refine (toMessage_safe_iff (by decide) (by decide)).mpr ?_
  have hoctets : (textOctets plainMessage).tail =
      [0, 2, 0x10, 0x02] ++ ([2, 2, 0x00, 0x54] ++ [8, 3, 0x00, 0x01, 0x10]) := by decide
  rw [WellFormed, hoctets]
  refine @NodesOk.node false 0 [0x10, 0x02] _ (by decide) (by decide) (by decide) (Nat.le_refl 2) ?_
  refine @NodesOk.node false 2 [0x00, 0x54] _ (by decide) (by decide) (by decide) ?_ ?_
  · exact (⟨by decide, by decide⟩ : AddressFits [0x00, 0x54])
  · exact @NodesOk.node false 8 [0x00, 0x01, 0x10] [] (by decide) (by decide) (by decide) nofun
      (.short (by decide))

/-- A node that says two octets, of which there is one. -/
def shortMessage : List Char := "00000210".toList

/-- The null character behind the text trips the assertion of `char2Int`. -/
theorem shortMessage_fails : IsHex shortMessage ∧ shortMessage.length % 2 = 0 ∧
    (∀ turns, toMessage (turns + 1) shortMessage = some (.error .char2Int)) ∧
    ¬ MessageSafe shortMessage := by
  have hfails : ∀ turns, toMessage (turns + 1) shortMessage = some (.error .char2Int) := fun _ => rfl
  refine ⟨by decide, by decide, hfails, ?_⟩
  rintro ⟨turns, r, h⟩
  cases turns with
  | zero => cases h
  | succ turns =>
    rw [hfails turns] at h
    cases h

end MtkHw.Sms
