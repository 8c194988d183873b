import MtkHw.Lib.BitStream

/-!
# Nodes of a CDMA message

A CDMA message is a sequence of nodes, each a tag, a length and a value, written as hex digits.
`RmcTlvNode` is a node, and `hex2Bin` takes it out of the text; some values are streams of bits, which
`BitwiseOutputStream` writes and `BitwiseInputStream` reads.

What the code asserts, and what would be an access outside of an object, is a `CdmaFault`.  A `char`
is not signed.
-/

namespace MtkHw.Sms

open Lib

/-- How the conversion of a message may fail. -/
inductive CdmaFault where
  | /-- The assertions of `BitwiseOutputStream::write`. -/ write
  | /-- The assertions of `BitwiseInputStream::read`. -/ read
  | /-- The assertions of `RmcTlvNode::hex2Bin`. -/ hex2Bin
  | /-- The assertion of `RmcTlvNode::char2Int`. -/ char2Int
  | /-- A character behind the end of the text is read. -/ pastEnd
  | /-- An octet outside of an array or a vector is read. -/ range
  | /-- An octet outside of an array is stored. -/ store
  | /-- A loop does not end. -/ running
deriving DecidableEq, Repr

/-- A computation that goes on without a fault fails only at its beginning. -/
theorem exists_bind_ok {α β : Type} (x : Except CdmaFault α) (g : α → β) :
    (∃ r, (x >>= fun a => Except.ok (g a)) = .ok r) ↔ ∃ a, x = .ok a := by
  cases x with
  | error fault => exact iff_of_false (fun ⟨_, h⟩ => absurd h nofun) (fun ⟨_, h⟩ => absurd h nofun)
  | ok a => exact iff_of_true ⟨_, rfl⟩ ⟨_, rfl⟩

/-! ## Streams of bits -/

/-- `m_end` is the end of the buffer, in bits. -/
structure BitwiseOutputStream where
  buf : List UInt8
  pos : Nat
  endPos : Nat

namespace BitwiseOutputStream

def init (startLen : Nat) : BitwiseOutputStream := ⟨List.replicate startLen 0, 0, startLen <<< 3⟩

def write (s : BitwiseOutputStream) (bits data : Nat) : Except CdmaFault BitwiseOutputStream :=
  if ¬ (bits > 0 ∧ bits ≤ 8) then .error .write
  else if ¬ s.pos + bits < s.endPos then .error .write
  else .ok { s with buf := orField s.buf s.pos bits data, pos := s.pos + bits }

def getByteLen (s : BitwiseOutputStream) : Nat :=
  let len := s.pos >>> 3
  if s.pos &&& 0x7 ≠ 0 then len + 1 else len

/-- The stream has been written with some fields. -/
structure Has (s : BitwiseOutputStream) (fields : List Field) : Prop where
  written : Written s.buf fields
  pos_eq : s.pos = bitLength fields
  endPos_eq : s.endPos = 8 * s.buf.length

theorem has_init (startLen : Nat) : (init startLen).Has [] where
  written := Written.nil startLen
  pos_eq := rfl
  endPos_eq := by
    rw [init, List.length_replicate, Nat.shiftLeft_eq]
    exact Nat.mul_comm _ _

/-- A field of one to eight bits is written if there is room behind it. -/
theorem Has.write {s : BitwiseOutputStream} {fields : List Field} (h : s.Has fields) {bits : Nat}
    (hne : 0 < bits) (hbits : bits ≤ 8) (hroom : bitLength fields + bits < s.endPos) (data : Nat) :
    ∃ s', s.write bits data = .ok s' ∧ s'.Has (fields ++ [(bits, data)]) ∧
      s'.endPos = s.endPos := by
  have hpos := h.pos_eq
  refine ⟨{ s with buf := orField s.buf s.pos bits data, pos := s.pos + bits }, ?_, ⟨?_, ?_, ?_⟩, rfl⟩
  · rw [BitwiseOutputStream.write, if_neg (not_not_intro ⟨hne, hbits⟩),
      if_neg (not_not_intro (hpos ▸ hroom))]
  · rw [hpos]
    exact h.written.snoc hne hbits (by rw [← h.endPos_eq]; exact Nat.le_of_lt hroom) data
  · rw [hpos, bitLength_append, bitLength_cons, bitLength_nil, Nat.add_zero]
  · rw [length_orField]
    exact h.endPos_eq

/-- The fields that `write` is to write one after the other. -/
def writeAll (s : BitwiseOutputStream) (fields : List Field) :
    Except CdmaFault BitwiseOutputStream := fields.foldlM (fun s field => s.write field.1 field.2) s

theorem Has.writeAll {s : BitwiseOutputStream} {fields fields' : List Field} (h : s.Has fields)
    (hbits : ∀ field ∈ fields', 0 < field.1 ∧ field.1 ≤ 8)
    (hroom : bitLength fields + bitLength fields' < s.endPos) :
    ∃ s', s.writeAll fields' = .ok s' ∧ s'.Has (fields ++ fields') ∧ s'.endPos = s.endPos := by
  induction fields' generalizing s fields with
  | nil => exact ⟨s, rfl, (List.append_nil fields).symm ▸ h, rfl⟩
  | cons field fields' ih =>
    obtain ⟨⟨hne, hle⟩, hbits'⟩ := List.forall_mem_cons.mp hbits
    rw [bitLength_cons] at hroom
    obtain ⟨s', hwrite, hhas, hend⟩ := h.write hne hle (by omega) field.2
    obtain ⟨s'', hall, hhas', hend'⟩ := ih hhas hbits' (by
      rw [bitLength_append, bitLength_cons, bitLength_nil, hend]
      omega)
    refine ⟨s'', ?_, ?_, hend'.trans hend⟩
    · rw [BitwiseOutputStream.writeAll, List.foldlM_cons, hwrite]
      exact hall
    · rwa [List.append_assoc] at hhas'

theorem getByteLen_eq (s : BitwiseOutputStream) : s.getByteLen = (s.pos + 7) / 8 := by
  unfold getByteLen
  rw [Nat.shiftRight_eq_div_pow, Nat.and_two_pow_sub_one_eq_mod _ 3]
  dsimp only
  split <;> omega

end BitwiseOutputStream

structure BitwiseInputStream where
  buf : List UInt8
  pos : Nat
  endPos : Nat

namespace BitwiseInputStream

def init (buf : List UInt8) : BitwiseInputStream := ⟨buf, 0, buf.length <<< 3⟩

/-- The second octet is there whenever it is looked at. -/
def read (s : BitwiseInputStream) (bits : Nat) : Except CdmaFault (UInt8 × BitwiseInputStream) :=
  if ¬ (bits > 0 ∧ bits ≤ 8) then .error .read
  else if ¬ s.pos + bits ≤ s.endPos then .error .read
  else .ok (UInt8.ofNat (getField s.buf s.pos bits), { s with pos := s.pos + bits })

/-- The stream has some fields ahead. -/
structure Ahead (s : BitwiseInputStream) (fields : List Field) : Prop where
  carries : Carries s.buf s.pos fields
  room : s.pos + bitLength fields ≤ s.endPos

/-- The first field is read. -/
theorem Ahead.read {s : BitwiseInputStream} {bits data : Nat} {fields : List Field}
    (h : s.Ahead ((bits, data) :: fields)) (hne : 0 < bits) (hbits : bits ≤ 8) :
    ∃ s', s.read bits = .ok (UInt8.ofNat (data % 2 ^ bits), s') ∧ s'.Ahead fields := by
  have hroom := h.room
  rw [bitLength_cons, ← Nat.add_assoc] at hroom
  refine ⟨{ s with pos := s.pos + bits }, ?_, h.carries.2, hroom⟩
  rw [BitwiseInputStream.read, if_neg (not_not_intro ⟨hne, hbits⟩),
    if_neg (not_not_intro (Nat.le_of_add_right_le hroom)), h.carries.getField hbits]

/-- A field is read if it lies in front of the end. -/
theorem read_eq (s : BitwiseInputStream) {bits : Nat} (hne : 0 < bits) (hbits : bits ≤ 8) :
    s.read bits =
      if s.pos + bits ≤ s.endPos then
        .ok (UInt8.ofNat (getField s.buf s.pos bits), { s with pos := s.pos + bits })
      else .error .read := by
  rw [BitwiseInputStream.read, if_neg (not_not_intro ⟨hne, hbits⟩)]
  exact ite_not _ _ _

section ReadMany

variable {σ : Type} (width : σ → Nat) (store : σ → Nat → UInt8 → Except CdmaFault σ)

/-- An iteration of a loop that reads a field and stores it. -/
def readMany (s : σ × BitwiseInputStream) (i : Nat) : Except CdmaFault (σ × BitwiseInputStream) := do
  let (digit, body) ← s.2.read (width s.1)
  let x ← store s.1 i digit
  return (x, body)

variable {width store} {bits : Nat} {Room : Nat → Prop}

/-- The loop reads what lies in front of the end, and stores it while there is room. -/
theorem readMany_total (hne : 0 < bits) (hbits : bits ≤ 8)
    (hstore : ∀ x i digit, Room i → ∃ x', store x i digit = .ok x' ∧ width x' = width x)
    {x : σ} (hx : width x = bits) {body : BitwiseInputStream} {n : Nat}
    (hend : body.pos + bits * n ≤ body.endPos) (hroom : ∀ i < n, Room i) :
    ∃ x' body', (List.range n).foldlM (readMany width store) (x, body) = .ok (x', body') ∧
      width x' = bits ∧ body'.pos = body.pos + bits * n ∧ body'.endPos = body.endPos := by
  induction n with
  | zero => exact ⟨x, body, rfl, hx, rfl, rfl⟩
  | succ n ih =>
    rw [Nat.mul_succ] at hend
    obtain ⟨x', body', hloop, hx', hpos, hend'⟩ := ih (by omega) fun i hi =>
      hroom i (Nat.lt_succ_of_lt hi)
    obtain ⟨x'', hx'', hwidth⟩ := hstore x' n (UInt8.ofNat (getField body'.buf body'.pos bits))
      (hroom n (Nat.lt_succ_self n))
    refine ⟨x'', { body' with pos := body'.pos + bits }, ?_, hwidth.trans hx', ?_, hend'⟩
    · rw [List.range_succ, List.foldlM_append, hloop]
      simp only [List.foldlM_cons, List.foldlM_nil, readMany, hx', bind, Except.bind]
      rw [read_eq body' hne hbits, if_pos (by omega)]
      dsimp only
      rw [hx'']
      rfl
    · change body'.pos + bits = _
      rw [hpos, Nat.mul_succ, Nat.add_assoc]

/-- If the loop comes to its end all the fields lay in front of the end, and there was room. -/
theorem readMany_sound (hne : 0 < bits) (hbits : bits ≤ 8)
    (hstore : ∀ x i digit, Room i → ∃ x', store x i digit = .ok x' ∧ width x' = width x)
    (hfull : ∀ x i digit, ¬ Room i → ∃ fault, store x i digit = .error fault)
    {x : σ} (hx : width x = bits) {body : BitwiseInputStream} (hpos : body.pos ≤ body.endPos) {n : Nat}
    {r : σ × BitwiseInputStream}
    (h : (List.range n).foldlM (readMany width store) (x, body) = .ok r) :
    body.pos + bits * n ≤ body.endPos ∧ ∀ i < n, Room i := by
  induction n generalizing r with
  | zero => exact ⟨hpos, nofun⟩
  | succ n ih =>
    rw [List.range_succ, List.foldlM_append] at h
    cases hloop : (List.range n).foldlM (readMany width store) (x, body) with
    | error fault =>
      rw [hloop] at h
      cases h
    | ok r' =>
      rw [hloop] at h
      obtain ⟨hend, hroom⟩ := ih hloop
      obtain ⟨x', body', hloop', hx', hpos', hend'⟩ := readMany_total hne hbits hstore hx hend hroom
      rw [hloop] at hloop'
      cases hloop'
      have hturn : readMany width store (x', body') n = .ok r := by
        change (readMany width store (x', body') n >>= pure) = _ at h
        rwa [bind_pure] at h
      simp only [readMany, hx', bind, Except.bind] at hturn
      rw [read_eq body' hne hbits] at hturn
      have hfits : body'.pos + bits ≤ body'.endPos := by
        by_contra hpast
        rw [if_neg hpast] at hturn
        cases hturn
      refine ⟨by rw [Nat.mul_succ]; omega, fun i hi => ?_⟩
      rcases Nat.lt_succ_iff_lt_or_eq.mp hi with hlt | rfl
      · exact hroom i hlt
      · by_contra hno
        rw [if_pos hfits] at hturn
        obtain ⟨fault, hfault⟩ := hfull x' i (UInt8.ofNat (getField body'.buf body'.pos bits)) hno
        dsimp only at hturn
        rw [hfault] at hturn
        cases hturn

/-- **When a loop over fields comes to its end.** -/
theorem readMany_iff (hne : 0 < bits) (hbits : bits ≤ 8)
    (hstore : ∀ x i digit, Room i → ∃ x', store x i digit = .ok x' ∧ width x' = width x)
    (hfull : ∀ x i digit, ¬ Room i → ∃ fault, store x i digit = .error fault)
    {x : σ} (hx : width x = bits) {body : BitwiseInputStream} (hpos : body.pos ≤ body.endPos)
    (n : Nat) :
    (∃ r, (List.range n).foldlM (readMany width store) (x, body) = .ok r) ↔
      body.pos + bits * n ≤ body.endPos ∧ ∀ i < n, Room i := by
  constructor
  · rintro ⟨r, h⟩
    exact readMany_sound hne hbits hstore hfull hx hpos h
  · rintro ⟨hend, hroom⟩
    obtain ⟨x', body', h, -⟩ := readMany_total hne hbits hstore hx hend hroom
    exact ⟨(x', body'), h⟩

end ReadMany

end BitwiseInputStream

/-! ## Nodes -/

/-- A node; `error` is `m_error < 0`. -/
structure RmcTlvNode where
  tag : Nat
  length : Nat
  value : List UInt8
  error : Bool
deriving DecidableEq, Repr

/-- A digit of `%02x`. -/
def lowerHexDigit (n : Nat) : Char := if n < 10 then Char.ofNat (48 + n) else Char.ofNat (87 + n)

/-- `String8::format("%02x", b)` -/
def hexByte (b : Nat) : List Char := [lowerHexDigit (b / 16), lowerHexDigit (b % 16)]

/-! ## Texts of hex digits -/

/-- The value of a hex digit. -/
def hexValue (c : Char) : Option Nat :=
  if '0' ≤ c ∧ c ≤ '9' then some (c.toNat - 48)
  else if 'A' ≤ c ∧ c ≤ 'F' then some (c.toNat - 65 + 10)
  else if 'a' ≤ c ∧ c ≤ 'f' then some (c.toNat - 97 + 10)
  else none

/-- A text of hex digits. -/
def IsHex (text : List Char) : Prop := ∀ c ∈ text, (hexValue c).isSome = true

instance (text : List Char) : Decidable (IsHex text) :=
  List.decidableBAll (fun c => (hexValue c).isSome = true) text

/-- The octets that pairs of hex digits stand for. -/
def textOctets : List Char → List UInt8
  | high :: low :: text =>
      UInt8.ofNat ((hexValue high).getD 0 * 16 + (hexValue low).getD 0) :: textOctets text
  | _ => []

namespace RmcTlvNode

def toHexHeader (node : RmcTlvNode) : List Char := hexByte node.tag ++ hexByte node.length

def toHexBody (node : RmcTlvNode) : List Char := node.value.flatMap fun b => hexByte b.toNat

def char2Int (c : Char) : Except CdmaFault UInt8 :=
  if '0' ≤ c ∧ c ≤ '9' then .ok (UInt8.ofNat (c.toNat - 48))
  else if 'A' ≤ c ∧ c ≤ 'F' then .ok (UInt8.ofNat (c.toNat - 65 + 10))
  else if 'a' ≤ c ∧ c ≤ 'f' then .ok (UInt8.ofNat (c.toNat - 97 + 10))
  else .error .char2Int

/-- A character of a text, which ends with a null character. -/
def charAt (text : List Char) (i : Nat) : Except CdmaFault Char :=
  if h : i < text.length then .ok text[i] else if i = text.length then .ok '\x00'
  else .error .pastEnd

/-- The octet of two digits. -/
def octetAt (text : List Char) (i : Nat) : Except CdmaFault UInt8 := do
  let high ← char2Int (← charAt text i)
  let low ← char2Int (← charAt text (i + 1))
  return high <<< 4 ||| low

/-- `hex2Bin` on the text from `p` on: the octets it finds, of which the first is the tag, the second
the length and the others the value. -/
def hex2Bin (text : List Char) (p len : Nat) : Except CdmaFault (List UInt8) :=
  if len % 2 ≠ 0 then .error .hex2Bin
  else if ¬ len ≥ 6 then .error .hex2Bin
  else (List.range (len / 2)).mapM fun i => octetAt text (p + 2 * i)

/-- `RmcTlvNode(hexPdu, len)` -/
def ofHex (text : List Char) (p len : Nat) : Except CdmaFault RmcTlvNode := do
  let octets ← hex2Bin text p len
  let length := (octets.getD 1 0).toNat
  return {
    tag := (octets.getD 0 0).toNat, length, value := octets.drop 2
    error := len ≠ length * 2 + 4 }

/-! ### Texts and octets -/

theorem charAt_cons (c : Char) (text : List Char) (i : Nat) :
    charAt (c :: text) (i + 1) = charAt text i := by
  simp [charAt]

section Text

theorem hexValue_lt {c : Char} {n : Nat} (h : hexValue c = some n) : n < 16 := by
  unfold hexValue at h
  split_ifs at h with hdigit hupper hlower
  · have : c.toNat ≤ '9'.toNat := hdigit.2
    cases h
    change c.toNat ≤ 57 at this
    omega
  · have : c.toNat ≤ 'F'.toNat := hupper.2
    cases h
    change c.toNat ≤ 70 at this
    omega
  · have : c.toNat ≤ 'f'.toNat := hlower.2
    cases h
    change c.toNat ≤ 102 at this
    omega

/-- `char2Int` and `strtol` agree on the digits. -/
theorem char2Int_eq {c : Char} {n : Nat} (h : hexValue c = some n) :
    char2Int c = .ok (UInt8.ofNat n) := by
  unfold hexValue at h
  unfold char2Int
  split_ifs at h ⊢ <;> (cases h; rfl)

variable {text : List Char}

theorem isHex_cons {c : Char} (h : IsHex (c :: text)) :
    (∃ n, hexValue c = some n ∧ n < 16) ∧ IsHex text := by
  obtain ⟨hc, htext⟩ := List.forall_mem_cons.mp h
  obtain ⟨n, hn⟩ := Option.isSome_iff_exists.mp hc
  exact ⟨⟨n, hn, hexValue_lt hn⟩, htext⟩

theorem shift_or_eq {n m : Nat} (hn : n < 16) (hm : m < 16) :
    UInt8.ofNat n <<< 4 ||| UInt8.ofNat m = UInt8.ofNat (n * 16 + m) := by
  have hall : ∀ n < 16, ∀ m < 16,
      UInt8.ofNat n <<< 4 ||| UInt8.ofNat m = UInt8.ofNat (n * 16 + m) := by decide +kernel
  exact hall n hn m hm

/-- Two digits that are there are converted. -/
theorem octetAt_textOctets (h : IsHex text) {i : Nat} (hi : i < (textOctets text).length) :
    octetAt text (2 * i) = .ok (textOctets text)[i] := by
  induction text using textOctets.induct generalizing i with
  | case1 high low text ih =>
    obtain ⟨⟨n, hhigh, hn⟩, h⟩ := isHex_cons h
    obtain ⟨⟨m, hlow, hm⟩, h⟩ := isHex_cons h
    cases i with
    | zero =>
      simp only [octetAt, textOctets, charAt_cons, List.getElem_cons_zero, hhigh, hlow,
        Option.getD_some]
      simp only [charAt, List.length_cons, Nat.zero_lt_succ, dif_pos, List.getElem_cons_zero, bind,
        Except.bind, char2Int_eq hhigh, char2Int_eq hlow, pure, Except.pure, Nat.mul_zero,
        shift_or_eq hn hm]
    | succ i =>
      simp only [textOctets, List.length_cons] at hi
      simp only [textOctets, List.getElem_cons_succ]
      rw [← ih h (Nat.lt_of_succ_lt_succ hi)]
      simp only [octetAt, show 2 * (i + 1) = 2 * i + 1 + 1 by omega, charAt_cons]
  | case2 text hpairs =>
    rw [textOctets] at hi
    · cases hi
    · exact hpairs

theorem length_textOctets (text : List Char) : (textOctets text).length = text.length / 2 := by
  induction text using textOctets.induct with
  | case1 high low text ih =>
    simp only [textOctets, List.length_cons, ih]
    omega
  | case2 text hpairs =>
    rw [textOctets]
    · cases text with
      | nil => rfl
      | cons c text =>
        cases text with
        | nil => simp
        | cons d text => exact absurd rfl (hpairs c d text)
    · exact hpairs

/-- The octets of the rest of a text. -/
theorem textOctets_drop (text : List Char) (i : Nat) :
    textOctets (text.drop (2 * i)) = (textOctets text).drop i := by
  induction text using textOctets.induct generalizing i with
  | case1 high low text ih =>
    cases i with
    | zero => rfl
    | succ i =>
      rw [show 2 * (i + 1) = 2 * i + 1 + 1 by omega, List.drop_succ_cons, List.drop_succ_cons, ih,
        textOctets, List.drop_succ_cons]
  | case2 text hpairs =>
    have hshort : text.length ≤ 1 := by
      cases text with
      | nil => exact Nat.zero_le _
      | cons c text =>
        cases text with
        | nil => exact Nat.le_refl _
        | cons d text => exact absurd rfl (hpairs c d text)
    cases i with
    | zero => rfl
    | succ i =>
      rw [List.drop_eq_nil_of_le (by omega), textOctets]
      · rw [textOctets]
        · exact List.drop_nil.symm
        · exact hpairs
      · exact nofun

/-- The text is read from a position on as the rest of it is from its beginning. -/
theorem hex2Bin_drop {p : Nat} (hp : p ≤ text.length) (len : Nat) :
    hex2Bin text p len = hex2Bin (text.drop p) 0 len := by
  have hchar : ∀ i, charAt text (p + i) = charAt (text.drop p) i := by
    intro i
    unfold charAt
    by_cases hlt : p + i < text.length
    · rw [dif_pos hlt, dif_pos (by rw [List.length_drop]; omega), List.getElem_drop]
    · rw [dif_neg hlt, dif_neg (by rw [List.length_drop]; omega)]
      exact if_congr (by rw [List.length_drop]; omega) rfl rfl
  have hoctet : (fun i => octetAt text (p + 2 * i)) =
      fun i => octetAt (text.drop p) (0 + 2 * i) := by
    funext i
    rw [Nat.zero_add, octetAt, octetAt, hchar, Nat.add_assoc, hchar]
  rw [hex2Bin, hex2Bin, hoctet]

/-- A digit that is asked for behind the end is refused. -/
theorem octetAt_end (text : List Char) : octetAt text text.length = .error .char2Int := by
  rw [octetAt, charAt, dif_neg (Nat.lt_irrefl _), if_pos rfl]
  rfl

theorem mapM_range_error {ε β : Type} {f : Nat → Except ε β} {n k : Nat} (hn : n < k) {e : ε}
    (hf : f n = .error e) : ∃ e', (List.range k).mapM f = .error e' := by
  induction k with
  | zero => cases hn
  | succ k ih =>
    rw [List.range_succ, List.mapM_append]
    cases hk : (List.range k).mapM f with
    | error e' => exact ⟨e', rfl⟩
    | ok r =>
      rcases Nat.lt_succ_iff_lt_or_eq.mp hn with hlt | rfl
      · obtain ⟨e', he'⟩ := ih hlt
        rw [hk] at he'
        cases he'
      · refine ⟨e, ?_⟩
        rw [List.mapM_cons, hf]
        rfl

/-- The octets of a node are those of the text, if they are there. -/
theorem hex2Bin_eq (h : IsHex text) {k : Nat} (hk : 3 ≤ k) (hlength : k ≤ (textOctets text).length) :
    hex2Bin text 0 (2 * k) = .ok ((textOctets text).take k) := by
  have hget : ∀ n ≤ (textOctets text).length, (List.range n).mapM (m := Except CdmaFault) (fun i =>
      octetAt text (0 + 2 * i)) = .ok ((textOctets text).take n) := by
    intro n
    induction n with
    | zero => intro _; rfl
    | succ n ih =>
      intro hn
      rw [List.range_succ, List.mapM_append, ih (Nat.le_of_succ_le hn)]
      simp only [List.mapM_cons, List.mapM_nil, Nat.zero_add, octetAt_textOctets h hn]
      simp [bind, Except.bind, pure, Except.pure, List.take_add_one]
  rw [hex2Bin, if_neg (by omega), if_neg (by omega), Nat.mul_div_cancel_left _ Nat.two_pos,
    hget k hlength]

/-- A node that is longer than the text is refused, and so is one without a value. -/
theorem hex2Bin_error (heven : text.length % 2 = 0) {k : Nat}
    (hk : k < 3 ∨ (textOctets text).length < k) :
    ∃ fault, hex2Bin text 0 (2 * k) = .error fault := by
  rw [hex2Bin, if_neg (by omega)]
  by_cases hlong : 2 * k ≥ 6
  · have hend : octetAt text (0 + 2 * (textOctets text).length) = .error .char2Int := by
      rw [length_textOctets, Nat.zero_add, show 2 * (text.length / 2) = text.length by omega]
      exact octetAt_end text
    rw [if_neg (not_not_intro hlong), Nat.mul_div_cancel_left _ Nat.two_pos]
    exact mapM_range_error (by omega) hend
  · exact ⟨_, if_pos hlong⟩

end Text

/-! ### A node written and read -/

theorem hexValue_lowerHexDigit : ∀ n < 16, hexValue (lowerHexDigit n) = some n := by decide

/-- What is written with `%02x` is a text of hex digits, of the same octets. -/
theorem textOctets_flatMap (octets : List UInt8) :
    IsHex (octets.flatMap fun b => hexByte b.toNat) ∧
      textOctets (octets.flatMap fun b => hexByte b.toNat) = octets := by
  induction octets with
  | nil => exact ⟨nofun, rfl⟩
  | cons b octets ih =>
    have hb := b.toNat_lt
    have hhigh := hexValue_lowerHexDigit (b.toNat / 16) (by omega)
    have hlow := hexValue_lowerHexDigit (b.toNat % 16) (by omega)
    rw [List.flatMap_cons]
    change IsHex (lowerHexDigit (b.toNat / 16) :: lowerHexDigit (b.toNat % 16) ::
        octets.flatMap fun b => hexByte b.toNat) ∧
      textOctets (lowerHexDigit (b.toNat / 16) :: lowerHexDigit (b.toNat % 16) ::
        octets.flatMap fun b => hexByte b.toNat) = b :: octets
    constructor
    · refine List.forall_mem_cons.mpr ⟨by rw [hhigh]; rfl, List.forall_mem_cons.mpr ⟨?_, ih.1⟩⟩
      rw [hlow]
      rfl
    · rw [textOctets, ih.2, hhigh, hlow, Option.getD_some, Option.getD_some, Nat.mul_comm,
        Nat.div_add_mod, UInt8.ofNat_toNat]

theorem length_flatMap_hexByte (octets : List UInt8) :
    (octets.flatMap fun b => hexByte b.toNat).length = 2 * octets.length := by
  induction octets with
  | nil => rfl
  | cons b octets ih =>
    rw [List.flatMap_cons, List.length_append, ih, List.length_cons]
    exact Nat.add_comm _ _

theorem hex2Bin_flatMap {octets : List UInt8} (h : 3 ≤ octets.length) :
    hex2Bin (octets.flatMap fun b => hexByte b.toNat) 0 (2 * octets.length) = .ok octets := by
  obtain ⟨hhex, hoctets⟩ := textOctets_flatMap octets
  rw [hex2Bin_eq hhex h (Nat.le_of_eq (by rw [hoctets])), hoctets, List.take_length]

/-- **A node survives its text.**  What is written of a node that is as long as it says is read back
as it was. -/
theorem ofHex_toHex (node : RmcTlvNode) (htag : node.tag < 256) (hlength : node.length < 256)
    (hvalue : node.value.length = node.length) (hne : 0 < node.length)
    (herror : node.error = false) :
    ofHex (node.toHexHeader ++ node.toHexBody) 0 (node.toHexHeader ++ node.toHexBody).length =
      .ok node := by
  obtain ⟨tag, length, value, error⟩ := node
  dsimp only at htag hlength hvalue hne herror
  have htext : RmcTlvNode.toHexHeader ⟨tag, length, value, error⟩ ++
      RmcTlvNode.toHexBody ⟨tag, length, value, error⟩ =
      (UInt8.ofNat tag :: UInt8.ofNat length :: value).flatMap fun b => hexByte b.toNat := by
    simp only [toHexHeader, toHexBody, List.flatMap_cons, List.append_assoc]
    rw [UInt8.toNat_ofNat_of_lt' htag, UInt8.toNat_ofNat_of_lt' hlength]
  rw [htext, ofHex, length_flatMap_hexByte, hex2Bin_flatMap (by simp only [List.length_cons]; omega)]
  simp only [bind, Except.bind, pure, Except.pure, List.getD_cons_zero, List.getD_cons_succ,
    UInt8.toNat_ofNat_of_lt' htag, UInt8.toNat_ofNat_of_lt' hlength, List.length_cons, hvalue,
    herror]
  rw [decide_eq_false (by omega)]
  rfl

end RmcTlvNode

end MtkHw.Sms
