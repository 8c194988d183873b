import MtkHw.Phb.Packing

/-!
# The phone book: names survive

What a name in `AT+EPBW` says, by the rule of its encoding, against the name that the request came
with.  The encodings 81 and 82 take every character below 128 that is neither in the special table
nor one of the few unsupported ones as a code of the GSM alphabet; control characters and the delete
character are not in the alphabet at their places.  A zero character ends a name that is written
character by character.  `names_survive_iff` says that nothing else goes wrong.
-/

namespace MtkHw.Phb

open Lib Lib.Ring

/-! ## The rules of the encodings -/

/-- The character of a code in the GSM default alphabet; the escape is none. -/
def gsmChar (code : Nat) : Option Nat := if code = 0x1B then none else languageChars[code]?

/-- A code below 128 is one of the alphabet, otherwise its low seven bits are added to the base. -/
def decodeChar (base code : Nat) : Option Nat :=
  if code < 0x80 then gsmChar code else some (base + code % 0x80)

/-- Two digits for each code. -/
def decodeCodes : List UInt8 → Option (List Nat)
  | [] => some []
  | [_] => none
  | a :: b :: rest => do
      let code ← readHex [a, b]
      let codes ← decodeCodes rest
      some (code :: codes)

/-- The characters of the codes, when there are as many as the count says. -/
def decodeCounted (base count : Nat) (rest : List UInt8) : Option (List Nat) := do
  let codes ← decodeCodes rest
  if codes.length = count then codes.mapM (decodeChar base) else none

/-- `81`, the count, the bits 14 to 7 of the base, and the codes. -/
def decode81 : List UInt8 → Option (List Nat)
  | 0x38 :: 0x31 :: n₁ :: n₀ :: b₁ :: b₀ :: rest => do
      let count ← readHex [n₁, n₀]
      let base ← readHex [b₁, b₀]
      decodeCounted (128 * base) count rest
  | _ => none

/-- `82`, the count, the base, and the codes. -/
def decode82 : List UInt8 → Option (List Nat)
  | 0x38 :: 0x32 :: n₁ :: n₀ :: b₃ :: b₂ :: b₁ :: b₀ :: rest => do
      let count ← readHex [n₁, n₀]
      let base ← readHex [b₃, b₂, b₁, b₀]
      decodeCounted base count rest
  | _ => none

/-- Four digits for each character. -/
def decodeUcs2 (txt : List UInt8) : Option (List Nat) :=
  if txt.length % 4 = 0 then (charsOf txt).mapM readHex else none

/-- The escapes are undone. -/
def unescape : List UInt8 → List UInt8
  | 0x5C :: 0x35 :: 0x63 :: rest => backslash :: unescape rest
  | 0x5C :: 0x32 :: 0x32 :: rest => quote :: unescape rest
  | b :: rest => b :: unescape rest
  | [] => []

/-- What the name in a command says; in TC1 mode the digits themselves stand for the GSM text. -/
def decodeName : RilPhbCpbwEncode → List UInt8 → Option (List Nat)
  | .ira, txt => some ((unescape txt).map UInt8.toNat)
  | .ucs2, txt => decodeUcs2 txt
  | .ucs281, txt => decode81 txt
  | .ucs282, txt => decode82 txt
  | .gsm7bit, txt => decodeUcs2 txt

/-! ## Names -/

/-- The fields of an entry beside its name. -/
structure EntryData where
  index : Int
  ton : Int
  number : List UInt8

/-- A name of at most 40 characters for an entry that is not empty. -/
structure PhbName (data : EntryData) where
  txt : List UInt8
  digits : ∀ b ∈ txt, (hexDigitVal b).isSome
  four : txt.length % 4 = 0
  short : txt.length ≤ maxPhbNameLen * 4
  notEmpty : txt.length = 0 → data.number.length ≠ 0

section PhbName

variable {data : EntryData}

/-- The digits of the characters. -/
def PhbName.line (name : PhbName data) : List (List UInt8) := charsOf name.txt

/-- The characters. -/
def PhbName.chars (name : PhbName data) : List Nat :=
  name.line.map fun hex => (readHex hex).getD 0

/-- What the request to write the entry comes to. -/
def PhbName.request (name : PhbName data) (tc1 : Bool) : Option PhbOutcome :=
  requestWritePhbEntry tc1 true ⟨data.index, some data.number, data.ton, some name.txt⟩

/-- The command for the entry with the name in an encoding. -/
def EntryData.command (data : EntryData) (encodeMethod : RilPhbCpbwEncode) (alphaId : List UInt8) :
    List UInt8 :=
  epbwCommand data.index data.number data.ton alphaId encodeMethod

/-- Some text in the encoding 81 says the characters. -/
def Representable81 (cs : List Nat) : Prop := ∃ txt, decode81 txt = some cs

/-- Some text in the encoding 82 says the characters. -/
def Representable82 (cs : List Nat) : Prop := ∃ txt, decode82 txt = some cs

/-- The command says the name, and the encoders refuse a name that they cannot represent. -/
structure Survives (tc1 : Bool) (name : PhbName data) : Prop where
  decodes : ∃ encodeMethod alphaId,
    name.request tc1 = some (.command (data.command encodeMethod alphaId)) ∧
      decodeName encodeMethod alphaId = some name.chars
  refuses81 : ¬ Representable81 name.chars → ∀ des, ∃ des',
    encodeUCS2_0x81 name.line des nameSize nameSize = some (des', 0)
  refuses82 : ¬ Representable82 name.chars → ∀ des, ∃ des',
    encodeUCS2_0x82 name.line des nameSize nameSize = some (des', 0)

end PhbName

/-! ## When they do -/

/-- A control character or the delete character, none of which is in the GSM alphabet; a line feed
and a carriage return are. -/
def Control (c : Nat) : Prop := c < 0x20 ∧ c ≠ 0x0A ∧ c ≠ 0x0D ∨ c = 0x7F

instance (c : Nat) : Decidable (Control c) :=
  inferInstanceAs (Decidable (c < 0x20 ∧ c ≠ 0x0A ∧ c ≠ 0x0D ∨ c = 0x7F))

/-- A character beyond ASCII and beyond the GSM alphabet. -/
def Wide (c : Nat) : Prop := specialCode c = none ∧ 0x80 ≤ c

instance (c : Nat) : Decidable (Wide c) :=
  inferInstanceAs (Decidable (specialCode c = none ∧ 0x80 ≤ c))

/-- The names that `encodeUCS2_0x81` takes. -/
def Uses81 (cs : List Nat) : Prop :=
  3 < cs.length ∧ (∀ c ∈ cs, c < 0x8000 ∧ ¬ Forbidden c) ∧ OneBase (cs.filter needsBase)

instance (cs : List Nat) : Decidable (Uses81 cs) := inferInstanceAs (Decidable (_ ∧ _ ∧ _))

/-- The names that `encodeUCS2_0x82` takes. -/
def Uses82 (cs : List Nat) : Prop :=
  4 < cs.length ∧ (∀ c ∈ cs, ¬ Forbidden c) ∧ Close (cs.filter needsBase)

instance (cs : List Nat) : Decidable (Uses82 cs) := inferInstanceAs (Decidable (_ ∧ _ ∧ _))

/-- A name that is written character by character has no zero outside TC1 mode; another one has no
control characters when an encoding of the SIM takes it.  Where the encoders are not tried it
matters only that they would refuse what they cannot represent. -/
def NameOk {data : EntryData} (tc1 : Bool) (name : PhbName data) : Prop :=
  if Plain tc1 name.line then
    (tc1 = false → 0 ∉ name.chars) ∧
      ((∃ c ∈ name.chars, Control c) → (∃ c ∈ name.chars, Wide c) →
        ¬ Uses81 name.chars ∧ ¬ Uses82 name.chars)
  else (∃ c ∈ name.chars, Control c) → ¬ Uses81 name.chars ∧ ¬ Uses82 name.chars

instance {data : EntryData} (tc1 : Bool) (name : PhbName data) : Decidable (NameOk tc1 name) :=
  inferInstanceAs (Decidable (if Plain tc1 name.line then _ else _))

/-! ## Codes and characters -/

theorem gsmChar_special {c code : Nat} (h : specialCode c = some code) : gsmChar code = some c := by
  have htable : specialEncoding.all (fun entry => gsmChar entry.2 = some entry.1) = true := rfl
  exact of_decide_eq_true (List.all_eq_true.mp htable _ (mem_of_specialCode h))

/-- The characters below 128 that have their own code. -/
theorem gsmChar_self_iff : ∀ c < 0x80, specialCode c = none ∧ c ≠ 0x60 ∧ ¬ Forbidden c →
    (gsmChar c = some c ↔ ¬ Control c) := by
  decide +kernel

theorem Control.lt {c : Nat} (h : Control c) : c < 0x80 := by
  unfold Control at h
  omega

theorem control_ordinary : ∀ c < 0x80, Control c → specialCode c = none ∧ c ≠ 0x60 := by
  decide +kernel

/-- No code of the alphabet is a control character or a wide one. -/
theorem gsmChar_not : ∀ code < 0x80, ∀ c ∈ gsmChar code, ¬ Control c ∧ ¬ Wide c := by
  decide +kernel

/-- A code says its character unless that is a control character. -/
theorem Coded.decodeChar_iff {base base' c code : Nat} (h : Coded base c code) (hc : c < 65536)
    (hbase : base ≠ noBase → base' = base) (hforbidden : ¬ Forbidden c) :
    decodeChar base' code = some c ↔ ¬ Control c := by
  cases h with
  | special h =>
    rw [decodeChar, if_pos (specialCode_lt h), gsmChar_special h]
    refine iff_of_true rfl fun hcontrol => ?_
    rw [(control_ordinary c hcontrol.lt hcontrol).1] at h
    cases h
  | ordinary h hlt hne =>
    rw [decodeChar, if_pos hlt]
    exact gsmChar_self_iff c hlt ⟨h, hne, hforbidden⟩
  | based hneeds hlow heq =>
    rename_i low
    have hset : base ≠ noBase := by
      rintro rfl
      rw [noBase] at heq
      omega
    rw [decodeChar, if_neg (by omega), hbase hset, heq, Nat.add_mod_left, Nat.mod_eq_of_lt hlow]
    refine iff_of_true rfl fun hcontrol => ?_
    rw [← heq] at hcontrol
    obtain ⟨hspecial, hne⟩ := control_ordinary c hcontrol.lt hcontrol
    rw [needsBase_eq_false_of_lt hcontrol.lt hne] at hneeds
    cases hneeds

theorem mapM_cons_eq_some {f : Nat → Option Nat} {x y : Nat} {xs ys : List Nat} :
    (x :: xs).mapM f = some (y :: ys) ↔ f x = some y ∧ xs.mapM f = some ys := by
  rw [List.mapM_cons]
  cases f x with
  | none => exact iff_of_false nofun fun h => nomatch h.1
  | some z =>
    cases xs.mapM f with
    | none => exact iff_of_false nofun fun h => nomatch h.2
    | some zs =>
      change some (z :: zs) = some (y :: ys) ↔ _
      rw [Option.some_inj, Option.some_inj, Option.some_inj, List.cons.injEq]

/-- The codes say their characters when there is no control character among them. -/
theorem mapM_decodeChar_iff {base base' : Nat} {cs codes : List Nat}
    (h : List.Forall₂ (Coded base) cs codes) (hcs : ∀ c ∈ cs, c < 65536)
    (hbase : base ≠ noBase → base' = base) (hforbidden : ∀ c ∈ cs, ¬ Forbidden c) :
    codes.mapM (decodeChar base') = some cs ↔ ∀ c ∈ cs, ¬ Control c := by
  induction h with
  | nil => exact iff_of_true rfl nofun
  | cons hcode _ ih =>
    obtain ⟨hc, hrest⟩ := List.forall_mem_cons.mp hcs
    obtain ⟨hf, hfrest⟩ := List.forall_mem_cons.mp hforbidden
    rw [mapM_cons_eq_some, ih hrest hfrest, hcode.decodeChar_iff hc hbase hf, List.forall_mem_cons]

/-- Each character comes from a code. -/
theorem exists_of_mapM {f : Nat → Option Nat} {xs ys : List Nat} (h : xs.mapM f = some ys) :
    ∀ y ∈ ys, ∃ x, f x = some y := by
  induction xs generalizing ys with
  | nil =>
    cases h
    exact nofun
  | cons x xs ih =>
    cases ys with
    | nil => exact nofun
    | cons y ys =>
      obtain ⟨hx, hxs⟩ := mapM_cons_eq_some.mp h
      exact List.forall_mem_cons.mpr ⟨⟨x, hx⟩, ih hxs⟩

/-! ## Texts -/

theorem hexDigits_two (n : Nat) : hexDigits 2 n = [hexDigit (n / 16 % 16), hexDigit (n % 16)] := rfl

theorem hexDigits_four (n : Nat) : hexDigits 4 n = [hexDigit (n / 16 / 16 / 16 % 16),
    hexDigit (n / 16 / 16 % 16), hexDigit (n / 16 % 16), hexDigit (n % 16)] := rfl

theorem decodeCodes_text {codes : List Nat} (h : ∀ code ∈ codes, code < 0x100) :
    decodeCodes (codesText codes) = some codes := by
  induction codes with
  | nil => rfl
  | cons code codes ih =>
    obtain ⟨hcode, hrest⟩ := List.forall_mem_cons.mp h
    rw [codesText, List.flatMap_cons, ← codesText, hexDigits_two]
    change (do
      let code ← readHex (hexDigits 2 code)
      let codes ← decodeCodes (codesText codes)
      some (code :: codes)) = _
    rw [readHex_hexDigits hcode, ih hrest]
    rfl

theorem decodeCounted_text (base : Nat) {codes : List Nat} (h : ∀ code ∈ codes, code < 0x100) :
    decodeCounted base codes.length (codesText codes) = codes.mapM (decodeChar base) := by
  rw [decodeCounted, decodeCodes_text h]
  exact if_pos rfl

/-- A text in the encoding 81 says its codes. -/
theorem decode81_text {k : Nat} {codes : List Nat} (hk : k < 0x100) (hlen : codes.length < 0x100)
    (h : ∀ code ∈ codes, code < 0x100) :
    decode81 (ascii ['8', '1'] ++ hexDigits 2 codes.length ++ hexDigits 2 k ++ codesText codes) =
      codes.mapM (decodeChar (128 * k)) := by
  rw [hexDigits_two, hexDigits_two]
  change (do
    let count ← readHex (hexDigits 2 codes.length)
    let base ← readHex (hexDigits 2 k)
    decodeCounted (128 * base) count (codesText codes)) = _
  rw [readHex_hexDigits hlen, readHex_hexDigits hk]
  exact decodeCounted_text _ h

/-- A text in the encoding 82 says its codes. -/
theorem decode82_text {base : Nat} {codes : List Nat} (hbase : base < 65536)
    (hlen : codes.length < 0x100) (h : ∀ code ∈ codes, code < 0x100) :
    decode82 (ascii ['8', '2'] ++ hexDigits 2 codes.length ++ hexDigits 4 base ++
      codesText codes) = codes.mapM (decodeChar base) := by
  rw [hexDigits_two, hexDigits_four]
  change (do
    let count ← readHex (hexDigits 2 codes.length)
    let base ← readHex (hexDigits 4 base)
    decodeCounted base count (codesText codes)) = _
  rw [readHex_hexDigits hlen, readHex_hexDigits hbase]
  exact decodeCounted_text _ h

/-- The bits of the base that are printed; the digits are arbitrary when it is not set. -/
theorem header81_take {base len : Nat} (hbase : IsBase base) (hlen : len < 0x100) :
    ∃ k < 0x100, (base ≠ noBase → 128 * k = base) ∧
      (header81 base len).take 6 = ascii ['8', '1'] ++ hexDigits 2 len ++ hexDigits 2 k := by
  have hcount : formatHex 2 len = hexDigits 2 len := formatHex_eq (by decide) hlen
  rcases hbase with rfl | ⟨k, hk, rfl⟩
  · refine ⟨0x1F, by decide, fun h => absurd rfl h, ?_⟩
    rw [header81, hcount]
    rfl
  · refine ⟨k, hk, fun _ => rfl, ?_⟩
    have hshift : (128 * k) >>> 7 = k := by
      rw [Nat.shiftRight_eq_div_pow]
      exact Nat.mul_div_cancel_left k (by decide)
    rw [header81, hcount, hshift, formatHex_eq (by decide) hk]
    rfl

/-- The text that `encodeUCS2_0x81` writes says the name when no control character is in it. -/
theorem text81_iff {base : Nat} {cs codes : List Nat} (hcs : ∀ c ∈ cs, c < 65536)
    (hlen : cs.length < 0x100) (hforbidden : ∀ c ∈ cs, ¬ Forbidden c)
    (h : codes81 noBase cs = some (base, codes)) :
    decode81 (text81 base codes) = some cs ↔ ∀ c ∈ cs, ¬ Control c := by
  obtain ⟨hbase, -, hall⟩ := codes81_coded (.inl rfl) hcs h
  have hlength := hall.length_eq
  obtain ⟨k, hk, hset, htake⟩ := header81_take hbase (hlength ▸ hlen)
  rw [text81, htake, decode81_text hk (hlength ▸ hlen) (coded_lt hall)]
  exact mapM_decodeChar_iff hall hcs hset hforbidden

/-- The text that `encodeUCS2_0x82` writes says the name when no control character is in it. -/
theorem text82_iff {base : Nat} {cs codes : List Nat} (hcs : ∀ c ∈ cs, c < 65536)
    (hlen : cs.length < 0x100) (h : codes82 cs = some (base, codes)) :
    decode82 (text82 base codes) = some cs ↔ ∀ c ∈ cs, ¬ Control c := by
  have hspec := codes82_spec hcs
  rw [h] at hspec
  obtain ⟨hbase, hall, hforbidden, -⟩ := hspec
  have hlength := hall.length_eq
  rw [text82, header82, formatHex_eq (by decide) (show codes.length < 16 ^ 2 from hlength ▸ hlen),
    formatHex_eq (by decide) (show base < 16 ^ 4 from hbase),
    decode82_text hbase (hlength ▸ hlen) (coded_lt hall)]
  exact mapM_decodeChar_iff hall hcs (fun _ => rfl) hforbidden

/-- The escapes are undone. -/
theorem unescape_escapedText (txt : List UInt8) : unescape (escapedText txt) = txt := by
  induction txt with
  | nil => rfl
  | cons b txt ih =>
    rw [escapedText_cons]
    by_cases hback : b = backslash
    · subst hback
      change backslash :: unescape (escapedText txt) = _
      rw [ih]
    · by_cases hquote : b = quote
      · subst hquote
        change quote :: unescape (escapedText txt) = _
        rw [ih]
      · have hfirst : escapeByte backslash backslashCode b = [b] := if_neg hback
        have hsecond : escaped quote quoteCode [b] = [b] := by
          rw [escaped, List.flatMap_singleton]
          exact if_neg hquote
        rw [hfirst, hsecond, List.singleton_append]
        have hstep : ∀ rest, unescape (b :: rest) = b :: unescape rest := by
          intro rest
          rw [unescape]
          · rintro rest' rfl -
            exact hback rfl
          · rintro rest' rfl -
            exact hback rfl
        rw [hstep, ih]

/-! ## The characters of a name -/

section Chars

variable {data : EntryData} (name : PhbName data)

theorem PhbName.zero_notMem : 0 ∉ name.txt := by
  intro hz
  have hdigit := name.digits 0 hz
  revert hdigit
  decide

/-- Each character has four digits, and a value of sixteen bits. -/
theorem PhbName.line_spec : ∀ hex ∈ name.line, hex.length = 4 ∧
    ∃ c < 65536, readHex hex = some c ∧ hexCharToDecInt hex = c ∧ alphaChar hex = c := by
  intro hex hhex
  obtain ⟨hflat, -, hfour⟩ := charsOf_spec name.four
  have hlen := hfour hex hhex
  have hdigits : ∀ b ∈ hex, (hexDigitVal b).isSome := fun b hb => by
    refine name.digits b ?_
    rw [← hflat]
    exact List.mem_flatten.mpr ⟨hex, hhex, hb⟩
  obtain ⟨c, hc⟩ := Option.isSome_iff_exists.mp (readHex_isSome hdigits)
  have hlt := (map_lower_of_readHex hc).1
  rw [hlen] at hlt
  have hint : hexCharToDecInt hex = c := by
    rw [hexCharToDecInt, hc]
  refine ⟨hlen, c, hlt, hc, hint, ?_⟩
  rw [alphaChar, hint]
  omega

theorem PhbName.map_alphaChar : name.line.map alphaChar = name.chars := by
  refine List.map_congr_left fun hex hhex => ?_
  obtain ⟨-, c, -, hread, -, halpha⟩ := name.line_spec hex hhex
  rw [hread, halpha]
  rfl

theorem PhbName.chars_lt : ∀ c ∈ name.chars, c < 65536 := by
  rw [← name.map_alphaChar]
  exact alphaChars_lt name.line

theorem PhbName.length_chars : name.chars.length = name.line.length := List.length_map _

theorem PhbName.length_line_le : name.line.length ≤ 40 := by
  have hlength : 4 * name.line.length = name.txt.length := (charsOf_spec name.four).2.1
  have hshort : name.txt.length ≤ 160 := name.short
  omega

/-- A character is the value of its digits. -/
theorem PhbName.mem_chars {c : Nat} (hc : c ∈ name.chars) :
    ∃ hex ∈ name.line, readHex hex = some c ∧ hexCharToDecInt hex = c := by
  obtain ⟨hex, hhex, rfl⟩ := List.mem_map.mp hc
  obtain ⟨-, c, -, hread, hint, -⟩ := name.line_spec hex hhex
  exact ⟨hex, hhex, by rw [hread]; rfl, by rw [hread]; exact hint⟩

/-- The text of a name, in whatever case, says the characters. -/
theorem PhbName.decodeUcs2_eq {same : List (List UInt8)}
    (hsame : List.Forall₂ SameText same name.line) :
    decodeUcs2 same.flatten = some name.chars := by
  have hall : ∀ hex ∈ same, hex.length = 4 := by
    intro hex hhex
    obtain ⟨i, hi, rfl⟩ := List.getElem_of_mem hhex
    have hi' : i < name.line.length := hsame.length_eq ▸ hi
    have hget : SameText same[i] name.line[i] := hsame.get hi hi'
    rw [hget.length_eq]
    exact (name.line_spec _ (List.getElem_mem hi')).1
  have hchars : charsOf same.flatten = same ∧ same.flatten.length % 4 = 0 := by
    clear hsame
    induction same with
    | nil => exact ⟨rfl, rfl⟩
    | cons hex same ih =>
      obtain ⟨hhex, hrest⟩ := List.forall_mem_cons.mp hall
      obtain ⟨hflat, hmod⟩ := ih hrest
      match hex, hhex with
      | [a, b, c, d], _ =>
        refine ⟨?_, ?_⟩
        · change [a, b, c, d] :: charsOf same.flatten = _
          rw [hflat]
        · rw [List.flatten_cons, List.length_append]
          simp only [List.length_cons, List.length_nil]
          omega
  rw [decodeUcs2, if_pos hchars.2, hchars.1]
  have hspec := name.line_spec
  rw [PhbName.chars]
  clear hall hchars
  generalize name.line = line at hsame hspec
  induction hsame with
  | nil => rfl
  | cons hhex _ ih =>
    obtain ⟨hfirst, hrest⟩ := List.forall_mem_cons.mp hspec
    obtain ⟨-, c, -, hread, -⟩ := hfirst
    rw [List.mapM_cons, readHex_congr hhex, hread, ih hrest, List.map_cons, hread]
    rfl

/-- Outside TC1 mode a name that is written character by character has no character from 128 on. -/
theorem PhbName.chars_lt_of_plain (hplain : Plain false name.line) :
    ∀ c ∈ name.chars, c < 128 := by
  intro c hc
  obtain ⟨hex, hhex, -, hint⟩ := name.mem_chars hc
  have hwritable : hexCharToDecInt hex < 128 := (hplain hex hhex).1
  rw [hint] at hwritable
  exact Int.ofNat_lt.mp hwritable

/-- In TC1 mode its characters are in the tables. -/
theorem PhbName.chars_of_plain (hplain : Plain true name.line) :
    ∀ c ∈ name.chars, c ∈ languageChars ++ extensionChars.map Prod.fst := by
  intro c hc
  obtain ⟨hex, hhex, hread, -⟩ := name.mem_chars hc
  have hsmall : ∀ c ∈ languageChars ++ extensionChars.map Prod.fst, c < 65536 := by
    intro c hc
    have hall : (languageChars ++ extensionChars.map Prod.fst).all (· < 65536) = true := rfl
    exact of_decide_eq_true (List.all_eq_true.mp hall c hc)
  have hrow : ∀ c' ∈ languageChars ++ extensionChars.map Prod.fst,
      lowerHex c' = hex.map lowerByte → c = c' := by
    intro c' hc' heq
    have hread' : readHex (hexDigits 4 c') = some c' := readHex_hexDigits (hsmall c' hc')
    rw [readHex_congr (show (hexDigits 4 c').map lowerByte = hex.map lowerByte from heq), hread]
      at hread'
    exact Option.some.inj hread'
  rcases (hplain hex hhex).1 with hmem | hmem
  · obtain ⟨c', hc', heq⟩ := List.mem_map.mp hmem
    have hc'' := List.mem_append_left (extensionChars.map Prod.fst) hc'
    exact hrow c' hc'' heq ▸ hc''
  · obtain ⟨entry, hentry, heq⟩ := List.mem_map.mp hmem
    have hc'' := List.mem_append_right languageChars (List.mem_map_of_mem (f := Prod.fst) hentry)
    exact hrow entry.1 hc'' heq ▸ hc''

/-- A wide character is far from the control characters in a name that is written character by
character. -/
theorem PhbName.le_of_wide {tc1 : Bool} (hplain : Plain tc1 name.line) :
    ∀ c ∈ name.chars, Wide c → 0x20AC ≤ c := by
  intro c hc hwide
  cases tc1 with
  | false =>
    have hlt := name.chars_lt_of_plain hplain c hc
    exact absurd hwide.2 (Nat.not_le.mpr hlt)
  | true =>
    have hall : (languageChars ++ extensionChars.map Prod.fst).all
        (fun c => ¬ Wide c ∨ 0x20AC ≤ c) = true := by decide +kernel
    have hor := of_decide_eq_true
      (List.all_eq_true.mp hall c (name.chars_of_plain hplain c hc))
    exact hor.resolve_left (not_not.mpr hwide)

theorem ofInt_natCast (c : Nat) : UInt8.ofInt c = UInt8.ofNat c := by
  have hmod : ((c : Int) % 2 ^ 8).toNat = c % 2 ^ 8 := by omega
  rw [UInt8.ofInt, hmod, ← UInt8.toNat_inj, UInt8.toNat_ofNat', UInt8.toNat_ofNat']
  exact Nat.mod_mod c _

/-- The text that is written character by character outside TC1 mode says the name when there is no
zero in it. -/
theorem PhbName.decodeIra_iff (hplain : Plain false name.line) :
    decodeName .ira (escapedText ((name.line.map fun hex =>
      UInt8.ofInt (hexCharToDecInt hex)).takeWhile (· ≠ 0))) = some name.chars ↔
      0 ∉ name.chars := by
  have hbytes : (name.line.map fun hex => UInt8.ofInt (hexCharToDecInt hex)) =
      name.chars.map UInt8.ofNat := by
    rw [PhbName.chars, List.map_map]
    refine List.map_congr_left fun hex hhex => ?_
    obtain ⟨-, c, -, hread, hint, -⟩ := name.line_spec hex hhex
    rw [hint, Function.comp_apply, hread, ofInt_natCast]
    rfl
  have hval : ∀ c ∈ name.chars, (UInt8.ofNat c).toNat = c := by
    intro c hc
    have hlt := name.chars_lt_of_plain hplain c hc
    rw [UInt8.toNat_ofNat']
    exact Nat.mod_eq_of_lt (by omega)
  have hback : (name.chars.map UInt8.ofNat).map UInt8.toNat = name.chars := by
    rw [List.map_map]
    exact (List.map_congr_left hval).trans (List.map_id _)
  rw [decodeName, unescape_escapedText, hbytes, Option.some_inj]
  constructor
  · intro heq hz
    rw [← heq] at hz
    obtain ⟨b, hb, hzero⟩ := List.mem_map.mp hz
    have hne := List.mem_takeWhile_imp hb
    rw [decide_eq_true_eq] at hne
    exact hne (UInt8.toNat_inj.mp hzero)
  · intro hz
    have hall : (name.chars.map UInt8.ofNat).takeWhile (· ≠ 0) = name.chars.map UInt8.ofNat := by
      rw [List.takeWhile_eq_self_iff]
      intro b hb
      obtain ⟨c, hc, rfl⟩ := List.mem_map.mp hb
      rw [decide_eq_true_eq]
      intro hzero
      have hc0 := hval c hc
      rw [hzero] at hc0
      obtain rfl : 0 = c := hc0
      exact hz hc
    rw [hall, hback]

end Chars

/-! ## What can be represented -/

section Representable

variable {cs : List Nat}

theorem encoded81_isSome_iff (hcs : ∀ c ∈ cs, c < 65536) :
    (encoded81 cs).isSome ↔ Uses81 cs := by
  rw [encoded81, Uses81]
  by_cases hshort : cs.length ≤ 3
  · rw [if_pos hshort]
    exact iff_of_false Bool.false_ne_true fun h => Nat.not_lt.mpr hshort h.1
  · rw [if_neg hshort, codes81_isSome_iff (.inl rfl) hcs, Fits, if_pos rfl]
    exact (and_iff_right (Nat.lt_of_not_le hshort)).symm

theorem encoded82_isSome_iff (hcs : ∀ c ∈ cs, c < 65536) :
    (encoded82 cs).isSome ↔ Uses82 cs := by
  rw [encoded82, Uses82]
  by_cases hshort : cs.length ≤ 4
  · rw [if_pos hshort]
    exact iff_of_false Bool.false_ne_true fun h => Nat.not_lt.mpr hshort h.1
  · rw [if_neg hshort, codes82_isSome_iff hcs]
    exact (and_iff_right (Nat.lt_of_not_le hshort)).symm

theorem encoded81_text_iff {base : Nat} {codes : List Nat} (hcs : ∀ c ∈ cs, c < 65536)
    (hlen : cs.length < 0x100) (h : encoded81 cs = some (base, codes)) :
    decode81 (text81 base codes) = some cs ↔ ∀ c ∈ cs, ¬ Control c := by
  have huses : Uses81 cs := (encoded81_isSome_iff hcs).mp (by rw [h]; rfl)
  rw [encoded81, if_neg (Nat.not_le.mpr huses.1)] at h
  exact text81_iff hcs hlen (fun c hc => (huses.2.1 c hc).2) h

theorem encoded82_text_iff {base : Nat} {codes : List Nat} (hcs : ∀ c ∈ cs, c < 65536)
    (hlen : cs.length < 0x100) (h : encoded82 cs = some (base, codes)) :
    decode82 (text82 base codes) = some cs ↔ ∀ c ∈ cs, ¬ Control c := by
  have huses : Uses82 cs := (encoded82_isSome_iff hcs).mp (by rw [h]; rfl)
  rw [encoded82, if_neg (Nat.not_le.mpr huses.1)] at h
  exact text82_iff hcs hlen h

theorem representable81_of_uses (hcs : ∀ c ∈ cs, c < 65536) (hlen : cs.length < 0x100)
    (huses : Uses81 cs) (hcontrol : ∀ c ∈ cs, ¬ Control c) : Representable81 cs := by
  obtain ⟨result, hcodes⟩ := Option.isSome_iff_exists.mp ((encoded81_isSome_iff hcs).mpr huses)
  exact ⟨_, (encoded81_text_iff hcs hlen hcodes).mpr hcontrol⟩

theorem representable82_of_uses (hcs : ∀ c ∈ cs, c < 65536) (hlen : cs.length < 0x100)
    (huses : Uses82 cs) (hcontrol : ∀ c ∈ cs, ¬ Control c) : Representable82 cs := by
  obtain ⟨result, hcodes⟩ := Option.isSome_iff_exists.mp ((encoded82_isSome_iff hcs).mpr huses)
  exact ⟨_, (encoded82_text_iff hcs hlen hcodes).mpr hcontrol⟩

/-- The code of a character below 128, or of the table, when the base is zero. -/
def zeroCode (c : Nat) : Nat :=
  match specialCode c with
  | some code => code
  | none => 0x80 + c

theorem zeroCode_spec {c : Nat} (hwide : ¬ Wide c) :
    zeroCode c < 0x100 ∧ decodeChar 0 (zeroCode c) = some c := by
  unfold zeroCode
  cases hspecial : specialCode c with
  | some code =>
    have hlt := specialCode_lt hspecial
    refine ⟨Nat.lt_trans hlt (by decide), ?_⟩
    rw [decodeChar, if_pos hlt, gsmChar_special hspecial]
  | none =>
    have hlt : c < 0x80 := Nat.lt_of_not_le fun hle => hwide ⟨hspecial, hle⟩
    change 0x80 + c < 0x100 ∧ decodeChar 0 (0x80 + c) = some c
    refine ⟨by omega, ?_⟩
    rw [decodeChar, if_neg (by omega), Nat.zero_add, Nat.add_mod_left, Nat.mod_eq_of_lt hlt]

/-- Without a wide character the base zero does. -/
theorem zeroCodes_spec (hwide : ∀ c ∈ cs, ¬ Wide c) :
    (∀ code ∈ cs.map zeroCode, code < 0x100) ∧
      (cs.map zeroCode).mapM (decodeChar 0) = some cs := by
  induction cs with
  | nil => exact ⟨nofun, rfl⟩
  | cons c cs ih =>
    obtain ⟨hc, hrest⟩ := List.forall_mem_cons.mp hwide
    obtain ⟨hlt, hdecode⟩ := zeroCode_spec hc
    obtain ⟨hall, hmap⟩ := ih hrest
    rw [List.map_cons]
    exact ⟨List.forall_mem_cons.mpr ⟨hlt, hall⟩, mapM_cons_eq_some.mpr ⟨hdecode, hmap⟩⟩

theorem representable_of_not_wide (hwide : ∀ c ∈ cs, ¬ Wide c) (hlen : cs.length < 0x100) :
    Representable81 cs ∧ Representable82 cs := by
  obtain ⟨hlt, hmap⟩ := zeroCodes_spec hwide
  have hlength : (cs.map zeroCode).length < 0x100 := by rwa [List.length_map]
  have hzero : (0 : Nat) < 0x100 := by decide
  exact ⟨⟨_, (decode81_text hzero hlength hlt).trans hmap⟩,
    ⟨_, (decode82_text (by decide) hlength hlt).trans hmap⟩⟩

/-- What a text in the encoding 81 says comes from codes with a base. -/
theorem exists_code81 {txt : List UInt8} (h : decode81 txt = some cs) :
    ∃ k, ∀ c ∈ cs, ∃ code, decodeChar (128 * k) code = some c := by
  unfold decode81 at h
  split at h
  · simp only [bind, Option.bind_eq_some_iff, decodeCounted] at h
    obtain ⟨count, -, k, -, codes, -, hcodes⟩ := h
    split at hcodes
    · exact ⟨k, exists_of_mapM hcodes⟩
    · cases hcodes
  · cases h

/-- What a text in the encoding 82 says comes from codes with a base. -/
theorem exists_code82 {txt : List UInt8} (h : decode82 txt = some cs) :
    ∃ base, ∀ c ∈ cs, ∃ code, decodeChar base code = some c := by
  unfold decode82 at h
  split at h
  · simp only [bind, Option.bind_eq_some_iff, decodeCounted] at h
    obtain ⟨count, -, base, -, codes, -, hcodes⟩ := h
    split at hcodes
    · exact ⟨base, exists_of_mapM hcodes⟩
    · cases hcodes
  · cases h

/-- Control characters and wide ones need the base. -/
theorem base_of_not_gsm {base c code : Nat} (h : decodeChar base code = some c)
    (hc : Control c ∨ Wide c) : base ≤ c ∧ c < base + 128 := by
  unfold decodeChar at h
  split at h
  · rename_i hlt
    obtain ⟨hcontrol, hwide⟩ := gsmChar_not code hlt c h
    exact (hc.elim hcontrol hwide).elim
  · cases h
    omega

/-- A control character and a wide one do not have the same base of the encoding 81. -/
theorem not_representable81 {c d : Nat} (hc : c ∈ cs) (hcontrol : Control c) (hd : d ∈ cs)
    (hwide : Wide d) : ¬ Representable81 cs := by
  rintro ⟨txt, htxt⟩
  obtain ⟨k, hcodes⟩ := exists_code81 htxt
  obtain ⟨code, hcode⟩ := hcodes c hc
  obtain ⟨code', hcode'⟩ := hcodes d hd
  have hlow := base_of_not_gsm hcode (.inl hcontrol)
  have hhigh := base_of_not_gsm hcode' (.inr hwide)
  have hlt := hcontrol.lt
  have hle := hwide.2
  omega

/-- Neither do they have the same base of the encoding 82 when they are far apart. -/
theorem not_representable82 {c d : Nat} (hc : c ∈ cs) (hcontrol : Control c) (hd : d ∈ cs)
    (hwide : Wide d) (hfar : 0x20AC ≤ d) : ¬ Representable82 cs := by
  rintro ⟨txt, htxt⟩
  obtain ⟨base, hcodes⟩ := exists_code82 htxt
  obtain ⟨code, hcode⟩ := hcodes c hc
  obtain ⟨code', hcode'⟩ := hcodes d hd
  have hlow := base_of_not_gsm hcode (.inl hcontrol)
  have hhigh := base_of_not_gsm hcode' (.inr hwide)
  have hlt := hcontrol.lt
  omega

end Representable

/-! ## Requests -/

section Requests

variable {data : EntryData} (name : PhbName data) (tc1 : Bool)

/-- The command is the one for the text that the name is packed as. -/
theorem PhbName.request_spec : ∃ encodeMethod alphaId,
    PackedAs tc1 true name.line encodeMethod alphaId ∧
      name.request tc1 = some (.command (data.command encodeMethod alphaId)) := by
  have hshort : name.txt.length ≤ 160 := name.short
  have hroom : name.txt.length + 4 < nameSize := by
    rw [show nameSize = 165 from rfl]
    omega
  have hline := name.length_line_le
  rw [PhbName.line] at hline
  obtain ⟨buf, encodeMethod, alphaId, hpack, hstr, hpacked⟩ :=
    packName_spec tc1 true name.zero_notMem name.four hroom (.inr (by omega))
  refine ⟨encodeMethod, alphaId, hpacked, ?_⟩
  have hempty : ¬ (name.txt.length = 0 ∧ data.number.length = 0) := fun h =>
    name.notEmpty h.1 h.2
  rw [PhbName.request, requestWritePhbEntry]
  simp only [Bool.not_true, Bool.false_eq_true, if_false, Option.isNone_some, false_and,
    Option.getD_some, if_neg hempty, if_neg (not_not.mpr name.four),
    if_neg (Nat.not_lt.mpr name.short), hpack, bind, Option.bind_some, strAt_str hstr]
  rfl

/-- The command tells the encoding and the text. -/
theorem EntryData.command_inj {data : EntryData} {m m' : RilPhbCpbwEncode} {a a' : List UInt8}
    (h : data.command m a = data.command m' a') : m = m' ∧ a = a' := by
  have hdigit : ∀ m : RilPhbCpbwEncode, ∃ d, decimal m.toNat = [d] := by
    intro m
    cases m with
    | ira => exact ⟨_, rfl⟩
    | ucs2 => exact ⟨_, rfl⟩
    | ucs281 => exact ⟨_, rfl⟩
    | ucs282 => exact ⟨_, rfl⟩
    | gsm7bit => exact ⟨_, rfl⟩
  have hinj : ∀ m m' : RilPhbCpbwEncode, decimal m.toNat = decimal m'.toNat → m = m' := by
    intro m m'
    cases m <;> cases m' <;> decide
  obtain ⟨d, hd⟩ := hdigit m
  obtain ⟨d', hd'⟩ := hdigit m'
  rw [EntryData.command, EntryData.command, epbwCommand, epbwCommand, hd, hd'] at h
  obtain ⟨hfront, hlast⟩ := List.append_inj' h rfl
  refine ⟨hinj m m' (by rw [hd, hd', hlast]), ?_⟩
  exact (List.append_right_inj _).mp ((List.append_left_inj _).mp hfront)

/-- What the request comes to decides whether the command says the name. -/
theorem PhbName.decodes_iff {encodeMethod : RilPhbCpbwEncode} {alphaId : List UInt8}
    (h : name.request tc1 = some (.command (data.command encodeMethod alphaId))) :
    (∃ encodeMethod alphaId,
      name.request tc1 = some (.command (data.command encodeMethod alphaId)) ∧
        decodeName encodeMethod alphaId = some name.chars) ↔
      decodeName encodeMethod alphaId = some name.chars := by
  constructor
  · rintro ⟨encodeMethod', alphaId', h', hdecode⟩
    rw [h] at h'
    obtain ⟨rfl, rfl⟩ := EntryData.command_inj (PhbOutcome.command.inj (Option.some.inj h'))
    exact hdecode
  · exact fun hdecode => ⟨encodeMethod, alphaId, h, hdecode⟩

/-- The encoder refuses exactly the names that it does not take. -/
theorem PhbName.refuses81_iff : (∀ des, ∃ des',
    encodeUCS2_0x81 name.line des nameSize nameSize = some (des', 0)) ↔ ¬ Uses81 name.chars := by
  have hline := name.length_line_le
  have hspec := fun des => encodeUCS2_0x81_spec nameSize des (show name.line.length < 44 by omega)
    (by rw [show nameSize = 165 from rfl]; omega)
  rw [← encoded81_isSome_iff name.chars_lt, ← name.map_alphaChar]
  cases hcodes : encoded81 (name.line.map alphaChar) with
  | none =>
    refine iff_of_true (fun des => ?_) Bool.false_ne_true
    obtain ⟨des', n, hencode, hnone⟩ := hspec des
    rw [hcodes] at hnone
    exact ⟨des', hnone.2 ▸ hencode⟩
  | some result =>
    refine iff_of_false (fun hzero => ?_) (not_not.mpr rfl)
    obtain ⟨des', n, hencode, hsome⟩ := hspec fun _ => 0
    obtain ⟨des'', hzero⟩ := hzero fun _ => 0
    rw [hcodes] at hsome
    rw [hencode] at hzero
    cases hzero
    exact hsome.1 rfl

theorem PhbName.refuses82_iff : (∀ des, ∃ des',
    encodeUCS2_0x82 name.line des nameSize nameSize = some (des', 0)) ↔ ¬ Uses82 name.chars := by
  have hline := name.length_line_le
  have hspec := fun des => encodeUCS2_0x82_spec nameSize des (show name.line.length < 45 by omega)
    (by rw [show nameSize = 165 from rfl]; omega)
  rw [← encoded82_isSome_iff name.chars_lt, ← name.map_alphaChar]
  cases hcodes : encoded82 (name.line.map alphaChar) with
  | none =>
    refine iff_of_true (fun des => ?_) Bool.false_ne_true
    obtain ⟨des', n, hencode, hnone⟩ := hspec des
    rw [hcodes] at hnone
    exact ⟨des', hnone.2 ▸ hencode⟩
  | some result =>
    refine iff_of_false (fun hzero => ?_) (not_not.mpr rfl)
    obtain ⟨des', n, hencode, hsome⟩ := hspec fun _ => 0
    obtain ⟨des'', hzero⟩ := hzero fun _ => 0
    rw [hcodes] at hsome
    rw [hencode] at hzero
    cases hzero
    exact hsome.1 rfl

/-- The encoders refuse what they cannot represent, unless they are misled by a control
character. -/
theorem PhbName.refuses_of_not_control
    (hok : (∃ c ∈ name.chars, Control c) → ¬ Uses81 name.chars ∧ ¬ Uses82 name.chars) :
    (¬ Representable81 name.chars → ¬ Uses81 name.chars) ∧
      (¬ Representable82 name.chars → ¬ Uses82 name.chars) := by
  have hlen : name.chars.length < 0x100 := by
    have := name.length_line_le
    rw [name.length_chars]
    omega
  by_cases hcontrol : ∃ c ∈ name.chars, Control c
  · exact ⟨fun _ => (hok hcontrol).1, fun _ => (hok hcontrol).2⟩
  · have hnone : ∀ c ∈ name.chars, ¬ Control c := fun c hc hc' => hcontrol ⟨c, hc, hc'⟩
    exact ⟨mt fun huses => representable81_of_uses name.chars_lt hlen huses hnone,
      mt fun huses => representable82_of_uses name.chars_lt hlen huses hnone⟩

/-- In a name that is written character by character they are misled only by a control character
beside a wide one. -/
theorem PhbName.refuses_iff_of_plain (hplain : Plain tc1 name.line) :
    (¬ Representable81 name.chars → ¬ Uses81 name.chars) ∧
        (¬ Representable82 name.chars → ¬ Uses82 name.chars) ↔
      ((∃ c ∈ name.chars, Control c) → (∃ c ∈ name.chars, Wide c) →
        ¬ Uses81 name.chars ∧ ¬ Uses82 name.chars) := by
  constructor
  · rintro ⟨h81, h82⟩ ⟨c, hc, hcontrol⟩ ⟨d, hd, hwide⟩
    have hfar := name.le_of_wide hplain d hd hwide
    exact ⟨h81 (not_representable81 hc hcontrol hd hwide),
      h82 (not_representable82 hc hcontrol hd hwide hfar)⟩
  · intro hok
    by_cases hwide : ∃ c ∈ name.chars, Wide c
    · exact name.refuses_of_not_control fun hcontrol => hok hcontrol hwide
    · have hlen : name.chars.length < 0x100 := by
        have := name.length_line_le
        rw [name.length_chars]
        omega
      obtain ⟨h81, h82⟩ :=
        representable_of_not_wide (fun c hc hc' => hwide ⟨c, hc, hc'⟩) hlen
      exact ⟨fun h => absurd h81 h, fun h => absurd h82 h⟩

/-- The command of a name that an encoding of the SIM is tried for says it, unless the encoding
takes a control character. -/
theorem PhbName.packed_decodes_iff {encodeMethod : RilPhbCpbwEncode} {alphaId : List UInt8}
    (h : PackedAs tc1 true name.line encodeMethod alphaId) :
    decodeName encodeMethod alphaId = some name.chars ↔
      if Plain tc1 name.line then tc1 = false → 0 ∉ name.chars
      else (∃ c ∈ name.chars, Control c) → ¬ Uses81 name.chars ∧ ¬ Uses82 name.chars := by
  have hlen : name.chars.length < 0x100 := by
    have := name.length_line_le
    rw [name.length_chars]
    omega
  have h81 := encoded81_isSome_iff name.chars_lt
  have h82 := encoded82_isSome_iff name.chars_lt
  cases h with
  | gsm7bit htc1 hplain hsame =>
    rw [if_pos hplain, decodeName, name.decodeUcs2_eq hsame]
    exact iff_of_true rfl fun hfalse => absurd (htc1.symm.trans hfalse) (by decide)
  | ira htc1 hplain =>
    subst htc1
    rw [if_pos hplain, name.decodeIra_iff hplain]
    exact ⟨fun h _ => h, fun h => h rfl⟩
  | ucs281 hplain hcodes =>
    rw [name.map_alphaChar] at hcodes
    rw [hcodes] at h81
    rw [if_neg hplain, decodeName, encoded81_text_iff name.chars_lt hlen hcodes]
    exact ⟨fun h ⟨c, hc, hcontrol⟩ => absurd hcontrol (h c hc),
      fun h c hc hcontrol => (h ⟨c, hc, hcontrol⟩).1 (h81.mp rfl)⟩
  | ucs282 hplain _ hnone hcodes =>
    rw [name.map_alphaChar] at hcodes
    rw [hcodes] at h82
    rw [if_neg hplain, decodeName, encoded82_text_iff name.chars_lt hlen hcodes]
    exact ⟨fun h ⟨c, hc, hcontrol⟩ => absurd hcontrol (h c hc),
      fun h c hc hcontrol => (h ⟨c, hc, hcontrol⟩).2 (h82.mp rfl)⟩
  | ucs2 hplain hnone hnone' hsame =>
    rw [name.map_alphaChar] at hnone hnone'
    rw [hnone] at h81
    rw [hnone' rfl] at h82
    rw [if_neg hplain, decodeName, name.decodeUcs2_eq hsame]
    exact iff_of_true rfl fun _ => ⟨fun h => Bool.false_ne_true (h81.mpr h),
      fun h => Bool.false_ne_true (h82.mpr h)⟩

/-- A name survives exactly when it is well behaved. -/
theorem PhbName.survives_iff : Survives tc1 name ↔ NameOk tc1 name := by
  obtain ⟨encodeMethod, alphaId, hpacked, hrequest⟩ := name.request_spec tc1
  have hsplit : Survives tc1 name ↔ decodeName encodeMethod alphaId = some name.chars ∧
      (¬ Representable81 name.chars → ¬ Uses81 name.chars) ∧
        (¬ Representable82 name.chars → ¬ Uses82 name.chars) := by
    rw [← name.decodes_iff tc1 hrequest, ← name.refuses81_iff, ← name.refuses82_iff]
    exact ⟨fun h => ⟨h.decodes, h.refuses81, h.refuses82⟩, fun h => ⟨h.1, h.2.1, h.2.2⟩⟩
  rw [hsplit, name.packed_decodes_iff tc1 hpacked, NameOk]
  by_cases hplain : Plain tc1 name.line
  · rw [if_pos hplain, if_pos hplain, name.refuses_iff_of_plain tc1 hplain]
  · rw [if_neg hplain, if_neg hplain]
    exact ⟨fun h => h.1, fun h => ⟨h, name.refuses_of_not_control h⟩⟩

end Requests

/-- Two names in an entry come through and stay different, exactly when a name that is written
character by character has no zero in it and an encoding of the SIM takes no control character. -/
theorem names_survive_iff (tc1 : Bool) (data : EntryData) (name other : PhbName data) :
    (Survives tc1 name ∧ Survives tc1 other ∧
        (name.chars ≠ other.chars → name.request tc1 ≠ other.request tc1)) ↔
      NameOk tc1 name ∧ NameOk tc1 other := by
  rw [← name.survives_iff, ← other.survives_iff]
  refine ⟨fun h => ⟨h.1, h.2.1⟩, fun h => ⟨h.1, h.2, fun hne hsame => hne ?_⟩⟩
  obtain ⟨m, a, hrequest, hdecode⟩ := h.1.decodes
  obtain ⟨m', a', hrequest', hdecode'⟩ := h.2.decodes
  rw [hrequest, hrequest'] at hsame
  obtain ⟨rfl, rfl⟩ := EntryData.command_inj (PhbOutcome.command.inj (Option.some.inj hsame))
  exact Option.some.inj (hdecode.symm.trans hdecode')

/-- An entry with a number. -/
def numbered : EntryData := ⟨1, 129, ascii ['1', '1', '2']⟩

/-- A start of heading, `é`, `a`, `b`. -/
def headingName : PhbName numbered where
  txt := (lowerHex 0x01 ++ lowerHex 0xE9) ++ (lowerHex 0x61 ++ lowerHex 0x62)
  digits := List.all_eq_true.mp rfl
  four := rfl
  short := by decide
  notEmpty := by decide

/-- A pound sign, `é`, `a`, `b`. -/
def poundName : PhbName numbered where
  txt := (lowerHex 0xA3 ++ lowerHex 0xE9) ++ (lowerHex 0x61 ++ lowerHex 0x62)
  digits := List.all_eq_true.mp rfl
  four := rfl
  short := by decide
  notEmpty := by decide

/-- A control character comes out as the pound sign, whose code it has. -/
theorem headingName_lost : ¬ ∀ (tc1 : Bool) (data : EntryData) (name other : PhbName data),
    Survives tc1 name ∧ Survives tc1 other ∧
      (name.chars ≠ other.chars → name.request tc1 ≠ other.request tc1) := by
  intro hall
  have hsame : headingName.request false = poundName.request false := by decide +kernel
  have hne : headingName.chars ≠ poundName.chars := by decide +kernel
  exact (hall false numbered headingName poundName).2.2 hne hsame


end MtkHw.Phb
