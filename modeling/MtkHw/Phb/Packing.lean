import MtkHw.Phb.SimEncoding

/-!
# The phone book: texts stay in their arrays

What the requests write to their arrays.  The loop over the characters fills the front of an array
of zeros, the encodings of the SIM and the escapes fill it again, and in the end the text for the
command stands there with a zero behind it (`packName_spec`).  Only the array of `encodeUCS2_0x81`
can be too short: it has room for the characters of a name, but e-mail addresses may be longer
(`requests_inside_iff`).
-/

namespace MtkHw.Phb

open Lib Lib.Ring

/-! ## Characters in the tables -/

/-- The text is the same but for the case of its letters. -/
def SameText (a b : List UInt8) : Prop := a.map lowerByte = b.map lowerByte

theorem lowerByte_lowerByte (b : UInt8) : lowerByte (lowerByte b) = lowerByte b := by
  apply forall_byte (P := fun b => lowerByte (lowerByte b) = lowerByte b)
  decide +kernel

theorem matchRow_spec (src row : List UInt8) (hlen : src.length = row.length) :
    SameText (matchRow src row).1 src ∧
      ((matchRow src row).2 = true ↔ src.map lowerByte = row) := by
  induction src generalizing row with
  | nil =>
    obtain rfl := List.length_eq_zero_iff.mp hlen.symm
    exact ⟨rfl, iff_of_true rfl rfl⟩
  | cons b src ih =>
    cases row with
    | nil => cases hlen
    | cons r row =>
      obtain ⟨hsame, hiff⟩ := ih row (Nat.succ.inj hlen)
      rw [matchRow]
      by_cases hne : lowerByte b ≠ r
      · rw [if_pos hne]
        refine ⟨?_, iff_of_false Bool.false_ne_true fun heq => hne (List.cons.inj heq).1⟩
        rw [SameText, List.map_cons, List.map_cons, lowerByte_lowerByte]
      · rw [if_neg hne]
        refine ⟨?_, ?_⟩
        · rw [SameText, List.map_cons, List.map_cons, lowerByte_lowerByte, hsame]
        · rw [hiff, List.map_cons, not_not.mp hne]
          exact ⟨fun h => h ▸ rfl, fun h => (List.cons.inj h).2⟩

theorem SameText.length_eq {a b : List UInt8} (h : SameText a b) : a.length = b.length := by
  have := congrArg List.length h
  rwa [List.length_map, List.length_map] at this

/-- A row is found exactly when the text in lower case is in the table. -/
theorem findRow_spec {rows : List (List UInt8)} (i : Nat) {src : List UInt8}
    (hlen : ∀ row ∈ rows, src.length = row.length) :
    SameText (findRow rows i src).1 src ∧
      match (findRow rows i src).2 with
      | none => src.map lowerByte ∉ rows
      | some k => src.map lowerByte ∈ rows ∧ k < i + rows.length := by
  induction rows generalizing i src with
  | nil => exact ⟨rfl, List.not_mem_nil⟩
  | cons row rows ih =>
    obtain ⟨hrow, hrest⟩ := List.forall_mem_cons.mp hlen
    obtain ⟨hsame, hiff⟩ := matchRow_spec src row hrow
    rw [findRow]
    by_cases hmatch : (matchRow src row).2 = true
    · rw [if_pos hmatch]
      refine ⟨hsame, List.mem_cons.mpr (.inl (hiff.mp hmatch)), ?_⟩
      rw [List.length_cons]
      omega
    · rw [if_neg hmatch]
      have hlen' : ∀ r ∈ rows, (matchRow src row).1.length = r.length := fun r hr =>
        hsame.length_eq.trans (hrest r hr)
      obtain ⟨hsame', hfound⟩ := ih (i + 1) hlen'
      refine ⟨hsame'.trans hsame, ?_⟩
      rw [show (matchRow src row).1.map lowerByte = src.map lowerByte from hsame] at hfound
      cases hfind : (findRow rows (i + 1) (matchRow src row).1).2 with
      | none =>
        rw [hfind] at hfound
        exact fun hmem => (List.mem_cons.mp hmem).elim (fun heq => hmatch (hiff.mpr heq)) hfound
      | some k =>
        rw [hfind] at hfound
        refine ⟨List.mem_cons_of_mem row hfound.1, ?_⟩
        rw [List.length_cons]
        omega

/-- The rows of the tables are four bytes long. -/
theorem length_lowerHex (c : Nat) : (lowerHex c).length = 4 := by
  rw [lowerHex, List.length_map, length_hexDigits]

/-- The loop over the characters gets past this one. -/
def Writable (tc1 : Bool) (hex : List UInt8) : Prop :=
  if tc1 then hex.map lowerByte ∈ languageTable ∨ hex.map lowerByte ∈ languageTableExt
  else hexCharToDecInt hex < 128

instance (tc1 : Bool) (hex : List UInt8) : Decidable (Writable tc1 hex) :=
  inferInstanceAs (Decidable (if tc1 then _ else _))

/-- The character is the back-quote, which the command cannot have. -/
def BackQuote (tc1 : Bool) (hex : List UInt8) : Prop := tc1 = false ∧ hexCharToDecInt hex = 0x60

instance (tc1 : Bool) (hex : List UInt8) : Decidable (BackQuote tc1 hex) :=
  inferInstanceAs (Decidable (tc1 = false ∧ hexCharToDecInt hex = 0x60))

/-- The text is written character by character. -/
def Plain (tc1 : Bool) (line : List (List UInt8)) : Prop :=
  ∀ hex ∈ line, Writable tc1 hex ∧ ¬ BackQuote tc1 hex

instance (tc1 : Bool) (line : List (List UInt8)) : Decidable (Plain tc1 line) :=
  inferInstanceAs (Decidable (∀ hex ∈ line, Writable tc1 hex ∧ ¬ BackQuote tc1 hex))

theorem sameText_hexCharToDecInt {a b : List UInt8} (h : SameText a b) :
    hexCharToDecInt a = hexCharToDecInt b := by
  rw [hexCharToDecInt, readHex_congr h, hexCharToDecInt]

/-- What is done about a character of four bytes. -/
theorem charBytes_spec (tc1 : Bool) {hex : List UInt8} (hlen : hex.length = 4) :
    SameText (charBytes tc1 hex).1 hex ∧ (tc1 = false → (charBytes tc1 hex).1 = hex) ∧
      match (charBytes tc1 hex).2 with
      | none => ¬ Writable tc1 hex
      | some txt => Writable tc1 hex ∧ txt.length ≤ 2 ∧
          (tc1 = false → txt = [UInt8.ofInt (hexCharToDecInt hex)]) := by
  unfold charBytes
  cases tc1 with
  | false =>
    simp only [Bool.false_eq_true, if_false]
    by_cases hle : 128 ≤ hexCharToDecInt hex
    · rw [if_pos hle]
      exact ⟨rfl, fun _ => rfl, fun hw => Int.not_lt.mpr hle (by simpa [Writable] using hw)⟩
    · rw [if_neg hle]
      refine ⟨rfl, fun _ => rfl, ?_, Nat.le_succ 1, fun _ => rfl⟩
      simpa [Writable] using hle
  | true =>
    have htable : ∀ row ∈ languageTable, hex.length = row.length := by
      intro row hrow
      obtain ⟨c, -, rfl⟩ := List.mem_map.mp hrow
      rw [hlen, length_lowerHex]
    obtain ⟨hsame, hfound⟩ := findRow_spec 0 htable
    simp only [if_true, isMatchGsm7bit]
    cases hfind : findRow languageTable 0 hex with
    | mk hex' i =>
      rw [hfind] at hsame hfound
      cases i with
      | some k => exact ⟨hsame, nofun, .inl hfound.1, Nat.le_succ 1, nofun⟩
      | none =>
        have htable' : ∀ row ∈ languageTableExt, hex'.length = row.length := by
          intro row hrow
          obtain ⟨entry, -, rfl⟩ := List.mem_map.mp hrow
          rw [hsame.length_eq, hlen, length_lowerHex]
        obtain ⟨hsame', hfound'⟩ := findRow_spec 0 htable'
        have hlower : hex'.map lowerByte = hex.map lowerByte := hsame
        simp only [isGsm7bitExtension]
        cases hfind' : findRow languageTableExt 0 hex' with
        | mk hex'' i =>
          rw [hfind'] at hsame' hfound'
          have hall : SameText hex'' hex := hsame'.trans hsame
          cases i with
          | none =>
            refine ⟨hall, nofun, fun hw => ?_⟩
            rcases hw with hw | hw
            · exact hfound hw
            · exact hfound' (hlower ▸ hw)
          | some k =>
            have hk : k < gsm7bitValue.length := by
              have := hfound'.2
              rwa [Nat.zero_add] at this
            simp only [Option.bind_some, List.getElem?_eq_getElem hk]
            exact ⟨hall, nofun, .inr (hlower ▸ hfound'.1), Nat.le_refl 2, nofun⟩

/-! ## The loop over the characters -/

/-- The characters of a text make it up. -/
theorem charsOf_spec {line : List UInt8} (h : line.length % 4 = 0) :
    (charsOf line).flatten = line ∧ 4 * (charsOf line).length = line.length ∧
      ∀ hex ∈ charsOf line, hex.length = 4 := by
  fun_induction charsOf line with
  | case1 a b c d rest ih =>
    obtain ⟨hflat, hlen, hall⟩ := ih (by simp only [List.length_cons] at h; omega)
    refine ⟨?_, ?_, List.forall_mem_cons.mpr ⟨rfl, hall⟩⟩
    · rw [List.flatten_cons, hflat]
      rfl
    · simp only [List.length_cons]
      omega
  | case2 line hshort =>
    have hnil : line = [] := by
      match line, hshort, h with
      | [], _, _ => rfl
      | a :: b :: c :: d :: rest, hshort, _ => exact absurd rfl (hshort a b c d rest)
    subst hnil
    exact ⟨rfl, rfl, nofun⟩

/-- The bytes stand at the front, with zeros behind them. -/
def Filled (buf : Nat → UInt8) (out : List UInt8) : Prop :=
  Front buf out ∧ ∀ i, out.length ≤ i → buf i = 0

theorem Filled.store {buf : Nat → UInt8} {out : List UInt8} (h : Filled buf out) :
    Filled (Function.update buf out.length 0) out := by
  have heq : Function.update buf out.length 0 = buf := by
    rw [Function.update_eq_self_iff]
    exact (h.2 _ (Nat.le_refl _)).symm
  rwa [heq]

theorem Filled.append {buf : Nat → UInt8} {out : List UInt8} (h : Filled buf out)
    (txt : List UInt8) : Filled (blit buf out.length txt) (out ++ txt) := by
  refine ⟨h.1.append txt, fun i hi => ?_⟩
  rw [List.length_append] at hi
  rw [blit_of_notMem buf (.inr hi)]
  exact h.2 i (by omega)

/-- What the loop over the characters leaves. -/
structure PackedFrom (tc1 asciiNotSupported : Bool) (line : List (List UInt8)) (out : List UInt8)
    (packed : Packed) : Prop where
  same : List.Forall₂ SameText packed.line line
  plain : packed.complete = true ∧ packed.asciiNotSupported = false ↔
    asciiNotSupported = false ∧ Plain tc1 line
  filled : ∃ txt, Filled packed.buf (out ++ txt) ∧ txt.length ≤ 2 * line.length ∧
    (tc1 = false → packed.complete = true →
      txt = line.map fun hex => UInt8.ofInt (hexCharToDecInt hex))

theorem sameText_refl (line : List (List UInt8)) : List.Forall₂ SameText line line :=
  List.forall₂_same.mpr fun _ _ => rfl

theorem plain_cons (tc1 : Bool) (hex : List UInt8) (line : List (List UInt8)) :
    Plain tc1 (hex :: line) ↔ (Writable tc1 hex ∧ ¬ BackQuote tc1 hex) ∧ Plain tc1 line :=
  List.forall_mem_cons

theorem packChars_spec (tc1 : Bool) {size : Nat} {line : List (List UInt8)}
    (asciiNotSupported : Bool) {buf : Nat → UInt8} {out : List UInt8} (hbuf : Filled buf out)
    (hroom : out.length + 2 * line.length < size) (hlen : ∀ hex ∈ line, hex.length = 4) :
    ∃ packed, packChars tc1 size buf out.length asciiNotSupported line = some packed ∧
      PackedFrom tc1 asciiNotSupported line out packed := by
  induction line generalizing buf out asciiNotSupported with
  | nil =>
    rw [packChars, store_of_lt (by omega)]
    refine ⟨_, rfl, .nil, ?_, [], ?_, Nat.zero_le _, fun _ _ => rfl⟩
    · exact ⟨fun h => ⟨h.2, nofun⟩, fun h => ⟨rfl, h.1⟩⟩
    · rw [List.append_nil]
      exact hbuf.store
  | cons hex line ih =>
    obtain ⟨hhex, hrest⟩ := List.forall_mem_cons.mp hlen
    obtain ⟨hsame, hkeep, hbytes⟩ := charBytes_spec tc1 hhex
    rw [List.length_cons] at hroom
    rw [packChars]
    cases hchar : charBytes tc1 hex with
    | mk hex' txt =>
      rw [hchar] at hsame hkeep hbytes
      cases txt with
      | none =>
        simp only
        rw [store_of_lt (by omega)]
        refine ⟨_, rfl, .cons hsame (sameText_refl line), ?_, [], ?_, Nat.zero_le _, ?_⟩
        · refine iff_of_false (fun h => Bool.false_ne_true h.1) fun h => ?_
          exact hbytes (h.2 hex List.mem_cons_self).1
        · rw [List.append_nil]
          exact hbuf.store
        · exact fun _ h => nomatch h
      | some txt =>
        obtain ⟨hwritable, htxt, htc1⟩ := hbytes
        have hfilled := hbuf.append txt
        have hle : out.length + txt.length ≤ size := by omega
        obtain ⟨packed, hpack, hpacked⟩ :=
          ih (asciiNotSupported || !tc1 && hexCharToDecInt hex' = 0x60) hfilled
            (by rw [List.length_append]; omega) hrest
        rw [List.length_append] at hpack
        simp only [storeAll_of_le hle, bind, Option.bind_some, hpack]
        refine ⟨_, rfl, .cons hsame hpacked.same, ?_, ?_⟩
        · rw [hpacked.plain, plain_cons, Bool.or_eq_false_iff, and_assoc]
          refine and_congr_right fun _ => and_congr_left fun _ => ?_
          rw [and_iff_right hwritable, BackQuote, ← sameText_hexCharToDecInt hsame]
          cases tc1 with
          | false => simp
          | true => simp
        · obtain ⟨more, hmore, hlenmore, heqmore⟩ := hpacked.filled
          refine ⟨txt ++ more, ?_, ?_, fun hfalse hcomplete => ?_⟩
          · rwa [← List.append_assoc]
          · rw [List.length_append, List.length_cons]
            omega
          · rw [htc1 hfalse, heqmore hfalse hcomplete]
            rfl

/-! ## Texts of the SIM -/

/-- The digits of the codes. -/
def codesText (codes : List Nat) : List UInt8 := codes.flatMap (hexDigits 2)

theorem length_codesText (codes : List Nat) : (codesText codes).length = 2 * codes.length := by
  induction codes with
  | nil => rfl
  | cons code codes ih =>
    rw [codesText, List.flatMap_cons, List.length_append, length_hexDigits, ← codesText, ih,
      List.length_cons]
    omega

theorem zero_notMem_codesText (codes : List Nat) : 0 ∉ codesText codes := by
  intro hz
  obtain ⟨code, -, hz⟩ := List.mem_flatMap.mp hz
  exact zero_notMem_hexDigits 2 code hz

/-- Codes of one byte are no pairs. -/
theorem and_pair_of_lt {code : Nat} (h : code < 0x100) : code &&& 0xFF00 ≠ 0x1B00 := by
  have hle : code &&& 0xFF00 ≤ code := Nat.and_le_left
  omega

theorem writeCodes_spec {size p : Nat} (extra : Nat) {des : Nat → UInt8} {out : List UInt8}
    {codes : List Nat} (hdes : Front des out) (hp : p = out.length)
    (hcodes : ∀ code ∈ codes, code < 0x100) (hroom : p + 2 * codes.length < size) :
    ∃ des', writeCodes size des p extra codes = some (des', p + 2 * codes.length, extra) ∧
      Front des' (out ++ codesText codes) := by
  induction codes generalizing p des out with
  | nil => exact ⟨des, rfl, by rwa [codesText, List.flatMap_nil, List.append_nil]⟩
  | cons code codes ih =>
    obtain ⟨hcode, hrest⟩ := List.forall_mem_cons.mp hcodes
    rw [List.length_cons] at hroom
    have hlen : (hexDigits 2 code).length = 2 := length_hexDigits 2 code
    have hfront : Front (blit des p (hexDigits 2 code ++ [0])) (out ++ hexDigits 2 code) := by
      have happend := hdes.append (hexDigits 2 code ++ [0])
      rw [← List.append_assoc, ← hp] at happend
      exact happend.left
    have hp' : p + 2 = (out ++ hexDigits 2 code).length := by
      rw [List.length_append, hlen, hp]
    obtain ⟨des', hwrite, hfront'⟩ := ih hfront hp' hrest (by omega)
    have hprint : sprintfAt des size p (formatHex 2 code) =
        some (blit des p (hexDigits 2 code ++ [0])) := by
      rw [formatHex_eq (by decide) hcode, sprintfAt_of_lt (by rw [hlen]; omega)]
    rw [writeCodes, if_pos (and_pair_of_lt hcode), hprint]
    refine ⟨des', ?_, ?_⟩
    · simp only [bind, Option.bind_some]
      rw [hwrite, List.length_cons, Nat.mul_succ, Nat.add_assoc, Nat.add_comm 2]
    · rwa [codesText, List.flatMap_cons, ← List.append_assoc]

/-- The text is the front of the header and the digits of the codes. -/
theorem makeUp_spec {size start : Nat} (des : Nat → UInt8) {head : List UInt8}
    (more : List UInt8) {codes : List Nat} (hstart : start = head.length) (hz : 0 ∉ head)
    (hheader : (head ++ more).length < size) (hcodes : ∀ code ∈ codes, code < 0x100)
    (hroom : start + 2 * codes.length < size) :
    ∃ des', makeUp des size (head ++ more) start codes = some (des', codes.length) ∧
      Str des' size 0 (head ++ codesText codes) := by
  have hfront : Front (blit des 0 (head ++ more ++ [0])) head := by
    have happend := (front_nil des).append (head ++ more ++ [0])
    rw [List.nil_append, List.append_assoc] at happend
    rw [List.append_assoc]
    exact happend.left
  obtain ⟨des', hwrite, hfront'⟩ := writeCodes_spec 0 hfront hstart hcodes hroom
  have hend : start + 2 * codes.length = (head ++ codesText codes).length := by
    rw [List.length_append, length_codesText, hstart]
  have hstr := hfront'.close (by
    rw [List.mem_append]
    exact fun h => h.elim hz (zero_notMem_codesText codes)) (hend ▸ hroom)
  rw [← hend] at hstr
  refine ⟨_, ?_, hstr⟩
  rw [makeUp, sprintfAt_of_lt (by rwa [Nat.zero_add])]
  simp only [bind, Option.bind_some, hwrite, Nat.zero_add, Nat.lt_irrefl, if_false,
    store_of_lt hroom]

/-- The header of a text in the encoding 81, as far as the codes leave it. -/
def text81 (base : Nat) (codes : List Nat) : List UInt8 :=
  (header81 base codes.length).take 6 ++ codesText codes

/-- A text in the encoding 82. -/
def text82 (base : Nat) (codes : List Nat) : List UInt8 :=
  header82 base codes.length ++ codesText codes

/-- The base and the codes of a name that the encoding 81 takes. -/
def encoded81 (cs : List Nat) : Option (Nat × List Nat) :=
  if cs.length ≤ 3 then none else codes81 noBase cs

/-- The base and the codes of a name that the encoding 82 takes. -/
def encoded82 (cs : List Nat) : Option (Nat × List Nat) :=
  if cs.length ≤ 4 then none else codes82 cs

theorem alphaChar_lt (hex : List UInt8) : alphaChar hex < 65536 := by
  rw [alphaChar]
  omega

theorem alphaChars_lt (src : List (List UInt8)) : ∀ c ∈ src.map alphaChar, c < 65536 := by
  intro c hc
  obtain ⟨hex, -, rfl⟩ := List.mem_map.mp hc
  exact alphaChar_lt hex

theorem coded_lt {base : Nat} {cs codes : List Nat} (h : List.Forall₂ (Coded base) cs codes) :
    ∀ code ∈ codes, code < 0x100 := by
  induction h with
  | nil => exact nofun
  | cons hcode _ ih => exact List.forall_mem_cons.mpr ⟨hcode.lt, ih⟩

/-- The header is printed in six digits, and five more when the base is not set. -/
theorem header81_eq {base : Nat} (len : Nat) (hbase : IsBase base) (hlen : len < 0x100) :
    ∃ more, header81 base len = (header81 base len).take 6 ++ more ∧ more.length ≤ 5 ∧
      ((header81 base len).take 6).length = 6 ∧ 0 ∉ header81 base len := by
  have hcount : formatHex 2 len = hexDigits 2 len := formatHex_eq (by decide) hlen
  have hdigits : 2 ≤ (formatHex 2 (base >>> 7)).length ∧ (formatHex 2 (base >>> 7)).length ≤ 7 := by
    rcases hbase with rfl | ⟨k, hk, rfl⟩
    · decide
    · have hshift : (128 * k) >>> 7 = k := by
        rw [Nat.shiftRight_eq_div_pow]
        exact Nat.mul_div_cancel_left k (by decide)
      rw [hshift, formatHex_eq (by decide) hk, length_hexDigits]
      decide
  have hlength : (header81 base len).length = 4 + (formatHex 2 (base >>> 7)).length := by
    rw [header81, hcount, List.length_append, List.length_append, length_hexDigits]
    rfl
  refine ⟨(header81 base len).drop 6, (List.take_append_drop 6 _).symm, ?_, ?_, ?_⟩
  · rw [List.length_drop]
    omega
  · rw [List.length_take]
    omega
  · rw [header81, List.mem_append, List.mem_append]
    rintro ((hz | hz) | hz)
    · revert hz
      decide
    · exact zero_notMem_hexDigits _ _ hz
    · exact zero_notMem_hexDigits _ _ hz

theorem header82_spec {base : Nat} (len : Nat) (hbase : base < 65536) (hlen : len < 0x100) :
    (header82 base len).length = 8 ∧ 0 ∉ header82 base len := by
  have hcount : formatHex 2 len = hexDigits 2 len := formatHex_eq (by decide) hlen
  have hdigits : formatHex 4 base = hexDigits 4 base := formatHex_eq (by decide) hbase
  rw [header82, hcount, hdigits]
  refine ⟨?_, ?_⟩
  · rw [List.length_append, List.length_append, length_hexDigits, length_hexDigits]
    rfl
  · rw [List.mem_append, List.mem_append]
    rintro ((hz | hz) | hz)
    · revert hz
      decide
    · exact zero_notMem_hexDigits _ _ hz
    · exact zero_notMem_hexDigits _ _ hz

/-- `encodeUCS2_0x81` writes a text to an array that has room for the digits of the name. -/
theorem encodeUCS2_0x81_spec {src : List (List UInt8)} (size : Nat) (des : Nat → UInt8)
    (hsrc : src.length < 44) (hroom : 4 * src.length + 4 < size) :
    ∃ des' n, encodeUCS2_0x81 src des size size = some (des', n) ∧
      match encoded81 (src.map alphaChar) with
      | none => des' = des ∧ n = 0
      | some (base, codes) => n ≠ 0 ∧ Str des' size 0 (text81 base codes) := by
  have hlen : (src.map alphaChar).length = src.length := List.length_map _
  have hfill : fillAlphaId (maxPhbNameLen + 3 + 1) src = some (src.map alphaChar) := if_pos hsrc
  rw [encodeUCS2_0x81, hfill, encoded81]
  simp only [bind, Option.bind_some, hlen]
  by_cases hshort : src.length ≤ 3
  · rw [if_pos hshort, if_pos hshort]
    exact ⟨des, 0, rfl, rfl, rfl⟩
  · rw [if_neg hshort, if_neg hshort, if_neg (by omega)]
    cases hcodes : codes81 noBase (src.map alphaChar) with
    | none => exact ⟨des, 0, rfl, rfl, rfl⟩
    | some result =>
      obtain ⟨base, codes⟩ := result
      obtain ⟨hbase, -, hall⟩ := codes81_coded (.inl rfl) (alphaChars_lt src) hcodes
      have hlength : codes.length = src.length := hall.length_eq.symm.trans hlen
      obtain ⟨more, hheader, hmore, hsix, hz⟩ := header81_eq src.length hbase (by omega)
      have hz' : 0 ∉ (header81 base src.length).take 6 := fun hmem =>
        hz (List.mem_of_mem_take hmem)
      obtain ⟨des', hmake, hstr⟩ := makeUp_spec des more hsix.symm hz'
        (show _ < size by rw [List.length_append]; omega) (coded_lt hall) (by omega)
      rw [← hheader, hlength] at hmake
      refine ⟨des', src.length, hmake, by omega, ?_⟩
      rw [text81, hlength]
      exact hstr

/-- `encodeUCS2_0x82` writes a text to an array that has room for the digits of the name. -/
theorem encodeUCS2_0x82_spec {src : List (List UInt8)} (size : Nat) (des : Nat → UInt8)
    (hsrc : src.length < 45) (hroom : 4 * src.length + 4 < size) :
    ∃ des' n, encodeUCS2_0x82 src des size size = some (des', n) ∧
      match encoded82 (src.map alphaChar) with
      | none => des' = des ∧ n = 0
      | some (base, codes) => n ≠ 0 ∧ Str des' size 0 (text82 base codes) := by
  have hlen : (src.map alphaChar).length = src.length := List.length_map _
  have hfill : fillAlphaId (maxPhbNameLen + 4 + 1) src = some (src.map alphaChar) := if_pos hsrc
  rw [encodeUCS2_0x82, hfill, encoded82]
  simp only [bind, Option.bind_some, hlen]
  by_cases hshort : src.length ≤ 4
  · rw [if_pos hshort, if_pos hshort]
    exact ⟨des, 0, rfl, rfl, rfl⟩
  · rw [if_neg hshort, if_neg hshort, if_neg (by omega)]
    have hspec := codes82_spec (alphaChars_lt src)
    cases hcodes : codes82 (src.map alphaChar) with
    | none => exact ⟨des, 0, rfl, rfl, rfl⟩
    | some result =>
      obtain ⟨base, codes⟩ := result
      rw [hcodes] at hspec
      obtain ⟨hbase, hall, -⟩ := hspec
      have hlength : codes.length = src.length := hall.length_eq.symm.trans hlen
      obtain ⟨height, hz⟩ := header82_spec src.length hbase (by omega)
      obtain ⟨des', hmake, hstr⟩ := makeUp_spec des [] height.symm hz
        (show _ < size by rw [List.append_nil]; omega) (coded_lt hall) (by omega)
      rw [List.append_nil, hlength] at hmake
      refine ⟨des', src.length, hmake, by omega, ?_⟩
      rw [text82, hlength]
      exact hstr

/-! ## Escapes -/

/-- A byte with `code` for `key`. -/
def escapeByte (key : UInt8) (code : List UInt8) (b : UInt8) : List UInt8 :=
  if b = key then code else [b]

/-- The text with `code` for `key`. -/
def escaped (key : UInt8) (code txt : List UInt8) : List UInt8 := txt.flatMap (escapeByte key code)

theorem escaped_cons (key : UInt8) (code : List UInt8) (b : UInt8) (txt : List UInt8) :
    escaped key code (b :: txt) = escapeByte key code b ++ escaped key code txt := List.flatMap_cons

theorem zero_notMem_escaped {key : UInt8} {code txt : List UInt8} (hcode : 0 ∉ code)
    (htxt : 0 ∉ txt) : 0 ∉ escaped key code txt := by
  intro hz
  obtain ⟨b, hb, hz⟩ := List.mem_flatMap.mp hz
  rw [escapeByte] at hz
  split at hz
  · exact hcode hz
  · exact htxt (List.mem_singleton.mp hz ▸ hb)

/-- The loop does not break off when the text fits. -/
theorem escapeLoop_spec {size : Nat} {key : UInt8} {code : List UInt8} (hcode : code.length = 3)
    {buf : Nat → UInt8} {j : Nat} {out temp : List UInt8} (hbuf : Front buf out)
    (hj : j = out.length) (hroom : j + (escaped key code temp).length < size - 1) :
    ∃ buf', escapeLoop size key code buf j temp =
        some (buf', j + (escaped key code temp).length) ∧
      Front buf' (out ++ escaped key code temp) := by
  induction temp generalizing buf j out with
  | nil => exact ⟨buf, rfl, by rwa [escaped, List.flatMap_nil, List.append_nil]⟩
  | cons b temp ih =>
    rw [escaped_cons, List.length_append] at hroom ⊢
    have hfront : Front (blit buf j (escapeByte key code b)) (out ++ escapeByte key code b) :=
      hj ▸ hbuf.append (escapeByte key code b)
    have hj' : j + (escapeByte key code b).length = (out ++ escapeByte key code b).length := by
      rw [List.length_append, hj]
    obtain ⟨buf', hloop, hfront'⟩ := ih hfront hj' (by omega)
    refine ⟨buf', ?_, by rwa [← List.append_assoc]⟩
    rw [escapeLoop, ← Nat.add_assoc, ← hloop]
    by_cases hb : b = key
    · have heq : escapeByte key code b = code := if_pos hb
      rw [heq] at hroom ⊢
      rw [if_pos hb, if_pos (by omega), storeAll_of_le (by omega)]
      exact if_neg (by omega)
    · have heq : escapeByte key code b = [b] := if_neg hb
      rw [heq] at hroom ⊢
      rw [List.length_singleton] at hroom ⊢
      rw [if_neg hb, store_of_lt (by omega), blit_singleton]
      exact if_neg (by omega)

theorem escapeWith_spec {size : Nat} (key : UInt8) {code : List UInt8} (hcode : code.length = 3)
    (hz : 0 ∉ code) {buf : Nat → UInt8} {txt : List UInt8} (hbuf : Str buf size 0 txt)
    (hroom : (escaped key code txt).length < size - 1) :
    ∃ buf', escapeWith size key code buf = some buf' ∧
      Str buf' size 0 (escaped key code txt) := by
  obtain ⟨buf', hloop, hfront⟩ := escapeLoop_spec hcode (front_nil buf) rfl
    (show ([] : List UInt8).length + _ < size - 1 by rwa [List.length_nil, Nat.zero_add])
  rw [List.nil_append] at hfront
  rw [List.length_nil, Nat.zero_add] at hloop
  refine ⟨_, ?_, hfront.close (zero_notMem_escaped hz hbuf.zero_notMem) (by omega)⟩
  rw [escapeWith, strAt_str hbuf]
  simp only [bind, Option.bind_some, hloop]
  exact store_of_lt (by omega) 0

/-- The text with both escapes. -/
def escapedText (txt : List UInt8) : List UInt8 :=
  escaped quote quoteCode (escaped backslash backslashCode txt)

theorem escapedText_cons (b : UInt8) (txt : List UInt8) : escapedText (b :: txt) =
    escaped quote quoteCode (escapeByte backslash backslashCode b) ++ escapedText txt := by
  rw [escapedText, escaped_cons]
  exact List.flatMap_append

/-- A byte becomes at most three. -/
theorem length_escapedText_le (txt : List UInt8) :
    (escaped backslash backslashCode txt).length ≤ 3 * txt.length ∧
      (escapedText txt).length ≤ 3 * txt.length := by
  induction txt with
  | nil => exact ⟨Nat.le_refl _, Nat.le_refl _⟩
  | cons b txt ih =>
    obtain ⟨hfirst, hboth⟩ := ih
    have hbyte : ∀ b, (escapeByte backslash backslashCode b).length ≤ 3 ∧
        (escaped quote quoteCode (escapeByte backslash backslashCode b)).length ≤ 3 := by
      intro b
      rw [escapeByte]
      split
      · decide
      · rw [escaped, List.flatMap_singleton, escapeByte, List.length_singleton]
        split
        · decide
        · exact ⟨by decide, Nat.le_add_left 1 2⟩
    obtain ⟨hone, htwo⟩ := hbyte b
    rw [escapedText_cons, escaped_cons, List.length_append, List.length_append, List.length_cons]
    exact ⟨by omega, by omega⟩

/-! ## Names -/

/-- The text that a name is put into the command as, and the encoding. -/
inductive PackedAs (tc1 try82 : Bool) (line : List (List UInt8)) :
    RilPhbCpbwEncode → List UInt8 → Prop where
  | gsm7bit {same : List (List UInt8)} (htc1 : tc1 = true) (hplain : Plain tc1 line)
      (hsame : List.Forall₂ SameText same line) : PackedAs tc1 try82 line .gsm7bit same.flatten
  | ira (htc1 : tc1 = false) (hplain : Plain tc1 line) :
      PackedAs tc1 try82 line .ira (escapedText ((line.map fun hex =>
        UInt8.ofInt (hexCharToDecInt hex)).takeWhile (· ≠ 0)))
  | ucs281 {base : Nat} {codes : List Nat} (hplain : ¬ Plain tc1 line)
      (hcodes : encoded81 (line.map alphaChar) = some (base, codes)) :
      PackedAs tc1 try82 line .ucs281 (text81 base codes)
  | ucs282 {base : Nat} {codes : List Nat} (hplain : ¬ Plain tc1 line) (htry : try82 = true)
      (hnone : encoded81 (line.map alphaChar) = none)
      (hcodes : encoded82 (line.map alphaChar) = some (base, codes)) :
      PackedAs tc1 try82 line .ucs282 (text82 base codes)
  | ucs2 {same : List (List UInt8)} (hplain : ¬ Plain tc1 line)
      (hnone : encoded81 (line.map alphaChar) = none)
      (hnone' : try82 = true → encoded82 (line.map alphaChar) = none)
      (hsame : List.Forall₂ SameText same line) : PackedAs tc1 try82 line .ucs2 same.flatten

theorem alphaChar_congr {a b : List (List UInt8)} (h : List.Forall₂ SameText a b) :
    a.map alphaChar = b.map alphaChar := by
  induction h with
  | nil => rfl
  | cons hsame _ ih =>
    rw [List.map_cons, List.map_cons, ih, alphaChar, sameText_hexCharToDecInt hsame, alphaChar]

theorem zero_notMem_congr {a b : List (List UInt8)} (h : List.Forall₂ SameText a b)
    (hz : 0 ∉ b.flatten) : 0 ∉ a.flatten ∧ a.flatten.length = b.flatten.length := by
  have hlower : ∀ x : UInt8, lowerByte x = 0 → x = 0 := by
    intro x
    apply forall_byte (P := fun x => lowerByte x = 0 → x = 0)
    decide +kernel
  induction h with
  | nil => exact ⟨List.not_mem_nil, rfl⟩
  | cons hsame _ ih =>
    rename_i x y a b _
    rw [List.flatten_cons, List.mem_append, not_or] at hz
    obtain ⟨ha, hlen⟩ := ih hz.2
    rw [List.flatten_cons, List.flatten_cons, List.mem_append, List.length_append,
      List.length_append, hlen, hsame.length_eq]
    refine ⟨fun h => h.elim (fun hx => hz.1 ?_) ha, rfl⟩
    have hmem : (0 : UInt8) ∈ y.map lowerByte := by
      rw [← show x.map lowerByte = y.map lowerByte from hsame]
      exact List.mem_map.mpr ⟨0, hx, rfl⟩
    obtain ⟨z, hz', hlow⟩ := List.mem_map.mp hmem
    exact hlower z hlow ▸ hz'

/-- The digits themselves are written over what the loop has left. -/
theorem storeLine_spec (size : Nat) {buf : Nat → UInt8} {txt line : List UInt8}
    (hbuf : Filled buf txt) (hz : 0 ∉ line) (hle : txt.length ≤ line.length)
    (hlt : line.length < size) :
    ∃ buf', storeAll buf size 0 (line.take size) = some buf' ∧ Str buf' size 0 line := by
  rw [List.take_of_length_le (Nat.le_of_lt hlt), storeAll_of_le (by omega)]
  have hfront := (front_nil buf).append line
  rw [List.nil_append, List.length_nil] at hfront
  refine ⟨_, rfl, hfront.str hz hlt ?_⟩
  rw [blit_of_notMem buf (.inr (by omega))]
  exact hbuf.2 _ hle

/-- A name that the array of `encodeUCS2_0x81` has room for, or that is written character by
character, is put into its array as a string. -/
theorem packName_spec (tc1 try82 : Bool) {size : Nat} {line : List UInt8} (hz : 0 ∉ line)
    (hfour : line.length % 4 = 0) (hroom : line.length + 4 < size)
    (hfits : Plain tc1 (charsOf line) ∨ (charsOf line).length < 44) :
    ∃ buf encodeMethod txt, packName tc1 size try82 line = some (buf, encodeMethod) ∧
      Str buf size 0 txt ∧ PackedAs tc1 try82 (charsOf line) encodeMethod txt := by
  obtain ⟨hflat, hlength, hchars⟩ := charsOf_spec hfour
  have hzeros : Filled (fun _ => (0 : UInt8)) [] := ⟨front_nil _, fun _ _ => rfl⟩
  obtain ⟨packed, hpack, hpacked⟩ := packChars_spec tc1 false hzeros
    (show _ < size by rw [List.length_nil]; omega) hchars
  obtain ⟨txt, hfilled, htxt, heq⟩ := hpacked.filled
  rw [List.nil_append] at hfilled
  obtain ⟨hz', hlen'⟩ := zero_notMem_congr hpacked.same (hflat.symm ▸ hz)
  rw [hflat] at hlen'
  have hcount := hpacked.same.length_eq
  have halpha := alphaChar_congr hpacked.same
  rw [List.length_nil] at hpack
  rw [packName, hpack]
  simp only [bind, Option.bind_some]
  by_cases hplain : Plain tc1 (charsOf line)
  · obtain ⟨hcomplete, hascii⟩ := hpacked.plain.mpr ⟨rfl, hplain⟩
    simp only [hcomplete, hascii, Bool.not_true, Bool.or_self, Bool.false_eq_true, if_false]
    cases tc1 with
    | true =>
      obtain ⟨buf, hstore, hstr⟩ := storeLine_spec size hfilled hz' (by omega) (by omega)
      rw [if_pos rfl, hstore]
      exact ⟨buf, _, _, rfl, hstr, .gsm7bit rfl hplain hpacked.same⟩
    | false =>
      have hlt : txt.length < size := by omega
      have hstr := hfilled.1.str_takeWhile hlt (hfilled.2 _ (Nat.le_refl _))
      have hwhile : (txt.takeWhile (· ≠ 0)).length ≤ (charsOf line).length := by
        rw [heq rfl hcomplete]
        exact (List.takeWhile_sublist _).length_le.trans (Nat.le_of_eq (List.length_map _))
      obtain ⟨hfirst, hboth⟩ := length_escapedText_le (txt.takeWhile (· ≠ 0))
      obtain ⟨buf, hesc, hstr'⟩ := escapeWith_spec backslash
        (show backslashCode.length = 3 from rfl) (by decide) hstr (by omega)
      obtain ⟨buf', hesc', hstr''⟩ := escapeWith_spec quote
        (show quoteCode.length = 3 from rfl) (by decide) hstr' (by rw [← escapedText]; omega)
      simp only [Bool.false_eq_true, if_false, hesc, Option.bind_some, hesc']
      refine ⟨buf', _, _, rfl, hstr'', ?_⟩
      rw [heq rfl hcomplete]
      exact .ira rfl hplain
  · have hgo : (!packed.complete || packed.asciiNotSupported) = true := by
      by_contra hstop
      rw [Bool.not_eq_true, Bool.or_eq_false_iff, Bool.not_eq_false'] at hstop
      exact hplain (hpacked.plain.mp hstop).2
    have hshort : packed.line.length < 44 := by
      rw [hcount]
      exact hfits.resolve_left hplain
    obtain ⟨des, n, hencode, hspec⟩ := encodeUCS2_0x81_spec size packed.buf hshort
      (by omega)
    rw [if_pos hgo, hencode]
    simp only [Option.bind_some]
    rw [halpha] at hspec
    cases hcodes : encoded81 ((charsOf line).map alphaChar) with
    | some result =>
      rw [hcodes] at hspec
      rw [if_pos hspec.1]
      exact ⟨des, _, _, rfl, hspec.2, .ucs281 hplain hcodes⟩
    | none =>
      rw [hcodes] at hspec
      obtain ⟨rfl, rfl⟩ := hspec
      rw [if_neg (not_not.mpr rfl)]
      obtain ⟨buf, hstore, hstr⟩ := storeLine_spec size hfilled hz' (by omega) (by omega)
      cases try82 with
      | false =>
        simp only [Bool.false_eq_true, if_false]
        rw [if_neg (not_not.mpr rfl), hstore]
        exact ⟨buf, _, _, rfl, hstr, .ucs2 hplain hcodes nofun hpacked.same⟩
      | true =>
        obtain ⟨des, n, hencode, hspec⟩ := encodeUCS2_0x82_spec size packed.buf
          (Nat.lt_succ_of_lt hshort) (by omega)
        simp only [if_true, hencode, Option.bind_some]
        rw [halpha] at hspec
        cases hcodes' : encoded82 ((charsOf line).map alphaChar) with
        | some result =>
          rw [hcodes'] at hspec
          rw [if_pos hspec.1]
          exact ⟨des, _, _, rfl, hspec.2, .ucs282 hplain rfl hcodes hcodes'⟩
        | none =>
          rw [hcodes'] at hspec
          obtain ⟨rfl, rfl⟩ := hspec
          rw [if_neg (not_not.mpr rfl), hstore]
          exact ⟨buf, _, _, rfl, hstr, .ucs2 hplain hcodes (fun _ => hcodes') hpacked.same⟩

/-- The array of `encodeUCS2_0x81` is too short for a longer text that is not written character by
character. -/
theorem packName_eq_none {tc1 try82 : Bool} {size : Nat} {line : List UInt8}
    (hfour : line.length % 4 = 0) (hroom : line.length + 4 < size)
    (hplain : ¬ Plain tc1 (charsOf line)) (hlong : 44 ≤ (charsOf line).length) :
    packName tc1 size try82 line = none := by
  obtain ⟨-, hlength, hchars⟩ := charsOf_spec hfour
  have hzeros : Filled (fun _ => (0 : UInt8)) [] := ⟨front_nil _, fun _ _ => rfl⟩
  obtain ⟨packed, hpack, hpacked⟩ := packChars_spec tc1 false hzeros
    (show _ < size by rw [List.length_nil]; omega) hchars
  have hgo : (!packed.complete || packed.asciiNotSupported) = true := by
    by_contra hstop
    rw [Bool.not_eq_true, Bool.or_eq_false_iff, Bool.not_eq_false'] at hstop
    exact hplain (hpacked.plain.mp hstop).2
  have hfill : fillAlphaId (maxPhbNameLen + 3 + 1) packed.line = none := by
    refine if_neg ?_
    rw [hpacked.same.length_eq]
    exact Nat.not_lt.mpr hlong
  rw [List.length_nil] at hpack
  rw [packName, hpack]
  simp only [bind, Option.bind_some, if_pos hgo]
  rw [encodeUCS2_0x81, hfill]
  rfl

/-! ## Requests -/

/-- The bytes of a string. -/
structure CText where
  txt : List UInt8
  zero_notMem : 0 ∉ txt

/-- The fields of an entry that have a text. -/
inductive UpbField where
  | gas
  | aas
  | sne
  | email
deriving DecidableEq, Repr

/-- The parameter for the field. -/
def UpbField.param : UpbField → List UInt8
  | .gas => ascii ['4']
  | .aas => ascii ['3']
  | .sne => ascii ['2']
  | .email => ascii ['1']

/-- A request with a text in it. -/
inductive TextRequest where
  | write (selected : Bool) (index ton : Int) (number : Option (List UInt8)) (name : Option CText)
  | edit (field : UpbField) (p1 p2 : List UInt8) (line : CText) (more : List (List UInt8))

/-- What the request comes to; none when it leaves an array, or has no string in the end. -/
def TextRequest.run (tc1 : Bool) : TextRequest → Option PhbOutcome
  | .write selected index ton number name =>
      requestWritePhbEntry tc1 selected ⟨index, number, ton, name.map CText.txt⟩
  | .edit field p1 p2 line more =>
      requestEditUPBEntry tc1 (field.param :: p1 :: p2 :: line.txt :: more)

/-- An e-mail address that is not written character by character has less than 44 of them. -/
def RoomFor (tc1 : Bool) : TextRequest → Prop
  | .edit .email _ _ line _ => line.txt.length % 4 = 0 → line.txt.length ≤ maxPhbEmailLen * 4 →
      Plain tc1 (charsOf line.txt) ∨ line.txt.length < 44 * 4
  | _ => True

/-- A field is packed when its text is accepted and fits the arrays. -/
theorem packField_isSome_iff {tc1 : Bool} {size maxLen : Nat} {line : CText}
    {command : List UInt8 → RilPhbCpbwEncode → List UInt8} (hsize : size = maxLen * 4 + 4 + 1) :
    (packField tc1 size maxLen line.txt command).isSome ↔
      (line.txt.length % 4 = 0 → line.txt.length ≤ maxLen * 4 →
        Plain tc1 (charsOf line.txt) ∨ line.txt.length < 44 * 4) := by
  rw [packField]
  by_cases hempty : line.txt.length = 0
  · rw [if_pos hempty]
    exact iff_of_true rfl fun _ _ => .inr (by omega)
  · by_cases hfour : line.txt.length % 4 = 0
    · rw [if_neg hempty, if_neg (not_not.mpr hfour)]
      by_cases hlong : maxLen * 4 < line.txt.length
      · rw [if_pos hlong]
        exact iff_of_true rfl fun _ hle => absurd hlong (Nat.not_lt.mpr hle)
      · rw [if_neg hlong]
        have hle := Nat.le_of_not_lt hlong
        have hlength := (charsOf_spec hfour).2.1
        by_cases hfits : Plain tc1 (charsOf line.txt) ∨ line.txt.length < 44 * 4
        · obtain ⟨buf, encodeMethod, txt, hpack, hstr, -⟩ := packName_spec tc1 false
            line.zero_notMem hfour (show line.txt.length + 4 < size by omega)
            (hfits.imp_right fun h => by omega)
          simp only [hpack, bind, Option.bind_some, strAt_str hstr]
          exact iff_of_true rfl fun _ _ => hfits
        · rw [not_or] at hfits
          rw [packName_eq_none hfour (by omega) hfits.1 (by omega)]
          exact iff_of_false Bool.false_ne_true fun h => not_or.mpr hfits (h hfour hle)
    · rw [if_neg hempty, if_pos hfour]
      exact iff_of_true rfl fun h => absurd h hfour

theorem requestWritePhbEntry_isSome (tc1 selected : Bool) (index ton : Int)
    (number : Option (List UInt8)) (name : Option CText) :
    (requestWritePhbEntry tc1 selected ⟨index, number, ton, name.map CText.txt⟩).isSome := by
  have hz : 0 ∉ (name.map CText.txt).getD [] := by
    cases name with
    | none => exact List.not_mem_nil
    | some name => exact name.zero_notMem
  rw [requestWritePhbEntry]
  generalize (name.map CText.txt).getD [] = line at hz ⊢
  simp only
  split
  · rfl
  · split
    · rfl
    · split
      · rfl
      · split
        · rfl
        · rename_i hfour
          split
          · rfl
          · rename_i hlong
            have hfour := not_not.mp hfour
            have hlength := (charsOf_spec hfour).2.1
            have hle : line.length ≤ 160 := Nat.le_of_not_lt hlong
            have hroom : line.length + 4 < nameSize := by
              rw [show nameSize = 165 from rfl]
              omega
            obtain ⟨buf, encodeMethod, txt, hpack, hstr, -⟩ :=
              packName_spec tc1 true hz hfour hroom (.inr (by omega))
            simp only [hpack, bind, Option.bind_some, strAt_str hstr]
            rfl

/-- The command for a field; the encoding of an e-mail address is not in it. -/
def UpbField.command (p1 p2 str : List UInt8) (encodeMethod : RilPhbCpbwEncode) :
    UpbField → List UInt8
  | .email => epbumCommand [UpbField.email.param, p2, p1, quoted str]
  | field => epbumCommand [field.param, p2, p1, quoted str, decimal encodeMethod.toNat]

/-- What is done about a field depends on whether it is an e-mail address. -/
theorem run_edit (tc1 : Bool) (field : UpbField) (p1 p2 : List UInt8) (line : CText)
    (more : List (List UInt8)) : (TextRequest.edit field p1 p2 line more).run tc1 =
      packField tc1 (if field = .email then emailSize else nameSize)
        (if field = .email then maxPhbEmailLen else maxPhbNameLen) line.txt
        fun str encodeMethod => field.command p1 p2 str encodeMethod := by
  cases field with
  | gas => rfl
  | aas => rfl
  | sne => rfl
  | email => rfl

/-- A name has room in every array. -/
theorem packField_name {tc1 : Bool} {line : CText}
    {command : List UInt8 → RilPhbCpbwEncode → List UInt8} :
    (packField tc1 nameSize maxPhbNameLen line.txt command).isSome := by
  refine (packField_isSome_iff rfl).mpr fun _ hle => .inr ?_
  rw [show maxPhbNameLen = 40 from rfl] at hle
  omega

/-- The requests stay inside their arrays and have a string for the command, exactly when no long
e-mail address comes to `encodeUCS2_0x81`. -/
theorem requests_inside_iff (tc1 : Bool) (request : TextRequest) :
    (request.run tc1).isSome ↔ RoomFor tc1 request := by
  cases request with
  | write selected index ton number name =>
    exact iff_of_true (requestWritePhbEntry_isSome tc1 selected index ton number name) trivial
  | edit field p1 p2 line more =>
    rw [run_edit]
    cases field with
    | gas => exact iff_of_true packField_name trivial
    | aas => exact iff_of_true packField_name trivial
    | sne => exact iff_of_true packField_name trivial
    | email => exact packField_isSome_iff rfl

/-- An e-mail address of 44 characters that are not ASCII. -/
def longEmail : List UInt8 := (List.replicate 44 (ascii ['0', '0', 'E', '9'])).flatten

/-- The zero behind its characters is written behind the array of `encodeUCS2_0x81`. -/
theorem longEmail_outside : ¬ ∀ tc1 request, (TextRequest.run tc1 request).isSome := by
  intro hall
  have hnone : TextRequest.run false
      (.edit .email (ascii ['1']) (ascii ['1']) ⟨longEmail, by decide⟩ []) = none := by
    decide +kernel
  have hsome := hall false (.edit .email (ascii ['1']) (ascii ['1']) ⟨longEmail, by decide⟩ [])
  rw [hnone] at hsome
  cases hsome

end MtkHw.Phb
