import MtkHw.Lib.Text

/-!
# Numbers in C text

`strtoul` reads an unsigned number in a base up to 36: blanks and a sign may stand in front, and the
number ends at the first character that is no digit of the base.  A text without a number is zero,
and a number out of range is the greatest one.  `strtoul_word` is the number that the digits at the
front make when no letter follows; `%d` and `%02X` write such digits.
-/

namespace MtkHw.Lib

/-- The value of a digit `0` to `9`, `a` to `z` or `A` to `Z`; another character has a value that no
base has. -/
def digitVal (c : Char) : Nat :=
  if 0x30 ≤ c.toNat ∧ c.toNat ≤ 0x39 then c.toNat - 0x30
  else if 0x61 ≤ c.toNat ∧ c.toNat ≤ 0x7A then c.toNat - 0x61 + 10
  else if 0x41 ≤ c.toNat ∧ c.toNat ≤ 0x5A then c.toNat - 0x41 + 10
  else 36

/-- The number that the leading digits of a text make. -/
def leadingNumber (base : Nat) (txt : List Char) : Nat :=
  (txt.takeWhile (digitVal · < base)).foldl (fun n c => base * n + digitVal c) 0

/-- `strtoul` for an `unsigned long` of 64 bits. -/
def strtoul (base : Nat) (txt : List Char) : UInt64 :=
  let txt := txt.dropWhile isspace
  let digits := if txt.head? = some '-' ∨ txt.head? = some '+' then txt.tail else txt
  let digits :=
    if base = 16 ∧ (digits.take 2 = ['0', 'x'] ∨ digits.take 2 = ['0', 'X']) then digits.drop 2
    else digits
  let magnitude := leadingNumber base digits
  if 2 ^ 64 ≤ magnitude then UInt64.ofNat (2 ^ 64 - 1)
  else if txt.head? = some '-' then -UInt64.ofNat magnitude
  else UInt64.ofNat magnitude

/-! ## Digits -/

theorem isDigit_iff {c : Char} : c.isDigit = true ↔ 0x30 ≤ c.toNat ∧ c.toNat ≤ 0x39 := by
  rw [Char.isDigit, Bool.and_eq_true, decide_eq_true_eq, decide_eq_true_eq]
  exact Iff.rfl

theorem digitVal_of_isDigit {c : Char} (h : c.isDigit = true) :
    digitVal c = c.toNat - '0'.toNat := if_pos (isDigit_iff.mp h)

theorem digitVal_lt_of_isDigit {c : Char} (h : c.isDigit = true) : digitVal c < 10 := by
  obtain ⟨hlow, hhigh⟩ := isDigit_iff.mp h
  rw [digitVal_of_isDigit h, show '0'.toNat = 0x30 from rfl]
  omega

/-- A digit is no blank and no sign. -/
theorem not_blank_of_digitVal {c : Char} (h : digitVal c < 36) :
    isspace c = false ∧ c ≠ '-' ∧ c ≠ '+' := by
  refine ⟨?_, ?_, ?_⟩
  · rw [Bool.eq_false_iff]
    intro hspace
    have hle : c.toNat ≤ 0x20 := by
      rw [isspace, Bool.or_eq_true, Bool.and_eq_true, decide_eq_true_eq, decide_eq_true_eq,
        decide_eq_true_eq] at hspace
      rcases hspace with rfl | ⟨-, hspace⟩
      · exact Nat.le_refl _
      · exact Nat.le_trans (show c.toNat ≤ 0x0D from hspace) (by decide)
    have hval : digitVal c = 36 := by
      rw [digitVal, if_neg (by omega), if_neg (by omega), if_neg (by omega)]
    omega
  · rintro rfl
    exact absurd h (by decide)
  · rintro rfl
    exact absurd h (by decide)

/-- The digits of a word are read up to its end. -/
theorem leadingNumber_append {base : Nat} {word rest : List Char}
    (hword : ∀ c ∈ word, digitVal c < base)
    (hrest : ∀ c, rest.head? = some c → ¬ digitVal c < base) :
    leadingNumber base (word ++ rest) = leadingNumber base word := by
  have htake : rest.takeWhile (digitVal · < base) = [] := by
    cases rest with
    | nil => rfl
    | cons c rest => exact List.takeWhile_cons_of_neg (by simpa using hrest c rfl)
  unfold leadingNumber
  rw [List.takeWhile_append_of_pos (by simpa using hword), htake, List.append_nil,
    List.takeWhile_eq_self_iff.mpr (by simpa using hword)]

/-- For decimal digits this is the number that `atoi` reads. -/
theorem leadingNumber_ofDigitChars {word : List Char} (hword : ∀ c ∈ word, c.isDigit = true) :
    leadingNumber 10 word = Nat.ofDigitChars 10 word 0 := by
  have htake : word.takeWhile (digitVal · < 10) = word :=
    List.takeWhile_eq_self_iff.mpr fun c hc => decide_eq_true (digitVal_lt_of_isDigit (hword c hc))
  rw [leadingNumber, htake]
  clear htake
  generalize 0 = n
  induction word generalizing n with
  | nil => rfl
  | cons c word ih =>
    rw [List.foldl_cons, Nat.ofDigitChars_cons, digitVal_of_isDigit (hword c List.mem_cons_self)]
    exact ih (fun d hd => hword d (List.mem_cons_of_mem c hd)) _

/-- The number at the front of a text, when neither a letter nor a digit follows it. -/
theorem strtoul_word {base : Nat} {word : List Char} (rest : List Char) (hbase : base ≤ 16)
    (hne : word ≠ []) (hword : ∀ c ∈ word, digitVal c < base)
    (hrest : ∀ c, rest.head? = some c → digitVal c = 36)
    (hrange : leadingNumber base word < 2 ^ 64) :
    strtoul base (word ++ rest) = UInt64.ofNat (leadingNumber base word) := by
  obtain ⟨c, word, rfl⟩ := List.exists_cons_of_ne_nil hne
  obtain ⟨hspace, hminus, hplus⟩ :=
    not_blank_of_digitVal (Nat.lt_of_lt_of_le (hword c List.mem_cons_self) (by omega))
  have hdrop : (c :: word ++ rest).dropWhile isspace = c :: word ++ rest := by
    rw [List.cons_append, List.dropWhile_cons_of_neg (by rw [hspace]; decide)]
  have hsign : ¬ ((c :: word ++ rest).head? = some '-' ∨ (c :: word ++ rest).head? = some '+') := by
    rintro (h | h)
    · exact hminus (Option.some.inj h)
    · exact hplus (Option.some.inj h)
  -- no digit of the base, and nothing that follows, is an `x`
  have hx : ∀ x, 16 ≤ digitVal x → digitVal x < 36 →
      (c :: word ++ rest).take 2 ≠ ['0', x] := by
    intro x hlow hhigh htake
    cases word with
    | nil =>
      cases rest with
      | nil => cases htake
      | cons d rest =>
        cases htake
        exact absurd (hrest x rfl) (by omega)
    | cons d word =>
      cases htake
      have := hword x (by simp)
      omega
  have hhex : ¬ (base = 16 ∧ ((c :: word ++ rest).take 2 = ['0', 'x'] ∨
      (c :: word ++ rest).take 2 = ['0', 'X'])) := by
    rintro ⟨-, h | h⟩
    · exact hx 'x' (by decide) (by decide) h
    · exact hx 'X' (by decide) (by decide) h
  have hnumber : leadingNumber base (c :: word ++ rest) = leadingNumber base (c :: word) := by
    refine leadingNumber_append hword fun d hd => ?_
    have := hrest d hd
    omega
  unfold strtoul
  simp only [hdrop, if_neg hsign, if_neg hhex, hnumber, if_neg (Nat.not_le.mpr hrange),
    if_neg fun h => hsign (.inl h)]

/-! ## What is written -/

/-- `%d` writes a number that is not negative as a word. -/
theorem formatInt_word (n : Nat) : formatInt n ≠ [] ∧ (∀ c ∈ formatInt n, digitVal c < 10) ∧
    leadingNumber 10 (formatInt n) = n := by
  have hdigits : ∀ c ∈ Nat.toDigits 10 n, c.isDigit = true :=
    fun c hc => Nat.isDigit_of_mem_toDigits (by decide) (by decide) hc
  refine ⟨Nat.toDigits_ne_nil, fun c hc => digitVal_lt_of_isDigit (hdigits c hc), ?_⟩
  exact (leadingNumber_ofDigitChars hdigits).trans Nat.ofDigitChars_ten_toDigits

/-- `%d` of an `int` takes at most eleven characters. -/
theorem length_formatInt_le (v : Int32) : (formatInt v.toInt).length ≤ 11 := by
  have hlow := v.le_toInt
  have hhigh := v.toInt_lt
  cases hv : v.toInt with
  | ofNat n =>
    have hlen : (Nat.toDigits 10 n).length ≤ 10 :=
      (Nat.length_toDigits_le_iff (by decide) (by decide)).mpr (by
        have hlt : (n : Int) < 2 ^ 31 := by rwa [hv] at hhigh
        omega)
    exact Nat.le_succ_of_le hlen
  | negSucc n =>
    have hlen : (Nat.toDigits 10 (n + 1)).length ≤ 10 :=
      (Nat.length_toDigits_le_iff (by decide) (by decide)).mpr (by omega)
    exact Nat.succ_le_succ hlen

/-- What `strtoul` reads behind a minus sign. -/
theorem strtoul_minus (word : List Char) (hrange : leadingNumber 10 word < 2 ^ 64) :
    strtoul 10 ('-' :: word) = -UInt64.ofNat (leadingNumber 10 word) := by
  have hdrop : ('-' :: word).dropWhile isspace = '-' :: word := by
    rw [List.dropWhile_cons_of_neg (by decide)]
  unfold strtoul
  simp only [hdrop, List.head?_cons, true_or, if_true, List.tail_cons,
    if_neg (show ¬ (10 = 16 ∧ _) from fun h => absurd h.1 (by decide)),
    if_neg (Nat.not_le.mpr hrange)]

/-- An `unsigned int` that `%d` has written is read back, although it may get a sign. -/
theorem strtoul_formatInt (v : UInt32) :
    (strtoul 10 (formatInt v.toInt32.toInt)).toUInt32 = v := by
  have hlt := v.toNat_lt
  have hbits : v.toInt32.toInt = v.toBitVec.toInt := rfl
  have hnat : v.toBitVec.toNat = v.toNat := rfl
  rw [hbits, BitVec.toInt_eq_toNat_cond, hnat]
  apply UInt32.toNat_inj.mp
  rw [UInt64.toNat_toUInt32]
  split
  · obtain ⟨hne, hdigits, hnumber⟩ := formatInt_word v.toNat
    have hread := strtoul_word [] (by decide) hne hdigits nofun (by omega)
    rw [List.append_nil, hnumber] at hread
    rw [hread, UInt64.toNat_ofNat']
    omega
  · obtain ⟨n, hn⟩ : ∃ n, 2 ^ 32 - v.toNat = n + 1 := ⟨2 ^ 32 - v.toNat - 1, by omega⟩
    obtain ⟨-, -, hnumber⟩ := formatInt_word (n + 1)
    have hneg : (v.toNat : Int) - ((2 ^ 32 : Nat) : Int) = Int.negSucc n := by omega
    have hread := strtoul_minus (formatInt ((n + 1 : Nat) : Int)) (by omega)
    rw [hnumber] at hread
    have hformat : formatInt (Int.negSucc n) = '-' :: formatInt ((n + 1 : Nat) : Int) := rfl
    rw [hneg, hformat, hread, UInt64.toNat_neg, UInt64.toNat_ofNat',
      show UInt64.size = 2 ^ 64 from rfl]
    omega

/-- The character of a digit of `%X`. -/
def hexChar (d : Nat) : Char :=
  if d < 10 then Char.ofNat (0x30 + d) else Char.ofNat (0x41 + (d - 10))

/-- `%02X` of a byte. -/
def formatHexByte (b : UInt8) : List Char := [hexChar (b.toNat / 16), hexChar (b.toNat % 16)]

theorem digitVal_hexChar {d : Nat} (h : d < 16) : digitVal (hexChar d) = d := by
  have hall : (List.range 16).all (fun d => digitVal (hexChar d) = d) = true := by decide
  simpa using List.all_eq_true.mp hall d (List.mem_range.mpr h)

/-- `%02X` writes a byte as a word. -/
theorem formatHexByte_word (b : UInt8) : (∀ c ∈ formatHexByte b, digitVal c < 16) ∧
    leadingNumber 16 (formatHexByte b) = b.toNat := by
  have hb := b.toNat_lt
  have hhigh := digitVal_hexChar (d := b.toNat / 16) (by omega)
  have hlow := digitVal_hexChar (d := b.toNat % 16) (by omega)
  have hall : ∀ c ∈ formatHexByte b, digitVal c < 16 := by
    intro c hc
    simp only [formatHexByte, List.mem_cons, List.not_mem_nil, or_false] at hc
    rcases hc with rfl | rfl
    · omega
    · omega
  refine ⟨hall, ?_⟩
  rw [leadingNumber, List.takeWhile_eq_self_iff.mpr fun c hc => decide_eq_true (hall c hc)]
  simp only [formatHexByte, List.foldl_cons, List.foldl_nil, hhigh, hlow]
  omega

end MtkHw.Lib
