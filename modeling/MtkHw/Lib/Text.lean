import Mathlib.Data.List.TakeWhile
import Mathlib.Algebra.Group.Int.Defs
import Mathlib.Algebra.Group.Nat.Defs

/-!
# Texts with separators

What the functions of C for the search of separators do with a text, which is here the list of its
characters up to the final zero.  A cursor is a text that is left, or none when it is `NULL`.

`strpbrk_word` and `strsep_word` say what is found behind a word that contains no separator;
`joinWith` puts words together with a separator between two.  `strstr_word` says where the search
for a text that begins with a separator goes on.  `atoi_formatInt` and `strtol_formatInt` are the
round trips of decimal numbers.
-/

namespace MtkHw.Lib

/-- `isspace`, on the characters of seven bits. -/
def isspace (c : Char) : Bool := c = ' ' || '\t' ≤ c && c ≤ '\r'

variable {α : Type*}

/-! ## Words with separators between them -/

/-- The words, with a separator between two of them. -/
def joinWith (sep : α) : List (List α) → List α
  | [] => []
  | [word] => word
  | word :: next :: words => word ++ sep :: joinWith sep (next :: words)

/-- The words after the first one are each preceded by a separator. -/
theorem joinWith_cons (sep : α) (word : List α) (words : List (List α)) :
    joinWith sep (word :: words) = word ++ words.flatMap (sep :: ·) := by
  induction words generalizing word with
  | nil => exact (List.append_nil _).symm
  | cons next words ih => rw [joinWith, ih, List.flatMap_cons, List.cons_append]

/-- Without a separator in it a text is a word for `strchr`. -/
theorem word_of_notMem {word : List α} {c : α} (h : c ∉ word) : ∀ b ∈ word, b ∉ [c] := by
  intro b hb hc
  rw [List.mem_singleton.mp hc] at hb
  exact h hb

variable [DecidableEq α]

/-! ## Searches -/

/-- What begins at the first of the characters `key`. -/
def strpbrk (txt key : List α) : Option (List α) :=
  match txt.dropWhile (· ∉ key) with
  | [] => none
  | c :: rest => some (c :: rest)

/-- What begins at the first `c`. -/
def strchr (txt : List α) (c : α) : Option (List α) := strpbrk txt [c]

/-- The word up to a separator, and the cursor behind it.  A last word leaves no cursor. -/
def strsep (cur : Option (List α)) (key : List α) : Option (List α) × Option (List α) :=
  match cur with
  | none => (none, none)
  | some txt => (some (txt.takeWhile (· ∉ key)), (strpbrk txt key).map List.tail)

section Words

variable {word key : List α} (hword : ∀ c ∈ word, c ∉ key)

include hword

/-- The separator behind a word. -/
theorem strpbrk_word {c : α} (hc : c ∈ key) (rest : List α) :
    strpbrk (word ++ c :: rest) key = some (c :: rest) := by
  have hdrop : (word ++ c :: rest).dropWhile (· ∉ key) = c :: rest := by
    rw [List.dropWhile_append_of_pos fun b hb => decide_eq_true (hword b hb),
      List.dropWhile_cons_of_neg (by simpa using hc)]
  rw [strpbrk, hdrop]

/-- There is no separator in a word. -/
theorem strpbrk_last : strpbrk word key = none := by
  have hdrop : word.dropWhile (· ∉ key) = [] := by
    rw [List.dropWhile_eq_nil_iff]
    exact fun b hb => decide_eq_true (hword b hb)
  rw [strpbrk, hdrop]

/-- A word with a separator behind it. -/
theorem strsep_word {c : α} (hc : c ∈ key) (rest : List α) :
    strsep (some (word ++ c :: rest)) key = (some word, some rest) := by
  have htake : (word ++ c :: rest).takeWhile (· ∉ key) = word := by
    rw [List.takeWhile_append_of_pos fun b hb => decide_eq_true (hword b hb),
      List.takeWhile_cons_of_neg (by simpa using hc), List.append_nil]
  rw [strsep, htake, strpbrk_word hword hc]
  rfl

/-- A last word. -/
theorem strsep_last : strsep (some word) key = (some word, none) := by
  have htake : word.takeWhile (· ∉ key) = word :=
    List.takeWhile_eq_self_iff.mpr fun b hb => decide_eq_true (hword b hb)
  rw [strsep, htake, strpbrk_last hword]
  rfl

end Words

/-- What begins at the first place where `key` stands. -/
def strstr : List α → List α → Option (List α)
  | [], key => if key = [] then some [] else none
  | c :: txt, key => if key <+: c :: txt then some (c :: txt) else strstr txt key

/-- What is searched for stands at the front. -/
theorem strstr_prefix (key rest : List α) : strstr (key ++ rest) key = some (key ++ rest) := by
  cases hkey : key ++ rest with
  | nil =>
    rw [strstr, if_pos (List.append_eq_nil_iff.mp hkey).1]
  | cons c txt =>
    rw [strstr, if_pos]
    rw [← hkey]
    exact List.prefix_append key rest

/-- A text that begins with `c` is not found before the first `c`. -/
theorem strstr_word {c : α} {word : List α} (hword : c ∉ word) (key rest : List α) :
    strstr (word ++ rest) (c :: key) = strstr rest (c :: key) := by
  induction word with
  | nil => rfl
  | cons b word ih =>
    have hb : ¬ c :: key <+: b :: (word ++ rest) := by
      intro hprefix
      exact hword (List.mem_cons.mpr (.inl (List.cons_prefix_cons.mp hprefix).1))
    rw [List.cons_append, strstr, if_neg hb]
    exact ih fun hc => hword (List.mem_cons_of_mem b hc)

/-- A text of one character is searched for as the character. -/
theorem strstr_singleton (txt : List α) (c : α) : strstr txt [c] = strchr txt c := by
  induction txt with
  | nil => rfl
  | cons b txt ih =>
    by_cases hb : b = c
    · have hprefix : [c] <+: b :: txt := List.cons_prefix_cons.mpr ⟨hb.symm, List.nil_prefix⟩
      rw [strstr, if_pos hprefix, strchr, strpbrk, List.dropWhile_cons_of_neg (by simpa using hb)]
    · have hprefix : ¬ [c] <+: b :: txt := fun h => hb (List.cons_prefix_cons.mp h).1.symm
      rw [strstr, if_neg hprefix, ih, strchr, strchr, strpbrk, strpbrk,
        List.dropWhile_cons_of_pos (by simpa using hb)]

/-- `sprintf` into a buffer of `size` characters, which takes a final zero as well: none when it
writes beyond the buffer. -/
def sprintf (size : Nat) (txt : List α) : Option (List α) :=
  if txt.length < size then some txt else none

/-! ## Decimal numbers -/

/-- `%d` -/
def formatInt : Int → List Char
  | .ofNat n => Nat.toDigits 10 n
  | .negSucc n => '-' :: Nat.toDigits 10 (n + 1)

/-- `atoi`; what it returns is not defined when the number is not an `int`. -/
def atoi (txt : List Char) : Option Int32 :=
  let txt := txt.dropWhile isspace
  let digits := if txt.head? = some '-' ∨ txt.head? = some '+' then txt.tail else txt
  let magnitude : Int := Nat.ofDigitChars 10 (digits.takeWhile Char.isDigit) 0
  let value := if txt.head? = some '-' then -magnitude else magnitude
  if -2 ^ 31 ≤ value ∧ value < 2 ^ 31 then some (Int32.ofInt value) else none

theorem isspace_of_isDigit {c : Char} (h : c.isDigit = true) : isspace c = false := by
  rw [Char.isDigit, Bool.and_eq_true, decide_eq_true_eq, decide_eq_true_eq] at h
  have hlow : '0' ≤ c := h.1
  have hnot : ¬ c ≤ '\r' := fun hle => absurd (Char.le_trans hlow hle) (by decide)
  have hne : c ≠ ' ' := by
    rintro rfl
    exact absurd hlow (by decide)
  rw [isspace, decide_eq_false hne, decide_eq_false hnot, Bool.and_false, Bool.or_false]

/-- A number that is not negative is written with digits only. -/
theorem isDigit_of_mem_formatInt {v : Int32} (h : 0 ≤ v) {c : Char} (hc : c ∈ formatInt v.toInt) :
    c.isDigit = true := by
  obtain ⟨n, hn⟩ := Int.eq_ofNat_of_zero_le (Int32.le_iff_toInt_le.mp h)
  rw [hn] at hc
  exact Nat.isDigit_of_mem_toDigits (by decide) (by decide) hc

/-- A number is written with digits, and perhaps a sign in front. -/
theorem formatInt_eq (i : Int) : ∃ digits : List Char, (∀ c ∈ digits, c.isDigit = true) ∧
    digits ≠ [] ∧ Nat.ofDigitChars 10 digits 0 = i.natAbs ∧
    formatInt i = if i < 0 then '-' :: digits else digits := by
  refine ⟨Nat.toDigits 10 i.natAbs,
    fun c hc => Nat.isDigit_of_mem_toDigits (by decide) (by decide) hc,
    Nat.toDigits_ne_nil, Nat.ofDigitChars_ten_toDigits, ?_⟩
  cases i with
  | ofNat n =>
    have hneg : ¬ Int.ofNat n < 0 := Int.not_lt.mpr (Int.natCast_nonneg n)
    rw [if_neg hneg]
    rfl
  | negSucc n =>
    rw [if_pos (Int.negSucc_lt_zero n)]
    rfl

/-- Only digits and the sign are written. -/
theorem mem_formatInt {i : Int} {c : Char} (hc : c ∈ formatInt i) : c.isDigit = true ∨ c = '-' := by
  obtain ⟨digits, hdigits, -, -, heq⟩ := formatInt_eq i
  rw [heq] at hc
  split at hc
  · rcases List.mem_cons.mp hc with rfl | hc
    · exact .inr rfl
    · exact .inl (hdigits c hc)
  · exact .inl (hdigits c hc)

/-- A number that is not negative has at most ten digits. -/
theorem length_formatInt {v : Int32} (h : 0 ≤ v) : (formatInt v.toInt).length ≤ 10 := by
  obtain ⟨n, hn⟩ := Int.eq_ofNat_of_zero_le (Int32.le_iff_toInt_le.mp h)
  have hlt := v.toInt_lt
  rw [hn] at hlt ⊢
  refine (Nat.length_toDigits_le_iff (by decide) (by decide)).mpr ?_
  omega

/-- `atoi` reads what `%d` has written. -/
theorem atoi_formatInt {v : Int32} (h : 0 ≤ v) : atoi (formatInt v.toInt) = some v := by
  have hdigits := fun c => isDigit_of_mem_formatInt h (c := c)
  obtain ⟨n, hn⟩ := Int.eq_ofNat_of_zero_le (Int32.le_iff_toInt_le.mp h)
  have hlt := v.toInt_lt
  have hv : Int32.ofInt n = v := by rw [← hn, Int32.ofInt_toInt]
  rw [hn] at hdigits hlt ⊢
  change ∀ c ∈ Nat.toDigits 10 n, _ at hdigits
  change atoi (Nat.toDigits 10 n) = _
  have hvalue : Nat.ofDigitChars 10 (Nat.toDigits 10 n) 0 = n := Nat.ofDigitChars_ten_toDigits
  obtain ⟨c, rest, hcons⟩ := List.exists_cons_of_ne_nil (Nat.toDigits_ne_nil (n := n) (b := 10))
  rw [hcons] at hdigits hvalue ⊢
  have hc := hdigits c List.mem_cons_self
  have hminus : (c :: rest).head? ≠ some '-' := by
    intro heq
    cases heq
    exact absurd hc (by decide)
  have hplus : (c :: rest).head? ≠ some '+' := by
    intro heq
    cases heq
    exact absurd hc (by decide)
  have hdrop : (c :: rest).dropWhile isspace = c :: rest := by
    rw [List.dropWhile_cons_of_neg]
    rw [isspace_of_isDigit hc]
    exact Bool.false_ne_true
  rw [atoi, hdrop, if_neg (not_or.mpr ⟨hminus, hplus⟩), if_neg hminus,
    List.takeWhile_eq_self_iff.mpr hdigits, hvalue, if_pos ⟨by omega, by omega⟩, hv]

/-- `strtol` with base 10 for a `long` of 64 bits: none when there is no number. -/
def strtol (txt : List Char) : Option Int :=
  let txt := txt.dropWhile isspace
  let digits := if txt.head? = some '-' ∨ txt.head? = some '+' then txt.tail else txt
  let digits := digits.takeWhile Char.isDigit
  let magnitude : Int := Nat.ofDigitChars 10 digits 0
  let value := if txt.head? = some '-' then -magnitude else magnitude
  if digits = [] then none else some (max (-2 ^ 63) (min value (2 ^ 63 - 1)))

/-- `strtol` reads what `%d` has written. -/
theorem strtol_formatInt {i : Int} (hlow : -2 ^ 63 ≤ i) (hhigh : i ≤ 2 ^ 63 - 1) :
    strtol (formatInt i) = some i := by
  obtain ⟨digits, hdigits, hne, hvalue, heq⟩ := formatInt_eq i
  obtain ⟨d, rest, rfl⟩ := List.exists_cons_of_ne_nil hne
  have hd := hdigits d List.mem_cons_self
  have htake : (d :: rest).takeWhile Char.isDigit = d :: rest :=
    List.takeWhile_eq_self_iff.mpr hdigits
  have hclamp : max (-2 ^ 63) (min i (2 ^ 63 - 1)) = i := by omega
  rw [heq]
  by_cases hneg : i < 0
  · have hminus : (('-' :: d :: rest).dropWhile isspace) = '-' :: d :: rest := rfl
    have hval : -((i.natAbs : Nat) : Int) = i := by omega
    rw [if_pos hneg, strtol, hminus]
    simp only [List.head?_cons, true_or, if_true, List.tail_cons, htake, if_neg hne, hvalue, hval,
      hclamp]
  · have hminus : (d :: rest).head? ≠ some '-' := by
      intro h
      cases h
      exact absurd hd (by decide)
    have hplus : (d :: rest).head? ≠ some '+' := by
      intro h
      cases h
      exact absurd hd (by decide)
    have hdrop : (d :: rest).dropWhile isspace = d :: rest := by
      rw [List.dropWhile_cons_of_neg]
      rw [isspace_of_isDigit hd]
      exact Bool.false_ne_true
    have hval : ((i.natAbs : Nat) : Int) = i := by omega
    rw [if_neg hneg, strtol, hdrop, if_neg (not_or.mpr ⟨hminus, hplus⟩), if_neg hminus, htake,
      if_neg hne, hvalue, hval, hclamp]

end MtkHw.Lib
