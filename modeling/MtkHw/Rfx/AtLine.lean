import MtkHw.Lib.Text

/-!
# The fields of an AT line

`RfxAtLine` takes the fields of a response of the modem one after the other.  A field is read up to
the next comma, or between two quotes.  The cursor is `NULL` behind a last field without quotes; behind
a last field with quotes it stands at the end of the line, from where one more empty field is read.

`atTok_iff` is the result: the fields that have been put in the line come back in order, without a
further one, exactly when the last one is without quotes.
-/

namespace MtkHw.Rfx

open Lib

/-- `m_pCur`: what is left of the line, when it is not `NULL`. -/
abbrev LineCursor := Option (List Char)

/-- `atTokStart`: `err` and the cursor behind the prefix. -/
def atTokStart (m_line : LineCursor) : Int × LineCursor :=
  match m_line with
  | none => (-1, none)
  | some line =>
    match strchr line ':' with
    | none => (-1, none)
    | some rest => (0, some rest.tail)

/-- `skipWhiteSpace`. -/
def skipWhiteSpace (m_pCur : LineCursor) : LineCursor := m_pCur.map (List.dropWhile isspace)

/-- `skipNextComma`: behind the next comma, or at the end of the line. -/
def skipNextComma (m_pCur : LineCursor) : LineCursor :=
  m_pCur.map fun txt => (txt.dropWhile (· ≠ ',')).tail

/-- `nextTok`: the field, and the cursor behind it. -/
def nextTok (m_pCur : LineCursor) : Option (List Char) × LineCursor :=
  match skipWhiteSpace m_pCur with
  | none => (none, none)
  | some txt =>
    if txt.head? = some '"' then
      let (ret, m_pCur) := strsep (some txt.tail) ['"']
      (ret, skipNextComma m_pCur)
    else if txt.head? = some '(' ∧ txt.tail.head? = some '"' then
      let (ret, m_pCur) := strsep (some (txt.drop 2)) ['"']
      (ret, skipNextComma m_pCur)
    else strsep (some txt) [',']

/-- `atTokNextstr`: `err`, the field, and the cursor behind it. -/
def atTokNextstr (m_pCur : LineCursor) : Int × Option (List Char) × LineCursor :=
  if m_pCur = none then (-1, none, none) else (0, nextTok m_pCur)

/-- `atTokNextint`: `err`, the number, and the cursor behind it. -/
def atTokNextint (m_pCur : LineCursor) : Int × Int32 × LineCursor :=
  if m_pCur = none then (-1, 0, none)
  else
    match nextTok m_pCur with
    | (none, m_pCur) => (-1, 0, m_pCur)
    | (some ret, m_pCur) =>
      match strtol ret with
      | none => (-1, 0, m_pCur)
      | some l => (0, Int32.ofInt l, m_pCur)

/-- `atTokHasmore`. -/
def atTokHasmore (m_pCur : LineCursor) : Bool := !(m_pCur = none || m_pCur = some [])

/-! ## Lines -/

/-- A text that needs no quotes. -/
structure Plain (txt : List Char) : Prop where
  nonempty : txt ≠ []
  comma : ',' ∉ txt
  space : ∀ c, txt.head? = some c → isspace c = false
  quote : txt.head? ≠ some '"'
  wrapped : ¬ (txt.head? = some '(' ∧ txt.tail.head? = some '"')

/-- A number needs no quotes. -/
theorem plain_formatInt (i : Int) : Plain (formatInt i) where
  nonempty := by
    obtain ⟨digits, -, hne, -, heq⟩ := formatInt_eq i
    rw [heq]
    split
    · exact List.cons_ne_nil _ _
    · exact hne
  comma := fun h => (mem_formatInt h).elim (by decide) (by decide)
  space := by
    intro c hc
    rcases mem_formatInt (List.mem_of_mem_head? hc) with hdigit | rfl
    · exact isspace_of_isDigit hdigit
    · rfl
  quote := fun h => (mem_formatInt (List.mem_of_mem_head? h)).elim (by decide) (by decide)
  wrapped := fun h => (mem_formatInt (List.mem_of_mem_head? h.1)).elim (by decide) (by decide)

/-- The fields of a line. -/
inductive AtField where
  | unquoted (txt : List Char) (plain : Plain txt)
  | quoted (txt : List Char) (noQuote : '"' ∉ txt)

namespace AtField

/-- What is to be read. -/
def text : AtField → List Char
  | unquoted txt _ => txt
  | quoted txt _ => txt

/-- What stands in the line. -/
def format : AtField → List Char
  | unquoted txt _ => txt
  | quoted txt _ => '"' :: txt ++ ['"']

/-- The field stands in the line without quotes. -/
def IsUnquoted : AtField → Prop
  | unquoted .. => True
  | quoted .. => False

end AtField

/-- A field with white space in front of it. -/
structure SpacedField where
  spaces : List Char
  field : AtField
  isSpaces : spaces.all isspace = true

/-- What stands in the line. -/
def SpacedField.format (f : SpacedField) : List Char := f.spaces ++ f.field.format

/-- The fields, separated by commas. -/
def formatFields (fields : List SpacedField) : List Char := joinWith ',' (fields.map (·.format))

/-- The line. -/
def formatLine (pre : List Char) (fields : List SpacedField) : List Char :=
  pre ++ ':' :: formatFields fields

/-- Successive calls of `atTokNextstr` read the texts, with more to come before each of them. -/
inductive ReadsFields : LineCursor → List (List Char) → LineCursor → Prop
  | nil (cur : LineCursor) : ReadsFields cur [] cur
  | cons {cur cur' cur'' : LineCursor} {txt : List Char} {txts : List (List Char)}
      (hmore : atTokHasmore cur = true) (hnext : atTokNextstr cur = (0, some txt, cur'))
      (rest : ReadsFields cur' txts cur'') : ReadsFields cur (txt :: txts) cur''

/-- What is asked of the tokenizer: the prefix is found, the texts are read in order, there are no more
then, and one more call fails. -/
def TokenizesTo (line : List Char) (txts : List (List Char)) : Prop :=
  ∃ cur cur', atTokStart (some line) = (0, cur) ∧ ReadsFields cur txts cur' ∧
    atTokHasmore cur' = false ∧ (atTokNextstr cur').1 = -1

/-! ## One field -/

/-- White space is skipped, up to a character that is none. -/
theorem skipWhiteSpace_spaces {spaces txt : List Char} (hspaces : ∀ c ∈ spaces, isspace c = true)
    (htxt : ∀ c, txt.head? = some c → isspace c = false) :
    skipWhiteSpace (some (spaces ++ txt)) = some txt := by
  have hdrop : txt.dropWhile isspace = txt := by
    cases txt with
    | nil => rfl
    | cons c txt =>
      rw [List.dropWhile_cons_of_neg]
      rw [htxt c rfl]
      exact Bool.false_ne_true
  rw [skipWhiteSpace, Option.map_some, List.dropWhile_append_of_pos hspaces, hdrop]

/-- Where the cursor stands behind a field: what follows the comma, or else the end of the line or
`NULL`. -/
def AtField.behind : AtField → List Char → LineCursor
  | unquoted .., [] => none
  | quoted .., [] => some []
  | _, _ :: rest => some rest

theorem head?_append_of_nonempty {txt : List Char} (h : txt ≠ []) (following : List Char) :
    (txt ++ following).head? = txt.head? := by
  obtain ⟨c, txt, rfl⟩ := List.exists_cons_of_ne_nil h
  rfl

/-- A field is read, with a comma or the end of the line behind it. -/
theorem nextTok_field (f : SpacedField) {following : List Char}
    (hfollowing : following = [] ∨ ∃ rest, following = ',' :: rest) :
    nextTok (some (f.format ++ following)) = (some f.field.text, f.field.behind following) := by
  obtain ⟨spaces, field, isSpaces⟩ := f
  have hspaces := List.all_eq_true.mp isSpaces
  rw [SpacedField.format, List.append_assoc]
  cases field with
  | unquoted txt plain =>
    have hword := word_of_notMem plain.comma
    have hhead := head?_append_of_nonempty plain.nonempty following
    have hwrapped : ¬ ((txt ++ following).head? = some '(' ∧
        (txt ++ following).tail.head? = some '"') := by
      rintro ⟨hopen, hquote⟩
      rw [hhead] at hopen
      refine plain.wrapped ⟨hopen, ?_⟩
      rw [List.tail_append_of_ne_nil plain.nonempty] at hquote
      by_cases htail : txt.tail = []
      · rw [htail, List.nil_append] at hquote
        rcases hfollowing with rfl | ⟨rest, rfl⟩
        · cases hquote
        · exact absurd (Option.some.inj hquote) (by decide)
      · rwa [head?_append_of_nonempty htail] at hquote
    have hskip : skipWhiteSpace (some (spaces ++
        ((AtField.unquoted txt plain).format ++ following))) = some (txt ++ following) :=
      skipWhiteSpace_spaces hspaces fun c hc => plain.space c (hhead ▸ hc)
    rw [nextTok, hskip]
    dsimp only
    rw [if_neg (hhead ▸ plain.quote), if_neg hwrapped]
    rcases hfollowing with rfl | ⟨rest, rfl⟩
    · rw [List.append_nil]
      exact strsep_last hword
    · exact strsep_word hword (List.mem_singleton_self _) rest
  | quoted txt noQuote =>
    have hskip : skipWhiteSpace (some (spaces ++
        ((AtField.quoted txt noQuote).format ++ following))) =
        some ('"' :: (txt ++ '"' :: following)) := by
      rw [AtField.format, List.append_assoc, List.cons_append, List.singleton_append]
      refine skipWhiteSpace_spaces hspaces fun c hc => ?_
      cases hc
      rfl
    rw [nextTok, hskip]
    dsimp only
    rw [List.head?_cons, if_pos rfl, List.tail_cons,
      strsep_word (word_of_notMem noQuote) (List.mem_singleton_self _)]
    rcases hfollowing with rfl | ⟨rest, rfl⟩
    · rfl
    · rfl

/-- A number, with white space in front of it. -/
def intField (spaces : List Char) (isSpaces : spaces.all isspace = true) (v : Int32) :
    SpacedField :=
  ⟨spaces, .unquoted (formatInt v.toInt) (plain_formatInt v.toInt), isSpaces⟩

/-- A number is read that has a comma behind it. -/
theorem atTokNextint_field {spaces : List Char} (isSpaces : spaces.all isspace = true) (v : Int32)
    (rest : List Char) :
    atTokNextint (some ((intField spaces isSpaces v).format ++ ',' :: rest)) =
      (0, v, some rest) := by
  have hlow := v.le_toInt
  have hhigh := v.toInt_lt
  have hread : strtol (formatInt v.toInt) = some v.toInt :=
    strtol_formatInt (by omega) (by omega)
  have hnext := nextTok_field (intField spaces isSpaces v) (.inr ⟨rest, rfl⟩)
  rw [atTokNextint, if_neg (Option.some_ne_none _), hnext]
  have htext : (intField spaces isSpaces v).field.text = formatInt v.toInt := rfl
  have hbehind : (intField spaces isSpaces v).field.behind (',' :: rest) = some rest := rfl
  simp only [htext, hbehind, hread, Int32.ofInt_toInt]

/-- A text is read, whatever field it stands in. -/
theorem atTokNextstr_field (f : SpacedField) {following : List Char}
    (hfollowing : following = [] ∨ ∃ rest, following = ',' :: rest) :
    atTokNextstr (some (f.format ++ following)) =
      (0, some f.field.text, f.field.behind following) := by
  rw [atTokNextstr, if_neg (Option.some_ne_none _), nextTok_field f hfollowing]

/-- A field is not empty in the line. -/
theorem SpacedField.format_ne_nil (f : SpacedField) : f.format ≠ [] := by
  refine List.append_ne_nil_of_right_ne_nil _ ?_
  cases f.field with
  | unquoted txt plain => exact plain.nonempty
  | quoted txt noQuote => exact List.cons_ne_nil _ _

theorem atTokHasmore_of_ne_nil {txt : List Char} (h : txt ≠ []) : atTokHasmore (some txt) = true := by
  cases txt with
  | nil => exact absurd rfl h
  | cons c txt => rfl

/-! ## All fields -/

/-- The fields are read in order, and the cursor stands behind the last one then. -/
theorem readsFields_formatFields (f : SpacedField) (fields : List SpacedField) :
    ReadsFields (some (formatFields (f :: fields))) ((f :: fields).map (·.field.text))
      (((f :: fields).getLast (List.cons_ne_nil _ _)).field.behind []) := by
  induction fields generalizing f with
  | nil =>
    refine .cons (atTokHasmore_of_ne_nil f.format_ne_nil) ?_ (.nil _)
    have hnext := nextTok_field f (.inl rfl)
    rw [List.append_nil] at hnext
    exact congrArg (Prod.mk (0 : Int)) hnext
  | cons g fields ih =>
    have hline : formatFields (f :: g :: fields) =
        f.format ++ ',' :: formatFields (g :: fields) := rfl
    have hnext := nextTok_field f (.inr ⟨formatFields (g :: fields), rfl⟩)
    have hbehind : f.field.behind (',' :: formatFields (g :: fields)) =
        some (formatFields (g :: fields)) := by
      cases f.field with
      | unquoted txt plain => rfl
      | quoted txt noQuote => rfl
    rw [hbehind] at hnext
    rw [hline, List.getLast_cons (List.cons_ne_nil _ _)]
    refine .cons (atTokHasmore_of_ne_nil ?_) (congrArg (Prod.mk (0 : Int)) hnext) (ih g)
    exact List.append_ne_nil_of_left_ne_nil f.format_ne_nil _

/-- The calls can go one way only. -/
theorem ReadsFields.unique {cur cur' cur'' : LineCursor} {txts : List (List Char)}
    (h : ReadsFields cur txts cur') (h' : ReadsFields cur txts cur'') : cur' = cur'' := by
  induction h with
  | nil => cases h'; rfl
  | cons _ hnext _ ih =>
    cases h' with
    | cons _ hnext' rest' =>
      rw [hnext] at hnext'
      cases hnext'
      exact ih rest'

/-- The prefix is found. -/
theorem atTokStart_formatLine {pre : List Char} (hpre : ':' ∉ pre) (fields : List SpacedField) :
    atTokStart (some (formatLine pre fields)) = (0, some (formatFields fields)) := by
  rw [atTokStart, formatLine, strchr,
    strpbrk_word (word_of_notMem hpre) (List.mem_singleton_self _)]
  rfl

/-- There are no more fields behind the last one. -/
theorem atTokHasmore_behind (f : AtField) : atTokHasmore (f.behind []) = false := by
  cases f with
  | unquoted txt plain => rfl
  | quoted txt noQuote => rfl

/-- One more call fails only behind a field without quotes. -/
theorem atTokNextstr_behind_iff (f : AtField) :
    (atTokNextstr (f.behind [])).1 = -1 ↔ f.IsUnquoted := by
  cases f with
  | unquoted txt plain => exact iff_of_true rfl trivial
  | quoted txt noQuote => exact iff_of_false (show (0 : Int) ≠ -1 by decide) id

/-- **When the tokenizer inverts formatting.**  For every prefix without a colon and every non-empty
list of fields, successive calls read exactly the fields and the call after them fails, if and only if
the last field is without quotes. -/
theorem atTok_iff {pre : List Char} (hpre : ':' ∉ pre) {fields : List SpacedField}
    (hne : fields ≠ []) :
    TokenizesTo (formatLine pre fields) (fields.map (·.field.text)) ↔
      (fields.getLast hne).field.IsUnquoted := by
  obtain ⟨f, fields, rfl⟩ := List.exists_cons_of_ne_nil hne
  have hreads := readsFields_formatFields f fields
  rw [← atTokNextstr_behind_iff]
  constructor
  · rintro ⟨cur, cur', hstart, hreads', -, hfails⟩
    rw [atTokStart_formatLine hpre] at hstart
    cases hstart
    rwa [hreads.unique hreads']
  · exact fun hfails => ⟨_, _, atTokStart_formatLine hpre _, hreads, atTokHasmore_behind _, hfails⟩

/-- The digit `1` needs no quotes. -/
theorem plain_one : Plain ['1'] where
  nonempty := List.cons_ne_nil _ _
  comma := by decide
  space := by
    intro c hc
    cases hc
    rfl
  quote := by decide
  wrapped := by decide

/-- The line `+C: "a",1`. -/
theorem tokenizesTo_quoted_unquoted :
    TokenizesTo (formatLine ['+', 'C'] [⟨[' '], .quoted ['a'] (by decide), by decide⟩,
      ⟨[], .unquoted ['1'] plain_one, by decide⟩]) [['a'], ['1']] :=
  (atTok_iff (by decide) (List.cons_ne_nil _ _)).mpr trivial

/-- The line `+C:"a"` has one more field for `atTokNextstr`. -/
theorem not_tokenizesTo_quoted : ¬ ∀ (pre : List Char) (fields : List SpacedField), ':' ∉ pre →
    fields ≠ [] → TokenizesTo (formatLine pre fields) (fields.map (·.field.text)) := by
  intro h
  obtain ⟨cur, cur', hstart, hreads, -, hfails⟩ :=
    h ['+', 'C'] [⟨[], .quoted ['a'] (by decide), by decide⟩] (by decide) (List.cons_ne_nil _ _)
  have hcur : atTokStart (some ['+', 'C', ':', '"', 'a', '"']) = (0, some ['"', 'a', '"']) := by
    decide
  have hnext : atTokNextstr (some ['"', 'a', '"']) = (0, some ['a'], some []) := by decide
  cases hcur.symm.trans hstart
  have hend := hreads.unique (.cons rfl hnext (.nil _))
  rw [hend] at hfails
  exact absurd hfails (show (0 : Int) ≠ -1 by decide)

end MtkHw.Rfx
