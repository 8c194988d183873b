import Mathlib.Data.List.DropRight
import MtkHw.Lib.CString

/-!
# The network agent: the fields of a line

`_netagent_io_at_parser` cuts a line into fields in place: zeros are written over the separators,
and `argv` points to where the fields begin.  A field in quotes ends at the next quote, and what
stands between it and the next comma is passed over; a field without quotes ends at the next comma,
and the spaces before it are cut off.

Every access is checked against the bounds of the line with its final zero, and a violation makes
the function fail (`none`).  `fieldOf` says on the text what the first field is and what is left;
`atParser_spec` is the result: the parser reads the fields that the text has, or fails where one of
them lacks its closing quote.
-/

namespace MtkHw.NetAgent

open Lib

def chSpace : UInt8 := 0x20
def chQuote : UInt8 := 0x22
def chComma : UInt8 := 0x2C

/-! ## In memory -/

/-- `IGNORE_CHAR` -/
def ignoreChar (mem : Nat → UInt8) (size : Nat) (c : UInt8) (s : Nat) : Option Nat :=
  scan mem size (fun b => b = c && b ≠ 0) s

/-- `FIND_CHAR` -/
def findChar (mem : Nat → UInt8) (size : Nat) (c : UInt8) (s : Nat) : Option Nat :=
  scan mem size (fun b => b ≠ c && b ≠ 0) s

/-- `while (*ptr == ' ') { *ptr = 0; ptr--; }`, which must not leave the line in front. -/
def cutSpaces (mem : Nat → UInt8) : Nat → Option (Nat → UInt8)
  | 0 => if mem 0 = chSpace then none else some mem
  | ptr + 1 =>
      if mem (ptr + 1) = chSpace then cutSpaces (Function.update mem (ptr + 1) 0) ptr
      else some mem

/-- A turn of the loop of `_netagent_io_at_parser`: what is put into `argv`, the line and `str`. -/
def parseField (mem : Nat → UInt8) (size str : Nat) : Option (Nat × (Nat → UInt8) × Nat) := do
  let str ← ignoreChar mem size chSpace str
  if mem str = 0 then some (str, mem, str)
  else if mem str = chQuote then
    let field := str + 1
    let str ← findChar mem size chQuote field
    let mem := if mem str = chQuote then Function.update mem str 0 else mem
    let str ← findChar mem size chComma (str + 1)
    some (field, mem, if mem str = chComma then str + 1 else str)
  else
    let field := str
    let str ← findChar mem size chComma str
    if mem str = chComma then
      let mem ← cutSpaces (Function.update mem str 0) (str - 1)
      some (field, mem, str + 1)
    else some (field, mem, str)

/-- `_netagent_io_at_parser` with `argc` slots: the line, and `argv`. -/
def atParser (size : Nat) : Nat → (Nat → UInt8) → Nat → Option ((Nat → UInt8) × List Nat)
  | 0, mem, _ => some (mem, [])
  | argc + 1, mem, str => do
      let b ← load mem size str
      if b = 0 then some (mem, [])
      else
        let (field, mem, str) ← parseField mem size str
        let (mem, argv) ← atParser size argc mem str
        some (mem, field :: argv)

/-! ## On the text -/

/-- The first field of a text, and what is left; none when its closing quote is missing. -/
def fieldOf (txt : List UInt8) : Option (List UInt8 × List UInt8) :=
  match txt.dropWhile (· = chSpace) with
  | [] => some ([], [])
  | b :: body =>
      if b = chQuote then
        match body.dropWhile (· ≠ chQuote) with
        | [] => none
        | _ :: behind =>
            some (body.takeWhile (· ≠ chQuote), (behind.dropWhile (· ≠ chComma)).tail)
      else
        match (b :: body).dropWhile (· ≠ chComma) with
        | [] => some (b :: body, [])
        | _ :: rest =>
            some (((b :: body).takeWhile (· ≠ chComma)).rdropWhile (· = chSpace), rest)

/-- At most `argc` fields of a text. -/
def lineFields : Nat → List UInt8 → Option (List (List UInt8))
  | 0, _ => some []
  | argc + 1, txt =>
      if txt = [] then some []
      else do
        let (field, rest) ← fieldOf txt
        let fields ← lineFields argc rest
        some (field :: fields)

/-- No more fields than slots. -/
theorem length_lineFields {argc : Nat} {txt : List UInt8} {fields : List (List UInt8)}
    (h : lineFields argc txt = some fields) : fields.length ≤ argc := by
  induction argc generalizing txt fields with
  | zero =>
    cases h
    exact Nat.le_refl 0
  | succ argc ih =>
    rw [lineFields] at h
    split at h
    · cases h
      exact Nat.zero_le _
    · simp only [bind, Option.bind_eq_some_iff] at h
      obtain ⟨⟨field, rest⟩, -, fields', hfields, heq⟩ := h
      cases heq
      exact Nat.succ_le_succ (ih hfields)

/-! ## Scans -/

section Scans

variable {mem : Nat → UInt8} {size p : Nat} {txt : List UInt8}

theorem ignoreChar_str (h : Str mem size p txt) (c : UInt8) :
    ignoreChar mem size c p = some (p + (txt.takeWhile (· = c)).length) := by
  rw [ignoreChar, scan_str (by simp) h, takeWhile_of_ne_zero h.zero_notMem]

theorem findChar_str (h : Str mem size p txt) (c : UInt8) :
    findChar mem size c p = some (p + (txt.takeWhile (· ≠ c)).length) := by
  rw [findChar, scan_str (by simp) h, takeWhile_of_ne_zero h.zero_notMem]

/-- What follows the scan begins with what it has searched for. -/
theorem dropWhile_ne_cons {c b : UInt8} {rest : List UInt8}
    (h : txt.dropWhile (· ≠ c) = b :: rest) : b = c := by
  have hb := List.head?_dropWhile_not (· ≠ c) txt
  rw [h] at hb
  simpa using hb

/-- The spaces in front of `k` are cut off, down to the first other character. -/
theorem cutSpaces_eq {j k : Nat} (hjk : j ≤ k) (hj : mem j ≠ chSpace)
    (hspaces : ∀ i, j < i → i ≤ k → mem i = chSpace) :
    ∃ mem', cutSpaces mem k = some mem' ∧ (∀ i, j < i → i ≤ k → mem' i = 0) ∧
      ∀ i, ¬ (j < i ∧ i ≤ k) → mem' i = mem i := by
  induction k generalizing mem with
  | zero =>
    obtain rfl := Nat.le_zero.mp hjk
    refine ⟨mem, by rw [cutSpaces, if_neg hj], fun i hi hi' => ?_, fun i _ => rfl⟩
    omega
  | succ k ih =>
    by_cases heq : j = k + 1
    · subst heq
      refine ⟨mem, by rw [cutSpaces, if_neg hj], fun i hi hi' => ?_, fun i _ => rfl⟩
      omega
    · have hlt : j ≤ k := by omega
      have hspace := hspaces (k + 1) (by omega) (Nat.le_refl _)
      obtain ⟨mem', hcut, hzero, hsame⟩ :=
        @ih (Function.update mem (k + 1) 0) hlt (by rwa [Function.update_of_ne (by omega)])
          (fun i hi hi' => by
            rw [Function.update_of_ne (by omega)]
            exact hspaces i hi (by omega))
      refine ⟨mem', by rw [cutSpaces, if_pos hspace, hcut], fun i hi hi' => ?_, fun i hi => ?_⟩
      · by_cases hik : i = k + 1
        · rw [hik, hsame (k + 1) (by omega), Function.update_self]
        · exact hzero i hi (by omega)
      · rw [hsame i (by omega), Function.update_of_ne (by omega)]

end Scans

/-! ## The parser reads the fields -/

/-- A field is cut off the text and the rest stands behind it; in front of `j` nothing changes. -/
structure FieldRead (mem mem' : Nat → UInt8) (size j a p : Nat) (field rest : List UInt8) :
    Prop where
  atField : Str mem' size a field
  atRest : Str mem' size p rest
  size_eq : p + rest.length + 1 = size
  same : ∀ i, i ≤ j → mem' i = mem i
  lt : j < p
  apart : rest ≠ [] → a + field.length < p ∧ mem' (p - 1) ≠ chSpace

section Parse

variable {mem : Nat → UInt8} {size j p : Nat}

/-- In a text without a further comma the field takes all of it. -/
theorem fieldRead_all {txt : List UInt8} (h : Str mem size p txt)
    (hsize : p + txt.length + 1 = size) (hjp : j < p) :
    FieldRead mem mem size j p (p + txt.length) txt [] where
  atField := h
  atRest := ⟨h.add_length_lt, h.end_eq⟩
  size_eq := hsize
  same _ _ := rfl
  lt := Nat.lt_add_right _ hjp
  apart hnil := absurd rfl hnil

/-- The last byte that is no space ends the field, or stands in front when the field is empty. -/
theorem exists_last_other {pre : List UInt8} (hpre : Str mem size p pre)
    (hhead : ∀ b, pre.head? = some b → b ≠ chSpace) (hjp : j < p) (hj : mem j ≠ chSpace)
    (hspaces : ∀ i, j < i → i < p → mem i = chSpace) :
    ∃ k, j ≤ k ∧ k ≤ p + pre.length - 1 ∧ mem k ≠ chSpace ∧
      (∀ i, k < i → i ≤ p + pre.length - 1 → mem i = chSpace) ∧
      (pre.rdropWhile (· = chSpace) ≠ [] → k + 1 = p + (pre.rdropWhile (· = chSpace)).length) ∧
      (pre.rdropWhile (· = chSpace) = [] → k = j ∧ pre = []) := by
  set word := pre.rdropWhile (· = chSpace) with hword
  have hsplit : word ++ pre.rtakeWhile (· = chSpace) = pre := List.rdropWhile_append_rtakeWhile
  have hcount : word.length + (pre.rtakeWhile (· = chSpace)).length = pre.length := by
    rw [← List.length_append, hsplit]
  by_cases hnil : word = []
  · have hempty : pre = [] := by
      cases hcons : pre with
      | nil => rfl
      | cons b body =>
        have hall := (List.rdropWhile_eq_nil_iff (p := (· = chSpace)) (l := pre)).mp hnil
        refine absurd ?_ (hhead b (by rw [hcons]; rfl))
        simpa using hall b (by rw [hcons]; exact List.mem_cons_self)
    refine ⟨j, Nat.le_refl _, by omega, hj, fun i hi hi' => ?_, fun hne => absurd hnil hne,
      fun _ => ⟨rfl, hempty⟩⟩
    rw [hempty, List.length_nil] at hi'
    exact hspaces i hi (by omega)
  · have hpos : 0 < word.length := List.length_pos_iff.mpr hnil
    refine ⟨p + (word.length - 1), by omega, by omega, ?_, fun i hi hi' => ?_, fun _ => by omega,
      fun heq => absurd heq hnil⟩
    · rw [hpre.getElem (by omega)]
      have hlast := List.rdropWhile_last_not (· = chSpace) pre hnil
      rw [decide_eq_true_eq, List.getLast_eq_getElem] at hlast
      rwa [List.getElem_of_eq hsplit.symm, List.getElem_append_left (by omega)]
    · obtain ⟨d, rfl⟩ := Nat.exists_eq_add_of_le (show p + word.length ≤ i by omega)
      have hd : d < (pre.rtakeWhile (· = chSpace)).length := by omega
      have hmem := List.mem_rtakeWhile_imp (List.getElem_mem hd)
      rw [Nat.add_assoc, hpre.getElem (by omega), List.getElem_of_eq hsplit.symm,
        List.getElem_append_right (by omega)]
      simpa using hmem

/-- The spaces between a field and its comma are cut off with the comma. -/
theorem cutSpaces_field {pre rest : List UInt8} (h : Str mem size p (pre ++ chComma :: rest))
    (hsize : p + (pre ++ chComma :: rest).length + 1 = size)
    (hhead : ∀ b, pre.head? = some b → b ≠ chSpace) (hjp : j < p) (hj : mem j ≠ chSpace)
    (hspaces : ∀ i, j < i → i < p → mem i = chSpace) :
    ∃ mem', cutSpaces (Function.update mem (p + pre.length) 0) (p + pre.length - 1) = some mem' ∧
      FieldRead mem mem' size j p (p + pre.length + 1) (pre.rdropWhile (· = chSpace)) rest := by
  obtain ⟨hpre, hrest⟩ := h.cut
  rw [List.length_append, List.length_cons] at hsize
  obtain ⟨k, hjk, hk, hkne, hkspaces, hword, hnil⟩ := exists_last_other hpre hhead hjp
    (by rwa [Function.update_of_ne (by omega)]) (fun i hi hi' => by
      rw [Function.update_of_ne (by omega)]
      exact hspaces i hi hi')
  obtain ⟨mem', hcut, hzero, hsame⟩ := cutSpaces_eq hk hkne hkspaces
  obtain ⟨blanks, hsplit⟩ := List.rdropWhile_prefix (· = chSpace) (l := pre)
  set word := pre.rdropWhile (· = chSpace)
  have hcount : word.length + blanks.length = pre.length := by rw [← List.length_append, hsplit]
  have hcomma : mem' (p + pre.length) = 0 := by
    rw [hsame _ (by omega), Function.update_self]
  refine ⟨mem', hcut, ?_, ?_, by omega, fun i hi => ?_, by omega, fun _ => ⟨by omega, ?_⟩⟩
  · refine str_of_slice (by omega) (fun hz => hpre.zero_notMem ?_) ?_ ?_
    · rw [← hsplit]
      exact List.mem_append_left _ hz
    · intro i hi
      have hne : word ≠ [] := List.ne_nil_of_length_pos (by omega)
      have hend := hword hne
      rw [hsame _ (by omega), hpre.getElem (by omega), List.getElem_of_eq hsplit.symm,
        List.getElem_append_left hi]
    · by_cases hfull : word.length = pre.length
      · rwa [hfull]
      · refine hzero _ ?_ (by omega)
        by_cases hne : word = []
        · obtain ⟨rfl, hempty⟩ := hnil hne
          rw [hempty, hne] at hfull
          exact absurd rfl hfull
        · have hend := hword hne
          omega
  · exact hrest.congr fun i hi _ => hsame i (by omega)
  · rw [hsame i (by omega), Function.update_of_ne (by omega)]
  · rw [Nat.add_sub_cancel, hcomma]
    decide

/-- What stands between the closing quote and the next comma is passed over. -/
theorem findComma_tail {txt : List UInt8} (h : Str mem size p txt)
    (hsize : p + txt.length + 1 = size) :
    ∃ q p', findChar mem size chComma p = some q ∧
      (if mem q = chComma then q + 1 else q) = p' ∧ p ≤ p' ∧
      Str mem size p' (txt.dropWhile (· ≠ chComma)).tail ∧
      p' + (txt.dropWhile (· ≠ chComma)).tail.length + 1 = size ∧
      ((txt.dropWhile (· ≠ chComma)).tail ≠ [] → p < p' ∧ mem (p' - 1) = chComma) := by
  have hfind := findChar_str h chComma
  have hat := h.dropWhile (· ≠ chComma)
  have hcount := congrArg List.length
    (List.takeWhile_append_dropWhile (p := (· ≠ chComma)) (l := txt))
  rw [List.length_append] at hcount
  cases hrest : txt.dropWhile (· ≠ chComma) with
  | nil =>
    rw [hrest] at hat hcount
    have hzero := hat.eq_zero_iff.mpr rfl
    refine ⟨_, _, hfind, if_neg (by rw [hzero]; decide), by omega, hat, ?_,
      fun hne => absurd rfl hne⟩
    rw [← hsize, ← hcount]
    rfl
  | cons b rest =>
    obtain rfl := dropWhile_ne_cons hrest
    rw [hrest, List.length_cons] at hcount
    rw [hrest] at hat
    refine ⟨_, _, hfind, if_pos hat.2.1, by omega, hat.2.2.2, ?_, fun _ => ⟨by omega, ?_⟩⟩
    · rw [List.tail_cons]
      omega
    · rw [Nat.add_sub_cancel]
      exact hat.2.1

/-- A field in quotes is read up to its closing quote. -/
theorem parseField_quoted {body : List UInt8} (h : Str mem size p (chQuote :: body))
    (hsize : p + (chQuote :: body).length + 1 = size) (hjp : j < p) :
    match body.dropWhile (· ≠ chQuote) with
    | [] => parseField mem size p = none
    | _ :: behind => ∃ mem' p', parseField mem size p = some (p + 1, mem', p') ∧
        FieldRead mem mem' size j (p + 1) p' (body.takeWhile (· ≠ chQuote))
          (behind.dropWhile (· ≠ chComma)).tail := by
  have hignore : ignoreChar mem size chSpace p = some p := by
    rw [ignoreChar_str h]
    rfl
  have hquote : mem p = chQuote := h.2.1
  have hbody : Str mem size (p + 1) body := h.2.2.2
  have hfind := findChar_str hbody chQuote
  have hat := hbody.dropWhile (· ≠ chQuote)
  have hcount := congrArg List.length
    (List.takeWhile_append_dropWhile (p := (· ≠ chQuote)) (l := body))
  rw [List.length_append] at hcount
  rw [List.length_cons] at hsize
  unfold parseField
  simp only [hignore, bind, Option.bind_some, hquote, if_neg (show ¬ chQuote = 0 by decide), if_pos,
    hfind]
  cases hrest : body.dropWhile (· ≠ chQuote) with
  | nil =>
    rw [hrest] at hat hcount
    have hzero := hat.eq_zero_iff.mpr rfl
    have hend : size - (p + 1 + (body.takeWhile (· ≠ chQuote)).length + 1) = 0 := by
      rw [List.length_nil] at hcount
      omega
    simp only [hzero, if_neg (show ¬ (0 : UInt8) = chQuote by decide), findChar, scan, hend,
      scanFrom, Option.bind_none]
  | cons b behind =>
    obtain rfl := dropWhile_ne_cons hrest
    rw [hrest, List.length_cons] at hcount
    have hsplit : Str mem size (p + 1) (body.takeWhile (· ≠ chQuote) ++ chQuote :: behind) := by
      rwa [← hrest, List.takeWhile_append_dropWhile]
    obtain ⟨hfield, hbehind⟩ := hsplit.cut
    rw [hrest] at hat
    simp only [hat.2.1, if_pos]
    obtain ⟨q, p', hq, hp', hle, hstr, hend, hapart⟩ := findComma_tail hbehind (by omega)
    refine ⟨_, p', by rw [hq, Option.bind_some, hp'], hfield, hstr, hend, fun i hi => ?_, by omega,
      fun hne => ?_⟩
    · exact Function.update_of_ne (by omega) _ _
    · obtain ⟨hlt, hcomma⟩ := hapart hne
      exact ⟨by omega, by rw [hcomma]; decide⟩

/-- A field without quotes is read up to the next comma. -/
theorem parseField_plain {b : UInt8} {body : List UInt8} (h : Str mem size p (b :: body))
    (hsize : p + (b :: body).length + 1 = size) (hquote : b ≠ chQuote) (hspace : b ≠ chSpace)
    (hjp : j < p) (hj : mem j ≠ chSpace) (hspaces : ∀ i, j < i → i < p → mem i = chSpace) :
    ∃ field rest mem' p', fieldOf (b :: body) = some (field, rest) ∧
      parseField mem size p = some (p, mem', p') ∧
      FieldRead mem mem' size j p p' field rest := by
  have hignore : ignoreChar mem size chSpace p = some p := by
    rw [ignoreChar_str h, List.takeWhile_cons_of_neg (by simpa using hspace)]
    rfl
  have hfield : fieldOf (b :: body) = match (b :: body).dropWhile (· ≠ chComma) with
      | [] => some (b :: body, [])
      | _ :: rest =>
          some (((b :: body).takeWhile (· ≠ chComma)).rdropWhile (· = chSpace), rest) := by
    rw [fieldOf, List.dropWhile_cons_of_neg (by simpa using hspace)]
    exact if_neg hquote
  have hfind := findChar_str h chComma
  have hat := h.dropWhile (· ≠ chComma)
  rw [hfield]
  unfold parseField
  simp only [hignore, bind, Option.bind_some, h.2.1, if_neg h.2.2.1, if_neg hquote, hfind]
  cases hrest : (b :: body).dropWhile (· ≠ chComma) with
  | nil =>
    have hall : (b :: body).takeWhile (· ≠ chComma) = b :: body := by
      have hsplit := List.takeWhile_append_dropWhile (p := (· ≠ chComma)) (l := b :: body)
      rwa [hrest, List.append_nil] at hsplit
    rw [hrest] at hat
    have hzero := hat.eq_zero_iff.mpr rfl
    rw [hzero, if_neg (show ¬ (0 : UInt8) = chComma by decide), hall]
    exact ⟨_, _, _, _, rfl, rfl, fieldRead_all h hsize hjp⟩
  | cons c rest =>
    obtain rfl := dropWhile_ne_cons hrest
    rw [hrest] at hat
    have hsplit : (b :: body).takeWhile (· ≠ chComma) ++ chComma :: rest = b :: body := by
      rw [← hrest, List.takeWhile_append_dropWhile]
    have hhead : ∀ c, ((b :: body).takeWhile (· ≠ chComma)).head? = some c → c ≠ chSpace := by
      intro c hc
      rw [List.takeWhile_cons] at hc
      split at hc
      · cases hc
        exact hspace
      · cases hc
    obtain ⟨mem', hcut, hread⟩ := cutSpaces_field (by rwa [hsplit]) (by rwa [hsplit]) hhead hjp hj
      hspaces
    simp only [hat.2.1, if_pos, hcut, Option.bind_some]
    exact ⟨_, _, _, _, rfl, rfl, hread⟩

theorem lineFields_nil (argc : Nat) : lineFields argc [] = some [] := by
  cases argc with
  | zero => rfl
  | succ argc => exact if_pos rfl

/-- At the end of the line the parser stops. -/
theorem atParser_end (argc : Nat) (h : Str mem size p []) :
    atParser size argc mem p = some (mem, []) := by
  cases argc with
  | zero => rfl
  | succ argc =>
    rw [atParser, load_of_lt h.lt]
    exact if_pos h.2

/-- One turn of the loop reads the first field of the text. -/
theorem parseField_spec {txt : List UInt8} (h : Str mem size p txt)
    (hsize : p + txt.length + 1 = size) (hjp : j < p) (hj : mem j ≠ chSpace)
    (hspaces : ∀ i, j < i → i < p → mem i = chSpace) :
    match fieldOf txt with
    | none => parseField mem size p = none
    | some (field, rest) => ∃ a mem' p', parseField mem size p = some (a, mem', p') ∧
        FieldRead mem mem' size j a p' field rest := by
  -- the blanks in front are passed over by the parser as by the specification
  set blanks := (txt.takeWhile (· = chSpace)).length with hblanks
  have hat := h.dropWhile (· = chSpace)
  have hcount := congrArg List.length
    (List.takeWhile_append_dropWhile (p := (· = chSpace)) (l := txt))
  rw [List.length_append] at hcount
  have hspaces' : ∀ i, j < i → i < p + blanks → mem i = chSpace := by
    intro i hi hi'
    by_cases hlt : i < p
    · exact hspaces i hi hlt
    · obtain ⟨d, rfl⟩ := Nat.exists_eq_add_of_le (Nat.le_of_not_lt hlt)
      have hd : d < (txt.takeWhile (· = chSpace)).length := by omega
      rw [h.getElem (by omega),
        List.getElem_of_eq (List.takeWhile_append_dropWhile (p := (· = chSpace))).symm,
        List.getElem_append_left hd]
      simpa using List.mem_takeWhile_imp (List.getElem_mem hd)
  rw [← hcount] at hsize
  cases hrest : txt.dropWhile (· = chSpace) with
  | nil =>
    rw [hrest] at hat hsize
    have hfield : fieldOf txt = some ([], []) := by
      rw [fieldOf, hrest]
    have hparse : parseField mem size p = some (p + blanks, mem, p + blanks) := by
      unfold parseField
      rw [ignoreChar_str h]
      exact if_pos (hat.eq_zero_iff.mpr rfl)
    rw [hfield]
    exact ⟨_, _, _, hparse, fieldRead_all hat (by omega) (by omega)⟩
  | cons b body =>
    rw [hrest] at hat hsize
    have hspace : b ≠ chSpace := by
      have hb := List.head?_dropWhile_not (· = chSpace) txt
      rw [hrest] at hb
      simpa using hb
    have hfield : fieldOf txt = fieldOf (b :: body) := by
      rw [fieldOf, fieldOf, hrest, List.dropWhile_cons_of_neg (by simpa using hspace)]
    have hparse : parseField mem size p = parseField mem size (p + blanks) := by
      unfold parseField
      rw [ignoreChar_str h, ignoreChar_str hat, List.takeWhile_cons_of_neg (by simpa using hspace)]
      rfl
    rw [hfield, hparse]
    by_cases hquote : b = chQuote
    · subst hquote
      have hread := parseField_quoted hat (by omega) (j := j) (by omega)
      have hshape : fieldOf (chQuote :: body) = match body.dropWhile (· ≠ chQuote) with
          | [] => none
          | _ :: behind =>
              some (body.takeWhile (· ≠ chQuote), (behind.dropWhile (· ≠ chComma)).tail) := by
        rfl
      rw [hshape]
      cases hclose : body.dropWhile (· ≠ chQuote) with
      | nil => rwa [hclose] at hread
      | cons c behind =>
        rw [hclose] at hread
        exact ⟨_, hread⟩
    · obtain ⟨field, rest, mem', p', hshape, hread⟩ := parseField_plain hat (by omega) hquote hspace
        (by omega) hj hspaces'
      rw [hshape]
      exact ⟨_, mem', p', hread⟩

/-- The parser reads the fields of the text, or fails where a closing quote is missing. -/
theorem atParser_spec {txt : List UInt8} (argc : Nat) (h : Str mem size p txt)
    (hsize : p + txt.length + 1 = size) (hjp : j < p) (hj : mem j ≠ chSpace)
    (hspaces : ∀ i, j < i → i < p → mem i = chSpace) :
    match lineFields argc txt with
    | none => atParser size argc mem p = none
    | some fields => ∃ mem' argv, atParser size argc mem p = some (mem', argv) ∧
        List.Forall₂ (Str mem' size) argv fields ∧ ∀ i, i ≤ j → mem' i = mem i := by
  induction argc generalizing mem p j txt with
  | zero => exact ⟨mem, [], rfl, .nil, fun _ _ => rfl⟩
  | succ argc ih =>
    rw [lineFields, atParser, load_of_lt h.lt]
    by_cases hnil : txt = []
    · rw [if_pos hnil]
      exact ⟨mem, [], if_pos (h.eq_zero_iff.mpr hnil), .nil, fun _ _ => rfl⟩
    · have hne : mem p ≠ 0 := mt h.eq_zero_iff.mp hnil
      have hread := parseField_spec h hsize hjp hj hspaces
      rw [if_neg hnil]
      simp only [bind, Option.bind_some, if_neg hne]
      cases hfield : fieldOf txt with
      | none =>
        rw [hfield] at hread
        simp only [hread, Option.bind_none]
      | some cut =>
        obtain ⟨field, rest⟩ := cut
        rw [hfield] at hread
        obtain ⟨a, mem', p', hparse, hread⟩ := hread
        simp only [hparse, Option.bind_some]
        by_cases hrest : rest = []
        · subst hrest
          rw [lineFields_nil, atParser_end argc hread.atRest]
          exact ⟨mem', [a], rfl, .cons hread.atField .nil, hread.same⟩
        · obtain ⟨hapart, hlast⟩ := hread.apart hrest
          have hlt := hread.lt
          have hnext := ih hread.atRest hread.size_eq (j := p' - 1) (by omega) hlast
            (fun i hi hi' => by omega)
          cases hrests : lineFields argc rest with
          | none =>
            rw [hrests] at hnext
            simp only [hnext, Option.bind_none]
          | some fields =>
            rw [hrests] at hnext
            obtain ⟨mem'', argv, hrun, hall, hsame⟩ := hnext
            simp only [hrun, Option.bind_some]
            refine ⟨mem'', a :: argv, rfl, .cons ?_ hall, fun i hi => ?_⟩
            · exact hread.atField.congr fun i _ hi => hsame i (by omega)
            · rw [hsame i (by omega), hread.same i hi]

end Parse

end MtkHw.NetAgent
