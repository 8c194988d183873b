import MtkHw.Lib.Machine
import MtkHw.Lib.TextMap
import MtkHw.Rfx.AtLine

/-!
# The emergency numbers of the network

The network tells its emergency numbers in `+CEN2`, one each, after a `+CEN1` with the country code.
`RmcEccNumberUrcHandler` keeps them in a property, as a text of items `;number,category`: a number
that is received again is searched for, cut out and put at the end.

The text is put together in buffers of `RFX_PROPERTY_VALUE_MAX` and `MAX_PROP_CHARS` characters by
`sprintf`, which does not know how long they are.  `nwEcc_iff` says in which runs that goes well,
and that the list is then the map it is meant to be.
-/

namespace MtkHw.Cc

open Lib Rfx TextMap

/-! ## The handler -/

def maxPropChars : Nat := 50
def rfxPropertyValueMax : Nat := 92

/-- `rfx_property_get`: the default stands for a property that is empty or not there. -/
def rfxPropertyGet (stored defaultValue : List Char) : List Char :=
  if stored = [] then defaultValue else stored

/-- `rfx_property_set`: a value that is too long is refused. -/
def rfxPropertySet (stored value : List Char) : List Char :=
  if value.length < rfxPropertyValueMax then value else stored

/-- `RmcEccNumberUrcHandler`, with the properties of its slot. -/
structure RmcEccNumberUrcHandler where
  /-- `PROPERTY_NW_ECC_LIST[m_slot_id]` -/
  propertyNwEccList : List Char
  /-- `PROPERTY_NW_ECC_MCC[m_slot_id]` -/
  propertyNwEccMcc : List Char
  mNeedRefreshNwEcc : Bool
deriving DecidableEq, Repr

/-- What `handleNetworkEcc` takes from a line. -/
inductive NetworkEcc where
  | /-- `+CEN1` -/ cen1 (reporting : Int32) (mcc : List Char)
  | /-- `+CEN2` -/ cen2 (category : Int32) (number : List Char)
deriving DecidableEq, Repr

/-- The tokens of a line, which are the same for both messages.  A cursor that is not `NULL` always
has a text, so the branch without one is not reached. -/
def parseNetworkEcc (line : List Char) : Option NetworkEcc :=
  let (err, cur) := atTokStart (some line)
  if err < 0 then none
  else
    let (err, first, cur) := atTokNextint cur
    if err < 0 then none
    else
      let (err, second, _) := atTokNextstr cur
      if err < 0 then none
      else
        match second with
        | none => none
        | some second =>
          if "+CEN1".toList <+: line then some (.cen1 first second) else some (.cen2 first second)

/-- `oldMcc`. -/
def RmcEccNumberUrcHandler.oldMcc (h : RmcEccNumberUrcHandler) : List Char :=
  rfxPropertyGet h.propertyNwEccMcc ['0']

/-- What `handleNetworkEcc` does with a `+CEN1`. -/
def RmcEccNumberUrcHandler.handleCen1 (h : RmcEccNumberUrcHandler) (mcc : List Char) :
    RmcEccNumberUrcHandler :=
  let h :=
    if h.oldMcc ≠ mcc then
      { h with
        propertyNwEccList := rfxPropertySet h.propertyNwEccList []
        propertyNwEccMcc := rfxPropertySet h.propertyNwEccMcc mcc }
    else h
  { h with mNeedRefreshNwEcc := true }

/-- `newEccList`: the list with the number at its end.  The last `sprintf` of an update reads the
buffer that it writes, from its start, so that the text stays. -/
def newEccList (eccList : List Char) (category : Int32) (number : List Char) :
    Option (List Char) := do
  let findStr ← sprintf maxPropChars (';' :: number ++ [','])
  match strstr eccList findStr with
  | none =>
      sprintf rfxPropertyValueMax (eccList ++ ';' :: number ++ ',' :: formatInt category.toInt)
  | some ptr =>
      let newEccList := eccList.take (eccList.length - ptr.length)
      let newEccList :=
        match strstr ptr.tail [';'] with
        | none => newEccList
        | some ptr => newEccList ++ ptr.take (rfxPropertyValueMax - newEccList.length - 1)
      sprintf rfxPropertyValueMax (newEccList ++ ';' :: number ++ ',' :: formatInt category.toInt)

/-- What `handleNetworkEcc` does with a `+CEN2`: none when it writes beyond a buffer. -/
def RmcEccNumberUrcHandler.handleCen2 (h : RmcEccNumberUrcHandler) (category : Int32)
    (number : List Char) : Option RmcEccNumberUrcHandler := do
  let h :=
    if h.mNeedRefreshNwEcc then
      { h with
        propertyNwEccList := rfxPropertySet h.propertyNwEccList []
        mNeedRefreshNwEcc := false }
    else h
  let eccList := rfxPropertyGet h.propertyNwEccList []
  let newEccList ← newEccList eccList category number
  some { h with propertyNwEccList := rfxPropertySet h.propertyNwEccList newEccList }

/-- `handleNetworkEcc` -/
def RmcEccNumberUrcHandler.handleNetworkEcc (h : RmcEccNumberUrcHandler) (line : List Char) :
    Option RmcEccNumberUrcHandler :=
  match parseNetworkEcc line with
  | none => some h
  | some (.cen1 _ mcc) => some (h.handleCen1 mcc)
  | some (.cen2 category number) => h.handleCen2 category number

/-! ## Lines -/

/-- A line for `handleNetworkEcc`, whose number, if it has one, has none of the characters that
stand between the items. -/
structure NetworkEccUrc where
  line : List Char
  isNetworkEcc : "+CEN1".toList <+: line ∨ "+CEN2".toList <+: line
  number_clean : ∀ category number, parseNetworkEcc line = some (.cen2 category number) →
    ';' ∉ number ∧ ',' ∉ number

/-- What is taken from a line of two fields or more. -/
theorem parseNetworkEcc_formatLine {pre : List Char} (hpre : ':' ∉ pre) {spaces : List Char}
    (isSpaces : spaces.all isspace = true) (v : Int32) (f : SpacedField) (rest : List SpacedField) :
    parseNetworkEcc (formatLine pre (intField spaces isSpaces v :: f :: rest)) =
      if "+CEN1".toList <+: formatLine pre (intField spaces isSpaces v :: f :: rest) then
        some (.cen1 v f.field.text)
      else some (.cen2 v f.field.text) := by
  have hfields : formatFields (intField spaces isSpaces v :: f :: rest) =
      (intField spaces isSpaces v).format ++ ',' :: formatFields (f :: rest) := rfl
  obtain ⟨following, hfollowing, hrest⟩ : ∃ following,
      (following = [] ∨ ∃ rest, following = ',' :: rest) ∧
        formatFields (f :: rest) = f.format ++ following := by
    cases rest with
    | nil => exact ⟨[], .inl rfl, (List.append_nil _).symm⟩
    | cons g rest => exact ⟨',' :: formatFields (g :: rest), .inr ⟨_, rfl⟩, rfl⟩
  have hint := atTokNextint_field isSpaces v (formatFields (f :: rest))
  have hstr := atTokNextstr_field f hfollowing
  rw [← hfields] at hint
  rw [← hrest] at hstr
  simp only [parseNetworkEcc, atTokStart_formatLine hpre, hint, hstr, Int.lt_irrefl,
    if_false]

/-- The line `+CEN2:category,number`. -/
def NetworkEccUrc.cen2 (category : Int32) (number : SpacedField)
    (hclean : ';' ∉ number.field.text ∧ ',' ∉ number.field.text) : NetworkEccUrc where
  line := formatLine "+CEN2".toList [intField [] List.all_nil category, number]
  isNetworkEcc := .inr (List.prefix_append _ _)
  number_clean := by
    intro category' number' h
    rw [parseNetworkEcc_formatLine (by decide)] at h
    split at h
    · cases h
    · cases h
      exact hclean

/-! ## The text of a map -/

/-- A category, written out. -/
def categoryText (category : Int32) : List Char := formatInt category.toInt

/-- The items `;number,category`. -/
def eccListText (items : List (List Char × Int32)) : List Char := mapText ';' ',' categoryText items

/-- A number in digits has none of the separators. -/
theorem formatInt_clean (i : Int) : ';' ∉ formatInt i ∧ ',' ∉ formatInt i :=
  ⟨fun h => (mem_formatInt h).elim (by decide) (by decide), (plain_formatInt i).comma⟩

/-- A number without the two separators makes an item that can be told from its neighbours. -/
theorem clean_item {number : List Char} (hclean : ';' ∉ number ∧ ',' ∉ number) (category : Int32) :
    Clean ';' ',' categoryText (number, category) where
  sep_key := hclean.1
  mark_key := hclean.2
  sep_value := (formatInt_clean category.toInt).1

/-- With an item put at the end. -/
theorem eccListText_put (items : List (List Char × Int32)) (number : List Char)
    (category : Int32) : eccListText (put items number category) =
      eccListText (others items number) ++ ';' :: number ++ ',' :: formatInt category.toInt := by
  rw [eccListText, put, mapText_append, mapText_cons, mapText_nil, List.append_nil]
  simp [eccListText, categoryText]

/-- **What `newEccList` puts together**: the map with the number at its end, if both buffers are
long enough. -/
theorem newEccList_eq {items : List (List Char × Int32)}
    (hclean : ∀ p ∈ items, Clean ';' ',' categoryText p) (hnodup : (items.map Prod.fst).Nodup)
    (hfits : (eccListText items).length < rfxPropertyValueMax) {number : List Char}
    (hnumber : ';' ∉ number ∧ ',' ∉ number) (category : Int32) :
    newEccList (eccListText items) category number =
      if number.length + 2 < maxPropChars ∧
          (eccListText (put items number category)).length < rfxPropertyValueMax then
        some (eccListText (put items number category))
      else none := by
  have hsep : ';' ≠ ',' := by decide
  have hkey : (';' :: number ++ [',']).length = number.length + 2 := by simp
  by_cases hfind : number.length + 2 < maxPropChars
  · rw [newEccList, sprintf, hkey, if_pos hfind, Option.bind_eq_bind, Option.bind_some]
    simp only [hfind, true_and]
    by_cases hmem : number ∈ items.map Prod.fst
    · -- the item is cut out of the middle, and what is behind it follows what is before it
      obtain ⟨before, value, behind, rfl, hbefore, hothers⟩ := exists_split hnodup hmem
      have hptr : strstr (eccListText (before ++ (number, value) :: behind))
          (';' :: number ++ [',']) = some (eccListText ((number, value) :: behind)) :=
        strstr_mapText (fun p hp => hclean p (List.mem_append_left _ hp)) hsep hnumber.2 hbefore
      have hsplit : eccListText (before ++ (number, value) :: behind) =
          eccListText before ++ eccListText ((number, value) :: behind) := mapText_append _ _
      have hbehind : strstr (eccListText ((number, value) :: behind)).tail [';'] =
          if behind = [] then none else some (eccListText behind) := by
        rw [strstr_singleton]
        exact strchr_behind_item (clean_item hnumber value) hsep behind
      have htake : (eccListText (before ++ (number, value) :: behind)).take
          ((eccListText (before ++ (number, value) :: behind)).length -
            (eccListText ((number, value) :: behind)).length) = eccListText before := by
        rw [hsplit, List.length_append, Nat.add_sub_cancel, List.take_left']
        rfl
      have hrest : (match (if behind = [] then none else some (eccListText behind)) with
          | none => eccListText before
          | some ptr => eccListText before ++
              ptr.take (rfxPropertyValueMax - (eccListText before).length - 1)) =
          eccListText (others (before ++ (number, value) :: behind) number) := by
        have happend : eccListText (before ++ behind) = eccListText before ++ eccListText behind :=
          mapText_append _ _
        rw [hothers, happend]
        by_cases hnil : behind = []
        · subst hnil
          exact (List.append_nil _).symm
        · rw [if_neg hnil]
          refine congrArg (eccListText before ++ ·) (List.take_of_length_le ?_)
          have hcons : eccListText ((number, value) :: behind) =
              ';' :: (number ++ ',' :: (categoryText value ++ eccListText behind)) :=
            mapText_cons _ _
          rw [hsplit, List.length_append, hcons] at hfits
          simp only [List.length_cons, List.length_append] at hfits
          omega
      rw [hptr]
      simp only [htake, hbehind]
      rw [hrest, ← eccListText_put, sprintf]
    · have hptr : strstr (eccListText items) (';' :: number ++ [',']) = none :=
        strstr_mapText_of_notMem hclean hsep hnumber.2 hmem
      have hput := eccListText_put items number category
      rw [others_of_notMem hmem] at hput
      rw [hptr]
      simp only
      rw [← hput, sprintf]
  · rw [newEccList, sprintf, hkey, if_neg hfind, if_neg (fun h => hfind h.1)]
    rfl

/-! ## Runs -/

/-- The handler, and what has happened. -/
structure NwEccRun where
  handler : RmcEccNumberUrcHandler
  /-- The numbers received with their categories since the list was last cleared, the latest
  first. -/
  received : List (List Char × Int32)
  /-- A step has written beyond a buffer. -/
  overrun : Bool
deriving DecidableEq, Repr

namespace NwEccRun

/-- What is received counts from here on: the first `+CEN2` after a `+CEN1` clears the list. -/
def sinceCleared (s : NwEccRun) : List (List Char × Int32) :=
  if s.handler.mNeedRefreshNwEcc then [] else s.received

/-- What has been received after a line. -/
def receivedAfter (s : NwEccRun) (line : List Char) : List (List Char × Int32) :=
  match parseNetworkEcc line with
  | none => s.received
  | some (.cen1 _ mcc) => if s.handler.oldMcc ≠ mcc then [] else s.received
  | some (.cen2 category number) => (number, category) :: s.sinceCleared

/-- A line is handled, unless memory has been overwritten. -/
def step (s : NwEccRun) (urc : NetworkEccUrc) : Option NwEccRun :=
  if s.overrun then none
  else
    match s.handler.handleNetworkEcc urc.line with
    | some handler => some ⟨handler, s.receivedAfter urc.line, false⟩
    | none => some { s with overrun := true }

/-- No list yet; a country code may be known. -/
def init (mcc : List Char) : NwEccRun := ⟨⟨[], mcc, false⟩, [], false⟩

end NwEccRun

/-- The handler of a slot. -/
def nwEccMachine (mcc : List Char) : Machine NwEccRun NetworkEccUrc where
  init := NwEccRun.init mcc
  step := NwEccRun.step

/-- The property is a map of the numbers received to their latest categories, and nothing has been
overwritten. -/
structure IsEccMap (s : NwEccRun) : Prop where
  bounded : s.overrun = false
  map : ∃ items, s.handler.propertyNwEccList = eccListText items ∧
    (∀ p ∈ items, ';' ∉ p.1 ∧ ',' ∉ p.1) ∧ (items.map Prod.fst).Nodup ∧
    ∀ number category, (number, category) ∈ items ↔ s.received.lookup number = some category

/-- The number of a `+CEN2` is short enough to be searched for, and the list that there should be is
short enough for a property. -/
def FitsBuffers (s : NwEccRun) (urc : NetworkEccUrc) : Prop :=
  match parseNetworkEcc urc.line with
  | some (.cen2 category number) =>
      number.length + 2 < maxPropChars ∧
        (eccListText (latest ((number, category) :: s.sinceCleared))).length < rfxPropertyValueMax
  | _ => True

/-- What every step that fits keeps. -/
structure NwEccInv (s : NwEccRun) : Prop where
  bounded : s.overrun = false
  list_eq : s.handler.propertyNwEccList = eccListText (latest s.received)
  clean : ∀ p ∈ s.received, ';' ∉ p.1 ∧ ',' ∉ p.1
  fits : (eccListText (latest s.received)).length < rfxPropertyValueMax

theorem rfxPropertySet_of_lt {stored value : List Char}
    (h : value.length < rfxPropertyValueMax) : rfxPropertySet stored value = value := if_pos h

theorem rfxPropertySet_nil (stored : List Char) : rfxPropertySet stored [] = [] :=
  rfxPropertySet_of_lt (by decide)

theorem rfxPropertyGet_nil (stored : List Char) : rfxPropertyGet stored [] = stored := by
  unfold rfxPropertyGet
  split
  · rename_i h
    exact h.symm
  · rfl

namespace NwEccInv

theorem isEccMap {s : NwEccRun} (h : NwEccInv s) : IsEccMap s where
  bounded := h.bounded
  map := by
    refine ⟨latest s.received, h.list_eq, ?_, nodup_latest _, fun number category => mem_latest⟩
    exact forall_latest h.clean

theorem init (mcc : List Char) : NwEccInv (NwEccRun.init mcc) where
  bounded := rfl
  list_eq := rfl
  clean := by
    intro p hp
    cases hp
  fits := Nat.zero_lt_succ 91

/-- What a `+CEN2` does: it writes the map with its number at the end, or beyond a buffer. -/
theorem handleCen2 {s : NwEccRun} (h : NwEccInv s) {category : Int32} {number : List Char}
    (hnumber : ';' ∉ number ∧ ',' ∉ number) :
    s.handler.handleCen2 category number =
      if number.length + 2 < maxPropChars ∧
          (eccListText (latest ((number, category) :: s.sinceCleared))).length <
            rfxPropertyValueMax then
        some ⟨eccListText (latest ((number, category) :: s.sinceCleared)),
          s.handler.propertyNwEccMcc, false⟩
      else none := by
  have hcleared : (if s.handler.mNeedRefreshNwEcc then
      { s.handler with
        propertyNwEccList := rfxPropertySet s.handler.propertyNwEccList []
        mNeedRefreshNwEcc := false }
      else s.handler) =
      ⟨eccListText (latest s.sinceCleared), s.handler.propertyNwEccMcc, false⟩ := by
    have hlist := h.list_eq
    unfold NwEccRun.sinceCleared
    obtain ⟨⟨list, mcc, refresh⟩, received, overrun⟩ := s
    cases refresh with
    | true => exact congrArg (RmcEccNumberUrcHandler.mk · mcc false) (rfxPropertySet_nil list)
    | false => exact congrArg (RmcEccNumberUrcHandler.mk · mcc false) hlist
  have hclean : ∀ p ∈ s.sinceCleared, Clean ';' ',' categoryText p := by
    intro p hp
    unfold NwEccRun.sinceCleared at hp
    split at hp
    · cases hp
    · exact clean_item (h.clean p hp) p.2
  have hfits : (eccListText (latest s.sinceCleared)).length < rfxPropertyValueMax := by
    unfold NwEccRun.sinceCleared
    split
    · decide
    · exact h.fits
  have hnew := newEccList_eq (forall_latest hclean) (nodup_latest _) hfits hnumber category
  rw [RmcEccNumberUrcHandler.handleCen2, hcleared, rfxPropertyGet_nil, hnew]
  by_cases hc : number.length + 2 < maxPropChars ∧
      (eccListText (put (latest s.sinceCleared) number category)).length < rfxPropertyValueMax
  · rw [if_pos hc, latest, if_pos hc, Option.bind_eq_bind, Option.bind_some,
      rfxPropertySet_of_lt hc.2]
  · rw [if_neg hc, latest, if_neg hc]
    rfl

/-- A step overwrites memory exactly when it does not fit, and keeps the invariant otherwise. -/
theorem step {s s' : NwEccRun} {urc : NetworkEccUrc} (h : NwEccInv s)
    (hstep : s.step urc = some s') :
    (FitsBuffers s urc → NwEccInv s') ∧ (s'.overrun = false → FitsBuffers s urc) := by
  rw [NwEccRun.step, h.bounded, if_neg Bool.false_ne_true] at hstep
  unfold FitsBuffers
  cases hparse : parseNetworkEcc urc.line with
  | none =>
    rw [RmcEccNumberUrcHandler.handleNetworkEcc, hparse] at hstep
    cases hstep
    refine ⟨fun _ => ⟨rfl, ?_, ?_, ?_⟩, fun _ => trivial⟩
    all_goals
      simp only [NwEccRun.receivedAfter, hparse]
    · exact h.list_eq
    · exact h.clean
    · exact h.fits
  | some ecc =>
    cases ecc with
    | cen1 reporting mcc =>
      rw [RmcEccNumberUrcHandler.handleNetworkEcc, hparse] at hstep
      cases hstep
      refine ⟨fun _ => ?_, fun _ => trivial⟩
      by_cases hmcc : s.handler.oldMcc = mcc
      · constructor
        all_goals
          simp only [NwEccRun.receivedAfter, hparse, RmcEccNumberUrcHandler.handleCen1, hmcc,
            ne_eq, not_true, if_false]
        · exact h.list_eq
        · exact h.clean
        · exact h.fits
      · constructor
        all_goals
          simp only [NwEccRun.receivedAfter, hparse, RmcEccNumberUrcHandler.handleCen1, hmcc,
            ne_eq, not_false_eq_true, if_true]
        · exact rfxPropertySet_nil _
        · intro p hp
          cases hp
        · decide
    | cen2 category number =>
      have hnumber := urc.number_clean category number hparse
      rw [RmcEccNumberUrcHandler.handleNetworkEcc, hparse] at hstep
      simp only [h.handleCen2 hnumber] at hstep
      by_cases hc : number.length + 2 < maxPropChars ∧
          (eccListText (latest ((number, category) :: s.sinceCleared))).length <
            rfxPropertyValueMax
      · rw [if_pos hc] at hstep
        cases hstep
        refine ⟨fun _ => ?_, fun _ => hc⟩
        constructor
        all_goals simp only [NwEccRun.receivedAfter, hparse]
        · intro p hp
          rcases List.mem_cons.mp hp with rfl | hp
          · exact hnumber
          · unfold NwEccRun.sinceCleared at hp
            split at hp
            · cases hp
            · exact h.clean p hp
        · exact hc.2
      · rw [if_neg hc] at hstep
        cases hstep
        exact ⟨fun hfits => absurd hfits hc, fun hover => by cases hover⟩

end NwEccInv

/-- **When the list of emergency numbers is a map.**  In a run of any lines the list is, after each
of them, the map of the numbers received since it was last cleared to their latest categories, and
no buffer is overrun, if and only if each number is short enough to be searched for and each list
that there should be is short enough for a property. -/
theorem nwEcc_iff (mcc : List Char) (acts : List NetworkEccUrc) :
    (nwEccMachine mcc).Along IsEccMap (nwEccMachine mcc).init acts ↔
      (nwEccMachine mcc).Meets FitsBuffers (nwEccMachine mcc).init acts := by
  refine (nwEccMachine mcc).along_iff_meets_of_keeps ?_ (fun s (hs : NwEccInv s) => hs.isEccMap)
    ?_ ?_ (NwEccInv.init mcc) acts
  · intro s urc hs hnone
    change s.step urc = none at hnone
    rw [NwEccRun.step, hs.bounded, if_neg Bool.false_ne_true] at hnone
    split at hnone <;> cases hnone
  · intro s urc s' hs hfits hstep
    exact (hs.step hstep).1 hfits
  · intro s urc s' hs hstep hmap
    exact (hs.step hstep).2 hmap.bounded

/-- The sixteen numbers from 110 to 125, each with category 1. -/
def sixteenNumbers : List NetworkEccUrc :=
  (List.range 16).map fun i =>
    .cen2 1 ⟨[], .unquoted (formatInt (.ofNat (110 + i))) (plain_formatInt _), List.all_nil⟩
      (formatInt_clean (.ofNat (110 + i)))

/-- The sixteenth number does not fit. -/
theorem sixteenNumbers_overrun :
    ¬ ∀ (mcc : List Char) (acts : List NetworkEccUrc),
      (nwEccMachine mcc).Along IsEccMap (nwEccMachine mcc).init acts := by
  intro h
  have hrun : ∃ t, (nwEccMachine []).run (nwEccMachine []).init sixteenNumbers = some t ∧
      t.overrun = true := by
    have hover : ((nwEccMachine []).run (nwEccMachine []).init sixteenNumbers).map
        NwEccRun.overrun = some true := by decide +kernel
    obtain ⟨t, ht, hover⟩ := Option.map_eq_some_iff.mp hover
    exact ⟨t, ht, hover⟩
  obtain ⟨t, ht, hover⟩ := hrun
  have hmap := Machine.Along.last _ (h [] sixteenNumbers) ht
  rw [hmap.bounded] at hover
  cases hover

end MtkHw.Cc
