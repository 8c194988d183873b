import MtkHw.Lib.Loop
import MtkHw.Sms.BcRange

/-!
# The broadcast configuration request of CDMA

`RmcCdmaSetBcConfigReq` turns a list of requested channels and languages into a
sequence of AT commands.  When the request selects, the modem is first asked for
the ranges it has, every one of them is disabled, and only then the requested
ranges are enabled; otherwise the requested ranges are disabled.  The request is
asked for its next command until it has none.

An index outside of a vector, and a reply that does not fit into the `MAX_RANGE`
ranges on the stack, are faults: the request has no next state.
-/

namespace MtkHw.Sms

open MtkHw.Lib

/-! ## Commands and replies -/

/-- `RIL_CDMA_BroadcastSmsConfigInfo`. -/
structure ConfigInfo where
  /-- A channel. -/
  serviceCategory : Int
  /-- A language. -/
  language : Int
  /-- Whether the two are to be received: `1` or `0`. -/
  selected : UInt8
deriving DecidableEq, Repr

/-- The AT commands of the request. -/
inductive BcCommand where
  /-- Ask for the channel ranges of the modem. -/
  | queryChannels
  /-- Ask for the language ranges of the modem. -/
  | queryLanguages
  /-- Enable or disable a range of channels. -/
  | setChannels (enable : Bool) (r : Range)
  /-- Enable or disable a range of languages. -/
  | setLanguages (enable : Bool) (r : Range)
deriving DecidableEq, Repr

/-- A range reply of the modem: mode `0`, or mode `1` and the ranges of its text. -/
inductive RangeReply where
  /-- Mode `0`, which reports no range. -/
  | off
  /-- Mode `1` with a text of ranges. -/
  | on (ranges : List Range)
deriving DecidableEq, Repr

/-- The ranges a reply reports. -/
def RangeReply.reported : RangeReply → List Range
  | .off => []
  | .on ranges => ranges

/-- What the modem answers to the two queries. -/
structure RangeReplies where
  /-- To `AT+ECSCBCHA?`. -/
  channels : RangeReply
  /-- To `AT+ECSCBLAN?`. -/
  languages : RangeReply

/-- The line the modem sends before it accepts a command. -/
def RangeReplies.intermediate (modem : RangeReplies) : BcCommand → Option RangeReply
  | .queryChannels => some modem.channels
  | .queryLanguages => some modem.languages
  | .setChannels _ _ | .setLanguages _ _ => none

/-- `MAX_RANGE`. -/
def maxRange : Nat := 10

/-- `RmcCdmaBcRangeParser::getRangeFromModem`, on the ranges of the text: without any the number
of ranges is read before it is set, and more than `maxRange` are written past the array. -/
def getRangeFromModem (ranges : List Range) : Option (List Range) :=
  if 0 < ranges.length ∧ ranges.length ≤ maxRange then some ranges else none

/-! ## The request -/

/-- `RmcCdmaSetBcConfigReq`, with its four vectors of ranges and the cursor into each. -/
structure SetBcConfigReq where
  infos : List ConfigInfo
  categorys : List Int := []
  languages : List Int := []
  channels : List Range := []
  channel : Nat := 0
  lans : List Range := []
  lan : Nat := 0
  channelsMd : List Range := []
  languagesMd : List Range := []
  channelMd : Nat := 0
  lansMd : Nat := 0

/-- `isSelected`: the flag of the first item. -/
def isSelected : List ConfigInfo → Bool
  | [] => false
  | it :: _ => it.selected == 1

/-- The loop of `sortCategoryAndLanguage`, which stops at a flag that is not `flag`. -/
def sortFrom (flag : UInt8) :
    List ConfigInfo → List Int → List Int → Option (List Int × List Int)
  | [], categorys, languages => some (categorys, languages)
  | it :: infos, categorys, languages =>
      if it.selected ≠ flag then
        none
      else
        sortFrom flag infos (SortedVector.add (· < ·) it.serviceCategory categorys)
          (SortedVector.add (· < ·) it.language languages)

/-- `sortCategoryAndLanguage`. -/
def sortCategoryAndLanguage (infos : List ConfigInfo) : Option (List Int × List Int) :=
  sortFrom (if isSelected infos then 1 else 0) infos [] []

namespace SetBcConfigReq

/-- `onGetFirstAtInfo`: the first command, if there is one. -/
def onGetFirstAtInfo (q : SetBcConfigReq) : Option (Option BcCommand × SetBcConfigReq) :=
  match sortCategoryAndLanguage q.infos with
  | none => some (none, q)
  | some (categorys, languages) => do
      let channels ← getRange categorys
      let lans ← getRange languages
      let q := { q with
        categorys := categorys, languages := languages
        channels := channels, lans := lans, channel := 0, lan := 0 }
      if isSelected q.infos then
        return (some .queryChannels, q)
      else
        let r ← q.channels[q.channel]?
        return (some (.setChannels false r), { q with channel := q.channel + 1 })

/-- `onGetNextAtInfo`: the command after `cmd`, if there is one.  Both bounds of the language
cursor are the number of requested languages. -/
def onGetNextAtInfo (q : SetBcConfigReq) (cmd : BcCommand) :
    Option (Option BcCommand × SetBcConfigReq) :=
  if isSelected q.infos then
    if cmd = .queryChannels then
      some (some .queryLanguages, { q with channelMd := 0, lansMd := 0, channel := 0, lan := 0 })
    else if q.channelMd < q.channelsMd.length then
      q.channelsMd[q.channelMd]?.map fun r =>
        (some (.setChannels false r), { q with channelMd := q.channelMd + 1 })
    else if q.lansMd < q.languagesMd.length then
      q.languagesMd[q.lansMd]?.map fun r =>
        (some (.setLanguages false r), { q with lansMd := q.lansMd + 1 })
    else if q.channel < q.channels.length then
      q.channels[q.channel]?.map fun r =>
        (some (.setChannels true r), { q with channel := q.channel + 1 })
    else if q.lan < q.languages.length then
      q.lans[q.lan]?.map fun r =>
        (some (.setLanguages true r), { q with lan := q.lan + 1 })
    else
      some (none, q)
  else if q.channel < q.channels.length then
    q.channels[q.channel]?.map fun r =>
      (some (.setChannels false r), { q with channel := q.channel + 1 })
  else if q.lan < q.languages.length then
    q.lans[q.lan]?.map fun r =>
      (some (.setLanguages false r), { q with lan := q.lan + 1 })
  else
    some (none, q)

/-- `onHandleIntermediates`, for the line `line` of the answer to `cmd`. -/
def onHandleIntermediates (q : SetBcConfigReq) (cmd : BcCommand) (line : RangeReply) :
    Option SetBcConfigReq :=
  if isSelected q.infos ∧ (cmd = .queryChannels ∨ cmd = .queryLanguages) then do
    let ranges ← match line with
      | .off => some []
      | .on ranges => getRangeFromModem ranges
    if cmd = .queryChannels then
      return { q with channelsMd := q.channelsMd ++ ranges }
    else
      return { q with languagesMd := q.languagesMd ++ ranges }
  else
    some q

/-- `RmcMultiAtReq::getNextAt`, after a command the modem has accepted. -/
def getNextAt (q : SetBcConfigReq) (modem : RangeReplies) (cmd : BcCommand) :
    Option (Option BcCommand × SetBcConfigReq) := do
  let q ← match modem.intermediate cmd with
    | none => some q
    | some line => q.onHandleIntermediates cmd line
  q.onGetNextAtInfo cmd

end SetBcConfigReq

/-- One turn of the sender: `sent` has been sent and `next` is to be sent.  It leaves with
what has been sent, or with `none` at a fault. -/
def sendNext (modem : RangeReplies) :
    List BcCommand × Option BcCommand × SetBcConfigReq →
      (List BcCommand × Option BcCommand × SetBcConfigReq) ⊕ Option (List BcCommand)
  | (sent, none, _) => .inr (some sent)
  | (sent, some cmd, q) =>
      match q.getNextAt modem cmd with
      | none => .inr none
      | some (next, q') => .inl (sent ++ [cmd], next, q')

/-- The whole request, in at most `n` turns. -/
def sendAtCmds (modem : RangeReplies) (infos : List ConfigInfo) (n : Nat) :
    Option (Option (List BcCommand)) :=
  match ({ infos := infos } : SetBcConfigReq).onGetFirstAtInfo with
  | none => some none
  | some (next, q) => loop (sendNext modem) n ([], next, q)

/-! ## What is still to be sent -/

namespace SetBcConfigReq

/-- The ranges of the modem that are still to be disabled. -/
def clearing (q : SetBcConfigReq) : List BcCommand :=
  if isSelected q.infos then
    (q.channelsMd.drop q.channelMd).map (.setChannels false) ++
      (q.languagesMd.drop q.lansMd).map (.setLanguages false)
  else
    []

/-- The requested ranges that are still to be set. -/
def setting (q : SetBcConfigReq) : List BcCommand :=
  (q.channels.drop q.channel).map (.setChannels (isSelected q.infos)) ++
    (q.lans.drop q.lan).map (.setLanguages (isSelected q.infos))

/-- The commands after the current one, when no language range is missing. -/
def todo (q : SetBcConfigReq) : List BcCommand := q.clearing ++ q.setting

/-- Some of the requested languages share a range. -/
def Merged (q : SetBcConfigReq) : Prop := q.lans.length < q.languages.length

instance (q : SetBcConfigReq) : Decidable q.Merged := inferInstanceAs (Decidable (_ < _))

/-- The language cursor is in its vector, which has at most one range for each language. -/
structure Bounded (q : SetBcConfigReq) : Prop where
  lan_le : q.lan ≤ q.lans.length
  lans_le : q.lans.length ≤ q.languages.length

/-- The next call returns the first command that is left, and goes on with the others. -/
def Sends (q : SetBcConfigReq) (cmd : BcCommand) : Prop :=
  ∃ c q', q.onGetNextAtInfo cmd = some (some c, q') ∧ q.todo = c :: q'.todo ∧ q'.Bounded ∧
    (q'.Merged ↔ q.Merged)

/-- The next call ends the request, or reads past the language ranges. -/
def Ends (q : SetBcConfigReq) (cmd : BcCommand) : Prop :=
  q.todo = [] ∧ q.onGetNextAtInfo cmd = if q.Merged then none else some (none, q)

/-- The end of the requested ranges. -/
theorem setting_cases {q : SetBcConfigReq} {cmd : BcCommand} (hq : q.Bounded)
    (hclear : q.clearing = [])
    (hnext : q.onGetNextAtInfo cmd =
      if q.channel < q.channels.length then
        q.channels[q.channel]?.map fun r =>
          (some (.setChannels (isSelected q.infos) r), { q with channel := q.channel + 1 })
      else if q.lan < q.languages.length then
        q.lans[q.lan]?.map fun r =>
          (some (.setLanguages (isSelected q.infos) r), { q with lan := q.lan + 1 })
      else
        some (none, q)) :
    q.Sends cmd ∨ q.Ends cmd := by
  obtain ⟨hlan, hlans⟩ := hq
  have htodo : q.todo = q.setting := by rw [todo, hclear, List.nil_append]
  rw [Sends, Ends, hnext, htodo]
  by_cases hch : q.channel < q.channels.length
  · left
    refine ⟨.setChannels (isSelected q.infos) q.channels[q.channel],
      { q with channel := q.channel + 1 }, ?_, ?_, ⟨hlan, hlans⟩, Iff.rfl⟩
    · rw [if_pos hch, List.getElem?_eq_getElem hch]
      rfl
    · have hrest : ({ q with channel := q.channel + 1 } : SetBcConfigReq).clearing = [] := hclear
      rw [setting, List.drop_eq_getElem_cons hch, todo, hrest]
      rfl
  · rw [if_neg hch]
    have hchannels : q.channels.drop q.channel = [] := List.drop_eq_nil_of_le (not_lt.mp hch)
    by_cases hln : q.lan < q.lans.length
    · left
      refine ⟨.setLanguages (isSelected q.infos) q.lans[q.lan],
        { q with lan := q.lan + 1 }, ?_, ?_, ⟨hln, hlans⟩, Iff.rfl⟩
      · rw [if_pos (hln.trans_le hlans), List.getElem?_eq_getElem hln]
        rfl
      · have hrest : ({ q with lan := q.lan + 1 } : SetBcConfigReq).clearing = [] := hclear
        rw [setting, List.drop_eq_getElem_cons hln, todo, hrest, setting, hchannels]
        rfl
    · right
      have hend : q.lan = q.lans.length := hlan.antisymm (not_lt.mp hln)
      refine ⟨?_, ?_⟩
      · rw [setting, hchannels, List.drop_eq_nil_of_le (not_lt.mp hln)]
        rfl
      · rw [List.getElem?_eq_none (not_lt.mp hln), hend]
        rfl

/-- After any command but the first query, the request sends what is left, one by one. -/
theorem onGetNextAtInfo_cases {q : SetBcConfigReq} {cmd : BcCommand} (hq : q.Bounded)
    (hcmd : cmd ≠ .queryChannels) : q.Sends cmd ∨ q.Ends cmd := by
  by_cases hsel : isSelected q.infos
  · by_cases hcm : q.channelMd < q.channelsMd.length
    · left
      refine ⟨.setChannels false q.channelsMd[q.channelMd],
        { q with channelMd := q.channelMd + 1 }, ?_, ?_, ⟨hq.1, hq.2⟩, Iff.rfl⟩
      · simp [onGetNextAtInfo, hsel, hcmd, hcm]
      · rw [todo, clearing, if_pos hsel, List.drop_eq_getElem_cons hcm, todo, clearing, if_pos hsel]
        rfl
    · have hchannels : q.channelsMd.drop q.channelMd = [] :=
        List.drop_eq_nil_of_le (not_lt.mp hcm)
      by_cases hlm : q.lansMd < q.languagesMd.length
      · left
        refine ⟨.setLanguages false q.languagesMd[q.lansMd],
          { q with lansMd := q.lansMd + 1 }, ?_, ?_, ⟨hq.1, hq.2⟩, Iff.rfl⟩
        · simp [onGetNextAtInfo, hsel, hcmd, hcm, hlm]
        · rw [todo, clearing, if_pos hsel, hchannels, List.drop_eq_getElem_cons hlm, todo, clearing,
            if_pos hsel, hchannels]
          rfl
      · apply setting_cases hq
        · rw [clearing, if_pos hsel, hchannels, List.drop_eq_nil_of_le (not_lt.mp hlm)]
          rfl
        · rw [onGetNextAtInfo, if_pos hsel, if_neg hcmd, if_neg hcm, if_neg hlm, hsel]
  · apply setting_cases hq
    · rw [clearing, if_neg hsel]
    · have hunselected : isSelected q.infos = false := Bool.eq_false_of_not_eq_true hsel
      rw [onGetNextAtInfo, if_neg hsel, hunselected]

/-- The modem sends no line before it accepts a command that is left. -/
theorem intermediate_of_mem_todo {q : SetBcConfigReq} {c : BcCommand} (modem : RangeReplies)
    (h : c ∈ q.todo) : modem.intermediate c = none := by
  have hset : (∃ e r, c = .setChannels e r) ∨ ∃ e r, c = .setLanguages e r := by
    simp only [todo, clearing, setting, List.mem_append] at h
    rcases h with h | h | h
    · split_ifs at h
      · rcases List.mem_append.mp h with h | h
        · obtain ⟨r, -, rfl⟩ := List.mem_map.mp h
          exact .inl ⟨_, r, rfl⟩
        · obtain ⟨r, -, rfl⟩ := List.mem_map.mp h
          exact .inr ⟨_, r, rfl⟩
      · cases h
    · obtain ⟨r, -, rfl⟩ := List.mem_map.mp h
      exact .inl ⟨_, r, rfl⟩
    · obtain ⟨r, -, rfl⟩ := List.mem_map.mp h
      exact .inr ⟨_, r, rfl⟩
  rcases hset with ⟨e, r, rfl⟩ | ⟨e, r, rfl⟩
  · rfl
  · rfl

/-- From a request `q'` that looks for the command after `cmd`, all that is left is sent. -/
theorem loop_sendNext {q q' : SetBcConfigReq} {modem : RangeReplies} {cmd : BcCommand} {n : Nat}
    (sent : List BcCommand) (hget : q.getNextAt modem cmd = q'.onGetNextAtInfo cmd)
    (hq : q'.Bounded) (hcmd : cmd ≠ .queryChannels) (hn : q'.todo.length + 1 < n) :
    loop (sendNext modem) n (sent, some cmd, q) =
      some (if q'.Merged then none else some (sent ++ cmd :: q'.todo)) := by
  -- The induction is on the turns; each one takes a command from the front of what is left.
  induction n generalizing q q' cmd sent with
  | zero => exact absurd hn (Nat.not_lt_zero _)
  | succ n ih =>
    rcases onGetNextAtInfo_cases hq hcmd with
      ⟨c, q₁, hnext, htodo, hbounded, hmerged⟩ | ⟨htodo, hnext⟩
    · have hturn : sendNext modem (sent, some cmd, q) = .inl (sent ++ [cmd], some c, q₁) := by
        rw [sendNext, hget, hnext]
      have hline : modem.intermediate c = none :=
        intermediate_of_mem_todo modem (htodo ▸ List.mem_cons_self)
      have hget₁ : q₁.getNextAt modem c = q₁.onGetNextAtInfo c := by
        rw [getNextAt, hline]
        rfl
      have hc : c ≠ .queryChannels := by
        rintro rfl
        cases hline
      rw [htodo, List.length_cons] at hn
      rw [loop_of_inl hturn, ih _ hget₁ hbounded hc (Nat.lt_of_succ_lt_succ hn), htodo,
        List.append_assoc]
      simp only [hmerged, List.singleton_append]
    · rw [htodo, List.length_nil] at hn
      by_cases hmerged : q'.Merged
      · rw [if_pos hmerged] at hnext ⊢
        have hturn : sendNext modem (sent, some cmd, q) = .inr none := by
          rw [sendNext, hget, hnext]
        exact loop_of_inr hturn
      · rw [if_neg hmerged] at hnext ⊢
        have hturn : sendNext modem (sent, some cmd, q) = .inl (sent ++ [cmd], none, q') := by
          rw [sendNext, hget, hnext]
        obtain ⟨n, rfl⟩ : ∃ m, n = m + 1 := Nat.exists_eq_succ_of_ne_zero (by omega)
        rw [loop_of_inl hturn, htodo]
        rfl

end SetBcConfigReq

/-! ## The whole sequence -/

/-- A reply the parser can take. -/
def RangeReply.Fits : RangeReply → Prop
  | .off => True
  | .on ranges => 0 < ranges.length ∧ ranges.length ≤ maxRange

instance (line : RangeReply) : Decidable line.Fits :=
  match line with
  | .off => inferInstanceAs (Decidable True)
  | .on _ => inferInstanceAs (Decidable (_ ∧ _))

/-- Both replies fit. -/
def RangeReplies.Fit (modem : RangeReplies) : Prop := modem.channels.Fits ∧ modem.languages.Fits

instance (modem : RangeReplies) : Decidable modem.Fit := inferInstanceAs (Decidable (_ ∧ _))

/-- The commands that a request with the ranges `channels` and `lans` should send. -/
def program (selected : Bool) (modem : RangeReplies) (channels lans : List Range) :
    List BcCommand :=
  (if selected then
      .queryChannels :: .queryLanguages ::
        (modem.channels.reported.map (.setChannels false) ++
          modem.languages.reported.map (.setLanguages false))
    else
      []) ++
    (channels.map (.setChannels selected) ++ lans.map (.setLanguages selected))

/-- A reply that fits is added to the ranges of the modem, another one is a fault. -/
theorem onHandleIntermediates_eq {q : SetBcConfigReq} (hsel : isSelected q.infos)
    (line : RangeReply) :
    q.onHandleIntermediates .queryChannels line =
        (if line.Fits then some { q with channelsMd := q.channelsMd ++ line.reported } else none) ∧
      q.onHandleIntermediates .queryLanguages line =
        if line.Fits then some { q with languagesMd := q.languagesMd ++ line.reported }
        else none := by
  cases line with
  | off => simp [SetBcConfigReq.onHandleIntermediates, hsel, RangeReply.Fits, RangeReply.reported]
  | on ranges =>
    by_cases hfits : 0 < ranges.length ∧ ranges.length ≤ maxRange
    · simp [SetBcConfigReq.onHandleIntermediates, hsel, RangeReply.Fits, RangeReply.reported,
        getRangeFromModem, hfits]
    · simp [SetBcConfigReq.onHandleIntermediates, hsel, RangeReply.Fits,
        getRangeFromModem, hfits]

/-- The answer to the first query leads to the second one. -/
theorem getNextAt_queryChannels {q : SetBcConfigReq} (hsel : isSelected q.infos)
    (modem : RangeReplies) :
    q.getNextAt modem .queryChannels =
      if modem.channels.Fits then
        some (some .queryLanguages, { q with
          channelsMd := q.channelsMd ++ modem.channels.reported
          channelMd := 0, lansMd := 0, channel := 0, lan := 0 })
      else none := by
  rw [SetBcConfigReq.getNextAt]
  simp only [RangeReplies.intermediate, (onHandleIntermediates_eq hsel _).1]
  split_ifs with hfits
  · simp [SetBcConfigReq.onGetNextAtInfo, hsel]
  · rfl

/-- The answer to the second query leads to the ranges that are left. -/
theorem getNextAt_queryLanguages {q : SetBcConfigReq} (hsel : isSelected q.infos)
    (modem : RangeReplies) :
    q.getNextAt modem .queryLanguages =
      if modem.languages.Fits then
        ({ q with languagesMd := q.languagesMd ++ modem.languages.reported } :
          SetBcConfigReq).onGetNextAtInfo .queryLanguages
      else none := by
  rw [SetBcConfigReq.getNextAt]
  simp only [RangeReplies.intermediate, (onHandleIntermediates_eq hsel _).2]
  split_ifs with hfits
  · rfl
  · rfl

section Program

variable {infos : List ConfigInfo} {categorys languages : List Int} {channels lans : List Range}

variable (categorys channels) in
/-- A request that selects asks, and then sends what is left, unless a reply does not fit. -/
theorem loop_selected (hsel : isSelected infos) (modem : RangeReplies)
    (hle : lans.length ≤ languages.length) :
    ∃ n, loop (sendNext modem) n ([], some .queryChannels, {
        infos := infos, categorys := categorys, languages := languages
        channels := channels, lans := lans }) =
      some (if lans.length < languages.length ∨ ¬modem.Fit then none
        else some (program true modem channels lans)) := by
  by_cases hch : modem.channels.Fits
  · let q₁ : SetBcConfigReq := {
      infos := infos, categorys := categorys, languages := languages
      channels := channels, lans := lans, channelsMd := modem.channels.reported }
    have hturn₁ : sendNext modem ([], some .queryChannels, {
        infos := infos, categorys := categorys, languages := languages
        channels := channels, lans := lans }) = .inl ([.queryChannels], some .queryLanguages, q₁) := by
      rw [sendNext, getNextAt_queryChannels hsel, if_pos hch]
      rfl
    by_cases hln : modem.languages.Fits
    · let q₂ : SetBcConfigReq := { q₁ with languagesMd := modem.languages.reported }
      have hget : q₁.getNextAt modem .queryLanguages = q₂.onGetNextAtInfo .queryLanguages := by
        rw [getNextAt_queryLanguages hsel, if_pos hln]
        rfl
      have hloop := SetBcConfigReq.loop_sendNext [.queryChannels] hget
        ⟨Nat.zero_le _, hle⟩ (by rintro ⟨⟩) (Nat.lt_succ_self _)
      refine ⟨q₂.todo.length + 1 + 1 + 1, ?_⟩
      have htodo : .queryChannels :: .queryLanguages :: q₂.todo =
          program true modem channels lans := by
        simp [SetBcConfigReq.todo, SetBcConfigReq.clearing, SetBcConfigReq.setting, program,
          q₁, q₂, hsel]
      have hfit : modem.Fit := ⟨hch, hln⟩
      rw [loop_of_inl hturn₁, hloop, List.singleton_append, htodo]
      simp only [SetBcConfigReq.Merged, q₁, q₂, hfit, not_true_eq_false, or_false]
      rfl
    · refine ⟨2, ?_⟩
      have hturn₂ : sendNext modem ([.queryChannels], some .queryLanguages, q₁) = .inr none := by
        rw [sendNext, getNextAt_queryLanguages hsel, if_neg hln]
      rw [loop_of_inl hturn₁, loop_of_inr hturn₂, if_pos (.inr fun hfit => hln hfit.2)]
  · refine ⟨1, ?_⟩
    have hturn : sendNext modem ([], some .queryChannels, {
        infos := infos, categorys := categorys, languages := languages
        channels := channels, lans := lans }) = .inr none := by
      rw [sendNext, getNextAt_queryChannels hsel, if_neg hch]
    rw [loop_of_inr hturn, if_pos (.inr fun hfit => hch hfit.1)]

variable (categorys) in
/-- A request that does not select disables the first range, and sends what is left. -/
theorem loop_unselected (hsel : isSelected infos = false) (modem : RangeReplies) {r : Range}
    (hr : channels[0]? = some r) (hle : lans.length ≤ languages.length) :
    ∃ n, loop (sendNext modem) n ([], some (.setChannels false r), {
        infos := infos, categorys := categorys, languages := languages
        channels := channels, channel := 1, lans := lans }) =
      some (if lans.length < languages.length then none
        else some (program false modem channels lans)) := by
  let q : SetBcConfigReq := {
    infos := infos, categorys := categorys, languages := languages
    channels := channels, channel := 1, lans := lans }
  have hget : q.getNextAt modem (.setChannels false r) =
      q.onGetNextAtInfo (.setChannels false r) := rfl
  have hloop := SetBcConfigReq.loop_sendNext [] hget ⟨Nat.zero_le _, hle⟩ (by rintro ⟨⟩)
    (Nat.lt_succ_self _)
  refine ⟨_, hloop.trans ?_⟩
  obtain ⟨rs, rfl⟩ : ∃ rs, channels = r :: rs := by
    cases channels with
    | nil => cases hr
    | cons r' rs =>
      cases hr
      exact ⟨rs, rfl⟩
  simp [SetBcConfigReq.Merged, SetBcConfigReq.todo, SetBcConfigReq.clearing,
    SetBcConfigReq.setting, program, q, hsel]

/-- A request whose flags are all `0` or all `1` sends its whole program, unless two of its
languages share a range, or a reply it has asked for does not fit. -/
theorem sendAtCmds_eq (hsort : sortCategoryAndLanguage infos = some (categorys, languages))
    (hchannels : getRange categorys = some channels) (hlans : getRange languages = some lans)
    (modem : RangeReplies) :
    ∃ n, sendAtCmds modem infos n =
      some (if lans.length < languages.length ∨ (isSelected infos ∧ ¬modem.Fit) then none
        else some (program (isSelected infos) modem channels lans)) := by
  have hle := getRange_length_le hlans
  by_cases hsel : isSelected infos
  · obtain ⟨n, hn⟩ := loop_selected categorys channels hsel modem hle
    refine ⟨n, ?_⟩
    have hfirst : ({ infos := infos } : SetBcConfigReq).onGetFirstAtInfo =
        some (some .queryChannels, {
          infos := infos, categorys := categorys, languages := languages
          channels := channels, lans := lans }) := by
      simp [SetBcConfigReq.onGetFirstAtInfo, hsort, hchannels, hlans, hsel]
    rw [sendAtCmds, hfirst]
    simpa only [hsel, true_and] using hn
  · have hunselected : isSelected infos = false := Bool.eq_false_of_not_eq_true hsel
    obtain ⟨r, hr⟩ : ∃ r, channels[0]? = some r :=
      ⟨_, List.getElem?_eq_getElem (getRange_length_pos hchannels)⟩
    obtain ⟨n, hn⟩ := loop_unselected categorys hunselected modem hr hle
    refine ⟨n, ?_⟩
    have hfirst : ({ infos := infos } : SetBcConfigReq).onGetFirstAtInfo =
        some (some (.setChannels false r), {
          infos := infos, categorys := categorys, languages := languages
          channels := channels, channel := 1, lans := lans }) := by
      simp [SetBcConfigReq.onGetFirstAtInfo, hsort, hchannels, hlans, hunselected, hr]
    rw [sendAtCmds, hfirst]
    simpa [hunselected] using hn

end Program

/-! ## What is programmed -/

/-- The channels that the commands enable, or disable. -/
def channelIds (enable : Bool) (cmds : List BcCommand) : List Int :=
  cmds.flatMap fun
    | .setChannels e r => if e = enable then r.ids else []
    | _ => []

/-- The languages that the commands enable, or disable. -/
def languageIds (enable : Bool) (cmds : List BcCommand) : List Int :=
  cmds.flatMap fun
    | .setLanguages e r => if e = enable then r.ids else []
    | _ => []

/-- A command that enables a range. -/
def BcCommand.Enables : BcCommand → Prop
  | .setChannels e _ | .setLanguages e _ => e = true
  | .queryChannels | .queryLanguages => False

/-- The commands program the requested configuration, completely and exactly. -/
structure Programs (infos : List ConfigInfo) (modem : RangeReplies) (cmds : List BcCommand) :
    Prop where
  /-- Each channel is enabled, or disabled, once. -/
  channels_nodup : (channelIds (isSelected infos) cmds).Nodup
  /-- These are the requested channels. -/
  mem_channels : ∀ z, z ∈ channelIds (isSelected infos) cmds ↔ z ∈ infos.map ConfigInfo.serviceCategory
  /-- Each language is enabled, or disabled, once. -/
  languages_nodup : (languageIds (isSelected infos) cmds).Nodup
  /-- These are the requested languages. -/
  mem_languages : ∀ z, z ∈ languageIds (isSelected infos) cmds ↔ z ∈ infos.map ConfigInfo.language
  /-- A request that does not select enables nothing. -/
  unselected : isSelected infos = false → ∀ c ∈ cmds, ¬c.Enables
  /-- A request that selects disables all that the modem reports before it enables anything. -/
  disabled_first : isSelected infos → ∃ before after, cmds = before ++ after ∧
    (∀ c ∈ before, ¬c.Enables) ∧
    (∀ r ∈ modem.channels.reported, .setChannels false r ∈ before) ∧
    ∀ r ∈ modem.languages.reported, .setLanguages false r ∈ before

/-- The request ends after finitely many commands, without a fault, and these program
what it asks for. -/
def IsProgrammed (infos : List ConfigInfo) (modem : RangeReplies) : Prop :=
  ∃ cmds, (∃ n, sendAtCmds modem infos n = some (some cmds)) ∧ Programs infos modem cmds

theorem channelIds_append (e : Bool) (xs ys : List BcCommand) :
    channelIds e (xs ++ ys) = channelIds e xs ++ channelIds e ys :=
  List.flatMap_append

theorem languageIds_append (e : Bool) (xs ys : List BcCommand) :
    languageIds e (xs ++ ys) = languageIds e xs ++ languageIds e ys :=
  List.flatMap_append

@[simp] theorem channelIds_setChannels (e e' : Bool) (rs : List Range) :
    channelIds e (rs.map (.setChannels e')) = if e' = e then rs.flatMap Range.ids else [] := by
  simp only [channelIds, List.flatMap_map]
  split_ifs <;> simp

@[simp] theorem channelIds_setLanguages (e e' : Bool) (rs : List Range) :
    channelIds e (rs.map (.setLanguages e')) = [] := by
  simp [channelIds, List.flatMap_map]

@[simp] theorem languageIds_setLanguages (e e' : Bool) (rs : List Range) :
    languageIds e (rs.map (.setLanguages e')) = if e' = e then rs.flatMap Range.ids else [] := by
  simp only [languageIds, List.flatMap_map]
  split_ifs <;> simp

@[simp] theorem languageIds_setChannels (e e' : Bool) (rs : List Range) :
    languageIds e (rs.map (.setChannels e')) = [] := by
  simp [languageIds, List.flatMap_map]

/-- The queries set no id. -/
theorem ids_query (e : Bool) (cmds : List BcCommand) :
    channelIds e (.queryChannels :: .queryLanguages :: cmds) = channelIds e cmds ∧
      languageIds e (.queryChannels :: .queryLanguages :: cmds) = languageIds e cmds :=
  ⟨rfl, rfl⟩

/-- A program sets the ids of the ranges it is made from. -/
theorem program_ids (selected : Bool) (modem : RangeReplies) (channels lans : List Range) :
    channelIds selected (program selected modem channels lans) = channels.flatMap Range.ids ∧
      languageIds selected (program selected modem channels lans) = lans.flatMap Range.ids := by
  cases selected with
  | false =>
    rw [program, if_neg Bool.false_ne_true, List.nil_append]
    simp [channelIds_append, languageIds_append]
  | true =>
    rw [program, if_pos rfl, List.cons_append, List.cons_append, (ids_query _ _).1,
      (ids_query _ _).2]
    simp [channelIds_append, languageIds_append]

section Flags

variable {infos : List ConfigInfo}

theorem sortFrom_eq {flag : UInt8} (hflag : ∀ it ∈ infos, it.selected = flag)
    (categorys languages : List Int) :
    sortFrom flag infos categorys languages =
      some ((infos.map ConfigInfo.serviceCategory).foldl
          (fun v x => SortedVector.add (· < ·) x v) categorys,
        (infos.map ConfigInfo.language).foldl
          (fun v x => SortedVector.add (· < ·) x v) languages) := by
  induction infos generalizing categorys languages with
  | nil => rfl
  | cons it infos ih =>
    have hit : ¬it.selected ≠ flag := not_not.mpr (hflag it List.mem_cons_self)
    rw [sortFrom, if_neg hit, ih fun it' hit' => hflag it' (List.mem_cons_of_mem _ hit')]
    rfl

/-- A request whose flags are all `0` or all `1` is sorted. -/
theorem sortCategoryAndLanguage_eq (hne : infos ≠ [])
    (hflags : ∀ i ∈ infos, ∀ j ∈ infos, i.selected = j.selected)
    (hflag : ∀ i ∈ infos, i.selected = 0 ∨ i.selected = 1) :
    sortCategoryAndLanguage infos =
      some (sortedAddAll (infos.map ConfigInfo.serviceCategory),
        sortedAddAll (infos.map ConfigInfo.language)) := by
  obtain ⟨it, rest, rfl⟩ := List.exists_cons_of_ne_nil hne
  have hhead : it.selected = if isSelected (it :: rest) then 1 else 0 := by
    rcases hflag it List.mem_cons_self with h | h
    · simp [isSelected, h]
    · simp [isSelected, h]
  apply sortFrom_eq
  intro i hi
  rw [hflags i hi it List.mem_cons_self, hhead]

/-- A request with another flag is not sorted, and sends nothing. -/
theorem sortCategoryAndLanguage_eq_none {i : ConfigInfo} (hi : i ∈ infos)
    (hflags : ∀ i ∈ infos, ∀ j ∈ infos, i.selected = j.selected)
    (hflag : ¬(i.selected = 0 ∨ i.selected = 1)) : sortCategoryAndLanguage infos = none := by
  cases infos with
  | nil => cases hi
  | cons it rest =>
    rw [hflags i hi it List.mem_cons_self] at hflag
    rw [sortCategoryAndLanguage, sortFrom, if_pos]
    intro heq
    split_ifs at heq
    · exact hflag (.inr heq)
    · exact hflag (.inl heq)

end Flags

/-- A program sets exactly what was requested. -/
theorem programs_program {infos : List ConfigInfo} {modem : RangeReplies}
    {channels lans : List Range}
    (hchannels : getRange (sortedAddAll (infos.map ConfigInfo.serviceCategory)) = some channels)
    (hlans : getRange (sortedAddAll (infos.map ConfigInfo.language)) = some lans) :
    Programs infos modem (program (isSelected infos) modem channels lans) := by
  obtain ⟨hcids, hlids⟩ := program_ids (isSelected infos) modem channels lans
  rw [getRange_ids (sortedAddAll_pairwise _) hchannels] at hcids
  rw [getRange_ids (sortedAddAll_pairwise _) hlans] at hlids
  constructor
  · rw [hcids]
    exact sortedAddAll_nodup _
  · intro z
    rw [hcids, mem_sortedAddAll]
  · rw [hlids]
    exact sortedAddAll_nodup _
  · intro z
    rw [hlids, mem_sortedAddAll]
  · intro hsel c hc
    rw [hsel, program, if_neg Bool.false_ne_true, List.nil_append] at hc
    rcases List.mem_append.mp hc with hc | hc
    · obtain ⟨r, -, rfl⟩ := List.mem_map.mp hc
      exact Bool.false_ne_true
    · obtain ⟨r, -, rfl⟩ := List.mem_map.mp hc
      exact Bool.false_ne_true
  · intro hsel
    refine ⟨_, _, rfl, ?_, ?_, ?_⟩
    · intro c hc
      rw [if_pos hsel, List.mem_cons, List.mem_cons, List.mem_append] at hc
      rcases hc with rfl | rfl | hc | hc
      · exact id
      · exact id
      · obtain ⟨r, -, rfl⟩ := List.mem_map.mp hc
        exact Bool.false_ne_true
      · obtain ⟨r, -, rfl⟩ := List.mem_map.mp hc
        exact Bool.false_ne_true
    · intro r hr
      simp [hsel, hr]
    · intro r hr
      simp [hsel, hr]

/-- What the request ends with does not depend on the turns it is given. -/
theorem sendAtCmds_unique {modem : RangeReplies} {infos : List ConfigInfo} {n m : Nat}
    {r r' : Option (List BcCommand)} (h : sendAtCmds modem infos n = some r)
    (h' : sendAtCmds modem infos m = some r') : r = r' := by
  rw [sendAtCmds] at h h'
  cases hfirst : ({ infos := infos } : SetBcConfigReq).onGetFirstAtInfo with
  | none =>
    rw [hfirst] at h h'
    exact (Option.some.inj h).symm.trans (Option.some.inj h')
  | some first =>
    rw [hfirst] at h h'
    exact loop_unique h h'

/-- The languages have a range each when no two of them are adjacent. -/
theorem lans_length_lt {infos : List ConfigInfo} {lans : List Range}
    (hlans : getRange (sortedAddAll (infos.map ConfigInfo.language)) = some lans) :
    lans.length < (sortedAddAll (infos.map ConfigInfo.language)).length ↔
      ¬∀ i ∈ infos, ∀ j ∈ infos, j.language ≠ i.language + 1 := by
  rw [(getRange_length_le hlans).lt_iff_ne, Ne,
    getRange_length_eq (sortedAddAll_pairwise _) hlans]
  simp

/-- A request with a flag that is neither `0` nor `1` ends with no command. -/
theorem sendAtCmds_of_sort_eq_none {infos : List ConfigInfo} (modem : RangeReplies)
    (hsort : sortCategoryAndLanguage infos = none) : sendAtCmds modem infos 1 = some (some []) := by
  simp [sendAtCmds, SetBcConfigReq.onGetFirstAtInfo, hsort, loop, sendNext]

end MtkHw.Sms
