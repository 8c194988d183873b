import MtkHw.Lib.Loop
import MtkHw.Lib.Text

/-!
# The channels of the cell broadcast

The channels that a user subscribes to are written to the modem as a text: single identifiers and
ranges, separated by commas.  What the modem reports in this form is read back by a loop over the
separators.  The head of the rest of the text becomes `NULL` behind a last range, and not behind a
last single identifier, which is read when the loop has ended.

`channels_roundTrip` is the result: what has been written is read back in order.
-/

namespace MtkHw.Sms

open Lib

/-- `RIL_GSM_BroadcastSmsConfigInfo` -/
structure GsmCbConfigInfo where
  fromServiceId : Int32
  toServiceId : Int32
  fromCodeScheme : Int32
  toCodeScheme : Int32
  selected : UInt8
deriving DecidableEq, Repr

/-- `RIL_SMS_GSM_CB_CHANNEL_LIST`, without the pointer to the next element. -/
structure CbChannel where
  start : Int32
  stop : Int32
deriving DecidableEq, Repr

/-! ## Writing -/

/-- A channel in the text of `handleSetGsmCbSmsCfg`. -/
def formatChannel (start stop : Int32) : List Char :=
  if start = stop then formatInt start.toInt else formatInt start.toInt ++ '-' :: formatInt stop.toInt

/-- `settings` of `handleSetGsmCbSmsCfg`, when the channels before the `i`-th one stand in it. -/
def appendSettings (settings : List Char) : Nat → List GsmCbConfigInfo → List Char
  | _, [] => settings
  | i, info :: infos =>
    let settings := if i ≠ 0 then settings ++ [','] else settings
    appendSettings (settings ++ formatChannel info.fromServiceId info.toServiceId) (i + 1) infos

/-- The text of the channels that `handleSetGsmCbSmsCfg` sends. -/
def cbSettings (infos : List GsmCbConfigInfo) : List Char := appendSettings [] 0 infos

/-! ## Reading -/

/-- `key` -/
def channelKey : List Char := [',', '-']

/-- `strncpy` of the next `n` characters to `ch`, of which there are 50 with the final zero. -/
def copyToCh (pHead : List Char) (n : Nat) : Option (List Char) :=
  if n < 50 then some (pHead.take n) else none

/-- The variables of the loop of `convertChStringToGsmCbCfgInfo`; `channels` is the list that
`pCbListHead` points to. -/
structure ChSplit where
  pHead : Option (List Char)
  pCh : Option (List Char)
  num : Nat
  channels : List CbChannel
deriving DecidableEq, Repr

/-- A separator that has been found; none when `ch` overflows, `pHead` is `NULL` or a number is out of
range. -/
def splitAtCh (s : ChSplit) (pCh : List Char) : Option ChSplit := do
  let pHead ← s.pHead
  let ch ← copyToCh pHead (pHead.length - pCh.length)
  let pHead := pCh.tail
  let start ← atoi ch
  if pCh.head? = some ',' then
    return ⟨some pHead, strpbrk pHead channelKey, s.num + 1, s.channels ++ [⟨start, start⟩]⟩
  else
    match strpbrk pHead channelKey with
    | some pCh =>
      let ch ← copyToCh pHead (pHead.length - pCh.length)
      let stop ← atoi ch
      return ⟨some pCh.tail, strpbrk pCh.tail channelKey, s.num + 1, s.channels ++ [⟨start, stop⟩]⟩
    | none =>
      -- This is the last channel: `pHead` becomes `NULL`, and `pCh` is so already.
      let ch ← copyToCh pHead 49
      let stop ← atoi ch
      return ⟨none, none, s.num + 1, s.channels ++ [⟨start, stop⟩]⟩

/-- A turn of the loop. -/
def splitTurn (s : ChSplit) : ChSplit ⊕ Option ChSplit :=
  match s.pCh with
  | none => .inr (some s)
  | some pCh =>
    match splitAtCh s pCh with
    | none => .inr none
    | some s => .inl s

/-- The channel that is left behind the loop. -/
def lastChannel (s : ChSplit) : Option ChSplit :=
  match s.pHead with
  | none => some s
  | some pHead => do
    let ch ← copyToCh pHead 49
    let id ← atoi ch
    return { s with num := s.num + 1, channels := s.channels ++ [⟨id, id⟩] }

/-- The element of `gsmBciPtrs` for a channel. -/
def CbChannel.info (c : CbChannel) : GsmCbConfigInfo :=
  { fromServiceId := c.start, toServiceId := c.stop, fromCodeScheme := 0, toCodeScheme := 0
    selected := 1 }

/-- `convertChStringToGsmCbCfgInfo`, when its loop goes round at most `turns` times: the elements of
`gsmBciPtrs`, for which there are `num` places, and `count`. -/
def convertChStringToGsmCbCfgInfo (turns : Nat) (channels : List Char) :
    Option (Option (List GsmCbConfigInfo × Nat)) :=
  (loop splitTurn turns ⟨some channels, strpbrk channels channelKey, 0, []⟩).map fun s => do
    let s ← s
    let s ← lastChannel s
    if s.channels.length ≤ s.num then
      return (s.channels.map CbChannel.info, s.channels.length)
    else none

/-! ## The text -/

/-- A channel with identifiers that are not negative. -/
structure CbChannel.NonNeg (c : CbChannel) : Prop where
  start : 0 ≤ c.start
  stop : 0 ≤ c.stop

/-- What is written for a channel. -/
def CbChannel.text (c : CbChannel) : List Char := formatChannel c.start c.stop

/-- What is written for channels. -/
def channelsText (channels : List CbChannel) : List Char := joinWith ',' (channels.map CbChannel.text)

/-- The channel of an element. -/
def GsmCbConfigInfo.channel (info : GsmCbConfigInfo) : CbChannel :=
  ⟨info.fromServiceId, info.toServiceId⟩

/-- Channels behind the first one are preceded by commas. -/
theorem appendSettings_succ (infos : List GsmCbConfigInfo) (settings : List Char) (i : Nat) :
    appendSettings settings (i + 1) infos =
      settings ++ (infos.map fun info => info.channel.text).flatMap (',' :: ·) := by
  induction infos generalizing settings i with
  | nil => exact (List.append_nil _).symm
  | cons info infos ih =>
    rw [appendSettings, if_pos (Nat.succ_ne_zero i), ih, List.map_cons, List.flatMap_cons,
      List.append_assoc, List.append_assoc]
    rfl

theorem cbSettings_eq (infos : List GsmCbConfigInfo) :
    cbSettings infos = channelsText (infos.map GsmCbConfigInfo.channel) := by
  cases infos with
  | nil => rfl
  | cons info infos =>
    rw [cbSettings, appendSettings, appendSettings_succ, channelsText, List.map_cons, List.map_cons,
      joinWith_cons, List.map_map]
    rfl

/-! ## Turns -/

section Turns

variable {v : Int32} (hv : 0 ≤ v)

include hv

/-- A number is a word for the separators. -/
theorem formatInt_word : ∀ c ∈ formatInt v.toInt, c ∉ channelKey := by
  intro c hc hkey
  have hdigit := isDigit_of_mem_formatInt hv hc
  rcases List.mem_cons.mp hkey with rfl | hkey
  · exact absurd hdigit (by decide)
  · rw [List.mem_singleton.mp hkey] at hdigit
    exact absurd hdigit (by decide)

/-- The next number is copied up to the separator. -/
theorem copyToCh_formatInt (c : Char) (rest : List Char) :
    copyToCh (formatInt v.toInt ++ c :: rest)
      ((formatInt v.toInt ++ c :: rest).length - (c :: rest).length) =
        some (formatInt v.toInt) := by
  have hlength := length_formatInt hv
  rw [List.length_append, Nat.add_sub_cancel, copyToCh, if_pos (by omega), List.take_left']
  rfl

/-- The last number is copied. -/
theorem copyToCh_last : copyToCh (formatInt v.toInt) 49 = some (formatInt v.toInt) := by
  have hlength := length_formatInt hv
  rw [copyToCh, if_pos (by decide), List.take_of_length_le (by omega)]

/-- A single identifier before a comma. -/
theorem splitTurn_single (rest : List Char) (num : Nat) (channels : List CbChannel) :
    splitTurn ⟨some (formatInt v.toInt ++ ',' :: rest), some (',' :: rest), num, channels⟩ =
      .inl ⟨some rest, strpbrk rest channelKey, num + 1, channels ++ [⟨v, v⟩]⟩ := by
  have hsplit : splitAtCh ⟨some (formatInt v.toInt ++ ',' :: rest), some (',' :: rest), num,
      channels⟩ (',' :: rest) =
        some ⟨some rest, strpbrk rest channelKey, num + 1, channels ++ [⟨v, v⟩]⟩ := by
    simp only [splitAtCh, Option.bind_eq_bind, Option.bind_some, copyToCh_formatInt hv,
      atoi_formatInt hv, List.head?_cons, if_true, List.tail_cons]
    rfl
  rw [splitTurn]
  dsimp only
  rw [hsplit]

/-- A range before a comma. -/
theorem splitTurn_range {w : Int32} (hw : 0 ≤ w) (rest : List Char) (num : Nat)
    (channels : List CbChannel) :
    splitTurn ⟨some (formatInt v.toInt ++ '-' :: (formatInt w.toInt ++ ',' :: rest)),
        some ('-' :: (formatInt w.toInt ++ ',' :: rest)), num, channels⟩ =
      .inl ⟨some rest, strpbrk rest channelKey, num + 1, channels ++ [⟨v, w⟩]⟩ := by
  have hsplit : splitAtCh ⟨some (formatInt v.toInt ++ '-' :: (formatInt w.toInt ++ ',' :: rest)),
      some ('-' :: (formatInt w.toInt ++ ',' :: rest)), num, channels⟩
        ('-' :: (formatInt w.toInt ++ ',' :: rest)) =
        some ⟨some rest, strpbrk rest channelKey, num + 1, channels ++ [⟨v, w⟩]⟩ := by
    have hword := strpbrk_word (formatInt_word hw) (show ',' ∈ channelKey by decide) rest
    simp only [splitAtCh, Option.bind_eq_bind, Option.bind_some, copyToCh_formatInt hv,
      atoi_formatInt hv, List.head?_cons, List.tail_cons, hword, copyToCh_formatInt hw,
      atoi_formatInt hw]
    rfl
  rw [splitTurn]
  dsimp only
  rw [hsplit]

/-- A range at the end: the head becomes `NULL`. -/
theorem splitTurn_lastRange {w : Int32} (hw : 0 ≤ w) (num : Nat) (channels : List CbChannel) :
    splitTurn ⟨some (formatInt v.toInt ++ '-' :: formatInt w.toInt),
        some ('-' :: formatInt w.toInt), num, channels⟩ =
      .inl ⟨none, none, num + 1, channels ++ [⟨v, w⟩]⟩ := by
  have hsplit : splitAtCh ⟨some (formatInt v.toInt ++ '-' :: formatInt w.toInt),
      some ('-' :: formatInt w.toInt), num, channels⟩ ('-' :: formatInt w.toInt) =
        some ⟨none, none, num + 1, channels ++ [⟨v, w⟩]⟩ := by
    simp only [splitAtCh, Option.bind_eq_bind, Option.bind_some, copyToCh_formatInt hv,
      atoi_formatInt hv, List.head?_cons, List.tail_cons, strpbrk_last (formatInt_word hw),
      copyToCh_last hw, atoi_formatInt hw]
    rfl
  rw [splitTurn]
  dsimp only
  rw [hsplit]

/-- A single identifier at the end is read behind the loop. -/
theorem lastChannel_single (num : Nat) (channels : List CbChannel) :
    lastChannel ⟨some (formatInt v.toInt), none, num, channels⟩ =
      some ⟨some (formatInt v.toInt), none, num + 1, channels ++ [⟨v, v⟩]⟩ := by
  simp only [lastChannel, copyToCh_last hv, Option.bind_eq_bind, Option.bind_some, atoi_formatInt hv]
  rfl

end Turns

/-! ## The loop -/

/-- The state in which the rest `txt` of the text is read. -/
def ChSplit.reading (txt : List Char) (num : Nat) (channels : List CbChannel) : ChSplit :=
  ⟨some txt, strpbrk txt channelKey, num, channels⟩

/-- The turn for a channel before a comma. -/
theorem splitTurn_channel {c : CbChannel} (hc : c.NonNeg) (rest : List Char) (num : Nat)
    (channels : List CbChannel) :
    splitTurn (.reading (c.text ++ ',' :: rest) num channels) =
      .inl (.reading rest (num + 1) (channels ++ [c])) := by
  obtain ⟨start, stop⟩ := c
  have hword := formatInt_word hc.start
  rw [CbChannel.text, formatChannel]
  split_ifs with heq
  · cases heq
    rw [ChSplit.reading, strpbrk_word hword (show ',' ∈ channelKey by decide)]
    exact splitTurn_single hc.start rest num channels
  · rw [List.append_assoc, List.cons_append, ChSplit.reading,
      strpbrk_word hword (show '-' ∈ channelKey by decide)]
    exact splitTurn_range hc.start hc.stop rest num channels

/-- The last channel: a single identifier is left for what follows the loop, a range is not. -/
theorem split_last {c : CbChannel} (hc : c.NonNeg) (num : Nat) (channels : List CbChannel) :
    ∃ turns s s', loop splitTurn turns (.reading c.text num channels) = some (some s) ∧
      lastChannel s = some s' ∧ s'.num = num + 1 ∧ s'.channels = channels ++ [c] := by
  obtain ⟨start, stop⟩ := c
  have hword := formatInt_word hc.start
  rw [CbChannel.text, formatChannel]
  split_ifs with heq
  · cases heq
    refine ⟨1, _, _, loop_of_inr ?_, lastChannel_single hc.start num channels, rfl, rfl⟩
    rw [ChSplit.reading, strpbrk_last hword]
    rfl
  · refine ⟨2, ⟨none, none, num + 1, channels ++ [⟨start, stop⟩]⟩, _, ?_, rfl, rfl, rfl⟩
    rw [ChSplit.reading, strpbrk_word hword (show '-' ∈ channelKey by decide),
      loop_of_inl (splitTurn_lastRange hc.start hc.stop num channels)]
    exact loop_of_inr rfl

/-- The loop and what follows it read all channels. -/
theorem split_total (c : CbChannel) (cs : List CbChannel) (h : ∀ d ∈ c :: cs, d.NonNeg) (num : Nat)
    (channels : List CbChannel) :
    ∃ turns s s', loop splitTurn turns (.reading (channelsText (c :: cs)) num channels) =
        some (some s) ∧
      lastChannel s = some s' ∧ s'.num = num + (c :: cs).length ∧
      s'.channels = channels ++ c :: cs := by
  induction cs generalizing c num channels with
  | nil => exact split_last (h c List.mem_cons_self) num channels
  | cons d cs ih =>
    obtain ⟨turns, s, s', hloop, hlast, hnum, hchannels⟩ :=
      ih d (fun e he => h e (List.mem_cons_of_mem _ he)) (num + 1) (channels ++ [c])
    refine ⟨turns + 1, s, s', ?_, hlast, ?_, ?_⟩
    · exact (loop_of_inl (splitTurn_channel (h c List.mem_cons_self) _ num channels)).trans hloop
    · rw [hnum, Nat.add_assoc, Nat.add_comm 1]
      rfl
    · rw [hchannels, List.append_assoc]
      rfl

/-- **Round trip of the channels.**  For every non-empty list of channels whose identifiers are not
negative, `convertChStringToGsmCbCfgInfo` reads the same channels in the same order from the text that
`handleSetGsmCbSmsCfg` writes for them, and counts them. -/
theorem channels_roundTrip {infos : List GsmCbConfigInfo} (hne : infos ≠ [])
    (h : ∀ info ∈ infos, info.channel.NonNeg) :
    ∃ turns, convertChStringToGsmCbCfgInfo turns (cbSettings infos) =
      some (some (infos.map fun info => info.channel.info, infos.length)) := by
  obtain ⟨info, infos, rfl⟩ := List.exists_cons_of_ne_nil hne
  obtain ⟨turns, s, s', hloop, hlast, hnum, hchannels⟩ :=
    split_total info.channel (infos.map GsmCbConfigInfo.channel) (by
      intro c hc
      rw [← List.map_cons] at hc
      obtain ⟨info', hinfo, rfl⟩ := List.mem_map.mp hc
      exact h info' hinfo) 0 []
  refine ⟨turns, ?_⟩
  rw [← List.map_cons, ← cbSettings_eq, ChSplit.reading] at hloop
  rw [← List.map_cons, List.nil_append] at hchannels
  rw [Nat.zero_add, List.length_cons, List.length_map] at hnum
  have hfits : s'.channels.length ≤ s'.num := by
    rw [hchannels, hnum, List.length_map, List.length_cons]
  rw [convertChStringToGsmCbCfgInfo, hloop, Option.map_some]
  simp only [Option.bind_eq_bind, Option.bind_some, hlast]
  rw [if_pos hfits, hchannels, List.map_map, List.length_map]
  rfl

/-- The channels `50,0-999,4370`. -/
theorem channels_roundTrip_three : ∃ turns,
    convertChStringToGsmCbCfgInfo turns
        (cbSettings [⟨50, 50, 0, 0, 1⟩, ⟨0, 999, 0, 0, 1⟩, ⟨4370, 4370, 0, 0, 1⟩]) =
      some (some ([⟨50, 50, 0, 0, 1⟩, ⟨0, 999, 0, 0, 1⟩, ⟨4370, 4370, 0, 0, 1⟩], 3)) := by
  refine channels_roundTrip (List.cons_ne_nil _ _) fun info hinfo => ?_
  simp only [List.mem_cons, List.not_mem_nil, or_false] at hinfo
  rcases hinfo with rfl | rfl | rfl
  · exact ⟨by decide, by decide⟩
  · exact ⟨by decide, by decide⟩
  · exact ⟨by decide, by decide⟩

end MtkHw.Sms
