import MtkHw.Lib.CString
import MtkHw.Lib.Machine

/-!
# The network agent: lines out of the channel

`atch_read2buffer` appends what has arrived to a buffer of 4095 characters, and `atch_getline` takes
a line off it: up to the first `\n`, or up to the first `\r` when there is no `\n` in the buffer.
What is left is moved to the front.

The machine is `netagent_io_recv` calling `atapi_urc_get` again and again: a step takes a line or
reads a chunk of what the modem sends.  Whatever the chunks are, the lines are those of the stream;
but a buffer that is full without an end of line is read into with length zero, which looks like the
end of the file and changes nothing.  `framed_iff` says which streams this happens to.
-/

namespace MtkHw.NetAgent

open Lib Lib.Ring

def chLf : UInt8 := 0x0A
def chCr : UInt8 := 0x0D

/-- The size that `atapi_urc_init` asks for. -/
def urcBufferSize : Nat := 4096

/-- `buffer_len` -/
def urcBufferLen : Nat := urcBufferSize - 1

/-- `ATChannel_t`, as far as the buffer goes. -/
structure Channel where
  buffer : Nat → UInt8
  bufferOffset : Nat

/-- The rest of `atch_getline` once the end of the line is found at `ptr`. -/
def takeLine (ch : Channel) (ptr : Nat) : Option (List UInt8 × Channel) := do
  let lastChar ← load ch.buffer urcBufferSize (ptr + 1)
  let cut ← store ch.buffer urcBufferSize (ptr + 1) 0
  let str ← strAt cut urcBufferSize 0
  let buffer ← store cut urcBufferSize (ptr + 1) lastChar
  -- the offset of the code is signed, and an index below the buffer is a fault
  if ch.bufferOffset < ptr + 1 ∨ urcBufferSize ≤ ch.bufferOffset then none
  else
    let offset := ch.bufferOffset - (ptr + 1)
    let buffer := if 0 < offset then blit buffer 0 (slice buffer (ptr + 1) offset) else buffer
    let buffer ← store buffer urcBufferSize offset 0
    some (str, ⟨buffer, offset⟩)

/-- `atch_getline`: the line, if there is one; none is a fault. -/
def getline (ch : Channel) : Option (Option (List UInt8) × Channel) := do
  let b ← load ch.buffer urcBufferSize 0
  if b = 0 then some (none, ch)
  else
    let ptr ← match ← strchrAt ch.buffer urcBufferSize chLf 0 with
      | some ptr => some (some ptr)
      | none => strchrAt ch.buffer urcBufferSize chCr 0
    match ptr with
    | none => some (none, ch)
    | some ptr => do
        let (str, ch) ← takeLine ch ptr
        some (some str, ch)

/-- `atch_read2buffer` when `read` returns the first of the bytes that have arrived, as far as there
is room: the channel and what is left to read.  Nothing changes when it returns zero. -/
def read2buffer (ch : Channel) (input : List UInt8) (chunk : Nat) :
    Option (Channel × List UInt8) :=
  if urcBufferLen < ch.bufferOffset then none
  else
    let data := (input.take chunk).take (urcBufferLen - ch.bufferOffset)
    if data = [] then some (ch, input)
    else do
      let offset := ch.bufferOffset + data.length
      let buffer ← store (blit ch.buffer ch.bufferOffset data) urcBufferSize offset 0
      some (⟨buffer, offset⟩, input.drop data.length)

/-! ## Streams -/

/-- The content of a line of the modem. -/
structure StreamLine where
  content : List UInt8
  zero_notMem : 0 ∉ content
  cr_notMem : chCr ∉ content
  lf_notMem : chLf ∉ content

/-- The bytes of the lines, each ended by `\r\n`. -/
def streamBytes (stream : List StreamLine) : List UInt8 :=
  stream.flatMap fun line => line.content ++ [chCr, chLf]

/-- A line without its end. -/
def strip (line : List UInt8) : List UInt8 := line.filter fun b => b ≠ chCr ∧ b ≠ chLf

/-- The lines that are not empty. -/
def nonEmpty (lines : List (List UInt8)) : List (List UInt8) := lines.filter (· ≠ [])

/-! ## The machine -/

structure UrcState where
  channel : Channel
  /-- What the modem has sent, or will send, and is not read yet. -/
  input : List UInt8
  /-- The lines that `atapi_urc_get` has returned. -/
  returned : List (List UInt8)

/-- A turn: `atapi_urc_get` returns a line, or reads at most `chunk` bytes.  Without input it waits
in `select`. -/
def urcStep (s : UrcState) (chunk : Nat) : Option UrcState := do
  let (line, channel) ← getline s.channel
  match line with
  | some line => some ⟨channel, s.input, s.returned ++ [line]⟩
  | none =>
      if chunk = 0 ∨ s.input = [] then none
      else do
        let (channel, input) ← read2buffer channel s.input chunk
        some ⟨channel, input, s.returned⟩

/-- The agent in front of a stream; `atch_set2buffer` clears the buffer. -/
def urcMachine (stream : List StreamLine) : Machine UrcState Nat where
  init := ⟨⟨fun _ => 0, 0⟩, streamBytes stream, []⟩
  step := urcStep

/-- There is input, but every call returns without a line and leaves all as it is. -/
def Spinning (s : UrcState) : Prop :=
  s.input ≠ [] ∧ ∀ chunk, 0 < chunk → urcStep s chunk = some s

/-- What is asked of the agent in front of a stream. -/
structure UrcFramed (stream : List StreamLine) (s : UrcState) : Prop where
  offset_le : s.channel.bufferOffset ≤ urcBufferLen
  noFault : ∃ res, getline s.channel = some res
  returned : nonEmpty (s.returned.map strip) <+: nonEmpty (stream.map StreamLine.content)
  complete : s.input = [] → getline s.channel = some (none, s.channel) →
    nonEmpty (s.returned.map strip) = nonEmpty (stream.map StreamLine.content)
  consumes : ¬ Spinning s

/-! ## The buffer -/

/-- The buffer holds a text, and nothing else. -/
structure Holds (ch : Channel) (txt : List UInt8) : Prop where
  str : Str ch.buffer urcBufferSize 0 txt
  offset_eq : ch.bufferOffset = txt.length

theorem Holds.length_le {ch : Channel} {txt : List UInt8} (h : Holds ch txt) :
    txt.length ≤ urcBufferLen := by
  have hlt := h.str.add_length_lt
  rw [urcBufferLen]
  omega

/-- A line is taken off the front. -/
theorem takeLine_spec {ch : Channel} {a b : List UInt8} {c : UInt8}
    (h : Holds ch (a ++ c :: b)) :
    ∃ ch', takeLine ch a.length = some (a ++ [c], ch') ∧ Holds ch' b := by
  obtain ⟨hstr, hoffset⟩ := h
  have hlt := hstr.add_length_lt
  have hassoc : a ++ c :: b = (a ++ [c]) ++ b := by rw [List.append_assoc]; rfl
  rw [hassoc] at hstr
  rw [List.length_append, List.length_cons] at hlt hoffset
  have hlen : 0 + (a ++ [c]).length = a.length + 1 := by
    rw [List.length_append, List.length_singleton, Nat.zero_add]
  have hcut : strAt (Function.update ch.buffer (a.length + 1) 0) urcBufferSize 0 =
      some (a ++ [c]) := by
    have htrunc := hstr.truncate
    rw [hlen] at htrunc
    exact strAt_str htrunc
  have hrest : Str ch.buffer urcBufferSize (a.length + 1) b := by
    have hdrop := hstr.drop
    rwa [hlen] at hdrop
  have hrestore : Function.update (Function.update ch.buffer (a.length + 1) 0) (a.length + 1)
      (ch.buffer (a.length + 1)) = ch.buffer := by
    rw [Function.update_idem, Function.update_eq_self]
  have hleft : ch.bufferOffset - (a.length + 1) = b.length := by omega
  have hmove : (if 0 < b.length then blit ch.buffer 0 (slice ch.buffer (a.length + 1) b.length)
      else ch.buffer) = blit ch.buffer 0 (slice ch.buffer (a.length + 1) b.length) := by
    split
    · rfl
    · rename_i hzero
      rw [Nat.eq_zero_of_not_pos hzero, slice, List.range_zero, List.map_nil, blit_nil]
  unfold takeLine
  simp only [load_of_lt (show a.length + 1 < urcBufferSize by omega),
    store_of_lt (show a.length + 1 < urcBufferSize by omega), hcut, hrestore, bind,
    Option.bind_some, hleft, hmove, store_of_lt (show b.length < urcBufferSize by omega)]
  rw [if_neg (by omega)]
  exact ⟨_, rfl, hrest.shift, rfl⟩

/-- How `atch_getline` cuts a text. -/
inductive Cuts : List UInt8 → Option (List UInt8 × List UInt8) → Prop where
  | lf {a b : List UInt8} (h : chLf ∉ a) : Cuts (a ++ chLf :: b) (some (a ++ [chLf], b))
  | cr {a b : List UInt8} (hlf : chLf ∉ a ++ chCr :: b) (h : chCr ∉ a) :
      Cuts (a ++ chCr :: b) (some (a ++ [chCr], b))
  | none {txt : List UInt8} (hlf : chLf ∉ txt) (hcr : chCr ∉ txt) : Cuts txt none

theorem exists_cuts (txt : List UInt8) : ∃ res, Cuts txt res := by
  by_cases hlf : chLf ∈ txt
  · obtain ⟨a, b, rfl, ha⟩ := List.eq_append_cons_of_mem hlf
    exact ⟨_, .lf ha⟩
  · by_cases hcr : chCr ∈ txt
    · obtain ⟨a, b, rfl, ha⟩ := List.eq_append_cons_of_mem hcr
      exact ⟨_, .cr hlf ha⟩
    · exact ⟨_, .none hlf hcr⟩

/-- Taking a line off the buffer never fails. -/
theorem getline_spec {ch : Channel} {txt : List UInt8} {res : Option (List UInt8 × List UInt8)}
    (h : Holds ch txt) (hcuts : Cuts txt res) :
    ∃ ch', getline ch = some (res.map Prod.fst, ch') ∧ Holds ch' ((res.map Prod.snd).getD txt) ∧
      (res = none → ch' = ch) := by
  have hload : load ch.buffer urcBufferSize 0 = some (ch.buffer 0) := load_of_lt h.str.lt
  have hne : ∀ {a b : List UInt8} {c : UInt8}, txt = a ++ c :: b → ch.buffer 0 ≠ 0 := by
    rintro a b c rfl hzero
    have hnil := h.str.eq_zero_iff.mp hzero
    cases a with
    | nil => cases hnil
    | cons d a => cases hnil
  unfold getline
  simp only [hload, bind, Option.bind_some]
  cases hcuts with
  | lf ha =>
    obtain ⟨ch', htake, hholds⟩ := takeLine_spec h
    have hfind := strchrAt_cons ha h.str
    rw [Nat.zero_add] at hfind
    simp only [if_neg (hne rfl), hfind, Option.bind_some, htake]
    exact ⟨ch', rfl, hholds, nofun⟩
  | cr hlf ha =>
    obtain ⟨ch', htake, hholds⟩ := takeLine_spec h
    have hfind := strchrAt_cons ha h.str
    rw [Nat.zero_add] at hfind
    simp only [if_neg (hne rfl), strchrAt_none hlf (by decide) h.str, hfind, Option.bind_some,
      htake]
    exact ⟨ch', rfl, hholds, nofun⟩
  | none hlf hcr =>
    refine ⟨ch, ?_, h, fun _ => rfl⟩
    split
    · rfl
    · simp only [strchrAt_none hlf (by decide) h.str, strchrAt_none hcr (by decide) h.str,
        Option.bind_some]
      rfl

/-- How many bytes are read. -/
def readLength (txt input : List UInt8) (chunk : Nat) : Nat :=
  min (min chunk input.length) (urcBufferLen - txt.length)

/-- What is read is appended. -/
theorem read2buffer_spec {ch : Channel} {txt input : List UInt8} (h : Holds ch txt)
    (hinput : 0 ∉ input) (chunk : Nat) :
    ∃ ch', read2buffer ch input chunk = some (ch', input.drop (readLength txt input chunk)) ∧
      Holds ch' (txt ++ input.take (readLength txt input chunk)) ∧
      (readLength txt input chunk = 0 → ch' = ch) := by
  have hle := h.length_le
  have hdata : (input.take chunk).take (urcBufferLen - ch.bufferOffset) =
      input.take (readLength txt input chunk) := by
    rw [List.take_take, h.offset_eq, readLength, List.take_eq_take_iff]
    omega
  have hlen : (input.take (readLength txt input chunk)).length = readLength txt input chunk := by
    rw [List.length_take, readLength]
    omega
  unfold read2buffer
  rw [if_neg (by rw [h.offset_eq]; omega)]
  simp only [hdata]
  split
  · rename_i hnil
    have hzero : readLength txt input chunk = 0 := by rw [← hlen, hnil, List.length_nil]
    rw [hzero, List.drop_zero, List.take_zero, List.append_nil]
    exact ⟨ch, rfl, h, fun _ => rfl⟩
  · rename_i hne
    have hnew : 0 ∉ input.take (readLength txt input chunk) :=
      fun hz => hinput (List.mem_of_mem_take hz)
    have happend := h.str.append hnew (by
        rw [hlen, readLength, urcBufferLen]
        rw [urcBufferLen] at hle
        have : 0 < urcBufferSize := by decide
        omega)
    rw [Nat.zero_add] at happend
    rw [store_of_lt (by
      rw [h.offset_eq, hlen, readLength, urcBufferLen]
      rw [urcBufferLen] at hle
      have : 0 < urcBufferSize := by decide
      omega)]
    simp only [bind, Option.bind_some, hlen]
    refine ⟨_, rfl, ⟨?_, ?_⟩, fun hzero => ?_⟩
    · rw [hlen] at happend
      rw [h.offset_eq]
      exact happend
    · rw [List.length_append, hlen, h.offset_eq]
    · rw [hzero, List.take_zero] at hne
      exact absurd rfl hne

/-! ## The lines of the stream -/

theorem streamBytes_cons (line : StreamLine) (rest : List StreamLine) :
    streamBytes (line :: rest) = line.content ++ chCr :: chLf :: streamBytes rest := by
  rw [streamBytes, List.flatMap_cons, List.append_assoc]
  rfl

theorem zero_notMem_streamBytes (stream : List StreamLine) : 0 ∉ streamBytes stream := by
  rw [streamBytes, List.mem_flatMap]
  rintro ⟨line, -, hzero⟩
  rcases List.mem_append.mp hzero with hzero | hzero
  · exact line.zero_notMem hzero
  · revert hzero
    decide

/-- Where a separator stands first is determined. -/
theorem first_unique {c : UInt8} {a a' b b' : List UInt8} (ha : c ∉ a) (ha' : c ∉ a')
    (h : a ++ c :: b = a' ++ c :: b') : a = a' ∧ b = b' := by
  induction a generalizing a' with
  | nil =>
    cases a' with
    | nil => exact ⟨rfl, (List.cons.inj h).2⟩
    | cons d a' => exact absurd ((List.cons.inj h).1 ▸ List.mem_cons_self) ha'
  | cons d a ih =>
    cases a' with
    | nil => exact absurd ((List.cons.inj h).1 ▸ List.mem_cons_self) ha
    | cons d' a' =>
      obtain ⟨hd, htail⟩ := List.cons.inj h
      obtain ⟨heq, hb⟩ := ih (fun hc => ha (List.mem_cons_of_mem d hc))
        (fun hc => ha' (List.mem_cons_of_mem d' hc)) htail
      exact ⟨by rw [hd, heq], hb⟩

/-- What is left is the rest of the stream, perhaps behind the `\n` of a line that has been cut at
its `\r`. -/
def Remains (bytes : List UInt8) (rest : List StreamLine) : Prop :=
  bytes = streamBytes rest ∨ bytes = chLf :: streamBytes rest

theorem strip_content (line : StreamLine) (tail : List UInt8) (htail : strip tail = []) :
    strip (line.content ++ tail) = line.content := by
  rw [strip, List.filter_append]
  change _ ++ strip tail = _
  rw [htail, List.append_nil, List.filter_eq_self]
  intro b hb
  rw [decide_eq_true_eq]
  constructor
  · rintro rfl
    exact line.cr_notMem hb
  · rintro rfl
    exact line.lf_notMem hb

theorem Cuts.some_inv {txt line left : List UInt8} (h : Cuts txt (some (line, left))) :
    ∃ a c, txt = a ++ c :: left ∧ line = a ++ [c] ∧
      (c = chLf ∧ chLf ∉ a ∨ c = chCr ∧ chLf ∉ txt ∧ chCr ∉ a) := by
  generalize hres : some (line, left) = res at h
  cases h with
  | lf ha =>
    cases hres
    exact ⟨_, _, rfl, rfl, .inl ⟨rfl, ha⟩⟩
  | cr hlf ha =>
    cases hres
    exact ⟨_, _, rfl, rfl, .inr ⟨rfl, hlf, ha⟩⟩
  | none hlf hcr => cases hres

/-- A line that is taken off is the next line of the stream, or empty. -/
theorem Remains.cut {txt input line left : List UInt8} {rest : List StreamLine}
    (h : Remains (txt ++ input) rest) (hcuts : Cuts txt (some (line, left))) :
    (strip line = [] ∧ Remains (left ++ input) rest) ∨
      ∃ next rest', rest = next :: rest' ∧ strip line = next.content ∧
        next.content.length < txt.length ∧ Remains (left ++ input) rest' := by
  obtain ⟨a, c, rfl, rfl, hc⟩ := hcuts.some_inv
  rw [List.append_assoc, List.cons_append] at h
  rcases h with h | h
  · right
    cases rest with
    | nil => exact absurd (List.append_eq_nil_iff.mp h).2 (List.cons_ne_nil _ _)
    | cons next rest' =>
      rw [streamBytes_cons] at h
      refine ⟨next, rest', rfl, ?_⟩
      rcases hc with ⟨rfl, ha⟩ | ⟨rfl, -, ha⟩
      · -- the line is cut behind its `\n`
        have hfront : chLf ∉ next.content ++ [chCr] := by
          rw [List.mem_append]
          rintro (hlf | hlf)
          · exact next.lf_notMem hlf
          · revert hlf
            decide
        have heq : a ++ chLf :: (left ++ input) =
            (next.content ++ [chCr]) ++ chLf :: streamBytes rest' := by
          rw [h, List.append_assoc]
          rfl
        obtain ⟨rfl, hleft⟩ := first_unique ha hfront heq
        refine ⟨?_, ?_, .inl hleft⟩
        · rw [List.append_assoc]
          exact strip_content next _ (by decide)
        · rw [List.length_append, List.length_append, List.length_singleton]
          omega
      · obtain ⟨rfl, hleft⟩ := first_unique ha next.cr_notMem h
        refine ⟨strip_content next _ (by decide), ?_, .inr hleft⟩
        rw [List.length_append, List.length_cons]
        omega
  · left
    rcases hc with ⟨rfl, ha⟩ | ⟨rfl, hlf, ha⟩
    · obtain ⟨rfl, hleft⟩ := first_unique ha (List.not_mem_nil) h
      exact ⟨by decide, .inl hleft⟩
    · cases a with
      | nil => exact absurd (List.cons.inj h).1 (by decide)
      | cons d a =>
        have hd : d = chLf := (List.cons.inj h).1
        exact absurd (hd ▸ List.mem_cons_self) hlf

/-- Without an end of line in the buffer it holds the beginning of a line. -/
theorem Remains.no_end {txt input : List UInt8} {rest : List StreamLine}
    (h : Remains (txt ++ input) rest) (hlf : chLf ∉ txt) (hcr : chCr ∉ txt) :
    txt = [] ∨ ∃ next rest', rest = next :: rest' ∧ txt.length ≤ next.content.length := by
  rcases h with h | h
  · cases rest with
    | nil => exact .inl (List.append_eq_nil_iff.mp h).1
    | cons next rest' =>
      refine .inr ⟨next, rest', rfl, Nat.le_of_not_lt fun hlt => hcr ?_⟩
      rw [streamBytes_cons] at h
      have hget := congrArg (·[next.content.length]?) h
      simp only [List.getElem?_append_left hlt, List.getElem?_append_right (Nat.le_refl _),
        Nat.sub_self, List.getElem?_cons_zero] at hget
      exact List.mem_of_getElem? hget
  · cases txt with
    | nil => exact .inl rfl
    | cons d txt =>
      have hd : d = chLf := (List.cons.inj h).1
      exact absurd (hd ▸ List.mem_cons_self) hlf

/-- The end of the stream is reached with all its lines. -/
theorem Remains.done {txt : List UInt8} {rest : List StreamLine} (h : Remains (txt ++ []) rest)
    (hlf : chLf ∉ txt) (hcr : chCr ∉ txt) : rest = [] := by
  rw [List.append_nil] at h
  rcases h with h | h
  · cases rest with
    | nil => rfl
    | cons next rest' =>
      rw [h, streamBytes_cons] at hcr
      exact absurd (List.mem_append_right _ List.mem_cons_self) hcr
  · rw [h] at hlf
    exact absurd List.mem_cons_self hlf

theorem Remains.zero_notMem {bytes : List UInt8} {rest : List StreamLine} (h : Remains bytes rest) :
    0 ∉ bytes := by
  rcases h with rfl | rfl
  · exact zero_notMem_streamBytes rest
  · rw [List.mem_cons]
    rintro (hzero | hzero)
    · revert hzero
      decide
    · exact zero_notMem_streamBytes rest hzero

/-! ## The invariant -/

/-- The buffer and the input are what is left of the stream. -/
structure UrcInv (stream : List StreamLine) (s : UrcState) (txt : List UInt8)
    (rest : List StreamLine) : Prop where
  holds : Holds s.channel txt
  remains : Remains (txt ++ s.input) rest
  mem_stream : ∀ line ∈ rest, line ∈ stream
  returned : nonEmpty (s.returned.map strip) ++ nonEmpty (rest.map StreamLine.content) =
    nonEmpty (stream.map StreamLine.content)
  short : ∀ line ∈ nonEmpty (s.returned.map strip), line.length < urcBufferLen

theorem urcInv_init (stream : List StreamLine) :
    UrcInv stream (urcMachine stream).init [] stream where
  holds := ⟨⟨by decide, rfl⟩, rfl⟩
  remains := .inl rfl
  mem_stream _ h := h
  returned := rfl
  short := nofun

/-- What a turn does to a state of the invariant. -/
inductive Turn (stream : List StreamLine) (s : UrcState) (txt : List UInt8) (chunk : Nat) :
    Option UrcState → Prop where
  | line {line left : List UInt8} {ch : Channel} {rest : List StreamLine}
      (hcuts : Cuts txt (some (line, left)))
      (hinv : UrcInv stream ⟨ch, s.input, s.returned ++ [line]⟩ left rest) :
      Turn stream s txt chunk (some ⟨ch, s.input, s.returned ++ [line]⟩)
  | wait (hcuts : Cuts txt none) (hwait : chunk = 0 ∨ s.input = []) : Turn stream s txt chunk none
  | read {ch : Channel} {rest : List StreamLine} (hcuts : Cuts txt none) (hchunk : chunk ≠ 0)
      (hinput : s.input ≠ [])
      (hinv : UrcInv stream ⟨ch, s.input.drop (readLength txt s.input chunk), s.returned⟩
        (txt ++ s.input.take (readLength txt s.input chunk)) rest)
      (hzero : readLength txt s.input chunk = 0 → ch = s.channel) :
      Turn stream s txt chunk
        (some ⟨ch, s.input.drop (readLength txt s.input chunk), s.returned⟩)

theorem nonEmpty_append (a b : List (List UInt8)) : nonEmpty (a ++ b) = nonEmpty a ++ nonEmpty b :=
  List.filter_append a b

theorem urcStep_spec {stream rest : List StreamLine} {s : UrcState} {txt : List UInt8}
    (h : UrcInv stream s txt rest) (chunk : Nat) : Turn stream s txt chunk (urcStep s chunk) := by
  obtain ⟨res, hcuts⟩ := exists_cuts txt
  obtain ⟨ch, hget, hholds, hsame⟩ := getline_spec h.holds hcuts
  unfold urcStep
  cases res with
  | none =>
    obtain rfl := hsame rfl
    simp only [hget, Option.map_none, bind, Option.bind_some]
    split
    · rename_i hwait
      exact .wait hcuts hwait
    · rename_i hgo
      obtain ⟨hchunk, hinput⟩ := not_or.mp hgo
      have hzero : 0 ∉ s.input := fun hz => h.remains.zero_notMem (List.mem_append_right _ hz)
      obtain ⟨ch, hread, hholds, hsame⟩ := read2buffer_spec h.holds hzero chunk
      simp only [hread, Option.bind_some]
      refine .read hcuts hchunk hinput ⟨hholds, ?_, h.mem_stream, h.returned, h.short⟩ hsame
      rw [List.append_assoc, List.take_append_drop]
      exact h.remains
  | some cut =>
    obtain ⟨line, left⟩ := cut
    simp only [hget, Option.map_some, bind, Option.bind_some]
    rcases h.remains.cut hcuts with ⟨hempty, hremains⟩ | ⟨next, rest', rfl, hline, hlt, hremains⟩
    · have hreturned : nonEmpty ((s.returned ++ [line]).map strip) =
          nonEmpty (s.returned.map strip) := by
        rw [List.map_append, nonEmpty_append, List.map_singleton, hempty]
        exact List.append_nil _
      exact .line hcuts ⟨hholds, hremains, h.mem_stream, by rw [hreturned]; exact h.returned,
        by rw [hreturned]; exact h.short⟩
    · have hreturned : nonEmpty ((s.returned ++ [line]).map strip) =
          nonEmpty (s.returned.map strip) ++ nonEmpty [next.content] := by
        rw [List.map_append, nonEmpty_append, List.map_singleton, hline]
      refine .line hcuts ⟨hholds, hremains, fun l hl => h.mem_stream l (List.mem_cons_of_mem _ hl),
        ?_, ?_⟩
      · rw [hreturned, List.append_assoc, ← nonEmpty_append]
        exact h.returned
      · rw [hreturned]
        intro l hl
        rcases List.mem_append.mp hl with hl | hl
        · exact h.short l hl
        · obtain rfl := List.mem_singleton.mp (List.mem_of_mem_filter hl)
          exact Nat.lt_of_lt_of_le hlt h.holds.length_le

/-! ## Runs -/

/-- There is a stream left whose invariant the state meets. -/
def UrcOk (stream : List StreamLine) (s : UrcState) : Prop := ∃ txt rest, UrcInv stream s txt rest

theorem urcOk_step {stream : List StreamLine} {s s' : UrcState} {chunk : Nat}
    (h : UrcOk stream s) (hstep : urcStep s chunk = some s') : UrcOk stream s' := by
  obtain ⟨txt, rest, h⟩ := h
  have hturn := urcStep_spec h chunk
  rw [hstep] at hturn
  generalize hs' : some s' = res at hturn
  cases hturn with
  | line hcuts hinv =>
    cases hs'
    exact ⟨_, _, hinv⟩
  | wait hcuts hwait => cases hs'
  | read hcuts hchunk hinput hinv hzero =>
    cases hs'
    exact ⟨_, _, hinv⟩

/-- A state that spins has a full buffer without an end of line. -/
theorem full_of_spinning {stream rest : List StreamLine} {s : UrcState} {txt : List UInt8}
    (h : UrcInv stream s txt rest) (hspin : Spinning s) :
    Cuts txt none ∧ txt.length = urcBufferLen := by
  obtain ⟨hinput, hspin⟩ := hspin
  have hturn := urcStep_spec h 1
  rw [hspin 1 Nat.one_pos] at hturn
  generalize hs : some s = res at hturn
  cases hturn with
  | line hcuts hinv =>
    have hlen := congrArg (fun t => t.returned.length) (Option.some.inj hs)
    simp only [List.length_append, List.length_singleton] at hlen
    omega
  | wait hcuts hwait => cases hs
  | read hcuts hchunk hne hinv hzero =>
    have hlen := congrArg (fun t => t.input.length) (Option.some.inj hs)
    have hpos := List.length_pos_iff.mpr hinput
    have hle := h.holds.length_le
    simp only [List.length_drop, readLength] at hlen
    exact ⟨hcuts, by omega⟩

/-- Without such a line the agent does what is asked of it. -/
theorem UrcInv.framed {stream rest : List StreamLine} {s : UrcState} {txt : List UInt8}
    (h : UrcInv stream s txt rest)
    (hlength : ∀ line ∈ stream, line.content.length < urcBufferLen) : UrcFramed stream s where
  offset_le := by
    rw [h.holds.offset_eq]
    exact h.holds.length_le
  noFault := by
    obtain ⟨res, hcuts⟩ := exists_cuts txt
    obtain ⟨ch, hget, -⟩ := getline_spec h.holds hcuts
    exact ⟨_, hget⟩
  returned := ⟨_, h.returned⟩
  complete hinput hnone := by
    obtain ⟨res, hcuts⟩ := exists_cuts txt
    obtain ⟨ch, hget, -⟩ := getline_spec h.holds hcuts
    rw [hnone] at hget
    cases hcuts with
    | lf ha => cases hget
    | cr hlf ha => cases hget
    | none hlf hcr =>
      have hremains := h.remains
      rw [hinput] at hremains
      obtain rfl := hremains.done hlf hcr
      exact (List.append_nil _).symm.trans h.returned
  consumes hspin := by
    obtain ⟨hcuts, hfull⟩ := full_of_spinning h hspin
    generalize hres : (none : Option (List UInt8 × List UInt8)) = res at hcuts
    cases hcuts with
    | lf ha => cases hres
    | cr hlf ha => cases hres
    | none hlf hcr =>
      rcases h.remains.no_end hlf hcr with rfl | ⟨next, rest', rfl, hle⟩
      · revert hfull
        decide
      · have hlt := hlength next (h.mem_stream next List.mem_cons_self)
        omega

/-- All is read, and no line is left in the buffer. -/
def Drained (s : UrcState) : Prop :=
  s.input = [] ∧ getline s.channel = some (none, s.channel)

/-- The bytes that a state has still to handle; those that are not read yet count twice. -/
def urcMeasure (s : UrcState) : Nat := 2 * s.input.length + s.channel.bufferOffset

/-- Reading into a full buffer changes nothing. -/
theorem spinning_of_full {stream rest : List StreamLine} {s : UrcState} {txt : List UInt8}
    (h : UrcInv stream s txt rest) (hcuts : Cuts txt none) (hinput : s.input ≠ [])
    (hfull : urcBufferLen ≤ txt.length) : Spinning s := by
  refine ⟨hinput, fun chunk hchunk => ?_⟩
  obtain ⟨ch, hget, -, hsame⟩ := getline_spec h.holds hcuts
  obtain rfl := hsame rfl
  have hzero : 0 ∉ s.input := fun hz => h.remains.zero_notMem (List.mem_append_right _ hz)
  obtain ⟨ch, hread, -, hsame⟩ := read2buffer_spec h.holds hzero chunk
  have hnone : readLength txt s.input chunk = 0 := by
    rw [readLength]
    omega
  obtain rfl := hsame hnone
  rw [hnone, List.drop_zero] at hread
  unfold urcStep
  simp only [hget, Option.map_none, bind, Option.bind_some, hread,
    if_neg (not_or.mpr ⟨Nat.ne_of_gt hchunk, hinput⟩)]

/-- As long as the agent does not spin, each turn gets nearer to the end of the stream. -/
theorem urcStep_progress {stream : List StreamLine} {s : UrcState} (h : UrcOk stream s)
    (hdrained : ¬ Drained s) (hspin : ¬ Spinning s) :
    ∃ s', urcStep s 1 = some s' ∧ UrcOk stream s' ∧ urcMeasure s' < urcMeasure s := by
  obtain ⟨txt, rest, h⟩ := h
  have hturn := urcStep_spec h 1
  have hoffset := h.holds.offset_eq
  generalize urcStep s 1 = res at hturn
  cases hturn with
  | line hcuts hinv =>
    refine ⟨_, rfl, ⟨_, _, hinv⟩, ?_⟩
    obtain ⟨a, c, rfl, -, -⟩ := hcuts.some_inv
    have hleft := hinv.holds.offset_eq
    rw [List.length_append, List.length_cons] at hoffset
    simp only [urcMeasure] at hleft ⊢
    omega
  | wait hcuts hwait =>
    obtain ⟨ch, hget, -, hsame⟩ := getline_spec h.holds hcuts
    obtain rfl := hsame rfl
    exact absurd ⟨hwait.resolve_left Nat.one_ne_zero, hget⟩ hdrained
  | read hcuts hchunk hinput hinv hzero =>
    refine ⟨_, rfl, ⟨_, _, hinv⟩, ?_⟩
    have hroom : ¬ urcBufferLen ≤ txt.length :=
      fun hfull => hspin (spinning_of_full h hcuts hinput hfull)
    have hpos := List.length_pos_iff.mpr hinput
    have hnew := hinv.holds.offset_eq
    simp only [List.length_append, List.length_take, readLength] at hnew
    simp only [urcMeasure, List.length_drop, readLength]
    omega

theorem urcOk_init (stream : List StreamLine) : UrcOk stream (urcMachine stream).init :=
  ⟨[], stream, urcInv_init stream⟩

/-- Reading one byte at a time the agent gets to the end of the stream, unless it spins. -/
theorem exists_drained (stream : List StreamLine) :
    ∃ n, (urcMachine stream).Meets (fun s chunk => 0 < chunk → ¬ Spinning s)
        (urcMachine stream).init (List.replicate n 1) →
      ∃ m ≤ n, ∃ s, (urcMachine stream).run (urcMachine stream).init (List.replicate m 1) = some s ∧
        Drained s :=
  (urcMachine stream).done_of_decreases Nat.lt_wfRel.wf
    (fun _ hs hdone hspin => urcStep_progress hs hdone (hspin Nat.one_pos)) (urcOk_init stream)

/-- A line that the agent gets hold of fits into the buffer. -/
theorem length_lt_of_framed {stream : List StreamLine}
    (hall : ∀ chunks,
      (urcMachine stream).Along (UrcFramed stream) (urcMachine stream).init chunks)
    {line : StreamLine} (hline : line ∈ stream) : line.content.length < urcBufferLen := by
  obtain ⟨n, hn⟩ := exists_drained stream
  obtain ⟨m, -, s, hrun, hdrained⟩ := hn <| by
    refine (urcMachine stream).meets_of_along (fun s chunk hc => ?_) (hall _)
    obtain ⟨hchunk, hspin⟩ := Classical.not_imp.mp hc
    exact ⟨s, (not_not.mp hspin).2 chunk hchunk, fun hframed => hspin hframed.consumes⟩
  have hcomplete := ((hall _).last _ hrun).complete hdrained.1 hdrained.2
  obtain ⟨txt, rest, h⟩ :=
    (urcMachine stream).invariant (fun s chunk s' hs hstep => urcOk_step hs hstep)
      (urcOk_init stream) hrun
  by_contra hlong
  have hpos : 0 < urcBufferLen := by decide
  have hne : line.content ≠ [] := List.ne_nil_of_length_pos (by omega)
  have hmem : line.content ∈ nonEmpty (stream.map StreamLine.content) :=
    List.mem_filter.mpr ⟨List.mem_map_of_mem hline, decide_eq_true hne⟩
  exact hlong (h.short _ (hcomplete ▸ hmem))

/-- The lines come out of the channel as they were sent, however the reads cut the stream, exactly
when each fits into the buffer with the first byte of its end. -/
theorem framed_iff (stream : List StreamLine) :
    (∀ chunks, (urcMachine stream).Along (UrcFramed stream) (urcMachine stream).init chunks) ↔
      ∀ line ∈ stream, line.content.length < urcBufferLen := by
  constructor
  · intro hall line hline
    exact length_lt_of_framed hall hline
  · intro hlength chunks
    refine (urcMachine stream).along_of_invariant (fun s chunk s' hs hstep => urcOk_step hs hstep)
      (fun s hs => ?_) (urcOk_init stream) chunks
    obtain ⟨txt, rest, h⟩ := hs
    exact h.framed hlength

/-- A line of 4095 characters. -/
def longLine : StreamLine where
  content := List.replicate urcBufferLen 0x41
  zero_notMem h := absurd (List.eq_of_mem_replicate h) (by decide)
  cr_notMem h := absurd (List.eq_of_mem_replicate h) (by decide)
  lf_notMem h := absurd (List.eq_of_mem_replicate h) (by decide)

/-- The agent does not get past a line that fills the buffer. -/
theorem longLine_spins : ¬ ∀ chunks,
    (urcMachine [longLine]).Along (UrcFramed [longLine]) (urcMachine [longLine]).init chunks := by
  intro hall
  have hlt := length_lt_of_framed hall (List.mem_singleton_self longLine)
  rw [longLine, List.length_replicate] at hlt
  exact Nat.lt_irrefl _ hlt

end MtkHw.NetAgent
