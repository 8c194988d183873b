import MtkHw.Lib.CString
import MtkHw.Lib.Loop

/-!
# Lines from the modem: `RfxReader::readline`

`readline` keeps what it has read from the tty in `m_aTBuffer` and a cursor in it.
A zero at the cursor means that everything has been consumed; else a string stands
there.  A line is handed out in place, its terminator overwritten by a zero.

Every access to the buffer is checked against its bounds, and so is the dump of what
was read, which builds that are not user builds make into an array of
`MAX_AT_RESPONSE` bytes, three characters a byte; a violation makes the function
fail (`none`).  The tty returns at most as many bytes as there is room for, and
keeps the rest for the next `read()`.
-/

namespace MtkHw.Rfx

open Lib Ring

/-- `MAX_AT_RESPONSE` -/
def maxAtResponse : Nat := 8 * 1024

/-- The size of `m_aTBuffer`. -/
def atBufferSize : Nat := maxAtResponse + 1

def chGreater : UInt8 := 0x3E
def chSpace : UInt8 := 0x20

/-- A carriage return or a newline. -/
def isEol (b : UInt8) : Bool := b == 0x0D || b == 0x0A

/-- What a `read()` on the tty finds. -/
inductive TtyEvent where
  | /-- Bytes, or none at the end of the file. -/ data (bytes : List UInt8)
  | /-- `EINTR` -/ interrupted
deriving DecidableEq, Repr

/-- The reader between two calls of `readline`. -/
structure ReaderState where
  /-- `m_aTBuffer` -/
  buffer : Nat → UInt8
  /-- `m_pATBufferCur`, from the start of the buffer. -/
  cur : Nat
  /-- What the coming `read()`s find; then the file ends. -/
  tty : List TtyEvent

/-- `cur[0] == '>' && cur[1] == ' ' && cur[2] == '\x00'` -/
def isPrompt (buffer : Nat → UInt8) (cur : Nat) : Option Bool := do
  let b0 ← load buffer atBufferSize cur
  if b0 ≠ chGreater then return false
  let b1 ← load buffer atBufferSize (cur + 1)
  if b1 ≠ chSpace then return false
  let b2 ← load buffer atBufferSize (cur + 2)
  return b2 == 0

/-- `findNextEOL` -/
def findNextEOL (buffer : Nat → UInt8) (cur : Nat) : Option (Option Nat) := do
  if ← isPrompt buffer cur then return some (cur + 2)
  let eol ← scan buffer atBufferSize (fun b => b ≠ 0 && !isEol b) cur
  let b ← load buffer atBufferSize eol
  return if b = 0 then none else some eol

/-- `while (*cur == '\r' || *cur == '\n') cur++;` -/
def skipNewlines (buffer : Nat → UInt8) (cur : Nat) : Option Nat :=
  scan buffer atBufferSize isEol cur

/-- The end of `readline`: the terminator is overwritten, and the line returned. -/
def finishLine (buffer : Nat → UInt8) (cur eol : Nat) (tty : List TtyEvent) :
    Option (Option (List UInt8) × ReaderState) := do
  let buffer ← store buffer atBufferSize eol 0
  let prompt ← isPrompt buffer cur
  let buffer ← if prompt then store buffer atBufferSize (eol + 1) 0 else some buffer
  let line ← strAt buffer atBufferSize cur
  return (some line, ⟨buffer, eol + 1, tty⟩)

/-- What `while (p_eol == NULL)` works on. -/
structure FillState where
  buffer : Nat → UInt8
  cur : Nat
  pRead : Nat
  tty : List TtyEvent

/-- A full buffer is ditched. -/
def FillState.ditch (s : FillState) : FillState :=
  if s.pRead = maxAtResponse then
    { s with buffer := Function.update s.buffer 0 0, cur := 0, pRead := 0 }
  else s

/-- The dump of `count` bytes writes past the end of its array. -/
def dumpOverflows (count : Nat) : Bool := 3 * count + 1 > maxAtResponse

/-- `read()`: at most `space` bytes, or none at the end of the file; `none` for `EINTR`.
What there is no room for is found by the next `read()`. -/
def readTty (space : Nat) : List TtyEvent → Option (List UInt8) × List TtyEvent
  | [] => (some [], [])
  | .interrupted :: tty => (none, tty)
  | .data bytes :: tty =>
      (some (bytes.take space),
        if bytes.length ≤ space then tty else .data (bytes.drop space) :: tty)

/-- Bytes have been read: the loop leaves when a line is complete. -/
def FillState.received (s : FillState) (bytes : List UInt8) (tty : List TtyEvent) :
    FillState ⊕ Option (Option (List UInt8) × ReaderState) :=
  let pRead := s.pRead + bytes.length
  let buffer := Function.update (blit s.buffer s.pRead bytes) pRead 0
  match skipNewlines buffer s.cur with
  | none => .inr none
  | some cur =>
      match findNextEOL buffer cur with
      | none => .inr none
      | some none => .inl ⟨buffer, cur, pRead, tty⟩
      | some (some eol) => .inr (finishLine buffer cur eol tty)

/-- A turn of the loop; `userLoad` is `RfxRilUtils::isUserLoad() == 1`. -/
def fillTurn (userLoad : Bool) (s : FillState) :
    FillState ⊕ Option (Option (List UInt8) × ReaderState) :=
  let s := s.ditch
  match readTty (maxAtResponse - s.pRead) s.tty with
  | (none, tty) => .inl { s with tty }
  | (some [], tty) => .inr (some (none, ⟨s.buffer, s.cur, tty⟩))
  | (some (b :: bytes), tty) =>
      if !userLoad && dumpOverflows (b :: bytes).length then .inr none
      else s.received (b :: bytes) tty

/-- A bound for the turns of the loop. -/
def ttySize : List TtyEvent → Nat
  | [] => 0
  | .data bytes :: tty => bytes.length + 1 + ttySize tty
  | .interrupted :: tty => 1 + ttySize tty

/-- The loop of `readline`. -/
def fill (userLoad : Bool) (s : FillState) : Option (Option (List UInt8) × ReaderState) :=
  (loop (fillTurn userLoad) (ttySize s.tty + 1) s).join

/-- `RfxReader::readline`: a line, or null when there is nothing more to read. -/
def readline (userLoad : Bool) (s : ReaderState) : Option (Option (List UInt8) × ReaderState) := do
  let b ← load s.buffer atBufferSize s.cur
  if b = 0 then
    fill userLoad ⟨Function.update s.buffer 0 0, 0, 0, s.tty⟩
  else
    let cur ← skipNewlines s.buffer s.cur
    match ← findNextEOL s.buffer cur with
    | some eol => finishLine s.buffer cur eol s.tty
    | none =>
        let stop ← scan s.buffer atBufferSize (· ≠ 0) cur
        let len := stop - cur
        fill userLoad ⟨blit s.buffer 0 (slice s.buffer cur (len + 1)), 0, len, s.tty⟩

/-- A result of `readline`. -/
inductive LineResult where
  | line (bytes : List UInt8)
  | /-- Null: the reader loop ends. -/ closed
  | /-- An access out of bounds. -/ crashed
deriving DecidableEq, Repr

/-- The first `n` results of `readline`. -/
def results (userLoad : Bool) : Nat → ReaderState → List LineResult
  | 0, _ => []
  | n + 1, s =>
      match readline userLoad s with
      | none => [.crashed]
      | some (none, _) => [.closed]
      | some (some line, s) => .line line :: results userLoad n s

/-- `readerLoop` starts with the cursor on the first byte of the buffer, whatever it
holds. -/
def ReaderState.start (buffer : Nat → UInt8) (tty : List TtyEvent) : ReaderState := ⟨buffer, 0, tty⟩

end MtkHw.Rfx
