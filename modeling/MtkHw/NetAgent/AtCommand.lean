import MtkHw.Lib.CString
import MtkHw.Lib.Machine

/-!
# The network agent: commands and their responses

`_atapi_execute_cmd` sends a command and reads the channel until a line is a final code or the time
is over.  What arrives is put together in `tmp_buffer` and handled line by line: lines that begin
with the expected prefix, and the final code, are copied to the buffer of the caller.

Here the peer answers commands that have been sent, and every byte that it sends carries the number
of the command that it answers.  A call begins, reads chunks of any size, and ends with a final
code, an error or a timeout; then the next one begins on the same channel.  The position in the
buffer of the caller advances by the length of a line whether it fits or not, and what has not been
read when a call ends is read by the next one.  `calls_report` is what holds as long as neither
matters.
-/

namespace MtkHw.NetAgent

open Lib Lib.Ring

/-! ## Final codes -/

/-- `AT_AT_FINALCODE_e`, as far as it is returned. -/
inductive AtFinalCode where
  | ok
  | connect
  | error
  | noCarrier
  | noAnswer
  | noDialtone
  | cme
  | cms
  | timeout
  | bufferFull
  | channelError
deriving DecidableEq, Repr

/-- The bytes of a literal. -/
def literal (txt : List Char) : List UInt8 := txt.map fun c => UInt8.ofNat c.toNat

def cmeError : List UInt8 := literal ['+', 'C', 'M', 'E', ' ', 'E', 'R', 'R', 'O', 'R', ':']
def cmsError : List UInt8 := literal ['+', 'C', 'M', 'S', ' ', 'E', 'R', 'R', 'O', 'R', ':']

/-- `final_code_list` -/
def finalCodeList : List (List UInt8 × AtFinalCode) :=
  [(literal ['O', 'K', '\r', '\n'], .ok),
    (literal ['E', 'R', 'R', 'O', 'R', '\r', '\n'], .error),
    (literal ['C', 'O', 'N', 'N', 'E', 'C', 'T', '\r', '\n'], .connect),
    (literal ['N', 'O', ' ', 'C', 'A', 'R', 'R', 'I', 'E', 'R', '\r', '\n'], .noCarrier),
    (literal ['N', 'O', ' ', 'A', 'N', 'S', 'W', 'E', 'R', '\r', '\n'], .noAnswer),
    (literal ['N', 'O', ' ', 'D', 'I', 'A', 'L', 'T', 'O', 'N', 'E', '\r', '\n'], .noDialtone),
    (cmeError, .cme), (cmsError, .cms)]

/-- `tolower` -/
def tolower (b : UInt8) : UInt8 := if 0x41 ≤ b ∧ b ≤ 0x5A then b + 0x20 else b

/-- `strncasecmp(txt, key, strlen(key)) == 0` -/
def hasKey (txt key : List UInt8) : Bool := (txt.take key.length).map tolower = key.map tolower

/-- `_atapi_check_final_code` -/
def checkFinalCode (line : List UInt8) : Option AtFinalCode :=
  let ptr := line.dropWhile fun b => b = 0x0D ∨ b = 0x20
  (finalCodeList.find? fun entry => hasKey ptr entry.1).map Prod.snd

/-! ## A call -/

/-- A byte of the peer, and the number of the command that it answers; zero when it answers none. -/
structure Octet where
  byte : UInt8
  command : Nat
deriving DecidableEq, Repr

def bytesOf (octets : List Octet) : List UInt8 := octets.map Octet.byte

/-- The size of `tmp_buffer`. -/
def maxAtResponseBuffer : Nat := 4096

/-- The variables of `_atapi_execute_cmd`. -/
structure AtCall where
  /-- `prefix`, or that there is none. -/
  key : Option (List UInt8)
  buffer : Nat → UInt8
  bufferLen : Nat
  bufferOffset : Nat
  /-- What `tmp_buffer` holds up to `tmp_buffer_offset`. -/
  tmp : List Octet
  isGetResponse : Bool
  /-- The lines that have been handled, which the code does not keep. -/
  lines : List (List Octet)

/-- The line up to the first `\n`, unless a zero stands in front of it, and what is left. -/
def nextLine (tmp : List Octet) : Option (List Octet × List Octet) :=
  let front := tmp.takeWhile fun o => o.byte ≠ 0x0A ∧ o.byte ≠ 0
  match tmp.dropWhile fun o => o.byte ≠ 0x0A ∧ o.byte ≠ 0 with
  | [] => none
  | o :: rest => if o.byte = 0x0A then some (front ++ [o], rest) else none

/-- The line begins with the prefix, or there is none. -/
def matchesKey (key : Option (List UInt8)) (line : List Octet) : Bool :=
  match key with
  | none => true
  | some key => hasKey (bytesOf line) key

/-- `+CME ERROR:` or `+CMS ERROR:` -/
def isErrorLine (line : List Octet) : Bool :=
  hasKey (bytesOf line) cmeError || hasKey (bytesOf line) cmsError

/-- `snprintf(buffer + offset, len - offset, "%s", txt)`; a negative length is no bound. -/
def snprintfTo (buffer : Nat → UInt8) (len offset : Nat) (txt : List UInt8) :
    Option (Nat → UInt8) :=
  if len < offset then none
  else if len = offset then some buffer
  else
    let txt := txt.take (len - offset - 1)
    some (Function.update (blit buffer offset txt) (offset + txt.length) 0)

/-- A turn of the loop over the lines: none is a write outside the buffer. -/
def handleLine (call : AtCall) (line : List Octet) : Option (AtCall × Option AtFinalCode) :=
  let update := matchesKey call.key line
  let isGetResponse := call.isGetResponse || !update && isErrorLine line
  let finalCode := if isGetResponse then checkFinalCode (bytesOf line) else none
  let call := { call with lines := call.lines ++ [line] }
  if update ∨ finalCode.isSome then do
    let buffer ← snprintfTo call.buffer call.bufferLen call.bufferOffset (bytesOf line)
    if line = [] then some ({ call with buffer := buffer }, some .bufferFull)
    else
      let bufferOffset := call.bufferOffset + line.length
      let buffer ← store buffer call.bufferLen bufferOffset 0
      some ({ call with buffer := buffer, bufferOffset := bufferOffset, isGetResponse := true },
        finalCode)
  else some ({ call with isGetResponse := isGetResponse }, none)

/-- The loop over the lines in `tmp_buffer`, of which every turn takes at least one byte. -/
def handleLines : Nat → AtCall → Option (AtCall × Option AtFinalCode)
  | 0, call => some (call, none)
  | fuel + 1, call =>
      match nextLine call.tmp with
      | none => some (call, none)
      | some (line, rest) => do
          let (call, finalCode) ← handleLine { call with tmp := rest } line
          match finalCode with
          | some code => some (call, some code)
          | none => handleLines fuel call

/-! ## The channel -/

/-- A call that has ended. -/
structure AtResult where
  command : Nat
  call : AtCall
  code : AtFinalCode

structure AtState where
  /-- How many commands have been sent. -/
  sent : Nat
  /-- What the peer has sent and nobody has read. -/
  pending : List Octet
  call : Option AtCall
  result : Option AtResult
  /-- Something has been written outside its buffer. -/
  fault : Bool

inductive AtLabel where
  /-- A caller sends a command, and hands over its buffer. -/
  | start (key : Option (List UInt8)) (buffer : Nat → UInt8) (bufferLen : Nat)
  /-- The peer sends a part of the answer to a command that it has got, or something else. -/
  | answer (command : Nat) (bytes : List UInt8)
  /-- The call reads at most so many bytes. -/
  | recv (count : Nat)
  /-- The time is over. -/
  | timeout
  /-- The channel fails, or is closed. -/
  | failure

/-- The call returns. -/
def AtState.finish (s : AtState) (call : AtCall) (code : AtFinalCode) : AtState :=
  { s with call := none, result := some ⟨s.sent, call, code⟩ }

/-- What `atch_recv` reads: the room in `tmp_buffer` bounds it. -/
def recvOctets (s : AtState) (call : AtCall) (count : Nat) : List Octet :=
  s.pending.take (min count (maxAtResponseBuffer - call.tmp.length - 1))

/-- Reading, and handling the lines that are complete. -/
def recvStep (s : AtState) (call : AtCall) (count : Nat) : Option AtState :=
  if maxAtResponseBuffer ≤ call.tmp.length + 1 then some (s.finish call .channelError)
  else if recvOctets s call count = [] then none
  else
    let octets := recvOctets s call count
    let s := { s with pending := s.pending.drop octets.length }
    let tmp := call.tmp ++ octets
    match handleLines tmp.length { call with tmp := tmp } with
    | none => some { s with call := none, fault := true }
    | some (call, none) => some { s with call := some call }
    | some (call, some code) => some (s.finish call code)

def atStep (s : AtState) : AtLabel → Option AtState
  | .start key buffer bufferLen =>
      match s.call with
      | some _ => none
      | none => some { s with
          sent := s.sent + 1
          call := some ⟨key, buffer, bufferLen, 0, [], key.isNone, []⟩ }
  | .answer command bytes =>
      if command < s.sent + 1 then
        some { s with pending := s.pending ++ bytes.map fun b => ⟨b, command⟩ }
      else none
  | .recv count =>
      match s.call with
      | none => none
      | some call => recvStep s call count
  | .timeout => s.call.map fun call => s.finish call .timeout
  | .failure => s.call.map fun call => s.finish call .channelError

/-- The agent on its channel; no command has been sent. -/
def atMachine : Machine AtState AtLabel where
  init := ⟨0, [], none, none, false⟩
  step := atStep

/-! ## What a call should report -/

/-- A `\n` ends the line, and there is no other and no zero in it. -/
def IsLine (line : List Octet) : Prop :=
  ∃ front o, line = front ++ [o] ∧ o.byte = 0x0A ∧ ∀ o ∈ front, o.byte ≠ 0x0A ∧ o.byte ≠ 0

/-- The response has begun with one of the lines, or without a prefix at once. -/
def hasResponse (key : Option (List UInt8)) (before : List (List Octet)) : Bool :=
  key.isNone || before.any fun line => matchesKey key line || isErrorLine line

/-- The final code that a line behind others is recognised as. -/
def finalOf (key : Option (List UInt8)) (before : List (List Octet)) (line : List Octet) :
    Option AtFinalCode :=
  if hasResponse key before || !matchesKey key line && isErrorLine line then
    checkFinalCode (bytesOf line)
  else none

/-- No line is recognised as a final code. -/
def NoFinal (key : Option (List UInt8)) (lines : List (List Octet)) : Prop :=
  ∀ before line rest, lines = before ++ line :: rest → finalOf key before line = none

/-- The octets of the lines that begin with the prefix. -/
def matched (key : Option (List UInt8)) (lines : List (List Octet)) : List Octet :=
  (lines.filter (matchesKey key)).flatten

/-- The octet answers the command or none. -/
def Octet.Answers (o : Octet) (command : Nat) : Prop := o.command = 0 ∨ o.command = command

instance (o : Octet) (command : Nat) : Decidable (o.Answers command) :=
  inferInstanceAs (Decidable (o.command = 0 ∨ o.command = command))

/-- The buffer of the caller is the string of the octets. -/
def AtCall.Copied (call : AtCall) (octets : List Octet) : Prop :=
  Str call.buffer call.bufferLen 0 (bytesOf octets)

/-- The call has ended with the first line that is recognised as a final code, and has copied the
lines that are accepted.  The final code is not the answer to another command. -/
structure ReportsFinal (r : AtResult) (before : List (List Octet)) (last : List Octet) : Prop where
  lines_eq : r.call.lines = before ++ [last]
  noFinal : NoFinal r.call.key before
  final : finalOf r.call.key before last = some r.code
  copied : r.call.Copied (matched r.call.key before ++ last)
  own : ∀ o ∈ last, o.Answers r.command

/-- The call has been given up before a final code. -/
structure ReportsFailure (r : AtResult) : Prop where
  code : r.code = .timeout ∨ r.code = .channelError
  noFinal : NoFinal r.call.key r.call.lines
  copied : r.call.Copied (matched r.call.key r.call.lines)

/-- Nothing is written outside the buffers, and a call that has ended reports its response. -/
structure AtOk (s : AtState) : Prop where
  noFault : s.fault = false
  tmp_lt : ∀ call, s.call = some call → call.tmp.length < maxAtResponseBuffer
  lines : ∀ r, s.result = some r → ∀ line ∈ r.call.lines, IsLine line
  reports : ∀ r, s.result = some r →
    (∃ before last, ReportsFinal r before last) ∨ ReportsFailure r

/-! ## When it does -/

/-- At most so many lines of what has been received. -/
def linesFrom : Nat → List Octet → List (List Octet)
  | 0, _ => []
  | fuel + 1, octets =>
      match nextLine octets with
      | none => []
      | some (line, rest) => line :: linesFrom fuel rest

/-- The lines of what has been received. -/
def linesOf (octets : List Octet) : List (List Octet) := linesFrom octets.length octets

/-- The lines that a call accepts, up to its final code. -/
def accepted (key : Option (List UInt8)) : List (List Octet) → List (List Octet) → List Octet
  | _, [] => []
  | before, line :: rest =>
      if (finalOf key before line).isSome then line
      else if matchesKey key line then line ++ accepted key (before ++ [line]) rest
      else accepted key (before ++ [line]) rest

/-- What the call has read. -/
def AtCall.received (call : AtCall) : List Octet := call.lines.flatten ++ call.tmp

/-- What is read answers the command of the call, and the lines that are accepted fit into the
buffer of the caller together with a zero. -/
def CleanRecv (s : AtState) (count : Nat) (call : AtCall) : Prop :=
  (∀ o ∈ recvOctets s call count, o.Answers s.sent) ∧
    (accepted call.key [] (linesOf (call.received ++ recvOctets s call count))).length <
      call.bufferLen

instance (s : AtState) (count : Nat) (call : AtCall) : Decidable (CleanRecv s count call) :=
  inferInstanceAs (Decidable (_ ∧ _))

/-- The caller hands over an empty string, and what is read is clean. -/
def Clean (s : AtState) : AtLabel → Prop
  | .start _ buffer bufferLen => 0 < bufferLen ∧ buffer 0 = 0
  | .recv count => ∀ call ∈ s.call, CleanRecv s count call
  | _ => True

instance (s : AtState) : (label : AtLabel) → Decidable (Clean s label)
  | .start _ buffer bufferLen => inferInstanceAs (Decidable (0 < bufferLen ∧ buffer 0 = 0))
  | .recv count => inferInstanceAs (Decidable (∀ call ∈ s.call, CleanRecv s count call))
  | .answer _ _ => isTrue trivial
  | .timeout => isTrue trivial
  | .failure => isTrue trivial

/-! ## Lines -/

section NextLine

variable {tmp line rest : List Octet}

/-- What the search for the end of a line finds. -/
theorem nextLine_eq_some (h : nextLine tmp = some (line, rest)) :
    IsLine line ∧ tmp = line ++ rest := by
  unfold nextLine at h
  have hsplit := List.takeWhile_append_dropWhile (p := fun o : Octet => o.byte ≠ 0x0A ∧ o.byte ≠ 0)
    (l := tmp)
  split at h
  · cases h
  · rename_i o rest' hdrop
    split at h
    · rename_i ho
      cases h
      refine ⟨⟨_, o, rfl, ho, fun o ho => by simpa using List.mem_takeWhile_imp ho⟩, ?_⟩
      rw [List.append_assoc, List.singleton_append, ← hdrop, hsplit]
    · cases h

theorem IsLine.nextLine_append (h : IsLine line) (rest : List Octet) :
    nextLine (line ++ rest) = some (line, rest) := by
  obtain ⟨front, o, rfl, ho, hfront⟩ := h
  have hgo : ∀ o ∈ front, decide (o.byte ≠ 0x0A ∧ o.byte ≠ 0) = true :=
    fun o ho => decide_eq_true (hfront o ho)
  have hstop : ¬ decide (o.byte ≠ 0x0A ∧ o.byte ≠ 0) = true := by
    rw [decide_eq_true_eq]
    exact fun hne => hne.1 ho
  have hdrop : (front ++ o :: rest).dropWhile (fun o => o.byte ≠ 0x0A ∧ o.byte ≠ 0) =
      o :: rest := by
    rw [List.dropWhile_append_of_pos hgo]
    exact List.dropWhile_cons_of_neg hstop
  have htake : (front ++ o :: rest).takeWhile (fun o => o.byte ≠ 0x0A ∧ o.byte ≠ 0) = front := by
    have hnil : (o :: rest).takeWhile (fun o => o.byte ≠ 0x0A ∧ o.byte ≠ 0) = [] :=
      List.takeWhile_cons_of_neg hstop
    rw [List.takeWhile_append_of_pos hgo, hnil, List.append_nil]
  unfold nextLine
  rw [List.append_assoc, List.singleton_append, hdrop, htake]
  exact if_pos ho

theorem IsLine.length_pos (h : IsLine line) : 0 < line.length := by
  obtain ⟨front, o, rfl, -⟩ := h
  rw [List.length_append]
  exact Nat.succ_pos _

/-- No zero is in a line. -/
theorem IsLine.zero_notMem (h : IsLine line) : 0 ∉ bytesOf line := by
  obtain ⟨front, o, rfl, ho, hfront⟩ := h
  intro hzero
  obtain ⟨x, hx, hbyte⟩ := List.mem_map.mp hzero
  rcases List.mem_append.mp hx with hx | hx
  · exact (hfront x hx).2 hbyte
  · obtain rfl := List.mem_singleton.mp hx
    rw [ho] at hbyte
    revert hbyte
    decide

end NextLine

/-- There are no more lines than octets. -/
theorem linesFrom_eq {tmp : List Octet} {fuel fuel' : Nat} (h : tmp.length ≤ fuel)
    (h' : tmp.length ≤ fuel') : linesFrom fuel tmp = linesFrom fuel' tmp := by
  induction fuel generalizing tmp fuel' with
  | zero =>
    obtain rfl := List.length_eq_zero_iff.mp (Nat.le_zero.mp h)
    cases fuel' with
    | zero => rfl
    | succ fuel' => rfl
  | succ fuel ih =>
    cases fuel' with
    | zero =>
      obtain rfl := List.length_eq_zero_iff.mp (Nat.le_zero.mp h')
      rfl
    | succ fuel' =>
      rw [linesFrom, linesFrom]
      cases hnext : nextLine tmp with
      | none => rfl
      | some cut =>
        obtain ⟨line, rest⟩ := cut
        obtain ⟨hline, rfl⟩ := nextLine_eq_some hnext
        have hpos := hline.length_pos
        rw [List.length_append] at h h'
        simp only [ih (show rest.length ≤ fuel by omega) (show rest.length ≤ fuel' by omega)]

/-- Lines in front of the received octets are lines of them. -/
theorem linesOf_append {lines : List (List Octet)} (hlines : ∀ line ∈ lines, IsLine line)
    (tmp : List Octet) : linesOf (lines.flatten ++ tmp) = lines ++ linesOf tmp := by
  induction lines with
  | nil => rfl
  | cons line lines ih =>
    obtain ⟨hline, hrest⟩ := List.forall_mem_cons.mp hlines
    obtain ⟨n, hn⟩ := Nat.exists_eq_add_of_le' hline.length_pos
    have hlen : (line ++ (lines.flatten ++ tmp)).length =
        n + (lines.flatten ++ tmp).length + 1 := by
      rw [List.length_append, hn]
      omega
    rw [List.flatten_cons, List.append_assoc, linesOf, hlen, linesFrom, hline.nextLine_append]
    simp only [List.cons_append]
    rw [← ih hrest, linesOf, linesFrom_eq (Nat.le_add_left _ n) (Nat.le_refl _)]

theorem noFinal_nil (key : Option (List UInt8)) : NoFinal key [] := by
  intro before line rest h
  cases before with
  | nil => cases h
  | cons b before => cases h

theorem matched_append (key : Option (List UInt8)) (a b : List (List Octet)) :
    matched key (a ++ b) = matched key a ++ matched key b := by
  rw [matched, List.filter_append, List.flatten_append]
  rfl

theorem matched_singleton (key : Option (List UInt8)) (line : List Octet) :
    matched key [line] = if matchesKey key line then line else [] := by
  rw [matched, List.filter_singleton]
  cases matchesKey key line with
  | true => exact List.append_nil line
  | false => rfl

/-- The lines in front are accepted as far as they match. -/
theorem accepted_append {key : Option (List UInt8)} (before : List (List Octet))
    {lines : List (List Octet)} (hnone : NoFinal key (before ++ lines)) (more : List (List Octet)) :
    accepted key before (lines ++ more) =
      matched key lines ++ accepted key (before ++ lines) more := by
  induction lines generalizing before with
  | nil => rw [List.append_nil]; rfl
  | cons line lines ih =>
    have hfinal : finalOf key before line = none := hnone before line lines rfl
    have hassoc : before ++ line :: lines = before ++ [line] ++ lines := by
      rw [List.append_assoc]
      rfl
    rw [hassoc] at hnone
    have hcons : line :: lines = [line] ++ lines := rfl
    rw [List.cons_append, accepted, hfinal, Option.isSome_none, if_neg Bool.false_ne_true,
      ih _ hnone, hcons, matched_append, matched_singleton, ← List.append_assoc before]
    split
    · rw [List.append_assoc line]
    · rw [List.nil_append]

/-! ## The loop over the lines -/

/-- What holds of a call that goes on. -/
structure CallInv (command : Nat) (call : AtCall) : Prop where
  lines : ∀ line ∈ call.lines, IsLine line
  response : call.isGetResponse = hasResponse call.key call.lines
  noFinal : NoFinal call.key call.lines
  copied : call.Copied (matched call.key call.lines)
  offset_eq : call.bufferOffset = (matched call.key call.lines).length
  own : ∀ o ∈ call.received, o.Answers command

/-- What holds of a call that has found its final code. -/
structure CallFinal (command : Nat) (call : AtCall) (code : AtFinalCode) : Prop where
  lines : ∀ line ∈ call.lines, IsLine line
  reports : ∃ before last, ReportsFinal ⟨command, call, code⟩ before last

/-- What fits is copied behind what is there. -/
theorem copy_fits {buffer : Nat → UInt8} {len : Nat} {txt bs : List UInt8}
    (h : Str buffer len 0 txt) (hbs : 0 ∉ bs) (hlt : txt.length + bs.length < len) :
    ∃ buffer', snprintfTo buffer len txt.length bs = some buffer' ∧
      store buffer' len (txt.length + bs.length) 0 = some buffer' ∧
      Str buffer' len 0 (txt ++ bs) := by
  have happend := h.append hbs (by omega)
  rw [Nat.zero_add] at happend
  refine ⟨_, ?_, ?_, happend⟩
  · rw [snprintfTo, if_neg (by omega), if_neg (by omega), List.take_of_length_le (by omega)]
  · rw [store_of_lt hlt, Function.update_idem]

theorem hasResponse_concat (key : Option (List UInt8)) (lines : List (List Octet))
    (line : List Octet) :
    hasResponse key (lines ++ [line]) =
      (hasResponse key lines || (matchesKey key line || isErrorLine line)) := by
  rw [hasResponse, hasResponse, List.any_append, List.any_cons, List.any_nil, Bool.or_false,
    Bool.or_assoc]

theorem noFinal_concat {key : Option (List UInt8)} {lines : List (List Octet)} {line : List Octet}
    (h : NoFinal key lines) (hline : finalOf key lines line = none) :
    NoFinal key (lines ++ [line]) := by
  intro before l rest heq
  rcases List.eq_nil_or_concat rest with rfl | ⟨rest, last, rfl⟩
  · obtain ⟨rfl, hl⟩ := List.append_inj' heq rfl
    obtain rfl := List.singleton_inj.mp hl
    exact hline
  · rw [List.concat_eq_append, ← List.cons_append, ← List.append_assoc] at heq
    exact h before l rest (List.append_inj' heq rfl).1

theorem bytesOf_append (a b : List Octet) : bytesOf (a ++ b) = bytesOf a ++ bytesOf b :=
  List.map_append

theorem length_bytesOf (a : List Octet) : (bytesOf a).length = a.length := List.length_map _

/-- A line that is copied stands behind those that have been. -/
theorem CallInv.copy {command : Nat} {call : AtCall} {line : List Octet} (h : CallInv command call)
    (hline : IsLine line)
    (hfits : (matched call.key call.lines).length + line.length < call.bufferLen) :
    ∃ buffer, snprintfTo call.buffer call.bufferLen call.bufferOffset (bytesOf line) = some buffer ∧
      store buffer call.bufferLen (call.bufferOffset + line.length) 0 = some buffer ∧
      Str buffer call.bufferLen 0 (bytesOf (matched call.key call.lines ++ line)) := by
  have hcopy := copy_fits h.copied hline.zero_notMem
    (by rwa [length_bytesOf, length_bytesOf])
  rwa [length_bytesOf, length_bytesOf, ← h.offset_eq, ← bytesOf_append] at hcopy

/-- A line that is no final code is handled within the buffer when it fits. -/
theorem handleLine_none {command : Nat} {call : AtCall} {line rest : List Octet}
    (h : CallInv command call) (htmp : call.tmp = line ++ rest) (hline : IsLine line)
    (hnone : finalOf call.key call.lines line = none)
    (hfits : matchesKey call.key line = true →
      (matched call.key call.lines).length + line.length < call.bufferLen) :
    ∃ call', handleLine { call with tmp := rest } line = some (call', none) ∧
      CallInv command call' ∧ call'.key = call.key ∧ call'.bufferLen = call.bufferLen ∧
      call'.tmp = rest ∧ call'.lines = call.lines ++ [line] := by
  have hfinal : (if call.isGetResponse || !matchesKey call.key line && isErrorLine line then
      checkFinalCode (bytesOf line) else none) = none := by
    rw [h.response]
    exact hnone
  have hlines : ∀ l ∈ call.lines ++ [line], IsLine l := by
    intro l hl
    rcases List.mem_append.mp hl with hl | hl
    · exact h.lines l hl
    · exact List.mem_singleton.mp hl ▸ hline
  have hown : ∀ o ∈ (call.lines ++ [line]).flatten ++ rest, o.Answers command := by
    intro o ho
    refine h.own o ?_
    rw [AtCall.received, htmp]
    simpa using ho
  have hresponse := hasResponse_concat call.key call.lines line
  have hmatched := matched_append call.key call.lines [line]
  rw [matched_singleton] at hmatched
  unfold handleLine
  simp only [hfinal]
  by_cases hmatches : matchesKey call.key line = true
  · obtain ⟨buffer, hprint, hstore, hstr⟩ := h.copy hline (hfits hmatches)
    have hne : line ≠ [] := List.ne_nil_of_length_pos hline.length_pos
    rw [if_pos hmatches] at hmatched
    simp only [hmatches, true_or, if_true, hprint, if_neg hne, hstore, bind, Option.bind_some]
    refine ⟨_, rfl, ⟨hlines, ?_, noFinal_concat h.noFinal hnone, ?_, ?_, hown⟩, rfl, rfl, rfl, rfl⟩
    · rw [hresponse, hmatches, Bool.true_or, Bool.or_true]
    · change Str buffer call.bufferLen 0 (bytesOf (matched call.key (call.lines ++ [line])))
      rwa [hmatched]
    · change call.bufferOffset + line.length = (matched call.key (call.lines ++ [line])).length
      rw [hmatched, List.length_append, h.offset_eq]
  · rw [if_neg hmatches, List.append_nil] at hmatched
    rw [if_neg (by simp [hmatches])]
    refine ⟨_, rfl, ⟨hlines, ?_, noFinal_concat h.noFinal hnone, ?_, ?_, hown⟩, rfl, rfl, rfl, rfl⟩
    · rw [hresponse, Bool.not_eq_true _ |>.mp hmatches, h.response, Bool.not_false, Bool.true_and,
        Bool.false_or]
    · change Str call.buffer call.bufferLen 0 (bytesOf (matched call.key (call.lines ++ [line])))
      rw [hmatched]
      exact h.copied
    · change call.bufferOffset = (matched call.key (call.lines ++ [line])).length
      rw [hmatched, h.offset_eq]

/-- A final code is copied when it fits. -/
theorem handleLine_some {command : Nat} {call : AtCall} {line rest : List Octet}
    {code : AtFinalCode} (h : CallInv command call) (htmp : call.tmp = line ++ rest)
    (hline : IsLine line) (hsome : finalOf call.key call.lines line = some code)
    (hfits : (matched call.key call.lines).length + line.length < call.bufferLen) :
    ∃ call', handleLine { call with tmp := rest } line = some (call', some code) ∧
      CallFinal command call' code := by
  have hfinal : (if call.isGetResponse || !matchesKey call.key line && isErrorLine line then
      checkFinalCode (bytesOf line) else none) = some code := by
    rw [h.response]
    exact hsome
  obtain ⟨buffer, hprint, hstore, hstr⟩ := h.copy hline hfits
  have hne : line ≠ [] := List.ne_nil_of_length_pos hline.length_pos
  unfold handleLine
  simp only [hfinal, Option.isSome_some, or_true, if_true, hprint, if_neg hne, hstore, bind,
    Option.bind_some]
  refine ⟨_, rfl, ?_, call.lines, line, rfl, h.noFinal, hsome, hstr, fun o ho => h.own o ?_⟩
  · intro l hl
    rcases List.mem_append.mp hl with hl | hl
    · exact h.lines l hl
    · exact List.mem_singleton.mp hl ▸ hline
  · rw [AtCall.received, htmp]
    exact List.mem_append_right _ (List.mem_append_left _ ho)

/-- The loop stays within the buffer when what it accepts fits. -/
theorem handleLines_spec {command fuel : Nat} {call : AtCall} (h : CallInv command call)
    (hfits : (matched call.key call.lines).length +
      (accepted call.key call.lines (linesFrom fuel call.tmp)).length < call.bufferLen) :
    ∃ call' code, handleLines fuel call = some (call', code) ∧
      match code with
      | none => CallInv command call' ∧ call'.tmp.length ≤ call.tmp.length
      | some code => CallFinal command call' code := by
  induction fuel generalizing call with
  | zero => exact ⟨call, none, rfl, h, Nat.le_refl _⟩
  | succ fuel ih =>
    rw [linesFrom] at hfits
    rw [handleLines]
    cases hnext : nextLine call.tmp with
    | none => exact ⟨call, none, rfl, h, Nat.le_refl _⟩
    | some cut =>
      obtain ⟨line, rest⟩ := cut
      obtain ⟨hline, htmp⟩ := nextLine_eq_some hnext
      rw [hnext] at hfits
      simp only [accepted] at hfits
      cases hfinal : finalOf call.key call.lines line with
      | some code =>
        rw [hfinal, Option.isSome_some, if_pos rfl] at hfits
        obtain ⟨call', hhandle, hcall⟩ := handleLine_some h htmp hline hfinal hfits
        simp only [hhandle, bind, Option.bind_some]
        exact ⟨call', some code, rfl, hcall⟩
      | none =>
        rw [hfinal, Option.isSome_none, if_neg Bool.false_ne_true] at hfits
        have hmatched := matched_append call.key call.lines [line]
        rw [matched_singleton] at hmatched
        obtain ⟨call', hhandle, hinv, hkey, hlen, htmp', hlines⟩ :=
          handleLine_none h htmp hline hfinal (fun hmatches => by
            rw [if_pos hmatches, List.length_append] at hfits
            omega)
        obtain ⟨call'', code, hrun, hres⟩ := ih hinv (by
          rw [hkey, hlen, htmp', hlines, hmatched, List.length_append]
          split at hfits
          · rename_i hmatches
            rw [if_pos hmatches]
            rw [List.length_append] at hfits
            omega
          · rename_i hmatches
            rw [if_neg hmatches, List.length_nil]
            omega)
        simp only [hhandle, bind, Option.bind_some, hrun]
        refine ⟨call'', code, rfl, ?_⟩
        cases code with
        | some code => exact hres
        | none =>
          refine ⟨hres.1, hres.2.trans ?_⟩
          rw [htmp', htmp, List.length_append]
          exact Nat.le_add_left _ _

/-! ## Runs -/

/-- What holds along a clean run. -/
structure AtInv (s : AtState) : Prop where
  noFault : s.fault = false
  call : ∀ call, s.call = some call →
    CallInv s.sent call ∧ call.tmp.length < maxAtResponseBuffer
  lines : ∀ r, s.result = some r → ∀ line ∈ r.call.lines, IsLine line
  reports : ∀ r, s.result = some r →
    (∃ before last, ReportsFinal r before last) ∨ ReportsFailure r

theorem AtInv.atOk {s : AtState} (h : AtInv s) : AtOk s :=
  ⟨h.noFault, fun call hcall => (h.call call hcall).2, h.lines, h.reports⟩

/-- A call that is given up reports that. -/
theorem AtInv.fail {s : AtState} {call : AtCall} {code : AtFinalCode} (h : AtInv s)
    (hcall : s.call = some call) (hcode : code = .timeout ∨ code = .channelError) :
    AtInv (s.finish call code) where
  noFault := h.noFault
  call _ hnone := nomatch hnone
  lines r hr := by
    cases hr
    exact (h.call call hcall).1.lines
  reports r hr := by
    cases hr
    obtain ⟨hinv, -⟩ := h.call call hcall
    exact .inr ⟨hcode, hinv.noFinal, hinv.copied⟩

/-- Reading what is clean. -/
theorem AtInv.recv {s s' : AtState} {call : AtCall} {count : Nat} (h : AtInv s)
    (hcall : s.call = some call) (hclean : CleanRecv s count call)
    (hstep : recvStep s call count = some s') : AtInv s' := by
  obtain ⟨hinv, htmp⟩ := h.call call hcall
  obtain ⟨hown, hfits⟩ := hclean
  unfold recvStep at hstep
  split at hstep
  · cases hstep
    exact h.fail hcall (.inr rfl)
  · rename_i hroom
    split at hstep
    · cases hstep
    · set octets := recvOctets s call count with hoctets
      have hlen : octets.length ≤ maxAtResponseBuffer - call.tmp.length - 1 := by
        rw [hoctets, recvOctets, List.length_take]
        omega
      have hread : CallInv s.sent { call with tmp := call.tmp ++ octets } := by
        refine ⟨hinv.lines, hinv.response, hinv.noFinal, hinv.copied, hinv.offset_eq, ?_⟩
        intro o ho
        rw [AtCall.received, ← List.append_assoc] at ho
        rcases List.mem_append.mp ho with ho | ho
        · exact hinv.own o ho
        · exact hown o ho
      have haccepted : (matched call.key call.lines).length +
          (accepted call.key call.lines (linesOf (call.tmp ++ octets))).length <
            call.bufferLen := by
        have hall := accepted_append [] hinv.noFinal (linesOf (call.tmp ++ octets))
        rw [List.nil_append, ← linesOf_append hinv.lines] at hall
        rw [AtCall.received, List.append_assoc, hall, List.length_append] at hfits
        exact hfits
      obtain ⟨call', code, hrun, hres⟩ := handleLines_spec hread haccepted
      simp only [hrun] at hstep
      cases code with
      | none =>
        cases hstep
        obtain ⟨hinv', hle⟩ := hres
        refine ⟨h.noFault, fun c hc => ?_, h.lines, h.reports⟩
        cases hc
        refine ⟨hinv', Nat.lt_of_le_of_lt hle ?_⟩
        rw [List.length_append]
        omega
      | some code =>
        cases hstep
        refine ⟨h.noFault, nofun, fun r hr => ?_, fun r hr => ?_⟩
        · cases hr
          exact hres.lines
        · cases hr
          exact .inl hres.reports

theorem atInv_step {s s' : AtState} {label : AtLabel} (h : AtInv s) (hclean : Clean s label)
    (hstep : atStep s label = some s') : AtInv s' := by
  cases label with
  | start key buffer bufferLen =>
    obtain ⟨hpos, hzero⟩ := hclean
    simp only [atStep] at hstep
    split at hstep
    · cases hstep
    · cases hstep
      refine ⟨h.noFault, fun call hcall => ?_, h.lines, h.reports⟩
      cases hcall
      refine ⟨⟨nofun, ?_, noFinal_nil key, ⟨hpos, hzero⟩, rfl, nofun⟩, Nat.succ_pos _⟩
      exact (Bool.or_false _).symm
  | answer command bytes =>
    simp only [atStep] at hstep
    split at hstep
    · cases hstep
      exact ⟨h.noFault, h.call, h.lines, h.reports⟩
    · cases hstep
  | recv count =>
    simp only [atStep] at hstep
    split at hstep
    · cases hstep
    · rename_i call hcall
      exact h.recv hcall (hclean call hcall) hstep
  | timeout =>
    obtain ⟨call, hcall, rfl⟩ := Option.map_eq_some_iff.mp hstep
    exact h.fail hcall (.inl rfl)
  | failure =>
    obtain ⟨call, hcall, rfl⟩ := Option.map_eq_some_iff.mp hstep
    exact h.fail hcall (.inr rfl)

/-- Along a run in which every call is handed an empty buffer that its response fits into, and reads
no answer to an earlier command, nothing is written outside the buffers and each call reports the
response to its command. -/
theorem calls_report (labels : List AtLabel) (h : atMachine.Meets Clean atMachine.init labels) :
    atMachine.Along AtOk atMachine.init labels :=
  atMachine.along_of_meets (fun _ _ _ hs hclean hstep => atInv_step hs hclean hstep)
    (fun _ hs => hs.atOk) ⟨rfl, nofun, nofun, nofun⟩ h

/-- `OK` -/
def okLine : List UInt8 := literal ['O', 'K', '\r', '\n']

/-- A command without a prefix, and the answer to it in two parts. -/
theorem calls_report_ok :
    let labels := [.start none (fun _ => 0) 16, .answer 1 okLine, .recv 3, .recv 10]
    atMachine.Meets Clean atMachine.init labels ∧ atMachine.Along AtOk atMachine.init labels :=
  ⟨by decide +kernel, calls_report _ (by decide +kernel)⟩

/-- The first command is answered after its time is over. -/
def lateAnswer : List AtLabel :=
  [.start none (fun _ => 0) 16, .timeout, .start none (fun _ => 0) 16, .answer 1 okLine, .recv 10]

/-- A response that does not fit is written behind the end of the buffer, and a late answer is taken
for the answer to the next command. -/
theorem calls_misreport :
    (∃ labels, ¬ atMachine.Along AtOk atMachine.init labels) ∧
      ¬ atMachine.Along AtOk atMachine.init lateAnswer := by
  constructor
  · refine ⟨[.start none (fun _ => 0) 4, .answer 1 okLine, .recv 10], fun hall => ?_⟩
    have hfault : (atMachine.run atMachine.init
        [.start none (fun _ => 0) 4, .answer 1 okLine, .recv 10]).map AtState.fault =
          some true := by
      decide +kernel
    obtain ⟨s, hrun, hs⟩ := Option.map_eq_some_iff.mp hfault
    rw [(hall.last _ hrun).noFault] at hs
    cases hs
  · intro hall
    have hresult : (atMachine.run atMachine.init lateAnswer).map
        (fun s => s.result.map fun r => (r.command, r.code, r.call.lines)) =
          some (some (2, .ok, [okLine.map fun b => ⟨b, 1⟩])) := by
      decide +kernel
    obtain ⟨s, hrun, hs⟩ := Option.map_eq_some_iff.mp hresult
    obtain ⟨r, hr, heq⟩ := Option.map_eq_some_iff.mp hs
    obtain ⟨hcommand, hrest⟩ := Prod.mk.inj heq
    obtain ⟨hcode, hlines⟩ := Prod.mk.inj hrest
    rcases (hall.last _ hrun).reports r hr with ⟨before, last, h⟩ | h
    · have hlast : last ∈ r.call.lines := by
        rw [h.lines_eq]
        exact List.mem_append_right before List.mem_cons_self
      rw [hlines] at hlast
      obtain rfl := List.mem_singleton.mp hlast
      have hown := h.own ⟨0x4F, 1⟩ List.mem_cons_self
      rw [hcommand] at hown
      revert hown
      decide
    · have hfail := h.code
      rw [hcode] at hfail
      rcases hfail with hfail | hfail
      · cases hfail
      · cases hfail

end MtkHw.NetAgent
