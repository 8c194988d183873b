import MtkHw.Lib.Machine
import MtkHw.Meta.UsbRxWatcher

/-!
# The memory of the META host decoder

`UsbRxWatcher` in META mode again, one octet at a time and with every access to its memory
checked, for USB and for UART: reads of the pending octets, stores through `header_ptr` and to
`buf_ptr`, and copies to `szRemainBuf`.  A step of the machine takes one octet, or returns from
`decode`; a `receive` starts a call of `onReceived`.

The counter `u16Length` and the pointer to the octets are both kept, since the counter has 16
bits and the number of pending octets has 32.  Over UART an escape of the flow control (`0x77`)
may follow; `flowControl` undoes these escapes in place, in octets that are not looked at again.
-/

namespace MtkHw.Meta

open Lib

/-! ## Escapes of the flow control -/

def SOFT_FLOW_CTRL_BYTE : UInt8 := 0x77

/-- `getUARTEsc` -/
def getUARTEsc (ch : UInt8) : Option UInt8 :=
  if ch = 0x01 then some 0x11 else if ch = 0x02 then some 0x13 else if ch = 0x03 then some 0x77
  else none

/-- `flowControl` over UART, from `m_flow_ctrl_flag` on: the octets it leaves, and the flag. -/
def flowControl : Bool → List UInt8 → List UInt8 × Bool
  | flag, [] => ([], flag)
  | flag, [ch] =>
      if ch = SOFT_FLOW_CTRL_BYTE then ([], true)
      else if flag then ((getUARTEsc ch).toList, false)
      else ([ch], false)
  | true, ch :: ch' :: rest =>
      match getUARTEsc ch with
      | some b => let r := flowControl false (ch' :: rest); (b :: r.1, r.2)
      | none => ([], false)
  | false, ch :: ch' :: rest =>
      if ch = SOFT_FLOW_CTRL_BYTE then
        match getUARTEsc ch' with
        | some b => let r := flowControl false rest; (b :: r.1, r.2)
        | none => ([], false)
      else let r := flowControl false (ch' :: rest); (ch :: r.1, r.2)

/-! ## States -/

/-- What can go wrong with the memory. -/
inductive Fault where
  | /-- An octet is read that is not pending. -/ read
  | /-- A store through `header_ptr` behind the `PRIM_HEADER`. -/ header
  | /-- A store to `buf_ptr` behind what is allocated. -/ buffer
  | /-- A copy behind the end of `szRemainBuf`. -/ remain
  deriving DecidableEq, Repr

/-- `decodeLTE_C2KFrame`: the type, the octets from `src` on, and the counts. -/
structure TunnelFrame where
  frmType : UInt8
  src : List UInt8
  data_len : Nat
  newlen : Nat

/-- Where the decoder reads its next octet: at the head of a loop, or behind an escape. -/
inductive Place where
  | header
  | headerPair
  | ap
  | apPair
  | md (frmType : UInt8) (newLen : Nat)
  | mdPair (frmType : UInt8) (newLen : Nat)
  | mdFlow (frmType : UInt8) (newLen : Nat)
  | tunnel (t : TunnelFrame)
  | tunnelFlow (t : TunnelFrame)
  | /-- The second octet of an escaped checksum. -/ tunnelSum (t : TunnelFrame) (flow : Bool)

/-- The head of a loop, which tests whether all pending octets are taken. -/
def Place.isHead : Place → Bool
  | header => true
  | ap => true
  | md _ _ => true
  | tunnel _ => true
  | _ => false

/-- What the watcher is doing: between two calls, about to take an octet from `src`, or behind
the return of `decode`. -/
inductive Control where
  | idle
  | decoding (p : Place) (u16Length : Nat) (src : List UInt8)
  | back (frame : Option Frame) (u16Length : Nat)
  | fault (f : Fault)

/-- The watcher, `szRemainBuf`, and the pending octets of the current activation. -/
structure Host where
  watcher : UsbRxWatcher
  m_flow_ctrl_flag : Bool
  remain : List UInt8
  data : List UInt8
  control : Control

namespace Host

/-- Before the first call. -/
def new : Host := ⟨.new, false, [], [], .idle⟩

/-- Go on taking octets. -/
def goto (s : Host) (w : UsbRxWatcher) (p : Place) (u16Length : Nat) (src : List UInt8) : Host :=
  { s with watcher := w, control := .decoding p u16Length src }

/-- Return from `decode`. -/
def back (s : Host) (w : UsbRxWatcher) (frame : Option Frame) (u16Length : Nat) : Host :=
  { s with watcher := w, control := .back frame u16Length }

/-- An access outside of the memory. -/
def fail (s : Host) (f : Fault) : Host := { s with control := .fault f }

section Octets

variable (c : Context) (uart : Bool) (s : Host)

/-! ## Headers -/

/-- `dispatchFrame`, for the type `ch`; `src` are the octets behind the type. -/
def dispatch (w : UsbRxWatcher) (ch : UInt8) (u16Length : Nat) (src : List UInt8) : Host :=
  if ch = RS232_INJECT_PRIMITIVE_OCTET ∨ ch = RS232_COMMAND_TYPE_OCTET then
    s.goto { w with m_cTstFrameState := .mdData } (.md ch w.m_uFrameLength) u16Length
      (s.data.drop u16Length)
  else if InRange RS232_INJECT_PRIMITIVE_OCTETMODEM2 RS232_INJECT_PRIMITIVE_OCTETMODEM2_END ch then
    s.goto
      { w with
        m_md_index := (ch - RS232_INJECT_PRIMITIVE_OCTETMODEM2).toNat + 1
        m_cTstFrameState := .mdData }
      (.md ch w.m_uFrameLength) u16Length (s.data.drop u16Length)
  else if InRange RS232_COMMAND_TYPE_MD2_MEMORY_DUMP RS232_COMMAND_TYPE_MD2_MEMORY_DUMP_END ch then
    s.goto
      { w with
        m_md_index := (ch - RS232_COMMAND_TYPE_MD2_MEMORY_DUMP).toNat + 1
        m_cTstFrameState := .mdData }
      (.md ch w.m_uFrameLength) u16Length (s.data.drop u16Length)
  else if ch = RS232_INJECT_APPRIMITIVE_OCTET then
    s.goto
      { w with
        m_cTstFrameState := .apInjectPrimitiveHeader
        header := []
        received_buf_para_length := 0 }
      .ap u16Length src
  else if
    InRange RS232_COMMAND_TYPE_MD_DATA_TUNNEL_START RS232_COMMAND_TYPE_MD_DATA_TUNNEL_END ch then
    s.goto
      { w with
        m_cTstFrameState := .mdTunnelingData
        m_md_index := (ch - RS232_COMMAND_TYPE_MD_DATA_TUNNEL_START).toNat }
      (.tunnel ⟨ch, src, 0, w.m_uFrameLength⟩) u16Length src
  else s.back { w with m_cTstFrameState := .stx } none u16Length

/-- The `switch` of `decode`, for an octet without its escape. -/
def headerOctet (w : UsbRxWatcher) (ch : UInt8) (u16Length : Nat) (src : List UInt8) : Host :=
  match w.headerTurn ch with
  | .next w => s.goto w .header u16Length src
  | .null w => s.back w none u16Length
  | .dispatch w => s.dispatch w ch u16Length src

/-! ## Requests -/

/-- The body of `decodeAPFrame`, for an octet without its escape. -/
def apOctet (w : UsbRxWatcher) (ch : UInt8) (u16Length : Nat) (src : List UInt8) : Host :=
  if w.m_cTstFrameState = .apPrimLocalParaData ∧
      w.local_len + w.peer_len + 1 ≤ w.received_buf_para_length then
    s.fail .buffer
  else
    match w.apTurn c ch with
    | .next w => s.goto w .ap u16Length src
    | .done f w => s.back w (some f) u16Length
    | .fault => s.fail .header

/-! ## Frames of modems -/

/-- What an octet of a modem frame does: the decoder returns `NULL`, goes on, or has the frame. -/
inductive MdTurn where
  | null (u16Length : Nat)
  | next (p : Place) (u16Length : Nat)
  | ends (u16Length : Nat)

/-- The tests of `decodeMDFrame` after an octet: a new header, or the tail of the frame. -/
def mdTail (frmType : UInt8) (newLen u16Length : Nat) (ch : UInt8) : MdTurn :=
  if ch = STX_OCTET then .ends (decr u16Length)
  else if u16Length =
      (newLen + 3 + s.watcher.m_frm_len_byte + s.watcher.m_nStartByteLen) % 4294967296 then
    .ends u16Length
  else .next (.md frmType newLen) u16Length

/-- `decodeMDFrame`, behind the escapes of the links. -/
def mdBody (frmType : UInt8) (newLen u16Length : Nat) (ch : UInt8) : MdTurn :=
  if uart ∧ ch = SOFT_FLOW_CTRL_BYTE then
    if u16Length = s.data.length then .null u16Length
    else .next (.mdFlow frmType newLen) u16Length
  else s.mdTail frmType newLen u16Length ch

/-- The octet `ch` of a modem frame. -/
def mdTurn (p : Place) (u16Length : Nat) (ch : UInt8) : MdTurn :=
  match p with
  | .md frmType newLen =>
      if ch = MUX_KEY_WORD then
        if incr u16Length = s.data.length then .null (incr u16Length)
        else .next (.mdPair frmType newLen) (incr u16Length)
      else s.mdBody uart frmType newLen (incr u16Length) ch
  | .mdPair frmType newLen =>
      s.mdBody uart frmType (if ch = MUX_KEY_WORD ∨ ch = 0x01 then newLen + 1 else newLen)
        (incr u16Length) ch
  | .mdFlow frmType newLen =>
      s.mdTail frmType (if (getUARTEsc ch).isSome then newLen + 1 else newLen) (incr u16Length) ch
  | _ => .null u16Length

/-- What `flowControl` leaves of octets, and its flag. -/
def flow (octets : List UInt8) : List UInt8 × Bool :=
  if uart then flowControl s.m_flow_ctrl_flag octets else (octets, s.m_flow_ctrl_flag)

/-- The end of `decodeMDFrame`: a modem is sent the octets from the start of the frame on. -/
def endModemFrame (frmType : UInt8) (u16Length : Nat) : Host :=
  let flowed := s.flow uart (s.data.take u16Length)
  let memory := flowed.1 ++ s.data.drop flowed.1.length
  let len := (flowed.1.length + 4294967296 - s.watcher.m_nStartByteLen) % 65536
  let s' := { s with m_flow_ctrl_flag := flowed.2 }
  match s.watcher.sendMdTask c ((memory.drop s.watcher.m_nStartByteLen).take len) frmType with
  | .md mdId data =>
      if s.watcher.m_nStartByteLen + len ≤ memory.length then
        s'.back s.watcher (some (.md mdId data)) u16Length
      else s'.fail .read
  | f => s'.back s.watcher (some f) u16Length

/-- The octet `ch` of a modem frame of the type `frmType`. -/
def mdOctet (p : Place) (frmType : UInt8) (ch : UInt8) (u16Length : Nat) (src : List UInt8) :
    Host :=
  match s.mdTurn uart p u16Length ch with
  | .null u16Length => s.back s.watcher none u16Length
  | .next p u16Length => s.goto s.watcher p u16Length src
  | .ends u16Length => s.endModemFrame c uart frmType u16Length

/-! ## Frames of a tunnel -/

/-- The end of `decodeLTE_C2KFrame`. -/
def endTunnelFrame (w : UsbRxWatcher) (t : TunnelFrame) (u16Length : Nat) : Host :=
  if t.newlen ≤ t.src.length then
    let flowed := s.flow uart (t.src.take t.newlen)
    { s with m_flow_ctrl_flag := flowed.2 }.back w (some (w.sendMdTask c flowed.1 t.frmType))
      u16Length
  else s.fail .read

/-- The checksum of a frame of a tunnel, without its escape. -/
def compareSum (w : UsbRxWatcher) (t : TunnelFrame) (ch : UInt8) (u16Length : Nat) : Host :=
  if w.m_checksum ≠ ch then s.back w (some .invalid) u16Length
  else s.endTunnelFrame c uart { w with m_checksum := STX_OCTET } t u16Length

/-- `decodeLTE_C2KFrame`, behind the escape of the flow control. -/
def tunnelBody (t : TunnelFrame) (ch : UInt8) (u16Length : Nat) (src : List UInt8) : Host :=
  let w := s.watcher
  if t.data_len = t.newlen + 1 then
    if c.isTunneling w.m_md_index then
      let w := { w with m_cTstFrameState := .stx }
      if t.data_len + 3 + w.m_frm_len_byte ≤ s.data.length then
        if uart ∧ ch = SOFT_FLOW_CTRL_BYTE then s.goto w (.tunnelSum t true) u16Length src
        else if ch = MUX_KEY_WORD then s.goto w (.tunnelSum t false) u16Length src
        else s.compareSum c uart w t ch u16Length
      else if (uart ∧ ch = SOFT_FLOW_CTRL_BYTE) ∨ ch = MUX_KEY_WORD then s.back w none u16Length
      else s.compareSum c uart w t ch u16Length
    else s.endTunnelFrame c uart w t u16Length
  else s.goto { w with m_checksum := w.m_checksum ^^^ ch } (.tunnel t) u16Length src

/-- The loop of `decodeLTE_C2KFrame`, for an octet at its head. -/
def tunnelOctet (t : TunnelFrame) (ch : UInt8) (u16Length : Nat) (src : List UInt8) : Host :=
  let t := { t with data_len := t.data_len + 1 }
  if uart ∧ t.data_len ≠ t.newlen + 1 ∧ ch = SOFT_FLOW_CTRL_BYTE then
    if incr u16Length = s.data.length then s.back s.watcher none (incr u16Length)
    else s.goto s.watcher (.tunnelFlow t) (incr u16Length) src
  else s.tunnelBody c uart t ch (incr u16Length) src

/-- The loop of `decodeLTE_C2KFrame`, for an octet behind an escape of the flow control. -/
def tunnelFlowOctet (t : TunnelFrame) (ch : UInt8) (u16Length : Nat) (src : List UInt8) : Host :=
  match getUARTEsc ch with
  | none => s.back s.watcher none (incr u16Length)
  | some ch =>
      s.tunnelBody c uart { t with data_len := t.data_len + 1, newlen := (t.newlen + 1) % 65536 }
        ch (incr u16Length) src

/-- The second octet of an escaped checksum. -/
def tunnelSumOctet (t : TunnelFrame) (flow : Bool) (ch : UInt8) (u16Length : Nat) : Host :=
  let unescaped :=
    if flow then getUARTEsc ch
    else if ch = 0x01 then some STX_OCTET
    else if ch = MUX_KEY_WORD then some MUX_KEY_WORD else none
  match unescaped with
  | none => s.back s.watcher (some .invalid) (incr u16Length)
  | some ch => s.compareSum c uart s.watcher t ch (incr u16Length)

/-! ## Octets -/

/-- The decoder takes the octet `ch`; `src` are the octets behind it. -/
def octet (p : Place) (ch : UInt8) (u16Length : Nat) (src : List UInt8) : Host :=
  let w := s.watcher
  match p with
  | .header =>
      if ch = STX_OCTET then s.goto (w.start (incr u16Length)) .header (incr u16Length) src
      else if w.m_cTstFrameState = .stx then s.goto w .header (incr u16Length) src
      else
        match w.checkEscape ch with
        | none => s.headerOctet w ch (incr u16Length) src
        | some w => s.goto w .headerPair (incr u16Length) src
  | .headerPair =>
      match w.transferFrame ch with
      | (w, some b) => s.headerOctet w.countPair b (incr u16Length) src
      | (w, none) => s.headerOctet w MUX_KEY_WORD u16Length (ch :: src)
  | .ap =>
      if ch = STX_OCTET then s.back w none (incr u16Length)
      else
        match w.checkEscape ch with
        | none => s.apOctet c w ch (incr u16Length) src
        | some w =>
            if incr u16Length = s.data.length then s.back w none (incr u16Length)
            else s.goto w .apPair (incr u16Length) src
  | .apPair =>
      match w.transferFrame ch with
      | (w, some b) => s.apOctet c w b (incr u16Length) src
      | (w, none) => s.apOctet c w MUX_KEY_WORD u16Length (ch :: src)
  | .md frmType _ => s.mdOctet c uart p frmType ch u16Length src
  | .mdPair frmType _ => s.mdOctet c uart p frmType ch u16Length src
  | .mdFlow frmType _ => s.mdOctet c uart p frmType ch u16Length src
  | .tunnel t => s.tunnelOctet c uart t ch u16Length src
  | .tunnelFlow t => s.tunnelFlowOctet c uart t ch u16Length src
  | .tunnelSum t flow => s.tunnelSumOctet c uart t flow ch u16Length

/-! ## `onReceived` -/

/-- `onReceived`, from the pending octets on. -/
def activate (data : List UInt8) : Host :=
  { s with data := data, control := .decoding .header 0 data }

/-- Keep octets in `szRemainBuf`. -/
def keep (octets : List UInt8) : Host :=
  if octets.length ≤ REMAIN_BUF_SIZE then { s with remain := octets, control := .idle }
  else s.fail .remain

/-- `onReceived`, behind `decode`. -/
def received (frame : Option Frame) (u16Length : Nat) : Host :=
  match frame with
  | some .invalid =>
      if s.data.length = u16Length then s.keep []
      else if u16Length < s.data.length then s.keep (s.data.drop u16Length)
      else { s with control := .idle }
  | some _ =>
      if u16Length < s.data.length then
        if (s.data.drop u16Length).length ≤ REMAIN_BUF_SIZE then
          { s with remain := [] }.activate (s.data.drop u16Length)
        else s.fail .remain
      else if s.data.length = u16Length then s.keep []
      else { s with control := .idle }
  | none =>
      if s.data.length = u16Length then s.keep s.data
      else if u16Length = 0 then s.fail .read
      else { s with remain := [] }.activate (s.data.drop (u16Length - 1))

/-- A call of `onReceived` with the octets of a read. -/
def receive (buf : List UInt8) : Host :=
  if s.remain ≠ [] ∧ REMAIN_BUF_SIZE < s.remain.length + buf.length then s.fail .remain
  else s.activate (s.remain ++ buf)

/-- One step of a call. -/
def tick : Option Host :=
  match s.control with
  | .idle => none
  | .fault _ => none
  | .back frame u16Length => some (s.received frame u16Length)
  | .decoding p u16Length src => some <|
      if p.isHead ∧ u16Length = s.data.length then s.back s.watcher none u16Length
      else
        match src with
        | [] => s.fail .read
        | ch :: src => s.octet c uart p ch u16Length src

end Octets

/-- The size of the buffer that reads are made into. -/
def PUMP_BUF_SIZE : Nat := 65 * 1024 + 6

/-- A read of the port, or a step of the call that it makes. -/
inductive Label where
  | receive (buf : List UInt8)
  | tick

/-- The watcher as a machine, one octet a step. -/
def machine (c : Context) (uart : Bool) : Machine Host Label where
  init := .new
  step s label :=
    match label with
    | .receive buf =>
        match s.control with
        | .idle => if buf.length ≤ PUMP_BUF_SIZE then some (s.receive buf) else none
        | _ => none
    | .tick => s.tick c uart

end Host

end MtkHw.Meta
