import MtkHw.Lib.Loop
import MtkHw.Lib.Machine
import MtkHw.Meta.Escape

/-!
# The watcher of the META host

`UsbRxWatcher` in META mode over USB.  Each read of the port calls `onReceived`, which decodes
what is pending from its start.  A frame that is not complete is kept raw, in `szRemainBuf`; the
fields of the decoder keep their values from one call to the next.

The counter `u16Length` of the octets taken has 16 bits and is compared with the number of
pending octets, which may be larger.  A decoder that goes on behind the last pending octet
reads memory that it has not been given: the result is then `none`.
-/

namespace MtkHw.Meta

open Lib

/-! ## Types of frames -/

def RS232_COMMAND_TYPE_OCTET : UInt8 := 0x63
def RS232_INJECT_PRIMITIVE_OCTET : UInt8 := 0x64
def RS232_INJECT_APPRIMITIVE_OCTET : UInt8 := 0x66
def RS232_INJECT_PRIMITIVE_OCTETMODEM2 : UInt8 := 0xA0
def RS232_INJECT_PRIMITIVE_OCTETMODEM2_END : UInt8 := 0xA7
def RS232_COMMAND_TYPE_MD2_MEMORY_DUMP : UInt8 := 0xC0
def RS232_COMMAND_TYPE_MD2_MEMORY_DUMP_END : UInt8 := 0xC7
def RS232_COMMAND_TYPE_MD_DATA_TUNNEL_START : UInt8 := 0xD0
def RS232_COMMAND_TYPE_MD_DATA_TUNNEL_END : UInt8 := 0xD7

/-- The type lies in a range of types. -/
def InRange (first last ch : UInt8) : Prop := first ≤ ch ∧ ch ≤ last

instance (first last ch : UInt8) : Decidable (InRange first last ch) :=
  inferInstanceAs (Decidable (_ ∧ _))

/-! ## State -/

/-- The states `RS232_FRAME_...` of the decoder. -/
inductive TstFrameState where
  | stx
  | lenHi
  | lenLo
  | type
  | mdData
  | apInjectPrimitiveHeader
  | apPrimLocalParaData
  | checksum
  | keyword
  | mdTunnelingData
  deriving DecidableEq, Repr

/-- `sizeof(PRIM_HEADER)`. -/
def PRIM_HEADER_SIZE : Nat := 4

/-- `sizeof(szRemainBuf)`. -/
def REMAIN_BUF_SIZE : Nat := 4096 * 16 * 2

/-- The fields of the decoder.  `header` has the octets stored through `header_ptr`, and `buf`
is what `buf_ptr` points to. -/
structure UsbRxWatcher where
  m_checksum : UInt8
  m_uFrameLength : Nat
  m_cTstFrameState : TstFrameState
  m_cOldTstFrameState : TstFrameState
  m_md_index : Nat
  m_frm_len_byte : Nat
  m_nStartByteLen : Nat
  header : List UInt8
  received_buf_para_length : Nat
  buf : List UInt8

/-- The constructor of `UsbRxWatcher`. -/
def UsbRxWatcher.new : UsbRxWatcher where
  m_checksum := STX_OCTET
  m_uFrameLength := 0
  m_cTstFrameState := .stx
  m_cOldTstFrameState := .stx
  m_md_index := 0
  m_frm_len_byte := 2
  m_nStartByteLen := 0
  header := []
  received_buf_para_length := 0
  buf := []

namespace UsbRxWatcher

/-- `inject_prim.local_len`. -/
def local_len (w : UsbRxWatcher) : Nat := ofOctets (w.header.getD 1 0) (w.header.getD 0 0)

/-- `inject_prim.peer_len`. -/
def peer_len (w : UsbRxWatcher) : Nat := ofOctets (w.header.getD 3 0) (w.header.getD 2 0)

end UsbRxWatcher

/-- What `Context` knows: `getModule(id)` and `getModem(id)` are not `NULL`, and
`getMDChType(index)` is `FT_MODEM_CH_TUNNELING`. -/
structure Context where
  isModule : Nat → Bool
  isModem : Nat → Bool
  isTunneling : Nat → Bool

/-- A decoded frame: `new Frame()`, or one for a module or a modem. -/
inductive Frame where
  | /-- Not valid. -/ invalid
  | /-- For a module, with the token that is set. -/
    ap (token id : Nat) (localBuf peerBuf : List UInt8)
  | /-- For a modem. -/ md (mdId : Nat) (data : List UInt8)
  deriving DecidableEq, Repr

/-- What a decoder returns: the frame or `NULL`, the count `u16Length`, and its fields. -/
structure Decoded where
  frame : Option Frame
  u16Length : Nat
  watcher : UsbRxWatcher

/-- `++ u16Length`. -/
def incr (u16Length : Nat) : Nat := (u16Length + 1) % 65536

/-- `u16Length--`. -/
def decr (u16Length : Nat) : Nat := (u16Length + 65535) % 65536

/-! ## Escapes -/

namespace UsbRxWatcher

variable (w : UsbRxWatcher)

/-- `checkEscape`: the key word enters the state of escapes. -/
def checkEscape (ch : UInt8) : Option UsbRxWatcher :=
  if ch = MUX_KEY_WORD ∧ w.m_cTstFrameState ≠ .keyword ∧ w.m_cTstFrameState ≠ .mdData then
    some { w with m_cOldTstFrameState := w.m_cTstFrameState, m_cTstFrameState := .keyword }
  else none

/-- `transferFrame`: the octet that a pair stands for, and the state before the pair. -/
def transferFrame (ch : UInt8) : UsbRxWatcher × Option UInt8 :=
  if w.m_cTstFrameState = .keyword then
    ({ w with m_cTstFrameState := w.m_cOldTstFrameState },
      if ch = MUX_KEY_WORD then some MUX_KEY_WORD
      else if ch = 0x01 then some STX_OCTET else none)
  else (w, none)

/-! ## Frames of modules -/

/-- `sendFtTask`: the frame for the module that the request id names. -/
def sendFtTask (c : Context) : Frame :=
  let id := ofOctets (w.buf.getD 3 0) (w.buf.getD 2 0)
  let token := ofOctets (w.buf.getD 1 0) (w.buf.getD 0 0)
  if c.isModule id then
    .ap token id (w.buf.take w.local_len) ((w.buf.drop w.local_len).take w.peer_len)
  else .invalid

/-- What one octet does to the decoder of a frame. -/
inductive Turn where
  | /-- The decoder goes on. -/ next (w : UsbRxWatcher)
  | /-- The frame is complete. -/ done (f : Frame) (w : UsbRxWatcher)
  | /-- The octet is stored behind its buffer. -/ fault

/-- The body of the loop of `decodeAPFrame`, for an octet without its escape. -/
def apTurn (c : Context) (ch : UInt8) : Turn :=
  match w.m_cTstFrameState with
  | .apInjectPrimitiveHeader =>
      if w.header.length < PRIM_HEADER_SIZE then
        let w' := { w with header := w.header ++ [ch], m_checksum := w.m_checksum ^^^ ch }
        if w'.header.length = PRIM_HEADER_SIZE ∧ w'.local_len ≠ 0 then
          .next { w' with
            m_cTstFrameState := .apPrimLocalParaData
            buf := List.replicate (w'.local_len + w'.peer_len + 1) 0 }
        else .next w'
      else .fault
  | .apPrimLocalParaData =>
      let w' := { w with
        buf := w.buf.set w.received_buf_para_length ch
        received_buf_para_length := incr w.received_buf_para_length
        m_checksum := w.m_checksum ^^^ ch }
      if w'.local_len + w'.peer_len = w'.received_buf_para_length then
        .next { w' with m_cTstFrameState := .checksum }
      else .next w'
  | .checksum =>
      let w' := { w with m_cTstFrameState := .stx }
      if w.m_checksum ≠ ch then .done .invalid w'
      else
        .done (w.sendFtTask c) { w' with received_buf_para_length := 0, m_checksum := STX_OCTET }
  | _ => .next { w with m_checksum := w.m_checksum ^^^ ch }

/-- `decodeAPFrame`, of the `len` pending octets of which `u16Length` have been taken. -/
def decodeAPFrame (c : Context) (len : Nat) :
    UsbRxWatcher → Nat → List UInt8 → Option Decoded
  | w, u16Length, [] => if u16Length = len then some ⟨none, u16Length, w⟩ else none
  | w, u16Length, ch :: src =>
      if u16Length = len then some ⟨none, u16Length, w⟩
      else if ch = STX_OCTET then some ⟨none, incr u16Length, w⟩
      else
        match w.checkEscape ch with
        | none =>
            match w.apTurn c ch with
            | .next w => decodeAPFrame c len w (incr u16Length) src
            | .done f w => some ⟨some f, incr u16Length, w⟩
            | .fault => none
        | some w =>
            if incr u16Length = len then some ⟨none, incr u16Length, w⟩
            else
              match src with
              | [] => none
              | ch' :: src' =>
                  match w.transferFrame ch' with
                  | (w, some ch) =>
                      match w.apTurn c ch with
                      | .next w => decodeAPFrame c len w (incr (incr u16Length)) src'
                      | .done f w => some ⟨some f, incr (incr u16Length), w⟩
                      | .fault => none
                  | (w, none) =>
                      match w.apTurn c ch with
                      | .next w => decodeAPFrame c len w (incr u16Length) (ch' :: src')
                      | .done f w => some ⟨some f, incr u16Length, w⟩
                      | .fault => none

/-! ## Frames of modems -/

/-- `sendMdTask`. -/
def sendMdTask (c : Context) (data : List UInt8) (frmType : UInt8) : Frame :=
  let mdId :=
    if frmType = RS232_INJECT_PRIMITIVE_OCTET ∨ frmType = RS232_COMMAND_TYPE_OCTET then 0
    else if
      InRange RS232_INJECT_PRIMITIVE_OCTETMODEM2 RS232_INJECT_PRIMITIVE_OCTETMODEM2_END frmType ∨
      InRange RS232_COMMAND_TYPE_MD2_MEMORY_DUMP RS232_COMMAND_TYPE_MD2_MEMORY_DUMP_END frmType ∨
      InRange RS232_COMMAND_TYPE_MD_DATA_TUNNEL_START RS232_COMMAND_TYPE_MD_DATA_TUNNEL_END frmType
    then w.m_md_index
    else 0
  if c.isModem mdId then .md mdId data else .invalid

/-- The end of `decodeMDFrame`: the octets of `data` from the start of the frame on.  Their
number is a `static_cast` to 16 bits. -/
def mdFrame (c : Context) (data : List UInt8) (frmType : UInt8) (u16Length : Nat) : Decoded :=
  let len := (u16Length + 4294967296 - w.m_nStartByteLen) % 65536
  ⟨some (w.sendMdTask c ((data.drop w.m_nStartByteLen).take len) frmType), u16Length, w⟩

/-- The tests of `decodeMDFrame` after an octet: a new header, or the tail of the frame. -/
def mdTail (c : Context) (data : List UInt8) (frmType : UInt8) (newLen u16Length : Nat)
    (ch : UInt8) : Option Decoded :=
  if ch = STX_OCTET then some (w.mdFrame c data frmType (decr u16Length))
  else if u16Length = (newLen + 3 + w.m_frm_len_byte + w.m_nStartByteLen) % 4294967296 then
    some (w.mdFrame c data frmType u16Length)
  else none

/-- The loop of `decodeMDFrame`, over the pending octets `data`. -/
def mdLoop (c : Context) (data : List UInt8) (frmType : UInt8) :
    Nat → Nat → List UInt8 → Option Decoded
  | _, u16Length, [] => if u16Length = data.length then some ⟨none, u16Length, w⟩ else none
  | newLen, u16Length, ch :: rest =>
      if u16Length = data.length then some ⟨none, u16Length, w⟩
      else if ch = MUX_KEY_WORD then
        if incr u16Length = data.length then some ⟨none, incr u16Length, w⟩
        else
          match rest with
          | [] => none
          | ch' :: rest' =>
              let newLen := if ch' = MUX_KEY_WORD ∨ ch' = 0x01 then newLen + 1 else newLen
              match w.mdTail c data frmType newLen (incr (incr u16Length)) ch' with
              | some r => some r
              | none => mdLoop c data frmType newLen (incr (incr u16Length)) rest'
      else
        match w.mdTail c data frmType newLen (incr u16Length) ch with
        | some r => some r
        | none => mdLoop c data frmType newLen (incr u16Length) rest

/-- `decodeMDFrame`. -/
def decodeMDFrame (c : Context) (data : List UInt8) (frmType : UInt8) (u16Length : Nat) :
    Option Decoded :=
  w.mdLoop c data frmType w.m_uFrameLength u16Length (data.drop u16Length)

/-! ## Frames of a tunnel -/

/-- The end of `decodeLTE_C2KFrame`. -/
def tunnelFrame (c : Context) (src : List UInt8) (frmType : UInt8) (u16Length : Nat) : Decoded :=
  ⟨some (w.sendMdTask c (src.take w.m_uFrameLength) frmType), u16Length, w⟩

/-- The checksum of a frame of a tunnel, in the octets from `local_ptr` on. -/
def tunnelChecksum (c : Context) (input_len : Nat) (src : List UInt8) (frmType : UInt8)
    (data_len u16Length : Nat) (ch : UInt8) (rest : List UInt8) : Option Decoded :=
  let w := { w with m_cTstFrameState := .stx }
  let compare (u16Length : Nat) (ch : UInt8) : Decoded :=
    if w.m_checksum ≠ ch then ⟨some .invalid, u16Length, w⟩
    else { w with m_checksum := STX_OCTET }.tunnelFrame c src frmType u16Length
  if ch = MUX_KEY_WORD then
    if data_len + 3 + w.m_frm_len_byte ≤ input_len then
      match rest with
      | [] => none
      | ch' :: _ =>
          if ch' = 0x01 then some (compare (incr u16Length) STX_OCTET)
          else if ch' = MUX_KEY_WORD then some (compare (incr u16Length) MUX_KEY_WORD)
          else some ⟨some .invalid, incr u16Length, w⟩
    else some ⟨none, u16Length, w⟩
  else some (compare u16Length ch)

/-- The loop of `decodeLTE_C2KFrame`; `src` are the octets behind the type. -/
def tunnelLoop (c : Context) (input_len : Nat) (src : List UInt8) (frmType : UInt8) :
    UsbRxWatcher → Nat → Nat → List UInt8 → Option Decoded
  | w, _, u16Length, [] => if u16Length = input_len then some ⟨none, u16Length, w⟩ else none
  | w, data_len, u16Length, ch :: rest =>
      if u16Length = input_len then some ⟨none, u16Length, w⟩
      else if data_len + 1 = w.m_uFrameLength + 1 then
        if c.isTunneling w.m_md_index then
          w.tunnelChecksum c input_len src frmType (data_len + 1) (incr u16Length) ch rest
        else some (w.tunnelFrame c src frmType (incr u16Length))
      else
        tunnelLoop c input_len src frmType { w with m_checksum := w.m_checksum ^^^ ch }
          (data_len + 1) (incr u16Length) rest

/-! ## The decoder -/

/-- `dispatchFrame`, for the type `ch`; `src` are the octets behind the type. -/
def dispatchFrame (c : Context) (ch : UInt8) (data src : List UInt8) (u16Length : Nat) :
    Option Decoded :=
  if ch = RS232_INJECT_PRIMITIVE_OCTET ∨ ch = RS232_COMMAND_TYPE_OCTET then
    { w with m_cTstFrameState := .mdData }.decodeMDFrame c data ch u16Length
  else if InRange RS232_INJECT_PRIMITIVE_OCTETMODEM2 RS232_INJECT_PRIMITIVE_OCTETMODEM2_END ch then
    { w with
      m_md_index := (ch - RS232_INJECT_PRIMITIVE_OCTETMODEM2).toNat + 1
      m_cTstFrameState := .mdData }.decodeMDFrame c data ch u16Length
  else if InRange RS232_COMMAND_TYPE_MD2_MEMORY_DUMP RS232_COMMAND_TYPE_MD2_MEMORY_DUMP_END ch then
    { w with
      m_md_index := (ch - RS232_COMMAND_TYPE_MD2_MEMORY_DUMP).toNat + 1
      m_cTstFrameState := .mdData }.decodeMDFrame c data ch u16Length
  else if ch = RS232_INJECT_APPRIMITIVE_OCTET then
    decodeAPFrame c data.length
      { w with
        m_cTstFrameState := .apInjectPrimitiveHeader
        header := []
        received_buf_para_length := 0 } u16Length src
  else if
    InRange RS232_COMMAND_TYPE_MD_DATA_TUNNEL_START RS232_COMMAND_TYPE_MD_DATA_TUNNEL_END ch then
    tunnelLoop c data.length src ch
      { w with
        m_cTstFrameState := .mdTunnelingData
        m_md_index := (ch - RS232_COMMAND_TYPE_MD_DATA_TUNNEL_START).toNat } 0 u16Length src
  else some ⟨none, u16Length, { w with m_cTstFrameState := .stx }⟩

/-- What one octet of a header does: the decoder goes on, returns `NULL`, or has the type. -/
inductive HeaderTurn where
  | next (w : UsbRxWatcher)
  | null (w : UsbRxWatcher)
  | dispatch (w : UsbRxWatcher)

/-- The `switch` of `decode`, for an octet without its escape. -/
def headerTurn (ch : UInt8) : HeaderTurn :=
  match w.m_cTstFrameState with
  | .lenHi =>
      .next { w with
        m_uFrameLength := ch.toNat * 256
        m_cTstFrameState := .lenLo
        m_checksum := w.m_checksum ^^^ ch }
  | .lenLo =>
      let w' := { w with
        m_uFrameLength := (w.m_uFrameLength + ch.toNat) % 65536
        m_cTstFrameState := .type }
      if w'.m_uFrameLength + 5 > FRAME_MAX_LEN then .null w'
      else .next { w' with m_checksum := w.m_checksum ^^^ ch }
  | .type => .dispatch { w with m_checksum := w.m_checksum ^^^ ch }
  | _ => .next { w with m_checksum := w.m_checksum ^^^ ch }

/-- A start octet, the `u16Length`-th one. -/
def start (u16Length : Nat) : UsbRxWatcher :=
  { w with
    m_cTstFrameState := .lenHi
    m_uFrameLength := 0
    m_frm_len_byte := 2
    m_checksum := STX_OCTET
    m_nStartByteLen := (u16Length + 4294967295) % 4294967296 }

/-- An escape pair counts for one more octet of the length field. -/
def countPair : UsbRxWatcher :=
  if w.m_cTstFrameState = .lenHi ∨ w.m_cTstFrameState = .lenLo then
    { w with m_frm_len_byte := w.m_frm_len_byte + 1 }
  else w

/-- The loop of `decode`.  The octet after a key word is read without a test whether it is
pending: `behind` is the octet of the memory behind the last pending one.  A pair whose second
octet is `behind` takes the count past the number of pending octets. -/
def decodeLoop (c : Context) (behind : UInt8) (data : List UInt8) :
    UsbRxWatcher → Nat → List UInt8 → Option Decoded
  | w, u16Length, [] => if u16Length = data.length then some ⟨none, u16Length, w⟩ else none
  | w, u16Length, ch :: src =>
      if u16Length = data.length then some ⟨none, u16Length, w⟩
      else if ch = STX_OCTET then
        decodeLoop c behind data (w.start (incr u16Length)) (incr u16Length) src
      else if w.m_cTstFrameState = .stx then decodeLoop c behind data w (incr u16Length) src
      else
        match w.checkEscape ch with
        | none =>
            match w.headerTurn ch with
            | .next w => decodeLoop c behind data w (incr u16Length) src
            | .null w => some ⟨none, incr u16Length, w⟩
            | .dispatch w => w.dispatchFrame c ch data src (incr u16Length)
        | some w =>
            match src with
            | [] =>
                match w.transferFrame behind with
                | (_, some _) => none
                | (w, none) =>
                    match w.headerTurn ch with
                    | .next w => decodeLoop c behind data w (incr u16Length) []
                    | .null w => some ⟨none, incr u16Length, w⟩
                    | .dispatch w => w.dispatchFrame c ch data [] (incr u16Length)
            | ch' :: src' =>
                match w.transferFrame ch' with
                | (w, some ch) =>
                    match w.countPair.headerTurn ch with
                    | .next w => decodeLoop c behind data w (incr (incr u16Length)) src'
                    | .null w => some ⟨none, incr (incr u16Length), w⟩
                    | .dispatch w => w.dispatchFrame c ch data src' (incr (incr u16Length))
                | (w, none) =>
                    match w.headerTurn ch with
                    | .next w => decodeLoop c behind data w (incr u16Length) (ch' :: src')
                    | .null w => some ⟨none, incr u16Length, w⟩
                    | .dispatch w => w.dispatchFrame c ch data (ch' :: src') (incr u16Length)

/-- `decode`. -/
def decode (c : Context) (behind : UInt8) (data : List UInt8) : Option Decoded :=
  decodeLoop c behind data w 0 data

end UsbRxWatcher

/-! ## The calls -/

/-- The watcher: the decoder, the octets kept in `szRemainBuf`, and what has become of the
frames so far.  A frame that is not valid is discarded. -/
structure HostLink where
  watcher : UsbRxWatcher
  remain : List UInt8
  log : List Frame

/-- The watcher before the first call. -/
def HostLink.new : HostLink := ⟨UsbRxWatcher.new, [], []⟩

/-- A call of `onReceived`: the octets of the read, and for the pending octets of each turn
the octet that the memory behind them has. -/
structure Call where
  buf : List UInt8
  behind : List UInt8 → UInt8

namespace HostLink

/-- One activation of `onReceived`, from the pending octets on.  It calls itself with the
octets that are left, or returns. -/
def turn (c : Context) (behind : List UInt8 → UInt8) :
    HostLink × List UInt8 → (HostLink × List UInt8) ⊕ Option HostLink
  | (s, data) =>
      match s.watcher.decode c (behind data) data with
      | none => .inr none
      | some ⟨some .invalid, u16Length, w⟩ =>
          let s := { s with watcher := w, log := s.log ++ [.invalid] }
          if data.length = u16Length then .inr (some { s with remain := [] })
          else if u16Length < data.length then
            .inr (some { s with remain := data.drop u16Length })
          else .inr (some s)
      | some ⟨some f, u16Length, w⟩ =>
          let s := { s with watcher := w, log := s.log ++ [f] }
          if u16Length < data.length then .inl ({ s with remain := [] }, data.drop u16Length)
          else if data.length = u16Length then .inr (some { s with remain := [] })
          else .inr (some s)
      | some ⟨none, u16Length, w⟩ =>
          let s := { s with watcher := w }
          if data.length = u16Length then .inr (some { s with remain := data })
          else if u16Length = 0 then .inr none
          else .inl ({ s with remain := [] }, data.drop (u16Length - 1))

/-- The octets that are pending in a call. -/
def pending (s : HostLink) (call : Call) : List UInt8 := s.remain ++ call.buf

/-- `onReceived`; no result when it does not return, or reads or writes outside of its memory. -/
def onReceived (c : Context) (s : HostLink) (call : Call) : Option HostLink :=
  if s.remain ≠ [] ∧ REMAIN_BUF_SIZE < (s.pending call).length then none
  else
    (loop (turn c call.behind) ((s.pending call).length + 1) (s, s.pending call)).join

/-- The watcher as a machine whose steps are the calls. -/
def machine (c : Context) : Machine HostLink Call where
  init := .new
  step := onReceived c

end HostLink

end MtkHw.Meta
