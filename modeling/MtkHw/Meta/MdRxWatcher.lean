import MtkHw.Lib.Machine
import MtkHw.Lib.Ring
import MtkHw.Lib.Scanner
import MtkHw.Meta.Escape

/-!
# The watcher of a modem

`MdRxWatcher::process` takes the confirms of a modem octet by octet, for the two kinds of frames
that a modem sends, and keeps all of its state from one read to the next.  `processMDConfirm`
writes a confirm to the port of the META host.

A read is a list of octets.  Its loop counts them with the 16 bits of `u16Length` and goes on
while the count is below the length of the read: on a longer read it never ends, unless it
returns early.
-/

namespace MtkHw.Meta

open Lib Ring Scanner

/-! ## Confirms -/

/-- `META_COM_TYPE`. -/
inductive ComType where
  | unknown
  | uart
  | usb
  | socket
  deriving DecidableEq, Repr

/-- How an octet is sent over UART. -/
def uartEscape (b : UInt8) : List UInt8 :=
  if b = 0x11 then [0x77, 0x01]
  else if b = 0x13 then [0x77, 0x02]
  else if b = 0x77 then [0x77, 0x03]
  else [b]

/-- The loop of `processMDConfirm` for UART, with what is in `pCache`: the calls of
`pPort->write`. -/
def uartLoop : List UInt8 → List UInt8 → List (List UInt8)
  | [], pCache => if pCache.length > 0 then [pCache] else []
  | b :: rest, pCache =>
      let pCache := pCache ++ uartEscape b
      if pCache.length + 2 > FRAME_MAX_LEN then pCache :: uartLoop rest [] else uartLoop rest pCache

/-- `processMDConfirm`: the calls of `pPort->write`.  There is no port while it is switched. -/
def processMDConfirm (eComType : ComType) (hasPort : Bool) (pdata : List UInt8) :
    List (List UInt8) :=
  if hasPort = false then []
  else
    match eComType with
    | .usb => [pdata]
    | .socket => [pdata]
    | .uart => uartLoop pdata []
    | .unknown => []

/-! ## State -/

/-- The states `RS232_FRAME_...` of the watcher. -/
inductive FrmStat where
  | stx
  | lenHi
  | lenLo
  | mdConfirmData
  | checksum
  | keyword
  deriving DecidableEq, Repr

/-- The fields of the watcher; `m_bL1Header` says that the frame is one of layer 1. -/
structure MdRxWatcher where
  m_bufLen : Nat
  m_frmLen : Nat
  m_frmBuf : Nat → UInt8
  m_frmStat : FrmStat
  m_frmStat0 : FrmStat
  m_chkSum : UInt8
  m_bL1Header : Bool

/-- The constructor of `MdRxWatcher`, which leaves `m_frmBuf` as the memory is. -/
def MdRxWatcher.new (memory : Nat → UInt8) : MdRxWatcher where
  m_bufLen := 0
  m_frmLen := 0
  m_frmBuf := memory
  m_frmStat := .stx
  m_frmStat0 := .stx
  m_chkSum := 0
  m_bL1Header := false

/-- An `unsigned short`. -/
def u16 (n : Nat) : Nat := n % 65536

namespace MdRxWatcher

variable (w : MdRxWatcher)

/-- `m_frmBuf[m_bufLen] = ch` and `++ m_bufLen`. -/
def store (ch : UInt8) : MdRxWatcher :=
  { w with m_frmBuf := blit w.m_frmBuf w.m_bufLen [ch], m_bufLen := u16 (w.m_bufLen + 1) }

/-- The `switch` of `process`, and the checksum after it. -/
def switch (ch : UInt8) : Turn MdRxWatcher (List UInt8) :=
  match w.m_frmStat with
  | .lenHi =>
      .next { w with
        m_frmLen := if w.m_bL1Header then ch.toNat else ch.toNat * 256
        m_frmStat := .lenLo
        m_chkSum := w.m_chkSum ^^^ ch }
  | .lenLo =>
      let m_frmLen := u16 (w.m_frmLen + if w.m_bL1Header then ch.toNat * 256 else ch.toNat)
      if m_frmLen + 4 > FRAME_MAX_LEN then
        .stop { w with m_frmLen := m_frmLen, m_frmStat := .stx }
      else
        .next { w with
          m_frmLen := m_frmLen
          m_frmStat := .mdConfirmData
          m_chkSum := w.m_chkSum ^^^ ch }
  | .mdConfirmData =>
      .next { w with
        m_frmStat := if w.m_bufLen = w.m_frmLen + 3 then .checksum else .mdConfirmData
        m_chkSum := w.m_chkSum ^^^ ch }
  | .checksum =>
      if w.m_chkSum = ch then
        .emit (slice w.m_frmBuf 0 (u16 (w.m_frmLen + 4)))
          { w with m_frmStat := .stx, m_bufLen := 0, m_frmLen := 0, m_chkSum := 0 ^^^ ch }
      else .next { w with m_frmStat := .stx, m_chkSum := w.m_chkSum ^^^ ch }
  | .stx => .next { w with m_bufLen := 0, m_frmLen := 0, m_chkSum := ch ^^^ ch }
  | .keyword => .next { w with m_chkSum := w.m_chkSum ^^^ ch }

/-- The body of the loop of `process`. -/
def octet (ch : UInt8) : Turn MdRxWatcher (List UInt8) :=
  if (ch = STX_OCTET ∨ ch = STX_L1_OCTET) ∧ w.m_frmStat ≠ .mdConfirmData ∧
      w.m_frmStat ≠ .lenHi ∧ w.m_frmStat ≠ .lenLo then
    let w' := { w.store ch with m_bL1Header := ch = STX_L1_OCTET }
    if w.m_frmStat ≠ .checksum then
      .next { w' with m_frmStat := .lenHi, m_chkSum := ch, m_frmLen := 0 }
    else w'.switch ch
  else if w.m_bL1Header = false ∧ ch = MUX_KEY_WORD ∧ w.m_frmStat ≠ .keyword then
    .next { w.store ch with m_frmStat0 := w.m_frmStat, m_frmStat := .keyword }
  else if w.m_frmStat = .keyword then
    let w' := { w.store ch with m_frmStat := w.m_frmStat0, m_frmLen := u16 (w.m_frmLen + 1) }
    w'.switch
      (if ch = MUX_KEY_WORD then MUX_KEY_WORD else if ch = 0x01 then STX_L1_OCTET else ch)
  else (w.store ch).switch ch

/-- The loop of `process` over a read of `len` octets: the frames handed to `processMDConfirm`. -/
def processLoop (len : Nat) :
    MdRxWatcher → Nat → List UInt8 → Option (MdRxWatcher × List (List UInt8))
  | w, u16Length, [] => if u16Length < len then none else some (w, [])
  | w, u16Length, ch :: src =>
      if u16Length < len then
        match w.octet ch with
        | .next w => processLoop len w (u16 (u16Length + 1)) src
        | .emit frame w =>
            (processLoop len w (u16 (u16Length + 1)) src).map fun r => (r.1, frame :: r.2)
        | .stop w => some (w, [])
      else some (w, [])

/-- `process`; no result when it does not return. -/
def process (buf : List UInt8) : Option (MdRxWatcher × List (List UInt8)) :=
  processLoop buf.length w 0 buf

end MdRxWatcher

/-! ## Reads -/

/-- The watcher, the frames it has handed to `processMDConfirm`, and the calls of
`pPort->write` so far. -/
structure ModemLink where
  watcher : MdRxWatcher
  confirms : List (List UInt8)
  writes : List (List UInt8)

namespace ModemLink

/-- One read of the modem's port. -/
def read (eComType : ComType) (hasPort : Bool) (s : ModemLink) (buf : List UInt8) :
    Option ModemLink :=
  (s.watcher.process buf).map fun r => {
    watcher := r.1
    confirms := s.confirms ++ r.2
    writes := s.writes ++ r.2.flatMap (processMDConfirm eComType hasPort) }

/-- The watcher as a machine whose steps are the reads. -/
def machine (eComType : ComType) (hasPort : Bool) (memory : Nat → UInt8) :
    Machine ModemLink (List UInt8) where
  init := ⟨.new memory, [], []⟩
  step := read eComType hasPort

end ModemLink

end MtkHw.Meta
