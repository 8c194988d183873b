import MtkHw.Mux.Defs
import Mathlib.Data.List.TakeWhile

/-!
# The control channel: `handle_command`

A command arrives in the information field of a frame on DLCI 0: a type field, a
length field, both with an extension bit, and value octets.  `handle_command`
carries the command out and decides what is sent back: the command itself with
its C/R bit cleared, or a "non supported command" response.

Octets are read by index, and a read outside the information field makes the
function fail (`none`).  The number in the length field only goes into a log line
and is left out.
-/

namespace MtkHw.Mux

/-- What a command acts on: the state of the serial device, and the flow control
of each channel. -/
structure CommandState where
  /-- `serial.state == MUX_STATE_PEER_CLOSING` -/
  peerClosing : Bool
  /-- `channel->opened` -/
  opened : Nat → Bool
  /-- `channel->tx_fc_off` -/
  txFcOff : Nat → Bool

/-- What `handle_command` does to the pseudo terminal of a channel. -/
inductive PtyAction where
  | /-- `_fc_chokePty` -/ choke (id : Nat)
  | /-- `_fc_releasePty` -/ release (id : Nat)
deriving DecidableEq, Repr

/-- What `handle_command` sends back. -/
inductive CommandReply where
  | /-- The acknowledgement left in `tx_msc_response_cache`. -/ ack (data : List UInt8)
  | /-- The response written at once. -/ nsc (response : List UInt8)
  | /-- Nothing: an empty field, or a response of the peer. -/ nothing
deriving DecidableEq, Repr

/-- What comes of a command. -/
structure CommandResult where
  st : CommandState
  reply : CommandReply
  action : Option PtyAction

/-- The index behind a field that begins at `i` and goes on while the extension
bit is clear. -/
def skipField (data : List UInt8) (i : Nat) : Nat :=
  i + ((data.drop i).takeWhile fun b => b &&& gsm0710Ea = 0).length + 1

/-- The `MSC` command at index `i` of the information field. -/
def handleMsc (st : CommandState) (data : List UInt8) (i : Nat) :
    Option (CommandState × Option PtyAction) :=
  if i + 1 < data.length then do
    let dlci ← data[i]?
    let id := (gsm0710DecodeAddress dlci).toNat
    let signals ← data[i + 1]?
    if !st.opened id then return (st, none)
    if signals &&& gsm0710SignalFc = gsm0710SignalFc then
      if st.txFcOff id then return (st, none)
      else return ({ st with txFcOff := Function.update st.txFcOff id true }, some (.choke id))
    else if st.txFcOff id then
      return ({ st with txFcOff := Function.update st.txFcOff id false }, some (.release id))
    else return (st, none)
  else some (st, none)

/-- The response to a command that is not known: the type field, copied octet by
octet. -/
def nscResponse (data : List UInt8) (typeLength : Nat) : Option (List UInt8) := do
  let typeLength := typeLength &&& 127
  let copied ← (List.range typeLength).mapM fun i => data[i]?
  return gsm0710ControlNsc :: (gsm0710Ea ||| UInt8.ofNat (typeLength <<< 1)) :: copied

/-- `handle_command` on the information field of a frame. -/
def handleCommand (st : CommandState) (data : List UInt8) : Option CommandResult :=
  if data.length > 0 then do
    let type ← data[0]?
    let typeLength := skipField data 0
    if type &&& gsm0710Cr = gsm0710Cr then
      let i := skipField data typeLength
      let command := type &&& ~~~gsm0710Cr
      let ack := CommandReply.ack (data.set 0 command)
      if command = gsm0710ControlCld then return ⟨{ st with peerClosing := true }, ack, none⟩
      else if command = gsm0710ControlPsc ∨ command = gsm0710ControlTest ∨
          command = gsm0710ControlPn then
        return ⟨st, ack, none⟩
      else if command = gsm0710ControlMsc then
        let (st, action) ← handleMsc st data i
        return ⟨st, ack, action⟩
      else
        let response ← nscResponse data typeLength
        return ⟨st, .nsc response, none⟩
    else return ⟨st, .nothing, none⟩
  else some ⟨st, .nothing, none⟩

/-! ## Supported commands -/

/-- A command that the mux supports: its type octet has the C/R bit set, and is
one of five.  The frame fits in the size negotiated for DLCI 0, as every frame
does that the basic mode parser delivers (`parseOctets_length_le`). -/
structure SupportedCommand (cfg : MuxConfig) where
  data : List UInt8
  type : UInt8
  type_eq : data.head? = some type
  is_command : type &&& gsm0710Cr = gsm0710Cr
  supported : type &&& ~~~gsm0710Cr ∈
    [gsm0710ControlCld, gsm0710ControlPsc, gsm0710ControlTest, gsm0710ControlPn, gsm0710ControlMsc]
  length_le : data.length ≤ cfg.negotiatedN1 0

/-- The command with the C/R bit of its type octet cleared. -/
def SupportedCommand.response {cfg : MuxConfig} (c : SupportedCommand cfg) : List UInt8 :=
  (c.type &&& ~~~gsm0710Cr) :: c.data.tail

theorem SupportedCommand.data_eq {cfg : MuxConfig} (c : SupportedCommand cfg) :
    c.data = c.type :: c.data.tail := by
  obtain ⟨data, type, htype, -, -, -⟩ := c
  cases data with
  | nil => cases htype
  | cons b bs =>
    cases htype
    rfl

theorem SupportedCommand.length_response {cfg : MuxConfig} (c : SupportedCommand cfg) :
    c.response.length = c.data.length := by
  rw [c.data_eq]
  rfl

/-- `handleMsc` never reads outside the information field. -/
theorem handleMsc_isSome (st : CommandState) (data : List UInt8) (i : Nat) :
    ∃ r, handleMsc st data i = some r := by
  unfold handleMsc
  split
  · rename_i hi
    rw [List.getElem?_eq_getElem (by omega), List.getElem?_eq_getElem hi]
    simp only [Option.bind_eq_bind, Option.bind_some, pure]
    split_ifs <;> exact ⟨_, rfl⟩
  · exact ⟨_, rfl⟩

/-- A supported command is acknowledged with its response. -/
theorem handleCommand_supported {cfg : MuxConfig} (c : SupportedCommand cfg) (st : CommandState) :
    ∃ st' action, handleCommand st c.data = some ⟨st', .ack c.response, action⟩ := by
  have hset : c.data.set 0 (c.type &&& ~~~gsm0710Cr) = c.response := by
    rw [c.data_eq]
    rfl
  have hget : c.data[0]? = some c.type := by
    rw [c.data_eq]
    rfl
  have hpos : c.data.length > 0 := by
    rw [c.data_eq]
    exact Nat.succ_pos _
  have hsupported := c.supported
  simp only [handleCommand, if_pos hpos, hget, c.is_command, hset, Option.bind_eq_bind,
    Option.bind_some, if_true, pure]
  generalize c.type &&& ~~~gsm0710Cr = command at hsupported ⊢
  simp only [List.mem_cons, List.not_mem_nil, or_false] at hsupported
  split_ifs with hcld hplain hmsc
  · exact ⟨_, _, rfl⟩
  · exact ⟨_, _, rfl⟩
  · obtain ⟨⟨st', action⟩, hr⟩ := handleMsc_isSome st c.data (skipField c.data (skipField c.data 0))
    rw [hr]
    exact ⟨st', action, rfl⟩
  · simp_all

end MtkHw.Mux
