import MtkHw.Mux.Defs

/-!
# The wire formats

How `write_frame` composes a frame: the header octets, `fill_adv_frame_buf`, and
the octets of a whole frame in basic and in advanced mode.
-/

namespace MtkHw.Mux

/-! ## Composing a frame -/

/-- `prefix[1]`: extension and command bits, and the channel. -/
def frameAddress (channel : Nat) : UInt8 :=
  (gsm0710Ea ||| gsm0710Cr) ||| ((63 &&& UInt8.ofNat channel) <<< 2)

/-- `prefix[3]` and, for a length above 127, `prefix[4]`. -/
def lengthField (length : Nat) : List UInt8 :=
  if length > 127 then
    [UInt8.ofNat ((0x007F &&& length) <<< 1), UInt8.ofNat ((0x7F80 &&& length) >>> 7)]
  else [(1 : UInt8) ||| UInt8.ofNat (length <<< 1)]

/-- The octets a basic mode frame is checked by: address, control and length. -/
def baseHeader (channel : Nat) (control : UInt8) (length : Nat) : List UInt8 :=
  frameAddress channel :: control :: lengthField length

/-- What follows the start flag of a frame in basic mode. -/
def bodyBase (f : GSM0710Frame) : List UInt8 :=
  let header := baseHeader f.channel.toNat f.control f.length
  header ++ (f.data ++ [frameCalcCrc header, gsm0710FrameFlag])

/-- A frame in basic mode. -/
def encodeBase (f : GSM0710Frame) : List UInt8 := gsm0710FrameFlag :: bodyBase f

/-- `fill_adv_frame_buf`: the octets with the special ones escaped. -/
def fillAdvFrameBuf (data : List UInt8) : List UInt8 :=
  data.flatMap fun b =>
    if b ∈ gsm0710FrameAdvEscapedSyms then [gsm0710FrameAdvEsc, b ^^^ gsm0710FrameAdvEscCopml]
    else [b]

/-- `serial.adv_frame_buf` as `write_frame` fills it. -/
def advFrameBuf (channel : Nat) (control : UInt8) (data : List UInt8) : List UInt8 :=
  gsm0710FrameAdvFlag ::
    (fillAdvFrameBuf [frameAddress channel, control] ++ fillAdvFrameBuf data ++
      fillAdvFrameBuf [frameCalcCrc [frameAddress channel, control]] ++ [gsm0710FrameAdvFlag])

/-- A frame in advanced mode. -/
def encodeAdv (f : GSM0710Frame) : List UInt8 := advFrameBuf f.channel.toNat f.control f.data

/-- A frame in the mode that was negotiated. -/
def encode (cmuxMode : Bool) (f : GSM0710Frame) : List UInt8 :=
  if cmuxMode then encodeAdv f else encodeBase f

/-! ## The fields of a header -/

/-- The address octet gives the channel number back. -/
theorem decode_frameAddress (channel : Nat) :
    gsm0710DecodeAddress (frameAddress channel) = 63 &&& UInt8.ofNat channel :=
  forall_octet (P := fun c => gsm0710DecodeAddress ((gsm0710Ea ||| gsm0710Cr) ||| ((63 &&& c) <<< 2)) =
    63 &&& c) (by decide +kernel) _

/-- The address octet is never mistaken for a flag. -/
theorem frameAddress_ne_flag (channel : Nat) : frameAddress channel ≠ gsm0710FrameFlag :=
  forall_octet (P := fun c => (gsm0710Ea ||| gsm0710Cr) ||| ((63 &&& c) <<< 2) ≠ gsm0710FrameFlag)
    (by decide +kernel) _

/-- The six bits of an address octet hold every channel number. -/
theorem and_63_of_lt {channel : Nat} (h : channel < 64) :
    63 &&& UInt8.ofNat channel = UInt8.ofNat channel := by
  have hall : ∀ c < 64, (63 : UInt8) &&& UInt8.ofNat c = UInt8.ofNat c := by decide +kernel
  exact hall channel h

theorem frameAddress_ofNat (channel : Nat) :
    frameAddress (UInt8.ofNat channel).toNat = frameAddress channel := by
  rw [frameAddress, UInt8.ofNat_toNat]
  rfl

/-- The octets that `write_frame` composes for a channel number. -/
theorem encodeBase_ofNat (channel : Nat) (control : UInt8) (data : List UInt8) :
    encodeBase ⟨UInt8.ofNat channel, control, data⟩ =
      gsm0710FrameFlag :: (baseHeader channel control data.length ++
        (data ++ [frameCalcCrc (baseHeader channel control data.length), gsm0710FrameFlag])) := by
  have hheader : baseHeader (UInt8.ofNat channel).toNat control data.length =
      baseHeader channel control data.length := by
    simp only [baseHeader, frameAddress_ofNat]
  simp only [encodeBase, bodyBase, GSM0710Frame.length, hheader]

theorem encodeAdv_ofNat (channel : Nat) (control : UInt8) (data : List UInt8) :
    encodeAdv ⟨UInt8.ofNat channel, control, data⟩ = advFrameBuf channel control data := by
  simp only [encodeAdv, advFrameBuf, frameAddress_ofNat]

theorem length_bodyBase (f : GSM0710Frame) : (bodyBase f).length =
    (baseHeader f.channel.toNat f.control f.length).length + f.length + 2 := by
  simp only [bodyBase, List.length_append, List.length_cons, List.length_nil]
  rfl

theorem length_bodyBase_ge (f : GSM0710Frame) : 5 ≤ (bodyBase f).length := by
  rw [length_bodyBase]
  simp only [baseHeader, lengthField]
  split <;> simp only [List.length_cons, List.length_nil] <;> omega

end MtkHw.Mux
