import MtkHw.Mux.Transmit
import Mathlib.Algebra.Group.Int.Defs
import Mathlib.Algebra.Group.Nat.Defs

/-!
# The transmit buffer of the advanced mode

In advanced mode `write_frame` composes a frame in `serial.adv_frame_buf`, which `main` allocates for
the frame size of its option `-f`.  How much of a payload goes into a frame is decided by another
number: the frame size of the channel, which `logical_channel_init` takes from a table if the channel
is in it.

The memory is large enough for a frame of `cmux_N1` octets, every one of them escaped; so the buffer
is overrun when the table allows more than that.
-/

namespace MtkHw.Mux

/-! ## The configuration of the channels -/

/-- What the mux is compiled for. -/
structure MuxBuild where
  /-- `MTK_MUX_CHANNEL_64` -/
  muxChannel64 : Bool
  /-- `SIM_COUNT` -/
  simCount : Nat
  /-- `__ANDROID_VT_SUPPORT__` -/
  androidVtSupport : Bool
  /-- `MTK_CSD_DIALER_SUPPORT` -/
  csdDialerSupport : Bool
  /-- `__CCMNI_SUPPORT__` and `__MUX_UT__` -/
  muxUt : Bool
  /-- `MTK_TC1_FEATURE` and `MTK_VOLTE_SUPPORT` -/
  tc1Volte : Bool
  /-- `FUSION_RILD` -/
  fusionRild : Bool

/-- `Channel_Config`, without the path of the terminal. -/
structure ChannelConfig where
  pnDlci : Nat
  pnN1 : Int
deriving DecidableEq, Repr

section Table

variable (b : MuxBuild)

/-- `GSM0710_MAX_CHANNELS` -/
def gsm0710MaxChannels : Nat := if b.tc1Volte || b.muxChannel64 then 64 else 32

/-- The entries of channels with the table's frame size. -/
def channelConfigs (dlcis : List Nat) : List ChannelConfig := dlcis.map fun id => ⟨id, 512⟩

/-- `ch_cfg` -/
def chCfg : List ChannelConfig :=
  channelConfigs [0, 1, 2, 3, 4, 5, 26] ++
    (if b.muxChannel64 then channelConfigs [61, 60, 59, 58, 43] else []) ++
    (if b.simCount ≥ 2 then channelConfigs [6, 7, 8, 9, 10, 27] ++
      (if b.muxChannel64 then channelConfigs [57, 56, 55, 54, 42] else []) else []) ++
    (if b.simCount ≥ 3 then channelConfigs [11, 12, 13, 14, 15, 28] ++
      (if b.muxChannel64 then channelConfigs [53, 52, 51, 50, 41] else []) else []) ++
    (if b.simCount ≥ 4 then channelConfigs [16, 17, 18, 19, 20, 29] ++
      (if b.muxChannel64 then channelConfigs [49, 48, 47, 46, 40] else []) else []) ++
    (if b.androidVtSupport then channelConfigs [24] else []) ++
    (if b.csdDialerSupport then channelConfigs [30] else []) ++
    (if b.muxUt then channelConfigs [28, 29, 30] else []) ++
    (if b.tc1Volte then channelConfigs [31, 32, 33, 34] else []) ++
    (if b.fusionRild then channelConfigs [45, 44] else [])

/-- `MUXD_CH_NUM_ALL` -/
def muxdChNumAll : Nat :=
  let sims := if b.simCount ≥ 4 then 4 else if b.simCount ≥ 3 then 3
    else if b.simCount ≥ 2 then 2 else 1
  1 + ((if b.muxChannel64 then 10 else 5) + 0 + 1) * sims + (if b.androidVtSupport then 1 else 0) +
    (if b.tc1Volte then 4 else 0) + (if b.muxUt then 3 else 0) + (if b.fusionRild then 2 else 0)

/-- `negotiated_N1` of a channel after `logical_channel_init`. -/
def logicalChannelInit (cmuxN1 : Int) (id : Nat) : Int :=
  match ((chCfg b).take (muxdChNumAll b)).find? (·.pnDlci = id) with
  | some cfg => cfg.pnN1
  | none => cmuxN1

/-- The channels as `logical_channel_init` leaves them.  A frame of a size below zero has no
payload, as one of size zero. -/
def muxConfig (cmuxN1 : Int) : MuxConfig where
  maxChannels := gsm0710MaxChannels b
  negotiatedN1 id := (logicalChannelInit b cmuxN1 id).toNat
  maxChannels_le := by
    unfold gsm0710MaxChannels
    split <;> decide

end Table

/-! ## The buffer -/

/-- `(cmux_N1 + 3) * 2 + 2`, an `int` of 32 bits. -/
def advFrameBufSize (cmuxN1 : Int) : Int := Int.bmod ((cmuxN1 + 3) * 2 + 2) (2 ^ 32)

/-- The frame sizes that `main` goes on with: the number in the option is an `int`, and the memory
is allocated, which it cannot be for a size below zero. -/
structure AcceptedN1 (cmuxN1 : Int) : Prop where
  ge : -2 ^ 31 ≤ cmuxN1
  lt : cmuxN1 < 2 ^ 31
  allocated : 0 ≤ advFrameBufSize cmuxN1

/-- The frame that `write_frame` stores in `serial.adv_frame_buf`. -/
def advStored (cfg : MuxConfig) (tx : TxState) (channel : Nat) (input : List UInt8) (length : Nat)
    (type : UInt8) : List UInt8 :=
  advFrameBuf channel (frameControl tx input type).1
    (input.take (min (cfg.negotiatedN1 channel) length))

/-! ## How much a frame takes -/

/-- Escaping at most doubles the octets. -/
theorem length_fillAdvFrameBuf_le (data : List UInt8) :
    (fillAdvFrameBuf data).length ≤ 2 * data.length := by
  induction data with
  | nil => exact Nat.le_refl 0
  | cons b bs ih =>
    rw [fillAdvFrameBuf, List.flatMap_cons, List.length_append, List.length_cons]
    unfold fillAdvFrameBuf at ih
    split <;> simp only [List.length_cons, List.length_nil] <;> omega

/-- A frame takes two octets for each one it carries, and at most eight more. -/
theorem length_advFrameBuf_le (channel : Nat) (control : UInt8) (data : List UInt8) :
    (advFrameBuf channel control data).length ≤ 2 * data.length + 8 := by
  have hheader := length_fillAdvFrameBuf_le [frameAddress channel, control]
  have hdata := length_fillAdvFrameBuf_le data
  have hfcs := length_fillAdvFrameBuf_le [frameCalcCrc [frameAddress channel, control]]
  simp only [List.length_cons, List.length_nil] at hheader hfcs
  simp only [advFrameBuf, List.length_cons, List.length_append, List.length_nil]
  omega

/-- A payload of octets that are all escaped takes twice its length. -/
theorem length_fillAdvFrameBuf_replicate (n : Nat) :
    (fillAdvFrameBuf (List.replicate n gsm0710FrameAdvFlag)).length = 2 * n := by
  induction n with
  | zero => rfl
  | succ n ih =>
    rw [List.replicate_succ, fillAdvFrameBuf, List.flatMap_cons, List.length_append]
    unfold fillAdvFrameBuf at ih
    rw [ih, if_pos (by decide)]
    simp only [List.length_cons, List.length_nil]
    omega

/-! ## The sizes that the channels are given -/

theorem pnN1_chCfg (b : MuxBuild) : ∀ cfg ∈ chCfg b, cfg.pnN1 = 512 := by
  have hconfigs : ∀ dlcis, ∀ cfg ∈ channelConfigs dlcis, cfg.pnN1 = 512 := by
    intro dlcis cfg hcfg
    obtain ⟨id, -, rfl⟩ := List.mem_map.mp hcfg
    rfl
  have hif : ∀ {p : Prop} [Decidable p] {l : List ChannelConfig},
      (∀ cfg ∈ l, cfg.pnN1 = 512) → ∀ cfg ∈ (if p then l else []), cfg.pnN1 = 512 := by
    intro p _ l hl cfg hcfg
    split at hcfg
    · exact hl cfg hcfg
    · cases hcfg
  have happend : ∀ {l l' : List ChannelConfig}, (∀ cfg ∈ l, cfg.pnN1 = 512) →
      (∀ cfg ∈ l', cfg.pnN1 = 512) → ∀ cfg ∈ l ++ l', cfg.pnN1 = 512 := fun hl hl' =>
    List.forall_mem_append.mpr ⟨hl, hl'⟩
  have hsim : ∀ {p : Prop} [Decidable p] (dlcis dlcis' : List Nat), ∀ cfg ∈
      (if p then channelConfigs dlcis ++ (if b.muxChannel64 then channelConfigs dlcis' else [])
        else []), cfg.pnN1 = 512 := fun dlcis dlcis' =>
    hif (happend (hconfigs dlcis) (hif (hconfigs dlcis')))
  unfold chCfg
  refine happend (happend (happend (happend (happend (happend (happend (happend (happend
    (hconfigs _) (hif (hconfigs _))) (hsim _ _)) (hsim _ _)) (hsim _ _)) (hif (hconfigs _)))
    (hif (hconfigs _))) (hif (hconfigs _))) (hif (hconfigs _))) (hif (hconfigs _))

/-- A channel gets the table's frame size, or that of the option. -/
theorem logicalChannelInit_eq (b : MuxBuild) (cmuxN1 : Int) (id : Nat) :
    logicalChannelInit b cmuxN1 id = 512 ∨ logicalChannelInit b cmuxN1 id = cmuxN1 := by
  unfold logicalChannelInit
  split
  · rename_i cfg hfind
    exact .inl (pnN1_chCfg b cfg (List.mem_of_mem_take (List.mem_of_find?_eq_some hfind)))
  · exact .inr rfl

/-- The first channels are in the table of every build. -/
theorem logicalChannelInit_base (b : MuxBuild) (cmuxN1 : Int) {id : Nat} (hid : id ≤ 5) :
    logicalChannelInit b cmuxN1 id = 512 := by
  have hnum : ∃ k, muxdChNumAll b = 7 + k := by
    refine Nat.exists_eq_add_of_le ?_
    simp only [muxdChNumAll]
    have hsims : 1 ≤ if b.simCount ≥ 4 then 4 else if b.simCount ≥ 3 then 3
        else if b.simCount ≥ 2 then 2 else 1 := by split_ifs <;> decide
    have hrild : 6 ≤ (if b.muxChannel64 then 10 else 5) + 0 + 1 := by split <;> decide
    have := Nat.mul_le_mul hrild hsims
    omega
  obtain ⟨k, hk⟩ := hnum
  obtain ⟨rest, hrest⟩ : ∃ rest, chCfg b = channelConfigs [0, 1, 2, 3, 4, 5, 26] ++ rest := by
    unfold chCfg
    simp only [List.append_assoc]
    exact ⟨_, rfl⟩
  have hfind : (channelConfigs [0, 1, 2, 3, 4, 5, 26]).find? (·.pnDlci = id) = some ⟨id, 512⟩ := by
    have hall : ∀ i ≤ 5, (channelConfigs [0, 1, 2, 3, 4, 5, 26]).find? (·.pnDlci = i) =
        some ⟨i, 512⟩ := by decide
    exact hall id hid
  have htake : (chCfg b).take (muxdChNumAll b) =
      channelConfigs [0, 1, 2, 3, 4, 5, 26] ++ rest.take k := by
    rw [hk, hrest]
    generalize hbase : channelConfigs [0, 1, 2, 3, 4, 5, 26] = base
    have hlen : base.length = 7 := by
      rw [← hbase]
      rfl
    rw [← hlen]
    exact List.take_length_add_append k
  rw [logicalChannelInit, htake, List.find?_append, hfind]
  rfl

/-! ## When the buffer is large enough -/

/-- No frame of any channel is longer than the buffer: every type, every payload. -/
def AdvFits (b : MuxBuild) (cmuxN1 : Int) : Prop :=
  ∀ channel < gsm0710MaxChannels b, ∀ (tx : TxState) (input : List UInt8) (length : Nat)
    (type : UInt8), (advStored (muxConfig b cmuxN1) tx channel input length type).length ≤
      advFrameBufSize cmuxN1

theorem length_advStored_le (cfg : MuxConfig) (tx : TxState) (channel : Nat) (input : List UInt8)
    (length : Nat) (type : UInt8) :
    (advStored cfg tx channel input length type).length ≤ 2 * cfg.negotiatedN1 channel + 8 := by
  have hframe := length_advFrameBuf_le channel (frameControl tx input type).1
    (input.take (min (cfg.negotiatedN1 channel) length))
  have hdata := List.length_take_le (min (cfg.negotiatedN1 channel) length) input
  unfold advStored
  omega

/-- A frame on channel 4 whose payload is escaped throughout, and whose address and checksum are
escaped as well. -/
theorem length_advStored_channel_four (b : MuxBuild) (cmuxN1 : Int) :
    (advStored (muxConfig b cmuxN1) {} 4 (List.replicate 512 gsm0710FrameAdvFlag) 512
      (gsm0710TypeUi ||| gsm0710Pf)).length = 1031 := by
  have hn1 : (muxConfig b cmuxN1).negotiatedN1 4 = 512 :=
    congrArg Int.toNat (logicalChannelInit_base b cmuxN1 (by decide))
  have hcontrol : (frameControl {} (List.replicate 512 gsm0710FrameAdvFlag)
      (gsm0710TypeUi ||| gsm0710Pf)).1 = gsm0710TypeUi ||| gsm0710Pf := rfl
  have hdata := length_fillAdvFrameBuf_replicate 512
  have hheader : (fillAdvFrameBuf [frameAddress 4, gsm0710TypeUi ||| gsm0710Pf]).length = 4 := by
    decide +kernel
  have hfcs : (fillAdvFrameBuf
      [frameCalcCrc [frameAddress 4, gsm0710TypeUi ||| gsm0710Pf]]).length = 1 := by
    decide +kernel
  rw [advStored, hcontrol, hn1, Nat.min_self,
    List.take_of_length_le (Nat.le_of_eq List.length_replicate)]
  simp only [advFrameBuf, List.length_cons, List.length_append, List.length_nil, hheader, hdata,
    hfcs]

/-- **When the transmit buffer is not overrun.**  For a frame size that `main` accepts, no frame of
any channel is longer than the buffer if and only if the buffer has room for a frame of the table's
size: it was allocated for 512 octets at least. -/
theorem advFits_iff (b : MuxBuild) {cmuxN1 : Int} (h : AcceptedN1 cmuxN1) :
    AdvFits b cmuxN1 ↔ 1032 ≤ advFrameBufSize cmuxN1 := by
  obtain ⟨hge, hlt, halloc⟩ := h
  -- The size is even, and is what the option says unless the computation overflows.
  have hsize : advFrameBufSize cmuxN1 +
      Int.bdiv ((cmuxN1 + 3) * 2 + 2) (2 ^ 32) * (2 ^ 32 : Nat) = (cmuxN1 + 3) * 2 + 2 :=
    Int.bmod_add_bdiv' _ _
  have hsizeLt : advFrameBufSize cmuxN1 < ((2 ^ 32 : Nat) + 1) / 2 := Int.bmod_lt (by decide)
  generalize Int.bdiv ((cmuxN1 + 3) * 2 + 2) (2 ^ 32) = k at hsize
  constructor
  · intro hfits
    have hchannel : 4 < gsm0710MaxChannels b := by
      unfold gsm0710MaxChannels
      split <;> decide
    have hlen := hfits 4 hchannel {} (List.replicate 512 gsm0710FrameAdvFlag) 512
      (gsm0710TypeUi ||| gsm0710Pf)
    rw [length_advStored_channel_four] at hlen
    omega
  · intro hroom channel _ tx input length type
    have hlen := length_advStored_le (muxConfig b cmuxN1) tx channel input length type
    have hn1 : (muxConfig b cmuxN1).negotiatedN1 channel =
        (logicalChannelInit b cmuxN1 channel).toNat := rfl
    rcases logicalChannelInit_eq b cmuxN1 channel with htable | hoption
    · rw [hn1, htable] at hlen
      omega
    · rw [hn1, hoption] at hlen
      omega

/-- The frame size that `main` starts with is large enough. -/
theorem advFits_default : AdvFits ⟨false, 1, false, false, false, false, false⟩ 1509 :=
  (advFits_iff _ ⟨by decide, by decide, by decide⟩).mpr (by decide)

/-- The option `-f 31`: a payload of 512 octets on the control channel, all of them flags, overruns
the buffer. -/
theorem not_advFits_thirtyOne :
    AcceptedN1 31 ∧ ¬ AdvFits ⟨false, 1, false, false, false, false, false⟩ 31 := by
  refine ⟨⟨by decide, by decide, by decide⟩, fun hfits => ?_⟩
  have hlen := hfits 0 (by decide) {} (List.replicate 512 gsm0710FrameAdvFlag) 512 gsm0710TypeUih
  have hstored : 1029 ≤ (advStored (muxConfig ⟨false, 1, false, false, false, false, false⟩ 31) {} 0
      (List.replicate 512 gsm0710FrameAdvFlag) 512 gsm0710TypeUih).length := by
    decide +kernel
  have hsize : advFrameBufSize 31 = 70 := by decide
  omega

end MtkHw.Mux
