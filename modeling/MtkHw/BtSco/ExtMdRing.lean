import MtkHw.BtSco.Msbc
import MtkHw.Lib.Machine
import MtkHw.Lib.Ring

/-!
# The rings to and from an external modem

For an external modem, samples pass through two rings, one for each direction.  A thread
reads blocks off the link, decodes them, and puts what has come out into the uplink's ring
once it sees room for a fixed size; another one takes a fixed size out once there is as
much.  The downlink goes the other way round.

Equal positions stand for a full ring with both counters.  Each ring starts with two bytes
more than half its size, so that it is not emptied by reads of half its size as long as
what is put in keeps to the same sizes.
-/

namespace MtkHw.BtSco

open MtkHw.Lib

def scoRxPcm8kBufSize : Nat := 60
def btscoCvsdRxInbufSize : Nat := 480
def btscoCvsdTxOutbufSize : Nat := 480

/-! ## A ring -/

/-- A ring, with its positions counted from `pBufBase`. -/
structure RingBuf where
  bufLen : Nat
  mem : Nat → UInt8
  pRead : Nat
  pWrite : Nat

namespace RingBuf

/-- `BT_SCO_ExtMDInitBuf`, with the buffer as it has been allocated. -/
def extMDInitBuf (bufLen : Nat) : RingBuf where
  bufLen := bufLen
  mem := fun _ => 0
  pRead := bufLen / 2 - 2
  pWrite := 0

def extMDGetBufSpace (r : RingBuf) : Nat :=
  let count : Int := r.pRead - r.pWrite
  (if count < 0 then count + r.bufLen else count).toNat

def extMDGetBufCount (r : RingBuf) : Nat :=
  let count : Int := r.pWrite - r.pRead
  (if count ≤ 0 then count + r.bufLen else count).toNat

/-- A position that has reached the end goes back to the start. -/
def wrap (r : RingBuf) (p : Nat) : Nat := if r.bufLen ≤ p then p - r.bufLen else p

def extMDWriteDataToRingBuf (r : RingBuf) (buf : List UInt8) : RingBuf :=
  let size1 := r.bufLen - r.pWrite
  if buf.length ≤ size1 then
    { r with
      mem := Ring.blit r.mem r.pWrite buf
      pWrite := r.wrap (r.pWrite + buf.length) }
  else
    { r with
      mem := Ring.blit (Ring.blit r.mem r.pWrite (buf.take size1)) 0 (buf.drop size1)
      pWrite := buf.length - size1 }

def extMDReadDataFromRingBuf (r : RingBuf) (size : Nat) : List UInt8 × RingBuf :=
  let size1 := r.bufLen - r.pRead
  if size ≤ size1 then
    (Ring.slice r.mem r.pRead size, { r with pRead := r.wrap (r.pRead + size) })
  else
    (Ring.slice r.mem r.pRead size1 ++ Ring.slice r.mem 0 (size - size1),
      { r with pRead := size - size1 })

end RingBuf

/-! ## The threads -/

/-- A block off the link: its bytes, whether it is valid, what the libraries make of it, and
what stands in the output buffer behind. -/
structure LinkBlock where
  block : List UInt8
  packetvalid : Bool
  codec : Codec
  outbuf : Nat → UInt8

/-- The bytes that `btsco_process_RX_CVSD` puts out: the decoder takes a whole block, and its
samples are converted. -/
def btscoProcessRxCvsd (inbuf : List UInt8) (outsize : Nat) (codec : Codec) : Nat :=
  codec.srcProcess ((codec.decProcess inbuf).2 * 2) outsize

/-- The loop over the blocks that have been read: the output accumulates. -/
def accumulate (fIsWideBand : Bool) (rx : Rx) : List LinkBlock → Rx × List UInt8
  | [] => (rx, [])
  | b :: blocks =>
    let out :=
      if fIsWideBand then
        let res := btscoProcessRxMsbc true rx b.block b.packetvalid msbcPcmFrameByte b.codec
        (res.rx, res.outsize)
      else (rx, btscoProcessRxCvsd b.block scoRxPcm8kBufSize b.codec)
    let rest := accumulate fIsWideBand out.1 blocks
    (rest.1, Ring.slice b.outbuf 0 out.2 ++ rest.2)

/-- A ring, what has been put in, and what has been taken out. -/
structure Channel where
  ring : RingBuf
  produced : List UInt8
  received : List UInt8

namespace Channel

def init (bufLen : Nat) : Channel := ⟨.extMDInitBuf bufLen, [], []⟩

def put (c : Channel) (data : List UInt8) : Channel :=
  { c with
    ring := c.ring.extMDWriteDataToRingBuf data
    produced := c.produced ++ data }

/-- Take out as much as the threshold, once there is as much. -/
def take (c : Channel) (threshold : Nat) : Channel :=
  if threshold ≤ c.ring.extMDGetBufCount then
    let out := c.ring.extMDReadDataFromRingBuf threshold
    { c with ring := out.2, received := c.received ++ out.1 }
  else c

end Channel

structure ExtMd where
  rx : Rx
  ul : Channel
  dl : Channel

inductive ExtMdAction where
  /-- `ExtMD_btsco_cvsd_UL_Read_main`: blocks are read, decoded and put into the ring. -/
  | ulRead (blocks : List LinkBlock)
  /-- `ExtMD_btsco_cvsd_UL_Write_main`. -/
  | ulWrite
  /-- `ExtMD_btsco_cvsd_DL_Read_main`, with what the kernel has handed out. -/
  | dlRead (data : List UInt8)
  /-- `ExtMD_btsco_cvsd_DL_Write_main`. -/
  | dlWrite

/-- What a read off the link can return. -/
def LinkRead (blocks : List LinkBlock) : Prop :=
  blocks ≠ [] ∧ blocks.length ≤ 16 ∧ ∀ b ∈ blocks, b.block.length = 30

instance (blocks : List LinkBlock) : Decidable (LinkRead blocks) := by
  unfold LinkRead
  exact @instDecidableAnd _ _ (decidable_of_iff (¬blocks.isEmpty) (by simp)) inferInstance

namespace ExtMd

/-- Data for which no room is found in time is dropped. -/
def step (fIsWideBand : Bool) (s : ExtMd) : ExtMdAction → Option ExtMd
  | .ulRead blocks =>
    if LinkRead blocks then
      let out := accumulate fIsWideBand s.rx blocks
      some { s with
        rx := out.1
        ul := if btscoCvsdRxInbufSize * 2 ≤ s.ul.ring.extMDGetBufSpace then s.ul.put out.2
          else s.ul }
    else none
  | .ulWrite => some { s with ul := s.ul.take (btscoCvsdRxInbufSize * 2) }
  | .dlRead data =>
    if 0 < data.length ∧ data.length ≤ btscoCvsdTxOutbufSize * 2 then
      some { s with
        dl := if data.length ≤ s.dl.ring.extMDGetBufSpace then s.dl.put data else s.dl }
    else none
  | .dlWrite => some { s with dl := s.dl.take (btscoCvsdTxOutbufSize * 2) }

end ExtMd

def extMdMachine (fIsWideBand fEnablePLC : Bool) : Machine ExtMd ExtMdAction where
  init :=
    { rx := .reset fEnablePLC
      ul := .init (btscoCvsdRxInbufSize * 2 * 2)
      dl := .init (btscoCvsdTxOutbufSize * 2 * 2) }
  step := ExtMd.step fIsWideBand

/-! ## What the rings shall do -/

namespace Channel

/-- What the consumer shall receive: the bytes that the ring starts with, and what has been
put in. -/
def sent (c : Channel) : List UInt8 := List.replicate (c.ring.bufLen / 2 + 2) 0 ++ c.produced

def unread (c : Channel) : List UInt8 := c.sent.drop c.received.length

/-- The positions lie in the ring, its space is free or unread, nothing unread has been
overwritten, and what has been received is what has been put in, in order. -/
structure Delivers (c : Channel) : Prop where
  write_lt : c.ring.pWrite < c.ring.bufLen
  stores : Ring.Stores c.ring.bufLen c.ring.mem c.ring.pRead c.unread
  counted : c.ring.extMDGetBufSpace + c.unread.length = c.ring.bufLen
  received : c.received <+: c.sent

end Channel

structure ExtMd.Delivers (s : ExtMd) : Prop where
  ul : s.ul.Delivers
  dl : s.dl.Delivers

/-! ## When they do -/

/-- What has accumulated fits into the room that is seen, and a read does not take
everything that is unread. -/
def ExtMd.Kept (fIsWideBand : Bool) (s : ExtMd) : ExtMdAction → Prop
  | .ulRead blocks =>
    LinkRead blocks → btscoCvsdRxInbufSize * 2 ≤ s.ul.ring.extMDGetBufSpace →
      (accumulate fIsWideBand s.rx blocks).2.length ≤ s.ul.ring.extMDGetBufSpace
  | .ulWrite => s.ul.ring.extMDGetBufCount ≠ btscoCvsdRxInbufSize * 2
  | .dlRead _ => True
  | .dlWrite => s.dl.ring.extMDGetBufCount ≠ btscoCvsdTxOutbufSize * 2

/-! ## The ring's functions -/

namespace RingBuf

variable {r : RingBuf}

theorem wrap_add {p k : Nat} : r.wrap (p + k) = Ring.advance r.bufLen p k := by
  unfold wrap Ring.advance
  split_ifs <;> omega

theorem extMDWriteDataToRingBuf_eq (hw : r.pWrite < r.bufLen) (data : List UInt8) :
    r.extMDWriteDataToRingBuf data = { r with
      mem := Ring.put r.bufLen r.mem r.pWrite data
      pWrite := Ring.advance r.bufLen r.pWrite data.length } := by
  unfold extMDWriteDataToRingBuf Ring.put
  dsimp only
  split_ifs with hone htwo htwo
  · exact absurd htwo (Nat.not_lt_of_le hone)
  · rw [wrap_add]
  · congr 1
    unfold Ring.advance
    split_ifs <;> omega
  · exact absurd (Nat.le_of_not_lt htwo) hone

theorem extMDReadDataFromRingBuf_eq (hr : r.pRead < r.bufLen) (size : Nat) :
    r.extMDReadDataFromRingBuf size = (Ring.get r.bufLen r.mem r.pRead size,
      { r with pRead := Ring.advance r.bufLen r.pRead size }) := by
  unfold extMDReadDataFromRingBuf Ring.get
  dsimp only
  split_ifs with hone htwo htwo
  · exact absurd htwo (Nat.not_lt_of_le hone)
  · rw [wrap_add]
  · congr 2
    unfold Ring.advance
    split_ifs <;> omega
  · exact absurd (Nat.le_of_not_lt htwo) hone

/-- Equal positions leave no space. -/
theorem extMDGetBufSpace_eq {k : Nat} (hr : r.pRead < r.bufLen) (hk : k ≤ r.bufLen)
    (hwrite : r.pWrite = Ring.advance r.bufLen r.pRead k) :
    r.extMDGetBufSpace = if k = 0 then 0 else r.bufLen - k := by
  unfold extMDGetBufSpace
  unfold Ring.advance at hwrite
  dsimp only
  split_ifs at hwrite ⊢ <;> omega

/-- Equal positions stand for a full ring. -/
theorem extMDGetBufCount_eq {k : Nat} (hr : r.pRead < r.bufLen) (hk : k ≤ r.bufLen)
    (hwrite : r.pWrite = Ring.advance r.bufLen r.pRead k) :
    r.extMDGetBufCount = if k = 0 then r.bufLen else k := by
  unfold extMDGetBufCount
  unfold Ring.advance at hwrite
  dsimp only
  split_ifs at hwrite ⊢ <;> omega

end RingBuf

/-! ## One direction -/

namespace Channel

variable {c : Channel}

/-- The write position is behind what is unread. -/
structure Sound (c : Channel) : Prop extends Delivers c where
  write : c.ring.pWrite = Ring.advance c.ring.bufLen c.ring.pRead c.unread.length

theorem Sound.unread_pos (h : c.Sound) : 0 < c.unread.length := by
  have hpos := h.stores.lt
  have hcounted := h.counted
  rw [RingBuf.extMDGetBufSpace_eq h.stores.lt h.stores.length_le h.write] at hcounted
  split_ifs at hcounted <;> omega

theorem Sound.space (h : c.Sound) :
    c.ring.extMDGetBufSpace = c.ring.bufLen - c.unread.length := by
  rw [RingBuf.extMDGetBufSpace_eq h.stores.lt h.stores.length_le h.write,
    if_neg (Nat.ne_of_gt h.unread_pos)]

theorem Sound.count (h : c.Sound) : c.ring.extMDGetBufCount = c.unread.length := by
  rw [RingBuf.extMDGetBufCount_eq h.stores.lt h.stores.length_le h.write,
    if_neg (Nat.ne_of_gt h.unread_pos)]

theorem Delivers.sent_eq (h : c.Delivers) : c.received ++ c.unread = c.sent := by
  obtain ⟨rest, hrest⟩ := h.received
  rw [unread, ← hrest, List.drop_left]

theorem put_bufLen (hw : c.ring.pWrite < c.ring.bufLen) (data : List UInt8) :
    (c.put data).ring.bufLen = c.ring.bufLen := by
  change (c.ring.extMDWriteDataToRingBuf data).bufLen = _
  rw [RingBuf.extMDWriteDataToRingBuf_eq hw]

theorem put_sent (hw : c.ring.pWrite < c.ring.bufLen) (data : List UInt8) :
    (c.put data).sent = c.sent ++ data := by
  rw [sent, put_bufLen hw, sent, List.append_assoc]
  rfl

theorem put_unread (h : c.Delivers) (data : List UInt8) :
    (c.put data).unread = c.unread ++ data := by
  rw [unread, put_sent h.write_lt, unread]
  exact List.drop_append_of_le_length h.received.length_le

/-- Data that fits into the free space is put behind what is unread. -/
theorem Sound.put (h : c.Sound) {data : List UInt8}
    (hfits : data.length ≤ c.ring.extMDGetBufSpace) : (c.put data).Sound := by
  have hle := h.stores.length_le
  rw [h.space] at hfits
  have hlen : c.unread.length + data.length ≤ c.ring.bufLen := by omega
  have hring : (c.put data).ring = { c.ring with
      mem := Ring.put c.ring.bufLen c.ring.mem c.ring.pWrite data
      pWrite := Ring.advance c.ring.bufLen c.ring.pWrite data.length } :=
    RingBuf.extMDWriteDataToRingBuf_eq h.write_lt data
  have hwrite : (c.put data).ring.pWrite = Ring.advance (c.put data).ring.bufLen
      (c.put data).ring.pRead (c.put data).unread.length := by
    rw [put_unread h.toDelivers, hring, List.length_append]
    change Ring.advance _ c.ring.pWrite _ = _
    rw [h.write, Ring.advance_advance h.stores.lt hlen]
  have hstores : Ring.Stores (c.put data).ring.bufLen (c.put data).ring.mem
      (c.put data).ring.pRead (c.put data).unread := by
    rw [put_unread h.toDelivers, hring]
    change Ring.Stores c.ring.bufLen (Ring.put _ _ c.ring.pWrite data) _ _
    rw [h.write]
    exact h.stores.put hlen
  refine ⟨⟨?_, hstores, ?_, ?_⟩, hwrite⟩
  · rw [hwrite]
    exact hstores.write_lt
  · have hpos := h.unread_pos
    rw [RingBuf.extMDGetBufSpace_eq hstores.lt hstores.length_le hwrite, if_neg,
      Nat.sub_add_cancel hstores.length_le]
    rw [put_unread h.toDelivers, List.length_append]
    omega
  · rw [put_sent h.write_lt]
    exact h.received.trans (List.prefix_append _ _)

/-- Data that does not fit overwrites what is unread. -/
theorem not_delivers_put (h : c.Sound) {data : List UInt8}
    (hover : c.ring.extMDGetBufSpace < data.length) : ¬(c.put data).Delivers := by
  intro hput
  have hle := hput.stores.length_le
  rw [put_unread h.toDelivers, put_bufLen h.write_lt, List.length_append] at hle
  rw [h.space] at hover
  omega

/-- What a read takes out. -/
theorem take_eq (h : c.Sound) {threshold : Nat} (hle : threshold ≤ c.unread.length) :
    c.take threshold = { c with
      ring := { c.ring with pRead := Ring.advance c.ring.bufLen c.ring.pRead threshold }
      received := c.received ++ c.unread.take threshold } := by
  have hsize := hle.trans h.stores.length_le
  have hwalk := h.stores.walk_part (show 0 + threshold ≤ c.unread.length by omega)
  rw [Ring.advance_zero h.stores.lt, List.drop_zero] at hwalk
  unfold take
  rw [h.count, if_pos hle]
  dsimp only
  rw [RingBuf.extMDReadDataFromRingBuf_eq h.stores.lt, Ring.get_eq_walk _ h.stores.lt hsize, hwalk]

theorem take_unread (h : c.Sound) {threshold : Nat} (hle : threshold ≤ c.unread.length) :
    (c.take threshold).unread = c.unread.drop threshold := by
  rw [take_eq h hle]
  change c.sent.drop (c.received ++ _).length = _
  rw [List.length_append, List.length_take, Nat.min_eq_left hle, ← List.drop_drop]
  rfl

/-- A read that leaves something unread keeps the ring sound. -/
theorem Sound.take (h : c.Sound) {threshold : Nat}
    (hne : c.ring.extMDGetBufCount ≠ threshold) : (c.take threshold).Sound := by
  rw [h.count] at hne
  by_cases hle : threshold ≤ c.unread.length
  · have hstores := h.stores.advance hle
    have hsize := h.stores.length_le
    rw [← take_unread h hle] at hstores
    have hring : (c.take threshold).ring =
        { c.ring with pRead := Ring.advance c.ring.bufLen c.ring.pRead threshold } := by
      rw [take_eq h hle]
    have hlength : (c.take threshold).unread.length = c.unread.length - threshold := by
      rw [take_unread h hle, List.length_drop]
    have hwrite : (c.take threshold).ring.pWrite = Ring.advance (c.take threshold).ring.bufLen
        (c.take threshold).ring.pRead (c.take threshold).unread.length := by
      rw [hlength, hring]
      change c.ring.pWrite = _
      rw [Ring.advance_advance h.stores.lt (by omega), Nat.add_sub_cancel' hle, h.write]
    refine ⟨⟨?_, by rwa [hring], ?_, ?_⟩, hwrite⟩
    · rw [hring]
      exact h.write_lt
    · rw [RingBuf.extMDGetBufSpace_eq (by rw [hring]; exact hstores.lt)
        (by rw [hring]; exact hstores.length_le) hwrite, hlength, hring,
        if_neg (by omega)]
      change c.ring.bufLen - _ + _ = c.ring.bufLen
      omega
    · rw [take_eq h hle]
      change c.received ++ c.unread.take threshold <+: c.sent
      rw [← h.sent_eq]
      exact (List.prefix_append_right_inj _).mpr (List.take_prefix _ _)
  · rw [Channel.take, h.count, if_neg hle]
    exact h

/-- A read of everything makes the ring look full. -/
theorem not_delivers_take (h : c.Sound) {threshold : Nat}
    (hall : c.ring.extMDGetBufCount = threshold) : ¬(c.take threshold).Delivers := by
  rw [h.count] at hall
  intro htake
  have hring : (c.take threshold).ring =
      { c.ring with pRead := Ring.advance c.ring.bufLen c.ring.pRead threshold } := by
    rw [take_eq h hall.ge]
  have hlength : (c.take threshold).unread.length = 0 := by
    rw [take_unread h hall.ge, List.length_drop, hall, Nat.sub_self]
  have hwrite : (c.take threshold).ring.pWrite = (c.take threshold).ring.pRead := by
    rw [hring, ← hall]
    exact h.write
  have hcounted := htake.counted
  have hpos := htake.stores.lt
  rw [hlength, RingBuf.extMDGetBufSpace, hwrite] at hcounted
  simp at hcounted
  omega

/-- At first the ring holds two zeros more than half of its size. -/
theorem sound_init {bufLen : Nat} (h : 4 ≤ bufLen) (heven : bufLen % 2 = 0) :
    (init bufLen).Sound := by
  have hunread : (init bufLen).unread = List.replicate (bufLen / 2 + 2) 0 := List.append_nil _
  have hlength : (init bufLen).unread.length = bufLen / 2 + 2 := by
    rw [hunread, List.length_replicate]
  have hread : bufLen / 2 - 2 < bufLen := by omega
  have hsize : bufLen / 2 + 2 ≤ bufLen := by omega
  have hwrite : 0 = Ring.advance bufLen (bufLen / 2 - 2) (init bufLen).unread.length := by
    rw [hlength, Ring.advance, if_neg (by omega)]
    omega
  refine ⟨⟨Nat.zero_lt_of_lt hread, ⟨hread, hlength.le.trans hsize, ?_⟩, ?_,
    List.nil_prefix⟩, hwrite⟩
  · rw [hlength, hunread]
    exact Ring.walk_const 0 _ _
  · rw [RingBuf.extMDGetBufSpace_eq hread (hlength.le.trans hsize) hwrite, hlength,
      if_neg (Nat.succ_ne_zero _)]
    exact Nat.sub_add_cancel hsize

end Channel

/-! ## Runs -/

namespace ExtMd

structure Sound (s : ExtMd) : Prop where
  ul : s.ul.Sound
  dl : s.dl.Sound

variable {wide : Bool} {s s' : ExtMd}

/-- A step that meets the condition keeps the rings sound. -/
theorem Sound.step (h : s.Sound) {a : ExtMdAction} (hkept : s.Kept wide a)
    (hstep : s.step wide a = some s') : s'.Sound := by
  cases a with
  | ulRead blocks =>
    obtain ⟨hread, hs'⟩ := Option.ite_none_right_eq_some.mp hstep
    cases hs'
    refine ⟨?_, h.dl⟩
    dsimp only
    split_ifs with hroom
    · exact h.ul.put (hkept hread hroom)
    · exact h.ul
  | ulWrite =>
    cases hstep
    exact ⟨h.ul.take hkept, h.dl⟩
  | dlRead data =>
    obtain ⟨-, hs'⟩ := Option.ite_none_right_eq_some.mp hstep
    cases hs'
    refine ⟨h.ul, ?_⟩
    dsimp only
    split_ifs with hroom
    · exact h.dl.put hroom
    · exact h.dl
  | dlWrite =>
    cases hstep
    exact ⟨h.ul, h.dl.take hkept⟩

/-- A step after which the rings deliver has met the condition. -/
theorem Sound.kept_of_step (h : s.Sound) {a : ExtMdAction} (hstep : s.step wide a = some s')
    (hdelivers : s'.Delivers) : s.Kept wide a := by
  cases a with
  | ulRead blocks =>
    obtain ⟨-, hs'⟩ := Option.ite_none_right_eq_some.mp hstep
    cases hs'
    intro hread hroom
    have hput := hdelivers.ul
    dsimp only at hput
    rw [if_pos hroom] at hput
    exact Nat.le_of_not_lt fun hover => Channel.not_delivers_put h.ul hover hput
  | ulWrite =>
    cases hstep
    exact fun hall => Channel.not_delivers_take h.ul hall hdelivers.ul
  | dlRead data => exact trivial
  | dlWrite =>
    cases hstep
    exact fun hall => Channel.not_delivers_take h.dl hall hdelivers.dl

/-- What cannot be read accumulates nothing. -/
theorem kept_of_stuck {a : ExtMdAction} (hstep : s.step wide a = none) : s.Kept wide a := by
  cases a with
  | ulRead blocks =>
    intro hread
    rw [ExtMd.step, if_pos hread] at hstep
    cases hstep
  | ulWrite => cases hstep
  | dlRead data => exact trivial
  | dlWrite => cases hstep

end ExtMd

/-- The rings deliver along a run exactly if what accumulates in the uplink always fits, and
no read takes everything that is unread. -/
theorem extMdMachine_delivers_iff (wide fEnablePLC : Bool) (acts : List ExtMdAction) :
    (extMdMachine wide fEnablePLC).Along ExtMd.Delivers (extMdMachine wide fEnablePLC).init acts ↔
      (extMdMachine wide fEnablePLC).Meets (ExtMd.Kept wide)
        (extMdMachine wide fEnablePLC).init acts := by
  have hinit : ExtMd.Sound (extMdMachine wide fEnablePLC).init :=
    ⟨Channel.sound_init (by decide) (by decide), Channel.sound_init (by decide) (by decide)⟩
  refine (extMdMachine wide fEnablePLC).along_iff_meets_of_keeps ?_ ?_ ?_ ?_ hinit acts
  · exact fun s a _ hnone => ExtMd.kept_of_stuck hnone
  · exact fun s h => ⟨h.ul.toDelivers, h.dl.toDelivers⟩
  · exact fun s a s' h hkept hstep => h.step hkept hstep
  · exact fun s a s' h hstep hdelivers => h.kept_of_step hstep hdelivers

/-- Sixteen blocks of a wide band link in which no header is found. -/
def noHeader : List LinkBlock :=
  .replicate 16 ⟨.replicate 30 0, true, ⟨fun _ => (57, 120), fun _ room => room⟩, fun _ => 7⟩

/-- Each block but the first one gives as many samples as a whole frame.  The second time
the uplink's ring has room for half its size, and is written all over. -/
theorem resync_overflows :
    ∃ t, (extMdMachine true false).run (extMdMachine true false).init
        [.ulWrite, .ulRead noHeader, .ulWrite, .ulRead noHeader] = some t ∧
      t.ul.ring.bufLen = 1920 ∧ t.ul.unread.length = 2762 ∧
      ¬(extMdMachine true false).Along ExtMd.Delivers (extMdMachine true false).init
        [.ulWrite, .ulRead noHeader, .ulWrite, .ulRead noHeader] := by
  obtain ⟨t, hrun, hsize, hunread⟩ : ∃ t, (extMdMachine true false).run
      (extMdMachine true false).init
        [.ulWrite, .ulRead noHeader, .ulWrite, .ulRead noHeader] = some t ∧
      t.ul.ring.bufLen = 1920 ∧ t.ul.unread.length = 2762 :=
    ⟨_, rfl, by decide +kernel, by decide +kernel⟩
  refine ⟨t, hrun, hsize, hunread, fun h => ?_⟩
  have hle := (h.last _ hrun).ul.stores.length_le
  rw [hsize, hunread] at hle
  exact absurd hle (by decide)

end MtkHw.BtSco
