import MtkHw.Lib.Machine
import MtkHw.Speech.ParaShareBuf

/-!
# The ring of the dynamic parameters as a queue

The driver writes a message in two goes, a header of six bytes and the parameters, after it
has seen room for both.  The space is given back from the front, as the modem
acknowledges.  Each byte shall be found in the ring until its space is given back.

A write below the read position that fills the free space exactly is taken for one that
goes over the end of the ring: the write position comes out at the start of the ring, and
not at the read position.
-/

namespace MtkHw.Speech

open Lib

/-! ## The driver -/

def ccciA2mShareBuffHeaderSync : UInt16 := 0xA2A2
def shareBuffDataTypeCcciDynamicParamType : UInt16 := 19

/-- A half-word as it lies in memory. -/
def halfWord (x : UInt16) : List UInt8 := [x.toUInt8, (x >>> 8).toUInt8]

/-- The header before the parameters. -/
def setShareBufHeader (sync type length : UInt16) : List UInt8 :=
  halfWord sync ++ halfWord type ++ halfWord length

/-- A message that has been written: the offset that is reported to the modem, and how many
bytes have been written before. -/
structure ParaMessage where
  offset : UInt16
  start : Nat
  bytes : List UInt8

/-- The ring and what has gone through it.  Between its two writes, a message is pending. -/
structure ParaRing where
  buf : ParaShareBuf
  pending : Option (UInt16 × List UInt8)
  written : List UInt8
  advanced : Nat
  sent : List ParaMessage

inductive ParaAction where
  /-- The driver sees room for the message, and writes the header. -/
  | header (param : List UInt8)
  /-- It writes the parameters. -/
  | param
  /-- Space is given back. -/
  | advance (datalength : Nat)
deriving DecidableEq, Repr

namespace ParaRing

/-- The bytes whose space has not been given back. -/
def unread (s : ParaRing) : List UInt8 := s.written.drop s.advanced

def write (s : ParaRing) (data : List UInt8) : ParaRing :=
  { s with
    buf := s.buf.writeA2MRawParaRingBuffer data
    written := s.written ++ data }

def dynamicHeader (param : List UInt8) : List UInt8 :=
  setShareBufHeader ccciA2mShareBuffHeaderSync shareBuffDataTypeCcciDynamicParamType
    (.ofNat param.length)

/-- No message is pending, and there is room for the header and the parameters. -/
def Room (s : ParaRing) (param : List UInt8) : Prop :=
  s.pending = none ∧ param.length < 0x10000 ∧
    param.length + ccciShareBuffHeaderLen ≤ s.buf.getA2MRawParaRingBuffer.2.toNat

instance (s : ParaRing) (param : List UInt8) : Decidable (s.Room param) := by
  unfold Room
  infer_instance

def step (s : ParaRing) : ParaAction → Option ParaRing
  | .header param =>
    if s.Room param then
      some { s.write (dynamicHeader param) with
        pending := some (s.buf.getA2MRawParaRingBuffer.1, param) }
    else none
  | .param =>
    s.pending.map fun (offset, param) =>
      { s.write param with
        pending := none
        sent := ⟨offset, s.written.length - ccciShareBuffHeaderLen,
          dynamicHeader param ++ param⟩ :: s.sent }
  | .advance datalength =>
    if datalength ≤ s.unread.length ∧ datalength < s.buf.bufLen then
      some { s with
        buf := s.buf.advanceA2MRawParaRingBuffer datalength
        advanced := s.advanced + datalength }
    else none

end ParaRing

/-- The ring after `InitA2MRawParaRingBuffer`. -/
def paraMachine (para : ParaShareBuf) : Machine ParaRing ParaAction where
  init := ⟨para.initA2MRawParaRingBuffer, none, [], 0, []⟩
  step := ParaRing.step

/-! ## What the ring shall do -/

namespace ParaShareBuf

/-- The cells of the ring. -/
def cells (r : ParaShareBuf) (i : Nat) : UInt8 := r.mem (r.pBufBase + i)

/-- What the modem reads from a reported offset on. -/
def readFrom (r : ParaShareBuf) (offset k : Nat) : List UInt8 :=
  Ring.walk r.bufLen r.cells (offset - r.pBufBase) k

end ParaShareBuf

/-- The positions lie in the ring, its space is free or occupied, each message is found
until its space is given back, and nothing outside the ring has been written since it has
been initialised. -/
structure ParaRing.Fifo (para : ParaShareBuf) (s : ParaRing) : Prop where
  read : s.buf.pBufBase ≤ s.buf.pRead ∧ s.buf.pRead < s.buf.pBufEnd
  write : s.buf.pBufBase ≤ s.buf.pWrite ∧ s.buf.pWrite < s.buf.pBufEnd
  counted : s.buf.getA2MRawParaRingBuffer.2.toNat + s.unread.length = s.buf.bufLen
  found : ∀ m ∈ s.sent, s.advanced ≤ m.start →
    s.buf.readFrom m.offset.toNat m.bytes.length = m.bytes
  guarded : ∀ i, i < s.buf.pBufBase ∨ s.buf.pBufEnd ≤ i →
    s.buf.mem i = para.initA2MRawParaRingBuffer.mem i

/-! ## When it does -/

/-- What an action writes. -/
def ParaRing.writes (s : ParaRing) : ParaAction → Option (List UInt8)
  | .header param => if s.Room param then some (ParaRing.dynamicHeader param) else none
  | .param => s.pending.map Prod.snd
  | .advance _ => none

/-- A write below the read position leaves a byte free, nothing is written into an empty
ring only if there is something to write, and a full ring is given back a byte at
least. -/
def ParaRing.Kept (s : ParaRing) (a : ParaAction) : Prop :=
  (∀ data ∈ s.writes a, (s.buf.pWrite < s.buf.pRead →
      data.length ≠ s.buf.pRead - s.buf.pWrite) ∧ (s.unread = [] → data ≠ [])) ∧
    (a = .advance 0 → s.unread.length ≠ s.buf.bufLen)

instance (s : ParaRing) (a : ParaAction) : Decidable (s.Kept a) := by
  unfold ParaRing.Kept
  infer_instance

/-! ## The ring holds what is unread -/

namespace ParaShareBuf

/-- The ring holds `xs` from the read position on. -/
structure Holds (r : ParaShareBuf) (xs : List UInt8) : Prop where
  stores : Ring.Stores r.bufLen r.cells (r.pRead - r.pBufBase) xs
  base_le : r.pBufBase ≤ r.pRead
  write : r.pWrite = r.pBufBase + Ring.advance r.bufLen (r.pRead - r.pBufBase) xs.length
  empty : r.mIsA2MParaShareBufEmpty = decide (xs = [])

namespace Holds

variable {r : ParaShareBuf} {xs data : List UInt8}

theorem read_lt (h : r.Holds xs) : r.pRead < r.pBufEnd := by
  have hlt := h.stores.lt
  have hbase := h.base_le
  unfold pBufEnd
  omega

theorem write_lt (h : r.Holds xs) : r.pBufBase ≤ r.pWrite ∧ r.pWrite < r.pBufEnd := by
  rw [h.write]
  exact ⟨Nat.le_add_right _ _, Nat.add_lt_add_left h.stores.write_lt _⟩

/-- What is not occupied is free. -/
theorem space_eq (h : r.Holds xs) : r.space = r.bufLen - xs.length := by
  have hwrite := h.write
  have hlt := h.stores.lt
  have hle := h.stores.length_le
  have hbase := h.base_le
  have hnil : xs = [] ↔ xs.length = 0 := List.length_eq_zero_iff.symm
  unfold space
  rw [h.empty]
  simp only [decide_eq_true_eq, hnil]
  unfold Ring.advance at hwrite
  split_ifs at hwrite ⊢ <;> omega

/-- The position behind what is held lies below the read position if it has wrapped. -/
theorem write_lt_read_iff (h : r.Holds xs) :
    r.pWrite < r.pRead ↔
      r.bufLen ≤ r.pRead - r.pBufBase + xs.length ∧ xs.length < r.bufLen := by
  have hwrite := h.write
  have hlt := h.stores.lt
  have hbase := h.base_le
  have hle := h.stores.length_le
  unfold Ring.advance at hwrite
  split_ifs at hwrite <;> omega

end Holds

/-- A copy into the ring, seen from its start. -/
theorem cells_blit (r : ParaShareBuf) (p : Nat) (data : List UInt8) :
    (fun i => Ring.blit r.mem (r.pBufBase + p) data (r.pBufBase + i)) =
      Ring.blit r.cells p data := by
  funext i
  unfold Ring.blit cells
  simp only [Nat.add_le_add_iff_left, Nat.add_sub_add_left]

/-- What a write leaves alone. -/
structure Wrote (r r' : ParaShareBuf) : Prop where
  len : r'.len = r.len
  pRead : r'.pRead = r.pRead
  outside : ∀ i, i < r.pBufBase ∨ r.pBufEnd ≤ i → r'.mem i = r.mem i

/-- A write stays inside the ring. -/
theorem Holds.wrote {r : ParaShareBuf} {xs : List UInt8} (h : r.Holds xs) (data : List UInt8) :
    Wrote r (r.writeA2MRawParaRingBuffer data) := by
  obtain ⟨hbase, hend⟩ := h.write_lt
  have hread := h.read_lt
  have hread' := h.base_le
  have hspace := h.space_eq
  have hpart : r.part1 ≤ r.pBufEnd - r.pWrite := by
    unfold part1
    split_ifs <;> omega
  have hsize : r.pBufEnd = r.pBufBase + r.bufLen := rfl
  unfold writeA2MRawParaRingBuffer
  split_ifs with htoo hone
  · exact ⟨rfl, rfl, fun _ _ => rfl⟩
  · refine ⟨rfl, rfl, fun i hi => Ring.blit_of_notMem _ ?_⟩
    omega
  · refine ⟨rfl, rfl, fun i hi => ?_⟩
    refine (Ring.blit_of_notMem _ ?_).trans (Ring.blit_of_notMem _ ?_)
    · rw [List.length_drop]
      omega
    · rw [List.length_take]
      omega

/-- A write appends, unless it fills the space below the read position exactly. -/
theorem Holds.write_append {r : ParaShareBuf} {xs data : List UInt8} (h : r.Holds xs)
    (hlen : xs.length + data.length ≤ r.bufLen)
    (hfill : r.pWrite < r.pRead → data.length ≠ r.pRead - r.pWrite)
    (hdata : xs = [] → data ≠ []) : (r.writeA2MRawParaRingBuffer data).Holds (xs ++ data) := by
  obtain ⟨hbase, hend⟩ := h.write_lt
  have hread := h.read_lt
  have hread' := h.base_le
  have hsize : r.pBufEnd = r.pBufBase + r.bufLen := rfl
  have hbelow := h.write_lt_read_iff
  have hxs := h.stores.length_le
  -- the write position, counted from the start of the ring
  obtain ⟨p, hp⟩ : ∃ p, p = Ring.advance r.bufLen (r.pRead - r.pBufBase) xs.length := ⟨_, rfl⟩
  have hw : r.pWrite = r.pBufBase + p := by rw [h.write, hp]
  have hmoved : Ring.advance r.bufLen (r.pRead - r.pBufBase) (xs.length + data.length) =
      Ring.advance r.bufLen p data.length := by
    rw [hp, Ring.advance_advance h.stores.lt hlen]
  have hput := h.stores.put hlen
  rw [← hp] at hput
  have hempty : decide (xs ++ data = []) = false := by
    rw [decide_eq_false_iff_not, List.append_eq_nil_iff]
    exact fun hnil => hdata hnil.1 hnil.2
  unfold writeA2MRawParaRingBuffer
  rw [if_neg (by omega)]
  split_ifs with hone
  · refine ⟨hput.congr fun i _ => ?_, h.base_le, ?_, hempty.symm⟩
    · change _ = Ring.blit r.mem r.pWrite data (r.pBufBase + i)
      rw [hw, congrFun (r.cells_blit p data) i, Ring.put, if_neg]
      unfold part1 at hone
      split_ifs at hone <;> omega
    · change r.pWrite + data.length = r.pBufBase + _
      rw [List.length_append]
      change _ = _ + Ring.advance r.bufLen (r.pRead - r.pBufBase) (xs.length + data.length)
      rw [hmoved, hw, Ring.advance, if_pos, Nat.add_assoc]
      unfold part1 at hone
      split_ifs at hone <;> omega
  · -- below the read position the space would be filled, so the write goes over the end
    have hge : r.pRead ≤ r.pWrite := by
      by_contra hlt
      have hfill' := hfill (Nat.lt_of_not_le hlt)
      unfold part1 at hone
      rw [if_neg hlt] at hone
      have hspace := h.space_eq
      unfold space at hspace
      rw [if_neg (by omega), if_neg (by omega)] at hspace
      omega
    have hpart : r.part1 = r.bufLen - p := by
      unfold part1
      rw [if_pos hge]
      omega
    refine ⟨hput.congr fun i _ => ?_, h.base_le, ?_, hempty.symm⟩
    · change _ = Ring.blit (Ring.blit r.mem r.pWrite _) r.pBufBase _ (r.pBufBase + i)
      have hfirst : r.bufLen - p ≤ data.length := by
        rw [← hpart]
        exact Nat.le_of_not_lt hone
      have hcells := congrFun (cells_blit
        { r with mem := Ring.blit r.mem (r.pBufBase + p) (data.take (r.bufLen - p)) } 0
        (data.drop (r.bufLen - p))) i
      rw [Ring.put_of_le _ hfirst, ← cells_blit, hw, hpart]
      exact hcells.symm
    · change r.pBufBase + (data.length - r.part1) = r.pBufBase + _
      rw [List.length_append]
      change _ = _ + Ring.advance r.bufLen (r.pRead - r.pBufBase) (xs.length + data.length)
      rw [hmoved, hpart, Ring.advance, if_neg (by omega)]
      omega

/-- Giving back space at the front, unless nothing of a full ring. -/
theorem Holds.advance {r : ParaShareBuf} {xs : List UInt8} (h : r.Holds xs) {k : Nat}
    (hk : k ≤ xs.length) (hlt : k < r.bufLen) (hfull : k = 0 → xs.length ≠ r.bufLen) :
    (r.advanceA2MRawParaRingBuffer k).Holds (xs.drop k) := by
  have hread := h.read_lt
  have hread' := h.base_le
  have hsize : r.pBufEnd = r.pBufBase + r.bufLen := rfl
  have hxs := h.stores.length_le
  have hlt' := h.stores.lt
  obtain ⟨q, hq⟩ : ∃ q, r.pRead = r.pBufBase + q := Nat.exists_eq_add_of_le hread'
  have hqread : r.pRead - r.pBufBase = q := by rw [hq, Nat.add_sub_cancel_left]
  have hmoved : (r.advanceA2MRawParaRingBuffer k).pRead =
      r.pBufBase + Ring.advance r.bufLen q k := by
    change (if r.pRead + k ≥ r.pBufEnd then r.pRead + k - r.bufLen else r.pRead + k) = _
    unfold Ring.advance
    split_ifs <;> omega
  have hmoved' : (r.advanceA2MRawParaRingBuffer k).pRead - r.pBufBase =
      Ring.advance r.bufLen q k := by rw [hmoved, Nat.add_sub_cancel_left]
  have hstores := h.stores.advance hk
  rw [hqread] at hstores
  have hwrite : r.pWrite = r.pBufBase + Ring.advance r.bufLen q xs.length := by
    rw [h.write, hqread]
  refine ⟨?_, ?_, ?_, ?_⟩
  · change Ring.Stores r.bufLen r.cells _ _
    rwa [← hmoved'] at hstores
  · exact hmoved.ge.trans' (Nat.le_add_right _ _)
  · change r.pWrite =
      r.pBufBase + Ring.advance r.bufLen ((r.advanceA2MRawParaRingBuffer k).pRead - r.pBufBase) _
    rw [hwrite, hmoved', Ring.advance_advance (hqread ▸ hlt')
      (by rw [List.length_drop]; omega), List.length_drop, Nat.add_sub_cancel' hk]
  · -- the positions meet only if all has been given back
    have hmeet : (r.advanceA2MRawParaRingBuffer k).pRead = r.pWrite ↔ k = xs.length := by
      rw [hmoved, hwrite, Nat.add_left_cancel_iff]
      unfold Ring.advance
      split_ifs <;> omega
    change (if (r.advanceA2MRawParaRingBuffer k).pRead = r.pWrite then true
      else r.mIsA2MParaShareBufEmpty) = _
    rw [h.empty]
    simp only [hmeet, List.drop_eq_nil_iff]
    split_ifs with hall
    · exact (decide_eq_true hall.ge).symm
    · rw [decide_eq_decide, ← List.length_eq_zero_iff]
      omega

/-- A write that fills the space below the read position exactly comes out at the start of
the ring. -/
theorem Holds.write_fills {r : ParaShareBuf} {xs data : List UInt8} (h : r.Holds xs)
    (hbelow : r.pWrite < r.pRead) (hfill : data.length = r.pRead - r.pWrite) :
    (r.writeA2MRawParaRingBuffer data).space = r.pRead - r.pBufBase ∧
      xs.length + data.length = r.bufLen := by
  have hbase := h.write_lt.1
  have hread := h.read_lt
  have hsize : r.pBufEnd = r.pBufBase + r.bufLen := rfl
  have hspace := h.space_eq
  have hxs := h.stores.length_le
  have hwrap := h.write_lt_read_iff.mp hbelow
  unfold space at hspace
  rw [if_neg (Nat.lt_asymm hbelow), if_neg (Nat.ne_of_lt hbelow)] at hspace
  refine ⟨?_, by omega⟩
  have hpart : r.part1 = data.length := by
    unfold part1
    rw [if_neg (Nat.not_le_of_lt hbelow), hfill]
  unfold writeA2MRawParaRingBuffer
  rw [if_neg (by omega), if_neg (by omega), hpart, Nat.sub_self, Nat.add_zero]
  unfold space
  dsimp only
  rw [if_neg (by omega), if_neg (by omega)]

theorem space_of_eq {r : ParaShareBuf} (h : r.pWrite = r.pRead) :
    r.space = if r.mIsA2MParaShareBufEmpty then r.bufLen else 0 := by
  rw [space, if_neg (Nat.not_lt_of_le h.le), if_pos h]

/-- A write of nothing into an empty ring makes it look full. -/
theorem Holds.write_nil {r : ParaShareBuf} (h : r.Holds []) :
    (r.writeA2MRawParaRingBuffer []).space = 0 := by
  obtain ⟨hbase, hend⟩ := h.write_lt
  have hwrite : r.pWrite = r.pRead := by
    rw [h.write, List.length_nil, Ring.advance_zero h.stores.lt, Nat.add_sub_cancel' h.base_le]
  have hpart : r.part1 > ([] : List UInt8).length := by
    rw [part1, if_pos hwrite.ge]
    exact Nat.sub_pos_of_lt hend
  unfold writeA2MRawParaRingBuffer
  have hshort : ¬([] : List UInt8).length > r.bufLen := Nat.not_lt_zero _
  rw [if_neg hshort, if_pos hpart]
  exact space_of_eq hwrite

/-- Nothing given back makes a full ring look empty. -/
theorem Holds.advance_zero {r : ParaShareBuf} {xs : List UInt8} (h : r.Holds xs)
    (hfull : xs.length = r.bufLen) :
    (r.advanceA2MRawParaRingBuffer 0).space = r.bufLen := by
  have hlt := h.stores.lt
  have hbase := h.base_le
  have hread := h.read_lt
  have hwrite : r.pWrite = r.pRead := by
    rw [h.write, hfull, Ring.advance, if_neg (by omega)]
    omega
  have hread' : (r.advanceA2MRawParaRingBuffer 0).pRead = r.pRead := if_neg (Nat.not_le_of_lt hread)
  have hflag : (r.advanceA2MRawParaRingBuffer 0).mIsA2MParaShareBufEmpty = true :=
    if_pos (hread'.trans hwrite.symm)
  have hmeet : (r.advanceA2MRawParaRingBuffer 0).pWrite =
      (r.advanceA2MRawParaRingBuffer 0).pRead := by
    rw [hread']
    exact hwrite
  rw [space_of_eq hmeet, hflag]
  rfl

end ParaShareBuf

/-! ## Runs -/

namespace ParaRing

/-- An offset is where the byte lies that is so far from the first one, while its space is
not given back. -/
def Placed (s : ParaRing) (offset : UInt16) (start : Nat) : Prop :=
  s.advanced ≤ start → offset.toNat = s.buf.pBufBase +
    Ring.advance s.buf.bufLen (s.buf.pRead - s.buf.pBufBase) (start - s.advanced)

/-- The ring holds what is unread, and the guards are untouched. -/
structure Core (para : ParaShareBuf) (s : ParaRing) : Prop where
  len : s.buf.len = para.len
  holds : s.buf.Holds s.unread
  advanced_le : s.advanced ≤ s.written.length
  guarded : ∀ i, i < s.buf.pBufBase ∨ s.buf.pBufEnd ≤ i →
    s.buf.mem i = para.initA2MRawParaRingBuffer.mem i

/-- The messages lie where they are said to. -/
structure Inv (para : ParaShareBuf) (s : ParaRing) : Prop extends Core para s where
  pending : ∀ offset param, s.pending = some (offset, param) →
    s.unread.length + param.length ≤ s.buf.bufLen ∧
      ∃ before, s.written = before ++ dynamicHeader param ∧ s.Placed offset before.length
  sent : ∀ m ∈ s.sent, s.Placed m.offset m.start ∧
    ∃ before after, s.written = before ++ (m.bytes ++ after) ∧ before.length = m.start

variable {para : ParaShareBuf} {s : ParaRing}

theorem length_unread (s : ParaRing) : s.unread.length = s.written.length - s.advanced :=
  List.length_drop

theorem unread_write (h : Core para s) (data : List UInt8) :
    (s.write data).unread = s.unread ++ data := List.drop_append_of_le_length h.advanced_le

theorem Core.write (h : Core para s) {data : List UInt8}
    (hlen : s.unread.length + data.length ≤ s.buf.bufLen)
    (hfill : s.buf.pWrite < s.buf.pRead → data.length ≠ s.buf.pRead - s.buf.pWrite)
    (hdata : s.unread = [] → data ≠ []) : Core para (s.write data) := by
  have hwrote := h.holds.wrote data
  refine ⟨hwrote.len.trans h.len, ?_, ?_, fun i hi => ?_⟩
  · rw [unread_write h]
    exact h.holds.write_append hlen hfill hdata
  · exact h.advanced_le.trans (List.length_append ▸ Nat.le_add_right _ _)
  · have hsize : (s.buf.writeA2MRawParaRingBuffer data).pBufEnd = s.buf.pBufEnd := by
      unfold ParaShareBuf.pBufEnd ParaShareBuf.bufLen
      rw [hwrote.len]
      rfl
    rw [← h.guarded i (hsize ▸ hi)]
    exact hwrote.outside i (hsize ▸ hi)

theorem Placed.write (h : Core para s) (data : List UInt8) {offset : UInt16} {start : Nat}
    (hplaced : s.Placed offset start) : (s.write data).Placed offset start := by
  have hwrote := h.holds.wrote data
  intro hle
  change _ = _ + Ring.advance (s.buf.writeA2MRawParaRingBuffer data).bufLen
    ((s.buf.writeA2MRawParaRingBuffer data).pRead - s.buf.pBufBase) _
  rw [hwrote.pRead, ParaShareBuf.bufLen, hwrote.len]
  exact hplaced hle

theorem Core.advance (h : Core para s) {k : Nat} (hk : k ≤ s.unread.length)
    (hlt : k < s.buf.bufLen) (hfull : k = 0 → s.unread.length ≠ s.buf.bufLen) :
    Core para { s with
      buf := s.buf.advanceA2MRawParaRingBuffer k
      advanced := s.advanced + k } := by
  have hadvanced := h.advanced_le
  rw [length_unread] at hk
  refine ⟨h.len, ?_, ?_, h.guarded⟩
  · change (s.buf.advanceA2MRawParaRingBuffer k).Holds (s.written.drop (s.advanced + k))
    rw [← List.drop_drop]
    exact h.holds.advance (by rwa [length_unread]) hlt hfull
  · change s.advanced + k ≤ s.written.length
    omega

theorem Placed.advance (h : Core para s) {k : Nat} (hlt : k < s.buf.bufLen) {offset : UInt16}
    {start : Nat} (hstart : start ≤ s.written.length) (hplaced : s.Placed offset start) :
    Placed { s with
      buf := s.buf.advanceA2MRawParaRingBuffer k
      advanced := s.advanced + k } offset start := by
  have hread := h.holds.stores.lt
  have hbase := h.holds.base_le
  have hlength := h.holds.stores.length_le
  rw [length_unread] at hlength
  intro hle
  change s.advanced + k ≤ start at hle
  have hmoved : (s.buf.advanceA2MRawParaRingBuffer k).pRead - s.buf.pBufBase =
      Ring.advance s.buf.bufLen (s.buf.pRead - s.buf.pBufBase) k := by
    have hsize : s.buf.pBufEnd = s.buf.pBufBase + s.buf.bufLen := rfl
    change (if s.buf.pRead + k ≥ s.buf.pBufEnd then s.buf.pRead + k - s.buf.bufLen
      else s.buf.pRead + k) - s.buf.pBufBase = _
    unfold Ring.advance
    split_ifs <;> omega
  change offset.toNat = s.buf.pBufBase + Ring.advance s.buf.bufLen
    ((s.buf.advanceA2MRawParaRingBuffer k).pRead - s.buf.pBufBase) (start - (s.advanced + k))
  rw [hplaced (Nat.le_of_add_right_le hle), hmoved, Ring.advance_advance hread (by omega)]
  congr 2
  omega

/-- The reported space is the free one. -/
theorem Core.avail_toNat (h : Core para s) (hlen : para.len ≤ 0x10000) :
    s.buf.getA2MRawParaRingBuffer.2.toNat = s.buf.bufLen - s.unread.length := by
  have hread := h.holds.stores.lt
  have hsize : s.buf.bufLen = para.len - 2 * ccciSharebufGuardLength := by
    rw [ParaShareBuf.bufLen, h.len]
  change (UInt16.ofNat s.buf.space).toNat = _
  rw [h.holds.space_eq, UInt16.toNat_ofNat', Nat.mod_eq_of_lt]
  unfold ccciSharebufGuardLength at hsize
  omega

/-- The reported offset is the write position. -/
theorem Core.offset_toNat (h : Core para s) (hlen : para.len ≤ 0x10000) :
    s.buf.getA2MRawParaRingBuffer.1.toNat = s.buf.pWrite := by
  have hwrite := h.holds.write_lt.2
  have hsize : s.buf.pBufEnd = ccciSharebufGuardLength +
      (para.len - 2 * ccciSharebufGuardLength) := by
    rw [ParaShareBuf.pBufEnd, ParaShareBuf.bufLen, h.len]
    rfl
  change (UInt16.ofNat s.buf.pWrite).toNat = _
  rw [UInt16.toNat_ofNat', Nat.mod_eq_of_lt]
  unfold ccciSharebufGuardLength at hsize
  omega

theorem Inv.fifo (h : Inv para s) (hlen : para.len ≤ 0x10000) : s.Fifo para where
  read := ⟨h.holds.base_le, h.holds.read_lt⟩
  write := h.holds.write_lt
  counted := by
    rw [h.avail_toNat hlen]
    exact Nat.sub_add_cancel h.holds.stores.length_le
  found m hm hle := by
    obtain ⟨hplaced, before, after, hwritten, hstart⟩ := h.sent m hm
    have hunread : s.unread.drop (m.start - s.advanced) = m.bytes ++ after := by
      rw [unread, List.drop_drop, Nat.add_sub_cancel' hle, hwritten, ← hstart,
        List.drop_left]
    have hlength := congrArg List.length hunread
    rw [List.length_drop, List.length_append] at hlength
    have hlong : m.start - s.advanced + m.bytes.length ≤ s.unread.length ∨ m.bytes = [] := by
      cases hbytes : m.bytes with
      | nil => exact .inr rfl
      | cons b bs =>
        rw [hbytes, List.length_cons] at hlength
        exact .inl (by rw [List.length_cons]; omega)
    rw [ParaShareBuf.readFrom, hplaced hle, Nat.add_sub_cancel_left]
    rcases hlong with hlong | hnil
    · rw [h.holds.stores.walk_part hlong, hunread, List.take_left]
    · rw [hnil]
      rfl
  guarded := h.guarded

theorem length_dynamicHeader (param : List UInt8) :
    (dynamicHeader param).length = ccciShareBuffHeaderLen := rfl

/-- A message stays where it is when something is written behind it. -/
theorem Inv.sent_write (h : Inv para s) (data : List UInt8) :
    ∀ m ∈ s.sent, (s.write data).Placed m.offset m.start ∧
      ∃ before after, (s.write data).written = before ++ (m.bytes ++ after) ∧
        before.length = m.start := by
  intro m hm
  obtain ⟨hplaced, before, after, hwritten, hstart⟩ := h.sent m hm
  refine ⟨hplaced.write h.toCore data, before, after ++ data, ?_, hstart⟩
  change s.written ++ data = _
  rw [hwritten, List.append_assoc, List.append_assoc]

/-- A write that meets the condition keeps what the ring holds. -/
theorem Core.write_of_kept (h : Core para s) {a : ParaAction} {data : List UInt8}
    (hdata : data ∈ s.writes a) (hlen : s.unread.length + data.length ≤ s.buf.bufLen)
    (hkept : s.Kept a) : Core para (s.write data) :=
  h.write hlen (hkept.1 data hdata).1 (hkept.1 data hdata).2

/-- A write that fails the condition loses the count. -/
theorem Core.kept_of_fifo (h : Core para s) (hlen' : para.len ≤ 0x10000) {data : List UInt8}
    (hlen : s.unread.length + data.length ≤ s.buf.bufLen) {s' : ParaRing}
    (hbuf : s'.buf = (s.write data).buf) (hunread : s'.unread = (s.write data).unread)
    (hfifo : s'.Fifo para) :
    (s.buf.pWrite < s.buf.pRead → data.length ≠ s.buf.pRead - s.buf.pWrite) ∧
      (s.unread = [] → data ≠ []) := by
  have hwrote := h.holds.wrote data
  have hsize : s'.buf.bufLen = s.buf.bufLen := by
    rw [hbuf, ParaShareBuf.bufLen, ParaShareBuf.bufLen]
    exact congrArg (· - 2 * ccciSharebufGuardLength) hwrote.len
  have hcounted := hfifo.counted
  rw [hsize, hunread, unread_write h, List.length_append] at hcounted
  change (UInt16.ofNat s'.buf.space).toNat + _ = _ at hcounted
  rw [hbuf] at hcounted
  change (UInt16.ofNat (s.buf.writeA2MRawParaRingBuffer data).space).toNat + _ = _ at hcounted
  have hread := h.holds.read_lt
  have hpos := h.holds.stores.lt
  constructor
  · intro hbelow hfill
    obtain ⟨hspace, hfull⟩ := h.holds.write_fills hbelow hfill
    have hbase := h.holds.write_lt.1
    have hbound : s.buf.pRead - s.buf.pBufBase < 2 ^ 16 := by
      have hlength : s.buf.bufLen = para.len - 2 * ccciSharebufGuardLength := by
        rw [ParaShareBuf.bufLen, h.len]
      omega
    rw [hspace, UInt16.toNat_ofNat', Nat.mod_eq_of_lt hbound] at hcounted
    omega
  · rintro hnil rfl
    have hholds := h.holds
    rw [hnil] at hholds
    rw [hholds.write_nil, hnil] at hcounted
    change 0 = _ at hcounted
    omega

/-- What a step can do. -/
theorem step_cases {a : ParaAction} {s' : ParaRing} (hstep : s.step a = some s') :
    (∃ param, a = .header param ∧ s.Room param ∧ s' = { s.write (dynamicHeader param) with
        pending := some (s.buf.getA2MRawParaRingBuffer.1, param) }) ∨
      (∃ offset param, a = .param ∧ s.pending = some (offset, param) ∧
        s' = { s.write param with
          pending := none
          sent := ⟨offset, s.written.length - ccciShareBuffHeaderLen,
            dynamicHeader param ++ param⟩ :: s.sent }) ∨
      ∃ k, a = .advance k ∧ k ≤ s.unread.length ∧ k < s.buf.bufLen ∧ s' = { s with
        buf := s.buf.advanceA2MRawParaRingBuffer k
        advanced := s.advanced + k } := by
  cases a with
  | header param =>
    obtain ⟨hroom, hs'⟩ := Option.ite_none_right_eq_some.mp hstep
    exact .inl ⟨param, rfl, hroom, (Option.some.inj hs').symm⟩
  | param =>
    obtain ⟨⟨offset, param⟩, hpending, hs'⟩ := Option.map_eq_some_iff.mp hstep
    exact .inr (.inl ⟨offset, param, rfl, hpending, hs'.symm⟩)
  | advance k =>
    obtain ⟨⟨hk, hlt⟩, hs'⟩ := Option.ite_none_right_eq_some.mp hstep
    exact .inr (.inr ⟨k, rfl, hk, hlt, (Option.some.inj hs').symm⟩)

theorem bufLen_write (h : Core para s) (data : List UInt8) :
    (s.write data).buf.bufLen = s.buf.bufLen :=
  congrArg (· - 2 * ccciSharebufGuardLength) (h.holds.wrote data).len

/-- A message that the driver sees room for fits. -/
theorem Core.fits_of_room (h : Core para s) (hlen : para.len ≤ 0x10000) {param : List UInt8}
    (hroom : s.Room param) :
    s.unread.length + (dynamicHeader param).length + param.length ≤ s.buf.bufLen := by
  have hfits := hroom.2.2
  have hle := h.holds.stores.length_le
  rw [h.avail_toNat hlen] at hfits
  rw [length_dynamicHeader]
  omega

/-- A step that meets the condition keeps the messages where they are. -/
theorem Inv.step (h : Inv para s) (hlen : para.len ≤ 0x10000) {a : ParaAction}
    (hkept : s.Kept a) {s' : ParaRing} (hstep : s.step a = some s') : Inv para s' := by
  rcases step_cases hstep with ⟨param, rfl, hroom, rfl⟩ | ⟨offset, param, rfl, hpending, rfl⟩ |
    ⟨k, rfl, hk, hlt, rfl⟩
  · have hfits := h.fits_of_room hlen hroom
    have hcore := h.write_of_kept (if_pos hroom : s.writes (.header param) = _)
      (Nat.le_of_add_right_le hfits) hkept
    refine ⟨⟨hcore.len, hcore.holds, hcore.advanced_le, hcore.guarded⟩, ?_, h.sent_write _⟩
    intro offset param' heq
    cases heq
    refine ⟨?_, s.written, rfl, ?_⟩
    · change (s.write _).unread.length + _ ≤ (s.write _).buf.bufLen
      rwa [unread_write h.toCore, bufLen_write h.toCore, List.length_append]
    · refine Placed.write h.toCore (dynamicHeader param) fun hle => ?_
      rw [h.offset_toNat hlen, h.holds.write, length_unread]
  · obtain ⟨hfits, before, hwritten, hplaced⟩ := h.pending offset param hpending
    have hcore := h.write_of_kept
      (Option.map_eq_some_iff.mpr ⟨_, hpending, rfl⟩ : s.writes .param = some param) hfits hkept
    refine ⟨⟨hcore.len, hcore.holds, hcore.advanced_le, hcore.guarded⟩, ?_, fun m hm => ?_⟩
    · intro offset' param' heq
      cases heq
    · rcases List.mem_cons.mp hm with rfl | hm
      · have hstart : s.written.length - ccciShareBuffHeaderLen = before.length := by
          rw [hwritten, List.length_append, length_dynamicHeader, Nat.add_sub_cancel]
        refine ⟨?_, before, [], ?_, hstart.symm⟩
        · rw [hstart]
          exact hplaced.write h.toCore param
        · change s.written ++ param = before ++ (dynamicHeader param ++ param ++ [])
          rw [hwritten, List.append_nil, List.append_assoc]
      · exact h.sent_write param m hm
  · have hfull : k = 0 → s.unread.length ≠ s.buf.bufLen := fun hk => hkept.2 (by rw [hk])
    have hcore := h.toCore.advance hk hlt hfull
    refine ⟨hcore, fun offset param hpending => ?_, fun m hm => ?_⟩
    · obtain ⟨hfits, before, hwritten, hplaced⟩ := h.pending offset param hpending
      refine ⟨?_, before, hwritten, hplaced.advance h.toCore hlt ?_⟩
      · rw [length_unread] at hfits ⊢
        change s.written.length - (s.advanced + k) + _ ≤ s.buf.bufLen
        omega
      · rw [hwritten, List.length_append]
        exact Nat.le_add_right _ _
    · obtain ⟨hplaced, before, after, hwritten, hstart⟩ := h.sent m hm
      refine ⟨hplaced.advance h.toCore hlt ?_, before, after, hwritten, hstart⟩
      rw [hwritten, List.length_append, hstart]
      exact Nat.le_add_right _ _

/-- A step after which the ring is a queue has met the condition. -/
theorem Inv.kept_of_step (h : Inv para s) (hlen : para.len ≤ 0x10000) {a : ParaAction}
    {s' : ParaRing} (hstep : s.step a = some s') (hfifo : s'.Fifo para) : s.Kept a := by
  rcases step_cases hstep with ⟨param, rfl, hroom, rfl⟩ | ⟨offset, param, rfl, hpending, rfl⟩ |
    ⟨k, rfl, hk, hlt, rfl⟩
  · refine ⟨fun data hdata => ?_, nofun⟩
    obtain rfl : dynamicHeader param = data :=
      Option.some.inj ((if_pos hroom : s.writes (.header param) = _).symm.trans hdata)
    refine h.kept_of_fifo hlen (Nat.le_of_add_right_le (h.fits_of_room hlen hroom)) ?_ ?_ hfifo
    · rfl
    · rfl
  · refine ⟨fun data hdata => ?_, nofun⟩
    obtain rfl : param = data := Option.some.inj
      ((Option.map_eq_some_iff.mpr ⟨_, hpending, rfl⟩ : s.writes .param = _).symm.trans hdata)
    refine h.kept_of_fifo hlen (h.pending _ _ hpending).1 ?_ ?_ hfifo
    · rfl
    · rfl
  · refine ⟨nofun, fun hzero hfull => ?_⟩
    cases hzero
    have hcounted := hfifo.counted
    have hsize : s.buf.bufLen = para.len - 2 * ccciSharebufGuardLength := by
      rw [ParaShareBuf.bufLen, h.len]
    have hunread := s.length_unread
    change (UInt16.ofNat (s.buf.advanceA2MRawParaRingBuffer 0).space).toNat +
      (s.written.drop (s.advanced + 0)).length = s.buf.bufLen at hcounted
    rw [h.holds.advance_zero hfull, UInt16.toNat_ofNat', List.length_drop, Nat.mod_eq_of_lt]
      at hcounted
    · omega
    · unfold ccciSharebufGuardLength at hsize
      omega

/-- What cannot be done writes nothing, and gives back nothing of a full ring. -/
theorem Core.kept_of_stuck (h : Core para s) {a : ParaAction} (hstep : s.step a = none) :
    s.Kept a := by
  cases a with
  | header param =>
    have hroom : ¬s.Room param := fun hroom => by
      rw [ParaRing.step, if_pos hroom] at hstep
      cases hstep
    refine ⟨fun data hdata => ?_, nofun⟩
    rw [ParaRing.writes, if_neg hroom] at hdata
    cases hdata
  | param =>
    refine ⟨fun data hdata => ?_, nofun⟩
    rw [ParaRing.writes, Option.map_eq_none_iff.mp hstep] at hdata
    cases hdata
  | advance k =>
    refine ⟨nofun, fun hzero => ?_⟩
    cases hzero
    rw [ParaRing.step, if_pos ⟨Nat.zero_le _, Nat.zero_lt_of_lt h.holds.stores.lt⟩] at hstep
    cases hstep

/-- After the initialisation the ring is empty. -/
theorem inv_init (hpos : 2 * ccciSharebufGuardLength < para.len) :
    Inv para (paraMachine para).init := by
  have hsize : 0 < para.bufLen := Nat.sub_pos_of_lt hpos
  refine ⟨⟨rfl, ⟨?_, le_rfl, ?_, rfl⟩, le_rfl, fun _ _ => rfl⟩, nofun, nofun⟩
  · refine Ring.Stores.nil _ ?_
    change para.pBufBase - para.pBufBase < para.bufLen
    rwa [Nat.sub_self]
  · change para.pBufBase =
      para.pBufBase + Ring.advance para.bufLen (para.pBufBase - para.pBufBase) 0
    rw [Nat.sub_self, Ring.advance_zero hsize, Nat.add_zero]

end ParaRing

/-- The ring is a queue along a run exactly if no write fills the space below the read
position exactly, nothing is written into an empty ring, and a full ring is never given
back nothing. -/
theorem paraMachine_fifo_iff (para : ParaShareBuf) (hpos : 2 * ccciSharebufGuardLength < para.len)
    (hlen : para.len ≤ 0x10000) (acts : List ParaAction) :
    (paraMachine para).Along (ParaRing.Fifo para) (paraMachine para).init acts ↔
      (paraMachine para).Meets ParaRing.Kept (paraMachine para).init acts := by
  refine (paraMachine para).along_iff_meets_of_keeps ?_ ?_ ?_ ?_ (ParaRing.inv_init hpos) acts
  · exact fun s a h hnone => h.kept_of_stuck hnone
  · exact fun s h => h.fifo hlen
  · exact fun s a s' h hkept hstep => h.step hlen hkept hstep
  · exact fun s a s' h hstep hfifo => h.kept_of_step hlen hstep hfifo

/-- A shared memory of 80 bytes has a ring of 16. -/
def smallPara : ParaShareBuf := ⟨80, fun _ => 0, 0, 0, true⟩

/-- A message goes over the end of the ring, and is given back. -/
theorem smallPara_fifo :
    (paraMachine smallPara).Along (ParaRing.Fifo smallPara) (paraMachine smallPara).init
      [.header [1, 2], .param, .advance 8, .header [3, 4, 5], .param, .advance 9] :=
  (paraMachine_fifo_iff smallPara (by decide) (by decide) _).mpr (by decide +kernel)

/-- Two messages without parameters, of which the first is given back; then one that fills
the ring exactly, and whose parameters start below the read position.  The full ring
reports room. -/
theorem exact_fill_loses_count :
    ∃ t, (paraMachine smallPara).run (paraMachine smallPara).init
        [.header [], .param, .header [], .param, .advance 6, .header [1, 2, 3, 4], .param] =
          some t ∧
      t.unread.length = 16 ∧ t.buf.getA2MRawParaRingBuffer.2 = 6 ∧
      ¬(paraMachine smallPara).Along (ParaRing.Fifo smallPara) (paraMachine smallPara).init
        [.header [], .param, .header [], .param, .advance 6, .header [1, 2, 3, 4], .param] := by
  obtain ⟨t, hrun, hunread, havail, hsize⟩ : ∃ t, (paraMachine smallPara).run
      (paraMachine smallPara).init
        [.header [], .param, .header [], .param, .advance 6, .header [1, 2, 3, 4], .param] =
          some t ∧ t.unread.length = 16 ∧ t.buf.getA2MRawParaRingBuffer.2 = 6 ∧
            t.buf.bufLen = 16 :=
    ⟨_, rfl, by decide +kernel, by decide +kernel, by decide +kernel⟩
  refine ⟨t, hrun, hunread, havail, fun h => ?_⟩
  have hcounted := (h.last _ hrun).counted
  rw [hunread, havail, hsize] at hcounted
  cases hcounted

end MtkHw.Speech
