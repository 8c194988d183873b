import MtkHw.Lib.Ring
import MtkHw.Mux.Defs

/-!
# The receive buffer

`GSM0710_Buffer` is a ring of `GSM0710_BUFFER_SIZE` octets between the thread
that reads the serial device and the one that assembles frames.  The reader
copies octets in and only then raises `datacount`; the assembler looks at the
stored octets and lowers it.

`writep` runs ahead of `datacount` between these two steps of the reader, so
well-formedness (`Wf`) is stated with the number of octets copied in and not yet
counted.  What the buffer holds for the assembler is `contents`, and every
operation is characterised by what it does to `contents`.
-/

namespace MtkHw.Mux

open Lib

/-- `GSM0710_Buffer`, without its locks.  Pointers are offsets into `data`, and
`adv_data` is cut off at `adv_length`. -/
structure GSM0710Buffer where
  data : Nat → UInt8
  readp : Nat
  writep : Nat
  datacount : Nat
  newdataready : Bool
  inputSleeping : Bool
  flagFound : Bool
  receivedCount : Nat
  droppedCount : Nat
  advData : List UInt8
  advFoundEsc : Bool

namespace GSM0710Buffer

/-- `gsm0710_buffer_init` -/
def init : GSM0710Buffer where
  data := fun _ => 0
  readp := 0
  writep := 0
  datacount := 0
  newdataready := false
  inputSleeping := false
  flagFound := false
  receivedCount := 0
  droppedCount := 0
  advData := []
  advFoundEsc := false

/-- `adv_length` -/
def advLength (buf : GSM0710Buffer) : Nat := buf.advData.length

/-- `gsm0710_buffer_length` -/
def length (buf : GSM0710Buffer) : Nat := buf.datacount

/-- `gsm0710_buffer_free` -/
def free (buf : GSM0710Buffer) : Nat := gsm0710BufferSize - buf.datacount

/-- `*buf->readp` -/
def head (buf : GSM0710Buffer) : UInt8 := buf.data buf.readp

/-- `gsm0710_buffer_inc(buf->readp, buf->datacount)` -/
def inc (buf : GSM0710Buffer) : GSM0710Buffer :=
  { buf with readp := Ring.next gsm0710BufferSize buf.readp, datacount := buf.datacount - 1 }

/-- The first half of `gsm0710_buffer_write`: the copy, in one or two parts, and
the write pointer. -/
def copyIn (buf : GSM0710Buffer) (input : List UInt8) : GSM0710Buffer :=
  { buf with
    data := Ring.put gsm0710BufferSize buf.data buf.writep input
    writep := Ring.moved gsm0710BufferSize buf.writep input.length }

/-- The second half of `gsm0710_buffer_write`: the counter. -/
def count (buf : GSM0710Buffer) (length : Nat) : GSM0710Buffer :=
  { buf with datacount := buf.datacount + length }

/-- `gsm0710_buffer_write` -/
def write (buf : GSM0710Buffer) (input : List UInt8) : GSM0710Buffer × Nat :=
  let input := input.take (min input.length buf.free)
  ({ (buf.copyIn input).count input.length with newdataready := true }, input.length)

/-! ## Well-formedness and contents -/

/-- The pointers and the counter agree, `uncounted` octets having been copied in
and not counted yet. -/
structure Wf (buf : GSM0710Buffer) (uncounted : Nat) : Prop where
  readp_lt : buf.readp < gsm0710BufferSize
  stored_le : buf.datacount + uncounted ≤ gsm0710BufferSize
  writep_eq : buf.writep = Ring.advance gsm0710BufferSize buf.readp (buf.datacount + uncounted)

/-- The octets stored for the assembler, oldest first. -/
def contents (buf : GSM0710Buffer) : List UInt8 :=
  Ring.walk gsm0710BufferSize buf.data buf.readp buf.datacount

@[simp] theorem length_contents (buf : GSM0710Buffer) : buf.contents.length = buf.datacount :=
  Ring.length_walk ..

theorem wf_init : init.Wf 0 := ⟨by decide, by decide, by decide⟩

theorem contents_init : init.contents = [] := rfl

theorem Wf.datacount_le {buf : GSM0710Buffer} {u : Nat} (h : buf.Wf u) :
    buf.datacount ≤ gsm0710BufferSize := by
  have := h.stored_le
  omega

theorem Wf.writep_lt {buf : GSM0710Buffer} {u : Nat} (h : buf.Wf u) :
    buf.writep < gsm0710BufferSize := by
  rw [h.writep_eq]
  exact Ring.advance_lt h.readp_lt h.stored_le

/-- A buffer that stores an octet shows the first one. -/
theorem contents_eq_cons {buf : GSM0710Buffer} (h : 0 < buf.datacount) :
    buf.contents = buf.head :: buf.inc.contents := by
  obtain ⟨k, hk⟩ : ∃ k, buf.datacount = k + 1 := ⟨buf.datacount - 1, by omega⟩
  simp only [contents, inc, head, hk, Ring.walk_succ, Nat.add_sub_cancel]

theorem contents_eq_nil {buf : GSM0710Buffer} : buf.contents = [] ↔ buf.datacount = 0 := by
  rw [← List.length_eq_zero_iff, length_contents]

theorem Wf.inc {buf : GSM0710Buffer} {u : Nat} (h : buf.Wf u) (hpos : 0 < buf.datacount) :
    buf.inc.Wf u := by
  refine ⟨Ring.next_lt h.readp_lt, ?_, ?_⟩
  · have := h.stored_le
    simp only [GSM0710Buffer.inc]
    omega
  · have hle := h.stored_le
    have hsucc : buf.datacount + u = (buf.datacount - 1 + u) + 1 := by omega
    simp only [GSM0710Buffer.inc, h.writep_eq]
    rw [hsucc, Ring.advance_succ (by omega)]

/-! ## Writing -/

/-- The write pointer moves as far as the octets copied in. -/
theorem copyIn_writep {buf : GSM0710Buffer} {u : Nat} (h : buf.Wf u) (input : List UInt8) :
    (buf.copyIn input).writep = Ring.advance gsm0710BufferSize buf.writep input.length :=
  Ring.moved_eq_advance h.writep_lt

/-- Copying in does not touch what is stored for the assembler. -/
theorem Wf.copyIn {buf : GSM0710Buffer} {u : Nat} (h : buf.Wf u) {input : List UInt8}
    (hfit : buf.datacount + u + input.length ≤ gsm0710BufferSize) :
    (buf.copyIn input).Wf (u + input.length) := by
  refine ⟨h.readp_lt, by simpa [GSM0710Buffer.copyIn, Nat.add_assoc] using hfit, ?_⟩
  rw [copyIn_writep h, h.writep_eq, Ring.advance_advance h.readp_lt hfit, Nat.add_assoc]
  rfl

theorem Wf.count {buf : GSM0710Buffer} {u : Nat} (h : buf.Wf u) : (buf.count u).Wf 0 :=
  ⟨h.readp_lt, h.stored_le, h.writep_eq⟩

/-- Copying in and counting appends to the contents. -/
theorem contents_count_copyIn {buf : GSM0710Buffer} (h : buf.Wf 0) {input : List UInt8}
    (hfit : buf.datacount + input.length ≤ gsm0710BufferSize) :
    ((buf.copyIn input).count input.length).contents = buf.contents ++ input := by
  have hw : buf.writep = Ring.advance gsm0710BufferSize buf.readp buf.datacount := h.writep_eq
  have hlt : Ring.advance gsm0710BufferSize buf.readp buf.datacount < gsm0710BufferSize :=
    Ring.advance_lt h.readp_lt (by omega)
  simp only [contents, GSM0710Buffer.copyIn, GSM0710Buffer.count, hw]
  exact Ring.walk_put buf.data h.readp_lt hfit hlt

/-- A write never asks for more than fits, and then stores all of it. -/
theorem take_free {buf : GSM0710Buffer} {input : List UInt8} (hfit : input.length ≤ buf.free) :
    input.take (min input.length buf.free) = input := by
  rw [Nat.min_eq_left hfit, List.take_length]

theorem Wf.write {buf : GSM0710Buffer} (h : buf.Wf 0) {input : List UInt8}
    (hfit : input.length ≤ buf.free) : (buf.write input).1.Wf 0 := by
  have hle : buf.datacount + 0 + input.length ≤ gsm0710BufferSize := by
    have := h.datacount_le
    unfold free at hfit
    omega
  have hwf := (h.copyIn hle).count
  rw [Nat.zero_add] at hwf
  simp only [GSM0710Buffer.write, take_free hfit]
  exact ⟨hwf.readp_lt, hwf.stored_le, hwf.writep_eq⟩

theorem contents_write {buf : GSM0710Buffer} (h : buf.Wf 0) {input : List UInt8}
    (hfit : input.length ≤ buf.free) : (buf.write input).1.contents = buf.contents ++ input := by
  have hle : buf.datacount + input.length ≤ gsm0710BufferSize := by
    have := h.datacount_le
    unfold free at hfit
    omega
  simp only [GSM0710Buffer.write, take_free hfit]
  exact contents_count_copyIn h hle

end GSM0710Buffer

end MtkHw.Mux
