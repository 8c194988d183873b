import MtkHw.Lib.Loop
import MtkHw.Mux.Buffer

/-!
# Basic mode: `gsm0710_base_buffer_get_frame`

The assembler looks for a start flag, skips further flags, and then parses one
frame on local copies of the read pointer and the counter, which it stores back
only when the frame is complete or dropped.  A dropped frame makes it start over,
at most `MAX_RESYNC_GET_FRAME_COUNT` times.

`parse` is the part on local copies, as the code does it.  `parseOctets` is the
same decision on the list of stored octets, and `parse_eq` says that the two
agree: nothing depends on where in the ring the octets lie.

`baseStep` is one step of the whole function, between two accesses to what it
shares with the reader.  `baseGetFrame` runs the steps without interruption.
-/

namespace MtkHw.Mux

open Lib

/-! ## Parsing one frame -/

/-- How parsing ends: with `κ`, the place it has got to. -/
inductive ParseOutcome (κ : Type) where
  | /-- The frame is not completely stored yet. -/ starved
  | /-- The frame is thrown away. -/ dropped (k : κ)
  | /-- The frame is complete. -/ complete (frame : GSM0710Frame) (k : κ)
deriving DecidableEq, Repr

namespace ParseOutcome

variable {κ ι : Type} (g : κ → ι)

def map : ParseOutcome κ → ParseOutcome ι
  | .starved => .starved
  | .dropped k => .dropped (g k)
  | .complete frame k => .complete frame (g k)

theorem map_eq_dropped {o : ParseOutcome κ} {j : ι} (h : o.map g = .dropped j) :
    ∃ k, o = .dropped k ∧ g k = j := by
  cases o with
  | dropped k => exact ⟨k, rfl, by simpa [map] using h⟩
  | _ => cases h

theorem map_eq_complete {o : ParseOutcome κ} {frame : GSM0710Frame} {j : ι}
    (h : o.map g = .complete frame j) : ∃ k, o = .complete frame k ∧ g k = j := by
  cases o with
  | complete frame' k =>
    simp only [map, complete.injEq] at h
    exact ⟨k, by rw [h.1], h.2⟩
  | _ => cases h

@[simp] theorem map_starved : map g .starved = .starved := rfl

@[simp] theorem map_dropped (k : κ) : map g (.dropped k) = .dropped (g k) := rfl

@[simp] theorem map_complete (frame : GSM0710Frame) (k : κ) :
    map g (.complete frame k) = .complete frame (g k) := rfl

end ParseOutcome

/-- `local_readp` and `local_datacount` -/
structure Cursor where
  readp : Nat
  datacount : Nat
deriving DecidableEq, Repr

/-- `gsm0710_buffer_inc(local_readp, local_datacount)` -/
def Cursor.inc (cur : Cursor) : Cursor :=
  ⟨Ring.next gsm0710BufferSize cur.readp, cur.datacount - 1⟩

/-- Past the information field: the pointer after the one or two copies. -/
def Cursor.skipPayload (cur : Cursor) (length : Nat) : Cursor :=
  ⟨Ring.moved gsm0710BufferSize cur.readp length, cur.datacount - length⟩

/-- The first octet of the length field. -/
def lengthByte1 (byte : UInt8) : Nat := ((byte &&& 254) >>> 1).toNat

/-- From the information field on: payload, checksum and end flag. -/
def parseBody (data : Nat → UInt8) (channel control fcs : UInt8) (length : Nat) (cur : Cursor) :
    ParseOutcome Cursor :=
  let payload := Ring.get gsm0710BufferSize data cur.readp length
  let cur := if length > 0 then cur.skipPayload length else cur
  let fcs := if gsm0710FrameIs gsm0710TypeUi control then crcLoop fcs payload else fcs
  let received := data cur.readp
  let cur := cur.inc
  if crcStep fcs received ≠ 0xCF then .dropped cur
  else if data cur.readp ≠ gsm0710FrameFlag then .dropped cur
  else .complete ⟨channel, control, payload⟩ cur.inc

/-- The part of `gsm0710_base_buffer_get_frame` that works on local copies. -/
def parse (cfg : MuxConfig) (buf : GSM0710Buffer) : ParseOutcome Cursor :=
  let cur : Cursor := ⟨buf.readp, buf.datacount⟩
  if cur.datacount ≥ 5 then
    let address := buf.data cur.readp
    let channel := gsm0710DecodeAddress address
    let cur := cur.inc
    let control := buf.data cur.readp
    let cur := cur.inc
    let byte1 := buf.data cur.readp
    let fcs := crcLoop 0xFF [address, control, byte1]
    -- the extension bit of the first length octet announces a second one
    let long := byte1 &&& 1 = 0
    let cur := if long then cur.inc else cur
    let byte2 := buf.data cur.readp
    let length := if long then lengthByte1 byte1 + byte2.toNat * 128 else lengthByte1 byte1
    let fcs := if long then crcStep fcs byte2 else fcs
    let lengthNeeded := 3 + length
    if length > cfg.negotiatedN1 channel.toNat then .dropped cur
    else if cur.datacount ≥ lengthNeeded then parseBody buf.data channel control fcs length cur.inc
    else .starved
  else .starved

/-! ## The same on the stored octets -/

/-- `parseBody` on a list; `k` octets have been looked at before it. -/
def parseBodyOctets (channel control fcs : UInt8) (length k : Nat) (octets : List UInt8) :
    ParseOutcome Nat :=
  let payload := octets.take length
  let fcs := if gsm0710FrameIs gsm0710TypeUi control then crcLoop fcs payload else fcs
  match octets.drop length with
  | received :: flag :: _ =>
      if crcStep fcs received ≠ 0xCF then .dropped (k + length + 1)
      else if flag ≠ gsm0710FrameFlag then .dropped (k + length + 1)
      else .complete ⟨channel, control, payload⟩ (k + length + 2)
  | _ => .starved

/-- `parse` on the list of stored octets: the number of octets consumed. -/
def parseOctets (cfg : MuxConfig) : List UInt8 → ParseOutcome Nat
  | address :: control :: byte1 :: byte2 :: last :: rest =>
      let channel := gsm0710DecodeAddress address
      let fcs := crcLoop 0xFF [address, control, byte1]
      let long := byte1 &&& 1 = 0
      let length := if long then lengthByte1 byte1 + byte2.toNat * 128 else lengthByte1 byte1
      let fcs := if long then crcStep fcs byte2 else fcs
      let octets := if long then last :: rest else byte2 :: last :: rest
      if length > cfg.negotiatedN1 channel.toNat then .dropped (if long then 3 else 2)
      else if octets.length ≥ 2 + length then
        parseBodyOctets channel control fcs length (if long then 4 else 3) octets
      else .starved
  | _ => .starved

/-! ## The two agree -/

namespace GSM0710Buffer

/-- The local copies after `k` octets. -/
def cursorAt (buf : GSM0710Buffer) (k : Nat) : Cursor :=
  ⟨Ring.advance gsm0710BufferSize buf.readp k, buf.datacount - k⟩

theorem cursorAt_zero {buf : GSM0710Buffer} {u : Nat} (h : buf.Wf u) :
    buf.cursorAt 0 = ⟨buf.readp, buf.datacount⟩ := by
  simp [cursorAt, Ring.advance_zero h.readp_lt]

theorem cursorAt_inc {buf : GSM0710Buffer} {u k : Nat} (h : buf.Wf u)
    (hk : k + 1 ≤ buf.datacount) : (buf.cursorAt k).inc = buf.cursorAt (k + 1) := by
  have hle := h.datacount_le
  have hlt : Ring.advance gsm0710BufferSize buf.readp k < gsm0710BufferSize :=
    Ring.advance_lt h.readp_lt (by omega)
  simp only [cursorAt, Cursor.inc]
  rw [Ring.next_eq_advance hlt, Ring.advance_advance h.readp_lt (by omega), Nat.sub_sub]

theorem cursorAt_skipPayload {buf : GSM0710Buffer} {u k length : Nat} (h : buf.Wf u)
    (hk : k + length ≤ buf.datacount) :
    (if length > 0 then (buf.cursorAt k).skipPayload length else buf.cursorAt k) =
      buf.cursorAt (k + length) := by
  have hle := h.datacount_le
  have hlt : Ring.advance gsm0710BufferSize buf.readp k < gsm0710BufferSize :=
    Ring.advance_lt h.readp_lt (by omega)
  split
  · simp only [cursorAt, Cursor.skipPayload]
    rw [Ring.moved_eq_advance hlt, Ring.advance_advance h.readp_lt (by omega), Nat.sub_sub]
  · rw [show length = 0 by omega, Nat.add_zero]

/-- What the local pointer shows. -/
theorem contents_getElem? {buf : GSM0710Buffer} {u k : Nat} (h : buf.Wf u)
    (hk : k < buf.datacount) : buf.contents[k]? = some (buf.data (buf.cursorAt k).readp) :=
  Ring.getElem?_walk _ h.readp_lt h.datacount_le hk

/-- What is copied from the local pointer on. -/
theorem take_drop_contents {buf : GSM0710Buffer} {u k length : Nat} (h : buf.Wf u)
    (hk : k + length ≤ buf.datacount) :
    Ring.get gsm0710BufferSize buf.data (buf.cursorAt k).readp length =
      (buf.contents.drop k).take length := by
  have hle := h.datacount_le
  have hp : (buf.cursorAt k).readp < gsm0710BufferSize :=
    Ring.advance_lt h.readp_lt (by omega)
  have hsplit : buf.contents =
      Ring.walk gsm0710BufferSize buf.data buf.readp k ++
        (Ring.walk gsm0710BufferSize buf.data (buf.cursorAt k).readp length ++
          Ring.walk gsm0710BufferSize buf.data
            (Ring.advance gsm0710BufferSize (buf.cursorAt k).readp length)
            (buf.datacount - (k + length))) := by
    have hlen : (Ring.advance gsm0710BufferSize buf.readp k) = (buf.cursorAt k).readp := rfl
    rw [← Ring.walk_add _ hp (by omega), ← hlen, ← Ring.walk_add _ h.readp_lt (by omega)]
    unfold contents
    congr 1
    omega
  rw [Ring.get_eq_walk _ hp (by omega), hsplit, List.drop_left' (Ring.length_walk ..),
    List.take_left' (Ring.length_walk ..)]

end GSM0710Buffer

open GSM0710Buffer

/-- The two versions of `parseBody` agree. -/
theorem parseBody_eq {buf : GSM0710Buffer} {u : Nat} (h : buf.Wf u) {channel control fcs : UInt8}
    {length k : Nat} (hk : k + length + 2 ≤ buf.datacount) :
    parseBody buf.data channel control fcs length (buf.cursorAt k) =
      (parseBodyOctets channel control fcs length k (buf.contents.drop k)).map buf.cursorAt := by
  have hreceived : buf.contents[k + length]? = some (buf.data (buf.cursorAt (k + length)).readp) :=
    contents_getElem? h (by omega)
  have hflag : buf.contents[k + length + 1]? =
      some (buf.data (buf.cursorAt (k + length + 1)).readp) := contents_getElem? h (by omega)
  have hlen : buf.contents.length = buf.datacount := length_contents buf
  have hdrop : (buf.contents.drop k).drop length =
      buf.data (buf.cursorAt (k + length)).readp ::
        buf.data (buf.cursorAt (k + length + 1)).readp :: buf.contents.drop (k + length + 2) := by
    rw [List.drop_drop, List.drop_eq_getElem_cons (by omega), List.drop_eq_getElem_cons (by omega)]
    rw [List.getElem?_eq_getElem (by omega), Option.some.injEq] at hreceived hflag
    rw [hreceived, hflag]
  simp only [parseBody, parseBodyOctets, cursorAt_skipPayload h (show k + length ≤ _ by omega),
    cursorAt_inc h (show k + length + 1 ≤ _ by omega),
    cursorAt_inc h (show k + length + 1 + 1 ≤ _ by omega),
    take_drop_contents h (show k + length ≤ _ by omega), hdrop, apply_ite (ParseOutcome.map _),
    ParseOutcome.map_dropped, ParseOutcome.map_complete]

/-- The two versions agree from the last octet of the length field on. -/
theorem parseChecked_eq {buf : GSM0710Buffer} {u : Nat} (h : buf.Wf u)
    {channel control fcs : UInt8} {length k n1 : Nat} (hk : k + 1 ≤ buf.datacount) :
    (if length > n1 then .dropped (buf.cursorAt k)
      else if (buf.cursorAt k).datacount ≥ 3 + length then
        parseBody buf.data channel control fcs length (buf.cursorAt k).inc
      else .starved) =
    ParseOutcome.map buf.cursorAt
      (if length > n1 then .dropped k
      else if (buf.contents.drop (k + 1)).length ≥ 2 + length then
        parseBodyOctets channel control fcs length (k + 1) (buf.contents.drop (k + 1))
      else .starved) := by
  have hcount : (buf.cursorAt k).datacount ≥ 3 + length ↔
      (buf.contents.drop (k + 1)).length ≥ 2 + length := by
    rw [List.length_drop, length_contents]
    simp only [cursorAt]
    omega
  simp only [apply_ite (ParseOutcome.map _), ParseOutcome.map_dropped, ParseOutcome.map_starved,
    hcount, cursorAt_inc h hk]
  split
  · rfl
  · split
    · rename_i henough
      rw [List.length_drop, length_contents] at henough
      exact parseBody_eq h (by omega)
    · rfl

/-- **Parsing depends on the stored octets only**, not on where they lie. -/
theorem parse_eq (cfg : MuxConfig) {buf : GSM0710Buffer} {u : Nat} (h : buf.Wf u) :
    parse cfg buf = (parseOctets cfg buf.contents).map buf.cursorAt := by
  have hlen : buf.contents.length = buf.datacount := length_contents buf
  by_cases h5 : buf.datacount ≥ 5
  · obtain ⟨address, control, byte1, byte2, last, rest, hcons⟩ :
        ∃ address control byte1 byte2 last rest,
          buf.contents = address :: control :: byte1 :: byte2 :: last :: rest := by
      match hc : buf.contents with
      | address :: control :: byte1 :: byte2 :: last :: rest => exact ⟨_, _, _, _, _, _, rfl⟩
      | [] | [_] | [_, _] | [_, _, _] | [_, _, _, _] => simp [hc] at hlen; omega
    have hat : ∀ k < 5, buf.contents[k]? = some (buf.data (buf.cursorAt k).readp) :=
      fun k hk => contents_getElem? h (by omega)
    have h0 : buf.data (buf.cursorAt 0).readp = address := by
      simpa [hcons] using (hat 0 (by omega)).symm
    have h1 : buf.data (buf.cursorAt 1).readp = control := by
      simpa [hcons] using (hat 1 (by omega)).symm
    have h2 : buf.data (buf.cursorAt 2).readp = byte1 := by
      simpa [hcons] using (hat 2 (by omega)).symm
    have h3 : buf.data (buf.cursorAt 3).readp = byte2 := by
      simpa [hcons] using (hat 3 (by omega)).symm
    have hinc : ∀ k < 4, (buf.cursorAt k).inc = buf.cursorAt (k + 1) :=
      fun k hk => cursorAt_inc h (by omega)
    rw [parse, ← cursorAt_zero h]
    simp only [hinc 0 (by omega), hinc 1 (by omega), h0, h1, h2]
    rw [if_pos (by simpa [cursorAt] using h5)]
    by_cases hlong : byte1 &&& 1 = 0
    · simp only [if_pos hlong, hinc 2 (by omega), h3]
      rw [parseChecked_eq h (by omega), hcons]
      simp only [parseOctets, if_pos hlong, List.drop_succ_cons, List.drop_zero]
    · simp only [if_neg hlong]
      rw [parseChecked_eq h (by omega), hcons]
      simp only [parseOctets, if_neg hlong, List.drop_succ_cons, List.drop_zero]
  · have hstarved : parseOctets cfg buf.contents = .starved := by
      unfold parseOctets
      split
      · rename_i hc
        simp [hc] at hlen
        omega
      · rfl
    rw [hstarved, parse, if_neg h5]
    rfl

/-! ## The whole function, step by step -/

/-- Where the assembler is in `gsm0710_base_buffer_get_frame`. -/
inductive BasePc where
  | /-- At the test of the loop that finds the start flag. -/ find
  | /-- No flag was found: about to look at `input_sleeping`. -/ noFlag
  | /-- At the test of the loop that skips flags. -/ skip
  | /-- About to take the local copies and parse. -/ parse
  | /-- Done with the local copies, whose counter began as `backup`. -/
    store (backup : Nat) (outcome : ParseOutcome Cursor)
deriving DecidableEq, Repr

/-- The local state of the assembler in the function. -/
structure BaseLocal where
  pc : BasePc
  depthLevel : Nat
deriving DecidableEq, Repr

/-- How the function ends. -/
inductive BaseExit where
  | /-- It returns a frame, or `NULL`. -/ ret (frame : Option GSM0710Frame)
  | /-- `Gsm0710Muxd_Assert(13)` -/ assert13
deriving DecidableEq, Repr

/-- Where `gsm0710_base_buffer_get_frame` begins at a depth: the depth check. -/
def baseEnter (passedDepthLevel : Nat) : BaseLocal ⊕ BaseExit :=
  if passedDepthLevel < maxResyncGetFrameCount then .inl ⟨.find, passedDepthLevel⟩
  else .inr .assert13

/-- Store the local copies back. -/
def GSM0710Buffer.store (buf : GSM0710Buffer) (backup : Nat) (cur : Cursor) : GSM0710Buffer :=
  { buf with
    readp := cur.readp
    datacount := buf.datacount - (backup - cur.datacount)
    flagFound := false }

/-- One step of `gsm0710_base_buffer_get_frame`. -/
def baseStep (cfg : MuxConfig) (loc : BaseLocal) (buf : GSM0710Buffer) :
    (BaseLocal ⊕ BaseExit) × GSM0710Buffer :=
  match loc.pc with
  | .find =>
      if !buf.flagFound && decide (buf.length > 0) then
        let found := if buf.head = gsm0710FrameFlag then { buf with flagFound := true } else buf
        (.inl loc, found.inc)
      else if !buf.flagFound then (.inl { loc with pc := .noFlag }, buf)
      else (.inl { loc with pc := .skip }, buf)
  | .noFlag => (.inr (.ret none), buf)
  | .skip =>
      if buf.length > 0 ∧ buf.head = gsm0710FrameFlag then (.inl loc, buf.inc)
      else (.inl { loc with pc := .parse }, buf)
  | .parse =>
      match Mux.parse cfg buf with
      | .starved => (.inr (.ret none), buf)
      | outcome => (.inl { loc with pc := .store buf.datacount outcome }, buf)
  | .store _ .starved => (.inr (.ret none), buf)
  | .store backup (.dropped cur) =>
      (baseEnter (loc.depthLevel + 1),
        { buf.store backup cur with droppedCount := buf.droppedCount + 1 })
  | .store backup (.complete frame cur) =>
      (.inr (.ret (some frame)),
        { buf.store backup cur with receivedCount := buf.receivedCount + 1 })

/-- What one step can do, case by case. -/
inductive BaseMove (cfg : MuxConfig) (buf : GSM0710Buffer) (d : Nat) :
    BasePc → BaseLocal ⊕ BaseExit → GSM0710Buffer → Prop where
  | /-- An octet is consumed in search of the start flag. -/
    findTake (hfound : buf.flagFound = false) (hpos : 0 < buf.datacount) :
      BaseMove cfg buf d .find (.inl ⟨.find, d⟩)
        (GSM0710Buffer.inc { buf with flagFound := decide (buf.head = gsm0710FrameFlag) })
  | /-- There is no start flag. -/
    findNone (hfound : buf.flagFound = false) (hzero : buf.datacount = 0) :
      BaseMove cfg buf d .find (.inl ⟨.noFlag, d⟩) buf
  | /-- The start flag has been found. -/
    findDone (hfound : buf.flagFound = true) : BaseMove cfg buf d .find (.inl ⟨.skip, d⟩) buf
  | noFlag : BaseMove cfg buf d .noFlag (.inr (.ret none)) buf
  | /-- Another flag is skipped. -/
    skipTake (hpos : 0 < buf.datacount) (hhead : buf.head = gsm0710FrameFlag) :
      BaseMove cfg buf d .skip (.inl ⟨.skip, d⟩) buf.inc
  | skipDone : BaseMove cfg buf d .skip (.inl ⟨.parse, d⟩) buf
  | /-- The frame is not completely stored. -/
    starved (hparse : parse cfg buf = .starved) : BaseMove cfg buf d .parse (.inr (.ret none)) buf
  | parsed (hparse : parse cfg buf ≠ .starved) :
      BaseMove cfg buf d .parse (.inl ⟨.store buf.datacount (parse cfg buf), d⟩) buf
  | storeStarved (backup : Nat) : BaseMove cfg buf d (.store backup .starved) (.inr (.ret none)) buf
  | /-- A frame is dropped. -/
    dropped (backup : Nat) (cur : Cursor) :
      BaseMove cfg buf d (.store backup (.dropped cur)) (baseEnter (d + 1))
        { buf.store backup cur with droppedCount := buf.droppedCount + 1 }
  | /-- A frame is delivered. -/
    complete (backup : Nat) (frame : GSM0710Frame) (cur : Cursor) :
      BaseMove cfg buf d (.store backup (.complete frame cur)) (.inr (.ret (some frame)))
        { buf.store backup cur with receivedCount := buf.receivedCount + 1 }

theorem baseStep_move (cfg : MuxConfig) (pc : BasePc) (d : Nat) (buf : GSM0710Buffer) :
    BaseMove cfg buf d pc (baseStep cfg ⟨pc, d⟩ buf).1 (baseStep cfg ⟨pc, d⟩ buf).2 := by
  cases pc with
  | find =>
    cases hfound : buf.flagFound with
    | true =>
      simp only [baseStep, hfound, Bool.not_true, Bool.false_and]
      exact .findDone hfound
    | false =>
      by_cases hpos : 0 < buf.datacount
      · have hflag : (if buf.head = gsm0710FrameFlag then { buf with flagFound := true } else buf) =
            { buf with flagFound := decide (buf.head = gsm0710FrameFlag) } := by
          by_cases hhead : buf.head = gsm0710FrameFlag
          · simp [hhead]
          · cases buf
            simp_all
        simp only [baseStep, hfound, GSM0710Buffer.length, hpos, Bool.not_false, Bool.true_and,
          decide_true, if_true, hflag]
        exact .findTake hfound hpos
      · simp only [baseStep, hfound, GSM0710Buffer.length, hpos, Bool.not_false, Bool.true_and,
          decide_false]
        exact .findNone hfound (by omega)
  | noFlag => exact .noFlag
  | skip =>
    by_cases hskip : buf.length > 0 ∧ buf.head = gsm0710FrameFlag
    · simp only [baseStep, if_pos hskip]
      exact .skipTake hskip.1 hskip.2
    · simp only [baseStep, if_neg hskip]
      exact .skipDone
  | parse =>
    cases hparse : parse cfg buf with
    | starved =>
      simp only [baseStep, hparse]
      exact .starved hparse
    | dropped cur =>
      simp only [baseStep, hparse]
      exact hparse ▸ .parsed (by simp [hparse])
    | complete frame cur =>
      simp only [baseStep, hparse]
      exact hparse ▸ .parsed (by simp [hparse])
  | store backup outcome =>
    cases outcome with
    | starved => exact .storeStarved backup
    | dropped cur => exact .dropped backup cur
    | complete frame cur => exact .complete backup frame cur

/-- The steps of the function, taken without interruption. -/
def baseTurn (cfg : MuxConfig) (s : BaseLocal × GSM0710Buffer) :
    BaseLocal × GSM0710Buffer ⊕ BaseExit × GSM0710Buffer :=
  match baseStep cfg s.1 s.2 with
  | (.inl loc, buf) => .inl (loc, buf)
  | (.inr exit, buf) => .inr (exit, buf)

/-- `gsm0710_base_buffer_get_frame(buf, 0)`: the frame returned, if the function
does not end in its assertion.  Every turn consumes an octet or moves on to a
later part of the function, so the fuel is never short (`baseGetFrame_total`). -/
def baseGetFrame (cfg : MuxConfig) (buf : GSM0710Buffer) :
    Option (Option GSM0710Frame × GSM0710Buffer) :=
  match loop (baseTurn cfg) (4 * buf.datacount + 5) (⟨.find, 0⟩, buf) with
  | some (.ret frame, buf) => some (frame, buf)
  | _ => none

/-! ## What one turn does to the contents -/

namespace GSM0710Buffer

/-- The local copies after `k` octets, when the counter was `backup` at first. -/
def cursorFrom (buf : GSM0710Buffer) (backup k : Nat) : Cursor :=
  ⟨Ring.advance gsm0710BufferSize buf.readp k, backup - k⟩

theorem datacount_store {buf : GSM0710Buffer} {backup k : Nat} (hk : k ≤ backup) :
    (buf.store backup (buf.cursorFrom backup k)).datacount = buf.datacount - k := by
  simp only [store, cursorFrom]
  omega

theorem Wf.store {buf : GSM0710Buffer} {u backup k : Nat} (h : buf.Wf u) (hk : k ≤ backup)
    (hbackup : backup ≤ buf.datacount) : (buf.store backup (buf.cursorFrom backup k)).Wf u := by
  have hle := h.stored_le
  refine ⟨Ring.advance_lt h.readp_lt (by omega), ?_, ?_⟩
  · rw [datacount_store hk]
    omega
  · rw [datacount_store hk]
    simp only [GSM0710Buffer.store, cursorFrom, h.writep_eq]
    rw [Ring.advance_advance h.readp_lt (by omega)]
    congr 1
    omega

/-- Storing the local copies back drops what they went over. -/
theorem contents_store {buf : GSM0710Buffer} {u backup k : Nat} (h : buf.Wf u) (hk : k ≤ backup)
    (hbackup : backup ≤ buf.datacount) :
    (buf.store backup (buf.cursorFrom backup k)).contents = buf.contents.drop k := by
  have hle := h.stored_le
  have hsplit : buf.contents =
      Ring.walk gsm0710BufferSize buf.data buf.readp k ++
        Ring.walk gsm0710BufferSize buf.data
          (Ring.advance gsm0710BufferSize buf.readp k) (buf.datacount - k) := by
    rw [← Ring.walk_add _ h.readp_lt (by omega)]
    unfold contents
    congr 1
    omega
  rw [hsplit, List.drop_left' (Ring.length_walk ..), contents, datacount_store hk]
  rfl

end GSM0710Buffer

/-- What is consumed, if anything is, is at least two octets and at most `n`. -/
def ParseOutcome.Consumes (n : Nat) : ParseOutcome Nat → Prop
  | .starved => True
  | .dropped k => 2 ≤ k ∧ k ≤ n
  | .complete _ k => 2 ≤ k ∧ k ≤ n

theorem parseBodyOctets_consumes {channel control fcs : UInt8} {length k n : Nat}
    {octets : List UInt8} (hn : k + octets.length = n) (hk : 2 ≤ k) :
    (parseBodyOctets channel control fcs length k octets).Consumes n := by
  have hlen : (octets.drop length).length = octets.length - length := List.length_drop
  simp only [parseBodyOctets]
  match hdrop : octets.drop length with
  | received :: flag :: rest =>
    simp only [hdrop, List.length_cons] at hlen
    dsimp only
    split_ifs <;> exact ⟨by omega, by omega⟩
  | [] | [_] => trivial

/-- A frame that is dropped or delivered takes at least two octets, all of them
stored. -/
theorem parseOctets_consumes (cfg : MuxConfig) (octets : List UInt8) :
    (parseOctets cfg octets).Consumes octets.length := by
  match octets with
  | address :: control :: byte1 :: byte2 :: last :: rest =>
    simp only [parseOctets, List.length_cons]
    split_ifs
    · exact ⟨by omega, by omega⟩
    · exact parseBodyOctets_consumes (by simp only [List.length_cons]; omega) (by omega)
    · trivial
    · exact ⟨by omega, by omega⟩
    · exact parseBodyOctets_consumes (by simp only [List.length_cons]; omega) (by omega)
    · trivial
  | [] | [_] | [_, _] | [_, _, _] | [_, _, _, _] => trivial

theorem parseBodyOctets_length_le {channel control fcs : UInt8} {length k j : Nat}
    {octets : List UInt8} {frame : GSM0710Frame}
    (h : parseBodyOctets channel control fcs length k octets = .complete frame j) :
    frame.channel = channel ∧ frame.length ≤ length := by
  simp only [parseBodyOctets] at h
  split at h
  · split_ifs at h
    all_goals
      cases h
      exact ⟨rfl, List.length_take_le _ _⟩
  · cases h

/-- A frame that is delivered fits in the size negotiated for its channel. -/
theorem parseOctets_length_le {cfg : MuxConfig} {octets : List UInt8} {frame : GSM0710Frame}
    {k : Nat} (h : parseOctets cfg octets = .complete frame k) :
    frame.length ≤ cfg.negotiatedN1 frame.channel.toNat := by
  unfold parseOctets at h
  split at h
  · dsimp only at h
    split_ifs at h
    all_goals
      obtain ⟨hchannel, hle⟩ := parseBodyOctets_length_le h
      rw [hchannel]
      omega
  · cases h

/-! ## The function comes to an end -/

/-- How far the function is from its end. -/
def baseMeasure (s : BaseLocal × GSM0710Buffer) : Nat :=
  4 * s.2.datacount +
    match s.1.pc with
    | .find => 4
    | .skip => 3
    | .parse => 2
    | .noFlag | .store .. => 1

/-- The buffer is well-formed, and the local copies about to be stored back have
gone over stored octets, two at least. -/
def BaseWf (u : Nat) (s : BaseLocal × GSM0710Buffer) : Prop :=
  s.2.Wf u ∧
    match s.1.pc with
    | .store backup outcome =>
        backup ≤ s.2.datacount ∧
          ∃ o : ParseOutcome Nat, o.Consumes backup ∧ outcome = o.map (s.2.cursorFrom backup)
    | _ => True

/-- The local copies that a drop stores back. -/
theorem BaseWf.dropped {u d backup : Nat} {buf : GSM0710Buffer} {cur : Cursor}
    (h : BaseWf u (⟨.store backup (.dropped cur), d⟩, buf)) :
    backup ≤ buf.datacount ∧ ∃ k, 2 ≤ k ∧ k ≤ backup ∧ cur = buf.cursorFrom backup k := by
  obtain ⟨-, hbackup, o, hconsumes, houtcome⟩ := h
  obtain ⟨k, rfl, hk⟩ := ParseOutcome.map_eq_dropped _ houtcome.symm
  exact ⟨hbackup, k, hconsumes.1, hconsumes.2, hk.symm⟩

/-- The local copies that a delivery stores back. -/
theorem BaseWf.complete {u d backup : Nat} {buf : GSM0710Buffer} {frame : GSM0710Frame}
    {cur : Cursor} (h : BaseWf u (⟨.store backup (.complete frame cur), d⟩, buf)) :
    backup ≤ buf.datacount ∧ ∃ k, 2 ≤ k ∧ k ≤ backup ∧ cur = buf.cursorFrom backup k := by
  obtain ⟨-, hbackup, o, hconsumes, houtcome⟩ := h
  obtain ⟨k, rfl, hk⟩ := ParseOutcome.map_eq_complete _ houtcome.symm
  exact ⟨hbackup, k, hconsumes.1, hconsumes.2, hk.symm⟩

theorem baseMeasure_find_lt (buf : GSM0710Buffer) :
    baseMeasure (⟨.find, 0⟩, buf) < 4 * buf.datacount + 5 := by
  simp [baseMeasure]

theorem baseEnter_find {depth : Nat} {loc : BaseLocal} (h : baseEnter depth = .inl loc) :
    loc.pc = .find := by
  unfold baseEnter at h
  split at h
  · cases h
    rfl
  · cases h

/-- A turn is a step, and goes on or leaves as the step does. -/
theorem baseTurn_eq (cfg : MuxConfig) (pc : BasePc) (d : Nat) (buf : GSM0710Buffer) :
    ∃ r buf', BaseMove cfg buf d pc r buf' ∧
      baseTurn cfg (⟨pc, d⟩, buf) = r.map (fun loc => (loc, buf')) (fun exit => (exit, buf')) := by
  refine ⟨_, _, baseStep_move cfg pc d buf, ?_⟩
  unfold baseTurn
  generalize baseStep cfg ⟨pc, d⟩ buf = out
  obtain ⟨r, buf'⟩ := out
  cases r <;> rfl

/-- Every turn keeps the buffer and the local copies consistent. -/
theorem baseTurn_keeps_wf (cfg : MuxConfig) {u : Nat} (s : BaseLocal × GSM0710Buffer)
    (h : BaseWf u s) : Keeps (BaseWf u) (fun r => r.2.Wf u) (baseTurn cfg s) := by
  obtain ⟨⟨pc, d⟩, buf⟩ := s
  have hwf : buf.Wf u := h.1
  obtain ⟨r, buf', hmove, hturn⟩ := baseTurn_eq cfg pc d buf
  rw [hturn]
  cases hmove with
  | findTake _ hpos =>
    have := hwf.inc hpos
    exact ⟨⟨this.readp_lt, this.stored_le, this.writep_eq⟩, trivial⟩
  | skipTake hpos _ => exact ⟨hwf.inc hpos, trivial⟩
  | findNone | findDone | skipDone => exact ⟨hwf, trivial⟩
  | noFlag | starved | storeStarved => exact hwf
  | parsed _ =>
    refine ⟨hwf, Nat.le_refl _, parseOctets cfg buf.contents, ?_, parse_eq cfg hwf⟩
    have := parseOctets_consumes cfg buf.contents
    rwa [length_contents] at this
  | dropped backup cur =>
    obtain ⟨hbackup, k, -, hk, rfl⟩ := h.dropped
    have hwf' := hwf.store hk hbackup
    cases henter : baseEnter (d + 1) with
    | inl loc =>
      refine ⟨⟨hwf'.readp_lt, hwf'.stored_le, hwf'.writep_eq⟩, ?_⟩
      rw [baseEnter_find henter]
      trivial
    | inr exit => exact ⟨hwf'.readp_lt, hwf'.stored_le, hwf'.writep_eq⟩
  | complete backup frame cur =>
    obtain ⟨hbackup, k, -, hk, rfl⟩ := h.complete
    have hwf' := hwf.store hk hbackup
    exact ⟨hwf'.readp_lt, hwf'.stored_le, hwf'.writep_eq⟩

/-- Every turn returns or comes closer to the end. -/
theorem baseTurn_decreases (cfg : MuxConfig) {u : Nat} (s : BaseLocal × GSM0710Buffer)
    (h : BaseWf u s) : Decreases baseMeasure s (baseTurn cfg s) := by
  obtain ⟨⟨pc, d⟩, buf⟩ := s
  obtain ⟨r, buf', hmove, hturn⟩ := baseTurn_eq cfg pc d buf
  rw [hturn]
  cases hmove with
  | findTake _ hpos | skipTake hpos _ =>
    simp only [Sum.map_inl, Decreases, baseMeasure, GSM0710Buffer.inc]
    omega
  | findNone | findDone | skipDone | parsed => simp [Decreases, baseMeasure]
  | noFlag | starved | storeStarved | complete => trivial
  | dropped backup cur =>
    obtain ⟨hbackup, k, hk2, hk, rfl⟩ := h.dropped
    cases henter : baseEnter (d + 1) with
    | inr exit => trivial
    | inl loc =>
      have hcount := @datacount_store buf _ _ hk
      simp only [Sum.map_inl, Decreases, baseMeasure, baseEnter_find henter, hcount]
      omega

end MtkHw.Mux
