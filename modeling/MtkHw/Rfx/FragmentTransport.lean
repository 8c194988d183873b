import MtkHw.Rfx.Fragment

/-!
# What becomes of user data

The reader delivers one event for each call of `sendUserData`, with the data of the call,
when all writes move all their bytes, headers are read in one go and no data is longer than
the 16 bits of its length field can say.  The reads of data may be short, and all reads may
be interrupted.  `transport_iff` says that each of the conditions is necessary.
-/

namespace MtkHw.Rfx

open Lib Ring RfxFragmentEncoder

/-! ## Headers -/

/-- The length field of a header holds 16 bits. -/
theorem length_field {n : Nat} (hn : n < 65536) :
    (UInt8.ofNat (n &&& 0x00FF)).toNat + (UInt8.ofNat ((n &&& 0xFF00) >>> 8)).toNat <<< 8 = n := by
  have hlow : n &&& 0x00FF = n % 256 := Nat.and_two_pow_sub_one_eq_mod n 8
  have hhigh : (n &&& 0xFF00) >>> 8 = n / 256 % 256 := by
    rw [Nat.shiftRight_and_distrib, Nat.shiftRight_eq_div_pow]
    exact Nat.and_two_pow_sub_one_eq_mod (n / 256) 8
  rw [hlow, hhigh, UInt8.toNat_ofNat', UInt8.toNat_ofNat', Nat.shiftLeft_eq]
  omega

theorem toNat_ofInt {c : Int} (h0 : 0 ≤ c) (h : c < 256) : ((UInt8.ofInt c).toNat : Int) = c := by
  rw [UInt8.ofInt, UInt8.toNat_ofNat']
  omega

/-- The length that a header says is less than 2^16. -/
theorem mLength_decodeHeader_lt (header : Nat → UInt8) : (decodeHeader header).mLength < 65536 := by
  unfold decodeHeader
  split
  · decide
  · rename_i p _
    dsimp only
    split
    · have h := (header (p + 3)).toNat_lt
      have h' := (header (p + 4)).toNat_lt
      dsimp only
      rw [Nat.shiftLeft_eq]
      omega
    · decide

/-- The bytes of a header. -/
def headerBytes (d : RfxFragmentData) : List UInt8 := (encodeHeader d).take HEADER_SIZE

/-- **Headers round trip**, in any memory that they are read into. -/
theorem decodeHeader_encodeHeader (header : Nat → UInt8) {d : RfxFragmentData}
    (hversion : d.mVersion = VERSION.toNat) (hclient0 : 0 ≤ d.mClientId) (hclient : d.mClientId < 256)
    (hconfig0 : 0 ≤ d.mConfig) (hconfig : d.mConfig < 256) (hlength : d.mLength < 65536) :
    decodeHeader (blit header 0 (headerBytes d)) = d := by
  cases d with
  | mk version clientId config length =>
    change RfxFragmentData.mk VERSION.toNat (UInt8.ofInt clientId).toNat (UInt8.ofInt config).toNat
      ((UInt8.ofNat (length &&& 0x00FF)).toNat +
        (UInt8.ofNat ((length &&& 0xFF00) >>> 8)).toNat <<< 8) = _
    rw [toNat_ofInt hclient0 hclient, toNat_ofInt hconfig0 hconfig, length_field hlength]
    congr 1
    exact hversion.symm

/-! ## The sender -/

/-- Every write moves all its bytes: none is longer than a frame. -/
def FullWrites (writes : List Outcome) : Prop := ∀ e ∈ writes, ∃ k, e = .upto k ∧ MAX_FRAME_SIZE ≤ k

theorem FullWrites.tail {writes : List Outcome} (h : FullWrites writes) : FullWrites writes.tail :=
  fun e he => h e (List.mem_of_mem_tail he)

theorem Channel.write_full {c : Channel} {bytes : List UInt8} (h : FullWrites c.writes)
    (hlen : bytes.length ≤ MAX_FRAME_SIZE) :
    c.write bytes = (.count bytes, ⟨c.output ++ bytes, c.writes.tail⟩) := by
  rw [Channel.write, Lib.write_full]
  intro e he
  obtain ⟨k, hk, hle⟩ := h e he
  exact ⟨k, hk, Nat.le_trans hlen hle⟩

/-- `bytes` have been written behind `c`, and the coming writes are full. -/
def Channel.Wrote (c : Channel) (bytes : List UInt8) (c' : Channel) : Prop :=
  c'.output = c.output ++ bytes ∧ FullWrites c'.writes

theorem Channel.Wrote.trans {c c₁ c₂ : Channel} {bytes₁ bytes₂ : List UInt8}
    (h₁ : c.Wrote bytes₁ c₁) (h₂ : c₁.Wrote bytes₂ c₂) : c.Wrote (bytes₁ ++ bytes₂) c₂ := by
  refine ⟨?_, h₂.2⟩
  rw [h₂.1, h₁.1, List.append_assoc]

section Write

variable {frame : Nat → UInt8} {length : Nat} {c : Channel}

/-- The invariant of the loop of `writelineUserData`. -/
def WriteInv (frame : Nat → UInt8) (length : Nat) (c : Channel) (s : WriteState) : Prop :=
  s.writeP + s.writeTimes * MAX_FRAME_SIZE + length % MAX_FRAME_SIZE = length ∧
    c.Wrote (slice frame 0 s.writeP) s.channel

/-- All is written, and no error is reported. -/
def WritePost (frame : Nat → UInt8) (length : Nat) (c : Channel) (r : Int × Channel) : Prop :=
  r.1 = 0 ∧ c.Wrote (slice frame 0 length) r.2

theorem writeTurn_keeps {s : WriteState} (h : WriteInv frame length c s) :
    Keeps (fun s' => WriteInv frame length c s' ∧ s'.writeTimes < s.writeTimes)
      (WritePost frame length c) (writeTurn frame (length % MAX_FRAME_SIZE) s) := by
  obtain ⟨hlength, houtput, hfull⟩ := h
  unfold writeTurn
  by_cases htimes : s.writeTimes = 0
  · rw [if_neg (not_not.mpr htimes), Channel.write_full hfull]
    · refine ⟨rfl, ?_, hfull.tail⟩
      have hparts := slice_add frame 0 s.writeP (length % MAX_FRAME_SIZE)
      rw [htimes, Nat.zero_mul, Nat.add_zero] at hlength
      rw [Nat.zero_add, hlength] at hparts
      rw [hparts, ← List.append_assoc, ← houtput]
    · rw [length_slice]
      exact Nat.le_of_lt (Nat.mod_lt _ (by decide))
  · rw [if_pos htimes, Channel.write_full hfull (Nat.le_of_eq (length_slice ..))]
    obtain ⟨times, htimes⟩ := Nat.exists_eq_add_one_of_ne_zero htimes
    refine ⟨⟨?_, ?_, hfull.tail⟩, ?_⟩
    · rw [htimes, Nat.add_mul, Nat.one_mul] at hlength
      rw [htimes, Nat.add_sub_cancel]
      dsimp only
      omega
    · dsimp only
      rw [houtput, List.append_assoc, slice_add, Nat.zero_add]
    · rw [htimes]
      exact Nat.lt_succ_self _

/-- `writelineUserData` writes the frame. -/
theorem writelineUserData_full (frame : Nat → UInt8) (length : Nat) (h : FullWrites c.writes) :
    ∃ c', writelineUserData frame length c = some (0, c') ∧ c.Wrote (slice frame 0 length) c' := by
  have hinit : WriteInv frame length c ⟨length / MAX_FRAME_SIZE, 0, c⟩ := by
    refine ⟨?_, (List.append_nil _).symm, h⟩
    rw [Nat.zero_add]
    exact Nat.div_add_mod' length MAX_FRAME_SIZE
  obtain ⟨⟨ret, c'⟩, hloop, hret, hwrote⟩ := loop_total (fun _ hs => writeTurn_keeps hs) hinit
    (Nat.lt_succ_of_le (Nat.le_add_right (length / MAX_FRAME_SIZE) c.writes.length))
  have hzero : ret = 0 := hret
  subst hzero
  exact ⟨c', hloop, hwrote⟩

end Write

/-- What a call of `sendUserData` should write. -/
def UserData.wire (d : UserData) : List UInt8 :=
  headerBytes ⟨VERSION.toNat, d.clientId, d.config, d.length⟩ ++ d.data

theorem sendUserData_full (d : UserData) {c : Channel} (h : FullWrites c.writes) :
    ∃ c', sendUserData d c = some (0, c') ∧ c.Wrote d.wire c' := by
  obtain ⟨c₁, hheader, hwrote₁⟩ := writelineUserData_full
    (fun i => (encodeHeader ⟨VERSION.toNat, d.clientId, d.config, d.length⟩).getD i 0)
    HEADER_SIZE h
  unfold sendUserData
  dsimp only
  rw [hheader, Option.bind_eq_bind, Option.bind_some]
  dsimp only
  by_cases hpos : d.length > 0
  · obtain ⟨c₂, hdata, hwrote₂⟩ := writelineUserData_full d.frame d.length hwrote₁.2
    rw [if_pos hpos]
    exact ⟨c₂, hdata, hwrote₁.trans hwrote₂⟩
  · rw [if_neg hpos]
    refine ⟨c₁, rfl, ?_⟩
    have hnil : d.data = [] := by
      rw [UserData.data, Nat.eq_zero_of_not_pos hpos]
      rfl
    rw [UserData.wire, hnil, List.append_nil]
    exact hwrote₁

/-- One call after the other. -/
theorem sendAll_full (sends : List UserData) {c : Channel} (h : FullWrites c.writes) :
    ∃ c', sendAll sends c = some c' ∧ c.Wrote (sends.flatMap UserData.wire) c' := by
  induction sends generalizing c with
  | nil => exact ⟨c, rfl, (List.append_nil _).symm, h⟩
  | cons d sends ih =>
    obtain ⟨c₁, hsend, hwrote₁⟩ := sendUserData_full d h
    obtain ⟨c₂, hall, hwrote₂⟩ := ih hwrote₁.2
    refine ⟨c₂, ?_, ?_⟩
    · rw [sendAll, hsend, Option.bind_eq_bind, Option.bind_some]
      exact hall
    · rw [List.flatMap_cons]
      exact hwrote₁.trans hwrote₂

/-! ## Collecting the data -/

/-- No read fails. -/
def NoFailure (reads : List Outcome) : Prop := ∀ e ∈ reads, e ≠ .failed

section Data

variable {data rest : List UInt8}

/-- How much the current loop reads into `tmpData`. -/
def DataState.limit (data : List UInt8) (s : DataState) : Nat :=
  if s.readTimes = 0 then data.length % MAX_FRAME_SIZE else MAX_FRAME_SIZE

/-- The invariant of the loops that collect the data: what has been collected, what is
still to come, and what the counters say about it. -/
structure DataInv (data rest : List UInt8) (s : DataState) : Prop where
  collected : slice s.aggregateData 0 s.writeP ++ s.bytes = data ++ rest
  total : s.writeP + s.readTimes * MAX_FRAME_SIZE + data.length % MAX_FRAME_SIZE =
    data.length + s.readTmp
  readTmp_le : s.readTmp ≤ s.limit data
  noFailure : NoFailure s.reads

/-- All data have been collected, and the rest is left. -/
def DataPost (data rest : List UInt8) : Option DataState → Prop
  | none => False
  | some s => slice s.aggregateData 0 data.length = data ∧ s.bytes = rest ∧ NoFailure s.reads

/-- As long as a loop is not done there are data to come. -/
theorem DataInv.bytes_ne_nil {s : DataState} (h : DataInv data rest s)
    (hlt : s.readTmp < s.limit data) : s.bytes ≠ [] := by
  intro hnil
  have hlen := congrArg List.length h.collected
  rw [hnil, List.append_nil, length_slice, List.length_append] at hlen
  have htotal := h.total
  unfold DataState.limit at hlt
  split at hlt
  · rename_i hzero
    rw [hzero, Nat.zero_mul] at htotal
    omega
  · rename_i hne
    have := Nat.le_mul_of_pos_left MAX_FRAME_SIZE (Nat.pos_of_ne_zero hne)
    omega

/-- Data are received. -/
theorem DataInv.received {s : DataState} {got bytes : List UInt8} {reads : List Outcome}
    (h : DataInv data rest s) (hsplit : s.bytes = got ++ bytes)
    (hlen : s.readTmp + got.length ≤ s.limit data) (hreads : NoFailure reads) :
    DataInv data rest ⟨blit s.aggregateData s.writeP (slice (blit s.tmpData 0 got) 0 got.length),
      blit s.tmpData 0 got, s.writeP + got.length, s.readTimes, s.readTmp + got.length,
      bytes, reads⟩ := by
  have htmp := slice_blit s.tmpData 0 0 got
  have hagg := slice_blit s.aggregateData 0 s.writeP got
  rw [Nat.zero_add, Nat.zero_add] at htmp
  rw [Nat.zero_add] at hagg
  have htotal := h.total
  constructor
  · change slice (blit s.aggregateData s.writeP (slice (blit s.tmpData 0 got) 0 got.length)) 0
      (s.writeP + got.length) ++ bytes = data ++ rest
    rw [htmp]
    change slice (blit s.aggregateData s.writeP got) 0 (s.writeP + got.length) ++ bytes = _
    rw [hagg, List.append_assoc, ← hsplit, h.collected]
  · dsimp only
    omega
  · exact hlen
  · exact hreads

/-- A read of what is missing. -/
theorem readUpto_keeps {s : DataState} (h : DataInv data rest s)
    (hlt : s.readTmp < s.limit data) :
    Keeps (fun s' => DataInv data rest s' ∧ dataSize s' < dataSize s) (DataPost data rest)
      (s.readUpto (s.limit data - s.readTmp)) := by
  have hcase := read_cases (Nat.sub_pos_of_lt hlt) s.bytes s.reads
  unfold DataState.readUpto
  generalize Lib.read (s.limit data - s.readTmp) s.bytes s.reads = r at hcase ⊢
  obtain ⟨t, bytes, reads⟩ := r
  have hnot : t ≠ .blocked := by
    rintro rfl
    cases hcase with
    | blocked hnil => exact h.bytes_ne_nil hlt hnil
  have hsize := hcase.size_lt hnot
  have hreads : NoFailure reads := fun e he => h.noFailure e (hcase.script_subset hnot he)
  have hmeasure : bytes.length + reads.length + s.readTimes < dataSize s :=
    Nat.add_lt_add_right hsize _
  cases t with
  | blocked => exact absurd rfl hnot
  | failed =>
    cases hcase with
    | failed hs => exact h.noFailure .failed (hs ▸ List.mem_cons_self) rfl
  | interrupted =>
    cases hcase with
    | interrupted hs => exact ⟨⟨h.collected, h.total, h.readTmp_le, hreads⟩, hmeasure⟩
  | count got =>
    obtain ⟨hsplit, hlen⟩ := hcase.of_count
    exact ⟨h.received hsplit (by omega) hreads, hmeasure⟩

/-- A turn of the loops that collect the data. -/
theorem dataTurn_keeps {s : DataState} (h : DataInv data rest s) :
    Keeps (fun s' => DataInv data rest s' ∧ dataSize s' < dataSize s) (DataPost data rest)
      (dataTurn (data.length % MAX_FRAME_SIZE) s) := by
  have hkeeps := readUpto_keeps h
  have htotal := h.total
  have hle := h.readTmp_le
  unfold dataTurn
  unfold DataState.limit at hkeeps hle
  by_cases htimes : s.readTimes = 0
  · rw [if_pos htimes] at hkeeps hle
    rw [if_neg (not_not.mpr htimes)]
    by_cases hlt : s.readTmp < data.length % MAX_FRAME_SIZE
    · rw [if_pos hlt]
      exact hkeeps hlt
    · rw [if_neg hlt]
      have hall : s.writeP = data.length := by
        rw [htimes, Nat.zero_mul] at htotal
        omega
      have hcollected := h.collected
      rw [hall] at hcollected
      obtain ⟨hdata, hrest⟩ := List.append_inj hcollected (length_slice ..)
      exact ⟨hdata, hrest, h.noFailure⟩
  · rw [if_neg htimes] at hkeeps hle
    rw [if_pos htimes]
    by_cases hlt : s.readTmp < MAX_FRAME_SIZE
    · rw [if_pos hlt]
      exact hkeeps hlt
    · rw [if_neg hlt]
      obtain ⟨times, htimes'⟩ := Nat.exists_eq_add_one_of_ne_zero htimes
      refine ⟨⟨h.collected, ?_, Nat.zero_le _, h.noFailure⟩, ?_⟩
      · rw [htimes', Nat.add_mul, Nat.one_mul] at htotal
        dsimp only
        rw [htimes', Nat.add_sub_cancel]
        omega
      · simp only [dataSize]
        omega

/-- The data behind a header are collected, however they arrive. -/
theorem readData_spec (data rest : List UInt8) {reads : List Outcome} (hreads : NoFailure reads) :
    ∃ s, readData data.length (data ++ rest) reads = some s ∧
      slice s.aggregateData 0 data.length = data ∧ s.bytes = rest ∧ NoFailure s.reads := by
  have hinit : DataInv data rest
      ⟨fun _ => 0, fun _ => 0, 0, data.length / MAX_FRAME_SIZE, 0, data ++ rest, reads⟩ := by
    refine ⟨rfl, ?_, Nat.zero_le _, hreads⟩
    rw [Nat.zero_add]
    exact Nat.div_add_mod' data.length MAX_FRAME_SIZE
  obtain ⟨r, hloop, hr⟩ := loop_total (fun _ hs => dataTurn_keeps hs) hinit (Nat.lt_succ_self _)
  cases r with
  | none => exact hr.elim
  | some s =>
    refine ⟨s, ?_, hr⟩
    rw [readData, hloop]
    rfl

end Data

/-! ## The reader -/

/-- What a sender may ask for: identifiers of a byte, and not too much data. -/
structure UserData.Ok (limit : Nat) (d : UserData) : Prop where
  clientId_nonneg : 0 ≤ d.clientId
  clientId_lt : d.clientId < 256
  config_nonneg : 0 ≤ d.config
  config_lt : d.config < 256
  length_le : d.length ≤ limit

theorem length_data (d : UserData) : d.data.length = d.length := length_slice ..

/-- Headers are read in one go, and their reads do not fail. -/
def FullHeaders (reads : List Outcome) : Prop := NoFailure reads ∧ ∀ e ∈ reads, e.Full HEADER_SIZE

theorem FullHeaders.subset {reads reads' : List Outcome} (h : FullHeaders reads)
    (hsub : reads' ⊆ reads) : FullHeaders reads' :=
  ⟨fun e he => h.1 e (hsub he), fun e he => h.2 e (hsub he)⟩

/-- The invariant of the loop of `readerLoopForFragData`: the events so far belong to the first
calls, and what those that are `pending` have written is still to be read. -/
structure FragInv (sends : List UserData) (s : FragState) : Prop where
  headers : FullHeaders s.headerReads
  noFailure : NoFailure s.dataReads
  pending : ∃ pending : List UserData, (∀ d ∈ pending, d.Ok 65535) ∧
    s.bytes = pending.flatMap UserData.wire ∧
    s.events ++ pending.map UserData.data = sends.map UserData.data

/-- A bound for the turns of the loop. -/
def fragSize (s : FragState) : Nat := s.bytes.length + s.headerReads.length

/-- The header and the data of a call are read. -/
theorem FragState.received_eq {s : FragState} {d : UserData} (rest : List UInt8)
    (headerReads : List Outcome) (hd : d.Ok 65535) (hreads : NoFailure s.dataReads) :
    ∃ header dataReads, NoFailure dataReads ∧
      s.received (headerBytes ⟨VERSION.toNat, d.clientId, d.config, d.length⟩) (d.data ++ rest)
        headerReads = .inl ⟨header, rest, headerReads, dataReads, s.events ++ [d.data]⟩ := by
  obtain ⟨s', hread, hdata, hrest, hreads'⟩ := readData_spec d.data rest hreads
  have hdecode := decodeHeader_encodeHeader s.header
    (d := ⟨VERSION.toNat, d.clientId, d.config, d.length⟩) rfl hd.clientId_nonneg hd.clientId_lt
    hd.config_nonneg hd.config_lt (Nat.lt_succ_of_le hd.length_le)
  rw [length_data] at hread hdata
  refine ⟨blit s.header 0 (headerBytes ⟨VERSION.toNat, d.clientId, d.config, d.length⟩), s'.reads,
    hreads', ?_⟩
  unfold FragState.received
  dsimp only
  rw [hdecode, hread]
  dsimp only
  rw [hdata, hrest]

theorem fragTurn_keeps {sends : List UserData} {s : FragState} (h : FragInv sends s) :
    Keeps (fun s' => FragInv sends s' ∧ fragSize s' < fragSize s)
      (fun events => events = sends.map UserData.data) (fragTurn s) := by
  have hcase := read_cases (show 0 < HEADER_SIZE by decide) s.bytes s.headerReads
  obtain ⟨pending, hok, hbytes, hevents⟩ := h.pending
  unfold fragTurn
  generalize Lib.read HEADER_SIZE s.bytes s.headerReads = r at hcase ⊢
  obtain ⟨t, bytes, headerReads⟩ := r
  dsimp only at hcase ⊢
  have hheaders : t ≠ .blocked → FullHeaders headerReads := fun hnot =>
    h.headers.subset (hcase.script_subset hnot)
  have hsize : t ≠ .blocked → bytes.length + headerReads.length < fragSize s := hcase.size_lt
  cases hcase with
  | interrupted =>
    exact ⟨⟨hheaders (by simp), h.noFailure, pending, hok, hbytes, hevents⟩, hsize (by simp)⟩
  | nothing =>
    exact ⟨⟨hheaders (by simp), h.noFailure, pending, hok, hbytes, hevents⟩, hsize (by simp)⟩
  | failed hs => exact absurd rfl (h.headers.1 .failed (hs ▸ List.mem_cons_self))
  | blocked hnil =>
    cases pending with
    | nil =>
      change s.events = _
      rw [← hevents, List.map_nil, List.append_nil]
    | cons d pending =>
      rw [hnil] at hbytes
      cases hbytes
  | got hsplit hne hle hfull hs =>
    dsimp only
    rw [if_neg hne]
    cases pending with
    | nil =>
      rw [hbytes] at hsplit
      exact absurd (List.append_eq_nil_iff.mp hsplit.symm).1 hne
    | cons d pending =>
      rw [List.flatMap_cons, UserData.wire, List.append_assoc] at hbytes
      -- all of the header is there, and so all of it is read
      have hlen := hfull h.headers.2 (by
        rw [hbytes, List.length_append]
        exact Nat.le_add_right _ _)
      obtain ⟨rfl, rfl⟩ := List.append_inj (hsplit.symm.trans hbytes) (hlen.trans rfl)
      obtain ⟨header, dataReads, hreads, hreceived⟩ := FragState.received_eq
        (pending.flatMap UserData.wire) headerReads (hok d List.mem_cons_self) h.noFailure
      rw [hreceived]
      refine ⟨⟨hheaders (by simp), hreads, pending, ?_, rfl, ?_⟩, ?_⟩
      · exact fun d hmem => hok d (List.mem_cons_of_mem _ hmem)
      · dsimp only
        rw [List.append_assoc]
        exact hevents
      · refine Nat.lt_of_le_of_lt ?_ (hsize (by simp))
        simp only [fragSize, List.length_append]
        omega

/-- The reader delivers the data of all calls. -/
theorem readerLoopForFragData_spec {sends : List UserData} {headerReads dataReads : List Outcome}
    (hok : ∀ d ∈ sends, d.Ok 65535) (hheaders : FullHeaders headerReads)
    (hdata : NoFailure dataReads) :
    readerLoopForFragData (sends.flatMap UserData.wire) headerReads dataReads =
      some (sends.map UserData.data) := by
  have hinit : FragInv sends
      ⟨fun _ => 0, sends.flatMap UserData.wire, headerReads, dataReads, []⟩ :=
    ⟨hheaders, hdata, sends, hok, rfl, rfl⟩
  obtain ⟨r, hloop, rfl⟩ := loop_total (fun _ hs => fragTurn_keeps hs) hinit (Nat.lt_succ_self _)
  exact hloop

/-- **User data are delivered** when writes are full, headers are read in one go and the
lengths fit in the header. -/
theorem transport_eq {sends : List UserData} {writes headerReads dataReads : List Outcome}
    (hok : ∀ d ∈ sends, d.Ok 65535) (hwrites : FullWrites writes)
    (hheaders : FullHeaders headerReads) (hdata : NoFailure dataReads) :
    transport sends writes headerReads dataReads = some (sends.map UserData.data) := by
  obtain ⟨c, hsend, hwrote, -⟩ := sendAll_full sends (c := ⟨[], writes⟩) hwrites
  rw [transport, hsend, Option.bind_eq_bind, Option.bind_some, hwrote, List.nil_append]
  exact readerLoopForFragData_spec hok hheaders hdata

/-- No event is as long as 2^16 bytes. -/
def ShortEvents (events : List (List UInt8)) : Prop := ∀ data ∈ events, data.length < 65536

theorem fragTurn_keeps_short {s : FragState} (h : ShortEvents s.events) :
    Keeps (fun s' => ShortEvents s'.events) ShortEvents (fragTurn s) := by
  unfold fragTurn
  obtain ⟨t, bytes, headerReads⟩ := Lib.read HEADER_SIZE s.bytes s.headerReads
  cases t with
  | interrupted => exact h
  | failed => exact h
  | blocked => exact h
  | count got =>
    dsimp only
    by_cases hnil : got = []
    · rw [if_pos hnil]
      exact h
    · rw [if_neg hnil]
      unfold FragState.received
      dsimp only
      cases readData (decodeHeader (blit s.header 0 got)).mLength bytes s.dataReads with
      | none => exact h
      | some d =>
        intro data hdata
        rcases List.mem_append.mp hdata with hold | hnew
        · exact h data hold
        · rw [List.mem_singleton.mp hnew, length_slice]
          exact mLength_decodeHeader_lt _

theorem length_of_mem_transport {sends : List UserData} {writes headerReads dataReads : List Outcome}
    {events : List (List UInt8)} (h : transport sends writes headerReads dataReads = some events) :
    ShortEvents events := by
  obtain ⟨c, -, hloop⟩ := Option.bind_eq_some_iff.mp h
  have hinit : ShortEvents [] := List.forall_mem_nil _
  have hkeeps : ∀ s : FragState, ShortEvents s.events →
      Keeps (fun s' => ShortEvents s'.events) ShortEvents (fragTurn s) := fun _ hs =>
    fragTurn_keeps_short hs
  exact loop_sound hkeeps hinit hloop

/-! ## What the transport needs -/

/-- What the calls of `write()` and `read()` may do. -/
structure Environment where
  /-- A write may move fewer bytes than it is given. -/
  shortWrites : Bool
  /-- A write may be interrupted. -/
  interruptedWrites : Bool
  /-- A read of a header may stop within the header. -/
  partialHeaders : Bool

namespace Environment

variable (env : Environment)

def AllowsWrite : Outcome → Prop
  | .upto k => env.shortWrites = true ∨ MAX_FRAME_SIZE ≤ k
  | .interrupted => env.interruptedWrites = true
  | .failed => False

def AllowsHeaderRead (e : Outcome) : Prop :=
  e ≠ .failed ∧ (env.partialHeaders = true ∨ e.Full HEADER_SIZE)

/-- The calls have at most `limit` bytes of data, and the scripts are possible.  Reads may
be interrupted, and the reads of data may be short. -/
structure Allows (limit : Nat) (sends : List UserData) (writes headerReads dataReads : List Outcome) :
    Prop where
  sends_ok : ∀ d ∈ sends, d.Ok limit
  writes_ok : ∀ e ∈ writes, env.AllowsWrite e
  headerReads_ok : ∀ e ∈ headerReads, env.AllowsHeaderRead e
  dataReads_ok : NoFailure dataReads

/-- One event for each call, in order, with the data of the call. -/
def Delivers (limit : Nat) : Prop :=
  ∀ sends writes headerReads dataReads, env.Allows limit sends writes headerReads dataReads →
    transport sends writes headerReads dataReads = some (sends.map UserData.data)

end Environment

/-- A call of `sendUserData` with `length` bytes of data. -/
def blank (length : Nat) : UserData := ⟨0, 0, fun _ => 0, length⟩

theorem blank_ok {length limit : Nat} (h : length ≤ limit) : (blank length).Ok limit :=
  ⟨Int.le_refl 0, show (0 : Int) < 256 by decide, Int.le_refl 0, show (0 : Int) < 256 by decide, h⟩

section Needs

variable {env : Environment} {limit : Nat}

/-- A length that does not fit in its field. -/
theorem not_delivers_of_limit (hlimit : 65535 < limit) : ¬ env.Delivers limit := by
  intro h
  have hrun := h [blank 65536] [] [] [] ⟨?_, ?_, ?_, ?_⟩
  · have hlt := length_of_mem_transport hrun (blank 65536).data (List.mem_singleton.mpr rfl)
    rw [length_data] at hlt
    exact absurd hlt (Nat.lt_irrefl _)
  · intro d hd
    obtain rfl := List.mem_singleton.mp hd
    exact blank_ok hlimit
  · exact List.forall_mem_nil _
  · exact List.forall_mem_nil _
  · exact List.forall_mem_nil _

/-- Two headers of which only the first half is written make one. -/
theorem not_delivers_of_shortWrites (hshort : env.shortWrites = true) : ¬ env.Delivers limit := by
  intro h
  have hrun := h [blank 0, blank 0] [.upto 4, .upto 4] [] [] ⟨?_, ?_, ?_, ?_⟩
  · exact absurd hrun (by decide)
  · intro d hd
    obtain rfl : d = blank 0 := by simpa using hd
    exact blank_ok (Nat.zero_le _)
  · intro e he
    obtain rfl : e = .upto 4 := by simpa using he
    exact .inl hshort
  · exact List.forall_mem_nil _
  · exact List.forall_mem_nil _

/-- A header whose write is interrupted is lost. -/
theorem not_delivers_of_interruptedWrites (hinterrupted : env.interruptedWrites = true) :
    ¬ env.Delivers limit := by
  intro h
  have hrun := h [blank 0] [.interrupted] [] [] ⟨?_, ?_, ?_, ?_⟩
  · exact absurd hrun (by decide)
  · intro d hd
    obtain rfl := List.mem_singleton.mp hd
    exact blank_ok (Nat.zero_le _)
  · intro e he
    obtain rfl := List.mem_singleton.mp he
    exact hinterrupted
  · exact List.forall_mem_nil _
  · exact List.forall_mem_nil _

/-- A header that is read in two parts makes two events. -/
theorem not_delivers_of_partialHeaders (hheader : env.partialHeaders = true) :
    ¬ env.Delivers limit := by
  intro h
  have hrun := h [blank 0] [] [.upto 1] [] ⟨?_, ?_, ?_, ?_⟩
  · exact absurd hrun (by decide)
  · intro d hd
    obtain rfl := List.mem_singleton.mp hd
    exact blank_ok (Nat.zero_le _)
  · exact List.forall_mem_nil _
  · intro e he
    obtain rfl := List.mem_singleton.mp he
    exact ⟨by simp, .inl hheader⟩
  · exact List.forall_mem_nil _

end Needs

/-- **When user data are delivered**: in every possible run, when no data is longer than
65535 bytes, writes are neither short nor interrupted, and headers are read in one go; and
only then. -/
theorem delivers_iff (env : Environment) (limit : Nat) :
    env.Delivers limit ↔ limit ≤ 65535 ∧ env.shortWrites = false ∧
      env.interruptedWrites = false ∧ env.partialHeaders = false := by
  constructor
  · intro h
    refine ⟨?_, ?_, ?_, ?_⟩
    · exact Nat.le_of_not_lt fun hlimit => not_delivers_of_limit hlimit h
    · exact Bool.eq_false_iff.mpr fun hshort => not_delivers_of_shortWrites hshort h
    · exact Bool.eq_false_iff.mpr fun hint => not_delivers_of_interruptedWrites hint h
    · exact Bool.eq_false_iff.mpr fun hheader => not_delivers_of_partialHeaders hheader h
  · rintro ⟨hlimit, hshort, hinterrupted, hheader⟩ sends writes headerReads dataReads hallows
    refine transport_eq ?_ ?_ ⟨?_, ?_⟩ hallows.dataReads_ok
    · intro d hd
      have hd := hallows.sends_ok d hd
      exact { hd with length_le := Nat.le_trans hd.length_le hlimit }
    · intro e he
      have he := hallows.writes_ok e he
      cases e with
      | upto k => exact ⟨k, rfl, he.resolve_left (by simp [hshort])⟩
      | interrupted => exact absurd (hinterrupted.symm.trans he) (by simp)
      | failed => exact he.elim
    · exact fun e he => (hallows.headerReads_ok e he).1
    · exact fun e he => (hallows.headerReads_ok e he).2.resolve_left (by simp [hheader])

/-- Three bytes of data: the second write is interrupted or short, or the header is read in
two parts. -/
theorem user_data_not_delivered :
    transport [blank 3] [.upto 2048, .interrupted] [] [] ≠ some [(blank 3).data] ∧
      transport [blank 3] [.upto 2048, .upto 1] [] [] ≠ some [(blank 3).data] ∧
      transport [blank 3] [] [.upto 1] [] ≠ some [(blank 3).data] := by
  decide

end MtkHw.Rfx
