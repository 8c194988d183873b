import MtkHw.Rfx.HandlerManager

/-!
# Routing and dispatch of a URC agree

`processMessage` looks for a text that the line starts with, also among the entries that
need all of their text.  The order of the entries makes up for it: those come last and
are sorted by their length, so the first one that the line starts with is the line
itself whenever one of them is.
-/

namespace MtkHw.Rfx

universe u

variable {H : Type u}

/-- In a sorted vector with an entry that matches the line, the first entry whose text the line
starts with matches it too. -/
theorem exists_find?_matches {list : List (RfxHandlerRegisterEntry H)} {urc : List UInt8}
    (hsorted : list.Pairwise RfxHandlerRegisterEntry.lt) {m : RfxHandlerRegisterEntry H}
    (hm : m ∈ list) (hmatch : m.Matches urc) :
    ∃ e ∈ list, list.find? (fun item => strStartsWith urc item.rawUrc) = some e ∧ e.Matches urc := by
  induction list with
  | nil => cases hm
  | cons e list ih =>
    obtain ⟨hbefore, hrest⟩ := List.pairwise_cons.mp hsorted
    by_cases hstarts : strStartsWith urc e.rawUrc
    · refine ⟨e, List.mem_cons_self, List.find?_cons_of_pos hstarts, ?_⟩
      rcases List.mem_cons.mp hm with rfl | hm
      · exact hmatch
      · -- The line starts with the text of `e`, which is before the entry that matches.
        have hstart := strStartsWith_iff.mp hstarts
        unfold RfxHandlerRegisterEntry.Matches at hmatch ⊢
        split_ifs with hall
        · obtain ⟨hallm, hlength⟩ := RfxHandlerRegisterEntry.length_le_of_lt (hbefore m hm) hall
          rw [if_pos hallm] at hmatch
          rw [← hmatch] at hlength
          exact (hstart.eq_of_length_le hlength).symm
        · exact hstart
    · rcases List.mem_cons.mp hm with rfl | hm
      · exact absurd (strStartsWith_iff.mpr hmatch.isPrefix) hstarts
      · obtain ⟨e', he', hfind, hmatch'⟩ := ih hrest hm
        refine ⟨e', List.mem_cons_of_mem _ he', ?_, hmatch'⟩
        rw [List.find?_cons, Bool.eq_false_iff.mpr hstarts]
        exact hfind

section Tables

variable [DecidableEq H] {offset : Nat} {calls : List (UrcCall H offset)} {table : RegisterTable H}

omit [DecidableEq H] in
/-- The entries of a channel of a slot are entries of the slot. -/
theorem slotId_of_mem (hinv : ∀ c, ChannelInv offset c (table c)) {i slotId : Nat} (hi : i < offset)
    {m : RfxHandlerRegisterEntry H} (hm : m ∈ table (i + slotId * offset)) : m.slotId = slotId := by
  obtain ⟨j, hj, slot, hslot, hchannel⟩ := (hinv _).slotId_eq m hm
  have hpos : 0 < offset := (Nat.zero_le i).trans_lt hi
  have hdiv := congrArg (· / offset) hchannel
  simp only [Nat.add_mul_div_right _ _ hpos, Nat.add_mul_div_left _ _ hpos, Nat.div_eq_of_lt hi,
    Nat.div_eq_of_lt hj, Nat.zero_add] at hdiv
  rw [hslot, hdiv]

omit [DecidableEq H] in
/-- A channel that is found is one of the slot, and has an entry that matches; none is found
when no channel of the slot has one. -/
theorem findMsgChannel_cases (hinv : ∀ c, ChannelInv offset c (table c)) (slotId : Nat)
    (urc : List UInt8) :
    (∃ i < offset, findMsgChannel offset table slotId urc = (i + slotId * offset : Nat) ∧
        ∃ m ∈ table (i + slotId * offset), m.Matches urc) ∨
      findMsgChannel offset table slotId urc = -1 ∧
        ∀ i < offset, ∀ m ∈ table (i + slotId * offset), ¬m.Matches urc := by
  unfold findMsgChannel
  cases hfound : (List.range offset).findSome? fun i =>
      ((table (i + slotId * offset)).find? (RfxHandlerRegisterEntry.accepts urc)).map
        RfxHandlerRegisterEntry.channelId with
  | none =>
    right
    refine ⟨rfl, fun i hi m hm hmatch => ?_⟩
    have hnone := List.findSome?_eq_none_iff.mp hfound i (List.mem_range.mpr hi)
    rw [Option.map_eq_none_iff, List.find?_eq_none] at hnone
    exact hnone m hm (RfxHandlerRegisterEntry.accepts_iff.mpr hmatch)
  | some channelId =>
    left
    obtain ⟨i, hi, hsome⟩ := List.exists_of_findSome?_eq_some hfound
    obtain ⟨m, hm, rfl⟩ := Option.map_eq_some_iff.mp hsome
    have hmem := List.mem_of_find?_eq_some hm
    refine ⟨i, List.mem_range.mp hi, (hinv _).channelId_eq m hmem, m, hmem, ?_⟩
    exact RfxHandlerRegisterEntry.accepts_iff.mp (List.find?_some hm)

/-- **URC routing and dispatch agree**, for every table that registrations build: a channel is
found exactly when an entry of the slot matches the line, and the handler that is given the line
on that channel is the one of an entry that matches it, which is not an entry that needs all of
its text when the line only starts with it. -/
theorem urc_routed (hbuilt : registerAll (fun _ => []) calls = some table) (slotId : Nat)
    (urc : List UInt8) :
    (findMsgChannel offset table slotId urc ≠ -1 ↔
        ∃ channelId, ∃ m ∈ table channelId, m.slotId = slotId ∧ m.Matches urc) ∧
      ∀ channelId : Nat, findMsgChannel offset table slotId urc = channelId →
        ∀ slot id clientId : Int, ∃ e ∈ table channelId, e.slotId = slotId ∧ e.Matches urc ∧
          ¬(e.needAllMatch ∧ e.rawUrc ≠ urc) ∧
          ∃ handler, e.handler = some handler ∧
            processUrc table channelId slot id clientId urc = some handler := by
  have hempty : ∀ c, ChannelInv offset c ([] : List (RfxHandlerRegisterEntry H)) := by
    intro c
    constructor
    · exact List.Pairwise.nil
    · rintro e ⟨⟩
    · rintro e ⟨⟩
    · rintro e ⟨⟩
  have hinv := registerAll_inv hempty hbuilt
  have hcases := findMsgChannel_cases hinv slotId urc
  constructor
  · constructor
    · intro hfound
      rcases hcases with ⟨i, hi, -, m, hm, hmatch⟩ | ⟨hnone, -⟩
      · exact ⟨_, m, hm, slotId_of_mem hinv hi hm, hmatch⟩
      · exact absurd hnone hfound
    · rintro ⟨channelId, m, hm, hslot, hmatch⟩ hnone
      obtain ⟨i, hi, slot, hslot', hchannel⟩ := (hinv channelId).slotId_eq m hm
      rcases hcases with ⟨i, -, hfound, -⟩ | ⟨-, hfree⟩
      · rw [hfound] at hnone
        cases hnone
      · obtain rfl : slot = slotId := Int.ofNat_inj.mp (hslot'.symm.trans hslot)
        rw [hchannel, Nat.mul_comm] at hm
        exact hfree i hi m hm hmatch
  · intro channelId hfound slot id clientId
    rcases hcases with ⟨i, hi, hfound', m, hm, hmatch⟩ | ⟨hnone, -⟩
    · obtain rfl : channelId = i + slotId * offset := Int.ofNat_inj.mp (hfound.symm.trans hfound')
      obtain ⟨e, he, hfind, hmatch'⟩ := exists_find?_matches (hinv _).sorted hm hmatch
      obtain ⟨handler, hhandler⟩ := (hinv _).handler_isSome e he
      refine ⟨e, he, slotId_of_mem hinv hi he, hmatch', ?_, handler, hhandler, ?_⟩
      · rintro ⟨hall, hne⟩
        rw [RfxHandlerRegisterEntry.Matches, if_pos hall] at hmatch'
        exact hne hmatch'.symm
      · simp [processUrc, findMsgHandler, findMsgHandlerInternal, hfind, hhandler]
    · rw [hnone] at hfound
      cases hfound

/-- Two handlers of a channel of slot `1`: `2` is registered for the lines that start with `AB`,
and `1` for the line `A`. -/
def sharedChannel : List (UrcCall Nat 6) :=
  [⟨1, 0, 1, [[65]], true⟩, ⟨2, 0, 1, [[65, 66]], false⟩]

/-- The line `ABC` is given to the second of them. -/
theorem urc_routed_shared : ∃ table, registerAll (fun _ => []) sharedChannel = some table ∧
    findMsgChannel 6 table 1 [65, 66, 67] = 6 ∧
    ∃ e ∈ table 6, e.Matches [65, 66, 67] ∧
      processUrc table 6 1 (-1) (-1) [65, 66, 67] = e.handler := by
  refine ⟨_, rfl, by decide, ?_⟩
  have hbuilt : registerAll (fun _ => []) sharedChannel = some _ := rfl
  obtain ⟨-, hrouted⟩ := urc_routed hbuilt 1 [65, 66, 67]
  obtain ⟨e, he, -, hmatch, -, handler, hhandler, hgiven⟩ :=
    hrouted 6 (by decide) 1 (-1) (-1)
  exact ⟨e, he, hmatch, hgiven.trans hhandler.symm⟩

end Tables

end MtkHw.Rfx
