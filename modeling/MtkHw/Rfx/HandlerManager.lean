import Mathlib.Data.Int.Order.Basic
import Mathlib.Data.Nat.Basic
import MtkHw.Lib.SortedVector

/-!
# The registration table of handlers

`RfxHandlerManager` keeps a sorted vector of entries for every channel.  An entry for
an unsolicited line (URC) is a text that lines start with, or, with `needAllMatch`,
the line itself.  A line is routed in two steps: `findMsgChannel` looks for an entry in
the channels of a slot and heeds the flag of each entry, and `processMessage`, on the
thread of that channel, looks for the first entry whose text the line starts with,
whatever its flag.

`RIL_CHANNEL_OFFSET`, the number of channels of a slot, depends on the build, and is
the parameter `offset`.  Strings are the bytes before their terminator.
-/

namespace MtkHw.Rfx

open MtkHw.Lib

universe u

/-! ## Strings -/

/-- `strcmp(a, b) < 0` -/
def strBelow : List UInt8 → List UInt8 → Bool
  | _, [] => false
  | [], _ :: _ => true
  | a :: as, b :: bs => a < b || (a == b && strBelow as bs)

/-- `RfxMisc::strStartsWith` -/
def strStartsWith : List UInt8 → List UInt8 → Bool
  | _, [] => true
  | [], _ :: _ => false
  | c :: line, p :: pre => if c ≠ p then false else strStartsWith line pre

theorem strStartsWith_iff {line pre : List UInt8} : strStartsWith line pre ↔ pre <+: line := by
  induction line generalizing pre with
  | nil =>
    cases pre with
    | nil => simp [strStartsWith]
    | cons p pre => simp [strStartsWith]
  | cons c line ih =>
    cases pre with
    | nil => simp [strStartsWith]
    | cons p pre =>
      rw [strStartsWith, List.cons_prefix_cons]
      split_ifs with hne
      · exact iff_of_false id fun h => hne h.1.symm
      · rw [ih]
        exact (and_iff_right (not_not.mp hne).symm).symm

theorem strBelow_asymm {a b : List UInt8} (h : strBelow a b) : ¬strBelow b a := by
  induction a generalizing b with
  | nil =>
    cases b with
    | nil => cases h
    | cons y b => exact Bool.false_ne_true
  | cons x a ih =>
    cases b with
    | nil => cases h
    | cons y b =>
      simp only [strBelow, Bool.or_eq_true, Bool.and_eq_true, decide_eq_true_eq, beq_iff_eq] at h ⊢
      rcases h with hlt | ⟨rfl, hbelow⟩
      · rintro (hgt | ⟨rfl, -⟩)
        · exact UInt8.lt_asymm hlt hgt
        · exact UInt8.lt_irrefl y hlt
      · rintro (hlt | ⟨-, habove⟩)
        · exact UInt8.lt_irrefl x hlt
        · exact ih hbelow habove

theorem strBelow_conn {a b c : List UInt8} (h : strBelow a c) : strBelow a b ∨ strBelow b c := by
  induction a generalizing b c with
  | nil =>
    cases b with
    | nil => exact .inr h
    | cons y b => exact .inl rfl
  | cons x a ih =>
    cases c with
    | nil => cases h
    | cons z c =>
      cases b with
      | nil => exact .inr rfl
      | cons y b =>
        simp only [strBelow, Bool.or_eq_true, Bool.and_eq_true, decide_eq_true_eq,
          beq_iff_eq] at h ⊢
        by_cases hxy : x < y
        · exact .inl (.inl hxy)
        · by_cases heq : x = y
          · subst heq
            rcases h with hlt | ⟨rfl, hbelow⟩
            · exact .inr (.inl hlt)
            · exact (ih hbelow).imp (fun h => .inr ⟨rfl, h⟩) fun h => .inr ⟨rfl, h⟩
          · have hne : x.toNat ≠ y.toNat := fun h => heq (UInt8.toNat_inj.mp h)
            have hle : x ≤ z := by
              rcases h with hlt | ⟨rfl, -⟩
              · exact UInt8.le_of_lt hlt
              · exact UInt8.le_refl x
            rw [UInt8.lt_iff_toNat_lt] at hxy
            rw [UInt8.le_iff_toNat_le] at hle
            exact .inr (.inl (UInt8.lt_iff_toNat_lt.mpr (by omega)))

theorem strBelow_trichotomous {a b : List UInt8} (hab : ¬strBelow a b) (hba : ¬strBelow b a) :
    a = b := by
  induction a generalizing b with
  | nil =>
    cases b with
    | nil => rfl
    | cons y b => exact absurd rfl hab
  | cons x a ih =>
    cases b with
    | nil => exact absurd rfl hba
    | cons y b =>
      simp only [strBelow, Bool.or_eq_true, Bool.and_eq_true, decide_eq_true_eq, beq_iff_eq,
        not_or, not_and] at hab hba
      obtain rfl : x = y := by
        rw [UInt8.lt_iff_toNat_lt] at hab hba
        exact UInt8.toNat_inj.mp (by omega)
      rw [ih (hab.2 rfl) (hba.2 rfl)]

instance : Std.Asymm fun a b => strBelow a b = true := ⟨fun _ _ => strBelow_asymm⟩

instance : IsOrderConnected (List UInt8) fun a b => strBelow a b = true :=
  ⟨fun _ _ _ => strBelow_conn⟩

instance : Std.Trichotomous fun a b => strBelow a b = true := ⟨fun _ _ => strBelow_trichotomous⟩

/-! ## Entries -/

/-- `RfxHandlerRegisterEntry`; the handler of a query is `none`. -/
structure RfxHandlerRegisterEntry (H : Type u) where
  handler : Option H
  channelId : Int
  slotId : Int
  id : Int
  clientId : Int
  rawUrc : List UInt8
  needAllMatch : Bool

namespace RfxHandlerRegisterEntry

variable {H : Type u}

/-- `operator<`: entries that need all of their text come last, longer texts first. -/
def lt (a b : RfxHandlerRegisterEntry H) : Prop :=
  (a.needAllMatch = false ∧ b.needAllMatch = true) ∨
  (a.needAllMatch = b.needAllMatch ∧ a.rawUrc.length > b.rawUrc.length) ∨
  (a.needAllMatch = b.needAllMatch ∧ a.rawUrc.length = b.rawUrc.length ∧ a.slotId < b.slotId) ∨
  (a.needAllMatch = b.needAllMatch ∧ a.rawUrc.length = b.rawUrc.length ∧ a.slotId = b.slotId ∧
    a.id < b.id) ∨
  (a.needAllMatch = b.needAllMatch ∧ a.rawUrc.length = b.rawUrc.length ∧ a.slotId = b.slotId ∧
    a.id = b.id ∧ strBelow a.rawUrc b.rawUrc) ∨
  (a.needAllMatch = b.needAllMatch ∧ a.rawUrc.length = b.rawUrc.length ∧ a.slotId = b.slotId ∧
    a.id = b.id ∧ a.rawUrc = b.rawUrc ∧ a.clientId < b.clientId)

instance : DecidableRel (lt (H := H)) := fun _ _ => inferInstanceAs (Decidable (_ ∨ _))

/-- The operator compares one key after the other. -/
theorem lt_eq_lex : lt (H := H) =
    SortedVector.lex (· < ·) (fun e => e.needAllMatch.toNat)
      (SortedVector.lex (· > ·) (fun e => e.rawUrc.length)
        (SortedVector.lex (· < ·) slotId
          (SortedVector.lex (· < ·) id
            (SortedVector.lex (fun a b => strBelow a b) rawUrc
              (SortedVector.lex (· < ·) clientId SortedVector.never))))) := by
  funext a b
  cases ha : a.needAllMatch <;> cases hb : b.needAllMatch <;>
    simp only [lt, SortedVector.lex, SortedVector.never, ha, hb, eq_iff_iff] <;> grind

instance : Std.Asymm (lt (H := H)) := by
  rw [lt_eq_lex]
  infer_instance

instance : IsOrderConnected (RfxHandlerRegisterEntry H) lt := by
  rw [lt_eq_lex]
  infer_instance

/-- The entries before an entry need all of their text only when it does, and then they are
not shorter. -/
theorem length_le_of_lt {a b : RfxHandlerRegisterEntry H} (h : a.lt b) (ha : a.needAllMatch) :
    b.needAllMatch ∧ b.rawUrc.length ≤ a.rawUrc.length := by
  unfold lt at h
  grind

/-- `findMsgChannel`, for one entry: a line is the text, or starts with it. -/
def accepts (urc : List UInt8) (item : RfxHandlerRegisterEntry H) : Bool :=
  if item.needAllMatch then urc = item.rawUrc else strStartsWith urc item.rawUrc

/-- The rule of an entry. -/
def Matches (item : RfxHandlerRegisterEntry H) (urc : List UInt8) : Prop :=
  if item.needAllMatch then urc = item.rawUrc else item.rawUrc <+: urc

theorem accepts_iff {item : RfxHandlerRegisterEntry H} {urc : List UInt8} :
    accepts urc item ↔ item.Matches urc := by
  unfold accepts Matches
  split_ifs
  · exact decide_eq_true_iff
  · exact strStartsWith_iff

/-- A line that matches starts with the text. -/
theorem Matches.isPrefix {item : RfxHandlerRegisterEntry H} {urc : List UInt8}
    (h : item.Matches urc) : item.rawUrc <+: urc := by
  unfold Matches at h
  split_ifs at h
  · exact ⟨[], by rw [List.append_nil, h]⟩
  · exact h

end RfxHandlerRegisterEntry

/-! ## Tables -/

section Tables

variable {H : Type u}

/-- `m_urc_list`: the entries of each channel. -/
abbrev RegisterTable (H : Type u) := Nat → List (RfxHandlerRegisterEntry H)

/-- `findMsgHandlerInternal` -/
def findMsgHandlerInternal (list : List (RfxHandlerRegisterEntry H))
    (channelId slotId id clientId : Int) (urc : Option (List UInt8)) (needAllMatch : Bool) :
    Option H :=
  match urc with
  | none =>
      (SortedVector.lookup RfxHandlerRegisterEntry.lt
        ⟨none, channelId, slotId, id, clientId, [], needAllMatch⟩ list).bind
          RfxHandlerRegisterEntry.handler
  | some urc =>
      (list.find? fun item =>
        if needAllMatch then urc = item.rawUrc else strStartsWith urc item.rawUrc).bind
          RfxHandlerRegisterEntry.handler

/-- `findMsgHandler` -/
def findMsgHandler (list : List (RfxHandlerRegisterEntry H)) (channelId slotId id clientId : Int)
    (urc : Option (List UInt8)) : Option H :=
  findMsgHandlerInternal list channelId slotId id clientId urc false

/-- The entry of a URC. -/
def urcEntry (handler : H) (channelId slotId : Int) (needAllMatch : Bool) (urc : List UInt8) :
    RfxHandlerRegisterEntry H :=
  ⟨some handler, channelId, slotId, -1, -1, urc, needAllMatch⟩

/-- `registerInternal`, for URCs: an entry that replaces that of another handler fails an
assertion. -/
def registerInternal [DecidableEq H] (handler : H) (channelId slotId : Int) (needAllMatch : Bool) :
    List (List UInt8) → List (RfxHandlerRegisterEntry H) →
      Option (List (RfxHandlerRegisterEntry H))
  | [], list => some list
  | urc :: urcs, list =>
      let added := SortedVector.add RfxHandlerRegisterEntry.lt
        (urcEntry handler channelId slotId needAllMatch urc) list
      if added.length = list.length ∧
          findMsgHandlerInternal added channelId slotId (-1) (-1) (some urc) needAllMatch ≠
            some handler then
        none
      else
        registerInternal handler channelId slotId needAllMatch urcs added

/-- A call of `registerToHandleUrc` by a handler of a channel of a slot. -/
structure UrcCall (H : Type u) (offset : Nat) where
  handler : H
  channelId : Fin offset
  slotId : Nat
  urcs : List (List UInt8)
  needAllMatch : Bool

/-- The index of the channel among those of all slots. -/
def UrcCall.realChannelId {offset : Nat} (call : UrcCall H offset) : Nat :=
  call.channelId + offset * call.slotId

/-- `registerToHandleUrc` -/
def registerToHandleUrc [DecidableEq H] {offset : Nat} (table : RegisterTable H)
    (call : UrcCall H offset) : Option (RegisterTable H) :=
  (registerInternal call.handler call.realChannelId call.slotId call.needAllMatch call.urcs
    (table call.realChannelId)).map (Function.update table call.realChannelId)

/-- The table after a list of registrations. -/
def registerAll [DecidableEq H] {offset : Nat} :
    RegisterTable H → List (UrcCall H offset) → Option (RegisterTable H)
  | table, [] => some table
  | table, call :: calls => (registerToHandleUrc table call).bind fun table => registerAll table calls

/-- `findMsgChannel`, for a URC: the channel of the first entry that accepts it. -/
def findMsgChannel (offset : Nat) (table : RegisterTable H) (slotId : Nat) (urc : List UInt8) : Int :=
  ((List.range offset).findSome? fun i =>
    ((table (i + slotId * offset)).find? (RfxHandlerRegisterEntry.accepts urc)).map
      RfxHandlerRegisterEntry.channelId).getD (-1)

/-- `processMessage`, for a URC on a channel: the handler that is given it. -/
def processUrc (table : RegisterTable H) (channelId : Nat) (slotId id clientId : Int)
    (urc : List UInt8) : Option H :=
  findMsgHandler (table channelId) channelId slotId id clientId (some urc)

/-! ## What registration keeps -/

/-- The vector of a channel is sorted, and its entries are those of handlers of that channel. -/
structure ChannelInv (offset channelId : Nat) (list : List (RfxHandlerRegisterEntry H)) : Prop where
  sorted : list.Pairwise RfxHandlerRegisterEntry.lt
  channelId_eq : ∀ e ∈ list, e.channelId = channelId
  slotId_eq : ∀ e ∈ list, ∃ i < offset, ∃ slot : Nat, e.slotId = slot ∧ channelId = i + offset * slot
  handler_isSome : ∀ e ∈ list, ∃ h, e.handler = some h

variable [DecidableEq H] {offset : Nat}

theorem ChannelInv.registerInternal {call : UrcCall H offset} {urcs : List (List UInt8)}
    {list list' : List (RfxHandlerRegisterEntry H)}
    (h : ChannelInv offset call.realChannelId list)
    (hreg : registerInternal call.handler call.realChannelId call.slotId call.needAllMatch urcs list =
      some list') : ChannelInv offset call.realChannelId list' := by
  induction urcs generalizing list with
  | nil =>
    cases hreg
    exact h
  | cons urc urcs ih =>
    rw [Rfx.registerInternal] at hreg
    split_ifs at hreg
    refine ih ⟨SortedVector.add_pairwise h.sorted, fun e he => ?_, fun e he => ?_, fun e he => ?_⟩ hreg
    · rcases SortedVector.mem_of_mem_add he with rfl | he
      · rfl
      · exact h.channelId_eq e he
    · rcases SortedVector.mem_of_mem_add he with rfl | he
      · exact ⟨call.channelId, call.channelId.isLt, call.slotId, rfl, rfl⟩
      · exact h.slotId_eq e he
    · rcases SortedVector.mem_of_mem_add he with rfl | he
      · exact ⟨_, rfl⟩
      · exact h.handler_isSome e he

theorem registerAll_inv {calls : List (UrcCall H offset)} {table table' : RegisterTable H}
    (h : ∀ c, ChannelInv offset c (table c)) (hreg : registerAll table calls = some table') :
    ∀ c, ChannelInv offset c (table' c) := by
  induction calls generalizing table with
  | nil =>
    cases hreg
    exact h
  | cons call calls ih =>
    obtain ⟨table₁, htable₁, hrest⟩ := Option.bind_eq_some_iff.mp hreg
    obtain ⟨list, hlist, rfl⟩ := Option.map_eq_some_iff.mp htable₁
    refine ih (fun c => ?_) hrest
    by_cases hc : c = call.realChannelId
    · subst hc
      rw [Function.update_self]
      exact (h _).registerInternal hlist
    · rw [Function.update_of_ne hc]
      exact h c

end Tables

end MtkHw.Rfx
