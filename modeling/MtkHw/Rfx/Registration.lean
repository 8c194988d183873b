import MtkHw.Lib.Machine
import MtkHw.Rfx.HandlerManager

/-!
# Registering an entry twice

Handlers register requests, events and unsolicited lines (URCs).  An entry that is added
to a sorted vector and leaves its length as it was has replaced an equal one, and each
overload of `registerInternal` then looks for the handler of the entry: it goes on when
this is the handler that registers, and fails an assertion when it is not.

The vector has been changed by then.  The query for requests and events finds the new
entry, so it never fails; the query for events of a client swaps the id and the client;
the query for a URC stops at the first entry whose text fits, whatever its slot and flag.
`registration_iff` says when the outcome is the right one all the same.
-/

namespace MtkHw.Rfx

open MtkHw.Lib

universe u v

variable {H : Type u}

/-! ## What the entries are compared by -/

/-- The fields that `operator<` compares. -/
structure EntryKey where
  slotId : Int
  id : Int
  clientId : Int
  rawUrc : List UInt8
  needAllMatch : Bool
deriving DecidableEq

namespace RfxHandlerRegisterEntry

/-- The fields of an entry that `operator<` compares. -/
def key (e : RfxHandlerRegisterEntry H) : EntryKey :=
  ⟨e.slotId, e.id, e.clientId, e.rawUrc, e.needAllMatch⟩

/-- Entries count as equal when all of these fields are. -/
theorem equal_iff {a b : RfxHandlerRegisterEntry H} : ¬a.lt b ∧ ¬b.lt a ↔ a.key = b.key := by
  rw [lt_eq_lex]
  simp only [SortedVector.lex_equal_iff, SortedVector.never, key, EntryKey.mk.injEq]
  constructor
  · rintro ⟨hflag, -, hslot, hid, hurc, hclient, -⟩
    refine ⟨hslot, hid, hclient, hurc, ?_⟩
    cases ha : a.needAllMatch <;> cases hb : b.needAllMatch <;> simp_all
  · rintro ⟨hslot, hid, hclient, hurc, hflag⟩
    exact ⟨congrArg Bool.toNat hflag, congrArg List.length hurc, hslot, hid, hurc, hclient,
      not_false, not_false⟩

theorem ne_key_iff {a b : RfxHandlerRegisterEntry H} : a.lt b ∨ b.lt a ↔ a.key ≠ b.key := by
  rw [← not_iff_not, not_or, not_not]
  exact equal_iff

/-- An entry is its key, its handler and its channel. -/
theorem eq_of_key {a b : RfxHandlerRegisterEntry H} (hkey : a.key = b.key)
    (hhandler : a.handler = b.handler) (hchannel : a.channelId = b.channelId) : a = b := by
  cases a
  cases b
  simp only [key, EntryKey.mk.injEq] at hkey hhandler hchannel
  obtain ⟨rfl, rfl, rfl, rfl, rfl⟩ := hkey
  rw [hhandler, hchannel]

end RfxHandlerRegisterEntry

/-! ## The overloads of `registerInternal` -/

section Overloads

variable {ι : Type v} [DecidableEq H]

/-- The loop of `registerInternal`: add the entry of each item, and when the vector has not
grown look for the handler of the entry. -/
def registerLoop (handler : H) (entry : ι → RfxHandlerRegisterEntry H)
    (dupHandler : ι → List (RfxHandlerRegisterEntry H) → Option H) :
    List ι → List (RfxHandlerRegisterEntry H) → Option (List (RfxHandlerRegisterEntry H))
  | [], list => some list
  | i :: is, list =>
      let added := SortedVector.add RfxHandlerRegisterEntry.lt (entry i) list
      if added.length = list.length ∧ dupHandler i added ≠ some handler then
        none
      else
        registerLoop handler entry dupHandler is added

/-- The entry of an id; that of a request and of an event without a client has client −1. -/
def idEntry (handler : H) (channelId slotId id clientId : Int) : RfxHandlerRegisterEntry H :=
  ⟨some handler, channelId, slotId, id, clientId, [], false⟩

/-- `registerInternal`, for ids. -/
def registerInternalId (handler : H) (channelId slotId : Int) (idList : List Int) :
    List (RfxHandlerRegisterEntry H) → Option (List (RfxHandlerRegisterEntry H)) :=
  registerLoop handler (fun id => idEntry handler channelId slotId id (-1))
    (fun id list => findMsgHandlerInternal list channelId slotId id (-1) none false) idList

/-- `registerInternal`, for the ids of a client: the query is given the client for the id and
the id for the client. -/
def registerInternalClient (handler : H) (channelId slotId clientId : Int) (idList : List Int) :
    List (RfxHandlerRegisterEntry H) → Option (List (RfxHandlerRegisterEntry H)) :=
  registerLoop handler (fun id => idEntry handler channelId slotId id clientId)
    (fun id list => findMsgHandlerInternal list channelId slotId clientId id none false) idList

/-- The overload for URCs is the same loop. -/
theorem registerInternal_eq_loop (handler : H) (channelId slotId : Int) (needAllMatch : Bool)
    (urcs : List (List UInt8)) (list : List (RfxHandlerRegisterEntry H)) :
    registerInternal handler channelId slotId needAllMatch urcs list =
      registerLoop handler (urcEntry handler channelId slotId needAllMatch)
        (fun urc list =>
          findMsgHandlerInternal list channelId slotId (-1) (-1) (some urc) needAllMatch)
        urcs list := by
  induction urcs generalizing list with
  | nil => rfl
  | cons urc urcs ih =>
    rw [registerInternal, registerLoop]
    simp only [ih]

end Overloads

/-! ## The vectors of all channels -/

/-- The messages that handlers register for; `findListByType` has a vector for each. -/
inductive MsgList
  | request
  | urc
  | event
deriving DecidableEq

/-- Something for each list of each channel. -/
abbrev PerList (α : Type u) := MsgList → Nat → α

/-- Change one of them. -/
def PerList.set {α : Type u} (f : PerList α) (l : MsgList) (channelId : Nat) (a : α) : PerList α :=
  Function.update f l (Function.update (f l) channelId a)

namespace PerList

variable {α : Type u} (f : PerList α) (l : MsgList) (channelId : Nat)

@[simp] theorem set_self (a : α) : f.set l channelId a l channelId = a := by
  rw [set, Function.update_self, Function.update_self]

theorem set_of_ne {l l' : MsgList} {channelId channelId' : Nat} (a : α)
    (h : ¬(l' = l ∧ channelId' = channelId)) :
    f.set l channelId a l' channelId' = f l' channelId' := by
  unfold set
  by_cases hl : l' = l
  · subst hl
    rw [Function.update_self, Function.update_of_ne fun hc => h ⟨rfl, hc⟩]
  · rw [Function.update_of_ne hl]

@[simp] theorem set_eq_self : f.set l channelId (f l channelId) = f := by
  rw [set, Function.update_eq_self, Function.update_eq_self]

@[simp] theorem set_set (a b : α) :
    PerList.set (f.set l channelId a) l channelId b = f.set l channelId b := by
  funext l' c
  by_cases h : l' = l ∧ c = channelId
  · obtain ⟨rfl, rfl⟩ := h
    rw [set_self, set_self]
  · rw [set_of_ne _ _ h, set_of_ne _ _ h, set_of_ne _ _ h]

end PerList

/-- `m_request_list`, `m_urc_list` and `m_event_list` -/
abbrev MsgTables (H : Type u) := PerList (List (RfxHandlerRegisterEntry H))

/-! ## Registrations, one entry at a time -/

/-- What one entry is registered for. -/
inductive RegisteredItem
  | request (id : Int)
  | event (id : Int)
  | clientEvent (clientId id : Int)
  | urc (text : List UInt8) (needAllMatch : Bool)
deriving DecidableEq

/-- The registration of one entry by a handler. -/
structure Registration (H : Type u) where
  handler : H
  channelId : Nat
  slotId : Int
  item : RegisteredItem

namespace Registration

/-- The list that the entry goes to. -/
def list (reg : Registration H) : MsgList :=
  match reg.item with
  | .request _ => .request
  | .event _ => .event
  | .clientEvent _ _ => .event
  | .urc _ _ => .urc

/-- The entry. -/
def entry (reg : Registration H) : RfxHandlerRegisterEntry H :=
  match reg.item with
  | .request id => idEntry reg.handler reg.channelId reg.slotId id (-1)
  | .event id => idEntry reg.handler reg.channelId reg.slotId id (-1)
  | .clientEvent clientId id => idEntry reg.handler reg.channelId reg.slotId id clientId
  | .urc text needAllMatch => urcEntry reg.handler reg.channelId reg.slotId needAllMatch text

/-- `dup_handler`, of the vector that the entry has been added to. -/
def dupHandler (reg : Registration H) (added : List (RfxHandlerRegisterEntry H)) : Option H :=
  match reg.item with
  | .request id => findMsgHandlerInternal added reg.channelId reg.slotId id (-1) none false
  | .event id => findMsgHandlerInternal added reg.channelId reg.slotId id (-1) none false
  | .clientEvent clientId id =>
      findMsgHandlerInternal added reg.channelId reg.slotId clientId id none false
  | .urc text needAllMatch =>
      findMsgHandlerInternal added reg.channelId reg.slotId (-1) (-1) (some text) needAllMatch

theorem entry_handler (reg : Registration H) : reg.entry.handler = some reg.handler := by
  unfold entry
  split <;> rfl

theorem entry_channelId (reg : Registration H) : reg.entry.channelId = reg.channelId := by
  unfold entry
  split <;> rfl

/-- The vector after the entry is added. -/
def added (reg : Registration H) (tables : MsgTables H) : List (RfxHandlerRegisterEntry H) :=
  SortedVector.add RfxHandlerRegisterEntry.lt reg.entry (tables reg.list reg.channelId)

/-- A turn of the loop; none when its assertion fails. -/
def register [DecidableEq H] (reg : Registration H) (tables : MsgTables H) :
    Option (MsgTables H) :=
  if (reg.added tables).length = (tables reg.list reg.channelId).length ∧
      reg.dupHandler (reg.added tables) ≠ some reg.handler then
    none
  else
    some (tables.set reg.list reg.channelId (reg.added tables))

end Registration

/-! ## Calls -/

/-- The calls by which handlers register. -/
inductive RegisterCall (H : Type u)
  | registerToHandleRequest (handler : H) (channelId : Nat) (slotId : Int) (requestIds : List Int)
  | registerToHandleEvent (handler : H) (channelId : Nat) (slotId : Int) (eventIds : List Int)
  | registerToHandleClientEvent (handler : H) (channelId : Nat) (slotId clientId : Int)
      (eventIds : List Int)
  | registerToHandleUrc (handler : H) (channelId : Nat) (slotId : Int)
      (urcs : List (List UInt8)) (needAllMatch : Bool)

/-- The tables after a call; none when an assertion fails. -/
def RegisterCall.perform [DecidableEq H] (tables : MsgTables H) :
    RegisterCall H → Option (MsgTables H)
  | registerToHandleRequest handler channelId slotId requestIds =>
      (registerInternalId handler channelId slotId requestIds (tables .request channelId)).map
        (tables.set .request channelId)
  | registerToHandleEvent handler channelId slotId eventIds =>
      (registerInternalId handler channelId slotId eventIds (tables .event channelId)).map
        (tables.set .event channelId)
  | registerToHandleClientEvent handler channelId slotId clientId eventIds =>
      (registerInternalClient handler channelId slotId clientId eventIds
        (tables .event channelId)).map (tables.set .event channelId)
  | registerToHandleUrc handler channelId slotId urcs needAllMatch =>
      (registerInternal handler channelId slotId needAllMatch urcs (tables .urc channelId)).map
        (tables.set .urc channelId)

/-- The tables after a sequence of calls. -/
def performCalls [DecidableEq H] : MsgTables H → List (RegisterCall H) → Option (MsgTables H)
  | tables, [] => some tables
  | tables, call :: calls => (call.perform tables).bind fun tables => performCalls tables calls

/-- The entries that a call registers, in turn. -/
def RegisterCall.registrations : RegisterCall H → List (Registration H)
  | registerToHandleRequest handler channelId slotId requestIds =>
      requestIds.map fun id => ⟨handler, channelId, slotId, .request id⟩
  | registerToHandleEvent handler channelId slotId eventIds =>
      eventIds.map fun id => ⟨handler, channelId, slotId, .event id⟩
  | registerToHandleClientEvent handler channelId slotId clientId eventIds =>
      eventIds.map fun id => ⟨handler, channelId, slotId, .clientEvent clientId id⟩
  | registerToHandleUrc handler channelId slotId urcs needAllMatch =>
      urcs.map fun text => ⟨handler, channelId, slotId, .urc text needAllMatch⟩

/-- A state: the tables, and for each list of each channel the handler that registered an
entry last. -/
structure Registered (H : Type u) where
  tables : MsgTables H
  registry : PerList (EntryKey → Option H)

/-- Nothing is registered. -/
def Registered.start : Registered H := ⟨fun _ _ => [], fun _ _ _ => none⟩

/-- Note who registers the entry. -/
def Registration.note (reg : Registration H) (registry : PerList (EntryKey → Option H)) :
    PerList (EntryKey → Option H) :=
  registry.set reg.list reg.channelId
    (Function.update (registry reg.list reg.channelId) reg.entry.key (some reg.handler))

/-- The machine that registers one entry a step, and stops when an assertion fails. -/
def registrar (H : Type u) [DecidableEq H] : Machine (Registered H) (Registration H) where
  init := Registered.start
  step s reg := (reg.register s.tables).map fun tables => ⟨tables, reg.note s.registry⟩

section Registrar

variable [DecidableEq H]

/-- The machine does what the loops do. -/
theorem run_map {ι : Type v} {handler : H} {l : MsgList} {channelId : Nat}
    (reg : ι → Registration H) (hhandler : ∀ i, (reg i).handler = handler)
    (hlist : ∀ i, (reg i).list = l) (hchannel : ∀ i, (reg i).channelId = channelId)
    (is : List ι) (s : Registered H) :
    ((registrar H).run s (is.map reg)).map Registered.tables =
      (registerLoop handler (fun i => (reg i).entry) (fun i => (reg i).dupHandler) is
        (s.tables l channelId)).map (s.tables.set l channelId) := by
  induction is generalizing s with
  | nil => simp [registerLoop]
  | cons i is ih =>
    have hadded : (reg i).added s.tables =
        SortedVector.add RfxHandlerRegisterEntry.lt (reg i).entry (s.tables l channelId) := by
      rw [Registration.added, hlist, hchannel]
    rw [List.map_cons, Machine.run_cons, registerLoop, ← hadded]
    show (((reg i).register s.tables).map _ |>.bind _).map _ = _
    rw [Registration.register, hlist, hchannel, hhandler]
    split_ifs
    · rfl
    · rw [Option.map_some, Option.bind_some, ih]
      dsimp only
      rw [PerList.set_self]
      exact Option.map_congr fun _ _ => PerList.set_set ..

/-- One call. -/
theorem run_registrations (call : RegisterCall H) (s : Registered H) :
    ((registrar H).run s call.registrations).map Registered.tables = call.perform s.tables := by
  cases call with
  | registerToHandleUrc handler channelId slotId urcs needAllMatch =>
    rw [RegisterCall.perform, registerInternal_eq_loop]
    exact run_map (fun text => ⟨handler, channelId, slotId, .urc text needAllMatch⟩)
      (fun _ => rfl) (fun _ => rfl) (fun _ => rfl) urcs s
  | registerToHandleRequest handler channelId slotId requestIds =>
    exact run_map (fun id => ⟨handler, channelId, slotId, .request id⟩)
      (fun _ => rfl) (fun _ => rfl) (fun _ => rfl) requestIds s
  | registerToHandleEvent handler channelId slotId eventIds =>
    exact run_map (fun id => ⟨handler, channelId, slotId, .event id⟩)
      (fun _ => rfl) (fun _ => rfl) (fun _ => rfl) eventIds s
  | registerToHandleClientEvent handler channelId slotId clientId eventIds =>
    exact run_map (fun id => ⟨handler, channelId, slotId, .clientEvent clientId id⟩)
      (fun _ => rfl) (fun _ => rfl) (fun _ => rfl) eventIds s

/-- The machine registers what a sequence of calls registers. -/
theorem run_calls (calls : List (RegisterCall H)) (s : Registered H) :
    ((registrar H).run s (calls.flatMap RegisterCall.registrations)).map Registered.tables =
      performCalls s.tables calls := by
  induction calls generalizing s with
  | nil => rfl
  | cons call calls ih =>
    rw [List.flatMap_cons, Machine.run_append, performCalls, ← run_registrations call s]
    cases (registrar H).run s call.registrations with
    | none => rfl
    | some s' => exact ih s'

end Registrar

/-! ## What the vectors hold -/

/-- A sorted vector holds one entry for each registered key, that of its handler. -/
structure Keeps (list : List (RfxHandlerRegisterEntry H)) (channelId : Int)
    (registry : EntryKey → Option H) : Prop where
  sorted : list.Pairwise RfxHandlerRegisterEntry.lt
  mem_iff : ∀ e, e ∈ list ↔
    e.channelId = channelId ∧ ∃ h, e.handler = some h ∧ registry e.key = some h

namespace Keeps

variable {list : List (RfxHandlerRegisterEntry H)} {channelId : Int}
  {registry : EntryKey → Option H}

theorem nil : Keeps ([] : List (RfxHandlerRegisterEntry H)) channelId fun _ => none := by
  refine ⟨.nil, fun e => ⟨fun h => absurd h List.not_mem_nil, ?_⟩⟩
  rintro ⟨-, h, -, hnone⟩
  cases hnone

/-- Adding an entry. -/
theorem add (hkeeps : Keeps list channelId registry) {e : RfxHandlerRegisterEntry H} {h : H}
    (hchannel : e.channelId = channelId) (hhandler : e.handler = some h) :
    Keeps (SortedVector.add RfxHandlerRegisterEntry.lt e list) channelId
      (Function.update registry e.key (some h)) := by
  refine ⟨SortedVector.add_pairwise hkeeps.sorted, fun z => ?_⟩
  rw [SortedVector.mem_add_iff hkeeps.sorted, RfxHandlerRegisterEntry.ne_key_iff,
    hkeeps.mem_iff]
  by_cases hkey : z.key = e.key
  · rw [hkey, Function.update_self]
    constructor
    · rintro (rfl | ⟨-, hne⟩)
      · exact ⟨hchannel, h, hhandler, rfl⟩
      · exact absurd rfl hne
    · rintro ⟨hz, h', hzh, heq⟩
      exact .inl (RfxHandlerRegisterEntry.eq_of_key hkey
        (hzh.trans (heq.symm.trans hhandler.symm)) (hz.trans hchannel.symm))
  · rw [Function.update_of_ne hkey]
    constructor
    · rintro (rfl | ⟨hz, -⟩)
      · exact absurd rfl hkey
      · exact hz
    · exact fun hz => .inr ⟨hz, Ne.symm hkey⟩

/-- The entry of a registered key. -/
theorem exists_of_registered (hkeeps : Keeps list channelId registry) {key : EntryKey} {h : H}
    (hkey : registry key = some h) :
    ∃ e ∈ list, e.key = key ∧ e.handler = some h ∧ e.channelId = channelId := by
  have he := (hkeeps.mem_iff
    ⟨some h, channelId, key.slotId, key.id, key.clientId, key.rawUrc, key.needAllMatch⟩).mpr
      ⟨rfl, h, rfl, hkey⟩
  exact ⟨_, he, rfl, rfl, rfl⟩

/-- A query without a text finds the handler of its key. -/
theorem find (hkeeps : Keeps list channelId registry)
    (queryChannelId slotId id clientId : Int) (needAllMatch : Bool) :
    findMsgHandlerInternal list queryChannelId slotId id clientId none needAllMatch =
      registry ⟨slotId, id, clientId, [], needAllMatch⟩ := by
  unfold findMsgHandlerInternal
  cases hreg : registry ⟨slotId, id, clientId, [], needAllMatch⟩ with
  | some h =>
    obtain ⟨e, he, hkey, hhandler, -⟩ := hkeeps.exists_of_registered hreg
    have hfound : SortedVector.lookup RfxHandlerRegisterEntry.lt
        ⟨none, queryChannelId, slotId, id, clientId, [], needAllMatch⟩ list = some e :=
      (SortedVector.lookup_eq_some_iff hkeeps.sorted).mpr
        ⟨he, RfxHandlerRegisterEntry.equal_iff.mpr hkey.symm⟩
    show Option.bind _ _ = _
    rw [hfound]
    exact hhandler
  | none =>
    cases hfind : SortedVector.lookup RfxHandlerRegisterEntry.lt
        (⟨none, queryChannelId, slotId, id, clientId, [], needAllMatch⟩ :
          RfxHandlerRegisterEntry H) list with
    | none => rfl
    | some e =>
      obtain ⟨he, hequal⟩ := (SortedVector.lookup_eq_some_iff hkeeps.sorted).mp hfind
      obtain ⟨-, h, -, hkey⟩ := (hkeeps.mem_iff e).mp he
      rw [← RfxHandlerRegisterEntry.equal_iff.mp hequal] at hkey
      cases hreg.symm.trans hkey

/-- The vector grows by an entry whose key is not registered. -/
theorem length_add_eq_iff (hkeeps : Keeps list channelId registry)
    {e : RfxHandlerRegisterEntry H} :
    (SortedVector.add RfxHandlerRegisterEntry.lt e list).length = list.length ↔
      registry e.key ≠ none := by
  rw [SortedVector.length_add_eq_iff hkeeps.sorted, Option.ne_none_iff_exists']
  constructor
  · rintro ⟨z, hz, hequal⟩
    obtain ⟨-, h, -, hkey⟩ := (hkeeps.mem_iff z).mp hz
    exact ⟨h, by rwa [RfxHandlerRegisterEntry.equal_iff.mp hequal]⟩
  · rintro ⟨h, hkey⟩
    obtain ⟨z, hz, hzkey, -⟩ := hkeeps.exists_of_registered hkey
    exact ⟨z, hz, RfxHandlerRegisterEntry.equal_iff.mpr hzkey.symm⟩

/-- The first entry that fits, once an entry has taken the place of one that is equal to it:
what fits depends on the text alone. -/
theorem find?_add (hkeeps : Keeps list channelId registry) {e : RfxHandlerRegisterEntry H}
    (hkey : registry e.key ≠ none) (fits : List UInt8 → Bool) :
    ((SortedVector.add RfxHandlerRegisterEntry.lt e list).find? fun z => fits z.rawUrc) =
      (list.find? fun z => fits z.rawUrc).map fun z => if z.key = e.key then e else z := by
  obtain ⟨h, hh⟩ := Option.ne_none_iff_exists'.mp hkey
  obtain ⟨z, hz, hzkey, -⟩ := hkeeps.exists_of_registered hh
  have hequal := RfxHandlerRegisterEntry.equal_iff.mpr hzkey.symm
  rw [SortedVector.add_eq_map hkeeps.sorted hz hequal.1 hequal.2, List.find?_map]
  have htext : ((fun z => fits z.rawUrc) ∘ fun z => if e.lt z ∨ z.lt e then z else e) =
      fun z : RfxHandlerRegisterEntry H => fits z.rawUrc := by
    funext w
    rw [Function.comp_apply]
    split_ifs with hne
    · rfl
    · have hwkey := RfxHandlerRegisterEntry.equal_iff.mp (not_or.mp hne)
      exact congrArg (fun key : EntryKey => fits key.rawUrc) hwkey
  rw [htext]
  refine Option.map_congr fun w _ => ?_
  by_cases hw : w.key = e.key
  · rw [if_pos hw, if_neg fun hne => RfxHandlerRegisterEntry.ne_key_iff.mp hne hw.symm]
  · rw [if_neg hw, if_pos (RfxHandlerRegisterEntry.ne_key_iff.mpr (Ne.symm hw))]

/-- A query with a text, once an entry has taken the place of one that is equal to it. -/
theorem find_text (hkeeps : Keeps list channelId registry) {e : RfxHandlerRegisterEntry H} {h : H}
    (hkey : registry e.key ≠ none) (hhandler : e.handler = some h)
    (queryChannelId slotId id clientId : Int) (text : List UInt8) (needAllMatch : Bool) :
    findMsgHandlerInternal (SortedVector.add RfxHandlerRegisterEntry.lt e list) queryChannelId
        slotId id clientId (some text) needAllMatch = some h ↔
      ∃ z, (list.find? fun item =>
          if needAllMatch then text = item.rawUrc else strStartsWith text item.rawUrc) = some z ∧
        (z.key = e.key ∨ z.handler = some h) := by
  have hfind := hkeeps.find?_add hkey fun raw =>
    if needAllMatch then text = raw else strStartsWith text raw
  show Option.bind (List.find? _ _) _ = _ ↔ _
  rw [hfind, Option.bind_eq_some_iff]
  constructor
  · rintro ⟨w, hw, hwhandler⟩
    obtain ⟨z, hz, rfl⟩ := Option.map_eq_some_iff.mp hw
    refine ⟨z, hz, ?_⟩
    split_ifs at hwhandler with hzkey
    · exact .inl hzkey
    · exact .inr hwhandler
  · rintro ⟨z, hz, hown⟩
    refine ⟨_, Option.map_eq_some_iff.mpr ⟨z, hz, rfl⟩, ?_⟩
    split_ifs with hzkey
    · exact hhandler
    · exact hown.resolve_left hzkey

end Keeps

/-! ## What the queries find -/

/-- The handler that registered the entry before. -/
def Registration.registeredBy (reg : Registration H) (s : Registered H) : Option H :=
  s.registry reg.list reg.channelId reg.entry.key

/-- A lookup returns the handler that registered the slot, the id and the client. -/
def LooksUp (s : Registered H) : Prop :=
  ∀ l channelId slotId id clientId,
    findMsgHandler (s.tables l channelId) channelId slotId id clientId none =
      s.registry l channelId ⟨slotId, id, clientId, [], false⟩

/-- The query of the overload, made before the entry is put in the place of the one that is equal
to it, finds that one or one of the handler that registers. -/
def QueryFindsOwn (s : Registered H) (reg : Registration H) : Prop :=
  match reg.item with
  | .request _ => True
  | .event _ => True
  | .clientEvent clientId id =>
      clientId = id ∨
        s.registry .event reg.channelId ⟨reg.slotId, clientId, id, [], false⟩ = some reg.handler
  | .urc text needAllMatch =>
      ∃ e, ((s.tables .urc reg.channelId).find? fun item =>
          if needAllMatch then text = item.rawUrc else strStartsWith text item.rawUrc) = some e ∧
        (e.key = reg.entry.key ∨ e.handler = some reg.handler)

/-- An entry that is registered again: its query finds an entry of the handler exactly when the
handler is the one that registered it. -/
def QueryFindsOwner (s : Registered H) (reg : Registration H) : Prop :=
  ∀ owner, reg.registeredBy s = some owner → (owner = reg.handler ↔ QueryFindsOwn s reg)

/-- The invariant of runs: every vector holds what is registered. -/
def RegistryInv (s : Registered H) : Prop :=
  ∀ l channelId, Keeps (s.tables l channelId) channelId (s.registry l channelId)

theorem RegistryInv.start : RegistryInv (Registered.start : Registered H) := fun _ _ => Keeps.nil

theorem RegistryInv.looksUp {s : Registered H} (hs : RegistryInv s) : LooksUp s :=
  fun l channelId slotId id clientId => (hs l channelId).find channelId slotId id clientId false

/-- The vector that the entry has been added to. -/
theorem RegistryInv.added {s : Registered H} (hs : RegistryInv s) (reg : Registration H) :
    Keeps (reg.added s.tables) reg.channelId
      (Function.update (s.registry reg.list reg.channelId) reg.entry.key (some reg.handler)) :=
  (hs reg.list reg.channelId).add reg.entry_channelId reg.entry_handler

/-- What the query finds. -/
theorem dupHandler_eq_iff {s : Registered H} {reg : Registration H} (hs : RegistryInv s)
    (hby : reg.registeredBy s ≠ none) :
    reg.dupHandler (reg.added s.tables) = some reg.handler ↔ QueryFindsOwn s reg := by
  have hadded := hs.added reg
  obtain ⟨handler, channelId, slotId, item⟩ := reg
  cases item with
  | request id =>
    exact iff_of_true ((hadded.find ..).trans (Function.update_self ..)) trivial
  | event id =>
    exact iff_of_true ((hadded.find ..).trans (Function.update_self ..)) trivial
  | clientEvent clientId id =>
    unfold Registration.dupHandler QueryFindsOwn
    dsimp only
    rw [hadded.find]
    by_cases hsame : clientId = id
    · subst hsame
      exact iff_of_true (Function.update_self ..) (.inl rfl)
    · rw [Function.update_of_ne fun hkey => hsame (congrArg EntryKey.id hkey)]
      exact (or_iff_right hsame).symm
  | urc text needAllMatch =>
    exact (hs .urc channelId).find_text hby rfl channelId slotId (-1) (-1) text needAllMatch

/-- The entry of the same handler is there already. -/
theorem RegistryInv.added_eq_self {s : Registered H} {reg : Registration H} (hs : RegistryInv s)
    (hby : reg.registeredBy s = some reg.handler) :
    reg.added s.tables = s.tables reg.list reg.channelId :=
  SortedVector.add_of_mem (hs reg.list reg.channelId).sorted
    (((hs reg.list reg.channelId).mem_iff reg.entry).mpr
      ⟨reg.entry_channelId, reg.handler, reg.entry_handler, hby⟩)

theorem RegistryInv.length_added_iff {s : Registered H} {reg : Registration H}
    (hs : RegistryInv s) :
    (reg.added s.tables).length = (s.tables reg.list reg.channelId).length ↔
      reg.registeredBy s ≠ none :=
  (hs reg.list reg.channelId).length_add_eq_iff

/-! ## What registering again does -/

section Again

variable [DecidableEq H]

/-- Registering an entry again changes nothing for the same handler, and fails an assertion for
another one. -/
def RespectsOwner (s : Registered H) (reg : Registration H) : Prop :=
  match reg.registeredBy s with
  | none => reg.register s.tables ≠ none
  | some owner =>
      if owner = reg.handler then
        reg.register s.tables = some s.tables
      else
        reg.register s.tables = none

theorem RegistryInv.step {s s' : Registered H} {reg : Registration H} (hs : RegistryInv s)
    (hstep : (registrar H).step s reg = some s') : RegistryInv s' := by
  obtain ⟨tables, hreg, rfl⟩ := Option.map_eq_some_iff.mp hstep
  unfold Registration.register at hreg
  split_ifs at hreg
  cases hreg
  intro l channelId
  dsimp only
  rw [Registration.note]
  by_cases h : l = reg.list ∧ channelId = reg.channelId
  · obtain ⟨rfl, rfl⟩ := h
    rw [PerList.set_self, PerList.set_self]
    exact hs.added reg
  · rw [PerList.set_of_ne _ _ h, PerList.set_of_ne _ _ h]
    exact hs l channelId

/-- A new entry is added. -/
theorem RegistryInv.register_new {s : Registered H} {reg : Registration H} (hs : RegistryInv s)
    (hby : reg.registeredBy s = none) : reg.register s.tables ≠ none := by
  rw [Registration.register, if_neg fun h => hs.length_added_iff.mp h.1 hby]
  exact Option.some_ne_none _

/-- The assertion fails when the query finds another handler. -/
theorem RegistryInv.register_again {s : Registered H} {reg : Registration H} (hs : RegistryInv s)
    (hby : reg.registeredBy s ≠ none) :
    reg.register s.tables = none ↔ ¬QueryFindsOwn s reg := by
  rw [← dupHandler_eq_iff hs hby, Registration.register, ite_eq_left_iff]
  constructor
  · intro h hfinds
    cases h fun hnot => hnot.2 hfinds
  · exact fun hfinds hnot => absurd ⟨hs.length_added_iff.mpr hby, hfinds⟩ hnot

/-- Otherwise the same handler leaves the tables as they are. -/
theorem RegistryInv.register_self {s : Registered H} {reg : Registration H} (hs : RegistryInv s)
    (hby : reg.registeredBy s = some reg.handler) :
    reg.register s.tables = some s.tables ↔ QueryFindsOwn s reg := by
  have hne : reg.registeredBy s ≠ none := by
    rw [hby]
    exact Option.some_ne_none _
  rw [← not_iff_not, ← hs.register_again hne, Registration.register, hs.added_eq_self hby,
    PerList.set_eq_self]
  split_ifs
  · exact iff_of_true nofun rfl
  · exact iff_of_false (not_not_intro rfl) nofun

/-- What registering again does, by what the query finds. -/
theorem respectsOwner_iff {s : Registered H} {reg : Registration H} (hs : RegistryInv s) :
    RespectsOwner s reg ↔ QueryFindsOwner s reg := by
  unfold RespectsOwner QueryFindsOwner
  cases hby : reg.registeredBy s with
  | none => exact iff_of_true (hs.register_new hby) fun owner howner => nomatch howner
  | some owner =>
    have hforall : (∀ o, some owner = some o → (o = reg.handler ↔ QueryFindsOwn s reg)) ↔
        (owner = reg.handler ↔ QueryFindsOwn s reg) :=
      ⟨fun h => h owner rfl, fun h o ho => Option.some.inj ho ▸ h⟩
    rw [hforall]
    show (if owner = reg.handler then _ else _) ↔ _
    split_ifs with hown
    · subst hown
      rw [hs.register_self hby]
      exact (iff_true_left rfl).symm
    · rw [hs.register_again (by rw [hby]; exact Option.some_ne_none _)]
      exact (iff_false_left hown).symm

/-- Lookups are right after any sequence of calls, and registering an entry again does what it
should at every entry whose query finds an entry of the handler exactly when the handler is the
one that registered the entry. -/
theorem registration_iff (calls : List (RegisterCall H)) :
    ((registrar H).Along LooksUp Registered.start (calls.flatMap RegisterCall.registrations) ∧
      (registrar H).Meets RespectsOwner Registered.start
        (calls.flatMap RegisterCall.registrations)) ↔
      (registrar H).Meets QueryFindsOwner Registered.start
        (calls.flatMap RegisterCall.registrations) := by
  have hstep : ∀ (s : Registered H) reg s', RegistryInv s → (registrar H).step s reg = some s' →
      RegistryInv s' := fun s reg s' hs hs' => hs.step hs'
  have hlookups := (registrar H).along_of_invariant hstep (fun s hs => hs.looksUp)
    RegistryInv.start (calls.flatMap RegisterCall.registrations)
  rw [and_iff_right hlookups]
  exact (registrar H).meets_congr hstep (fun s reg hs => respectsOwner_iff hs) RegistryInv.start _

/-- A second handler takes a request over, and no assertion fails. -/
theorem registration_taken_over :
    ¬((registrar Bool).Along LooksUp Registered.start
        ([.registerToHandleRequest false 0 0 [7], .registerToHandleRequest true 0 0 [7]].flatMap
          RegisterCall.registrations) ∧
      (registrar Bool).Meets RespectsOwner Registered.start
        ([.registerToHandleRequest false 0 0 [7], .registerToHandleRequest true 0 0 [7]].flatMap
          RegisterCall.registrations)) := by
  rintro ⟨-, -, hmeets⟩
  have htaken : RespectsOwner _ (⟨true, 0, 0, .request 7⟩ : Registration Bool) :=
    (hmeets _ rfl).1
  cases htaken

end Again

end MtkHw.Rfx
