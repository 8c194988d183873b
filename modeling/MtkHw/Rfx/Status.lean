import MtkHw.Lib.Machine
import MtkHw.Rfx.Variant

/-!
# The status tables: `RfxStatusManager` and `RfxMclStatusManager`

The telephony core and the modem communication layer each keep a table of status
values.  A module that sets a value changes the table of its own side, and a
`STATUS_SYNC` message carries the value to the other side, where it overwrites what
is there and is not sent back.  Messages carry no version.

The model has the two tables and one queue for each direction; a `setValue` call
and the delivery of a message are one step each.  A key stands for a status key of
a slot.  The callbacks that `setValue` posts run later, and whatever they set is a
call of its own.

Two calls that cross, each made while the message of the other is in flight, leave
the values swapped.  `status_settles` says exactly what the two sides end with.
-/

namespace MtkHw.Rfx

open Lib RfxVariant

universe u

variable {K : Type u} [DecidableEq K]

/-! ## Setting a value -/

/-- The arguments of `setValueInternal`. -/
structure StatusCall (K : Type u) where
  key : K
  value : RfxVariant
  forceNotify : Bool
  isDefault : Bool
  isStatusSync : Bool
  updateForMock : Bool

/-- A `STATUS_SYNC` message. -/
structure StatusSync (K : Type u) where
  key : K
  value : RfxVariant
  forceNotify : Bool
  isDefault : Bool
  isUpdateForMock : Bool
deriving DecidableEq, Repr

/-- `m_status_list`: a null entry has not been set. -/
abbrev StatusList (K : Type u) := K → Option RfxVariant

/-- What a call leaves and sends. -/
structure SetResult (K : Type u) where
  list : StatusList K
  /-- The message to the other side. -/
  sync : Option (StatusSync K)
  /-- What is posted to the callbacks: the key, the old and the new value. -/
  emitted : Option (K × RfxVariant × RfxVariant)
  /-- What is passed on in mock mode. -/
  toGT : Option (K × RfxVariant)

/-- The entry after a call: a value that compares equal does not replace it. -/
def updateEntry (entry : Option RfxVariant) (value : RfxVariant) : RfxVariant :=
  match entry with
  | none => value
  | some old => if old.isEqualWith value then old else value

/-- `obtainStatusSync`, for a call that is not itself a sync. -/
def StatusCall.sync (call : StatusCall K) : Option (StatusSync K) :=
  if call.isStatusSync then none
  else some ⟨call.key, call.value, call.forceNotify, call.isDefault, false⟩

/-- `RfxStatusManager::setValueInternal`; `mock` is the run mode. -/
def RfxStatusManager.setValueInternal (mock : Bool) (list : StatusList K) (call : StatusCall K) :
    SetResult K where
  list := Function.update list call.key (some (updateEntry (list call.key) call.value))
  sync := call.sync
  emitted :=
    match list call.key with
    | none => none
    | some old =>
        let isDif := !old.isEqualWith call.value
        let notify := (isDif && !call.isDefault) || call.forceNotify
        let notify := notify && !(mock && call.updateForMock)
        let old := if isDif && old == .null then call.value else old
        if notify then some (call.key, old, call.value) else none
  toGT := if mock then some (call.key, call.value) else none

/-- `RfxMclStatusManager::setValueInternal`: nothing is posted on this side. -/
def RfxMclStatusManager.setValueInternal (list : StatusList K) (call : StatusCall K) :
    SetResult K where
  list := Function.update list call.key (some (updateEntry (list call.key) call.value))
  sync := call.sync
  emitted := none
  toGT := none

/-- `getValue` -/
def getValue (getDefaultValue : K → RfxVariant) (list : StatusList K) (key : K) : RfxVariant :=
  match list key with
  | none => getDefaultValue key
  | some value => value.getD (getDefaultValue key)

/-! ## The two sides -/

/-- The side of a status manager. -/
inductive Side where
  | /-- The telephony core. -/ telCore
  | /-- The modem communication layer. -/ mdComm
deriving DecidableEq, Repr

def Side.other : Side → Side
  | .telCore => .mdComm
  | .mdComm => .telCore

theorem Side.other_ne (side : Side) : side.other ≠ side := by cases side <;> simp [other]

theorem Side.eq_or_eq_other (side side' : Side) : side' = side ∨ side' = side.other := by
  cases side <;> cases side' <;> simp [other]

/-- `setValueInternal` on a side. -/
def setValueInternal (mock : Bool) : Side → StatusList K → StatusCall K → SetResult K
  | .telCore => RfxStatusManager.setValueInternal mock
  | .mdComm => RfxMclStatusManager.setValueInternal

/-- The tables and the messages in flight. -/
structure StatusState (K : Type u) where
  list : Side → StatusList K
  /-- The messages on their way to a side, oldest first. -/
  inFlight : Side → List (StatusSync K)
  /-- History: for each key the value of the last `setValue`, and the youngest value
  that was then on its way to the side of the caller. -/
  last : K → Option (RfxVariant × Option RfxVariant)

/-- A step of the system. -/
inductive StatusAct (K : Type u) where
  | /-- A module calls `setValue`. -/
    setValue (side : Side) (key : K) (value : RfxVariant) (forceNotify isDefault : Bool)
  | /-- The oldest message to a side is delivered. -/ deliver (side : Side)
deriving Repr

namespace StatusState

/-- The values for a key on their way to a side, oldest first. -/
def coming (s : StatusState K) (side : Side) (key : K) : List RfxVariant :=
  (s.inFlight side).filterMap fun sync => if sync.key = key then some sync.value else none

def step (mock : Bool) (s : StatusState K) : StatusAct K → Option (StatusState K)
  | .setValue side key value forceNotify isDefault =>
      let result := setValueInternal mock side (s.list side)
        ⟨key, value, forceNotify, isDefault, false, false⟩
      some
        { list := Function.update s.list side result.list
          inFlight := Function.update s.inFlight side.other
            (s.inFlight side.other ++ result.sync.toList)
          last := Function.update s.last key (some (value, (s.coming side key).getLast?)) }
  | .deliver side =>
      match s.inFlight side with
      | [] => none
      | sync :: rest =>
          let result := setValueInternal mock side (s.list side)
            ⟨sync.key, sync.value, sync.forceNotify, sync.isDefault, true, sync.isUpdateForMock⟩
          some
            { s with
              list := Function.update s.list side result.list
              inFlight := Function.update s.inFlight side rest }

/-- Nothing has been set; the telephony core has entries with the default for the
keys that callbacks are registered for. -/
def init (getDefaultValue : K → RfxVariant) (registered : K → Bool) : StatusState K where
  list
    | .telCore => fun key => if registered key then some (getDefaultValue key) else none
    | .mdComm => fun _ => none
  inFlight _ := []
  last _ := none

end StatusState

/-- The two status managers. -/
def statusMachine (getDefaultValue : K → RfxVariant) (registered : K → Bool) (mock : Bool) :
    Machine (StatusState K) (StatusAct K) :=
  ⟨StatusState.init getDefaultValue registered, StatusState.step mock⟩

/-! ## What the two sides end with -/

namespace StatusState

/-- No message for the key is in flight. -/
def Settled (s : StatusState K) (key : K) : Prop := ∀ side, s.coming side key = []

/-- Both managers hold the same value for the key. -/
def Agree (getDefaultValue : K → RfxVariant) (s : StatusState K) (key : K) : Prop :=
  Same (getValue getDefaultValue (s.list .telCore) key)
    (getValue getDefaultValue (s.list .mdComm) key)

/-- When the last `setValue` for the key was called, no other value was the youngest
on its way to the caller's side. -/
def Uncrossed (getDefaultValue : K → RfxVariant) (s : StatusState K) (key : K) : Prop :=
  ∀ value crossing, s.last key = some (value, some crossing) →
    Same (value.getD (getDefaultValue key)) (crossing.getD (getDefaultValue key))

end StatusState

/-- What is read on a side once everything on its way there has been delivered. -/
def StatusState.prospect (getDefaultValue : K → RfxVariant) (s : StatusState K) (side : Side)
    (key : K) : RfxVariant :=
  match (s.coming side key).getLast? with
  | none => getValue getDefaultValue (s.list side) key
  | some value => value.getD (getDefaultValue key)

/-- The sides are bound to end with what the last call says. -/
def StatusState.Bound (getDefaultValue : K → RfxVariant) (s : StatusState K) (key : K) : Prop :=
  match s.last key with
  | none => ∀ side, Same (s.prospect getDefaultValue side key) (getDefaultValue key)
  | some (value, crossing) => ∃ side,
      Same (s.prospect getDefaultValue side.other key) (value.getD (getDefaultValue key)) ∧
      Same (s.prospect getDefaultValue side key)
        ((crossing.getD value).getD (getDefaultValue key))

/-! ### One call -/

theorem same_updateEntry (entry : Option RfxVariant) (value : RfxVariant) :
    Same (updateEntry entry value) value := by
  cases entry with
  | none => exact .refl value
  | some old =>
    rw [updateEntry]
    split
    · rename_i heq
      exact .inr heq
    · exact .refl value

/-- Both managers change the table alike. -/
theorem list_setValueInternal (mock : Bool) (side : Side) (list : StatusList K)
    (call : StatusCall K) : (setValueInternal mock side list call).list =
      Function.update list call.key (some (updateEntry (list call.key) call.value)) := by
  cases side <;> rfl

theorem sync_setValueInternal (mock : Bool) (side : Side) (list : StatusList K)
    (call : StatusCall K) : (setValueInternal mock side list call).sync = call.sync := by
  cases side <;> rfl

/-- A call is seen by `getValue`. -/
theorem getValue_setValueInternal_self (getDefaultValue : K → RfxVariant) (mock : Bool)
    (side : Side) (list : StatusList K) (call : StatusCall K) :
    Same (getValue getDefaultValue (setValueInternal mock side list call).list call.key)
      (call.value.getD (getDefaultValue call.key)) := by
  simp only [getValue, list_setValueInternal, Function.update_self]
  exact (same_updateEntry _ _).getD _

theorem getValue_setValueInternal_of_ne (getDefaultValue : K → RfxVariant) (mock : Bool)
    (side : Side) (list : StatusList K) (call : StatusCall K) {key : K} (hkey : key ≠ call.key) :
    getValue getDefaultValue (setValueInternal mock side list call).list key =
      getValue getDefaultValue list key := by
  simp only [getValue, list_setValueInternal, Function.update_of_ne hkey]

/-! ### One step -/

section Step

variable {getDefaultValue : K → RfxVariant} {mock : Bool} {s s' : StatusState K}

/-- `setValue` puts its value behind what is on its way to the other side. -/
theorem coming_setValue_other {side : Side} {key : K} {value : RfxVariant} {force isDefault : Bool}
    (hstep : s.step mock (.setValue side key value force isDefault) = some s') (key' : K) :
    s'.coming side.other key' = s.coming side.other key' ++ if key = key' then [value] else [] := by
  cases hstep
  simp only [StatusState.coming, Function.update_self, sync_setValueInternal, StatusCall.sync,
    Bool.false_eq_true, if_false, Option.toList_some, List.filterMap_append]
  congr 1
  by_cases hkey : key = key'
  · simp [hkey]
  · simp [hkey]

/-- `setValue` leaves alone what is on its way to its own side. -/
theorem coming_setValue_self {side : Side} {key : K} {value : RfxVariant} {force isDefault : Bool}
    (hstep : s.step mock (.setValue side key value force isDefault) = some s') (key' : K) :
    s'.coming side key' = s.coming side key' := by
  cases hstep
  simp only [StatusState.coming, Function.update_of_ne side.other_ne.symm]

theorem prospect_setValue_other {side : Side} {key : K} {value : RfxVariant}
    {force isDefault : Bool}
    (hstep : s.step mock (.setValue side key value force isDefault) = some s') :
    s'.prospect getDefaultValue side.other key = value.getD (getDefaultValue key) := by
  rw [StatusState.prospect, coming_setValue_other hstep, if_pos rfl, List.getLast?_append]
  rfl

theorem prospect_setValue_self {side : Side} {key : K} {value : RfxVariant}
    {force isDefault : Bool}
    (hstep : s.step mock (.setValue side key value force isDefault) = some s') :
    Same (s'.prospect getDefaultValue side key)
      (((s.coming side key).getLast?.getD value).getD (getDefaultValue key)) := by
  rw [StatusState.prospect, coming_setValue_self hstep]
  cases (s.coming side key).getLast? with
  | some w => exact .refl _
  | none =>
    cases hstep
    simp only [Function.update_self, Option.getD_none]
    exact getValue_setValueInternal_self _ _ _ _ _

/-- A call for a key leaves the other keys alone. -/
theorem prospect_setValue_of_ne {side : Side} {key key' : K} {value : RfxVariant}
    {force isDefault : Bool} (hkey : key' ≠ key)
    (hstep : s.step mock (.setValue side key value force isDefault) = some s') (side' : Side) :
    s'.prospect getDefaultValue side' key' = s.prospect getDefaultValue side' key' := by
  have hcoming : s'.coming side' key' = s.coming side' key' := by
    rcases side.eq_or_eq_other side' with rfl | rfl
    · exact coming_setValue_self hstep key'
    · rw [coming_setValue_other hstep, if_neg hkey.symm, List.append_nil]
  have hvalue : getValue getDefaultValue (s'.list side') key' =
      getValue getDefaultValue (s.list side') key' := by
    cases hstep
    rcases side.eq_or_eq_other side' with rfl | rfl
    · simp only [Function.update_self]
      exact getValue_setValueInternal_of_ne _ _ _ _ _ hkey
    · simp only [Function.update_of_ne side.other_ne]
  rw [StatusState.prospect, StatusState.prospect, hcoming, hvalue]

/-- A delivery takes the oldest value, if it is one for the key. -/
theorem coming_deliver {side : Side} {sync : StatusSync K} {rest : List (StatusSync K)}
    (hflight : s.inFlight side = sync :: rest) (hstep : s.step mock (.deliver side) = some s')
    (key : K) :
    s.coming side key = (if sync.key = key then [sync.value] else []) ++ s'.coming side key := by
  simp only [StatusState.step, hflight] at hstep
  cases hstep
  simp only [StatusState.coming, hflight, Function.update_self]
  by_cases hkey : sync.key = key
  · simp [hkey]
  · simp [hkey]

/-- A delivery changes nothing in the end. -/
theorem prospect_deliver {side : Side} (hstep : s.step mock (.deliver side) = some s')
    (side' : Side) (key : K) :
    Same (s'.prospect getDefaultValue side' key) (s.prospect getDefaultValue side' key) := by
  cases hflight : s.inFlight side with
  | nil =>
    simp only [StatusState.step, hflight] at hstep
    cases hstep
  | cons sync rest =>
    have hcoming := coming_deliver hflight hstep key
    simp only [StatusState.step, hflight] at hstep
    cases hstep
    rcases side.eq_or_eq_other side' with rfl | rfl
    · rw [StatusState.prospect, StatusState.prospect, hcoming]
      by_cases hkey : sync.key = key
      · subst hkey
        rw [if_pos rfl, List.getLast?_append]
        cases StatusState.coming _ side' sync.key |>.getLast? with
        | some w => exact .refl _
        | none =>
          simp only [Function.update_self]
          exact getValue_setValueInternal_self _ _ _ _ _
      · rw [if_neg hkey, List.nil_append]
        cases StatusState.coming _ side' key |>.getLast? with
        | some w => exact .refl _
        | none =>
          simp only [Function.update_self]
          rw [getValue_setValueInternal_of_ne _ _ _ _ _ (Ne.symm hkey)]
          exact .refl _
    · simp only [StatusState.prospect, StatusState.coming, Function.update_of_ne side.other_ne]
      exact .refl _

/-- Every step keeps what the sides are bound to end with. -/
theorem bound_step {a : StatusAct K} (h : ∀ key, s.Bound getDefaultValue key)
    (hstep : s.step mock a = some s') (key : K) : s'.Bound getDefaultValue key := by
  cases a with
  | setValue side key' value force isDefault =>
    have hlast : s'.last =
        Function.update s.last key' (some (value, (s.coming side key').getLast?)) := by
      cases hstep
      rfl
    by_cases hkey : key = key'
    · subst hkey
      rw [StatusState.Bound, hlast, Function.update_self]
      refine ⟨side, ?_, prospect_setValue_self hstep⟩
      rw [prospect_setValue_other hstep]
      exact .refl _
    · have hbound := h key
      simp only [StatusState.Bound, hlast, Function.update_of_ne hkey,
        prospect_setValue_of_ne hkey hstep] at hbound ⊢
      exact hbound
  | deliver side =>
    have hsame : ∀ side', Same (s'.prospect getDefaultValue side' key)
        (s.prospect getDefaultValue side' key) := fun side' => prospect_deliver hstep side' key
    have hlast : s'.last = s.last := by
      simp only [StatusState.step] at hstep
      split at hstep
      · cases hstep
      · cases hstep
        rfl
    have hbound := h key
    rw [StatusState.Bound, hlast]
    rw [StatusState.Bound] at hbound
    cases hcall : s.last key with
    | none =>
      rw [hcall] at hbound
      exact fun side' => (hsame side').trans (hbound side')
    | some call =>
      rw [hcall] at hbound
      obtain ⟨caller, hother, hself⟩ := hbound
      exact ⟨caller, (hsame _).trans hother, (hsame _).trans hself⟩

end Step

/-! ### Whole runs -/

theorem bound_init (getDefaultValue : K → RfxVariant) (registered : K → Bool) (key : K) :
    (StatusState.init getDefaultValue registered).Bound getDefaultValue key := by
  intro side
  cases side with
  | telCore =>
    by_cases hkey : registered key
    · simp [StatusState.prospect, StatusState.coming, StatusState.init, getValue, hkey, getD_self,
        Same.refl]
    · simp [StatusState.prospect, StatusState.coming, StatusState.init, getValue, hkey, Same.refl]
  | mdComm => exact .refl _

omit [DecidableEq K] in
/-- The sides may be taken in either order. -/
theorem agree_iff {getDefaultValue : K → RfxVariant} {s : StatusState K} {key : K} (side : Side) :
    s.Agree getDefaultValue key ↔ Same (getValue getDefaultValue (s.list side.other) key)
      (getValue getDefaultValue (s.list side) key) := by
  cases side with
  | telCore => exact ⟨Same.symm, Same.symm⟩
  | mdComm => rfl

/-- Once nothing is in flight the sides have ended. -/
theorem agree_iff_uncrossed {getDefaultValue : K → RfxVariant} {s : StatusState K} {key : K}
    (hbound : s.Bound getDefaultValue key) (hsettled : s.Settled key) :
    s.Agree getDefaultValue key ↔ s.Uncrossed getDefaultValue key := by
  have hprospect : ∀ side, s.prospect getDefaultValue side key =
      getValue getDefaultValue (s.list side) key := by
    intro side
    rw [StatusState.prospect, hsettled side]
    rfl
  simp only [StatusState.Bound, hprospect] at hbound
  cases hlast : s.last key with
  | none =>
    rw [hlast] at hbound
    constructor
    · intro _ value crossing hcall
      rw [hlast] at hcall
      cases hcall
    · intro _
      exact (hbound .telCore).trans (hbound .mdComm).symm
  | some call =>
    obtain ⟨value, crossing⟩ := call
    rw [hlast] at hbound
    obtain ⟨side, hother, hself⟩ := hbound
    rw [agree_iff side, Same.congr hother hself]
    constructor
    · intro hsame value' crossing' hcall
      rw [hlast] at hcall
      cases hcall
      exact hsame
    · intro huncrossed
      cases crossing with
      | none => exact .refl _
      | some crossing => exact huncrossed value crossing hlast

/-- **When the status tables converge.**  In every state of every run, when no
message for a key is in flight, both managers hold the same value for it if and
only if the last `setValue` for the key did not cross another value: either none was
on its way to the caller's side, or the youngest was the same value. -/
theorem status_settles (getDefaultValue : K → RfxVariant) (registered : K → Bool) (mock : Bool)
    (acts : List (StatusAct K)) :
    (statusMachine getDefaultValue registered mock).Along
      (fun s => ∀ key, s.Settled key →
        (s.Agree getDefaultValue key ↔ s.Uncrossed getDefaultValue key))
      (statusMachine getDefaultValue registered mock).init acts := by
  have hstep : ∀ s a s', (∀ key, s.Bound getDefaultValue key) →
      (statusMachine getDefaultValue registered mock).step s a = some s' →
      ∀ key, s'.Bound getDefaultValue key :=
    fun _ _ _ hbound hstep key => bound_step hbound hstep key
  exact Machine.along_of_invariant _ hstep
    (fun _ hbound key hsettled => agree_iff_uncrossed (hbound key) hsettled)
    (bound_init getDefaultValue registered) acts

/-- Two calls that cross leave the values swapped. -/
theorem status_swapped :
    let M := statusMachine (fun _ : Unit => .int 0) (fun _ => false) false
    let acts : List (StatusAct Unit) :=
      [.setValue .telCore () (.int 1) false false, .setValue .mdComm () (.int 2) false false,
        .deliver .telCore, .deliver .mdComm]
    ∃ s, M.run M.init acts = some s ∧ s.inFlight = (fun _ => []) ∧
      getValue (fun _ => .int 0) (s.list .telCore) () = .int 2 ∧
      getValue (fun _ => .int 0) (s.list .mdComm) () = .int 1 ∧
      ¬ s.Agree (fun _ => .int 0) () := by
  refine ⟨_, rfl, ?_, by decide, by decide, ?_⟩
  · funext side
    cases side <;> rfl
  · rintro (heq | heq)
    · cases heq
    · cases heq

end MtkHw.Rfx
