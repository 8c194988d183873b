import MtkHw.Mux.Command
import Mathlib.Data.FinEnum

/-!
# Where `handle_command` reads and writes

`handleCommand` says what a command comes to.  Here the function is taken access by access: every
octet of the information field that it looks at, and every octet of the response that it stores,
goes through a check of its index.  The two loops that look for the end of a field step over it one
octet at a time, and the copy of the type field into the response reads by index.

The two agree (`handleCommandAccess_eq`): what `handleCommand` leaves open is exactly a command
whose accesses leave the frame.  `handleCommandAccess_ok_iff` says which these are.
-/

namespace MtkHw.Mux

/-- An access outside the memory it is meant for. -/
inductive BadAccess where
  | /-- Of `frame->data`, at an index. -/ read (i : Nat)
  | /-- Of the response, at an index. -/ write (i : Nat)
  | /-- A loop did not come to its end. -/ running
deriving DecidableEq, Repr

/-- `frame->data[i]` -/
def readData (data : List UInt8) (i : Nat) : Except BadAccess UInt8 :=
  match data[i]? with
  | some b => .ok b
  | none => .error (.read i)

/-- `response[i] = b` -/
def writeResponse (response : List UInt8) (i : Nat) (b : UInt8) : Except BadAccess (List UInt8) :=
  if i < response.length then .ok (response.set i b) else .error (.write i)

/-- The loop over a field, from `i` on: where it stops.  Every turn moves on, so fuel for the rest
of the frame is never short. -/
def fieldLoop (data : List UInt8) : Nat → Nat → Except BadAccess Nat
  | 0, _ => .error .running
  | fuel + 1, i =>
      if data.length > i then do
        let b ← readData data i
        if b &&& gsm0710Ea = 0 then fieldLoop data fuel (i + 1) else return i
      else return i

/-- `while (type_length--)`: the copy of the type field into the response, from index `i` on. -/
def copyType (data : List UInt8) : Nat → Nat → List UInt8 → Except BadAccess (List UInt8)
  | 0, _, response => .ok response
  | typeLength + 1, i, response => do
      let b ← readData data (i - 2)
      let response ← writeResponse response i b
      copyType data typeLength (i + 1) response

/-- The `MSC` command, access by access. -/
def handleMscAccess (st : CommandState) (data : List UInt8) (i : Nat) :
    Except BadAccess (CommandState × Option PtyAction) :=
  if i + 1 < data.length then do
    let dlci ← readData data i
    let id := (gsm0710DecodeAddress dlci).toNat
    let signals ← readData data (i + 1)
    if !st.opened id then return (st, none)
    if signals &&& gsm0710SignalFc = gsm0710SignalFc then
      if st.txFcOff id then return (st, none)
      else return ({ st with txFcOff := Function.update st.txFcOff id true }, some (.choke id))
    else if st.txFcOff id then
      return ({ st with txFcOff := Function.update st.txFcOff id false }, some (.release id))
    else return (st, none)
  else return (st, none)

/-- The response to a command that is not known: the memory is allocated for the whole type field,
the octets copied are counted modulo 128. -/
def nscResponseAccess (data : List UInt8) (typeLength : Nat) : Except BadAccess (List UInt8) := do
  let response := List.replicate (2 + typeLength) 0
  let response ← writeResponse response 0 gsm0710ControlNsc
  let typeLength := typeLength &&& 127
  let response ← writeResponse response 1 (gsm0710Ea ||| UInt8.ofNat (typeLength <<< 1))
  let response ← copyType data typeLength 2 response
  return response.take (2 + typeLength)

/-- `handle_command`, access by access. -/
def handleCommandAccess (st : CommandState) (data : List UInt8) : Except BadAccess CommandResult :=
  if data.length > 0 then do
    let type ← readData data 0
    let i ← fieldLoop data (data.length + 1) 0
    let typeLength := i + 1
    if type &&& gsm0710Cr = gsm0710Cr then
      let i ← fieldLoop data (data.length + 1) typeLength
      let i := i + 1
      let command := type &&& ~~~gsm0710Cr
      let ack := CommandReply.ack (data.set 0 command)
      if command = gsm0710ControlCld then return ⟨{ st with peerClosing := true }, ack, none⟩
      else if command = gsm0710ControlPsc ∨ command = gsm0710ControlTest ∨
          command = gsm0710ControlPn then
        return ⟨st, ack, none⟩
      else if command = gsm0710ControlMsc then
        let (st, action) ← handleMscAccess st data i
        return ⟨st, ack, action⟩
      else
        let response ← nscResponseAccess data typeLength
        return ⟨st, .nsc response, none⟩
    else return ⟨st, .nothing, none⟩
  else return ⟨st, .nothing, none⟩

/-! ## The accesses that stay inside -/

theorem readData_of_lt {data : List UInt8} {i : Nat} (h : i < data.length) :
    readData data i = .ok data[i] := by
  rw [readData, List.getElem?_eq_getElem h]

theorem readData_length (data : List UInt8) : readData data data.length = .error (.read data.length) := by
  rw [readData, List.getElem?_eq_none (Nat.le_refl _)]

/-- The loops over a field stop one octet before the place that `skipField` gives, and look at no
octet behind the frame. -/
theorem fieldLoop_eq (data : List UInt8) (fuel : Nat) :
    ∀ i, data.length - i < fuel →
      fieldLoop data fuel i =
        .ok (i + ((data.drop i).takeWhile fun b => b &&& gsm0710Ea = 0).length) := by
  induction fuel with
  | zero =>
    intro i h
    exact absurd h (Nat.not_lt_zero _)
  | succ fuel ih =>
    intro i h
    rw [fieldLoop]
    by_cases hi : data.length > i
    · rw [if_pos hi, readData_of_lt hi, List.drop_eq_getElem_cons hi, List.takeWhile_cons]
      change (if data[i] &&& gsm0710Ea = 0 then fieldLoop data fuel (i + 1) else .ok i) = _
      by_cases hea : data[i] &&& gsm0710Ea = 0
      · rw [if_pos hea, ih (i + 1) (by omega), if_pos (decide_eq_true hea), List.length_cons]
        congr 1
        omega
      · rw [if_neg hea, if_neg (by simpa using hea)]
        rfl
    · rw [if_neg hi, List.drop_eq_nil_of_le (by omega)]
      rfl

/-- The `MSC` command reads inside the frame. -/
theorem handleMscAccess_eq (st : CommandState) (data : List UInt8) (i : Nat) :
    (handleMscAccess st data i).toOption = handleMsc st data i := by
  unfold handleMscAccess handleMsc
  by_cases hi : i + 1 < data.length
  · have hi' : i < data.length := by omega
    rw [if_pos hi, if_pos hi, readData_of_lt hi, readData_of_lt hi', List.getElem?_eq_getElem hi,
      List.getElem?_eq_getElem hi']
    simp only [bind, Except.bind, Option.bind_some, pure]
    split_ifs <;> rfl
  · rw [if_neg hi, if_neg hi]
    rfl

/-! ## The response -/

/-- The octets of the type field that are copied are the first ones of the frame, as long as it has
that many; else the first octet behind the frame is read. -/
theorem copyType_eq (data : List UInt8) (n : Nat) :
    ∀ (i : Nat) (response : List UInt8), 2 ≤ i → i - 2 ≤ data.length → i + n ≤ response.length →
      copyType data n i response =
        if i - 2 + n ≤ data.length then
          .ok (response.take i ++ ((data.drop (i - 2)).take n ++ response.drop (i + n)))
        else .error (.read data.length) := by
  induction n with
  | zero =>
    intro i response _ hi _
    rw [copyType, Nat.add_zero, Nat.add_zero, if_pos hi, List.take_zero, List.nil_append,
      List.take_append_drop]
  | succ n ih =>
    intro i response htwo hi hfit
    rw [copyType]
    by_cases hlt : i - 2 < data.length
    · have hwrite : writeResponse response i data[i - 2] = .ok (response.set i data[i - 2]) :=
        if_pos (by omega)
      have hset : i + 1 + n ≤ (response.set i data[i - 2]).length := by
        rw [List.length_set]
        omega
      have hnext := ih (i + 1) (response.set i data[i - 2]) (by omega) (by omega) hset
      rw [show i + 1 - 2 = i - 2 + 1 by omega] at hnext
      rw [readData_of_lt hlt]
      change (writeResponse response i data[i - 2]).bind (copyType data n (i + 1)) = _
      rw [hwrite]
      change copyType data n (i + 1) (response.set i data[i - 2]) = _
      rw [hnext, List.drop_eq_getElem_cons hlt, List.take_succ_cons,
        show i - 2 + 1 + n = i - 2 + (n + 1) by omega]
      have htake : (response.set i data[i - 2]).take (i + 1) = response.take i ++ [data[i - 2]] := by
        rw [List.take_add_one, List.take_set_of_le (Nat.le_refl i),
          List.getElem?_set_self (by omega)]
        rfl
      have hdrop : (response.set i data[i - 2]).drop (i + 1 + n) = response.drop (i + (n + 1)) := by
        rw [List.drop_set_of_lt (by omega)]
        congr 1
        omega
      rw [htake, hdrop, List.append_assoc]
      rfl
    · have hend : i - 2 = data.length := by omega
      rw [hend, readData_length, if_neg (by omega)]
      rfl

theorem mapM_getElem? (data : List UInt8) (n : Nat) :
    (List.range n).mapM (fun i => data[i]?) = if n ≤ data.length then some (data.take n) else none := by
  induction n with
  | zero => rfl
  | succ n ih =>
    rw [List.range_succ, List.mapM_append, ih, List.mapM_cons, List.mapM_nil]
    by_cases hn : n < data.length
    · rw [if_pos (Nat.le_of_lt hn), if_pos (show n + 1 ≤ data.length from hn), List.take_add_one,
        List.getElem?_eq_getElem hn]
      rfl
    · rw [if_neg (show ¬ n + 1 ≤ data.length from hn), List.getElem?_eq_none (Nat.le_of_not_lt hn)]
      split <;> rfl

/-- The response fits in its memory, and is built if the frame has the octets of the type field. -/
theorem nscResponseAccess_eq (data : List UInt8) (typeLength : Nat) :
    nscResponseAccess data typeLength =
      if typeLength &&& 127 ≤ data.length then
        .ok (gsm0710ControlNsc :: (gsm0710Ea ||| UInt8.ofNat ((typeLength &&& 127) <<< 1)) ::
          data.take (typeLength &&& 127))
      else .error (.read data.length) := by
  have hle : typeLength &&& 127 ≤ typeLength := Nat.and_le_left
  generalize hn : typeLength &&& 127 = n at hle
  obtain ⟨rest, rfl⟩ := Nat.exists_eq_add_of_le hle
  have hcopy := copyType_eq data n 2 (gsm0710ControlNsc :: (gsm0710Ea ||| UInt8.ofNat (n <<< 1)) ::
    List.replicate (n + rest) 0) (Nat.le_refl 2) (Nat.zero_le _) (by simp; omega)
  have halloc : List.replicate (2 + (n + rest)) (0 : UInt8) =
      0 :: 0 :: List.replicate (n + rest) 0 := by
    rw [Nat.add_comm 2]
    rfl
  unfold nscResponseAccess
  dsimp only
  rw [hn, halloc]
  change (copyType data n 2 (gsm0710ControlNsc :: (gsm0710Ea ||| UInt8.ofNat (n <<< 1)) ::
    List.replicate (n + rest) 0)).bind (fun response => .ok (response.take (2 + n))) = _
  rw [hcopy, Nat.sub_self, Nat.zero_add, List.drop_zero]
  split
  · rename_i hdata
    have hlen : (data.take n).length = n := by rw [List.length_take, Nat.min_eq_left hdata]
    change Except.ok ((gsm0710ControlNsc :: (gsm0710Ea ||| UInt8.ofNat (n <<< 1)) ::
      (data.take n ++ _)).take (2 + n)) = _
    rw [Nat.add_comm 2, List.take_succ_cons, List.take_succ_cons, List.take_left' hlen]
  · rfl

/-- The response is the one `handleCommand` sends. -/
theorem nscResponseAccess_toOption (data : List UInt8) (typeLength : Nat) :
    (nscResponseAccess data typeLength).toOption = nscResponse data typeLength := by
  rw [nscResponseAccess_eq, nscResponse, mapM_getElem?]
  split <;> rfl

/-! ## The whole function -/

theorem toOption_bind {α β : Type} (e : Except BadAccess α) (f : α → β) :
    (e.bind fun a => .ok (f a)).toOption = e.toOption.bind fun a => some (f a) := by
  cases e <;> rfl

/-- **The accesses decide nothing else**: what `handleCommand` gives is what the function comes to,
access by access, and it gives nothing exactly when an access leaves the frame or the response. -/
theorem handleCommandAccess_eq (st : CommandState) (data : List UInt8) :
    (handleCommandAccess st data).toOption = handleCommand st data := by
  unfold handleCommandAccess handleCommand
  by_cases hpos : data.length > 0
  · have htype : fieldLoop data (data.length + 1) 0 = .ok (skipField data 0 - 1) :=
      (fieldLoop_eq data (data.length + 1) 0 (by omega)).trans rfl
    have hlength : fieldLoop data (data.length + 1) (skipField data 0) =
        .ok (skipField data (skipField data 0) - 1) :=
      (fieldLoop_eq data (data.length + 1) (skipField data 0) (by omega)).trans rfl
    have hsucc : ∀ i, skipField data i - 1 + 1 = skipField data i := fun _ => rfl
    rw [if_pos hpos, if_pos hpos, readData_of_lt hpos, htype, List.getElem?_eq_getElem hpos]
    generalize data[0] = type
    simp only [bind, Except.bind, Option.bind_some, hsucc, hlength]
    split_ifs
    · rfl
    · rfl
    · rw [← handleMscAccess_eq]
      exact toOption_bind _ _
    · rw [← nscResponseAccess_toOption]
      exact toOption_bind _ _
    · rfl
  · rw [if_neg hpos, if_neg hpos]
    rfl

/-- A command, of fewer than 127 octets, whose type field does not come to an end: none of its
octets has the extension bit. -/
structure UnendedCommand (data : List UInt8) : Prop where
  is_command : ∃ type ∈ data.head?, type &&& gsm0710Cr = gsm0710Cr
  unended : ∀ b ∈ data, b &&& gsm0710Ea = 0
  length_lt : data.length < 127

instance (data : List UInt8) : Decidable (UnendedCommand data) :=
  decidable_of_iff ((∃ type ∈ data.head?, type &&& gsm0710Cr = gsm0710Cr) ∧
      (∀ b ∈ data, b &&& gsm0710Ea = 0) ∧ data.length < 127)
    ⟨fun h => ⟨h.1, h.2.1, h.2.2⟩, fun h => ⟨h.is_command, h.unended, h.length_lt⟩⟩

/-- A type field that ends does so inside the frame; one that does not is taken to end one octet
behind it. -/
theorem skipField_zero_le (data : List UInt8) :
    skipField data 0 ≤ data.length + 1 ∧
      (skipField data 0 = data.length + 1 ↔ ∀ b ∈ data, b &&& gsm0710Ea = 0) := by
  have hle := (List.takeWhile_prefix (l := data) fun b => b &&& gsm0710Ea = 0).length_le
  have heq : skipField data 0 =
      (data.takeWhile fun b => b &&& gsm0710Ea = 0).length + 1 := by
    rw [skipField, List.drop_zero, Nat.zero_add]
  refine ⟨by omega, ?_⟩
  rw [heq, Nat.add_right_cancel_iff]
  constructor
  · intro hlen b hb
    have hall := (List.takeWhile_prefix (l := data) fun b => b &&& gsm0710Ea = 0).eq_of_length hlen
    rw [← hall] at hb
    have hclear := List.mem_takeWhile_imp hb
    exact of_decide_eq_true hclear
  · intro hall
    rw [List.takeWhile_eq_self_iff.mpr fun b hb => decide_eq_true (hall b hb)]

/-- The octets of the type field are all there, as far as they are copied, unless it does not end
in a frame of fewer than 127 octets. -/
theorem copied_le_iff (data : List UInt8) :
    skipField data 0 &&& 127 ≤ data.length ↔
      ¬ ((∀ b ∈ data, b &&& gsm0710Ea = 0) ∧ data.length < 127) := by
  obtain ⟨hle, hiff⟩ := skipField_zero_le data
  have hmod : skipField data 0 &&& 127 = skipField data 0 % 128 :=
    Nat.and_two_pow_sub_one_eq_mod _ 7
  rw [← hiff, hmod]
  omega

/-- An octet without the extension bit is none of the commands that are known. -/
theorem unknown_of_unended {type : UInt8} (h : type &&& gsm0710Ea = 0) :
    type &&& ~~~gsm0710Cr ∉ [gsm0710ControlCld, gsm0710ControlPsc, gsm0710ControlTest,
      gsm0710ControlPn, gsm0710ControlMsc] :=
  forall_octet (P := fun type => type &&& gsm0710Ea = 0 → type &&& ~~~gsm0710Cr ∉
    [gsm0710ControlCld, gsm0710ControlPsc, gsm0710ControlTest, gsm0710ControlPn,
      gsm0710ControlMsc]) (by decide +kernel) type h

/-- The response to a command is built if the type field is there. -/
theorem nscResponse_isSome_iff (data : List UInt8) (typeLength : Nat) :
    (∃ response, nscResponse data typeLength = some response) ↔
      typeLength &&& 127 ≤ data.length := by
  rw [nscResponse, mapM_getElem?]
  split
  · rename_i h
    exact iff_of_true ⟨_, rfl⟩ h
  · rename_i h
    exact iff_of_false (fun ⟨_, hr⟩ => absurd hr nofun) h

/-- `handleCommand` on a frame whose first octet is `type`. -/
theorem handleCommand_isSome_iff (st : CommandState) (type : UInt8) (rest : List UInt8) :
    (∃ r, handleCommand st (type :: rest) = some r) ↔ ¬ UnendedCommand (type :: rest) := by
  have hcopied := copied_le_iff (type :: rest)
  by_cases hcr : type &&& gsm0710Cr = gsm0710Cr
  · have hcommand : UnendedCommand (type :: rest) ↔
        (∀ b ∈ type :: rest, b &&& gsm0710Ea = 0) ∧ (type :: rest).length < 127 :=
      ⟨fun h => ⟨h.unended, h.length_lt⟩, fun h => ⟨⟨type, rfl, hcr⟩, h.1, h.2⟩⟩
    rw [hcommand, ← hcopied]
    -- A command that is known has the extension bit in its first octet, so its type field ends.
    have hknown : type &&& ~~~gsm0710Cr ∈ [gsm0710ControlCld, gsm0710ControlPsc,
        gsm0710ControlTest, gsm0710ControlPn, gsm0710ControlMsc] →
        skipField (type :: rest) 0 &&& 127 ≤ (type :: rest).length := fun hmem =>
      hcopied.mpr fun h => unknown_of_unended (h.1 type List.mem_cons_self) hmem
    simp only [handleCommand, List.length_cons, Nat.succ_pos, if_true, List.getElem?_cons_zero,
      Option.bind_eq_bind, Option.bind_some, hcr, gt_iff_lt, pure]
    generalize type &&& ~~~gsm0710Cr = command at hknown
    split_ifs with hcld hplain hmsc
    · exact iff_of_true ⟨_, rfl⟩ (hknown (by simp [hcld]))
    · refine iff_of_true ⟨_, rfl⟩ (hknown ?_)
      rcases hplain with h | h | h <;> simp [h]
    · obtain ⟨r, hr⟩ := handleMsc_isSome st (type :: rest)
        (skipField (type :: rest) (skipField (type :: rest) 0))
      rw [hr]
      exact iff_of_true ⟨_, rfl⟩ (hknown (by simp [hmsc]))
    · rw [← List.length_cons (a := type), ← nscResponse_isSome_iff]
      constructor
      · rintro ⟨r, hr⟩
        obtain ⟨response, hresponse, -⟩ := Option.bind_eq_some_iff.mp hr
        exact ⟨response, hresponse⟩
      · rintro ⟨response, hresponse⟩
        rw [hresponse]
        exact ⟨_, rfl⟩
  · have hno : ¬ UnendedCommand (type :: rest) := by
      rintro ⟨⟨_, ht, h⟩, _, _⟩
      cases ht
      exact hcr h
    simp only [handleCommand, List.length_cons, Nat.succ_pos, if_true, List.getElem?_cons_zero,
      Option.bind_eq_bind, Option.bind_some, hcr, if_false, gt_iff_lt, pure]
    exact iff_of_true ⟨_, rfl⟩ hno

/-- **Where `handle_command` stays inside the frame.**  Every octet it reads lies in the information
field, every octet it stores in the response, and its loops end, for exactly the frames that are not
a command whose type field does not end. -/
theorem handleCommandAccess_ok_iff (st : CommandState) (data : List UInt8) :
    (∃ r, handleCommandAccess st data = .ok r) ↔ ¬ UnendedCommand data := by
  have hsome : (∃ r, handleCommandAccess st data = .ok r) ↔
      ∃ r, handleCommand st data = some r := by
    rw [← handleCommandAccess_eq]
    cases handleCommandAccess st data with
    | ok r => exact iff_of_true ⟨r, rfl⟩ ⟨r, rfl⟩
    | error e => exact iff_of_false (fun ⟨_, h⟩ => absurd h nofun) (fun ⟨_, h⟩ => absurd h nofun)
  rw [hsome]
  cases data with
  | nil => exact iff_of_true ⟨_, rfl⟩ fun ⟨⟨_, h, _⟩, _, _⟩ => absurd h nofun
  | cons type rest => exact handleCommand_isSome_iff st type rest

/-- A command of the one octet `02`, which has the C/R bit and no extension bit: the octet behind
the frame is copied into the response. -/
theorem handleCommandAccess_unended :
    handleCommandAccess ⟨false, fun _ => false, fun _ => false⟩ [0x02] = .error (.read 1) := by
  rfl

end MtkHw.Mux
