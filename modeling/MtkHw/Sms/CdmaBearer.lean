import MtkHw.Lib.Loop
import MtkHw.Sms.CdmaNode

/-!
# Bearer data of a CDMA message

The bearer data is a sequence of parameters, each an identifier, a length and a value.
`specialProcessForCtWapPush` copies it and shifts the user data of a push message to the left;
`removeZero` looks for a last octet of the user data that is zero and takes it out.  Both walk over
the parameters with a cursor of eight bits, moved on by the lengths that they find there.

`CtWapParams` and `ZeroParams` say that the walk comes to an end with all that is looked at inside of
the data.  `bearerWalks_iff` is the result: these are exactly the data on which the two functions end,
read only what they are given, and write no more than that.
-/

namespace MtkHw.Sms

open Lib

/-! ## `specialProcessForCtWapPush` -/

/-- Where the walk is, and what it has written to `targetArray`. -/
inductive WapState where
  | /-- At the beginning of a parameter. -/ outer (index : UInt8) (target : List UInt8)
  | /-- In the user data, which is shifted to the left. -/
    inner (index : UInt8) (endUserDataPos : Nat) (target : List UInt8)

/-- A turn of the loop over the parameters, or of the loop over the user data. -/
def wapTurn (data : List UInt8) : WapState → WapState ⊕ Except CdmaFault (List UInt8)
  | .outer index target =>
    if index.toNat < data.length then
      match data[index.toNat]?, data[(index + 1).toNat]? with
      | some paramId, some paramLen =>
        let index := index + 2
        if paramId = 1 then
          .inl (.inner (index + 8) (index.toNat + paramLen.toNat) (target ++ [paramId, paramLen - 8]))
        else if 2 ≤ index.toNat ∧ index.toNat + paramLen.toNat ≤ data.length then
          .inl (.outer (index + paramLen)
            (target ++ (data.drop (index.toNat - 2)).take (paramLen.toNat + 2)))
        else .inr (.error .range)
      | _, _ => .inr (.error .range)
    else .inr (.ok target)
  | .inner index endUserDataPos target =>
    if index.toNat < endUserDataPos then
      match data[index.toNat]?, data[index.toNat + 1]? with
      | some high, some low =>
        .inl (.inner (index + 1) endUserDataPos (target ++ [high <<< 5 ||| low >>> 3]))
      | _, _ => .inr (.error .range)
    else .inl (.outer index target)

/-- `specialProcessForCtWapPush` on the value of a node, when the loops go round at most `turns`
times: what it writes to `targetArray`. -/
def specialProcessForCtWapPush (turns : Nat) (data : List UInt8) :
    Option (Except CdmaFault (List UInt8)) := loop (wapTurn data) turns (.outer 0 [])

/-! ## `removeZero` -/

/-- The position and the length of the user data, when there is any. -/
abbrev UserData := Option (Nat × Nat)

/-- A turn of the loop over the parameters. -/
def zeroTurn (data : List UInt8) :
    UInt8 × UserData → (UInt8 × UserData) ⊕ Except CdmaFault UserData
  | (index, userData) =>
    if index.toNat < data.length then
      match data[index.toNat]?, data[(index + 1).toNat]? with
      | some paramId, some paramLen =>
        let index := index + 2
        if paramId = 0 then
          match data[index.toNat + paramLen.toNat - 1]? with
          | some flags =>
            if flags &&& 0x08 = 0x08 then .inr (.ok none) else .inl (index + paramLen, userData)
          | none => .inr (.error .range)
        else if paramId = 1 then .inl (index + paramLen, some (index.toNat, paramLen.toNat))
        else .inl (index + paramLen, userData)
      | _, _ => .inr (.error .range)
    else .inr (.ok userData)

/-- The rest of `removeZero`, when user data has been found: what it leaves of the data. -/
def removeLastZero (data : List UInt8) (userDataPos userDataLen : Nat) :
    Except CdmaFault (List UInt8) :=
  match data[userDataPos]? with
  | none => .error .range
  | some encoding =>
    if encoding &&& 0xF8 ≠ 0x10 then .ok data
    else
      match data[userDataPos + userDataLen - 1]? with
      | none => .error .range
      | some last =>
        if last ≠ 0 then .ok data
        else
          match data[userDataPos + 1]? with
          | none => .error .range
          | some second =>
            let numFields := (encoding &&& 0x07) <<< 5 ||| second >>> 3
            let reservedBits := UInt8.ofInt
              (userDataLen * 8 - (numFields.toNat * 7 + 5 + 8 : Nat) : Int)
            if reservedBits < 8 then .ok data
            else
              let data := data.set (userDataPos - 1) (data.getD (userDataPos - 1) 0 - 1)
              .ok (data.eraseIdx (userDataPos + userDataLen - 1))

/-- `removeZero`, when the loop goes round at most `turns` times: what it leaves of the data. -/
def removeZero (turns : Nat) (data : List UInt8) : Option (Except CdmaFault (List UInt8)) :=
  (loop (zeroTurn data) turns (0, none)).map fun r => r.bind fun
    | none => .ok data
    | some (userDataPos, userDataLen) => removeLastZero data userDataPos userDataLen

/-! ## What is asked of the two -/

/-- Both functions end, read only octets of the data, and the first one writes no more octets than it
has been given. -/
structure BearerWalks (data : List UInt8) : Prop where
  ctWap : ∃ turns target, specialProcessForCtWapPush turns data = some (.ok target) ∧
    target.length ≤ data.length
  removeZero : ∃ turns left, removeZero turns data = some (.ok left)

/-! ## Walks over the parameters -/

/-- From a position on, the data is a sequence of parameters as the walk of
`specialProcessForCtWapPush` needs them.  Every parameter lies in the data, and long user data is
followed by an octet.  Past user data of at most eight octets the walk moves on by ten; it must not
leave the range of its cursor there. -/
inductive CtWapParams (data : List UInt8) : Nat → Prop
  | done {i : Nat} (hi : data.length ≤ i) : CtWapParams data i
  | other {i : Nat} {paramId paramLen : UInt8} (hid : data[i]? = some paramId)
      (hlen : data[i + 1]? = some paramLen) (hne : paramId ≠ 1)
      (hroom : i + 2 + paramLen.toNat ≤ data.length)
      (rest : CtWapParams data (i + 2 + paramLen.toNat)) : CtWapParams data i
  | userData {i : Nat} {paramLen : UInt8} (hid : data[i]? = some 1)
      (hlen : data[i + 1]? = some paramLen) (hlow : i < 246)
      (hroom : 8 < paramLen.toNat → i + 2 + paramLen.toNat < data.length)
      (rest : CtWapParams data (max (i + 10) (i + 2 + paramLen.toNat))) : CtWapParams data i

/-- From a position on, the data is a sequence of parameters as the walk of `removeZero` needs them,
and the user data that it has found in the end is the last argument.  The position of the next
parameter is computed in eight bits. -/
inductive ZeroParams (data : List UInt8) : Nat → UserData → UserData → Prop
  | done {i : Nat} {userData : UserData} (hi : data.length ≤ i) : ZeroParams data i userData userData
  | header {i : Nat} {userData : UserData} {paramLen flags : UInt8} (hid : data[i]? = some 0)
      (hlen : data[i + 1]? = some paramLen) (hflags : data[i + 1 + paramLen.toNat]? = some flags)
      (hset : flags &&& 0x08 = 0x08) : ZeroParams data i userData none
  | noHeader {i : Nat} {userData last : UserData} {paramLen flags : UInt8} (hid : data[i]? = some 0)
      (hlen : data[i + 1]? = some paramLen) (hflags : data[i + 1 + paramLen.toNat]? = some flags)
      (hclear : flags &&& 0x08 ≠ 0x08)
      (rest : ZeroParams data ((i + 2 + paramLen.toNat) % 256) userData last) :
      ZeroParams data i userData last
  | userData {i : Nat} {userData last : UserData} {paramLen : UInt8} (hid : data[i]? = some 1)
      (hlen : data[i + 1]? = some paramLen)
      (rest : ZeroParams data ((i + 2 + paramLen.toNat) % 256)
        (some (i + 2, paramLen.toNat)) last) :
      ZeroParams data i userData last
  | other {i : Nat} {userData last : UserData} {paramId paramLen : UInt8}
      (hid : data[i]? = some paramId) (hlen : data[i + 1]? = some paramLen) (hzero : paramId ≠ 0)
      (hone : paramId ≠ 1)
      (rest : ZeroParams data ((i + 2 + paramLen.toNat) % 256) userData last) :
      ZeroParams data i userData last

/-- The octets of the user data that `removeZero` looks at lie in the data: the first one; the last
one if the encoding is 7-bit ASCII; and if the last one is zero, the second one. -/
def UserDataInside (data : List UInt8) : UserData → Prop
  | none => True
  | some (pos, len) =>
      ∃ encoding, data[pos]? = some encoding ∧
        (encoding &&& 0xF8 = 0x10 → ∃ last, data[pos + len - 1]? = some last ∧
          (last = 0 → pos + 1 < data.length))

section Walks

variable {data : List UInt8}

/-! ### Cursors -/

/-- The header of a parameter lies in the data only if the cursor does not wrap. -/
theorem cursor_of_header (hn : data.length ≤ 255) {index : UInt8}
    (hlen : index.toNat + 1 < data.length) :
    (index + 1).toNat = index.toNat + 1 ∧ (index + 2).toNat = index.toNat + 2 := by
  have := index.toNat_lt
  constructor
  · rw [UInt8.toNat_add]
    exact Nat.mod_eq_of_lt (by change index.toNat + 1 < 256; omega)
  · rw [UInt8.toNat_add]
    exact Nat.mod_eq_of_lt (by change index.toNat + 2 < 256; omega)

/-- A header that is read lies in the data. -/
theorem header_inside (hn : data.length ≤ 255) {index : UInt8} {paramLen : UInt8}
    (hi : index.toNat < data.length) (hlen : data[(index + 1).toNat]? = some paramLen) :
    index.toNat + 1 < data.length := by
  obtain ⟨hlt, -⟩ := List.getElem?_eq_some_iff.mp hlen
  by_contra hge
  have hsum : (index + 1).toNat = index.toNat + 1 := by
    rw [UInt8.toNat_add]
    exact Nat.mod_eq_of_lt (by change index.toNat + 1 < 256; omega)
  omega

/-- A cursor that stays in its range. -/
theorem cursor_add {index paramLen : UInt8} (h : index.toNat + paramLen.toNat ≤ 255) :
    (index + paramLen).toNat = index.toNat + paramLen.toNat := by
  rw [UInt8.toNat_add]
  exact Nat.mod_eq_of_lt (Nat.lt_succ_of_le h)

/-! ### Turns of the first walk -/

theorem wapTurn_done {index : UInt8} (hi : data.length ≤ index.toNat) (target : List UInt8) :
    wapTurn data (.outer index target) = .inr (.ok target) := if_neg (Nat.not_lt_of_le hi)

theorem wapTurn_noHeader (hn : data.length ≤ 255) {index : UInt8} (hi : index.toNat < data.length)
    (hlen : data[index.toNat + 1]? = none) (target : List UInt8) :
    wapTurn data (.outer index target) = .inr (.error .range) := by
  have hnone : data[(index + 1).toNat]? = none := by
    cases hsome : data[(index + 1).toNat]? with
    | none => rfl
    | some paramLen =>
      have := header_inside hn hi hsome
      rw [List.getElem?_eq_getElem this] at hlen
      cases hlen
  rw [wapTurn, if_pos hi, hnone, List.getElem?_eq_getElem hi]

section Header

variable {index paramId paramLen : UInt8} (hn : data.length ≤ 255)
  (hid : data[index.toNat]? = some paramId) (hlen : data[index.toNat + 1]? = some paramLen)

include hn hid hlen

theorem wapTurn_userData (hone : paramId = 1) (target : List UInt8) :
    wapTurn data (.outer index target) =
      .inl (.inner (index + 2 + 8) (index.toNat + 2 + paramLen.toNat)
        (target ++ [paramId, paramLen - 8])) := by
  obtain ⟨hi, -⟩ := List.getElem?_eq_some_iff.mp hid
  obtain ⟨hi', -⟩ := List.getElem?_eq_some_iff.mp hlen
  obtain ⟨hsucc, htwo⟩ := cursor_of_header hn hi'
  rw [wapTurn, if_pos hi, hsucc, hid, hlen]
  simp only [if_pos hone, htwo]

theorem wapTurn_other (hne : paramId ≠ 1)
    (hroom : index.toNat + 2 + paramLen.toNat ≤ data.length) (target : List UInt8) :
    ∃ index' target', wapTurn data (.outer index target) = .inl (.outer index' target') ∧
      index'.toNat = index.toNat + 2 + paramLen.toNat ∧
      target'.length = target.length + (paramLen.toNat + 2) := by
  obtain ⟨hi, -⟩ := List.getElem?_eq_some_iff.mp hid
  obtain ⟨hi', -⟩ := List.getElem?_eq_some_iff.mp hlen
  obtain ⟨hsucc, htwo⟩ := cursor_of_header hn hi'
  refine ⟨index + 2 + paramLen,
    target ++ (data.drop index.toNat).take (paramLen.toNat + 2), ?_, ?_, ?_⟩
  · rw [wapTurn, if_pos hi, hsucc, hid, hlen]
    simp only [if_neg hne, htwo, Nat.add_sub_cancel]
    exact if_pos ⟨Nat.le_add_left _ _, hroom⟩
  · rw [cursor_add (by omega), htwo]
  · rw [List.length_append, List.length_take_of_le]
    rw [List.length_drop]
    omega

theorem wapTurn_noRoom (hne : paramId ≠ 1)
    (hroom : ¬ index.toNat + 2 + paramLen.toNat ≤ data.length) (target : List UInt8) :
    wapTurn data (.outer index target) = .inr (.error .range) := by
  obtain ⟨hi, -⟩ := List.getElem?_eq_some_iff.mp hid
  obtain ⟨hi', -⟩ := List.getElem?_eq_some_iff.mp hlen
  obtain ⟨hsucc, htwo⟩ := cursor_of_header hn hi'
  rw [wapTurn, if_pos hi, hsucc, hid, hlen]
  simp only [if_neg hne, htwo]
  exact if_neg fun h => hroom h.2

end Header

/-! ### The loop over the user data -/

variable (data) in
theorem wapTurn_inner_done (index : UInt8) (endPos : Nat) (hi : endPos ≤ index.toNat)
    (target : List UInt8) :
    wapTurn data (.inner index endPos target) = .inl (.outer index target) :=
  if_neg (Nat.not_lt_of_le hi)

/-- An octet is shifted if the one behind it lies in the data. -/
theorem wapTurn_inner (hn : data.length ≤ 255) {index : UInt8} {endPos : Nat}
    (hi : index.toNat < endPos) (target : List UInt8) :
    (data.length ≤ index.toNat + 1 ∧
        wapTurn data (.inner index endPos target) = .inr (.error .range)) ∨
      ∃ octet, index.toNat + 1 < data.length ∧ (index + 1).toNat = index.toNat + 1 ∧
        wapTurn data (.inner index endPos target) =
          .inl (.inner (index + 1) endPos (target ++ [octet])) := by
  by_cases hlt : index.toNat + 1 < data.length
  · have hlt' : index.toNat < data.length := Nat.lt_of_succ_lt hlt
    refine .inr ⟨data[index.toNat] <<< 5 ||| data[index.toNat + 1] >>> 3, hlt,
      (cursor_of_header hn hlt).1, ?_⟩
    rw [wapTurn, if_pos hi, List.getElem?_eq_getElem hlt, List.getElem?_eq_getElem hlt']
  · refine .inl ⟨Nat.le_of_not_lt hlt, ?_⟩
    rw [wapTurn, if_pos hi, List.getElem?_eq_none (Nat.le_of_not_lt hlt)]
    cases data[index.toNat]? <;> rfl

/-- The loop over the user data comes to its end if it stays in the data. -/
theorem wapInner_total (hn : data.length ≤ 255) {endPos : Nat} (hend : endPos < data.length)
    (index : UInt8) (hi : index.toNat ≤ endPos) (target : List UInt8) :
    ∃ index' target', index'.toNat = endPos ∧
      target'.length = target.length + (endPos - index.toNat) ∧
      ∀ turns r, loop (wapTurn data) turns (.outer index' target') = some r →
        ∃ turns', loop (wapTurn data) turns' (.inner index endPos target) = some r := by
  obtain ⟨k, hk⟩ := Nat.exists_eq_add_of_le hi
  induction k generalizing index target with
  | zero =>
    refine ⟨index, target, hk.symm, by omega, fun turns r hr => ⟨turns + 1, ?_⟩⟩
    rw [loop_of_inl (wapTurn_inner_done data index _ (by omega) target)]
    exact hr
  | succ k ih =>
    rcases wapTurn_inner hn (show index.toNat < endPos by omega) target with
      ⟨hge, -⟩ | ⟨octet, -, hsucc, hturn⟩
    · omega
    · obtain ⟨index', target', hindex', hlength, hloop⟩ :=
        ih (index + 1) (by omega) (target ++ [octet]) (by omega)
      refine ⟨index', target', hindex', ?_, fun turns r hr => ?_⟩
      · rw [hlength, List.length_append, List.length_singleton, hsucc]
        omega
      · obtain ⟨turns', hturns'⟩ := hloop turns r hr
        exact ⟨turns' + 1, by rw [loop_of_inl hturn]; exact hturns'⟩

/-- The loop over the user data has stayed in the data if the walk comes to its end. -/
theorem wapInner_sound (hn : data.length ≤ 255) {turns endPos : Nat} {index : UInt8}
    {target out : List UInt8}
    (h : loop (wapTurn data) turns (.inner index endPos target) = some (.ok out)) :
    ∃ turns' < turns, ∃ index' target',
      loop (wapTurn data) turns' (.outer index' target') = some (.ok out) ∧
      index'.toNat = max index.toNat endPos ∧ (index.toNat < endPos → endPos < data.length) ∧
      target'.length = target.length + (endPos - index.toNat) := by
  induction turns generalizing index target with
  | zero => cases h
  | succ turns ih =>
    by_cases hi : index.toNat < endPos
    · rcases wapTurn_inner hn hi target with ⟨-, hturn⟩ | ⟨octet, hlt, hsucc, hturn⟩
      · rw [loop_of_inr hturn] at h
        cases h
      · rw [loop_of_inl hturn] at h
        obtain ⟨turns', hturns', index', target', hloop, hindex', hend, hlength⟩ := ih h
        refine ⟨turns', Nat.lt_succ_of_lt hturns', index', target', hloop, ?_, fun _ => ?_, ?_⟩
        · rw [hindex', hsucc]
          omega
        · by_cases hmore : (index + 1).toNat < endPos
          · exact hend hmore
          · omega
        · rw [hlength, List.length_append, List.length_singleton, hsucc]
          omega
    · rw [loop_of_inl (wapTurn_inner_done data index _ (Nat.le_of_not_lt hi) target)] at h
      exact ⟨turns, Nat.lt_succ_self _, index, target, h, by omega, fun hlt => absurd hlt hi, by omega⟩

/-! ### The first walk -/

/-- Past the header of user data of at most eight octets the cursor moves on by ten. -/
theorem cursor_ten {index : UInt8} (hlow : index.toNat < 246) :
    (index + 2 + 8).toNat = index.toNat + 10 := by
  have htwo : (index + 2).toNat = index.toNat + 2 := by
    rw [UInt8.toNat_add]
    exact Nat.mod_eq_of_lt (by change index.toNat + 2 < 256; omega)
  rw [UInt8.toNat_add, htwo]
  exact Nat.mod_eq_of_lt (by change index.toNat + 2 + 8 < 256; omega)

/-- Over well-formed parameters the walk comes to its end, and writes no more than there is. -/
theorem ctWap_total (hn : data.length ≤ 255) {i : Nat} (h : CtWapParams data i) (index : UInt8)
    (hi : index.toNat = i) (target : List UInt8) (htarget : target.length ≤ min i data.length) :
    ∃ turns out, loop (wapTurn data) turns (.outer index target) = some (.ok out) ∧
      out.length ≤ data.length := by
  induction h generalizing index target with
  | done hdone =>
    subst hi
    exact ⟨1, target, loop_of_inr (wapTurn_done hdone target), htarget.trans (Nat.min_le_right _ _)⟩
  | other hid hlen hne hroom _ ih =>
    subst hi
    obtain ⟨index', target', hturn, hindex', hlength⟩ := wapTurn_other hn hid hlen hne hroom target
    obtain ⟨turns, out, hloop, hout⟩ := ih index' hindex' target' (by omega)
    exact ⟨turns + 1, out, by rw [loop_of_inl hturn]; exact hloop, hout⟩
  | userData hid hlen hlow hroom _ ih =>
    rename_i paramLen _
    subst hi
    have hturn := wapTurn_userData hn hid hlen rfl target
    have hten := cursor_ten hlow
    obtain ⟨hlt, -⟩ := List.getElem?_eq_some_iff.mp hlen
    by_cases hlong : 8 < paramLen.toNat
    · obtain ⟨index', target', hindex', hlength, hinner⟩ := wapInner_total hn (hroom hlong)
        (index + 2 + 8) (by omega) (target ++ [1, paramLen - 8])
      rw [List.length_append, hten] at hlength
      change target'.length = target.length + 2 + _ at hlength
      have hroom' := hroom hlong
      obtain ⟨turns, out, hloop, hout⟩ := ih index' (by omega) target' (by omega)
      obtain ⟨turns', hturns'⟩ := hinner turns _ hloop
      exact ⟨turns' + 1, out, by rw [loop_of_inl hturn]; exact hturns', hout⟩
    · have hdone := wapTurn_inner_done data (index + 2 + 8)
        (index.toNat + 2 + paramLen.toNat) (by omega) (target ++ [1, paramLen - 8])
      obtain ⟨turns, out, hloop, hout⟩ := ih (index + 2 + 8) (by omega)
        (target ++ [1, paramLen - 8]) (by
          rw [List.length_append]
          change target.length + 2 ≤ _
          omega)
      exact ⟨turns + 2, out, by rw [loop_of_inl hturn, loop_of_inl hdone]; exact hloop, hout⟩

/-- What has been written. -/
def WapState.target : WapState → List UInt8
  | .outer _ target | .inner _ _ target => target

/-- What has been written is not taken back. -/
theorem length_target_le {turns : Nat} {s : WapState} {out : List UInt8}
    (h : loop (wapTurn data) turns s = some (.ok out)) : s.target.length ≤ out.length := by
  have hturn : ∀ (k : Nat) (t : WapState), k ≤ t.target.length →
      Keeps (fun t : WapState => k ≤ t.target.length)
        (fun r => ∀ out, r = .ok out → k ≤ out.length) (wapTurn data t) := by
    intro k t ht
    cases t with
    | outer index target =>
      simp only [WapState.target] at ht
      simp only [wapTurn]
      split
      · split
        · split
          · exact ht.trans (by simp [WapState.target])
          · split
            · exact ht.trans (by simp [WapState.target])
            · exact nofun
        · exact nofun
      · intro out hout
        cases hout
        exact ht
    | inner index endPos target =>
      simp only [WapState.target] at ht
      simp only [wapTurn]
      split
      · split
        · exact ht.trans (by simp [WapState.target])
        · exact nofun
      · exact ht
  exact loop_sound (hturn s.target.length) (Nat.le_refl _) h out rfl

/-- If the walk comes to its end, and has not written more than 255 octets, the parameters are well
formed.  What has been written so far is a fifth of what has been walked over at least. -/
theorem ctWap_sound (hn : data.length ≤ 255) {turns : Nat} {index : UInt8} {target out : List UInt8}
    (h : loop (wapTurn data) turns (.outer index target) = some (.ok out))
    (hout : out.length ≤ 255) (htarget : index.toNat ≤ 5 * target.length) :
    CtWapParams data index.toNat := by
  induction turns using Nat.strong_induction_on generalizing index target with
  | _ turns ih =>
    cases turns with
    | zero => cases h
    | succ turns =>
      by_cases hi : index.toNat < data.length
      · have hid := List.getElem?_eq_getElem hi
        cases hlen : data[index.toNat + 1]? with
        | none =>
          rw [loop_of_inr (wapTurn_noHeader hn hi hlen target)] at h
          cases h
        | some paramLen =>
          by_cases hone : data[index.toNat] = 1
          · rw [loop_of_inl (wapTurn_userData hn hid hlen hone target)] at h
            obtain ⟨turns', hturns', index', target', hloop, hindex', hend, hlength⟩ :=
              wapInner_sound hn h
            have hmono := length_target_le hloop
            simp only [WapState.target] at hmono
            rw [List.length_append] at hlength
            change target'.length = target.length + 2 + _ at hlength
            obtain ⟨hlt, -⟩ := List.getElem?_eq_some_iff.mp hlen
            have hlow : index.toNat < 246 := by
              -- Otherwise the cursor has wrapped, and most of the data has been written once more.
              by_contra hhigh
              have htwo := (cursor_of_header hn hlt).2
              have hwrapped : (index + 2 + 8).toNat = index.toNat + 2 + 8 - 256 := by
                rw [UInt8.toNat_add, htwo]
                change (index.toNat + 2 + 8) % 256 = _
                omega
              omega
            have hten := cursor_ten hlow
            refine .userData (hone ▸ hid) hlen hlow (fun hlong => hend (by omega)) ?_
            rw [show max (index.toNat + 10) (index.toNat + 2 + paramLen.toNat) = index'.toNat by omega]
            exact ih turns' (by omega) hloop (by omega)
          · by_cases hroom : index.toNat + 2 + paramLen.toNat ≤ data.length
            · obtain ⟨index', target', hturn, hindex', hlength⟩ :=
                wapTurn_other hn hid hlen hone hroom target
              rw [loop_of_inl hturn] at h
              refine .other hid hlen hone hroom ?_
              rw [← hindex']
              exact ih turns (Nat.lt_succ_self _) h (by omega)
            · rw [loop_of_inr (wapTurn_noRoom hn hid hlen hone hroom target)] at h
              cases h
      · exact .done (Nat.le_of_not_lt hi)

/-- **When the push message is copied.** -/
theorem ctWap_iff (hn : data.length ≤ 255) :
    (∃ turns target, specialProcessForCtWapPush turns data = some (.ok target) ∧
      target.length ≤ data.length) ↔ CtWapParams data 0 := by
  constructor
  · rintro ⟨turns, target, hloop, htarget⟩
    exact ctWap_sound hn hloop (htarget.trans hn) (Nat.zero_le _)
  · intro hparams
    exact ctWap_total hn hparams 0 rfl [] (Nat.zero_le _)

/-! ### The second walk -/

theorem zeroTurn_done {index : UInt8} (hi : data.length ≤ index.toNat) (userData : UserData) :
    zeroTurn data (index, userData) = .inr (.ok userData) := if_neg (Nat.not_lt_of_le hi)

theorem zeroTurn_noHeader (hn : data.length ≤ 255) {index : UInt8} (hi : index.toNat < data.length)
    (hlen : data[index.toNat + 1]? = none) (userData : UserData) :
    zeroTurn data (index, userData) = .inr (.error .range) := by
  have hnone : data[(index + 1).toNat]? = none := by
    cases hsome : data[(index + 1).toNat]? with
    | none => rfl
    | some paramLen =>
      have := header_inside hn hi hsome
      rw [List.getElem?_eq_getElem this] at hlen
      cases hlen
  rw [zeroTurn, if_pos hi, hnone, List.getElem?_eq_getElem hi]

/-- The next position is computed in eight bits. -/
theorem cursor_next (hn : data.length ≤ 255) {index paramLen : UInt8}
    (hlen : data[index.toNat + 1]? = some paramLen) :
    (index + 2 + paramLen).toNat = (index.toNat + 2 + paramLen.toNat) % 256 := by
  obtain ⟨hi, -⟩ := List.getElem?_eq_some_iff.mp hlen
  rw [UInt8.toNat_add, (cursor_of_header hn hi).2]

section Header

variable {index paramId paramLen : UInt8} (hn : data.length ≤ 255)
  (hid : data[index.toNat]? = some paramId) (hlen : data[index.toNat + 1]? = some paramLen)

include hn hid hlen

/-- A turn at a parameter whose header lies in the data. -/
theorem zeroTurn_header (userData : UserData) :
    zeroTurn data (index, userData) =
      if paramId = 0 then
        match data[index.toNat + 1 + paramLen.toNat]? with
        | some flags =>
          if flags &&& 0x08 = 0x08 then .inr (.ok none) else .inl (index + 2 + paramLen, userData)
        | none => .inr (.error .range)
      else if paramId = 1 then
        .inl (index + 2 + paramLen, some (index.toNat + 2, paramLen.toNat))
      else .inl (index + 2 + paramLen, userData) := by
  obtain ⟨hi, -⟩ := List.getElem?_eq_some_iff.mp hid
  obtain ⟨hi', -⟩ := List.getElem?_eq_some_iff.mp hlen
  obtain ⟨hsucc, htwo⟩ := cursor_of_header hn hi'
  have hlast : index.toNat + 2 + paramLen.toNat - 1 = index.toNat + 1 + paramLen.toNat := by omega
  rw [zeroTurn, if_pos hi, hsucc, hid, hlen]
  simp only [htwo, hlast]

end Header

/-- Over well-formed parameters the walk comes to its end. -/
theorem zero_total (hn : data.length ≤ 255) {i : Nat} {userData last : UserData}
    (h : ZeroParams data i userData last) (index : UInt8) (hi : index.toNat = i) :
    ∃ turns, loop (zeroTurn data) turns (index, userData) = some (.ok last) := by
  induction h generalizing index with
  | done hdone =>
    subst hi
    exact ⟨1, loop_of_inr (zeroTurn_done hdone _)⟩
  | header hid hlen hflags hset =>
    subst hi
    have hturn := zeroTurn_header hn hid hlen
    refine ⟨1, loop_of_inr ?_⟩
    rw [hturn, if_pos rfl, hflags]
    exact if_pos hset
  | noHeader hid hlen hflags hclear _ ih =>
    subst hi
    obtain ⟨turns, hloop⟩ := ih _ (cursor_next hn hlen)
    refine ⟨turns + 1, (loop_of_inl ?_).trans hloop⟩
    rw [zeroTurn_header hn hid hlen, if_pos rfl, hflags]
    exact if_neg hclear
  | userData hid hlen _ ih =>
    subst hi
    obtain ⟨turns, hloop⟩ := ih _ (cursor_next hn hlen)
    refine ⟨turns + 1, (loop_of_inl ?_).trans hloop⟩
    rw [zeroTurn_header hn hid hlen, if_neg (by decide), if_pos rfl]
  | other hid hlen hzero hone _ ih =>
    subst hi
    obtain ⟨turns, hloop⟩ := ih _ (cursor_next hn hlen)
    refine ⟨turns + 1, (loop_of_inl ?_).trans hloop⟩
    rw [zeroTurn_header hn hid hlen, if_neg hzero, if_neg hone]

/-- If the walk comes to its end the parameters are well formed. -/
theorem zero_sound (hn : data.length ≤ 255) {turns : Nat} {index : UInt8} {userData last : UserData}
    (h : loop (zeroTurn data) turns (index, userData) = some (.ok last)) :
    ZeroParams data index.toNat userData last := by
  induction turns generalizing index userData with
  | zero => cases h
  | succ turns ih =>
    by_cases hi : index.toNat < data.length
    · have hid := List.getElem?_eq_getElem hi
      cases hlen : data[index.toNat + 1]? with
      | none =>
        rw [loop_of_inr (zeroTurn_noHeader hn hi hlen userData)] at h
        cases h
      | some paramLen =>
        have hturn := zeroTurn_header hn hid hlen userData
        have hnext := cursor_next hn hlen
        split_ifs at hturn with hzero hone
        · rw [hzero] at hid
          cases hflags : data[index.toNat + 1 + paramLen.toNat]? with
          | none =>
            rw [hflags] at hturn
            rw [loop_of_inr hturn] at h
            cases h
          | some flags =>
            simp only [hflags] at hturn
            split_ifs at hturn with hset
            · rw [loop_of_inr hturn] at h
              cases h
              exact .header hid hlen hflags hset
            · rw [loop_of_inl hturn] at h
              exact .noHeader hid hlen hflags hset (hnext ▸ ih h)
        · rw [loop_of_inl hturn] at h
          exact .userData (hone ▸ hid) hlen (hnext ▸ ih h)
        · rw [loop_of_inl hturn] at h
          exact .other hid hlen hzero hone (hnext ▸ ih h)
    · have hdone := zeroTurn_done (Nat.le_of_not_lt hi) userData
      rw [loop_of_inr hdone] at h
      cases h
      exact .done (Nat.le_of_not_lt hi)

theorem removeLastZero_iff (pos len : Nat) :
    (∃ left, removeLastZero data pos len = .ok left) ↔ UserDataInside data (some (pos, len)) := by
  simp only [removeLastZero, UserDataInside]
  cases hencoding : data[pos]? with
  | none => exact iff_of_false (fun ⟨_, h⟩ => absurd h nofun) (fun ⟨_, h, _⟩ => absurd h nofun)
  | some encoding =>
    simp only [Option.some.injEq, exists_eq_left']
    by_cases hascii : encoding &&& 0xF8 = 0x10
    · simp only [hascii, ne_eq, not_true_eq_false, if_false, forall_const]
      cases hlast : data[pos + len - 1]? with
      | none => exact iff_of_false (fun ⟨_, h⟩ => absurd h nofun) (fun ⟨_, h, _⟩ => absurd h nofun)
      | some last =>
        simp only [Option.some.injEq, exists_eq_left']
        by_cases hzero : last = 0
        · simp only [hzero, not_true_eq_false, if_false, forall_const]
          by_cases hsecond : pos + 1 < data.length
          · rw [List.getElem?_eq_getElem hsecond]
            dsimp only
            refine iff_of_true ?_ hsecond
            split
            · exact ⟨_, rfl⟩
            · exact ⟨_, rfl⟩
          · rw [List.getElem?_eq_none (Nat.le_of_not_lt hsecond)]
            exact iff_of_false (fun ⟨_, h⟩ => absurd h nofun) hsecond
        · simp only [hzero, not_false_eq_true, if_true]
          exact iff_of_true ⟨_, rfl⟩ False.elim
    · simp only [ne_eq, hascii, not_false_eq_true, if_true]
      exact iff_of_true ⟨_, rfl⟩ False.elim

/-- **When the last zero is looked for.** -/
theorem removeZero_iff (hn : data.length ≤ 255) :
    (∃ turns left, removeZero turns data = some (.ok left)) ↔
      ∃ userData, ZeroParams data 0 none userData ∧ UserDataInside data userData := by
  constructor
  · rintro ⟨turns, left, h⟩
    obtain ⟨r, hloop, hr⟩ := Option.map_eq_some_iff.mp h
    cases r with
    | error fault => cases hr
    | ok userData =>
      refine ⟨userData, zero_sound hn hloop, ?_⟩
      cases userData with
      | none => trivial
      | some found => exact (removeLastZero_iff _ _).mp ⟨left, hr⟩
  · rintro ⟨userData, hparams, hinside⟩
    obtain ⟨turns, hloop⟩ := zero_total hn hparams 0 rfl
    cases userData with
    | none => exact ⟨turns, data, by rw [removeZero, hloop]; rfl⟩
    | some found =>
      obtain ⟨left, hleft⟩ := (removeLastZero_iff _ _).mpr hinside
      exact ⟨turns, left, by rw [removeZero, hloop]; exact congrArg some hleft⟩

end Walks

/-- **When the walks over bearer data are safe.**  Both functions end, read only octets of the data
and write no more octets than they have been given, exactly if the data is a sequence of parameters
as the two walks need them, and the octets of the user data that are looked at lie in it. -/
theorem bearerWalks_iff {data : List UInt8} (hn : data.length ≤ 255) :
    BearerWalks data ↔ CtWapParams data 0 ∧
      ∃ userData, ZeroParams data 0 none userData ∧ UserDataInside data userData := by
  rw [← ctWap_iff hn, ← removeZero_iff hn]
  exact ⟨fun h => ⟨h.ctWap, h.removeZero⟩, fun h => ⟨h.1, h.2⟩⟩

/-- A message identifier of three octets, and user data of two. -/
theorem bearerWalks_plain : BearerWalks [0, 3, 16, 0, 0, 1, 2, 16, 8] := by
  refine (bearerWalks_iff (by decide)).mpr ⟨?_, some (7, 2), ?_, 16, rfl, fun _ => ⟨8, rfl, nofun⟩⟩
  · refine .other rfl rfl (by decide) (by decide) (.userData rfl rfl (by decide) (by decide) ?_)
    exact .done (by decide)
  · exact .noHeader rfl rfl rfl (by decide) (.userData rfl rfl (.done (by decide)))

/-- The parameter `05 FE`: its length leads the cursor back to the beginning. -/
theorem removeZero_never_ends (turns : Nat) : removeZero turns [5, 254] = none := by
  have hturn : zeroTurn [5, 254] (0, none) = .inl (0, none) := by decide
  have hloop : loop (zeroTurn [5, 254]) turns (0, none) = none := by
    induction turns with
    | zero => rfl
    | succ turns ih => rw [loop_of_inl hturn, ih]
  rw [removeZero, hloop]
  rfl

/-- Two octets on which `removeZero` does not end. -/
theorem not_bearerWalks_wrapping : ¬ BearerWalks [5, 254] := by
  rintro ⟨-, turns, left, h⟩
  rw [removeZero_never_ends] at h
  cases h

end MtkHw.Sms
