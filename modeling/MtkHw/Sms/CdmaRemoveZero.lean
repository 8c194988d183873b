import MtkHw.Sms.CdmaBearer

/-!
# What `removeZero` leaves of a message

The bearer data of a CDMA message is a sequence of subparameters.  `removeZero` takes the octet at
the end of 7-bit user data away when it is zero and the characters that the user data announces seem
to leave it free.  It computes the number of the bits that are left over in eight bits, and the
announced number is not compared with the length, so that "more than seven bits are left over" is also
what it finds when the characters do not fit at all.

`Preserved` is what is to be left of the subparameters, and `removeZero_preserves_iff` the result:
this is left exactly when `ZeroIsFree` holds of the last user data.
-/

namespace MtkHw.Sms

open Lib

/-- A subparameter.  Its length is one octet. -/
structure Subparameter where
  id : UInt8
  value : List UInt8
  short : value.length ≤ 255

namespace Subparameter

/-- The octets of a subparameter. -/
def encode (p : Subparameter) : List UInt8 := p.id :: UInt8.ofNat p.value.length :: p.value

/-- A message identifier that says that the user data begins with a header. -/
def HasHeader (p : Subparameter) : Prop := p.id = 0 ∧ p.value.getLastD 0 &&& 0x08 = 0x08

instance (p : Subparameter) : Decidable p.HasHeader := inferInstanceAs (Decidable (_ ∧ _))

/-- Where the length is written. -/
@[simp] theorem toNat_length (p : Subparameter) :
    (UInt8.ofNat p.value.length).toNat = p.value.length := by
  rw [UInt8.toNat_ofNat']
  exact Nat.mod_eq_of_lt (Nat.lt_succ_of_le p.short)

theorem length_encode (p : Subparameter) : p.encode.length = p.value.length + 2 := rfl

end Subparameter

/-- The octets of a sequence of subparameters. -/
def encodeAll (params : List Subparameter) : List UInt8 := params.flatMap Subparameter.encode

/-- The number of characters that user data announces, in three bits of its first octet and five of
its second. -/
def numFields (octets : List UInt8) : UInt8 :=
  (octets.getD 0 0 &&& 0x07) <<< 5 ||| octets.getD 1 0 >>> 3

/-- The bits that encoding, number of characters and characters do not need, as they are computed. -/
def reservedBits (length : Nat) (numFields : UInt8) : UInt8 :=
  UInt8.ofInt (length * 8 - (numFields.toNat * 7 + 5 + 8 : Nat) : Int)

/-! ## What is asked of `removeZero` -/

/-- What is to be left of the message: all of it, or all but a zero at the end of its user data, with
the length one less.  What remains of the user data has room for the encoding, the number of
characters, and the characters. -/
inductive Preserved (params : List Subparameter) : List UInt8 → Prop
  | unchanged : Preserved params (encodeAll params)
  | shortened {before after : List Subparameter} {p q : Subparameter}
      (hparams : params = before ++ p :: after) (hp : p.id = 1) (hq : q.id = 1)
      (hvalue : p.value = q.value ++ [0])
      (hroom : 5 + 8 + 7 * (numFields p.value).toNat ≤ 8 * q.value.length) :
      Preserved params (encodeAll (before ++ q :: after))

/-- What must hold of the last user data and of the octets that follow it.  There is an octet, and if
that octet says 7-bit ASCII and the user data does not end with another octet than zero, then the last
octet is not needed, or the bits that are left over are found to be less than eight.

When there is user data, these octets are its own. -/
def ZeroIsFree (value following : List UInt8) : Prop :=
  ∃ encoding rest, value ++ following = encoding :: rest ∧
    (encoding &&& 0xF8 = 0x10 → value.getLastD 0 = 0 →
      5 + 8 + 7 * (numFields (value ++ following)).toNat + 8 ≤ 8 * value.length ∨
        reservedBits value.length (numFields (value ++ following)) < 8)

/-- When a message keeps what it needs: there is a header, or the zero at the end of the last user
data is free. -/
def LastZeroFree (params : List Subparameter) : Prop :=
  (∃ p ∈ params, p.HasHeader) ∨
    ∀ before p after, params = before ++ p :: after → p.id = 1 → (∀ q ∈ after, q.id ≠ 1) →
      ZeroIsFree p.value (encodeAll after)

/-! ## The walk -/

/-- The user data that the walk finds from a position on. -/
def lastUserData (userData : UserData) : Nat → List Subparameter → UserData
  | _, [] => userData
  | i, p :: params =>
    if p.HasHeader then none
    else lastUserData (if p.id = 1 then some (i + 2, p.value.length) else userData)
      (i + 2 + p.value.length) params

theorem encodeAll_append (params params' : List Subparameter) :
    encodeAll (params ++ params') = encodeAll params ++ encodeAll params' := List.flatMap_append

theorem encodeAll_cons (p : Subparameter) (params : List Subparameter) :
    encodeAll (p :: params) = p.encode ++ encodeAll params := List.flatMap_cons

theorem encodeAll_split (before : List Subparameter) (p : Subparameter)
    (after : List Subparameter) :
    encodeAll (before ++ p :: after) = encodeAll before ++ p.id ::
      UInt8.ofNat p.value.length :: (p.value ++ encodeAll after) := by
  rw [encodeAll_append, encodeAll_cons]
  rfl

/-- An octet behind others. -/
theorem getElem?_behind (front rest : List UInt8) (k : Nat) :
    (front ++ rest)[front.length + k]? = rest[k]? := by
  rw [List.getElem?_append_right (Nat.le_add_right _ _), Nat.add_sub_cancel_left]

/-- The octet before the end of a value: its last one, or its length. -/
theorem getElem?_last (value following : List UInt8) :
    (UInt8.ofNat value.length :: (value ++ following))[value.length]? =
      some (value.getLastD 0) := by
  rcases value.eq_nil_or_concat with rfl | ⟨init, last, rfl⟩
  · rfl
  · rw [List.concat_eq_append, List.getLastD_concat, List.length_append, List.length_singleton,
      List.getElem?_cons_succ, List.append_assoc, List.getElem?_append_right (Nat.le_refl _),
      Nat.sub_self]
    rfl

/-- The walk over the octets of subparameters. -/
theorem zeroParams_encodeAll {data : List UInt8} (hn : data.length ≤ 255)
    (front : List UInt8) (params : List Subparameter) (hdata : data = front ++ encodeAll params)
    (userData : UserData) :
    ZeroParams data front.length userData (lastUserData userData front.length params) := by
  induction params generalizing front userData with
  | nil =>
    refine .done ?_
    rw [hdata]
    exact (List.length_append).le
  | cons p params ih =>
    have hsplit : data = front ++ p.id :: UInt8.ofNat p.value.length ::
        (p.value ++ encodeAll params) := hdata
    have hid : data[front.length]? = some p.id := by
      rw [hsplit]
      exact getElem?_behind front _ 0
    have hlen : data[front.length + 1]? = some (UInt8.ofNat p.value.length) := by
      rw [hsplit]
      exact getElem?_behind front _ 1
    have hlast : data[front.length + 1 + (UInt8.ofNat p.value.length).toNat]? =
        some (p.value.getLastD 0) := by
      rw [hsplit, p.toNat_length, Nat.add_assoc, getElem?_behind, Nat.add_comm 1,
        List.getElem?_cons_succ]
      exact getElem?_last _ _
    have hnext : (front.length + 2 + (UInt8.ofNat p.value.length).toNat) % 256 =
        (front ++ p.encode).length := by
      rw [p.toNat_length, List.length_append, p.length_encode, Nat.mod_eq_of_lt]
      · omega
      · have := congrArg List.length hsplit
        simp only [List.length_append, List.length_cons] at this
        omega
    have hrest := fun userData => ih (front ++ p.encode)
      (by rw [hdata, encodeAll_cons, List.append_assoc]) userData
    have hposition : (front ++ p.encode).length = front.length + 2 + p.value.length := by
      rw [List.length_append, p.length_encode, ← Nat.add_assoc, Nat.add_right_comm]
    rw [lastUserData]
    by_cases hheader : p.HasHeader
    · rw [if_pos hheader]
      exact .header (hheader.1 ▸ hid) hlen hlast hheader.2
    · rw [if_neg hheader, ← hposition]
      by_cases hone : p.id = 1
      · rw [if_pos hone]
        refine .userData (hone ▸ hid) hlen (hnext.symm ▸ ?_)
        rw [p.toNat_length]
        exact hrest _
      · rw [if_neg hone]
        by_cases hzero : p.id = 0
        · exact .noHeader (hzero ▸ hid) hlen hlast (fun h => hheader ⟨hzero, h⟩)
            (hnext.symm ▸ hrest _)
        · exact .other hid hlen hzero hone (hnext.symm ▸ hrest _)

/-- A header ends the search. -/
theorem lastUserData_header {params : List Subparameter} (h : ∃ p ∈ params, p.HasHeader)
    (userData : UserData) (i : Nat) : lastUserData userData i params = none := by
  obtain ⟨p, hp, hheader⟩ := h
  induction params generalizing userData i with
  | nil => cases hp
  | cons q params ih =>
    rw [lastUserData]
    rcases List.mem_cons.mp hp with rfl | hp
    · exact if_pos hheader
    · split
      · rfl
      · exact ih _ _ hp

/-- Where there is no user data the one that has been found remains. -/
theorem lastUserData_none {params : List Subparameter} (hheader : ∀ p ∈ params, ¬ p.HasHeader)
    (hother : ∀ p ∈ params, p.id ≠ 1) (userData : UserData) (i : Nat) :
    lastUserData userData i params = userData := by
  induction params generalizing i with
  | nil => rfl
  | cons p params ih =>
    rw [List.forall_mem_cons] at hheader hother
    rw [lastUserData, if_neg hheader.1, if_neg hother.1]
    exact ih hheader.2 hother.2 _

/-- The last user data is found. -/
theorem lastUserData_split {before after : List Subparameter} {p : Subparameter}
    (hheader : ∀ q ∈ before ++ p :: after, ¬ q.HasHeader) (hp : p.id = 1)
    (hafter : ∀ q ∈ after, q.id ≠ 1) (userData : UserData) (i : Nat) :
    lastUserData userData i (before ++ p :: after) =
      some (i + (encodeAll before).length + 2, p.value.length) := by
  induction before generalizing userData i with
  | nil =>
    rw [List.nil_append, List.forall_mem_cons] at hheader
    rw [List.nil_append, lastUserData, if_neg hheader.1, if_pos hp,
      lastUserData_none hheader.2 hafter]
    rfl
  | cons q before ih =>
    rw [List.cons_append, List.forall_mem_cons] at hheader
    rw [List.cons_append, lastUserData, if_neg hheader.1, ih hheader.2, encodeAll_cons,
      List.length_append, q.length_encode]
    congr 2
    omega

/-- Every sequence has a last user data, or none. -/
theorem userData_cases (params : List Subparameter) :
    (∀ p ∈ params, p.id ≠ 1) ∨ ∃ before p after, params = before ++ p :: after ∧ p.id = 1 ∧
      ∀ q ∈ after, q.id ≠ 1 := by
  induction params with
  | nil => exact .inl fun p hp => absurd hp List.not_mem_nil
  | cons p params ih =>
    rcases ih with hother | ⟨before, q, after, rfl, hq, hafter⟩
    · by_cases hp : p.id = 1
      · exact .inr ⟨[], p, params, rfl, hp, hother⟩
      · exact .inl (List.forall_mem_cons.mpr ⟨hp, hother⟩)
    · exact .inr ⟨p :: before, q, after, rfl, hq, hafter⟩

/-! ## The removal -/

section Removal

variable {front value following : List UInt8} {data : List UInt8}
  (hdata : data = front ++ 1 :: UInt8.ofNat value.length :: (value ++ following))

include hdata

theorem getElem?_userData (k : Nat) : data[front.length + 2 + k]? = (value ++ following)[k]? := by
  rw [hdata, Nat.add_assoc, getElem?_behind, Nat.add_comm 2]
  rfl

theorem getElem?_userData_last :
    data[front.length + 2 + value.length - 1]? = some (value.getLastD 0) := by
  have hposition : front.length + 2 + value.length - 1 = front.length + (value.length + 1) := by
    omega
  rw [hposition, hdata, getElem?_behind, List.getElem?_cons_succ]
  exact getElem?_last _ _

/-- The last octet of the user data is left where it is. -/
theorem removeLastZero_kept {encoding : UInt8} {rest : List UInt8}
    (hencoding : value ++ following = encoding :: rest)
    (h : encoding &&& 0xF8 ≠ 0x10 ∨ value.getLastD 0 ≠ 0 ∨
      rest ≠ [] ∧ reservedBits value.length (numFields (value ++ following)) < 8) :
    removeLastZero data (front.length + 2) value.length = .ok data := by
  have hfirst := getElem?_userData hdata 0
  have hsecond := getElem?_userData hdata 1
  rw [hencoding] at hfirst hsecond
  rw [removeLastZero, show data[front.length + 2]? = some encoding from hfirst]
  dsimp only
  split_ifs with hascii
  · rfl
  · rw [getElem?_userData_last hdata]
    dsimp only
    split_ifs with hlast
    · rfl
    · rcases h with h | h | ⟨hrest, hreserved⟩
      · exact absurd h hascii
      · exact absurd h hlast
      · cases rest with
        | nil => exact absurd rfl hrest
        | cons second rest =>
          rw [hsecond]
          rw [hencoding] at hreserved
          exact if_pos hreserved

/-- The last octet of the user data is taken out. -/
theorem removeLastZero_removed {encoding second : UInt8} {rest : List UInt8}
    (hencoding : value ++ following = encoding :: second :: rest)
    (hascii : encoding &&& 0xF8 = 0x10) (hlast : value.getLastD 0 = 0)
    (hreserved : ¬ reservedBits value.length (numFields (value ++ following)) < 8) :
    removeLastZero data (front.length + 2) value.length = .ok (front ++ 1 ::
      ((UInt8.ofNat value.length - 1) :: (value ++ following)).eraseIdx value.length) := by
  have hfirst := getElem?_userData hdata 0
  have hsecond := getElem?_userData hdata 1
  rw [hencoding] at hfirst hsecond hreserved
  rw [removeLastZero, show data[front.length + 2]? = some encoding from hfirst]
  dsimp only
  rw [if_neg (not_not_intro hascii), getElem?_userData_last hdata]
  dsimp only
  rw [if_neg (not_not_intro hlast), hsecond]
  refine (if_neg hreserved).trans (congrArg Except.ok ?_)
  have hpos : front.length + 2 - 1 = front.length + 1 := rfl
  have hend : front.length + 2 + value.length - 1 = front.length + (value.length + 1) := by omega
  have hlength : data.getD (front.length + 1) 0 = UInt8.ofNat value.length := by
    rw [List.getD_eq_getElem?_getD, hdata, getElem?_behind]
    rfl
  rw [hpos, hend, hlength, hdata, List.set_append_right _ _ (Nat.le_add_right _ _),
    Nat.add_sub_cancel_left, List.eraseIdx_append_of_length_le (Nat.le_add_right _ _),
    Nat.add_sub_cancel_left]
  rfl

end Removal

/-! ## When the message is preserved -/

/-- Two of the subparameters that are user data are the same, or the first one comes before the
other, if none follows the other. -/
theorem userData_unique {before after before' after' : List Subparameter} {p p' : Subparameter}
    (h : before ++ p :: after = before' ++ p' :: after') (hp' : p'.id = 1)
    (hafter : ∀ q ∈ after, q.id ≠ 1) :
    before' = before ∧ p' = p ∧ after' = after ∨ ∃ mid, before = before' ++ p' :: mid := by
  rcases List.append_eq_append_iff.mp h with ⟨mid, rfl, hmid⟩ | ⟨mid, rfl, hmid⟩
  · cases mid with
    | nil =>
      obtain ⟨rfl, rfl⟩ := List.cons_eq_cons.mp hmid
      exact .inl ⟨List.append_nil _, rfl, rfl⟩
    | cons q mid =>
      obtain ⟨rfl, rfl⟩ := List.cons_eq_cons.mp hmid
      exact absurd hp' (hafter p' (List.mem_append_right _ List.mem_cons_self))
  · cases mid with
    | nil =>
      obtain ⟨rfl, rfl⟩ := List.cons_eq_cons.mp hmid
      exact .inl ⟨(List.append_nil _).symm, rfl, rfl⟩
    | cons q mid =>
      obtain ⟨rfl, rfl⟩ := List.cons_eq_cons.mp hmid
      exact .inr ⟨mid, rfl⟩

/-- If a shorter message that begins with what is before the last user data preserves it, a zero has
been taken out of the last user data. -/
theorem Preserved.of_front {before after : List Subparameter} {p : Subparameter}
    {rest : List UInt8} (h : Preserved (before ++ p :: after) (encodeAll before ++ rest))
    (hlength : rest.length < (encodeAll (p :: after)).length) (hafter : ∀ q ∈ after, q.id ≠ 1) :
    ∃ q : Subparameter, p.value = q.value ++ [0] ∧
      5 + 8 + 7 * (numFields p.value).toNat ≤ 8 * q.value.length := by
  generalize hresult : encodeAll before ++ rest = result at h
  cases h with
  | unchanged =>
    rw [encodeAll_append] at hresult
    rw [List.append_cancel_left hresult] at hlength
    exact absurd hlength (Nat.lt_irrefl _)
  | shortened hparams hp hq hvalue hroom =>
    rename_i before' after' p' q
    rcases userData_unique hparams hp hafter with ⟨rfl, rfl, rfl⟩ | ⟨mid, rfl⟩
    · exact ⟨q, hvalue, hroom⟩
    · -- The length in front of the earlier user data would have to be two numbers.
      rw [encodeAll_split, encodeAll_split, List.append_assoc] at hresult
      have hoctets := List.cons_eq_cons.mp (List.append_cancel_left hresult)
      have hlengths := (List.cons_eq_cons.mp hoctets.2).1
      have := congrArg UInt8.toNat hlengths
      rw [p'.toNat_length, q.toNat_length, hvalue, List.length_append] at this
      exact absurd this (Nat.succ_ne_self _)

/-- The number of characters is read in the user data, if it has two octets. -/
theorem numFields_append {value : List UInt8} (hvalue : 2 ≤ value.length) (following : List UInt8) :
    numFields (value ++ following) = numFields value := by
  obtain ⟨first, second, rest, rfl⟩ : ∃ first second rest, value = first :: second :: rest := by
    match value, hvalue with
    | first :: second :: rest, _ => exact ⟨first, second, rest, rfl⟩
  rfl

/-- What `removeZero` makes of user data from which it takes an octet. -/
theorem eraseIdx_value (value following : List UInt8) (length : UInt8) :
    (length :: (value ++ following)).eraseIdx value.length =
      if value = [] then following else length :: (value.dropLast ++ following) := by
  rcases value.eq_nil_or_concat with rfl | ⟨init, last, rfl⟩
  · rfl
  · rw [List.concat_eq_append, if_neg (by simp), List.dropLast_concat, List.length_append,
      List.length_singleton, List.eraseIdx_cons_succ, List.append_assoc,
      List.eraseIdx_append_of_length_le (Nat.le_refl _), Nat.sub_self]
    rfl

/-- User data that says 7-bit ASCII and ends with a zero, or with its length: it is empty or has two
octets, and the walk reads two octets from its beginning. -/
theorem octets_of_ascii {value following : List UInt8} {encoding : UInt8} {rest : List UInt8}
    (hencoding : value ++ following = encoding :: rest) (hascii : encoding &&& 0xF8 = 0x10)
    (hlast : value.getLastD 0 = 0) (hfollowing : following.length ≠ 1) :
    rest ≠ [] ∧ (value ≠ [] → 2 ≤ value.length) := by
  match value with
  | [] =>
    refine ⟨?_, fun h => absurd rfl h⟩
    rintro rfl
    rw [List.nil_append] at hencoding
    exact hfollowing (congrArg List.length hencoding)
  | [first] =>
    obtain ⟨rfl, -⟩ := List.cons_eq_cons.mp hencoding
    rw [show first = 0 from hlast] at hascii
    exact absurd hascii (by decide)
  | first :: second :: value =>
    obtain ⟨-, rfl⟩ := List.cons_eq_cons.mp hencoding
    exact ⟨List.cons_ne_nil _ _, fun _ => Nat.le_add_left _ _⟩

theorem length_encodeAll_ne_one (params : List Subparameter) : (encodeAll params).length ≠ 1 := by
  cases params with
  | nil => exact Nat.zero_ne_one
  | cons p params =>
    rw [encodeAll_cons, List.length_append, p.length_encode]
    omega

section Parameters

variable {before after : List Subparameter} {p : Subparameter} (hp : p.id = 1)
  (hafter : ∀ q ∈ after, q.id ≠ 1)

include hp hafter

variable (before) in
/-- What is left when an octet has been taken out preserves the message if that octet is free. -/
theorem preserved_removed_iff (hvalue : p.value ≠ [] → 2 ≤ p.value.length)
    (hlast : p.value.getLastD 0 = 0) :
    Preserved (before ++ p :: after) (encodeAll before ++ 1 ::
        ((UInt8.ofNat p.value.length - 1) :: (p.value ++ encodeAll after)).eraseIdx p.value.length) ↔
      5 + 8 + 7 * (numFields (p.value ++ encodeAll after)).toNat + 8 ≤ 8 * p.value.length := by
  rw [eraseIdx_value]
  constructor
  · intro h
    obtain ⟨q, hq, hroom⟩ := h.of_front (by
      rw [encodeAll_cons, List.length_append, p.length_encode]
      split_ifs with hnil
      · simp only [List.length_cons]
        omega
      · simp only [List.length_cons, List.length_append, List.length_dropLast]
        have := hvalue hnil
        omega) hafter
    have hnil : p.value ≠ [] := by
      rw [hq]
      exact List.append_ne_nil_of_right_ne_nil _ (List.cons_ne_nil _ _)
    have hlength := congrArg List.length hq
    rw [List.length_append, List.length_singleton] at hlength
    rw [numFields_append (hvalue hnil)]
    omega
  · intro hroom
    have hnil : p.value ≠ [] := by
      intro h
      rw [h, List.length_nil] at hroom
      omega
    have hshort : p.value.dropLast.length ≤ 255 := by
      rw [List.length_dropLast]
      exact (Nat.sub_le _ _).trans p.short
    have hsplit : p.value = p.value.dropLast ++ [0] := by
      rcases p.value.eq_nil_or_concat with h | ⟨init, last, h⟩
      · exact absurd h hnil
      · rw [h, List.concat_eq_append, List.getLastD_concat] at hlast
        rw [h, List.concat_eq_append, List.dropLast_concat, hlast]
    have hlength := congrArg List.length hsplit
    rw [List.length_append, List.length_singleton] at hlength
    rw [numFields_append (hvalue hnil)] at hroom
    have hparams : before ++ p :: after = before ++ p :: after := rfl
    have hpreserved := Preserved.shortened (q := ⟨1, p.value.dropLast, hshort⟩) hparams hp rfl
      hsplit (by
        change _ ≤ 8 * p.value.dropLast.length
        omega)
    rw [if_neg hnil]
    rw [encodeAll_split] at hpreserved
    have hdecrement : UInt8.ofNat p.value.length - 1 = UInt8.ofNat p.value.dropLast.length := by
      rw [hlength, UInt8.ofNat_add]
      exact UInt8.add_sub_cancel _ _
    rw [hdecrement]
    exact hpreserved

/-- When what `removeZero` makes of the last user data preserves the message. -/
theorem removeLastZero_preserves_iff :
    (∃ result, removeLastZero (encodeAll (before ++ p :: after)) ((encodeAll before).length + 2)
        p.value.length = .ok result ∧ Preserved (before ++ p :: after) result) ↔
      ZeroIsFree p.value (encodeAll after) := by
  have hdata := encodeAll_split before p after
  rw [hp] at hdata
  have hkept : removeLastZero (encodeAll (before ++ p :: after)) ((encodeAll before).length + 2)
      p.value.length = .ok (encodeAll (before ++ p :: after)) → ∃ result,
        removeLastZero (encodeAll (before ++ p :: after)) ((encodeAll before).length + 2)
          p.value.length = .ok result ∧ Preserved (before ++ p :: after) result :=
    fun h => ⟨_, h, .unchanged⟩
  cases hencoding : p.value ++ encodeAll after with
  | nil =>
    refine iff_of_false ?_ ?_
    · rintro ⟨result, h, -⟩
      have hnone := getElem?_userData hdata 0
      rw [hencoding] at hnone
      rw [removeLastZero, show (encodeAll (before ++ p :: after))[_ + 2]? = none from hnone] at h
      cases h
    · rintro ⟨encoding, rest, h, -⟩
      rw [hencoding] at h
      cases h
  | cons encoding rest =>
    have hfree : ZeroIsFree p.value (encodeAll after) ↔
        (encoding &&& 0xF8 = 0x10 → p.value.getLastD 0 = 0 →
          5 + 8 + 7 * (numFields (p.value ++ encodeAll after)).toNat + 8 ≤ 8 * p.value.length ∨
            reservedBits p.value.length (numFields (p.value ++ encodeAll after)) < 8) := by
      constructor
      · rintro ⟨encoding', rest', h, hfree⟩
        obtain ⟨rfl, rfl⟩ := List.cons_eq_cons.mp (hencoding.symm.trans h)
        exact hfree
      · exact fun h => ⟨encoding, rest, hencoding, h⟩
    rw [hfree]
    by_cases hascii : encoding &&& 0xF8 = 0x10
    · by_cases hlast : p.value.getLastD 0 = 0
      · obtain ⟨hrest, hvalue⟩ :=
          octets_of_ascii hencoding hascii hlast (length_encodeAll_ne_one after)
        by_cases hreserved :
            reservedBits p.value.length (numFields (p.value ++ encodeAll after)) < 8
        · exact iff_of_true (hkept (removeLastZero_kept hdata hencoding
            (.inr (.inr ⟨hrest, hreserved⟩)))) fun _ _ => .inr hreserved
        · obtain ⟨second, rest', rfl⟩ := List.exists_cons_of_ne_nil hrest
          rw [removeLastZero_removed hdata hencoding hascii hlast hreserved]
          have hremoved := preserved_removed_iff before hp hafter hvalue hlast
          constructor
          · rintro ⟨result, h, hpreserved⟩ - -
            cases h
            exact .inl (hremoved.mp hpreserved)
          · exact fun h => ⟨_, rfl, hremoved.mpr ((h hascii hlast).resolve_right hreserved)⟩
      · exact iff_of_true (hkept (removeLastZero_kept hdata hencoding (.inr (.inl hlast))))
          fun _ h => absurd h hlast
    · exact iff_of_true (hkept (removeLastZero_kept hdata hencoding (.inl hascii)))
        fun h => absurd h hascii

end Parameters

/-- What `removeZero` does with what the walk has found. -/
def leftOf (data : List UInt8) : UserData → Except CdmaFault (List UInt8)
  | none => .ok data
  | some (userDataPos, userDataLen) => removeLastZero data userDataPos userDataLen

/-- What `removeZero` ends with, when the walk is known. -/
theorem removeZero_ends_iff {data : List UInt8} (hn : data.length ≤ 255) {userData : UserData}
    (h : ZeroParams data 0 none userData) {P : List UInt8 → Prop} :
    (∃ turns result, removeZero turns data = some (.ok result) ∧ P result) ↔
      ∃ result, leftOf data userData = .ok result ∧ P result := by
  obtain ⟨turns, hloop⟩ := zero_total hn h 0 rfl
  constructor
  · rintro ⟨turns', result, hresult, hP⟩
    obtain ⟨r, hloop', hr⟩ := Option.map_eq_some_iff.mp hresult
    rw [← loop_unique hloop hloop'] at hr
    exact ⟨result, hr, hP⟩
  · rintro ⟨result, hresult, hP⟩
    refine ⟨turns, result, ?_, hP⟩
    rw [removeZero, hloop]
    exact congrArg some hresult

/-- **When `removeZero` preserves the message.**  For every sequence of subparameters of at most 255
octets, what is left is all of the message or all but a zero that its user data does not need, exactly
if there is a header, or the zero at the end of the last user data is free. -/
theorem removeZero_preserves_iff {params : List Subparameter}
    (hn : (encodeAll params).length ≤ 255) :
    (∃ turns result, removeZero turns (encodeAll params) = some (.ok result) ∧
      Preserved params result) ↔ LastZeroFree params := by
  have hwalk := zeroParams_encodeAll hn [] params rfl none
  rw [List.length_nil] at hwalk
  by_cases hheader : ∃ p ∈ params, p.HasHeader
  · rw [lastUserData_header hheader] at hwalk
    exact iff_of_true ((removeZero_ends_iff hn hwalk).mpr ⟨_, rfl, .unchanged⟩) (.inl hheader)
  · have hheader' : ∀ p ∈ params, ¬ p.HasHeader := fun p hp h => hheader ⟨p, hp, h⟩
    rcases userData_cases params with hother | ⟨before, p, after, rfl, hp, hafter⟩
    · rw [lastUserData_none hheader' hother] at hwalk
      refine iff_of_true ((removeZero_ends_iff hn hwalk).mpr ⟨_, rfl, .unchanged⟩) (.inr ?_)
      rintro before p after rfl hp
      exact absurd hp (hother p (List.mem_append_right _ List.mem_cons_self))
    · rw [lastUserData_split hheader' hp hafter, Nat.zero_add] at hwalk
      refine (removeZero_ends_iff hn hwalk).trans ((removeLastZero_preserves_iff hp hafter).trans ?_)
      constructor
      · refine fun hfree => .inr fun before' p' after' h hp' hafter' => ?_
        rcases userData_unique h hp' hafter with ⟨-, rfl, rfl⟩ | ⟨mid, rfl⟩
        · exact hfree
        · rw [List.append_assoc] at h
          obtain ⟨-, rfl⟩ := List.cons_eq_cons.mp (List.append_cancel_left h)
          exact absurd hp (hafter' p (List.mem_append_right _ List.mem_cons_self))
      · intro h
        rcases h with h | h
        · exact absurd h hheader
        · exact h before p after rfl hp hafter

/-- A character in three octets, and a zero behind them that is taken out. -/
theorem lastZeroFree_character :
    LastZeroFree [⟨0, [16, 0, 0], by decide⟩, ⟨1, [0x10, 0x0A, 0x10, 0], by decide⟩] := by
  refine (removeZero_preserves_iff (by decide)).mp
    ⟨3, [0, 3, 16, 0, 0, 1, 3, 0x10, 0x0A, 0x10], by decide, ?_⟩
  have hparams : [⟨0, [16, 0, 0], by decide⟩, ⟨1, [0x10, 0x0A, 0x10, 0], by decide⟩] =
      [⟨0, [16, 0, 0], by decide⟩] ++ (⟨1, [0x10, 0x0A, 0x10, 0], by decide⟩ : Subparameter) :: [] :=
    rfl
  exact .shortened (q := ⟨1, [0x10, 0x0A, 0x10], by decide⟩) hparams rfl rfl rfl (by decide)

/-- User data of two octets that announces 32 characters loses its second octet. -/
theorem not_preserves_announced : ¬ ∀ params : List Subparameter, (encodeAll params).length ≤ 255 →
    ∃ turns result, removeZero turns (encodeAll params) = some (.ok result) ∧
      Preserved params result := by
  intro h
  obtain ⟨turns, result, hresult, hpreserved⟩ := h [⟨1, [0x11, 0], by decide⟩] (by decide)
  have hrun : removeZero 2 (encodeAll [⟨1, [0x11, 0], by decide⟩]) = some (.ok [1, 1, 0x11]) := by
    decide
  obtain ⟨r, hloop, hr⟩ := Option.map_eq_some_iff.mp hresult
  obtain ⟨r', hloop', hr'⟩ := Option.map_eq_some_iff.mp hrun
  rw [loop_unique hloop hloop', hr'] at hr
  cases hr
  change Preserved ([] ++ ⟨1, [0x11, 0], by decide⟩ :: []) (encodeAll [] ++ [1, 1, 0x11])
    at hpreserved
  obtain ⟨q, hq, hroom⟩ := hpreserved.of_front (by decide) fun _ hq => absurd hq List.not_mem_nil
  have hlength := congrArg List.length hq
  rw [List.length_append] at hlength
  change 13 + 7 * 32 ≤ _ at hroom
  change 2 = q.value.length + 1 at hlength
  omega

end MtkHw.Sms
