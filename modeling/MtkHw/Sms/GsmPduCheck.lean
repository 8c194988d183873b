import MtkHw.Sms.GsmDcs

/-!
# The check of a GSM PDU

`smsDeliverPduCheck` and `smsSubmitPduCheck` turn the digits of a PDU into an array of octets and walk
over its fields: the address of the service centre, the first octet, the address of the other party,
fixed fields, and the user data, whose length must be the rest of the array.  The position is moved on
by lengths that are read from the array, and compared with its size only at the end.

A PDU that is accepted is covered by its fields (`covers_of_deliver`, `covers_of_submit`).
`pduChecks_iff` is the result: the checks stay inside of the array exactly when each octet that they
come to lies in the PDU.
-/

namespace MtkHw.Sms

/-- `pdu_array` -/
def pduArray (pdu : List Char) : List Int :=
  (List.range (pdu.length / 2)).map fun i => smsHexCharToDecInt (pdu.drop (2 * i)) 2

/-- `pdu_array[off]`, when it lies in the array. -/
def pduAt (pdu_array : List Int) (off : Int) : Option Int :=
  if 0 ≤ off then pdu_array[off.toNat]? else none

/-- The bits of an `int`. -/
abbrev intBits (x : Int) : BitVec 32 := BitVec.ofInt 32 x

/-- What a check returns, and what it writes to `error_cause`. -/
abbrev PduVerdict := Bool × TpduErrorCause

/-- The end of both checks: the user data is the rest of the PDU. -/
def checkUserData (half : Nat) (off : Int) (dcs udl : Int) : PduVerdict :=
  let udl := UInt8.ofInt udl
  let user_data_len := UInt8.ofNat (smsMsgLenInOctet (intBits dcs) udl.toNat)
  if TPDU_ONE_MSG_OCTET < user_data_len.toNat ∨ (user_data_len.toNat : Int) ≠ half - off then
    (false, .msgLenExceeded)
  else (true, .noError)

/-- Skips the length, the type and the digits of the address of a received PDU. -/
def skipAddress (off oa_len : Int) : Int :=
  if oa_len.tmod 2 > 0 then off + (1 + 1 + (oa_len + 1).tdiv 2) else off + (1 + 1 + oa_len.tdiv 2)

/-- The fields of a received PDU, of which there are `half` octets; none if the array is left. -/
def deliverFields (pdu_array : List Int) (half : Nat) : Option PduVerdict := do
  let sca_len ← pduAt pdu_array 0
  if sca_len > TPDU_MAX_ADDR_LEN then return (false, .noError)
  else
    let off : Int := 0 + (1 + sca_len)
    let fo ← pduAt pdu_array off
    if intBits fo &&& TPDU_MTI_BITS ≠ TPDU_MTI_DELIVER ∧
        intBits fo &&& TPDU_MTI_BITS ≠ TPDU_MTI_UNSPECIFIED then return (false, .noError)
    else
      let off := off + 1
      let oa_len ← pduAt pdu_array off
      if oa_len > (TPDU_MAX_ADDR_LEN - 1) * 2 then return (false, .noError)
      else
        let off := skipAddress off oa_len + 1
        let dcs ← pduAt pdu_array off
        let off := off + (1 + 7)
        let udl ← pduAt pdu_array off
        return checkUserData half (off + 1) dcs udl

/-- `smsDeliverPduCheck`; none if it reads outside of `pdu_array`. -/
def smsDeliverPduCheck (pdu : List Char) : Option PduVerdict :=
  if TPDU_MAX_TPDU_SIZE < pdu.length / 2 ∨ pdu.length = 0 then some (false, .msgLenExceeded)
  else deliverFields (pduArray pdu) (pdu.length / 2)

/-- The fields of a PDU that is sent, of which there are `half` octets; none if the array is left.  The
position has eight bits. -/
def submitFields (pdu_array : List Int) (half : Nat) : Option PduVerdict := do
  let sca_len ← pduAt pdu_array 0
  if sca_len > TPDU_MAX_ADDR_LEN then return (false, .noError)
  else
    let off : UInt8 := 0 + UInt8.ofInt (1 + sca_len)
    let fo ← pduAt pdu_array off.toNat
    if intBits fo &&& TPDU_MTI_BITS ≠ TPDU_MTI_SUBMIT then return (false, .noError)
    else if smsFoCheck (intBits fo) = false then return (false, .noError)
    else
      let off := off + 2
      let da_len ← pduAt pdu_array off.toNat
      if da_len > (TPDU_MAX_ADDR_LEN - 1) * 2 then return (false, .noError)
      else
        let off := off + UInt8.ofInt (1 + 1 + (da_len + 1).tdiv 2)
        let pid ← pduAt pdu_array off.toNat
        if smsPidCheck (intBits pid) = false then return (false, .noError)
        else
          let off := off + 1
          let dcs ← pduAt pdu_array off.toNat
          if smsDcsCheck (intBits dcs) = false then return (false, .noError)
          else
            let off := if (intBits fo &&& TPDU_VPF_BITS) >>> 3 = TPDU_VPF_RELATIVE then off + 2
              else off + 1
            let udl ← pduAt pdu_array off.toNat
            return checkUserData half (off + 1).toNat dcs udl

/-- `smsSubmitPduCheck`; none if it reads outside of `pdu_array`. -/
def smsSubmitPduCheck (pdu : List Char) : Option PduVerdict :=
  if TPDU_MAX_TPDU_SIZE < pdu.length / 2 ∨ pdu.length = 0 then some (false, .msgLenExceeded)
  else submitFields (pduArray pdu) (pdu.length / 2)

/-- `smsCheckReceivedPdu`; the length that is specified is only logged. -/
def smsCheckReceivedPdu (pdu : List Char) (check : Bool) : Option Int :=
  if pdu.length < 2 then some (-1)
  else if smsHexCharToDecInt pdu 2 < 0 then some (-1)
  else if check then
    (smsDeliverPduCheck pdu).map fun verdict => if verdict.1 = false then -1 else 0
  else some 0

/-! ## What is asked of the checks -/

/-- The bits of an octet, as an `int`. -/
abbrev octetBits (b : UInt8) : BitVec 32 := BitVec.ofNat 32 b.toNat

/-- The address digits of so many semi-octets. -/
def addressOctets (len : UInt8) : Nat := (len.toNat + 1) / 2

/-- The user data fills the octets that are announced. -/
structure UserDataCovers (dcs udl : UInt8) (userData : List UInt8) : Prop where
  announced : userData.length = smsMsgLenInOctet (octetBits dcs) udl.toNat
  short : userData.length ≤ TPDU_ONE_MSG_OCTET

/-- The announced fields cover a received PDU. -/
def CoversDeliver (octets : List UInt8) : Prop :=
  ∃ sca fo oaLen oaType oa pid dcs timestamp udl userData,
    octets = UInt8.ofNat sca.length :: sca ++ fo :: oaLen :: oaType :: oa ++
      pid :: dcs :: timestamp ++ udl :: userData ∧
    sca.length ≤ 11 ∧ oaLen ≤ 20 ∧ oa.length = addressOctets oaLen ∧ timestamp.length = 7 ∧
    UserDataCovers dcs udl userData

/-- The octets of a relative validity period, which the first octet announces. -/
def validityOctets (fo : UInt8) : Nat :=
  if (octetBits fo &&& TPDU_VPF_BITS) >>> 3 = TPDU_VPF_RELATIVE then 1 else 0

/-- The announced fields cover a PDU that is sent. -/
def CoversSubmit (octets : List UInt8) : Prop :=
  ∃ sca fo reference daLen daType da pid dcs validity udl userData,
    octets = UInt8.ofNat sca.length :: sca ++ fo :: reference :: daLen :: daType :: da ++
      pid :: dcs :: validity ++ udl :: userData ∧
    sca.length ≤ 11 ∧ daLen ≤ 20 ∧ da.length = addressOctets daLen ∧
    validity.length = validityOctets fo ∧ UserDataCovers dcs udl userData

/-- What is asked of a check: it ends without leaving the array, and what it accepts is covered. -/
structure PduCheckOk (verdict : Option PduVerdict) (covers : Prop) : Prop where
  inside : ∃ v, verdict = some v
  covered : ∀ cause, verdict = some (true, cause) → covers

/-! ## When a check stays inside -/

section Positions

variable (octets : List UInt8)

/-- The octet at a position. -/
abbrev octetAt (pos : Nat) : UInt8 := octets.getD pos 0

/-- Where the first octet stands, behind the address of the service centre. -/
def foPos : Nat := 1 + (octetAt octets 0).toNat

/-- The first octet of a received message. -/
def IsDeliver (fo : UInt8) : Prop :=
  octetBits fo &&& TPDU_MTI_BITS = TPDU_MTI_DELIVER ∨
    octetBits fo &&& TPDU_MTI_BITS = TPDU_MTI_UNSPECIFIED

/-- The first octet of a message that can be sent. -/
def IsSubmit (fo : UInt8) : Prop :=
  octetBits fo &&& TPDU_MTI_BITS = TPDU_MTI_SUBMIT ∧ smsFoCheck (octetBits fo) = true

/-- What follows an address whose length stands at a position. -/
def behindAddress (pos : Nat) : Nat := pos + 2 + addressOctets (octetAt octets pos)

/-- Each octet that the check of a received PDU comes to lies in the PDU. -/
def DeliverInside : Prop :=
  0 < octets.length ∧ (octetAt octets 0 ≤ 11 →
    foPos octets < octets.length ∧ (IsDeliver (octetAt octets (foPos octets)) →
      foPos octets + 1 < octets.length ∧ (octetAt octets (foPos octets + 1) ≤ 20 →
        behindAddress octets (foPos octets + 1) + 9 < octets.length)))

/-- Where the identifier of the protocol stands in a PDU that is sent. -/
def pidPos : Nat := behindAddress octets (foPos octets + 2)

/-- Each octet that the check of a PDU that is sent comes to lies in the PDU. -/
def SubmitInside : Prop :=
  0 < octets.length ∧ (octetAt octets 0 ≤ 11 →
    foPos octets < octets.length ∧ (IsSubmit (octetAt octets (foPos octets)) →
      foPos octets + 2 < octets.length ∧ (octetAt octets (foPos octets + 2) ≤ 20 →
        pidPos octets < octets.length ∧
          (smsPidCheck (octetBits (octetAt octets (pidPos octets))) = true →
            pidPos octets + 1 < octets.length ∧
              (smsDcsCheck (octetBits (octetAt octets (pidPos octets + 1))) = true →
                pidPos octets + 2 + validityOctets (octetAt octets (foPos octets)) <
                  octets.length)))))

/-- The array of the octets. -/
abbrev octetArray : List Int := octets.map fun b => (b.toNat : Int)

end Positions

/-- The array of a PDU of hex digits. -/
theorem pduArray_eq {pdu : List Char} (h : IsHex pdu) : pduArray pdu = octetArray (textOctets pdu) := by
  induction pdu using textOctets.induct with
  | case1 high low text ih =>
    have htext : IsHex text := fun c hc => h c (List.mem_cons_of_mem _ (List.mem_cons_of_mem _ hc))
    have hlength : (high :: low :: text).length / 2 = text.length / 2 + 1 := by
      simp only [List.length_cons]
      omega
    rw [textOctets, octetArray, List.map_cons, ← octetArray, ← ih htext, pduArray, hlength,
      List.range_succ_eq_map, List.map_cons, List.map_map]
    congr 1
    exact smsHexCharToDecInt_pair h
  | case2 text hshort =>
    have hnil : textOctets text = [] := by
      rw [textOctets]
      exact hshort
    have hzero := RmcTlvNode.length_textOctets text
    rw [hnil, List.length_nil] at hzero
    rw [hnil, pduArray, ← hzero]
    rfl

section Inside

variable {octets : List UInt8}

/-- Reading an octet. -/
theorem pduAt_octets {off : Int} {pos : Nat} (hoff : off = pos) :
    pduAt (octetArray octets) off =
      if pos < octets.length then some ((octetAt octets pos).toNat : Int) else none := by
  subst hoff
  rw [pduAt, if_pos (Int.natCast_nonneg _), Int.toNat_natCast, List.getElem?_map]
  split_ifs with hpos
  · rw [List.getElem?_eq_getElem hpos, octetAt, List.getD_eq_getElem _ _ hpos]
    rfl
  · rw [List.getElem?_eq_none (Nat.le_of_not_lt hpos)]
    rfl

/-- A result behind an octet that is read. -/
theorem read_eq_some_iff {off : Int} {pos : Nat} (hoff : off = pos) {k : Int → Option PduVerdict}
    {v : PduVerdict} : (pduAt (octetArray octets) off >>= k) = some v ↔
      pos < octets.length ∧ k (octetAt octets pos).toNat = some v := by
  rw [pduAt_octets hoff]
  split_ifs with hpos
  · exact (and_iff_right hpos).symm
  · exact iff_of_false nofun fun h => hpos h.1

/-- There is a result behind an octet that is read. -/
theorem read_ends_iff {off : Int} {pos : Nat} (hoff : off = pos) {k : Int → Option PduVerdict} :
    (∃ v, (pduAt (octetArray octets) off >>= k) = some v) ↔
      pos < octets.length ∧ ∃ v, k (octetAt octets pos).toNat = some v := by
  simp only [read_eq_some_iff hoff, exists_and_left]

/-- There is a result where the check may refuse. -/
theorem refuse_ends_iff {c : Prop} [Decidable c] {v₀ : PduVerdict} {rest : Option PduVerdict} :
    (∃ v, (if c then some v₀ else rest) = some v) ↔ (¬ c → ∃ v, rest = some v) := by
  split_ifs with h
  · exact iff_of_true ⟨v₀, rfl⟩ fun hnot => absurd h hnot
  · exact ⟨fun hv _ => hv, fun hv => hv h⟩

/-- The check accepts only where it does not refuse. -/
theorem refuse_accepts_iff {c : Prop} [Decidable c] {cause cause' : TpduErrorCause}
    {rest : Option PduVerdict} :
    (if c then some (false, cause') else rest) = some (true, cause) ↔
      ¬ c ∧ rest = some (true, cause) := by
  split_ifs with h
  · exact iff_of_false (fun heq => by cases heq) fun hnot => hnot.1 h
  · exact (and_iff_right h).symm

/-! ### The conditions of the code on octets -/

/-- The bits of an octet in the array. -/
theorem intBits_octet (b : UInt8) : intBits (b.toNat : Int) = octetBits b := BitVec.ofInt_natCast _ _

theorem scaLen_iff (b : UInt8) : ¬ ((b.toNat : Int) > TPDU_MAX_ADDR_LEN) ↔ b ≤ 11 := by
  rw [UInt8.le_iff_toNat_le]
  change ¬ ((b.toNat : Int) > 11) ↔ b.toNat ≤ 11
  omega

theorem addressLen_iff (b : UInt8) :
    ¬ ((b.toNat : Int) > (TPDU_MAX_ADDR_LEN - 1) * 2) ↔ b ≤ 20 := by
  rw [UInt8.le_iff_toNat_le]
  change ¬ ((b.toNat : Int) > 20) ↔ b.toNat ≤ 20
  omega

theorem foDeliver_iff (b : UInt8) : ¬ (intBits (b.toNat : Int) &&& TPDU_MTI_BITS ≠ TPDU_MTI_DELIVER ∧
    intBits (b.toNat : Int) &&& TPDU_MTI_BITS ≠ TPDU_MTI_UNSPECIFIED) ↔ IsDeliver b := by
  rw [intBits_octet, ne_eq, ne_eq, ← not_or, not_not]
  rfl

variable (octets) in
/-- The position behind the address, as the check of a received PDU computes it. -/
theorem skipAddress_eq {off : Int} {pos : Nat} (hoff : off = pos) :
    skipAddress off (octetAt octets pos).toNat = (behindAddress octets pos : Nat) := by
  rw [skipAddress, behindAddress, addressOctets, hoff]
  generalize (octetAt octets pos).toNat = len
  have hnonneg : (0 : Int) ≤ len := Int.natCast_nonneg _
  rw [Int.tmod_eq_emod_of_nonneg hnonneg, Int.tdiv_eq_ediv_of_nonneg hnonneg,
    Int.tdiv_eq_ediv_of_nonneg (by omega)]
  split_ifs with hodd
  · omega
  · omega

variable (octets) in
/-- The positions of a received PDU, as the check computes them. -/
structure DeliverOffsets : Prop where
  fo : (0 : Int) + (1 + ((octetAt octets 0).toNat : Int)) = (foPos octets : Nat)
  oaLen : (0 : Int) + (1 + ((octetAt octets 0).toNat : Int)) + 1 = (foPos octets + 1 : Nat)
  dcs : skipAddress (0 + (1 + ((octetAt octets 0).toNat : Int)) + 1)
    (octetAt octets (foPos octets + 1)).toNat + 1 =
      (behindAddress octets (foPos octets + 1) + 1 : Nat)
  udl : skipAddress (0 + (1 + ((octetAt octets 0).toNat : Int)) + 1)
    (octetAt octets (foPos octets + 1)).toNat + 1 + (1 + 7) =
      (behindAddress octets (foPos octets + 1) + 9 : Nat)

variable (octets) in
theorem deliverOffsets : DeliverOffsets octets := by
  have hfo : (0 : Int) + (1 + ((octetAt octets 0).toNat : Int)) = (foPos octets : Nat) := by
    rw [foPos]
    omega
  have hoa : (0 : Int) + (1 + ((octetAt octets 0).toNat : Int)) + 1 = (foPos octets + 1 : Nat) := by
    rw [hfo]
    rfl
  have hbehind := skipAddress_eq octets hoa
  refine ⟨hfo, hoa, ?_, ?_⟩
  · rw [hbehind]
    rfl
  · rw [hbehind]
    omega

/-- **The check of a received PDU** ends without leaving the array exactly if each octet that it comes
to lies in the PDU. -/
theorem deliverFields_ends_iff (half : Nat) :
    (∃ v, deliverFields (octetArray octets) half = some v) ↔ DeliverInside octets := by
  obtain ⟨hfo, hoa, hdcs, hudl⟩ := deliverOffsets octets
  refine (read_ends_iff rfl).trans (and_congr_right fun _ => ?_)
  refine refuse_ends_iff.trans (imp_congr (scaLen_iff _) ?_)
  refine (read_ends_iff hfo).trans (and_congr_right fun _ => ?_)
  refine refuse_ends_iff.trans (imp_congr (foDeliver_iff _) ?_)
  refine (read_ends_iff hoa).trans (and_congr_right fun _ => ?_)
  refine refuse_ends_iff.trans (imp_congr (addressLen_iff _) ?_)
  refine (read_ends_iff hdcs).trans ((and_congr_right fun _ => read_ends_iff hudl).trans ?_)
  constructor
  · exact fun h => h.2.1
  · exact fun h => ⟨by omega, h, _, rfl⟩

/-- A received PDU that is accepted has passed every comparison. -/
theorem deliverFields_accepts {half : Nat} {cause : TpduErrorCause}
    (h : deliverFields (octetArray octets) half = some (true, cause)) :
    0 < octets.length ∧ octetAt octets 0 ≤ 11 ∧ octetAt octets (foPos octets + 1) ≤ 20 ∧
      behindAddress octets (foPos octets + 1) + 9 < octets.length ∧
      checkUserData half (behindAddress octets (foPos octets + 1) + 10 : Nat)
        (octetAt octets (behindAddress octets (foPos octets + 1) + 1)).toNat
        (octetAt octets (behindAddress octets (foPos octets + 1) + 9)).toNat = (true, cause) := by
  obtain ⟨hfo, hoa, hdcs, hudl⟩ := deliverOffsets octets
  obtain ⟨hsca, h⟩ := (read_eq_some_iff rfl).mp h
  obtain ⟨hscaLen, h⟩ := refuse_accepts_iff.mp h
  obtain ⟨-, h⟩ := (read_eq_some_iff hfo).mp h
  obtain ⟨-, h⟩ := refuse_accepts_iff.mp h
  obtain ⟨-, h⟩ := (read_eq_some_iff hoa).mp h
  obtain ⟨hoaLen, h⟩ := refuse_accepts_iff.mp h
  obtain ⟨-, h⟩ := (read_eq_some_iff hdcs).mp h
  obtain ⟨hlast, h⟩ := (read_eq_some_iff hudl).mp h
  refine ⟨hsca, (scaLen_iff _).mp hscaLen, (addressLen_iff _).mp hoaLen, hlast, ?_⟩
  have hend := Option.some.inj h
  rw [hudl] at hend
  exact hend

theorem ofInt_natCast (m : Nat) : UInt8.ofInt (m : Int) = UInt8.ofNat m := by
  have hmod : ((m : Int) % 2 ^ 8) = ((m % 2 ^ 8 : Nat) : Int) := by omega
  apply UInt8.toNat_inj.mp
  rw [UInt8.ofInt, UInt8.toNat_ofNat', UInt8.toNat_ofNat', hmod, Int.toNat_natCast, Nat.mod_mod]

/-- Moving on a position of eight bits. -/
theorem offset_add {off : UInt8} {k : Int} {m pos : Nat} (hk : k = m) (hpos : off.toNat = pos)
    (h : pos + m < 256) : (off + UInt8.ofInt k).toNat = pos + m := by
  have hm : m < 2 ^ 8 := by omega
  rw [hk, ofInt_natCast, UInt8.toNat_add, UInt8.toNat_ofNat', hpos, Nat.mod_eq_of_lt hm,
    Nat.mod_eq_of_lt h]

/-- The position of the first octet of a PDU that is sent. -/
theorem submit_foPos (h : octetAt octets 0 ≤ 11) :
    (0 + UInt8.ofInt (1 + ((octetAt octets 0).toNat : Int))).toNat = foPos octets ∧
      foPos octets ≤ 12 := by
  rw [UInt8.le_iff_toNat_le] at h
  change _ ≤ 11 at h
  have hfo : (1 + ((octetAt octets 0).toNat : Int)) = (1 + (octetAt octets 0).toNat : Nat) := by
    omega
  have hadd := offset_add hfo (show (0 : UInt8).toNat = 0 from rfl) (by omega)
  rw [Nat.zero_add] at hadd
  exact ⟨hadd, by rw [foPos]; omega⟩

/-- The position behind the address of a PDU that is sent. -/
theorem submit_behindAddress {off : UInt8} {pos : Nat} (hoff : off.toNat = pos) (hpos : pos ≤ 14)
    (h : octetAt octets pos ≤ 20) :
    (off + UInt8.ofInt (1 + 1 + (((octetAt octets pos).toNat : Int) + 1).tdiv 2)).toNat =
      behindAddress octets pos ∧ behindAddress octets pos ≤ 26 := by
  rw [UInt8.le_iff_toNat_le] at h
  change _ ≤ 20 at h
  have hlen : (1 + 1 + (((octetAt octets pos).toNat : Int) + 1).tdiv 2) =
      (2 + addressOctets (octetAt octets pos) : Nat) := by
    rw [addressOctets, Int.tdiv_eq_ediv_of_nonneg (by omega)]
    omega
  have hshort : addressOctets (octetAt octets pos) ≤ 10 := by
    rw [addressOctets]
    omega
  have hadd := offset_add hlen hoff (by omega)
  rw [← Nat.add_assoc] at hadd
  exact ⟨hadd, by rw [behindAddress]; omega⟩

/-- A small step of a position. -/
theorem offset_step {off : UInt8} {pos : Nat} (hoff : off.toNat = pos) (hpos : pos ≤ 200) :
    (off + 1).toNat = pos + 1 ∧ (off + 2).toNat = pos + 2 := by
  rw [UInt8.toNat_add, UInt8.toNat_add, hoff]
  exact ⟨Nat.mod_eq_of_lt (by change pos + 1 < 256; omega),
    Nat.mod_eq_of_lt (by change pos + 2 < 256; omega)⟩

theorem foSubmit_iff (b : UInt8) :
    (¬ intBits (b.toNat : Int) &&& TPDU_MTI_BITS ≠ TPDU_MTI_SUBMIT ∧
      ¬ smsFoCheck (intBits (b.toNat : Int)) = false) ↔ IsSubmit b := by
  rw [intBits_octet, not_not, Bool.not_eq_false]
  rfl

/-- A check that must not be false. -/
theorem octetCheck_iff (check : BitVec 32 → Bool) (b : UInt8) :
    ¬ check (intBits (b.toNat : Int)) = false ↔ check (octetBits b) = true := by
  rw [intBits_octet, Bool.not_eq_false]

/-- The step over the validity period. -/
theorem validity_step {off : UInt8} {pos : Nat} (hoff : off.toNat = pos) (hpos : pos ≤ 200)
    (fo : UInt8) :
    (if (intBits (fo.toNat : Int) &&& TPDU_VPF_BITS) >>> 3 = TPDU_VPF_RELATIVE then off + 2
      else off + 1).toNat = pos + 1 + validityOctets fo := by
  obtain ⟨hone, htwo⟩ := offset_step hoff hpos
  rw [validityOctets, intBits_octet]
  split_ifs
  · exact htwo
  · exact hone

/-- **The check of a PDU that is sent** ends without leaving the array exactly if each octet that it
comes to lies in the PDU. -/
theorem submitFields_ends_iff (half : Nat) :
    (∃ v, submitFields (octetArray octets) half = some v) ↔ SubmitInside octets := by
  refine (read_ends_iff rfl).trans (and_congr_right fun _ => ?_)
  refine refuse_ends_iff.trans (imp_congr_ctx (scaLen_iff _) fun hscaLen => ?_)
  obtain ⟨hfo, hfoPos⟩ := submit_foPos hscaLen
  refine (read_ends_iff (congrArg Nat.cast hfo)).trans (and_congr_right fun _ => ?_)
  refine refuse_ends_iff.trans ((imp_congr_right fun _ => refuse_ends_iff).trans
    (and_imp.symm.trans (imp_congr (foSubmit_iff _) ?_)))
  have hda := (offset_step hfo (by omega)).2
  refine (read_ends_iff (congrArg Nat.cast hda)).trans (and_congr_right fun _ => ?_)
  refine refuse_ends_iff.trans (imp_congr_ctx (addressLen_iff _) fun hdaLen => ?_)
  obtain ⟨hpid, hpidPos⟩ := submit_behindAddress hda (by omega) hdaLen
  rw [← pidPos] at hpid hpidPos
  refine (read_ends_iff (congrArg Nat.cast hpid)).trans (and_congr_right fun _ => ?_)
  refine refuse_ends_iff.trans (imp_congr (octetCheck_iff smsPidCheck _) ?_)
  have hdcs := (offset_step hpid (by omega)).1
  refine (read_ends_iff (congrArg Nat.cast hdcs)).trans (and_congr_right fun _ => ?_)
  refine refuse_ends_iff.trans (imp_congr (octetCheck_iff smsDcsCheck _) ?_)
  have hudl := validity_step hdcs (by omega) (octetAt octets (foPos octets))
  refine (read_ends_iff (congrArg Nat.cast hudl)).trans ?_
  exact and_iff_left ⟨_, rfl⟩

/-- A PDU to be sent that is accepted has passed every comparison. -/
theorem submitFields_accepts {half : Nat} {cause : TpduErrorCause}
    (h : submitFields (octetArray octets) half = some (true, cause)) :
    0 < octets.length ∧ octetAt octets 0 ≤ 11 ∧ octetAt octets (foPos octets + 2) ≤ 20 ∧
      pidPos octets + 2 + validityOctets (octetAt octets (foPos octets)) < octets.length ∧
      checkUserData half
        (pidPos octets + 3 + validityOctets (octetAt octets (foPos octets)) : Nat)
        (octetAt octets (pidPos octets + 1)).toNat
        (octetAt octets (pidPos octets + 2 +
          validityOctets (octetAt octets (foPos octets)))).toNat = (true, cause) := by
  obtain ⟨hsca, h⟩ := (read_eq_some_iff rfl).mp h
  obtain ⟨hscaLen, h⟩ := refuse_accepts_iff.mp h
  obtain ⟨hfo, hfoPos⟩ := submit_foPos ((scaLen_iff _).mp hscaLen)
  obtain ⟨-, h⟩ := (read_eq_some_iff (congrArg Nat.cast hfo)).mp h
  obtain ⟨-, h⟩ := refuse_accepts_iff.mp h
  obtain ⟨-, h⟩ := refuse_accepts_iff.mp h
  have hda := (offset_step hfo (by omega)).2
  obtain ⟨-, h⟩ := (read_eq_some_iff (congrArg Nat.cast hda)).mp h
  obtain ⟨hdaLen, h⟩ := refuse_accepts_iff.mp h
  obtain ⟨hpid, hpidPos⟩ := submit_behindAddress hda (by omega) ((addressLen_iff _).mp hdaLen)
  rw [← pidPos] at hpid hpidPos
  obtain ⟨-, h⟩ := (read_eq_some_iff (congrArg Nat.cast hpid)).mp h
  obtain ⟨-, h⟩ := refuse_accepts_iff.mp h
  have hdcs := (offset_step hpid (by omega)).1
  obtain ⟨-, h⟩ := (read_eq_some_iff (congrArg Nat.cast hdcs)).mp h
  obtain ⟨-, h⟩ := refuse_accepts_iff.mp h
  have hudl := validity_step hdcs (by omega) (octetAt octets (foPos octets))
  obtain ⟨hlast, h⟩ := (read_eq_some_iff (congrArg Nat.cast hudl)).mp h
  refine ⟨hsca, (scaLen_iff _).mp hscaLen, (addressLen_iff _).mp hdaLen, hlast, ?_⟩
  have hshort : validityOctets (octetAt octets (foPos octets)) ≤ 1 := by
    rw [validityOctets]
    split
    · exact Nat.le_refl _
    · exact Nat.zero_le _
  have hend := Option.some.inj h
  rw [(offset_step hudl (by omega)).1] at hend
  rw [← hend]
  congr 2
  omega

end Inside

/-! ## What is accepted -/

/-- The user data of an accepted PDU is the rest of its octets. -/
theorem checkUserData_accepts {half pos : Nat} {dcs udl : UInt8} {cause : TpduErrorCause}
    (h : checkUserData half pos dcs.toNat udl.toNat = (true, cause)) :
    smsMsgLenInOctet (octetBits dcs) udl.toNat ≤ TPDU_ONE_MSG_OCTET ∧
      half = pos + smsMsgLenInOctet (octetBits dcs) udl.toNat := by
  have hle := smsMsgLenInOctet_le (octetBits dcs) udl.toNat
  have hlt := udl.toNat_lt
  rw [checkUserData, intBits_octet, ofInt_natCast, UInt8.ofNat_toNat] at h
  rw [UInt8.toNat_ofNat', Nat.mod_eq_of_lt (Nat.lt_of_le_of_lt hle hlt)] at h
  split_ifs at h with hrefuse
  · cases h
  · rw [not_or, not_lt, not_not] at hrefuse
    exact ⟨hrefuse.1, by omega⟩

/-- An octet and what is behind it. -/
theorem drop_octet {octets : List UInt8} {pos : Nat} (h : pos < octets.length) :
    octets.drop pos = octetAt octets pos :: octets.drop (pos + 1) := by
  rw [List.drop_eq_getElem_cons h, octetAt, List.getD_eq_getElem _ _ h]

/-- A field and what is behind it. -/
theorem drop_field {octets : List UInt8} {pos len : Nat} (h : pos + len ≤ octets.length) :
    ∃ field, field.length = len ∧ octets.drop pos = field ++ octets.drop (pos + len) := by
  refine ⟨(octets.drop pos).take len, ?_, ?_⟩
  · rw [List.length_take_of_le]
    rw [List.length_drop]
    omega
  · rw [← List.drop_drop, List.take_append_drop]

/-- The octets from the address of the service centre on. -/
theorem drop_sca {octets : List UInt8} (h : foPos octets < octets.length) :
    ∃ sca, sca.length = (octetAt octets 0).toNat ∧
      octets = octetAt octets 0 :: (sca ++ octets.drop (foPos octets)) := by
  have hpos : 0 < octets.length := Nat.zero_lt_of_lt h
  obtain ⟨sca, hsca, hdrop⟩ := drop_field (Nat.le_of_lt h)
  have hfirst := drop_octet hpos
  rw [Nat.zero_add, hdrop] at hfirst
  exact ⟨sca, hsca, hfirst⟩

/-- The address at a position. -/
theorem drop_address {octets : List UInt8} {pos : Nat}
    (h : behindAddress octets pos ≤ octets.length) :
    ∃ addressType digits, digits.length = addressOctets (octetAt octets pos) ∧
      octets.drop pos = octetAt octets pos :: addressType ::
        (digits ++ octets.drop (behindAddress octets pos)) := by
  have hpos : pos + 2 + addressOctets (octetAt octets pos) ≤ octets.length := h
  obtain ⟨digits, hdigits, hdrop⟩ := drop_field hpos
  refine ⟨octetAt octets (pos + 1), digits, hdigits, ?_⟩
  rw [drop_octet (by omega), drop_octet (by omega), Nat.add_assoc pos 1 1, hdrop]
  rfl

/-- **A received PDU that is accepted** is covered by the fields that it announces. -/
theorem covers_of_deliver {octets : List UInt8} {cause : TpduErrorCause}
    (h : deliverFields (octetArray octets) octets.length = some (true, cause)) :
    CoversDeliver octets := by
  obtain ⟨-, hscaLen, hoaLen, hlast, hend⟩ := deliverFields_accepts h
  obtain ⟨hshort, hlength⟩ := checkUserData_accepts hend
  have hbehind : foPos octets + 3 ≤ behindAddress octets (foPos octets + 1) := by
    rw [behindAddress]
    omega
  have hfo : foPos octets < octets.length := by omega
  obtain ⟨sca, hsca, hoctets⟩ := drop_sca hfo
  have hlong : behindAddress octets (foPos octets + 1) ≤ octets.length := by omega
  obtain ⟨oaType, oa, hoa, haddress⟩ := drop_address hlong
  generalize hpid : behindAddress octets (foPos octets + 1) = pidPos at *
  have hpidPos : pidPos < octets.length := by omega
  have hdcs : pidPos + 1 < octets.length := by omega
  have htime : pidPos + 2 + 7 ≤ octets.length := by omega
  obtain ⟨timestamp, htimestamp, hfield⟩ := drop_field htime
  refine ⟨sca, octetAt octets (foPos octets), octetAt octets (foPos octets + 1), oaType, oa,
    octetAt octets pidPos, octetAt octets (pidPos + 1), timestamp, octetAt octets (pidPos + 9),
    octets.drop (pidPos + 10), ?_, ?_, hoaLen, hoa, htimestamp, ?_, ?_⟩
  · rw [drop_octet hfo, haddress, drop_octet hpidPos, drop_octet hdcs, hfield,
      drop_octet hlast] at hoctets
    rw [hsca, UInt8.ofNat_toNat]
    simp only [List.cons_append, List.append_assoc]
    exact hoctets
  · rw [hsca]
    exact UInt8.le_iff_toNat_le.mp hscaLen
  · rw [List.length_drop]
    omega
  · rw [List.length_drop]
    omega

/-- **A PDU to be sent that is accepted** is covered by the fields that it announces. -/
theorem covers_of_submit {octets : List UInt8} {cause : TpduErrorCause}
    (h : submitFields (octetArray octets) octets.length = some (true, cause)) :
    CoversSubmit octets := by
  obtain ⟨-, hscaLen, hdaLen, hlast, hend⟩ := submitFields_accepts h
  obtain ⟨hshort, hlength⟩ := checkUserData_accepts hend
  have hbehind : foPos octets + 4 ≤ behindAddress octets (foPos octets + 2) := by
    rw [behindAddress]
    omega
  rw [pidPos] at *
  have hfo : foPos octets < octets.length := by omega
  have hreference : foPos octets + 1 < octets.length := by omega
  obtain ⟨sca, hsca, hoctets⟩ := drop_sca hfo
  have hlong : behindAddress octets (foPos octets + 2) ≤ octets.length := by omega
  obtain ⟨daType, da, hda, haddress⟩ := drop_address hlong
  generalize hpid : behindAddress octets (foPos octets + 2) = pidPos at *
  have hpidPos : pidPos < octets.length := by omega
  have hdcs : pidPos + 1 < octets.length := by omega
  obtain ⟨validity, hvalidity, hfield⟩ := drop_field (Nat.le_of_lt hlast)
  refine ⟨sca, octetAt octets (foPos octets), octetAt octets (foPos octets + 1),
    octetAt octets (foPos octets + 2), daType, da, octetAt octets pidPos,
    octetAt octets (pidPos + 1), validity,
    octetAt octets (pidPos + 2 + validityOctets (octetAt octets (foPos octets))),
    octets.drop (pidPos + 2 + validityOctets (octetAt octets (foPos octets)) + 1), ?_, ?_, hdaLen,
    hda, hvalidity, ?_, ?_⟩
  · rw [drop_octet hfo, drop_octet hreference, haddress, drop_octet hpidPos, drop_octet hdcs,
      hfield, drop_octet hlast] at hoctets
    rw [hsca, UInt8.ofNat_toNat]
    simp only [List.cons_append, List.append_assoc]
    exact hoctets
  · rw [hsca]
    exact UInt8.le_iff_toNat_le.mp hscaLen
  · rw [List.length_drop]
    omega
  · rw [List.length_drop]
    omega

/-- A check that stays inside accepts only what is covered. -/
theorem pduCheckOk_iff {verdict : Option PduVerdict} {covers : Prop}
    (hcovers : ∀ cause, verdict = some (true, cause) → covers) :
    PduCheckOk verdict covers ↔ ∃ v, verdict = some v :=
  ⟨fun h => h.inside, fun h => ⟨h, hcovers⟩⟩

/-- A text that is refused for its length, before its octets are looked at. -/
def LengthRefused (pdu : List Char) : Prop := TPDU_MAX_TPDU_SIZE < pdu.length / 2 ∨ pdu.length = 0

/-- A check that walks over the fields of a text that has not been refused. -/
theorem lengthRefused_iff (pdu : List Char) {fields : Option PduVerdict} {inside : Prop}
    (hfields : (∃ v, fields = some v) ↔ inside) :
    (∃ v, (if TPDU_MAX_TPDU_SIZE < pdu.length / 2 ∨ pdu.length = 0 then
      some (false, .msgLenExceeded) else fields) = some v) ↔ LengthRefused pdu ∨ inside := by
  rw [refuse_ends_iff, hfields]
  exact or_iff_not_imp_left.symm

section Text

variable {pdu : List Char} (h : IsHex pdu)

include h

theorem smsDeliverPduCheck_ends_iff :
    (∃ v, smsDeliverPduCheck pdu = some v) ↔
      LengthRefused pdu ∨ DeliverInside (textOctets pdu) := by
  refine lengthRefused_iff pdu ?_
  rw [pduArray_eq h]
  exact deliverFields_ends_iff _

theorem smsSubmitPduCheck_ends_iff :
    (∃ v, smsSubmitPduCheck pdu = some v) ↔
      LengthRefused pdu ∨ SubmitInside (textOctets pdu) := by
  refine lengthRefused_iff pdu ?_
  rw [pduArray_eq h]
  exact submitFields_ends_iff _

/-- A received PDU that is accepted is covered. -/
theorem covers_of_smsDeliverPduCheck {cause : TpduErrorCause}
    (haccepts : smsDeliverPduCheck pdu = some (true, cause)) : CoversDeliver (textOctets pdu) := by
  obtain ⟨-, hfields⟩ := refuse_accepts_iff.mp haccepts
  rw [pduArray_eq h, ← RmcTlvNode.length_textOctets] at hfields
  exact covers_of_deliver hfields

/-- A PDU to be sent that is accepted is covered. -/
theorem covers_of_smsSubmitPduCheck {cause : TpduErrorCause}
    (haccepts : smsSubmitPduCheck pdu = some (true, cause)) : CoversSubmit (textOctets pdu) := by
  obtain ⟨-, hfields⟩ := refuse_accepts_iff.mp haccepts
  rw [pduArray_eq h, ← RmcTlvNode.length_textOctets] at hfields
  exact covers_of_submit hfields

/-- **When the checks of GSM PDUs are safe.**  For every text of hex digits, both checks end with a
verdict and without leaving the array, and accept only PDUs that are covered by the fields that they
announce, exactly if the text is empty, or too long, or each octet that they come to lies in the
PDU. -/
theorem pduChecks_iff :
    PduCheckOk (smsDeliverPduCheck pdu) (CoversDeliver (textOctets pdu)) ∧
        PduCheckOk (smsSubmitPduCheck pdu) (CoversSubmit (textOctets pdu)) ↔
      LengthRefused pdu ∨ DeliverInside (textOctets pdu) ∧ SubmitInside (textOctets pdu) := by
  rw [pduCheckOk_iff fun _ => covers_of_smsDeliverPduCheck h,
    pduCheckOk_iff fun _ => covers_of_smsSubmitPduCheck h, smsDeliverPduCheck_ends_iff h,
    smsSubmitPduCheck_ends_iff h, or_and_left]

/-- The callers ask for two digits at least before a received PDU is checked. -/
theorem smsCheckReceivedPdu_ends_iff :
    (∃ r, smsCheckReceivedPdu pdu true = some r) ↔
      pdu.length < 2 ∨ LengthRefused pdu ∨ DeliverInside (textOctets pdu) := by
  rw [← smsDeliverPduCheck_ends_iff h, smsCheckReceivedPdu]
  rw [if_pos rfl]
  split_ifs with hshort hsca
  · exact iff_of_true ⟨_, rfl⟩ (.inl hshort)
  · match pdu, h, hshort, hsca with
    | high :: low :: text, h, _, hsca =>
      rw [smsHexCharToDecInt_pair h] at hsca
      exact absurd hsca (Int.not_lt.mpr (Int.natCast_nonneg _))
    | [_], _, hshort, _ => exact absurd (Nat.lt_succ_self 1) hshort
    | [], _, hshort, _ => exact absurd Nat.zero_lt_two hshort
  · rw [or_iff_right hshort]
    constructor
    · rintro ⟨r, hr⟩
      obtain ⟨v, hv, -⟩ := Option.map_eq_some_iff.mp hr
      exact ⟨v, hv⟩
    · rintro ⟨v, hv⟩
      exact ⟨_, Option.map_eq_some_iff.mpr ⟨v, hv, rfl⟩⟩

end Text

/-- A message of one character that is sent to the number `1`. -/
theorem pduChecks_character :
    PduCheckOk (smsDeliverPduCheck "000100018101000001C1".toList)
        (CoversDeliver (textOctets "000100018101000001C1".toList)) ∧
      PduCheckOk (smsSubmitPduCheck "000100018101000001C1".toList)
        (CoversSubmit (textOctets "000100018101000001C1".toList)) := by
  refine (pduChecks_iff (by decide)).mpr (.inr ⟨?_, ?_⟩)
  · refine ⟨by decide, fun _ => ⟨by decide, fun h => ?_⟩⟩
    rcases h with h | h
    · exact absurd h (by decide)
    · exact absurd h (by decide)
  · exact ⟨by decide, fun _ => ⟨by decide, fun _ => ⟨by decide, fun _ => ⟨by decide,
      fun _ => ⟨by decide, fun _ => by decide⟩⟩⟩⟩⟩

/-- The PDU `00` ends where its first octet should be. -/
theorem not_pduChecks_short : ¬ ∀ pdu : List Char, IsHex pdu →
    PduCheckOk (smsDeliverPduCheck pdu) (CoversDeliver (textOctets pdu)) ∧
      PduCheckOk (smsSubmitPduCheck pdu) (CoversSubmit (textOctets pdu)) := by
  intro h
  obtain ⟨v, hv⟩ := (h ['0', '0'] (by decide)).1.inside
  have hnone : smsDeliverPduCheck ['0', '0'] = none := by decide
  rw [hnone] at hv
  cases hv

end MtkHw.Sms
