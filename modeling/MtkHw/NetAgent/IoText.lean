import MtkHw.NetAgent.IoRecv

/-!
# The network agent: addresses as text

`netagent_io_send` writes the address of an `ipupdate` command group by group into a buffer of 512
characters, and `netagent_io_ipv4_str2bin` and `netagent_io_ipv6_str2bin` read the groups of an
address again.

What is written is read back (`sendIpupdate_roundTrip`).  The other way round the functions take
more than an address: they look at as many groups as the address has and keep the low byte of what
`strtoul` makes of each.  `ioText_iff` says for which texts they are exact.
-/

namespace MtkHw.NetAgent

open Lib

/-! ## What is sent -/

/-- The size of `cmd_buf`. -/
def cmdBufSize : Nat := 512

/-- `offset += snprintf(cmd_buf + offset, sizeof(cmd_buf) - offset, ...)`: what the buffer holds,
and the offset.  Beyond the end of the buffer the size is negative. -/
def snprintfAt (st : List Char × Nat) (txt : List Char) : Option (List Char × Nat) :=
  if cmdBufSize < st.2 then none
  else some (st.1 ++ txt.take (cmdBufSize - st.2 - 1), st.2 + txt.length)

/-- The loop over the bytes of an address; only the first group has no separator in front. -/
def printGroups (sep : Char) (format : UInt8 → List Char) :
    Bool → List UInt8 → List Char × Nat → Option (List Char × Nat)
  | _, [], st => some st
  | first, b :: bytes, st => do
      let st ← snprintfAt st (if first then format b else sep :: format b)
      printGroups sep format false bytes st

/-- `"AT+EIF="` -/
def atEif : List Char := ['A', 'T', '+', 'E', 'I', 'F', '=']

/-- `", \"ipupdate\", "` -/
def ipupdateName : List Char :=
  [',', ' ', '"', 'i', 'p', 'u', 'p', 'd', 'a', 't', 'e', '"', ',', ' ']

def Addr.addrType : Addr → UInt32
  | .v4 _ => addrTypeIpv4
  | .v6 _ => addrTypeIpv6

/-- `%d` of a byte. -/
def formatByte (b : UInt8) : List Char := formatInt b.toNat

/-- The text of `netagent_io_send` for `NETAGENT_IO_CMD_IPUPDATE`, and `offset`. -/
def sendIpupdate (transIntfId : UInt32) (addr : Addr) (ipv6PrefixLength : Int32) :
    Option (List Char × Nat) := do
  let st ← snprintfAt ([], 0) (atEif ++ formatInt transIntfId.toInt32.toInt ++ ipupdateName ++
    formatInt addr.addrType.toInt32.toInt ++ [',', ' ', '"'])
  let st ← match addr with
    | .v4 addr => printGroups '.' formatByte true addr.toList st
    | .v6 addr => do
        let st ← printGroups ':' formatHexByte true addr.toList st
        if ipv6PrefixLength.toInt = invalidIpv6PrefixLength then some st
        else snprintfAt st ('/' :: formatInt ipv6PrefixLength.toInt)
  snprintfAt st ['"']

/-! ## Notations -/

/-- A notation for addresses: the groups, and what may stand behind them. -/
structure AddrNotation where
  groups : Nat
  sep : Char
  base : Nat
  Tail : List Char → Prop
  two_le : 2 ≤ groups
  base_le : base ≤ 16
  digitVal_sep : digitVal sep = 36
  digitVal_tail : ∀ txt, Tail txt → ∀ c, txt.head? = some c → digitVal c = 36

/-- Four decimal groups. -/
def v4Notation : AddrNotation where
  groups := 4
  sep := '.'
  base := 10
  Tail txt := txt = []
  two_le := by decide
  base_le := by decide
  digitVal_sep := by decide
  digitVal_tail := by
    rintro _ rfl c h
    cases h

/-- Sixteen hexadecimal groups, and perhaps a prefix length. -/
def v6Notation : AddrNotation where
  groups := 16
  sep := ':'
  base := 16
  Tail txt := txt = [] ∨ ∃ prefixLength : Int32, txt = '/' :: formatInt prefixLength.toInt
  two_le := by decide
  base_le := by decide
  digitVal_sep := by decide
  digitVal_tail := by
    rintro _ (rfl | ⟨prefixLength, rfl⟩) c h
    · cases h
    · cases h
      decide

/-- A group is a number in the range of a byte. -/
structure ByteGroup (base : Nat) (word : List Char) : Prop where
  ne_nil : word ≠ []
  digits : ∀ c ∈ word, digitVal c < base
  le : leadingNumber base word ≤ 255

namespace AddrNotation

variable (nota : AddrNotation)

/-- The words are the groups of an address in the text. -/
structure IsAddr (txt : List Char) (words : List (List Char)) : Prop where
  length_eq : words.length = nota.groups
  byteGroup : ∀ word ∈ words, ByteGroup nota.base word
  text : ∃ tail, txt = joinWith nota.sep words ++ tail ∧ nota.Tail tail

/-- The text is an address, with all its groups and no other. -/
def WellFormed (txt : List Char) : Prop := ∃ words, nota.IsAddr txt words

/-- The text has fewer groups than an address. -/
def TooFew (txt : List Char) : Prop :=
  txt.count nota.sep < nota.groups - 1 ∨
    txt.count nota.sep = nota.groups - 1 ∧ txt.getLast? = some nota.sep

/-- What is accepted is an address, and its bytes are the numbers of the groups. -/
def Exact (txt : List Char) : Prop :=
  ∀ addr, str2bin nota.groups nota.sep nota.base (some txt) = some addr →
    ∃ words, nota.IsAddr txt words ∧
      addr.toList.map UInt8.toNat = words.map (leadingNumber nota.base)

end AddrNotation

/-! ## Reading groups -/

/-- A digit of a group is no separator. -/
theorem ByteGroup.notMem {base : Nat} {word : List Char} {c : Char} (h : ByteGroup base word)
    (hbase : base ≤ 16) (hc : digitVal c = 36) : c ∉ word := by
  intro hmem
  have := h.digits c hmem
  omega

/-- A group is read up to its end. -/
theorem ByteGroup.strtoul_eq {base : Nat} {word : List Char} (h : ByteGroup base word)
    (rest : List Char) (hbase : base ≤ 16) (hrest : ∀ c, rest.head? = some c → digitVal c = 36) :
    (strtoul base (word ++ rest)).toUInt8 = UInt8.ofNat (leadingNumber base word) := by
  have hle := h.le
  rw [strtoul_word rest hbase h.ne_nil h.digits hrest (by omega)]
  apply UInt8.toNat_inj.mp
  rw [UInt64.toNat_toUInt8, UInt64.toNat_ofNat', UInt8.toNat_ofNat']
  omega

/-- A turn of the loop over the groups. -/
theorem str2binGroups_succ {sep : Char} {base n : Nat} {txt : List Char} (hne : txt ≠ []) :
    str2binGroups sep base (n + 1) (some txt) =
      (strtoul base txt).toUInt8 :: str2binGroups sep base n ((strchr txt sep).map List.tail) := by
  obtain ⟨c, cs, rfl⟩ := List.exists_cons_of_ne_nil hne
  rfl

theorem str2binGroups_none (sep : Char) (base n : Nat) : str2binGroups sep base n none = [] := by
  cases n with
  | zero => rfl
  | succ n => rfl

/-- What stands behind the first separator. -/
theorem strchr_tail {sep : Char} {word : List Char} (hword : sep ∉ word) (rest : List Char) :
    (strchr (word ++ sep :: rest) sep).map List.tail = some rest := by
  rw [strchr, strpbrk_word (word_of_notMem hword) (List.mem_singleton_self sep)]
  rfl

/-- The groups of an address are read one by one. -/
theorem str2binGroups_words {sep : Char} {base : Nat} {words : List (List Char)} {tail : List Char}
    (hbase : base ≤ 16) (hsep : digitVal sep = 36) (hwords : ∀ word ∈ words, ByteGroup base word)
    (htail : ∀ c, tail.head? = some c → digitVal c = 36) (hne : words ≠ []) :
    str2binGroups sep base words.length (some (joinWith sep words ++ tail)) =
      words.map fun word => UInt8.ofNat (leadingNumber base word) := by
  induction words with
  | nil => exact absurd rfl hne
  | cons word words ih =>
    obtain ⟨hword, hrest⟩ := List.forall_mem_cons.mp hwords
    obtain ⟨c, cs, hcons⟩ := List.exists_cons_of_ne_nil hword.ne_nil
    cases words with
    | nil =>
      have hread := hword.strtoul_eq tail hbase htail
      rw [joinWith, List.length_singleton, List.map_singleton, ← hread, hcons]
      rfl
    | cons next words =>
      have hnotMem := hword.notMem hbase hsep
      have hread := hword.strtoul_eq (sep :: joinWith sep (next :: words) ++ tail) hbase
        (fun c hc => by cases hc; exact hsep)
      have htext : joinWith sep (word :: next :: words) ++ tail =
          word ++ sep :: (joinWith sep (next :: words) ++ tail) := by
        rw [joinWith, List.append_assoc, List.cons_append]
      rw [htext, List.length_cons, str2binGroups_succ (by simp), strchr_tail hnotMem, List.map_cons,
        ← ih hrest (List.cons_ne_nil next words), ← hread]
      rfl

/-! ## Which texts are accepted -/

/-- The loop sees all groups when there is a separator for each and something behind the last. -/
theorem length_str2binGroups_iff (sep : Char) (base n : Nat) (txt : List Char) :
    (str2binGroups sep base (n + 1) (some txt)).length = n + 1 ↔
      txt ≠ [] ∧ ¬ (txt.count sep < n ∨ txt.count sep = n ∧ txt.getLast? = some sep) := by
  by_cases hnil : txt = []
  · subst hnil
    exact ⟨fun h => absurd h (Nat.succ_ne_zero n).symm, fun h => absurd rfl h.1⟩
  rw [str2binGroups_succ hnil, List.length_cons, Nat.add_right_cancel_iff]
  induction n generalizing txt with
  | zero =>
    refine ⟨fun _ => ⟨hnil, ?_⟩, fun _ => rfl⟩
    rintro (hlt | ⟨hzero, hlast⟩)
    · exact Nat.not_lt_zero _ hlt
    · exact List.count_eq_zero.mp hzero (List.mem_of_getLast? hlast)
  | succ n ih =>
    by_cases hmem : sep ∈ txt
    · obtain ⟨word, rest, rfl, hword⟩ := List.eq_append_cons_of_mem hmem
      have hcount : (word ++ sep :: rest).count sep = rest.count sep + 1 := by
        rw [List.count_append, List.count_eq_zero.mpr hword, List.count_cons_self, Nat.zero_add]
      rw [strchr_tail hword, hcount]
      by_cases hrest : rest = []
      · subst hrest
        refine ⟨fun h => absurd h (Nat.succ_ne_zero n).symm, fun h => absurd ?_ h.2⟩
        rw [List.count_nil, List.getLast?_append_cons, List.getLast?_singleton]
        rcases Nat.eq_zero_or_pos n with rfl | hpos
        · exact .inr ⟨rfl, rfl⟩
        · exact .inl (Nat.succ_lt_succ hpos)
      · have hlast : (word ++ sep :: rest).getLast? = rest.getLast? := by
          obtain ⟨c, cs, rfl⟩ := List.exists_cons_of_ne_nil hrest
          rw [List.getLast?_append_cons, List.getLast?_cons_cons]
        rw [str2binGroups_succ hrest, List.length_cons, Nat.add_right_cancel_iff, ih rest hrest,
          hlast]
        simp only [hnil, hrest, ne_eq, not_false_eq_true, true_and, Nat.add_lt_add_iff_right,
          Nat.add_right_cancel_iff]
    · rw [strchr, strpbrk_last (word_of_notMem hmem), Option.map_none, str2binGroups_none]
      refine ⟨fun h => absurd h (Nat.succ_ne_zero n).symm, fun h => absurd ?_ h.2⟩
      rw [List.count_eq_zero.mpr hmem]
      exact .inl (Nat.succ_pos n)

section Accepts

variable (nota : AddrNotation) {txt : List Char}

/-- A text is accepted when it does not have too few groups. -/
theorem str2bin_isSome_iff :
    (∃ addr, str2bin nota.groups nota.sep nota.base (some txt) = some addr) ↔
      ¬ nota.TooFew txt := by
  obtain ⟨n, hn⟩ := Nat.exists_eq_add_of_le' (Nat.le_of_succ_le nota.two_le)
  have hiff := length_str2binGroups_iff nota.sep nota.base n txt
  have htwo := nota.two_le
  rw [← hn] at hiff
  have hnil : ¬ nota.TooFew txt → txt ≠ [] := by
    rintro hmany rfl
    refine hmany (.inl ?_)
    rw [List.count_nil]
    omega
  unfold AddrNotation.TooFew at hnil ⊢
  have hpred : nota.groups - 1 = n := by omega
  rw [hpred] at hnil ⊢
  unfold str2bin
  constructor
  · rintro ⟨addr, haddr⟩
    split at haddr
    · rename_i hlen
      exact (hiff.mp hlen).2
    · cases haddr
  · intro hmany
    exact ⟨_, dif_pos (hiff.mpr ⟨hnil hmany, hmany⟩)⟩

/-- The groups of an address are read. -/
theorem AddrNotation.IsAddr.groups_eq {words : List (List Char)} (h : nota.IsAddr txt words) :
    str2binGroups nota.sep nota.base nota.groups (some txt) =
      words.map fun word => UInt8.ofNat (leadingNumber nota.base word) := by
  obtain ⟨tail, htext, htail⟩ := h.text
  have hne : words ≠ [] := by
    rintro rfl
    have hlen := h.length_eq
    have htwo := nota.two_le
    rw [List.length_nil] at hlen
    omega
  have hread := str2binGroups_words nota.base_le nota.digitVal_sep h.byteGroup
    (nota.digitVal_tail tail htail) hne
  rwa [← htext, h.length_eq] at hread

/-- The bytes of an address are the numbers of its groups. -/
theorem AddrNotation.IsAddr.toNat_eq {words : List (List Char)} (h : nota.IsAddr txt words)
    {addr : Vector UInt8 nota.groups}
    (haddr : str2bin nota.groups nota.sep nota.base (some txt) = some addr) :
    addr.toList.map UInt8.toNat = words.map (leadingNumber nota.base) := by
  unfold str2bin at haddr
  split at haddr
  · cases haddr
    change (str2binGroups nota.sep nota.base nota.groups (some txt)).map UInt8.toNat = _
    rw [h.groups_eq nota, List.map_map]
    refine List.map_congr_left fun word hword => ?_
    have hle := (h.byteGroup word hword).le
    rw [Function.comp_apply, UInt8.toNat_ofNat', Nat.mod_eq_of_lt (by omega)]
  · cases haddr

/-- A text is read exactly when it is an address, or is not accepted for want of groups. -/
theorem exact_iff : nota.Exact txt ↔ nota.TooFew txt ∨ nota.WellFormed txt := by
  constructor
  · intro hexact
    by_cases hfew : nota.TooFew txt
    · exact .inl hfew
    · obtain ⟨addr, haddr⟩ := (str2bin_isSome_iff nota).mpr hfew
      obtain ⟨words, hwords, -⟩ := hexact addr haddr
      exact .inr ⟨words, hwords⟩
  · rintro (hfew | ⟨words, hwords⟩) addr haddr
    · exact absurd hfew ((str2bin_isSome_iff nota).mp ⟨addr, haddr⟩)
    · exact ⟨words, hwords, hwords.toNat_eq nota haddr⟩

end Accepts

/-! ## What is written -/

theorem length_formatByte_le (b : UInt8) : (formatByte b).length ≤ 3 := by
  have hlt := b.toNat_lt
  exact (Nat.length_toDigits_le_iff (by decide) (by decide)).mpr (by omega)

/-- What fits is written as it is. -/
theorem snprintfAt_eq {buf txt : List Char} (h : (buf ++ txt).length < cmdBufSize) :
    snprintfAt (buf, buf.length) txt = some (buf ++ txt, (buf ++ txt).length) := by
  rw [List.length_append] at h
  rw [snprintfAt, if_neg (by simp only; omega), List.take_of_length_le (by simp only; omega),
    List.length_append]

theorem printGroups_false {sep : Char} {format : UInt8 → List Char} {bytes : List UInt8}
    {buf : List Char}
    (h : (buf ++ (bytes.map format).flatMap (sep :: ·)).length < cmdBufSize) :
    printGroups sep format false bytes (buf, buf.length) =
      some (buf ++ (bytes.map format).flatMap (sep :: ·),
        (buf ++ (bytes.map format).flatMap (sep :: ·)).length) := by
  induction bytes generalizing buf with
  | nil =>
    rw [printGroups, List.map_nil, List.flatMap_nil, List.append_nil]
  | cons b bytes ih =>
    rw [List.map_cons, List.flatMap_cons, ← List.append_assoc] at h ⊢
    have hfirst : (buf ++ sep :: format b).length < cmdBufSize := by
      rw [List.length_append] at h
      omega
    rw [printGroups, if_neg Bool.false_ne_true, snprintfAt_eq hfirst]
    exact ih h

/-- The groups are written with a separator between two. -/
theorem printGroups_eq {sep : Char} {format : UInt8 → List Char} {bytes : List UInt8}
    {buf : List Char} (h : (buf ++ joinWith sep (bytes.map format)).length < cmdBufSize) :
    printGroups sep format true bytes (buf, buf.length) =
      some (buf ++ joinWith sep (bytes.map format),
        (buf ++ joinWith sep (bytes.map format)).length) := by
  cases bytes with
  | nil =>
    rw [printGroups, List.map_nil, joinWith, List.append_nil]
  | cons b bytes =>
    rw [List.map_cons, joinWith_cons, ← List.append_assoc] at h ⊢
    have hfirst : (buf ++ format b).length < cmdBufSize := by
      rw [List.length_append] at h
      omega
    rw [printGroups, if_pos rfl, snprintfAt_eq hfirst]
    exact printGroups_false h



/-- The prefix length behind an address. -/
def prefixText (ipv6PrefixLength : Int32) : List Char :=
  if ipv6PrefixLength.toInt = invalidIpv6PrefixLength then []
  else '/' :: formatInt ipv6PrefixLength.toInt

def Addr.text (ipv6PrefixLength : Int32) : Addr → List Char
  | .v4 addr => joinWith '.' (addr.toList.map formatByte)
  | .v6 addr => joinWith ':' (addr.toList.map formatHexByte) ++ prefixText ipv6PrefixLength

/-- What stands behind `AT+EIF=`. -/
def argText (transIntfId : UInt32) (addr : Addr) (ipv6PrefixLength : Int32) : List Char :=
  formatInt transIntfId.toInt32.toInt ++ (ipupdateName ++ (formatInt addr.addrType.toInt32.toInt ++
    ([',', ' ', '"'] ++ (addr.text ipv6PrefixLength ++ ['"']))))

theorem length_joinWith_le {sep : Char} {words : List (List Char)} {k : Nat}
    (h : ∀ word ∈ words, word.length ≤ k) :
    (joinWith sep words).length ≤ words.length * (k + 1) := by
  have hflat : ∀ words : List (List Char), (∀ word ∈ words, word.length ≤ k) →
      (words.flatMap (sep :: ·)).length ≤ words.length * (k + 1) := by
    intro words hwords
    induction words with
    | nil => exact Nat.zero_le _
    | cons word words ih =>
      obtain ⟨hword, hrest⟩ := List.forall_mem_cons.mp hwords
      have hlen := ih hrest
      rw [List.flatMap_cons, List.length_append, List.length_cons, List.length_cons,
        Nat.add_mul, Nat.one_mul]
      omega
  cases words with
  | nil => exact Nat.zero_le _
  | cons word words =>
    obtain ⟨hword, hrest⟩ := List.forall_mem_cons.mp h
    have hlen := hflat words hrest
    rw [joinWith_cons, List.length_append, List.length_cons, Nat.add_mul, Nat.one_mul]
    omega

/-- An address takes at most 60 characters. -/
theorem length_addrText_le (addr : Addr) (ipv6PrefixLength : Int32) :
    (addr.text ipv6PrefixLength).length ≤ 60 := by
  cases addr with
  | v4 addr =>
    have hlen : (joinWith '.' (addr.toList.map formatByte)).length ≤
        (addr.toList.map formatByte).length * (3 + 1) :=
      length_joinWith_le (by simpa using fun b _ => length_formatByte_le b)
    rw [List.length_map, Vector.length_toList] at hlen
    exact hlen.trans (by decide)
  | v6 addr =>
    have hlen : (joinWith ':' (addr.toList.map formatHexByte)).length ≤
        (addr.toList.map formatHexByte).length * (2 + 1) :=
      length_joinWith_le (by simp [formatHexByte])
    rw [List.length_map, Vector.length_toList] at hlen
    have hprefix : (prefixText ipv6PrefixLength).length ≤ 12 := by
      unfold prefixText
      split
      · exact Nat.zero_le _
      · exact Nat.succ_le_succ (length_formatInt_le ipv6PrefixLength)
    rw [Addr.text, List.length_append]
    omega

/-- The text fits into the buffer. -/
theorem length_argText_lt (transIntfId : UInt32) (addr : Addr) (ipv6PrefixLength : Int32) :
    (atEif ++ argText transIntfId addr ipv6PrefixLength).length < cmdBufSize := by
  have hid := length_formatInt_le transIntfId.toInt32
  have htype := length_formatInt_le addr.addrType.toInt32
  have haddr := length_addrText_le addr ipv6PrefixLength
  unfold argText
  simp only [List.length_append, List.length_cons, List.length_nil, atEif, ipupdateName, cmdBufSize]
  omega

/-- All of the text is written. -/
theorem sendIpupdate_eq (transIntfId : UInt32) (addr : Addr) (ipv6PrefixLength : Int32) :
    sendIpupdate transIntfId addr ipv6PrefixLength =
      some (atEif ++ argText transIntfId addr ipv6PrefixLength,
        (atEif ++ argText transIntfId addr ipv6PrefixLength).length) := by
  have hlt := length_argText_lt transIntfId addr ipv6PrefixLength
  have htext : atEif ++ argText transIntfId addr ipv6PrefixLength =
      [] ++ (atEif ++ formatInt transIntfId.toInt32.toInt ++ ipupdateName ++
        formatInt addr.addrType.toInt32.toInt ++ [',', ' ', '"']) ++
      addr.text ipv6PrefixLength ++ ['"'] := by
    simp only [argText, List.append_assoc, List.nil_append]
  unfold sendIpupdate
  rw [htext] at hlt ⊢
  generalize atEif ++ formatInt transIntfId.toInt32.toInt ++ ipupdateName ++
    formatInt addr.addrType.toInt32.toInt ++ [',', ' ', '"'] = front at hlt ⊢
  have hlt' : ([] ++ front ++ addr.text ipv6PrefixLength).length < cmdBufSize := by
    rw [List.length_append] at hlt
    omega
  have hfront : ([] ++ front).length < cmdBufSize := by
    rw [List.length_append] at hlt'
    omega
  have hstart : snprintfAt ([], 0) front = some ([] ++ front, ([] ++ front).length) :=
    snprintfAt_eq hfront
  rw [hstart]
  simp only [bind, Option.bind_some]
  cases addr with
  | v4 addr =>
    have hgroups := printGroups_eq
      (show ([] ++ front ++ joinWith '.' (addr.toList.map formatByte)).length < cmdBufSize
        from hlt')
    simp only [hgroups, Option.bind_some]
    exact snprintfAt_eq hlt
  | v6 addr =>
    rw [Addr.text, ← List.append_assoc] at hlt' hlt ⊢
    have hgroups := printGroups_eq
      (show ([] ++ front ++ joinWith ':' (addr.toList.map formatHexByte)).length < cmdBufSize by
        rw [List.length_append] at hlt'
        omega)
    simp only [hgroups, Option.bind_some]
    unfold prefixText at hlt' hlt ⊢
    split
    · rename_i hnone
      rw [if_pos hnone, List.append_nil] at hlt
      rw [List.append_nil]
      exact snprintfAt_eq hlt
    · rename_i hsome
      rw [if_neg hsome] at hlt hlt'
      rw [snprintfAt_eq hlt']
      exact snprintfAt_eq hlt

/-! ## Reading it again -/

/-- A character that is one byte, and no line end. -/
def Printable (c : Char) : Prop := 0x20 ≤ c.toNat ∧ c.toNat < 0x7F

/-- The bytes of a text. -/
def ascii (txt : List Char) : List UInt8 := txt.map fun c => UInt8.ofNat c.toNat

theorem chars_ascii {txt : List Char} (h : ∀ c ∈ txt, Printable c) : chars (ascii txt) = txt := by
  rw [chars, ascii, List.map_map]
  refine (List.map_congr_left fun c hc => ?_).trans (List.map_id txt)
  obtain ⟨-, hhigh⟩ := h c hc
  rw [Function.comp_apply, UInt8.toNat_ofNat', Nat.mod_eq_of_lt (by omega), Char.ofNat_toNat, id]

theorem ascii_append (a b : List Char) : ascii (a ++ b) = ascii a ++ ascii b := List.map_append

/-- A byte of a text comes from its character. -/
theorem notMem_ascii {txt : List Char} (h : ∀ c ∈ txt, Printable c) {d : Char} (hd : d ∉ txt)
    (hlt : d.toNat < 0x7F) : UInt8.ofNat d.toNat ∉ ascii txt := by
  intro hmem
  obtain ⟨c, hc, heq⟩ := List.mem_map.mp hmem
  have hnat := congrArg UInt8.toNat heq
  obtain ⟨-, hhigh⟩ := h c hc
  rw [UInt8.toNat_ofNat', UInt8.toNat_ofNat', Nat.mod_eq_of_lt (by omega),
    Nat.mod_eq_of_lt (by omega)] at hnat
  exact hd (Char.toNat_inj.mp hnat ▸ hc)

/-- Blanks in front make no difference. -/
theorem fieldOf_space (txt : List UInt8) : fieldOf (chSpace :: txt) = fieldOf txt := by
  rw [fieldOf, fieldOf, List.dropWhile_cons_of_pos (by decide)]

/-- A scan for a byte that a word does not have stops behind the word. -/
theorem scan_word {word : List UInt8} (rest : List UInt8) {d : UInt8} (h : d ∉ word) :
    (word ++ d :: rest).dropWhile (· ≠ d) = d :: rest ∧
      (word ++ d :: rest).takeWhile (· ≠ d) = word := by
  have hall : ∀ b ∈ word, decide (b ≠ d) = true := by
    intro b hb
    rw [decide_eq_true_eq]
    rintro rfl
    exact h hb
  constructor
  · rw [List.dropWhile_append_of_pos hall, List.dropWhile_cons_of_neg (by simp)]
  · rw [List.takeWhile_append_of_pos hall, List.takeWhile_cons_of_neg (by simp), List.append_nil]

/-- A field without quotes, blanks and commas in it. -/
theorem fieldOf_plain {word : List UInt8} (rest : List UInt8) (hne : word ≠ [])
    (hspace : chSpace ∉ word) (hquote : chQuote ∉ word) (hcomma : chComma ∉ word) :
    fieldOf (word ++ chComma :: rest) = some (word, rest) := by
  have hcut : word.rdropWhile (· = chSpace) = word := by
    rw [List.rdropWhile_eq_self_iff]
    intro hl hlast
    rw [decide_eq_true_eq] at hlast
    exact hspace (hlast ▸ List.getLast_mem hl)
  obtain ⟨hdrop, htake⟩ := scan_word rest hcomma
  obtain ⟨b, body, rfl⟩ := List.exists_cons_of_ne_nil hne
  rw [List.mem_cons, not_or] at hspace hquote
  have hstart : (b :: body ++ chComma :: rest).dropWhile (· = chSpace) =
      b :: (body ++ chComma :: rest) := by
    rw [List.cons_append, List.dropWhile_cons_of_neg (by simpa using Ne.symm hspace.1)]
  rw [fieldOf, hstart]
  simp only [if_neg (Ne.symm hquote.1)]
  rw [← List.cons_append, hdrop, htake, hcut]

/-- A field in quotes. -/
theorem fieldOf_quoted {word : List UInt8} (rest : List UInt8) (hquote : chQuote ∉ word) :
    fieldOf (chQuote :: (word ++ chQuote :: rest)) =
      some (word, (rest.dropWhile (· ≠ chComma)).tail) := by
  obtain ⟨hdrop, htake⟩ := scan_word rest hquote
  rw [fieldOf, List.dropWhile_cons_of_neg (by decide)]
  simp only [if_pos, hdrop, htake]

/-- Only digits and the sign are in a number. -/
theorem printable_formatInt {i : Int} {c : Char} (hc : c ∈ formatInt i) :
    Printable c ∧ c ≠ ' ' ∧ c ≠ '"' ∧ c ≠ ',' := by
  rcases mem_formatInt hc with hdigit | rfl
  · obtain ⟨hlow, hhigh⟩ := isDigit_iff.mp hdigit
    refine ⟨⟨by omega, by omega⟩, ?_, ?_, ?_⟩
    all_goals
      rintro rfl
      revert hdigit
      decide
  · exact ⟨⟨by decide, by decide⟩, by decide, by decide, by decide⟩

theorem mem_joinWith {sep c : Char} {words : List (List Char)} (hc : c ∈ joinWith sep words) :
    c = sep ∨ ∃ word ∈ words, c ∈ word := by
  cases words with
  | nil => cases hc
  | cons word words =>
    rw [joinWith_cons, List.mem_append, List.mem_flatMap] at hc
    rcases hc with hc | ⟨next, hnext, hc⟩
    · exact .inr ⟨word, List.mem_cons_self, hc⟩
    · rcases List.mem_cons.mp hc with rfl | hc
      · exact .inl rfl
      · exact .inr ⟨next, List.mem_cons_of_mem word hnext, hc⟩

theorem printable_formatHexByte {b : UInt8} {c : Char} (hc : c ∈ formatHexByte b) :
    Printable c ∧ c ≠ '"' := by
  have hb := b.toNat_lt
  have hall : ∀ d < 16, Printable (hexChar d) ∧ hexChar d ≠ '"' := by
    intro d hd
    have hrange : (List.range 16).all (fun d => 0x20 ≤ (hexChar d).toNat ∧
        (hexChar d).toNat < 0x7F ∧ hexChar d ≠ '"') = true := by decide
    have := List.all_eq_true.mp hrange d (List.mem_range.mpr hd)
    rw [decide_eq_true_eq] at this
    exact ⟨⟨this.1, this.2.1⟩, this.2.2⟩
  simp only [formatHexByte, List.mem_cons, List.not_mem_nil, or_false] at hc
  rcases hc with rfl | rfl
  · exact hall _ (by omega)
  · exact hall _ (by omega)

/-- Digits, points, colons and a slash are in an address, but no quote. -/
theorem printable_addrText {addr : Addr} {ipv6PrefixLength : Int32} {c : Char}
    (hc : c ∈ addr.text ipv6PrefixLength) : Printable c ∧ c ≠ '"' := by
  cases addr with
  | v4 addr =>
    rcases mem_joinWith hc with rfl | ⟨word, hword, hc⟩
    · exact ⟨⟨by decide, by decide⟩, by decide⟩
    · obtain ⟨b, -, rfl⟩ := List.mem_map.mp hword
      obtain ⟨hprintable, -, hquote, -⟩ := printable_formatInt hc
      exact ⟨hprintable, hquote⟩
  | v6 addr =>
    rw [Addr.text, List.mem_append] at hc
    rcases hc with hc | hc
    · rcases mem_joinWith hc with rfl | ⟨word, hword, hc⟩
      · exact ⟨⟨by decide, by decide⟩, by decide⟩
      · obtain ⟨b, -, rfl⟩ := List.mem_map.mp hword
        exact printable_formatHexByte hc
    · unfold prefixText at hc
      split at hc
      · cases hc
      · rcases List.mem_cons.mp hc with rfl | hc
        · exact ⟨⟨by decide, by decide⟩, by decide⟩
        · obtain ⟨hprintable, -, hquote, -⟩ := printable_formatInt hc
          exact ⟨hprintable, hquote⟩

/-- All of the text that is sent can be printed. -/
theorem printable_argText {transIntfId : UInt32} {addr : Addr} {ipv6PrefixLength : Int32} {c : Char}
    (hc : c ∈ argText transIntfId addr ipv6PrefixLength) : Printable c := by
  have hliteral : ∀ txt : List Char, txt.all (fun c => 0x20 ≤ c.toNat ∧ c.toNat < 0x7F) = true →
      c ∈ txt → Printable c := by
    intro txt hall hc
    have hrange : 0x20 ≤ c.toNat ∧ c.toNat < 0x7F := by simpa using List.all_eq_true.mp hall c hc
    exact hrange
  unfold argText at hc
  simp only [List.mem_append] at hc
  rcases hc with hc | hc | hc | hc | hc | hc
  · exact (printable_formatInt hc).1
  · exact hliteral _ (by decide) hc
  · exact (printable_formatInt hc).1
  · exact hliteral [',', ' ', '"'] (by decide) (by simpa using hc)
  · exact (printable_addrText hc).1
  · exact hliteral ['"'] (by decide) (by simpa using hc)

theorem lineFields_step {argc : Nat} {txt field rest : List UInt8} {fields : List (List UInt8)}
    (hfield : fieldOf txt = some (field, rest)) (hne : txt ≠ [])
    (hrest : lineFields argc rest = some fields) :
    lineFields (argc + 1) txt = some (field :: fields) := by
  rw [lineFields, if_neg hne, hfield]
  simp only [bind, Option.bind_some, hrest]

/-- A number is a field without quotes. -/
theorem fieldOf_number (i : Int) (rest : List UInt8) :
    fieldOf (ascii (formatInt i) ++ chComma :: rest) = some (ascii (formatInt i), rest) := by
  have hprintable : ∀ c ∈ formatInt i, Printable c := fun c hc => (printable_formatInt hc).1
  refine fieldOf_plain rest ?_ ?_ ?_ ?_
  · obtain ⟨digits, -, hne, -, heq⟩ := formatInt_eq i
    intro hnil
    have hempty : formatInt i = [] := List.map_eq_nil_iff.mp hnil
    rw [heq] at hempty
    split at hempty
    · cases hempty
    · exact hne hempty
  · exact notMem_ascii hprintable (fun hc => (printable_formatInt hc).2.1 rfl) (by decide)
  · exact notMem_ascii hprintable (fun hc => (printable_formatInt hc).2.2.1 rfl) (by decide)
  · exact notMem_ascii hprintable (fun hc => (printable_formatInt hc).2.2.2 rfl) (by decide)

/-- The fields of the text that is sent. -/
theorem lineFields_argText (transIntfId : UInt32) (addr : Addr) (ipv6PrefixLength : Int32) :
    lineFields 16 (ascii (argText transIntfId addr ipv6PrefixLength)) =
      some [ascii (formatInt transIntfId.toInt32.toInt),
        ascii ['i', 'p', 'u', 'p', 'd', 'a', 't', 'e'],
        ascii (formatInt addr.addrType.toInt32.toInt), ascii (addr.text ipv6PrefixLength)] := by
  have haddr : chQuote ∉ ascii (addr.text ipv6PrefixLength) :=
    notMem_ascii (fun c hc => (printable_addrText hc).1) (fun hc => (printable_addrText hc).2 rfl)
      (by decide)
  have hname : ascii ipupdateName = chComma :: chSpace :: chQuote ::
      (ascii ['i', 'p', 'u', 'p', 'd', 'a', 't', 'e'] ++ chQuote :: chComma :: [chSpace]) := by
    decide
  have hopen : ascii [',', ' ', '"'] = [chComma, chSpace, chQuote] := by decide
  have hclose : ascii ['"'] = [chQuote] := by decide
  have htext : ascii (argText transIntfId addr ipv6PrefixLength) =
      ascii (formatInt transIntfId.toInt32.toInt) ++ chComma :: chSpace :: chQuote ::
        (ascii ['i', 'p', 'u', 'p', 'd', 'a', 't', 'e'] ++ chQuote :: chComma :: chSpace ::
          (ascii (formatInt addr.addrType.toInt32.toInt) ++ chComma :: chSpace :: chQuote ::
            (ascii (addr.text ipv6PrefixLength) ++ chQuote :: []))) := by
    rw [argText, ascii_append, ascii_append, ascii_append, ascii_append, ascii_append, hname, hopen,
      hclose]
    simp only [List.cons_append, List.append_assoc, List.nil_append]
  rw [htext]
  refine lineFields_step (fieldOf_number _ _) (by simp) ?_
  refine lineFields_step ((fieldOf_space _).trans (fieldOf_quoted _ (by decide))) (by simp) ?_
  have hskip : (chComma :: chSpace :: (ascii (formatInt addr.addrType.toInt32.toInt) ++
      chComma :: chSpace :: chQuote :: (ascii (addr.text ipv6PrefixLength) ++ chQuote :: []))
      |>.dropWhile (· ≠ chComma)) = chComma :: chSpace ::
        (ascii (formatInt addr.addrType.toInt32.toInt) ++ chComma :: chSpace :: chQuote ::
          (ascii (addr.text ipv6PrefixLength) ++ chQuote :: [])) :=
    List.dropWhile_cons_of_neg (by simp)
  rw [hskip, List.tail_cons]
  refine lineFields_step ((fieldOf_space _).trans (fieldOf_number _ _)) (by simp) ?_
  refine lineFields_step ((fieldOf_space _).trans (fieldOf_quoted _ haddr)) (by simp) ?_
  rfl

/-- The type of an address is a digit. -/
theorem strtoul_addrType (addr : Addr) :
    (strtoul 10 (formatInt addr.addrType.toInt32.toInt)).toUInt32 = addr.addrType :=
  strtoul_formatInt addr.addrType

/-- The text of an address is an address. -/
theorem isAddr_v4 (addr : AddrV4) (ipv6PrefixLength : Int32) :
    v4Notation.IsAddr ((Addr.v4 addr).text ipv6PrefixLength) (addr.toList.map formatByte) where
  length_eq := by
    rw [List.length_map, Vector.length_toList]
    rfl
  byteGroup word hword := by
    obtain ⟨b, -, rfl⟩ := List.mem_map.mp hword
    obtain ⟨hne, hdigits, hnumber⟩ := formatInt_word b.toNat
    refine ⟨hne, hdigits, ?_⟩
    have hlt := b.toNat_lt
    change leadingNumber 10 (formatInt b.toNat) ≤ 255
    omega
  text := ⟨[], (List.append_nil _).symm, rfl⟩

theorem isAddr_v6 (addr : AddrV6) (ipv6PrefixLength : Int32) :
    v6Notation.IsAddr ((Addr.v6 addr).text ipv6PrefixLength) (addr.toList.map formatHexByte) where
  length_eq := by
    rw [List.length_map, Vector.length_toList]
    rfl
  byteGroup word hword := by
    obtain ⟨b, -, rfl⟩ := List.mem_map.mp hword
    obtain ⟨hdigits, hnumber⟩ := formatHexByte_word b
    refine ⟨List.cons_ne_nil _ _, hdigits, ?_⟩
    have hlt := b.toNat_lt
    change leadingNumber 16 (formatHexByte b) ≤ 255
    omega
  text := by
    refine ⟨prefixText ipv6PrefixLength, rfl, ?_⟩
    unfold prefixText
    split
    · exact .inl rfl
    · exact .inr ⟨ipv6PrefixLength, rfl⟩

/-- The address that is sent is read back. -/
theorem str2bin_text {nota : AddrNotation} {txt : List Char} {addr : Vector UInt8 nota.groups}
    {format : UInt8 → List Char} (h : nota.IsAddr txt (addr.toList.map format))
    (hformat : ∀ b, leadingNumber nota.base (format b) = b.toNat) :
    str2bin nota.groups nota.sep nota.base (some txt) = some addr := by
  have hgroups : str2binGroups nota.sep nota.base nota.groups (some txt) = addr.toList := by
    rw [h.groups_eq nota, List.map_map]
    refine (List.map_congr_left fun b _ => ?_).trans (List.map_id _)
    rw [Function.comp_apply, hformat, UInt8.ofNat_toNat, id]
  have hlen : (str2binGroups nota.sep nota.base nota.groups (some txt)).length = nota.groups := by
    rw [hgroups, Vector.length_toList]
  rw [str2bin, dif_pos hlen]
  refine congrArg some (Vector.toList_inj.mp ?_)
  exact hgroups

/-! ## The results -/

/-- The command is written without a loss, and its fields are the identifier, the name, the type and
the address again. -/
def RoundTrip (transIntfId : UInt32) (addr : Addr) (ipv6PrefixLength : Int32) : Prop :=
  ∃ (buf : List Char) (line : EifLine) (mem : Nat → UInt8) (argv : List Nat)
    (id name addrType addrTxt : List Char),
    sendIpupdate transIntfId addr ipv6PrefixLength = some (buf, buf.length) ∧
    buf.length < cmdBufSize ∧ buf = atEif ++ chars line.args ∧
    parseLine line = some (mem, argv) ∧
    argv.map (fun p => (strAt mem (line.strcspn + 1) p).map chars) =
      [some id, some name, some addrType, some addrTxt] ∧
    (strtoul 10 id).toUInt32 = transIntfId ∧ name = ['i', 'p', 'u', 'p', 'd', 'a', 't', 'e'] ∧
    (strtoul 10 addrType).toUInt32 = addr.addrType ∧
    match addr with
    | .v4 addr => ipv4Str2bin (some addrTxt) = some addr
    | .v6 addr => ipv6Str2bin (some addrTxt) = some addr

/-- The line on which the text arrives. -/
def argLine (transIntfId : UInt32) (addr : Addr) (ipv6PrefixLength : Int32) : EifLine where
  args := ascii (argText transIntfId addr ipv6PrefixLength)
  zero_notMem := by
    intro hzero
    obtain ⟨c, hc, heq⟩ := List.mem_map.mp hzero
    obtain ⟨hlow, hhigh⟩ := printable_argText hc
    have hnat := congrArg UInt8.toNat heq
    rw [UInt8.toNat_ofNat', Nat.mod_eq_of_lt (by omega)] at hnat
    change c.toNat = 0 at hnat
    omega

/-- No line end is in it. -/
theorem text_argLine (transIntfId : UInt32) (addr : Addr) (ipv6PrefixLength : Int32) :
    (argLine transIntfId addr ipv6PrefixLength).text =
      ascii (argText transIntfId addr ipv6PrefixLength) := by
  refine List.takeWhile_eq_self_iff.mpr fun b hb => ?_
  obtain ⟨c, hc, rfl⟩ := List.mem_map.mp hb
  obtain ⟨hlow, hhigh⟩ := printable_argText hc
  have hnat : (UInt8.ofNat c.toNat).toNat = c.toNat := by
    rw [UInt8.toNat_ofNat', Nat.mod_eq_of_lt (by omega)]
  rw [decide_eq_true_eq]
  constructor
  · intro heq
    have := congrArg UInt8.toNat heq
    rw [hnat] at this
    change c.toNat = 13 at this
    omega
  · intro heq
    have := congrArg UInt8.toNat heq
    rw [hnat] at this
    change c.toNat = 10 at this
    omega

/-- The texts at which `argv` points. -/
theorem map_strAt {mem : Nat → UInt8} {size : Nat} {argv : List Nat} {fields : List (List UInt8)}
    (h : List.Forall₂ (Str mem size) argv fields) :
    argv.map (fun p => (strAt mem size p).map chars) = fields.map fun txt => some (chars txt) := by
  induction h with
  | nil => rfl
  | cons hstr _ ih => rw [List.map_cons, List.map_cons, ih, strAt_str hstr, Option.map_some]

/-- What is sent is read back. -/
theorem sendIpupdate_roundTrip (transIntfId : UInt32) (addr : Addr) (ipv6PrefixLength : Int32) :
    RoundTrip transIntfId addr ipv6PrefixLength := by
  have hparse := parseLine_spec (argLine transIntfId addr ipv6PrefixLength)
  rw [text_argLine, lineFields_argText] at hparse
  obtain ⟨mem, argv, hparse, hall⟩ := hparse
  have hchars : chars (argLine transIntfId addr ipv6PrefixLength).args =
      argText transIntfId addr ipv6PrefixLength :=
    chars_ascii fun c hc => printable_argText hc
  refine ⟨_, argLine transIntfId addr ipv6PrefixLength, mem, argv,
    formatInt transIntfId.toInt32.toInt, _, formatInt addr.addrType.toInt32.toInt,
    addr.text ipv6PrefixLength,
    sendIpupdate_eq transIntfId addr ipv6PrefixLength,
    length_argText_lt transIntfId addr ipv6PrefixLength, congrArg (atEif ++ ·) hchars.symm, hparse,
    ?_, strtoul_formatInt transIntfId, rfl, strtoul_addrType addr, ?_⟩
  · rw [map_strAt hall]
    simp only [List.map_cons, List.map_nil]
    rw [chars_ascii fun c hc => (printable_formatInt hc).1,
      chars_ascii fun c hc => (printable_formatInt hc).1,
      chars_ascii fun c hc => (printable_addrText hc).1]
    rfl
  · cases addr with
    | v4 addr =>
      exact str2bin_text (isAddr_v4 addr ipv6PrefixLength) fun b => (formatInt_word b.toNat).2.2
    | v6 addr =>
      exact str2bin_text (isAddr_v6 addr ipv6PrefixLength) fun b => (formatHexByte_word b).2

/-- Commands are read back, and two texts are read exactly, when neither text has all its groups and
is no address. -/
theorem ioText_iff (transIntfId : UInt32) (addr : Addr) (ipv6PrefixLength : Int32)
    (txt4 txt6 : List Char) :
    RoundTrip transIntfId addr ipv6PrefixLength ∧ v4Notation.Exact txt4 ∧ v6Notation.Exact txt6 ↔
      (v4Notation.TooFew txt4 ∨ v4Notation.WellFormed txt4) ∧
        (v6Notation.TooFew txt6 ∨ v6Notation.WellFormed txt6) := by
  rw [exact_iff, exact_iff]
  exact and_iff_right (sendIpupdate_roundTrip transIntfId addr ipv6PrefixLength)

/-- `1.2.3.4.5` -/
def fiveGroups : List Char := ['1', '.', '2', '.', '3', '.', '4', '.', '5']

theorem count_joinWith {sep : Char} {word : List Char} {words : List (List Char)}
    (h : ∀ w ∈ word :: words, sep ∉ w) :
    (joinWith sep (word :: words)).count sep = words.length := by
  obtain ⟨hword, hwords⟩ := List.forall_mem_cons.mp h
  rw [joinWith_cons, List.count_append, List.count_eq_zero.mpr hword, Nat.zero_add]
  clear h
  induction words with
  | nil => rfl
  | cons next words ih =>
    obtain ⟨hnext, hrest⟩ := List.forall_mem_cons.mp hwords
    rw [List.flatMap_cons, List.count_append, List.count_cons_self, List.count_eq_zero.mpr hnext,
      ih hrest, List.length_cons]
    omega

/-- A fifth group is not seen, and `257` is taken for `1`. -/
theorem fiveGroups_accepted : ¬ v4Notation.Exact fiveGroups ∧
    ipv4Str2bin (some ['2', '5', '7', '.', '1', '.', '1', '.', '1']) =
      ipv4Str2bin (some ['1', '.', '1', '.', '1', '.', '1']) ∧
    (ipv4Str2bin (some ['1', '.', '1', '.', '1', '.', '1'])).isSome = true := by
  refine ⟨fun hexact => ?_, by decide +kernel, by decide +kernel⟩
  obtain ⟨words, hwords, -⟩ := hexact #v[1, 2, 3, 4] (by decide +kernel)
  obtain ⟨tail, htext, rfl⟩ := hwords.text
  have hlen : words.length = 4 := hwords.length_eq
  have hcount := congrArg (List.count '.') htext
  cases words with
  | nil => cases hlen
  | cons word words =>
    have hsep : ∀ w ∈ word :: words, '.' ∉ w :=
      fun w hw => (hwords.byteGroup w hw).notMem v4Notation.base_le v4Notation.digitVal_sep
    have hfive : fiveGroups.count '.' = 4 := by decide
    rw [List.append_nil, hfive] at hcount
    have hthree := hcount.trans (count_joinWith hsep)
    rw [List.length_cons] at hlen
    omega

end MtkHw.NetAgent
