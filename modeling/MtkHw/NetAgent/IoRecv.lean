import Mathlib.Data.List.GetD
import MtkHw.Lib.Numeral
import MtkHw.NetAgent.Defs
import MtkHw.NetAgent.IoParser

/-!
# The network agent: what a line of the modem makes the agent do

`netagent_io_recv` cuts a line at its first line end, reads its fields and makes a command object of
them.  Here a fault is an access outside the line with its final zero, and a field that is not
there given to a function that does not take a null pointer.

`recvUrc_iff` is the result: the agent handles a line, which means that it rejects the line or makes
the command object that the fields describe, exactly when no quote stays open among the fields that
are read and the line has the fields that its command uses.
-/

namespace MtkHw.NetAgent

open Lib

/-! ## Lines -/

/-- `"+EIF: "` -/
def eifPrefix : List UInt8 := [0x2B, 0x45, 0x49, 0x46, 0x3A, 0x20]

/-- A line of the modem that begins with `+EIF: `; the final zero is not part of it. -/
structure EifLine where
  args : List UInt8
  zero_notMem : 0 ∉ args

namespace EifLine

variable (line : EifLine)

def bytes : List UInt8 := eifPrefix ++ line.args

/-- `strcspn(line, "\r\n")` -/
def strcspn : Nat := (line.bytes.takeWhile fun b => b ≠ 0x0D ∧ b ≠ 0x0A).length

/-- The line in memory after `line[index] = 0`. -/
def mem : Nat → UInt8 := Function.update (fun i => line.bytes.getD i 0) line.strcspn 0

/-- The fields stand in the text up to the first line end. -/
def text : List UInt8 := line.args.takeWhile fun b => b ≠ 0x0D ∧ b ≠ 0x0A

end EifLine

/-! ## Command objects -/

/-- `netagent_io_ho_info_t` -/
structure HoInfo where
  cid : Int32
  hostate : UInt32
  isSucc : UInt32
  srcRan : UInt32
  tgtRan : UInt32
  addrType : UInt32
deriving DecidableEq, Repr

/-- The command and its `parameter`. -/
inductive Request where
  | ifup (ip : IpParameter)
  | ifdown
  | setmtu (mtuSize : UInt32)
  | ifchg (ip : IpParameter)
  | pdnho (info : HoInfo) (addrV4 : AddrV4) (addrV6 : AddrV6)
  | ipchg (ip : IpParameter)
deriving DecidableEq, Repr

/-- `netagent_io_cmd_obj_t` -/
structure CmdObj where
  transIntfId : UInt32
  request : Request
  reason : Option (List Char)
deriving DecidableEq, Repr

/-! ## Addresses -/

/-- The groups that the loop of `netagent_io_ipv4_str2bin` and `netagent_io_ipv6_str2bin` reads. -/
def str2binGroups (sep : Char) (base : Nat) : Nat → Option (List Char) → List UInt8
  | 0, _ => []
  | _, none => []
  | _, some [] => []
  | n + 1, some ptr =>
      (strtoul base ptr).toUInt8 :: str2binGroups sep base n ((strchr ptr sep).map List.tail)

/-- What the two functions share; none when they fail. -/
def str2bin (n : Nat) (sep : Char) (base : Nat) (ipStr : Option (List Char)) :
    Option (Vector UInt8 n) :=
  if h : (str2binGroups sep base n ipStr).length = n then
    some ⟨(str2binGroups sep base n ipStr).toArray, h⟩
  else none

/-- `netagent_io_ipv4_str2bin` -/
def ipv4Str2bin (ipStr : Option (List Char)) : Option AddrV4 := str2bin 4 '.' 10 ipStr

/-- `netagent_io_ipv6_str2bin` -/
def ipv6Str2bin (ipStr : Option (List Char)) : Option AddrV6 := str2bin 16 ':' 16 ipStr

def zeroV4 : AddrV4 := Vector.replicate 4 0
def zeroV6 : AddrV6 := Vector.replicate 16 0

/-! ## Making the object -/

/-- An entry of `argv` as a callee gets it: a null pointer, or a text; none is a fault. -/
abbrev Arg := Option (Option (List Char))

/-- An entry for a callee that does not take a null pointer. -/
def Arg.text (arg : Arg) : Option (List Char) := arg.join

/-- `netagent_io_parser_addr_str`: the addresses and the reason. -/
def parserAddrStr (addrType : UInt32) (arg1 arg2 arg3 : Arg) :
    Option (IpParameter × Option (List Char)) :=
  if addrType = addrTypeIpv4 then do
    let addr := ipv4Str2bin (← arg1)
    some (⟨addrType, addr.getD zeroV4, zeroV6⟩, some (← arg2.text))
  else if addrType = addrTypeIpv6 then do
    let addr := ipv6Str2bin (← arg1)
    some (⟨addrType, zeroV4, addr.getD zeroV6⟩, some (← arg2.text))
  else if addrType = addrTypeIpv4v6 then do
    let addr4 := ipv4Str2bin (← arg1)
    let addr6 := ipv6Str2bin (← arg2)
    some (⟨addrType, addr4.getD zeroV4, addr6.getD zeroV6⟩, some (← arg3.text))
  else some (⟨addrType, zeroV4, zeroV6⟩, none)

/-- `netagent_io_parser_ho_addr_str` -/
def parserHoAddrStr (addrType : UInt32) (arg1 arg2 : Arg) : Option (AddrV4 × AddrV6) :=
  if addrType = addrTypeIpv4 then do
    let addr := ipv4Str2bin (← arg1)
    some (addr.getD zeroV4, zeroV6)
  else if addrType = addrTypeIpv6 then do
    let addr := ipv6Str2bin (← arg1)
    some (zeroV4, addr.getD zeroV6)
  else if addrType = addrTypeIpv4v6 then do
    let addr4 := ipv4Str2bin (← arg1)
    let addr6 := ipv6Str2bin (← arg2)
    some (addr4.getD zeroV4, addr6.getD zeroV6)
  else some (zeroV4, zeroV6)

/-- `strtoul(arg, 0, base)` where it is put into an `unsigned int`. -/
def argNumber (base : Nat) (arg : Arg) : Option UInt32 :=
  arg.text.map fun txt => (strtoul base txt).toUInt32

/-- `strtol(arg, 0, 10)` where it is put into an `int`. -/
def argInt (arg : Arg) : Option Int32 :=
  arg.text.map fun txt => Int32.ofInt ((strtol txt).getD 0)

/-- The branches of `ifup`, `ifchg` and `ipchg`, of which `request` has the command. -/
def ipBranch (transIntfId : UInt32) (request : IpParameter → Request) (num : Nat)
    (argv : Nat → Arg) : Option (Option CmdObj) :=
  if num < 3 then some none
  else do
    let addrType ← argNumber 16 (argv 2)
    let (ip, reason) ← parserAddrStr addrType (argv 3) (argv 4) (argv 5)
    some (some ⟨transIntfId, request ip, reason⟩)

/-- The branch of `ho`. -/
def hoBranch (transIntfId : UInt32) (num : Nat) (argv : Nat → Arg) : Option (Option CmdObj) :=
  if num < 7 then some none
  else do
    let cid ← argInt (argv 2)
    let hostate ← argNumber 10 (argv 3)
    let isSucc ← argNumber 10 (argv 4)
    let srcRan ← argNumber 10 (argv 5)
    let tgtRan ← argNumber 10 (argv 6)
    let addrType ← argNumber 16 (argv 7)
    let (addrV4, addrV6) ← parserHoAddrStr addrType (argv 8) (argv 9)
    some (some ⟨transIntfId, .pdnho ⟨cid, hostate, isSucc, srcRan, tgtRan, addrType⟩ addrV4 addrV6,
      none⟩)

/-- The branch of `ifdown`. -/
def ifdownBranch (transIntfId : UInt32) (argv : Nat → Arg) : Option (Option CmdObj) := do
  let reason ← (argv 2).text
  some (some ⟨transIntfId, .ifdown, some reason⟩)

/-- The branch of `mtu`. -/
def mtuBranch (transIntfId : UInt32) (argv : Nat → Arg) : Option (Option CmdObj) := do
  let mtuSize ← argNumber 10 (argv 2)
  some (some ⟨transIntfId, .setmtu mtuSize, none⟩)

/-- What `netagent_io_recv` makes of `num` fields: none is a fault, no object is a rejected line. -/
def recvFields (num : Nat) (argv : Nat → Arg) : Option (Option CmdObj) :=
  if num < 2 then some none
  else do
    let transIntfId ← argNumber 10 (argv 0)
    let name ← (argv 1).text
    if name = ['i', 'f', 'u', 'p'] then ipBranch transIntfId .ifup num argv
    else if name = ['i', 'f', 'd', 'o', 'w', 'n'] then ifdownBranch transIntfId argv
    else if name = ['m', 't', 'u'] then mtuBranch transIntfId argv
    else if name = ['i', 'f', 'c', 'h', 'g'] then ipBranch transIntfId .ifchg num argv
    else if name = ['h', 'o'] then hoBranch transIntfId num argv
    else if name = ['i', 'p', 'c', 'h', 'g'] then ipBranch transIntfId .ipchg num argv
    else some none

/-- The characters of a text in memory. -/
def chars (txt : List UInt8) : List Char := txt.map fun b => Char.ofNat b.toNat

/-- The parser on the line after `+EIF: `, with the 16 entries of `argv`. -/
def parseLine (line : EifLine) : Option ((Nat → UInt8) × List Nat) :=
  atParser (line.strcspn + 1) 16 line.mem eifPrefix.length

/-- A turn of the loop of `netagent_io_recv` for a line that begins with `+EIF: `. -/
def recvUrc (line : EifLine) : Option (Option CmdObj) := do
  let (mem, argv) ← parseLine line
  recvFields argv.length fun i =>
    match argv[i]? with
    | none => some none
    | some p => (strAt mem (line.strcspn + 1) p).map fun txt => some (chars txt)

/-! ## What the fields describe -/

/-- The fields of a line, as far as they are read; none when a quote stays open among them. -/
def EifLine.fields (line : EifLine) : Option (List (List Char)) :=
  (lineFields 16 line.text).map (List.map chars)

def Request.name : Request → List Char
  | .ifup _ => ['i', 'f', 'u', 'p']
  | .ifdown => ['i', 'f', 'd', 'o', 'w', 'n']
  | .setmtu _ => ['m', 't', 'u']
  | .ifchg _ => ['i', 'f', 'c', 'h', 'g']
  | .pdnho _ _ _ => ['h', 'o']
  | .ipchg _ => ['i', 'p', 'c', 'h', 'g']

section Fields

variable (fields : List (List Char))

/-- Field `i` is there, and `v` is its number. -/
def NumberAt (base i : Nat) (v : UInt32) : Prop :=
  ∃ txt, fields[i]? = some txt ∧ v = (strtoul base txt).toUInt32

/-- The address that fields `i` and `i + 1` give for a type. -/
def addrV4At (addrType : UInt32) (i : Nat) : AddrV4 :=
  if addrType = addrTypeIpv4 ∨ addrType = addrTypeIpv4v6 then (ipv4Str2bin fields[i]?).getD zeroV4
  else zeroV4

/-- The address behind it when the type has both. -/
def addrV6At (addrType : UInt32) (i : Nat) : AddrV6 :=
  if addrType = addrTypeIpv6 then (ipv6Str2bin fields[i]?).getD zeroV6
  else if addrType = addrTypeIpv4v6 then (ipv6Str2bin fields[i + 1]?).getD zeroV6
  else zeroV6

/-- The reason that a request with an address of the type has; none when its field is missing. -/
def reasonAt (addrType : UInt32) : Option (Option (List Char)) :=
  if addrType = addrTypeIpv4 ∨ addrType = addrTypeIpv6 then fields[4]?.map some
  else if addrType = addrTypeIpv4v6 then fields[5]?.map some
  else some none

/-- The type and the addresses are those of the fields, and so is the reason behind them. -/
structure GivenIp (ip : IpParameter) (reason : Option (List Char)) : Prop where
  addrType : NumberAt fields 16 2 ip.addrType
  addrV4 : ip.addrV4 = addrV4At fields ip.addrType 3
  addrV6 : ip.addrV6 = addrV6At fields ip.addrType 3
  reason : reasonAt fields ip.addrType = some reason

structure GivenHo (info : HoInfo) (addrV4 : AddrV4) (addrV6 : AddrV6) : Prop where
  cid : ∃ txt, fields[2]? = some txt ∧ info.cid = Int32.ofInt ((strtol txt).getD 0)
  hostate : NumberAt fields 10 3 info.hostate
  isSucc : NumberAt fields 10 4 info.isSucc
  srcRan : NumberAt fields 10 5 info.srcRan
  tgtRan : NumberAt fields 10 6 info.tgtRan
  addrType : NumberAt fields 16 7 info.addrType
  addrV4 : addrV4 = addrV4At fields info.addrType 8
  addrV6 : addrV6 = addrV6At fields info.addrType 8

/-- The object is the one that the fields describe. -/
structure Given (obj : CmdObj) : Prop where
  transIntfId : NumberAt fields 10 0 obj.transIntfId
  name : fields[1]? = some obj.request.name
  parameter : match obj.request with
    | .ifup ip | .ifchg ip | .ipchg ip => GivenIp fields ip obj.reason
    | .ifdown => ∃ txt, fields[2]? = some txt ∧ obj.reason = some txt
    | .setmtu mtuSize => NumberAt fields 10 2 mtuSize ∧ obj.reason = none
    | .pdnho info addrV4 addrV6 => GivenHo fields info addrV4 addrV6 ∧ obj.reason = none

/-- The reason of a request with an address of the type is among the fields. -/
def HasReason (addrType : UInt32) : Prop :=
  (addrType = addrTypeIpv4 ∨ addrType = addrTypeIpv6 → 5 ≤ fields.length) ∧
    (addrType = addrTypeIpv4v6 → 6 ≤ fields.length)

/-- The line has the fields that its command uses. -/
structure Enough : Prop where
  ifdown : fields[1]? = some ['i', 'f', 'd', 'o', 'w', 'n'] → 3 ≤ fields.length
  mtu : fields[1]? = some ['m', 't', 'u'] → 3 ≤ fields.length
  ho : fields[1]? = some ['h', 'o'] → fields.length ≠ 7
  addressed : ∀ name ∈ [['i', 'f', 'u', 'p'], ['i', 'f', 'c', 'h', 'g'], ['i', 'p', 'c', 'h', 'g']],
    fields[1]? = some name →
      ∀ txt, fields[2]? = some txt → HasReason fields (strtoul 16 txt).toUInt32

end Fields

/-! ## The branches -/

section Branches

variable {fields : List (List Char)}

theorem exists_getElem?_iff {α : Type} {xs : List α} {i : Nat} :
    (∃ x, xs[i]? = some x) ↔ i < xs.length := by
  rw [← Option.isSome_iff_exists]
  simp

theorem exists_reasonAt_iff (addrType : UInt32) :
    (∃ reason, reasonAt fields addrType = some reason) ↔ HasReason fields addrType := by
  have hmap : ∀ i, (∃ reason, fields[i]?.map some = some reason) ↔ i < fields.length := by
    intro i
    rw [← exists_getElem?_iff, ← Option.isSome_iff_exists, Option.isSome_map,
      Option.isSome_iff_exists]
  unfold reasonAt HasReason
  split
  · rename_i h
    have hne : addrType ≠ addrTypeIpv4v6 := by
      rintro rfl
      revert h
      decide
    rw [hmap]
    exact ⟨fun hlt => ⟨fun _ => hlt, fun heq => absurd heq hne⟩, fun hhas => hhas.1 h⟩
  · rename_i h
    split
    · rename_i heq
      rw [hmap]
      exact ⟨fun hlt => ⟨fun h' => absurd h' h, fun _ => hlt⟩, fun hhas => hhas.2 heq⟩
    · rename_i hne
      exact ⟨fun _ => ⟨fun h' => absurd h' h, fun heq => absurd heq hne⟩, fun _ => ⟨_, rfl⟩⟩

/-- The addresses never stand in the way; the reason does when it is missing. -/
theorem parserAddrStr_eq (addrType : UInt32) :
    parserAddrStr addrType (some fields[3]?) (some fields[4]?) (some fields[5]?) =
      (reasonAt fields addrType).map fun reason =>
        (⟨addrType, addrV4At fields addrType 3, addrV6At fields addrType 3⟩, reason) := by
  unfold parserAddrStr reasonAt addrV4At addrV6At Arg.text
  by_cases h4 : addrType = addrTypeIpv4
  · subst h4
    cases fields[4]? <;> rfl
  · by_cases h6 : addrType = addrTypeIpv6
    · subst h6
      cases fields[4]? <;> rfl
    · by_cases h46 : addrType = addrTypeIpv4v6
      · subst h46
        cases fields[5]? <;> rfl
      · simp only [h4, h6, h46, or_false, if_false, Option.map_some]

theorem parserHoAddrStr_eq (addrType : UInt32) :
    parserHoAddrStr addrType (some fields[8]?) (some fields[9]?) =
      some (addrV4At fields addrType 8, addrV6At fields addrType 8) := by
  unfold parserHoAddrStr addrV4At addrV6At
  by_cases h4 : addrType = addrTypeIpv4
  · subst h4
    rfl
  · by_cases h6 : addrType = addrTypeIpv6
    · subst h6
      rfl
    · by_cases h46 : addrType = addrTypeIpv4v6
      · subst h46
        rfl
      · simp only [h4, h6, h46, or_false, if_false]

theorem argNumber_eq_some_iff {base i : Nat} {v : UInt32} :
    argNumber base (some fields[i]?) = some v ↔ NumberAt fields base i v := by
  unfold argNumber Arg.text NumberAt
  rw [Option.join_some, Option.map_eq_some_iff]
  simp only [eq_comm (a := v)]

/-- What the branch of `ifup`, `ifchg` and `ipchg` needs, and what it makes. -/
theorem ipBranch_spec (transIntfId : UInt32) (request : IpParameter → Request) :
    ((∃ outcome, ipBranch transIntfId request fields.length (fun i => some fields[i]?) =
        some outcome) ↔
      ∀ txt, fields[2]? = some txt → HasReason fields (strtoul 16 txt).toUInt32) ∧
    ∀ obj, ipBranch transIntfId request fields.length (fun i => some fields[i]?) = some (some obj) →
      ∃ ip, obj.transIntfId = transIntfId ∧ obj.request = request ip ∧
        GivenIp fields ip obj.reason := by
  unfold ipBranch
  split
  · rename_i hlt
    have hnone : fields[2]? = none := List.getElem?_eq_none (by omega)
    rw [hnone]
    exact ⟨⟨fun _ => nofun, fun _ => ⟨_, rfl⟩⟩, nofun⟩
  · rename_i hge
    obtain ⟨txt, htxt⟩ := exists_getElem?_iff.mpr (show 2 < fields.length by omega)
    have htype : argNumber 16 (some fields[2]?) = some (strtoul 16 txt).toUInt32 :=
      argNumber_eq_some_iff.mpr ⟨txt, htxt, rfl⟩
    simp only [htype, bind, Option.bind_some, parserAddrStr_eq]
    constructor
    · rw [htxt]
      simp only [Option.some.injEq, forall_eq', ← exists_reasonAt_iff]
      cases reasonAt fields (strtoul 16 txt).toUInt32 with
      | none => simp only [Option.map_none, Option.bind_none, reduceCtorEq, exists_false]
      | some reason => exact ⟨fun _ => ⟨_, rfl⟩, fun _ => ⟨_, rfl⟩⟩
    · intro obj hobj
      cases hreason : reasonAt fields (strtoul 16 txt).toUInt32 with
      | none => rw [hreason] at hobj; cases hobj
      | some reason =>
        rw [hreason] at hobj
        cases hobj
        exact ⟨_, rfl, rfl, ⟨txt, htxt, rfl⟩, rfl, rfl, hreason⟩

/-- The reason of `ifdown` is used whether it is there or not. -/
theorem ifdownBranch_spec (transIntfId : UInt32) :
    ((∃ outcome, ifdownBranch transIntfId (fun i => some fields[i]?) = some outcome) ↔
      3 ≤ fields.length) ∧
    ∀ obj, ifdownBranch transIntfId (fun i => some fields[i]?) = some (some obj) →
      ∃ txt, fields[2]? = some txt ∧ obj = ⟨transIntfId, .ifdown, some txt⟩ := by
  unfold ifdownBranch Arg.text
  rw [Option.join_some, ← Nat.lt_iff_add_one_le, ← exists_getElem?_iff]
  cases fields[2]? with
  | none => exact ⟨⟨nofun, nofun⟩, nofun⟩
  | some txt =>
    refine ⟨⟨fun _ => ⟨_, rfl⟩, fun _ => ⟨_, rfl⟩⟩, fun obj h => ?_⟩
    cases h
    exact ⟨_, rfl, rfl⟩

/-- The size of `mtu` is used whether it is there or not. -/
theorem mtuBranch_spec (transIntfId : UInt32) :
    ((∃ outcome, mtuBranch transIntfId (fun i => some fields[i]?) = some outcome) ↔
      3 ≤ fields.length) ∧
    ∀ obj, mtuBranch transIntfId (fun i => some fields[i]?) = some (some obj) →
      ∃ mtuSize, NumberAt fields 10 2 mtuSize ∧ obj = ⟨transIntfId, .setmtu mtuSize, none⟩ := by
  unfold mtuBranch argNumber Arg.text NumberAt
  rw [Option.join_some, ← Nat.lt_iff_add_one_le, ← exists_getElem?_iff]
  cases fields[2]? with
  | none => exact ⟨⟨nofun, nofun⟩, nofun⟩
  | some txt =>
    refine ⟨⟨fun _ => ⟨_, rfl⟩, fun _ => ⟨_, rfl⟩⟩, fun obj h => ?_⟩
    cases h
    exact ⟨_, ⟨_, rfl, rfl⟩, rfl⟩

/-- The branch of `ho` asks for seven fields and uses eight. -/
theorem hoBranch_spec (transIntfId : UInt32) :
    ((∃ outcome, hoBranch transIntfId fields.length (fun i => some fields[i]?) = some outcome) ↔
      fields.length ≠ 7) ∧
    ∀ obj, hoBranch transIntfId fields.length (fun i => some fields[i]?) = some (some obj) →
      ∃ info addrV4 addrV6, obj.transIntfId = transIntfId ∧
        obj.request = .pdnho info addrV4 addrV6 ∧ obj.reason = none ∧
        GivenHo fields info addrV4 addrV6 := by
  unfold hoBranch
  split
  · exact ⟨⟨fun _ => by omega, fun _ => ⟨_, rfl⟩⟩, nofun⟩
  · rename_i hge
    simp only [bind, parserHoAddrStr_eq, Option.bind_some]
    have hnumber : ∀ base i, i < fields.length →
        ∃ v, argNumber base (some fields[i]?) = some v ∧ NumberAt fields base i v := by
      intro base i hi
      obtain ⟨txt, htxt⟩ := exists_getElem?_iff.mpr hi
      exact ⟨_, argNumber_eq_some_iff.mpr ⟨txt, htxt, rfl⟩, txt, htxt, rfl⟩
    obtain ⟨txt, htxt⟩ := exists_getElem?_iff.mpr (show 2 < fields.length by omega)
    have hcid : argInt (some fields[2]?) = some (Int32.ofInt ((strtol txt).getD 0)) := by
      rw [htxt]
      rfl
    obtain ⟨hostate, hhostate, hgiven3⟩ := hnumber 10 3 (by omega)
    obtain ⟨isSucc, hisSucc, hgiven4⟩ := hnumber 10 4 (by omega)
    obtain ⟨srcRan, hsrcRan, hgiven5⟩ := hnumber 10 5 (by omega)
    obtain ⟨tgtRan, htgtRan, hgiven6⟩ := hnumber 10 6 (by omega)
    simp only [hcid, hhostate, hisSucc, hsrcRan, htgtRan, Option.bind_some]
    by_cases hseven : fields.length = 7
    · have hnone : argNumber 16 (some fields[7]?) = none := by
        rw [List.getElem?_eq_none (by omega)]
        rfl
      simp only [hnone, Option.bind_none, reduceCtorEq, exists_false, hseven, ne_eq,
        not_true_eq_false, true_and]
      exact nofun
    · obtain ⟨addrType, haddrType, hgiven7⟩ := hnumber 16 7 (by omega)
      simp only [haddrType, Option.bind_some]
      refine ⟨⟨fun _ => hseven, fun _ => ⟨_, rfl⟩⟩, fun obj hobj => ?_⟩
      cases hobj
      exact ⟨_, _, _, rfl, rfl, rfl,
        ⟨⟨txt, htxt, rfl⟩, hgiven3, hgiven4, hgiven5, hgiven6, hgiven7, rfl, rfl⟩⟩

/-- What `Enough` asks for when the name of the command is known. -/
theorem enough_iff_of_name {name : List Char} (hname : fields[1]? = some name) :
    Enough fields ↔
      (name = ['i', 'f', 'd', 'o', 'w', 'n'] → 3 ≤ fields.length) ∧
      (name = ['m', 't', 'u'] → 3 ≤ fields.length) ∧
      (name = ['h', 'o'] → fields.length ≠ 7) ∧
      (name ∈ [['i', 'f', 'u', 'p'], ['i', 'f', 'c', 'h', 'g'], ['i', 'p', 'c', 'h', 'g']] →
        ∀ txt, fields[2]? = some txt → HasReason fields (strtoul 16 txt).toUInt32) := by
  constructor
  · rintro ⟨hifdown, hmtu, hho, haddressed⟩
    rw [hname] at hifdown hmtu hho haddressed
    exact ⟨fun h => hifdown (h ▸ rfl), fun h => hmtu (h ▸ rfl), fun h => hho (h ▸ rfl),
      fun h => haddressed name h rfl⟩
  · rintro ⟨hifdown, hmtu, hho, haddressed⟩
    constructor
    · exact fun h => hifdown (Option.some.inj (hname.symm.trans h))
    · exact fun h => hmtu (Option.some.inj (hname.symm.trans h))
    · exact fun h => hho (Option.some.inj (hname.symm.trans h))
    · intro nm hnm h
      obtain rfl := Option.some.inj (hname.symm.trans h)
      exact haddressed hnm

theorem given_of_ip {obj : CmdObj} {transIntfId : UInt32} (request : IpParameter → Request)
    (hrequest : request = .ifup ∨ request = .ifchg ∨ request = .ipchg)
    (hid : NumberAt fields 10 0 transIntfId) (hname : ∀ ip, fields[1]? = some (request ip).name)
    (h : ∃ ip, obj.transIntfId = transIntfId ∧ obj.request = request ip ∧
      GivenIp fields ip obj.reason) : Given fields obj := by
  obtain ⟨id, request', reason⟩ := obj
  obtain ⟨ip, rfl, rfl, hip⟩ := h
  refine ⟨hid, hname ip, ?_⟩
  rcases hrequest with rfl | rfl | rfl
  · exact hip
  · exact hip
  · exact hip

/-- What is made of the fields of a line. -/
theorem recvFields_spec :
    ((∃ outcome, recvFields fields.length (fun i => some fields[i]?) = some outcome) ↔
      Enough fields) ∧
    ∀ obj, recvFields fields.length (fun i => some fields[i]?) = some (some obj) →
      Given fields obj := by
  unfold recvFields
  split
  · rename_i hlt
    have hnone : fields[1]? = none := List.getElem?_eq_none (by omega)
    refine ⟨⟨fun _ => ⟨?_, ?_, ?_, ?_⟩, fun _ => ⟨_, rfl⟩⟩, nofun⟩
    all_goals
      rw [hnone]
      nofun
  · rename_i hge
    obtain ⟨idTxt, hid⟩ := exists_getElem?_iff.mpr (show 0 < fields.length by omega)
    obtain ⟨name, hname⟩ := exists_getElem?_iff.mpr (show 1 < fields.length by omega)
    have hgiven : NumberAt fields 10 0 (strtoul 10 idTxt).toUInt32 := ⟨idTxt, hid, rfl⟩
    have htext : Arg.text (some fields[1]?) = some name := hname
    simp only [argNumber_eq_some_iff.mpr hgiven, htext, bind, Option.bind_some,
      enough_iff_of_name hname]
    split
    · rename_i heq
      subst heq
      obtain ⟨hiff, hobj⟩ := ipBranch_spec (strtoul 10 idTxt).toUInt32 .ifup
      exact ⟨hiff.trans (by simp), fun obj h =>
        given_of_ip .ifup (by simp) hgiven (fun _ => hname) (hobj obj h)⟩
    split
    · rename_i heq
      subst heq
      obtain ⟨hiff, hobj⟩ := ifdownBranch_spec (strtoul 10 idTxt).toUInt32
      refine ⟨hiff.trans (by simp), fun obj h => ?_⟩
      obtain ⟨txt, htxt, rfl⟩ := hobj obj h
      exact ⟨hgiven, hname, txt, htxt, rfl⟩
    split
    · rename_i heq
      subst heq
      obtain ⟨hiff, hobj⟩ := mtuBranch_spec (strtoul 10 idTxt).toUInt32
      refine ⟨hiff.trans (by simp), fun obj h => ?_⟩
      obtain ⟨mtuSize, hmtu, rfl⟩ := hobj obj h
      exact ⟨hgiven, hname, hmtu, rfl⟩
    split
    · rename_i heq
      subst heq
      obtain ⟨hiff, hobj⟩ := ipBranch_spec (strtoul 10 idTxt).toUInt32 .ifchg
      exact ⟨hiff.trans (by simp), fun obj h =>
        given_of_ip .ifchg (by simp) hgiven (fun _ => hname) (hobj obj h)⟩
    split
    · rename_i heq
      subst heq
      obtain ⟨hiff, hobj⟩ := hoBranch_spec (strtoul 10 idTxt).toUInt32
      refine ⟨hiff.trans (by simp), fun obj h => ?_⟩
      obtain ⟨info, addrV4, addrV6, hid', hrequest, hreason, hho⟩ := hobj obj h
      obtain ⟨id, request, reason⟩ := obj
      cases hid'
      cases hrequest
      exact ⟨hgiven, hname, hho, hreason⟩
    split
    · rename_i heq
      subst heq
      obtain ⟨hiff, hobj⟩ := ipBranch_spec (strtoul 10 idTxt).toUInt32 .ipchg
      exact ⟨hiff.trans (by simp), fun obj h =>
        given_of_ip .ipchg (by simp) hgiven (fun _ => hname) (hobj obj h)⟩
    · rename_i hifup hifdown hmtu hifchg hho hipchg
      refine ⟨⟨fun _ => ?_, fun _ => ⟨_, rfl⟩⟩, nofun⟩
      simp [hifup, hifdown, hmtu, hifchg, hho, hipchg]

end Branches

/-! ## The line in memory -/

namespace EifLine

variable (line : EifLine)

theorem strcspn_eq : line.strcspn = eifPrefix.length + line.text.length := by
  unfold strcspn text bytes eifPrefix
  rw [List.takeWhile_append_of_pos (List.all_eq_true.mp rfl), List.length_append]

/-- The text up to the first line end stands behind `+EIF: `. -/
theorem str_text : Str line.mem (line.strcspn + 1) eifPrefix.length line.text := by
  have hindex := line.strcspn_eq
  have hle : line.text <+: line.args := List.takeWhile_prefix _
  refine str_of_slice (by omega) (fun hz => line.zero_notMem (hle.subset hz)) ?_ ?_
  · intro i hi
    have hlt : i < line.args.length := lt_of_lt_of_le hi hle.length_le
    rw [mem, Function.update_of_ne (by omega), bytes, List.getD_append_right _ _ _ _ (by omega),
      Nat.add_sub_cancel_left, List.getD_eq_getElem _ _ hlt, hle.getElem hi]
  · rw [← hindex, mem, Function.update_self]

/-- In front of the text stands a space, and before it a colon. -/
theorem mem_of_lt {i : Nat} (hi : i < eifPrefix.length) : line.mem i = eifPrefix.getD i 0 := by
  have hindex := line.strcspn_eq
  rw [mem, Function.update_of_ne (by omega), bytes, List.getD_append _ _ _ _ hi]

end EifLine

theorem parseLine_spec (line : EifLine) :
    match lineFields 16 line.text with
    | none => parseLine line = none
    | some fields => ∃ mem argv, parseLine line = some (mem, argv) ∧
        List.Forall₂ (Str mem (line.strcspn + 1)) argv fields := by
  have hindex := line.strcspn_eq
  have hspec := atParser_spec 16 line.str_text (by omega) (j := 4) (by decide)
    (by rw [line.mem_of_lt (by decide)]; decide) (fun i hi hi' => by
      obtain rfl : i = 5 := by
        have hlen : eifPrefix.length = 6 := rfl
        omega
      rw [line.mem_of_lt (by decide)]
      rfl)
  cases hfields : lineFields 16 line.text with
  | none =>
    rw [hfields] at hspec
    exact hspec
  | some fields =>
    rw [hfields] at hspec
    obtain ⟨mem, argv, hparse, hall, -⟩ := hspec
    exact ⟨mem, argv, hparse, hall⟩

/-- The entries of `argv` are the fields of the line. -/
theorem recvUrc_eq (line : EifLine) :
    recvUrc line = line.fields.bind fun fields =>
      recvFields fields.length fun i => some fields[i]? := by
  have hspec := parseLine_spec line
  unfold recvUrc EifLine.fields
  cases hfields : lineFields 16 line.text with
  | none =>
    rw [hfields] at hspec
    simp only [hspec]
    rfl
  | some fields =>
    rw [hfields] at hspec
    obtain ⟨mem, argv, hparse, hall⟩ := hspec
    simp only [hparse, bind, Option.bind_some, Option.map_some, List.length_map]
    rw [hall.length_eq]
    congr 1
    funext i
    cases hat : argv[i]? with
    | none =>
      have hle : fields.length ≤ i := by
        rw [← hall.length_eq]
        exact List.getElem?_eq_none_iff.mp hat
      simp only [List.getElem?_map, List.getElem?_eq_none hle, Option.map_none]
    | some p =>
      obtain ⟨hi, rfl⟩ := List.getElem?_eq_some_iff.mp hat
      have hi' : i < fields.length := by rwa [← hall.length_eq]
      have hstr : Str mem (line.strcspn + 1) argv[i] fields[i] := hall.get hi hi'
      simp only [strAt_str hstr, Option.map_some, List.getElem?_map, List.getElem?_eq_getElem hi']

/-! ## The result -/

/-- A line is parsed within its bytes and 16 entries, and is rejected or makes the object that its
fields describe. -/
structure LineHandled (line : EifLine) : Prop where
  parsed : ∃ mem argv, parseLine line = some (mem, argv) ∧ argv.length ≤ 16
  outcome : ∃ outcome, recvUrc line = some outcome ∧ ∀ obj, outcome = some obj →
    ∃ fields, line.fields = some fields ∧ Given fields obj

/-- A line is handled when its quotes are closed and the fields that its command uses are there. -/
theorem recvUrc_iff (line : EifLine) :
    LineHandled line ↔ ∃ fields, line.fields = some fields ∧ Enough fields := by
  constructor
  · rintro ⟨-, outcome, houtcome, -⟩
    rw [recvUrc_eq, Option.bind_eq_some_iff] at houtcome
    obtain ⟨fields, hfields, hrecv⟩ := houtcome
    exact ⟨fields, hfields, recvFields_spec.1.mp ⟨outcome, hrecv⟩⟩
  · rintro ⟨fields, hfields, henough⟩
    obtain ⟨outcome, hrecv⟩ := recvFields_spec.1.mpr henough
    refine ⟨?_, outcome, ?_, ?_⟩
    · have hspec := parseLine_spec line
      unfold EifLine.fields at hfields
      rw [Option.map_eq_some_iff] at hfields
      obtain ⟨raw, hraw, -⟩ := hfields
      rw [hraw] at hspec
      obtain ⟨mem, argv, hparse, hall⟩ := hspec
      exact ⟨mem, argv, hparse, hall.length_eq.trans_le (length_lineFields hraw)⟩
    · rw [recvUrc_eq, hfields]
      exact hrecv
    · rintro obj rfl
      exact ⟨fields, hfields, recvFields_spec.2 obj hrecv⟩

/-- `+EIF: 1,ifdown` has no reason. -/
def noReason : EifLine where
  args := [0x31, 0x2C, 0x69, 0x66, 0x64, 0x6F, 0x77, 0x6E]
  zero_notMem := by decide

/-- A null pointer is copied for a line that ends after the name of its command. -/
theorem noReason_fault : ¬ LineHandled noReason := by
  rintro ⟨-, outcome, houtcome, -⟩
  have hnone : recvUrc noReason = none := by decide +kernel
  rw [hnone] at houtcome
  cases houtcome

end MtkHw.NetAgent
