import Mathlib.Data.List.Basic
import Mathlib.Tactic.Common

/-!
# Reading and writing a file descriptor

`read()` and `write()` may move fewer bytes than they are asked to, or none because a
signal arrived.  What the coming calls do is given by a script, one entry a call; when
the script has ended every call moves all the bytes it can.

`read_cases` says once what a call of `read()` does.
-/

namespace MtkHw.Lib

/-- What a call is allowed to do. -/
inductive Outcome where
  | /-- Move at most `count` bytes. -/ upto (count : Nat)
  | /-- Fail with `EINTR`. -/ interrupted
  | /-- Fail with another error. -/ failed
deriving DecidableEq, Repr

/-- What a call returns. -/
inductive Transfer where
  | /-- The bytes that were moved; their number is the result. -/ count (bytes : List UInt8)
  | interrupted
  | failed
  | /-- There is nothing to read, and nothing more will come. -/ blocked
deriving DecidableEq, Repr

/-- `write(fd, bytes)` -/
def write (bytes : List UInt8) : List Outcome → Transfer × List Outcome
  | [] => (.count bytes, [])
  | .upto k :: script => (.count (bytes.take k), script)
  | .interrupted :: script => (.interrupted, script)
  | .failed :: script => (.failed, script)

/-- `read(fd, _, want)`, when `bytes` are there to be read. -/
def read (want : Nat) (bytes : List UInt8) :
    List Outcome → Transfer × List UInt8 × List Outcome
  | [] => if bytes = [] then (.blocked, [], []) else (.count (bytes.take want), bytes.drop want, [])
  | .upto k :: script =>
      if k = 0 then (.count [], bytes, script)
      else if bytes = [] then (.blocked, [], script)
      else (.count (bytes.take (min k want)), bytes.drop (min k want), script)
  | .interrupted :: script => (.interrupted, bytes, script)
  | .failed :: script => (.failed, bytes, script)

/-- A call that moves bytes does not move fewer than `want` when it could move as many. -/
def Outcome.Full (want : Nat) : Outcome → Prop
  | .upto k => k = 0 ∨ want ≤ k
  | .interrupted => True
  | .failed => True

/-- What a call of `read()` does. -/
inductive ReadCase (want : Nat) (bytes : List UInt8) (script : List Outcome) :
    Transfer → List UInt8 → List Outcome → Prop
  | interrupted {script'} : script = .interrupted :: script' →
      ReadCase want bytes script .interrupted bytes script'
  | failed {script'} : script = .failed :: script' → ReadCase want bytes script .failed bytes script'
  | nothing {script'} : script = .upto 0 :: script' →
      ReadCase want bytes script (.count []) bytes script'
  | blocked {script'} : bytes = [] → ReadCase want bytes script .blocked [] script'
  | got {bs rest script'} : bytes = bs ++ rest → bs ≠ [] → bs.length ≤ want →
      ((∀ e ∈ script, e.Full want) → want ≤ bytes.length → bs.length = want) →
      script' = script.tail → ReadCase want bytes script (.count bs) rest script'

theorem read_cases {want : Nat} (hwant : 0 < want) (bytes : List UInt8) (script : List Outcome) :
    ReadCase want bytes script (read want bytes script).1 (read want bytes script).2.1
      (read want bytes script).2.2 := by
  have hgot : ∀ k, 0 < k → bytes ≠ [] →
      ((∀ e ∈ script, e.Full want) → want ≤ k) →
      ReadCase want bytes script (.count (bytes.take (min k want))) (bytes.drop (min k want))
        script.tail := by
    intro k hk hne hfull
    have hpos : 0 < bytes.length := List.length_pos_iff.mpr hne
    refine .got (List.take_append_drop _ _).symm ?_ ?_ ?_ rfl
    · rw [← List.length_pos_iff, List.length_take]
      omega
    · rw [List.length_take]
      omega
    · intro hall hlen
      have := hfull hall
      rw [List.length_take]
      omega
  cases script with
  | nil =>
    rw [read]
    by_cases hnil : bytes = []
    · rw [if_pos hnil]
      exact .blocked hnil
    · rw [if_neg hnil]
      have := hgot want hwant hnil fun _ => Nat.le_refl want
      rwa [Nat.min_self] at this
  | cons e script =>
    cases e with
    | interrupted => exact .interrupted rfl
    | failed => exact .failed rfl
    | upto k =>
      rw [read]
      by_cases hk : k = 0
      · rw [if_pos hk, hk]
        exact .nothing rfl
      · rw [if_neg hk]
        by_cases hnil : bytes = []
        · rw [if_pos hnil]
          exact .blocked hnil
        · rw [if_neg hnil]
          refine hgot k (Nat.pos_of_ne_zero hk) hnil fun hall => ?_
          exact (hall _ List.mem_cons_self).resolve_left hk

namespace ReadCase

variable {want : Nat} {bytes rest : List UInt8} {script script' : List Outcome} {t : Transfer}

/-- A call that does not block uses up a byte or an entry of the script. -/
theorem size_lt (h : ReadCase want bytes script t rest script') (hblocked : t ≠ .blocked) :
    rest.length + script'.length < bytes.length + script.length := by
  cases h with
  | interrupted hs => rw [hs]; exact Nat.lt_succ_self _
  | failed hs => rw [hs]; exact Nat.lt_succ_self _
  | nothing hs => rw [hs]; exact Nat.lt_succ_self _
  | blocked => exact absurd rfl hblocked
  | got hbytes hne _ _ hs =>
    have := List.length_pos_iff.mpr hne
    rw [hbytes, hs, List.length_append, List.length_tail]
    omega

/-- The bytes that were read are the first ones, and not more than wanted. -/
theorem of_count {bs : List UInt8} (h : ReadCase want bytes script (.count bs) rest script') :
    bytes = bs ++ rest ∧ bs.length ≤ want := by
  cases h with
  | nothing => exact ⟨rfl, Nat.zero_le _⟩
  | got hsplit _ hlen => exact ⟨hsplit, hlen⟩

/-- What is left of the script. -/
theorem script_subset (h : ReadCase want bytes script t rest script') (hblocked : t ≠ .blocked) :
    script' ⊆ script := by
  cases h with
  | interrupted hs => rw [hs]; exact List.subset_cons_self _ _
  | failed hs => rw [hs]; exact List.subset_cons_self _ _
  | nothing hs => rw [hs]; exact List.subset_cons_self _ _
  | blocked => exact absurd rfl hblocked
  | got _ _ _ _ hs => rw [hs]; exact fun _ => List.mem_of_mem_tail

end ReadCase

/-- A `write()` that may not be short moves all bytes. -/
theorem write_full {bytes : List UInt8} {script : List Outcome}
    (h : ∀ e ∈ script, ∃ k, e = .upto k ∧ bytes.length ≤ k) :
    write bytes script = (.count bytes, script.tail) := by
  cases script with
  | nil => rfl
  | cons e script =>
    obtain ⟨k, rfl, hk⟩ := h e List.mem_cons_self
    rw [write, List.take_of_length_le hk]
    rfl

end MtkHw.Lib
