import MtkHw.Lib.Block
import Mathlib.Tactic.Common

/-!
# Blocks that are filled from the beginning

A `Packer` is a block and the position behind what has been put into it; the position is kept
modulo `m`.  As long as the block is smaller than `m`, a put that stays inside the block does not
wrap, so that what has been put is what the block starts with.

`Appends view I size f piece` says that a step appends a piece: it succeeds if and only if there is
one and it fits.  The rules are those of a program: a put, one step after the other, a loop.
-/

namespace MtkHw.Lib

universe u v w

/-- A block, and the position behind what has been put into it. -/
structure Packer (α : Type u) where
  block : Block α
  pos : Nat

namespace Packer

variable {α : Type u} {σ : Type v} {ι : Type w} {m size : Nat}

/-- Put some elements behind the others. -/
def put (m : Nat) (p : Packer α) (xs : List α) : Option (Packer α) :=
  (p.block.copyIn p.pos xs).map fun block => ⟨block, (p.pos + xs.length) % m⟩

/-- The block starts with what has been put into it. -/
structure Filled (p : Packer α) (size : Nat) (xs : List α) : Prop where
  holds : p.block.Holds size xs
  pos_eq : p.pos = xs.length

/-- Nothing has been put into the block. -/
theorem filled_nil {block : Block α} (h : block.size = size) :
    (Packer.mk block 0).Filled size [] :=
  ⟨⟨h, Nat.zero_le size, rfl⟩, rfl⟩

/-- A put succeeds if it fits. -/
theorem Filled.put {p : Packer α} {xs : List α} (h : p.Filled size xs) (hm : size < m)
    (ys : List α) (hroom : xs.length + ys.length ≤ size) :
    ∃ p', p.put m ys = some p' ∧ p'.Filled size (xs ++ ys) := by
  obtain ⟨block, hcopy, hholds⟩ := h.holds.copyIn ys hroom
  refine ⟨⟨block, (p.pos + ys.length) % m⟩, ?_, hholds, ?_⟩
  · rw [Packer.put, h.pos_eq, hcopy]
    rfl
  · change (p.pos + ys.length) % m = _
    rw [h.pos_eq, List.length_append, Nat.mod_eq_of_lt (Nat.lt_of_le_of_lt hroom hm)]

/-- A put that succeeds has fitted. -/
theorem Filled.of_put {p p' : Packer α} {xs ys : List α} (h : p.Filled size xs) (hm : size < m)
    (hput : p.put m ys = some p') : p'.Filled size (xs ++ ys) := by
  have hroom : xs.length + ys.length ≤ size := by
    rw [Packer.put, Option.map_eq_some_iff] at hput
    obtain ⟨block, hcopy, -⟩ := hput
    rw [Block.copyIn, h.pos_eq, h.holds.size_eq] at hcopy
    by_contra hover
    rw [if_neg hover] at hcopy
    cases hcopy
  obtain ⟨q, hq, hfilled⟩ := h.put hm ys hroom
  rw [hput] at hq
  cases hq
  exact hfilled

/-- A block that is filled has room for what it is filled with. -/
theorem Filled.length_le {p : Packer α} {xs : List α} (h : p.Filled size xs) : xs.length ≤ size :=
  h.holds.length_le

/-- What has been put is read back. -/
theorem Filled.copyOut {p : Packer α} {xs : List α} (h : p.Filled size xs) :
    p.block.copyOut 0 p.pos = some xs := by
  rw [h.pos_eq]
  exact h.holds.copyOut

/-! ## Programs -/

/-- From the states of `I`, a step appends the piece: it succeeds if and only if there is one and it
fits. -/
structure Appends (view : σ → Packer α) (I : σ → Prop) (size : Nat) (f : σ → Option σ)
    (piece : Option (List α)) : Prop where
  of_some : ∀ {s s' xs}, I s → (view s).Filled size xs → f s = some s' →
    ∃ ys, piece = some ys ∧ I s' ∧ (view s').Filled size (xs ++ ys)
  exists_some : ∀ {s xs ys}, I s → (view s).Filled size xs → piece = some ys →
    xs.length + ys.length ≤ size → ∃ s', f s = some s'

section Rules

variable {view : σ → Packer α} {I : σ → Prop} {f g : σ → Option σ} {piece piece' : Option (List α)}

/-- A put appends what it puts. -/
theorem appends_put (hm : size < m) (ys : List α) :
    Appends (fun p : Packer α => p) (fun _ => True) size (fun p => p.put m ys) (some ys) where
  of_some _ hfilled hput := ⟨ys, rfl, trivial, hfilled.of_put hm hput⟩
  exists_some := by
    rintro p xs _ - hfilled ⟨⟩ hroom
    obtain ⟨p', hput, -⟩ := hfilled.put hm ys hroom
    exact ⟨p', hput⟩

/-- Doing nothing appends nothing. -/
theorem appends_pure : Appends view I size some (some []) where
  of_some := by
    rintro s _ xs hI hfilled ⟨⟩
    exact ⟨[], rfl, hI, by rwa [List.append_nil]⟩
  exists_some _ _ _ _ := ⟨_, rfl⟩

/-- One step after the other. -/
theorem Appends.bind (hf : Appends view I size f piece) (hg : Appends view I size g piece') :
    Appends view I size (fun s => (f s).bind g)
      (piece.bind fun xs => piece'.map fun ys => xs ++ ys) where
  of_some := by
    intro s s'' xs hI hfilled hsome
    obtain ⟨s', hs', hs''⟩ := Option.bind_eq_some_iff.mp hsome
    obtain ⟨ys, rfl, hI', hfilled'⟩ := hf.of_some hI hfilled hs'
    obtain ⟨zs, rfl, hI'', hfilled''⟩ := hg.of_some hI' hfilled' hs''
    rw [List.append_assoc] at hfilled''
    exact ⟨ys ++ zs, rfl, hI'', hfilled''⟩
  exists_some := by
    intro s xs _ hI hfilled hpiece hroom
    obtain ⟨ys, rfl, hrest⟩ := Option.bind_eq_some_iff.mp hpiece
    obtain ⟨zs, rfl, rfl⟩ := Option.map_eq_some_iff.mp hrest
    rw [List.length_append, ← Nat.add_assoc] at hroom
    obtain ⟨s', hs'⟩ := hf.exists_some hI hfilled rfl (Nat.le_of_add_right_le hroom)
    obtain ⟨_, ⟨⟩, hI', hfilled'⟩ := hf.of_some hI hfilled hs'
    obtain ⟨s'', hs''⟩ := hg.exists_some hI' hfilled' rfl (by rwa [List.length_append])
    exact ⟨s'', by rw [hs', Option.bind_some, hs'']⟩

/-- A step that needs something that may be missing. -/
theorem Appends.lookup {β : Type*} {o : Option β} {body : β → σ → Option σ}
    {pieces : β → Option (List α)} (h : ∀ x, o = some x → Appends view I size (body x) (pieces x)) :
    Appends view I size (fun s => o.bind fun x => body x s) (o.bind pieces) := by
  cases o with
  | none =>
    refine ⟨fun _ _ hsome => ?_, fun _ _ hpiece _ => ?_⟩
    · cases hsome
    · cases hpiece
  | some x => exact h x rfl

/-- A loop appends the pieces of its rounds. -/
theorem Appends.foldlM {body : σ → ι → Option σ} {pieces : ι → Option (List α)} (items : List ι)
    (h : ∀ i ∈ items, Appends view I size (fun s => body s i) (pieces i)) :
    Appends view I size (fun s => items.foldlM body s)
      ((items.mapM pieces).map List.flatten) := by
  induction items with
  | nil => exact appends_pure
  | cons i items ih =>
    have hrest := ih fun j hj => h j (List.mem_cons_of_mem i hj)
    have hround := (h i List.mem_cons_self).bind hrest
    have hpiece : ((i :: items).mapM pieces).map List.flatten = (pieces i).bind fun xs =>
        ((items.mapM pieces).map List.flatten).map fun ys => xs ++ ys := by
      rw [List.mapM_cons]
      cases pieces i with
      | none => rfl
      | some xs =>
        cases items.mapM pieces with
        | none => rfl
        | some rest => rfl
    rw [hpiece]
    exact hround

/-- What a step that appends a piece does to a block into which nothing has been put. -/
theorem Appends.from_nil {s : σ} (h : Appends view I size f piece) (hI : I s)
    (hempty : (view s).Filled size []) :
    (∀ s', f s = some s' → ∃ ys, piece = some ys ∧ (view s').Filled size ys) ∧
      ((∃ s', f s = some s') ↔ ∃ ys, piece = some ys ∧ ys.length ≤ size) := by
  refine ⟨fun s' hs' => ?_, fun ⟨s', hs'⟩ => ?_, fun ⟨ys, hpiece, hroom⟩ => ?_⟩
  · obtain ⟨ys, hpiece, -, hfilled⟩ := h.of_some hI hempty hs'
    exact ⟨ys, hpiece, hfilled⟩
  · obtain ⟨ys, hpiece, -, hfilled⟩ := h.of_some hI hempty hs'
    exact ⟨ys, hpiece, hfilled.length_le⟩
  · exact h.exists_some hI hempty hpiece (by rwa [List.length_nil, Nat.zero_add])

end Rules

end Packer

end MtkHw.Lib
