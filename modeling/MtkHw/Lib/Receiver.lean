import Mathlib.Data.List.Basic
import Mathlib.Tactic.Common

/-!
# Receivers that are fed a stream in pieces

A `Receiver` buffers pieces of a byte stream as they arrive and is asked, at any
moment, for the next frame.  Its user decides when to feed, how much, and when
to ask: a schedule is a list of `Op`s.

The file isolates the argument that the frames delivered do not depend on the
schedule.  `Decodes R Rel` says what has to be shown once for a receiver: a
relation `Rel s fs w`, read "in state `s`, the stream `w` still to come completes
exactly the frames `fs`", is kept by feeding and answered correctly by asking.
From it follow `Decodes.run_feeds` (what is delivered so far is a prefix of the
frames sent, at every moment of every schedule) and `Decodes.run_all` (once
everything has been fed, enough asking delivers all of them and nothing else).

Asking may fail outright (`none`), which stands for a program that aborts; the
theorems then also say that it never does.
-/

namespace MtkHw.Lib

universe u v w

/-- A receiver with states `σ`, stream elements `β` and frames `φ`. -/
structure Receiver (σ : Type u) (β : Type v) (φ : Type w) where
  /-- How much may be fed at once. -/
  free : σ → Nat
  /-- Append a piece of the stream. -/
  feed : σ → List β → σ
  /-- Ask for the next frame; the receiver may have none yet. -/
  next : σ → Option (Option φ × σ)

namespace Receiver

variable {σ : Type u} {β : Type v} {φ : Type w}

/-- One action of the user of a receiver. -/
inductive Op (β : Type v) where
  | /-- Feed a piece of the stream. -/ feed (c : List β)
  | /-- Ask for a frame. -/ ask

/-- Everything a schedule feeds. -/
def fed : List (Op β) → List β
  | [] => []
  | .feed c :: ops => c ++ fed ops
  | .ask :: ops => fed ops

theorem fed_append (ops ops' : List (Op β)) : fed (ops ++ ops') = fed ops ++ fed ops' := by
  induction ops with
  | nil => rfl
  | cons op ops ih =>
    cases op with
    | feed c => simp [fed, ih]
    | ask => exact ih

variable (R : Receiver σ β φ)

/-- The frames delivered by a schedule, and the state it ends in. -/
def run : σ → List (Op β) → Option (List φ × σ)
  | s, [] => some ([], s)
  | s, .feed c :: ops => run (R.feed s c) ops
  | s, .ask :: ops =>
      (R.next s).bind fun p => (run p.2 ops).map fun q => (p.1.toList ++ q.1, q.2)

/-- No piece is larger than the room there is for it. -/
def Fits : σ → List (Op β) → Prop
  | _, [] => True
  | s, .feed c :: ops => c.length ≤ R.free s ∧ Fits (R.feed s c) ops
  | s, .ask :: ops => ∀ f s', R.next s = some (f, s') → Fits s' ops

/-- The start of a schedule that fits does. -/
theorem Fits.of_append {s : σ} {ops ops' : List (Op β)} (h : R.Fits s (ops ++ ops')) :
    R.Fits s ops := by
  induction ops generalizing s with
  | nil => trivial
  | cons op ops ih =>
    cases op with
    | feed c => exact ⟨h.1, ih h.2⟩
    | ask => exact fun f s' hnext => ih (h f s' hnext)

/-- A schedule may be cut in two. -/
theorem run_append {s t : σ} {ops ops' : List (Op β)} {fs : List φ}
    (h : R.run s ops = some (fs, t)) :
    R.run s (ops ++ ops') = (R.run t ops').map fun q => (fs ++ q.1, q.2) := by
  induction ops generalizing s fs with
  | nil =>
    cases h
    simp
  | cons op ops ih =>
    cases op with
    | feed c => exact ih h
    | ask =>
      simp only [run, Option.bind_eq_some_iff, Option.map_eq_some_iff] at h
      obtain ⟨⟨f, s'⟩, hnext, ⟨gs, t'⟩, hrun, heq⟩ := h
      cases heq
      simp only [List.cons_append, run, hnext, Option.bind_some, ih hrun, Option.map_map]
      congr 1
      funext q
      simp

/-- `Rel s fs w`: in state `s`, the stream `w` still to come completes exactly
the frames `fs`.  These are the two facts that make it so. -/
structure Decodes (Rel : σ → List φ → List β → Prop) : Prop where
  /-- Feeding moves a piece of the stream into the state. -/
  feed : ∀ {s fs c w}, Rel s fs (c ++ w) → c.length ≤ R.free s → Rel (R.feed s c) fs w
  /-- Asking delivers the first frame, or delivers nothing because a part of the
  stream is still to come. -/
  next : ∀ {s fs w}, Rel s fs w →
    (∃ s', R.next s = some (none, s') ∧ Rel s' fs w ∧ (w = [] → fs = [])) ∨
      ∃ f fs' s', fs = f :: fs' ∧ R.next s = some (some f, s') ∧ Rel s' fs' w

namespace Decodes

variable {R} {Rel : σ → List φ → List β → Prop} (D : R.Decodes Rel)
include D

/-- Whatever the schedule, the frames delivered are the first ones sent. -/
theorem run_feeds {s : σ} {fs : List φ} {w : List β} {ops : List (Op β)}
    (h : Rel s fs (fed ops ++ w)) (hfit : R.Fits s ops) :
    ∃ out rest t, R.run s ops = some (out, t) ∧ fs = out ++ rest ∧ Rel t rest w := by
  induction ops generalizing s fs with
  | nil => exact ⟨[], fs, s, rfl, rfl, h⟩
  | cons op ops ih =>
    cases op with
    | feed c =>
      obtain ⟨hc, hops⟩ := hfit
      rw [fed, List.append_assoc] at h
      exact ih (D.feed h hc) hops
    | ask =>
      rcases D.next h with ⟨s', hnext, hs', -⟩ | ⟨f, fs', s', rfl, hnext, hs'⟩
      · obtain ⟨out, rest, t, hrun, hfs, ht⟩ := ih hs' (hfit _ _ hnext)
        exact ⟨out, rest, t, by simp [run, hnext, hrun], hfs, ht⟩
      · obtain ⟨out, rest, t, hrun, rfl, ht⟩ := ih hs' (hfit _ _ hnext)
        exact ⟨f :: out, rest, t, by simp [run, hnext, hrun], rfl, ht⟩

/-- At every moment of a schedule, the frames delivered are the first ones sent. -/
theorem run_of_append {s : σ} {fs : List φ} {ops ops' : List (Op β)}
    (h : Rel s fs (fed ops')) (hfit : R.Fits s ops') (hpre : ops <+: ops') :
    ∃ out t rest, R.run s ops = some (out, t) ∧ out <+: fs ∧ Rel t rest (fed (ops'.drop ops.length)) := by
  obtain ⟨tail, rfl⟩ := hpre
  rw [fed_append] at h
  obtain ⟨out, rest, t, hrun, rfl, ht⟩ := D.run_feeds h (Fits.of_append R hfit)
  refine ⟨out, t, rest, hrun, List.prefix_append .., ?_⟩
  rwa [List.drop_left' rfl]

/-- When nothing is still to come, asking often enough delivers every frame. -/
theorem run_asks {s : σ} {fs : List φ} {k : Nat} (h : Rel s fs []) (hk : fs.length ≤ k) :
    ∃ t, R.run s (List.replicate k .ask) = some (fs, t) ∧ Rel t [] [] := by
  induction k generalizing s fs with
  | zero =>
    obtain rfl := List.eq_nil_of_length_eq_zero (Nat.le_zero.mp hk)
    exact ⟨s, rfl, h⟩
  | succ k ih =>
    rcases D.next h with ⟨s', hnext, hs', hnil⟩ | ⟨f, fs', s', rfl, hnext, hs'⟩
    · obtain rfl := hnil rfl
      obtain ⟨t, hrun, ht⟩ := ih hs' (Nat.zero_le k)
      exact ⟨t, by simp [List.replicate_succ, run, hnext, hrun], ht⟩
    · obtain ⟨t, hrun, ht⟩ := ih hs' (Nat.le_of_succ_le_succ hk)
      exact ⟨t, by simp [List.replicate_succ, run, hnext, hrun], ht⟩

/-- Once the whole stream has been fed, asking often enough delivers exactly the
frames that were sent. -/
theorem run_all {s : σ} {fs : List φ} {ops : List (Op β)} {k : Nat}
    (h : Rel s fs (fed ops)) (hfit : R.Fits s ops) (hk : fs.length ≤ k) :
    ∃ t, R.run s (ops ++ List.replicate k .ask) = some (fs, t) ∧ Rel t [] [] := by
  obtain ⟨out, rest, t, hrun, rfl, ht⟩ := D.run_feeds (w := []) (by simpa using h) hfit
  obtain ⟨t', hrun', ht'⟩ := D.run_asks (k := k) ht (by simp at hk; omega)
  exact ⟨t', by rw [R.run_append hrun, hrun']; rfl, ht'⟩

end Decodes

end Receiver

end MtkHw.Lib
