import Mathlib.Data.List.Basic
import Mathlib.Tactic.Common

/-!
# Scanners

A scanner takes a stream element by element.  Each element leads to a new state, and may
complete an output or stop the scanner, which then takes nothing more.

`scan_append` says that a scanner does not care how its stream is cut, and `exists_first` finds
the element that completes the first output.
-/

namespace MtkHw.Lib.Scanner

universe u v w

/-- What one element does. -/
inductive Turn (σ : Type u) (φ : Type w) where
  | /-- The scanner goes on. -/ next (s : σ)
  | /-- An output is complete. -/ emit (e : φ) (s : σ)
  | /-- The scanner takes nothing more. -/ stop (s : σ)

/-- The end of a scan. -/
structure Scanned (σ : Type u) (φ : Type w) where
  final : σ
  out : List φ
  stopped : Bool

/-- The scan went on from an earlier one that has completed `out`. -/
def Scanned.after {σ : Type u} {φ : Type w} (r : Scanned σ φ) (out : List φ) : Scanned σ φ :=
  { r with out := out ++ r.out }

variable {σ : Type u} {β : Type v} {φ : Type w} (step : σ → β → Turn σ φ)

/-- Take a stream. -/
def scan : σ → List β → Scanned σ φ
  | s, [] => ⟨s, [], false⟩
  | s, b :: bs =>
      match step s b with
      | .next s => scan s bs
      | .emit e s => (scan s bs).after [e]
      | .stop s => ⟨s, [], true⟩

variable {step} {s t : σ} {b : β} {bs : List β}

@[simp] theorem scan_nil : scan step s [] = ⟨s, [], false⟩ := rfl

theorem scan_of_next (h : step s b = .next t) (bs : List β) :
    scan step s (b :: bs) = scan step t bs := by
  rw [scan, h]

theorem scan_of_emit {e : φ} (h : step s b = .emit e t) (bs : List β) :
    scan step s (b :: bs) = (scan step t bs).after [e] := by
  rw [scan, h]

theorem scan_of_stop (h : step s b = .stop t) (bs : List β) :
    scan step s (b :: bs) = ⟨t, [], true⟩ := by
  rw [scan, h]

/-- A stream may be cut in two. -/
theorem scan_append {out : List φ} (h : scan step s bs = ⟨t, out, false⟩) (cs : List β) :
    scan step s (bs ++ cs) = (scan step t cs).after out := by
  induction bs generalizing s out with
  | nil =>
    cases h
    rfl
  | cons b bs ih =>
    cases hstep : step s b with
    | next s' =>
      rw [scan_of_next hstep] at h
      rw [List.cons_append, scan_of_next hstep, ih h]
    | emit e s' =>
      rw [scan_of_emit hstep] at h
      rw [List.cons_append, scan_of_emit hstep]
      obtain ⟨hfinal, hout, hstopped⟩ := Scanned.mk.inj h
      have hrest : scan step s' bs = ⟨t, (scan step s' bs).out, false⟩ := by
        rw [← hfinal, ← hstopped]
      rw [ih hrest, ← hout]
      rfl
    | stop s' =>
      rw [scan_of_stop hstep] at h
      cases h

/-- After a stop nothing changes. -/
theorem scan_append_of_stopped (h : (scan step s bs).stopped = true) (cs : List β) :
    scan step s (bs ++ cs) = scan step s bs := by
  induction bs generalizing s with
  | nil => cases h
  | cons b bs ih =>
    rw [List.cons_append]
    cases hstep : step s b with
    | next s' =>
      rw [scan_of_next hstep] at h ⊢
      rw [scan_of_next hstep, ih h]
    | emit e s' =>
      rw [scan_of_emit hstep] at h ⊢
      rw [scan_of_emit hstep, ih h]
    | stop s' => rw [scan_of_stop hstep, scan_of_stop hstep]

/-- A scan that has not stopped has not stopped before. -/
theorem scan_of_append {cs : List β} (h : (scan step s (bs ++ cs)).stopped = false) :
    scan step s bs = ⟨(scan step s bs).final, (scan step s bs).out, false⟩ := by
  cases hstopped : (scan step s bs).stopped with
  | false => rw [← hstopped]
  | true =>
    rw [scan_append_of_stopped hstopped, hstopped] at h
    cases h

/-- The element that completes the first output. -/
theorem exists_first {e : φ} {es : List φ} (h : (scan step s bs).out = e :: es) :
    ∃ before b after t t', bs = before ++ b :: after ∧ scan step s before = ⟨t, [], false⟩ ∧
      step t b = .emit e t' ∧ es = (scan step t' after).out := by
  induction bs generalizing s with
  | nil => cases h
  | cons b bs ih =>
    cases hstep : step s b with
    | next s' =>
      rw [scan_of_next hstep] at h
      obtain ⟨before, c, after, t, t', rfl, hbefore, hemit, hes⟩ := ih h
      exact ⟨b :: before, c, after, t, t', rfl, (scan_of_next hstep before).trans hbefore, hemit, hes⟩
    | emit e' s' =>
      rw [scan_of_emit hstep] at h
      obtain ⟨rfl, rfl⟩ := List.cons.inj h
      exact ⟨[], b, bs, s, s', rfl, rfl, hstep, rfl⟩
    | stop s' =>
      rw [scan_of_stop hstep] at h
      cases h

end MtkHw.Lib.Scanner
