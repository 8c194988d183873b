import MtkHw.Lib.Framing
import Mathlib.Data.List.Induction
import Mathlib.Algebra.Ring.Parity

/-!
# Lines

The lines of a text, and readers that lose lines.

`lines` cuts a text after every separator; `text_induction` is the induction that goes with it.
`kept` is a reader of lines that passes on those that fit, and after some of the others drops the
next line too, whatever it is.  `kept_eq_filter_iff` says when nothing that fits is lost.
-/

namespace MtkHw.Lib.Lines

universe u

variable {α : Type u}

section Lines

variable [DecidableEq α] (nl : α)

/-- The lines of a text, each with its end; what comes after the last end is no line. -/
def lines : List α → List (List α)
  | [] => []
  | c :: cs =>
    if c = nl then [c] :: lines cs
    else
      match lines cs with
      | [] => []
      | line :: rest => (c :: line) :: rest

variable {nl}

theorem lines_of_notMem {text : List α} (h : nl ∉ text) : lines nl text = [] := by
  induction text with
  | nil => rfl
  | cons c cs ih =>
    obtain ⟨hc, hcs⟩ := not_or.mp (mt List.mem_cons.mpr h)
    rw [lines, if_neg (Ne.symm hc), ih hcs]

theorem lines_line {body : List α} (h : nl ∉ body) (rest : List α) :
    lines nl (body ++ nl :: rest) = (body ++ [nl]) :: lines nl rest := by
  induction body with
  | nil => rw [List.nil_append, lines, if_pos rfl, List.nil_append]
  | cons c cs ih =>
    obtain ⟨hc, hcs⟩ := not_or.mp (mt List.mem_cons.mpr h)
    rw [List.cons_append, lines, if_neg (Ne.symm hc), ih hcs]
    rfl

/-- Line by line, and then what comes after the last one. -/
@[elab_as_elim]
theorem text_induction (nl : α) {P : List α → Prop} (tail : ∀ text, nl ∉ text → P text)
    (line : ∀ body rest, nl ∉ body → P rest → P (body ++ nl :: rest)) (text : List α) : P text := by
  induction hlength : text.length using Nat.strongRecOn generalizing text with
  | ind n ih =>
    subst hlength
    by_cases hmem : nl ∈ text
    · obtain ⟨body, rest, rfl, hbody⟩ := List.eq_append_cons_of_mem hmem
      refine line body rest hbody (ih rest.length ?_ rest rfl)
      rw [List.length_append, List.length_cons]
      omega
    · exact tail text hmem

/-- A text that ends with an end of line has one line more than without it. -/
theorem lines_concat (nl : α) (text : List α) :
    ∃ line, lines nl (text ++ [nl]) = lines nl text ++ [line] := by
  induction text using text_induction nl with
  | tail text h => exact ⟨text ++ [nl], by rw [lines_line h, lines_of_notMem h]; rfl⟩
  | line body rest h ih =>
    obtain ⟨line, hline⟩ := ih
    refine ⟨line, ?_⟩
    rw [List.append_assoc, List.cons_append, lines_line h, lines_line h, hline, List.cons_append]

end Lines

/-! ## Readers that lose lines -/

variable (fits late : α → Bool)

/-- A reader of lines.  One that fits is passed on; after one that does not and is `late`, the next
one is dropped whatever it is. -/
def kept : Bool → List α → List α
  | _, [] => []
  | true, _ :: ls => kept false ls
  | false, l :: ls => if fits l then l :: kept false ls else kept (late l) ls

/-- Whether the next line is dropped. -/
def dropsNext : Bool → List α → Bool
  | drops, [] => drops
  | true, _ :: ls => dropsNext false ls
  | false, l :: ls => if fits l then dropsNext false ls else dropsNext (late l) ls

/-- How many late lines come last. -/
def lateRun (ls : List α) : Nat := (ls.reverse.takeWhile late).length

variable {fits late}

theorem kept_append (drops : Bool) (ls ls' : List α) :
    kept fits late drops (ls ++ ls') =
      kept fits late drops ls ++ kept fits late (dropsNext fits late drops ls) ls' := by
  induction ls generalizing drops with
  | nil => rfl
  | cons l ls ih =>
    cases drops with
    | true => exact ih false
    | false =>
      rw [List.cons_append, kept, kept, dropsNext]
      split
      · rw [ih, List.cons_append]
      · exact ih _

theorem dropsNext_append (drops : Bool) (ls ls' : List α) :
    dropsNext fits late drops (ls ++ ls') =
      dropsNext fits late (dropsNext fits late drops ls) ls' := by
  induction ls generalizing drops with
  | nil => rfl
  | cons l ls ih =>
    cases drops with
    | true => exact ih false
    | false =>
      rw [List.cons_append, dropsNext, dropsNext]
      split
      · exact ih false
      · exact ih _

/-- What is passed on fits. -/
theorem length_kept_le (drops : Bool) (ls : List α) :
    (kept fits late drops ls).length ≤ (ls.filter fits).length := by
  induction ls generalizing drops with
  | nil => exact Nat.le_refl 0
  | cons l ls ih =>
    have hfilter : (ls.filter fits).length ≤ ((l :: ls).filter fits).length :=
      ((List.sublist_cons_self l ls).filter fits).length_le
    cases drops with
    | true => exact Nat.le_trans (ih false) hfilter
    | false =>
      rw [kept]
      split
      · rename_i hfits
        rw [List.filter_cons_of_pos hfits, List.length_cons, List.length_cons]
        exact Nat.succ_le_succ (ih false)
      · exact Nat.le_trans (ih _) hfilter

theorem lateRun_concat (ls : List α) (l : α) :
    lateRun late (ls ++ [l]) = if late l then lateRun late ls + 1 else 0 := by
  rw [lateRun, List.reverse_append, List.reverse_singleton, List.singleton_append,
    List.takeWhile_cons]
  split <;> rfl

/-- Late lines take each other's place: only after an odd number of them a line is dropped. -/
theorem dropsNext_eq_odd (hlate : ∀ l, late l = true → fits l = false) (ls : List α) :
    dropsNext fits late false ls = decide (Odd (lateRun late ls)) := by
  induction ls using List.reverseRecOn with
  | nil => rfl
  | append_singleton ls l ih =>
    rw [dropsNext_append, ih, lateRun_concat]
    cases hl : late l with
    | false =>
      rw [if_neg Bool.false_ne_true, decide_eq_false (by decide : ¬ Odd 0)]
      cases decide (Odd (lateRun late ls)) with
      | true => rfl
      | false =>
        rw [dropsNext, hl]
        split <;> rfl
    | true =>
      rw [if_pos rfl]
      by_cases hodd : Odd (lateRun late ls)
      · rw [decide_eq_true hodd, decide_eq_false (Nat.not_odd_iff_even.mpr hodd.add_one)]
        rfl
      · rw [decide_eq_false hodd, decide_eq_true (Nat.not_odd_iff_even.mp hodd).add_one, dropsNext,
          hlate l hl, if_neg Bool.false_ne_true, hl]
        rfl

/-- Nothing that fits is lost, if and only if the reader drops at no line that fits. -/
theorem kept_eq_filter (drops : Bool) (ls : List α) :
    kept fits late drops ls = ls.filter fits ↔
      ∀ before line, before ++ [line] <+: ls → fits line = true →
        dropsNext fits late drops before = false := by
  induction ls generalizing drops with
  | nil =>
    refine ⟨fun _ before line h => ?_, fun _ => rfl⟩
    exact absurd (List.prefix_nil.mp h) (List.append_ne_nil_of_right_ne_nil before nofun)
  | cons l ls ih =>
    rw [forall_step_cons (P := fun before line => fits line = true →
      dropsNext fits late drops before = false)]
    cases drops with
    | true =>
      cases hfits : fits l with
      | true =>
        refine ⟨fun h => ?_, fun h => absurd (h.1 rfl) nofun⟩
        have hle : (kept fits late false ls).length ≤ (ls.filter fits).length :=
          length_kept_le false ls
        rw [kept, List.filter_cons_of_pos hfits] at h
        rw [h, List.length_cons] at hle
        exact absurd hle (Nat.not_succ_le_self _)
      | false =>
        rw [kept, List.filter_cons_of_neg (by rw [hfits]; exact Bool.false_ne_true), ih false]
        exact ⟨fun h => ⟨nofun, h⟩, fun h => h.2⟩
    | false =>
      rw [kept]
      cases hfits : fits l with
      | true =>
        rw [if_pos rfl, List.filter_cons_of_pos hfits, List.cons_inj_right, ih false]
        refine ⟨fun h => ⟨fun _ => rfl, fun before line hstep hline => ?_⟩,
          fun h before line hstep hline => ?_⟩
        · rw [dropsNext, if_pos hfits]
          exact h before line hstep hline
        · have hnext := h.2 before line hstep hline
          rwa [dropsNext, if_pos hfits] at hnext
      | false =>
        have hneg : ¬ fits l = true := by
          rw [hfits]
          exact Bool.false_ne_true
        rw [if_neg Bool.false_ne_true, List.filter_cons_of_neg hneg, ih (late l)]
        refine ⟨fun h => ⟨nofun, fun before line hstep hline => ?_⟩,
          fun h before line hstep hline => ?_⟩
        · rw [dropsNext, if_neg hneg]
          exact h before line hstep hline
        · have hnext := h.2 before line hstep hline
          rwa [dropsNext, if_neg hneg] at hnext

/-- Nothing that fits is lost, if and only if no line that fits comes after an odd number of late
ones. -/
theorem kept_eq_filter_iff (hlate : ∀ l, late l = true → fits l = false) (ls : List α) :
    kept fits late false ls = ls.filter fits ↔
      ∀ before line, before ++ [line] <+: ls → fits line = true → ¬ Odd (lateRun late before) := by
  rw [kept_eq_filter]
  constructor
  · intro h before line hstep hfits
    have hkeeps := h before line hstep hfits
    rwa [dropsNext_eq_odd hlate, decide_eq_false_iff_not] at hkeeps
  · intro h before line hstep hfits
    rw [dropsNext_eq_odd hlate, decide_eq_false_iff_not]
    exact h before line hstep hfits

end MtkHw.Lib.Lines
