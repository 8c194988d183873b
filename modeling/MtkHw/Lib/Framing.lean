import Mathlib.Data.List.Basic
import Mathlib.Tactic.Common

/-!
# Streams of words

A sender writes items one behind the other, each as the word `word f`.  The stream is the
concatenation of the words, and a receiver that has got the first elements of it has got some
words whole, `completed`, and then a part of the next one, `unfinished`.  The words of a stream
may be the frames of a link, or the codes of the bytes of a frame.

`completed_spec` says what a beginning of a stream is made of; `completed_step` is its form for
a receiver that gets one more piece, and `le_of_pending` finds a bound for the words in a bound
for what a receiver has at once.  `Filled` is for links on which further flags may stand between
the frames.
-/

namespace MtkHw.Lib

universe u v w

variable {φ : Type u} {β : Type v} (word : φ → List β)

/-- The items whose words lie within the first `n` elements of the stream of `fs`. -/
def completed : List φ → Nat → List φ
  | [], _ => []
  | f :: fs, n =>
      if (word f).length ≤ n then f :: completed fs (n - (word f).length) else []

/-- What follows the last whole word, in a beginning of the stream of `fs`. -/
def unfinished (fs : List φ) (bytes : List β) : List β :=
  bytes.drop ((completed word fs bytes.length).flatMap word).length

/-- `tail` is a part of the first word of `fs`, and not all of it. -/
def Begins (tail : List β) : List φ → Prop
  | [] => tail = []
  | f :: _ => tail <+: word f ∧ tail.length < (word f).length

variable {word}

/-- Nothing is a part of a word, when no word is empty. -/
theorem begins_nil (hword : ∀ f, word f ≠ []) (fs : List φ) : Begins word [] fs := by
  cases fs with
  | nil => rfl
  | cons f fs => exact ⟨List.nil_prefix, List.length_pos_iff.mpr (hword f)⟩

/-- Words that are not empty are at least as many elements. -/
theorem length_le_flatMap (hword : ∀ f, word f ≠ []) (fs : List φ) :
    fs.length ≤ (fs.flatMap word).length := by
  induction fs with
  | nil => exact Nat.le_refl 0
  | cons f fs ih =>
    rw [List.flatMap_cons, List.length_append, List.length_cons, Nat.add_comm]
    exact Nat.add_le_add (List.length_pos_iff.mpr (hword f)) ih

/-- Where no word is the beginning of another one, a stream tells its words. -/
theorem exists_append_of_flatMap (hword : ∀ f, word f ≠ [])
    (hfree : ∀ f g x y, word f ++ x = word g ++ y → f = g) {fs gs : List φ} {x : List β}
    (h : fs.flatMap word ++ x = gs.flatMap word) : ∃ hs, gs = fs ++ hs ∧ x = hs.flatMap word := by
  induction fs generalizing gs with
  | nil => exact ⟨gs, rfl, h⟩
  | cons f fs ih =>
    cases gs with
    | nil =>
      rw [List.flatMap_cons, List.append_assoc] at h
      exact absurd (List.append_eq_nil_iff.mp h).1 (hword f)
    | cons g gs =>
      rw [List.flatMap_cons, List.flatMap_cons, List.append_assoc] at h
      obtain rfl := hfree f g _ _ h
      obtain ⟨hs, rfl, hx⟩ := ih (List.append_cancel_left h)
      exact ⟨hs, rfl, hx⟩

theorem Begins.completed {tail : List β} {fs : List φ} (h : Begins word tail fs) :
    completed word fs tail.length = [] := by
  cases fs with
  | nil => rfl
  | cons f fs => exact if_neg (Nat.not_le.mpr h.2)

/-- A part of a word that is a whole stream is empty. -/
theorem Begins.eq_nil {tail : List β} {fs : List φ} (h : Begins word tail fs)
    (hall : tail = fs.flatMap word) : fs = [] := by
  cases fs with
  | nil => rfl
  | cons f fs =>
    have hlen := h.2
    rw [hall, List.flatMap_cons, List.length_append] at hlen
    exact absurd hlen (Nat.not_lt.mpr (Nat.le_add_right ..))

/-- A beginning of a stream is the words of the completed items, and a part of the next word. -/
theorem completed_spec {fs : List φ} {bytes : List β} (h : bytes <+: fs.flatMap word) :
    ∃ rest, fs = completed word fs bytes.length ++ rest ∧
      bytes = (completed word fs bytes.length).flatMap word ++ unfinished word fs bytes ∧
        Begins word (unfinished word fs bytes) rest := by
  induction fs generalizing bytes with
  | nil =>
    obtain rfl := List.prefix_nil.mp h
    exact ⟨[], rfl, rfl, rfl⟩
  | cons f fs ih =>
    rw [List.flatMap_cons] at h
    by_cases hle : (word f).length ≤ bytes.length
    · obtain ⟨bytes, rfl⟩ := List.prefix_of_prefix_length_le (List.prefix_append ..) h hle
      have hcompleted : completed word (f :: fs) (word f ++ bytes).length =
          f :: completed word fs bytes.length := by
        rw [completed, if_pos hle, List.length_append, Nat.add_sub_cancel_left]
      have hunfinished : unfinished word (f :: fs) (word f ++ bytes) = unfinished word fs bytes := by
        rw [unfinished, hcompleted, List.flatMap_cons, List.length_append, List.drop_append,
          List.drop_eq_nil_of_le (Nat.le_add_right ..), Nat.add_sub_cancel_left]
        rfl
      obtain ⟨rest, hfs, hbytes, hbegins⟩ := ih ((List.prefix_append_right_inj _).mp h)
      rw [hcompleted, hunfinished]
      refine ⟨rest, congrArg (f :: ·) hfs, ?_, hbegins⟩
      rw [List.flatMap_cons, List.append_assoc, ← hbytes]
    · have hcompleted : completed word (f :: fs) bytes.length = [] := if_neg hle
      have hunfinished : unfinished word (f :: fs) bytes = bytes := by
        rw [unfinished, hcompleted]
        rfl
      rw [hcompleted, hunfinished]
      refine ⟨f :: fs, rfl, rfl, ?_, Nat.not_le.mp hle⟩
      exact List.prefix_of_prefix_length_le h (List.prefix_append ..) (Nat.le_of_not_le hle)

/-- The items completed by more of a stream, after those that are done. -/
theorem completed_append (done rest : List φ) (n : Nat) :
    completed word (done ++ rest) ((done.flatMap word).length + n) =
      done ++ completed word rest n := by
  induction done with
  | nil => exact congrArg (completed word rest) (Nat.zero_add n)
  | cons f done ih =>
    rw [List.cons_append, List.flatMap_cons, List.length_append, Nat.add_assoc, completed,
      if_pos (Nat.le_add_right ..), Nat.add_sub_cancel_left, ih]
    rfl

/-- What is unfinished after more of a stream. -/
theorem unfinished_append (done rest : List φ) (bytes : List β) :
    unfinished word (done ++ rest) (done.flatMap word ++ bytes) = unfinished word rest bytes := by
  rw [unfinished, List.length_append, completed_append, List.flatMap_append, List.length_append,
    List.drop_append, List.drop_eq_nil_of_le (Nat.le_add_right ..), Nat.add_sub_cancel_left]
  rfl

/-- One more piece of a stream: it completes some items, and leaves a part of the next word. -/
theorem completed_step {fs : List φ} {sofar chunk : List β}
    (h : sofar ++ chunk <+: fs.flatMap word) :
    ∃ new rest, fs = completed word fs sofar.length ++ (new ++ rest) ∧
      completed word fs (sofar ++ chunk).length = completed word fs sofar.length ++ new ∧
        unfinished word fs sofar ++ chunk =
            new.flatMap word ++ unfinished word fs (sofar ++ chunk) ∧
          Begins word (unfinished word fs (sofar ++ chunk)) rest := by
  obtain ⟨rest, hrest, hsofar, -⟩ := completed_spec ((List.prefix_append sofar chunk).trans h)
  generalize completed word fs sofar.length = done at hrest hsofar ⊢
  generalize unfinished word fs sofar = tail at hsofar ⊢
  subst hrest hsofar
  rw [List.flatMap_append, List.append_assoc] at h
  obtain ⟨rest', hrest', hbytes, hbegins⟩ := completed_spec ((List.prefix_append_right_inj _).mp h)
  refine ⟨completed word rest (tail ++ chunk).length, rest', congrArg (done ++ ·) hrest', ?_, ?_, ?_⟩
  · rw [List.append_assoc, List.length_append, completed_append]
  · rw [List.append_assoc, unfinished_append]
    exact hbytes
  · rw [List.append_assoc, unfinished_append]
    exact hbegins

/-- A receiver that never has more than `bound` elements at once, of the words it has not yet
got whole, is sent no word longer than `bound`. -/
theorem le_of_pending {γ : Type w} {buf : γ → List β} {bound : Nat} {rest : List φ} {tail : List β}
    {calls : List γ} (hbegins : Begins word tail rest)
    (hall : tail ++ calls.flatMap buf = rest.flatMap word)
    (hpending : ∀ before call, before ++ [call] <+: calls →
      (unfinished word rest (tail ++ before.flatMap buf) ++ buf call).length ≤ bound) :
    ∀ f ∈ rest, (word f).length ≤ bound := by
  induction calls generalizing rest tail with
  | nil =>
    rw [List.flatMap_nil, List.append_nil] at hall
    rw [hbegins.eq_nil hall]
    exact fun f hf => absurd hf List.not_mem_nil
  | cons call calls ih =>
    rw [List.flatMap_cons, ← List.append_assoc] at hall
    obtain ⟨rest', hrest, hbytes, hbegins'⟩ :=
      completed_spec (hall ▸ List.prefix_append (tail ++ buf call) (calls.flatMap buf))
    have hfirst := hpending [] call ⟨calls, rfl⟩
    have htail : unfinished word rest tail = tail := by
      rw [unfinished, hbegins.completed]
      rfl
    rw [List.flatMap_nil, List.append_nil, htail] at hfirst
    generalize completed word rest (tail ++ buf call).length = new at hrest hbytes
    generalize unfinished word rest (tail ++ buf call) = tail' at hbytes hbegins'
    subst hrest
    intro f hf
    rcases List.mem_append.mp hf with hnew | hold
    · obtain ⟨before, after, rfl⟩ := List.append_of_mem hnew
      rw [hbytes, List.flatMap_append, List.flatMap_cons] at hfirst
      simp only [List.length_append] at hfirst
      omega
    · refine ih hbegins' ?_ ?_ f hold
      · rw [hbytes, List.append_assoc, List.flatMap_append] at hall
        exact List.append_cancel_left hall
      · intro before c hbefore
        have h := hpending (call :: before) c ((List.prefix_cons_inj call).mpr hbefore)
        rwa [List.flatMap_cons, ← List.append_assoc, hbytes, List.append_assoc,
          unfinished_append] at h

/-- The piece of a cut stream that brings its element `n`. -/
theorem exists_piece {pieces : List (List β)} {n : Nat} (hpos : 0 < n)
    (hn : n ≤ pieces.flatten.length) :
    ∃ before piece after, pieces = before ++ piece :: after ∧ before.flatten.length < n ∧
      n ≤ (before ++ [piece]).flatten.length := by
  induction pieces generalizing n with
  | nil => exact absurd hpos (Nat.not_lt.mpr hn)
  | cons piece pieces ih =>
    by_cases hle : n ≤ piece.length
    · exact ⟨[], piece, pieces, rfl, hpos, by rwa [List.nil_append, List.flatten_singleton]⟩
    · rw [List.flatten_cons, List.length_append] at hn
      obtain ⟨before, last, after, rfl, hbefore, hlast⟩ := ih (n := n - piece.length) (by omega) (by omega)
      refine ⟨piece :: before, last, after, rfl, ?_, ?_⟩
      · rw [List.flatten_cons, List.length_append]
        omega
      · rw [List.cons_append, List.flatten_cons, List.length_append]
        omega

/-! ## Fill between frames

On a link whose frames begin with a flag, further flags may stand between the frames. -/

/-- The stream of `fs`, where each frame is a flag and a body, filled with further flags. -/
inductive Filled (flag : β) (body : φ → List β) : List φ → List β → Prop
  | nil : Filled flag body [] []
  | fill {fs : List φ} {w : List β} : Filled flag body fs w → Filled flag body fs (flag :: w)
  | frame (f : φ) {fs : List φ} {w : List β} :
      Filled flag body fs w → Filled flag body (f :: fs) (flag :: (body f ++ w))

namespace Filled

variable {flag : β} {body : φ → List β} {fs fs' : List φ} {w w' : List β}

theorem append (h : Filled flag body fs w) (h' : Filled flag body fs' w') :
    Filled flag body (fs ++ fs') (w ++ w') := by
  induction h with
  | nil => exact h'
  | fill _ ih => exact .fill ih
  | frame f _ ih =>
    rw [List.cons_append, List.cons_append, List.append_assoc]
    exact .frame f ih

/-- One frame, without fill. -/
theorem single (f : φ) : Filled flag body [f] (flag :: body f) := by
  have h : Filled flag body [f] (flag :: (body f ++ [])) := frame f nil
  rwa [List.append_nil] at h

/-- A stream begins with a flag. -/
theorem head_eq {b : β} (h : Filled flag body fs (b :: w)) : b = flag := by
  cases h with
  | fill _ => rfl
  | frame f _ => rfl

/-- Where the stream is at its end, so are the frames. -/
theorem eq_nil (h : Filled flag body fs []) : fs = [] := by
  cases h
  rfl

/-- A flag is fill, or the first frame follows it. -/
theorem of_cons {b : β} (h : Filled flag body fs (b :: w)) :
    Filled flag body fs w ∨
      ∃ f fs' w', fs = f :: fs' ∧ w = body f ++ w' ∧ Filled flag body fs' w' := by
  generalize hs : b :: w = s at h
  cases h with
  | nil => cases hs
  | fill h =>
    cases hs
    exact .inl h
  | frame f h =>
    obtain ⟨-, rfl⟩ := List.cons.inj hs
    exact .inr ⟨f, _, _, rfl, rfl, h⟩

/-- Behind a flag, anything else is the body of the first frame. -/
theorem of_body {b : β} (h : Filled flag body fs (flag :: b :: w)) (hne : b ≠ flag) :
    ∃ f fs' w', fs = f :: fs' ∧ b :: w = body f ++ w' ∧ Filled flag body fs' w' := by
  rcases h.of_cons with h | h
  · exact absurd h.head_eq hne
  · exact h

variable (hbody : ∀ f, ∃ b t, body f = b :: t ∧ b ≠ flag)
include hbody

/-- Behind a flag, another flag is fill. -/
theorem of_flag (h : Filled flag body fs (flag :: flag :: w)) :
    Filled flag body fs (flag :: w) := by
  rcases h.of_cons with h | ⟨f, fs', w', -, hw, -⟩
  · exact h
  · obtain ⟨b, t, hb, hne⟩ := hbody f
    rw [hb] at hw
    exact absurd (List.cons.inj hw).1.symm hne

/-- A single flag is fill. -/
theorem eq_nil_of_flag (h : Filled flag body fs [flag]) : fs = [] := by
  rcases h.of_cons with h | ⟨f, fs', w', -, hw, -⟩
  · exact h.eq_nil
  · obtain ⟨b, t, hb, -⟩ := hbody f
    rw [hb] at hw
    cases hw

end Filled

/-! ## Beginnings of runs -/

/-- What holds of the beginnings of a run holds at its start, and of the beginnings of the rest. -/
theorem forall_prefix_cons {α : Type u} {P : List α → Prop} {a : α} {as : List α} :
    (∀ before, before <+: a :: as → P before) ↔ P [] ∧ ∀ before, before <+: as → P (a :: before) := by
  constructor
  · intro h
    exact ⟨h [] List.nil_prefix, fun before hb => h _ ((List.prefix_cons_inj a).mpr hb)⟩
  · rintro ⟨hnil, hcons⟩ before hb
    rcases List.prefix_cons_iff.mp hb with rfl | ⟨before, rfl, hrest⟩
    · exact hnil
    · exact hcons before hrest

/-- What holds of the steps of a run holds of its first one, and of the steps of the rest. -/
theorem forall_step_cons {α : Type u} {P : List α → α → Prop} {a : α} {as : List α} :
    (∀ before b, before ++ [b] <+: a :: as → P before b) ↔
      P [] a ∧ ∀ before b, before ++ [b] <+: as → P (a :: before) b := by
  constructor
  · intro h
    exact ⟨h [] a ⟨as, rfl⟩, fun before b hb => h _ _ ((List.prefix_cons_inj a).mpr hb)⟩
  · rintro ⟨hnil, hcons⟩ before b hb
    cases before with
    | nil =>
      obtain ⟨rfl, -⟩ := List.cons_prefix_cons.mp hb
      exact hnil
    | cons a' before =>
      obtain ⟨rfl, hrest⟩ := List.cons_prefix_cons.mp hb
      exact hcons before b hrest

end MtkHw.Lib
