import MtkHw.Rfx.ReadLine
import Mathlib.Data.FinEnum

/-!
# Lines do not depend on how they arrive

What `readline` should return is a function of the bytes that come from the tty:
`lines`, the nonempty runs of bytes that are not line ends and are followed by one.
For streams that are `Regular` the reader returns these lines however the bytes are
cut into `read()`s (`readline_spec`), as long as the buffer holds nothing when the reader
starts.

Nothing clears the buffer before the first call, so the lines may be preceded by
what was in that memory.  `assembles_iff` says for which contents of the buffer, and
for which lengths of the reads, the reader works on all streams.
-/

namespace MtkHw.Rfx

open Lib Ring

/-! ## Lines of a stream -/

/-- The nonempty runs of bytes that are not line ends and are followed by one. -/
def lines (w : List UInt8) : List (List UInt8) := (w.splitOnP isEol).dropLast.filter (· ≠ [])

/-- Line ends before a line do not matter. -/
theorem lines_of_eols {e : List UInt8} (he : ∀ x ∈ e, isEol x = true) (w : List UInt8) :
    lines (e ++ w) = lines w := by
  induction e with
  | nil => rfl
  | cons x e ih =>
    have hx : isEol x = true := he x List.mem_cons_self
    have hne := List.splitOnP_ne_nil isEol (e ++ w)
    rw [← ih fun y hy => he y (List.mem_cons_of_mem _ hy), lines, lines, List.cons_append,
      List.splitOnP_cons_eq_if_modifyHead, if_pos hx, List.dropLast_cons_of_ne_nil hne]
    rfl

/-- A line and its end. -/
theorem lines_line {l : List UInt8} {t : UInt8} (hl : ∀ x ∈ l, isEol x = false) (hne : l ≠ [])
    (ht : isEol t = true) (w : List UInt8) : lines (l ++ t :: w) = l :: lines w := by
  rw [lines, List.splitOnP_append_cons_of_forall_mem hl t ht,
    List.dropLast_cons_of_ne_nil (List.splitOnP_ne_nil _ _), List.filter_cons_of_pos (by simpa)]
  rfl

/-- A line without an end is not a line. -/
theorem lines_partial {l : List UInt8} (hl : ∀ x ∈ l, isEol x = false) : lines l = [] := by
  rw [lines, List.splitOnP_eq_singleton hl]
  rfl

/-- A stream without zeros, in which no line starts with `>` and every line fits in
the buffer together with the line ends before it and one terminator.  The last line
counts even if it does not end. -/
structure Regular (w : List UInt8) : Prop where
  noNul : 0 ∉ w
  noPrompt : ∀ a b, w = a ++ chGreater :: b → ∃ x, a.getLast? = some x ∧ isEol x = false
  fits : ∀ a e l b, w = a ++ e ++ l ++ b → (∀ x ∈ e, isEol x = true) →
    (∀ x ∈ l, isEol x = false) → l ≠ [] → e.length + l.length + 1 ≤ maxAtResponse

/-- What follows a line end is regular. -/
theorem Regular.of_append {a b : List UInt8} {t : UInt8} (h : Regular (a ++ t :: b))
    (ht : isEol t = true) : Regular b := by
  refine ⟨?_, ?_, ?_⟩
  · intro hz
    exact h.noNul (List.mem_append_right _ (List.mem_cons_of_mem _ hz))
  · rintro a' b' rfl
    obtain ⟨x, hx, heol⟩ := h.noPrompt (a ++ t :: a') b' (by simp)
    refine ⟨x, ?_, heol⟩
    rw [List.getLast?_append_of_ne_nil _ (List.cons_ne_nil _ _), List.getLast?_cons] at hx
    cases hlast : a'.getLast? with
    | none =>
      rw [hlast] at hx
      cases hx
      exact absurd (ht.symm.trans heol) (by simp)
    | some y =>
      rw [hlast] at hx
      exact hx
  · rintro a' e l b' rfl he hl hne
    exact h.fits (a ++ t :: a') e l b' (by simp) he hl hne

theorem Regular.of_eols {e w : List UInt8} (h : Regular (e ++ w))
    (he : ∀ x ∈ e, isEol x = true) : Regular w := by
  rcases List.eq_nil_or_concat e with rfl | ⟨e', t, rfl⟩
  · exact h
  · rw [List.concat_eq_append, List.append_assoc] at h
    exact h.of_append (he t (by simp))

/-- A line of a regular stream does not start with `>`. -/
theorem Regular.ne_greater {e w : List UInt8} {b : UInt8} (h : Regular (e ++ b :: w))
    (he : ∀ x ∈ e, isEol x = true) : b ≠ chGreater := by
  rintro rfl
  obtain ⟨x, hx, heol⟩ := h.noPrompt e w rfl
  rw [he x (List.mem_of_getLast? hx)] at heol
  cases heol

/-! ## The parts of `readline` -/

section Parts

variable {buffer : Nat → UInt8} {cur : Nat} {txt : List UInt8}

theorem isPrompt_str (h : Str buffer atBufferSize cur txt) :
    isPrompt buffer cur = some (txt == [chGreater, chSpace]) := by
  unfold isPrompt
  cases txt with
  | nil =>
    rw [load_of_lt h.1, h.2]
    rfl
  | cons b0 txt =>
    rw [load_of_lt h.1, h.2.1]
    by_cases h0 : b0 = chGreater
    · subst h0
      cases txt with
      | nil =>
        rw [load_of_lt h.2.2.2.1, h.2.2.2.2]
        rfl
      | cons b1 txt =>
        rw [load_of_lt h.2.2.2.1, h.2.2.2.2.1]
        by_cases h1 : b1 = chSpace
        · subst h1
          cases txt with
          | nil =>
            rw [load_of_lt h.2.2.2.2.2.2.1, h.2.2.2.2.2.2.2]
            rfl
          | cons b2 txt =>
            have hne : (b2 == 0) = false := by simpa using h.2.2.2.2.2.2.2.2.1
            rw [load_of_lt h.2.2.2.2.2.2.1, h.2.2.2.2.2.2.2.1]
            simp [hne]
        · simp [h1]
    · simp [h0]

/-- In a text without zeros only line ends stop the scan. -/
theorem takeWhile_text (h : 0 ∉ txt) :
    txt.takeWhile (fun b => b ≠ 0 && !isEol b) = txt.takeWhile fun b => !isEol b := by
  induction txt with
  | nil => rfl
  | cons b txt ih =>
    rw [List.mem_cons, not_or] at h
    have hb : (decide (b ≠ 0) && !isEol b) = !isEol b := by simp [Ne.symm h.1]
    rw [List.takeWhile_cons, List.takeWhile_cons, hb, ih h.2]

/-- The first line end of a string, if it is not the prompt. -/
theorem findNextEOL_str (h : Str buffer atBufferSize cur txt) (hprompt : txt ≠ [chGreater, chSpace]) :
    findNextEOL buffer cur = some (if ∀ x ∈ txt, isEol x = false then none
      else some (cur + (txt.takeWhile fun b => !isEol b).length)) := by
  have hscan : scan buffer atBufferSize (fun b => b ≠ 0 && !isEol b) cur =
      some (cur + (txt.takeWhile fun b => !isEol b).length) := by
    rw [← takeWhile_text h.zero_notMem]
    exact scan_str rfl h
  have hrest : Str buffer atBufferSize (cur + (txt.takeWhile fun b => !isEol b).length)
      (txt.dropWhile fun b => !isEol b) := by
    refine Str.drop ?_
    rwa [List.takeWhile_append_dropWhile]
  have hnone : (txt.dropWhile fun b => !isEol b) = [] ↔ ∀ x ∈ txt, isEol x = false := by
    rw [List.dropWhile_eq_nil_iff]
    simp
  have hzero := hrest.eq_zero_iff.trans hnone
  have hfalse : (txt == [chGreater, chSpace]) = false := by simpa using hprompt
  simp only [findNextEOL, isPrompt_str h, hfalse, hscan, load_of_lt hrest.lt, hzero,
    Option.bind_eq_bind, Option.bind_some, Bool.false_eq_true, if_false, pure]

theorem skipNewlines_str (h : Str buffer atBufferSize cur txt) :
    skipNewlines buffer cur = some (cur + (txt.takeWhile isEol).length) :=
  scan_str rfl h

/-- A line that is not the prompt is handed out, and what follows stays. -/
theorem finishLine_str {l rest : List UInt8} {t : UInt8}
    (h : Str buffer atBufferSize cur (l ++ t :: rest)) (hprompt : l ≠ [chGreater, chSpace])
    (tty : List TtyEvent) :
    ∃ buffer', finishLine buffer cur (cur + l.length) tty =
        some (some l, ⟨buffer', cur + l.length + 1, tty⟩) ∧
      Str buffer' atBufferSize (cur + l.length + 1) rest := by
  obtain ⟨hline, hrest⟩ := h.cut
  have hlt := hline.add_length_lt
  have hfalse : (l == [chGreater, chSpace]) = false := by simpa using hprompt
  refine ⟨_, ?_, hrest⟩
  simp only [finishLine, store_of_lt hlt, isPrompt_str hline, hfalse, strAt_str hline,
    Option.bind_eq_bind, Option.bind_some, Bool.false_eq_true, if_false, pure]

/-- What is done with the string at the cursor: leading line ends are skipped, and the
next line is handed out if it is complete. -/
theorem nextLine {e w : List UInt8} (h : Str buffer atBufferSize cur txt)
    (he : ∀ x ∈ e, isEol x = true) (hreg : Regular (e ++ (txt ++ w))) (tty : List TtyEvent) :
    ∃ d q, txt = d ++ q ∧ (∀ x ∈ d, isEol x = true) ∧
      skipNewlines buffer cur = some (cur + d.length) ∧
      ((∀ x ∈ q, isEol x = false) ∧ findNextEOL buffer (cur + d.length) = some none ∨
        ∃ eol l buffer' cur' rest, findNextEOL buffer (cur + d.length) = some (some eol) ∧
          finishLine buffer (cur + d.length) eol tty = some (some l, ⟨buffer', cur', tty⟩) ∧
          Str buffer' atBufferSize cur' rest ∧ Regular (rest ++ w) ∧
          lines (txt ++ w) = l :: lines (rest ++ w)) := by
  have hd : ∀ x ∈ txt.takeWhile isEol, isEol x = true := fun x hx => List.mem_takeWhile_imp hx
  have hhead := List.head?_dropWhile_not isEol txt
  have hskip := skipNewlines_str h
  have hsplit : txt = txt.takeWhile isEol ++ txt.dropWhile isEol :=
    List.takeWhile_append_dropWhile.symm
  generalize txt.takeWhile isEol = d at hd hskip hsplit
  generalize txt.dropWhile isEol = q at hhead hsplit
  subst hsplit
  refine ⟨d, q, rfl, hd, hskip, ?_⟩
  have hq := h.drop
  have hed : ∀ x ∈ e ++ d, isEol x = true := by
    intro x hx
    exact (List.mem_append.mp hx).elim (he x) (hd x)
  have hstart : ∀ l, q ≠ chGreater :: l := by
    rintro l rfl
    refine Regular.ne_greater (e := e ++ d) (w := l ++ w) ?_ hed rfl
    simpa using hreg
  have hfind := findNextEOL_str hq (hstart _)
  by_cases hall : ∀ x ∈ q, isEol x = false
  · left
    rw [hfind, if_pos hall]
    exact ⟨hall, rfl⟩
  · right
    rw [if_neg hall] at hfind
    have hl : ∀ x ∈ q.takeWhile fun b => !isEol b, isEol x = false := by
      intro x hx
      simpa using List.mem_takeWhile_imp hx
    have hrest : q.dropWhile (fun b => !isEol b) ≠ [] := by
      rw [Ne, List.dropWhile_eq_nil_iff]
      simpa using hall
    have ht := List.head_dropWhile_not (fun b => !isEol b) hrest
    have hsplit : q = (q.takeWhile fun b => !isEol b) ++ q.dropWhile fun b => !isEol b :=
      List.takeWhile_append_dropWhile.symm
    generalize (q.takeWhile fun b => !isEol b) = l at hl hsplit hfind
    generalize (q.dropWhile fun b => !isEol b) = u at hrest ht hsplit
    obtain ⟨t, rest, rfl⟩ := List.exists_cons_of_ne_nil hrest
    have ht' : isEol t = true := by simpa using ht
    subst hsplit
    have hne : l ≠ [] := by
      rintro rfl
      simp [ht'] at hhead
    obtain ⟨buffer', hfinish, hstr⟩ := finishLine_str hq
      (fun hp => hstart (chSpace :: t :: rest) (by simp [hp])) tty
    refine ⟨_, l, buffer', _, rest, hfind, hfinish, hstr, ?_, ?_⟩
    · refine Regular.of_append (a := e ++ d ++ l) (t := t) ?_ ht'
      simpa using hreg
    · rw [List.append_assoc, lines_of_eols hd, List.append_assoc, List.cons_append,
        lines_line hl hne ht']

end Parts

/-! ## The loop -/

/-- The bytes that come from the tty. -/
def ttyBytes : List TtyEvent → List UInt8
  | [] => []
  | .data bytes :: tty => bytes ++ ttyBytes tty
  | .interrupted :: tty => ttyBytes tty

/-- No read is empty, and none is too long for the dump. -/
def TtyOk (userLoad : Bool) (tty : List TtyEvent) : Prop :=
  ∀ bytes, .data bytes ∈ tty → bytes ≠ [] ∧ (userLoad = true ∨ dumpOverflows bytes.length = false)

/-- Between two calls a string stands at the cursor that makes the lines `target`
together with what is still to be read. -/
def Ready (userLoad : Bool) (target : List (List UInt8)) (s : ReaderState) : Prop :=
  TtyOk userLoad s.tty ∧ ∃ txt, Str s.buffer atBufferSize s.cur txt ∧
    Regular (txt ++ ttyBytes s.tty) ∧ lines (txt ++ ttyBytes s.tty) = target

/-- What a call should do when the lines `target` are left. -/
def Returns (userLoad : Bool) (target : List (List UInt8)) :
    Option (Option (List UInt8) × ReaderState) → Prop
  | none => False
  | some (none, _) => target = []
  | some (some line, s) => ∃ rest, target = line :: rest ∧ Ready userLoad rest s

/-- The part `partly` of a line has been read; `eols` are the line ends skipped before it. -/
structure Partial (target : List (List UInt8)) (s : FillState) (eols part : List UInt8) : Prop where
  room : s.pRead < maxAtResponse
  cur_eq : s.cur = eols.length
  pRead_eq : s.pRead = s.cur + part.length
  eols_eol : ∀ x ∈ eols, isEol x = true
  part_eol : ∀ x ∈ part, isEol x = false
  str : Str s.buffer atBufferSize s.cur part
  regular : Regular (eols ++ (part ++ ttyBytes s.tty))
  lines_eq : lines (part ++ ttyBytes s.tty) = target

/-- The invariant of the loop: part of a line has been read, or the buffer is full and
all of it may be ditched. -/
def FillInv (userLoad : Bool) (target : List (List UInt8)) (s : FillState) : Prop :=
  TtyOk userLoad s.tty ∧ ((∃ eols part, Partial target s eols part) ∨
    s.pRead = maxAtResponse ∧ Regular (ttyBytes s.tty) ∧ lines (ttyBytes s.tty) = target)

theorem str_nil (buffer : Nat → UInt8) : Str (Function.update buffer 0 0) atBufferSize 0 [] :=
  ⟨Nat.succ_pos _, Function.update_self ..⟩

/-- Nothing of what has been read is left, or all of it will be ditched. -/
def FillState.Fresh (s : FillState) : Prop :=
  s.pRead = maxAtResponse ∨ s.pRead = 0 ∧ s.cur = 0 ∧ Str s.buffer atBufferSize 0 []

@[simp] theorem FillState.ditch_tty (s : FillState) : s.ditch.tty = s.tty := by
  unfold FillState.ditch
  split <;> rfl

variable {userLoad : Bool} {target : List (List UInt8)}

theorem FillInv.of_fresh {s : FillState} (h : s.Fresh) (hok : TtyOk userLoad s.tty)
    (hreg : Regular (ttyBytes s.tty)) : FillInv userLoad (lines (ttyBytes s.tty)) s := by
  refine ⟨hok, ?_⟩
  rcases h with hfull | ⟨hpRead, hcur, hstr⟩
  · exact .inr ⟨hfull, hreg, rfl⟩
  · left
    refine ⟨[], [], ?_⟩
    constructor
    · rw [hpRead]
      exact Nat.succ_pos _
    · exact hcur
    · rw [hpRead, hcur]
      rfl
    · exact List.forall_mem_nil _
    · exact List.forall_mem_nil _
    · rw [hcur]
      exact hstr
    · exact hreg
    · rfl

/-- There is room after a full buffer has been ditched. -/
theorem FillInv.ditch {s : FillState} (h : FillInv userLoad target s) :
    ∃ eols part, Partial target s.ditch eols part := by
  obtain ⟨-, ⟨eols, part, hpart⟩ | ⟨hfull, hreg, hlines⟩⟩ := h
  · rw [FillState.ditch, if_neg (Nat.ne_of_lt hpart.room)]
    exact ⟨eols, part, hpart⟩
  · rw [FillState.ditch, if_pos hfull]
    refine ⟨[], [], ?_⟩
    constructor
    · exact Nat.succ_pos _
    · rfl
    · rfl
    · exact List.forall_mem_nil _
    · exact List.forall_mem_nil _
    · exact str_nil _
    · exact hreg
    · exact hlines

/-- What a `read()` takes from the tty. -/
theorem readTty_spec {tty tty' : List TtyEvent} {space : Nat} {count : Option (List UInt8)}
    (hok : TtyOk userLoad tty) (hspace : 0 < space) (h : readTty space tty = (count, tty')) :
    TtyOk userLoad tty' ∧ ttyBytes tty = count.getD [] ++ ttyBytes tty' ∧
      (count ≠ some [] → ttySize tty' < ttySize tty) ∧ (count = some [] → ttyBytes tty' = []) ∧
      (count.getD []).length ≤ space ∧
      (userLoad = true ∨ dumpOverflows (count.getD []).length = false) := by
  cases tty with
  | nil =>
    cases h
    refine ⟨hok, rfl, fun hne => absurd rfl hne, fun _ => rfl, Nat.zero_le _, .inr rfl⟩
  | cons event tty =>
    have hrest : TtyOk userLoad tty := fun bytes hmem => hok bytes (List.mem_cons_of_mem _ hmem)
    cases event with
    | interrupted =>
      cases h
      refine ⟨hrest, rfl, fun _ => ?_, ?_, Nat.zero_le _, .inr rfl⟩
      · rw [ttySize]
        omega
      · rintro ⟨⟩
    | data bytes =>
      obtain ⟨hne, hdump⟩ := hok bytes List.mem_cons_self
      have hpos : 0 < bytes.length := List.length_pos_iff.mpr hne
      have htake : bytes.take space ≠ [] := by
        rw [Ne, List.take_eq_nil_iff]
        rintro (hzero | hnil)
        · omega
        · exact hne hnil
      have hdump' : userLoad = true ∨ dumpOverflows (bytes.take space).length = false := by
        refine hdump.imp_right fun hlen => ?_
        simp only [dumpOverflows, decide_eq_false_iff_not, not_lt, List.length_take] at hlen ⊢
        omega
      rw [readTty, Prod.mk.injEq] at h
      obtain ⟨rfl, rfl⟩ := h
      simp only [Option.getD_some, Option.some.injEq]
      by_cases hle : bytes.length ≤ space
      · rw [if_pos hle]
        refine ⟨hrest, ?_, fun _ => ?_, fun hnil => absurd hnil htake,
          List.length_take_le .., hdump'⟩
        · rw [List.take_of_length_le hle]
          rfl
        · rw [ttySize]
          omega
      · rw [if_neg hle]
        refine ⟨?_, ?_, fun _ => ?_, fun hnil => absurd hnil htake,
          List.length_take_le .., hdump'⟩
        · intro bytes' hmem
          rcases List.mem_cons.mp hmem with heq | hmem
          · cases heq
            refine ⟨?_, hdump.imp_right fun hlen => ?_⟩
            · rw [Ne, List.drop_eq_nil_iff]
              exact hle
            · simp only [dumpOverflows, decide_eq_false_iff_not, not_lt, List.length_drop] at hlen ⊢
              omega
          · exact hrest bytes' hmem
        · rw [ttyBytes, ttyBytes, ← List.append_assoc, List.take_append_drop]
        · rw [ttySize, ttySize, List.length_drop]
          omega

/-- Reading more bytes completes a line, or leaves a part of one. -/
theorem FillState.received_keeps {s : FillState} {eols part bytes : List UInt8}
    {tty : List TtyEvent} (h : Partial target s eols part) (hok : TtyOk userLoad tty)
    (hbytes : ttyBytes s.tty = bytes ++ ttyBytes tty)
    (hlen : bytes.length ≤ maxAtResponse - s.pRead) :
    Keeps (fun s' => FillInv userLoad target s' ∧ s'.tty = tty) (Returns userLoad target)
      (s.received bytes tty) := by
  have hreg : Regular (eols ++ ((part ++ bytes) ++ ttyBytes tty)) := by
    rw [List.append_assoc, ← hbytes]
    exact h.regular
  have htarget : lines ((part ++ bytes) ++ ttyBytes tty) = target := by
    rw [List.append_assoc, ← hbytes]
    exact h.lines_eq
  have hroom := h.room
  have hstr : Str (Function.update (blit s.buffer s.pRead bytes) (s.pRead + bytes.length) 0)
      atBufferSize s.cur (part ++ bytes) := by
    rw [h.pRead_eq]
    refine h.str.append ?_ ?_
    · intro hz
      exact hreg.noNul (by simp [hz])
    · rw [← h.pRead_eq, atBufferSize]
      omega
  unfold FillState.received
  obtain ⟨d, q, hdq, hd, hskip, hnext⟩ := nextLine hstr h.eols_eol hreg tty
  have hlendq : part.length + bytes.length = d.length + q.length := by
    rw [← List.length_append, hdq, List.length_append]
  rw [hdq, List.append_assoc, lines_of_eols hd] at htarget
  rw [hdq] at hreg
  dsimp only
  rw [hskip]
  rcases hnext with ⟨hq, hfind⟩ | ⟨eol, l, buffer', cur', rest, hfind, hfinish, hstr', hreg', hl⟩
  · dsimp only
    rw [hfind]
    refine ⟨⟨hok, ?_⟩, rfl⟩
    have hed : ∀ x ∈ eols ++ d, isEol x = true := by
      intro x hx
      exact (List.mem_append.mp hx).elim (h.eols_eol x) (hd x)
    have hreg' : Regular ((eols ++ d) ++ (q ++ ttyBytes tty)) := by simpa using hreg
    have hpRead := h.pRead_eq
    have hcur := h.cur_eq
    by_cases hfull : s.pRead + bytes.length = maxAtResponse
    · right
      have hnil : q = [] := by
        by_contra hne
        have := hreg'.fits [] (eols ++ d) q (ttyBytes tty) (by simp) hed hq hne
        rw [List.length_append] at this
        omega
      subst hnil
      exact ⟨hfull, hreg'.of_eols hed, htarget⟩
    · left
      refine ⟨eols ++ d, q, ?_⟩
      constructor
      · change s.pRead + bytes.length < maxAtResponse
        omega
      · rw [List.length_append, hcur]
      · change s.pRead + bytes.length = s.cur + d.length + q.length
        omega
      · exact hed
      · exact hq
      · rw [hdq] at hstr
        exact hstr.drop
      · exact hreg'
      · exact htarget
  · dsimp only
    rw [hfind]
    dsimp only
    rw [hfinish]
    rw [hdq, List.append_assoc, lines_of_eols hd, htarget] at hl
    exact ⟨lines (rest ++ ttyBytes tty), hl, hok, rest, hstr', hreg', rfl⟩

/-- A turn of the loop keeps the invariant, or returns what it should. -/
theorem fillTurn_keeps {s : FillState} (h : FillInv userLoad target s) :
    Keeps (fun s' => FillInv userLoad target s' ∧ ttySize s'.tty < ttySize s.tty)
      (Returns userLoad target) (fillTurn userLoad s) := by
  obtain ⟨eols, part, hpart⟩ := h.ditch
  have hok := h.1
  rw [← s.ditch_tty] at hok ⊢
  unfold fillTurn
  generalize s.ditch = s at hpart hok
  have hroom := hpart.room
  cases hread : readTty (maxAtResponse - s.pRead) s.tty with
  | mk count tty =>
    obtain ⟨hok', hbytes, hsize, hclosed, hlen, hdump⟩ := readTty_spec hok (by omega) hread
    dsimp only
    rw [hread]
    cases count with
    | none =>
      refine ⟨⟨hok', .inl ⟨eols, part, ?_⟩⟩, hsize (by simp)⟩
      have hsame : ttyBytes s.tty = ttyBytes tty := hbytes
      exact { hpart with
        regular := hsame ▸ hpart.regular
        lines_eq := hsame ▸ hpart.lines_eq }
    | some bytes =>
      cases bytes with
      | nil =>
        have hnil : ttyBytes s.tty = [] := hbytes.trans (hclosed rfl)
        have := hpart.lines_eq
        rw [hnil, List.append_nil, lines_partial hpart.part_eol] at this
        exact this.symm
      | cons b bytes =>
        have hnot : ¬ (!userLoad && dumpOverflows (b :: bytes).length) = true := by
          rcases hdump with huser | hshort
          · simp [huser]
          · simpa using fun _ => hshort
        dsimp only
        rw [if_neg hnot]
        refine (FillState.received_keeps hpart hok' hbytes hlen).mono ?_ fun _ hr => hr
        rintro s' ⟨hs', rfl⟩
        exact ⟨hs', hsize (by simp)⟩

/-- The loop reads up to the next line. -/
theorem fill_spec {s : FillState} (h : FillInv userLoad target s) :
    Returns userLoad target (fill userLoad s) := by
  obtain ⟨r, hloop, hr⟩ := loop_total (fun _ hs => fillTurn_keeps hs) h (Nat.lt_succ_self _)
  rw [fill, hloop]
  exact hr

/-! ## Successive calls -/

/-- With an incomplete line in the buffer a call goes on to read. -/
theorem readline_partial (userLoad : Bool) {s : ReaderState} {d q : List UInt8}
    (hstr : Str s.buffer atBufferSize s.cur (d ++ q)) (hne : d ++ q ≠ [])
    (hd : ∀ x ∈ d, isEol x = true) (hq : ∀ x ∈ q, isEol x = false)
    (hprompt : q ≠ [chGreater, chSpace]) :
    ∃ buffer, readline userLoad s = fill userLoad ⟨buffer, 0, q.length, s.tty⟩ ∧
      Str buffer atBufferSize 0 q := by
  have hzero : s.buffer s.cur ≠ 0 := fun h0 => hne (hstr.eq_zero_iff.mp h0)
  have hskip : (d ++ q).takeWhile isEol = d := by
    rw [List.takeWhile_append_of_pos hd]
    cases q with
    | nil => simp
    | cons b q => simp [hq b List.mem_cons_self]
  have hqstr := hstr.drop
  refine ⟨_, ?_, hqstr.move⟩
  unfold readline
  rw [load_of_lt hstr.lt, Option.bind_eq_bind, Option.bind_some, if_neg hzero,
    skipNewlines_str hstr, hskip, Option.bind_eq_bind, Option.bind_some,
    findNextEOL_str hqstr hprompt, if_pos hq, Option.bind_eq_bind, Option.bind_some]
  dsimp only
  rw [scan_str_end hqstr, Option.bind_some, Nat.add_sub_cancel_left]

/-- A call returns the next line, or null when none is left. -/
theorem readline_spec {s : ReaderState} (h : Ready userLoad target s) :
    Returns userLoad target (readline userLoad s) := by
  obtain ⟨hok, txt, hstr, hreg, hlines⟩ := h
  by_cases hnil : txt = []
  · subst hnil
    rw [readline, load_of_lt hstr.1, Option.bind_eq_bind, Option.bind_some, if_pos hstr.2, ← hlines]
    exact fill_spec (FillInv.of_fresh (.inr ⟨rfl, rfl, str_nil _⟩) hok hreg)
  · obtain ⟨d, q, rfl, hd, hskip, hnext⟩ := nextLine hstr (List.forall_mem_nil _) hreg s.tty
    rcases hnext with ⟨hq, hfind⟩ | ⟨eol, l, buffer', cur', rest, hfind, hfinish, hstr', hreg', hl⟩
    · have hreg' : Regular (d ++ (q ++ ttyBytes s.tty)) := by simpa using hreg
      have hprompt : q ≠ [chGreater, chSpace] := by
        rintro rfl
        exact hreg'.ne_greater hd rfl
      obtain ⟨buffer', hread, hstr'⟩ := readline_partial userLoad hstr hnil hd hq hprompt
      rw [hread]
      refine fill_spec ⟨hok, .inl ⟨[], q, ?_⟩⟩
      constructor
      · change q.length < maxAtResponse
        by_cases hne : q = []
        · rw [hne]
          exact Nat.succ_pos _
        · have := hreg'.fits d [] q (ttyBytes s.tty) (by simp) (List.forall_mem_nil _) hq hne
          rw [List.length_nil] at this
          omega
      · rfl
      · exact (Nat.zero_add _).symm
      · exact List.forall_mem_nil _
      · exact hq
      · exact hstr'
      · exact hreg'.of_eols hd
      · rw [← hlines, List.append_assoc, lines_of_eols hd]
    · have hzero : s.buffer s.cur ≠ 0 := fun h0 => hnil (hstr.eq_zero_iff.mp h0)
      rw [readline, load_of_lt hstr.lt, Option.bind_eq_bind, Option.bind_some, if_neg hzero, hskip,
        Option.bind_eq_bind, Option.bind_some, hfind, Option.bind_eq_bind, Option.bind_some]
      dsimp only
      rw [hfinish]
      exact ⟨_, hlines.symm.trans hl, hok, rest, hstr', hreg', rfl⟩

/-- The lines, then null. -/
def lineResults (target : List (List UInt8)) : List LineResult :=
  target.map LineResult.line ++ [LineResult.closed]

/-- Successive results, when the first is as it should be. -/
theorem results_of_returns {s : ReaderState} (h : Returns userLoad target (readline userLoad s))
    (n : Nat) : results userLoad n s = (lineResults target).take n := by
  induction n generalizing s target with
  | zero => rfl
  | succ n ih =>
    rw [results]
    match hread : readline userLoad s with
    | none =>
      rw [hread] at h
      exact h.elim
    | some (none, s') =>
      rw [hread] at h
      have hnil : target = [] := h
      subst hnil
      simp [lineResults]
    | some (some line, s') =>
      rw [hread] at h
      obtain ⟨rest, rfl, hready⟩ := h
      dsimp only
      rw [ih (readline_spec hready)]
      rfl

/-! ## The first call -/

/-- The successive results are the lines from the tty. -/
def Assembles (userLoad : Bool) (buffer : Nat → UInt8) (tty : List TtyEvent) : Prop :=
  ∀ n, results userLoad n (.start buffer tty) = (lineResults (lines (ttyBytes tty))).take n

/-- The string in the buffer is of no consequence: it is made of line ends, or so long that
it will be ditched. -/
def Benign (buffer : Nat → UInt8) : Prop :=
  ∃ txt, Str buffer atBufferSize 0 txt ∧ ((∀ x ∈ txt, isEol x = true) ∨
    txt.length = maxAtResponse ∧ ∀ x ∈ txt, isEol x = false)

/-- A first call with a benign buffer goes on to read, from the start. -/
theorem Benign.readline {buffer : Nat → UInt8} (h : Benign buffer) (userLoad : Bool)
    (tty : List TtyEvent) :
    ∃ s : FillState, s.Fresh ∧ s.tty = tty ∧
      Rfx.readline userLoad (.start buffer tty) = fill userLoad s := by
  obtain ⟨txt, hstr, heol | ⟨hlen, hline⟩⟩ := h
  · by_cases hnil : txt = []
    · subst hnil
      refine ⟨⟨Function.update buffer 0 0, 0, 0, tty⟩, .inr ⟨rfl, rfl, str_nil buffer⟩, rfl, ?_⟩
      rw [Rfx.readline, ReaderState.start, load_of_lt hstr.1, Option.bind_eq_bind,
        Option.bind_some, if_pos hstr.2]
    · have hstr' : Str buffer atBufferSize 0 (txt ++ []) := by rwa [List.append_nil]
      obtain ⟨buffer', hread, hnew⟩ := readline_partial userLoad (s := .start buffer tty) hstr'
        (by simpa using hnil) heol (List.forall_mem_nil _) (by simp)
      exact ⟨⟨buffer', 0, 0, tty⟩, .inr ⟨rfl, rfl, hnew⟩, rfl, hread⟩
  · have hprompt : txt ≠ [chGreater, chSpace] := by
      rintro rfl
      cases hlen
    have hnil : txt ≠ [] := by
      rintro rfl
      cases hlen
    obtain ⟨buffer', hread, -⟩ := readline_partial userLoad (s := .start buffer tty)
      (d := []) hstr hnil (List.forall_mem_nil _) hline hprompt
    exact ⟨⟨buffer', 0, txt.length, tty⟩, .inl hlen, rfl, hread⟩

/-- A stream of line ends has no lines. -/
theorem lines_eols {w : List UInt8} (h : ∀ x ∈ w, isEol x = true) : lines w = [] := by
  have := lines_of_eols h []
  rw [List.append_nil] at this
  exact this

theorem regular_eols {w : List UInt8} (h : ∀ x ∈ w, isEol x = true) : Regular w := by
  constructor
  · intro hz
    exact absurd (h 0 hz) (by decide)
  · rintro a b rfl
    exact absurd (h chGreater (by simp)) (by decide)
  · rintro a e l b rfl _ hl hne
    obtain ⟨x, l, rfl⟩ := List.exists_cons_of_ne_nil hne
    exact absurd ((h x (by simp)).symm.trans (hl x List.mem_cons_self)) (by simp)

/-- A stream of line ends makes the reader return null if it works. -/
theorem Assembles.closed {buffer : Nat → UInt8} {tty : List TtyEvent}
    (h : Assembles userLoad buffer tty) (heol : ∀ x ∈ ttyBytes tty, isEol x = true) :
    ∃ s, readline userLoad (.start buffer tty) = some (none, s) := by
  have hone := h 1
  rw [lines_eols heol] at hone
  rw [results] at hone
  match hread : readline userLoad (.start buffer tty) with
  | none =>
    rw [hread] at hone
    cases hone
  | some (none, s) => exact ⟨s, rfl⟩
  | some (some line, s) =>
    rw [hread] at hone
    cases hone

/-- Where there is neither a line end nor the prompt there is a zero. -/
theorem findNextEOL_none {buffer : Nat → UInt8} {cur : Nat}
    (h : findNextEOL buffer cur = some none) :
    isPrompt buffer cur = some false ∧ ∃ i, cur ≤ i ∧ i < atBufferSize ∧ buffer i = 0 := by
  unfold findNextEOL at h
  rw [Option.bind_eq_bind, Option.bind_eq_some_iff] at h
  obtain ⟨prompt, hprompt, h⟩ := h
  cases prompt with
  | true => cases h
  | false =>
    rw [if_neg Bool.false_ne_true, Option.bind_eq_bind, Option.bind_eq_some_iff] at h
    obtain ⟨eol, hscan, h⟩ := h
    rw [Option.bind_eq_bind, Option.bind_eq_some_iff] at h
    obtain ⟨b, hload, h⟩ := h
    obtain ⟨hlt, rfl⟩ := load_eq_some hload
    refine ⟨hprompt, eol, le_of_scan hscan, hlt, ?_⟩
    by_contra hne
    rw [if_neg hne] at h
    cases h

/-- A line that is handed out is not null. -/
theorem finishLine_line {buffer : Nat → UInt8} {cur eol : Nat} {tty : List TtyEvent}
    {line : Option (List UInt8)} {s : ReaderState}
    (h : finishLine buffer cur eol tty = some (line, s)) : line ≠ none := by
  have hlast : ∀ buffer : Nat → UInt8, ((strAt buffer atBufferSize cur).bind fun l =>
      some (some l, (⟨buffer, eol + 1, tty⟩ : ReaderState))) = some (line, s) → line ≠ none := by
    intro buffer h
    obtain ⟨_, _, h⟩ := Option.bind_eq_some_iff.mp h
    cases h
    exact Option.some_ne_none _
  unfold finishLine at h
  obtain ⟨buffer₁, _, h⟩ := Option.bind_eq_some_iff.mp h
  obtain ⟨prompt, _, h⟩ := Option.bind_eq_some_iff.mp h
  cases prompt with
  | false => exact hlast buffer₁ h
  | true =>
    obtain ⟨buffer₂, _, h⟩ := Option.bind_eq_some_iff.mp h
    exact hlast buffer₂ h

/-- When a call returns null, the buffer was empty or had no line end but at its start. -/
theorem readline_null {s s' : ReaderState} (h : readline userLoad s = some (none, s')) :
    s.cur < atBufferSize ∧ (s.buffer s.cur = 0 ∨ ∃ cur,
      skipNewlines s.buffer s.cur = some cur ∧ findNextEOL s.buffer cur = some none) := by
  unfold readline at h
  rw [Option.bind_eq_bind, Option.bind_eq_some_iff] at h
  obtain ⟨b, hload, h⟩ := h
  obtain ⟨hlt, rfl⟩ := load_eq_some hload
  refine ⟨hlt, ?_⟩
  by_cases hzero : s.buffer s.cur = 0
  · exact .inl hzero
  · rw [if_neg hzero, Option.bind_eq_bind, Option.bind_eq_some_iff] at h
    obtain ⟨cur, hskip, h⟩ := h
    rw [Option.bind_eq_bind, Option.bind_eq_some_iff] at h
    obtain ⟨eol?, hfind, h⟩ := h
    cases eol? with
    | none => exact .inr ⟨cur, hskip, hfind⟩
    | some eol => exact absurd rfl (finishLine_line h)

/-- So there is a string in the buffer without a line end but at its start. -/
theorem exists_of_readline {s s' : ReaderState} (h : readline userLoad s = some (none, s')) :
    ∃ d q, Str s.buffer atBufferSize s.cur (d ++ q) ∧ (∀ x ∈ d, isEol x = true) ∧
      (∀ x ∈ q, isEol x = false) ∧ q ≠ [chGreater, chSpace] := by
  obtain ⟨hlt, hzero | ⟨cur, hskip, hfind⟩⟩ := readline_null h
  · exact ⟨[], [], ⟨hlt, hzero⟩, List.forall_mem_nil _, List.forall_mem_nil _, by simp⟩
  · obtain ⟨hprompt, i, hi, hisize, hizero⟩ := findNextEOL_none hfind
    rcases exists_str_or s.buffer atBufferSize s.cur with ⟨txt, hstr⟩ | hnone
    · rw [skipNewlines_str hstr] at hskip
      obtain rfl := Option.some.inj hskip
      have hsplit : txt = txt.takeWhile isEol ++ txt.dropWhile isEol :=
        List.takeWhile_append_dropWhile.symm
      have hq : Str s.buffer atBufferSize (s.cur + (txt.takeWhile isEol).length)
          (txt.dropWhile isEol) := by
        refine Str.drop ?_
        rwa [← hsplit]
      have hnot : txt.dropWhile isEol ≠ [chGreater, chSpace] := by
        intro heq
        rw [isPrompt_str hq, heq] at hprompt
        cases hprompt
      refine ⟨txt.takeWhile isEol, txt.dropWhile isEol, hsplit ▸ hstr,
        fun x hx => List.mem_takeWhile_imp hx, ?_, hnot⟩
      rw [findNextEOL_str hq hnot] at hfind
      by_contra hsome
      rw [if_neg hsome] at hfind
      cases hfind
    · exact absurd hizero (hnone i (Nat.le_trans (le_of_scan hskip) hi) hisize)

/-- What is left in the buffer is returned together with the next line end. -/
theorem fill_residue (userLoad : Bool) {buffer : Nat → UInt8} {q : List UInt8} (h : Str buffer atBufferSize 0 q)
    (hq : ∀ x ∈ q, isEol x = false) (hne : q ≠ []) (hprompt : q ≠ [chGreater, chSpace])
    (hroom : q.length < maxAtResponse) :
    ∃ s, fill userLoad ⟨buffer, 0, q.length, [.data [0x0D]]⟩ = some (some q, s) := by
  have hstr := h.append (show 0 ∉ [0x0D] by decide) (by
    rw [Nat.zero_add, List.length_singleton, atBufferSize]
    omega)
  rw [Nat.zero_add] at hstr
  have hskip : (q ++ [0x0D]).takeWhile isEol = [] := by
    obtain ⟨b, q, rfl⟩ := List.exists_cons_of_ne_nil hne
    simp [hq b List.mem_cons_self]
  have hline : ((q ++ [0x0D]).takeWhile fun b => !isEol b) = q := by
    rw [List.takeWhile_append_of_pos fun x hx => by simp [hq x hx]]
    simp [isEol]
  have hnotall : ¬ ∀ x ∈ q ++ [0x0D], isEol x = false := by
    intro hall
    exact absurd (hall 0x0D (by simp)) (by decide)
  have hnot : q ++ [0x0D] ≠ [chGreater, chSpace] := by
    intro heq
    have hlast := congrArg List.getLast? heq
    rw [List.getLast?_append] at hlast
    cases hlast
  obtain ⟨buffer', hfinish, -⟩ := finishLine_str hstr hprompt []
  have hspace : 1 ≤ maxAtResponse - q.length := by omega
  have hturn : fillTurn userLoad ⟨buffer, 0, q.length, [.data [0x0D]]⟩ =
      .inr (some (some q, ⟨buffer', 0 + q.length + 1, []⟩)) := by
    rw [fillTurn, FillState.ditch, if_neg (Nat.ne_of_lt hroom)]
    dsimp only [readTty]
    rw [List.take_of_length_le hspace, if_pos (by exact hspace)]
    dsimp only
    rw [if_neg (by simp [dumpOverflows, maxAtResponse]), FillState.received]
    dsimp only [List.length_singleton]
    rw [List.length_singleton] at hstr
    rw [skipNewlines_str hstr, hskip]
    dsimp only [List.length_nil]
    rw [Nat.add_zero, findNextEOL_str hstr hnot, if_neg hnotall, hline]
    exact congrArg Sum.inr hfinish
  exact ⟨_, by rw [fill, loop_of_inr hturn]; rfl⟩

/-- A reader that works on all short streams started with a benign buffer. -/
theorem benign_of_assembles {buffer : Nat → UInt8} (hempty : Assembles userLoad buffer [])
    (hcr : Assembles userLoad buffer [.data [0x0D]]) : Benign buffer := by
  obtain ⟨s, hread⟩ := hempty.closed (List.forall_mem_nil _)
  obtain ⟨d, q, hstr, hd, hq, hprompt⟩ := exists_of_readline hread
  by_cases hnil : q = []
  · refine ⟨d ++ q, hstr, .inl ?_⟩
    rwa [hnil, List.append_nil]
  · have hlt := hstr.add_length_lt
    have hcur : (ReaderState.start buffer []).cur = 0 := rfl
    rw [List.length_append, hcur, Nat.zero_add, atBufferSize] at hlt
    by_cases hfull : q.length = maxAtResponse
    · have hdnil : d = [] := List.length_eq_zero_iff.mp (by omega)
      subst hdnil
      exact ⟨q, hstr, .inr ⟨hfull, hq⟩⟩
    · obtain ⟨s, hclosed⟩ := hcr.closed (by simp [ttyBytes, isEol])
      obtain ⟨buffer', hfill, hstr'⟩ := readline_partial userLoad
        (s := .start buffer [.data [0x0D]]) hstr (by simp [hnil]) hd hq hprompt
      obtain ⟨s', hline⟩ := fill_residue userLoad hstr' hq hnil hprompt (by omega)
      rw [hfill, ReaderState.start, hline] at hclosed
      cases hclosed

/-- A read that is too long for the dump crashes the reader. -/
theorem fill_crashed {s : FillState} {bytes : List UInt8} (h : s.Fresh)
    (htty : s.tty = [.data bytes]) (hlong : dumpOverflows bytes.length = true) :
    fill false s = none := by
  have hditch : s.ditch.pRead = 0 := by
    unfold FillState.ditch
    split
    · rfl
    · rename_i hroom
      exact (h.resolve_left hroom).1
  have hlen : dumpOverflows (bytes.take maxAtResponse).length = true := by
    simp only [dumpOverflows, decide_eq_true_eq, gt_iff_lt, List.length_take, maxAtResponse] at hlong ⊢
    omega
  have hturn : fillTurn false s = .inr none := by
    unfold fillTurn
    dsimp only
    rw [s.ditch_tty, htty, hditch, readTty, Nat.sub_zero]
    cases htake : bytes.take maxAtResponse with
    | nil =>
      rw [htake] at hlen
      cases hlen
    | cons b bytes =>
      rw [htake] at hlen
      dsimp only
      rw [hlen]
      rfl
  rw [fill, loop_of_inr hturn]
  rfl

/-- `count` line ends. -/
theorem isEol_replicate (count : Nat) :
    ∀ x ∈ ttyBytes [.data (List.replicate count 0x0D)], isEol x = true := by
  intro x hx
  rw [ttyBytes, ttyBytes, List.append_nil] at hx
  rw [List.eq_of_mem_replicate hx]
  rfl

theorem not_assembles_of_dumpOverflows {buffer : Nat → UInt8} {count : Nat}
    (hbenign : Benign buffer) (hlong : dumpOverflows count = true) :
    ¬ Assembles false buffer [.data (List.replicate count 0x0D)] := by
  intro h
  obtain ⟨s, hclosed⟩ := h.closed (isEol_replicate count)
  obtain ⟨s', hfresh, htty, hread⟩ := hbenign.readline false [.data (List.replicate count 0x0D)]
  rw [hread, fill_crashed hfresh htty (by rwa [List.length_replicate])] at hclosed
  cases hclosed

/-- A short stream without `>` is regular. -/
theorem regular_of_short {w : List UInt8} (hnul : 0 ∉ w) (hgreater : chGreater ∉ w)
    (hlen : w.length < maxAtResponse) : Regular w := by
  constructor
  · exact hnul
  · rintro a b rfl
    exact absurd (List.mem_append_right a List.mem_cons_self) hgreater
  · rintro a e l b rfl _ _ _
    simp only [List.length_append] at hlen
    omega

/-- **When lines are assembled.**  The reader returns the lines of every regular stream,
in every division into reads of at most `limit` bytes, when the buffer held nothing at the
start and the reads are not dumped or short enough to be dumped, and only then. -/
theorem assembles_iff (buffer : Nat → UInt8) (userLoad : Bool) {limit : Nat} (hlimit : 0 < limit) :
    (∀ tty, Regular (ttyBytes tty) →
        (∀ bytes, .data bytes ∈ tty → bytes ≠ [] ∧ bytes.length ≤ limit) →
        Assembles userLoad buffer tty) ↔
      Benign buffer ∧ (userLoad = true ∨ dumpOverflows limit = false) := by
  constructor
  · intro h
    have hbenign : Benign buffer := by
      refine benign_of_assembles (h [] ?_ ?_) (h _ ?_ ?_)
      · exact regular_eols (List.forall_mem_nil _)
      · rintro bytes ⟨⟩
      · exact regular_eols (by simp [ttyBytes, isEol])
      · intro bytes hmem
        obtain rfl : bytes = [0x0D] := by simpa using hmem
        exact ⟨List.cons_ne_nil _ _, hlimit⟩
    refine ⟨hbenign, ?_⟩
    by_contra hnot
    obtain ⟨huser, hlong⟩ := not_or.mp hnot
    have hfalse : userLoad = false := by simpa using huser
    subst hfalse
    refine not_assembles_of_dumpOverflows hbenign (by simpa using hlong) ?_
    refine h _ (regular_eols (isEol_replicate limit)) fun bytes hmem => ?_
    obtain rfl : bytes = List.replicate limit 0x0D := by simpa using hmem
    exact ⟨by simpa using Nat.ne_of_gt hlimit, by simp⟩
  · rintro ⟨hbenign, hdump⟩ tty hreg hlen n
    obtain ⟨s, hfresh, rfl, hread⟩ := hbenign.readline userLoad tty
    have hok : TtyOk userLoad s.tty := by
      intro bytes hmem
      refine ⟨(hlen bytes hmem).1, hdump.imp_right fun hshort => ?_⟩
      have := (hlen bytes hmem).2
      simp only [dumpOverflows, decide_eq_false_iff_not, not_lt] at hshort ⊢
      omega
    refine results_of_returns ?_ n
    rw [hread]
    exact fill_spec (FillInv.of_fresh hfresh hok hreg)

/-- A line in two reads, into a cleared buffer. -/
theorem assembles_cleared :
    results false 2 (.start (fun _ => 0) [.data [0x4F, 0x4B, 0x0D], .interrupted, .data [0x0A]]) =
      [.line [0x4F, 0x4B], .closed] := by
  have hbenign : Benign fun _ => 0 := ⟨[], ⟨by decide, rfl⟩, .inl (List.forall_mem_nil _)⟩
  have hregular : Regular (ttyBytes [.data [0x4F, 0x4B, 0x0D], .interrupted, .data [0x0A]]) :=
    regular_of_short (by decide) (by decide) (by decide)
  refine (((assembles_iff (fun _ => 0) false (show 0 < 2730 by decide)).mpr
    ⟨hbenign, .inr (by decide)⟩) _ hregular ?_ 2).trans (by decide)
  intro bytes hmem
  simp only [List.mem_cons, TtyEvent.data.injEq, List.not_mem_nil, or_false] at hmem
  rcases hmem with rfl | hmem | rfl
  · decide
  · cases hmem
  · decide

/-- The line `OK` when the memory of the buffer held an `X`, and 2731 line ends read at once
when they are dumped. -/
theorem lines_not_assembled :
    (Regular (ttyBytes [.data [0x4F, 0x4B, 0x0D, 0x0A]]) ∧
      results true 2 (.start (Function.update (fun _ => 0) 0 0x58)
        [.data [0x4F, 0x4B, 0x0D, 0x0A]]) = [.line [0x58, 0x4F, 0x4B], .closed] ∧
      ¬ Assembles true (Function.update (fun _ => 0) 0 0x58) [.data [0x4F, 0x4B, 0x0D, 0x0A]]) ∧
    Regular (ttyBytes [.data (List.replicate 2731 0x0D)]) ∧
      ¬ Assembles false (fun _ => 0) [.data (List.replicate 2731 0x0D)] := by
  refine ⟨⟨?_, ?_, ?_⟩, ?_, ?_⟩
  · exact regular_of_short (by decide) (by decide) (by decide)
  · decide
  · intro h
    exact absurd (h 1) (by decide)
  · exact regular_eols (isEol_replicate 2731)
  · refine not_assembles_of_dumpOverflows ?_ (by decide)
    exact ⟨[], ⟨by decide, rfl⟩, .inl (List.forall_mem_nil _)⟩

end MtkHw.Rfx
