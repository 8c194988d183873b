import Mathlib.Data.List.Nodup
import MtkHw.Lib.Text

/-!
# Maps kept in a text

A map from keys to values may be kept in a text of items: each is a separator, the key, a mark, and
the value written out.  A key is then looked up by searching for it between a separator and a mark,
and its item ends where the next separator stands.

`put` is what the text stands for when a key is taken out and put at the end with a new value, and
`latest` is what becomes of a history of puts: each key once, with its latest value.
`strstr_mapText` and `strstr_mapText_of_notMem` say what the search finds.
-/

namespace MtkHw.Lib.TextMap

variable {κ α β : Type*}

/-! ## Histories of puts -/

section Put

variable [DecidableEq κ]

/-- The items of the other keys. -/
def others (items : List (κ × β)) (key : κ) : List (κ × β) := items.filter (·.1 ≠ key)

/-- The items with `key` at the end, standing for `value`. -/
def put (items : List (κ × β)) (key : κ) (value : β) : List (κ × β) :=
  others items key ++ [(key, value)]

/-- Each key once, with the latest value; the latest put comes first in the history. -/
def latest : List (κ × β) → List (κ × β)
  | [] => []
  | (key, value) :: older => put (latest older) key value

theorem mem_others {items : List (κ × β)} {key : κ} {p : κ × β} :
    p ∈ others items key ↔ p ∈ items ∧ p.1 ≠ key := by
  rw [others, List.mem_filter, decide_eq_true_eq]

/-- Each key stands once. -/
theorem nodup_latest (history : List (κ × β)) : ((latest history).map Prod.fst).Nodup := by
  induction history with
  | nil => exact List.nodup_nil
  | cons p older ih =>
    obtain ⟨key, value⟩ := p
    have hsub : ((others (latest older) key).map Prod.fst).Nodup :=
      ih.sublist (List.filter_sublist.map Prod.fst)
    rw [latest, put, List.map_append, List.nodup_append]
    refine ⟨hsub, List.nodup_singleton _, fun k hk k' hk' heq => ?_⟩
    obtain ⟨p, hp, rfl⟩ := List.mem_map.mp hk
    obtain rfl := List.mem_singleton.mp hk'
    exact (mem_others.mp hp).2 heq

/-- A key stands for its latest value. -/
theorem mem_latest [BEq κ] [LawfulBEq κ] {history : List (κ × β)} {key : κ} {value : β} :
    (key, value) ∈ latest history ↔ history.lookup key = some value := by
  induction history with
  | nil => simp [latest]
  | cons p older ih =>
    obtain ⟨key', value'⟩ := p
    rw [latest, put, List.mem_append, mem_others, ih, List.mem_singleton, Prod.mk.injEq]
    by_cases hkey : key = key'
    · subst hkey
      simp [eq_comm]
    · rw [List.lookup_cons, beq_false_of_ne hkey]
      simp [hkey]

/-- Nothing but the keys and values of the history. -/
theorem forall_latest {history : List (κ × β)} {P : κ × β → Prop} (h : ∀ p ∈ history, P p) :
    ∀ p ∈ latest history, P p := by
  induction history with
  | nil => exact h
  | cons q older ih =>
    obtain ⟨key, value⟩ := q
    intro p hp
    rcases List.mem_append.mp hp with hp | hp
    · exact ih (fun p hp => h p (List.mem_cons_of_mem _ hp)) p (mem_others.mp hp).1
    · obtain rfl := List.mem_singleton.mp hp
      exact h _ List.mem_cons_self

/-- Without its item the others stay, in order. -/
theorem others_of_notMem {items : List (κ × β)} {key : κ} (h : key ∉ items.map Prod.fst) :
    others items key = items := by
  refine List.filter_eq_self.mpr fun p hp => decide_eq_true ?_
  rintro rfl
  exact h (List.mem_map_of_mem hp)

/-- The items before and behind the one of a key. -/
theorem exists_split {items : List (κ × β)} (hnodup : (items.map Prod.fst).Nodup) {key : κ}
    (h : key ∈ items.map Prod.fst) : ∃ before value behind,
      items = before ++ (key, value) :: behind ∧ key ∉ before.map Prod.fst ∧
        others items key = before ++ behind := by
  obtain ⟨⟨key, value⟩, hp, rfl⟩ := List.mem_map.mp h
  obtain ⟨before, behind, rfl⟩ := List.append_of_mem hp
  rw [List.map_append, List.map_cons, List.nodup_append, List.nodup_cons] at hnodup
  obtain ⟨-, ⟨hbehind, -⟩, happart⟩ := hnodup
  have hbefore : key ∉ before.map Prod.fst :=
    fun hk => happart key hk key List.mem_cons_self rfl
  refine ⟨before, value, behind, rfl, hbefore, ?_⟩
  have hself : others ((key, value) :: behind) key = others behind key :=
    List.filter_cons_of_neg (by simp)
  rw [others, List.filter_append]
  change others before key ++ others ((key, value) :: behind) key = _
  rw [hself, others_of_notMem hbefore, others_of_notMem hbehind]

end Put

/-! ## The text -/

section Text

variable (sep mark : α) (render : β → List α)

/-- An item: the separator, the key, the mark, the value. -/
def itemText (p : List α × β) : List α := sep :: p.1 ++ mark :: render p.2

/-- The items, one after the other. -/
def mapText (items : List (List α × β)) : List α := items.flatMap (itemText sep mark render)

/-- An item that can be told from its neighbours. -/
structure Clean (p : List α × β) : Prop where
  sep_key : sep ∉ p.1
  mark_key : mark ∉ p.1
  sep_value : sep ∉ render p.2

variable {sep mark : α} {render : β → List α}

@[simp] theorem mapText_nil : mapText sep mark render ([] : List (List α × β)) = [] := rfl

theorem mapText_cons (p : List α × β) (items : List (List α × β)) :
    mapText sep mark render (p :: items) =
      sep :: (p.1 ++ mark :: (render p.2 ++ mapText sep mark render items)) := by
  rw [mapText, List.flatMap_cons, itemText, List.cons_append, List.cons_append, List.append_assoc,
    List.cons_append]
  rfl

@[simp] theorem mapText_append (items items' : List (List α × β)) :
    mapText sep mark render (items ++ items') =
      mapText sep mark render items ++ mapText sep mark render items' := List.flatMap_append

/-- Two words without the mark that stand before a mark are the same word. -/
theorem word_unique {key key' rest : List α} (hkey : mark ∉ key) (hkey' : mark ∉ key')
    (h : key ++ [mark] <+: key' ++ mark :: rest) : key = key' := by
  induction key generalizing key' with
  | nil =>
    cases key' with
    | nil => rfl
    | cons c key' =>
      have hc := (List.cons_prefix_cons.mp h).1
      exact absurd (List.mem_cons.mpr (.inl hc)) hkey'
  | cons b key ih =>
    cases key' with
    | nil =>
      have hb := (List.cons_prefix_cons.mp h).1
      exact absurd (List.mem_cons.mpr (.inl hb.symm)) hkey
    | cons c key' =>
      obtain ⟨rfl, hrest⟩ := List.cons_prefix_cons.mp h
      rw [ih (fun hm => hkey (List.mem_cons_of_mem _ hm))
        (fun hm => hkey' (List.mem_cons_of_mem _ hm)) hrest]

/-! ## Searching -/

variable [DecidableEq α]

/-- The search for a key goes on behind the item of another key. -/
theorem strstr_item {p : List α × β} (hp : Clean sep mark render p) (hsep : sep ≠ mark)
    {key : List α} (hmark : mark ∉ key) (hne : key ≠ p.1) (items : List (List α × β)) :
    strstr (mapText sep mark render (p :: items)) (sep :: key ++ [mark]) =
      strstr (mapText sep mark render items) (sep :: key ++ [mark]) := by
  have hfront : ¬ sep :: key ++ [mark] <+: mapText sep mark render (p :: items) := by
    intro h
    rw [mapText_cons] at h
    exact hne (word_unique hmark hp.mark_key (List.cons_prefix_cons.mp h).2)
  have hword : sep ∉ p.1 ++ mark :: render p.2 := by
    intro h
    rcases List.mem_append.mp h with h | h
    · exact hp.sep_key h
    · rcases List.mem_cons.mp h with h | h
      · exact hsep h
      · exact hp.sep_value h
  have hrest := strstr_word hword (key ++ [mark]) (mapText sep mark render items)
  rw [List.append_assoc, List.cons_append] at hrest
  rw [mapText_cons] at hfront ⊢
  rw [strstr, if_neg hfront, List.cons_append]
  exact hrest

/-- A key that does not stand in the map is not found. -/
theorem strstr_mapText_of_notMem {items : List (List α × β)}
    (hclean : ∀ p ∈ items, Clean sep mark render p) (hsep : sep ≠ mark) {key : List α}
    (hmark : mark ∉ key) (h : key ∉ items.map Prod.fst) :
    strstr (mapText sep mark render items) (sep :: key ++ [mark]) = none := by
  induction items with
  | nil => rfl
  | cons p items ih =>
    have hne : key ≠ p.1 := fun heq => h (List.mem_cons.mpr (.inl heq))
    rw [strstr_item (hclean p List.mem_cons_self) hsep hmark hne]
    exact ih (fun q hq => hclean q (List.mem_cons_of_mem _ hq))
      fun hk => h (List.mem_cons_of_mem _ hk)

/-- A key is found where its item begins. -/
theorem strstr_mapText {before behind : List (List α × β)} {key : List α} {value : β}
    (hclean : ∀ p ∈ before, Clean sep mark render p) (hsep : sep ≠ mark) (hmark : mark ∉ key)
    (h : key ∉ before.map Prod.fst) :
    strstr (mapText sep mark render (before ++ (key, value) :: behind)) (sep :: key ++ [mark]) =
      some (mapText sep mark render ((key, value) :: behind)) := by
  induction before with
  | nil =>
    have hfront : mapText sep mark render ((key, value) :: behind) =
        (sep :: key ++ [mark]) ++ (render value ++ mapText sep mark render behind) := by
      rw [mapText_cons]
      simp
    rw [List.nil_append, hfront]
    exact strstr_prefix _ _
  | cons p before ih =>
    have hne : key ≠ p.1 := fun heq => h (List.mem_cons.mpr (.inl heq))
    rw [List.cons_append, strstr_item (hclean p List.mem_cons_self) hsep hmark hne]
    exact ih (fun q hq => hclean q (List.mem_cons_of_mem _ hq))
      fun hk => h (List.mem_cons_of_mem _ hk)

/-- Behind an item stand the next ones, if there are any. -/
theorem strchr_behind_item {key : List α} {value : β} (hp : Clean sep mark render (key, value))
    (hsep : sep ≠ mark) (behind : List (List α × β)) :
    strchr (mapText sep mark render ((key, value) :: behind)).tail sep =
      if behind = [] then none else some (mapText sep mark render behind) := by
  have hword : ∀ b ∈ key ++ mark :: render value, b ∉ [sep] := by
    refine word_of_notMem fun h => ?_
    rcases List.mem_append.mp h with h | h
    · exact hp.sep_key h
    · rcases List.mem_cons.mp h with h | h
      · exact hsep h
      · exact hp.sep_value h
  have htail : (mapText sep mark render ((key, value) :: behind)).tail =
      (key ++ mark :: render value) ++ mapText sep mark render behind := by
    rw [mapText_cons]
    simp
  rw [htail, strchr]
  cases behind with
  | nil =>
    rw [mapText_nil, List.append_nil, if_pos rfl]
    exact strpbrk_last hword
  | cons p behind =>
    rw [if_neg (List.cons_ne_nil p behind), mapText_cons]
    exact strpbrk_word hword (List.mem_singleton_self sep) _

end Text

end MtkHw.Lib.TextMap
