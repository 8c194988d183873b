import MtkHw.Hwc.Overlay
import MtkHw.Lib.Rank
import Mathlib.Data.List.Nodup
import Mathlib.Tactic.IntervalCases
import Mathlib.Tactic.Ring

/-!
# The slots follow the layers

The visible layers are `below ++ gles ++ above`, and the GPU composes `gles`.  The slot of a layer
is computed from its position among the committed layers, which is its rank among the visible ones
(`rank`); the range of the GPU is given by positions among the visible layers.  The two are compared
with each other, and the comparison is right when no layer is filtered out where it matters
(`Aligned`).
-/

namespace MtkHw.Hwc

open Lib

/-! ## What is promised -/

/-- The overlay is to show the layer. -/
def HWCLayer.isShown (layer : HWCLayer) : Bool :=
  layer.hasFrame ∧ (layer.getCompositionType = .device ∨ layer.getCompositionType = .cursor)

/-- The slot shows the layer. -/
structure Carries (committed : List HWCLayer) (hw_layer : HWLayer) (layer : HWCLayer) : Prop where
  enable : hw_layer.enable = true
  handle : hw_layer.priv_handle = layer.m_priv_hnd
  index : ∃ i : Nat, hw_layer.index = i ∧ committed[i]? = some layer

/-- A layer that is shown, at its position among the visible layers. -/
def ShownAt (visible : List HWCLayer) (v : Nat) (layer : HWCLayer) : Prop :=
  visible[v]? = some layer ∧ layer.isShown = true

/-- The slots of a job follow the visible layers `below ++ gles ++ above`: `slot` are the slots of
the layers by their positions, and `ct` is the slot of the client target. -/
structure SlotsFollow (f : Features) (display : HWCDisplay) (job : DispatcherJob)
    (below gles above : List HWCLayer) (slot : Nat → Nat) (ct : Nat) : Prop where
  layer : ∀ v layer, ShownAt (below ++ gles ++ above) v layer →
    slot v < job.num_layers ∧
      Carries display.m_committed_layers (job.hw_layers (slot v)) layer
  clientTarget : gles ≠ [] →
    ct < job.num_layers ∧
      Carries display.m_committed_layers (job.hw_layers ct) display.m_ct
  only : ∀ s, s < job.num_layers → (job.hw_layers s).enable = true →
    (∃ v layer, ShownAt (below ++ gles ++ above) v layer ∧ s = slot v) ∨ gles ≠ [] ∧ s = ct
  increasing : ∀ v w lower upper, ShownAt (below ++ gles ++ above) v lower →
    ShownAt (below ++ gles ++ above) w upper → v < w → slot v < slot w
  underneath : gles ≠ [] → ∀ v layer, ShownAt (below ++ gles ++ above) v layer →
    v < below.length → slot v < ct
  onTop : gles ≠ [] → ∀ v layer, ShownAt (below ++ gles ++ above) v layer →
    below.length + gles.length ≤ v → ct < slot v
  driver : f.hrt_from_driver = true → ∀ v layer, ShownAt (below ++ gles ++ above) v layer →
    (slot v : Int) = (job.layer_info.layer_config_list v).ovl_id ∧
      (job.hw_layers (slot v)).ext_sel_layer =
        if f.enable_smart_layer then (job.layer_info.layer_config_list v).ext_sel_layer else -1
  driverTarget : f.hrt_from_driver = true → gles ≠ [] →
    (ct : Int) = (job.layer_info.layer_config_list below.length).ovl_id

/-! ## What is presented -/

/-- The driver gives slots that increase with z to the layers outside the range and to the range,
whose slot is that of its head. -/
def DriverSlots (config : Nat → LayerConfig) (num_layers : Nat)
    (below gles above : List HWCLayer) : Prop :=
  let outside (v : Nat) : Prop :=
    v ≤ below.length ∨ below.length + gles.length ≤ v
  (∀ v, v < (below ++ gles ++ above).length → outside v →
    0 ≤ (config v).ovl_id ∧ (config v).ovl_id < num_layers) ∧
  ∀ v w, v < w → w < (below ++ gles ++ above).length → outside v → outside w →
    (config v).ovl_id < (config w).ovl_id

/-- A connected display that mirrors no other one, its visible layers with the range of the GPU,
and a job with no slot in use that the layers fit. -/
structure Presented (f : Features) (display : HWCDisplay) (job : DispatcherJob)
    (below gles above : List HWCLayer) : Prop where
  visible : display.m_visible_layers = below ++ gles ++ above
  gpu : ∀ layer ∈ gles, layer.getCompositionType = .client
  overlay : ∀ layer ∈ below ++ above, layer.getCompositionType ≠ .client
  ids : ((below ++ gles ++ above ++ [display.m_ct]).map (·.m_id)).Nodup
  layers : ∀ layer ∈ below ++ gles ++ above, layer.m_is_ct = false
  clientTarget : display.m_ct.m_is_ct = true
  connected : display.m_is_connected = true
  notMirror : display.m_mir_src = -1
  fits : below.length + above.length + (if gles = [] then 0 else 1) ≤ job.num_layers
  idle : ∀ s, (job.hw_layers s).enable = false
  driver : f.hrt_from_driver = true →
    DriverSlots job.layer_info.layer_config_list job.num_layers below gles above

/-- A virtual display has its output buffer, the client target has a buffer if the GPU composes a
layer, and no layer is one that is not to reach the overlay. -/
structure Complete (f : Features) (display : HWCDisplay) (below gles above : List HWCLayer) :
    Prop where
  outbuf : display.m_disp_id = .virtual → display.m_outbuf.bind id ≠ none
  clientTarget : gles ≠ [] → display.m_ct.m_handle.isSome = true
  wormhole : ∀ layer ∈ below ++ above, layer.isShown = true → layer.m_hwlayer_type ≠ .wormhole
  debug : f.global_pq = true → ∀ layer ∈ below ++ above, layer.isShown = true →
    layer.m_hwlayer_type ≠ .uipqDebug

/-- No layer is filtered out where the committed positions are compared with the visible ones. -/
def Aligned (f : Features) (below gles above : List HWCLayer) : Prop :=
  if f.hrt_from_driver then
    (below ++ above).Pairwise fun lower upper => upper.isShown = true → lower.isShown = true
  else
    gles = [] ∨ (∀ layer ∈ below, layer.isShown = true) ∨ ∀ layer ∈ above, layer.isShown = false

/-! ## The range -/

theorem isShown_of_isCommitted {layer : HWCLayer} (h : layer.isCommitted = true) :
    layer.isShown = true := by
  have hparts := of_decide_eq_true h
  exact decide_eq_true ⟨hparts.1, hparts.2.2.1⟩

/-- A layer of the GPU is not shown by the overlay. -/
theorem isShown_of_client {layer : HWCLayer} (h : layer.getCompositionType = .client) :
    layer.isShown = false := by
  refine decide_eq_false fun hparts => ?_
  rw [h] at hparts
  exact hparts.2.elim nofun nofun

/-- A layer is INVALID exactly if the GPU composes it. -/
theorem type_of_client {layer : HWCLayer} (h : layer.getCompositionType = .client) :
    layer.m_hwlayer_type = .invalid := by
  unfold HWCLayer.getCompositionType at h
  split at h
  all_goals first | assumption | exact absurd h nofun

section Range

variable {below gles above : List HWCLayer}

/-- The head of the range among the visible layers. -/
def headOf (below gles : List HWCLayer) : Int := if gles = [] then -1 else below.length

/-- The tail of the range among the visible layers. -/
def tailOf (below gles : List HWCLayer) : Int :=
  if gles = [] then -1 else below.length + gles.length - 1

/-- A search passes the layers of the overlay and stops at the range. -/
theorem findIdx?_range (below gles above : List HWCLayer)
    (hbefore : ∀ layer ∈ below, layer.getCompositionType ≠ .client)
    (hgles : ∀ layer ∈ gles, layer.getCompositionType = .client)
    (hafter : ∀ layer ∈ above, layer.getCompositionType ≠ .client) :
    (below ++ gles ++ above).findIdx? (·.getCompositionType = .client) =
      if gles = [] then none else some below.length := by
  have hnone (layers : List HWCLayer)
      (h : ∀ layer ∈ layers, layer.getCompositionType ≠ .client) :
      layers.findIdx? (·.getCompositionType = .client) = none :=
    List.findIdx?_eq_none_iff.mpr fun layer hmem => decide_eq_false (h layer hmem)
  rw [List.append_assoc, List.findIdx?_append, hnone below hbefore, Option.none_or]
  cases gles with
  | nil =>
    rw [List.nil_append, hnone above hafter]
    rfl
  | cons layer gles =>
    rw [List.cons_append, List.findIdx?_cons,
      if_pos (decide_eq_true (hgles layer List.mem_cons_self)), if_neg (List.cons_ne_nil _ _),
      Option.map_some, Nat.zero_add]

theorem findGlesRange_eq (hgles : ∀ layer ∈ gles, layer.getCompositionType = .client)
    (houter : ∀ layer ∈ below ++ above, layer.getCompositionType ≠ .client) :
    findGlesRange (below ++ gles ++ above) = (headOf below gles, tailOf below gles) := by
  have hbelow : ∀ layer ∈ below, layer.getCompositionType ≠ .client := fun layer hmem =>
    houter layer (List.mem_append_left _ hmem)
  have habove : ∀ layer ∈ above, layer.getCompositionType ≠ .client := fun layer hmem =>
    houter layer (List.mem_append_right _ hmem)
  have hfront := findIdx?_range below gles above hbelow hgles habove
  have hback : (below ++ gles ++ above).reverse.findIdx? (·.getCompositionType = .client) =
      if gles = [] then none else some above.length := by
    have hmirror := findIdx?_range above.reverse gles.reverse below.reverse
      (fun layer hmem => habove layer (List.mem_reverse.mp hmem))
      (fun layer hmem => hgles layer (List.mem_reverse.mp hmem))
      (fun layer hmem => hbelow layer (List.mem_reverse.mp hmem))
    rw [List.length_reverse] at hmirror
    simpa [List.append_assoc] using hmirror
  rw [findGlesRange, hfront, hback, headOf, tailOf]
  by_cases hnil : gles = []
  · simp only [if_pos hnil]
  · simp only [if_neg hnil, List.length_append]
    refine Prod.ext rfl ?_
    change ((below.length + gles.length + above.length : Nat) : Int) - above.length - 1 = _
    push_cast
    ring

/-- The layers of the range are INVALID already. -/
theorem updateGlesRange_eq {display : HWCDisplay}
    (hvisible : display.m_visible_layers = below ++ gles ++ above)
    (hconnected : display.m_is_connected = true)
    (hcommitted : ∀ layer ∈ display.m_committed_layers,
      layer ∈ display.m_visible_layers ∨ layer = display.m_ct)
    (hids : ((below ++ gles ++ above ++ [display.m_ct]).map (·.m_id)).Nodup)
    (hgles : ∀ layer ∈ gles, layer.getCompositionType = .client)
    (houter : ∀ layer ∈ below ++ above, layer.getCompositionType ≠ .client) :
    display.updateGlesRange =
      { display with m_gles_head := headOf below gles, m_gles_tail := tailOf below gles } := by
  have hfind : findGlesRange display.m_visible_layers =
      (headOf below gles, tailOf below gles) := by
    rw [hvisible]
    exact findGlesRange_eq hgles houter
  rw [HWCDisplay.updateGlesRange, if_pos hconnected, hfind]
  by_cases hnil : gles = []
  · simp only [HWCDisplay.setGlesRange, headOf, tailOf, if_pos hnil, if_true]
  · have hhead : headOf below gles ≠ -1 := by
      rw [headOf, if_neg hnil]
      omega
    have hlength : 0 < gles.length := List.length_pos_iff.mpr hnil
    have hrange : (display.m_visible_layers.take ((tailOf below gles).toNat + 1)).drop
        (headOf below gles).toNat = gles := by
      have htail : (tailOf below gles).toNat + 1 = (below ++ gles).length := by
        rw [tailOf, if_neg hnil, List.length_append]
        omega
      rw [hvisible, htail, List.take_left, headOf, if_neg hnil, Int.toNat_natCast,
        List.drop_left]
    have hmark (layer : HWCLayer) (hmem : layer ∈ below ++ gles ++ above ++ [display.m_ct]) :
        (if layer.m_id ∈ gles.map (·.m_id) then { layer with m_hwlayer_type := .invalid }
          else layer) = layer := by
      split
      · rename_i hin
        obtain ⟨other, hother, hid⟩ := List.mem_map.mp hin
        have hwithin : other ∈ below ++ gles ++ above ++ [display.m_ct] :=
          List.mem_append_left _ (List.mem_append_left _ (List.mem_append_right _ hother))
        obtain rfl := List.inj_on_of_nodup_map hids hwithin hmem hid
        rw [← type_of_client (hgles other hother)]
      · rfl
    simp only [HWCDisplay.setGlesRange, if_neg hhead, hrange]
    have hkeep (layers : List HWCLayer)
        (h : ∀ layer ∈ layers, layer ∈ below ++ gles ++ above ++ [display.m_ct]) :
        (layers.map fun layer =>
          if layer.m_id ∈ gles.map (·.m_id) then { layer with m_hwlayer_type := .invalid }
          else layer) = layers :=
      (List.map_congr_left fun layer hmem => hmark layer (h layer hmem)).trans (List.map_id layers)
    rw [hkeep display.m_visible_layers, hkeep display.m_committed_layers]
    · intro layer hmem
      rcases hcommitted layer hmem with hseen | rfl
      · exact List.mem_append_left _ (hvisible ▸ hseen)
      · exact List.mem_append_right _ List.mem_cons_self
    · intro layer hmem
      exact List.mem_append_left _ (hvisible ▸ hmem)

end Range

/-! ## The loop -/

section Loop

variable (f : Features) (display : HWCDisplay)

/-- The slot was filled for the layer. -/
def Filled (layer : HWCLayer) (layer_idx : Nat) (ext_sel_layer : Int) (hw_layer : HWLayer) : Prop :=
  ∃ before, hw_layer = hwLayerOf f layer layer_idx ext_sel_layer before

/-- The counters are not about the slots. -/
theorem countLayer_keeps (job : DispatcherJob) (layer : HWCLayer) :
    (countLayer f job layer).hw_layers = job.hw_layers ∧
      (countLayer f job layer).num_layers = job.num_layers ∧
      (countLayer f job layer).layer_info = job.layer_info := by
  unfold countLayer
  cases layer.m_hwlayer_type with
  | uipqDebug | uipq =>
    cases f.global_pq with
    | false | true => exact ⟨rfl, rfl, rfl⟩
  | _ => exact ⟨rfl, rfl, rfl⟩

/-- What one round does to the slots. -/
structure Round (before : DispatcherJob) (layer : HWCLayer) (i : Nat) (after : DispatcherJob) :
    Prop where
  num_layers : after.num_layers = before.num_layers
  layer_info : after.layer_info = before.layer_info
  filled : Filled f layer i (extSelLayer f display before i)
    (after.hw_layers (ovlId f display before i).toNat)
  other : ∀ s, s ≠ (ovlId f display before i).toNat → after.hw_layers s = before.hw_layers s

/-- A round with a slot that the overlay has. -/
theorem setupHwcLayer_round {job : DispatcherJob} {layer : HWCLayer} {i : Nat}
    (hct : layer.m_is_ct = false) (hlow : 0 ≤ ovlId f display job i)
    (hhigh : ovlId f display job i < job.num_layers) :
    ∃ job', setupHwcLayer f display job layer i = some job' ∧
      Round f display job layer i job' := by
  have hrange : ¬ (ovlId f display job i < 0 ∨ (job.num_layers : Int) ≤ ovlId f display job i) := by
    omega
  have hfill : ∃ filled, fillHwLayer f job layer (ovlId f display job i) i
      (extSelLayer f display job i) = some filled ∧ filled.num_layers = job.num_layers ∧
      filled.layer_info = job.layer_info ∧
      filled.hw_layers = (job.setHwLayer (ovlId f display job i).toNat
        (hwLayerOf f layer i (extSelLayer f display job i)
          (job.hw_layers (ovlId f display job i).toNat))).hw_layers := by
    unfold fillHwLayer
    rw [if_neg hrange]
    split
    all_goals exact ⟨_, rfl, rfl, rfl, rfl⟩
  obtain ⟨filled, hfill, hnum, hinfo, hslots⟩ := hfill
  obtain ⟨hcountSlots, hcountNum, hcountInfo⟩ := countLayer_keeps f filled layer
  refine ⟨countLayer f filled layer, ?_, ?_⟩
  · rw [setupHwcLayer, if_neg (by rw [hct]; exact Bool.false_ne_true), hfill]
    rfl
  · constructor
    · rw [hcountNum, hnum]
    · rw [hcountInfo, hinfo]
    · rw [hcountSlots, hslots, DispatcherJob.setHwLayer]
      exact ⟨_, if_pos rfl⟩
    · intro s hs
      rw [hcountSlots, hslots, DispatcherJob.setHwLayer]
      exact if_neg hs

theorem ovlId_congr {job job' : DispatcherJob} (h : job'.layer_info = job.layer_info) (i : Nat) :
    ovlId f display job' i = ovlId f display job i := by
  rw [ovlId, ovlId, h]

theorem extSelLayer_congr {job job' : DispatcherJob} (h : job'.layer_info = job.layer_info)
    (i : Nat) : extSelLayer f display job' i = extSelLayer f display job i := by
  rw [extSelLayer, extSelLayer, h]

/-- What the loop does to the slots, from the `i`-th committed layer. -/
structure Rounds (before : DispatcherJob) (layers : List HWCLayer) (i : Nat)
    (after : DispatcherJob) : Prop where
  num_layers : after.num_layers = before.num_layers
  layer_info : after.layer_info = before.layer_info
  filled : ∀ j layer, layers[j]? = some layer →
    Filled f layer (i + j) (extSelLayer f display before (i + j))
      (after.hw_layers (ovlId f display before (i + j)).toNat)
  other : ∀ s, (∀ j, j < layers.length → s ≠ (ovlId f display before (i + j)).toNat) →
    after.hw_layers s = before.hw_layers s

/-- The loop over layers whose slots increase, by induction on the layers. -/
theorem setupHwcLayersFrom_rounds (layers : List HWCLayer) (job : DispatcherJob) (i : Nat)
    (hct : ∀ layer ∈ layers, layer.m_is_ct = false)
    (hlow : ∀ j, j < layers.length → 0 ≤ ovlId f display job (i + j))
    (hhigh : ∀ j, j < layers.length → ovlId f display job (i + j) < job.num_layers)
    (hmono : ∀ j k, j < k → k < layers.length →
      ovlId f display job (i + j) < ovlId f display job (i + k)) :
    ∃ job', setupHwcLayersFrom f display job layers i = some job' ∧
      Rounds f display job layers i job' := by
  induction layers generalizing job i with
  | nil =>
    refine ⟨job, rfl, rfl, rfl, ?_, fun _ _ => rfl⟩
    intro j layer h
    exact absurd h (by rw [List.getElem?_nil]; exact nofun)
  | cons layer layers ih =>
    have hpos : 0 < (layer :: layers).length := Nat.succ_pos _
    obtain ⟨job₁, hround, hfirst⟩ := setupHwcLayer_round f display
      (hct layer List.mem_cons_self) (hlow 0 hpos) (hhigh 0 hpos)
    have hid (j : Nat) :
        ovlId f display job₁ (i + 1 + j) = ovlId f display job (i + (j + 1)) := by
      rw [ovlId_congr f display hfirst.layer_info, Nat.add_right_comm, Nat.add_assoc]
    obtain ⟨job₂, hloop, hrest⟩ := ih job₁ (i + 1)
      (fun layer hmem => hct layer (List.mem_cons_of_mem _ hmem))
      (fun j hj => by
        rw [hid]
        exact hlow (j + 1) (Nat.succ_lt_succ hj))
      (fun j hj => by
        rw [hid, hfirst.num_layers]
        exact hhigh (j + 1) (Nat.succ_lt_succ hj))
      (fun j k hjk hk => by
        rw [hid, hid]
        exact hmono (j + 1) (k + 1) (Nat.succ_lt_succ hjk) (Nat.succ_lt_succ hk))
    refine ⟨job₂, ?_, ?_⟩
    · rw [Nat.add_zero] at hround
      rw [setupHwcLayersFrom, hround]
      exact hloop
    · constructor
      · rw [hrest.num_layers, hfirst.num_layers]
      · rw [hrest.layer_info, hfirst.layer_info]
      · intro j other hother
        cases j with
        | zero =>
          cases hother
          -- the later rounds leave the slot of the first one alone
          rw [hrest.other]
          · exact hfirst.filled
          · intro k hk
            have hlt := hmono 0 (k + 1) (Nat.succ_pos k) (Nat.succ_lt_succ hk)
            have h0 := hlow 0 hpos
            rw [hid]
            simp only [Nat.add_zero] at hlt h0 ⊢
            omega
        | succ j =>
          have hfilled := hrest.filled j other hother
          rw [hid, extSelLayer_congr f display hfirst.layer_info] at hfilled
          rwa [Nat.add_right_comm, Nat.add_assoc] at hfilled
      · intro s hs
        rw [hrest.other s fun j hj => by
          rw [hid]
          exact hs (j + 1) (Nat.succ_lt_succ hj)]
        exact hfirst.other s (hs 0 hpos)

/-- The client target is skipped. -/
theorem setupHwcLayersFrom_clientTarget {layers targets : List HWCLayer} {job : DispatcherJob}
    {i : Nat} (htargets : ∀ layer ∈ targets, layer.m_is_ct = true) :
    setupHwcLayersFrom f display job (layers ++ targets) i =
      setupHwcLayersFrom f display job layers i := by
  induction layers generalizing job i with
  | nil =>
    rw [List.nil_append]
    induction targets generalizing i with
    | nil => rfl
    | cons target targets ih =>
      have hskip : setupHwcLayer f display job target i = some job :=
        if_pos (htargets target List.mem_cons_self)
      change (setupHwcLayer f display job target i).bind _ = some job
      rw [hskip]
      exact ih fun layer hmem => htargets layer (List.mem_cons_of_mem _ hmem)
  | cons layer layers ih =>
    rw [List.cons_append, setupHwcLayersFrom, setupHwcLayersFrom]
    congr 1
    funext job
    exact ih

end Loop

/-! ## Positions and slots -/

section Positions

variable {f : Features} {below gles above : List HWCLayer}

theorem isCommitted_of_mem_gles (hgles : ∀ layer ∈ gles, layer.getCompositionType = .client)
    {layer : HWCLayer} (h : layer ∈ gles) : layer.isCommitted = false := by
  by_contra hc
  have hshown := isShown_of_isCommitted (Bool.eq_true_of_not_eq_false hc)
  rw [isShown_of_client (hgles layer h)] at hshown
  exact absurd hshown Bool.false_ne_true

/-- The layers of the range are filtered out. -/
theorem filter_isCommitted_gles
    (hgles : ∀ layer ∈ gles, layer.getCompositionType = .client) :
    gles.filter HWCLayer.isCommitted = [] :=
  List.filter_eq_nil_iff.mpr fun layer hmem => by
    rw [isCommitted_of_mem_gles hgles hmem]
    exact Bool.false_ne_true

/-- A position underneath the range. -/
theorem rank_below {v : Nat} (hv : v ≤ below.length) :
    rank HWCLayer.isCommitted (below ++ gles ++ above) v = rank HWCLayer.isCommitted below v := by
  rw [List.append_assoc]
  exact rank_append_left _ _ _ hv

/-- A position on top of the range. -/
theorem rank_above (below above : List HWCLayer)
    (hgles : ∀ layer ∈ gles, layer.getCompositionType = .client) (u : Nat) :
    rank HWCLayer.isCommitted (below ++ gles ++ above) (below.length + gles.length + u) =
      (below.filter HWCLayer.isCommitted).length + rank HWCLayer.isCommitted above u := by
  have hlength : below.length + gles.length + u = (below ++ gles).length + u := by
    rw [List.length_append]
  rw [hlength, rank_append_right, List.filter_append, filter_isCommitted_gles hgles,
    List.append_nil]

/-- A committed layer is underneath the range or on top of it. -/
theorem outside_of_isCommitted (hgles : ∀ layer ∈ gles, layer.getCompositionType = .client)
    {v : Nat} {layer : HWCLayer} (h : (below ++ gles ++ above)[v]? = some layer)
    (hc : layer.isCommitted = true) :
    v < below.length ∧ below[v]? = some layer ∨
      ∃ u, v = below.length + gles.length + u ∧ above[u]? = some layer := by
  by_cases hbelow : v < below.length
  · rw [List.append_assoc, List.getElem?_append_left hbelow] at h
    exact .inl ⟨hbelow, h⟩
  · by_cases hwithin : v < below.length + gles.length
    · rw [List.append_assoc, List.getElem?_append_right (Nat.le_of_not_lt hbelow),
        List.getElem?_append_left (by omega)] at h
      rw [isCommitted_of_mem_gles hgles (List.mem_of_getElem? h)] at hc
      exact absurd hc Bool.false_ne_true
    · rw [List.getElem?_append_right (by rw [List.length_append]; omega),
        List.length_append] at h
      exact .inr ⟨v - (below.length + gles.length), by omega, h⟩

/-- A layer that is committed, at its position among the visible layers. -/
def CommittedAt (visible : List HWCLayer) (v : Nat) (layer : HWCLayer) : Prop :=
  visible[v]? = some layer ∧ layer.isCommitted = true

/-- The slots of the committed layers increase, and the slot of the client target is at the place
of the range. -/
structure InOrder (f : Features) (display : HWCDisplay) (job : DispatcherJob)
    (below gles above : List HWCLayer) : Prop where
  low : ∀ i, i < ((below ++ gles ++ above).filter HWCLayer.isCommitted).length →
    0 ≤ ovlId f display job i
  high : ∀ i, i < ((below ++ gles ++ above).filter HWCLayer.isCommitted).length →
    ovlId f display job i < job.num_layers
  mono : ∀ i k, i < k → k < ((below ++ gles ++ above).filter HWCLayer.isCommitted).length →
    ovlId f display job i < ovlId f display job k
  target : gles ≠ [] →
    0 ≤ fbtHwLayerIdx f display job ∧ fbtHwLayerIdx f display job < job.num_layers
  underneath : gles ≠ [] → ∀ v layer, CommittedAt (below ++ gles ++ above) v layer →
    v < below.length →
    ovlId f display job (rank HWCLayer.isCommitted (below ++ gles ++ above) v) <
      fbtHwLayerIdx f display job
  onTop : gles ≠ [] → ∀ v layer, CommittedAt (below ++ gles ++ above) v layer →
    below.length + gles.length ≤ v →
    fbtHwLayerIdx f display job <
      ovlId f display job (rank HWCLayer.isCommitted (below ++ gles ++ above) v)
  driver : f.hrt_from_driver = true → ∀ v layer, CommittedAt (below ++ gles ++ above) v layer →
    hrtIdx display (rank HWCLayer.isCommitted (below ++ gles ++ above) v) = v

/-- The committed layers are at most those outside the range. -/
theorem length_filter_isCommitted_le (below above : List HWCLayer)
    (hgles : ∀ layer ∈ gles, layer.getCompositionType = .client) :
    ((below ++ gles ++ above).filter HWCLayer.isCommitted).length ≤
      below.length + above.length := by
  rw [List.filter_append, List.filter_append, filter_isCommitted_gles hgles, List.append_nil,
    List.length_append]
  exact Nat.add_le_add (List.length_filter_le _ _) (List.length_filter_le _ _)

/-- Without the driver, the slots are counted. -/
theorem inOrder_of_counting {display : HWCDisplay} {job : DispatcherJob}
    (hf : f.hrt_from_driver = false) (hhead : display.m_gles_head = headOf below gles)
    (hgles : ∀ layer ∈ gles, layer.getCompositionType = .client)
    (hfits : below.length + above.length + (if gles = [] then 0 else 1) ≤ job.num_layers)
    (haligned : gles = [] ∨ (∀ layer ∈ below, layer.isCommitted = true) ∨
      ∀ layer ∈ above, layer.isCommitted = false) :
    InOrder f display job below gles above := by
  have hcount := length_filter_isCommitted_le below above hgles
  have hid (i : Nat) : ovlId f display job i =
      if headOf below gles = -1 ∨ (i : Int) < headOf below gles then (i : Int) else i + 1 := by
    rw [ovlId, hf, hhead]
    rfl
  have htarget : fbtHwLayerIdx f display job = headOf below gles := by
    rw [fbtHwLayerIdx, hf, hhead]
    rfl
  have hposition (hnil : gles ≠ []) : headOf below gles = below.length := if_neg hnil
  constructor
  · intro i _
    rw [hid]
    split <;> omega
  · intro i hi
    rw [hid]
    by_cases hnil : gles = []
    · rw [if_pos hnil] at hfits
      rw [if_pos (.inl (if_pos hnil))]
      omega
    · rw [if_neg hnil] at hfits
      split <;> omega
  · intro i k hik _
    rw [hid, hid]
    split <;> split <;> omega
  · intro hnil
    rw [htarget, hposition hnil]
    rw [if_neg hnil] at hfits
    omega
  · intro hnil v layer _ hv
    have hle := rank_le HWCLayer.isCommitted (below ++ gles ++ above) v
    rw [htarget, hid, hposition hnil, if_pos (.inr (by omega))]
    omega
  · intro hnil v layer hat hv
    -- a committed layer on top of the range, so none underneath is filtered out
    rcases outside_of_isCommitted hgles hat.1 hat.2 with ⟨hlt, _⟩ | ⟨u, rfl, habove⟩
    · omega
    · have hall : ∀ layer ∈ below, layer.isCommitted = true := by
        rcases haligned with h | h | h
        · exact absurd h hnil
        · exact h
        · have hno := h layer (List.mem_of_getElem? habove)
          rw [hat.2] at hno
          exact absurd hno.symm Bool.false_ne_true
      have hrank := rank_above below above hgles u
      rw [List.filter_eq_self.mpr hall] at hrank
      rw [htarget, hid, hposition hnil, if_neg (by omega)]
      omega
  · intro htrue
    rw [hf] at htrue
    exact absurd htrue Bool.false_ne_true

/-- What stands before an element of a list. -/
theorem forall_take_of_pairwise {layers : List HWCLayer} {R : HWCLayer → HWCLayer → Prop}
    (h : layers.Pairwise R) {v : Nat} {layer : HWCLayer} (hv : layers[v]? = some layer) :
    ∀ lower ∈ layers.take v, R lower layer := by
  intro lower hlower
  rw [← List.take_append_drop v layers] at h
  refine (List.pairwise_append.mp h).2.2 lower hlower layer ?_
  refine List.mem_of_getElem? (i := 0) ?_
  rwa [List.getElem?_drop, Nat.add_zero]

/-- With nothing filtered out underneath a layer, the place read in the driver's list is its
position. -/
theorem hrtIdx_rank {display : HWCDisplay} (hhead : display.m_gles_head = headOf below gles)
    (htail : display.m_gles_tail = tailOf below gles)
    (hgles : ∀ layer ∈ gles, layer.getCompositionType = .client)
    (haligned : (below ++ above).Pairwise fun lower upper =>
      upper.isCommitted = true → lower.isCommitted = true)
    {v : Nat} {layer : HWCLayer} (hat : CommittedAt (below ++ gles ++ above) v layer) :
    hrtIdx display (rank HWCLayer.isCommitted (below ++ gles ++ above) v) = v := by
  obtain ⟨hbelowP, haboveP, hacross⟩ := List.pairwise_append.mp haligned
  rw [hrtIdx, hhead, htail]
  rcases outside_of_isCommitted hgles hat.1 hat.2 with ⟨hlt, hbelow⟩ | ⟨u, rfl, habove⟩
  · have hall := forall_take_of_pairwise hbelowP hbelow
    rw [rank_below (Nat.le_of_lt hlt), rank_eq_self _ _ (Nat.le_of_lt hlt)
      fun lower hmem => hall lower hmem hat.2]
    refine if_pos ?_
    rw [headOf]
    split
    · exact .inl rfl
    · exact .inr (Int.ofNat_lt.mpr hlt)
  · have hmem := List.mem_of_getElem? habove
    have hall := forall_take_of_pairwise haboveP habove
    have hunder : ∀ lower ∈ below, lower.isCommitted = true := fun lower hlower =>
      hacross lower hlower layer hmem hat.2
    have hu : u ≤ above.length := Nat.le_of_lt (List.getElem?_eq_some_iff.mp habove).1
    rw [rank_above below above hgles u, List.filter_eq_self.mpr hunder,
      rank_eq_self _ _ hu fun lower hlower => hall lower hlower hat.2]
    by_cases hnil : gles = []
    · rw [if_pos (.inl (if_pos hnil)), hnil]
      simp only [List.length_nil, Nat.add_zero]
    · have hpos : 0 < gles.length := List.length_pos_iff.mpr hnil
      rw [headOf, tailOf, if_neg hnil, if_neg hnil, if_neg (by omega)]
      omega

/-- With the driver, the slots are those of its list. -/
theorem inOrder_of_driver {display : HWCDisplay} {job : DispatcherJob}
    (hf : f.hrt_from_driver = true) (hhead : display.m_gles_head = headOf below gles)
    (htail : display.m_gles_tail = tailOf below gles)
    (hgles : ∀ layer ∈ gles, layer.getCompositionType = .client)
    (hdriver : DriverSlots job.layer_info.layer_config_list job.num_layers below gles above)
    (haligned : (below ++ above).Pairwise fun lower upper =>
      upper.isCommitted = true → lower.isCommitted = true) :
    InOrder f display job below gles above := by
  obtain ⟨hbounds, hmono⟩ := hdriver
  have hposition {v : Nat} {layer : HWCLayer}
      (hat : CommittedAt (below ++ gles ++ above) v layer) :=
    hrtIdx_rank hhead htail hgles haligned hat
  -- the committed layer at a place of the committed list, with its position
  have hplace (i : Nat) (hi : i < ((below ++ gles ++ above).filter HWCLayer.isCommitted).length) :
      ∃ v layer, CommittedAt (below ++ gles ++ above) v layer ∧
        rank HWCLayer.isCommitted (below ++ gles ++ above) v = i := by
    obtain ⟨v, hv, hc, hrank⟩ := exists_rank _ _ (List.getElem?_eq_getElem hi)
    exact ⟨v, _, ⟨hv, hc⟩, hrank⟩
  have hid {v : Nat} {layer : HWCLayer} (hat : CommittedAt (below ++ gles ++ above) v layer) :
      ovlId f display job (rank HWCLayer.isCommitted (below ++ gles ++ above) v) =
        (job.layer_info.layer_config_list v).ovl_id := by
    rw [ovlId, if_pos hf, hposition hat]
  have hlength {v : Nat} {layer : HWCLayer}
      (hat : CommittedAt (below ++ gles ++ above) v layer) :
      v < (below ++ gles ++ above).length := (List.getElem?_eq_some_iff.mp hat.1).1
  have hout {v : Nat} {layer : HWCLayer} (hat : CommittedAt (below ++ gles ++ above) v layer) :
      v ≤ below.length ∨ below.length + gles.length ≤ v := by
    rcases outside_of_isCommitted hgles hat.1 hat.2 with ⟨hlt, _⟩ | ⟨u, rfl, _⟩
    · exact .inl (Nat.le_of_lt hlt)
    · exact .inr (Nat.le_add_right _ _)
  have htarget (hnil : gles ≠ []) : fbtHwLayerIdx f display job =
      (job.layer_info.layer_config_list below.length).ovl_id := by
    rw [fbtHwLayerIdx, if_pos hf, hhead, headOf, if_neg hnil, Int.toNat_natCast]
  have hrange (hnil : gles ≠ []) : below.length < (below ++ gles ++ above).length := by
    have hpos : 0 < gles.length := List.length_pos_iff.mpr hnil
    rw [List.length_append, List.length_append]
    omega
  constructor
  · intro i hi
    obtain ⟨v, layer, hat, rfl⟩ := hplace i hi
    rw [hid hat]
    exact (hbounds v (hlength hat) (hout hat)).1
  · intro i hi
    obtain ⟨v, layer, hat, rfl⟩ := hplace i hi
    rw [hid hat]
    exact (hbounds v (hlength hat) (hout hat)).2
  · intro i k hik hk
    obtain ⟨v, lower, hlower, rfl⟩ := hplace i (Nat.lt_trans hik hk)
    obtain ⟨w, upper, hupper, rfl⟩ := hplace k hk
    rw [hid hlower, hid hupper]
    refine hmono v w ?_ (hlength hupper) (hout hlower) (hout hupper)
    rcases Nat.lt_trichotomy v w with hlt | rfl | hgt
    · exact hlt
    · exact absurd hik (Nat.lt_irrefl _)
    · exact absurd hik (Nat.lt_asymm (rank_lt_rank _ _ hgt hupper.1 hupper.2))
  · intro hnil
    rw [htarget hnil]
    exact hbounds _ (hrange hnil) (.inl (Nat.le_refl _))
  · intro hnil v layer hat hv
    rw [htarget hnil, hid hat]
    exact hmono v _ hv (hrange hnil) (hout hat) (.inl (Nat.le_refl _))
  · intro hnil v layer hat hv
    rw [htarget hnil, hid hat]
    have hpos : 0 < gles.length := List.length_pos_iff.mpr hnil
    exact hmono _ v (by omega) (hlength hat) (.inl (Nat.le_refl _)) (.inr hv)
  · intro _ v layer hat
    exact hposition hat

end Positions

/-! ## The client target and the whole step -/

section Step

variable {f : Features} {display : HWCDisplay} {job : DispatcherJob}
  {below gles above : List HWCLayer}

/-- The display with its committed layers and its range. -/
def ranged (display : HWCDisplay) (below gles : List HWCLayer) : HWCDisplay :=
  { display.buildCommittedLayers with
    m_gles_head := headOf below gles
    m_gles_tail := tailOf below gles }

/-- The job when the range is known. -/
def informed (job : DispatcherJob) (below gles : List HWCLayer) : DispatcherJob :=
  { job with
    layer_info := { job.layer_info with
      gles_head := headOf below gles
      gles_tail := tailOf below gles } }

/-- The slots after `setupGlesLayers`, without a range. -/
theorem setupGlesLayers_nil (hhead : display.m_gles_head = -1) :
    (setupGlesLayers f display job).hw_layers = job.hw_layers := by
  rw [setupGlesLayers, if_pos hhead]

/-- The slots after `setupGlesLayers`, with a range and a buffer for the client target. -/
theorem setupGlesLayers_range (hhead : display.m_gles_head ≠ -1)
    (hhandle : display.m_ct.m_handle.isSome = true) :
    (setupGlesLayers f display job).hw_layers = fun s =>
      if s = (fbtHwLayerIdx f display job).toNat then
        fbtHwLayer f display job (job.hw_layers (fbtHwLayerIdx f display job).toNat)
      else job.hw_layers s := by
  have hsome : ¬ (display.m_ct.m_handle = none ∧ display.m_disp_id = .primary) := by
    intro hnone
    rw [hnone.1] at hhandle
    exact absurd hhandle Bool.false_ne_true
  rw [setupGlesLayers, if_neg hhead, if_neg hsome]
  cases f.epaper with
  | false | true => rfl

theorem setupGlesLayers_num_layers :
    (setupGlesLayers f display job).num_layers = job.num_layers := by
  unfold setupGlesLayers
  split
  · rfl
  · split
    · rfl
    · cases f.epaper with
      | false | true => rfl

theorem setupGlesLayers_layer_info :
    (setupGlesLayers f display job).layer_info = job.layer_info := by
  unfold setupGlesLayers
  split
  · rfl
  · split
    · rfl
    · cases f.epaper with
      | false | true => rfl

theorem countOverlap_keeps (job : DispatcherJob) :
    (countOverlap job).hw_layers = job.hw_layers ∧
      (countOverlap job).num_layers = job.num_layers ∧
      (countOverlap job).layer_info.layer_config_list = job.layer_info.layer_config_list := by
  unfold countOverlap
  split
  all_goals exact ⟨rfl, rfl, rfl⟩

/-- `beforePresent` fills the slots of the committed layers and that of the client target. -/
theorem beforePresent_eq (h : Presented f display job below gles above)
    (hoverlay : display.m_disp_id = .virtual → display.m_outbuf.bind id ≠ none)
    {filled : DispatcherJob}
    (hfilled : setupHwcLayers f (ranged display below gles) (informed job below gles) =
      some filled) :
    ∃ job', display.buildCommittedLayers.beforePresent f job =
        some (ranged display below gles, job') ∧
      job'.hw_layers = (setupGlesLayers f (ranged display below gles) filled).hw_layers ∧
      job'.num_layers = filled.num_layers ∧
      job'.layer_info.layer_config_list = filled.layer_info.layer_config_list := by
  have hupdate : display.buildCommittedLayers.updateGlesRange = ranged display below gles := by
    refine updateGlesRange_eq h.visible h.connected ?_ h.ids h.gpu h.overlay
    intro layer hmem
    rw [HWCDisplay.buildCommittedLayers] at hmem
    split at hmem
    · rcases List.mem_append.mp hmem with hin | hct
      · exact .inl (List.mem_filter.mp hin).1
      · exact .inr (List.mem_singleton.mp hct)
    · exact .inl (List.mem_filter.mp hmem).1
  have hbuffer : ¬ (display.buildCommittedLayers.m_disp_id = .virtual ∧
      display.buildCommittedLayers.m_outbuf.bind id = none) := fun hmissing =>
    hoverlay hmissing.1 hmissing.2
  have hmirror : ¬ (ranged display below gles).m_mir_src ≠ -1 := not_not.mpr h.notMirror
  have hfilled' : setupHwcLayers f (ranged display below gles)
      { job with
        layer_info := { job.layer_info with
          gles_head := (ranged display below gles).m_gles_head
          gles_tail := (ranged display below gles).m_gles_tail } } = some filled := hfilled
  rw [HWCDisplay.beforePresent, if_neg hbuffer, hupdate, if_neg hmirror, hfilled']
  obtain ⟨hslots, hnum, hconfig⟩ := countOverlap_keeps
    { setupGlesLayers f (ranged display below gles) filled with
      disp_mir_id := HWC_MIRROR_SOURCE_INVALID
      force_wait := (setupGlesLayers f (ranged display below gles) filled).force_wait &&
        (setupGlesLayers f (ranged display below gles) filled).num_ui_layers ≠ 0 }
  refine ⟨_, rfl, hslots, hnum.trans setupGlesLayers_num_layers, hconfig.trans ?_⟩
  exact congrArg LayerInfo.layer_config_list setupGlesLayers_layer_info

/-- The slot of the layer at a position of the visible list. -/
def slotAt (f : Features) (display : HWCDisplay) (job : DispatcherJob) (visible : List HWCLayer)
    (v : Nat) : Nat :=
  (ovlId f display job (rank HWCLayer.isCommitted visible v)).toNat

/-- Where the layers and the client target went. -/
structure Outcome (f : Features) (display : HWCDisplay) (job : DispatcherJob)
    (below gles above : List HWCLayer) (after : DispatcherJob) : Prop where
  num_layers : after.num_layers = job.num_layers
  config : after.layer_info.layer_config_list = job.layer_info.layer_config_list
  layer : ∀ v layer, CommittedAt (below ++ gles ++ above) v layer →
    Filled f layer (rank HWCLayer.isCommitted (below ++ gles ++ above) v)
      (extSelLayer f display job (rank HWCLayer.isCommitted (below ++ gles ++ above) v))
      (after.hw_layers (slotAt f display job (below ++ gles ++ above) v))
  clientTarget : gles ≠ [] → ∃ before, after.hw_layers (fbtHwLayerIdx f display job).toNat =
    fbtHwLayer f display job before
  only : ∀ s, (after.hw_layers s).enable = true →
    (∃ v layer, CommittedAt (below ++ gles ++ above) v layer ∧
      s = slotAt f display job (below ++ gles ++ above) v) ∨
    gles ≠ [] ∧ s = (fbtHwLayerIdx f display job).toNat

/-- The committed layers of the display are the visible ones that are not filtered out, and the
client target if it has a buffer. -/
theorem ranged_committed (h : display.m_visible_layers = below ++ gles ++ above) :
    ∃ targets, (ranged display below gles).m_committed_layers =
        (below ++ gles ++ above).filter HWCLayer.isCommitted ++ targets ∧
      (∀ layer ∈ targets, layer = display.m_ct) ∧
      (display.m_ct.m_handle.isSome = true → targets = [display.m_ct]) := by
  have hcommitted : (ranged display below gles).m_committed_layers =
      if display.m_ct.m_handle.isSome then
        (below ++ gles ++ above).filter HWCLayer.isCommitted ++ [display.m_ct]
      else (below ++ gles ++ above).filter HWCLayer.isCommitted := by
    rw [← h]
    rfl
  rw [hcommitted]
  split
  · exact ⟨[display.m_ct], rfl, fun layer hmem => List.mem_singleton.mp hmem, fun _ => rfl⟩
  · rename_i hnone
    exact ⟨[], (List.append_nil _).symm, fun layer hmem => absurd hmem List.not_mem_nil,
      fun hsome => absurd hsome hnone⟩

/-- When the slots are in order, each layer goes to the slot of its rank. -/
theorem beforePresent_outcome (h : Presented f display job below gles above)
    (hc : Complete f display below gles above)
    (hord : InOrder f (ranged display below gles) job below gles above) :
    ∃ job', display.buildCommittedLayers.beforePresent f job =
        some (ranged display below gles, job') ∧
      Outcome f (ranged display below gles) job below gles above job' := by
  obtain ⟨targets, hcommitted, htargets, -⟩ := ranged_committed h.visible
  -- the loop
  have hrounds := setupHwcLayersFrom_rounds f (ranged display below gles)
    ((below ++ gles ++ above).filter HWCLayer.isCommitted)
    { informed job below gles with num_ui_layers := 0, num_mm_layers := 0 } 0
    (fun layer hmem => h.layers layer (List.mem_filter.mp hmem).1)
    (fun j hj => by
      rw [Nat.zero_add]
      exact hord.low j hj)
    (fun j hj => by
      rw [Nat.zero_add]
      exact hord.high j hj)
    (fun j k hjk hk => by
      rw [Nat.zero_add, Nat.zero_add]
      exact hord.mono j k hjk hk)
  obtain ⟨filled, hloop, hfilled⟩ := hrounds
  have hsetup : setupHwcLayers f (ranged display below gles) (informed job below gles) =
      some filled := by
    rw [setupHwcLayers, hcommitted, setupHwcLayersFrom_clientTarget, hloop]
    intro layer hmem
    rw [htargets layer hmem]
    exact h.clientTarget
  obtain ⟨job', hpresent, hslots, hnum, hconfig⟩ := beforePresent_eq h hc.outbuf hsetup
  have hinfo : filled.layer_info.layer_config_list = job.layer_info.layer_config_list := by
    rw [hfilled.layer_info]
    rfl
  have hidx : fbtHwLayerIdx f (ranged display below gles) filled =
      fbtHwLayerIdx f (ranged display below gles) job := by
    rw [fbtHwLayerIdx, fbtHwLayerIdx, hinfo]
  -- the slot of the client target is written last
  have hkeep : ∀ s, (gles ≠ [] → s ≠ (fbtHwLayerIdx f (ranged display below gles) job).toNat) →
      job'.hw_layers s = filled.hw_layers s := by
    intro s hs
    by_cases hnil : gles = []
    · rw [hslots, setupGlesLayers_nil (if_pos hnil)]
    · have hhead : (ranged display below gles).m_gles_head ≠ -1 := by
        change headOf below gles ≠ -1
        rw [headOf, if_neg hnil]
        omega
      rw [hslots, setupGlesLayers_range hhead (hc.clientTarget hnil), hidx]
      exact if_neg (hs hnil)
  refine ⟨job', hpresent, ?_, ?_, ?_, ?_, ?_⟩
  · rw [hnum, hfilled.num_layers]
    rfl
  · exact hconfig.trans hinfo
  · intro v layer hat
    have hfill := hfilled.filled _ layer (filter_rank _ _ hat.1 hat.2)
    rw [Nat.zero_add] at hfill
    rw [slotAt, hkeep]
    · exact hfill
    · intro hnil
      have hlt := filter_rank _ _ hat.1 hat.2
      have hlow := hord.low _ (List.getElem?_eq_some_iff.mp hlt).1
      have htarget := (hord.target hnil).1
      rcases outside_of_isCommitted h.gpu hat.1 hat.2 with ⟨hv, _⟩ | ⟨u, hv, _⟩
      · have hunder := hord.underneath hnil v layer hat hv
        omega
      · have htop := hord.onTop hnil v layer hat (by omega)
        omega
  · intro hnil
    have hhead : (ranged display below gles).m_gles_head ≠ -1 := by
      change headOf below gles ≠ -1
      rw [headOf, if_neg hnil]
      omega
    rw [hslots, setupGlesLayers_range hhead (hc.clientTarget hnil), hidx]
    refine ⟨filled.hw_layers (fbtHwLayerIdx f (ranged display below gles) job).toNat,
      (if_pos rfl).trans ?_⟩
    rw [fbtHwLayer, fbtHwLayer, hinfo]
  · intro s hs
    by_cases hct : gles ≠ [] ∧ s = (fbtHwLayerIdx f (ranged display below gles) job).toNat
    · exact .inr hct
    · left
      rw [hkeep s fun hnil heq => hct ⟨hnil, heq⟩] at hs
      by_contra hnone
      rw [hfilled.other s] at hs
      · exact absurd (hs.symm.trans (h.idle s)) nofun
      · intro j hj heq
        obtain ⟨v, hv, hcommit, hrank⟩ := exists_rank _ _ (List.getElem?_eq_getElem hj)
        refine hnone ⟨v, _, ⟨hv, hcommit⟩, ?_⟩
        rw [slotAt, hrank, heq, Nat.zero_add]
        rfl

end Step

/-! ## The slots follow the layers -/

/-- On a display whose layers are aligned, each layer that is shown has a slot, the client target
has one exactly if the GPU composes a layer, and the slots are in z order. -/
theorem overlay_slots_follow {f : Features} {display : HWCDisplay} {job : DispatcherJob}
    {below gles above : List HWCLayer} (h : Presented f display job below gles above)
    (hc : Complete f display below gles above) (ha : Aligned f below gles above) :
    ∃ display' job' slot ct,
      display.buildCommittedLayers.beforePresent f job = some (display', job') ∧
        SlotsFollow f display' job' below gles above slot ct := by
  -- what is shown is what is committed
  have hshown : ∀ layer ∈ below ++ above, layer.isCommitted = layer.isShown := by
    intro layer hmem
    rw [Bool.eq_iff_iff]
    refine ⟨isShown_of_isCommitted, fun hs => ?_⟩
    have hin : layer ∈ below ++ gles ++ above := by
      rcases List.mem_append.mp hmem with hb | hb
      · exact List.mem_append_left _ (List.mem_append_left _ hb)
      · exact List.mem_append_right _ hb
    obtain ⟨hframe, htype⟩ := of_decide_eq_true hs
    refine decide_eq_true ⟨hframe, ?_, htype, hc.wormhole layer hmem hs⟩
    rw [h.layers layer hin]
    exact Bool.false_ne_true
  have hat : ∀ v layer, ShownAt (below ++ gles ++ above) v layer →
      layer ∈ below ++ above ∧ CommittedAt (below ++ gles ++ above) v layer := by
    intro v layer hs
    have houter : layer ∈ below ++ above := by
      rcases List.mem_append.mp (List.mem_of_getElem? hs.1) with hb | hb
      · rcases List.mem_append.mp hb with hb | hg
        · exact List.mem_append_left _ hb
        · have hno := isShown_of_client (h.gpu layer hg)
          rw [hs.2] at hno
          exact absurd hno.symm Bool.false_ne_true
      · exact List.mem_append_right _ hb
    exact ⟨houter, hs.1, (hshown layer houter).trans hs.2⟩
  have hshownAt : ∀ v layer, CommittedAt (below ++ gles ++ above) v layer →
      ShownAt (below ++ gles ++ above) v layer := fun v layer hcommit =>
    ⟨hcommit.1, isShown_of_isCommitted hcommit.2⟩
  have hord : InOrder f (ranged display below gles) job below gles above := by
    rw [Aligned] at ha
    cases hf : f.hrt_from_driver with
    | true =>
      rw [if_pos hf] at ha
      refine inOrder_of_driver hf rfl rfl h.gpu (h.driver hf) ?_
      refine ha.imp_of_mem fun {lower upper} hlower hupper hpair => ?_
      rw [hshown lower hlower, hshown upper hupper]
      exact hpair
    | false =>
      rw [if_neg (by rw [hf]; exact Bool.false_ne_true)] at ha
      refine inOrder_of_counting hf rfl h.gpu h.fits ?_
      rcases ha with hnil | hall | hno
      · exact .inl hnil
      · refine .inr (.inl fun layer hmem => ?_)
        rw [hshown layer (List.mem_append_left _ hmem)]
        exact hall layer hmem
      · refine .inr (.inr fun layer hmem => ?_)
        rw [hshown layer (List.mem_append_right _ hmem)]
        exact hno layer hmem
  obtain ⟨job', hpresent, hout⟩ := beforePresent_outcome h hc hord
  obtain ⟨targets, hcommitted, -, htargets⟩ := ranged_committed h.visible
  have hrank {v : Nat} {layer : HWCLayer} (hs : ShownAt (below ++ gles ++ above) v layer) :
      rank HWCLayer.isCommitted (below ++ gles ++ above) v <
        ((below ++ gles ++ above).filter HWCLayer.isCommitted).length :=
    (List.getElem?_eq_some_iff.mp (filter_rank _ _ hs.1 (hat v layer hs).2.2)).1
  refine ⟨_, job', slotAt f (ranged display below gles) job (below ++ gles ++ above),
    (fbtHwLayerIdx f (ranged display below gles) job).toNat, hpresent, ?_⟩
  constructor
  · intro v layer hs
    obtain ⟨houter, hcommit⟩ := hat v layer hs
    obtain ⟨before, hfilled⟩ := hout.layer v layer hcommit
    refine ⟨?_, ?_, ?_, ?_⟩
    · have hlow := hord.low _ (hrank hs)
      have hhigh := hord.high _ (hrank hs)
      rw [hout.num_layers, slotAt]
      omega
    · rw [hfilled]
      exact decide_eq_true fun hdebug =>
        hc.debug hdebug.1 layer houter hs.2 hdebug.2
    · rw [hfilled]
      rfl
    · refine ⟨_, congrArg HWLayer.index hfilled, ?_⟩
      rw [hcommitted, List.getElem?_append_left (hrank hs)]
      exact filter_rank _ _ hs.1 hcommit.2
  · intro hnil
    obtain ⟨before, hct⟩ := hout.clientTarget hnil
    have htarget := hord.target hnil
    rw [htargets (hc.clientTarget hnil)] at hcommitted
    refine ⟨?_, ?_, ?_, ?_⟩
    · rw [hout.num_layers]
      omega
    · rw [hct]
      rfl
    · rw [hct]
      rfl
    · refine ⟨((below ++ gles ++ above).filter HWCLayer.isCommitted).length,
        (congrArg HWLayer.index hct).trans ?_, ?_⟩
      · change ((ranged display below gles).m_committed_layers.length : Int) - 1 = _
        rw [hcommitted, List.length_append, List.length_singleton]
        omega
      · rw [hcommitted, List.getElem?_append_right (Nat.le_refl _), Nat.sub_self]
        rfl
  · intro s _ hs
    rcases hout.only s hs with ⟨v, layer, hcommit, rfl⟩ | hct
    · exact .inl ⟨v, layer, hshownAt v layer hcommit, rfl⟩
    · exact .inr hct
  · intro v w lower upper hlower hupper hlt
    have hmono := hord.mono _ _
      (rank_lt_rank HWCLayer.isCommitted _ hlt hlower.1 (hat v lower hlower).2.2) (hrank hupper)
    have hlow := hord.low _ (hrank hlower)
    rw [slotAt, slotAt]
    omega
  · intro hnil v layer hs hv
    have hlt := hord.underneath hnil v layer (hat v layer hs).2 hv
    have hlow := hord.low _ (hrank hs)
    rw [slotAt]
    omega
  · intro hnil v layer hs hv
    have hlt := hord.onTop hnil v layer (hat v layer hs).2 hv
    have hlow := (hord.target hnil).1
    rw [slotAt]
    omega
  · intro hf v layer hs
    obtain ⟨before, hfilled⟩ := hout.layer v layer (hat v layer hs).2
    have hplace := hord.driver hf v layer (hat v layer hs).2
    have hid : ovlId f (ranged display below gles) job
        (rank HWCLayer.isCommitted (below ++ gles ++ above) v) =
          (job.layer_info.layer_config_list v).ovl_id := by
      rw [ovlId, if_pos hf, hplace]
    have hlow := hord.low _ (hrank hs)
    refine ⟨?_, ?_⟩
    · rw [hout.config, ← hid, slotAt]
      omega
    · rw [hfilled, hout.config]
      change (if f.enable_smart_layer = true then _ else (-1 : Int)) = _
      rw [extSelLayer, if_pos hf, hplace]
  · intro hf hnil
    have hlow := (hord.target hnil).1
    rw [hout.config, Int.toNat_of_nonneg hlow, fbtHwLayerIdx, if_pos hf]
    change (job.layer_info.layer_config_list (headOf below gles).toNat).ovl_id = _
    rw [headOf, if_neg hnil, Int.toNat_natCast]

/-! ## Displays whose slots do not follow -/

/-- A layer with its own buffer. -/
def layerOf (id : Nat) (type : HwLayerType) (frame : Rect) : HWCLayer where
  m_id := id
  m_is_ct := type = .fbt
  m_handle := some id
  m_hwlayer_type := type
  m_display_frame := frame
  m_mdp_dst_roi := frame
  m_layer_caps := 0
  m_priv_hnd := ⟨id, false, false, false, 0⟩

/-- The primary display with visible layers and a client target. -/
def primaryOf (visible : List HWCLayer) (ct : HWCLayer) : HWCDisplay where
  m_disp_id := .primary
  m_is_connected := true
  m_mir_src := HWC_MIRROR_SOURCE_INVALID
  m_outbuf := none
  m_visible_layers := visible
  m_committed_layers := []
  m_ct := ct
  m_gles_head := -1
  m_gles_tail := -1

/-- A new job; the driver numbers the layers. -/
def newJob (num_layers : Nat) : DispatcherJob where
  num_layers := num_layers
  hw_layers := fun _ => ⟨false, 0, .invalid, -1, 0, 0, ⟨0, 0, 0, 0⟩, ⟨0, false, false, false, 0⟩⟩
  layer_info := ⟨-1, -1, fun v => ⟨v, -1⟩, -1⟩
  fbt_exist := false
  num_ui_layers := 0
  num_mm_layers := 0
  is_protect := false
  secure := false
  timestamp := 0
  force_wait := false
  mm_fbt := false
  uipq_index := -1
  disp_mir_id := HWC_MIRROR_SOURCE_INVALID

/-- The primary display with a layer on each side of the range, whose slots come from the driver. -/
theorem overlay_slots_follow_driver :
    ∃ display' job' slot ct,
      (primaryOf ([layerOf 1 .ui ⟨0, 0, 10, 10⟩] ++ [layerOf 2 .invalid ⟨0, 0, 10, 10⟩] ++
          [layerOf 3 .mm ⟨0, 0, 10, 10⟩])
        (layerOf 9 .fbt ⟨0, 0, 10, 10⟩)).buildCommittedLayers.beforePresent
          ⟨true, true, true, false⟩ (newJob 4) = some (display', job') ∧
        SlotsFollow ⟨true, true, true, false⟩ display' job' [layerOf 1 .ui ⟨0, 0, 10, 10⟩]
          [layerOf 2 .invalid ⟨0, 0, 10, 10⟩] [layerOf 3 .mm ⟨0, 0, 10, 10⟩] slot ct := by
  refine overlay_slots_follow ?_ ?_ ?_
  · constructor
    case driver =>
      refine fun _ => ⟨fun v hv _ => ?_, fun v w hlt hw _ _ => ?_⟩
      · change v < 3 at hv
        exact ⟨Int.natCast_nonneg v, Int.ofNat_lt.mpr (show v < 4 by omega)⟩
      · exact Int.ofNat_lt.mpr hlt
    case idle => exact fun _ => rfl
    all_goals first | rfl | decide
  · constructor
    all_goals decide
  · rw [Aligned, if_pos rfl]
    decide

/-- The display is presented, and its slots do not follow its layers. -/
def Misplaced (f : Features) (display : HWCDisplay) (job : DispatcherJob)
    (below gles above : List HWCLayer) : Prop :=
  Presented f display job below gles above ∧
    ¬ ∃ display' job' slot ct,
      display.buildCommittedLayers.beforePresent f job = some (display', job') ∧
        SlotsFollow f display' job' below gles above slot ct

/-- With a layer filtered out underneath the range, the layer on top of it gets the slot below
that of the client target; and without a buffer the client target gets no slot. -/
theorem overlay_slots_misplaced :
    Misplaced ⟨false, false, false, false⟩
      (primaryOf [layerOf 1 .ui ⟨0, 0, 0, 0⟩, layerOf 2 .ui ⟨0, 0, 10, 10⟩,
        layerOf 3 .invalid ⟨0, 0, 10, 10⟩, layerOf 4 .ui ⟨0, 0, 10, 10⟩]
        (layerOf 9 .fbt ⟨0, 0, 10, 10⟩)) (newJob 4)
      [layerOf 1 .ui ⟨0, 0, 0, 0⟩, layerOf 2 .ui ⟨0, 0, 10, 10⟩]
      [layerOf 3 .invalid ⟨0, 0, 10, 10⟩] [layerOf 4 .ui ⟨0, 0, 10, 10⟩] ∧
    Misplaced ⟨false, false, false, false⟩
      (primaryOf [layerOf 3 .invalid ⟨0, 0, 10, 10⟩]
        { layerOf 9 .fbt ⟨0, 0, 10, 10⟩ with m_handle := none }) (newJob 4)
      [] [layerOf 3 .invalid ⟨0, 0, 10, 10⟩] [] := by
  refine ⟨⟨?_, ?_⟩, ⟨?_, ?_⟩⟩
  · constructor
    case driver => exact nofun
    case idle => exact fun _ => rfl
    all_goals first | rfl | decide
  · rintro ⟨display', job', slot, ct, hrun, hfollow⟩
    cases hrun
    have hlt := hfollow.onTop (by decide) 3 _ ⟨rfl, by decide⟩ (by decide)
    obtain ⟨htop, hcarry⟩ := hfollow.layer 3 (layerOf 4 .ui ⟨0, 0, 10, 10⟩) ⟨rfl, by decide⟩
    obtain ⟨htarget, hcarryTarget⟩ := hfollow.clientTarget (by decide)
    have hfd := congrArg PrivateHandle.ion_fd hcarry.handle
    have hfdTarget := congrArg PrivateHandle.ion_fd hcarryTarget.handle
    -- the buffers of the two tell their slots
    generalize slot 3 = s at hlt htop hfd
    change s < 4 at htop
    change ct < 4 at htarget
    interval_cases s
    all_goals first | exact absurd hfd (by decide) | skip
    interval_cases ct
    exact absurd hfdTarget (by decide)
  · constructor
    case driver => exact nofun
    case idle => exact fun _ => rfl
    all_goals first | rfl | decide
  · rintro ⟨display', job', slot, ct, hrun, hfollow⟩
    cases hrun
    obtain ⟨-, hcarry⟩ := hfollow.clientTarget (by decide)
    exact absurd hcarry.enable nofun

end MtkHw.Hwc
