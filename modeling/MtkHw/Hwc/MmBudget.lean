import MtkHw.Hwc.Overlay
import MtkHw.Lib.Admission
import Mathlib.Algebra.Group.Int.Defs
import Mathlib.Algebra.Group.Nat.Defs

/-!
# The multimedia budget

`HWCDisplay::validate` gives every visible layer its type, and then takes layers away from the
multimedia engine until no more of them are left than it can serve.  There are two passes: one
demotes the layers that come neither from the camera nor from a video, when there are many, and
one goes through the layers in z order and counts.

The second pass never demotes a secure layer, and leaves no room for those that are still to come.
The first one does not look whether a layer is secure.  What that means for the budget is
`validate_withinBudget_iff`.

The checks of the platform are parameters, and the line numbers kept for debugging are left out.
-/

namespace MtkHw.Hwc.Budget

open Lib

/-! ## Layers -/

/-- `HWC2_COMPOSITION`, as SurfaceFlinger asks for it. -/
inductive SfComposition where
  | invalid
  | client
  | device
  | solidColor
  | cursor
  | sideband
  deriving DecidableEq, Repr

def GRALLOC_EXTRA_MASK_TYPE : UInt32 := 0x3
def GRALLOC_EXTRA_BIT_TYPE_VIDEO : UInt32 := 2
def GRALLOC_EXTRA_BIT_TYPE_CAMERA : UInt32 := 3
def GRALLOC_EXTRA_BIT2_UI_PQ_ON : UInt32 := 0x00040000
def GRALLOC_USAGE_PROTECTED : UInt32 := 0x00004000
def GRALLOC_USAGE_SECURE : UInt32 := 0x10000000
def HAL_PIXEL_FORMAT_YV12 : UInt32 := 0x32315659
def HWC_DISPLAY_PRIMARY : Nat := 0

/-- `PrivateHandle`, as far as the validation reads it. -/
structure BufferFlags where
  format : UInt32
  usage : UInt32
  sec_handle : UInt32
  status : UInt32
  status2 : UInt32
  deriving DecidableEq, Repr

/-- `HWCLayer`; `has_handle` says that it has a buffer with a handle. -/
structure Layer where
  m_id : Nat
  m_sf_comp_type : SfComposition
  m_display_frame : Rect
  has_handle : Bool
  priv_handle : BufferFlags
  m_hwlayer_type : HwLayerType
  deriving DecidableEq, Repr

/-- What the validation asks of the platform and of the other displays. -/
structure Platform where
  isUILayerValid : Layer → Bool
  isMMLayerValid : Layer → Bool
  compose_disable_ui : Bool
  compose_disable_mm : Bool
  global_pq : Bool
  uipq_debug : Bool
  extend_mdp_capacity : Bool
  video_hdcp : Nat
  external_connected : Bool
  virtual_connected : Bool

/-- `HWCDisplay`, as far as the validation reads it. -/
structure Display where
  m_disp_id : Nat
  connected : Bool
  secure : Bool
  hdcp_version : Nat
  m_mir_src : Int
  force_gpu_compose : Bool

namespace Layer

variable (layer : Layer)

def setHwlayerType (type : HwLayerType) : Layer := { layer with m_hwlayer_type := type }

def width : Int := layer.m_display_frame.right - layer.m_display_frame.left

def height : Int := layer.m_display_frame.bottom - layer.m_display_frame.top

/-- The producer of the buffer. -/
def bufferType : UInt32 := layer.priv_handle.status &&& GRALLOC_EXTRA_MASK_TYPE

def isCamera : Bool := layer.bufferType = GRALLOC_EXTRA_BIT_TYPE_CAMERA

def isVideo : Bool := layer.bufferType = GRALLOC_EXTRA_BIT_TYPE_VIDEO

def isProtected : Bool := layer.priv_handle.usage &&& GRALLOC_USAGE_PROTECTED ≠ 0

def isUiPqOn : Bool := layer.priv_handle.status2 &&& GRALLOC_EXTRA_BIT2_UI_PQ_ON ≠ 0

/-- The content protection of the display is not good enough for the layer. -/
def failsHdcp (p : Platform) (d : Display) : Bool :=
  if layer.priv_handle.usage &&& GRALLOC_USAGE_SECURE ≠ 0 then
    if layer.isVideo ∨ layer.isCamera ∨ layer.priv_handle.format = HAL_PIXEL_FORMAT_YV12 then
      p.video_hdcp > d.hdcp_version
    else d.hdcp_version > 0 ∧ d.m_disp_id ≠ HWC_DISPLAY_PRIMARY
  else false

/-- The type that `HWCLayer::validate` sets. -/
def validatedType (p : Platform) (d : Display) : HwLayerType :=
  if layer.m_sf_comp_type = .client then .invalid
  else if layer.m_sf_comp_type = .solidColor then
    if layer.width ≤ 0 ∨ layer.height ≤ 0 then .invalid else .dim
  else if ¬layer.has_handle then .invalid
  else if layer.isProtected ∧ ¬d.secure then .invalid
  else if layer.failsHdcp p d then .invalid
  else if p.global_pq ∧ ¬p.compose_disable_ui ∧ d.m_disp_id = HWC_DISPLAY_PRIMARY ∧
      layer.isUiPqOn ∧ p.uipq_debug then .uipqDebug
  else if ¬p.compose_disable_ui ∧ p.isUILayerValid layer then
    if layer.m_sf_comp_type = .cursor then .cursor
    else if p.global_pq ∧ d.m_disp_id = HWC_DISPLAY_PRIMARY ∧ layer.isUiPqOn ∧
        layer.width > 1 ∧ layer.height > 1 then .uipq
    else .ui
  else if p.compose_disable_mm then .invalid
  else if p.isMMLayerValid layer then .mm
  else .invalid

/-- `HWCLayer::validate`. -/
def validate (p : Platform) (d : Display) : Layer :=
  layer.setHwlayerType (layer.validatedType p d)

/-- The layer is one that the budget is for. -/
def isMm : Bool := layer.m_hwlayer_type = .mm ∨ layer.m_hwlayer_type = .uipq

/-- A secure MM layer, which is never composed by GLES. -/
def isSecureMm : Bool :=
  layer.m_hwlayer_type = .mm ∧ (layer.isProtected ∨ layer.priv_handle.sec_handle ≠ 0)

/-- The layer comes from the camera or from a video. -/
def isRecorded : Bool := layer.isCamera ∨ layer.isVideo

end Layer

/-! ## The passes -/

def MAX_MM_NUM : Nat := 1

/-- The counters of the first loop. -/
structure Counters where
  mm_layer_num : Nat := 0
  camera_layer_num : Nat := 0
  video_layer_num : Nat := 0

/-- A layer is counted. -/
def Counters.add (n : Counters) (layer : Layer) : Counters where
  mm_layer_num :=
    if layer.m_hwlayer_type = .mm ∨ layer.m_hwlayer_type = .mmHigh ∨
      layer.m_hwlayer_type = .uipq then n.mm_layer_num + 1 else n.mm_layer_num
  camera_layer_num := if layer.isCamera then n.camera_layer_num + 1 else n.camera_layer_num
  video_layer_num := if layer.isVideo then n.video_layer_num + 1 else n.video_layer_num

/-- The counters after the first loop. -/
def counters (layers : List Layer) : Counters := layers.foldl Counters.add {}

/-- The difference of the unsigned counters as an `int`. -/
def Counters.mm_ui_num (n : Counters) : Int :=
  ((n.mm_layer_num : Int) - n.camera_layer_num - n.video_layer_num).bmod (2 ^ 32)

/-- There are too many MM layers of the user interface. -/
def tooManyUi (layers : List Layer) : Bool :=
  (counters layers).mm_ui_num > 1 ∧ (counters layers).mm_layer_num > 2 ∧ layers.length ≥ 4

/-- The MM layers of the user interface are left to GLES. -/
def demoteUi (layer : Layer) : Layer :=
  if layer.isMm ∧ ¬layer.isRecorded then layer.setHwlayerType .invalid else layer

/-- `extendMDPCapacity`. -/
def extendMDPCapacity (p : Platform) (camera_layer_num : Nat) : Nat :=
  if p.extend_mdp_capacity then
    if camera_layer_num ≠ 0 then 0
    else if p.external_connected ∨ p.virtual_connected then 0
    else 1
  else 0

/-- `EXTEND_MAX_MM_NUM`. -/
def extendMaxMmNum (p : Platform) (d : Display) (layers : List Layer) : Nat :=
  if d.m_disp_id = HWC_DISPLAY_PRIMARY then
    extendMDPCapacity p (counters layers).camera_layer_num
  else 0

/-- The last loop; `mm_layer_num` is its counter. -/
def limitMm (max : Nat) : Nat → List Layer → List Layer
  | _, [] => []
  | mm_layer_num, layer :: layers =>
      if layer.isSecureMm then layer :: limitMm max (mm_layer_num + 1) layers
      else
        let layer :=
          if mm_layer_num ≥ max ∧ layer.isMm then layer.setHwlayerType .invalid else layer
        layer :: limitMm max (if layer.isMm then mm_layer_num + 1 else mm_layer_num) layers

/-- The passes over the layers that have their types. -/
def applyBudget (p : Platform) (d : Display) (layers : List Layer) : List Layer :=
  if (counters layers).mm_layer_num > MAX_MM_NUM then
    limitMm (MAX_MM_NUM + extendMaxMmNum p d layers) 0
      (if tooManyUi layers then layers.map demoteUi else layers)
  else layers

/-- `HWCDisplay::validate`, as what becomes of the visible layers. -/
def validate (p : Platform) (d : Display) (layers : List Layer) : List Layer :=
  if ¬d.connected then layers
  else if d.m_mir_src ≠ -1 then layers.map (·.setHwlayerType .wormhole)
  else if d.force_gpu_compose then layers.map (·.setHwlayerType .invalid)
  else applyBudget p d (layers.map (·.validate p d))

/-! ## What the budget promises -/

/-- The layers after the passes, compared with those before: at most `max` of them are left to the
multimedia engine, unless the secure ones are more, and then only these are left; secure MM layers
and those that are not MM layers keep their types. -/
structure WithinBudget (max : Nat) (before after : List Layer) : Prop where
  budget : after.countP (·.isMm) ≤ max ∨
    (max < before.countP (·.isSecureMm) ∧ ∀ layer ∈ after, layer.isMm → layer.isSecureMm)
  length : after.length = before.length
  secure : ∀ (i : Nat) (layer : Layer), before[i]? = some layer → layer.isSecureMm →
    after[i]? = some layer
  others : ∀ (i : Nat) (layer : Layer), before[i]? = some layer → ¬layer.isMm →
    after[i]? = some layer

/-- The layers that the last loop counts or demotes. -/
def contenders (layers : List Layer) : List Layer :=
  layers.filter fun layer => layer.isMm ∧ (tooManyUi layers → layer.isRecorded)

/-- The first pass meets no secure MM layer that it demotes, and no secure MM layer is behind the
first `max` contenders when another MM layer is among these. -/
def SecureFirst (max : Nat) (layers : List Layer) : Prop :=
  (tooManyUi layers → ∀ layer ∈ layers, layer.isSecureMm → layer.isRecorded) ∧
    ((∀ layer : Layer, layer ∈ (contenders layers).drop max → ¬layer.isSecureMm) ∨
      ∀ layer : Layer, layer ∈ (contenders layers).take max → layer.isSecureMm)

variable {layer : Layer} {layers : List Layer} {max n i : Nat}

namespace Layer

theorem isMm_invalid (layer : Layer) : (layer.setHwlayerType .invalid).isMm = false := rfl

theorem isMm_of_isSecureMm (h : layer.isSecureMm) : layer.isMm := by
  rw [isSecureMm, decide_eq_true_eq] at h
  rw [isMm, decide_eq_true_eq]
  exact .inl h.1

end Layer

/-! ## The first pass -/

/-- The contenders are the MM layers that the first pass leaves. -/
theorem filter_demoted : ((if tooManyUi layers then layers.map demoteUi else layers).filter
    (·.isMm)) = contenders layers := by
  rw [contenders]
  cases htoo : tooManyUi layers with
  | false => simp
  | true =>
    clear htoo
    rw [if_pos rfl]
    induction layers with
    | nil => rfl
    | cons layer layers ih =>
      rw [List.map_cons, List.filter_cons, List.filter_cons, ih, demoteUi]
      cases hmm : layer.isMm with
      | false => simp [hmm]
      | true =>
        cases hrecorded : layer.isRecorded with
        | false => simp [Layer.isMm_invalid]
        | true => simp [hmm]

/-- Nearly all MM layers are counted. -/
theorem foldl_mm_layer_num (n : Counters) :
    n.mm_layer_num + layers.countP (·.isMm) ≤ (layers.foldl Counters.add n).mm_layer_num := by
  induction layers generalizing n with
  | nil => exact Nat.le_refl _
  | cons layer layers ih =>
    have hstep : n.mm_layer_num + (if layer.isMm then 1 else 0) ≤ (n.add layer).mm_layer_num := by
      rw [Counters.add]
      by_cases hmm : layer.isMm
      · have hcounted := of_decide_eq_true hmm
        refine Nat.le_of_eq ?_
        rw [if_pos hmm, if_pos (hcounted.imp_right .inr)]
      · rw [if_neg hmm]
        exact iteInduction (motive := fun m => n.mm_layer_num + 0 ≤ m)
          (fun _ => Nat.le_succ _) fun _ => Nat.le_refl _
    rw [List.foldl_cons, List.countP_cons]
    have hrest := ih (n.add layer)
    omega

/-! ## The last loop -/

theorem limitMm_secure (h : layer.isSecureMm) :
    limitMm max n (layer :: layers) = layer :: limitMm max (n + 1) layers := by
  rw [limitMm, if_pos h]

theorem limitMm_other (h : ¬layer.isMm) :
    limitMm max n (layer :: layers) = layer :: limitMm max n layers := by
  rw [limitMm, if_neg fun hsecure => h (Layer.isMm_of_isSecureMm hsecure)]
  dsimp only
  rw [if_neg fun hboth => h hboth.2, if_neg h]

theorem limitMm_room (hsecure : ¬layer.isSecureMm) (hmm : layer.isMm) (hroom : n < max) :
    limitMm max n (layer :: layers) = layer :: limitMm max (n + 1) layers := by
  rw [limitMm, if_neg hsecure]
  dsimp only
  rw [if_neg fun hboth => absurd hroom (Nat.not_lt.mpr hboth.1), if_pos hmm]

theorem limitMm_full (hsecure : ¬layer.isSecureMm) (hmm : layer.isMm) (hfull : ¬n < max) :
    limitMm max n (layer :: layers) = layer.setHwlayerType .invalid :: limitMm max n layers := by
  rw [limitMm, if_neg hsecure]
  dsimp only
  rw [if_pos ⟨Nat.not_lt.mp hfull, hmm⟩, Layer.isMm_invalid]
  rfl

/-- What is left to the multimedia engine are the requests that greedy admission admits. -/
theorem limitMm_filter (max n : Nat) (layers : List Layer) :
    (limitMm max n layers).filter (·.isMm) =
      admitted (·.isSecureMm) max n (layers.filter (·.isMm)) := by
  induction layers generalizing n with
  | nil => rfl
  | cons layer layers ih =>
    by_cases hmm : layer.isMm
    · rw [List.filter_cons_of_pos (by exact hmm), admitted]
      by_cases hsecure : layer.isSecureMm
      · rw [limitMm_secure hsecure, List.filter_cons_of_pos (by exact hmm), if_pos hsecure, ih]
      · rw [if_neg hsecure]
        by_cases hroom : n < max
        · rw [limitMm_room hsecure hmm hroom, List.filter_cons_of_pos (by exact hmm),
            if_pos hroom, ih]
        · rw [limitMm_full hsecure hmm hroom, List.filter_cons_of_neg (by rintro ⟨⟩),
            if_neg hroom, ih]
    · rw [limitMm_other hmm, List.filter_cons_of_neg (by exact hmm),
        List.filter_cons_of_neg (by exact hmm), ih]

theorem limitMm_length (max n : Nat) (layers : List Layer) :
    (limitMm max n layers).length = layers.length := by
  induction layers generalizing n with
  | nil => rfl
  | cons layer layers ih =>
    rw [limitMm]
    split
    · rw [List.length_cons, List.length_cons, ih]
    · rw [List.length_cons, List.length_cons, ih]

/-- A layer that is not demoted by the loop stays as it is. -/
theorem limitMm_kept (h : layers[i]? = some layer) (hkept : layer.isSecureMm ∨ ¬layer.isMm) :
    (limitMm max n layers)[i]? = some layer := by
  induction layers generalizing n i with
  | nil => cases h
  | cons first layers ih =>
    cases i with
    | zero =>
      cases h
      rw [limitMm]
      split
      · rfl
      · rename_i hsecure
        rw [if_neg fun hboth => (hkept.resolve_left hsecure) hboth.2]
        rfl
    | succ i =>
      rw [limitMm]
      split
      · exact ih h
      · exact ih h

/-- A layer that is not an MM layer any more stays so. -/
theorem demoteUi_kept (hkept : layer.isRecorded ∨ ¬layer.isMm) : demoteUi layer = layer := by
  rw [demoteUi, if_neg fun hboth => hkept.elim hboth.2 fun hmm => hmm hboth.1]

/-! ## Both passes -/

/-- The layers between the passes. -/
theorem passed_getElem (h : layers[i]? = some layer) :
    (if tooManyUi layers then layers.map demoteUi else layers)[i]? =
      some (if tooManyUi layers then demoteUi layer else layer) := by
  cases tooManyUi layers with
  | false => exact h
  | true =>
    change (layers.map demoteUi)[i]? = some (demoteUi layer)
    rw [List.getElem?_map, h]
    rfl

/-- The contenders have the secure MM layers, unless the first pass demotes one. -/
theorem contenders_countP
    (h : tooManyUi layers → ∀ layer ∈ layers, layer.isSecureMm → layer.isRecorded) :
    (contenders layers).countP (·.isSecureMm) = layers.countP (·.isSecureMm) := by
  rw [contenders, List.countP_filter]
  refine List.countP_congr fun layer hmem => ?_
  rw [Bool.and_eq_true, decide_eq_true_eq]
  exact and_iff_left_of_imp fun hsecure =>
    ⟨Layer.isMm_of_isSecureMm hsecure, fun htoo => h htoo layer hmem hsecure⟩

/-- When there is at most one MM layer, there is nothing to do. -/
theorem withinBudget_of_few (hfew : (counters layers).mm_layer_num ≤ MAX_MM_NUM) (ext : Nat) :
    WithinBudget (MAX_MM_NUM + ext) layers layers ∧ SecureFirst (MAX_MM_NUM + ext) layers := by
  have hcount : layers.countP (·.isMm) ≤ MAX_MM_NUM := by
    have hle : 0 + layers.countP (·.isMm) ≤ (counters layers).mm_layer_num :=
      foldl_mm_layer_num {}
    rw [Nat.zero_add] at hle
    exact Nat.le_trans hle hfew
  have hnot : ¬tooManyUi layers := fun htoo => by
    have hmany := (of_decide_eq_true htoo).2.1
    rw [MAX_MM_NUM] at hfew
    omega
  have hmax : MAX_MM_NUM ≤ MAX_MM_NUM + ext := Nat.le_add_right _ _
  have hlen : (contenders layers).length ≤ MAX_MM_NUM := by
    rw [contenders, ← List.countP_eq_length_filter]
    exact Nat.le_trans
      (List.countP_mono_left fun layer _ hboth => (of_decide_eq_true hboth).1) hcount
  constructor
  · exact ⟨.inl (Nat.le_trans hcount hmax), rfl, fun _ _ h _ => h, fun _ _ h _ => h⟩
  · refine ⟨fun htoo => absurd htoo hnot, .inl fun layer hmem => ?_⟩
    rw [List.drop_eq_nil_of_le (Nat.le_trans hlen hmax)] at hmem
    exact absurd hmem List.not_mem_nil

/-- When there are more, the passes keep to the budget exactly if the secure layers come first. -/
theorem limitMm_withinBudget_iff : WithinBudget max layers
    (limitMm max 0 (if tooManyUi layers then layers.map demoteUi else layers)) ↔
      SecureFirst max layers := by
  have hfilter : (limitMm max 0 (if tooManyUi layers then layers.map demoteUi else layers)).filter
      (·.isMm) = admitted (·.isSecureMm) max 0 (contenders layers) := by
    rw [limitMm_filter, filter_demoted]
  have hbudget : (tooManyUi layers → ∀ layer ∈ layers, layer.isSecureMm → layer.isRecorded) →
      (((limitMm max 0 (if tooManyUi layers then layers.map demoteUi else layers)).countP
          (·.isMm) ≤ max ∨
        (max < layers.countP (·.isSecureMm) ∧
          ∀ layer ∈ limitMm max 0 (if tooManyUi layers then layers.map demoteUi else layers),
            layer.isMm → layer.isSecureMm)) ↔
        KeepsCap (·.isSecureMm) max (contenders layers)) := by
    intro hrecorded
    rw [KeepsCap, contenders_countP hrecorded, ← hfilter, List.countP_eq_length_filter]
    refine or_congr_right (and_congr_right fun _ => ?_)
    constructor
    · intro h layer hmem
      rw [List.mem_filter] at hmem
      exact h layer hmem.1 hmem.2
    · intro h layer hmem hmm
      exact h layer (List.mem_filter.mpr ⟨hmem, hmm⟩)
  constructor
  · intro h
    have hrecorded : tooManyUi layers →
        ∀ layer ∈ layers, layer.isSecureMm → layer.isRecorded := by
      intro htoo layer hmem hsecure
      by_contra hnot
      obtain ⟨i, hi⟩ := List.getElem?_of_mem hmem
      -- The first pass demotes the layer, and the last loop leaves it demoted.
      have hmm := Layer.isMm_of_isSecureMm hsecure
      have hdemote : (if tooManyUi layers then demoteUi layer else layer) =
          layer.setHwlayerType .invalid := by
        rw [if_pos htoo, demoteUi, if_pos ⟨hmm, hnot⟩]
      have hpassed := passed_getElem hi
      rw [hdemote] at hpassed
      have hdemoted : (limitMm max 0 _)[i]? = some _ := limitMm_kept hpassed (.inr (by rintro ⟨⟩))
      rw [h.secure i layer hi hsecure] at hdemoted
      rw [Option.some.inj hdemoted] at hmm
      cases hmm
    exact ⟨hrecorded, keepsCap_iff.mp ((hbudget hrecorded).mp h.budget)⟩
  · rintro ⟨hrecorded, hfirst⟩
    refine ⟨(hbudget hrecorded).mpr (keepsCap_iff.mpr hfirst), ?_, fun i layer hi hsecure => ?_,
      fun i layer hi hmm => ?_⟩
    · rw [limitMm_length]
      split
      · exact List.length_map _
      · rfl
    · have hpassed := passed_getElem hi
      have hkept : (if tooManyUi layers then demoteUi layer else layer) = layer := by
        split
        · rename_i htoo
          exact demoteUi_kept (.inl (hrecorded htoo layer (List.mem_of_getElem? hi) hsecure))
        · rfl
      rw [hkept] at hpassed
      exact limitMm_kept hpassed (.inl hsecure)
    · have hpassed := passed_getElem hi
      rw [demoteUi_kept (.inr hmm), ite_self] at hpassed
      exact limitMm_kept hpassed (.inr hmm)

/-- Without a mirror and without forced composition by GLES, the layers keep to the budget exactly
if the first pass meets no secure MM layer that it demotes, and no secure MM layer is behind the
first ones when another MM layer is among these. -/
theorem validate_withinBudget_iff (p : Platform) (d : Display) (layers : List Layer)
    (hconnected : d.connected = true) (hmirror : d.m_mir_src = -1)
    (hforce : d.force_gpu_compose = false) :
    let typed := layers.map (·.validate p d)
    let max := MAX_MM_NUM + extendMaxMmNum p d typed
    WithinBudget max typed (validate p d layers) ↔ SecureFirst max typed := by
  dsimp only
  rw [validate, if_neg (not_not_intro hconnected), if_neg (not_not_intro hmirror), hforce,
    if_neg Bool.false_ne_true, applyBudget]
  split
  · exact limitMm_withinBudget_iff
  · rename_i hfew
    have hboth := withinBudget_of_few (Nat.not_lt.mp hfew)
      (extendMaxMmNum p d (layers.map (·.validate p d)))
    exact iff_of_true hboth.1 hboth.2

/-- A platform whose overlay takes no layer as it is, and whose multimedia engine takes all. -/
def blitAll : Platform where
  isUILayerValid _ := false
  isMMLayerValid _ := true
  compose_disable_ui := false
  compose_disable_mm := false
  global_pq := false
  uipq_debug := false
  extend_mdp_capacity := false
  video_hdcp := 0
  external_connected := false
  virtual_connected := false

/-- A primary display that is secure. -/
def securePrimary : Display := ⟨HWC_DISPLAY_PRIMARY, true, true, 0, -1, false⟩

/-- A layer with a buffer of some producer. -/
def bufferLayer (m_id : Nat) (status usage : UInt32) : Layer :=
  ⟨m_id, .device, ⟨0, 0, 64, 64⟩, true, ⟨1, usage, 0, status, 0⟩, .none⟩

/-- A protected video in front of one that is not: the latter is demoted. -/
theorem validate_protected_first :
    WithinBudget 1
      ([bufferLayer 0 GRALLOC_EXTRA_BIT_TYPE_VIDEO GRALLOC_USAGE_PROTECTED,
        bufferLayer 1 GRALLOC_EXTRA_BIT_TYPE_VIDEO 0].map (·.validate blitAll securePrimary))
      (validate blitAll securePrimary
        [bufferLayer 0 GRALLOC_EXTRA_BIT_TYPE_VIDEO GRALLOC_USAGE_PROTECTED,
          bufferLayer 1 GRALLOC_EXTRA_BIT_TYPE_VIDEO 0]) :=
  (validate_withinBudget_iff blitAll securePrimary
    [bufferLayer 0 GRALLOC_EXTRA_BIT_TYPE_VIDEO GRALLOC_USAGE_PROTECTED,
      bufferLayer 1 GRALLOC_EXTRA_BIT_TYPE_VIDEO 0] rfl rfl rfl).mpr
    ⟨by decide +kernel, .inl (by decide +kernel)⟩

/-- A protected video behind one that is not: both are left.  And a protected layer among four
that come from the user interface: it is demoted with them. -/
theorem protected_exceeds_or_is_demoted :
    ¬WithinBudget 1
      ([bufferLayer 0 GRALLOC_EXTRA_BIT_TYPE_VIDEO 0,
        bufferLayer 1 GRALLOC_EXTRA_BIT_TYPE_VIDEO GRALLOC_USAGE_PROTECTED].map
          (·.validate blitAll securePrimary))
      (validate blitAll securePrimary
        [bufferLayer 0 GRALLOC_EXTRA_BIT_TYPE_VIDEO 0,
          bufferLayer 1 GRALLOC_EXTRA_BIT_TYPE_VIDEO GRALLOC_USAGE_PROTECTED]) ∧
    ¬WithinBudget 1
      ([bufferLayer 0 1 GRALLOC_USAGE_PROTECTED, bufferLayer 1 1 0, bufferLayer 2 1 0,
        bufferLayer 3 1 0].map (·.validate blitAll securePrimary))
      (validate blitAll securePrimary
        [bufferLayer 0 1 GRALLOC_USAGE_PROTECTED, bufferLayer 1 1 0, bufferLayer 2 1 0,
          bufferLayer 3 1 0]) := by
  constructor
  · intro h
    exact absurd h.budget (by decide +kernel)
  · intro h
    exact absurd (h.secure 0 _ rfl rfl) (by decide +kernel)

end MtkHw.Hwc.Budget
