import MtkHw.Hwc.BufferQueue

/-!
# Layers and overlay slots

How a display hands its layers to the overlay hardware: the visible layers in z order, the range of
them that the GPU composes, the committed layers that go to the dispatcher, and the slots of the
dispatcher's job.  The committed layers are built first, then `beforePresent` fills the slots.

The layers are shared objects in the source; here a list holds them by value, and what is written
to one of them is written to every layer with its id.  Fences, dirty flags and the region of the
client target are left out, and so is what `beforePresent` does after the slots are filled except
for the counters of the job.
-/

namespace MtkHw.Hwc

/-! ## Layers -/

/-- `HWC_LAYER_TYPE`. -/
inductive HwLayerType where
  | invalid
  | fbt
  | ui
  | mm
  | dim
  | cursor
  | mmHigh
  | mmFbt
  | none
  | wormhole
  | uipqDebug
  | uipq
  deriving DecidableEq, Repr

/-- `HWC2_COMPOSITION`. -/
inductive Composition where
  | invalid
  | client
  | device
  | cursor
  deriving DecidableEq, Repr

/-- What the driver has to know about a buffer. -/
structure PrivateHandle where
  ion_fd : Int
  usage_protected : Bool
  usage_secure : Bool
  is_video : Bool
  timestamp : Nat
  deriving DecidableEq, Repr

structure HWCLayer where
  m_id : Nat
  m_is_ct : Bool
  m_handle : Option Nat
  m_hwlayer_type : HwLayerType
  m_display_frame : Rect
  m_mdp_dst_roi : Rect
  m_layer_caps : Nat
  m_priv_hnd : PrivateHandle
  deriving DecidableEq, Repr

namespace HWCLayer

def getCompositionType (layer : HWCLayer) : Composition :=
  match layer.m_hwlayer_type with
  | .none => .invalid
  | .invalid => .client
  | .fbt | .ui | .mm | .dim | .mmHigh | .mmFbt | .uipqDebug | .uipq => .device
  | .cursor => .cursor
  | .wormhole => .device

/-- The display frame is not empty. -/
def hasFrame (layer : HWCLayer) : Bool :=
  layer.m_display_frame.left ≠ layer.m_display_frame.right ∧
    layer.m_display_frame.top ≠ layer.m_display_frame.bottom

/-- The test of `buildCommittedLayers`. -/
def isCommitted (layer : HWCLayer) : Bool :=
  layer.hasFrame ∧ ¬ layer.m_is_ct ∧
    (layer.getCompositionType = .device ∨ layer.getCompositionType = .cursor) ∧
    layer.m_hwlayer_type ≠ .wormhole

end HWCLayer

/-! ## Jobs -/

/-- A slot of the overlay. -/
structure HWLayer where
  enable : Bool
  index : Int
  type : HwLayerType
  hwc2_layer_id : Int
  ext_sel_layer : Int
  layer_caps : Nat
  mdp_dst_roi : Rect
  priv_handle : PrivateHandle
  deriving DecidableEq, Repr

/-- What the driver says about a layer. -/
structure LayerConfig where
  ovl_id : Int
  ext_sel_layer : Int
  deriving DecidableEq, Repr

structure LayerInfo where
  gles_head : Int
  gles_tail : Int
  layer_config_list : Nat → LayerConfig
  max_overlap_layer_num : Int

structure DispatcherJob where
  num_layers : Nat
  hw_layers : Nat → HWLayer
  layer_info : LayerInfo
  fbt_exist : Bool
  num_ui_layers : Nat
  num_mm_layers : Nat
  is_protect : Bool
  secure : Bool
  timestamp : Nat
  force_wait : Bool
  mm_fbt : Bool
  uipq_index : Int
  disp_mir_id : Int

/-- Write a slot. -/
def DispatcherJob.setHwLayer (job : DispatcherJob) (ovl_idx : Nat) (hw_layer : HWLayer) :
    DispatcherJob :=
  { job with hw_layers := fun s => if s = ovl_idx then hw_layer else job.hw_layers s }

/-! ## Displays -/

/-- The displays. -/
inductive DisplayId where
  | primary
  | external
  | virtual
  deriving DecidableEq, Repr

/-- What the platform, the dispatcher and the overlay of the display are set to. -/
structure Features where
  global_pq : Bool
  enable_smart_layer : Bool
  /-- `DISP_FEATURE_HRT`. -/
  hrt_from_driver : Bool
  /-- The display is an `HWC_DISPLAY_EPAPER`. -/
  epaper : Bool
  deriving DecidableEq, Repr

/-- `m_outbuf` is the handle of the output buffer, when there is a buffer. -/
structure HWCDisplay where
  m_disp_id : DisplayId
  m_is_connected : Bool
  m_mir_src : Int
  m_outbuf : Option (Option Nat)
  m_visible_layers : List HWCLayer
  m_committed_layers : List HWCLayer
  m_ct : HWCLayer
  m_gles_head : Int
  m_gles_tail : Int

def HWC_MIRROR_SOURCE_INVALID : Int := -1

/-- The index of a CLIENT layer, from the front and from the back. -/
def findGlesRange (layers : List HWCLayer) : Int × Int :=
  (match layers.findIdx? (·.getCompositionType = .client) with
    | some i => i
    | none => -1,
   match layers.reverse.findIdx? (·.getCompositionType = .client) with
    | some i => layers.length - i - 1
    | none => -1)

namespace HWCDisplay

variable (display : HWCDisplay)

/-- Layers of the range of the GPU are INVALID. -/
def setGlesRange (gles_head gles_tail : Int) : HWCDisplay :=
  let display := { display with m_gles_head := gles_head, m_gles_tail := gles_tail }
  if gles_head = -1 then display
  else
    let range := (display.m_visible_layers.take (gles_tail.toNat + 1)).drop gles_head.toNat
    let mark (layer : HWCLayer) : HWCLayer :=
      if layer.m_id ∈ range.map (·.m_id) then { layer with m_hwlayer_type := .invalid } else layer
    { display with
      m_visible_layers := display.m_visible_layers.map mark
      m_committed_layers := display.m_committed_layers.map mark }

def updateGlesRange : HWCDisplay :=
  if display.m_is_connected then
    let (gles_head, gles_tail) := findGlesRange display.m_visible_layers
    display.setGlesRange gles_head gles_tail
  else display

/-- The client target goes last. -/
def buildCommittedLayers : HWCDisplay :=
  let layers := display.m_visible_layers.filter HWCLayer.isCommitted
  { display with
    m_committed_layers :=
      if display.m_ct.m_handle.isSome then layers ++ [display.m_ct] else layers }

end HWCDisplay

/-! ## Filling the slots -/

section Filling

variable (f : Features) (display : HWCDisplay) (job : DispatcherJob)

/-- The slot of a layer, as `fillHwLayer` writes it. -/
def hwLayerOf (layer : HWCLayer) (layer_idx : Nat) (ext_sel_layer : Int)
    (before : HWLayer) : HWLayer where
  enable := ¬ (f.global_pq ∧ layer.m_hwlayer_type = .uipqDebug)
  index := layer_idx
  type :=
    if f.global_pq ∧ layer.m_hwlayer_type = .uipqDebug then .ui
    else if f.global_pq ∧ layer.m_hwlayer_type = .uipq then .mm
    else if layer.m_hwlayer_type = .mmHigh then .mm
    else layer.m_hwlayer_type
  hwc2_layer_id := layer.m_id
  ext_sel_layer := if f.enable_smart_layer then ext_sel_layer else -1
  layer_caps := layer.m_layer_caps
  mdp_dst_roi :=
    if layer.m_hwlayer_type = .mm ∨ layer.m_hwlayer_type = .uipq then layer.m_mdp_dst_roi
    else before.mdp_dst_roi
  priv_handle := layer.m_priv_hnd

/-- A slot that the overlay does not have is an `abort`. -/
def fillHwLayer (layer : HWCLayer) (ovl_idx : Int) (layer_idx : Nat) (ext_sel_layer : Int) :
    Option DispatcherJob :=
  if ovl_idx < 0 ∨ (job.num_layers : Int) ≤ ovl_idx then none
  else
    let filled := job.setHwLayer ovl_idx.toNat
      (hwLayerOf f layer layer_idx ext_sel_layer (job.hw_layers ovl_idx.toNat))
    if f.global_pq ∧ (layer.m_hwlayer_type = .uipqDebug ∨ layer.m_hwlayer_type = .uipq) then
      some { filled with uipq_index := layer_idx }
    else some filled

/-- What the job counts and collects of a layer. -/
def countLayer (layer : HWCLayer) : DispatcherJob :=
  let job := { job with
    is_protect := job.is_protect || layer.m_priv_hnd.usage_protected
    secure := job.secure || layer.m_priv_hnd.usage_secure
    timestamp := if layer.m_priv_hnd.is_video then layer.m_priv_hnd.timestamp else job.timestamp }
  match layer.m_hwlayer_type with
  | .ui | .dim | .cursor => { job with num_ui_layers := job.num_ui_layers + 1 }
  | .mmHigh => { job with force_wait := true, num_mm_layers := job.num_mm_layers + 1 }
  | .mm => { job with num_mm_layers := job.num_mm_layers + 1 }
  | .uipqDebug =>
    if f.global_pq then { job with num_ui_layers := job.num_ui_layers + 1 } else job
  | .uipq => if f.global_pq then { job with num_mm_layers := job.num_mm_layers + 1 } else job
  | _ => job

/-- The place in the driver's list that is read for a committed layer. -/
def hrtIdx (i : Nat) : Nat :=
  if display.m_gles_head = -1 ∨ (i : Int) < display.m_gles_head then i
  else (i + (display.m_gles_tail - display.m_gles_head + 1)).toNat

/-- The slot of a committed layer; `ovl_index` of the source is always `i`. -/
def ovlId (i : Nat) : Int :=
  if f.hrt_from_driver then (job.layer_info.layer_config_list (hrtIdx display i)).ovl_id
  else if display.m_gles_head = -1 ∨ (i : Int) < display.m_gles_head then i
  else i + 1

def extSelLayer (i : Nat) : Int :=
  if f.hrt_from_driver then
    (job.layer_info.layer_config_list (hrtIdx display i)).ext_sel_layer
  else -1

/-- The body of the loop of `setupHwcLayers`. -/
def setupHwcLayer (layer : HWCLayer) (i : Nat) : Option DispatcherJob :=
  if layer.m_is_ct then some job
  else
    (fillHwLayer f job layer (ovlId f display job i) i (extSelLayer f display job i)).map
      fun job => countLayer f job layer

/-- The loop of `setupHwcLayers` over the committed layers from the `i`-th. -/
def setupHwcLayersFrom (job : DispatcherJob) : List HWCLayer → Nat → Option DispatcherJob
  | [], _ => some job
  | layer :: layers, i =>
    (setupHwcLayer f display job layer i).bind fun job => setupHwcLayersFrom job layers (i + 1)

def setupHwcLayers : Option DispatcherJob :=
  setupHwcLayersFrom f display { job with num_ui_layers := 0, num_mm_layers := 0 }
    display.m_committed_layers 0

/-- The slot of the client target. -/
def fbtHwLayerIdx : Int :=
  if f.hrt_from_driver then
    (job.layer_info.layer_config_list display.m_gles_head.toNat).ovl_id
  else display.m_gles_head

/-- The slot of the client target, as `setupGlesLayers` writes it. -/
def fbtHwLayer (before : HWLayer) : HWLayer :=
  { before with
    enable := true
    index := display.m_committed_layers.length - 1
    type := if f.epaper then .mmFbt else .fbt
    ext_sel_layer :=
      if f.hrt_from_driver ∧ f.enable_smart_layer then
        (job.layer_info.layer_config_list display.m_gles_head.toNat).ext_sel_layer
      else -1
    priv_handle := display.m_ct.m_priv_hnd }

def setupGlesLayers : DispatcherJob :=
  if display.m_gles_head = -1 then { job with fbt_exist := false }
  else if display.m_ct.m_handle = none ∧ display.m_disp_id = .primary then
    { job with fbt_exist := false }
  else
    let slot := (fbtHwLayerIdx f display job).toNat
    let job := if f.epaper then { job with mm_fbt := true } else job
    ({ job with fbt_exist := true }).setHwLayer slot
      (fbtHwLayer f display job (job.hw_layers slot))

/-- The job of a display that mirrors another one. -/
def mirrorJob : DispatcherJob :=
  ({ job with
    fbt_exist := false
    num_ui_layers := 0
    num_mm_layers := 1
    disp_mir_id := display.m_mir_src }).setHwLayer 0
      { job.hw_layers 0 with enable := true, type := .mm }

/-- The layers count as overlapping unless that is known better. -/
def countOverlap : DispatcherJob :=
  if job.layer_info.max_overlap_layer_num = -1 then
    { job with
      layer_info := { job.layer_info with
        max_overlap_layer_num :=
          job.num_ui_layers + job.num_mm_layers + (if job.fbt_exist then 1 else 0) } }
  else job

end Filling

/-- `beforePresent`, with the display and the job after it; an `abort` has neither. -/
def HWCDisplay.beforePresent (f : Features) (display : HWCDisplay) (job : DispatcherJob) :
    Option (HWCDisplay × DispatcherJob) :=
  if display.m_disp_id = .virtual ∧ (display.m_outbuf.bind id) = none then some (display, job)
  else
    let display := display.updateGlesRange
    let job := { job with
      layer_info := { job.layer_info with
        gles_head := display.m_gles_head
        gles_tail := display.m_gles_tail } }
    if display.m_mir_src ≠ -1 then some (display, countOverlap (mirrorJob display job))
    else
      (setupHwcLayers f display job).map fun job =>
        let job := { setupGlesLayers f display job with disp_mir_id := HWC_MIRROR_SOURCE_INVALID }
        (display, countOverlap { job with force_wait := job.force_wait && job.num_ui_layers ≠ 0 })

end MtkHw.Hwc
