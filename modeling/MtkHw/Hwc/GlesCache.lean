import MtkHw.Hwc.BufferQueue
import MtkHw.Lib.Machine
import Mathlib.Algebra.Order.Ring.Int

/-!
# The cache of the GPU composition

`CacheBase::layerHit` decides whether the framebuffer target of an earlier frame can be shown again:
it compares the layers that the GPU is to compose with those it composed last.  Each present layer
is looked up among the saved ones, so their order is not compared, and what is compared is an
encoding of their attributes (`HitCompare`) from which the blending mode and the fractions of the
source crop are lost.

A run is a sequence of frames.  The history is the last frame that was not a hit, which is the one
the target was composed from, and `Fresh` says that a hit shows its picture.
-/

namespace MtkHw.Hwc

open Lib

/-! ## Layers and what is saved of them -/

/-- `hwc_frect`; the floats are finite. -/
structure FRect where
  left : Rat
  top : Rat
  right : Rat
  bottom : Rat
  deriving DecidableEq

def HWC_BLENDING_NONE : Int := 0x0100

/-- `hwc_layer_1`; `skip` is the flag `HWC_SKIP_LAYER`. -/
structure Layer1 where
  handle : Option Nat
  skip : Bool
  sourceCropf : FRect
  displayFrame : Rect
  transform : UInt32
  planeAlpha : UInt8
  blending : Int
  deriving DecidableEq

/-- `HitCompare`, the fields that are compared. -/
structure HitCompare where
  handle : Option Nat
  src_crop : Rect
  dst_crop : Rect
  curr_orient : UInt32
  curr_alpha : Nat
  curr_blend : Nat
  deriving DecidableEq

namespace Layer1

variable (layer : Layer1)

def getSrcLeft : Int := layer.sourceCropf.left.ceil

def getSrcTop : Int := layer.sourceCropf.top.ceil

def getSrcWidth : Int := layer.sourceCropf.right.floor - layer.sourceCropf.left.ceil

def getSrcHeight : Int := layer.sourceCropf.bottom.floor - layer.sourceCropf.top.ceil

/-- `b` as a C number. -/
def ofBool (b : Bool) : Nat := if b then 1 else 0

/-- What is saved of a layer; the three masks are joined to the blending mode with `&&`. -/
def compare : HitCompare where
  handle := layer.handle
  src_crop := ⟨layer.getSrcLeft, layer.getSrcTop, layer.getSrcLeft + layer.getSrcWidth,
    layer.getSrcTop + layer.getSrcHeight⟩
  dst_crop := ⟨layer.displayFrame.left, layer.displayFrame.top,
    layer.displayFrame.left + (layer.displayFrame.right - layer.displayFrame.left),
    layer.displayFrame.top + (layer.displayFrame.bottom - layer.displayFrame.top)⟩
  curr_orient := layer.transform <<< 12
  curr_alpha := layer.planeAlpha.toNat <<< 16
  curr_blend := (ofBool (layer.blending ≠ 0 && (0x100 : Nat) ≠ 0) +
    ofBool (layer.blending ≠ 0 && (0x004 : Nat) ≠ 0) +
    ofBool (layer.blending ≠ 0 && (0x001 : Nat) ≠ 0)) <<< 24

/-- The cache cannot be used for the layer. -/
def isUncached : Bool := layer.skip || layer.handle.isNone

end Layer1

/-! ## The cache -/

/-- `m_current_hitlayer_info`. -/
structure HitLayerList where
  gles_layer_count : Int
  current_layer_vector : List HitCompare

def HitLayerList.empty : HitLayerList := ⟨0, []⟩

/-- `m_features` of the mediator. -/
structure CacheFeatures where
  cache_caps : Nat
  cache_mode : Nat

def HWC_FEATURES_CACHE_CAPS_GPU_PASSIVE : Nat := 0x00000001

def HWC_FEATURES_CACHE_MODE_GPU_PASSIVE : Nat := 0x00000001

/-- The platform supports the cache and it is switched on. -/
def CacheFeatures.enabled (f : CacheFeatures) : Bool :=
  f.cache_caps &&& HWC_FEATURES_CACHE_CAPS_GPU_PASSIVE ≠ 0 ∧
    f.cache_mode &&& HWC_FEATURES_CACHE_MODE_GPU_PASSIVE ≠ 0

/-- The layers at the indices from `head` to `tail`. -/
def slice (layers : List Layer1) (head tail : Int) : List Layer1 :=
  (layers.take (tail + 1).toNat).drop head.toNat

/-- The variables of the loop over the layers of the GPU. -/
structure HitScan where
  info : HitLayerList
  saved_hitlayer_info : List HitCompare
  prev_hit_count : Nat
  hit_count : Nat

/-- The layer is one of those saved; the search ends at once when the numbers of layers differ. -/
def layerHits (info : HitLayerList) (saved_gles_layer_count : Int) (prev_hit_count : Nat)
    (compare : HitCompare) : Bool :=
  if 0 < saved_gles_layer_count ∧ 0 < info.gles_layer_count ∧
      saved_gles_layer_count ≠ info.gles_layer_count then false
  else
    (info.current_layer_vector.take prev_hit_count).any fun prev_compare =>
      compare.handle = prev_compare.handle ∧ compare.handle ≠ none ∧ prev_compare.handle ≠ none ∧
        compare.src_crop = prev_compare.src_crop ∧ compare.dst_crop = prev_compare.dst_crop ∧
        compare.curr_orient = prev_compare.curr_orient ∧
        compare.curr_alpha = prev_compare.curr_alpha ∧
        compare.curr_blend = prev_compare.curr_blend

/-- The loop over the layers of the GPU. -/
def scanLayers (saved_gles_layer_count : Int) : List Layer1 → HitScan → HitScan
  | [], scan => scan
  | layer :: layers, scan =>
    if layer.isUncached then ⟨.empty, [], 0, 0⟩
    else
      scanLayers saved_gles_layer_count layers
        { scan with
          hit_count :=
            if layerHits scan.info saved_gles_layer_count scan.prev_hit_count layer.compare then
              scan.hit_count + 1
            else scan.hit_count
          saved_hitlayer_info := scan.saved_hitlayer_info ++ [layer.compare] }

/-- `CacheBase::layerHit`; the last layer of the list is the framebuffer target. -/
def layerHit (f : CacheFeatures) (info : HitLayerList) (hwLayers : List Layer1)
    (gles_head gles_tail : Int) : HitLayerList × Bool :=
  if ¬ f.enabled then (.empty, false)
  else
    let layers_num : Int := hwLayers.length - 1
    if gles_head = -1 then (.empty, false)
    else
      let saved_gles_layer_count := gles_tail - gles_head + 1
      if (slice hwLayers (gles_tail + 1) (layers_num - 1)).any (·.blending = HWC_BLENDING_NONE) then
        (.empty, false)
      else
        let scan := scanLayers saved_gles_layer_count (slice hwLayers gles_head gles_tail)
          ⟨info, [], info.current_layer_vector.length, 0⟩
        if scan.hit_count = scan.prev_hit_count ∧ 0 < scan.hit_count ∧ 0 < scan.prev_hit_count ∧
            0 < saved_gles_layer_count ∧ 0 < scan.info.gles_layer_count ∧
            saved_gles_layer_count = scan.info.gles_layer_count then
          ({ scan.info with gles_layer_count := saved_gles_layer_count }, true)
        else
          (⟨saved_gles_layer_count, scan.saved_hitlayer_info⟩, false)

/-! ## Frames -/

/-- A frame, with the range of the layers of the GPU. -/
structure GlesFrame where
  hwLayers : List Layer1
  gles_head : Int
  gles_tail : Int
  range : gles_head = -1 ∨
    0 ≤ gles_head ∧ gles_head ≤ gles_tail ∧ gles_tail < (hwLayers.length : Int) - 1

namespace GlesFrame

variable (frame : GlesFrame)

/-- The layers that the GPU is to compose. -/
def gles : List Layer1 :=
  if frame.gles_head = -1 then [] else slice frame.hwLayers frame.gles_head frame.gles_tail

/-- Another frame can be compared with the frame: there are layers for the GPU, each of them has a
buffer, and no opaque layer lies on top. -/
def Cachable : Prop :=
  frame.gles_head ≠ -1 ∧
    (∀ layer ∈ slice frame.hwLayers (frame.gles_tail + 1) (frame.hwLayers.length - 1 - 1),
      layer.blending ≠ HWC_BLENDING_NONE) ∧
    ∀ layer ∈ frame.gles, layer.isUncached = false

instance : Decidable frame.Cachable := by
  unfold Cachable
  infer_instance

theorem length_gles (h : frame.gles_head ≠ -1) :
    (frame.gles.length : Int) = frame.gles_tail - frame.gles_head + 1 := by
  obtain hnone | ⟨hlow, hle, hhigh⟩ := frame.range
  · exact absurd hnone h
  · rw [gles, if_neg h, slice, List.length_drop, List.length_take]
    omega

end GlesFrame

/-! ## Pictures -/

/-- What a layer shows. -/
structure Picture where
  handle : Option Nat
  sourceCropf : FRect
  displayFrame : Rect
  transform : UInt32
  planeAlpha : UInt8
  blending : Int
  deriving DecidableEq

/-- What the encoding of a layer does not tell. -/
structure Detail where
  sourceCropf : FRect
  transform : UInt32
  blending : Int
  deriving DecidableEq

namespace Layer1

def picture (layer : Layer1) : Picture :=
  ⟨layer.handle, layer.sourceCropf, layer.displayFrame, layer.transform, layer.planeAlpha,
    layer.blending⟩

def detail (layer : Layer1) : Detail := ⟨layer.sourceCropf, layer.transform, layer.blending⟩

/-- The encoding depends on the picture. -/
theorem compare_of_picture {a b : Layer1} (h : a.picture = b.picture) :
    a.compare = b.compare ∧ a.detail = b.detail := by
  cases a
  cases b
  cases h
  exact ⟨rfl, rfl⟩

/-- The display frame is compared as it is. -/
theorem dst_crop_eq (layer : Layer1) : layer.compare.dst_crop = layer.displayFrame := by
  rw [compare, add_sub_cancel, add_sub_cancel]

/-- With the detail that it does not tell, it tells the picture. -/
theorem picture_of_compare {a b : Layer1} (hc : a.compare = b.compare)
    (hd : a.detail = b.detail) : a.picture = b.picture := by
  have hcrop : a.sourceCropf = b.sourceCropf := congrArg Detail.sourceCropf hd
  have htransform : a.transform = b.transform := congrArg Detail.transform hd
  have hblending : a.blending = b.blending := congrArg Detail.blending hd
  have hhandle : a.handle = b.handle := congrArg HitCompare.handle hc
  have halpha : a.planeAlpha = b.planeAlpha := by
    have hshift : a.planeAlpha.toNat <<< 16 = b.planeAlpha.toNat <<< 16 :=
      congrArg HitCompare.curr_alpha hc
    rw [Nat.shiftLeft_eq, Nat.shiftLeft_eq] at hshift
    exact UInt8.toNat_inj.mp (Nat.eq_of_mul_eq_mul_right (by decide) hshift)
  have hframe : a.displayFrame = b.displayFrame := by
    rw [← dst_crop_eq a, ← dst_crop_eq b, hc]
  rw [picture, picture, hhandle, hcrop, hframe, htransform, halpha, hblending]

/-- Pictures position by position. -/
theorem map_picture_eq_iff {as bs : List Layer1} :
    as.map picture = bs.map picture ↔
      as.map compare = bs.map compare ∧ as.map detail = bs.map detail := by
  induction as generalizing bs with
  | nil =>
    cases bs with
    | nil => exact iff_of_true rfl ⟨rfl, rfl⟩
    | cons b bs => exact iff_of_false nofun fun h => absurd h.1 nofun
  | cons a as ih =>
    cases bs with
    | nil => exact iff_of_false nofun fun h => absurd h.1 nofun
    | cons b bs =>
      simp only [List.map_cons, List.cons.injEq]
      constructor
      · rintro ⟨hhead, htail⟩
        obtain ⟨hc, hd⟩ := compare_of_picture hhead
        exact ⟨⟨hc, (ih.mp htail).1⟩, hd, (ih.mp htail).2⟩
      · rintro ⟨⟨hc, hcs⟩, hd, hds⟩
        exact ⟨picture_of_compare hc hd, ih.mpr ⟨hcs, hds⟩⟩

end Layer1

/-! ## Hits -/

/-- As many layers as the other frame, and each of them is taken for one of its layers. -/
def GlesFrame.Covered (frame last : GlesFrame) : Prop :=
  frame.gles.length = last.gles.length ∧
    ∀ layer ∈ frame.gles, ∃ other ∈ last.gles, layer.compare = other.compare

/-- What the cache holds after the frame that was composed last. -/
def Remembers (info : HitLayerList) : Option GlesFrame → Prop
  | none => info.current_layer_vector = []
  | some last =>
    if last.Cachable then
      info.gles_layer_count = last.gles.length ∧
        info.current_layer_vector = last.gles.map Layer1.compare
    else info.current_layer_vector = []

/-- The loop forgets everything at a layer that cannot be cached. -/
theorem scanLayers_uncached {n : Int} {layers : List Layer1} {scan : HitScan}
    (h : ∃ layer ∈ layers, layer.isUncached = true) :
    scanLayers n layers scan = ⟨.empty, [], 0, 0⟩ := by
  induction layers generalizing scan with
  | nil =>
    obtain ⟨layer, hmem, -⟩ := h
    exact absurd hmem List.not_mem_nil
  | cons layer layers ih =>
    rw [scanLayers]
    split
    · rfl
    · rename_i hcached
      refine ih ?_
      obtain ⟨other, hmem, hun⟩ := h
      rcases List.mem_cons.mp hmem with rfl | hmem
      · exact absurd hun hcached
      · exact ⟨other, hmem, hun⟩

/-- Otherwise it counts the hits and saves all the layers. -/
theorem scanLayers_cached {n : Int} {layers : List Layer1} {scan : HitScan}
    (h : ∀ layer ∈ layers, layer.isUncached = false) :
    scanLayers n layers scan =
      { scan with
        hit_count := scan.hit_count +
          layers.countP fun layer => layerHits scan.info n scan.prev_hit_count layer.compare
        saved_hitlayer_info := scan.saved_hitlayer_info ++ layers.map Layer1.compare } := by
  induction layers generalizing scan with
  | nil => rw [scanLayers, List.countP_nil, List.map_nil, List.append_nil, Nat.add_zero]
  | cons layer layers ih =>
    have hcached : ¬ layer.isUncached = true := by
      rw [h layer List.mem_cons_self]
      exact Bool.false_ne_true
    rw [scanLayers, if_neg hcached, ih fun other hmem => h other (List.mem_cons_of_mem _ hmem)]
    simp only [List.countP_cons, List.map_cons, List.append_assoc, List.singleton_append]
    split <;> simp only [Nat.add_zero, Nat.add_comm 1, Nat.add_assoc]

/-- A layer hits when it is taken for one of those saved. -/
theorem layerHits_iff {n : Int} {last : GlesFrame} {info : HitLayerList} {layer : Layer1}
    (hvector : info.current_layer_vector = last.gles.map Layer1.compare)
    (hn : n = info.gles_layer_count) (hlayer : layer.isUncached = false) :
    layerHits info n info.current_layer_vector.length layer.compare = true ↔
      ∃ other ∈ last.gles, layer.compare = other.compare := by
  have hsame : ¬ (0 < n ∧ 0 < info.gles_layer_count ∧ n ≠ info.gles_layer_count) := fun h =>
    h.2.2 hn
  have hhandle : layer.compare.handle ≠ none := by
    intro hnone
    have hisNone : layer.handle.isNone = true := by
      change layer.handle = none at hnone
      rw [hnone]
      rfl
    rw [Layer1.isUncached, hisNone, Bool.or_true] at hlayer
    exact Bool.false_ne_true hlayer.symm
  rw [layerHits, if_neg hsame, List.take_length, hvector, List.any_map, List.any_eq_true]
  constructor
  · rintro ⟨other, hmem, hother⟩
    obtain ⟨h1, -, -, h2, h3, h4, h5, h6⟩ := of_decide_eq_true hother
    refine ⟨other, hmem, ?_⟩
    cases hl : layer.compare
    cases ho : other.compare
    simp only [hl, ho] at h1 h2 h3 h4 h5 h6
    rw [h1, h2, h3, h4, h5, h6]
  · rintro ⟨other, hmem, hother⟩
    refine ⟨other, hmem, decide_eq_true ?_⟩
    rw [← hother]
    exact ⟨rfl, hhandle, hhandle, rfl, rfl, rfl, rfl, rfl⟩

section Hit

variable {f : CacheFeatures} {info : HitLayerList} {last : Option GlesFrame} {frame : GlesFrame}

/-- A call with the cache switched on, for a frame that can be compared. -/
theorem layerHit_cachable (hf : f.enabled = true) (hframe : frame.Cachable) :
    layerHit f info frame.hwLayers frame.gles_head frame.gles_tail =
      let n : Int := frame.gles.length
      let hits := frame.gles.countP fun layer =>
        layerHits info n info.current_layer_vector.length layer.compare
      if hits = info.current_layer_vector.length ∧ 0 < hits ∧
          0 < info.current_layer_vector.length ∧ 0 < n ∧ 0 < info.gles_layer_count ∧
          n = info.gles_layer_count then
        (⟨n, info.current_layer_vector⟩, true)
      else (⟨n, frame.gles.map Layer1.compare⟩, false) := by
  obtain ⟨hhead, htop, hcached⟩ := hframe
  have hopaque : ¬ (slice frame.hwLayers (frame.gles_tail + 1)
      ((frame.hwLayers.length : Int) - 1 - 1)).any (·.blending = HWC_BLENDING_NONE) = true := by
    rw [List.any_eq_true]
    rintro ⟨layer, hmem, hnone⟩
    exact htop layer hmem (of_decide_eq_true hnone)
  have hslice : slice frame.hwLayers frame.gles_head frame.gles_tail = frame.gles :=
    (if_neg hhead).symm
  rw [layerHit, if_neg (not_not.mpr hf), if_neg hhead, if_neg hopaque, hslice,
    scanLayers_cached hcached, ← frame.length_gles hhead]
  simp only [Nat.zero_add, List.nil_append]

/-- A call with the cache switched on, for a frame that cannot be compared. -/
theorem layerHit_uncachable (info : HitLayerList) (hf : f.enabled = true) (hframe : ¬ frame.Cachable) :
    ∃ n, layerHit f info frame.hwLayers frame.gles_head frame.gles_tail = (⟨n, []⟩, false) := by
  rw [layerHit, if_neg (not_not.mpr hf)]
  by_cases hhead : frame.gles_head = -1
  · rw [if_pos hhead]
    exact ⟨0, rfl⟩
  · rw [if_neg hhead]
    dsimp only
    split
    · exact ⟨0, rfl⟩
    · rename_i hopaque
      have htop : ∀ layer ∈ slice frame.hwLayers (frame.gles_tail + 1)
          (frame.hwLayers.length - 1 - 1), layer.blending ≠ HWC_BLENDING_NONE :=
        fun layer hmem hnone => hopaque (List.any_eq_true.mpr ⟨layer, hmem, decide_eq_true hnone⟩)
      have hslice : slice frame.hwLayers frame.gles_head frame.gles_tail = frame.gles :=
        (if_neg hhead).symm
      have huncached : ∃ layer ∈ frame.gles, layer.isUncached = true := by
        by_contra hnone
        refine hframe ⟨hhead, htop, fun layer hmem => ?_⟩
        exact Bool.eq_false_of_not_eq_true fun hun => hnone ⟨layer, hmem, hun⟩
      rw [hslice, scanLayers_uncached huncached, if_neg fun h => absurd h.2.1 (Nat.lt_irrefl 0)]
      exact ⟨_, rfl⟩

/-- A hit, in terms of the frames. -/
theorem layerHit_iff (hf : f.enabled = true) (hinfo : Remembers info last) :
    (layerHit f info frame.hwLayers frame.gles_head frame.gles_tail).2 = true ↔
      frame.Cachable ∧ ∃ composed, last = some composed ∧ composed.Cachable ∧
        frame.Covered composed := by
  by_cases hframe : frame.Cachable
  · rw [layerHit_cachable hf hframe]
    have hpos : 0 < (frame.gles.length : Int) := by
      obtain hnone | ⟨hlow, hle, -⟩ := frame.range
      · exact absurd hnone hframe.1
      · rw [frame.length_gles hframe.1]
        omega
    dsimp only
    constructor
    · intro hhit
      split at hhit
      · rename_i hcond
        obtain ⟨hall, -, hvector, -, -, hcount⟩ := hcond
        refine ⟨hframe, ?_⟩
        cases last with
        | none =>
          rw [show info.current_layer_vector = [] from hinfo] at hvector
          exact absurd hvector (Nat.lt_irrefl 0)
        | some composed =>
          rw [Remembers] at hinfo
          split at hinfo
          · rename_i hcomposed
            refine ⟨composed, rfl, hcomposed, ?_, ?_⟩
            · exact Int.ofNat_inj.mp (hcount.trans hinfo.1)
            · intro layer hmem
              have hlength : info.current_layer_vector.length = frame.gles.length := by
                rw [hinfo.2, List.length_map]
                exact (Int.ofNat_inj.mp (hcount.trans hinfo.1)).symm
              have hevery := List.countP_eq_length.mp (hall.trans hlength) layer hmem
              exact (layerHits_iff hinfo.2 hcount (hframe.2.2 layer hmem)).mp hevery
          · rw [hinfo] at hvector
            exact absurd hvector (Nat.lt_irrefl 0)
      · exact absurd hhit Bool.false_ne_true
    · rintro ⟨-, composed, rfl, hcomposed, hlength, hcovered⟩
      rw [Remembers, if_pos hcomposed] at hinfo
      obtain ⟨hcount, hvector⟩ := hinfo
      have hn : (frame.gles.length : Int) = info.gles_layer_count := by
        rw [hcount, hlength]
      have hall : (frame.gles.countP fun layer =>
          layerHits info frame.gles.length info.current_layer_vector.length layer.compare) =
            frame.gles.length :=
        List.countP_eq_length.mpr fun layer hmem =>
          (layerHits_iff hvector hn (hframe.2.2 layer hmem)).mpr (hcovered layer hmem)
      have hsize : info.current_layer_vector.length = frame.gles.length := by
        rw [hvector, List.length_map, hlength]
      rw [hall, if_pos]
      refine ⟨hsize.symm, ?_, ?_, hpos, ?_, hn⟩
      all_goals omega
  · obtain ⟨n, hmiss⟩ := layerHit_uncachable info hf hframe
    rw [hmiss]
    exact iff_of_false Bool.false_ne_true fun h => hframe h.1

/-- A hit leaves what is remembered as it is. -/
theorem remembers_of_hit (hf : f.enabled = true) (hinfo : Remembers info last)
    (hhit : (layerHit f info frame.hwLayers frame.gles_head frame.gles_tail).2 = true) :
    Remembers (layerHit f info frame.hwLayers frame.gles_head frame.gles_tail).1 last := by
  have hframe := ((layerHit_iff hf hinfo).mp hhit).1
  rw [layerHit_cachable hf hframe] at hhit ⊢
  dsimp only at hhit ⊢
  split at hhit
  · rename_i hcond
    rw [if_pos hcond, hcond.2.2.2.2.2]
    exact hinfo
  · exact absurd hhit Bool.false_ne_true

/-- A frame that is no hit is remembered. -/
theorem remembers_of_miss (hf : f.enabled = true)
    (hmiss : (layerHit f info frame.hwLayers frame.gles_head frame.gles_tail).2 = false) :
    Remembers (layerHit f info frame.hwLayers frame.gles_head frame.gles_tail).1
      (some frame) := by
  by_cases hframe : frame.Cachable
  · rw [layerHit_cachable hf hframe] at hmiss ⊢
    dsimp only at hmiss ⊢
    split at hmiss
    · exact absurd hmiss.symm Bool.false_ne_true
    · rename_i hcond
      rw [if_neg hcond, Remembers, if_pos hframe]
      exact ⟨rfl, rfl⟩
  · obtain ⟨n, heq⟩ := layerHit_uncachable info hf hframe
    rw [heq, Remembers, if_neg hframe]

end Hit

/-! ## Sequences of frames -/

/-- The cache, the last frame that was no hit, and the last frame if it was a hit. -/
structure GlesSession where
  info : HitLayerList
  composed : Option GlesFrame
  hit : Option GlesFrame

/-- A call for a frame, and what becomes of the history. -/
def GlesSession.next (f : CacheFeatures) (s : GlesSession) (frame : GlesFrame) : GlesSession :=
  let called := layerHit f s.info frame.hwLayers frame.gles_head frame.gles_tail
  if called.2 then ⟨called.1, s.composed, some frame⟩ else ⟨called.1, some frame, none⟩

/-- The cache that is given frames. -/
def glesSession (f : CacheFeatures) : Machine GlesSession GlesFrame where
  init := ⟨.empty, none, none⟩
  step s frame := some (s.next f frame)

/-- A hit shows the picture that was composed last. -/
def GlesSession.Fresh (s : GlesSession) : Prop :=
  ∀ frame, s.hit = some frame → ∃ composed, s.composed = some composed ∧
    frame.gles.map Layer1.picture = composed.gles.map Layer1.picture

/-- If the layers of the frame are each taken for one of those composed last, they stand at the
places of those and differ in nothing that the encoding does not tell. -/
def GlesSession.InPlace (s : GlesSession) (frame : GlesFrame) : Prop :=
  ∀ composed, s.composed = some composed → composed.Cachable → frame.Cachable →
    frame.Covered composed →
      frame.gles.map Layer1.compare = composed.gles.map Layer1.compare ∧
        frame.gles.map Layer1.detail = composed.gles.map Layer1.detail

section Session

variable {f : CacheFeatures}

/-- A step, by whether it is a hit. -/
theorem glesSession_step {s s' : GlesSession} {frame : GlesFrame}
    (h : (glesSession f).step s frame = some s') :
    (layerHit f s.info frame.hwLayers frame.gles_head frame.gles_tail).2 = true ∧
        s' = ⟨(layerHit f s.info frame.hwLayers frame.gles_head frame.gles_tail).1, s.composed,
          some frame⟩ ∨
      (layerHit f s.info frame.hwLayers frame.gles_head frame.gles_tail).2 = false ∧
        s' = ⟨(layerHit f s.info frame.hwLayers frame.gles_head frame.gles_tail).1, some frame,
          none⟩ := by
  have hs' : s.next f frame = s' := Option.some.inj h
  rw [GlesSession.next] at hs'
  cases hhit : (layerHit f s.info frame.hwLayers frame.gles_head frame.gles_tail).2 with
  | true =>
    rw [hhit, if_pos rfl] at hs'
    exact .inl ⟨rfl, hs'.symm⟩
  | false =>
    rw [hhit, if_neg Bool.false_ne_true] at hs'
    exact .inr ⟨rfl, hs'.symm⟩

/-- The cache holds what was composed last. -/
theorem glesSession_remembers (hf : f.enabled = true) {s s' : GlesSession} {frame : GlesFrame}
    (hinfo : Remembers s.info s.composed) (h : (glesSession f).step s frame = some s') :
    Remembers s'.info s'.composed := by
  rcases glesSession_step h with ⟨hhit, rfl⟩ | ⟨hmiss, rfl⟩
  · exact remembers_of_hit hf hinfo hhit
  · exact remembers_of_miss hf hmiss

/-- A step shows a stale picture exactly if the layers are not in place. -/
theorem glesSession_fresh (hf : f.enabled = true) {s s' : GlesSession} {frame : GlesFrame}
    (hinfo : Remembers s.info s.composed) (h : (glesSession f).step s frame = some s') :
    s'.Fresh ↔ s.InPlace frame := by
  rcases glesSession_step h with ⟨hhit, rfl⟩ | ⟨hmiss, rfl⟩
  · obtain ⟨hframe, composed, hlast, hcomposed, hcovered⟩ := (layerHit_iff hf hinfo).mp hhit
    constructor
    · intro hfresh other hother _ _ _
      obtain ⟨shown, hshown, hpicture⟩ := hfresh frame rfl
      obtain rfl : other = shown := Option.some.inj (hother.symm.trans hshown)
      exact Layer1.map_picture_eq_iff.mp hpicture
    · intro hplace frame' hframe'
      cases hframe'
      exact ⟨composed, hlast, Layer1.map_picture_eq_iff.mpr
        (hplace composed hlast hcomposed hframe hcovered)⟩
  · refine iff_of_true nofun fun composed hlast hcomposed hframe hcovered => ?_
    have hhit := (layerHit_iff hf hinfo).mpr ⟨hframe, composed, hlast, hcomposed, hcovered⟩
    rw [hmiss] at hhit
    exact absurd hhit Bool.false_ne_true

end Session

/-- No hit of a run shows a stale picture exactly if in every frame the layers that are taken for
those composed last are in place. -/
theorem glesSession_fresh_iff (f : CacheFeatures) (hf : f.enabled = true)
    (frames : List GlesFrame) :
    (glesSession f).Along GlesSession.Fresh (glesSession f).init frames ↔
      (glesSession f).Meets GlesSession.InPlace (glesSession f).init frames := by
  have htotal : ∀ s frame, ∃ s', (glesSession f).step s frame = some s' := fun s frame =>
    ⟨_, rfl⟩
  have hinv : ∀ s frame s', Remembers s.info s.composed →
      (glesSession f).step s frame = some s' → Remembers s'.info s'.composed :=
    fun s frame s' hinfo h => glesSession_remembers hf hinfo h
  have hkeeps : ∀ s frame s', Remembers s.info s.composed → s.Fresh →
      (glesSession f).step s frame = some s' → (s'.Fresh ↔ s.InPlace frame) :=
    fun s frame s' hinfo _ h => glesSession_fresh hf hinfo h
  have hinit : Remembers (glesSession f).init.info (glesSession f).init.composed := rfl
  have hfresh : (glesSession f).init.Fresh := fun frame h => absurd h nofun
  exact (glesSession f).along_iff_meets htotal hinv hkeeps hinit hfresh frames

/-- A layer without a crop. -/
def plainLayer (handle : Nat) (blending : Int) : Layer1 where
  handle := some handle
  skip := false
  sourceCropf := ⟨0, 0, 10, 10⟩
  displayFrame := ⟨0, 0, 10, 10⟩
  transform := 0
  planeAlpha := 255
  blending := blending

/-- A frame of two layers for the GPU and the framebuffer target. -/
def frameOf (lower upper : Layer1) : GlesFrame where
  hwLayers := [lower, upper, plainLayer 9 HWC_BLENDING_NONE]
  gles_head := 0
  gles_tail := 1
  range := .inr ⟨by decide, by decide, by
    change (1 : Int) < 3 - 1
    decide⟩

/-- The same frame twice. -/
theorem glesSession_fresh_twice :
    (glesSession ⟨1, 1⟩).Along GlesSession.Fresh (glesSession ⟨1, 1⟩).init
        [frameOf (plainLayer 1 0x105) (plainLayer 2 0x105),
          frameOf (plainLayer 1 0x105) (plainLayer 2 0x105)] ↔
      (glesSession ⟨1, 1⟩).Meets GlesSession.InPlace (glesSession ⟨1, 1⟩).init
        [frameOf (plainLayer 1 0x105) (plainLayer 2 0x105),
          frameOf (plainLayer 1 0x105) (plainLayer 2 0x105)] :=
  glesSession_fresh_iff ⟨1, 1⟩ rfl _

/-- Two layers that change places are a hit, and so is a layer that changes its blending mode. -/
theorem glesSession_stale :
    ¬ (glesSession ⟨1, 1⟩).Along GlesSession.Fresh (glesSession ⟨1, 1⟩).init
        [frameOf (plainLayer 1 0x105) (plainLayer 2 0x105),
          frameOf (plainLayer 2 0x105) (plainLayer 1 0x105)] ∧
      ¬ (glesSession ⟨1, 1⟩).Along GlesSession.Fresh (glesSession ⟨1, 1⟩).init
        [frameOf (plainLayer 1 0x105) (plainLayer 2 0x105),
          frameOf (plainLayer 1 0x105) (plainLayer 2 0x405)] := by
  constructor
  · intro h
    obtain ⟨composed, hcomposed, hpicture⟩ := (h.2 _ rfl).2 _ rfl _ rfl
    cases hcomposed
    exact absurd hpicture (by decide)
  · intro h
    obtain ⟨composed, hcomposed, hpicture⟩ := (h.2 _ rfl).2 _ rfl _ rfl
    cases hcomposed
    exact absurd hpicture (by decide)

end MtkHw.Hwc
