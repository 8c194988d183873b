import Mathlib.Data.Fin.VecNotation
import Mathlib.Data.Rat.Floor
import MtkHw.Lib.Placement
import Mathlib.Data.Int.ConditionallyCompleteOrder

/-!
# The crop of a transformed blit

A blit takes a rectangle of the source to a rectangle of the destination, flipped and
turned.  Where the destination's buffer cuts the rectangle, `calculateCrop` cuts the
source by the same part: it takes the destination back by a transform, and scales what
is cut there to the source.  The transform shall be the inverse of the blit's; for a
turn it changes both flips, which is the inverse when both axes are flipped or none.

Floats are taken as exact rationals.
-/

namespace MtkHw.Hwc.BlitCrop

open MtkHw.Placement

/-! ## Transforms -/

abbrev Rect := Box Int

def flipH : UInt32 := 1
def flipV : UInt32 := 2
def rot90 : UInt32 := 4
def rotInvalid : UInt32 := 0x80

def identityType : UInt32 := 0
def translateType : UInt32 := 1
def rotateType : UInt32 := 2
def scaleType : UInt32 := 4
def unknownType : UInt32 := 0x80000000

/-- A transform: the columns of its matrix, and what kind it is of. -/
structure Transform where
  mMatrix : Fin 3 → Fin 3 → ℚ
  mType : UInt32

namespace Transform

def reset : Transform := ⟨fun i j => if i = j then 1 else 0, identityType⟩

/-- The product of the matrices, unless one of them is the identity. -/
def mul (a b : Transform) : Transform :=
  if a.mType = identityType then b
  else if b.mType = identityType then a
  else
    { mMatrix := fun k i =>
        a.mMatrix 0 i * b.mMatrix k 0 + a.mMatrix 1 i * b.mMatrix k 1 +
          a.mMatrix 2 i * b.mMatrix k 2
      mType := ((a.mType ||| b.mType) &&& 0xFF) ||| unknownType }

/-- What a translation adds to the kind. -/
def translation (w : ℚ) : UInt32 := if w = 0 then identityType else translateType

/-- The transform of some flags, for an area of the size `w`, `h`. -/
def set (flags : UInt32) (w h : ℚ) : Transform :=
  if flags &&& rotInvalid ≠ 0 then reset
  else
    let size := if flags &&& rot90 ≠ 0 then (h, w) else (w, h)
    let hor :=
      if flags &&& flipH ≠ 0 then
        ⟨![![-1, 0, 0], ![0, 1, 0], ![size.1, 0, 1]],
          (flipH <<< 8) ||| scaleType ||| translation size.1⟩
      else reset
    let ver :=
      if flags &&& flipV ≠ 0 then
        ⟨![![1, 0, 0], ![0, -1, 0], ![0, size.2, 1]],
          (flipV <<< 8) ||| scaleType ||| translation size.2⟩
      else reset
    let rot :=
      if flags &&& rot90 ≠ 0 then
        ⟨![![0, 1, 0], ![-1, 0, 0], ![size.2, 0, 1]],
          (rot90 <<< 8) ||| rotateType ||| translation size.2⟩
      else reset
    rot.mul (hor.mul ver)

/-- `Transform(orientation)`. -/
def ofOrientation (flags : UInt32) : Transform := set flags 0 0

/-- Where a point goes. -/
def point (t : Transform) (v : ℚ × ℚ) : ℚ × ℚ :=
  (t.mMatrix 0 0 * v.1 + t.mMatrix 1 0 * v.2 + t.mMatrix 2 0,
    t.mMatrix 0 1 * v.1 + t.mMatrix 1 1 * v.2 + t.mMatrix 2 1)

def min4 (a b c d : ℚ) : ℚ := min a (min b (min c d))
def max4 (a b c d : ℚ) : ℚ := max a (max b (max c d))

/-- The bounds of the corners, rounded. -/
def transform (t : Transform) (bounds : Rect) : Rect :=
  let lt := t.point (bounds.left, bounds.top)
  let rt := t.point (bounds.right, bounds.top)
  let lb := t.point (bounds.left, bounds.bottom)
  let rb := t.point (bounds.right, bounds.bottom)
  { left := ⌊min4 lt.1 rt.1 lb.1 rb.1 + 1 / 2⌋
    top := ⌊min4 lt.2 rt.2 lb.2 rb.2 + 1 / 2⌋
    right := ⌊max4 lt.1 rt.1 lb.1 rb.1 + 1 / 2⌋
    bottom := ⌊max4 lt.2 rt.2 lb.2 rb.2 + 1 / 2⌋ }

end Transform

/-! ## The crop -/

/-- The conversion of a float to an integer cuts off the fraction. -/
def toInt (x : ℚ) : Int := if 0 ≤ x then ⌊x⌋ else ⌈x⌉

def intersect (a b : Rect) : Rect :=
  ⟨max a.left b.left, max a.top b.top, min a.right b.right, min a.bottom b.bottom⟩

/-- The flags of the transform that takes the destination back. -/
def inverseFlags (xform : UInt32) : UInt32 :=
  if rot90 &&& xform ≠ 0 then xform ^^^ (flipH ||| flipV) else xform

/-- The destination and its crop, taken back. -/
def takeBack (dstBase dstCrop : Rect) (xform : UInt32) : Rect × Rect :=
  if xform ≠ 0 ∧ dstBase ≠ dstCrop then
    let tr := Transform.ofOrientation (inverseFlags xform)
    (tr.transform dstBase, tr.transform dstCrop)
  else (dstBase, dstCrop)

/-- What of the source lies where the crop lies in its base. -/
def scaleCrop (srcBase inBase inCrop : Rect) : Rect :=
  let ratioH : ℚ := (srcBase.right - srcBase.left : Int) / (inBase.right - inBase.left : Int)
  let ratioV : ℚ := (srcBase.bottom - srcBase.top : Int) / (inBase.bottom - inBase.top : Int)
  { left := toInt (srcBase.left + 1 / 2 + (inCrop.left - inBase.left : Int) * ratioH)
    top := toInt (srcBase.top + 1 / 2 + (inCrop.top - inBase.top : Int) * ratioV)
    right := toInt (srcBase.left + 1 / 2 + (inCrop.right - inBase.left : Int) * ratioH)
    bottom := toInt (srcBase.top + 1 / 2 + (inCrop.bottom - inBase.top : Int) * ratioV) }

/-- The crops of the source and of the destination. -/
def calculateCrop (src dst dstBuf : Rect) (xform : UInt32) : Rect × Rect :=
  let dstCrop := intersect dst dstBuf
  if dst = dstCrop then (src, dstCrop)
  else
    let back := takeBack dst dstCrop xform
    (scaleCrop src back.1 back.2, dstCrop)

/-! ## What the crop shall be -/

/-- The flags of an orientation. -/
def flags (o : Orientation) : UInt32 :=
  (if o.flipH then flipH else 0) ||| (if o.flipV then flipV else 0) |||
    if o.rot90 then rot90 else 0

/-- The edges as rationals. -/
def toRat (r : Rect) : Box ℚ := ⟨r.left, r.top, r.right, r.bottom⟩

/-- A nearest integer. -/
def Nearest (n : Int) (x : ℚ) : Prop := |x - n| ≤ 1 / 2

/-- Each edge is rounded to a nearest integer. -/
structure Rounds (r : Rect) (b : Box ℚ) : Prop where
  left : Nearest r.left b.left
  top : Nearest r.top b.top
  right : Nearest r.right b.right
  bottom : Nearest r.bottom b.bottom

/-- The destination is cut to the buffer, and the source to the part that the blit takes
to what is left of the destination. -/
structure CropCorrect (src dst buf : Rect) (o : Orientation) (out : Rect × Rect) : Prop where
  dstCrop : out.2.points = dst.points ∩ buf.points
  srcCrop : ∃ b : Box ℚ, place o (toRat src) (toRat dst) '' b.points = (toRat out.2).points ∧
    Rounds out.1 b
  inside : out.1.Inside src

/-! ## The transform of an orientation -/

/-- Where the axes go. -/
def columns (o : Orientation) : Fin 3 → Fin 3 → ℚ :=
  ![![(o.apply ((1 : ℚ), 0)).1, (o.apply ((1 : ℚ), 0)).2, 0],
    ![(o.apply ((0 : ℚ), 1)).1, (o.apply ((0 : ℚ), 1)).2, 0], ![0, 0, 1]]

theorem ofOrientation_mMatrix (o : Orientation) :
    (Transform.ofOrientation (flags o)).mMatrix = columns o := by
  funext i j
  revert i j
  rcases o with ⟨_ | _, _ | _, _ | _⟩ <;> decide +kernel

/-- The transform takes a point to where the orientation does. -/
theorem ofOrientation_point (o : Orientation) (p : ℚ × ℚ) :
    (Transform.ofOrientation (flags o)).point p = o.apply p := by
  unfold Transform.point
  rw [ofOrientation_mMatrix]
  change ((o.apply ((1 : ℚ), 0)).1 * p.1 + (o.apply ((0 : ℚ), 1)).1 * p.2 + 0,
    (o.apply ((1 : ℚ), 0)).2 * p.1 + (o.apply ((0 : ℚ), 1)).2 * p.2 + 0) = o.apply p
  rcases o with ⟨_ | _, _ | _, _ | _⟩ <;> simp [Orientation.apply, Orientation.flip]

theorem floor_add_half (n : Int) : ⌊(n : ℚ) + 1 / 2⌋ = n := by
  rw [Int.floor_eq_iff]
  constructor <;> linarith

/-- The transform of a box of positive size is the oriented box. -/
theorem ofOrientation_transform (o : Orientation) {r : Rect} (h : r.Proper) :
    (Transform.ofOrientation (flags o)).transform r = o.box r := by
  obtain ⟨hwidth, hheight⟩ := h
  have hcorner : ∀ x y : Int, (Transform.ofOrientation (flags o)).point ((x : ℚ), (y : ℚ)) =
      (((o.apply (x, y)).1 : ℚ), ((o.apply (x, y)).2 : ℚ)) := by
    intro x y
    rw [ofOrientation_point]
    rcases o with ⟨_ | _, _ | _, _ | _⟩ <;> simp [Orientation.apply, Orientation.flip]
  have hmin : ∀ a b c d : Int, ⌊Transform.min4 a b c d + 1 / 2⌋ = min a (min b (min c d)) := by
    intro a b c d
    rw [Transform.min4, ← Int.cast_min, ← Int.cast_min, ← Int.cast_min, floor_add_half]
  have hmax : ∀ a b c d : Int, ⌊Transform.max4 a b c d + 1 / 2⌋ = max a (max b (max c d)) := by
    intro a b c d
    rw [Transform.max4, ← Int.cast_max, ← Int.cast_max, ← Int.cast_max, floor_add_half]
  unfold Transform.transform
  simp only [hcorner, hmin, hmax]
  rcases o with ⟨_ | _, _ | _, _ | _⟩ <;>
    ext <;> simp [Orientation.apply, Orientation.flip, Orientation.box] <;> omega

/-! ## What the code computes -/

/-- One axis alone is flipped before a turn. -/
def SingleFlipTurn (o : Orientation) : Prop := o.rot90 = true ∧ o.flipH ≠ o.flipV

instance (o : Orientation) : Decidable (SingleFlipTurn o) := by
  unfold SingleFlipTurn; infer_instance

/-- The orientation that the code takes the destination back by. -/
def back (o : Orientation) : Orientation := if o.rot90 then ⟨!o.flipH, !o.flipV, true⟩ else o

/-- It is the inverse, unless one axis alone is flipped before a turn. -/
theorem back_eq (o : Orientation) : back o = if SingleFlipTurn o then o.inv.turned else o.inv := by
  rcases o with ⟨_ | _, _ | _, _ | _⟩ <;> rfl

theorem inverseFlags_flags (o : Orientation) : inverseFlags (flags o) = flags (back o) := by
  rcases o with ⟨_ | _, _ | _, _ | _⟩ <;> decide

theorem eq_of_flags_eq_zero {o : Orientation} (h : flags o = 0) : o = ⟨false, false, false⟩ := by
  revert h
  rcases o with ⟨_ | _, _ | _, _ | _⟩ <;> decide

/-- The part of the source that the code cuts out, before it is rounded. -/
def cutOut (src dst part : Rect) (o : Orientation) : Box ℚ :=
  let exact := crop o (toRat src) (toRat dst) (toRat part)
  if SingleFlipTurn o then mirror (toRat src) exact else exact

/-- What the conversion makes of an edge. -/
def roundEdges (b : Box ℚ) : Rect :=
  ⟨toInt (b.left + 1 / 2), toInt (b.top + 1 / 2), toInt (b.right + 1 / 2),
    toInt (b.bottom + 1 / 2)⟩

theorem toRat_box (o : Orientation) (r : Rect) : toRat (o.box r) = o.box (toRat r) := by
  rcases o with ⟨_ | _, _ | _, _ | _⟩ <;> simp [toRat, Orientation.box]

theorem toRat_proper {r : Rect} (h : r.Proper) : (toRat r).Proper :=
  ⟨Int.cast_lt.mpr h.width, Int.cast_lt.mpr h.height⟩

/-- The part that is cut out is the destination's part taken back and scaled. -/
theorem cutOut_eq (src : Rect) {dst : Rect} (hdst : dst.Proper) (part : Rect) (o : Orientation) :
    cutOut src dst part o =
      stretchBox (toRat ((back o).box dst)) (toRat src) (toRat ((back o).box part)) := by
  rw [back_eq, cutOut, toRat_box, toRat_box]
  split_ifs
  · rw [stretchBox_turned, crop_mirror o _ (toRat_proper hdst)]
  · rfl

theorem takeBack_flags {dst part : Rect} (hdst : dst.Proper) (hpart : part.Proper)
    (hne : dst ≠ part) (o : Orientation) :
    takeBack dst part (flags o) = ((back o).box dst, (back o).box part) := by
  unfold takeBack
  split_ifs with hflags
  · dsimp only
    rw [inverseFlags_flags, ofOrientation_transform _ hdst, ofOrientation_transform _ hpart]
  · have hzero : flags o = 0 := by
      by_contra hflags'
      exact hflags ⟨hflags', hne⟩
    rw [eq_of_flags_eq_zero hzero]
    rfl

theorem scaleCrop_eq (src inBase inCrop : Rect) :
    scaleCrop src inBase inCrop =
      roundEdges (stretchBox (toRat inBase) (toRat src) (toRat inCrop)) := by
  have hcomm : ∀ a b c : ℚ, a + 1 / 2 + b * c = a + b * c + 1 / 2 := fun a b c => by ring
  simp only [scaleCrop, roundEdges, stretchBox, stretch1, toRat, hcomm, Int.cast_sub]

theorem calculateCrop_eq {src dst buf : Rect} (hdst : dst.Proper)
    (hpart : (intersect dst buf).Proper) (o : Orientation) :
    calculateCrop src dst buf (flags o) =
      if dst = intersect dst buf then (src, intersect dst buf)
      else (roundEdges (cutOut src dst (intersect dst buf) o), intersect dst buf) := by
  unfold calculateCrop
  dsimp only
  split_ifs with hsame
  · rfl
  · rw [takeBack_flags hdst hpart hsame, scaleCrop_eq, cutOut_eq src hdst]

/-! ## When the crop is right -/

/-- The integer is the one that the conversion takes the edge to: half up from a half
below zero on, and half up of the next edge below that. -/
def ConvertsTo (x : ℚ) (n : Int) : Prop :=
  if -1 / 2 ≤ x then n - 1 / 2 ≤ x ∧ x < n + 1 / 2 else n - 3 / 2 < x ∧ x ≤ n - 1 / 2

/-- The conversion takes one edge to a nearest integer of the other. -/
def RoundsAs (x y : ℚ) : Prop := ∃ n : Int, ConvertsTo x n ∧ Nearest n y

theorem toInt_eq_iff (x : ℚ) (n : Int) : toInt (x + 1 / 2) = n ↔ ConvertsTo x n := by
  have hsign : 0 ≤ x + 1 / 2 ↔ -1 / 2 ≤ x := by
    constructor <;> intro h <;> linarith
  unfold toInt ConvertsTo
  rw [if_congr hsign rfl rfl]
  split_ifs
  · rw [Int.floor_eq_iff]
    constructor <;> rintro ⟨hlow, hhigh⟩ <;> constructor <;> linarith
  · rw [Int.ceil_eq_iff]
    constructor <;> rintro ⟨hlow, hhigh⟩ <;> constructor <;> linarith

theorem nearest_toInt_iff (x y : ℚ) : Nearest (toInt (x + 1 / 2)) y ↔ RoundsAs x y := by
  constructor
  · intro h
    exact ⟨_, (toInt_eq_iff x _).mp rfl, h⟩
  · rintro ⟨n, hn, h⟩
    rwa [(toInt_eq_iff x n).mpr hn]

/-- An edge is rounded right from a half below zero on, and halfway between two
integers. -/
theorem roundsAs_self_iff (x : ℚ) : RoundsAs x x ↔ -1 / 2 ≤ x ∨ ∃ n : Int, x + 1 / 2 = n := by
  constructor
  · rintro ⟨n, hn, hnear⟩
    obtain ⟨hlow, -⟩ := abs_le.mp hnear
    unfold ConvertsTo at hn
    split_ifs at hn with hhalf
    · exact .inl hhalf
    · exact .inr ⟨n, by linarith [hn.2]⟩
  · intro h
    refine (nearest_toInt_iff x x).mp ?_
    unfold toInt Nearest
    split_ifs with hsign
    · have hle := Int.floor_le (x + 1 / 2)
      have hlt := Int.lt_floor_add_one (x + 1 / 2)
      refine abs_le.mpr ⟨?_, ?_⟩ <;> linarith
    · -- the conversion rounds up, which is right at the integers only
      obtain hhalf | ⟨n, hn⟩ := h
      · exact absurd (by linarith) hsign
      · rw [hn, Int.ceil_intCast, ← hn, abs_le]
        constructor <;> linarith

/-- A nearest integer of what lies between two integers does so too. -/
theorem Nearest.between {n a b : Int} {x : ℚ} (h : Nearest n x) (ha : a ≤ x) (hb : x ≤ b) :
    a ≤ n ∧ n ≤ b := by
  obtain ⟨hlow, hhigh⟩ := abs_le.mp h
  constructor
  · by_contra hlt
    have hle : (n : ℚ) + 1 ≤ a := by exact_mod_cast not_le.mp hlt
    linarith
  · by_contra hlt
    have hle : (b : ℚ) + 1 ≤ n := by exact_mod_cast not_le.mp hlt
    linarith

/-- The condition on all edges. -/
structure EdgesRoundAs (b c : Box ℚ) : Prop where
  left : RoundsAs b.left c.left
  top : RoundsAs b.top c.top
  right : RoundsAs b.right c.right
  bottom : RoundsAs b.bottom c.bottom

/-- The buffer cuts nothing off; or no edge of the crop is rounded towards zero past an
integer; or, where one axis alone is flipped before a turn, the mirror image of the crop
within the source has the same rounded edges. -/
def CropKept (src dst buf : Rect) (o : Orientation) : Prop :=
  let part := intersect dst buf
  let exact := crop o (toRat src) (toRat dst) (toRat part)
  dst = part ∨ EdgesRoundAs (if SingleFlipTurn o then mirror (toRat src) exact else exact) exact

theorem rounds_roundEdges_iff (b c : Box ℚ) : Rounds (roundEdges b) c ↔ EdgesRoundAs b c := by
  constructor
  · rintro ⟨hleft, htop, hright, hbottom⟩
    exact ⟨(nearest_toInt_iff _ _).mp hleft, (nearest_toInt_iff _ _).mp htop,
      (nearest_toInt_iff _ _).mp hright, (nearest_toInt_iff _ _).mp hbottom⟩
  · rintro ⟨hleft, htop, hright, hbottom⟩
    exact ⟨(nearest_toInt_iff _ _).mpr hleft, (nearest_toInt_iff _ _).mpr htop,
      (nearest_toInt_iff _ _).mpr hright, (nearest_toInt_iff _ _).mpr hbottom⟩

theorem rounds_toRat (r : Rect) : Rounds r (toRat r) := by
  have hself : ∀ n : Int, Nearest n (n : ℚ) := fun n => by
    rw [Nearest, sub_self, abs_zero]
    norm_num
  exact ⟨hself _, hself _, hself _, hself _⟩

/-- Rounding keeps a box of positive size inside. -/
theorem Rounds.inside {r c : Rect} {b : Box ℚ} (h : Rounds r b) (hb : b.Proper)
    (hinside : b.Inside (toRat c)) : r.Inside c := by
  obtain ⟨hleft, htop, hright, hbottom⟩ := hinside
  exact ⟨(h.left.between hleft (hb.width.le.trans hright)).1,
    (h.top.between htop (hb.height.le.trans hbottom)).1,
    (h.right.between (hleft.trans hb.width.le) hright).2,
    (h.bottom.between (htop.trans hb.height.le) hbottom).2⟩

theorem intersect_points (a b : Rect) : (intersect a b).points = a.points ∩ b.points := by
  ext p
  simp only [Box.mem_points, intersect, max_le_iff, le_min_iff, Set.mem_inter_iff]
  tauto

theorem intersect_inside (a b : Rect) : (toRat (intersect a b)).Inside (toRat a) :=
  ⟨Int.cast_le.mpr (le_max_left _ _), Int.cast_le.mpr (le_max_left _ _),
    Int.cast_le.mpr (min_le_left _ _), Int.cast_le.mpr (min_le_left _ _)⟩

/-- A source crop is right exactly if it rounds the exact one. -/
theorem cropCorrect_iff {src dst buf : Rect} (hsrc : src.Proper) (hdst : dst.Proper)
    (hpart : (intersect dst buf).Proper) (o : Orientation) (out : Rect) :
    CropCorrect src dst buf o (out, intersect dst buf) ↔
      Rounds out (crop o (toRat src) (toRat dst) (toRat (intersect dst buf))) := by
  have hcrop := proper_crop (o := o) (toRat_proper hsrc) (toRat_proper hdst) (toRat_proper hpart)
  constructor
  · rintro ⟨-, ⟨b, himage, hrounds⟩, -⟩
    rwa [eq_crop_of_image (toRat_proper hsrc) (toRat_proper hdst) (toRat_proper hpart) himage]
      at hrounds
  · intro hrounds
    refine ⟨intersect_points dst buf, ⟨_, image_crop (toRat_proper hsrc) (toRat_proper hdst) _,
      hrounds⟩, hrounds.inside hcrop ?_⟩
    exact crop_inside (toRat_proper hsrc) (toRat_proper hdst) (intersect_inside dst buf)

/-- The crops are right exactly if nothing is cut off, or what the code cuts out, for a
single flip before a turn the mirror image, rounds to the right edges. -/
theorem calculateCrop_correct_iff {src dst buf : Rect} (hsrc : src.Proper) (hdst : dst.Proper)
    (hpart : (intersect dst buf).Proper) (o : Orientation) :
    CropCorrect src dst buf o (calculateCrop src dst buf (flags o)) ↔ CropKept src dst buf o := by
  rw [calculateCrop_eq hdst hpart]
  by_cases hsame : dst = intersect dst buf
  · rw [if_pos hsame, cropCorrect_iff hsrc hdst hpart, ← hsame, crop_self (toRat_proper hdst)]
    exact iff_of_true (rounds_toRat src) (.inl hsame)
  · rw [if_neg hsame, cropCorrect_iff hsrc hdst hpart, rounds_roundEdges_iff]
    exact (or_iff_right hsame).symm

/-- A turn of a rotated video: the lower half of the destination is cut off. -/
theorem rotated_crop :
    CropCorrect ⟨0, 0, 100, 60⟩ ⟨0, 0, 60, 100⟩ ⟨0, 0, 60, 50⟩ ⟨false, false, true⟩
      (calculateCrop ⟨0, 0, 100, 60⟩ ⟨0, 0, 60, 100⟩ ⟨0, 0, 60, 50⟩
        (flags ⟨false, false, true⟩)) := by
  refine (calculateCrop_correct_iff ⟨by decide, by decide⟩ ⟨by decide, by decide⟩
    ⟨by decide, by decide⟩ _).mpr (.inr ?_)
  rw [if_neg (by decide)]
  constructor <;> exact (roundsAs_self_iff _).mpr (.inl (by decide +kernel))

/-- With a horizontal flip before the turn, the code cuts out the left half of the source
where the right half is shown. -/
theorem flipped_turn_crops_wrong_half :
    calculateCrop ⟨0, 0, 100, 60⟩ ⟨0, 0, 60, 100⟩ ⟨0, 0, 60, 50⟩ (flags ⟨true, false, true⟩) =
        (⟨0, 0, 50, 60⟩, ⟨0, 0, 60, 50⟩) ∧
      ¬CropCorrect ⟨0, 0, 100, 60⟩ ⟨0, 0, 60, 100⟩ ⟨0, 0, 60, 50⟩ ⟨true, false, true⟩
        (calculateCrop ⟨0, 0, 100, 60⟩ ⟨0, 0, 60, 100⟩ ⟨0, 0, 60, 50⟩
          (flags ⟨true, false, true⟩)) := by
  have hresult : calculateCrop ⟨0, 0, 100, 60⟩ ⟨0, 0, 60, 100⟩ ⟨0, 0, 60, 50⟩
      (flags ⟨true, false, true⟩) = (⟨0, 0, 50, 60⟩, ⟨0, 0, 60, 50⟩) := by decide +kernel
  refine ⟨hresult, fun hcorrect => ?_⟩
  rw [hresult] at hcorrect
  have hrounds := (cropCorrect_iff ⟨by decide, by decide⟩ ⟨by decide, by decide⟩
    ⟨by decide, by decide⟩ _ _).mp hcorrect
  have hleft := hrounds.left
  unfold Nearest at hleft
  revert hleft
  decide +kernel

end MtkHw.Hwc.BlitCrop
