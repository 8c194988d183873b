import Mathlib.Algebra.Order.Field.Basic
import Mathlib.Algebra.Order.Group.Pointwise.Interval
import Mathlib.Data.Set.Prod
import Mathlib.Tactic.Abel
import Mathlib.Tactic.FieldSimp
import Mathlib.Tactic.Linarith
import Mathlib.Tactic.Ring

/-!
# Placing a rectangle on another one

An orientation flips the plane and then may turn it by a quarter.  A rectangle is
placed on another one by an orientation and the stretching that takes the oriented
rectangle to the other one.  What the placement takes to a part of the target is found
by the inverse orientation: of the target and of the part, stretched to the source.
-/

namespace MtkHw.Placement

universe u

/-! ## Boxes -/

/-- A rectangle by its edges. -/
@[ext]
structure Box (K : Type u) where
  left : K
  top : K
  right : K
  bottom : K
deriving DecidableEq, Repr

namespace Box

variable {K : Type u}

/-- The points between the edges. -/
def points [Preorder K] (b : Box K) : Set (K × K) :=
  Set.Icc b.left b.right ×ˢ Set.Icc b.top b.bottom

theorem mem_points [Preorder K] {b : Box K} {p : K × K} :
    p ∈ b.points ↔ (b.left ≤ p.1 ∧ p.1 ≤ b.right) ∧ b.top ≤ p.2 ∧ p.2 ≤ b.bottom := Iff.rfl

/-- The box is of positive size. -/
structure Proper [LT K] (b : Box K) : Prop where
  width : b.left < b.right
  height : b.top < b.bottom

/-- The smaller box lies in the larger one. -/
structure Inside [LE K] (b c : Box K) : Prop where
  left : c.left ≤ b.left
  top : c.top ≤ b.top
  right : b.right ≤ c.right
  bottom : b.bottom ≤ c.bottom

/-- Boxes of the same points are equal. -/
theorem points_injective [PartialOrder K] {b c : Box K} (hb : b.Proper)
    (h : b.points = c.points) : b = c := by
  have hne : (Set.Icc b.left b.right ×ˢ Set.Icc b.top b.bottom).Nonempty :=
    ⟨(b.left, b.top), ⟨le_rfl, hb.width.le⟩, le_rfl, hb.height.le⟩
  rcases Set.prod_eq_prod_iff_of_nonempty hne |>.mp h with ⟨hx, hy⟩
  obtain ⟨hleft, hright⟩ := (Set.Icc_eq_Icc_iff hb.width.le).mp hx
  obtain ⟨htop, hbottom⟩ := (Set.Icc_eq_Icc_iff hb.height.le).mp hy
  cases b
  cases c
  simp_all

end Box

/-! ## Orientations -/

/-- Flips of the axes, and then a quarter turn. -/
structure Orientation where
  flipH : Bool
  flipV : Bool
  rot90 : Bool
deriving DecidableEq, Repr

namespace Orientation

section Apply

variable {K : Type u} [AddCommGroup K]

def flip (b : Bool) (x : K) : K := if b then -x else x

/-- The point that a point goes to. -/
def apply (o : Orientation) (p : K × K) : K × K :=
  let q := (flip o.flipH p.1, flip o.flipV p.2)
  if o.rot90 then (-q.2, q.1) else q

/-- The box that a box goes to. -/
def box (o : Orientation) (b : Box K) : Box K :=
  let c : Box K :=
    ⟨if o.flipH then -b.right else b.left, if o.flipV then -b.bottom else b.top,
      if o.flipH then -b.left else b.right, if o.flipV then -b.top else b.bottom⟩
  if o.rot90 then ⟨-c.bottom, c.left, -c.top, c.right⟩ else c

/-- The orientation that takes everything back.  Behind a turn the flips change their
axes. -/
def inv (o : Orientation) : Orientation :=
  if o.rot90 then ⟨!o.flipV, !o.flipH, true⟩ else o

/-- The orientation that is turned by a half. -/
def turned (o : Orientation) : Orientation := ⟨!o.flipH, !o.flipV, o.rot90⟩

@[simp] theorem inv_apply (o : Orientation) (p : K × K) : o.inv.apply (o.apply p) = p := by
  rcases o with ⟨_ | _, _ | _, _ | _⟩ <;> simp [inv, apply, flip]

@[simp] theorem apply_inv (o : Orientation) (p : K × K) : o.apply (o.inv.apply p) = p := by
  rcases o with ⟨_ | _, _ | _, _ | _⟩ <;> simp [inv, apply, flip]

@[simp] theorem box_inv (o : Orientation) (b : Box K) : o.box (o.inv.box b) = b := by
  rcases o with ⟨_ | _, _ | _, _ | _⟩ <;> simp [inv, box]

theorem apply_injective (o : Orientation) : Function.Injective (o.apply : K × K → K × K) :=
  Function.LeftInverse.injective o.inv_apply

end Apply

section Ordered

variable {K : Type u} [AddCommGroup K] [LinearOrder K] [IsOrderedAddMonoid K]

theorem proper_box (o : Orientation) {b : Box K} (h : b.Proper) : (o.box b).Proper := by
  obtain ⟨hwidth, hheight⟩ := h
  rcases o with ⟨_ | _, _ | _, _ | _⟩ <;> constructor <;> simpa [box]

theorem box_inside (o : Orientation) {b c : Box K} (h : b.Inside c) :
    (o.box b).Inside (o.box c) := by
  obtain ⟨hleft, htop, hright, hbottom⟩ := h
  rcases o with ⟨_ | _, _ | _, _ | _⟩ <;> constructor <;> simpa [box]

/-- A point is in a box exactly if its image is in the image of the box. -/
theorem apply_mem_box_iff (o : Orientation) {b : Box K} {p : K × K} :
    o.apply p ∈ (o.box b).points ↔ p ∈ b.points := by
  rcases o with ⟨_ | _, _ | _, _ | _⟩ <;>
    simp only [Box.mem_points, apply, box, flip, Bool.false_eq_true, if_true, if_false,
      neg_le_neg_iff, neg_neg] <;> tauto

theorem image_points (o : Orientation) (b : Box K) : o.apply '' b.points = (o.box b).points := by
  ext p
  constructor
  · rintro ⟨q, hq, rfl⟩
    exact o.apply_mem_box_iff.mpr hq
  · intro hp
    refine ⟨o.inv.apply p, ?_, o.apply_inv p⟩
    rwa [← o.apply_mem_box_iff, o.apply_inv]

end Ordered

end Orientation

/-! ## Stretching -/

section Stretch

variable {K : Type u} [Field K]

/-- Take the interval from `a` to `b` to the one from `c` to `d`. -/
def stretch1 (a b c d x : K) : K := c + (x - a) * ((d - c) / (b - a))

/-- Take a box to another one. -/
def stretch (b c : Box K) (p : K × K) : K × K :=
  (stretch1 b.left b.right c.left c.right p.1, stretch1 b.top b.bottom c.top c.bottom p.2)

/-- Where the stretching takes a box. -/
def stretchBox (b c a : Box K) : Box K :=
  ⟨stretch1 b.left b.right c.left c.right a.left, stretch1 b.top b.bottom c.top c.bottom a.top,
    stretch1 b.left b.right c.left c.right a.right,
    stretch1 b.top b.bottom c.top c.bottom a.bottom⟩

theorem stretch1_stretch1 {a b c d : K} (hab : b - a ≠ 0) (hcd : d - c ≠ 0) (x : K) :
    stretch1 c d a b (stretch1 a b c d x) = x := by
  unfold stretch1
  field_simp
  ring

theorem stretch1_neg {a b : K} (hab : b - a ≠ 0) (c d x : K) :
    stretch1 (-b) (-a) (-d) (-c) (-x) = -stretch1 a b c d x := by
  have hab' : -a - -b ≠ 0 := by
    rwa [neg_sub_neg]
  unfold stretch1
  field_simp
  ring

theorem stretch1_left (a b c d : K) : stretch1 a b c d a = c := by
  rw [stretch1, sub_self, zero_mul, add_zero]

theorem stretch1_right {a b : K} (hab : b - a ≠ 0) (c d : K) : stretch1 a b c d b = d := by
  rw [stretch1, mul_div_cancel₀ _ hab, add_sub_cancel]

variable [LinearOrder K] [IsStrictOrderedRing K]

theorem stretch1_le_iff {a b c d : K} (hab : a < b) (hcd : c < d) {x y : K} :
    stretch1 a b c d x ≤ stretch1 a b c d y ↔ x ≤ y := by
  have hpos : 0 < (d - c) / (b - a) := div_pos (sub_pos.mpr hcd) (sub_pos.mpr hab)
  unfold stretch1
  rw [add_le_add_iff_left, mul_le_mul_iff_left₀ hpos, sub_le_sub_iff_right]

theorem stretch_stretch {b c : Box K} (hb : b.Proper) (hc : c.Proper) (p : K × K) :
    stretch c b (stretch b c p) = p :=
  Prod.ext (stretch1_stretch1 (sub_pos.mpr hb.width).ne' (sub_pos.mpr hc.width).ne' p.1)
    (stretch1_stretch1 (sub_pos.mpr hb.height).ne' (sub_pos.mpr hc.height).ne' p.2)

theorem stretchBox_stretchBox {b c : Box K} (hb : b.Proper) (hc : c.Proper) (a : Box K) :
    stretchBox c b (stretchBox b c a) = a := by
  have hwidth : ∀ x, stretch1 c.left c.right b.left b.right
      (stretch1 b.left b.right c.left c.right x) = x :=
    stretch1_stretch1 (sub_pos.mpr hb.width).ne' (sub_pos.mpr hc.width).ne'
  have hheight : ∀ x, stretch1 c.top c.bottom b.top b.bottom
      (stretch1 b.top b.bottom c.top c.bottom x) = x :=
    stretch1_stretch1 (sub_pos.mpr hb.height).ne' (sub_pos.mpr hc.height).ne'
  unfold stretchBox
  simp only [hwidth, hheight]

theorem stretch_mem_stretchBox_iff {b c a : Box K} (hb : b.Proper) (hc : c.Proper) {p : K × K} :
    stretch b c p ∈ (stretchBox b c a).points ↔ p ∈ a.points := by
  simp only [Box.mem_points, stretch, stretchBox, stretch1_le_iff hb.width hc.width,
    stretch1_le_iff hb.height hc.height]

theorem image_stretch {b c : Box K} (hb : b.Proper) (hc : c.Proper) (a : Box K) :
    stretch b c '' a.points = (stretchBox b c a).points := by
  ext p
  constructor
  · rintro ⟨q, hq, rfl⟩
    exact (stretch_mem_stretchBox_iff hb hc).mpr hq
  · intro hp
    refine ⟨stretch c b p, ?_, stretch_stretch hc hb p⟩
    rwa [← stretch_mem_stretchBox_iff hb hc, stretch_stretch hc hb]

/-- Orienting after stretching is stretching after orienting. -/
theorem box_stretchBox (o : Orientation) {b c : Box K} (hb : b.Proper) (a : Box K) :
    o.box (stretchBox b c a) = stretchBox (o.box b) (o.box c) (o.box a) := by
  have hwidth := stretch1_neg (sub_pos.mpr hb.width).ne' c.left c.right
  have hheight := stretch1_neg (sub_pos.mpr hb.height).ne' c.top c.bottom
  rcases o with ⟨_ | _, _ | _, _ | _⟩ <;>
    simp [Orientation.box, stretchBox, hwidth, hheight]

/-! ## Placing -/

/-- Orient the source, and stretch it to the target. -/
def place (o : Orientation) (source target : Box K) (p : K × K) : K × K :=
  stretch (o.box source) target (o.apply p)

/-- The part of the source that the placement takes to a part of the target. -/
def crop (o : Orientation) (source target part : Box K) : Box K :=
  stretchBox (o.inv.box target) source (o.inv.box part)

variable {o : Orientation} {source target : Box K}

theorem place_injective (hsource : source.Proper) (htarget : target.Proper) :
    Function.Injective (place o source target) :=
  (Function.LeftInverse.injective (stretch_stretch (o.proper_box hsource) htarget)).comp
    o.apply_injective

/-- The placement takes the crop to the part. -/
theorem image_crop (hsource : source.Proper) (htarget : target.Proper) (part : Box K) :
    place o source target '' (crop o source target part).points = part.points := by
  have hbox : o.box (crop o source target part) = stretchBox target (o.box source) part := by
    rw [crop, box_stretchBox o (o.inv.proper_box htarget), Orientation.box_inv,
      Orientation.box_inv]
  change (fun p => stretch (o.box source) target (o.apply p)) '' _ = _
  rw [← Set.image_image, o.image_points, hbox, image_stretch (o.proper_box hsource) htarget,
    stretchBox_stretchBox htarget (o.proper_box hsource)]

theorem proper_crop (hsource : source.Proper) (htarget : target.Proper) {part : Box K}
    (hpart : part.Proper) : (crop o source target part).Proper := by
  obtain ⟨hwidth, hheight⟩ := o.inv.proper_box htarget
  obtain ⟨hwidth', hheight'⟩ := o.inv.proper_box hpart
  constructor
  · exact lt_of_not_ge fun h =>
      absurd ((stretch1_le_iff hwidth hsource.width).mp h) (not_le.mpr hwidth')
  · exact lt_of_not_ge fun h =>
      absurd ((stretch1_le_iff hheight hsource.height).mp h) (not_le.mpr hheight')

/-- No other box is taken to a part of positive size. -/
theorem eq_crop_of_image (hsource : source.Proper) (htarget : target.Proper) {part b : Box K}
    (hpart : part.Proper) (h : place o source target '' b.points = part.points) :
    b = crop o source target part := by
  rw [← image_crop (o := o) hsource htarget part] at h
  have hpoints := Set.image_injective.mpr (place_injective hsource htarget) h
  exact (Box.points_injective (proper_crop hsource htarget hpart) hpoints.symm).symm

/-- The crop of the whole target is the whole source. -/
theorem crop_self (htarget : target.Proper) : crop o source target target = source := by
  obtain ⟨hwidth, hheight⟩ := o.inv.proper_box htarget
  unfold crop stretchBox
  rw [stretch1_left, stretch1_left, stretch1_right (sub_pos.mpr hwidth).ne',
    stretch1_right (sub_pos.mpr hheight).ne']

/-- The crop of a part of the target lies in the source. -/
theorem crop_inside (hsource : source.Proper) (htarget : target.Proper) {part : Box K}
    (hpart : part.Inside target) : (crop o source target part).Inside source := by
  obtain ⟨hwidth, hheight⟩ := o.inv.proper_box htarget
  obtain ⟨hleft, htop, hright, hbottom⟩ := o.inv.box_inside hpart
  have hinside : (crop o source target part).Inside (crop o source target target) := by
    constructor
    · exact (stretch1_le_iff hwidth hsource.width).mpr hleft
    · exact (stretch1_le_iff hheight hsource.height).mpr htop
    · exact (stretch1_le_iff hwidth hsource.width).mpr hright
    · exact (stretch1_le_iff hheight hsource.height).mpr hbottom
  rwa [crop_self htarget] at hinside

end Stretch

/-! ## Mirroring at the centre -/

section Mirror

variable {K : Type u} [Field K]

/-- The mirror image of a part at the centre of the target. -/
def mirror (target part : Box K) : Box K :=
  ⟨target.left + target.right - part.right, target.top + target.bottom - part.bottom,
    target.left + target.right - part.left, target.top + target.bottom - part.top⟩

theorem box_mirror (o : Orientation) (target part : Box K) :
    o.box (mirror target part) = mirror (o.box target) (o.box part) := by
  rcases o with ⟨_ | _, _ | _, _ | _⟩ <;> ext <;> simp [Orientation.box, mirror] <;> abel

theorem stretch1_mirror (a b c d x : K) :
    stretch1 (-b) (-a) c d (-x) = stretch1 a b c d (a + b - x) := by
  unfold stretch1
  rw [neg_sub_neg, neg_sub_neg, show b - x = a + b - x - a by ring]

theorem stretch1_add_sub {a b : K} (hab : b - a ≠ 0) (c d x : K) :
    stretch1 a b c d (a + b - x) = c + d - stretch1 a b c d x := by
  unfold stretch1
  field_simp
  ring

theorem stretchBox_mirror {b : Box K} (hwidth : b.right - b.left ≠ 0)
    (hheight : b.bottom - b.top ≠ 0) (c a : Box K) :
    stretchBox b c (mirror b a) = mirror c (stretchBox b c a) := by
  simp only [stretchBox, mirror, stretch1_add_sub hwidth, stretch1_add_sub hheight]

/-- Turned by a half more, the crop is that of the mirror image. -/
theorem stretchBox_turned (o : Orientation) (source target part : Box K) :
    stretchBox (o.inv.turned.box target) source (o.inv.turned.box part) =
      crop o source target (mirror target part) := by
  have hturned : ∀ b : Box K, o.inv.turned.box b = ⟨-(o.inv.box b).right, -(o.inv.box b).bottom,
      -(o.inv.box b).left, -(o.inv.box b).top⟩ := by
    intro b
    rcases o with ⟨_ | _, _ | _, _ | _⟩ <;> simp [Orientation.inv, Orientation.turned,
      Orientation.box]
  rw [crop, box_mirror, hturned, hturned]
  simp only [stretchBox, stretch1_mirror, mirror]

/-- The crop of the mirror image is the mirror image of the crop. -/
theorem crop_mirror [LinearOrder K] [IsStrictOrderedRing K] (o : Orientation) (source : Box K)
    {target : Box K} (htarget : target.Proper) (part : Box K) :
    crop o source target (mirror target part) = mirror source (crop o source target part) := by
  obtain ⟨hwidth, hheight⟩ := o.inv.proper_box htarget
  rw [crop, box_mirror, stretchBox_mirror (sub_pos.mpr hwidth).ne' (sub_pos.mpr hheight).ne']
  rfl

end Mirror

end MtkHw.Placement
