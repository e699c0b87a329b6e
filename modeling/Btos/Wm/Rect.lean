import Mathlib.Tactic
import Mathlib.Order.CompletePartialOrder

/-!
# Rectangles of the window manager

`rect.cpp` and the comparison of `geom.cpp`. A rectangle has a signed position and unsigned sides
of 32 bits; sums of a position and a side are sometimes signed and sometimes unsigned numbers.

`pixels` is the set that a rectangle stands for, and `algebra_iff` says for each function exactly
when it does with rectangles what should be done with these sets.

* `InRect` leaves out the upper and the lower row and the last column.
* `operator==` compares a column with a row.
* `Intersection` returns the right and the lower edge where it should return sides.
* `TileRects` takes the larger of two unsigned edges, and a negative one is very large.
* `SplitRect` does not cut off what `remove_if` has left behind.
-/

namespace Wm

/-- `Rect`. -/
@[ext]
structure Rect where
  x : Int32
  y : Int32
  w : UInt32
  h : UInt32
  deriving DecidableEq, Repr

/-- `Point`. -/
structure Point where
  x : Int32
  y : Int32
  deriving DecidableEq, Repr

/-! ## The functions -/

/-- `operator==`. -/
def eqRect (r1 r2 : Rect) : Bool := r1.x == r2.y && r1.y == r2.y && r1.w == r2.w && r1.h == r2.h

/-- `InRect`. -/
def inRect (p : Point) (r : Rect) : Bool :=
  p.x ≥ r.x && p.x < r.x + r.w.toInt32 - 1 && p.y > r.y && p.y < r.y + r.h.toInt32 - 1

/-- `Overlaps`. -/
def overlaps (r1 r2 : Rect) : Bool :=
  !(r1.x + r1.w.toInt32 - 1 < r2.x || r1.y + r1.h.toInt32 - 1 < r2.y ||
    r1.x > r2.x + r2.w.toInt32 - 1 || r1.y > r2.y + r2.h.toInt32 - 1)

/-- `x + w` where the position is converted to an unsigned number. -/
def edge (x : Int32) (w : UInt32) : UInt32 := x.toUInt32 + w

/-- `Contains`. -/
def contains (r1 r2 : Rect) : Bool :=
  eqRect r1 r2 ||
    (inRect ⟨r2.x, r2.y⟩ r1 && inRect ⟨(edge r2.x r2.w).toInt32, (edge r2.y r2.h).toInt32⟩ r1)

/-- `remove_if`: what is kept is moved to the front, and behind it the elements stay as they
were. -/
def removeIf {α : Type} (p : α → Bool) (l : List α) : List α :=
  let kept := l.filter fun a => !p a
  kept ++ l.drop kept.length

/-- The four parts that `SplitRect` makes. -/
def quarters (r : Rect) (p : Point) : List Rect :=
  [⟨r.x, r.y, (p.x - r.x).toUInt32, (p.y - r.y).toUInt32⟩,
    ⟨p.x, r.y, edge r.x r.w - p.x.toUInt32, (p.y - r.y).toUInt32⟩,
    ⟨r.x, p.y, (p.x - r.x).toUInt32, edge r.y r.h - p.y.toUInt32⟩,
    ⟨p.x, p.y, edge r.x r.w - p.x.toUInt32, edge r.y r.h - p.y.toUInt32⟩]

/-- `SplitRect`. -/
def splitRect (r : Rect) (p : Point) : List Rect :=
  if !inRect p r then [r] else removeIf (fun q => q.w == 0 || q.h == 0) (quarters r p)

/-- `std::min`. -/
def least {α : Type} [LT α] [DecidableLT α] (a b : α) : α := if b < a then b else a

/-- `std::max`. -/
def greatest {α : Type} [LT α] [DecidableLT α] (a b : α) : α := if a < b then b else a

/-- The rectangle around two others in `TileRects`. -/
def maxRect (r1 r2 : Rect) : Rect :=
  let x := least r1.x r2.x
  let y := least r1.y r2.y
  ⟨x, y, greatest (edge r1.x r1.w) (edge r2.x r2.w) - x.toUInt32,
    greatest (edge r1.y r1.h) (edge r2.y r2.h) - y.toUInt32⟩

/-- `TileRects`. -/
def tileRects (r1 r2 : Rect) : List Rect :=
  if !overlaps r1 r2 then [r1, r2]
  else if contains r1 r2 then [r1]
  else if contains r2 r1 then [r2]
  else [maxRect r1 r2]

/-- `Intersection`. -/
def intersection (r1 r2 : Rect) : Rect :=
  if !overlaps r1 r2 then ⟨0, 0, 0, 0⟩
  else ⟨greatest r1.x r2.x, greatest r1.y r2.y, least (edge r1.x r1.w) (edge r2.x r2.w),
    least (edge r1.y r1.h) (edge r2.y r2.h)⟩

/-! ## Sets of pixels -/

namespace Rect

variable (r : Rect)

/-- The first column. -/
def left : ℤ := r.x.toInt

/-- The first row. -/
def top : ℤ := r.y.toInt

/-- The column behind the last one. -/
def right : ℤ := r.x.toInt + r.w.toNat

/-- The row behind the last one. -/
def bottom : ℤ := r.y.toInt + r.h.toNat

/-- The pixels of a rectangle, by column and row. -/
def pixels : Set (ℤ × ℤ) := Set.Ico r.left r.right ×ˢ Set.Ico r.top r.bottom

/-- Sides of at least 1, and neither position nor sides beyond `2 ^ 15`. -/
structure Small : Prop where
  x : -2 ^ 15 ≤ r.left ∧ r.left ≤ 2 ^ 15
  y : -2 ^ 15 ≤ r.top ∧ r.top ≤ 2 ^ 15
  w : 1 ≤ r.w.toNat ∧ r.w.toNat ≤ 2 ^ 15
  h : 1 ≤ r.h.toNat ∧ r.h.toNat ≤ 2 ^ 15

/-- Not empty, and no pixel beyond the largest signed number. -/
structure Regular : Prop where
  w : 1 ≤ r.w.toNat
  h : 1 ≤ r.h.toNat
  right : r.right ≤ 2 ^ 31
  bottom : r.bottom ≤ 2 ^ 31

end Rect

/-- The pixel of a point. -/
def Point.pixel (p : Point) : ℤ × ℤ := (p.x.toInt, p.y.toInt)

/-! ## Numbers of 32 bits -/

section Words

variable (x z : Int32) (w : UInt32)

lemma toInt_toInt32 : w.toInt32.toInt = (w.toNat : ℤ).bmod (2 ^ 32) :=
  BitVec.toInt_eq_toNat_bmod w.toBitVec

lemma toNat_toUInt32 : (x.toUInt32.toNat : ℤ) = x.toInt % 2 ^ 32 := by
  have hval : x.toInt = (x.toUInt32.toNat : ℤ).bmod (2 ^ 32) :=
    BitVec.toInt_eq_toNat_bmod x.toBitVec
  have hlt : x.toUInt32.toNat < 2 ^ 32 := x.toUInt32.toBitVec.isLt
  rw [hval, Int.bmod_def]
  split <;> omega

lemma bmod_of_range {n : ℤ} (hlow : -2 ^ 31 ≤ n) (hhigh : n < 2 ^ 31) : n.bmod (2 ^ 32) = n :=
  Int.bmod_eq_of_le (by omega) (by omega)

lemma toInt_last : (x + w.toInt32 - 1).toInt = (x.toInt + w.toNat - 1).bmod (2 ^ 32) := by
  rw [Int32.toInt_sub, Int32.toInt_add, toInt_toInt32]
  simp

lemma toInt_edge : (edge x w).toInt32.toInt = (x.toInt + w.toNat).bmod (2 ^ 32) := by
  simp [edge, Int32.toInt_add, toInt_toInt32]

lemma toNat_edge : ((edge x w).toNat : ℤ) = (x.toInt + w.toNat) % 2 ^ 32 := by
  simp [edge, UInt32.toNat_add, toNat_toUInt32]

lemma toNat_sub : ((x - z).toUInt32.toNat : ℤ) = (x.toInt - z.toInt) % 2 ^ 32 := by
  rw [toNat_toUInt32, Int32.toInt_sub]
  exact Int.bmod_emod

lemma toNat_sub_toUInt32 : ((w - z.toUInt32).toNat : ℤ) = (w.toNat - z.toInt) % 2 ^ 32 := by
  have hz := toNat_toUInt32 z
  rw [UInt32.toNat_sub]
  omega

lemma toInt_least : (least x z).toInt = min x.toInt z.toInt := by
  unfold least
  split <;> rename_i h <;> rw [Int32.lt_iff_toInt_lt] at h <;> omega

lemma toInt_greatest : (greatest x z).toInt = max x.toInt z.toInt := by
  unfold greatest
  split <;> rename_i h <;> rw [Int32.lt_iff_toInt_lt] at h <;> omega

lemma toNat_least (v w : UInt32) : (least v w).toNat = min v.toNat w.toNat := by
  unfold least
  split <;> rename_i h <;> rw [UInt32.lt_iff_toNat_lt] at h <;> omega

lemma toNat_greatest (v w : UInt32) : (greatest v w).toNat = max v.toNat w.toNat := by
  unfold greatest
  split <;> rename_i h <;> rw [UInt32.lt_iff_toNat_lt] at h <;> omega

end Words

/-! ## Rectangles and sets -/

section Sets

variable {r r1 r2 : Rect} {p : Point}

lemma mem_pixels {q : ℤ × ℤ} :
    q ∈ r.pixels ↔ (r.left ≤ q.1 ∧ q.1 < r.right) ∧ r.top ≤ q.2 ∧ q.2 < r.bottom := by
  simp [Rect.pixels, Set.mem_prod]

lemma Rect.left_range (r : Rect) : -2 ^ 31 ≤ r.left ∧ r.left < 2 ^ 31 :=
  ⟨r.x.le_toInt, r.x.toInt_lt⟩

lemma Rect.top_range (r : Rect) : -2 ^ 31 ≤ r.top ∧ r.top < 2 ^ 31 :=
  ⟨r.y.le_toInt, r.y.toInt_lt⟩

lemma Rect.toInt_x (r : Rect) : r.x.toInt = r.left := rfl

lemma Rect.toInt_y (r : Rect) : r.y.toInt = r.top := rfl

lemma Rect.right_eq (r : Rect) : r.right = r.left + r.w.toNat := rfl

lemma Rect.bottom_eq (r : Rect) : r.bottom = r.top + r.h.toNat := rfl

lemma Rect.Small.regular (h : r.Small) : r.Regular where
  w := h.w.1
  h := h.h.1
  right := by
    have := h.x
    have := h.w
    rw [r.right_eq]
    omega
  bottom := by
    have := h.y
    have := h.h
    rw [r.bottom_eq]
    omega

lemma Rect.Regular.left_lt_right (h : r.Regular) : r.left < r.right := by
  have := h.w
  rw [r.right_eq]
  omega

lemma Rect.Regular.top_lt_bottom (h : r.Regular) : r.top < r.bottom := by
  have := h.h
  rw [r.bottom_eq]
  omega

lemma Rect.Regular.toInt_last (h : r.Regular) :
    (r.x + r.w.toInt32 - 1).toInt = r.right - 1 ∧ (r.y + r.h.toInt32 - 1).toInt = r.bottom - 1 := by
  have hx := r.left_range
  have hy := r.top_range
  have hw := h.left_lt_right
  have hh := h.top_lt_bottom
  rw [Wm.toInt_last, Wm.toInt_last]
  exact ⟨bmod_of_range (n := r.right - 1) (by omega) (by linarith [h.right]),
    bmod_of_range (n := r.bottom - 1) (by omega) (by linarith [h.bottom])⟩

lemma pixels_subset_iff (h2 : r2.Regular) : r2.pixels ⊆ r1.pixels ↔
    (r1.left ≤ r2.left ∧ r2.right ≤ r1.right) ∧ r1.top ≤ r2.top ∧ r2.bottom ≤ r1.bottom := by
  have hx := h2.left_lt_right
  have hy := h2.top_lt_bottom
  rw [Rect.pixels, Rect.pixels, Set.prod_subset_prod_iff' ?_, Set.Ico_subset_Ico_iff hx,
    Set.Ico_subset_Ico_iff hy]
  exact (Set.nonempty_Ico.mpr hx).prod (Set.nonempty_Ico.mpr hy)

lemma inRect_iff (h : r.Regular) : inRect p r ↔
    (r.left ≤ p.x.toInt ∧ p.x.toInt < r.right - 1) ∧
      r.top < p.y.toInt ∧ p.y.toInt < r.bottom - 1 := by
  simp only [inRect, Bool.and_eq_true, decide_eq_true_eq, ge_iff_le, gt_iff_lt,
    Int32.le_iff_toInt_le, Int32.lt_iff_toInt_lt, h.toInt_last, Rect.toInt_x, Rect.toInt_y]
  tauto

lemma overlaps_iff (h1 : r1.Regular) (h2 : r2.Regular) : overlaps r1 r2 ↔
    (r2.left < r1.right ∧ r1.left < r2.right) ∧ r2.top < r1.bottom ∧ r1.top < r2.bottom := by
  simp only [overlaps, Bool.not_eq_true', Bool.or_eq_false_iff, decide_eq_false_iff_not, gt_iff_lt,
    Int32.lt_iff_toInt_lt, h1.toInt_last, h2.toInt_last, Rect.toInt_x, Rect.toInt_y, not_lt]
  omega

lemma pixels_inter : r1.pixels ∩ r2.pixels =
    Set.Ico (max r1.left r2.left) (min r1.right r2.right) ×ˢ
      Set.Ico (max r1.top r2.top) (min r1.bottom r2.bottom) := by
  rw [Rect.pixels, Rect.pixels, Set.prod_inter_prod, Set.Ico_inter_Ico, Set.Ico_inter_Ico]

lemma nonempty_inter_iff (h1 : r1.Regular) (h2 : r2.Regular) :
    (r1.pixels ∩ r2.pixels).Nonempty ↔
      (r2.left < r1.right ∧ r1.left < r2.right) ∧ r2.top < r1.bottom ∧ r1.top < r2.bottom := by
  have hx1 := h1.left_lt_right
  have hy1 := h1.top_lt_bottom
  have hx2 := h2.left_lt_right
  have hy2 := h2.top_lt_bottom
  rw [pixels_inter, Set.prod_nonempty_iff, Set.nonempty_Ico, Set.nonempty_Ico]
  omega

lemma eqRect_iff : eqRect r1 r2 ↔
    r1.left = r2.top ∧ r1.top = r2.top ∧ r1.w = r2.w ∧ r1.h = r2.h := by
  simp only [eqRect, Bool.and_eq_true, beq_iff_eq, Rect.left, Rect.top, Int32.toInt_inj]
  tauto

lemma Rect.eq_iff : r1 = r2 ↔ r1.left = r2.left ∧ r1.top = r2.top ∧ r1.w = r2.w ∧ r1.h = r2.h := by
  simp only [Rect.left, Rect.top, Int32.toInt_inj, Rect.ext_iff]

/-- The second rectangle is in the first one, with a margin above, below and on the right. -/
structure Within (r1 r2 : Rect) : Prop where
  left : r1.left ≤ r2.left
  right : r2.right + 1 < r1.right
  top : r1.top < r2.top
  bottom : r2.bottom + 1 < r1.bottom

lemma contains_iff (h1 : r1.Small) (h2 : r2.Small) :
    contains r1 r2 ↔ eqRect r1 r2 ∨ Within r1 r2 := by
  have hx := h2.x
  have hy := h2.y
  have hw := h2.w
  have hh := h2.h
  have hright : (edge r2.x r2.w).toInt32.toInt = r2.right := by
    rw [toInt_edge]
    exact bmod_of_range (n := r2.right) (by rw [r2.right_eq]; omega) (by rw [r2.right_eq]; omega)
  have hbottom : (edge r2.y r2.h).toInt32.toInt = r2.bottom := by
    rw [toInt_edge]
    exact bmod_of_range (n := r2.bottom) (by rw [r2.bottom_eq]; omega) (by rw [r2.bottom_eq]; omega)
  rw [contains, Bool.or_eq_true, Bool.and_eq_true, inRect_iff h1.regular, inRect_iff h1.regular,
    hright, hbottom, r2.toInt_x, r2.toInt_y]
  refine or_congr_right ⟨fun h => ⟨?_, ?_, ?_, ?_⟩, fun ⟨hl, hr, ht, hb⟩ => ?_⟩
  all_goals
    have := h2.regular.left_lt_right
    have := h2.regular.top_lt_bottom
    omega

lemma toNat_edge_eq {x : Int32} {w : UInt32} (hx : -2 ^ 15 ≤ x.toInt ∧ x.toInt ≤ 2 ^ 15)
    (hw : w.toNat ≤ 2 ^ 15) : ((edge x w).toNat : ℤ) =
      if x.toInt + w.toNat < 0 then x.toInt + w.toNat + 2 ^ 32 else x.toInt + w.toNat := by
  rw [toNat_edge]
  split <;> omega

/-! ## Which answers are right -/

lemma inRect_exact_iff (h : r.Small) : (inRect p r ↔ p.pixel ∈ r.pixels) ↔
    (p.pixel ∈ r.pixels → p.x.toInt + 1 < r.right ∧ r.top < p.y.toInt ∧
      p.y.toInt + 1 < r.bottom) := by
  rw [inRect_iff h.regular, mem_pixels, Point.pixel]
  constructor
  · intro hexact hmem
    have hin := hexact.mpr hmem
    omega
  · intro hcond
    constructor
    · intro hin
      omega
    · intro hmem
      omega

lemma overlaps_exact (h1 : r1.Small) (h2 : r2.Small) :
    overlaps r1 r2 ↔ (r1.pixels ∩ r2.pixels).Nonempty := by
  rw [overlaps_iff h1.regular h2.regular, nonempty_inter_iff h1.regular h2.regular]

lemma pixels_inj (h1 : r1.Small) (h2 : r2.Small) : r1.pixels = r2.pixels ↔ r1 = r2 := by
  constructor
  · intro heq
    have h12 := (pixels_subset_iff h1.regular).mp heq.subset
    have h21 := (pixels_subset_iff h2.regular).mp heq.superset
    rw [r1.right_eq, r2.right_eq, r1.bottom_eq, r2.bottom_eq] at *
    rw [Rect.eq_iff, ← UInt32.toNat_inj, ← UInt32.toNat_inj]
    omega
  · rintro rfl
    rfl

lemma eqRect_exact_iff (h1 : r1.Small) (h2 : r2.Small) :
    (eqRect r1 r2 ↔ r1.pixels = r2.pixels) ↔
      (r1.top = r2.top → r1.w = r2.w → r1.h = r2.h → (r1.left = r2.top ↔ r1.left = r2.left)) := by
  rw [pixels_inj h1 h2, eqRect_iff, Rect.eq_iff]
  tauto

lemma Within.subset (h : Within r1 r2) : r2.pixels ⊆ r1.pixels := by
  rintro q hq
  rw [mem_pixels] at hq ⊢
  obtain ⟨hleft, hright, htop, hbottom⟩ := h
  omega

lemma subset_iff_eq_of_eqRect (h2 : r2.Small) (heq : eqRect r1 r2) :
    r2.pixels ⊆ r1.pixels ↔ r1 = r2 := by
  obtain ⟨-, htop, hw, hh⟩ := eqRect_iff.mp heq
  rw [pixels_subset_iff h2.regular, Rect.eq_iff, r1.right_eq, r2.right_eq, r1.bottom_eq,
    r2.bottom_eq, hw, hh]
  constructor
  · rintro ⟨⟨hle, hge⟩, -⟩
    exact ⟨by omega, htop, rfl, rfl⟩
  · rintro ⟨hleft, -⟩
    omega

/-- `Contains` is right if a part has the margin, or is the whole in a place where its column is
its row, and if `operator==` does not take different rectangles for equal. -/
lemma contains_exact_iff (h1 : r1.Small) (h2 : r2.Small) :
    (contains r1 r2 ↔ r2.pixels ⊆ r1.pixels) ↔
      (r2.pixels ⊆ r1.pixels → Within r1 r2 ∨ r1 = r2 ∧ r1.left = r1.top) ∧
        (eqRect r1 r2 → r1 = r2) := by
  rw [contains_iff h1 h2]
  constructor
  · intro hexact
    have hequal (heq : eqRect r1 r2) : r1 = r2 :=
      (subset_iff_eq_of_eqRect h2 heq).mp (hexact.mp (.inl heq))
    refine ⟨fun hsub => (hexact.mpr hsub).symm.imp_right fun heq => ?_, hequal⟩
    obtain ⟨hleft, htop, -⟩ := eqRect_iff.mp heq
    exact ⟨hequal heq, by omega⟩
  · rintro ⟨hpart, hequal⟩
    constructor
    · rintro (heq | hwithin)
      · exact (subset_iff_eq_of_eqRect h2 heq).mpr (hequal heq)
      · exact hwithin.subset
    · intro hsub
      rcases hpart hsub with hwithin | ⟨rfl, hplace⟩
      · exact .inr hwithin
      · exact .inl (eqRect_iff.mpr ⟨hplace, rfl, rfl, rfl⟩)

/-- In one coordinate, the smaller of the two unsigned edges is the side of the intersection: it
starts at zero, or one edge is negative and the other one happens to be as far from zero as the
intersection is wide. -/
def SideFits (first1 end1 first2 end2 : ℤ) : Prop :=
  max first1 first2 = 0 ∨
    min end1 end2 < 0 ∧ 0 ≤ max end1 end2 ∧ max end1 end2 = min end1 end2 - max first1 first2

/-- One coordinate of `Intersection`. -/
lemma side_iff {x1 x2 : Int32} {w1 w2 : UInt32} (hx1 : -2 ^ 15 ≤ x1.toInt ∧ x1.toInt ≤ 2 ^ 15)
    (hx2 : -2 ^ 15 ≤ x2.toInt ∧ x2.toInt ≤ 2 ^ 15) (hw1 : w1.toNat ≤ 2 ^ 15)
    (hw2 : w2.toNat ≤ 2 ^ 15)
    (hlt : max x1.toInt x2.toInt < min (x1.toInt + w1.toNat) (x2.toInt + w2.toNat)) :
    Set.Ico (greatest x1 x2).toInt
        ((greatest x1 x2).toInt + (least (edge x1 w1) (edge x2 w2)).toNat) =
      Set.Ico (max x1.toInt x2.toInt) (min (x1.toInt + w1.toNat) (x2.toInt + w2.toNat)) ↔
    SideFits x1.toInt (x1.toInt + w1.toNat) x2.toInt (x2.toInt + w2.toNat) := by
  have hedge1 := toNat_edge_eq hx1 hw1
  have hedge2 := toNat_edge_eq hx2 hw2
  rw [toInt_greatest, toNat_least, Set.Ico_eq_Ico_iff (.inr hlt), SideFits]
  split at hedge1 <;> split at hedge2 <;> omega

/-- `Intersection` is right if in both coordinates the sides fit. -/
lemma intersection_exact_iff (h1 : r1.Small) (h2 : r2.Small) :
    ((r1.pixels ∩ r2.pixels).Nonempty → (intersection r1 r2).pixels = r1.pixels ∩ r2.pixels) ↔
      ((r1.pixels ∩ r2.pixels).Nonempty → SideFits r1.left r1.right r2.left r2.right ∧
        SideFits r1.top r1.bottom r2.top r2.bottom) := by
  refine forall_congr' fun hover => ?_
  have hover' : overlaps r1 r2 := (overlaps_exact h1 h2).mpr hover
  rw [pixels_inter] at hover ⊢
  obtain ⟨hx, hy⟩ := Set.prod_nonempty_iff.mp hover
  rw [eq_comm, Rect.pixels, Set.prod_eq_prod_iff_of_nonempty hover, intersection, hover',
    Bool.not_true, if_neg Bool.false_ne_true, eq_comm, eq_comm (b := Set.Ico (Rect.top _) _)]
  exact and_congr (side_iff h1.x h2.x h1.w.2 h2.w.2 (Set.nonempty_Ico.mp hx))
    (side_iff h1.y h2.y h1.h.2 h2.h.2 (Set.nonempty_Ico.mp hy))

lemma greatest_edge {x1 x2 : Int32} {w1 w2 : UInt32}
    (hx1 : -2 ^ 15 ≤ x1.toInt ∧ x1.toInt ≤ 2 ^ 15) (hx2 : -2 ^ 15 ≤ x2.toInt ∧ x2.toInt ≤ 2 ^ 15)
    (hw1 : w1.toNat ≤ 2 ^ 15) (hw2 : w2.toNat ≤ 2 ^ 15) :
    max (x1.toInt + w1.toNat) (x2.toInt + w2.toNat) ≤ (least x1 x2).toInt +
        (greatest (edge x1 w1) (edge x2 w2) - (least x1 x2).toUInt32).toNat ↔
      (x1.toInt + w1.toNat < 0 ↔ x2.toInt + w2.toNat < 0) := by
  have hedge1 := toNat_edge_eq hx1 hw1
  have hedge2 := toNat_edge_eq hx2 hw2
  rw [toNat_sub_toUInt32, toInt_least, toNat_greatest]
  split at hedge1 <;> split at hedge2 <;> omega

/-- The pixels of a list of rectangles. -/
def covered (rects : List Rect) : Set (ℤ × ℤ) := ⋃ r ∈ rects, r.pixels

/-- The rectangle around two others has both of them as parts if their right edges have the same
sign, and their lower edges too. -/
lemma subset_maxRect_iff (h1 : r1.Small) (h2 : r2.Small) :
    r1.pixels ∪ r2.pixels ⊆ (maxRect r1 r2).pixels ↔
      (r1.right < 0 ↔ r2.right < 0) ∧ (r1.bottom < 0 ↔ r2.bottom < 0) := by
  have hleft : (maxRect r1 r2).left = min r1.left r2.left := toInt_least r1.x r2.x
  have htop : (maxRect r1 r2).top = min r1.top r2.top := toInt_least r1.y r2.y
  have hright : max r1.right r2.right ≤ (maxRect r1 r2).right ↔ (r1.right < 0 ↔ r2.right < 0) :=
    greatest_edge h1.x h2.x h1.w.2 h2.w.2
  have hbottom : max r1.bottom r2.bottom ≤ (maxRect r1 r2).bottom ↔
      (r1.bottom < 0 ↔ r2.bottom < 0) :=
    greatest_edge h1.y h2.y h1.h.2 h2.h.2
  rw [Set.union_subset_iff, pixels_subset_iff h1.regular, pixels_subset_iff h2.regular, hleft,
    htop, ← hright, ← hbottom]
  omega

lemma subset_iff_of_contains (h1 : r1.Small) (h2 : r2.Small) (hcontains : contains r1 r2) :
    r2.pixels ⊆ r1.pixels ↔ (eqRect r1 r2 → r1 = r2) := by
  constructor
  · intro hsub heq
    exact (subset_iff_eq_of_eqRect h2 heq).mp hsub
  · intro hequal
    rcases (contains_iff h1 h2).mp hcontains with heq | hwithin
    · exact (subset_iff_eq_of_eqRect h2 heq).mpr (hequal heq)
    · exact hwithin.subset

/-- `TileRects` is right if `operator==` does not take different rectangles for equal where it is
asked, and the edges have the same signs where the rectangle around both is returned. -/
lemma tileRects_exact_iff (h1 : r1.Small) (h2 : r2.Small) :
    r1.pixels ∪ r2.pixels ⊆ covered (tileRects r1 r2) ↔
      (overlaps r1 r2 → (eqRect r1 r2 → r1 = r2) ∧ (¬contains r1 r2 →
        (eqRect r2 r1 → r1 = r2) ∧ (¬contains r2 r1 →
          (r1.right < 0 ↔ r2.right < 0) ∧ (r1.bottom < 0 ↔ r2.bottom < 0)))) := by
  by_cases hover : overlaps r1 r2
  · by_cases h12 : contains r1 r2
    · have hsub := subset_iff_of_contains h1 h2 h12
      simp [tileRects, covered, hover, h12, hsub]
    · -- `operator==` is the first thing that `Contains` asks
      have hne : ¬eqRect r1 r2 := fun heq => h12 (by simp [contains, heq])
      by_cases h21 : contains r2 r1
      · have hsub : r1.pixels ⊆ r2.pixels ↔ (eqRect r2 r1 → r1 = r2) := by
          rw [subset_iff_of_contains h2 h1 h21, eq_comm (a := r2)]
        simp [tileRects, covered, hover, h12, h21, hsub, hne]
      · have hne' : ¬eqRect r2 r1 := fun heq => h21 (by simp [contains, heq])
        have hsub := subset_maxRect_iff h1 h2
        simp only [Set.union_subset_iff] at hsub
        simp [tileRects, covered, hover, h12, h21, hsub, hne, hne']
  · simp [tileRects, covered, hover]

/-- The rectangles have pixels, no two of them have one in common, and together they have those of
the whole. -/
structure Partition (rects : List Rect) (r : Rect) : Prop where
  nonempty : ∀ q ∈ rects, q.pixels.Nonempty
  disjoint : rects.Pairwise fun q q' => Disjoint q.pixels q'.pixels
  union : covered rects = r.pixels

lemma toNat_before {x z : Int32} (hle : z.toInt ≤ x.toInt) :
    (z.toInt + (x - z).toUInt32.toNat : ℤ) = x.toInt := by
  have hx := x.toInt_lt
  have hz := z.le_toInt
  rw [toNat_sub]
  omega

lemma toNat_behind {x z : Int32} {w : UInt32} (hw : w.toNat ≤ 2 ^ 15) (hle : x.toInt ≤ z.toInt)
    (hlt : z.toInt < x.toInt + w.toNat) :
    (z.toInt + (edge x w - z.toUInt32).toNat : ℤ) = x.toInt + w.toNat := by
  rw [toNat_sub_toUInt32, toNat_edge]
  omega

/-- A point in a rectangle cuts it into four parts, the first and the third of which are empty if
it is in the first column. -/
structure Cut (r : Rect) (p : Point) (q1 q2 q3 q4 : Rect) : Prop where
  upperLeft : q1.pixels = Set.Ico r.left p.x.toInt ×ˢ Set.Ico r.top p.y.toInt
  upperRight : q2.pixels = Set.Ico p.x.toInt r.right ×ˢ Set.Ico r.top p.y.toInt
  lowerLeft : q3.pixels = Set.Ico r.left p.x.toInt ×ˢ Set.Ico p.y.toInt r.bottom
  lowerRight : q4.pixels = Set.Ico p.x.toInt r.right ×ˢ Set.Ico p.y.toInt r.bottom

lemma pixels_mk (x y : Int32) (w h : UInt32) : (⟨x, y, w, h⟩ : Rect).pixels =
    Set.Ico x.toInt (x.toInt + w.toNat) ×ˢ Set.Ico y.toInt (y.toInt + h.toNat) := rfl

lemma exists_cut (h : r.Small) (hin : inRect p r) :
    ∃ q1 q2 q3 q4, quarters r p = [q1, q2, q3, q4] ∧ Cut r p q1 q2 q3 q4 := by
  obtain ⟨⟨hleft, hright⟩, htop, hbottom⟩ := (inRect_iff h.regular).mp hin
  have hx : r.x.toInt + (p.x - r.x).toUInt32.toNat = p.x.toInt := toNat_before hleft
  have hy : r.y.toInt + (p.y - r.y).toUInt32.toNat = p.y.toInt := toNat_before htop.le
  have hx' : p.x.toInt + (edge r.x r.w - p.x.toUInt32).toNat = r.right :=
    toNat_behind h.w.2 hleft (hright.trans (sub_one_lt r.right))
  have hy' : p.y.toInt + (edge r.y r.h - p.y.toUInt32).toNat = r.bottom :=
    toNat_behind h.h.2 htop.le (hbottom.trans (sub_one_lt r.bottom))
  refine ⟨_, _, _, _, rfl, ?_, ?_, ?_, ?_⟩
  · rw [pixels_mk, hx, hy]
    rfl
  · rw [pixels_mk, hx', hy]
    rfl
  · rw [pixels_mk, hx, hy']
    rfl
  · rw [pixels_mk, hx', hy']

lemma hasSides_iff (q : Rect) : (q.w == 0 || q.h == 0) = false ↔ q.pixels.Nonempty := by
  rw [Rect.pixels, Set.prod_nonempty_iff, Set.nonempty_Ico, Set.nonempty_Ico, q.right_eq,
    q.bottom_eq, Bool.or_eq_false_iff, beq_eq_false_iff_ne, beq_eq_false_iff_ne, ne_eq, ne_eq,
    ← UInt32.toNat_inj, ← UInt32.toNat_inj]
  simp
  omega

section Quarters

variable {q1 q2 q3 q4 : Rect}

/-- Four parts that all have pixels. -/
lemma Cut.partition (hcut : Cut r p q1 q2 q3 q4) (hx : r.left < p.x.toInt ∧ p.x.toInt < r.right)
    (hy : r.top < p.y.toInt ∧ p.y.toInt < r.bottom) : Partition [q1, q2, q3, q4] r := by
  refine ⟨?_, ?_, ?_⟩
  · simp [hcut.upperLeft, hcut.upperRight, hcut.lowerLeft, hcut.lowerRight, hx, hy]
  · simp only [List.pairwise_cons, List.mem_cons, List.not_mem_nil, or_false, forall_eq_or_imp,
      forall_eq, false_imp_iff, implies_true, List.Pairwise.nil, and_true, hcut.upperLeft,
      hcut.upperRight, hcut.lowerLeft, hcut.lowerRight, Set.disjoint_prod, Set.Ico_disjoint_Ico]
    omega
  · ext q
    simp only [covered, List.mem_cons, List.not_mem_nil, or_false, Set.iUnion_iUnion_eq_or_left,
      Set.iUnion_iUnion_eq_left, hcut.upperLeft, hcut.upperRight, hcut.lowerLeft, hcut.lowerRight,
      Set.mem_union, Set.mem_prod, Set.mem_Ico, mem_pixels]
    omega

lemma mem_removeIf {f : Rect → Bool} (h1 : f q1 = true) (h2 : f q2 = false) (h3 : f q3 = true)
    (h4 : f q4 = false) : q3 ∈ removeIf f [q1, q2, q3, q4] := by
  simp [removeIf, h1, h2, h3, h4]

lemma removeIf_eq_self {f : Rect → Bool} {rects : List Rect} (h : ∀ q ∈ rects, f q = false) :
    removeIf f rects = rects := by
  have hkept : rects.filter (fun q => !f q) = rects :=
    List.filter_eq_self.mpr fun q hq => by simp [h q hq]
  simp [removeIf, hkept]

end Quarters

lemma Rect.Regular.nonempty (h : r.Regular) : r.pixels.Nonempty := by
  simp [Rect.pixels, h.left_lt_right, h.top_lt_bottom]

/-- `SplitRect` is right unless the point is inside and in the first column. -/
lemma splitRect_exact_iff (h : r.Small) : Partition (splitRect r p) r ↔
    ¬(inRect p r ∧ p.x = r.x) := by
  by_cases hin : inRect p r
  · obtain ⟨⟨hleft, hright⟩, htop, hbottom⟩ := (inRect_iff h.regular).mp hin
    obtain ⟨q1, q2, q3, q4, hquarters, hcut⟩ := exists_cut h hin
    rw [splitRect, hin, Bool.not_true, if_neg Bool.false_ne_true, hquarters]
    by_cases hfirst : p.x = r.x
    · -- the third part has no pixels, but it is still in the list
      refine iff_of_false (fun hpart => ?_) (by simp [hfirst])
      have hplace : p.x.toInt = r.left := congrArg Int32.toInt hfirst
      have h2 := (hasSides_iff q2).mpr (by simp [hcut.upperRight]; omega)
      have h4 := (hasSides_iff q4).mpr (by simp [hcut.lowerRight]; omega)
      have h1 : (q1.w == 0 || q1.h == 0) = true := by
        rw [← Bool.not_eq_false, hasSides_iff]
        simp [hcut.upperLeft, hplace]
      have h3 : (q3.w == 0 || q3.h == 0) = true := by
        rw [← Bool.not_eq_false, hasSides_iff]
        simp [hcut.lowerLeft, hplace]
      have hempty := hpart.nonempty q3 (mem_removeIf h1 h2 h3 h4)
      simp [hcut.lowerLeft, hplace] at hempty
    · have hplace : p.x.toInt ≠ r.left := fun heq => hfirst (Int32.toInt_inj.mp heq)
      have hpart := hcut.partition (by omega) (by omega)
      rw [removeIf_eq_self fun q hq => (hasSides_iff q).mpr (hpart.nonempty q hq)]
      exact iff_of_true hpart fun h => hfirst h.2
  · refine iff_of_true ?_ fun hfirst => hin hfirst.1
    rw [splitRect, Bool.eq_false_iff.mpr hin, Bool.not_false, if_pos rfl]
    refine ⟨?_, ?_, ?_⟩ <;> simp [covered, h.regular.nonempty]

/-- For every pair of small rectangles and every point, each function is right exactly under its
condition. -/
theorem algebra_iff (h1 : r1.Small) (h2 : r2.Small) (p : Point) :
    ((inRect p r1 ↔ p.pixel ∈ r1.pixels) ↔
      (p.pixel ∈ r1.pixels → p.x.toInt + 1 < r1.right ∧ r1.top < p.y.toInt ∧
        p.y.toInt + 1 < r1.bottom)) ∧
    ((contains r1 r2 ↔ r2.pixels ⊆ r1.pixels) ↔
      (r2.pixels ⊆ r1.pixels → Within r1 r2 ∨ r1 = r2 ∧ r1.left = r1.top) ∧
        (eqRect r1 r2 → r1 = r2)) ∧
    (overlaps r1 r2 ↔ (r1.pixels ∩ r2.pixels).Nonempty) ∧
    ((eqRect r1 r2 ↔ r1.pixels = r2.pixels) ↔
      (r1.top = r2.top → r1.w = r2.w → r1.h = r2.h →
        (r1.left = r2.top ↔ r1.left = r2.left))) ∧
    (((r1.pixels ∩ r2.pixels).Nonempty →
        (intersection r1 r2).pixels = r1.pixels ∩ r2.pixels) ↔
      ((r1.pixels ∩ r2.pixels).Nonempty → SideFits r1.left r1.right r2.left r2.right ∧
        SideFits r1.top r1.bottom r2.top r2.bottom)) ∧
    (r1.pixels ∪ r2.pixels ⊆ covered (tileRects r1 r2) ↔
      (overlaps r1 r2 → (eqRect r1 r2 → r1 = r2) ∧ (¬contains r1 r2 →
        (eqRect r2 r1 → r1 = r2) ∧ (¬contains r2 r1 →
          (r1.right < 0 ↔ r2.right < 0) ∧ (r1.bottom < 0 ↔ r2.bottom < 0))))) ∧
    (Partition (splitRect r1 p) r1 ↔ ¬(inRect p r1 ∧ p.x = r1.x)) :=
  ⟨inRect_exact_iff h1, contains_exact_iff h1 h2, overlaps_exact h1 h2, eqRect_exact_iff h1 h2,
    intersection_exact_iff h1 h2, tileRects_exact_iff h1 h2, splitRect_exact_iff h1⟩

/-- A rectangle that is deep within another one and starts at zero. -/
theorem algebra_nested :
    let outer : Rect := ⟨0, -4, 10, 14⟩
    let inner : Rect := ⟨0, 0, 5, 5⟩
    let p : Point := ⟨3, 1⟩
    (inRect p outer ↔ p.pixel ∈ outer.pixels) ∧
      (contains outer inner ↔ inner.pixels ⊆ outer.pixels) ∧
      (overlaps outer inner ↔ (outer.pixels ∩ inner.pixels).Nonempty) ∧
      ((outer.pixels ∩ inner.pixels).Nonempty →
        (intersection outer inner).pixels = outer.pixels ∩ inner.pixels) ∧
      outer.pixels ∪ inner.pixels ⊆ covered (tileRects outer inner) ∧
      Partition (splitRect outer p) outer := by
  intro outer inner p
  have houter : outer.Small := by constructor <;> decide
  have hinner : inner.Small := by constructor <;> decide
  obtain ⟨hin, hcontains, hoverlaps, -, hinter, htile, hsplit⟩ := algebra_iff houter hinner p
  refine ⟨hin.mpr fun _ => by decide, hcontains.mpr ⟨fun _ => .inl ?_, by decide⟩, hoverlaps,
    hinter.mpr fun _ => ⟨.inl (by decide), .inl (by decide)⟩, htile.mpr fun _ => by decide,
    hsplit.mpr (by decide)⟩
  constructor <;> decide

/-- Each function but one is wrong for some small rectangles. -/
theorem exists_wrong_answer :
    (∃ (r : Rect) (p : Point), r.Small ∧ ¬(inRect p r ↔ p.pixel ∈ r.pixels)) ∧
    (∃ r : Rect, r.Small ∧ ¬(contains r r ↔ r.pixels ⊆ r.pixels)) ∧
    (∃ r : Rect, r.Small ∧ ¬(eqRect r r ↔ r.pixels = r.pixels)) ∧
    (∃ r : Rect, r.Small ∧ (intersection r r).pixels ≠ r.pixels ∩ r.pixels) ∧
    (∃ r1 r2 : Rect, r1.Small ∧ r2.Small ∧
      ¬ r1.pixels ∪ r2.pixels ⊆ covered (tileRects r1 r2)) ∧
    ∃ (r : Rect) (p : Point), r.Small ∧ ¬ Partition (splitRect r p) r := by
  have hsmall : (⟨5, 0, 2, 2⟩ : Rect).Small := by constructor <;> decide
  refine ⟨⟨⟨5, 0, 2, 2⟩, ⟨5, 0⟩, hsmall, ?_⟩, ⟨⟨5, 0, 2, 2⟩, hsmall, ?_⟩,
    ⟨⟨5, 0, 2, 2⟩, hsmall, ?_⟩, ⟨⟨5, 0, 2, 2⟩, hsmall, ?_⟩,
    ⟨⟨0, 0, 2, 2⟩, ⟨1, 0, 2, 2⟩, by constructor <;> decide, by constructor <;> decide, ?_⟩,
    ⟨⟨0, 0, 4, 4⟩, ⟨0, 1⟩, by constructor <;> decide, ?_⟩⟩
  · rw [inRect_exact_iff hsmall, mem_pixels]
    decide
  · intro hexact
    exact absurd (hexact.mpr subset_rfl) (by decide)
  · intro hexact
    exact absurd (hexact.mpr rfl) (by decide)
  · intro heq
    have hnonempty := hsmall.regular.nonempty
    rw [← Set.inter_self (Rect.pixels _)] at hnonempty
    have hfits := ((intersection_exact_iff hsmall hsmall).mp fun _ => heq) hnonempty
    revert hfits
    unfold SideFits
    decide
  · rw [tileRects_exact_iff (by constructor <;> decide) (by constructor <;> decide)]
    decide
  · rw [splitRect_exact_iff (by constructor <;> decide)]
    decide

end Sets

end Wm
