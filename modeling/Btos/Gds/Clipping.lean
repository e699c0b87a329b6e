import Mathlib.Tactic

/-!
# Clipping

`graphics.cpp` and `shm_surface.cpp`: boxes and copies of rectangles are cut to the images before
pixels are touched. Coordinates are signed and sizes unsigned numbers of 32 bits. Here they are
integers, and `u32` and `i32` say where a value is cut to 32 bits; a signed overflow wraps.

What matters of an image is its size, and what matters of a drawing function is which pixels it
touches. Both coordinates are treated in the same way, so that everything is said for one of them
first, in `BoxAxis` and in `BlitAxis`.

`clipping_iff` says exactly when boxes and copies are what was asked for. Sums that do not fit into
32 bits may go wrong: `exists_not_exact`.
-/

open List

namespace Gds

/-- An unsigned number of 32 bits. -/
def u32 (z : ℤ) : ℤ := z % 2 ^ 32

/-- A signed number of 32 bits. -/
def i32 (z : ℤ) : ℤ := (z + 2 ^ 31) % 2 ^ 32 - 2 ^ 31

/-- The size of an image. -/
structure Size where
  width : Int32
  height : Int32
  width_nonneg : 0 ≤ width.toInt
  height_nonneg : 0 ≤ height.toInt

/-! ## The steps of clipping -/

/-- `if(x < 0){ if(w < (uint32_t)-x) return; w += x; x = 0; }`. -/
def fromZero (x w : ℤ) : Option (ℤ × ℤ) :=
  if x < 0 then if w < u32 (-x) then none else some (0, u32 (w + x)) else some (x, w)

/-- The same, and the other coordinate is moved as well. -/
def shift (x other w : ℤ) : Option (ℤ × ℤ × ℤ) :=
  if x < 0 then
    if w < u32 (-x) then none else some (0, i32 (other - x), u32 (w + x))
  else some (x, other, w)

/-- `if(x + w > size) w = size - x;`. -/
def clip (x w size : ℤ) : ℤ := if u32 (x + w) > size then u32 (size - x) else w

lemma clip_eq_min {x w size : ℤ} (hx : 0 ≤ x ∧ x ≤ size) (hw : 0 ≤ w) (hsum : x + w < 2 ^ 32)
    (hsize : size < 2 ^ 32) : clip x w size = min w (size - x) := by
  unfold clip u32
  split <;> omega

lemma clip_of_overflow {x w size : ℤ} (hx : 0 ≤ x ∧ x ≤ size) (hw : 0 ≤ w ∧ w < 2 ^ 32)
    (hsum : 2 ^ 32 ≤ x + w) (hsize : size < 2 ^ 32) : clip x w size = w := by
  unfold clip u32
  split <;> omega

lemma clip_range (x : ℤ) {w : ℤ} (size : ℤ) (hw : 0 ≤ w ∧ w < 2 ^ 32) :
    0 ≤ clip x w size ∧ clip x w size < 2 ^ 32 := by
  unfold clip u32
  split <;> omega

/-! ## Two coordinates -/

/-- What is known of one coordinate: which values are touched and which were requested, whether
there is an overflow, and whether there is something to draw. -/
structure AxisSpec {α : Type} (touched requested : α → Prop) (overflow draws : Prop) : Prop where
  requested_of_touched : ¬overflow → ∀ p, touched p → requested p
  exists_of_overflow : overflow → ∃ p, touched p ∧ ¬requested p
  exists_touched : (∃ p, touched p) ↔ overflow ∨ draws

/-- An overflow in one coordinate does no harm if nothing is drawn because of the other one. -/
def AxesFit (overflowX drawsX overflowY drawsY : Prop) : Prop :=
  (overflowX → ¬overflowY ∧ ¬drawsY) ∧ (overflowY → ¬overflowX ∧ ¬drawsX)

section

variable {α β : Type} {touchedX requestedX : α → Prop} {touchedY requestedY : β → Prop}
  {overflowX drawsX overflowY drawsY : Prop}

/-- Only requested pixels are touched if and only if no overflow does harm. -/
lemma AxisSpec.forall_requested_iff (hX : AxisSpec touchedX requestedX overflowX drawsX)
    (hY : AxisSpec touchedY requestedY overflowY drawsY) :
    (∀ p q, touchedX p → touchedY q → requestedX p ∧ requestedY q) ↔
      AxesFit overflowX drawsX overflowY drawsY := by
  constructor
  · intro hall
    refine ⟨fun hover => not_or.mp fun htouched => ?_, fun hover => not_or.mp fun htouched => ?_⟩
    · obtain ⟨p, hp, hnot⟩ := hX.exists_of_overflow hover
      obtain ⟨q, hq⟩ := hY.exists_touched.mpr htouched
      exact hnot (hall p q hp hq).1
    · obtain ⟨q, hq, hnot⟩ := hY.exists_of_overflow hover
      obtain ⟨p, hp⟩ := hX.exists_touched.mpr htouched
      exact hnot (hall p q hp hq).2
  · rintro ⟨hfitX, hfitY⟩ p q hp hq
    -- both coordinates are touched, so neither may overflow
    have hnotX : ¬overflowX := fun hover =>
      not_or.mpr (hfitX hover) (hY.exists_touched.mp ⟨q, hq⟩)
    have hnotY : ¬overflowY := fun hover =>
      not_or.mpr (hfitY hover) (hX.exists_touched.mp ⟨p, hp⟩)
    exact ⟨hX.requested_of_touched hnotX p hp, hY.requested_of_touched hnotY q hq⟩

end

/-! ## FastBox -/

/-- Where the loops of `FastBox` start and how often they run. -/
def clippedBox (im : Size) (x y : Int32) (w h : UInt32) : Option ((ℤ × ℤ) × ℤ × ℤ) := do
  let (x, w) ← fromZero x.toInt w.toNat
  let (y, h) ← fromZero y.toInt h.toNat
  if x > im.width.toInt then none
  else if y > im.height.toInt then none
  else some ((x, clip x w im.width.toInt), y, clip y h im.height.toInt)

/-- The pixels that `FastBox` sets. -/
def fastBox (im : Size) (x y : Int32) (w h : UInt32) : List (ℤ × ℤ) :=
  match clippedBox im x y w h with
  | none => []
  | some ((x, w), y, h) =>
      (List.range h.toNat).flatMap fun ypos : ℕ =>
        (List.range w.toNat).map fun xpos : ℕ => (u32 (x + xpos), u32 (y + ypos))

/-- One coordinate of a box in an image. -/
structure BoxAxis where
  first : ℤ
  count : ℤ
  size : ℤ
  first_range : -2 ^ 31 ≤ first ∧ first < 2 ^ 31
  count_range : 0 ≤ count ∧ count < 2 ^ 32
  size_range : 0 ≤ size ∧ size < 2 ^ 31

namespace BoxAxis

variable (a : BoxAxis)

/-- Where the loop starts and how often it runs. -/
def clipped : Option (ℤ × ℤ) := do
  let (x, w) ← fromZero a.first a.count
  if x > a.size then none else some (x, clip x w a.size)

/-- What the loop touches. -/
def touched : List ℤ :=
  match a.clipped with
  | none => []
  | some (x, w) => (List.range w.toNat).map fun i : ℕ => u32 (x + i)

/-- The coordinate is in the image and in the box. -/
def Requested (i : ℤ) : Prop := (0 ≤ i ∧ i < a.size) ∧ a.first ≤ i ∧ i < a.first + a.count

/-- The end of the box does not fit into 32 bits, while its start is in the image. -/
def Overflow : Prop := 0 < a.first ∧ a.first ≤ a.size ∧ 2 ^ 32 ≤ a.first + a.count

/-- Some pixel of the image is in the box. -/
def Draws : Prop := ∃ i, a.Requested i

variable {a}

lemma mem_touched {i : ℤ} :
    i ∈ a.touched ↔ ∃ x w, a.clipped = some (x, w) ∧ ∃ k : ℕ, (k : ℤ) < w ∧ u32 (x + k) = i := by
  rw [touched]
  cases a.clipped with
  | none => simp
  | some span =>
    obtain ⟨x, w⟩ := span
    simp only [mem_map, mem_range, Option.some.injEq, Prod.mk.injEq]
    constructor
    · rintro ⟨k, hk, hi⟩
      exact ⟨x, w, ⟨rfl, rfl⟩, k, by omega, hi⟩
    · rintro ⟨_, _, ⟨rfl, rfl⟩, k, hk, hi⟩
      exact ⟨k, by omega, hi⟩

/-- The start and the number of rounds, without the wrap-around of the first step. -/
lemma clipped_eq : a.clipped =
    if 0 ≤ a.first + a.count ∧ a.first ≤ a.size then
      some (max a.first 0, clip (max a.first 0) (a.first + a.count - max a.first 0) a.size)
    else none := by
  have hfirst := a.first_range
  have hcount := a.count_range
  have hsize := a.size_range
  unfold clipped fromZero u32
  by_cases hneg : a.first < 0
  -- a negative start is cut off, together with as much of the count
  · have hmod : -a.first % 2 ^ 32 = -a.first := by omega
    rw [if_pos hneg, hmod]
    by_cases hlt : a.count < -a.first
    · rw [if_pos hlt, if_neg (by omega)]
      rfl
    · have hsum : (a.count + a.first) % 2 ^ 32 = a.first + a.count := by omega
      rw [if_neg hlt, if_pos (by omega), hsum, max_eq_right hneg.le, sub_zero]
      exact if_neg (by omega)
  · rw [if_neg hneg, max_eq_left (by omega)]
    change (if a.first > a.size then none else some _) = _
    by_cases hgt : a.first > a.size
    · rw [if_pos hgt, if_neg (by omega)]
    · rw [if_neg hgt, if_pos (by omega)]
      congr 3
      omega

/-- Without an overflow exactly those pixels are touched that were asked for. -/
lemma mem_touched_iff (h : ¬a.Overflow) (i : ℤ) : i ∈ a.touched ↔ a.Requested i := by
  have hcount := a.count_range
  have hsize := a.size_range
  rw [mem_touched, clipped_eq, Requested]
  unfold Overflow at h
  constructor
  · rintro ⟨x, w, hspan, k, hk, rfl⟩
    split at hspan
    · cases hspan
      unfold clip u32 at *
      split at hk <;> omega
    · cases hspan
  · rintro ⟨hin, hbox⟩
    rw [if_pos (by omega)]
    refine ⟨_, _, rfl, (i - max a.first 0).toNat, ?_, ?_⟩
    -- the round is counted from the start of the loop
    · unfold clip u32
      split <;> omega
    · unfold u32
      omega

lemma exists_touched_of_overflow (h : a.Overflow) : ∃ i ∈ a.touched, ¬a.Requested i := by
  obtain ⟨hpos, hle, hover⟩ := h
  have hcount := a.count_range
  have hsize := a.size_range
  -- the pixel behind the last one
  refine ⟨a.size, mem_touched.mpr ?_, fun hreq => lt_irrefl _ hreq.1.2⟩
  rw [clipped_eq, if_pos (by omega)]
  refine ⟨_, _, rfl, (a.size - a.first).toNat, ?_, ?_⟩
  · unfold clip u32
    split <;> omega
  · unfold u32
    omega

lemma axisSpec (a : BoxAxis) : AxisSpec (· ∈ a.touched) a.Requested a.Overflow a.Draws where
  requested_of_touched h p := (mem_touched_iff h p).mp
  exists_of_overflow := exists_touched_of_overflow
  exists_touched := by
    by_cases hover : a.Overflow
    · obtain ⟨p, hp, -⟩ := exists_touched_of_overflow hover
      exact iff_of_true ⟨p, hp⟩ (.inl hover)
    · rw [or_iff_right hover]
      exact exists_congr (mem_touched_iff hover)

end BoxAxis

/-- One coordinate of a call of `FastBox`. -/
def boxAxis (x : Int32) (w : UInt32) (size : Int32) (hsize : 0 ≤ size.toInt) : BoxAxis where
  first := x.toInt
  count := w.toNat
  size := size.toInt
  first_range := ⟨x.le_toInt, x.toInt_lt⟩
  count_range := ⟨Int.natCast_nonneg _, by exact_mod_cast w.toNat_lt⟩
  size_range := ⟨hsize, size.toInt_lt⟩

section Box

variable (im : Size) (x y : Int32) (w h : UInt32)

/-- The horizontal coordinate of a box. -/
def boxAxisX : BoxAxis := boxAxis x w im.width im.width_nonneg

/-- The vertical coordinate of a box. -/
def boxAxisY : BoxAxis := boxAxis y h im.height im.height_nonneg

/-- `FastBox` clips the coordinates one by one. -/
lemma clippedBox_eq :
    clippedBox im x y w h = (boxAxisX im x w).clipped.bind fun spanX =>
      (boxAxisY im y h).clipped.map fun spanY => (spanX, spanY) := by
  have hX : (boxAxisX im x w).clipped = (fromZero x.toInt w.toNat).bind fun span =>
      if span.1 > im.width.toInt then none
      else some (span.1, clip span.1 span.2 im.width.toInt) := rfl
  have hY : (boxAxisY im y h).clipped = (fromZero y.toInt h.toNat).bind fun span =>
      if span.1 > im.height.toInt then none
      else some (span.1, clip span.1 span.2 im.height.toInt) := rfl
  rw [hX, hY, clippedBox]
  rcases fromZero x.toInt w.toNat with _ | ⟨x, w⟩
  · rfl
  · rcases fromZero y.toInt h.toNat with _ | ⟨y, h⟩
    · simp
    · simp only [Option.bind_eq_bind, Option.bind_some]
      split_ifs <;> rfl

variable {im x y w h}

/-- The pixels of a box are those of the two coordinates. -/
lemma mem_fastBox {p : ℤ × ℤ} :
    p ∈ fastBox im x y w h ↔ p.1 ∈ (boxAxisX im x w).touched ∧ p.2 ∈ (boxAxisY im y h).touched := by
  rw [fastBox, clippedBox_eq, BoxAxis.touched, BoxAxis.touched]
  cases (boxAxisX im x w).clipped with
  | none => simp
  | some spanX =>
    cases (boxAxisY im y h).clipped with
    | none => simp
    | some spanY =>
      simp only [Option.bind_some, Option.map_some, mem_flatMap, mem_map, Prod.ext_iff]
      constructor
      · rintro ⟨j, hj, i, hi, hx, hy⟩
        exact ⟨⟨i, hi, hx⟩, j, hj, hy⟩
      · rintro ⟨⟨i, hi, hx⟩, j, hj, hy⟩
        exact ⟨j, hj, i, hi, hx, hy⟩

end Box

/-! ## FastBlit and RenderTo -/

/-- A pixel of the source is read for a pixel of the destination, which is written unless the first
one is transparent. -/
structure Copy where
  source : ℤ × ℤ
  dest : ℤ × ℤ
  deriving DecidableEq, Repr

/-- Where the loops start in the source and in the destination and how often they run, for a source
of `width` and `height`. `FastBlit` and `SHMSurface::RenderTo` have these lines in common. -/
def clippedBlit (width height : ℤ) (dst : Size) (srcX srcY dstX dstY : Int32) (w h : UInt32) :
    Option ((ℤ × ℤ × ℤ) × ℤ × ℤ × ℤ) := do
  -- what is negative in the source is cut off, and then what is negative in the destination
  let (srcX, dstX, w) ← shift srcX.toInt dstX.toInt w.toNat
  let (srcY, dstY, h) ← shift srcY.toInt dstY.toInt h.toNat
  let (dstX, srcX, w) ← shift dstX srcX w
  let (dstY, srcY, h) ← shift dstY srcY h
  if srcX > i32 width then none
  else if srcY > i32 height then none
  else if dstX > dst.width.toInt then none
  else if dstY > dst.height.toInt then none
  else
    let w := clip srcX w width
    let h := clip srcY h height
    let w := clip dstX w dst.width.toInt
    let h := clip dstY h dst.height.toInt
    some ((srcX, dstX, w), srcY, dstY, h)

/-- The loops over the pixels. -/
def copyPixels (clipped : Option ((ℤ × ℤ × ℤ) × ℤ × ℤ × ℤ)) : List Copy :=
  match clipped with
  | none => []
  | some ((srcX, dstX, w), srcY, dstY, h) =>
      (List.range h.toNat).flatMap fun y : ℕ =>
        (List.range w.toNat).map fun x : ℕ =>
          ⟨(u32 (srcX + x), u32 (srcY + y)), (u32 (dstX + x), u32 (dstY + y))⟩

/-- `FastBlit`. -/
def fastBlit (src dst : Size) (srcX srcY dstX dstY : Int32) (w h : UInt32) : List Copy :=
  copyPixels (clippedBlit src.width.toInt src.height.toInt dst srcX srcY dstX dstY w h)

/-- `SHMSurface::RenderTo`. -/
def renderTo (width height : UInt32) (dst : Size) (srcX srcY dstX dstY : Int32) (w h : UInt32) :
    List Copy :=
  copyPixels (clippedBlit width.toNat height.toNat dst srcX srcY dstX dstY w h)

/-- One coordinate of a copy. -/
structure BlitAxis where
  src : ℤ
  dst : ℤ
  count : ℤ
  /-- The size of the source. -/
  source : ℤ
  /-- The size of the destination. -/
  dest : ℤ
  src_range : -2 ^ 31 ≤ src ∧ src < 2 ^ 31
  dst_range : -2 ^ 31 ≤ dst ∧ dst < 2 ^ 31
  count_range : 0 ≤ count ∧ count < 2 ^ 32
  source_range : 0 ≤ source ∧ source < 2 ^ 32
  dest_range : 0 ≤ dest ∧ dest < 2 ^ 31

namespace BlitAxis

variable (a : BlitAxis)

/-- Where the loop starts in the source and in the destination, and how often it runs. -/
def clipped : Option (ℤ × ℤ × ℤ) := do
  let (src, dst, w) ← shift a.src a.dst a.count
  let (dst, src, w) ← shift dst src w
  if src > i32 a.source then none
  else if dst > a.dest then none
  else some (src, dst, clip dst (clip src w a.source) a.dest)

/-- What the loop touches in the source and in the destination. -/
def touched : List (ℤ × ℤ) :=
  match a.clipped with
  | none => []
  | some (src, dst, w) => (List.range w.toNat).map fun i : ℕ => (u32 (src + i), u32 (dst + i))

/-- The coordinates are in the images, that of the source is in the rectangle, and that of the
destination is where it belongs. -/
def Requested (p : ℤ × ℤ) : Prop :=
  (0 ≤ p.1 ∧ p.1 < a.source) ∧ (0 ≤ p.2 ∧ p.2 < a.dest) ∧
    (a.src ≤ p.1 ∧ p.1 < a.src + a.count) ∧ p.2 - a.dst = p.1 - a.src

/-- The first coordinate of the source that is in the rectangle, is not negative, and does not
belong to a negative one of the destination. -/
def first : ℤ := max a.src (max 0 (a.src - a.dst))

/-- The place of the start of the source in the destination does not fit into 32 bits. -/
def Folded : Prop := a.src < 0 ∧ 2 ^ 31 ≤ a.dst - a.src

/-- The copy goes wrong in this coordinate.

* The start in the destination was folded: it counts as a negative one, and the source is shifted by
  what is missing to `2 ^ 32`.
* Otherwise, the first coordinate is behind the end of the source but counts as a negative one; or
  the end in the source does not fit into 32 bits, and neither does that in the destination, or the
  destination has more room than the source. -/
def Overflow : Prop :=
  (a.Folded ∧ 2 ^ 32 ≤ a.dst + a.count ∧ i32 (a.src - a.dst) ≤ i32 a.source ∧ 0 < a.dest ∧
    (a.source < u32 (a.src - a.dst) ∨
      u32 (a.src - a.dst) < a.source ∧ 2 ^ 32 < a.dst + a.count)) ∨
  (¬a.Folded ∧ a.first ≤ a.src + a.count ∧ i32 a.first ≤ i32 a.source ∧
    a.first - a.src + a.dst ≤ a.dest ∧
    (a.source < a.first ∧ 0 < a.dest ∨
      a.first ≤ a.source ∧ 2 ^ 32 ≤ a.src + a.count ∧
        (2 ^ 32 ≤ a.dst + a.count ∨ a.source - a.first < a.dest - (a.first - a.src + a.dst))))

/-- Something is copied. A source of `2 ^ 31` or more counts as negative in the first comparison. -/
def Draws : Prop :=
  i32 a.first ≤ i32 a.source ∧ a.first < a.source ∧ a.first - a.src + a.dst < a.dest ∧
    a.first < a.src + a.count

variable {a} {p : ℤ × ℤ}

lemma mem_touched :
    p ∈ a.touched ↔ ∃ src dst w, a.clipped = some (src, dst, w) ∧
      ∃ k : ℕ, (k : ℤ) < w ∧ (u32 (src + k), u32 (dst + k)) = p := by
  rw [touched]
  cases a.clipped with
  | none => simp
  | some span =>
    obtain ⟨src, dst, w⟩ := span
    simp only [mem_map, mem_range, Option.some.injEq, Prod.mk.injEq]
    constructor
    · rintro ⟨k, hk, hp⟩
      exact ⟨src, dst, w, ⟨rfl, rfl, rfl⟩, k, by omega, hp⟩
    · rintro ⟨_, _, _, ⟨rfl, rfl, rfl⟩, k, hk, hp⟩
      exact ⟨k, by omega, hp⟩

lemma shift_eq {x w : ℤ} (hx : -2 ^ 31 ≤ x) (hw : 0 ≤ w ∧ w < 2 ^ 32) (other : ℤ) :
    shift x other w =
      if x < 0 then if 0 ≤ w + x then some (0, i32 (other - x), w + x) else none
      else some (x, other, w) := by
  unfold shift u32
  by_cases hneg : x < 0
  · have hmod : -x % 2 ^ 32 = -x := by omega
    rw [if_pos hneg, if_pos hneg, hmod]
    by_cases hlt : w < -x
    · rw [if_pos hlt, if_neg (by omega)]
    · have hsum : (w + x) % 2 ^ 32 = w + x := by omega
      rw [if_neg hlt, if_pos (by omega), hsum]
  · rw [if_neg hneg, if_neg hneg]

lemma i32_eq {z : ℤ} (h : -2 ^ 31 ≤ z ∧ z < 2 ^ 31) : i32 z = z := by
  unfold i32
  omega

/-- Both steps that make a coordinate non-negative, unless the start in the destination is
folded. -/
lemma shift_shift (h : ¬a.Folded) :
    ((shift a.src a.dst a.count).bind fun s => shift s.2.1 s.1 s.2.2) =
      if a.first ≤ a.src + a.count then
        some (a.first - a.src + a.dst, i32 a.first, a.src + a.count - a.first)
      else none := by
  have hsrc := a.src_range
  have hdst := a.dst_range
  have hcount := a.count_range
  have hfirst : a.first = max a.src (max 0 (a.src - a.dst)) := rfl
  unfold Folded at h
  rw [shift_eq hsrc.1 hcount]
  by_cases hneg : a.src < 0
  -- a negative source moves the destination, which may still be negative then
  · rw [if_pos hneg]
    by_cases hfits : 0 ≤ a.count + a.src
    · rw [if_pos hfits, i32_eq (by omega), Option.bind_some]
      dsimp only
      rw [shift_eq (by omega) (by omega)]
      by_cases hneg' : a.dst - a.src < 0
      · rw [if_pos hneg']
        by_cases hfits' : 0 ≤ a.count + a.src + (a.dst - a.src)
        · rw [if_pos hfits', if_pos (by omega), show a.first = a.src - a.dst by omega]
          congr 3 <;> ring_nf
        · rw [if_neg hfits', if_neg (by omega)]
      · rw [if_neg hneg', if_pos (by omega), show a.first = 0 by omega]
        congr 3 <;> ring_nf
    · rw [if_neg hfits, if_neg (by omega)]
      rfl
  · rw [if_neg hneg, Option.bind_some, shift_eq hdst.1 hcount]
    by_cases hneg' : a.dst < 0
    · rw [if_pos hneg']
      by_cases hfits : 0 ≤ a.count + a.dst
      · rw [if_pos hfits, if_pos (by omega), show a.first = a.src - a.dst by omega]
        congr 3 <;> ring_nf
      · rw [if_neg hfits, if_neg (by omega)]
    · rw [if_neg hneg', if_pos (by omega), show a.first = a.src by omega, i32_eq hsrc]
      congr 3 <;> ring_nf

/-- Both steps if it is folded: the second one is taken as well. -/
lemma shift_shift_of_folded (h : a.Folded) :
    ((shift a.src a.dst a.count).bind fun s => shift s.2.1 s.1 s.2.2) =
      if 2 ^ 32 ≤ a.dst + a.count then
        some (0, i32 (a.src - a.dst), a.dst + a.count - 2 ^ 32)
      else none := by
  have hsrc := a.src_range
  have hdst := a.dst_range
  have hcount := a.count_range
  obtain ⟨hneg, hfold⟩ := h
  rw [shift_eq hsrc.1 hcount, if_pos hneg]
  -- the sum has become negative, so that the second step is taken
  have hwrap : i32 (a.dst - a.src) = a.dst - a.src - 2 ^ 32 := by
    unfold i32
    omega
  by_cases hfits : 0 ≤ a.count + a.src
  · rw [if_pos hfits, hwrap, Option.bind_some]
    dsimp only
    rw [shift_eq (by omega) (by omega), if_pos (by omega)]
    by_cases hfits' : 2 ^ 32 ≤ a.dst + a.count
    · rw [if_pos hfits', if_pos (by omega)]
      have hsrc' : i32 (0 - (a.dst - a.src - 2 ^ 32)) = i32 (a.src - a.dst) := by
        unfold i32
        omega
      rw [hsrc']
      congr 3
      ring
    · rw [if_neg hfits', if_neg (by omega)]
  · rw [if_neg hfits, if_neg (by omega)]
    rfl

lemma clipped_eq : a.clipped =
    ((shift a.src a.dst a.count).bind fun s => shift s.2.1 s.1 s.2.2).bind fun s =>
      if s.2.1 > i32 a.source then none
      else if s.1 > a.dest then none
      else some (s.2.1, s.1, clip s.1 (clip s.2.1 s.2.2 a.source) a.dest) := by
  rw [clipped]
  cases shift a.src a.dst a.count with
  | none => rfl
  | some s => rfl

lemma u32_i32_add (z k : ℤ) : u32 (i32 z + k) = u32 (z + k) := by
  unfold u32 i32
  omega

lemma clip_i32 (z w size : ℤ) : clip (i32 z) w size = clip z w size := by
  have hsub : u32 (size - i32 z) = u32 (size - z) := by
    unfold u32 i32
    omega
  rw [clip, clip, u32_i32_add, hsub]

/-- What is touched, where both steps leave `len` coordinates from `first` and `dst` on. -/
lemma mem_touched_of_shift {c : Prop} [Decidable c] {first dst len : ℤ}
    (hshift : ((shift a.src a.dst a.count).bind fun s => shift s.2.1 s.1 s.2.2) =
      if c then some (dst, i32 first, len) else none) : p ∈ a.touched ↔
    (c ∧ i32 first ≤ i32 a.source ∧ dst ≤ a.dest) ∧
      ∃ k : ℕ, (k : ℤ) < clip dst (clip first len a.source) a.dest ∧
        (u32 (first + k), u32 (dst + k)) = p := by
  rw [mem_touched, clipped_eq, hshift]
  by_cases hcount : c
  · rw [if_pos hcount, Option.bind_some]
    by_cases hsource : i32 first > i32 a.source
    · simp [hsource]
    · by_cases hdest : dst > a.dest
      · simp [hdest]
      · rw [if_neg hsource, if_neg hdest, clip_i32]
        constructor
        · rintro ⟨_, _, _, heq, k, hk, hp⟩
          cases heq
          rw [u32_i32_add] at hp
          exact ⟨⟨hcount, not_lt.mp hsource, not_lt.mp hdest⟩, k, hk, hp⟩
        · rintro ⟨-, k, hk, hp⟩
          exact ⟨_, _, _, rfl, k, hk, by rw [u32_i32_add]; exact hp⟩
  · simp [hcount]

/-- What is touched, unless the start in the destination is folded. -/
lemma mem_touched_iff (h : ¬a.Folded) : p ∈ a.touched ↔
    (a.first ≤ a.src + a.count ∧ i32 a.first ≤ i32 a.source ∧
        a.first - a.src + a.dst ≤ a.dest) ∧
      ∃ k : ℕ, (k : ℤ) < clip (a.first - a.src + a.dst)
          (clip a.first (a.src + a.count - a.first) a.source) a.dest ∧
        (u32 (a.first + k), u32 (a.first - a.src + a.dst + k)) = p :=
  mem_touched_of_shift (shift_shift h)

/-- What is touched if it is folded. -/
lemma mem_touched_iff_of_folded (h : a.Folded) : p ∈ a.touched ↔
    (2 ^ 32 ≤ a.dst + a.count ∧ i32 (a.src - a.dst) ≤ i32 a.source) ∧
      ∃ k : ℕ, (k : ℤ) < clip 0 (clip (a.src - a.dst) (a.dst + a.count - 2 ^ 32) a.source) a.dest ∧
        (u32 (a.src - a.dst + k), u32 (0 + k)) = p := by
  rw [mem_touched_of_shift (shift_shift_of_folded h), and_iff_left a.dest_range.1]

lemma first_bounds (a : BlitAxis) : (0 ≤ a.first ∧ a.src ≤ a.first ∧ a.src - a.dst ≤ a.first) ∧
    a.first < 2 ^ 32 ∧ (2 ^ 31 ≤ a.first → a.first = a.src - a.dst) := by
  have hsrc := a.src_range
  have hdst := a.dst_range
  unfold first
  omega

section

variable (hfirst : a.first ≤ a.src + a.count ∧ i32 a.first ≤ i32 a.source ∧
  a.first - a.src + a.dst ≤ a.dest)

include hfirst

/-- The number of rounds, where the first coordinate is in the source. -/
lemma rounds_eq (hsource : a.first ≤ a.source) :
    clip (a.first - a.src + a.dst) (clip a.first (a.src + a.count - a.first) a.source) a.dest =
      if a.src + a.count < 2 ^ 32 then
        min (min (a.src + a.count - a.first) (a.source - a.first))
          (a.dest - (a.first - a.src + a.dst))
      else if a.dst + a.count < 2 ^ 32 then
        min (a.src + a.count - a.first) (a.dest - (a.first - a.src + a.dst))
      else a.src + a.count - a.first := by
  have hcount := a.count_range
  have hrange := a.source_range
  have hdest := a.dest_range
  have hbounds := a.first_bounds
  obtain ⟨hend, hsigned, hfits⟩ := hfirst
  split
  · next hlt =>
    rw [clip_eq_min (by omega) (by omega) (by omega) hrange.2]
    refine clip_eq_min (by omega) (by omega) ?_ (by omega)
    -- a source of half the numbers or more is only met from the start of the destination
    unfold i32 at hsigned
    omega
  · next hge =>
    -- the end in the source wraps around: the comparison with the source does nothing
    rw [clip_of_overflow (by omega) (by omega) (by omega) hrange.2]
    split
    · exact clip_eq_min (by omega) (by omega) (by omega) (by omega)
    · exact clip_of_overflow (by omega) (by omega) (by omega) (by omega)

/-- If the first coordinate is behind the source, the room in the destination counts. -/
lemma rounds_pos_iff (hsource : a.source < a.first) :
    0 < clip (a.first - a.src + a.dst)
      (clip a.first (a.src + a.count - a.first) a.source) a.dest ↔ 0 < a.dest := by
  have hcount := a.count_range
  have hrange := a.source_range
  have hdest := a.dest_range
  have hbounds := a.first_bounds
  obtain ⟨hend, hsigned, hfits⟩ := hfirst
  -- the first coordinate counts as a negative number, and the source does not
  have hhalf : a.source < 2 ^ 31 ∧ 2 ^ 31 ≤ a.first := by
    unfold i32 at hsigned
    omega
  clear hsigned
  have hzero : a.first - a.src + a.dst = 0 := by omega
  have hpos : 0 < clip a.first (a.src + a.count - a.first) a.source := by
    unfold clip u32
    split <;> omega
  have hlt : clip a.first (a.src + a.count - a.first) a.source < 2 ^ 32 :=
    (clip_range _ _ (by omega)).2
  rw [hzero, clip_eq_min (by omega) hpos.le (by omega) (by omega)]
  omega

end

/-- If the start in the destination is folded, something is touched where there is room for it. -/
lemma rounds_pos_iff_of_folded (h : a.Folded) (hover : 2 ^ 32 ≤ a.dst + a.count) :
    0 < clip 0 (clip (a.src - a.dst) (a.dst + a.count - 2 ^ 32) a.source) a.dest ↔
      0 < a.dest ∧ (a.source < u32 (a.src - a.dst) ∨
        u32 (a.src - a.dst) < a.source ∧ 2 ^ 32 < a.dst + a.count) := by
  have hsrc := a.src_range
  have hdst := a.dst_range
  have hcount := a.count_range
  have hsource := a.source_range
  have hdest := a.dest_range
  obtain ⟨hneg, hfold⟩ := h
  have hu : u32 (a.src - a.dst) = a.src - a.dst + 2 ^ 32 := by
    unfold u32
    omega
  have hrange := clip_range (a.src - a.dst) a.source
    (show 0 ≤ a.dst + a.count - 2 ^ 32 ∧ a.dst + a.count - 2 ^ 32 < 2 ^ 32 by omega)
  rw [clip_eq_min (by omega) hrange.1 (by omega) (by omega), lt_min_iff, sub_zero, and_comm, hu]
  refine and_congr_right fun _ => ?_
  unfold clip
  rw [show u32 (a.src - a.dst + (a.dst + a.count - 2 ^ 32)) = a.src + a.count by
    unfold u32
    omega]
  unfold u32
  split <;> omega

/-- Without an overflow only those pixels are touched that were asked for. -/
lemma requested_of_touched (h : ¬a.Overflow) (hp : p ∈ a.touched) :
    a.Requested p := by
  have hsource := a.source_range
  have hdest := a.dest_range
  have hbounds := a.first_bounds
  by_cases hfold : a.Folded
  · rw [mem_touched_iff_of_folded hfold] at hp
    obtain ⟨⟨hover, hsigned⟩, k, hk, rfl⟩ := hp
    -- whatever is touched then is wrong
    have hwrong := (rounds_pos_iff_of_folded hfold hover).mp (by omega)
    exact absurd (.inl ⟨hfold, hover, hsigned, hwrong⟩) h
  · rw [mem_touched_iff hfold] at hp
    obtain ⟨hfirst, k, hk, rfl⟩ := hp
    -- a round behind the end of the source is an overflow
    have hle : a.first ≤ a.source := by
      by_contra hlt
      have hpos := (rounds_pos_iff hfirst (not_le.mp hlt)).mp (by omega)
      exact h (.inr ⟨hfold, hfirst.1, hfirst.2.1, hfirst.2.2, .inl ⟨not_le.mp hlt, hpos⟩⟩)
    have hright : ¬(2 ^ 32 ≤ a.src + a.count ∧ (2 ^ 32 ≤ a.dst + a.count ∨
        a.source - a.first < a.dest - (a.first - a.src + a.dst))) := fun hwrong =>
      h (.inr ⟨hfold, hfirst.1, hfirst.2.1, hfirst.2.2, .inr ⟨hle, hwrong⟩⟩)
    rw [rounds_eq hfirst hle] at hk
    unfold Requested u32
    split_ifs at hk <;> refine ⟨⟨?_, ?_⟩, ⟨?_, ?_⟩, ⟨?_, ?_⟩, ?_⟩ <;> dsimp only <;> omega

/-- With an overflow some other pixel is touched. -/
lemma exists_touched_of_overflow (h : a.Overflow) : ∃ p ∈ a.touched, ¬a.Requested p := by
  have hsource := a.source_range
  have hbounds := a.first_bounds
  rcases h with ⟨hfold, hover, hsigned, hroom, hwrong⟩ |
    ⟨hfold, hend, hsigned, hfits, ⟨hbehind, hroom⟩ | ⟨hle, hover, hwrong⟩⟩
  -- the first round writes to the start of the destination, where nothing belongs
  · refine ⟨_, (mem_touched_iff_of_folded hfold).mpr ⟨⟨hover, hsigned⟩, 0, ?_, rfl⟩, ?_⟩
    · exact (rounds_pos_iff_of_folded hfold hover).mpr ⟨hroom, hwrong⟩
    · unfold Requested u32
      obtain ⟨hneg, hfold⟩ := hfold
      dsimp only
      omega
  · have hfirst := And.intro hend (And.intro hsigned hfits)
    -- the first round is already behind the end of the source
    refine ⟨_, (mem_touched_iff hfold).mpr ⟨hfirst, 0, ?_, rfl⟩, ?_⟩
    · exact (rounds_pos_iff hfirst hbehind).mpr hroom
    · unfold Requested u32
      dsimp only
      omega
  · have hfirst := And.intro hend (And.intro hsigned hfits)
    -- the end of the source is reached
    refine ⟨_, (mem_touched_iff hfold).mpr ⟨hfirst, (a.source - a.first).toNat, ?_, rfl⟩, ?_⟩
    · rw [rounds_eq hfirst hle, if_neg (by omega)]
      split <;> omega
    · unfold Requested u32
      dsimp only
      omega

/-- Something is touched if and only if there is an overflow or something to copy. -/
lemma exists_touched_iff : (∃ p, p ∈ a.touched) ↔ a.Overflow ∨ a.Draws := by
  have hdest := a.dest_range
  have hmax : a.first = max a.src (max 0 (a.src - a.dst)) := rfl
  constructor
  · rintro ⟨p, hp⟩
    by_cases hover : a.Overflow
    · exact .inl hover
    · obtain ⟨hin, hout, hrect, hplace⟩ := requested_of_touched hover hp
      -- a folded start has no place in the destination for what was asked for
      have hfold : ¬a.Folded := by
        unfold Folded
        omega
      obtain ⟨⟨-, hsigned, -⟩, -⟩ := (mem_touched_iff hfold).mp hp
      exact .inr ⟨hsigned, by omega, by omega, by omega⟩
  · rintro (hover | ⟨hsigned, hlt, hroom, hend⟩)
    · obtain ⟨p, hp, -⟩ := exists_touched_of_overflow hover
      exact ⟨p, hp⟩
    · have hfold : ¬a.Folded := by
        unfold Folded
        omega
      have hfirst := And.intro hend.le (And.intro hsigned hroom.le)
      refine ⟨_, (mem_touched_iff hfold).mpr ⟨hfirst, 0, ?_, rfl⟩⟩
      rw [rounds_eq hfirst hlt.le]
      split_ifs <;> omega

lemma axisSpec (a : BlitAxis) : AxisSpec (· ∈ a.touched) a.Requested a.Overflow a.Draws where
  requested_of_touched h _ := requested_of_touched h
  exists_of_overflow := exists_touched_of_overflow
  exists_touched := exists_touched_iff

end BlitAxis

/-- One coordinate of a copy. -/
def blitAxis (src dst : Int32) (w : UInt32) (source : ℤ)
    (hsource : 0 ≤ source ∧ source < 2 ^ 32) (dest : Int32) (hdest : 0 ≤ dest.toInt) :
    BlitAxis where
  src := src.toInt
  dst := dst.toInt
  count := w.toNat
  source := source
  dest := dest.toInt
  src_range := ⟨src.le_toInt, src.toInt_lt⟩
  dst_range := ⟨dst.le_toInt, dst.toInt_lt⟩
  count_range := ⟨Int.natCast_nonneg _, by exact_mod_cast w.toNat_lt⟩
  source_range := hsource
  dest_range := ⟨hdest, dest.toInt_lt⟩

section Blit

variable {width height : ℤ} (hwidth : 0 ≤ width ∧ width < 2 ^ 32)
  (hheight : 0 ≤ height ∧ height < 2 ^ 32) (dst : Size) (srcX srcY dstX dstY : Int32)
  (w h : UInt32)

/-- The coordinates of a copy are clipped one by one. -/
lemma clippedBlit_eq : clippedBlit width height dst srcX srcY dstX dstY w h =
    (blitAxis srcX dstX w width hwidth dst.width dst.width_nonneg).clipped.bind fun spanX =>
      (blitAxis srcY dstY h height hheight dst.height dst.height_nonneg).clipped.map fun spanY =>
        (spanX, spanY) := by
  have hX : (blitAxis srcX dstX w width hwidth dst.width dst.width_nonneg).clipped =
      ((shift srcX.toInt dstX.toInt w.toNat).bind fun s => shift s.2.1 s.1 s.2.2).bind fun s =>
        if s.2.1 > i32 width then none
        else if s.1 > dst.width.toInt then none
        else some (s.2.1, s.1, clip s.1 (clip s.2.1 s.2.2 width) dst.width.toInt) :=
    BlitAxis.clipped_eq
  have hY : (blitAxis srcY dstY h height hheight dst.height dst.height_nonneg).clipped =
      ((shift srcY.toInt dstY.toInt h.toNat).bind fun s => shift s.2.1 s.1 s.2.2).bind fun s =>
        if s.2.1 > i32 height then none
        else if s.1 > dst.height.toInt then none
        else some (s.2.1, s.1, clip s.1 (clip s.2.1 s.2.2 height) dst.height.toInt) :=
    BlitAxis.clipped_eq
  rw [hX, hY, clippedBlit]
  rcases shift srcX.toInt dstX.toInt w.toNat with _ | ⟨sx, dx, w1⟩
  · rfl
  -- the order in which the coordinates are refused does not matter
  · rcases shift srcY.toInt dstY.toInt h.toNat with _ | ⟨sy, dy, h1⟩
    · simp
    · simp only [Option.bind_eq_bind, Option.bind_some]
      rcases shift dx sx w1 with _ | ⟨dx, sx, w2⟩
      · rfl
      · rcases shift dy sy h1 with _ | ⟨dy, sy, h2⟩
        · simp
        · simp only [Option.bind_some]
          split_ifs <;> rfl

/-- The pixels of a copy are those of the two coordinates. -/
lemma mem_copyPixels {c : Copy} :
    c ∈ copyPixels (clippedBlit width height dst srcX srcY dstX dstY w h) ↔
      (c.source.1, c.dest.1) ∈
          (blitAxis srcX dstX w width hwidth dst.width dst.width_nonneg).touched ∧
        (c.source.2, c.dest.2) ∈
          (blitAxis srcY dstY h height hheight dst.height dst.height_nonneg).touched := by
  rw [clippedBlit_eq hwidth hheight, BlitAxis.touched, BlitAxis.touched]
  obtain ⟨⟨sx, sy⟩, dx, dy⟩ := c
  cases (blitAxis srcX dstX w width hwidth dst.width dst.width_nonneg).clipped with
  | none => simp [copyPixels]
  | some spanX =>
    cases (blitAxis srcY dstY h height hheight dst.height dst.height_nonneg).clipped with
    | none => simp [copyPixels]
    | some spanY =>
      simp only [copyPixels, Option.bind_some, Option.map_some, mem_flatMap, mem_map,
        Copy.mk.injEq, Prod.mk.injEq]
      constructor
      · rintro ⟨j, hj, i, hi, ⟨hsx, hsy⟩, hdx, hdy⟩
        exact ⟨⟨i, hi, hsx, hdx⟩, j, hj, hsy, hdy⟩
      · rintro ⟨⟨i, hi, hsx, hdx⟩, j, hj, hsy, hdy⟩
        exact ⟨j, hj, i, hi, ⟨hsx, hsy⟩, hdx, hdy⟩

end Blit

/-! ## What was asked for -/

/-- A pixel of an image. -/
def Inside (width height : ℤ) (p : ℤ × ℤ) : Prop :=
  (0 ≤ p.1 ∧ p.1 < width) ∧ 0 ≤ p.2 ∧ p.2 < height

/-- A pixel of a rectangle. -/
def InRect (x y w h : ℤ) (p : ℤ × ℤ) : Prop := (x ≤ p.1 ∧ p.1 < x + w) ∧ y ≤ p.2 ∧ p.2 < y + h

/-- `FastBox` sets exactly the pixels of the image that are in the box. -/
def BoxExact (im : Size) (x y : Int32) (w h : UInt32) : Prop :=
  ∀ p, p ∈ fastBox im x y w h ↔
    Inside im.width.toInt im.height.toInt p ∧ InRect x.toInt y.toInt w.toNat h.toNat p

/-- A copy reads and writes pixels of the images only, reads those of the rectangle, and writes each
to its place. -/
def CopiesExact (width height : ℤ) (dst : Size) (srcX srcY dstX dstY : Int32) (w h : UInt32)
    (copies : List Copy) : Prop :=
  ∀ c ∈ copies, Inside width height c.source ∧
    Inside dst.width.toInt dst.height.toInt c.dest ∧
    InRect srcX.toInt srcY.toInt w.toNat h.toNat c.source ∧
    c.dest.1 - dstX.toInt = c.source.1 - srcX.toInt ∧
    c.dest.2 - dstY.toInt = c.source.2 - srcY.toInt

/-- Boxes are exact if and only if no overflow does harm. -/
lemma boxExact_iff (im : Size) (x y : Int32) (w h : UInt32) :
    BoxExact im x y w h ↔
      AxesFit (boxAxisX im x w).Overflow (boxAxisX im x w).Draws (boxAxisY im y h).Overflow
        (boxAxisY im y h).Draws := by
  have hexact : BoxExact im x y w h ↔ ∀ p : ℤ × ℤ,
      p.1 ∈ (boxAxisX im x w).touched ∧ p.2 ∈ (boxAxisY im y h).touched ↔
        (boxAxisX im x w).Requested p.1 ∧ (boxAxisY im y h).Requested p.2 := by
    refine forall_congr' fun p => ?_
    rw [mem_fastBox]
    refine iff_congr Iff.rfl ?_
    simp only [Inside, InRect, BoxAxis.Requested, boxAxisX, boxAxisY, boxAxis]
    tauto
  rw [hexact]
  generalize boxAxisX im x w = X, boxAxisY im y h = Y
  rw [← X.axisSpec.forall_requested_iff Y.axisSpec]
  constructor
  · intro hall p q hp hq
    exact (hall (p, q)).mp ⟨hp, hq⟩
  · intro hall p
    refine ⟨fun hp => hall p.1 p.2 hp.1 hp.2, fun hp => ?_⟩
    -- something is drawn in both coordinates, so that neither overflows
    have hfit := (X.axisSpec.forall_requested_iff Y.axisSpec).mp hall
    have hX : ¬X.Overflow := fun hover => (hfit.1 hover).2 ⟨p.2, hp.2⟩
    have hY : ¬Y.Overflow := fun hover => (hfit.2 hover).2 ⟨p.1, hp.1⟩
    exact ⟨(BoxAxis.mem_touched_iff hX _).mpr hp.1, (BoxAxis.mem_touched_iff hY _).mpr hp.2⟩

/-- Copies are exact if and only if no overflow does harm. -/
lemma copiesExact_iff {width height : ℤ} (hwidth : 0 ≤ width ∧ width < 2 ^ 32)
    (hheight : 0 ≤ height ∧ height < 2 ^ 32) (dst : Size) (srcX srcY dstX dstY : Int32)
    (w h : UInt32) :
    CopiesExact width height dst srcX srcY dstX dstY w h
        (copyPixels (clippedBlit width height dst srcX srcY dstX dstY w h)) ↔
      AxesFit (blitAxis srcX dstX w width hwidth dst.width dst.width_nonneg).Overflow
        (blitAxis srcX dstX w width hwidth dst.width dst.width_nonneg).Draws
        (blitAxis srcY dstY h height hheight dst.height dst.height_nonneg).Overflow
        (blitAxis srcY dstY h height hheight dst.height dst.height_nonneg).Draws := by
  rw [← (BlitAxis.axisSpec _).forall_requested_iff (BlitAxis.axisSpec _)]
  constructor
  · intro hall p q hp hq
    have hc := hall ⟨(p.1, q.1), (p.2, q.2)⟩
      ((mem_copyPixels hwidth hheight dst srcX srcY dstX dstY w h).mpr ⟨hp, hq⟩)
    simp only [Inside, InRect] at hc
    simp only [BlitAxis.Requested, blitAxis]
    tauto
  · intro hall c hc
    obtain ⟨hp, hq⟩ := (mem_copyPixels hwidth hheight dst srcX srcY dstX dstY w h).mp hc
    have hreq := hall _ _ hp hq
    simp only [BlitAxis.Requested, blitAxis] at hreq
    simp only [Inside, InRect]
    tauto

lemma toInt_range {z : Int32} (hz : 0 ≤ z.toInt) : 0 ≤ z.toInt ∧ z.toInt < 2 ^ 32 :=
  ⟨hz, z.toInt_lt.trans (by decide)⟩

lemma toNat_range (n : UInt32) : 0 ≤ (n.toNat : ℤ) ∧ (n.toNat : ℤ) < 2 ^ 32 :=
  ⟨Int.natCast_nonneg _, by exact_mod_cast n.toNat_lt⟩

/-- For all sizes and all numbers of 32 bits: `FastBox` sets exactly the pixels of the box, and
`FastBlit` and `RenderTo` touch only what was asked for, if and only if no overflow does harm. -/
theorem clipping_iff (im src dst : Size) (width height : UInt32) (x y srcX srcY dstX dstY : Int32)
    (w h : UInt32) :
    (BoxExact im x y w h ↔
      AxesFit (boxAxisX im x w).Overflow (boxAxisX im x w).Draws (boxAxisY im y h).Overflow
        (boxAxisY im y h).Draws) ∧
    (CopiesExact src.width.toInt src.height.toInt dst srcX srcY dstX dstY w h
        (fastBlit src dst srcX srcY dstX dstY w h) ↔
      let X := blitAxis srcX dstX w src.width.toInt (toInt_range src.width_nonneg) dst.width
        dst.width_nonneg
      let Y := blitAxis srcY dstY h src.height.toInt (toInt_range src.height_nonneg) dst.height
        dst.height_nonneg
      AxesFit X.Overflow X.Draws Y.Overflow Y.Draws) ∧
    (CopiesExact width.toNat height.toNat dst srcX srcY dstX dstY w h
        (renderTo width height dst srcX srcY dstX dstY w h) ↔
      let X := blitAxis srcX dstX w width.toNat (toNat_range width) dst.width dst.width_nonneg
      let Y := blitAxis srcY dstY h height.toNat (toNat_range height) dst.height dst.height_nonneg
      AxesFit X.Overflow X.Draws Y.Overflow Y.Draws) :=
  ⟨boxExact_iff im x y w h, copiesExact_iff _ _ dst srcX srcY dstX dstY w h,
    copiesExact_iff _ _ dst srcX srcY dstX dstY w h⟩

/-- A square image. -/
def square (n : Int32) (hn : 0 ≤ n.toInt) : Size := ⟨n, n, hn, hn⟩

/-- A box that starts in the middle of a small image and is as wide as a number of 32 bits allows is
drawn over the end of the row, and so is a copy of such a rectangle to a larger image. -/
theorem exists_not_exact : ∃ (im dst : Size) (x : Int32) (w : UInt32),
    ¬BoxExact im x 0 w 1 ∧
    ¬CopiesExact im.width.toInt im.height.toInt dst x 0 0 0 w 1 (fastBlit im dst x 0 0 0 w 1) ∧
    ¬CopiesExact 10 10 dst x 0 0 0 w 1 (renderTo 10 10 dst x 0 0 0 w 1) := by
  refine ⟨square 10 (by decide), square 20 (by decide), 5, 0xFFFFFFFF, ?_, ?_, ?_⟩
  · intro h
    have hfit := ((boxExact_iff _ _ _ _ _).mp h).1 ⟨by decide, by decide, by decide⟩
    exact hfit.2 ⟨0, ⟨by decide, by decide⟩, by decide, by decide⟩
  · intro h
    have hfit := ((copiesExact_iff (toInt_range (square 10 (by decide)).width_nonneg)
      (toInt_range (square 10 (by decide)).height_nonneg) _ _ _ _ _ _ _).mp h).1
      (.inr ⟨fun hfold => absurd hfold.1 (by decide), by decide, by decide, by decide,
        .inr ⟨by decide, by decide, .inr (by decide)⟩⟩)
    exact hfit.2 ⟨by decide, by decide, by decide, by decide⟩
  · intro h
    have hfit := ((copiesExact_iff (toNat_range 10) (toNat_range 10) _ _ _ _ _ _ _).mp h).1
      (.inr ⟨fun hfold => absurd hfold.1 (by decide), by decide, by decide, by decide,
        .inr ⟨by decide, by decide, .inr (by decide)⟩⟩)
    exact hfit.2 ⟨by decide, by decide, by decide, by decide⟩

end Gds
