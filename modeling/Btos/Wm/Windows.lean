import Btos.Lib.Painting
import Btos.Wm.Rect

/-!
# Drawing windows

`DrawWindows` of `windows.cpp` paints a rectangle of the screen anew. It looks for the topmost
visible window that contains the rectangle, and starts with this window; only if there is none, it
paints the background and starts with the lowest window.

What it calls is `Screen.Box` and `Window::Draw`. The first paints the pixels of a rectangle in the
colour of the background, and the second one the pixels of an opaque window inside of a rectangle.

The shortcut rests on `Contains`, which goes wrong where `operator==` does: `drawsStack_iff` says
when the picture is that of all windows, and `exists_not_stack` is a window that is not. That the
windows have different z-orders is due to `BringToFront` (`stacked_of_step`), and that the window in
front is what is seen as well (`front_seen`).
-/

open List

namespace Wm

open Painting

/-- What `DrawWindows` reads of a `Window`. -/
structure Window where
  id : ℕ
  /-- `GetZOrder()`. -/
  z : ℕ
  /-- `GetVisible()`. -/
  visible : Bool
  /-- `GetBoundingRect()`. -/
  bounds : Rect
  deriving DecidableEq, Repr

/-- The map `windows`, in the order of its keys. -/
structure Desktop where
  windows : List Window
  /-- The keys are the ids. -/
  nodup : (windows.map Window.id).Nodup

/-- A call that paints: on the whole screen, or on a rectangle of it. -/
inductive Op where
  /-- `Screen.Box` in the colour of the background. -/
  | box (r : Option Rect)
  /-- `Window::Draw`. -/
  | draw (w : Window) (r : Option Rect)
  deriving Repr

namespace Desktop

variable (d : Desktop)

/-- `SortWindows`. -/
def sortWindows : List Window := d.windows.insertionSort fun a b => a.z ≤ b.z

/-- The window from which on windows are drawn. -/
def lastWin (r : Rect) (above : ℕ) (rect : Bool) : Option Window :=
  if rect && above == 0 then
    d.sortWindows.reverse.find? fun w => w.visible && contains w.bounds r
  else if above ≠ 0 then d.sortWindows.find? fun w => w.id == above
  else none

end Desktop

/-- A round of the loop in `DrawWindows`: `drawing`, and the calls so far. -/
def drawRound (r : Rect) (above : ℕ) (rect : Bool) (lastWin : Option Window)
    (s : Bool × List Op) (w : Window) : Bool × List Op :=
  if !w.visible then s
  else
    let drawing := s.1 || ((rect || above != 0) && lastWin.any fun last => last.id == w.id)
    if !drawing then (drawing, s.2)
    else if rect && overlaps r w.bounds then (drawing, s.2 ++ [.draw w (some r)])
    else if !rect then (drawing, s.2 ++ [.draw w none])
    else (drawing, s.2)

/-- `DrawWindows`, up to the window that is dragged and the menus. -/
def Desktop.drawWindows (d : Desktop) (r : Rect) (above : ℕ) : List Op :=
  let rect := r.x != 0 || r.y != 0 || r.w != 0 || r.h != 0
  let lastWin := d.lastWin r above rect
  let drawing := lastWin.isNone
  let background := if drawing then [Op.box (if rect then some r else none)] else []
  (d.sortWindows.foldl (drawRound r above rect lastWin) (drawing, background)).2

/-! ## Pictures -/

/-- What may be seen at a pixel. -/
inductive Seen where
  | background
  | window (w : Window)

/-- The part of the screen that is meant. -/
def part : Option Rect → Set (ℤ × ℤ)
  | some r => r.pixels
  | none => Set.univ

/-- What a call paints. -/
def Op.layer : Op → Layer (ℤ × ℤ) Seen
  | .box r => ⟨part r, .background⟩
  | .draw w r => ⟨w.bounds.pixels ∩ part r, .window w⟩

/-- The background and then all visible windows, from bottom to top. -/
def Desktop.stack (d : Desktop) : List (Layer (ℤ × ℤ) Seen) :=
  ⟨Set.univ, .background⟩ ::
    (d.sortWindows.filter (·.visible)).map fun w => ⟨w.bounds.pixels, .window w⟩

/-- Whatever was on the screen and whatever the windows look like, the pixels of the rectangle are
afterwards as if everything had been painted. -/
def Desktop.DrawsStack (d : Desktop) (r : Rect) : Prop :=
  ∀ (colour : Seen → ℤ × ℤ → UInt32) (screen : ℤ × ℤ → UInt32), ∀ q ∈ r.pixels,
    paintAll colour ((d.drawWindows r 0).map Op.layer) screen q =
      paintAll colour d.stack screen q

/-! ## Which windows are drawn -/

section Drawn

variable {d : Desktop} {r : Rect} {w : Window}

lemma mem_sortWindows : w ∈ d.sortWindows ↔ w ∈ d.windows :=
  mem_insertionSort _

/-- Windows with different z-orders are sorted from bottom to top. -/
lemma pairwise_sortWindows (hz : (d.windows.map Window.z).Nodup) :
    d.sortWindows.Pairwise fun a b => a.z < b.z := by
  have : Std.Total fun a b : Window => a.z ≤ b.z := ⟨fun a b => le_total a.z b.z⟩
  have : IsTrans Window fun a b => a.z ≤ b.z := ⟨fun _ _ _ => le_trans⟩
  have hle : d.sortWindows.Pairwise fun a b => a.z ≤ b.z :=
    pairwise_insertionSort _ d.windows
  have hne : d.sortWindows.Pairwise fun a b => a.z ≠ b.z := by
    have hperm := (perm_insertionSort (fun a b : Window => a.z ≤ b.z) d.windows).map Window.z
    exact pairwise_map.mp (hperm.nodup_iff.mpr hz)
  exact hle.imp₂ (fun _ _ hle hne => lt_of_le_of_ne hle hne) hne

lemma eq_of_id {w w' : Window} (hw : w ∈ d.windows) (hw' : w' ∈ d.windows) (hid : w.id = w'.id) :
    w = w' :=
  inj_on_of_nodup_map d.nodup hw hw' hid

/-- The windows that are drawn: those that are visible, overlap the rectangle, and are not below
the window with which the drawing starts. -/
def drawn (r : Rect) (lastWin : Option Window) (w : Window) : Bool :=
  w.visible && overlaps r w.bounds && lastWin.all fun last => last.z ≤ w.z

lemma drawRound_drawing (lastWin : Option Window) (ops : List Op) (w : Window) :
    drawRound r 0 true lastWin (true, ops) w =
      (true, ops ++ if w.visible && overlaps r w.bounds then [.draw w (some r)] else []) := by
  by_cases hvisible : w.visible <;> by_cases hover : overlaps r w.bounds <;>
    simp [drawRound, hvisible, hover]

lemma foldl_drawing (lastWin : Option Window) (wins : List Window) (ops : List Op) :
    (wins.foldl (drawRound r 0 true lastWin) (true, ops)).2 =
      ops ++ (wins.filter (drawn r none)).map fun w => .draw w (some r) := by
  induction wins generalizing ops with
  | nil => simp
  | cons w wins ih =>
    rw [foldl_cons, drawRound_drawing, ih]
    by_cases hdrawn : w.visible && overlaps r w.bounds <;> simp [drawn, hdrawn]

/-- Windows are skipped up to the one with which the drawing starts. -/
lemma foldl_waiting {last : Window} (hvisible : last.visible) {wins : List Window}
    (hsorted : wins.Pairwise fun a b => a.z < b.z) (hmem : last ∈ wins)
    (hid : ∀ w ∈ wins, w.id = last.id → w = last) :
    (wins.foldl (drawRound r 0 true (some last)) (false, [])).2 =
      (wins.filter (drawn r (some last))).map fun w => .draw w (some r) := by
  induction wins with
  | nil => simp at hmem
  | cons w wins ih =>
    rw [pairwise_cons] at hsorted
    by_cases hlast : w = last
    · -- the windows behind it are above it
      subst hlast
      have hfilter : (w :: wins).filter (drawn r (some w)) = (w :: wins).filter (drawn r none) := by
        refine filter_congr fun w' hw' => ?_
        have hle : w.z ≤ w'.z := by
          rcases mem_cons.mp hw' with rfl | hw'
          · exact le_rfl
          · exact (hsorted.1 w' hw').le
        simp [drawn, hle]
      have hstart : drawRound r 0 true (some w) (false, []) w =
          drawRound r 0 true (some w) (true, []) w := by
        simp [drawRound, hvisible]
      rw [foldl_cons, hstart, ← foldl_cons, foldl_drawing, hfilter, nil_append]
    · have hmem' : last ∈ wins := (mem_cons.mp hmem).resolve_left (Ne.symm hlast)
      have hbelow : w.z < last.z := hsorted.1 last hmem'
      have hne : last.id ≠ w.id := fun heq => hlast (hid w (by simp) heq.symm)
      have hskip : drawRound r 0 true (some last) (false, []) w = (false, []) := by
        simp [drawRound, hne]
      rw [foldl_cons, hskip, ih hsorted.2 hmem' fun w' hw' => hid w' (by simp [hw'])]
      simp [drawn, not_le.mpr hbelow]

/-- The topmost visible window of which `Contains` says that it contains the rectangle. -/
structure Topmost (d : Desktop) (r : Rect) (w : Window) : Prop where
  mem : w ∈ d.windows
  visible : w.visible
  contains : contains w.bounds r
  top : ∀ w' ∈ d.windows, w'.visible → Wm.contains w'.bounds r → w'.z ≤ w.z

lemma lastWin_eq (d : Desktop) (r : Rect) : d.lastWin r 0 true =
    d.sortWindows.reverse.find? fun w => w.visible && contains w.bounds r := rfl

lemma not_topmost_of_lastWin (h : d.lastWin r 0 true = none) (w : Window) : ¬Topmost d r w := by
  intro htop
  rw [lastWin_eq, find?_eq_none] at h
  exact h w (by simpa using mem_sortWindows.mpr htop.mem) (by simp [htop.visible, htop.contains])

section

variable (hz : (d.windows.map Window.z).Nodup)
include hz

lemma topmost_of_lastWin (h : d.lastWin r 0 true = some w) : Topmost d r w := by
  rw [lastWin_eq, find?_eq_some_iff_append] at h
  obtain ⟨hw, above, below, heq, habove⟩ := h
  rw [Bool.and_eq_true] at hw
  have hsort : d.sortWindows = below.reverse ++ w :: above.reverse := by
    rw [← reverse_reverse d.sortWindows, heq]
    simp
  have hmem : w ∈ d.windows := mem_sortWindows.mp (by simp [hsort])
  refine ⟨hmem, hw.1, hw.2, fun w' hw' hvisible hcontains => ?_⟩
  have hsorted := pairwise_sortWindows hz
  have hw' := mem_sortWindows.mpr hw'
  rw [hsort] at hw' hsorted
  rcases mem_append.mp hw' with hlow | hhigh
  · exact ((pairwise_append.mp hsorted).2.2 w' hlow w (by simp)).le
  · rcases mem_cons.mp hhigh with rfl | hhigh
    · exact le_rfl
    · -- it would have been found first
      have hnot := habove w' (mem_reverse.mp hhigh)
      simp [hvisible, hcontains] at hnot

lemma Topmost.unique {w w' : Window} (h : Topmost d r w) (h' : Topmost d r w') : w = w' :=
  inj_on_of_nodup_map hz h.mem h'.mem
    (le_antisymm (h'.top w h.mem h.visible h.contains) (h.top w' h'.mem h'.visible h'.contains))

lemma lastWin_of_topmost (h : Topmost d r w) : d.lastWin r 0 true = some w := by
  cases hlast : d.lastWin r 0 true with
  | none => exact absurd h (not_topmost_of_lastWin hlast w)
  | some last => rw [(topmost_of_lastWin hz hlast).unique hz h]

/-- The calls of `DrawWindows` for a rectangle with pixels. -/
lemma drawWindows_eq (hr : r.w ≠ 0) :
    d.drawWindows r 0 =
      (if (d.lastWin r 0 true).isNone then [.box (some r)] else []) ++
        (d.sortWindows.filter (drawn r (d.lastWin r 0 true))).map fun w => .draw w (some r) := by
  have hrect : (r.x != 0 || r.y != 0 || r.w != 0 || r.h != 0) = true := by simp [hr]
  rw [Desktop.drawWindows, hrect]
  cases hlast : d.lastWin r 0 true with
  | none => simp [foldl_drawing]
  | some last =>
    have htop := topmost_of_lastWin hz hlast
    have hwait := foldl_waiting (r := r) htop.visible (pairwise_sortWindows hz)
      (mem_sortWindows.mpr htop.mem) fun w hw hid => eq_of_id (mem_sortWindows.mp hw) htop.mem hid
    simpa using hwait

end

/-! ## What is seen -/

/-- The visible window that has the pixel and is above all others that do. -/
structure OnTop (d : Desktop) (q : ℤ × ℤ) (w : Window) : Prop where
  mem : w ∈ d.windows
  visible : w.visible
  has : q ∈ w.bounds.pixels
  top : ∀ w' ∈ d.windows, w'.visible → w.z < w'.z → q ∉ w'.bounds.pixels

lemma exists_onTop {q : ℤ × ℤ} (hmem : w ∈ d.windows) (hvisible : w.visible)
    (hhas : q ∈ w.bounds.pixels) : ∃ t, OnTop d q t ∧ w.z ≤ t.z := by
  classical
  obtain ⟨t, ht, hmax⟩ := Finset.exists_max_image
    (d.windows.toFinset.filter fun w => w.visible ∧ q ∈ w.bounds.pixels) Window.z
    ⟨w, by simp [hmem, hvisible, hhas]⟩
  simp only [Finset.mem_filter, mem_toFinset] at ht hmax
  refine ⟨t, ⟨ht.1, ht.2.1, ht.2.2, fun w' hw' hvisible' hlt hhas' => ?_⟩,
    hmax w ⟨hmem, hvisible, hhas⟩⟩
  exact absurd (hmax w' ⟨hw', hvisible', hhas'⟩) (not_le.mpr hlt)

section Shown

variable {q : ℤ × ℤ}

lemma shown_stack_of_onTop (hz : (d.windows.map Window.z).Nodup)
    (h : OnTop d q w) : shown d.stack q = some (.window w) := by
  have hwindows := shown_map_of_top (fun w => w.bounds.pixels) Seen.window
    ((pairwise_sortWindows hz).filter (·.visible))
    (mem_filter.mpr ⟨mem_sortWindows.mpr h.mem, h.visible⟩) h.has (by
      intro w' hw' hlt
      obtain ⟨hw', hvisible⟩ := mem_filter.mp hw'
      exact h.top w' (mem_sortWindows.mp hw') hvisible hlt)
  rw [Desktop.stack, shown_cons_of_mem (Set.mem_univ q), hwindows]
  rfl

lemma shown_stack_of_empty (h : ∀ w ∈ d.windows, w.visible → q ∉ w.bounds.pixels) :
    shown d.stack q = some .background := by
  rw [Desktop.stack, shown_cons_of_mem (Set.mem_univ q), shown_eq_none]
  · rfl
  · rintro layer hlayer
    obtain ⟨w, hw, rfl⟩ := mem_map.mp hlayer
    obtain ⟨hw, hvisible⟩ := mem_filter.mp hw
    exact h w (mem_sortWindows.mp hw) hvisible

section

variable (hz : (d.windows.map Window.z).Nodup) (hr : r.w ≠ 0)
include hz hr

lemma map_layer_drawWindows :
    (d.drawWindows r 0).map Op.layer =
      (if (d.lastWin r 0 true).isNone then [⟨r.pixels, .background⟩] else []) ++
        (d.sortWindows.filter (drawn r (d.lastWin r 0 true))).map fun w =>
          ⟨w.bounds.pixels ∩ r.pixels, .window w⟩ := by
  rw [drawWindows_eq hz hr, map_append, map_map]
  cases (d.lastWin r 0 true) <;> rfl

/-- What is on top at a pixel is seen if and only if it is drawn. -/
lemma shown_drawWindows_iff (hq : q ∈ r.pixels) (h : OnTop d q w) :
    shown ((d.drawWindows r 0).map Op.layer) q = some (.window w) ↔
      drawn r (d.lastWin r 0 true) w := by
  rw [map_layer_drawWindows hz hr]
  constructor
  · intro hshown
    obtain ⟨layer, hlayer, hlabel, -⟩ := exists_of_shown hshown
    rcases mem_append.mp hlayer with hbox | hdraw
    · split at hbox <;> simp at hbox
      simp [hbox] at hlabel
    · obtain ⟨w', hw', rfl⟩ := mem_map.mp hdraw
      obtain rfl := Seen.window.inj hlabel
      exact (mem_filter.mp hw').2
  · intro hdrawn
    have hwindows := shown_map_of_top (fun w => w.bounds.pixels ∩ r.pixels) Seen.window
      ((pairwise_sortWindows hz).filter (drawn r (d.lastWin r 0 true)))
      (mem_filter.mpr ⟨mem_sortWindows.mpr h.mem, hdrawn⟩) ⟨h.has, hq⟩ (by
        intro w' hw' hlt hmem
        obtain ⟨hw', hdrawn'⟩ := mem_filter.mp hw'
        simp only [drawn, Bool.and_eq_true] at hdrawn'
        exact h.top w' (mem_sortWindows.mp hw') hdrawn'.1.1 hlt hmem.1)
    rw [shown_append, hwindows]
    rfl

/-- Where there is no visible window, the background is seen if and only if it is painted. -/
lemma shown_drawWindows_of_empty
    (hq : q ∈ r.pixels) (h : ∀ w ∈ d.windows, w.visible → q ∉ w.bounds.pixels) :
    shown ((d.drawWindows r 0).map Op.layer) q = some .background ↔ d.lastWin r 0 true = none := by
  have hwindows : shown ((d.sortWindows.filter (drawn r (d.lastWin r 0 true))).map fun w =>
      (⟨w.bounds.pixels ∩ r.pixels, .window w⟩ : Layer (ℤ × ℤ) Seen)) q = none := by
    refine shown_eq_none fun layer hlayer hmem => ?_
    obtain ⟨w, hw, rfl⟩ := mem_map.mp hlayer
    obtain ⟨hw, hdrawn⟩ := mem_filter.mp hw
    simp only [drawn, Bool.and_eq_true] at hdrawn
    exact h w (mem_sortWindows.mp hw) hdrawn.1.1 hmem.1
  rw [map_layer_drawWindows hz hr, shown_append, hwindows]
  cases d.lastWin r 0 true with
  | none => simp [shown, hq]
  | some last => simp

end

end Shown

/-- The window with which the drawing starts and the visible ones above it have all pixels of the
rectangle, and `Overlaps` finds every window that is on top at one of them. -/
structure Unbroken (d : Desktop) (r : Rect) : Prop where
  covers : ∀ w, Topmost d r w → ∀ q ∈ r.pixels, ∃ w' ∈ d.windows, w'.visible ∧ w.z ≤ w'.z ∧
    q ∈ w'.bounds.pixels
  finds : ∀ w, ∀ q ∈ r.pixels, OnTop d q w → overlaps r w.bounds

lemma drawsStack_iff_shown (d : Desktop) (r : Rect) : d.DrawsStack r ↔
    ∀ q ∈ r.pixels, shown ((d.drawWindows r 0).map Op.layer) q = shown d.stack q := by
  have : Nontrivial UInt32 := ⟨0, 1, by decide⟩
  constructor
  · intro hdraws q hq
    exact (forall_paint_eq_iff _ _ q).mp fun colour screen => hdraws colour screen q hq
  · intro hshown colour screen q hq
    exact (forall_paint_eq_iff _ _ q).mpr (hshown q hq) colour screen

lemma w_ne_zero (hr : r.pixels.Nonempty) : r.w ≠ 0 := by
  obtain ⟨q, hq⟩ := hr
  rw [mem_pixels, r.right_eq] at hq
  intro hzero
  simp [hzero] at hq
  omega

section

variable (hz : (d.windows.map Window.z).Nodup)
include hz

lemma drawn_of_onTop (hdraws : d.DrawsStack r)
    {q : ℤ × ℤ} (hq : q ∈ r.pixels) (honTop : OnTop d q w) : drawn r (d.lastWin r 0 true) w :=
  (shown_drawWindows_iff hz (w_ne_zero ⟨q, hq⟩) hq honTop).mp
    (((drawsStack_iff_shown d r).mp hdraws q hq).trans (shown_stack_of_onTop hz honTop))

lemma unbroken_of_drawsStack (hdraws : d.DrawsStack r) :
    Unbroken d r := by
  refine ⟨fun w htop q hq => ?_, fun w q hq honTop => ?_⟩
  · have hlast := lastWin_of_topmost hz htop
    by_cases hany : ∃ w' ∈ d.windows, w'.visible ∧ q ∈ w'.bounds.pixels
    · obtain ⟨w', hmem, hvisible, hhas⟩ := hany
      obtain ⟨t, honTop, -⟩ := exists_onTop hmem hvisible hhas
      have ht := drawn_of_onTop hz hdraws hq honTop
      simp only [hlast, drawn, Option.all_some, Bool.and_eq_true, decide_eq_true_eq] at ht
      exact ⟨t, honTop.mem, honTop.visible, ht.2, honTop.has⟩
    · -- the background is seen there, and it was not painted
      have hempty : ∀ w' ∈ d.windows, w'.visible → q ∉ w'.bounds.pixels :=
        fun w' hmem hvisible hhas => hany ⟨w', hmem, hvisible, hhas⟩
      have hnone := (shown_drawWindows_of_empty hz (w_ne_zero ⟨q, hq⟩) hq hempty).mp
        (((drawsStack_iff_shown d r).mp hdraws q hq).trans (shown_stack_of_empty hempty))
      simp [hlast] at hnone
  · have hdrawn := drawn_of_onTop hz hdraws hq honTop
    simp only [drawn, Bool.and_eq_true] at hdrawn
    exact hdrawn.1.2

/-- A window that is on top is drawn if nothing breaks the shortcut. -/
lemma Unbroken.drawn (h : Unbroken d r) {q : ℤ × ℤ}
    (hq : q ∈ r.pixels) {t : Window} (honTop : OnTop d q t) :
    Wm.drawn r (d.lastWin r 0 true) t := by
  have hover := h.finds t q hq honTop
  have habove : (d.lastWin r 0 true).all fun last => decide (last.z ≤ t.z) := by
    cases hlast : d.lastWin r 0 true with
    | none => rfl
    | some last =>
      obtain ⟨w, hmem, hvisible, hle, hhas⟩ := h.covers last (topmost_of_lastWin hz hlast) q hq
      -- a window above the one that is on top would have the pixel
      have hle' : w.z ≤ t.z := by
        by_contra hlt
        exact honTop.top w hmem hvisible (not_le.mp hlt) hhas
      simpa using hle.trans hle'
  simp [Wm.drawn, honTop.visible, hover, habove]

lemma drawsStack_of_unbroken (h : Unbroken d r) :
    d.DrawsStack r := by
  refine (drawsStack_iff_shown d r).mpr fun q hq => ?_
  have hw := w_ne_zero ⟨q, hq⟩
  by_cases hany : ∃ w ∈ d.windows, w.visible ∧ q ∈ w.bounds.pixels
  · obtain ⟨w, hmem, hvisible, hhas⟩ := hany
    obtain ⟨t, honTop, -⟩ := exists_onTop hmem hvisible hhas
    rw [shown_stack_of_onTop hz honTop, shown_drawWindows_iff hz hw hq honTop]
    exact h.drawn hz hq honTop
  · have hempty : ∀ w ∈ d.windows, w.visible → q ∉ w.bounds.pixels :=
      fun w hmem hvisible hhas => hany ⟨w, hmem, hvisible, hhas⟩
    rw [shown_stack_of_empty hempty, shown_drawWindows_of_empty hz hw hq hempty]
    by_contra hlast
    obtain ⟨last, hlast⟩ := Option.ne_none_iff_exists'.mp hlast
    obtain ⟨w, hmem, hvisible, -, hhas⟩ := h.covers last (topmost_of_lastWin hz hlast) q hq
    exact hempty w hmem hvisible hhas

end

lemma unbroken_of_small (hr : r.Small) (hbounds : ∀ w ∈ d.windows, w.bounds.Small)
    (heq : ∀ w ∈ d.windows, w.visible → eqRect w.bounds r → w.bounds = r) : Unbroken d r := by
  refine ⟨fun w htop q hq => ⟨w, htop.mem, htop.visible, le_rfl, ?_⟩, fun w q hq honTop => ?_⟩
  · have hsub := subset_iff_of_contains (hbounds w htop.mem) hr htop.contains
    exact hsub.mpr (heq w htop.mem htop.visible) hq
  · exact (overlaps_exact hr (hbounds w honTop.mem)).mpr ⟨q, hq, honTop.has⟩

/-- For windows with different z-orders, `DrawWindows` leaves the picture of all windows if and
only if nothing breaks the shortcut. -/
theorem drawsStack_iff (d : Desktop) (r : Rect) (hz : (d.windows.map Window.z).Nodup) :
    d.DrawsStack r ↔ Unbroken d r :=
  ⟨unbroken_of_drawsStack hz, drawsStack_of_unbroken hz⟩

end Drawn

/-- A window, and a smaller one above it. -/
def twoWindows : Desktop where
  windows := [⟨1, 7, true, ⟨0, 0, 10, 10⟩⟩, ⟨2, 9, true, ⟨4, 4, 8, 8⟩⟩]
  nodup := by decide

/-- A rectangle in the lower window, with which drawing begins, and partly in the upper one. -/
theorem drawsStack_twoWindows :
    Topmost twoWindows ⟨1, 3, 5, 5⟩ ⟨1, 7, true, ⟨0, 0, 10, 10⟩⟩ ∧
      twoWindows.DrawsStack ⟨1, 3, 5, 5⟩ := by
  have hsmall : (⟨1, 3, 5, 5⟩ : Rect).Small := by constructor <;> decide
  refine ⟨⟨by decide, by decide, by decide, by decide⟩, ?_⟩
  refine (drawsStack_iff _ _ (by decide)).mpr (unbroken_of_small hsmall ?_ (by decide))
  simp only [twoWindows, mem_cons, not_mem_nil, or_false, forall_eq_or_imp, forall_eq]
  exact ⟨by constructor <;> decide, by constructor <;> decide⟩

/-- One window in the corner of the screen. -/
def cornerWindow : Desktop where
  windows := [⟨1, 1, true, ⟨0, 0, 2, 2⟩⟩]
  nodup := by decide

/-- A rectangle of the same size beside the window is not painted at all. -/
theorem exists_not_stack : ∃ (d : Desktop) (r : Rect), (d.windows.map Window.z).Nodup ∧
    r.pixels.Nonempty ∧ ¬ d.DrawsStack r := by
  have hq : ((4, 0) : ℤ × ℤ) ∈ (⟨4, 0, 2, 2⟩ : Rect).pixels := by
    rw [mem_pixels]
    decide
  refine ⟨cornerWindow, ⟨4, 0, 2, 2⟩, by decide, ⟨_, hq⟩, fun hdraws => ?_⟩
  have htop : Topmost cornerWindow ⟨4, 0, 2, 2⟩ ⟨1, 1, true, ⟨0, 0, 2, 2⟩⟩ := by
    refine ⟨by decide, by decide, by decide, by decide⟩
  obtain ⟨w, hw, -, -, hhas⟩ := (unbroken_of_drawsStack (by decide) hdraws).covers _ htop _ hq
  simp only [cornerWindow, mem_singleton] at hw
  subst hw
  rw [mem_pixels] at hhas
  revert hhas
  decide

/-! ## Z-orders -/

/-- The keys of `windows`, and the z-order of every window. There is no room for `2 ^ 32` windows,
so that it does not wrap around. -/
structure Stacking where
  windows : Finset UInt64
  z : UInt64 → ℕ
  idCounter : UInt64

namespace Stacking

/-- `AddWindow` for a new window. -/
def addWindow (s : Stacking) : Stacking :=
  let id := s.idCounter + 1
  ⟨insert id s.windows, Function.update s.z id 0, id⟩

/-- `SetZOrder(++zcounter)` for each window of a vector. -/
def renumber (z : UInt64 → ℕ) (wins : List UInt64) : (UInt64 → ℕ) × ℕ :=
  wins.foldl (fun r w => (Function.update r.1 w (r.2 + 1), r.2 + 1)) (z, 0)

/-- `BringToFront`, where `wins` is the sorted vector. -/
def bringToFront (s : Stacking) (wins : List UInt64) (win : UInt64) : Stacking :=
  { s with z := (renumber s.z (wins ++ [win])).1 }

/-- What `sort` may leave. -/
def Sorts (s : Stacking) (wins : List UInt64) : Prop :=
  (∀ w, w ∈ wins ↔ w ∈ s.windows) ∧ wins.Pairwise fun a b => s.z a ≤ s.z b

/-- A step, and the window that it brings to front. -/
inductive Step (s : Stacking) : Stacking → Option UInt64 → Prop where
  | create {wins} : s.addWindow.Sorts wins →
      Step s (s.addWindow.bringToFront wins s.addWindow.idCounter) s.addWindow.idCounter
  | front {wins win} : win ∈ s.windows → s.Sorts wins →
      Step s (s.bringToFront wins win) win
  | remove {id} : id ∈ s.windows →
      Step s { s with windows := s.windows.erase id } none

inductive Reachable : Stacking → Prop where
  | start {s : Stacking} : s.windows = ∅ → Reachable s
  | step {s s' top} : Reachable s → Step s s' top → Reachable s'

/-- At most the window `top` has another place in the order. -/
structure Stacked (s s' : Stacking) (top : Option UInt64) : Prop where
  distinct : Set.InjOn s'.z s'.windows
  above : ∀ w ∈ top, ∀ a ∈ s'.windows, a ≠ w → s'.z a < s'.z w
  order : ∀ a ∈ s'.windows, ∀ b ∈ s'.windows, a ∉ top → b ∉ top →
    (s'.z a < s'.z b ↔ s.z a < s.z b)

variable {s s' : Stacking} {top : Option UInt64} {wins : List UInt64}

lemma renumber_append (z : UInt64 → ℕ) (wins : List UInt64) (w : UInt64) :
    renumber z (wins ++ [w]) = (Function.update (renumber z wins).1 w ((renumber z wins).2 + 1),
      (renumber z wins).2 + 1) := by
  simp [renumber]

/-- A sorted vector gets different z-orders in the same order. -/
lemma renumber_spec {z : UInt64 → ℕ} (h : wins.Pairwise fun a b => z a ≤ z b) :
    ∀ a ∈ wins, (renumber z wins).1 a ≤ (renumber z wins).2 ∧ ∀ b ∈ wins,
      ((renumber z wins).1 a = (renumber z wins).1 b → a = b) ∧
      ((renumber z wins).1 a < (renumber z wins).1 b → z a ≤ z b) := by
  induction wins using reverseRecOn with
  | nil => simp
  | append_singleton wins w ih =>
    obtain ⟨hsorted, -, hlast⟩ := pairwise_append.mp h
    have hspec := ih hsorted
    have hmem : ∀ a ∈ wins ++ [w], a ≠ w → a ∈ wins := fun a ha hne =>
      (mem_append.mp ha).resolve_right (mt mem_singleton.mp hne)
    -- `w` gets a larger z-order than all before it, whose z-orders stay
    simp only [renumber_append, Function.update_apply]
    intro a ha
    rcases eq_or_ne a w with rfl | haw
    · rw [if_pos rfl]
      refine ⟨le_rfl, fun b hb => ?_⟩
      rcases eq_or_ne b a with rfl | hba
      · simp
      · have hle := (hspec b (hmem b hb hba)).1
        rw [if_neg hba]
        exact ⟨fun heq => by omega, fun hlt => by omega⟩
    · obtain ⟨hle, hothers⟩ := hspec a (hmem a ha haw)
      rw [if_neg haw]
      refine ⟨by omega, fun b hb => ?_⟩
      rcases eq_or_ne b w with rfl | hbw
      · rw [if_pos rfl]
        exact ⟨fun heq => by omega, fun _ => hlast a (hmem a ha haw) b (mem_singleton_self b)⟩
      · rw [if_neg hbw]
        exact hothers b (hmem b hb hbw)

/-- The z-order that `win` has had does not matter. -/
lemma Sorts.stacked {t : Stacking} {win : UInt64} (h : t.Sorts wins) (hz : Set.InjOn s.z s.windows)
    (hold : ∀ a ∈ t.windows, a ≠ win → a ∈ s.windows ∧ t.z a = s.z a) :
    Stacked s (t.bringToFront wins win) win := by
  obtain ⟨hmem, hsorted⟩ := h
  have hspec : ∀ a ∈ t.windows, _ := fun a ha => renumber_spec hsorted a ((hmem a).mpr ha)
  have hz' : ∀ a, (t.bringToFront wins win).z a =
      if a = win then (renumber t.z wins).2 + 1 else (renumber t.z wins).1 a := fun a => by
    simp only [bringToFront, renumber_append, Function.update_apply]
  have habove : ∀ a ∈ t.windows, a ≠ win →
      (t.bringToFront wins win).z a < (t.bringToFront wins win).z win := by
    intro a ha hne
    rw [hz', hz', if_neg hne, if_pos rfl]
    exact Nat.lt_succ_of_le (hspec a ha).1
  refine ⟨fun a ha b hb heq => ?_, ?_, fun a ha b hb haw hbw => ?_⟩
  · rcases eq_or_ne a win with rfl | haw
    · by_contra hne
      exact (habove b hb (Ne.symm hne)).ne heq.symm
    rcases eq_or_ne b win with rfl | hbw
    · exact absurd heq (habove a ha haw).ne
    rw [hz', hz', if_neg haw, if_neg hbw] at heq
    exact ((hspec a ha).2 b ((hmem b).mpr hb)).1 heq
  · rintro w ⟨⟩ a ha hne
    exact habove a ha hne
  -- of two windows, the one that was below the other is before it in the vector
  · have haw : a ≠ win := fun h => haw (h ▸ rfl)
    have hbw : b ≠ win := fun h => hbw (h ▸ rfl)
    obtain ⟨hsa, hza⟩ := hold a ha haw
    obtain ⟨hsb, hzb⟩ := hold b hb hbw
    have hab := (hspec a ha).2 b ((hmem b).mpr hb)
    have hba := (hspec b hb).2 a ((hmem a).mpr ha)
    rw [hz', hz', if_neg haw, if_neg hbw, ← hza, ← hzb]
    constructor
    · intro hlt
      refine lt_of_le_of_ne (hab.2 hlt) fun heq => ?_
      rw [hza, hzb] at heq
      exact hlt.ne (congrArg _ (hz hsa hsb heq))
    · intro hlt
      by_contra hge
      rcases eq_or_lt_of_le (not_lt.mp hge) with heq | hgt
      · exact hlt.ne (congrArg _ (hba.1 heq).symm)
      · exact absurd hlt (not_lt.mpr (hba.2 hgt))

lemma Step.stacked (h : Step s s' top) (hz : Set.InjOn s.z s.windows) : Stacked s s' top := by
  cases h with
  | create h =>
    exact h.stacked hz fun a ha hne =>
      ⟨Finset.mem_of_mem_insert_of_ne ha hne, Function.update_of_ne hne _ _⟩
  | front _ h => exact h.stacked hz fun a ha _ => ⟨ha, rfl⟩
  | remove => exact ⟨hz.mono fun a => Finset.mem_of_mem_erase, nofun, fun _ _ _ _ _ _ => .rfl⟩

/-- In every run the z-orders differ, and a step changes the place of one window at most. -/
theorem stacked_of_step (hs : Reachable s) (h : Step s s' top) : Stacked s s' top := by
  induction hs generalizing s' top with
  | start hs => exact h.stacked (by simp [hs])
  | step _ h' ih => exact h.stacked (ih h').distinct

/-- Three windows are created one after the other. -/
def threeWindows : Stacking :=
  (((⟨∅, fun _ => 0, 0⟩ : Stacking).addWindow.bringToFront [1] 1).addWindow.bringToFront [2, 1]
    2).addWindow.bringToFront [3, 1, 2] 3

lemma threeWindows_reachable : threeWindows.Reachable := by
  have h1 := Reachable.step (.start rfl) (@Step.create ⟨∅, fun _ => 0, 0⟩ [1] ⟨by
    simp [addWindow], by simp⟩)
  have h2 := h1.step (@Step.create _ [2, 1] ⟨by simp [addWindow, bringToFront], by decide⟩)
  refine h2.step (@Step.create _ [3, 1, 2] ⟨fun w => ?_, by decide⟩)
  simp [addWindow, bringToFront]
  tauto

lemma threeWindows_step : threeWindows.Step (threeWindows.bringToFront [1, 2, 3] 1) (some 1) := by
  refine .front (by decide) ⟨fun w => ?_, by decide⟩
  simp [threeWindows, addWindow, bringToFront]
  tauto

/-- The window that was at the back is brought to front. -/
theorem stacked_threeWindows : ∃ s', threeWindows.Step s' (some 1) ∧
    threeWindows.z 1 < threeWindows.z 2 ∧ s'.z 2 < s'.z 1 ∧ Stacked threeWindows s' (some 1) :=
  ⟨_, threeWindows_step, by decide, by decide,
    stacked_of_step threeWindows_reachable threeWindows_step⟩

/-! ## The window in front -/

lemma Reachable.injOn (h : Reachable s) : Set.InjOn s.z s.windows := by
  induction h with
  | start hs => simp [hs]
  | step _ h ih => exact (h.stacked ih).distinct

/-- The windows of a desktop have the z-orders of the stacking. -/
def Orders (s : Stacking) (d : Desktop) : Prop :=
  ∀ w ∈ d.windows, ∃ id ∈ s.windows, id.toNat = w.id ∧ s.z id = w.z

variable {d : Desktop} {r : Rect} {w : Window}

lemma Orders.nodup (h : s.Orders d) (hz : Set.InjOn s.z s.windows) :
    (d.windows.map Window.z).Nodup := by
  refine d.nodup.of_map.map_on fun a ha b hb heq => ?_
  obtain ⟨i, hi, hia, hza⟩ := h a ha
  obtain ⟨j, hj, hjb, hzb⟩ := h b hb
  obtain rfl : i = j := hz hi hj (by rw [hza, hzb, heq])
  exact eq_of_id ha hb (hia.symm.trans hjb)

/-- A visible window that was brought to front is what `DrawWindows` leaves where it is, if nothing
breaks the shortcut. -/
theorem front_seen {id : UInt64} (hs : Reachable s) (h : Step s s' (some id)) (hd : s'.Orders d)
    (hw : w ∈ d.windows) (hid : w.id = id.toNat) (hvisible : w.visible) (hr : Unbroken d r)
    (colour : Seen → ℤ × ℤ → UInt32) (screen : ℤ × ℤ → UInt32) {q : ℤ × ℤ} (hq : q ∈ r.pixels)
    (hhas : q ∈ w.bounds.pixels) :
    paintAll colour ((d.drawWindows r 0).map Op.layer) screen q = colour (.window w) q := by
  have hstacked := h.stacked hs.injOn
  have hz := hd.nodup hstacked.distinct
  have honTop : OnTop d q w := by
    refine ⟨hw, hvisible, hhas, fun w' hw' _ hlt => ?_⟩
    -- only the window itself could be above it
    obtain ⟨i, -, hiw, hzi⟩ := hd w hw
    obtain ⟨j, hj, -, hzj⟩ := hd w' hw'
    obtain rfl : i = id := UInt64.toNat_inj.mp (hiw.trans hid)
    rcases eq_or_ne j i with rfl | hne
    · omega
    · have habove := hstacked.above i rfl j hj hne
      omega
  have hdrawn := hr.drawn hz hq honTop
  rw [paintAll_apply, (shown_drawWindows_iff hz (w_ne_zero ⟨q, hq⟩) hq honTop).mpr hdrawn]
  rfl

/-- The three windows; the first one is in front of the others and covers a part of them. -/
def firstInFront : Desktop where
  windows := [⟨1, 4, true, ⟨4, 4, 10, 10⟩⟩, ⟨2, 2, true, ⟨2, 2, 12, 12⟩⟩,
    ⟨3, 3, true, ⟨0, 0, 20, 20⟩⟩]
  nodup := by decide

/-- A rectangle in all three windows. -/
theorem front_seen_firstInFront :
    (paintAll · ((firstInFront.drawWindows ⟨6, 6, 3, 3⟩ 0).map Op.layer) (fun _ => 0) (7, 7)) =
      fun colour => (colour (.window ⟨1, 4, true, ⟨4, 4, 10, 10⟩⟩) (7, 7) : UInt32) := by
  funext colour
  have hr : Unbroken firstInFront ⟨6, 6, 3, 3⟩ := by
    refine unbroken_of_small (by constructor <;> decide) ?_ (by decide)
    simp only [firstInFront, mem_cons, not_mem_nil, or_false, forall_eq_or_imp, forall_eq]
    refine ⟨?_, ?_, ?_⟩ <;> constructor <;> decide
  have horders : (threeWindows.bringToFront [1, 2, 3] 1).Orders firstInFront := by
    simp only [Orders, firstInFront, mem_cons, not_mem_nil, or_false, forall_eq_or_imp, forall_eq]
    exact ⟨⟨1, by decide, rfl, rfl⟩, ⟨2, by decide, rfl, rfl⟩, ⟨3, by decide, rfl, rfl⟩⟩
  refine front_seen threeWindows_reachable threeWindows_step horders mem_cons_self rfl rfl hr _ _
    ?_ ?_ <;> rw [mem_pixels] <;> decide

end Stacking

end Wm
