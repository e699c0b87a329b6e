import Mathlib.Data.Set.Basic
import Mathlib.Data.List.Basic
import Mathlib.Logic.Nontrivial.Basic

/-!
# Painting

Layers are painted one after the other. A layer has a region and a label, and the colour of a pixel
depends on the label. What is seen at a pixel is the last layer that has it (`shown`), or what was
there before.

`forall_paint_eq_iff`: two ways to paint give the same picture for all colours if and only if the
same layers are shown.
-/

open List

namespace Painting

variable {π κ ℓ : Type*}

/-- A part of the picture that is painted at once. -/
structure Layer (π ℓ : Type*) where
  region : Set π
  label : ℓ

open Classical in
/-- A layer is painted over a picture. -/
noncomputable def paint (colour : ℓ → π → κ) (picture : π → κ) (layer : Layer π ℓ) : π → κ :=
  fun q => if q ∈ layer.region then colour layer.label q else picture q

/-- Layers are painted, the first one first. -/
noncomputable def paintAll (colour : ℓ → π → κ) (layers : List (Layer π ℓ)) (picture : π → κ) :
    π → κ :=
  layers.foldl (paint colour) picture

open Classical in
/-- The label of the last layer that has the pixel. -/
noncomputable def shown : List (Layer π ℓ) → π → Option ℓ
  | [], _ => none
  | layer :: layers, q =>
      (shown layers q).or (if q ∈ layer.region then some layer.label else none)

@[simp]
lemma shown_nil (q : π) : shown ([] : List (Layer π ℓ)) q = none := rfl

variable {layer : Layer π ℓ} {q : π}

lemma shown_cons_of_mem (h : q ∈ layer.region) (layers : List (Layer π ℓ)) :
    shown (layer :: layers) q = some ((shown layers q).getD layer.label) := by
  cases hshown : shown layers q <;> simp [shown, hshown, h]

lemma shown_cons_of_not_mem (h : q ∉ layer.region)
    (layers : List (Layer π ℓ)) : shown (layer :: layers) q = shown layers q := by
  simp [shown, h]

lemma paintAll_apply (colour : ℓ → π → κ) (layers : List (Layer π ℓ)) (picture : π → κ) (q : π) :
    paintAll colour layers picture q = (shown layers q).elim (picture q) (colour · q) := by
  induction layers generalizing picture with
  | nil => rfl
  | cons layer layers ih =>
    rw [paintAll, foldl_cons, ← paintAll, ih]
    by_cases hmem : q ∈ layer.region
    · rw [shown_cons_of_mem hmem]
      cases shown layers q <;> simp [paint, hmem]
    · rw [shown_cons_of_not_mem hmem]
      simp [paint, hmem]

/-- Two ways to paint look the same for all colours if and only if they show the same. -/
lemma forall_paint_eq_iff [Nontrivial κ] (layers layers' : List (Layer π ℓ)) (q : π) :
    (∀ (colour : ℓ → π → κ) (picture : π → κ),
      paintAll colour layers picture q = paintAll colour layers' picture q) ↔
        shown layers q = shown layers' q := by
  constructor
  · intro hsame
    classical
    obtain ⟨a, b, hab⟩ := exists_pair_ne κ
    -- one colour for what the first way shows, and another one for everything else
    have hpick (o : Option ℓ) : o.elim (if shown layers q = none then a else b)
        (fun l => if shown layers q = some l then a else b) =
          if shown layers q = o then a else b := by
      cases o <;> rfl
    have heq := hsame (fun l _ => if shown layers q = some l then a else b)
      fun _ => if shown layers q = none then a else b
    rw [paintAll_apply, paintAll_apply, hpick, hpick, if_pos rfl] at heq
    by_contra hne
    rw [if_neg hne] at heq
    exact hab heq
  · intro hshown colour picture
    rw [paintAll_apply, paintAll_apply, hshown]

variable {layers : List (Layer π ℓ)}

lemma shown_eq_none (h : ∀ l ∈ layers, q ∉ l.region) : shown layers q = none := by
  induction layers with
  | nil => rfl
  | cons layer layers ih =>
    rw [shown_cons_of_not_mem (h layer (by simp)), ih fun l hl => h l (by simp [hl])]

lemma shown_append (layers layers' : List (Layer π ℓ)) (q : π) :
    shown (layers ++ layers') q = (shown layers' q).or (shown layers q) := by
  induction layers with
  | nil => simp
  | cons layer layers ih => rw [cons_append, shown, shown, ih, Option.or_assoc]

lemma shown_append_cons {layers layers' : List (Layer π ℓ)}
    (hmem : q ∈ layer.region) (hlast : ∀ l ∈ layers', q ∉ l.region) :
    shown (layers ++ layer :: layers') q = some layer.label := by
  rw [shown_append, shown_cons_of_mem hmem, shown_eq_none hlast]
  rfl

/-- Things are painted in the order of their ranks: the one with the highest rank that has the pixel
is shown. -/
lemma shown_map_of_top {α β : Type*} [LinearOrder β] {rank : α → β} (region : α → Set π)
    (label : α → ℓ) {l : List α} (hsorted : l.Pairwise fun a b => rank a < rank b) {a : α}
    (ha : a ∈ l) (hmem : q ∈ region a) (htop : ∀ b ∈ l, rank a < rank b → q ∉ region b) :
    shown (l.map fun a => ⟨region a, label a⟩) q = some (label a) := by
  obtain ⟨before, behind, rfl⟩ := append_of_mem ha
  rw [map_append, map_cons]
  refine shown_append_cons hmem ?_
  simp only [mem_map, forall_exists_index, and_imp, forall_apply_eq_imp_iff₂]
  intro b hb
  have hlt : rank a < rank b :=
    (pairwise_cons.mp (pairwise_append.mp hsorted).2.1).1 b hb
  exact htop b (by simp [hb]) hlt

lemma exists_of_shown {label : ℓ}
    (h : shown layers q = some label) : ∃ l ∈ layers, l.label = label ∧ q ∈ l.region := by
  induction layers with
  | nil => simp at h
  | cons layer layers ih =>
    cases hshown : shown layers q with
    | some other =>
      obtain ⟨l, hl, hlabel⟩ := ih (by simpa [shown, hshown] using h)
      exact ⟨l, by simp [hl], hlabel⟩
    | none =>
      by_cases hmem : q ∈ layer.region
      · exact ⟨layer, by simp, by simpa [shown, hshown, hmem] using h, hmem⟩
      · simp [shown, hshown, hmem] at h

end Painting
