import Mathlib.Tactic

/-!
# Patterns with wildcards

A pattern is a list of tokens: a literal stands for itself, `any` for one symbol and `star` for any
number of symbols. `Matches` says that a text can be split accordingly.
-/

open List

namespace Wildcards

variable {α : Type*}

/-- A token of a pattern. -/
inductive Token (α : Type*) where
  | lit (a : α)
  | any
  | star
  deriving DecidableEq, Repr

/-- The text can be split so that each token stands for its part. -/
inductive Matches : List (Token α) → List α → Prop
  | nil : Matches [] []
  | lit {p : List (Token α)} {t : List α} (a : α) (h : Matches p t) : Matches (.lit a :: p) (a :: t)
  | any {p : List (Token α)} {t : List α} (a : α) (h : Matches p t) : Matches (.any :: p) (a :: t)
  | star {p : List (Token α)} {t : List α} (u : List α) (h : Matches p t) :
      Matches (.star :: p) (u ++ t)

variable {p q : List (Token α)} {t : List α} {a : α}

@[simp]
lemma matches_nil_iff : Matches [] t ↔ t = [] := by
  constructor
  · rintro ⟨⟩
    rfl
  · rintro rfl
    exact .nil

lemma matches_lit_iff : Matches (.lit a :: p) t ↔ ∃ u, t = a :: u ∧ Matches p u := by
  constructor
  · rintro (_ | ⟨-, h⟩)
    exact ⟨_, rfl, h⟩
  · rintro ⟨u, rfl, h⟩
    exact .lit a h

lemma matches_any_iff : Matches (.any :: p) t ↔ ∃ b u, t = b :: u ∧ Matches p u := by
  constructor
  · rintro (_ | _ | ⟨b, h⟩)
    exact ⟨b, _, rfl, h⟩
  · rintro ⟨b, u, rfl, h⟩
    exact .any b h

lemma matches_star_iff : Matches (.star :: p) t ↔ ∃ u v, t = u ++ v ∧ Matches p v := by
  constructor
  · rintro (_ | _ | _ | ⟨u, h⟩)
    exact ⟨u, _, rfl, h⟩
  · rintro ⟨u, v, rfl, h⟩
    exact .star u h

@[simp]
lemma matches_lit_cons {b : α} : Matches (.lit a :: p) (b :: t) ↔ a = b ∧ Matches p t := by
  rw [matches_lit_iff]
  constructor
  · rintro ⟨u, heq, h⟩
    obtain ⟨rfl, rfl⟩ := cons.inj heq
    exact ⟨rfl, h⟩
  · rintro ⟨rfl, h⟩
    exact ⟨t, rfl, h⟩

@[simp]
lemma matches_any_cons {b : α} : Matches (.any :: p) (b :: t) ↔ Matches p t := by
  rw [matches_any_iff]
  constructor
  · rintro ⟨b', u, heq, h⟩
    obtain ⟨-, rfl⟩ := cons.inj heq
    exact h
  · exact fun h => ⟨b, t, rfl, h⟩

@[simp]
lemma not_matches_lit_nil : ¬ Matches (.lit a :: p) [] := by simp [matches_lit_iff]

@[simp]
lemma not_matches_any_nil : ¬ Matches (.any :: p) [] := by simp [matches_any_iff]

@[simp]
lemma matches_star_nil : Matches [.star] t := by
  rw [matches_star_iff]
  exact ⟨t, [], by simp, .nil⟩

@[simp]
lemma matches_star_star_iff : Matches (.star :: .star :: p) t ↔ Matches (.star :: p) t := by
  constructor
  · intro h
    obtain ⟨u, t', rfl, h'⟩ := matches_star_iff.mp h
    obtain ⟨u', v, rfl, hv⟩ := matches_star_iff.mp h'
    exact matches_star_iff.mpr ⟨u ++ u', v, by simp, hv⟩
  · intro h
    exact matches_star_iff.mpr ⟨[], t, rfl, h⟩

/-- A symbol behind a star may as well stand in front of it. -/
lemma matches_star_any_iff : Matches (.star :: .any :: p) t ↔ Matches (.any :: .star :: p) t := by
  constructor
  · intro h
    obtain ⟨u, v, rfl, h'⟩ := matches_star_iff.mp h
    obtain ⟨b, w, rfl, hw⟩ := matches_any_iff.mp h'
    cases u with
    | nil => exact .any b (matches_star_iff.mpr ⟨[], w, rfl, hw⟩)
    | cons c u => exact .any c (matches_star_iff.mpr ⟨u ++ [b], w, by simp, hw⟩)
  · intro h
    obtain ⟨b, w, rfl, h'⟩ := matches_any_iff.mp h
    obtain ⟨u, v, rfl, hv⟩ := matches_star_iff.mp h'
    cases u with
    | nil => exact matches_star_iff.mpr ⟨[], _, rfl, .any b hv⟩
    | cons c u =>
      -- the last symbol of the star goes behind it
      have hne : c :: u ≠ [] := cons_ne_nil c u
      refine matches_star_iff.mpr ⟨b :: (c :: u).dropLast, (c :: u).getLast hne :: v, ?_, .any _ hv⟩
      have hsplit := congrArg (fun w => b :: (w ++ v)) (dropLast_append_getLast hne).symm
      rwa [append_assoc] at hsplit

/-- Patterns in a row. -/
lemma matches_append_iff : Matches (p ++ q) t ↔ ∃ u v, t = u ++ v ∧ Matches p u ∧ Matches q v := by
  induction p generalizing t with
  | nil => simp
  | cons k p ih =>
    cases k with
    | lit a =>
      rw [cons_append, matches_lit_iff]
      constructor
      · rintro ⟨u, rfl, h⟩
        obtain ⟨u, v, rfl, hu, hv⟩ := ih.mp h
        exact ⟨a :: u, v, rfl, .lit a hu, hv⟩
      · rintro ⟨u, v, rfl, hu, hv⟩
        obtain ⟨w, rfl, hw⟩ := matches_lit_iff.mp hu
        exact ⟨w ++ v, rfl, ih.mpr ⟨w, v, rfl, hw, hv⟩⟩
    | any =>
      rw [cons_append, matches_any_iff]
      constructor
      · rintro ⟨b, u, rfl, h⟩
        obtain ⟨u, v, rfl, hu, hv⟩ := ih.mp h
        exact ⟨b :: u, v, rfl, .any b hu, hv⟩
      · rintro ⟨u, v, rfl, hu, hv⟩
        obtain ⟨b, w, rfl, hw⟩ := matches_any_iff.mp hu
        exact ⟨b, w ++ v, rfl, ih.mpr ⟨w, v, rfl, hw, hv⟩⟩
    | star =>
      rw [cons_append, matches_star_iff]
      constructor
      · rintro ⟨w, u, rfl, h⟩
        obtain ⟨u, v, rfl, hu, hv⟩ := ih.mp h
        exact ⟨w ++ u, v, by simp, .star w hu, hv⟩
      · rintro ⟨u, v, rfl, hu, hv⟩
        obtain ⟨w, u', rfl, hu'⟩ := matches_star_iff.mp hu
        exact ⟨w, u' ++ v, by simp, ih.mpr ⟨u', v, rfl, hu', hv⟩⟩

lemma Matches.mem_of_lit (h : Matches p t) (ha : .lit a ∈ p) : a ∈ t := by
  induction h with
  | nil => cases ha
  | lit b _ ih =>
    rcases mem_cons.mp ha with heq | ha
    · obtain rfl := Token.lit.inj heq
      exact mem_cons_self
    · exact mem_cons_of_mem _ (ih ha)
  | any b _ ih =>
    rcases mem_cons.mp ha with heq | ha
    · cases heq
    · exact mem_cons_of_mem _ (ih ha)
  | star u _ ih =>
    rcases mem_cons.mp ha with heq | ha
    · cases heq
    · exact mem_append_right u (ih ha)

/-! ## Shortest texts -/

/-- How many symbols a pattern needs. -/
def width : List (Token α) → ℕ
  | [] => 0
  | .star :: p => width p
  | _ :: p => width p + 1

lemma width_append (p q : List (Token α)) : width (p ++ q) = width p + width q := by
  induction p with
  | nil => simp [width]
  | cons k p ih => cases k <;> simp [width, ih] <;> omega

lemma Matches.width_le (h : Matches p t) : width p ≤ t.length := by
  induction h with
  | nil => simp [width]
  | lit a _ ih => simpa [width] using ih
  | any a _ ih => simpa [width] using ih
  | star u _ ih =>
    rw [width, length_append]
    omega

/-- A shortest text that matches, with `x` for each `any`. -/
def fill (x : α) : List (Token α) → List α
  | [] => []
  | .lit a :: p => a :: fill x p
  | .any :: p => x :: fill x p
  | .star :: p => fill x p

@[simp]
lemma length_fill (x : α) (p : List (Token α)) : (fill x p).length = width p := by
  induction p with
  | nil => rfl
  | cons k p ih => cases k <;> simp [fill, width, ih]

lemma mem_fill {x b : α} (h : b ∈ fill x p) : b = x ∧ .any ∈ p ∨ .lit b ∈ p := by
  induction p with
  | nil => cases h
  | cons k p ih =>
    cases k with
    | lit a =>
      rcases mem_cons.mp h with rfl | h
      · exact .inr mem_cons_self
      · exact (ih h).imp (fun h => ⟨h.1, mem_cons_of_mem _ h.2⟩) (mem_cons_of_mem _)
    | any =>
      rcases mem_cons.mp h with rfl | h
      · exact .inl ⟨rfl, mem_cons_self⟩
      · exact (ih h).imp (fun h => ⟨h.1, mem_cons_of_mem _ h.2⟩) (mem_cons_of_mem _)
    | star =>
      exact (ih h).imp (fun h => ⟨h.1, mem_cons_of_mem _ h.2⟩) (mem_cons_of_mem _)

lemma mem_fill_of_any {x : α} (h : .any ∈ p) : x ∈ fill x p := by
  induction p with
  | nil => cases h
  | cons k p ih =>
    cases k with
    | any => exact mem_cons_self
    | lit a => exact mem_cons_of_mem _ (ih (by simpa using h))
    | star => exact ih (by simpa using h)

lemma fill_append (x : α) (p q : List (Token α)) : fill x (p ++ q) = fill x p ++ fill x q := by
  induction p with
  | nil => rfl
  | cons k p ih => cases k <;> simp [fill, ih]

@[simp]
lemma fill_stars (x : α) (j : ℕ) : fill x (replicate j .star) = [] := by
  induction j with
  | zero => rfl
  | succ j ih => exact ih

end Wildcards
