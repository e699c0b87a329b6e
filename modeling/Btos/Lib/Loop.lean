import Mathlib.Tactic

/-!
# Loops

Rules for the loops of a model.

* For `foldl` and for `foldlM` in `Option`, an invariant may speak of what is left of the list.
* `whileDo` has a bound on its rounds (`whileDo_total`, `whileDo_of_rounds`).
-/

open Option

namespace Loop

variable {σ α : Type*} {P : List α → σ → Prop} {s s' : σ}

lemma foldlM_invariant {f : σ → α → Option σ}
    (hstep : ∀ a l s s', P (a :: l) s → f s a = some s' → P l s') {l : List α}
    (hs : P l s) (h : l.foldlM f s = some s') : P [] s' := by
  induction l generalizing s with
  | nil =>
    cases h
    exact hs
  | cons a l ih =>
    rw [List.foldlM_cons] at h
    obtain ⟨s1, hs1, h⟩ := bind_eq_some_iff.mp h
    exact ih (hstep a l s s1 hs hs1) h

lemma foldl_invariant {f : σ → α → σ} (hstep : ∀ a l s, P (a :: l) s → P l (f s a))
    {l : List α} {s : σ} (hs : P l s) : P [] (l.foldl f s) := by
  induction l generalizing s with
  | nil => exact hs
  | cons a l ih =>
    rw [List.foldl_cons]
    exact ih (hstep a l s hs)

/-- `while (cond) body`, in at most `rounds` rounds; `none` is a test or a body that fails, or a
round too many. -/
def whileDo (cond : σ → Option Bool) (body : σ → Option σ) : ℕ → σ → Option σ
  | 0, _ => none
  | rounds + 1, s =>
      (cond s).bind fun b => if b then (body s).bind (whileDo cond body rounds) else some s

variable {cond : σ → Option Bool} {body : σ → Option σ}

lemma whileDo_invariant {I : σ → Prop}
    (hround : ∀ s s', I s → body s = some s' → I s') {rounds : ℕ} (hs : I s)
    (h : whileDo cond body rounds s = some s') : I s' := by
  induction rounds generalizing s with
  | zero => cases h
  | succ rounds ih =>
    obtain ⟨b, -, h⟩ := bind_eq_some_iff.mp h
    cases b with
    | false =>
      cases h
      exact hs
    | true =>
      obtain ⟨s1, hs1, h⟩ := bind_eq_some_iff.mp h
      exact ih (hround s s1 hs hs1) h

/-- A loop ends if its invariant has a variant, which every round makes smaller, and neither the
test nor the body fails; a number of rounds that is large enough does not matter. -/
lemma whileDo_total {I : ℕ → σ → Prop} (hround : ∀ n s, I n s → cond s = some false ∨
      cond s = some true ∧ ∃ s' m, body s = some s' ∧ m < n ∧ I m s') {n : ℕ} {s : σ} (hs : I n s) :
    ∃ s' m, (∀ rounds, n < rounds → whileDo cond body rounds s = some s') ∧ I m s' ∧
      cond s' = some false := by
  induction n using Nat.strong_induction_on generalizing s with
  | _ n ih =>
    rcases hround n s hs with hexit | ⟨htrue, s1, m, hs1, hlt, hm⟩
    · refine ⟨s, n, fun rounds hrounds => ?_, hs, hexit⟩
      obtain ⟨r, rfl⟩ := Nat.exists_eq_add_of_lt hrounds
      rw [whileDo, hexit]
      rfl
    · obtain ⟨s', k, hloop, hend⟩ := ih m hlt hm
      refine ⟨s', k, fun rounds hrounds => ?_, hend⟩
      obtain ⟨r, rfl⟩ := Nat.exists_eq_add_of_lt hrounds
      rw [whileDo, htrue, bind_some, if_pos rfl, hs1, bind_some]
      exact hloop _ (by omega)

/-- One round of a loop. -/
def Round (cond : σ → Option Bool) (body : σ → Option σ) (s s' : σ) : Prop :=
  cond s = some true ∧ body s = some s'

/-- Rounds that lead to the end of a loop, with any bound on the rounds that is large enough. -/
lemma whileDo_of_rounds
    (h : Relation.ReflTransGen (Round cond body) s s') (hend : cond s' = some false) :
    ∃ n, ∀ rounds, n < rounds → whileDo cond body rounds s = some s' := by
  induction h using Relation.ReflTransGen.head_induction_on with
  | refl =>
    refine ⟨0, fun rounds hrounds => ?_⟩
    obtain ⟨r, rfl⟩ := Nat.exists_eq_add_of_lt hrounds
    rw [whileDo, hend]
    rfl
  | head hround _ ih =>
    obtain ⟨n, hn⟩ := ih
    refine ⟨n + 1, fun rounds hrounds => ?_⟩
    obtain ⟨r, rfl⟩ := Nat.exists_eq_add_of_lt hrounds
    rw [whileDo, hround.1, bind_some, if_pos rfl, hround.2, bind_some]
    exact hn _ (by omega)

end Loop
