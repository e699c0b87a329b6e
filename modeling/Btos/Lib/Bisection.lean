import Mathlib.Tactic

/-!
# Bisection

The search for a key in an array by halving the range of places that are left.

Main results: `search_eq_some_iff` and `forall_search_eq_iff`.
-/

open List Option

namespace Bisection

variable {α : Type*} [LinearOrder α] {A : ℕ → α}

/-- The search for the key `x` from place `lo` to place `hi`, in at most `n` rounds. -/
def search (A : ℕ → α) (x : α) : ℕ → ℕ → ℕ → Option ℕ
  | 0, _, _ => none
  | n + 1, lo, hi =>
      let mid := (lo + hi) / 2
      if A mid = x then some mid
      else if A mid < x then if mid < hi then search A x n (mid + 1) hi else none
      else if lo < mid then search A x n lo (mid - 1) else none

/-- The places on the way to `i`, from `lo` to `hi`. -/
def visits (i : ℕ) : ℕ → ℕ → ℕ → List ℕ
  | 0, _, _ => []
  | n + 1, lo, hi =>
      let mid := (lo + hi) / 2
      if mid = i then []
      else mid :: if mid < i then visits i n (mid + 1) hi else visits i n lo (mid - 1)

lemma mem_range_of_search {x : α} {n lo hi j : ℕ} (hle : lo ≤ hi)
    (h : search A x n lo hi = some j) : lo ≤ j ∧ j ≤ hi := by
  induction n generalizing lo hi with
  | zero => cases h
  | succ n ih =>
    simp only [search] at h
    split at h
    · cases h
      omega
    · split at h
      · rw [ite_none_right_eq_some] at h
        have hj := ih (by omega) h.2
        omega
      · rw [ite_none_right_eq_some] at h
        have hj := ih (by omega) h.2
        omega

lemma mem_range_of_visits {i n lo hi g : ℕ} (hi1 : lo ≤ i) (hi2 : i ≤ hi)
    (h : g ∈ visits i n lo hi) : lo ≤ g ∧ g ≤ hi := by
  induction n generalizing lo hi with
  | zero => cases h
  | succ n ih =>
    simp only [visits] at h
    split at h
    · cases h
    · rename_i hne
      rcases mem_cons.mp h with rfl | hmem
      · omega
      · split at hmem
        · have hg := ih (by omega) hi2 hmem
          omega
        · have hg := ih hi1 (by omega) hmem
          omega

/-- A search comes to `i` exactly if every place on the way sends it to the right side. -/
lemma search_eq_some_iff {i n lo hi : ℕ} (hi1 : lo ≤ i) (hi2 : i ≤ hi) (hn : hi < lo + n) :
    search A (A i) n lo hi = some i ↔
      ∀ g ∈ visits i n lo hi, (g < i → A g < A i) ∧ (i < g → A i < A g) := by
  induction n generalizing lo hi with
  | zero => omega
  | succ n ih =>
    simp only [search, visits]
    set mid := (lo + hi) / 2
    rcases lt_trichotomy mid i with hlt | heq | hgt
    · -- `i` is in the right half
      rw [if_neg hlt.ne, if_pos hlt, forall_mem_cons]
      rcases lt_trichotomy (A mid) (A i) with hA | hA | hA
      · rw [if_neg hA.ne, if_pos hA, if_pos (by omega), ih (by omega) hi2 (by omega)]
        exact ⟨fun h => ⟨⟨fun _ => hA, fun h' => absurd h' hlt.not_gt⟩, h⟩, fun h => h.2⟩
      · rw [if_pos hA]
        exact ⟨fun h => absurd (some.inj h) hlt.ne, fun h => absurd (h.1.1 hlt) hA.not_lt⟩
      · rw [if_neg hA.ne', if_neg hA.not_gt]
        refine ⟨fun h => ?_, fun h => absurd (h.1.1 hlt) hA.not_gt⟩
        rw [ite_none_right_eq_some] at h
        have hrange := mem_range_of_search (by omega) h.2
        omega
    · rw [if_pos (congrArg A heq), if_pos heq]
      exact ⟨fun _ g hg => absurd hg not_mem_nil, fun _ => congrArg some heq⟩
    · -- `i` is in the left half
      rw [if_neg hgt.ne', if_neg hgt.not_gt, forall_mem_cons]
      rcases lt_trichotomy (A mid) (A i) with hA | hA | hA
      · rw [if_neg hA.ne, if_pos hA]
        refine ⟨fun h => ?_, fun h => absurd (h.1.2 hgt) hA.not_gt⟩
        rw [ite_none_right_eq_some] at h
        have hrange := mem_range_of_search (by omega) h.2
        omega
      · rw [if_pos hA]
        exact ⟨fun h => absurd (some.inj h) hgt.ne', fun h => absurd (h.1.2 hgt) hA.not_gt⟩
      · rw [if_neg hA.ne', if_neg hA.not_gt, if_pos (by omega), ih hi1 (by omega) (by omega)]
        exact ⟨fun h => ⟨⟨fun h' => absurd h' hgt.not_gt, fun _ => hA⟩, h⟩, fun h => h.2⟩

/-- Where the ways to two places part, there is a place between them that is on both ways. -/
lemma exists_common {i j n lo hi : ℕ} (hij : i < j) (hi1 : lo ≤ i) (hj2 : j ≤ hi)
    (hn : hi < lo + n) :
    ∃ g, i ≤ g ∧ g ≤ j ∧ (g = i ∨ g ∈ visits i n lo hi) ∧ (g = j ∨ g ∈ visits j n lo hi) := by
  induction n generalizing lo hi with
  | zero => omega
  | succ n ih =>
    simp only [visits]
    set mid := (lo + hi) / 2
    by_cases hbetween : i ≤ mid ∧ mid ≤ j
    · refine ⟨mid, hbetween.1, hbetween.2, ?_, ?_⟩
      · by_cases heq : mid = i
        · exact .inl heq
        · rw [if_neg heq]
          exact .inr mem_cons_self
      · by_cases heq : mid = j
        · exact .inl heq
        · rw [if_neg heq]
          exact .inr mem_cons_self
    · -- both places are on the same side of the middle
      rcases Nat.lt_or_ge mid i with hlt | hge
      · obtain ⟨g, hig, hgj, hgi, hgj'⟩ :=
          ih (show mid + 1 ≤ i by omega) hj2 (by omega)
        rw [if_neg hlt.ne, if_pos hlt, if_neg (by omega), if_pos (by omega)]
        exact ⟨g, hig, hgj, hgi.imp_right (mem_cons_of_mem _), hgj'.imp_right (mem_cons_of_mem _)⟩
      · obtain ⟨g, hig, hgj, hgi, hgj'⟩ :=
          ih hi1 (show j ≤ mid - 1 by omega) (by omega)
        rw [if_neg (by omega), if_neg (by omega), if_neg (by omega), if_neg (by omega)]
        exact ⟨g, hig, hgj, hgi.imp_right (mem_cons_of_mem _), hgj'.imp_right (mem_cons_of_mem _)⟩

/-- What is on the way to `i` and above `m`, which is not below `i`, is also on the way to `m`. -/
lemma visits_of_le {i m n lo hi g : ℕ} (him : i ≤ m) (hi1 : lo ≤ i) (hm2 : m ≤ hi)
    (hg : g ∈ visits i n lo hi) (hmg : m < g) : g ∈ visits m n lo hi := by
  induction n generalizing lo hi with
  | zero => cases hg
  | succ n ih =>
    simp only [visits] at hg ⊢
    set mid := (lo + hi) / 2
    by_cases heq : mid = i
    · rw [if_pos heq] at hg
      cases hg
    rw [if_neg heq] at hg
    rcases Nat.lt_or_ge mid i with hlt | hge
    · -- both ways go to the right
      rw [if_pos hlt] at hg
      rw [if_neg (by omega), if_pos (by omega)]
      rcases mem_cons.mp hg with rfl | hmem
      · omega
      · exact mem_cons_of_mem _ (ih (by omega) hm2 hmem)
    · rw [if_neg (by omega)] at hg
      rcases Nat.lt_or_ge m mid with hgt | hle
      · -- both ways go to the left
        rw [if_neg (by omega), if_neg (by omega)]
        rcases mem_cons.mp hg with rfl | hmem
        · exact mem_cons_self
        · exact mem_cons_of_mem _ (ih hi1 (by omega) hmem)
      · -- the way to `i` stays below `m` from here
        rcases mem_cons.mp hg with rfl | hmem
        · omega
        · have hrange := mem_range_of_visits hi1 (by omega) hmem
          omega

/-- The places in front of `m` are all found exactly if the keys there increase and the way to the
last of them does not lead behind it. -/
lemma forall_search_eq_iff {m n r : ℕ} (hmn : m ≤ n) (hnr : n ≤ r)
    (hrest : ∀ i < m, ∀ g, m ≤ g → g < n → ¬ A i < A g) :
    (∀ i < m, search A (A i) r 0 (n - 1) = some i) ↔
      StrictMonoOn A (Set.Iio m) ∧ ∀ i, i + 1 = m → ∀ g ∈ visits i r 0 (n - 1), g < m := by
  have hiff {i : ℕ} (hi : i < m) := search_eq_some_iff (A := A) (n := r)
    (Nat.zero_le i) (show i ≤ n - 1 by omega) (by omega)
  constructor
  · intro hall
    have hway {i : ℕ} (hi : i < m) := (hiff hi).mp (hall i hi)
    constructor
    · intro i hi j hj hij
      have hi' : i < m := hi
      have hj' : j < m := hj
      obtain ⟨g, hig, hgj, hgi, hgj'⟩ := exists_common (n := r) hij (Nat.zero_le i)
        (show j ≤ n - 1 by omega) (by omega)
      have hleft (h : i < g) : A i < A g := (hway hi' g (hgi.resolve_left h.ne')).2 h
      have hright (h : g < j) : A g < A j := (hway hj' g (hgj'.resolve_left h.ne)).1 h
      rcases hig.eq_or_lt with rfl | hlt
      · exact hright hij
      · rcases hgj.eq_or_lt with rfl | hgt
        · exact hleft hlt
        · exact (hleft hlt).trans (hright hgt)
    · intro i hi g hg
      by_contra hge
      have hrange := mem_range_of_visits (Nat.zero_le i) (show i ≤ n - 1 by omega) hg
      exact hrest i (by omega) g (by omega) (by omega) ((hway (by omega) g hg).2 (by omega))
  · rintro ⟨hmono, hlast⟩ i hi
    rw [hiff hi]
    intro g hg
    have hgm : g < m := by
      by_contra hge
      refine hge (hlast (m - 1) (by omega) g ?_)
      exact visits_of_le (by omega) (Nat.zero_le i) (by omega) hg (by omega)
    exact ⟨fun h => hmono hgm hi h, fun h => hmono hi hgm h⟩

end Bisection
