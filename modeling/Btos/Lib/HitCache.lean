import Mathlib.Tactic

/-!
# Caches with hit counts

A cache with a fixed number of lines. A line holds a key, the value cached for it and the number
of hits, up to `maxHits`; the value 0 stands for nothing.

`Holds P c` says that every value in the cache is right for its key in the sense of `P`. The
operations keep it (`get_holds`, `set_holds`, `clear_holds`), and what `get` finds is right
(`get_right`); `P` may be that the value is what a table holds for the key, for all keys or for
some of them.
-/

open List

namespace HitCache

/-- A line of the cache. -/
structure Line (κ α : Type*) where
  index : κ
  entry : α
  hits : ℕ
  deriving DecidableEq, Repr

variable {κ α : Type*}

/-- The value cached for a key, 0 if there is none. A hit is counted on the first line of the
key. -/
def get [DecidableEq κ] [Zero α] (maxHits : ℕ) (k : κ) : List (Line κ α) → α × List (Line κ α)
  | [] => (0, [])
  | x :: c =>
      if x.index = k then
        (x.entry, (if x.hits < maxHits then { x with hits := x.hits + 1 } else x) :: c)
      else
        let (v, c) := get maxHits k c
        (v, x :: c)

/-- The least number of hits of the lines. -/
def minHits (c : List (Line κ α)) : Option ℕ := (c.map Line.hits).min?

/-- Overwrite the first line with the given number of hits. -/
def replace (n : ℕ) (y : Line κ α) : List (Line κ α) → List (Line κ α)
  | [] => []
  | x :: c => if x.hits = n then y :: c else x :: replace n y c

/-- Cache a value in the first line with the fewest hits. The value 0 is not cached. -/
def set [DecidableEq α] [Zero α] (k : κ) (v : α) (c : List (Line κ α)) : List (Line κ α) :=
  if v = 0 then c
  else
    match minHits c with
    | none => c
    | some n => replace n { index := k, entry := v, hits := 0 } c

/-- Reset the lines of a key. -/
def clear [DecidableEq κ] [Zero κ] [Zero α] (k : κ) (c : List (Line κ α)) :
    List (Line κ α) :=
  c.map fun x => if x.index = k then { index := 0, entry := 0, hits := 0 } else x

/-- Every value in the cache is right for its key. -/
def Holds [Zero α] (P : κ → α → Prop) (c : List (Line κ α)) : Prop :=
  ∀ x ∈ c, x.entry ≠ 0 → P x.index x.entry

variable {P Q : κ → α → Prop} {c : List (Line κ α)} {k : κ} {v : α} {maxHits : ℕ}

lemma mem_replace {n : ℕ} {x y : Line κ α} (hx : x ∈ replace n y c) : x = y ∨ x ∈ c := by
  induction c with
  | nil => exact .inr hx
  | cons z c ih =>
    rw [replace] at hx
    split at hx
    · rcases mem_cons.mp hx with rfl | hx
      · exact .inl rfl
      · exact .inr (mem_cons_of_mem _ hx)
    · rcases mem_cons.mp hx with rfl | hx
      · exact .inr mem_cons_self
      · exact (ih hx).imp_right (mem_cons_of_mem _)

variable [Zero α]

lemma Holds.imp_entry (h : Holds P c) (hPQ : ∀ k v, P k v → v ≠ 0 → Q k v) : Holds Q c :=
  fun x hx hne => hPQ _ _ (h x hx hne) hne

lemma holds_of_entry_eq_zero (h : ∀ x ∈ c, x.entry = 0) : Holds P c :=
  fun x hx hne => absurd (h x hx) hne

lemma set_holds [DecidableEq α] (h : Holds P c) (hv : v = 0 ∨ P k v) : Holds P (set k v c) := by
  unfold set
  split
  · exact h
  · rename_i hne
    split
    · exact h
    · intro x hx hx0
      rcases mem_replace hx with rfl | hx
      · exact hv.resolve_left hne
      · exact h x hx hx0

variable [DecidableEq κ]

lemma get_right (h : Holds P c) : (get maxHits k c).1 = 0 ∨ P k (get maxHits k c).1 := by
  induction c with
  | nil => exact .inl rfl
  | cons x c ih =>
    rw [get]
    split
    · rename_i hx
      by_cases hv : x.entry = 0
      · exact .inl hv
      · exact .inr (hx ▸ h x mem_cons_self hv)
    · exact ih fun y hy => h y (mem_cons_of_mem _ hy)

/-- Counting a hit changes no value. -/
lemma get_holds (h : Holds P c) : Holds P (get maxHits k c).2 := by
  induction c with
  | nil => exact h
  | cons x c ih =>
    have htail : Holds P c := fun y hy => h y (mem_cons_of_mem _ hy)
    have hhit : (if x.hits < maxHits then { x with hits := x.hits + 1 } else x).entry = x.entry ∧
        (if x.hits < maxHits then { x with hits := x.hits + 1 } else x).index = x.index := by
      split <;> exact ⟨rfl, rfl⟩
    rw [get]
    split
    · intro y hy hne
      rcases mem_cons.mp hy with rfl | hy
      · rw [hhit.1] at hne
        rw [hhit.1, hhit.2]
        exact h x mem_cons_self hne
      · exact htail y hy hne
    · intro y hy hne
      rcases mem_cons.mp hy with rfl | hy
      · exact h y mem_cons_self hne
      · exact ih htail y hy hne

lemma clear_holds [Zero κ] (h : Holds P c) (hPQ : ∀ k' v', k' ≠ k → P k' v' → Q k' v') :
    Holds Q (clear k c) := by
  intro x hx hne
  obtain ⟨y, hy, rfl⟩ := mem_map.mp hx
  by_cases hk : y.index = k
  · rw [if_pos hk] at hne
    exact absurd rfl hne
  · rw [if_neg hk] at hne ⊢
    exact hPQ _ _ hk (h y hy hne)

end HitCache
