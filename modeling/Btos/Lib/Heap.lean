import Mathlib.Data.List.Basic
import Mathlib.Order.Lattice

/-!
# Histories of a heap

A heap is known by its history: the list of its `malloc` and `free` calls, newest first. The
block a pointer names is live when the latest call about that pointer is a `malloc`.

The allocation policy is a parameter: an `Allocator` chooses, from the whole history, a
non-null pointer that names no live block. A pointer may therefore be handed out again after
it was freed.
-/

namespace Heap

/-- A machine address; `0` is the null pointer. -/
abbrev Ptr := ℕ

/-- One call of the heap. -/
inductive Event where
  /-- `malloc(size)` returned `p`. -/
  | malloc (p : Ptr) (size : ℕ)
  /-- `free(p)`. -/
  | free (p : Ptr)
  deriving DecidableEq, Repr

/-- The size of the live block at a pointer, `none` when there is no such block. -/
def size? : List Event → Ptr → Option ℕ
  | [], _ => none
  | .malloc q n :: h, p => if q = p then some n else size? h p
  | .free q :: h, p => if q = p then none else size? h p

/-- Every `free` of the history was applied to a live block. -/
def SafeFrees : List Event → Prop
  | [] => True
  | .malloc _ _ :: h => SafeFrees h
  | .free p :: h => (size? h p).isSome ∧ SafeFrees h

/-- Whether every `free` was applied to a live block can be decided. -/
instance decidableSafeFrees : (h : List Event) → Decidable (SafeFrees h)
  | [] => isTrue trivial
  | .malloc _ _ :: h => decidableSafeFrees h
  | .free p :: h =>
      have := decidableSafeFrees h
      inferInstanceAs (Decidable ((size? h p).isSome ∧ SafeFrees h))

/-- An allocation policy: from the history and a size, a non-null pointer that names no live
block. -/
structure Allocator where
  /-- The pointer handed out. -/
  choose : List Event → ℕ → Ptr
  /-- `malloc` does not return the null pointer. -/
  choose_ne_null : ∀ h n, choose h n ≠ 0
  /-- `malloc` does not return a block that is in use. -/
  choose_fresh : ∀ h n, size? h (choose h n) = none

/-- The history after `malloc(n)`. -/
def Allocator.malloc (A : Allocator) (h : List Event) (n : ℕ) : List Event :=
  .malloc (A.choose h n) n :: h

/-- The history after `free(p)`. -/
def free (h : List Event) (p : Ptr) : List Event :=
  .free p :: h

section

variable (A : Allocator) (h : List Event) (n : ℕ)
include A h n

@[simp]
lemma size?_malloc_self : size? (A.malloc h n) (A.choose h n) = some n := by
  simp [Allocator.malloc, size?]

lemma size?_malloc_of_ne {p : Ptr}
    (hp : p ≠ A.choose h n) : size? (A.malloc h n) p = size? h p := by
  simp [Allocator.malloc, size?, Ne.symm hp]

lemma size?_malloc_of_live {p : Ptr} {k : ℕ}
    (hp : size? h p = some k) : size? (A.malloc h n) p = some k := by
  rw [size?_malloc_of_ne A h n, hp]
  rintro rfl
  rw [A.choose_fresh] at hp
  cases hp

end

lemma size?_free_of_ne (h : List Event) {p q : Ptr} (hq : q ≠ p) :
    size? (free h p) q = size? h q := by
  simp [free, size?, Ne.symm hq]

lemma safeFrees_free {h : List Event} {p : Ptr} (hp : (size? h p).isSome)
    (hs : SafeFrees h) : SafeFrees (free h p) := ⟨hp, hs⟩

/-! ## A bump allocator -/

/-- A bound above every pointer a history mentions. -/
def bound : List Event → ℕ
  | [] => 1
  | .malloc p _ :: h => max (p + 1) (bound h)
  | .free p :: h => max (p + 1) (bound h)

lemma bound_pos (h : List Event) : 0 < bound h := by
  induction h with
  | nil => exact Nat.one_pos
  | cons e h ih => cases e <;> exact lt_of_lt_of_le ih (le_max_right _ _)

lemma size?_of_bound_le {h : List Event} {p : Ptr} (hp : bound h ≤ p) : size? h p = none := by
  induction h with
  | nil => rfl
  | cons e h ih =>
    cases e with
    | malloc q n =>
      rw [bound, Nat.max_le] at hp
      have hne : q ≠ p := Nat.ne_of_lt hp.1
      rw [size?, if_neg hne, ih hp.2]
    | free q =>
      rw [bound, Nat.max_le] at hp
      have hne : q ≠ p := Nat.ne_of_lt hp.1
      rw [size?, if_neg hne, ih hp.2]

/-- The allocator that hands out the first address above all earlier ones. -/
def Allocator.bump : Allocator where
  choose h _ := bound h
  choose_ne_null h _ := (bound_pos h).ne'
  choose_fresh _ _ := size?_of_bound_le le_rfl

end Heap
