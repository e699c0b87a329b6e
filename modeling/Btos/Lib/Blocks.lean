import Mathlib.Data.List.Basic

/-!
# Blocks of memory

A block has a size, and an access to it may be inside or not. What lies behind its end is not its
own, but it is what a read there meets: `bytes` goes on.

A read of a string touches one byte more than `strlen`.
-/

/-- Bytes from some address on. -/
abbrev Bytes := ℕ → UInt8

/-- A block of memory. -/
structure Block where
  size : ℕ
  bytes : Bytes

/-- `count` bytes of a block of `size` bytes are touched, from the offset `first` on. -/
structure Access where
  size : ℕ
  first : ℕ
  count : ℕ
  deriving DecidableEq, Repr

/-- The access is inside the block. -/
def Access.Inside (a : Access) : Prop := a.count = 0 ∨ a.first + a.count ≤ a.size

instance Access.decidableInside (a : Access) : Decidable a.Inside :=
  inferInstanceAs (Decidable (_ ∨ _))

namespace Bytes

/-- The first `n` bytes are replaced: `memcpy`, and `memset` for a constant function. -/
def copy (dst src : Bytes) (n : ℕ) : Bytes := fun i => if i < n then src i else dst i

/-- A number of 32 bits at the offset `i`, the low byte first. -/
def word (b : Bytes) (i : ℕ) : UInt32 :=
  (b i).toUInt32 + (b (i + 1)).toUInt32 * 0x100 + (b (i + 2)).toUInt32 * 0x10000 +
    (b (i + 3)).toUInt32 * 0x1000000

/-- The number of bytes before the first NUL, `limit` if it is not found among so many. -/
def strlen (b : Bytes) (i : ℕ) : ℕ → ℕ
  | 0 => 0
  | limit + 1 => if b i = 0 then 0 else strlen b (i + 1) limit + 1

variable {b b' : Bytes} {i limit : ℕ}

lemma strlen_le {k : ℕ} (hk : b (i + k) = 0) : strlen b i limit ≤ k := by
  induction limit generalizing i k with
  | zero => exact Nat.zero_le k
  | succ limit ih =>
    rw [strlen]
    split
    · exact Nat.zero_le k
    · next hne =>
      cases k with
      | zero => exact absurd hk hne
      | succ k => exact Nat.succ_le_succ (ih (by rwa [Nat.add_right_comm]))

lemma strlen_congr (h : ∀ j < limit, b (i + j) = b' (i + j)) :
    strlen b i limit = strlen b' i limit := by
  induction limit generalizing i with
  | zero => rfl
  | succ limit ih =>
    have hrest : strlen b (i + 1) limit = strlen b' (i + 1) limit := by
      refine ih fun j hj => ?_
      have hshift := h (j + 1) (Nat.succ_lt_succ hj)
      rwa [← Nat.add_assoc, Nat.add_right_comm] at hshift
    have hfirst : b i = b' i := h 0 (Nat.succ_pos limit)
    rw [strlen, strlen, hfirst, hrest]

lemma strlen_eq_of_zero {k : ℕ} (hk : b (i + k) = 0) (hlimit : k ≤ limit) :
    strlen b i limit = strlen b i k := by
  induction limit generalizing i k with
  | zero =>
    rw [Nat.le_zero.mp hlimit]
  | succ limit ih =>
    cases k with
    | zero =>
      rw [strlen, strlen, if_pos (show b i = 0 from hk)]
    | succ k =>
      rw [strlen, strlen]
      split
      · rfl
      · rw [ih (by rwa [Nat.add_right_comm]) (Nat.le_of_succ_le_succ hlimit)]

end Bytes
