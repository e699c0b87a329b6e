import Btos.Memory.PageDirectory

/-!
# Addresses of whole pages

`frame` cuts an address to the start of its page. The lemmas say what that means for the numbers
behind the words, and how it goes together with adding whole pages.
-/

open BitVec

namespace Memory

lemma frame_toNat (a : Word) : (frame a).toNat = a.toNat / pageSize * pageSize := by
  have hmask : ∀ i < 32, addressMask.getLsbD i = decide (12 ≤ i) := by decide
  have hshift : frame a = (a >>> 12) <<< 12 := by
    apply eq_of_getLsbD_eq
    intro i hi
    rw [frame, getLsbD_and, hmask i hi, getLsbD_shiftLeft, getLsbD_ushiftRight]
    by_cases h12 : 12 ≤ i
    · simp [hi, h12, Nat.not_lt.mpr h12]
    · simp [h12, Nat.lt_of_not_le h12]
  rw [hshift, toNat_shiftLeft, toNat_ushiftRight, Nat.shiftLeft_eq, Nat.shiftRight_eq_div_pow]
  simp only [pageSize]
  omega

lemma pageOf_frame (a : Word) : pageOf (frame a) = pageOf a := by
  rw [pageOf, frame_toNat, Nat.mul_div_cancel _ (by decide), pageOf]

lemma add_one_add_ofNat (a : Word) (i : ℕ) :
    a + 1 + BitVec.ofNat 32 i = a + BitVec.ofNat 32 (i + 1) := by
  rw [Nat.add_comm i 1, BitVec.ofNat_add, ← BitVec.add_assoc]
  rfl

variable {a : Word} {i : ℕ}

lemma toNat_add_ofNat (h : a.toNat + i < 2 ^ 32) : (a + BitVec.ofNat 32 i).toNat = a.toNat + i := by
  rw [toNat_add, BitVec.toNat_ofNat, Nat.add_mod_mod, Nat.mod_eq_of_lt h]

lemma add_ofNat_toNat_sub {a x : Word} (h : a.toNat ≤ x.toNat) :
    a + BitVec.ofNat 32 (x.toNat - a.toNat) = x := by
  apply eq_of_toNat_eq
  rw [toNat_add_ofNat (by omega)]
  omega

lemma frame_add {c : Word} (hc : Aligned c) (a : Word) : frame (a + c) = frame a + c := by
  have hmod : c.toNat / pageSize * pageSize = c.toNat := by
    rw [← frame_toNat]
    exact congrArg BitVec.toNat hc
  apply eq_of_toNat_eq
  have hsize : (2 : ℕ) ^ 32 = 1048576 * pageSize := by decide
  rw [frame_toNat, toNat_add, toNat_add, frame_toNat, hsize, ← hmod]
  rw [Nat.mod_mul_left_div_self, Nat.add_mul_div_right _ _ (by decide), ← Nat.add_mul,
    Nat.mul_mod_mul_right]

lemma le_toNat_sub_frame {x a : Word} (h : pageOf x ≠ pageOf a) :
    pageSize ≤ (x - frame a).toNat := by
  rw [BitVec.toNat_sub, frame_toNat]
  simp only [pageOf, pageSize] at *
  omega

lemma frame_eq_of_pageOf {a b : Word} (h : pageOf a = pageOf b) : frame a = frame b := by
  apply eq_of_toNat_eq
  rw [frame_toNat, frame_toNat]
  exact congrArg (· * pageSize) h

lemma Aligned.add {a b : Word} (ha : Aligned a) (hb : Aligned b) : Aligned (a + b) := by
  have hframe : frame a = a := ha
  show frame (a + b) = a + b
  rw [frame_add hb, hframe]

lemma Aligned.sub {a b : Word} (ha : Aligned a) (hb : Aligned b) : Aligned (a - b) := by
  have hframe : frame a = a := ha
  have hadd := frame_add hb (a - b)
  rw [BitVec.sub_add_cancel, hframe] at hadd
  show frame (a - b) = a - b
  rw [BitVec.eq_sub_iff_add_eq]
  exact hadd.symm

lemma Aligned.toNat (ha : Aligned a) : a.toNat = pageOf a * pageSize := by
  have hframe : frame a = a := ha
  rw [pageOf, ← frame_toNat, hframe]

lemma aligned_of_mod (ha : a.toNat % pageSize = 0) : Aligned a := by
  apply eq_of_toNat_eq
  show (frame a).toNat = a.toNat
  rw [frame_toNat]
  exact Nat.div_mul_cancel (Nat.dvd_of_mod_eq_zero ha)

lemma aligned_pageAddr (ha : Aligned a) (i : ℕ) : Aligned (pageAddr a i) := by
  refine ha.add (aligned_of_mod ?_)
  rw [BitVec.toNat_ofNat]
  simp only [pageSize]
  omega

lemma Aligned.pageOf_add_ofNat (ha : Aligned a) (hi : i < pageSize) :
    pageOf (a + BitVec.ofNat 32 i) = pageOf a := by
  have hnat := ha.toNat
  rw [pageOf, toNat_add_ofNat (by simp only [pageOf, pageSize] at *; omega)]
  simp only [pageOf, pageSize] at *
  omega

lemma pageOf_pageAddr {addr : Word} (haddr : Aligned addr)
    (hi : pageOf addr + i < 2 ^ 20) : pageOf (pageAddr addr i) = pageOf addr + i := by
  have hsize : (2 : ℕ) ^ 32 = 2 ^ 20 * pageSize := by decide
  have hnat := haddr.toNat
  rw [pageAddr, pageOf, toNat_add, BitVec.toNat_ofNat, hnat, Nat.add_mod_mod,
    ← Nat.add_mul, hsize, Nat.mul_mod_mul_right, Nat.mul_div_cancel _ (by decide),
    Nat.mod_eq_of_lt hi]

end Memory
