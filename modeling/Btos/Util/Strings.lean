import Mathlib.Data.List.Basic

/-!
# Strings

The strings of the kernel and of the programs, as lists of characters, and `to_upper` of
`strutil.cpp`, through which names of mounts and of environment variables go.
-/

/-- The characters of a C string, without the NUL at its end. -/
abbrev Str := List Char

/-- `isspace` of the C library. -/
def isspace (c : Char) : Bool := c == ' ' || (9 ≤ c.toNat && c.toNat ≤ 13)

namespace Str

/-- `operator[]`: behind the last character there is a NUL, and nothing behind that. -/
def charAt (s : Str) (i : ℕ) : Option Char := if i = s.length then some '\x00' else s[i]?

/-- `to_upper`. -/
def toUpper (s : Str) : Str := s.map Char.toUpper

@[simp]
lemma length_toUpper (s : Str) : s.toUpper.length = s.length := List.length_map _

lemma toUpper_append (s t : Str) : toUpper (s ++ t) = s.toUpper ++ t.toUpper :=
  List.map_append

lemma char_toUpper_toUpper (c : Char) : c.toUpper.toUpper = c.toUpper := by
  unfold Char.toUpper
  split
  · rename_i hlower
    refine dif_neg ?_
    simp only [UInt32.le_iff_toNat_le, UInt32.toNat_add] at hlower ⊢
    revert hlower
    simp
    omega
  · rfl

@[simp]
lemma toUpper_toUpper (s : Str) : s.toUpper.toUpper = s.toUpper := by
  rw [toUpper, toUpper, List.map_map]
  exact List.map_congr_left fun c _ => char_toUpper_toUpper c

lemma eq_of_toUpper {c d : Char} (hd : d.toNat < 65) (h : c.toUpper = d) : c = d := by
  unfold Char.toUpper at h
  split at h
  · rename_i hlower
    have hval := congrArg (fun c : Char => c.val.toNat) h
    simp only [UInt32.le_iff_toNat_le] at hlower
    simp only [UInt32.toNat_add] at hval
    revert hlower hval
    simp
    omega
  · exact h

lemma eq_colon_of_toUpper {c : Char} (h : c.toUpper = ':') : c = ':' :=
  eq_of_toUpper (by decide) h

end Str
