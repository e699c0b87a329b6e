import Mathlib.Tactic

/-!
# Where a seek goes

The flags of `fs_interface.h` for a seek, and what they mean: from the start, from the current
position, back from the end, and back from the current position (`Whence.target`). Most drivers make
the same tests on the flags, in the same order; `seekTarget` is what they do with positions of 32
bits.
-/

namespace Filesystems

/-- `FS_Set`, `FS_Relative` and `FS_Backwards`. -/
def fsSet : UInt32 := 0

@[inherit_doc fsSet] def fsRelative : UInt32 := 1

@[inherit_doc fsSet] def fsBackwards : UInt32 := 2

/-- Where a driver goes from position `q`, with the end at `e`. The third branch is never taken: its
flags pass the first test. -/
def seekTarget (q e pos flags : UInt32) : UInt32 :=
  if flags &&& fsRelative ≠ 0 then q + pos
  else if flags &&& fsBackwards ≠ 0 then e - pos
  else if flags = fsRelative ||| fsBackwards then q - pos
  else pos

/-- The four ways to seek. -/
inductive Whence where
  | set
  | relative
  | backwards
  | relativeBackwards
  deriving DecidableEq, Repr

namespace Whence

/-- The flags that ask for it. -/
def flags : Whence → UInt32
  | set => fsSet
  | relative => fsRelative
  | backwards => fsBackwards
  | relativeBackwards => fsRelative ||| fsBackwards

/-- Where a seek by `p` goes from position `q`, if the end is at `e`. -/
def target (q e p : ℕ) : Whence → ℕ
  | set => p
  | relative => q + p
  | backwards => e - p
  | relativeBackwards => q - p

lemma seekTarget_flags (q e p : UInt32) (w : Whence) : seekTarget q e p w.flags =
    match w with
    | set => p
    | relative | relativeBackwards => q + p
    | backwards => e - p := by
  cases w <;> rfl

/-- The offsets for which a driver goes where it should: the sum has 32 bits, and the offset is the
same forward and back. -/
def Plain (q p : ℕ) : Whence → Prop
  | set | backwards => True
  | relative => q + p < 2 ^ 32
  | relativeBackwards => 2 ^ 31 ∣ p

lemma seekTarget_iff {q e p : UInt32} (hq : p.toNat ≤ q.toNat) (he : p.toNat ≤ e.toNat)
    (w : Whence) :
    (seekTarget q e p w.flags).toNat = w.target q.toNat e.toNat p.toNat ↔
      w.Plain q.toNat p.toNat := by
  have hq32 := q.toNat_lt
  have hadd : (q + p).toNat = (q.toNat + p.toNat) % 2 ^ 32 := UInt32.toNat_add q p
  rw [seekTarget_flags]
  cases w with
  | set => exact iff_of_true rfl trivial
  | relative =>
    show (q + p).toNat = q.toNat + p.toNat ↔ q.toNat + p.toNat < 2 ^ 32
    omega
  | backwards =>
    exact iff_of_true (UInt32.toNat_sub_of_le _ _ (UInt32.le_iff_toNat_le.mpr he)) trivial
  | relativeBackwards =>
    show (q + p).toNat = q.toNat - p.toNat ↔ 2 ^ 31 ∣ p.toNat
    omega

end Whence

end Filesystems
