import Mathlib.Data.List.Basic
import Mathlib.Tactic.Ring

/-!
# The ATA driver

An instance of the driver has a position on its device. `ata_seek` moves it; `ata_read` and
`ata_write` go through the sectors from there on.

The position is a signed number of 64 bits and the sector that is derived from it has 32 bits, so
the definitions are over `Int64` and `UInt32`; `Instance.At` says where an instance is in terms of
natural numbers, and the lemmas are about such instances.
-/

namespace Ata

/-- `FS_Set`, `FS_Relative` and `FS_Backwards`. -/
def fsSet : UInt32 := 0

@[inherit_doc fsSet] def fsRelative : UInt32 := 1

@[inherit_doc fsSet] def fsBackwards : UInt32 := 2

/-- What the driver reads of an `ata_device`; `id` is its address. -/
structure Device where
  id : UInt32
  /-- The number of sectors. -/
  length : UInt64
  deriving DecidableEq, Repr

/-- `ata_instance`. -/
structure Instance where
  dev : Device
  pos : Int64
  deriving DecidableEq, Repr

/-- `ata_open`. -/
def ataOpen (dev : Device) : Instance := ⟨dev, 0⟩

namespace Instance

variable (inst : Instance)

/-- `ata_seek`; it returns the position of the instance that is left. -/
def ataSeek (pos : Int64) (flags : UInt32) : Instance :=
  if pos % 512 ≠ 0 then inst
  else
    let moved :=
      if flags = fsRelative then inst.pos + pos
      else if flags = fsBackwards then (inst.dev.length * 512 - pos.toUInt64).toInt64
      else if flags = fsRelative ||| fsBackwards then inst.pos - pos
      else pos
    let raised := if moved < 0 then 0 else moved
    { inst with
      pos :=
        if raised > inst.dev.length.toInt64 * 512 then (inst.dev.length * 512).toInt64
        else raised }

/-- `(uint64_t)inst->pos > inst->dev->length * 512`: the loops of `ata_read` and `ata_write`
end. -/
def pastEnd : Bool := inst.pos.toUInt64 > inst.dev.length * 512

/-- `inst->pos / 512`, as the cache and the queue get it. -/
def sector : UInt32 := (inst.pos / 512).toUInt64.toUInt32

/-- `inst->pos += 512`. -/
def next : Instance := { inst with pos := inst.pos + 512 }

/-- The sectors that the loop goes through in at most `n` rounds, and the instance after it. -/
def walk : ℕ → Instance → List UInt32 × Instance
  | 0, inst => ([], inst)
  | n + 1, inst =>
      if inst.pastEnd then ([], inst)
      else
        let r := walk n inst.next
        (inst.sector :: r.1, r.2)

/-- The sectors that `ata_read` reads, and the instance after it. -/
def ataRead (bytes : UInt32) : List UInt32 × Instance :=
  if bytes % 512 ≠ 0 then ([], inst) else inst.walk (bytes.toNat / 512)

/-- The sectors that `ata_write` writes, and the instance after it. -/
def ataWrite (bytes : UInt32) : List UInt32 × Instance :=
  if bytes % 512 ≠ 0 then ([], inst) else inst.walk (bytes.toNat / 512)

end Instance

/-! ## Conversions -/

lemma toInt_toInt64 {x : UInt64} (hx : x.toNat < 2 ^ 63) : x.toInt64.toInt = x.toNat := by
  rw [← Int64.toInt_toBitVec, UInt64.toBitVec_toInt64, BitVec.toInt_eq_toNat_of_lt]
  · rfl
  · rw [UInt64.toNat_toBitVec]
    omega

lemma toInt_toInt64_sub {x y : UInt64} (hx : x.toNat < 2 ^ 62) (hy : y.toNat < 2 ^ 62) :
    (x - y).toInt64.toInt = (x.toNat : ℤ) - y.toNat := by
  have hsub : ((x - y).toNat : ℤ) = ((x.toNat : ℤ) - y.toNat) % (2 ^ 64 : ℕ) := by
    rw [UInt64.toNat_sub]
    omega
  rw [← Int64.toInt_toBitVec, UInt64.toBitVec_toInt64, BitVec.toInt_eq_toNat_bmod,
    UInt64.toNat_toBitVec, hsub, Int.emod_bmod]
  exact Int.bmod_eq_of_le (by omega) (by omega)

lemma toNat_toUInt64 {x : Int64} (hx : 0 ≤ x.toInt) : (x.toUInt64.toNat : ℤ) = x.toInt := by
  rw [Int64.toNat_toUInt64_of_le (Int64.le_iff_toInt_le.mpr hx)]
  exact Int.toNat_of_nonneg hx

/-! ## Where an instance is -/

/-- A device whose length in bytes is a position. -/
def Device.Addressable (dev : Device) : Prop := dev.length.toNat * 512 < 2 ^ 63

lemma Device.Addressable.toNat_bytes {dev : Device} (h : dev.Addressable) :
    (dev.length * 512).toNat = dev.length.toNat * 512 := by
  unfold Device.Addressable at h
  have h512 : (512 : UInt64).toNat = 512 := rfl
  rw [UInt64.toNat_mul, h512]
  exact Nat.mod_eq_of_lt (by omega)

namespace Instance

variable {inst : Instance} {q : ℕ}

/-- The instance is at the beginning of sector `q`. -/
def At (inst : Instance) (q : ℕ) : Prop := inst.pos.toInt = 512 * q

lemma pastEnd_iff (h : inst.At q) (hdev : inst.dev.Addressable) :
    inst.pastEnd = true ↔ inst.dev.length.toNat < q := by
  unfold At at h
  have hpos := toNat_toUInt64 (x := inst.pos) (by omega)
  rw [pastEnd, decide_eq_true_iff, gt_iff_lt, UInt64.lt_iff_toNat_lt, hdev.toNat_bytes]
  omega

lemma sector_eq (h : inst.At q) (hq : q < 2 ^ 32) : inst.sector.toNat = q := by
  unfold At at h
  have hdiv : (inst.pos / 512).toInt = q := by
    have h512 : (512 : Int64).toInt = 512 := rfl
    rw [Int64.toInt_div, h, h512, Int.tdiv_eq_ediv_of_nonneg (by omega), Int.bmod_eq_of_le] <;>
      omega
  have hnat := toNat_toUInt64 (x := inst.pos / 512) (by omega)
  rw [sector, UInt64.toNat_toUInt32]
  omega

lemma next_dev : inst.next.dev = inst.dev := by
  simp only [next]

lemma next_at (h : inst.At q) (hq : q < 2 ^ 32) : inst.next.At (q + 1) := by
  unfold At at h ⊢
  have h512 : (512 : Int64).toInt = 512 := rfl
  rw [next, Int64.toInt_add, h, h512, Int.bmod_eq_of_le] <;> omega

/-- The loop goes through the sectors one after the other. The check at the end of the device lets
one sector too many through. -/
lemma walk_eq (n : ℕ) (h : inst.At q) (hdev : inst.dev.Addressable) (hq : q + n ≤ 2 ^ 32) :
    (inst.walk n).1.map UInt32.toNat = List.range' q (min n (inst.dev.length.toNat + 1 - q)) ∧
    (inst.walk n).2.At (q + min n (inst.dev.length.toNat + 1 - q)) ∧
    (inst.walk n).2.dev = inst.dev := by
  induction n generalizing inst q with
  | zero => exact ⟨by simp [walk], by simpa [walk] using h, rfl⟩
  | succ n ih =>
    rw [walk]
    split
    · rename_i hend
      -- the loop stops behind the sector at the end of the device
      have hlt := (pastEnd_iff h hdev).mp hend
      have hzero : min (n + 1) (inst.dev.length.toNat + 1 - q) = 0 := by omega
      rw [hzero]
      exact ⟨rfl, h, rfl⟩
    · rename_i hend
      have hle : q ≤ inst.dev.length.toNat := by
        rw [pastEnd_iff h hdev] at hend
        omega
      -- one sector is accessed, and the others are those of the next position
      have hsector : inst.sector.toNat = q := sector_eq h (by omega)
      have hnext : inst.next.At (q + 1) := next_at h (by omega)
      have hn : q + 1 + n ≤ 2 ^ 32 := by omega
      obtain ⟨hsectors, hat, hsame⟩ := ih hnext (by rwa [next_dev]) hn
      rw [next_dev] at hsectors hat hsame
      have hmin : min (n + 1) (inst.dev.length.toNat + 1 - q) =
          min n (inst.dev.length.toNat + 1 - (q + 1)) + 1 := by omega
      rw [hmin]
      refine ⟨?_, ?_, hsame⟩
      · rw [List.map_cons, List.range'_succ, hsector, hsectors]
      · rw [show q + (min n (inst.dev.length.toNat + 1 - (q + 1)) + 1) =
          q + 1 + min n (inst.dev.length.toNat + 1 - (q + 1)) by omega]
        exact hat

lemma toInt_end {dev : Device} (hdev : dev.Addressable) :
    (dev.length.toInt64 * 512).toInt = dev.length.toNat * 512 ∧
    (dev.length * 512).toInt64.toInt = dev.length.toNat * 512 := by
  have h512 : (512 : Int64).toInt = 512 := rfl
  have hbytes := hdev.toNat_bytes
  unfold Device.Addressable at hdev
  constructor
  · rw [Int64.toInt_mul, toInt_toInt64 (by omega), h512, Int.bmod_eq_of_le] <;> omega
  · rw [toInt_toInt64 (by omega), hbytes]
    push_cast
    rfl

/-- Seeking to a position of 32 bits. A position inside a sector is refused, one behind the end
becomes the end. -/
lemma ataSeek_at (x : UInt32) (h : inst.At q) (hdev : inst.dev.Addressable) :
    (inst.ataSeek x.toUInt64.toInt64 fsSet).At
      (if x.toNat % 512 ≠ 0 then q else min (x.toNat / 512) inst.dev.length.toNat) ∧
    (inst.ataSeek x.toUInt64.toInt64 fsSet).dev = inst.dev := by
  have hx := x.toNat_lt
  have hpos : x.toUInt64.toInt64.toInt = x.toNat := by
    rw [toInt_toInt64] <;> rw [UInt32.toNat_toUInt64]
    omega
  have hmod : x.toUInt64.toInt64 % 512 ≠ 0 ↔ x.toNat % 512 ≠ 0 := by
    have h512 : (512 : Int64).toInt = 512 := rfl
    have h0 : (0 : Int64).toInt = 0 := rfl
    rw [Ne, ← Int64.toInt_inj, Int64.toInt_mod, hpos, h512, h0,
      Int.tmod_eq_emod_of_nonneg (by omega)]
    omega
  obtain ⟨hlimit, hend⟩ := toInt_end hdev
  unfold ataSeek At
  by_cases hrest : x.toNat % 512 ≠ 0
  · rw [if_pos (hmod.mpr hrest), if_pos hrest]
    exact ⟨h, rfl⟩
  · have h0 : (0 : Int64).toInt = 0 := rfl
    have hsign : ¬ x.toUInt64.toInt64 < 0 := by
      rw [Int64.lt_iff_toInt_lt, hpos, h0]
      omega
    have hflag : ¬ fsSet = fsRelative ∧ ¬ fsSet = fsBackwards ∧
        ¬ fsSet = fsRelative ||| fsBackwards := by decide
    rw [if_neg (mt hmod.mp hrest), if_neg hrest]
    refine ⟨?_, rfl⟩
    dsimp only
    -- the position is compared with the end of the device as a signed number
    rw [if_neg hflag.1, if_neg hflag.2.1, if_neg hflag.2.2, if_neg hsign]
    split
    · rename_i hgt
      rw [gt_iff_lt, Int64.lt_iff_toInt_lt, hlimit, hpos] at hgt
      rw [hend]
      omega
    · rename_i hgt
      rw [gt_iff_lt, Int64.lt_iff_toInt_lt, hlimit, hpos] at hgt
      rw [hpos]
      omega

end Instance

end Ata
