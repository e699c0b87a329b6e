import Btos.Ata.Cache
import Btos.Ata.Driver

/-!
# Transfers of sectors

`addressed_iff` is about the registers that name a sector to the drive, which have 28 bits for it.
`honest_iff` is about what becomes of a read that fails: `ata_device_read_sector_pio` gives up
silently, and `ata_queued_read` does not look at the status of its operation.
-/

namespace Ata

/-! ## Registers -/

/-- What `ata_device_read_sector_pio` and `ata_device_write_sector` write to `HDDEVSEL` and to
`LBA0`, `LBA1` and `LBA2`. -/
structure Registers where
  hddevsel : UInt8
  lba0 : UInt8
  lba1 : UInt8
  lba2 : UInt8

/-- The registers for a sector. -/
def registers (slave : UInt8) (lba : UInt32) : Registers where
  hddevsel := (0xe0 : UInt8) ||| slave <<< 4 ||| ((lba &&& 0x0f000000) >>> 24).toUInt8
  lba0 := (lba &&& 0xff).toUInt8
  lba1 := ((lba &&& 0xff00) >>> 8).toUInt8
  lba2 := ((lba &&& 0xff0000) >>> 16).toUInt8

/-- The sector that the drive takes from its registers. -/
def Registers.sector (r : Registers) : ℕ :=
  r.hddevsel.toNat % 2 ^ 4 * 2 ^ 24 + r.lba2.toNat * 2 ^ 16 + r.lba1.toNat * 2 ^ 8 + r.lba0.toNat

lemma and_shiftRight (x k n : ℕ) : (x &&& (2 ^ n - 1) <<< k) >>> k = x / 2 ^ k % 2 ^ n := by
  rw [Nat.shiftRight_and_distrib, Nat.shiftLeft_shiftRight, Nat.and_two_pow_sub_one_eq_mod,
    Nat.shiftRight_eq_div_pow]

lemma sector_registers (slave : UInt8) (lba : UInt32) :
    (registers slave lba).sector = lba.toNat % 2 ^ 28 := by
  have h0 : (registers slave lba).lba0.toNat = lba.toNat % 2 ^ 8 := by
    have hbits : lba.toNat &&& 255 = lba.toNat % 2 ^ 8 := Nat.and_two_pow_sub_one_eq_mod _ 8
    rw [registers, UInt32.toNat_toUInt8, UInt32.toNat_and]
    change (lba.toNat &&& 255) % 2 ^ 8 = _
    rw [hbits, Nat.mod_mod]
  have h1 : (registers slave lba).lba1.toNat = lba.toNat / 2 ^ 8 % 2 ^ 8 := by
    have hbits := and_shiftRight lba.toNat 8 8
    simp [registers] at hbits ⊢
    omega
  have h2 : (registers slave lba).lba2.toNat = lba.toNat / 2 ^ 16 % 2 ^ 8 := by
    have hbits := and_shiftRight lba.toNat 16 8
    simp [registers] at hbits ⊢
    omega
  have h3 : (registers slave lba).hddevsel.toNat % 2 ^ 4 = lba.toNat / 2 ^ 24 % 2 ^ 4 := by
    have hbits := and_shiftRight lba.toNat 24 4
    have hslave : (slave <<< 4).toNat % 2 ^ 4 = 0 := by
      simp [Nat.shiftLeft_eq]
    simp only [registers, UInt8.toNat_or, Nat.or_mod_two_pow, hslave]
    simp at hbits ⊢
    omega
  unfold Registers.sector
  omega

namespace Instance

/-- The sector at the position of an instance is below the length of the device and is the one that
the drive is told, unless the position is not let through. -/
def Addressed (slave : UInt8) (inst : Instance) : Prop :=
  inst.pastEnd = false → inst.pos.toInt / 512 < inst.dev.length.toNat ∧
    (registers slave inst.sector).sector = inst.pos.toInt / 512

lemma toNat_sector {inst : Instance} (h : 0 ≤ inst.pos.toInt) :
    (inst.sector.toNat : ℤ) = inst.pos.toInt / 512 % 2 ^ 32 := by
  have hlt := inst.pos.toInt_lt
  have hdiv : (inst.pos / 512).toInt = inst.pos.toInt / 512 := by
    have h512 : (512 : Int64).toInt = 512 := rfl
    rw [Int64.toInt_div, h512, Int.tdiv_eq_ediv_of_nonneg h, Int.bmod_eq_of_le] <;> omega
  have hnat := toNat_toUInt64 (x := inst.pos / 512) (by omega)
  rw [sector, UInt64.toNat_toUInt32]
  omega

/-- Sectors are addressed as they should be exactly at the positions before the end of the device
and below 128 GiB; the position at the end is let through. -/
theorem addressed_iff (slave : UInt8) (inst : Instance) : inst.Addressed slave ↔
    (inst.pos.toUInt64.toNat ≤ inst.dev.length.toNat * 512 % 2 ^ 64 →
      inst.pos.toUInt64.toNat ≠ inst.dev.length.toNat * 512 ∧
        inst.pos.toUInt64.toNat < 2 ^ 37) := by
  have hpast : inst.pastEnd = false ↔
      inst.pos.toUInt64.toNat ≤ inst.dev.length.toNat * 512 % 2 ^ 64 := by
    rw [pastEnd, decide_eq_false_iff_not, gt_iff_lt, UInt64.lt_iff_toNat_lt, UInt64.toNat_mul]
    exact Nat.not_lt
  rw [Addressed, hpast, sector_registers]
  refine imp_congr_right fun hle => ?_
  by_cases hpos : 0 ≤ inst.pos.toInt
  · have hnat := toNat_toUInt64 hpos
    have hsector := toNat_sector hpos
    omega
  · -- a negative position is let through on devices that are longer than any position
    have hnat : 2 ^ 63 ≤ inst.pos.toUInt64.toNat := by
      by_contra hlt
      have hint := toInt_toInt64 (x := inst.pos.toUInt64) (by omega)
      rw [Int64.toInt64_toUInt64] at hint
      omega
    constructor
    · rintro ⟨-, hsector⟩
      omega
    · rintro ⟨-, hsmall⟩
      omega

/-- The end of a device of 8 sectors. -/
theorem not_addressed_end : ¬ Addressed 0 ⟨⟨0, 8⟩, 4096⟩ := by
  intro h
  exact absurd (h (by decide)).1 (by decide)

end Instance

/-! ## Failed reads -/

variable {D : Type*}

/-- What happens to a queued read: whether `setpid` succeeds, whether `ata_wait` reports an error in
each of the attempts, the contents of the sector and what is in the caller's buffer. -/
structure Outcome (D : Type*) where
  setpid : Bool
  error : ℕ → Bool
  data : D
  buf : D

namespace Outcome

variable (o : Outcome D) (dev : Device) (lba : UInt32)

/-- `ata_device_read_sector_pio` gets to `insm`, with at most five attempts. -/
def readsSector : Bool := !(lba.toUInt64 > dev.length) && (List.range 5).any fun i => !o.error i

/-- The operation transfers the sector. `init_dma` always fails, so there is no other way. -/
def transfers : Bool := o.setpid && o.readsSector dev lba

/-- What `ata_queued_read` leaves in the buffer. -/
def queuedRead : D := if o.transfers dev lba then o.data else o.buf

end Outcome

/-- The loop of `ata_read`: what it has read, the cache and the instance. -/
def readLoop : List (Outcome D) → Instance → Cache D → ℕ → ℕ × Cache D × Instance
  | [], inst, cache, read => (read, cache, inst)
  | o :: os, inst, cache, read =>
    if inst.pastEnd then (read, cache, inst)
    else
      match cache.cacheGet inst.dev.id inst.sector with
      | some (_, cache) => readLoop os inst.next cache (read + 512)
      | none =>
        let data := o.queuedRead inst.dev inst.sector
        readLoop os inst.next (cache.cacheAdd inst.dev.id inst.sector data) (read + 512)

/-- The loop as it should be: what was not transferred is neither counted nor stored. -/
def honestLoop : List (Outcome D) → Instance → Cache D → ℕ → ℕ × Cache D × Instance
  | [], inst, cache, read => (read, cache, inst)
  | o :: os, inst, cache, read =>
    if inst.pastEnd then (read, cache, inst)
    else
      match cache.cacheGet inst.dev.id inst.sector with
      | some (_, cache) => honestLoop os inst.next cache (read + 512)
      | none =>
        if o.transfers inst.dev inst.sector then
          honestLoop os inst.next (cache.cacheAdd inst.dev.id inst.sector o.data) (read + 512)
        else honestLoop os inst.next cache read

/-- Every sector that is not in the cache is transferred. -/
def AllTransferred : List (Outcome D) → Instance → Cache D → Prop
  | [], _, _ => True
  | o :: os, inst, cache =>
    inst.pastEnd = false → match cache.cacheGet inst.dev.id inst.sector with
      | some (_, cache) => AllTransferred os inst.next cache
      | none => o.transfers inst.dev inst.sector = true ∧
          AllTransferred os inst.next (cache.cacheAdd inst.dev.id inst.sector o.data)

/-- The rounds of the loop. -/
def rounds : List (Outcome D) → Instance → ℕ
  | [], _ => 0
  | _ :: os, inst => if inst.pastEnd then 0 else rounds os inst.next + 1

lemma readLoop_fst (os : List (Outcome D)) (inst : Instance) (cache : Cache D) (read : ℕ) :
    (readLoop os inst cache read).1 = read + 512 * rounds os inst := by
  induction os generalizing inst cache read with
  | nil => simp [readLoop, rounds]
  | cons o os ih =>
    rw [readLoop, rounds]
    split_ifs
    · simp
    · split <;> rw [ih] <;> omega

lemma honestLoop_fst_le (os : List (Outcome D)) (inst : Instance) (cache : Cache D) (read : ℕ) :
    (honestLoop os inst cache read).1 ≤ read + 512 * rounds os inst := by
  induction os generalizing inst cache read with
  | nil => simp [honestLoop, rounds]
  | cons o os ih =>
    rw [honestLoop, rounds]
    cases inst.pastEnd with
    | true => simp
    | false =>
      simp only [Bool.false_eq_true, if_false]
      split
      · exact (ih _ _ _).trans (by omega)
      · split <;> exact (ih _ _ _).trans (by omega)

/-- Failed reads are not passed off as data exactly if there are none. -/
theorem honest_iff (os : List (Outcome D)) (inst : Instance) (cache : Cache D) (read : ℕ) :
    readLoop os inst cache read = honestLoop os inst cache read ↔
      AllTransferred os inst cache := by
  induction os generalizing inst cache read with
  | nil => simp [readLoop, honestLoop, AllTransferred]
  | cons o os ih =>
    rw [readLoop, honestLoop, AllTransferred]
    cases hend : inst.pastEnd with
    | true => simp
    | false =>
      simp only [Bool.false_eq_true, if_false, true_implies]
      split
      · exact ih _ _ _
      · cases htransfers : o.transfers inst.dev inst.sector with
        | true => simp [Outcome.queuedRead, htransfers, ih]
        | false =>
          -- the sector has been counted, which the other loop does not make up for
          simp only [Bool.false_eq_true, if_false, false_and, iff_false]
          intro heq
          have hle := honestLoop_fst_le os inst.next cache read
          rw [← heq, readLoop_fst] at hle
          omega

/-- A read whose process is gone is counted and stored. -/
theorem not_honest_setpid :
    readLoop [⟨false, fun _ => false, 1, (0 : ℕ)⟩] (ataOpen ⟨1, 8⟩) [⟨false, 0, 0, 0, 0⟩] 0 ≠
      honestLoop [⟨false, fun _ => false, 1, 0⟩] (ataOpen ⟨1, 8⟩) [⟨false, 0, 0, 0, 0⟩] 0 := by
  decide

end Ata
