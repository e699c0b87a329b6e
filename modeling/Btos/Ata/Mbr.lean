import Btos.Ata.Driver
import Btos.Lib.TransitionSystem

/-!
# Partitions

A partition of an ATA device is a device of its own: its driver keeps a position in the partition
and hands the reads and writes to the device. Only `mbr_seek` looks at the size of the partition,
and it compares with `start * sectors`.

Main results: `confined_of_reaches` and `exists_outside`.
-/

open List

namespace Mbr

open Ata

/-- `mbr_part_instance`; the numbers come from fields of 32 bits. -/
structure Part where
  start : UInt64
  sectors : UInt64
  deriving DecidableEq, Repr

/-- `mbr_instance`. -/
structure Instance where
  part : Part
  pos : Int64
  devpos : Int64
  dh : Ata.Instance
  deriving DecidableEq, Repr

/-- `devseek`: position and result are of type `size_t`, which has 32 bits. -/
def devseek (dh : Ata.Instance) (pos : UInt32) (flags : UInt32) : UInt32 × Ata.Instance :=
  let dh := dh.ataSeek pos.toUInt64.toInt64 flags
  (dh.pos.toUInt64.toUInt32, dh)

/-- `mbr_open`. -/
def mbrOpen (part : Part) (dev : Device) : Instance :=
  let (devpos, dh) := devseek (ataOpen dev) (part.start * 512).toUInt32 fsSet
  ⟨part, 0, devpos.toUInt64.toInt64, dh⟩

namespace Instance

variable (inst : Instance)

/-- `mbr_read` and `mbr_write`: the sectors that `access`, the function of the device, reads or
writes, and the instance afterwards. -/
def transfer (access : Ata.Instance → UInt32 → List UInt32 × Ata.Instance) (bytes : UInt32) :
    List UInt32 × Instance :=
  if bytes % 512 ≠ 0 then ([], inst)
  else
    let (sectors, dh) := access inst.dh bytes
    let r : Int64 := .ofNat (512 * sectors.length)
    (sectors, { inst with pos := inst.pos + r, devpos := inst.devpos + r, dh := dh })

/-- `mbr_read`. -/
def mbrRead (bytes : UInt32) : List UInt32 × Instance := inst.transfer Ata.Instance.ataRead bytes

/-- `mbr_write`. -/
def mbrWrite (bytes : UInt32) : List UInt32 × Instance := inst.transfer Ata.Instance.ataWrite bytes

/-- The position on the device that `mbr_seek` asks for. -/
def seekTarget (pos : Int64) (flags : UInt32) : Int64 :=
  let moved :=
    if flags = fsSet then pos
    else if flags = fsRelative then inst.pos + pos
    else if flags = fsBackwards then (inst.part.sectors * 512 - pos.toUInt64).toInt64
    else if flags = fsRelative ||| fsBackwards then inst.pos - pos
    else inst.pos
  let devpos := (moved.toUInt64 + inst.part.start * 512).toInt64
  -- A product where one expects a sum.
  let limit := inst.part.start * inst.part.sectors * 512
  if devpos.toUInt64 > limit then limit.toInt64 else devpos

/-- `mbr_seek`; it returns the position of the instance that is left. -/
def mbrSeek (pos : Int64) (flags : UInt32) : Instance :=
  let (devpos, dh) := devseek inst.dh (inst.seekTarget pos flags).toUInt64.toUInt32 fsSet
  { inst with
    pos := (devpos.toUInt64 - inst.part.start * 512).toInt64
    devpos := devpos.toUInt64.toInt64
    dh := dh }

end Instance

/-! ## The system -/

/-- An open partition and the sectors of the device that were read or written. -/
structure State where
  inst : Instance
  accessed : List UInt32
  deriving DecidableEq, Repr

/-- A call of the driver. -/
inductive Action where
  | seek (pos : Int64) (flags : UInt32)
  | read (bytes : UInt32)
  | write (bytes : UInt32)
  deriving DecidableEq, Repr

namespace State

variable (s : State)

/-- What a call does: the sectors it reads or writes, and the instance afterwards. -/
def perform : Action → List UInt32 × Instance
  | .seek pos flags => ([], s.inst.mbrSeek pos flags)
  | .read bytes => s.inst.mbrRead bytes
  | .write bytes => s.inst.mbrWrite bytes

/-- The state after a call. -/
def step (a : Action) : Option State :=
  let (sectors, inst) := s.perform a
  some ⟨inst, s.accessed ++ sectors⟩

/-- A read or write that is not refused begins and ends inside the partition. -/
def Within : Action → Prop
  | .seek _ _ => True
  | .read bytes | .write bytes =>
      bytes % 512 = 0 → bytes ≠ 0 →
        0 ≤ s.inst.pos.toInt ∧ s.inst.pos.toInt + bytes.toNat ≤ s.inst.part.sectors.toNat * 512

end State

/-- A partition that is opened once and then used. -/
def partition (part : Part) (dev : Device) : System State Action where
  init s := s = ⟨mbrOpen part dev, []⟩
  step := State.step

/-- The sector belongs to the partition. -/
def Part.Contains (part : Part) (k : UInt32) : Prop :=
  part.start.toNat ≤ k.toNat ∧ k.toNat < part.start.toNat + part.sectors.toNat

/-- The partition lies on the device and ends below 4 GiB, so that also the position behind its last
sector has the 32 bits that `devseek` returns. -/
structure Fits (part : Part) (dev : Device) : Prop where
  onDevice : part.start.toNat + part.sectors.toNat ≤ dev.length.toNat
  positions : part.start.toNat + part.sectors.toNat < 2 ^ 23
  addressable : dev.Addressable

/-! ## Where the instance is -/

variable {part : Part} {dev : Device} {inst : Instance} {q : ℕ}

/-- The position of the instance is that of the device, which is the beginning of sector `q`. -/
structure Instance.In (part : Part) (dev : Device) (inst : Instance) (q : ℕ) : Prop where
  part_eq : inst.part = part
  dev_eq : inst.dh.dev = dev
  at_dh : inst.dh.At q
  position : q < 2 ^ 23
  le_length : q ≤ dev.length.toNat
  pos_eq : inst.pos.toInt = 512 * q - 512 * part.start.toNat

namespace Fits

section

variable (hfits : Fits part dev)
include hfits

lemma toNat_start : (part.start * 512).toNat = part.start.toNat * 512 := by
  have h512 : (512 : UInt64).toNat = 512 := rfl
  have hpos := hfits.positions
  rw [UInt64.toNat_mul, h512]
  omega

/-- Seeking on the device, to anything. -/
lemma devseek_at {dh : Ata.Instance} (hdh : dh.At q) (hdev : dh.dev = dev)
    (hq : q < 2 ^ 23) (hle : q ≤ dev.length.toNat) (x : UInt32) :
    ∃ q', (devseek dh x fsSet).2.At q' ∧ (devseek dh x fsSet).2.dev = dev ∧
      q' < 2 ^ 23 ∧ q' ≤ dev.length.toNat ∧ (devseek dh x fsSet).1.toNat = q' * 512 ∧
      (x.toNat % 512 = 0 → q' = min (x.toNat / 512) dev.length.toNat) := by
  have hx := x.toNat_lt
  subst hdev
  obtain ⟨hat, hsame⟩ := Ata.Instance.ataSeek_at x hdh hfits.addressable
  set q' := if x.toNat % 512 ≠ 0 then q else min (x.toNat / 512) dh.dev.length.toNat with hq'
  have hbounds : q' < 2 ^ 23 ∧ q' ≤ dh.dev.length.toNat := by
    rw [hq']
    split <;> omega
  refine ⟨q', hat, hsame, hbounds.1, hbounds.2, ?_, fun hx => ?_⟩
  · have hpos : (dh.ataSeek x.toUInt64.toInt64 fsSet).pos.toInt = 512 * q' := hat
    have hnat := toNat_toUInt64 (x := (dh.ataSeek x.toUInt64.toInt64 fsSet).pos) (by omega)
    rw [devseek, UInt64.toNat_toUInt32]
    omega
  · rw [hq', if_neg (by omega)]

lemma mbrOpen_in : (mbrOpen part dev).In part dev part.start.toNat := by
  have honDevice := hfits.onDevice
  have hpositions := hfits.positions
  have hopen : (ataOpen dev).At 0 := rfl
  obtain ⟨q', hat, hdev, hq', hle, -, hmin⟩ :=
    hfits.devseek_at hopen rfl (by norm_num) (Nat.zero_le _) (part.start * 512).toUInt32
  have hstart : (part.start * 512).toUInt32.toNat = part.start.toNat * 512 := by
    rw [UInt64.toNat_toUInt32, hfits.toNat_start]
    omega
  have heq : q' = part.start.toNat := by
    rw [hmin (by omega), hstart]
    omega
  subst heq
  exact ⟨rfl, hdev, hat, hq', hle, by simp [mbrOpen]⟩

lemma mbrSeek_in (h : inst.In part dev q) (pos : Int64)
    (flags : UInt32) : ∃ q', (inst.mbrSeek pos flags).In part dev q' := by
  obtain ⟨rfl, hdev, hat, hq, hle, hpos⟩ := h
  have hpositions := hfits.positions
  have hstart := hfits.toNat_start
  -- Whatever position the flags lead to, the device has the last word.
  obtain ⟨q', hat', hdev', hq', hle', hret, -⟩ :=
    hfits.devseek_at hat hdev hq hle (inst.seekTarget pos flags).toUInt64.toUInt32
  refine ⟨q', rfl, hdev', hat', hq', hle', ?_⟩
  rw [Instance.mbrSeek]
  have hnat : (devseek inst.dh (inst.seekTarget pos flags).toUInt64.toUInt32 fsSet).1.toUInt64.toNat
      = q' * 512 := by
    rw [UInt32.toNat_toUInt64, hret]
  rw [toInt_toInt64_sub, hnat, hstart] <;> omega

end

/-! ## Reading and writing -/

section

variable {bytes : UInt32} {access : Ata.Instance → UInt32 → List UInt32 × Ata.Instance}
  (hfits : Fits part dev) (h : inst.In part dev q)
  (haccess : access = Ata.Instance.ataRead ∨ access = Ata.Instance.ataWrite)
include hfits h haccess

/-- The sectors that a read or write goes through, and where the instance is afterwards: the end of
the device may come first. -/
lemma transfer_in (hbytes : bytes % 512 = 0) :
    ∃ m, m = min (bytes.toNat / 512) (dev.length.toNat + 1 - q) ∧
      (inst.transfer access bytes).1.map UInt32.toNat = range' q m ∧
      (q + m < 2 ^ 23 → q + m ≤ dev.length.toNat →
        (inst.transfer access bytes).2.In part dev (q + m)) := by
  obtain ⟨rfl, rfl, hat, hq, hle, hpos⟩ := h
  have hlt := bytes.toNat_lt
  have hpositions := hfits.positions
  have hwalk : access inst.dh bytes = inst.dh.walk (bytes.toNat / 512) := by
    rcases haccess with rfl | rfl
    · rw [Ata.Instance.ataRead, if_neg (not_not_intro hbytes)]
    · rw [Ata.Instance.ataWrite, if_neg (not_not_intro hbytes)]
  obtain ⟨hsectors, hat', hdev⟩ :=
    Ata.Instance.walk_eq (bytes.toNat / 512) hat hfits.addressable (by omega)
  set m := min (bytes.toNat / 512) (inst.dh.dev.length.toNat + 1 - q)
  have hlength : (inst.dh.walk (bytes.toNat / 512)).1.length = m := by
    have hmap := congrArg length hsectors
    rwa [length_map, length_range'] at hmap
  rw [Instance.transfer, if_neg (not_not_intro hbytes), hwalk]
  refine ⟨m, rfl, hsectors, fun hposition hend => ⟨rfl, hdev, hat', hposition, hend, ?_⟩⟩
  dsimp only
  rw [hlength, Int64.toInt_add, hpos, Int64.toInt_ofNat_of_lt (by omega), Int.bmod_eq_of_le] <;>
    omega

/-- A read or write stays inside the partition if and only if `Within` says so. -/
lemma transfer_contains_iff :
    (∀ k ∈ (inst.transfer access bytes).1, part.Contains k) ↔
      (bytes % 512 = 0 → bytes ≠ 0 → 0 ≤ inst.pos.toInt ∧
        inst.pos.toInt + bytes.toNat ≤ inst.part.sectors.toNat * 512) := by
  by_cases hbytes : bytes % 512 = 0
  · have hmod : bytes.toNat % 512 = 0 := by
      have h512 : (512 : UInt32).toNat = 512 := rfl
      have h0 := congrArg UInt32.toNat hbytes
      rwa [UInt32.toNat_mod, h512] at h0
    have hzero : bytes = 0 ↔ bytes.toNat = 0 := UInt32.toNat_inj.symm
    obtain ⟨m, hm, hsectors, -⟩ := hfits.transfer_in h haccess hbytes
    obtain ⟨rfl, rfl, -, -, hle, hpos⟩ := h
    have honDevice := hfits.onDevice
    constructor
    · intro hall _ hne
      rw [Ne, hzero] at hne
      -- The first and the last sector decide.
      have hmem (j : ℕ) (hj : q ≤ j ∧ j < q + m) : inst.part.start.toNat ≤ j ∧
          j < inst.part.start.toNat + inst.part.sectors.toNat := by
        have hrange : j ∈ (inst.transfer access bytes).1.map UInt32.toNat := by
          rw [hsectors, mem_range'_1]
          exact hj
        obtain ⟨k, hk, rfl⟩ := mem_map.mp hrange
        exact hall k hk
      have hfirst := hmem q (by omega)
      have hlast := hmem (q + m - 1) (by omega)
      omega
    · intro hwithin k hk
      have hrange : k.toNat ∈ range' q m := by
        rw [← hsectors]
        exact mem_map_of_mem hk
      rw [mem_range'_1] at hrange
      obtain ⟨hlow, hhigh⟩ := hwithin hbytes (by rw [Ne, hzero]; omega)
      constructor <;> omega
  · rw [Instance.transfer, if_pos hbytes]
    simp [hbytes]

/-- A read or write within the partition leaves the instance where it belongs. -/
lemma exists_transfer_in (hwithin : bytes % 512 = 0 → bytes ≠ 0 → 0 ≤ inst.pos.toInt ∧
      inst.pos.toInt + bytes.toNat ≤ inst.part.sectors.toNat * 512) :
    ∃ q', (inst.transfer access bytes).2.In part dev q' := by
  by_cases hbytes : bytes % 512 = 0
  · obtain ⟨m, hm, -, hin⟩ := hfits.transfer_in h haccess hbytes
    obtain ⟨rfl, rfl, -, hq, hle, hpos⟩ := h
    have honDevice := hfits.onDevice
    have hpositions := hfits.positions
    have hend : q + m < 2 ^ 23 ∧ q + m ≤ inst.dh.dev.length.toNat := by
      by_cases hzero : bytes = 0
      · subst hzero
        have hnone : m = 0 := by simpa using hm
        omega
      · have hsize := (hwithin hbytes hzero).2
        omega
    exact ⟨q + m, hin hend.1 hend.2⟩
  · rw [Instance.transfer, if_pos hbytes]
    exact ⟨q, h⟩

end

end Fits

namespace State

variable {s : State}

/-- What is known of a run in which every read and write stays within the partition. -/
structure Confined (part : Part) (dev : Device) (s : State) : Prop where
  inst : ∃ q, s.inst.In part dev q
  accessed : ∀ k ∈ s.accessed, part.Contains k

namespace Confined

section

variable (hfits : Fits part dev) (h : s.Confined part dev)
include hfits h

lemma perform_contains_iff (a : Action) :
    (∀ k ∈ (s.perform a).1, part.Contains k) ↔ s.Within a := by
  obtain ⟨q, hq⟩ := h.inst
  cases a with
  | seek pos flags => simp [perform, Within]
  | read bytes => exact hfits.transfer_contains_iff hq (.inl rfl)
  | write bytes => exact hfits.transfer_contains_iff hq (.inr rfl)

lemma perform_in {a : Action} (ha : s.Within a) : ∃ q, (s.perform a).2.In part dev q := by
  obtain ⟨q, hq⟩ := h.inst
  cases a with
  | seek pos flags => exact hfits.mbrSeek_in hq pos flags
  | read bytes => exact hfits.exists_transfer_in hq (.inl rfl) ha
  | write bytes => exact hfits.exists_transfer_in hq (.inr rfl) ha

lemma step {a : Action} (ha : s.Within a)
    {s' : State} (hstep : s.step a = some s') : s'.Confined part dev := by
  cases hstep
  refine ⟨h.perform_in hfits ha, fun k hk => ?_⟩
  rcases mem_append.mp hk with hk | hk
  · exact h.accessed k hk
  · exact (h.perform_contains_iff hfits a).mpr ha k hk

end

end Confined

/-! ## Runs -/

/-- In a run in which every read and write stays within the positions of the partition, only
sectors of the partition are read and written; and a call that leaves these positions touches
another sector. -/
theorem confined_of_reaches (hfits : Fits part dev)
    (h : (partition part dev).Reaches State.Within s) :
    (∀ k ∈ s.accessed, part.Contains k) ∧
    ∀ a, (∀ k ∈ (s.perform a).1, part.Contains k) ↔ s.Within a := by
  have hconfined : s.Confined part dev := by
    apply h.invariant
    · rintro _ rfl
      exact ⟨⟨_, hfits.mbrOpen_in⟩, fun k hk => nomatch hk⟩
    · exact fun _ _ _ hs ha hstep => hs.step hfits ha hstep
  exact ⟨hconfined.accessed, hconfined.perform_contains_iff hfits⟩

/-- Sectors 2, 3 and 4 of a small device. -/
def smallPart : Part := ⟨2, 3⟩

@[inherit_doc smallPart] def smallDevice : Device := ⟨1, 100⟩

/-- The whole partition is read; one sector more is too much. -/
theorem confined_whole : ∃ s, (partition smallPart smallDevice).Reaches State.Within s ∧
    s.accessed = [2, 3, 4] ∧ (∀ k ∈ s.accessed, smallPart.Contains k) ∧
    ¬ ∀ k ∈ (s.perform (.read 512)).1, smallPart.Contains k := by
  have hfits : Fits smallPart smallDevice :=
    ⟨by decide, by decide, by unfold Device.Addressable; decide⟩
  have hread : (partition smallPart smallDevice).Reaches State.Within _ :=
    .step (.init rfl) (a := .read 1536) (by unfold Within; decide +kernel) rfl
  obtain ⟨haccessed, hiff⟩ := confined_of_reaches hfits hread
  refine ⟨_, hread, by decide +kernel, haccessed, ?_⟩
  rw [hiff (.read 512)]
  unfold Within
  decide +kernel

/-- Seeking backwards from the beginning leads below the partition: the sector with the partition
table is overwritten. -/
theorem exists_outside : ∃ s, (partition smallPart smallDevice).Reachable s ∧
    ∃ k ∈ s.accessed, ¬ smallPart.Contains k := by
  have hrun : ((partition smallPart smallDevice).run ⟨mbrOpen smallPart smallDevice, []⟩
      [.seek (-1024) fsSet, .write 512]).any (fun s => s.accessed = [0]) = true := by
    decide +kernel
  obtain ⟨s, hs, haccessed⟩ := System.exists_reachable_of_run rfl hrun
  rw [decide_eq_true_iff] at haccessed
  refine ⟨s, hs, 0, by rw [haccessed]; decide, ?_⟩
  unfold Part.Contains
  decide

end State

end Mbr
