import Mathlib.Tactic

/-!
# The boot archive

`initfs_getdriver` of `initfs.cpp` lists the files of the first boot module, a tar archive. It goes
from header to header until the end of the module or a header with an empty name, and nothing that a
header says is checked. The sizes are octal texts; `from_oct` gives `-1` for a malformed one, which
`tar_size` returns as `0xFFFFFFFF`.

`scanned_iff_archive` says which archives are listed as they should be: those whose files end inside
of the module and whose padded ends do not wrap around, read with numbers of any size.
-/

open List

namespace Initfs

/-- Memory with the first boot module: `mod_start` and `mod_end`. -/
structure Module where
  mem : UInt32 → UInt8
  modStart : UInt32
  modEnd : UInt32

/-- `initfs_file`; the name is the string that starts at the address `name`. -/
structure File where
  name : UInt32
  data : UInt32
  size : UInt32

/-- The macro `isspace` of `initfs.cpp`. -/
def isspace (c : UInt8) : Bool := c == 32

/-- The macro `isodigit`. -/
def isodigit (c : UInt8) : Bool := 48 ≤ c && c ≤ 55

/-- The digits of `from_oct`, from the address `p` on. -/
def octDigits (mem : UInt32 → UInt8) : ℕ → UInt32 → UInt32 → UInt32
  | 0, value, _ => value
  | digs + 1, value, p =>
    if isodigit (mem p) then
      octDigits mem digs (value <<< 3 ||| (mem p - 48).toUInt32) (p + 1)
    else if mem p ≠ 0 ∧ !isspace (mem p) then
      -- ended on non-space/nul
      -1
    else value

/-- `from_oct`, whose `long` is read as a `size_t` by its only caller. -/
def fromOct (mem : UInt32 → UInt8) : ℕ → UInt32 → UInt32
  | 0, p => if isspace (mem p) then -1 else octDigits mem 0 0 p
  | digs + 1, p =>
    if isspace (mem p) then
      if digs = 0 then -1 else fromOct mem digs (p + 1)
    else octDigits mem (digs + 1) 0 p

/-- `tar_size` -/
def tarSize (mem : UInt32 → UInt8) (p : UInt32) : UInt32 := fromOct mem 12 p

namespace Module

variable (m : Module)

/-- The size in the header at `th`; the field has the offset 124. -/
def sizeAt (th : UInt32) : UInt32 := tarSize m.mem (th + 124)

/-- The header behind a file of `size` bytes with the header `th`. -/
def following (th size : UInt32) : UInt32 :=
  th + 512 + 512 * (if size % 512 ≠ 0 then size / 512 + 1 else size / 512)

/-- The loop of `initfs_getdriver`, for at most `fuel` rounds: the list of files and the header at
which it stops. -/
def loop : ℕ → UInt32 → List File → Option (List File × UInt32)
  | 0, _, _ => none
  | fuel + 1, th, files =>
    if th < m.modEnd then
      if m.mem th = 0 then some (files, th)
      else
        let size := m.sizeAt th
        loop fuel (following th size) (files ++ [⟨th, th + 512, size⟩])
    else some (files, th)

/-- `initfs_getdriver` when a module is loaded. -/
def initfsGetdriver (fuel : ℕ) : Option (List File × UInt32) := m.loop fuel m.modStart []

/-- The addresses of headers that a scan comes to. -/
def visited (r : List File × UInt32) : List UInt32 := r.1.map File.name ++ [r.2]

/-- The range of a file is inside of the module. -/
def Holds (f : File) : Prop :=
  m.modStart ≤ f.data ∧ f.data.toNat + f.size.toNat ≤ m.modEnd.toNat

/-- The scan ends, its headers increase and every file that it lists is inside of the module. -/
def Scanned : Prop :=
  ∃ fuel r, m.initfsGetdriver fuel = some r ∧ (visited r).Pairwise (· < ·) ∧ ∀ f ∈ r.1, m.Holds f

/-- The whole blocks of a file of `size` bytes. -/
def blocks (size : ℕ) : ℕ := (size + 511) / 512

/-- From the header at `th` on, every file ends inside of the module and the block behind it has an
address. -/
inductive Archive : UInt32 → Prop
  | outside {th : UInt32} (h : ¬ th < m.modEnd) : Archive th
  | terminator {th : UInt32} (h : m.mem th = 0) : Archive th
  | file {th : UInt32} (h : th.toNat + 512 + (m.sizeAt th).toNat ≤ m.modEnd.toNat)
      (hnext : th.toNat + 512 + 512 * blocks (m.sizeAt th).toNat < 2 ^ 32)
      (rest : Archive (following th (m.sizeAt th))) : Archive th

/-! ## One header -/

lemma toNat_following (th size : UInt32) :
    (following th size).toNat = (th.toNat + 512 + 512 * blocks size.toNat) % 2 ^ 32 := by
  have hsize := size.toNat_lt
  have hblocks : (if size % 512 ≠ 0 then size / 512 + 1 else size / 512).toNat =
      blocks size.toNat := by
    have hmod : (size % 512).toNat = size.toNat % 512 := by simp
    by_cases h : size % 512 ≠ 0
    · have hne : (size % 512).toNat ≠ 0 := fun h0 => h (UInt32.toNat_inj.mp (by simpa using h0))
      rw [if_pos h]
      simp only [UInt32.toNat_add, UInt32.toNat_div, UInt32.reduceToNat, blocks]
      omega
    · rw [not_not] at h
      rw [if_neg (not_not.mpr h)]
      have hzero : size.toNat % 512 = 0 := by rw [← hmod, h]; rfl
      simp only [UInt32.toNat_div, UInt32.reduceToNat, blocks]
      omega
  simp only [following, UInt32.toNat_add, UInt32.toNat_mul, hblocks, UInt32.reduceToNat]
  omega

lemma moves_iff {th size modEnd : UInt32} :
    (th < following th size ∧ (th + 512).toNat + size.toNat ≤ modEnd.toNat) ↔
      th.toNat + 512 + size.toNat ≤ modEnd.toNat ∧
        th.toNat + 512 + 512 * blocks size.toNat < 2 ^ 32 := by
  have hend := modEnd.toNat_lt
  have hdata : (th + 512).toNat = (th.toNat + 512) % 2 ^ 32 := by simp
  rw [UInt32.lt_iff_toNat_lt, toNat_following, hdata]
  -- all headers have the same offset in their blocks, so a wrapped header is never a later one
  unfold blocks
  omega

lemma data_of_file {th size modEnd : UInt32} (h : th.toNat + 512 + size.toNat ≤ modEnd.toNat) :
    (th + 512).toNat = th.toNat + 512 := by
  have hend := modEnd.toNat_lt
  have hdata : (th + 512).toNat = (th.toNat + 512) % 2 ^ 32 := by simp
  omega

/-! ## Whole scans -/

variable {m}

lemma loop_append (fuel : ℕ) (th : UInt32) (files : List File) :
    m.loop fuel th files = (m.loop fuel th []).map fun r => (files ++ r.1, r.2) := by
  induction fuel generalizing th files with
  | zero => rfl
  | succ fuel ih =>
    simp only [loop]
    split_ifs
    · simp
    · rw [ih, ih _ ([] ++ _)]
      simp [Function.comp_def]
    · simp

variable {th : UInt32}

lemma loop_file (hlt : th < m.modEnd) (hname : m.mem th ≠ 0) (fuel : ℕ) :
    m.loop (fuel + 1) th [] = (m.loop fuel (following th (m.sizeAt th)) []).map fun r =>
      (⟨th, th + 512, m.sizeAt th⟩ :: r.1, r.2) := by
  simp only [loop, if_pos hlt, if_neg hname, nil_append]
  rw [loop_append]
  rfl

lemma visited_cons (f : File) (fs : List File) (last : UInt32) :
    visited (f :: fs, last) = f.name :: visited (fs, last) := rfl

/-- The first header of a scan is the one that it starts with. -/
lemma visited_of_loop {fuel : ℕ} {r : List File × UInt32}
    (h : m.loop fuel th [] = some r) : ∃ rest, visited r = th :: rest := by
  cases fuel with
  | zero => simp [loop] at h
  | succ fuel =>
    by_cases hfile : th < m.modEnd ∧ m.mem th ≠ 0
    · rw [loop_file hfile.1 hfile.2] at h
      obtain ⟨⟨fs, last⟩, -, rfl⟩ := Option.map_eq_some_iff.mp h
      exact ⟨_, visited_cons _ _ _⟩
    · refine ⟨[], ?_⟩
      have hr : r = ([], th) := by
        rw [loop] at h
        split_ifs at h with hlt hname
        · simpa using h.symm
        · exact absurd ⟨hlt, hname⟩ hfile
        · simpa using h.symm
      simp [visited, hr]

/-- What a scan of an archive gives, from any of its headers on. -/
lemma Archive.scanned (h : m.Archive th) :
    ∃ fuel r, m.loop fuel th [] = some r ∧ (visited r).Pairwise (· < ·) ∧
      (∀ x ∈ visited r, th ≤ x) ∧
      ∀ f ∈ r.1, th ≤ f.data ∧ f.data.toNat + f.size.toNat ≤ m.modEnd.toNat := by
  induction h with
  | @outside th h => exact ⟨1, ([], th), by simp [loop, h], by simp [visited]⟩
  | @terminator th h => exact ⟨1, ([], th), by simp [loop, h], by simp [visited]⟩
  | @file th h hnext rest ih =>
    by_cases hfile : th < m.modEnd ∧ m.mem th ≠ 0
    · obtain ⟨fuel, ⟨fs, last⟩, hrun, hincreasing, hle, hinside⟩ := ih
      obtain ⟨hmoves, hdata⟩ := moves_iff.mpr ⟨h, hnext⟩
      have hth : th ≤ th + 512 := by
        rw [UInt32.le_iff_toNat_le, data_of_file h]
        omega
      refine ⟨fuel + 1, _, by rw [loop_file hfile.1 hfile.2, hrun]; rfl, ?_, ?_, ?_⟩
      · rw [visited_cons, pairwise_cons]
        exact ⟨fun x hx => UInt32.lt_of_lt_of_le hmoves (hle x hx), hincreasing⟩
      · rw [visited_cons, forall_mem_cons]
        exact ⟨UInt32.le_refl th, fun x hx => UInt32.le_trans (UInt32.le_of_lt hmoves) (hle x hx)⟩
      · rw [forall_mem_cons]
        refine ⟨⟨hth, hdata⟩, fun f hf => ⟨?_, (hinside f hf).2⟩⟩
        exact UInt32.le_trans (UInt32.le_of_lt hmoves) (hinside f hf).1
    · have hstop : ¬ th < m.modEnd ∨ m.mem th = 0 := by tauto
      exact ⟨1, ([], th), by rcases hstop with h | h <;> simp [loop, h], by simp [visited]⟩

/-- A scan that ends with increasing headers and with files inside of the module has seen an
archive. -/
lemma archive_of_loop {fuel : ℕ} {r : List File × UInt32}
    (h : m.loop fuel th [] = some r) (hincreasing : (visited r).Pairwise (· < ·))
    (hinside : ∀ f ∈ r.1, m.Holds f) : m.Archive th := by
  induction fuel generalizing th r with
  | zero => simp [loop] at h
  | succ fuel ih =>
    by_cases hlt : th < m.modEnd
    swap
    · exact .outside hlt
    by_cases hname : m.mem th = 0
    · exact .terminator hname
    rw [loop_file hlt hname] at h
    obtain ⟨⟨fs, last⟩, hrun, rfl⟩ := Option.map_eq_some_iff.mp h
    rw [visited_cons, pairwise_cons] at hincreasing
    rw [forall_mem_cons] at hinside
    -- the header behind the file is the next one that the scan comes to
    obtain ⟨rest, hrest⟩ := visited_of_loop hrun
    have hmoves := hincreasing.1 (following th (m.sizeAt th)) (by simp [hrest])
    obtain ⟨hend, hnext⟩ := moves_iff.mp ⟨hmoves, hinside.1.2⟩
    exact .file hend hnext (ih hrun hincreasing.2 hinside.2)

/-- The boot module is scanned as it should be exactly if it is an archive whose files end inside of
it. -/
theorem scanned_iff_archive (m : Module) : m.Scanned ↔ m.Archive m.modStart := by
  constructor
  · rintro ⟨fuel, r, hrun, hincreasing, hinside⟩
    exact archive_of_loop hrun hincreasing hinside
  · intro h
    obtain ⟨fuel, r, hrun, hincreasing, -, hinside⟩ := h.scanned
    exact ⟨fuel, r, hrun, hincreasing, hinside⟩

/-- A module with one header at 1 MiB, for a file named `a` whose size is `37777777000`. -/
def spinning : Module where
  mem p :=
    if p = 0x100000 then 97
    else ([51, 55, 55, 55, 55, 55, 55, 55, 48, 48, 48][(p - 0x10007c).toNat]?).getD 0
  modStart := 0x100000
  modEnd := 0x100400

lemma spinning_loop (fuel : ℕ) (files : List File) :
    spinning.loop fuel spinning.modStart files = none := by
  induction fuel generalizing files with
  | zero => rfl
  | succ fuel ih =>
    have hlt : spinning.modStart < spinning.modEnd := by decide
    have hname : spinning.mem spinning.modStart ≠ 0 := by decide
    have hnext : following spinning.modStart (spinning.sizeAt spinning.modStart) =
        spinning.modStart := by decide +kernel
    rw [loop, if_pos hlt, if_neg hname]
    simp only [hnext]
    exact ih _

/-- The header behind this file is its own, so the scan never ends. -/
theorem not_scanned_spinning : ¬ spinning.Scanned := by
  rintro ⟨fuel, r, hrun, -⟩
  rw [initfsGetdriver, spinning_loop] at hrun
  cases hrun

end Module

end Initfs
