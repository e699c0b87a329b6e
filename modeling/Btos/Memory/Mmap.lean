import Btos.Lib.TransitionSystem
import Btos.Memory.Addresses

/-!
# Memory-mapped files

The functions of `mm2_mmap.cpp` on the bytes of a file and of the memory of a process. A mapping of
more than a page is split into a head up to the next page, whole pages, which are loaded when they
are touched, and a tail.

Main result: `flush_of_run`.

There is one file and one process, and there is always a free page of physical memory. The result
`none` stands for a panic or a page fault that nobody handles.
-/

open Function List

namespace Mmap

open Memory

/-! ## Files -/

/-- A file of a driver that behaves as on an array of bytes. -/
structure File where
  bytes : List UInt8
  pos : ℕ

namespace File

variable (f : File)

/-- `fs_seek(file, p, FS_Set)`. -/
def seek (p : ℕ) : File := { f with pos := p }

/-- The bytes that `fs_read` returns. -/
def ahead (n : ℕ) : List UInt8 := (f.bytes.drop f.pos).take n

/-- `fs_write`. -/
def write (l : List UInt8) : File where
  bytes := f.bytes.take f.pos ++ l ++ f.bytes.drop (f.pos + l.length)
  pos := f.pos + l.length

end File

/-! ## Memory -/

/-- `mmapping`; there is one file and one process. -/
structure MMapping extends Memory.MMapping where
  offset : ℕ
  size : Word
  pre : Word
  post : Word
  pageOffset : ℕ

/-- The test of `handle_pf` for the region of a mapping. -/
def MMapping.covers (m : MMapping) (addr : Word) : Bool :=
  m.pageAddr ≤ addr && m.pageAddr + m.pages * BitVec.ofNat 32 pageSize > addr

/-- A process with a mapped file. -/
structure State where
  file : File
  mem : Word → UInt8
  /-- Whether a page is mapped, by its number. -/
  mapped : ℕ → Bool
  /-- The regions of the page directory, in the order in which they were added. -/
  regions : List MMapping

/-- Memory after bytes are written to it. -/
def setBytes (mem : Word → UInt8) (addr : Word) (l : List UInt8) (a : Word) : UInt8 :=
  l.getD (a - addr).toNat (mem a)

namespace State

variable (s : State)

/-- A seek in the file. -/
def seek (p : ℕ) : State := { s with file := s.file.seek p }

/-- `PageDirectory::map_page_at` of a new page, which is zeroed. -/
def mapPageAt (addr : Word) : State :=
  { s with
    mapped := Function.update s.mapped (pageOf addr) true
    mem := fun a => if pageOf a = pageOf addr then 0 else s.mem a }

/-- A page that is freed, or made a guard page. -/
def unmapPage (addr : Word) : State :=
  { s with mapped := Function.update s.mapped (pageOf addr) false }

/-- `PageDirectory::free_pages`. -/
def freePages (addr : Word) (pages : ℕ) : State :=
  (List.range pages).foldl (fun s i => s.unmapPage (pageAddr addr i)) s

/-- The loop of `do_mapping` over `guard_page_at`. -/
def guardPages (addr : Word) (pages : ℕ) : State :=
  (List.range pages).foldl (fun s i => s.unmapPage (pageAddr addr i)) s

/-- `mmap_read`. -/
def mmapRead (m : MMapping) (addr : Word) : Option State :=
  if addr < m.pageAddr ∨ addr > m.pageAddr + m.pages * BitVec.ofNat 32 pageSize then none
  else
    let pos := s.file.pos
    let pageaddr := addr &&& addressMask
    let s := (s.mapPageAt pageaddr).seek ((pageaddr - m.pageAddr).toNat + m.pageOffset)
    let l := s.file.ahead pageSize
    if l.length ≠ pageSize then none
    else some ({ s with mem := setBytes s.mem pageaddr l }.seek pos)

/-- An access to memory, after the page fault if there is one. -/
def touch (addr : Word) : Option State :=
  if s.mapped (pageOf addr) then some s
  else
    match s.regions.find? (·.covers addr) with
    | none => none
    | some m => s.mmapRead m addr

/-- A write of a byte. -/
def storeByte (addr : Word) (b : UInt8) : Option State :=
  (s.touch addr).map fun s => { s with mem := Function.update s.mem addr b }

/-- A write of bytes, one after the other. -/
def storeBytes (s : State) (addr : Word) : List UInt8 → Option State
  | [] => some s
  | b :: l => (s.storeByte addr b).bind fun s => storeBytes s (addr + 1) l

/-- A read of bytes, one after the other. -/
def loadBytes (s : State) (addr : Word) : ℕ → Option (List UInt8 × State)
  | 0 => some ([], s)
  | n + 1 =>
      (s.touch addr).bind fun s =>
        (loadBytes s (addr + 1) n).map fun (l, s') => (s.mem addr :: l, s')

/-- `fs_read` to an address of the process. -/
def fsRead (n : ℕ) (addr : Word) : Option State :=
  let l := s.file.ahead n
  (s.seek (s.file.pos + l.length)).storeBytes addr l

/-- `fs_write` from an address of the process. -/
def fsWrite (n : ℕ) (addr : Word) : Option State :=
  (s.loadBytes addr n).map fun (l, s) => { s with file := s.file.write l }

end State

/-! ## Mappings -/

namespace MMapping

variable (m : MMapping)

/-- The place of the tail in the file. -/
def postoffset : ℕ := m.pageOffset + m.pages.toNat * pageSize

/-- The address of the tail. -/
def postaddr : Word := m.pageAddr + m.pages * BitVec.ofNat 32 pageSize

end MMapping

/-- The fields that `mm2_mmap` computes. -/
def mmapping (ptr : Word) (offset : ℕ) (size : Word) : MMapping :=
  let pageAddr :=
    if ptr.toNat % pageSize ≠ 0 then (ptr + BitVec.ofNat 32 pageSize) &&& addressMask else ptr
  let pre := if ptr.toNat % pageSize ≠ 0 then pageAddr - ptr else 0
  let asize := size - pre
  let pages := asize / BitVec.ofNat 32 pageSize
  { addr := ptr, pageAddr := pageAddr, pages := pages, offset := offset, size := size, pre := pre
    post := asize - pages * BitVec.ofNat 32 pageSize, pageOffset := offset + pre.toNat }

namespace State

variable (s : State)

/-- `do_mapping`. -/
def doMapping (m : MMapping) : Option State :=
  let pos := s.file.pos
  if m.size.toNat ≤ pageSize then
    ((s.seek m.offset).fsRead m.size.toNat m.addr).map fun s => s.seek pos
  else
    (if m.pre ≠ 0 then (s.seek m.offset).fsRead m.pre.toNat m.addr else some s).bind fun s =>
      (if m.post ≠ 0 then (s.seek m.postoffset).fsRead m.post.toNat m.postaddr
        else some s).map fun s =>
          ((s.freePages m.pageAddr m.pages.toNat).guardPages m.pageAddr m.pages.toNat).seek pos

/-- `mm2_mmap`. -/
def mm2Mmap (ptr : Word) (offset : ℕ) (size : Word) : Option (MMapping × State) :=
  let m := mmapping ptr offset size
  (s.doMapping m).map fun s =>
    (m, if size.toNat > pageSize then { s with regions := s.regions ++ [m] } else s)

/-- One round of the loop of `flush_mapping`. -/
def flushPage (m : MMapping) (i : ℕ) : Option State :=
  let pageaddr := pageAddr m.pageAddr i
  if s.mapped (pageOf pageaddr) then
    ((s.seek (m.pageOffset + i * pageSize)).fsWrite pageSize pageaddr).map fun s =>
      (s.freePages pageaddr 1).guardPages pageaddr 1
  else some (s.guardPages pageaddr 1)

/-- `flush_mapping`. -/
def flushMapping (m : MMapping) : Option State :=
  let pos := s.file.pos
  if m.size.toNat ≤ pageSize then
    ((s.seek m.offset).fsWrite m.size.toNat m.addr).map fun s => s.seek pos
  else
    (if m.pre ≠ 0 then (s.seek m.offset).fsWrite m.pre.toNat m.addr else some s).bind fun s =>
      (if m.post ≠ 0 then (s.seek m.postoffset).fsWrite m.post.toNat m.postaddr
        else some s).bind fun s =>
          ((List.range m.pages.toNat).foldlM (fun (s : State) i => s.flushPage m i) s).map
            fun s => s.seek pos

end State

/-! ## Files as arrays -/

namespace File

variable {f : File} {l : List UInt8} {j : ℕ}

section

variable (h : f.pos + l.length ≤ f.bytes.length)
include h

lemma getElem?_write_of_mem (hj : f.pos ≤ j)
    (hlt : j < f.pos + l.length) : (f.write l).bytes[j]? = l[j - f.pos]? := by
  have htake : (f.bytes.take f.pos).length = f.pos := by
    rw [length_take]
    omega
  rw [write, append_assoc, getElem?_append_right (by omega), htake, getElem?_append_left (by omega)]

lemma getElem?_write_of_not_mem
    (hj : j < f.pos ∨ f.pos + l.length ≤ j) : (f.write l).bytes[j]? = f.bytes[j]? := by
  have htake : (f.bytes.take f.pos).length = f.pos := by
    rw [length_take]
    omega
  rw [write, append_assoc]
  rcases hj with hj | hj
  · rw [getElem?_append_left (by omega), getElem?_take_of_lt hj]
  · rw [getElem?_append_right (by omega), htake, getElem?_append_right (by omega), getElem?_drop]
    congr 1
    omega

lemma length_write : (f.write l).bytes.length = f.bytes.length := by
  simp only [write, length_append, length_take, length_drop]
  omega

end

lemma length_ahead {n : ℕ} (h : f.pos + n ≤ f.bytes.length) : (f.ahead n).length = n := by
  rw [ahead, length_take, length_drop]
  omega

end File

/-! ## Accesses -/

namespace State

variable {s s' : State} {m : MMapping} {a : Word}

/-- A page that `mmap_read` loads. -/
lemma mmapRead_eq (h : s.mmapRead m a = some s') :
    ∃ l, l = (s.file.seek ((frame a - m.pageAddr).toNat + m.pageOffset)).ahead pageSize ∧
      l.length = pageSize ∧
      s' = { s with
        mapped := update s.mapped (pageOf a) true
        mem := setBytes (fun x => if pageOf x = pageOf a then 0 else s.mem x) (frame a) l } := by
  unfold mmapRead at h
  split at h
  · simp at h
  · dsimp only at h
    split at h
    · simp at h
    · rename_i hlength
      refine ⟨_, rfl, not_not.mp hlength, ?_⟩
      rw [← Option.some.inj h]
      simp only [mapPageAt, seek, File.seek]
      rw [show pageOf (a &&& addressMask) = pageOf a from pageOf_frame a]
      rfl

lemma not_out_of_range (ha : m.covers a = true) :
    ¬ (a < m.pageAddr ∨ a > m.pageAddr + m.pages * BitVec.ofNat 32 pageSize) := by
  rw [MMapping.covers, Bool.and_eq_true, decide_eq_true_iff, decide_eq_true_iff, BitVec.le_def,
    gt_iff_lt, BitVec.lt_def] at ha
  rw [BitVec.lt_def, gt_iff_lt, BitVec.lt_def]
  omega

lemma exists_mmapRead (ha : m.covers a = true)
    (hfile : (frame a - m.pageAddr).toNat + m.pageOffset + pageSize ≤ s.file.bytes.length) :
    ∃ s', s.mmapRead m a = some s' := by
  have hrange := not_out_of_range ha
  have hlength : ¬ (((s.mapPageAt (frame a)).seek
      ((frame a - m.pageAddr).toNat + m.pageOffset)).file.ahead pageSize).length ≠ pageSize :=
    not_not.mpr (File.length_ahead hfile)
  exact ⟨_, by rw [mmapRead, if_neg hrange]; exact if_neg hlength⟩

/-- The bytes of the file stay, and what is mapped stays mapped. -/
structure Kept (s s' : State) : Prop where
  bytes_eq : s'.file.bytes = s.file.bytes
  regions_eq : s'.regions = s.regions
  mapped : ∀ p, s.mapped p = true → s'.mapped p = true

lemma Kept.refl (s : State) : Kept s s := ⟨rfl, rfl, fun _ h => h⟩

lemma Kept.trans {s'' : State} (h : Kept s s') (h' : Kept s' s'') : Kept s s'' where
  bytes_eq := h'.bytes_eq.trans h.bytes_eq
  regions_eq := h'.regions_eq.trans h.regions_eq
  mapped p hp := h'.mapped p (h.mapped p hp)

lemma kept_seek (s : State) (p : ℕ) : Kept s (s.seek p) := ⟨rfl, rfl, fun _ h => h⟩

/-- What page faults do: pages are mapped, and nothing that was mapped changes. -/
structure Touched (s s' : State) : Prop extends Kept s s' where
  pos_eq : s'.file.pos = s.file.pos
  mem_eq : ∀ x, s.mapped (pageOf x) = true → s'.mem x = s.mem x

lemma Touched.refl (s : State) : Touched s s := ⟨.refl s, rfl, fun _ _ => rfl⟩

lemma touched_mmapRead (h : s.mmapRead m a = some s') (ha : s.mapped (pageOf a) = false) :
    Touched s s' := by
  obtain ⟨l, -, hlength, rfl⟩ := mmapRead_eq h
  refine ⟨⟨rfl, rfl, fun p hp => ?_⟩, rfl, fun x hx => ?_⟩
  · rcases eq_or_ne p (pageOf a) with rfl | hne
    · exact update_self _ _ _
    · exact (update_of_ne hne _ _).trans hp
  · have hne : pageOf x ≠ pageOf a := by
      intro heq
      rw [heq, ha] at hx
      cases hx
    have hfar := le_toNat_sub_frame hne
    show l.getD (x - frame a).toNat _ = _
    rw [getD_eq_getElem?_getD, getElem?_eq_none (by omega), Option.getD_none]
    exact if_neg hne

lemma touched_touch (h : s.touch a = some s') : Touched s s' ∧ s'.mapped (pageOf a) = true := by
  unfold touch at h
  split at h
  · rename_i hmapped
    rw [← Option.some.inj h]
    exact ⟨.refl s, hmapped⟩
  · rename_i hmapped
    split at h
    · simp at h
    · refine ⟨touched_mmapRead h (Bool.eq_false_iff.mpr hmapped), ?_⟩
      obtain ⟨l, -, -, rfl⟩ := mmapRead_eq h
      exact update_self _ _ _

lemma touch_of_mapped (h : s.mapped (pageOf a) = true) : s.touch a = some s := if_pos h

lemma kept_storeByte {b : UInt8} (h : s.storeByte a b = some s') :
    Kept s s' ∧ s'.file.pos = s.file.pos ∧ s'.mapped (pageOf a) = true := by
  obtain ⟨s1, htouch, rfl⟩ := Option.map_eq_some_iff.mp h
  obtain ⟨htouched, hmapped⟩ := touched_touch htouch
  exact ⟨⟨htouched.bytes_eq, htouched.regions_eq, htouched.mapped⟩, htouched.pos_eq, hmapped⟩

lemma kept_storeBytes {l : List UInt8} (h : s.storeBytes a l = some s') :
    Kept s s' ∧ s'.file.pos = s.file.pos ∧
      ∀ i < l.length, s'.mapped (pageOf (a + BitVec.ofNat 32 i)) = true := by
  induction l generalizing s a with
  | nil =>
    rw [← Option.some.inj h]
    exact ⟨.refl s, rfl, fun i hi => absurd hi (Nat.not_lt_zero i)⟩
  | cons b l ih =>
    obtain ⟨s1, hbyte, hrest⟩ := Option.bind_eq_some_iff.mp h
    obtain ⟨hkept, hpos, hmapped⟩ := kept_storeByte hbyte
    obtain ⟨hkept', hpos', hmapped'⟩ := ih hrest
    refine ⟨hkept.trans hkept', hpos'.trans hpos, fun i hi => ?_⟩
    cases i with
    | zero =>
      rw [BitVec.add_zero]
      exact hkept'.mapped _ hmapped
    | succ i =>
      have hrest := hmapped' i (Nat.lt_of_succ_lt_succ hi)
      rwa [add_one_add_ofNat] at hrest

lemma kept_fsRead {n : ℕ} (h : s.fsRead n a = some s') :
    Kept s s' ∧ (s.file.pos + n ≤ s.file.bytes.length →
      ∀ i < n, s'.mapped (pageOf (a + BitVec.ofNat 32 i)) = true) := by
  obtain ⟨hkept, -, hmapped⟩ := kept_storeBytes h
  refine ⟨(kept_seek s _).trans hkept, fun hn i hi => hmapped i ?_⟩
  rwa [File.length_ahead hn]

/-- Reading pages that are mapped. -/
lemma loadBytes_of_mapped {n : ℕ} (h : ∀ i < n, s.mapped (pageOf (a + BitVec.ofNat 32 i)) = true) :
    s.loadBytes a n = some ((range n).map fun i => s.mem (a + BitVec.ofNat 32 i), s) := by
  induction n generalizing a with
  | zero => rfl
  | succ n ih =>
    have hhead : s.mapped (pageOf a) = true := by
      have hzero := h 0 (Nat.succ_pos n)
      rwa [BitVec.add_zero] at hzero
    have hrest := ih fun i hi => by
      rw [add_one_add_ofNat]
      exact h (i + 1) (Nat.succ_lt_succ hi)
    rw [loadBytes, touch_of_mapped hhead, Option.bind_some, hrest, Option.map_some,
      range_succ_eq_map, map_cons, map_map, BitVec.add_zero]
    simp only [add_one_add_ofNat, comp_def]

end State

/-! ## The parts of a mapping -/

namespace MMapping

/-- A mapping of more than a page: a head, whole pages and a tail, in this order. -/
structure Split (m : MMapping) : Prop where
  big : pageSize < m.size.toNat
  fits : m.addr.toNat + m.size.toNat ≤ 2 ^ 32
  pageAddr_eq : m.pageAddr.toNat = m.addr.toNat + m.pre.toNat
  aligned : m.pageAddr.toNat % pageSize = 0
  size_eq : m.pre.toNat + m.pages.toNat * pageSize + m.post.toNat = m.size.toNat
  pre_lt : m.pre.toNat < pageSize
  post_lt : m.post.toNat < pageSize
  pageOffset_eq : m.pageOffset = m.offset + m.pre.toNat

variable {m : MMapping} {a : Word}

lemma split_mmapping {ptr size : Word} {offset : ℕ} (hbig : pageSize < size.toNat)
    (hend : ptr.toNat + size.toNat ≤ 2 ^ 32) : (mmapping ptr offset size).Split := by
  have hpage : (BitVec.ofNat 32 pageSize).toNat = pageSize := rfl
  -- The head in terms of the address.
  obtain ⟨pageAddr, pre, hpageAddr, hpre, hsum, haligned, hlt⟩ : ∃ pageAddr pre : Word,
      (mmapping ptr offset size).pageAddr = pageAddr ∧ (mmapping ptr offset size).pre = pre ∧
      pageAddr.toNat = ptr.toNat + pre.toNat ∧ pageAddr.toNat % pageSize = 0 ∧
        pre.toNat < pageSize := by
    by_cases hmod : ptr.toNat % pageSize ≠ 0
    · have hframe : (frame (ptr + BitVec.ofNat 32 pageSize)).toNat =
          (ptr.toNat + pageSize) / pageSize * pageSize := by
        rw [frame_toNat, BitVec.toNat_add, hpage, Nat.mod_eq_of_lt (by omega)]
      have hle : ptr.toNat ≤ (frame (ptr + BitVec.ofNat 32 pageSize)).toNat := by
        rw [hframe]
        simp only [pageSize]
        omega
      refine ⟨frame (ptr + BitVec.ofNat 32 pageSize), frame (ptr + BitVec.ofNat 32 pageSize) - ptr,
        ?_, ?_, ?_, ?_, ?_⟩
      · simp only [mmapping, if_pos hmod]
        rfl
      · simp only [mmapping, if_pos hmod]
        rfl
      · rw [BitVec.toNat_sub_of_le hle]
        omega
      · rw [hframe]
        exact Nat.mul_mod_left _ _
      · rw [BitVec.toNat_sub_of_le hle, hframe]
        simp only [pageSize] at *
        omega
    · refine ⟨ptr, 0, ?_, ?_, rfl, not_not.mp hmod, by decide⟩
      · simp only [mmapping, if_neg hmod]
      · simp only [mmapping, if_neg hmod]
  set asize := size - pre with hasize
  have hasizeNat : asize.toNat = size.toNat - pre.toNat := by
    rw [hasize, BitVec.toNat_sub_of_le (BitVec.le_def.mpr (by omega))]
  have hpages : (mmapping ptr offset size).pages.toNat = asize.toNat / pageSize := by
    have heq : (mmapping ptr offset size).pages = asize / BitVec.ofNat 32 pageSize := by
      rw [hasize, ← hpre]
      rfl
    rw [heq, BitVec.toNat_udiv, hpage]
  have hproduct : ((mmapping ptr offset size).pages * BitVec.ofNat 32 pageSize).toNat =
      asize.toNat / pageSize * pageSize := by
    have hle := Nat.div_mul_le_self asize.toNat pageSize
    rw [BitVec.toNat_mul, hpage, hpages, Nat.mod_eq_of_lt (by omega)]
  have hpost : (mmapping ptr offset size).post.toNat = asize.toNat % pageSize := by
    have heq : (mmapping ptr offset size).post =
        asize - (mmapping ptr offset size).pages * BitVec.ofNat 32 pageSize := by
      rw [hasize, ← hpre]
      rfl
    have hle := Nat.div_mul_le_self asize.toNat pageSize
    rw [heq, BitVec.toNat_sub_of_le (BitVec.le_def.mpr (by rw [hproduct]; exact hle)), hproduct]
    have hdiv := Nat.div_add_mod' asize.toNat pageSize
    omega
  refine ⟨hbig, hend, ?_, ?_, ?_, ?_, ?_, rfl⟩
  · rw [hpageAddr, hpre]
    exact hsum
  · rw [hpageAddr]
    exact haligned
  · have hdiv := Nat.div_add_mod' asize.toNat pageSize
    rw [hpre, hpages, hpost]
    show _ = size.toNat
    omega
  · rw [hpre]
    exact hlt
  · rw [hpost]
    exact Nat.mod_lt _ (by decide)

/-- The address is on one of the whole pages. -/
def Whole (m : MMapping) (a : Word) : Prop :=
  m.pageAddr.toNat ≤ a.toNat ∧ a.toNat < m.pageAddr.toNat + m.pages.toNat * pageSize

/-- The address is one of the mapping. -/
def Has (m : MMapping) (a : Word) : Prop :=
  m.addr.toNat ≤ a.toNat ∧ a.toNat < m.addr.toNat + m.size.toNat

section

variable (h : m.Split)
include h

lemma Split.aligned_pageAddr : Aligned m.pageAddr := aligned_of_mod h.aligned

lemma Split.page_lt {i : ℕ} (hi : i < m.pages.toNat) : pageOf m.pageAddr + i < 2 ^ 20 := by
  have hfits := h.fits
  have hsize := h.size_eq
  have haddr := h.pageAddr_eq
  simp only [pageOf, pageSize] at *
  omega

lemma Split.pageOf_pageAddr {i : ℕ} (hi : i < m.pages.toNat) :
    pageOf (pageAddr m.pageAddr i) = pageOf m.pageAddr + i :=
  Memory.pageOf_pageAddr h.aligned_pageAddr (h.page_lt hi)

lemma Split.whole_iff : m.Whole a ↔
    pageOf m.pageAddr ≤ pageOf a ∧ pageOf a < pageOf m.pageAddr + m.pages.toNat := by
  have haligned := h.aligned
  simp only [Whole, pageOf, pageSize] at *
  omega

lemma Split.postaddr_toNat (hpost : m.post ≠ 0) :
    m.postaddr.toNat = m.addr.toNat + m.pre.toNat + m.pages.toNat * pageSize := by
  have hpos : 0 < m.post.toNat := Nat.pos_of_ne_zero fun h0 => hpost (BitVec.eq_of_toNat_eq h0)
  have hfits := h.fits
  have hsize := h.size_eq
  rw [postaddr, BitVec.toNat_add, BitVec.toNat_mul, h.pageAddr_eq]
  have hpage : (BitVec.ofNat 32 pageSize).toNat = pageSize := rfl
  rw [hpage, Nat.mod_eq_of_lt (by omega), Nat.mod_eq_of_lt (by omega)]

lemma Split.postoffset_eq : m.postoffset = m.offset + m.pre.toNat + m.pages.toNat * pageSize := by
  rw [postoffset, h.pageOffset_eq]

lemma Split.exists_page_iff :
    (∃ i < m.pages.toNat, pageOf a = pageOf (pageAddr m.pageAddr i)) ↔ m.Whole a := by
  rw [h.whole_iff]
  constructor
  · rintro ⟨i, hi, heq⟩
    rw [h.pageOf_pageAddr hi] at heq
    omega
  · rintro ⟨hge, hlt⟩
    refine ⟨pageOf a - pageOf m.pageAddr, by omega, ?_⟩
    rw [h.pageOf_pageAddr (by omega)]
    omega

/-- What is not on a whole page is in the head or in the tail. -/
lemma Split.head_or_tail (ha : m.Has a) (hw : ¬ m.Whole a) :
    (m.pre ≠ 0 ∧ a.toNat < m.addr.toNat + m.pre.toNat) ∨
      (m.post ≠ 0 ∧ m.pageAddr.toNat + m.pages.toNat * pageSize ≤ a.toNat) := by
  obtain ⟨hge, hlt⟩ := ha
  have hsize := h.size_eq
  have haddr := h.pageAddr_eq
  have hzero : (0 : Word).toNat = 0 := rfl
  by_cases hhead : a.toNat < m.pageAddr.toNat
  · refine .inl ⟨fun h0 => ?_, by omega⟩
    rw [h0] at haddr
    omega
  · have htail : m.pageAddr.toNat + m.pages.toNat * pageSize ≤ a.toNat :=
      Nat.le_of_not_lt fun hlt' => hw ⟨Nat.le_of_not_lt hhead, hlt'⟩
    refine .inr ⟨fun h0 => ?_, htail⟩
    rw [h0] at hsize
    omega

end

end MMapping

/-! ## Making a mapping -/

namespace State

variable {s s' : State} {m : MMapping} {a : Word}

/-- Pages are unmapped, and nothing else happens. -/
structure Dropped (s s' : State) (R : ℕ → Prop) : Prop where
  file_eq : s'.file = s.file
  mem_eq : s'.mem = s.mem
  regions_eq : s'.regions = s.regions
  mapped_iff : ∀ p, s'.mapped p = true ↔ s.mapped p = true ∧ ¬ R p

lemma dropped_freePages (s : State) (addr : Word) (n : ℕ) :
    Dropped s (s.freePages addr n) fun p => ∃ i < n, p = pageOf (pageAddr addr i) := by
  induction n with
  | zero => exact ⟨rfl, rfl, rfl, fun p => by simp [freePages]⟩
  | succ n ih =>
    have hsucc : s.freePages addr (n + 1) = (s.freePages addr n).unmapPage (pageAddr addr n) := by
      simp [freePages, range_succ]
    rw [hsucc]
    refine ⟨ih.file_eq, ih.mem_eq, ih.regions_eq, fun p => ?_⟩
    by_cases hp : p = pageOf (pageAddr addr n)
    · have hfalse : ((s.freePages addr n).unmapPage (pageAddr addr n)).mapped p = false := by
        rw [hp]
        exact update_self _ _ _
      rw [hfalse]
      refine ⟨fun h => Bool.noConfusion h, fun h => absurd ⟨n, Nat.lt_succ_self n, hp⟩ h.2⟩
    · have hsame : ((s.freePages addr n).unmapPage (pageAddr addr n)).mapped p =
          (s.freePages addr n).mapped p := update_of_ne hp _ _
      rw [hsame, ih.mapped_iff]
      refine and_congr_right fun _ => not_congr ⟨fun ⟨i, hi, h⟩ => ⟨i, by omega, h⟩, ?_⟩
      rintro ⟨i, hi, h⟩
      have hne : i ≠ n := by
        rintro rfl
        exact hp h
      exact ⟨i, by omega, h⟩

lemma guardPages_eq (s : State) (addr : Word) (n : ℕ) :
    s.guardPages addr n = s.freePages addr n := rfl

lemma dropped_freePages_guardPages (s : State) (addr : Word) (n : ℕ) :
    Dropped s ((s.freePages addr n).guardPages addr n)
      fun p => ∃ i < n, p = pageOf (pageAddr addr i) := by
  have h := dropped_freePages s addr n
  have h' := dropped_freePages (s.freePages addr n) addr n
  rw [guardPages_eq]
  refine ⟨h'.file_eq.trans h.file_eq, h'.mem_eq.trans h.mem_eq, h'.regions_eq.trans h.regions_eq,
    fun p => ?_⟩
  rw [h'.mapped_iff, h.mapped_iff]
  tauto

/-- Reading the head or the tail, if there is one. -/
lemma kept_readPart {o : ℕ} {n p : Word}
    (h : (if n ≠ 0 then (s.seek o).fsRead n.toNat p else some s) = some s')
    (ho : o + n.toNat ≤ s.file.bytes.length) : Kept s s' ∧
      ∀ x : Word, p.toNat ≤ x.toNat → x.toNat < p.toNat + n.toNat →
        s'.mapped (pageOf x) = true := by
  split at h
  · obtain ⟨hkept, hmapped⟩ := kept_fsRead h
    refine ⟨(kept_seek s o).trans hkept, fun x hx hlt => ?_⟩
    have hpage := hmapped ho (x.toNat - p.toNat) (by omega)
    rwa [add_ofNat_toNat_sub hx] at hpage
  · rename_i hn
    rw [not_not] at hn
    subst hn
    rw [← Option.some.inj h]
    refine ⟨.refl s, fun x hx hlt => ?_⟩
    have hzero : (0 : Word).toNat = 0 := rfl
    omega

/-- The file stays as it is, and what is not on a whole page is mapped. -/
lemma doMapping_mapped (hsplit : pageSize < m.size.toNat → m.Split)
    (hfile : m.offset + m.size.toNat ≤ s.file.bytes.length) (h : s.doMapping m = some s') :
    s'.file = s.file ∧ ∀ a, m.Has a → m.size.toNat ≤ pageSize ∨ ¬ m.Whole a →
      s'.mapped (pageOf a) = true := by
  unfold doMapping at h
  dsimp only at h
  split at h
  · obtain ⟨s1, hread, rfl⟩ := Option.map_eq_some_iff.mp h
    obtain ⟨hkept, hmapped⟩ := kept_fsRead hread
    refine ⟨?_, fun a ha _ => ?_⟩
    · rw [seek, File.seek, hkept.bytes_eq]
      rfl
    · obtain ⟨hge, hlt⟩ := ha
      have hpage := hmapped hfile (a.toNat - m.addr.toNat) (by omega)
      rwa [add_ofNat_toNat_sub hge] at hpage
  · rename_i hbig
    replace hsplit := hsplit (Nat.lt_of_not_le hbig)
    have hparts := hsplit.size_eq
    obtain ⟨s1, hpre, hrest⟩ := Option.bind_eq_some_iff.mp h
    obtain ⟨s2, hpost, rfl⟩ := Option.map_eq_some_iff.mp hrest
    -- reading an end maps its pages, and the second read keeps those of the first
    obtain ⟨hkept1, hmapped1⟩ := kept_readPart hpre (by omega)
    obtain ⟨hkept2, hmapped2⟩ := kept_readPart hpost (by
      rw [hkept1.bytes_eq, hsplit.postoffset_eq]
      omega)
    have hdropped := dropped_freePages_guardPages s2 m.pageAddr m.pages.toNat
    refine ⟨?_, fun a ha hwhole => ?_⟩
    · rw [seek, File.seek, hdropped.file_eq, hkept2.bytes_eq, hkept1.bytes_eq]
    · have hnot : ¬ m.Whole a := hwhole.resolve_left hbig
      refine (hdropped.mapped_iff _).mpr ⟨?_, ?_⟩
      · have hpart := hsplit.head_or_tail ha hnot
        obtain ⟨hge, hlt⟩ := ha
        rcases hpart with ⟨-, hhead⟩ | ⟨hne, htail⟩
        · exact hkept2.mapped _ (hmapped1 a hge hhead)
        · have hstart := hsplit.pageAddr_eq
          have hpostaddr := hsplit.postaddr_toNat hne
          exact hmapped2 a (by omega) (by omega)
      · exact fun hpage => hnot (hsplit.exists_page_iff.mp hpage)

/-! ## Flushing -/

/-- The file on the way of `flush_mapping`: the places in `D` have their new bytes. -/
structure Progress (V : ℕ → UInt8) (D : ℕ → Prop) (s s' : State) : Prop where
  done : ∀ j, D j → s'.file.bytes[j]? = some (V j)
  kept : ∀ j, ¬ D j → s'.file.bytes[j]? = s.file.bytes[j]?
  length_eq : s'.file.bytes.length = s.file.bytes.length
  mem_eq : s'.mem = s.mem

variable {V : ℕ → UInt8} {D : ℕ → Prop}

section

variable (h : Progress V D s s')
include h

lemma Progress.congr {E : ℕ → Prop} (hD : ∀ j, E j ↔ D j) : Progress V E s s' where
  __ := h
  done j hj := h.done j ((hD j).mp hj)
  kept j hj := h.kept j fun hd => hj ((hD j).mpr hd)

/-- A part of the memory is written to the file. -/
lemma Progress.fsWrite {o n : ℕ} (ho : o + n ≤ s.file.bytes.length)
    (hmapped : ∀ i < n, s'.mapped (pageOf (a + BitVec.ofNat 32 i)) = true)
    (hV : ∀ i < n, V (o + i) = s.mem (a + BitVec.ofNat 32 i)) :
    ∃ s'', (s'.seek o).fsWrite n a = some s'' ∧ s''.mapped = s'.mapped ∧
      Progress V (fun j => D j ∨ (o ≤ j ∧ j < o + n)) s s'' := by
  have hload := loadBytes_of_mapped (s := s'.seek o) hmapped
  set l := (range n).map fun i => (s'.seek o).mem (a + BitVec.ofNat 32 i) with hl
  refine ⟨{ s'.seek o with file := (s'.file.seek o).write l }, ?_, rfl, ?_⟩
  · rw [State.fsWrite, hload, Option.map_some]
    rfl
  have hlength : l.length = n := by simp [hl]
  have hfits : (s'.file.seek o).pos + l.length ≤ (s'.file.seek o).bytes.length := by
    show o + l.length ≤ s'.file.bytes.length
    rw [hlength, h.length_eq]
    exact ho
  refine ⟨fun j hj => ?_, fun j hj => ?_, ?_, h.mem_eq⟩
  · show ((s'.file.seek o).write l).bytes[j]? = some (V j)
    -- a place that is written now, or one that was done before
    by_cases hin : o ≤ j ∧ j < o + n
    · rw [File.getElem?_write_of_mem hfits hin.1 (by rw [hlength]; exact hin.2)]
      have hvalue := hV (j - o) (by omega)
      rw [Nat.add_sub_cancel' hin.1] at hvalue
      have hlt : j - o < n := by omega
      show l[j - o]? = _
      rw [hl, getElem?_map, List.getElem?_range hlt, Option.map_some, hvalue]
      show some (s'.mem _) = _
      rw [h.mem_eq]
    · rw [File.getElem?_write_of_not_mem hfits (by
        rw [hlength]
        show j < o ∨ o + n ≤ j
        omega)]
      exact h.done j (hj.resolve_right hin)
  · show ((s'.file.seek o).write l).bytes[j]? = _
    rw [File.getElem?_write_of_not_mem hfits (by
      rw [hlength]
      show j < o ∨ o + n ≤ j
      omega)]
    exact h.kept j fun hd => hj (.inl hd)
  · show ((s'.file.seek o).write l).bytes.length = _
    rw [File.length_write hfits]
    exact h.length_eq

lemma Progress.skip {R : ℕ → Prop}
    (hR : ∀ j, R j → s.file.bytes[j]? = some (V j)) : Progress V (fun j => D j ∨ R j) s s' where
  __ := h
  done j hj := by
    by_cases hd : D j
    · exact h.done j hd
    · rw [h.kept j hd]
      exact hR j (hj.resolve_left hd)
  kept j hj := h.kept j fun hd => hj (.inl hd)

lemma Progress.dropped {s'' : State} {R : ℕ → Prop}
    (hdropped : Dropped s' s'' R) : Progress V D s s'' := by
  refine ⟨fun j hj => ?_, fun j hj => ?_, ?_, ?_⟩
  · rw [hdropped.file_eq]
    exact h.done j hj
  · rw [hdropped.file_eq]
    exact h.kept j hj
  · rw [hdropped.file_eq]
    exact h.length_eq
  · rw [hdropped.mem_eq]
    exact h.mem_eq

/-- The head or the tail is written, if there is one. -/
lemma Progress.writePart {o : ℕ} {n p : Word} (ho : o + n.toNat ≤ s.file.bytes.length)
    (hmapped : n ≠ 0 → ∀ i < n.toNat, s'.mapped (pageOf (p + BitVec.ofNat 32 i)) = true)
    (hV : n ≠ 0 → ∀ i < n.toNat, V (o + i) = s.mem (p + BitVec.ofNat 32 i)) :
    ∃ s'', (if n ≠ 0 then (s'.seek o).fsWrite n.toNat p else some s') = some s'' ∧
      s''.mapped = s'.mapped ∧ Progress V (fun j => D j ∨ (o ≤ j ∧ j < o + n.toNat)) s s'' := by
  split_ifs with hn
  · exact h.fsWrite ho (hmapped hn) (hV hn)
  · refine ⟨s', rfl, rfl, h.congr fun j => ?_⟩
    rw [not_not] at hn
    have hzero : n.toNat = 0 := by rw [hn]; rfl
    rw [hzero]
    exact or_iff_left fun hj => by omega

end

end State

/-- What the process sees at an address of the mapping; a page that was not read counts as its bytes
in the file. -/
def MMapping.view (m : MMapping) (s : State) (a : Word) : UInt8 :=
  if s.mapped (pageOf a) then s.mem a
  else s.file.bytes.getD (m.offset + (a.toNat - m.addr.toNat)) 0

/-- The same by the place in the file. -/
def MMapping.viewAt (m : MMapping) (s : State) (j : ℕ) : UInt8 :=
  m.view s (m.addr + BitVec.ofNat 32 (j - m.offset))

namespace State

variable {s s' : State} {m : MMapping} {a : Word} {D : ℕ → Prop}

lemma viewAt_of_mapped {i : ℕ} (h : s.mapped (pageOf (m.addr + BitVec.ofNat 32 i)) = true) :
    m.viewAt s (m.offset + i) = s.mem (m.addr + BitVec.ofNat 32 i) := by
  rw [MMapping.viewAt, Nat.add_sub_cancel_left, MMapping.view, if_pos h]

lemma viewAt_of_not_mapped {i : ℕ} (hi : m.addr.toNat + i < 2 ^ 32)
    (hfile : m.offset + i < s.file.bytes.length)
    (h : s.mapped (pageOf (m.addr + BitVec.ofNat 32 i)) = false) :
    s.file.bytes[m.offset + i]? = some (m.viewAt s (m.offset + i)) := by
  rw [MMapping.viewAt, Nat.add_sub_cancel_left, MMapping.view, h, if_neg Bool.false_ne_true,
    toNat_add_ofNat hi, Nat.add_sub_cancel_left, getD_eq_getElem?_getD,
    getElem?_eq_getElem hfile, Option.getD_some]

lemma byte_addr (h : m.Split) (k i : ℕ) :
    pageAddr m.pageAddr k + BitVec.ofNat 32 i =
      m.addr + BitVec.ofNat 32 (m.pre.toNat + k * pageSize + i) := by
  have hstart : m.pageAddr = m.addr + BitVec.ofNat 32 m.pre.toNat := by
    rw [← add_ofNat_toNat_sub (a := m.addr) (x := m.pageAddr) (by rw [h.pageAddr_eq]; omega),
      h.pageAddr_eq, Nat.add_sub_cancel_left]
  rw [pageAddr, hstart, BitVec.add_assoc, BitVec.add_assoc, ← BitVec.ofNat_add, ← BitVec.ofNat_add,
    Nat.add_assoc]

/-- The loop over the pages. -/
lemma Progress.flushPages {s1 : State} (h : Progress (m.viewAt s) D s s1) (hsplit : m.Split)
    (hfile : m.offset + m.size.toNat ≤ s.file.bytes.length) (hmapped : s1.mapped = s.mapped)
    {k : ℕ} (hk : k ≤ m.pages.toNat) :
    ∃ s2, (range k).foldlM (fun (s : State) i => s.flushPage m i) s1 = some s2 ∧
      (∀ p, pageOf m.pageAddr + k ≤ p → s2.mapped p = s.mapped p) ∧
      Progress (m.viewAt s)
        (fun j => D j ∨ (m.pageOffset ≤ j ∧ j < m.pageOffset + k * pageSize)) s s2 := by
  induction k with
  | zero =>
    refine ⟨s1, rfl, fun p _ => congrFun hmapped p, h.congr fun j => or_iff_left fun hj => ?_⟩
    omega
  | succ k ih =>
    obtain ⟨s2, hrun, hlater, hprogress⟩ := ih (by omega)
    rw [range_succ, foldlM_append, hrun, Option.bind_eq_bind, Option.bind_some]
    simp only [foldlM_cons, foldlM_nil, Option.bind_eq_bind, Option.pure_def, Option.bind_fun_some]
    have haligned := aligned_pageAddr hsplit.aligned_pageAddr k
    have hpage := hsplit.pageOf_pageAddr (i := k) (by omega)
    have hsize := hsplit.size_eq
    have hoffset := hsplit.pageOffset_eq
    have hkle : (k + 1) * pageSize ≤ m.pages.toNat * pageSize := Nat.mul_le_mul_right _ hk
    have hksucc : (k + 1) * pageSize = k * pageSize + pageSize := Nat.succ_mul k pageSize
    have hsame : s2.mapped (pageOf (pageAddr m.pageAddr k)) =
        s.mapped (pageOf (pageAddr m.pageAddr k)) := hlater _ (by omega)
    -- A page by the places of its bytes, from the beginning of the mapping.
    have hbyte {i : ℕ} (hi : i < pageSize) : pageOf (m.addr + BitVec.ofNat 32
        (m.pre.toNat + k * pageSize + i)) = pageOf (pageAddr m.pageAddr k) := by
      rw [← byte_addr hsplit, haligned.pageOf_add_ofNat hi]
    have hD (j : ℕ) : (D j ∨ (m.pageOffset ≤ j ∧ j < m.pageOffset + (k + 1) * pageSize)) ↔
        (D j ∨ (m.pageOffset ≤ j ∧ j < m.pageOffset + k * pageSize)) ∨
          (m.pageOffset + k * pageSize ≤ j ∧ j < m.pageOffset + k * pageSize + pageSize) := by
      rw [or_assoc]
      exact or_congr_right ⟨fun hj => by omega, fun hj => by omega⟩
    have hother {p : ℕ} (hp : pageOf m.pageAddr + (k + 1) ≤ p) :
        ¬ ∃ i < 1, p = pageOf (pageAddr (pageAddr m.pageAddr k) i) := by
      rintro ⟨i, hi, rfl⟩
      rw [Nat.lt_one_iff.mp hi, pageAddr, Nat.zero_mul, BitVec.add_zero, hpage] at hp
      omega
    unfold flushPage
    dsimp only
    cases hpresent : s.mapped (pageOf (pageAddr m.pageAddr k)) with
    | true =>
      rw [hsame, hpresent, if_pos rfl]
      obtain ⟨s3, hwrite, hmapped3, hprogress3⟩ := hprogress.fsWrite
        (o := m.pageOffset + k * pageSize) (n := pageSize) (a := pageAddr m.pageAddr k) (by omega)
        (fun i hi => by rw [haligned.pageOf_add_ofNat hi, hsame, hpresent]) (fun i hi => by
          rw [byte_addr hsplit, hoffset, Nat.add_assoc, Nat.add_assoc, ← Nat.add_assoc m.pre.toNat]
          exact viewAt_of_mapped (by rw [hbyte hi, hpresent]))
      have hdropped := dropped_freePages_guardPages s3 (pageAddr m.pageAddr k) 1
      rw [hwrite, Option.map_some]
      refine ⟨_, rfl, fun p hp => ?_, (hprogress3.congr hD).dropped hdropped⟩
      rw [← hlater p (by omega), ← hmapped3, Bool.eq_iff_iff, hdropped.mapped_iff]
      exact and_iff_left (hother hp)
    | false =>
      rw [hsame, hpresent, if_neg Bool.false_ne_true, guardPages_eq]
      have hdropped := dropped_freePages s2 (pageAddr m.pageAddr k) 1
      refine ⟨_, rfl, fun p hp => ?_, ?_⟩
      · rw [← hlater p (by omega), Bool.eq_iff_iff, hdropped.mapped_iff]
        exact and_iff_left (hother hp)
      · refine ((hprogress.skip fun j hj => ?_).congr hD).dropped hdropped
        have hplace : j = m.offset + (m.pre.toNat + k * pageSize +
            (j - (m.pageOffset + k * pageSize))) := by omega
        have hfits := hsplit.fits
        rw [hplace]
        refine viewAt_of_not_mapped (by omega) (by omega) ?_
        rw [hbyte (by omega), hpresent]

/-- `flush_mapping` writes what the process sees, and only that. -/
lemma flushMapping_progress (hsplit : pageSize < m.size.toNat → m.Split)
    (hfile : m.offset + m.size.toNat ≤ s.file.bytes.length)
    (hmapped : ∀ a, m.Has a → m.size.toNat ≤ pageSize ∨ ¬ m.Whole a →
      s.mapped (pageOf a) = true) (hend : m.addr.toNat + m.size.toNat ≤ 2 ^ 32) :
    ∃ s', s.flushMapping m = some s' ∧ s'.file.pos = s.file.pos ∧
      Progress (m.viewAt s) (fun j => m.offset ≤ j ∧ j < m.offset + m.size.toNat) s s' := by
  have hstart : Progress (m.viewAt s) (fun _ => False) s s :=
    ⟨fun _ h => h.elim, fun _ _ => rfl, rfl, rfl⟩
  -- A part of the mapping that is mapped, by the distance from the beginning.
  have hpart {i : ℕ} (hi : i < m.size.toNat)
      (hnot : m.size.toNat ≤ pageSize ∨ ¬ m.Whole (m.addr + BitVec.ofNat 32 i)) :
      s.mapped (pageOf (m.addr + BitVec.ofNat 32 i)) = true := by
    refine hmapped _ ?_ hnot
    rw [MMapping.Has, toNat_add_ofNat (by omega)]
    omega
  unfold flushMapping
  by_cases hsmall : m.size.toNat ≤ pageSize
  · rw [if_pos hsmall]
    obtain ⟨s1, hwrite, -, hprogress⟩ := hstart.fsWrite hfile
      (fun i hi => hpart hi (.inl hsmall)) fun i hi => viewAt_of_mapped (hpart hi (.inl hsmall))
    rw [hwrite, Option.map_some]
    have hall := hprogress.congr fun j => ⟨.inr, fun hj => hj.resolve_left fun h => h⟩
    exact ⟨_, rfl, rfl, { hall with }⟩
  · rw [if_neg hsmall]
    replace hsplit := hsplit (Nat.lt_of_not_le hsmall)
    have hsize := hsplit.size_eq
    have haddr := hsplit.pageAddr_eq
    have hhead {i : ℕ} (hi : i < m.pre.toNat) :
        s.mapped (pageOf (m.addr + BitVec.ofNat 32 i)) = true := by
      refine hpart (by omega) (.inr fun hwhole => ?_)
      rw [MMapping.Whole, toNat_add_ofNat (by omega)] at hwhole
      omega
    have htail {i : ℕ} (hi : i < m.post.toNat) : s.mapped (pageOf (m.addr +
        BitVec.ofNat 32 (m.pre.toNat + m.pages.toNat * pageSize + i))) = true := by
      refine hpart (by omega) (.inr fun hwhole => ?_)
      rw [MMapping.Whole, toNat_add_ofNat (by omega)] at hwhole
      omega
    obtain ⟨s1, hpre, hmapped1, hprogress1⟩ := hstart.writePart
      (p := m.addr) (by omega) (fun _ i hi => hhead hi) fun _ i hi => viewAt_of_mapped (hhead hi)
    -- The tail from the beginning of the mapping.
    have hpostaddr (i : ℕ) : m.post ≠ 0 → m.postaddr + BitVec.ofNat 32 i =
        m.addr + BitVec.ofNat 32 (m.pre.toNat + m.pages.toNat * pageSize + i) := by
      intro hpost
      have hnat := hsplit.postaddr_toNat hpost
      rw [← add_ofNat_toNat_sub (a := m.addr) (x := m.postaddr) (by omega), hnat,
        BitVec.add_assoc, ← BitVec.ofNat_add]
      congr 2
      omega
    obtain ⟨s2, hpost, hmapped2, hprogress2⟩ := hprogress1.writePart (o := m.postoffset)
      (n := m.post) (p := m.postaddr) (by rw [hsplit.postoffset_eq]; omega)
      (fun hne i hi => by rw [hmapped1, hpostaddr i hne]; exact htail hi) fun hne i hi => by
        rw [hpostaddr i hne, hsplit.postoffset_eq, Nat.add_assoc, Nat.add_assoc, ← Nat.add_assoc
          m.pre.toNat]
        exact viewAt_of_mapped (htail hi)
    obtain ⟨s3, hloop, -, hprogress3⟩ := hprogress2.flushPages hsplit hfile
      (hmapped2.trans hmapped1) le_rfl
    rw [hpre, Option.bind_some, hpost, Option.bind_some, hloop, Option.map_some]
    have hoffset := hsplit.pageOffset_eq
    have hpostoffset := hsplit.postoffset_eq
    have hall := hprogress3.congr (E := fun j => m.offset ≤ j ∧ j < m.offset + m.size.toNat)
      fun j => by
        rw [false_or]
        omega
    exact ⟨_, rfl, rfl, { hall with }⟩

/-! ## Runs -/

/-- What a process does with the memory. -/
inductive Op where
  /-- A page fault. -/
  | pageIn (addr : Word)
  | write (addr : Word) (b : UInt8)

/-- A process that goes on from a state. -/
def process (s₁ : State) : System State Op where
  init s := s = s₁
  step s
    | .pageIn addr => s.touch addr
    | .write addr b => s.storeByte addr b

lemma kept_of_reachable {s1 : State} (h : (process s1).Reachable s) :
    Kept s1 s ∧ s.file.pos = s1.file.pos := by
  refine h.invariant (P := fun s => Kept s1 s ∧ s.file.pos = s1.file.pos) (fun s hs => ?_)
    fun s op s' hi _ hs => ?_
  · obtain rfl : s = s1 := hs
    exact ⟨.refl s, rfl⟩
  · cases op with
    | pageIn addr =>
      have htouched := (touched_touch hs).1
      exact ⟨hi.1.trans htouched.toKept, htouched.pos_eq.trans hi.2⟩
    | write addr b =>
      obtain ⟨hkept, hpos, -⟩ := kept_storeByte hs
      exact ⟨hi.1.trans hkept, hpos.trans hi.2⟩

/-- After a file is mapped at a range that does not wrap, and after any page faults and writes,
`flush_mapping` leaves in the file what the process sees, does not change another byte of the file,
and leaves the position as it was. -/
theorem flush_of_run {s₀ s₁ s₂ : State} {ptr size : Word} {offset : ℕ}
    (hend : ptr.toNat + size.toNat ≤ 2 ^ 32) (hfile : offset + size.toNat ≤ s₀.file.bytes.length)
    (hmap : s₀.mm2Mmap ptr offset size = some (m, s₁)) (hrun : (process s₁).Reachable s₂) :
    ∃ s₃, s₂.flushMapping m = some s₃ ∧
      (∀ i < size.toNat, s₃.file.bytes[offset + i]? =
        some (m.view s₂ (ptr + BitVec.ofNat 32 i))) ∧
      (∀ j, j < offset ∨ offset + size.toNat ≤ j →
        s₃.file.bytes[j]? = s₀.file.bytes[j]?) ∧ s₃.file.pos = s₀.file.pos := by
  obtain ⟨s, hdo, heq⟩ := Option.map_eq_some_iff.mp hmap
  obtain ⟨rfl, hs₁⟩ := Prod.mk.inj heq
  set m := mmapping ptr offset size
  have hsplit : pageSize < m.size.toNat → m.Split := fun hbig =>
    MMapping.split_mmapping hbig hend
  obtain ⟨hsame, hmapped⟩ := doMapping_mapped hsplit hfile hdo
  have hfile₁ : s₁.file = s₀.file := by
    rw [← hs₁, ← hsame]
    split <;> rfl
  have hmapped₁ : s₁.mapped = s.mapped := by
    rw [← hs₁]
    split <;> rfl
  -- faults and writes of the process change neither the file nor what is mapped already
  obtain ⟨hkept, hpos⟩ := kept_of_reachable hrun
  have hbytes : s₂.file.bytes = s₀.file.bytes := by rw [hkept.bytes_eq, hfile₁]
  obtain ⟨s₃, hflush, hpos₃, hprogress⟩ := flushMapping_progress hsplit
    (by rw [hbytes]; exact hfile)
    (fun a ha hnot => hkept.mapped _ (by rw [hmapped₁]; exact hmapped a ha hnot)) hend
  refine ⟨s₃, hflush, fun i hi => ?_, fun j hj => ?_, ?_⟩
  · have hdone := hprogress.done (offset + i) ⟨Nat.le_add_right _ _, Nat.add_lt_add_left hi _⟩
    rw [hdone, MMapping.viewAt]
    show some (m.view s₂ (ptr + BitVec.ofNat 32 (offset + i - offset))) = _
    rw [Nat.add_sub_cancel_left]
  · rw [← hbytes]
    refine hprogress.kept j fun hin => ?_
    have hin' : offset ≤ j ∧ j < offset + size.toNat := hin
    omega
  · rw [hpos₃, hpos, hfile₁]

/-- A file of two pages, and a process that has mapped nothing yet. -/
def twoPages : State where
  file := { bytes := List.replicate 8192 0, pos := 3 }
  mem _ := 0
  mapped _ := false
  regions := []

/-- A write to the second page of a mapping of both is in the file afterwards. -/
theorem flush_twoPages : ∃ m s₁ s₂ s₃,
    twoPages.mm2Mmap 0x40000000#32 0 0x2000#32 = some (m, s₁) ∧
      s₁.storeByte 0x40001001#32 7 = some s₂ ∧ s₂.flushMapping m = some s₃ ∧
        s₃.file.bytes[0x1001]? = some 7 ∧ s₃.file.pos = 3 := by
  obtain ⟨m, hm⟩ : ∃ m, m = mmapping 0x40000000#32 0 0x2000#32 := ⟨_, rfl⟩
  obtain ⟨s₁, hs₁⟩ : ∃ s₁ : State, s₁ = { twoPages with
    mapped := ((twoPages.freePages 0x40000000#32 2).guardPages 0x40000000#32 2).mapped
    regions := [m] } := ⟨_, rfl⟩
  have hmap : twoPages.mm2Mmap 0x40000000#32 0 0x2000#32 = some (m, s₁) := by
    rw [hs₁, hm]
    rfl
  have hlength : s₁.file.bytes.length = 8192 := by
    rw [hs₁]
    exact length_replicate
  have hcovers : m.covers 0x40001001#32 = true := by
    rw [hm]
    decide
  obtain ⟨s, hread⟩ := exists_mmapRead hcovers (by
    rw [hlength, hm]
    decide)
  -- the page is read from the file by the fault that the write causes
  have hlazy : s₁.mapped (pageOf 0x40001001#32) = false := by
    rw [hs₁]
    dsimp only
    decide
  have htouch : s₁.touch 0x40001001#32 = some s := by
    rw [← hread, touch, hlazy, if_neg Bool.false_ne_true, hs₁, find?_cons, hcovers]
  have hmapped := (touched_touch htouch).2
  have hwrite : s₁.storeByte 0x40001001#32 7 =
      some { s with mem := update s.mem 0x40001001#32 7 } := by
    rw [storeByte, htouch, Option.map_some]
  obtain ⟨s₃, hflush, hbytes, -, hpos⟩ := flush_of_run (by decide)
    (by rw [show twoPages.file.bytes.length = 8192 from length_replicate]; decide) hmap
    (.step (.init rfl) (a := .write 0x40001001#32 7) trivial hwrite)
  refine ⟨m, s₁, _, s₃, hmap, hwrite, hflush, ?_, hpos⟩
  have haddr : 0x40000000#32 + BitVec.ofNat 32 0x1001 = 0x40001001#32 := by decide
  rw [← Nat.zero_add 0x1001, hbytes 0x1001 (by decide), MMapping.view, haddr, if_pos hmapped]
  dsimp only
  rw [update_self]

end State

end Mmap
