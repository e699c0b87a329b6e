import Btos.Lib.Loop
import Btos.Memory.Physical

/-!
# The memory map of the boot loader

`mm2_physical_init`: the page array is made for the memory that the boot loader reports.

* `Multiboot.seen`: the entries that the two loops over the memory map look at. The end of the map
  is computed by adding its length in bytes to a pointer to entries, so that they go on far behind
  it.
* `mm2PhysicalInit`: the array, with an element for every page of the usable regions, of which the
  second loop fills in those that `pageAddrs` gives.
* `initSpec`: the array afterwards.

The array is behind the kernel and its modules, and the information of the boot loader is not there:
zeroing the array does not change what the second loop reads.
-/

open List Option

namespace Memory

/-- `memory_map_t`. -/
structure MapEntry where
  size : Word
  baseAddrLow : Word
  baseAddrHigh : Word
  lengthLow : Word
  lengthHigh : Word
  type : Word
  deriving DecidableEq, Repr

/-- `sizeof(memory_map_t)`. -/
def sizeofMapEntry : Word := 24#32

/-- The size of a page, as a word. -/
def pageWord : Word := 0x1000#32

/-- `1024 * 1024`. -/
def lowMemory : Word := 0x100000#32

/-- The fields of `multiboot_info_t` that are used, and the memory that they refer to. -/
structure Multiboot where
  mem : Word → BitVec 8
  modsCount : Word
  modsAddr : Word
  mmapLength : Word
  mmapAddr : Word

namespace Multiboot

variable (mbt : Multiboot)

/-- The 32-bit word at an address. -/
def word (a : Word) : Word := mbt.mem (a + 3) ++ mbt.mem (a + 2) ++ mbt.mem (a + 1) ++ mbt.mem a

/-- `mod->mod_end` of a module. -/
def modEnd (i : ℕ) : Word := mbt.word (mbt.modsAddr + BitVec.ofNat 32 (16 * i) + 4)

/-- `end_of_kernel` after the loop over the modules; `kernelEnd` is `&_end`. -/
def endOfModules (kernelEnd : Word) : Word :=
  (List.range mbt.modsCount.toNat).foldl
    (fun e i => if mbt.modEnd i > e then mbt.modEnd i else e) kernelEnd

/-- The entry of the memory map at an address. -/
def entryAt (p : Word) : MapEntry where
  size := mbt.word p
  baseAddrLow := mbt.word (p + 4)
  baseAddrHigh := mbt.word (p + 8)
  lengthLow := mbt.word (p + 12)
  lengthHigh := mbt.word (p + 16)
  type := mbt.word (p + 20)

/-- The loops over the memory map from `p` on: the entries, with their addresses. `none` means that
there are more than `n`. -/
def walk (last : Word) : ℕ → Word → Option (List (Word × MapEntry))
  | 0, _ => none
  | n + 1, p =>
      if p < last then
        (walk last n (p + (mbt.entryAt p).size + 4)).map fun es => (p, mbt.entryAt p) :: es
      else some []

/-- The entries that the loops look at. -/
def seen (n : ℕ) : Option (List (Word × MapEntry)) :=
  -- `(memory_map_t*)mmap_addr + mmap_length`
  mbt.walk (mbt.mmapAddr + sizeofMapEntry * mbt.mmapLength) n mbt.mmapAddr

/-- An entry at this address is one of the map, which ends after `mmap_length` bytes. -/
def InMap (p : Word) : Prop := p.toNat < mbt.mmapAddr.toNat + mbt.mmapLength.toNat

instance (p : Word) : Decidable (mbt.InMap p) := inferInstanceAs (Decidable (_ < _))

end Multiboot

/-! ## Regions -/

namespace MapEntry

variable (e : MapEntry)

/-- The tests of both loops: a usable region, unless it is the low memory. -/
def counts : Bool :=
  e.type = 1 && 0 < e.lengthLow && !(e.baseAddrLow < lowMemory && e.lengthLow < lowMemory)

/-- What a region adds to `total_pages`. -/
def pageCount : Word := if e.counts then e.lengthLow / pageWord else 0

/-- The values of `page_addr` in the loop over the pages of a region, in at most `n` rounds. The
address is compared with the length of the region, and it may wrap. -/
def addrsFrom : ℕ → Word → List Word
  | 0, _ => []
  | n + 1, pageAddr =>
      if pageAddr + pageWord < e.lengthLow then pageAddr :: addrsFrom n (pageAddr + pageWord)
      else []

/-- The addresses of the pages that are accounted for an entry. -/
def pageAddrs (n : ℕ) (e : MapEntry) : List Word :=
  if e.counts then (e.addrsFrom n e.baseAddrLow).map frame else []

end MapEntry

/-- The addresses of the pages that are accounted for all entries. -/
def accountedAddrs (n : ℕ) (es : List MapEntry) : List Word := es.flatMap (MapEntry.pageAddrs n)

/-- `total_pages`. -/
def countPages (es : List MapEntry) : Word := es.foldl (fun t e => t + e.pageCount) 0

/-! ## Filling in the array -/

/-- `physical_page::address(a)`. -/
def PhysPage.setAddress (pg : PhysPage) (a : Word) : PhysPage :=
  ⟨(pg.value &&& ~~~addressMask) ||| a⟩

/-- The page array while it is filled in. -/
structure Filling where
  pages : List PhysPage
  /-- `current_page`. -/
  current : ℕ

namespace Filling

/-- The loop over the pages of a region. `none` means that it writes behind the array, or that it
has not ended after `n` rounds. -/
def fillRegion (lengthLow : Word) : ℕ → Word → Filling → Option Filling
  | 0, _, _ => none
  | n + 1, pageAddr, f =>
      if pageAddr + pageWord < lengthLow then
        if f.current < f.pages.length then
          fillRegion lengthLow n (pageAddr + pageWord)
            { pages := f.pages.modify f.current fun pg => (pg.setAddress pageAddr).setStatus .free
              current := f.current + 1 }
        else none
      else some f

/-- The second loop over the memory map. A region for which the loop over its pages does not end
within so many rounds runs behind the array. -/
def fill (f : Filling) (es : List MapEntry) : Option Filling :=
  es.foldlM (fun f e =>
    if e.counts then fillRegion e.lengthLow (f.pages.length + 1) e.baseAddrLow f else some f) f

end Filling

/-- `init_account`. -/
def initAccount (endOfKernel : Word) (pages : List PhysPage) : List PhysPage :=
  pages.map fun pg => if pg.address < endOfKernel then pg.setStatus .inUse else pg

/-- What `mm2_physical_init` leaves. -/
structure Booted where
  phys : Physical
  endOfKernel : Word
  /-- The number of elements of the array that have been filled in. -/
  accounted : ℕ
  deriving DecidableEq, Repr

/-- `mm2_physical_init`. `none` means that it does not return, or that it writes where the array
is not: the array has no room in the address space or is too short for the pages. -/
def mm2PhysicalInit (n : ℕ) (kernelEnd : Word) (mbt : Multiboot) : Option Booted :=
  (mbt.seen n).bind fun seen =>
    let es := seen.map Prod.snd
    let total := countPages es
    let start := mbt.endOfModules kernelEnd
    if start.toNat + 4 * total.toNat < 2 ^ 32 then
      let endOfKernel := start + 4 * total
      (Filling.fill ⟨List.replicate total.toNat ⟨0⟩, 0⟩ es).map fun f =>
        { phys :=
            { pages := initAccount endOfKernel f.pages
              ioPages := []
              lastidx := 0
              freePages := total }
          endOfKernel := endOfKernel
          accounted := f.current }
    else none

/-! ## The array afterwards -/

/-- The array of which the first elements are filled in, with these addresses. -/
def Filling.of (done : List Word) (m : ℕ) : Filling where
  pages := done.map PhysPage.mk ++ List.replicate m ⟨0⟩
  current := done.length

lemma PhysPage.setStatus_setAddress (pg : PhysPage) (a : Word) :
    (pg.setAddress a).setStatus .free = ⟨frame a⟩ := by
  have hmask : ~~~addressMask &&& addressMask = 0 := by decide
  simp only [setStatus, setAddress, PageStatus.code, BitVec.and_or_distrib_right, BitVec.and_assoc,
    hmask, frame]
  simp

lemma modify_length_append {α : Type*} (l : List α) (a : α) (r : List α) (f : α → α) :
    (l ++ a :: r).modify l.length f = l ++ f a :: r := by
  induction l with
  | nil => rfl
  | cons b l ih => simp [ih]

namespace Filling

variable {e : MapEntry} {done : List Word} {m : ℕ} {f : Filling}

/-- The loop over the pages of a region fills in the next elements. -/
lemma fillRegion_of {n : ℕ} {pageAddr : Word}
    (h : fillRegion e.lengthLow n pageAddr (of done m) = some f) :
    ∃ m', m = ((e.addrsFrom n pageAddr).map frame).length + m' ∧
      f = of (done ++ (e.addrsFrom n pageAddr).map frame) m' := by
  induction n generalizing pageAddr done m with
  | zero => cases h
  | succ n ih =>
    rw [fillRegion] at h
    rw [MapEntry.addrsFrom]
    split at h
    · rename_i hlt
      rw [if_pos hlt]
      rw [ite_none_right_eq_some] at h
      obtain ⟨hroom, h⟩ := h
      obtain ⟨k, rfl⟩ : ∃ k, m = k + 1 := by
        refine ⟨m - 1, ?_⟩
        simp only [of, length_append, length_map, length_replicate] at hroom
        omega
      -- the element that is written is the first of the zeroed ones
      have hwrite : (⟨(of done (k + 1)).pages.modify (of done (k + 1)).current fun pg =>
          (pg.setAddress pageAddr).setStatus .free, (of done (k + 1)).current + 1⟩ : Filling) =
          of (done ++ [frame pageAddr]) k := by
        have hmodify := modify_length_append (done.map PhysPage.mk) ⟨0⟩
          (replicate k ⟨0⟩) fun pg => (pg.setAddress pageAddr).setStatus .free
        simp only [length_map, PhysPage.setStatus_setAddress] at hmodify
        simp only [of, replicate_succ, PhysPage.setStatus_setAddress]
        rw [hmodify]
        simp
      rw [hwrite] at h
      obtain ⟨m', hm', rfl⟩ := ih h
      refine ⟨m', ?_, ?_⟩
      · rw [map_cons, length_cons]
        omega
      · rw [map_cons, append_assoc, singleton_append]
    · rename_i hge
      rw [if_neg hge]
      cases h
      exact ⟨m, (Nat.zero_add m).symm, by rw [map_nil, append_nil]⟩

/-- The second loop fills in the pages of all entries, one behind the other. -/
lemma fill_of {total : ℕ} {es : List MapEntry} (htotal : done.length + m = total)
    (h : (of done m).fill es = some f) :
    ∃ m', m = (accountedAddrs (total + 1) es).length + m' ∧
      f = of (done ++ accountedAddrs (total + 1) es) m' := by
  induction es generalizing done m with
  | nil =>
    cases h
    exact ⟨m, (Nat.zero_add m).symm, by simp [accountedAddrs]⟩
  | cons e es ih =>
    rw [fill, foldlM_cons] at h
    obtain ⟨f1, hf1, h⟩ := bind_eq_some_iff.mp h
    have hlen : (of done m).pages.length = total := by simp [of, htotal]
    rw [hlen] at hf1
    -- the pages of the first entry, then those of the others
    obtain ⟨m1, hm1, rfl⟩ : ∃ m1, m = (accountedAddrs (total + 1) [e]).length + m1 ∧
        f1 = of (done ++ accountedAddrs (total + 1) [e]) m1 := by
      simp only [accountedAddrs, flatMap_singleton, MapEntry.pageAddrs]
      split at hf1
      · rename_i hcounts
        rw [if_pos hcounts]
        exact fillRegion_of hf1
      · rename_i hcounts
        rw [if_neg hcounts]
        cases hf1
        exact ⟨m, (Nat.zero_add m).symm, by rw [append_nil]⟩
    obtain ⟨m', hm', rfl⟩ := ih (by rw [length_append]; omega) h
    have hcons : accountedAddrs (total + 1) (e :: es) =
        accountedAddrs (total + 1) [e] ++ accountedAddrs (total + 1) es := by
      simp [accountedAddrs]
    rw [hcons]
    refine ⟨m', ?_, ?_⟩
    · rw [length_append]
      omega
    · rw [append_assoc]

end Filling

/-- What `mm2_physical_init` makes of the entries it sees. -/
structure InitSpec (kernelEnd : Word) (mbt : Multiboot) (es : List MapEntry) (b : Booted) :
    Prop where
  /-- The addresses fit into the array, which has an element for each page that was counted. -/
  length_le : (accountedAddrs ((countPages es).toNat + 1) es).length ≤ (countPages es).toNat
  fits : (mbt.endOfModules kernelEnd).toNat + 4 * (countPages es).toNat < 2 ^ 32
  endOfKernel_eq : b.endOfKernel = mbt.endOfModules kernelEnd + 4 * countPages es
  accounted_eq : b.accounted = (accountedAddrs ((countPages es).toNat + 1) es).length
  pages_eq : b.phys.pages = initAccount b.endOfKernel
    ((accountedAddrs ((countPages es).toNat + 1) es).map PhysPage.mk ++
      List.replicate ((countPages es).toNat - b.accounted) ⟨0⟩)
  ioPages_eq : b.phys.ioPages = []
  lastidx_eq : b.phys.lastidx = 0
  freePages_eq : b.phys.freePages = countPages es

lemma initSpec {n : ℕ} {kernelEnd : Word} {mbt : Multiboot} {b : Booted}
    (h : mm2PhysicalInit n kernelEnd mbt = some b) :
    ∃ seen, mbt.seen n = some seen ∧ InitSpec kernelEnd mbt (seen.map Prod.snd) b := by
  obtain ⟨seen, hseen, h⟩ := bind_eq_some_iff.mp h
  refine ⟨seen, hseen, ?_⟩
  dsimp only at h
  rw [ite_none_right_eq_some] at h
  obtain ⟨hfits, h⟩ := h
  obtain ⟨f, hf, rfl⟩ := map_eq_some_iff.mp h
  -- the array starts out with nothing filled in
  have hstart : (Filling.of [] (countPages (seen.map Prod.snd)).toNat).fill
      (seen.map Prod.snd) = some f := hf
  obtain ⟨m', hm', rfl⟩ := Filling.fill_of (Nat.zero_add _) hstart
  refine ⟨by omega, hfits, rfl, rfl, ?_, rfl, rfl, rfl⟩
  have hrest : (countPages (seen.map Prod.snd)).toNat -
      (accountedAddrs ((countPages (seen.map Prod.snd)).toNat + 1) (seen.map Prod.snd)).length =
        m' := by
    omega
  simp only [Filling.of, nil_append, hrest]

lemma aligned_of_mem_accountedAddrs {n : ℕ} {es : List MapEntry} {a : Word}
    (h : a ∈ accountedAddrs n es) : Aligned a := by
  obtain ⟨e, -, ha⟩ := mem_flatMap.mp h
  unfold MapEntry.pageAddrs at ha
  split at ha
  · obtain ⟨a', -, rfl⟩ := mem_map.mp ha
    exact aligned_frame a'
  · cases ha

lemma initAccount_map_address (endOfKernel : Word) (pages : List PhysPage) :
    (initAccount endOfKernel pages).map PhysPage.address = pages.map PhysPage.address := by
  rw [initAccount, List.map_map]
  apply map_congr_left
  intro pg _
  simp only [Function.comp_apply]
  split <;> simp

namespace InitSpec

variable {kernelEnd : Word} {mbt : Multiboot} {es : List MapEntry} {b : Booted} {i : ℕ}

section

variable (h : InitSpec kernelEnd mbt es b)
include h

lemma map_address :
    b.phys.pages.map PhysPage.address = accountedAddrs ((countPages es).toNat + 1) es ++
      replicate ((countPages es).toNat - b.accounted) 0 := by
  rw [h.pages_eq, initAccount_map_address, map_append, List.map_map, map_replicate]
  congr 1
  calc (accountedAddrs ((countPages es).toNat + 1) es).map (PhysPage.address ∘ PhysPage.mk)
      = (accountedAddrs ((countPages es).toNat + 1) es).map id :=
        map_congr_left fun a ha => aligned_of_mem_accountedAddrs ha
    _ = accountedAddrs ((countPages es).toNat + 1) es := map_id _

lemma length_pages : b.phys.pages.length = (countPages es).toNat := by
  have hlen := congrArg length h.map_address
  have hle := h.length_le
  have hacc := h.accounted_eq
  rw [length_map, length_append, length_replicate] at hlen
  omega

lemma accounted_le : b.accounted ≤ b.phys.pages.length := by
  rw [h.length_pages, h.accounted_eq]
  exact h.length_le

lemma address_of_lt (hi : i < b.accounted) :
    (accountedAddrs ((countPages es).toNat + 1) es)[i]? = some (b.phys.address (.ram i)) := by
  have hi' : i < b.phys.pages.length := hi.trans_le h.accounted_le
  have hget := congrArg (fun l => l[i]?) h.map_address
  simp only [getElem?_map] at hget
  rw [getElem?_append_left (h.accounted_eq ▸ hi)] at hget
  rw [← hget, Physical.address, Physical.page, getElem?_eq_getElem hi']
  rfl

lemma address_of_le (hi : b.accounted ≤ i) : b.phys.address (.ram i) = 0 := by
  have hget := congrArg (fun l => l[i]?) h.map_address
  simp only [getElem?_map] at hget
  rw [getElem?_append_right (h.accounted_eq ▸ hi), getElem?_replicate] at hget
  rw [Physical.address, Physical.page, hget]
  split <;> rfl

/-- The pages below the end of the kernel are in use, and the others are free. -/
lemma hasStatus {pg : PhysPage} (hpg : b.phys.pages[i]? = some pg) :
    pg.hasStatus .inUse = decide (pg.address < b.endOfKernel) ∧
      pg.hasStatus .free = !decide (pg.address < b.endOfKernel) := by
  rw [h.pages_eq, initAccount, getElem?_map] at hpg
  obtain ⟨pg0, hpg0, rfl⟩ := map_eq_some_iff.mp hpg
  -- before `init_account` every element was free
  have hfree : pg0.value &&& ~~~addressMask = 0 := by
    rcases mem_append.mp (mem_of_getElem? hpg0) with hmem | hmem
    · obtain ⟨a, ha, rfl⟩ := mem_map.mp hmem
      have halign : a &&& addressMask = a := aligned_of_mem_accountedAddrs ha
      have hmask : addressMask &&& ~~~addressMask = 0 := by decide
      show a &&& ~~~addressMask = 0
      rw [← halign, BitVec.and_assoc, hmask]
      exact BitVec.and_zero
    · rw [eq_of_mem_replicate hmem]
      exact BitVec.zero_and
  split
  · rename_i hlt
    simp [PhysPage.hasStatus_setStatus, hlt]
  · rename_i hge
    simp [PhysPage.hasStatus, hfree, PageStatus.code, hge]

end

end InitSpec

/-! ## Concrete maps -/

/-- A usable region. -/
def MapEntry.usable (baseHigh base length : Word) : MapEntry := ⟨20, base, baseHigh, length, 0, 1⟩

/-- A memory map at `0x8000`, on a machine without modules. The word behind the map is so large
that the loops end there. -/
def Multiboot.ofEntries (es : List MapEntry) : Multiboot where
  mem a :=
    let words := (es.flatMap fun e =>
      [e.size, e.baseAddrLow, e.baseAddrHigh, e.lengthLow, e.lengthHigh, e.type]) ++ [0x10000#32]
    let offset := (a - 0x8000#32).toNat
    (words.getD (offset / 4) 0).extractLsb' (8 * (offset % 4)) 8
  modsCount := 0
  modsAddr := 0
  mmapLength := BitVec.ofNat 32 (24 * es.length)
  mmapAddr := 0x8000#32

end Memory
