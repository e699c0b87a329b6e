import Mathlib.Data.BitVec
import Mathlib.Tactic

/-!
# Physical pages

The words of the memory manager and the physical page array of `physical.cpp`.

* `Physical`: the array `physical_pages`, with the status of a page in the low bits of its
  address, and the pages of devices.
* `Physical.alloc`, `Physical.freeAddr`: `physical_alloc` and `physical_free`, with what they do
  to the set of free frames in `alloc_spec` and `freeAddr_freed`.
-/

open List Option BitVec

namespace Memory

/-- A `uint32_t`, an address or an entry. -/
abbrev Word := BitVec 32

/-- `MM2_Page_Size`. -/
def pageSize : ℕ := 4096

/-- `MM2_Address_Mask`. -/
def addressMask : Word := 0xFFFFF000#32

/-- `MM2_PageFlags::Present` and `MM2_TableFlags::Present`. -/
def present : Word := 0x1#32

/-- `MM2_PageFlags::Writable` and `MM2_TableFlags::Writable`. -/
def writable : Word := 0x2#32

/-- `MM2_PageFlags::Usermode` and `MM2_TableFlags::Usermode`. -/
def usermode : Word := 0x4#32

/-- `MM2_PageFlags::Do_Not_Use`. -/
def doNotUse : Word := 0x200#32

/-- `MM2_PageFlags::Guard_Page`, which is `Do_Not_Use | Do_Not_Swap`. -/
def guardPage : Word := 0xA00#32

/-- The frame an entry refers to. -/
def frame (e : Word) : Word := e &&& addressMask

/-- `entry & Present`. -/
def isPresent (e : Word) : Bool := e &&& present ≠ 0

/-- The address of a page, with no bits below. -/
def Aligned (a : Word) : Prop := a &&& addressMask = a

/-- Flags, all of them below the address. -/
structure PageFlags where
  bits : Word
  low : bits &&& addressMask = 0
  deriving DecidableEq

/-! ## Entries -/

section Entries

variable {a e f : Word}

@[simp]
lemma frame_zero : frame 0 = 0 := by decide

@[simp]
lemma isPresent_zero : isPresent 0 = false := by decide

lemma aligned_frame (e : Word) : Aligned (frame e) := by
  rw [Aligned, frame, BitVec.and_assoc, BitVec.and_self]

lemma frame_or (ha : Aligned a) (hf : f &&& addressMask = 0) : frame (a ||| f) = a := by
  rw [frame, BitVec.and_or_distrib_right, hf, ha]
  exact or_zero

lemma isPresent_or (ha : Aligned a) : isPresent (a ||| f) = isPresent f := by
  have hzero : a &&& present = 0 := by
    have hbits : addressMask &&& present = 0 := by decide
    rw [← ha, BitVec.and_assoc, hbits]
    exact and_zero
  rw [isPresent, BitVec.and_or_distrib_right, hzero, isPresent]
  exact congrArg (fun w : Word => decide (w ≠ 0)) zero_or

lemma isPresent_guard (e : Word) : isPresent (e ||| guardPage) = isPresent e := by
  have hbits : guardPage &&& present = 0 := by decide
  rw [isPresent, BitVec.and_or_distrib_right, hbits]
  exact congrArg (fun w : Word => decide (w ≠ 0)) or_zero

lemma isPresent_guarded (e : Word) :
    isPresent ((if isPresent e then 0 else e) ||| guardPage) = false := by
  rw [isPresent_guard]
  split
  · exact isPresent_zero
  · exact Bool.eq_false_iff.mpr ‹_›

end Entries

/-! ## The page array -/

/-- `PageStatus`. -/
inductive PageStatus where
  | free
  | inUse
  | mmio
  deriving DecidableEq, Repr

/-- The number of a status. -/
def PageStatus.code : PageStatus → Word
  | .free => 0
  | .inUse => 1
  | .mmio => 2

/-- `physical_page`: an address, and the status in the bits below it. -/
structure PhysPage where
  value : Word
  deriving DecidableEq, Repr

namespace PhysPage

/-- `physical_page::address()`. -/
def address (pg : PhysPage) : Word := pg.value &&& addressMask

/-- `physical_page::status() == s`. -/
def hasStatus (pg : PhysPage) (s : PageStatus) : Bool := pg.value &&& ~~~addressMask = s.code

/-- `physical_page::status(s)`. -/
def setStatus (pg : PhysPage) (s : PageStatus) : PhysPage :=
  ⟨(pg.value &&& addressMask) ||| s.code⟩

lemma aligned_address (pg : PhysPage) : Aligned pg.address := aligned_frame pg.value

@[simp]
lemma address_setStatus (pg : PhysPage) (s : PageStatus) :
    (pg.setStatus s).address = pg.address := by
  have hcode : s.code &&& addressMask = 0 := by cases s <;> decide
  exact frame_or (aligned_frame pg.value) hcode

lemma hasStatus_setStatus (pg : PhysPage) (s s' : PageStatus) :
    (pg.setStatus s).hasStatus s' = decide (s = s') := by
  have hmask : pg.value &&& addressMask &&& ~~~addressMask = 0 := by
    have hnone : addressMask &&& ~~~addressMask = 0 := by decide
    rw [BitVec.and_assoc, hnone]
    exact and_zero
  rw [hasStatus, setStatus, BitVec.and_or_distrib_right, hmask]
  cases s <;> cases s' <;> decide

end PhysPage

/-- A `physical_page*`: an element of the page array or of the list of device pages. -/
inductive PageRef where
  | ram (i : ℕ)
  | io (i : ℕ)
  deriving DecidableEq, Repr

/-- The state of the physical memory manager. -/
structure Physical where
  /-- `physical_pages`; `total_pages` is its length. -/
  pages : List PhysPage
  /-- `io_pages`. -/
  ioPages : List PhysPage
  /-- The static variable `lastidx` of `physical_alloc`. -/
  lastidx : ℕ
  /-- `free_pages`. -/
  freePages : Word
  deriving DecidableEq, Repr

namespace Physical

variable (ph : Physical)

/-- The page behind a pointer. -/
def page : PageRef → Option PhysPage
  | .ram i => ph.pages[i]?
  | .io i => ph.ioPages[i]?

/-- `page->address()`. -/
def address (r : PageRef) : Word := ((ph.page r).map PhysPage.address).getD 0

/-- A write to a page of the array. -/
def setStatus (i : ℕ) (s : PageStatus) : Physical :=
  { ph with pages := ph.pages.modify i fun pg => pg.setStatus s }

/-- `idx - 1` for a `size_t`. -/
def decIdx (idx : ℕ) : ℕ := (idx + (2 ^ 32 - 1)) % 2 ^ 32

/-- The loop of `physical_alloc`, from `idx` down, over the end of the array, to `lastidx`. A
page that the loop finds at all is found within two rounds more than there are pages. -/
def allocLoop (maxAddr : Word) : ℕ → ℕ → Option ℕ
  | 0, _ => none
  | n + 1, idx =>
      if idx = ph.lastidx then none
      else
        let idx := if idx > ph.pages.length then ph.pages.length - 1 else idx
        match ph.pages[idx]? with
        | none => none
        | some pg =>
            if pg.hasStatus .free && pg.address < maxAddr then some idx
            else allocLoop maxAddr n (decIdx idx)

/-- `physical_alloc`; `none` means that no page is found, which is a panic, or a loop that does not
end when `lastidx` is the last index. -/
def alloc (maxAddr : Word) : Option (PageRef × Physical) :=
  (ph.allocLoop maxAddr (ph.pages.length + 2) (decIdx ph.lastidx)).map fun idx =>
    (.ram idx, { ph.setStatus idx .inUse with lastidx := idx, freePages := ph.freePages - 1 })

/-- `physical_free` of a page. -/
def free : PageRef → Physical
  | .ram i =>
      match ph.pages[i]? with
      | none => ph
      | some pg =>
          let ph' := if pg.hasStatus .inUse then ph.setStatus i .free else ph
          if pg.hasStatus .mmio then ph' else { ph' with freePages := ph'.freePages + 1 }
  | .io i =>
      match ph.ioPages[i]? with
      | none => ph
      | some pg =>
          -- The page of a device has status `MMIO` unless it was marked as used.
          let ph' := if pg.hasStatus .inUse then
              { ph with ioPages := ph.ioPages.modify i fun pg => pg.setStatus .free } else ph
          if pg.hasStatus .mmio then ph' else { ph' with freePages := ph'.freePages + 1 }

/-- The binary search of `find_page`. Each round shortens the range, so it ends within as many
rounds as there are pages. -/
def searchLoop (addr : Word) : ℕ → ℤ → ℤ → ℕ → Option ℕ
  | 0, _, _, _ => none
  | n + 1, min, max, guess =>
      match ph.pages[guess]? with
      | none => none
      | some pg =>
          if pg.address = addr then some guess
          else
            let min' : ℤ := if pg.address < addr then (guess : ℤ) + 1 else min
            let max' : ℤ := if pg.address < addr then max else (guess : ℤ) - 1
            if max' < min' then none
            else searchLoop addr n min' max' ((min' + max').tdiv 2).toNat

/-- `find_page`. -/
def findPage (addr : Word) : Option PageRef :=
  match ph.ioPages.findIdx? fun pg => pg.address = addr with
  | some i => some (.io i)
  | none =>
      let max : ℤ := (ph.pages.length : ℤ) - 1
      (ph.searchLoop addr (ph.pages.length + 1) 0 max (max.tdiv 2).toNat).map .ram

/-- `physical_free` of an address. -/
def freeAddr (addr : Word) : Physical :=
  match ph.findPage (addr &&& addressMask) with
  | none => ph
  | some r => ph.free r

/-! ## Free frames -/

/-- Some page of the array has this address. -/
def Accounted (a : Word) : Prop := ∃ pg ∈ ph.pages, pg.address = a

/-- The page of this address is free. -/
def IsFree (a : Word) : Prop := ∃ pg ∈ ph.pages, pg.address = a ∧ pg.hasStatus .free = true

/-- No two pages of the array have the same address. The elements at the end that no memory was
found for have address 0. -/
def Distinct : Prop := (ph.pages.map PhysPage.address).Pairwise fun a b => a = b → a = 0

variable {ph}

lemma setStatus_getElem? (i j : ℕ) (s : PageStatus) :
    (ph.setStatus i s).pages[j]? =
      if i = j then (ph.pages[j]?).map fun pg => pg.setStatus s else ph.pages[j]? := by
  rw [setStatus, getElem?_modify]
  split <;> simp

@[simp]
lemma setStatus_map_address (i : ℕ) (s : PageStatus) :
    (ph.setStatus i s).pages.map PhysPage.address = ph.pages.map PhysPage.address := by
  apply ext_getElem?
  intro j
  rw [getElem?_map, getElem?_map, setStatus_getElem?]
  split
  · cases ph.pages[j]? <;> simp
  · rfl

lemma Distinct.setStatus (h : ph.Distinct) (i : ℕ) (s : PageStatus) :
    (ph.setStatus i s).Distinct := by
  rw [Distinct, setStatus_map_address]
  exact h

lemma accounted_setStatus (i : ℕ) (s : PageStatus) (a : Word) :
    (ph.setStatus i s).Accounted a ↔ ph.Accounted a := by
  have hmem : ∀ q : Physical, q.Accounted a ↔ a ∈ q.pages.map PhysPage.address := fun q => by
    simp [Accounted]
  rw [hmem, hmem, setStatus_map_address]

lemma Distinct.index_eq (h : ph.Distinct) {i j : ℕ} {pg pg' : PhysPage}
    (hi : ph.pages[i]? = some pg) (hj : ph.pages[j]? = some pg')
    (heq : pg.address = pg'.address) (h0 : pg.address ≠ 0) : i = j := by
  rw [Distinct, pairwise_map, pairwise_iff_getElem] at h
  obtain ⟨hi', rfl⟩ := List.getElem?_eq_some_iff.mp hi
  obtain ⟨hj', rfl⟩ := List.getElem?_eq_some_iff.mp hj
  rcases Nat.lt_trichotomy i j with hlt | rfl | hlt
  · exact absurd (h i j hi' hj' hlt heq) h0
  · rfl
  · exact absurd (h j i hj' hi' hlt heq.symm) (heq ▸ h0)

variable {pg : PhysPage} {i : ℕ}

/-- Taking a page into use takes its address, and no other, out of the free ones. -/
lemma isFree_setStatus_inUse (h : ph.Distinct)
    (hi : ph.pages[i]? = some pg) (h0 : pg.address ≠ 0) (b : Word) :
    (ph.setStatus i .inUse).IsFree b ↔ ph.IsFree b ∧ b ≠ pg.address := by
  constructor
  · rintro ⟨pg', hmem, rfl, hfree⟩
    obtain ⟨j, hj⟩ := mem_iff_getElem?.mp hmem
    rw [setStatus_getElem?] at hj
    split at hj
    · rename_i hij
      subst hij
      rw [hi, map_some, some.injEq] at hj
      rw [← hj, PhysPage.hasStatus_setStatus] at hfree
      simp at hfree
    · rename_i hij
      exact ⟨⟨pg', mem_iff_getElem?.mpr ⟨j, hj⟩, rfl, hfree⟩,
        fun heq => hij (h.index_eq hi hj heq.symm h0)⟩
  · rintro ⟨⟨pg', hmem, rfl, hfree⟩, hne⟩
    obtain ⟨j, hj⟩ := mem_iff_getElem?.mp hmem
    refine ⟨pg', mem_iff_getElem?.mpr ⟨j, ?_⟩, rfl, hfree⟩
    rw [setStatus_getElem?, if_neg, hj]
    rintro rfl
    rw [hi, some.injEq] at hj
    exact hne (by rw [hj])

lemma isFree_setStatus_free (hi : ph.pages[i]? = some pg) {b : Word}
    (hb : (ph.setStatus i .free).IsFree b) : ph.IsFree b ∨ b = pg.address := by
  obtain ⟨pg', hmem, rfl, hfree⟩ := hb
  obtain ⟨j, hj⟩ := mem_iff_getElem?.mp hmem
  rw [setStatus_getElem?] at hj
  split at hj
  · rename_i hij
    subst hij
    rw [hi, map_some, some.injEq] at hj
    rw [← hj, PhysPage.address_setStatus]
    exact .inr rfl
  · exact .inl ⟨pg', mem_iff_getElem?.mpr ⟨j, hj⟩, rfl, hfree⟩

/-! ## What allocating and freeing do -/

lemma allocLoop_spec {maxAddr : Word} {n idx i : ℕ} (h : ph.allocLoop maxAddr n idx = some i) :
    ∃ pg, ph.pages[i]? = some pg ∧ pg.hasStatus .free = true ∧ pg.address < maxAddr := by
  induction n generalizing idx with
  | zero => simp [allocLoop] at h
  | succ n ih =>
    rw [allocLoop] at h
    split at h
    · simp at h
    · dsimp only at h
      split at h
      · simp at h
      · rename_i pg hpg
        split at h
        · rename_i hcond
          cases h
          simp only [Bool.and_eq_true, decide_eq_true_eq] at hcond
          exact ⟨pg, hpg, hcond.1, hcond.2⟩
        · exact ih h

/-- What the page array is like after `physical_alloc`: the page returned was free and is the one
page that is no longer so. -/
structure Allocated (ph ph' : Physical) (r : PageRef) : Prop where
  was_free : ph.IsFree (ph'.address r)
  distinct : ph'.Distinct
  aligned : Aligned (ph'.address r)
  isFree : ∀ b, ph'.IsFree b ↔ ph.IsFree b ∧ b ≠ ph'.address r
  accounted : ∀ b, ph'.Accounted b ↔ ph.Accounted b
  addresses : ph'.pages.map PhysPage.address = ph.pages.map PhysPage.address
  index : ∃ i, r = .ram i ∧ i < ph.pages.length

lemma alloc_spec (hd : ph.Distinct) (h0 : ¬ ph.IsFree 0) {maxAddr : Word} {r : PageRef}
    {ph' : Physical} (h : ph.alloc maxAddr = some (r, ph')) : Allocated ph ph' r := by
  obtain ⟨i, hloop, heq⟩ := map_eq_some_iff.mp h
  obtain ⟨pg, hpg, hfree, -⟩ := allocLoop_spec hloop
  cases heq
  have hwas : ph.IsFree pg.address := ⟨pg, mem_iff_getElem?.mpr ⟨i, hpg⟩, rfl, hfree⟩
  have hget : (ph.setStatus i .inUse).pages[i]? = some (pg.setStatus .inUse) := by
    rw [setStatus_getElem?, if_pos rfl, hpg, map_some]
  have haddress : Physical.address { ph.setStatus i .inUse with
      lastidx := i, freePages := ph.freePages - 1 } (.ram i) = pg.address := by
    show (((ph.setStatus i .inUse).pages[i]?).map PhysPage.address).getD 0 = pg.address
    rw [hget, map_some, getD_some, PhysPage.address_setStatus]
  refine ⟨?_, hd.setStatus i .inUse, ?_, ?_, accounted_setStatus i .inUse,
    setStatus_map_address i .inUse, i, rfl, (List.getElem?_eq_some_iff.mp hpg).1⟩
  · rw [haddress]
    exact hwas
  · rw [haddress]
    exact pg.aligned_address
  · rw [haddress]
    exact isFree_setStatus_inUse hd hpg fun heq => h0 (heq ▸ hwas)

lemma searchLoop_spec {addr : Word} {n guess i : ℕ} {min max : ℤ}
    (h : ph.searchLoop addr n min max guess = some i) :
    ∃ pg, ph.pages[i]? = some pg ∧ pg.address = addr := by
  induction n generalizing guess min max with
  | zero => simp [searchLoop] at h
  | succ n ih =>
    rw [searchLoop] at h
    split at h
    · simp at h
    · rename_i pg hpg
      split at h
      · rename_i heq
        cases h
        exact ⟨pg, hpg, heq⟩
      · rw [ite_none_left_eq_some] at h
        exact ih h.2

/-- What the page array is like after `physical_free`. -/
structure Freed (ph ph' : Physical) (a : Word) : Prop where
  distinct : ph.Distinct → ph'.Distinct
  isFree : ∀ b, ph'.IsFree b → ph.IsFree b ∨ (b = a ∧ ph.Accounted a)
  accounted : ∀ b, ph'.Accounted b ↔ ph.Accounted b
  addresses : ph'.pages.map PhysPage.address = ph.pages.map PhysPage.address

lemma Freed.refl (ph : Physical) (a : Word) : Freed ph ph a :=
  ⟨id, fun _ => .inl, fun _ => Iff.rfl, rfl⟩

lemma free_freed (hi : ph.pages[i]? = some pg) : Freed ph (ph.free (.ram i)) pg.address := by
  have hset : Freed ph (ph.setStatus i .free) pg.address := by
    refine ⟨fun h => h.setStatus i .free, fun b hb => ?_, accounted_setStatus i .free,
      setStatus_map_address i .free⟩
    refine (isFree_setStatus_free hi hb).imp_right fun heq => ⟨heq, pg, ?_, rfl⟩
    exact mem_iff_getElem?.mpr ⟨i, hi⟩
  simp only [free, hi]
  by_cases hu : pg.hasStatus .inUse = true
  · simp only [hu, if_true]
    split
    · exact hset
    · exact { hset with }
  · simp only [hu]
    split
    · exact .refl ph _
    · exact ⟨id, fun _ => .inl, fun _ => Iff.rfl, rfl⟩

lemma free_io_pages (ph : Physical) (i : ℕ) : (ph.free (.io i)).pages = ph.pages := by
  rw [free]
  split
  · rfl
  · dsimp only
    split <;> split <;> rfl

lemma free_io_freed (ph : Physical) (i : ℕ) (a : Word) : Freed ph (ph.free (.io i)) a := by
  have hpages := ph.free_io_pages i
  refine ⟨fun h => ?_, fun b hb => .inl ?_, fun b => ?_, ?_⟩
  · rwa [Distinct, hpages]
  · rwa [IsFree, hpages] at hb
  · rw [Accounted, hpages, Accounted]
  · rw [hpages]

lemma freeAddr_freed (ph : Physical) (a : Word) : Freed ph (ph.freeAddr a) (frame a) := by
  rw [freeAddr]
  split
  · exact .refl ph _
  · rename_i r hr
    unfold findPage at hr
    split at hr
    · cases hr
      exact ph.free_io_freed _ _
    · obtain ⟨i, hi, rfl⟩ := map_eq_some_iff.mp hr
      obtain ⟨pg, hpg, heq⟩ := searchLoop_spec hi
      have hfreed := free_freed hpg
      rwa [heq] at hfreed

end Physical

end Memory
