import Btos.Lib.Bisection
import Btos.Memory.FreeCounter

/-!
# Finding a page by its address

`physical_free` of an address looks for the page with `find_page`, a binary search in the page
array. The array is in the order of the memory map, and the elements that were not filled in, at its
end, have address 0.

* `searchLoop_eq_search`: the search is a bisection.
* `AllFindable.uses`: whatever is free or was given out can be found, if this holds at the start.

Main result: `findsPages_iff`.
-/

open Option List BitVec

namespace Memory

open Bisection

namespace Physical

variable {ph ph' : Physical} {i : ℕ} {addr : Word}

/-! ## The search as a bisection -/

/-- The address of an element of the array, as a number. -/
def key (ph : Physical) (i : ℕ) : ℕ := (ph.address (.ram i)).toNat

lemma address_of_getElem? {pg : PhysPage} (h : ph.pages[i]? = some pg) :
    ph.address (.ram i) = pg.address := by
  simp [address, page, h]

lemma toNat_tdiv_two {x : ℤ} {k : ℕ} (h : x = k) : (x.tdiv 2).toNat = k / 2 := by
  subst h
  rw [Int.tdiv_eq_ediv_of_nonneg (Int.natCast_nonneg k)]
  omega

lemma searchLoop_eq_search {n lo hi : ℕ} (hle : lo ≤ hi) (hhi : hi < ph.pages.length) :
    ph.searchLoop addr n lo hi ((lo + hi) / 2) = search ph.key addr.toNat n lo hi := by
  induction n generalizing lo hi with
  | zero => rfl
  | succ n ih =>
    have hmid : (lo + hi) / 2 < ph.pages.length := by omega
    have hget := List.getElem?_eq_getElem hmid
    have hkey : ph.key ((lo + hi) / 2) = (ph.pages[(lo + hi) / 2]).address.toNat := by
      rw [key, address_of_getElem? hget]
    rw [searchLoop, search]
    simp only [hget, hkey, toNat_inj, ← lt_def]
    by_cases heq : (ph.pages[(lo + hi) / 2]).address = addr
    · rw [if_pos heq, if_pos heq]
    rw [if_neg heq, if_neg heq]
    by_cases hlt : (ph.pages[(lo + hi) / 2]).address < addr
    · -- to the right
      simp only [if_pos hlt]
      by_cases hright : (lo + hi) / 2 < hi
      · rw [if_pos hright, if_neg (by omega), ← ih hright hhi,
          toNat_tdiv_two (show _ = (((lo + hi) / 2 + 1 + hi : ℕ) : ℤ) by omega)]
        rfl
      · rw [if_neg hright, if_pos (by omega)]
    · simp only [if_neg hlt]
      by_cases hleft : lo < (lo + hi) / 2
      · rw [if_pos hleft, if_neg (by omega), ← ih (by omega) (by omega),
          toNat_tdiv_two (show _ = ((lo + ((lo + hi) / 2 - 1) : ℕ) : ℤ) by omega)]
        congr 1
        omega
      · rw [if_neg hleft, if_pos (by omega)]

lemma findPage_eq_search (hio : ph.ioPages = []) (hpos : 0 < ph.pages.length) :
    ph.findPage addr =
      (search ph.key addr.toNat (ph.pages.length + 1) 0 (ph.pages.length - 1)).map .ram := by
  have hmax : (ph.pages.length : ℤ) - 1 = ((ph.pages.length - 1 : ℕ) : ℤ) := by omega
  have hloop : ph.searchLoop addr (ph.pages.length + 1) ((0 : ℕ) : ℤ) _ _ = _ :=
    searchLoop_eq_search (Nat.zero_le (ph.pages.length - 1)) (by omega)
  rw [findPage, hio, findIdx?_nil]
  simp only [hmax]
  rw [← hloop, toNat_tdiv_two rfl, Nat.zero_add]
  rfl

/-! ## Pages that can be found -/

/-- The page at an index is what `find_page` finds for its address. -/
def Findable (ph : Physical) (i : ℕ) : Prop :=
  ∃ pg, ph.pages[i]? = some pg ∧ ph.findPage pg.address = some (.ram i)

/-- No page has changed its address. -/
structure SameAddresses (ph ph' : Physical) : Prop where
  pages : ph'.pages.map PhysPage.address = ph.pages.map PhysPage.address
  ioPages : ph'.ioPages.map PhysPage.address = ph.ioPages.map PhysPage.address

lemma map_address_getElem? (h : ph'.pages.map PhysPage.address = ph.pages.map PhysPage.address)
    (i : ℕ) : (ph'.pages[i]?).map PhysPage.address = (ph.pages[i]?).map PhysPage.address := by
  rw [← getElem?_map, h, getElem?_map]

lemma searchLoop_congr (h : ph'.pages.map PhysPage.address = ph.pages.map PhysPage.address)
    (n : ℕ) (min max : ℤ) (guess : ℕ) :
    ph'.searchLoop addr n min max guess = ph.searchLoop addr n min max guess := by
  induction n generalizing min max guess with
  | zero => rfl
  | succ n ih =>
    have hget := map_address_getElem? h guess
    rw [searchLoop, searchLoop]
    cases hpg : ph.pages[guess]? with
    | none =>
      rw [hpg, map_none, map_eq_none_iff] at hget
      rw [hget]
    | some pg =>
      rw [hpg, map_some, map_eq_some_iff] at hget
      obtain ⟨pg', hpg', heq⟩ := hget
      simp only [hpg', heq, ih]

lemma SameAddresses.findPage (h : SameAddresses ph ph') (addr : Word) :
    ph'.findPage addr = ph.findPage addr := by
  have hlen : ph'.pages.length = ph.pages.length := by
    simpa using congrArg length h.pages
  have hidx (l : List PhysPage) : l.findIdx? (fun pg => decide (pg.address = addr)) =
      (l.map PhysPage.address).findIdx? fun a => decide (a = addr) := by
    rw [findIdx?_map]
    rfl
  rw [Physical.findPage, Physical.findPage, hidx, hidx, h.ioPages, hlen]
  simp only [searchLoop_congr h.pages]

lemma SameAddresses.findable (h : SameAddresses ph ph') (hi : ph.Findable i) : ph'.Findable i := by
  obtain ⟨pg, hpg, hfind⟩ := hi
  have hget := map_address_getElem? h.pages i
  rw [hpg, map_some, map_eq_some_iff] at hget
  obtain ⟨pg', hpg', heq⟩ := hget
  exact ⟨pg', hpg', by rw [h.findPage, heq, hfind]⟩

lemma SameAddresses.setStatusOf (ph : Physical) (s : PageStatus) (r : PageRef) :
    SameAddresses ph (ph.setStatusOf s r) := by
  cases r with
  | ram i => exact ⟨setStatus_map_address i s, rfl⟩
  | io i =>
    refine ⟨rfl, ext_getElem? fun j => ?_⟩
    simp only [Physical.setStatusOf, getElem?_map, getElem?_modify]
    split
    · cases ph.ioPages[j]? <;> simp
    · simp

/-- Freeing a page writes its status, or nothing, and the counter. -/
lemma free_eq (ph : Physical) (r : PageRef) :
    (ph.free r).pages = (ph.setStatusOf .free r).pages ∧
        (ph.free r).ioPages = (ph.setStatusOf .free r).ioPages ∧
        (ph.page r).any (fun pg => pg.hasStatus .inUse) = true ∨
      (ph.free r).pages = ph.pages ∧ (ph.free r).ioPages = ph.ioPages := by
  cases hpg : ph.page r with
  | none => exact .inr (by cases r <;> simp_all [free, page])
  | some pg =>
    by_cases hu : pg.hasStatus .inUse = true
    · refine .inl ?_
      cases r <;> rw [page] at hpg <;> simp only [free, hpg, hu, if_true, any_some, setStatusOf] <;>
        split <;> exact ⟨rfl, rfl, trivial⟩
    · rw [Bool.not_eq_true] at hu
      refine .inr ?_
      cases r <;> rw [page] at hpg <;> simp only [free, hpg, hu, Bool.false_eq_true, if_false] <;>
        split <;> exact ⟨rfl, rfl⟩

lemma SameAddresses.free (ph : Physical) (r : PageRef) : SameAddresses ph (ph.free r) := by
  have hset := SameAddresses.setStatusOf ph .free r
  rcases ph.free_eq r with ⟨hpages, hio, -⟩ | ⟨hpages, hio⟩
  · exact ⟨by rw [hpages, hset.pages], by rw [hio, hset.ioPages]⟩
  · exact ⟨by rw [hpages], by rw [hio]⟩

lemma alloc_pages {maxAddr : Word} {r : PageRef} (h : ph.alloc maxAddr = some (r, ph')) :
    ∃ i pg, r = .ram i ∧ ph.pages[i]? = some pg ∧ pg.hasStatus .free = true ∧
      ph'.pages = (ph.setStatus i .inUse).pages ∧ SameAddresses ph ph' := by
  obtain ⟨i, hloop, heq⟩ := map_eq_some_iff.mp h
  obtain ⟨pg, hpg, hfree, -⟩ := allocLoop_spec hloop
  cases heq
  exact ⟨i, pg, rfl, hpg, hfree, rfl, setStatus_map_address i .inUse, rfl⟩

lemma findPage_ram (h : ph.findPage addr = some (.ram i)) :
    ∃ pg, ph.pages[i]? = some pg ∧ pg.address = addr := by
  unfold findPage at h
  split at h
  · cases h
  · obtain ⟨j, hj, heq⟩ := map_eq_some_iff.mp h
    obtain rfl := PageRef.ram.inj heq
    exact searchLoop_spec hj

/-- A page of a device is only made for an address that is not found. -/
lemma Findable.getIoPage (h : ph.Findable i) (addr : Word) : (ph.getIoPage addr).2.Findable i := by
  rw [Physical.getIoPage]
  split
  · exact h
  · rename_i hnone
    obtain ⟨pg, hpg, hfind⟩ := h
    refine ⟨pg, hpg, ?_⟩
    have hne : frame addr ≠ pg.address := by
      intro heq
      rw [← heq, frame, hnone] at hfind
      cases hfind
    have hnew : PhysPage.address ⟨(addr &&& addressMask) ||| PageStatus.mmio.code⟩ = frame addr :=
      frame_or (aligned_frame addr) (by decide)
    have hloop (n : ℕ) (lo hi : ℤ) (g : ℕ) :
        ({ ph with ioPages := ph.ioPages ++ [⟨(addr &&& addressMask) ||| PageStatus.mmio.code⟩] } :
          Physical).searchLoop pg.address n lo hi g = ph.searchLoop pg.address n lo hi g := by
      apply searchLoop_congr
      rfl
    -- the new element of the list is not the one that is looked for
    rw [findPage] at hfind ⊢
    rw [findIdx?_append]
    simp only [findIdx?_cons, hnew, hne, decide_false, findIdx?_nil, Bool.false_eq_true,
      if_false, map_none, or_none, hloop]
    exact hfind

end Physical

/-! ## Use of the page array -/

open Physical

/-- The states that lead from the start by allocating and freeing pages, with the pages given out
so far. Pages are freed by their address or as they were given out. -/
inductive Uses (b : Booted) : List PageRef → Physical → Prop where
  | start : Uses b [] b.phys
  | alloc {out : List PageRef} {ph ph' : Physical} {maxAddr : Word} {r : PageRef}
      (h : Uses b out ph) (halloc : ph.alloc maxAddr = some (r, ph')) : Uses b (r :: out) ph'
  | free {out : List PageRef} {ph : Physical} {r : PageRef} (h : Uses b out ph) (hr : r ∈ out) :
      Uses b out (ph.free r)
  | freeAddr {out : List PageRef} {ph : Physical} (h : Uses b out ph) (addr : Word) :
      Uses b out (ph.freeAddr addr)
  | markUsed {out : List PageRef} {ph : Physical} (h : Uses b out ph) (addr : Word) :
      Uses b out (ph.markUsed addr)
  | getIoPage {out : List PageRef} {ph : Physical} (h : Uses b out ph) (addr : Word) :
      Uses b out (ph.getIoPage addr).2

/-- Every page that was accounted is found by its address, and whenever a page that
`physical_alloc` has returned is in use, freeing its address makes that very page free. -/
structure FindsPages (b : Booted) : Prop where
  found : ∀ i < b.accounted, b.phys.findPage (b.phys.address (.ram i)) = some (.ram i)
  freed : ∀ out ph, Uses b out ph → ∀ r ∈ out,
    (ph.page r).any (fun pg => pg.hasStatus .inUse) = true →
      ((ph.freeAddr (ph.address r)).page r).any (fun pg => pg.hasStatus .free) = true

/-- What is free or was given out can be found. -/
structure AllFindable (out : List PageRef) (ph : Physical) : Prop where
  free : ∀ i pg, ph.pages[i]? = some pg → pg.hasStatus .free = true → ph.Findable i
  out : ∀ r ∈ out, ∃ i, r = .ram i ∧ ph.Findable i

namespace AllFindable

variable {out : List PageRef} {ph ph' : Physical}

lemma of_same (h : AllFindable out ph) (hsame : SameAddresses ph ph')
    (hfree : ∀ i pg, ph'.pages[i]? = some pg → pg.hasStatus .free = true →
      ph.Findable i) : AllFindable out ph' where
  free i pg hpg hstatus := hsame.findable (hfree i pg hpg hstatus)
  out r hr := by
    obtain ⟨i, rfl, hi⟩ := h.out r hr
    exact ⟨i, rfl, hsame.findable hi⟩

lemma setStatusOf (h : AllFindable out ph) (s : PageStatus) {r : PageRef}
    (hr : s = .free → ∀ i, r = .ram i → ph.Findable i) : AllFindable out (ph.setStatusOf s r) := by
  refine h.of_same (.setStatusOf ph s r) fun i pg hpg hstatus => ?_
  cases r with
  | io j => exact h.free i pg hpg hstatus
  | ram j =>
    rw [Physical.setStatusOf, setStatus_getElem?] at hpg
    split at hpg
    · rename_i hji
      obtain ⟨pg0, hpg0, rfl⟩ := map_eq_some_iff.mp hpg
      rw [PhysPage.hasStatus_setStatus, decide_eq_true_eq] at hstatus
      exact hji ▸ hr hstatus j rfl
    · exact h.free i pg hpg hstatus

/-- A page that can be found may be freed. -/
lemma freed (h : AllFindable out ph) {r : PageRef} (hr : ∀ i, r = .ram i → ph.Findable i) :
    AllFindable out (ph.free r) := by
  have hset := h.setStatusOf .free fun _ => hr
  refine h.of_same (.free ph r) fun i pg hpg hstatus => ?_
  rcases ph.free_eq r with ⟨hpages, -, -⟩ | ⟨hpages, -⟩
  · rw [hpages] at hpg
    obtain ⟨pg', hpg', hfind⟩ := hset.free i pg hpg hstatus
    -- the search has not changed
    have hsame := SameAddresses.setStatusOf ph .free r
    have hget := map_address_getElem? hsame.pages i
    rw [hpg', map_some] at hget
    obtain ⟨pg0, hpg0, heq⟩ := map_eq_some_iff.mp hget.symm
    exact ⟨pg0, hpg0, by rw [heq, ← hsame.findPage, hfind]⟩
  · rw [hpages] at hpg
    exact h.free i pg hpg hstatus

lemma uses {b : Booted} (hb : AllFindable [] b.phys) (h : Uses b out ph) :
    AllFindable out ph := by
  induction h with
  | start => exact hb
  | alloc h halloc ih =>
    obtain ⟨i, pg, rfl, hpg, hfree, hpages, hsame⟩ := alloc_pages halloc
    have hall := ih.of_same hsame fun j pg' hpg' hstatus => by
      rw [hpages, setStatus_getElem?] at hpg'
      split at hpg'
      · exact ‹i = j› ▸ ih.free i pg hpg hfree
      · exact ih.free j pg' hpg' hstatus
    refine ⟨hall.free, fun r hr => ?_⟩
    rcases mem_cons.mp hr with rfl | hr
    · exact ⟨i, rfl, hsame.findable (ih.free i pg hpg hfree)⟩
    · exact hall.out r hr
  | free h hr ih =>
    refine ih.freed fun i hi => ?_
    obtain ⟨j, hj, hfind⟩ := ih.out _ hr
    obtain rfl : j = i := PageRef.ram.inj (hj.symm.trans hi)
    exact hfind
  | freeAddr h addr ih =>
    rw [Physical.freeAddr]
    split
    · exact ih
    · rename_i ph r hr
      refine ih.freed fun i hi => ?_
      subst hi
      -- the page that is freed was found by its address
      obtain ⟨pg, hpg, heq⟩ := findPage_ram hr
      exact ⟨pg, hpg, by rw [heq, hr]⟩
  | markUsed h addr ih =>
    rw [Physical.markUsed]
    split
    · exact ih
    · exact ih.setStatusOf .inUse fun hfalse => by cases hfalse
  | getIoPage h addr ih =>
    refine ⟨fun i pg hpg hstatus => ?_, fun r hr => ?_⟩
    · refine (ih.free i pg ?_ hstatus).getIoPage addr
      rw [Physical.getIoPage] at hpg
      split at hpg <;> exact hpg
    · obtain ⟨i, rfl, hi⟩ := ih.out r hr
      exact ⟨i, rfl, hi.getIoPage addr⟩

/-- A page that was given out and is in use is free after its address has been freed. -/
lemma freeAddr_of_mem (h : AllFindable out ph) {r : PageRef} (hr : r ∈ out)
    (huse : (ph.page r).any (fun pg => pg.hasStatus .inUse) = true) :
    ((ph.freeAddr (ph.address r)).page r).any (fun pg => pg.hasStatus .free) = true := by
  obtain ⟨i, rfl, pg, hpg, hfind⟩ := h.out r hr
  have hinUse : pg.hasStatus .inUse = true := by simpa [page, hpg] using huse
  have hmask : pg.address &&& addressMask = pg.address := pg.aligned_address
  rw [freeAddr, address_of_getElem? hpg, hmask, hfind]
  simp only [Physical.free, hpg, hinUse, if_true]
  split <;> simp [page, setStatus_getElem?, hpg, PhysPage.hasStatus_setStatus]

end AllFindable

/-! ## From the start -/

variable {n : ℕ} {kernelEnd : Word} {mbt : Multiboot} {es : List MapEntry} {b : Booted}

/-- The elements that are not filled in are not free, and what is free can be found if everything
that is filled in can. -/
lemma InitSpec.allFindable (h : InitSpec kernelEnd mbt es b)
    (hfound : ∀ i < b.accounted, b.phys.findPage (b.phys.address (.ram i)) = some (.ram i)) :
    AllFindable [] b.phys := by
  refine ⟨fun i pg hpg hstatus => ?_, fun r hr => by cases hr⟩
  have haddress := address_of_getElem? hpg
  refine ⟨pg, hpg, ?_⟩
  rw [← haddress]
  apply hfound
  by_contra hge
  rw [not_lt] at hge
  -- an element behind the accounted ones has address 0, and is marked as used
  have hzero : pg.address = 0 := by rw [← haddress, h.address_of_le hge]
  have hlt : i < b.phys.pages.length := (List.getElem?_eq_some_iff.mp hpg).1
  have hend : ¬ (0 : Word) < b.endOfKernel := by
    rw [(h.hasStatus hpg).2, hzero] at hstatus
    simpa using hstatus
  have htotal := h.length_pages
  have hfits := h.fits
  rw [h.endOfKernel_eq] at hend
  apply hend
  rw [lt_def, toNat_add, toNat_mul]
  simp only [BitVec.toNat_ofNat, ofNat_eq_ofNat]
  omega

/-- The pages that are found by their addresses: all of them exactly if the addresses increase and
the way to the last one does not lead behind it. -/
lemma InitSpec.found_iff (h : InitSpec kernelEnd mbt es b) :
    (∀ i < b.accounted, b.phys.findPage (b.phys.address (.ram i)) = some (.ram i)) ↔
      StrictMonoOn b.phys.key (Set.Iio b.accounted) ∧
        ∀ i, i + 1 = b.accounted →
          ∀ g ∈ visits i (b.phys.pages.length + 1) 0 (b.phys.pages.length - 1),
            g < b.accounted := by
  rw [← forall_search_eq_iff h.accounted_le (Nat.le_succ _)]
  · refine forall₂_congr fun i hi => ?_
    rw [findPage_eq_search h.ioPages_eq (by have := h.accounted_le; omega), map_eq_some_iff]
    exact ⟨fun ⟨j, hj, heq⟩ => PageRef.ram.inj heq ▸ hj, fun hj => ⟨i, hj, rfl⟩⟩
  · intro i _ g hg _
    rw [key, key, h.address_of_le hg]
    exact Nat.not_lt_zero _

/-- When every accounted page is found by its address: the addresses increase, and the search for
the last of them does not come to an element of the array that was not filled in. -/
theorem findsPages_iff {seen : List (Word × MapEntry)}
    (hinit : mm2PhysicalInit n kernelEnd mbt = some b) (hseen : mbt.seen n = some seen) :
    FindsPages b ↔
      (accountedAddrs ((countPages (seen.map Prod.snd)).toNat + 1)
        (seen.map Prod.snd)).Pairwise (fun a a' => a < a') ∧
      ∀ i, i + 1 = (accountedAddrs ((countPages (seen.map Prod.snd)).toNat + 1)
          (seen.map Prod.snd)).length →
        ∀ g ∈ visits i ((countPages (seen.map Prod.snd)).toNat + 1) 0
          ((countPages (seen.map Prod.snd)).toNat - 1), g ≤ i := by
  obtain ⟨seen', hseen', h⟩ := initSpec hinit
  obtain rfl : seen = seen' := some.inj (hseen.symm.trans hseen')
  have hfinds : FindsPages b ↔
      ∀ i < b.accounted, b.phys.findPage (b.phys.address (.ram i)) = some (.ram i) := by
    refine ⟨fun hf => hf.found, fun hf => ⟨hf, fun out ph huses r hr huse => ?_⟩⟩
    exact ((h.allFindable hf).uses huses).freeAddr_of_mem hr huse
  rw [hfinds, h.found_iff, h.length_pages, h.accounted_eq]
  refine and_congr ?_ (forall₂_congr fun i hi => forall₂_congr fun g _ => by omega)
  -- the keys are the addresses
  rw [pairwise_iff_getElem]
  have hkey {i : ℕ} (hi : i < (accountedAddrs ((countPages (seen.map Prod.snd)).toNat + 1)
      (seen.map Prod.snd)).length) : b.phys.key i = (accountedAddrs
        ((countPages (seen.map Prod.snd)).toNat + 1) (seen.map Prod.snd))[i].toNat := by
    have hget := h.address_of_lt (h.accounted_eq ▸ hi)
    rw [List.getElem?_eq_getElem hi, some.injEq] at hget
    rw [key, hget]
  constructor
  · intro hmono i j hi hj hij
    have hlt := hmono hi hj hij
    rwa [hkey hi, hkey hj] at hlt
  · intro hpair i hi j hj hij
    rw [hkey hi, hkey hj]
    exact hpair i j hi hj hij

/-- A region of 1 MiB from address 0 on: all pages but the last one are accounted. -/
theorem findsPages_megabyte : ∃ b,
    mm2PhysicalInit 4 0x80000 (.ofEntries [.usable 0 0 0x100000]) = some b ∧ b.accounted = 255 ∧
      FindsPages b := by
  have haccounted : (mm2PhysicalInit 4 0x80000 (.ofEntries [.usable 0 0 0x100000])).map
      Booted.accounted = some 255 := by decide +kernel
  obtain ⟨b, hinit, hb⟩ := map_eq_some_iff.mp haccounted
  obtain ⟨seen, hseen, -⟩ := initSpec hinit
  refine ⟨b, hinit, hb, (findsPages_iff hinit hseen).mpr ?_⟩
  obtain rfl : [(0x8000, .usable 0 0 0x100000), (0x8018, ⟨0x10000, 0, 0, 0, 0, 0⟩)] = seen :=
    some.inj (Eq.trans (by decide) hseen)
  have hlast : ∀ g ∈ visits 254 257 0 255, g ≤ 254 := by decide
  refine ⟨by decide +kernel, fun i hi => ?_⟩
  obtain rfl : i = 254 := Nat.succ_injective (hi.trans (by decide +kernel))
  exact hlast

/-- Three pages more than 1 MiB, from 1 MiB on. Two pages are accounted, in an array of 259, and the
search for the second one ends among the elements that are left over. -/
theorem exists_not_findsPages : ∃ b,
    mm2PhysicalInit 4 0x200000 (.ofEntries [.usable 0 0x100000 0x103000]) = some b ∧
      1 < b.accounted ∧ b.phys.address (.ram 1) = 0x101000 ∧ b.phys.findPage 0x101000 = none ∧
      ¬ FindsPages b := by
  have hfacts : (mm2PhysicalInit 4 0x200000 (.ofEntries [.usable 0 0x100000 0x103000])).map
      (fun b => (b.accounted, b.phys.address (.ram 1), b.phys.findPage 0x101000)) =
        some (2, 0x101000, none) := by decide +kernel
  obtain ⟨b, hb, heq⟩ := map_eq_some_iff.mp hfacts
  obtain ⟨hacc, haddress, hfind⟩ : b.accounted = 2 ∧ b.phys.address (.ram 1) = 0x101000 ∧
      b.phys.findPage 0x101000 = none := by
    simpa only [Prod.mk.injEq] using heq
  refine ⟨b, hb, by omega, haddress, hfind, fun hf => ?_⟩
  have hfound := hf.found 1 (by omega)
  rw [haddress, hfind] at hfound
  cases hfound

end Memory
