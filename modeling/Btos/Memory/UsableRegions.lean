import Btos.Memory.Addresses
import Btos.Memory.MemoryMap

/-!
# Pages and the usable memory

Whether the pages that `mm2_physical_init` accounts are memory that the boot loader reports as
usable, and whether no page is accounted twice.

The loops go on behind the end of the map, they look at the low halves of addresses and lengths
only, and they do not start at the beginning of a page if the region does not.

* `MapEntry.HasPage`: which pages are accounted for an entry, by its base and its length.
* `Plain`: the entries of the map for which none but the last matters.
* `wellAccounted_iff`: exactly when all is well, for regions that do not overlap. Of a plain entry
  it is asked only that the region starts with a page, or that its first page is of the kernel.
-/

open List Option BitVec

namespace Memory

namespace MapEntry

variable (e f : MapEntry)

/-- The address of a region. -/
def base64 : ℕ := e.baseAddrHigh.toNat * 2 ^ 32 + e.baseAddrLow.toNat

/-- The length of a region. -/
def length64 : ℕ := e.lengthHigh.toNat * 2 ^ 32 + e.lengthLow.toNat

/-- The page at an address lies in the region. -/
def Contains (a : ℕ) : Prop := e.base64 ≤ a ∧ a + pageSize ≤ e.base64 + e.length64

/-- The page with this number is accounted for the entry: the loop goes up from the base, by the
low halves only, as long as the address of the next page is below the length. The last page below
4 GiB is followed by the first one. -/
def HasPage (k : ℕ) : Prop :=
  e.counts = true ∧
    if e.baseAddrLow.toNat < 0xFFFFF000 then
      e.baseAddrLow.toNat / pageSize ≤ k ∧
        e.baseAddrLow.toNat % pageSize + (k + 1) * pageSize < e.lengthLow.toNat
    else
      k = 0xFFFFF ∧ e.baseAddrLow.toNat % pageSize < e.lengthLow.toNat ∨
        e.baseAddrLow.toNat % pageSize + (k + 1) * pageSize < e.lengthLow.toNat

/-- Two regions do not overlap. -/
def Apart : Prop := e.base64 + e.length64 ≤ f.base64 ∨ f.base64 + f.length64 ≤ e.base64

end MapEntry

namespace Multiboot

variable (mbt : Multiboot) (seen : List (Word × MapEntry))

/-- The usable regions of the map. -/
def usableRegions : List MapEntry :=
  (seen.filter fun x => mbt.InMap x.1 ∧ x.2.type = 1).map Prod.snd

/-- The entries of the map that are below 4 GiB, and not in the last page there. -/
def Plain (x : Word × MapEntry) : Prop :=
  mbt.InMap x.1 ∧ x.2.baseAddrHigh = 0 ∧ x.2.baseAddrLow.toNat < 0xFFFFF000

instance (x : Word × MapEntry) : Decidable (mbt.Plain x) := inferInstanceAs (Decidable (_ ∧ _))

end Multiboot

/-- No page is accounted twice, and every page that is not in use is one of the usable memory. -/
structure WellAccounted (mbt : Multiboot) (seen : List (Word × MapEntry)) (b : Booted) : Prop where
  distinct : ∀ i j, i < b.accounted → j < b.accounted →
    b.phys.address (.ram i) = b.phys.address (.ram j) → i = j
  inside : ∀ i pg, i < b.accounted → b.phys.pages[i]? = some pg → pg.hasStatus .inUse = false →
    ∃ e ∈ mbt.usableRegions seen, e.Contains pg.address.toNat

/-- Where the pages begin that are not marked: behind the kernel and its modules and an array with
four bytes for every page of the regions. -/
def Multiboot.top (mbt : Multiboot) (seen : List (Word × MapEntry)) (kernelEnd : Word) : Word :=
  mbt.endOfModules kernelEnd + 4 * BitVec.ofNat 32 (seen.map fun x =>
    if x.2.counts then x.2.lengthLow.toNat / pageSize else 0).sum

/-- What is asked of the entries. -/
structure EntriesFit (mbt : Multiboot) (seen : List (Word × MapEntry)) (top : Word) : Prop where
  /-- The first page of a plain entry is one of the region, or of the kernel. -/
  plain : ∀ x ∈ seen, mbt.Plain x → x.2.counts = true →
    x.2.baseAddrLow.toNat + pageSize < x.2.lengthLow.toNat →
    Aligned x.2.baseAddrLow ∨ frame x.2.baseAddrLow < top
  /-- The pages of other entries are usable or of the kernel. -/
  others : ∀ x ∈ seen, ¬ mbt.Plain x → ∀ k, x.2.HasPage k →
    k * pageSize < top.toNat ∨ ∃ e ∈ mbt.usableRegions seen, e.Contains (k * pageSize)
  /-- They are not pages of another entry, either. -/
  apart : seen.Pairwise fun x y => ¬ (mbt.Plain x ∧ mbt.Plain y) →
    ∀ k, x.2.HasPage k → ¬ y.2.HasPage k

variable {mbt : Multiboot} {seen : List (Word × MapEntry)} {x y : Word × MapEntry} {n : ℕ}
  {a : Word}

/-! ## The pages of an entry -/

lemma toNat_add_pageWord {p : Word} (h : p.toNat < 0xFFFFF000) :
    (p + pageWord).toNat = p.toNat + pageSize := by
  rw [toNat_add]
  simp only [pageWord, BitVec.toNat_ofNat, pageSize]
  omega

lemma toNat_add_pageWord_of_le {p : Word} (h : 0xFFFFF000 ≤ p.toNat) :
    (p + pageWord).toNat = p.toNat % pageSize := by
  have hlt := p.isLt
  rw [toNat_add]
  simp only [pageWord, BitVec.toNat_ofNat, pageSize]
  omega

variable {e : MapEntry} {p : Word}

/-- The loop over the pages does not end if the length is behind the last address that it goes
through. -/
lemma length_addrsFrom_of_lt (h : 0xFFFFF000 + p.toNat % pageSize < e.lengthLow.toNat) :
    (e.addrsFrom n p).length = n := by
  induction n generalizing p with
  | zero => rfl
  | succ n ih =>
    have hlt := p.isLt
    rw [MapEntry.addrsFrom, if_pos, length_cons, ih]
    · rw [toNat_add]
      simp only [pageWord, BitVec.toNat_ofNat, pageSize] at h ⊢
      omega
    · rw [lt_def, toNat_add]
      simp only [pageWord, BitVec.toNat_ofNat, pageSize] at h ⊢
      omega

lemma lengthLow_le_of_ended (hended : (e.addrsFrom n p).length < n) :
    e.lengthLow.toNat ≤ 0xFFFFF000 + p.toNat % pageSize := by
  by_contra hlt
  rw [length_addrsFrom_of_lt (not_le.mp hlt)] at hended
  exact lt_irrefl n hended

/-- The addresses increase by pages, up to the length of the region. -/
lemma addrsFrom_of_lt (hlen : e.lengthLow.toNat ≤ 0xFFFFF000 + p.toNat % pageSize)
    (hp : p.toNat < 0xFFFFF000) :
    (∀ q ∈ e.addrsFrom n p, p.toNat ≤ q.toNat ∧ q.toNat % pageSize = p.toNat % pageSize ∧
      q.toNat + pageSize < e.lengthLow.toNat) ∧
    (e.addrsFrom n p).Pairwise fun q q' => q.toNat + pageSize ≤ q'.toNat := by
  induction n generalizing p with
  | zero => simp [MapEntry.addrsFrom]
  | succ n ih =>
    rw [MapEntry.addrsFrom]
    split
    · rename_i hlt
      rw [lt_def, toNat_add_pageWord hp] at hlt
      have hnext := toNat_add_pageWord hp
      simp only [pageSize] at *
      obtain ⟨hmem, hpair⟩ := ih (p := p + pageWord) (by omega) (by omega)
      refine ⟨fun q hq => ?_, pairwise_cons.mpr ⟨fun q hq => ?_, hpair⟩⟩
      · rcases mem_cons.mp hq with rfl | hq
        · exact ⟨le_rfl, rfl, hlt⟩
        · obtain ⟨hle, hmod, hend⟩ := hmem q hq
          omega
      · obtain ⟨hle, -⟩ := hmem q hq
        omega
    · simp

/-- A loop that ends goes through all of them. -/
lemma mem_addrsFrom (hended : (e.addrsFrom n p).length < n) {q : Word} (hle : p.toNat ≤ q.toNat)
    (hmod : q.toNat % pageSize = p.toNat % pageSize)
    (hend : q.toNat + pageSize < e.lengthLow.toNat) : q ∈ e.addrsFrom n p := by
  induction n generalizing p with
  | zero => simp at hended
  | succ n ih =>
    have hL := e.lengthLow.isLt
    have hnext : (p + pageWord).toNat = p.toNat + pageSize := by
      refine toNat_add_pageWord ?_
      simp only [pageSize] at *
      omega
    rw [MapEntry.addrsFrom] at hended ⊢
    rw [if_pos (by rw [lt_def, hnext]; omega)] at hended ⊢
    rw [length_cons, Nat.add_lt_add_iff_right] at hended
    by_cases heq : q = p
    · exact heq ▸ mem_cons_self
    · have hne : q.toNat ≠ p.toNat := fun h => heq (eq_of_toNat_eq h)
      simp only [pageSize] at *
      exact mem_cons_of_mem _ (ih hended (by omega) (by omega))

/-- The numbers of the pages from an address on that is not in the last page. -/
lemma exists_mem_addrsFrom (hended : (e.addrsFrom n p).length < n) (hp : p.toNat < 0xFFFFF000)
    (k : ℕ) : (∃ q ∈ e.addrsFrom n p, q.toNat / pageSize = k) ↔ p.toNat / pageSize ≤ k ∧
      p.toNat % pageSize + (k + 1) * pageSize < e.lengthLow.toNat := by
  have hlen := lengthLow_le_of_ended hended
  have hL := e.lengthLow.isLt
  simp only [pageSize] at *
  constructor
  · rintro ⟨q, hq, rfl⟩
    obtain ⟨hle, hmod, hend⟩ := (addrsFrom_of_lt hlen hp).1 q hq
    simp only [pageSize] at hmod hend
    omega
  · rintro ⟨hle, hlt⟩
    have hq : (BitVec.ofNat 32 (k * 4096 + p.toNat % 4096)).toNat = k * 4096 + p.toNat % 4096 := by
      rw [BitVec.toNat_ofNat]
      omega
    refine ⟨_, mem_addrsFrom hended ?_ ?_ ?_, by rw [hq]; omega⟩
    all_goals rw [hq]
    · omega
    · simp only [pageSize]
      omega
    · simp only [pageSize]
      omega

/-- Their numbers are different. -/
lemma pairwise_addrsFrom (hended : (e.addrsFrom n p).length < n) :
    (e.addrsFrom n p).Pairwise fun q q' => q.toNat / pageSize ≠ q'.toNat / pageSize := by
  have hlen := lengthLow_le_of_ended hended
  by_cases hp : p.toNat < 0xFFFFF000
  · refine (addrsFrom_of_lt hlen hp).2.imp fun hle => ?_
    simp only [pageSize] at hle ⊢
    omega
  · cases n with
    | zero => exact List.Pairwise.nil
    | succ n =>
      -- behind the last page the loop goes on with the first one
      have hnext := toNat_add_pageWord_of_le (not_lt.mp hp)
      rw [MapEntry.addrsFrom]
      split
      · simp only [pageSize] at *
        obtain ⟨hmem, hpair⟩ := addrsFrom_of_lt (n := n) (p := p + pageWord) (e := e)
          (by simp only [pageSize]; omega) (by omega)
        refine pairwise_cons.mpr ⟨fun q hq => ?_, hpair.imp fun hle => ?_⟩
        · obtain ⟨-, hmod, hend⟩ := hmem q hq
          simp only [pageSize] at *
          omega
        · simp only [pageSize] at hle
          omega
      · exact List.Pairwise.nil

lemma nodup_pageAddrs (hended : e.counts = true → (e.addrsFrom n e.baseAddrLow).length < n) :
    (e.pageAddrs n).Nodup := by
  unfold MapEntry.pageAddrs
  split
  · rename_i hcounts
    refine pairwise_map.mpr ((pairwise_addrsFrom (hended hcounts)).imp fun hne heq => hne ?_)
    have hnum := congrArg BitVec.toNat heq
    rw [frame_toNat, frame_toNat] at hnum
    simp only [pageSize] at hnum ⊢
    omega
  · exact nodup_nil

/-- The numbers of the pages of an entry. -/
lemma hasPage_iff (hended : (e.addrsFrom n e.baseAddrLow).length < n) (hcounts : e.counts = true)
    (k : ℕ) : e.HasPage k ↔ ∃ q ∈ e.addrsFrom n e.baseAddrLow, q.toNat / pageSize = k := by
  rw [MapEntry.HasPage, and_iff_right hcounts]
  split
  · rename_i hbase
    exact (exists_mem_addrsFrom hended hbase k).symm
  · rename_i hbase
    have hnext := toNat_add_pageWord_of_le (not_lt.mp hbase)
    have hlt := e.baseAddrLow.isLt
    cases n with
    | zero => simp at hended
    | succ n =>
      rw [MapEntry.addrsFrom] at hended ⊢
      by_cases htest : e.baseAddrLow + pageWord < e.lengthLow
      · rw [if_pos htest] at hended ⊢
        rw [length_cons, Nat.add_lt_add_iff_right] at hended
        rw [lt_def, hnext] at htest
        -- the last page, and then those from the first one on
        have hrest := exists_mem_addrsFrom hended (by rw [hnext]; simp only [pageSize]; omega) k
        rw [exists_mem_cons_iff, hrest, hnext]
        simp only [pageSize] at *
        omega
      · rw [if_neg htest]
        rw [lt_def, hnext] at htest
        simp only [not_mem_nil, false_and, exists_false, iff_false, pageSize] at *
        omega

/-- The pages that are accounted for an entry are those of `HasPage`. -/
lemma mem_pageAddrs_iff (hended : e.counts = true → (e.addrsFrom n e.baseAddrLow).length < n) :
    a ∈ e.pageAddrs n ↔ ∃ k, a.toNat = k * pageSize ∧ e.HasPage k := by
  unfold MapEntry.pageAddrs
  split
  · rename_i hcounts
    simp only [hasPage_iff (hended hcounts) hcounts, List.mem_map]
    constructor
    · rintro ⟨q, hq, rfl⟩
      exact ⟨_, frame_toNat q, q, hq, rfl⟩
    · rintro ⟨k, hk, q, hq, rfl⟩
      exact ⟨q, hq, eq_of_toNat_eq ((frame_toNat q).trans hk.symm)⟩
  · rename_i hcounts
    simp [MapEntry.HasPage, hcounts]

/-! ## Plain entries -/

section

variable (h : mbt.Plain x)
include h

lemma base64_of_plain : x.2.base64 = x.2.baseAddrLow.toNat := by
  simp [MapEntry.base64, h.2.1]

lemma mem_usableRegions (hmem : x ∈ seen) (hcounts : x.2.counts = true) :
    x.2 ∈ mbt.usableRegions seen := by
  have htype : x.2.type = 1 := by
    simp only [MapEntry.counts, Bool.and_eq_true, decide_eq_true_eq] at hcounts
    exact hcounts.1.1
  exact mem_map.mpr ⟨x, mem_filter.mpr ⟨hmem, by simp [h.1, htype]⟩, rfl⟩

variable {k : ℕ} (hk : x.2.HasPage k)
include hk

lemma bounds_of_plain : x.2.baseAddrLow.toNat / pageSize ≤ k ∧
    x.2.baseAddrLow.toNat % pageSize + (k + 1) * pageSize < x.2.lengthLow.toNat := by
  have hpage := hk.2
  rwa [if_pos h.2.2] at hpage

lemma last_byte_of_plain : x.2.base64 ≤ k * pageSize + (pageSize - 1) ∧
    k * pageSize + pageSize ≤ x.2.base64 + x.2.length64 := by
  obtain ⟨hle, hend⟩ := bounds_of_plain h hk
  rw [base64_of_plain h, MapEntry.length64]
  simp only [pageSize] at *
  omega

/-- A page of a plain entry lies in the region, unless it is the first one and starts before it. -/
lemma contains_of_plain
    (hfirst : Aligned x.2.baseAddrLow ∨ x.2.baseAddrLow.toNat / pageSize ≠ k) :
    x.2.Contains (k * pageSize) := by
  refine ⟨?_, (last_byte_of_plain h hk).2⟩
  obtain ⟨hle, -⟩ := bounds_of_plain h hk
  have hframe := frame_toNat x.2.baseAddrLow
  rw [base64_of_plain h]
  rcases hfirst with halign | hne
  · have heq : frame x.2.baseAddrLow = x.2.baseAddrLow := halign
    rw [heq] at hframe
    simp only [pageSize] at *
    omega
  · simp only [pageSize] at *
    omega

end

/-! ## Regions that do not overlap -/

variable (hapart : (mbt.usableRegions seen).Pairwise MapEntry.Apart)

include hapart

/-- Two plain entries have no page in common. -/
lemma pairwise_disjoint_of_plain :
    seen.Pairwise fun x y => mbt.Plain x → mbt.Plain y → ∀ k, x.2.HasPage k → ¬ y.2.HasPage k := by
  rw [Multiboot.usableRegions, pairwise_map, pairwise_filter] at hapart
  refine hapart.imp fun {x y} hxy hx hy k hkx hky => ?_
  have htype {e : MapEntry} (hc : e.counts = true) : e.type = 1 := by
    simp only [MapEntry.counts, Bool.and_eq_true, decide_eq_true_eq] at hc
    exact hc.1.1
  have hboth := hxy (by simp [hx.1, htype hkx.1]) (by simp [hy.1, htype hky.1])
  -- the last byte of the page would be in both regions
  have hlx := last_byte_of_plain hx hkx
  have hly := last_byte_of_plain hy hky
  rw [MapEntry.Apart] at hboth
  simp only [pageSize] at *
  omega

/-- A page that starts before a plain entry does is in no usable region. -/
lemma aligned_of_contains (h : mbt.Plain x) (hmem : x ∈ seen)
    (hcounts : x.2.counts = true) (hlt : x.2.baseAddrLow.toNat + pageSize < x.2.lengthLow.toNat)
    (he : e ∈ mbt.usableRegions seen)
    (hcontains : e.Contains (x.2.baseAddrLow.toNat / pageSize * pageSize)) :
    Aligned x.2.baseAddrLow := by
  have hframe := frame_toNat x.2.baseAddrLow
  have hbase := base64_of_plain h
  obtain ⟨hlow, hhigh⟩ := hcontains
  by_cases heq : e = x.2
  · -- the region itself starts with the page
    subst heq
    refine eq_of_toNat_eq ?_
    rw [← frame, hframe]
    rw [hbase] at hlow
    simp only [pageSize] at *
    omega
  · have hsymm : Std.Symm MapEntry.Apart := ⟨fun _ _ => Or.symm⟩
    have happ := hapart.forall he (mem_usableRegions h hmem hcounts) heq
    rw [MapEntry.Apart, hbase, MapEntry.length64, MapEntry.length64] at happ
    rw [MapEntry.length64] at hhigh
    simp only [pageSize] at *
    omega

/-- The pages of all entries are well accounted exactly if the entries fit. -/
lemma accountedAddrs_fit_iff (top : Word) (hended : ∀ x ∈ seen, x.2.counts = true →
      (x.2.addrsFrom n x.2.baseAddrLow).length < n) :
    ((accountedAddrs n (seen.map Prod.snd)).Nodup ∧
      ∀ a ∈ accountedAddrs n (seen.map Prod.snd), ¬ a < top →
        ∃ e ∈ mbt.usableRegions seen, e.Contains a.toNat) ↔ EntriesFit mbt seen top := by
  have haddrs : accountedAddrs n (seen.map Prod.snd) = seen.flatMap fun x => x.2.pageAddrs n := by
    rw [accountedAddrs, flatMap_map]
  have hpage {x : Word × MapEntry} (hx : x ∈ seen) {a : Word} :
      a ∈ x.2.pageAddrs n ↔ ∃ k, a.toNat = k * pageSize ∧ x.2.HasPage k :=
    mem_pageAddrs_iff (hended x hx)
  -- the address of a page that is accounted
  have hword {x : Word × MapEntry} (hx : x ∈ seen) {k : ℕ} (hk : x.2.HasPage k) :
      ∃ a ∈ x.2.pageAddrs n, a.toNat = k * pageSize := by
    obtain ⟨q, -, hq⟩ := (hasPage_iff (hended x hx hk.1) hk.1 k).mp hk
    have ha : (frame q).toNat = k * pageSize := by rw [frame_toNat, hq]
    exact ⟨frame q, (hpage hx).mpr ⟨k, ha, hk⟩, ha⟩
  have hnodup : (accountedAddrs n (seen.map Prod.snd)).Nodup ↔
      seen.Pairwise fun x y => ∀ k, x.2.HasPage k → ¬ y.2.HasPage k := by
    rw [haddrs, nodup_flatMap, and_iff_right fun x hx => nodup_pageAddrs (hended x hx)]
    refine List.Pairwise.iff_of_mem fun {x y} hx hy =>
      ⟨fun hdisj k hkx hky => ?_, fun hnot a hax hay => ?_⟩
    · obtain ⟨a, ha, hak⟩ := hword hx hkx
      exact hdisj ha ((hpage hy).mpr ⟨k, hak, hky⟩)
    · obtain ⟨k, hk, hkx⟩ := (hpage hx).mp hax
      obtain ⟨k', hk', hky⟩ := (hpage hy).mp hay
      obtain rfl : k = k' := by
        simp only [pageSize] at hk hk'
        omega
      exact hnot k hkx hky
  have hinside : (∀ a ∈ accountedAddrs n (seen.map Prod.snd), ¬ a < top →
        ∃ e ∈ mbt.usableRegions seen, e.Contains a.toNat) ↔
      ∀ x ∈ seen, ∀ k, x.2.HasPage k →
        k * pageSize < top.toNat ∨ ∃ e ∈ mbt.usableRegions seen, e.Contains (k * pageSize) := by
    rw [haddrs]
    constructor
    · intro hall x hx k hk
      obtain ⟨a, ha, hak⟩ := hword hx hk
      refine or_iff_not_imp_left.mpr fun hge => ?_
      rw [← hak]
      exact hall a (mem_flatMap.mpr ⟨x, hx, ha⟩) (by rwa [lt_def, hak])
    · intro hall a ha hge
      obtain ⟨x, hx, ha⟩ := mem_flatMap.mp ha
      obtain ⟨k, hak, hk⟩ := (hpage hx).mp ha
      rw [hak]
      exact (hall x hx k hk).resolve_left (by rwa [lt_def, hak] at hge)
  rw [hnodup, hinside]
  constructor
  · rintro ⟨hpair, hall⟩
    refine ⟨fun x hx hplain hcounts hlt => ?_, fun x hx _ => hall x hx, ?_⟩
    swap
    · refine hpair.imp ?_
      intro x y hxy _
      exact hxy
    have hfirst : x.2.HasPage (x.2.baseAddrLow.toNat / pageSize) := by
      refine ⟨hcounts, ?_⟩
      rw [if_pos hplain.2.2]
      simp only [pageSize] at *
      omega
    rcases hall x hx _ hfirst with htop | ⟨e, he, hcontains⟩
    · exact .inr (by rwa [lt_def, frame_toNat])
    · exact .inl (aligned_of_contains hapart hplain hx hcounts hlt he hcontains)
  · intro hfit
    refine ⟨?_, fun x hx k hk => ?_⟩
    · refine List.Pairwise.imp₂ (fun x y hplain hother => ?_)
        (pairwise_disjoint_of_plain hapart) hfit.apart
      by_cases hboth : mbt.Plain x ∧ mbt.Plain y
      · exact hplain hboth.1 hboth.2
      · exact hother hboth
    · by_cases hplain : mbt.Plain x
      · refine or_iff_not_imp_left.mpr fun hge => ?_
        obtain ⟨hle, hend⟩ := bounds_of_plain hplain hk
        refine ⟨x.2, mem_usableRegions hplain hx hk.1, contains_of_plain hplain hk ?_⟩
        refine (hfit.plain x hx hplain hk.1 ?_).imp_right ?_
        · simp only [pageSize] at *
          omega
        · rintro htop rfl
          rw [lt_def, frame_toNat] at htop
          exact hge htop
      · exact hfit.others x hx hplain k hk

omit hapart

/-- What the array says about the pages is what the entries say. -/
lemma wellAccounted_iff_addrs {kernelEnd : Word} {b : Booted}
    (h : InitSpec kernelEnd mbt (seen.map Prod.snd) b) :
    WellAccounted mbt seen b ↔
      (accountedAddrs ((countPages (seen.map Prod.snd)).toNat + 1) (seen.map Prod.snd)).Nodup ∧
      ∀ a ∈ accountedAddrs ((countPages (seen.map Prod.snd)).toNat + 1) (seen.map Prod.snd),
        ¬ a < b.endOfKernel → ∃ e ∈ mbt.usableRegions seen, e.Contains a.toNat := by
  set as := accountedAddrs ((countPages (seen.map Prod.snd)).toNat + 1) (seen.map Prod.snd)
  have hlen : b.accounted = as.length := h.accounted_eq
  have hget {i : ℕ} (hi : i < as.length) : as[i] = b.phys.address (.ram i) := by
    have hsome := h.address_of_lt (hlen.symm ▸ hi)
    rwa [List.getElem?_eq_getElem hi, some.injEq] at hsome
  constructor
  · intro hwell
    refine ⟨nodup_iff_injective_get.mpr fun i j hij => ?_, fun a ha hge => ?_⟩
    · refine Fin.ext (hwell.distinct i j (hlen.symm ▸ i.isLt) (hlen.symm ▸ j.isLt) ?_)
      rw [← hget i.isLt, ← hget j.isLt]
      exact hij
    · obtain ⟨i, hi, rfl⟩ := mem_iff_getElem.mp ha
      have hi' : i < b.phys.pages.length := (hlen.symm ▸ hi).trans_le h.accounted_le
      have hpg := List.getElem?_eq_getElem hi'
      have haddress : (b.phys.pages[i]).address = as[i] := by
        rw [hget hi]
        simp [Physical.address, Physical.page, hpg]
      rw [← haddress] at hge ⊢
      refine hwell.inside i _ (hlen.symm ▸ hi) hpg ?_
      rw [(h.hasStatus hpg).1, decide_eq_false_iff_not]
      exact hge
  · rintro ⟨hnodup, hinside⟩
    refine ⟨fun i j hi hj heq => ?_, fun i pg hi hpg hstatus => ?_⟩
    · rw [hlen] at hi hj
      rw [← hget hi, ← hget hj] at heq
      exact (hnodup.getElem_inj_iff).mp heq
    · have hi' : i < as.length := hlen ▸ hi
      have haddress : pg.address = as[i] := by
        rw [hget hi']
        simp [Physical.address, Physical.page, hpg]
      rw [(h.hasStatus hpg).1, decide_eq_false_iff_not] at hstatus
      rw [haddress] at hstatus ⊢
      exact hinside _ (getElem_mem hi') hstatus

/-- The loop over the pages of an entry ends: the array has room for them. -/
lemma InitSpec.ended {kernelEnd : Word} {b : Booted} {es : List MapEntry}
    (h : InitSpec kernelEnd mbt es b) (he : e ∈ es) (hcounts : e.counts = true) :
    (e.addrsFrom ((countPages es).toNat + 1) e.baseAddrLow).length <
      (countPages es).toNat + 1 := by
  have hle : (e.pageAddrs ((countPages es).toNat + 1)).length ≤
      (accountedAddrs ((countPages es).toNat + 1) es).length :=
    (sublist_flatten_of_mem (mem_map_of_mem he)).length_le
  rw [MapEntry.pageAddrs, if_pos hcounts, length_map] at hle
  exact Nat.lt_succ_of_le (hle.trans h.length_le)

lemma countPages_eq (es : List MapEntry) : countPages es = BitVec.ofNat 32
    (es.map fun e => if e.counts then e.lengthLow.toNat / pageSize else 0).sum := by
  have hone (e : MapEntry) : e.pageCount =
      BitVec.ofNat 32 (if e.counts then e.lengthLow.toNat / pageSize else 0) := by
    unfold MapEntry.pageCount
    split
    · refine eq_of_toNat_eq ?_
      rw [toNat_udiv, BitVec.toNat_ofNat, Nat.mod_eq_of_lt]
      · rfl
      · exact (Nat.div_le_self _ _).trans_lt e.lengthLow.isLt
    · rfl
  have hfold (t : Word) : es.foldl (fun t e => t + e.pageCount) t = t + BitVec.ofNat 32
      (es.map fun e => if e.counts then e.lengthLow.toNat / pageSize else 0).sum := by
    induction es generalizing t with
    | nil => simp
    | cons e es ih =>
      rw [foldl_cons, ih, hone, map_cons, sum_cons, BitVec.ofNat_add, BitVec.add_assoc]
  rw [countPages, hfold, zero_add]

/-- When the pages are well accounted, for a map whose usable regions do not overlap. -/
theorem wellAccounted_iff {kernelEnd : Word} {b : Booted}
    (hinit : mm2PhysicalInit n kernelEnd mbt = some b) (hseen : mbt.seen n = some seen)
    (hapart : (mbt.usableRegions seen).Pairwise MapEntry.Apart) :
    WellAccounted mbt seen b ↔ EntriesFit mbt seen (mbt.top seen kernelEnd) := by
  obtain ⟨seen', hseen', h⟩ := initSpec hinit
  obtain rfl : seen = seen' := some.inj (hseen.symm.trans hseen')
  have htop : b.endOfKernel = mbt.top seen kernelEnd := by
    rw [h.endOfKernel_eq, countPages_eq, Multiboot.top, List.map_map]
    rfl
  rw [wellAccounted_iff_addrs h, htop]
  exact accountedAddrs_fit_iff hapart _ fun x hx => h.ended (mem_map_of_mem hx)

/-- The first megabyte, with a kernel in its first half. -/
theorem wellAccounted_megabyte : ∃ b seen,
    mm2PhysicalInit 4 0x80000 (.ofEntries [.usable 0 0 0x100000]) = some b ∧
      b.accounted = 255 ∧ WellAccounted (.ofEntries [.usable 0 0 0x100000]) seen b := by
  have hfacts : (mm2PhysicalInit 4 0x80000 (.ofEntries [.usable 0 0 0x100000])).map
      (fun b => b.accounted) = some 255 := by decide +kernel
  have hseen : (Multiboot.ofEntries [.usable 0 0 0x100000]).seen 4 =
      some [(0x8000, .usable 0 0 0x100000), (0x8018, ⟨0x10000, 0, 0, 0, 0, 0⟩)] := by decide
  obtain ⟨b, hinit, hacc⟩ := map_eq_some_iff.mp hfacts
  refine ⟨b, _, hinit, hacc, (wellAccounted_iff hinit hseen ?_).mpr ⟨?_, ?_, ?_⟩⟩
  · have hone : (Multiboot.ofEntries [.usable 0 0 0x100000]).usableRegions
        [(0x8000, .usable 0 0 0x100000), (0x8018, ⟨0x10000, 0, 0, 0, 0, 0⟩)] =
        [.usable 0 0 0x100000] := by decide
    rw [hone]
    exact pairwise_singleton _ _
  · intro x hx _ hcounts _
    rcases mem_pair.mp hx with rfl | rfl
    · exact .inl (by decide : _ &&& addressMask = _)
    · exact absurd hcounts (by decide)
  · intro x hx hplain k hk
    rcases mem_pair.mp hx with rfl | rfl
    · exact absurd (by decide) hplain
    · exact absurd hk.1 (by decide)
  · refine pairwise_pair.mpr fun _ k _ hk => ?_
    exact absurd hk.1 (by decide)

/-- Of two usable regions of one page, 4 GiB apart, the low halves of the addresses are the same:
one page is accounted twice. -/
theorem exists_not_wellAccounted : ∃ mbt b seen, mm2PhysicalInit 4 0x200000 mbt = some b ∧
    mbt.seen 4 = some seen ∧ (mbt.usableRegions seen).Pairwise MapEntry.Apart ∧
    b.phys.pages = [⟨0xFFFFF000⟩, ⟨0xFFFFF000⟩] ∧ ¬ WellAccounted mbt seen b := by
  refine ⟨.ofEntries [.usable 0 0xFFFFF000 0x1000, .usable 1 0xFFFFF000 0x1000],
    ⟨⟨[⟨0xFFFFF000⟩, ⟨0xFFFFF000⟩], [], 0, 2⟩, 0x200008, 2⟩,
    [(0x8000, .usable 0 0xFFFFF000 0x1000), (0x8018, .usable 1 0xFFFFF000 0x1000),
      (0x8030, ⟨0x10000, 0, 0, 0, 0, 0⟩)], by decide, by decide, ?_, rfl, fun hwell => ?_⟩
  · have htwo : (Multiboot.ofEntries
        [.usable 0 0xFFFFF000 0x1000, .usable 1 0xFFFFF000 0x1000]).usableRegions
          [(0x8000, .usable 0 0xFFFFF000 0x1000), (0x8018, .usable 1 0xFFFFF000 0x1000),
            (0x8030, ⟨0x10000, 0, 0, 0, 0, 0⟩)] =
        [.usable 0 0xFFFFF000 0x1000, .usable 1 0xFFFFF000 0x1000] := by decide
    rw [htwo]
    exact pairwise_pair.mpr (.inl (by decide))
  · exact absurd (hwell.distinct 0 1 (by decide) (by decide) rfl) (by decide)

end Memory
