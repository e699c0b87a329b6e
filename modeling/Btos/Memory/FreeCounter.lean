import Btos.Memory.MemoryMap

/-!
# The number of free pages

The counter `free_pages`, which the kernel shows to programs, and the elements of the page array
that are free. Freeing a page that was not in use raises the counter, and marking a free page as
used does not lower it.

Main result: `freePages_eq_freeCount_iff`.
-/

open List Option Bool

namespace Memory

namespace Physical

variable (ph : Physical)

/-- `page->status(s)`. -/
def setStatusOf (s : PageStatus) : PageRef → Physical
  | .ram i => ph.setStatus i s
  | .io i => { ph with ioPages := ph.ioPages.modify i fun pg => pg.setStatus s }

/-- `physical_mark_used`. -/
def markUsed (addr : Word) : Physical :=
  match ph.findPage (addr &&& addressMask) with
  | none => ph
  | some r => ph.setStatusOf .inUse r

/-- `physical_get_io_page`. -/
def getIoPage (addr : Word) : PageRef × Physical :=
  match ph.findPage (addr &&& addressMask) with
  | some r => (r, ph)
  | none =>
      (.io ph.ioPages.length,
        { ph with ioPages := ph.ioPages ++ [⟨(addr &&& addressMask) ||| PageStatus.mmio.code⟩] })

/-- The calls. -/
inductive Call where
  /-- `physical_alloc`. -/
  | alloc (maxAddr : Word)
  /-- `physical_free` of a page. -/
  | free (r : PageRef)
  /-- `physical_free` of an address. -/
  | freeAddr (addr : Word)
  /-- `physical_mark_used`. -/
  | markUsed (addr : Word)
  /-- `physical_get_io_page`. -/
  | getIoPage (addr : Word)

/-- What a call leaves, if it returns. -/
def call : Call → Option Physical
  | .alloc maxAddr => (ph.alloc maxAddr).map Prod.snd
  | .free r => some (ph.free r)
  | .freeAddr addr => some (ph.freeAddr addr)
  | .markUsed addr => some (ph.markUsed addr)
  | .getIoPage addr => some (ph.getIoPage addr).2

/-- What a sequence of calls leaves. -/
def calls (cs : List Call) : Option Physical := cs.foldlM call ph

/-- The number of elements of the array that are free. -/
def freeCount : ℕ := ph.pages.countP fun pg => pg.hasStatus .free

/-! ## What is not counted -/

/-- Freeing a page raises the counter, unless it is the page of a device. It adds a free page to the
array only if it is one of the array and was in use. -/
def uncountedFree (r : PageRef) : ℕ :=
  match r, ph.page r with
  | _, none => 0
  | .ram _, some pg => if pg.hasStatus .inUse || pg.hasStatus .mmio then 0 else 1
  | .io _, some pg => if pg.hasStatus .mmio then 0 else 1

/-- A page of the array that is marked as used may have been free. -/
def uncountedMark : PageRef → ℕ
  | .ram i => if (ph.pages[i]?).any fun pg => pg.hasStatus .free then 1 else 0
  | .io _ => 0

/-- By how much more a call raises the counter than the number of free pages. -/
def uncounted : Call → ℕ
  | .alloc _ => 0
  | .free r => ph.uncountedFree r
  | .freeAddr addr => ((ph.findPage (addr &&& addressMask)).map ph.uncountedFree).getD 0
  | .markUsed addr => ((ph.findPage (addr &&& addressMask)).map ph.uncountedMark).getD 0
  | .getIoPage _ => 0

/-- The same for a sequence of calls. -/
def uncountedAll : Physical → List Call → ℕ
  | _, [] => 0
  | ph, c :: cs => ph.uncounted c + ((ph.call c).map fun ph' => uncountedAll ph' cs).getD 0

/-- The counter is the number of free pages and `d` more, modulo `2 ^ 32`. -/
def OffBy (d : ℕ) : Prop := ph.freePages = BitVec.ofNat 32 (ph.freeCount + d)

variable {ph} {d i : ℕ} {pg : PhysPage}

lemma countP_modify {α : Type*} (p : α → Bool) (f : α → α) {l : List α} {a : α}
    (h : l[i]? = some a) :
    (l.modify i f).countP p + (p a).toNat = l.countP p + (p (f a)).toNat := by
  induction l generalizing i with
  | nil => simp at h
  | cons b l ih =>
    cases i with
    | zero =>
      obtain rfl : b = a := by simpa using h
      simp only [modify_zero_cons, countP_cons]
      cases p b <;> cases p (f b) <;> simp
    | succ i =>
      have htail := ih (by simpa using h)
      simp only [modify_succ_cons, countP_cons]
      omega

lemma freeCount_setStatus (h : ph.pages[i]? = some pg) (s : PageStatus) :
    (ph.setStatus i s).freeCount + (pg.hasStatus .free).toNat =
      ph.freeCount + (decide (s = .free)).toNat := by
  have hcount := countP_modify (fun pg : PhysPage => pg.hasStatus .free)
    (fun pg => pg.setStatus s) h
  rwa [PhysPage.hasStatus_setStatus] at hcount

lemma hasStatus_of_ne {s s' : PageStatus} (h : pg.hasStatus s = true) (hne : s ≠ s') :
    pg.hasStatus s' = false := by
  have hcode : pg.value &&& ~~~addressMask = s.code := of_decide_eq_true h
  rw [PhysPage.hasStatus, hcode]
  cases s <;> cases s' <;> first | exact absurd rfl hne | decide

/-! ## Single calls -/

section

variable (h : ph.OffBy d)
include h

variable {ph' : Physical}

/-- A page that is given out is taken off the counter. -/
lemma OffBy.alloc {maxAddr : Word} {r : PageRef}
    (halloc : ph.alloc maxAddr = some (r, ph')) : ph'.OffBy d := by
  obtain ⟨i, hloop, heq⟩ := map_eq_some_iff.mp halloc
  obtain ⟨pg, hpg, hfree, -⟩ := allocLoop_spec hloop
  cases heq
  have hcount := freeCount_setStatus hpg .inUse
  rw [hfree] at hcount
  have hprev : ph.freePages = BitVec.ofNat 32 (ph.freeCount + d) := h
  have hsucc : ph.freeCount + d = ((ph.setStatus i .inUse).freeCount + d) + 1 := by
    simp at hcount
    omega
  rw [hprev, hsucc, BitVec.ofNat_add]
  exact BitVec.add_sub_cancel _ _

lemma OffBy.succ {k : ℕ}
    (hpages : ph'.freePages = ph.freePages + 1) (hcount : ph'.freeCount + k = ph.freeCount + 1) :
    ph'.OffBy (d + k) := by
  have hprev : ph.freePages = BitVec.ofNat 32 (ph.freeCount + d) := h
  have hsum : ph'.freeCount + (d + k) = ph.freeCount + d + 1 := by omega
  rw [OffBy, hpages, hprev, hsum, BitVec.ofNat_add (ph.freeCount + d)]
  rfl

lemma OffBy.free (r : PageRef) : (ph.free r).OffBy (d + ph.uncountedFree r) := by
  cases r with
  | ram i =>
    cases hpg : ph.pages[i]? with
    | none => simpa [Physical.free, uncountedFree, page, hpg] using h
    | some pg =>
      simp only [Physical.free, uncountedFree, page, hpg]
      by_cases hu : pg.hasStatus .inUse = true
      · -- in use: one free page more, and the counter says so
        have hfree : pg.hasStatus .free = false := hasStatus_of_ne hu (by decide)
        have hmmio : pg.hasStatus .mmio = false := hasStatus_of_ne hu (by decide)
        have hcount := freeCount_setStatus hpg .free
        rw [hfree] at hcount
        simp only [hu, hmmio, Bool.true_or, if_true]
        exact h.succ rfl (by simpa [freeCount] using hcount)
      · rw [not_eq_true] at hu
        by_cases hm : pg.hasStatus .mmio = true
        · simpa [hu, hm] using h
        · rw [not_eq_true] at hm
          simp only [hu, hm, Bool.or_false, false_eq_true, if_false]
          exact h.succ rfl rfl
  | io i =>
    cases hpg : ph.ioPages[i]? with
    | none => simpa [Physical.free, uncountedFree, page, hpg] using h
    | some pg =>
      have hpages : (ph.free (.io i)).freeCount = ph.freeCount := by
        rw [freeCount, free_io_pages, freeCount]
      by_cases hm : pg.hasStatus .mmio = true
      · have hu : pg.hasStatus .inUse = false := hasStatus_of_ne hm (by decide)
        simpa [Physical.free, uncountedFree, page, hpg, hm, hu] using h
      · rw [not_eq_true] at hm
        have huncounted : ph.uncountedFree (.io i) = 1 := by
          simp [uncountedFree, page, hpg, hm]
        rw [huncounted]
        refine h.succ ?_ (by rw [hpages])
        simp only [Physical.free, hpg, hm, false_eq_true, if_false]
        split <;> rfl

lemma OffBy.setStatusOf_inUse (r : PageRef) :
    (ph.setStatusOf .inUse r).OffBy (d + ph.uncountedMark r) := by
  cases r with
  | io i => exact h
  | ram i =>
    have hprev : ph.freePages = BitVec.ofNat 32 (ph.freeCount + d) := h
    rw [OffBy, setStatusOf, uncountedMark]
    show ph.freePages = _
    rw [hprev]
    congr 1
    cases hpg : ph.pages[i]? with
    | none =>
      have hsame : (ph.setStatus i .inUse).freeCount = ph.freeCount := by
        rw [freeCount, Physical.setStatus, modify_eq_self (getElem?_eq_none_iff.mp hpg), freeCount]
      simp [hsame]
    | some pg =>
      have hcount := freeCount_setStatus hpg .inUse
      cases hfree : pg.hasStatus .free with
      | true =>
        rw [hfree] at hcount
        simp [hfree] at hcount ⊢
        omega
      | false =>
        rw [hfree] at hcount
        simp [hfree] at hcount ⊢
        omega

/-- What a call does to the counter. -/
lemma OffBy.call {c : Call} (hcall : ph.call c = some ph') : ph'.OffBy (d + ph.uncounted c) := by
  cases c with
  | alloc maxAddr =>
    have hmap : (ph.alloc maxAddr).map Prod.snd = some ph' := hcall
    obtain ⟨⟨r, ph1⟩, halloc, heq⟩ := map_eq_some_iff.mp hmap
    exact heq ▸ h.alloc halloc
  | free r =>
    cases hcall
    exact h.free r
  | freeAddr addr =>
    cases hcall
    rw [Physical.freeAddr, uncounted]
    cases ph.findPage (addr &&& addressMask) with
    | none => exact h
    | some r => exact h.free r
  | markUsed addr =>
    cases hcall
    rw [Physical.markUsed, uncounted]
    cases ph.findPage (addr &&& addressMask) with
    | none => exact h
    | some r => exact h.setStatusOf_inUse r
  | getIoPage addr =>
    cases hcall
    rw [Physical.getIoPage]
    split <;> exact h

lemma OffBy.calls {cs : List Call}
    (hcalls : ph.calls cs = some ph') : ph'.OffBy (d + ph.uncountedAll cs) := by
  induction cs generalizing ph d with
  | nil =>
    cases hcalls
    exact h
  | cons c cs ih =>
    rw [Physical.calls, foldlM_cons] at hcalls
    obtain ⟨ph1, hcall, hrest⟩ := bind_eq_some_iff.mp hcalls
    have hoff := ih (h.call hcall) hrest
    rw [uncountedAll, hcall, map_some, getD_some, ← Nat.add_assoc]
    exact hoff

end

/-- No call changes the number of pages. -/
lemma length_pages_call {c : Call} {ph' : Physical} (hcall : ph.call c = some ph') :
    ph'.pages.length = ph.pages.length := by
  have hset (r : PageRef) (s : PageStatus) :
      (ph.setStatusOf s r).pages.length = ph.pages.length := by
    cases r <;> simp [setStatusOf, setStatus]
  have hfree (r : PageRef) : (ph.free r).pages.length = ph.pages.length := by
    cases r with
    | io i => rw [free_io_pages]
    | ram i =>
      rw [Physical.free]
      split
      · rfl
      · dsimp only
        split <;> split <;> simp [setStatus]
  cases c with
  | alloc maxAddr =>
    have hmap : (ph.alloc maxAddr).map Prod.snd = some ph' := hcall
    obtain ⟨⟨r, ph1⟩, halloc, heq⟩ := map_eq_some_iff.mp hmap
    obtain ⟨i, -, hpair⟩ := map_eq_some_iff.mp halloc
    rw [← heq, ← (Prod.mk.inj hpair).2]
    exact hset (.ram i) .inUse
  | free r =>
    cases hcall
    exact hfree r
  | freeAddr addr =>
    cases hcall
    rw [Physical.freeAddr]
    split
    · rfl
    · exact hfree _
  | markUsed addr =>
    cases hcall
    rw [Physical.markUsed]
    split
    · rfl
    · exact hset _ _
  | getIoPage addr =>
    cases hcall
    rw [Physical.getIoPage]
    split <;> rfl

lemma length_pages_calls {cs : List Call} {ph' : Physical} (hcalls : ph.calls cs = some ph') :
    ph'.pages.length = ph.pages.length :=
  Loop.foldlM_invariant (fun _ _ _ _ hlen hcall => (length_pages_call hcall).trans hlen) rfl hcalls

end Physical

/-! ## From the start -/

/-- At the start the pages below the end of the kernel are in use, but the counter has them. -/
lemma InitSpec.offBy {kernelEnd : Word} {mbt : Multiboot} {es : List MapEntry} {b : Booted}
    (h : InitSpec kernelEnd mbt es b) :
    b.phys.OffBy (b.phys.pages.countP fun pg => pg.address < b.endOfKernel) := by
  have hfree : b.phys.freeCount =
      b.phys.pages.countP fun pg => !decide (pg.address < b.endOfKernel) := by
    rw [Physical.freeCount]
    apply countP_congr
    intro pg hmem
    obtain ⟨i, hi⟩ := mem_iff_getElem?.mp hmem
    rw [(h.hasStatus hi).2]
  have hsum : b.phys.freeCount + b.phys.pages.countP (fun pg => pg.address < b.endOfKernel) =
      (countPages es).toNat := by
    rw [← h.length_pages, length_eq_countP_add_countP fun pg => pg.address < b.endOfKernel,
      hfree, Nat.add_comm]
    simp only [Bool.decide_eq_true, decide_not]
  rw [Physical.OffBy, hsum, h.freePages_eq, BitVec.ofNat_toNat, BitVec.setWidth_eq]

/-- When the counter is right after `mm2_physical_init` and any calls: the pages that were in use at
the start and what the calls did not count sum up to 0, modulo `2 ^ 32`. -/
theorem freePages_eq_freeCount_iff {n : ℕ} {kernelEnd : Word} {mbt : Multiboot} {b : Booted}
    {cs : List Physical.Call} {ph : Physical} (hinit : mm2PhysicalInit n kernelEnd mbt = some b)
    (hcalls : b.phys.calls cs = some ph) :
    ph.freePages.toNat = ph.freeCount ↔
      ((b.phys.pages.countP fun pg => pg.address < b.endOfKernel) +
        b.phys.uncountedAll cs) % 2 ^ 32 = 0 := by
  obtain ⟨seen, -, hspec⟩ := initSpec hinit
  have hoff : ph.freePages = BitVec.ofNat 32 (ph.freeCount + _) := hspec.offBy.calls hcalls
  have hlt : ph.freeCount < 2 ^ 32 := by
    have hle : ph.freeCount ≤ ph.pages.length := countP_le_length
    have hlen := Physical.length_pages_calls hcalls
    have htotal := (countPages (seen.map Prod.snd)).isLt
    rw [hspec.length_pages] at hlen
    omega
  rw [hoff, BitVec.toNat_ofNat]
  omega

/-- The last page below 4 GiB, on a machine with a kernel up to `0x200000`. -/
def lastPage : Booted where
  phys := ⟨[⟨0xFFFFF000⟩], [], 0, 1⟩
  endOfKernel := 0x200004
  accounted := 1

/-- The loop over the pages of a region compares the address of a page with the length of the
region, so that a region above the kernel is accounted in full only if it is this page. -/
theorem freePages_eq_freeCount_lastPage :
    mm2PhysicalInit 4 0x200000 (.ofEntries [.usable 0 0xFFFFF000 0x1000]) = some lastPage ∧
      lastPage.phys.calls [.alloc 0xFFFFFFFF, .freeAddr 0xFFFFF000] = some lastPage.phys ∧
      lastPage.phys.freePages.toNat = lastPage.phys.freeCount := by
  have hinit : mm2PhysicalInit 4 0x200000 (.ofEntries [.usable 0 0xFFFFF000 0x1000]) =
      some lastPage := by decide
  have hcalls : lastPage.phys.calls [.alloc 0xFFFFFFFF, .freeAddr 0xFFFFF000] =
      some lastPage.phys := by decide +kernel
  exact ⟨hinit, hcalls, (freePages_eq_freeCount_iff hinit hcalls).mpr (by decide)⟩

/-- Three pages at 1 MiB: three free pages are counted, and none is accounted. -/
theorem exists_freePages_ne_freeCount : ∃ b,
    mm2PhysicalInit 4 0x200000 (.ofEntries [.usable 0 0x100000 0x3000]) = some b ∧
      b.phys.calls [] = some b.phys ∧ b.phys.freePages.toNat = 3 ∧ b.phys.freeCount = 0 :=
  ⟨⟨⟨[⟨1⟩, ⟨1⟩, ⟨1⟩], [], 0, 3⟩, 0x20000C, 0⟩, by decide, rfl, by decide, by decide⟩

end Memory
