import Btos.Memory.Addresses
import Btos.Memory.FreeFrames

/-!
# Which pages of shared memory are the same

Two pages that were filled in by page faults are in the same frame exactly when they are the same
page of the same space. But a mapping over another one frees pages of the other space, and later two
spaces have the same frame.

Main results: `aliases_of_reaches` and `exists_not_aliases`.
-/

open List Option BitVec

namespace Memory

/-- A region of whole pages. -/
structure Region.Whole (r : Region) : Prop where
  addr : Aligned r.addr
  size : Aligned r.size

namespace State

lemma inRegion_iff {addr : Word} {r : Region} : inRegion addr r = true ↔
    r.addr.toNat ≤ addr.toNat ∧ addr.toNat < (r.addr + r.size).toNat := by
  rw [inRegion, Bool.and_eq_true, decide_eq_true_iff, decide_eq_true_iff]
  exact Iff.rfl

lemma inRegion_of_pageOf {a b : Word} {r : Region} (hr : r.Whole) (h : pageOf a = pageOf b)
    (ha : inRegion a r = true) : inRegion b r = true := by
  have hstart := hr.addr.toNat
  have hend := (hr.addr.add hr.size).toNat
  rw [inRegion_iff] at ha ⊢
  simp only [pageOf, pageSize] at *
  omega

end State

/-- The page of its space that a mapping has at an address: `space_addr & MM2_Address_Mask`. -/
def ShmMapping.pageAt (m : ShmMapping) (addr : Word) : Word := frame (addr - m.addr + m.offset)

lemma ShmMapping.pageAt_eq {m : ShmMapping} (haddr : Aligned m.addr) (hoffset : Aligned m.offset)
    {a b : Word} (h : pageOf a = pageOf b) : m.pageAt a = m.pageAt b := by
  have hshift (c : Word) : c - m.addr + m.offset = c + (m.offset - m.addr) := by
    rw [BitVec.sub_eq_add_neg, BitVec.add_assoc, BitVec.add_comm (-m.addr), BitVec.sub_eq_add_neg]
  rw [pageAt, pageAt, hshift, hshift, frame_add (hoffset.sub haddr), frame_add (hoffset.sub haddr),
    frame_eq_of_pageOf h]

namespace State

variable {s s' : State} {d id : ℕ} {a f addr : Word} {r : Region} {m : ShmMapping}

/-! ## The system -/

/-- What processes do with shared memory. -/
inductive ShmAction where
  /-- Another process goes on. -/
  | switch (d : ℕ)
  | create (flags : Word)
  | map (id : ℕ) (addr offset pages flags : Word)
  | fault (addr : Word)

/-- The operation of the memory manager. -/
def ShmAction.toAction : ShmAction → Action
  | .switch d => .switch d
  | .create flags => .shmCreate flags
  | .map id addr offset pages flags => .shmMap id addr offset pages flags
  | .fault addr => .pageFault addr

/-- Processes that begin to share memory. -/
def sharing : System State ShmAction where
  init s := mm2.Reaches FrameSafe s ∧ s.spaces = OrderedMap.empty ∧
    s.mappings = OrderedMap.empty ∧ ∀ d ∈ s.live, (s.dirs d).regions = []
  step s a := s.step a.toAction

/-- The address is one of a mapping of the process with this page directory. -/
def MappedAt (s : State) (d : ℕ) (addr : Word) (m : ShmMapping) : Prop :=
  ∃ r ∈ (s.dirs d).regions, r.pfHandle = .shm ∧ inRegion addr r = true ∧
    s.mappings.lookup r.id = some m

/-- Two pages of mappings that are present are in the same frame if and only if they are the same
page of the same space. -/
def Aliases (s : State) : Prop :=
  ∀ d ∈ s.live, ∀ d' ∈ s.live, ∀ addr addr' m m',
    isPresent (s.stored d (pageOf addr)) = true → isPresent (s.stored d' (pageOf addr')) = true →
    s.MappedAt d addr m → s.MappedAt d' addr' m' →
    (frame (s.stored d (pageOf addr)) = frame (s.stored d' (pageOf addr')) ↔
      m.space = m'.space ∧ m.pageAt addr = m'.pageAt addr')

/-- A process maps shared memory at user addresses where it has no mapping yet, and the ids are
new. -/
def MapsApart (s : State) : ShmAction → Prop
  | .create _ => s.spaces.lookup ((s.spaceIdCounter + 1) % 2 ^ 64) = none
  | .map _ addr _ pages _ =>
      s.mappings.lookup ((s.mappingIdCounter + 1) % 2 ^ 64) = none ∧ s.current ≠ s.kernel ∧
      kernelPages ≤ pageOf addr ∧ pageOf addr + pages.toNat ≤ 2 ^ 20 ∧
      ∀ r ∈ (s.dirs s.current).regions, ∀ i < pages.toNat, inRegion (pageAddr addr i) r = false
  | _ => True

/-! ## The invariant -/

/-- A region of user addresses that belongs to a mapping. -/
structure Served (s : State) (r : Region) : Prop where
  handler : r.pfHandle = .shm
  whole : r.Whole
  user : kernelPages ≤ pageOf r.addr
  mapping : ∃ m, s.mappings.lookup r.id = some m ∧ m.addr = r.addr ∧ Aligned m.offset

/-- What is present of the regions of a process are the pages of the spaces. -/
structure Sharing (s : State) : Prop where
  inv : Inv s
  served : ∀ d ∈ s.live, ∀ r ∈ (s.dirs d).regions, s.Served r
  kernel : (s.dirs s.kernel).regions = []
  disjoint : ∀ d ∈ s.live, ∀ r ∈ (s.dirs d).regions, ∀ r' ∈ (s.dirs d).regions, ∀ a,
    inRegion a r = true → inRegion a r' = true → r = r'
  page_inj : ∀ id a a' f, s.SpaceAt id a f → s.SpaceAt id a' f → a = a'
  backed : ∀ d ∈ s.live, ∀ r ∈ (s.dirs d).regions, ∀ a m, inRegion a r = true →
    s.mappings.lookup r.id = some m → isPresent (s.view d (pageOf a)) = true →
    s.SpaceAt m.space (m.pageAt a) (frame (s.view d (pageOf a)))
  mapped : ∀ d ∈ s.live, ∀ a, kernelPages ≤ pageOf a → isPresent (s.view d (pageOf a)) = true →
    s.InSpace (frame (s.view d (pageOf a))) → ∃ r ∈ (s.dirs d).regions, inRegion a r = true

lemma Served.user_of_inRegion (h : s.Served r) (ha : inRegion a r = true) :
    kernelPages ≤ pageOf a := by
  have huser := h.user
  rw [inRegion_iff] at ha
  simp only [pageOf, pageSize] at *
  omega

lemma inSpace_iff : s.InSpace f ↔ ∃ id a, s.SpaceAt id a f :=
  exists_congr fun _ => spaceHas_iff

lemma SpaceAt.frame_eq {f' : Word} (h : s.SpaceAt id a f) (h' : s.SpaceAt id a f') : f = f' := by
  obtain ⟨space, i, hspace, hpage, rfl⟩ := h
  obtain ⟨space', i', hspace', hpage', rfl⟩ := h'
  rw [hspace, some.injEq] at hspace'
  rw [← hspace', hpage, some.injEq] at hpage'
  rw [hpage']

lemma WF.ne_windowPage (h : WF s) {p : ℕ} (hp : kernelPages ≤ p) : p ≠ s.windowPage := by
  rintro rfl
  exact absurd h.window_lt (not_lt.mpr hp)

/-! ## Steps that change no user page -/

/-- User pages, regions, mappings and the pages of spaces are as they were. -/
structure Quiet (s s' : State) : Prop where
  live_eq : s'.live = s.live
  kernel_eq : s'.kernel = s.kernel
  regions_eq : ∀ d, (s'.dirs d).regions = (s.dirs d).regions
  mappings_eq : s'.mappings = s.mappings
  spaceAt_iff : ∀ id a f, s'.SpaceAt id a f ↔ s.SpaceAt id a f
  view_eq : ∀ d ∈ s.live, ∀ q, kernelPages ≤ q → s'.view d q = s.view d q

lemma Sharing.quiet (h : Sharing s) (hinv : Inv s') (hq : Quiet s s') : Sharing s' := by
  have hserved : ∀ r, s.Served r → s'.Served r := by
    rintro r ⟨hhandler, hwhole, huser, hmapping⟩
    exact ⟨hhandler, hwhole, huser, hq.mappings_eq ▸ hmapping⟩
  refine ⟨hinv, fun d hd r hr => ?_, ?_, fun d hd r hr r' hr' => ?_, fun id a a' f ha ha' => ?_,
    fun d hd r hr a m ha hm hpresent => ?_, fun d hd a ha hpresent hin => ?_⟩
  · rw [hq.live_eq] at hd
    rw [hq.regions_eq] at hr
    exact hserved r (h.served d hd r hr)
  · rw [hq.kernel_eq, hq.regions_eq]
    exact h.kernel
  · rw [hq.live_eq] at hd
    rw [hq.regions_eq] at hr hr'
    exact h.disjoint d hd r hr r' hr'
  · rw [hq.spaceAt_iff] at ha ha'
    exact h.page_inj id a a' f ha ha'
  · rw [hq.live_eq] at hd
    rw [hq.regions_eq] at hr
    rw [hq.mappings_eq] at hm
    rw [hq.view_eq d hd _ ((h.served d hd r hr).user_of_inRegion ha)] at hpresent ⊢
    rw [hq.spaceAt_iff]
    exact h.backed d hd r hr a m ha hm hpresent
  · rw [hq.live_eq] at hd
    rw [hq.view_eq d hd _ ha] at hpresent hin
    rw [hq.regions_eq]
    simp only [inSpace_iff, hq.spaceAt_iff] at hin
    exact h.mapped d hd a ha hpresent (inSpace_iff.mpr hin)

lemma Looked.quiet (h : Looked s s' d) : Quiet s s' where
  __ := h
  spaceAt_iff _ _ _ := spaceAt_congr h.spaces_eq (by rw [h.phys_eq])
  view_eq d' hd' q _ := h.view_eq d' hd' q

lemma quiet_mm2Switch (h : WF s) (n : ℕ) : Quiet s (s.mm2Switch n) where
  live_eq := rfl
  kernel_eq := rfl
  regions_eq d := by
    have hcopy (s : State) (d1 d2 : ℕ) :
        ((s.copyKernelspace d1 d2).dirs d).regions = (s.dirs d).regions := by
      unfold copyKernelspace
      apply modifyDir_field PageDir.regions
      exact fun _ => rfl
    show (((s.copyKernelspace s.kernel s.current).copyKernelspace n s.kernel).dirs d).regions = _
    rw [hcopy, hcopy]
  mappings_eq := rfl
  spaceAt_iff _ _ _ := Iff.rfl
  view_eq d hd q hq := by
    rcases h.view_mm2Switch n hd q with heq | ⟨-, hlt, -⟩
    · exact heq
    · simp only [kernelTables, kernelPages, tableEntries] at *
      omega

lemma quiet_shmCreate {flags : Word}
    (hfresh : s.spaces.lookup ((s.spaceIdCounter + 1) % 2 ^ 64) = none) :
    Quiet s (s.shmCreate flags).2 where
  live_eq := rfl
  kernel_eq := rfl
  regions_eq _ := rfl
  mappings_eq := rfl
  spaceAt_iff _ _ _ := spaceAt_shmCreate hfresh
  view_eq _ _ _ _ := rfl

/-! ## Page faults -/

/-- A frame that was free is no page of a space, so the pages of a space that grows are in different
frames. -/
lemma SpaceGrown.page_inj {s1 : State} {a0 f0 : Word} (hgrown : SpaceGrown s s1 id a0 f0)
    (h : Sharing s) {id' : ℕ} {a a' f : Word} (ha : s1.SpaceAt id' a f)
    (ha' : s1.SpaceAt id' a' f) : a = a' := by
  rcases hgrown.new id' a f ha with hold | ⟨rfl, rfl, rfl, hfree⟩ <;>
    rcases hgrown.new _ a' _ ha' with hold' | ⟨-, haddr, hf, hfree'⟩
  · exact h.page_inj id' a a' f hold hold'
  · subst hf
    exact absurd hfree' (h.inv.core.used (a := .space id') (spaceHas_iff.mpr ⟨a, hold⟩))
  · exact absurd hfree (h.inv.core.used (a := .space _) (spaceHas_iff.mpr ⟨a', hold'⟩))
  · exact haddr.symm

lemma PageSet.view_user {p : ℕ} {e : Word} (hset : PageSet s s' p e) (h : WF s)
    (hwindow : p ≠ s.windowPage) {d q : ℕ} (hd : d ∈ s.live) (hq : kernelPages ≤ q) :
    (d = s.current ∧ q = p ∧ s'.view d q = e) ∨ s'.view d q = s.view d q := by
  by_cases hqp : q = p
  · subst hqp
    by_cases hdc : d = s.current
    · left
      refine ⟨hdc, rfl, ?_⟩
      rw [hdc, hset.view_current h hwindow]
    · right
      exact hset.view_of_ge hwindow (not_lt.mpr hq) hd hdc
  · right
    exact hset.view_other d hd q hqp

/-- The handler maps the page of the space. -/
lemma Sharing.mapPage (h : Sharing s) {s1 : State} {space : ShmSpace} {page : PageRef}
    (hr : r ∈ (s.dirs s.current).regions) (hin : inRegion addr r = true)
    (hm : s.mappings.lookup r.id = some m) (hspace : s.spaces.lookup m.space = some space)
    (hpage : s.spacePage m.space space (m.pageAt addr) = some (page, s1))
    (hmap : s1.mapPageAt s1.current (frame addr) page userFlags = some s') : Sharing s' := by
  have hcur := h.inv.wf.current_mem
  have hserved := h.served _ hcur r hr
  have huser := hserved.user_of_inRegion hin
  obtain ⟨h1, hgrown, hsame⟩ := h.inv.spacePage hspace hpage
  set f := s1.phys.address page with hf
  have hset := mapPageAt_entrySet h1.wf hmap
  rw [show pageOf (frame addr) = pageOf addr from pageOf_mask addr, ← hf] at hset
  have hframe : frame (f ||| userFlags.bits) = f := frame_or (aligned_address _ _) userFlags.low
  have hwindow : pageOf addr ≠ s1.windowPage := by
    rw [hsame]
    exact h.inv.wf.ne_windowPage huser
  have hinv : Inv s' := by
    have hinSpace : s1.InSpace f := inSpace_iff.mpr ⟨_, _, hgrown.self⟩
    refine h1.mapPageAt (h1.core.mapSafe_of_inSpace hinSpace) ?_ hmap
    rwa [show pageOf (frame addr) = pageOf addr from pageOf_mask addr]
  have hlive : s'.live = s.live := by rw [hset.live_eq, hsame]
  have hregions (d : ℕ) : (s'.dirs d).regions = (s.dirs d).regions := by
    rw [hset.regions_eq, hsame]
  have hmappings : s'.mappings = s.mappings := by rw [hset.mappings_eq, hsame]
  have hspaceAt (id : ℕ) (a f' : Word) : s'.SpaceAt id a f' ↔ s1.SpaceAt id a f' :=
    spaceAt_congr hset.spaces_eq hset.addresses
  have hview {d : ℕ} (hd : d ∈ s.live) {q : ℕ} (hq : kernelPages ≤ q) :
      (d = s.current ∧ q = pageOf addr ∧ s'.view d q = f ||| userFlags.bits) ∨
        s'.view d q = s.view d q := by
    have hview1 : s1.view d q = s.view d q := by
      rw [hsame]
      rfl
    have hcurrent : s1.current = s.current := by rw [hsame]
    rw [← hview1, ← hcurrent]
    exact hset.toPageSet.view_user h1.wf hwindow (by rwa [hsame]) hq
  refine ⟨hinv, fun d hd r' hr' => ?_, ?_, fun d hd r1 hr1 r2 hr2 => ?_,
    fun id a a' f' ha ha' => ?_, fun d hd r' hr' a m' ha hm' hpresent => ?_,
    fun d hd a ha hpresent hinSpace => ?_⟩
  · rw [hlive] at hd
    rw [hregions] at hr'
    obtain ⟨hhandler, hwhole, huser', hmapping⟩ := h.served d hd r' hr'
    exact ⟨hhandler, hwhole, huser', hmappings ▸ hmapping⟩
  · rw [hset.kernel_eq, hregions, hsame]
    exact h.kernel
  · rw [hlive] at hd
    rw [hregions] at hr1 hr2
    exact h.disjoint d hd r1 hr1 r2 hr2
  · rw [hspaceAt] at ha ha'
    exact hgrown.page_inj h ha ha'
  · rw [hlive] at hd
    rw [hregions] at hr'
    rw [hmappings] at hm'
    have huser' := (h.served d hd r' hr').user_of_inRegion ha
    rw [hspaceAt]
    rcases hview hd huser' with ⟨rfl, hpage', heq⟩ | heq
    · -- The page belongs to no other region.
      have hin' := inRegion_of_pageOf (h.served _ hd r' hr').whole hpage' ha
      obtain rfl := h.disjoint _ hd r hr r' hr' addr hin hin'
      rw [hm, some.injEq] at hm'
      subst hm'
      obtain ⟨m0, hm0, haddr, hoffset⟩ := hserved.mapping
      rw [hm, some.injEq] at hm0
      subst hm0
      rw [heq, hframe, ShmMapping.pageAt_eq (haddr ▸ hserved.whole.addr) hoffset hpage']
      exact hgrown.self
    · rw [heq] at hpresent ⊢
      exact hgrown.kept _ _ _ (h.backed d hd r' hr' a m' ha hm' hpresent)
  · rw [hlive] at hd
    rw [hregions]
    rcases hview hd ha with ⟨rfl, hpage', -⟩ | heq
    · exact ⟨r, hr, inRegion_of_pageOf hserved.whole hpage'.symm hin⟩
    · rw [heq] at hpresent hinSpace
      obtain ⟨id, a', hat⟩ := inSpace_iff.mp hinSpace
      rw [hspaceAt] at hat
      rcases hgrown.new id a' _ hat with hold | ⟨-, -, hf', hfree⟩
      · exact h.mapped d hd a ha hpresent (inSpace_iff.mpr ⟨id, a', hold⟩)
      · exact absurd hfree (h.inv.core.used (a := .page d (pageOf a)) ⟨hd, hpresent, hf'⟩)

lemma Sharing.virt2phys (h : Sharing s) (hd : d ∈ s.live) (hw : s.dir d s.windowTable ≠ 0)
    (addr : Word) : Sharing (s.virt2phys d addr).2 :=
  h.quiet (h.inv.virt2phys hd hw addr).1 (getTableEntry_looked h.inv.wf hd hw (pageOf addr)).quiet

/-- The regions of the current directory. -/
lemma Sharing.handlePf_current (h : Sharing s) {b : Bool}
    (hs : s.handlePf s.current addr = some (b, s')) : Sharing s' := by
  have h1 := h.virt2phys h.inv.wf.current_mem h.inv.wf.window_current addr
  have hcurrent : (s.virt2phys s.current addr).2.current = s.current :=
    (h.inv.virt2phys h.inv.wf.current_mem h.inv.wf.window_current addr).2.1.current_eq
  obtain ⟨-, rfl⟩ | ⟨-, -, r, hfind, hhandle⟩ := handlePf_cases hs
  · exact h1
  · set s1 := (s.virt2phys s.current addr).2
    rw [← hcurrent] at hfind
    have hr := mem_of_find?_eq_some hfind
    have hin := find?_some hfind
    rw [pfHandle, (h1.served _ h1.inv.wf.current_mem r hr).handler] at hhandle
    dsimp only at hhandle
    unfold State.shmPfHandler at hhandle
    split at hhandle
    · simp at hhandle
    rename_i m hm
    split at hhandle
    · simp at hhandle
    rename_i space hspace
    obtain ⟨⟨page, s3⟩, hpage, hmap⟩ := bind_eq_some_iff.mp hhandle
    exact h1.mapPage hr hin hm hspace hpage hmap

/-- The kernel's directory has no regions. -/
lemma Sharing.handlePf_kernel (h : Sharing s) {b : Bool}
    (hs : s.handlePf s.kernel addr = some (b, s')) : Sharing s' := by
  have h1 := h.virt2phys h.inv.wf.kernel_mem h.inv.wf.window_kernel addr
  have hkernel : (s.virt2phys s.kernel addr).2.kernel = s.kernel :=
    (h.inv.virt2phys h.inv.wf.kernel_mem h.inv.wf.window_kernel addr).2.1.kernel_eq
  obtain ⟨-, rfl⟩ | ⟨-, -, r, hfind, -⟩ := handlePf_cases hs
  · exact h1
  · set s1 := (s.virt2phys s.kernel addr).2
    rw [← hkernel, h1.kernel] at hfind
    cases hfind

lemma Sharing.pageFault (h : Sharing s) (hs : s.pageFault addr = some s') : Sharing s' := by
  unfold State.pageFault at hs
  dsimp only at hs
  have h1 := h.virt2phys h.inv.wf.current_mem h.inv.wf.window_current addr
  set s1 := (s.virt2phys s.current addr).2
  obtain ⟨⟨b, s2⟩, hcurrent, hs⟩ := bind_eq_some_iff.mp hs
  have h2 := h1.handlePf_current hcurrent
  dsimp only at hs
  split at hs
  · rwa [← some.inj hs]
  · obtain ⟨⟨b', s3⟩, hkernel, rfl⟩ := map_eq_some_iff.mp hs
    exact h2.handlePf_kernel hkernel

/-! ## Mapping -/

/-- An address of the new region is on a page of its range. -/
lemma inRange_of_inRegion {pages : Word} (haddr : Aligned addr)
    (hend : pageOf addr + pages.toNat ≤ 2 ^ 20) {handler : Handler}
    (ha : inRegion a ⟨addr, pages * BitVec.ofNat 32 pageSize, id, handler⟩ = true) :
    InRange addr pages.toNat (pageOf a) := by
  rw [inRegion_iff] at ha
  dsimp only at ha
  have hsum := toNat_add_pages_le addr pages
  have hnat := haddr.toNat
  have hbounds : pageOf addr ≤ pageOf a ∧ pageOf a < pageOf addr + pages.toNat := by
    simp only [pageOf, pageSize] at *
    omega
  refine ⟨pageOf a - pageOf addr, by omega, ?_⟩
  rw [pageOf_pageAddr haddr (by omega)]
  omega

variable {offset pages flags : Word}

/-- The range is in user space, and no page of it is shared memory. -/
lemma Sharing.freeSafe (h : Sharing s) (haddr : Aligned addr)
    (hguard : s.MapsApart (.map id addr offset pages flags)) :
    s.FreeSafe (InRange addr pages.toNat) := by
  obtain ⟨-, -, huser, hend, hapart⟩ := hguard
  have hge : ∀ q, InRange addr pages.toNat q → kernelPages ≤ q := by
    rintro q ⟨i, hi, rfl⟩
    rw [pageOf_pageAddr haddr (by omega)]
    omega
  refine ⟨fun q hq => h.inv.wf.ne_windowPage (hge q hq), fun x _ hx hlt _ => ?_,
    fun q hq hpresent => ⟨?_, fun hin => ?_⟩⟩
  · exact absurd hlt (not_lt.mpr (hge _ hx))
  · exact h.inv.core.user_not_table ⟨h.inv.wf.current_mem, hpresent, rfl⟩ (hge q hq)
  · have hquser := hge q hq
    obtain ⟨i, hi, rfl⟩ := hq
    obtain ⟨r, hr, hregion⟩ := h.mapped _ h.inv.wf.current_mem _ hquser hpresent hin
    rw [hapart r hr i hi] at hregion
    cases hregion

/-- The region of a new mapping. -/
def mapRegion (addr pages : Word) (ret : ℕ) : Region :=
  { addr := addr, size := pages * BitVec.ofNat 32 pageSize, id := ret, pfHandle := .shm }

lemma mem_regions_withMapping {ret : ℕ} :
    r ∈ ((s.withMapping id addr offset pages ret).dirs d).regions ↔
      r ∈ (s.dirs d).regions ∨ (d = s.current ∧ r = mapRegion addr pages ret) := by
  unfold withMapping addRegion modifyDir
  by_cases hd : d = s.current
  · simp [hd, mapRegion]
  · simp [hd]

lemma view_withMapping {ret : ℕ} (d q : ℕ) :
    (s.withMapping id addr offset pages ret).view d q = s.view d q := by
  refine view_congr rfl ?_ fun _ _ => rfl
  show (s.addRegion s.current (mapRegion addr pages ret)).dir d _ = s.dir d _
  unfold addRegion
  apply dir_modifyDir
  exact fun _ => rfl

lemma Sharing.shmMap (h : Sharing s) {ret : ℕ}
    (hguard : s.MapsApart (.map id addr offset pages flags))
    (hs : s.shmMap id addr offset pages flags = some (ret, s')) : Sharing s' := by
  have hsafe (haddr : addr.toNat % pageSize = 0) : s.FreeSafe (InRange addr pages.toNat) :=
    h.freeSafe (aligned_of_mod haddr) hguard
  rcases h.inv.shmMap_cases hsafe hs with rfl | ⟨haddr, hoffset, hret, s2, h2, hunmapped, heq⟩
  · exact h
  replace haddr := aligned_of_mod haddr
  replace hoffset := aligned_of_mod hoffset
  obtain ⟨hfresh, hnotKernel, huser, hend, hapart⟩ := hguard
  rw [← hret] at hfresh
  have hmem {d : ℕ} {r : Region} : r ∈ (s'.dirs d).regions ↔
      r ∈ (s.dirs d).regions ∨ (d = s.current ∧ r = mapRegion addr pages ret) := by
    rw [heq, mem_regions_withMapping, hunmapped.regions_eq, hunmapped.current_eq]
  have hlive {d : ℕ} (hd : d ∈ s'.live) : d ∈ s.live := by
    rw [heq] at hd
    exact hunmapped.live_eq ▸ hd
  -- The id of an earlier region has a mapping, so it is not the new one.
  have hlookup {d : ℕ} (hd : d ∈ s.live) {r : Region} (hr : r ∈ (s.dirs d).regions) :
      s'.mappings.lookup r.id = s.mappings.lookup r.id := by
    have hne : r.id ≠ ret := by
      rintro rfl
      obtain ⟨m, hm, -⟩ := (h.served d hd r hr).mapping
      rw [hfresh] at hm
      simp at hm
    rw [heq, ← hunmapped.mappings_eq]
    exact OrderedMap.lookup_put_of_ne _ _ hne
  have hspaceAt (id' : ℕ) (a f : Word) : s'.SpaceAt id' a f ↔ s.SpaceAt id' a f := by
    rw [heq]
    exact spaceAt_congr hunmapped.spaces_eq hunmapped.addresses
  have hviewEq (d q : ℕ) : s'.view d q = s2.view d q := by rw [heq, view_withMapping]
  have hview {d : ℕ} (hd : d ∈ s.live) {q : ℕ} (hq : isPresent (s'.view d q) = true) :
      s'.view d q = s.view d q := by
    rw [hviewEq] at hq ⊢
    exact hunmapped.kept d hd q hq
  have hold {r : Region} (hr : r ∈ (s.dirs s.current).regions) {a : Word}
      (ha : inRegion a r = true) : inRegion a (mapRegion addr pages ret) ≠ true := by
    intro hnew
    obtain ⟨i, hi, hpage⟩ := inRange_of_inRegion haddr hend hnew
    have hin := inRegion_of_pageOf (h.served _ h.inv.wf.current_mem r hr).whole hpage ha
    rw [hapart r hr i hi] at hin
    cases hin
  refine ⟨heq ▸ (h2.addRegion _ _).withMappings _ _, fun d hd r hr => ?_, ?_,
    fun d hd r hr r' hr' a ha ha' => ?_, fun id' a a' f ha ha' => ?_,
    fun d hd r hr a m ha hm hpresent => ?_, fun d hd a ha hpresent hin => ?_⟩
  · rcases hmem.mp hr with hr | ⟨rfl, rfl⟩
    · obtain ⟨hhandler, hwhole, huser', hmapping⟩ := h.served d (hlive hd) r hr
      refine ⟨hhandler, hwhole, huser', ?_⟩
      rwa [hlookup (hlive hd) hr]
    · refine ⟨rfl, ⟨haddr, aligned_of_mod ?_⟩, huser, ?_⟩
      · rw [mapRegion, toNat_mul]
        simp only [BitVec.toNat_ofNat, pageSize]
        omega
      · rw [heq]
        exact ⟨_, OrderedMap.lookup_put_self _ _ _, rfl, hoffset⟩
  · rw [eq_nil_iff_forall_not_mem]
    intro r hr
    have hkernel : s'.kernel = s.kernel := heq ▸ hunmapped.kernel_eq
    rw [hkernel] at hr
    rcases hmem.mp hr with hr | ⟨heq, -⟩
    · rw [h.kernel] at hr
      exact not_mem_nil hr
    · exact hnotKernel heq.symm
  · rcases hmem.mp hr with hr | ⟨rfl, rfl⟩ <;> rcases hmem.mp hr' with hr' | ⟨heq, rfl⟩
    · exact h.disjoint d (hlive hd) r hr r' hr' a ha ha'
    · subst heq
      exact absurd ha' (hold hr ha)
    · exact absurd ha (hold hr' ha')
    · rfl
  · rw [hspaceAt] at ha ha'
    exact h.page_inj id' a a' f ha ha'
  · rcases hmem.mp hr with hr | ⟨rfl, rfl⟩
    · have heq := hview (hlive hd) hpresent
      rw [heq] at hpresent ⊢
      rw [hlookup (hlive hd) hr] at hm
      rw [hspaceAt]
      exact h.backed d (hlive hd) r hr a m ha hm hpresent
    · -- Nothing of the new region is present.
      rw [hviewEq, hunmapped.gone _ (inRange_of_inRegion haddr hend ha)] at hpresent
      cases hpresent
  · have heq := hview (hlive hd) hpresent
    rw [heq] at hpresent hin
    simp only [inSpace_iff, hspaceAt] at hin
    obtain ⟨r, hr, hregion⟩ := h.mapped d (hlive hd) a ha hpresent (inSpace_iff.mpr hin)
    exact ⟨r, hmem.mpr (.inl hr), hregion⟩

/-! ## Runs -/

lemma sharing_of_init (h : sharing.init s) : Sharing s := by
  obtain ⟨hreaches, hspaces, -, hregions⟩ := h
  have hinv : Inv s :=
    hreaches.invariant (fun _ hs => Initial.inv hs) fun _ _ _ hi ha hstep => hi.step ha hstep
  have hnone (id : ℕ) (a f : Word) : ¬ s.SpaceAt id a f := by
    rintro ⟨space, i, hsp, -⟩
    rw [hspaces, OrderedMap.lookup_empty] at hsp
    simp at hsp
  refine ⟨hinv, fun d hd r hr => ?_, hregions _ hinv.wf.kernel_mem, fun d hd r hr => ?_,
    fun id a a' f ha => absurd ha (hnone id a f), fun d hd r hr => ?_,
    fun d hd a ha hpresent hin => ?_⟩
  · rw [hregions d hd] at hr
    exact absurd hr not_mem_nil
  · rw [hregions d hd] at hr
    exact absurd hr not_mem_nil
  · rw [hregions d hd] at hr
    exact absurd hr not_mem_nil
  · obtain ⟨id, a', hat⟩ := inSpace_iff.mp hin
    exact absurd hat (hnone id a' _)

lemma Sharing.step (h : Sharing s) {act : ShmAction} (hguard : s.MapsApart act)
    (hs : sharing.step s act = some s') : Sharing s' := by
  cases act with
  | switch d =>
    have hstep : (if d ∈ s.live then some (s.mm2Switch d) else none) = some s' := hs
    rw [ite_none_right_eq_some] at hstep
    rw [← some.inj hstep.2]
    exact h.quiet (h.inv.mm2Switch hstep.1) (quiet_mm2Switch h.inv.wf d)
  | create flags =>
    rw [← some.inj hs]
    exact h.quiet (h.inv.shmCreate hguard) (quiet_shmCreate hguard)
  | map id addr offset pages flags =>
    obtain ⟨⟨ret, s1⟩, hmap, rfl⟩ := map_eq_some_iff.mp hs
    exact h.shmMap hguard hmap
  | fault addr => exact h.pageFault hs

lemma Sharing.aliases (h : Sharing s) : s.Aliases := by
  -- The frame of a present page of a mapping is the page of the space.
  have hbacked : ∀ d ∈ s.live, ∀ addr m, isPresent (s.stored d (pageOf addr)) = true →
      s.MappedAt d addr m →
        s.SpaceAt m.space (m.pageAt addr) (frame (s.stored d (pageOf addr))) := by
    rintro d hd addr m hpresent ⟨r, hr, -, hin, hm⟩
    have huser := (h.served d hd r hr).user_of_inRegion hin
    rw [← view_eq_stored (h.inv.wf.ne_windowPage huser)] at hpresent ⊢
    exact h.backed d hd r hr addr m hin hm hpresent
  intro d hd d' hd' addr addr' m m' hpresent hpresent' hmapped hmapped'
  have hat := hbacked d hd addr m hpresent hmapped
  have hat' := hbacked d' hd' addr' m' hpresent' hmapped'
  constructor
  · intro hframe
    rw [← hframe] at hat'
    have hspace := h.inv.core.space_unique (spaceHas_iff.mpr ⟨_, hat⟩) (spaceHas_iff.mpr ⟨_, hat'⟩)
    rw [← hspace] at hat'
    exact ⟨hspace, h.page_inj _ _ _ _ hat hat'⟩
  · rintro ⟨hspace, hpage⟩
    rw [← hspace, ← hpage] at hat'
    exact hat.frame_eq hat'

/-- In every run of `shm_create`, `shm_map` and page faults in which processes map shared memory at
user addresses where they have no mapping yet, present pages are in the same frame if and only if
they are the same page of the same space. -/
theorem aliases_of_reaches (h : sharing.Reaches MapsApart s) : s.Aliases :=
  (h.invariant (fun _ hs => sharing_of_init hs) fun _ _ _ hi ha hstep => hi.step ha hstep).aliases

/-! ## Concrete runs -/

instance : Decidable (s.MappedAt d addr m) := by
  unfold MappedAt
  infer_instance

instance : (act : ShmAction) → Decidable (s.MapsApart act)
  | .switch _ => inferInstanceAs (Decidable True)
  | .create _ => inferInstanceAs (Decidable (_ = none))
  | .map _ _ _ _ _ => inferInstanceAs (Decidable (_ ∧ _ ∧ _ ∧ _ ∧ _))
  | .fault _ => inferInstanceAs (Decidable True)

/-- A process with eight pages of its own, which leave two free pages. -/
def processStart : List Action :=
  [.newDirectory 1 (List.replicate entrycacheSize { index := 0, entry := 0, hits := 0 }),
    .switch 1, .allocPagesAt 8 0x40010000#32]

lemma sharing_init_processStart (h : mm2.run (booted [0]) processStart = some s) :
    sharing.init s := by
  have htest : (mm2.run (booted [0]) processStart).any (fun s =>
      s.spaces.entries.isEmpty && s.mappings.entries.isEmpty &&
        s.live.all fun d => (s.dirs d).regions.isEmpty) = true := by
    decide_cbv
  rw [h, any_some] at htest
  simp only [Bool.and_eq_true, List.isEmpty_iff, List.all_eq_true] at htest
  obtain ⟨⟨hspaces, hmappings⟩, hregions⟩ := htest
  have hsafe : ∀ a ∈ processStart, ∀ s, FrameSafe s a := by
    intro a ha s
    simp only [processStart, mem_cons, not_mem_nil, or_false] at ha
    rcases ha with rfl | rfl | rfl <;> trivial
  exact ⟨System.reaches_of_run hsafe (.init booted_initial) h, OrderedMap.eq_empty hspaces,
    OrderedMap.eq_empty hmappings, hregions⟩

/-- Two mappings of one page of a space, at two addresses of a process. -/
def mapTwice : List ShmAction :=
  [.create 0, .map 1 0x40000000#32 0 1 0, .fault 0x40000000#32, .map 1 0x40001000#32 0 1 0,
    .fault 0x40001000#32]

/-- The two pages are in one frame. -/
theorem aliases_mapTwice : ∃ s, sharing.Reaches MapsApart s ∧
    s.stored 1 0x40000 = 0x5007#32 ∧ s.stored 1 0x40001 = 0x5007#32 ∧ s.Aliases := by
  have hrun : ((mm2.run (booted [0]) processStart).bind fun s =>
      (sharing.guarded MapsApart).run s mapTwice).any (fun s =>
        s.stored 1 0x40000 = 0x5007#32 ∧ s.stored 1 0x40001 = 0x5007#32) = true := by
    decide_cbv
  obtain ⟨s, hs, htest⟩ := (any_eq_true _ _).mp hrun
  obtain ⟨s₀, hstart, hs⟩ := bind_eq_some_iff.mp hs
  have hreaches := System.reaches_of_run_guarded (.init (sharing_init_processStart hstart)) hs
  obtain ⟨hfirst, hsecond⟩ := of_decide_eq_true htest
  exact ⟨s, hreaches, hfirst, hsecond, aliases_of_reaches hreaches⟩

/-- A second space is mapped over the first one, whose page is freed and then mapped again, since
the region of the first mapping is found first. -/
def mapOver : List ShmAction :=
  [.create 0, .map 1 0x40000000#32 0 1 0, .fault 0x40000000#32,
    .create 0, .map 2 0x40000000#32 0 1 0, .fault 0x40000000#32,
    .map 2 0x40001000#32 0 2 0, .fault 0x40001000#32, .fault 0x40002000#32]

/-- Pages of different spaces may be in one frame. -/
theorem exists_not_aliases : ∃ s, sharing.Reachable s ∧ ¬ s.Aliases := by
  have hrun : ((mm2.run (booted [0]) processStart).bind fun s => sharing.run s mapOver).any
      (fun s => 1 ∈ s.live ∧ s.stored 1 0x40000 = 0x5007#32 ∧ s.stored 1 0x40002 = 0x5007#32 ∧
        s.MappedAt 1 0x40000000#32 ⟨1, 0x40000000#32, 0, 1, 0⟩ ∧
          s.MappedAt 1 0x40002000#32 ⟨2, 0x40001000#32, 0, 2, 0⟩) = true := by
    decide_cbv
  obtain ⟨s, hs, htest⟩ := (any_eq_true _ _).mp hrun
  obtain ⟨s₀, hstart, hs⟩ := bind_eq_some_iff.mp hs
  obtain ⟨hlive, hfirst, hsecond, hmapped, hmapped'⟩ := of_decide_eq_true htest
  refine ⟨s, System.reachable_of_run (.init (sharing_init_processStart hstart)) hs, fun h => ?_⟩
  have hpage : pageOf 0x40000000#32 = 0x40000 := by decide
  have hpage' : pageOf 0x40002000#32 = 0x40002 := by decide
  have hiff := h 1 hlive 1 hlive 0x40000000#32 0x40002000#32 ⟨1, 0x40000000#32, 0, 1, 0⟩
    ⟨2, 0x40001000#32, 0, 2, 0⟩
  rw [hpage, hpage', hfirst, hsecond] at hiff
  exact absurd ((hiff (by decide) (by decide) hmapped hmapped').mp rfl).1 (by decide)

end State

end Memory
