import Btos.Memory.WellFormed

/-!
# Mapping and freeing a page

What the operations on one page do, in terms of the view of the page tables and of the free
frames. `Still s s'` says that an intermediate step leaves the page tables as they are; the effect
of an operation is put together from such steps and one write of an entry.

* `mapPageAt_entrySet`, `mapNewPageAt_entrySet`: the entry of the page is the given or a new frame,
* `freePage_pageFreed`: the entry is 0, and the frame it referred to is free,
* `guardPageAt_pageFreed`: the same, and the entry is marked as a guard page,
* `WF.mm2Switch`, `WF.view_mm2Switch`: a switch to another directory gives it the kernel tables.
-/

open Option

namespace Memory

namespace State

variable {s s' : State} {d p : ℕ} {e : Word}

/-! ## Steps that leave the page tables -/

/-- The page tables are as they were. -/
structure Still (s s' : State) : Prop extends Beside s s' where
  dir_eq : ∀ d t, s'.dir d t = s.dir d t
  view_eq : ∀ d ∈ s.live, ∀ q, s'.view d q = s.view d q
  accounted : ∀ b, s'.phys.Accounted b ↔ s.phys.Accounted b
  addresses : s'.phys.pages.map PhysPage.address = s.phys.pages.map PhysPage.address
  cache_other : ∀ d, d ≠ s.current → (s'.dirs d).entrycache = (s.dirs d).entrycache

lemma Looked.still (h : Looked s s' s.current) : Still s s' where
  __ := h
  accounted b := by rw [h.phys_eq]
  addresses := by rw [h.phys_eq]
  cache_other := h.cache_eq

variable {s'' : State}

lemma Still.trans (h : Still s s') (h' : Still s' s'') : Still s s'' where
  toBeside := h.toBeside.trans h'.toBeside
  dir_eq d t := (h'.dir_eq d t).trans (h.dir_eq d t)
  view_eq d hd q := (h'.view_eq d (h.live_eq ▸ hd) q).trans (h.view_eq d hd q)
  accounted b := (h'.accounted b).trans (h.accounted b)
  addresses := h'.addresses.trans h.addresses
  cache_other d hd := (h'.cache_other d (h.current_eq ▸ hd)).trans (h.cache_other d hd)

lemma still_of_frames_eq (hb : Beside s s') (hphys : s'.phys = s.phys)
    (hframes : s'.frames = s.frames) (hdir : ∀ d t, s'.dir d t = s.dir d t)
    (hcache : ∀ d, (s'.dirs d).entrycache = (s.dirs d).entrycache) : Still s s' where
  toBeside := hb
  dir_eq := hdir
  view_eq d _ q := view_congr hb.windowPage_eq (hdir d _) fun _ _ => by rw [hframes]
  accounted b := by rw [hphys]
  addresses := by rw [hphys]
  cache_other d _ := hcache d

lemma still_modifyDir {f : PageDir → PageDir} (d : ℕ)
    (hf : ∀ pd, (f pd).directory = pd.directory ∧ (f pd).entrycache = pd.entrycache ∧
      (f pd).regions = pd.regions ∧ (f pd).directoryAddr = pd.directoryAddr)
    (hlow : ∀ pd : PageDir, kernelPages ≤ pd.ulowfree → kernelPages ≤ (f pd).ulowfree) :
    Still s (s.modifyDir d f) :=
  still_of_frames_eq (beside_modifyDir d (fun pd => (hf pd).2.2) hlow) rfl rfl
    (dir_modifyDir (fun pd => (hf pd).1) d)
    (modifyDir_field PageDir.entrycache d fun pd => (hf pd).2.1)

/-- Counting a page changes nothing else. -/
lemma still_count {d : ℕ} {addr : Word} {upages : PageDir → Word} {kpages : Word}
    (h : s' = if addr > kernelBoundary then
      s.modifyDir d fun pd => { pd with upages := upages pd } else { s with kpages := kpages }) :
    Still s s' ∧ s'.frames = s.frames ∧ s'.phys = s.phys ∧
      ∀ d', (s'.dirs d').entrycache = (s.dirs d').entrycache := by
  subst h
  split
  · exact ⟨still_modifyDir d (fun _ => ⟨rfl, rfl, rfl, rfl⟩) fun _ => id, rfl, rfl,
      modifyDir_field PageDir.entrycache d fun _ => rfl⟩
  · exact ⟨still_of_frames_eq (beside_of_dirs_eq rfl rfl rfl rfl rfl rfl rfl rfl) rfl rfl
      (fun _ _ => rfl) fun _ => rfl, rfl, rfl, fun _ => rfl⟩

lemma still_phys {phys : Physical} (haccounted : ∀ b, phys.Accounted b ↔ s.phys.Accounted b)
    (haddresses : phys.pages.map PhysPage.address = s.phys.pages.map PhysPage.address) :
    Still s { s with phys := phys } where
  toBeside := beside_of_dirs_eq rfl rfl rfl rfl rfl rfl rfl rfl
  dir_eq _ _ := rfl
  view_eq _ _ _ := view_congr rfl rfl fun _ _ => rfl
  accounted := haccounted
  addresses := haddresses
  cache_other _ _ := rfl

/-- The frame is a page table of a live directory. -/
def IsTable (s : State) (f : Word) : Prop :=
  ∃ d ∈ s.live, ∃ t, s.dir d t ≠ 0 ∧ frame (s.dir d t) = f

lemma Still.isTable (h : Still s s') {f : Word} (hf : s'.IsTable f) : s.IsTable f := by
  obtain ⟨d, hd, t, ht, heq⟩ := hf
  rw [h.dir_eq] at ht heq
  exact ⟨d, h.live_eq ▸ hd, t, ht, heq⟩

lemma still_zeroFrame (h : WF s) {f : Word} (hf : ¬ s.IsTable f) : Still s (s.zeroFrame f) where
  toBeside := beside_zeroFrame f
  dir_eq _ _ := rfl
  view_eq d hd q := by
    refine view_congr rfl rfl fun _ hframe => ?_
    refine frames_zeroFrame_of_ne s (fun heq => hf ?_) _
    exact ⟨d, hd, _, (frame_ne_zero_iff h hd).mp hframe, heq⟩
  accounted _ := Iff.rfl
  addresses := rfl
  cache_other _ _ := rfl

lemma Still.wf (h : Still s s') (hs : WF s) (hdistinct : s'.phys.Distinct)
    (hfree : ∀ b, s'.phys.IsFree b → s.phys.IsFree b) : WF s' :=
  hs.congr h.toBeside h.dir_eq hdistinct hfree

/-- Freeing a frame that is no page table. -/
lemma WF.freeFrame (h : WF s) {f : Word} (hf : ¬ s.IsTable f) (h0 : f ≠ 0) (ha : Aligned f) :
    WF { s with phys := s.phys.freeAddr f } := by
  have hfreed := Physical.freeAddr_freed s.phys f
  have hframe : frame f = f := ha
  rw [hframe] at hfreed
  refine { h with
    tables_used := fun d hd t ht hfree => ?_
    distinct := hfreed.distinct h.distinct
    zero_used := fun hfree => ?_ }
  · rcases hfreed.isFree _ hfree with hold | ⟨heq, -⟩
    · exact h.tables_used d hd t ht hold
    · exact hf ⟨d, hd, t, ht, heq⟩
  · rcases hfreed.isFree _ hfree with hold | ⟨heq, -⟩
    · exact h.zero_used hold
    · exact h0 heq.symm

/-- A write of an entry after a step that leaves the page tables. -/
lemma PageSet.of_still (h : Still s s')
    (hfree : s.dir s.current (p / tableEntries) = 0 → ∀ b, s'.phys.IsFree b → s.phys.IsFree b)
    (hp : PageSet s' s'' p e) : PageSet s s'' p e where
  toBeside := h.toBeside.trans hp.toBeside
  wf := hp.wf
  dir_ne := h.current_eq ▸ hp.dir_ne
  dir_eq d t' hor := by
    rw [← h.dir_eq d t']
    refine hp.dir_eq d t' ?_
    rwa [h.dir_eq, h.current_eq]
  accounted b := (hp.accounted b).trans (h.accounted b)
  addresses := hp.addresses.trans h.addresses
  new_table h0 := by
    refine hfree h0 _ ?_
    rw [← h.current_eq]
    refine hp.new_table ?_
    rw [h.dir_eq, h.current_eq]
    exact h0
  view_other d hd q hq := (hp.view_other d (h.live_eq ▸ hd) q hq).trans (h.view_eq d hd q)
  view_self hw d hd := by
    rw [hp.view_self (h.windowPage_eq ▸ hw) d (h.live_eq ▸ hd), h.current_eq, h.view_eq d hd]
  window hw := by
    rw [hp.window (h.windowPage_eq ▸ hw), h.current_eq]
  cache_other d hd := (hp.cache_other d (h.current_eq ▸ hd)).trans (h.cache_other d hd)

/-- A write of an entry followed by a step that leaves the page tables. -/
lemma PageSet.then_still (hp : PageSet s s' p e) (h : Still s' s'') (hwf : WF s'')
    (hwindow : s''.windowFrame = s'.windowFrame) : PageSet s s'' p e where
  toBeside := hp.toBeside.trans h.toBeside
  wf := hwf
  dir_ne := by
    rw [h.dir_eq]
    exact hp.dir_ne
  dir_eq d t' hor := (h.dir_eq d t').trans (hp.dir_eq d t' hor)
  accounted b := (h.accounted b).trans (hp.accounted b)
  addresses := h.addresses.trans hp.addresses
  new_table h0 := by
    rw [h.dir_eq]
    exact hp.new_table h0
  view_other d hd q hq := (h.view_eq d (hp.live_eq ▸ hd) q).trans (hp.view_other d hd q hq)
  view_self hw d hd := by
    rw [h.view_eq d (hp.live_eq ▸ hd), h.dir_eq, h.dir_eq, hp.view_self hw d hd]
  window hw := by
    rw [hwindow, hp.window hw, h.dir_eq]
  cache_other d hd := by
    rw [h.cache_other d (hp.current_eq ▸ hd), hp.cache_other d hd]

/-! ## Mapping -/

lemma windowFrame_congr (hb : Beside s s') (hframes : s'.frames = s.frames)
    (hdir : ∀ d t, s'.dir d t = s.dir d t) : s'.windowFrame = s.windowFrame := by
  rw [windowFrame, windowFrame, hframes, hdir, hb.current_eq, hb.windowTable_eq, hb.windowSlot_eq]

variable {addr : Word} {flags : PageFlags}

/-- `map_page_at` of a given page. -/
lemma mapPageAt_entrySet (h : WF s) {page : PageRef}
    (hs : s.mapPageAt s.current addr page flags = some s') :
    EntrySet s s' (pageOf addr) (s.phys.address page ||| flags.bits) := by
  obtain ⟨s1, hset, rfl⟩ := map_eq_some_iff.mp hs
  have hentry := setTableEntry_entrySet h hset
  obtain ⟨hstill, hframes, hphys, hcache⟩ :=
    still_count (rfl : s1.countMapped s.current addr = _)
  have hwf : WF (s1.countMapped s.current addr) :=
    hstill.wf hentry.wf (hphys ▸ hentry.wf.distinct) fun _ hb => hphys ▸ hb
  refine ⟨hentry.toPageSet.then_still hstill hwf
    (windowFrame_congr hstill.toBeside hframes hstill.dir_eq), ?_, ?_, ?_⟩
  · rw [hphys]
    exact hentry.isFree
  · rw [← hentry.stored_self, stored, stored, hstill.dir_eq, hframes]
  · rw [hcache, hentry.cache_self]

lemma pageOf_mask (addr : Word) : pageOf (addr &&& addressMask) = pageOf addr := by
  have hmask : ∀ i < 20, Nat.testBit addressMask.toNat (i + 12) = true := by decide
  have hsize : pageSize = 2 ^ 12 := rfl
  rw [pageOf, pageOf, hsize, BitVec.toNat_and]
  apply Nat.eq_of_testBit_eq
  intro i
  rw [Nat.testBit_div_two_pow, Nat.testBit_div_two_pow, Nat.testBit_and]
  by_cases hi : i < 20
  · rw [hmask i hi, Bool.and_true]
  · -- Beyond the word there are no bits.
    have hlt : addr.toNat < 2 ^ (i + 12) :=
      lt_of_lt_of_le addr.isLt (Nat.pow_le_pow_right (by omega) (by omega))
    rw [Nat.testBit_lt_two_pow hlt, Bool.false_and]

/-- `map_page_at` of a new page: a frame that was free is zeroed and mapped. -/
lemma mapNewPageAt_entrySet (h : WF s) (hs : s.mapNewPageAt s.current addr flags = some s') :
    ∃ f, s.phys.IsFree f ∧ ¬ s'.phys.IsFree f ∧ ¬ s'.IsTable f ∧ Aligned f ∧
      EntrySet s s' (pageOf addr) (f ||| flags.bits) := by
  rw [mapNewPageAt, bind_eq_some_iff] at hs
  obtain ⟨⟨r, phys⟩, halloc, hmap⟩ := hs
  obtain ⟨s2, hmap, rfl⟩ := map_eq_some_iff.mp hmap
  have ha := Physical.alloc_spec h.distinct h.zero_used halloc
  set f := phys.address r
  set s1 : State := { s with phys := phys }
  have hstill1 : Still s s1 := still_phys ha.accounted ha.addresses
  have hfree1 : ∀ b, s1.phys.IsFree b → s.phys.IsFree b := fun b hb => ((ha.isFree b).mp hb).1
  have hwf1 : WF s1 := hstill1.wf h ha.distinct hfree1
  have hentry := mapPageAt_entrySet hwf1 hmap
  rw [pageOf_mask] at hentry
  have hvalue : frame (f ||| flags.bits) = f := frame_or ha.aligned flags.low
  have hnotfree : ¬ s1.phys.IsFree f := fun hb => ((ha.isFree f).mp hb).2 rfl
  -- The frame is neither an old table nor the one that was created for the entry.
  have hnotable : ¬ s2.IsTable f := by
    rintro ⟨d, hd, t, ht, heq⟩
    rw [hentry.live_eq] at hd
    by_cases hnew : s1.dir d t ≠ 0 ∨ d ≠ s1.current ∨ t ≠ pageOf addr / tableEntries
    · rw [hentry.dir_eq d t hnew] at ht heq
      exact h.tables_used d hd t ht (heq ▸ ha.was_free)
    · rw [not_or, not_not, not_or, not_not, not_not] at hnew
      obtain ⟨h0, rfl, rfl⟩ := hnew
      exact hnotfree (heq ▸ hentry.new_table h0)
  have hzero : frame (s2.stored s2.current (pageOf (addr &&& addressMask))) = f := by
    rw [pageOf_mask, hentry.current_eq, hentry.stored_self]
    exact hvalue
  rw [hzero]
  have hstill2 := still_zeroFrame hentry.wf hnotable
  have hwf' : WF (s2.zeroFrame f) := hstill2.wf hentry.wf hentry.wf.distinct fun _ => id
  have hwindow : (s2.zeroFrame f).windowFrame = s2.windowFrame :=
    windowFrame_zeroFrame fun heq =>
      hnotable ⟨_, hentry.wf.current_mem, _, hentry.wf.window_current, heq⟩
  refine ⟨f, ha.was_free, fun hb => hnotfree (hentry.isFree f hb), hnotable, ha.aligned,
    PageSet.of_still hstill1 (fun _ => hfree1)
      (hentry.toPageSet.then_still hstill2 hwf' hwindow), ?_, ?_, hentry.cache_self⟩
  · exact fun b hb => hfree1 b (hentry.isFree b hb)
  · rw [← hentry.stored_self]
    have htable := (hentry.wf.entry_ok _ (hentry.live_eq ▸ h.current_mem) _ hentry.dir_ne).2
    rw [stored, stored, if_neg htable, dir_zeroFrame, if_neg htable]
    refine frames_zeroFrame_of_ne s2 (fun heq => hnotable ?_) _
    exact ⟨s.current, hentry.live_eq ▸ h.current_mem, _, hentry.dir_ne, heq⟩

/-! ## Freeing -/

/-- The entry of a page is now `e`, and the frame it referred to, if it was present and is a page
of the array, may be free. -/
structure PageFreed (s s' : State) (p : ℕ) (e : Word) : Prop extends PageSet s s' p e where
  isFree : ∀ b, s'.phys.IsFree b → s.phys.IsFree b ∨
    (isPresent (s.view s.current p) = true ∧ b = frame (s.view s.current p) ∧ s.phys.Accounted b)

lemma view_eq_zero_of_dir (h0 : s.dir d (p / tableEntries) = 0) : s.view d p = 0 := by
  rw [view, stored, h0, frame_zero, if_pos rfl]
  split <;> rfl

variable {P : ℕ → Word → Prop}

/-- A lookup of a page other than the window page finds the entry of the view, when what the cache
has for the page is that entry. -/
lemma getTableEntry_eq_view (h : WF s) (hp : p ≠ s.windowPage)
    (hP : HitCache.Holds P (s.dirs s.current).entrycache)
    (hPv : s.view s.current p ≠ 0 → P p (s.view s.current p))
    (hPp : ∀ e, P p e → e = s.view s.current p) :
    (s.getTableEntry s.current p).1 = s.view s.current p ∧
      HitCache.Holds P ((s.getTableEntry s.current p).2.dirs s.current).entrycache := by
  have hlooked := getTableEntry_looked h h.current_mem h.window_current p
  have hstored : (s.getTableEntry s.current p).2.stored s.current p = s.view s.current p := by
    rw [← hlooked.view_eq _ h.current_mem, view_eq_stored]
    rw [hlooked.windowPage_eq]
    exact hp
  obtain ⟨hcache, hvalue⟩ := getTableEntry_right h h.current_mem h.window_current hP
    (by rwa [hstored])
  rw [hstored] at hvalue
  exact ⟨hvalue.elim id (hPp _), hcache⟩

lemma still_lowfree (d p : ℕ) : Still s (s.modifyDir d fun pd =>
    if p < kernelPages ∧ p < pd.klowfree then { pd with klowfree := p }
    else if p ≥ kernelPages ∧ p < pd.ulowfree then { pd with ulowfree := p } else pd) := by
  apply still_modifyDir
  · intro pd
    split
    · exact ⟨rfl, rfl, rfl, rfl⟩
    · split <;> exact ⟨rfl, rfl, rfl, rfl⟩
  · intro pd hpd
    split
    · exact hpd
    · split
      · rename_i hge
        exact hge.1
      · exact hpd

lemma lowfree_entrycache (d p : ℕ) (d' : ℕ) : ((s.modifyDir d fun pd =>
    if p < kernelPages ∧ p < pd.klowfree then { pd with klowfree := p }
    else if p ≥ kernelPages ∧ p < pd.ulowfree then { pd with ulowfree := p }
    else pd).dirs d').entrycache = (s.dirs d').entrycache := by
  apply modifyDir_field PageDir.entrycache
  intro pd
  split
  · rfl
  · split <;> rfl

/-- Freeing the frame of an entry, if it is present. -/
lemma still_freeEntry (h : WF s) (hframe : isPresent e = true →
      ¬ s.IsTable (frame e) ∧ frame e ≠ 0) {s' : State}
    (hs : s' = if isPresent e then { s with phys := s.phys.freeAddr (frame e) } else s) :
    Still s s' ∧ WF s' ∧ (∀ d, (s'.dirs d).entrycache = (s.dirs d).entrycache) ∧
      ∀ b, s'.phys.IsFree b → s.phys.IsFree b ∨
        (isPresent e = true ∧ b = frame e ∧ s.phys.Accounted b) := by
  by_cases hpresent : isPresent e = true
  · rw [if_pos hpresent] at hs
    subst hs
    have hfreed := Physical.freeAddr_freed s.phys (frame e)
    have hf : frame (frame e) = frame e := aligned_frame e
    rw [hf] at hfreed
    refine ⟨still_phys hfreed.accounted hfreed.addresses,
      h.freeFrame (hframe hpresent).1 (hframe hpresent).2 (aligned_frame e), fun _ => rfl, ?_⟩
    intro b hb
    refine (hfreed.isFree b hb).imp_right ?_
    rintro ⟨rfl, haccounted⟩
    exact ⟨hpresent, rfl, haccounted⟩
  · rw [hs, if_neg hpresent]
    exact ⟨still_of_frames_eq (.refl s) rfl rfl (fun _ _ => rfl) fun _ => rfl, h, fun _ => rfl,
      fun _ => .inl⟩

/-- Two writes of an entry, one after the other. -/
lemma PageSet.trans {e' : Word} (h : PageSet s s' p e) (h' : PageSet s' s'' p e') :
    PageSet s s'' p e' := by
  have hdir : s''.dir s.current (p / tableEntries) = s'.dir s.current (p / tableEntries) :=
    h'.dir_eq _ _ (.inl h.dir_ne)
  refine ⟨⟨h.toBeside.trans h'.toBeside, h'.wf, ?_, ?_, ?_, h'.addresses.trans h.addresses, ?_⟩,
    ?_, ?_, ?_, ?_⟩
  · rw [hdir]
    exact h.dir_ne
  · intro d t hor
    rw [← h.dir_eq d t hor]
    refine h'.dir_eq d t ?_
    rw [h.current_eq]
    refine hor.imp_left fun hne => ?_
    rwa [h.dir_eq d t hor]
  · exact fun b => (h'.accounted b).trans (h.accounted b)
  · intro h0
    rw [hdir]
    exact h.new_table h0
  · intro d hd q hq
    rw [h'.view_other d (h.live_eq ▸ hd) q hq, h.view_other d hd q hq]
  · intro hw d hd
    rw [h'.view_self (h.windowPage_eq ▸ hw) d (h.live_eq ▸ hd), h.current_eq]
    split
    · rfl
    · rename_i hne
      -- A directory that does not share the table after both writes did not share it before.
      rw [h.view_self hw d hd, if_neg]
      intro heq
      rw [hdir, h'.dir_eq d _ (.inl (heq ▸ h.dir_ne))] at hne
      exact hne heq
  · intro hw
    rw [h'.window (h.windowPage_eq ▸ hw), h.current_eq]
  · intro d hd
    rw [h'.cache_other d (h.current_eq ▸ hd), h.cache_other d hd]

@[simp]
lemma pageAddr_zero (addr : Word) : pageAddr addr 0 = addr := by
  simp [pageAddr]

lemma freePages_one (d : ℕ) (addr : Word) : s.freePages d addr 1 = s.freePage d addr := by
  simp [freePages, List.foldlM_cons]

section

variable (h : WF s) (hp : pageOf addr ≠ s.windowPage)
  (hP : HitCache.Holds P (s.dirs s.current).entrycache)
  (hPv : s.view s.current (pageOf addr) ≠ 0 → P (pageOf addr) (s.view s.current (pageOf addr)))
  (hPp : ∀ e, P (pageOf addr) e → e = s.view s.current (pageOf addr))
  (hframe : isPresent (s.view s.current (pageOf addr)) = true →
    ¬ s.IsTable (frame (s.view s.current (pageOf addr))) ∧
      frame (s.view s.current (pageOf addr)) ≠ 0)

include h hp hP hPv hPp hframe

/-- `free_pages` of one page, when the cache has for the page nothing but its entry and the frame
is no page table. -/
lemma freePage_pageFreed (hs : s.freePage s.current addr = some s') :
    PageFreed s s' (pageOf addr) 0 ∧
      ∀ Q : ℕ → Word → Prop, (∀ k v, k ≠ pageOf addr → P k v → Q k v) →
        HitCache.Holds Q (s'.dirs s.current).entrycache := by
  unfold freePage at hs
  dsimp only at hs
  set p := pageOf addr
  obtain ⟨s3, hset, rfl⟩ := map_eq_some_iff.mp hs
  have hstill0 := still_lowfree (s := s) s.current p
  have hcache0 := lowfree_entrycache (s := s) s.current p s.current
  set s0 := s.modifyDir s.current fun pd =>
    if p < kernelPages ∧ p < pd.klowfree then { pd with klowfree := p }
    else if p ≥ kernelPages ∧ p < pd.ulowfree then { pd with ulowfree := p } else pd
  have hwf0 : WF s0 := hstill0.wf h h.distinct fun _ => id
  have hview0 : s0.view s0.current p = s.view s.current p := hstill0.view_eq _ h.current_mem p
  obtain ⟨hvalue, hcache1⟩ := getTableEntry_eq_view hwf0 hp (hcache0 ▸ hP)
    (by rw [hview0]; exact hPv) (by rw [hview0]; exact hPp)
  have hlooked : Looked s0 (s0.getTableEntry s.current p).2 s.current :=
    getTableEntry_looked hwf0 hwf0.current_mem hwf0.window_current p
  change (s0.getTableEntry s.current p).1 = s0.view s0.current p at hvalue
  rw [hvalue, hview0] at hset
  set e := s.view s.current p with he
  set s1 := (s0.getTableEntry s.current p).2 with hs1
  have hwf1 : WF s1 := hlooked.wf hwf0
  have hstill1 : Still s s1 := hstill0.trans (Looked.still hlooked)
  have hphys1 : s1.phys = s.phys := hlooked.phys_eq
  obtain ⟨hstill2, hwf2, hcache2, hfree2⟩ := still_freeEntry hwf1 (e := e)
    (fun hpresent => ⟨fun hf => (hframe hpresent).1 (hstill1.isTable hf), (hframe hpresent).2⟩) rfl
  set s2 : State := if isPresent e then { s1 with phys := s1.phys.freeAddr (frame e) } else s1
  rw [hphys1] at hfree2
  have hstill : Still s s2 := hstill1.trans hstill2
  rw [← hstill.current_eq] at hset
  have hentry := setTableEntry_entrySet hwf2 hset
  obtain ⟨hcount, hframes, hphys, hcache⟩ :=
    still_count (rfl : s3.countUnmapped s.current addr = _)
  have hwf' : WF (s3.countUnmapped s.current addr) :=
    hcount.wf hentry.wf (hphys ▸ hentry.wf.distinct) fun _ hb => hphys ▸ hb
  have hpage : PageSet s (s3.countUnmapped s.current addr) p 0 := by
    refine PageSet.of_still hstill (fun h0 b hb => ?_) (hentry.toPageSet.then_still hcount hwf'
        (windowFrame_congr hcount.toBeside hframes hcount.dir_eq))
    -- Where there is no table there is no entry, and nothing was freed.
    refine (hfree2 b hb).resolve_right fun hwas => ?_
    rw [he, view_eq_zero_of_dir h0, isPresent_zero] at hwas
    exact Bool.noConfusion hwas.1
  refine ⟨⟨hpage, fun b hb => ?_⟩, fun Q hPQ => ?_⟩
  · rw [hphys] at hb
    exact hfree2 b (hentry.isFree b hb)
  · have hlines : (s3.dirs s.current).entrycache =
        HitCache.clear p (s1.dirs s.current).entrycache := by
      rw [← hcache2, ← hstill.current_eq]
      exact hentry.cache_self
    rw [hcache, hlines]
    exact HitCache.clear_holds hcache1 hPQ

/-- `guard_page_at`: a page that was present is freed, and the entry is marked. -/
lemma guardPageAt_pageFreed (hs : s.guardPageAt s.current addr = some s') :
    PageFreed s s' (pageOf addr) ((if isPresent (s.view s.current (pageOf addr)) then 0
          else s.view s.current (pageOf addr)) ||| guardPage) ∧
      ∀ Q : ℕ → Word → Prop, (∀ k v, k ≠ pageOf addr → P k v → Q k v) →
        HitCache.Holds Q (s'.dirs s.current).entrycache := by
  unfold guardPageAt at hs
  dsimp only at hs
  obtain ⟨hvalue, hcache1⟩ := getTableEntry_eq_view h hp hP hPv hPp
  have hlooked := getTableEntry_looked h h.current_mem h.window_current (pageOf addr)
  rw [hvalue] at hs
  set p := pageOf addr
  set e := s.view s.current p
  set s1 := (s.getTableEntry s.current p).2
  have hwf1 : WF s1 := hlooked.wf h
  have hcur1 : s1.current = s.current := hlooked.current_eq
  have hview1 : s1.view s1.current p = e := by
    rw [hcur1]
    exact hlooked.view_eq _ h.current_mem p
  have hfree1 : ∀ b, s1.phys.IsFree b → s.phys.IsFree b := fun b hb => hlooked.phys_eq ▸ hb
  have hstill1 := Looked.still hlooked
  rw [← hcur1] at hs hcache1 ⊢
  by_cases hpresent : isPresent e = true
  · rw [if_pos hpresent] at hs
    obtain ⟨s2, hfreed, hs⟩ := bind_eq_some_iff.mp hs
    rw [freePages_one] at hfreed
    obtain ⟨hfreed, hcache2⟩ := freePage_pageFreed hwf1
      (by rw [hlooked.windowPage_eq]; exact hp) hcache1 (by rw [hview1]; exact hPv)
      (by rw [hview1]; exact hPp) (by
        rw [hview1]
        exact fun hpr => ⟨fun hf => (hframe hpr).1 (hstill1.isTable hf), (hframe hpr).2⟩) hfreed
    have hp1 : p ≠ s1.windowPage := by
      rw [hlooked.windowPage_eq]
      exact hp
    have hview2 : s2.view s2.current p = 0 := by
      rw [hfreed.current_eq]
      exact hfreed.toPageSet.view_current hwf1 hp1
    -- After `free_pages` the page is not in the cache, and its entry 0 does not get there.
    obtain ⟨hvalue2, hcache3⟩ := getTableEntry_eq_view (P := fun k v => k ≠ p ∧ P k v) hfreed.wf
      (by rw [hfreed.windowPage_eq]; exact hp1)
      (by rw [hfreed.current_eq]; exact hcache2 _ fun _ _ hk hv => ⟨hk, hv⟩)
      (fun hne => absurd hview2 hne) (fun _ hv => absurd rfl hv.1)
    have hlooked2 := getTableEntry_looked hfreed.wf hfreed.wf.current_mem hfreed.wf.window_current p
    rw [← hfreed.current_eq, hvalue2, hview2] at hs
    set s3 := (s2.getTableEntry s2.current p).2
    rw [← hlooked2.current_eq] at hs
    have hentry := setTableEntry_entrySet (hlooked2.wf hfreed.wf) hs
    have hpage2 : PageSet s2 s' p (0 ||| guardPage) :=
      PageSet.of_still (Looked.still hlooked2) (fun _ b hb => hlooked2.phys_eq ▸ hb)
        hentry.toPageSet
    rw [if_pos hpresent]
    refine ⟨⟨PageSet.of_still hstill1 (fun _ => hfree1)
      (hfreed.toPageSet.trans hpage2), fun b hb => ?_⟩, fun Q hPQ => ?_⟩
    · have hb3 := hentry.isFree b hb
      rw [hlooked2.phys_eq] at hb3
      have hb1 := hfreed.isFree b hb3
      rw [hview1, hlooked.phys_eq] at hb1
      exact hb1
    · rw [← hfreed.current_eq, ← hlooked2.current_eq, hentry.cache_self]
      rw [← hlooked2.current_eq] at hcache3
      exact HitCache.clear_holds hcache3 fun k v hk hv => hPQ k v hk hv.2
  · rw [if_neg hpresent] at hs
    have hentry := setTableEntry_entrySet hwf1 hs
    rw [if_neg hpresent]
    refine ⟨⟨PageSet.of_still hstill1 (fun _ => hfree1) hentry.toPageSet,
      fun b hb => .inl (hfree1 b (hentry.isFree b hb))⟩, fun Q hPQ => ?_⟩
    rw [hentry.cache_self]
    exact HitCache.clear_holds hcache1 hPQ

end

/-! ## Freeing several pages -/

/-- The pages in `R` that are present are in different frames, which are in use and are no page
tables. -/
structure Backed (s : State) (R : ℕ → Prop) : Prop where
  not_window : ∀ p, R p → p ≠ s.windowPage
  used : ∀ p, R p → isPresent (s.view s.current p) = true →
    ¬ s.IsTable (frame (s.view s.current p)) ∧ frame (s.view s.current p) ≠ 0 ∧
      ¬ s.phys.IsFree (frame (s.view s.current p))
  distinct : ∀ p q, R p → R q → isPresent (s.view s.current p) = true →
    isPresent (s.view s.current q) = true →
    frame (s.view s.current p) = frame (s.view s.current q) → p = q

/-- A write to one of the pages that leaves it absent, or to another page, leaves the frames of the
others alone when none of them gets free. -/
lemma Backed.pageSet {R : ℕ → Prop} (h : s.Backed R) (hwf : WF s) (hset : PageSet s s' p e)
    (he : R p → isPresent e = false)
    (hfree : ∀ q, R q → q ≠ p → isPresent (s.view s.current q) = true →
      s'.phys.IsFree (frame (s.view s.current q)) →
        s.phys.IsFree (frame (s.view s.current q))) : s'.Backed R := by
  have hview : ∀ q, R q → isPresent (s'.view s'.current q) = true →
      q ≠ p ∧ s'.view s'.current q = s.view s.current q := by
    intro q hq hpresent
    rw [hset.current_eq] at hpresent ⊢
    have hne : q ≠ p := by
      rintro rfl
      rw [hset.view_current hwf (h.not_window q hq), he hq] at hpresent
      cases hpresent
    exact ⟨hne, hset.view_other _ hwf.current_mem q hne⟩
  refine ⟨fun q hq => hset.windowPage_eq ▸ h.not_window q hq, fun q hq hpresent => ?_,
    fun q r hq hr hpq hpr heq => ?_⟩
  · obtain ⟨hne, heq⟩ := hview q hq hpresent
    rw [heq] at hpresent ⊢
    obtain ⟨htable, h0, hused⟩ := h.used q hq hpresent
    refine ⟨?_, h0, fun hnow => hused (hfree q hq hne hpresent hnow)⟩
    rintro ⟨d, hd, t, ht, hframe⟩
    rw [hset.live_eq] at hd
    by_cases hold : s.dir d t ≠ 0 ∨ d ≠ s.current ∨ t ≠ p / tableEntries
    · rw [hset.dir_eq d t hold] at ht hframe
      exact htable ⟨d, hd, t, ht, hframe⟩
    · -- A table that was created for the write is in a frame that was free.
      rw [not_or, not_not, not_or, not_not, not_not] at hold
      obtain ⟨hzero, rfl, rfl⟩ := hold
      exact hused (hframe ▸ hset.new_table hzero)
  · obtain ⟨-, heq1⟩ := hview q hq hpq
    obtain ⟨-, heq2⟩ := hview r hr hpr
    rw [heq1] at hpq heq
    rw [heq2] at hpr heq
    exact h.distinct q r hq hr hpq hpr heq

lemma Backed.pageFreed {R : ℕ → Prop} (h : s.Backed R) (hwf : WF s) (hp : R p)
    (he : isPresent e = false) (hf : PageFreed s s' p e) : s'.Backed R := by
  refine h.pageSet hwf hf.toPageSet (fun _ => he) fun q hq hne hpresent hfree => ?_
  refine (hf.isFree _ hfree).resolve_right fun ⟨hpp, hframe, _⟩ => ?_
  exact hne (h.distinct q p hq hp hpresent hpp hframe)

/-! ## Switching directories -/

lemma dir_copyKernelspace (d d' e t : ℕ) : (s.copyKernelspace d d').dir e t =
    if t < kernelTables ∧ e = d then s.dir d' t else s.dir e t := by
  unfold copyKernelspace modifyDir
  by_cases he : e = d
  · subst he
    by_cases ht : t < kernelTables <;> simp [dir, ht]
  · simp [dir, he]

/-- After `mm2_switch` the kernel's directory and the new one have the kernel tables of the current
one. -/
lemma dir_mm2Switch (n d t : ℕ) : (s.mm2Switch n).dir d t =
    if t < kernelTables ∧ (d = s.kernel ∨ d = n) then s.dir s.current t else s.dir d t := by
  show ((s.copyKernelspace s.kernel s.current).copyKernelspace n s.kernel).dir d t = _
  rw [dir_copyKernelspace, dir_copyKernelspace, dir_copyKernelspace]
  by_cases ht : t < kernelTables
  · by_cases hn : d = n <;> by_cases hk : d = s.kernel <;> simp [ht, hn, hk]
  · simp [ht]

lemma mm2Switch_field {β : Type*} (g : PageDir → β)
    (hg : ∀ (pd : PageDir) dir low, g { pd with directory := dir, klowfree := low } = g pd)
    (n d : ℕ) : g ((s.mm2Switch n).dirs d) = g (s.dirs d) := by
  show g (((s.copyKernelspace s.kernel s.current).copyKernelspace n s.kernel).dirs d) = _
  have hcopy : ∀ (s : State) (d1 d2 : ℕ), g ((s.copyKernelspace d1 d2).dirs d) = g (s.dirs d) :=
    fun s d1 d2 => modifyDir_field g d1 (fun pd => hg pd _ _) d
  rw [hcopy, hcopy]

/-- A table that a directory has after a switch is one that it had, or a kernel table of the
directory that was current. -/
lemma WF.dir_mm2Switch_ne (h : WF s) {n t : ℕ} (hd : d ∈ s.live)
    (hne : (s.mm2Switch n).dir d t ≠ 0) : ∃ d' ∈ s.live, (s.mm2Switch n).dir d t = s.dir d' t ∧
      (t < kernelTables → d' = s.current) ∧ (¬ t < kernelTables → d' = d) := by
  by_cases ht : t < kernelTables
  · refine ⟨s.current, h.current_mem, ?_, fun _ => rfl, fun hlt => absurd ht hlt⟩
    rw [dir_mm2Switch] at hne ⊢
    split
    · rfl
    · rename_i hor
      rw [if_neg hor] at hne
      exact h.kernel_part d hd t ht hne
  · refine ⟨d, hd, ?_, fun hlt => absurd hlt ht, fun _ => rfl⟩
    rw [dir_mm2Switch, if_neg fun hand => ht hand.1]

lemma WF.mm2Switch (h : WF s) {n : ℕ} (hn : n ∈ s.live) : WF (s.mm2Switch n) := by
  have hwindow : ∀ d, d = s.kernel ∨ d = n →
      (s.mm2Switch n).dir d s.windowTable = s.dir s.current s.windowTable := by
    intro d hd
    rw [dir_mm2Switch, if_pos ⟨h.windowTable_lt, hd⟩]
  have hcurrent : ∀ t < kernelTables, (s.mm2Switch n).dir n t = s.dir s.current t := by
    intro t ht
    rw [dir_mm2Switch, if_pos ⟨ht, .inr rfl⟩]
  refine ⟨hn, h.kernel_mem, h.window_lt, ?_, ?_, ?_, ?_, ?_, ?_, h.distinct, h.zero_used, ?_⟩
  · show (s.mm2Switch n).dir n s.windowTable ≠ 0
    rw [hwindow n (.inr rfl)]
    exact h.window_current
  · show (s.mm2Switch n).dir s.kernel s.windowTable ≠ 0
    rw [hwindow s.kernel (.inl rfl)]
    exact h.window_current
  · intro d hd t hne
    obtain ⟨d', hd', heq, -, -⟩ := h.dir_mm2Switch_ne hd hne
    rw [heq] at hne ⊢
    exact h.entry_ok d' hd' t hne
  · intro d hd t ht hne
    obtain ⟨d', -, heq, hcur, -⟩ := h.dir_mm2Switch_ne hd hne
    show (s.mm2Switch n).dir d t = (s.mm2Switch n).dir n t
    rw [heq, hcurrent t ht, hcur ht]
  · intro d1 hd1 d2 hd2 t1 t2 h1 h2 heq
    obtain ⟨d1', hd1', heq1, -, hsame1⟩ := h.dir_mm2Switch_ne hd1 h1
    obtain ⟨d2', hd2', heq2, -, hsame2⟩ := h.dir_mm2Switch_ne hd2 h2
    rw [heq1] at h1 heq
    rw [heq2] at h2 heq
    obtain ⟨rfl, hor⟩ := h.tables d1' hd1' d2' hd2' t1 t2 h1 h2 heq
    refine ⟨rfl, ?_⟩
    by_cases ht : t1 < kernelTables
    · exact .inr ht
    · rw [← hsame1 ht, ← hsame2 ht]
      exact hor
  · intro d hd t hne
    obtain ⟨d', hd', heq, -, -⟩ := h.dir_mm2Switch_ne hd hne
    rw [heq] at hne ⊢
    exact h.tables_used d' hd' t hne
  · intro d hd
    rw [mm2Switch_field PageDir.ulowfree fun _ _ _ => rfl]
    exact h.ulowfree_ge d hd

/-- A switch gives a directory the pages of kernel tables that it did not have, and changes no other
entry. -/
lemma WF.view_mm2Switch (h : WF s) (n : ℕ) (hd : d ∈ s.live) (q : ℕ) :
    (s.mm2Switch n).view d q = s.view d q ∨
      (s.view d q = 0 ∧ q / tableEntries < kernelTables ∧
        (s.mm2Switch n).view d q = s.view s.current q) := by
  have hview : ∀ d', (s.mm2Switch n).dir d (q / tableEntries) = s.dir d' (q / tableEntries) →
      (s.mm2Switch n).view d q = s.view d' q := by
    intro d' hdir
    rw [view, view, stored, stored, hdir]
    rfl
  by_cases hcopied : q / tableEntries < kernelTables ∧ (d = s.kernel ∨ d = n)
  · have hnew := hview s.current (by rw [dir_mm2Switch, if_pos hcopied])
    by_cases h0 : s.dir d (q / tableEntries) = 0
    · exact .inr ⟨view_eq_zero_of_dir h0, hcopied.1, hnew⟩
    · left
      rw [hnew, view, view, stored, stored, h.kernel_part d hd _ hcopied.1 h0]
  · exact .inl (hview d (by rw [dir_mm2Switch, if_neg hcopied]))

lemma WF.windowFrame_mm2Switch (h : WF s) (n : ℕ) :
    (s.mm2Switch n).windowFrame = s.windowFrame := by
  have hdir : (s.mm2Switch n).dir n s.windowTable = s.dir s.current s.windowTable := by
    rw [dir_mm2Switch, if_pos ⟨h.windowTable_lt, .inr rfl⟩]
  show frame (s.frames (frame ((s.mm2Switch n).dir n s.windowTable)) s.windowSlot) = _
  rw [hdir, windowFrame]

end State

end Memory
