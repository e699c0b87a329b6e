import Btos.Memory.PageDirectory

/-!
# Well-formed page tables

What the page tables of a running kernel are like, and what looking up and writing one entry do
to them.

* `WF s`: the page tables of the live directories are distinct frames in use; kernel tables are
  shared with the current directory; the window is mapped.
* `view s d p`: the entry of page `p` in directory `d`, as far as the operations are about it: the
  entry of the window page itself, which every access to a page table rewrites, is taken out.
* `getTableEntry_looked`: a lookup leaves the view, and finds what the cache or the view has.
* `setTableEntry_entrySet`: writing an entry changes the view of that page, for every directory
  that shares the table, and nothing else. A table is created for it where there is none.
-/

open Option

namespace Memory

namespace State

/-- The entry of a page, except for the window page. -/
def view (s : State) (d p : ℕ) : Word := if p = s.windowPage then 0 else s.stored d p

/-- The page tables are well formed. -/
structure WF (s : State) : Prop where
  current_mem : s.current ∈ s.live
  kernel_mem : s.kernel ∈ s.live
  window_lt : s.windowPage < kernelPages
  window_current : s.dir s.current s.windowTable ≠ 0
  window_kernel : s.dir s.kernel s.windowTable ≠ 0
  entry_ok : ∀ d ∈ s.live, ∀ t, s.dir d t ≠ 0 →
    isPresent (s.dir d t) = true ∧ frame (s.dir d t) ≠ 0
  /-- A kernel table that a directory has is the one of the current directory. -/
  kernel_part : ∀ d ∈ s.live, ∀ t < kernelTables, s.dir d t ≠ 0 → s.dir d t = s.dir s.current t
  /-- No frame is two tables. -/
  tables : ∀ d₁ ∈ s.live, ∀ d₂ ∈ s.live, ∀ t₁ t₂, s.dir d₁ t₁ ≠ 0 → s.dir d₂ t₂ ≠ 0 →
    frame (s.dir d₁ t₁) = frame (s.dir d₂ t₂) → t₁ = t₂ ∧ (d₁ = d₂ ∨ t₁ < kernelTables)
  tables_used : ∀ d ∈ s.live, ∀ t, s.dir d t ≠ 0 → ¬ s.phys.IsFree (frame (s.dir d t))
  distinct : s.phys.Distinct
  zero_used : ¬ s.phys.IsFree 0
  ulowfree_ge : ∀ d ∈ s.live, kernelPages ≤ (s.dirs d).ulowfree

variable {s s' : State} {d p t : ℕ} {e : Word}

/-! ## Writes -/

variable {f : PageDir → PageDir}

lemma modifyDir_field {β : Type*} (g : PageDir → β) (d : ℕ)
    (hf : ∀ pd, g (f pd) = g pd) (d' : ℕ) : g ((s.modifyDir d f).dirs d') = g (s.dirs d') := by
  unfold modifyDir
  by_cases hd : d' = d
  · subst hd
    simp [hf]
  · simp [hd]

lemma dir_modifyDir (hf : ∀ pd, (f pd).directory = pd.directory)
    (d d' t : ℕ) : (s.modifyDir d f).dir d' t = s.dir d' t :=
  congrFun (modifyDir_field PageDir.directory d hf d') t

@[simp]
lemma dir_setCache (d d' t : ℕ) (c : List (HitCache.Line ℕ Word)) :
    (s.setCache d c).dir d' t = s.dir d' t := by
  unfold setCache
  apply dir_modifyDir
  intro pd
  rfl

@[simp]
lemma dir_writeFrame (f : Word) (j : ℕ) (e : Word) (d t : ℕ) :
    (s.writeFrame f j e).dir d t = s.dir d t := rfl

@[simp]
lemma dir_zeroFrame (f : Word) (d t : ℕ) : (s.zeroFrame f).dir d t = s.dir d t := rfl

lemma dir_setDirEntry (d t : ℕ) (e : Word) (d' t' : ℕ) :
    (s.setDirEntry d t e).dir d' t' = if d' = d ∧ t' = t then e else s.dir d' t' := by
  unfold setDirEntry modifyDir dir
  by_cases hd : d' = d
  · subst hd
    by_cases ht : t' = t
    · subst ht
      simp
    · simp [ht]
  · simp [hd]

lemma frames_writeFrame (f : Word) (j : ℕ) (e : Word) (f' : Word) (j' : ℕ) :
    (s.writeFrame f j e).frames f' j' = if f' = f ∧ j' = j then e else s.frames f' j' := by
  unfold writeFrame
  by_cases hf : f' = f
  · subst hf
    by_cases hj : j' = j
    · subst hj
      simp
    · simp [hj]
  · simp [hf]

lemma frames_zeroFrame_of_ne (s : State) {f f' : Word} (hf : f' ≠ f) (j : ℕ) :
    (s.zeroFrame f).frames f' j = s.frames f' j := by
  unfold zeroFrame
  simp [hf]

/-! ## Tables -/

lemma frame_ne_zero_iff (h : WF s) (hd : d ∈ s.live) : frame (s.dir d t) ≠ 0 ↔ s.dir d t ≠ 0 :=
  ⟨fun hf he => hf (by rw [he, frame_zero]), fun he => (h.entry_ok d hd t he).2⟩

lemma WF.windowTable_lt (h : WF s) : s.windowTable < kernelTables := by
  have hlt := h.window_lt
  unfold windowTable
  simp only [kernelPages, kernelTables, tableEntries] at *
  omega

lemma WF.window_eq (h : WF s) (hd : d ∈ s.live) (hw : s.dir d s.windowTable ≠ 0) :
    s.dir d s.windowTable = s.dir s.current s.windowTable :=
  h.kernel_part d hd _ h.windowTable_lt hw

lemma WF.frame_eq_iff (h : WF s) {d1 d2 t1 t2 : ℕ} (hd1 : d1 ∈ s.live) (hd2 : d2 ∈ s.live)
    (h1 : s.dir d1 t1 ≠ 0) (h2 : s.dir d2 t2 ≠ 0) :
    frame (s.dir d1 t1) = frame (s.dir d2 t2) ↔ t1 = t2 ∧ s.dir d1 t1 = s.dir d2 t2 := by
  constructor
  · intro heq
    obtain ⟨rfl, hor⟩ := h.tables d1 hd1 d2 hd2 t1 t2 h1 h2 heq
    refine ⟨rfl, ?_⟩
    rcases hor with rfl | hlt
    · rfl
    · rw [h.kernel_part d1 hd1 t1 hlt h1, h.kernel_part d2 hd2 t1 hlt h2]
  · rintro ⟨rfl, heq⟩
    rw [heq]

lemma page_eq_iff (p q : ℕ) :
    p = q ↔ p / tableEntries = q / tableEntries ∧ p % tableEntries = q % tableEntries := by
  simp only [tableEntries]
  omega

/-- What a page table operation leaves alone. -/
structure Beside (s s' : State) : Prop where
  live_eq : s'.live = s.live
  current_eq : s'.current = s.current
  kernel_eq : s'.kernel = s.kernel
  windowPage_eq : s'.windowPage = s.windowPage
  spaces_eq : s'.spaces = s.spaces
  mappings_eq : s'.mappings = s.mappings
  mmappings_eq : s'.mmappings = s.mmappings
  regions_eq : ∀ d, (s'.dirs d).regions = (s.dirs d).regions
  directoryAddr_eq : ∀ d, (s'.dirs d).directoryAddr = (s.dirs d).directoryAddr
  ulowfree_ge : ∀ d, kernelPages ≤ (s.dirs d).ulowfree → kernelPages ≤ (s'.dirs d).ulowfree

lemma Beside.refl (s : State) : Beside s s :=
  ⟨rfl, rfl, rfl, rfl, rfl, rfl, rfl, fun _ => rfl, fun _ => rfl, fun _ => id⟩

lemma Beside.trans {s'' : State} (h : Beside s s') (h' : Beside s' s'') : Beside s s'' where
  live_eq := h'.live_eq.trans h.live_eq
  current_eq := h'.current_eq.trans h.current_eq
  kernel_eq := h'.kernel_eq.trans h.kernel_eq
  windowPage_eq := h'.windowPage_eq.trans h.windowPage_eq
  spaces_eq := h'.spaces_eq.trans h.spaces_eq
  mappings_eq := h'.mappings_eq.trans h.mappings_eq
  mmappings_eq := h'.mmappings_eq.trans h.mmappings_eq
  regions_eq d := (h'.regions_eq d).trans (h.regions_eq d)
  directoryAddr_eq d := (h'.directoryAddr_eq d).trans (h.directoryAddr_eq d)
  ulowfree_ge d hd := h'.ulowfree_ge d (h.ulowfree_ge d hd)

lemma beside_modifyDir (d : ℕ)
    (hf : ∀ pd, (f pd).regions = pd.regions ∧ (f pd).directoryAddr = pd.directoryAddr)
    (hlow : ∀ pd : PageDir, kernelPages ≤ pd.ulowfree → kernelPages ≤ (f pd).ulowfree) :
    Beside s (s.modifyDir d f) := by
  refine ⟨rfl, rfl, rfl, rfl, rfl, rfl, rfl, modifyDir_field PageDir.regions d fun pd => (hf pd).1,
    modifyDir_field PageDir.directoryAddr d fun pd => (hf pd).2, fun d' hd' => ?_⟩
  unfold modifyDir
  by_cases hd : d' = d
  · subst hd
    simpa using hlow _ hd'
  · simpa [hd] using hd'

lemma beside_of_dirs_eq (hlive : s'.live = s.live) (hcurrent : s'.current = s.current)
    (hkernel : s'.kernel = s.kernel) (hwindow : s'.windowPage = s.windowPage)
    (hspaces : s'.spaces = s.spaces) (hmappings : s'.mappings = s.mappings)
    (hmmappings : s'.mmappings = s.mmappings) (hdirs : s'.dirs = s.dirs) : Beside s s' :=
  ⟨hlive, hcurrent, hkernel, hwindow, hspaces, hmappings, hmmappings, fun _ => by rw [hdirs],
    fun _ => by rw [hdirs], fun _ hd => by rwa [hdirs]⟩

lemma beside_writeFrame (f : Word) (j : ℕ) (e : Word) : Beside s (s.writeFrame f j e) :=
  beside_of_dirs_eq rfl rfl rfl rfl rfl rfl rfl rfl

lemma beside_zeroFrame (f : Word) : Beside s (s.zeroFrame f) :=
  beside_of_dirs_eq rfl rfl rfl rfl rfl rfl rfl rfl

lemma beside_setCache (d : ℕ) (c : List (HitCache.Line ℕ Word)) : Beside s (s.setCache d c) :=
  beside_modifyDir d (fun _ => ⟨rfl, rfl⟩) fun _ => id

lemma Beside.windowTable_eq (h : Beside s s') : s'.windowTable = s.windowTable := by
  rw [windowTable, windowTable, h.windowPage_eq]

lemma Beside.windowSlot_eq (h : Beside s s') : s'.windowSlot = s.windowSlot := by
  rw [windowSlot, windowSlot, h.windowPage_eq]

/-- Well-formedness is about the directories and the free frames. -/
lemma WF.congr (h : WF s) (hb : Beside s s') (hdir : ∀ d t, s'.dir d t = s.dir d t)
    (hdistinct : s'.phys.Distinct) (hfree : ∀ b, s'.phys.IsFree b → s.phys.IsFree b) : WF s' := by
  refine ⟨?_, ?_, ?_, ?_, ?_, ?_, ?_, ?_, ?_, hdistinct, fun h0 => h.zero_used (hfree _ h0), ?_⟩
  · rw [hb.current_eq, hb.live_eq]
    exact h.current_mem
  · rw [hb.kernel_eq, hb.live_eq]
    exact h.kernel_mem
  · rw [hb.windowPage_eq]
    exact h.window_lt
  · rw [hdir, hb.current_eq, hb.windowTable_eq]
    exact h.window_current
  · rw [hdir, hb.kernel_eq, hb.windowTable_eq]
    exact h.window_kernel
  · simp only [hdir, hb.live_eq]
    exact h.entry_ok
  · simp only [hdir, hb.live_eq, hb.current_eq]
    exact h.kernel_part
  · simp only [hdir, hb.live_eq]
    exact h.tables
  · simp only [hdir, hb.live_eq]
    exact fun d hd t ht hf => h.tables_used d hd t ht (hfree _ hf)
  · intro d hd
    rw [hb.live_eq] at hd
    exact hb.ulowfree_ge d (h.ulowfree_ge d hd)

/-- Steps on the fields of directories that are no part of the page tables. -/
lemma WF.modifyDir (h : WF s) {g : PageDir → PageDir} (hg : ∀ pd, (g pd).directory = pd.directory)
    (hlow : d ∈ s.live → kernelPages ≤ (g (s.dirs d)).ulowfree) : WF (s.modifyDir d g) := by
  have hdir : ∀ d' t, (s.modifyDir d g).dir d' t = s.dir d' t := dir_modifyDir hg d
  refine ⟨h.current_mem, h.kernel_mem, h.window_lt, ?_, ?_, ?_, ?_, ?_, ?_, h.distinct, h.zero_used,
    fun d' hd' => ?_⟩
  · rw [hdir]
    exact h.window_current
  · rw [hdir]
    exact h.window_kernel
  · simp only [hdir]
    exact h.entry_ok
  · simp only [hdir]
    exact h.kernel_part
  · simp only [hdir]
    exact h.tables
  · simp only [hdir]
    exact h.tables_used
  · unfold State.modifyDir
    by_cases hdd : d' = d
    · subst hdd
      simpa using hlow hd'
    · simpa [hdd] using h.ulowfree_ge d' hd'

lemma view_congr (hw : s'.windowPage = s.windowPage) (hdir : s'.dir d (p / tableEntries) =
      s.dir d (p / tableEntries))
    (hframes : p ≠ s.windowPage → frame (s.dir d (p / tableEntries)) ≠ 0 →
      s'.frames (frame (s.dir d (p / tableEntries))) (p % tableEntries) =
        s.frames (frame (s.dir d (p / tableEntries))) (p % tableEntries)) :
    s'.view d p = s.view d p := by
  unfold view stored
  rw [hw, hdir]
  split
  · rfl
  · rename_i hp
    split
    · rfl
    · rename_i hf
      exact hframes hp hf

/-! ## The window -/

/-- The state after `map_table` of a table. -/
def showing (s : State) (d : ℕ) (a : Word) : State :=
  (s.writeFrame (frame (s.dir s.current s.windowTable)) s.windowSlot
    (frame a ||| (present ||| writable))).modifyDir d fun pd => { pd with currentTable := frame a }

variable {a : Word}

lemma WF.mapTable_eq (h : WF s) (hd : d ∈ s.live) (hw : s.dir d s.windowTable ≠ 0)
    (ha : frame a ≠ 0) : s.mapTable d a = (true, s.showing d a) := by
  rw [mapTable, if_neg ha, if_pos (h.entry_ok d hd _ hw).1, h.window_eq hd hw, showing]

@[simp]
lemma dir_showing (d : ℕ) (a : Word) (d' t : ℕ) : (s.showing d a).dir d' t = s.dir d' t := by
  unfold showing
  rw [dir_modifyDir, dir_writeFrame]
  intro pd
  rfl

lemma frames_showing (d : ℕ) (a f : Word) (j : ℕ) :
    (s.showing d a).frames f j =
      if f = frame (s.dir s.current s.windowTable) ∧ j = s.windowSlot then
        frame a ||| (present ||| writable)
      else s.frames f j :=
  frames_writeFrame _ _ _ f j

lemma windowFrame_showing (d : ℕ) (a : Word) : (s.showing d a).windowFrame = frame a := by
  have hslot : (s.showing d a).frames (frame (s.dir s.current s.windowTable)) s.windowSlot =
      frame a ||| (present ||| writable) := by
    rw [frames_showing, if_pos ⟨rfl, rfl⟩]
  show frame ((s.showing d a).frames (frame ((s.showing d a).dir s.current s.windowTable))
    s.windowSlot) = frame a
  rw [dir_showing, hslot]
  exact frame_or (aligned_frame a) (by decide)

lemma beside_showing (d : ℕ) (a : Word) : Beside s (s.showing d a) :=
  (beside_writeFrame _ _ _).trans (beside_modifyDir d (fun _ => ⟨rfl, rfl⟩) fun _ => id)

lemma WF.showing (h : WF s) (d : ℕ) (a : Word) : WF (s.showing d a) :=
  h.congr (beside_showing d a) (dir_showing d a) h.distinct fun _ => id

lemma WF.not_window (h : WF s) (hd : d ∈ s.live) (hp : p ≠ s.windowPage)
    (hf : frame (s.dir d (p / tableEntries)) ≠ 0) :
    ¬ (frame (s.dir d (p / tableEntries)) = frame (s.dir s.current s.windowTable) ∧
      p % tableEntries = s.windowSlot) := by
  rintro ⟨hframe, hslot⟩
  have hdir := (frame_ne_zero_iff h hd).mp hf
  obtain ⟨htable, -⟩ := (h.frame_eq_iff hd h.current_mem hdir h.window_current).mp hframe
  exact hp ((page_eq_iff p s.windowPage).mpr ⟨htable, hslot⟩)

lemma WF.view_showing (h : WF s) {d' : ℕ} (hd' : d' ∈ s.live) (d : ℕ) (a : Word) (q : ℕ) :
    (s.showing d a).view d' q = s.view d' q := by
  refine view_congr rfl (dir_showing d a d' _) fun hq hf => ?_
  rw [frames_showing, if_neg (h.not_window hd' hq hf)]

@[simp]
lemma entrycache_showing (d : ℕ) (a : Word) (d' : ℕ) :
    ((s.showing d a).dirs d').entrycache = (s.dirs d').entrycache := by
  unfold showing
  apply modifyDir_field PageDir.entrycache
  intro pd
  rfl

/-! ## Looking an entry up -/

/-- What a lookup leaves alone: everything but caches and the window. -/
structure Looked (s s' : State) (d : ℕ) : Prop extends Beside s s' where
  phys_eq : s'.phys = s.phys
  dir_eq : ∀ d' t, s'.dir d' t = s.dir d' t
  view_eq : ∀ d' ∈ s.live, ∀ q, s'.view d' q = s.view d' q
  cache_eq : ∀ d', d' ≠ d → (s'.dirs d').entrycache = (s.dirs d').entrycache
  window : s'.windowFrame = s.windowFrame ∨
    ∃ t, s.dir d t ≠ 0 ∧ s'.windowFrame = frame (s.dir d t)

lemma Looked.wf (h : Looked s s' d) (hs : WF s) : WF s' :=
  hs.congr h.toBeside h.dir_eq (h.phys_eq ▸ hs.distinct) fun _ hb => h.phys_eq ▸ hb

lemma Looked.windowTable_ne (h : Looked s s' d) (hw : s.dir d s.windowTable ≠ 0) :
    s'.dir d s'.windowTable ≠ 0 := by
  rwa [h.dir_eq, h.windowTable_eq]

lemma Looked.trans {s'' : State} (h : Looked s s' d) (h' : Looked s' s'' d) : Looked s s'' d where
  toBeside := h.toBeside.trans h'.toBeside
  phys_eq := h'.phys_eq.trans h.phys_eq
  dir_eq d' t := (h'.dir_eq d' t).trans (h.dir_eq d' t)
  view_eq d' hd' q := (h'.view_eq d' (h.live_eq ▸ hd') q).trans (h.view_eq d' hd' q)
  cache_eq d' hd' := (h'.cache_eq d' hd').trans (h.cache_eq d' hd')
  window := by
    rcases h'.window with heq | ⟨t, ht, heq⟩
    · rw [heq]
      exact h.window
    · rw [h.dir_eq] at ht heq
      exact .inr ⟨t, ht, heq⟩

lemma looked_setCache (d : ℕ) (c : List (HitCache.Line ℕ Word)) : Looked s (s.setCache d c) d where
  toBeside := beside_setCache d c
  phys_eq := rfl
  dir_eq d' t := dir_setCache d d' t c
  view_eq d' _ q := view_congr rfl (dir_setCache d d' _ c) fun _ _ => rfl
  cache_eq d' hd' := by
    unfold setCache modifyDir
    simp [hd']
  window := by
    left
    show frame (s.frames (frame ((s.setCache d c).dir s.current s.windowTable)) s.windowSlot) = _
    rw [dir_setCache, windowFrame]

lemma setCache_entrycache (d : ℕ) (c : List (HitCache.Line ℕ Word)) :
    ((s.setCache d c).dirs d).entrycache = c := by
  simp [setCache, modifyDir]

/-- The value read from the page table is the entry stored there. -/
lemma readEntry_looked (h : WF s) (hd : d ∈ s.live) (hw : s.dir d s.windowTable ≠ 0) (p : ℕ) :
    Looked s (s.readEntry d p).2 d ∧
      ((s.readEntry d p).2.dirs d).entrycache = (s.dirs d).entrycache ∧
      (s.readEntry d p).1 = (s.readEntry d p).2.stored d p := by
  unfold readEntry
  by_cases hf : frame (s.dir d (p / tableEntries)) = 0
  · dsimp only
    rw [if_neg (not_not.mpr hf)]
    refine ⟨⟨.refl s, rfl, fun _ _ => rfl, fun _ _ _ => rfl, fun _ _ => rfl, .inl rfl⟩, rfl, ?_⟩
    rw [stored, if_pos hf]
  · simp only [ne_eq, hf, not_false_eq_true, if_true, h.mapTable_eq hd hw hf]
    have hdir := (frame_ne_zero_iff h hd).mp hf
    refine ⟨⟨beside_showing d _, rfl, dir_showing d _, fun d' hd' q => h.view_showing hd' d _ q,
      fun d' _ => entrycache_showing d _ d', .inr ⟨_, hdir, windowFrame_showing d _⟩⟩,
      entrycache_showing d _ d, ?_⟩
    rw [stored, dir_showing, if_neg hf, windowFrame_showing]

lemma view_eq_stored (hp : p ≠ s.windowPage) : s.view d p = s.stored d p := by
  rw [view, if_neg hp]

/-- What a lookup does. The entry found is in the cache or is the one of the page table. -/
lemma getTableEntry_looked (h : WF s) (hd : d ∈ s.live) (hw : s.dir d s.windowTable ≠ 0)
    (p : ℕ) : Looked s (s.getTableEntry d p).2 d := by
  unfold getTableEntry
  dsimp only
  have hcache := looked_setCache (s := s) d
    (HitCache.get entrycacheMaxhits p (s.dirs d).entrycache).2
  set s1 := s.setCache d (HitCache.get entrycacheMaxhits p (s.dirs d).entrycache).2
  have hwf1 := hcache.wf h
  have hw1 := hcache.windowTable_ne hw
  split
  · obtain ⟨hread, -, -⟩ := readEntry_looked hwf1 hd hw1 p
    exact hcache.trans (hread.trans (looked_setCache d _))
  · exact hcache

/-- What a lookup finds, when the cache is right in the sense of `P`, and that the cache stays
so. -/
lemma getTableEntry_right (h : WF s) (hd : d ∈ s.live) (hw : s.dir d s.windowTable ≠ 0)
    {P : ℕ → Word → Prop} (hP : HitCache.Holds P (s.dirs d).entrycache)
    (hread : (s.getTableEntry d p).2.stored d p ≠ 0 → P p ((s.getTableEntry d p).2.stored d p)) :
    HitCache.Holds P ((s.getTableEntry d p).2.dirs d).entrycache ∧
      ((s.getTableEntry d p).1 = (s.getTableEntry d p).2.stored d p ∨
        P p (s.getTableEntry d p).1) := by
  unfold getTableEntry at hread ⊢
  dsimp only at hread ⊢
  have hcache := looked_setCache (s := s) d
    (HitCache.get entrycacheMaxhits p (s.dirs d).entrycache).2
  have hlines : ((s.setCache d
      (HitCache.get entrycacheMaxhits p (s.dirs d).entrycache).2).dirs d).entrycache =
      (HitCache.get entrycacheMaxhits p (s.dirs d).entrycache).2 := setCache_entrycache d _
  set s1 := s.setCache d (HitCache.get entrycacheMaxhits p (s.dirs d).entrycache).2
  have hP1 : HitCache.Holds P (s1.dirs d).entrycache := by
    rw [hlines]
    exact HitCache.get_holds hP
  have hw1 := hcache.windowTable_ne hw
  split at hread
  -- a miss: the entry is read from the table and goes into the cache
  · rename_i hzero
    rw [if_pos hzero]
    obtain ⟨hlooked, hsame, hvalue⟩ := readEntry_looked (hcache.wf h) hd hw1 p
    set s2 := (s1.readEntry d p).2
    have hstored : ∀ c, (s2.setCache d c).stored d p = s2.stored d p := by
      intro c
      unfold stored
      rw [dir_setCache]
      rfl
    rw [hstored] at hread ⊢
    refine ⟨?_, .inl hvalue⟩
    rw [setCache_entrycache, hsame]
    refine HitCache.set_holds hP1 ?_
    rw [hvalue]
    by_cases h0 : s2.stored d p = 0
    · exact .inl h0
    · exact .inr (hread h0)
  -- a hit: the cache is right by `hP`
  · rename_i hne
    rw [if_neg hne]
    exact ⟨hP1, .inr ((HitCache.get_right hP).resolve_left hne)⟩

/-! ## Writing an entry -/

/-- What the directories and the free frames are like when a table has been made sure of: if
there was none, one was created in a free frame. -/
structure Grown (s s' : State) (t : ℕ) : Prop extends Beside s s' where
  wf : WF s'
  dir_ne : s'.dir s.current t ≠ 0
  dir_eq : ∀ d t', (s.dir d t' ≠ 0 ∨ d ≠ s.current ∨ t' ≠ t) → s'.dir d t' = s.dir d t'
  accounted : ∀ b, s'.phys.Accounted b ↔ s.phys.Accounted b
  addresses : s'.phys.pages.map PhysPage.address = s.phys.pages.map PhysPage.address
  /-- The frame of a new table was free. -/
  new_table : s.dir s.current t = 0 → s.phys.IsFree (frame (s'.dir s.current t))

/-- The table is in the window. -/
structure Shown (s s' : State) (t : ℕ) : Prop extends Grown s s' t where
  isFree : ∀ b, s'.phys.IsFree b → s.phys.IsFree b
  windowFrame_eq : s'.windowFrame = frame (s'.dir s.current t)
  view_eq : ∀ d ∈ s.live, ∀ q, s'.view d q = s.view d q
  cache_eq : ∀ d, (s'.dirs d).entrycache = (s.dirs d).entrycache

/-- The current directory has a new table `a` in a frame that was free, and the other tables are as
before. -/
structure NewTable (s s' : State) (t : ℕ) (a : Word) : Prop extends Beside s s' where
  frame_eq : frame (s'.dir s.current t) = a
  present : isPresent (s'.dir s.current t) = true
  ne_zero : a ≠ 0
  dir_eq : ∀ d t', ¬ (d = s.current ∧ t' = t) → s'.dir d t' = s.dir d t'
  /-- The frame was free, so it is no table yet. -/
  fresh : ∀ d ∈ s.live, ∀ t', s.dir d t' ≠ 0 → frame (s.dir d t') ≠ a
  frames_eq : s'.frames = s.frames
  cache_eq : ∀ d, (s'.dirs d).entrycache = (s.dirs d).entrycache

/-- The entry of a table that was allocated. -/
lemma newTable_setDirEntry (h : WF s) {phys : Physical} {r : PageRef}
    (ha : Physical.Allocated s.phys phys r) :
    NewTable s (({ s with phys := phys } : State).setDirEntry s.current t
      (phys.address r ||| tableFlags t)) t (phys.address r) := by
  have hflags : tableFlags t &&& addressMask = 0 ∧ isPresent (tableFlags t) = true := by
    unfold tableFlags
    split <;> decide
  have hphys : Beside s { s with phys := phys } :=
    beside_of_dirs_eq rfl rfl rfl rfl rfl rfl rfl rfl
  refine ⟨hphys.trans (beside_modifyDir _ (fun _ => ⟨rfl, rfl⟩) fun _ => id), ?_, ?_,
    fun h0 => h.zero_used (h0 ▸ ha.was_free), fun d t' hne => ?_, fun d hd t' hne heq => ?_, rfl,
    ?_⟩
  · rw [dir_setDirEntry, if_pos ⟨rfl, rfl⟩, frame_or ha.aligned hflags.1]
  · rw [dir_setDirEntry, if_pos ⟨rfl, rfl⟩, isPresent_or ha.aligned]
    exact hflags.2
  · rw [dir_setDirEntry, if_neg hne]
    rfl
  · exact h.tables_used d hd t' hne (heq ▸ ha.was_free)
  · apply modifyDir_field PageDir.entrycache
    intro pd
    rfl

/-- A new table of the current directory, in a frame that was free. -/
lemma WF.newTable (h : WF s) (ht : s.dir s.current t = 0) {phys : Physical} {r : PageRef}
    (ha : Physical.Allocated s.phys phys r) :
    WF (({ s with phys := phys } : State).setDirEntry s.current t
      (phys.address r ||| tableFlags t)) := by
  have hn := newTable_setDirEntry (t := t) h ha
  set s1 := ({ s with phys := phys } : State).setDirEntry s.current t
    (phys.address r ||| tableFlags t)
  -- the entry of the new table was empty: whatever is said of an old entry is not about it
  have hne_new : ∀ d t', s.dir d t' ≠ 0 → ¬ (d = s.current ∧ t' = t) := by
    rintro d t' hne ⟨rfl, rfl⟩
    exact hne ht
  have hold := hn.dir_eq
  refine ⟨h.current_mem, h.kernel_mem, h.window_lt, ?_, ?_, ?_, ?_, ?_, ?_, ha.distinct, ?_, ?_⟩
  · show s1.dir s.current s.windowTable ≠ 0
    rw [hold _ _ (hne_new _ _ h.window_current)]
    exact h.window_current
  · show s1.dir s.kernel s.windowTable ≠ 0
    rw [hold _ _ (hne_new _ _ h.window_kernel)]
    exact h.window_kernel
  · intro d hd t' hne
    by_cases hdt : d = s.current ∧ t' = t
    · rw [hdt.1, hdt.2, hn.frame_eq]
      exact ⟨hn.present, hn.ne_zero⟩
    · rw [hold d t' hdt] at hne ⊢
      exact h.entry_ok d hd t' hne
  · intro d hd t' ht' hne
    show s1.dir d t' = s1.dir s.current t'
    by_cases hdt : d = s.current ∧ t' = t
    · rw [hdt.1]
    · rw [hold d t' hdt] at hne ⊢
      -- an entry of the kernel that some directory has is in the current one, so it is not new
      have heq := h.kernel_part d hd t' ht' hne
      rw [heq] at hne ⊢
      exact (hold _ _ (hne_new _ _ hne)).symm
  · intro d1 hd1 d2 hd2 t1 t2 h1 h2 heq
    by_cases hn1 : d1 = s.current ∧ t1 = t
    · by_cases hn2 : d2 = s.current ∧ t2 = t
      · rw [hn1.1, hn1.2, hn2.1, hn2.2]
        exact ⟨rfl, .inl rfl⟩
      -- the frame of the new table was free, those of the old tables are not
      · rw [hold d2 t2 hn2] at h2 heq
        rw [hn1.1, hn1.2, hn.frame_eq] at heq
        exact absurd heq.symm (hn.fresh d2 hd2 t2 h2)
    · rw [hold d1 t1 hn1] at h1 heq
      by_cases hn2 : d2 = s.current ∧ t2 = t
      · rw [hn2.1, hn2.2, hn.frame_eq] at heq
        exact absurd heq (hn.fresh d1 hd1 t1 h1)
      · rw [hold d2 t2 hn2] at h2 heq
        exact h.tables d1 hd1 d2 hd2 t1 t2 h1 h2 heq
  · intro d hd t' hne hfree
    obtain ⟨hwas, hother⟩ := (ha.isFree _).mp hfree
    by_cases hdt : d = s.current ∧ t' = t
    · rw [hdt.1, hdt.2, hn.frame_eq] at hother
      exact hother rfl
    · rw [hold d t' hdt] at hne hwas
      exact h.tables_used d hd t' hne hwas
  · exact fun h0 => h.zero_used ((ha.isFree 0).mp h0).1
  · exact fun d hd => hn.ulowfree_ge d (h.ulowfree_ge d hd)

/-- The steps that put a new table at `a` into the window: they write to it and to the window
entry. -/
structure Prepared (s s' : State) (a : Word) : Prop extends Beside s s' where
  phys_eq : s'.phys = s.phys
  dir_eq : ∀ d t, s'.dir d t = s.dir d t
  cache_eq : ∀ d, (s'.dirs d).entrycache = (s.dirs d).entrycache
  frames_eq : ∀ f j, f ≠ a →
    ¬ (f = frame (s.dir s.current s.windowTable) ∧ j = s.windowSlot) → s'.frames f j = s.frames f j

lemma Prepared.trans {s'' : State} (h : Prepared s s' a) (h' : Prepared s' s'' a) :
    Prepared s s'' a where
  toBeside := h.toBeside.trans h'.toBeside
  phys_eq := h'.phys_eq.trans h.phys_eq
  dir_eq d t := (h'.dir_eq d t).trans (h.dir_eq d t)
  cache_eq d := (h'.cache_eq d).trans (h.cache_eq d)
  frames_eq f j hf hw := by
    refine (h'.frames_eq f j hf ?_).trans (h.frames_eq f j hf hw)
    rw [h.dir_eq, h.current_eq, h.windowTable_eq, h.windowSlot_eq]
    exact hw

lemma prepared_showing (d : ℕ) (b a : Word) : Prepared s (s.showing d b) a where
  toBeside := beside_showing d b
  phys_eq := rfl
  dir_eq := dir_showing d b
  cache_eq := entrycache_showing d b
  frames_eq f j _ hw := by rw [frames_showing, if_neg hw]

lemma prepared_zeroFrame (a : Word) : Prepared s (s.zeroFrame a) a where
  toBeside := beside_zeroFrame a
  phys_eq := rfl
  dir_eq _ _ := rfl
  cache_eq _ := rfl
  frames_eq _ j hf _ := frames_zeroFrame_of_ne s hf j

lemma prepared_mapTable (h : WF s) (b a : Word) : Prepared s (s.mapTable s.current b).2 a := by
  by_cases hb : frame b = 0
  · rw [mapTable, if_pos hb]
    exact ⟨.refl s, rfl, fun _ _ => rfl, fun _ => rfl, fun _ _ _ _ => rfl⟩
  · rw [h.mapTable_eq h.current_mem h.window_current hb]
    exact prepared_showing s.current b a

lemma Prepared.wf (h : Prepared s s' a) (hs : WF s) : WF s' :=
  hs.congr h.toBeside h.dir_eq (h.phys_eq ▸ hs.distinct) fun _ hb => h.phys_eq ▸ hb

lemma windowFrame_zeroFrame (ha : frame (s.dir s.current s.windowTable) ≠ a) :
    (s.zeroFrame a).windowFrame = s.windowFrame := by
  show frame ((s.zeroFrame a).frames (frame (s.dir s.current s.windowTable)) s.windowSlot) = _
  rw [frames_zeroFrame_of_ne s ha, windowFrame]

section

variable (h : WF s)
include h

lemma prepared_show_zero {b a : Word} (hb : frame b = a) (ha : a ≠ 0) :
    Prepared s ((s.mapTable s.current b).2.zeroFrame (s.mapTable s.current b).2.windowFrame) a := by
  have hmap : s.mapTable s.current b = (true, s.showing s.current b) :=
    h.mapTable_eq h.current_mem h.window_current (hb ▸ ha)
  rw [hmap, windowFrame_showing, hb]
  exact (prepared_showing s.current b a).trans (prepared_zeroFrame a)

/-- `create_table`: a new table in a frame that was free. -/
lemma createTable_prepared (ht : s.dir s.current t = 0) (hs : s.createTable s.current t = some s') :
    ∃ (phys : Physical) (r : PageRef), Physical.Allocated s.phys phys r ∧
      Prepared (({ s with phys := phys } : State).setDirEntry s.current t
        (phys.address r ||| tableFlags t)) s' (phys.address r) := by
  obtain ⟨⟨r, phys⟩, halloc, rfl⟩ := map_eq_some_iff.mp hs
  have ha := Physical.alloc_spec h.distinct h.zero_used halloc
  have hwf1 := h.newTable ht ha
  have ha0 : phys.address r ≠ 0 := fun h0 => h.zero_used (h0 ▸ ha.was_free)
  refine ⟨phys, r, ha, ?_⟩
  dsimp only
  set s1 := ({ s with phys := phys } : State).setDirEntry s.current t
    (phys.address r ||| tableFlags t)
  have hprep : Prepared s1 ((s1.mapTable s.current (phys.address r)).2.zeroFrame
      (s1.mapTable s.current (phys.address r)).2.windowFrame) (phys.address r) :=
    prepared_show_zero hwf1 ha.aligned ha0
  split
  · have hlast := prepared_mapTable (hprep.wf hwf1) (s1.dirs s.current).currentTable
      (phys.address r)
    rw [hprep.current_eq] at hlast
    exact hprep.trans hlast
  · exact hprep

/-- A new table is empty, so no entry of a page changes. -/
lemma NewTable.view_eq {s1 : State} (ht : s.dir s.current t = 0)
    (hn : NewTable s s1 t a) (hprep : Prepared s1 s' a) (hzero : ∀ j, s'.frames a j = 0) {d : ℕ}
    (hd : d ∈ s.live) (q : ℕ) : s'.view d q = s.view d q := by
  by_cases hdt : d = s.current ∧ q / tableEntries = t
  · have hempty : s'.view d q = 0 := by
      unfold view stored
      rw [hprep.dir_eq, hdt.1, hdt.2, hn.frame_eq, if_neg hn.ne_zero, hzero, ite_self]
    have hnone : s.view d q = 0 := by
      unfold view stored
      rw [hdt.1, hdt.2, ht, frame_zero, if_pos rfl, ite_self]
    rw [hempty, hnone]
  · refine view_congr (hn.toBeside.trans hprep.toBeside).windowPage_eq
      ((hprep.dir_eq d _).trans (hn.dir_eq d _ hdt)) fun hq hf => ?_
    have hdirw : s1.dir s1.current s1.windowTable = s.dir s.current s.windowTable := by
      rw [hn.current_eq, hn.windowTable_eq]
      refine hn.dir_eq _ _ ?_
      rintro ⟨-, heq⟩
      exact h.window_current (heq ▸ ht)
    rw [hprep.frames_eq _ _ (hn.fresh d hd _ ((frame_ne_zero_iff h hd).mp hf)), hn.frames_eq]
    rw [hdirw, hn.windowSlot_eq]
    exact h.not_window hd hq hf

/-- A table that is created for an entry is empty, so no entry changes. -/
lemma showTable_of_none (ht : s.dir s.current t = 0)
    (hs : s.showTable s.current t = some s') : Shown s s' t := by
  rw [showTable, if_neg (by simp [ht])] at hs
  obtain ⟨s2, hcreate, rfl⟩ := map_eq_some_iff.mp hs
  obtain ⟨phys, r, ha, hprep⟩ := createTable_prepared h ht hcreate
  have hwf1 := h.newTable ht ha
  have hn := newTable_setDirEntry (t := t) h ha
  set a := phys.address r
  set s1 := ({ s with phys := phys } : State).setDirEntry s.current t (a ||| tableFlags t)
  have hwf2 := hprep.wf hwf1
  have hframe2 : frame (s2.dir s.current t) = a := by rw [hprep.dir_eq, hn.frame_eq]
  have hcur2 : s2.current = s.current := hprep.current_eq
  have hmap : s2.mapTable s.current (s2.dir s.current t) =
      (true, s2.showing s.current (s2.dir s.current t)) := by
    rw [← hcur2]
    refine hwf2.mapTable_eq hwf2.current_mem hwf2.window_current ?_
    rw [hcur2, hframe2]
    exact hn.ne_zero
  -- The last two steps show the new table and zero it once more.
  rw [hmap]
  dsimp only
  rw [windowFrame_showing, hframe2]
  have hlast : Prepared s1 ((s2.showing s.current (s2.dir s.current t)).zeroFrame a) a :=
    hprep.trans ((prepared_showing _ _ a).trans (prepared_zeroFrame a))
  set s4 := (s2.showing s.current (s2.dir s.current t)).zeroFrame a with hs4
  have hframe4 : frame (s4.dir s.current t) = a := by rw [hlast.dir_eq, hn.frame_eq]
  refine ⟨⟨hn.toBeside.trans hlast.toBeside, hlast.wf hwf1, ?_, ?_, ?_, ?_, ?_⟩, ?_, ?_, ?_, ?_⟩
  · intro h0
    rw [h0, frame_zero] at hframe4
    exact hn.ne_zero hframe4.symm
  · rintro d t' hor
    refine (hlast.dir_eq d t').trans (hn.dir_eq d t' ?_)
    rintro ⟨rfl, rfl⟩
    simp [ht] at hor
  · intro b
    rw [hlast.phys_eq]
    exact ha.accounted b
  · rw [hlast.phys_eq]
    exact ha.addresses
  · intro _
    rw [hframe4]
    exact ha.was_free
  · intro b hb
    rw [hlast.phys_eq] at hb
    exact ((ha.isFree b).mp hb).1
  · have hdirw : (s2.showing s.current (s2.dir s.current t)).dir s2.current s2.windowTable =
        s.dir s.current s.windowTable := by
      rw [dir_showing, hprep.dir_eq, hcur2, hprep.windowTable_eq]
      refine hn.dir_eq _ _ ?_
      rintro ⟨-, heq⟩
      exact h.window_current (heq ▸ ht)
    rw [hframe4, hs4, windowFrame_zeroFrame, windowFrame_showing, hframe2]
    show frame ((s2.showing s.current (s2.dir s.current t)).dir s2.current s2.windowTable) ≠ a
    rw [hdirw]
    exact hn.fresh _ h.current_mem _ h.window_current
  · exact fun d hd q => hn.view_eq h ht hlast (fun j => by simp [hs4, zeroFrame]) hd q
  · exact fun d => (hlast.cache_eq d).trans (hn.cache_eq d)

lemma showTable_of_some (ht : s.dir s.current t ≠ 0) :
    s.showTable s.current t = some (s.showing s.current (s.dir s.current t)) := by
  have hmap := h.mapTable_eq h.current_mem h.window_current (h.entry_ok _ h.current_mem t ht).2
  rw [showTable, hmap, if_pos ⟨ht, rfl⟩]

lemma shown_showing (ht : s.dir s.current t ≠ 0) :
    Shown s (s.showing s.current (s.dir s.current t)) t := by
  have hdir := dir_showing (s := s) s.current (s.dir s.current t)
  refine ⟨⟨beside_showing _ _, h.showing _ _, ?_, fun d t' _ => hdir d t', fun _ => Iff.rfl, rfl,
    fun h0 => absurd h0 ht⟩, fun _ => id, ?_, fun d hd q => h.view_showing hd _ _ q,
    entrycache_showing _ _⟩
  · rw [hdir]
    exact ht
  · rw [windowFrame_showing, hdir]

lemma showTable_shown (hs : s.showTable s.current t = some s') : Shown s s' t := by
  by_cases ht : s.dir s.current t = 0
  · exact showTable_of_none h ht hs
  · rw [showTable_of_some h ht, some.injEq] at hs
    exact hs ▸ shown_showing h ht

end

/-- The entry of a page is now `e`, for every directory that shares the table, and no other entry
has changed. -/
structure PageSet (s s' : State) (p : ℕ) (e : Word) : Prop
    extends Grown s s' (p / tableEntries) where
  view_other : ∀ d ∈ s.live, ∀ q, q ≠ p → s'.view d q = s.view d q
  view_self : p ≠ s.windowPage → ∀ d ∈ s.live, s'.view d p =
    if s'.dir d (p / tableEntries) = s'.dir s.current (p / tableEntries) then e else s.view d p
  window : p ≠ s.windowPage → s'.windowFrame = frame (s'.dir s.current (p / tableEntries))
  cache_other : ∀ d, d ≠ s.current → (s'.dirs d).entrycache = (s.dirs d).entrycache

/-- What `set_table_entry` does. -/
structure EntrySet (s s' : State) (p : ℕ) (e : Word) : Prop extends PageSet s s' p e where
  isFree : ∀ b, s'.phys.IsFree b → s.phys.IsFree b
  stored_self : s'.stored s.current p = e
  cache_self : (s'.dirs s.current).entrycache =
    HitCache.clear p (s.dirs s.current).entrycache

lemma PageSet.view_current (h : PageSet s s' p e) (hs : WF s) (hp : p ≠ s.windowPage) :
    s'.view s.current p = e := by
  rw [h.view_self hp _ hs.current_mem, if_pos rfl]

/-- Of the pages of user tables a directory sees what it wrote itself. -/
lemma PageSet.view_of_ge (h : PageSet s s' p e) (hp : p ≠ s.windowPage) (hge : ¬ p < kernelPages)
    (hd : d ∈ s.live) (hne : d ≠ s.current) : s'.view d p = s.view d p := by
  rw [h.view_self hp d hd, if_neg]
  intro heq
  have hlive : ∀ d' ∈ s.live, d' ∈ s'.live := fun _ hd' => h.live_eq ▸ hd'
  have hcur : s.current ∈ s'.live := by
    rw [← h.current_eq]
    exact h.wf.current_mem
  have hdir : s'.dir d (p / tableEntries) ≠ 0 := by
    rw [heq]
    exact h.dir_ne
  rcases (h.wf.tables d (hlive d hd) _ hcur _ _ hdir h.dir_ne (by rw [heq])).2 with rfl | hlt
  · exact hne rfl
  · simp only [kernelTables, kernelPages, tableEntries] at *
    omega

lemma setTableEntry_entrySet (h : WF s) (hs : s.setTableEntry s.current p e = some s') :
    EntrySet s s' p e := by
  obtain ⟨s1, hshow, rfl⟩ := map_eq_some_iff.mp hs
  have hshown := showTable_shown h hshow
  set t := p / tableEntries with ht
  set s2 := s1.writeFrame s1.windowFrame (p % tableEntries) e
  have hlooked := looked_setCache (s := s2) s.current
    (HitCache.clear p (s2.dirs s.current).entrycache)
  set s3 := s2.setCache s.current (HitCache.clear p (s2.dirs s.current).entrycache) with hs3
  have hwf1 := hshown.wf
  have hlive : s1.live = s.live := hshown.live_eq
  have hwindow : s1.windowPage = s.windowPage := hshown.windowPage_eq
  have hdir3 : ∀ d t', s3.dir d t' = s1.dir d t' := fun d t' => hlooked.dir_eq d t'
  have hbeside : Beside s1 s3 := (beside_writeFrame _ _ _).trans hlooked.toBeside
  have hframes : ∀ f j, s3.frames f j =
      if f = frame (s1.dir s.current t) ∧ j = p % tableEntries then e else s1.frames f j := by
    intro f j
    rw [← hshown.windowFrame_eq]
    exact frames_writeFrame _ _ _ f j
  have hwf3 : WF s3 := hwf1.congr hbeside hdir3 hwf1.distinct fun _ => id
  have htable : frame (s1.dir s.current t) ≠ 0 :=
    (hwf1.entry_ok _ (hlive ▸ h.current_mem) t hshown.dir_ne).2
  have hslot : ∀ d ∈ s.live, ∀ q, frame (s1.dir d (q / tableEntries)) ≠ 0 →
      (frame (s1.dir d (q / tableEntries)) = frame (s1.dir s.current t) ∧
        q % tableEntries = p % tableEntries ↔
      q = p ∧ s1.dir d (q / tableEntries) = s1.dir s.current t) := by
    intro d hd q hf
    have hdirq := (frame_ne_zero_iff hwf1 (hlive ▸ hd)).mp hf
    rw [hwf1.frame_eq_iff (hlive ▸ hd) (hlive ▸ h.current_mem) hdirq hshown.dir_ne, page_eq_iff q p]
    tauto
  refine ⟨⟨⟨hshown.toBeside.trans hbeside, hwf3, ?_, ?_, hshown.accounted, hshown.addresses, ?_⟩,
    ?_, ?_, ?_, ?_⟩, hshown.isFree, ?_, ?_⟩
  · rw [hdir3]
    exact hshown.dir_ne
  · intro d t' hor
    rw [hdir3]
    exact hshown.dir_eq d t' hor
  · intro h0
    rw [hdir3]
    exact hshown.new_table h0
  · intro d hd q hq
    rw [← hshown.view_eq d hd q]
    refine view_congr hbeside.windowPage_eq (hdir3 d _) fun _ hf => ?_
    rw [hframes, if_neg]
    exact fun hslot' => hq ((hslot d hd q hf).mp hslot').1
  · intro hp d hd
    rw [hdir3, hdir3]
    split_ifs with hshare
    · rw [view, hbeside.windowPage_eq, hwindow, if_neg hp, stored, hdir3, ← ht,
        hshare, if_neg htable, hframes, if_pos ⟨rfl, rfl⟩]
    · rw [← hshown.view_eq d hd p]
      refine view_congr hbeside.windowPage_eq (hdir3 d _) fun _ hf => ?_
      rw [hframes, if_neg]
      exact fun hslot' => hshare ((hslot d hd p hf).mp hslot').2
  · intro hp
    rw [hdir3, ← hshown.windowFrame_eq]
    -- The word written is not the window entry, so the window still shows the table.
    have hcur : s1.current ∈ s.live := hlive ▸ hwf1.current_mem
    have hfw := (hwf1.entry_ok _ hwf1.current_mem _ hwf1.window_current).2
    have hnot : ¬ (frame (s1.dir s1.current s1.windowTable) = frame (s1.dir s.current t) ∧
        s1.windowSlot = p % tableEntries) := by
      intro hslot'
      have hpage := ((hslot s1.current hcur s1.windowPage hfw).mp hslot').1
      exact hp (hpage.symm.trans hwindow)
    show frame (s3.frames (frame (s3.dir s3.current s3.windowTable)) s3.windowSlot) = _
    rw [hdir3, hbeside.current_eq, hbeside.windowTable_eq, hbeside.windowSlot_eq, hframes,
      if_neg hnot, windowFrame]
  · intro d hd
    rw [hlooked.cache_eq d hd]
    exact hshown.cache_eq d
  · rw [stored, hdir3, ← ht, if_neg htable, hframes, if_pos ⟨rfl, rfl⟩]
  · rw [hs3, setCache_entrycache]
    show HitCache.clear p (s1.dirs s.current).entrycache = _
    rw [hshown.cache_eq]

end State

end Memory
