import Btos.Lib.Loop
import Btos.Lib.TransitionSystem
import Btos.Memory.Machine
import Btos.Memory.Pages

/-!
# Coherence of the entry caches

Each page directory has a cache of page-table entries of its own, and the kernel tables are shared
by all directories. `set_table_entry` clears the entry in the cache of the directory it is called
on; what the other directories have cached for a kernel page is not cleared. Also, the entry of
`table_frame` changes with every access to a page table, and is not cleared at all.

* `Unshared`: the steps that neither write an entry that another directory has cached nor look up
  the page of the window. The frames freed are pages that are in use and no page tables.

Main results: `coherent_of_reaches` and `exists_not_coherent`.
-/

open List Option

namespace Memory

namespace State

variable {s s' : State} {p : ℕ} {e addr : Word} {R : ℕ → Prop}

/-! ## Runs -/

/-- The operations on page tables, with an address for the page they are about. -/
inductive PageAction where
  /-- `mm2_switch`. -/
  | switch (d : ℕ)
  /-- `get_table_entry`. -/
  | lookup (addr : Word)
  /-- `set_table_entry`. -/
  | setEntry (addr entry : Word)
  /-- `map_page_at` of a given page. -/
  | mapPageAt (addr : Word) (page : PageRef) (flags : PageFlags)
  /-- `map_page_at` of a new page. -/
  | mapNewPageAt (addr : Word) (flags : PageFlags)
  /-- `guard_page_at`. -/
  | guardPageAt (ptr : Word)
  /-- `free_pages`. -/
  | freePages (addr pages : Word)

/-- An operation on the current directory. -/
def pageStep (s : State) : PageAction → Option State
  | .switch d => if d ∈ s.live then some (s.mm2Switch d) else none
  | .lookup addr => some (s.getTableEntry s.current (pageOf addr)).2
  | .setEntry addr entry => s.setTableEntry s.current (pageOf addr) entry
  | .mapPageAt addr page flags => s.mapPageAt s.current addr page flags
  | .mapNewPageAt addr flags => s.mapNewPageAt s.current addr flags
  | .guardPageAt ptr => s.guardPageAt s.current ptr
  | .freePages addr pages => s.freePages s.current addr pages.toNat

/-- Directories that share their kernel tables, with nothing in their caches. -/
structure Fresh (s : State) : Prop where
  wf : WF s
  caches : ∀ d ∈ s.live, ∀ x ∈ (s.dirs d).entrycache, x.entry = 0

/-- Page directories at work. -/
def pageTables : System State PageAction where
  init := Fresh
  step := pageStep

/-- `get_table_entry` returns the entry that is in the page table when it returns, for every page
of the current directory. -/
def Coherent (s : State) : Prop :=
  ∀ addr : Word, (s.getTableEntry s.current (pageOf addr)).1 =
    (s.getTableEntry s.current (pageOf addr)).2.stored s.current (pageOf addr)

/-! ## The steps that keep the caches coherent -/

/-- No other directory has an entry for the page in its cache. -/
def Uncached (s : State) (p : ℕ) : Prop :=
  ∀ d ∈ s.live, d ≠ s.current → ∀ x ∈ (s.dirs d).entrycache, x.index = p → x.entry = 0

/-- The entry of the page may be written. -/
structure Settable (s : State) (p : ℕ) : Prop where
  not_window : p ≠ s.windowPage
  uncached : p < kernelPages → s.Uncached p

/-- The pages in `R` may be freed: those that are present are in different frames, which are in use
and are no page tables. -/
structure Freeable (s : State) (R : ℕ → Prop) : Prop where
  settable : ∀ p, R p → s.Settable p
  used : ∀ p, R p → isPresent (s.view s.current p) = true →
    ¬ s.IsTable (frame (s.view s.current p)) ∧ frame (s.view s.current p) ≠ 0 ∧
      ¬ s.phys.IsFree (frame (s.view s.current p))
  distinct : ∀ p q, R p → R q → isPresent (s.view s.current p) = true →
    isPresent (s.view s.current q) = true →
    frame (s.view s.current p) = frame (s.view s.current q) → p = q

/-- The steps that respect the caches of the other directories. -/
def Unshared (s : State) : PageAction → Prop
  | .switch _ => True
  | .lookup addr => pageOf addr ≠ s.windowPage
  | .setEntry addr _ => s.Settable (pageOf addr)
  | .mapPageAt addr _ _ => s.Settable (pageOf addr)
  | .mapNewPageAt addr _ => s.Settable (pageOf addr)
  | .guardPageAt ptr => s.Freeable fun p => p = pageOf ptr
  | .freePages addr pages => s.Freeable fun p => ∃ i < pages.toNat, p = pageOf (pageAddr addr i)

/-- What is cached is the entry of the page table, and nothing is cached for the window. -/
structure CacheInv (s : State) : Prop where
  wf : WF s
  caches : ∀ d ∈ s.live, HitCache.Holds (fun q v => v = s.view d q) (s.dirs d).entrycache

lemma Fresh.inv (h : Fresh s) : CacheInv s :=
  ⟨h.wf, fun d hd => HitCache.holds_of_entry_eq_zero (h.caches d hd)⟩

section

variable (h : CacheInv s)
include h

/-- A lookup finds the entry of the page table. -/
lemma CacheInv.coherent : Coherent s := by
  intro addr
  have hlooked := getTableEntry_looked h.wf h.wf.current_mem h.wf.window_current (pageOf addr)
  refine (getTableEntry_right h.wf h.wf.current_mem h.wf.window_current
    (P := fun q v => q = pageOf addr →
      v = (s.getTableEntry s.current (pageOf addr)).2.stored s.current (pageOf addr))
    ?_ fun _ _ => rfl).2.elim id fun hv => hv rfl
  intro x hx hne heq
  have hentry : x.entry = s.view s.current x.index := h.caches _ h.wf.current_mem x hx hne
  rw [heq] at hentry
  by_cases hw : pageOf addr = s.windowPage
  · rw [view, if_pos hw] at hentry
    exact absurd hentry hne
  · rw [hentry, ← hlooked.view_eq _ h.wf.current_mem, view_eq_stored]
    rw [hlooked.windowPage_eq]
    exact hw

/-- Writing an entry keeps the caches of the other directories right. -/
lemma CacheInv.pageSet (hp : s.Settable p) (hset : PageSet s s' p e)
    (hcur : HitCache.Holds (fun q v => v = s'.view s.current q)
      (s'.dirs s.current).entrycache) : CacheInv s' := by
  refine ⟨hset.wf, fun d hd => ?_⟩
  rw [hset.live_eq] at hd
  by_cases hdc : d = s.current
  · rw [hdc]
    exact hcur
  · rw [hset.cache_other d hdc]
    intro x hx hne
    have hold := h.caches d hd x hx hne
    dsimp only at hold ⊢
    by_cases hq : x.index = p
    · by_cases hlt : p < kernelPages
      · exact absurd (hp.uncached hlt d hd hdc x hx hq) hne
      · rw [hold, hq, hset.view_of_ge hp.not_window hlt hd hdc]
    · rw [hold, hset.view_other d hd _ hq]

lemma CacheInv.entrySet (hp : s.Settable p) (hset : EntrySet s s' p e) :
    CacheInv s' := by
  refine h.pageSet hp hset.toPageSet ?_
  rw [hset.cache_self]
  refine HitCache.clear_holds (h.caches _ h.wf.current_mem) fun q v hq hv => ?_
  rw [hv, hset.view_other _ h.wf.current_mem q hq]

lemma CacheInv.lookup (hp : p ≠ s.windowPage) : CacheInv (s.getTableEntry s.current p).2 := by
  have hlooked := getTableEntry_looked h.wf h.wf.current_mem h.wf.window_current p
  have hview := hlooked.view_eq
  refine ⟨hlooked.wf h.wf, fun d hd => ?_⟩
  rw [hlooked.live_eq] at hd
  simp only [hview d hd]
  by_cases hdc : d = s.current
  · subst hdc
    exact (getTableEntry_eq_view h.wf hp (h.caches _ hd) (fun _ => rfl) fun _ => id).2
  · rw [hlooked.cache_eq d hdc]
    exact h.caches d hd

lemma CacheInv.switch {n : ℕ} (hn : n ∈ s.live) : CacheInv (s.mm2Switch n) := by
  refine ⟨h.wf.mm2Switch hn, fun d hd => ?_⟩
  rw [mm2Switch_field PageDir.entrycache fun _ _ _ => rfl]
  refine (h.caches d hd).imp_entry fun q v hv hne => ?_
  rcases h.wf.view_mm2Switch n hd q with heq | ⟨h0, -, -⟩
  · rw [heq, hv]
  · exact absurd (hv.trans h0) hne

end

/-! ## Freeing -/

lemma Freeable.backed (h : s.Freeable R) : s.Backed R :=
  ⟨fun p hp => (h.settable p hp).not_window, h.used, h.distinct⟩

lemma Freeable.pageFreed (h : s.Freeable R) (hwf : WF s) (hp : R p) (hf : PageFreed s s' p 0) :
    s'.Freeable R := by
  have hbacked := h.backed.pageFreed hwf hp isPresent_zero hf
  refine ⟨fun q hq => ?_, hbacked.used, hbacked.distinct⟩
  have hq := h.settable q hq
  refine ⟨hf.windowPage_eq ▸ hq.not_window, fun hlt d hd hne x hx => ?_⟩
  rw [hf.current_eq] at hne
  rw [hf.cache_other d hne] at hx
  exact hq.uncached hlt d (hf.live_eq ▸ hd) hne x hx

lemma CacheInv.freePage (h : CacheInv s) (hR : s.Freeable R) (hp : R (pageOf addr))
    (hs : s.freePage s.current addr = some s') :
    CacheInv s' ∧ s'.Freeable R ∧ s'.current = s.current := by
  have hsettable := hR.settable _ hp
  obtain ⟨hfreed, hcache⟩ := freePage_pageFreed h.wf hsettable.not_window
    (h.caches _ h.wf.current_mem) (fun _ => rfl) (fun _ => id)
    (fun hpresent => ⟨(hR.used _ hp hpresent).1, (hR.used _ hp hpresent).2.1⟩) hs
  refine ⟨h.pageSet hsettable hfreed.toPageSet (hcache _ fun q v hq hv => ?_),
    hR.pageFreed h.wf hp hfreed, hfreed.current_eq⟩
  rw [hfreed.view_other _ h.wf.current_mem q hq]
  exact hv

lemma CacheInv.freePages (h : CacheInv s) {n : ℕ}
    (hR : s.Freeable fun p => ∃ i < n, p = pageOf (pageAddr addr i))
    (hs : s.freePages s.current addr n = some s') : CacheInv s' := by
  set R : ℕ → Prop := fun p => ∃ i < n, p = pageOf (pageAddr addr i)
  -- A round frees one of the pages and leaves the rest freeable.
  refine (Loop.foldlM_invariant (P := fun l s1 => (∀ i ∈ l, i < n) ∧ CacheInv s1 ∧
    s1.Freeable R ∧ s1.current = s.current) ?_ ⟨fun i => mem_range.mp, h, hR, rfl⟩ hs).2.1
  rintro i l s1 s2 ⟨hl, hinv, hfreeable, hcur⟩ hstep
  rw [← hcur] at hstep
  obtain ⟨hinv2, hfreeable2, hcur2⟩ :=
    hinv.freePage hfreeable ⟨i, hl i mem_cons_self, rfl⟩ hstep
  exact ⟨fun j hj => hl j (mem_cons_of_mem _ hj), hinv2, hfreeable2, hcur2.trans hcur⟩

lemma CacheInv.guardPageAt (h : CacheInv s) (hR : s.Freeable fun p => p = pageOf addr)
    (hs : s.guardPageAt s.current addr = some s') : CacheInv s' := by
  have hsettable := hR.settable _ rfl
  obtain ⟨hfreed, hcache⟩ := guardPageAt_pageFreed h.wf hsettable.not_window
    (h.caches _ h.wf.current_mem) (fun _ => rfl) (fun _ => id)
    (fun hpresent => ⟨(hR.used _ rfl hpresent).1, (hR.used _ rfl hpresent).2.1⟩) hs
  refine h.pageSet hsettable hfreed.toPageSet (hcache _ fun q v hq hv => ?_)
  rw [hfreed.view_other _ h.wf.current_mem q hq]
  exact hv

/-- The caches stay right in steps that respect them. -/
lemma CacheInv.step (h : CacheInv s) {a : PageAction} (ha : s.Unshared a)
    (hs : s.pageStep a = some s') : CacheInv s' := by
  cases a with
  | switch d =>
    rw [pageStep, ite_none_right_eq_some] at hs
    obtain ⟨hd, heq⟩ := hs
    rw [← some.inj heq]
    exact h.switch hd
  | lookup addr =>
    rw [← some.inj hs]
    exact h.lookup ha
  | setEntry addr entry =>
    rw [pageStep] at hs
    exact h.entrySet ha (setTableEntry_entrySet h.wf hs)
  | mapPageAt addr page flags =>
    rw [pageStep] at hs
    exact h.entrySet ha (mapPageAt_entrySet h.wf hs)
  | mapNewPageAt addr flags =>
    rw [pageStep] at hs
    obtain ⟨f, -, -, -, -, hset⟩ := mapNewPageAt_entrySet h.wf hs
    exact h.entrySet ha hset
  | guardPageAt ptr => exact h.guardPageAt ha hs
  | freePages addr pages => exact h.freePages ha hs

/-- In every run whose steps respect the caches of the other directories, `get_table_entry` returns
the entry that is in the page table. -/
theorem coherent_of_reaches (h : pageTables.Reaches Unshared s) : Coherent s := by
  have hinv : CacheInv s :=
    h.invariant (fun _ hs => Fresh.inv hs) fun _ _ _ hi ha hstep => hi.step ha hstep
  exact hinv.coherent

lemma booted_fresh {live : List ℕ} (h0 : 0 ∈ live) : Fresh (booted live) := by
  refine ⟨booted_wf h0, fun d _ x hx => ?_⟩
  rw [eq_of_mem_replicate hx]

/-- The first page that is mapped, with a second directory that shares it. -/
theorem coherent_mapNewPageAt_booted :
    ∃ s, pageTables.step (booted [0, 1]) (.mapNewPageAt 0x4000#32 kernelFlags) = some s ∧
      Coherent s := by
  have hfresh := booted_fresh (by decide : 0 ∈ [0, 1])
  have hunshared : (booted [0, 1]).Unshared (.mapNewPageAt 0x4000#32 kernelFlags) :=
    ⟨by decide, fun _ d hd _ x hx _ => hfresh.caches d hd x hx⟩
  have hsome : (pageTables.step (booted [0, 1])
      (.mapNewPageAt 0x4000#32 kernelFlags)).isSome = true := by
    decide +kernel
  obtain ⟨s, hs⟩ := isSome_iff_exists.mp hsome
  exact ⟨s, hs, coherent_of_reaches (.step (.init hfresh) hunshared hs)⟩

/-- A page of the kernel is looked up in one directory and freed in another one. -/
def freeElsewhere : List PageAction :=
  [.mapNewPageAt 0x4000#32 kernelFlags, .lookup 0x4000#32, .switch 1, .freePages 0x4000#32 1,
    .switch 0]

/-- `get_table_entry` may return an entry that is no longer in the page table. -/
theorem exists_not_coherent : ∃ s, pageTables.Reachable s ∧ ¬ Coherent s := by
  have hrun : (pageTables.run (booted [0, 1]) freeElsewhere).any (fun s =>
      (s.getTableEntry s.current 4).1 = 0xF003#32 &&
        (s.getTableEntry s.current 4).2.stored s.current 4 = 0) = true := by
    decide +kernel
  obtain ⟨s, hs, hp⟩ := System.exists_reachable_of_run (booted_fresh (by decide)) hrun
  simp only [Bool.and_eq_true, decide_eq_true_eq] at hp
  refine ⟨s, hs, fun hcoherent => ?_⟩
  have heq : (s.getTableEntry s.current 4).1 =
      (s.getTableEntry s.current 4).2.stored s.current 4 := hcoherent 0x4000#32
  rw [hp.1, hp.2] at heq
  exact absurd heq (by decide)

end State

end Memory
