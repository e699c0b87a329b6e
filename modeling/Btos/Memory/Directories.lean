import Btos.Lib.Loop
import Btos.Memory.FrameOwnership

/-!
# Directories and ownership

The operations of a page directory as a whole keep the frames owned:

* `Inv.mm2Switch`: the kernel tables get to other directories by a switch,
* `Inv.mapNewPages`, `Inv.freePages`, `Inv.alloc`: the loops over pages,
* `Inv.newDirectory`, `Inv.destroy`: a directory comes to be and goes.
-/

open Function List Option

namespace Memory

namespace State

open Ownership

variable {s s' : State} {d n p q t id : ℕ} {e f addr : Word} {R : ℕ → Prop}

/-! ## Switching -/

lemma MayShare.symm {a b : Slot} (h : s.MayShare a b f) : s.MayShare b a f := by
  rcases h with rfl | hmay
  · exact .inl rfl
  · right
    cases a <;> cases b
    case page.page =>
      refine hmay.imp_left ?_
      rintro ⟨rfl, hlt⟩
      exact ⟨rfl, hlt⟩
    case table.table =>
      obtain ⟨rfl, hlt⟩ := hmay
      exact ⟨rfl, hlt⟩
    all_goals exact hmay

/-- The slot is the same kernel page or kernel table as another one, of another directory. -/
inductive KernelCopy : Slot → Slot → Prop
  | page {d d' q : ℕ} : q < kernelPages → KernelCopy (.page d q) (.page d' q)
  | table {d d' t : ℕ} : t < kernelTables → KernelCopy (.table d t) (.table d' t)

lemma KernelCopy.mayShare {a a0 b : Slot} (h : KernelCopy a a0) (hmay : s.MayShare a0 b f) :
    s.MayShare a b f := by
  right
  cases h with
  | page hlt =>
    rcases hmay with rfl | hmay
    · exact .inl ⟨rfl, hlt⟩
    · cases b <;> exact hmay
  | table hlt =>
    rcases hmay with rfl | hmay
    · exact ⟨rfl, hlt⟩
    · cases b <;> exact hmay

/-- What a slot refers to after a switch, it or its copy in the directory that was current referred
to before. -/
lemma Core.refers_mm2Switch (h : Core s) {a : Slot} (ha : (s.mm2Switch n).Refers a f) :
    s.Refers a f ∨ ∃ a0, KernelCopy a a0 ∧ s.Refers a0 f := by
  cases a with
  | null => exact .inl ha
  | page d q =>
    obtain ⟨hd, hpresent, hf⟩ := ha
    rcases h.wf.view_mm2Switch n hd q with heq | ⟨-, hlt, heq⟩
    · rw [heq] at hpresent hf
      exact .inl ⟨hd, hpresent, hf⟩
    · rw [heq] at hpresent hf
      refine .inr ⟨.page s.current q, .page ?_, h.wf.current_mem, hpresent, hf⟩
      simp only [kernelTables, kernelPages, tableEntries] at *
      omega
  | table d t =>
    obtain ⟨hd, hne, hf⟩ := ha
    obtain ⟨d', hd', heq, hcur, hsame⟩ := h.wf.dir_mm2Switch_ne hd hne
    rw [heq] at hne hf
    by_cases ht : t < kernelTables
    · exact .inr ⟨.table d' t, .table ht, hd', hne, hf⟩
    · obtain rfl := hsame ht
      exact .inl ⟨hd, hne, hf⟩
  | space id => exact .inl ha

lemma Inv.mm2Switch (h : Inv s) (hn : n ∈ s.live) : Inv (s.mm2Switch n) := by
  have hwf := h.wf.mm2Switch hn
  have hmay : ∀ {a b f}, s.MayShare a b f → (s.mm2Switch n).MayShare a b f := fun {a b f} =>
    mayShare_congr (fun _ _ _ => id) Iff.rfl
  refine ⟨⟨hwf, h.core.owned.step (fun a f => h.core.refers_mm2Switch)
    (fun f hf => .inl ⟨hf, ?_⟩) (fun _ _ _ _ _ => hmay) ?_ ?_, h.core.space_ram⟩, ?_, ?_⟩
  · rintro a ⟨a0, -, ha0⟩
    exact h.core.used ha0 hf
  · rintro a b f ⟨a0, hcopy, ha0⟩ hb
    have hab := hcopy.mayShare (h.core.shared ha0 hb)
    exact ⟨hmay hab, hmay hab.symm⟩
  · rintro a b f ⟨a0, hcopy, ha0⟩ ⟨b0, hcopy', hb0⟩
    exact hmay (hcopy.mayShare (hcopy'.mayShare (h.core.shared ha0 hb0).symm).symm)
  · have heq := h.wf.windowFrame_mm2Switch n
    exact ⟨heq ▸ h.window.ne_zero, heq ▸ h.window.used, heq ▸ h.window.not_space⟩
  · intro d hd
    rw [mm2Switch_field PageDir.entrycache fun _ _ _ => rfl]
    refine (h.caches d hd).imp_entry fun q v hv _ => ⟨fun hq => ?_, hv.2⟩
    rcases h.wf.view_mm2Switch n hd q with heq | ⟨-, hlt, -⟩
    · rw [heq]
      exact hv.1 hq
    · -- A page of a kernel table is no user page.
      simp only [kernelTables, kernelPages, tableEntries] at *
      omega

/-! ## Loops over pages -/

lemma Inv.mapNewPages (h : Inv s) {flags : PageFlags}
    (hs : s.mapNewPages s.current addr n flags = some s') : Inv s' ∧ Beside s s' := by
  refine Loop.foldlM_invariant (P := fun _ s1 => Inv s1 ∧ Beside s s1) ?_ ⟨h, .refl s⟩ hs
  rintro i l s1 s2 ⟨hinv, hbeside⟩ hstep
  rw [← hbeside.current_eq] at hstep
  obtain ⟨hinv2, _, _, _, hset⟩ := hinv.mapNewPageAt hstep
  exact ⟨hinv2, hbeside.trans hset.toBeside⟩

/-- The pages of a range. -/
def InRange (addr : Word) (n p : ℕ) : Prop := ∃ i < n, p = pageOf (pageAddr addr i)

section

variable (h : Inv s) (hR : s.FreeSafe R) (hrange : ∀ p, InRange addr n p → R p)

include h hR hrange

/-- A loop that takes away one page of a range in each round. -/
lemma Inv.unmapRange (round : State → Word → Option State)
    (hround : ∀ {s1 s2 : State} {a : Word}, Inv s1 → s1.FreeSafe R → s1.current = s.current →
      R (pageOf a) → round s1 a = some s2 →
        Inv s2 ∧ s2.FreeSafe R ∧ Unmapped s1 s2 (· = pageOf a))
    (hs : (range n).foldlM (fun s1 i => round s1 (pageAddr addr i)) s = some s') :
    Inv s' ∧ s'.FreeSafe R ∧ Unmapped s s' (InRange addr n) := by
  -- A page of the range is gone, or its round is still to come.
  have hend := Loop.foldlM_invariant (P := fun l s1 => (∀ i ∈ l, R (pageOf (pageAddr addr i))) ∧
    Inv s1 ∧ s1.FreeSafe R ∧ Unmapped s s1 fun q => InRange addr n q ∧
      ∀ i ∈ l, q ≠ pageOf (pageAddr addr i)) ?_ ⟨?_, h, hR, ?_⟩ hs
  · obtain ⟨-, hinv, hsafe, hunmapped⟩ := hend
    exact ⟨hinv, hsafe, hunmapped.mono fun q hq => ⟨hq, fun i hi => absurd hi not_mem_nil⟩⟩
  · rintro i l s1 s2 ⟨hl, hinv, hsafe, hunmapped⟩ hstep
    obtain ⟨hinv2, hsafe2, hunmapped2⟩ :=
      hround hinv hsafe hunmapped.current_eq (hl i mem_cons_self) hstep
    refine ⟨fun j hj => hl j (mem_cons_of_mem _ hj), hinv2, hsafe2,
      (hunmapped.trans hunmapped2 h.wf).mono fun q ⟨hq, hrest⟩ => ?_⟩
    by_cases hqi : q = pageOf (pageAddr addr i)
    · exact .inr hqi
    · refine .inl ⟨hq, fun j hj => ?_⟩
      rcases mem_cons.mp hj with rfl | hj
      · exact hqi
      · exact hrest j hj
  · exact fun i hi => hrange _ ⟨i, mem_range.mp hi, rfl⟩
  · refine (Unmapped.refl s).mono fun q ⟨⟨i, hi, hq⟩, hrest⟩ => ?_
    exact hrest i (mem_range.mpr hi) hq

lemma Inv.freePages (hs : s.freePages s.current addr n = some s') :
    Inv s' ∧ s'.FreeSafe R ∧ Unmapped s s' (InRange addr n) := by
  refine h.unmapRange hR hrange (fun s1 a => s1.freePage s.current a) ?_ hs
  intro s1 s2 a hinv hsafe hcurrent ha hstep
  exact hinv.freePage hsafe ha (hcurrent ▸ hstep)

lemma Inv.guardPages (hs : s.guardPages s.current addr n = some s') :
    Inv s' ∧ s'.FreeSafe R ∧ Unmapped s s' (InRange addr n) := by
  refine h.unmapRange hR hrange (fun s1 a => s1.guardPageAt s.current a) ?_ hs
  intro s1 s2 a hinv hsafe hcurrent ha hstep
  exact hinv.guardPageAt hsafe ha (hcurrent ▸ hstep)

end

lemma Inv.lookup_current (h : Inv s) (p : ℕ) :
    Inv (s.getTableEntry s.current p).2 ∧ Beside s (s.getTableEntry s.current p).2 :=
  ⟨(h.lookup h.wf.current_mem h.wf.window_current p).1,
    (getTableEntry_looked h.wf h.wf.current_mem h.wf.window_current p).toBeside⟩

variable {mode : AllocMode}

lemma Inv.setLowfree (h : Inv s) {pageno : ℕ}
    (hmode : mode = .userlow → kernelPages ≤ pageno) (d : ℕ) :
    Inv (s.setLowfree d pageno mode) ∧ Beside s (s.setLowfree d pageno mode) := by
  cases mode with
  | kernel =>
    rw [State.setLowfree]
    constructor
    · apply h.modifyDir
      · exact fun _ => ⟨rfl, rfl⟩
      · exact h.wf.ulowfree_ge d
    · apply beside_modifyDir
      · exact fun _ => ⟨rfl, rfl⟩
      · exact fun _ => id
  | userlow =>
    rw [State.setLowfree]
    constructor
    · apply h.modifyDir
      · exact fun _ => ⟨rfl, rfl⟩
      · exact fun _ => hmode rfl
    · apply beside_modifyDir
      · exact fun _ => ⟨rfl, rfl⟩
      · exact fun _ _ => hmode rfl

variable {pages pageno found firstpage : ℕ}

/-- The search looks entries up and writes where the next search is to start. -/
lemma findRun_invariant {P : State → Prop} (hlookup : ∀ s p, P s → P (s.getTableEntry d p).2)
    (hlow : ∀ s p, pageno ≤ p → P s → P (s.setLowfree d p mode)) (hs : P s) :
    P (findRun d pages mode n pageno found firstpage s).2 := by
  induction n generalizing s pageno found firstpage with
  | zero => exact hs
  | succ n ih =>
    have h1 := hlookup s pageno hs
    rw [State.findRun]
    dsimp only [isAvailable]
    generalize (!isPresent (s.getTableEntry d pageno).1 &&
      decide ((s.getTableEntry d pageno).1 &&& doNotUse = 0)) = available
    generalize (s.getTableEntry d pageno).2 = s1 at h1 ⊢
    have h2 : P (if (!available && decide (pages = 1)) = true then
        s1.setLowfree d pageno mode else s1) := by
      split
      · exact hlow s1 pageno le_rfl h1
      · exact h1
    generalize (if (!available && decide (pages = 1)) = true then
      s1.setLowfree d pageno mode else s1) = s2 at h2 ⊢
    generalize (if available = true then found + 1 else 0) = found'
    split
    · exact h2
    · exact ih (fun s p hp => hlow s p (by omega)) h2

/-- The search for pages looks entries up and remembers where to start the next time. -/
lemma Inv.findRun (h : Inv s)
    (hmode : mode = .userlow → kernelPages ≤ pageno) (hd : d = s.current) :
    Inv (findRun d pages mode n pageno found firstpage s).2 ∧
      Beside s (findRun d pages mode n pageno found firstpage s).2 := by
  refine findRun_invariant (P := fun s1 => Inv s1 ∧ Beside s s1) (fun s1 p ⟨hinv, hbeside⟩ => ?_)
    (fun s1 p hp ⟨hinv, hbeside⟩ => ?_) ⟨h, .refl s⟩
  · obtain ⟨hinv', hbeside'⟩ := hinv.lookup_current p
    rw [hd, ← hbeside.current_eq]
    exact ⟨hinv', hbeside.trans hbeside'⟩
  · obtain ⟨hinv', hbeside'⟩ := hinv.setLowfree (fun hm => le_trans (hmode hm) hp) d
    exact ⟨hinv', hbeside.trans hbeside'⟩

lemma Inv.alloc (h : Inv s) {pages : ℕ}
    (hs : s.alloc s.current pages mode = some (addr, s')) : Inv s' ∧ Beside s s' := by
  unfold State.alloc at hs
  dsimp only at hs
  have hstart : mode = .userlow → kernelPages ≤ s.lowfree s.current mode := by
    rintro rfl
    exact h.wf.ulowfree_ge _ h.wf.current_mem
  generalize hrun : State.findRun s.current pages mode (totalPages - s.lowfree s.current mode)
    (s.lowfree s.current mode) 0 0 s = r at hs
  obtain ⟨hinv, hbeside⟩ : Inv r.2 ∧ Beside s r.2 := hrun ▸ h.findRun hstart rfl
  split at hs
  · obtain ⟨s2, hmap, heq⟩ := map_eq_some_iff.mp hs
    cases heq
    rw [← hbeside.current_eq] at hmap
    obtain ⟨hinv', hbeside'⟩ := hinv.mapNewPages hmap
    exact ⟨hinv', hbeside.trans hbeside'⟩
  · cases hs
    exact ⟨hinv, hbeside⟩

/-! ## A new directory -/

/-- A directory with no tables and nothing in its cache. -/
lemma Inv.addDirectory (h : Inv s) (hd : d ∉ s.live) {pd : PageDir}
    (hdir : ∀ t, pd.directory t = 0) (hlow : kernelPages ≤ pd.ulowfree)
    (hcache : ∀ x ∈ pd.entrycache, x.entry = 0) :
    Inv { s with dirs := update s.dirs d pd, live := d :: s.live } := by
  set s' : State := { s with dirs := update s.dirs d pd, live := d :: s.live }
  have hne : ∀ d' ∈ s.live, d' ≠ d := fun d' hd' heq => hd (heq ▸ hd')
  have hold : ∀ d' ∈ s.live, s'.dirs d' = s.dirs d' := fun d' hd' =>
    update_of_ne (hne d' hd') _ _
  have hdir' : ∀ d' ∈ s.live, ∀ t, s'.dir d' t = s.dir d' t := fun d' hd' t => by
    rw [dir, hold d' hd', dir]
  have hnew : ∀ t, s'.dir d t = 0 := fun t => by
    show (update s.dirs d pd d).directory t = 0
    rw [update_self]
    exact hdir t
  have hview : ∀ d' ∈ s.live, ∀ q, s'.view d' q = s.view d' q := fun d' hd' q =>
    view_congr rfl (hdir' d' hd' _) fun _ _ => rfl
  -- A directory with a table is one of the old ones.
  have hlive : ∀ d' ∈ s'.live, ∀ t, s'.dir d' t ≠ 0 → d' ∈ s.live := by
    intro d' hd' t ht
    rcases mem_cons.mp hd' with rfl | hd'
    · exact absurd (hnew t) ht
    · exact hd'
  have hwf : WF s' := by
    refine ⟨mem_cons_of_mem _ h.wf.current_mem, mem_cons_of_mem _ h.wf.kernel_mem,
      h.wf.window_lt, ?_, ?_, ?_, ?_, ?_, ?_, h.wf.distinct, h.wf.zero_used, ?_⟩
    · rw [hdir' _ h.wf.current_mem]
      exact h.wf.window_current
    · rw [hdir' _ h.wf.kernel_mem]
      exact h.wf.window_kernel
    · intro d' hd' t ht
      have hd' := hlive d' hd' t ht
      rw [hdir' d' hd'] at ht ⊢
      exact h.wf.entry_ok d' hd' t ht
    · intro d' hd' t hlt ht
      have hd' := hlive d' hd' t ht
      rw [hdir' _ h.wf.current_mem]
      rw [hdir' d' hd'] at ht ⊢
      exact h.wf.kernel_part d' hd' t hlt ht
    · intro d1 hd1 d2 hd2 t1 t2 h1 h2 heq
      have hd1 := hlive d1 hd1 t1 h1
      have hd2 := hlive d2 hd2 t2 h2
      rw [hdir' d1 hd1] at h1 heq
      rw [hdir' d2 hd2] at h2 heq
      exact h.wf.tables d1 hd1 d2 hd2 t1 t2 h1 h2 heq
    · intro d' hd' t ht
      have hd' := hlive d' hd' t ht
      rw [hdir' d' hd'] at ht ⊢
      exact h.wf.tables_used d' hd' t ht
    · intro d' hd'
      rcases mem_cons.mp hd' with rfl | hd'
      · show kernelPages ≤ (update s.dirs d' pd d').ulowfree
        rw [update_self]
        exact hlow
      · rw [hold d' hd']
        exact h.wf.ulowfree_ge d' hd'
  refine ⟨⟨hwf, h.core.owned.release ?_ (fun _ => .inl) fun _ _ _ _ _ => ?_, h.core.space_ram⟩,
    ?_, ?_⟩
  · intro a f ha
    cases a with
    | null => exact ha
    | page d' q =>
      obtain ⟨hd', hpresent, hf⟩ := ha
      have hd' : d' ∈ s.live := by
        refine hlive d' hd' (q / tableEntries) fun h0 => ?_
        rw [view_eq_zero_of_dir h0, isPresent_zero] at hpresent
        cases hpresent
      rw [hview d' hd'] at hpresent hf
      exact ⟨hd', hpresent, hf⟩
    | table d' t =>
      obtain ⟨hd', ht, hf⟩ := ha
      have hd' := hlive d' hd' t ht
      rw [hdir' d' hd'] at ht hf
      exact ⟨hd', ht, hf⟩
    | space id => exact ha
  · exact mayShare_congr (fun _ _ _ => id) Iff.rfl
  · have hwindow : s'.windowFrame = s.windowFrame := by
      show frame (s.frames (frame (s'.dir s.current s.windowTable)) s.windowSlot) = _
      rw [hdir' _ h.wf.current_mem, windowFrame]
    exact ⟨hwindow ▸ h.window.ne_zero, hwindow ▸ h.window.used, hwindow ▸ h.window.not_space⟩
  · intro d' hd'
    rcases mem_cons.mp hd' with rfl | hd'
    · refine HitCache.holds_of_entry_eq_zero fun x hx => hcache x ?_
      have hself : s'.dirs d' = pd := update_self _ _ _
      rwa [hself] at hx
    · rw [hold d' hd']
      refine (h.caches d' hd').imp_entry fun q v hv _ => ⟨fun hq => ?_, hv.2⟩
      rw [hview d' hd']
      exact hv.1 hq

lemma Inv.newDirectory (h : Inv s) (hd : d ∉ s.live) {lines : List (HitCache.Line ℕ Word)}
    (hs : s.newDirectory d lines = some s') : Inv s' := by
  obtain ⟨⟨addr, s1⟩, halloc, hs⟩ := bind_eq_some_iff.mp hs
  obtain ⟨hinv1, hbeside1⟩ := h.alloc halloc
  dsimp only at hs
  rw [ite_none_left_eq_some] at hs
  obtain ⟨-, hs⟩ := hs
  dsimp only [virt2phys] at hs
  obtain ⟨hinv2, hbeside2⟩ := hinv1.lookup_current (pageOf addr)
  have hbeside := hbeside1.trans hbeside2
  rw [← some.inj hs]
  refine hinv2.addDirectory (hbeside.live_eq ▸ hd) (fun _ => rfl) le_rfl fun x hx => ?_
  obtain ⟨y, -, rfl⟩ := mem_map.mp hx
  rfl

/-! ## The destructor -/

/-- Entries of the table in frame `f` have been dropped, and what they referred to may be free. -/
structure Emptied (s s' : State) (f : Word) : Prop extends Beside s s' where
  dir_eq : ∀ d t, s'.dir d t = s.dir d t
  cache_eq : ∀ d, (s'.dirs d).entrycache = (s.dirs d).entrycache
  frames_eq : ∀ g j, g ≠ f → s'.frames g j = s.frames g j
  entries : ∀ j, s'.frames f j = s.frames f j ∨ s'.frames f j = 0
  distinct : s.phys.Distinct → s'.phys.Distinct
  accounted : ∀ b, s'.phys.Accounted b ↔ s.phys.Accounted b
  addresses : s'.phys.pages.map PhysPage.address = s.phys.pages.map PhysPage.address
  isFree : ∀ b, s'.phys.IsFree b → s.phys.IsFree b ∨ ∃ j < tableEntries,
    isPresent (s.frames f j) = true ∧ b = frame (s.frames f j) ∧ s.phys.Accounted b

section

variable (hf : frame (s.dir s.current s.windowTable) ≠ f)

include hf

lemma Emptied.windowFrame_eq (h : Emptied s s' f) : s'.windowFrame = s.windowFrame := by
  rw [windowFrame, windowFrame, h.dir_eq, h.current_eq, h.windowTable_eq, h.windowSlot_eq,
    h.frames_eq _ _ hf]

/-- One more entry is dropped. -/
lemma Emptied.freeTableEntry (h : Emptied s s' f) (hw : s.windowFrame = f) {j : ℕ}
    (hj : j < tableEntries) : Emptied s (s'.freeTableEntry j) f := by
  unfold State.freeTableEntry
  rw [h.windowFrame_eq hf, hw]
  dsimp only
  split
  · rename_i hpresent
    -- An entry that is present has not been dropped before.
    have hsame : s'.frames f j = s.frames f j := by
      refine (h.entries j).resolve_right fun h0 => ?_
      rw [h0, isPresent_zero] at hpresent
      cases hpresent
    have hfreed := Physical.freeAddr_freed s'.phys (frame (s'.frames f j))
    have hff : frame (frame (s'.frames f j)) = frame (s'.frames f j) := aligned_frame _
    rw [hff] at hfreed
    refine ⟨h.toBeside.trans (beside_of_dirs_eq rfl rfl rfl rfl rfl rfl rfl rfl), h.dir_eq,
      h.cache_eq, fun g k hg => ?_, fun k => ?_, fun hd => hfreed.distinct (h.distinct hd),
      fun b => (hfreed.accounted b).trans (h.accounted b), hfreed.addresses.trans h.addresses,
      fun b hb => ?_⟩
    · rw [frames_writeFrame, if_neg fun hand => hg hand.1]
      exact h.frames_eq g k hg
    · rw [frames_writeFrame]
      split
      · exact .inr rfl
      · exact h.entries k
    · rcases hfreed.isFree b hb with hold | ⟨rfl, hacc⟩
      · exact h.isFree b hold
      · rw [hsame] at hpresent hacc ⊢
        exact .inr ⟨j, hj, hpresent, rfl, (h.accounted _).mp hacc⟩
  · exact h

lemma emptied_foldl (hw : s.windowFrame = f) :
    Emptied s ((range tableEntries).foldl State.freeTableEntry s) f := by
  refine (Loop.foldl_invariant (P := fun l s' => (∀ j ∈ l, j < tableEntries) ∧ Emptied s s' f) ?_
    ⟨fun j => mem_range.mp, .refl s, fun _ _ => rfl, fun _ => rfl, fun _ _ _ => rfl,
      fun _ => .inl rfl, id, fun _ => Iff.rfl, rfl, fun _ => .inl⟩).2
  rintro j l s' ⟨hl, hemptied⟩
  exact ⟨fun k hk => hl k (mem_cons_of_mem _ hk),
    hemptied.freeTableEntry hf hw (hl j mem_cons_self)⟩

end

/-- A user table of a directory is gone, and its frame and what its entries referred to may be
free. -/
structure TableDropped (s s' : State) (d i : ℕ) : Prop extends Beside s s' where
  dir_eq : ∀ d' t, s'.dir d' t = if d' = d ∧ t = i then 0 else s.dir d' t
  view_eq : ∀ d' ∈ s.live, ∀ q, ¬ (d' = d ∧ q / tableEntries = i) → s'.view d' q = s.view d' q
  cache_eq : ∀ d', (s'.dirs d').entrycache = (s.dirs d').entrycache
  distinct : s'.phys.Distinct
  accounted : ∀ b, s'.phys.Accounted b ↔ s.phys.Accounted b
  addresses : s'.phys.pages.map PhysPage.address = s.phys.pages.map PhysPage.address
  isFree : ∀ b, s'.phys.IsFree b → s.phys.IsFree b ∨
    (s.dir d i ≠ 0 ∧ b = frame (s.dir d i)) ∨
      ∃ q, q / tableEntries = i ∧ isPresent (s.view d q) = true ∧ b = frame (s.view d q) ∧
        s.phys.Accounted b

/-- The table is dropped when its entries are. -/
lemma Emptied.tableDropped (h : WF s) (hd : d ∈ s.live) {i : ℕ} (hi : kernelTables ≤ i)
    (h0 : s.dir d i ≠ 0) (hempty : Emptied (s.showing d (s.dir d i)) s' (frame (s.dir d i))) :
    TableDropped s (({ s' with phys := s'.phys.freeAddr (frame (s'.dir d i)) } : State).setDirEntry
      d i 0) d i := by
  set f := frame (s.dir d i)
  have hf0 : f ≠ 0 := (h.entry_ok d hd i h0).2
  have hdir1 : ∀ d' t, (s.showing d (s.dir d i)).dir d' t = s.dir d' t := dir_showing d _
  set s1 := s.showing d (s.dir d i)
  have hdir2 : ∀ d' t, s'.dir d' t = s.dir d' t :=
    fun d' t => (hempty.dir_eq d' t).trans (hdir1 d' t)
  have hframe2 : frame (s'.dir d i) = f := by rw [hdir2]
  rw [hframe2]
  have hfreed := Physical.freeAddr_freed s'.phys f
  have hff : frame f = f := aligned_frame _
  rw [hff] at hfreed
  set s3 : State := { s' with phys := s'.phys.freeAddr f }
  have hbeside : Beside s (s3.setDirEntry d i 0) := by
    refine ((beside_showing d _).trans hempty.toBeside).trans ?_
    have hstep : Beside s' s3 := beside_of_dirs_eq rfl rfl rfl rfl rfl rfl rfl rfl
    exact hstep.trans (beside_modifyDir _ (fun _ => ⟨rfl, rfl⟩) fun _ => id)
  have hdir : ∀ d' t, (s3.setDirEntry d i 0).dir d' t =
      if d' = d ∧ t = i then 0 else s.dir d' t := by
    intro d' t
    rw [dir_setDirEntry, ← hdir2]
    rfl
  refine ⟨hbeside, hdir, fun d' hd' q hq => ?_, fun d' => ?_,
    hfreed.distinct (hempty.distinct h.distinct),
    fun b => (hfreed.accounted b).trans (hempty.accounted b),
    hfreed.addresses.trans hempty.addresses, fun b hb => ?_⟩
  · rw [← h.view_showing hd' d (s.dir d i) q]
    refine view_congr hempty.windowPage_eq ?_ fun _ hfq => ?_
    · rw [hdir, if_neg hq, hdir1]
    · rw [hdir1] at hfq ⊢
      refine hempty.frames_eq _ _ fun heq => hq ?_
      obtain ⟨ht, hor⟩ := h.tables d' hd' d hd _ i ((frame_ne_zero_iff h hd').mp hfq) h0 heq
      exact ⟨hor.resolve_right (not_lt.mpr (ht ▸ hi)), ht⟩
  · refine Eq.trans ?_ ((hempty.cache_eq d').trans (entrycache_showing d _ d'))
    apply modifyDir_field PageDir.entrycache
    intro pd
    rfl
  · rcases hfreed.isFree b hb with hold | ⟨rfl, -⟩
    · rcases hempty.isFree b hold with hold | ⟨j, hj, hpresent, rfl, hacc⟩
      · exact .inl hold
      · -- The entry is the one of a user page of the directory.
        have hdiv : (i * tableEntries + j) / tableEntries = i := by
          simp only [tableEntries] at *
          omega
        have hpage : s.view d (i * tableEntries + j) = s1.frames f j := by
          have hmod : (i * tableEntries + j) % tableEntries = j := by
            simp only [tableEntries] at *
            omega
          have hnw : i * tableEntries + j ≠ s1.windowPage := by
            have hlt : s1.windowPage < kernelPages := h.window_lt
            simp only [tableEntries, kernelTables, kernelPages] at *
            omega
          have hshown : s.view d (i * tableEntries + j) = s1.view d (i * tableEntries + j) :=
            (h.view_showing hd d _ _).symm
          rw [hshown, view_eq_stored hnw, stored, hdiv, hmod, hdir1, if_neg hf0]
        refine .inr (.inr ⟨i * tableEntries + j, hdiv, ?_, ?_, hacc⟩)
        · rw [hpage]
          exact hpresent
        · rw [hpage]
    · exact .inr (.inl ⟨h0, rfl⟩)

lemma destroyTable_dropped (h : WF s) (hd : d ∈ s.live) {i : ℕ} (hi : kernelTables ≤ i) :
    s.destroyTable d i = s ∨ TableDropped s (s.destroyTable d i) d i := by
  unfold destroyTable
  by_cases h0 : s.dir d i = 0
  · left
    rw [h0, mapTable, frame_zero, if_pos rfl]
    exact if_neg Bool.false_ne_true
  have hf0 : frame (s.dir d i) ≠ 0 := (h.entry_ok d hd i h0).2
  by_cases hwt : s.dir d s.windowTable = 0
  · left
    rw [mapTable, if_neg hf0, hwt, isPresent_zero, if_neg Bool.false_ne_true]
    exact if_neg Bool.false_ne_true
  right
  rw [h.mapTable_eq hd hwt hf0]
  dsimp only
  rw [if_pos rfl]
  -- The window is a kernel page, so it is in another table.
  have hwindow : frame ((s.showing d (s.dir d i)).dir (s.showing d (s.dir d i)).current
      (s.showing d (s.dir d i)).windowTable) ≠ frame (s.dir d i) := by
    rw [dir_showing]
    intro heq
    have ht := (h.tables _ h.current_mem d hd s.windowTable i h.window_current h0 heq).1
    exact absurd h.windowTable_lt (not_lt.mpr (ht ▸ hi))
  exact (emptied_foldl hwindow (windowFrame_showing d (s.dir d i))).tableDropped h hd hi h0

section

variable {i : ℕ} (hdrop : TableDropped s s' d i)

include hdrop

lemma TableDropped.dir_of_ne_zero {d' t : ℕ} (hne : s'.dir d' t ≠ 0) :
    ¬ (d' = d ∧ t = i) ∧ s'.dir d' t = s.dir d' t := by
  rw [hdrop.dir_eq] at hne ⊢
  by_cases hand : d' = d ∧ t = i
  · rw [if_pos hand] at hne
    exact absurd rfl hne
  · exact ⟨hand, if_neg hand⟩

lemma TableDropped.view_of_present {d' q : ℕ} (hd' : d' ∈ s.live)
    (hpresent : isPresent (s'.view d' q) = true) :
    ¬ (d' = d ∧ q / tableEntries = i) ∧ s'.view d' q = s.view d' q := by
  have hand : ¬ (d' = d ∧ q / tableEntries = i) := by
    rintro ⟨rfl, hq⟩
    have h0 : s'.dir d' (q / tableEntries) = 0 := by
      rw [hdrop.dir_eq, if_pos ⟨rfl, hq⟩]
    rw [view_eq_zero_of_dir h0, isPresent_zero] at hpresent
    cases hpresent
  exact ⟨hand, hdrop.view_eq d' hd' q hand⟩

/-- A slot refers to what it referred to, and is neither the table nor one of its pages. -/
lemma TableDropped.refers {a : Slot} (ha : s'.Refers a f) :
    s.Refers a f ∧ a ≠ .table d i ∧ ∀ q, q / tableEntries = i → a ≠ .page d q := by
  have hlive : s'.live = s.live := hdrop.live_eq
  cases a with
  | null => exact ⟨ha, Slot.noConfusion, fun _ _ => Slot.noConfusion⟩
  | page d' q =>
    obtain ⟨hd', hpresent, hf⟩ := ha
    rw [hlive] at hd'
    obtain ⟨hand, heq⟩ := hdrop.view_of_present hd' hpresent
    rw [heq] at hpresent hf
    refine ⟨⟨hd', hpresent, hf⟩, Slot.noConfusion, ?_⟩
    rintro q' hq' heq
    obtain ⟨rfl, rfl⟩ := Slot.page.inj heq
    exact hand ⟨rfl, hq'⟩
  | table d' t =>
    obtain ⟨hd', hne, hf⟩ := ha
    rw [hlive] at hd'
    obtain ⟨hand, heq⟩ := hdrop.dir_of_ne_zero hne
    rw [heq] at hne hf
    exact ⟨⟨hd', hne, hf⟩, fun heq => hand (Slot.table.inj heq), fun _ _ => Slot.noConfusion⟩
  | space id =>
    exact ⟨(spaceHas_congr hdrop.spaces_eq hdrop.addresses).mp ha, Slot.noConfusion,
      fun _ _ => Slot.noConfusion⟩

lemma Core.table_gone (h : Core s) (hd : d ∈ s.live) (hi : kernelTables ≤ i)
    (hne : s.dir d i ≠ 0) (a : Slot) : ¬ s'.Refers a (frame (s.dir d i)) := by
  intro ha
  obtain ⟨ha, hnot, -⟩ := hdrop.refers ha
  rcases h.shared ha (b := .table d i) ⟨hd, hne, rfl⟩ with heq | hmay
  · exact hnot heq
  · cases a with
    | null => exact hmay
    | page d' q => exact absurd hmay.2 (not_lt.mpr hi)
    | table d' t => exact absurd (hmay.1 ▸ hmay.2) (not_lt.mpr hi)
    | space id => exact hmay

/-- Nor to the frame of a page of the table, if that is not shared memory. -/
lemma Core.page_gone (h : Core s) (hd : d ∈ s.live) {q : ℕ} (hq : q / tableEntries = i)
    (hge : kernelPages ≤ q) (hpresent : isPresent (s.view d q) = true)
    (hspace : ¬ s.InSpace (frame (s.view d q))) (hacc : s.phys.Accounted (frame (s.view d q)))
    (a : Slot) : ¬ s'.Refers a (frame (s.view d q)) := by
  intro ha
  obtain ⟨ha, -, hnot⟩ := hdrop.refers ha
  rcases h.shared (a := .page d q) ⟨hd, hpresent, rfl⟩ ha with heq | hmay
  · exact hnot q hq heq.symm
  · cases a with
    | null => exact hmay
    | page d' q' =>
      rcases hmay with ⟨-, hlt⟩ | hin | hnacc
      · exact absurd hlt (not_lt.mpr hge)
      · exact hspace hin
      · exact hnacc hacc
    | table d' t => exact absurd hmay.1 (not_lt.mpr hge)
    | space id => exact hspace ⟨id, ha⟩

/-- A directory that is neither the current one nor that of the kernel loses a user table. -/
lemma WF.tableDropped (h : WF s) (hdc : d ≠ s.current) (hdk : d ≠ s.kernel)
    (hgone : ∀ b, s'.phys.IsFree b → s.phys.IsFree b ∨ ∀ a, ¬ s'.Refers a b) : WF s' := by
  have hlive : s'.live = s.live := hdrop.live_eq
  have hkept : ∀ d', d' ≠ d → ∀ t, s'.dir d' t = s.dir d' t := fun d' hne t => by
    rw [hdrop.dir_eq, if_neg fun hand => hne hand.1]
  refine ⟨?_, ?_, ?_, ?_, ?_, ?_, ?_, ?_, ?_, hdrop.distinct, ?_, ?_⟩
  · rw [hdrop.current_eq, hlive]
    exact h.current_mem
  · rw [hdrop.kernel_eq, hlive]
    exact h.kernel_mem
  · rw [hdrop.windowPage_eq]
    exact h.window_lt
  · rw [hdrop.current_eq, hdrop.windowTable_eq, hkept _ (Ne.symm hdc)]
    exact h.window_current
  · rw [hdrop.kernel_eq, hdrop.windowTable_eq, hkept _ (Ne.symm hdk)]
    exact h.window_kernel
  · intro d' hd' t hne
    have heq := (hdrop.dir_of_ne_zero hne).2
    rw [heq] at hne ⊢
    exact h.entry_ok d' (hlive ▸ hd') t hne
  · intro d' hd' t ht hne
    have heq := (hdrop.dir_of_ne_zero hne).2
    rw [hdrop.current_eq, hkept _ (Ne.symm hdc)]
    rw [heq] at hne ⊢
    exact h.kernel_part d' (hlive ▸ hd') t ht hne
  · intro d1 hd1 d2 hd2 t1 t2 h1 h2 heq
    have heq1 := (hdrop.dir_of_ne_zero h1).2
    have heq2 := (hdrop.dir_of_ne_zero h2).2
    rw [heq1] at h1 heq
    rw [heq2] at h2 heq
    exact h.tables d1 (hlive ▸ hd1) d2 (hlive ▸ hd2) t1 t2 h1 h2 heq
  · intro d' hd' t hne hfree
    rcases hgone _ hfree with hold | hnone
    · have heq := (hdrop.dir_of_ne_zero hne).2
      rw [heq] at hne hold
      exact h.tables_used d' (hlive ▸ hd') t hne hold
    · exact hnone (.table d' t) ⟨hd', hne, rfl⟩
  · intro hfree
    rcases hgone _ hfree with hold | hnone
    · exact h.zero_used hold
    · exact hnone .null rfl
  · intro d' hd'
    exact hdrop.ulowfree_ge d' (h.ulowfree_ge d' (hlive ▸ hd'))

/-- Dropping a user table whose pages are not shared memory. -/
lemma Core.tableDropped (h : Core s) (hd : d ∈ s.live) (hdc : d ≠ s.current)
    (hdk : d ≠ s.kernel) (hi : kernelTables ≤ i)
    (hspace : ∀ q, kernelPages ≤ q → isPresent (s.view d q) = true →
      ¬ s.InSpace (frame (s.view d q))) : Core s' := by
  have hlive : s'.live = s.live := hdrop.live_eq
  have hpage : ∀ q, q / tableEntries = i → kernelPages ≤ q := by
    intro q hq
    simp only [tableEntries, kernelTables, kernelPages] at *
    omega
  -- What was freed is not referred to any more.
  have hgone : ∀ b, s'.phys.IsFree b → s.phys.IsFree b ∨ ∀ a, ¬ s'.Refers a b := by
    intro b hb
    refine (hdrop.isFree b hb).imp_right ?_
    rintro (⟨hne, rfl⟩ | ⟨q, hq, hpresent, rfl, hacc⟩)
    · exact h.table_gone hdrop hd hi hne
    · have hge := hpage q hq
      exact h.page_gone hdrop hd hq hge hpresent (hspace q hge hpresent) hacc
  exact h.congr (h.wf.tableDropped hdrop hdc hdk hgone) (fun _ hd' => hlive ▸ hd')
    (fun d' _ t hne => (hdrop.dir_of_ne_zero hne).2)
    (fun d' hd' q hpresent => (hdrop.view_of_present (hlive ▸ hd') hpresent).2) hdrop.spaces_eq
    hdrop.accounted hdrop.addresses hgone

end

/-- The directory may be deleted: none of its user pages is shared memory, and the page of its own
entries may be freed. -/
structure DestroySafe (s : State) (d : ℕ) : Prop where
  ne_kernel : d ≠ s.kernel
  pages : ∀ q, kernelPages ≤ q → isPresent (s.view d q) = true → ¬ s.InSpace (frame (s.view d q))
  directory : s.FreeSafe fun p => p = pageOf (s.dirs d).directoryAddr

lemma TableDropped.destroySafe (h : TableDropped s s' d n) (hd : d ∈ s.live)
    (hdc : d ≠ s.current) (hwf : WF s) (hs : s.DestroySafe d) : s'.DestroySafe d := by
  have hview : ∀ q, s'.view s.current q = s.view s.current q := fun q =>
    h.view_eq _ hwf.current_mem q fun hand => hdc hand.1.symm
  have hspace : ∀ f, s'.InSpace f ↔ s.InSpace f := fun f =>
    inSpace_congr h.spaces_eq h.addresses
  refine ⟨h.kernel_eq ▸ hs.ne_kernel, fun q hq hpresent => ?_, ?_, ?_, ?_⟩
  · have hkept : ¬ (d = d ∧ q / tableEntries = n) := by
      intro hand
      have h0 : s'.dir d (q / tableEntries) = 0 := by rw [h.dir_eq, if_pos hand]
      rw [view_eq_zero_of_dir h0, isPresent_zero] at hpresent
      cases hpresent
    rw [h.view_eq d hd q hkept] at hpresent ⊢
    rw [hspace]
    exact hs.pages q hq hpresent
  · intro p hp
    rw [h.directoryAddr_eq] at hp
    rw [h.windowPage_eq]
    exact hs.directory.not_window p hp
  · intro x hx hp
    rw [h.directoryAddr_eq] at hp
    rw [h.current_eq] at hx ⊢
    rw [h.cache_eq] at hx
    rw [hview]
    exact hs.directory.cached x hx hp
  · intro p hp
    rw [h.directoryAddr_eq] at hp
    rw [h.current_eq, hview, hspace]
    intro hpresent
    refine ⟨?_, (hs.directory.frames p hp hpresent).2⟩
    rintro ⟨d', hd', t, hne, hf⟩
    refine (hs.directory.frames p hp hpresent).1 ⟨d', h.live_eq ▸ hd', t, ?_⟩
    rw [h.dir_eq] at hne hf
    split at hne
    · exact absurd rfl hne
    · rename_i hand
      rw [if_neg hand] at hf
      exact ⟨hne, hf⟩

lemma TableDropped.caches (h : TableDropped s s' d n) {l : List ℕ}
    (hl : ∀ d' ∈ l, d' ∈ s.live ∧ d' ≠ d) (hc : s.Caches l) : s'.Caches l := by
  intro d' hd'
  rw [h.cache_eq]
  refine (hc d' hd').imp_entry fun q v hv _ => ⟨fun hq => ?_, fun hw => hv.2 ?_⟩
  · rw [h.view_eq d' (hl d' hd').1 q fun hand => (hl d' hd').2 hand.1]
    exact hv.1 hq
  · rw [hw, h.windowPage_eq]

/-- Directories other than the current one and the kernel's may be left out. -/
lemma Core.restrict (h : Core s) {l : List ℕ} (hl : ∀ d ∈ l, d ∈ s.live)
    (hcur : s.current ∈ l) (hker : s.kernel ∈ l) : Core { s with live := l } := by
  have hwf : WF { s with live := l } :=
    ⟨hcur, hker, h.wf.window_lt, h.wf.window_current, h.wf.window_kernel,
      fun d hd => h.wf.entry_ok d (hl d hd), fun d hd => h.wf.kernel_part d (hl d hd),
      fun d1 hd1 d2 hd2 => h.wf.tables d1 (hl d1 hd1) d2 (hl d2 hd2),
      fun d hd => h.wf.tables_used d (hl d hd), h.wf.distinct, h.wf.zero_used,
      fun d hd => h.wf.ulowfree_ge d (hl d hd)⟩
  exact h.congr hwf hl (fun _ _ _ _ => rfl) (fun _ _ _ _ => rfl) rfl (fun _ => Iff.rfl) rfl
    fun _ => .inl

/-- The loop of the destructor over the user tables. -/
lemma Core.destroyTables (h : Core s) (hd : d ∈ s.live) (hdc : d ≠ s.current)
    (hs : s.DestroySafe d) {l is : List ℕ} (hl : ∀ d' ∈ l, d' ∈ s.live ∧ d' ≠ d)
    (hc : s.Caches l) (his : ∀ i ∈ is, kernelTables ≤ i)
    (hs' : is.foldl (fun s i => s.destroyTable d i) s = s') :
    Core s' ∧ Beside s s' ∧ s'.Caches l ∧ s'.DestroySafe d := by
  subst hs'
  refine (Loop.foldl_invariant (P := fun is s1 => (∀ i ∈ is, kernelTables ≤ i) ∧ Core s1 ∧
    Beside s s1 ∧ s1.Caches l ∧ s1.DestroySafe d) ?_ ⟨his, h, .refl s, hc, hs⟩).2
  rintro i is s1 ⟨his, hcore, hbeside, hcaches, hsafe⟩
  have hi := his i mem_cons_self
  have hd1 : d ∈ s1.live := by
    rw [hbeside.live_eq]
    exact hd
  have hdc1 : d ≠ s1.current := by
    rw [hbeside.current_eq]
    exact hdc
  refine ⟨fun j hj => his j (mem_cons_of_mem _ hj), ?_⟩
  rcases destroyTable_dropped hcore.wf hd1 hi with heq | hdrop
  · rw [heq]
    exact ⟨hcore, hbeside, hcaches, hsafe⟩
  · refine ⟨hcore.tableDropped hdrop hd1 hdc1 hsafe.ne_kernel hi hsafe.pages,
      hbeside.trans hdrop.toBeside, hdrop.caches ?_ hcaches,
      hdrop.destroySafe hd1 hdc1 hcore.wf hsafe⟩
    rw [hbeside.live_eq]
    exact hl

lemma Inv.destroy (h : Inv s) (hd : d ∈ s.live) (hsafe : s.DestroySafe d)
    (hs : s.destroy d = some s') : Inv s' := by
  unfold State.destroy at hs
  rw [ite_none_left_eq_some] at hs
  obtain ⟨hdc, hs⟩ := hs
  set l := s.live.filter fun d' => d' ≠ d with hl
  have hmem : ∀ d', d' ∈ l ↔ d' ∈ s.live ∧ d' ≠ d := by
    intro d'
    rw [hl, mem_filter, decide_eq_true_eq]
  generalize hloop : (range' kernelTables (tableEntries - kernelTables)).foldl
    (fun s i => s.destroyTable d i) s = s1 at hs
  obtain ⟨hcore1, hbeside1, hcaches1, hsafe1⟩ := h.core.destroyTables hd hdc hsafe
    (fun d' hd' => (hmem d').mp hd') (fun d' hd' => h.caches d' ((hmem d').mp hd').1)
    (fun i hi => (mem_range'_1.mp hi).1) hloop
  dsimp only at hs
  obtain ⟨s2, hfree, rfl⟩ := map_eq_some_iff.mp hs
  rw [freePages_one] at hfree
  have hcur : s.current ∈ l := (hmem _).mpr ⟨h.wf.current_mem, Ne.symm hdc⟩
  have hker : s.kernel ∈ l := (hmem _).mpr ⟨h.wf.kernel_mem, Ne.symm hsafe.ne_kernel⟩
  have hsub : ∀ d' ∈ l, d' ∈ s1.live := by
    intro d' hd'
    rw [hbeside1.live_eq]
    exact ((hmem d').mp hd').1
  obtain ⟨hcore2, hwindow2, hcaches2, -, hunmapped2⟩ := hcore1.freePage hsub
    (hbeside1.current_eq ▸ hcur) hcaches1 hsafe1.directory rfl hfree
  have hbeside := hbeside1.trans hunmapped2.toBeside
  have hlive : (s2.live.filter fun d' => d' ≠ d) = l := by rw [hbeside.live_eq]
  refine ⟨?_, ⟨hwindow2.ne_zero, hwindow2.used, hwindow2.not_space⟩, ?_⟩
  · refine hcore2.restrict (fun d' hd' => (mem_filter.mp hd').1) ?_ ?_
    · rw [hlive, hbeside.current_eq]
      exact hcur
    · rw [hlive, hbeside.kernel_eq]
      exact hker
  · show Caches _ (s2.live.filter fun d' => d' ≠ d)
    rw [hlive]
    exact hcaches2

end State

end Memory
