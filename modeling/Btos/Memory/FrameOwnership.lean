import Btos.Lib.Ownership
import Btos.Memory.Pages
import Btos.Memory.Shm

/-!
# Who owns a frame

The frames of memory are referred to by pages, by page tables and by spaces of shared memory.
`Core` says, in the sense of `Ownership.Owned`, that none of these frames is free and that a frame
is referred to twice only

* by a kernel page of several directories, or by a kernel table of several directories,
* by the kernel pages that the kernel tables are mapped at,
* by pages that map a frame of shared memory, and by the space,
* by pages that map a device.

The lemmas are about the effects of the operations: a lookup, an entry that is written, a page or a
whole table that is freed, a switch, a new directory.
-/

namespace Memory

namespace State

open Ownership

variable {s s' : State} {d p q t id : ℕ} {e f : Word}

/-! ## References -/

/-- The frame is the page of the space at an address of it. -/
def SpaceAt (s : State) (id : ℕ) (a f : Word) : Prop :=
  ∃ space i, s.spaces.lookup id = some space ∧ space.pages.lookup a = some (PageRef.ram i) ∧
    s.phys.address (.ram i) = f

/-- The frame is a page of the space. -/
def SpaceHas (s : State) (id : ℕ) (f : Word) : Prop :=
  ∃ space a i, s.spaces.lookup id = some space ∧ space.pages.lookup a = some (PageRef.ram i) ∧
    s.phys.address (.ram i) = f

/-- The frame is shared memory. -/
def InSpace (s : State) (f : Word) : Prop := ∃ id, s.SpaceHas id f

/-- What refers to frames. -/
inductive Slot where
  /-- The frame 0, which an entry never refers to. -/
  | null
  | page (d p : ℕ)
  | table (d t : ℕ)
  | space (id : ℕ)
  deriving DecidableEq

/-- The frame that a slot refers to. -/
def Refers (s : State) : Slot → Word → Prop
  | .null, f => f = 0
  | .page d p, f => d ∈ s.live ∧ isPresent (s.view d p) = true ∧ frame (s.view d p) = f
  | .table d t, f => d ∈ s.live ∧ s.dir d t ≠ 0 ∧ frame (s.dir d t) = f
  | .space id, f => s.SpaceHas id f

/-- Whether two different slots may refer to a frame. -/
def MayAlias (s : State) (f : Word) : Slot → Slot → Prop
  | .page _ p, .page _ q => (p = q ∧ p < kernelPages) ∨ s.InSpace f ∨ ¬ s.phys.Accounted f
  | .page _ p, .table _ t => p < kernelPages ∧ t < kernelTables
  | .table _ t, .page _ p => p < kernelPages ∧ t < kernelTables
  | .table _ t, .table _ u => t = u ∧ t < kernelTables
  | .page _ _, .space _ => True
  | .space _, .page _ _ => True
  | _, _ => False

/-- Whether two slots may refer to a frame. -/
def MayShare (s : State) (a b : Slot) (f : Word) : Prop := a = b ∨ s.MayAlias f a b

/-- The references of a state. -/
def refs (s : State) : Refs Slot Word := ⟨s.Refers, s.phys.IsFree⟩

/-- The frames are owned by what refers to them. -/
structure Core (s : State) : Prop where
  wf : WF s
  owned : Owned s.MayShare s.refs
  /-- The pages of shared memory are pages of the array. -/
  space_ram : ∀ id space a r, s.spaces.lookup id = some space → space.pages.lookup a = some r →
    ∃ i, r = PageRef.ram i

/-- The window shows a frame that is in use and is not shared memory. -/
structure WindowUsed (s : State) : Prop where
  ne_zero : s.windowFrame ≠ 0
  used : ¬ s.phys.IsFree s.windowFrame
  not_space : ¬ s.InSpace s.windowFrame

/-- What is cached for a user page is its entry, and the window is cached as mapped. -/
def CachedRight (s : State) (d q : ℕ) (v : Word) : Prop :=
  (kernelPages ≤ q → v = s.view d q) ∧ (q = s.windowPage → frame v ≠ 0)

/-- The caches of the given directories are right for user pages. -/
def Caches (s : State) (l : List ℕ) : Prop :=
  ∀ d ∈ l, HitCache.Holds (s.CachedRight d) (s.dirs d).entrycache

/-! ## Consequences -/

lemma Core.used (h : Core s) {a : Slot} (ha : s.Refers a f) : ¬ s.phys.IsFree f :=
  h.owned.used a f ha

lemma Core.shared (h : Core s) {a b : Slot} (ha : s.Refers a f) (hb : s.Refers b f) :
    s.MayShare a b f := h.owned.shared a b f ha hb

lemma isTable_iff : s.IsTable f ↔ ∃ d t, s.Refers (.table d t) f :=
  ⟨fun ⟨d, hd, t, ht⟩ => ⟨d, t, hd, ht⟩, fun ⟨d, t, hd, ht⟩ => ⟨d, hd, t, ht⟩⟩

lemma Core.page_ne_zero (h : Core s) (hpage : s.Refers (.page d p) f) : f ≠ 0 := by
  intro h0
  rcases h.shared (a := .null) h0 hpage with heq | hmay
  · exact Slot.noConfusion heq
  · exact hmay

lemma Core.space_ne_zero (h : Core s) (hspace : s.SpaceHas id f) : f ≠ 0 := by
  intro h0
  rcases h.shared (a := .null) (b := .space id) h0 hspace with heq | hmay
  · exact Slot.noConfusion heq
  · exact hmay

lemma Core.space_not_table (h : Core s) (hspace : s.InSpace f) : ¬ s.IsTable f := by
  intro htable
  obtain ⟨id, hspace⟩ := hspace
  obtain ⟨d, t, htable⟩ := isTable_iff.mp htable
  rcases h.shared (a := .space id) hspace htable with heq | hmay
  · exact Slot.noConfusion heq
  · exact hmay

lemma Core.user_not_table (h : Core s) (hpage : s.Refers (.page d p) f) (hp : kernelPages ≤ p) :
    ¬ s.IsTable f := by
  intro htable
  obtain ⟨d', t, htable⟩ := isTable_iff.mp htable
  rcases h.shared hpage htable with heq | hmay
  · exact Slot.noConfusion heq
  · exact absurd hmay.1 (not_lt.mpr hp)

lemma Core.space_unique (h : Core s) {id' : ℕ} (hspace : s.SpaceHas id f)
    (hspace' : s.SpaceHas id' f) : id = id' := by
  rcases h.shared (a := .space id) (b := .space id') hspace hspace' with heq | hmay
  · exact Slot.space.inj heq
  · exact hmay.elim

/-! ## Steps that change no reference -/

lemma address_ram {ph ph' : Physical}
    (h : ph'.pages.map PhysPage.address = ph.pages.map PhysPage.address) (i : ℕ) :
    ph'.address (.ram i) = ph.address (.ram i) := by
  have hget : ∀ q : Physical, q.address (.ram i) = ((q.pages.map PhysPage.address)[i]?).getD 0 := by
    intro q
    rw [List.getElem?_map]
    rfl
  rw [hget, hget, h]

lemma spaceHas_iff : s.SpaceHas id f ↔ ∃ a, s.SpaceAt id a f := by
  constructor
  · rintro ⟨space, a, i, hboth⟩
    exact ⟨a, space, i, hboth⟩
  · rintro ⟨a, space, i, hboth⟩
    exact ⟨space, a, i, hboth⟩

section

variable (hspaces : s'.spaces = s.spaces)
  (haddr : s'.phys.pages.map PhysPage.address = s.phys.pages.map PhysPage.address)
include hspaces haddr

lemma spaceAt_congr {a : Word} : s'.SpaceAt id a f ↔ s.SpaceAt id a f := by
  unfold SpaceAt
  simp only [hspaces, address_ram haddr]

lemma spaceHas_congr : s'.SpaceHas id f ↔ s.SpaceHas id f := by
  simp only [spaceHas_iff, spaceAt_congr hspaces haddr]

lemma inSpace_congr : s'.InSpace f ↔ s.InSpace f := by
  unfold InSpace
  simp only [spaceHas_congr hspaces haddr]

end

lemma mayShare_congr {a b : Slot} (hspaces : ∀ d p, a = .page d p → s.InSpace f → s'.InSpace f)
    (hacc : s'.phys.Accounted f ↔ s.phys.Accounted f) (h : s.MayShare a b f) :
    s'.MayShare a b f := by
  refine h.imp_right fun hmay => ?_
  cases a <;> cases b
  case page.page d p _ _ =>
    refine hmay.imp_right (Or.imp (hspaces d p rfl) fun hnot => ?_)
    rwa [hacc]
  all_goals exact hmay

/-- The invariant is about directories, views, spaces and free frames. -/
lemma Core.congr (h : Core s) (hwf : WF s') (hlive : ∀ d ∈ s'.live, d ∈ s.live)
    (hdir : ∀ d ∈ s'.live, ∀ t, s'.dir d t ≠ 0 → s'.dir d t = s.dir d t)
    (hview : ∀ d ∈ s'.live, ∀ q, isPresent (s'.view d q) = true → s'.view d q = s.view d q)
    (hspaces : s'.spaces = s.spaces) (hacc : ∀ b, s'.phys.Accounted b ↔ s.phys.Accounted b)
    (haddr : s'.phys.pages.map PhysPage.address = s.phys.pages.map PhysPage.address)
    (hfree : ∀ b, s'.phys.IsFree b → s.phys.IsFree b ∨ ∀ a, ¬ s'.Refers a b) : Core s' := by
  refine ⟨hwf, h.owned.release ?_ hfree ?_, ?_⟩
  · intro a f ha
    cases a with
    | null => exact ha
    | page d p =>
      obtain ⟨hd, hpresent, hf⟩ := ha
      have hpv := hview d hd p hpresent
      rw [hpv] at hpresent hf
      exact ⟨hlive d hd, hpresent, hf⟩
    | table d t =>
      obtain ⟨hd, hne, hf⟩ := ha
      have htv := hdir d hd t hne
      rw [htv] at hne hf
      exact ⟨hlive d hd, hne, hf⟩
    | space id => exact (spaceHas_congr hspaces haddr).mp ha
  · intro a b f _ _ hmay
    exact mayShare_congr (fun _ _ _ => (inSpace_congr hspaces haddr).mpr) (hacc f) hmay
  · rw [hspaces]
    exact h.space_ram

lemma Core.looked (h : Core s) (hs : Looked s s' d) : Core s' :=
  h.congr (hs.wf h.wf) (fun _ hd => hs.live_eq ▸ hd) (fun d _ t _ => hs.dir_eq d t)
    (fun d hd q _ => hs.view_eq d (hs.live_eq ▸ hd) q) hs.spaces_eq
    (fun b => by rw [hs.phys_eq]) (by rw [hs.phys_eq]) fun b hb => .inl (hs.phys_eq ▸ hb)

/-! ## Writing an entry -/

/-- The references that writing an entry may add: the one of the entry, and a table. -/
def NewRef (s s' : State) (p : ℕ) (e : Word) (a : Slot) (f : Word) : Prop :=
  (∃ d, a = .page d p ∧ isPresent e = true ∧ f = frame e ∧ (d = s.current ∨ p < kernelPages)) ∨
    (a = .table s.current (p / tableEntries) ∧ s.dir s.current (p / tableEntries) = 0 ∧
      f = frame (s'.dir s.current (p / tableEntries)))

lemma PageSet.refers (h : PageSet s s' p e) {a : Slot} (ha : s'.Refers a f) :
    s.Refers a f ∨ NewRef s s' p e a f := by
  cases a with
  | null => exact .inl ha
  | page d q =>
    obtain ⟨hd, hpresent, rfl⟩ := ha
    rw [h.live_eq] at hd
    by_cases hq : q = p
    · subst hq
      -- the window page is not seen as present
      have hw : q ≠ s.windowPage := by
        rintro rfl
        rw [view, h.windowPage_eq, if_pos rfl, isPresent_zero] at hpresent
        cases hpresent
      by_cases hown : d = s.current ∨ q < kernelPages
      · rw [h.view_self hw d hd] at hpresent ⊢
        split at hpresent
        · rename_i hshare
          rw [if_pos hshare]
          exact .inr (.inl ⟨d, rfl, hpresent, rfl, hown⟩)
        · rename_i hshare
          rw [if_neg hshare]
          exact .inl ⟨hd, hpresent, rfl⟩
      · rw [not_or] at hown
        rw [h.view_of_ge hw hown.2 hd hown.1] at hpresent ⊢
        exact .inl ⟨hd, hpresent, rfl⟩
    · rw [h.view_other d hd q hq] at hpresent ⊢
      exact .inl ⟨hd, hpresent, rfl⟩
  | table d t =>
    obtain ⟨hd, hne, rfl⟩ := ha
    rw [h.live_eq] at hd
    by_cases hnew : s.dir d t ≠ 0 ∨ d ≠ s.current ∨ t ≠ p / tableEntries
    · rw [h.dir_eq d t hnew] at hne ⊢
      exact .inl ⟨hd, hne, rfl⟩
    · rw [not_or, not_not, not_or, not_not, not_not] at hnew
      obtain ⟨h0, rfl, rfl⟩ := hnew
      exact .inr (.inr ⟨rfl, h0, rfl⟩)
  | space id => exact .inl ((spaceHas_congr h.spaces_eq h.addresses).mp ha)

lemma PageSet.view_owner (h : PageSet s s' p e) (hp : p ≠ s.windowPage) (hd : d ∈ s.live)
    (hown : d = s.current ∨ p < kernelPages) : s'.view d p = e ∨ s'.view d p = 0 := by
  by_cases h0 : s'.dir d (p / tableEntries) = 0
  · exact .inr (view_eq_zero_of_dir h0)
  · left
    rw [h.view_self hp d hd, if_pos]
    rcases hown with rfl | hlt
    · rfl
    · rw [← h.current_eq]
      refine h.wf.kernel_part d (h.live_eq ▸ hd) _ ?_ h0
      simp only [kernelTables, kernelPages, tableEntries] at *
      omega

lemma PageSet.isTable (h : PageSet s s' p e) (hf : s.IsTable f) : s'.IsTable f := by
  obtain ⟨d, hd, t, hne, heq⟩ := hf
  have hdir := h.dir_eq d t (.inl hne)
  refine ⟨d, ?_, t, ?_, ?_⟩
  · rw [h.live_eq]
    exact hd
  · rwa [hdir]
  · rwa [hdir]

/-- Writing an entry, when the frame of a present entry is in use, is no table, and is not mapped
elsewhere unless it is shared memory or a device. -/
lemma Core.pageSet (h : Core s) (hset : PageSet s s' p e)
    (hfree : ∀ b, s'.phys.IsFree b → s.phys.IsFree b ∨ ∀ a, ¬ s'.Refers a b)
    (he : isPresent e = true → frame e ≠ 0 ∧ ¬ s'.phys.IsFree (frame e) ∧
      ¬ s'.IsTable (frame e) ∧ ∀ d q, s.Refers (.page d q) (frame e) →
        s.InSpace (frame e) ∨ ¬ s.phys.Accounted (frame e)) : Core s' := by
  have hmay : ∀ {a b f}, s.MayShare a b f → s'.MayShare a b f := fun {a b f} =>
    mayShare_congr (fun _ _ _ => (inSpace_congr hset.spaces_eq hset.addresses).mpr)
      (hset.accounted f)
  have hcur : s.current ∈ s'.live := by
    rw [← hset.current_eq]
    exact hset.wf.current_mem
  refine ⟨hset.wf, h.owned.step (fun a f => hset.refers) (fun f hf => ?_) (fun _ _ _ _ _ => hmay)
    ?_ ?_, ?_⟩
  · refine (hfree f hf).imp_left fun hwas => ⟨hwas, fun a hnew => ?_⟩
    rcases hnew with ⟨d, -, hpresent, rfl, -⟩ | ⟨-, -, rfl⟩
    · exact (he hpresent).2.1 hf
    · exact hset.wf.tables_used _ hcur _ hset.dir_ne hf
  · intro a b f hnew hb
    rcases hnew with ⟨d, rfl, hpresent, rfl, -⟩ | ⟨rfl, h0, rfl⟩
    · obtain ⟨hne, -, hnottable, hpages⟩ := he hpresent
      cases b with
      | null => exact absurd hb hne
      | page d' q =>
        have hor := hpages d' q hb
        exact ⟨hmay (.inr (.inr hor)), hmay (.inr (.inr hor))⟩
      | table d' t => exact absurd (hset.isTable (isTable_iff.mpr ⟨d', t, hb⟩)) hnottable
      | space id => exact ⟨.inr trivial, .inr trivial⟩
    · -- The frame of a new table was free, so nothing referred to it.
      exact absurd (hset.new_table h0) (h.used hb)
  · intro a b f ha hb
    have htable : ∀ u, isPresent e = true → u = frame e →
        u = frame (s'.dir s.current (p / tableEntries)) → False := by
      rintro u hpresent rfl heq
      exact (he hpresent).2.2.1 ⟨_, hcur, _, hset.dir_ne, heq.symm⟩
    rcases ha with ⟨d, rfl, hpresent, hf, hd⟩ | ⟨rfl, -, hf⟩ <;>
      rcases hb with ⟨d', rfl, hpresent', hf', hd'⟩ | ⟨rfl, -, hf'⟩
    · by_cases hlt : p < kernelPages
      · exact .inr (.inl ⟨rfl, hlt⟩)
      · left
        rw [hd.resolve_right hlt, hd'.resolve_right hlt]
    · exact (htable f hpresent hf hf').elim
    · exact (htable f hpresent' hf' hf).elim
    · exact .inl rfl
  · rw [hset.spaces_eq]
    exact h.space_ram

lemma Core.windowUsed_of_table (h : Core s) {d t : ℕ} (hd : d ∈ s.live) (ht : s.dir d t ≠ 0)
    (hw : s.windowFrame = frame (s.dir d t)) : WindowUsed s := by
  have htable : s.IsTable s.windowFrame := ⟨d, hd, t, ht, hw.symm⟩
  refine ⟨?_, ?_, fun hspace => h.space_not_table hspace htable⟩
  · rw [hw]
    exact (h.wf.entry_ok d hd t ht).2
  · rw [hw]
    exact h.wf.tables_used d hd t ht

lemma Core.windowUsed_pageSet (h : Core s') (hset : PageSet s s' p e) (hp : p ≠ s.windowPage) :
    WindowUsed s' := by
  refine h.windowUsed_of_table ?_ hset.dir_ne (hset.window hp)
  rw [← hset.current_eq]
  exact h.wf.current_mem

variable {l : List ℕ}

/-- The caches after an entry was written. -/
lemma Caches.pageSet (h : s.Caches l) (hl : ∀ d ∈ l, d ∈ s.live) (hset : PageSet s s' p e)
    (hcur : HitCache.Holds (s'.CachedRight s.current) (s'.dirs s.current).entrycache) :
    s'.Caches l := by
  intro d hd
  by_cases hdc : d = s.current
  · rw [hdc]
    exact hcur
  · rw [hset.cache_other d hdc]
    refine (h d hd).imp_entry fun q v hv _ => ⟨fun hq => ?_, fun hw => hv.2 ?_⟩
    · by_cases hqp : q = p
      · subst hqp
        -- The window page is no user page.
        have hw : q ≠ s.windowPage := by
          rintro rfl
          exact absurd hset.wf.window_lt (not_lt.mpr (hset.windowPage_eq ▸ hq))
        rw [hset.view_of_ge hw (not_lt.mpr hq) (hl d hd) hdc]
        exact hv.1 hq
      · rw [hset.view_other d (hl d hd) q hqp]
        exact hv.1 hq
    · rwa [hset.windowPage_eq] at hw

/-! ## The invariant -/

/-- Frames are owned, and what is cached of user pages is right. -/
structure Inv (s : State) : Prop where
  core : Core s
  window : WindowUsed s
  caches : s.Caches s.live

lemma Inv.wf (h : Inv s) : WF s := h.core.wf

lemma WF.windowFrame_eq_stored (h : WF s) (hd : d ∈ s.live) (hw : s.dir d s.windowTable ≠ 0) :
    s.windowFrame = frame (s.stored d s.windowPage) := by
  have hdir : s.dir d (s.windowPage / tableEntries) = s.dir s.current s.windowTable :=
    h.window_eq hd hw
  have hne := (h.entry_ok _ h.current_mem _ h.window_current).2
  rw [stored, hdir, if_neg hne]
  rfl

/-- A lookup in the current directory or in the kernel's. The window is found to be mapped. -/
lemma Inv.lookup (h : Inv s) (hd : d ∈ s.live) (hw : s.dir d s.windowTable ≠ 0) (p : ℕ) :
    Inv (s.getTableEntry d p).2 ∧ (p = s.windowPage → frame (s.getTableEntry d p).1 ≠ 0) := by
  have hlooked := getTableEntry_looked h.wf hd hw p
  set s' := (s.getTableEntry d p).2 with hs'
  have hcore : Core s' := h.core.looked hlooked
  have hwindow : WindowUsed s' := by
    -- the window shows what it has shown, or the table that was looked at
    rcases hlooked.window with heq | ⟨t, ht, heq⟩
    · refine ⟨heq ▸ h.window.ne_zero, ?_, ?_⟩
      · rw [heq, hlooked.phys_eq]
        exact h.window.used
      · rw [heq, inSpace_congr hlooked.spaces_eq (by rw [hlooked.phys_eq])]
        exact h.window.not_space
    · refine hcore.windowUsed_of_table (hlooked.live_eq ▸ hd) (t := t) ?_ ?_
      · rwa [hlooked.dir_eq]
      · rw [hlooked.dir_eq, heq]
  -- a lookup changes no entry, so that cached entries stay right
  have hright : ∀ {d' q v}, d' ∈ s.live → s.CachedRight d' q v → s'.CachedRight d' q v := by
    intro d' q v hd' hv
    refine ⟨fun hq => ?_, fun hqw => hv.2 (hqw.trans hlooked.windowPage_eq)⟩
    rw [hlooked.view_eq d' hd']
    exact hv.1 hq
  have hstored : p = s'.windowPage → frame (s'.stored d p) ≠ 0 := by
    intro heq
    have hframe := hcore.wf.windowFrame_eq_stored (hlooked.live_eq ▸ hd) (hlooked.windowTable_ne hw)
    rw [← heq] at hframe
    exact hframe ▸ hwindow.ne_zero
  obtain ⟨hcache, hvalue⟩ := getTableEntry_right h.wf hd hw
    ((h.caches d hd).imp_entry fun q v hv _ => hright hd hv)
    fun _ => ⟨fun hp => (view_eq_stored fun heq =>
      absurd hcore.wf.window_lt (not_lt.mpr (heq ▸ hp))).symm, hstored⟩
  refine ⟨⟨hcore, hwindow, fun d' hd' => ?_⟩, fun heq => ?_⟩
  · rw [hlooked.live_eq] at hd'
    by_cases hdd : d' = d
    · rw [hdd]
      exact hcache
    · rw [hlooked.cache_eq d' hdd]
      exact (h.caches d' hd').imp_entry fun q v hv _ => hright hd' hv
  · rw [← hlooked.windowPage_eq] at heq
    rcases hvalue with hread | hcached
    · rw [hread]
      exact hstored heq
    · exact hcached.2 heq

/-- Steps on the fields of directories that are no part of the page tables. -/
lemma Inv.modifyDir (h : Inv s) {g : PageDir → PageDir} (d : ℕ)
    (hg : ∀ pd, (g pd).directory = pd.directory ∧ (g pd).entrycache = pd.entrycache)
    (hlow : d ∈ s.live → kernelPages ≤ (g (s.dirs d)).ulowfree) : Inv (s.modifyDir d g) := by
  have hdir : ∀ d' t, (s.modifyDir d g).dir d' t = s.dir d' t :=
    dir_modifyDir (fun pd => (hg pd).1) d
  have hview : ∀ d' q, (s.modifyDir d g).view d' q = s.view d' q :=
    fun d' q => view_congr rfl (hdir d' _) fun _ _ => rfl
  have hcache := modifyDir_field (s := s) PageDir.entrycache d fun pd => (hg pd).2
  have hwindow : (s.modifyDir d g).windowFrame = s.windowFrame := by
    show frame (s.frames (frame ((s.modifyDir d g).dir s.current s.windowTable)) s.windowSlot) = _
    rw [hdir, windowFrame]
  have hwf : WF (s.modifyDir d g) := h.wf.modifyDir (fun pd => (hg pd).1) hlow
  refine ⟨h.core.congr hwf (fun _ => id) (fun d' _ t _ => hdir d' t) (fun d' _ q _ => hview d' q)
    rfl (fun _ => Iff.rfl) rfl fun _ => .inl, ?_, ?_⟩
  · exact ⟨hwindow ▸ h.window.ne_zero, hwindow ▸ h.window.used, hwindow ▸ h.window.not_space⟩
  · intro d' hd'
    rw [hcache]
    refine (h.caches d' hd').imp_entry fun q v hv _ => ⟨fun hq => ?_, hv.2⟩
    rw [hview]
    exact hv.1 hq

/-- Writing an entry, as `set_table_entry` does. -/
lemma Inv.entrySet (h : Inv s) (hset : EntrySet s s' p e)
    (he : isPresent e = true → frame e ≠ 0 ∧ ¬ s'.phys.IsFree (frame e) ∧
      ¬ s'.IsTable (frame e) ∧ ∀ d q, s.Refers (.page d q) (frame e) →
        s.InSpace (frame e) ∨ ¬ s.phys.Accounted (frame e)) (hw : p = s.windowPage →
      frame e ≠ 0 ∧ ¬ s'.phys.IsFree (frame e) ∧ ¬ s.InSpace (frame e)) : Inv s' := by
  have hcore : Core s' :=
    h.core.pageSet hset.toPageSet (fun b hb => .inl (hset.isFree b hb)) he
  refine ⟨hcore, ?_, ?_⟩
  -- the window itself may be what is written
  · by_cases hpw : p = s.windowPage
    · have hframe : s'.windowFrame = frame e := by
        rw [hcore.wf.windowFrame_eq_stored hcore.wf.current_mem hcore.wf.window_current,
          hset.current_eq, hset.windowPage_eq, ← hpw, hset.stored_self]
      obtain ⟨hne, hused, hspace⟩ := hw hpw
      rw [← inSpace_congr hset.spaces_eq hset.addresses] at hspace
      exact ⟨hframe ▸ hne, hframe ▸ hused, hframe ▸ hspace⟩
    · exact hcore.windowUsed_pageSet hset.toPageSet hpw
  · rw [hset.live_eq]
    refine h.caches.pageSet (fun _ => id) hset.toPageSet ?_
    rw [hset.cache_self]
    -- `set_table_entry` clears the line of the entry that it writes
    refine HitCache.clear_holds (h.caches _ h.wf.current_mem) fun q v hq hv => ⟨fun hge => ?_, ?_⟩
    · rw [hset.view_other _ h.wf.current_mem q hq]
      exact hv.1 hge
    · rw [hset.windowPage_eq]
      exact hv.2

/-- Mapping a new page anywhere, even over the window. -/
lemma Inv.mapNewPageAt (h : Inv s) {addr : Word} {flags : PageFlags}
    (hs : s.mapNewPageAt s.current addr flags = some s') :
    Inv s' ∧ ∃ f, s.phys.IsFree f ∧ Aligned f ∧ EntrySet s s' (pageOf addr) (f ||| flags.bits) := by
  obtain ⟨f, hwas, hused, htable, haligned, hset⟩ := mapNewPageAt_entrySet h.wf hs
  have hframe : frame (f ||| flags.bits) = f := frame_or haligned flags.low
  -- Nothing referred to the frame while it was free.
  have hnone : ∀ a, ¬ s.Refers a f := fun a ha => h.core.used ha hwas
  refine ⟨h.entrySet hset (fun _ => ?_) fun _ => ?_, f, hwas, haligned, hset⟩
  · rw [hframe]
    exact ⟨hnone .null, hused, htable, fun d q hq => absurd hq (hnone _)⟩
  · rw [hframe]
    exact ⟨hnone .null, hused, fun ⟨id, hid⟩ => hnone (.space id) hid⟩

/-! ## Freeing pages -/

/-- The pages in `R` may be freed: what is cached for kernel pages among them is right, and the
frames they are in are neither page tables nor shared memory. -/
structure FreeSafe (s : State) (R : ℕ → Prop) : Prop where
  not_window : ∀ p, R p → p ≠ s.windowPage
  cached : ∀ x ∈ (s.dirs s.current).entrycache, R x.index → x.index < kernelPages →
    x.entry ≠ 0 → x.entry = s.view s.current x.index
  frames : ∀ p, R p → isPresent (s.view s.current p) = true →
    ¬ s.IsTable (frame (s.view s.current p)) ∧ ¬ s.InSpace (frame (s.view s.current p))

variable {R : ℕ → Prop}

lemma FreeSafe.holds (hR : s.FreeSafe R)
    (hcache : HitCache.Holds (s.CachedRight s.current) (s.dirs s.current).entrycache) :
    HitCache.Holds (fun q v => s.CachedRight s.current q v ∧ (R q → v = s.view s.current q))
      (s.dirs s.current).entrycache := by
  intro x hx hne
  refine ⟨hcache x hx hne, fun hq => ?_⟩
  by_cases hlt : x.index < kernelPages
  · exact hR.cached x hx hq hlt hne
  · exact (hcache x hx hne).1 (not_lt.mp hlt)

/-- A page that is freed was the only one in its frame. -/
lemma Core.pageFreed (h : Core s) (hp : p ≠ s.windowPage)
    (hframe : isPresent (s.view s.current p) = true →
      ¬ s.IsTable (frame (s.view s.current p)) ∧ ¬ s.InSpace (frame (s.view s.current p)))
    (hf : PageFreed s s' p e) (he : isPresent e = false) : Core s' := by
  refine h.pageSet hf.toPageSet (fun b hb => (hf.isFree b hb).imp_right ?_) fun hpresent => ?_
  · rintro ⟨hpresent, rfl, hacc⟩ a ha
    obtain ⟨htable, hspace⟩ := hframe hpresent
    have hself : s.Refers (.page s.current p) (frame (s.view s.current p)) :=
      ⟨h.wf.current_mem, hpresent, rfl⟩
    rcases hf.refers ha with hold | ⟨-, -, hpe, -⟩ | ⟨-, h0, heq⟩
    · cases a with
      | null => exact h.page_ne_zero hself hold
      | page d q =>
        -- The other reference is the same kernel page, whose entry was overwritten too.
        have hqp : q = p ∧ (d = s.current ∨ p < kernelPages) := by
          rcases h.shared hself hold with heq | ⟨rfl, hlt⟩ | hin | hnot
          · obtain ⟨rfl, rfl⟩ := Slot.page.inj heq
            exact ⟨rfl, .inl rfl⟩
          · exact ⟨rfl, .inr hlt⟩
          · exact absurd hin hspace
          · exact absurd hacc hnot
        obtain ⟨rfl, hd⟩ := hqp
        obtain ⟨hdl, hpr, -⟩ := ha
        rcases hf.view_owner hp (hf.live_eq ▸ hdl) hd with heq | heq
        · rw [heq, he] at hpr
          cases hpr
        · rw [heq, isPresent_zero] at hpr
          cases hpr
      | table d t => exact htable (isTable_iff.mpr ⟨d, t, hold⟩)
      | space id => exact hspace ⟨id, hold⟩
    · rw [he] at hpe
      cases hpe
    · exact h.used hself (heq ▸ hf.new_table h0)
  · rw [he] at hpresent
    cases hpresent

lemma FreeSafe.pageFreed (hR : s.FreeSafe R) (h : Core s) (hp : R p)
    (hf : PageFreed s s' p e) (he : isPresent e = false)
    (hcache : HitCache.Holds (fun q v => R q → v = s'.view s.current q)
      (s'.dirs s.current).entrycache) : s'.FreeSafe R := by
  refine ⟨fun q hq => ?_, fun x hx hq _ hne => ?_, fun q hq hpresent => ?_⟩
  · rw [hf.windowPage_eq]
    exact hR.not_window q hq
  · rw [hf.current_eq] at hx ⊢
    exact hcache x hx hne hq
  · rw [hf.current_eq] at hpresent ⊢
    have hne : q ≠ p := by
      rintro rfl
      rw [hf.toPageSet.view_current h.wf (hR.not_window q hq), he] at hpresent
      cases hpresent
    rw [hf.view_other _ h.wf.current_mem q hne] at hpresent ⊢
    obtain ⟨htable, hspace⟩ := hR.frames q hq hpresent
    refine ⟨fun hnew => ?_, by rwa [inSpace_congr hf.spaces_eq hf.addresses]⟩
    obtain ⟨d, t, href⟩ := isTable_iff.mp hnew
    rcases hf.refers href with hold | ⟨d', heq, -⟩ | ⟨-, h0, heq⟩
    · exact htable (isTable_iff.mpr ⟨d, t, hold⟩)
    · exact Slot.noConfusion heq
    · -- The frame of a page is in use, so no table was created in it.
      exact h.used (a := .page s.current q) ⟨h.wf.current_mem, hpresent, rfl⟩
        (heq ▸ hf.new_table h0)

/-- Pages of the current directory are taken away: those in `R` are not present, and what is present
was so before. -/
structure Unmapped (s s' : State) (R : ℕ → Prop) : Prop extends Beside s s' where
  addresses : s'.phys.pages.map PhysPage.address = s.phys.pages.map PhysPage.address
  kept : ∀ d ∈ s.live, ∀ q, isPresent (s'.view d q) = true → s'.view d q = s.view d q
  gone : ∀ q, R q → isPresent (s'.view s.current q) = false

lemma Unmapped.refl (s : State) : Unmapped s s fun _ => False where
  toBeside := .refl s
  addresses := rfl
  kept _ _ _ _ := rfl
  gone _ hq := hq.elim

lemma Unmapped.trans {s'' : State} {R' : ℕ → Prop} (h : Unmapped s s' R)
    (h' : Unmapped s' s'' R') (hs : WF s) : Unmapped s s'' fun q => R q ∨ R' q where
  toBeside := h.toBeside.trans h'.toBeside
  addresses := h'.addresses.trans h.addresses
  kept d hd q hq := by
    have heq := h'.kept d (h.live_eq ▸ hd) q hq
    rw [heq] at hq ⊢
    exact h.kept d hd q hq
  gone q hq := by
    rcases hq with hq | hq
    · rw [Bool.eq_false_iff]
      intro hpresent
      -- What is present at the end was present in between.
      rw [h'.kept s.current (h.live_eq ▸ hs.current_mem) q hpresent, h.gone q hq] at hpresent
      cases hpresent
    · rw [← h.current_eq]
      exact h'.gone q hq

lemma Unmapped.mono {R' : ℕ → Prop} (h : Unmapped s s' R) (hle : ∀ q, R' q → R q) :
    Unmapped s s' R' where
  __ := h
  gone q hq := h.gone q (hle q hq)

lemma PageSet.unmapped (h : PageSet s s' p e) (hs : WF s) (hp : p ≠ s.windowPage)
    (he : isPresent e = false) : Unmapped s s' (· = p) where
  __ := h
  kept d hd q hq := by
    by_cases hqp : q = p
    · rw [hqp] at hq ⊢
      rw [h.view_self hp d hd] at hq ⊢
      split at hq
      · rw [he] at hq
        cases hq
      · rename_i hother
        rw [if_neg hother]
    · exact h.view_other d hd q hqp
  gone q hq := by rw [hq, h.view_current hs hp, he]

/-- What the operations that free one page keep; the window may show a frame that is free
before. -/
lemma Core.freed (h : Core s) (hl : ∀ d ∈ l, d ∈ s.live) (hc : s.Caches l)
    (hR : s.FreeSafe R) (hp : R p) (hf : PageFreed s s' p e) (he : isPresent e = false)
    (hcache : ∀ Q : ℕ → Word → Prop,
      (∀ k v, k ≠ p → s.CachedRight s.current k v ∧ (R k → v = s.view s.current k) → Q k v) →
        HitCache.Holds Q (s'.dirs s.current).entrycache) :
    Core s' ∧ WindowUsed s' ∧ s'.Caches l ∧ s'.FreeSafe R := by
  have hw := hR.not_window p hp
  have hcore : Core s' := h.pageFreed hw (hR.frames p hp) hf he
  have hview : ∀ q, q ≠ p → s'.view s.current q = s.view s.current q :=
    hf.view_other _ h.wf.current_mem
  refine ⟨hcore, hcore.windowUsed_pageSet hf.toPageSet hw, hc.pageSet hl hf.toPageSet ?_,
    hR.pageFreed h hp hf he ?_⟩
  · refine hcache _ fun k v hk hv => ⟨fun hge => ?_, fun hkw => hv.1.2 (hkw.trans hf.windowPage_eq)⟩
    rw [hview k hk]
    exact hv.1.1 hge
  · refine hcache _ fun k v hk hv hRk => ?_
    rw [hview k hk]
    exact hv.2 hRk

lemma Core.freePage (h : Core s) {addr : Word} (hl : ∀ d ∈ l, d ∈ s.live)
    (hcur : s.current ∈ l) (hc : s.Caches l) (hR : s.FreeSafe R) (hp : R (pageOf addr))
    (hs : s.freePage s.current addr = some s') :
    Core s' ∧ WindowUsed s' ∧ s'.Caches l ∧ s'.FreeSafe R ∧ Unmapped s s' (· = pageOf addr) := by
  have hw := hR.not_window _ hp
  obtain ⟨hfreed, hcache⟩ := freePage_pageFreed h.wf hw (hR.holds (hc _ hcur))
    (fun _ => ⟨⟨fun _ => rfl, fun heq => absurd heq hw⟩, fun _ => rfl⟩) (fun _ hv => hv.2 hp)
    (fun hpresent => ⟨(hR.frames _ hp hpresent).1,
      h.page_ne_zero ⟨h.wf.current_mem, hpresent, rfl⟩⟩) hs
  obtain ⟨hcore, hwindow, hcaches, hsafe⟩ := h.freed hl hc hR hp hfreed isPresent_zero hcache
  exact ⟨hcore, hwindow, hcaches, hsafe, hfreed.toPageSet.unmapped h.wf hw isPresent_zero⟩

lemma Inv.freePage (h : Inv s) {addr : Word} (hR : s.FreeSafe R) (hp : R (pageOf addr))
    (hs : s.freePage s.current addr = some s') :
    Inv s' ∧ s'.FreeSafe R ∧ Unmapped s s' (· = pageOf addr) := by
  obtain ⟨hcore, hwindow, hcaches, hsafe, hunmapped⟩ :=
    h.core.freePage (fun _ => id) h.wf.current_mem h.caches hR hp hs
  exact ⟨⟨hcore, hwindow, hunmapped.live_eq ▸ hcaches⟩, hsafe, hunmapped⟩

lemma Inv.guardPageAt (h : Inv s) {ptr : Word} (hR : s.FreeSafe R) (hp : R (pageOf ptr))
    (hs : s.guardPageAt s.current ptr = some s') :
    Inv s' ∧ s'.FreeSafe R ∧ Unmapped s s' (· = pageOf ptr) := by
  have hw := hR.not_window _ hp
  obtain ⟨hfreed, hcache⟩ := guardPageAt_pageFreed h.wf hw (hR.holds (h.caches _ h.wf.current_mem))
    (fun _ => ⟨⟨fun _ => rfl, fun heq => absurd heq hw⟩, fun _ => rfl⟩) (fun _ hv => hv.2 hp)
    (fun hpresent => ⟨(hR.frames _ hp hpresent).1,
      h.core.page_ne_zero ⟨h.wf.current_mem, hpresent, rfl⟩⟩) hs
  have hmarked := isPresent_guarded (s.view s.current (pageOf ptr))
  obtain ⟨hcore, hwindow, hcaches, hsafe⟩ :=
    h.core.freed (fun _ => id) h.caches hR hp hfreed hmarked hcache
  exact ⟨⟨hcore, hwindow, hfreed.live_eq ▸ hcaches⟩, hsafe,
    hfreed.toPageSet.unmapped h.wf hw hmarked⟩

end State

end Memory
