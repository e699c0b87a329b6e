import Btos.Memory.Machine
import Btos.Memory.Pages
import Btos.Memory.Shm

/-!
# Closing shared memory and its page faults

* `closesSpace_iff`: `shm_close` closes one mapping of the space only, and it needs the space to
  exist,
* `closesMapping_iff`: `shm_close_map` works on the current page directory, whoever made the
  mapping,
* `Fault.readOnly_kept_iff`: `shm_pf_handler` makes every page writable.
-/

open List Option

namespace Memory

/-- A region through which a mapping gets its page faults. -/
def Region.IsMapping (id : ℕ) (r : Region) : Bool := r.id = id && r.pfHandle = .shm

namespace State

variable {s s' : State}

/-! ## What mapping pages leaves alone -/

lemma beside_mapTable (s : State) (d : ℕ) (a : Word) : Beside s (s.mapTable d a).2 := by
  unfold mapTable
  split_ifs <;> dsimp only
  · exact .refl s
  · have hwrite := beside_writeFrame (s := s) (frame (s.dir d s.windowTable)) s.windowSlot
      (frame a ||| (present ||| writable))
    refine hwrite.trans ?_
    apply beside_modifyDir
    · exact fun _ => ⟨rfl, rfl⟩
    · exact fun _ => id
  · exact .refl s

lemma beside_createTable {d t : ℕ} (h : s.createTable d t = some s') : Beside s s' := by
  obtain ⟨⟨page, phys⟩, -, rfl⟩ := map_eq_some_iff.mp h
  set s1 : State := ({ s with phys := phys } : State).setDirEntry d t
    (phys.address page ||| tableFlags t)
  have hentry : Beside s s1 :=
    (beside_of_dirs_eq rfl rfl rfl rfl rfl rfl rfl rfl : Beside s { s with phys := phys }).trans
      (beside_modifyDir d (fun _ => ⟨rfl, rfl⟩) fun _ => id)
  have hzero := (hentry.trans (beside_mapTable s1 d (phys.address page))).trans
    (beside_zeroFrame (s1.mapTable d (phys.address page)).2.windowFrame)
  dsimp only
  split_ifs
  · exact hzero.trans (beside_mapTable _ _ _)
  · exact hzero

lemma beside_showTable {d t : ℕ} (h : s.showTable d t = some s') : Beside s s' := by
  unfold showTable at h
  split at h
  · rw [← some.inj h]
    exact beside_mapTable _ _ _
  · obtain ⟨s1, hcreate, rfl⟩ := map_eq_some_iff.mp h
    exact ((beside_createTable hcreate).trans (beside_mapTable _ _ _)).trans (beside_zeroFrame _)

variable {flags : PageFlags} {d : ℕ}

lemma beside_mapPageAt {addr : Word} {page : PageRef}
    (h : s.mapPageAt d addr page flags = some s') : Beside s s' := by
  obtain ⟨s2, hset, rfl⟩ := map_eq_some_iff.mp h
  obtain ⟨s1, hshow, rfl⟩ := map_eq_some_iff.mp hset
  exact (((beside_showTable hshow).trans (beside_writeFrame _ _ _)).trans
    (beside_setCache _ _)).trans (still_count rfl).1.toBeside

lemma beside_mapNewPageAt {addr : Word}
    (h : s.mapNewPageAt d addr flags = some s') : Beside s s' := by
  rw [mapNewPageAt, bind_eq_some_iff] at h
  obtain ⟨⟨page, phys⟩, -, h⟩ := h
  obtain ⟨s1, hmap, rfl⟩ := map_eq_some_iff.mp h
  have hphys : Beside s { s with phys := phys } := beside_of_dirs_eq rfl rfl rfl rfl rfl rfl rfl rfl
  exact (hphys.trans (beside_mapPageAt hmap)).trans (beside_zeroFrame _)

lemma beside_mapNewPages {base : Word} {n : ℕ}
    (h : s.mapNewPages d base n flags = some s') : Beside s s' := by
  unfold mapNewPages at h
  generalize range n = is at h
  induction is generalizing s with
  | nil =>
    rw [← some.inj h]
    exact .refl s
  | cons i is ih =>
    rw [foldlM_cons, bind_eq_bind, bind_eq_some_iff] at h
    obtain ⟨s1, hround, hrest⟩ := h
    exact (beside_mapNewPageAt hround).trans (ih hrest)

variable {id : ℕ} {mapping : ShmMapping}

lemma mappings_shmCloseMap
    (hid : s.mappings.lookup id = some mapping) (h : s.shmCloseMap id = some s') :
    s'.mappings = s.mappings.erase id ∧ s'.spaces = s.spaces := by
  rw [shmCloseMap, hid] at h
  obtain ⟨s1, hmap, rfl⟩ := map_eq_some_iff.mp h
  have hbeside := beside_mapNewPages hmap
  exact ⟨congrArg (OrderedMap.erase id) hbeside.mappings_eq, hbeside.spaces_eq⟩

/-! ## Closing a space -/

/-- After `shm_close` the mappings of the space are gone and all others are as they were, and it
does nothing for a space that does not exist. -/
def ClosesSpace (s : State) (id : ℕ) : Prop :=
  (s.spaces.lookup id = none → s.shmClose id = some s) ∧
    (s.spaces.lookup id ≠ none → ∀ s', s.shmClose id = some s' →
      s'.mappings.entries = s.mappings.entries.filter fun e => e.2.space ≠ id)

/-- The first mapping of a space is closed. -/
lemma entries_shmClose_of_firstMapping {space : ShmSpace}
    (hspace : s.spaces.lookup id = some space) {l : List (ℕ × ShmMapping)} {e : ℕ × ShmMapping}
    {r : List (ℕ × ShmMapping)} (hentries : s.mappings.entries = l ++ e :: r)
    (hfirst : s.firstMapping id = some e.1) {s1 : State} (hclosed : s.shmCloseMap e.1 = some s1) :
    ∃ s', s.shmClose id = some s' ∧ s'.mappings.entries = l ++ r := by
  have hlookup : s.mappings.lookup e.1 = some e.2 := OrderedMap.lookup_of_mem (by simp [hentries])
  obtain ⟨hmappings, hspaces⟩ := mappings_shmCloseMap hlookup hclosed
  have hunique := s.mappings.unique
  rw [hentries, map_append, map_cons, nodup_append] at hunique
  have hl : ∀ x ∈ l, x.1 ≠ e.1 := fun x hx => hunique.2.2 _ (mem_map_of_mem hx) _ (by simp)
  have herase : s1.mappings.entries = l ++ r := by
    rw [hmappings]
    change OrderedMap.eraseEntry e.1 s.mappings.entries = l ++ r
    rw [hentries, OrderedMap.eraseEntry_append hl]
    simp [OrderedMap.eraseEntry]
  refine ⟨{ s1 with
    phys := (space.pages.entries.map Prod.snd).foldl Physical.free s1.phys
    spaces := s1.spaces.erase id }, ?_, herase⟩
  simp only [shmClose, hspace, hfirst, hclosed, bind_some, hspaces]

/-- A space is closed as it should be exactly if it exists and has at most one mapping, or memory
runs out while its first mapping is closed. -/
theorem closesSpace_iff (s : State) (id : ℕ) : s.ClosesSpace id ↔ s.spaces.lookup id ≠ none ∧
    ((s.mappings.entries.filter fun e => e.2.space = id).length ≤ 1 ∨
      ∃ m, s.firstMapping id = some m ∧ s.shmCloseMap m = none) := by
  cases hspace : s.spaces.lookup id with
  | none => simp [ClosesSpace, hspace, shmClose]
  | some space =>
    simp only [ClosesSpace, hspace, reduceCtorEq, false_implies, true_and, ne_eq, not_false_eq_true,
      true_implies]
    cases hfind : s.mappings.entries.find? fun e => e.2.space = id with
    | none =>
      -- there is nothing to close
      have hfirst : s.firstMapping id = none := by simp [firstMapping, hfind]
      have hother : ∀ e ∈ s.mappings.entries, e.2.space ≠ id := by simpa using hfind
      have hshm : s.shmClose id = some { s with
          phys := (space.pages.entries.map Prod.snd).foldl Physical.free s.phys
          spaces := s.spaces.erase id } := by
        simp only [shmClose, hspace, hfirst, bind_some]
      have hnone : (s.mappings.entries.filter fun e => e.2.space = id) = [] := by simpa using hother
      have hall : (s.mappings.entries.filter fun e => e.2.space ≠ id) = s.mappings.entries := by
        simpa using hother
      rw [hshm, hnone, hall]
      simp
    | some e =>
      obtain ⟨he, l, r, hentries, hl⟩ := find?_eq_some_iff_append.mp hfind
      have hfirst : s.firstMapping id = some e.1 := by simp [firstMapping, hfind]
      have hid : e.2.space = id := by simpa using he
      have hother : ∀ x ∈ l, x.2.space ≠ id := by simpa using hl
      cases hclosed : s.shmCloseMap e.1 with
      | none => simp [shmClose, hspace, hfirst, hclosed]
      | some s₁ =>
        obtain ⟨s', hshm, hleft⟩ := entries_shmClose_of_firstMapping hspace hentries hfirst hclosed
        have hnone : (l.filter fun x => x.2.space = id) = [] := by simpa using hother
        have hall : (l.filter fun x => x.2.space ≠ id) = l := by simpa using hother
        rw [hshm, hentries, filter_append, filter_append, hnone, hall]
        simp [hid, hleft, hfirst, hclosed, eq_comm (a := r)]

/-- Two mappings of a space, at different addresses of one process. -/
def mappedTwice : Option State := do
  let (id, s) := (booted [0]).shmCreate 0
  let (_, s) ← s.shmMap id 0x50000000#32 0 1 0
  let (_, s) ← s.shmMap id 0x50001000#32 0 1 0
  some s

/-- The second mapping is left behind. -/
theorem not_closesSpace_mappedTwice : ∃ s, mappedTwice = some s ∧ ¬ s.ClosesSpace 1 := by
  have hrun : mappedTwice.any (fun s => (s.spaces.lookup 1).isSome && (s.shmClose 1).any fun s' =>
      s'.mappings.entries ≠ s.mappings.entries.filter fun e => e.2.space ≠ 1) = true := by
    decide +kernel
  rw [Option.any_eq_true] at hrun
  obtain ⟨s, hs, htest⟩ := hrun
  rw [Bool.and_eq_true, Option.any_eq_true] at htest
  obtain ⟨hspace, s', hs', hne⟩ := htest
  refine ⟨s, hs, fun h => of_decide_eq_true hne (h.2 ?_ s' hs')⟩
  exact isSome_iff_ne_none.mp hspace

/-! ## Closing a mapping -/

/-- Closing the mapping `id` of the page directory `a` leaves every other process its regions and
user pages, and takes the region of the mapping away. The kernel's pages are the same in all page
directories; `shm_close_map` makes no difference between processes there. -/
def ClosesMapping (s s' : State) (a id : ℕ) : Prop :=
  (∀ d ∈ s.live, d ≠ a → (s'.dirs d).regions = (s.dirs d).regions ∧
    ∀ p, ¬ p < kernelPages → s'.view d p = s.view d p) ∧
    ∀ r ∈ (s'.dirs a).regions, r.IsMapping id = false

lemma view_mapNewPages (h : WF s) {base : Word} {n : ℕ} {c : ℕ}
    (hc : s.current = c) (hs : s.mapNewPages c base n flags = some s') (hd : d ∈ s.live)
    (hne : d ≠ c) {p : ℕ} (hp : ¬ p < kernelPages) : s'.view d p = s.view d p := by
  unfold mapNewPages at hs
  generalize range n = is at hs
  induction is generalizing s with
  | nil => rw [← some.inj hs]
  | cons i is ih =>
    rw [foldlM_cons, bind_eq_bind, bind_eq_some_iff] at hs
    obtain ⟨s1, hround, hrest⟩ := hs
    subst hc
    obtain ⟨f, -, -, -, -, hset⟩ := mapNewPageAt_entrySet h hround
    rw [ih hset.wf hset.current_eq (hset.live_eq ▸ hd) hrest]
    by_cases heq : p = pageOf (pageAddr base i)
    · subst heq
      have hwindow := h.window_lt
      exact hset.view_of_ge (by omega) hp hd hne
    · exact hset.view_other d hd p heq

lemma regions_removeRegion (s : State) (d d' : ℕ) (addr : Word) :
    ((s.removeRegion d addr).dirs d').regions =
      if d' = d then (s.dirs d).regions.eraseP fun r => r.addr = addr else (s.dirs d').regions := by
  unfold removeRegion modifyDir
  split_ifs with h
  · subst h
    simp
  · simp [h]

lemma regions_shmCloseMap
    (hid : s.mappings.lookup id = some mapping) (h : s.shmCloseMap id = some s') (d : ℕ) :
    (s'.dirs d).regions = if d = s.current then
      (s.dirs d).regions.eraseP fun r => r.addr = mapping.addr else (s.dirs d).regions := by
  rw [shmCloseMap, hid] at h
  obtain ⟨s1, hmap, rfl⟩ := map_eq_some_iff.mp h
  refine ((beside_mapNewPages hmap).regions_eq d).trans ?_
  rw [regions_removeRegion]
  split_ifs with hd
  · rw [hd]
  · rfl

lemma view_shmCloseMap (hwf : WF s) (h : s.shmCloseMap id = some s')
    (hd : d ∈ s.live) (hne : d ≠ s.current) {p : ℕ} (hp : ¬ p < kernelPages) :
    s'.view d p = s.view d p := by
  unfold shmCloseMap at h
  split at h
  · rw [← some.inj h]
  · rename_i mapping _
    obtain ⟨s1, hmap, rfl⟩ := map_eq_some_iff.mp h
    have hwf' : WF (s.removeRegion s.current mapping.addr) :=
      hwf.modifyDir (fun _ => rfl) (hwf.ulowfree_ge s.current)
    refine (view_mapNewPages hwf' rfl hmap hd hne hp).trans ?_
    refine view_congr rfl (dir_modifyDir ?_ _ d _) fun _ _ => rfl
    exact fun _ => rfl

lemma eraseP_of_find? {α : Type*} {p : α → Bool} {l : List α} {x : α} (h : l.find? p = some x) :
    ∃ left right, l = left ++ x :: right ∧ l.eraseP p = left ++ right := by
  obtain ⟨hx, left, right, rfl, hleft⟩ := find?_eq_some_iff_append.mp h
  refine ⟨left, right, rfl, ?_⟩
  rw [eraseP_append_right _ (by simpa using hleft), eraseP_cons_of_pos hx]

/-- A mapping is closed as it should be exactly if the page directory that made it is the current
one and the mapping's region is the first one there with its address. -/
theorem closesMapping_iff (hwf : WF s) {a id : ℕ} {mapping : ShmMapping} {own : Region}
    (hid : s.mappings.lookup id = some mapping) (haddr : own.addr = mapping.addr)
    (hown : (s.dirs a).regions.filter (·.IsMapping id) = [own]) (h : s.shmCloseMap id = some s') :
    ClosesMapping s s' a id ↔ s.current = a ∧
      (s.dirs a).regions.find? (fun r => r.addr = mapping.addr) = some own := by
  have hmem : own ∈ (s.dirs a).regions.filter (·.IsMapping id) := by simp [hown]
  rw [mem_filter] at hmem
  constructor
  · rintro ⟨-, hgone⟩
    rw [regions_shmCloseMap hid h] at hgone
    by_cases ha : a = s.current
    swap
    · -- the regions of another directory are not touched
      rw [if_neg ha] at hgone
      exact absurd hmem.2 (by simp [hgone own hmem.1])
    refine ⟨ha.symm, ?_⟩
    rw [if_pos ha] at hgone
    have hsome : ((s.dirs a).regions.find? fun r => r.addr = mapping.addr).isSome := by
      simpa using ⟨own, hmem.1, haddr⟩
    obtain ⟨r, hr⟩ := isSome_iff_exists.mp hsome
    obtain ⟨left, right, hsplit, herase⟩ := eraseP_of_find? hr
    rw [herase] at hgone
    have hnot : own ∉ left ++ right := fun hin => by simp [hgone own hin] at hmem
    have hin := hmem.1
    simp only [hsplit, mem_append, mem_cons] at hin hnot
    have heq : own = r := by tauto
    rw [hr, heq]
  · rintro ⟨rfl, hfind⟩
    obtain ⟨left, right, hsplit, herase⟩ := eraseP_of_find? hfind
    refine ⟨fun d hd hne => ⟨?_, fun p hp => view_shmCloseMap hwf h hd hne hp⟩, ?_⟩
    · rw [regions_shmCloseMap hid h, if_neg hne]
    · rw [regions_shmCloseMap hid h, if_pos rfl, herase]
      rw [hsplit, filter_append, filter_cons_of_pos hmem.2] at hown
      -- the mapping has no other region
      have hnil : left.filter (·.IsMapping id) = [] ∧ right.filter (·.IsMapping id) = [] := by
        rw [append_eq_singleton_iff] at hown
        rcases hown with ⟨hl, hr⟩ | ⟨-, hr⟩
        · exact ⟨hl, (cons.inj hr).2⟩
        · cases hr
      simp only [filter_eq_nil_iff, Bool.not_eq_true] at hnil
      intro r hr
      exact (mem_append.mp hr).elim (hnil.1 r) (hnil.2 r)

lemma WF.withShm (h : WF s) (spaces : OrderedMap ℕ ShmSpace)
    (mappings : OrderedMap ℕ ShmMapping) : WF { s with spaces := spaces, mappings := mappings } :=
  { h with }

/-- Two processes, the first of which has mapped a page of a space. -/
def mappedByFirst : State :=
  { booted [0, 1] with
    spaces := OrderedMap.empty.put 1 { pages := OrderedMap.empty, flags := 0, owner := 0 }
    mappings := OrderedMap.empty.put 1
      { space := 1, addr := 0x50000000#32, offset := 0, pages := 1, flags := 0 } }.addRegion 0
    { addr := 0x50000000#32, size := 0x1000#32, id := 1, pfHandle := .shm }

lemma mappedByFirst_wf : WF mappedByFirst := by
  have hbooted : WF (booted [0, 1]) := booted_wf (by decide)
  unfold mappedByFirst addRegion
  apply (hbooted.withShm _ _).modifyDir
  · exact fun _ => rfl
  · exact fun _ => le_rfl

theorem closesMapping_mappedByFirst :
    ∃ s', mappedByFirst.shmCloseMap 1 = some s' ∧ ClosesMapping mappedByFirst s' 0 1 := by
  have hrun : (mappedByFirst.shmCloseMap 1).isSome = true := by decide +kernel
  obtain ⟨s', hs'⟩ := isSome_iff_exists.mp hrun
  exact ⟨s', hs', (closesMapping_iff mappedByFirst_wf rfl rfl rfl hs').mpr ⟨rfl, rfl⟩⟩

/-- The second process closes the mapping of the first one, whose region stays. -/
theorem not_closesMapping_mappedByFirst :
    ∃ s', ({ mappedByFirst with current := 1 } : State).shmCloseMap 1 = some s' ∧
      ¬ ClosesMapping { mappedByFirst with current := 1 } s' 0 1 := by
  have hrun : (({ mappedByFirst with current := 1 } : State).shmCloseMap 1).any
      (fun s' => (s'.dirs 0).regions.any (·.IsMapping 1)) = true := by decide +kernel
  rw [Option.any_eq_true] at hrun
  obtain ⟨s', hs', hleft⟩ := hrun
  obtain ⟨r, hr, hmapping⟩ := any_eq_true.mp hleft
  refine ⟨s', hs', fun h => ?_⟩
  rw [h.2 r hr] at hmapping
  cases hmapping

end State

/-! ## Page faults -/

/-- `bt_shm_flags::ReadOnly` -/
def readOnly : Word := 0x1#32

/-- A page fault that `shm_pf_handler` has handled. -/
structure Fault where
  before : State
  wf : before.WF
  /-- The mapping. -/
  id : ℕ
  addr : Word
  after : State
  handled : before.shmPfHandler id addr = some after

namespace Fault

/-- The process must not write to the page: the mapping was asked for with the flags
`requested id`, of which `shm_map` makes no use. -/
def IsReadOnly (requested : ℕ → Word) (f : Fault) : Prop :=
  requested f.id &&& readOnly ≠ 0 ∨ ∃ mapping space, f.before.mappings.lookup f.id = some mapping ∧
    f.before.spaces.lookup mapping.space = some space ∧ space.flags &&& readOnly ≠ 0 ∧
      space.owner ≠ f.before.currentPid

/-- The entry of the page table that the handler has written. -/
def entry (f : Fault) : Word := f.after.stored f.before.current (pageOf f.addr)

lemma wf_spacePage {s s' : State} (h : s.WF) {id : ℕ} {space : ShmSpace} {a : Word}
    {page : PageRef} (hs : s.spacePage id space a = some (page, s')) :
    s'.WF ∧ s'.current = s.current := by
  unfold State.spacePage at hs
  split at hs
  · cases hs
    exact ⟨h, rfl⟩
  · obtain ⟨⟨r, phys⟩, halloc, heq⟩ := map_eq_some_iff.mp hs
    cases heq
    have ha := Physical.alloc_spec h.distinct h.zero_used halloc
    have hphys : State.WF { s with phys := phys } :=
      (State.still_phys ha.accounted ha.addresses).wf h ha.distinct fun b hb =>
        ((ha.isFree b).mp hb).1
    exact ⟨hphys.withShm _ s.mappings, rfl⟩

lemma entry_writable (f : Fault) : f.entry &&& writable ≠ 0 := by
  have hs := f.handled
  unfold State.shmPfHandler at hs
  split at hs
  · cases hs
  split at hs
  · cases hs
  rw [bind_eq_some_iff] at hs
  obtain ⟨⟨page, s1⟩, hpage, hmap⟩ := hs
  obtain ⟨hwf, hcurrent⟩ := wf_spacePage f.wf hpage
  have hset := State.mapPageAt_entrySet hwf hmap
  rw [State.pageOf_mask] at hset
  rw [entry, ← hcurrent, hset.stored_self]
  intro hzero
  have hbit := congrArg (fun w : Word => w.getLsbD 1) hzero
  simp [State.userFlags, present, writable, usermode] at hbit

/-- Pages that must not be written to are mapped so that they cannot be, exactly if there are no
faults on such pages. -/
theorem readOnly_kept_iff (requested : ℕ → Word) (faults : List Fault) :
    (∀ f ∈ faults, f.IsReadOnly requested → f.entry &&& writable = 0) ↔
      ∀ f ∈ faults, ¬ f.IsReadOnly requested :=
  forall₂_congr fun f _ => imp_congr_right fun _ => iff_false_intro f.entry_writable

/-- A page of a mapping that was made with `ReadOnly` can be written to. -/
theorem exists_writable_readOnly :
    ∃ f : Fault, f.IsReadOnly (fun _ => readOnly) ∧ f.entry &&& writable ≠ 0 := by
  have hrun : (State.mappedByFirst.shmPfHandler 1 0x50000000#32).isSome = true := by
    decide +kernel
  obtain ⟨s', hs'⟩ := isSome_iff_exists.mp hrun
  have hflags : readOnly &&& readOnly ≠ 0 := by decide
  exact ⟨⟨_, State.mappedByFirst_wf, 1, _, s', hs'⟩, .inl hflags, entry_writable _⟩

end Fault

end Memory
