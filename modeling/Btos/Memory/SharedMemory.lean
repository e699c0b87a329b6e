import Btos.Memory.Directories

/-!
# Shared memory and ownership

The operations of `shm.cpp` and page faults keep the frames owned:

* `Inv.shmCreate`, `Inv.shmMap`, `Inv.shmCloseMap`: spaces and mappings,
* `Inv.pageFault`: a page of a space is mapped where it is touched,
* `Inv.shmClose`: the pages of a space are freed, which is right when nothing maps them any more.
-/

open List Option

namespace Memory

namespace State

open Ownership

variable {s s' : State} {d n p q t id : ℕ} {e f addr : Word} {R : ℕ → Prop}

/-! ## Mapping a given page -/

/-- The frame may be mapped: it is in use, it is no page table, and if it is a page of the array it
is shared memory or is not mapped. -/
structure MapSafe (s : State) (f : Word) : Prop where
  ne_zero : f ≠ 0
  used : ¬ s.phys.IsFree f
  not_table : ¬ s.IsTable f
  mapped : ∀ d q, s.Refers (.page d q) f → s.InSpace f ∨ ¬ s.phys.Accounted f

lemma Core.mapSafe_of_inSpace (h : Core s) (hf : s.InSpace f) : s.MapSafe f := by
  refine ⟨?_, ?_, h.space_not_table hf, fun _ _ _ => .inl hf⟩
  · obtain ⟨id, hid⟩ := hf
    exact h.space_ne_zero hid
  · obtain ⟨id, hid⟩ := hf
    exact h.used (a := .space id) hid

lemma aligned_address (ph : Physical) (r : PageRef) : Aligned (ph.address r) := by
  unfold Physical.address
  cases ph.page r with
  | none => exact aligned_frame 0
  | some pg => exact pg.aligned_address

lemma Inv.mapPageAt (h : Inv s) {page : PageRef} {flags : PageFlags}
    (hsafe : s.MapSafe (s.phys.address page)) (hp : pageOf addr ≠ s.windowPage)
    (hs : s.mapPageAt s.current addr page flags = some s') : Inv s' := by
  have hset := mapPageAt_entrySet h.wf hs
  have hframe : frame (s.phys.address page ||| flags.bits) = s.phys.address page :=
    frame_or (aligned_address _ _) flags.low
  refine h.entrySet hset (fun _ => ?_) fun heq => absurd heq hp
  rw [hframe]
  refine ⟨hsafe.ne_zero, fun hfree => hsafe.used (hset.isFree _ hfree), fun htable => ?_,
    hsafe.mapped⟩
  obtain ⟨d, t, href⟩ := isTable_iff.mp htable
  rcases hset.toPageSet.refers href with hold | ⟨_, heq, -⟩ | ⟨-, h0, heq⟩
  · exact hsafe.not_table (isTable_iff.mpr ⟨d, t, hold⟩)
  · exact Slot.noConfusion heq
  · exact hsafe.used (heq ▸ hset.new_table h0)

/-! ## Spaces -/

/-- The page tables are the same, and so are the pages of the spaces. -/
lemma Inv.of_eq (h : Inv s) (hphys : s'.phys = s.phys) (hframes : s'.frames = s.frames)
    (hdirs : s'.dirs = s.dirs) (hlive : s'.live = s.live) (hcurrent : s'.current = s.current)
    (hkernel : s'.kernel = s.kernel) (hwindow : s'.windowPage = s.windowPage)
    (hspaces : ∀ id f, s'.SpaceHas id f ↔ s.SpaceHas id f)
    (hram : ∀ id space a r, s'.spaces.lookup id = some space → space.pages.lookup a = some r →
      ∃ i, r = PageRef.ram i) : Inv s' := by
  obtain ⟨phys, frames, dirs, live, current, kernel, windowPage⟩ := s
  dsimp only at hphys hframes hdirs hlive hcurrent hkernel hwindow
  subst hphys hframes hdirs hlive hcurrent hkernel hwindow
  obtain ⟨⟨hwf, howned, -⟩, hwin, hcaches⟩ := h
  have hin : ∀ f, InSpace _ f ↔ InSpace _ f := fun f => exists_congr fun id => hspaces id f
  refine ⟨⟨{ hwf with }, howned.release (fun a f ha => ?_) (fun _ => .inl) fun a b f _ _ => ?_,
    hram⟩, ⟨hwin.ne_zero, hwin.used, fun hspace => hwin.not_space ((hin _).mp hspace)⟩, hcaches⟩
  · cases a with
    | null => exact ha
    | page d q => exact ha
    | table d t => exact ha
    | space id => exact (hspaces id f).mp ha
  · exact mayShare_congr (fun _ _ _ => (hin f).mpr) Iff.rfl

variable {space : ShmSpace} {a : Word}

lemma lookup_shmCreate {flags : Word} {r : PageRef}
    (hspace : (s.shmCreate flags).2.spaces.lookup id = some space)
    (hpage : space.pages.lookup a = some r) : s.spaces.lookup id = some space := by
  set id0 := (s.spaceIdCounter + 1) % 2 ^ 64
  change (s.spaces.put id0 _).lookup id = some space at hspace
  by_cases hid : id = id0
  · rw [hid, OrderedMap.lookup_put_self, some.injEq] at hspace
    rw [← hspace, OrderedMap.lookup_empty] at hpage
    simp at hpage
  · rwa [OrderedMap.lookup_put_of_ne _ _ hid] at hspace

lemma spaceAt_shmCreate {flags a : Word}
    (hfresh : s.spaces.lookup ((s.spaceIdCounter + 1) % 2 ^ 64) = none) :
    (s.shmCreate flags).2.SpaceAt id a f ↔ s.SpaceAt id a f := by
  constructor
  · rintro ⟨space, i, hspace, hpage, hf⟩
    exact ⟨space, i, lookup_shmCreate hspace hpage, hpage, hf⟩
  · rintro ⟨space, i, hspace, hpage, hf⟩
    refine ⟨space, i, ?_, hpage, hf⟩
    show (s.spaces.put _ _).lookup id = some space
    rw [OrderedMap.lookup_put_of_ne]
    · exact hspace
    · rintro rfl
      rw [hfresh] at hspace
      simp at hspace

lemma Inv.shmCreate (h : Inv s) {flags : Word}
    (hfresh : s.spaces.lookup ((s.spaceIdCounter + 1) % 2 ^ 64) = none) :
    Inv (s.shmCreate flags).2 := by
  refine h.of_eq rfl rfl rfl rfl rfl rfl rfl (fun id f => ?_) fun id space a r hspace hpage => ?_
  · simp only [spaceHas_iff, spaceAt_shmCreate hfresh]
  · exact h.core.space_ram id space a r (lookup_shmCreate hspace hpage) hpage

lemma Inv.withMappings (h : Inv s) (m : OrderedMap ℕ ShmMapping) (c : ℕ) :
    Inv { s with mappings := m, mappingIdCounter := c } :=
  h.of_eq rfl rfl rfl rfl rfl rfl rfl (fun _ _ => Iff.rfl) h.core.space_ram

lemma Inv.addRegion (h : Inv s) (d : ℕ) (r : Region) : Inv (s.addRegion d r) := by
  unfold State.addRegion
  apply h.modifyDir
  · exact fun _ => ⟨rfl, rfl⟩
  · exact h.wf.ulowfree_ge d

lemma Inv.removeRegion (h : Inv s) (d : ℕ) (a : Word) : Inv (s.removeRegion d a) := by
  unfold State.removeRegion
  apply h.modifyDir
  · exact fun _ => ⟨rfl, rfl⟩
  · exact h.wf.ulowfree_ge d

lemma toNat_add_pages_le (addr pages : Word) :
    (addr + pages * BitVec.ofNat 32 pageSize).toNat ≤ addr.toNat + pages.toNat * pageSize := by
  rw [BitVec.toNat_add, BitVec.toNat_mul]
  exact (Nat.mod_le _ _).trans (Nat.add_le_add_left (Nat.mod_le _ _) _)

lemma mappingRounds_le (addr pages : Word) : mappingRounds addr pages ≤ pages.toNat := by
  have hsum := toNat_add_pages_le addr pages
  unfold mappingRounds
  simp only [pageSize] at *
  omega

/-- What a mapping adds, when the pages in its range were taken away. -/
def withMapping (s : State) (id : ℕ) (addr offset pages : Word) (ret : ℕ) : State :=
  let s := s.addRegion s.current
    { addr := addr, size := pages * BitVec.ofNat 32 pageSize, id := ret, pfHandle := .shm }
  { s with
    mappings := s.mappings.put ret
      { space := id, addr := addr, offset := offset, pages := pages, flags := 0 } }

/-- `shm_map` refuses, or it takes the pages of the range away and adds a mapping with a new id. -/
lemma Inv.shmMap_cases (h : Inv s) {offset pages flags : Word} {ret : ℕ}
    (hR : addr.toNat % pageSize = 0 → s.FreeSafe (InRange addr pages.toNat))
    (hs : s.shmMap id addr offset pages flags = some (ret, s')) :
    s' = s ∨ (addr.toNat % pageSize = 0 ∧ offset.toNat % pageSize = 0 ∧
      ret = (s.mappingIdCounter + 1) % 2 ^ 64 ∧ ∃ s2, Inv s2 ∧
        Unmapped s s2 (InRange addr pages.toNat) ∧
          s' = s2.withMapping id addr offset pages ret) := by
  unfold State.shmMap at hs
  split at hs
  · exact .inl (Prod.mk.inj (some.inj hs)).2.symm
  split at hs
  · exact .inl (Prod.mk.inj (some.inj hs)).2.symm
  split at hs
  · exact .inl (Prod.mk.inj (some.inj hs)).2.symm
  rename_i haddr hoffset
  rw [not_not] at haddr hoffset
  dsimp only at hs
  obtain ⟨s1, hfree, hs⟩ := bind_eq_some_iff.mp hs
  obtain ⟨s2, hguard, heq⟩ := map_eq_some_iff.mp hs
  obtain ⟨hret, rfl⟩ := Prod.mk.inj heq
  set s0 : State := { s with mappingIdCounter := (s.mappingIdCounter + 1) % 2 ^ 64 }
  have hcounter : Unmapped s s0 fun _ => False :=
    ⟨⟨rfl, rfl, rfl, rfl, rfl, rfl, rfl, fun _ => rfl, fun _ => rfl, fun _ h => h⟩, rfl,
      fun _ _ _ _ => rfl, fun _ hq => hq.elim⟩
  have h0 : Inv s0 := h.withMappings s.mappings _
  have hR0 : s0.FreeSafe (InRange addr pages.toNat) :=
    ⟨(hR haddr).not_window, (hR haddr).cached, (hR haddr).frames⟩
  obtain ⟨h1, hR1, hfreed⟩ := h0.freePages hR0 (fun _ hp => hp) hfree
  have hrange : ∀ p, InRange addr (mappingRounds addr pages) p → InRange addr pages.toNat p := by
    rintro p ⟨i, hi, hp⟩
    exact ⟨i, lt_of_lt_of_le hi (mappingRounds_le addr pages), hp⟩
  obtain ⟨h2, -, hguarded⟩ := h1.guardPages hR1 hrange hguard
  have hunmapped := (hcounter.trans hfreed h.wf).trans hguarded h.wf
  exact .inr ⟨haddr, hoffset, hret.symm, s2, h2, hunmapped.mono fun q hq => .inl (.inr hq),
    hret ▸ rfl⟩

lemma Inv.shmMap (h : Inv s) {offset pages flags : Word} {ret : ℕ}
    (hR : s.FreeSafe (InRange addr pages.toNat))
    (hs : s.shmMap id addr offset pages flags = some (ret, s')) : Inv s' := by
  rcases h.shmMap_cases (fun _ => hR) hs with rfl | ⟨-, -, -, s2, h2, -, rfl⟩
  · exact h
  · exact (h2.addRegion _ _).withMappings _ _

lemma Inv.shmCloseMap (h : Inv s) (hs : s.shmCloseMap id = some s') : Inv s' := by
  unfold State.shmCloseMap at hs
  split at hs
  · rwa [← some.inj hs]
  · rename_i mapping _
    dsimp only at hs
    obtain ⟨s1, hmap, rfl⟩ := map_eq_some_iff.mp hs
    have h0 := h.removeRegion s.current mapping.addr
    exact (h0.mapNewPages hmap).1.withMappings _ _

/-! ## Page faults -/

lemma frame_add_ne_zero (he : frame e ≠ 0) : frame e + (addr &&& ~~~addressMask) ≠ 0 := by
  have hmask : addressMask &&& ~~~addressMask = 0#32 := by decide
  have hand : frame e &&& (addr &&& ~~~addressMask) = 0#32 := by
    rw [frame, BitVec.and_comm addr, ← BitVec.and_assoc, BitVec.and_assoc e, hmask,
      BitVec.and_zero, BitVec.zero_and]
  rw [BitVec.add_eq_or_of_and_eq_zero _ _ hand]
  intro h0
  exact he (BitVec.or_eq_zero_iff.mp h0).1

lemma Inv.virt2phys (h : Inv s) (hd : d ∈ s.live) (hw : s.dir d s.windowTable ≠ 0) (addr : Word) :
    Inv (s.virt2phys d addr).2 ∧ Beside s (s.virt2phys d addr).2 ∧
      (pageOf addr = s.windowPage → (s.virt2phys d addr).1 ≠ 0) := by
  obtain ⟨hinv, hvalue⟩ := h.lookup hd hw (pageOf addr)
  refine ⟨hinv, (getTableEntry_looked h.wf hd hw (pageOf addr)).toBeside, fun hp => ?_⟩
  have hne := hvalue hp
  dsimp only [State.virt2phys]
  rw [if_pos hne]
  exact frame_add_ne_zero hne

/-- What `shm_pf_handler` does to a space: it has the page, and nothing else is new. -/
structure SpaceGrown (s s' : State) (id : ℕ) (a f : Word) : Prop where
  self : s'.SpaceAt id a f
  kept : ∀ id' a' f', s.SpaceAt id' a' f' → s'.SpaceAt id' a' f'
  new : ∀ id' a' f', s'.SpaceAt id' a' f' →
    s.SpaceAt id' a' f' ∨ (id' = id ∧ a' = a ∧ f' = f ∧ s.phys.IsFree f)

/-- A page of a space to which a page was added is that page, or was there before. -/
lemma page_of_put {space space' : ShmSpace} {a a' : Word} {r r' : PageRef} {id' : ℕ}
    (hspace : s.spaces.lookup id = some space)
    (hsp : (s.spaces.put id { space with pages := space.pages.put a r }).lookup id' = some space')
    (hpg : space'.pages.lookup a' = some r') :
    (id' = id ∧ a' = a ∧ r' = r) ∨
      ∃ old, s.spaces.lookup id' = some old ∧ old.pages.lookup a' = some r' := by
  by_cases hid : id' = id
  · rw [hid, OrderedMap.lookup_put_self, some.injEq] at hsp
    rw [← hsp] at hpg
    change (space.pages.put a r).lookup a' = some r' at hpg
    by_cases haa : a' = a
    · rw [haa, OrderedMap.lookup_put_self, some.injEq] at hpg
      exact .inl ⟨hid, haa, hpg.symm⟩
    · rw [OrderedMap.lookup_put_of_ne _ _ haa] at hpg
      exact .inr ⟨space, hid ▸ hspace, hpg⟩
  · rw [OrderedMap.lookup_put_of_ne _ _ hid] at hsp
    exact .inr ⟨space', hsp, hpg⟩

/-- A page in a frame that was free is added to a space. -/
lemma spaceGrown_put {phys : Physical} {i : ℕ}
    (hspace : s.spaces.lookup id = some space) (hnone : space.pages.lookup a = none)
    (ha : Physical.Allocated s.phys phys (.ram i)) :
    SpaceGrown s { s with
      phys := phys
      spaces := s.spaces.put id { space with pages := space.pages.put a (.ram i) } }
      id a (phys.address (.ram i)) := by
  have haddr : ∀ j, phys.address (.ram j) = s.phys.address (.ram j) := address_ram ha.addresses
  refine ⟨⟨_, i, OrderedMap.lookup_put_self _ _ _, OrderedMap.lookup_put_self _ _ _, rfl⟩, ?_, ?_⟩
  · rintro id' a' f' ⟨space', j, hsp, hpg, rfl⟩
    by_cases hid : id' = id
    · subst hid
      rw [hspace, some.injEq] at hsp
      subst hsp
      refine ⟨_, j, OrderedMap.lookup_put_self _ _ _, ?_, haddr j⟩
      rw [OrderedMap.lookup_put_of_ne]
      · exact hpg
      · rintro rfl
        rw [hnone] at hpg
        simp at hpg
    · refine ⟨space', j, ?_, hpg, haddr j⟩
      rw [OrderedMap.lookup_put_of_ne _ _ hid]
      exact hsp
  · rintro id' a' f' ⟨space', j, hsp, hpg, rfl⟩
    rcases page_of_put hspace hsp hpg with ⟨hid, haa, hr⟩ | ⟨old, hold, hpg⟩
    · exact .inr ⟨hid, haa, by rw [hr], ha.was_free⟩
    · exact .inl ⟨old, j, hold, hpg, (haddr j).symm⟩

lemma SpaceGrown.spaceHas_or {a f f' : Word} {id' : ℕ} (h : SpaceGrown s s' id a f)
    (hhas : s'.SpaceHas id' f') : s.SpaceHas id' f' ∨ (id' = id ∧ f' = f) := by
  obtain ⟨a', hat⟩ := spaceHas_iff.mp hhas
  rcases h.new id' a' f' hat with hold | ⟨hid, -, hff, -⟩
  · exact .inl (spaceHas_iff.mpr ⟨a', hold⟩)
  · exact .inr ⟨hid, hff⟩

lemma SpaceGrown.spaceHas {a f f' : Word} {id' : ℕ} (h : SpaceGrown s s' id a f)
    (hhas : s.SpaceHas id' f') : s'.SpaceHas id' f' := by
  obtain ⟨a', hat⟩ := spaceHas_iff.mp hhas
  exact spaceHas_iff.mpr ⟨a', h.kept id' a' f' hat⟩

/-- A page for an address in a space; a new one is in a frame that was free. -/
lemma Inv.spacePage (h : Inv s) (hspace : s.spaces.lookup id = some space)
    {page : PageRef} (hs : s.spacePage id space a = some (page, s')) :
    Inv s' ∧ SpaceGrown s s' id a (s'.phys.address page) ∧
      s' = { s with phys := s'.phys, spaces := s'.spaces } := by
  unfold State.spacePage at hs
  split at hs
  · rename_i page0 hpage
    obtain ⟨rfl, rfl⟩ := Prod.mk.inj (some.inj hs)
    obtain ⟨i, rfl⟩ := h.core.space_ram id space a page0 hspace hpage
    exact ⟨h, ⟨⟨space, i, hspace, hpage, rfl⟩, fun _ _ _ hat => hat, fun _ _ _ => .inl⟩, rfl⟩
  · rename_i hnone
    obtain ⟨⟨r, phys⟩, halloc, heq⟩ := map_eq_some_iff.mp hs
    cases heq
    have ha := Physical.alloc_spec h.wf.distinct h.wf.zero_used halloc
    obtain ⟨i, rfl, -⟩ := ha.index
    have hgrown := spaceGrown_put hspace hnone ha
    set f := phys.address (.ram i) with hf
    set s' : State := { s with
      phys := phys
      spaces := s.spaces.put id { space with pages := space.pages.put a (.ram i) } } with hs'
    have hfree : ∀ b, phys.IsFree b → s.phys.IsFree b := fun b hb => ((ha.isFree b).mp hb).1
    have hwf1 : WF { s with phys := phys } :=
      (still_phys ha.accounted ha.addresses).wf h.wf ha.distinct hfree
    -- the new frame was free, so that nothing else refers to it
    have hunused : ∀ a, ¬ s.Refers a f := fun a href => h.core.used href ha.was_free
    have howned : Owned s'.MayShare s'.refs := by
      refine @Owned.step _ _ _ _ _ _ h.core.owned (fun a f' => a = .space id ∧ f' = f)
        (fun a f' href => ?_) (fun f' hf' => .inl ⟨hfree f' hf', ?_⟩) (fun a b f' _ _ => ?_) ?_ ?_
      · cases a with
        | null => exact .inl href
        | page d q => exact .inl href
        | table d t => exact .inl href
        | space id' =>
          refine (hgrown.spaceHas_or href).imp_right ?_
          rintro ⟨rfl, hff⟩
          exact ⟨rfl, hff⟩
      · rintro a ⟨-, rfl⟩
        exact ((ha.isFree f).mp hf').2 rfl
      · refine mayShare_congr (fun _ _ _ hhas => ?_) (ha.accounted f')
        obtain ⟨id', hid'⟩ := hhas
        exact ⟨id', hgrown.spaceHas hid'⟩
      · rintro a b f' ⟨-, rfl⟩ hb
        exact absurd hb (hunused b)
      · rintro a b f' ⟨rfl, -⟩ ⟨rfl, -⟩
        exact .inl rfl
    refine ⟨⟨⟨{ hwf1 with }, howned, ?_⟩, ?_, h.caches⟩, hgrown, rfl⟩
    · intro id' space' a' r' hsp hpg
      rcases page_of_put hspace hsp hpg with ⟨-, -, hr⟩ | ⟨old, hold, hpg⟩
      · exact ⟨i, hr⟩
      · exact h.core.space_ram id' old a' r' hold hpg
    · refine ⟨h.window.ne_zero, fun hfw => h.window.used (hfree _ hfw), ?_⟩
      rintro ⟨id', hid'⟩
      rcases hgrown.spaceHas_or hid' with hold | ⟨-, hff⟩
      · exact h.window.not_space ⟨id', hold⟩
      · exact h.window.used (hff ▸ ha.was_free)

lemma Inv.shmPfHandler (h : Inv s) (hp : pageOf addr ≠ s.windowPage)
    (hs : s.shmPfHandler id addr = some s') : Inv s' := by
  unfold State.shmPfHandler at hs
  split at hs
  · simp at hs
  rename_i mapping _
  split at hs
  · simp at hs
  rename_i space hspace
  obtain ⟨⟨page, s1⟩, hpage, hs⟩ := bind_eq_some_iff.mp hs
  obtain ⟨h1, hgrown, hsame⟩ := h.spacePage hspace hpage
  have hin : s1.InSpace (s1.phys.address page) := ⟨_, spaceHas_iff.mpr ⟨_, hgrown.self⟩⟩
  refine h1.mapPageAt (h1.core.mapSafe_of_inSpace hin) ?_ hs
  rw [pageOf_mask, hsame]
  exact hp

lemma Inv.mmapRead (h : Inv s) (hs : s.mmapRead id addr = some s') : Inv s' := by
  unfold State.mmapRead at hs
  split at hs
  · simp at hs
  · split at hs
    · simp at hs
    · exact (h.mapNewPageAt hs).1

/-- A fault is handled only if the page has no frame and the address is in a region. -/
lemma handlePf_cases {b : Bool} (hs : s.handlePf d addr = some (b, s')) :
    b = false ∧ s' = (s.virt2phys d addr).2 ∨
      b = true ∧ (s.virt2phys d addr).1 = 0 ∧
        ∃ r, ((s.virt2phys d addr).2.dirs d).regions.find? (inRegion addr) = some r ∧
          (s.virt2phys d addr).2.pfHandle r addr = some s' := by
  unfold State.handlePf at hs
  dsimp only at hs
  split at hs
  · exact .inl (Prod.mk.inj (some.inj hs.symm))
  · rename_i hphys
    split at hs
    · exact .inl (Prod.mk.inj (some.inj hs.symm))
    · rename_i r hfind
      obtain ⟨s2, hhandle, heq⟩ := map_eq_some_iff.mp hs
      cases heq
      exact .inr ⟨rfl, not_not.mp hphys, r, hfind, hhandle⟩

/-- A fault that is not handled only looks entries up. -/
lemma Inv.handlePf (h : Inv s) (hd : d ∈ s.live) (hw : s.dir d s.windowTable ≠ 0) {b : Bool}
    (hs : s.handlePf d addr = some (b, s')) : Inv s' ∧ (b = false → Beside s s') := by
  obtain ⟨h1, hbeside1, hwindow⟩ := h.virt2phys hd hw addr
  obtain ⟨-, rfl⟩ | ⟨rfl, hphys, r, -, hhandle⟩ := handlePf_cases hs
  · exact ⟨h1, fun _ => hbeside1⟩
  · refine ⟨?_, fun htrue => Bool.noConfusion htrue⟩
    have hp : pageOf addr ≠ (s.virt2phys d addr).2.windowPage := by
      rw [hbeside1.windowPage_eq]
      exact fun hpw => hwindow hpw hphys
    unfold pfHandle at hhandle
    split at hhandle
    · exact h1.shmPfHandler hp hhandle
    · exact h1.mmapRead hhandle

lemma Inv.pageFault (h : Inv s) (hs : s.pageFault addr = some s') : Inv s' := by
  unfold State.pageFault at hs
  obtain ⟨h1, hbeside1, -⟩ := h.virt2phys h.wf.current_mem h.wf.window_current addr
  dsimp only at hs
  set s1 := (s.virt2phys s.current addr).2
  obtain ⟨⟨b, s2⟩, hhandle, hs⟩ := bind_eq_some_iff.mp hs
  obtain ⟨h2, hbeside2⟩ := h1.handlePf h1.wf.current_mem h1.wf.window_current hhandle
  dsimp only at hs
  split at hs
  · rwa [← some.inj hs]
  · obtain ⟨⟨b', s3⟩, hkernel, rfl⟩ := map_eq_some_iff.mp hs
    exact (h2.handlePf h2.wf.kernel_mem h2.wf.window_kernel hkernel).1

/-! ## Closing a space -/

/-- The pages of the space are mapped by nothing but the current directory, or a kernel page, in the
range of the first mapping of the space. -/
def CloseSafe (s : State) (id : ℕ) : Prop :=
  ∀ d q f, s.Refers (.page d q) f → s.SpaceHas id f → (d = s.current ∨ q < kernelPages) ∧
    ∃ m mapping, s.firstMapping id = some m ∧ s.mappings.lookup m = some mapping ∧
      InRange mapping.addr (mappingRounds mapping.addr mapping.pages) q

/-- After new pages were mapped over the range, the pages of the space are not mapped any more. -/
lemma Inv.mapNewPages_over (h : Inv s) {flags : PageFlags}
    (hrefs : ∀ d q f, s.Refers (.page d q) f → s.SpaceHas id f →
      (d = s.current ∨ q < kernelPages) ∧ InRange addr n q)
    (hs : s.mapNewPages s.current addr n flags = some s') :
    ∀ d q f, s'.Refers (.page d q) f → ¬ s'.SpaceHas id f := by
  -- The pages of the space that are still mapped are in the rest of the range.
  have hend := Loop.foldlM_invariant (P := fun l s1 => Inv s1 ∧ s1.current = s.current ∧
    ∀ d q f, s1.Refers (.page d q) f → s1.SpaceHas id f →
      (d = s1.current ∨ q < kernelPages) ∧ ∃ i ∈ l, q = pageOf (pageAddr addr i)) ?_
    ⟨h, rfl, fun d q f href hspace => ?_⟩ hs
  · intro d q f href hspace
    obtain ⟨-, i, hi, -⟩ := hend.2.2 d q f href hspace
    exact not_mem_nil hi
  · rintro i l s1 s2 ⟨h1, hcur, hmapped⟩ hstep
    rw [← hcur] at hstep
    obtain ⟨h2, g, hwas, haligned, hset⟩ := h1.mapNewPageAt hstep
    refine ⟨h2, hset.current_eq.trans hcur, fun d q f href hspace => ?_⟩
    rw [spaceHas_congr hset.spaces_eq hset.addresses] at hspace
    have hfg : f ≠ g := by
      rintro rfl
      exact h1.core.used (a := .space id) hspace hwas
    have hframe : frame (g ||| flags.bits) = g := frame_or haligned flags.low
    rcases hset.toPageSet.refers href with hold | ⟨d', -, -, hf, -⟩ | ⟨heq, -⟩
    · obtain ⟨hown, j, hj, hq⟩ := hmapped d q f hold hspace
      rw [hset.current_eq]
      refine ⟨hown, ?_⟩
      rcases mem_cons.mp hj with rfl | hj
      · -- The page was overwritten in this round.
        exfalso
        obtain ⟨hd, hpresent, hf⟩ := href
        have hw : pageOf (pageAddr addr j) ≠ s1.windowPage := by
          intro heq
          rw [view, hset.windowPage_eq, hq, if_pos heq, isPresent_zero] at hpresent
          cases hpresent
        rw [hq] at hpresent hf hown
        rcases hset.toPageSet.view_owner hw (hset.live_eq ▸ hd) hown with heq | heq
        · rw [heq, hframe] at hf
          exact hfg hf.symm
        · rw [heq, isPresent_zero] at hpresent
          cases hpresent
      · exact ⟨j, hj, hq⟩
    · exact absurd (hf.trans hframe) hfg
    · exact Slot.noConfusion heq
  · obtain ⟨hown, i, hi, hq⟩ := hrefs d q f href hspace
    exact ⟨hown, i, mem_range.mpr hi, hq⟩

/-- `physical_free` of a list of pages. -/
lemma freed_foldl (ph : Physical) (l : List PageRef) :
    (ph.Distinct → (l.foldl Physical.free ph).Distinct) ∧
      (∀ b, (l.foldl Physical.free ph).IsFree b → ph.IsFree b ∨
        ∃ i, PageRef.ram i ∈ l ∧ b = ph.address (.ram i)) ∧
      (∀ b, (l.foldl Physical.free ph).Accounted b ↔ ph.Accounted b) ∧
      (l.foldl Physical.free ph).pages.map PhysPage.address = ph.pages.map PhysPage.address := by
  induction l generalizing ph with
  | nil => exact ⟨id, fun _ => .inl, fun _ => Iff.rfl, rfl⟩
  | cons r l ih =>
    obtain ⟨hdistinct, hfree, hacc, haddr⟩ := ih (ph.free r)
    obtain ⟨a, hfreed, hone⟩ : ∃ a, Physical.Freed ph (ph.free r) a ∧ ∀ b,
        (ph.free r).IsFree b → ph.IsFree b ∨ ∃ i, r = .ram i ∧ b = ph.address (.ram i) := by
      cases r with
      | io j =>
        refine ⟨0, ph.free_io_freed j 0, fun b ⟨pg, hmem, hpg⟩ => .inl ⟨pg, ?_, hpg⟩⟩
        rwa [ph.free_io_pages j] at hmem
      | ram i =>
        have hfreed : Physical.Freed ph (ph.free (.ram i)) (ph.address (.ram i)) := by
          cases hpg : ph.pages[i]? with
          | none =>
            rw [Physical.free, hpg]
            exact .refl ph _
          | some pg =>
            have haddress : ph.address (.ram i) = pg.address := by
              show ((ph.pages[i]?).map PhysPage.address).getD 0 = pg.address
              rw [hpg, map_some, getD_some]
            rw [haddress]
            exact Physical.free_freed hpg
        exact ⟨_, hfreed, fun b hb => (hfreed.isFree b hb).imp_right fun h => ⟨i, rfl, h.1⟩⟩
    rw [foldl_cons]
    refine ⟨fun hd => hdistinct (hfreed.distinct hd), fun b hb => ?_,
      fun b => (hacc b).trans (hfreed.accounted b), haddr.trans hfreed.addresses⟩
    rcases hfree b hb with hwas | ⟨i, hi, hbi⟩
    · rcases hone b hwas with hold | ⟨i, rfl, hbi⟩
      · exact .inl hold
      · exact .inr ⟨i, mem_cons_self, hbi⟩
    · rw [address_ram hfreed.addresses] at hbi
      exact .inr ⟨i, mem_cons_of_mem _ hi, hbi⟩

/-- Freeing the pages of a space that nothing maps. -/
lemma Inv.freeSpace (h : Inv s) (hspace : s.spaces.lookup id = some space)
    (hnone : ∀ d q f, s.Refers (.page d q) f → ¬ s.SpaceHas id f) :
    Inv { s with
      phys := (space.pages.entries.map Prod.snd).foldl Physical.free s.phys
      spaces := s.spaces.erase id } := by
  obtain ⟨hdistinct, hfree, hacc, haddr⟩ :=
    freed_foldl s.phys (space.pages.entries.map Prod.snd)
  set phys := (space.pages.entries.map Prod.snd).foldl Physical.free s.phys
  set s' : State := { s with phys := phys, spaces := s.spaces.erase id }
  have hlookup : ∀ id' space', s'.spaces.lookup id' = some space' →
      id' ≠ id ∧ s.spaces.lookup id' = some space' := by
    intro id' space' hsp
    change (s.spaces.erase id).lookup id' = some space' at hsp
    by_cases hid : id' = id
    · rw [hid, OrderedMap.lookup_erase_self] at hsp
      simp at hsp
    · rw [OrderedMap.lookup_erase_of_ne _ hid] at hsp
      exact ⟨hid, hsp⟩
  have hhas : ∀ id' f, s'.SpaceHas id' f ↔ id' ≠ id ∧ s.SpaceHas id' f := by
    intro id' f
    constructor
    · rintro ⟨space', a, i, hsp, hpg, rfl⟩
      obtain ⟨hid, hsp⟩ := hlookup id' space' hsp
      exact ⟨hid, space', a, i, hsp, hpg, (address_ram haddr i).symm⟩
    · rintro ⟨hid, space', a, i, hsp, hpg, rfl⟩
      refine ⟨space', a, i, ?_, hpg, address_ram haddr i⟩
      rw [OrderedMap.lookup_erase_of_ne _ hid]
      exact hsp
  -- What is freed are the pages of the space.
  have hfreed : ∀ b, phys.IsFree b → s.phys.IsFree b ∨ s.SpaceHas id b := by
    intro b hb
    refine (hfree b hb).imp_right ?_
    rintro ⟨i, hi, rfl⟩
    obtain ⟨⟨a, r⟩, hmem, hr⟩ := mem_map.mp hi
    exact ⟨space, a, i, hspace, hr ▸ OrderedMap.lookup_of_mem hmem, rfl⟩
  have hgone : ∀ b, s.SpaceHas id b → ∀ a, ¬ s'.Refers a b := by
    intro b hb a ha
    cases a with
    | null => exact h.core.space_ne_zero hb ha
    | page d q => exact hnone d q b ha hb
    | table d t => exact h.core.space_not_table ⟨id, hb⟩ (isTable_iff.mpr ⟨d, t, ha⟩)
    | space id' =>
      obtain ⟨hid, hb'⟩ := (hhas id' b).mp ha
      exact hid (h.core.space_unique hb' hb)
  have hunfreed : ∀ b a, s.Refers a b → s'.Refers a b → ¬ phys.IsFree b := by
    intro b a hold hnew hb
    rcases hfreed b hb with hwas | hin
    · exact h.core.used hold hwas
    · exact hgone b hin a hnew
  have hwf : WF s' := by
    exact { h.wf with
      tables_used := fun d hd t ht => hunfreed _ (.table d t) ⟨hd, ht, rfl⟩ ⟨hd, ht, rfl⟩
      distinct := hdistinct h.wf.distinct
      zero_used := hunfreed 0 .null rfl rfl }
  refine ⟨⟨hwf, h.core.owned.release (fun a f ha => ?_) (fun f hf => ?_) fun a b f ha _ hmay => ?_,
    ?_⟩, ⟨h.window.ne_zero, fun hfw => ?_, ?_⟩, h.caches⟩
  · cases a with
    | null => exact ha
    | page d q => exact ha
    | table d t => exact ha
    | space id' => exact ((hhas id' f).mp ha).2
  · exact (hfreed f hf).imp_right (hgone f)
  · refine mayShare_congr ?_ (hacc f) hmay
    rintro d q rfl ⟨id', hid'⟩
    refine ⟨id', (hhas id' f).mpr ⟨?_, hid'⟩⟩
    rintro rfl
    exact hnone d q f ha hid'
  · intro id' space' a r hsp hpg
    exact h.core.space_ram id' space' a r (hlookup id' space' hsp).2 hpg
  · rcases hfreed _ hfw with hwas | hin
    · exact h.window.used hwas
    · exact h.window.not_space ⟨id, hin⟩
  · rintro ⟨id', hid'⟩
    exact h.window.not_space ⟨id', ((hhas id' _).mp hid').2⟩

lemma refers_removeRegion {d d' q : ℕ} {a f : Word}
    (h : (s.removeRegion d' a).Refers (.page d q) f) : s.Refers (.page d q) f := by
  have hview : (s.removeRegion d' a).view d q = s.view d q := by
    refine view_congr rfl ?_ fun _ _ => rfl
    apply dir_modifyDir
    intro pd
    rfl
  obtain ⟨hd, hpresent, hf⟩ := h
  rw [hview] at hpresent hf
  exact ⟨hd, hpresent, hf⟩

/-- After the first mapping was closed, no page of the space is mapped any more. -/
lemma Inv.shmCloseMap_over (h : Inv s) (hsafe : s.CloseSafe id) {m : ℕ}
    (hfirst : s.firstMapping id = some m) (hclosed : s.shmCloseMap m = some s') :
    ∀ d q f, s'.Refers (.page d q) f → ¬ s'.SpaceHas id f := by
  unfold State.shmCloseMap at hclosed
  split at hclosed
  · rename_i hnone
    rw [← some.inj hclosed]
    intro d q f href hspace
    obtain ⟨-, m', mapping, hm, hmapping, -⟩ := hsafe d q f href hspace
    rw [hfirst, some.injEq] at hm
    rw [← hm, hnone] at hmapping
    simp at hmapping
  · rename_i mapping hmapping
    dsimp only at hclosed
    obtain ⟨s2, hmap, rfl⟩ := map_eq_some_iff.mp hclosed
    have h0 := h.removeRegion s.current mapping.addr
    have hover : ∀ d q f, s2.Refers (.page d q) f → ¬ s2.SpaceHas id f := by
      refine h0.mapNewPages_over (fun d q f href hspace => ?_) hmap
      -- the mapping of the page is the one that is closed
      obtain ⟨hown, m', mapping', hm, hmapping', hrange⟩ :=
        hsafe d q f (refers_removeRegion href) hspace
      rw [hfirst, some.injEq] at hm
      rw [← hm, hmapping, some.injEq] at hmapping'
      rw [hmapping']
      exact ⟨hown, hrange⟩
    exact hover

lemma Inv.shmClose (h : Inv s) (hsafe : s.CloseSafe id) (hs : s.shmClose id = some s') :
    Inv s' := by
  unfold State.shmClose at hs
  split at hs
  · simp at hs
  dsimp only at hs
  obtain ⟨s1, hclosed, hs⟩ := bind_eq_some_iff.mp hs
  have h1 : Inv s1 ∧ ∀ d q f, s1.Refers (.page d q) f → ¬ s1.SpaceHas id f := by
    split at hclosed
    · rename_i hfirst
      rw [← some.inj hclosed]
      refine ⟨h, fun d q f href hspace => ?_⟩
      obtain ⟨-, m, mapping, hm, -⟩ := hsafe d q f href hspace
      rw [hfirst] at hm
      simp at hm
    · rename_i m hfirst
      exact ⟨h.shmCloseMap hclosed, h.shmCloseMap_over hsafe hfirst hclosed⟩
  split at hs
  · simp at hs
  · rename_i space hspace
    rw [← some.inj hs]
    exact h1.1.freeSpace hspace h1.2

end State

end Memory
