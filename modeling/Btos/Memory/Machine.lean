import Btos.Memory.WellFormed

/-!
# A small machine

The memory manager of a machine with 16 pages of memory after `mm2_virtual_init`, for concrete
runs.
-/

namespace Memory

namespace State

variable {d p t : ℕ}

/-- The directory `init_kernel_pagedir` with one page table, at `0x1000`. -/
def bootDir : PageDir where
  regions := []
  directory t := if t = 0 then 0x1003#32 else 0
  directoryAddr := 0x3000#32
  directoryPhysical := 0x3000#32
  currentTable := 0x1000#32
  klowfree := 0
  ulowfree := kernelPages
  upages := 0
  entrycache := List.replicate entrycacheSize { index := 0, entry := 0, hits := 0 }

/-- 16 pages of memory, of which four are in use. -/
def bootPhysical : Physical where
  pages := [⟨0x1⟩, ⟨0x1001⟩, ⟨0x2001⟩, ⟨0x3001⟩, ⟨0x4000⟩, ⟨0x5000⟩, ⟨0x6000⟩, ⟨0x7000⟩,
    ⟨0x8000⟩, ⟨0x9000⟩, ⟨0xA000⟩, ⟨0xB000⟩, ⟨0xC000⟩, ⟨0xD000⟩, ⟨0xE000⟩, ⟨0xF000⟩]
  ioPages := []
  lastidx := 0
  freePages := 12

/-- A machine after `mm2_virtual_init`, with the given page directories. The first four pages are
the guard page at `NULL`, the page table, the window, which shows the table, and the directory. The
others are mapped at their addresses. -/
def booted (live : List ℕ) : State where
  phys := bootPhysical
  frames f j :=
    if f = 0x1000#32 then
      if j = 0 then guardPage
      else if j = 1 then 0x1003#32
      else if j = 2 then 0x1003#32
      else if j = 3 then 0x3003#32
      else 0
    else 0
  dirs _ := bootDir
  live := live
  current := 0
  kernel := 0
  windowPage := 2
  kpages := 3
  currentPid := 0
  spaces := OrderedMap.empty
  mappings := OrderedMap.empty
  spaceIdCounter := 0
  mappingIdCounter := 0
  mmappings := OrderedMap.empty

section Booted

variable {live : List ℕ}

lemma booted_dir (d t : ℕ) : (booted live).dir d t = if t = 0 then 0x1003#32 else 0 := rfl

lemma booted_dir_ne (h : (booted live).dir d t ≠ 0) :
    t = 0 ∧ (booted live).dir d t = 0x1003#32 := by
  rw [booted_dir] at h ⊢
  by_cases ht : t = 0
  · exact ⟨ht, if_pos ht⟩
  · rw [if_neg ht] at h
    exact absurd rfl h

/-- The entries of the page table. -/
lemma booted_stored (d p : ℕ) : (booted live).stored d p =
    if p = 0 then guardPage else if p = 1 then 0x1003#32 else if p = 2 then 0x1003#32
    else if p = 3 then 0x3003#32 else 0 := by
  unfold stored
  rw [booted_dir]
  by_cases hp : p / tableEntries = 0
  · have hlt : p < tableEntries := (Nat.div_eq_zero_iff_lt (by decide)).mp hp
    rw [if_pos hp, Nat.mod_eq_of_lt hlt, if_neg (by decide)]
    rfl
  · -- There is no other table.
    have hge : tableEntries ≤ p := Nat.le_of_not_lt fun hlt => hp (Nat.div_eq_of_lt hlt)
    simp only [tableEntries] at hge
    rw [if_neg hp, frame_zero, if_pos rfl, if_neg, if_neg, if_neg, if_neg] <;> omega

/-- The pages that are present are mapped at their addresses. -/
lemma booted_view (h : isPresent ((booted live).view d p) = true) :
    p ≠ 0 ∧ p < 4 ∧ frame ((booted live).view d p) = BitVec.ofNat 32 (p * pageSize) := by
  have hp2 : p ≠ 2 := by
    intro hp2
    have hview : (booted live).view d p = 0 := if_pos hp2
    rw [hview, isPresent_zero] at h
    cases h
  have hview : (booted live).view d p = (booted live).stored d p := if_neg hp2
  rw [hview, booted_stored] at h ⊢
  by_cases h0 : p = 0
  · rw [if_pos h0] at h
    exact absurd h (by decide)
  by_cases h1 : p = 1
  · subst h1
    decide
  by_cases h3 : p = 3
  · subst h3
    decide
  rw [if_neg h0, if_neg h1, if_neg hp2, if_neg h3] at h
  exact absurd h (by decide)

lemma bootPhysical_isFree {a : Word} (h : bootPhysical.IsFree a) : 0x4000#32 ≤ a := by
  have hall : ∀ pg ∈ bootPhysical.pages, pg.hasStatus .free = true → 0x4000#32 ≤ pg.address := by
    decide
  obtain ⟨pg, hmem, rfl, hstatus⟩ := h
  exact hall pg hmem hstatus

/-- What `mm2_virtual_init` leaves is well formed. -/
lemma booted_wf (h0 : 0 ∈ live) : WF (booted live) := by
  have hdistinct : bootPhysical.Distinct := by
    unfold Physical.Distinct
    decide
  have hwindow : ∀ d, (booted live).dir d (booted live).windowTable ≠ 0 := by
    intro d
    have htable : (booted live).windowTable = 0 := by
      show 2 / tableEntries = 0
      decide
    rw [booted_dir, if_pos htable]
    decide
  refine ⟨h0, h0, ?_, hwindow _, hwindow _, ?_, ?_, ?_, ?_, hdistinct, ?_, fun _ _ => le_rfl⟩
  · show 2 < kernelPages
    decide
  · intro d _ t hne
    rw [(booted_dir_ne hne).2]
    decide
  · intro d _ t _ hne
    rw [(booted_dir_ne hne).2, (booted_dir_ne hne).1]
    rfl
  · intro d1 _ d2 _ t1 t2 h1 h2 _
    rw [(booted_dir_ne h1).1, (booted_dir_ne h2).1]
    exact ⟨rfl, .inr (by decide)⟩
  · intro d _ t hne hfree
    rw [(booted_dir_ne hne).2] at hfree
    exact absurd (bootPhysical_isFree hfree) (by decide)
  · exact fun hfree => absurd (bootPhysical_isFree hfree) (by decide)

end Booted

end State

end Memory
