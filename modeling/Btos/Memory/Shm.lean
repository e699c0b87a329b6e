import Btos.Memory.PageDirectory

/-!
# Shared memory and page faults

`shm.cpp`, and the regions of a page directory through which page faults get to it. A space of
shared memory has a physical page for each of its addresses that was touched; a mapping gives a
range of addresses of some process for a part of the space. Mappings are filled in by page faults.
-/

namespace Memory

namespace State

variable (s : State)

/-! ## Regions -/

/-- `PageDirectory::add_region`. -/
def addRegion (d : ℕ) (r : Region) : State :=
  s.modifyDir d fun pd => { pd with regions := pd.regions ++ [r] }

/-- `PageDirectory::remove_region`. -/
def removeRegion (d : ℕ) (addr : Word) : State :=
  s.modifyDir d fun pd => { pd with regions := pd.regions.eraseP fun r => r.addr = addr }

/-- The test of `PageDirectory::handle_pf` for the region of an address. -/
def inRegion (addr : Word) (r : Region) : Bool := r.addr ≤ addr && r.addr + r.size > addr

/-! ## Spaces and mappings -/

/-- `shm_create`. -/
def shmCreate (flags : Word) : ℕ × State :=
  let id := (s.spaceIdCounter + 1) % 2 ^ 64
  (id, { s with
    spaceIdCounter := id
    spaces := s.spaces.put id
      { pages := OrderedMap.empty, flags := flags, owner := s.currentPid } })

/-- The number of rounds of `for(i = addr; i < addr + pages * MM2_Page_Size; i += MM2_Page_Size)`
for the aligned address of a mapping. The sum may wrap, and there are no rounds then. -/
def mappingRounds (addr pages : Word) : ℕ :=
  ((addr + pages * BitVec.ofNat 32 pageSize).toNat - addr.toNat) / pageSize

/-- The loop of `shm_map` that makes guard pages. -/
def guardPages (d : ℕ) (addr : Word) (n : ℕ) : Option State :=
  (List.range n).foldlM (fun s i => s.guardPageAt d (pageAddr addr i)) s

/-- `shm_map`. The id is 0 when the mapping is refused. -/
def shmMap (id : ℕ) (addr offset pages _flags : Word) : Option (ℕ × State) :=
  if s.spaces.lookup id = none then some (0, s)
  else if addr.toNat % pageSize ≠ 0 then some (0, s)
  else if offset.toNat % pageSize ≠ 0 then some (0, s)
  else
    let ret := (s.mappingIdCounter + 1) % 2 ^ 64
    let s : State := { s with mappingIdCounter := ret }
    (s.freePages s.current addr pages.toNat).bind fun s =>
      (s.guardPages s.current addr (mappingRounds addr pages)).map fun s =>
        let s := s.addRegion s.current
          { addr := addr, size := pages * BitVec.ofNat 32 pageSize, id := ret, pfHandle := .shm }
        -- `new shm_mapping()` zeroes the flags, and the parameter `flags` is not stored.
        let mapping : ShmMapping :=
          { space := id, addr := addr, offset := offset, pages := pages, flags := 0 }
        (ret, { s with mappings := s.mappings.put ret mapping })

/-- The physical page of a space for an address in it; a new one if it was not touched yet. -/
def spacePage (id : ℕ) (space : ShmSpace) (pageaddr : Word) : Option (PageRef × State) :=
  match space.pages.lookup pageaddr with
  | some page => some (page, s)
  | none =>
      (s.phys.alloc anyAddr).map fun (page, phys) =>
        (page, { s with
          phys := phys
          spaces := s.spaces.put id { space with pages := space.pages.put pageaddr page } })

/-- `shm_pf_handler`. `none` is the panic about an invalid mapping, or the access to a space that
was deleted. -/
def shmPfHandler (id : ℕ) (addr : Word) : Option State :=
  match s.mappings.lookup id with
  | none => none
  | some mapping =>
      match s.spaces.lookup mapping.space with
      | none => none
      | some space =>
          let spaceAddr := (addr - mapping.addr) + mapping.offset
          (s.spacePage mapping.space space (spaceAddr &&& addressMask)).bind fun (page, s) =>
            -- The flags computed from the space and the mapping are not the ones passed on.
            s.mapPageAt s.current (addr &&& addressMask) page userFlags

/-- `mmap_read`, up to the contents of the page, which are read from the file. `none` is one of
its panics. -/
def mmapRead (id : ℕ) (addr : Word) : Option State :=
  match s.mmappings.lookup id with
  | none => none
  | some m =>
      if addr < m.pageAddr ∨ addr > m.pageAddr + m.pages * BitVec.ofNat 32 pageSize then none
      else
        s.mapNewPageAt s.current (addr &&& addressMask)
          (if m.addr ≥ kernelBoundary then userFlags else kernelFlags)

/-- The call of the handler of a region. -/
def pfHandle (r : Region) (addr : Word) : Option State :=
  match r.pfHandle with
  | .shm => s.shmPfHandler r.id addr
  | .mmap => s.mmapRead r.id addr

/-- `PageDirectory::handle_pf`: whether the fault was handled. -/
def handlePf (d : ℕ) (addr : Word) : Option (Bool × State) :=
  let (phys, s) := s.virt2phys d addr
  if phys ≠ 0 then some (false, s)
  else
    match (s.dirs d).regions.find? (inRegion addr) with
    | none => some (false, s)
    | some r => (s.pfHandle r addr).map fun s => (true, s)

/-- `page_fault_handler`: the regions of the current directory, then those of the kernel. -/
def pageFault (addr : Word) : Option State :=
  let (_, s) := s.virt2phys s.current addr
  (s.handlePf s.current addr).bind fun (handled, s) =>
    if handled then some s
    else (s.handlePf s.kernel addr).map Prod.snd

/-- `shm_close_map`. -/
def shmCloseMap (id : ℕ) : Option State :=
  match s.mappings.lookup id with
  | none => some s
  | some mapping =>
      let s := s.removeRegion s.current mapping.addr
      (s.mapNewPages s.current mapping.addr (mappingRounds mapping.addr mapping.pages)
        userFlags).map fun s => { s with mappings := s.mappings.erase id }

/-- The first mapping of a space. -/
def firstMapping (id : ℕ) : Option ℕ :=
  (s.mappings.entries.find? fun e => e.2.space = id).map Prod.fst

/-- `shm_close`. The loop over the mappings ends after its first round, which closes the first
mapping of the space. `none` for a space that does not exist, whose pages are read through
`NULL`. -/
def shmClose (id : ℕ) : Option State :=
  match s.spaces.lookup id with
  | none => none
  | some _ =>
      let closed := match s.firstMapping id with
        | none => some s
        | some m => s.shmCloseMap m
      closed.bind fun s =>
        match s.spaces.lookup id with
        | none => none
        | some space =>
            some { s with
              phys := (space.pages.entries.map Prod.snd).foldl Physical.free s.phys
              spaces := s.spaces.erase id }

end State

end Memory
