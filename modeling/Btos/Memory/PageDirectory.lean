import Btos.Lib.HitCache
import Btos.Lib.OrderedMap
import Btos.Memory.Physical

/-!
# Page directories

The class `PageDirectory` and the functions of `virtual.cpp` around it. A page directory is known
by the address of its object, a number here; `State.dirs` gives the objects and `State.live` the
ones that exist.

Page tables are in physical memory (`State.frames`, 1024 words a frame) and are read and written
through one page of the kernel, `table_frame`: `mapTable` changes the entry of that page, the
window, so that it shows the table. The pages of `directory` itself are kept in the object.

The result `none` of an operation stands for a panic: physical memory is exhausted, or a
directory is deleted that must not be. Locks are not modelled; an operation is what happens while
they are held.
-/

namespace Memory

/-- `MM2_Table_Entries`. -/
def tableEntries : ℕ := 1024

/-- `MM2_Kernel_Pages`. -/
def kernelPages : ℕ := 0x40000

/-- `MM2_Kernel_Tables`. -/
def kernelTables : ℕ := 256

/-- `MM2_Total_Pages`. -/
def totalPages : ℕ := 0xFFFFF

/-- `MM2_Kernel_Boundary`. -/
def kernelBoundary : Word := 0x40000000#32

/-- `entrycache_size`. -/
def entrycacheSize : ℕ := 64

/-- `entrycache_maxhits`. -/
def entrycacheMaxhits : ℕ := 1024

/-- The default `max_addr` of `physical_alloc`. -/
def anyAddr : Word := 0xFFFFFFFF#32

/-- The number of the page that an address lies on. -/
def pageOf (addr : Word) : ℕ := addr.toNat / pageSize

/-- The address of the page `i` pages behind another one. -/
def pageAddr (addr : Word) (i : ℕ) : Word := addr + BitVec.ofNat 32 (i * pageSize)

/-- `MM2_Alloc_Mode`, as far as it is implemented. -/
inductive AllocMode where
  | kernel
  | userlow
  deriving DecidableEq, Repr

/-- The function that handles the page faults of a region. -/
inductive Handler where
  /-- `shm_pf_handler`. -/
  | shm
  /-- `mmap_read`. -/
  | mmap
  deriving DecidableEq, Repr

/-- `PageDirectory::region`. -/
structure Region where
  addr : Word
  size : Word
  id : ℕ
  pfHandle : Handler
  deriving DecidableEq, Repr

/-- `PageDirectory`. -/
structure PageDir where
  regions : List Region
  /-- The entries of `directory`, of which there are 1024. -/
  directory : ℕ → Word
  /-- The address of `directory`. -/
  directoryAddr : Word
  directoryPhysical : Word
  currentTable : Word
  klowfree : ℕ
  ulowfree : ℕ
  upages : Word
  entrycache : List (HitCache.Line ℕ Word)

/-- `shm_space`. -/
structure ShmSpace where
  pages : OrderedMap Word PageRef
  flags : Word
  owner : ℕ

/-- `shm_mapping`; the space is given by its id. -/
structure ShmMapping where
  space : ℕ
  addr : Word
  offset : Word
  pages : Word
  flags : Word
  deriving DecidableEq, Repr

/-- The part of an `mmapping` that its page faults use. -/
structure MMapping where
  addr : Word
  pageAddr : Word
  pages : Word

/-- The state of the memory manager. -/
structure State where
  phys : Physical
  /-- Physical memory, by the address of the frame. -/
  frames : Word → ℕ → Word
  dirs : ℕ → PageDir
  /-- The page directories that exist. -/
  live : List ℕ
  /-- `current_pagedir`. -/
  current : ℕ
  /-- `kernel_pagedir`. -/
  kernel : ℕ
  /-- The page that `table_frame` is. -/
  windowPage : ℕ
  kpages : Word
  /-- `proc_current_pid`. -/
  currentPid : ℕ
  spaces : OrderedMap ℕ ShmSpace
  mappings : OrderedMap ℕ ShmMapping
  spaceIdCounter : ℕ
  mappingIdCounter : ℕ
  mmappings : OrderedMap ℕ MMapping

namespace State

variable (s : State)

/-! ## Memory -/

/-- An entry of a page directory. -/
def dir (d t : ℕ) : Word := (s.dirs d).directory t

/-- A write to a page directory object. -/
def modifyDir (d : ℕ) (f : PageDir → PageDir) : State :=
  { s with dirs := Function.update s.dirs d (f (s.dirs d)) }

/-- A write to an entry of a page directory. -/
def setDirEntry (d t : ℕ) (e : Word) : State :=
  s.modifyDir d fun pd => { pd with directory := Function.update pd.directory t e }

/-- A write to the entry cache of a page directory. -/
def setCache (d : ℕ) (c : List (HitCache.Line ℕ Word)) : State :=
  s.modifyDir d fun pd => { pd with entrycache := c }

/-- A write to a word of a frame. -/
def writeFrame (f : Word) (j : ℕ) (e : Word) : State :=
  { s with frames := Function.update s.frames f (Function.update (s.frames f) j e) }

/-- `memset(…, 0, MM2_Page_Size)` of a frame. -/
def zeroFrame (f : Word) : State := { s with frames := Function.update s.frames f fun _ => 0 }

/-- The entry stored in the page table for a page, 0 when there is no table. -/
def stored (d p : ℕ) : Word :=
  if frame (s.dir d (p / tableEntries)) = 0 then 0
  else s.frames (frame (s.dir d (p / tableEntries))) (p % tableEntries)

/-- The table that the entry of `table_frame` is in. -/
def windowTable : ℕ := s.windowPage / tableEntries

/-- The place of the entry of `table_frame` in its table. -/
def windowSlot : ℕ := s.windowPage % tableEntries

/-- The frame that the processor finds behind `table_frame`. -/
def windowFrame : Word :=
  frame (s.frames (frame (s.dir s.current s.windowTable)) s.windowSlot)

/-! ## Page tables -/

/-- `PageDirectory::map_table`. -/
def mapTable (d : ℕ) (tableaddr : Word) : Bool × State :=
  if frame tableaddr = 0 then (false, s)
  else if isPresent (s.dir d s.windowTable) then
    (true, (s.writeFrame (frame (s.dir d s.windowTable)) s.windowSlot
      (frame tableaddr ||| (present ||| writable))).modifyDir d fun pd =>
        { pd with currentTable := frame tableaddr })
  else (false, s)

/-- The part of `get_table_entry` that reads the page table. -/
def readEntry (d p : ℕ) : Word × State :=
  let e := s.dir d (p / tableEntries)
  if frame e ≠ 0 then
    let (mapped, s) := s.mapTable d e
    (if mapped then s.frames s.windowFrame (p % tableEntries) else 0, s)
  else (0, s)

/-- `PageDirectory::get_table_entry`. -/
def getTableEntry (d p : ℕ) : Word × State :=
  let (ret, cache) := HitCache.get entrycacheMaxhits p (s.dirs d).entrycache
  let s := s.setCache d cache
  if ret = 0 then
    let (ret, s) := s.readEntry d p
    (ret, s.setCache d (HitCache.set p ret (s.dirs d).entrycache))
  else (ret, s)

/-- The flags of a page table in its directory. -/
def tableFlags (t : ℕ) : Word :=
  if t ≥ kernelTables then present ||| writable ||| usermode else present ||| writable

/-- `PageDirectory::create_table`. -/
def createTable (d t : ℕ) : Option State :=
  (s.phys.alloc anyAddr).map fun (page, phys) =>
    let addr := phys.address page
    let s := ({ s with phys := phys } : State).setDirEntry d t (addr ||| tableFlags t)
    let lastTable := (s.dirs d).currentTable
    let s := (s.mapTable d addr).2
    let s := s.zeroFrame s.windowFrame
    if lastTable ≠ 0 then (s.mapTable d lastTable).2 else s

/-- The part of `set_table_entry` that gets the table into the window. -/
def showTable (d t : ℕ) : Option State :=
  -- The test is `directory[tableno] && Present`, which holds of every entry other than 0.
  if s.dir d t ≠ 0 ∧ (s.mapTable d (s.dir d t)).1 then some (s.mapTable d (s.dir d t)).2
  else
    (s.createTable d t).map fun s =>
      let s := (s.mapTable d (s.dir d t)).2
      s.zeroFrame s.windowFrame

/-- `PageDirectory::set_table_entry`. -/
def setTableEntry (d p : ℕ) (entry : Word) : Option State :=
  (s.showTable d (p / tableEntries)).map fun s =>
    let s := s.writeFrame s.windowFrame (p % tableEntries) entry
    s.setCache d (HitCache.clear p (s.dirs d).entrycache)

/-- `PageDirectory::virt2phys`. -/
def virt2phys (d : ℕ) (addr : Word) : Word × State :=
  let (entry, s) := s.getTableEntry d (pageOf addr)
  (if frame entry ≠ 0 then frame entry + (addr &&& ~~~addressMask) else frame entry, s)

/-- `PageDirectory::is_available`. -/
def isAvailable (d pageno : ℕ) : Bool × State :=
  let (entry, s) := s.getTableEntry d pageno
  (!isPresent entry && entry &&& doNotUse = 0, s)

/-! ## Mapping and freeing -/

/-- Count a page that is mapped at an address. -/
def countMapped (d : ℕ) (addr : Word) : State :=
  if addr > kernelBoundary then s.modifyDir d fun pd => { pd with upages := pd.upages + 1 }
  else { s with kpages := s.kpages + 1 }

/-- Count a page that is unmapped at an address. -/
def countUnmapped (d : ℕ) (addr : Word) : State :=
  if addr > kernelBoundary then s.modifyDir d fun pd => { pd with upages := pd.upages - 1 }
  else { s with kpages := s.kpages - 1 }

/-- `PageDirectory::map_page_at` of a given page. -/
def mapPageAt (d : ℕ) (addr : Word) (page : PageRef) (flags : PageFlags) : Option State :=
  (s.setTableEntry d (pageOf addr) (s.phys.address page ||| flags.bits)).map fun s =>
    s.countMapped d addr

/-- `PageDirectory::map_page_at` of a new page. The page is zeroed through its new address. -/
def mapNewPageAt (d : ℕ) (addr : Word) (flags : PageFlags) : Option State :=
  let addr := addr &&& addressMask
  (s.phys.alloc anyAddr).bind fun (page, phys) =>
    (({ s with phys := phys } : State).mapPageAt d addr page flags).map fun s =>
      s.zeroFrame (frame (s.stored s.current (pageOf addr)))

/-- The loop that maps `n` new pages one behind the other. -/
def mapNewPages (d : ℕ) (base : Word) (n : ℕ) (flags : PageFlags) : Option State :=
  (List.range n).foldlM (fun s i => s.mapNewPageAt d (pageAddr base i) flags) s

/-- `Present | Writable`. -/
def kernelFlags : PageFlags := ⟨present ||| writable, by decide⟩

/-- `Present | Writable | Usermode`. -/
def userFlags : PageFlags := ⟨present ||| writable ||| usermode, by decide⟩

/-- `klowfree` or `ulowfree`, where a search starts. -/
def lowfree (d : ℕ) : AllocMode → ℕ
  | .kernel => (s.dirs d).klowfree
  | .userlow => (s.dirs d).ulowfree

/-- A write to `klowfree` or `ulowfree`. -/
def setLowfree (d pageno : ℕ) : AllocMode → State
  | .kernel => s.modifyDir d fun pd => { pd with klowfree := pageno }
  | .userlow => s.modifyDir d fun pd => { pd with ulowfree := pageno }

/-- The search of `PageDirectory::alloc`, from page `pageno` on for `n` pages. -/
def findRun (d : ℕ) (pages : ℕ) (mode : AllocMode) : ℕ → ℕ → ℕ → ℕ → State → Word × State
  | 0, _, _, _, s => (0, s)
  | n + 1, pageno, found, firstpage, s =>
      let (available, s) := s.isAvailable d pageno
      let firstpage := if available then (if firstpage = 0 then pageno else firstpage) else 0
      let found := if available then found + 1 else 0
      let s := if !available && pages = 1 then s.setLowfree d pageno mode else s
      if found = pages then (BitVec.ofNat 32 (firstpage * pageSize), s)
      else findRun d pages mode n (pageno + 1) found firstpage s

/-- `PageDirectory::alloc`. The address is 0 when there are no such pages. -/
def alloc (d : ℕ) (pages : ℕ) (mode : AllocMode) : Option (Word × State) :=
  let startpage := s.lowfree d mode
  let (addr, s) := s.findRun d pages mode (totalPages - startpage) startpage 0 0
  if addr ≠ 0 then (s.mapNewPages d addr pages userFlags).map fun s => (addr, s)
  else some (0, s)

/-- `PageDirectory::alloc_pages_at`. -/
def allocPagesAt (d : ℕ) (pages : ℕ) (baseaddr : Word) : Option State :=
  s.mapNewPages d baseaddr pages (if baseaddr ≥ kernelBoundary then userFlags else kernelFlags)

/-- One round of the loop of `PageDirectory::free_pages`. -/
def freePage (d : ℕ) (addr : Word) : Option State :=
  let pageno := pageOf addr
  let s := s.modifyDir d fun pd =>
    if pageno < kernelPages ∧ pageno < pd.klowfree then { pd with klowfree := pageno }
    else if pageno ≥ kernelPages ∧ pageno < pd.ulowfree then { pd with ulowfree := pageno }
    else pd
  let (entry, s) := s.getTableEntry d pageno
  let s := if isPresent entry then { s with phys := s.phys.freeAddr (frame entry) } else s
  (s.setTableEntry d pageno 0).map fun s => s.countUnmapped d addr

/-- `PageDirectory::free_pages`. -/
def freePages (d : ℕ) (addr : Word) (pages : ℕ) : Option State :=
  (List.range pages).foldlM (fun s i => s.freePage d (pageAddr addr i)) s

/-- `PageDirectory::guard_page_at`. -/
def guardPageAt (d : ℕ) (ptr : Word) : Option State :=
  let (entry, s) := s.getTableEntry d (pageOf ptr)
  if isPresent entry then
    (s.freePages d ptr 1).bind fun s =>
      let (entry, s) := s.getTableEntry d (pageOf ptr)
      s.setTableEntry d (pageOf ptr) (entry ||| guardPage)
  else s.setTableEntry d (pageOf ptr) (entry ||| guardPage)

/-! ## Directories -/

/-- `PageDirectory::copy_kernelspace`, to `d` from `d'`. -/
def copyKernelspace (d d' : ℕ) : State :=
  s.modifyDir d fun pd =>
    { pd with
      directory := fun t => if t < kernelTables then s.dir d' t else pd.directory t
      klowfree := (s.dirs d').klowfree }

/-- `mm2_switch`. -/
def mm2Switch (newdir : ℕ) : State :=
  let s := s.copyKernelspace s.kernel s.current
  let s := s.copyKernelspace newdir s.kernel
  { s with current := newdir }

/-- The constructor of a `PageDirectory` at `d`. Of the cache only the entries are initialised;
`lines` is what the memory holds. -/
def newDirectory (d : ℕ) (lines : List (HitCache.Line ℕ Word)) : Option State :=
  (s.alloc s.current 1 .kernel).bind fun (addr, s) =>
    -- The `memset` of a directory at `NULL` faults.
    if addr = 0 then none
    else
      let (physical, s) := s.virt2phys s.current addr
      some { s with
        dirs := Function.update s.dirs d
          { regions := [], directory := fun _ => 0, directoryAddr := addr,
            directoryPhysical := physical, currentTable := 0, klowfree := 0,
            ulowfree := kernelPages, upages := 0,
            entrycache := lines.map fun x => { x with entry := 0 } }
        live := d :: s.live }

/-- The inner loop of the destructor: what the table in the window refers to is freed. -/
def freeTableEntry (j : ℕ) : State :=
  let e := s.frames s.windowFrame j
  if isPresent e then
    ({ s with phys := s.phys.freeAddr (frame e) } : State).writeFrame s.windowFrame j 0
  else s

/-- What the destructor does with a table that is in the window. -/
def dropTable (d i : ℕ) : State :=
  let s := (List.range tableEntries).foldl freeTableEntry s
  let s : State := { s with phys := s.phys.freeAddr (frame (s.dir d i)) }
  s.setDirEntry d i 0

/-- One round of the loop of the destructor. -/
def destroyTable (d i : ℕ) : State :=
  let (mapped, s) := s.mapTable d (s.dir d i)
  if mapped then s.dropTable d i else s

/-- The destructor of a `PageDirectory`, which panics for the current one. -/
def destroy (d : ℕ) : Option State :=
  if d = s.current then none
  else
    let s := (List.range' kernelTables (tableEntries - kernelTables)).foldl
      (fun s i => s.destroyTable d i) s
    (s.freePages s.current (s.dirs d).directoryAddr 1).map fun s =>
      { s with live := s.live.filter fun d' => d' ≠ d }

end State

end Memory
