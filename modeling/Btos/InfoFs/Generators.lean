import Btos.Process.Environment
import Btos.Util.Printf

/-!
# The information files

Opening a file of `INFO:` calls a function that makes its text: it allocates a block of 4096
bytes, fills it with zeros and prints rows at the end of the string in it, one for each process,
thread, variable, mount, driver or terminal.

`Block` is such a block. It remembers which bytes were written, and carries the proof of where
these are. `inside_iff` says for every generator how long names and values may be altogether for
all bytes to be inside of the block; `exists_outside_block` is a variable that a process can set and
that makes `env_infofs` write behind it.
-/

open List

namespace InfoFs

open Printf Process

/-! ## Blocks of text -/

/-- The size that the generators pass to `malloc`. -/
def blockSize : ℕ := 4096

/-- The block of a generator. -/
structure Block where
  /-- The string in it. -/
  text : Str
  /-- The offsets of the bytes that were written so far. -/
  written : List ℕ
  /-- These are the bytes of the block and those of the string with its NUL. -/
  mem_written : ∀ i, i ∈ written ↔ i < blockSize ∨ i ≤ text.length

namespace Block

/-- `malloc` and `memset`. -/
def zeroed : Block where
  text := []
  written := List.range blockSize
  mem_written i := by
    rw [List.mem_range, List.length_nil, Nat.le_zero]
    refine ⟨Or.inl, fun h => h.elim (fun h => h) ?_⟩
    rintro rfl
    decide

/-- `sprintf(&buffer[strlen(buffer)], fmt, ...)`: the text goes over the NUL, and a new NUL
behind it. -/
def sprintf (b : Block) (fmt : Str) (args : List Arg) : Block where
  text := b.text ++ tfpFormat fmt args
  written := b.written ++
    (List.range ((tfpFormat fmt args).length + 1)).map (b.text.length + ·)
  mem_written i := by
    rw [List.mem_append, b.mem_written, List.mem_map, List.length_append]
    constructor
    · rintro ((hi | hi) | ⟨j, hj, rfl⟩)
      · exact .inl hi
      · exact .inr (by omega)
      · rw [List.mem_range] at hj
        exact .inr (by omega)
    · rintro (hi | hi)
      · exact .inl (.inl hi)
      · by_cases hold : i ≤ b.text.length
        · exact .inl (.inr hold)
        · refine .inr ⟨i - b.text.length, List.mem_range.mpr ?_, ?_⟩ <;> omega

/-- A row for each element of a table. -/
def rows {α : Type*} (b : Block) (fmt : Str) (args : α → List Arg) (table : List α) : Block :=
  table.foldl (fun b x => b.sprintf fmt (args x)) b

/-- All that was written is inside of the block. -/
def Inside (b : Block) : Prop := ∀ i ∈ b.written, i < blockSize

lemma inside_iff_length (b : Block) : b.Inside ↔ b.text.length < blockSize := by
  constructor
  · intro hin
    exact hin _ ((b.mem_written _).mpr (.inr le_rfl))
  · intro hlt i hi
    rcases (b.mem_written i).mp hi with hi | hi
    · exact hi
    · omega

lemma text_rows {α : Type*} (b : Block) (fmt : Str) (args : α → List Arg) (table : List α) :
    (b.rows fmt args table).text =
      b.text ++ (table.map fun x => tfpFormat fmt (args x)).flatten := by
  induction table generalizing b with
  | nil => simp [rows]
  | cons x table ih =>
    have hnext := ih (b.sprintf fmt (args x))
    rw [rows] at hnext
    rw [rows, foldl_cons, hnext, map_cons, flatten_cons, ← append_assoc]
    rfl

lemma length_text_rows {α : Type*} (b : Block) (fmt : Str) (args : α → List Arg) (table : List α) :
    (b.rows fmt args table).text.length =
      b.text.length + (table.map fun x => (tfpFormat fmt (args x)).length).sum := by
  rw [text_rows, length_append, length_flatten, map_map]
  rfl

end Block

/-! ## The tables -/

/-- What `proc_infofs` reads of a process. -/
structure ProcInfo where
  pid : UInt64
  name : Str
  /-- `get_user_used()`. -/
  userUsed : UInt32
  parent : UInt64
  deriving Repr

/-- What `sch_threads_infofs` reads of a thread. -/
structure ThreadInfo where
  extId : UInt64
  pid : UInt64
  priority : UInt32
  eip : UInt32
  status : Int32
  abortlevel : Int32
  modifier : UInt32
  deriving Repr

/-- What `fs_mounts_infofs` reads of a mount; `name` is its key in the table. -/
structure MountInfo where
  name : Str
  device : Str
  driverName : Str
  deriving Repr

/-- What `fs_registered_infofs` reads of a driver; `name` is its key in the table. -/
structure DriverInfo where
  name : Str
  /-- The address of the entry. -/
  address : UInt32
  deriving Repr

/-- What `terms_infofs` reads of a terminal. -/
structure TermInfo where
  id : UInt64
  title : Str
  /-- The address of the backend. -/
  backend : UInt32
  deriving Repr

/-- The tables of the kernel and of the terminal module that are printed. -/
structure Tables where
  processes : List ProcInfo
  /-- `get_kernel_used()`. -/
  kernelUsed : UInt32
  environments : Environments
  threads : List ThreadInfo
  mounts : List MountInfo
  drivers : List DriverInfo
  terminals : List TermInfo

/-- The conversion of a number of 64 bits to `int`. -/
def toInt (n : UInt64) : Int32 := n.toUInt32.toInt32

namespace Tables

variable (st : Tables)

/-! ## The generators -/

/-- The arguments of a row of `proc_infofs`. -/
def procArgs (cur : ProcInfo) : List Arg :=
  [.int (toInt cur.pid), .str cur.name,
    .int (if cur.pid ≠ 0 then cur.userUsed else st.kernelUsed).toInt32, .int (toInt cur.parent)]

/-- `proc_infofs`. -/
def procInfofs : Block :=
  (Block.zeroed.sprintf "# PID, path, memory, parent\n".toList []).rows
    "%i, \"%s\", %i, %i\n".toList st.procArgs st.processes

/-- The arguments of a row of `env_infofs`. -/
def envArgs (e : Str × EnvVar) : List Arg :=
  [.str e.1, .str e.2.value, .unsigned e.2.flags.toNat.toUInt32]

/-- The variables of the kernel that `env_infofs` prints. -/
def globalVars : List (Str × EnvVar) :=
  (st.environments.environment 0).entries.filter fun e => e.2.isGlobal

/-- The variables of the running process that `env_infofs` prints. -/
def ownVars : List (Str × EnvVar) :=
  (st.environments.environment st.environments.currentPid).entries.filter fun e => !e.2.isPrivate

/-- `env_infofs`. -/
def envInfofs : Block :=
  ((Block.zeroed.sprintf "# name, value, flags\n".toList []).rows
    "\"%s\", \"%s\", %x\n".toList envArgs st.globalVars).rows
      "\"%s\", \"%s\", %x\n".toList envArgs st.ownVars

/-- The arguments of a row of `sch_threads_infofs`. -/
def threadArgs (t : ThreadInfo) : List Arg :=
  [.int (toInt t.extId), .int (toInt t.pid), .int t.priority.toInt32, .unsigned t.eip,
    .int t.status, .int t.abortlevel, .int t.modifier.toInt32]

/-- `sch_threads_infofs`. -/
def schThreadsInfofs : Block :=
  (Block.zeroed.sprintf "# ID, PID, priority, addr, status, alevel, load\n".toList []).rows
    "%i, %i, %i, %x, %i, %i, %i\n".toList threadArgs st.threads

/-- `fs_mounts_infofs`. -/
def fsMountsInfofs : Block :=
  (Block.zeroed.sprintf "# name, device, filesystem\n".toList []).rows "%s, %s, %s\n".toList
    (fun i => [.str i.name, .str i.device, .str i.driverName]) st.mounts

/-- `fs_registered_infofs`. -/
def fsRegisteredInfofs : Block :=
  (Block.zeroed.sprintf "# name, addr\n".toList []).rows "%s, %p\n".toList
    (fun i => [.str i.name, .unsigned i.address]) st.drivers

/-- `terms_infofs`. -/
def termsInfofs : Block :=
  (Block.zeroed.sprintf "# ID, title, backend\n".toList []).rows "%i, \"%s\", %p\n".toList
    (fun t => [.int (toInt t.id), .str t.title, .unsigned t.backend]) st.terminals

end Tables

/-- The files, by the function that makes them. -/
inductive Generator where
  | procInfofs
  | envInfofs
  | schThreadsInfofs
  | fsMountsInfofs
  | fsRegisteredInfofs
  | termsInfofs
  deriving DecidableEq, Repr

/-- The block that a generator returns. -/
def Generator.block (st : Tables) : Generator → Block
  | procInfofs => st.procInfofs
  | envInfofs => st.envInfofs
  | schThreadsInfofs => st.schThreadsInfofs
  | fsMountsInfofs => st.fsMountsInfofs
  | fsRegisteredInfofs => st.fsRegisteredInfofs
  | termsInfofs => st.termsInfofs

namespace Tables

variable (st : Tables)

/-! ## How long the texts are -/

/-- The characters of a number that are printed by `%i`. -/
def width (n : Int32) : ℕ := (i2a n).length

/-- The characters of a number that are printed by `%x` and `%p`. -/
def hexWidth (n : UInt32) : ℕ := (ui2a n 16).length

/-- The length of a row about a process. -/
def procLength (cur : ProcInfo) : ℕ :=
  width (toInt cur.pid) + cur.name.length +
    width (if cur.pid ≠ 0 then cur.userUsed else st.kernelUsed).toInt32 +
    width (toInt cur.parent) + 9

/-- The length of a row about a variable. -/
def envLength (e : Str × EnvVar) : ℕ :=
  e.1.length + e.2.value.length + hexWidth e.2.flags.toNat.toUInt32 + 9

/-- The length of a row about a thread. -/
def threadLength (t : ThreadInfo) : ℕ :=
  width (toInt t.extId) + width (toInt t.pid) + width t.priority.toInt32 + hexWidth t.eip +
    width t.status + width t.abortlevel + width t.modifier.toInt32 + 13

/-- The length of a row about a mount. -/
def mountLength (i : MountInfo) : ℕ := i.name.length + i.device.length + i.driverName.length + 5

/-- The length of a row about a driver. -/
def driverLength (i : DriverInfo) : ℕ := i.name.length + hexWidth i.address + 3

/-- The length of a row about a terminal. -/
def termLength (t : TermInfo) : ℕ := width (toInt t.id) + t.title.length + hexWidth t.backend + 7

/-- The length of a text: that of the first line and those of the rows. -/
def textLength : Generator → ℕ
  | .procInfofs => 28 + (st.processes.map st.procLength).sum
  | .envInfofs => 21 + (st.globalVars.map envLength).sum + (st.ownVars.map envLength).sum
  | .schThreadsInfofs => 48 + (st.threads.map threadLength).sum
  | .fsMountsInfofs => 27 + (st.mounts.map mountLength).sum
  | .fsRegisteredInfofs => 13 + (st.drivers.map driverLength).sum
  | .termsInfofs => 21 + (st.terminals.map termLength).sum

attribute [local simp] tfpFormat

lemma length_procRow (cur : ProcInfo) :
    (tfpFormat "%i, \"%s\", %i, %i\n".toList (st.procArgs cur)).length = st.procLength cur := by
  simp [procArgs, procLength, width]
  omega

lemma length_envRow (e : Str × EnvVar) :
    (tfpFormat "\"%s\", \"%s\", %x\n".toList (envArgs e)).length = envLength e := by
  simp [envArgs, envLength, hexWidth]
  omega

lemma length_threadRow (t : ThreadInfo) :
    (tfpFormat "%i, %i, %i, %x, %i, %i, %i\n".toList (threadArgs t)).length = threadLength t := by
  simp [threadArgs, threadLength, width, hexWidth]
  omega

lemma length_mountRow (i : MountInfo) :
    (tfpFormat "%s, %s, %s\n".toList [.str i.name, .str i.device, .str i.driverName]).length =
      mountLength i := by
  simp [mountLength]
  omega

lemma length_driverRow (i : DriverInfo) :
    (tfpFormat "%s, %p\n".toList [.str i.name, .unsigned i.address]).length = driverLength i := by
  simp [driverLength, hexWidth]
  omega

lemma length_termRow (t : TermInfo) :
    (tfpFormat "%i, \"%s\", %p\n".toList
      [.int (toInt t.id), .str t.title, .unsigned t.backend]).length = termLength t := by
  simp [termLength, width, hexWidth]
  omega

lemma length_block (g : Generator) : (g.block st).text.length = st.textLength g := by
  -- The first line is printed into an empty string.
  have hfirst : ∀ fmt : Str, (Block.zeroed.sprintf fmt []).text = tfpFormat fmt [] :=
    fun _ => rfl
  cases g with
  | procInfofs =>
    rw [Generator.block, procInfofs, Block.length_text_rows, hfirst]
    simp only [length_procRow]
    rfl
  | envInfofs =>
    rw [Generator.block, envInfofs, Block.length_text_rows, Block.length_text_rows, hfirst]
    simp only [length_envRow]
    rfl
  | schThreadsInfofs =>
    rw [Generator.block, schThreadsInfofs, Block.length_text_rows, hfirst]
    simp only [length_threadRow]
    rfl
  | fsMountsInfofs =>
    rw [Generator.block, fsMountsInfofs, Block.length_text_rows, hfirst]
    simp only [length_mountRow]
    rfl
  | fsRegisteredInfofs =>
    rw [Generator.block, fsRegisteredInfofs, Block.length_text_rows, hfirst]
    simp only [length_driverRow]
    rfl
  | termsInfofs =>
    rw [Generator.block, termsInfofs, Block.length_text_rows, hfirst]
    simp only [length_termRow]
    rfl

/-- A generator stays inside of its block if and only if the first line, the rows and the NUL at
the end fit in. -/
theorem inside_iff (g : Generator) : (g.block st).Inside ↔ st.textLength g + 1 ≤ blockSize := by
  rw [Block.inside_iff_length, length_block]
  rfl

/-- Nothing but the environment of process 5, in which it has set a variable. -/
def afterSetenv (value : Str) : Tables where
  processes := []
  kernelUsed := 0
  environments := (⟨fun _ => .empty, 5⟩ : Environments).procSetenv 5 "A".toList value 0 true
  threads := []
  mounts := []
  drivers := []
  terminals := []

lemma ownVars_afterSetenv {value : Str} (hvalue : value.length ≠ 0) :
    (afterSetenv value).ownVars = [("A".toList, ⟨value, 0⟩)] := by
  simp [ownVars, afterSetenv, Environments.procSetenv, Environments.target, Environments.modify,
    OrderedMap.put, OrderedMap.putEntry, OrderedMap.empty, OrderedMap.lookup, EnvVar.isPrivate,
    Str.toUpper, ne_nil_of_length_pos (Nat.pos_of_ne_zero hvalue)]

/-- A process can make `env_infofs` write behind its block. -/
theorem exists_outside_block : ∃ value : Str,
    ¬ (Generator.envInfofs.block (afterSetenv value)).Inside := by
  refine ⟨replicate 4096 'x', ?_⟩
  have hlength : (replicate 4096 'x').length = 4096 := length_replicate
  rw [Block.inside_iff_length, length_block, textLength,
    ownVars_afterSetenv (by rw [hlength]; decide), map_singleton, sum_singleton,
    envLength, hlength, blockSize]
  omega

end Tables

end InfoFs
