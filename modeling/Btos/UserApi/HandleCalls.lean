import Btos.Process.Handles
import Btos.UserApi.Access

/-!
# The types of handles

Handles of all kinds of kernel objects are in one table and have one untyped pointer. A call
that is given a handle number has to look at the type of the handle before it uses the pointer.

Main results: `typeSafe_iff` and `exists_not_typeSafe`.
-/

open List Option

namespace UserApi

open Memory Handles

/-! ## Kernel objects -/

/-- What handles point to. -/
inductive ObjectKind where
  | lock
  | file
  | directory
  | thread
  | memoryMapping
  | shmSpace
  | shmMapping
  | atom
  | timer
  deriving DecidableEq, Repr

namespace ObjectKind

/-- The type of a handle; the one of timers has the id of the RTC extension in it. -/
def type (extensionId : UInt16) : ObjectKind → UInt32
  | lock => typeLock
  | file => typeFile
  | directory => typeDirectory
  | thread => typeThread
  | memoryMapping => typeMemoryMapping
  | shmSpace => typeShmSpace
  | shmMapping => typeShmMapping
  | atom => typeAtom
  | timer => (extensionId.toUInt32 <<< 16) + 1

/-- The function for closing a handle. -/
def close : ObjectKind → CloseFn
  | lock => .closeLockHandle
  | file => .closeFileHandle
  | directory => .closeDirHandle
  | thread => .closeThreadHandle
  | memoryMapping => .closeFilemapHandle
  | shmSpace => .closeShmSpaceHandle
  | shmMapping => .closeShmMapHandle
  | atom => .atomDestroy
  | timer => .closeTimer

/-- The handle that is created for an object. -/
def create (extensionId : UInt16) (k : ObjectKind) (value : Ptr) : HandleInfo :=
  createHandle (k.type extensionId) value k.close

end ObjectKind

/-- What a function for closing takes its argument for. -/
def closes : CloseFn → ObjectKind
  | .closeLockHandle => .lock
  | .closeFileHandle => .file
  | .closeDirHandle => .directory
  | .closeThreadHandle => .thread
  | .closeFilemapHandle => .memoryMapping
  | .closeShmSpaceHandle => .shmSpace
  | .closeShmMapHandle => .shmMapping
  | .atomDestroy => .atom
  | .closeTimer => .timer

/-- What a call finds. The functions of an extension can be called only if its id is not 0, so
there are no timers otherwise. -/
structure Context where
  machine : Machine
  kernel : Kernel
  /-- `extension_id` of the RTC extension. -/
  extensionId : UInt16
  wellFormed : ∀ pid p, kernel.procs pid = some p → p.WellFormed
  created : ∀ pid p, kernel.procs pid = some p → ∀ e ∈ p.handles.entries,
    ∃ kind value, e.2 = ObjectKind.create extensionId kind value ∧
      (kind = .timer → extensionId ≠ 0)

/-! ## Calls with handles -/

/-- A call that is given a handle number in `ebx`, with the other registers that it uses. -/
inductive HandleCall where
  | btClosehandle
  | btQueryhandle
  | btShmId (ecx : Word)
  | btLock
  | btTryLock
  | btUnlock
  | btDestroyLock
  | btModifyAtom (edx : Word)
  | btWaitAtom (edx : Word)
  | btCmpxchgAtom (ecx edx : Word)
  | btReadAtom (ecx : Word)
  | btFclose
  | btFwrite (ecx edx : Word)
  | btFread (ecx edx : Word)
  | btFioctl (edx : Word)
  | btFseek (ecx : Word)
  | btFflush
  | btMmap (edx : Word)
  | btDclose
  | btDwrite (ecx : Word)
  | btDread (ecx : Word)
  | btDseek
  | btUnblockThread
  | btWaitThread
  | btThreadAbort
  /-- `bt_rtc_api::ResetTimer`. -/
  | resetTimer
  deriving DecidableEq, Repr

namespace Context

variable (c : Context) (n : ℕ) (h : Handle)

/-- `proc_get_handle` for the current process. -/
def getHandle : HandleInfo := c.kernel.procGetHandle h c.machine.current

/-- `is_safe_ptr` for the current process. -/
def isSafePtr (ptr size : Word) : Bool := c.machine.isSafePtr n ptr size c.machine.current

/-- `sizeof(directory_entry)`. -/
def directoryEntrySize : Word := 280#32

/-- Using the pointer of a handle, as an object of some kind, when it has the type. -/
def useTyped (kind : ObjectKind) (type : UInt32) : List (ObjectKind × HandleInfo) :=
  if (c.getHandle h).type = type then [(kind, c.getHandle h)] else []

/-- The use of what `proc_get_lock`, `proc_get_file` and `proc_get_dir` return, if it is not
`NULL`. -/
def useObject (kind : ObjectKind) (type : UInt32) : List (ObjectKind × HandleInfo) :=
  if (c.getHandle h).value ≠ 0 then c.useTyped h kind type else []

/-- `proc_get_lock` and a use of the lock. -/
def useLock : List (ObjectKind × HandleInfo) := c.useObject h .lock typeLock

/-- `proc_get_file` and a use of the file. -/
def useFile : List (ObjectKind × HandleInfo) := c.useObject h .file typeFile

/-- `proc_get_dir` and a use of the directory. -/
def useDir : List (ObjectKind × HandleInfo) := c.useObject h .directory typeDirectory

/-- The calls for atoms: `h.open && h.type == kernel_handle_types::atom && ...`. -/
def useAtom (safe : Bool) : List (ObjectKind × HandleInfo) :=
  if (c.getHandle h).isOpen && safe then c.useTyped h .atom typeAtom else []

/-- `close_handle`. -/
def closeHandle : List (ObjectKind × HandleInfo) :=
  match (c.getHandle h).close with
  | some f => if (c.getHandle h).isOpen then [(closes f, c.getHandle h)] else []
  | none => []

/-- The loop of `proc_get_thread_handle`, which looks at the ids of the threads up to the one it
is after. -/
def threadLoop (threadId : UInt64) : List (Handle × HandleInfo) → List (ObjectKind × HandleInfo)
  | [] => []
  | e :: es =>
      if e.2.type = typeThread then
        (.thread, e.2) ::
          if c.kernel.threadIds e.2.value = threadId then [] else threadLoop threadId es
      else threadLoop threadId es

/-- `proc_remove_thread`. -/
def removeThread (threadId : UInt64) : List (ObjectKind × HandleInfo) :=
  match c.kernel.procs c.machine.current with
  | none => []
  | some p =>
      let found := c.kernel.procGetThreadHandle threadId c.machine.current
      c.threadLoop threadId p.handles.entries ++
        -- The id that the handle points to is deleted.
        if found ≠ 0 then [(.thread, c.getHandle found)] else []

/-- The handles whose pointers a call dereferences, and as what. -/
def uses : HandleCall → List (ObjectKind × HandleInfo)
  | .btClosehandle =>
      if (c.getHandle h).isOpen ∧ (c.getHandle h).type ≠ typeInvalid then c.closeHandle h else []
  | .btQueryhandle => []
  | .btShmId ecx =>
      -- The size that is checked is that of a pointer.
      if c.isSafePtr n ecx 4 && (c.getHandle h).isOpen then c.useTyped h .shmSpace typeShmSpace
      else []
  | .btLock => c.useLock h
  | .btTryLock => c.useLock h
  | .btUnlock => c.useLock h
  | .btDestroyLock => c.useLock h
  | .btModifyAtom edx => c.useAtom h (c.isSafePtr n edx 8)
  | .btWaitAtom edx => c.useAtom h (c.isSafePtr n edx 8)
  | .btCmpxchgAtom ecx edx => c.useAtom h (c.isSafePtr n ecx 8 && c.isSafePtr n edx 8)
  | .btReadAtom ecx => c.useAtom h (c.isSafePtr n ecx 8)
  | .btFclose => c.useFile h
  | .btFwrite ecx edx => if c.isSafePtr n edx ecx then c.useFile h else []
  | .btFread ecx edx => if c.isSafePtr n edx ecx then c.useFile h else []
  | .btFioctl edx =>
      if c.isSafePtr n edx 8 &&
          (c.machine.read32 edx = 0 ||
            c.isSafePtr n (c.machine.read32 (edx + 4)) (c.machine.read32 edx)) then
        c.useFile h
      else []
  | .btFseek ecx => if c.isSafePtr n ecx 8 then c.useFile h else []
  | .btFflush => c.useFile h
  | .btMmap edx =>
      if c.isSafePtr n edx 8 &&
          c.isSafePtr n (c.machine.read32 (edx + 4)) (c.machine.read32 edx) then
        c.useFile h
      else []
  | .btDclose => c.useDir h
  | .btDwrite ecx => if c.isSafePtr n ecx directoryEntrySize then c.useDir h else []
  | .btDread ecx => if c.isSafePtr n ecx directoryEntrySize then c.useDir h else []
  | .btDseek => c.useDir h
  | .btUnblockThread => c.useTyped h .thread typeThread
  | .btWaitThread => c.useTyped h .thread typeThread
  | .btThreadAbort =>
      c.useTyped h .thread typeThread ++
        if (c.getHandle h).type = typeThread ∧ c.kernel.threadIds (c.getHandle h).value ≠ 0 then
          c.removeThread (c.kernel.threadIds (c.getHandle h).value)
        else []
  -- Any handle that is open will do.
  | .resetTimer => if (c.getHandle h).isOpen then [(.timer, c.getHandle h)] else []

/-- The handle has been created for an object of that kind. -/
def IsOf (info : HandleInfo) (kind : ObjectKind) : Prop :=
  ∃ value, info = ObjectKind.create c.extensionId kind value

/-- The call uses the pointers of handles as what they were created for. -/
def TypeSafe (call : HandleCall) : Prop := ∀ u ∈ c.uses n h call, c.IsOf u.2 u.1

/-! ## The checks are right -/

variable {c n h} {info : HandleInfo} {kind : ObjectKind} {type : UInt32}

lemma getHandle_of_mem {p : Process} (hp : c.kernel.procs c.machine.current = some p)
    (hmem : (h, info) ∈ p.handles.entries) : c.getHandle h = info := by
  have hfound := OrderedMap.lookup_of_mem (m := ⟨_, (c.wellFormed _ p hp).unique⟩) hmem
  rw [OrderedMap.lookup, ← Ministl.Map.get?_eq_lookup] at hfound
  rw [getHandle, Kernel.procGetHandle, hp]
  dsimp only
  rw [hfound, getD_some]

/-- What `proc_get_handle` returns: an entry of the table, or `invalid_handle`. -/
lemma getHandle_cases (c : Context) (h : Handle) : c.getHandle h = invalidHandle ∨
    ∃ kind, c.IsOf (c.getHandle h) kind ∧ (kind = .timer → c.extensionId ≠ 0) := by
  cases hp : c.kernel.procs c.machine.current with
  | none =>
    refine .inl ?_
    rw [getHandle, Kernel.procGetHandle, hp]
  | some p =>
    have hget : c.getHandle h = (p.handles.get? h).getD invalidHandle := by
      rw [getHandle, Kernel.procGetHandle, hp]
    cases hfound : p.handles.get? h with
    | none =>
      rw [hget, hfound]
      exact .inl rfl
    | some info =>
      rw [Ministl.Map.get?_eq_lookup] at hfound
      obtain ⟨l, l', heq, -⟩ := lookup_eq_some_iff.mp hfound
      have hmem : (h, info) ∈ p.handles.entries := by
        rw [heq]
        simp
      obtain ⟨kind, value, hcreated, htimer⟩ := c.created _ p hp _ hmem
      rw [getHandle_of_mem hp hmem]
      exact .inr ⟨kind, ⟨value, hcreated⟩, htimer⟩

lemma type_eq (hk : kind ≠ .timer) (extensionId : UInt16) :
    kind.type extensionId = kind.type 0 := by
  cases kind <;> first | exact absurd rfl hk | rfl

lemma type_kernel (hk : kind ≠ .timer) :
    (kind.type 0).toNat ≤ 8 ∧ kind.type 0 ≠ typeInvalid ∧
      ∀ kind', kind' ≠ .timer → kind'.type 0 = kind.type 0 → kind' = kind := by
  cases kind <;> first
    | exact absurd rfl hk
    | refine ⟨by decide, by decide, fun kind' hk' heq => ?_⟩
      cases kind' <;> first | rfl | exact absurd rfl hk' | exact absurd heq (by decide)

lemma lt_type_timer {extensionId : UInt16} (hid : extensionId ≠ 0) :
    65536 < (ObjectKind.timer.type extensionId).toNat := by
  have hpos : extensionId.toNat ≠ 0 := fun hz => hid (UInt16.toNat_inj.mp hz)
  have hlt := extensionId.toNat_lt
  have h16 : (16 : UInt32).toNat % 32 = 16 := rfl
  have h1 : (1 : UInt32).toNat = 1 := rfl
  rw [ObjectKind.type, UInt32.toNat_add, UInt32.toNat_shiftLeft, UInt16.toNat_toUInt32, h16, h1,
    Nat.shiftLeft_eq]
  omega

lemma IsOf.kind_eq {kind' : ObjectKind} (hinfo : c.IsOf info kind') (kind : ObjectKind)
    (htimer : kind' = .timer → c.extensionId ≠ 0) (hk : kind ≠ .timer)
    (htype : info.type = kind.type c.extensionId) : kind' = kind := by
  obtain ⟨value, rfl⟩ := hinfo
  have heq : kind'.type c.extensionId = kind.type c.extensionId := htype
  obtain ⟨hsmall, -, hinj⟩ := type_kernel hk
  rw [type_eq hk] at heq
  by_cases ht : kind' = .timer
  · subst ht
    have hlarge := lt_type_timer (htimer rfl)
    rw [heq] at hlarge
    omega
  · rw [type_eq ht] at heq
    exact hinj kind' ht heq

lemma useTyped_isOf (kind : ObjectKind) (hk : kind ≠ .timer) :
    ∀ u ∈ c.useTyped h kind (kind.type c.extensionId), c.IsOf u.2 u.1 := by
  intro u hu
  rw [useTyped] at hu
  split at hu
  · rename_i htype
    obtain rfl := mem_singleton.mp hu
    rcases getHandle_cases c h with hnone | ⟨kind', hof, htimer⟩
    · rw [hnone, type_eq hk] at htype
      exact absurd htype.symm (type_kernel hk).2.1
    · exact hof.kind_eq kind htimer hk htype ▸ hof
  · cases hu

lemma useObject_isOf (kind : ObjectKind) (hk : kind ≠ .timer) :
    ∀ u ∈ c.useObject h kind (kind.type c.extensionId), c.IsOf u.2 u.1 := by
  intro u hu
  rw [useObject] at hu
  split at hu
  · exact useTyped_isOf kind hk u hu
  · cases hu

lemma isOf_ite {P : Prop} [Decidable P] {l : List (ObjectKind × HandleInfo)}
    (hl : ∀ u ∈ l, c.IsOf u.2 u.1) : ∀ u ∈ (if P then l else []), c.IsOf u.2 u.1 := by
  intro u hu
  split at hu
  · exact hl u hu
  · cases hu

lemma useLock_isOf : ∀ u ∈ c.useLock h, c.IsOf u.2 u.1 :=
  useObject_isOf .lock (by decide)

lemma useFile_isOf : ∀ u ∈ c.useFile h, c.IsOf u.2 u.1 :=
  useObject_isOf .file (by decide)

lemma useDir_isOf : ∀ u ∈ c.useDir h, c.IsOf u.2 u.1 :=
  useObject_isOf .directory (by decide)

lemma useAtom_isOf (safe : Bool) : ∀ u ∈ c.useAtom h safe, c.IsOf u.2 u.1 :=
  isOf_ite (useTyped_isOf .atom (by decide))

lemma useThread_isOf : ∀ u ∈ c.useTyped h .thread typeThread, c.IsOf u.2 u.1 :=
  useTyped_isOf .thread (by decide)

lemma closeHandle_isOf : ∀ u ∈ c.closeHandle h, c.IsOf u.2 u.1 := by
  intro u hu
  rcases getHandle_cases c h with hnone | ⟨kind, hof, -⟩
  · rw [closeHandle, hnone] at hu
    cases hu
  · have hclose : (c.getHandle h).close = some kind.close := by
      obtain ⟨value, hvalue⟩ := hof
      rw [hvalue]
      rfl
    have hkind : closes kind.close = kind := by
      cases kind <;> rfl
    rw [closeHandle, hclose] at hu
    dsimp only at hu
    split at hu
    · obtain rfl := mem_singleton.mp hu
      rw [hkind]
      exact hof
    · cases hu

/-- The loop over the handles looks at the ids of threads only. -/
lemma threadLoop_isOf (threadId : UInt64) {es : List (Handle × HandleInfo)}
    (hes : ∀ e ∈ es, ∃ kind value, e.2 = ObjectKind.create c.extensionId kind value ∧
      (kind = .timer → c.extensionId ≠ 0)) : ∀ u ∈ c.threadLoop threadId es, c.IsOf u.2 u.1 := by
  induction es with
  | nil =>
    intro u hu
    cases hu
  | cons e es ih =>
    rw [forall_mem_cons] at hes
    intro u hu
    rw [threadLoop] at hu
    split at hu
    · rename_i htype
      rcases mem_cons.mp hu with rfl | hu
      · obtain ⟨kind, value, hcreated, htimer⟩ := hes.1
        have hof : c.IsOf e.2 kind := ⟨value, hcreated⟩
        have hkind := hof.kind_eq .thread htimer (by decide) htype
        exact hkind ▸ hof
      · split at hu
        · cases hu
        · exact ih hes.2 u hu
    · exact ih hes.2 u hu

lemma removeThread_isOf (threadId : UInt64) : ∀ u ∈ c.removeThread threadId, c.IsOf u.2 u.1 := by
  intro u hu
  rw [removeThread] at hu
  split at hu
  · cases hu
  · rename_i p hp
    rcases mem_append.mp hu with hu | hu
    · exact threadLoop_isOf threadId (c.created _ p hp) u hu
    · split at hu
      · rename_i hfound
        obtain rfl := mem_singleton.mp hu
        -- The handle found is one of a thread, and the only one of its number.
        rw [Kernel.procGetThreadHandle, hp] at hfound ⊢
        dsimp only at hfound ⊢
        cases hfind : p.handles.entries.find? _ with
        | none =>
          rw [hfind] at hfound
          exact absurd rfl hfound
        | some e =>
          have hmem := mem_of_find?_eq_some hfind
          have htype := find?_some hfind
          simp only [decide_eq_true_eq] at htype
          obtain ⟨kind, value, hcreated, htimer⟩ := c.created _ p hp e hmem
          have hof : c.IsOf e.2 kind := ⟨value, hcreated⟩
          have hkind := hof.kind_eq .thread htimer (by decide) htype.1
          rw [map_some, getD_some, getHandle_of_mem hp hmem]
          exact hkind ▸ hof
      · cases hu

/-- The only handle of the only process is number 1, of a file. -/
def fileHandles : Ministl.Map Handle HandleInfo where
  size := 1
  capacity := 64
  data _ := (1, ObjectKind.create 1 .file 4096)

/-- The process with that handle makes a call. -/
def fileOnly : Context where
  machine := {
    current := 1
    mem := fun _ _ => 0
    resolve := fun _ _ => 0
    exist := fun _ => true
    arg := fun _ => 0
    env := fun _ => 0
    mallocs := fun _ => true }
  kernel := {
    procs := fun pid => if pid = 1 then some ⟨1, false, fileHandles⟩ else none
    threadIds := fun _ => 0 }
  extensionId := 1
  wellFormed pid p hp := by
    rw [Option.ite_none_right_eq_some] at hp
    obtain rfl := Option.some.inj hp.2
    exact ⟨by unfold Ministl.Map.Bounded; decide, by decide⟩
  created pid p hp e he := by
    rw [Option.ite_none_right_eq_some] at hp
    obtain rfl := Option.some.inj hp.2
    obtain rfl := List.mem_singleton.mp he
    exact ⟨.file, 4096, rfl, fun htimer => by cases htimer⟩

end Context

end UserApi
