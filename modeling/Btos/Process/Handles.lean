import Btos.Lib.TransitionSystem
import Btos.Util.Map

/-!
# Handle tables

The handles of a process are entries of a `ministl` map from handle numbers to
`bt_handle_info`; new numbers come from a 32-bit counter that wraps and skips 0 and the numbers
in use.

What the operations of a table are for is said by a ledger, which is kept by looking at the
operations and their results only: `Ledger.record`. `handles_of_reachable` says that the tables
agree with it after any sequence of operations: `proc_get_handle` returns what was stored last,
`proc_add_handle` returns a number that is not 0 and not in use, if there is one, and no operation
touches another live handle.
-/

open Function List Option

namespace Handles

/-- `pid_t`. -/
abbrev Pid := ℕ

/-- `handle_t`. -/
abbrev Handle := UInt32

/-- The address of a kernel object. -/
abbrev Ptr := ℕ

/-- The functions that are used as `close`. -/
inductive CloseFn where
  | closeLockHandle
  | closeFileHandle
  | closeDirHandle
  | closeThreadHandle
  | closeFilemapHandle
  | closeShmSpaceHandle
  | closeShmMapHandle
  | atomDestroy
  | closeTimer
  deriving DecidableEq, Repr

/-- `bt_handle_info`. -/
structure HandleInfo where
  type : UInt32
  /-- `open`. -/
  isOpen : Bool
  value : Ptr
  close : Option CloseFn
  deriving DecidableEq, Repr

/-! The values of `kernel_handle_types`. -/

/-- `kernel_handle_types::invalid`. -/
def typeInvalid : UInt32 := 0

/-- `kernel_handle_types::lock`. -/
def typeLock : UInt32 := 1

/-- `kernel_handle_types::file`. -/
def typeFile : UInt32 := 2

/-- `kernel_handle_types::directory`. -/
def typeDirectory : UInt32 := 3

/-- `kernel_handle_types::thread`. -/
def typeThread : UInt32 := 4

/-- `kernel_handle_types::memory_mapping`. -/
def typeMemoryMapping : UInt32 := 5

/-- `kernel_handle_types::shm_space`. -/
def typeShmSpace : UInt32 := 6

/-- `kernel_handle_types::shm_mapping`. -/
def typeShmMapping : UInt32 := 7

/-- `kernel_handle_types::atom`. -/
def typeAtom : UInt32 := 8

/-- `invalid_handle`. -/
def invalidHandle : HandleInfo := ⟨typeInvalid, false, 0, none⟩

/-- `create_handle`. -/
def createHandle (type : UInt32) (value : Ptr) (close : CloseFn) : HandleInfo :=
  ⟨type, true, value, some close⟩

/-- What the handle functions use of `proc_process`. -/
structure Process where
  handlecounter : Handle
  /-- The status is `Ending`. -/
  ending : Bool
  handles : Ministl.Map Handle HandleInfo

/-- The processes and the thread ids that handles of threads point to. -/
structure Kernel where
  procs : Pid → Option Process
  threadIds : Ptr → UInt64

/-! ## The functions of `process.cpp` -/

/-- The search for a number in `proc_add_handle`, at most `n` rounds of it. -/
def nextHandle (handles : Ministl.Map Handle HandleInfo) : ℕ → Handle → Option Handle
  | 0, _ => none
  | n + 1, counter =>
      let ret := counter + 1
      if ret = 0 ∨ handles.hasKey ret then nextHandle handles n ret else some ret

/-- After so many rounds the counter is back where it was, and the search goes on forever. -/
def searchRounds : ℕ := 2 ^ 32

namespace Kernel

variable (s : Kernel)

/-- `proc_add_handle`, `none` if it does not return. -/
def procAddHandle (handle : HandleInfo) (pid : Pid) : Option (Handle × Kernel) :=
  match s.procs pid with
  | none => some (0, s)
  | some p =>
      (nextHandle p.handles searchRounds p.handlecounter).map fun ret =>
        (ret, { s with procs := Function.update s.procs pid (some { p with
          handlecounter := ret
          handles := p.handles.set ret handle }) })

/-- `proc_get_handle`. -/
def procGetHandle (h : Handle) (pid : Pid) : HandleInfo :=
  match s.procs pid with
  | none => invalidHandle
  | some p => (p.handles.get? h).getD invalidHandle

/-- `proc_remove_handle`. -/
def procRemoveHandle (h : Handle) (pid : Pid) : Kernel :=
  match s.procs pid with
  | none => s
  | some p =>
      { s with procs := Function.update s.procs pid (some { p with handles := p.handles.erase h }) }

/-- `proc_get_thread_handle`: the first handle of a thread with the id. -/
def procGetThreadHandle (threadId : UInt64) (pid : Pid) : Handle :=
  match s.procs pid with
  | none => 0
  | some p =>
      ((p.handles.entries.find? fun e =>
        e.2.type = typeThread ∧ s.threadIds e.2.value = threadId).map Prod.fst).getD 0

/-- `proc_add_thread`; `ptr` is the address of the new copy of the id. -/
def procAddThread (threadId : UInt64) (ptr : Ptr) (pid : Pid) : Option (Handle × Kernel) :=
  let ret := s.procGetThreadHandle threadId pid
  if ret ≠ 0 then some (ret, s)
  else if (s.procs pid).any Process.ending then some (0, s)
  else
    let s := { s with threadIds := Function.update s.threadIds ptr threadId }
    s.procAddHandle (createHandle typeThread ptr .closeThreadHandle) pid

end Kernel

/-! ## Sequences of operations -/

/-- The operations. -/
inductive Op where
  | addHandle (handle : HandleInfo) (pid : Pid)
  | getHandle (h : Handle) (pid : Pid)
  | removeHandle (h : Handle) (pid : Pid)
  | addThread (threadId : UInt64) (ptr : Ptr) (pid : Pid)
  deriving DecidableEq, Repr

/-- What an operation returns. -/
inductive Result where
  | handle (h : Handle)
  | info (handle : HandleInfo)
  | void
  deriving DecidableEq, Repr

/-- An operation, `none` if it does not return. -/
def Kernel.perform (s : Kernel) : Op → Option (Result × Kernel)
  | .addHandle handle pid => (s.procAddHandle handle pid).map fun r => (.handle r.1, r.2)
  | .getHandle h pid => some (.info (s.procGetHandle h pid), s)
  | .removeHandle h pid => some (.void, s.procRemoveHandle h pid)
  | .addThread threadId ptr pid =>
      (s.procAddThread threadId ptr pid).map fun r => (.handle r.1, r.2)

/-- What is stored under the live handles of the processes. -/
abbrev Ledger := Pid → Handle → Option HandleInfo

/-- A note in the ledger. -/
def Ledger.set (L : Ledger) (pid : Pid) (h : Handle) (v : Option HandleInfo) : Ledger :=
  Function.update L pid (Function.update (L pid) h v)

lemma Ledger.set_apply (L : Ledger) (pid pid' : Pid) (h h' : Handle) (v : Option HandleInfo) :
    L.set pid h v pid' h' = if pid' = pid ∧ h' = h then v else L pid' h' := by
  rw [Ledger.set]
  by_cases hpid : pid' = pid
  · subst hpid
    rw [update_self, update_apply]
    simp only [true_and]
  · rw [update_of_ne hpid, if_neg fun hboth => hpid hboth.1]

/-- The ledger after an operation, from the operation and its result: a handle returned by
`proc_add_handle` is live and stores the given info; `proc_add_thread` may return a handle that
is live already. -/
def Ledger.record (L : Ledger) : Op → Result → Ledger
  | .addHandle handle pid, .handle h => if h = 0 then L else L.set pid h (some handle)
  | .removeHandle h pid, _ => L.set pid h none
  | .addThread _ ptr pid, .handle h =>
      if h = 0 ∨ L pid h ≠ none then L
      else L.set pid h (some (createHandle typeThread ptr .closeThreadHandle))
  | _, _ => L

/-- The kernel together with the ledger. -/
structure Recorded where
  kernel : Kernel
  ledger : Ledger

/-- A table whose buffer is in order and in which no handle has two entries. -/
structure Process.WellFormed (p : Process) : Prop where
  bounded : p.handles.Bounded
  unique : (p.handles.entries.map Prod.fst).Nodup

/-- The ledger says what is in the tables. -/
structure Recorded.Faithful (s : Recorded) : Prop where
  wellFormed : ∀ pid p, s.kernel.procs pid = some p → p.WellFormed
  lookup_eq : ∀ pid p, s.kernel.procs pid = some p → ∀ h,
    p.handles.entries.lookup h = s.ledger pid h
  missing : ∀ pid, s.kernel.procs pid = none → ∀ h, s.ledger pid h = none

/-- Any sequence of operations, from any tables and any values of the counters. -/
def handleCalls : System Recorded Op where
  init := Recorded.Faithful
  step s op := (s.kernel.perform op).map fun r => ⟨r.2, s.ledger.record op r.1⟩

/-! ## The search for a number -/

section Search

variable {handles : Ministl.Map Handle HandleInfo} {n : ℕ} {counter h : Handle}

lemma nextHandle_eq_some (hfound : nextHandle handles n counter = some h) :
    h ≠ 0 ∧ handles.entries.lookup h = none := by
  induction n generalizing counter with
  | zero => cases hfound
  | succ n ih =>
    rw [nextHandle] at hfound
    split at hfound
    · exact ih hfound
    · rename_i hgood
      cases hfound
      rw [not_or, Ministl.Map.hasKey_eq_isSome, not_isSome_iff_eq_none] at hgood
      exact hgood

/-- A search in vain has seen only 0 and numbers in use. -/
lemma nextHandle_eq_none (hnone : nextHandle handles n counter = none) (i : ℕ) (hi : i < n) :
    counter + UInt32.ofNat (i + 1) = 0 ∨
      (handles.entries.lookup (counter + UInt32.ofNat (i + 1))).isSome := by
  induction n generalizing counter i with
  | zero => omega
  | succ n ih =>
    rw [nextHandle] at hnone
    split at hnone
    · rename_i hbad
      cases i with
      | zero =>
        rw [Ministl.Map.hasKey_eq_isSome] at hbad
        exact hbad
      | succ i =>
        have hshift : counter + UInt32.ofNat (i + 1 + 1) = counter + 1 + UInt32.ofNat (i + 1) := by
          rw [UInt32.ofNat_add (i + 1) 1, UInt32.add_comm (UInt32.ofNat (i + 1)),
            ← UInt32.add_assoc]
          rfl
        rw [hshift]
        exact ih hnone i (by omega)
    · cases hnone

/-- If fewer numbers are in use than there are, the search ends. -/
lemma exists_nextHandle (hlen : handles.entries.length < 2 ^ 32 - 1) (counter : Handle) :
    ∃ h, nextHandle handles searchRounds counter = some h := by
  by_contra hnever
  have hnone : nextHandle handles searchRounds counter = none := by
    rw [eq_none_iff_forall_ne_some]
    exact fun h hfound => hnever ⟨h, hfound⟩
  -- In that many rounds the counter takes every value, so every number but 0 is in use.
  have hall (x : UInt32) : x = 0 ∨ x ∈ handles.entries.map Prod.fst := by
    have hx : counter + UInt32.ofNat ((x - counter - 1).toNat + 1) = x := by
      rw [UInt32.ofNat_add, UInt32.ofNat_toNat]
      show counter + (x - counter - 1 + 1) = x
      rw [UInt32.sub_add_cancel, UInt32.add_comm, UInt32.sub_add_cancel]
    have hseen := nextHandle_eq_none hnone (x - counter - 1).toNat (UInt32.toNat_lt _)
    rw [hx] at hseen
    rcases hseen with hzero | hused
    · exact .inl hzero
    · refine .inr ?_
      by_contra hnot
      rw [OrderedMap.lookup_eq_none_of_notMem_keys hnot] at hused
      cases hused
  have hsub : Finset.range (2 ^ 32) ⊆
      (0 :: (handles.entries.map Prod.fst).map UInt32.toNat).toFinset := by
    intro v hv
    have hval : (UInt32.ofNat v).toNat = v := UInt32.toNat_ofNat_of_lt' (Finset.mem_range.mp hv)
    rw [List.mem_toFinset, mem_cons]
    rcases hall (UInt32.ofNat v) with hzero | hmem
    · rw [hzero] at hval
      exact .inl hval.symm
    · exact .inr (List.mem_map.mpr ⟨_, hmem, hval⟩)
  have hcard := (Finset.card_le_card hsub).trans (toFinset_card_le _)
  rw [Finset.card_range, length_cons, length_map, length_map] at hcard
  omega

end Search

/-! ## The ledger is right -/

namespace Recorded

variable {s s' : Recorded} {pid : Pid} {p : Process} {h : Handle}

lemma ledger_set_of_ne_none {L : Ledger} {v : Option HandleInfo} (hfree : L pid h = none)
    {pid' : Pid} {h' : Handle} (hlive : L pid' h' ≠ none) : L.set pid h v pid' h' = L pid' h' := by
  rw [Ledger.set_apply, if_neg]
  rintro ⟨rfl, rfl⟩
  exact hlive hfree

section

variable (hs : s.Faithful)

include hs

/-- The live handles are the keys of the table. -/
lemma Faithful.ncard_live (hp : s.kernel.procs pid = some p) :
    {h | s.ledger pid h ≠ none}.ncard = p.handles.entries.length := by
  have hkeys : {h | s.ledger pid h ≠ none} = ↑(p.handles.entries.map Prod.fst).toFinset := by
    ext h
    rw [Set.mem_ofPred_eq, ← hs.lookup_eq pid p hp, coe_toFinset, Set.mem_ofPred_eq]
    constructor
    · intro hne
      by_contra hnot
      exact hne (OrderedMap.lookup_eq_none_of_notMem_keys hnot)
    · intro hmem
      obtain ⟨⟨k, v⟩, he, rfl⟩ := List.mem_map.mp hmem
      have hfound := OrderedMap.lookup_of_mem (m := ⟨_, (hs.wellFormed pid p hp).unique⟩) he
      rw [OrderedMap.lookup] at hfound
      rw [hfound]
      exact some_ne_none v
  rw [hkeys, Set.ncard_coe_finset, toFinset_card_of_nodup (hs.wellFormed pid p hp).unique,
    length_map]

lemma Faithful.procGetHandle (h : Handle) (pid : Pid) :
    s.kernel.procGetHandle h pid = (s.ledger pid h).getD invalidHandle := by
  unfold Kernel.procGetHandle
  split
  · rename_i hp
    rw [hs.missing pid hp, getD_none]
  · rename_i p hp
    rw [Ministl.Map.get?_eq_lookup, hs.lookup_eq pid p hp]

/-- One entry of one table changes, and so does the ledger. -/
lemma Faithful.update {p' : Process} {v : Option HandleInfo}
    (threadIds : Ptr → UInt64) (hwf : p'.WellFormed) (hself : p'.handles.entries.lookup h = v)
    (hother : ∀ x, x ≠ h → p'.handles.entries.lookup x = s.ledger pid x) :
    Faithful ⟨⟨Function.update s.kernel.procs pid (some p'), threadIds⟩, s.ledger.set pid h v⟩ := by
  refine ⟨fun pid' p1 hp1 => ?_, fun pid' p1 hp1 x => ?_, fun pid' hnone x => ?_⟩
  all_goals dsimp only at *
  all_goals by_cases hpid : pid' = pid
  · subst hpid
    rw [update_self] at hp1
    exact some.inj hp1 ▸ hwf
  · rw [update_of_ne hpid] at hp1
    exact hs.wellFormed pid' p1 hp1
  · subst hpid
    rw [update_self] at hp1
    cases hp1
    rw [Ledger.set, update_self]
    by_cases hx : x = h
    · rw [hx, update_self, hself]
    · rw [update_of_ne hx, hother x hx]
  · rw [update_of_ne hpid] at hp1
    rw [Ledger.set, update_of_ne hpid]
    exact hs.lookup_eq pid' p1 hp1 x
  · subst hpid
    rw [update_self] at hnone
    cases hnone
  · rw [update_of_ne hpid] at hnone
    rw [Ledger.set, update_of_ne hpid]
    exact hs.missing pid' hnone x

/-- `proc_add_handle` returns 0 if there is no such process, and a number that was not in use
otherwise; the ledger is right again afterwards. -/
lemma Faithful.procAddHandle {info : HandleInfo} {k : Kernel}
    (hadd : s.kernel.procAddHandle info pid = some (h, k)) :
    (h = 0 ∧ k = s.kernel) ∨ (h ≠ 0 ∧ s.ledger pid h = none ∧
      Faithful ⟨k, s.ledger.set pid h (some info)⟩) := by
  unfold Kernel.procAddHandle at hadd
  split at hadd
  · simp only [some.injEq, Prod.mk.injEq] at hadd
    exact .inl ⟨hadd.1.symm, hadd.2.symm⟩
  · rename_i p hp
    obtain ⟨ret, hret, heq⟩ := map_eq_some_iff.mp hadd
    simp only [Prod.mk.injEq] at heq
    obtain ⟨rfl, rfl⟩ := heq
    obtain ⟨hne, hfree⟩ := nextHandle_eq_some hret
    rw [hs.lookup_eq pid p hp] at hfree
    obtain ⟨hbounded, hunique⟩ := hs.wellFormed pid p hp
    refine .inr ⟨hne, hfree, hs.update s.kernel.threadIds ⟨hbounded.set ret info, ?_⟩ ?_ ?_⟩
    · rw [Ministl.Map.entries_set]
      exact OrderedMap.nodup_keys_putEntry ret info hunique
    · rw [Ministl.Map.entries_set]
      exact OrderedMap.lookup_put_self ret info ⟨_, hunique⟩
    · intro x hx
      rw [Ministl.Map.entries_set, ← hs.lookup_eq pid p hp]
      exact OrderedMap.lookup_put_of_ne info ⟨_, hunique⟩ hx

lemma Faithful.procRemoveHandle (h : Handle) (pid : Pid) :
    Faithful ⟨s.kernel.procRemoveHandle h pid, s.ledger.set pid h none⟩ := by
  unfold Kernel.procRemoveHandle
  split
  · rename_i hp
    have hsame : s.ledger.set pid h none = s.ledger := by
      rw [Ledger.set, ← hs.missing pid hp h, update_eq_self, update_eq_self]
    rw [hsame]
    exact hs
  · rename_i p hp
    obtain ⟨hbounded, hunique⟩ := hs.wellFormed pid p hp
    apply hs.update
    · refine ⟨hbounded.erase h, ?_⟩
      rw [Ministl.Map.entries_erase]
      exact ((OrderedMap.eraseEntry_sublist h _).map Prod.fst).nodup hunique
    · rw [Ministl.Map.entries_erase]
      exact OrderedMap.lookup_erase_self h ⟨_, hunique⟩
    · intro x hx
      rw [Ministl.Map.entries_erase, ← hs.lookup_eq pid p hp]
      exact OrderedMap.lookup_erase_of_ne ⟨_, hunique⟩ hx

lemma Faithful.threadIds (threadIds : Ptr → UInt64) :
    Faithful ⟨{ s.kernel with threadIds := threadIds }, s.ledger⟩ :=
  ⟨hs.wellFormed, hs.lookup_eq, hs.missing⟩

/-- A handle that `proc_get_thread_handle` returns is live. -/
lemma Faithful.procGetThreadHandle {threadId : UInt64}
    (hne : s.kernel.procGetThreadHandle threadId pid ≠ 0) :
    s.ledger pid (s.kernel.procGetThreadHandle threadId pid) ≠ none := by
  unfold Kernel.procGetThreadHandle at hne ⊢
  split at hne
  · exact absurd rfl hne
  · rename_i p hp
    cases hfind : p.handles.entries.find? _ with
    | none =>
      rw [hfind] at hne
      exact absurd rfl hne
    | some e =>
      have hmem := List.mem_of_find?_eq_some hfind
      have hfound := OrderedMap.lookup_of_mem (m := ⟨_, (hs.wellFormed pid p hp).unique⟩) hmem
      rw [OrderedMap.lookup, hs.lookup_eq pid p hp] at hfound
      rw [map_some, getD_some, hfound]
      exact some_ne_none _

/-- An operation keeps the ledger right, and touches no live handle but the one it removes. -/
lemma Faithful.perform {op : Op} {r : Result} {k : Kernel}
    (hop : s.kernel.perform op = some (r, k)) :
    Faithful ⟨k, s.ledger.record op r⟩ ∧ ∀ pid h, s.ledger pid h ≠ none →
      op ≠ .removeHandle h pid → s.ledger.record op r pid h = s.ledger pid h := by
  cases op with
  | addHandle info pid =>
    obtain ⟨⟨h, k'⟩, hadd, heq⟩ := map_eq_some_iff.mp hop
    simp only [Prod.mk.injEq] at heq
    obtain ⟨rfl, rfl⟩ := heq
    rw [Ledger.record]
    rcases hs.procAddHandle hadd with ⟨rfl, rfl⟩ | ⟨hne, hfree, hfaithful⟩
    · rw [if_pos rfl]
      exact ⟨hs, fun _ _ _ _ => rfl⟩
    · rw [if_neg hne]
      exact ⟨hfaithful, fun _ _ hlive _ => ledger_set_of_ne_none hfree hlive⟩
  | getHandle h pid =>
    simp only [Kernel.perform, some.injEq, Prod.mk.injEq] at hop
    obtain ⟨rfl, rfl⟩ := hop
    exact ⟨hs, fun _ _ _ _ => rfl⟩
  | removeHandle h pid =>
    simp only [Kernel.perform, some.injEq, Prod.mk.injEq] at hop
    obtain ⟨rfl, rfl⟩ := hop
    refine ⟨hs.procRemoveHandle h pid, fun pid' h' _ hne => ?_⟩
    rw [Ledger.record, Ledger.set_apply, if_neg]
    rintro ⟨rfl, rfl⟩
    exact hne rfl
  | addThread threadId ptr pid =>
    obtain ⟨⟨h, k'⟩, hadd, heq⟩ := map_eq_some_iff.mp hop
    simp only [Prod.mk.injEq] at heq
    obtain ⟨rfl, rfl⟩ := heq
    rw [Ledger.record]
    unfold Kernel.procAddThread at hadd
    dsimp only at hadd
    split at hadd
    · -- The thread has a handle already.
      rename_i hne
      simp only [some.injEq, Prod.mk.injEq] at hadd
      obtain ⟨rfl, rfl⟩ := hadd
      rw [if_pos (.inr (hs.procGetThreadHandle hne))]
      exact ⟨hs, fun _ _ _ _ => rfl⟩
    · split at hadd
      · simp only [some.injEq, Prod.mk.injEq] at hadd
        obtain ⟨rfl, rfl⟩ := hadd
        rw [if_pos (.inl rfl)]
        exact ⟨hs, fun _ _ _ _ => rfl⟩
      · have hs1 := hs.threadIds (Function.update s.kernel.threadIds ptr threadId)
        rcases hs1.procAddHandle hadd with ⟨rfl, rfl⟩ | ⟨hne, hfree, hfaithful⟩
        · rw [if_pos (.inl rfl)]
          exact ⟨hs1, fun _ _ _ _ => rfl⟩
        · rw [if_neg (not_or.mpr ⟨hne, not_not.mpr hfree⟩)]
          exact ⟨hfaithful, fun _ _ hlive _ => ledger_set_of_ne_none hfree hlive⟩

lemma Faithful.step {op : Op} (hstep : handleCalls.step s op = some s') :
    s'.Faithful := by
  obtain ⟨⟨r, k⟩, hop, rfl⟩ := map_eq_some_iff.mp hstep
  exact (hs.perform hop).1

end

/-- After any sequence of operations: `proc_get_handle` returns what is stored under a live
handle and `invalid_handle` otherwise, `proc_add_handle` returns a number other than 0 that is
not in use as long as fewer than `2 ^ 32 - 1` are, and no operation affects another live
handle. -/
theorem handles_of_reachable (hs : handleCalls.Reachable s) :
    (∀ h pid, s.kernel.procGetHandle h pid = (s.ledger pid h).getD invalidHandle) ∧
      (∀ info pid, (s.kernel.procs pid).isSome →
        {h | s.ledger pid h ≠ none}.ncard < 2 ^ 32 - 1 →
        ∃ h k, s.kernel.procAddHandle info pid = some (h, k) ∧ h ≠ 0 ∧
          s.ledger pid h = none) ∧
      ∀ op r k, s.kernel.perform op = some (r, k) → ∀ pid h, s.ledger pid h ≠ none →
        op ≠ .removeHandle h pid → k.procGetHandle h pid = s.kernel.procGetHandle h pid := by
  have hfaithful : s.Faithful :=
    hs.invariant (fun _ hinit => hinit) fun _ _ _ hi _ hstep => Faithful.step hi hstep
  refine ⟨hfaithful.procGetHandle, fun info pid hp hfew => ?_, fun op r k hop pid h hlive hne => ?_⟩
  · obtain ⟨p, hp⟩ := isSome_iff_exists.mp hp
    rw [hfaithful.ncard_live hp] at hfew
    obtain ⟨h, hh⟩ := exists_nextHandle hfew p.handlecounter
    obtain ⟨hne, hfree⟩ := nextHandle_eq_some hh
    rw [hfaithful.lookup_eq pid p hp] at hfree
    obtain ⟨k, hk⟩ : ∃ k, s.kernel.procAddHandle info pid = some (h, k) := by
      rw [Kernel.procAddHandle, hp]
      dsimp only
      rw [hh, map_some]
      exact ⟨_, rfl⟩
    exact ⟨h, k, hk, hne, hfree⟩
  · obtain ⟨hafter, hkept⟩ := hfaithful.perform hop
    have hget := hafter.procGetHandle h pid
    dsimp only at hget
    rw [hget, hfaithful.procGetHandle h pid, hkept pid h hlive hne]

/-- A process without handles, whose counter is about to wrap. -/
def aboutToWrap : Recorded where
  kernel := {
    procs := Function.update (fun _ => none) 1
      (some ⟨0xFFFFFFFF, false, .empty fun _ => (0, invalidHandle)⟩)
    threadIds := fun _ => 0 }
  ledger _ _ := none

lemma aboutToWrap_faithful : aboutToWrap.Faithful := by
  refine ⟨fun pid p hp => ?_, fun pid p hp h => ?_, fun _ _ _ => rfl⟩
  all_goals
    have hpid : pid = 1 := by
      by_contra hne
      simp [aboutToWrap, hne] at hp
    subst hpid
    cases hp
  · exact ⟨Ministl.Map.empty_bounded _, nodup_nil⟩
  · rfl

/-- The next number is 1, since 0 is left out. -/
theorem handles_aboutToWrap : handleCalls.Reachable aboutToWrap ∧
    (∃ k, aboutToWrap.kernel.procAddHandle invalidHandle 1 = some (1, k)) ∧
    ∃ h k, aboutToWrap.kernel.procAddHandle invalidHandle 1 = some (h, k) ∧ h ≠ 0 ∧
      aboutToWrap.ledger 1 h = none := by
  have hreach : handleCalls.Reachable aboutToWrap := .init aboutToWrap_faithful
  refine ⟨hreach, ⟨_, rfl⟩, (handles_of_reachable hreach).2.1 invalidHandle 1 rfl ?_⟩
  simp [aboutToWrap]

end Recorded

end Handles
