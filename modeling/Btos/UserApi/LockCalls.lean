import Btos.Locks.Accounting
import Btos.Process.Handles

/-!
# Locks of user programs

`BT_CREATE_LOCK`, `BT_LOCK`, `BT_TRY_LOCK`, `BT_UNLOCK` and `BT_DESTROY_LOCK` hand the lock
functions of the kernel to user programs, by way of handles. The abort level of a thread is 1 in
a system call; the handlers take back what taking or releasing the lock does to it, since a thread
may own locks in user space.

Main results: `noPanic_of_reaches` and `exists_panic`.
-/

open Function Option

namespace UserLocks

open Handles Locks

/-- The handles, the locks and the threads. -/
structure State where
  kernel : Kernel
  locks : Locks.State
  /-- The addresses of the locks that have been created and not deleted. -/
  live : Finset Lptr
  /-- The process of a thread. -/
  pidOf : ThreadId → Pid

/-- How a call ends or is interrupted; `eax` is what it sets the register to. -/
inductive Outcome where
  | done (eax : Option UInt32) (s : State)
  | waits (s : State)
  | panics (p : Panic)

/-- The state that a call leaves, if it does not panic. -/
def Outcome.state? : Outcome → Option State
  | .done _ s => some s
  | .waits s => some s
  | .panics _ => none

/-- What may happen. -/
inductive Action where
  /-- `BT_CREATE_LOCK`; `l` is the address of the new lock. -/
  | createLock (t : ThreadId) (l : Lptr)
  | lock (t : ThreadId) (h : Handle)
  | tryLock (t : ThreadId) (h : Handle)
  | unlock (t : ThreadId) (h : Handle)
  /-- `BT_DESTROY_LOCK`; `garbage` is what becomes of the memory of the lock. -/
  | destroyLock (t : ThreadId) (h : Handle) (garbage : Lock)
  /-- The thread goes on with the call it is in. -/
  | resume (t : ThreadId)
  deriving DecidableEq, Repr

/-- The thread that makes the call. -/
def Action.caller : Action → ThreadId
  | .createLock t _ | .lock t _ | .tryLock t _ | .unlock t _ | .destroyLock t _ _ | .resume t => t

namespace State

variable (s : State)

/-- `proc_get_lock` for the process of a thread, `none` for `NULL`. -/
def procGetLock (t : ThreadId) (h : Handle) : Option Lptr :=
  let handle := s.kernel.procGetHandle h (s.pidOf t)
  if handle.type = typeLock ∧ handle.value ≠ 0 then some handle.value else none

/-- The rest of a handler after a lock function: `sch_abortable(abortable)`. -/
def finish (t : ThreadId) (abortable : Bool) (ret : Bool → Option UInt32) :
    Locks.Outcome → Outcome
  | .done b locks => .done (ret b) { s with locks := locks.schAbortable abortable t }
  | .waits locks => .waits { s with locks := locks }
  | .panics p => .panics p

/-- `BT_CREATE_LOCK`, `none` if `proc_add_handle` does not return. -/
def btCreateLock (t : ThreadId) (l : Lptr) : Option Outcome :=
  -- `new lock()` sets everything to 0.
  let locks := s.locks.modifyLock l fun _ => ⟨0, 0, false⟩
  (s.kernel.procAddHandle (createHandle typeLock l .closeLockHandle) (s.pidOf t)).map fun r =>
    .done (some r.1) { s with kernel := r.2, locks := locks, live := insert l s.live }

/-- `BT_LOCK`. -/
def btLock (t : ThreadId) (h : Handle) : Outcome :=
  match s.procGetLock t h with
  | none => .done none s
  | some l => s.finish t true (fun _ => none) (s.locks.takeLockExclusive l t)

/-- `BT_TRY_LOCK`. -/
def btTryLock (t : ThreadId) (h : Handle) : Outcome :=
  match s.procGetLock t h with
  | none => .done (some 0) s
  | some l =>
      match s.locks.tryTakeLockExclusive l t with
      | .done true locks => .done (some 1) { s with locks := locks.schAbortable true t }
      | .done false locks => .done (some 0) { s with locks := locks }
      | .waits locks => .waits { s with locks := locks }
      | .panics p => .panics p

/-- `BT_UNLOCK`. -/
def btUnlock (t : ThreadId) (h : Handle) : Outcome :=
  match s.procGetLock t h with
  | none => .done none s
  | some l => s.finish t false (fun _ => none) (s.locks.releaseLock l t)

/-- `BT_DESTROY_LOCK`. -/
def btDestroyLock (t : ThreadId) (h : Handle) (garbage : Lock) : Outcome :=
  match s.procGetLock t h with
  | none => .done none s
  | some l =>
      .done none { s with
        kernel := s.kernel.procRemoveHandle h (s.pidOf t)
        locks := s.locks.modifyLock l fun _ => garbage
        live := s.live.erase l }

/-- The rest of the call that a thread is in: only `BT_LOCK` waits in `take_lock_exclusive`, and
only `BT_UNLOCK` yields in `release_lock`. -/
def resume (t : ThreadId) : Outcome :=
  match (s.locks.thread t).phase with
  | .yielding _ => s.finish t false (fun _ => none) (s.locks.resume t)
  | _ => s.finish t true (fun _ => none) (s.locks.resume t)

/-- The outcome of an action, `none` where it cannot happen: a thread is in one call at a time and
has an id, and `new` returns memory that is not in use. -/
def perform : Action → Option Outcome
  | .createLock t l =>
      if (s.locks.thread t).phase = .outside ∧ l ≠ 0 ∧ l ≠ s.locks.schLock ∧ l ∉ s.live then
        s.btCreateLock t l
      else none
  | .lock t h => if t ≠ 0 ∧ (s.locks.thread t).phase = .outside then some (s.btLock t h) else none
  | .tryLock t h =>
      if t ≠ 0 ∧ (s.locks.thread t).phase = .outside then some (s.btTryLock t h) else none
  | .unlock t h =>
      if t ≠ 0 ∧ (s.locks.thread t).phase = .outside then some (s.btUnlock t h) else none
  | .destroyLock t h garbage =>
      if t ≠ 0 ∧ (s.locks.thread t).phase = .outside then some (s.btDestroyLock t h garbage)
      else none
  | .resume t =>
      if t ≠ 0 ∧ (s.locks.thread t).phase ≠ .outside then some (s.resume t) else none

/-- The state after an action; a panic ends the run. -/
def step (a : Action) : Option State := (s.perform a).bind Outcome.state?

/-- There are no locks of user programs yet, and the threads are as they come into a system
call. -/
structure Initial : Prop where
  handles : ∃ L, Recorded.Faithful ⟨s.kernel, L⟩ ∧
    ∀ pid h info, L pid h = some info → info.type ≠ typeLock
  active : s.locks.active = true
  schLock : (s.locks.lock s.locks.schLock).lockval = 0
  live : s.live = ∅
  thread : ∀ t, (s.locks.thread t).abortlevel = 1 ∧ (s.locks.thread t).phase = .outside

/-- The calls that a well-behaved program makes. -/
def Careful : Action → Prop
  | .lock t h => ∀ l, s.procGetLock t h = some l → (s.locks.lock l).lockval ≠ t
  | .unlock t h => ∀ l, s.procGetLock t h = some l → (s.locks.lock l).lockval = t
  | .destroyLock t h _ => ∀ l, s.procGetLock t h = some l →
      ∀ u exclusive b, (s.locks.thread u).phase ≠ .waiting exclusive l b
  | _ => True

end State

/-- User programs that call the lock functions. -/
def lockCalls : System State Action where
  init := State.Initial
  step := State.step

namespace State

variable {s s' : State} {t : ThreadId} {h : Handle} {l : Lptr} {lk : Lock} {th : Thread}

/-! ## The invariant -/

/-- A lock of a user program is free or has been taken once. -/
def LockOk (lk : Lock) : Prop := (lk.lockval = 0 ∧ lk.count = 0) ∨ (lk.lockval ≠ 0 ∧ lk.count = 1)

/-- The abort level of a thread fits to the place where it is. -/
def ThreadOk (s : State) (th : Thread) : Prop :=
  match th.phase with
  | .outside => th.abortlevel = 1
  | .waiting exclusive l changeabort =>
      exclusive = true ∧ changeabort = true ∧ th.abortlevel = 0 ∧ l ∈ s.live
  | .yielding l => th.abortlevel = 1 ∧ l ≠ s.locks.schLock

/-- The handles of locks are those of the live locks, each of one. -/
structure HandlesOk (kernel : Kernel) (live : Finset Lptr) (L : Ledger) : Prop where
  faithful : Recorded.Faithful ⟨kernel, L⟩
  mem : ∀ pid h info, L pid h = some info → info.type = typeLock → info.value ∈ live
  unique : ∀ pid h info pid' h' info', L pid h = some info → L pid' h' = some info' →
    info.type = typeLock → info'.type = typeLock → info.value = info'.value →
    pid = pid' ∧ h = h'

/-- What holds between the calls. -/
structure Inv (s : State) : Prop where
  handles : ∃ L, HandlesOk s.kernel s.live L
  active : s.locks.active = true
  schLock_free : (s.locks.lock s.locks.schLock).lockval = 0
  schLock_notMem : s.locks.schLock ∉ s.live
  lock : ∀ l ∈ s.live, LockOk (s.locks.lock l)
  thread : ∀ t, s.ThreadOk (s.locks.thread t)

variable {live : Finset Lptr} {L : Ledger}

/-- What `proc_get_lock` returns is in the ledger. -/
lemma HandlesOk.exists_info (hL : HandlesOk s.kernel live L) (hget : s.procGetLock t h = some l) :
    ∃ info, L (s.pidOf t) h = some info ∧ info.type = typeLock ∧ info.value = l := by
  have hlookup := hL.faithful.procGetHandle h (s.pidOf t)
  dsimp only at hlookup
  rw [State.procGetLock, ite_none_right_eq_some] at hget
  obtain ⟨⟨htype, -⟩, hvalue⟩ := hget
  rw [hlookup] at htype hvalue
  cases hinfo : L (s.pidOf t) h with
  | none =>
    rw [hinfo] at htype
    exact absurd htype (by decide)
  | some info =>
    rw [hinfo] at htype hvalue
    exact ⟨info, rfl, htype, some.inj hvalue⟩

/-- A new lock with its handle. -/
lemma HandlesOk.insert {kernel k : Kernel}
    (hL : HandlesOk kernel live L) (hfresh : l ∉ live) {pid : Pid} (hk : Recorded.Faithful
      ⟨k, L.set pid h (some (createHandle typeLock l .closeLockHandle))⟩) :
    HandlesOk k (insert l live)
      (L.set pid h (some (createHandle typeLock l .closeLockHandle))) := by
  refine ⟨hk, fun pid' h' info hinfo htype => ?_, ?_⟩
  · rw [Ledger.set_apply] at hinfo
    split at hinfo
    · cases hinfo
      exact Finset.mem_insert_self l live
    · exact Finset.mem_insert_of_mem (hL.mem pid' h' info hinfo htype)
  · intro pid1 h1 info1 pid2 h2 info2 hinfo1 hinfo2 htype1 htype2 hvalue
    rw [Ledger.set_apply] at hinfo1 hinfo2
    split at hinfo1 <;> split at hinfo2
    · rename_i heq1 heq2
      exact ⟨heq1.1.trans heq2.1.symm, heq1.2.trans heq2.2.symm⟩
    · -- The handles that were there are of other locks.
      cases hinfo1
      have hmem := hL.mem pid2 h2 info2 hinfo2 htype2
      rw [← hvalue] at hmem
      exact absurd hmem hfresh
    · cases hinfo2
      have hmem := hL.mem pid1 h1 info1 hinfo1 htype1
      rw [hvalue] at hmem
      exact absurd hmem hfresh
    · exact hL.unique pid1 h1 info1 pid2 h2 info2 hinfo1 hinfo2 htype1 htype2 hvalue

/-- A lock is deleted with its only handle. -/
lemma HandlesOk.erase (hL : HandlesOk s.kernel live L) (hget : s.procGetLock t h = some l) :
    HandlesOk (s.kernel.procRemoveHandle h (s.pidOf t)) (live.erase l)
      (L.set (s.pidOf t) h none) := by
  obtain ⟨info, hinfo, htype, rfl⟩ := hL.exists_info hget
  refine ⟨hL.faithful.procRemoveHandle h (s.pidOf t), fun pid' h' info' hinfo' htype' => ?_, ?_⟩
  · rw [Ledger.set_apply] at hinfo'
    split at hinfo'
    · cases hinfo'
    · rename_i hne
      refine Finset.mem_erase.mpr ⟨fun hvalue => hne ?_, hL.mem pid' h' info' hinfo' htype'⟩
      exact hL.unique pid' h' info' (s.pidOf t) h info hinfo' hinfo htype' htype hvalue
  · intro pid1 h1 info1 pid2 h2 info2 hinfo1 hinfo2 htype1 htype2 hvalue
    rw [Ledger.set_apply] at hinfo1 hinfo2
    split at hinfo1
    · cases hinfo1
    · split at hinfo2
      · cases hinfo2
      · exact hL.unique pid1 h1 info1 pid2 h2 info2 hinfo1 hinfo2 htype1 htype2 hvalue

/-- The call of `t` does not panic, it leaves everything in order, and when it is done the abort
level of `t` is 1. -/
def Good (t : ThreadId) : Outcome → Prop
  | .done _ s' => Inv s' ∧ (s'.locks.thread t).abortlevel = 1
  | .waits s' => Inv s'
  | .panics _ => False

lemma Initial.inv (h : s.Initial) : Inv s where
  handles := by
    obtain ⟨L, hfaithful, hnone⟩ := h.handles
    refine ⟨L, hfaithful, ?_, ?_⟩
    · exact fun pid h info hinfo htype => absurd htype (hnone pid h info hinfo)
    · exact fun pid h info _ _ _ hinfo _ htype => absurd htype (hnone pid h info hinfo)
  active := h.active
  schLock_free := h.schLock
  schLock_notMem := by simp [h.live]
  lock := by simp [h.live]
  thread t := by
    rw [ThreadOk, (h.thread t).2]
    exact (h.thread t).1

namespace Inv

lemma setLock (hs : Inv s) (hl : l ∈ s.live) (hlk : LockOk lk) :
    Inv { s with locks := { s.locks with lock := update s.locks.lock l lk } } where
  __ := hs
  schLock_free := by
    have hne : s.locks.schLock ≠ l := fun heq => hs.schLock_notMem (heq ▸ hl)
    dsimp only
    rw [update_of_ne hne]
    exact hs.schLock_free
  lock x hx := by
    dsimp only
    by_cases hxl : x = l
    · rw [hxl, update_self]
      exact hlk
    · rw [update_of_ne hxl]
      exact hs.lock x hx

lemma setThread (hs : Inv s) (hth : s.ThreadOk th) :
    Inv { s with locks := { s.locks with thread := update s.locks.thread t th } } where
  __ := hs
  thread u := by
    by_cases hu : u = t
    · subst hu
      dsimp only
      rw [update_self]
      exact hth
    · dsimp only
      rw [update_of_ne hu]
      exact hs.thread u

lemma put (hs : Inv s) {level : Int32} {ph : Phase} (hl : l ∈ s.live) (hlk : LockOk lk)
    (hth : s.ThreadOk { s.locks.thread t with abortlevel := level, phase := ph }) :
    Inv { s with locks := s.locks.put l lk t level ph } :=
  (hs.setLock hl hlk).setThread hth

lemma ne_schLock (hs : Inv s) (hl : l ∈ s.live) : l ≠ s.locks.schLock :=
  fun heq => hs.schLock_notMem (heq ▸ hl)

lemma procGetLock_mem (hs : Inv s) (hget : s.procGetLock t h = some l) : l ∈ s.live := by
  obtain ⟨L, hL⟩ := hs.handles
  obtain ⟨info, hinfo, htype, rfl⟩ := hL.exists_info hget
  exact hL.mem _ _ info hinfo htype

end Inv

lemma put_schAbortable (s : Locks.State) {level : Int32} {ph : Phase} (b : Bool) :
    (s.put l lk t level ph).schAbortable b t = s.put l lk t
      (Locks.State.nextAbortlevel b level) ph := by
  simp [Locks.State.schAbortable, Locks.State.modifyThread, Locks.State.put]

lemma put_abortlevel (s : Locks.State) {level : Int32} {ph : Phase} :
    ((s.put l lk t level ph).thread t).abortlevel = level := by
  simp [Locks.State.put]

/-! ## The calls -/

open Locks.State (nextAbortlevel finishTake_eq tryOnce_eq schSetblock_eq releaseLock_eq
  resume_waiting_eq)

lemma nextAbortlevel_values : nextAbortlevel false 1 = 2 ∧ nextAbortlevel true 2 = 1 ∧
    nextAbortlevel true 1 = 0 ∧ nextAbortlevel false 0 = 1 := by
  decide

namespace Inv

section

variable (hs : Inv s)
include hs

lemma outside (hout : (s.locks.thread t).phase = .outside) : (s.locks.thread t).abortlevel = 1 := by
  have hth := hs.thread t
  rw [ThreadOk, hout] at hth
  exact hth

lemma count_eq_zero (hl : l ∈ s.live) (hfree : (s.locks.lock l).lockval = 0) :
    (s.locks.lock l).count = 0 := by
  rcases hs.lock l hl with hlk | hlk
  · exact hlk.2
  · exact absurd hfree hlk.1

lemma taken (hl : l ∈ s.live) (ht : t ≠ 0) (waiting : Bool)
    (hout : (s.locks.thread t).phase = .outside) (eax : Option UInt32) :
    Good t (.done eax { s with locks := (s.locks.put l ⟨t, 1, waiting⟩ t
      (nextAbortlevel false (s.locks.thread t).abortlevel)
      (s.locks.thread t).phase).schAbortable true t }) := by
  obtain ⟨h12, h21, -, -⟩ := nextAbortlevel_values
  rw [put_schAbortable, hs.outside hout, h12, h21]
  refine ⟨hs.put hl (.inr ⟨ht, rfl⟩) ?_, put_abortlevel _⟩
  rw [ThreadOk, hout]

section

variable (ht : t ≠ 0) (hout : (s.locks.thread t).phase = .outside)
include ht hout

lemma btLock (hcareful : s.Careful (.lock t h)) : Good t (s.btLock t h) := by
  rw [State.btLock]
  split
  · exact ⟨hs, hs.outside hout⟩
  · rename_i l hget
    have hl := hs.procGetLock_mem hget
    have hown : ¬ ((s.locks.lock l).lockval = t ∧ t ≠ 0) := fun hboth => hcareful l hget hboth.1
    rw [Locks.State.takeLockExclusive, hs.active, Bool.not_true, if_neg Bool.false_ne_true,
      if_neg hown, if_neg ht, Locks.State.takeLoop]
    by_cases hfree : (s.locks.lock l).lockval = 0
    · rw [if_pos hfree, finishTake_eq true (hs.ne_schLock hl) (hs.count_eq_zero hl hfree),
        if_neg ht]
      exact hs.taken hl ht false hout none
    · -- The scheduler's lock is free, so there is no deadlock.
      have hsch : l ≠ s.locks.schLock ∧ (s.locks.lock s.locks.schLock).lockval ≠ t := by
        rw [hs.schLock_free]
        exact ⟨hs.ne_schLock hl, Ne.symm ht⟩
      have h10 : (1 : Int32) ≠ 0 := by decide
      rw [if_neg hfree, if_pos hsch, schSetblock_eq, hs.outside hout, if_pos h10,
        nextAbortlevel_values.2.2.1]
      apply hs.put hl
      · exact hs.lock l hl
      · exact ⟨rfl, rfl, rfl, hl⟩

lemma btTryLock : Good t (s.btTryLock t h) := by
  rw [State.btTryLock]
  split
  · exact ⟨hs, hs.outside hout⟩
  · rename_i l hget
    have hl := hs.procGetLock_mem hget
    rw [Locks.State.tryTakeLockExclusive, hs.active, Bool.not_true, if_neg Bool.false_ne_true]
    split_ifs with hown
    · exact ⟨hs, hs.outside hout⟩
    · by_cases hfree : (s.locks.lock l).lockval = 0
      · rw [tryOnce_eq (hs.ne_schLock hl) hfree (hs.count_eq_zero hl hfree), if_neg ht]
        exact hs.taken hl ht _ hout (some 1)
      · rw [Locks.State.tryOnce, if_neg hfree]
        exact ⟨hs, hs.outside hout⟩

lemma btUnlock (hcareful : s.Careful (.unlock t h)) : Good t (s.btUnlock t h) := by
  rw [State.btUnlock]
  split
  · exact ⟨hs, hs.outside hout⟩
  · rename_i l hget
    have hl := hs.procGetLock_mem hget
    have hown := hcareful l hget
    have hcount : (s.locks.lock l).count = 1 := by
      rcases hs.lock l hl with hlk | hlk
      · exact absurd (hown.symm.trans hlk.1) ht
      · exact hlk.2
    have hlk : (⟨0, 0, (s.locks.lock l).waiting⟩ : Lock) =
        ⟨if (s.locks.lock l).count - 1 = 0 then 0 else t, (s.locks.lock l).count - 1,
          (s.locks.lock l).waiting⟩ := by
      rw [hcount]
      rfl
    have hne : (s.locks.lock l).count ≠ 0 := by
      rw [hcount]
      decide
    rw [releaseLock_eq (hs.ne_schLock hl) hs.active hown hne hlk, hs.outside hout]
    obtain ⟨-, -, h10, h01⟩ := nextAbortlevel_values
    split
    · apply hs.put hl (.inl ⟨rfl, rfl⟩)
      exact ⟨rfl, hs.ne_schLock hl⟩
    · rw [finish, put_schAbortable, h10, h01]
      refine ⟨hs.put hl (.inl ⟨rfl, rfl⟩) ?_, put_abortlevel _⟩
      rw [ThreadOk, hout]

end

lemma btCreateLock (hout : (s.locks.thread t).phase = .outside)
    (hsch : l ≠ s.locks.schLock) (hfresh : l ∉ s.live) {o : Outcome}
    (ho : s.btCreateLock t l = some o) : Good t o := by
  obtain ⟨L, hL⟩ := hs.handles
  obtain ⟨⟨h, k⟩, hadd, rfl⟩ := map_eq_some_iff.mp ho
  obtain ⟨L', hL'⟩ : ∃ L', HandlesOk k (insert l s.live) L' := by
    rcases hL.faithful.procAddHandle hadd with ⟨-, rfl⟩ | ⟨-, -, hfaithful⟩
    · refine ⟨L, hL.faithful, fun pid h info hinfo htype => ?_, hL.unique⟩
      exact Finset.mem_insert_of_mem (hL.mem pid h info hinfo htype)
    · exact ⟨_, hL.insert hfresh hfaithful⟩
  refine ⟨⟨⟨L', hL'⟩, hs.active, ?_, ?_, fun x hx => ?_, fun u => ?_⟩, hs.outside hout⟩
  · dsimp only [Locks.State.modifyLock]
    rw [update_of_ne (Ne.symm hsch)]
    exact hs.schLock_free
  · rw [Finset.mem_insert, not_or]
    exact ⟨Ne.symm hsch, hs.schLock_notMem⟩
  · dsimp only [Locks.State.modifyLock]
    by_cases hxl : x = l
    · rw [hxl, update_self]
      exact .inl ⟨rfl, rfl⟩
    · rw [update_of_ne hxl]
      exact hs.lock x ((Finset.mem_insert.mp hx).resolve_left hxl)
  · have hth := hs.thread u
    unfold ThreadOk at hth ⊢
    dsimp only [Locks.State.modifyLock]
    split at hth
    · exact hth
    · exact ⟨hth.1, hth.2.1, hth.2.2.1, Finset.mem_insert_of_mem hth.2.2.2⟩
    · exact hth

lemma btDestroyLock (hout : (s.locks.thread t).phase = .outside) (garbage : Lock)
    (hcareful : s.Careful (.destroyLock t h garbage)) : Good t (s.btDestroyLock t h garbage) := by
  rw [State.btDestroyLock]
  split
  · exact ⟨hs, hs.outside hout⟩
  · rename_i l hget
    have hl := hs.procGetLock_mem hget
    obtain ⟨L, hL⟩ := hs.handles
    refine ⟨⟨⟨_, hL.erase hget⟩, hs.active, ?_, ?_, fun x hx => ?_, fun u => ?_⟩, hs.outside hout⟩
    · dsimp only [Locks.State.modifyLock]
      rw [update_of_ne (Ne.symm (hs.ne_schLock hl))]
      exact hs.schLock_free
    · exact fun hmem => hs.schLock_notMem (Finset.mem_of_mem_erase hmem)
    · dsimp only [Locks.State.modifyLock]
      rw [update_of_ne (Finset.ne_of_mem_erase hx)]
      exact hs.lock x (Finset.mem_of_mem_erase hx)
    · have hth := hs.thread u
      unfold ThreadOk at hth ⊢
      dsimp only [Locks.State.modifyLock]
      split at hth
      · exact hth
      · -- Nobody waits for the lock that is deleted.
        rename_i exclusive l' b hphase
        refine ⟨hth.1, hth.2.1, hth.2.2.1, Finset.mem_erase.mpr ⟨?_, hth.2.2.2⟩⟩
        rintro rfl
        exact hcareful _ hget u exclusive b hphase
      · exact hth

lemma resume (ht : t ≠ 0) (hin : (s.locks.thread t).phase ≠ .outside) : Good t (s.resume t) := by
  have hth := hs.thread t
  obtain ⟨h12, h21, h10, h01⟩ := nextAbortlevel_values
  rw [State.resume]
  cases hphase : (s.locks.thread t).phase with
  | outside => exact absurd hphase hin
  | waiting exclusive l changeabort =>
    rw [ThreadOk, hphase] at hth
    obtain ⟨rfl, rfl, hlevel, hl⟩ := hth
    dsimp only
    by_cases hfree : (s.locks.lock l).lockval = 0
    · rw [resume_waiting_eq (hs.ne_schLock hl) hfree (hs.count_eq_zero hl hfree) hphase,
        if_neg ht, finish, put_schAbortable, hlevel, if_pos rfl, h01, h12, h21]
      exact ⟨hs.put hl (.inr ⟨ht, rfl⟩) rfl, put_abortlevel _⟩
    · rw [Locks.State.resume, hphase]
      dsimp only
      rw [if_pos hfree]
      exact hs.setLock hl (hs.lock l hl)
  | yielding l =>
    rw [ThreadOk, hphase] at hth
    obtain ⟨hlevel, hne⟩ := hth
    have hrest : s.locks.resume t = .done true { s.locks with
        thread := update s.locks.thread t
          { s.locks.thread t with abortlevel := 0, phase := .outside } } := by
      rw [Locks.State.resume, hphase]
      simp [Locks.State.modifyThread, Locks.State.abortableFor, Locks.State.schAbortable, hne,
        hlevel, h10]
    have hback (locks : Locks.State) (th : Thread) :
        ({ locks with thread := update locks.thread t { th with abortlevel := 0 } } :
          Locks.State).schAbortable false t =
        { locks with thread := update locks.thread t { th with abortlevel := 1 } } := by
      simp [Locks.State.schAbortable, Locks.State.modifyThread, h01]
    rw [hrest, finish, hback s.locks { s.locks.thread t with phase := .outside }]
    refine ⟨hs.setThread rfl, ?_⟩
    dsimp only
    rw [update_self]

/-- A careful call does not panic and leaves everything in order. -/
lemma perform {a : Action} (ha : s.Careful a) {o : Outcome}
    (ho : s.perform a = some o) : Good a.caller o := by
  cases a with
  | createLock t l =>
    rw [State.perform, ite_none_right_eq_some] at ho
    exact hs.btCreateLock ho.1.1 ho.1.2.2.1 ho.1.2.2.2 ho.2
  | lock t h =>
    rw [State.perform, ite_none_right_eq_some] at ho
    exact some.inj ho.2 ▸ hs.btLock ho.1.1 ho.1.2 ha
  | tryLock t h =>
    rw [State.perform, ite_none_right_eq_some] at ho
    exact some.inj ho.2 ▸ hs.btTryLock ho.1.1 ho.1.2
  | unlock t h =>
    rw [State.perform, ite_none_right_eq_some] at ho
    exact some.inj ho.2 ▸ hs.btUnlock ho.1.1 ho.1.2 ha
  | destroyLock t h garbage =>
    rw [State.perform, ite_none_right_eq_some] at ho
    exact some.inj ho.2 ▸ hs.btDestroyLock ho.1.2 garbage ha
  | resume t =>
    rw [State.perform, ite_none_right_eq_some] at ho
    exact some.inj ho.2 ▸ hs.resume ho.1.1 ho.1.2

lemma step {a : Action} (ha : s.Careful a) (hstep : s.step a = some s') :
    Inv s' := by
  obtain ⟨o, ho, hstate⟩ := bind_eq_some_iff.mp hstep
  have hgood := hs.perform ha ho
  cases o with
  | done eax s1 => exact some.inj hstate ▸ hgood.1
  | waits s1 => exact some.inj hstate ▸ hgood
  | panics p => exact hgood.elim

end

end Inv

/-! ## Runs -/

/-- All threads are threads of process 1, which has no handles yet. -/
def fresh : State where
  kernel := Recorded.aboutToWrap.kernel
  locks := Locks.State.allFree 1
  live := ∅
  pidOf _ := 1

lemma fresh_initial : fresh.Initial where
  handles := ⟨_, Recorded.aboutToWrap_faithful, fun _ _ _ hinfo => nomatch hinfo⟩
  active := rfl
  schLock := rfl
  live := rfl
  thread _ := ⟨rfl, rfl⟩

end State

end UserLocks
