import Mathlib.Data.Int.Order.Basic
import Mathlib.Logic.Function.Basic

/-!
# Kernel locks

The lock functions of `locks.cpp` together with what they use of the scheduler: `sch_abortable`,
`sch_setblock` and a round of `sch_abort`.

A call runs until it is done or panics, or up to a point where it gives up the processor: a
`take_lock` waits in `sch_setblock` while another thread has the lock, and `release_lock` yields
when somebody waits, before it lowers the abort level. `Thread.phase` says where a thread is, and
`State.resume` is the rest of the call.
-/

namespace Locks

/-- The address of a lock. -/
abbrev Lptr := ℕ

/-- The id of a thread, `ext_id`. -/
abbrev ThreadId := UInt64

/-- A lock. -/
structure Lock where
  /-- The thread that has the lock, 0 if it is free. -/
  lockval : UInt64
  count : UInt32
  waiting : Bool
  deriving DecidableEq, Repr

/-- Where a thread is in the lock functions. -/
inductive Phase where
  | outside
  /-- In `sch_setblock`, called from `take_lock_exclusive` or `take_lock_recursive`. -/
  | waiting (exclusive : Bool) (l : Lptr) (changeabort : Bool)
  /-- In `sch_yield`, called from `release_lock`. -/
  | yielding (l : Lptr)
  deriving DecidableEq, Repr

/-- What the lock functions use of a thread. -/
structure Thread where
  abortlevel : Int32
  /-- The status is `Ending`. -/
  ending : Bool
  /-- `user_abort`. -/
  userAbort : Bool
  phase : Phase
  deriving DecidableEq, Repr

/-- The branches that panic. -/
inductive Panic where
  /-- `Attempt to take lock that's already held!` -/
  | alreadyHeld
  /-- `Attempt to lock thread to invalid thread ID.` -/
  | invalidThread
  /-- `Deadlock - waiting for lock while holding scheduler lock!` -/
  | deadlock
  /-- `Newly acquired lock with non-zero count!` -/
  | nonZeroCount
  /-- `Lock value not set!` -/
  | valueNotSet
  /-- `Attempt to release lock that isn't held!` -/
  | notHeld
  /-- `Attempt to release lock with zero count!` -/
  | zeroCount
  /-- `Lock value still set!` -/
  | stillSet
  deriving DecidableEq, Repr

/-- The locks and the threads. -/
structure State where
  lock : Lptr → Lock
  thread : ThreadId → Thread
  /-- The address of `sch_lock`. -/
  schLock : Lptr
  /-- `sch_active()`. -/
  active : Bool

/-- How a call ends or is interrupted. -/
inductive Outcome where
  | done (ret : Bool) (s : State)
  /-- The call has given up the processor; `Thread.phase` says where. -/
  | waits (s : State)
  | panics (p : Panic)

/-- The state that a call leaves, if it does not panic. -/
def Outcome.state? : Outcome → Option State
  | .done _ s => some s
  | .waits s => some s
  | .panics _ => none

namespace State

variable (s : State)

/-- A write to one lock. -/
def modifyLock (l : Lptr) (f : Lock → Lock) : State :=
  { s with lock := Function.update s.lock l (f (s.lock l)) }

/-- A write to one thread. -/
def modifyThread (t : ThreadId) (f : Thread → Thread) : State :=
  { s with thread := Function.update s.thread t (f (s.thread t)) }

/-! ## What is used of the scheduler -/

/-- The new abort level: `atomic_decrement` or `atomic_increment`, and 0 if the result is
negative. -/
def nextAbortlevel (abortable : Bool) (level : Int32) : Int32 :=
  let alevel := if abortable then level - 1 else level + 1
  if alevel < 0 then 0 else alevel

/-- `sch_abortable` for the running thread. -/
def schAbortable (abortable : Bool) (t : ThreadId) : State :=
  s.modifyThread t fun th => { th with abortlevel := nextAbortlevel abortable th.abortlevel }

/-- `if(&l != &sch_lock) sch_abortable(abortable)`. -/
def abortableFor (l : Lptr) (abortable : Bool) (t : ThreadId) : State :=
  if l ≠ s.schLock then s.schAbortable abortable t else s

/-- `sch_setblock(&lock_blockcheck, &l)` up to where it yields, for a lock that is not free:
the check notes that somebody waits, and a thread that blocks may be aborted. -/
def schSetblock (exclusive : Bool) (l : Lptr) (t : ThreadId) : State :=
  let s := s.modifyLock l fun lk => { lk with waiting := true }
  let changeabort : Bool := (s.thread t).abortlevel ≠ 0
  let s := if changeabort then s.schAbortable true t else s
  s.modifyThread t fun th => { th with phase := .waiting exclusive l changeabort }

/-- One round of the loop of `sch_abort`: a thread that may be aborted ends, one that may not is
told. -/
def schAbort (t : ThreadId) : State :=
  s.modifyThread t fun th =>
    if th.abortlevel = 0 then { th with ending := true } else { th with userAbort := true }

/-! ## Taking a lock -/

/-- The end of the two `take_lock` functions, once the lock has been free and got the value
`t`. Only the exclusive one looks at the count. -/
def finishTake (exclusive : Bool) (l : Lptr) (t : ThreadId) : Outcome :=
  let s := s.modifyLock l fun lk => { lk with lockval := t, waiting := false }
  if exclusive && (s.lock l).count ≠ 0 then .panics .nonZeroCount
  else
    let s := s.modifyLock l fun lk => { lk with count := lk.count + 1 }
    if (s.lock l).lockval = 0 then .panics .valueNotSet
    else .done true (s.abortableFor l false t)

/-- The loops around the compare-and-swap of the two `take_lock` functions. -/
def takeLoop (exclusive : Bool) (l : Lptr) (t : ThreadId) : Outcome :=
  if (s.lock l).lockval = 0 then s.finishTake exclusive l t
  else if l ≠ s.schLock ∧ (s.lock s.schLock).lockval ≠ t then .waits (s.schSetblock exclusive l t)
  else .panics .deadlock

/-- `take_lock_exclusive`. -/
def takeLockExclusive (l : Lptr) (t : ThreadId) : Outcome :=
  if !s.active then .done true s
  else if (s.lock l).lockval = t ∧ t ≠ 0 then .panics .alreadyHeld
  else if t = 0 then .panics .invalidThread
  else s.takeLoop true l t

/-- `take_lock_recursive`. -/
def takeLockRecursive (l : Lptr) (t : ThreadId) : Outcome :=
  if !s.active then .done true s
  else if (s.lock l).lockval = t ∧ t ≠ 0 then
    .done true
      ((s.abortableFor l false t).modifyLock l fun lk => { lk with count := lk.count + 1 })
  else if t = 0 then .panics .invalidThread
  else s.takeLoop false l t

/-- The end of the two `try_take_lock` functions, which try the compare-and-swap once. -/
def tryOnce (l : Lptr) (t : ThreadId) : Outcome :=
  if (s.lock l).lockval = 0 then
    let s := s.modifyLock l fun lk => { lk with lockval := t }
    if (s.lock l).count ≠ 0 then .panics .nonZeroCount
    else
      let s := s.modifyLock l fun lk => { lk with count := lk.count + 1 }
      let s := s.abortableFor l false t
      if (s.lock l).lockval = 0 then .panics .valueNotSet else .done true s
  else .done false s

/-- `try_take_lock_exclusive`. -/
def tryTakeLockExclusive (l : Lptr) (t : ThreadId) : Outcome :=
  if !s.active then .done true s
  else if (s.lock l).lockval = t ∧ t ≠ 0 then .done false s
  else s.tryOnce l t

/-- `try_take_lock_recursive`. -/
def tryTakeLockRecursive (l : Lptr) (t : ThreadId) : Outcome :=
  if !s.active then .done true s
  else if (s.lock l).lockval = t ∧ t ≠ 0 then
    .done true
      ((s.modifyLock l fun lk => { lk with count := lk.count + 1 }).abortableFor l false t)
  else s.tryOnce l t

/-! ## Releasing a lock -/

/-- `release_lock`. -/
def releaseLock (l : Lptr) (t : ThreadId) : Outcome :=
  if !s.active then .done true s
  else if (s.lock l).lockval ≠ t then .panics .notHeld
  else if (s.lock l).count = 0 then .panics .zeroCount
  else
    let s := s.modifyLock l fun lk => { lk with count := lk.count - 1 }
    if (s.lock l).count = 0 then
      let waiters := (s.lock l).waiting
      let s := s.modifyLock l fun lk =>
        { lk with lockval := if lk.lockval = t then 0 else lk.lockval }
      if (s.lock l).lockval ≠ 0 then .panics .stillSet
      -- `sch_yield`: the rest follows when the thread runs again
      else if waiters then .waits (s.modifyThread t fun th => { th with phase := .yielding l })
      else .done true (s.abortableFor l true t)
    else .done true (s.abortableFor l true t)

/-! ## Going on after a call has given up the processor -/

/-- The rest of the call that a thread is in. -/
def resume (t : ThreadId) : Outcome :=
  match (s.thread t).phase with
  | .outside => .done true s
  | .waiting exclusive l changeabort =>
      -- `lock_blockcheck` notes that somebody waits, which taking the lock takes back, and
      -- succeeds only when the lock is free.
      if (s.lock l).lockval ≠ 0 then .waits (s.modifyLock l fun lk => { lk with waiting := true })
      else
        let s := s.modifyThread t fun th => { th with phase := .outside }
        let s := if changeabort then s.schAbortable false t else s
        s.takeLoop exclusive l t
  | .yielding l =>
      let s := s.modifyThread t fun th => { th with phase := .outside }
      .done true (s.abortableFor l true t)

end State

end Locks
