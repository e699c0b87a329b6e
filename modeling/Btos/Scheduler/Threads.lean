import Mathlib.Tactic

/-!
# The scheduler

The thread table and the functions of `scheduler.cpp`. A `sch_thread` is known by its address;
`State.mem` is the memory behind the addresses, `State.threads` the list of the threads that
exist. The run order is a chain of `next` pointers: a pass of the prescheduler thread links the
runnable threads in the order in which they are to run, and `sch_schedule` follows the chain.

What a thread is waiting for is a function of the rest of the kernel: the parameter `check` of a
pass says for which blocked threads their `blockcheck` returns true.

Stacks, registers and debug state of a thread play no part, nor do the scheduler lock and the
interrupt counter: a step of the model is what happens while the lock is held.
-/

namespace Scheduler

/-- The address of a `sch_thread`. -/
abbrev Tptr := ℕ

/-- `sch_thread_status`. -/
inductive ThreadStatus where
  | runnable
  | blocked
  | debugStopped
  | debugBlocked
  | ending
  | special
  deriving DecidableEq, Repr

/-- The fields of `sch_thread` that scheduling uses. -/
structure Thread where
  status : ThreadStatus
  priority : UInt32
  dynpriority : UInt32
  modifier : UInt32
  extId : ℕ
  pid : ℕ
  /-- `blockcheck` is not `NULL`. -/
  blockcheck : Bool
  abortlevel : ℕ
  userAbort : Bool
  next : Option Tptr
  schCycle : UInt32
  deriving DecidableEq, Repr

/-- The state of the scheduler. -/
structure State where
  mem : Tptr → Thread
  /-- `threads`. -/
  threads : List Tptr
  /-- `current_thread`. -/
  current : Tptr
  /-- `reaper_thread`. -/
  reaper : Tptr
  /-- `prescheduler_thread`. -/
  prescheduler : Tptr
  /-- `idle_thread`. -/
  idle : Tptr
  /-- `cur_ext_id`. -/
  curExtId : ℕ
  /-- `preferred_next_pid`. -/
  preferredNextPid : ℕ
  /-- `preferred_return_pid`. -/
  preferredReturnPid : ℕ
  /-- The static variable `lcycle` of `sch_find_thread`. -/
  lcycle : UInt32
  /-- The variable `cycle` of the prescheduler thread. -/
  cycle : UInt32

/-- `default_priority`. -/
def defaultPriority : UInt32 := 10

/-- `modifier_limit`. -/
def modifierLimit : UInt32 := 128

/-- The priority of the idle thread, the largest 32-bit number. -/
def idlePriority : UInt32 := 0xFFFFFFFF

namespace State

variable (s : State)

/-- The status of a thread. -/
def status (t : Tptr) : ThreadStatus := (s.mem t).status

/-- The `next` pointer of a thread. -/
def next (t : Tptr) : Option Tptr := (s.mem t).next

/-- A write to one thread. -/
def modify (t : Tptr) (f : Thread → Thread) : State :=
  { s with mem := Function.update s.mem t (f (s.mem t)) }

/-- A write to every thread of the list that passes a test. -/
def modifyAll (p : Tptr → Bool) (f : Thread → Thread) : State :=
  { s with mem := fun t => if t ∈ s.threads ∧ p t then f (s.mem t) else s.mem t }

/-! ## Choosing a thread -/

/-- What the first loop of `sch_find_thread` does to a thread: a blocked thread whose
`blockcheck` succeeds becomes runnable, once per cycle. -/
def wake (checked : Bool) (t : Thread) : Thread :=
  -- `!priority == 0xFFFFFFFF` compares the truth value of `!priority`, so this never holds.
  let t := if (if t.priority = 0 then 1 else 0) = idlePriority then
      { t with dynpriority := idlePriority } else t
  if checked && t.status = .blocked && t.blockcheck then { t with status := .runnable } else t

/-- The first loop of `sch_find_thread`. -/
def wakeAll (check : Tptr → Bool) (cycle : UInt32) : State :=
  { s with mem := fun t =>
      if t ∈ s.threads then wake (s.lcycle ≠ cycle && check t) (s.mem t) else s.mem t }

/-- The runnable threads, in the order of the list. -/
def runnables : List Tptr := s.threads.filter fun t => s.status t = .runnable

/-- The least dynamic priority of a runnable thread. -/
def minDynpriority : UInt32 :=
  (s.runnables.map fun t => (s.mem t).dynpriority).foldl
    (fun min d => if d < min then d else min) idlePriority

/-- The loop over the threads for `preferred_next_pid`: each runnable thread of that process is
taken, and the preference goes on to `preferred_return_pid`. -/
def findPreferred : List Tptr → Option Tptr × ℕ × ℕ → Option Tptr × ℕ × ℕ
  | [], r => r
  | t :: ts, (torun, nextPid, returnPid) =>
      findPreferred ts
        (if s.status t = .runnable ∧ (s.mem t).pid = nextPid then (some t, returnPid, 0)
        else (torun, nextPid, returnPid))

/-- What the last loop of `sch_find_thread` does to a thread: the dynamic priority of a runnable
thread goes down by the least one, and threads that are not taken lose a bit of their modifier. -/
def age (min : UInt32) (isCurrent : Bool) (t : Thread) : Thread :=
  if t.status = .runnable then
    let t := if t.dynpriority ≠ 0 then { t with dynpriority := t.dynpriority - min } else t
    if !isCurrent && t.dynpriority = 0 then t
    else if t.modifier ≠ 0 then { t with modifier := t.modifier - 1 } else t
  else if t.modifier ≠ 0 then { t with modifier := t.modifier - 1 } else t

/-- The last loop of `sch_find_thread`. -/
def ageAll (min : UInt32) : State :=
  { s with mem := fun t =>
      if t ∈ s.threads then age min (t = s.current) (s.mem t) else s.mem t }

/-- The thread the last loop takes: the last runnable one, other than the running thread, whose
dynamic priority has come down to 0. -/
def findDue : Option Tptr :=
  (s.threads.filter fun t =>
    s.status t = .runnable && t ≠ s.current && (s.mem t).dynpriority = 0).getLast?

/-- `if(torun->modifier < modifier_limit) ++torun->modifier`. -/
def raiseModifier (t : Thread) : Thread :=
  if t.modifier < modifierLimit then { t with modifier := t.modifier + 1 } else t

/-- The choice of `sch_find_thread` once it has woken threads and counted the runnable ones. -/
def choose : Tptr × State :=
  let (preferred, nextPid, returnPid) :=
    if s.preferredNextPid ≠ 0 then
      s.findPreferred s.threads (none, s.preferredNextPid, s.preferredReturnPid)
    else (none, s.preferredNextPid, s.preferredReturnPid)
  let s := { s with preferredNextPid := nextPid, preferredReturnPid := returnPid }
  match preferred with
  | some t => (t, s.modify t raiseModifier)
  | none =>
      let s := s.ageAll s.minDynpriority
      let t := s.findDue.getD s.current
      (t, s.modify t raiseModifier)

/-- `sch_find_thread`. `none` stands for the panic about a thread of priority 0; otherwise the
thread found, if any is runnable. -/
def findThread (check : Tptr → Bool) (cycle : UInt32) : Option (Option Tptr × State) :=
  let s := s.wakeAll check cycle
  if s.runnables.any fun t => (s.mem t).priority = 0 then none
  else
    let s := { s with lcycle := cycle }
    if s.runnables = [] then some (none, s)
    else
      let (t, s) := s.choose
      some (some t, s)

/-! ## A pass of the prescheduler -/

/-- What a pass does to the thread it links next. -/
def linkThread (cycle : UInt32) (t : Thread) : Thread :=
  let t := raiseModifier t
  { t with
    -- The sum has wrapped when it is below the priority.
    dynpriority :=
      if t.priority + t.modifier ≥ t.priority then t.priority + t.modifier else idlePriority
    schCycle := cycle }

/-- The inner loop of the prescheduler thread; `tail` is the thread linked last. A pass links
a thread at most once, so `threads.length + 1` rounds are enough. -/
def linkLoop (check : Tptr → Bool) (cycle : UInt32) : ℕ → State → Tptr → ℕ → Option State
  | 0, s, _, _ => some s
  | n + 1, s, tail, count =>
      match s.findThread check cycle with
      | none => none
      | some (none, s) => some s
      | some (some t, s) =>
          if (s.mem t).schCycle = cycle ∨ (count ≠ 0 ∧ t = s.idle) then some s
          else
            linkLoop check cycle n
              ((s.modify tail fun th => { th with next := some t }).modify t (linkThread cycle))
              t (count + 1)

/-- One pass of `sch_prescheduler_thread`, up to where it yields. -/
def preschedule (check : Tptr → Bool) : Option State :=
  let s := s.modify s.prescheduler fun t => { t with status := .special }
  let s := { s with cycle := s.cycle + 1 }
  linkLoop check s.cycle (s.threads.length + 1) s s.prescheduler 0

/-! ## Switching and the other operations -/

/-- `current_thread->next = NULL`. -/
def clearNext : State := s.modify s.current fun t => { t with next := none }

/-- The thread that `sch_schedule` switches to: the next one on the chain, the one after it if
that one is not runnable, or the prescheduler. The pointer of the running thread has been
cleared by then. -/
def scheduleTarget : Tptr :=
  let cleared := s.clearNext
  let torun : Option Tptr :=
    match s.next s.current with
    | none => none
    | some t => if cleared.status t = .runnable then some t else cleared.next t
  torun.getD s.prescheduler

/-- `sch_schedule`. -/
def schedule : State := { s.clearNext with current := s.scheduleTarget }

/-- `sch_block` and `sch_setblock`, up to where they yield. -/
def block (blockcheck : Bool) : State :=
  s.modify s.current fun t => { t with status := .blocked, blockcheck := blockcheck }

/-- `sch_clearblock`. -/
def clearblock : State := s.modify s.current fun t => { t with blockcheck := false }

/-- The first thread of the list with an id. -/
def findId (extId : ℕ) : Option Tptr := s.threads.find? fun t => (s.mem t).extId = extId

/-- `sch_unblock`. -/
def unblock (extId : ℕ) : State :=
  match s.findId extId with
  | none => s
  | some t =>
      s.modify t fun th => if th.status = .blocked then { th with status := .runnable } else th

/-- `reaper_thread->status = Runnable`. -/
def wakeReaper : State := s.modify s.reaper fun t => { t with status := .runnable }

/-- One round of the loop of `sch_abort`: a thread that may be aborted ends, one that may not is
told. `none` is the panic about a thread that aborts itself. -/
def abort (extId : ℕ) : Option State :=
  if (s.mem s.current).extId = extId then none
  else
    let s₁ := s.modifyAll (fun t => (s.mem t).extId = extId && (s.mem t).abortlevel ≠ 0)
      fun t => { t with userAbort := true }
    let s₂ := s₁.modifyAll (fun t => (s.mem t).extId = extId && (s.mem t).abortlevel = 0)
      fun t => { t with status := .ending }
    some (if s.threads.any fun t => (s.mem t).extId = extId && (s.mem t).abortlevel = 0 then
      s₂.wakeReaper else s₂)

/-- `sch_end_thread`, up to where it yields. -/
def endThread : State := (s.modify s.current fun t => { t with status := .ending }).wakeReaper

/-- `sch_debug_stop`. -/
def debugStop (pid : ℕ) : State :=
  s.modifyAll (fun t => (s.mem t).pid = pid) fun t =>
    if t.status = .runnable then { t with status := .debugStopped }
    else if t.status = .blocked then { t with status := .debugBlocked } else t

/-- `sch_debug_resume`. -/
def debugResume (pid : ℕ) : State :=
  s.modifyAll (fun t => (s.mem t).pid = pid) fun t =>
    if t.status = .debugStopped then { t with status := .runnable }
    else if t.status = .debugBlocked then { t with status := .blocked } else t

/-- The thread the reaper finds: the first one that is ending. -/
def reapTarget : Option Tptr := s.threads.find? fun t => s.status t = .ending

/-- One round of the loop of `thread_reaper`: a thread that is ending is taken out of the list
and freed. -/
def reap : State :=
  match s.reapTarget with
  | none => s
  | some t => { s with threads := s.threads.erase t }

/-- `sch_abortable` for a thread. -/
def abortable (t : Tptr) (b : Bool) : State :=
  s.modify t fun th => { th with abortlevel := if b then th.abortlevel - 1 else th.abortlevel + 1 }

/-- `sch_set_priority`. -/
def setPriority (p : UInt32) : State := s.modify s.current fun t => { t with priority := p }

/-- `sch_setpid`, for a process that exists. -/
def setPid (pid : ℕ) : State := s.modify s.current fun t => { t with pid := pid }

/-- `sch_yield_to`, up to where it yields; `returnPid` is `proc_current_pid`. -/
def yieldTo (pid returnPid : ℕ) : State :=
  if pid ≠ 0 then { s with preferredNextPid := pid, preferredReturnPid := returnPid } else s

/-- `sch_new_thread`, with the new thread at address `t`. -/
def newThread (t : Tptr) : State :=
  { s with
    mem := Function.update s.mem t
      { status := .runnable, priority := defaultPriority, dynpriority := 0, modifier := 0,
        extId := s.curExtId + 1, pid := 0, blockcheck := false, abortlevel := 2,
        userAbort := false, next := none, schCycle := 0 }
    curExtId := s.curExtId + 1
    threads := s.threads ++ [t] }

end State

end Scheduler
