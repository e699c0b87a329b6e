import Btos.Scheduler.Steps

/-!
# The scheduler runs runnable threads only

The transition system of the scheduler's operations, in any order, and the property of
`sch_schedule`: the thread it switches to exists and is runnable, or is the prescheduler.
But stopping a process with two threads that are neighbours on the chain makes it run a stopped
thread.

Main results: `goodSwitch_of_reaches` and `exists_not_goodSwitch`.
-/

open List Option

namespace Scheduler

open ThreadStatus

/-- An operation of the scheduler, performed by the running thread. -/
inductive Action where
  /-- `sch_schedule`, which every yield ends in. -/
  | schedule
  /-- A pass of the prescheduler; `awake` lists the threads whose `blockcheck` returns true. -/
  | preschedule (awake : List Tptr)
  | block (blockcheck : Bool)
  | clearblock
  | unblock (extId : ℕ)
  | abort (extId : ℕ)
  | endThread
  | debugStop (pid : ℕ)
  | debugResume (pid : ℕ)
  /-- A round of the reaper. -/
  | reap
  | abortable (t : Tptr) (b : Bool)
  | setPriority (p : UInt32)
  | setPid (pid : ℕ)
  | yieldTo (pid returnPid : ℕ)
  | newThread (t : Tptr)
  deriving DecidableEq, Repr

namespace State

variable {s s' : State}

/-- The effect of an operation, `none` where it panics or is not made. The prescheduler makes a
pass only after having yielded since its last one; it and the reaper do not end, belong to no
process and stay unabortable, as their loops have it; the debugger stops and resumes processes,
which have an id other than 0; a new thread is at an address that no other thread has. -/
def step (s : State) : Action → Option State
  | .schedule => some s.schedule
  | .preschedule awake =>
      if s.current = s.prescheduler ∧ s.next s.prescheduler = none then
        s.preschedule fun t => t ∈ awake
      else none
  | .block blockcheck => some (s.block blockcheck)
  | .clearblock => some s.clearblock
  | .unblock extId => some (s.unblock extId)
  | .abort extId => s.abort extId
  | .endThread =>
      if s.current ≠ s.prescheduler ∧ s.current ≠ s.reaper then some s.endThread else none
  | .debugStop pid => if pid ≠ 0 then some (s.debugStop pid) else none
  | .debugResume pid => if pid ≠ 0 then some (s.debugResume pid) else none
  | .reap => if s.current = s.reaper then some s.reap else none
  | .abortable t b =>
      if (t = s.prescheduler ∨ t = s.reaper) ∧ b = true ∧ (s.mem t).abortlevel ≤ 2 then none
      else some (s.abortable t b)
  | .setPriority p => some (s.setPriority p)
  | .setPid pid =>
      if s.current ≠ s.prescheduler ∧ s.current ≠ s.reaper then some (s.setPid pid) else none
  | .yieldTo pid returnPid => some (s.yieldTo pid returnPid)
  | .newThread t => if t ∈ s.threads then none else some (s.newThread t)

/-- A state as `sch_init` leaves it: the running thread leads to the prescheduler, and no pass
has been made. -/
structure Initial (s : State) : Prop extends KernelThreads s where
  nodup : s.threads.Nodup
  current_mem : s.current ∈ s.threads
  prescheduler_mem : s.prescheduler ∈ s.threads
  reaper_mem : s.reaper ∈ s.threads
  current_ne : s.current ≠ s.prescheduler
  current_next : s.next s.current = some s.prescheduler
  next_eq : ∀ t ∈ s.threads, t ≠ s.current → s.next t = none

/-- The steps that respect the chain: `sch_abort` and `sch_debug_stop` leave one of any two
neighbours on it runnable, `sch_debug_resume` resumes no thread that was skipped and has kept its
pointer, and the reaper frees no thread that is still on the chain. -/
def Careful (s : State) : Action → Prop
  | .abort extId =>
      s.pending.IsChain fun a b => s.OutlivesAbort extId a ∨ s.OutlivesAbort extId b
  | .debugStop pid =>
      s.pending.IsChain fun a b => s.OutlivesStop pid a ∨ s.OutlivesStop pid b
  | .debugResume pid =>
      ∀ t ∈ s.threads, (s.mem t).pid = pid → s.status t = debugStopped →
        t ≠ s.current → t ∉ s.pending → s.next t = none
  | .reap => ∀ t, s.reapTarget = some t → t ∉ s.pending
  | _ => True

end State

/-- The scheduler. -/
def scheduler : System State Action where
  init := State.Initial
  step := State.step

namespace State

variable {s s' : State}

lemma Initial.inv (h : Initial s) : Inv s where
  __ := h
  prescheduler_next _ := h.next_eq _ h.prescheduler_mem (Ne.symm h.current_ne)
  chain := by
    refine ⟨[s.prescheduler], ⟨h.current_next, ?_⟩, ?_, ?_, .inl rfl, ?_, ?_, ?_⟩
    · exact h.next_eq _ h.prescheduler_mem (Ne.symm h.current_ne)
    · simp [h.current_ne]
    · simpa using h.prescheduler_mem
    · simp
    · exact isChain_singleton _
    · exact fun t ht htc _ htnext => absurd (h.next_eq t ht htc) htnext

/-- A step that respects the chain keeps the invariant. -/
lemma Inv.step (h : Inv s) {a : Action} (ha : s.Careful a) (hstep : s.step a = some s') :
    Inv s' := by
  unfold State.step at hstep
  cases a with
  | schedule =>
    cases hstep
    exact h.schedule
  | preschedule awake =>
    rw [ite_none_right_eq_some] at hstep
    exact h.preschedule hstep.2 hstep.1.1 hstep.1.2
  | block b =>
    cases hstep
    exact h.block b
  | clearblock =>
    cases hstep
    exact h.clearblock
  | unblock extId =>
    cases hstep
    exact h.unblock extId
  | abort extId => exact h.abort ha hstep
  | endThread =>
    rw [ite_none_right_eq_some, some.injEq] at hstep
    obtain ⟨⟨hpre, hreaper⟩, rfl⟩ := hstep
    exact h.endThread hpre hreaper
  | debugStop pid =>
    rw [ite_none_right_eq_some, some.injEq] at hstep
    obtain ⟨hpid, rfl⟩ := hstep
    exact h.debugStop hpid ha
  | debugResume pid =>
    rw [ite_none_right_eq_some, some.injEq] at hstep
    obtain ⟨hpid, rfl⟩ := hstep
    exact h.debugResume hpid ha
  | reap =>
    rw [ite_none_right_eq_some, some.injEq] at hstep
    obtain ⟨hcurrent, rfl⟩ := hstep
    exact h.reap hcurrent ha
  | abortable t b =>
    rw [ite_none_left_eq_some, some.injEq] at hstep
    obtain ⟨hlevel, rfl⟩ := hstep
    refine h.abortable t b fun hor hb => ?_
    by_contra hle
    exact hlevel ⟨hor, hb, by omega⟩
  | setPriority p =>
    cases hstep
    exact h.setPriority p
  | setPid pid =>
    rw [ite_none_right_eq_some, some.injEq] at hstep
    obtain ⟨⟨hpre, hreaper⟩, rfl⟩ := hstep
    exact h.setPid pid hpre hreaper
  | yieldTo pid returnPid =>
    cases hstep
    exact h.yieldTo pid returnPid
  | newThread t =>
    rw [ite_none_left_eq_some, some.injEq] at hstep
    obtain ⟨ht, rfl⟩ := hstep
    exact h.newThread ht

/-! ## From `sch_init` on -/

/-- The thread that `sch_init` runs in. -/
def mainThread : Thread where
  status := runnable
  priority := defaultPriority
  dynpriority := 0
  modifier := 0
  extId := 1
  pid := 0
  blockcheck := false
  abortlevel := 2
  userAbort := false
  next := none
  schCycle := 0

/-- `sch_init`, with its threads at the given addresses. -/
def schInit (main idle reaper prescheduler : Tptr) : State :=
  let s : State :=
    { mem := fun _ => mainThread, threads := [main], current := main, reaper := 0,
      prescheduler := 0, idle := 0, curExtId := 1, preferredNextPid := 0,
      preferredReturnPid := 0, lcycle := 0, cycle := 0 }
  let s := { s.newThread idle with idle := idle }
  let s := { s.newThread reaper with reaper := reaper }
  let s := { s.newThread prescheduler with prescheduler := prescheduler }
  s.modify main fun t => { t with next := some prescheduler }

section SchInit

variable {main idle reaper prescheduler : Tptr}

/-- The threads that `sch_init` creates differ from its own in their ids. -/
lemma schInit_mem (h : [main, idle, reaper, prescheduler].Nodup) :
    (schInit main idle reaper prescheduler).mem main =
        { mainThread with next := some prescheduler } ∧
      (schInit main idle reaper prescheduler).mem idle = { mainThread with extId := 2 } ∧
      (schInit main idle reaper prescheduler).mem reaper = { mainThread with extId := 3 } ∧
      (schInit main idle reaper prescheduler).mem prescheduler =
        { mainThread with extId := 4 } := by
  simp only [nodup_cons, mem_cons, not_mem_nil, or_false, not_or] at h
  obtain ⟨⟨hmi, hmr, hmp⟩, ⟨hir, hip⟩, hrp, -⟩ := h
  refine ⟨?_, ?_, ?_, ?_⟩
  · simp [schInit, modify, newThread, hmi, hmr, hmp]
  · simp [schInit, modify, newThread, Ne.symm hmi, hir, hip, mainThread]
  · simp [schInit, modify, newThread, Ne.symm hmr, hrp, mainThread]
  · simp [schInit, modify, newThread, Ne.symm hmp, mainThread]

/-- What `sch_init` leaves is an initial state. -/
lemma schInit_initial (h : [main, idle, reaper, prescheduler].Nodup) :
    Initial (schInit main idle reaper prescheduler) := by
  obtain ⟨hmain, hidle, hreaper, hpre⟩ := schInit_mem h
  have hne := h
  simp only [nodup_cons, mem_cons, not_mem_nil, or_false, not_or] at hne
  obtain ⟨⟨-, -, hmp⟩, -, hrp, -⟩ := hne
  refine ⟨⟨hrp, ?_, ?_, ?_, ?_, ?_, .inl ?_⟩, h, mem_cons_self, ?_, ?_, hmp, ?_, ?_⟩
  · exact hpre ▸ by decide
  · exact congrArg Thread.pid hpre
  · intro hend
    have hstatus : runnable = ending := (congrArg Thread.status hpre).symm.trans hend
    simp at hstatus
  · exact hreaper ▸ by decide
  · exact congrArg Thread.pid hreaper
  · exact congrArg Thread.status hreaper
  · show prescheduler ∈ [main, idle, reaper, prescheduler]
    simp
  · show reaper ∈ [main, idle, reaper, prescheduler]
    simp
  · exact congrArg Thread.next hmain
  · intro t ht htc
    have hmem : t ∈ [main, idle, reaper, prescheduler] := ht
    simp only [mem_cons, not_mem_nil, or_false] at hmem
    rcases hmem with rfl | rfl | rfl | rfl
    · exact absurd rfl htc
    · exact congrArg Thread.next hidle
    · exact congrArg Thread.next hreaper
    · exact congrArg Thread.next hpre

end SchInit

/-- In every run whose steps respect the chain, `sch_schedule` switches to a runnable thread of
the list or to the prescheduler. -/
theorem goodSwitch_of_reaches (h : scheduler.Reaches Careful s) : GoodSwitch s := by
  have hinv : Inv s :=
    h.invariant (fun _ hs => Initial.inv hs) fun _ _ _ hi ha hstep => hi.step ha hstep
  exact hinv.scheduleTarget_good

/-- From `sch_init` on, three threads are created, of which thread 6 gets into process 8, and the
second pass links them all. -/
def linkedThreads : List Action :=
  [.newThread 5, .newThread 6, .newThread 7, .schedule, .preschedule [], .schedule, .schedule,
    .setPid 8, .schedule, .schedule, .schedule, .preschedule [], .schedule, .schedule, .schedule]

/-- Thread 7 stops process 8, and `sch_schedule` skips thread 6. -/
theorem goodSwitch_linkedThreads : ∃ s s', scheduler.Reaches Careful s ∧ s.pending = [6, 5, 3] ∧
    s.step (.debugStop 8) = some s' ∧ s'.scheduleTarget = 5 ∧ GoodSwitch s' := by
  have hinit : scheduler.init (schInit 1 2 3 4) := schInit_initial (by decide)
  have hrun : (scheduler.run (schInit 1 2 3 4) linkedThreads).any (fun s =>
      s.pending = [6, 5, 3] && s.status 5 = runnable && (s.mem 5).pid ≠ 8 &&
        (s.step (.debugStop 8)).any fun s' => s'.scheduleTarget = 5) = true := by
    decide +kernel
  have hguard : ∀ a ∈ linkedThreads, ∀ s, Careful s a := by simp [linkedThreads, Careful]
  obtain ⟨s, hs, hp⟩ := System.exists_reaches_of_run hguard hinit hrun
  simp only [Bool.and_eq_true, decide_eq_true_eq, Option.any_eq_true] at hp
  obtain ⟨⟨⟨hpending, hstatus⟩, hpid⟩, s', hstep, htarget⟩ := hp
  -- of any two neighbours one is thread 5, which goes on
  have hcareful : s.Careful (.debugStop 8) := by
    rw [Careful, hpending]
    simp [OutlivesStop, hstatus, hpid]
  exact ⟨s, s', hs, hpending, hstep, htarget, goodSwitch_of_reaches (hs.step hcareful hstep)⟩

/-- A debugger's thread (7) stops a process whose two threads (6 and 5) are next on the chain:
the first one is skipped, and the second one runs although it is stopped. -/
def stopTwoThreads : List Action :=
  [.newThread 5, .newThread 6, .newThread 7, .schedule,
    -- The first pass links 7, 6, 5 and the reaper, which run in turn.
    .preschedule [], .schedule, .setPid 8, .schedule, .setPid 9, .schedule, .setPid 9, .schedule,
    .setPriority 1, .reap, .block false, .schedule,
    -- The second pass links the idle thread, the first thread, 7, 6 and 5.
    .preschedule [], .schedule, .setPriority 0xFFFFFFFF, .schedule, .schedule, .debugStop 9]

/-- `sch_schedule` may run a thread that is stopped. -/
theorem exists_not_goodSwitch : ∃ s, scheduler.Reachable s ∧ ¬ GoodSwitch s := by
  have hinit : scheduler.init (schInit 1 2 3 4) := schInit_initial (by decide)
  have hrun : (scheduler.run (schInit 1 2 3 4) stopTwoThreads).any (fun s =>
      s.status s.scheduleTarget = debugStopped && s.scheduleTarget ≠ s.prescheduler) = true := by
    decide +kernel
  obtain ⟨s, hs, hbad⟩ := System.exists_reachable_of_run hinit hrun
  simp only [Bool.and_eq_true, decide_eq_true_eq] at hbad
  refine ⟨s, hs, fun hgood => ?_⟩
  rcases hgood.2 with hrun | hpre
  · simp [hbad.1] at hrun
  · exact hbad.2 hpre

end State

end Scheduler
