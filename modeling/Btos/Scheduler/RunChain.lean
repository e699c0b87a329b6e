import Btos.Lib.TransitionSystem
import Btos.Scheduler.Prescheduler

/-!
# The chain of threads that are to run

The invariant behind `sch_schedule`. Between two passes of the prescheduler the threads on the
chain may end or be stopped, and `sch_schedule` skips one such thread, not two in a row.

* `Pending s l`: the chain of the running thread is `l`, no two neighbours on it have stopped
  being runnable, and a thread off the chain has an old pointer only where a pass cannot link it.
* `Inv s`: some chain is pending, and the prescheduler and the reaper are never ended, stopped
  or freed.
* `Inv.schedule`, `Inv.preschedule`: a switch and a pass keep the invariant.
-/

open List

namespace Scheduler

open ThreadStatus

namespace State

variable {s s' : State} {l : List Tptr} {t : Tptr}

/-- The threads ahead on the chain of the running thread. -/
def pending (s : State) : List Tptr := follow s.next s.threads.length s.current

/-- A status that a thread may have on the chain: a pass links runnable threads, and a thread on
the chain can be stopped or ended, but not blocked. -/
def Listed (st : ThreadStatus) : Prop := st = runnable ∨ st = debugStopped ∨ st = ending

/-- A status with which a thread cannot be linked and that `sch_unblock` does not change. -/
def Halted (st : ThreadStatus) : Prop := st = debugStopped ∨ st = ending

/-- The chain `l` of the running thread. -/
structure Pending (s : State) (l : List Tptr) : Prop where
  linked : Linked s.next s.current l
  nodup : (s.current :: l).Nodup
  mem : ∀ t ∈ l, t ∈ s.threads
  /-- The prescheduler is on the chain only where `sch_init` puts it. -/
  prescheduler : l = [s.prescheduler] ∨ s.prescheduler ∉ l
  listed : ∀ t ∈ l, t ≠ s.prescheduler → Listed (s.status t)
  neighbours : l.IsChain fun a b => s.status a = runnable ∨ s.status b = runnable
  stale : ∀ t ∈ s.threads, t ≠ s.current → t ∉ l → s.next t ≠ none → Halted (s.status t)

lemma Pending.pending_eq (h : Pending s l) : s.pending = l :=
  h.linked.follow_eq (subperm_of_subset (nodup_cons.mp h.nodup).2 h.mem).length_le

lemma Pending.current_not_mem (h : Pending s l) : s.current ∉ l :=
  (nodup_cons.mp h.nodup).1

/-- The prescheduler and the reaper cannot be aborted and belong to no process. -/
structure KernelThreads (s : State) : Prop where
  ne : s.reaper ≠ s.prescheduler
  prescheduler_level : (s.mem s.prescheduler).abortlevel ≠ 0
  prescheduler_pid : (s.mem s.prescheduler).pid = 0
  prescheduler_status : s.status s.prescheduler ≠ ending
  reaper_level : (s.mem s.reaper).abortlevel ≠ 0
  reaper_pid : (s.mem s.reaper).pid = 0
  reaper_status : s.status s.reaper = runnable ∨ s.status s.reaper = blocked

/-- The invariant of the scheduler. -/
structure Inv (s : State) : Prop extends KernelThreads s where
  nodup : s.threads.Nodup
  current_mem : s.current ∈ s.threads
  prescheduler_mem : s.prescheduler ∈ s.threads
  reaper_mem : s.reaper ∈ s.threads
  /-- The prescheduler has a chain only while it has not yielded after its pass. -/
  prescheduler_next : s.current ≠ s.prescheduler → s.next s.prescheduler = none
  chain : ∃ l, Pending s l

/-! ## Switching -/

/-- The thread that `sch_schedule` switches to is in the list, and is runnable or the
prescheduler. -/
def GoodSwitch (s : State) : Prop :=
  s.scheduleTarget ∈ s.threads ∧
    (s.status s.scheduleTarget = runnable ∨ s.scheduleTarget = s.prescheduler)

lemma clearNext_mem_of_ne (ht : t ≠ s.current) : s.clearNext.mem t = s.mem t :=
  modify_mem_of_ne s _ ht

lemma clearNext_next_self (s : State) : s.clearNext.next s.current = none := by
  unfold clearNext next
  rw [modify_mem_self]

@[simp]
lemma clearNext_status (s : State) (t : Tptr) : s.clearNext.status t = s.status t := by
  unfold clearNext status
  apply modify_mem_field Thread.status
  intro th
  rfl

/-- Where `sch_schedule` goes, by the shape of the chain. -/
lemma Pending.scheduleTarget_eq (h : Pending s l) :
    s.scheduleTarget =
      match l with
      | [] => s.prescheduler
      | t :: l => if s.status t = runnable then t else l.headD s.prescheduler := by
  have hcurrent := h.current_not_mem
  have hlinked := h.linked
  unfold scheduleTarget
  cases l with
  | nil =>
    rw [Linked] at hlinked
    rw [hlinked]
    rfl
  | cons t l =>
    rw [Linked] at hlinked
    have ht : t ≠ s.current := fun heq => hcurrent (heq ▸ mem_cons_self)
    rw [hlinked.1]
    simp only [clearNext_status, next, clearNext_mem_of_ne ht]
    split
    · rfl
    · cases l with
      | nil =>
        have hend : (s.mem t).next = none := hlinked.2
        rw [hend]
        rfl
      | cons u l =>
        have hnext : (s.mem t).next = some u := hlinked.2.1
        rw [hnext]
        rfl

/-- Under the invariant the scheduler runs a runnable thread of the list or the prescheduler. -/
lemma Inv.scheduleTarget_good (h : Inv s) : GoodSwitch s := by
  obtain ⟨l, hl⟩ := h.chain
  unfold GoodSwitch
  rw [hl.scheduleTarget_eq]
  match l, hl with
  | [], _ => exact ⟨h.prescheduler_mem, .inr rfl⟩
  | [t], hl =>
    by_cases ht : s.status t = runnable
    · simp only [ht, if_pos]
      exact ⟨hl.mem t mem_cons_self, .inl trivial⟩
    · simp only [ht, if_false, headD_nil]
      exact ⟨h.prescheduler_mem, .inr trivial⟩
  | t :: u :: l, hl =>
    by_cases ht : s.status t = runnable
    · simp only [ht, if_pos]
      exact ⟨hl.mem t mem_cons_self, .inl trivial⟩
    · -- `t` is skipped, so its neighbour is runnable.
      have hu : s.status u = runnable :=
        ((isChain_cons_cons.mp hl.neighbours).1).resolve_left ht
      simp only [ht, if_false, headD_cons]
      exact ⟨hl.mem u (by simp), .inl hu⟩

lemma Inv.clearNext_prescheduler (h : Inv s) : s.clearNext.next s.prescheduler = none := by
  by_cases hc : s.prescheduler = s.current
  · rw [hc]
    exact clearNext_next_self s
  · rw [next, clearNext_mem_of_ne hc]
    exact h.prescheduler_next (Ne.symm hc)

/-- A switch ahead on the chain, over threads that are halted. -/
lemma Pending.switch {skipped l' : List Tptr} {u : Tptr} (h : Pending s l)
    (hl : l = skipped ++ u :: l') (hskip : ∀ t ∈ skipped, Halted (s.status t)) :
    Pending { s.clearNext with current := u } l' := by
  subst hl
  have hcurrent := h.current_not_mem
  have hnext : ∀ x, x ≠ s.current → s.clearNext.next x = s.next x := by
    intro x hx
    rw [next, clearNext_mem_of_ne hx, next]
  have hne : ∀ x ∈ u :: l', x ≠ s.current := by
    rintro x hx rfl
    exact hcurrent (mem_append_right _ hx)
  have hsuffix : u :: l' <:+ skipped ++ u :: l' := suffix_append _ _
  have hmem : ∀ x ∈ l', x ∈ skipped ++ u :: l' := fun x hx =>
    mem_append_right _ (mem_cons_of_mem _ hx)
  refine ⟨?_, ?_, fun t ht => h.mem t (hmem t ht), ?_, ?_, ?_, ?_⟩
  · exact h.linked.of_append.congr fun x hx => hnext x (hne x hx)
  · exact (nodup_cons.mp h.nodup).2.sublist hsuffix.sublist
  · refine .inr fun hpre => ?_
    rcases h.prescheduler with heq | hnot
    · have hlen := congrArg length heq
      have hpos := length_pos_of_mem hpre
      simp only [length_append, length_cons, length_nil] at hlen
      omega
    · exact hnot (hmem _ hpre)
  · intro t ht hpre
    show Listed (s.clearNext.status t)
    rw [clearNext_status]
    exact h.listed t (hmem t ht) hpre
  · show l'.IsChain fun a b => s.clearNext.status a = runnable ∨ s.clearNext.status b = runnable
    simp only [clearNext_status]
    exact (h.neighbours.suffix hsuffix).tail
  · intro t ht htu htl htnext
    show Halted (s.clearNext.status t)
    rw [clearNext_status]
    -- The pointer of the thread that ran is cleared, so `t` was off the chain or skipped.
    have htc : t ≠ s.current := by
      rintro rfl
      exact htnext (clearNext_next_self s)
    by_cases hts : t ∈ skipped
    · exact hskip t hts
    · refine h.stale t ht htc ?_ (hnext t htc ▸ htnext)
      simp [hts, htu, htl]

/-- A switch to the prescheduler, with nothing but halted threads left on the chain. -/
lemma Pending.switch_prescheduler (h : Pending s l) (hpre : s.clearNext.next s.prescheduler = none)
    (hskip : ∀ t ∈ l, t ≠ s.prescheduler → Halted (s.status t)) :
    Pending { s.clearNext with current := s.prescheduler } [] := by
  refine ⟨hpre, nodup_singleton _, by simp, .inr (by simp), by simp, isChain_nil, ?_⟩
  intro t ht htpre _ htnext
  show Halted (s.clearNext.status t)
  rw [clearNext_status]
  have htc : t ≠ s.current := by
    rintro rfl
    exact htnext (clearNext_next_self s)
  by_cases htl : t ∈ l
  · exact hskip t htl htpre
  · refine h.stale t ht htc htl ?_
    intro hnone
    apply htnext
    rw [next, clearNext_mem_of_ne htc]
    exact hnone

lemma halted_of_listed {st : ThreadStatus} (h : Listed st) (hne : st ≠ runnable) : Halted st :=
  h.resolve_left hne

/-- The chain after `sch_schedule`. -/
lemma Inv.schedule_chain (h : Inv s) : ∃ l, Pending s.schedule l := by
  obtain ⟨l, hl⟩ := h.chain
  unfold schedule
  rw [hl.scheduleTarget_eq]
  match l, hl with
  | [], hl => exact ⟨[], hl.switch_prescheduler h.clearNext_prescheduler (by simp)⟩
  | t :: l, hl =>
    by_cases ht : s.status t = runnable
    · simp only [ht, if_pos]
      exact ⟨l, hl.switch (nil_append _).symm (by simp)⟩
    · have hhalted : t ≠ s.prescheduler → Halted (s.status t) := fun hpre =>
        halted_of_listed (hl.listed t mem_cons_self hpre) ht
      simp only [ht, if_false]
      match l, hl with
      | [], hl =>
        refine ⟨[], hl.switch_prescheduler h.clearNext_prescheduler fun x hx hpre => ?_⟩
        obtain rfl := mem_singleton.mp hx
        exact hhalted hpre
      | u :: l, hl =>
        have hpre : t ≠ s.prescheduler := by
          rintro rfl
          rcases hl.prescheduler with heq | hnot
          · simp at heq
          · exact hnot mem_cons_self
        refine ⟨l, hl.switch (singleton_append).symm fun x hx => ?_⟩
        obtain rfl := mem_singleton.mp hx
        exact hhalted hpre

/-! ## The prescheduler and the reaper -/

/-- A write to the prescheduler or the reaper that neither ends nor stops it. -/
structure Unharmed (th th' : Thread) : Prop where
  level : th'.abortlevel = 0 → th.abortlevel = 0
  pid : th'.pid = th.pid
  status : th'.status = th.status ∨ th'.status = runnable ∨ th'.status = blocked

lemma Unharmed.refl (th : Thread) : Unharmed th th := ⟨id, rfl, .inl rfl⟩

lemma KernelThreads.keep (h : KernelThreads s) (hpre : s'.prescheduler = s.prescheduler)
    (hreaper : s'.reaper = s.reaper)
    (hkeep : ∀ t, t = s.prescheduler ∨ t = s.reaper → Unharmed (s.mem t) (s'.mem t)) :
    KernelThreads s' := by
  have hp := hkeep s.prescheduler (.inl rfl)
  have hr := hkeep s.reaper (.inr rfl)
  refine ⟨?_, ?_, ?_, ?_, ?_, ?_, ?_⟩
  · rw [hpre, hreaper]
    exact h.ne
  · rw [hpre]
    exact fun h0 => h.prescheduler_level (hp.level h0)
  · rw [hpre, hp.pid, h.prescheduler_pid]
  · rw [hpre, status]
    rcases hp.status with heq | heq | heq <;> rw [heq]
    · exact h.prescheduler_status
    · decide
    · decide
  · rw [hreaper]
    exact fun h0 => h.reaper_level (hr.level h0)
  · rw [hreaper, hr.pid, h.reaper_pid]
  · rw [hreaper, status]
    rcases hr.status with heq | heq | heq <;> rw [heq]
    · exact h.reaper_status
    · exact .inl rfl
    · exact .inr rfl

lemma Inv.schedule (h : Inv s) : Inv s.schedule where
  __ := h
  toKernelThreads := by
    refine h.toKernelThreads.keep rfl rfl fun t _ => ?_
    show Unharmed (s.mem t) (s.clearNext.mem t)
    by_cases ht : t = s.current
    · subst ht
      rw [clearNext, modify_mem_self]
      exact ⟨id, rfl, .inl rfl⟩
    · rw [clearNext_mem_of_ne ht]
      exact .refl _
  current_mem := h.scheduleTarget_good.1
  prescheduler_next _ := h.clearNext_prescheduler
  chain := h.schedule_chain

/-! ## A pass -/

lemma KernelThreads.startPass (h : KernelThreads s) : KernelThreads s.startPass := by
  have hreaper : s.startPass.mem s.reaper = s.mem s.reaper := startPass_mem_of_ne s h.ne
  refine ⟨h.ne, ?_, ?_, ?_, ?_, ?_, ?_⟩
  · show (s.startPass.mem s.prescheduler).abortlevel ≠ 0
    rw [startPass_mem_self]
    exact h.prescheduler_level
  · show (s.startPass.mem s.prescheduler).pid = 0
    rw [startPass_mem_self]
    exact h.prescheduler_pid
  · show (s.startPass.mem s.prescheduler).status ≠ ending
    rw [startPass_mem_self]
    simp
  · show (s.startPass.mem s.reaper).abortlevel ≠ 0
    rw [hreaper]
    exact h.reaper_level
  · show (s.startPass.mem s.reaper).pid = 0
    rw [hreaper]
    exact h.reaper_pid
  · show (s.startPass.mem s.reaper).status = runnable ∨ (s.startPass.mem s.reaper).status = blocked
    rw [hreaper]
    exact h.reaper_status

lemma Linking.pending {cycle : UInt32} (h : Linking s cycle l) : Pending s l where
  linked := h.current_eq ▸ h.linked
  nodup := h.current_eq ▸ h.nodup
  mem := h.mem
  prescheduler := .inr (nodup_cons.mp h.nodup).1
  listed t ht _ := .inl (h.runnable t ht)
  neighbours := (isChain_isInfix l).imp fun a _ hab =>
    .inl (h.runnable a (hab.subset mem_cons_self))
  stale t ht htc htl htnext := h.stale t ht (h.current_eq ▸ htc) htl htnext

/-- A pass of the prescheduler leaves a chain of runnable threads. -/
lemma Inv.preschedule (h : Inv s) {check : Tptr → Bool} (hpass : s.preschedule check = some s')
    (hcurrent : s.current = s.prescheduler) (hnext : s.next s.prescheduler = none) : Inv s' := by
  obtain ⟨l0, hl0⟩ := h.chain
  -- The prescheduler has yielded, so nothing is pending.
  have hnil : l0 = [] := by
    rw [← hl0.linked.follow_eq le_rfl, hcurrent]
    cases l0.length with
    | zero => rfl
    | succ n => rw [follow, hnext]
  subst hnil
  obtain ⟨l, hl, hkept⟩ := preschedule_linked hpass hcurrent hnext fun t ht hne htnext =>
    hl0.stale t ht (hcurrent ▸ hne) (by simp) htnext
  have hthreads : s'.threads = s.threads := hkept.threads_eq
  have hunharmed : ∀ t, Unharmed (s.startPass.mem t) (s'.mem t) := by
    intro t
    refine ⟨fun h0 => (hkept.abortlevel_eq t).symm.trans h0, hkept.pid_eq t, ?_⟩
    rcases hkept.status_eq t with heq | ⟨-, hr⟩
    · exact .inl heq
    · exact .inr (.inl hr)
  refine ⟨h.toKernelThreads.startPass.keep hkept.prescheduler_eq hkept.reaper_eq
    fun t _ => hunharmed t, hthreads ▸ h.nodup, ?_, ?_, ?_, ?_, l, hl.pending⟩
  · rw [hkept.current_eq, hthreads]
    exact h.current_mem
  · rw [hkept.prescheduler_eq, hthreads]
    exact h.prescheduler_mem
  · rw [hkept.reaper_eq, hthreads]
    exact h.reaper_mem
  · exact fun hne => absurd hl.current_eq hne

end State

end Scheduler
