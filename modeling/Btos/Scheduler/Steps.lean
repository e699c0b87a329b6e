import Btos.Scheduler.RunChain

/-!
# What the other operations do to the chain

Every operation other than a switch and a pass leaves the pointers as they are. What it has to
respect for the invariant `Inv` is said once, in `Inv.adjust`, for operations that change statuses;
three kinds of them follow (`Inv.mild`, `Inv.halt`, `Inv.debugResume`).

Threads are created (`Inv.newThread`) and freed (`Inv.reap`) off the chain.
-/

open List

namespace Scheduler

open ThreadStatus

namespace State

variable {s s' : State} {t : Tptr}

/-! ## Operations that change no pointer -/

/-- The list, the chain and the roles of the threads are as they were. -/
structure Adjusted (s s' : State) : Prop where
  threads_eq : s'.threads = s.threads
  current_eq : s'.current = s.current
  reaper_eq : s'.reaper = s.reaper
  prescheduler_eq : s'.prescheduler = s.prescheduler
  next_eq : ∀ t, s'.next t = s.next t
  unharmed : ∀ t, t = s.prescheduler ∨ t = s.reaper → Unharmed (s.mem t) (s'.mem t)

/-- What such an operation has to respect: what is on the chain and what is off it. -/
lemma Inv.adjust (h : Inv s) (ha : Adjusted s s')
    (hlisted : ∀ t ∈ s.pending, t ≠ s.prescheduler → Listed (s.status t) → Listed (s'.status t))
    (hneigh : s.pending.IsChain fun a b => s'.status a = runnable ∨ s'.status b = runnable)
    (hstale : ∀ t ∈ s.threads, t ≠ s.current → t ∉ s.pending → s.next t ≠ none →
      Halted (s.status t) → Halted (s'.status t)) : Inv s' where
  toKernelThreads := h.toKernelThreads.keep ha.prescheduler_eq ha.reaper_eq ha.unharmed
  nodup := ha.threads_eq ▸ h.nodup
  current_mem := by
    rw [ha.current_eq, ha.threads_eq]
    exact h.current_mem
  prescheduler_mem := by
    rw [ha.prescheduler_eq, ha.threads_eq]
    exact h.prescheduler_mem
  reaper_mem := by
    rw [ha.reaper_eq, ha.threads_eq]
    exact h.reaper_mem
  prescheduler_next hne := by
    rw [ha.current_eq, ha.prescheduler_eq] at hne
    rw [ha.prescheduler_eq, ha.next_eq]
    exact h.prescheduler_next hne
  chain := by
    obtain ⟨l, hl⟩ := h.chain
    rw [hl.pending_eq] at hlisted hneigh hstale
    refine ⟨l, ?_, ?_, ?_, ?_, ?_, hneigh, ?_⟩
    · rw [ha.current_eq]
      exact hl.linked.congr fun x _ => ha.next_eq x
    · rw [ha.current_eq]
      exact hl.nodup
    · rw [ha.threads_eq]
      exact hl.mem
    · rw [ha.prescheduler_eq]
      exact hl.prescheduler
    · rw [ha.prescheduler_eq]
      exact fun t ht hpre => hlisted t ht hpre (hl.listed t ht hpre)
    -- a pointer of a thread off the chain may be kept as long as the thread is halted
    · rw [ha.threads_eq, ha.current_eq]
      intro t ht htc htl htnext
      rw [ha.next_eq] at htnext
      exact hstale t ht htc htl htnext (hl.stale t ht htc htl htnext)

lemma Inv.neighbours_of_runnable (h : Inv s)
    (hrun : ∀ t ∈ s.pending, s.status t = runnable → s'.status t = runnable) :
    s.pending.IsChain fun a b => s'.status a = runnable ∨ s'.status b = runnable := by
  obtain ⟨l, hl⟩ := h.chain
  rw [hl.pending_eq] at hrun ⊢
  refine hl.neighbours.imp_of_mem_imp fun a b ha hb hab => ?_
  rcases hab with hab | hab
  · exact .inl (hrun a ha hab)
  · exact .inr (hrun b hb hab)

lemma Inv.ne_current_of_mem_pending (h : Inv s) (ht : t ∈ s.pending) : t ≠ s.current := by
  obtain ⟨l, hl⟩ := h.chain
  rw [hl.pending_eq] at ht
  rintro rfl
  exact hl.current_not_mem ht

/-- An operation that does to threads other than the running one no more than waking them. -/
lemma Inv.mild (h : Inv s) (ha : Adjusted s s') (hstatus : ∀ t, t ≠ s.current →
      s'.status t = s.status t ∨ (s.status t = blocked ∧ s'.status t = runnable)) : Inv s' := by
  refine h.adjust ha (fun t ht _ hlisted => ?_) (h.neighbours_of_runnable fun t ht hrun => ?_)
    fun t _ htc _ _ hhalted => ?_
  · rcases hstatus t (h.ne_current_of_mem_pending ht) with heq | ⟨-, hr⟩
    · rw [heq]
      exact hlisted
    · exact .inl hr
  · rcases hstatus t (h.ne_current_of_mem_pending ht) with heq | ⟨-, hr⟩
    · rw [heq, hrun]
    · exact hr
  · rcases hstatus t htc with heq | ⟨hb, -⟩
    · rw [heq]
      exact hhalted
    · rw [hb] at hhalted
      rcases hhalted with hh | hh <;> simp at hh

variable {f : Thread → Thread}

lemma modify_adjusted (hnext : ∀ th, (f th).next = th.next)
    (hun : t = s.prescheduler ∨ t = s.reaper → Unharmed (s.mem t) (f (s.mem t))) :
    Adjusted s (s.modify t f) := by
  refine ⟨rfl, rfl, rfl, rfl, fun u => modify_mem_field Thread.next t hnext u, fun u hu => ?_⟩
  by_cases hut : u = t
  · subst hut
    rw [modify_mem_self]
    exact hun hu
  · rw [modify_mem_of_ne s f hut]
    exact .refl _

section

variable (h : Inv s)
include h

lemma Inv.modify_current (hnext : ∀ th, (f th).next = th.next)
    (hun : s.current = s.prescheduler ∨ s.current = s.reaper →
      Unharmed (s.mem s.current) (f (s.mem s.current))) : Inv (s.modify s.current f) := by
  refine h.mild (modify_adjusted hnext hun) fun t ht => .inl ?_
  rw [status, modify_mem_of_ne s f ht, status]

lemma Inv.modify_wake (hnext : ∀ th, (f th).next = th.next)
    (hun : t = s.prescheduler ∨ t = s.reaper → Unharmed (s.mem t) (f (s.mem t)))
    (hstatus : (f (s.mem t)).status = s.status t ∨
      (s.status t = blocked ∧ (f (s.mem t)).status = runnable)) : Inv (s.modify t f) := by
  refine h.mild (modify_adjusted hnext hun) fun u _ => ?_
  by_cases hut : u = t
  · subst hut
    rw [status, modify_mem_self]
    exact hstatus
  · exact .inl (by rw [status, modify_mem_of_ne s f hut, status])

lemma Inv.block (b : Bool) : Inv (s.block b) :=
  h.modify_current (fun _ => rfl) fun _ => ⟨id, rfl, .inr (.inr rfl)⟩

lemma Inv.clearblock : Inv s.clearblock :=
  h.modify_current (fun _ => rfl) fun _ => ⟨id, rfl, .inl rfl⟩

lemma Inv.setPriority (p : UInt32) : Inv (s.setPriority p) :=
  h.modify_current (fun _ => rfl) fun _ => ⟨id, rfl, .inl rfl⟩

lemma Inv.setPid (pid : ℕ) (hpre : s.current ≠ s.prescheduler)
    (hreaper : s.current ≠ s.reaper) : Inv (s.setPid pid) :=
  h.modify_current (fun _ => rfl) fun hor => absurd hor (not_or.mpr ⟨hpre, hreaper⟩)

lemma Inv.yieldTo (pid returnPid : ℕ) : Inv (s.yieldTo pid returnPid) := by
  unfold State.yieldTo
  split
  · refine h.mild ⟨rfl, rfl, rfl, rfl, fun t => rfl, fun t _ => .refl _⟩ fun t _ => .inl rfl
  · exact h

lemma Inv.unblock (extId : ℕ) : Inv (s.unblock extId) := by
  unfold State.unblock
  split
  · exact h
  · rename_i t _
    have hwake : ∀ th : Thread,
        (if th.status = blocked then { th with status := runnable } else th).next = th.next := by
      intro th
      split <;> rfl
    refine h.modify_wake hwake (fun _ => ?_) ?_
    · split
      · exact ⟨id, rfl, .inr (.inl rfl)⟩
      · exact .refl _
    · split
      · rename_i hb
        exact .inr ⟨hb, rfl⟩
      · exact .inl rfl

lemma Inv.wakeReaper : Inv s.wakeReaper := by
  refine h.modify_wake (fun _ => rfl) (fun _ => ⟨id, rfl, .inr (.inl rfl)⟩) ?_
  rcases h.reaper_status with hr | hb
  · exact .inl hr.symm
  · exact .inr ⟨hb, rfl⟩

lemma Inv.endThread (hpre : s.current ≠ s.prescheduler)
    (hreaper : s.current ≠ s.reaper) : Inv s.endThread := by
  have hend := h.modify_current (f := fun t => { t with status := ending }) (fun _ => rfl)
    fun hor => absurd hor (not_or.mpr ⟨hpre, hreaper⟩)
  exact hend.wakeReaper

end

/-- `sch_abortable` may take the prescheduler and the reaper down to the level they have been
created with. -/
lemma Inv.abortable (h : Inv s) (t : Tptr) (b : Bool)
    (hlevel : t = s.prescheduler ∨ t = s.reaper → b = true → 2 < (s.mem t).abortlevel) :
    Inv (s.abortable t b) := by
  refine h.modify_wake (fun _ => rfl) (fun hor => ⟨fun h0 => ?_, rfl, .inl rfl⟩) (.inl rfl)
  by_cases hb : b = true
  · have hlt := hlevel hor hb
    simp only [hb, if_true] at h0
    omega
  · simp [hb] at h0

/-! ## Ending, stopping and resuming threads -/

lemma modifyAll_adjusted {p : Tptr → Bool} (hnext : ∀ th, (f th).next = th.next)
    (hun : ∀ t, t = s.prescheduler ∨ t = s.reaper → p t = true →
      Unharmed (s.mem t) (f (s.mem t))) : Adjusted s (s.modifyAll p f) := by
  refine ⟨rfl, rfl, rfl, rfl, fun t => ?_, fun t ht => ?_⟩
  · show (if t ∈ s.threads ∧ p t = true then f (s.mem t) else s.mem t).next = (s.mem t).next
    split
    · exact hnext _
    · rfl
  · show Unharmed (s.mem t) (if t ∈ s.threads ∧ p t = true then f (s.mem t) else s.mem t)
    split
    · rename_i hp
      exact hun t ht hp.2
    · exact .refl _

lemma status_modifyAll (p : Tptr → Bool) (f : Thread → Thread) (t : Tptr) :
    (s.modifyAll p f).status t =
      if t ∈ s.threads ∧ p t = true then (f (s.mem t)).status else s.status t := by
  show (if t ∈ s.threads ∧ p t = true then f (s.mem t) else s.mem t).status = _
  split <;> rfl

/-- An operation that ends or stops threads, though no two neighbours on the chain. -/
lemma Inv.halt (h : Inv s) (ha : Adjusted s s')
    (hstatus : ∀ t, s'.status t = s.status t ∨ s'.status t = ending ∨
      (s.status t = runnable ∧ s'.status t = debugStopped) ∨
      (s.status t = blocked ∧ s'.status t = debugBlocked))
    (hneigh : s.pending.IsChain fun a b => s'.status a = runnable ∨ s'.status b = runnable) :
    Inv s' := by
  refine h.adjust ha (fun t _ _ hlisted => ?_) hneigh fun t _ _ _ _ hhalted => ?_
  · rcases hstatus t with heq | heq | ⟨-, heq⟩ | ⟨hb, -⟩
    · rw [heq]
      exact hlisted
    · exact .inr (.inr heq)
    · exact .inr (.inl heq)
    · rw [hb] at hlisted
      rcases hlisted with hh | hh | hh <;> simp at hh
  · rcases hstatus t with heq | heq | ⟨hr, -⟩ | ⟨hb, -⟩
    · rw [heq]
      exact hhalted
    · exact .inr heq
    · rw [hr] at hhalted
      rcases hhalted with hh | hh <;> simp at hh
    · rw [hb] at hhalted
      rcases hhalted with hh | hh <;> simp at hh

/-- The thread is runnable and `sch_abort` does not end it. -/
def OutlivesAbort (s : State) (extId : ℕ) (t : Tptr) : Prop :=
  s.status t = runnable ∧ ¬ ((s.mem t).extId = extId ∧ (s.mem t).abortlevel = 0)

/-- The thread is runnable and `sch_debug_stop` does not stop it. -/
def OutlivesStop (s : State) (pid : ℕ) (t : Tptr) : Prop :=
  s.status t = runnable ∧ (s.mem t).pid ≠ pid

section

variable (h : Inv s) {extId : ℕ}
  (hneigh : s.pending.IsChain fun a b => s.OutlivesAbort extId a ∨ s.OutlivesAbort extId b)

include h hneigh

/-- The write of `sch_abort` to the threads that may be aborted. -/
lemma Inv.endAll :
    Inv (s.modifyAll (fun t => (s.mem t).extId = extId && (s.mem t).abortlevel = 0)
      fun t => { t with status := ending }) := by
  refine h.halt (modifyAll_adjusted (fun _ => rfl) fun t ht hp => ?_) (fun t => ?_) ?_
  · -- The level of the prescheduler and of the reaper is never 0.
    simp only [Bool.and_eq_true, decide_eq_true_eq] at hp
    rcases ht with rfl | rfl
    · exact absurd hp.2 h.prescheduler_level
    · exact absurd hp.2 h.reaper_level
  · rw [status_modifyAll]
    split
    · exact .inr (.inl rfl)
    · exact .inl rfl
  · have hrun : ∀ t, s.OutlivesAbort extId t → (s.modifyAll
        (fun t => (s.mem t).extId = extId && (s.mem t).abortlevel = 0)
        fun t => { t with status := ending }).status t = runnable := by
      intro t ht
      rw [status_modifyAll, if_neg, ht.1]
      simp only [Bool.and_eq_true, decide_eq_true_eq]
      exact fun hp => ht.2 hp.2
    exact hneigh.imp fun a b hab => hab.imp (hrun a) (hrun b)

lemma Inv.abort (habort : s.abort extId = some s') : Inv s' := by
  unfold State.abort at habort
  split at habort
  · simp at habort
  · cases habort
    set s1 := s.modifyAll (fun t => (s.mem t).extId = extId && (s.mem t).abortlevel ≠ 0)
      fun t => { t with userAbort := true } with hs1
    -- The flag of the threads that may not be aborted is none of the fields at stake.
    have hmem : ∀ t, (s1.mem t).status = (s.mem t).status ∧ (s1.mem t).extId = (s.mem t).extId ∧
        (s1.mem t).abortlevel = (s.mem t).abortlevel := by
      intro t
      simp only [hs1, modifyAll]
      split <;> exact ⟨rfl, rfl, rfl⟩
    have hinv1 : Inv s1 := by
      refine h.mild (modifyAll_adjusted (fun _ => rfl) fun t _ _ => ⟨id, rfl, .inl rfl⟩)
        fun t _ => .inl (hmem t).1
    have hpending : s1.pending = s.pending := by
      unfold pending
      congr 1
      ext1 t
      show (s1.mem t).next = (s.mem t).next
      simp only [hs1, modifyAll]
      split <;> rfl
    have houtlives : ∀ t, s.OutlivesAbort extId t → s1.OutlivesAbort extId t := by
      intro t ht
      rw [OutlivesAbort, status, (hmem t).1, (hmem t).2.1, (hmem t).2.2]
      exact ht
    have hneigh1 : s1.pending.IsChain fun a b =>
        s1.OutlivesAbort extId a ∨ s1.OutlivesAbort extId b := by
      rw [hpending]
      exact hneigh.imp fun a b hab => hab.imp (houtlives a) (houtlives b)
    have hinv2 := hinv1.endAll hneigh1
    simp only [(hmem _).2.1, (hmem _).2.2] at hinv2
    split
    · exact hinv2.wakeReaper
    · exact hinv2

end

lemma Inv.debugStop (h : Inv s) {pid : ℕ} (hpid : pid ≠ 0)
    (hneigh : s.pending.IsChain fun a b => s.OutlivesStop pid a ∨ s.OutlivesStop pid b) :
    Inv (s.debugStop pid) := by
  refine h.halt (modifyAll_adjusted (fun th => ?_) fun t ht hp => ?_) (fun t => ?_) ?_
  · split
    · rfl
    · split <;> rfl
  · rw [decide_eq_true_eq] at hp
    rcases ht with rfl | rfl
    · exact absurd (hp.symm.trans h.prescheduler_pid) hpid
    · exact absurd (hp.symm.trans h.reaper_pid) hpid
  · rw [State.debugStop, status_modifyAll]
    split
    · split
      · rename_i hr
        exact .inr (.inr (.inl ⟨hr, rfl⟩))
      · split
        · rename_i hb
          exact .inr (.inr (.inr ⟨hb, rfl⟩))
        · exact .inl rfl
    · exact .inl rfl
  · have hrun : ∀ t, s.OutlivesStop pid t → (s.debugStop pid).status t = runnable := by
      intro t ht
      rw [State.debugStop, status_modifyAll, if_neg, ht.1]
      rw [decide_eq_true_eq]
      exact fun hp => ht.2 hp.2
    exact hneigh.imp fun a b hab => hab.imp (hrun a) (hrun b)

/-- `sch_debug_resume` makes threads runnable again. Those that were skipped since must not have
kept their pointer. -/
lemma Inv.debugResume (h : Inv s) {pid : ℕ} (hpid : pid ≠ 0)
    (hskipped : ∀ t ∈ s.threads, (s.mem t).pid = pid → s.status t = debugStopped →
      t ≠ s.current → t ∉ s.pending → s.next t = none) : Inv (s.debugResume pid) := by
  -- a thread stays as it is, becomes runnable, or was blocked when it was stopped
  have hstatus : ∀ t, (s.debugResume pid).status t = s.status t ∨
      (t ∈ s.threads ∧ (s.mem t).pid = pid ∧ s.status t = debugStopped ∧
        (s.debugResume pid).status t = runnable) ∨ s.status t = debugBlocked := by
    intro t
    rw [State.debugResume, status_modifyAll]
    split
    · rename_i hp
      rw [decide_eq_true_eq] at hp
      split
      · rename_i hs
        exact .inr (.inl ⟨hp.1, hp.2, hs, rfl⟩)
      · split
        · rename_i hb
          exact .inr (.inr hb)
        · exact .inl rfl
    · exact .inl rfl
  refine h.adjust (modifyAll_adjusted (fun th => ?_) fun t ht hp => ?_) (fun t _ _ hlisted => ?_)
    (h.neighbours_of_runnable fun t _ hrun => ?_) fun t ht htc htl htnext hhalted => ?_
  · split
    · rfl
    · split <;> rfl
  · rw [decide_eq_true_eq] at hp
    rcases ht with rfl | rfl
    · exact absurd (hp.symm.trans h.prescheduler_pid) hpid
    · exact absurd (hp.symm.trans h.reaper_pid) hpid
  · rcases hstatus t with heq | ⟨-, -, -, hr⟩ | hb
    · rw [heq]
      exact hlisted
    · exact .inl hr
    · rw [hb] at hlisted
      rcases hlisted with hh | hh | hh <;> simp at hh
  · rcases hstatus t with heq | ⟨-, -, -, hr⟩ | hb
    · rw [heq, hrun]
    · exact hr
    · simp [hb] at hrun
  · rcases hstatus t with heq | ⟨-, hp, hs, -⟩ | hb
    · rw [heq]
      exact hhalted
    -- a thread with a stale pointer must not become runnable
    · exact absurd (hskipped t ht hp hs htc htl) htnext
    · rw [hb] at hhalted
      rcases hhalted with hh | hh <;> simp at hh

/-! ## Threads that come and go -/

lemma reapTarget_spec {t : Tptr} (h : s.reapTarget = some t) :
    t ∈ s.threads ∧ s.status t = ending := by
  rw [reapTarget, find?_eq_some_iff_append] at h
  obtain ⟨hs, l1, l2, heq, -⟩ := h
  rw [decide_eq_true_eq] at hs
  exact ⟨heq ▸ by simp, hs⟩

/-- The reaper must not free a thread that is still on the chain. -/
lemma Inv.reap (h : Inv s) (hcurrent : s.current = s.reaper)
    (hreap : ∀ t, s.reapTarget = some t → t ∉ s.pending) : Inv s.reap := by
  unfold State.reap
  split
  · exact h
  · rename_i t ht
    obtain ⟨-, hend⟩ := reapTarget_spec ht
    -- only a thread that is ending goes, so that those of the kernel stay
    have hne : ∀ u, s.status u ≠ ending → u ∈ s.threads → u ∈ s.threads.erase t := by
      intro u hu hmem
      exact (mem_erase_of_ne (by rintro rfl; exact hu hend)).mpr hmem
    have hreaper : s.reaper ∈ s.threads.erase t := by
      refine hne _ ?_ h.reaper_mem
      rcases h.reaper_status with hs | hs <;> simp [hs]
    obtain ⟨l, hl⟩ := h.chain
    have hnot := hreap t ht
    rw [hl.pending_eq] at hnot
    refine ⟨h.toKernelThreads.keep rfl rfl fun u _ => .refl _, h.nodup.erase t, ?_,
      hne _ h.prescheduler_status h.prescheduler_mem, hreaper, h.prescheduler_next, l,
      hl.linked, hl.nodup, ?_, hl.prescheduler, hl.listed, hl.neighbours, ?_⟩
    · show s.current ∈ s.threads.erase t
      rw [hcurrent]
      exact hreaper
    · intro u hu
      refine (mem_erase_of_ne ?_).mpr (hl.mem u hu)
      rintro rfl
      exact hnot hu
    · exact fun u hu => hl.stale u (mem_of_mem_erase hu)

lemma Inv.newThread (h : Inv s) (ht : t ∉ s.threads) : Inv (s.newThread t) := by
  have hmem : ∀ u ∈ s.threads, (s.newThread t).mem u = s.mem u := by
    intro u hu
    have hut : u ≠ t := by
      rintro rfl
      exact ht hu
    simp [State.newThread, Function.update_of_ne hut]
  have hold : ∀ u ∈ s.threads, u ∈ (s.newThread t).threads := fun u hu =>
    mem_append_left _ hu
  obtain ⟨l, hl⟩ := h.chain
  have hstatus : ∀ u ∈ s.threads, (s.newThread t).status u = s.status u := fun u hu => by
    rw [status, hmem u hu, status]
  have hnext : ∀ u ∈ s.threads, (s.newThread t).next u = s.next u := fun u hu => by
    rw [next, hmem u hu, next]
  refine ⟨h.toKernelThreads.keep rfl rfl ?_, ?_, hold _ h.current_mem,
    hold _ h.prescheduler_mem, hold _ h.reaper_mem, ?_, l, ?_, hl.nodup,
    fun u hu => hold u (hl.mem u hu), hl.prescheduler, ?_, ?_, ?_⟩
  · rintro u (rfl | rfl)
    · rw [hmem _ h.prescheduler_mem]
      exact .refl _
    · rw [hmem _ h.reaper_mem]
      exact .refl _
  · show (s.threads ++ [t]).Nodup
    rw [nodup_append]
    refine ⟨h.nodup, nodup_singleton t, fun u hu v hv => ?_⟩
    rintro rfl
    exact ht (mem_singleton.mp hv ▸ hu)
  · intro hne
    rw [← h.prescheduler_next hne]
    exact hnext _ h.prescheduler_mem
  · refine hl.linked.congr fun u hu => hnext u ?_
    rcases mem_cons.mp hu with rfl | hu
    · exact h.current_mem
    · exact hl.mem u hu
  · intro u hu hpre
    rw [hstatus u (hl.mem u hu)]
    exact hl.listed u hu hpre
  · refine hl.neighbours.imp_of_mem_imp fun a b ha hb hab => ?_
    rw [hstatus a (hl.mem a ha), hstatus b (hl.mem b hb)]
    exact hab
  · intro u hu huc hul hunext
    rcases mem_append.mp hu with hu | hu
    · rw [hnext u hu] at hunext
      rw [hstatus u hu]
      exact hl.stale u hu huc hul hunext
    · -- A new thread has no pointer.
      obtain rfl := mem_singleton.mp hu
      exact absurd (by simp [next, State.newThread]) hunext

end State

end Scheduler
