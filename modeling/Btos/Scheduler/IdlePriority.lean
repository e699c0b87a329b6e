import Btos.Scheduler.Switches
import Mathlib.Data.List.DropRight

/-!
# The idle priority

A thread of priority `0xFFFFFFFF` should run only when nothing else can: a pass of the
prescheduler should place it on the chain only if no thread of a smaller priority is runnable.

`sch_find_thread` means to put such a thread behind the others by setting its dynamic priority
to the largest number, but its test `!priority == 0xFFFFFFFF` never holds. The dynamic priority
of the idle thread then comes down like that of every other thread, until it is due.

Main results: `idleLast_of_takes` and `exists_not_idleLast`.
-/

open List

namespace Scheduler

open ThreadStatus

namespace State

variable {s s' : State} {check : Tptr → Bool} {cycle : UInt32} {i j t : Tptr}

/-! ## What a pass should do -/

/-- The pass from `s` to `s'` has placed `t` on the chain: it marks what it places with the
number of its cycle. -/
def PlacedBy (s s' : State) (t : Tptr) : Prop :=
  (s.mem t).schCycle ≠ s.cycle + 1 ∧ (s'.mem t).schCycle = s.cycle + 1

/-- The pass from `s` to `s'` has placed threads of the idle priority only if no thread of a
smaller priority is runnable. Statuses change at the beginning of a pass only, so those of `s'`
are those that the pass has seen. -/
def IdleLast (s s' : State) : Prop :=
  ∀ i ∈ s.threads, (s.mem i).priority = idlePriority → PlacedBy s s' i →
    ∀ u ∈ s.threads, s'.status u = runnable → ¬ (s.mem u).priority < idlePriority

/-- `t` is runnable in a pass: it was before, or the pass wakes it. -/
def RunnableIn (s : State) (cycle : UInt32) (check : Tptr → Bool) (t : Tptr) : Prop :=
  t ≠ s.prescheduler ∧ (s.status t = runnable ∨
    (s.lcycle ≠ cycle ∧ s.status t = blocked ∧ (s.mem t).blockcheck = true ∧ check t = true))

/-- The preference of `sch_yield_to` cannot get to a thread. It goes on from
`preferred_next_pid` to `preferred_return_pid` and then to 0. -/
def NotPreferred (s : State) (t : Tptr) : Prop :=
  s.preferredNextPid = 0 ∨ ((s.mem t).pid ≠ s.preferredNextPid ∧
    (s.mem t).pid ≠ s.preferredReturnPid ∧ (s.mem t).pid ≠ 0)

/-- The dynamic priority of `i` is above that of `j` by more than `d`. -/
def Lag (s : State) (i j : Tptr) (d : ℕ) : Prop :=
  (s.mem j).dynpriority.toNat + d < (s.mem i).dynpriority.toNat

/-- The most that placing a thread may set its dynamic priority to. -/
def reach (t : Thread) : ℕ := t.priority.toNat + max t.modifier.toNat modifierLimit.toNat

/-- `sch_find_thread` takes `j` before `i`: it looks for the smallest dynamic priority, and of
several threads that have it, it takes the last one in the list. -/
def Precedes (s : State) (j i : Tptr) : Prop :=
  s.Lag i j 0 ∨ ((s.mem j).dynpriority = (s.mem i).dynpriority ∧
    j ∈ s.threads.rtakeWhile (· ≠ i))

/-- A runnable thread `j` keeps the pass from placing `i`. If `i` is the idle thread, it is enough
that something else is placed first. Any other `i` is not placed once the pass has ended, and it
ends at a thread that it has placed already and at the idle thread, unless that is the first one. -/
def HeldBack (s : State) (check : Tptr → Bool) (i : Tptr) : Prop :=
  ∃ j ∈ s.threads, s.RunnableIn (s.cycle + 1) check j ∧
    ((i = s.idle ∧ s.Precedes j i) ∨
      (j = s.idle ∧ s.Precedes j i ∧ s.NotPreferred j ∧
        ∃ w ∈ s.threads, s.RunnableIn (s.cycle + 1) check w ∧ s.Precedes w j) ∨
      ((s.mem j).schCycle ≠ s.cycle + 1 ∧ s.Lag i j (reach (s.mem j))) ∨
      ((s.mem j).schCycle = s.cycle + 1 ∧ s.Precedes j i))

/-- When a pass begins and a thread of a smaller priority is runnable in it, all runnable threads of
the idle priority are held back. -/
def IdleBehind (s : State) : Action → Prop
  | .preschedule awake => ∀ i ∈ s.threads, (s.mem i).priority = idlePriority →
      s.RunnableIn (s.cycle + 1) (fun t => t ∈ awake) i → (s.mem i).schCycle ≠ s.cycle + 1 →
      (∃ u ∈ s.threads, s.RunnableIn (s.cycle + 1) (fun t => t ∈ awake) u ∧
        (s.mem u).priority < idlePriority) →
      s.NotPreferred i ∧ s.HeldBack (fun t => t ∈ awake) i
  | _ => True

instance (s s' : State) : Decidable (IdleLast s s') :=
  inferInstanceAs (Decidable (∀ i ∈ s.threads, _ → _ ∧ _ → ∀ u ∈ s.threads, _ → ¬ _))

instance (s : State) (cycle : UInt32) (check : Tptr → Bool) (t : Tptr) :
    Decidable (s.RunnableIn cycle check t) :=
  inferInstanceAs (Decidable (_ ∧ (_ ∨ _)))

instance (s : State) (t : Tptr) : Decidable (s.NotPreferred t) :=
  inferInstanceAs (Decidable (_ ∨ _))

instance (s : State) (i j : Tptr) (d : ℕ) : Decidable (s.Lag i j d) :=
  inferInstanceAs (Decidable (_ < _))

instance (s : State) (i j : Tptr) : Decidable (s.Precedes j i) :=
  inferInstanceAs (Decidable (_ ∨ _))

instance (s : State) (check : Tptr → Bool) (i : Tptr) : Decidable (s.HeldBack check i) := by
  unfold HeldBack
  infer_instance

instance (s : State) : (a : Action) → Decidable (s.IdleBehind a) := by
  intro a
  cases a <;> unfold IdleBehind <;> infer_instance

/-! ## What `sch_find_thread` does to the numbers -/

variable {β : Type*}

lemma wakeAll_mem_field (g : Thread → β)
    (hg : ∀ th : Thread, g { th with status := .runnable } = g th) (t : Tptr) :
    g ((s.wakeAll check cycle).mem t) = g (s.mem t) := by
  unfold wakeAll
  dsimp only
  split
  · rw [wake_eq]
    split
    · exact hg _
    · rfl
  · rfl

/-- Exactly the threads that are runnable in the pass are so once `sch_find_thread` has woken
them. -/
lemma wakeAll_status (ht : t ∈ s.threads) (hpre : t ≠ s.prescheduler) :
    (s.wakeAll check cycle).status t = runnable ↔ s.RunnableIn cycle check t := by
  unfold wakeAll status RunnableIn
  simp only [if_pos ht, wake_eq, status]
  by_cases hb : (s.mem t).status = blocked
  · by_cases hrest : s.lcycle ≠ cycle ∧ check t = true ∧ (s.mem t).blockcheck = true
    · simp [hb, hrest, hpre]
    · simp only [hb]
      split
      · rename_i hcond
        simp only [Bool.and_eq_true, decide_eq_true_eq] at hcond
        exact absurd ⟨hcond.1.1.1, hcond.1.1.2, hcond.2⟩ hrest
      · simp only [hb]
        constructor
        · intro h
          cases h
        · rintro ⟨-, h | ⟨h1, -, h2, h3⟩⟩
          · cases h
          · exact absurd ⟨h1, h3, h2⟩ hrest
  · simp [hb, hpre]

lemma woken_notPreferred (check : Tptr → Bool) (cycle : UInt32) (h : s.NotPreferred i) :
    (s.woken check cycle).NotPreferred i := by
  have hpid := (woken_found (s := s) check cycle).pid_eq i
  rw [NotPreferred, hpid]
  exact h

lemma woken_dynpriority (check : Tptr → Bool) (cycle : UInt32) (u : Tptr) :
    ((s.woken check cycle).mem u).dynpriority = (s.mem u).dynpriority :=
  wakeAll_mem_field Thread.dynpriority (fun _ => rfl) u

lemma woken_lag (check : Tptr → Bool) (cycle : UInt32) {d : ℕ} (h : s.Lag i j d) :
    (s.woken check cycle).Lag i j d := by
  rwa [Lag, woken_dynpriority, woken_dynpriority]

lemma woken_precedes (check : Tptr → Bool) (cycle : UInt32) (h : s.Precedes j i) :
    (s.woken check cycle).Precedes j i := by
  rwa [Precedes, Lag, woken_dynpriority, woken_dynpriority]

lemma Lag.mono {d d' : ℕ} (h : s.Lag i j d) (hd : d' ≤ d) : s.Lag i j d' := by
  rw [Lag] at h ⊢
  omega

lemma Lag.precedes {d : ℕ} (h : s.Lag i j d) : s.Precedes j i := .inl (h.mono (Nat.zero_le d))

lemma Lag.lt {d : ℕ} (h : s.Lag i j d) : d < 2 ^ 32 := by
  have hi := (s.mem i).dynpriority.toNat_lt
  rw [Lag] at h
  omega

/-- The loop for the preferred process only ever looks for the three ids. -/
lemma findPreferred_pid {P : ℕ → Prop} (h0 : P 0) (ts : List Tptr)
    (r : Option Tptr × ℕ × ℕ) (hnext : P r.2.1) (hreturn : P r.2.2) :
    (∀ t, (s.findPreferred ts r).1 = some t → r.1 = some t ∨ P (s.mem t).pid) ∧
      P (s.findPreferred ts r).2.1 ∧ P (s.findPreferred ts r).2.2 := by
  induction ts generalizing r with
  | nil => exact ⟨fun t ht => .inl ht, hnext, hreturn⟩
  | cons u ts ih =>
    obtain ⟨torun, nextPid, returnPid⟩ := r
    rw [findPreferred]
    split
    · rename_i hu
      obtain ⟨hfst, hsnd⟩ := ih (some u, returnPid, 0) hreturn h0
      refine ⟨fun t ht => ?_, hsnd⟩
      rcases hfst t ht with heq | hp
      · cases heq
        exact .inr (hu.2 ▸ hnext)
      · exact .inr hp
    · exact ih (torun, nextPid, returnPid) hnext hreturn

/-- Nothing behind the last element that is taken could be taken. -/
lemma not_of_mem_rtakeWhile {p : Tptr → Bool} {l : List Tptr} {u : Tptr}
    (h : (l.filter p).getLast? = some t) (hu : u ∈ l.rtakeWhile (· ≠ t)) : p u = false := by
  by_contra hp
  obtain ⟨front, hl⟩ := rtakeWhile_suffix (· ≠ t) l
  have hne : (l.rtakeWhile (· ≠ t)).filter p ≠ [] :=
    ne_nil_of_mem (mem_filter.mpr ⟨hu, Bool.of_not_eq_false hp⟩)
  rw [← hl, filter_append, getLast?_append_of_ne_nil _ hne] at h
  have ht := mem_rtakeWhile_imp (mem_filter.mp (mem_of_getLast? h)).1
  simp at ht

/-- What the choice does to the numbers of the threads: the dynamic priorities go down by the
same amount, which no runnable thread is below, and the thread chosen is the preferred one or
the last one that has come down to 0. -/
structure Chosen (s : State) (t : Tptr) (s' : State) (min : UInt32) : Prop where
  min_le : ∀ u ∈ s.runnables, min ≤ (s.mem u).dynpriority
  mem_eq : ∀ u, ∃ m : UInt32, m.toNat ≤ max (s.mem u).modifier.toNat modifierLimit.toNat ∧
    s'.mem u = { s.mem u with
      dynpriority := if u ∈ s.threads ∧ (s.mem u).status = runnable ∧ (s.mem u).dynpriority ≠ 0
        then (s.mem u).dynpriority - min else (s.mem u).dynpriority
      modifier := m }
  taken : ¬ s.NotPreferred t ∨ ((s'.mem t).dynpriority = 0 ∧
    ∀ u ∈ s.runnables, u ∈ s.threads.rtakeWhile (· ≠ t) → (s'.mem u).dynpriority ≠ 0)
  notPreferred : ∀ u, s.NotPreferred u → s'.NotPreferred u
  idle_eq : s'.idle = s.idle
  lcycle_eq : s'.lcycle = s.lcycle
  threads_eq : s'.threads = s.threads

lemma exists_modify_raiseModifier_mem (s : State) (t u : Tptr) :
    ∃ m : UInt32, m.toNat ≤ max (s.mem u).modifier.toNat modifierLimit.toNat ∧
      (s.modify t raiseModifier).mem u = { s.mem u with modifier := m } := by
  by_cases hu : u = t
  · subst hu
    rw [modify_mem_self]
    exact exists_raiseModifier_eq _
  · rw [modify_mem_of_ne s _ hu]
    exact ⟨(s.mem u).modifier, le_max_left _ _, rfl⟩

lemma choose_chosen (h : s.runnables ≠ []) (hc : s.status s.current ≠ runnable) :
    ∃ min, Chosen s s.choose.1 s.choose.2 min := by
  unfold choose
  generalize hr : (if s.preferredNextPid ≠ 0 then
      s.findPreferred s.threads (none, s.preferredNextPid, s.preferredReturnPid)
    else (none, s.preferredNextPid, s.preferredReturnPid)) = r
  -- Where the preference is after the first loop.
  have hpid : ∀ u, s.NotPreferred u → r.1 ≠ some u ∧ (r.2.1 = 0 ∨ (s.mem u).pid ≠ r.2.1 ∧
      (s.mem u).pid ≠ r.2.2 ∧ (s.mem u).pid ≠ 0) := by
    subst hr
    rintro u (h0 | ⟨h1, h2, h3⟩)
    · simp [h0]
    · split_ifs
      · obtain ⟨hfst, hn, hr⟩ := findPreferred_pid (P := fun p => (s.mem u).pid ≠ p) h3
          s.threads (none, s.preferredNextPid, s.preferredReturnPid) h1 h2
        refine ⟨fun hu => ?_, .inr ⟨hn, hr, h3⟩⟩
        rcases hfst u hu with heq | hne
        · cases heq
        · exact hne rfl
      · exact ⟨nofun, .inr ⟨h1, h2, h3⟩⟩
  obtain ⟨preferred, nextPid, returnPid⟩ := r
  set s1 : State := { s with preferredNextPid := nextPid, preferredReturnPid := returnPid }
  cases preferred with
  | some t =>
    refine ⟨0, fun u _ => UInt32.zero_le, fun u => ?_, .inl fun ht => (hpid t ht).1 rfl,
      fun u hu => ?_, rfl, rfl, rfl⟩
    · obtain ⟨m, hm, heq⟩ := exists_modify_raiseModifier_mem s1 t u
      refine ⟨m, hm, ?_⟩
      rw [UInt32.sub_zero, ite_self]
      exact heq
    · obtain ⟨m, -, heq⟩ := exists_modify_raiseModifier_mem s1 t u
      rw [NotPreferred, heq]
      exact (hpid u hu).2
  | none =>
    dsimp only
    set s2 := s1.ageAll s1.minDynpriority with hs2
    have hmem2 (u : Tptr) : ∃ m : UInt32,
        m.toNat ≤ max (s.mem u).modifier.toNat modifierLimit.toNat ∧ s2.mem u = { s.mem u with
          dynpriority :=
            if u ∈ s.threads ∧ (s.mem u).status = runnable ∧ (s.mem u).dynpriority ≠ 0
              then (s.mem u).dynpriority - s.minDynpriority else (s.mem u).dynpriority
          modifier := m } := by
      by_cases hu : u ∈ s.threads
      · obtain ⟨m, hm, heq⟩ := exists_age_eq s.minDynpriority (u = s.current) (s.mem u)
        refine ⟨m, hm.trans (le_max_left _ _), ?_⟩
        simp only [hu, true_and]
        rw [← heq, hs2, ageAll]
        exact if_pos hu
      · refine ⟨(s.mem u).modifier, le_max_left _ _, ?_⟩
        rw [if_neg fun h => hu h.1, hs2, ageAll]
        exact if_neg hu
    obtain ⟨t, ht⟩ := Option.ne_none_iff_exists'.mp (findDue_ageAll_ne_none (s := s1) h hc)
    have hget : s2.findDue.getD s2.current = t := by
      rw [hs2, ht, Option.getD_some]
    rw [hget]
    refine ⟨s.minDynpriority, fun u hu => ?_, fun u => ?_, .inr ⟨?_, ?_⟩, fun u hu => ?_,
      rfl, rfl, rfl⟩
    · obtain ⟨-, -, hall⟩ :=
        foldl_min_spec (s.runnables.map fun t => (s.mem t).dynpriority) idlePriority
      exact hall _ (mem_map.mpr ⟨u, hu, rfl⟩)
    · obtain ⟨m, hm, heq⟩ := hmem2 u
      obtain ⟨m', hm', heq'⟩ := exists_modify_raiseModifier_mem s2 t u
      rw [heq] at heq' hm'
      exact ⟨m', hm'.trans (max_le hm (le_max_right _ _)), heq'⟩
    · have hmem := List.mem_of_getLast? ht
      simp only [mem_filter, Bool.and_eq_true, decide_eq_true_eq] at hmem
      obtain ⟨m, -, heq⟩ := exists_modify_raiseModifier_mem s2 t t
      rw [heq]
      exact hmem.2.2
    · intro u hu hbehind hzero
      rw [runnables, mem_filter, decide_eq_true_eq] at hu
      obtain ⟨m, -, heq⟩ := hmem2 u
      obtain ⟨m', -, heq'⟩ := exists_modify_raiseModifier_mem s2 t u
      replace hzero : (s2.mem u).dynpriority = 0 := by
        rw [heq'] at hzero
        exact hzero
      have hstatus : s2.status u = .runnable := by
        rw [status, heq]
        exact hu.2
      have hcurrent : u ≠ s2.current := fun h => hc (h ▸ hu.2)
      have hdue : (s2.status u = .runnable && u ≠ s2.current && (s2.mem u).dynpriority = 0) =
          true := by
        simp [hstatus, hcurrent, hzero]
      exact Bool.false_ne_true ((not_of_mem_rtakeWhile ht hbehind).symm.trans hdue)
    · obtain ⟨m, -, heq⟩ := hmem2 u
      obtain ⟨m', -, heq'⟩ := exists_modify_raiseModifier_mem s2 t u
      rw [NotPreferred, heq', heq]
      exact (hpid u hu).2

namespace Chosen

variable {min : UInt32} {d : ℕ}

section

variable (h : Chosen s t s' min)
include h

lemma toNat_dynpriority (hj : j ∈ s.runnables) :
    (s'.mem j).dynpriority.toNat = (s.mem j).dynpriority.toNat - min.toNat := by
  obtain ⟨m, -, heq⟩ := h.mem_eq j
  have hmin := h.min_le j hj
  rw [runnables, mem_filter, decide_eq_true_eq] at hj
  rw [heq]
  dsimp only
  split
  · rw [UInt32.toNat_sub_of_le _ _ hmin]
  · rename_i hnot
    -- A runnable thread that is not lowered is at 0 already.
    have hzero : (s.mem j).dynpriority = 0 := by
      by_contra hne
      exact hnot ⟨hj.1, hj.2, hne⟩
    rw [hzero, UInt32.toNat_zero, Nat.zero_sub]

lemma le_toNat_dynpriority (hmin : min ≤ (s.mem i).dynpriority) :
    (s.mem i).dynpriority.toNat - min.toNat ≤ (s'.mem i).dynpriority.toNat := by
  obtain ⟨m, -, heq⟩ := h.mem_eq i
  rw [heq]
  dsimp only
  split
  · rw [UInt32.toNat_sub_of_le _ _ hmin]
  · exact Nat.sub_le _ _

/-- The choice keeps the difference of two threads, if the one below is runnable. -/
lemma lag (hj : j ∈ s.runnables) (hlag : s.Lag i j d) :
    s'.Lag i j d := by
  have hmin := UInt32.le_iff_toNat_le.mp (h.min_le j hj)
  have hlow := h.toNat_dynpriority hj
  rw [Lag] at hlag ⊢
  have hhigh := h.le_toNat_dynpriority (i := i) (UInt32.le_iff_toNat_le.mpr (by omega))
  omega

/-- The choice keeps the order of two threads, if the first of them is runnable. -/
lemma precedes (hj : j ∈ s.runnables) (hprec : s.Precedes j i) : s'.Precedes j i := by
  rcases hprec with hlag | ⟨heq, hbehind⟩
  · exact .inl (h.lag hj hlag)
  · have hlow := h.toNat_dynpriority hj
    have hhigh := h.le_toNat_dynpriority (i := i) (heq ▸ h.min_le j hj)
    rw [heq] at hlow
    rcases (hlow.trans_le hhigh).lt_or_eq with hlt | hsame
    · exact .inl hlt
    · exact .inr ⟨UInt32.toNat_inj.mp hsame, h.threads_eq.symm ▸ hbehind⟩

lemma ne_of_precedes (hj : j ∈ s.runnables) (hprec : s.Precedes j i) (hpref : s.NotPreferred i) :
    t ≠ i := by
  rintro rfl
  rcases h.taken with hnot | ⟨hzero, hlast⟩
  · exact hnot hpref
  · rcases h.precedes hj hprec with hlag | ⟨heq, hbehind⟩
    · rw [Lag, hzero, UInt32.toNat_zero] at hlag
      omega
    · exact hlast j hj (h.threads_eq ▸ hbehind) (heq.trans hzero)

lemma mem_field (g : Thread → β)
    (hg : ∀ (th : Thread) (d m : UInt32), g { th with dynpriority := d, modifier := m } = g th)
    (u : Tptr) : g (s'.mem u) = g (s.mem u) := by
  obtain ⟨m, -, heq⟩ := h.mem_eq u
  rw [heq]
  exact hg _ _ _

lemma reach_le (u : Tptr) : reach (s'.mem u) ≤ reach (s.mem u) := by
  obtain ⟨m, hm, heq⟩ := h.mem_eq u
  rw [heq]
  exact Nat.add_le_add_left (max_le hm (le_max_right _ _)) _

end

end Chosen

/-! ## The rounds of a pass -/

/-- The rule for the inner loop of the prescheduler: what the rounds keep holds whenever the loop
stops. -/
lemma linkLoop_rule {P : State → ℕ → Prop} {Q : State → Prop} (hend : ∀ s n, P s n → Q s)
    (hstop : ∀ s n r s1, P s n → s.findThread check cycle = some (r, s1) → Q s1)
    (hround : ∀ s n t s1 u, P s n → s.findThread check cycle = some (some t, s1) →
      (s1.mem t).schCycle ≠ cycle → ¬ (n ≠ 0 ∧ t = s1.idle) →
      P (s1.link cycle u t) (n + 1)) {n count : ℕ} {tail : Tptr} (hP : P s count)
    (hloop : linkLoop check cycle n s tail count = some s') : Q s' := by
  induction n generalizing s tail count with
  | zero =>
    cases hloop
    exact hend _ _ hP
  | succ n ih =>
    rw [linkLoop] at hloop
    split at hloop
    · cases hloop
    · rename_i s1 hfind
      cases hloop
      exact hstop _ _ _ _ hP hfind
    · rename_i t s1 hfind
      split at hloop
      · cases hloop
        exact hstop _ _ _ _ hP hfind
      · rename_i hgo
        rw [not_or] at hgo
        exact ih (hround _ _ _ _ tail hP hfind hgo.1 hgo.2) hloop

lemma link_mem_of_ne (g : Thread → β)
    (hg : ∀ th : Thread, g { th with next := some t } = g th) {u x : Tptr} (hx : x ≠ t) :
    g ((s.link cycle u t).mem x) = g (s.mem x) := by
  unfold State.link
  rw [modify_mem_of_ne _ _ hx]
  exact modify_mem_field g u hg x

lemma linkThread_blockcheck (cycle : UInt32) (t : Thread) :
    (linkThread cycle t).blockcheck = t.blockcheck := by
  obtain ⟨m, -, heq⟩ := exists_raiseModifier_eq t
  rw [linkThread, heq]

lemma link_runnableIn {c : UInt32} {u x : Tptr} :
    (s.link cycle u t).RunnableIn c check x ↔ s.RunnableIn c check x := by
  have hcheck : ((s.link cycle u t).mem x).blockcheck = (s.mem x).blockcheck :=
    link_mem_field Thread.blockcheck u t x (linkThread_blockcheck cycle) fun _ => rfl
  rw [RunnableIn, RunnableIn, link_status, hcheck]
  exact Iff.rfl

lemma linkThread_dynpriority_le (cycle : UInt32) {t : Thread} (h : reach t < 2 ^ 32) :
    (linkThread cycle t).dynpriority.toNat ≤ reach t := by
  obtain ⟨m, hm, heq⟩ := exists_raiseModifier_eq t
  rw [linkThread, heq]
  have hsum : t.priority.toNat + m.toNat ≤ reach t := Nat.add_le_add_left hm _
  have hadd : (t.priority + m).toNat = t.priority.toNat + m.toNat := by
    rw [UInt32.toNat_add]
    exact Nat.mod_eq_of_lt (hsum.trans_lt h)
  have hge : t.priority + m ≥ t.priority := by
    rw [ge_iff_le, UInt32.le_iff_toNat_le, hadd]
    exact Nat.le_add_right _ _
  rw [if_pos hge, hadd]
  exact hsum

lemma link_dynpriority_le (cycle : UInt32) (u t : Tptr) (h : reach (s.mem t) < 2 ^ 32) :
    ((s.link cycle u t).mem t).dynpriority.toNat ≤ reach (s.mem t) := by
  unfold State.link
  rw [modify_mem_self]
  have hreach := modify_mem_field (s := s) reach u
    (f := fun th => { th with next := some t }) (fun _ => rfl) t
  rw [← hreach] at h ⊢
  exact linkThread_dynpriority_le cycle h

/-- The prescheduler is running the pass. -/
structure InPass (s : State) : Prop where
  current_eq : s.current = s.prescheduler
  special : s.status s.prescheduler = special

lemma InPass.status_current (h : InPass s) :
    s.status s.current ≠ blocked ∧ s.status s.current ≠ runnable := by
  rw [h.current_eq, h.special]
  decide

lemma InPass.kept (h : InPass s) (hk : Kept s s') : InPass s' where
  current_eq := by rw [hk.current_eq, hk.prescheduler_eq, h.current_eq]
  special := by
    rw [hk.prescheduler_eq, hk.status_of_ne (by simp [h.special]), h.special]

/-- The threads that are runnable in the pass stay the same ones. -/
lemma InPass.findThread_runnableIn (h : InPass s) {r : Option Tptr}
    (hfind : s.findThread check cycle = some (r, s')) (ht : t ∈ s.threads) :
    s'.RunnableIn cycle check t ↔ s.RunnableIn cycle check t := by
  obtain ⟨hfound, -⟩ := findThread_found hfind h.status_current
  by_cases hpre : t = s.prescheduler
  · simp [RunnableIn, hfound.prescheduler_eq, hpre]
  · rw [← wakeAll_status ht hpre]
    obtain ⟨hlcycle, hstatus⟩ : s'.lcycle = cycle ∧
        s'.status t = (s.wakeAll check cycle).status t := by
      rcases findThread_cases hfind with ⟨-, rfl⟩ | ⟨-, rfl, hrun⟩
      · exact ⟨rfl, rfl⟩
      · have hwoken := h.kept (woken_found check cycle).toKept
        obtain ⟨min, hchosen⟩ := choose_chosen hrun hwoken.status_current.2
        exact ⟨hchosen.lcycle_eq, hchosen.mem_field Thread.status (fun _ _ _ => rfl) t⟩
    simp [RunnableIn, hfound.prescheduler_eq, hpre, hlcycle, hstatus]

/-- In the middle of a pass that has placed `count` threads, `j` holds `i` back. Once `j` is
placed, its dynamic priority is at most `reach`; until then there must be room for that. -/
structure Behind (s : State) (cycle : UInt32) (check : Tptr → Bool) (count : ℕ) (i j : Tptr) :
    Prop extends InPass s where
  mem : j ∈ s.threads
  runnable : s.RunnableIn cycle check j
  notPreferred : s.NotPreferred i
  behind : (i = s.idle ∧ (count ≠ 0 ∨ s.Precedes j i)) ∨
    (j = s.idle ∧ s.Precedes j i ∧ (count ≠ 0 ∨ (s.NotPreferred j ∧
      ∃ w ∈ s.threads, s.RunnableIn cycle check w ∧ s.Precedes w j))) ∨
    ((s.mem j).schCycle ≠ cycle ∧ s.Lag i j (reach (s.mem j))) ∨
    ((s.mem j).schCycle = cycle ∧ s.Precedes j i)

/-- Placing a thread leaves the order of two others. -/
lemma Precedes.link {u : Tptr} (h : s.Precedes j i) (hj : j ≠ t) (hi : i ≠ t) :
    (s.link cycle u t).Precedes j i := by
  rw [Precedes, Lag, link_mem_of_ne Thread.dynpriority (fun _ => rfl) hj,
    link_mem_of_ne Thread.dynpriority (fun _ => rfl) hi]
  exact h

/-- What `sch_find_thread` takes in a pass, and what it keeps. -/
lemma InPass.exists_chosen (h : InPass s) (hfind : s.findThread check cycle = some (some t, s')) :
    ∃ min, Chosen (s.woken check cycle) t s' min := by
  rcases findThread_cases hfind with ⟨hnone, -⟩ | ⟨ht, hs', hne⟩
  · cases hnone
  have hwoken := h.kept (woken_found check cycle).toKept
  obtain ⟨min, hchosen⟩ := choose_chosen hne hwoken.status_current.2
  rw [← Option.some.inj ht, ← hs'] at hchosen
  exact ⟨min, hchosen⟩

lemma RunnableIn.mem_runnables (h : s.RunnableIn cycle check j) (hj : j ∈ s.threads) :
    j ∈ (s.woken check cycle).runnables := by
  rw [runnables, mem_filter, decide_eq_true_eq]
  exact ⟨hj, (wakeAll_status hj h.1).mpr h⟩

/-- A round of the pass does not place `i`, and afterwards it is still held back. -/
lemma Behind.next {count : ℕ} (h : Behind s cycle check count i j)
    (hfind : s.findThread check cycle = some (some t, s')) (hmark : (s'.mem t).schCycle ≠ cycle)
    (hgo : ¬ (count ≠ 0 ∧ t = s'.idle)) (u : Tptr) :
    t ≠ i ∧ Behind (s'.link cycle u t) cycle check (count + 1) i j := by
  obtain ⟨hfound, -⟩ := findThread_found hfind h.status_current
  obtain ⟨min, hchosen⟩ := h.exists_chosen hfind
  have hpref := woken_notPreferred check cycle h.notPreferred
  have hidle : s'.idle = s.idle := hchosen.idle_eq
  -- a thread that another one precedes is not taken
  have hne {x y : Tptr} (hx : x ∈ s.threads) (hrun : s.RunnableIn cycle check x)
      (hprec : s.Precedes x y) (hy : s.NotPreferred y) : t ≠ y :=
    hchosen.ne_of_precedes (hrun.mem_runnables hx) (woken_precedes check cycle hprec)
      (woken_notPreferred check cycle hy)
  have hprec (hp : s.Precedes j i) : s'.Precedes j i :=
    hchosen.precedes (h.runnable.mem_runnables h.mem) (woken_precedes check cycle hp)
  have hti : t ≠ i := by
    rcases h.behind with ⟨hi, hcount | hp⟩ | ⟨-, hp, -⟩ | ⟨-, hlag⟩ | ⟨-, hp⟩
    · rintro rfl
      exact hgo ⟨hcount, hi.trans hidle.symm⟩
    · exact hne h.mem h.runnable hp h.notPreferred
    · exact hne h.mem h.runnable hp h.notPreferred
    · exact hne h.mem h.runnable hlag.precedes h.notPreferred
    · exact hne h.mem h.runnable hp h.notPreferred
  have hkept := link_kept (s := s') cycle u t
  refine ⟨hti, (h.toInPass.kept hfound.toKept).kept hkept, ?_, ?_, ?_, ?_⟩
  · exact hfound.threads_eq.symm ▸ h.mem
  · exact link_runnableIn.mpr ((h.findThread_runnableIn hfind h.mem).mpr h.runnable)
  · rw [NotPreferred, hkept.pid_eq]
    exact hchosen.notPreferred i hpref
  rw [link_schCycle]
  rcases h.behind with ⟨hi, -⟩ | ⟨hj, hp, hfirst⟩ | ⟨hnew, hlag⟩ | ⟨hold, hp⟩
  · exact .inl ⟨hi.trans hidle.symm, .inl (Nat.succ_ne_zero count)⟩
  · -- the idle thread is not taken, or it ends the pass
    have htj : t ≠ j := by
      rcases hfirst with hcount | ⟨hpref, w, hw, hrun, hwj⟩
      · rintro rfl
        exact hgo ⟨hcount, hj.trans hidle.symm⟩
      · exact hne hw hrun hwj hpref
    exact .inr (.inl ⟨hj.trans hidle.symm, (hprec hp).link htj.symm hti.symm,
      .inl (Nat.succ_ne_zero count)⟩)
  · have hlag' : s'.Lag i j (reach (s'.mem j)) := by
      refine (hchosen.lag (h.runnable.mem_runnables h.mem) (woken_lag check cycle hlag)).mono ?_
      refine (hchosen.reach_le j).trans (le_of_eq ?_)
      exact wakeAll_mem_field reach (fun _ => rfl) j
    have hi : ((s'.link cycle u t).mem i).dynpriority = (s'.mem i).dynpriority :=
      link_mem_of_ne Thread.dynpriority (fun _ => rfl) hti.symm
    by_cases hjt : j = t
    · -- `j` itself is placed, which it was not yet
      subst hjt
      have hle := link_dynpriority_le cycle u j hlag'.lt
      rw [Lag] at hlag'
      refine .inr (.inr (.inr ⟨if_pos rfl, .inl ?_⟩))
      rw [Lag, hi]
      omega
    · refine .inr (.inr (.inl ⟨?_, ?_⟩))
      · rw [if_neg hjt, hfound.schCycle_eq]
        exact hnew
      · rw [Lag, hi, link_mem_of_ne Thread.dynpriority (fun _ => rfl) hjt,
          link_mem_of_ne reach (fun _ => rfl) hjt]
        exact hlag'
  · have htj : t ≠ j := by
      rintro rfl
      rw [hfound.schCycle_eq] at hmark
      exact hmark hold
    refine .inr (.inr (.inr ⟨?_, (hprec hp).link htj.symm hti.symm⟩))
    rw [if_neg htj.symm, hfound.schCycle_eq]
    exact hold

/-- A pass does not place a thread that another one holds back. -/
lemma linkLoop_schCycle_eq {n count : ℕ} {tail : Tptr} (h : Behind s cycle check count i j)
    (hloop : linkLoop check cycle n s tail count = some s') :
    (s'.mem i).schCycle = (s.mem i).schCycle := by
  apply linkLoop_rule
    (P := fun s1 n => Behind s1 cycle check n i j ∧ (s1.mem i).schCycle = (s.mem i).schCycle)
    (Q := fun s1 => (s1.mem i).schCycle = (s.mem i).schCycle) ?_ ?_ ?_ ⟨h, rfl⟩ hloop
  · exact fun _ _ hP => hP.2
  · intro s1 n r s2 hP hfind
    obtain ⟨hfound, -⟩ := findThread_found hfind hP.1.status_current
    rw [hfound.schCycle_eq, hP.2]
  · intro s1 n t s2 u hP hfind hmark hgo
    obtain ⟨hfound, -⟩ := findThread_found hfind hP.1.status_current
    obtain ⟨hti, hbehind⟩ := hP.1.next hfind hmark hgo u
    refine ⟨hbehind, ?_⟩
    rw [link_schCycle, if_neg hti.symm, hfound.schCycle_eq, hP.2]

/-- A thread that is runnable while a pass runs is not the prescheduler. -/
lemma InPass.runnableIn (h : InPass s) (hrun : s.status t = runnable) :
    s.RunnableIn cycle check t := by
  refine ⟨fun hpre => ?_, .inl hrun⟩
  rw [hpre, h.special] at hrun
  cases hrun

/-- A pass that has started in `s` is in `s1`: what is runnable there has been so at the start, and
so has what the pass has placed. -/
structure Follows (s s1 : State) (cycle : UInt32) (check : Tptr → Bool) (t : Tptr) : Prop
    extends InPass s1 where
  mem : t ∈ s1.threads
  runnable : s1.RunnableIn cycle check t → s.RunnableIn cycle check t
  placed : (s.mem t).schCycle ≠ cycle → (s1.mem t).schCycle = cycle → s.RunnableIn cycle check t

namespace Follows

variable {s1 s2 : State}

lemma find {r : Option Tptr} (h : Follows s s1 cycle check t)
    (hfind : s1.findThread check cycle = some (r, s2)) : Follows s s2 cycle check t := by
  obtain ⟨hfound, -⟩ := findThread_found hfind h.status_current
  refine ⟨h.toInPass.kept hfound.toKept, hfound.threads_eq.symm ▸ h.mem, fun hrun => ?_, ?_⟩
  · exact h.runnable ((h.findThread_runnableIn hfind h.mem).mp hrun)
  · rw [hfound.schCycle_eq]
    exact h.placed

lemma link {v : Tptr} (h : Follows s s1 cycle check t) (hv : s1.status v = .runnable) (u : Tptr) :
    Follows s (s1.link cycle u v) cycle check t := by
  refine ⟨h.toInPass.kept (link_kept cycle u v), h.mem, fun hrun => ?_, ?_⟩
  · exact h.runnable (link_runnableIn.mp hrun)
  · rw [link_schCycle]
    split
    · rename_i htv
      exact fun _ _ => h.runnable (h.toInPass.runnableIn (htv ▸ hv))
    · exact h.placed

end Follows

/-- The rounds of a pass, of which each one finds a thread and places it, keep what is known. -/
lemma linkLoop_follows {n count : ℕ} {tail : Tptr} (h : InPass s)
    (hloop : linkLoop check cycle n s tail count = some s') (ht : t ∈ s.threads) :
    Follows s s' cycle check t := by
  refine linkLoop_rule (P := fun s1 _ => Follows s s1 cycle check t) (fun _ _ hf => hf)
    (fun _ _ _ _ hf hfind => hf.find hfind) (fun s1 n v s2 u hf hfind _ _ => ?_)
    ⟨h, ht, id, fun hne heq => absurd heq hne⟩ hloop
  obtain ⟨-, htaken⟩ := findThread_found hfind hf.status_current
  exact (hf.find hfind).link (htaken v rfl).2 u

/-! ## A whole pass -/

lemma startPass_mem_field (g : Thread → β)
    (hg : ∀ th : Thread, g { th with status := .special } = g th) (t : Tptr) :
    g (s.startPass.mem t) = g (s.mem t) :=
  modify_mem_field g s.prescheduler hg t

lemma startPass_inPass (h : s.current = s.prescheduler) : InPass s.startPass where
  current_eq := h
  special := congrArg Thread.status s.startPass_mem_self

lemma startPass_runnableIn : s.startPass.RunnableIn cycle check t ↔ s.RunnableIn cycle check t := by
  by_cases ht : t = s.prescheduler
  · have hpre : s.startPass.prescheduler = s.prescheduler := rfl
    simp [RunnableIn, ht, hpre]
  · unfold RunnableIn status
    rw [startPass_mem_of_ne s ht]
    exact Iff.rfl

lemma startPass_dynpriority (u : Tptr) :
    (s.startPass.mem u).dynpriority = (s.mem u).dynpriority :=
  startPass_mem_field Thread.dynpriority (fun _ => rfl) u

lemma startPass_lag {d : ℕ} : s.startPass.Lag i j d ↔ s.Lag i j d := by
  rw [Lag, Lag, startPass_dynpriority, startPass_dynpriority]

lemma startPass_precedes : s.startPass.Precedes j i ↔ s.Precedes j i := by
  rw [Precedes, Precedes, startPass_lag, startPass_dynpriority, startPass_dynpriority]
  exact Iff.rfl

lemma startPass_notPreferred : s.startPass.NotPreferred i ↔ s.NotPreferred i := by
  have hpid := startPass_mem_field (s := s) Thread.pid (fun _ => rfl) i
  rw [NotPreferred, NotPreferred, hpid]
  exact Iff.rfl

lemma HeldBack.behind (h : s.HeldBack check i) (hpass : InPass s.startPass)
    (hpref : s.NotPreferred i) : ∃ j, Behind s.startPass (s.cycle + 1) check 0 i j := by
  obtain ⟨j, hj, hrun, hheld⟩ := h
  refine ⟨j, hpass, hj, startPass_runnableIn.mpr hrun, startPass_notPreferred.mpr hpref, ?_⟩
  simp only [startPass_precedes, startPass_lag, startPass_notPreferred, startPass_runnableIn,
    startPass_mem_field reach fun _ => rfl, startPass_mem_field Thread.schCycle fun _ => rfl]
  rcases hheld with ⟨hi, hp⟩ | ⟨hj, hp, hfirst⟩ | hother
  · exact .inl ⟨hi, .inr hp⟩
  · exact .inr (.inl ⟨hj, hp, .inr hfirst⟩)
  · exact .inr (.inr hother)

/-- In a run whose passes all begin with the threads of the idle priority held back, no pass places
one of them, unless nothing else is runnable. -/
theorem idleLast_of_takes {awake : List Tptr}
    (h : scheduler.Takes IdleBehind s (.preschedule awake) s') : IdleLast s s' := by
  have hstep : s.step (.preschedule awake) = some s' := h.step
  rw [State.step, Option.ite_none_right_eq_some] at hstep
  obtain ⟨⟨hcurrent, -⟩, hloop⟩ := hstep
  have hpass := startPass_inPass hcurrent
  have hmark (t : Tptr) : (s.startPass.mem t).schCycle = (s.mem t).schCycle :=
    startPass_mem_field Thread.schCycle (fun _ => rfl) t
  intro i hi hprio ⟨hold, hnew⟩ u hu hrun hlt
  have hfu := linkLoop_follows hpass hloop hu
  have hu' := startPass_runnableIn.mp (hfu.runnable (hfu.toInPass.runnableIn hrun))
  have hi' := startPass_runnableIn.mp
    ((linkLoop_follows hpass hloop hi).placed ((hmark i).symm ▸ hold) hnew)
  obtain ⟨hpref, hheld⟩ := h.meets i hi hprio hi' hold ⟨u, hu, hu', hlt⟩
  obtain ⟨j, hbehind⟩ := hheld.behind hpass hpref
  have hsame := linkLoop_schCycle_eq hbehind hloop
  rw [hmark, hnew] at hsame
  exact hold hsame.symm

/-- What happens after `sch_init` up to the third pass: the reaper and the idle thread set their
priorities when they first run, and the reaper blocks. -/
def twoPasses : List Action :=
  [.schedule, .preschedule [], .schedule, .setPriority 1, .reap, .block false, .schedule,
    .preschedule [], .schedule, .setPriority idlePriority, .schedule, .schedule]

/-- In the third pass after `sch_init`, the first thread and the idle thread are runnable, and the
idle thread is left out. -/
theorem idleLast_thirdPass : ∃ s s', scheduler.Takes IdleBehind s (.preschedule []) s' ∧
    (s.mem 2).priority = idlePriority ∧ s.status 2 = runnable ∧ s.status 1 = runnable ∧
    (s.mem 1).priority < idlePriority ∧ IdleLast s s' := by
  have hinit : scheduler.init (schInit 1 2 3 4) := schInit_initial (by decide)
  have hrun : ((scheduler.guarded IdleBehind).run (schInit 1 2 3 4) twoPasses).any (fun s =>
      (scheduler.step s (.preschedule [])).isSome && decide (s.IdleBehind (.preschedule []) ∧
        (s.mem 2).priority = idlePriority ∧ s.status 2 = runnable ∧ s.status 1 = runnable ∧
          (s.mem 1).priority < idlePriority)) = true := by
    decide +kernel
  obtain ⟨s, hs, hp⟩ := (Option.any_eq_true _ _).mp hrun
  rw [Bool.and_eq_true, decide_eq_true_eq] at hp
  obtain ⟨hsome, hbehind, hfacts⟩ := hp
  obtain ⟨s', hstep⟩ := Option.isSome_iff_exists.mp hsome
  have htakes : scheduler.Takes IdleBehind s (.preschedule []) s' :=
    ⟨System.reaches_of_run_guarded (.init hinit) hs, hbehind, hstep⟩
  exact ⟨s, s', htakes, hfacts.1, hfacts.2.1, hfacts.2.2.1, hfacts.2.2.2, idleLast_of_takes htakes⟩

/-- By the fourth pass the dynamic priority of the idle thread has come down to 0, and it is
placed on the chain although the first thread is runnable. -/
theorem exists_not_idleLast : ∃ s awake s', scheduler.Reachable s ∧
    scheduler.step s (.preschedule awake) = some s' ∧ ¬ IdleLast s s' := by
  have hinit : scheduler.init (schInit 1 2 3 4) := schInit_initial (by decide)
  have hrun : (scheduler.run (schInit 1 2 3 4)
      (twoPasses ++ [.preschedule [], .schedule, .schedule])).any (fun s =>
        (scheduler.step s (.preschedule [])).any fun s' => ¬ IdleLast s s') = true := by
    decide +kernel
  obtain ⟨s, hs, hp⟩ := System.exists_reachable_of_run hinit hrun
  obtain ⟨s', hstep, hbad⟩ := (Option.any_eq_true _ _).mp hp
  exact ⟨s, [], s', hs, hstep, of_decide_eq_true hbad⟩

end State

end Scheduler
