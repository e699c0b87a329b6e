import Btos.Lib.Linked
import Btos.Scheduler.Threads

/-!
# What a pass of the prescheduler links

* `findThread_found`: `sch_find_thread` changes no pointer, wakes blocked threads at most, and
  the thread it returns is a runnable one of the list, unless the running thread is itself
  runnable.
* `preschedule_linked`: a pass that starts without a chain, and in which no thread that could be
  linked has an old pointer left, leaves a chain of distinct runnable threads of the list.
-/

open Function List Option

namespace Scheduler

open ThreadStatus

namespace State

variable {s s' : State}

/-! ## Writes to threads -/

@[simp]
lemma modify_mem_self (s : State) (t : Tptr) (f : Thread → Thread) :
    (s.modify t f).mem t = f (s.mem t) := by
  simp [modify]

lemma modify_mem_of_ne (s : State) {t u : Tptr} (f : Thread → Thread) (hu : u ≠ t) :
    (s.modify t f).mem u = s.mem u := by
  simp [modify, update_of_ne hu]

lemma modify_mem_field {β : Type*} (g : Thread → β) (t : Tptr) {f : Thread → Thread}
    (hf : ∀ th, g (f th) = g th) (u : Tptr) : g ((s.modify t f).mem u) = g (s.mem u) := by
  by_cases hu : u = t
  · subst hu
    rw [modify_mem_self, hf]
  · rw [modify_mem_of_ne s f hu]

/-! ## `sch_find_thread` -/

/-- What a pass leaves alone. Of the statuses it changes only those of blocked threads, which
become runnable. -/
structure Kept (s s' : State) : Prop where
  threads_eq : s'.threads = s.threads
  current_eq : s'.current = s.current
  reaper_eq : s'.reaper = s.reaper
  prescheduler_eq : s'.prescheduler = s.prescheduler
  pid_eq : ∀ t, (s'.mem t).pid = (s.mem t).pid
  abortlevel_eq : ∀ t, (s'.mem t).abortlevel = (s.mem t).abortlevel
  status_eq : ∀ t, s'.status t = s.status t ∨ (s.status t = blocked ∧ s'.status t = runnable)

namespace Kept

lemma trans {s'' : State} (h : Kept s s') (h' : Kept s' s'') : Kept s s'' where
  threads_eq := h'.threads_eq.trans h.threads_eq
  current_eq := h'.current_eq.trans h.current_eq
  reaper_eq := h'.reaper_eq.trans h.reaper_eq
  prescheduler_eq := h'.prescheduler_eq.trans h.prescheduler_eq
  pid_eq t := (h'.pid_eq t).trans (h.pid_eq t)
  abortlevel_eq t := (h'.abortlevel_eq t).trans (h.abortlevel_eq t)
  status_eq t := by
    rcases h'.status_eq t with heq | ⟨hb, hr⟩
    · rw [heq]
      exact h.status_eq t
    · rcases h.status_eq t with heq | ⟨-, hr'⟩
      · exact .inr ⟨heq ▸ hb, hr⟩
      · simp [hb] at hr'

lemma runnable (h : Kept s s') {t : Tptr} (ht : s.status t = runnable) :
    s'.status t = ThreadStatus.runnable := by
  rcases h.status_eq t with heq | ⟨-, hr⟩
  · rw [heq, ht]
  · exact hr

lemma status_of_ne (h : Kept s s') {t : Tptr} (ht : s.status t ≠ blocked) :
    s'.status t = s.status t := by
  rcases h.status_eq t with heq | ⟨hb, -⟩
  · exact heq
  · exact absurd hb ht

end Kept

/-- What `sch_find_thread` leaves alone: it writes no pointer, either. -/
structure Found (s s' : State) : Prop extends Kept s s' where
  next_eq : ∀ t, s'.next t = s.next t
  schCycle_eq : ∀ t, (s'.mem t).schCycle = (s.mem t).schCycle

lemma Found.trans {s'' : State} (h : Found s s') (h' : Found s' s'') : Found s s'' where
  toKept := h.toKept.trans h'.toKept
  next_eq t := (h'.next_eq t).trans (h.next_eq t)
  schCycle_eq t := (h'.schCycle_eq t).trans (h.schCycle_eq t)

/-- A change of the numbers only. -/
lemma found_of_mem (hmem : ∀ t, (s'.mem t).next = (s.mem t).next ∧
      (s'.mem t).pid = (s.mem t).pid ∧ (s'.mem t).abortlevel = (s.mem t).abortlevel ∧
      (s'.mem t).schCycle = (s.mem t).schCycle ∧ (s'.mem t).status = (s.mem t).status)
    (hthreads : s'.threads = s.threads) (hcurrent : s'.current = s.current)
    (hreaper : s'.reaper = s.reaper) (hpre : s'.prescheduler = s.prescheduler) : Found s s' where
  threads_eq := hthreads
  current_eq := hcurrent
  reaper_eq := hreaper
  prescheduler_eq := hpre
  next_eq t := (hmem t).1
  pid_eq t := (hmem t).2.1
  abortlevel_eq t := (hmem t).2.2.1
  schCycle_eq t := (hmem t).2.2.2.1
  status_eq t := .inl (hmem t).2.2.2.2

lemma wake_eq (b : Bool) (t : Thread) :
    wake b t =
      if b && t.status = .blocked && t.blockcheck then { t with status := .runnable } else t := by
  have hnever : ¬ (if t.priority = 0 then (1 : UInt32) else 0) = idlePriority := by
    split <;> decide
  unfold wake
  rw [if_neg hnever]

lemma wake_fields (b : Bool) (t : Thread) :
    (wake b t).next = t.next ∧ (wake b t).pid = t.pid ∧ (wake b t).abortlevel = t.abortlevel ∧
      (wake b t).schCycle = t.schCycle ∧
      ((wake b t).status = t.status ∨ (t.status = blocked ∧ (wake b t).status = runnable)) := by
  rw [wake_eq]
  split
  · rename_i hcond
    simp only [Bool.and_eq_true, decide_eq_true_eq] at hcond
    exact ⟨rfl, rfl, rfl, rfl, .inr ⟨hcond.1.2, rfl⟩⟩
  · exact ⟨rfl, rfl, rfl, rfl, .inl rfl⟩

lemma wakeAll_found (check : Tptr → Bool) (cycle : UInt32) : Found s (s.wakeAll check cycle) := by
  have hfields : ∀ t, ((s.wakeAll check cycle).mem t).next = (s.mem t).next ∧
      ((s.wakeAll check cycle).mem t).pid = (s.mem t).pid ∧
      ((s.wakeAll check cycle).mem t).abortlevel = (s.mem t).abortlevel ∧
      ((s.wakeAll check cycle).mem t).schCycle = (s.mem t).schCycle ∧
      ((s.wakeAll check cycle).status t = s.status t ∨
        (s.status t = blocked ∧ (s.wakeAll check cycle).status t = runnable)) := by
    intro t
    unfold wakeAll status
    by_cases ht : t ∈ s.threads
    · simp only [if_pos ht]
      exact wake_fields _ _
    · simp [ht]
  exact ⟨⟨rfl, rfl, rfl, rfl, fun t => (hfields t).2.1, fun t => (hfields t).2.2.1,
    fun t => (hfields t).2.2.2.2⟩, fun t => (hfields t).1, fun t => (hfields t).2.2.2.1⟩

/-- The state in which `sch_find_thread` makes its choice. -/
def woken (s : State) (check : Tptr → Bool) (cycle : UInt32) : State :=
  { s.wakeAll check cycle with lcycle := cycle }

lemma woken_found (check : Tptr → Bool) (cycle : UInt32) : Found s (s.woken check cycle) := by
  apply (wakeAll_found check cycle).trans
  exact found_of_mem (fun t => ⟨rfl, rfl, rfl, rfl, rfl⟩) rfl rfl rfl rfl

/-- The thread is runnable once `sch_find_thread` has asked the blocked ones. -/
def Awake (s : State) (check : Tptr → Bool) (cycle : UInt32) (t : Tptr) : Prop :=
  s.status t = runnable ∨
    (s.lcycle ≠ cycle ∧ check t = true ∧ s.status t = blocked ∧ (s.mem t).blockcheck = true)

variable {check : Tptr → Bool} {cycle : UInt32} {l : List Tptr} {t : Tptr}

lemma woken_mem (ht : t ∈ s.threads) :
    (s.woken check cycle).mem t = wake (s.lcycle ≠ cycle && check t) (s.mem t) :=
  if_pos ht

lemma woken_status_iff (ht : t ∈ s.threads) :
    (s.woken check cycle).status t = runnable ↔ s.Awake check cycle t := by
  rw [status, woken_mem ht, wake_eq, Awake, status]
  split
  · rename_i hcond
    simp only [Bool.and_eq_true, decide_eq_true_eq] at hcond
    exact iff_of_true rfl (.inr ⟨hcond.1.1.1, hcond.1.1.2, hcond.1.2, hcond.2⟩)
  · rename_i hcond
    simp only [Bool.and_eq_true, decide_eq_true_eq] at hcond
    refine (or_iff_left ?_).symm
    rintro ⟨hcycle, hcheck, hblocked, hbc⟩
    exact hcond ⟨⟨⟨hcycle, hcheck⟩, hblocked⟩, hbc⟩

lemma woken_priority (ht : t ∈ s.threads) :
    ((s.woken check cycle).mem t).priority = (s.mem t).priority := by
  rw [woken_mem ht, wake_eq]
  split <;> rfl

lemma mem_woken_runnables :
    t ∈ (s.woken check cycle).runnables ↔ t ∈ s.threads ∧ s.Awake check cycle t := by
  rw [runnables, mem_filter, decide_eq_true_eq]
  exact and_congr_right fun ht : t ∈ s.threads => woken_status_iff ht

/-- Ageing lowers the dynamic priority of a runnable thread by the least one, and may lower the
modifier. -/
lemma exists_age_eq (min : UInt32) (b : Bool) (t : Thread) :
    ∃ m : UInt32, m.toNat ≤ t.modifier.toNat ∧ age min b t =
      { t with
        dynpriority := if t.status = runnable ∧ t.dynpriority ≠ 0 then t.dynpriority - min
          else t.dynpriority
        modifier := m } := by
  -- the modifier is lowered by one at most, in whichever branch
  have hlower (u : Thread) : ∃ m : UInt32, m.toNat ≤ u.modifier.toNat ∧
      (if u.modifier ≠ 0 then { u with modifier := u.modifier - 1 } else u) =
        { u with modifier := m } := by
    split
    · rename_i hne
      have hpos : (1 : UInt32) ≤ u.modifier := by
        rw [UInt32.le_iff_toNat_le, UInt32.toNat_one]
        exact Nat.one_le_iff_ne_zero.mpr fun h => hne (UInt32.toNat_inj.mp h)
      refine ⟨u.modifier - 1, ?_, rfl⟩
      rw [UInt32.toNat_sub_of_le _ _ hpos]
      exact Nat.sub_le _ _
    · exact ⟨u.modifier, le_rfl, rfl⟩
  unfold age
  generalize hd : (if t.status = runnable ∧ t.dynpriority ≠ 0 then t.dynpriority - min
    else t.dynpriority) = d
  by_cases hrun : t.status = runnable
  · rw [if_pos hrun]
    by_cases hdyn : t.dynpriority = 0
    · rw [if_neg fun h => h.2 hdyn] at hd
      subst hd
      obtain ⟨m, hm, heq⟩ := hlower t
      rw [if_neg (not_not.mpr hdyn)]
      dsimp only
      split
      · exact ⟨t.modifier, le_rfl, rfl⟩
      · exact ⟨m, hm, heq⟩
    · rw [if_pos ⟨hrun, hdyn⟩] at hd
      subst hd
      obtain ⟨m, hm, heq⟩ := hlower { t with dynpriority := t.dynpriority - min }
      rw [if_pos hdyn]
      dsimp only
      split
      · exact ⟨t.modifier, le_rfl, rfl⟩
      · exact ⟨m, hm, heq⟩
  · rw [if_neg fun h => hrun h.1] at hd
    subst hd
    rw [if_neg hrun]
    exact hlower t

lemma age_fields (min : UInt32) (b : Bool) (t : Thread) :
    (age min b t).next = t.next ∧ (age min b t).pid = t.pid ∧
      (age min b t).abortlevel = t.abortlevel ∧ (age min b t).schCycle = t.schCycle ∧
      (age min b t).status = t.status := by
  obtain ⟨m, -, heq⟩ := exists_age_eq min b t
  rw [heq]
  exact ⟨rfl, rfl, rfl, rfl, rfl⟩

lemma ageAll_found (min : UInt32) : Found s (s.ageAll min) := by
  refine found_of_mem (fun t => ?_) rfl rfl rfl rfl
  unfold ageAll
  by_cases ht : t ∈ s.threads
  · simp only [if_pos ht]
    exact age_fields _ _ _
  · simp [ht]

lemma exists_raiseModifier_eq (t : Thread) :
    ∃ m : UInt32, m.toNat ≤ max t.modifier.toNat modifierLimit.toNat ∧
      raiseModifier t = { t with modifier := m } := by
  unfold raiseModifier
  split
  · rename_i hlt
    rw [UInt32.lt_iff_toNat_lt] at hlt
    refine ⟨t.modifier + 1, le_trans ?_ (le_max_right _ _), rfl⟩
    rw [UInt32.toNat_add, UInt32.toNat_one]
    exact (Nat.mod_le _ _).trans hlt
  · exact ⟨t.modifier, le_max_left _ _, rfl⟩

lemma raiseModifier_fields (t : Thread) :
    (raiseModifier t).next = t.next ∧ (raiseModifier t).pid = t.pid ∧
      (raiseModifier t).abortlevel = t.abortlevel ∧ (raiseModifier t).schCycle = t.schCycle ∧
      (raiseModifier t).status = t.status := by
  obtain ⟨m, -, heq⟩ := exists_raiseModifier_eq t
  rw [heq]
  exact ⟨rfl, rfl, rfl, rfl, rfl⟩

lemma modify_raiseModifier_found (t : Tptr) : Found s (s.modify t raiseModifier) := by
  refine found_of_mem (fun u => ?_) rfl rfl rfl rfl
  by_cases hu : u = t
  · subst hu
    rw [modify_mem_self]
    exact raiseModifier_fields _
  · rw [modify_mem_of_ne s _ hu]
    exact ⟨rfl, rfl, rfl, rfl, rfl⟩

lemma findPreferred_mem (ts : List Tptr) (r : Option Tptr × ℕ × ℕ)
    (h : (s.findPreferred ts r).1 = some t) : r.1 = some t ∨ (t ∈ ts ∧ s.status t = runnable) := by
  induction ts generalizing r with
  | nil => exact .inl h
  | cons u ts ih =>
    rw [findPreferred] at h
    rcases ih _ h with hr | ⟨hmem, hrun⟩
    · split at hr
      · rename_i hu
        obtain rfl : u = t := some.inj hr
        exact .inr ⟨mem_cons_self, hu.1⟩
      · exact .inl hr
    · exact .inr ⟨mem_cons_of_mem _ hmem, hrun⟩

/-- The least number of a list, found by comparing one after the other. -/
lemma foldl_min_spec (l : List UInt32) (a : UInt32) :
    let m := l.foldl (fun min d => if d < min then d else min) a
    m ≤ a ∧ (m = a ∨ m ∈ l) ∧ ∀ x ∈ l, m ≤ x := by
  induction l generalizing a with
  | nil => exact ⟨UInt32.le_refl a, .inl rfl, fun x hx => by cases hx⟩
  | cons d l ih =>
    rw [foldl_cons]
    obtain ⟨hle, hmem, hall⟩ := ih (if d < a then d else a)
    have hd : (if d < a then d else a) ≤ d ∧ (if d < a then d else a) ≤ a := by
      split
      · exact ⟨UInt32.le_refl d, UInt32.le_of_lt ‹_›⟩
      · exact ⟨UInt32.not_lt.mp ‹_›, UInt32.le_refl a⟩
    refine ⟨UInt32.le_trans hle hd.2, ?_, ?_⟩
    · rcases hmem with hmem | hmem
      · rw [hmem]
        split
        · exact .inr mem_cons_self
        · exact .inl rfl
      · exact .inr (mem_cons_of_mem _ hmem)
    · intro x hx
      rcases mem_cons.mp hx with rfl | hx
      · exact UInt32.le_trans hle hd.1
      · exact hall x hx

/-- Some runnable thread has the least dynamic priority. -/
lemma exists_minDynpriority (h : s.runnables ≠ []) :
    ∃ t ∈ s.runnables, (s.mem t).dynpriority = s.minDynpriority := by
  obtain ⟨-, hmem, hall⟩ :=
    foldl_min_spec (s.runnables.map fun t => (s.mem t).dynpriority) idlePriority
  rw [← minDynpriority] at hmem hall
  rcases hmem with hmax | hmem
  · -- Every number is at most the start value, so this thread has it, too.
    obtain ⟨t, ht⟩ := exists_mem_of_ne_nil _ h
    have hge := hall _ (mem_map.mpr ⟨t, ht, rfl⟩)
    refine ⟨t, ht, UInt32.le_antisymm ?_ hge⟩
    rw [hmax, UInt32.le_iff_toNat_le]
    exact Nat.le_of_lt_succ (UInt32.toNat_lt _)
  · obtain ⟨t, ht, heq⟩ := mem_map.mp hmem
    exact ⟨t, ht, heq⟩

/-- The last loop takes a thread, if a thread other than the running one is runnable. -/
lemma findDue_ageAll_ne_none (h : s.runnables ≠ []) (hc : s.status s.current ≠ runnable) :
    (s.ageAll s.minDynpriority).findDue ≠ none := by
  obtain ⟨t, ht, hmin⟩ := exists_minDynpriority h
  rw [runnables, mem_filter, decide_eq_true_eq] at ht
  have hne : t ≠ s.current := fun heq => hc (heq ▸ ht.2)
  have hrun : (s.mem t).status = runnable := ht.2
  set s1 := s.ageAll s.minDynpriority with hs1
  have hmem1 : s1.mem t = age s.minDynpriority (t = s.current) (s.mem t) := by
    simp [hs1, ageAll, ht.1]
  have hdyn : (s1.mem t).dynpriority = 0 := by
    rw [hmem1, age, if_pos hrun, ← hmin]
    by_cases h0 : (s.mem t).dynpriority = 0
    · simp [h0, hne]
    · simp [h0, hne]
  have hstatus : s1.status t = runnable := by
    rw [status, hmem1, (age_fields _ _ _).2.2.2.2]
    exact hrun
  rw [findDue, Ne, getLast?_eq_none_iff, filter_eq_nil_iff]
  intro hall
  have hcur : t ≠ s1.current := hne
  refine hall t ht.1 ?_
  rw [hstatus, hdyn]
  simp [hcur]

/-- The choice falls on a runnable thread of the list. -/
lemma choose_found (h : s.runnables ≠ []) (hc : s.status s.current ≠ runnable) :
    Found s s.choose.2 ∧ s.choose.1 ∈ s.threads ∧ s.choose.2.status s.choose.1 = runnable := by
  unfold choose
  generalize hr : (if s.preferredNextPid ≠ 0 then
      s.findPreferred s.threads (none, s.preferredNextPid, s.preferredReturnPid)
    else (none, s.preferredNextPid, s.preferredReturnPid)) = r
  obtain ⟨preferred, nextPid, returnPid⟩ := r
  set s1 : State := { s with preferredNextPid := nextPid, preferredReturnPid := returnPid }
  have hfound1 : Found s s1 :=
    found_of_mem (fun t => ⟨rfl, rfl, rfl, rfl, rfl⟩) rfl rfl rfl rfl
  cases preferred with
  | some t =>
    have ht : t ∈ s.threads ∧ s.status t = runnable := by
      split at hr
      · rcases findPreferred_mem s.threads _ (congrArg Prod.fst hr) with hnone | ht
        · simp at hnone
        · exact ht
      · simp at hr
    have hfound : Found s (s1.modify t raiseModifier) :=
      hfound1.trans (modify_raiseModifier_found t)
    exact ⟨hfound, ht.1, hfound.runnable ht.2⟩
  | none =>
    set s2 := s1.ageAll s1.minDynpriority
    -- Every runnable thread is aged by the least priority, so one of them is due.
    obtain ⟨t, ht⟩ := ne_none_iff_exists'.mp (findDue_ageAll_ne_none (s := s1) h hc)
    have hdue : t ∈ s2.threads ∧ s2.status t = runnable := by
      have hmem := mem_of_getLast? ht
      simp only [mem_filter, Bool.and_eq_true, decide_eq_true_eq] at hmem
      exact ⟨hmem.1, hmem.2.1.1⟩
    have hfound2 := modify_raiseModifier_found (s := s2) t
    have hget : s2.findDue.getD s2.current = t := by
      rw [ht, getD_some]
    dsimp only
    rw [hget]
    exact ⟨hfound1.trans ((ageAll_found _).trans hfound2), hdue.1, hfound2.runnable hdue.2⟩

/-- The two results of `sch_find_thread`: no thread is runnable, or one is chosen. -/
lemma findThread_cases {r : Option Tptr} (h : s.findThread check cycle = some (r, s')) :
    (r = none ∧ s' = s.woken check cycle) ∨
      (r = some (s.woken check cycle).choose.1 ∧ s' = (s.woken check cycle).choose.2 ∧
        (s.woken check cycle).runnables ≠ []) := by
  unfold findThread at h
  dsimp only at h
  rw [← woken] at h
  split at h
  · simp at h
  · split at h
    · simp only [some.injEq, Prod.mk.injEq] at h
      exact .inl ⟨h.1.symm, h.2.symm⟩
    · rename_i hrun
      simp only [some.injEq, Prod.mk.injEq] at h
      exact .inr ⟨h.1.symm, h.2.symm, hrun⟩

/-- No thread that is awake has priority 0, so `sch_find_thread` does not panic. -/
def NoPanic (s : State) (check : Tptr → Bool) (cycle : UInt32) : Prop :=
  ∀ t ∈ s.threads, s.Awake check cycle t → (s.mem t).priority ≠ 0

lemma findThread_ne_none_iff : s.findThread check cycle ≠ none ↔ s.NoPanic check cycle := by
  have hany : ((s.woken check cycle).runnables.any fun t =>
      ((s.woken check cycle).mem t).priority = 0) = true ↔ ¬ s.NoPanic check cycle := by
    simp only [NoPanic, List.any_eq_true, mem_woken_runnables, decide_eq_true_eq, not_forall,
      not_not]
    constructor
    · rintro ⟨t, ⟨ht, hawake⟩, h0⟩
      exact ⟨t, ht, hawake, woken_priority ht ▸ h0⟩
    · rintro ⟨t, ht, hawake, h0⟩
      exact ⟨t, ⟨ht, hawake⟩, (woken_priority ht).trans h0⟩
  unfold findThread
  dsimp only
  rw [← woken]
  split
  · rename_i hpanic
    exact iff_of_false (fun h => h rfl) (hany.mp hpanic)
  · rename_i hpanic
    refine iff_of_true ?_ (not_not.mp (mt hany.mpr hpanic))
    split <;> simp

/-- A search that does not panic chooses a thread if one is awake. -/
lemma findThread_of_awake
    (h : s.NoPanic check cycle) (ht : t ∈ s.threads) (hawake : s.Awake check cycle t) :
    s.findThread check cycle =
      some (some (s.woken check cycle).choose.1, (s.woken check cycle).choose.2) := by
  have hrun : (s.woken check cycle).runnables ≠ [] :=
    ne_nil_of_mem (mem_woken_runnables.mpr ⟨ht, hawake⟩)
  have hsome := findThread_ne_none_iff.mpr h
  unfold findThread at hsome ⊢
  dsimp only at hsome ⊢
  rw [← woken] at hsome ⊢
  rw [if_neg hrun] at hsome ⊢
  split
  · rename_i hpanic
    exact absurd (if_pos hpanic) hsome
  · rfl

/-- `sch_find_thread` returns a runnable thread of the list, when the running thread is not
itself one that could be taken. -/
lemma findThread_found {r : Option Tptr} (h : s.findThread check cycle = some (r, s'))
    (hc : s.status s.current ≠ blocked ∧ s.status s.current ≠ runnable) :
    Found s s' ∧ ∀ t, r = some t → t ∈ s.threads ∧ s'.status t = runnable := by
  have hwoken := woken_found (s := s) check cycle
  rcases findThread_cases h with ⟨rfl, rfl⟩ | ⟨rfl, rfl, hrun⟩
  · exact ⟨hwoken, fun t ht => by simp at ht⟩
  · have hc1 : (s.woken check cycle).status (s.woken check cycle).current ≠ .runnable := by
      rw [hwoken.current_eq, hwoken.status_of_ne hc.1]
      exact hc.2
    obtain ⟨hfound, hmem, hstatus⟩ := choose_found hrun hc1
    refine ⟨hwoken.trans hfound, fun t ht => ?_⟩
    cases ht
    exact ⟨hmem, hstatus⟩

/-! ## The loop of a pass -/

/-- The state in the middle of a pass: `l` has been linked so far. -/
structure Linking (s : State) (cycle : UInt32) (l : List Tptr) : Prop where
  current_eq : s.current = s.prescheduler
  special : s.status s.prescheduler = special
  linked : Linked s.next s.prescheduler l
  nodup : (s.prescheduler :: l).Nodup
  mem : ∀ t ∈ l, t ∈ s.threads
  runnable : ∀ t ∈ l, s.status t = runnable
  marked : ∀ t ∈ l, (s.mem t).schCycle = cycle
  /-- Only threads that cannot be linked have a pointer left from an earlier pass. -/
  stale : ∀ t ∈ s.threads, t ≠ s.prescheduler → t ∉ l → s.next t ≠ none →
    s.status t = debugStopped ∨ s.status t = ending

/-- The thread linked last. -/
def tail (s : State) (l : List Tptr) : Tptr :=
  (s.prescheduler :: l).getLast (List.cons_ne_nil _ _)

/-- The step of the loop: `t` is linked behind `tail`. -/
def link (s : State) (cycle : UInt32) (tail t : Tptr) : State :=
  (s.modify tail fun th => { th with next := some t }).modify t (linkThread cycle)

lemma linkThread_fields (cycle : UInt32) (t : Thread) :
    (linkThread cycle t).next = t.next ∧ (linkThread cycle t).pid = t.pid ∧
      (linkThread cycle t).abortlevel = t.abortlevel ∧ (linkThread cycle t).schCycle = cycle ∧
      (linkThread cycle t).status = t.status := by
  obtain ⟨hnext, hpid, hlevel, -, hstatus⟩ := raiseModifier_fields t
  exact ⟨hnext, hpid, hlevel, rfl, hstatus⟩

lemma link_mem_field {β : Type*} (g : Thread → β) (u t x : Tptr)
    (hlink : ∀ th, g (linkThread cycle th) = g th)
    (hnext : ∀ th : Thread, g { th with next := some t } = g th) :
    g ((s.link cycle u t).mem x) = g (s.mem x) := by
  unfold link
  rw [modify_mem_field g t hlink, modify_mem_field g u hnext]

@[simp]
lemma link_status (s : State) (cycle : UInt32) (u t x : Tptr) :
    (s.link cycle u t).status x = s.status x :=
  link_mem_field Thread.status u t x (fun th => (linkThread_fields cycle th).2.2.2.2) fun _ => rfl

lemma link_kept (cycle : UInt32) (u t : Tptr) : Kept s (s.link cycle u t) := by
  refine ⟨rfl, rfl, rfl, rfl, fun x => ?_, fun x => ?_, fun x => .inl (link_status s cycle u t x)⟩
  · exact link_mem_field Thread.pid u t x (fun th => (linkThread_fields cycle th).2.1) fun _ => rfl
  · exact link_mem_field Thread.abortlevel u t x (fun th => (linkThread_fields cycle th).2.2.1)
      fun _ => rfl

lemma link_next (s : State) (cycle : UInt32) (u t : Tptr) :
    (s.link cycle u t).next = update s.next u (some t) := by
  ext1 x
  unfold link next
  rw [modify_mem_field Thread.next t fun th => (linkThread_fields cycle th).1]
  by_cases hx : x = u
  · subst hx
    rw [modify_mem_self, update_self]
  · rw [modify_mem_of_ne s _ hx, update_of_ne hx]

lemma link_schCycle (s : State) (cycle : UInt32) (u t x : Tptr) :
    ((s.link cycle u t).mem x).schCycle = if x = t then cycle else (s.mem x).schCycle := by
  unfold link
  by_cases hx : x = t
  · subst hx
    rw [modify_mem_self, (linkThread_fields _ _).2.2.2.1, if_pos rfl]
  · rw [modify_mem_of_ne _ _ hx, if_neg hx]
    apply modify_mem_field Thread.schCycle u
    intro th
    rfl

/-- `sch_find_thread` does not touch what is linked. -/
lemma Linking.found (h : Linking s cycle l) (hf : Found s s') : Linking s' cycle l where
  current_eq := by rw [hf.current_eq, hf.prescheduler_eq, h.current_eq]
  special := by
    rw [hf.prescheduler_eq, hf.status_of_ne (by simp [h.special]), h.special]
  linked := by
    rw [hf.prescheduler_eq]
    exact h.linked.congr fun x _ => hf.next_eq x
  nodup := by
    rw [hf.prescheduler_eq]
    exact h.nodup
  mem t ht := by
    rw [hf.threads_eq]
    exact h.mem t ht
  runnable t ht := hf.toKept.runnable (h.runnable t ht)
  marked t ht := by rw [hf.schCycle_eq, h.marked t ht]
  stale t ht hne hl hnext := by
    rw [hf.threads_eq] at ht
    rw [hf.prescheduler_eq] at hne
    rw [hf.next_eq] at hnext
    have hs := h.stale t ht hne hl hnext
    rw [hf.status_of_ne (by rcases hs with hs | hs <;> simp [hs])]
    exact hs

/-- The step of the loop: a runnable thread of the list that is not marked yet goes to the
end. -/
lemma Linking.link (h : Linking s cycle l) (hmem : t ∈ s.threads)
    (hrun : s.status t = ThreadStatus.runnable) (hmark : (s.mem t).schCycle ≠ cycle) :
    Linking (s.link cycle (s.tail l) t) cycle (l ++ [t]) := by
  have hl : t ∉ l := fun ht => hmark (h.marked t ht)
  have hpre : t ≠ s.prescheduler := by
    rintro rfl
    rw [h.special] at hrun
    simp at hrun
  have hnot : t ∉ s.prescheduler :: l := by simp [hpre, hl]
  -- A runnable thread has no old pointer, so the chain ends with it.
  have hend : s.next t = none := by
    by_contra hne
    rcases h.stale t hmem hpre hl hne with hs | hs <;> simp [hs] at hrun
  refine ⟨h.current_eq, ?_, ?_, ?_, ?_, ?_, ?_, ?_⟩
  · rw [link_status]
    exact h.special
  · rw [link_next]
    exact h.linked.append h.nodup hnot hend
  · show (s.prescheduler :: (l ++ [t])).Nodup
    rw [← cons_append, nodup_append]
    exact ⟨h.nodup, nodup_singleton t, fun x hx y hy => by
      rintro rfl
      exact hnot (mem_singleton.mp hy ▸ hx)⟩
  · intro x hx
    rcases mem_append.mp hx with hx | hx
    · exact h.mem x hx
    · exact mem_singleton.mp hx ▸ hmem
  · intro x hx
    rw [link_status]
    rcases mem_append.mp hx with hx | hx
    · exact h.runnable x hx
    · exact mem_singleton.mp hx ▸ hrun
  · intro x hx
    rw [link_schCycle]
    split
    · rfl
    · rename_i hne
      rcases mem_append.mp hx with hx | hx
      · exact h.marked x hx
      · exact absurd (mem_singleton.mp hx) hne
  · intro x hx hxpre hxl hnext
    rw [mem_append, not_or] at hxl
    have hxtail : x ≠ s.tail l := by
      rintro rfl
      rcases mem_cons.mp (getLast_mem (cons_ne_nil s.prescheduler l)) with heq | hin
      · exact hxpre heq
      · exact hxl.1 hin
    rw [link_next, update_of_ne hxtail] at hnext
    rw [link_status]
    exact h.stale x hx hxpre hxl.1 hnext

lemma tail_append (s : State) (l : List Tptr) (t : Tptr) : s.tail (l ++ [t]) = t := by
  simp [tail]

lemma Linking.current_status (h : Linking s cycle l) :
    s.status s.current ≠ blocked ∧ s.status s.current ≠ .runnable := by
  rw [h.current_eq, h.special]
  decide

lemma Found.tail_eq {s1 : State} (h : Found s s1) (l : List Tptr) : s.tail l = s1.tail l := by
  simp only [tail, h.prescheduler_eq]

lemma Linking.round {s1 : State} {count : ℕ} (h : Linking s cycle l)
    (hfind : s.findThread check cycle = some (some t, s1))
    (hbreak : ¬((s1.mem t).schCycle = cycle ∨ (count ≠ 0 ∧ t = s1.idle))) :
    Found s s1 ∧ Linking (s1.link cycle (s1.tail l) t) cycle (l ++ [t]) := by
  obtain ⟨hfound, ht⟩ := findThread_found hfind h.current_status
  obtain ⟨hmem, hrun⟩ := ht t rfl
  exact ⟨hfound, (h.found hfound).link (hfound.threads_eq ▸ hmem) hrun
    fun hmark => hbreak (.inl hmark)⟩

/-- The loop goes on linking. -/
lemma linkLoop_linking {n count : ℕ} (h : Linking s cycle l)
    (hloop : linkLoop check cycle n s (s.tail l) count = some s') :
    ∃ l', Linking s' cycle l' ∧ Kept s s' := by
  induction n generalizing s l count with
  | zero =>
    cases hloop
    exact ⟨l, h, rfl, rfl, rfl, rfl, fun t => rfl, fun t => rfl, fun t => .inl rfl⟩
  | succ n ih =>
    rw [linkLoop] at hloop
    split at hloop
    · simp at hloop
    · rename_i s1 hfind
      cases hloop
      obtain ⟨hfound, -⟩ := findThread_found hfind h.current_status
      exact ⟨l, h.found hfound, hfound.toKept⟩
    · rename_i t s1 hfind
      split at hloop
      · cases hloop
        obtain ⟨hfound, -⟩ := findThread_found hfind h.current_status
        exact ⟨l, h.found hfound, hfound.toKept⟩
      · rename_i hbreak
        obtain ⟨hfound, hlink⟩ := h.round hfind hbreak
        have hloop' : linkLoop check cycle n (s1.link cycle (s1.tail l) t)
            ((s1.link cycle (s1.tail l) t).tail (l ++ [t])) (count + 1) = some s' := by
          rw [tail_append, ← hfound.tail_eq]
          exact hloop
        obtain ⟨l', hl', hkept⟩ := ih hlink hloop'
        exact ⟨l', hl', hfound.toKept.trans ((link_kept _ _ _).trans hkept)⟩

/-- The state with which the loop of a pass starts. -/
def startPass (s : State) : State :=
  ({ s with cycle := s.cycle + 1 } : State).modify s.prescheduler fun t =>
    { t with status := special }

lemma startPass_mem_self (s : State) :
    s.startPass.mem s.prescheduler = { s.mem s.prescheduler with status := special } :=
  modify_mem_self _ _ _

lemma startPass_mem_of_ne (s : State) (ht : t ≠ s.prescheduler) : s.startPass.mem t = s.mem t :=
  modify_mem_of_ne { s with cycle := s.cycle + 1 } _ ht

/-- A pass leaves a chain of distinct runnable threads of the list. -/
lemma preschedule_linked (hpass : s.preschedule check = some s')
    (hcurrent : s.current = s.prescheduler) (hnext : s.next s.prescheduler = none)
    (hstale : ∀ t ∈ s.threads, t ≠ s.prescheduler → s.next t ≠ none →
      s.status t = debugStopped ∨ s.status t = ending) :
    ∃ l, Linking s' s.startPass.cycle l ∧ Kept s.startPass s' := by
  have hstart : Linking s.startPass s.startPass.cycle [] := by
    refine ⟨hcurrent, ?_, ?_, nodup_singleton _, ?_, ?_, ?_, ?_⟩
    · show s.startPass.status s.prescheduler = special
      rw [status, startPass_mem_self]
    · show s.startPass.next s.prescheduler = none
      rw [next, startPass_mem_self]
      exact hnext
    · simp
    · simp
    · simp
    · intro t ht hne _ ht'
      rw [next, startPass_mem_of_ne s hne] at ht'
      rw [status, startPass_mem_of_ne s hne]
      exact hstale t ht hne ht'
  exact linkLoop_linking hstart hpass

end State

end Scheduler
