import Btos.Scheduler.Prescheduler

/-!
# Yielding to a process

`sch_yield_to` asks for a thread of one process to run next, and for the process of the caller to
run after that. `sch_find_thread` goes through the list for it, and does not stop at the thread that
it takes: from then on it looks for the process of the caller, and takes a thread of that one, too.

* `findPreferred_append`, `findPreferred_of_not_takes`: the loop over a part of the list.

Main results: `directed_iff` and `exists_not_directed`.
-/

open List Option

namespace Scheduler

open ThreadStatus

namespace State

variable {s s' : State} {check : Tptr → Bool} {cycle : UInt32} {p r : ℕ} {t : Tptr}

/-- `sch_find_thread` selects a runnable thread of process `p`, and remembers that process `r` is
to run after it. -/
def Directed (s : State) (check : Tptr → Bool) (cycle : UInt32) (p r : ℕ) : Prop :=
  ∃ t s', s.findThread check cycle = some (some t, s') ∧ t ∈ s.threads ∧
    s'.status t = runnable ∧ (s'.mem t).pid = p ∧ s'.preferredNextPid = r ∧
    s'.preferredReturnPid = 0

/-- The thread is one of the process, and awake. -/
def AwakeOf (s : State) (check : Tptr → Bool) (cycle : UInt32) (pid : ℕ) (t : Tptr) : Prop :=
  s.Awake check cycle t ∧ (s.mem t).pid = pid

/-- Behind the first thread of process `p` that is awake, there is none of process `r`. -/
def NoneBehind (s : State) (check : Tptr → Bool) (cycle : UInt32) (p r : ℕ) : Prop :=
  ∀ a t b, s.threads = a ++ t :: b → (∀ x ∈ a, ¬ s.AwakeOf check cycle p x) →
    s.AwakeOf check cycle p t → ∀ u ∈ b, ¬ s.AwakeOf check cycle r u

/-! ## The loop for the preferred process -/

/-- The loop takes the thread when it is looking for the process. -/
def Takes (s : State) (pid : ℕ) (t : Tptr) : Prop := s.status t = runnable ∧ (s.mem t).pid = pid

instance (s : State) (pid : ℕ) (t : Tptr) : Decidable (s.Takes pid t) :=
  inferInstanceAs (Decidable (_ ∧ _))

lemma findPreferred_append (a b : List Tptr) (x : Option Tptr × ℕ × ℕ) :
    s.findPreferred (a ++ b) x = s.findPreferred b (s.findPreferred a x) := by
  induction a generalizing x with
  | nil => rfl
  | cons u a ih =>
    obtain ⟨torun, nextPid, returnPid⟩ := x
    rw [cons_append, findPreferred, ih, findPreferred]

lemma findPreferred_of_takes {torun : Option Tptr} (ht : s.Takes p t) (b : List Tptr) :
    s.findPreferred (t :: b) (torun, p, r) = s.findPreferred b (some t, r, 0) := by
  rw [findPreferred]
  exact congrArg (s.findPreferred b) (if_pos ht)

lemma findPreferred_of_not_takes {torun : Option Tptr} {a : List Tptr}
    (ha : ∀ x ∈ a, ¬ s.Takes p x) : s.findPreferred a (torun, p, r) = (torun, p, r) := by
  induction a with
  | nil => rfl
  | cons u a ih =>
    have hu : ¬ (s.status u = runnable ∧ (s.mem u).pid = p) := ha u mem_cons_self
    rw [findPreferred, if_neg hu]
    exact ih fun x hx => ha x (mem_cons_of_mem _ hx)

lemma exists_findPreferred_zero (b : List Tptr) (u : Tptr) :
    ∃ v, s.findPreferred b (some u, 0, 0) = (some v, 0, 0) ∧ (v = u ∨ (s.mem v).pid = 0) := by
  induction b generalizing u with
  | nil => exact ⟨u, rfl, .inl rfl⟩
  | cons x b ih =>
    rw [findPreferred]
    split
    · rename_i hx
      obtain ⟨v, hv, hor⟩ := ih x
      exact ⟨v, hv, .inr (hor.elim (fun heq => heq ▸ hx.2) id)⟩
    · exact ih u

lemma exists_first_takes {l : List Tptr} (h : ∃ t ∈ l, s.Takes p t) :
    ∃ a t b, l = a ++ t :: b ∧ (∀ x ∈ a, ¬ s.Takes p x) ∧ s.Takes p t := by
  have hsome : (l.find? fun t => s.Takes p t).isSome = true := by
    simpa using h
  obtain ⟨t, ht⟩ := isSome_iff_exists.mp hsome
  obtain ⟨htakes, a, b, hl, ha⟩ := find?_eq_some_iff_append.mp ht
  exact ⟨a, t, b, hl, fun x hx => by simpa using ha x hx, by simpa using htakes⟩

lemma findPreferred_split {a b : List Tptr} (ha : ∀ x ∈ a, ¬ s.Takes p x) (ht : s.Takes p t) :
    s.findPreferred (a ++ t :: b) (none, p, r) = s.findPreferred b (some t, r, 0) := by
  rw [findPreferred_append, findPreferred_of_not_takes ha, findPreferred_of_takes ht]

/-- The loop stays with the first thread it takes exactly when nothing behind it is taken for the
process that is to run afterwards. -/
lemma findPreferred_stays_iff (hp : p ≠ 0) (ht : s.Takes p t) {b : List Tptr} :
    (∃ v, s.findPreferred b (some t, r, 0) = (some v, r, 0) ∧ (s.mem v).pid = p) ↔
      ∀ u ∈ b, ¬ s.Takes r u := by
  constructor
  · rintro ⟨v, hv, hpid⟩
    by_contra hex
    obtain ⟨a, u, c, rfl, ha, hu⟩ := exists_first_takes (by simpa using hex)
    rw [findPreferred_append, findPreferred_of_not_takes ha, findPreferred_of_takes hu] at hv
    obtain ⟨w, hw, hzero⟩ := exists_findPreferred_zero c u
    rw [hw, Prod.mk.injEq, Prod.mk.injEq, some.injEq] at hv
    obtain ⟨rfl, rfl, -⟩ := hv
    -- The preference is used up, so what is taken last belongs to no process.
    rcases hzero with rfl | hzero
    · exact hp (hpid.symm.trans hu.2)
    · exact hp (hpid.symm.trans hzero)
  · intro hb
    exact ⟨t, findPreferred_of_not_takes hb, ht.2⟩

lemma exists_findPreferred_some (b : List Tptr) (u : Tptr) (m n : ℕ) :
    ∃ v m' n', s.findPreferred b (some u, m, n) = (some v, m', n') := by
  induction b generalizing u m n with
  | nil => exact ⟨u, m, n, rfl⟩
  | cons x b ih =>
    rw [findPreferred]
    split
    · exact ih x n 0
    · exact ih u m n

/-! ## The choice -/

lemma choose_of_findPreferred {v : Tptr} {m n : ℕ} (h : s.preferredNextPid ≠ 0)
    (hfind : s.findPreferred s.threads (none, s.preferredNextPid, s.preferredReturnPid) =
      (some v, m, n)) :
    s.choose = (v, ({ s with preferredNextPid := m, preferredReturnPid := n } : State).modify v
      raiseModifier) := by
  unfold choose
  rw [if_pos h, hfind]

lemma woken_takes_iff {pid : ℕ} (ht : t ∈ s.threads) :
    (s.woken check cycle).Takes pid t ↔ s.AwakeOf check cycle pid t := by
  rw [Takes, AwakeOf, woken_status_iff ht, (woken_found check cycle).pid_eq]

/-- The choice, seen from the first thread that is taken. -/
lemma directed_iff_of_first {a b : List Tptr} (hp : s.preferredNextPid ≠ 0)
    (hpanic : s.NoPanic check cycle) (hl : s.threads = a ++ t :: b)
    (ha : ∀ x ∈ a, ¬ s.AwakeOf check cycle s.preferredNextPid x)
    (ht : s.AwakeOf check cycle s.preferredNextPid t) :
    s.Directed check cycle s.preferredNextPid s.preferredReturnPid ↔
      ∀ u ∈ b, ¬ s.AwakeOf check cycle s.preferredReturnPid u := by
  have hmem : ∀ x ∈ a ++ t :: b, x ∈ s.threads := fun x hx => hl ▸ hx
  have htmem : t ∈ s.threads := hmem t (by simp)
  have htakes := (woken_takes_iff htmem).mpr ht
  have hstays := findPreferred_stays_iff (r := s.preferredReturnPid) (b := b) hp htakes
  -- The loop takes `t` first, and goes on with what is behind it.
  obtain ⟨v, m, n, hv⟩ :=
    exists_findPreferred_some b t s.preferredReturnPid 0
  have hfind : (s.woken check cycle).findPreferred s.threads
      (none, s.preferredNextPid, s.preferredReturnPid) = (some v, m, n) := by
    rw [hl, findPreferred_split _ htakes, hv]
    exact fun x hx => mt (woken_takes_iff (hmem x (mem_append_left _ hx))).mp (ha x hx)
  have hchoose := choose_of_findPreferred (s := s.woken check cycle) hp hfind
  obtain ⟨hvmem, hvrun⟩ : v ∈ s.threads ∧ (s.woken check cycle).status v = runnable :=
    (findPreferred_mem s.threads _ (congrArg Prod.fst hfind)).resolve_left (by simp)
  have hkept := modify_raiseModifier_found (s := { s.woken check cycle with
    preferredNextPid := m, preferredReturnPid := n }) v
  have hdirected : s.Directed check cycle s.preferredNextPid s.preferredReturnPid ↔
      ∃ u, (some v, m, n) = (some u, s.preferredReturnPid, 0) ∧
        ((s.woken check cycle).mem u).pid = s.preferredNextPid := by
    have hsome := findThread_of_awake hpanic htmem ht.1
    rw [hchoose] at hsome
    constructor
    · rintro ⟨u, s', hu, -, -, hpid, hm, hn⟩
      rw [hsome, some.injEq, Prod.mk.injEq, some.injEq] at hu
      obtain ⟨rfl, rfl⟩ := hu
      rw [hkept.pid_eq] at hpid
      refine ⟨v, ?_, hpid⟩
      rw [← hm, ← hn]
      rfl
    · rintro ⟨u, heq, hpid⟩
      rw [Prod.mk.injEq, Prod.mk.injEq, some.injEq] at heq
      obtain ⟨rfl, hm, hn⟩ := heq
      exact ⟨v, _, hsome, hvmem, hkept.runnable hvrun, (hkept.pid_eq v).trans hpid, hm, hn⟩
  rw [hdirected, ← hv, hstays]
  refine forall₂_congr fun u hu => not_congr (woken_takes_iff (hmem u ?_))
  exact mem_append_right _ (mem_cons_of_mem _ hu)

/-- **A directed yield.** After `sch_yield_to`, when a thread of the process asked for is runnable,
`sch_find_thread` selects a runnable thread of that process, and remembers the process of the
caller, exactly when no thread that is awake has priority 0 and no thread of the caller's process
that is awake stands behind the first one of the process asked for. -/
theorem directed_iff (hp : p ≠ 0) (h : ∃ t ∈ s.threads, s.status t = runnable ∧ (s.mem t).pid = p) :
    (s.yieldTo p r).Directed check cycle p r ↔
      s.NoPanic check cycle ∧ s.NoneBehind check cycle p r := by
  set y : State := { s with preferredNextPid := p, preferredReturnPid := r }
  have hyield : s.yieldTo p r = y := if_pos hp
  rw [hyield]
  have htakes : ∃ t ∈ s.threads, (y.woken check cycle).Takes p t := by
    obtain ⟨t, ht, hrun, hpid⟩ := h
    exact ⟨t, ht, (woken_takes_iff ht).mpr ⟨.inl hrun, hpid⟩⟩
  constructor
  · rintro hdirected
    have hpanic : y.NoPanic check cycle := by
      obtain ⟨t, s', hfind, -⟩ := hdirected
      exact findThread_ne_none_iff.mp (by simp [hfind])
    refine ⟨hpanic, fun a t b hl ha ht => ?_⟩
    exact (directed_iff_of_first hp hpanic hl ha ht).mp hdirected
  · rintro ⟨hpanic, hnone⟩
    obtain ⟨a, t, b, hl, ha, ht⟩ := exists_first_takes htakes
    have hmem : ∀ x ∈ a ++ t :: b, x ∈ y.threads := fun x hx => hl ▸ hx
    have ha' : ∀ x ∈ a, ¬ y.AwakeOf check cycle p x :=
      fun x hx => mt (woken_takes_iff (hmem x (mem_append_left _ hx))).mpr (ha x hx)
    have ht' : y.AwakeOf check cycle p t := (woken_takes_iff (hmem t (by simp))).mp ht
    exact (directed_iff_of_first (s := y) hp hpanic hl ha' ht').mpr (hnone a t b hl ha' ht')

/-! ## Two processes -/

/-- Three threads: one without a process, and one each of two processes. -/
def twoProcesses (pids : Tptr → ℕ) : State where
  mem t :=
    { status := runnable, priority := defaultPriority, dynpriority := 0, modifier := 0,
      extId := t, pid := pids t, blockcheck := false, abortlevel := 0, userAbort := false,
      next := none, schCycle := 0 }
  threads := [0, 1, 2]
  current := 0
  reaper := 0
  prescheduler := 0
  idle := 0
  curExtId := 2
  preferredNextPid := 0
  preferredReturnPid := 0
  lcycle := 0
  cycle := 0

/-- The process asked for comes behind the one of the caller. -/
theorem directed_twoProcesses :
    ((twoProcesses fun t => 3 - t).yieldTo 1 2).Directed (fun _ => false) 1 1 2 := by
  refine (directed_iff (by decide) ⟨2, by decide, by decide, by decide⟩).mpr ⟨?_, ?_⟩
  · intro t _ _
    show defaultPriority ≠ 0
    decide
  · rintro a t b hl - ⟨-, ht⟩ u hu ⟨-, hu'⟩
    -- the threads stand in the order of their numbers, which is not that of the processes
    have horder : ∀ t u : ℕ, 3 - t = 1 → 3 - u = 2 → ¬ t < u := by omega
    have hsorted : (twoProcesses fun t => 3 - t).threads.Pairwise (· < ·) := by decide
    rw [hl] at hsorted
    exact horder t u ht hu' ((pairwise_cons.mp (pairwise_append.mp hsorted).2.1).1 u hu)

/-- The process of the caller comes behind the one asked for, and its thread is selected. -/
theorem exists_not_directed : ∃ (s : State) (p r : ℕ), p ≠ 0 ∧
    (∃ t ∈ s.threads, s.status t = runnable ∧ (s.mem t).pid = p) ∧
    ¬ (s.yieldTo p r).Directed (fun _ => false) 1 p r := by
  refine ⟨twoProcesses id, 1, 2, by decide, ⟨1, by decide, by decide, by decide⟩, ?_⟩
  have hfind : (((twoProcesses id).yieldTo 1 2).findThread (fun _ => false) 1).map
      (fun x => (x.1, x.2.preferredNextPid)) = some (some 2, 0) := by
    decide
  rintro ⟨t, s', ht, -, -, -, hnext, -⟩
  rw [ht, map_some, some.injEq, Prod.mk.injEq] at hfind
  exact absurd (hnext.symm.trans hfind.2) (by decide)

end State

end Scheduler
