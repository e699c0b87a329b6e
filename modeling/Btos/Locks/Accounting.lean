import Mathlib.Algebra.BigOperators.Group.Finset.Piecewise
import Mathlib.Algebra.Order.BigOperators.Group.Finset
import Mathlib.Tactic.Linarith
import Btos.Lib.TransitionSystem
import Btos.Locks.Lock

/-!
# Lock and abort-level accounting

Any number of threads call the lock functions on a set of locks other than `sch_lock`, in any
order and with any nesting, and threads are aborted meanwhile.

Main results: `accounted_of_reaches`, `exists_not_accounted` and `stays_of_run`.
-/

open Option Int32

namespace Locks

/-! ## The calls in any order -/

/-- The functions that are called. -/
inductive Call where
  | takeLockExclusive
  | takeLockRecursive
  | tryTakeLockExclusive
  | tryTakeLockRecursive
  | releaseLock
  deriving DecidableEq, Repr

/-- What may happen. -/
inductive Action where
  /-- A thread makes a call. -/
  | call (t : ThreadId) (c : Call) (l : Lptr)
  /-- A thread goes on with the call it is in. -/
  | resume (t : ThreadId)
  /-- The thread `caller` makes a round of `sch_abort`. -/
  | abort (caller t : ThreadId)
  deriving DecidableEq, Repr

/-- The thread that takes a step. -/
def Action.thread : Action → ThreadId
  | .call t _ _ | .resume t | .abort t _ => t

namespace State

/-- A call by a thread. -/
def perform (s : State) : Call → Lptr → ThreadId → Outcome
  | .takeLockExclusive => s.takeLockExclusive
  | .takeLockRecursive => s.takeLockRecursive
  | .tryTakeLockExclusive => s.tryTakeLockExclusive
  | .tryTakeLockRecursive => s.tryTakeLockRecursive
  | .releaseLock => s.releaseLock

/-- The effect of an action, `none` if it panics or cannot happen. A thread that is ending does
not run. -/
def step (locks : Finset Lptr) (s : State) : Action → Option State
  | .call t c l =>
      if l ∈ locks ∧ (s.thread t).ending = false ∧ (s.thread t).phase = .outside then
        (s.perform c l t).state?
      else none
  | .resume t =>
      if (s.thread t).ending = false ∧ (s.thread t).phase ≠ .outside then (s.resume t).state?
      else none
  | .abort caller t => if caller ≠ t then some (s.schAbort t) else none

/-- All locks are free, and the threads have some abort levels, which are not negative. -/
structure Initial (locks : Finset Lptr) (initial : ThreadId → Int32) (s : State) : Prop where
  schLock_notMem : s.schLock ∉ locks
  free : ∀ l ∈ locks, (s.lock l).lockval = 0 ∧ (s.lock l).count = 0
  abortlevel_eq : ∀ t, (s.thread t).abortlevel = initial t
  nonneg : ∀ t, 0 ≤ (initial t).toInt
  outside : ∀ t, (s.thread t).phase = .outside

/-- The abort level of a thread that may get a lock is clear of the end of the type `int`. One that
goes on after it has waited gets back what it was lowered by, too. -/
def Room (s : State) : Action → Prop
  | .call t c _ => c ≠ .releaseLock → (s.thread t).abortlevel.toInt + 1 < 2 ^ 31
  | .resume t => match (s.thread t).phase with
      | .waiting _ _ changeabort =>
          (s.thread t).abortlevel.toInt + (if changeabort then 2 else 1) < 2 ^ 31
      | _ => True
  | .abort _ _ => True

end State

/-- The lock functions, called by any number of threads on `locks`. -/
def lockCalls (locks : Finset Lptr) (initial : ThreadId → Int32) : System State Action where
  init := State.Initial locks initial
  step := State.step locks

/-! ## What a thread owns -/

/-- The count of a lock, if the thread owns it. -/
def Lock.heldBy (lk : Lock) (t : ThreadId) : ℕ := if lk.lockval = t then lk.count.toNat else 0

/-- What the place of a thread in a call adds to its abort level. -/
def Phase.offset : Phase → ℤ
  | .outside => 0
  | .waiting _ _ changeabort => if changeabort then -1 else 0
  | .yielding _ => 1

/-- The lock that the call of a thread is about. -/
def Phase.lock? : Phase → Option Lptr
  | .outside => none
  | .waiting _ l _ => some l
  | .yielding l => some l

namespace State

variable {locks : Finset Lptr} {initial : ThreadId → Int32} {s s' : State}
variable {l : Lptr} {t u : ThreadId} {lk : Lock} {level : Int32} {ph : Phase}

/-- The counts of the locks that a thread owns. -/
def held (locks : Finset Lptr) (s : State) (t : ThreadId) : ℕ := ∑ l ∈ locks, (s.lock l).heldBy t

/-- The state with one lock replaced, and the abort level and the phase of one thread. -/
def put (s : State) (l : Lptr) (lk : Lock) (t : ThreadId) (level : Int32) (ph : Phase) : State :=
  { s with
    lock := Function.update s.lock l lk
    thread := Function.update s.thread t { s.thread t with abortlevel := level, phase := ph } }

/-- The accounts of all locks and threads. -/
structure Accounted (locks : Finset Lptr) (initial : ThreadId → Int32) (s : State) : Prop where
  schLock_notMem : s.schLock ∉ locks
  free : ∀ l ∈ locks, (s.lock l).lockval = 0 ↔ (s.lock l).count = 0
  level : ∀ t, (s.thread t).abortlevel.toInt =
    (initial t).toInt + s.held locks t + (s.thread t).phase.offset
  nonneg : ∀ t, 0 ≤ (s.thread t).abortlevel.toInt
  initial_nonneg : ∀ t, 0 ≤ (initial t).toInt
  phase_mem : ∀ t l, (s.thread t).phase.lock? = some l → l ∈ locks

/-- An entry: what a step of `t` with the lock `l` has to respect. -/
structure Entry (s : State) (l : Lptr) (lk : Lock) (t : ThreadId) (level : Int32) (ph : Phase) :
    Prop where
  others : ∀ u, u ≠ t → lk.heldBy u = (s.lock l).heldBy u
  free : lk.lockval = 0 ↔ lk.count = 0
  nonneg : 0 ≤ level.toInt
  balance : level.toInt - lk.heldBy t - ph.offset =
    (s.thread t).abortlevel.toInt - (s.lock l).heldBy t - (s.thread t).phase.offset
  phase : ∀ l', ph.lock? = some l' → l' = l

lemma held_put (s : State) (lk : Lock) (t : ThreadId) (level : Int32) (ph : Phase)
    (hl : l ∈ locks) (u : ThreadId) :
    (s.put l lk t level ph).held locks u + (s.lock l).heldBy u = s.held locks u + lk.heldBy u := by
  have hnew : (s.put l lk t level ph).held locks u =
      lk.heldBy u + ∑ x ∈ locks \ {l}, (s.lock x).heldBy u := by
    rw [held, ← Finset.sum_update_of_mem hl fun x => (s.lock x).heldBy u]
    refine Finset.sum_congr rfl fun x _ => ?_
    by_cases hx : x = l
    · subst hx
      simp [put]
    · simp [put, hx]
  have hold : s.held locks u = (s.lock l).heldBy u + ∑ x ∈ locks \ {l}, (s.lock x).heldBy u := by
    rw [held, ← Finset.sum_update_of_mem hl fun x => (s.lock x).heldBy u]
    simp
  omega

lemma heldBy_le_held (hl : l ∈ locks) : (s.lock l).heldBy t ≤ s.held locks t :=
  Finset.single_le_sum (f := fun l => (s.lock l).heldBy t) (fun _ _ => Nat.zero_le _) hl

lemma put_thread_self : ((s.put l lk t level ph).thread t).abortlevel = level ∧
    ((s.put l lk t level ph).thread t).phase = ph := by
  simp [put]

lemma put_thread_of_ne (hu : u ≠ t) : (s.put l lk t level ph).thread u = s.thread u := by
  simp [put, hu]

/-- An entry keeps the accounts. -/
lemma Accounted.put (h : Accounted locks initial s) (hl : l ∈ locks)
    (he : Entry s l lk t level ph) : Accounted locks initial (s.put l lk t level ph) where
  __ := h
  free x hx := by
    by_cases hxl : x = l
    · subst hxl
      simpa [State.put] using he.free
    · simpa [State.put, hxl] using h.free x hx
  level u := by
    -- what `t` holds and its abort level change by the same amount, those of others do not change
    have hheld := held_put s lk t level ph hl u
    have hlevel := h.level u
    by_cases hu : u = t
    · subst hu
      have hbalance := he.balance
      rw [put_thread_self.1, put_thread_self.2]
      omega
    · rw [put_thread_of_ne hu]
      have hothers := he.others u hu
      omega
  nonneg u := by
    by_cases hu : u = t
    · subst hu
      rw [put_thread_self.1]
      exact he.nonneg
    · rw [put_thread_of_ne hu]
      exact h.nonneg u
  phase_mem u x hx := by
    by_cases hu : u = t
    · subst hu
      rw [put_thread_self.2] at hx
      exact he.phase x hx ▸ hl
    · rw [put_thread_of_ne hu] at hx
      exact h.phase_mem u x hx

/-! ## The abort level of a step -/

lemma nextAbortlevel_false {n : Int32} (h0 : 0 ≤ n.toInt) (hn : n.toInt + 1 < 2 ^ 31) :
    (nextAbortlevel false n).toInt = n.toInt + 1 := by
  have hadd : (n + 1).toInt = n.toInt + 1 := by
    rw [Int32.toInt_add, Int32.toInt_one]
    apply Int.bmod_eq_of_le <;> omega
  have hnot : ¬ n + 1 < 0 := by
    rw [lt_iff_toInt_lt, hadd, Int32.toInt_zero]
    omega
  simp only [nextAbortlevel, Bool.false_eq_true, if_false, if_neg hnot]
  exact hadd

lemma nextAbortlevel_true {n : Int32} (h1 : 1 ≤ n.toInt) :
    (nextAbortlevel true n).toInt = n.toInt - 1 := by
  have hlt := n.toInt_lt
  have hsub : (n - 1).toInt = n.toInt - 1 := by
    rw [Int32.toInt_sub, Int32.toInt_one]
    apply Int.bmod_eq_of_le <;> omega
  have hnot : ¬ n - 1 < 0 := by
    rw [lt_iff_toInt_lt, hsub, Int32.toInt_zero]
    omega
  simp only [nextAbortlevel, if_true, if_neg hnot]
  exact hsub

/-! ## The calls as entries -/

lemma modifyLock_modifyLock (s : State) (l : Lptr) (f g : Lock → Lock) :
    (s.modifyLock l f).modifyLock l g = s.modifyLock l (g ∘ f) := by
  simp [modifyLock]

lemma modifyLock_abortableFor (s : State) (f : Lock → Lock) (b : Bool) (hl : l ≠ s.schLock) :
    (s.modifyLock l f).abortableFor l b t = s.put l (f (s.lock l)) t
      (nextAbortlevel b (s.thread t).abortlevel) (s.thread t).phase :=
  if_pos hl

lemma abortableFor_modifyLock (s : State) (l : Lptr) (f : Lock → Lock) (b : Bool)
    (t : ThreadId) : (s.abortableFor l b t).modifyLock l f =
      (s.modifyLock l f).abortableFor l b t := by
  by_cases hl : l = s.schLock
  · simp [abortableFor, modifyLock, hl]
  · simp [abortableFor, modifyLock, schAbortable, modifyThread, hl]

lemma finishTake_eq (exclusive : Bool) (hl : l ≠ s.schLock) (hcount : (s.lock l).count = 0) :
    s.finishTake exclusive l t = if t = 0 then .panics .valueNotSet else
      .done true (s.put l ⟨t, 1, false⟩ t
        (nextAbortlevel false (s.thread t).abortlevel) (s.thread t).phase) := by
  unfold finishTake
  dsimp only
  rw [modifyLock_modifyLock, modifyLock_abortableFor s _ _ hl]
  simp [modifyLock, hcount]

lemma tryOnce_eq (hl : l ≠ s.schLock) (hfree : (s.lock l).lockval = 0)
    (hcount : (s.lock l).count = 0) :
    s.tryOnce l t = if t = 0 then .panics .valueNotSet else
      .done true (s.put l ⟨t, 1, (s.lock l).waiting⟩ t
        (nextAbortlevel false (s.thread t).abortlevel) (s.thread t).phase) := by
  unfold tryOnce
  dsimp only
  rw [if_pos hfree, modifyLock_modifyLock, modifyLock_abortableFor s _ _ hl]
  simp [modifyLock, State.put, hcount]

/-- The owner gives back the lock once, and yields if it is free now and somebody waits. -/
lemma releaseLock_eq (hl : l ≠ s.schLock) (hactive : s.active = true)
    (hown : (s.lock l).lockval = t) (hcount : (s.lock l).count ≠ 0)
    (hlk : lk = ⟨if (s.lock l).count - 1 = 0 then 0 else t, (s.lock l).count - 1,
      (s.lock l).waiting⟩) :
    s.releaseLock l t = if lk.count = 0 ∧ lk.waiting = true then
        .waits (s.put l lk t (s.thread t).abortlevel (.yielding l))
      else .done true (s.put l lk t (nextAbortlevel true (s.thread t).abortlevel)
        (s.thread t).phase) := by
  unfold releaseLock
  dsimp only
  rw [modifyLock_modifyLock, modifyLock_abortableFor s _ _ hl, modifyLock_abortableFor s _ _ hl]
  subst hlk
  by_cases hlast : (s.lock l).count - 1 = 0
  · cases hwait : (s.lock l).waiting <;>
      simp [hactive, hown, hcount, hlast, hwait, modifyLock, modifyThread, State.put]
  · simp [hactive, hown, hcount, hlast, modifyLock]

lemma schSetblock_eq (exclusive : Bool) (l : Lptr) (t : ThreadId) :
    s.schSetblock exclusive l t = s.put l { s.lock l with waiting := true } t
      (if (s.thread t).abortlevel ≠ 0 then nextAbortlevel true (s.thread t).abortlevel
        else (s.thread t).abortlevel) (.waiting exclusive l ((s.thread t).abortlevel ≠ 0)) := by
  unfold schSetblock
  by_cases hlevel : (s.thread t).abortlevel = 0 <;>
    simp [modifyLock, modifyThread, schAbortable, State.put, hlevel]

/-! ## The calls keep the accounts -/

section

variable (h : Accounted locks initial s)
include h

variable (hl : l ∈ locks)

include hl

/-- A thread gets a free lock, and its abort level goes up by one. -/
lemma Accounted.take_entry (ht : t ≠ 0) (hfree : (s.lock l).lockval = 0) (waiting : Bool)
    (hnonneg : 0 ≤ level.toInt) (hlevel : level.toInt - ph.offset =
      (s.thread t).abortlevel.toInt + 1 - (s.thread t).phase.offset)
    (hph : ph.lock? = none) : Entry s l ⟨t, 1, waiting⟩ t level ph := by
  have hcount := (h.free l hl).mp hfree
  have hold (u : ThreadId) : (s.lock l).heldBy u = 0 := by
    simp [Lock.heldBy, hcount]
  refine ⟨fun u hu => ?_, ?_, hnonneg, ?_, fun l' hl' => ?_⟩
  · rw [hold, Lock.heldBy, if_neg (Ne.symm hu)]
  · simp [ht]
  · have hnew : Lock.heldBy ⟨t, 1, waiting⟩ t = 1 := by simp [Lock.heldBy]
    rw [hold, hnew]
    omega
  · rw [hph] at hl'
    cases hl'

/-- The owner takes the lock once more. -/
lemma Accounted.again_entry (ht : t ≠ 0) (hown : (s.lock l).lockval = t)
    (hout : (s.thread t).phase = .outside) (hroom : (s.thread t).abortlevel.toInt + 1 < 2 ^ 31) :
    Entry s l { s.lock l with count := (s.lock l).count + 1 } t
      (nextAbortlevel false (s.thread t).abortlevel) .outside := by
  have hnonneg := h.nonneg t
  have hraise := nextAbortlevel_false (n := (s.thread t).abortlevel) hnonneg (by omega)
  -- The count is part of the abort level, so it does not wrap either.
  have hheld : (s.lock l).heldBy t = (s.lock l).count.toNat := if_pos hown
  have hcount : ((s.lock l).count + 1).toNat = (s.lock l).count.toNat + 1 := by
    have hle := heldBy_le_held (s := s) (t := t) hl
    have hlevel := h.level t
    have hinit := h.initial_nonneg t
    rw [hout, Phase.offset] at hlevel
    rw [UInt32.toNat_add, UInt32.toNat_one]
    apply Nat.mod_eq_of_lt
    omega
  have hnew : Lock.heldBy { s.lock l with count := (s.lock l).count + 1 } t =
      (s.lock l).count.toNat + 1 := by
    rw [Lock.heldBy, if_pos hown, hcount]
  refine ⟨fun u hu => ?_, ?_, by omega, ?_, fun l' hl' => by cases hl'⟩
  · rw [Lock.heldBy, Lock.heldBy, if_neg fun heq => hu (heq.symm.trans hown),
      if_neg fun heq => hu (heq.symm.trans hown)]
  · have hpos : (s.lock l).count + 1 ≠ 0 := by
      intro hzero
      rw [hzero, UInt32.toNat_zero] at hcount
      omega
    simp [hown, ht, hpos]
  · rw [hnew, hheld, hraise, hout]
    omega

/-- The owner gives back the lock once. -/
lemma Accounted.release_entry (hown : (s.lock l).lockval = t) (hcount : (s.lock l).count ≠ 0)
    (hlk : lk.count = (s.lock l).count - 1)
    (hval : lk.lockval = if lk.count = 0 then 0 else t) (hnonneg : 0 ≤ level.toInt)
    (hlevel : level.toInt - ph.offset =
      (s.thread t).abortlevel.toInt - 1 - (s.thread t).phase.offset)
    (hph : ∀ l', ph.lock? = some l' → l' = l) : Entry s l lk t level ph := by
  have ht : t ≠ 0 := by
    rintro rfl
    exact hcount ((h.free l hl).mp hown)
  -- the count does not fall below zero
  have hpred : lk.count.toNat + 1 = (s.lock l).count.toNat := by
    have hpos : (1 : UInt32) ≤ (s.lock l).count := by
      rw [UInt32.le_iff_toNat_le, UInt32.toNat_one]
      exact Nat.one_le_iff_ne_zero.mpr fun hz => hcount (UInt32.toNat_inj.mp hz)
    have hone := UInt32.le_iff_toNat_le.mp hpos
    rw [UInt32.toNat_one] at hone
    rw [hlk, UInt32.toNat_sub_of_le _ _ hpos, UInt32.toNat_one]
    omega
  have hheld : (s.lock l).heldBy t = (s.lock l).count.toNat := if_pos hown
  have hzero : lk.count = 0 → lk.count.toNat = 0 := fun hz => by rw [hz, UInt32.toNat_zero]
  have hnew : lk.heldBy t = lk.count.toNat := by
    by_cases hz : lk.count = 0
    · rw [Lock.heldBy, hzero hz, ite_self]
    · rw [Lock.heldBy, if_pos (by rw [hval, if_neg hz])]
  refine ⟨fun u hu => ?_, ?_, hnonneg, by omega, hph⟩
  · have hold : (s.lock l).heldBy u = 0 := if_neg fun heq => hu (heq.symm.trans hown)
    rw [hold]
    by_cases hz : lk.count = 0
    · rw [Lock.heldBy, hzero hz, ite_self]
    · rw [Lock.heldBy, hval, if_neg hz, if_neg (Ne.symm hu)]
  · by_cases hz : lk.count = 0
    · simp [hval, hz]
    · simp [hval, hz, ht]

/-- A thread starts to wait for a lock of another one. -/
lemma Accounted.wait_entry (exclusive : Bool) (hout : (s.thread t).phase = .outside) :
    Entry s l { s.lock l with waiting := true } t
      (if (s.thread t).abortlevel ≠ 0 then nextAbortlevel true (s.thread t).abortlevel
        else (s.thread t).abortlevel) (.waiting exclusive l ((s.thread t).abortlevel ≠ 0)) := by
  have hnonneg := h.nonneg t
  have hpos : (s.thread t).abortlevel ≠ 0 → 1 ≤ (s.thread t).abortlevel.toInt := by
    intro hne
    have hint : (s.thread t).abortlevel.toInt ≠ 0 := fun hz => hne (Int32.toInt_inj.mp hz)
    omega
  refine ⟨fun u _ => rfl, h.free l hl, ?_, ?_, fun l' hl' => (some.inj hl').symm⟩
  · split
    · rename_i hne
      have hone := hpos hne
      rw [nextAbortlevel_true hone]
      omega
    · exact hnonneg
  · have hsame : Lock.heldBy { s.lock l with waiting := true } t = (s.lock l).heldBy t := rfl
    rw [hsame, hout]
    by_cases hz : (s.thread t).abortlevel = 0
    · simp [hz, Phase.offset]
    -- the level is lowered for the time of waiting, which the phase accounts for
    · rw [if_pos hz, nextAbortlevel_true (hpos hz)]
      simp only [Phase.offset, hz, ne_eq, not_false_eq_true, decide_true, if_true]
      omega

lemma Accounted.ne_schLock : l ≠ s.schLock :=
  fun heq => h.schLock_notMem (heq ▸ hl)

lemma Accounted.abortlevel_pos (hown : (s.lock l).lockval = t) (hcount : (s.lock l).count ≠ 0)
    (hout : (s.thread t).phase = .outside) : 1 ≤ (s.thread t).abortlevel.toInt := by
  have hheld : (s.lock l).heldBy t = (s.lock l).count.toNat := if_pos hown
  have hle := heldBy_le_held (s := s) (t := t) hl
  have hpos : (s.lock l).count.toNat ≠ 0 := fun hz => hcount (UInt32.toNat_inj.mp hz)
  have hlevel := h.level t
  have hinit := h.initial_nonneg t
  rw [hout, Phase.offset] at hlevel
  omega

lemma Accounted.releaseLock (hout : (s.thread t).phase = .outside)
    (hs : (s.releaseLock l t).state? = some s') : Accounted locks initial s' := by
  by_cases hactive : s.active = true
  · by_cases hown : (s.lock l).lockval = t
    · by_cases hcount : (s.lock l).count = 0
      · simp [State.releaseLock, hactive, hown, hcount, Outcome.state?] at hs
      · obtain ⟨lk, hlk⟩ : ∃ lk : Lock, lk = ⟨if (s.lock l).count - 1 = 0 then 0 else t,
            (s.lock l).count - 1, (s.lock l).waiting⟩ := ⟨_, rfl⟩
        have hnew : lk.count = (s.lock l).count - 1 ∧
            lk.lockval = if lk.count = 0 then 0 else t := by
          rw [hlk]
          exact ⟨rfl, rfl⟩
        rw [releaseLock_eq (h.ne_schLock hl) hactive hown hcount hlk] at hs
        have hnonneg := h.nonneg t
        split at hs
        -- there are waiters: the thread gives up the processor before its level is lowered
        · cases hs
          apply h.put hl
          apply h.release_entry hl hown hcount hnew.1 hnew.2 hnonneg
          · rw [hout, Phase.offset, Phase.offset]
            omega
          · exact fun l' hl' => (some.inj hl').symm
        · cases hs
          have hpos := h.abortlevel_pos hl hown hcount hout
          have hlower := nextAbortlevel_true hpos
          apply h.put hl
          apply h.release_entry hl hown hcount hnew.1 hnew.2
          · omega
          · omega
          · rw [hout]
            exact fun l' hl' => by cases hl'
    · simp [State.releaseLock, hactive, hown, Outcome.state?] at hs
  · simp only [State.releaseLock, hactive, Bool.not_false, if_true, Outcome.state?] at hs
    exact some.inj hs ▸ h

section

variable (hout : (s.thread t).phase = .outside)
  (hroom : (s.thread t).abortlevel.toInt + 1 < 2 ^ 31)

include hout hroom

lemma Accounted.take (ht : t ≠ 0) (hfree : (s.lock l).lockval = 0) (waiting : Bool) :
    Accounted locks initial (s.put l ⟨t, 1, waiting⟩ t
      (nextAbortlevel false (s.thread t).abortlevel) (s.thread t).phase) := by
  have hnonneg := h.nonneg t
  have hraise := nextAbortlevel_false hnonneg (by omega)
  apply h.put hl
  apply h.take_entry hl ht hfree
  · omega
  · omega
  · rw [hout]
    rfl

/-- A thread outside of the lock functions gets a free lock, or starts to wait. -/
lemma Accounted.takeLoop (exclusive : Bool)
    (hs : (s.takeLoop exclusive l t).state? = some s') : Accounted locks initial s' := by
  unfold State.takeLoop at hs
  split at hs
  · rename_i hfree
    rw [finishTake_eq exclusive (h.ne_schLock hl) ((h.free l hl).mp hfree)] at hs
    split at hs
    · cases hs
    · exact some.inj hs ▸ h.take hl hout hroom ‹_› hfree false
  · split at hs
    · rw [schSetblock_eq] at hs
      exact some.inj hs ▸ h.put hl (h.wait_entry hl exclusive hout)
    · cases hs

lemma Accounted.tryOnce (hs : (s.tryOnce l t).state? = some s') :
    Accounted locks initial s' := by
  by_cases hfree : (s.lock l).lockval = 0
  · rw [tryOnce_eq (h.ne_schLock hl) hfree ((h.free l hl).mp hfree)] at hs
    split at hs
    · cases hs
    · exact some.inj hs ▸ h.take hl hout hroom ‹_› hfree _
  · unfold State.tryOnce at hs
    rw [if_neg hfree] at hs
    exact some.inj hs ▸ h

lemma Accounted.again (ht : t ≠ 0) (hown : (s.lock l).lockval = t) :
    Accounted locks initial
      ((s.modifyLock l fun lk => { lk with count := lk.count + 1 }).abortableFor l false t) := by
  rw [modifyLock_abortableFor s _ _ (h.ne_schLock hl), hout]
  exact h.put hl (h.again_entry hl ht hown hout hroom)

end

/-- A thread makes a call. -/
lemma Accounted.perform {c : Call} (hout : (s.thread t).phase = .outside)
    (hroom : c ≠ .releaseLock → (s.thread t).abortlevel.toInt + 1 < 2 ^ 31)
    (hs : (s.perform c l t).state? = some s') : Accounted locks initial s' := by
  cases c with
  | takeLockExclusive =>
    replace hroom := hroom nofun
    rw [State.perform, State.takeLockExclusive] at hs
    split at hs
    · exact some.inj hs ▸ h
    · split at hs
      · cases hs
      · split at hs
        · cases hs
        · exact h.takeLoop hl hout hroom true hs
  | takeLockRecursive =>
    replace hroom := hroom nofun
    rw [State.perform, State.takeLockRecursive, abortableFor_modifyLock] at hs
    split at hs
    · exact some.inj hs ▸ h
    · split at hs
      · rename_i hown
        exact some.inj hs ▸ h.again hl hout hroom hown.2 hown.1
      · split at hs
        · cases hs
        · exact h.takeLoop hl hout hroom false hs
  | tryTakeLockExclusive =>
    replace hroom := hroom nofun
    rw [State.perform, State.tryTakeLockExclusive] at hs
    split at hs
    · exact some.inj hs ▸ h
    · split at hs
      · exact some.inj hs ▸ h
      · exact h.tryOnce hl hout hroom hs
  | tryTakeLockRecursive =>
    replace hroom := hroom nofun
    rw [State.perform, State.tryTakeLockRecursive] at hs
    split at hs
    · exact some.inj hs ▸ h
    · split at hs
      · rename_i hown
        exact some.inj hs ▸ h.again hl hout hroom hown.2 hown.1
      · exact h.tryOnce hl hout hroom hs
  | releaseLock => exact h.releaseLock hl hout hs

end

/-- A thread that has waited gets the lock. -/
lemma resume_waiting_eq {exclusive changeabort : Bool} (hl : l ≠ s.schLock)
    (hfree : (s.lock l).lockval = 0) (hcount : (s.lock l).count = 0)
    (hphase : (s.thread t).phase = .waiting exclusive l changeabort) :
    s.resume t = if t = 0 then .panics .valueNotSet else
      .done true (s.put l ⟨t, 1, false⟩ t (nextAbortlevel false (if changeabort then
          nextAbortlevel false (s.thread t).abortlevel else (s.thread t).abortlevel))
        .outside) := by
  unfold resume
  rw [hphase]
  dsimp only
  rw [if_neg (not_not.mpr hfree)]
  have hloop (s1 : State) (hlock : s1.lock = s.lock) (hsch : s1.schLock = s.schLock) :
      s1.takeLoop exclusive l t = if t = 0 then .panics .valueNotSet else
        .done true (s1.put l ⟨t, 1, false⟩ t
          (nextAbortlevel false (s1.thread t).abortlevel) (s1.thread t).phase) := by
    rw [takeLoop, hlock, if_pos hfree]
    exact finishTake_eq exclusive (hsch ▸ hl) (hlock ▸ hcount)
  cases changeabort with
  | false =>
    simp only [Bool.false_eq_true, if_false]
    rw [hloop]
    · simp [modifyThread, State.put]
    · rfl
    · rfl
  | true =>
    simp only [if_true]
    rw [hloop]
    · simp [modifyThread, schAbortable, State.put]
    · rfl
    · rfl

/-- A thread goes on with the call it is in. -/
lemma Accounted.resume (h : Accounted locks initial s) (hroom : s.Room (.resume t))
    (hs : (s.resume t).state? = some s') : Accounted locks initial s' := by
  have hnonneg := h.nonneg t
  cases hphase : (s.thread t).phase with
  | outside =>
    rw [State.resume, hphase] at hs
    exact some.inj hs ▸ h
  | waiting exclusive l changeabort =>
    have hl : l ∈ locks := h.phase_mem t l (by rw [hphase]; rfl)
    simp only [Room, hphase] at hroom
    -- the level is raised for the lock, and if it was lowered for waiting, once more
    have hlevel : (nextAbortlevel false (if changeabort then
        nextAbortlevel false (s.thread t).abortlevel else (s.thread t).abortlevel)).toInt =
          (s.thread t).abortlevel.toInt + if changeabort then 2 else 1 := by
      cases changeabort with
      | false => exact nextAbortlevel_false hnonneg hroom
      | true =>
        simp only [if_true] at hroom ⊢
        have hraise := nextAbortlevel_false hnonneg (by omega)
        rw [nextAbortlevel_false (by omega) (by omega), hraise]
        omega
    by_cases hfree : (s.lock l).lockval = 0
    · rw [resume_waiting_eq (h.ne_schLock hl) hfree ((h.free l hl).mp hfree) hphase] at hs
      split at hs
      · cases hs
      · cases hs
        apply h.put hl
        apply h.take_entry hl ‹_› hfree
        · rw [hlevel]
          split <;> omega
        · rw [hlevel, hphase, Phase.offset, Phase.offset]
          split <;> omega
        · rfl
    · rw [State.resume, hphase] at hs
      dsimp only at hs
      rw [if_pos hfree] at hs
      -- only the note that somebody waits is new
      have hput : s.modifyLock l (fun lk => { lk with waiting := true }) =
          s.put l { s.lock l with waiting := true } t (s.thread t).abortlevel
            (s.thread t).phase := by
        simp [modifyLock, State.put]
      rw [hput] at hs
      refine some.inj hs ▸ h.put hl ⟨fun _ _ => rfl, h.free l hl, hnonneg, rfl, fun l' hl' => ?_⟩
      rw [hphase] at hl'
      exact (some.inj hl').symm
  | yielding l =>
    have hl : l ∈ locks := h.phase_mem t l (by rw [hphase]; rfl)
    -- the level that is still to be lowered is accounted for by the phase
    have hpos : 1 ≤ (s.thread t).abortlevel.toInt := by
      have hlevel := h.level t
      have hinit := h.initial_nonneg t
      rw [hphase, Phase.offset] at hlevel
      omega
    have hput : s.resume t = .done true
        (s.put l (s.lock l) t (nextAbortlevel true (s.thread t).abortlevel) .outside) := by
      have hne := h.ne_schLock hl
      rw [State.resume, hphase]
      simp [modifyThread, abortableFor, schAbortable, State.put, hne]
    rw [hput] at hs
    cases hs
    have hlower := nextAbortlevel_true hpos
    refine h.put hl ⟨fun _ _ => rfl, h.free l hl, by omega, ?_, fun l' hl' => by cases hl'⟩
    rw [hphase, Phase.offset, Phase.offset]
    omega

/-- `sch_abort` writes neither abort levels nor locks. -/
lemma Accounted.schAbort (h : Accounted locks initial s) (t : ThreadId) :
    Accounted locks initial (s.schAbort t) := by
  have hthread (u : ThreadId) : ((s.schAbort t).thread u).abortlevel = (s.thread u).abortlevel ∧
      ((s.schAbort t).thread u).phase = (s.thread u).phase := by
    by_cases hu : u = t
    · subst hu
      simp only [State.schAbort, modifyThread, Function.update_self]
      split <;> exact ⟨rfl, rfl⟩
    · simp [State.schAbort, modifyThread, hu]
  refine ⟨h.schLock_notMem, h.free, fun u => ?_, fun u => ?_, h.initial_nonneg, fun u x hx => ?_⟩
  · rw [(hthread u).1, (hthread u).2]
    exact h.level u
  · rw [(hthread u).1]
    exact h.nonneg u
  · rw [(hthread u).2] at hx
    exact h.phase_mem u x hx

lemma Initial.accounted (h : Initial locks initial s) : Accounted locks initial s where
  schLock_notMem := h.schLock_notMem
  free l hl := by simp [h.free l hl]
  level t := by
    have hheld : s.held locks t = 0 := by
      refine Finset.sum_eq_zero fun l hl => ?_
      simp [Lock.heldBy, h.free l hl]
    rw [h.abortlevel_eq, h.outside, hheld, Phase.offset]
    omega
  nonneg t := by
    rw [h.abortlevel_eq]
    exact h.nonneg t
  initial_nonneg := h.nonneg
  phase_mem t l hl := by
    rw [h.outside] at hl
    cases hl

lemma Accounted.step (h : Accounted locks initial s) {a : Action} (hroom : s.Room a)
    (hstep : s.step locks a = some s') : Accounted locks initial s' := by
  unfold State.step at hstep
  cases a with
  | call t c l =>
    rw [ite_none_right_eq_some] at hstep
    exact h.perform hstep.1.1 hstep.1.2.2 hroom hstep.2
  | resume t =>
    rw [ite_none_right_eq_some] at hstep
    exact h.resume hroom hstep.2
  | abort caller t =>
    rw [ite_none_right_eq_some] at hstep
    exact some.inj hstep.2 ▸ h.schAbort t

/-- A thread of abort level 0 owns nothing, unless it has been lowered while it waits. -/
lemma Accounted.not_owner (h : Accounted locks initial s) (ht : t ≠ 0)
    (hzero : (s.thread t).abortlevel = 0) :
    (∀ l ∈ locks, (s.lock l).lockval ≠ t) ∨
      ((∃ exclusive l, (s.thread t).phase = .waiting exclusive l true) ∧ initial t = 0) := by
  have hlevel := h.level t
  have hinit := h.initial_nonneg t
  rw [hzero, Int32.toInt_zero] at hlevel
  -- Whoever owns a lock has its count in the abort level.
  have hnone : s.held locks t = 0 → ∀ l ∈ locks, (s.lock l).lockval ≠ t := by
    intro hheld l hl hown
    have hle := heldBy_le_held (s := s) (t := t) hl
    rw [hheld, Lock.heldBy, if_pos hown, Nat.le_zero] at hle
    have hval := (h.free l hl).mpr (UInt32.toNat_inj.mp hle)
    exact ht (hown.symm.trans hval)
  cases hphase : (s.thread t).phase with
  | outside =>
    rw [hphase, Phase.offset] at hlevel
    exact .inl (hnone (by omega))
  | waiting exclusive l changeabort =>
    rw [hphase, Phase.offset] at hlevel
    cases changeabort with
    | false =>
      rw [if_neg Bool.false_ne_true] at hlevel
      exact .inl (hnone (by omega))
    | true =>
      rw [if_pos rfl] at hlevel
      by_cases hheld : s.held locks t = 0
      · exact .inl (hnone hheld)
      · refine .inr ⟨⟨exclusive, l, rfl⟩, Int32.toInt_inj.mp ?_⟩
        rw [Int32.toInt_zero]
        omega
  | yielding l =>
    rw [hphase, Phase.offset] at hlevel
    omega

lemma abortlevel_of_schAbort (hbefore : (s.thread t).ending = false)
    (hafter : ((s.schAbort t).thread t).ending = true) : (s.thread t).abortlevel = 0 := by
  by_contra hne
  simp [schAbort, modifyThread, hne, hbefore] at hafter

/-- In every run in which the abort levels have room: a lock is free exactly when its count is
0, the abort levels are those of the start plus the counts of what the threads own, up to what
the call a thread is in has yet to do, and `sch_abort` marks no thread that owns a lock, unless
it waits for another one and started with the abort level 0. -/
theorem accounted_of_reaches (h : (lockCalls locks initial).Reaches Room s) :
    (∀ l ∈ locks, (s.lock l).lockval = 0 ↔ (s.lock l).count = 0) ∧
      (∀ t, (s.thread t).abortlevel.toInt =
        (initial t).toInt + s.held locks t + (s.thread t).phase.offset) ∧
      ∀ caller t s', (lockCalls locks initial).step s (.abort caller t) = some s' → t ≠ 0 →
        (s.thread t).ending = false → (s'.thread t).ending = true →
        (∀ l ∈ locks, (s.lock l).lockval ≠ t) ∨
          ((∃ exclusive l, (s.thread t).phase = .waiting exclusive l true) ∧ initial t = 0) := by
  have hacc : Accounted locks initial s :=
    h.invariant (fun _ hs => Initial.accounted hs) fun _ _ _ hi hroom hstep => hi.step hroom hstep
  refine ⟨hacc.free, hacc.level, fun caller t s' hstep ht hbefore hafter => ?_⟩
  have habort : s.step locks (.abort caller t) = some s' := hstep
  rw [State.step, ite_none_right_eq_some] at habort
  obtain rfl := some.inj habort.2
  exact hacc.not_owner ht (abortlevel_of_schAbort hbefore hafter)

/-! ## Where the counts end -/

/-- Every lock is free, and every thread has the abort level `n`. -/
def allFree (n : Int32) : State where
  lock _ := ⟨0, 0, false⟩
  thread _ := ⟨n, false, false, .outside⟩
  schLock := 0
  active := true

lemma allFree_initial {n : Int32} (hn : 0 ≤ n.toInt) (hl : 0 ∉ locks) :
    (lockCalls locks fun _ => n).init (allFree n) :=
  ⟨hl, fun _ _ => ⟨rfl, rfl⟩, fun _ => rfl, fun _ => hn, fun _ => rfl⟩

/-- A thread has a lock and another one waits for it. -/
theorem accounted_waiting : ∃ s, (lockCalls {5} fun _ => 1).Reaches Room s ∧
    (s.lock 5).lockval = 1 ∧ (s.thread 2).phase = .waiting true 5 true ∧
    (s.thread 1).abortlevel.toInt = (1 : Int32).toInt + s.held {5} 1 + 0 := by
  have hinit : (lockCalls {5} fun _ => 1).init (allFree 1) :=
    allFree_initial (by decide) (by decide)
  have htaken : (lockCalls {5} fun _ => 1).Reaches Room _ :=
    .step (.init hinit) (a := .call 1 .takeLockExclusive 5) (by unfold Room; decide) rfl
  have hwaits : (lockCalls {5} fun _ => 1).Reaches Room _ :=
    .step htaken (a := .call 2 .takeLockExclusive 5) (by unfold Room; decide) rfl
  exact ⟨_, hwaits, rfl, rfl, (accounted_of_reaches hwaits).2.1 1⟩

/-- Thread 1 has taken lock 5 `n` times, and nothing else has happened. -/
def nested (n : ℕ) : State :=
  (allFree 0).put 5 ⟨1, UInt32.ofNat n, false⟩ 1 (Int32.ofNat n) .outside

lemma nested_step (n : ℕ) (level : Int32) (hlevel : nextAbortlevel false (Int32.ofNat n) = level) :
    (nested n).step {5} (.call 1 .takeLockRecursive 5) =
      some ((allFree 0).put 5 ⟨1, UInt32.ofNat (n + 1), false⟩ 1 level .outside) := by
  subst hlevel
  simp [State.step, perform, takeLockRecursive, abortableFor, modifyLock, schAbortable,
    modifyThread, nested, allFree, State.put, Outcome.state?, UInt32.ofNat_add]

lemma nextAbortlevel_ofNat {n : ℕ} (hn : n + 1 < 2 ^ 31) :
    nextAbortlevel false (Int32.ofNat n) = Int32.ofNat (n + 1) := by
  have hint : (Int32.ofNat n).toInt = n := toInt_ofNat_of_lt (by omega)
  apply Int32.toInt_inj.mp
  rw [nextAbortlevel_false (by omega) (by omega), hint, toInt_ofNat_of_lt hn]
  push_cast
  rfl

/-- Nothing keeps a thread from taking a lock that often. -/
lemma nested_reachable {n : ℕ} (hn : n + 1 < 2 ^ 31) :
    (lockCalls {5} fun _ => 0).Reachable (nested (n + 1)) := by
  induction n with
  | zero =>
    have hinit : (lockCalls {5} fun _ => 0).init (allFree 0) :=
      allFree_initial (by decide) (by decide)
    have hlevel : nextAbortlevel false 0 = 1 := by decide
    have hstep : (allFree 0).step {5} (.call 1 .takeLockRecursive 5) = some (nested 1) := by
      simp [State.step, perform, takeLockRecursive, takeLoop, finishTake, abortableFor,
        modifyLock, schAbortable, modifyThread, nested, allFree, State.put, Outcome.state?, hlevel]
    exact .step (.init hinit) (a := .call 1 .takeLockRecursive 5) trivial hstep
  | succ n ih =>
    refine .step (ih (by omega)) (a := .call 1 .takeLockRecursive 5) trivial ?_
    exact nested_step (n + 1) _ (nextAbortlevel_ofNat hn)

/-- After `2 ^ 31` complete calls of `take_lock_recursive`, the abort level is 0 while the count
is `2 ^ 31`, and `sch_abort` ends the owner of the lock. -/
theorem exists_not_accounted : ∃ s, (lockCalls {5} fun _ => 0).Reachable s ∧
    (∀ t, (s.thread t).phase = .outside) ∧ (s.lock 5).lockval = 1 ∧
    (s.thread 1).abortlevel.toInt ≠ (0 : Int32).toInt + s.held {5} 1 ∧
    ∃ s', (lockCalls {5} fun _ => 0).step s (.abort 2 1) = some s' ∧
      (s.thread 1).ending = false ∧ (s'.thread 1).ending = true := by
  have hlast : nextAbortlevel false (Int32.ofNat (2147483646 + 1)) = 0 := by decide
  have hreach : (lockCalls {5} fun _ => 0).Reachable
      ((allFree 0).put 5 ⟨1, UInt32.ofNat (2147483646 + 1 + 1), false⟩ 1 0 .outside) :=
    .step (nested_reachable (by norm_num))
      (a := .call 1 .takeLockRecursive 5) trivial (nested_step _ 0 hlast)
  refine ⟨_, hreach, fun t => ?_, rfl, ?_, _, rfl, rfl, rfl⟩
  · by_cases ht : t = 1
    · rw [ht, put_thread_self.2]
    · rw [put_thread_of_ne ht]
      rfl
  · have hheld : ((allFree 0).put 5 ⟨1, UInt32.ofNat (2147483646 + 1 + 1), false⟩ 1 0
        .outside).held {5} 1 = 2147483648 := by
      rw [held, Finset.sum_singleton]
      rfl
    rw [hheld, put_thread_self.1]
    decide

/-! ## A lock that is held -/

/-- The owner and the count of a lock are the same. -/
def Stays (l : Lptr) (s s' : State) : Prop :=
  (s'.lock l).lockval = (s.lock l).lockval ∧ (s'.lock l).count = (s.lock l).count

lemma lock_abortableFor (b : Bool) : (s.abortableFor l b t).lock = s.lock := by
  unfold abortableFor
  split <;> rfl

section

variable {l' : Lptr} (hown : (s.lock l).lockval ≠ 0) (hu : (s.lock l).lockval ≠ u)
include hown hu

/-- A thread writes to a lock that is free or its own. -/
lemma stays_of_lock_eq (hl : (s.lock l').lockval = 0 ∨ (s.lock l').lockval = u)
    (hs : s'.lock = Function.update s.lock l' lk) : Stays l s s' := by
  have hne : l ≠ l' := by
    rintro rfl
    exact hl.elim hown hu
  simp [Stays, hs, hne]

lemma takeLoop_stays {r : State} {exclusive : Bool}
    (hs : (r.takeLoop exclusive l' u).state? = some s') (hr : r.lock = s.lock) : Stays l s s' := by
  unfold takeLoop finishTake at hs
  dsimp only at hs
  split_ifs at hs with hfree <;> cases hs
  · apply stays_of_lock_eq hown hu (.inl (hr ▸ hfree))
    simp [modifyLock, lock_abortableFor, hr]
    rfl
  -- the thread waits, which does not change the owner
  · rw [schSetblock_eq]
    by_cases hl : l = l' <;> simp [Stays, State.put, hr, hl]

lemma tryOnce_stays (hs : (s.tryOnce l' u).state? = some s') : Stays l s s' := by
  unfold tryOnce at hs
  dsimp only at hs
  split_ifs at hs with hfree <;> cases hs
  · apply stays_of_lock_eq hown hu (.inl hfree)
    simp [modifyLock, lock_abortableFor]
    rfl
  · exact ⟨rfl, rfl⟩

lemma perform_stays (c : Call) (hs : (s.perform c l' u).state? = some s') : Stays l s s' := by
  cases c with
  | takeLockExclusive =>
    rw [perform, takeLockExclusive] at hs
    split_ifs at hs
    · exact some.inj hs ▸ ⟨rfl, rfl⟩
    · cases hs
    · cases hs
    · exact takeLoop_stays hown hu hs rfl
  | takeLockRecursive =>
    rw [perform, takeLockRecursive, abortableFor_modifyLock] at hs
    split_ifs at hs with _ hl
    · exact some.inj hs ▸ ⟨rfl, rfl⟩
    · exact some.inj hs ▸ stays_of_lock_eq hown hu (.inr hl.1) (lock_abortableFor _)
    · cases hs
    · exact takeLoop_stays hown hu hs rfl
  | tryTakeLockExclusive =>
    rw [perform, tryTakeLockExclusive] at hs
    split_ifs at hs
    · exact some.inj hs ▸ ⟨rfl, rfl⟩
    · exact some.inj hs ▸ ⟨rfl, rfl⟩
    · exact tryOnce_stays hown hu hs
  | tryTakeLockRecursive =>
    rw [perform, tryTakeLockRecursive] at hs
    split_ifs at hs with _ hl
    · exact some.inj hs ▸ ⟨rfl, rfl⟩
    · exact some.inj hs ▸ stays_of_lock_eq hown hu (.inr hl.1) (lock_abortableFor _)
    · exact tryOnce_stays hown hu hs
  | releaseLock =>
    rw [perform, releaseLock] at hs
    dsimp only at hs
    split_ifs at hs with _ hl <;> cases hs
    · exact ⟨rfl, rfl⟩
    all_goals
      apply stays_of_lock_eq hown hu (.inr (not_not.mp hl))
      simp [modifyLock, modifyThread, lock_abortableFor]
      rfl

lemma resume_stays (hs : (s.resume u).state? = some s') : Stays l s s' := by
  unfold resume at hs
  split at hs
  · exact some.inj hs ▸ ⟨rfl, rfl⟩
  · dsimp only at hs
    split_ifs at hs
    · obtain rfl := some.inj hs
      rename_i l' _ _ _
      by_cases hl : l = l' <;> simp [Stays, modifyLock, hl]
    · exact takeLoop_stays hown hu hs rfl
    · exact takeLoop_stays hown hu hs rfl
  · obtain rfl := some.inj hs
    simp [Stays, lock_abortableFor, modifyThread]

end

lemma step_stays {a : Action} (hown : (s.lock l).lockval ≠ 0)
    (ha : (s.lock l).lockval ≠ a.thread) (hstep : s.step locks a = some s') : Stays l s s' := by
  unfold step at hstep
  cases a with
  | call u c l' =>
    rw [ite_none_right_eq_some] at hstep
    exact perform_stays hown ha c hstep.2
  | resume u =>
    rw [ite_none_right_eq_some] at hstep
    exact resume_stays hown ha hstep.2
  | abort caller u =>
    rw [ite_none_right_eq_some] at hstep
    exact some.inj hstep.2 ▸ ⟨rfl, rfl⟩

/-- A lock stays with the thread that owns it, with its count, as long as that thread takes no
step, whatever the other threads call and whoever is aborted. -/
theorem stays_of_run {as : List Action} (hown : (s.lock l).lockval ≠ 0)
    (has : ∀ a ∈ as, (s.lock l).lockval ≠ a.thread)
    (hrun : (lockCalls locks initial).run s as = some s') : Stays l s s' := by
  induction as generalizing s with
  | nil =>
    cases hrun
    exact ⟨rfl, rfl⟩
  | cons a as ih =>
    obtain ⟨s1, hstep, hrun⟩ := bind_eq_some_iff.mp hrun
    have hstays : Stays l s s1 := step_stays hown (has a (by simp)) hstep
    obtain ⟨hval, hcount⟩ := ih (hstays.1 ▸ hown) (fun b hb => hstays.1 ▸ has b (by simp [hb])) hrun
    exact ⟨hval.trans hstays.1, hcount.trans hstays.2⟩

/-- Thread 1 has lock 5. Thread 2 waits for it, and thread 3 aborts thread 1. -/
theorem stays_aborted : ∃ s, (s.lock 5).waiting = true ∧ Stays 5 (nested 1) s := by
  have hrun : (lockCalls {5} fun _ => 0).run (nested 1)
    [.call 2 .takeLockRecursive 5, .call 3 .tryTakeLockExclusive 5, .abort 3 1] = some _ := rfl
  exact ⟨_, rfl, stays_of_run (by decide) (by decide) hrun⟩

end State

end Locks
