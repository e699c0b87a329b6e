import Btos.Messaging.Runs

/-!
# Receiving with a filter

`msg_recv_filtered` and the test that wakes a thread waiting in it are two scans over the queue
of a process. The first is made by the process itself, under `msg_lock`, and compares the
destination of the messages; the second is made by the scheduler, by pid, and only while nobody
has the lock.

* `Receivers` is a kernel with threads that are anywhere in `msg_recv_filtered`. Whatever the
  other code does with messages is one action, `other`, which may leave any kernel in which the
  queues are `Addressed`: a message is in the queue of the process that it was sent to.
* `served_of_reachable`: in every reachable state the receive loop finds the earliest accepted
  message, and a thread that waits is woken up exactly when there is one.
-/

open Option

namespace Messaging

open Heap

namespace Kernel

variable {s : Kernel} {filter : Filter} {pid : Pid} {h : MsgHeader}

/-! ## Filters -/

/-- The conditions that the flags of a filter select. -/
structure Filter.Selects (filter : Filter) (msg : MsgHeader) : Prop where
  nonReply : filter.flags &&& (1#32 <<< 4) ≠ 0 → msg.isReply = false
  sender : filter.flags &&& (1#32 <<< 0) ≠ 0 → msg.fromPid = filter.pid
  reply : filter.flags &&& (1#32 <<< 1) ≠ 0 → msg.replyId = filter.replyTo
  type : filter.flags &&& (1#32 <<< 2) ≠ 0 → msg.type = filter.type
  source : filter.flags &&& (1#32 <<< 3) ≠ 0 → msg.source.setWidth 32 = filter.source

/-- `bt_msg_filter_flags::Invert` is set. -/
def Filter.Inverted (filter : Filter) : Prop := filter.flags &&& (1#32 <<< 31) ≠ 0

/-- The messages that a filter lets through: the critical ones, and those that meet its
conditions, or that do not if it is inverted. -/
def Filter.Accepts (filter : Filter) (msg : MsgHeader) : Prop :=
  msg.critical = true ∨ (filter.Inverted ↔ ¬ filter.Selects msg)

lemma msgIsMatch_iff (msg : MsgHeader) (filter : Filter) :
    msgIsMatch msg filter = true ↔ filter.Accepts msg := by
  have hselects : filter.Selects msg ↔ (!(filter.flags &&& (1#32 <<< 4) ≠ 0 && msg.isReply) &&
      !(filter.flags &&& (1#32 <<< 0) ≠ 0 && msg.fromPid ≠ filter.pid) &&
      !(filter.flags &&& (1#32 <<< 1) ≠ 0 && msg.replyId ≠ filter.replyTo) &&
      !(filter.flags &&& (1#32 <<< 2) ≠ 0 && msg.type ≠ filter.type) &&
      !(filter.flags &&& (1#32 <<< 3) ≠ 0 && msg.source.setWidth 32 ≠ filter.source)) = true := by
    constructor
    · rintro ⟨h1, h2, h3, h4, h5⟩
      simp only [Bool.and_eq_true, Bool.not_eq_true', Bool.and_eq_false_imp, decide_eq_true_eq,
        decide_eq_false_iff_not, not_not]
      exact ⟨⟨⟨⟨h1, h2⟩, h3⟩, h4⟩, h5⟩
    · intro hall
      simp only [Bool.and_eq_true, Bool.not_eq_true', Bool.and_eq_false_imp, decide_eq_true_eq,
        decide_eq_false_iff_not, not_not] at hall
      obtain ⟨⟨⟨⟨h1, h2⟩, h3⟩, h4⟩, h5⟩ := hall
      exact ⟨h1, h2, h3, h4, h5⟩
  rw [msgIsMatch, Bool.or_eq_true, Filter.Accepts, hselects, Filter.Inverted]
  refine or_congr Iff.rfl ?_
  split
  · rename_i hinv
    rw [Bool.not_eq_true', Bool.not_eq_true]
    exact ⟨fun hn => ⟨fun _ => hn, fun _ => hinv⟩, fun hiff => hiff.mp hinv⟩
  · rename_i hinv
    rw [Bool.not_eq_true, ← Bool.not_eq_true]
    tauto

/-! ## The two scans -/

/-- `msg_filter_blockcheck`; `owner` is `get_lock_owner(msg_lock)`. -/
def msgFilterBlockcheck (s : Kernel) (owner : ℕ) (pid : Pid) (filter : Filter) : Bool :=
  if owner ≠ 0 then false else (s.queue pid).any fun c => msgIsMatch (s.headers c) filter

/-- Every message is in the queue of the process that it was sent to. -/
def Addressed (s : Kernel) : Prop := ∀ q, s.AddressedTo q

/-- The calls of `Runs` keep it: it is a part of the invariant of the headers. -/
lemma addressed_of_reaches {A : Allocator} {ok : MsgHeader → ℕ → Prop} {dying : Kernel → Pid → Prop}
    {guard : Kernel → Action → Prop} (hguard : ∀ s a, guard s a → Allowed ok dying s a)
    (hdying : ∀ s pid q, dying s pid → dying { s with currentPid := q } pid)
    (hs : (messaging A).Reaches guard s) : s.Addressed :=
  (reaches_invariant hguard hdying (fun _ _ => trivial) (fun _ _ _ _ _ => trivial) hs).1.queue_to

/-- The message is the first one in the queue of the process that the filter accepts. -/
def Earliest (s : Kernel) (pid : Pid) (filter : Filter) (h : MsgHeader) : Prop :=
  ∃ front c back, s.queue pid = front ++ c :: back ∧ s.headers c = h ∧ filter.Accepts h ∧
    ∀ b ∈ front, ¬ filter.Accepts (s.headers b)

/-- The queue of the process has a message that the filter accepts. -/
def HasAccepted (s : Kernel) (pid : Pid) (filter : Filter) : Prop :=
  ∃ c ∈ s.queue pid, filter.Accepts (s.headers c)

lemma Earliest.hasAccepted (he : s.Earliest pid filter h) : s.HasAccepted pid filter := by
  obtain ⟨front, c, back, hqueue, rfl, hacc, -⟩ := he
  exact ⟨c, by rw [hqueue]; simp, hacc⟩

lemma msgRecvFiltered_eq (hs : s.Addressed) (pid : Pid) (filter : Filter) :
    ({ s with currentPid := pid }).msgRecvFiltered filter pid =
      ((s.queue pid).find? fun c => msgIsMatch (s.headers c) filter).map s.headers := by
  have hscan : (s.queue pid).find?
        (fun c => (s.headers c).toPid = pid && msgIsMatch (s.headers c) filter) =
      (s.queue pid).find? fun c => msgIsMatch (s.headers c) filter := by
    refine List.find?_congr fun c hc => ?_
    rw [hs pid c hc, decide_eq_true rfl, Bool.true_and]
  exact congrArg (Option.map s.headers) hscan

lemma msgRecvFiltered_eq_some_iff (hs : s.Addressed) :
    ({ s with currentPid := pid }).msgRecvFiltered filter pid = some h ↔
      s.Earliest pid filter h := by
  rw [msgRecvFiltered_eq hs, map_eq_some_iff]
  constructor
  · rintro ⟨c, hfind, rfl⟩
    rw [List.find?_eq_some_iff_append] at hfind
    obtain ⟨hmatch, front, back, hqueue, hfront⟩ := hfind
    refine ⟨front, c, back, hqueue, rfl, (msgIsMatch_iff _ _).mp hmatch, fun b hb hacc => ?_⟩
    have hno := hfront b hb
    rw [(msgIsMatch_iff _ _).mpr hacc] at hno
    cases hno
  · rintro ⟨front, c, back, hqueue, rfl, hacc, hfront⟩
    refine ⟨c, List.find?_eq_some_iff_append.mpr ?_, rfl⟩
    refine ⟨(msgIsMatch_iff _ _).mpr hacc, front, back, hqueue, fun b hb => ?_⟩
    rw [Bool.not_eq_true', ← Bool.not_eq_true, msgIsMatch_iff]
    exact hfront b hb

lemma msgRecvFiltered_isSome_iff (hs : s.Addressed) :
    (({ s with currentPid := pid }).msgRecvFiltered filter pid).isSome ↔
      s.HasAccepted pid filter := by
  rw [msgRecvFiltered_eq hs, isSome_map, List.find?_isSome, HasAccepted]
  simp only [msgIsMatch_iff]

lemma msgFilterBlockcheck_iff (s : Kernel) (pid : Pid) (filter : Filter) :
    s.msgFilterBlockcheck 0 pid filter = true ↔ s.HasAccepted pid filter := by
  rw [msgFilterBlockcheck, if_neg (by simp), List.any_eq_true, HasAccepted]
  simp only [msgIsMatch_iff]

end Kernel

/-! ## Threads that receive -/

/-- Where a thread is in `msg_recv_filtered`. -/
inductive RecvPhase where
  /-- It has not called the function. -/
  | outside
  /-- It has `msg_lock` and is about to go through the queue. -/
  | scanning (filter : Kernel.Filter)
  /-- It is in `sch_setblock`, with `msg_filter_blockcheck` as the test. -/
  | blocked (filter : Kernel.Filter)
  /-- The scheduler has found the test true; the thread takes the lock next. -/
  | runnable (filter : Kernel.Filter)
  /-- The function has returned. -/
  | returned (filter : Kernel.Filter) (msg : MsgHeader)
  deriving DecidableEq, Repr

/-- A kernel with threads that receive messages. -/
structure Receivers where
  kernel : Kernel
  addressed : kernel.Addressed
  /-- `get_lock_owner(msg_lock)`: a thread, or 0. -/
  msgLock : ℕ
  /-- The process of a thread. -/
  pidOf : ℕ → Pid
  phase : ℕ → RecvPhase

/-- What can happen around `msg_recv_filtered`. -/
inductive RecvAction where
  /-- A thread calls the function and takes the lock. -/
  | call (t : ℕ) (filter : Kernel.Filter)
  /-- A thread goes through the queue: it returns what it finds, or it waits. -/
  | scan (t : ℕ)
  /-- The scheduler tests a thread that waits. -/
  | schedule (t : ℕ)
  /-- A thread that waited takes the lock again. -/
  | resume (t : ℕ)
  /-- A thread takes the lock for something else. -/
  | take (t : ℕ)
  /-- A thread that has the lock for something else releases it. -/
  | release (t : ℕ)
  /-- Other code sends, acknowledges and so on, and leaves this kernel. -/
  | other (s : Kernel) (hs : s.Addressed)

namespace Receivers

variable {st st' : Receivers} {t : ℕ} {filter : Kernel.Filter} {h : MsgHeader}

/-- The phase of one thread changes, and with it the owner of the lock. -/
def set (st : Receivers) (t : ℕ) (x : RecvPhase) (owner : ℕ) : Receivers :=
  { st with phase := Function.update st.phase t x, msgLock := owner }

/-- What the loop of `msg_recv_filtered` finds when thread `t` runs it; the `pid` is that of the
running process. -/
def found (st : Receivers) (t : ℕ) (filter : Kernel.Filter) : Option MsgHeader :=
  ({ st.kernel with currentPid := st.pidOf t }).msgRecvFiltered filter (st.pidOf t)

/-- `msg_filter_blockcheck` of a thread that waits. -/
def blockcheck (st : Receivers) (t : ℕ) (filter : Kernel.Filter) : Bool :=
  st.kernel.msgFilterBlockcheck st.msgLock (st.pidOf t) filter

/-- A thread that is not in the function and can take the lock. -/
def canTake (st : Receivers) (t : ℕ) : Bool :=
  t ≠ 0 && st.phase t = .outside && st.msgLock = 0

/-- One action. -/
def step (st : Receivers) : RecvAction → Option Receivers
  | .call t filter => if st.canTake t then some (st.set t (.scanning filter) t) else none
  | .scan t =>
      match st.phase t with
      | .scanning filter =>
          -- Both ways out of the loop release the lock.
          match st.found t filter with
          | some msg => some (st.set t (.returned filter msg) 0)
          | none => some (st.set t (.blocked filter) 0)
      | _ => none
  | .schedule t =>
      match st.phase t with
      | .blocked filter =>
          if st.blockcheck t filter then some (st.set t (.runnable filter) st.msgLock) else none
      | _ => none
  | .resume t =>
      match st.phase t with
      | .runnable filter =>
          if st.msgLock = 0 then some (st.set t (.scanning filter) t) else none
      | _ => none
  | .take t => if st.canTake t then some { st with msgLock := t } else none
  | .release t =>
      if st.phase t = .outside ∧ st.msgLock = t then some { st with msgLock := 0 } else none
  | .other s hs => some { st with kernel := s, addressed := hs }

/-- The system starts with no thread in the function. -/
def Initial (st : Receivers) : Prop := (∀ t, st.phase t = .outside) ∧ st.msgLock = 0

end Receivers

/-- The system of threads that receive. -/
def receivers : System Receivers RecvAction where
  init := Receivers.Initial
  step := Receivers.step

namespace Receivers

variable {st st' : Receivers} {t : ℕ} {filter : Kernel.Filter} {h : MsgHeader}

/-! ## What the threads find -/

lemma found_eq_some_iff : st.found t filter = some h ↔ st.kernel.Earliest (st.pidOf t) filter h :=
  Kernel.msgRecvFiltered_eq_some_iff st.addressed

lemma found_isSome_iff : (st.found t filter).isSome ↔ st.kernel.HasAccepted (st.pidOf t) filter :=
  Kernel.msgRecvFiltered_isSome_iff st.addressed

lemma blockcheck_iff (hlock : st.msgLock = 0) :
    st.blockcheck t filter = true ↔ st.kernel.HasAccepted (st.pidOf t) filter := by
  rw [blockcheck, hlock]
  exact Kernel.msgFilterBlockcheck_iff _ _ _

@[simp]
lemma phase_set_self (x : RecvPhase) (owner : ℕ) : (st.set t x owner).phase t = x :=
  Function.update_self _ _ _

lemma phase_set_of_ne {t' : ℕ} (x : RecvPhase) (owner : ℕ) (ht : t' ≠ t) :
    (st.set t x owner).phase t' = st.phase t' :=
  Function.update_of_ne ht _ _

lemma step_scan (hphase : st.phase t = .scanning filter) :
    st.step (.scan t) =
      some (st.set t ((st.found t filter).elim (.blocked filter) (.returned filter)) 0) := by
  rw [step, hphase]
  dsimp only
  cases st.found t filter <;> rfl

/-- No message is lost to the threads that wait, and none gets a message that it did not ask
for. -/
structure Served (st : Receivers) : Prop where
  /-- The loop finds the earliest message that the filter accepts, and nothing only if there is
  none. -/
  found_iff : ∀ t filter h, st.found t filter = some h ↔ st.kernel.Earliest (st.pidOf t) filter h
  found_none : ∀ t filter, st.found t filter = none ↔
    ∀ c ∈ st.kernel.queue (st.pidOf t), ¬ filter.Accepts (st.kernel.headers c)
  /-- While nobody has the lock, the test for waking up agrees with the loop. -/
  blockcheck_iff : st.msgLock = 0 → ∀ t filter,
    st.blockcheck t filter = true ↔ (st.found t filter).isSome
  /-- A thread that goes through the queue returns the message found, and waits if there is
  none. -/
  scanning : ∀ t filter, st.phase t = .scanning filter → ∃ st', st.step (.scan t) = some st' ∧
    st'.phase t = (st.found t filter).elim (.blocked filter) (.returned filter)
  /-- A thread that waits is made runnable if there is a message for it, and not before. -/
  blocked : ∀ t filter, st.phase t = .blocked filter → st.msgLock = 0 →
    ((st.step (.schedule t)).isSome ↔ st.kernel.HasAccepted (st.pidOf t) filter)
  /-- It then returns the earliest such message, unless something happens in between. -/
  completes : ∀ t filter h, st.phase t = .blocked filter → st.msgLock = 0 →
    st.kernel.Earliest (st.pidOf t) filter h →
    ∃ st', receivers.run st [.schedule t, .resume t, .scan t] = some st' ∧
      st'.phase t = .returned filter h
  /-- What was returned is accepted by the filter. -/
  returned : ∀ t filter h, st.phase t = .returned filter h → filter.Accepts h

/-- A message that was returned had been returned before, or is what the loop has found. -/
lemma returned_of_step {a : RecvAction} (hstep : st.step a = some st')
    (hphase : st'.phase t = .returned filter h) :
    st.phase t = .returned filter h ∨ st.found t filter = some h := by
  -- Only `scan` sets a thread to `returned`; every other action sets one to another phase.
  have hset : ∀ {t0 x owner}, st' = st.set t0 x owner →
      (t0 = t → x = .returned filter h → st.found t filter = some h) →
      st.phase t = .returned filter h ∨ st.found t filter = some h := by
    rintro t0 x owner rfl hx
    by_cases ht : t = t0
    · subst ht
      rw [phase_set_self] at hphase
      exact .inr (hx rfl hphase)
    · rw [phase_set_of_ne _ _ ht] at hphase
      exact .inl hphase
  cases a with
  | call t0 f =>
    rw [step] at hstep
    split at hstep
    · exact hset (some.inj hstep).symm fun _ hx => nomatch hx
    · cases hstep
  | scan t0 =>
    rw [step] at hstep
    split at hstep
    · split at hstep
      · rename_i f _ msg hmsg
        refine hset (some.inj hstep).symm fun ht hx => ?_
        cases hx
        exact ht ▸ hmsg
      · exact hset (some.inj hstep).symm fun _ hx => nomatch hx
    · cases hstep
  | schedule t0 =>
    rw [step] at hstep
    split at hstep
    · split at hstep
      · exact hset (some.inj hstep).symm fun _ hx => nomatch hx
      · cases hstep
    · cases hstep
  | resume t0 =>
    rw [step] at hstep
    split at hstep
    · split at hstep
      · exact hset (some.inj hstep).symm fun _ hx => nomatch hx
      · cases hstep
    · cases hstep
  | take t0 =>
    rw [step] at hstep
    split at hstep
    · cases hstep
      exact .inl hphase
    · cases hstep
  | release t0 =>
    rw [step] at hstep
    split at hstep
    · cases hstep
      exact .inl hphase
    · cases hstep
  | other s hs =>
    cases hstep
    exact .inl hphase

lemma step_schedule (hphase : st.phase t = .blocked filter) :
    st.step (.schedule t) =
      if st.blockcheck t filter then some (st.set t (.runnable filter) st.msgLock) else none := by
  rw [step, hphase]

/-- Nothing stops a thread that waits for a message that is there. -/
lemma run_completes (hphase : st.phase t = .blocked filter) (hlock : st.msgLock = 0)
    (he : st.kernel.Earliest (st.pidOf t) filter h) :
    ∃ st', receivers.run st [.schedule t, .resume t, .scan t] = some st' ∧
      st'.phase t = .returned filter h := by
  have hwake : st.step (.schedule t) = some (st.set t (.runnable filter) 0) := by
    rw [step_schedule hphase, if_pos ((blockcheck_iff hlock).mpr he.hasAccepted), hlock]
  set st1 := st.set t (.runnable filter) 0 with hst1
  have hresume : st1.step (.resume t) = some (st1.set t (.scanning filter) t) := by
    rw [step, hst1, phase_set_self]
    exact if_pos rfl
  set st2 := st1.set t (.scanning filter) t
  -- The kernel and the process of the thread are the same throughout.
  have hfound : st2.found t filter = some h := found_eq_some_iff.mpr he
  have hscan : st2.step (.scan t) = some (st2.set t (.returned filter h) 0) := by
    rw [step_scan (phase_set_self _ _), hfound]
    rfl
  refine ⟨st2.set t (.returned filter h) 0, ?_, phase_set_self _ _⟩
  rw [System.run_cons]
  show (st.step (.schedule t)).bind _ = _
  rw [hwake, bind_some, System.run_cons]
  show (st1.step (.resume t)).bind _ = _
  rw [hresume, bind_some, System.run_cons]
  show (st2.step (.scan t)).bind _ = _
  rw [hscan, bind_some]
  rfl

/-- In every reachable state the threads that receive are served. -/
theorem served_of_reachable (hs : receivers.Reachable st) : Served st where
  found_iff _ _ _ := found_eq_some_iff
  found_none t filter := by
    rw [← not_isSome_iff_eq_none, found_isSome_iff, Kernel.HasAccepted]
    push Not
    rfl
  blockcheck_iff hlock _ _ := (blockcheck_iff hlock).trans found_isSome_iff.symm
  scanning t filter hphase := ⟨_, step_scan hphase, phase_set_self _ _⟩
  blocked t filter hphase hlock := by
    rw [step_schedule hphase, ← blockcheck_iff hlock]
    cases st.blockcheck t filter <;> simp
  completes _ _ _ := run_completes
  returned := by
    refine hs.invariant (P := fun st => ∀ t filter h, st.phase t = .returned filter h →
      filter.Accepts h) (fun st hinit t filter h hphase => ?_) ?_
    · rw [hinit.1 t] at hphase
      cases hphase
    · intro st a st' ih _ hstep t filter h hphase
      rcases returned_of_step hstep hphase with hold | hfound
      · exact ih t filter h hold
      · obtain ⟨_, _, _, _, _, hacc, _⟩ := found_eq_some_iff.mp hfound
        exact hacc

/-! ## A thread that waits for a message of process 2 -/

/-- Process 1 has two messages: one of process 3, and behind it one of process 2. -/
def twoMessages : Kernel :=
  { Kernel.started 0 .empty with
    procs := fun pid => if pid = 1 then some ⟨0, .running, .empty, [7, 8]⟩ else none
    headers := fun c =>
      { (default : MsgHeader) with toPid := 1, fromPid := if c = 7 then 3 else 2 } }

lemma twoMessages_addressed : twoMessages.Addressed := by
  intro q c hc
  by_cases hq : q = 1
  · exact hq.symm
  · simp [Kernel.queue, twoMessages, hq] at hc

/-- Thread 5, of process 1, is not in the function. -/
def oneThread : Receivers where
  kernel := Kernel.started 0 .empty
  addressed := (Kernel.started_initial 0 .empty).contentInv.queue_to
  msgLock := 0
  pidOf _ := 1
  phase _ := .outside

/-- The filter for messages of process 2. -/
def fromTwo : Kernel.Filter := ⟨1, 2, 0, 0, 0⟩

/-- The thread waits, the messages come, and it returns the one of process 2. -/
theorem served_oneThread : ∃ st, receivers.Reachable st ∧
    st.phase 5 = .returned fromTwo (twoMessages.headers 8) ∧ Served st := by
  have hinit : receivers.init oneThread := ⟨fun _ => rfl, rfl⟩
  have hrun : (receivers.run oneThread [.call 5 fromTwo, .scan 5,
      .other twoMessages twoMessages_addressed, .schedule 5, .resume 5, .scan 5]).any
      (fun st => st.phase 5 = .returned fromTwo (twoMessages.headers 8)) = true := by
    decide
  obtain ⟨st, hst, hphase⟩ := System.exists_reachable_of_run hinit hrun
  exact ⟨st, hst, of_decide_eq_true hphase, served_of_reachable hst⟩

end Receivers

end Messaging
