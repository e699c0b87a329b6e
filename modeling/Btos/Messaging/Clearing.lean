import Btos.Locks.Accounting
import Btos.Messaging.HeaderPool

/-!
# Clearing the queue of a process

`msg_clear` holds `msg_lock` while it acknowledges the messages of a process one after the other.
Acknowledging takes the lock again: recursively to take the message out, which works, and
exclusively to send a receipt, which panics. Also, the messages are taken out of the queue that the
index of the loop counts in, so that every second one is skipped.

The functions are those of `Operations`, together with the lock functions they call on `msg_lock`.
The locks of the processes, which are taken and released again inside of the functions that use
them, play no part; nor do the recursive ones of `msg_send` in `msg_send_receipt`.

Main results: `clears_iff` and `exists_not_clears`.
-/

open List

namespace Messaging

open Heap

/-- Why a call has not returned. -/
inductive Stop where
  /-- The rounds of a loop are used up. -/
  | unfinished
  /-- The lock belongs to another thread. -/
  | waits
  | panics (p : Locks.Panic)
  deriving DecidableEq, Repr

/-- The state of messaging and the locks. -/
structure Machine where
  locks : Locks.State
  kernel : Kernel

variable (A : Allocator) (junk : Pid → MsgHeader) (lock : Locks.Lptr) (thread : Locks.ThreadId)

/-! ## The functions -/

/-- How a call of a lock function goes on. -/
def returned : Locks.Outcome → Except Stop Locks.State
  | .done _ locks => .ok locks
  | .waits _ => .error .waits
  | .panics p => .error (.panics p)

/-- The constructor of `hold_lock`, for `msg_lock` and the running thread. -/
def hold (exclusive : Bool) (locks : Locks.State) : Except Stop Locks.State :=
  returned (if exclusive then locks.takeLockExclusive lock thread
    else locks.takeLockRecursive lock thread)

/-- The destructor of `hold_lock`. -/
def unhold (locks : Locks.State) : Except Stop Locks.State :=
  returned (locks.releaseLock lock thread)

/-- `msg_send_receipt`. -/
def msgSendReceiptLocked (omsg : MsgHeader) (m : Machine) : Except Stop Machine :=
  (hold lock thread true m.locks).bind fun locks =>
    (unhold lock thread locks).map fun locks =>
      ⟨locks, m.kernel.msgSendReceipt A junk omsg⟩

/-- `msg_acknowledge`. -/
def msgAcknowledgeLocked (msg : MsgHeader) (m : Machine) : Except Stop Machine :=
  (hold lock thread false m.locks).bind fun locks =>
    (unhold lock thread locks).bind fun locks =>
      let kernel := m.kernel.ackSection msg
      match m.kernel.findMsg msg.id msg.toPid with
      | none => .ok ⟨locks, kernel⟩
      | some c =>
          let header := m.kernel.headers c
          if header.content = 0 then .ok ⟨locks, kernel⟩
          else
            msgSendReceiptLocked A junk lock thread header ⟨locks, kernel.releaseContent header⟩

/-- The loop of `msg_clear` from index `i` on, for at most `n` rounds. -/
def clearLoop (pid : Pid) : ℕ → ℕ → Machine → Except Stop Machine
  | 0, _, _ => .error .unfinished
  | n + 1, i, m =>
      match (m.kernel.queue pid)[i]? with
      | none => .ok m
      | some c =>
          (msgAcknowledgeLocked A junk lock thread (m.kernel.headers c) m).bind
            (clearLoop pid n (i + 1))

/-- `msg_clear`. -/
def msgClearLocked (pid : Pid) (n : ℕ) (m : Machine) : Except Stop Machine :=
  (hold lock thread true m.locks).bind fun locks =>
    (clearLoop A junk lock thread pid n 0 ⟨locks, m.kernel⟩).bind fun m =>
      (unhold lock thread m.locks).map fun locks =>
        ⟨locks, { m.kernel with subscribers := m.kernel.subscribers.erase pid }⟩

/-- `msg_clear` returns, and the process has no messages and no subscriptions then. -/
def Clears (pid : Pid) (m : Machine) : Prop :=
  ∃ n m', msgClearLocked A junk lock thread pid n m = .ok m' ∧
    m'.kernel.queue pid = [] ∧ m'.kernel.subscribers.lookup pid = none

/-! ## The lock -/

/-- The lock is free, and the thread that calls may take it. -/
structure Free (locks : Locks.State) : Prop where
  active : locks.active = true
  ne_schLock : lock ≠ locks.schLock
  thread_ne : thread ≠ 0
  lockval : (locks.lock lock).lockval = 0
  count : (locks.lock lock).count = 0

/-- The thread holds the lock `n` times, and nobody waits for it. -/
structure Held (n : UInt32) (locks : Locks.State) : Prop where
  active : locks.active = true
  ne_schLock : lock ≠ locks.schLock
  thread_ne : thread ≠ 0
  lock_eq : locks.lock lock = ⟨thread, n, false⟩

variable {lock thread} {locks : Locks.State} {n : UInt32}

lemma Held.own (h : Held lock thread n locks) :
    (locks.lock lock).lockval = thread ∧ thread ≠ 0 :=
  ⟨by rw [h.lock_eq], h.thread_ne⟩

lemma Held.of_put (hactive : locks.active = true) (hne : lock ≠ locks.schLock)
    (hthread : thread ≠ 0) (level : Int32) (phase : Locks.Phase) :
    Held lock thread n (locks.put lock ⟨thread, n, false⟩ thread level phase) :=
  ⟨hactive, hne, hthread, Function.update_self _ _ _⟩

lemma Free.exists_hold (h : Free lock thread locks) :
    ∃ locks', hold lock thread true locks = .ok locks' ∧ Held lock thread 1 locks' := by
  have hnot : ¬ ((locks.lock lock).lockval = thread ∧ thread ≠ 0) := by
    rw [h.lockval]
    exact fun hown => hown.2 hown.1.symm
  refine ⟨_, ?_, Held.of_put h.active h.ne_schLock h.thread_ne
    (Locks.State.nextAbortlevel false (locks.thread thread).abortlevel) (locks.thread thread).phase⟩
  rw [hold, if_pos rfl, Locks.State.takeLockExclusive, h.active, if_neg (by decide), if_neg hnot,
    if_neg h.thread_ne, Locks.State.takeLoop, if_pos h.lockval,
    Locks.State.finishTake_eq true h.ne_schLock h.count, if_neg h.thread_ne]
  rfl

lemma Held.hold_true (h : Held lock thread n locks) :
    hold lock thread true locks = .error (.panics .alreadyHeld) := by
  rw [hold, if_pos rfl, Locks.State.takeLockExclusive, h.active, if_neg (by decide), if_pos h.own]
  rfl

lemma Held.exists_hold_false (h : Held lock thread n locks) :
    ∃ locks', hold lock thread false locks = .ok locks' ∧ Held lock thread (n + 1) locks' := by
  refine ⟨_, ?_, Held.of_put h.active h.ne_schLock h.thread_ne
    (Locks.State.nextAbortlevel false (locks.thread thread).abortlevel) (locks.thread thread).phase⟩
  rw [hold, if_neg (by decide), Locks.State.takeLockRecursive, h.active, if_neg (by decide),
    if_pos h.own, Locks.State.abortableFor_modifyLock,
    Locks.State.modifyLock_abortableFor _ _ _ h.ne_schLock, h.lock_eq]
  rfl

lemma Held.exists_unhold (h : Held lock thread n locks) (hn : n ≠ 0) :
    ∃ locks', unhold lock thread locks = .ok locks' ∧
      (n - 1 ≠ 0 → Held lock thread (n - 1) locks') := by
  have hcount : (locks.lock lock).count ≠ 0 := by rwa [h.lock_eq]
  set lk : Locks.Lock := ⟨if n - 1 = 0 then 0 else thread, n - 1, false⟩ with hlk
  have hentry : lk = ⟨if (locks.lock lock).count - 1 = 0 then 0 else thread,
      (locks.lock lock).count - 1, (locks.lock lock).waiting⟩ := by
    rw [h.lock_eq]
  refine ⟨locks.put lock lk thread
    (Locks.State.nextAbortlevel true (locks.thread thread).abortlevel)
    (locks.thread thread).phase, ?_, fun hlast => ?_⟩
  · rw [unhold, Locks.State.releaseLock_eq h.ne_schLock h.active h.own.1 hcount hentry,
      if_neg (by simp [hlk])]
    rfl
  · rw [hlk, if_neg hlast]
    exact Held.of_put h.active h.ne_schLock h.thread_ne _ _

lemma Held.exists_section (h : Held lock thread 1 locks) :
    ∃ locks1 locks2, hold lock thread false locks = .ok locks1 ∧
      unhold lock thread locks1 = .ok locks2 ∧ Held lock thread 1 locks2 := by
  obtain ⟨locks1, hhold, h1⟩ := h.exists_hold_false
  obtain ⟨locks2, hunhold, h2⟩ := h1.exists_unhold (by decide)
  exact ⟨locks1, locks2, hhold, hunhold, h2 (by decide)⟩

/-! ## Acknowledging while the lock is held -/

variable {A junk} {m m' : Machine} {msg : MsgHeader} {c : Ptr} {pid : Pid} {k : Kernel}

lemma msgAcknowledgeLocked_of_content (h : Held lock thread 1 m.locks)
    (hfind : m.kernel.findMsg msg.id msg.toPid = some c)
    (hcontent : (m.kernel.headers c).content ≠ 0) :
    msgAcknowledgeLocked A junk lock thread msg m = .error (.panics .alreadyHeld) := by
  obtain ⟨locks1, locks2, hhold, hunhold, h2⟩ := h.exists_section
  unfold msgAcknowledgeLocked msgSendReceiptLocked
  simp only [hhold, hunhold, hfind, Except.bind, if_neg hcontent, h2.hold_true]

variable (A junk) in
lemma exists_msgAcknowledgeLocked (h : Held lock thread 1 m.locks)
    (hfind : m.kernel.findMsg msg.id msg.toPid = some c)
    (hcontent : (m.kernel.headers c).content = 0) :
    ∃ locks, msgAcknowledgeLocked A junk lock thread msg m = .ok ⟨locks, m.kernel.dequeue c⟩ ∧
      Held lock thread 1 locks := by
  obtain ⟨locks1, locks2, hhold, hunhold, h2⟩ := h.exists_section
  refine ⟨locks2, ?_, h2⟩
  unfold msgAcknowledgeLocked
  simp only [hhold, hunhold, hfind, Except.bind, if_pos hcontent, Kernel.ackSection]

/-! ## The queue -/

lemma trimPool_rest (n : ℕ) (k : Kernel) : (k.trimPool n).procs = k.procs ∧
    (k.trimPool n).headers = k.headers ∧ (k.trimPool n).subscribers = k.subscribers := by
  induction n generalizing k with
  | zero => exact ⟨rfl, rfl, rfl⟩
  | succ n ih =>
    rw [Kernel.trimPool]
    split
    · exact ⟨rfl, rfl, rfl⟩
    · exact ih _

lemma releaseMsgHeader_rest (k : Kernel) (c : Ptr) : (k.releaseMsgHeader c).procs = k.procs ∧
    (k.releaseMsgHeader c).headers = k.headers ∧
    (k.releaseMsgHeader c).subscribers = k.subscribers := by
  rw [Kernel.releaseMsgHeader]
  split
  · exact trimPool_rest _ _
  · exact ⟨rfl, rfl, rfl⟩

lemma dequeue_headers (k : Kernel) (c : Ptr) : (k.dequeue c).headers = k.headers :=
  (releaseMsgHeader_rest _ c).2.1

lemma queue_dequeue (hc : (k.headers c).toPid = pid) :
    (k.dequeue c).queue pid = (k.queue pid).erase c := by
  have hprocs : (k.dequeue c).procs = (k.procRemoveMsg c).procs := (releaseMsgHeader_rest _ c).1
  have hqueue := Kernel.queue_procRemoveMsg (s := k) c pid
  rw [if_pos hc.symm] at hqueue
  rw [← hqueue, Kernel.queue, Kernel.queue, hprocs]

lemma Kernel.AddressedTo.dequeue (h : k.AddressedTo pid) (hc : c ∈ k.queue pid) :
    (k.dequeue c).AddressedTo pid := by
  intro b hb
  rw [queue_dequeue (h c hc)] at hb
  rw [dequeue_headers]
  exact h b (mem_of_mem_erase hb)

lemma Kernel.AddressedTo.exists_findMsg (h : k.AddressedTo pid) (hc : c ∈ k.queue pid) :
    ∃ b ∈ k.queue pid, k.findMsg (k.headers c).id (k.headers c).toPid = some b := by
  rw [h c hc, Kernel.findMsg]
  have hsome : ((k.queue pid).find? fun b => (k.headers b).id = (k.headers c).id).isSome := by
    rw [find?_isSome]
    exact ⟨c, hc, by simp⟩
  obtain ⟨b, hb⟩ := Option.isSome_iff_exists.mp hsome
  exact ⟨b, mem_of_find?_eq_some hb, hb⟩

/-- A round of the loop that does not panic takes one message out of the queue. -/
lemma clearLoop_step {n i : ℕ} (h : Held lock thread 1 m.locks)
    (haddr : m.kernel.AddressedTo pid) (hc : (m.kernel.queue pid)[i]? = some c)
    (hloop : clearLoop A junk lock thread pid (n + 1) i m = .ok m') :
    ∃ b ∈ m.kernel.queue pid, ∃ locks,
      m.kernel.findMsg (m.kernel.headers c).id (m.kernel.headers c).toPid = some b ∧
      (m.kernel.headers b).content = 0 ∧ Held lock thread 1 locks ∧
      clearLoop A junk lock thread pid n (i + 1) ⟨locks, m.kernel.dequeue b⟩ = .ok m' := by
  obtain ⟨b, hb, hfind⟩ := haddr.exists_findMsg (mem_of_getElem? hc)
  rw [clearLoop, hc] at hloop
  dsimp only at hloop
  by_cases hcontent : (m.kernel.headers b).content = 0
  · obtain ⟨locks, hack, hheld⟩ := exists_msgAcknowledgeLocked A junk h hfind hcontent
    rw [hack] at hloop
    exact ⟨b, hb, locks, hfind, hcontent, hheld, hloop⟩
  · rw [msgAcknowledgeLocked_of_content h hfind hcontent] at hloop
    cases hloop

/-- From the second round on the loop is ahead of the messages, and does not take the last one. -/
lemma clearLoop_queue_ne_nil {n i : ℕ} (h : Held lock thread 1 m.locks)
    (haddr : m.kernel.AddressedTo pid) (hi : 1 ≤ i) (hqueue : m.kernel.queue pid ≠ [])
    (hloop : clearLoop A junk lock thread pid n i m = .ok m') : m'.kernel.queue pid ≠ [] := by
  induction n generalizing i m with
  | zero => cases hloop
  | succ n ih =>
    cases hc : (m.kernel.queue pid)[i]? with
    | none =>
      rw [clearLoop, hc] at hloop
      cases hloop
      exact hqueue
    | some c =>
      obtain ⟨b, hb, locks, -, -, hheld, hrest⟩ := clearLoop_step h haddr hc hloop
      refine ih hheld (haddr.dequeue hb) (Nat.le_succ_of_le hi) ?_ hrest
      have hlt : i < (m.kernel.queue pid).length := (List.getElem?_eq_some_iff.mp hc).1
      have hlength := length_erase_of_mem hb
      rw [queue_dequeue (haddr b hb), ← length_pos_iff, hlength]
      omega

lemma findMsg_head {q : List Ptr} (haddr : k.AddressedTo pid) (hq : k.queue pid = c :: q) :
    k.findMsg (k.headers c).id (k.headers c).toPid = some c := by
  rw [haddr c (hq ▸ mem_cons_self), Kernel.findMsg, hq]
  simp

/-- `msg_clear` that returns has gone through its loop. -/
lemma exists_clearLoop {n : ℕ} (h : Free lock thread m.locks)
    (hclear : msgClearLocked A junk lock thread pid n m = .ok m') :
    ∃ locks m1, Held lock thread 1 locks ∧
      clearLoop A junk lock thread pid n 0 ⟨locks, m.kernel⟩ = .ok m1 ∧
      m'.kernel = { m1.kernel with subscribers := m1.kernel.subscribers.erase pid } := by
  obtain ⟨locks, hhold, hheld⟩ := h.exists_hold
  rw [msgClearLocked, hhold] at hclear
  refine ⟨locks, ?_⟩
  cases hloop : clearLoop A junk lock thread pid n 0 ⟨locks, m.kernel⟩ with
  | error e =>
    simp only [Except.bind, hloop] at hclear
    cases hclear
  | ok m1 =>
    refine ⟨m1, hheld, rfl, ?_⟩
    simp only [Except.bind, hloop] at hclear
    cases hunhold : unhold lock thread m1.locks with
    | error e =>
      rw [hunhold] at hclear
      cases hclear
    | ok locks1 =>
      rw [hunhold] at hclear
      cases hclear
      rfl

/-! ## What is cleared -/

/-- A queue that is cleared was empty, or had one message without content. -/
lemma Clears.queue_eq (hclears : Clears A junk lock thread pid m)
    (h : Free lock thread m.locks) (haddr : m.kernel.AddressedTo pid) :
    m.kernel.queue pid = [] ∨ ∃ c, m.kernel.queue pid = [c] ∧ (m.kernel.headers c).content = 0 := by
  obtain ⟨n, m', hclear, hempty, -⟩ := hclears
  obtain ⟨locks, m1, hheld, hloop, hkernel⟩ := exists_clearLoop h hclear
  have hempty1 : m1.kernel.queue pid = [] := by
    rw [hkernel] at hempty
    exact hempty
  cases hq : m.kernel.queue pid with
  | nil => exact .inl rfl
  | cons c q =>
    cases n with
    | zero => cases hloop
    | succ n =>
      have hc : (m.kernel.queue pid)[0]? = some c := by rw [hq]; rfl
      obtain ⟨b, hb, locks1, hfind, hcontent, hheld1, hrest⟩ :=
        clearLoop_step (m := ⟨locks, m.kernel⟩) hheld haddr hc hloop
      -- The first message is the one that is found.
      obtain rfl : c = b := Option.some.inj ((findMsg_head haddr hq).symm.trans hfind)
      refine .inr ⟨c, ?_, hcontent⟩
      by_contra hne
      refine clearLoop_queue_ne_nil hheld1 (haddr.dequeue hb) (le_refl 1) ?_ hrest hempty1
      have hqueue : (m.kernel.dequeue c).queue pid = q := by
        rw [queue_dequeue (haddr c hb), hq, erase_cons_head]
      rw [hqueue]
      rintro rfl
      exact hne rfl

variable (A junk) in
/-- The loop over a queue with at most one message, which has no content. -/
lemma exists_clearLoop_eq (h : Held lock thread 1 m.locks) (haddr : m.kernel.AddressedTo pid)
    (hqueue : m.kernel.queue pid = [] ∨
      ∃ c, m.kernel.queue pid = [c] ∧ (m.kernel.headers c).content = 0) :
    ∃ m', clearLoop A junk lock thread pid 2 0 m = .ok m' ∧ m'.kernel.queue pid = [] ∧
      Held lock thread 1 m'.locks := by
  rcases hqueue with hq | ⟨c, hq, hcontent⟩
  · refine ⟨m, ?_, hq, h⟩
    rw [clearLoop, hq]
    rfl
  · obtain ⟨locks, hack, hheld⟩ :=
      exists_msgAcknowledgeLocked A junk h (findMsg_head haddr hq) hcontent
    have hempty : (m.kernel.dequeue c).queue pid = [] := by
      rw [queue_dequeue (haddr c (hq ▸ mem_cons_self)), hq, erase_cons_head]
    refine ⟨⟨locks, m.kernel.dequeue c⟩, ?_, hempty, hheld⟩
    rw [clearLoop, hq]
    show (msgAcknowledgeLocked A junk lock thread (m.kernel.headers c) m).bind _ = _
    rw [hack]
    show clearLoop A junk lock thread pid 1 1 ⟨locks, m.kernel.dequeue c⟩ = _
    rw [clearLoop]
    rw [hempty]
    rfl

/-- **Clearing a queue.** When `msg_lock` is free, `msg_clear` returns with an empty queue and
without subscriptions exactly when the queue was empty, or had one message without content. -/
theorem clears_iff (h : Free lock thread m.locks) (haddr : m.kernel.AddressedTo pid) :
    Clears A junk lock thread pid m ↔ m.kernel.queue pid = [] ∨
      ∃ c, m.kernel.queue pid = [c] ∧ (m.kernel.headers c).content = 0 := by
  refine ⟨fun hclears => hclears.queue_eq h haddr, fun hqueue => ?_⟩
  obtain ⟨locks, hhold, hheld⟩ := h.exists_hold
  obtain ⟨m₁, hloop, hempty, hheld₁⟩ :=
    exists_clearLoop_eq A junk (m := ⟨locks, m.kernel⟩) hheld haddr hqueue
  obtain ⟨locks₁, hunhold, -⟩ := hheld₁.exists_unhold (by decide)
  refine ⟨2, ⟨locks₁, { m₁.kernel with subscribers := m₁.kernel.subscribers.erase pid }⟩, ?_,
    hempty, OrderedMap.lookup_erase_self _ _⟩
  rw [msgClearLocked, hhold]
  simp only [Except.bind, hloop, hunhold]
  rfl

/-! ## One message -/

/-- Process 1 has one message from process 2, with the given content. -/
def oneMessage (content : Ptr) : Machine where
  locks := Locks.State.allFree 0
  kernel :=
    { procs := fun pid => if pid = 1 then some ⟨0, .running, OrderedMap.empty, [64]⟩ else none
      currentPid := 1
      headers := fun _ =>
        { (default : MsgHeader) with toPid := 1, fromPid := 2, content := content }
      headerPool := []
      subscribers := OrderedMap.empty
      idCounter := 1
      heap := []
      debuggerPid := 0
      debugExtId := 0
      sent := []
      acked := [] }

lemma oneMessage_free (content : Ptr) : Free 5 1 (oneMessage content).locks :=
  ⟨rfl, (by decide : (5 : Locks.Lptr) ≠ 0), by decide, rfl, rfl⟩

lemma oneMessage_addressed (content : Ptr) : (oneMessage content).kernel.AddressedTo 1 :=
  fun _ _ => rfl

theorem clears_oneMessage : Clears Allocator.bump (fun _ => default) 5 1 1 (oneMessage 0) :=
  (clears_iff (oneMessage_free 0) (oneMessage_addressed 0)).mpr (.inr ⟨64, rfl, rfl⟩)

/-- A message with a content: the receipt for it cannot be sent while the lock is held. -/
theorem exists_not_clears : ∃ m, Free 5 1 m.locks ∧ m.kernel.AddressedTo 1 ∧
    (m.kernel.queue 1).length = 1 ∧ ∀ A junk, ¬ Clears A junk 5 1 1 m := by
  refine ⟨oneMessage 128, oneMessage_free 128, oneMessage_addressed 128, rfl, fun A junk h => ?_⟩
  rcases h.queue_eq (oneMessage_free 128) (oneMessage_addressed 128) with hnil | ⟨c, -, hcontent⟩
  · cases hnil
  · exact absurd hcontent (by decide : ¬ (128 : Ptr) = 0)

end Messaging
