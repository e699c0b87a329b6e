import Btos.Messaging.Operations

/-!
# Header blocks

Every header block is a live heap block, and it is in the pool or in one queue, once
(`HeaderInv`). The effect of putting a message in a queue and of taking one out is stated once,
as the records `Enqueued` and `Dequeued`, from which the invariants of messaging are derived:

* `msgEnqueue_enqueued`: `msg_send`'s last section appends one new block to the queue of the
  receiver and touches no other message, whatever the pool had to do for it;
* `dequeue_dequeued`: the locked section of `msg_acknowledge` takes exactly that block out.
-/

open Function List

namespace Messaging.Kernel

open Heap

variable {A : Allocator} {s s' : Kernel}

/-- The messages in the queue of process `q` are addressed to it. -/
def AddressedTo (s : Kernel) (q : Pid) : Prop := ∀ c ∈ s.queue q, (s.headers c).toPid = q

/-- Header blocks are live and are held once, by the pool or by the queue of their receiver. -/
structure HeaderInv (s : Kernel) : Prop where
  pool_nodup : s.headerPool.Nodup
  pool_live : ∀ c ∈ s.headerPool, size? s.heap c = some sizeofMsgHeader
  queue_nodup : ∀ q, (s.queue q).Nodup
  queue_live : ∀ q, ∀ c ∈ s.queue q, size? s.heap c = some sizeofMsgHeader
  queue_not_pool : ∀ q, ∀ c ∈ s.queue q, c ∉ s.headerPool
  queue_to : ∀ q, s.AddressedTo q

variable {c : Ptr}

lemma HeaderInv.queue_unique (h : HeaderInv s) {q q' : Pid} (hq : c ∈ s.queue q)
    (hq' : c ∈ s.queue q') : q = q' :=
  (h.queue_to q c hq).symm.trans (h.queue_to q' c hq')

/-- The invariant is about the queues, the pool and the blocks in them only. -/
lemma HeaderInv.congr {t : Kernel} (h : HeaderInv s) (hqueue : ∀ q, t.queue q = s.queue q)
    (hto : ∀ c, (t.headers c).toPid = (s.headers c).toPid) (hpool : t.headerPool = s.headerPool)
    (hlive : ∀ c, (c ∈ s.headerPool ∨ ∃ q, c ∈ s.queue q) →
      size? s.heap c = some sizeofMsgHeader → size? t.heap c = some sizeofMsgHeader) :
    HeaderInv t where
  pool_nodup := hpool ▸ h.pool_nodup
  pool_live c hc := by
    rw [hpool] at hc
    exact hlive c (.inl hc) (h.pool_live c hc)
  queue_nodup q := hqueue q ▸ h.queue_nodup q
  queue_live q c hc := by
    rw [hqueue] at hc
    exact hlive c (.inr ⟨q, hc⟩) (h.queue_live q c hc)
  queue_not_pool q c hc := hpool ▸ h.queue_not_pool q c (hqueue q ▸ hc)
  queue_to q c hc := (hto c).trans (h.queue_to q c (hqueue q ▸ hc))

/-- A block that is not live holds no header. -/
lemma HeaderInv.not_mem (h : HeaderInv s) {p : Ptr} (hp : size? s.heap p = none) :
    p ∉ s.headerPool ∧ ∀ q, p ∉ s.queue q := by
  refine ⟨fun hmem => ?_, fun q hmem => ?_⟩
  · rw [h.pool_live p hmem] at hp
    cases hp
  · rw [h.queue_live q p hmem] at hp
    cases hp

/-! ## Updates of one process -/

/-- Everything about a process but its queue. -/
def rest (s : Kernel) (pid : Pid) : Option Process :=
  (s.procs pid).map fun p => { p with msgQ := [] }

lemma alive_iff_rest {q : Pid} : s.Alive q ↔ (s.rest q).isSome := by
  simp [Alive, rest]

lemma msgBuffer_eq_rest (p q : Pid) :
    s.msgBuffer p q = (s.rest p).bind fun P => P.msgBuffers.lookup q := by
  cases h : s.procs p <;> simp [msgBuffer, rest, h]

lemma queue_of_not_alive {q : Pid} (hq : ¬ s.Alive q) : s.queue q = [] := by
  unfold Alive at hq
  unfold queue
  cases h : s.procs q with
  | none => rfl
  | some p => simp [h] at hq

lemma queue_modifyProc_of_ne {pid q : Pid} {f : Process → Process} (h : q ≠ pid) :
    (s.modifyProc pid f).queue q = s.queue q := by
  simp [queue, modifyProc, h]

lemma rest_modifyProc_msgQ (pid : Pid) (f : Process → List Ptr) (q : Pid) :
    (s.modifyProc pid fun p => { p with msgQ := f p }).rest q = s.rest q := by
  by_cases h : q = pid
  · subst h
    cases hp : s.procs q <;> simp [rest, modifyProc, hp]
  · simp [rest, modifyProc, h]

lemma queue_modifyProc {pid : Pid} {f : Process → Process} (hf : ∀ p, (f p).msgQ = p.msgQ)
    (q : Pid) : (s.modifyProc pid f).queue q = s.queue q := by
  by_cases h : q = pid
  · subst h
    cases hp : s.procs q <;> simp [queue, modifyProc, hp, hf]
  · exact queue_modifyProc_of_ne h

lemma queue_procAddMsg (c : Ptr) (q : Pid) :
    (s.procAddMsg c).queue q =
      if q = (s.headers c).toPid ∧ s.Alive q then s.queue q ++ [c] else s.queue q := by
  unfold procAddMsg
  by_cases h : q = (s.headers c).toPid
  · rw [← h]
    cases hp : s.procs q with
    | none => simp [queue, modifyProc, Alive, hp]
    | some p => simp [queue, modifyProc, Alive, hp]
  · rw [queue_modifyProc_of_ne h, if_neg fun hq => h hq.1]

lemma queue_procRemoveMsg (c : Ptr) (q : Pid) :
    (s.procRemoveMsg c).queue q =
      if q = (s.headers c).toPid then (s.queue q).erase c else s.queue q := by
  unfold procRemoveMsg
  by_cases h : q = (s.headers c).toPid
  · rw [← h, if_pos rfl]
    cases hp : s.procs q <;> simp [queue, modifyProc, hp]
  · rw [queue_modifyProc_of_ne h, if_neg h]

/-! ## The pool grows and shrinks -/

/-- What a growth of the pool is: new blocks behind the old ones. -/
structure Grown (s s' : Kernel) : Prop where
  eq : s' = { s with headerPool := s'.headerPool, heap := s'.heap }
  pool_sub : ∀ p ∈ s'.headerPool, p ∈ s.headerPool ∨ size? s.heap p = none
  pool_nodup : s'.headerPool.Nodup
  pool_live : ∀ p ∈ s'.headerPool, size? s'.heap p = some sizeofMsgHeader
  live : ∀ p n, size? s.heap p = some n → size? s'.heap p = some n
  safe : SafeFrees s.heap → SafeFrees s'.heap

lemma Grown.refl (hn : s.headerPool.Nodup)
    (hl : ∀ c ∈ s.headerPool, size? s.heap c = some sizeofMsgHeader) : Grown s s where
  eq := rfl
  pool_sub _ hp := .inl hp
  pool_nodup := hn
  pool_live := hl
  live _ _ h := h
  safe h := h

/-- The loop that adds blocks to the pool. -/
lemma growPool_grown (n : ℕ) (hn : s.headerPool.Nodup)
    (hl : ∀ c ∈ s.headerPool, size? s.heap c = some sizeofMsgHeader) :
    Grown s (growPool A n s) := by
  induction n generalizing s with
  | zero => exact Grown.refl hn hl
  | succ n ih =>
    rw [growPool]
    set p := A.choose s.heap sizeofMsgHeader
    set s1 : Kernel := { s with
      headerPool := s.headerPool ++ [p]
      heap := A.malloc s.heap sizeofMsgHeader } with hs1
    have hfresh : size? s.heap p = none := A.choose_fresh _ _
    -- blocks of the pool are live, the new one is not yet
    have hpool : ∀ c ∈ s.headerPool, c ≠ p := by
      rintro c hc rfl
      rw [hl p hc] at hfresh
      cases hfresh
    have hn1 : s1.headerPool.Nodup := by
      simp only [hs1, nodup_append, hn, nodup_singleton, true_and]
      intro c hc d hd
      rw [mem_singleton.mp hd]
      exact hpool c hc
    have hl1 : ∀ c ∈ s1.headerPool, size? s1.heap c = some sizeofMsgHeader := by
      intro c hc
      rcases mem_append.mp hc with hc | hc
      · exact size?_malloc_of_live A _ _ (hl c hc)
      · rw [mem_singleton.mp hc]
        exact size?_malloc_self A _ _
    have h := ih hn1 hl1
    refine ⟨?_, ?_, h.pool_nodup, h.pool_live, ?_, ?_⟩
    · rw [h.eq]
    · intro c hc
      rcases h.pool_sub c hc with hc | hc
      · rcases mem_append.mp hc with hc | hc
        · exact .inl hc
        · exact .inr (mem_singleton.mp hc ▸ hfresh)
      · by_cases hcp : c = p
        · exact .inr (hcp ▸ hfresh)
        · exact .inr (by rwa [size?_malloc_of_ne A _ _ hcp] at hc)
    · intro c k hk
      exact h.live c k (size?_malloc_of_live A _ _ hk)
    · intro hs
      exact h.safe hs

lemma length_growPool (n : ℕ) : (growPool A n s).headerPool.length = s.headerPool.length + n := by
  induction n generalizing s with
  | zero => rfl
  | succ n ih =>
    rw [growPool, ih]
    simp only [length_append, length_singleton]
    omega

/-- What `copy_msg_header` leaves: a block that was in the pool or was not live holds the header,
and the pool has lost it. -/
structure Copied (s s' : Kernel) (h : MsgHeader) (c : Ptr) : Prop where
  eq : s' = { s with headerPool := s'.headerPool, heap := s'.heap, headers := s'.headers }
  headers_eq : s'.headers = Function.update s.headers c h
  block_new : c ∈ s.headerPool ∨ size? s.heap c = none
  block_live : size? s'.heap c = some sizeofMsgHeader
  block_not_pool : c ∉ s'.headerPool
  pool_sub : ∀ p ∈ s'.headerPool, p ∈ s.headerPool ∨ size? s.heap p = none
  pool_nodup : s'.headerPool.Nodup
  pool_live : ∀ p ∈ s'.headerPool, size? s'.heap p = some sizeofMsgHeader
  live : ∀ p n, size? s.heap p = some n → size? s'.heap p = some n
  safe : SafeFrees s.heap → SafeFrees s'.heap

lemma copyMsgHeader_copied (h : MsgHeader) (hn : s.headerPool.Nodup)
    (hl : ∀ c ∈ s.headerPool, size? s.heap c = some sizeofMsgHeader) :
    Copied s (copyMsgHeader A s h).2 h (copyMsgHeader A s h).1 := by
  set s1 := if s.headerPool = [] then growPool A poolMin s else s with hs1
  have hg : Grown s s1 := by
    rw [hs1]
    split
    · exact growPool_grown poolMin hn hl
    · exact Grown.refl hn hl
  -- an empty pool is filled first
  have hne : s1.headerPool ≠ [] := by
    rw [hs1]
    split
    · rw [← length_pos_iff, length_growPool]
      exact Nat.lt_of_lt_of_le (by decide) (Nat.le_add_left poolMin _)
    · assumption
  have hdef : copyMsgHeader A s h = (s1.headerPool.getLast hne, { s1 with
        headerPool := s1.headerPool.dropLast
        headers := update s1.headers (s1.headerPool.getLast hne) h }) := by
    simp only [copyMsgHeader, ← hs1, getLast?_eq_some_getLast hne]
  -- the last block is taken, and it is not among the others
  rw [hdef]
  have hsplit := dropLast_append_getLast hne
  have hlast : s1.headerPool.getLast hne ∈ s1.headerPool := getLast_mem hne
  have hdrop : ∀ p ∈ s1.headerPool.dropLast, p ∈ s1.headerPool :=
    fun p hp => dropLast_subset _ hp
  have hnd := hg.pool_nodup
  rw [← hsplit, nodup_append] at hnd
  refine ⟨?_, ?_, hg.pool_sub _ hlast, hg.pool_live _ hlast, ?_, ?_, hnd.1, ?_, hg.live, hg.safe⟩
  · exact congrArg (fun k : Kernel =>
      { k with
        headerPool := s1.headerPool.dropLast
        heap := s1.heap
        headers := update s1.headers (s1.headerPool.getLast hne) h }) hg.eq
  · have hheaders : s1.headers = s.headers := by rw [hg.eq]
    exact congrArg (fun k => update k (s1.headerPool.getLast hne) h) hheaders
  · intro hmem
    exact hnd.2.2 _ hmem _ (mem_singleton_self _) rfl
  · exact fun p hp => hg.pool_sub p (hdrop p hp)
  · exact fun p hp => hg.pool_live p (hdrop p hp)

/-- `s'` is `s` after the message `msg` was numbered, copied into the block `c` and put behind
the queue of its receiver. -/
structure Enqueued (s s' : Kernel) (msg : MsgHeader) (c : Ptr) : Prop where
  queue_eq : ∀ q,
    s'.queue q = if q = msg.toPid ∧ s.Alive q then s.queue q ++ [c] else s.queue q
  header_new : s'.headers c =
    { msg with
      id := (s.idCounter + 1) % 2 ^ 64, valid := true, recieved := false, replied := false }
  header_old : ∀ p, p ≠ c → s'.headers p = s.headers p
  block_new : c ∈ s.headerPool ∨ size? s.heap c = none
  block_not_queue : ∀ q, c ∉ s.queue q
  pool_sub : ∀ p ∈ s'.headerPool, p ∈ s.headerPool ∨ size? s.heap p = none
  live : ∀ p n, size? s.heap p = some n → size? s'.heap p = some n
  rest_eq : ∀ p, s'.rest p = s.rest p
  idCounter_eq : s'.idCounter = (s.idCounter + 1) % 2 ^ 64
  currentPid_eq : s'.currentPid = s.currentPid
  subscribers_eq : s'.subscribers = s.subscribers
  sent_eq : s'.sent = ((s.idCounter + 1) % 2 ^ 64, msg.toPid) :: s.sent
  acked_eq : s'.acked = s.acked
  safe : SafeFrees s.heap → SafeFrees s'.heap
  inv : HeaderInv s'

lemma Copied.not_mem_queue {m : MsgHeader} (hc : Copied s s' m c) (h : HeaderInv s)
    (q : Pid) : c ∉ s.queue q := by
  intro hq
  rcases hc.block_new with hpool | hnone
  · exact h.queue_not_pool q c hq hpool
  · rw [h.queue_live q c hq] at hnone
    cases hnone

/-- The copy of a header is put behind the queue of its receiver. -/
lemma Copied.headerInv {t : Kernel} {m : MsgHeader} (hc : Copied s s' m c) (h : HeaderInv s)
    (hqueue : ∀ q, t.queue q = if q = m.toPid ∧ s.Alive q then s.queue q ++ [c] else s.queue q)
    (hheaders : t.headers = s'.headers) (hpool : t.headerPool = s'.headerPool)
    (hheap : t.heap = s'.heap) : HeaderInv t := by
  -- what is queued was queued before, or is the copy
  have hmem : ∀ q p, p ∈ t.queue q → p ∈ s.queue q ∨ (p = c ∧ q = m.toPid) := by
    intro q p hp
    rw [hqueue] at hp
    split at hp
    · rename_i hq
      rcases mem_append.mp hp with hp | hp
      · exact .inl hp
      · exact .inr ⟨mem_singleton.mp hp, hq.1⟩
    · exact .inl hp
  refine ⟨hpool ▸ hc.pool_nodup, ?_, fun q => ?_, fun q p hp => ?_, fun q p hp => ?_,
    fun q p hp => ?_⟩
  · rw [hpool, hheap]
    exact hc.pool_live
  · rw [hqueue]
    split
    · rw [nodup_append]
      refine ⟨h.queue_nodup q, nodup_singleton c, ?_⟩
      rintro p hp d hd rfl
      exact hc.not_mem_queue h q (mem_singleton.mp hd ▸ hp)
    · exact h.queue_nodup q
  · rw [hheap]
    rcases hmem q p hp with hp | ⟨rfl, -⟩
    · exact hc.live p _ (h.queue_live q p hp)
    · exact hc.block_live
  · rw [hpool]
    rcases hmem q p hp with hp | ⟨rfl, -⟩
    -- a block that has joined the pool was not live, and one in a queue is
    · intro hin
      rcases hc.pool_sub p hin with hin | hnone
      · exact h.queue_not_pool q p hp hin
      · rw [h.queue_live q p hp] at hnone
        cases hnone
    · exact hc.block_not_pool
  · rw [hheaders, hc.headers_eq]
    rcases hmem q p hp with hp | ⟨rfl, rfl⟩
    · have hne : p ≠ c := fun heq => hc.not_mem_queue h q (heq ▸ hp)
      rw [update_of_ne hne]
      exact h.queue_to q p hp
    · rw [update_self]

/-- The last section of `msg_send`. -/
lemma msgEnqueue_enqueued (h : HeaderInv s) (msg : MsgHeader) :
    ∃ c, Enqueued s (msgEnqueue A s msg).2 msg c := by
  set id := (s.idCounter + 1) % 2 ^ 64 with hid
  set m : MsgHeader :=
    { msg with id := id, valid := true, recieved := false, replied := false } with hm
  set s0 : Kernel := { s with idCounter := id } with hs0
  have h0 : HeaderInv s0 := { h with }
  -- the header is numbered, copied into a block, and the block is queued
  obtain ⟨c, s1, hcopy⟩ : ∃ c s1, copyMsgHeader A s0 m = (c, s1) := ⟨_, _, rfl⟩
  have hc : Copied s0 s1 m c := by
    have := copyMsgHeader_copied (A := A) (s := s0) m h.pool_nodup h.pool_live
    rwa [hcopy] at this
  have hdef : (msgEnqueue A s msg).2 =
      { s1.procAddMsg c with sent := (id, msg.toPid) :: s1.sent } := by
    simp only [msgEnqueue, ← hid, ← hm, ← hs0, hcopy]
  have hnew : s1.headers c = m := by rw [hc.headers_eq, update_self]
  have hold : ∀ p, p ≠ c → s1.headers p = s.headers p := by
    intro p hp
    rw [hc.headers_eq, update_of_ne hp]
  have hprocs : s1.procs = s.procs := by rw [hc.eq]
  have hqueue1 : ∀ q, s1.queue q = s.queue q := fun q => by simp only [queue, hprocs]
  have halive : ∀ q, s1.Alive q ↔ s.Alive q := fun q => by simp only [Alive, hprocs]
  have hqueue : ∀ q, (msgEnqueue A s msg).2.queue q =
      if q = msg.toPid ∧ s.Alive q then s.queue q ++ [c] else s.queue q := by
    intro q
    rw [hdef]
    have := queue_procAddMsg (s := s1) c q
    simp only [hnew, hqueue1, halive] at this
    exact this
  have hrest : ∀ p, (msgEnqueue A s msg).2.rest p = s.rest p := by
    intro p
    rw [hdef]
    have := rest_modifyProc_msgQ (s := s1) (s1.headers c).toPid (fun p => p.msgQ ++ [c]) p
    simp only [rest, procAddMsg, hprocs] at this ⊢
    exact this
  refine ⟨c, hqueue, ?_, ?_, hc.block_new, hc.not_mem_queue h0, ?_, ?_, hrest, ?_, ?_, ?_, ?_, ?_,
    ?_, hc.headerInv h0 hqueue ?_ ?_ ?_⟩
  · rw [hdef]; exact hnew
  · rw [hdef]; exact hold
  · rw [hdef]; exact hc.pool_sub
  · rw [hdef]; exact hc.live
  · rw [hdef, hc.eq]; rfl
  · rw [hdef, hc.eq]; rfl
  · rw [hdef, hc.eq]; rfl
  · rw [hdef, hc.eq]
  · rw [hdef, hc.eq]; rfl
  · rw [hdef]; exact hc.safe
  all_goals rw [hdef]; rfl

/-! ## Taking a message out of a queue -/

/-- What a release of header blocks leaves: blocks of the pool may have been freed, the block
`c` may have joined it. -/
structure Released (s s' : Kernel) (c : Ptr) : Prop where
  eq : s' = { s with headerPool := s'.headerPool, heap := s'.heap }
  pool_sub : ∀ p ∈ s'.headerPool, p ∈ s.headerPool ∨ p = c
  pool_nodup : s'.headerPool.Nodup
  pool_live : ∀ p ∈ s'.headerPool, size? s'.heap p = some sizeofMsgHeader
  size_other : ∀ p, p ≠ c → p ∉ s.headerPool → size? s'.heap p = size? s.heap p
  safe : SafeFrees s.heap → SafeFrees s'.heap

section

variable (hn : s.headerPool.Nodup)
  (hl : ∀ p ∈ s.headerPool, size? s.heap p = some sizeofMsgHeader)

include hn hl

/-- The loop that frees blocks of the pool from its end. -/
lemma trimPool_released (n : ℕ) (c : Ptr) : Released s (trimPool n s) c := by
  induction n generalizing s with
  | zero => exact ⟨rfl, fun _ hp => .inl hp, hn, hl, fun _ _ _ => rfl, id⟩
  | succ n ih =>
    rw [trimPool]
    -- the last block of the pool is freed, as long as there is one
    rcases eq_nil_or_concat s.headerPool with hnil | ⟨pool, p, hpool⟩
    · simp only [hnil, getLast?_nil]
      exact ⟨rfl, fun _ hp => .inl hp, hn, hl, fun _ _ _ => rfl, id⟩
    · simp only [hpool, concat_eq_append, getLast?_concat, dropLast_concat]
      rw [hpool, concat_eq_append] at hn hl
      rw [nodup_append] at hn
      have hlive : size? s.heap p = some sizeofMsgHeader :=
        hl p (mem_append_right _ (mem_singleton_self p))
      have hne : ∀ b ∈ pool, b ≠ p := fun b hb => hn.2.2 b hb p (mem_singleton_self p)
      have h := ih (s := { s with headerPool := pool, heap := free s.heap p }) hn.1 (fun b hb => by
          show size? (free s.heap p) b = _
          rw [size?_free_of_ne _ (hne b hb), hl b (mem_append_left _ hb)])
      refine ⟨by rw [h.eq], ?_, h.pool_nodup, h.pool_live, ?_,
        fun hs => h.safe (safeFrees_free (by rw [hlive]; rfl) hs)⟩
      · intro b hb
        rw [hpool, concat_eq_append]
        exact (h.pool_sub b hb).imp_left (mem_append_left _)
      · intro b hbc hb
        rw [hpool, concat_eq_append, mem_append, mem_singleton, not_or] at hb
        rw [h.size_other b hbc hb.1]
        exact size?_free_of_ne _ hb.2

lemma releaseMsgHeader_released
    (hc : size? s.heap c = some sizeofMsgHeader) (hcp : c ∉ s.headerPool) :
    Released s (s.releaseMsgHeader c) c := by
  have hne : ∀ p ∈ s.headerPool, p ≠ c := fun p hp heq => hcp (heq ▸ hp)
  rw [releaseMsgHeader]
  split
  -- a full pool: the block is freed, and more than one if the pool is too large
  · set s1 : Kernel := { s with heap := free s.heap c } with hs1
    have h := trimPool_released (s := s1) hn
      (fun p hp => by rw [hs1, size?_free_of_ne _ (hne p hp), hl p hp])
      (s.headerPool.length - 1 - poolMin) c
    refine ⟨by rw [h.eq], h.pool_sub, h.pool_nodup, h.pool_live, ?_,
      fun hs => h.safe (safeFrees_free (by rw [hc]; rfl) hs)⟩
    intro p hpc hp
    rw [h.size_other p hpc hp]
    exact size?_free_of_ne _ hpc
  · refine ⟨rfl, ?_, ?_, ?_, fun _ _ _ => rfl, id⟩
    · intro p hp
      exact (mem_append.mp hp).imp_right mem_singleton.mp
    · rw [nodup_append]
      refine ⟨hn, nodup_singleton c, ?_⟩
      rintro p hp d hd rfl
      exact hne p hp (mem_singleton.mp hd)
    · intro p hp
      rcases mem_append.mp hp with hp | hp
      · exact hl p hp
      · rw [mem_singleton.mp hp]
        exact hc

end

/-- `s'` is `s` after the block `c` was taken out of its queue and given back. -/
structure Dequeued (s s' : Kernel) (c : Ptr) : Prop where
  queue_eq : ∀ q, s'.queue q = (s.queue q).erase c
  headers_eq : s'.headers = s.headers
  pool_sub : ∀ p ∈ s'.headerPool, p ∈ s.headerPool ∨ p = c
  size_other : ∀ p, p ≠ c → p ∉ s.headerPool → size? s'.heap p = size? s.heap p
  rest_eq : ∀ p, s'.rest p = s.rest p
  idCounter_eq : s'.idCounter = s.idCounter
  currentPid_eq : s'.currentPid = s.currentPid
  subscribers_eq : s'.subscribers = s.subscribers
  sent_eq : s'.sent = s.sent
  acked_eq : s'.acked = (s.headers c).id :: s.acked
  safe : SafeFrees s.heap → SafeFrees s'.heap
  inv : HeaderInv s'

/-- The locked section of `msg_acknowledge`. -/
lemma dequeue_dequeued (h : HeaderInv s) {q : Pid} (hc : c ∈ s.queue q) :
    Dequeued s (s.dequeue c) c := by
  set s1 := s.procRemoveMsg c with hs1
  have hr : Released s1 (s1.releaseMsgHeader c) c :=
    releaseMsgHeader_released h.pool_nodup h.pool_live (h.queue_live q c hc)
      (h.queue_not_pool q c hc)
  have hdef : s.dequeue c =
      { s1.releaseMsgHeader c with acked := (s.headers c).id :: s.acked } := by
    simp only [dequeue, ← hs1]
    rw [hr.eq]
    rfl
  have hprocs : (s.dequeue c).procs = s1.procs := by rw [hdef, hr.eq]
  have hheaders : (s.dequeue c).headers = s.headers := by rw [hdef, hr.eq]; rfl
  have hqueue : ∀ p, (s.dequeue c).queue p = (s.queue p).erase c := by
    intro p
    have hq : (s.dequeue c).queue p = s1.queue p := by simp only [queue, hprocs]
    rw [hq, hs1, queue_procRemoveMsg, h.queue_to q c hc]
    split
    · rfl
    -- the block is in one queue only
    · rename_i hne
      exact (erase_of_not_mem fun hp => hne (h.queue_unique hp hc)).symm
  have hmem : ∀ p b, b ∈ (s.dequeue c).queue p → b ∈ s.queue p ∧ b ≠ c := by
    intro p b hb
    rw [hqueue, (h.queue_nodup p).mem_erase_iff] at hb
    exact ⟨hb.2, hb.1⟩
  refine ⟨hqueue, hheaders, ?_, ?_, ?_, ?_, ?_, ?_, ?_, ?_, ?_, ?_⟩
  · rw [hdef]; exact hr.pool_sub
  · rw [hdef]; exact hr.size_other
  · intro p
    have hrest := rest_modifyProc_msgQ (s := s) (s.headers c).toPid (fun p => p.msgQ.erase c) p
    simp only [rest, hprocs] at hrest ⊢
    exact hrest
  · rw [hdef, hr.eq]; rfl
  · rw [hdef, hr.eq]; rfl
  · rw [hdef, hr.eq]; rfl
  · rw [hdef, hr.eq]; rfl
  · rw [hdef]
  · rw [hdef]; exact hr.safe
  · refine ⟨?_, ?_, ?_, ?_, ?_, ?_⟩
    · rw [hdef]; exact hr.pool_nodup
    · rw [hdef]; exact hr.pool_live
    · intro p
      rw [hqueue]
      exact (h.queue_nodup p).erase c
    · intro p b hb
      obtain ⟨hb, hbc⟩ := hmem p b hb
      rw [hdef]
      exact (hr.size_other b hbc (h.queue_not_pool p b hb)).trans (h.queue_live p b hb)
    · intro p b hb hpool
      obtain ⟨hb, hbc⟩ := hmem p b hb
      rw [hdef] at hpool
      exact (hr.pool_sub b hpool).elim (h.queue_not_pool p b hb) hbc
    · intro p b hb
      rw [hheaders]
      exact h.queue_to p b (hmem p b hb).1

end Messaging.Kernel
