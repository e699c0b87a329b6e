import Btos.Messaging.Runs

/-!
# Messages are neither lost nor duplicated

`Conserved s` says what messaging should guarantee while processes stay alive: message ids are
distinct, queues are in increasing order of ids, a message is in the queue of its receiver and in
no other until it is acknowledged and in none afterwards, and no header block is in the pool and
in a queue.

The ids come from a 64-bit counter. `conserved_of_reaches`: in every state reached by sending,
receiving and acknowledging, as long as fewer than `2 ^ 64` messages were sent, the state is
conserved. Contents can be anything, if only `msg_acknowledge` does not free a header for one; those
that are heap blocks of their own are never headers (`reaches_sending`). `exists_not_conserved` has
a run in which the counter repeats itself and one in which a header is freed.
-/

open List

namespace Messaging.Kernel

open Heap

variable {A : Allocator} {s s' : Kernel}

/-- No message is lost, duplicated or shares its header block. -/
structure Conserved (s : Kernel) : Prop where
  /-- Two messages that were sent have different ids. -/
  ids_distinct : (s.sent.map Prod.fst).Nodup
  /-- The id of a message that was sent is a result of `msg_send` that says so. -/
  ids_ne_zero : ∀ m ∈ s.sent, m.1 ≠ 0
  queue_increasing : ∀ q, ((s.queue q).map fun c => (s.headers c).id).Pairwise (· < ·)
  /-- A message that is not acknowledged is in the queue of its receiver and in no other. -/
  sent_queued : ∀ i q, (i, q) ∈ s.sent → i ∉ s.acked → ∀ q',
    (∃ c ∈ s.queue q', (s.headers c).id = i) ↔ q' = q
  /-- An acknowledged message is in no queue. -/
  acked_gone : ∀ i ∈ s.acked, ∀ q, ∀ c ∈ s.queue q, (s.headers c).id ≠ i
  queue_not_pool : ∀ q, ∀ c ∈ s.queue q, c ∉ s.headerPool

/-- The numbering of messages before the counter wraps: ids count up from 1, and the queued
messages are those that were sent and not acknowledged. -/
structure Numbered (s : Kernel) : Prop where
  sent_decreasing : (s.sent.map Prod.fst).Pairwise (· > ·)
  sent_bounds : ∀ m ∈ s.sent, 0 < m.1 ∧ m.1 ≤ s.sent.length
  acked_le : ∀ i ∈ s.acked, i ≤ s.sent.length
  queue_increasing : ∀ q, ((s.queue q).map fun c => (s.headers c).id).Pairwise (· < ·)
  queued_iff : ∀ i q, (∃ c ∈ s.queue q, (s.headers c).id = i) ↔ (i, q) ∈ s.sent ∧ i ∉ s.acked

namespace Numbered

lemma ids_distinct (h : Numbered s) : (s.sent.map Prod.fst).Nodup :=
  h.sent_decreasing.imp fun hlt => (Nat.ne_of_lt hlt).symm

lemma receiver_unique (h : Numbered s) {i : ℕ} {q q' : Pid} (hq : (i, q) ∈ s.sent)
    (hq' : (i, q') ∈ s.sent) : q = q' := by
  have := inj_on_of_nodup_map h.ids_distinct hq hq' rfl
  exact (Prod.mk.inj this).2

lemma id_inj (h : Numbered s) {q q' : Pid} {c c' : Ptr} (hc : c ∈ s.queue q)
    (hc' : c' ∈ s.queue q') (heq : (s.headers c).id = (s.headers c').id) : c = c' := by
  have hsent := ((h.queued_iff _ q).mp ⟨c, hc, rfl⟩).1
  have hsent' := ((h.queued_iff _ q').mp ⟨c', hc', rfl⟩).1
  rw [heq] at hsent
  obtain rfl := h.receiver_unique hsent hsent'
  have hnodup : ((s.queue q).map fun c => (s.headers c).id).Nodup :=
    (h.queue_increasing q).imp Nat.ne_of_lt
  exact inj_on_of_nodup_map hnodup hc hc' heq

lemma conserved (h : Numbered s) (hi : HeaderInv s) : Conserved s where
  ids_distinct := h.ids_distinct
  ids_ne_zero m hm := (h.sent_bounds m hm).1.ne'
  queue_increasing := h.queue_increasing
  sent_queued i q hsent hack q' := by
    constructor
    · intro hc
      exact h.receiver_unique ((h.queued_iff i q').mp hc).1 hsent
    · rintro rfl
      exact (h.queued_iff i q').mpr ⟨hsent, hack⟩
  acked_gone i hack q c hc heq := ((h.queued_iff i q).mp ⟨c, hc, heq⟩).2 hack
  queue_not_pool := hi.queue_not_pool

end Numbered

/-! ## One change -/

lemma Numbered.congr (h : Numbered s) (hq : ∀ q, s'.queue q = s.queue q)
    (hid : ∀ q, ∀ c ∈ s.queue q, (s'.headers c).id = (s.headers c).id)
    (hsent : s'.sent = s.sent) (hacked : s'.acked = s.acked) : Numbered s' where
  sent_decreasing := hsent ▸ h.sent_decreasing
  sent_bounds := hsent ▸ h.sent_bounds
  acked_le := by
    rw [hsent, hacked]
    exact h.acked_le
  queue_increasing q := by
    rw [hq, map_congr_left (hid q)]
    exact h.queue_increasing q
  queued_iff i q := by
    rw [hsent, hacked, ← h.queued_iff i q, hq]
    exact exists_congr fun c => and_congr_right fun hc => by rw [hid q c hc]

lemma Quiet.numbered (h : Quiet s s') (hn : Numbered s) : Numbered s' :=
  hn.congr h.queue_eq (fun _ c _ => MsgHeader.id_eq_of_core (h.header_eq c)) h.sent_eq h.acked_eq

/-- What is queued was queued before, or is the new message. -/
lemma Enqueued.mem_queue {msg : MsgHeader} {c p : Ptr} {q : Pid} (h : Enqueued s s' msg c)
    (hp : p ∈ s'.queue q) : (p ∈ s.queue q ∧ p ≠ c) ∨ (p = c ∧ q = msg.toPid) := by
  rw [h.queue_eq] at hp
  have hold : p ∈ s.queue q → p ∈ s.queue q ∧ p ≠ c :=
    fun hp => ⟨hp, fun heq => h.block_not_queue q (heq ▸ hp)⟩
  split at hp
  · rename_i hq
    exact (mem_append.mp hp).imp hold fun hp => ⟨mem_singleton.mp hp, hq.1⟩
  · exact .inl (hold hp)

lemma Enqueued.numbered {msg : MsgHeader} {c : Ptr} (h : Enqueued s s' msg c)
    (hn : Numbered s) (hcount : s.idCounter = s.sent.length) (hlt : s.sent.length + 1 < 2 ^ 64)
    (halive : s.Alive msg.toPid) : Numbered s' := by
  -- the counter has not wrapped around, so that the id is larger than all others
  have hid : (s.idCounter + 1) % 2 ^ 64 = s.sent.length + 1 := by
    rw [hcount, Nat.mod_eq_of_lt hlt]
  have hsent : s'.sent = (s.sent.length + 1, msg.toPid) :: s.sent := by rw [h.sent_eq, hid]
  have hlen : s'.sent.length = s.sent.length + 1 := by rw [hsent, length_cons]
  have hidc : (s'.headers c).id = s.sent.length + 1 := by rw [h.header_new, hid]
  have hold : ∀ q, ∀ p ∈ s.queue q, (s'.headers p).id = (s.headers p).id := fun q p hp => by
    rw [h.header_old p fun heq => h.block_not_queue q (heq ▸ hp)]
  have hle : ∀ q, ∀ p ∈ s.queue q, (s.headers p).id ≤ s.sent.length := fun q p hp =>
    (hn.sent_bounds _ ((hn.queued_iff _ q).mp ⟨p, hp, rfl⟩).1).2
  refine ⟨?_, ?_, ?_, ?_, ?_⟩
  · rw [hsent, map_cons, pairwise_cons]
    refine ⟨fun i hi => ?_, hn.sent_decreasing⟩
    obtain ⟨m, hm, rfl⟩ := mem_map.mp hi
    exact Nat.lt_succ_of_le (hn.sent_bounds m hm).2
  · intro m hm
    rw [hlen]
    rw [hsent, mem_cons] at hm
    rcases hm with rfl | hm
    · exact ⟨Nat.succ_pos _, le_rfl⟩
    · exact ⟨(hn.sent_bounds m hm).1, Nat.le_succ_of_le (hn.sent_bounds m hm).2⟩
  · intro i hi
    rw [hlen]
    exact Nat.le_succ_of_le (hn.acked_le i (h.acked_eq ▸ hi))
  · intro q
    rw [h.queue_eq]
    split
    · rw [map_append, pairwise_append, map_congr_left (hold q)]
      refine ⟨hn.queue_increasing q, pairwise_singleton _ _, ?_⟩
      intro i hi j hj
      obtain ⟨p, hp, rfl⟩ := mem_map.mp hi
      rw [map_singleton, mem_singleton] at hj
      rw [hj, hidc]
      exact Nat.lt_succ_of_le (hle q p hp)
    · rw [map_congr_left (hold q)]
      exact hn.queue_increasing q
  · intro i q
    rw [hsent, h.acked_eq, mem_cons, Prod.mk.injEq]
    constructor
    · rintro ⟨p, hp, rfl⟩
      rcases h.mem_queue hp with ⟨hp, -⟩ | ⟨rfl, hq⟩
      · obtain ⟨hmem, hack⟩ := (hn.queued_iff _ q).mp ⟨p, hp, rfl⟩
        rw [hold q p hp]
        exact ⟨.inr hmem, hack⟩
      -- the new id was not acknowledged yet
      · rw [hidc]
        exact ⟨.inl ⟨rfl, hq⟩, fun hack => absurd (hn.acked_le _ hack) (by omega)⟩
    · rintro ⟨⟨rfl, rfl⟩ | hmem, hack⟩
      · refine ⟨c, ?_, hidc⟩
        rw [h.queue_eq, if_pos ⟨rfl, halive⟩]
        exact mem_append_right _ (mem_singleton_self c)
      · obtain ⟨p, hp, rfl⟩ := (hn.queued_iff i q).mpr ⟨hmem, hack⟩
        refine ⟨p, ?_, hold q p hp⟩
        rw [h.queue_eq]
        split
        · exact mem_append_left _ hp
        · exact hp

lemma Dequeued.numbered {c : Ptr} {q0 : Pid} (h : Dequeued s s' c) (hi : HeaderInv s)
    (hc : c ∈ s.queue q0) (hn : Numbered s) : Numbered s' := by
  have hmem : ∀ {p q}, p ∈ s'.queue q ↔ p ≠ c ∧ p ∈ s.queue q := fun {p q} => by
    rw [h.queue_eq, (hi.queue_nodup q).mem_erase_iff]
  refine ⟨h.sent_eq ▸ hn.sent_decreasing, h.sent_eq ▸ hn.sent_bounds, ?_, ?_, ?_⟩
  · intro i hack
    rw [h.acked_eq, mem_cons] at hack
    rw [h.sent_eq]
    rcases hack with rfl | hack
    · exact (hn.sent_bounds _ ((hn.queued_iff _ q0).mp ⟨c, hc, rfl⟩).1).2
    · exact hn.acked_le i hack
  · intro q
    rw [h.queue_eq, h.headers_eq]
    exact (hn.queue_increasing q).sublist (List.Sublist.map _ erase_sublist)
  · intro i q
    rw [h.sent_eq, h.acked_eq, h.headers_eq, mem_cons, not_or]
    constructor
    · rintro ⟨p, hp, rfl⟩
      obtain ⟨hpc, hp⟩ := hmem.mp hp
      obtain ⟨hsent, hack⟩ := (hn.queued_iff _ q).mp ⟨p, hp, rfl⟩
      exact ⟨hsent, fun heq => hpc (hn.id_inj hp hc heq), hack⟩
    · rintro ⟨hsent, hne, hack⟩
      obtain ⟨p, hp, rfl⟩ := (hn.queued_iff i q).mpr ⟨hsent, hack⟩
      exact ⟨p, hmem.mpr ⟨fun heq => hne (heq ▸ rfl), hp⟩, rfl⟩

/-! ## The operations -/

/-- The counter is the number of messages sent, up to its width, and before it wraps the
messages are numbered by it. -/
structure Counted (s : Kernel) : Prop extends HeaderInv s where
  alive_zero : s.Alive 0
  counter : s.idCounter = s.sent.length % 2 ^ 64
  numbered : s.sent.length < 2 ^ 64 → Numbered s

lemma Initial.counted (h : Initial s) : Counted s where
  toHeaderInv := h.contentInv.toHeaderInv
  alive_zero := h.alive_zero
  counter := by
    rw [h.idCounter_zero, h.sent_nil]
    rfl
  numbered _ := by
    refine ⟨?_, ?_, ?_, ?_, ?_⟩
    · rw [h.sent_nil]
      exact List.Pairwise.nil
    · intro m hm
      rw [h.sent_nil] at hm
      cases hm
    · intro i hi
      rw [h.acked_nil] at hi
      cases hi
    · intro q
      rw [h.queue_nil]
      exact List.Pairwise.nil
    · intro i q
      rw [h.queue_nil, h.sent_nil]
      simp

lemma Counted.congr (hc : Counted s) (hi : HeaderInv s') (hq : ∀ q, s'.queue q = s.queue q)
    (hheaders : s'.headers = s.headers) (halive : s'.Alive 0 ↔ s.Alive 0)
    (hcounter : s'.idCounter = s.idCounter) (hsent : s'.sent = s.sent)
    (hacked : s'.acked = s.acked) : Counted s' where
  toHeaderInv := hi
  alive_zero := halive.mpr hc.alive_zero
  counter := by rw [hcounter, hsent, hc.counter]
  numbered hlt := (hc.numbered (hsent ▸ hlt)).congr hq (fun _ _ _ => by rw [hheaders]) hsent hacked

lemma Quiet.counted (h : Quiet s s') (hc : Counted s) : Counted s' where
  toHeaderInv := h.headerInv hc.toHeaderInv
  alive_zero := (h.alive_iff 0).mpr hc.alive_zero
  counter := by rw [h.idCounter_eq, h.sent_eq, hc.counter]
  numbered hlt := h.numbered (hc.numbered (h.sent_eq ▸ hlt))

/-- The contents that a process has outstanding play no part. -/
lemma Counted.record (hc : Counted s) (pid : Pid) (f : OrderedMap Pid Ptr → OrderedMap Pid Ptr) :
    Counted (s.modifyProc pid fun p => { p with msgBuffers := f p.msgBuffers }) :=
  hc.congr (hc.toHeaderInv.congr (queue_modifyProc fun _ => rfl) (fun _ => rfl) rfl
    fun _ _ h => h) (queue_modifyProc fun _ => rfl) rfl (alive_modifyProc 0) rfl rfl rfl

/-- `msg_send`, whatever the content is. -/
lemma msgSend_counted (hc : Counted s) (msg : MsgHeader) : Counted (msgSend A s msg).2 := by
  rcases msgSend_cases (A := A) hc.toHeaderInv msg with heq | ⟨s1, c, hq, -, hdest, he⟩
  · rw [heq]
    exact hc
  have hc1 := hq.counted hc
  refine ⟨he.inv, ?_, ?_, fun hlt => ?_⟩
  · rw [alive_iff_rest, he.rest_eq, ← alive_iff_rest]
    exact hc1.alive_zero
  · rw [he.idCounter_eq, he.sent_eq, length_cons, hc1.counter, Nat.mod_add_mod]
  · rw [he.sent_eq, length_cons] at hlt
    have hlt1 : s1.sent.length < 2 ^ 64 := Nat.lt_of_succ_lt hlt
    refine he.numbered (hc1.numbered hlt1) ?_ hlt ?_
    · rw [hc1.counter, Nat.mod_eq_of_lt hlt1]
    · exact hdest.elim (fun hto => hto ▸ hc1.alive_zero) (hq.alive_iff _).mpr

lemma sendToSubscribers_counted {wants : Pid → List KernelMessage → Bool} {n : ℕ}
    {make : Pid → Ptr → MsgHeader} (subs : List (Pid × List KernelMessage)) (hc : Counted s) :
    Counted (sendToSubscribers A wants n make subs s) := by
  induction subs generalizing s with
  | nil => exact hc
  | cons e subs ih =>
    rw [sendToSubscribers]
    refine ih ?_
    split
    · exact msgSend_counted ((quiet_malloc s n).counted hc) _
    · exact hc

lemma procSendMessage_counted (hc : Counted s) (header : MsgHeader) (pid : Pid) :
    Counted (procSendMessage A s header pid).2 := by
  have hmalloc := (quiet_malloc (A := A) s header.length).counted hc
  rw [procSendMessage]
  split
  · exact msgSend_counted hmalloc _
  split
  · exact hc
  split
  · exact hc
  -- the content is recorded before the message is sent
  have hrecord (f : OrderedMap Pid Ptr → OrderedMap Pid Ptr) : Counted (Kernel.modifyProc
      { s with heap := A.malloc s.heap header.length } pid fun p =>
        { p with msgBuffers := f p.msgBuffers }) := hmalloc.record pid f
  exact msgSend_counted (hrecord _) _

/-- What `msg_acknowledge` frees for a message with a content. -/
def freed (s : Kernel) (header : MsgHeader) : Option Ptr :=
  if header.isBuffered then s.msgBuffer header.fromPid header.toPid else some header.content

/-- A block that may be freed while the headers are in use. -/
def NoHeader (s : Kernel) (p : Ptr) : Prop := p ∉ s.headerPool ∧ ∀ q, p ∉ s.queue q

lemma releaseContent_counted (hc : Counted s) (header : MsgHeader)
    (hfreed : ∀ p, s.freed header = some p → s.NoHeader p) :
    Counted (s.releaseContent header) := by
  rw [releaseContent]
  rw [freed] at hfreed
  split
  · rename_i hb
    rw [if_pos hb] at hfreed
    rw [procFreeMessageBuffer]
    cases hP : s.procs header.fromPid with
    | none => exact hc
    | some P =>
      have hqueue : ∀ q, (s.modifyProc header.fromPid fun p =>
          { p with msgBuffers := p.msgBuffers.erase header.toPid }).queue q = s.queue q :=
        queue_modifyProc fun _ => rfl
      have herase := hc.record header.fromPid fun m => m.erase header.toPid
      dsimp only
      split
      · exact herase
      · rename_i p hp
        split
        · exact herase
        · obtain ⟨hpool, hqueued⟩ := hfreed p (by rw [msgBuffer, hP]; exact hp)
          exact herase.congr (herase.toHeaderInv.of_free hpool (fun q => hqueue q ▸ hqueued q)
            (fun _ => rfl) rfl rfl rfl) (fun _ => rfl) rfl Iff.rfl rfl rfl rfl
  · rename_i hb
    rw [if_neg hb] at hfreed
    obtain ⟨hpool, hqueued⟩ := hfreed _ rfl
    exact hc.congr (hc.toHeaderInv.of_free hpool hqueued (fun _ => rfl) rfl rfl rfl)
      (fun _ => rfl) rfl Iff.rfl rfl rfl rfl

lemma Dequeued.counted {c : Ptr} {q : Pid} (h : Dequeued s s' c) (hc : Counted s)
    (hmem : c ∈ s.queue q) : Counted s' where
  toHeaderInv := h.inv
  alive_zero := by
    rw [alive_iff_rest, h.rest_eq, ← alive_iff_rest]
    exact hc.alive_zero
  counter := by rw [h.idCounter_eq, h.sent_eq, hc.counter]
  numbered hlt := h.numbered hc.toHeaderInv hmem (hc.numbered (h.sent_eq ▸ hlt))

lemma msgAcknowledge_counted {junk : Pid → MsgHeader} (hc : Counted s) (msg : MsgHeader)
    (hfreed : ∀ c p, s.findMsg msg.id msg.toPid = some c → (s.headers c).content ≠ 0 →
      s.freed (s.headers c) = some p → s.NoHeader p) :
    Counted (msgAcknowledge A junk s msg) := by
  rw [msgAcknowledge]
  split
  · exact hc
  rename_i c hfind
  obtain ⟨hmem, -⟩ := mem_queue_of_findMsg hfind
  have hd := dequeue_dequeued hc.toHeaderInv hmem
  have hcd := hd.counted hc hmem
  simp only [ackSection, hfind]
  split
  · exact hcd
  rename_i hcontent
  refine sendToSubscribers_counted _ (releaseContent_counted hcd _ fun p hp => ?_)
  have hsame : (s.dequeue c).freed (s.headers c) = s.freed (s.headers c) := by
    rw [freed, freed, msgBuffer_eq_rest, hd.rest_eq, ← msgBuffer_eq_rest]
  obtain ⟨hpool, hqueued⟩ := hfreed c p hfind hcontent (hsame ▸ hp)
  refine ⟨fun hin => ?_, fun q hin => ?_⟩
  -- the header itself is the only block that has joined the pool
  · rcases hd.pool_sub p hin with hin | rfl
    · exact hpool hin
    · exact hqueued _ hmem
  · rw [hd.queue_eq] at hin
    exact hqueued q (mem_of_mem_erase hin)

/-! ## Runs -/

/-- What can happen, with `msg_send` by kernel code that has a content of any kind: none, one on
its stack, or a block that it has allocated. -/
inductive SendAction where
  | action (a : Action)
  | msgSend (msg : MsgHeader)

/-- Messaging with any contents. -/
def sending (A : Allocator) : System Kernel SendAction where
  init := Initial
  step s
    | .action a => step A s a
    | .msgSend msg => some (Kernel.msgSend A s msg).2

/-- Processes stay alive, and the content that `msg_acknowledge` frees is no header. -/
def FreesContents (s : Kernel) : SendAction → Prop
  | .action (.procEnd _ _ _ _) => False
  | .action (.acknowledge _ msg _) => ∀ c p, s.findMsg msg.id msg.toPid = some c →
      (s.headers c).content ≠ 0 → s.freed (s.headers c) = some p → s.NoHeader p
  | _ => True

lemma step_counted (hc : Counted s) {a : SendAction} (ha : FreesContents s a)
    (hstep : (sending A).step s a = some s') : Counted s' := by
  -- every call enters the kernel first: that changes only who is running
  have hcur : ∀ pid, Counted { s with currentPid := pid } :=
    fun pid => (quiet_currentPid s pid).counted hc
  cases a with
  | msgSend msg =>
    cases hstep
    exact msgSend_counted hc msg
  | action a =>
    cases a with
    | send pid header =>
      obtain ⟨s1, hent, hsend⟩ := Option.bind_eq_some_iff.mp hstep
      obtain ⟨-, rfl⟩ := entered_eq_some hent
      rw [btSend] at hsend
      split at hsend
      · cases hsend
      · cases hsend
        exact procSendMessage_counted (hcur pid) _ _
    | kernelSend msg size =>
      obtain ⟨-, hsend⟩ := Option.ite_none_left_eq_some.mp hstep
      cases hsend
      exact msgSend_counted ((quiet_malloc s size).counted hc) _
    | recv pid =>
      obtain ⟨s1, hent, rfl⟩ := Option.map_eq_some_iff.mp hstep
      obtain ⟨-, rfl⟩ := entered_eq_some hent
      exact (quiet_msgRecv _ pid).counted (hcur pid)
    | recvFiltered pid filter =>
      obtain ⟨-, rfl⟩ := entered_eq_some hstep
      exact hcur pid
    | getcontent pid msg buffersize =>
      obtain ⟨-, rfl⟩ := entered_eq_some hstep
      exact hcur pid
    | acknowledge pid msg junk =>
      obtain ⟨s1, hent, rfl⟩ := Option.map_eq_some_iff.mp hstep
      obtain ⟨-, rfl⟩ := entered_eq_some hent
      exact msgAcknowledge_counted (hcur pid) msg ha
    | messageWait pid =>
      obtain ⟨-, rfl⟩ := entered_eq_some hstep
      exact hcur pid
    | procEnd pid target junk stackPtr => exact ha.elim
    | sendEvent message size junk =>
      cases hstep
      exact sendToSubscribers_counted _ hc
    | debugEvent pid junk stackPtr =>
      cases hstep
      rw [debugEventNotify]
      split
      · exact msgSend_counted hc _
      · exact hc

lemma counted_of_reaches (hs : (sending A).Reaches FreesContents s) : Counted s :=
  hs.invariant (fun _ (h : Initial _) => h.counted) fun _ _ _ hc ha => step_counted hc ha

/-- As long as fewer than `2 ^ 64` messages were sent, no message is lost or duplicated. -/
theorem conserved_of_reaches (hs : (sending A).Reaches FreesContents s)
    (hlt : s.sent.length < 2 ^ 64) : Conserved s :=
  have hc := counted_of_reaches hs
  (hc.numbered hlt).conserved hc.toHeaderInv

/-- A message without a content and two with one, on the stack and on the heap, were sent; two are
acknowledged. -/
theorem conserved_threeMessages : ∃ s,
    (sending Allocator.bump).Reaches FreesContents s ∧ s.queue 1 ≠ [] ∧ s.acked = [2, 1] ∧
      s.sent = [(3, 1), (2, 2), (1, 1)] ∧ Conserved s := by
  have hnull : (sending Allocator.bump).Reaches FreesContents _ :=
    .step (.init (started_initial 2 .empty))
      (a := .msgSend { (default : MsgHeader) with toPid := 1 }) trivial rfl
  have hstack : (sending Allocator.bump).Reaches FreesContents _ :=
    .step hnull (a := .action (.debugEvent 1 (fun _ => default) 7777)) trivial rfl
  have hheap : (sending Allocator.bump).Reaches FreesContents _ :=
    .step hstack
      (a := .action (.kernelSend { (default : MsgHeader) with toPid := 1 } 8)) trivial rfl
  have hack : (sending Allocator.bump).Reaches FreesContents _ :=
    .step hheap
      (a := .action (.acknowledge 1 { (default : MsgHeader) with id := 1, toPid := 1 } default))
      (fun c p hc hcontent => absurd (by cases hc; rfl) hcontent) rfl
  have hboth : (sending Allocator.bump).Reaches FreesContents _ :=
    .step hack
      (a := .action (.acknowledge 2 { (default : MsgHeader) with id := 2, toPid := 2 } default))
      (fun c p hc _ hp => (counted_of_reaches hack).not_mem (by cases hc; cases hp; rfl)) rfl
  exact ⟨_, hboth, by decide, rfl, rfl, conserved_of_reaches hboth (by decide)⟩

/-! ## The counter wraps -/

/-- Processes stay alive, and contents are heap blocks: no process ends and no debugger is sent
a message. -/
def KeepsProcesses (s : Kernel) : Action → Prop
  | .procEnd _ _ _ _ => False
  | .debugEvent pid _ _ => s.debugEventSends pid = false
  | _ => True

lemma KeepsProcesses.allowed {a : Action} (h : KeepsProcesses s a) :
    Allowed (fun _ _ => True) (fun _ _ => False) s a := by
  cases a with
  | procEnd pid target junk stackPtr => exact h.elim
  | debugEvent pid junk stackPtr => exact h
  | _ => simp [Allowed]

lemma contentInv_of_reaches (hs : (messaging A).Reaches KeepsProcesses s) : ContentInv s :=
  (reaches_invariant (fun _ _ h => h.allowed) (fun _ _ _ h => h) (fun _ _ => trivial)
    (fun _ _ _ _ _ => trivial) hs).1

/-- A message that owns its content frees nothing else. -/
lemma KeepsProcesses.freesContents {a : Action} (h : KeepsProcesses s a) (hi : ContentInv s) :
    FreesContents s (.action a) := by
  cases a with
  | procEnd pid target junk stackPtr => exact h
  | acknowledge pid msg junk =>
    intro c p hfind _ hp
    obtain ⟨hmem, -⟩ := mem_queue_of_findMsg hfind
    have heq : p = (s.headers c).content := by
      rw [freed] at hp
      split at hp
      · rename_i hb
        have halive : s.Alive (s.headers c).fromPid := by
          by_contra hdead
          rw [Alive, Option.not_isSome_iff_eq_none] at hdead
          rw [msgBuffer, hdead] at hp
          cases hp
        rw [hi.queue_to _ c hmem, hi.buffered _ c hmem hb halive] at hp
        exact (Option.some.inj hp).symm
      · exact (Option.some.inj hp).symm
    rw [heq]
    exact ⟨hi.content_not_pool _ c hmem, hi.content_not_queue _ c hmem⟩
  | _ => trivial

/-- In a run with heap blocks as contents, what is freed is no header. -/
lemma reaches_sending (hs : (messaging A).Reaches KeepsProcesses s) :
    (sending A).Reaches FreesContents s := by
  induction hs with
  | init h => exact .init h
  | step hs hg hstep ih =>
    exact .step (a := .action _) ih (hg.freesContents (contentInv_of_reaches hs)) hstep

/-- A message of the kernel to process 1. -/
def toFirst : MsgHeader := { (default : MsgHeader) with toPid := 1 }

/-- A state on the way to the wrap: the first message is still in the queue of process 1, alone,
and the counter is at `k`. -/
structure Holding (A : Allocator) (k : ℕ) (s : Kernel) : Prop where
  reaches : (messaging A).Reaches KeepsProcesses s
  counter : s.idCounter = k
  alive : s.Alive 1
  subscribers_nil : s.subscribers = .empty
  queue_eq : ∃ c, s.queue 1 = [c] ∧ (s.headers c).id = 1

lemma Holding.contentInv {k : ℕ} (h : Holding A k s) : ContentInv s :=
  contentInv_of_reaches h.reaches

lemma step_toFirst (hs : (messaging A).Reaches KeepsProcesses s) (hi : HeaderInv s)
    (h1 : s.Alive 1) :
    ∃ s1 c b, (messaging A).Reaches KeepsProcesses s1 ∧ Delivered s s1
      { toFirst with content := b } 1 c b := by
  obtain ⟨c, hd⟩ := kernelSend_delivered hi toFirst 1 rfl rfl h1
  exact ⟨_, c, _, .step (a := .kernelSend toFirst 1) hs trivial rfl, hd⟩

/-- The first message stays in front of the next one. -/
lemma Holding.send {k : ℕ} (h : Holding A k s) : ∃ s1 c0 c b,
    (messaging A).Reaches KeepsProcesses s1 ∧ Delivered s s1 { toFirst with content := b } 1 c b ∧
      s1.queue 1 = [c0, c] ∧ c0 ≠ c ∧ (s1.headers c0).id = 1 ∧
        (s1.headers c).id = (k + 1) % 2 ^ 64 := by
  obtain ⟨c0, hq, hid⟩ := h.queue_eq
  obtain ⟨s1, c, b, hs1, hd⟩ := step_toFirst h.reaches h.contentInv.toHeaderInv h.alive
  have hne : c0 ≠ c := by
    intro heq
    refine hd.block_not_queue 1 ?_
    rw [hq, heq]
    exact mem_singleton_self c
  refine ⟨s1, c0, c, b, hs1, hd, ?_, hne, ?_, ?_⟩
  · rw [hd.queue_eq, if_pos ⟨rfl, h.alive⟩, hq]
    rfl
  · rw [MsgHeader.id_eq_of_core (hd.header_old c0 hne), hid]
  · rw [hd.id_new, h.counter]

/-- Sending a message to process 1 and acknowledging it moves the counter on by one, unless the
new message gets the id of the first one. -/
lemma Holding.next {k : ℕ} (h : Holding A k s) (hk : (k + 1) % 2 ^ 64 ≠ 1) :
    ∃ s', Holding A ((k + 1) % 2 ^ 64) s' := by
  obtain ⟨s1, c0, c, b, hs1, hd, hq1, hne, hid0, hid1⟩ := h.send
  have halive1 : s1.Alive 1 := (hd.alive_iff 1).mpr h.alive
  have hsubs1 : s1.subscribers = .empty := hd.subscribers_eq.trans h.subscribers_nil
  set s2 : Kernel := { s1 with currentPid := 1 }
  have hi2 : ContentInv s2 := (quiet_currentPid s1 1).contentInv (hd.contentInv h.contentInv)
  set msg : MsgHeader := { toFirst with id := (k + 1) % 2 ^ 64 }
  have hq2 : s2.queue msg.toPid = [c0, c] := hq1
  -- the ids differ, so that the new message is the one that is acknowledged
  have hfind : s2.findMsg msg.id msg.toPid = some c := by
    have hfirst : (s2.headers c0).id ≠ msg.id := fun heq => hk (heq.symm.trans hid0)
    have hsecond : (s2.headers c).id = msg.id := hid1
    rw [findMsg, hq2, find?_cons_of_neg (by simpa using hfirst),
      List.find?_cons_of_pos (by simpa using hsecond)]
  have hmem : c ∈ s2.queue 1 := (mem_queue_of_findMsg hfind).1
  have hr := releaseContent_removed hi2 hmem
  -- nobody has subscribed to receipts, so that nothing else is sent
  have hack : msgAcknowledge A default s2 msg = (s2.dequeue c).releaseContent (s2.headers c) := by
    have hsubs : ((s2.dequeue c).releaseContent (s2.headers c)).subscribers = .empty :=
      hr.subscribers_eq.trans hsubs1
    simp only [msgAcknowledge, ackSection, hfind, if_neg (hi2.content_ne_null 1 c hmem),
      msgSendReceipt, hsubs]
    rfl
  have hstep : (messaging A).step s1 (.acknowledge 1 msg default) =
      some ((s2.dequeue c).releaseContent (s2.headers c)) := by
    rw [← hack]
    exact congrArg (Option.map fun s => msgAcknowledge A default s msg) (if_pos halive1)
  refine ⟨_, .step (a := .acknowledge 1 msg default) hs1 trivial hstep, ?_, ?_, ?_, c0, ?_, ?_⟩
  · rw [hr.idCounter_eq, ← h.counter]
    exact hd.idCounter_eq
  · exact (hr.alive_iff 1).mpr halive1
  · exact hr.subscribers_eq.trans hsubs1
  · have herase : [c0, c].erase c = [c0] := by
      rw [erase_cons_tail (by simpa using hne), erase_cons_head]
    exact ((hr.queue_eq 1).trans (congrArg (List.erase · c) hq2)).trans herase
  · rw [hr.headers_eq]
    exact hid0

/-- Process 1 can keep the first message while the counter goes all the way round. -/
lemma exists_holding {n : ℕ} (hn : n < 2 ^ 64) :
    ∃ s, Holding Allocator.bump ((1 + n) % 2 ^ 64) s := by
  induction n with
  | zero =>
    have hs : (messaging Allocator.bump).Reaches KeepsProcesses (started 0 .empty) :=
      .init (started_initial 0 .empty)
    have hi := (started_initial 0 .empty).contentInv
    obtain ⟨s1, c, b, hs1, hd⟩ := step_toFirst hs hi.toHeaderInv (by decide)
    refine ⟨s1, hs1, hd.idCounter_eq, (hd.alive_iff 1).mpr (by decide), hd.subscribers_eq, c, ?_,
      hd.id_new⟩
    rw [hd.queue_eq, if_pos ⟨rfl, by decide⟩]
    rfl
  | succ n ih =>
    obtain ⟨s, hs⟩ := ih (by omega)
    obtain ⟨s', hs'⟩ := hs.next (by omega)
    refine ⟨s', ?_⟩
    have hmod : ((1 + n) % 2 ^ 64 + 1) % 2 ^ 64 = (1 + (n + 1)) % 2 ^ 64 := by omega
    rwa [hmod] at hs'

/-- The allocator that hands out block 2 again when it was freed. -/
def reusing : Allocator where
  choose h _ := if size? h 2 = none then 2 else bound h
  choose_ne_null h _ := by split; exacts [two_ne_zero, (bound_pos h).ne']
  choose_fresh h _ := by split; exacts [‹_›, size?_of_bound_le le_rfl]

/-- Block 2, the header of the first message, is the content of the second one, which is
acknowledged. Two more messages use up the pool. -/
def headerAsContent : List SendAction :=
  [.msgSend toFirst, .msgSend { toFirst with content := 2 },
    .action (.acknowledge 1 { toFirst with id := 2 } default), .msgSend toFirst, .msgSend toFirst]

/-- After `2 ^ 64` messages, while the first one is still queued, the next one to the same
process gets the same id. A header that was freed for a content gets into the pool again while it is
still queued. -/
theorem exists_not_conserved :
    (∃ s, (sending Allocator.bump).Reaches FreesContents s ∧ ¬ Conserved s) ∧
      ∃ s, (sending reusing).Reachable s ∧ ∃ c ∈ s.queue 1, c ∈ s.headerPool := by
  constructor
  · obtain ⟨s, hs⟩ := exists_holding (n := 2 ^ 64 - 1) (by omega)
    obtain ⟨s1, c0, c, b, hs1, -, hq1, -, hid0, hid1⟩ := hs.send
    refine ⟨s1, reaches_sending hs1, fun hcons => ?_⟩
    have hinc := hcons.queue_increasing 1
    rw [hq1, map_cons, map_singleton, pairwise_pair, hid0, hid1] at hinc
    omega
  · have hrun : ((sending reusing).run (started 0 .empty) headerAsContent).any
        (fun s => 2 ∈ s.queue 1 ∧ 2 ∈ s.headerPool) = true := by
      decide
    obtain ⟨s, hs, hp⟩ := System.exists_reachable_of_run (started_initial 0 .empty) hrun
    exact ⟨s, hs, 2, of_decide_eq_true hp⟩

end Messaging.Kernel
