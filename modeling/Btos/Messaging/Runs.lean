import Btos.Lib.TransitionSystem
import Btos.Messaging.Effects

/-!
# Runs of the messaging system

`Action` lists what processes and the kernel can do with messages, `Kernel.step` executes one
action and `messaging` is the transition system of all of them, started by `Initial`: listed
processes without messages and a filled header pool.

Except for `debug_event_notify`, whose content is not a heap block, every action has as its
effect a sequence of the changes of `Effect` (`step_effects`), so that contents are owned in
every state reached without it.
-/

open Option List

namespace Messaging

open Heap

variable {A : Allocator}

/-- What can happen. The system calls are made by a listed process `pid`; `junk` is what the
stack held where the kernel builds a header, by receiver. -/
inductive Action where
  /-- `BT_SEND`. -/
  | send (pid : Pid) (header : MsgHeader)
  /-- `msg_send` by kernel code, with a new block of `size` bytes as content. -/
  | kernelSend (msg : MsgHeader) (size : ℕ)
  /-- `msg_recv`. -/
  | recv (pid : Pid)
  /-- `msg_recv_filtered`. -/
  | recvFiltered (pid : Pid) (filter : Kernel.Filter)
  /-- `msg_getcontent`. -/
  | getcontent (pid : Pid) (msg : MsgHeader) (buffersize : ℕ)
  /-- `msg_acknowledge`. -/
  | acknowledge (pid : Pid) (msg : MsgHeader) (junk : Pid → MsgHeader)
  /-- `proc_message_wait`. -/
  | messageWait (pid : Pid)
  /-- `proc_end` of `target`; `stackPtr` is where `debug_event_notify` has its content. -/
  | procEnd (pid target : Pid) (junk : Pid → MsgHeader) (stackPtr : Ptr)
  /-- `msg_send_event`. -/
  | sendEvent (message : KernelMessage) (size : ℕ) (junk : Pid → MsgHeader)
  /-- `debug_event_notify` for an event of process `pid`. -/
  | debugEvent (pid : Pid) (junk : Pid → MsgHeader) (stackPtr : Ptr)

namespace Kernel

variable {s s' : Kernel}

/-- `msg_send` by kernel code that allocates the content. -/
def kernelSend (A : Allocator) (s : Kernel) (msg : MsgHeader) (size : ℕ) : ℕ × Kernel :=
  msgSend A { s with heap := A.malloc s.heap size }
    { msg with content := A.choose s.heap size }

/-- The state in which a listed process makes a system call. -/
def entered (s : Kernel) (pid : Pid) : Option Kernel :=
  if s.Alive pid then some { s with currentPid := pid } else none

/-- One action. Kernel code sends no message that claims to come from user space. -/
def step (A : Allocator) (s : Kernel) : Action → Option Kernel
  | .send pid header => (s.entered pid).bind fun s => (btSend A s header).map Prod.snd
  | .kernelSend msg size => if msg.isUserSpace then none else some (kernelSend A s msg size).2
  | .recv pid => (s.entered pid).map fun s => (s.msgRecv pid).2
  | .recvFiltered pid _ => s.entered pid
  | .getcontent pid _ _ => s.entered pid
  | .acknowledge pid msg junk => (s.entered pid).map fun s => msgAcknowledge A junk s msg
  | .messageWait pid => s.entered pid
  | .procEnd pid target junk stackPtr =>
      (s.entered pid).bind fun s => procEnd A junk s target stackPtr
  | .sendEvent message size junk => some (msgSendEvent A junk s message size)
  | .debugEvent pid junk stackPtr => some (debugEventNotify A junk s pid stackPtr)

/-- A state to start from: no messages and no outstanding contents, and a pool of distinct
blocks that are live, in a heap that was used correctly so far. -/
structure Initial (s : Kernel) : Prop where
  alive_zero : s.Alive 0
  queue_nil : ∀ q, s.queue q = []
  msgBuffer_none : ∀ p q, s.msgBuffer p q = none
  pool_nodup : s.headerPool.Nodup
  pool_live : ∀ c ∈ s.headerPool, size? s.heap c = some sizeofMsgHeader
  safe : SafeFrees s.heap
  idCounter_zero : s.idCounter = 0
  sent_nil : s.sent = []
  acked_nil : s.acked = []

/-- Contents are owned in an initial state. -/
lemma Initial.contentInv (h : Initial s) : ContentInv s where
  __ := h
  queue_nodup q := by rw [h.queue_nil]; exact nodup_nil
  queue_live q c hc := by rw [h.queue_nil] at hc; cases hc
  queue_not_pool q c hc := by rw [h.queue_nil] at hc; cases hc
  queue_to q c hc := by rw [h.queue_nil] at hc; cases hc
  content_live q c hc := by rw [h.queue_nil] at hc; cases hc
  content_ne_null q c hc := by rw [h.queue_nil] at hc; cases hc
  content_inj q q' c c' hc := by rw [h.queue_nil] at hc; cases hc
  content_not_pool q c hc := by rw [h.queue_nil] at hc; cases hc
  content_not_queue q c hc := by rw [h.queue_nil] at hc; cases hc
  buffered q c hc := by rw [h.queue_nil] at hc; cases hc

end Kernel

/-- The messaging system. -/
def messaging (A : Allocator) : System Kernel Action where
  init := Kernel.Initial
  step := Kernel.step A

namespace Kernel

variable {s s' : Kernel} {ok : MsgHeader → ℕ → Prop} {dying : Kernel → Pid → Prop}
  {junk : Pid → MsgHeader}

/-! ## The effect of sending -/

/-- `msg_send` refuses the message, or puts it in the queue of a listed process or of the
kernel, after it marked the message that it answers. -/
lemma msgSend_cases (h : HeaderInv s) (msg : MsgHeader) :
    msgSend A s msg = (0, s) ∨
      ∃ s1 c, Quiet s s1 ∧ s1.heap = s.heap ∧ (msg.toPid = 0 ∨ s.Alive msg.toPid) ∧
        Enqueued s1 (msgSend A s msg).2 msg c := by
  rw [msgSend]
  by_cases hd : s.destinationExists msg
  swap
  · exact .inl (if_pos (by simpa using hd))
  rw [if_neg (by simpa using hd)]
  have hdest : msg.toPid = 0 ∨ s.Alive msg.toPid := by
    by_cases h0 : msg.toPid = 0
    · exact .inl h0
    · simp [destinationExists, procGetStatus, h0] at hd
      exact .inr (by rw [Alive, isSome_iff_ne_none]; exact hd)
  split
  · split
    · exact .inl rfl
    · rename_i prev _
      split
      · exact .inl rfl
      · have hq := quiet_markReplied s msg.fromPid prev.id
        obtain ⟨c, hc⟩ := msgEnqueue_enqueued (hq.headerInv h) msg
        exact .inr ⟨_, c, hq, rfl, hdest, hc⟩
  · obtain ⟨c, hc⟩ := msgEnqueue_enqueued h msg
    exact .inr ⟨s, c, Quiet.refl s, rfl, hdest, hc⟩

lemma msgSend_of_not_isReply (msg : MsgHeader) (hr : msg.isReply = false)
    (hd : s.Alive msg.toPid) : msgSend A s msg = msgEnqueue A s msg := by
  have hdest : s.destinationExists msg := by
    obtain ⟨p, hp⟩ := isSome_iff_exists.mp hd
    simp [destinationExists, procGetStatus, hp]
  rw [msgSend, if_neg (by simpa using hdest), if_neg (by simp [hr])]

/-- What a sender does before `msg_send`: allocate the content, and record it if the message is
to be released through the buffers of the sender. -/
structure Prepared (A : Allocator) (s s₁ : Kernel) (msg : MsgHeader) (n : ℕ) : Prop where
  queue_eq : ∀ q, s₁.queue q = s.queue q
  headers_eq : s₁.headers = s.headers
  pool_eq : s₁.headerPool = s.headerPool
  heap_eq : s₁.heap = A.malloc s.heap n
  content_eq : msg.content = A.choose s.heap n
  alive_iff : ∀ p, s₁.Alive p ↔ s.Alive p
  msgBuffer_eq : ∀ p q, s₁.msgBuffer p q =
    if msg.isBuffered ∧ p = msg.fromPid ∧ q = msg.toPid then some (A.choose s.heap n)
    else s.msgBuffer p q
  buffered : msg.isBuffered → s.Alive msg.toPid ∧ s.msgBuffer msg.fromPid msg.toPid = none
  idCounter_eq : s₁.idCounter = s.idCounter
  subscribers_eq : s₁.subscribers = s.subscribers
  sent_eq : s₁.sent = s.sent
  acked_eq : s₁.acked = s.acked

variable {msg : MsgHeader} {n : ℕ}

lemma Prepared.headerInv {s1 : Kernel} (hp : Prepared A s s1 msg n)
    (h : HeaderInv s) : HeaderInv s1 := by
  refine h.congr hp.queue_eq (fun c => by rw [hp.headers_eq]) hp.pool_eq fun c _ hc => ?_
  rw [hp.heap_eq]
  exact size?_malloc_of_live A _ _ hc

lemma prepared_malloc (hb : msg.isBuffered = false) :
    Prepared A s { s with heap := A.malloc s.heap n }
      { msg with content := A.choose s.heap n } n where
  queue_eq _ := rfl
  headers_eq := rfl
  pool_eq := rfl
  heap_eq := rfl
  content_eq := rfl
  alive_iff _ := Iff.rfl
  msgBuffer_eq _ _ := (if_neg fun h => Bool.eq_false_iff.mp hb h.1).symm
  buffered h := absurd h (Bool.eq_false_iff.mp hb)
  idCounter_eq := rfl
  subscribers_eq := rfl
  sent_eq := rfl
  acked_eq := rfl

variable {c : Ptr}

/-- Putting a prepared message in the queue delivers it. -/
lemma Prepared.delivered {s1 s2 : Kernel}
    (hp : Prepared A s s1 msg n) (h : HeaderInv s) (hq : Quiet s1 s2) (hheap : s2.heap = s1.heap)
    (hdest : msg.toPid = 0 ∨ s1.Alive msg.toPid) (he : Enqueued s2 s' msg c) :
    Delivered s s' msg n c (A.choose s.heap n) := by
  set b := A.choose s.heap n with hb
  have hfresh : size? s.heap b = none := A.choose_fresh _ _
  have hb2 : size? s2.heap b = some n := by
    rw [hheap, hp.heap_eq]
    exact size?_malloc_self A _ _
  have hpool : ∀ p ∈ s.headerPool, p ≠ b := by
    rintro p hmem rfl
    rw [h.pool_live _ hmem] at hfresh
    cases hfresh
  -- A block that is not live after the content was allocated is not the content.
  have hnone : ∀ p, size? s2.heap p = none → p ≠ b ∧ size? s.heap p = none := by
    intro p hnone
    have hne : p ≠ b := by
      rintro rfl
      rw [hb2] at hnone
      cases hnone
    rw [hheap, hp.heap_eq, size?_malloc_of_ne A _ _ hne] at hnone
    exact ⟨hne, hnone⟩
  have hpool2 : s2.headerPool = s.headerPool := hq.pool_eq.trans hp.pool_eq
  have halive : ∀ p, s2.Alive p ↔ s.Alive p := fun p => (hq.alive_iff p).trans (hp.alive_iff p)
  have hblock : c ≠ b ∧ (c ∈ s.headerPool ∨ size? s.heap c = none) := by
    rcases he.block_new with hmem | hn
    · rw [hpool2] at hmem
      exact ⟨hpool c hmem, .inl hmem⟩
    · exact ⟨(hnone c hn).1, .inr (hnone c hn).2⟩
  refine ⟨?_, ?_, ?_, ?_, hblock.1, hblock.2, hfresh, A.choose_ne_null _ _, he.live _ _ hb2, ?_,
    ?_, ?_, ?_, ?_, hp.buffered, ?_, ?_, ?_, ?_, fun hs => he.safe ?_, he.inv⟩
  · intro q
    rw [he.queue_eq, hq.queue_eq, hp.queue_eq, if_congr (and_congr_right fun _ => halive q) rfl rfl]
  · rw [he.header_new, hq.idCounter_eq, hp.idCounter_eq]
    simp [MsgHeader.core, hp.content_eq, hb]
  · intro p hpc
    rw [he.header_old p hpc, hq.header_eq, hp.headers_eq]
  · intro q
    rw [← hp.queue_eq, ← hq.queue_eq]
    exact he.block_not_queue q
  · intro p hmem
    rcases he.pool_sub p hmem with hmem | hn
    · rw [hpool2] at hmem
      exact ⟨hpool p hmem, .inl hmem⟩
    · exact ⟨(hnone p hn).1, .inr (hnone p hn).2⟩
  · intro p k hk
    refine he.live p k ?_
    rw [hheap, hp.heap_eq]
    exact size?_malloc_of_live A _ _ hk
  · intro p
    rw [alive_iff_rest, he.rest_eq, ← alive_iff_rest, halive]
  · rwa [hp.alive_iff] at hdest
  · intro p q
    rw [msgBuffer_eq_rest, he.rest_eq, ← msgBuffer_eq_rest, hq.msgBuffer_eq, hp.msgBuffer_eq]
  · rw [he.idCounter_eq, hq.idCounter_eq, hp.idCounter_eq]
  · rw [he.subscribers_eq, hq.subscribers_eq, hp.subscribers_eq]
  · rw [he.sent_eq, hq.idCounter_eq, hp.idCounter_eq, hq.sent_eq, hp.sent_eq]
  · rw [he.acked_eq, hq.acked_eq, hp.acked_eq]
  · rw [hheap, hp.heap_eq]
    exact hs

/-- Sending a message with a new content, other than a user message that is recorded: it is
delivered, or nothing but the allocation happens. -/
lemma kernelSend_effect (h : HeaderInv s)
    (hb : msg.isBuffered = false) (hok : ok { msg with content := A.choose s.heap n } n) :
    Effect ok dying s (kernelSend A s msg n).2 := by
  have hp : Prepared A s { s with heap := A.malloc s.heap n }
      { msg with content := A.choose s.heap n } n := prepared_malloc hb
  rcases msgSend_cases (hp.headerInv h) { msg with content := A.choose s.heap n } with
    heq | ⟨s1, c, hq, hheap, hdest, he⟩
  · rw [kernelSend, heq]
    exact .quiet (quiet_malloc s n)
  · exact .delivered hok (hp.delivered h hq hheap hdest he)

/-- A message with a new content that is neither a reply nor recorded is delivered to a listed
receiver. -/
lemma kernelSend_delivered (h : HeaderInv s) (msg : MsgHeader) (n : ℕ)
    (hb : msg.isBuffered = false) (hr : msg.isReply = false) (hd : s.Alive msg.toPid) :
    ∃ c, Delivered s (kernelSend A s msg n).2 { msg with content := A.choose s.heap n } n c
      (A.choose s.heap n) := by
  set s1 : Kernel := { s with heap := A.malloc s.heap n }
  set m : MsgHeader := { msg with content := A.choose s.heap n }
  have hp : Prepared A s s1 m n := prepared_malloc hb
  have hd1 : s1.Alive m.toPid := hd
  obtain ⟨c, he⟩ := msgEnqueue_enqueued (hp.headerInv h) m
  rw [← msgSend_of_not_isReply m hr hd1] at he
  exact ⟨c, hp.delivered h (Quiet.refl s1) rfl (.inr hd1) he⟩

lemma userHeader_isBuffered (header : MsgHeader) :
    (s.userHeader header).isBuffered = !(s.userHeader header).isReply := by
  have hu : (s.userHeader header).isUserSpace = true := by
    refine decide_eq_true fun h0 => ?_
    have := congrArg (fun w : BitVec 32 => w.getLsbD 0) h0
    simp [userHeader, flagUserSpace] at this
  rw [MsgHeader.isBuffered, hu, Bool.and_true]

variable {pid : Pid}

lemma alive_modifyProc {f : Process → Process} (p : Pid) :
    (s.modifyProc pid f).Alive p ↔ s.Alive p := by
  by_cases hp : p = pid <;> simp [Alive, modifyProc, hp]

/-- One entry of the buffers of a process that is there is changed. -/
lemma msgBuffer_modifyProc {pid topid : Pid} {f : OrderedMap Pid Ptr → OrderedMap Pid Ptr}
    {v : Option Ptr} (hself : ∀ m, (f m).lookup topid = v)
    (hother : ∀ m q, q ≠ topid → (f m).lookup q = m.lookup q) (halive : s.Alive pid) (p q : Pid) :
    (s.modifyProc pid fun P => { P with msgBuffers := f P.msgBuffers }).msgBuffer p q =
      if p = pid ∧ q = topid then v else s.msgBuffer p q := by
  obtain ⟨P, hP⟩ := isSome_iff_exists.mp halive
  by_cases hp : p = pid
  · subst hp
    by_cases hq : q = topid
    · rw [if_pos ⟨rfl, hq⟩, hq]
      simp [msgBuffer, modifyProc, hP, hself]
    · rw [if_neg fun hc => hq hc.2]
      simp [msgBuffer, modifyProc, hP, hother _ _ hq]
  · rw [if_neg fun hc => hp hc.1]
    simp [msgBuffer, modifyProc, hp]

/-- `proc_send_message` for the running process: the message is refused or must wait, or it is
delivered. -/
lemma procSendMessage_effect (h : HeaderInv s) {header : MsgHeader}
    (hb : header.isBuffered = !header.isReply)
    (hok : ∀ b, ok { header with content := b } header.length) :
    Effect ok dying s (procSendMessage A s header header.fromPid).2 := by
  rw [procSendMessage]
  split
  -- a reply is sent like a message of the kernel, without a buffer
  · rename_i hr
    exact kernelSend_effect h (by rw [hb, hr]; rfl) (hok _)
  rename_i hr
  rw [Bool.not_eq_true] at hr
  split
  · exact .quiet (Quiet.refl s)
  rename_i halive
  simp only [Bool.or_eq_true, Bool.not_eq_true', decide_eq_false_iff_not, not_or, not_not] at halive
  split
  · exact .quiet (Quiet.refl s)
  rename_i hnone
  set b := A.choose s.heap header.length
  set msg : MsgHeader := { header with content := b }
  set s2 : Kernel := Kernel.modifyProc { s with heap := A.malloc s.heap header.length }
    header.fromPid fun p => { p with msgBuffers := p.msgBuffers.put header.toPid b }
  have hbuf : msg.isBuffered = true := by
    have : msg.isBuffered = header.isBuffered := rfl
    rw [this, hb, hr]
    rfl
  have halive2 : ∀ p, s2.Alive p ↔ s.Alive p := alive_modifyProc
  -- the copy of the content is the buffer for this receiver, and no other buffer changes
  have hbuf2 : ∀ p q, s2.msgBuffer p q =
      if msg.isBuffered ∧ p = msg.fromPid ∧ q = msg.toPid then some b else s.msgBuffer p q := by
    intro p q
    have hput := msgBuffer_modifyProc (fun m => OrderedMap.lookup_put_self header.toPid b m)
      (fun m _ hq => OrderedMap.lookup_put_of_ne b m hq) halive.1 p q
    simp only [hbuf, true_and]
    exact hput
  have hprep : Prepared A s s2 msg header.length := by
    refine ⟨?_, rfl, rfl, rfl, rfl, halive2, hbuf2, fun _ => ⟨halive.2, by simpa using hnone⟩,
      rfl, rfl, rfl, rfl⟩
    exact queue_modifyProc fun _ => rfl
  have hd2 : s2.Alive msg.toPid := (halive2 _).mpr halive.2
  -- the receiver is alive, so that the message is queued and not lost
  obtain ⟨c, he⟩ := msgEnqueue_enqueued (hprep.headerInv h) msg
  rw [← msgSend_of_not_isReply msg hr hd2] at he
  exact .delivered (hok b) (hprep.delivered h (Quiet.refl s2) rfl (.inr hd2) he)

/-- The two loops over the subscribers deliver messages. -/
lemma sendToSubscribers_effects {wants : Pid → List KernelMessage → Bool}
    {make : Pid → Ptr → MsgHeader} (hflags : ∀ pid b, (make pid b).isBuffered = false)
    (hcontent : ∀ pid b, (make pid b).content = b) (subs : List (Pid × List KernelMessage))
    (hok : ∀ e ∈ subs, wants e.1 e.2 → ∀ b, ok (make e.1 b) n) (h : ContentInv s) :
    Effects ok dying s (sendToSubscribers A wants n make subs s) := by
  induction subs generalizing s with
  | nil => exact Effects.refl s
  | cons e subs ih =>
    obtain ⟨pid, messages⟩ := e
    rw [sendToSubscribers]
    have hrest := fun e he => hok e (mem_cons_of_mem _ he)
    split
    · rename_i hw
      set b := A.choose s.heap n with hb
      have heq : make pid b = { make pid b with content := b } :=
        (MsgHeader.setContent_eq_self (hcontent pid b)).symm
      have he : Effect ok dying s (kernelSend A s (make pid b) n).2 := by
        refine kernelSend_effect h.toHeaderInv (hflags pid b) ?_
        rw [← hb, ← heq]
        exact hok _ mem_cons_self hw b
      rw [kernelSend, ← hb, ← heq] at he
      exact he.effects.trans (ih hrest (he.contentInv h))
    · exact ih hrest h

/-! ## The effect of acknowledging -/

/-- Freeing a block that is no header keeps the headers. -/
lemma HeaderInv.of_free {t : Kernel} {b : Ptr} (h : HeaderInv s) (hpool : b ∉ s.headerPool)
    (hqueue : ∀ q, b ∉ s.queue q) (htq : ∀ q, t.queue q = s.queue q) (hth : t.headers = s.headers)
    (htp : t.headerPool = s.headerPool) (hheap : t.heap = free s.heap b) : HeaderInv t := by
  refine h.congr htq (fun c => by rw [hth]) htp fun c hc hlive => ?_
  have hne : c ≠ b := by
    rintro rfl
    exact hc.elim hpool fun ⟨q, hq⟩ => hqueue q hq
  rw [hheap, size?_free_of_ne _ hne, hlive]

/-- The content of a queued message is a block that the header pool and the queues do not have, also
after the header was released. -/
lemma ContentInv.content_of_dequeued {s' : Kernel} (h : ContentInv s) {q : Pid}
    (hc : c ∈ s.queue q) (hd : Dequeued s s' c) :
    (size? s'.heap (s.headers c).content).isSome ∧ (s.headers c).content ∉ s'.headerPool ∧
      ∀ p, (s.headers c).content ∉ s'.queue p := by
  have hne : (s.headers c).content ≠ c := by
    intro heq
    refine h.content_not_queue q c hc q ?_
    rw [heq]
    exact hc
  refine ⟨?_, fun hmem => ?_, fun p hmem => ?_⟩
  · rw [hd.size_other _ hne (h.content_not_pool q c hc)]
    exact h.content_live q c hc
  · exact (hd.pool_sub _ hmem).elim (h.content_not_pool q c hc) hne
  · rw [hd.queue_eq] at hmem
    exact h.content_not_queue q c hc p (mem_of_mem_erase hmem)

/-- The two sections of `msg_acknowledge` that take the message out and release its content. -/
lemma releaseContent_removed (h : ContentInv s) {q : Pid} (hc : c ∈ s.queue q) :
    Removed s ((s.dequeue c).releaseContent (s.headers c)) c := by
  have hd := dequeue_dequeued h.toHeaderInv hc
  have hto := h.queue_to q c hc
  obtain ⟨hlive1, hpool1, hqueue1⟩ := h.content_of_dequeued hc hd
  set header := s.headers c with hheader
  set s1 := s.dequeue c
  have halive1 : ∀ p, s1.Alive p ↔ s.Alive p := fun p => by
    rw [alive_iff_rest, hd.rest_eq, ← alive_iff_rest]
  have hbuf1 : ∀ p r, s1.msgBuffer p r = s.msgBuffer p r := fun p r => by
    rw [msgBuffer_eq_rest, hd.rest_eq, ← msgBuffer_eq_rest]
  have hsize : ∀ p, p ≠ c → p ∉ s.headerPool → p ≠ header.content →
      size? (free s1.heap header.content) p = size? s.heap p := fun p hpc hpool hpb =>
    (size?_free_of_ne _ hpb).trans (hd.size_other p hpc hpool)
  rw [releaseContent]
  split
  · rename_i hb
    rw [procFreeMessageBuffer]
    cases hP : s1.procs header.fromPid with
    | none =>
      -- The sender has ended: its buffer table went with it and nothing is released.
      have hdead : ¬ s.Alive header.fromPid := by
        rw [← halive1, Alive, hP]
        exact Bool.false_ne_true
      refine { hd with
        mem := ⟨q, hc⟩
        size_other := fun p hpc hpool _ => hd.size_other p hpc hpool
        alive_iff := halive1
        msgBuffer_eq := fun p r => ?_ }
      rw [hbuf1]
      split
      · rename_i hpr
        rw [Alive, not_isSome_iff_eq_none] at hdead
        simp [msgBuffer, hpr.2.1, ← hheader, hdead]
      · rfl
    | some P =>
      have halive : s1.Alive header.fromPid := by
        rw [Alive, hP]
        rfl
      have hrec : P.msgBuffers.lookup header.toPid = some header.content := by
        have := h.buffered q c hc hb ((halive1 _).mp halive)
        rw [← hheader, ← hbuf1, msgBuffer, hP] at this
        rw [hto]
        exact this
      have hnull : header.content ≠ 0 := h.content_ne_null q c hc
      simp only [hrec, if_neg hnull]
      have htq : ∀ p, (s1.modifyProc header.fromPid fun p =>
          { p with msgBuffers := p.msgBuffers.erase header.toPid }).queue p = s1.queue p :=
        queue_modifyProc fun _ => rfl
      refine { hd with
        mem := ⟨q, hc⟩
        queue_eq := fun p => (htq p).trans (hd.queue_eq p)
        size_other := hsize
        alive_iff := fun p => (alive_modifyProc p).trans (halive1 p)
        msgBuffer_eq := fun p r => ?_
        safe := fun hs => safeFrees_free hlive1 (hd.safe hs)
        inv := hd.inv.of_free hpool1 hqueue1 htq rfl rfl rfl }
      have herase := msgBuffer_modifyProc (fun m => OrderedMap.lookup_erase_self header.toPid m)
        (fun m _ hr => OrderedMap.lookup_erase_of_ne m hr) halive p r
      simp only [← hheader, ← hbuf1, hb, true_and]
      exact herase
  · rename_i hb
    refine { hd with
      mem := ⟨q, hc⟩
      size_other := hsize
      alive_iff := halive1
      msgBuffer_eq := fun p r => ?_
      safe := fun hs => safeFrees_free hlive1 (hd.safe hs)
      inv := hd.inv.of_free hpool1 hqueue1 (fun _ => rfl) rfl rfl rfl }
    rw [if_neg fun hpr => hb hpr.1]
    exact hbuf1 p r

lemma mem_queue_of_findMsg {id : ℕ} (h : s.findMsg id pid = some c) :
    c ∈ s.queue pid ∧ (s.headers c).id = id := by
  rw [findMsg] at h
  exact ⟨mem_of_find?_eq_some h, by simpa using find?_some h⟩

section

variable (h : ContentInv s)
  (hok : ∀ m : MsgHeader, m.isUserSpace = false → m.length ≤ sizeofMsgHeader → ok m sizeofMsgHeader)

include h hok

lemma msgSendReceipt_effects (omsg : MsgHeader) :
    Effects ok dying s (msgSendReceipt A junk s omsg) := by
  refine sendToSubscribers_effects (fun _ _ => MsgHeader.isBuffered_of_flags_zero rfl)
    (fun _ _ => rfl) _ ?_ h
  intro e _ _ b
  exact hok _ (MsgHeader.isUserSpace_of_flags_zero rfl) le_rfl

lemma msgAcknowledge_effects (msg : MsgHeader) :
    Effects ok dying s (msgAcknowledge A junk s msg) := by
  rw [msgAcknowledge]
  split
  · exact Effects.refl s
  · rename_i c hc
    obtain ⟨hmem, -⟩ := mem_queue_of_findMsg hc
    have hr := releaseContent_removed h hmem
    simp only [ackSection, hc, if_neg (h.content_ne_null _ c hmem)]
    exact (Effect.removed hr).effects.trans (msgSendReceipt_effects (hr.contentInv h) hok _)

end

/-! ## The effect of events and of the end of a process -/

lemma msgSendEvent_effects (h : ContentInv s) (message : KernelMessage) (n : ℕ)
    (hok : ∀ e ∈ s.subscribers.entries, message ∈ e.2 → ∀ b,
      ok (eventHeader junk message e.1 b) n) :
    Effects ok dying s (msgSendEvent A junk s message n) := by
  refine sendToSubscribers_effects (fun _ _ => MsgHeader.isBuffered_of_flags_zero rfl)
    (fun _ _ => rfl) _ ?_ h
  intro e he hw b
  exact hok e he (by simpa using hw) b

lemma msgClear_unlist (pid : Pid) :
    msgClear (s.unlist pid) pid =
      some { s.unlist pid with subscribers := s.subscribers.erase pid } := by
  have hq : (s.unlist pid).queue pid = [] := by simp [queue, unlist]
  rw [msgClear, hq]
  rfl

lemma unlisted_unlist (s : Kernel) (pid : Pid) (subs : OrderedMap Pid (List KernelMessage)) :
    Unlisted s { s.unlist pid with subscribers := subs } pid := by
  refine ⟨?_, rfl, rfl, rfl, ?_, ?_, rfl, rfl, rfl⟩
  · intro q
    by_cases hq : q = pid
    · simp [queue, unlist, hq]
    · cases hP : s.procs q with
      | none => simp [queue, unlist, hq, hP]
      | some P =>
        simp only [queue, unlist, hq, hP, if_false, map_some]
        split <;> rfl
  · intro p
    by_cases hp : p = pid <;> simp [Alive, unlist, hp]
  · intro p q hp
    cases hP : s.procs p with
    | none => simp [msgBuffer, unlist, hp, hP]
    | some P =>
      simp only [msgBuffer, unlist, hp, hP, if_false, map_some]
      split <;> rfl

/-- `proc_end` of a process while no debugger is told about it. -/
lemma procEnd_effects (h : ContentInv s) {stackPtr : Ptr}
    (hd : s.debugEventSends pid = false) (hdying : s.Alive pid → pid ≠ 0 → dying s pid)
    (hok : ∀ e ∈ (s.subscribers.erase pid).entries, .processEnd ∈ e.2 → ∀ b,
      ok (eventHeader junk .processEnd e.1 b) 8)
    (hs : procEnd A junk s pid stackPtr = some s') : Effects ok dying s s' := by
  rw [procEnd] at hs
  split at hs
  · cases hs
    exact Effects.refl s
  split at hs
  · cases hs
  rename_i hlisted _
  rw [not_or] at hlisted
  have halive : s.Alive pid := by
    rw [Alive, isSome_iff_ne_none]
    intro hnone
    exact hlisted.2 (by rw [procGetStatus, hnone]; rfl)
  simp only [debugEventNotify, hd, Bool.false_eq_true, if_false, msgClear_unlist,
    map_some, some.injEq] at hs
  subst hs
  set subs := s.subscribers.erase pid
  have hu := unlisted_unlist s pid subs
  exact (Effect.unlisted (hdying halive hlisted.1) hu).effects.trans
    (msgSendEvent_effects (hu.contentInv h) _ _ hok)

/-! ## The effect of an action -/

lemma entered_eq_some {s1 : Kernel} (h : s.entered pid = some s1) :
    s.Alive pid ∧ s1 = { s with currentPid := pid } := by
  rw [entered] at h
  split at h
  · cases h
    exact ⟨‹_›, rfl⟩
  · cases h

/-- What an action may deliver and which processes it may end, for its effect to be one of
owned contents: `debug_event_notify` must not send. -/
def Allowed (ok : MsgHeader → ℕ → Prop) (dying : Kernel → Pid → Prop) (s : Kernel) :
    Action → Prop
  | .send pid header => ∀ b,
      ok { Kernel.userHeader { s with currentPid := pid } header with content := b } header.length
  | .kernelSend msg size => ∀ b, ok { msg with content := b } size
  | .acknowledge _ _ _ => ∀ m : MsgHeader, m.isUserSpace = false →
      m.length ≤ sizeofMsgHeader → ok m sizeofMsgHeader
  | .procEnd _ target junk _ =>
      s.debugEventSends target = false ∧ (s.Alive target → target ≠ 0 → dying s target) ∧
        ∀ e ∈ (s.subscribers.erase target).entries, .processEnd ∈ e.2 → ∀ b,
          ok (eventHeader junk .processEnd e.1 b) 8
  | .sendEvent message size junk => ∀ e ∈ s.subscribers.entries, message ∈ e.2 → ∀ b,
      ok (eventHeader junk message e.1 b) size
  | .debugEvent pid _ _ => s.debugEventSends pid = false
  | .recv _ | .recvFiltered _ _ | .getcontent _ _ _ | .messageWait _ => True

/-- The effect of an action: a sequence of changes, which starts with entering the kernel. -/
lemma step_effects (h : ContentInv s) {a : Action} (hstep : step A s a = some s')
    (hdying : ∀ s pid q, dying s pid → dying { s with currentPid := q } pid)
    (ha : Allowed ok dying s a) : Effects ok dying s s' := by
  -- every call enters the kernel first: that changes only who is running
  have hcur : ∀ pid, Effects ok dying s { s with currentPid := pid } :=
    fun pid => (Effect.quiet (quiet_currentPid s pid)).effects
  have hinv : ∀ pid, ContentInv { s with currentPid := pid } :=
    fun pid => (hcur pid).contentInv h
  cases a with
  | send pid header =>
    rw [step, bind_eq_some_iff] at hstep
    obtain ⟨s1, hent, hsend⟩ := hstep
    obtain ⟨-, rfl⟩ := entered_eq_some hent
    rw [btSend] at hsend
    split at hsend
    · cases hsend
    · simp only [map_some, some.injEq] at hsend
      subst hsend
      exact (hcur pid).trans (procSendMessage_effect (hinv pid).toHeaderInv
        (userHeader_isBuffered header) ha).effects
  | kernelSend msg size =>
    rw [step] at hstep
    split at hstep
    · cases hstep
    · rename_i hu
      cases hstep
      exact (kernelSend_effect h.toHeaderInv (by simp [MsgHeader.isBuffered, hu]) (ha _)).effects
  | recv pid =>
    rw [step, map_eq_some_iff] at hstep
    obtain ⟨s1, hent, rfl⟩ := hstep
    obtain ⟨-, rfl⟩ := entered_eq_some hent
    exact (hcur pid).trans (Effect.quiet (quiet_msgRecv _ pid)).effects
  | recvFiltered pid filter =>
    obtain ⟨-, rfl⟩ := entered_eq_some hstep
    exact hcur pid
  | getcontent pid msg buffersize =>
    obtain ⟨-, rfl⟩ := entered_eq_some hstep
    exact hcur pid
  | acknowledge pid msg junk =>
    rw [step, map_eq_some_iff] at hstep
    obtain ⟨s1, hent, rfl⟩ := hstep
    obtain ⟨-, rfl⟩ := entered_eq_some hent
    exact (hcur pid).trans (msgAcknowledge_effects (hinv pid) ha msg)
  | messageWait pid =>
    obtain ⟨-, rfl⟩ := entered_eq_some hstep
    exact hcur pid
  | procEnd pid target junk stackPtr =>
    rw [step, bind_eq_some_iff] at hstep
    obtain ⟨s1, hent, hend⟩ := hstep
    obtain ⟨-, rfl⟩ := entered_eq_some hent
    refine (hcur pid).trans (procEnd_effects (hinv pid) ha.1 ?_ ha.2.2 hend)
    exact fun halive h0 => hdying s target pid (ha.2.1 halive h0)
  | sendEvent message size junk =>
    rw [step, some.injEq] at hstep
    subst hstep
    exact msgSendEvent_effects h message size ha
  | debugEvent pid junk stackPtr =>
    have hd : s.debugEventSends pid = false := ha
    simp only [step, debugEventNotify, hd, Bool.false_eq_true, if_false, some.injEq] at hstep
    subst hstep
    exact Effects.refl s

/-- A property that holds initially and that every change keeps holds in every state reached by
allowed actions, and so does the ownership of contents. -/
lemma reaches_invariant {guard : Kernel → Action → Prop} {P : Kernel → Prop}
    (hguard : ∀ s a, guard s a → Allowed ok dying s a)
    (hdying : ∀ s pid q, dying s pid → dying { s with currentPid := q } pid)
    (hinit : ∀ s, Initial s → P s) (hP : ∀ s s', ContentInv s → P s → Effect ok dying s s' → P s')
    (hs : (messaging A).Reaches guard s) : ContentInv s ∧ P s := by
  refine hs.invariant (P := fun s => ContentInv s ∧ P s)
    (fun s (h : Initial s) => ⟨h.contentInv, hinit s h⟩) ?_
  rintro s a s' ⟨hi, hp⟩ hg hstep
  exact (step_effects hi hstep hdying (hguard s a hg)).invariant hP hi hp

/-! ## A state to start from -/

/-- The kernel and the processes 1 and 2, without messages. The pool has two blocks, and
`debuggerPid` is the registered debugger. -/
def started (debuggerPid : Pid) (subscribers : OrderedMap Pid (List KernelMessage)) : Kernel where
  procs pid := if pid ≤ 2 then some ⟨0, .running, .empty, []⟩ else none
  currentPid := 0
  headers _ := default
  headerPool := [1, 2]
  subscribers := subscribers
  idCounter := 0
  heap := [.malloc 2 sizeofMsgHeader, .malloc 1 sizeofMsgHeader]
  debuggerPid := debuggerPid
  debugExtId := 0
  sent := []
  acked := []

lemma started_initial (debuggerPid : Pid) (subscribers : OrderedMap Pid (List KernelMessage)) :
    Initial (started debuggerPid subscribers) where
  alive_zero := rfl
  queue_nil q := by by_cases hq : q ≤ 2 <;> simp [queue, started, hq]
  msgBuffer_none p q := by by_cases hp : p ≤ 2 <;> simp [msgBuffer, started, hp]
  pool_nodup := by simp [started]
  pool_live := by simp [started, size?]
  safe := by simp [started, SafeFrees]
  idCounter_zero := rfl
  sent_nil := rfl
  acked_nil := rfl

end Kernel

end Messaging
