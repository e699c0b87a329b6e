import Btos.Messaging.HeaderPool

/-!
# What messaging does to the kernel state

Whatever a messaging operation goes through (new blocks, replied flags, the pool, the buffer
table of the sender), its effect on the state is a sequence of four kinds of change, each of
them a record that says everything about the states before and after: `Quiet`, `Delivered`,
`Removed` and `Unlisted`.

`ContentInv` says who owns the contents: every queued message has a live content of its own, no
content is a header block, and the content of a user message is the one its sender has recorded
for the receiver. It is kept by all four (`Effect.contentInv`), and `Effects.invariant` turns
a proof about the four kinds of change into one about a sequence of them.
-/

open List Option

namespace Messaging

open Heap

/-- The header without the two flags that are set while the message is queued. -/
def MsgHeader.core (h : MsgHeader) : MsgHeader :=
  { h with recieved := false, replied := false }

namespace MsgHeader

variable {h h' : MsgHeader}

lemma isUserSpace_of_flags_zero (e : h.flags = 0) : h.isUserSpace = false := by
  simp [isUserSpace, e]

lemma isBuffered_of_flags_zero (e : h.flags = 0) : h.isBuffered = false := by
  rw [isBuffered, isUserSpace_of_flags_zero e, Bool.and_false]

lemma setContent_eq_self {b : Ptr} (e : h.content = b) : { h with content := b } = h := by
  rw [← e]

section

variable (e : h.core = h'.core)
include e

lemma id_eq_of_core : h.id = h'.id := congrArg (fun m => m.id) e

lemma toPid_eq_of_core : h.toPid = h'.toPid :=
  congrArg (fun m => m.toPid) e

lemma fromPid_eq_of_core : h.fromPid = h'.fromPid :=
  congrArg (fun m => m.fromPid) e

lemma content_eq_of_core : h.content = h'.content :=
  congrArg (fun m => m.content) e

lemma length_eq_of_core : h.length = h'.length :=
  congrArg (fun m => m.length) e

lemma isBuffered_eq_of_core : h.isBuffered = h'.isBuffered :=
  congrArg (fun m => m.isBuffered) e

end

end MsgHeader

namespace Kernel

variable {A : Allocator} {s s' s'' : Kernel}

/-! ## Ownership of contents -/

/-- Every queued message owns its content, and the content of a message from user space is the
one its sender has recorded for the receiver. -/
structure ContentInv (s : Kernel) : Prop extends HeaderInv s where
  safe : SafeFrees s.heap
  content_live : ∀ q, ∀ c ∈ s.queue q, (size? s.heap (s.headers c).content).isSome
  content_ne_null : ∀ q, ∀ c ∈ s.queue q, (s.headers c).content ≠ 0
  content_inj : ∀ q q' c c', c ∈ s.queue q → c' ∈ s.queue q' →
    (s.headers c).content = (s.headers c').content → c = c'
  content_not_pool : ∀ q, ∀ c ∈ s.queue q, (s.headers c).content ∉ s.headerPool
  content_not_queue : ∀ q, ∀ c ∈ s.queue q, ∀ q', (s.headers c).content ∉ s.queue q'
  buffered : ∀ q, ∀ c ∈ s.queue q, (s.headers c).isBuffered → s.Alive (s.headers c).fromPid →
    s.msgBuffer (s.headers c).fromPid q = some (s.headers c).content

/-! ## The four kinds of change -/

/-- No message is added or removed: blocks may have been allocated, and the `recieved` and
`replied` flags of headers may have changed. -/
structure Quiet (s s' : Kernel) : Prop where
  queue_eq : ∀ q, s'.queue q = s.queue q
  header_eq : ∀ p, (s'.headers p).core = (s.headers p).core
  pool_eq : s'.headerPool = s.headerPool
  live : ∀ p n, size? s.heap p = some n → size? s'.heap p = some n
  safe : SafeFrees s.heap → SafeFrees s'.heap
  rest_eq : ∀ p, s'.rest p = s.rest p
  idCounter_eq : s'.idCounter = s.idCounter
  subscribers_eq : s'.subscribers = s.subscribers
  sent_eq : s'.sent = s.sent
  acked_eq : s'.acked = s.acked

/-- The message `msg` was put in the queue of its receiver, in the header block `c` and with
the new block `b` of `n` bytes as content; the sender has recorded the content if it is a user
message that is not a reply. -/
structure Delivered (s s' : Kernel) (msg : MsgHeader) (n : ℕ) (c b : Ptr) : Prop where
  queue_eq : ∀ q,
    s'.queue q = if q = msg.toPid ∧ s.Alive q then s.queue q ++ [c] else s.queue q
  header_new : (s'.headers c).core =
    { msg.core with id := (s.idCounter + 1) % 2 ^ 64, valid := true, content := b }
  header_old : ∀ p, p ≠ c → (s'.headers p).core = (s.headers p).core
  block_not_queue : ∀ q, c ∉ s.queue q
  block_ne : c ≠ b
  block_old : c ∈ s.headerPool ∨ size? s.heap c = none
  content_fresh : size? s.heap b = none
  content_ne_null : b ≠ 0
  content_size : size? s'.heap b = some n
  pool_sub : ∀ p ∈ s'.headerPool, p ≠ b ∧ (p ∈ s.headerPool ∨ size? s.heap p = none)
  live : ∀ p k, size? s.heap p = some k → size? s'.heap p = some k
  alive_iff : ∀ p, s'.Alive p ↔ s.Alive p
  dest : msg.toPid = 0 ∨ s.Alive msg.toPid
  msgBuffer_eq : ∀ p q, s'.msgBuffer p q =
    if msg.isBuffered ∧ p = msg.fromPid ∧ q = msg.toPid then some b else s.msgBuffer p q
  buffered : msg.isBuffered → s.Alive msg.toPid ∧ s.msgBuffer msg.fromPid msg.toPid = none
  idCounter_eq : s'.idCounter = (s.idCounter + 1) % 2 ^ 64
  subscribers_eq : s'.subscribers = s.subscribers
  sent_eq : s'.sent = ((s.idCounter + 1) % 2 ^ 64, msg.toPid) :: s.sent
  acked_eq : s'.acked = s.acked
  safe : SafeFrees s.heap → SafeFrees s'.heap
  inv : HeaderInv s'

/-- The message in the block `c` was taken out of its queue and its content was released: to
the heap, or from the buffers of its sender if it is recorded there. -/
structure Removed (s s' : Kernel) (c : Ptr) : Prop where
  mem : ∃ q, c ∈ s.queue q
  queue_eq : ∀ q, s'.queue q = (s.queue q).erase c
  headers_eq : s'.headers = s.headers
  pool_sub : ∀ p ∈ s'.headerPool, p ∈ s.headerPool ∨ p = c
  size_other : ∀ p, p ≠ c → p ∉ s.headerPool → p ≠ (s.headers c).content →
    size? s'.heap p = size? s.heap p
  alive_iff : ∀ p, s'.Alive p ↔ s.Alive p
  msgBuffer_eq : ∀ p q, s'.msgBuffer p q =
    if (s.headers c).isBuffered ∧ p = (s.headers c).fromPid ∧ q = (s.headers c).toPid then none
    else s.msgBuffer p q
  idCounter_eq : s'.idCounter = s.idCounter
  subscribers_eq : s'.subscribers = s.subscribers
  sent_eq : s'.sent = s.sent
  acked_eq : s'.acked = (s.headers c).id :: s.acked
  safe : SafeFrees s.heap → SafeFrees s'.heap
  inv : HeaderInv s'

/-- The process `pid` was taken out of the process list, its queue with it. -/
structure Unlisted (s s' : Kernel) (pid : Pid) : Prop where
  queue_eq : ∀ q, s'.queue q = if q = pid then [] else s.queue q
  headers_eq : s'.headers = s.headers
  pool_eq : s'.headerPool = s.headerPool
  heap_eq : s'.heap = s.heap
  alive_iff : ∀ p, s'.Alive p ↔ p ≠ pid ∧ s.Alive p
  msgBuffer_eq : ∀ p q, p ≠ pid → s'.msgBuffer p q = s.msgBuffer p q
  idCounter_eq : s'.idCounter = s.idCounter
  sent_eq : s'.sent = s.sent
  acked_eq : s'.acked = s.acked

/-- One change. Delivered messages and the size of their contents satisfy `ok`, and processes
that disappear satisfy `dying` in the state before. -/
inductive Effect (ok : MsgHeader → ℕ → Prop) (dying : Kernel → Pid → Prop) (s s' : Kernel) : Prop
  | quiet : Quiet s s' → Effect ok dying s s'
  | delivered {msg : MsgHeader} {n : ℕ} {c b : Ptr} :
      ok msg n → Delivered s s' msg n c b → Effect ok dying s s'
  | removed {c : Ptr} : Removed s s' c → Effect ok dying s s'
  | unlisted {pid : Pid} : dying s pid → Unlisted s s' pid → Effect ok dying s s'

/-- A sequence of changes. -/
def Effects (ok : MsgHeader → ℕ → Prop) (dying : Kernel → Pid → Prop) : Kernel → Kernel → Prop :=
  Relation.ReflTransGen (Effect ok dying)

/-! ## Quiet changes -/

lemma Quiet.refl (s : Kernel) : Quiet s s :=
  ⟨fun _ => rfl, fun _ => rfl, rfl, fun _ _ h => h, id, fun _ => rfl, rfl, rfl, rfl, rfl⟩

lemma Quiet.alive_iff (h : Quiet s s') (q : Pid) : s'.Alive q ↔ s.Alive q := by
  rw [alive_iff_rest, alive_iff_rest, h.rest_eq]

lemma Quiet.msgBuffer_eq (h : Quiet s s') (p q : Pid) : s'.msgBuffer p q = s.msgBuffer p q := by
  rw [msgBuffer_eq_rest, msgBuffer_eq_rest, h.rest_eq]

lemma Quiet.headerInv (h : Quiet s s') (hi : HeaderInv s) : HeaderInv s' :=
  hi.congr h.queue_eq (fun c => MsgHeader.toPid_eq_of_core (h.header_eq c)) h.pool_eq
    fun c _ => h.live c _

lemma quiet_malloc (s : Kernel) (n : ℕ) : Quiet s { s with heap := A.malloc s.heap n } :=
  ⟨fun _ => rfl, fun _ => rfl, rfl, fun _ _ h => size?_malloc_of_live A _ _ h, id, fun _ => rfl,
    rfl, rfl, rfl, rfl⟩

lemma quiet_currentPid (s : Kernel) (pid : Pid) : Quiet s { s with currentPid := pid } :=
  ⟨fun _ => rfl, fun _ => rfl, rfl, fun _ _ h => h, id, fun _ => rfl, rfl, rfl, rfl, rfl⟩

lemma quiet_markReplied (s : Kernel) (pid : Pid) (id : ℕ) : Quiet s (s.markReplied pid id) := by
  refine ⟨fun _ => rfl, fun p => ?_, rfl, fun _ _ h => h, fun h => h, fun _ => rfl, rfl, rfl, rfl,
    rfl⟩
  simp only [markReplied]
  split <;> rfl

lemma quiet_msgRecv (s : Kernel) (pid : Pid) : Quiet s (s.msgRecv pid).2 := by
  rw [msgRecv]
  split
  · exact Quiet.refl s
  · refine ⟨fun _ => rfl, fun p => ?_, rfl, fun _ _ h => h, fun h => h, fun _ => rfl, rfl, rfl,
      rfl, rfl⟩
    rename_i c _ _
    by_cases hp : p = c
    · subst hp
      simp [MsgHeader.core]
    · simp [Function.update_of_ne hp]

/-! ## Every change keeps the ownership of contents -/

lemma Quiet.contentInv (h : Quiet s s') (hi : ContentInv s) : ContentInv s' where
  toHeaderInv := h.headerInv hi.toHeaderInv
  safe := h.safe hi.safe
  content_live q c hc := by
    obtain ⟨n, hn⟩ := isSome_iff_exists.mp (hi.content_live q c (h.queue_eq q ▸ hc))
    rw [MsgHeader.content_eq_of_core (h.header_eq c), h.live _ n hn]
    rfl
  content_ne_null q c hc := by
    rw [MsgHeader.content_eq_of_core (h.header_eq c)]
    exact hi.content_ne_null q c (h.queue_eq q ▸ hc)
  content_inj q q' c c' hc hc' heq := by
    rw [MsgHeader.content_eq_of_core (h.header_eq c),
      MsgHeader.content_eq_of_core (h.header_eq c')] at heq
    exact hi.content_inj q q' c c' (h.queue_eq q ▸ hc) (h.queue_eq q' ▸ hc') heq
  content_not_pool q c hc := by
    rw [MsgHeader.content_eq_of_core (h.header_eq c), h.pool_eq]
    exact hi.content_not_pool q c (h.queue_eq q ▸ hc)
  content_not_queue q c hc q' := by
    rw [MsgHeader.content_eq_of_core (h.header_eq c), h.queue_eq]
    exact hi.content_not_queue q c (h.queue_eq q ▸ hc) q'
  buffered q c hc hb ha := by
    rw [MsgHeader.fromPid_eq_of_core (h.header_eq c)] at ha ⊢
    rw [MsgHeader.isBuffered_eq_of_core (h.header_eq c)] at hb
    rw [MsgHeader.content_eq_of_core (h.header_eq c), h.msgBuffer_eq]
    exact hi.buffered q c (h.queue_eq q ▸ hc) hb ((h.alive_iff _).mp ha)

namespace Delivered

variable {msg : MsgHeader} {n : ℕ} {c b : Ptr}

section

variable (h : Delivered s s' msg n c b)
include h

variable {q : Pid} {p : Ptr}

lemma mem_queue (hp : p ∈ s'.queue q) :
    (p ∈ s.queue q ∧ p ≠ c) ∨ (p = c ∧ q = msg.toPid ∧ s.Alive q) := by
  rw [h.queue_eq] at hp
  split at hp
  · rename_i hq
    rcases mem_append.mp hp with hp | hp
    · exact .inl ⟨hp, fun heq => h.block_not_queue q (heq ▸ hp)⟩
    · exact .inr ⟨mem_singleton.mp hp, hq⟩
  · exact .inl ⟨hp, fun heq => h.block_not_queue q (heq ▸ hp)⟩

lemma content_new : (s'.headers c).content = b :=
  (congrArg MsgHeader.content h.header_new : (s'.headers c).core.content = _)

lemma fromPid_new : (s'.headers c).fromPid = msg.fromPid :=
  (congrArg MsgHeader.fromPid h.header_new : (s'.headers c).core.fromPid = _)

lemma isBuffered_new : (s'.headers c).isBuffered = msg.isBuffered :=
  (congrArg MsgHeader.isBuffered h.header_new : (s'.headers c).core.isBuffered = _)

lemma id_new : (s'.headers c).id = (s.idCounter + 1) % 2 ^ 64 :=
  (congrArg MsgHeader.id h.header_new : (s'.headers c).core.id = _)

lemma length_new : (s'.headers c).length = msg.length :=
  (congrArg MsgHeader.length h.header_new : (s'.headers c).core.length = _)

/-- The content of an old message is not the new content, nor the new header block. -/
lemma content_old (hi : ContentInv s) (hp : p ∈ s.queue q) :
    (s'.headers p).content = (s.headers p).content ∧ (s.headers p).content ≠ b ∧
      (s.headers p).content ≠ c := by
  have hpc : p ≠ c := fun heq => h.block_not_queue q (heq ▸ hp)
  have hlive := hi.content_live q p hp
  refine ⟨MsgHeader.content_eq_of_core (h.header_old p hpc), fun heq => ?_, fun heq => ?_⟩
  · rw [heq, h.content_fresh] at hlive
    cases hlive
  · rcases h.block_old with hpool | hnone
    · exact hi.content_not_pool q p hp (heq ▸ hpool)
    · rw [heq, hnone] at hlive
      cases hlive

lemma contentInv (hi : ContentInv s) : ContentInv s' where
  toHeaderInv := h.inv
  safe := h.safe hi.safe
  content_live q p hp := by
    rcases h.mem_queue hp with ⟨hp, -⟩ | ⟨rfl, -⟩
    · obtain ⟨k, hk⟩ := isSome_iff_exists.mp (hi.content_live q p hp)
      rw [(h.content_old hi hp).1, h.live _ k hk]
      rfl
    · rw [h.content_new, h.content_size]
      rfl
  content_ne_null q p hp := by
    rcases h.mem_queue hp with ⟨hp, -⟩ | ⟨rfl, -⟩
    · rw [(h.content_old hi hp).1]
      exact hi.content_ne_null q p hp
    · rw [h.content_new]
      exact h.content_ne_null
  content_inj q q' p p' hp hp' heq := by
    rcases h.mem_queue hp with ⟨hp, -⟩ | ⟨rfl, -⟩ <;>
      rcases h.mem_queue hp' with ⟨hp', -⟩ | ⟨rfl, -⟩
    · rw [(h.content_old hi hp).1, (h.content_old hi hp').1] at heq
      exact hi.content_inj q q' p p' hp hp' heq
    · rw [(h.content_old hi hp).1, h.content_new] at heq
      exact absurd heq (h.content_old hi hp).2.1
    · rw [(h.content_old hi hp').1, h.content_new] at heq
      exact absurd heq.symm (h.content_old hi hp').2.1
    · rfl
  content_not_pool q p hp hpool := by
    rcases h.mem_queue hp with ⟨hp, -⟩ | ⟨rfl, -⟩
    · rw [(h.content_old hi hp).1] at hpool
      rcases (h.pool_sub _ hpool).2 with hpool | hnone
      · exact hi.content_not_pool q p hp hpool
      · have hlive := hi.content_live q p hp
        rw [hnone] at hlive
        cases hlive
    · rw [h.content_new] at hpool
      exact (h.pool_sub _ hpool).1 rfl
  content_not_queue q p hp q' hmem := by
    rcases h.mem_queue hp with ⟨hp, -⟩ | ⟨rfl, -⟩
    · rw [(h.content_old hi hp).1] at hmem
      rcases h.mem_queue hmem with ⟨hmem, -⟩ | ⟨heq, -⟩
      · exact hi.content_not_queue q p hp q' hmem
      · exact (h.content_old hi hp).2.2 heq
    · rw [h.content_new] at hmem
      rcases h.mem_queue hmem with ⟨hmem, -⟩ | ⟨heq, -⟩
      · have hlive := hi.queue_live q' b hmem
        rw [h.content_fresh] at hlive
        cases hlive
      · exact h.block_ne heq.symm
  buffered q p hp hb ha := by
    rcases h.mem_queue hp with ⟨hp, hpc⟩ | ⟨rfl, hq, -⟩
    · have hcore := h.header_old p hpc
      rw [MsgHeader.fromPid_eq_of_core hcore] at ha ⊢
      rw [MsgHeader.isBuffered_eq_of_core hcore] at hb
      have hold := hi.buffered q p hp hb ((h.alive_iff _).mp ha)
      rw [(h.content_old hi hp).1, h.msgBuffer_eq, hold]
      -- A sender that has a content recorded for the receiver does not send to it again.
      refine if_neg fun hnew => ?_
      have hnone := (h.buffered hnew.1).2
      rw [← hnew.2.1, ← hnew.2.2, hold] at hnone
      cases hnone
    · rw [h.isBuffered_new] at hb
      rw [h.fromPid_new, h.content_new, h.msgBuffer_eq, hq, if_pos ⟨hb, rfl, rfl⟩]

end

end Delivered

namespace Removed

variable {c : Ptr}

lemma mem_queue_iff (h : Removed s s' c) (hi : HeaderInv s) {q : Pid} {p : Ptr} :
    p ∈ s'.queue q ↔ p ∈ s.queue q ∧ p ≠ c := by
  rw [h.queue_eq, (hi.queue_nodup q).mem_erase_iff, and_comm]

section

variable (h : Removed s s' c) (hi : ContentInv s) {q : Pid} {p : Ptr} (hp : p ∈ s'.queue q)
include h hi hp

lemma queued : p ∈ s.queue q ∧ p ≠ c :=
  (h.mem_queue_iff hi.toHeaderInv).mp hp

lemma size_content : size? s'.heap (s.headers p).content = size? s.heap (s.headers p).content := by
  obtain ⟨hp, hpc⟩ := h.queued hi hp
  obtain ⟨q', hc⟩ := h.mem
  refine h.size_other _ (fun heq => ?_) (hi.content_not_pool q p hp) fun heq => ?_
  · exact hi.content_not_queue q p hp q' (heq ▸ hc)
  · exact hpc (hi.content_inj q q' p c hp hc heq)

end

lemma contentInv (h : Removed s s' c) (hi : ContentInv s) : ContentInv s' where
  toHeaderInv := h.inv
  safe := h.safe hi.safe
  content_live q p hp := by
    rw [h.headers_eq, h.size_content hi hp]
    exact hi.content_live q p (h.queued hi hp).1
  content_ne_null q p hp := by
    rw [h.headers_eq]
    exact hi.content_ne_null q p (h.queued hi hp).1
  content_inj q q' p p' hp hp' heq := by
    rw [h.headers_eq] at heq
    exact hi.content_inj q q' p p' (h.queued hi hp).1 (h.queued hi hp').1 heq
  content_not_pool q p hp hpool := by
    obtain ⟨hp, -⟩ := h.queued hi hp
    obtain ⟨q', hc⟩ := h.mem
    rw [h.headers_eq] at hpool
    rcases h.pool_sub _ hpool with hpool | heq
    · exact hi.content_not_pool q p hp hpool
    · exact hi.content_not_queue q p hp q' (heq ▸ hc)
  content_not_queue q p hp q' hmem := by
    rw [h.headers_eq] at hmem
    exact hi.content_not_queue q p (h.queued hi hp).1 q' (h.queued hi hmem).1
  buffered q p hp hb ha := by
    obtain ⟨hp, hpc⟩ := h.queued hi hp
    obtain ⟨q', hc⟩ := h.mem
    rw [h.headers_eq] at hb ha ⊢
    have hold := hi.buffered q p hp hb ((h.alive_iff _).mp ha)
    rw [h.msgBuffer_eq, hold]
    -- Two user messages from one sender to one receiver would have the same content.
    refine if_neg fun hnew => hpc ?_
    have hto := hi.queue_to q' c hc
    have hcbuf := hi.buffered q' c hc hnew.1 (hnew.2.1 ▸ (h.alive_iff _).mp ha)
    rw [← hnew.2.1, ← hto, ← hnew.2.2, hold, some.injEq] at hcbuf
    exact hi.content_inj q q' p c hp hc hcbuf

end Removed

lemma Unlisted.mem_queue {pid : Pid} (h : Unlisted s s' pid) {q : Pid} {p : Ptr}
    (hp : p ∈ s'.queue q) : q ≠ pid ∧ p ∈ s.queue q := by
  rw [h.queue_eq] at hp
  split at hp
  · cases hp
  · exact ⟨‹_›, hp⟩

lemma Unlisted.headerInv {pid : Pid} (h : Unlisted s s' pid) (hi : HeaderInv s) : HeaderInv s' where
  pool_nodup := h.pool_eq ▸ hi.pool_nodup
  pool_live c hc := by
    rw [h.heap_eq]
    exact hi.pool_live c (h.pool_eq ▸ hc)
  queue_nodup q := by
    rw [h.queue_eq]
    split
    · exact nodup_nil
    · exact hi.queue_nodup q
  queue_live q c hc := by
    rw [h.heap_eq]
    exact hi.queue_live q c (h.mem_queue hc).2
  queue_not_pool q c hc := h.pool_eq ▸ hi.queue_not_pool q c (h.mem_queue hc).2
  queue_to q c hc := by
    rw [h.headers_eq]
    exact hi.queue_to q c (h.mem_queue hc).2

lemma Unlisted.contentInv {pid : Pid} (h : Unlisted s s' pid) (hi : ContentInv s) :
    ContentInv s' where
  toHeaderInv := h.headerInv hi.toHeaderInv
  safe := h.heap_eq ▸ hi.safe
  content_live q c hc := by
    rw [h.headers_eq, h.heap_eq]
    exact hi.content_live q c (h.mem_queue hc).2
  content_ne_null q c hc := by
    rw [h.headers_eq]
    exact hi.content_ne_null q c (h.mem_queue hc).2
  content_inj q q' c c' hc hc' heq := by
    rw [h.headers_eq] at heq
    exact hi.content_inj q q' c c' (h.mem_queue hc).2 (h.mem_queue hc').2 heq
  content_not_pool q c hc := by
    rw [h.headers_eq, h.pool_eq]
    exact hi.content_not_pool q c (h.mem_queue hc).2
  content_not_queue q c hc q' hmem := by
    rw [h.headers_eq] at hmem
    exact hi.content_not_queue q c (h.mem_queue hc).2 q' (h.mem_queue hmem).2
  buffered q c hc hb ha := by
    rw [h.headers_eq] at hb ha ⊢
    obtain ⟨hne, halive⟩ := (h.alive_iff _).mp ha
    rw [h.msgBuffer_eq _ _ hne]
    exact hi.buffered q c (h.mem_queue hc).2 hb halive

variable {ok : MsgHeader → ℕ → Prop} {dying : Kernel → Pid → Prop}

lemma Effect.contentInv (h : Effect ok dying s s') (hi : ContentInv s) : ContentInv s' := by
  cases h with
  | quiet h => exact h.contentInv hi
  | delivered _ h => exact h.contentInv hi
  | removed h => exact h.contentInv hi
  | unlisted _ h => exact h.contentInv hi

lemma Effects.refl (s : Kernel) : Effects ok dying s s := Relation.ReflTransGen.refl

lemma Effects.trans (h : Effects ok dying s s') (h' : Effects ok dying s' s'') :
    Effects ok dying s s'' := Relation.ReflTransGen.trans h h'

lemma Effect.effects (h : Effect ok dying s s') : Effects ok dying s s' :=
  Relation.ReflTransGen.single h

/-- A property that every change of a state with owned contents keeps is kept by a sequence of
changes. -/
lemma Effects.invariant {P : Kernel → Prop}
    (hP : ∀ s s', ContentInv s → P s → Effect ok dying s s' → P s')
    (h : Effects ok dying s s') (hi : ContentInv s) (hs : P s) : ContentInv s' ∧ P s' := by
  induction h with
  | refl => exact ⟨hi, hs⟩
  | tail _ hstep ih => exact ⟨hstep.contentInv ih.1, hP _ _ ih.1 ih.2 hstep⟩

lemma Effects.contentInv (h : Effects ok dying s s') (hi : ContentInv s) : ContentInv s' :=
  (h.invariant (fun _ _ _ _ _ => trivial) hi trivial).1

end Kernel

end Messaging
