import Btos.Messaging.Runs

/-!
# Contents are freed once and are as long as they say

Every sender allocates the content of its message, and `msg_acknowledge` releases it according
to the flags of the message. `contents_owned_of_reaches`: in every state of a run every `free` so
far was applied to a block that `malloc` had returned and that was not freed yet, and the content
of every queued message is at least as long as its header says, provided that

* `debug_event_notify` does not send: its content is a local variable of the kernel stack, which
  `msg_acknowledge` then passes to `free`;
* the stack holds a small enough number where `msg_send_event` builds its headers: it does not
  set their length.

`exists_contents_not_owned` has a run for either.
-/

namespace Messaging.Kernel

open Heap

variable {A : Allocator} {s s' : Kernel}

/-- The content of every queued message is a live block of at least its length. -/
def LengthsFit (s : Kernel) : Prop :=
  ∀ q, ∀ c ∈ s.queue q, ∃ n, size? s.heap (s.headers c).content = some n ∧
    (s.headers c).length ≤ n

/-- The length of a message does not exceed the size of its content. -/
def Fits (msg : MsgHeader) (n : ℕ) : Prop := msg.length ≤ n

lemma Quiet.lengthsFit (h : Quiet s s') (hf : LengthsFit s) : LengthsFit s' := by
  intro q c hc
  obtain ⟨n, hn, hle⟩ := hf q c (h.queue_eq q ▸ hc)
  rw [MsgHeader.content_eq_of_core (h.header_eq c), MsgHeader.length_eq_of_core (h.header_eq c)]
  exact ⟨n, h.live _ n hn, hle⟩

lemma Delivered.lengthsFit {msg : MsgHeader} {n : ℕ} {c b : Ptr}
    (h : Delivered s s' msg n c b) (hfit : Fits msg n) (hf : LengthsFit s) : LengthsFit s' := by
  intro q p hp
  rcases h.mem_queue hp with ⟨hp, hpc⟩ | ⟨rfl, -⟩
  · obtain ⟨k, hk, hle⟩ := hf q p hp
    have hcore := h.header_old p hpc
    rw [MsgHeader.content_eq_of_core hcore, MsgHeader.length_eq_of_core hcore]
    exact ⟨k, h.live _ k hk, hle⟩
  · rw [h.content_new, h.length_new]
    exact ⟨n, h.content_size, hfit⟩

lemma Removed.lengthsFit {c : Ptr} (h : Removed s s' c) (hi : ContentInv s)
    (hf : LengthsFit s) : LengthsFit s' := by
  intro q p hp
  obtain ⟨n, hn, hle⟩ := hf q p (h.queued hi hp).1
  rw [h.headers_eq, h.size_content hi hp]
  exact ⟨n, hn, hle⟩

lemma Unlisted.lengthsFit {pid : Pid} (h : Unlisted s s' pid) (hf : LengthsFit s) :
    LengthsFit s' := by
  intro q c hc
  rw [h.headers_eq, h.heap_eq]
  exact hf q c (h.mem_queue hc).2

lemma Effect.lengthsFit {dying : Kernel → Pid → Prop} (h : Effect Fits dying s s')
    (hi : ContentInv s) (hf : LengthsFit s) : LengthsFit s' := by
  cases h with
  | quiet h => exact h.lengthsFit hf
  | delivered hfit h => exact h.lengthsFit hfit hf
  | removed h => exact h.lengthsFit hi hf
  | unlisted _ h => exact h.lengthsFit hf

/-- The condition on a step: no debugger is sent a message, the length that an event message
gets from the stack is at most the size of its content, and kernel code that sends a message
gives it no longer a length than it allocated. -/
def SendsFittingContents (s : Kernel) : Action → Prop
  | .debugEvent pid _ _ => s.debugEventSends pid = false
  | .procEnd _ target junk _ => s.debugEventSends target = false ∧
      ∀ e ∈ (s.subscribers.erase target).entries, .processEnd ∈ e.2 → (junk e.1).length ≤ 8
  | .sendEvent message size junk =>
      ∀ e ∈ s.subscribers.entries, message ∈ e.2 → (junk e.1).length ≤ size
  | .kernelSend msg size => msg.length ≤ size
  | _ => True

lemma SendsFittingContents.allowed {a : Action} (h : SendsFittingContents s a) :
    Allowed Fits (fun _ _ => True) s a := by
  cases a with
  | send pid header => exact fun _ => le_rfl
  | kernelSend msg size => exact fun _ => h
  | acknowledge pid msg junk => exact fun _ _ hle => hle
  | procEnd pid target junk stackPtr =>
    exact ⟨h.1, fun _ _ => trivial, fun e he hmem _ => h.2 e he hmem⟩
  | sendEvent message size junk => exact fun e he hmem _ => h e he hmem
  | debugEvent pid junk stackPtr => exact h
  | recv _ | recvFiltered _ _ | getcontent _ _ _ | messageWait _ => trivial

/-- Every pointer that was freed had come from `malloc` and had not been freed before, and no
queued message is longer than its content. -/
theorem contents_owned_of_reaches (hs : (messaging A).Reaches SendsFittingContents s) :
    SafeFrees s.heap ∧ LengthsFit s := by
  have hinv : ContentInv s ∧ LengthsFit s := by
    refine reaches_invariant (fun _ _ h => h.allowed) (fun _ _ _ h => h) ?_
      (fun _ _ hi hf h => h.lengthsFit hi hf) hs
    intro s h q c hc
    rw [h.queue_nil] at hc
    cases hc
  exact ⟨hinv.1.safe, hinv.2⟩

/-- A message of process 1 and one of the kernel are queued for process 2, which acknowledges the
first one. -/
def acknowledgedOne : List Action :=
  [.send 1 { (default : MsgHeader) with toPid := 2, length := 4 },
    .kernelSend { (default : MsgHeader) with toPid := 2, length := 8 } 8,
    .acknowledge 2 { (default : MsgHeader) with id := 1, toPid := 2 } default]

/-- A content was freed, and another one is still queued. -/
theorem contents_owned_acknowledgedOne :
    ∃ s, (messaging Allocator.bump).Reaches SendsFittingContents s ∧ s.queue 2 = [1] ∧
      s.heap.head? = some (.free 3) ∧ SafeFrees s.heap ∧ LengthsFit s := by
  have hrun : ((messaging Allocator.bump).run (started 0 .empty) acknowledgedOne).any
      (fun s => s.queue 2 = [1] && s.heap.head? = some (.free 3)) = true := by
    decide
  have hguard : ∀ a ∈ acknowledgedOne, ∀ s, SendsFittingContents s a := by
    simp [acknowledgedOne, SendsFittingContents]
  obtain ⟨s, hs, hp⟩ := System.exists_reaches_of_run hguard (started_initial 0 .empty) hrun
  simp only [Bool.and_eq_true, decide_eq_true_eq] at hp
  exact ⟨s, hs, hp.1, hp.2, contents_owned_of_reaches hs⟩

/-- Process 2, the debugger, acknowledges the message about an event of process 1, whose content
is at address 77 of the kernel stack. -/
def debugEventAcknowledged : List Action :=
  [.debugEvent 1 default 77,
    .acknowledge 2 { (default : MsgHeader) with id := 1, toPid := 2 } default]

/-- The kernel tells the subscribers that a process has started, with the number 100 on the
stack where the length of the message is. -/
def eventSent : List Action :=
  [.sendEvent .processStart 8 fun _ => { (default : MsgHeader) with length := 100 }]

/-- One run frees a pointer that `malloc` never returned; in another a message of 8 bytes has
the length 100. -/
theorem exists_contents_not_owned :
    (∃ s, (messaging Allocator.bump).Reachable s ∧ ¬ SafeFrees s.heap) ∧
      ∃ s, (messaging Allocator.bump).Reachable s ∧ ¬ LengthsFit s := by
  constructor
  · have hrun : ((messaging Allocator.bump).run (started 2 .empty) debugEventAcknowledged).any
        (fun s => !decide (SafeFrees s.heap)) = true := by
      decide
    obtain ⟨s, hs, hp⟩ := System.exists_reachable_of_run (started_initial 2 .empty) hrun
    exact ⟨s, hs, by simpa using hp⟩
  · set subs : OrderedMap Pid (List KernelMessage) :=
      OrderedMap.empty.put 1 [.processStart] with hsubs
    have hrun : ((messaging Allocator.bump).run (started 0 subs) eventSent).any
        (fun s => s.queue 1 = [2] && (s.headers 2).length = 100 &&
          size? s.heap (s.headers 2).content = some 8) = true := by
      decide
    obtain ⟨s, hs, hp⟩ := System.exists_reachable_of_run (started_initial 0 subs) hrun
    simp only [Bool.and_eq_true, decide_eq_true_eq] at hp
    obtain ⟨⟨hqueue, hlen⟩, hsize⟩ := hp
    refine ⟨s, hs, fun hfit => ?_⟩
    obtain ⟨n, hn, hle⟩ := hfit 1 2 (by rw [hqueue]; exact List.mem_singleton_self 2)
    rw [hsize, Option.some.injEq] at hn
    omega

end Messaging.Kernel
