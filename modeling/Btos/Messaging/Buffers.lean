import Btos.Messaging.Runs

/-!
# Outstanding contents

`msg_buffers` of a process records, by receiver, the content of the user message that the
receiver has not acknowledged yet; `proc_send_message` makes a second message to the same
receiver wait for it, and `proc_message_wait` waits until nothing is recorded.

`proc_end` takes the process out of the list before `msg_clear`, which therefore finds no queue to
acknowledge, and what the senders have recorded stays.

Main results: `buffersMatch_of_reaches` and `exists_not_buffersMatch`.
-/

open List

namespace Messaging.Kernel

open Heap

variable {A : Allocator} {s s' : Kernel}

/-- A queued message that `p` has recorded: from user space, not a reply, sent by `p`. -/
def isRecordedBy (s : Kernel) (p : Pid) (c : Ptr) : Bool :=
  (s.headers c).isBuffered && (s.headers c).fromPid = p

/-- The contents of the unacknowledged user messages from `p` to `q`. -/
def outstanding (s : Kernel) (p q : Pid) : List Ptr :=
  ((s.queue q).filter (s.isRecordedBy p)).map fun c => (s.headers c).content

/-- A listed process has recorded a content for a receiver exactly when the receiver is listed
and its queue holds exactly one message from it, with that content. -/
def BuffersMatch (s : Kernel) : Prop :=
  ∀ p, s.Alive p → ∀ q b, s.msgBuffer p q = some b ↔ s.Alive q ∧ s.outstanding p q = [b]

/-- The recorded contents are the outstanding ones, as lists. -/
def Recorded (s : Kernel) : Prop :=
  ∀ p, s.Alive p → ∀ q, (s.msgBuffer p q).toList = s.outstanding p q

lemma Recorded.buffersMatch (h : Recorded s) : BuffersMatch s := by
  intro p hp q b
  have hpq := h p hp q
  constructor
  · intro hb
    rw [hb, Option.toList_some] at hpq
    refine ⟨?_, hpq.symm⟩
    by_contra hq
    rw [outstanding, queue_of_not_alive hq] at hpq
    cases hpq
  · rintro ⟨-, hb⟩
    rw [hb] at hpq
    exact Option.toList_eq_singleton_iff.mp hpq

lemma BuffersMatch.msgBuffer_eq_none (h : BuffersMatch s) {p q : Pid} (hp : s.Alive p)
    (hq : ¬ s.Alive q) : s.msgBuffer p q = none := by
  cases hb : s.msgBuffer p q with
  | none => rfl
  | some b => exact absurd ((h p hp q b).mp hb).1 hq

/-! ## One change -/

lemma outstanding_congr {p q : Pid} (hq : s'.queue q = s.queue q)
    (hh : ∀ c ∈ s.queue q, (s'.headers c).core = (s.headers c).core) :
    s'.outstanding p q = s.outstanding p q := by
  have hrec : ∀ c ∈ s.queue q, s'.isRecordedBy p c = s.isRecordedBy p c := by
    intro c hc
    rw [isRecordedBy, isRecordedBy, MsgHeader.isBuffered_eq_of_core (hh c hc),
      MsgHeader.fromPid_eq_of_core (hh c hc)]
  rw [outstanding, outstanding, hq, filter_congr hrec]
  refine map_congr_left fun c hc => ?_
  exact MsgHeader.content_eq_of_core (hh c (mem_of_mem_filter hc))

lemma Quiet.recorded (h : Quiet s s') (hr : Recorded s) : Recorded s' := by
  intro p hp q
  rw [h.msgBuffer_eq, outstanding_congr (h.queue_eq q) fun c _ => h.header_eq c]
  exact hr p ((h.alive_iff p).mp hp) q

/-- Delivering a message makes its content outstanding, if it is one that is recorded. -/
lemma Delivered.outstanding_eq {msg : MsgHeader} {n : ℕ} {c b : Ptr}
    (h : Delivered s s' msg n c b) (p q : Pid) :
    s'.outstanding p q =
      if q = msg.toPid ∧ s.Alive q ∧ msg.isBuffered ∧ msg.fromPid = p then
        s.outstanding p q ++ [b]
      else s.outstanding p q := by
  have hold : ∀ c' ∈ s.queue q, (s'.headers c').core = (s.headers c').core := fun c' hc' =>
    h.header_old c' fun heq => h.block_not_queue q (heq ▸ hc')
  by_cases hq : q = msg.toPid ∧ s.Alive q
  · have hnew : s'.isRecordedBy p c = decide (msg.isBuffered ∧ msg.fromPid = p) := by
      rw [isRecordedBy, h.isBuffered_new, h.fromPid_new]
      simp
    -- The old part of the queue has the same outstanding contents as before.
    have hsplit : s'.outstanding p q = s.outstanding p q ++ ([c].filter (s'.isRecordedBy p)).map
          fun c => (s'.headers c).content := by
      have hpart : Kernel.outstanding { s' with procs := s.procs } p q = s.outstanding p q :=
        outstanding_congr rfl hold
      rw [← hpart, outstanding, outstanding, h.queue_eq, if_pos hq, filter_append, map_append]
      rfl
    rw [hsplit]
    by_cases hb : msg.isBuffered ∧ msg.fromPid = p
    · rw [if_pos ⟨hq.1, hq.2, hb⟩, filter_singleton, hnew, decide_eq_true hb]
      simp [h.content_new]
    · rw [if_neg fun hc => hb hc.2.2, filter_singleton, hnew, decide_eq_false hb]
      simp
  · rw [if_neg fun hc => hq ⟨hc.1, hc.2.1⟩]
    exact outstanding_congr (by rw [h.queue_eq, if_neg hq]) hold

lemma Delivered.recorded {msg : MsgHeader} {n : ℕ} {c b : Ptr} (h : Delivered s s' msg n c b)
    (hr : Recorded s) : Recorded s' := by
  intro p hp q
  have hpq := hr p ((h.alive_iff p).mp hp) q
  rw [h.msgBuffer_eq, h.outstanding_eq]
  by_cases hb : msg.isBuffered ∧ p = msg.fromPid ∧ q = msg.toPid
  · obtain ⟨hb, rfl, rfl⟩ := hb
    obtain ⟨halive, hnone⟩ := h.buffered hb
    rw [hnone] at hpq
    rw [if_pos ⟨hb, rfl, rfl⟩, if_pos ⟨rfl, halive, hb, rfl⟩, ← hpq]
    rfl
  · rw [if_neg hb, if_neg fun hc => hb ⟨hc.2.2.1, hc.2.2.2.symm, hc.1⟩, hpq]

lemma Removed.outstanding_eq {c : Ptr} (h : Removed s s' c) (hi : HeaderInv s) (p q : Pid) :
    s'.outstanding p q =
      (((s.queue q).filter (s.isRecordedBy p)).filter (· != c)).map
        fun c => (s.headers c).content := by
  have hrec : s'.isRecordedBy p = s.isRecordedBy p := by
    funext c'
    rw [isRecordedBy, isRecordedBy, h.headers_eq]
  rw [outstanding, h.queue_eq, (hi.queue_nodup q).erase_eq_filter, hrec, h.headers_eq,
    List.filter_filter, List.filter_filter]
  congr 2
  funext c'
  exact Bool.and_comm _ _

lemma Removed.recorded {c : Ptr} (h : Removed s s' c) (hi : ContentInv s) (hr : Recorded s) :
    Recorded s' := by
  intro p hp q
  obtain ⟨q0, hc⟩ := h.mem
  have hp0 := (h.alive_iff p).mp hp
  have hpq := hr p hp0 q
  have hto := hi.queue_to q0 c hc
  rw [h.msgBuffer_eq, h.outstanding_eq hi.toHeaderInv]
  by_cases hb : (s.headers c).isBuffered ∧ p = (s.headers c).fromPid ∧ q = (s.headers c).toPid
  · rw [if_pos hb]
    -- The list of recorded messages has one element, which is `c`.
    have hmem : c ∈ (s.queue q).filter (s.isRecordedBy p) := by
      rw [mem_filter, hb.2.2, hto]
      exact ⟨hc, by simp [isRecordedBy, hb.1, hb.2.1]⟩
    have hlen : ((s.queue q).filter (s.isRecordedBy p)).length ≤ 1 := by
      have := congrArg List.length hpq
      rw [outstanding, length_map] at this
      rw [← this]
      cases s.msgBuffer p q <;> simp
    obtain ⟨c', hc'⟩ := length_eq_one_iff.mp (le_antisymm hlen (length_pos_of_mem hmem))
    rw [hc', mem_singleton] at hmem
    rw [hc', hmem]
    simp
  · rw [if_neg hb, hpq, outstanding]
    congr 1
    refine (filter_eq_self.mpr fun c' hc' => ?_).symm
    rw [mem_filter, isRecordedBy, Bool.and_eq_true, decide_eq_true_eq] at hc'
    refine bne_iff_ne.mpr fun heq => hb ?_
    rw [← heq]
    exact ⟨hc'.2.1, hc'.2.2.symm, (hi.queue_to q c' hc'.1).symm⟩

/-- The condition under which a process may end: no other listed process has a message
outstanding in its queue. -/
def NothingOutstanding (s : Kernel) (pid : Pid) : Prop :=
  ∀ p, p ≠ pid → s.Alive p → s.outstanding p pid = []

lemma Unlisted.recorded {pid : Pid} (h : Unlisted s s' pid) (hd : NothingOutstanding s pid)
    (hr : Recorded s) : Recorded s' := by
  intro p hp q
  obtain ⟨hne, hp⟩ := (h.alive_iff p).mp hp
  have hpq := hr p hp q
  rw [h.msgBuffer_eq p q hne]
  by_cases hq : q = pid
  · subst hq
    rw [hpq, hd p hne hp, outstanding, h.queue_eq, if_pos rfl]
    rfl
  · rw [hpq]
    refine (outstanding_congr (by rw [h.queue_eq, if_neg hq]) fun c _ => ?_).symm
    rw [h.headers_eq]

/-- Every change keeps the recorded contents the outstanding ones, if a process only disappears
when nothing is outstanding in its queue. -/
lemma Effect.recorded {ok : MsgHeader → ℕ → Prop} (h : Effect ok NothingOutstanding s s')
    (hi : ContentInv s) (hr : Recorded s) : Recorded s' := by
  cases h with
  | quiet h => exact h.recorded hr
  | delivered _ h => exact h.recorded hr
  | removed h => exact h.recorded hi hr
  | unlisted hd h => exact h.recorded hd hr

/-! ## Runs -/

/-- The condition on a step: a process ends only when nothing is outstanding in its queue, and
no debugger is sent a message. -/
def EndsWithNothingOutstanding (s : Kernel) : Action → Prop
  | .procEnd _ target _ _ =>
      s.debugEventSends target = false ∧ NothingOutstanding s target
  | .debugEvent pid _ _ => s.debugEventSends pid = false
  | _ => True

lemma EndsWithNothingOutstanding.allowed {a : Action} (h : EndsWithNothingOutstanding s a) :
    Allowed (fun _ _ => True) NothingOutstanding s a := by
  cases a with
  | procEnd pid target junk stackPtr => exact ⟨h.1, fun _ _ => h.2, fun _ _ _ _ => trivial⟩
  | debugEvent pid junk stackPtr => exact h
  | _ => simp [Allowed]

/-- In every state reached by steps that end a process only when nothing is outstanding in its
queue, what the listed processes have recorded is what is outstanding, and nothing is recorded
for a process that has ended. -/
theorem buffersMatch_of_reaches (hs : (messaging A).Reaches EndsWithNothingOutstanding s) :
    BuffersMatch s ∧ ∀ q, ¬ s.Alive q → ∀ p, s.Alive p → s.msgBuffer p q = none := by
  have hrec : Recorded s := by
    refine (reaches_invariant (fun _ _ h => h.allowed) (fun _ _ _ h => h) ?_
      (fun _ _ hi hr h => h.recorded hi hr) hs).2
    intro s h p _ q
    rw [h.msgBuffer_none, outstanding, h.queue_nil]
    rfl
  exact ⟨hrec.buffersMatch, fun q hq p hp => hrec.buffersMatch.msgBuffer_eq_none hp hq⟩

/-- Processes 1 and 2 send a message to each other, and process 2 acknowledges the one it got. -/
def exchanged : List Action :=
  [.send 1 { (default : MsgHeader) with toPid := 2, length := 4 },
    .send 2 { (default : MsgHeader) with toPid := 1, length := 8 },
    .acknowledge 2 { (default : MsgHeader) with id := 1, toPid := 2 } default]

/-- What process 2 has sent is still outstanding, what process 1 has sent is not. -/
theorem buffersMatch_exchanged :
    ∃ s, (messaging Allocator.bump).Reaches EndsWithNothingOutstanding s ∧
      s.msgBuffer 1 2 = none ∧ (s.msgBuffer 2 1).isSome ∧ BuffersMatch s := by
  have hrun : ((messaging Allocator.bump).run (started 0 .empty) exchanged).any
      (fun s => s.msgBuffer 1 2 = none && (s.msgBuffer 2 1).isSome) = true := by
    decide
  have hguard : ∀ a ∈ exchanged, ∀ s, EndsWithNothingOutstanding s a := by
    simp [exchanged, EndsWithNothingOutstanding]
  obtain ⟨s, hs, hp⟩ := System.exists_reaches_of_run hguard (started_initial 0 .empty) hrun
  simp only [Bool.and_eq_true, decide_eq_true_eq] at hp
  exact ⟨s, hs, hp.1, hp.2, (buffersMatch_of_reaches hs).1⟩

/-- Process 1 sends a message to process 2, which ends without acknowledging it. -/
def endWithoutAck : List Action :=
  [.send 1 { (default : MsgHeader) with toPid := 2, length := 4 }, .procEnd 2 2 default 0]

/-- The sender keeps the content recorded for a receiver that has ended, and waits for it. -/
theorem exists_not_buffersMatch :
    ∃ s, (messaging Allocator.bump).Reachable s ∧ ¬ BuffersMatch s ∧
      s.Alive 1 ∧ ¬ s.Alive 2 ∧ s.procMessageWait 1 = false := by
  have hrun : ((messaging Allocator.bump).run (started 0 .empty) endWithoutAck).any
      (fun s => s.msgBuffer 1 2 = some 3 && s.Alive 1 && !decide (s.Alive 2) &&
        s.procMessageWait 1 = false) = true := by
    decide
  obtain ⟨s, hs, hp⟩ := System.exists_reachable_of_run (started_initial 0 .empty) hrun
  simp only [Bool.and_eq_true, decide_eq_true_eq, Bool.not_eq_true', decide_eq_false_iff_not] at hp
  obtain ⟨⟨⟨hbuf, h1⟩, h2⟩, hwait⟩ := hp
  refine ⟨s, hs, fun hmatch => ?_, h1, h2, hwait⟩
  rw [hmatch.msgBuffer_eq_none h1 h2] at hbuf
  cases hbuf

end Messaging.Kernel
