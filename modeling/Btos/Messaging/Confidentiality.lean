import Btos.Messaging.Runs

/-!
# Whose messages a process can read and remove

`BT_CONTENT` and `BT_ACK` pass the header that the calling process supplies on to
`msg_getcontent` and `msg_acknowledge`, which search the queue of the pid in that header. The
calling process is therefore confined to its own messages exactly when the header names it, or
names no queued message (`getcontent_ack_confined_iff`).
-/

open Option

namespace Messaging.Kernel

open Heap

variable {A : Allocator} {s : Kernel}

/-- What `msg_getcontent` copies out belongs to a message queued for the running process. -/
def GetcontentConfined (s : Kernel) (msg : MsgHeader) (buffersize : ℕ) : Prop :=
  ∀ r n, s.msgGetcontent msg buffersize = some (r, n) → 0 < n →
    ∃ c ∈ s.queue s.currentPid, s.headers c = r

/-- The locked section of `msg_acknowledge` takes nothing out of the queue of another process. -/
def AckConfined (s : Kernel) (msg : MsgHeader) : Prop :=
  ∀ q, q ≠ s.currentPid → (s.ackSection msg).queue q = s.queue q

lemma toPid_of_findMsg (h : HeaderInv s) {id : ℕ} {pid : Pid} {c : Ptr}
    (hc : s.findMsg id pid = some c) : (s.headers c).toPid = pid :=
  h.queue_to pid c (mem_queue_of_findMsg hc).1

lemma getcontentConfined_iff (h : HeaderInv s) (msg : MsgHeader) (buffersize : ℕ) :
    GetcontentConfined s msg buffersize ↔
      msg.toPid = s.currentPid ∨
        ∀ r, s.msgGet msg.id msg.toPid = some r → buffersize = 0 ∨ r.length = 0 := by
  constructor
  · intro hconf
    by_contra hno
    push Not at hno
    obtain ⟨hne, r, hr, hsize, hlen⟩ := hno
    have hget : s.msgGetcontent msg buffersize =
        some (r, if r.length < buffersize then r.length else buffersize) := by
      rw [msgGetcontent, hr]
      rfl
    obtain ⟨c', hc', heq⟩ := hconf _ _ hget (by split <;> exact Nat.pos_of_ne_zero ‹_›)
    obtain ⟨c, hc, rfl⟩ := map_eq_some_iff.mp hr
    -- One header cannot be addressed to both processes.
    have hto := toPid_of_findMsg h hc
    rw [← heq, h.queue_to _ c' hc'] at hto
    exact hne hto.symm
  · rintro hcond r n hget hn
    rw [msgGetcontent, map_eq_some_iff] at hget
    obtain ⟨r', hr', heq⟩ := hget
    cases heq
    rcases hcond with hto | hempty
    · obtain ⟨c, hc, rfl⟩ := map_eq_some_iff.mp hr'
      exact ⟨c, hto ▸ (mem_queue_of_findMsg hc).1, rfl⟩
    · rcases hempty _ hr' with h0 | h0
      · simp [h0] at hn
      · rw [h0] at hn
        split at hn <;> omega

lemma ackConfined_iff (h : HeaderInv s) (msg : MsgHeader) :
    AckConfined s msg ↔ msg.toPid = s.currentPid ∨ s.msgGet msg.id msg.toPid = none := by
  rw [AckConfined, ackSection, msgGet, map_eq_none_iff]
  cases hc : s.findMsg msg.id msg.toPid with
  | none => simp
  | some c =>
    obtain ⟨hmem, -⟩ := mem_queue_of_findMsg hc
    have hd := dequeue_dequeued h hmem
    simp only [reduceCtorEq, or_false]
    constructor
    · intro hconf
      by_contra hne
      have hq := hconf msg.toPid hne
      rw [hd.queue_eq] at hq
      exact (h.queue_nodup msg.toPid).not_mem_erase (hq ▸ hmem)
    · intro hto q hq
      rw [hd.queue_eq]
      refine List.erase_of_not_mem fun hmem' => hq ?_
      exact (h.queue_unique hmem' hmem).trans hto

/-- A process that passes a header to `BT_CONTENT` and `BT_ACK` is confined to its own messages
exactly when the header names the process itself, or no message that is queued with that id
(and, for the copy, that has any bytes). -/
theorem getcontent_ack_confined_iff (h : HeaderInv s) (msg : MsgHeader) (buffersize : ℕ) :
    (GetcontentConfined s msg buffersize ↔
      msg.toPid = s.currentPid ∨
        ∀ r, s.msgGet msg.id msg.toPid = some r → buffersize = 0 ∨ r.length = 0) ∧
    (AckConfined s msg ↔ msg.toPid = s.currentPid ∨ s.msgGet msg.id msg.toPid = none) :=
  ⟨getcontentConfined_iff h msg buffersize, ackConfined_iff h msg⟩

/-- Process 1 is running, and a message of 4 bytes is queued for process 2. -/
def queuedForOther : Kernel :=
  (kernelSend Allocator.bump { started 0 .empty with currentPid := 1 }
    { (default : MsgHeader) with toPid := 2, length := 4 } 4).2

lemma queuedForOther_headerInv : HeaderInv queuedForOther := by
  have hi := ((quiet_currentPid (started 0 .empty) 1).contentInv
    (started_initial 0 .empty).contentInv).toHeaderInv
  obtain ⟨c, hd⟩ := kernelSend_delivered hi
    { (default : MsgHeader) with toPid := 2, length := 4 } 4 rfl rfl rfl
  exact hd.inv

/-- A header that names process 2 gives process 1 the message of the other process; one that names
process 1 does not. -/
theorem getcontent_ack_confined_queuedForOther :
    ¬ GetcontentConfined queuedForOther { (default : MsgHeader) with id := 1, toPid := 2 } 16 ∧
      ¬ AckConfined queuedForOther { (default : MsgHeader) with id := 1, toPid := 2 } ∧
      GetcontentConfined queuedForOther { (default : MsgHeader) with id := 1, toPid := 1 } 16 ∧
      AckConfined queuedForOther { (default : MsgHeader) with id := 1, toPid := 1 } := by
  have hiff := getcontent_ack_confined_iff queuedForOther_headerInv
  obtain ⟨r, hr, hlen⟩ : ∃ r, queuedForOther.msgGet 1 2 = some r ∧ r.length = 4 := ⟨_, rfl, rfl⟩
  refine ⟨fun h => ?_, fun h => ?_, (hiff _ 16).1.mpr (.inl rfl), (hiff _ 16).2.mpr (.inl rfl)⟩
  · rcases (hiff _ 16).1.mp h with hto | hempty
    · cases hto
    · have hzero := hempty r hr
      omega
  · rcases (hiff _ 16).2.mp h with hto | hnone
    · cases hto
    · exact absurd (hnone.symm.trans hr) nofun

/-- The kernel sends a message of 4 bytes to process 2; then process 1 is running, with a
header that names process 2. -/
def eavesdropping : List Action :=
  [.kernelSend { (default : MsgHeader) with toPid := 2, length := 4 } 4, .messageWait 1]

/-- Process 1 reads and removes a message that is queued for process 2. -/
theorem exists_getcontent_ack_not_confined :
    ∃ s msg, (messaging Allocator.bump).Reachable s ∧ s.currentPid = 1 ∧
      ¬ GetcontentConfined s msg 16 ∧ ¬ AckConfined s msg := by
  set msg : MsgHeader := { (default : MsgHeader) with id := 1, toPid := 2 }
  have hrun : ((messaging Allocator.bump).run (started 0 .empty) eavesdropping).any
      (fun s => s.currentPid = 1 && s.queue 1 = [] &&
        (s.msgGetcontent msg 16).any (fun r => 0 < r.2) &&
        (s.ackSection msg).queue 2 ≠ s.queue 2) = true := by
    decide
  obtain ⟨s, hs, hp⟩ := System.exists_reachable_of_run (started_initial 0 .empty) hrun
  simp only [Bool.and_eq_true, decide_eq_true_eq, any_eq_true] at hp
  obtain ⟨⟨⟨hcur, hqueue⟩, ⟨r, n⟩, hget, hn⟩, hack⟩ := hp
  refine ⟨s, msg, hs, hcur, fun hconf => ?_, fun hconf => ?_⟩
  · obtain ⟨c, hc, -⟩ := hconf r n hget hn
    rw [hcur, hqueue] at hc
    cases hc
  · refine hack (hconf 2 ?_)
    rw [hcur]
    decide

end Messaging.Kernel
