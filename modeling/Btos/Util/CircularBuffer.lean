import Btos.Lib.RingBuffer
import Mathlib.Data.PNat.Basic

/-!
# Circular buffers

`circular_buffer.hpp`: a queue in an array, without a place for its first item. An array has less
than `2 ^ 31` items, so that the place of the first one, of type `int`, does not wrap. An access
outside of the array is `none`.
-/

open List

namespace CircularBuffer

/-- The methods of a buffer. -/
inductive Call (α : Type*) where
  | addItem (c : α)
  | readItem
  | count
  | full
  | clear

/-- What a method returns. -/
inductive Answer (α : Type*) where
  | nothing
  | item (c : α)
  | number (n : ℕ)
  | bool (b : Bool)

variable {α : Type*} (zero : α)

/-- `add_item` -/
def addItem (c : α) (b : RingBuffer α) : Option (RingBuffer α) :=
  if b.count < b.cells.length then b.put c else some b

/-- `read_item` -/
def readItem (b : RingBuffer α) : Option (α × RingBuffer α) :=
  if b.count ≠ 0 then b.take else some (zero, b)

/-- A call of a method. -/
def call (b : RingBuffer α) : Call α → Option (Answer α × RingBuffer α)
  | .addItem c => (addItem c b).map (.nothing, ·)
  | .readItem => (readItem zero b).map fun r => (.item r.1, r.2)
  | .count => some (.number b.count, b)
  | .full => some (.bool (b.cells.length ≤ b.count), b)
  | .clear => some (.nothing, { b with count := 0, top := 0 })

/-- The answers to a row of calls. -/
def answers (b : RingBuffer α) : List (Call α) → Option (List (Answer α))
  | [] => some []
  | c :: calls => (call zero b c).bind fun r => (answers r.2 calls).map (r.1 :: ·)

/-- A call for a queue that has at most `n` items. -/
def Queue.call (n : ℕ) (q : List α) : Call α → Answer α × List α
  | .addItem c => (.nothing, if q.length < n then q ++ [c] else q)
  | .readItem => (.item (q.headD zero), q.tail)
  | .count => (.number q.length, q)
  | .full => (.bool (n ≤ q.length), q)
  | .clear => (.nothing, [])

/-- The answers of the queue. -/
def Queue.answers (n : ℕ) (q : List α) : List (Call α) → List (Answer α)
  | [] => []
  | c :: calls => (Queue.call zero n q c).1 :: Queue.answers n (Queue.call zero n q c).2 calls

lemma exists_call_eq {b : RingBuffer α} {n : ℕ} {q : List α} (h : b.Holds n q) (c : Call α) :
    ∃ b', call zero b c = some ((Queue.call zero n q c).1, b') ∧
      b'.Holds n (Queue.call zero n q c).2 := by
  have hlength := h.length_eq
  cases c with
  | addItem c =>
    by_cases hroom : q.length < n
    · obtain ⟨b', hput, hb'⟩ := h.put hroom c
      exact ⟨b', by simp [call, addItem, Queue.call, h.count_eq, hlength, hroom, hput],
        by simpa [Queue.call, hroom] using hb'⟩
    · exact ⟨b, by simp [call, addItem, Queue.call, h.count_eq, hlength, hroom],
        by simpa [Queue.call, hroom] using h⟩
  | readItem =>
    cases q with
    | nil => exact ⟨b, by simp [call, readItem, Queue.call, h.count_eq], h⟩
    | cons x q =>
      obtain ⟨b', htake, hb'⟩ := h.take
      exact ⟨b', by simp [call, readItem, Queue.call, h.count_eq, htake], hb'⟩
  | count => exact ⟨b, by rw [call, h.count_eq]; rfl, h⟩
  | full => exact ⟨b, by rw [call, h.count_eq, hlength]; rfl, h⟩
  | clear => exact ⟨_, rfl, hlength, Nat.zero_lt_of_lt h.top_lt, rfl, nil_suffix⟩

/-- A buffer of `n` items answers as a queue of at most `n` items does, and accesses nothing outside
of its array, whatever was in it. -/
theorem answers_eq (n : ℕ+) (cells : Fin n → α) (calls : List (Call α)) :
    answers zero ⟨ofFn cells, 0, 0⟩ calls = some (Queue.answers zero n [] calls) := by
  have hstart : RingBuffer.Holds ⟨ofFn cells, 0, 0⟩ n [] :=
    ⟨length_ofFn, n.pos, rfl, nil_suffix⟩
  -- by induction on the calls, for any ring that holds the queue
  generalize (⟨ofFn cells, 0, 0⟩ : RingBuffer α) = b at hstart
  generalize ([] : List α) = q at hstart
  induction calls generalizing b q with
  | nil => rfl
  | cons c calls ih =>
    obtain ⟨b', hcall, hb'⟩ := exists_call_eq zero hstart c
    rw [answers, hcall, Option.bind_some, ih b' _ hb', Option.map_some]
    rfl

end CircularBuffer
