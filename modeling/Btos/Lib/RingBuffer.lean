import Btos.Lib.Buffers
import Mathlib.Data.List.Rotate

/-!
# Ring buffers

A queue in an array: `top` is the place behind the last element, and the first one is `count` places
in front of it, around the end of the array. The array rotated by `top` ends with the queue
(`RingBuffer.Holds`).
-/

open List

/-- An array, with the number of its elements and the place behind the last one. -/
structure RingBuffer (α : Type*) where
  cells : Buffer α
  count : ℕ
  top : ℕ

namespace RingBuffer

variable {α : Type*} {r : RingBuffer α} {n : ℕ} {q : List α} {x : α}

/-- An element is put behind the others. -/
def put (x : α) (r : RingBuffer α) : Option (RingBuffer α) :=
  (r.cells.write r.top x).map fun cells =>
    ⟨cells, r.count + 1, if r.top + 1 = cells.length then 0 else r.top + 1⟩

/-- The place of the first element. -/
def start (r : RingBuffer α) : ℤ :=
  let start : ℤ := r.top - r.count
  if start < 0 then start + r.cells.length else start

/-- The first element is taken away. -/
def take (r : RingBuffer α) : Option (α × RingBuffer α) :=
  if r.start < 0 then none
  else (r.cells.read r.start.toNat).map fun x => (x, { r with count := r.count - 1 })

/-- The elements of a ring of `n` places. -/
structure Holds (r : RingBuffer α) (n : ℕ) (q : List α) : Prop where
  length_eq : r.cells.length = n
  top_lt : r.top < n
  count_eq : r.count = q.length
  suffix : q <:+ r.cells.rotate r.top

namespace Holds

lemma length_le (h : r.Holds n q) : q.length ≤ n := by
  have hle := h.suffix.length_le
  rwa [length_rotate, h.length_eq] at hle

lemma put (h : r.Holds n q) (hroom : q.length < n) (x : α) :
    ∃ r', r.put x = some r' ∧ r'.Holds n (q ++ [x]) := by
  obtain ⟨rfl, htop, hcount, hsuffix⟩ := h
  obtain ⟨cells, count, top⟩ := r
  obtain ⟨front, old, back, rfl, rfl⟩ : ∃ front old back, cells = front ++ old :: back ∧
      top = front.length := by
    refine ⟨cells.take top, cells[top], cells.drop (top + 1), ?_, ?_⟩
    · rw [getElem_cons_drop, take_append_drop]
    · rw [length_take, Nat.min_eq_left (le_of_lt htop)]
  refine ⟨_, by rw [RingBuffer.put, Buffer.write_append, Option.map_some], by simp, ?_, ?_, ?_⟩
  · dsimp only
    split_ifs <;> simp only [length_append, length_cons] at * <;> omega
  · simpa using hcount
  · -- behind the place that is written are the old elements
    have hold : q <:+ back ++ front := by
      rw [rotate_append_length_eq, cons_append, suffix_cons_iff] at hsuffix
      refine hsuffix.resolve_left ?_
      rintro rfl
      simp at hroom
      omega
    have hnew : (front ++ x :: back).rotate (front.length + 1) = back ++ front ++ [x] := by
      simpa using rotate_append_length_eq (front ++ [x]) back
    obtain ⟨t, ht⟩ := hold
    refine ⟨t, ?_⟩
    rw [← append_assoc, ht, ← hnew]
    dsimp only
    split_ifs with hend
    · rw [hend, rotate_length, rotate_zero]
    · rfl

lemma take (h : r.Holds n (x :: q)) : ∃ r', r.take = some (x, r') ∧ r'.Holds n q := by
  have hle := h.length_le
  obtain ⟨rfl, htop, hcount, hsuffix⟩ := h
  refine ⟨{ r with count := r.count - 1 }, ?_, rfl, htop, ?_, (suffix_cons x q).trans hsuffix⟩
  · obtain ⟨t, ht⟩ := hsuffix
    have hlen := congrArg length ht
    rw [length_append, length_cons, length_rotate] at hlen
    rw [length_cons] at hcount
    -- the rotated array is `t` and then the queue
    have hfirst : r.cells[(t.length + r.top) % r.cells.length]? = some x := by
      rw [← getElem?_rotate (by omega), ← ht, getElem?_append_right le_rfl, Nat.sub_self]
      rfl
    -- going back by `count` is going on by `t.length`, up to one turn
    have hstart : r.start = ((t.length + r.top) % r.cells.length : ℕ) := by
      rw [start]
      split_ifs with hneg
      · rw [Nat.mod_eq_of_lt (by omega)]
        omega
      · rw [Nat.mod_eq_sub_mod (by omega), Nat.mod_eq_of_lt (by omega)]
        omega
    rw [RingBuffer.take, hstart, if_neg (by omega), Int.toNat_natCast, Buffer.read, hfirst,
      Option.map_some]
  · rw [hcount, length_cons, Nat.add_sub_cancel]

end Holds

end RingBuffer
