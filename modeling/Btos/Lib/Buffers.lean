import Mathlib.Data.List.Basic

/-!
# Buffers with checked accesses

A buffer is the list of what it holds. An access to a place that it does not have gives `none`, so
that a computation with buffers gives something exactly if all its accesses are inside.

The functions for strings go up to the first `nul`. `put` is what they do to the buffer that they
write to, and `padded` is a buffer that holds a text and nothing behind it.
-/

open List Option

/-- A buffer, as the list of what it holds. -/
abbrev Buffer (α : Type*) := List α

namespace Buffer

variable {α : Type*}

/-- `b[i]` -/
def read (b : Buffer α) (i : ℕ) : Option α := b[i]?

/-- `b[i] = x` -/
def write (b : Buffer α) (i : ℕ) (x : α) : Option (Buffer α) :=
  if i < b.length then some (b.set i x) else none

/-- The elements of a list are written one after the other, from the offset `i` on. -/
def put (b : Buffer α) (i : ℕ) : List α → Option (Buffer α)
  | [] => some b
  | x :: xs => (b.write i x).bind fun b => put b (i + 1) xs

/-- `memset` -/
def fill (x : α) (b : Buffer α) (n : ℕ) : Option (Buffer α) := b.put 0 (List.replicate n x)

/-- A buffer of `size` places with a text and nothing else in it. -/
def padded (nul : α) (size : ℕ) (text : List α) : Buffer α :=
  text ++ List.replicate (size - text.length) nul

section Strings

variable [DecidableEq α] (nul : α)

/-- `strlen` -/
def strlen : Buffer α → Option ℕ
  | [] => none
  | x :: b => if x = nul then some 0 else (strlen b).map (· + 1)

/-- `strncpy` to the offset `i`: what is missing behind the end of the string is filled up. -/
def strncpy (b : Buffer α) (i : ℕ) : Buffer α → ℕ → Option (Buffer α)
  | _, 0 => some b
  | [], _ + 1 => none
  | x :: src, n + 1 =>
      if x = nul then b.put i (List.replicate (n + 1) nul)
      else (b.write i x).bind fun b => strncpy b (i + 1) src n

end Strings

/-! ## Reading and writing -/

@[simp]
lemma read_cons_zero (x : α) (b : Buffer α) : read (x :: b) 0 = some x := rfl

@[simp]
lemma read_append_cons (front back : List α) (x : α) :
    read (front ++ x :: back) front.length = some x := by
  simp [read]

@[simp]
lemma read_length (b : Buffer α) : read b b.length = none := by
  simp [read]

variable {i : ℕ} {b : Buffer α}

lemma write_eq_none (h : b.length ≤ i) (x : α) : b.write i x = none :=
  if_neg (Nat.not_lt.mpr h)

lemma write_append (front back : List α) (old x : α) :
    write (front ++ old :: back) front.length x = some (front ++ x :: back) := by
  simp [write]

lemma length_write {b b' : Buffer α} {x : α} (h : b.write i x = some b') :
    b'.length = b.length := by
  unfold write at h
  split at h
  · cases h
    exact length_set
  · cases h

lemma put_append {old xs : List α} (h : old.length = xs.length) (front back : List α) :
    put (front ++ (old ++ back)) front.length xs = some (front ++ (xs ++ back)) := by
  induction xs generalizing old front with
  | nil =>
    obtain rfl := length_eq_zero_iff.mp h
    rfl
  | cons x xs ih =>
    obtain ⟨y, old, rfl⟩ := exists_cons_of_length_eq_add_one h
    rw [put, cons_append, write_append, bind_some]
    have hnext := ih (Nat.succ.inj h) (front ++ [x])
    simpa using hnext

lemma put_eq_none {xs : List α} (hne : xs ≠ [])
    (h : b.length < i + xs.length) : b.put i xs = none := by
  induction xs generalizing b i with
  | nil => exact absurd rfl hne
  | cons x xs ih =>
    rw [put]
    cases hwrite : b.write i x with
    | none => rfl
    | some b' =>
      have hi : i < b.length := by
        by_contra hge
        rw [write_eq_none (Nat.not_lt.mp hge)] at hwrite
        cases hwrite
      rw [length_cons] at h
      -- the place was there, so something is left to be written
      refine ih (length_pos_iff.mp (by omega)) ?_
      rw [length_write hwrite]
      omega

lemma fill_eq {n : ℕ} (h : b.length = n) (x : α) : fill x b n = some (padded x n []) := by
  have hlen : b.length = (replicate n x).length := by simpa using h
  have hput := put_append hlen [] []
  simpa [fill, padded] using hput

/-! ## Buffers with a text -/

section Padded

variable {nul : α} {size : ℕ} {text : List α}

@[simp]
lemma length_padded (h : text.length ≤ size) : (padded nul size text).length = size := by
  simp [padded, h]

lemma put_padded {xs : List α} (h : text.length + xs.length ≤ size) :
    put (padded nul size text) text.length xs = some (padded nul size (text ++ xs)) := by
  have hsplit : size - text.length = xs.length + (size - (text ++ xs).length) := by
    rw [length_append]
    omega
  have hlen : (replicate xs.length nul).length = xs.length := length_replicate
  have hput := put_append hlen text (replicate (size - (text ++ xs).length) nul)
  rw [padded, hsplit, replicate_add, hput, padded, append_assoc]

lemma write_padded (nul : α) (h : text.length < size) (x : α) :
    write (padded nul size text) text.length x = some (padded nul size (text ++ [x])) := by
  have hput : put (padded nul size text) text.length [x] = _ := put_padded h
  rw [put] at hput
  cases hwrite : write (padded nul size text) text.length x with
  | none =>
    rw [hwrite] at hput
    cases hput
  | some b =>
    rw [hwrite] at hput
    exact hput

lemma write_padded_last (nul : α) (size : ℕ) (text : List α) (x y : α) :
    write (padded nul size (text ++ [x])) text.length y = some (padded nul size (text ++ [y])) := by
  have hwrite := write_append text (replicate (size - (text ++ [x]).length) nul) x y
  simp only [padded, append_assoc, singleton_append, length_append, length_singleton] at hwrite ⊢
  exact hwrite

lemma erase_padded (nul : α) (h : text.length < size) (x : α) :
    write (padded nul size (text ++ [x])) text.length nul = some (padded nul size text) := by
  have hsplit : size - text.length = size - (text ++ [x]).length + 1 := by
    rw [length_append, length_singleton]
    omega
  have hwrite := write_append text (replicate (size - (text ++ [x]).length) nul) x nul
  rw [padded, append_assoc, singleton_append, hwrite, padded, hsplit, replicate_succ]

lemma write_padded_nul (nul : α) (hi : text.length ≤ i) (hsize : i < size) :
    write (padded nul size text) i nul = some (padded nul size text) := by
  have hlen : i < (padded nul size text).length := by simpa [padded] using by omega
  have hget : (padded nul size text)[i] = nul := by
    simp [padded, getElem_append_right hi]
  have hset := set_getElem_self hlen
  rw [hget] at hset
  rw [write, if_pos hlen, hset]

lemma read_padded_of_lt (h : i < text.length) : read (padded nul size text) i = some text[i] := by
  rw [read, padded, getElem?_append_left h, getElem?_eq_getElem h]

lemma read_padded_of_le (nul : α) (hi : text.length ≤ i) (hsize : i < size) :
    read (padded nul size text) i = some nul := by
  rw [read, padded, getElem?_append_right hi, getElem?_replicate, if_pos (by omega)]

lemma drop_padded (front : List α) :
    (padded nul size (front ++ text)).drop front.length =
      text ++ replicate (size - (front ++ text).length) nul := by
  rw [padded, append_assoc, drop_left]

end Padded

/-! ## Strings -/

section Strings

variable [DecidableEq α] {nul : α} {s : List α}

section

variable (hs : nul ∉ s)
include hs

lemma strlen_append (t : List α) : strlen nul (s ++ nul :: t) = some s.length := by
  induction s with
  | nil => simp [strlen]
  | cons x s ih =>
    rw [mem_cons, not_or] at hs
    rw [cons_append, strlen, if_neg (Ne.symm hs.1), ih hs.2, map_some, length_cons]

lemma strlen_eq_none : strlen nul s = none := by
  induction s with
  | nil => rfl
  | cons x s ih =>
    rw [mem_cons, not_or] at hs
    rw [strlen, if_neg (Ne.symm hs.1), ih hs.2, map_none]

lemma strlen_padded {size : ℕ} (h : s.length < size) :
    strlen nul (padded nul size s) = some s.length := by
  obtain ⟨n, hn⟩ := Nat.exists_eq_add_of_lt h
  have hsplit : size - s.length = n + 1 := by omega
  rw [padded, hsplit, replicate_succ, strlen_append hs]

lemma strlen_padded_eq_none {size : ℕ} (h : size ≤ s.length) :
    strlen nul (padded nul size s) = none := by
  rw [padded, Nat.sub_eq_zero_of_le h, replicate_zero, append_nil, strlen_eq_none hs]

lemma strncpy_eq_put (b : Buffer α) (i n : ℕ) (t : List α) :
    strncpy nul b i (s ++ nul :: t) n = b.put i (s.take n ++ replicate (n - s.length) nul) := by
  induction s generalizing b i n with
  | nil =>
    cases n with
    | zero => rfl
    | succ n => simp [strncpy]
  | cons x s ih =>
    rw [mem_cons, not_or] at hs
    cases n with
    | zero => simp [strncpy, put]
    | succ n =>
      rw [cons_append, strncpy, if_neg (Ne.symm hs.1), take_succ_cons, cons_append,
        put, length_cons, Nat.add_sub_add_right]
      congr 1
      ext1 b'
      exact ih hs.2 b' (i + 1) n

lemma strncpy_eq_put_of_length (b : Buffer α) (i : ℕ) (t : List α) :
    strncpy nul b i (s ++ t) s.length = b.put i s := by
  induction s generalizing b i with
  | nil => simp [strncpy, put]
  | cons x s ih =>
    rw [mem_cons, not_or] at hs
    rw [cons_append, length_cons, strncpy, if_neg (Ne.symm hs.1), put]
    congr 1
    ext1 b'
    exact ih hs.2 b' (i + 1)

/-- A string is put behind a text, as far as there is room. -/
lemma strncpy_padded {size : ℕ} {text : List α} (h : text.length ≤ size) (t : List α) :
    strncpy nul (padded nul size text) text.length (s ++ nul :: t) (size - text.length) =
      some (padded nul size ((text ++ s).take size)) := by
  have hlen : (s.take (size - text.length) ++
      replicate (size - text.length - s.length) nul).length = size - text.length := by
    simp
    omega
  rw [strncpy_eq_put hs, put_padded (by omega), take_append, take_of_length_le h]
  congr 1
  simp only [padded, append_assoc, length_append, length_take, length_replicate,
    append_cancel_left_eq]
  rw [← replicate_add]
  congr 2
  omega

end

end Strings

end Buffer
