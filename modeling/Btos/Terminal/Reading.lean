import Btos.Lib.Buffers

/-!
# Reading a line from a terminal

`vterm::read` in Terminal mode, for the keys that it takes from the keyboard buffer; it waits in
`get_input` when there are no more. The echo of a key does not change the caller's buffer.
-/

open Buffer List

namespace Terminal

/-- `KB_char`: keys that go up and those without a character give 0. -/
def kbChar (value : UInt32) : UInt8 :=
  if value >>> 24 ≠ 1 then 0
  else if value &&& 0x8000 = 0 ∧ value &&& 0x80 = 0 then value.toUInt8 else 0

/-- Control and C go down. -/
def isInterrupt (input : UInt32) : Bool :=
  input &&& 0x2000 ≠ 0 && input &&& 0x8000 = 0 &&
    (input.toUInt8 = 'c'.toUInt8 || input.toUInt8 = 'C'.toUInt8)

/-- Where `read` is: it waits for a key that goes to `buf[i]`, or it has returned, or it has killed
the process. -/
inductive Progress where
  | waits (i : ℕ)
  | returns (ret : ℕ)
  | killed
  deriving DecidableEq, Repr

/-- The loop of `read` for one key. -/
def readKey (size i : ℕ) (buf : Buffer UInt8) (input : UInt32) :
    Option (Progress × Buffer UInt8) :=
  let c := kbChar input
  if isInterrupt input then some (.killed, buf)
  else if c = 0 then some (.waits i, buf)
  else
    (buf.write i c).bind fun buf =>
      if c = 0x08 then
        if i ≠ 0 then (buf.write (i - 1) 0).map (.waits (i - 1), ·) else some (.waits i, buf)
      else if c = '\n'.toUInt8 then some (.returns (i + 1), buf)
      else some (if i + 1 < size then .waits (i + 1) else .returns size, buf)

/-- `read`, from `buf[i]` on; `none` is a write outside the buffer. -/
def read (size i : ℕ) (buf : Buffer UInt8) : List UInt32 → Option (Progress × Buffer UInt8)
  | [] => some (.waits i, buf)
  | input :: keys =>
      (readKey size i buf input).bind fun
        | (.waits i, buf) => read size i buf keys
        | ended => some ended

/-- A line after one more character. -/
def edit (line : List UInt8) (c : UInt8) : List UInt8 :=
  if c = 0x08 then line.dropLast else line ++ [c]

/-- What is typed in, and how far `read` should get with it: up to a newline or `n` characters. -/
def editLine (n : ℕ) (line : List UInt8) : List UInt32 → Progress × List UInt8
  | [] => (.waits line.length, line)
  | input :: keys =>
      if isInterrupt input then (.killed, line)
      else if kbChar input = 0 then editLine n line keys
      else
        let line := edit line (kbChar input)
        if '\n'.toUInt8 ∈ line ∨ line.length = n then (.returns line.length, line)
        else editLine n line keys

variable {n : ℕ}

/-- The line is in front of the rest of the buffer. The induction is on the keys: as long as `read`
waits there is no newline in the line, and less than `n` characters. -/
lemma exists_read_eq (keys : List UInt32) (line rest : List UInt8)
    (hlen : line.length + rest.length = n) (hrest : rest ≠ []) (hline : '\n'.toUInt8 ∉ line) :
    ∃ rest', read n line.length (line ++ rest) keys =
      some ((editLine n line keys).1, (editLine n line keys).2 ++ rest') := by
  induction keys generalizing line rest with
  | nil => exact ⟨rest, rfl⟩
  | cons input keys ih =>
    rw [read, readKey, editLine]
    set c := kbChar input
    by_cases hint : isInterrupt input = true
    · rw [if_pos hint, if_pos hint]
      exact ⟨rest, rfl⟩
    rw [if_neg hint, if_neg hint]
    by_cases hzero : c = 0
    · rw [if_pos hzero, if_pos hzero]
      exact ih _ _ hlen hrest hline
    obtain ⟨x, rest, rfl⟩ := exists_cons_of_ne_nil hrest
    rw [if_neg hzero, if_neg hzero, edit, write_append, Option.bind_some]
    rw [length_cons] at hlen
    by_cases hback : c = 0x08
    · rw [if_pos hback, if_pos hback]
      rcases eq_nil_or_concat' line with rfl | ⟨line, y, rfl⟩
      · rw [length_nil, if_neg (not_not.mpr rfl), dropLast_nil, if_neg (by simp; omega)]
        exact ih [] (c :: rest) hlen (cons_ne_nil _ _) hline
      · -- the last character of the line is overwritten too
        rw [length_append, length_singleton] at hlen ⊢
        rw [if_pos (Nat.succ_ne_zero _), Nat.add_sub_cancel, append_assoc, singleton_append,
          write_append, dropLast_concat, if_neg]
        · exact ih line (0 :: c :: rest) (by simp; omega) (cons_ne_nil _ _)
            fun hmem => hline (mem_append_left _ hmem)
        · exact not_or.mpr ⟨fun hmem => hline (mem_append_left _ hmem), by omega⟩
    rw [if_neg hback, if_neg hback]
    have hnext : line ++ c :: rest = (line ++ [c]) ++ rest := by simp
    by_cases hnewline : c = '\n'.toUInt8
    · rw [if_pos hnewline, if_pos (.inl (by simp [hnewline]))]
      exact ⟨rest, by simp⟩
    have hline' : '\n'.toUInt8 ∉ line ++ [c] := by
      rw [mem_append, mem_singleton]
      exact not_or.mpr ⟨hline, fun heq => hnewline heq.symm⟩
    rw [if_neg hnewline, hnext]
    split_ifs with hfull
    · rw [if_neg (not_or.mpr ⟨hline', by simp; omega⟩)]
      have hagain := ih (line ++ [c]) rest (by simp; omega) (ne_nil_of_length_pos (by omega)) hline'
      rwa [length_append, length_singleton] at hagain
    · rw [if_pos (.inr (by simp; omega))]
      exact ⟨rest, by simp; omega⟩

/-- For every request and all keys `read` is the editing of the line, inside the buffer. -/
theorem read_eq_editLine (n : ℕ) (hn : 1 ≤ n) (keys : List UInt32) (buf : Buffer UInt8)
    (hbuf : buf.length = n) : ∃ rest, read n 0 buf keys =
      some ((editLine n [] keys).1, (editLine n [] keys).2 ++ rest) :=
  exists_read_eq keys [] buf (by simpa using hbuf) (ne_nil_of_length_pos (by omega)) not_mem_nil

/-- Control and C are not a character of the line. -/
theorem read_interrupt : read 1 0 [0] [0x1002063] = some (.killed, [0]) := by decide

/-- `a`, a backspace, `b` and Return, all with the flag of the keyboard. -/
theorem read_backspaced : ∃ rest, read 4 0 [0, 0, 0, 0]
    [0x1000061, 0x1000008, 0x1000062, 0x100000A] = some (.returns 2, [0x62, 0x0A] ++ rest) :=
  read_eq_editLine 4 (by decide) _ [0, 0, 0, 0] rfl

end Terminal
