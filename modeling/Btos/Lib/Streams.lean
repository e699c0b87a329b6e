import Mathlib.Data.List.TakeWhile
import Mathlib.Tactic

/-!
# Input streams

A stream is what is left to be read and the two flags of its state: the end was reached, or an
operation failed. An operation on a stream on which a flag is set fails at once.

That there is nothing left is noticed only by the operation that wants more.
-/

open List

/-- An input stream. -/
@[ext]
structure InputStream (α : Type*) where
  /-- What was not read yet. -/
  rest : List α
  eof : Bool
  fail : Bool
  deriving DecidableEq, Repr

namespace InputStream

variable {α : Type*}

/-- A stream that was just opened. -/
def ofList (text : List α) : InputStream α := ⟨text, false, false⟩

/-- No flag is set. -/
def good (s : InputStream α) : Bool := !s.eof && !s.fail

variable [DecidableEq α]

/-- Take a line and the newline at its end; `none` if there is nothing to take. -/
def getline (newline : α) (s : InputStream α) : Option (List α) × InputStream α :=
  if s.good then
    let line := s.rest.takeWhile (· != newline)
    match s.rest.dropWhile (· != newline) with
    | _ :: rest => (some line, { s with rest })
    | [] =>
        if line = [] then (none, { s with eof := true, fail := true })
        else (some line, { s with rest := [], eof := true })
  else (none, { s with fail := true })

variable {line : List α} {newline : α}

lemma getline_append (hline : newline ∉ line) (rest : List α) :
    (ofList (line ++ newline :: rest)).getline newline = (some line, ofList rest) := by
  have hne : ∀ c ∈ line, (c != newline) = true := by
    intro c hc
    simpa using ne_of_mem_of_not_mem hc hline
  simp [getline, ofList, good, takeWhile_append_of_pos hne, dropWhile_append_of_pos hne]

/-- There is no newline in a line, and a line was not yet read before. -/
lemma getline_some {s s' : InputStream α} (h : s.getline newline = (some line, s')) :
    newline ∉ line ∧ s'.rest.length < s.rest.length := by
  have hnotMem : newline ∉ s.rest.takeWhile (· != newline) := by
    intro hmem
    simpa using mem_takeWhile_imp hmem
  have hsplit := congrArg length (takeWhile_append_dropWhile (p := (· != newline))
    (l := s.rest))
  rw [length_append] at hsplit
  rw [getline] at h
  split at h
  · cases hdrop : s.rest.dropWhile (· != newline) with
    | cons c rest =>
      obtain ⟨rfl, rfl⟩ : s.rest.takeWhile (· != newline) = line ∧ { s with rest } = s' := by
        simpa [hdrop] using h
      rw [hdrop, length_cons] at hsplit
      exact ⟨hnotMem, by simp only; omega⟩
    | nil =>
      simp only [hdrop] at h
      split at h
      · simp at h
      · rename_i hne
        obtain ⟨rfl, rfl⟩ : s.rest.takeWhile (· != newline) = line ∧
            { s with rest := [], eof := true } = s' := by
          simpa using h
        have hpos := length_pos_of_ne_nil hne
        exact ⟨hnotMem, by simp only [length_nil]; omega⟩
  · simp at h

/-- The lines that up to `n` calls of `getline` read, until one fails. -/
def linesWithin (newline : α) : ℕ → InputStream α → List (List α)
  | 0, _ => []
  | n + 1, s =>
      match s.getline newline with
      | (none, _) => []
      | (some line, s') => line :: linesWithin newline n s'

/-- The lines that are read by calling `getline` until it fails. -/
def lines (newline : α) (s : InputStream α) : List (List α) :=
  linesWithin newline (s.rest.length + 1) s

lemma linesWithin_eq (newline : α) {n m : ℕ} {s : InputStream α} (hn : s.rest.length < n)
    (hm : s.rest.length < m) : linesWithin newline n s = linesWithin newline m s := by
  induction n generalizing m s with
  | zero => omega
  | succ n ih =>
    obtain ⟨m, rfl⟩ : ∃ k, m = k + 1 := ⟨m - 1, by omega⟩
    rw [linesWithin, linesWithin]
    rcases h : s.getline newline with ⟨_ | line, s'⟩
    · rfl
    · have hlt := (getline_some h).2
      exact congrArg (line :: ·) (ih (by omega) (by omega))

lemma lines_append (hline : newline ∉ line) (rest : List α) :
    lines newline (ofList (line ++ newline :: rest)) = line :: lines newline (ofList rest) := by
  rw [lines, linesWithin, getline_append hline]
  refine congrArg (line :: ·) (linesWithin_eq newline ?_ ?_)
  · simp [ofList]
    omega
  · simp

lemma newline_notMem {s : InputStream α} (h : line ∈ lines newline s) : newline ∉ line := by
  have hwithin : ∀ (n : ℕ) (s : InputStream α), line ∈ linesWithin newline n s →
      newline ∉ line := by
    intro n
    induction n with
    | zero => simp [linesWithin]
    | succ n ih =>
      intro s h
      rw [linesWithin] at h
      rcases hget : s.getline newline with ⟨_ | first, s'⟩
      · simp [hget] at h
      · rw [hget] at h
        rcases mem_cons.mp h with rfl | h
        · exact (getline_some hget).1
        · exact ih s' h
  exact hwithin _ s h

end InputStream
