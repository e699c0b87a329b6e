import Mathlib.Data.List.DropRight
import Btos.Lib.Loop
import Btos.Lib.Streams
import Btos.Util.Strings

/-!
# Tables of comma separated values

`table.cpp` of the library: `splitline` takes a line apart at a character. Quotes keep the
character from counting, a backslash takes the character behind it as it is, and blanks at the ends
of a field are removed. `parsecsv` reads the names of the columns from the first line and a row from
each other line that has as many fields as there are columns.

Each quote in a field was behind a backslash, and so was each backslash. `sum_escapes_le` counts
them: it bounds how many of them can come out of a line.
-/

open List

namespace Btoslib

/-- `trim`. -/
def trim (s : Str) : Str := (s.rdropWhile (· == ' ')).dropWhile (· == ' ')

/-! ## The blanks at the ends -/

@[simp]
lemma trim_cons_blank (s : Str) : trim (' ' :: s) = trim s := by
  induction s using reverseRecOn with
  | nil => decide
  | append_singleton s c ih =>
    by_cases hc : c = ' '
    · rw [trim, trim, ← cons_append, rdropWhile_concat_pos _ _ _ (by simp [hc]),
        rdropWhile_concat_pos _ _ _ (by simp [hc])]
      exact ih
    · rw [trim, trim, ← cons_append, rdropWhile_concat_neg _ _ _ (by simp [hc]),
        rdropWhile_concat_neg _ _ _ (by simp [hc])]
      simp

@[simp]
lemma trim_append_blank (s : Str) : trim (s ++ [' ']) = trim s := by
  rw [trim, trim, rdropWhile_concat_pos _ _ _ (by simp)]

/-- Nothing but blanks is removed. -/
lemma exists_blanks (s : Str) : ∃ m n, s = replicate m ' ' ++ (trim s ++ replicate n ' ') := by
  have hblanks : ∀ t : Str, (∀ c ∈ t, (c == ' ') = true) → ∃ n, t = replicate n ' ' :=
    fun t ht => ⟨_, eq_replicate_iff.mpr ⟨rfl, fun c hc => by simpa using ht c hc⟩⟩
  obtain ⟨m, hfront⟩ := hblanks _ fun c hc =>
    mem_takeWhile_imp (p := (· == ' ')) (l := s.rdropWhile (· == ' ')) hc
  obtain ⟨n, hend⟩ := hblanks _ fun c hc => mem_rtakeWhile_imp (p := (· == ' ')) hc
  refine ⟨m, n, ?_⟩
  rw [← hend, ← append_assoc, trim, ← hfront, takeWhile_append_dropWhile,
    rdropWhile_append_rtakeWhile]

@[simp]
lemma trim_trim (s : Str) : trim (trim s) = trim s := by
  have hfront : ∀ n t, trim (replicate n ' ' ++ t) = trim t := by
    intro n t
    induction n with
    | zero => rfl
    | succ n ih => rw [replicate_succ, cons_append, trim_cons_blank, ih]
  have hend : ∀ n t, trim (t ++ replicate n ' ') = trim t := by
    intro n t
    induction n with
    | zero => simp
    | succ n ih => rw [replicate_succ', ← append_assoc, trim_append_blank, ih]
  obtain ⟨m, n, hs⟩ := exists_blanks s
  conv_rhs => rw [hs, hfront, hend]

@[simp]
lemma count_trim {c : Char} (hc : c ≠ ' ') (s : Str) : (trim s).count c = s.count c := by
  obtain ⟨m, n, hs⟩ := exists_blanks s
  conv_rhs => rw [hs]
  simp [count_replicate, hc.symm]

lemma mem_trim {c : Char} (hc : c ≠ ' ') {s : Str} : c ∈ trim s ↔ c ∈ s := by
  rw [← count_pos_iff, ← count_pos_iff, count_trim hc]

/-! ## Fields -/

/-- The variables of `splitline`. -/
structure SplitState where
  ret : List Str
  current : Str
  quote : Bool
  escape : Bool
  deriving DecidableEq, Repr

/-- A round of the loop of `splitline`. -/
def splitChar (delim : Char) (s : SplitState) (c : Char) : SplitState :=
  if !s.escape && c == '"' then { s with quote := !s.quote }
  else if !s.escape && c == '\\' then { s with escape := true }
  else if !s.escape && !s.quote && c == delim then
    { s with ret := s.ret ++ [trim s.current], current := [] }
  else { s with current := s.current ++ [c], escape := false }

/-- `splitline`. -/
def splitline (line : Str) (delim : Char) : List Str :=
  let s := line.foldl (splitChar delim) ⟨[], [], false, false⟩
  if s.current.length ≠ 0 then s.ret ++ [trim s.current] else s.ret

/-- `splitcsv`. -/
def splitcsv (line : Str) : List Str := splitline line ','

/-- Characters without a meaning of their own are added to the field. -/
lemma foldl_splitChar {delim : Char} {text : Str} {quote : Bool}
    (htext : ∀ c ∈ text, c ≠ '"' ∧ c ≠ '\\' ∧ (quote = false → c ≠ delim)) (ret : List Str)
    (current : Str) :
    text.foldl (splitChar delim) ⟨ret, current, quote, false⟩ =
      ⟨ret, current ++ text, quote, false⟩ := by
  induction text generalizing current with
  | nil => simp
  | cons c text ih =>
    rw [forall_mem_cons] at htext
    obtain ⟨hquote, hbackslash, hdelim⟩ := htext.1
    have hround : splitChar delim ⟨ret, current, quote, false⟩ c =
        ⟨ret, current ++ [c], quote, false⟩ := by
      cases quote with
      | false => simp [splitChar, hquote, hbackslash, hdelim rfl]
      | true => simp [splitChar, hquote, hbackslash]
    rw [foldl_cons, hround, ih htext.2, append_assoc, singleton_append]

/-- How many backslashes it takes for a text to come out of `splitline`, at the least. -/
def escapes (s : Str) : ℕ := s.count '"' + 2 * s.count '\\'

@[simp]
lemma escapes_trim (s : Str) : escapes (trim s) = escapes s := by
  rw [escapes, escapes, count_trim (by decide), count_trim (by decide)]

lemma escapes_eq_zero {s : Str} : escapes s = 0 ↔ '"' ∉ s ∧ '\\' ∉ s := by
  simp [escapes, count_eq_zero]

/-- What the fields of a line hold in quotes and backslashes takes backslashes in the line. -/
lemma sum_escapes_le (line : Str) (delim : Char) :
    ((splitline line delim).map escapes).sum ≤ line.count '\\' := by
  have hinv := Loop.foldl_invariant (f := splitChar delim) (l := line)
    (P := fun rest s => (s.ret.map escapes).sum + escapes s.current + s.escape.toNat +
      rest.count '\\' ≤ line.count '\\') (s := ⟨[], [], false, false⟩) ?_ (by simp [escapes])
  · simp only [splitline]
    split
    · simp only [map_append, sum_append, map_singleton, sum_singleton, escapes_trim]
      omega
    · omega
  · intro c rest s hs
    rw [count_cons] at hs
    unfold splitChar
    split_ifs with hquote hbackslash hdelim
    · simp only
      omega
    · simp_all
      omega
    · simp_all [escapes]
    · -- without a backslash in front, the character is none of the two
      have hadd : escapes (s.current ++ [c]) ≤ escapes s.current + s.escape.toNat +
          if c == '\\' then 1 else 0 := by
        simp only [escapes, count_append, count_singleton]
        cases hesc : s.escape with
        | false => simp_all
        | true => split_ifs <;> simp_all <;> omega
      simp only [Bool.toNat_false]
      omega

/-- What is in a field is in the line. -/
lemma mem_of_mem_splitline {line field : Str} {delim c : Char} (hc : c ≠ ' ')
    (hfield : field ∈ splitline line delim) (hmem : c ∈ field) : c ∈ line := by
  have hinv := Loop.foldl_invariant (f := splitChar delim) (l := line)
    (P := fun rest s => (∀ c' ∈ rest, c' ∈ line) ∧ (c ∈ s.current → c ∈ line) ∧
      ∀ t ∈ s.ret, c ∈ t → c ∈ line) (s := ⟨[], [], false, false⟩) ?_ (by simp)
  · simp only [splitline] at hfield
    split at hfield
    · rcases mem_append.mp hfield with hfield | hfield
      · exact hinv.2.2 field hfield hmem
      · rw [mem_singleton.mp hfield, mem_trim hc] at hmem
        exact hinv.2.1 hmem
    · exact hinv.2.2 field hfield hmem
  · rintro c' rest s ⟨hrest, hcurrent, hret⟩
    rw [forall_mem_cons] at hrest
    refine ⟨hrest.2, ?_⟩
    unfold splitChar
    split_ifs with hquote hbackslash hdelim
    · exact ⟨hcurrent, hret⟩
    · exact ⟨hcurrent, hret⟩
    · refine ⟨by simp, fun t ht htrim => ?_⟩
      rcases mem_append.mp ht with ht | ht
      · exact hret t ht htrim
      · rw [mem_singleton.mp ht, mem_trim hc] at htrim
        exact hcurrent htrim
    · refine ⟨fun hmem => ?_, hret⟩
      rcases mem_append.mp hmem with hmem | hmem
      · exact hcurrent hmem
      · exact mem_singleton.mp hmem ▸ hrest.1

/-! ## Tables -/

/-- A row: the first entry of a column counts, as `insert` does not overwrite. -/
abbrev TableRow := List (Str × Str)

/-- `table`. -/
structure Table where
  headers : List Str
  rows : List TableRow
  deriving DecidableEq, Repr

/-- A round of the loop of `parsecsv`: the row of a line, unless it is left out. -/
def parseRow (headers : List Str) (line : Str) : Option TableRow :=
  let fields := splitcsv line
  if fields.length ≠ headers.length then none else some (headers.zip fields)

lemma parseRow_eq_some {headers : List Str} {line : Str} {row : TableRow} :
    parseRow headers line = some row ↔
      (splitcsv line).length = headers.length ∧ headers.zip (splitcsv line) = row := by
  by_cases h : (splitcsv line).length = headers.length <;> simp [parseRow, h]

/-- `parsecsv`; `none` is the exception of `substr`. -/
def parsecsv (file : InputStream Char) : Option Table :=
  let (line, file) := file.getline '\n'
  let header := line.getD []
  -- `!header[0]` is compared with the character, so this is never the case.
  if (if header.headD '\x00' = '\x00' then 1 else 0) = '#'.toNat then some ⟨[], []⟩
  else if header.length < 2 then none
  else
    let headers := splitcsv (header.drop 2)
    some ⟨headers, (file.lines '\n').filterMap (parseRow headers)⟩

end Btoslib
