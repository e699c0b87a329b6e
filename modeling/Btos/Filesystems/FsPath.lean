import Btos.Paths.Safety

/-!
# Paths of the kernel

`new_fs_path` of `filesystems.cpp` cuts a path into the list of its nodes. The strings of the nodes
are copied with the kernel's `strncpy`, which writes one NUL and leaves the rest of the buffer as it
is. A buffer from `new` or `malloc` has any contents, `junk`; all accesses to buffers are checked.
-/

open List Option

namespace Filesystems

open Buffer Paths

/-- `FS_PATH_SEPERATOR` -/
def fsPathSeperator : Char := '/'

/-- `to_upper` of `strutil.cpp`; its buffer is filled with NUL before the string is copied. -/
def toUpper (str : Str) : Option Str :=
  (kernelStrncpy (padded nul (str.length + 1) []) 0 (str ++ [nul]) str.length).map fun buf =>
    (buf.map Char.toUpper).takeWhile (· ≠ nul)

section NewFsPath

variable (junk : ℕ → Char)

/-- `new char[size]` -/
def newChars (size : ℕ) : Buffer Char := (List.range size).map junk

/-- A node with the string `current_str` is put behind the others. -/
def addNode (nodes : List (Buffer Char)) (currentStr : Str) : Option (List (Buffer Char)) :=
  let str := newChars junk (currentStr.length + 1)
  (kernelStrncpy str 0 (currentStr ++ [nul]) currentStr.length).map fun str => nodes ++ [str]

/-- One character of the path. -/
def pathRound (st : List (Buffer Char) × Str) (c : Char) : Option (List (Buffer Char) × Str) :=
  if c = fsPathSeperator ∧ 0 < st.2.length then
    (addNode junk st.1 st.2).map fun nodes => (nodes, [])
  else if c ≠ fsPathSeperator then some (st.1, st.2 ++ [c])
  else some st

/-- The node for what is left behind the loop. -/
def lastNode (st : List (Buffer Char) × Str) : Option (List (Buffer Char)) :=
  if st.2 ≠ [] then addNode junk st.1 st.2 else some st.1

/-- `new_fs_path`: the strings of the nodes, in the order of the list. -/
def newFsPath (path : Str) (toupper : Bool) : Option (List (Buffer Char)) := do
  let upath ← if toupper then toUpper path else some path
  let st ← upath.foldlM (pathRound junk) ([], [])
  let nodes ← lastNode junk st
  if nodes = [] then
    let str ← (newChars junk 1).write 0 nul
    some [str]
  else some nodes

end NewFsPath

/-- The upper-cased path. A string ends with its first NUL. -/
def upperPath (path : Str) : Str := Str.toUpper (path.takeWhile (· != nul))

/-- The maximal runs of characters that are not separators, without the empty ones. -/
def runs (s : Str) : List Str := (s.splitOnP (· == fsPathSeperator)).filter (· ≠ [])

/-! ## Strings -/

lemma ne_nul_of_mem_takeWhile {path : Str} {c : Char}
    (h : c ∈ path.takeWhile (· != nul)) : c ≠ nul := by
  simpa using mem_takeWhile_imp h

lemma nul_notMem_upperPath (path : Str) : nul ∉ upperPath path := by
  rw [upperPath, Str.toUpper, List.mem_map]
  rintro ⟨c, hc, hup⟩
  exact ne_nul_of_mem_takeWhile hc (Str.eq_of_toUpper (by decide) hup)

lemma exists_cString (path : Str) : ∃ t, path ++ [nul] = path.takeWhile (· != nul) ++ nul :: t := by
  induction path with
  | nil => exact ⟨[], rfl⟩
  | cons c path ih =>
    obtain ⟨t, ht⟩ := ih
    by_cases hc : c = nul
    · exact ⟨path ++ [nul], by simp [hc]⟩
    · exact ⟨t, by simpa [hc] using ht⟩

lemma toUpper_eq (path : Str) : toUpper path = some (upperPath path) := by
  obtain ⟨t, ht⟩ := exists_cString path
  have hfront := takeWhile_prefix (l := path) (· != nul)
  have hle := hfront.length_le
  have hmem : nul ∉ path.takeWhile (· != nul) := fun h => ne_nul_of_mem_takeWhile h rfl
  have hup : ∀ c ∈ upperPath path, decide (c ≠ nul) = true := fun c hc =>
    decide_eq_true fun h => nul_notMem_upperPath path (h ▸ hc)
  have hend : nul.toUpper = nul := rfl
  have hput : put (padded nul (path.length + 1) []) 0 (path.takeWhile (· != nul) ++ [nul]) =
      some (padded nul (path.length + 1) (path.takeWhile (· != nul) ++ [nul])) :=
    put_padded (by simpa using hle)
  rw [toUpper, ht, kernelStrncpy_eq_put hmem, take_of_length_le hle, hput, map_some,
    padded, append_assoc, map_append]
  change some ((upperPath path ++ _).takeWhile _) = _
  rw [takeWhile_append_of_pos hup]
  simp [hend]

/-! ## Nodes -/

lemma addNode_eq (junk : ℕ → Char) (nodes : List (Buffer Char)) {s : Str} (hs : nul ∉ s) :
    addNode junk nodes s = some (nodes ++ [s ++ [nul]]) := by
  have hlen : (newChars junk (s.length + 1)).length = (s ++ [nul]).length := by simp [newChars]
  have hput := put_append hlen [] []
  rw [append_nil, append_nil, nil_append, length_nil] at hput
  rw [addNode, kernelStrncpy_eq_put hs, take_length, hput]
  rfl

lemma runs_append_separator (s t : Str) : runs (s ++ fsPathSeperator :: t) = runs s ++ runs t := by
  rw [runs, splitOnP_append_cons s t (by simp), filter_append]
  rfl

lemma runs_of_notMem {s : Str} (h : fsPathSeperator ∉ s) : runs s = if s ≠ [] then [s] else [] := by
  have hsplit : s.splitOnP (· == fsPathSeperator) = [s] :=
    splitOnP_eq_singleton fun c hc => by
      simpa using fun heq : c = fsPathSeperator => h (heq ▸ hc)
  rw [runs, hsplit]
  by_cases hs : s = [] <;> simp [hs]

/-- What is left of a path is `s`, and `current` is the run before it. -/
lemma foldlM_pathRound (junk : ℕ → Char) {s current : Str} (hs : nul ∉ s)
    (hcurrent : nul ∉ current) (hrun : fsPathSeperator ∉ current) (nodes : List (Buffer Char)) :
    (s.foldlM (pathRound junk) (nodes, current)).bind (lastNode junk) =
      some (nodes ++ (runs (current ++ s)).map (· ++ [nul])) := by
  induction s generalizing nodes current with
  | nil =>
    rw [append_nil, runs_of_notMem hrun]
    by_cases hne : current = []
    · simp [lastNode, hne]
    · simp [lastNode, hne, addNode_eq junk nodes hcurrent]
  | cons c s ih =>
    rw [mem_cons, not_or] at hs
    rw [foldlM_cons]
    by_cases hc : c = fsPathSeperator
    · subst hc
      rw [runs_append_separator, runs_of_notMem hrun]
      have hnext (nodes : List (Buffer Char)) :
          (s.foldlM (pathRound junk) (nodes, [])).bind (lastNode junk) =
            some (nodes ++ (runs s).map (· ++ [nul])) := ih hs.2 (by simp) (by simp) nodes
      by_cases hne : current = []
      · -- a separator behind no run is passed over
        simpa [pathRound, hne] using hnext nodes
      · have hpos : 0 < current.length := length_pos_iff.mpr hne
        simpa [pathRound, hpos, hne, addNode_eq junk nodes hcurrent] using
          hnext (nodes ++ [current ++ [nul]])
    · have hround : pathRound junk (nodes, current) c = some (nodes, current ++ [c]) := by
        simp [pathRound, hc]
      have hend : nul ∉ current ++ [c] := by simpa [not_or] using ⟨hcurrent, hs.1⟩
      have hsep : fsPathSeperator ∉ current ++ [c] := by simpa [not_or] using ⟨hrun, Ne.symm hc⟩
      rw [hround]
      simpa using ih hs.2 hend hsep nodes

/-- The nodes of a path are the runs of the upper-cased path, each in a buffer that ends with its
NUL, and one empty node if there are no runs. -/
theorem newFsPath_eq (junk : ℕ → Char) (path : Str) :
    newFsPath junk path true = some (if runs (upperPath path) = [] then [[nul]]
      else (runs (upperPath path)).map (· ++ [nul])) := by
  have hnodes := foldlM_pathRound junk (nul_notMem_upperPath path) not_mem_nil not_mem_nil []
  rw [nil_append, nil_append] at hnodes
  have hempty : (newChars junk 1).write 0 nul = some [nul] := rfl
  simp only [newFsPath, if_true, toUpper_eq, bind_eq_bind, bind_some]
  rw [← bind_assoc, hnodes, bind_some]
  by_cases hruns : runs (upperPath path) = []
  · simp [hruns, hempty]
  · simp [hruns]

end Filesystems
