import Btos.Lib.Buffers
import Btos.Lib.Loop
import Btos.Util.Strings

/-!
# Parsing of paths in the C library and in the program loader

`btos_path_parse` of `crt_support.c` and of the program loader's `util.cpp`: a path that is not
absolute is put behind the current directory, and the result is written to the caller's buffer while
empty and `.` components are dropped and `..` takes back the component in front of it.

The two copies are the same but for the functions on strings that they call and for where `path` is:
the C library gets it from `calloc`, which may fail. All accesses are checked: `none` is an access
outside of the buffers.
-/

open List

namespace Paths

open Buffer

/-- `BT_MAX_PATH` -/
@[irreducible]
def maxPath : ℕ := 1024

/-- `BT_MAX_SEGLEN` -/
@[irreducible]
def maxSeglen : ℕ := 256

/-- The end of a string. -/
abbrev nul : Char := '\x00'

/-- A difference of two numbers of type `size_t`. -/
@[irreducible]
def sizeSub (a b : ℕ) : ℕ := (a + (2 ^ 32 - b)) % 2 ^ 32

/-! ## Functions on strings -/

/-- `strcmp` compares two strings; the result is zero if they are the same. -/
abbrev Compare := Buffer Char → Buffer Char → Option ℤ

/-- `strcmp` of the C library. -/
def Crt.strcmp : Compare
  | a :: s, b :: t =>
      if a ≠ nul ∧ a = b then strcmp s t else some ((a.toNat : ℤ) - b.toNat)
  | _, _ => none

/-- The end of the loader's `strcmp`, from the characters at the two pointers and, if there are any,
those in front of them. -/
def Eloader.strcmpEnd (before : Option (Char × Char)) (s t : Buffer Char) : Option ℤ := do
  let a ← s.read 0
  let b ← t.read 0
  if (a == nul) != (b == nul) then some ((a.toNat : ℤ) - b.toNat)
  else before.map fun p => (p.1.toNat : ℤ) - p.2.toNat

/-- The loop of the loader's `strcmp`: the pointers are moved on together with the comparison, also
if the two characters are not the same. -/
def Eloader.strcmpLoop (before : Option (Char × Char)) : Compare
  | a :: s, b :: t =>
      if a ≠ nul ∧ b ≠ nul then
        if a = b then strcmpLoop (some (a, b)) s t else strcmpEnd (some (a, b)) s t
      else strcmpEnd before (a :: s) (b :: t)
  | _, _ => none

/-- `strcmp` of the program loader. -/
def Eloader.strcmp : Compare := fun s t => do
  let a ← s.read 0
  let b ← t.read 0
  if a = nul ∧ b = nul then some 0 else strcmpLoop none s t

/-- `strcmp` of the kernel, with the code of the loader's. -/
def Kernel.strcmp : Compare := Eloader.strcmp

/-- `strncpy` of the kernel, where `n` is one less than the size: there is always a NUL behind what
is copied, and nothing is filled up. -/
def kernelStrncpy (b : Buffer Char) (i : ℕ) : Buffer Char → ℕ → Option (Buffer Char)
  | _, 0 => b.write i nul
  | [], _ + 1 => none
  | c :: src, n + 1 =>
      if c = nul then b.write i nul
      else (b.write i c).bind fun b => kernelStrncpy b (i + 1) src n

/-- `bt_getenv`: the buffer is left alone if the variable has no value. -/
def btGetenv (value : Str) (b : Buffer Char) (size : ℕ) : Option (Buffer Char) :=
  if value ≠ [] then kernelStrncpy b 0 (value ++ [nul]) (size - 1) else some b

/-! ## The path -/

/-- `btos_path_is_absolute` -/
def btosPathIsAbsolute : Buffer Char → Option Bool
  | [] => none
  | c :: rest =>
      if c = nul then some false
      else if c = ':' then some true
      else if c = '/' then some false
      else btosPathIsAbsolute rest

/-- `btos_get_drive_end` -/
def btosGetDriveEnd (path : Buffer Char) : Option ℕ :=
  (strlen nul path).map fun len => ((path.take len).findIdx? (· == ':')).getD 0

/-- A string is put behind the one in `path`. -/
def appendPath (path src : Buffer Char) : Option (Buffer Char) := do
  let len ← strlen nul path
  strncpy nul path len src (maxPath - len)

/-- The first part of `btos_path_parse`. `cwd` is the value of the variable `CWD`, and `stack` what
is in the local buffer that it is copied to. -/
def assemble (opath : Buffer Char) (cwd : Str) (stack : Buffer Char) : Option (Buffer Char) := do
  let path : Buffer Char := padded nul maxPath []
  if ← btosPathIsAbsolute opath then strncpy nul path 0 opath maxPath
  else if (← opath.read 0) = '/' then
    let copy ← btGetenv cwd stack maxPath
    let driveEnd ← btosGetDriveEnd copy
    let path ← strncpy nul path 0 copy driveEnd
    let path ← appendPath path [':', nul]
    appendPath path opath
  else
    let path ← btGetenv cwd path maxPath
    let path ← appendPath path ['/', nul]
    appendPath path opath

/-! ## The loop -/

/-- The variables of the loop; `returned` is set by `return false`. Positions are never added to
without a write in front of it, so that only their differences may wrap around. -/
structure ParseState where
  buffer : Buffer Char
  bpos : ℕ
  ipos : ℕ
  cstart : ℕ
  hasDrive : Bool
  returned : Bool

/-- `buffer[--bpos] = '\0'` -/
def erase (b : Buffer Char) (bpos : ℕ) : Option (Buffer Char × ℕ) :=
  (b.write (sizeSub bpos 1) nul).map fun b => (b, sizeSub bpos 1)

/-- `while(bpos && buffer[bpos] != '/') buffer[bpos--] = '\0'` -/
def rewind (b : Buffer Char) : ℕ → Option (Buffer Char × ℕ)
  | 0 => some (b, 0)
  | bpos + 1 => do
      if (← b.read (bpos + 1)) = '/' then some (b, bpos + 1)
      else rewind (← b.write (bpos + 1) nul) bpos

/-- The component that ends at `bpos`. -/
def component (s : ParseState) : Option (Buffer Char) :=
  let len := sizeSub s.bpos s.cstart
  if 0 < len ∧ len < 2 ^ 31 then
    strncpy nul (padded nul maxSeglen []) 0 (s.buffer.drop s.cstart) len
  else some (padded nul maxSeglen [])

/-- The component is a certain name. -/
def isName (strcmp : Compare) (cstr name : Buffer Char) : Option Bool := do
  if (← strlen nul cstr) = 0 then some false else (strcmp cstr name).map (· == 0)

/-- `bpos-2 > 0 && buffer[bpos-2] != ':'` -/
def goesUp (b : Buffer Char) (bpos : ℕ) : Option Bool :=
  if 0 < sizeSub bpos 2 then (b.read (sizeSub bpos 2)).map (· != ':') else some false

/-- The component in front of `bpos` is taken away up to the slash in front of it. -/
def stepUp (b : Buffer Char) (bpos : ℕ) : Option (Buffer Char × ℕ) :=
  (erase b bpos).bind fun r =>
    (rewind r.1 r.2).bind fun r => (r.1.write r.2 '/').map fun b => (b, r.2 + 1)

/-- What is done at the end of a component `..`. -/
def dotDot (s : ParseState) : Option ParseState := do
  let r ← erase s.buffer s.bpos
  let r ← erase r.1 r.2
  let r ← (goesUp r.1 r.2).bind fun isUp => if isUp then stepUp r.1 r.2 else some r
  some { s with buffer := r.1, bpos := r.2, cstart := r.2 }

/-- What is done at the end of a component, where the character `c` is. -/
def endComponent (strcmp : Compare) (s : ParseState) (c : Char) : Option ParseState := do
  let cstr ← component s
  if ← isName strcmp cstr ['.', '.', nul] then dotDot s
  else if ← isName strcmp cstr ['.', nul] then
    let r ← erase s.buffer s.bpos
    some { s with buffer := r.1, bpos := r.2, cstart := r.2 }
  else if (← strlen nul cstr) ≠ 0 ∧ c ≠ '\n' ∧ c ≠ nul then
    let b ← s.buffer.write s.bpos '/'
    some { s with buffer := b, bpos := s.bpos + 1, cstart := s.bpos + 1 }
  else some s

/-- What is done at a colon. -/
def colon (s : ParseState) : Option ParseState := do
  if !s.hasDrive && s.ipos != 0 then
    let b ← s.buffer.write s.bpos ':'
    let b ← b.write (s.bpos + 1) '/'
    some { s with buffer := b, bpos := s.bpos + 2, cstart := s.bpos + 2, hasDrive := true }
  else some { s with returned := true }

/-- The test of the loop: the character in front of `c` was not the end of the path. -/
def parseTest (path : Buffer Char) (size : ℕ) (s : ParseState) : Option Bool := do
  if s.returned then some false
  else
    let more ← if s.ipos = 0 then some true else (path.read (s.ipos - 1)).map (· != nul)
    some (more && s.bpos < size)

/-- What is done with a character. -/
def character (strcmp : Compare) (s : ParseState) (c : Char) : Option ParseState :=
  if c = ':' then colon s
  else if c = '/' ∨ c = '\n' ∨ c = nul then endComponent strcmp s c
  else (s.buffer.write s.bpos c).map fun b => { s with buffer := b, bpos := s.bpos + 1 }

/-- One round of the loop. -/
def parseRound (strcmp : Compare) (path : Buffer Char) (s : ParseState) : Option ParseState :=
  (path.read s.ipos).bind fun c =>
    (character strcmp s c).map fun s => { s with ipos := s.ipos + 1 }

/-- What is done behind the loop: a slash at the end is taken away, unless it is that of a drive. -/
def dropSlash (s : ParseState) : Option (Buffer Char) := do
  if 1 < s.bpos then
    if (← s.buffer.read (s.bpos - 1)) = '/' then
      if (← s.buffer.read (s.bpos - 2)) ≠ ':' then s.buffer.write (s.bpos - 1) nul
      else some s.buffer
    else some s.buffer
  else some s.buffer

/-- The end of `btos_path_parse`. -/
def finish (s : ParseState) : Option (Bool × Buffer Char) :=
  if s.returned then some (false, s.buffer) else (dropSlash s).map fun b => (true, b)

/-- `btos_path_parse` from the loop on. There are fewer rounds than the bound on them: a round
reads a character of `path`. -/
def parseLoop (strcmp : Compare) (path buffer : Buffer Char) (size : ℕ) :
    Option (Bool × Buffer Char) := do
  let b ← fill nul buffer size
  let s ← Loop.whileDo (parseTest path size) (parseRound strcmp path) (path.length + 2)
    ⟨b, 0, 0, 0, false, false⟩
  finish s

/-- `btos_path_parse` of the C library; `allocated` is whether `calloc` gave a buffer. -/
def Crt.btosPathParse (allocated : Bool) (opath : Buffer Char) (cwd : Str)
    (stack buffer : Buffer Char) (size : ℕ) : Option (Bool × Buffer Char) := do
  if allocated then
    let path ← assemble opath cwd stack
    parseLoop strcmp path buffer size
  else some (false, buffer)

/-- `btos_path_parse` of the program loader. -/
def Eloader.btosPathParse (opath : Buffer Char) (cwd : Str) (stack buffer : Buffer Char)
    (size : ℕ) : Option (Bool × Buffer Char) := do
  let path ← assemble opath cwd stack
  parseLoop strcmp path buffer size

/-! ## The comparison of strings -/

/-- A comparison finds out whether a string is a given one. -/
def Compares (strcmp : Compare) : Prop :=
  ∀ s t u : Str, nul ∉ s → nul ∉ t →
    ∃ d, strcmp (s ++ nul :: u) (t ++ [nul]) = some d ∧ (d = 0 ↔ s = t)

lemma toNat_sub_eq_zero {a b : Char} : (a.toNat : ℤ) - b.toNat = 0 ↔ a = b := by
  rw [Int.sub_eq_zero, Int.natCast_inj, Char.toNat_inj]

lemma Crt.compares_strcmp : Compares Crt.strcmp := by
  intro s t u hs ht
  induction s generalizing t with
  | nil =>
    cases t with
    | nil => exact ⟨_, rfl, by simp⟩
    | cons b t =>
      rw [mem_cons, not_or] at ht
      refine ⟨_, rfl, ?_⟩
      rw [toNat_sub_eq_zero]
      simp [ht.1]
  | cons a s ih =>
    rw [mem_cons, not_or] at hs
    cases t with
    | nil =>
      refine ⟨(a.toNat : ℤ) - nul.toNat, ?_, ?_⟩
      · simp [strcmp, Ne.symm hs.1]
      · rw [toNat_sub_eq_zero]
        simp [Ne.symm hs.1]
    | cons b t =>
      rw [mem_cons, not_or] at ht
      by_cases hab : a = b
      · subst hab
        obtain ⟨d, hd, hiff⟩ := ih t hs.2 ht.2
        refine ⟨d, ?_, by rw [hiff, cons.injEq, eq_self, true_and]⟩
        rw [cons_append, cons_append, strcmp, if_pos ⟨Ne.symm hs.1, rfl⟩, hd]
      · refine ⟨(a.toNat : ℤ) - b.toNat, ?_, ?_⟩
        · rw [cons_append, cons_append, strcmp, if_neg (by simp [hab])]
        · rw [toNat_sub_eq_zero]
          simp [hab]

/-- At a NUL in one of the strings, or behind two characters that are not the same, the loader's
comparison gives a difference that is not zero. -/
lemma Eloader.exists_strcmpEnd (before : Option (Char × Char)) {a b : Char} (s t : Buffer Char)
    (h : ((a == nul) != (b == nul)) = true ∨ ∃ p q, before = some (p, q) ∧ p ≠ q) :
    ∃ d, strcmpEnd before (a :: s) (b :: t) = some d ∧ d ≠ 0 := by
  by_cases hend : ((a == nul) != (b == nul)) = true
  · refine ⟨(a.toNat : ℤ) - b.toNat, if_pos hend, ?_⟩
    rw [Ne, toNat_sub_eq_zero]
    rintro rfl
    simp at hend
  · obtain ⟨p, q, rfl, hne⟩ := h.resolve_left hend
    refine ⟨(p.toNat : ℤ) - q.toNat, if_neg hend, ?_⟩
    rwa [Ne, toNat_sub_eq_zero]

lemma Eloader.exists_strcmpLoop (before : Option (Char × Char)) {s t : Str} (u : Str)
    (hs : nul ∉ s) (ht : nul ∉ t) (h : (s ≠ [] ∨ t ≠ []) ∨ ∃ p, before = some (p, p)) :
    ∃ d, strcmpLoop before (s ++ nul :: u) (t ++ [nul]) = some d ∧ (d = 0 ↔ s = t) := by
  induction s generalizing t before with
  | nil =>
    cases t with
    | nil =>
      obtain ⟨p, rfl⟩ := h.resolve_left (by simp)
      exact ⟨0, by simp [strcmpLoop, strcmpEnd], by simp⟩
    | cons b t =>
      rw [mem_cons, not_or] at ht
      have hend : ((nul == nul) != (b == nul)) = true := by simp [Ne.symm ht.1]
      obtain ⟨d, hd, hne⟩ := exists_strcmpEnd before u (t ++ [nul]) (.inl hend)
      exact ⟨d, by simpa [strcmpLoop] using hd, by simp [hne]⟩
  | cons a s ih =>
    rw [mem_cons, not_or] at hs
    cases t with
    | nil =>
      have hend : ((a == nul) != (nul == nul)) = true := by simp [Ne.symm hs.1]
      obtain ⟨d, hd, hne⟩ := exists_strcmpEnd before (s ++ nul :: u) [] (.inl hend)
      exact ⟨d, by simpa [strcmpLoop] using hd, by simp [hne]⟩
    | cons b t =>
      rw [mem_cons, not_or] at ht
      have hboth : a ≠ nul ∧ b ≠ nul := ⟨Ne.symm hs.1, Ne.symm ht.1⟩
      rw [cons_append, cons_append, strcmpLoop, if_pos hboth]
      by_cases hab : a = b
      · subst hab
        obtain ⟨d, hd, hiff⟩ := ih (some (a, a)) hs.2 ht.2 (.inr ⟨a, rfl⟩)
        exact ⟨d, by rw [if_pos rfl, hd], by rw [hiff, cons.injEq, eq_self, true_and]⟩
      · -- the pointers are behind the difference, at characters that are there
        obtain ⟨x, s', hx⟩ : ∃ x s', s ++ nul :: u = x :: s' :=
          exists_cons_of_ne_nil (by simp)
        obtain ⟨y, t', hy⟩ : ∃ y t', t ++ [nul] = y :: t' := exists_cons_of_ne_nil (by simp)
        obtain ⟨d, hd, hne⟩ := exists_strcmpEnd (some (a, b)) s' t' (.inr ⟨a, b, rfl, hab⟩)
        exact ⟨d, by rw [if_neg hab, hx, hy, hd], by simp [hne, hab]⟩

lemma Eloader.compares_strcmp : Compares Eloader.strcmp := by
  intro s t u hs ht
  by_cases hnil : s = [] ∧ t = []
  · obtain ⟨rfl, rfl⟩ := hnil
    exact ⟨0, by simp [strcmp], by simp⟩
  · have hne : s ≠ [] ∨ t ≠ [] := by rwa [← not_and_or]
    obtain ⟨d, hd, hiff⟩ := exists_strcmpLoop none u hs ht (.inl hne)
    refine ⟨d, ?_, hiff⟩
    obtain ⟨a, s', ha⟩ : ∃ a s', s ++ nul :: u = a :: s' := exists_cons_of_ne_nil (by simp)
    obtain ⟨b, t', hb⟩ : ∃ b t', t ++ [nul] = b :: t' := exists_cons_of_ne_nil (by simp)
    have hends : ¬(a = nul ∧ b = nul) := by
      rintro ⟨rfl, rfl⟩
      have hs' : s = [] := by
        cases s with
        | nil => rfl
        | cons c s => simp [(cons.inj ha).1] at hs
      have ht' : t = [] := by
        cases t with
        | nil => rfl
        | cons c t => simp [(cons.inj hb).1] at ht
      exact hnil ⟨hs', ht'⟩
    rw [← hd, ha, hb]
    simp [strcmp, hends]

/-- In buffers with nothing around the strings, `strcmp` of the kernel and of the loader read
nothing else, and give zero exactly for a string and itself. -/
theorem strcmp_eq_zero_iff {s t : Str} (hs : nul ∉ s) (ht : nul ∉ t) :
    ∀ strcmp ∈ [Kernel.strcmp, Eloader.strcmp],
      ∃ d, strcmp (s ++ [nul]) (t ++ [nul]) = some d ∧ (d = 0 ↔ s = t) := by
  intro strcmp hmem
  obtain rfl : strcmp = Eloader.strcmp := by simpa [Kernel.strcmp] using hmem
  exact Eloader.compares_strcmp s t [] hs ht

/-- The first characters are the same, and the second string ends behind them. -/
theorem exists_strcmp_dot : ∃ d, Kernel.strcmp ['.', '.', nul] ['.', nul] = some d ∧ d ≠ 0 := by
  obtain ⟨d, hd, hiff⟩ := strcmp_eq_zero_iff (s := ['.', '.']) (t := ['.']) (by decide) (by decide)
    Kernel.strcmp mem_cons_self
  exact ⟨d, hd, mt hiff.mp (by decide)⟩

end Paths
