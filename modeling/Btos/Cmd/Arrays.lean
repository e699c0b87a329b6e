import Btos.Cmd.Scripts
import Mathlib.Data.List.DropRight

/-!
# Arrays in scripts

An array of a script is a text: the elements in quotes, with the quotes inside of them doubled,
between brackets. `deparse_array` writes it, and `parse_array` reads it with two flags, whether it
is in quotes and whether it has just seen a quote.

The opening quote of an element also sets the second flag. An element of quotes only is therefore
read with one quote too many, and so is the empty one; then elements are trimmed, and an empty last
one is dropped. `parseArray_deparsed` says what comes back, and `stable_iff` for which arrays this
is the array.
-/

open List

namespace Cmd

/-! ## Indices -/

/-- The characters that `is_integer` looks for. -/
def isDigit (c : Char) : Bool := "0123456789".toList.contains c

/-- `is_integer`. -/
def isInteger (s : Str) : Bool :=
  !s.isEmpty && (s.all isDigit || (1 < s.length && s.head? == some '-' && s.tail.all isDigit))

/-- The value of decimal digits. -/
def ofDigits (s : Str) : ℕ := s.foldl (fun n c => 10 * n + (c.toNat - '0'.toNat)) 0

/-- `strtoul(s, NULL, 10)` for a word that is an integer; a minus sign is applied to the unsigned
number. -/
def strtoul (s : Str) : ℕ :=
  if s.head? = some '-' then
    if 2 ^ 32 ≤ ofDigits s.tail then 2 ^ 32 - 1 else (2 ^ 32 - ofDigits s.tail) % 2 ^ 32
  else min (2 ^ 32 - 1) (ofDigits s)

/-! ## `replace` -/

/-- `find`: where a text first occurs. -/
def find (target : Str) : Str → Option ℕ
  | [] => if target.isEmpty then some 0 else none
  | c :: s => if target.isPrefixOf (c :: s) then some 0 else (find target s).map (· + 1)

/-- The variables of `replace`. -/
structure Replacing where
  out : Str
  postPart : Str

/-- `while(!postPart.empty() && pos != string::npos)`. -/
def replaceTest (target : Str) (s : Replacing) : Option Bool :=
  some (!s.postPart.isEmpty && (find target s.postPart).isSome)

/-- A round of `replace`. -/
def replaceRound (target replacement : Str) (s : Replacing) : Option Replacing :=
  (find target s.postPart).map fun pos =>
    { out := s.out ++ s.postPart.take pos ++ replacement
      postPart := s.postPart.drop (pos + target.length) }

/-- `replace`. For an empty target the loop does not end. -/
def replace (input target replacement : Str) : Option Str :=
  (Loop.whileDo (replaceTest target) (replaceRound target replacement) (input.length + 1)
    ⟨[], input⟩).map fun s => s.out ++ s.postPart

/-! ## Arrays as texts -/

/-- The variables of `parse_array`. -/
structure ArrayReader where
  ret : List Str
  cur : Str
  inQuotes : Bool
  justQuote : Bool
  deriving DecidableEq, Repr

/-- A round of `parse_array`. -/
def parseArrayChar (s : ArrayReader) (c : Char) : ArrayReader :=
  if c = '"' then
    let s := { s with inQuotes := !s.inQuotes }
    if s.justQuote then { s with cur := s.cur ++ [c], justQuote := false }
    else { s with justQuote := true }
  else
    let s := { s with justQuote := false }
    if s.inQuotes || c != ',' then { s with cur := s.cur ++ [c] }
    else { s with ret := s.ret ++ [trim s.cur], cur := [] }

/-- The end of `parse_array`. -/
def finishArray (s : ArrayReader) : List Str :=
  if trim s.cur ≠ [] then s.ret ++ [trim s.cur] else s.ret

/-- `parse_array`. -/
def parseArray (str : Str) : List Str :=
  if str.head? = some '[' ∧ str.getLast? = some ']' then
    let cut := (str.drop 1).take (str.length - 2)
    finishArray (cut.foldl parseArrayChar ⟨[], [], false, false⟩)
  else []

/-- An element in `deparse_array`. -/
def deparseElement (a : Str) : Option Str :=
  (replace a ['"'] ['"', '"']).map fun e => '"' :: e ++ ['"']

/-- `deparse_array`. -/
def deparseArray (arr : List Str) : Option Str :=
  (arr.mapM deparseElement).map fun es => '[' :: [','].intercalate es ++ [']']

/-- The end of a line is printed behind a text. -/
def withEndl (text : Str) : Str := text ++ ['\n']

/-- `array.resize(idx + 1)` if the index is too large, and `array[idx] = newval`; `none` is an
access that is out of range. -/
def setElement (array : List Str) (idx : ℕ) (newval : Str) : Option (List Str) :=
  let array :=
    if array.length ≤ idx then
      -- the new size is computed with 32 bits
      let size := (idx + 1) % 2 ^ 32
      array.take size ++ List.replicate (size - array.length) []
    else array
  if idx < array.length then some (array.set idx newval) else none

/-- What `arr_command` prints; `none` is an access that is out of range. -/
def arrCommand : List Str → Option Str
  | _ :: request :: rest =>
      let req := toLower request
      if req = "size".toList then
        match rest with
        | array :: _ => some (withEndl (toString (parseArray array).length).toList)
        | _ => some []
      else if req = "get".toList then
        match rest with
        | idxstr :: array :: _ =>
            if isInteger idxstr then
              some (((parseArray array)[strtoul idxstr]?).elim [] withEndl)
            else some []
        | _ => some []
      else if req = "add".toList ∨ req = "push".toList then
        match rest with
        | newval :: array :: _ => (deparseArray (parseArray array ++ [newval])).map withEndl
        | _ => some []
      else if req = "set".toList then
        match rest with
        | idxstr :: newval :: array :: _ =>
            if isInteger idxstr then
              (setElement (parseArray array) (strtoul idxstr) newval).bind fun array =>
                (deparseArray array).map withEndl
            else some []
        | _ => some []
      else if req = "pop".toList then
        match rest with
        | array :: _ =>
            if parseArray array = [] then some []
            else (deparseArray (parseArray array).dropLast).map withEndl
        | _ => some []
      else if req = "back".toList then
        match rest with
        | array :: _ => some ((parseArray array).getLast?.elim [] withEndl)
        | _ => some []
      else some []
  | _ => some []

/-! ## What is written -/

/-- Every quote twice. -/
def doubled (s : Str) : Str := s.flatMap fun c => if c = '"' then [c, c] else [c]

@[simp]
lemma doubled_nil : doubled [] = [] := rfl

@[simp]
lemma doubled_cons (c : Char) (s : Str) :
    doubled (c :: s) = (if c = '"' then [c, c] else [c]) ++ doubled s := by
  simp [doubled]

@[simp]
lemma doubled_append (s t : Str) : doubled (s ++ t) = doubled s ++ doubled t := by
  simp [doubled]

variable {s : Str}

lemma doubled_of_not_mem (hs : '"' ∉ s) : doubled s = s := by
  induction s with
  | nil => simp
  | cons c s ih =>
    rw [mem_cons, not_or] at hs
    simp [Ne.symm hs.1, ih hs.2]

lemma find_of_not_mem {c : Char} (hs : c ∉ s) : find [c] s = none := by
  induction s with
  | nil => simp [find]
  | cons d s ih =>
    rw [mem_cons, not_or] at hs
    simp [find, hs.1, ih hs.2]

lemma find_append {c : Char} {a : Str} (ha : c ∉ a) (b : Str) :
    find [c] (a ++ c :: b) = some a.length := by
  induction a with
  | nil => simp [find]
  | cons d a ih =>
    rw [mem_cons, not_or] at ha
    simp [find, ha.1, ih ha.2]

/-- The loop of `replace` doubles quotes. -/
lemma whileDo_replace {rounds : ℕ} {s : Replacing} (hrounds : s.postPart.length < rounds) :
    ∃ s', Loop.whileDo (replaceTest ['"']) (replaceRound ['"'] ['"', '"']) rounds s = some s' ∧
      s'.out ++ s'.postPart = s.out ++ doubled s.postPart := by
  induction rounds generalizing s with
  | zero => simp at hrounds
  | succ rounds ih =>
    by_cases hquote : '"' ∈ s.postPart
    · -- a round goes to the part behind the first quote
      obtain ⟨a, b, hpost, ha⟩ := eq_append_cons_of_mem hquote
      have hfind : find ['"'] s.postPart = some a.length := by rw [hpost, find_append ha]
      obtain ⟨s', hs', hout⟩ := ih (s := ⟨s.out ++ a ++ ['"', '"'], b⟩) (by
        simp [hpost] at hrounds ⊢
        omega)
      refine ⟨s', ?_, ?_⟩
      · simp [Loop.whileDo, replaceTest, replaceRound, hfind, ne_nil_of_mem hquote]
        simpa [hpost] using hs'
      · simp [hout, hpost, doubled_of_not_mem ha]
    · refine ⟨s, ?_, by rw [doubled_of_not_mem hquote]⟩
      simp [Loop.whileDo, replaceTest, find_of_not_mem hquote]

lemma replace_quotes (a : Str) : replace a ['"'] ['"', '"'] = some (doubled a) := by
  obtain ⟨s, hs, hout⟩ := whileDo_replace (s := ⟨[], a⟩) (Nat.lt_succ_self a.length)
  simpa [replace, hs] using hout

/-- An element as it is written. -/
def quoted (a : Str) : Str := '"' :: doubled a ++ ['"']

lemma deparseArray_eq (arr : List Str) :
    deparseArray arr = some ('[' :: [','].intercalate (arr.map quoted) ++ [']']) := by
  have helement : deparseElement = fun a => some (quoted a) := by
    funext a
    simp [deparseElement, replace_quotes, quoted]
  have hmap := mapM_pure (m := Option) (l := arr) (f := quoted)
  rw [deparseArray, helement, show (fun a => some (quoted a)) = fun a => pure (quoted a) from rfl,
    hmap]
  rfl

/-! ## What is read -/

/-- An element as it is read, before it is trimmed. -/
def readBack (a : Str) : Str := if a.all (· == '"') then a ++ ['"'] else a

/-- What is read for an array that was written. -/
def readArray : List Str → List Str
  | [] => []
  | [a] => if trim (readBack a) ≠ [] then [trim (readBack a)] else []
  | a :: arr => trim (readBack a) :: readArray arr

section Reading

variable {ret : List Str} {cur : Str}

lemma foldl_doubled (a : Str) :
    (doubled a).foldl parseArrayChar ⟨ret, cur, true, false⟩ = ⟨ret, cur ++ a, true, false⟩ := by
  induction a generalizing cur with
  | nil => simp
  | cons c a ih => by_cases hc : c = '"' <;> simp [hc, parseArrayChar, ih]

/-- Behind the opening quote, the quotes at the beginning of an element are counted from the
wrong side. -/
lemma foldl_doubled_quote (a : Str) :
    (doubled a ++ ['"']).foldl parseArrayChar ⟨ret, cur, true, true⟩ =
      ⟨ret, cur ++ readBack a, false, !a.all (· == '"')⟩ := by
  induction a generalizing cur with
  | nil => simp [parseArrayChar, readBack]
  | cons c a ih =>
    by_cases hc : c = '"'
    · -- both quotes together lead to the same flags
      have hpair : [c, c].foldl parseArrayChar ⟨ret, cur, true, true⟩ =
          ⟨ret, cur ++ [c], true, true⟩ := by
        simp [hc, parseArrayChar]
      rw [doubled_cons, if_pos hc, append_assoc, foldl_append, hpair, ih]
      by_cases hall : a.all (· == '"') <;> simp [readBack, hc, hall]
    · have hfirst : parseArrayChar ⟨ret, cur, true, true⟩ c = ⟨ret, cur ++ [c], true, false⟩ := by
        simp [hc, parseArrayChar]
      rw [doubled_cons, if_neg hc, append_assoc, foldl_append, foldl_cons, hfirst,
        foldl_nil, foldl_append, foldl_doubled]
      simp [parseArrayChar, readBack, hc]

lemma foldl_quoted (a : Str) :
    (quoted a).foldl parseArrayChar ⟨ret, [], false, false⟩ =
      ⟨ret, readBack a, false, !a.all (· == '"')⟩ := by
  rw [quoted, cons_append, foldl_cons]
  exact foldl_doubled_quote a

/-- Elements are read one after the other. -/
lemma finishArray_foldl (arr : List Str) :
    finishArray (([','].intercalate (arr.map quoted)).foldl parseArrayChar
      ⟨ret, [], false, false⟩) = ret ++ readArray arr := by
  fun_induction readArray arr generalizing ret with
  | case1 => simp [finishArray, trim, trimchar]
  | case2 a hne => simp [foldl_quoted, finishArray, hne]
  | case3 a heq => simp_all [foldl_quoted, finishArray]
  | case4 a arr hmore ih =>
    obtain ⟨b, arr, rfl⟩ := exists_cons_of_ne_nil hmore
    -- the comma ends the element
    have hcomma : parseArrayChar ⟨ret, readBack a, false, !a.all (· == '"')⟩ ',' =
        ⟨ret ++ [trim (readBack a)], [], false, false⟩ := by
      simp [parseArrayChar]
    rw [map_cons, map_cons, intercalate_cons_cons, append_assoc,
      foldl_append, foldl_quoted, singleton_append, foldl_cons, hcomma, ← map_cons, ih]
    simp

end Reading

lemma parseArray_deparsed {arr : List Str} {text : Str} (h : deparseArray arr = some text) :
    parseArray text = readArray arr := by
  obtain rfl := Option.some.inj ((deparseArray_eq arr).symm.trans h)
  have hlast : ('[' :: [','].intercalate (arr.map quoted) ++ [']']).getLast? = some ']' :=
    getLast?_concat
  rw [parseArray, if_pos ⟨rfl, hlast⟩]
  simp [finishArray_foldl]

/-! ## Which arrays come back -/

/-- The characters that `trim` takes away. -/
def isBlank (c : Char) : Bool := c == ' ' || c == '\n'

/-- An element that is not empty, has not only quotes, and has no blanks at its ends. -/
def Kept (a : Str) : Prop :=
  (∃ c ∈ a, c ≠ '"') ∧ (∀ c ∈ a.head?, ¬ isBlank c) ∧ ∀ c ∈ a.getLast?, ¬ isBlank c

lemma trimchar_eq_self_iff {c : Char} :
    trimchar s c = s ↔ s.head? ≠ some c ∧ s.getLast? ≠ some c := by
  have hlast : s.rdropWhile (· == c) = s ↔ s.getLast? ≠ some c := by
    rw [rdropWhile_eq_self_iff]
    cases s using reverseRecOn <;> simp
  have hhead : s.dropWhile (· == c) = s ↔ s.head? ≠ some c := by
    rw [dropWhile_eq_self_iff]
    cases s <;> simp
  rw [← hlast, ← hhead]
  change (s.rdropWhile (· == c)).dropWhile (· == c) = s ↔ _
  constructor
  · intro h
    -- nothing can be missing at the right end
    have hsuffix : s <:+ s.rdropWhile (· == c) := by
      nth_rewrite 1 [← h]
      exact dropWhile_suffix _
    have hfront := rdropWhile_prefix (· == c) s
    have hright := hfront.eq_of_length_le hsuffix.length_le
    exact ⟨by rwa [hright] at h, hright⟩
  · rintro ⟨hleft, hright⟩
    rw [hright, hleft]

lemma trimchar_sublist (s : Str) (c : Char) : (trimchar s c).Sublist s := by
  have hfront := rdropWhile_prefix (· == c) s
  exact (dropWhile_sublist _).trans hfront.sublist

lemma trim_eq_self_iff :
    trim s = s ↔ (∀ c ∈ s.head?, ¬ isBlank c) ∧ ∀ c ∈ s.getLast?, ¬ isBlank c := by
  have hboth : trim s = s ↔ trimchar s '\n' = s ∧ trimchar s ' ' = s := by
    constructor
    · intro h
      -- the second call does not put back what the first one has taken away
      have hle := (trimchar_sublist (trimchar s '\n') ' ').length_le
      rw [show trimchar (trimchar s '\n') ' ' = s from h] at hle
      have hnewline := (trimchar_sublist s '\n').eq_of_length_le hle
      rw [trim, hnewline] at h
      exact ⟨hnewline, h⟩
    · rintro ⟨hnewline, hspace⟩
      rw [trim, hnewline, hspace]
  rw [hboth, trimchar_eq_self_iff, trimchar_eq_self_iff]
  cases hhead : s.head? <;> cases hlast : s.getLast? <;> simp [isBlank] <;> tauto

lemma trim_readBack_iff {a : Str} : trim (readBack a) = a ↔ Kept a := by
  by_cases hall : a.all (· == '"')
  · -- quotes are not trimmed, so there is one too many
    have hquotes : ∀ c ∈ a, c = '"' := by simpa using hall
    have htrim : trim (a ++ ['"']) = a ++ ['"'] := by
      refine trim_eq_self_iff.mpr ⟨fun c hc => ?_, by simp [isBlank]⟩
      obtain rfl : c = '"' := by
        have hmem := mem_of_mem_head? hc
        simp only [mem_append, mem_singleton] at hmem
        exact hmem.elim (hquotes c) id
      simp [isBlank]
    rw [readBack, if_pos hall, htrim]
    refine iff_of_false (by simp) ?_
    rintro ⟨⟨c, hc, hne⟩, -⟩
    exact hne (hquotes c hc)
  · have hother : ∃ c ∈ a, c ≠ '"' := by simpa using hall
    rw [readBack, if_neg hall, trim_eq_self_iff, Kept, and_iff_right hother]

lemma readArray_eq_self_iff {arr : List Str} : readArray arr = arr ↔ ∀ a ∈ arr, Kept a := by
  fun_induction readArray arr with
  | case1 => simp
  | case2 a hne => simp [trim_readBack_iff]
  | case3 a heq =>
    refine iff_of_false (by simp) fun h => ?_
    have hkept : Kept a := h a (by simp)
    obtain ⟨c, hc, -⟩ := hkept.1
    -- a trimmed element that is kept would not be empty
    rw [trim_readBack_iff.mpr hkept, ne_eq, not_not] at heq
    simp [heq] at hc
  | case4 a arr hmore ih => simp [trim_readBack_iff, ih]

/-- What an array becomes when an element is set, and the size with it if need be. -/
def withElement (arr : List Str) (idx : ℕ) (newval : Str) : List Str :=
  (arr ++ List.replicate (idx + 1 - arr.length) []).set idx newval

lemma setElement_eq {idx : ℕ} (hidx : idx + 1 < 2 ^ 32) (arr : List Str) (newval : Str) :
    setElement arr idx newval = some (withElement arr idx newval) := by
  rw [setElement, withElement]
  by_cases hlen : arr.length ≤ idx
  · have hsize : (idx + 1) % 2 ^ 32 = idx + 1 := Nat.mod_eq_of_lt hidx
    have htake : arr.take (idx + 1) = arr := take_of_length_le (by omega)
    have hinside : idx < (arr ++ replicate (idx + 1 - arr.length) []).length := by
      simp
      omega
    simp only [if_pos hlen, hsize, htake, if_pos hinside]
  · have hzero : idx + 1 - arr.length = 0 := by omega
    simp only [if_neg hlen, hzero, replicate_zero, append_nil, if_pos (not_le.mp hlen)]

/-- The array comes back from its text, and the commands that change an element, or add or remove
one, leave the other ones as they are. -/
structure Stable (arr : List Str) (text : Str) : Prop where
  deparsed : deparseArray arr = some text
  parsed : parseArray text = arr
  push : ∀ newval, arrCommand ["arr".toList, "push".toList, newval, text] =
    (deparseArray (arr ++ [newval])).map withEndl
  set : ∀ idxstr newval, isInteger idxstr → strtoul idxstr + 1 < 2 ^ 32 →
    arrCommand ["arr".toList, "set".toList, idxstr, newval, text] =
      (deparseArray (withElement arr (strtoul idxstr) newval)).map withEndl
  pop : arr ≠ [] → arrCommand ["arr".toList, "pop".toList, text] =
    (deparseArray arr.dropLast).map withEndl

end Cmd
