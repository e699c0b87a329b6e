import Btos.Paths.Parsing
import Mathlib.Data.List.DropRight

/-!
# What a path looks like while it is parsed

The loop of `btos_path_parse` without its buffers. A `Layout` is the text that was written so far,
split where the component begins that is being read. `scan` goes over the characters of a path and
asks at each of them for what the code takes for granted: room for two characters at a colon, a
component that fits into `cstr`, and two characters in front of a `..`.

`parseLoop_eq` says that the loop does what `scan` does, and that an access outside of the buffers
is exactly where `scan` has no result.
-/

open List

namespace Paths

open Buffer

/-- The characters at which a component ends. -/
def isSeparator (c : Char) : Bool := c == '/' || c == '\n' || c == nul

/-- What the loop has written: the part that is finished, and the component that is not. -/
structure Layout where
  pre : Str
  cur : Str
  drive : Bool
  deriving DecidableEq, Repr

namespace Layout

/-- The characters in the buffer. -/
def text (l : Layout) : Str := l.pre ++ l.cur

/-- Nothing is written yet. -/
def empty : Layout := ⟨[], [], false⟩

/-- A character of a component. -/
def add (l : Layout) (c : Char) : Layout := { l with cur := l.cur ++ [c] }

/-- A drive. -/
def addDrive (l : Layout) : Layout := ⟨l.text ++ [':', '/'], [], true⟩

/-- The text up to its last slash, or just a slash. -/
def upToSlash (q : Str) : Str :=
  if q.rdropWhile (· != '/') = [] then ['/'] else q.rdropWhile (· != '/')

/-- The last component is taken away with the slash behind it. A `..` behind a drive, or behind no
more than two characters, has no effect. -/
def up (pre : Str) : Str :=
  if 2 < pre.length ∧ pre[pre.length - 2]? ≠ some ':' then upToSlash pre.dropLast else pre

/-- The end of a component, where the character `c` is. -/
def separate (l : Layout) (c : Char) : Layout :=
  if l.cur = ['.', '.'] then ⟨up l.pre, [], l.drive⟩
  else if l.cur = ['.'] then ⟨l.pre, [], l.drive⟩
  else if l.cur ≠ [] ∧ c ≠ '\n' ∧ c ≠ nul then ⟨l.text ++ ['/'], [], l.drive⟩
  else l

/-- The component may end: it fits into `cstr`, and what is in front of a `..` may be looked at. -/
def Closes (l : Layout) : Prop :=
  l.cur.length < maxSeglen ∧ (l.cur = ['.', '.'] → 2 ≤ l.pre.length)

instance (l : Layout) : Decidable l.Closes := inferInstanceAs (Decidable (_ ∧ _))

end Layout

/-- What is done behind the loop: a slash at the end goes, unless it is that of a drive. -/
def trimSlash (text : Str) : Str :=
  if 1 < text.length ∧ text[text.length - 1]? = some '/' ∧ text[text.length - 2]? ≠ some ':' then
    text.dropLast
  else text

/-- The loop from some character on; `first` is whether it is the first one. The result is whether
the path is accepted, and what is written; there is none where the code would leave its buffers. -/
def scan (size : ℕ) : Layout → Bool → Str → Option (Bool × Layout)
  | l, _, [] => if size ≤ l.text.length then some (true, l) else none
  | l, first, c :: rest =>
      if size ≤ l.text.length then some (true, l)
      else if c = ':' then
        if l.drive || first then some (false, l)
        else if l.text.length + 2 ≤ size then scan size l.addDrive false rest
        else none
      else if isSeparator c then
        if l.Closes then
          if c = nul then some (true, l.separate c) else scan size (l.separate c) false rest
        else none
      else scan size (l.add c) false rest

/-! ## The text -/

namespace Layout

variable {l : Layout} {c : Char}

@[simp]
lemma text_empty : empty.text = [] := rfl

@[simp]
lemma text_add (l : Layout) (c : Char) : (l.add c).text = l.text ++ [c] := by
  simp [add, text]

@[simp]
lemma text_addDrive (l : Layout) : l.addDrive.text = l.text ++ [':', '/'] := by
  simp [addDrive, text]

lemma upToSlash_concat (q : Str) (c : Char) :
    upToSlash (q ++ [c]) = if c = '/' then q ++ [c] else upToSlash q := by
  unfold upToSlash
  by_cases hc : c = '/'
  · simp [hc]
  · rw [rdropWhile_concat_pos _ _ _ (by simpa using hc), if_neg hc]

lemma mem_upToSlash {q : Str} (h : c ∈ upToSlash q) : c ∈ q ∨ c = '/' := by
  unfold upToSlash at h
  split_ifs at h
  · exact .inr (mem_singleton.mp h)
  · have hfront : q.rdropWhile (· != '/') <+: q := rdropWhile_prefix _ _
    exact .inl (hfront.subset h)

lemma length_upToSlash_le (q : Str) : (upToSlash q).length ≤ q.length + 1 := by
  unfold upToSlash
  split_ifs
  · simp
  · have hfront : q.rdropWhile (· != '/') <+: q := rdropWhile_prefix _ _
    exact hfront.length_le.trans (Nat.le_succ _)

lemma mem_up {pre : Str} (h : c ∈ up pre) : c ∈ pre ∨ c = '/' := by
  unfold up at h
  split_ifs at h
  · exact (mem_upToSlash h).imp_left mem_of_mem_dropLast
  · exact .inl h

lemma length_up_le (pre : Str) : (up pre).length ≤ pre.length := by
  unfold up
  split_ifs with hup
  · have hle := length_upToSlash_le pre.dropLast
    rw [length_dropLast] at hle
    omega
  · exact le_rfl

lemma mem_separate {x : Char} (h : x ∈ (l.separate c).text) : x ∈ l.text ∨ x = '/' := by
  unfold separate at h
  split_ifs at h
  · simp only [text, append_nil] at h ⊢
    exact (mem_up h).imp_left (mem_append_left _)
  · simp only [text, append_nil] at h ⊢
    exact .inl (mem_append_left _ h)
  · simpa [text, or_assoc] using h
  · exact .inl h

lemma length_separate_le (l : Layout) (c : Char) :
    (l.separate c).text.length ≤ l.text.length + 1 := by
  unfold separate
  split_ifs
  · have hup := length_up_le l.pre
    simp only [text, append_nil, length_append]
    omega
  · simp only [text, append_nil, length_append]
    omega
  · simp [text, Nat.add_assoc]
  · exact Nat.le_succ _

@[simp]
lemma drive_separate (l : Layout) (c : Char) : (l.separate c).drive = l.drive := by
  unfold separate
  split_ifs <;> rfl

end Layout

/-! ## Rounds of the loop -/

/-- The variables of the loop when so much is written and `ipos` characters are read. -/
def Layout.state (size : ℕ) (l : Layout) (ipos : ℕ) : ParseState :=
  ⟨padded nul size l.text, l.text.length, ipos, l.pre.length, l.drive, false⟩

lemma sizeSub_eq {a b : ℕ} (hle : b ≤ a) (ha : a < 2 ^ 32) : sizeSub a b = a - b := by
  unfold sizeSub
  omega

section Rounds

variable {size : ℕ} {l : Layout}

lemma erase_padded {text : Str} (h : text.length < size) (hsize : size < 2 ^ 32) (c : Char) :
    erase (padded nul size (text ++ [c])) (text ++ [c]).length =
      some (padded nul size text, text.length) := by
  have hsub : sizeSub (text ++ [c]).length 1 = text.length := by
    rw [length_append, length_singleton, sizeSub_eq (by omega) (by omega), Nat.add_sub_cancel]
  rw [erase, hsub, Buffer.erase_padded nul h, Option.map_some]

/-- `while(bpos && buffer[bpos] != '/')` and what follows, from the last character on. -/
lemma rewind_padded {q : Str} (hne : q ≠ []) (h : q.length ≤ size) :
    ((rewind (padded nul size q) (q.length - 1)).bind fun r =>
      (r.1.write r.2 '/').map fun b => (b, r.2 + 1)) =
      some (padded nul size (Layout.upToSlash q), (Layout.upToSlash q).length) := by
  induction q using reverseRecOn with
  | nil => exact absurd rfl hne
  | append_singleton q x ih =>
    rw [length_append, length_singleton] at h
    rw [Layout.upToSlash_concat, length_append, length_singleton, Nat.add_sub_cancel]
    have hwrite := write_padded_last nul size q x '/'
    have hread : read (padded nul size (q ++ [x])) q.length = some x := by
      rw [read_padded_of_lt (by simp)]
      simp
    cases hq : q.length with
    | zero =>
      -- the first character is replaced, whatever it is
      obtain rfl := length_eq_zero_iff.mp hq
      rw [rewind, Option.bind_some]
      rw [length_nil] at hwrite
      rw [hwrite]
      by_cases hx : x = '/' <;> simp [hx, Layout.upToSlash]
    | succ k =>
      rw [hq] at hwrite hread
      by_cases hx : x = '/'
      · subst hx
        simp [rewind, hread, hwrite, hq]
      · have herase := Buffer.erase_padded nul (show q.length < size by omega) x
        have hrest := ih (length_pos_iff.mp (by omega)) (by omega)
        rw [hq, Nat.add_sub_cancel] at hrest
        rw [hq] at herase
        simp [rewind, hread, hx, herase, hrest]

/-- The component that is copied to `cstr`. -/
lemma component_state (hshort : l.text.length < 2 ^ 31) (hnul : nul ∉ l.text) (ipos : ℕ) :
    component (l.state size ipos) =
      if l.cur.length ≤ maxSeglen then some (padded nul maxSeglen l.cur) else none := by
  have hlen : l.text.length = l.pre.length + l.cur.length := length_append
  have hsub : sizeSub l.text.length l.pre.length = l.cur.length := by
    rw [sizeSub_eq (by omega) (by omega), hlen, Nat.add_sub_cancel_left]
  have hcur : nul ∉ l.cur := fun h => hnul (mem_append_right _ h)
  simp only [component, Layout.state, hsub]
  by_cases hnil : l.cur = []
  · simp [hnil]
  · have hpos : 0 < l.cur.length := length_pos_iff.mpr hnil
    rw [if_pos ⟨hpos, by omega⟩, Layout.text, drop_padded, strncpy_eq_put_of_length hcur]
    split_ifs with hfits
    · exact put_padded (by simpa using hfits)
    · refine put_eq_none hnil ?_
      rw [length_padded (Nat.zero_le _)]
      omega

variable {strcmp : Compare} (hstrcmp : Compares strcmp)

include hstrcmp

lemma isName_padded {cur : Str} (hcur : nul ∉ cur) (h : cur.length < maxSeglen) (name : Str)
    (hname : nul ∉ name) (hne : name ≠ []) :
    isName strcmp (padded nul maxSeglen cur) (name ++ [nul]) = some (decide (cur = name)) := by
  rw [isName, strlen_padded hcur h, Option.bind_eq_bind, Option.bind_some]
  by_cases hnil : cur = []
  · subst hnil
    simp [Ne.symm hne]
  · obtain ⟨n, hn⟩ := Nat.exists_eq_add_of_lt h
    have hpadded : padded nul maxSeglen cur = cur ++ nul :: replicate n nul := by
      rw [padded, show maxSeglen - cur.length = n + 1 by omega, replicate_succ]
    obtain ⟨d, hd, hiff⟩ := hstrcmp cur name (replicate n nul) hcur hname
    rw [if_neg (by simpa using hnil), hpadded, hd, Option.map_some]
    congr 1
    rw [Bool.eq_iff_iff, beq_iff_eq, hiff, decide_eq_true_iff]

omit hstrcmp

lemma goesUp_padded {pre : Str} (h : 2 ≤ pre.length) (hsize : pre.length < 2 ^ 32) :
    goesUp (padded nul size pre) pre.length =
      some (decide (2 < pre.length ∧ pre[pre.length - 2]? ≠ some ':')) := by
  rw [goesUp, sizeSub_eq h hsize]
  by_cases hlong : 2 < pre.length
  · have hlt : pre.length - 2 < pre.length := by omega
    rw [if_pos (by omega), read_padded_of_lt hlt, Option.map_some, getElem?_eq_getElem hlt]
    rw [Option.some_inj, Bool.eq_iff_iff]
    simp [hlong]
  · rw [if_neg (by omega)]
    simp [hlong]

lemma stepUp_padded {pre : Str} (h : 2 < pre.length) (hle : pre.length ≤ size)
    (hsize : size < 2 ^ 32) :
    stepUp (padded nul size pre) pre.length =
      some (padded nul size (Layout.upToSlash pre.dropLast),
        (Layout.upToSlash pre.dropLast).length) := by
  obtain ⟨q, x, rfl⟩ : ∃ q x, pre = q ++ [x] :=
    ⟨_, _, (dropLast_append_getLast (length_pos_iff.mp (by omega))).symm⟩
  rw [length_append, length_singleton] at h hle
  rw [stepUp, erase_padded (by omega) hsize, Option.bind_some, dropLast_concat]
  obtain ⟨k, hk⟩ : ∃ k, q.length = k + 1 := ⟨q.length - 1, by omega⟩
  -- the place behind the last character is looked at first
  have hrewind : rewind (padded nul size q) q.length =
      rewind (padded nul size q) (q.length - 1) := by
    have hlt : q.length < size := by omega
    have hread := read_padded_of_le nul le_rfl hlt
    have hwrite := write_padded_nul nul le_rfl hlt
    have hslash : nul ≠ '/' := by decide
    rw [hk] at hread hwrite ⊢
    simp [rewind, hread, hwrite, hslash]
  rw [hrewind]
  exact rewind_padded (length_pos_iff.mp (by omega)) (by omega)

/-- With fewer than two characters in front of it, a `..` is an access outside of the buffer. -/
lemma goesUp_outside {pre : Str} (h : pre.length < 2) (hsize : size < 2 ^ 32)
    (hle : pre.length + 2 ≤ size) :
    ((goesUp (padded nul size pre) pre.length).bind fun isUp =>
      if isUp then stepUp (padded nul size pre) pre.length
      else some (padded nul size pre, pre.length)) = none := by
  have hlen : (padded nul size pre).length = size := length_padded (by omega)
  have hpos : 0 < sizeSub pre.length 2 := by
    unfold sizeSub
    omega
  rw [goesUp, if_pos hpos]
  by_cases hread : sizeSub pre.length 2 < size
  · -- only the first of two places in front of the buffer could be taken for one behind it
    have hzero : pre.length = 0 := by
      unfold sizeSub at hread
      omega
    have hsub : size ≤ sizeSub pre.length 1 := by
      unfold sizeSub
      omega
    have hwide : pre.length ≤ sizeSub pre.length 2 := by omega
    rw [read_padded_of_le nul hwide hread, Option.map_some, Option.bind_some, if_pos (by decide),
      stepUp, erase, write_eq_none (by omega), Option.map_none, Option.bind_none]
  · have hnone : read (padded nul size pre) (sizeSub pre.length 2) = none :=
      getElem?_eq_none (by omega)
    rw [hnone, Option.map_none, Option.bind_none]

/-- A `..` needs two characters in front of it. -/
lemma dotDot_state {pre : Str} (drive : Bool) (h : pre.length + 2 < size) (hsize : size < 2 ^ 32)
    (ipos : ℕ) :
    dotDot (Layout.state size ⟨pre, ['.', '.'], drive⟩ ipos) =
      if 2 ≤ pre.length then some (Layout.state size ⟨Layout.up pre, [], drive⟩ ipos)
      else none := by
  have hfirst : erase (padded nul size (pre ++ ['.', '.'])) (pre ++ ['.', '.']).length =
      some (padded nul size (pre ++ ['.']), (pre ++ ['.']).length) := by
    have hlt : (pre ++ ['.']).length < size := by
      rw [length_append]
      exact Nat.lt_of_succ_lt h
    have herase := erase_padded hlt hsize '.'
    rwa [append_assoc] at herase
  have hsecond : erase (padded nul size (pre ++ ['.'])) (pre ++ ['.']).length =
      some (padded nul size pre, pre.length) := erase_padded (by omega) hsize '.'
  simp only [dotDot, Layout.state, Layout.text, Option.bind_eq_bind, append_nil]
  rw [hfirst, Option.bind_some, hsecond, Option.bind_some]
  split_ifs with hpre
  · rw [goesUp_padded hpre (by omega), Option.bind_some]
    by_cases hup : 2 < pre.length ∧ pre[pre.length - 2]? ≠ some ':'
    · rw [if_pos (decide_eq_true hup), stepUp_padded hup.1 (by omega) hsize, Option.bind_some,
        Layout.up, if_pos hup]
    · rw [if_neg (by simpa using hup), Option.bind_some, Layout.up, if_neg hup]
  · rw [goesUp_outside (by omega) hsize (by omega), Option.bind_none]

include hstrcmp

/-- The end of a component. -/
lemma endComponent_state (h : l.text.length < size) (hsize : size < 2 ^ 32)
    (hshort : l.text.length < 2 ^ 31) (hnul : nul ∉ l.text) (ipos : ℕ) (c : Char) :
    endComponent strcmp (l.state size ipos) c =
      if l.Closes then some ((l.separate c).state size ipos) else none := by
  have hcur : nul ∉ l.cur := fun hmem => hnul (mem_append_right _ hmem)
  rw [endComponent, component_state hshort hnul]
  simp only [Option.bind_eq_bind]
  by_cases hfits : l.cur.length < maxSeglen
  · have hup : isName strcmp (padded nul maxSeglen l.cur) ['.', '.', nul] =
        some (decide (l.cur = ['.', '.'])) :=
      isName_padded hstrcmp hcur hfits ['.', '.'] (by decide) (by decide)
    have hdot : isName strcmp (padded nul maxSeglen l.cur) ['.', nul] =
        some (decide (l.cur = ['.'])) :=
      isName_padded hstrcmp hcur hfits ['.'] (by decide) (by decide)
    rw [if_pos hfits.le, Option.bind_some, hup, Option.bind_some]
    by_cases hdots : l.cur = ['.', '.']
    · obtain ⟨pre, cur, drive⟩ := l
      obtain rfl : cur = ['.', '.'] := hdots
      have hlen : pre.length + 2 < size := by simpa [Layout.text] using h
      rw [if_pos (by simp), dotDot_state drive hlen hsize]
      simp [Layout.Closes, Layout.separate, maxSeglen]
    · rw [if_neg (by simpa using hdots), hdot, Option.bind_some]
      have hcloses : l.Closes := ⟨hfits, fun hc => absurd hc hdots⟩
      rw [if_pos hcloses, Layout.separate, if_neg hdots]
      by_cases hone : l.cur = ['.']
      · obtain ⟨pre, cur, drive⟩ := l
        obtain rfl : cur = ['.'] := hone
        have hlen : pre.length < size := by
          simp [Layout.text] at h
          omega
        have herase := erase_padded hlen hsize '.'
        rw [if_pos (by simp), if_pos rfl]
        simp only [Layout.state, Layout.text, append_nil]
        rw [herase, Option.bind_some]
      · rw [if_neg (by simpa using hone), if_neg hone, strlen_padded hcur hfits, Option.bind_some]
        by_cases hslash : l.cur ≠ [] ∧ c ≠ '\n' ∧ c ≠ nul
        · have hwrite := write_padded nul h '/'
          rw [if_pos (by simpa using hslash), if_pos hslash]
          simp only [Layout.state]
          rw [hwrite]
          simp [Layout.text, Nat.add_assoc]
        · rw [if_neg (by simpa using hslash), if_neg hslash]
  · have hcloses : ¬l.Closes := fun hc => hfits hc.1
    rw [if_neg hcloses]
    split_ifs with hmax
    · -- `cstr` is full, so that its end is not found
      have hlen := strlen_padded_eq_none hcur (Nat.not_lt.mp hfits)
      rw [Option.bind_some, isName, hlen]
      rfl
    · rfl

omit hstrcmp

/-- A colon needs room for two characters. -/
lemma colon_state (h : l.text.length < size) (ipos : ℕ) :
    colon (l.state size ipos) =
      if l.drive || ipos == 0 then some { l.state size ipos with returned := true }
      else if l.text.length + 2 ≤ size then some (l.addDrive.state size ipos)
      else none := by
  have hfirst := write_padded nul h ':'
  have hlen : (l.text ++ [':']).length = l.text.length + 1 := by simp
  rw [colon]
  by_cases hrefused : (l.drive || ipos == 0) = true
  · rw [if_pos hrefused, if_neg]
    simpa [Layout.state, or_iff_not_imp_left] using hrefused
  · rw [if_neg hrefused, if_pos (by simpa [Layout.state] using hrefused)]
    simp only [Layout.state]
    rw [hfirst]
    simp only [Option.bind_eq_bind, Option.bind_some]
    split_ifs with hroom
    · have hsecond : write (padded nul size (l.text ++ [':'])) (l.text.length + 1) '/' = _ :=
        hlen ▸ write_padded nul (by omega) '/'
      rw [hsecond, Option.bind_some]
      simp [Layout.addDrive, Layout.text, Nat.add_assoc]
    · rw [write_eq_none, Option.bind_none]
      rw [length_padded (by omega)]
      omega

include hstrcmp

/-- A character. -/
lemma character_state (h : l.text.length < size) (hsize : size < 2 ^ 32)
    (hshort : l.text.length < 2 ^ 31) (hnul : nul ∉ l.text) (ipos : ℕ) (c : Char) :
    character strcmp (l.state size ipos) c =
      if c = ':' then
        if l.drive || ipos == 0 then some { l.state size ipos with returned := true }
        else if l.text.length + 2 ≤ size then some (l.addDrive.state size ipos)
        else none
      else if isSeparator c then
        if l.Closes then some ((l.separate c).state size ipos) else none
      else some ((l.add c).state size ipos) := by
  have hsep : isSeparator c = true ↔ c = '/' ∨ c = '\n' ∨ c = nul := by
    simp [isSeparator, or_assoc]
  rw [character]
  by_cases hcolon : c = ':'
  · rw [if_pos hcolon, if_pos hcolon, colon_state h]
  · rw [if_neg hcolon, if_neg hcolon]
    by_cases hc : isSeparator c = true
    · rw [if_pos (hsep.mp hc), if_pos hc, endComponent_state hstrcmp h hsize hshort hnul]
    · have hwrite := write_padded nul h c
      rw [if_neg (hsep.not.mp hc), if_neg hc]
      simp only [Layout.state]
      rw [hwrite]
      simp [Layout.add, Layout.text, Nat.add_assoc]

omit hstrcmp

end Rounds

/-! ## The loop -/

section Loop

variable {size : ℕ} {l : Layout} {path front rest : Str}

lemma parseTest_state (hpath : path = front ++ rest) (hfront : ∀ c ∈ front.getLast?, c ≠ nul) :
    parseTest path size (l.state size front.length) = some (decide (l.text.length < size)) := by
  subst hpath
  cases front using reverseRecOn with
  | nil => rfl
  | append_singleton front c =>
    have hc : c ≠ nul := hfront c (by simp)
    simp only [parseTest, Layout.state]
    simp [bne_iff_ne.mpr hc]
    rfl

lemma parseTest_end (front rest : Str) {s : ParseState} (hs : s.ipos = front.length + 1) :
    parseTest (front ++ nul :: rest) size s = some false := by
  simp only [parseTest, hs]
  simp

/-- The variables that matter behind the loop. -/
def ParseState.view (s : ParseState) : ParseState :=
  { s with ipos := 0, cstart := 0, hasDrive := false }

lemma whileDo_of_false {path : Str} {strcmp : Compare} {s : ParseState} {n : ℕ}
    (h : parseTest path size s = some false) :
    Loop.whileDo (parseTest path size) (parseRound strcmp path) (n + 1) s = some s := by
  rw [Loop.whileDo, h]
  rfl

variable {strcmp : Compare} (hstrcmp : Compares strcmp)

include hstrcmp

/-- The loop from some character on, and `scan` from there on. -/
lemma whileDo_state (hsize : size < 2 ^ 32) (hpath : path = front ++ rest)
    (hshort : path.length + 1 < 2 ^ 31) (hfront : ∀ c ∈ front.getLast?, c ≠ nul)
    (hnul : nul ∉ l.text) (hlen : l.text.length ≤ front.length + l.drive.toNat) :
    (Loop.whileDo (parseTest path size) (parseRound strcmp path) (rest.length + 2)
      (l.state size front.length)).map ParseState.view =
      (scan size l front.isEmpty rest).map fun r =>
        ⟨padded nul size r.2.text, r.2.text.length, 0, 0, false, !r.1⟩ := by
  induction rest generalizing front l with
  | nil =>
    rw [Loop.whileDo, parseTest_state hpath hfront, Option.bind_some, scan]
    by_cases hroom : l.text.length < size
    · have hbody : parseRound strcmp path (l.state size front.length) = none := by
        simp [parseRound, Layout.state, hpath]
      rw [if_pos (decide_eq_true hroom), hbody, if_neg (by omega)]
      rfl
    · rw [if_neg (by simpa using hroom), if_pos (by omega)]
      rfl
  | cons c rest ih =>
    have hdrive : l.drive.toNat ≤ 1 := Bool.toNat_le _
    have hpath' : path = (front ++ [c]) ++ rest := by simp [hpath]
    have hfrontLen : front.length < path.length := by simp [hpath]
    rw [Loop.whileDo, parseTest_state hpath hfront, Option.bind_some, scan]
    by_cases hroom : l.text.length < size
    · have hread : read path (l.state size front.length).ipos = some c := by
        simp [Layout.state, hpath]
      have hempty : (front.length == 0) = front.isEmpty := by
        cases front <;> rfl
      rw [if_pos (decide_eq_true hroom), if_neg (by omega), parseRound, hread, Option.bind_some,
        character_state hstrcmp hroom hsize (by omega) hnul, hempty]
      -- from here on the rest of the path is read behind one more character
      have hnext : ∀ l' : Layout, c ≠ nul → nul ∉ l'.text →
          l'.text.length ≤ front.length + 1 + l'.drive.toNat →
          (Loop.whileDo (parseTest path size) (parseRound strcmp path) (rest.length + 2)
            (l'.state size (front.length + 1))).map ParseState.view =
            (scan size l' false rest).map fun r =>
              ⟨padded nul size r.2.text, r.2.text.length, 0, 0, false, !r.1⟩ := by
        intro l' hc hnul' hlen'
        have hlast : ∀ d ∈ (front ++ [c]).getLast?, d ≠ nul := by simpa using hc
        have hisEmpty : (front ++ [c]).isEmpty = false := isEmpty_eq_false_iff.mpr (by simp)
        have hrest := ih hpath' hlast hnul' (by simpa using hlen')
        rwa [hisEmpty, length_append] at hrest
      split_ifs with hcolon hrefused hcolonRoom hsep hcloses hend
      · -- the path is refused
        simp only [Option.map_some, Option.bind_some, length_cons]
        rw [whileDo_of_false rfl]
        rfl
      · refine hnext l.addDrive (by simp [hcolon, nul]) (by simp [hnul, nul]) ?_
        simp only [Bool.or_eq_true, not_or, Bool.not_eq_true] at hrefused
        simp [Layout.addDrive, Layout.text, hrefused.1] at hlen ⊢
        omega
      · rfl
      · -- the end of the path
        subst hend
        simp only [Option.map_some, Option.bind_some, length_cons]
        rw [hpath, whileDo_of_false (parseTest_end front rest rfl)]
        rfl
      · refine hnext (l.separate c) hend ?_ ?_
        · exact fun hmem => (Layout.mem_separate hmem).elim hnul (by decide)
        · have hle := Layout.length_separate_le l c
          rw [Layout.drive_separate]
          omega
      · rfl
      · have hc : c ≠ nul := fun hc => hsep (by simp [hc, isSeparator])
        refine hnext (l.add c) hc ?_ ?_
        · simp [hnul, Ne.symm hc]
        · simp [Layout.add, Layout.text] at hlen ⊢
          omega
    · rw [if_neg (by simpa using hroom), if_pos (by omega)]
      rfl

omit hstrcmp

/-- The text does not get longer than the buffer. -/
lemma length_scan_le {first : Bool} {r : Bool × Layout} (h : scan size l first rest = some r)
    (hl : l.text.length ≤ size) : r.2.text.length ≤ size := by
  fun_induction scan size l first rest with
  | case1 l first hfull =>
    cases h
    exact hl
  | case3 l first c rest hfull =>
    cases h
    exact hl
  | case4 l first rest hroom hrefused =>
    cases h
    exact hl
  | case5 l first rest hroom hdrive htwo ih => exact ih h (by simpa using htwo)
  | case7 l first hroom hcolon hsep hcloses =>
    cases h
    exact (Layout.length_separate_le _ _).trans (by omega)
  | case8 l first c rest hroom hcolon hsep hcloses hend ih =>
    exact ih h ((Layout.length_separate_le _ _).trans (by omega))
  | case10 l first c rest hroom hcolon hsep ih => exact ih h (by simp; omega)
  | _ => cases h

/-- The end of `btos_path_parse`. -/
lemma finish_text {text : Str} (h : text.length ≤ size) (accepted : Bool) :
    finish ⟨padded nul size text, text.length, 0, 0, false, !accepted⟩ =
      some (accepted, padded nul size (if accepted then trimSlash text else text)) := by
  cases accepted with
  | false => rfl
  | true =>
    simp only [finish, Bool.not_true, Bool.false_eq_true, if_false, if_true, dropSlash, trimSlash,
      Option.bind_eq_bind]
    by_cases hlong : 1 < text.length
    · have hlast : text.length - 1 < text.length := by omega
      have hsecond : text.length - 2 < text.length := by omega
      rw [if_pos hlong, read_padded_of_lt hlast, read_padded_of_lt hsecond, Option.bind_some,
        Option.bind_some, getElem?_eq_getElem hlast, getElem?_eq_getElem hsecond]
      by_cases hslash : text[text.length - 1] = '/'
      · by_cases hcolon : text[text.length - 2] = ':'
        · simp [hslash, hcolon]
        · obtain ⟨front, c, rfl⟩ : ∃ front c, text = front ++ [c] :=
            ⟨_, _, (dropLast_append_getLast (length_pos_iff.mp (by omega))).symm⟩
          have herase := Buffer.erase_padded nul (show front.length < size by simp at h; omega) c
          have hlen : (front ++ [c]).length - 1 = front.length := by simp
          have htrims : 1 < (front ++ [c]).length ∧
              some (front ++ [c])[(front ++ [c]).length - 1] = some '/' ∧
              some (front ++ [c])[(front ++ [c]).length - 2] ≠ some ':' :=
            ⟨hlong, by rw [hslash], by simpa using hcolon⟩
          rw [if_pos hslash, if_pos hcolon, if_pos htrims, hlen, herase, dropLast_concat]
          rfl
      · simp [hslash]
    · simp [hlong]

include hstrcmp

/-- `btos_path_parse` from the loop on does what `scan` does, and leaves its buffers exactly where
`scan` has no result. -/
lemma parseLoop_eq {buffer : Buffer Char} (hbuffer : buffer.length = size) (hsize : size < 2 ^ 32)
    (hshort : path.length + 1 < 2 ^ 31) :
    parseLoop strcmp path buffer size =
      (scan size .empty true path).map fun r =>
        (r.1, padded nul size (if r.1 then trimSlash r.2.text else r.2.text)) := by
  have hloop : (Loop.whileDo (parseTest path size) (parseRound strcmp path) (path.length + 2)
      (Layout.empty.state size [].length)).map ParseState.view = _ :=
    whileDo_state hstrcmp hsize (nil_append path).symm hshort nofun nofun (Nat.zero_le _)
  -- only what `view` keeps matters to `finish`
  have hview : ∀ loop : Option ParseState,
      loop.bind finish = (loop.map ParseState.view).bind finish := by
    intro loop
    cases loop <;> rfl
  rw [parseLoop, fill_eq hbuffer, Option.bind_eq_bind, Option.bind_some, Option.bind_eq_bind, hview]
  refine (congrArg (Option.bind · finish) hloop).trans ?_
  cases hscan : scan size .empty true path with
  | none => simp [hscan]
  | some r =>
    have hlen := length_scan_le hscan (Nat.zero_le size)
    simp [hscan, finish_text hlen]

end Loop

end Paths
