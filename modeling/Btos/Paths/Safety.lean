import Btos.Paths.Layout

/-!
# Which paths are parsed inside of the buffers

`parse_inside_iff` says for each path, each current directory and each size of the buffer whether
`btos_path_parse` stays inside of its buffers. It does not in general:

* a path of `BT_MAX_PATH` or more characters has no end in `path`, and only a buffer that is full
  before stops the loop;
* a current directory that is too long leaves no room for the slash behind it, and one without a
  value leaves the local buffer as it was;
* a colon writes two characters where there is room for one;
* a component of `BT_MAX_SEGLEN` or more characters does not fit into `cstr`;
* a `..` with fewer than two characters in front of it looks in front of the buffer.
-/

open List Option

namespace Paths

open Buffer

/-- A string of C. -/
structure CStr where
  text : Str
  nul_notMem : nul ∉ text

/-- The string and its end. -/
def CStr.bytes (s : CStr) : Buffer Char := s.text ++ [nul]

/-! ## The path that is parsed -/

/-- There is a colon, and no slash in front of it. -/
def isAbsolute (path : Str) : Bool := decide (':' ∈ path.takeWhile (· != '/'))

/-- The drive of a directory, without its colon. -/
def driveOf (cwd : Str) : Str := cwd.take ((cwd.findIdx? (· == ':')).getD 0)

/-- The path that is parsed. Of the current directory there are no more characters than fit into a
buffer with a NUL behind them. -/
def fullPath (opath cwd : Str) : Str :=
  if isAbsolute opath then opath
  else if opath.head? = some '/' then driveOf (cwd.take (maxPath - 1)) ++ ':' :: opath
  else cwd ++ '/' :: opath

/-- The path can be put together. -/
def Assembles (opath cwd : Str) : Prop :=
  isAbsolute opath ∨ if opath.head? = some '/' then cwd ≠ [] else cwd.length + 1 < maxPath

/-- What `path` holds. -/
def pathBytes (full : Str) : Buffer Char := padded nul maxPath (full.take maxPath)

lemma btosPathIsAbsolute_eq {path : Str} (h : nul ∉ path) :
    btosPathIsAbsolute (path ++ [nul]) = some (isAbsolute path) := by
  induction path with
  | nil => simp [btosPathIsAbsolute, isAbsolute]
  | cons c path ih =>
    rw [mem_cons, not_or] at h
    rw [cons_append, btosPathIsAbsolute, if_neg (Ne.symm h.1), ih h.2]
    by_cases hcolon : c = ':'
    · simp [hcolon, isAbsolute]
    · by_cases hslash : c = '/'
      · simp [hslash, isAbsolute]
      · simp [hcolon, hslash, isAbsolute, Ne.symm hcolon]

lemma kernelStrncpy_eq_put {s : Str} (hs : nul ∉ s) (b : Buffer Char) (i n : ℕ) (t : List Char) :
    kernelStrncpy b i (s ++ nul :: t) n = b.put i (s.take n ++ [nul]) := by
  have hend : ∀ b : Buffer Char, ∀ i, b.write i nul = b.put i [nul] := by
    intro b i
    rw [put]
    cases b.write i nul <;> rfl
  induction s generalizing b i n with
  | nil => cases n <;> simp [kernelStrncpy, hend]
  | cons c s ih =>
    rw [mem_cons, not_or] at hs
    cases n with
    | zero => simp [kernelStrncpy, hend]
    | succ n =>
      rw [cons_append, kernelStrncpy, if_neg (Ne.symm hs.1), take_succ_cons, cons_append, put]
      congr 1
      ext1 b'
      exact ih hs.2 b' (i + 1) n

lemma padded_concat_nul {size : ℕ} {text : Str} (h : text.length < size) :
    padded nul size (text ++ [nul]) = padded nul size text := by
  have hwrite := write_padded nul h nul
  rw [write_padded_nul nul le_rfl h] at hwrite
  exact (some.inj hwrite).symm

lemma btGetenv_padded {cwd : Str} (h : nul ∉ cwd) :
    btGetenv cwd (padded nul maxPath []) maxPath =
      some (padded nul maxPath (cwd.take (maxPath - 1))) := by
  unfold btGetenv
  split_ifs with hne
  · have hlen : (cwd.take (maxPath - 1)).length < maxPath := by
      simp [maxPath]
    have hput : put (padded nul maxPath []) ([] : Str).length
        (cwd.take (maxPath - 1) ++ [nul]) = _ := put_padded (by simpa using hlen)
    rw [kernelStrncpy_eq_put h]
    refine hput.trans ?_
    rw [nil_append, padded_concat_nul hlen]
  · rw [not_not] at hne
    rw [hne, take_nil]

variable {stack : Buffer Char}

/-- The current directory in a buffer that was not written to. -/
lemma btGetenv_stack {cwd : Str} (h : nul ∉ cwd) (hne : cwd ≠ [])
    (hstack : stack.length = maxPath) :
    ∃ u, btGetenv cwd stack maxPath = some (cwd.take (maxPath - 1) ++ nul :: u) := by
  have hlen : (cwd.take (maxPath - 1)).length + 1 ≤ maxPath := by
    simp [maxPath]
  have hold : (stack.take ((cwd.take (maxPath - 1)).length + 1)).length =
      (cwd.take (maxPath - 1) ++ [nul]).length := by
    rw [length_take_of_le (by omega), length_append, length_singleton]
  have hput := put_append hold [] (stack.drop ((cwd.take (maxPath - 1)).length + 1))
  rw [take_append_drop, nil_append, nil_append, append_assoc, singleton_append] at hput
  rw [btGetenv, if_pos hne, kernelStrncpy_eq_put h]
  exact ⟨_, hput⟩

lemma length_driveOf_lt {s : Str} {n : ℕ} (h : s.length ≤ n) (hn : 0 < n) :
    (driveOf s).length < n := by
  unfold driveOf
  cases hfind : s.findIdx? (· == ':') with
  | none => simpa using hn
  | some i =>
    have hi : i < s.length := (findIdx?_eq_some_iff_getElem.mp hfind).1
    simp
    omega

lemma driveOf_subset (s : Str) : driveOf s ⊆ s := take_subset _ _

lemma take_length_driveOf (s : Str) : s.take (driveOf s).length = driveOf s := by
  rw [driveOf, length_take, take_eq_take_min]
  simp

lemma btosGetDriveEnd_eq {s : Str} (hs : nul ∉ s) (u : Str) :
    btosGetDriveEnd (s ++ nul :: u) = some (driveOf s).length := by
  rw [btosGetDriveEnd, strlen_append hs, map_some, take_left, driveOf]
  congr 1
  cases hfind : s.findIdx? (· == ':') with
  | none => simp
  | some i =>
    have hi : i < s.length := (findIdx?_eq_some_iff_getElem.mp hfind).1
    simp
    omega

lemma appendPath_padded {text s : Str} (htext : nul ∉ text) (hs : nul ∉ s) :
    appendPath (padded nul maxPath text) (s ++ [nul]) =
      if text.length < maxPath then some (padded nul maxPath ((text ++ s).take maxPath))
      else none := by
  rw [appendPath]
  split_ifs with hlen
  · rw [strlen_padded htext hlen, bind_eq_bind, bind_some, strncpy_padded hs hlen.le]
  · rw [strlen_padded_eq_none htext (Nat.not_lt.mp hlen)]
    rfl

variable {opath : Str}

lemma read_zero_eq_slash : read (opath ++ [nul]) 0 = some (opath.head?.getD nul) := by
  cases opath <;> rfl

lemma head_getD_eq_slash : opath.head?.getD nul = '/' ↔ opath.head? = some '/' := by
  cases opath <;> simp [nul]

/-- One character and then a string are put behind a text. -/
lemma appendPath_appendPath {text s : Str} {c : Char} (htext : nul ∉ text) (hc : c ≠ nul)
    (hs : nul ∉ s) (h : text.length < maxPath) :
    ((appendPath (padded nul maxPath text) [c, nul]).bind fun path =>
      appendPath path (s ++ [nul])) =
      if text.length + 1 < maxPath then some (pathBytes (text ++ c :: s)) else none := by
  have hfirst : appendPath (padded nul maxPath text) ([c] ++ [nul]) = _ :=
    appendPath_padded htext (by simpa using Ne.symm hc)
  have hlen : (text ++ [c]).length = text.length + 1 := by simp
  have hnul : nul ∉ text ++ [c] := by simp [htext, Ne.symm hc]
  rw [singleton_append] at hfirst
  rw [hfirst, if_pos h, bind_some, take_of_length_le (by omega),
    appendPath_padded hnul hs, hlen, pathBytes, append_assoc, singleton_append]

lemma assemble_eq_none (habs : isAbsolute opath = false)
    (hslash : opath.head? = some '/') (h : nul ∉ opath) (hstack : nul ∉ stack) :
    assemble (opath ++ [nul]) [] stack = none := by
  rw [assemble, btosPathIsAbsolute_eq h, habs, read_zero_eq_slash]
  simp only [bind_eq_bind, bind_some, Bool.false_eq_true, if_false]
  rw [if_pos (head_getD_eq_slash.mpr hslash), btGetenv, if_neg (by simp), bind_some,
    btosGetDriveEnd, strlen_eq_none hstack]
  rfl

lemma assemble_of_isAbsolute (h : nul ∉ opath) (habs : isAbsolute opath = true)
    (cwd : Str) (stack : Buffer Char) :
    assemble (opath ++ [nul]) cwd stack = some (pathBytes opath) := by
  have hcopy : strncpy nul (padded nul maxPath []) ([] : Str).length (opath ++ [nul])
      (maxPath - ([] : Str).length) = _ := strncpy_padded h (Nat.zero_le _) []
  rw [assemble, btosPathIsAbsolute_eq h, bind_eq_bind, bind_some, if_pos habs]
  exact hcopy

/-- What `path` holds when it is put together. -/
lemma assemble_eq {opath cwd : Str} (hopath : nul ∉ opath) (hcwd : nul ∉ cwd)
    (hslash : isAbsolute opath = false → opath.head? = some '/' → cwd ≠ [])
    (hstack : stack.length = maxPath) :
    assemble (opath ++ [nul]) cwd stack =
      if isAbsolute opath ∨ opath.head? = some '/' ∨ cwd.length + 1 < maxPath then
        some (pathBytes (fullPath opath cwd))
      else none := by
  have hcopied : nul ∉ cwd.take (maxPath - 1) := fun h => hcwd (mem_of_mem_take h)
  by_cases habs : isAbsolute opath = true
  · rw [assemble_of_isAbsolute hopath habs, if_pos (.inl habs), fullPath, if_pos habs]
  · rw [assemble, btosPathIsAbsolute_eq hopath, read_zero_eq_slash]
    simp only [bind_eq_bind, bind_some]
    rw [if_neg habs]
    by_cases hhead : opath.head? = some '/'
    · rw [if_pos (head_getD_eq_slash.mpr hhead), if_pos (.inr (.inl hhead))]
      have hne := hslash (by simpa using habs) hhead
      obtain ⟨u, hu⟩ := btGetenv_stack hcwd hne hstack
      have hdrive : nul ∉ driveOf (cwd.take (maxPath - 1)) :=
        fun h => hcopied (driveOf_subset _ h)
      have hlen : (driveOf (cwd.take (maxPath - 1))).length < maxPath - 1 :=
        length_driveOf_lt (length_take_le _ _) (by simp [maxPath])
      -- the drive is copied, and nothing is filled up behind it
      have hput : put (padded nul maxPath []) ([] : Str).length
          (driveOf (cwd.take (maxPath - 1))) = _ := put_padded (by simp; omega)
      have hle : (driveOf (cwd.take (maxPath - 1))).length ≤ (cwd.take (maxPath - 1)).length :=
        length_take_le' _ _
      rw [hu, bind_some, btosGetDriveEnd_eq hcopied, bind_some,
        strncpy_eq_put hcopied, take_length_driveOf, Nat.sub_eq_zero_of_le hle,
        replicate_zero, append_nil]
      rw [length_nil, nil_append] at hput
      rw [hput, bind_some, appendPath_appendPath hdrive (by decide) hopath (by omega),
        if_pos (by omega), fullPath, if_neg habs, if_pos hhead]
    · have hmax : 0 < maxPath := by simp [maxPath]
      have hlen : (cwd.take (maxPath - 1)).length = min (maxPath - 1) cwd.length :=
        length_take
      rw [if_neg (head_getD_eq_slash.not.mpr hhead), btGetenv_padded hcwd, bind_some,
        appendPath_appendPath hcopied (by decide) hopath (by omega)]
      by_cases hroom : cwd.length + 1 < maxPath
      · rw [if_pos (by omega), if_pos (.inr (.inr hroom)), take_of_length_le (by omega),
          fullPath, if_neg habs, if_neg hhead]
      · rw [if_neg (by omega), if_neg (by simp [habs, hhead, hroom])]

/-! ## Staying inside -/

/-- From some character of `path` on, everything that is looked at and written is inside of the
buffers. Once the buffer is full, or the path is refused, nothing more happens. -/
def Fits (size : ℕ) : Layout → Bool → Str → Prop
  -- the path has no end, so that the buffer has to be full
  | l, _, [] => size ≤ l.text.length
  | l, first, c :: rest =>
      l.text.length < size →
        if c = ':' then
          l.drive = false → first = false →
            l.text.length + 2 ≤ size ∧ Fits size l.addDrive false rest
        else if isSeparator c then
          l.Closes ∧ (c ≠ nul → Fits size (l.separate c) false rest)
        else Fits size (l.add c) false rest

lemma isSome_scan_iff {size : ℕ} {l : Layout} {first : Bool} {rest : Str} :
    (scan size l first rest).isSome ↔ Fits size l first rest := by
  induction rest generalizing l first with
  | nil => simp [scan, Fits]
  | cons c rest ih =>
    rw [scan, Fits]
    by_cases hroom : l.text.length < size
    · rw [if_neg (by omega)]
      simp only [hroom, forall_true_left]
      by_cases hcolon : c = ':'
      · cases l.drive <;> cases first <;> simp [hcolon, ← ih, apply_ite isSome]
      · by_cases hsep : isSeparator c = true
        · rw [if_neg hcolon, if_neg hcolon, if_pos hsep, if_pos hsep]
          by_cases hend : c = nul <;> simp [hend, ← ih, apply_ite isSome]
        · simp [hcolon, hsep, ih]
    · simp [hroom, Nat.not_lt.mp hroom]

/-- The copy of the C library stays inside of its buffers, whatever is in them before. -/
def Crt.Inside (opath cwd : CStr) (size : UInt32) : Prop :=
  ∀ allocated stack buffer, stack.length = maxPath → buffer.length = size.toNat →
    (Crt.btosPathParse allocated opath.bytes cwd.text stack buffer size.toNat).isSome

/-- The copy of the program loader stays inside of its buffers, whatever is in them before. -/
def Eloader.Inside (opath cwd : CStr) (size : UInt32) : Prop :=
  ∀ stack buffer, stack.length = maxPath → buffer.length = size.toNat →
    (Eloader.btosPathParse opath.bytes cwd.text stack buffer size.toNat).isSome

/-- The path can be put together, and be parsed inside of the buffers. -/
def Parses (opath cwd : Str) (size : ℕ) : Prop :=
  Assembles opath cwd ∧ Fits size .empty true (pathBytes (fullPath opath cwd))

lemma length_pathBytes (full : Str) : (pathBytes full).length = maxPath :=
  length_padded (length_take_le _ _)

lemma isSome_parse_iff {strcmp : Compare} (hstrcmp : Compares strcmp) (opath cwd : CStr)
    (size : UInt32) :
    (∀ stack buffer : Buffer Char, stack.length = maxPath → buffer.length = size.toNat →
      ((assemble opath.bytes cwd.text stack).bind fun path =>
        parseLoop strcmp path buffer size.toNat).isSome) ↔
      Parses opath.text cwd.text size.toNat := by
  obtain ⟨opath, hopath⟩ := opath
  obtain ⟨cwd, hcwd⟩ := cwd
  simp only [CStr.bytes, Parses]
  have hshort : maxPath + 1 < 2 ^ 31 := by simp [maxPath]
  -- a path that is put together
  have hparse : Assembles opath cwd → ∀ stack buffer : Buffer Char, stack.length = maxPath →
      buffer.length = size.toNat → (((assemble (opath ++ [nul]) cwd stack).bind fun path =>
        parseLoop strcmp path buffer size.toNat).isSome ↔
        Fits size.toNat .empty true (pathBytes (fullPath opath cwd))) := by
    intro hassembles stack buffer hstack hbuffer
    rw [assemble_eq hopath hcwd _ hstack, if_pos, bind_some,
      parseLoop_eq hstrcmp hbuffer size.toNat_lt (by rwa [length_pathBytes]), isSome_map,
      isSome_scan_iff]
    · rcases hassembles with habs | hrest
      · exact .inl habs
      · split_ifs at hrest with hhead
        · exact .inr (.inl hhead)
        · exact .inr (.inr hrest)
    · intro habs hhead
      rcases hassembles with habs' | hrest
      · rw [habs] at habs'
        cases habs'
      · rwa [if_pos hhead] at hrest
  constructor
  · intro hinside
    have hassembles : Assembles opath cwd := by
      by_contra hnot
      rw [Assembles, not_or, Bool.not_eq_true] at hnot
      obtain ⟨habs, hrest⟩ := hnot
      have hnul : nul ∉ replicate maxPath 'x' :=
        fun hmem => absurd (eq_of_mem_replicate hmem) (by decide)
      have hsome := hinside (replicate maxPath 'x') (replicate size.toNat 'x')
        length_replicate length_replicate
      split_ifs at hrest with hhead
      · obtain rfl := not_not.mp hrest
        rw [assemble_eq_none habs hhead hopath hnul] at hsome
        cases hsome
      · rw [assemble_eq hopath hcwd (fun _ h => absurd h hhead) length_replicate,
          if_neg (by simp [habs, hhead, hrest])] at hsome
        cases hsome
    exact ⟨hassembles, (hparse hassembles (replicate maxPath 'x')
      (replicate size.toNat 'x') length_replicate length_replicate).mp
        (hinside _ _ length_replicate length_replicate)⟩
  · rintro ⟨hassembles, hfits⟩ stack buffer hstack hbuffer
    exact (hparse hassembles stack buffer hstack hbuffer).mpr hfits

lemma Crt.inside_iff_parses (opath cwd : CStr) (size : UInt32) :
    Crt.Inside opath cwd size ↔ Parses opath.text cwd.text size.toNat := by
  rw [← isSome_parse_iff Crt.compares_strcmp]
  constructor
  · exact fun h stack buffer hstack hbuffer => h true stack buffer hstack hbuffer
  · intro h allocated stack buffer hstack hbuffer
    cases allocated with
    | false => rfl
    | true => exact h stack buffer hstack hbuffer

/-- Where the two copies stay inside of their buffers. -/
theorem parse_inside_iff (opath cwd : CStr) (size : UInt32) :
    Crt.Inside opath cwd size ∧ Eloader.Inside opath cwd size ↔
      Assembles opath.text cwd.text ∧
        Fits size.toNat .empty true (pathBytes (fullPath opath.text cwd.text)) := by
  have heloader : Eloader.Inside opath cwd size ↔ Parses opath.text cwd.text size.toNat :=
    isSome_parse_iff Eloader.compares_strcmp opath cwd size
  rw [Crt.inside_iff_parses, heloader, and_self]
  rfl

/-- A drive of one letter in a buffer of two bytes. -/
theorem exists_not_inside :
    ∃ (opath cwd : CStr) (size : UInt32), 1 ≤ size ∧
      ¬(Crt.Inside opath cwd size ∧ Eloader.Inside opath cwd size) := by
  refine ⟨⟨['a', ':'], by decide⟩, ⟨[], by decide⟩, 2, by decide, fun h => ?_⟩
  have hparses := (Crt.inside_iff_parses _ _ _).mp h.1
  have htake : ['a', ':'].take maxPath = ['a', ':'] :=
    take_of_length_le (by simp [maxPath])
  have hfits : Fits 2 .empty true (pathBytes ['a', ':']) := hparses.2
  rw [pathBytes, htake, padded] at hfits
  simp [Fits, isSeparator, nul, Layout.empty, Layout.add, Layout.text] at hfits

end Paths
