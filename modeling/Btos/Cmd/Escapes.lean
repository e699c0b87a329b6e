import Btos.Cmd.Interpreter

/-!
# Escapes in templates

A backslash is meant to take away the meaning of the character behind it, so that a template can
have dollar signs that are not those of a variable. `escape` writes a text in this way, and
`template` puts a variable between two such texts.

Inside of a variable `Interpolate` reads the text back (`foldlM_escape_invar`). Outside of one it
prints the backslash and the character behind it, and then looks at this character again: a
backslash comes out three times, and a dollar sign starts a variable. `printed` is what comes out,
and `interpolate_template_iff` says for which templates it is right.

`parse_command` takes backslashes, too, but not before a bracket (`parseCommand_commandLine_iff`).
-/

open List

namespace Cmd

/-- A backslash is put before every dollar sign and every backslash. -/
def escape (s : Str) : Str := s.flatMap fun c => if c = '$' ∨ c = '\\' then ['\\', c] else [c]

/-- A text, a variable and a text. -/
def template (s n t : Str) : Str := escape s ++ '$' :: (escape n ++ '$' :: escape t)

/-- A function for variables that also notes what it is asked for. -/
def logged (lookup : Str → Str) (name : Str) : StateM (List Str) Str := fun calls =>
  (lookup name, calls ++ [name])

/-- What `Interpolate` returns, and the names that it looks up. -/
def interpolated (lookup : Str → Str) (tmpl : Str) : Str × List Str :=
  (interpolate (logged lookup) tmpl).run []

/-- A text without dollar signs and backslashes. -/
def Plain (s : Str) : Prop := '$' ∉ s ∧ '\\' ∉ s

instance decidablePlain (s : Str) : Decidable (Plain s) := inferInstanceAs (Decidable (_ ∧ _))

/-- What is printed for an escaped text outside of a variable. -/
def printed : Str → Str
  | [] => []
  -- the rest is taken for the name of a variable
  | '$' :: _ => ['\\', '$']
  | '\\' :: s => '\\' :: '\\' :: '\\' :: printed s
  | c :: s => c :: printed s

attribute [elab_as_elim] printed.induct_unfolding

@[simp]
lemma escape_nil : escape [] = [] := rfl

@[simp]
lemma escape_cons (c : Char) (s : Str) :
    escape (c :: s) = (if c = '$' ∨ c = '\\' then ['\\', c] else [c]) ++ escape s := by
  simp [escape]

/-! ## Where the first dollar sign is -/

variable {s n t : Str}

lemma mem_printed : '$' ∈ printed s ↔ '$' ∈ s := by
  fun_induction printed s <;> simp_all

lemma printed_of_plain (hs : Plain s) : printed s = s := by
  unfold Plain at hs
  fun_induction printed s <;> simp_all

lemma idxOf_le_printed (s : Str) : s.idxOf '$' ≤ (printed s).idxOf '$' := by
  fun_induction printed s with
  | case1 => simp
  | case2 s => simp
  | case3 s ih =>
    simp
    omega
  | case4 c s hdollar hescape ih =>
    rw [idxOf_cons_ne s hdollar, idxOf_cons_ne _ hdollar]
    omega

lemma idxOf_lt_printed (hs : ¬ Plain s) : s.idxOf '$' < (printed s).idxOf '$' := by
  unfold Plain at hs
  fun_induction printed s with
  | case1 => simp at hs
  | case2 s => simp
  | case3 s ih =>
    have hle := idxOf_le_printed s
    simp
    omega
  | case4 c s hdollar hescape ih =>
    have hlt := ih (by simpa [Ne.symm hdollar, Ne.symm hescape] using hs)
    rw [idxOf_cons_ne s hdollar, idxOf_cons_ne _ hdollar]
    omega

/-! ## Texts that are read -/

section Reading

variable {m : Type → Type} [Monad m] [LawfulMonad m] {lookup : Str → m Str} {out varname : Str}

lemma foldlM_escape_invar (s : Str) :
    (escape s).foldlM (interpolateChar lookup) ⟨out, varname, true, false⟩ =
      pure ⟨out, varname ++ s, true, false⟩ := by
  induction s generalizing varname with
  | nil => simp
  | cons c s ih =>
    by_cases hc : c = '$' ∨ c = '\\'
    · -- the backslash sets the flag, and the character behind it clears it
      simp [hc, interpolateChar, ih]
    · push Not at hc
      simp [hc, interpolateChar, ih]

lemma foldlM_escape (hs : '$' ∉ s) :
    (escape s).foldlM (interpolateChar lookup) ⟨out, varname, false, false⟩ =
      pure ⟨out ++ printed s, varname, false, false⟩ := by
  fun_induction printed s generalizing out with
  | case1 => simp
  | case2 s => simp at hs
  | case3 s ih =>
    -- once when it is read as an escape, and twice behind it
    simp_all [interpolateChar]
  | case4 c s hdollar hescape ih => simp_all [interpolateChar]

/-- What is printed for any text, which may end inside of a variable. -/
lemma exists_foldlM_escape (lookup : Str → m Str) (s out : Str) :
    ∃ st : Interpolation, st.out = out ++ printed s ∧
    (escape s).foldlM (interpolateChar lookup) ⟨out, [], false, false⟩ = pure st := by
  fun_induction printed s generalizing out with
  | case1 => exact ⟨_, by simp, rfl⟩
  | case2 s =>
    -- the dollar sign is printed, and the rest is the name of a variable
    exact ⟨⟨out ++ ['\\', '$'], s, true, false⟩, rfl,
      by simp [interpolateChar, foldlM_escape_invar]⟩
  | case3 s ih => simpa [interpolateChar] using ih (out ++ ['\\', '\\', '\\'])
  | case4 c s hdollar hescape ih =>
    have hc : c ≠ '$' ∧ c ≠ '\\' := ⟨hdollar, hescape⟩
    simpa [interpolateChar, hc] using ih (out ++ [c])

lemma interpolate_template (hs : '$' ∉ s) (n t : Str) :
    interpolate lookup (template s n t) =
      (fun value => printed s ++ value ++ printed t) <$> lookup n := by
  rw [interpolate, template, foldlM_append, foldlM_escape hs, pure_bind, foldlM_cons]
  have hlast (value : Str) : Interpolation.out <$> (escape t).foldlM (interpolateChar lookup)
      ⟨printed s ++ value, [], false, false⟩ = pure (printed s ++ (value ++ printed t)) := by
    obtain ⟨st, hout, hst⟩ := exists_foldlM_escape lookup t (printed s ++ value)
    simp [hst, hout]
  simp [interpolateChar, foldlM_escape_invar, hlast]

end Reading

/-! ## Which templates come out right -/

section Logged

variable (lookup : Str → Str)

lemma isPrefix_interpolateChar (st : Interpolation) (c : Char) (calls : List Str) :
    st.out <+: ((interpolateChar (logged lookup) st c).run calls).1.out := by
  unfold interpolateChar
  -- what a round prints is put behind what was printed, or nothing is printed
  split_ifs <;> first
    | exact prefix_refl _
    | exact prefix_append _ _
    | exact (prefix_append _ _).trans (prefix_append _ _)

lemma isPrefix_foldlM (st : Interpolation) (text : Str) (calls : List Str) :
    st.out <+: ((text.foldlM (interpolateChar (logged lookup)) st).run calls).1.out := by
  induction text generalizing st calls with
  | nil => exact prefix_rfl
  | cons c text ih =>
    rw [foldlM_cons, StateT.run_bind]
    exact (isPrefix_interpolateChar lookup st c calls).trans (ih _ _)

lemma printed_isPrefix (s text : Str) :
    printed s <+: (interpolated lookup (escape s ++ text)).1 := by
  obtain ⟨st, hout, hst⟩ := exists_foldlM_escape (logged lookup) s []
  rw [interpolated, interpolate, foldlM_append, hst, pure_bind, ← nil_append (printed s), ← hout]
  exact isPrefix_foldlM lookup st text []

/-- A template comes out as its first text, the value and its second text, and the value is looked
up once, if and only if both texts are without dollar signs and backslashes. -/
theorem interpolate_template_iff (s n t : Str) :
    interpolated lookup (template s n t) = (s ++ lookup n ++ t, [n]) ↔ Plain s ∧ Plain t := by
  constructor
  · intro h
    have hs : '$' ∉ s := by
      intro hmem
      obtain ⟨more, hmore⟩ := printed_isPrefix lookup s ('$' :: (escape n ++ '$' :: escape t))
      -- the first dollar sign is in what was printed for the first text, and comes too late
      have hidx : (printed s ++ more).idxOf '$' = (s ++ (lookup n ++ t)).idxOf '$' := by
        rw [hmore, ← append_assoc]
        exact congrArg (fun r => r.1.idxOf '$') h
      rw [idxOf_append_of_mem (mem_printed.mpr hmem), idxOf_append_of_mem hmem] at hidx
      exact absurd hidx (idxOf_lt_printed fun hplain => hplain.1 hmem).ne'
    have hout : printed s ++ (lookup n ++ printed t) = s ++ (lookup n ++ t) := by
      rw [interpolated, interpolate_template hs] at h
      simpa [logged, StateT.run, Functor.map, StateT.map] using congrArg Prod.fst h
    have hidx := congrArg (idxOf '$') hout
    have hrest : (lookup n ++ t).idxOf '$' ≤ (lookup n ++ printed t).idxOf '$' := by
      by_cases hvalue : '$' ∈ lookup n
      · simp [idxOf_append_of_mem hvalue]
      · simpa [idxOf_append_of_notMem hvalue] using idxOf_le_printed t
    have hplain : Plain s := by
      by_contra hplain
      have hlt := idxOf_lt_printed hplain
      have hs' : '$' ∉ printed s := mem_printed.not.mpr hs
      rw [idxOf_of_notMem hs, idxOf_of_notMem hs'] at hlt
      rw [idxOf_append_of_notMem hs', idxOf_append_of_notMem hs] at hidx
      omega
    rw [printed_of_plain hplain, append_cancel_left_eq, append_cancel_left_eq] at hout
    refine ⟨hplain, ?_⟩
    by_contra ht
    exact absurd (congrArg (idxOf '$') hout) (idxOf_lt_printed ht).ne'
  · rintro ⟨hs, ht⟩
    rw [interpolated, interpolate_template hs.1, printed_of_plain hs, printed_of_plain ht]
    simp [logged, StateT.run, Functor.map, StateT.map]

end Logged

/-- For an escaped dollar sign and the variable `x`, a variable without a name is looked up, and
`x` is printed. -/
theorem exists_not_template : ∃ (lookup : Str → Str) (s n t : Str),
    interpolated lookup (template s n t) ≠ (s ++ lookup n ++ t, [n]) := by
  refine ⟨fun _ => ['v'], ['$'], ['x'], [], ?_⟩
  decide

/-! ## Arguments of a command -/

/-- A backslash is put before a character that is neither a letter nor a digit. -/
def quote (c : Char) : Str :=
  if c.isAlphanum then [c] else ['\\', if c = '\n' then 'n' else c]

/-- The arguments, with a space between each two of them. -/
def commandLine (args : List Str) : Str := [' '].intercalate (args.map (flatMap quote))

/-- Where a character of an argument stands: outside of lists, behind the bracket that opens one,
in a list, or behind the bracket that closes it. -/
inductive Place where
  | outside
  | opened
  | inside
  | closed
  deriving DecidableEq

/-- A list is from an opening bracket to the next closing one. Behind both there has to be, except
for backslashes, a letter or a digit other than `n`. -/
def Place.next : Place → Char → Option Place
  | .outside, c => some (if c = '[' then .opened else .outside)
  | .inside, c => some (if c = ']' then .closed else .inside)
  | p, c =>
    if c = '\\' then some p
    else if c.isAlphanum ∧ c ≠ 'n' then some (if p = .opened then .inside else .outside)
    else none

/-- All arguments are made in this way, and only the last one ends elsewhere than outside of
lists. -/
def ReadBack : List Str → Prop
  | [] => True
  | [a] => (a.foldlM Place.next .outside).isSome
  | a :: args => a.foldlM Place.next .outside = some .outside ∧ ReadBack args

/-- The variables of `parse_command` at a place. -/
def Place.splitting (p : Place) (ret : List Str) (current : Str) : Splitting :=
  ⟨ret, current, false, p = .opened ∨ p = .closed, p = .opened ∨ p = .inside⟩

/-- What `parse_command` returns at the end of the line. -/
def Splitting.args (s : Splitting) : Line :=
  if s.current ≠ [] then s.ret ++ [s.current] else s.ret

/-- The argument with a number, complete or not, begins with the text. -/
def Splitting.Begins (s : Splitting) (n : ℕ) (text : Str) : Prop :=
  ∃ a, (s.ret ++ [s.current])[n]? = some a ∧ text <+: a

lemma isspace_of_isAlphanum {c : Char} (hc : c.isAlphanum) : isspace c = false := by
  have hlow : 48 ≤ c.toNat := by
    have hnot : ∀ n < 48, (Char.ofNat n).isAlphanum = false := by decide
    by_contra hlt
    have heq := hnot c.toNat (Nat.lt_of_not_le hlt)
    rw [Char.ofNat_toNat, hc] at heq
    cases heq
  rw [isspace, Bool.or_eq_false_iff, beq_eq_false_iff_ne]
  refine ⟨?_, by simp; omega⟩
  rintro rfl
  exact absurd hlow (by decide)

/-- A character is added to the current argument, or the argument is complete. -/
lemma splitChar_cases (s : Splitting) (c : Char) :
    (∃ w, (splitChar s c).ret = s.ret ∧ (splitChar s c).current = s.current ++ w) ∨
      (splitChar s c).ret = s.ret ++ [s.current] ∧ (splitChar s c).current = [] := by
  unfold splitChar
  split_ifs with hspace hempty
  · exact .inr ⟨rfl, rfl⟩
  · exact .inl ⟨[], rfl, by simpa using hempty⟩
  all_goals exact .inl ⟨_, rfl, by first | rfl | exact (append_nil _).symm⟩

/-- What has been read of an argument stays. -/
lemma Splitting.Begins.foldl {s : Splitting} {n : ℕ} {text : Str} (h : s.Begins n text)
    (input : Str) : (input.foldl splitChar s).Begins n text := by
  induction input generalizing s with
  | nil => exact h
  | cons c input ih =>
    refine ih ?_
    obtain ⟨a, ha, htext⟩ := h
    rcases splitChar_cases s c with ⟨w, hret, hcurrent⟩ | ⟨hret, hcurrent⟩
    · rw [Splitting.Begins, hret, hcurrent]
      rcases Nat.lt_or_ge n s.ret.length with hn | hn
      · exact ⟨a, by rwa [getElem?_append_left hn] at ha ⊢, htext⟩
      · -- the argument is the current one
        rw [getElem?_append_right hn, getElem?_singleton] at ha
        split at ha
        · cases ha
          refine ⟨_, by rw [getElem?_append_right hn, getElem?_singleton, if_pos ‹_›],
            htext.trans (prefix_append _ _)⟩
        · cases ha
    · rw [Splitting.Begins, hret, hcurrent]
      have hn := (List.getElem?_eq_some_iff.mp ha).1
      exact ⟨a, by rwa [getElem?_append_left hn], htext⟩

lemma marks_of_isAlphanum {c : Char} (hc : c.isAlphanum) :
    c ≠ '"' ∧ c ≠ '\\' ∧ c ≠ '[' ∧ c ≠ ']' ∧ c ≠ '\n' := by
  refine ⟨?_, ?_, ?_, ?_, ?_⟩ <;> rintro rfl <;> exact absurd hc (by decide)

lemma Splitting.Begins.args {s : Splitting} {n : ℕ} {text b : Str} (h : s.Begins n text)
    (hb : s.args[n]? = some b) : text <+: b := by
  obtain ⟨a, ha, hbegins⟩ := h
  rw [Splitting.args] at hb
  split at hb
  · exact Option.some.inj (hb.symm.trans ha) ▸ hbegins
  · rw [getElem?_append_left (List.getElem?_eq_some_iff.mp hb).1, hb] at ha
    exact Option.some.inj ha ▸ hbegins

variable {p p' : Place} {c : Char}

/-- A character is read back at a place where it is allowed. -/
lemma foldl_quote (h : p.next c = some p') (ret : List Str) (current : Str) :
    (quote c).foldl splitChar (p.splitting ret current) = p'.splitting ret (current ++ [c]) := by
  by_cases hword : c.isAlphanum
  · obtain ⟨hquote, hback, hopen, hclose, -⟩ := marks_of_isAlphanum hword
    rw [quote, if_pos hword, foldl_cons, foldl_nil]
    cases p <;> simp [Place.next, hback, hopen, hclose, hword] at h
    case outside | inside =>
      simp [← h, splitChar, Place.splitting, isspace_of_isAlphanum hword, hquote, hback, hopen,
        hclose]
    case opened | closed =>
      simp [← h.2, h.1, splitChar, Place.splitting, hopen, hclose]
  · have hn : c ≠ 'n' := by
      rintro rfl
      exact hword (by decide)
    rw [quote, if_neg hword, foldl_cons, foldl_cons, foldl_nil]
    by_cases hback : c = '\\'
    · subst hback
      cases p <;> cases h <;> rfl
    by_cases hline : c = '\n'
    · subst hline
      cases p <;> cases h <;> rfl
    by_cases hopen : c = '['
    · subst hopen
      cases p <;> cases h <;> rfl
    by_cases hclose : c = ']'
    · subst hclose
      cases p <;> cases h <;> rfl
    cases p <;> simp [Place.next, hback, hopen, hclose, hword] at h <;>
      simp [← h, splitChar, Place.splitting, isspace, hline, hopen, hclose, hn]

/-- Elsewhere another character is read: a line break for `n`, and the backslash for a
character behind one. -/
lemma begins_foldl_quote (h : p.next c = none) (ret : List Str) (current : Str) :
    ∃ d ≠ c, ((quote c).foldl splitChar (p.splitting ret current)).Begins ret.length
      (current ++ [d]) := by
  by_cases hword : c.isAlphanum
  · have hn : c = 'n' := by
      by_contra hn
      obtain ⟨-, hback, -⟩ := marks_of_isAlphanum hword
      cases p <;> simp [Place.next, hback, hword, hn] at h
    subst hn
    refine ⟨'\n', by decide, current ++ ['\n'], ?_, prefix_rfl⟩
    cases p with
    | outside | inside => cases h
    | opened | closed => simp [quote, splitChar, Place.splitting]
  · have hback : c ≠ '\\' := by
      rintro rfl
      cases p <;> cases h
    refine ⟨'\\', hback.symm, ?_⟩
    rw [quote, if_neg hword, foldl_cons]
    refine Splitting.Begins.foldl ⟨current ++ ['\\'], ?_, prefix_rfl⟩ _
    cases p with
    | outside | inside => cases h
    | opened | closed => simp [splitChar, Place.splitting]

/-- An argument is read back if its characters are allowed. -/
lemma foldl_flatMap_quote {s : Str} (h : s.foldlM Place.next p = some p') (ret : List Str)
    (current : Str) :
    (s.flatMap quote).foldl splitChar (p.splitting ret current) =
      p'.splitting ret (current ++ s) := by
  induction s generalizing p current with
  | nil => simpa using congrArg (fun p : Place => p.splitting ret current) (Option.some.inj h)
  | cons c s ih =>
    obtain ⟨q, hq, hrest⟩ := Option.bind_eq_some_iff.mp h
    rw [flatMap_cons, foldl_append, foldl_quote hq, ih hrest, append_assoc, singleton_append]

/-- Otherwise it is read with another character. -/
lemma begins_foldl_flatMap_quote {s : Str} (h : s.foldlM Place.next p = none) (ret : List Str)
    (current : Str) :
    ∃ text, ¬ text <+: current ++ s ∧
      ((s.flatMap quote).foldl splitChar (p.splitting ret current)).Begins ret.length text := by
  induction s generalizing p current with
  | nil => cases h
  | cons c s ih =>
    rw [flatMap_cons, foldl_append]
    cases hq : p.next c with
    | none =>
      obtain ⟨d, hd, hbegins⟩ := begins_foldl_quote hq ret current
      refine ⟨current ++ [d], ?_, hbegins.foldl _⟩
      rw [prefix_append_right_inj, cons_prefix_cons]
      exact fun h => hd h.1
    | some q =>
      rw [foldlM_cons, hq] at h
      obtain ⟨text, hnot, hbegins⟩ := ih h (current ++ [c])
      rw [foldl_quote hq]
      exact ⟨text, by simpa using hnot, hbegins⟩

/-- The space between two arguments ends the first one outside of lists only. -/
lemma begins_splitChar_space (hp : p ≠ .outside) (ret : List Str) (current : Str) :
    (splitChar (p.splitting ret current) ' ').Begins ret.length (current ++ [' ']) := by
  refine ⟨current ++ [' '], ?_, prefix_rfl⟩
  cases p <;> first | exact absurd rfl hp | simp [splitChar, Place.splitting, isspace]

lemma commandLine_cons_cons (a b : Str) (args : List Str) :
    commandLine (a :: b :: args) = a.flatMap quote ++ ' ' :: commandLine (b :: args) := by
  simp [commandLine, intercalate]

/-- All arguments but the last one are complete when the line has been read. -/
lemma foldl_commandLine {a : Str} {args : List Str} (hne : ∀ b ∈ a :: args, b ≠ [])
    (h : ReadBack (a :: args)) (ret : List Str) :
    ∃ p ret' current, current ≠ [] ∧ ret' ++ [current] = ret ++ a :: args ∧
      (commandLine (a :: args)).foldl splitChar (Place.outside.splitting ret []) =
        Place.splitting p ret' current := by
  induction args generalizing a ret with
  | nil =>
    obtain ⟨p, hp⟩ := Option.isSome_iff_exists.mp h
    exact ⟨p, ret, a, hne a mem_cons_self, rfl,
      by simpa [commandLine] using foldl_flatMap_quote hp ret []⟩
  | cons b args ih =>
    obtain ⟨p, ret', current, hcurrent, heq, hfold⟩ :=
      ih (forall_mem_cons.mp hne).2 h.2 (ret ++ [a])
    have hspace : splitChar (Place.outside.splitting ret a) ' ' =
        Place.outside.splitting (ret ++ [a]) [] := by
      simp [splitChar, Place.splitting, isspace, hne a mem_cons_self]
    refine ⟨p, ret', current, hcurrent, by simpa using heq, ?_⟩
    rw [commandLine_cons_cons, foldl_append, foldl_flatMap_quote h.1, nil_append, foldl_cons,
      hspace, hfold]

/-- Of other arguments, one is read with another beginning. -/
lemma begins_foldl_commandLine {a : Str} {args : List Str} (hne : ∀ b ∈ a :: args, b ≠ [])
    (h : ¬ ReadBack (a :: args)) (ret : List Str) :
    ∃ n b text, (ret ++ a :: args)[n]? = some b ∧ ¬ text <+: b ∧
      ((commandLine (a :: args)).foldl splitChar (Place.outside.splitting ret [])).Begins n
        text := by
  induction args generalizing a ret with
  | nil =>
    obtain ⟨text, hnot, hbegins⟩ := begins_foldl_flatMap_quote
      (Option.not_isSome_iff_eq_none.mp h) ret []
    exact ⟨ret.length, a, text, by simp, hnot, by simpa [commandLine] using hbegins⟩
  | cons b args ih =>
    rw [commandLine_cons_cons, foldl_append]
    cases ha : a.foldlM Place.next .outside with
    | none =>
      obtain ⟨text, hnot, hbegins⟩ := begins_foldl_flatMap_quote ha ret []
      exact ⟨ret.length, a, text, by simp, hnot, hbegins.foldl _⟩
    | some p =>
      rw [foldl_flatMap_quote ha, nil_append, foldl_cons]
      by_cases hp : p = .outside
      · have hspace : splitChar (p.splitting ret a) ' ' =
            Place.outside.splitting (ret ++ [a]) [] := by
          simp [splitChar, Place.splitting, isspace, hne a mem_cons_self, hp]
        obtain ⟨n, b', text, hb', hnot, hbegins⟩ :=
          ih (forall_mem_cons.mp hne).2 (fun hrest => h ⟨hp ▸ ha, hrest⟩) (ret ++ [a])
        exact ⟨n, b', text, by simpa using hb', hnot, hspace ▸ hbegins⟩
      · refine ⟨ret.length, a, a ++ [' '], by simp, fun h => ?_,
          (begins_splitChar_space hp ret a).foldl _⟩
        simpa using h.length_le

/-- `parse_command` reads arguments back exactly if no bracket gets in the way. -/
theorem parseCommand_commandLine_iff {args : List Str} (hne : ∀ a ∈ args, a ≠ []) :
    parseCommand (commandLine args) = args ↔ ReadBack args := by
  cases args with
  | nil => exact iff_of_true rfl trivial
  | cons a args =>
    have hparse : parseCommand (commandLine (a :: args)) =
        ((commandLine (a :: args)).foldl splitChar (Place.outside.splitting [] [])).args := rfl
    rw [hparse]
    constructor
    · intro heq
      by_contra h
      obtain ⟨n, b, text, hb, hnot, hbegins⟩ := begins_foldl_commandLine hne h []
      exact hnot (hbegins.args (by rwa [heq]))
    · intro h
      obtain ⟨p, ret, current, hcurrent, heq, hfold⟩ := foldl_commandLine hne h []
      rw [hfold]
      exact (if_pos hcurrent).trans heq

/-- A list is read back with its brackets, and one that is not closed as the last argument. -/
theorem parseCommand_lists :
    parseCommand (commandLine ["a \"b".toList, "x[0, 1]y".toList, "\n]\\[".toList]) =
      ["a \"b".toList, "x[0, 1]y".toList, "\n]\\[".toList] :=
  (parseCommand_commandLine_iff (by decide)).mpr ⟨rfl, rfl, rfl⟩

/-- A bracket opens a list although there is a backslash before it. -/
theorem parseCommand_bracket : parseCommand (commandLine ["[".toList, "a".toList]) =
    ["[ a".toList] := by
  decide

end Cmd
