import Btos.Cmd.Scripts
import Btos.Lib.Wildcards
import Mathlib.Data.List.DropRight

/-!
# Wildcards in file names

`is_match` of `globbing.cpp` goes once through the pattern. `fnpos` is where it is in the file name,
and `matchany` says that a star was seen; then a character that does not fit may be looked for
further on. It never goes back, and the flag is also still set when a character did fit.

`scan` is the same on what is left of the file name. `isMatch_exact_iff` says for which patterns the
answer is right for all file names: those with at most one literal between two stars and none behind
the last one (`sparse`). A literal NUL would fit the end of the name (`NulSafe`).
-/

open List Option

namespace Cmd

open Wildcards

/-! ## The matcher -/

/-- The `while` loop of `is_match`: where the character is found, or `some none` if `is_match`
returns. The first argument bounds the rounds. -/
def seek (filename : Str) (c : Char) : ℕ → ℕ → Option (Option ℕ)
  | 0, _ => none
  | n + 1, fnpos => do
      if c = (← filename.charAt fnpos) then some (some fnpos)
      else if fnpos + 1 ≥ filename.length then some none
      else seek filename c n (fnpos + 1)

/-- The loop of `is_match`, for what is left of the pattern. -/
def matchFrom (filename : Str) : Str → ℕ → Bool → Option Bool
  | [], fnpos, matchany => some (!(fnpos < filename.length && !matchany))
  | c :: pattern, fnpos, matchany =>
      if c = '?' then
        if filename.length < fnpos + 1 then some false
        else matchFrom filename pattern (fnpos + 1) matchany
      else if c = '*' then matchFrom filename pattern fnpos true
      else do
        if c = (← filename.charAt fnpos) then matchFrom filename pattern (fnpos + 1) matchany
        else if matchany then
          match ← seek filename c (filename.length + 1) fnpos with
          | none => some false
          | some found => matchFrom filename pattern (found + 1) false
        else some false

/-- `is_match`; `none` is an access out of range. -/
def isMatch (opattern ofilename : Str) : Option Bool :=
  if ofilename = ".".toList ∨ ofilename = "..".toList then some false
  else matchFrom (toLower ofilename) (toLower opattern) 0 false

/-- The token of a character of a pattern. -/
def token (c : Char) : Token Char := if c = '?' then .any else if c = '*' then .star else .lit c

/-- The tokens of a pattern. -/
def tokens (pattern : Str) : List (Token Char) := pattern.map token

/-! ## The matcher on what is left of the name -/

/-- What `is_match` does when it is behind the NUL. -/
def beyond : List (Token Char) → Option Bool
  | [] => some true
  | .any :: _ => some false
  | .star :: p => beyond p
  | .lit _ :: _ => none

/-- What `is_match` does when `t` is left of the file name. -/
def scan : List (Token Char) → Str → Bool → Option Bool
  | [], t, matchany => some (t.isEmpty || matchany)
  | .any :: _, [], _ => some false
  | .any :: p, _ :: t, matchany => scan p t matchany
  | .star :: p, t, _ => scan p t true
  | .lit c :: p, [], _ => if c = '\x00' then beyond p else some false
  | .lit c :: p, d :: t, matchany =>
      if c = d then scan p t matchany
      else if matchany then
        match t.dropWhile (· != c) with
        | [] => some false
        | _ :: t => scan p t false
      else some false

variable {c : Char}

lemma seek_spec {filename : Str} {n fnpos : ℕ} (hpos : fnpos < filename.length)
    (hn : filename.length < fnpos + n) :
    seek filename c n fnpos = some none ∧ (filename.drop fnpos).dropWhile (· != c) = [] ∨
      ∃ found, seek filename c n fnpos = some (some found) ∧ found < filename.length ∧
        (filename.drop fnpos).dropWhile (· != c) = c :: filename.drop (found + 1) := by
  induction n generalizing fnpos with
  | zero => omega
  | succ n ih =>
    have hchar : filename.charAt fnpos = some filename[fnpos] := by
      simp [Str.charAt, hpos.ne, hpos]
    rw [drop_eq_getElem_cons hpos, seek, hchar]
    simp only [bind_eq_bind, bind_some]
    by_cases hc : c = filename[fnpos]
    · right
      refine ⟨fnpos, if_pos hc, hpos, ?_⟩
      rw [dropWhile_cons_of_neg (by simp [hc]), hc]
    · rw [if_neg hc, dropWhile_cons_of_pos (by simpa using Ne.symm hc)]
      by_cases hend : fnpos + 1 ≥ filename.length
      · left
        rw [if_pos hend, drop_eq_nil_of_le hend]
        exact ⟨rfl, rfl⟩
      · rw [if_neg hend]
        exact ih (by omega) (by omega)

lemma matchFrom_eq_beyond (filename pattern : Str) (matchany : Bool) :
    matchFrom filename pattern (filename.length + 1) matchany = beyond (tokens pattern) := by
  induction pattern generalizing matchany with
  | nil => simp [matchFrom, tokens, beyond]
  | cons c pattern ih =>
    rw [tokens, map_cons, ← tokens, matchFrom, token]
    by_cases hany : c = '?'
    · simp [hany, beyond]
    · by_cases hstar : c = '*'
      · simpa [hstar, beyond] using ih true
      · simp [hany, hstar, Str.charAt, beyond]

lemma matchFrom_eq_scan {filename : Str} (pattern : Str) {fnpos : ℕ}
    (hpos : fnpos ≤ filename.length) (matchany : Bool) :
    matchFrom filename pattern fnpos matchany =
      scan (tokens pattern) (filename.drop fnpos) matchany := by
  induction pattern generalizing fnpos matchany with
  | nil =>
    rw [matchFrom, tokens, map_nil, scan]
    rcases hpos.lt_or_eq with hlt | heq
    · cases matchany <;> simp [hlt]
    · simp [heq]
  | cons c pattern ih =>
    rw [tokens, map_cons, ← tokens, matchFrom, token]
    by_cases hstar : c = '*'
    · simp [hstar, scan, ih hpos]
    rcases hpos.lt_or_eq with hlt | rfl
    · -- there is a character to compare with
      have hchar : filename.charAt fnpos = some filename[fnpos] := by
        simp [Str.charAt, hlt.ne, hlt]
      rw [drop_eq_getElem_cons hlt]
      by_cases hany : c = '?'
      · rw [if_pos hany, if_neg (by omega), if_pos hany, scan, ih hlt]
      · rw [if_neg hany, if_neg hstar, if_neg hany, if_neg hstar, hchar, scan]
        simp only [bind_eq_bind, bind_some]
        split
        · exact ih hlt _
        · rename_i hc
          cases matchany with
          | false => rfl
          | true =>
            have hseek := seek_spec (c := c) hlt (n := filename.length + 1) (by omega)
            rw [drop_eq_getElem_cons hlt,
              dropWhile_cons_of_pos (by simpa using Ne.symm hc)] at hseek
            rcases hseek with ⟨hseek, hdrop⟩ | ⟨found, hseek, hfound, hdrop⟩
            · simp [hseek, hdrop]
            · simp [hseek, hdrop, ih hfound]
    · -- the end of the name is a NUL
      have hchar : filename.charAt filename.length = some '\x00' := by simp [Str.charAt]
      rw [drop_length]
      by_cases hany : c = '?'
      · simp [hany, scan]
      · rw [if_neg hany, if_neg hstar, if_neg hany, if_neg hstar, hchar, scan]
        simp only [bind_eq_bind, bind_some]
        split
        · exact matchFrom_eq_beyond filename pattern matchany
        · rename_i hc
          cases matchany <;> simp [seek, hchar, hc]

/-! ## Patterns for which the answer is right -/

/-- The answer is there, and it is that the statement holds if and only if it does. -/
def Decides (answer : Option Bool) (holds : Prop) : Prop :=
  ∃ b, answer = some b ∧ (b = true ↔ holds)

/-- Behind a star: up to the next star there is at most one literal, and behind the last one there
is none. `seen` says that there was one since the last star. -/
def oneLit : Bool → List (Token Char) → Bool
  | seen, [] => !seen
  | _, .star :: p => oneLit false p
  | seen, .any :: p => oneLit seen p
  | seen, .lit _ :: p => !seen && oneLit true p

/-- There is at most one literal between two stars and none behind the last one. -/
def sparse : List (Token Char) → Bool
  | [] => true
  | .star :: p => oneLit false p
  | _ :: p => sparse p

/-- The first token that is not a star is an `any`. -/
def nextAny : List (Token Char) → Bool
  | .star :: p => nextAny p
  | .any :: _ => true
  | _ => false

/-- A pattern without the stars at its end. -/
def withoutStars (a : List (Token Char)) : List (Token Char) := a.rdropWhile (· == .star)

/-- The names that are not matched. -/
def dots : List Str := [".".toList, "..".toList]

/-- That a NUL in the pattern fits the end of a name does no harm: then an `any` is too much. It
also does no harm if what is in front of the NUL, up to stars, is a name that is not matched. -/
def NulSafe (p : List (Token Char)) : Prop :=
  ∀ a b, p = a ++ .lit '\x00' :: b →
    nextAny b ∨ ∃ name ∈ dots, withoutStars a = name.map .lit

/-- Every NUL is followed by an `any`, up to stars. -/
def NulAny (p : List (Token Char)) : Prop := ∀ a b, p = a ++ .lit '\x00' :: b → nextAny b

variable {p q : List (Token Char)} {t : Str}

lemma Decides.of_false {holds : Prop} (h : ¬ holds) : Decides (some false) holds :=
  ⟨false, rfl, by simp [h]⟩

lemma beyond_eq_some_false_iff : beyond p = some false ↔ nextAny p := by
  fun_induction beyond p <;> simp_all [nextAny]

lemma NulAny.tail {k : Token Char} (h : NulAny (k :: p)) : NulAny p :=
  fun a b hp => h (k :: a) b (by rw [hp, cons_append])

lemma matches_append_of_oneLit (hp : oneLit true p) (h : Matches p t) (u : Str) :
    Matches p (u ++ t) := by
  induction p generalizing u t with
  | nil => simp [oneLit] at hp
  | cons k p ih =>
    cases k with
    | lit c => simp [oneLit] at hp
    | any =>
      obtain ⟨b, t, rfl, ht⟩ := matches_any_iff.mp h
      cases u with
      | nil => exact h
      | cons c u =>
        have hmore := ih hp ht (u ++ [b])
        rw [append_assoc, singleton_append] at hmore
        exact .any c hmore
    | star =>
      obtain ⟨v, t, rfl, ht⟩ := matches_star_iff.mp h
      exact matches_star_iff.mpr ⟨u ++ v, t, by simp, ht⟩

/-- Behind a star, the first place where a literal fits is as good as any other. -/
lemma matches_star_lit_iff (hp : oneLit true p) {u : Str} (hu : c ∉ u) :
    Matches (.star :: .lit c :: p) (u ++ c :: t) ↔ Matches p t := by
  constructor
  · intro h
    obtain ⟨u', v', heq, h'⟩ := matches_star_iff.mp h
    obtain ⟨v, rfl, hv⟩ := matches_lit_iff.mp h'
    -- the literal that was found is not later than the one of the match
    obtain ⟨w, rfl, hw⟩ | ⟨w, rfl, hw⟩ := append_eq_append_iff.mp heq
    · cases w with
      | nil =>
        obtain ⟨-, rfl⟩ := cons.inj hw
        exact hv
      | cons d w =>
        obtain ⟨-, rfl⟩ := cons.inj hw
        have hmore := matches_append_of_oneLit hp hv (w ++ [c])
        rwa [append_assoc, singleton_append] at hmore
    · cases w with
      | nil =>
        obtain ⟨-, rfl⟩ := cons.inj hw
        exact hv
      | cons d w =>
        obtain ⟨rfl, -⟩ := cons.inj hw
        exact absurd (mem_append_right _ mem_cons_self) hu
  · intro h
    exact matches_star_iff.mpr ⟨u, c :: t, rfl, .lit c h⟩

lemma not_matches_star_lit (hc : c ∉ t) : ¬ Matches (.star :: .lit c :: p) t :=
  fun h => hc (h.mem_of_lit (mem_cons_of_mem _ mem_cons_self))

/-- The answer is right behind a star, and behind the literal that follows it. -/
lemma decides_scan_of_oneLit (p : List (Token Char)) :
    (∀ t, oneLit false p → (∀ a b, p = a ++ .lit '\x00' :: b →
        nextAny b ∨ (∀ k ∈ a, k = .star) ∧ t ≠ []) →
      Decides (scan p t true) (Matches (.star :: p) t)) ∧
    ∀ t matchany, oneLit true p → NulAny p → Decides (scan p t matchany) (Matches p t) := by
  induction p with
  | nil =>
    refine ⟨fun t _ _ => ⟨true, by simp [scan], by simp⟩, fun t matchany h => ?_⟩
    simp [oneLit] at h
  | cons k p ih =>
    obtain ⟨ihstar, ihlit⟩ := ih
    cases k with
    | any =>
      constructor
      · intro t h hnul
        rw [matches_star_any_iff]
        cases t with
        | nil => exact .of_false not_matches_any_nil
        | cons d t =>
          rw [matches_any_cons]
          refine ihstar t h fun a b hp => .inl ?_
          refine (hnul (.any :: a) b (by rw [hp]; rfl)).resolve_right fun hstars => ?_
          cases hstars.1 .any mem_cons_self
      · intro t matchany h hnul
        cases t with
        | nil => exact .of_false not_matches_any_nil
        | cons d t =>
          rw [matches_any_cons]
          exact ihlit t matchany h hnul.tail
    | star =>
      constructor
      · intro t h hnul
        rw [matches_star_star_iff]
        refine ihstar t h fun a b hp => ?_
        refine (hnul (.star :: a) b (by rw [hp]; rfl)).imp_right fun hstars => ⟨?_, hstars.2⟩
        exact fun k hk => hstars.1 k (mem_cons_of_mem _ hk)
      · intro t matchany h hnul
        exact ihstar t h fun a b hp => .inl (hnul.tail a b hp)
    | lit c =>
      refine ⟨fun t h hnul => ?_, fun t matchany h => by simp [oneLit] at h⟩
      have hone : oneLit true p := by simpa [oneLit] using h
      have hany : NulAny p := fun a b hp => by
        refine (hnul (.lit c :: a) b (by rw [hp]; rfl)).resolve_right fun hstars => ?_
        cases hstars.1 (.lit c) mem_cons_self
      cases t with
      | nil =>
        have hno : ¬ Matches (.star :: .lit c :: p) [] := not_matches_star_lit (by simp)
        rw [scan]
        split
        · rename_i hc
          have hnext := (hnul [] p (by rw [hc]; rfl)).resolve_right (by simp)
          rw [beyond_eq_some_false_iff.mpr hnext]
          exact .of_false hno
        · exact .of_false hno
      | cons d t =>
        by_cases hd : c = d
        · subst hd
          rw [scan, if_pos rfl, ← nil_append (c :: t), matches_star_lit_iff hone (by simp)]
          exact ihlit t true hone hany
        · rw [scan, if_neg hd, if_pos rfl]
          cases hdrop : t.dropWhile (· != c) with
          | nil =>
            have hnotMem : c ∉ d :: t := by
              have hall := dropWhile_eq_nil_iff.mp hdrop
              rw [mem_cons, not_or]
              exact ⟨hd, fun hc => by simpa using hall c hc⟩
            exact .of_false (not_matches_star_lit hnotMem)
          | cons e t' =>
            -- the character that is found is the first one
            have hsplit := takeWhile_append_dropWhile (p := (· != c)) (l := t)
            have he : e = c := by
              have hhead := head_dropWhile_not (· != c) (l := t) (by simp [hdrop])
              simpa [hdrop] using hhead
            have hu : c ∉ d :: t.takeWhile (· != c) := by
              rw [mem_cons, not_or]
              refine ⟨hd, fun hc => ?_⟩
              simpa using mem_takeWhile_imp hc
            rw [hdrop, he] at hsplit
            rw [← hsplit, ← cons_append, matches_star_lit_iff hone hu]
            exact ihlit t' false hone hany

lemma withoutStars_cons {k : Token Char} (hk : k ≠ .star) (a : List (Token Char)) :
    withoutStars (k :: a) = k :: withoutStars a := by
  induction a using reverseRecOn with
  | nil => simp [withoutStars, hk]
  | append_singleton a l ih =>
    by_cases hl : l = .star
    · rw [withoutStars, withoutStars, ← cons_append, rdropWhile_concat_pos _ _ _ (by simp [hl]),
        rdropWhile_concat_pos _ _ _ (by simp [hl])]
      exact ih
    · rw [withoutStars, withoutStars, ← cons_append, rdropWhile_concat_neg _ _ _ (by simp [hl]),
        rdropWhile_concat_neg _ _ _ (by simp [hl]), cons_append]

variable {a : List (Token Char)}

lemma withoutStars_star_cons {name : Str}
    (h : withoutStars (.star :: a) = name.map .lit) : (∀ k ∈ a, k = .star) ∧ name = [] := by
  have hnil : name = [] := by
    cases name with
    | nil => rfl
    | cons c name =>
      have hfront := rdropWhile_prefix (· == Token.star) (Token.star (α := Char) :: a)
      rw [← withoutStars, h, map_cons, cons_prefix_cons] at hfront
      cases hfront.1
  rw [hnil, map_nil, withoutStars, rdropWhile_eq_nil_iff] at h
  exact ⟨fun k hk => by simpa using h k (mem_cons_of_mem _ hk), hnil⟩

/-- The answer is right for a sparse pattern. What is left of the name must not be the literals in
front of a NUL that is not followed by an `any`. -/
lemma decides_scan (hp : sparse p) (hnul : ∀ a b, p = a ++ .lit '\x00' :: b →
      nextAny b ∨ ∃ name, withoutStars a = name.map .lit ∧ t ≠ name) :
    Decides (scan p t false) (Matches p t) := by
  induction p generalizing t with
  | nil => exact ⟨t.isEmpty, by simp [scan], by simp⟩
  | cons k p ih =>
    cases k with
    | star =>
      refine (decides_scan_of_oneLit p).1 t hp fun a b hab => ?_
      refine (hnul (.star :: a) b (by rw [hab]; rfl)).imp_right ?_
      rintro ⟨name, hname, hne⟩
      obtain ⟨hstars, rfl⟩ := withoutStars_star_cons hname
      exact ⟨hstars, hne⟩
    | any =>
      cases t with
      | nil => exact .of_false not_matches_any_nil
      | cons d t =>
        rw [matches_any_cons]
        refine ih hp fun a b hab => .inl ?_
        refine (hnul (.any :: a) b (by rw [hab]; rfl)).resolve_right ?_
        rintro ⟨name, hname, -⟩
        rw [withoutStars_cons (by simp)] at hname
        cases name <;> simp at hname
    | lit c =>
      cases t with
      | nil =>
        rw [scan]
        split
        · rename_i hc
          have hnext : nextAny p :=
            (hnul [] p (by rw [hc]; rfl)).resolve_right (by simp [withoutStars])
          rw [beyond_eq_some_false_iff.mpr hnext]
          exact .of_false not_matches_lit_nil
        · exact .of_false not_matches_lit_nil
      | cons d t =>
        rw [matches_lit_cons, scan]
        by_cases hd : c = d
        · subst hd
          rw [if_pos rfl, and_iff_right rfl]
          refine ih hp fun a b hab => ?_
          refine (hnul (.lit c :: a) b (by rw [hab]; rfl)).imp_right ?_
          rintro ⟨name, hname, hne⟩
          rw [withoutStars_cons (by simp)] at hname
          obtain ⟨d, name, rfl⟩ : ∃ d name', name = d :: name' := by
            cases name with
            | nil => simp at hname
            | cons d name' => exact ⟨d, name', rfl⟩
          obtain ⟨heq, hrest⟩ := cons.inj hname
          obtain rfl := Token.lit.inj heq
          exact ⟨name, hrest, fun h => hne (h ▸ rfl)⟩
        · rw [if_neg hd, if_neg (by simp)]
          exact .of_false fun h => hd h.1

/-! ## Patterns for which an answer is wrong -/

lemma scan_fill (x : Char) (a q : List (Token Char)) (t : Str) (matchany : Bool) :
    scan (a ++ q) (fill x a ++ t) matchany = scan q t (matchany || a.contains .star) := by
  induction a generalizing matchany with
  | nil => simp [fill]
  | cons k a ih => cases k <;> simp [fill, scan, ih]

lemma scan_anys (k : ℕ) (u t : Str) (hu : u.length = k) (matchany : Bool) :
    scan (replicate k Token.any ++ q) (u ++ t) matchany = scan q t matchany := by
  induction k generalizing u with
  | zero => simp [length_eq_zero_iff.mp hu]
  | succ k ih =>
    obtain ⟨c, u, rfl⟩ : ∃ c u', u = c :: u' := exists_cons_of_length_eq_add_one hu
    exact ih u (by simpa using hu)

lemma matches_anys_iff {k : ℕ} :
    Matches (replicate k Token.any ++ q) t ↔ ∃ u v, t = u ++ v ∧ u.length = k ∧ Matches q v := by
  induction k generalizing t with
  | zero => simp
  | succ k ih =>
    rw [replicate_succ, cons_append, matches_any_iff]
    constructor
    · rintro ⟨c, t', rfl, h⟩
      obtain ⟨u, v, rfl, hu, hv⟩ := ih.mp h
      exact ⟨c :: u, v, rfl, by simp [hu], hv⟩
    · rintro ⟨u, v, rfl, hu, hv⟩
      obtain ⟨c, u, rfl⟩ : ∃ c u', u = c :: u' := exists_cons_of_length_eq_add_one hu
      exact ⟨c, u ++ v, rfl, ih.mpr ⟨u, v, rfl, by simpa using hu, hv⟩⟩

/-- A literal behind the last star: what is behind the first place where it fits is not looked
at. -/
lemma not_decides_of_last (ha : Token.star ∈ a) {c x : Char} (hx : x ≠ c) (k : ℕ) :
    ¬ Decides (scan (a ++ Token.lit c :: replicate k Token.any)
        (fill x a ++ c :: replicate (k + 1) x) false)
      (Matches (a ++ Token.lit c :: replicate k Token.any)
        (fill x a ++ c :: List.replicate (k + 1) x)) := by
  have hscan : scan (a ++ Token.lit c :: List.replicate k Token.any)
      (fill x a ++ c :: List.replicate (k + 1) x) false = some true := by
    have hanys := scan_anys (q := []) k (List.replicate k x) [x] (by simp) true
    rw [append_nil, ← replicate_succ'] at hanys
    rw [scan_fill, contains_iff_mem.mpr ha, scan, if_pos rfl, Bool.false_or, hanys]
    rfl
  rintro ⟨b, hb, hmatches⟩
  obtain rfl : b = true := some.inj (hb.symm.trans hscan)
  obtain ⟨u, v', heq, -, hlit⟩ := matches_append_iff.mp (hmatches.mp rfl)
  obtain ⟨v, rfl, hv⟩ := matches_lit_iff.mp hlit
  -- the text ends with other characters than the pattern
  have hlength : v.length = k := by
    rw [← append_nil (List.replicate k _)] at hv
    obtain ⟨u', v', rfl, hu', hv'⟩ := matches_anys_iff.mp hv
    simp [hu', matches_nil_iff.mp hv']
  rw [append_cons] at heq
  have hend := (append_inj' heq (by simp [hlength])).2
  exact hx (List.cons.inj hend).1

/-- Two literals between stars: the second one is looked for although the first one has been
fixed. -/
lemma not_decides_of_two (ha : Token.star ∈ a) {c d x : Char} (hc : x ≠ c)
    (hd : x ≠ d) (k : ℕ) (q : List (Token Char)) :
    ¬ Decides (scan (a ++ Token.lit c :: (replicate k Token.any ++ Token.lit d :: q))
        (fill x a ++ c :: (replicate k x ++ x :: d :: fill x q)) false)
      (Matches (a ++ Token.lit c :: (replicate k Token.any ++ Token.lit d :: q))
        (fill x a ++ c :: (replicate k x ++ x :: d :: fill x q))) := by
  have hscan : scan (a ++ Token.lit c :: (replicate k Token.any ++ Token.lit d :: q))
      (fill x a ++ c :: (replicate k x ++ x :: d :: fill x q)) false = some true := by
    have hfill := scan_fill x q [] [] false
    rw [append_nil, append_nil, scan, isEmpty_nil, Bool.true_or] at hfill
    rw [scan_fill, contains_iff_mem.mpr ha, scan, if_pos rfl,
      scan_anys k _ _ (by simp), scan, if_neg (Ne.symm hd), Bool.false_or, if_pos rfl,
      dropWhile_cons_of_neg (by simp)]
    exact hfill
  rintro ⟨b, hb, hmatches⟩
  obtain rfl : b = true := some.inj (hb.symm.trans hscan)
  obtain ⟨u, v', heq, hu, hlit⟩ := matches_append_iff.mp (hmatches.mp rfl)
  obtain ⟨v, rfl, hv⟩ := matches_lit_iff.mp hlit
  obtain ⟨w, v', rfl, hw, hlit'⟩ := matches_anys_iff.mp hv
  obtain ⟨v, rfl, hv'⟩ := matches_lit_iff.mp hlit'
  -- there is one character for the stars, in front of the first literal or behind the second
  have hlength := congrArg length heq
  have hu' := hu.width_le
  have hv' := hv'.width_le
  simp only [length_append, length_cons, length_replicate, length_fill] at hlength
  rcases (show u.length = width a ∨ u.length = width a + 1 by omega) with hwidth | hwidth
  · have hrest := (append_inj heq (by simp [hwidth])).2
    have hlit := (append_inj (cons.inj hrest).2 (by simp [hw])).2
    exact hd (cons.inj hlit).1
  · rw [append_cons] at heq
    have hrest := (append_inj heq (by simp [hwidth])).2
    cases k with
    | zero => exact hc (cons.inj hrest).1
    | succ k =>
      exact hc (cons.inj hrest).1

/-- A pattern with a literal at its end, up to `any`s, or two literals with nothing but `any`s in
between. -/
def Crowded (p : List (Token Char)) : Prop :=
  (∃ a c k, p = a ++ Token.lit c :: List.replicate k Token.any) ∨
    ∃ a c k d q, p = a ++ Token.lit c :: (List.replicate k Token.any ++ Token.lit d :: q)

lemma Crowded.append (h : Crowded p) (b : List (Token Char)) : Crowded (b ++ p) := by
  rcases h with ⟨a, c, k, rfl⟩ | ⟨a, c, k, d, q, rfl⟩
  · exact .inl ⟨b ++ a, c, k, by simp⟩
  · exact .inr ⟨b ++ a, c, k, d, q, by simp⟩

lemma crowded_of_not_oneLit (p : List (Token Char)) :
    (oneLit false p = false → Crowded p) ∧
    (oneLit true p = false → (∃ k, p = replicate k Token.any) ∨
      (∃ k d q, p = replicate k Token.any ++ Token.lit d :: q) ∨ Crowded p) := by
  induction p with
  | nil => exact ⟨fun h => by simp [oneLit] at h, fun _ => .inl ⟨0, rfl⟩⟩
  | cons l p ih =>
    obtain ⟨ihfalse, ihtrue⟩ := ih
    cases l with
    | star =>
      exact ⟨fun h => (ihfalse h).append [.star], fun h => .inr (.inr ((ihfalse h).append [.star]))⟩
    | any =>
      refine ⟨fun h => (ihfalse h).append [.any], fun h => ?_⟩
      rcases ihtrue h with ⟨k, rfl⟩ | ⟨k, d, q, rfl⟩ | h
      · exact .inl ⟨k + 1, rfl⟩
      · exact .inr (.inl ⟨k + 1, d, q, rfl⟩)
      · exact .inr (.inr (h.append [.any]))
    | lit c =>
      refine ⟨fun h => ?_, fun _ => .inr (.inl ⟨0, c, p, rfl⟩)⟩
      rcases ihtrue (by simpa [oneLit] using h) with ⟨k, rfl⟩ | ⟨k, d, q, rfl⟩ | h
      · exact .inl ⟨[], c, k, rfl⟩
      · exact .inr ⟨[], c, k, d, q, rfl⟩
      · exact h.append [.lit c]

lemma exists_of_not_sparse (h : sparse p = false) :
    ∃ a q, p = a ++ Token.star :: q ∧ Crowded q := by
  induction p with
  | nil => simp [sparse] at h
  | cons l p ih =>
    cases l with
    | star => exact ⟨[], p, rfl, (crowded_of_not_oneLit p).1 h⟩
    | lit c =>
      obtain ⟨a, q, rfl, hq⟩ := ih h
      exact ⟨Token.lit c :: a, q, rfl, hq⟩
    | any =>
      obtain ⟨a, q, rfl, hq⟩ := ih h
      exact ⟨.any :: a, q, rfl, hq⟩

/-- A text that is not changed by `to_lower`. -/
def Lowered (t : Str) : Prop := ∀ c ∈ t, c.toLower = c

/-- A pattern whose literals are not changed by `to_lower`. -/
def LitsLowered (p : List (Token Char)) : Prop := ∀ c, .lit c ∈ p → c.toLower = c

@[simp]
lemma lowered_append {t u : Str} : Lowered (t ++ u) ↔ Lowered t ∧ Lowered u :=
  forall_mem_append

@[simp]
lemma lowered_cons {t : Str} : Lowered (c :: t) ↔ c.toLower = c ∧ Lowered t :=
  forall_mem_cons

lemma lowered_replicate (hc : c.toLower = c) (k : ℕ) : Lowered (replicate k c) :=
  fun _ hd => (eq_of_mem_replicate hd).symm ▸ hc

lemma lowered_fill (hp : LitsLowered p) {x : Char} (hx : x.toLower = x) : Lowered (fill x p) := by
  intro c hc
  rcases mem_fill hc with ⟨rfl, -⟩ | hlit
  · exact hx
  · exact hp c hlit

lemma LitsLowered.mono (hp : LitsLowered p) (hq : q ⊆ p) : LitsLowered q :=
  fun c hc => hp c (hq hc)

/-- Characters that are used to fill gaps. -/
def fillers : List Char := ['0', '1', '2']

lemma toLower_filler : ∀ x ∈ fillers, x.toLower = x := by
  simp [fillers]

lemma exists_filler (c d : Char) : ∃ x ∈ fillers, x ≠ c ∧ x ≠ d := by
  by_cases h0 : '0' ≠ c ∧ '0' ≠ d
  · exact ⟨'0', by decide, h0⟩
  · by_cases h1 : '1' ≠ c ∧ '1' ≠ d
    · exact ⟨'1', by decide, h1⟩
    · refine ⟨'2', by decide, ?_, ?_⟩ <;> rintro rfl <;> simp_all <;>
        exact absurd (h0.trans h1.symm) (by decide)

lemma notMem_dots_of_filler {t : Str} {x : Char} (hx : x ∈ fillers) (ht : x ∈ t) : t ∉ dots := by
  intro h
  simp only [fillers, dots, mem_cons, not_mem_nil, or_false] at h hx
  rcases h with rfl | rfl <;> rcases hx with rfl | rfl | rfl <;> simp at ht

/-- A name for which the answer is wrong. -/
lemma exists_not_decides_of_not_sparse (hp : LitsLowered p) (h : sparse p = false) :
    ∃ t ∉ dots, Lowered t ∧ ¬ Decides (scan p t false) (Matches p t) := by
  obtain ⟨a, q, rfl, hq⟩ := exists_of_not_sparse h
  rcases hq with ⟨a', c, k, rfl⟩ | ⟨a', c, k, d, q, rfl⟩
  · obtain ⟨x, hx, hc, -⟩ := exists_filler c c
    have hwrong := not_decides_of_last (a := a ++ Token.star :: a') (by simp) hc k
    rw [append_assoc, cons_append] at hwrong
    refine ⟨_, notMem_dots_of_filler hx (by simp), ?_, hwrong⟩
    have hlower := toLower_filler x hx
    rw [lowered_append, lowered_cons]
    refine ⟨lowered_fill (hp.mono fun l hl => ?_) hlower, hp c (by simp),
      lowered_replicate hlower _⟩
    rw [append_cons, ← append_assoc, append_assoc a]
    exact mem_append_left _ hl
  · obtain ⟨x, hx, hc, hd⟩ := exists_filler c d
    have hwrong := not_decides_of_two (a := a ++ Token.star :: a') (by simp) hc hd k q
    rw [append_assoc, cons_append] at hwrong
    refine ⟨_, notMem_dots_of_filler hx (by simp), ?_, hwrong⟩
    have hlower := toLower_filler x hx
    rw [lowered_append, lowered_cons, lowered_append, lowered_cons, lowered_cons]
    refine ⟨lowered_fill (hp.mono fun l hl => ?_) hlower, hp c (by simp),
      lowered_replicate hlower _, hlower, hp d (by simp),
      lowered_fill (hp.mono fun l hl => ?_) hlower⟩
    · rw [append_cons, ← append_assoc, append_assoc a]
      exact mem_append_left _ hl
    · simp [hl]

/-- Without `any`s, a pattern has all of its literals in front of all of its stars, or a literal is
behind a star. -/
lemma eq_append_or_exists_star (a : List (Token Char)) (ha : .any ∉ a) :
    (∃ (name : Str) (j : ℕ), a = name.map .lit ++ replicate j Token.star) ∨
      ∃ u j c v, a = u ++ Token.star :: (replicate j Token.star ++ Token.lit c :: v) := by
  induction a with
  | nil => exact .inl ⟨[], 0, rfl⟩
  | cons k a ih =>
    rw [mem_cons, not_or] at ha
    rcases ih ha.2 with ⟨name, j, rfl⟩ | ⟨u, j, c, v, rfl⟩
    · cases k with
      | lit c => exact .inl ⟨c :: name, j, rfl⟩
      | any => exact absurd rfl ha.1
      | star =>
        cases name with
        | nil => exact .inl ⟨[], j + 1, rfl⟩
        | cons c name => exact .inr ⟨[], 0, c, _, rfl⟩
    · exact .inr ⟨k :: u, j, c, v, rfl⟩

lemma withoutStars_lits (name : Str) (j : ℕ) :
    withoutStars (name.map .lit ++ replicate j Token.star) = name.map .lit := by
  induction name with
  | nil => simp [withoutStars, rdropWhile_eq_nil_iff]
  | cons c name ih =>
    rw [map_cons, cons_append, withoutStars_cons (by simp), ih]

lemma fill_lits (x : Char) (name : Str) (j : ℕ) :
    fill x (name.map .lit ++ replicate j Token.star) = name := by
  induction name with
  | nil =>
    induction j with
    | zero => rfl
    | succ j ih => exact ih
  | cons c name ih => rw [map_cons, cons_append, fill, ih]

lemma exists_not_decides_of_nul (hp : LitsLowered p) (h : ¬ NulSafe p) :
    ∃ t ∉ dots, Lowered t ∧ ¬ Decides (scan p t false) (Matches p t) := by
  simp only [NulSafe, not_forall, not_or] at h
  obtain ⟨a, b, rfl, hnext, hdots⟩ := h
  have hbeyond : ∀ holds, ¬ holds → ¬ Decides (beyond b) holds := by
    rintro holds hno ⟨answer, hanswer, hiff⟩
    cases answer with
    | true => exact hno (hiff.mp rfl)
    | false => exact hnext (beyond_eq_some_false_iff.mp hanswer)
  by_cases hfill : fill '0' a ∈ dots
  · have hmem : ∀ c ∈ fill '0' a, c = '.' := by
      intro c hc
      simp only [dots, mem_cons, not_mem_nil, or_false] at hfill
      rcases hfill with hfill | hfill <;> simpa [hfill] using hc
    have hany : .any ∉ a := fun h => absurd (hmem '0' (mem_fill_of_any h)) (by decide)
    rcases eq_append_or_exists_star a hany with ⟨name, j, rfl⟩ | ⟨u, j, c, v, rfl⟩
    · rw [fill_lits] at hfill
      exact absurd ⟨name, hfill, withoutStars_lits name j⟩ hdots
    · -- a star is in front of a dot, and may stand for more
      have hsplit : fill '0' (u ++ Token.star :: (replicate j Token.star ++ Token.lit c :: v)) =
            fill '0' u ++ c :: fill '0' v := by
        simp [fill_append, fill, fill_stars]
      rw [hsplit] at hmem
      obtain rfl : c = '.' := hmem c (by simp)
      refine ⟨fill '0' u ++ '0' :: '.' :: fill '0' v,
        notMem_dots_of_filler (x := '0') (by decide) (by simp), ?_, ?_⟩
      · intro c hc
        rcases (by simpa using hc : c ∈ fill '0' u ∨ c = '0' ∨ c = '.' ∨ c ∈ fill '0' v) with
          hc | rfl | rfl | hc
        · rw [hmem c (mem_append_left _ hc)]
          decide
        · decide
        · decide
        · rw [hmem c (mem_append_right _ (mem_cons_of_mem _ hc))]
          decide
      · have hscan : scan (u ++ Token.star :: (replicate j Token.star ++ .lit '.' :: v) ++
            Token.lit '\x00' :: b) (fill '0' u ++ '0' :: '.' :: fill '0' v) false = beyond b := by
          have hrest := scan_fill '0' v (Token.lit '\x00' :: b) [] false
          rw [append_nil, scan, if_pos rfl] at hrest
          have hstars := scan_fill '0' (List.replicate j Token.star)
            (.lit '.' :: v ++ Token.lit '\x00' :: b) ('0' :: '.' :: fill '0' v) true
          rw [fill_stars, nil_append, Bool.true_or] at hstars
          rw [append_assoc, scan_fill, cons_append, scan, append_assoc, hstars,
            cons_append, scan, if_neg (by decide), if_pos rfl, dropWhile_cons_of_neg (by simp)]
          exact hrest
        rw [hscan]
        refine hbeyond _ fun hmatches => ?_
        have hnul := hmatches.mem_of_lit (a := '\x00') (by simp)
        rcases (by simpa using hnul : '\x00' ∈ fill '0' u ∨ '\x00' ∈ fill '0' v) with hnul | hnul
        · exact absurd (hmem _ (mem_append_left _ hnul)) (by decide)
        · exact absurd (hmem _ (mem_append_right _ (mem_cons_of_mem _ hnul))) (by decide)
  · refine ⟨fill '0' a, hfill, lowered_fill (hp.mono (by simp)) (by decide), ?_⟩
    have hscan := scan_fill '0' a (Token.lit '\x00' :: b) [] false
    rw [append_nil, scan, if_pos rfl] at hscan
    rw [hscan]
    refine hbeyond _ fun hmatches => ?_
    have hwidth := hmatches.width_le
    simp only [width_append, length_fill, width] at hwidth
    omega

/-! ## All patterns -/

lemma char_toLower_toLower (c : Char) : c.toLower.toLower = c.toLower := by
  unfold Char.toLower
  split
  · rename_i hupper
    refine dif_neg ?_
    simp only [UInt32.le_iff_toNat_le, UInt32.toNat_add] at hupper ⊢
    revert hupper
    simp
    omega
  · rfl

lemma eq_dot_of_toLower (h : c.toLower = '.') : c = '.' := by
  unfold Char.toLower at h
  split at h
  · rename_i hupper
    have hval := congrArg (fun c : Char => c.val.toNat) h
    simp only [UInt32.le_iff_toNat_le] at hupper
    revert hupper hval
    simp
    omega
  · exact h

lemma notMem_dots_toLower {t : Str} (ht : t ∉ dots) : toLower t ∉ dots := by
  have hall : ∀ name ∈ dots, ∀ c ∈ name, c = '.' := by simp [dots]
  intro hmem
  -- a name of dots is not changed
  have heq : toLower t = t := by
    refine (map_congr_left fun c hc => ?_).trans (map_id _)
    have hdot := hall _ hmem _ (mem_map_of_mem hc)
    rw [hdot, eq_dot_of_toLower hdot]
    rfl
  rw [heq] at hmem
  exact ht hmem

lemma litsLowered_tokens (opattern : Str) : LitsLowered (tokens (toLower opattern)) := by
  intro c hc
  simp only [tokens, toLower, List.map_map, List.mem_map, Function.comp_apply, token] at hc
  obtain ⟨d, -, hd⟩ := hc
  split_ifs at hd
  rw [← Token.lit.inj hd, char_toLower_toLower]

lemma toLower_eq_self {t : Str} (ht : Lowered t) : toLower t = t :=
  (map_congr_left ht).trans (map_id _)

lemma isMatch_eq_scan {opattern ofilename : Str} (h : ofilename ∉ dots) :
    isMatch opattern ofilename = scan (tokens (toLower opattern)) (toLower ofilename) false := by
  have hdots : ¬ (ofilename = ".".toList ∨ ofilename = "..".toList) := by
    simpa [dots] using h
  rw [isMatch, if_neg hdots, matchFrom_eq_scan _ (Nat.zero_le _), drop_zero]

/-- For a pattern the answer is right for all file names other than the two that are not matched
if and only if it is sparse and has no NUL that does harm. -/
theorem isMatch_exact_iff (opattern : Str) :
    (∀ ofilename, ofilename ≠ ".".toList → ofilename ≠ "..".toList →
      Decides (isMatch opattern ofilename)
        (Matches (tokens (toLower opattern)) (toLower ofilename))) ↔
      sparse (tokens (toLower opattern)) ∧ NulSafe (tokens (toLower opattern)) := by
  have hdots : ∀ {t : Str}, t ∉ dots ↔ t ≠ ".".toList ∧ t ≠ "..".toList := by simp [dots]
  have hlits := litsLowered_tokens opattern
  constructor
  · intro h
    -- a name for which the answer is wrong is not changed by `to_lower`
    have hno : ¬ ∃ t ∉ dots, Lowered t ∧ ¬ Decides (scan (tokens (toLower opattern)) t false)
          (Matches (tokens (toLower opattern)) t) := by
      rintro ⟨t, ht, hlower, hwrong⟩
      have hright := h t (hdots.mp ht).1 (hdots.mp ht).2
      rw [isMatch_eq_scan ht, toLower_eq_self hlower] at hright
      exact hwrong hright
    constructor
    · by_contra hsparse
      exact hno (exists_not_decides_of_not_sparse hlits (by simpa using hsparse))
    · by_contra hnul
      exact hno (exists_not_decides_of_nul hlits hnul)
  · rintro ⟨hsparse, hnul⟩ ofilename hdot hdotdot
    have hname : ofilename ∉ dots := hdots.mpr ⟨hdot, hdotdot⟩
    rw [isMatch_eq_scan hname]
    refine decides_scan hsparse fun a b hab => (hnul a b hab).imp_right ?_
    rintro ⟨name, hmem, ha⟩
    exact ⟨name, ha, fun heq => notMem_dots_toLower hname (heq ▸ hmem)⟩

/-- A star before a suffix: the first dot is taken for the one of the suffix. -/
theorem exists_not_isMatch : ∃ opattern ofilename : Str, ofilename ≠ ".".toList ∧
    ofilename ≠ "..".toList ∧ ¬ Decides (isMatch opattern ofilename)
      (Matches (tokens (toLower opattern)) (toLower ofilename)) := by
  refine ⟨"*.txt".toList, "a.b.txt".toList, by decide, by decide, ?_⟩
  rintro ⟨b, hb, hiff⟩
  have hfalse : isMatch "*.txt".toList "a.b.txt".toList = some false := by decide
  obtain rfl : b = false := some.inj (hb.symm.trans hfalse)
  have hmatches : Matches (tokens (toLower "*.txt".toList)) (toLower "a.b.txt".toList) :=
    .star "a.b".toList (.lit '.' (.lit 't' (.lit 'x' (.lit 't' .nil))))
  exact Bool.false_ne_true (hiff.mpr hmatches)

end Cmd
