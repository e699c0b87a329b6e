import Btos.Cmd.Scopes

/-!
# The interpreter of scripts

`RunLine` interpolates the words of a line, which may run other lines, and then calls a function,
assigns a variable or has the context run a command. `ScriptFunction::Run` makes a scope, binds the
arguments and has `Run` go through the lines of the function with `RunLine`.

`runLine_respects` says that whatever a line does to the machine is in every preorder with `Rules`.
One is that of the runs of `scripts`, so that what holds in every run of `scripts` holds while a
script is interpreted; another one says what a function may do to the scopes around it.
-/

open List Option

namespace Cmd

/-! ## Words of a line -/

/-- The variables of `parse_command`. -/
structure Splitting where
  ret : List Str
  current : Str
  quoted : Bool
  escape : Bool
  list : Bool

/-- A round of `parse_command`. -/
def splitChar (s : Splitting) (c : Char) : Splitting :=
  if !s.escape && !s.quoted && !s.list && isspace c then
    { s with ret := if s.current ≠ [] then s.ret ++ [s.current] else s.ret, current := [] }
  else if !s.escape && !s.list && c == '"' then { s with quoted := !s.quoted }
  -- brackets are looked at even behind a backslash
  else if !s.quoted && !s.list && c == '[' then
    { s with current := s.current ++ ['['], list := true }
  else if !s.quoted && s.list && c == ']' then
    { s with current := s.current ++ [']'], list := false }
  else if !s.escape && c == '\\' then { s with escape := true }
  else if s.escape then
    { s with current := s.current ++ [if c = 'n' then '\n' else c], escape := false }
  else { s with current := s.current ++ [c] }

/-- `parse_command`. -/
def parseCommand (input : Str) : Line :=
  let s := input.foldl splitChar ⟨[], [], false, false, false⟩
  if s.current ≠ [] then s.ret ++ [s.current] else s.ret

/-- The variables of `Interpolate`. -/
structure Interpolation where
  out : Str
  varname : Str
  invar : Bool
  inesc : Bool

/-- A round of `Interpolate`. Outside of a variable the test for the delimiter comes after the test
for an escape, and not instead of it. -/
def interpolateChar {m : Type → Type} [Monad m] (lookup : Str → m Str) (s : Interpolation)
    (c : Char) : m Interpolation :=
  if s.invar then
    if s.inesc then pure { s with varname := s.varname ++ [c], inesc := false }
    else if c = '\\' then pure { s with inesc := true }
    else if c ≠ '$' then pure { s with varname := s.varname ++ [c] }
    else lookup s.varname >>= fun value =>
      pure { s with invar := false, out := s.out ++ value, varname := [] }
  else
    let s := if s.inesc then { s with out := s.out ++ [c], inesc := false }
      else if c = '\\' then { s with inesc := true }
      else s
    pure (if c ≠ '$' then { s with out := s.out ++ [c] } else { s with invar := true })

/-- `Interpolate`. -/
def interpolate {m : Type → Type} [Monad m] (lookup : Str → m Str) (tmpl : Str) : m Str :=
  tmpl.foldlM (interpolateChar lookup) ⟨[], [], false, false⟩ >>= fun s => pure s.out

/-! ## Lines -/

/-- What is done to the machine, unless it does not come to an end. -/
abbrev Interp (ω α : Type) := StateT (Machine ω) Option α

section Interpreter

variable {ω : Type} (environment : ω → Str → Str)
  (runCommand : ω → List Str → Bool → Option (Str × ω))

/-- `ScriptInterpolate`: a variable, or the result of a line in parentheses. -/
def scriptInterpolate (runLine : Line → Interp ω Str) : Str → Interp ω Str :=
  interpolate fun v =>
    if v.head? = some '(' ∧ v.getLast? = some ')' then runLine (parseCommand v.tail.dropLast)
    else get >>= fun s => pure (getVar (environment s.world) v s.chain)

/-- `AddVar` of the running scope. -/
def assignVar (name value : Str) : Interp ω Str := fun s => some ([], s.assign name value)

/-- `RunCommand` of the context. -/
def contextCommand (args : List Str) (capture : Bool) : Interp ω Str := fun s =>
  (runCommand s.world args capture).map fun (result, world) =>
    (result, { s with world := world })

/-- `Run` of the running scope. -/
def runScope (runLine : Line → Interp ω Str) (rounds : ℕ) (code : ScriptScope) : Interp ω Str :=
  fun s => (run (fun s line => runLine line s)
    (fun s word => scriptInterpolate environment runLine word s) code rounds s).map
      fun r => (r.output, r.env)

/-- What is done with the output of a function. -/
def functionResult (ret : Str) : Str :=
  trim (if ret.getLast? = some '\n' then ret.dropLast else ret)

/-- `ScriptFunction::Run`. -/
def runFunction (runLine : Line → Interp ω Str) (rounds : ℕ) (fn : ScriptFunction)
    (args : List Str) : Interp ω Str := do
  let ret ← (fun s => runScope environment runLine rounds (parse fn.content) (s.enter fn args))
  fun s => some (functionResult ret, s.leave)

/-- CALL. -/
def callFunction (runLine : Line → Interp ω Str) (rounds : ℕ) (name : Str) (args : List Str) :
    Interp ω Str := fun s =>
  match getFunction name s.chain with
  | some fn => runFunction environment runLine rounds fn args s
  | none => some ([], s)

/-- A line whose words were interpolated. -/
def dispatch (runLine : Line → Interp ω Str) (rounds : ℕ) (line : Line) : Interp ω Str :=
  match line with
  | [] => pure []
  | first :: rest =>
      let key := toLower first
      if key = "call".toList then
        let c := parseFunction line
        callFunction environment runLine rounds c.1 c.2
      else if key = "var".toList then
        match rest with
        | [name, value] => assignVar name value
        | [name] => assignVar name []
        | _ => pure []
      else if key = "let".toList then
        match rest with
        -- the words are interpolated once more
        | name :: word :: words => runLine (word :: words) >>= assignVar name
        | _ => pure []
      else if key = "out".toList then contextCommand runCommand rest false
      else contextCommand runCommand line true

/-- `RunLine`; calls and lines within lines may be nested to the depth `fuel`, and a function may
take as many rounds. -/
def runLine : ℕ → Line → Interp ω Str
  | 0, _ => fun _ => none
  | fuel + 1, line =>
      line.mapM (scriptInterpolate environment (runLine fuel)) >>=
        dispatch environment runCommand (runLine fuel) fuel

/-- `ScriptContext::Run`: the arguments as a list, and then the lines of the script. -/
def runScript (fuel : ℕ) (script : List Line) (args : List Str) : Interp ω Str := do
  let quoted := args.map fun a => '"' :: a ++ ['"']
  let _ ← assignVar "args".toList ('[' :: [','].intercalate quoted ++ [']'])
  runScope environment (runLine environment runCommand fuel) fuel (parse script)

/-! ## What lines do to the machine -/

/-- What is in a preorder with all that scripts do: assignments, commands, and a call as a whole if
what the function does is. -/
class Rules (R : Machine ω → Machine ω → Prop) : Prop extends IsPreorder (Machine ω) R where
  assign s name value : R s (s.assign name value)
  command s world : R s { s with world := world }
  call {s s' name fn} args : getFunction name s.chain = some fn → R (s.enter fn args) s' →
    R s s'.leave

variable {environment runCommand} {R : Machine ω → Machine ω → Prop} [Rules R]
  {line : Line → Interp ω Str}

lemma interpolate_respects {lookup : Str → Interp ω Str} (h : ∀ v, Respects R (lookup v))
    (tmpl : Str) : Respects R (interpolate lookup tmpl) := by
  refine .bind (.foldlM (fun s c => ?_) _ tmpl) fun s => .pure s.out
  unfold interpolateChar
  split
  · split_ifs
    · exact .pure _
    · exact .pure _
    · exact .pure _
    · exact .bind (h s.varname) fun value => .pure _
  · exact .pure _

lemma scriptInterpolate_respects (h : ∀ l, Respects R (line l)) (word : Str) :
    Respects R (scriptInterpolate environment line word) := by
  refine interpolate_respects (fun v => ?_) word
  split_ifs
  · exact h _
  · exact .bind .get fun s => .pure _

lemma assignVar_respects (name value : Str) : Respects R (assignVar name value) := by
  intro s result s' h
  cases h
  exact Rules.assign s name value

lemma contextCommand_respects (args : List Str) (capture : Bool) :
    Respects R (contextCommand runCommand args capture) := by
  intro s result s' h
  obtain ⟨⟨text, world⟩, -, heq⟩ := map_eq_some_iff.mp h
  cases heq
  exact Rules.command s world

section

variable (h : ∀ l, Respects R (line l)) (rounds : ℕ)
include h rounds

/-- `Run` does what its lines do, one after the other. -/
theorem runScope_respects (code : ScriptScope) :
    Respects R (runScope environment line rounds code) := by
  intro s result s' hrun
  obtain ⟨r, hrounds, heq⟩ := map_eq_some_iff.mp hrun
  cases heq
  unfold run at hrounds
  refine Loop.whileDo_invariant (I := fun r => R s r.env) (fun r r' hr hround => ?_) (refl_of R s)
    hrounds
  rcases runRound_touches hround with henv | ⟨l, result, hl⟩ | ⟨word, result, hword⟩
  · rwa [henv]
  · exact trans_of R hr (h l _ _ _ hl)
  · exact trans_of R hr (scriptInterpolate_respects h word _ _ _ hword)

/-- A call does: the new scope, the lines of the function, and the end of the scope. -/
theorem callFunction_respects (name : Str) (args : List Str) :
    Respects R (callFunction environment line rounds name args) := by
  intro s result s' hrun
  unfold callFunction at hrun
  split at hrun
  · rename_i fn hfn
    obtain ⟨⟨ret, s1⟩, hbody, hleave⟩ := bind_eq_some_iff.mp hrun
    cases hleave
    exact Rules.call args hfn (runScope_respects h rounds (parse fn.content) _ _ _ hbody)
  · cases hrun
    exact refl_of R s

theorem dispatch_respects (l : Line) :
    Respects R (dispatch environment runCommand line rounds l) := by
  unfold dispatch
  split
  · exact .pure _
  · dsimp only
    split_ifs
    · exact callFunction_respects h rounds _ _
    · split
      · exact assignVar_respects _ _
      · exact assignVar_respects _ _
      · exact .pure _
    · split
      · exact .bind (h _) (assignVar_respects _)
      · exact .pure _
    · exact contextCommand_respects _ _
    · exact contextCommand_respects _ _

end

theorem runLine_respects (fuel : ℕ) (l : Line) :
    Respects R (runLine environment runCommand fuel l) := by
  induction fuel generalizing l with
  | zero =>
    intro s result s' h
    cases h
  | succ fuel ih =>
    exact .bind (.mapM (scriptInterpolate_respects ih) l) (dispatch_respects ih fuel)

/-! ## Runs of scripts -/

instance {script : List Line} : Rules (scripts ω script).Leads where
  assign s name value := .of_step (a := .assign name value) rfl
  command s world := .of_step (a := .command world) rfl
  call {s s' name fn} args hfn hbody := by
    have hcall : (scripts ω script).step s (.call name args) = some (s.enter fn args) :=
      map_eq_some_iff.mpr ⟨fn, hfn, rfl⟩
    exact (System.Leads.of_step hcall).trans (hbody.trans (.of_step (a := .leave) rfl))

theorem runScript_reachable {script : List Line} {fuel : ℕ} {args : List Str} {world : ω}
    {result : Str} {s : Machine ω}
    (h : runScript environment runCommand fuel script args
      ⟨[Scope.global script], [[]], world⟩ = some (result, s)) :
    (scripts ω script).Reachable s := by
  have hfollows : (scripts ω script).Follows (runScript environment runCommand fuel script args) :=
    Respects.bind (assignVar_respects _ _) fun _ =>
      runScope_respects (runLine_respects fuel) fuel (parse script)
  exact (hfollows _ _ _ h).reachable (.init ⟨world, rfl⟩)

/-! ## The scopes around a function -/

lemma kept_refl (chain : List Scope) : Forall₂ Scope.Kept chain chain :=
  forall₂_same.mpr fun scope _ => .refl scope

lemma kept_trans {a b c : List Scope} (h : Forall₂ Scope.Kept a b) (h' : Forall₂ Scope.Kept b c) :
    Forall₂ Scope.Kept a c := by
  induction h generalizing c with
  | nil => exact h'
  | cons hscope _ ih =>
    cases h' with
    | cons hscope' h' =>
      refine .cons ⟨hscope'.isSealed.trans hscope.isSealed, fun hsealed => ?_, fun name hname => ?_⟩
        (ih h')
      · rw [hscope'.eq_of_isSealed (hscope.isSealed ▸ hsealed), hscope.eq_of_isSealed hsealed]
      · exact hscope'.lookup_eq_none name (hscope.lookup_eq_none name hname)

lemma kept_bindArgs (bound : List (Str × Str)) (scope : Scope) (parents : List Scope) :
    ∃ scope' parents', bindArgs bound (scope :: parents) = scope' :: parents' ∧
      Forall₂ Scope.Kept parents parents' := by
  induction bound generalizing scope parents with
  | nil => exact ⟨scope, parents, rfl, kept_refl parents⟩
  | cons b bound ih =>
    obtain ⟨scope1, parents1, hadd, hkept, -⟩ := addVar_cons b.1 b.2 scope parents
    obtain ⟨scope', parents', hbind, hkept'⟩ := ih scope1 parents1
    refine ⟨scope', parents', ?_, kept_trans hkept hkept'⟩
    rw [bindArgs, foldl_cons, hadd]
    exact hbind

/-- There are as many scopes as before, and those around the running one are kept. -/
def Framed (s s' : Machine ω) : Prop :=
  s'.chain.length = s.chain.length ∧ Forall₂ Scope.Kept s.chain.tail s'.chain.tail

instance : Rules (Framed (ω := ω)) where
  refl s := ⟨rfl, kept_refl _⟩
  trans _ _ _ h h' := ⟨h'.1.trans h.1, kept_trans h.2 h'.2⟩
  assign s name value := by
    rw [Framed, Machine.assign]
    cases s.chain with
    | nil => exact ⟨rfl, .nil⟩
    | cons scope parents =>
      obtain ⟨scope', parents', hadd, hkept, -⟩ := addVar_cons name value scope parents
      rw [hadd]
      exact ⟨by simp [hkept.length_eq], hkept⟩
  command s world := ⟨rfl, kept_refl _⟩
  call {s s' name fn} args hfn hbody := by
    obtain ⟨scope', parents', hbind, hkept⟩ := kept_bindArgs (fn.params.zip args) (.ofFunction fn)
      s.chain
    rw [Framed, Machine.enter, hbind] at hbody
    -- the scope of the caller is one of those around the function
    have hchain : Forall₂ Scope.Kept s.chain s'.leave.chain := kept_trans hkept hbody.2
    exact ⟨hchain.length_eq.symm, by simpa using forall₂_drop 1 hchain⟩

/-- While a function runs, whatever it calls and whatever commands do, the variables of functions
that lead to its call do not change, and the global scope gets no new ones. -/
theorem runScope_framed (fuel rounds : ℕ) (code : ScriptScope) :
    Respects Framed (runScope environment (runLine environment runCommand fuel) rounds code) :=
  runScope_respects (runLine_respects fuel) rounds code

end Interpreter

/-- A function is called while there is a variable with the name of its parameter. -/
def shadowed : List Line :=
  ["function f x", "end function", "var x 1", "call f 2", "echo $x$"].map (parseCommand ·.toList)

/-- The script in a context whose commands return their last word. -/
def ranShadowed : Option (Str × Machine Unit) :=
  runScript (fun _ _ => []) (fun _ args _ => some (args.getLastD [], ())) 9 shadowed []
    ⟨[Scope.global shadowed], [[]], ()⟩

theorem runScript_reachable_shadowed :
    ∃ r ∈ ranShadowed, r.1 = "\n\n2\n".toList ∧ (scripts Unit shadowed).Reachable r.2 := by
  have hran : ranShadowed.map Prod.fst = some "\n\n2\n".toList := by decide +kernel
  obtain ⟨r, hr, hout⟩ := map_eq_some_iff.mp hran
  exact ⟨r, hr, hout, runScript_reachable hr⟩

end Cmd
