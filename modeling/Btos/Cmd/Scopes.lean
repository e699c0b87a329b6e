import Btos.Cmd.Scripts
import Btos.Lib.OrderedMap
import Btos.Lib.TransitionSystem

/-!
# Scopes of scripts

A call of a script function makes a new scope whose parent is the scope of the caller, so that
scopes form a chain with the global scope at its end. `AddVar` assigns a variable of the running
scope, or else one of an enclosing scope that is not sealed, or else makes a new one; the empty
string removes it. The scopes of functions are sealed, the global scope is not.

`ScriptFunction::Run` binds arguments to parameters by `AddVar`. A parameter that has the name of a
global variable is therefore assigned to that variable, and an empty argument makes the parameter
read as what an enclosing scope has under its name.

`Machine` is the chain with what was bound to the parameters of the running functions and was not
assigned since. `parameters_of_reaches` says when a parameter is what was passed and nothing else is
changed.
-/

open List Option

namespace Cmd

/-! ## Variables -/

/-- `ScriptScope` while it is run. -/
structure Scope where
  code : ScriptScope
  locals : OrderedMap Str Str
  isSealed : Bool
  deriving DecidableEq

namespace Scope

/-- `ScriptScope(c)`: the scope of a script. -/
def global (script : List Line) : Scope := ⟨parse script, .empty, false⟩

/-- `ScriptScope {&parent}`, with what `Parse` adds to it. -/
def ofFunction (fn : ScriptFunction) : Scope := ⟨parse fn.content, .empty, true⟩

/-- `locals[name] = value`. -/
def put (name value : Str) (scope : Scope) : Scope :=
  { scope with locals := scope.locals.put name value }

/-- A variable that there was not; the empty string is no value. -/
def add (name value : Str) (scope : Scope) : Scope :=
  if value ≠ [] then scope.put name value
  else { scope with locals := scope.locals.erase name }

end Scope

/-- `SetVar` of the first scope of a chain: whether there was the variable, and the chain. -/
def setVar (name value : Str) : Bool → List Scope → Bool × List Scope
  | _, [] => (false, [])
  | isLocal, scope :: parents =>
      if (isLocal || !scope.isSealed) ∧ (scope.locals.lookup name).isSome then
        (true, scope.put name value :: parents)
      else
        -- the variables of a sealed scope are passed over, but not its parents
        let (found, parents) := setVar name value false parents
        (found, scope :: parents)

/-- `AddVar` of the first scope of a chain. -/
def addVar (name value : Str) (chain : List Scope) : List Scope :=
  match setVar name value true chain with
  -- here the empty string is a value
  | (true, chain) => chain
  | (false, []) => []
  | (false, scope :: parents) => scope.add name value :: parents

/-- `GetVar`, where `getenv` is that of the context. -/
def getVar (getenv : Str → Str) (name : Str) : List Scope → Str
  | [] => getenv name
  | scope :: parents => (scope.locals.lookup name).getD (getVar getenv name parents)

/-- `GetFunction`. -/
def getFunction (name : Str) : List Scope → Option ScriptFunction
  | [] => none
  | scope :: parents => (scope.code.functions.lookup name).or (getFunction name parents)

/-- The loop of `ScriptFunction::Run`, which ends with the parameters or with the arguments. -/
def bindArgs (bound : List (Str × Str)) (chain : List Scope) : List Scope :=
  bound.foldl (fun chain b => addVar b.1 b.2 chain) chain

/-! ## Calls -/

/-- The chain of scopes, the running one first; for each of them the parameters that were bound and
that the function did not assign since; and what commands change. -/
structure Machine (ω : Type) where
  chain : List Scope
  passed : List (List (Str × Str))
  world : ω

/-- What a script does to its variables. -/
inductive Action (ω : Type) where
  /-- CALL -/
  | call (name : Str) (args : List Str)
  /-- VAR and LET -/
  | assign (name value : Str)
  /-- The end of a function, or of the script. -/
  | leave
  /-- A command of the context has been run. -/
  | command (world : ω)

namespace Machine

variable {ω : Type} (s : Machine ω)

/-- A function is entered. -/
def enter (fn : ScriptFunction) (args : List Str) : Machine ω :=
  { s with
    chain := bindArgs (fn.params.zip args) (Scope.ofFunction fn :: s.chain)
    passed := fn.params.zip args :: s.passed }

/-- The running scope assigns a variable. -/
def assign (name value : Str) : Machine ω :=
  { s with
    chain := addVar name value s.chain
    passed := s.passed.modifyHead (·.filter (·.1 ≠ name)) }

/-- The running scope ends. -/
def leave : Machine ω := { s with chain := s.chain.tail, passed := s.passed.tail }

/-- A step of a script. -/
def step : Action ω → Option (Machine ω)
  | .call name args => (getFunction name s.chain).map (s.enter · args)
  | .assign name value => some (s.assign name value)
  | .leave => some s.leave
  | .command world => some { s with world := world }

end Machine

/-- Runs of a script. -/
def scripts (ω : Type) (script : List Line) : System (Machine ω) (Action ω) where
  init s := ∃ world, s = ⟨[Scope.global script], [[]], world⟩
  step := Machine.step

/-! ## What an assignment changes -/

namespace Scope

@[simp]
lemma isSealed_add (name value : Str) (scope : Scope) :
    (scope.add name value).isSealed = scope.isSealed := by
  unfold add
  split_ifs <;> rfl

@[simp]
lemma lookup_add_self (name value : Str) (scope : Scope) :
    (scope.add name value).locals.lookup name = if value = [] then none else some value := by
  by_cases h : value = [] <;> simp [add, put, h]

lemma lookup_put_of_ne {name name' : Str} (value : Str) (scope : Scope) (h : name' ≠ name) :
    (scope.put name value).locals.lookup name' = scope.locals.lookup name' :=
  OrderedMap.lookup_put_of_ne _ _ h

lemma lookup_add_of_ne {name name' : Str} (value : Str) (scope : Scope) (h : name' ≠ name) :
    (scope.add name value).locals.lookup name' = scope.locals.lookup name' := by
  unfold add
  split_ifs
  · exact lookup_put_of_ne value scope h
  · exact OrderedMap.lookup_erase_of_ne _ h

end Scope

/-- What an assignment may do to a scope that is not the running one: nothing if it is sealed, and
otherwise it has the same variables. -/
structure Scope.Kept (scope scope' : Scope) : Prop where
  isSealed : scope'.isSealed = scope.isSealed
  eq_of_isSealed : scope.isSealed → scope' = scope
  lookup_eq_none : ∀ name, scope.locals.lookup name = none → scope'.locals.lookup name = none

lemma Scope.Kept.refl (scope : Scope) : scope.Kept scope := ⟨rfl, fun _ => rfl, fun _ h => h⟩

variable {name : Str} {scope : Scope}

lemma Scope.Kept.put (value : Str) (hopen : ¬scope.isSealed)
    (hname : (scope.locals.lookup name).isSome) : scope.Kept (scope.put name value) where
  isSealed := rfl
  eq_of_isSealed h := absurd h hopen
  lookup_eq_none name' h := by
    have hne : name' ≠ name := by
      rintro rfl
      simp [h] at hname
    rwa [Scope.lookup_put_of_ne value scope hne]

lemma kept_setVar (name value : Str) (chain : List Scope) :
    List.Forall₂ Scope.Kept chain (setVar name value false chain).2 := by
  induction chain with
  | nil => exact .nil
  | cons scope parents ih =>
    rw [setVar]
    split
    · rename_i hfound
      refine .cons (.put value (by simpa using hfound.1) hfound.2) ?_
      exact forall₂_same.mpr fun scope _ => .refl scope
    · exact .cons (.refl scope) ih

/-- No enclosing scope that is not sealed has the variable. -/
def Apart (name : Str) (parents : List Scope) : Prop :=
  ∀ scope ∈ parents, ¬scope.isSealed → scope.locals.lookup name = none

variable {parents : List Scope}

lemma setVar_of_apart (value : Str)
    (h : Apart name parents) : setVar name value false parents = (false, parents) := by
  induction parents with
  | nil => rfl
  | cons scope parents ih =>
    obtain ⟨hscope, hparents⟩ := forall_mem_cons.mp h
    have hnot : ¬((false || !scope.isSealed) ∧ (scope.locals.lookup name).isSome) := by
      rintro ⟨hopen, hsome⟩
      simp [hscope (by simpa using hopen)] at hsome
    rw [setVar, if_neg hnot, ih hparents]

lemma addVar_of_apart (value : Str)
    (h : Apart name parents) (hname : scope.locals.lookup name = none) :
    addVar name value (scope :: parents) = scope.add name value :: parents := by
  have hset : setVar name value true (scope :: parents) = (false, scope :: parents) := by
    rw [setVar, if_neg (by simp [hname]), setVar_of_apart value h]
  rw [addVar, hset]

/-- `AddVar` changes a variable of the running scope, or sets one of an enclosing scope. -/
lemma addVar_cons (name value : Str) (scope : Scope) (parents : List Scope) :
    ∃ scope' parents', addVar name value (scope :: parents) = scope' :: parents' ∧
      List.Forall₂ Scope.Kept parents parents' ∧ scope'.isSealed = scope.isSealed ∧
      ∀ name' ≠ name, scope'.locals.lookup name' = scope.locals.lookup name' := by
  have hkept := kept_setVar name value parents
  rw [addVar, setVar]
  split_ifs with hfound
  · exact ⟨_, parents, rfl, forall₂_same.mpr fun scope _ => .refl scope, rfl,
      fun name' hne => scope.lookup_put_of_ne value hne⟩
  · generalize setVar name value false parents = result at hkept
    obtain ⟨found, parents'⟩ := result
    cases found with
    | true => exact ⟨scope, parents', rfl, hkept, rfl, fun _ _ => rfl⟩
    | false =>
      exact ⟨_, parents', rfl, hkept, scope.isSealed_add name value,
        fun name' hne => scope.lookup_add_of_ne value hne⟩

/-- Parameters that no scope in sight has are bound in the new scope, and nowhere else. -/
lemma bindArgs_cons {bound : List (Str × Str)}
    (hnodup : (bound.map Prod.fst).Nodup) (hapart : ∀ b ∈ bound, Apart b.1 parents)
    (hfresh : ∀ b ∈ bound, scope.locals.lookup b.1 = none) :
    ∃ scope', bindArgs bound (scope :: parents) = scope' :: parents ∧
      scope'.isSealed = scope.isSealed ∧
      (∀ name ∉ bound.map Prod.fst, scope'.locals.lookup name = scope.locals.lookup name) ∧
      ∀ b ∈ bound, scope'.locals.lookup b.1 = if b.2 = [] then none else some b.2 := by
  induction bound generalizing scope with
  | nil => exact ⟨scope, rfl, rfl, fun _ _ => rfl, by simp⟩
  | cons b bound ih =>
    rw [map_cons, nodup_cons] at hnodup
    rw [forall_mem_cons] at hapart hfresh
    have hne : ∀ b' ∈ bound, b'.1 ≠ b.1 := by
      rintro b' hb' heq
      exact hnodup.1 (heq ▸ mem_map_of_mem hb')
    -- the other parameters are not those of this round
    have hfresh' : ∀ b' ∈ bound, (scope.add b.1 b.2).locals.lookup b'.1 = none := by
      intro b' hb'
      rw [scope.lookup_add_of_ne b.2 (hne b' hb')]
      exact hfresh.2 b' hb'
    obtain ⟨scope', hbind, hsealed, hother, hbound⟩ := ih hnodup.2 hapart.2 hfresh'
    refine ⟨scope', ?_, by rw [hsealed, scope.isSealed_add], ?_, ?_⟩
    · rw [bindArgs, foldl_cons, addVar_of_apart b.2 hapart.1 hfresh.1]
      exact hbind
    · intro name hname
      rw [map_cons, mem_cons, not_or] at hname
      rw [hother name hname.2, scope.lookup_add_of_ne b.2 hname.1]
    · rw [forall_mem_cons]
      exact ⟨by rw [hother b.1 hnodup.1, scope.lookup_add_self], hbound⟩

/-! ## Parameters read as passed -/

/-- No scope has the variable. -/
def Unknown (name : Str) (chain : List Scope) : Prop :=
  ∀ scope ∈ chain, scope.locals.lookup name = none

/-- How it is that a parameter reads as passed: it is a variable of the function's scope or, if it
is empty, nothing in sight has its name. -/
def Holds (getenv : Str → Str) (scope : Scope) (parents : List Scope) (b : Str × Str) : Prop :=
  scope.isSealed ∧
    if b.2 = [] then Unknown b.1 (scope :: parents) ∧ getenv b.1 = []
    else scope.locals.lookup b.1 = some b.2

/-- The parameters of all functions do. -/
inductive Passed (getenv : Str → Str) : List Scope → List (List (Str × Str)) → Prop
  | nil : Passed getenv [] []
  | cons {scope : Scope} {parents : List Scope} {bound : List (Str × Str)}
      {passed : List (List (Str × Str))} :
      (∀ b ∈ bound, Holds getenv scope parents b) → Passed getenv parents passed →
      Passed getenv (scope :: parents) (bound :: passed)

variable {getenv getenv' : Str → Str}

lemma getVar_eq_getenv {chain : List Scope} (h : Unknown name chain) :
    getVar getenv name chain = getenv name := by
  induction chain with
  | nil => rfl
  | cons scope parents ih =>
    obtain ⟨hscope, hparents⟩ := forall_mem_cons.mp h
    rw [getVar, hscope, getD_none, ih hparents]

lemma Unknown.of_kept {chain chain' : List Scope} (h : Unknown name chain)
    (hkept : List.Forall₂ Scope.Kept chain chain') : Unknown name chain' := by
  induction hkept with
  | nil => exact h
  | cons hscope _ ih =>
    obtain ⟨hfirst, hrest⟩ := forall_mem_cons.mp h
    exact forall_mem_cons.mpr ⟨hscope.lookup_eq_none name hfirst, ih hrest⟩

variable {b : Str × Str}

lemma Holds.getVar_eq
    (h : Holds getenv scope parents b) : getVar getenv b.1 (scope :: parents) = b.2 := by
  obtain ⟨-, h⟩ := h
  split_ifs at h with hempty
  · rw [getVar_eq_getenv h.1, h.2, hempty]
  · rw [getVar, h, getD_some]

lemma Holds.of_kept {scope scope' : Scope} {parents parents' : List Scope}
    (h : Holds getenv scope parents b) (hscope : scope.Kept scope')
    (hparents : List.Forall₂ Scope.Kept parents parents') :
    Holds getenv scope' parents' b := by
  obtain ⟨hsealed, h⟩ := h
  refine ⟨hscope.isSealed ▸ hsealed, ?_⟩
  split_ifs at h ⊢ with hempty
  · exact ⟨h.1.of_kept (.cons hscope hparents), h.2⟩
  · rwa [hscope.eq_of_isSealed hsealed]

lemma Holds.of_lookup_eq {scope scope' : Scope} {parents parents' : List Scope}
    (h : Holds getenv scope parents b) (hsealed : scope'.isSealed = scope.isSealed)
    (hname : scope'.locals.lookup b.1 = scope.locals.lookup b.1)
    (hparents : List.Forall₂ Scope.Kept parents parents') :
    Holds getenv scope' parents' b := by
  obtain ⟨hscope, h⟩ := h
  refine ⟨hsealed ▸ hscope, ?_⟩
  split_ifs at h ⊢ with hempty
  · obtain ⟨hunknown, hrest⟩ := forall_mem_cons.mp h.1
    exact ⟨forall_mem_cons.mpr ⟨hname.trans hunknown, Unknown.of_kept hrest hparents⟩, h.2⟩
  · exact hname.trans h

namespace Passed

variable {chain chain' : List Scope} {passed : List (List (Str × Str))}

section

variable (h : Passed getenv chain passed)
include h

lemma getVar_eq {n : ℕ} {bound : List (Str × Str)}
    (hbound : passed[n]? = some bound) (hb : b ∈ bound) :
    getVar getenv b.1 (chain.drop n) = b.2 := by
  induction h generalizing n with
  | nil => simp at hbound
  | cons hholds _ ih =>
    cases n with
    | zero =>
      cases hbound
      exact (hholds b hb).getVar_eq
    | succ n => exact ih hbound

lemma of_kept (hkept : List.Forall₂ Scope.Kept chain chain') : Passed getenv chain' passed := by
  induction h generalizing chain' with
  | nil =>
    cases hkept
    exact .nil
  | cons hholds _ ih =>
    cases hkept with
    | cons hscope hparents =>
      exact .cons (fun b hb => (hholds b hb).of_kept hscope hparents) (ih hparents)

lemma addVar (name value : Str) :
    Passed getenv (addVar name value chain) (passed.modifyHead (·.filter (·.1 ≠ name))) := by
  cases h with
  | nil => exact .nil
  | @cons scope parents bound passed hholds hrest =>
    obtain ⟨scope', parents', hadd, hkept, hsealed, hlookup⟩ :=
      addVar_cons name value scope parents
    rw [hadd]
    refine .cons (fun b hb => ?_) (hrest.of_kept hkept)
    -- what is left of the parameters does not have the name that is assigned
    rw [mem_filter] at hb
    exact (hholds b hb.1).of_lookup_eq hsealed (hlookup b.1 (by simpa using hb.2)) hkept

lemma tail : Passed getenv chain.tail passed.tail := by
  cases h with
  | nil => exact .nil
  | cons _ hrest => exact hrest

lemma of_getenv (hempty : ∀ bound ∈ passed, ∀ b ∈ bound, b.2 = [] → getenv' b.1 = []) :
    Passed getenv' chain passed := by
  induction h with
  | nil => exact .nil
  | cons hholds _ ih =>
    rw [forall_mem_cons] at hempty
    refine .cons (fun b hb => ?_) (ih hempty.2)
    obtain ⟨hsealed, hb'⟩ := hholds b hb
    refine ⟨hsealed, ?_⟩
    split_ifs at hb' ⊢ with hnil
    · exact ⟨hb'.1, hempty.1 b hb hnil⟩
    · exact hb'

end

end Passed

/-! ## Runs -/

section Runs

variable {ω : Type} (environment : ω → Str → Str)

/-- An argument that may be passed: no global variable has the name of the parameter and, if the
argument is empty, no other variable either. -/
def Passable (s : Machine ω) (b : Str × Str) : Prop :=
  Apart b.1 s.chain ∧ (b.2 = [] → Unknown b.1 s.chain ∧ environment s.world b.1 = [])

/-- Calls pass arguments to parameters of different names that are passable, and commands do not
give a value to a variable of the context that has the name of an empty parameter. -/
def Fits (s : Machine ω) : Action ω → Prop
  | .call name args =>
      ∀ fn ∈ getFunction name s.chain, ((fn.params.zip args).map Prod.fst).Nodup ∧
        ∀ b ∈ fn.params.zip args, Passable environment s b
  | .command world =>
      ∀ bound ∈ s.passed, ∀ b ∈ bound, b.2 = [] → environment world b.1 = []
  | _ => True

instance decidableApart (name : Str) (parents : List Scope) : Decidable (Apart name parents) :=
  inferInstanceAs (Decidable (∀ _ ∈ parents, _))

instance decidableUnknown (name : Str) (chain : List Scope) : Decidable (Unknown name chain) :=
  inferInstanceAs (Decidable (∀ _ ∈ chain, _))

instance decidablePassable (s : Machine ω) (b : Str × Str) :
    Decidable (Passable environment s b) :=
  inferInstanceAs (Decidable (_ ∧ _))

instance decidableFits (s : Machine ω) : ∀ a, Decidable (Fits environment s a)
  | .call name _ => inferInstanceAs (Decidable (∀ _ ∈ getFunction name s.chain, _ ∧ _))
  | .assign _ _ | .leave => isTrue trivial
  | .command _ => inferInstanceAs (Decidable (∀ _ ∈ s.passed, _))

/-- The arguments are bound, and the enclosing scopes are as before. -/
lemma enter_passed {s : Machine ω} {fn : ScriptFunction} {args : List Str}
    (hnodup : ((fn.params.zip args).map Prod.fst).Nodup)
    (hpassable : ∀ b ∈ fn.params.zip args, Passable environment s b) :
    ∃ scope, (s.enter fn args).chain = scope :: s.chain ∧
      ∀ b ∈ fn.params.zip args, Holds (environment s.world) scope s.chain b := by
  have hfresh : ∀ b ∈ fn.params.zip args, (Scope.ofFunction fn).locals.lookup b.1 = none :=
    fun b _ => OrderedMap.lookup_empty b.1
  obtain ⟨scope, hbind, hsealed, -, hbound⟩ :=
    bindArgs_cons hnodup (fun b hb => (hpassable b hb).1) hfresh
  refine ⟨scope, hbind, fun b hb => ⟨hsealed, ?_⟩⟩
  -- an empty argument leaves no variable, so it is read from the enclosing scopes
  have hlookup := hbound b hb
  split_ifs at hlookup ⊢ with hempty
  · obtain ⟨hunknown, henv⟩ := (hpassable b hb).2 hempty
    exact ⟨forall_mem_cons.mpr ⟨hlookup, hunknown⟩, henv⟩
  · exact hlookup

lemma call_passed {s s' : Machine ω} {args : List Str}
    (hfits : Fits environment s (.call name args)) (h : s.step (.call name args) = some s') :
    ∃ scope bound, s' = ⟨scope :: s.chain, bound :: s.passed, s.world⟩ ∧
      ∀ b ∈ bound, Holds (environment s.world) scope s.chain b := by
  obtain ⟨fn, hfn, rfl⟩ := map_eq_some_iff.mp h
  obtain ⟨hnodup, hpassable⟩ := hfits fn hfn
  obtain ⟨scope, hchain, hholds⟩ := enter_passed environment hnodup hpassable
  exact ⟨scope, fn.params.zip args, by rw [← hchain]; rfl, hholds⟩

lemma step_passed {s s' : Machine ω} {a : Action ω}
    (hs : Passed (environment s.world) s.chain s.passed) (hfits : Fits environment s a)
    (h : s.step a = some s') : Passed (environment s'.world) s'.chain s'.passed := by
  cases a with
  | call name args =>
    obtain ⟨scope, bound, rfl, hholds⟩ := call_passed environment hfits h
    exact .cons hholds hs
  | assign name value =>
    cases h
    exact hs.addVar name value
  | leave =>
    cases h
    exact hs.tail
  | command world =>
    cases h
    exact hs.of_getenv hfits

/-- Every parameter of a running function that the function did not assign reads as the string that
was passed, in the scope of the function. -/
def ReadsAsPassed (s : Machine ω) : Prop :=
  ∀ n bound, s.passed[n]? = some bound → ∀ b ∈ bound,
    getVar (environment s.world) b.1 (s.chain.drop n) = b.2

/-- In a run whose steps fit, parameters read as passed until the function assigns them, and calls
leave the scopes that enclose the function as they were. -/
theorem parameters_of_reaches {script : List Line} {s : Machine ω}
    (h : (scripts ω script).Reaches (Fits environment) s) :
    ReadsAsPassed environment s ∧
      ∀ name args s', Fits environment s (.call name args) →
        s.step (.call name args) = some s' → s'.chain.tail = s.chain := by
  have hpassed : Passed (environment s.world) s.chain s.passed := by
    refine h.invariant (P := fun s => Passed (environment s.world) s.chain s.passed) ?_ ?_
    · rintro _ ⟨world, rfl⟩
      exact .cons (by simp) .nil
    · exact fun s a s' hs hfits hstep => step_passed environment hs hfits hstep
  refine ⟨fun n bound hbound b hb => hpassed.getVar_eq hbound hb, ?_⟩
  intro name args s' hfits hstep
  obtain ⟨scope, bound, rfl, -⟩ := call_passed environment hfits hstep
  rfl

end Runs

/-! ## A script with two functions -/

/-- `outer a b` and `inner a`. -/
def twoFunctions : List Line :=
  [["FUNCTION".toList, "outer".toList, "a".toList, "b".toList], ["END".toList, "FUNCTION".toList],
    ["FUNCTION".toList, "inner".toList, "a".toList], ["END".toList, "FUNCTION".toList]]

/-- The state before its first line, in a context without variables. -/
def started : Machine Unit := ⟨[Scope.global twoFunctions], [[]], ()⟩

lemma init_started : (scripts Unit twoFunctions).init started := ⟨(), rfl⟩

/-- A global variable, a call with an empty argument, and within it a call of the other function
which has a parameter of the same name and assigns it. -/
theorem parameters_nested :
    ∃ s, (scripts Unit twoFunctions).Reaches (Fits fun _ _ => []) s ∧
      s.passed = [[], [("a".toList, "1".toList), ("b".toList, [])], []] ∧
      ReadsAsPassed (fun _ _ => []) s ∧
      ∀ name args s', Fits (fun _ _ => []) s (.call name args) →
        s.step (.call name args) = some s' → s'.chain.tail = s.chain := by
  have hrun : (((scripts Unit twoFunctions).guarded (Fits fun _ _ => [])).run started
      [.assign "g".toList "0".toList, .call "outer".toList ["1".toList, []],
        .call "inner".toList ["2".toList], .assign "a".toList "3".toList]).any
      (fun s => decide (s.passed = [[], [("a".toList, "1".toList), ("b".toList, [])], []])) =
      true := by
    decide
  rw [Option.any_eq_true] at hrun
  obtain ⟨s, hrun, hs⟩ := hrun
  have hreaches := System.reaches_of_run_guarded (.init init_started) hrun
  exact ⟨s, hreaches, of_decide_eq_true hs, parameters_of_reaches _ hreaches⟩

/-- A call whose parameter has the name of a global variable changes the variable, and an empty
argument reads as the argument of the caller. -/
theorem exists_not_passed :
    (∃ s, (scripts Unit twoFunctions).Reachable s ∧
      ∃ s', s.step (.call "inner".toList ["2".toList]) = some s' ∧ s'.chain.tail ≠ s.chain) ∧
    ∃ s, (scripts Unit twoFunctions).Reachable s ∧ ¬ReadsAsPassed (fun _ _ => []) s := by
  refine ⟨?_, ?_⟩
  · have hrun : ((scripts Unit twoFunctions).run started [.assign "a".toList "1".toList]).any
        (fun s => (s.step (.call "inner".toList ["2".toList])).any
          fun s' => decide (s'.chain.tail ≠ s.chain)) = true := by
      decide
    obtain ⟨s, hreachable, hs⟩ := System.exists_reachable_of_run init_started hrun
    obtain ⟨s', hstep, hne⟩ := any_eq_true _ _ |>.mp hs
    exact ⟨s, hreachable, s', hstep, of_decide_eq_true hne⟩
  · have hrun : ((scripts Unit twoFunctions).run started
        [.call "outer".toList ["1".toList], .call "inner".toList [[]]]).any
        (fun s => decide (s.passed[0]? = some [("a".toList, [])] ∧
          getVar (fun _ => []) "a".toList (s.chain.drop 0) ≠ [])) = true := by
      decide
    obtain ⟨s, hreachable, hs⟩ := System.exists_reachable_of_run init_started hrun
    obtain ⟨hbound, hne⟩ := of_decide_eq_true hs
    exact ⟨s, hreachable, fun hreads => hne (hreads 0 _ hbound _ mem_cons_self)⟩

end Cmd
