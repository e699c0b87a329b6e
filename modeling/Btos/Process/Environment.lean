import Btos.Lib.OrderedMap
import Btos.Lib.TransitionSystem
import Btos.Util.Strings

/-!
# The environment of processes

Every process has an environment, a map from names to values with flags. The one of process 0,
the kernel, also has the variables with the flag `Global`, which every process sees instead of its
own. `proc_setenv` refuses to change a variable that is `ReadOnly` or `Private` for a process in
user space.

The test of `proc_setenv` looks at the environment that the call writes to, while `proc_getenv`
looks at the global variables first. So a protected variable of a process keeps its value only as
long as nobody defines a global one of the same name.

Main results: `getenv_of_reaches` and `exists_not_protected`.
-/

namespace Process

/-- `pid_t`. -/
abbrev Pid := ℕ

/-- `proc_env_flags`. -/
def envGlobal : BitVec 8 := 1#8 <<< 0

@[inherit_doc envGlobal] def envReadOnly : BitVec 8 := 1#8 <<< 1

@[inherit_doc envGlobal] def envPrivate : BitVec 8 := 1#8 <<< 2

/-- `proc_env_var`. -/
structure EnvVar where
  value : Str
  flags : BitVec 8
  deriving DecidableEq, Repr

namespace EnvVar

variable (v : EnvVar)

/-- `flags & proc_env_flags::Global`. -/
def isGlobal : Bool := v.flags &&& envGlobal ≠ 0

/-- `flags & proc_env_flags::ReadOnly`. -/
def isReadOnly : Bool := v.flags &&& envReadOnly ≠ 0

/-- `flags & proc_env_flags::Private`. -/
def isPrivate : Bool := v.flags &&& envPrivate ≠ 0

/-- The flags for which `proc_setenv` refuses a change from user space. -/
def isProtected : Bool := v.isPrivate || v.isReadOnly

end EnvVar

/-- `env_t`. -/
abbrev Env := OrderedMap Str EnvVar

/-- The environments of the processes. -/
structure Environments where
  /-- `proc_get(pid)->environment`. -/
  environment : Pid → Env
  /-- `proc_current_pid`. -/
  currentPid : Pid

namespace Environments

variable (s : Environments)

/-- Whose environment `proc_setenv` writes to. -/
def target (pid : Pid) (flags : BitVec 8) : Pid := if flags &&& envGlobal ≠ 0 then 0 else pid

/-- An update of one environment. -/
def modify (pid : Pid) (f : Env → Env) : Environments :=
  { s with environment := Function.update s.environment pid (f (s.environment pid)) }

/-- `proc_setenv`. -/
def procSetenv (pid : Pid) (oname value : Str) (flags : BitVec 8) (userspace : Bool) :
    Environments :=
  let name := oname.toUpper
  let env := s.environment (target pid flags)
  if userspace && (env.lookup name).any EnvVar.isProtected then s
  else if value.length ≠ 0 then s.modify (target pid flags) (·.put name ⟨value, flags⟩)
  else s.modify (target pid flags) (·.erase name)

/-- The value of a variable, blank for user space if it is private. -/
def valueFor (userspace : Bool) (v : EnvVar) : Str :=
  if !userspace || !v.isPrivate then v.value else []

/-- `proc_getenv`. -/
def procGetenv (pid : Pid) (oname : Str) (userspace : Bool) : Str :=
  let name := oname.toUpper
  match (s.environment 0).lookup name with
  | some v =>
      if v.isGlobal then valueFor userspace v
      else ((s.environment pid).lookup name).elim [] (valueFor userspace)
  | none => ((s.environment pid).lookup name).elim [] (valueFor userspace)

end Environments

/-- A call of `proc_setenv` from user space. -/
structure SetenvCall where
  pid : Pid
  name : Str
  value : Str
  flags : BitVec 8
  deriving DecidableEq, Repr

/-- Calls of `proc_setenv` from user space, in any state of the environments. -/
def setenvCalls (s₀ : Environments) : System Environments SetenvCall where
  init s := s = s₀
  step s c := some (s.procSetenv c.pid c.name c.value c.flags true)

namespace Environments

variable {s s₀ : Environments} {pid : Pid} {name : Str}

/-! ## The variable that is looked up -/

/-- The variable that `proc_getenv` returns the value of; the name is in upper case. -/
def visible (s : Environments) (pid : Pid) (name : Str) : Option EnvVar :=
  if ((s.environment 0).lookup name).any EnvVar.isGlobal then (s.environment 0).lookup name
  else (s.environment pid).lookup name

lemma procGetenv_eq (s : Environments) (pid : Pid) (oname : Str) (userspace : Bool) :
    s.procGetenv pid oname userspace =
      (s.visible pid oname.toUpper).elim [] (valueFor userspace) := by
  unfold procGetenv visible
  dsimp only
  cases hlookup : (s.environment 0).lookup oname.toUpper with
  | none => simp
  | some v => cases hglobal : v.isGlobal <;> simp [hglobal]

/-- A variable of the process or a global one is protected. -/
def Marked (s : Environments) (pid : Pid) (name : Str) : Prop :=
  ((s.environment 0).lookup name).any (fun v => v.isGlobal && v.isProtected) = true ∨
    ((s.environment pid).lookup name).any EnvVar.isProtected = true

/-- A call that writes to the environment of the kernel does not name a variable that is
protected for some process, unless it is protected there too. -/
def LeavesProtected (s : Environments) (c : SetenvCall) : Prop :=
  target c.pid c.flags = 0 →
    ∀ pid, ((s.environment pid).lookup c.name.toUpper).any EnvVar.isProtected = true →
      ((s.environment 0).lookup c.name.toUpper).any EnvVar.isProtected = true

/-! ## The effect of a call -/

/-- A call changes one variable of one environment, which is not protected. -/
lemma lookup_procSetenv (c : SetenvCall) (pid : Pid) (name : Str)
    (hchanged : ((s.procSetenv c.pid c.name c.value c.flags true).environment pid).lookup name ≠
      (s.environment pid).lookup name) :
    pid = target c.pid c.flags ∧ name = c.name.toUpper ∧
      ((s.environment pid).lookup name).any EnvVar.isProtected = false := by
  -- Both ways of writing change the variable of that name only.
  have hmodify : ∀ f : Env → Env,
      (∀ n, n ≠ c.name.toUpper → ∀ m : Env, (f m).lookup n = m.lookup n) →
      ((s.modify (target c.pid c.flags) f).environment pid).lookup name ≠
        (s.environment pid).lookup name → pid = target c.pid c.flags ∧ name = c.name.toUpper := by
    intro f hf hne
    have hpid : pid = target c.pid c.flags := by
      by_contra hpid
      exact hne (congrArg (OrderedMap.lookup · name) (Function.update_of_ne hpid _ _))
    refine ⟨hpid, ?_⟩
    by_contra hname
    refine hne ?_
    rw [modify]
    dsimp only
    rw [hpid, Function.update_self]
    exact hf name hname _
  unfold procSetenv at hchanged
  dsimp only at hchanged
  split at hchanged
  · exact absurd rfl hchanged
  rename_i hopen
  have hopen : ((s.environment (target c.pid c.flags)).lookup c.name.toUpper).any
      EnvVar.isProtected = false := by simpa using hopen
  suffices h : pid = target c.pid c.flags ∧ name = c.name.toUpper by
    obtain ⟨rfl, rfl⟩ := h
    exact ⟨rfl, rfl, hopen⟩
  split at hchanged
  · exact hmodify _ (fun n hn m => OrderedMap.lookup_put_of_ne _ m hn) hchanged
  · exact hmodify _ (fun n hn m => OrderedMap.lookup_erase_of_ne m hn) hchanged

lemma lookup_procSetenv_of_protected (c : SetenvCall)
    (h : ((s.environment pid).lookup name).any EnvVar.isProtected = true) :
    ((s.procSetenv c.pid c.name c.value c.flags true).environment pid).lookup name =
      (s.environment pid).lookup name := by
  by_contra hne
  have hopen := (lookup_procSetenv c pid name hne).2.2
  rw [h] at hopen
  cases hopen

/-- A call that leaves protected variables alone changes neither what is seen of one nor that it
is protected. -/
lemma visible_procSetenv (hmarked : s.Marked pid name) {c : SetenvCall} (hc : s.LeavesProtected c) :
    (s.procSetenv c.pid c.name c.value c.flags true).visible pid name = s.visible pid name ∧
      (s.procSetenv c.pid c.name c.value c.flags true).Marked pid name := by
  set s' := s.procSetenv c.pid c.name c.value c.flags true with hs'
  rcases hmarked with hglobal | hown
  · -- The global variable is protected, and it is the one that is seen.
    have hboth : ((s.environment 0).lookup name).any EnvVar.isGlobal = true ∧
        ((s.environment 0).lookup name).any EnvVar.isProtected = true := by
      cases hlookup : (s.environment 0).lookup name with
      | none => simp [hlookup] at hglobal
      | some v => simpa [hlookup] using hglobal
    have hkept := lookup_procSetenv_of_protected c hboth.2
    rw [← hs'] at hkept
    refine ⟨?_, .inl (hkept ▸ hglobal)⟩
    rw [visible, visible, hkept, if_pos hboth.1, if_pos hboth.1]
  · -- The variable of the process is protected, and no call may cover it with a global one.
    have hkept := lookup_procSetenv_of_protected c hown
    have hkernel : (s'.environment 0).lookup name = (s.environment 0).lookup name := by
      by_contra hne
      obtain ⟨htarget, hname, hopen⟩ := lookup_procSetenv c 0 name hne
      subst hname
      rw [hc htarget.symm pid hown] at hopen
      cases hopen
    rw [← hs'] at hkept
    refine ⟨?_, .inr (hkept ▸ hown)⟩
    rw [visible, visible, hkernel, hkept]

/-- In every run of calls that leave protected variables alone, the value of a variable that was
protected at the start is what it was. -/
theorem getenv_of_reaches (hs : (setenvCalls s₀).Reaches LeavesProtected s) (oname : Str)
    (hmarked : s₀.Marked pid oname.toUpper) (userspace : Bool) :
    s.procGetenv pid oname userspace = s₀.procGetenv pid oname userspace := by
  have hinv : s.visible pid oname.toUpper = s₀.visible pid oname.toUpper ∧
      s.Marked pid oname.toUpper := by
    refine hs.invariant (P := fun s => s.visible pid oname.toUpper =
      s₀.visible pid oname.toUpper ∧ s.Marked pid oname.toUpper) ?_ ?_
    · rintro s rfl
      exact ⟨rfl, hmarked⟩
    · rintro s c s' ⟨hvisible, hmarked⟩ hc hstep
      cases hstep
      obtain ⟨hseen, hmarked'⟩ := visible_procSetenv hmarked hc
      exact ⟨hseen.trans hvisible, hmarked'⟩
  rw [procGetenv_eq, procGetenv_eq, hinv.1]

/-- Process 5 has a read-only variable. -/
def readOnlyPath : Environments where
  environment pid := if pid = 5 then .put "PATH".toList ⟨"A".toList, envReadOnly⟩ .empty else .empty
  currentPid := 5

/-- The variable keeps its value when the process tries to change it and then sets a global
variable of another name. -/
theorem getenv_readOnlyPath : ∃ s,
    (setenvCalls readOnlyPath).Reaches LeavesProtected s ∧ readOnlyPath.Marked 5 "PATH".toList ∧
      s.procGetenv 5 "HOME".toList true = "B".toList ∧
      s.procGetenv 5 "path".toList true = "A".toList := by
  have hfirst : LeavesProtected readOnlyPath ⟨5, "path".toList, "B".toList, 0⟩ :=
    fun htarget => nomatch htarget
  have hrefused : readOnlyPath.procSetenv 5 "path".toList "B".toList 0 true = readOnlyPath := by
    unfold procSetenv
    exact if_pos (by decide)
  have hsecond : LeavesProtected readOnlyPath ⟨5, "home".toList, "B".toList, envGlobal⟩ := by
    intro _ pid hpid
    exfalso
    by_cases h5 : pid = 5
    · subst h5
      revert hpid
      decide
    · simp [readOnlyPath, h5] at hpid
  have hreach : (setenvCalls readOnlyPath).Reaches LeavesProtected
      (readOnlyPath.procSetenv 5 "home".toList "B".toList envGlobal true) :=
    ((System.Reaches.init rfl).step hfirst (congrArg some hrefused)).step hsecond rfl
  refine ⟨_, hreach, .inr (by decide), by decide, ?_⟩
  exact (getenv_of_reaches hreach "path".toList (.inr (by decide)) true).trans (by decide)

/-- A global variable of the same name covers the read-only one. -/
theorem exists_not_protected : ∃ s, (setenvCalls readOnlyPath).Reachable s ∧
    readOnlyPath.Marked 5 "PATH".toList ∧
    readOnlyPath.procGetenv 5 "PATH".toList true = "A".toList ∧
    s.procGetenv 5 "PATH".toList true = "B".toList := by
  refine ⟨readOnlyPath.procSetenv 5 "PATH".toList "B".toList envGlobal true, ?_, .inr (by decide),
    by decide, by decide⟩
  exact .step (a := ⟨5, "PATH".toList, "B".toList, envGlobal⟩) (.init rfl) trivial rfl

end Environments

end Process
