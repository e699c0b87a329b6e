import Btos.InfoFs.Generators

/-!
# The values of private variables

A variable with the flag `Private` should be invisible to processes in user space. They can look at
variables by `proc_getenv`, and all at once in the file `INFO:/ENV`.

* `mapPrivate` changes the values of private variables; two states differ in these values only
  when they are the same after all of them were made blank (`SameButPrivate`).
* `procGetenv_mapPrivate`: what `proc_getenv` tells a process does not depend on these values.
* `env_infofs` tests the flag for the variables of the process, but for the global ones it does
  not. So what is printed is independent of the values if and only if no global variable is private
  (`secret_iff`).
-/

open List

namespace Process

namespace EnvVar

variable (f g : Str → Str) (v : EnvVar)

/-- The variable with another value, if it is private. -/
def mapPrivate : EnvVar := if v.isPrivate then { v with value := f v.value } else v

@[simp]
lemma flags_mapPrivate : (v.mapPrivate f).flags = v.flags := by
  unfold mapPrivate
  split <;> rfl

@[simp]
lemma isGlobal_mapPrivate : (v.mapPrivate f).isGlobal = v.isGlobal := by
  rw [isGlobal, flags_mapPrivate, isGlobal]

@[simp]
lemma isPrivate_mapPrivate : (v.mapPrivate f).isPrivate = v.isPrivate := by
  rw [isPrivate, flags_mapPrivate, isPrivate]

variable {v} in
lemma mapPrivate_of_not_isPrivate (h : v.isPrivate = false) : v.mapPrivate f = v := by
  simp [mapPrivate, h]

lemma mapPrivate_mapPrivate : (v.mapPrivate g).mapPrivate f = v.mapPrivate (f ∘ g) := by
  cases h : v.isPrivate with
  | false => simp only [mapPrivate_of_not_isPrivate _ h]
  | true =>
    rw [mapPrivate, isPrivate_mapPrivate, h, if_pos rfl, mapPrivate, mapPrivate, h, if_pos rfl,
      if_pos rfl]
    rfl

lemma valueFor_mapPrivate :
    Environments.valueFor true (v.mapPrivate f) = Environments.valueFor true v := by
  cases h : v.isPrivate with
  | false => rw [mapPrivate_of_not_isPrivate f h]
  | true => simp [Environments.valueFor, h]

end EnvVar

namespace Environments

variable (f g : Str → Str) (s t : Environments)

/-- The environments with other values of the private variables. -/
def mapPrivate : Environments :=
  { s with environment := fun pid => (s.environment pid).mapValues (EnvVar.mapPrivate f) }

/-- The environments differ in the values of private variables only. -/
def SameButPrivate : Prop := s.mapPrivate (fun _ => []) = t.mapPrivate fun _ => []

lemma sameButPrivate_mapPrivate : s.SameButPrivate (s.mapPrivate f) := by
  unfold SameButPrivate mapPrivate
  congr 1
  funext pid
  simp only [OrderedMap.mapValues, map_map, Function.comp_def, EnvVar.mapPrivate_mapPrivate]

lemma lookup_mapPrivate (pid : Pid) (name : Str) :
    ((s.mapPrivate f).environment pid).lookup name =
      ((s.environment pid).lookup name).map (EnvVar.mapPrivate f) :=
  OrderedMap.lookup_mapValues _ _ _

lemma visible_mapPrivate (pid : Pid) (name : Str) :
    (s.mapPrivate f).visible pid name = (s.visible pid name).map (EnvVar.mapPrivate f) := by
  have hglobal : (((s.environment 0).lookup name).map (EnvVar.mapPrivate f)).any
      EnvVar.isGlobal = ((s.environment 0).lookup name).any EnvVar.isGlobal := by
    cases (s.environment 0).lookup name <;> simp
  rw [visible, visible, lookup_mapPrivate, lookup_mapPrivate, hglobal]
  split <;> rfl

lemma procGetenv_mapPrivate (pid : Pid) (name : Str) :
    (s.mapPrivate f).procGetenv pid name true = s.procGetenv pid name true := by
  rw [procGetenv_eq, procGetenv_eq, visible_mapPrivate]
  cases s.visible pid name.toUpper with
  | none => rfl
  | some v => exact v.valueFor_mapPrivate f

variable {s t} in
lemma SameButPrivate.procGetenv_eq (h : s.SameButPrivate t) (pid : Pid) (name : Str) :
    s.procGetenv pid name true = t.procGetenv pid name true := by
  rw [← procGetenv_mapPrivate (fun _ => []) s, h, procGetenv_mapPrivate]

end Environments

end Process

namespace InfoFs.Tables

open Process Printf

variable (st : Tables) (f : Str → Str)

/-- The tables with other values of the private variables. -/
def mapPrivate : Tables := { st with environments := st.environments.mapPrivate f }

/-- No global variable is private. -/
def GlobalsPublic : Prop :=
  ∀ e ∈ (st.environments.environment 0).entries, ¬ (e.2.isGlobal = true ∧ e.2.isPrivate = true)

/-! ## What is printed -/

lemma ownVars_mapPrivate : (st.mapPrivate f).ownVars = st.ownVars := by
  unfold ownVars mapPrivate Environments.mapPrivate OrderedMap.mapValues
  rw [filter_map]
  simp only [Function.comp_def, EnvVar.isPrivate_mapPrivate]
  refine (map_congr_left fun e he => ?_).trans (map_id _)
  have hpublic : e.2.isPrivate = false := by simpa using (mem_filter.mp he).2
  rw [EnvVar.mapPrivate_of_not_isPrivate f hpublic]
  rfl

lemma globalVars_mapPrivate :
    (st.mapPrivate f).globalVars = st.globalVars.map fun e => (e.1, e.2.mapPrivate f) := by
  unfold globalVars mapPrivate Environments.mapPrivate OrderedMap.mapValues
  rw [filter_map]
  simp only [Function.comp_def, EnvVar.isGlobal_mapPrivate]

lemma envInfofs_mapPrivate (hpublic : st.GlobalsPublic) :
    (st.mapPrivate f).envInfofs = st.envInfofs := by
  have hglobal : (st.mapPrivate f).globalVars = st.globalVars := by
    rw [globalVars_mapPrivate]
    refine (map_congr_left fun e he => ?_).trans (map_id _)
    obtain ⟨hmem, hglobal⟩ := mem_filter.mp he
    have hprivate : e.2.isPrivate = false := by
      by_contra hprivate
      exact hpublic e hmem ⟨hglobal, Bool.eq_true_of_not_eq_false hprivate⟩
    rw [EnvVar.mapPrivate_of_not_isPrivate f hprivate]
    rfl
  rw [envInfofs, envInfofs, hglobal, ownVars_mapPrivate]

lemma GlobalsPublic.mapPrivate_iff : (st.mapPrivate f).GlobalsPublic ↔ st.GlobalsPublic := by
  unfold GlobalsPublic mapPrivate Environments.mapPrivate OrderedMap.mapValues
  rw [forall_mem_map]
  simp only [EnvVar.isGlobal_mapPrivate, EnvVar.isPrivate_mapPrivate]

/-- A letter more in every private value makes the text longer if a global variable is private. -/
lemma length_envInfofs_mapPrivate (hprivate : ¬ st.GlobalsPublic) :
    st.envInfofs.text.length < (st.mapPrivate (· ++ ['x'])).envInfofs.text.length := by
  have hlength : ∀ st : Tables, st.envInfofs.text.length = st.textLength .envInfofs :=
    fun st => st.length_block .envInfofs
  rw [hlength, hlength, textLength, textLength, ownVars_mapPrivate, globalVars_mapPrivate,
    map_map]
  have hsum : (st.globalVars.map envLength).sum < (st.globalVars.map
      (envLength ∘ fun e => (e.1, e.2.mapPrivate (· ++ ['x'])))).sum := by
    refine sum_lt_sum _ _ (fun e _ => ?_) ?_
    · cases h : e.2.isPrivate <;> simp [envLength, EnvVar.mapPrivate, h]
    · unfold GlobalsPublic at hprivate
      push Not at hprivate
      obtain ⟨e, hmem, hglobal, hprivate⟩ := hprivate
      refine ⟨e, mem_filter.mpr ⟨hmem, hglobal⟩, ?_⟩
      simp [envLength, EnvVar.mapPrivate, hprivate]
  omega

/-- What a process in user space can find out does not depend on the values of private variables
if and only if no global variable is private. -/
theorem secret_iff :
    (∀ t, st.environments.SameButPrivate t →
      (∀ pid name, st.environments.procGetenv pid name true = t.procGetenv pid name true) ∧
        st.envInfofs.text = ({ st with environments := t }).envInfofs.text) ↔
      st.GlobalsPublic := by
  constructor
  · intro hsecret
    by_contra hprivate
    have heq := (hsecret _ (Environments.sameButPrivate_mapPrivate (· ++ ['x']) _)).2
    exact (st.length_envInfofs_mapPrivate hprivate).ne (congrArg length heq)
  · intro hpublic t hsame
    refine ⟨hsame.procGetenv_eq, ?_⟩
    set st' : Tables := { st with environments := t } with hst'
    -- Both texts are that of the state in which the private values are blank.
    have hblank : st.mapPrivate (fun _ => []) = st'.mapPrivate fun _ => [] := by
      rw [mapPrivate, mapPrivate, hsame]
    have hpublic' : st'.GlobalsPublic := by
      rwa [← GlobalsPublic.mapPrivate_iff _ fun _ => [], ← hblank, GlobalsPublic.mapPrivate_iff]
    rw [← st.envInfofs_mapPrivate (fun _ => []) hpublic, hblank,
      st'.envInfofs_mapPrivate _ hpublic']

/-- The kernel with a global variable that is private. -/
def globalToken (value : Str) : Environments where
  environment pid :=
    if pid = 0 then .put "TOKEN".toList ⟨value, envGlobal ||| envPrivate⟩ .empty else .empty
  currentPid := 5

/-- The file shows the value of the variable, which `proc_getenv` does not. -/
theorem exists_not_secret :
    (globalToken "1".toList).SameButPrivate (globalToken "2".toList) ∧
      ({ afterSetenv [] with environments := globalToken "1".toList }).envInfofs.text ≠
        ({ afterSetenv [] with environments := globalToken "2".toList }).envInfofs.text := by
  refine ⟨?_, by decide⟩
  unfold Environments.SameButPrivate Environments.mapPrivate globalToken
  congr 1
  funext pid
  dsimp only
  split
  · decide
  · rfl

end InfoFs.Tables
