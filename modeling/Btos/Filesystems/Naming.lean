import Btos.Filesystems.Mounts
import Btos.Lib.Simulation

/-!
# The names of mounts

What naming is meant to be: names of mounts are the same whatever their case, a successful
`fs_mount` makes its mount that of the name, and `fs_unmount` removes the mount of the name
(`names`). `fs_mount` takes a name in upper case, `getpathmount` at most 8 characters of one up to
the first colon, and `fs_unmount` takes it as it is.

In every run in which names of mounts have at most 8 characters and no colon, and mounts are removed
under their name in upper case, the calls return what they are meant to, and paths resolve to the
mounts of their names (`resolves_of_traces`). `exists_not_removed` mounts `hd`.
-/

open Ministl Option List

namespace Filesystems

/-- The mounts by their names in upper case, and the drivers. -/
structure Names where
  mounted : OrderedMap Str FsMountpoint
  drivers : OrderedMap Str FsDriver

/-- What the calls are meant to do. -/
def names : System Names Call where
  init t := t = ⟨.empty, .empty⟩
  step t
    | .registerfs driver => some { t with drivers := t.drivers.put driver.name driver }
    | .mount c true =>
        (t.drivers.lookup c.fs).map fun driver =>
          { t with mounted := t.mounted.put c.name.toUpper (c.mountpoint driver) }
    | .mount _ false => some t
    | .unmount name removed =>
        if t.mounted.lookup name.toUpper = removed then
          some { t with mounted := t.mounted.erase name.toUpper }
        else none

/-- The name of a mount as `getpathmount` can find it. -/
structure Plain (name : Str) : Prop where
  length_le : name.length ≤ 8
  notMem : ':' ∉ name

/-- Names of mounts are plain, and a mount is removed under its name in upper case. -/
def Call.PlainNames (s : State) : Call → Prop
  | .registerfs _ => True
  | .mount c success => success = true → Plain c.name
  | .unmount name _ => name.toUpper = name ∨ s.mounts.hasKey name.toUpper = false

instance (name : Str) : Decidable (Plain name) :=
  decidable_of_iff (name.length ≤ 8 ∧ ':' ∉ name)
    ⟨fun h => ⟨h.1, h.2⟩, fun h => ⟨h.length_le, h.notMem⟩⟩

instance (s : State) : (a : Call) → Decidable (a.PlainNames s)
  | .registerfs _ => inferInstanceAs (Decidable True)
  | .mount _ _ => inferInstanceAs (Decidable (_ → _))
  | .unmount _ _ => inferInstanceAs (Decidable (_ ∨ _))

/-- Paths lead to the mounts of their names. -/
structure Resolves (s : State) (t : Names) : Prop where
  /-- A path of a mounted name resolves to its mount. -/
  found : ∀ name m, t.mounted.lookup name.toUpper = some m →
    ∀ rest, ∃ i, s.getpathmount (name ++ ':' :: rest) = some i ∧ s.mount i = m
  /-- Paths of mounted names that resolve to the same mount have the same name. -/
  distinct : ∀ name name', (t.mounted.lookup name.toUpper).isSome →
    (t.mounted.lookup name'.toUpper).isSome → ∀ rest rest',
    s.getpathmount (name ++ ':' :: rest) = s.getpathmount (name' ++ ':' :: rest') →
      name.toUpper = name'.toUpper

/-! ## Paths -/

lemma Plain.toUpper {name : Str} (h : Plain name) : Plain name.toUpper where
  length_le := (Str.length_toUpper name).trans_le h.length_le
  notMem hmem := by
    obtain ⟨c, hc, hcolon⟩ := mem_map.mp hmem
    exact h.notMem (Str.eq_colon_of_toUpper hcolon ▸ hc)

lemma mountname_append {name : Str} (h : Plain name.toUpper) (rest : Str) :
    mountname (name ++ ':' :: rest) = name.toUpper := by
  have hname : ∀ c ∈ name.toUpper, decide (c ≠ ':') = true := fun c hc =>
    decide_eq_true fun hcolon => h.notMem (hcolon ▸ hc)
  have hrest : ∀ n, ((Str.toUpper (':' :: rest)).take n).takeWhile (· ≠ ':') = [] := by
    intro n
    cases n <;> rfl
  rw [mountname, Str.toUpper_append, take_append, take_of_length_le h.length_le,
    takeWhile_append_of_pos hname, hrest, append_nil]

/-! ## The tables and what they stand for -/

/-- The table has the mounts under their names in upper case. -/
structure Named (s : State) (t : Names) : Prop where
  entries_eq : s.mounts.entries = t.mounted.entries
  drivers_eq : s.drivers = t.drivers
  plain : ∀ name m, t.mounted.lookup name = some m →
    Plain name ∧ name.toUpper = name ∧ m.valid = true

namespace Named

variable {s : State} {t : Names} {name : Str}

lemma get?_eq (h : Named s t) (name : Str) : s.mounts.get? name = t.mounted.lookup name := by
  rw [Map.get?_eq_lookup, h.entries_eq]
  rfl

lemma isValid_eq (h : Named s t) (name : Str) :
    s.isValid (s.getmount name) = (t.mounted.lookup name).isSome := by
  rw [← h.get?_eq, Map.get?, isSome_map]
  show s.isValid (s.getmount name) = (s.getmount name).isSome
  cases hi : s.getmount name with
  | none => rfl
  | some i =>
    have hlookup := (h.get?_eq name).symm.trans (State.get?_eq_some_iff.mpr ⟨i, hi, rfl⟩)
    exact (h.plain name _ hlookup).2.2

lemma resolves (h : Named s t) : Resolves s t where
  found name m hm rest := by
    rw [State.getpathmount, mountname_append (h.plain _ _ hm).1]
    exact State.get?_eq_some_iff.mp ((h.get?_eq _).trans hm)
  distinct name name' hname hname' rest rest' heq := by
    obtain ⟨m, hm⟩ := isSome_iff_exists.mp hname
    obtain ⟨m', hm'⟩ := isSome_iff_exists.mp hname'
    rw [State.getpathmount, State.getpathmount, mountname_append (h.plain _ _ hm).1,
      mountname_append (h.plain _ _ hm').1] at heq
    -- The cell that both are found in has one key.
    obtain ⟨i, hi, -⟩ := State.get?_eq_some_iff.mp ((h.get?_eq _).trans hm)
    have hkey := (Map.indexOf?_eq_some hi).2.1
    have hkey' := (Map.indexOf?_eq_some (heq.symm.trans hi)).2.1
    exact hkey.symm.trans hkey'

lemma setMount (h : Named s t) (hname : Plain name) {m : FsMountpoint} (hm : m.valid = true) :
    Named (s.setMount name.toUpper m) { t with mounted := t.mounted.put name.toUpper m } where
  entries_eq := by
    rw [State.setMount, Map.entries_set, h.entries_eq]
    rfl
  drivers_eq := h.drivers_eq
  plain name' m' hlookup := by
    by_cases heq : name' = name.toUpper
    · subst heq
      rw [OrderedMap.lookup_put_self, some.injEq] at hlookup
      exact ⟨hname.toUpper, Str.toUpper_toUpper name, hlookup ▸ hm⟩
    · rw [OrderedMap.lookup_put_of_ne _ _ heq] at hlookup
      exact h.plain name' m' hlookup

lemma erase (h : Named s t) (name : Str) (m : FsMountpoint) :
    Named { s with mounts := (s.mounts.set name m).erase name }
      { t with mounted := t.mounted.erase name } where
  entries_eq := by
    rw [Map.entries_erase, Map.entries_set, OrderedMap.eraseEntry_putEntry, h.entries_eq]
    rfl
  drivers_eq := h.drivers_eq
  plain name' m' hlookup := by
    by_cases heq : name' = name
    · subst heq
      rw [OrderedMap.lookup_erase_self] at hlookup
      cases hlookup
    · rw [OrderedMap.lookup_erase_of_ne _ heq] at hlookup
      exact h.plain name' m' hlookup

end Named

/-! ## Runs -/

/-- While names are plain, the tables do what is meant. -/
lemma calls_simulates :
    System.Simulates (calls Started) (fun s a => a.PlainNames s) names Named ⟨.empty, .empty⟩ where
  init := by
    rintro s ⟨data, rfl⟩
    exact ⟨rfl, rfl, fun name m hm => nomatch hm⟩
  step := by
    intro s t a s' h hplain hstep
    cases a with
    | registerfs driver =>
      cases hstep
      refine ⟨_, rfl, h.entries_eq, ?_, h.plain⟩
      exact congrArg (OrderedMap.put driver.name driver) h.drivers_eq
    | mount c success =>
      obtain ⟨hsuccess, hs'⟩ := ite_none_right_eq_some.mp hstep
      rcases s.fsMount_cases c with ⟨driver, hdriver, hmount⟩ | hmount
      · rw [hmount] at hsuccess hs'
        cases hsuccess
        cases hs'
        refine ⟨_, ?_, h.setMount (hplain rfl) rfl⟩
        show (t.drivers.lookup c.fs).map _ = _
        rw [← h.drivers_eq, hdriver]
        rfl
      · rw [hmount] at hsuccess hs'
        cases hsuccess
        cases hs'
        exact ⟨t, rfl, h⟩
    | unmount name removed =>
      obtain ⟨hremoved, hs'⟩ := ite_none_right_eq_some.mp hstep
      rcases s.fsUnmount_cases name with ⟨i, hi, -, hunmount⟩ | ⟨hinvalid, hunmount⟩
      · rw [hunmount] at hremoved hs'
        cases hremoved
        cases hs'
        -- The names in the table are in upper case, so this one is.
        have hlookup : t.mounted.lookup name = some (s.mount i) :=
          (h.get?_eq name).symm.trans (State.get?_eq_some_iff.mpr ⟨i, hi, rfl⟩)
        have hupper := (h.plain name _ hlookup).2.1
        refine ⟨_, ?_, h.erase name _⟩
        show (if _ then _ else _) = _
        rw [hupper, if_pos hlookup]
      · rw [hunmount] at hremoved hs'
        cases hremoved
        cases hs'
        have hnone : t.mounted.lookup name.toUpper = none := by
          rcases hplain with hupper | habsent
          · rw [hupper, ← not_isSome_iff_eq_none, ← h.isValid_eq, hinvalid]
            exact Bool.false_ne_true
          · rw [← h.get?_eq, ← not_isSome_iff_eq_none, Map.get?, isSome_map]
            exact ne_true_of_eq_false habsent
        refine ⟨t, ?_, h⟩
        show (if _ then _ else _) = _
        rw [if_pos hnone, OrderedMap.erase_eq_self hnone]

/-- In every run in which names are plain, the calls return what they are meant to, and the paths
of mounted names resolve to their mounts. -/
theorem resolves_of_traces {as : List Call} {s : State}
    (hs : (calls Started).Traces (fun s a => a.PlainNames s) as s) :
    ∃ t, names.run ⟨.empty, .empty⟩ as = some t ∧ Resolves s t := by
  obtain ⟨t, hrun, hnamed⟩ := calls_simulates.exists_run hs
  exact ⟨t, hrun, hnamed.resolves⟩

/-- A driver that needs no device. -/
def initfs : FsDriver := ⟨true, "INITFS".toList, false⟩

/-- A call that mounts without a device. -/
def mountInitfs (name : Str) (mountdata : ℕ) : MountCall :=
  ⟨name, none, initfs.name, mountdata, true⟩

/-- Two mounts, one of which is removed. -/
def twoMounts : List Call :=
  [.registerfs initfs, .mount (mountInitfs "hd".toList 1) true,
    .mount (mountInitfs "Fd".toList 2) true,
    .unmount "HD".toList (some ((mountInitfs "hd".toList 1).mountpoint initfs))]

theorem resolves_twoMounts : ∃ s t, (calls Started).Traces (fun s a => a.PlainNames s) twoMounts s ∧
    names.run ⟨.empty, .empty⟩ twoMounts = some t ∧ Resolves s t ∧
    t.mounted.lookup "HD".toList = none ∧
    t.mounted.lookup "FD".toList = some ((mountInitfs "Fd".toList 2).mountpoint initfs) := by
  have hrun : (((calls Started).guarded fun s a => a.PlainNames s).run started
      twoMounts).isSome = true := by decide
  obtain ⟨s, hs⟩ := isSome_iff_exists.mp hrun
  have htrace := System.traces_of_run_guarded (.init started_started) hs
  obtain ⟨t, ht, hresolves⟩ := resolves_of_traces htrace
  have hnames : (names.run ⟨.empty, .empty⟩ twoMounts).any (fun t =>
      t.mounted.lookup "HD".toList = none ∧ t.mounted.lookup "FD".toList =
        some ((mountInitfs "Fd".toList 2).mountpoint initfs)) = true := by decide
  rw [nil_append] at ht
  rw [ht] at hnames
  obtain ⟨hhd, hfd⟩ := of_decide_eq_true hnames
  exact ⟨s, t, htrace, ht, hresolves, hhd, hfd⟩

/-- After `hd` was mounted, a path of that name resolves, but `fs_unmount` of the same name finds
nothing to remove. -/
theorem exists_not_removed : ∃ s, (calls Started).Reachable s ∧
    (s.isValid (s.getpathmount "hd:/".toList) && (s.fsUnmount "hd".toList).1.isNone) = true := by
  have hrun : ((calls Started).run started
      [.registerfs initfs, .mount (mountInitfs "hd".toList 1) true]).any (fun s =>
        s.isValid (s.getpathmount "hd:/".toList) && (s.fsUnmount "hd".toList).1.isNone) = true := by
    decide
  exact System.exists_reachable_of_run started_started hrun

end Filesystems
