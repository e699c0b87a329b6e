import Btos.Filesystems.Mounts

/-!
# Open directories

A `dir_handle` has a pointer to the mount that it was opened on, which is a cell of the buffer of
`fs_mounts`. The calls on the handle go to the driver of the mount point that the cell holds by
then.

`Dispatched` says that they go to a given driver. In every run that leaves the cell alone they go to
the driver of the mount on which the directory was opened (`dispatched_of_reaches`): mounts in front
of it are not removed, and the table does not grow. `exists_other_driver` removes a mount in front.
-/

open Ministl Option

namespace Filesystems

/-- `fs_mountpoint *`: a cell of a buffer of `fs_mounts`. -/
structure Cell where
  block : ℕ
  index : ℕ
  deriving DecidableEq, Repr

/-- `dir_handle`. -/
structure DirHandle where
  valid : Bool
  mount : Cell
  dirdata : ℕ
  /-- `fs_mode_flags`. -/
  mode : UInt32
  deriving DecidableEq, Repr

/-- `FS_Read`. -/
def fsRead : UInt32 := 1

/-- Whom a call on a handle reaches. -/
inductive Called where
  /-- It returns without asking a driver. -/
  | nobody
  /-- It calls a function of the driver with `dirdata`. -/
  | driver (driver : FsDriver) (dirdata : ℕ)
  /-- It takes the function from a buffer that was freed. -/
  | freed
  deriving DecidableEq, Repr

namespace State

variable (s : State)

/-- The call of a function of `dir.mount->driver`. -/
def callDriver (dir : DirHandle) : Called :=
  if dir.mount.block = s.block then .driver (s.mount dir.mount.index).driver dir.dirdata
  else .freed

/-- `fs_open_dir`, `none` for a handle that is not valid; `dirdata` is what the driver returns. -/
def fsOpenDir (path : Str) (mode : UInt32) (dirdata : ℕ) : Option DirHandle :=
  match getfspath path, s.getpathmount path with
  | some _, some i =>
      if !(s.mount i).valid then none
      else if dirdata = 0 then none
      else some ⟨true, ⟨s.block, i⟩, dirdata, mode⟩
  | _, _ => none

/-- `fs_read_dir`. -/
def fsReadDir (dir : DirHandle) : Called :=
  if !dir.valid || dir.mode &&& fsRead = 0 then .nobody else s.callDriver dir

/-- `fs_seek_dir`. -/
def fsSeekDir (dir : DirHandle) : Called := s.callDriver dir

/-- `fs_close_dir`, with the handle that it leaves. -/
def fsCloseDir (dir : DirHandle) : Called × DirHandle :=
  if !dir.valid then (.nobody, dir) else (s.callDriver dir, { dir with valid := false })

/-- The calls on a handle go to the driver, `fs_read_dir` if the directory was opened for
reading. -/
structure Dispatched (dir : DirHandle) (driver : FsDriver) : Prop where
  read : s.fsReadDir dir =
    if dir.mode &&& fsRead = 0 then .nobody else .driver driver dir.dirdata
  seek : s.fsSeekDir dir = .driver driver dir.dirdata
  close : s.fsCloseDir dir = (.driver driver dir.dirdata, { dir with valid := false })

end State

/-- The call is about other mounts than that at the position, none of those in front of it is
removed, and the table does not get another buffer. -/
def Call.LeavesCell (i : ℕ) (s : State) : Call → Prop
  | .registerfs _ => True
  | .mount c success =>
      success = true → s.getmount c.name.toUpper ≠ some i ∧ s.grows c.name.toUpper = false
  | .unmount name _ => ∀ j ∈ s.getmount name, i < j

instance (i : ℕ) (s : State) : (a : Call) → Decidable (a.LeavesCell i s)
  | .registerfs _ => inferInstanceAs (Decidable True)
  | .mount _ _ => inferInstanceAs (Decidable (_ → _))
  | .unmount _ _ => inferInstanceAs (Decidable (∀ j ∈ _, _))

namespace State

variable {s s' s₀ : State} {dir : DirHandle} {i : ℕ} {m : FsMountpoint}

lemma fsOpenDir_eq_some {path : Str} {mode : UInt32} {dirdata : ℕ}
    (h : s.fsOpenDir path mode dirdata = some dir) :
    ∃ i, s.getpathmount path = some i ∧ dir = ⟨true, ⟨s.block, i⟩, dirdata, mode⟩ := by
  unfold fsOpenDir at h
  split at h
  · rename_i i _ hi
    split at h
    · cases h
    · split at h
      · cases h
      · exact ⟨i, hi, (some.inj h).symm⟩
  · cases h

/-- A cell of the buffer, with the mount point that it holds. -/
structure Holds (s : State) (c : Cell) (m : FsMountpoint) : Prop where
  block_eq : s.block = c.block
  index_lt : c.index < s.mounts.size
  mount_eq : s.mount c.index = m

namespace Holds

variable {c : Cell}

lemma dispatched (h : Holds s dir.mount m) (hvalid : dir.valid = true) :
    s.Dispatched dir m.driver := by
  have hcall : s.callDriver dir = .driver m.driver dir.dirdata := by
    rw [callDriver, if_pos h.block_eq.symm, h.mount_eq]
  refine ⟨?_, hcall, ?_⟩
  · rw [fsReadDir, hcall, hvalid]
    simp
  · rw [fsCloseDir, hcall, hvalid]
    rfl

lemma setMount (h : Holds s c m) {name : Str} (hname : s.getmount name ≠ some c.index)
    (hgrows : s.grows name = false) (m' : FsMountpoint) : Holds (s.setMount name m') c m where
  block_eq := by
    rw [State.setMount, hgrows]
    exact h.block_eq
  index_lt := h.index_lt.trans_le (Map.size_le_size_set _ _ _)
  mount_eq := (congrArg Prod.snd (Map.data_set_of_ne h.index_lt hname)).trans h.mount_eq

/-- A mount behind the cell is removed. -/
lemma fsUnmount (h : Holds s c m) {name : Str} (hname : ∀ j ∈ s.getmount name, c.index < j) :
    Holds (s.fsUnmount name).2 c m := by
  rcases s.fsUnmount_cases name with ⟨j, hj, -, hunmount⟩ | ⟨-, hunmount⟩
  · have hlt : c.index < j := hname j hj
    have hj' := Map.indexOf?_set (v := { s.mount j with valid := false }) hj
    have hjlt := (Map.indexOf?_eq_some hj).1
    rw [hunmount]
    refine ⟨h.block_eq, ?_, ?_⟩
    · show c.index < (Map.erase _ name).size
      rw [Map.size_erase hj']
      have hle := Map.size_le_size_set s.mounts name { s.mount j with valid := false }
      omega
    · show (Map.data (Map.erase _ name) c.index).2 = m
      rw [Map.data_erase_of_lt hj' hlt, Map.data_set_of_ne h.index_lt]
      · exact h.mount_eq
      · rintro heq
        rw [show s.mounts.indexOf? name = some j from hj, some.injEq] at heq
        omega
  · rw [hunmount]
    exact h

lemma step (h : Holds s c m) {started : State → Prop} {a : Call} (ha : a.LeavesCell c.index s)
    (hstep : (calls started).step s a = some s') : Holds s' c m := by
  cases a with
  | registerfs driver =>
    cases hstep
    exact ⟨h.block_eq, h.index_lt, h.mount_eq⟩
  | mount call success =>
    obtain ⟨hsuccess, hs'⟩ := ite_none_right_eq_some.mp hstep
    rcases s.fsMount_cases call with ⟨driver, -, hmount⟩ | hmount
    · rw [hmount] at hsuccess hs'
      cases hs'
      exact h.setMount (ha hsuccess.symm).1 (ha hsuccess.symm).2 _
    · rw [hmount] at hs'
      cases hs'
      exact h
  | unmount name removed =>
    obtain ⟨-, hs'⟩ := ite_none_right_eq_some.mp hstep
    cases hs'
    exact h.fsUnmount ha

end Holds

/-- In every run after a directory was opened that leaves the cell of its mount alone, the calls on
the handle go to the driver of the mount on which it was opened. -/
theorem dispatched_of_reaches {path : Str} {mode : UInt32} {dirdata : ℕ}
    (hopen : s₀.fsOpenDir path mode dirdata = some dir)
    (hs : (calls (· = s₀)).Reaches (fun s a => a.LeavesCell dir.mount.index s) s) :
    ∃ i, s₀.getpathmount path = some i ∧ s.Dispatched dir (s₀.mount i).driver := by
  obtain ⟨i, hi, rfl⟩ := fsOpenDir_eq_some hopen
  have hlt : i < s₀.mounts.size := (Map.indexOf?_eq_some hi).1
  have hholds : Holds s ⟨s₀.block, i⟩ (s₀.mount i) := by
    refine hs.invariant (P := fun s => Holds s ⟨s₀.block, i⟩ (s₀.mount i)) ?_ ?_
    · rintro s rfl
      exact ⟨rfl, hlt, rfl⟩
    · intro s a s' h ha hstep
      exact h.step ha hstep
  exact ⟨i, hi, hholds.dispatched rfl⟩

end State

/-! ## Three mounts, each with a driver of its own -/

/-- A driver without a device. -/
def plainFs (name : String) : FsDriver := ⟨true, name.toList, false⟩

/-- The drive is mounted with the driver. -/
def mountPlain (name fs : String) : Call :=
  .mount ⟨name.toList, none, fs.toList, 1, true⟩ true

/-- `A:`, `B:` and `C:` are mounted, in this order. -/
def threeDrives : List Call :=
  [.registerfs (plainFs "AFS"), .registerfs (plainFs "BFS"), .registerfs (plainFs "CFS"),
    mountPlain "A" "AFS", mountPlain "B" "BFS", mountPlain "C" "CFS"]

/-- The tables after that. -/
def drives : State := ((calls Started).run started threeDrives).getD started

lemma run_threeDrives : (calls Started).run started threeDrives = some drives :=
  (some_get (by decide)).symm.trans (congrArg some (get_eq_getD _))

/-- Another mount and the removal of `C:` leave a directory on `B:` alone. -/
theorem State.dispatched_b : ∃ s,
    drives.fsOpenDir "B:/".toList fsRead 7 = some ⟨true, ⟨0, 1⟩, 7, fsRead⟩ ∧
    (calls (· = drives)).Reaches (fun s a => a.LeavesCell 1 s) s ∧
    s.getmount "C".toList = none ∧ s.Dispatched ⟨true, ⟨0, 1⟩, 7, fsRead⟩ (plainFs "BFS") := by
  have hopen : drives.fsOpenDir "B:/".toList fsRead 7 = some ⟨true, ⟨0, 1⟩, 7, fsRead⟩ := by decide
  have hrun : (((calls (· = drives)).guarded fun s a => a.LeavesCell 1 s).run drives
      [mountPlain "D" "AFS", .unmount "C".toList (some (drives.mount 2))]).any
      (fun s => s.getmount "C".toList = none) = true := by decide
  obtain ⟨s, hs, hremoved⟩ := (any_eq_true _ _).mp hrun
  have hreach := System.reaches_of_run_guarded (.init rfl) hs
  obtain ⟨i, hi, hdispatched⟩ := dispatched_of_reaches hopen hreach
  have hindex : i = 1 := some.inj (hi.symm.trans (by decide))
  subst hindex
  exact ⟨s, hopen, hreach, of_decide_eq_true hremoved, hdispatched⟩

/-- A directory is opened on `B:`, and `A:` is removed: the calls on the directory go to the driver
of `C:`, although `B:` is still mounted with its own. -/
theorem State.exists_other_driver : ∃ dir s, (calls Started).Reachable drives ∧
    drives.fsOpenDir "B:/".toList fsRead 7 = some dir ∧
    (calls (· = drives)).step drives (.unmount "A".toList (some (drives.mount 0))) = some s ∧
    s.fsReadDir dir = .driver (plainFs "CFS") 7 ∧
    s.getpathmount "B:/".toList = some 0 ∧ (s.mount 0).driver = plainFs "BFS" := by
  refine ⟨⟨true, ⟨0, 1⟩, 7, fsRead⟩, (drives.fsUnmount "A".toList).2, ?_, by decide, ?_, by decide,
    by decide, by decide⟩
  · exact System.reachable_of_run (.init started_started) run_threeDrives
  · have hremoved : (drives.fsUnmount "A".toList).1 = some (drives.mount 0) := by decide
    exact ite_none_right_eq_some.mpr ⟨hremoved, rfl⟩

end Filesystems
