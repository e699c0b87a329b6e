import Btos.Lib.TransitionSystem
import Btos.Util.Map
import Btos.Util.Strings

/-!
# Mount points

The tables of `filesystems.cpp` and what is done to them: `fs_mounts` maps the names of mounts to
mount points, `fs_drivers` the names of file systems to drivers. `getmount` and `getpathmount`
return references, which are positions in the buffer of `fs_mounts` here; `block` counts the
buffers that the table has had.

What the functions of a driver answer is part of a call, as is what the call returns: `calls` has
a step for every answer, and for the result that the code comes to.
-/

open Ministl

namespace Filesystems

/-- `fs_driver`, without its functions. -/
structure FsDriver where
  valid : Bool
  name : Str
  needsDevice : Bool
  deriving DecidableEq, Repr

/-- `fs_mountpoint`. -/
structure FsMountpoint where
  valid : Bool
  /-- `char name[9]`. -/
  name : Str
  /-- `char device[255]`. -/
  device : Str
  driver : FsDriver
  mountdata : ℕ
  deriving DecidableEq, Repr

/-- The tables. -/
structure State where
  /-- `fs_mounts`. -/
  mounts : Map Str FsMountpoint
  /-- The buffer that `fs_mounts` is in. -/
  block : ℕ
  /-- `fs_drivers`. -/
  drivers : OrderedMap Str FsDriver

/-- The arguments of `fs_mount`, and what the drivers answer to it. -/
structure MountCall where
  name : Str
  /-- `none` for `NULL`. -/
  device : Option Str
  fs : Str
  /-- What `mount` of the driver returns. -/
  mountdata : ℕ
  /-- What `stat` of the device's driver returns. -/
  statValid : Bool
  deriving DecidableEq, Repr

/-- The mount point that `fs_mount` fills in; `strncpy` of the kernel always ends a string. -/
def MountCall.mountpoint (c : MountCall) (driver : FsDriver) : FsMountpoint where
  valid := true
  name := c.name.toUpper.take 8
  device := (c.device.getD "NULL".toList).take 254
  driver := driver
  mountdata := c.mountdata

/-- `getfspath`: the first character is not looked at. -/
def getfspath : Str → Option Str
  | [] => none
  | _ :: path => (path.dropWhile (· ≠ ':')).tail?

/-- The part of a path that `getpathmount` looks up. -/
def mountname (path : Str) : Str := (path.toUpper.take 8).takeWhile (· ≠ ':')

namespace State

variable (s : State)

/-- The mount point at a position. -/
def mount (i : ℕ) : FsMountpoint := (s.mounts.data i).2

/-- `getmount`, `none` for `invalid_mountpoint`. -/
def getmount (name : Str) : Option ℕ := s.mounts.indexOf? name

/-- `getpathmount`. -/
def getpathmount (path : Str) : Option ℕ := s.getmount (mountname path)

/-- A position that was returned holds a valid mount point. -/
def isValid (i : Option ℕ) : Bool := i.any fun i => (s.mount i).valid

/-- `fs_stat(path).valid`; the last argument is what the driver answers. -/
def fsStat (path : Str) (statValid : Bool) : Bool :=
  (getfspath path).isSome && s.isValid (s.getpathmount path) && statValid

/-- `driver.needs_device` is met. -/
def hasDevice (c : MountCall) : Bool :=
  match c.device with
  | none | some [] => false
  | some device => s.fsStat device c.statValid

/-- `fs_registerfs`. -/
def fsRegisterfs (driver : FsDriver) : State :=
  { s with drivers := s.drivers.put driver.name driver }

/-- `(*fs_mounts)[name]` makes an entry that the buffer has no room for. -/
def grows (name : Str) : Bool :=
  (s.mounts.indexOf? name).isNone && decide (s.mounts.size + 1 ≥ s.mounts.capacity)

/-- `(*fs_mounts)[name]`, filled in. -/
def setMount (name : Str) (m : FsMountpoint) : State :=
  { s with
    mounts := s.mounts.set name m
    block := if s.grows name then s.block + 1 else s.block }

/-- `fs_mount`. -/
def fsMount (c : MountCall) : Bool × State :=
  match s.drivers.lookup c.fs with
  | none => (false, s)
  | some driver =>
      if !driver.valid then (false, s)
      else if driver.needsDevice && !s.hasDevice c then (false, s)
      else (true, s.setMount c.name.toUpper (c.mountpoint driver))

/-- `fs_unmount`: the mount point whose driver is told, `none` where it returns `false`. The name is
taken as it is. -/
def fsUnmount (name : Str) : Option FsMountpoint × State :=
  match s.getmount name with
  | none => (none, s)
  | some i =>
      let m := s.mount i
      if m.valid then
        (some m, { s with mounts := (s.mounts.set name { m with valid := false }).erase name })
      else (none, s)

end State

/-- A call and what it returns. -/
inductive Call where
  | registerfs (driver : FsDriver)
  | mount (c : MountCall) (success : Bool)
  | unmount (name : Str) (removed : Option FsMountpoint)
  deriving DecidableEq, Repr

/-- Any calls, one after the other. -/
def calls (started : State → Prop) : System State Call where
  init := started
  step s
    | .registerfs driver => some (s.fsRegisterfs driver)
    | .mount c success => if (s.fsMount c).1 = success then some (s.fsMount c).2 else none
    | .unmount name removed =>
        if (s.fsUnmount name).1 = removed then some (s.fsUnmount name).2 else none

/-- The empty tables of `fs_init`. -/
def Started (s : State) : Prop := ∃ data, s = ⟨.empty data, 0, .empty⟩

/-- Those of them that are in memory of zeros. -/
def started : State := ⟨.empty fun _ => ([], ⟨false, [], [], ⟨false, [], false⟩, 0⟩), 0, .empty⟩

lemma started_started : Started started := ⟨_, rfl⟩

namespace State

variable {s s' : State} {c : MountCall} {name : Str}

lemma fsMount_cases (s : State) (c : MountCall) :
    (∃ driver, s.drivers.lookup c.fs = some driver ∧
      s.fsMount c = (true, s.setMount c.name.toUpper (c.mountpoint driver))) ∨
    s.fsMount c = (false, s) := by
  unfold fsMount
  split
  · exact .inr rfl
  · rename_i driver hdriver
    split
    · exact .inr rfl
    · split
      · exact .inr rfl
      · exact .inl ⟨driver, hdriver, rfl⟩

lemma fsUnmount_cases (s : State) (name : Str) :
    (∃ i, s.getmount name = some i ∧ (s.mount i).valid = true ∧
      s.fsUnmount name = (some (s.mount i),
        { s with
          mounts := (s.mounts.set name { s.mount i with valid := false }).erase name })) ∨
    s.isValid (s.getmount name) = false ∧ s.fsUnmount name = (none, s) := by
  unfold fsUnmount
  cases hi : s.getmount name with
  | none => exact .inr ⟨rfl, rfl⟩
  | some i =>
    cases hvalid : (s.mount i).valid with
    | true => exact .inl ⟨i, rfl, hvalid, by simp [hvalid]⟩
    | false => exact .inr ⟨hvalid, by simp [hvalid]⟩

lemma get?_eq_some_iff {m : FsMountpoint} :
    s.mounts.get? name = some m ↔ ∃ i, s.getmount name = some i ∧ s.mount i = m :=
  Option.map_eq_some_iff

end State

end Filesystems
