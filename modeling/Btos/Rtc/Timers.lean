import Btos.Lib.TransitionSystem
import Mathlib.Tactic

/-!
# Timers

`timer.cpp`: a process creates a timer and gets a handle for it. A reset starts the timer, unless it
runs already: an event is put on a list, and a thread of the kernel sends a message when the time of
the next event has come. Closing a timer cancels its events.

Objects on the heap are known by their addresses, which are not used again. `reset_timer` takes the
value of any open handle for a timer, so the handles of other kinds are here as well. `log` is what
has happened so far, the latest first: which resets have started a timer, which timers were closed,
and which messages were sent. `Orderly` says of it what timers are for.

Timers are orderly in every run in which only timers are started, the times of events are below
`UINT64_MAX` and the ids of timers do not wrap (`orderly_of_reaches`). `exists_not_orderly` starts
something else.
-/

open Function List Option Bool

namespace Rtc.Timers

/-- `pid_t`. -/
abbrev Pid := ℕ

/-- `timer_event`. -/
structure TimerEvent where
  /-- Its address. -/
  key : ℕ
  pid : Pid
  time : UInt64
  timerId : UInt64
  cancel : Bool
  deriving DecidableEq, Repr

/-- `timer_info`. -/
structure TimerInfo where
  timerId : UInt64
  handleId : UInt32
  pid : Pid
  duration : UInt64
  active : Bool
  deriving DecidableEq, Repr

/-- The kinds of handles. -/
inductive Kind where
  | timer
  | other
  deriving DecidableEq, Repr

/-- `bt_handle_info` of an open handle. -/
structure Handle where
  value : ℕ
  kind : Kind
  deriving DecidableEq, Repr

/-- A reset that has started a timer. -/
structure Reset where
  event : ℕ
  timer : UInt64
  pid : Pid
  handle : UInt32
  now : UInt64
  duration : UInt64
  deriving DecidableEq, Repr

/-- A message of the timer thread. -/
structure Message where
  event : ℕ
  timer : UInt64
  recipient : Pid
  handle : UInt32
  now : UInt64
  deriving DecidableEq, Repr

/-- Something that has happened. -/
inductive Entry where
  | started (r : Reset)
  | closed (timer : UInt64)
  | sent (m : Message)
  deriving DecidableEq, Repr

/-- The timers of the kernel. -/
structure State where
  timerIdCounter : UInt64
  /-- The objects that handles are for, by their addresses, read as `timer_info`. -/
  infos : ℕ → Option TimerInfo
  /-- `timers`. -/
  timers : UInt64 → Option ℕ
  /-- The open handles of each process. -/
  handles : Pid → UInt32 → Option Handle
  events : List TimerEvent
  nextEvent : Option ℕ
  /-- The timer thread has seen that the time of the next event has come. -/
  woken : Bool
  /-- The last time that was read. -/
  clock : UInt64
  /-- The next address. -/
  fresh : ℕ
  log : List Entry

/-- `UINT64_MAX`. -/
def uint64Max : UInt64 := 0xFFFFFFFFFFFFFFFF

/-- `update_next_event`. -/
def updateNextEvent (events : List TimerEvent) (nextEvent : Option ℕ) : Option ℕ :=
  (events.foldl (fun acc e => if e.time < acc.1 then (e.time, some e.key) else acc)
    (uint64Max, nextEvent)).2

namespace State

variable (s : State)

/-- `add_user_handle`, which returns the number `h`, for a new object. -/
def addUserHandle (kind : Kind) (pid : Pid) (h : UInt32) (info : TimerInfo) : State :=
  { s with
    infos := Function.update s.infos s.fresh (some info)
    handles := Function.update s.handles pid
      (Function.update (s.handles pid) h (some ⟨s.fresh, kind⟩))
    fresh := s.fresh + 1 }

/-- `create_timer`; `h` is the number of the handle. -/
def createTimer (pid : Pid) (duration h : UInt32) : State :=
  let id := s.timerIdCounter + 1
  { s.addUserHandle .timer pid h ⟨id, h, pid, duration.toUInt64, false⟩ with
    timerIdCounter := id
    timers := Function.update s.timers id (some s.fresh) }

/-- `reset_timer`, at the time `now`. A handle that is not open is ignored, its kind is not
looked at. -/
def resetTimer (pid : Pid) (h : UInt32) (now : UInt64) : Option State :=
  match s.handles pid h with
  | none => some s
  | some handle => (s.infos handle.value).map fun info =>
      -- a timer that runs is left as it is
      if info.active then s
      else
        let e : TimerEvent := ⟨s.fresh, pid, now + info.duration, info.timerId, false⟩
        let events := s.events ++ [e]
        { s with
          infos := Function.update s.infos handle.value (some { info with active := true })
          events := events
          nextEvent := updateNextEvent events s.nextEvent
          clock := now
          fresh := s.fresh + 1
          log := .started ⟨s.fresh, info.timerId, pid, h, now, info.duration⟩ :: s.log }

/-- The events of a timer are cancelled. -/
def cancelEvents (id : UInt64) (events : List TimerEvent) : List TimerEvent :=
  events.map fun e => if e.timerId = id then { e with cancel := true } else e

/-- `close_timer`, for the timer at `t`. -/
def closeTimer (t : ℕ) : Option State :=
  (s.infos t).map fun info =>
    { s with
      infos := Function.update s.infos t none
      timers := Function.update s.timers info.timerId none
      events := cancelEvents info.timerId s.events
      log := .closed info.timerId :: s.log }

/-- A handle is closed: by its process, or when the process ends. -/
def closeHandle (pid : Pid) (h : UInt32) : Option State :=
  match s.handles pid h with
  | none => some s
  | some handle =>
      let closed := match handle.kind with
        | .timer => s.closeTimer handle.value
        | .other => some s
      closed.map fun s =>
        { s with handles := Function.update s.handles pid (Function.update (s.handles pid) h none) }

/-- The event that `next_event` points to; `none` if it was deleted. -/
def next? : Option TimerEvent := s.events.find? fun e => s.nextEvent == some e.key

/-- The first half of a round of `timer_thread`: it waits until the time of the next event. -/
def wake (now : UInt64) : Option State :=
  s.next?.bind fun e =>
    if !s.woken && decide (now ≥ e.time) then some { s with woken := true, clock := now } else none

/-- The second half of a round of `timer_thread`. -/
def fire : Option State :=
  if s.woken then
    s.next?.bind fun e =>
      let sent : Option State :=
        -- a cancelled event is only deleted
        if e.cancel then some s
        else (s.timers e.timerId).bind fun t => (s.infos t).map fun info =>
          { s with
            infos := Function.update s.infos t (some { info with active := false })
            log := .sent ⟨e.key, e.timerId, e.pid, info.handleId, s.clock⟩ :: s.log }
      sent.map fun s =>
        let events := s.events.erase e
        { s with
          events := events
          nextEvent := updateNextEvent events s.nextEvent
          woken := false }
  else none

end State

/-- What happens to timers. -/
inductive Call where
  | create (pid : Pid) (duration h : UInt32)
  /-- A handle of another kind is opened; `info` is how its object reads as a timer. -/
  | openOther (pid : Pid) (h : UInt32) (info : TimerInfo)
  | reset (pid : Pid) (h : UInt32) (now : UInt64)
  | close (pid : Pid) (h : UInt32)
  | wake (now : UInt64)
  | fire
  deriving DecidableEq, Repr

/-- After `init_timer`, before the first timer. -/
structure Initial (s : State) : Prop where
  timerIdCounter_eq : s.timerIdCounter = 0
  infos_eq : s.infos = fun _ => none
  timers_eq : s.timers = fun _ => none
  handles_eq : s.handles = fun _ _ => none
  events_eq : s.events = []
  nextEvent_eq : s.nextEvent = none
  woken_eq : s.woken = false
  log_eq : s.log = []

/-- The timers, under a clock that does not decrease. -/
def timers : System State Call where
  init := Initial
  step s
    | .create pid duration h =>
        if (s.handles pid h).isSome then none else some (s.createTimer pid duration h)
    | .openOther pid h info =>
        if (s.handles pid h).isSome then none else some (s.addUserHandle .other pid h info)
    | .reset pid h now => if now < s.clock then none else s.resetTimer pid h now
    | .close pid h => s.closeHandle pid h
    | .wake now => if now < s.clock then none else s.wake now
    | .fire => s.fire

/-! ## What timers are for -/

/-- The message is what was asked for: it goes to the process that has reset the timer, with the
handle, and not before the time has come. -/
structure Answers (m : Message) (r : Reset) : Prop where
  event_eq : m.event = r.event
  timer_eq : m.timer = r.timer
  recipient_eq : m.recipient = r.pid
  handle_eq : m.handle = r.handle
  due : r.now.toNat + r.duration.toNat ≤ m.now.toNat

/-- Each message answers a reset that was not answered before, and its timer was not closed. -/
def LogOrderly : List Entry → Prop
  | [] => True
  | .started r :: log => (∀ r', .started r' ∈ log → r'.event ≠ r.event) ∧ LogOrderly log
  | .closed _ :: log => LogOrderly log
  | .sent m :: log =>
      (∃ r, .started r ∈ log ∧ Answers m r) ∧ (∀ m', .sent m' ∈ log → m'.event ≠ m.event) ∧
        .closed m.timer ∉ log ∧ LogOrderly log

/-- The event that is next is listed, and none is earlier. -/
def IsNext (events : List TimerEvent) (nextEvent : Option ℕ) : Prop :=
  ∃ e ∈ events, nextEvent = some e.key ∧ ∀ e' ∈ events, e.time ≤ e'.time

/-- The timers do what they are for. -/
structure Orderly (s : State) : Prop where
  log : LogOrderly s.log
  /-- A reset of a timer that runs adds nothing. -/
  reset_active : ∀ pid h now handle info, s.handles pid h = some handle →
    s.infos handle.value = some info → info.active = true → s.resetTimer pid h now = some s
  next : s.events ≠ [] → IsNext s.events s.nextEvent

/-! ## The next event -/

/-- The events up to some place have been compared: none of them is earlier than the best one, which
is a listed event unless no event comes before the time that the search has started with. -/
lemma foldl_next (events : List TimerEvent) (acc : UInt64 × Option ℕ) :
    let best := events.foldl (fun acc e => if e.time < acc.1 then (e.time, some e.key) else acc) acc
    (best = acc ∧ ∀ e ∈ events, acc.1 ≤ e.time) ∨
      ∃ e ∈ events, best = (e.time, some e.key) ∧ e.time < acc.1 ∧
        ∀ e' ∈ events, e.time ≤ e'.time := by
  -- over the list, for every best event so far
  induction events generalizing acc with
  | nil => exact .inl ⟨rfl, by simp⟩
  | cons e events ih =>
    simp only [foldl_cons, forall_mem_cons, exists_mem_cons_iff]
    by_cases hlt : e.time < acc.1
    · rw [if_pos hlt]
      rcases ih (e.time, some e.key) with ⟨heq, hle⟩ | ⟨e', he', heq, hlt', hle⟩
      · exact .inr (.inl ⟨heq, hlt, UInt64.le_refl _, hle⟩)
      · exact .inr (.inr ⟨e', he', heq, UInt64.lt_trans hlt' hlt, UInt64.le_of_lt hlt', hle⟩)
    · rw [if_neg hlt]
      -- of two events at the same time the first one is kept
      rcases ih acc with ⟨heq, hle⟩ | ⟨e', he', heq, hlt', hle⟩
      · exact .inl ⟨heq, UInt64.not_lt.mp hlt, hle⟩
      · have hle' : e'.time ≤ e.time :=
          UInt64.le_trans (UInt64.le_of_lt hlt') (UInt64.not_lt.mp hlt)
        exact .inr (.inr ⟨e', he', heq, hlt', hle', hle⟩)

lemma isNext_updateNextEvent {events : List TimerEvent} (hne : events ≠ [])
    (htime : ∀ e ∈ events, e.time < uint64Max) (nextEvent : Option ℕ) :
    IsNext events (updateNextEvent events nextEvent) := by
  rcases foldl_next events (uint64Max, nextEvent) with ⟨-, hle⟩ | ⟨e, he, heq, -, hle⟩
  -- no event is before `UINT64_MAX`, but there is one and it is
  · obtain ⟨e, he⟩ := exists_mem_of_ne_nil events hne
    exact absurd (htime e he) (UInt64.not_lt.mpr (hle e he))
  · exact ⟨e, he, congrArg Prod.snd heq, hle⟩

/-! ## The timers by their ids -/

namespace State

variable {s : State}

/-- The timer with an id. -/
def live (s : State) (id : UInt64) : Option TimerInfo := (s.timers id).bind s.infos

/-- Handles and ids lead to the same objects. -/
structure Tables (s : State) : Prop where
  handle : ∀ pid h t, s.handles pid h = some ⟨t, .timer⟩ →
    ∃ info, s.infos t = some info ∧ info.pid = pid ∧ info.handleId = h ∧
      s.timers info.timerId = some t
  timer : ∀ id t, s.timers id = some t → ∃ info, s.infos t = some info ∧ info.timerId = id
  fresh : ∀ t, s.fresh ≤ t → s.infos t = none
  counter : ∀ id, s.timerIdCounter < id → s.timers id = none

lemma Tables.lt_fresh (hs : s.Tables) {t : ℕ} {info : TimerInfo} (ht : s.infos t = some info) :
    t < s.fresh := by
  by_contra hge
  rw [hs.fresh t (not_lt.mp hge)] at ht
  cases ht

lemma live_of_timers {id : UInt64} {t : ℕ} (ht : s.timers id = some t) : s.live id = s.infos t := by
  rw [live, ht, bind_some]

lemma Tables.live_eq_none (hs : s.Tables) {id : UInt64} (hid : s.timerIdCounter < id) :
    s.live id = none := by
  rw [live, hs.counter id hid, bind_none]

lemma Tables.timer_inj (hs : s.Tables) {id id' : UInt64} {t : ℕ} (ht : s.timers id = some t)
    (ht' : s.timers id' = some t) : id = id' := by
  obtain ⟨info, hinfo, rfl⟩ := hs.timer id t ht
  obtain ⟨info', hinfo', rfl⟩ := hs.timer id' t ht'
  rw [hinfo, some.injEq] at hinfo'
  rw [hinfo']

section

variable (hs : s.Tables) (kind : Kind) (pid : Pid) (h : UInt32) (info : TimerInfo)

include hs

lemma Tables.live_addUserHandle : (s.addUserHandle kind pid h info).live = s.live := by
  ext1 id
  rw [live, live]
  show (s.timers id).bind _ = _
  cases ht : s.timers id with
  | none => rfl
  | some t =>
    obtain ⟨old, hold, -⟩ := hs.timer id t ht
    exact update_of_ne (hs.lt_fresh hold).ne _ _

lemma Tables.infos_addUserHandle {t : ℕ} {old : TimerInfo} (ht : s.infos t = some old) :
    (s.addUserHandle kind pid h info).infos t = some old :=
  (update_of_ne (hs.lt_fresh ht).ne _ _).trans ht

lemma Tables.fresh_addUserHandle {t : ℕ} (ht : s.fresh + 1 ≤ t) :
    (s.addUserHandle kind pid h info).infos t = none :=
  (update_of_ne (by omega) _ _).trans (hs.fresh t (by omega))

end

lemma handles_of_open {pid pid' : Pid} {h h' : UInt32} {new handle : Handle}
    (hh : update s.handles pid (update (s.handles pid) h (some new)) pid' h' =
      some handle) : (pid' = pid ∧ h' = h ∧ handle = new) ∨ s.handles pid' h' = some handle := by
  simp only [update_apply] at hh
  grind

lemma Tables.addUserHandle_other (hs : s.Tables) (pid : Pid) (h : UInt32) (info : TimerInfo) :
    (s.addUserHandle .other pid h info).Tables where
  handle pid' h' t hh := by
    rcases handles_of_open hh with ⟨-, -, heq⟩ | hh'
    · cases heq
    · obtain ⟨old, ht, hrest⟩ := hs.handle pid' h' t hh'
      exact ⟨old, hs.infos_addUserHandle _ _ _ _ ht, hrest⟩
  timer id t ht := by
    obtain ⟨old, hinfo, hid⟩ := hs.timer id t ht
    exact ⟨old, hs.infos_addUserHandle _ _ _ _ hinfo, hid⟩
  fresh t ht := hs.fresh_addUserHandle _ _ _ _ ht
  counter := hs.counter

section Create

variable (hs : s.Tables) (hcounter : s.timerIdCounter.toNat + 1 < 2 ^ 64)

include hcounter in
lemma lt_timerIdCounter_add : s.timerIdCounter < s.timerIdCounter + 1 := by
  rw [UInt64.lt_iff_toNat_lt, UInt64.toNat_add, UInt64.toNat_one, Nat.mod_eq_of_lt hcounter]
  exact Nat.lt_succ_self _

include hs in
lemma live_createTimer (pid : Pid) (duration h : UInt32) :
    (s.createTimer pid duration h).live =
      update s.live (s.timerIdCounter + 1)
        (some ⟨s.timerIdCounter + 1, h, pid, duration.toUInt64, false⟩) := by
  ext1 id
  by_cases hid : id = s.timerIdCounter + 1
  · rw [hid, update_self, live]
    simp [createTimer, addUserHandle]
  · have hold := congrFun (hs.live_addUserHandle .timer pid h
      ⟨s.timerIdCounter + 1, h, pid, duration.toUInt64, false⟩) id
    rw [update_of_ne hid, ← hold, live, live]
    simp [createTimer, addUserHandle, hid]

include hs hcounter in
/-- `create_timer` keeps the tables. -/
lemma tables_createTimer (pid : Pid) (duration h : UInt32) :
    (s.createTimer pid duration h).Tables where
  handle pid' h' t hh := by
    rcases handles_of_open hh with ⟨rfl, rfl, heq⟩ | hh'
    · cases heq
      exact ⟨_, update_self .., rfl, rfl, update_self ..⟩
    · obtain ⟨old, ht, hpid, hhandle, hold⟩ := hs.handle pid' h' t hh'
      refine ⟨old, hs.infos_addUserHandle .timer pid h _ ht, hpid, hhandle, ?_⟩
      -- an id that is in use is not the new one
      have hne : old.timerId ≠ s.timerIdCounter + 1 := by
        intro heq
        rw [heq, hs.counter _ (lt_timerIdCounter_add hcounter)] at hold
        cases hold
      exact (update_of_ne hne _ _).trans hold
  timer id t ht := by
    by_cases hid : id = s.timerIdCounter + 1
    · obtain rfl : s.fresh = t := by
        simpa [createTimer, hid] using ht
      exact ⟨_, update_self .., hid.symm⟩
    · have hold : s.timers id = some t := by
        simpa [createTimer, addUserHandle, hid] using ht
      obtain ⟨old, hinfo, hold⟩ := hs.timer id t hold
      exact ⟨old, hs.infos_addUserHandle .timer pid h _ hinfo, hold⟩
  fresh t ht := hs.fresh_addUserHandle .timer pid h _ ht
  counter id hid := by
    have hne : id ≠ s.timerIdCounter + 1 := fun heq => UInt64.lt_irrefl _ (heq ▸ hid)
    exact (update_of_ne hne _ _).trans
      (hs.counter id (UInt64.lt_trans (lt_timerIdCounter_add hcounter) hid))

end Create

section SetInfo

variable {s' : State} {t : ℕ} {info info' : TimerInfo}

lemma Tables.live_of_update (hs : s.Tables) (ht : s.timers info.timerId = some t)
    (htimers : s'.timers = s.timers) (hinfos : s'.infos = update s.infos t (some info')) :
    s'.live = update s.live info.timerId (some info') := by
  ext1 id
  rw [live, htimers, hinfos]
  by_cases hid : id = info.timerId
  · rw [hid, ht, bind_some, update_self, update_self]
  · rw [update_of_ne hid, live]
    cases hold : s.timers id with
    | none => rfl
    | some t' =>
      have hne : t' ≠ t := fun heq => hid (hs.timer_inj hold (heq ▸ ht))
      exact update_of_ne hne _ _

/-- A timer may change as long as it keeps its id and its handle. -/
lemma Tables.of_update (hs : s.Tables) (ht : s.infos t = some info)
    (htimers : s'.timers = s.timers) (hinfos : s'.infos = update s.infos t (some info'))
    (hkeep : info'.pid = info.pid ∧ info'.handleId = info.handleId ∧
      info'.timerId = info.timerId)
    (hhandles : s'.handles = s.handles) (hcounter : s'.timerIdCounter = s.timerIdCounter)
    (hfresh : s.fresh ≤ s'.fresh) : s'.Tables := by
  obtain ⟨hpid, hhandle, hid⟩ := hkeep
  -- every object is still there, with the same id and handle
  have hmoved : ∀ t' old, s.infos t' = some old → ∃ new, s'.infos t' = some new ∧
      new.pid = old.pid ∧ new.handleId = old.handleId ∧ new.timerId = old.timerId := by
    intro t' old hold
    rw [hinfos]
    by_cases heq : t' = t
    · obtain rfl : info = old := by
        rw [heq, ht, some.injEq] at hold
        exact hold
      exact ⟨info', by rw [heq, update_self], hpid, hhandle, hid⟩
    · exact ⟨old, (update_of_ne heq _ _).trans hold, rfl, rfl, rfl⟩
  refine ⟨fun pid h t' hh => ?_, fun id t' ht' => ?_, fun t' ht' => ?_, fun id hid' => ?_⟩
  · obtain ⟨old, hold, rfl, rfl, htimer⟩ := hs.handle pid h t' (hhandles ▸ hh)
    obtain ⟨new, hnew, hpid', hhandle', hid'⟩ := hmoved t' old hold
    exact ⟨new, hnew, hpid', hhandle', by rw [htimers, hid', htimer]⟩
  · obtain ⟨old, hold, rfl⟩ := hs.timer id t' (htimers ▸ ht')
    obtain ⟨new, hnew, -, -, hid'⟩ := hmoved t' old hold
    exact ⟨new, hnew, hid'⟩
  · have hlt := hs.lt_fresh ht
    rw [hinfos, update_of_ne (by omega)]
    exact hs.fresh t' (hfresh.trans ht')
  · rw [htimers]
    exact hs.counter id (hcounter ▸ hid')

end SetInfo

section Close

variable {pid : Pid} {h : UInt32} {t : ℕ} {info : TimerInfo}

lemma closeHandle_timer (hh : s.handles pid h = some ⟨t, .timer⟩) (ht : s.infos t = some info) :
    s.closeHandle pid h = some { s with
      infos := update s.infos t none
      timers := update s.timers info.timerId none
      handles := update s.handles pid (update (s.handles pid) h none)
      events := cancelEvents info.timerId s.events
      log := .closed info.timerId :: s.log } := by
  rw [closeHandle, hh]
  simp only [closeTimer, ht, map_some]

lemma handles_of_close {pid' : Pid} {h' : UInt32} {handle : Handle}
    (hh : update s.handles pid (update (s.handles pid) h none) pid' h' =
      some handle) : s.handles pid' h' = some handle ∧ ¬(pid' = pid ∧ h' = h) := by
  simp only [update_apply] at hh
  grind

variable {s' : State} (hs : s.Tables) (ht : s.infos t = some info)
  (hid : s.timers info.timerId = some t) (hinfos : s'.infos = Function.update s.infos t none)
  (htimers : s'.timers = Function.update s.timers info.timerId none)

include hs hid hinfos htimers in
lemma live_of_close : s'.live = update s.live info.timerId none := by
  ext1 id
  rw [live, htimers, hinfos]
  by_cases heq : id = info.timerId
  · rw [heq, update_self, update_self, bind_none]
  · rw [update_of_ne heq, update_of_ne heq, live]
    cases hold : s.timers id with
    | none => rfl
    | some t' =>
      have hne : t' ≠ t := fun h => heq (hs.timer_inj hold (h ▸ hid))
      exact update_of_ne hne _ _

include hs ht hid hinfos htimers in
/-- Closing a timer keeps the tables. -/
lemma tables_of_close (hh : s.handles pid h = some ⟨t, .timer⟩) (hhandles : s'.handles =
      update s.handles pid (update (s.handles pid) h none))
    (hcounter : s'.timerIdCounter = s.timerIdCounter) (hfresh : s'.fresh = s.fresh) :
    s'.Tables where
  handle pid' h' t' hh' := by
    obtain ⟨hold, hne⟩ := handles_of_close (hhandles ▸ hh')
    obtain ⟨info', ht', rfl, rfl, hid'⟩ := hs.handle pid' h' t' hold
    -- one object has one handle
    have hother : t' ≠ t := by
      rintro rfl
      obtain ⟨info'', ht'', rfl, rfl, -⟩ := hs.handle pid h t' hh
      rw [ht', some.injEq] at ht''
      exact hne ⟨by rw [ht''], by rw [ht'']⟩
    refine ⟨info', by rw [hinfos, update_of_ne hother, ht'], rfl, rfl, ?_⟩
    -- the ids of two objects differ
    rw [htimers, update_of_ne, hid']
    intro heq
    rw [heq, hid, some.injEq] at hid'
    exact hother hid'.symm
  timer id t' ht' := by
    have hne : id ≠ info.timerId := by
      rintro rfl
      rw [htimers, update_self] at ht'
      cases ht'
    rw [htimers, update_of_ne hne] at ht'
    obtain ⟨old, hold, heq⟩ := hs.timer id t' ht'
    have hother : t' ≠ t := fun h => hne (hs.timer_inj ht' (h ▸ hid))
    exact ⟨old, by rw [hinfos, update_of_ne hother, hold], heq⟩
  fresh t' ht' := by
    have hlt := hs.lt_fresh ht
    rw [hinfos, update_of_ne (by omega)]
    exact hs.fresh t' (hfresh ▸ ht')
  counter id hlt := by
    rw [htimers, update_apply, hs.counter id (hcounter ▸ hlt), ite_self]

end Close

end State

/-! ## The events that wait -/

/-- An event waits for the time that a reset has asked for. Unless it is cancelled, its timer runs
and has the handle of the reset. -/
structure Awaits (live : UInt64 → Option TimerInfo) (e : TimerEvent) (r : Reset) : Prop where
  event_eq : e.key = r.event
  timer_eq : e.timerId = r.timer
  pid_eq : e.pid = r.pid
  time_eq : e.time.toNat = r.now.toNat + r.duration.toNat
  time_lt : e.time < uint64Max
  runs : e.cancel = false →
    ∃ info, live e.timerId = some info ∧ info.active = true ∧ info.handleId = r.handle

lemma Awaits.of_live {live live' : UInt64 → Option TimerInfo} {e : TimerEvent} {r : Reset}
    (h : Awaits live e r) (hlive : e.cancel = false → ∀ info, live e.timerId = some info →
      live' e.timerId = some info) : Awaits live' e r where
  __ := h
  runs hcancel := by
    obtain ⟨info, hinfo, hrest⟩ := h.runs hcancel
    exact ⟨info, hlive hcancel info hinfo, hrest⟩

/-- The event of a reset waits for the time that the reset asks for, if that time is not the end of
time. -/
lemma Awaits.reset {live : UInt64 → Option TimerInfo} {info : TimerInfo} {now : UInt64}
    (htime : now.toNat + info.duration.toNat < 2 ^ 64 - 1)
    (hlive : live info.timerId = some { info with active := true }) (event : ℕ) (pid : Pid) :
    Awaits live ⟨event, pid, now + info.duration, info.timerId, false⟩
      ⟨event, info.timerId, pid, info.handleId, now, info.duration⟩ := by
  have htime_eq : (now + info.duration).toNat = now.toNat + info.duration.toNat := by
    rw [UInt64.toNat_add]
    exact Nat.mod_eq_of_lt (by omega)
  refine ⟨rfl, rfl, rfl, htime_eq, ?_, fun _ => ⟨_, hlive, rfl, rfl⟩⟩
  rw [UInt64.lt_iff_toNat_lt, htime_eq]
  exact htime

/-- What holds of the list of events and of what has happened. -/
structure Queue (s : State) : Prop where
  log : LogOrderly s.log
  started : ∀ r, .started r ∈ s.log → r.event < s.fresh
  closed : ∀ id, .closed id ∈ s.log → s.live id = none ∧ id ≤ s.timerIdCounter
  sent : ∀ m, .sent m ∈ s.log → m.event < s.fresh ∧ ∀ e ∈ s.events, e.key ≠ m.event
  awaits : ∀ e ∈ s.events, ∃ r, .started r ∈ s.log ∧ Awaits s.live e r
  /-- A timer runs for one event only. -/
  alone : ∀ e ∈ s.events, ∀ e' ∈ s.events, e.cancel = false → e'.cancel = false →
    e.timerId = e'.timerId → e = e'
  nodup : (s.events.map TimerEvent.key).Nodup
  next : s.events ≠ [] → IsNext s.events s.nextEvent
  /-- The thread goes on only after the time of some event. -/
  woken : s.woken = true → ∃ e ∈ s.events, e.time ≤ s.clock

namespace Queue

variable {s s' : State} {e : TimerEvent}

section

variable (hq : Queue s) (he : e ∈ s.events)
include hq he

lemma time_lt : e.time < uint64Max := by
  obtain ⟨r, -, hr⟩ := hq.awaits e he
  exact hr.time_lt

lemma key_lt : e.key < s.fresh := by
  obtain ⟨r, hr, hawaits⟩ := hq.awaits e he
  rw [hawaits.event_eq]
  exact hq.started r hr

lemma key_inj {e' : TimerEvent} (he' : e' ∈ s.events) (hkey : e.key = e'.key) : e = e' :=
  inj_on_of_nodup_map hq.nodup he he' hkey

lemma ne_of_inactive (hcancel : e.cancel = false) {id : UInt64} {info : TimerInfo}
    (hlive : s.live id = some info) (hactive : info.active = false) : e.timerId ≠ id := by
  rintro rfl
  obtain ⟨r, -, hawaits⟩ := hq.awaits e he
  obtain ⟨info', hinfo', hactive', -⟩ := hawaits.runs hcancel
  rw [hlive, some.injEq] at hinfo'
  rw [← hinfo', hactive] at hactive'
  cases hactive'

end

/-- A step that leaves the events and the timers there are. -/
lemma of_live_eq (hq : Queue s) (htables : s.Tables) (hlog : s'.log = s.log)
    (hevents : s'.events = s.events) (hnext : s'.nextEvent = s.nextEvent)
    (hwoken : s'.woken = s.woken) (hclock : s'.clock = s.clock) (hfresh : s.fresh ≤ s'.fresh)
    (hcounter : s.timerIdCounter ≤ s'.timerIdCounter)
    (hlive : ∀ id ≤ s.timerIdCounter, s'.live id = s.live id) : Queue s' where
  log := by rw [hlog]; exact hq.log
  started r hr := (hq.started r (hlog ▸ hr)).trans_le hfresh
  closed id hid := by
    obtain ⟨hnone, hle⟩ := hq.closed id (hlog ▸ hid)
    exact ⟨(hlive id hle).trans hnone, UInt64.le_trans hle hcounter⟩
  sent m hm := by
    obtain ⟨hlt, hne⟩ := hq.sent m (hlog ▸ hm)
    exact ⟨hlt.trans_le hfresh, by rw [hevents]; exact hne⟩
  awaits e he := by
    obtain ⟨r, hr, hawaits⟩ := hq.awaits e (hevents ▸ he)
    refine ⟨r, by rw [hlog]; exact hr, hawaits.of_live fun _ info hinfo => ?_⟩
    have hle : e.timerId ≤ s.timerIdCounter := by
      by_contra hlt
      rw [htables.live_eq_none (UInt64.not_le.mp hlt)] at hinfo
      cases hinfo
    exact (hlive _ hle).trans hinfo
  alone := by rw [hevents]; exact hq.alone
  nodup := by rw [hevents]; exact hq.nodup
  next := by rw [hevents, hnext]; exact hq.next
  woken := by rw [hwoken, hevents, hclock]; exact hq.woken

section Reset

variable {pid : Pid} {h : UInt32} {now : UInt64} {info : TimerInfo}

/-- `reset_timer` of a timer that does not run adds its event. -/
lemma of_reset (hq : Queue s) (hclock : s.clock ≤ now) (hlive : s.live info.timerId = some info)
    (hhandle : info.handleId = h) (hactive : info.active = false)
    (htime : now.toNat + info.duration.toNat < 2 ^ 64 - 1)
    (hlive' : s'.live = update s.live info.timerId (some { info with active := true }))
    (hevents : s'.events =
      s.events ++ [⟨s.fresh, pid, now + info.duration, info.timerId, false⟩])
    (hnext : s'.nextEvent = updateNextEvent s'.events s.nextEvent) (hclock' : s'.clock = now)
    (hwoken : s'.woken = s.woken) (hfresh : s'.fresh = s.fresh + 1)
    (hcounter : s'.timerIdCounter = s.timerIdCounter)
    (hlog : s'.log = .started ⟨s.fresh, info.timerId, pid, h, now, info.duration⟩ :: s.log) :
    Queue s' := by
  set e : TimerEvent := ⟨s.fresh, pid, now + info.duration, info.timerId, false⟩
  have hmem : ∀ e', e' ∈ s'.events ↔ e' ∈ s.events ∨ e' = e := by
    intro e'
    rw [hevents, mem_append, mem_singleton]
  -- the timer does not run, so that its other events are cancelled
  have hother : ∀ e' ∈ s.events, e'.cancel = false → e'.timerId ≠ info.timerId :=
    fun e' he' hcancel => hq.ne_of_inactive he' hcancel hlive hactive
  have hawaits : ∀ e' ∈ s'.events, ∃ r, .started r ∈ s'.log ∧ Awaits s'.live e' r := by
    intro e' he'
    rcases (hmem e').mp he' with he' | rfl
    · obtain ⟨r, hr, hawaits⟩ := hq.awaits e' he'
      refine ⟨r, by rw [hlog]; exact mem_cons_of_mem _ hr,
        hawaits.of_live fun hcancel _ hinfo => ?_⟩
      rw [hlive', update_of_ne (hother e' he' hcancel), hinfo]
    · exact ⟨_, by rw [hlog, ← hhandle]; exact mem_cons_self,
        .reset htime (by rw [hlive', update_self]) s.fresh pid⟩
  have hne : s'.events ≠ [] := by
    rw [hevents]
    simp
  have hisNext : IsNext s'.events s'.nextEvent := by
    rw [hnext]
    refine isNext_updateNextEvent hne (fun e' he' => ?_) _
    obtain ⟨r, -, hr⟩ := hawaits e' he'
    exact hr.time_lt
  exact
    { log := by
        rw [hlog]
        exact ⟨fun r hr => (hq.started r hr).ne, hq.log⟩
      started := fun r hr => by
        rw [hlog, mem_cons] at hr
        rcases hr with heq | hr
        · cases heq
          rw [hfresh]
          exact Nat.lt_succ_self _
        · rw [hfresh]
          exact (hq.started r hr).trans (Nat.lt_succ_self _)
      closed := fun id hid => by
        have hid' : .closed id ∈ s.log := by simpa [hlog] using hid
        obtain ⟨hnone, hle⟩ := hq.closed id hid'
        -- a closed timer is not the one that is started
        have hne : id ≠ info.timerId := by
          rintro rfl
          rw [hlive] at hnone
          cases hnone
        rw [hlive', update_of_ne hne, hcounter]
        exact ⟨hnone, hle⟩
      sent := fun m hm => by
        have hm' : .sent m ∈ s.log := by simpa [hlog] using hm
        obtain ⟨hlt, hkeys⟩ := hq.sent m hm'
        refine ⟨by omega, fun e' he' => ?_⟩
        rcases (hmem e').mp he' with he' | rfl
        · exact hkeys e' he'
        · exact hlt.ne'
      awaits := hawaits
      alone := fun e1 he1 e2 he2 hc1 hc2 heq => by
        rcases (hmem e1).mp he1 with he1 | rfl <;> rcases (hmem e2).mp he2 with he2 | rfl
        · exact hq.alone e1 he1 e2 he2 hc1 hc2 heq
        · exact absurd heq (hother e1 he1 hc1)
        · exact absurd heq.symm (hother e2 he2 hc2)
        · rfl
      nodup := by
        rw [hevents, map_append, nodup_append]
        refine ⟨hq.nodup, nodup_singleton _, fun key hkey key' hkey' => ?_⟩
        obtain ⟨e', he', rfl⟩ := mem_map.mp hkey
        rw [map_singleton, mem_singleton] at hkey'
        rw [hkey']
        exact (hq.key_lt he').ne
      next := fun _ => hisNext
      woken := fun hw => by
        obtain ⟨e', he', hle⟩ := hq.woken (hwoken ▸ hw)
        exact ⟨e', (hmem e').mpr (.inl he'), hclock' ▸ UInt64.le_trans hle hclock⟩ }

end Reset

lemma mem_cancelEvents {id : UInt64} {events : List TimerEvent} :
    e ∈ State.cancelEvents id events ↔
      ∃ old ∈ events, e = { old with cancel := old.cancel || decide (old.timerId = id) } := by
  rw [State.cancelEvents, List.mem_map]
  refine exists_congr fun old => and_congr_right fun _ => ?_
  by_cases hid : old.timerId = id
  · simp [hid, eq_comm]
  · simp [hid, eq_comm]

/-- Closing a timer cancels its events. -/
lemma of_close (hq : Queue s) {id : UInt64} (hid : id ≤ s.timerIdCounter)
    (hlive : s'.live = update s.live id none)
    (hevents : s'.events = State.cancelEvents id s.events) (hnext : s'.nextEvent = s.nextEvent)
    (hclock : s'.clock = s.clock) (hwoken : s'.woken = s.woken) (hfresh : s'.fresh = s.fresh)
    (hcounter : s'.timerIdCounter = s.timerIdCounter) (hlog : s'.log = .closed id :: s.log) :
    Queue s' where
  log := by
    rw [hlog]
    exact hq.log
  started r hr := by
    have hr' : .started r ∈ s.log := by simpa [hlog] using hr
    rw [hfresh]
    exact hq.started r hr'
  closed id' hid' := by
    rw [hlog, mem_cons, Entry.closed.injEq] at hid'
    rw [hlive, hcounter]
    rcases hid' with rfl | hid'
    · exact ⟨update_self .., hid⟩
    · obtain ⟨hnone, hle⟩ := hq.closed id' hid'
      exact ⟨by rw [update_apply, hnone, ite_self], hle⟩
  sent m hm := by
    have hm' : .sent m ∈ s.log := by simpa [hlog] using hm
    obtain ⟨hlt, hkeys⟩ := hq.sent m hm'
    refine ⟨hfresh ▸ hlt, fun e he => ?_⟩
    obtain ⟨old, hold, rfl⟩ := mem_cancelEvents.mp (hevents ▸ he)
    exact hkeys old hold
  awaits e he := by
    obtain ⟨old, hold, rfl⟩ := mem_cancelEvents.mp (hevents ▸ he)
    obtain ⟨r, hr, hawaits⟩ := hq.awaits old hold
    refine ⟨r, by rw [hlog]; exact mem_cons_of_mem _ hr, { hawaits with runs := fun hcancel => ?_ }⟩
    -- an event that is still not cancelled is that of another timer
    rw [or_eq_false_iff, decide_eq_false_iff_not] at hcancel
    rw [hlive, update_of_ne hcancel.2]
    exact hawaits.runs hcancel.1
  alone e1 he1 e2 he2 hc1 hc2 heq := by
    obtain ⟨old1, hold1, rfl⟩ := mem_cancelEvents.mp (hevents ▸ he1)
    obtain ⟨old2, hold2, rfl⟩ := mem_cancelEvents.mp (hevents ▸ he2)
    rw [or_eq_false_iff] at hc1 hc2
    rw [hq.alone old1 hold1 old2 hold2 hc1.1 hc2.1 heq]
  nodup := by
    have hkeys : (State.cancelEvents id s.events).map TimerEvent.key =
        s.events.map TimerEvent.key := by
      rw [State.cancelEvents, List.map_map]
      refine map_congr_left fun e _ => ?_
      rw [comp_apply]
      split <;> rfl
    rw [hevents, hkeys]
    exact hq.nodup
  next hne := by
    have hold : s.events ≠ [] := by
      rintro heq
      rw [hevents, heq] at hne
      exact hne rfl
    obtain ⟨e, he, heq, hmin⟩ := hq.next hold
    rw [hevents, hnext]
    refine ⟨_, mem_cancelEvents.mpr ⟨e, he, rfl⟩, heq, fun e' he' => ?_⟩
    obtain ⟨old, hold', rfl⟩ := mem_cancelEvents.mp he'
    exact hmin old hold'
  woken hw := by
    obtain ⟨e, he, hle⟩ := hq.woken (hwoken ▸ hw)
    rw [hevents, hclock]
    exact ⟨_, mem_cancelEvents.mpr ⟨e, he, rfl⟩, hle⟩

lemma of_next? (hq : Queue s) (he : s.next? = some e) :
    e ∈ s.events ∧ ∀ e' ∈ s.events, e.time ≤ e'.time := by
  have hmem : e ∈ s.events := mem_of_find?_eq_some he
  have hkey : s.nextEvent = some e.key := by simpa using find?_some he
  obtain ⟨e', he', hnext, hmin⟩ := hq.next (ne_nil_of_mem hmem)
  rw [hkey, some.injEq] at hnext
  rw [hq.key_inj hmem he' hnext]
  exact ⟨he', hmin⟩

/-- An event is taken from the list after it was dealt with: `log` has at most its message. -/
lemma of_erase (hq : Queue s) (he : e ∈ s.events)
    (hlog : s'.log = s.log ∨ ∃ m, m.event = e.key ∧ s'.log = .sent m :: s.log)
    (horderly : LogOrderly s'.log) (hlive : ∀ id, (s'.live id = none ↔ s.live id = none) ∧
      (s'.live id = s.live id ∨ e.cancel = false ∧ id = e.timerId))
    (hevents : s'.events = s.events.erase e)
    (hnext : s'.nextEvent = updateNextEvent s'.events s.nextEvent) (hwoken : s'.woken = false)
    (hfresh : s'.fresh = s.fresh) (hcounter : s'.timerIdCounter = s.timerIdCounter) :
    Queue s' := by
  have hmem : ∀ e', e' ∈ s'.events ↔ e' ≠ e ∧ e' ∈ s.events := fun e' => by
    rw [hevents, (List.Nodup.of_map _ hq.nodup).mem_erase_iff]
  have hsub : ∀ entry ∈ s.log, entry ∈ s'.log := by
    intro entry hentry
    rcases hlog with heq | ⟨m, -, heq⟩ <;> rw [heq]
    · exact hentry
    · exact mem_cons_of_mem _ hentry
  -- an entry is an earlier one, or the message for the event that is taken away
  have hcases : ∀ entry ∈ s'.log, entry ∈ s.log ∨ ∃ m, m.event = e.key ∧ entry = .sent m := by
    intro entry hentry
    rcases hlog with heq | ⟨m, hm, heq⟩ <;> rw [heq] at hentry
    · exact .inl hentry
    · exact (mem_cons.mp hentry).symm.imp_right fun heq => ⟨m, hm, heq⟩
  have hawaits : ∀ e' ∈ s'.events, ∃ r, .started r ∈ s'.log ∧ Awaits s'.live e' r := by
    intro e' he'
    obtain ⟨hne, he'⟩ := (hmem e').mp he'
    obtain ⟨r, hr, hawaits⟩ := hq.awaits e' he'
    refine ⟨r, hsub _ hr, hawaits.of_live fun hcancel _ hinfo => ?_⟩
    -- the timer that stops has no other event
    rcases (hlive e'.timerId).2 with heq | ⟨hcancel', heq⟩
    · rw [heq, hinfo]
    · exact absurd (hq.alone e' he' e he hcancel hcancel' heq) hne
  exact
    { log := horderly
      started := fun r hr => by
        rw [hfresh]
        exact hq.started r (by simpa using hcases _ hr)
      closed := fun id hid => by
        obtain ⟨hnone, hle⟩ := hq.closed id (by simpa using hcases _ hid)
        exact ⟨(hlive id).1.mpr hnone, hcounter ▸ hle⟩
      sent := fun m hm => by
        rw [hfresh]
        rcases hcases _ hm with hm | ⟨m', hm, heq⟩
        · obtain ⟨hlt, hkeys⟩ := hq.sent m hm
          exact ⟨hlt, fun e' he' => hkeys e' ((hmem e').mp he').2⟩
        · rw [Entry.sent.inj heq, hm]
          refine ⟨hq.key_lt he, fun e' he' hkey => ?_⟩
          obtain ⟨hne, he'⟩ := (hmem e').mp he'
          exact hne (hq.key_inj he' he hkey)
      awaits := hawaits
      alone := fun e1 he1 e2 he2 =>
        hq.alone e1 ((hmem e1).mp he1).2 e2 ((hmem e2).mp he2).2
      nodup := by
        rw [hevents]
        exact hq.nodup.sublist ((erase_sublist ..).map _)
      next := fun hne => by
        rw [hnext]
        refine isNext_updateNextEvent hne (fun e' he' => ?_) _
        exact hq.time_lt ((hmem e').mp he').2
      woken := fun hw => by
        rw [hwoken] at hw
        cases hw }

lemma live_stopped (hcancel : e.cancel = false) {info info' : TimerInfo}
    (hid : info.timerId = e.timerId) (hlive : s.live e.timerId = some info)
    (hlive' : s'.live = update s.live info.timerId (some info')) (id : UInt64) :
    (s'.live id = none ↔ s.live id = none) ∧
      (s'.live id = s.live id ∨ e.cancel = false ∧ id = e.timerId) := by
  rw [hlive', hid]
  by_cases heq : id = e.timerId
  · simp [heq, hlive, hcancel]
  · simp [update_of_ne heq]

/-- The message for an event that is due answers the reset it was listed for. -/
lemma logOrderly_sent (hq : Queue s) (he : e ∈ s.events)
    (hcancel : e.cancel = false) (hdue : e.time ≤ s.clock) {info : TimerInfo}
    (hlive : s.live e.timerId = some info) :
    LogOrderly (.sent ⟨e.key, e.timerId, e.pid, info.handleId, s.clock⟩ :: s.log) := by
  obtain ⟨r, hr, hawaits⟩ := hq.awaits e he
  obtain ⟨info', hinfo', -, hhandle⟩ := hawaits.runs hcancel
  rw [hlive, some.injEq] at hinfo'
  refine ⟨⟨r, hr, hawaits.event_eq, hawaits.timer_eq, hawaits.pid_eq, ?_, ?_⟩, ?_, ?_, hq.log⟩
  · rw [← hhandle, hinfo']
  · rw [← hawaits.time_eq]
    exact UInt64.le_iff_toNat_le.mp hdue
  -- the event is still listed, so that nothing was sent for it
  · intro m hm
    exact ((hq.sent m hm).2 e he).symm
  -- its timer is there, so that it was not closed
  · intro hclosed
    rw [(hq.closed _ hclosed).1] at hlive
    cases hlive

end Queue

/-! ## Runs -/

/-- The call does not use up the ids of timers, and a reset that starts something starts a timer,
for a time before the end of time. -/
def Regular (s : State) : Call → Prop
  | .create _ _ _ => s.timerIdCounter.toNat + 1 < 2 ^ 64
  | .reset pid h now => ∀ handle ∈ s.handles pid h, ∀ info ∈ s.infos handle.value,
      info.active = false → handle.kind = .timer ∧ now.toNat + info.duration.toNat < 2 ^ 64 - 1
  | _ => True

instance decidableRegular (s : State) (c : Call) : Decidable (Regular s c) := by
  cases c <;> unfold Regular <;> infer_instance

/-- What holds in every state of a regular run. -/
structure Inv (s : State) : Prop where
  tables : s.Tables
  queue : Queue s

namespace Inv

variable {s s' : State}

lemma of_initial (hs : Initial s) : Inv s where
  tables :=
    { handle := by simp [hs.handles_eq]
      timer := by simp [hs.timers_eq]
      fresh := by simp [hs.infos_eq]
      counter := by simp [hs.timers_eq] }
  queue :=
    { log := by
        rw [hs.log_eq]
        trivial
      started := by simp [hs.log_eq]
      closed := by simp [hs.log_eq]
      sent := by simp [hs.log_eq]
      awaits := by simp [hs.events_eq]
      alone := by simp [hs.events_eq]
      nodup := by simp [hs.events_eq]
      next := fun hne => absurd hs.events_eq hne
      woken := by simp [hs.woken_eq] }

section

variable (hs : Inv s)
include hs

lemma createTimer (hcounter : s.timerIdCounter.toNat + 1 < 2 ^ 64) (pid : Pid)
    (duration h : UInt32) : Inv (s.createTimer pid duration h) where
  tables := State.tables_createTimer hs.tables hcounter pid duration h
  queue := by
    have hlt := State.lt_timerIdCounter_add hcounter
    refine hs.queue.of_live_eq hs.tables rfl rfl rfl rfl rfl (Nat.le_succ _)
      (UInt64.le_of_lt hlt) fun id hid => ?_
    rw [State.live_createTimer hs.tables, update_of_ne]
    rintro rfl
    exact UInt64.not_le.mpr hlt hid

lemma addUserHandle (pid : Pid) (h : UInt32) (info : TimerInfo) :
    Inv (s.addUserHandle .other pid h info) where
  tables := hs.tables.addUserHandle_other pid h info
  queue := hs.queue.of_live_eq hs.tables rfl rfl rfl rfl rfl (Nat.le_succ _) (UInt64.le_refl _)
    fun _ _ => by rw [hs.tables.live_addUserHandle]

/-- `reset_timer` keeps the invariant. -/
lemma resetTimer {pid : Pid} {h : UInt32} {now : UInt64}
    (hregular : Regular s (.reset pid h now)) (hclock : s.clock ≤ now)
    (hstep : s.resetTimer pid h now = some s') : Inv s' := by
  rw [State.resetTimer] at hstep
  cases hh : s.handles pid h with
  | none =>
    rw [hh] at hstep
    cases hstep
    exact hs
  | some handle =>
    obtain ⟨t, kind⟩ := handle
    rw [hh, map_eq_some_iff] at hstep
    obtain ⟨info, hinfo, hstep⟩ := hstep
    cases hactive : info.active with
    | true =>
      rw [hactive, if_pos rfl] at hstep
      exact hstep ▸ hs
    | false =>
      rw [hactive, if_neg Bool.false_ne_true] at hstep
      obtain ⟨hkind, htime⟩ := hregular _ hh info hinfo hactive
      cases hkind
      -- the handle is one for a timer, so that its value is the object of one
      obtain ⟨info', hinfo', hpid, hhandle, hid⟩ := hs.tables.handle pid h t hh
      obtain rfl : info = info' := some.inj (hinfo.symm.trans hinfo')
      have hlive : s.live info.timerId = some info := (State.live_of_timers hid).trans hinfo
      subst hstep
      exact
        { tables := hs.tables.of_update hinfo rfl rfl ⟨rfl, rfl, rfl⟩ rfl rfl (Nat.le_succ _)
          queue := hs.queue.of_reset hclock hlive hhandle hactive htime
            (hs.tables.live_of_update hid rfl rfl) rfl rfl rfl rfl rfl rfl rfl }

/-- Closing a handle keeps the invariant. -/
lemma closeHandle {pid : Pid} {h : UInt32} (hstep : s.closeHandle pid h = some s') : Inv s' := by
  cases hh : s.handles pid h with
  | none =>
    rw [State.closeHandle, hh] at hstep
    cases hstep
    exact hs
  | some handle =>
    obtain ⟨t, kind⟩ := handle
    cases kind with
    | timer =>
      obtain ⟨info, hinfo, -, -, hid⟩ := hs.tables.handle pid h t hh
      -- an id beyond the counter is not in the table
      have hle : info.timerId ≤ s.timerIdCounter := by
        by_contra hlt
        rw [hs.tables.counter _ (UInt64.not_le.mp hlt)] at hid
        cases hid
      rw [State.closeHandle_timer hh hinfo, some.injEq] at hstep
      subst hstep
      exact
        { tables := State.tables_of_close hs.tables hinfo hid rfl rfl hh rfl rfl rfl
          queue := hs.queue.of_close hle (State.live_of_close hs.tables hid rfl rfl)
            rfl rfl rfl rfl rfl rfl rfl }
    | other =>
      rw [State.closeHandle, hh] at hstep
      cases hstep
      exact
        { tables :=
            { hs.tables with
              handle := fun pid' h' t' hh' =>
                hs.tables.handle pid' h' t' (State.handles_of_close hh').1 }
          queue := hs.queue.of_live_eq hs.tables rfl rfl rfl rfl rfl (le_refl _)
            (UInt64.le_refl _) fun _ _ => rfl }

lemma wake {now : UInt64} (hstep : s.wake now = some s') : Inv s' := by
  rw [State.wake, bind_eq_some_iff] at hstep
  obtain ⟨e, he, hstep⟩ := hstep
  split at hstep
  · next hdue =>
    rw [and_eq_true, decide_eq_true_eq] at hdue
    cases hstep
    exact
      { tables := { hs.tables with }
        queue := { hs.queue with woken := fun _ => ⟨e, (hs.queue.of_next? he).1, hdue.2⟩ } }
  · cases hstep

/-- The thread deals with an event that is due. -/
lemma fire (hstep : s.fire = some s') : Inv s' := by
  rw [State.fire] at hstep
  split at hstep
  case isFalse => cases hstep
  case isTrue hwoken =>
    rw [bind_eq_some_iff] at hstep
    obtain ⟨e, he, hstep⟩ := hstep
    obtain ⟨hmem, hmin⟩ := hs.queue.of_next? he
    cases hcancel : e.cancel with
    | true =>
      simp only [hcancel, if_true, map_some, some.injEq] at hstep
      subst hstep
      exact
        { tables := { hs.tables with }
          queue := hs.queue.of_erase hmem (.inl rfl) hs.queue.log
            (fun _ => ⟨Iff.rfl, .inl rfl⟩) rfl rfl rfl rfl rfl }
    | false =>
      simp only [hcancel, false_eq_true, if_false, map_eq_some_iff, bind_eq_some_iff] at hstep
      obtain ⟨_, ⟨t, ht, info, hinfo, rfl⟩, rfl⟩ := hstep
      obtain ⟨_, hinfo', hid⟩ := hs.tables.timer e.timerId t ht
      obtain rfl : info = _ := some.inj (hinfo.symm.trans hinfo')
      have hlive : s.live e.timerId = some info := (State.live_of_timers ht).trans hinfo
      -- `woken` knows some event that is due, and the next one is not later
      obtain ⟨due, hdue, hle⟩ := hs.queue.woken hwoken
      have horderly := hs.queue.logOrderly_sent hmem hcancel
        (UInt64.le_trans (hmin due hdue) hle) hlive
      exact
        { tables := hs.tables.of_update hinfo rfl rfl ⟨rfl, rfl, rfl⟩ rfl rfl (le_refl _)
          queue := hs.queue.of_erase hmem (.inr ⟨_, rfl, rfl⟩) horderly
            (Queue.live_stopped hcancel hid hlive
              (hs.tables.live_of_update (hid.symm ▸ ht) rfl rfl)) rfl rfl rfl rfl rfl }

/-- Every regular step keeps the invariant. -/
lemma step {c : Call} (hregular : Regular s c) (hstep : timers.step s c = some s') :
    Inv s' := by
  cases c with
  | create pid duration h =>
    obtain ⟨-, hstep⟩ := ite_none_left_eq_some.mp hstep
    cases hstep
    exact hs.createTimer hregular pid duration h
  | openOther pid h info =>
    obtain ⟨-, hstep⟩ := ite_none_left_eq_some.mp hstep
    cases hstep
    exact hs.addUserHandle pid h info
  | reset pid h now =>
    obtain ⟨hclock, hstep⟩ := ite_none_left_eq_some.mp hstep
    exact hs.resetTimer hregular (UInt64.not_lt.mp hclock) hstep
  | close pid h => exact hs.closeHandle hstep
  | wake now =>
    obtain ⟨-, hstep⟩ := ite_none_left_eq_some.mp hstep
    exact hs.wake hstep
  | fire => exact hs.fire hstep

end

end Inv

/-- In every state of a run of regular calls, however they and the rounds of the thread are
interleaved, timers are orderly. -/
theorem orderly_of_reaches {s : State} (h : timers.Reaches Regular s) : Orderly s := by
  have hs : Inv s := h.invariant (fun _ => Inv.of_initial) fun _ _ _ hs hregular hstep =>
    hs.step hregular hstep
  refine ⟨hs.queue.log, fun pid h now handle info hh hinfo hactive => ?_, hs.queue.next⟩
  simp [State.resetTimer, hh, hinfo, hactive]

/-- No timer yet, at some time. -/
def noTimers (clock : UInt64) : State where
  timerIdCounter := 0
  infos _ := none
  timers _ := none
  handles _ _ := none
  events := []
  nextEvent := none
  woken := false
  clock := clock
  fresh := 0
  log := []

lemma initial_noTimers (clock : UInt64) : timers.init (noTimers clock) :=
  ⟨rfl, rfl, rfl, rfl, rfl, rfl, rfl, rfl⟩

/-- Two timers: one is closed while it runs, the message of the other is sent. -/
theorem orderly_twoTimers :
    ∃ s, timers.Reaches Regular s ∧
      Entry.sent ⟨3, 2, 7, 5, 120⟩ ∈ s.log ∧ Entry.closed 1 ∈ s.log ∧ Orderly s := by
  have hrun : ((timers.guarded Regular).run (noTimers 100)
      [.create 7 10 4, .create 7 20 5, .reset 7 4 100, .reset 7 5 100, .close 7 4, .wake 110,
        .fire, .wake 120, .fire]).any (fun s => decide (Entry.sent ⟨3, 2, 7, 5, 120⟩ ∈ s.log ∧
          Entry.closed 1 ∈ s.log)) = true := by
    decide
  rw [Option.any_eq_true] at hrun
  obtain ⟨s, hrun, hlog⟩ := hrun
  have hreaches := System.reaches_of_run_guarded (.init (initial_noTimers 100)) hrun
  obtain ⟨hsent, hclosed⟩ := of_decide_eq_true hlog
  exact ⟨s, hreaches, hsent, hclosed, orderly_of_reaches hreaches⟩

/-- A process resets a handle of another kind, for an object that would be a timer with the id 1.
The message that is sent for it has the handle of the timer with this id. -/
theorem exists_not_orderly : ∃ s, timers.Reachable s ∧ ¬Orderly s := by
  have hrun : (timers.run (noTimers 100) [.create 7 10 4, .openOther 7 5 ⟨1, 0, 0, 0, false⟩,
      .reset 7 5 100, .wake 100, .fire]).any (fun s => decide (s.log =
        [.sent ⟨2, 1, 7, 4, 100⟩, .started ⟨2, 1, 7, 5, 100, 0⟩])) = true := by
    decide
  obtain ⟨s, hreachable, hs⟩ := System.exists_reachable_of_run (initial_noTimers 100) hrun
  refine ⟨s, hreachable, fun horderly => ?_⟩
  have hlog := horderly.log
  rw [of_decide_eq_true hs] at hlog
  -- the message would have to answer the only reset, with its handle
  obtain ⟨⟨r, hr, hanswers⟩, -⟩ := hlog
  obtain rfl : r = ⟨2, 1, 7, 5, 100, 0⟩ := by simpa using hr
  exact absurd hanswers.handle_eq (by decide)

end Rtc.Timers
