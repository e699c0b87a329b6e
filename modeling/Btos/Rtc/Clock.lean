import Btos.Lib.TransitionSystem
import Btos.Rtc.Calendar

/-!
# The millisecond clock

`rtc.cpp`: the timer interrupts 1024 times in a second and counts its ticks. `get_msecs` turns the
ticks since the last call into milliseconds, by integer divisions: the fewer they are, the less is
lost.

Main results: `near_iff` and `not_early_of_reaches`.
-/

open List Option

namespace Rtc

/-- The clock. -/
structure Clock where
  msecCounter : UInt64
  tickCounter : UInt32
  lastResync : UInt64
  resyncFlag : Bool
  bootMsec : UInt64
  deriving DecidableEq, Repr

/-- `ResyncRate`. -/
def resyncRate : UInt64 := 5000

/-- A number of rounds that is enough for `epoch2datetime`. -/
def enoughRounds : ℕ := 2 ^ 31 + 1

namespace Clock

variable (s : Clock)

/-- `update_msec_counter`. -/
def updateMsecCounter : Clock :=
  -- 1024 ticks in a second: one in 42 is left out, and one in 1000 of the others
  let diff42 := s.tickCounter / 42
  let ticks := s.tickCounter - diff42
  let diff1000 := ticks / 1000
  let ticks := ticks - diff1000
  let msec := s.msecCounter + ticks.toUInt64
  { s with
    msecCounter := msec
    tickCounter := 0
    resyncFlag := s.resyncFlag || decide (msec - s.lastResync > resyncRate) }

/-- The clock after `get_msecs`, which returns its `msecCounter`. -/
def getMsecs : Clock := if s.tickCounter ≠ 0 then s.updateMsecCounter else s

/-- The part of `rtc_irq_handler` for the periodic interrupt. -/
def tick : Clock :=
  -- the counter would overflow: what has been counted is added up first
  if s.tickCounter = 0xFFFFFFFF then { s.updateMsecCounter with tickCounter := 1 }
  else { s with tickCounter := s.tickCounter + 1 }

/-- `resync_clock`; `rtcTime` is what `get_rtc_time` returns. -/
def resyncClock (rtcTime : Datetime) : Option Clock := do
  let rtcEpoch ← datetime2epoch rtcTime
  -- `current_datetime` reads the clock
  let s := s.getMsecs
  let current ← epoch2datetime enoughRounds (s.bootMsec + s.msecCounter)
  let assEpoch ← datetime2epoch current
  let msec :=
    if assEpoch > rtcEpoch then
      let diff := assEpoch - rtcEpoch
      if s.msecCounter > diff then s.msecCounter - diff else 0
    else s.msecCounter + (rtcEpoch - assEpoch)
  some { s with msecCounter := msec, lastResync := msec, resyncFlag := false }

end Clock

/-- What happens to the clock. An interrupt with both causes is a `tick` and then an `update`. -/
inductive Action where
  | tick
  | getMsecs
  /-- The interrupt at the end of an update of the real-time clock. -/
  | update (rtcTime : Datetime)
  deriving DecidableEq, Repr

/-- The clock, from one of the given states on. -/
def clock (started : Clock → Prop) : System Clock Action where
  init := started
  step s
    | .tick => some s.tick
    | .getMsecs => some s.getMsecs
    | .update rtcTime => if s.resyncFlag then s.resyncClock rtcTime else some s

/-! ## The rate of the clock -/

/-- The milliseconds that a number of ticks is taken for. -/
def millis (ticks : ℕ) : ℕ := ticks - ticks / 42 - (ticks - ticks / 42) / 1000

namespace Clock

variable {s : Clock}

lemma msecCounter_updateMsecCounter :
    s.updateMsecCounter.msecCounter = s.msecCounter + .ofNat (millis s.tickCounter.toNat) := by
  have hdiv : (s.tickCounter / 42).toNat = s.tickCounter.toNat / 42 := UInt32.toNat_div _ _
  have hsub : (s.tickCounter - s.tickCounter / 42).toNat =
      s.tickCounter.toNat - s.tickCounter.toNat / 42 := by
    rw [UInt32.toNat_sub_of_le _ _ (UInt32.le_iff_toNat_le.mpr (hdiv ▸ Nat.div_le_self _ _)), hdiv]
  have hdiv' : ((s.tickCounter - s.tickCounter / 42) / 1000).toNat =
      (s.tickCounter.toNat - s.tickCounter.toNat / 42) / 1000 := by
    rw [UInt32.toNat_div, hsub]
    rfl
  have hmillis : (s.tickCounter - s.tickCounter / 42 -
      (s.tickCounter - s.tickCounter / 42) / 1000).toNat = millis s.tickCounter.toNat := by
    rw [UInt32.toNat_sub_of_le, hsub, hdiv', millis]
    rw [UInt32.le_iff_toNat_le, hdiv', hsub]
    exact Nat.div_le_self _ _
  rw [← hmillis, UInt64.ofNat_uInt32ToNat]
  rfl

lemma msecCounter_getMsecs :
    s.getMsecs.msecCounter = s.msecCounter + .ofNat (millis s.tickCounter.toNat) := by
  unfold getMsecs
  split
  · exact msecCounter_updateMsecCounter
  · rename_i hzero
    rw [not_not.mp hzero]
    exact (UInt64.add_zero _).symm

lemma tickCounter_getMsecs : s.getMsecs.tickCounter = 0 := by
  unfold getMsecs
  split
  · rfl
  · rename_i hzero
    exact not_not.mp hzero

lemma tick_eq (h : s.tickCounter.toNat < 2 ^ 32 - 1) :
    s.tick = { s with tickCounter := s.tickCounter + 1 } ∧
      s.tick.tickCounter.toNat = s.tickCounter.toNat + 1 := by
  have hne : s.tickCounter ≠ 0xFFFFFFFF := by
    rintro heq
    rw [heq] at h
    exact absurd h (by decide)
  have htick : s.tick = { s with tickCounter := s.tickCounter + 1 } := if_neg hne
  refine ⟨htick, ?_⟩
  rw [htick]
  rw [UInt32.toNat_add, UInt32.toNat_one, Nat.mod_eq_of_lt (by omega)]

/-- After `k` ticks, the milliseconds since `m`, the ticks that are not counted yet and those that
were lost, each of them for 42 others. -/
def Counts (m : UInt64) (k : ℕ) (s : Clock) : Prop :=
  ∃ lost, s.msecCounter + .ofNat (s.tickCounter.toNat + lost) = m + .ofNat k ∧
    42 * lost + s.tickCounter.toNat ≤ k

variable {m : UInt64} {k : ℕ}

lemma Counts.tick (h : s.Counts m k) (hk : k < 2 ^ 32 - 1) : s.tick.Counts m (k + 1) := by
  obtain ⟨lost, hsum, hle⟩ := h
  obtain ⟨htick, hcount⟩ := tick_eq (s := s) (by omega)
  refine ⟨lost, ?_, by omega⟩
  rw [hcount, htick]
  rw [Nat.add_right_comm, UInt64.ofNat_add, ← UInt64.add_assoc, hsum, UInt64.ofNat_add,
    UInt64.add_assoc]

lemma Counts.getMsecs (h : s.Counts m k) (hk : k < 1000) : s.getMsecs.Counts m k := by
  obtain ⟨lost, hsum, hle⟩ := h
  have hmillis : millis s.tickCounter.toNat + s.tickCounter.toNat / 42 = s.tickCounter.toNat := by
    unfold millis
    omega
  refine ⟨lost + s.tickCounter.toNat / 42, ?_, ?_⟩
  · rw [msecCounter_getMsecs, tickCounter_getMsecs, UInt64.add_assoc, ← UInt64.ofNat_add, ← hsum]
    refine congrArg (fun n => s.msecCounter + UInt64.ofNat n) ?_
    rw [UInt32.toNat_zero]
    omega
  · rw [tickCounter_getMsecs, UInt32.toNat_zero]
    omega

/-- A run of fewer than 1000 ticks. -/
lemma Counts.run {started : Clock → Prop} {as : List Action} (h : s.Counts m k)
    (hupdate : ∀ rtcTime, .update rtcTime ∉ as) (hcount : k + as.count .tick < 1000) :
    ∃ s', (clock started).run s as = some s' ∧ s'.Counts m (k + as.count .tick) := by
  -- over the actions, for every state that has counted `k` ticks before them
  induction as generalizing s k with
  | nil => exact ⟨s, rfl, h⟩
  | cons a as ih =>
    have hrest : ∀ rtcTime, .update rtcTime ∉ as := fun rtcTime hmem =>
      hupdate rtcTime (mem_cons_of_mem _ hmem)
    cases a with
    | tick =>
      rw [count_cons_self, ← Nat.add_assoc, Nat.add_right_comm] at hcount ⊢
      exact ih (h.tick (by omega)) hrest hcount
    | getMsecs =>
      rw [count_cons_of_ne (by decide)] at hcount ⊢
      exact ih (h.getMsecs (by omega)) hrest hcount
    | update rtcTime => exact absurd mem_cons_self (hupdate rtcTime)

end Clock

/-- The actions are `n` ticks and calls of `get_msecs`. -/
structure Interleaves (n : ℕ) (as : List Action) : Prop where
  count_eq : as.count .tick = n
  noUpdate : ∀ rtcTime, .update rtcTime ∉ as

/-- Two readings differ by at most two milliseconds. -/
def Near (a b : UInt64) : Prop := a - b ≤ 2 ∨ b - a ≤ 2

/-- Two runs from the same state read nearly the same. -/
def NearAfter (s : Clock) (as bs : List Action) : Prop :=
  ∃ a b, (clock fun _ => True).run s as = some a ∧ (clock fun _ => True).run s bs = some b ∧
    Near a.msecCounter b.msecCounter

variable {s : Clock} {n : ℕ} {as bs : List Action}

lemma Interleaves.append {k : ℕ} (ha : Interleaves n as)
    (hb : Interleaves k bs) : Interleaves (n + k) (as ++ bs) where
  count_eq := by rw [count_append, ha.count_eq, hb.count_eq]
  noUpdate rtcTime hmem :=
    (mem_append.mp hmem).elim (ha.noUpdate rtcTime) (hb.noUpdate rtcTime)

lemma interleaves_getMsecs : Interleaves 0 [.getMsecs] := ⟨rfl, by simp⟩

lemma interleaves_ticks (n : ℕ) : Interleaves n (replicate n .tick) where
  count_eq := count_replicate_self
  noUpdate _ hmem := nomatch (mem_replicate.mp hmem).2

/-- A call of `get_msecs` after each tick. -/
def each (n : ℕ) : List Action := (List.replicate n [.tick, .getMsecs]).flatten

lemma each_succ (n : ℕ) : each (n + 1) = [.tick, .getMsecs] ++ each n := rfl

lemma interleaves_each (n : ℕ) : Interleaves n (each n) := by
  induction n with
  | zero => exact ⟨rfl, fun _ => not_mem_nil⟩
  | succ n ih =>
    have hone : Interleaves 1 [.tick, .getMsecs] := ⟨rfl, by simp⟩
    rw [each_succ, Nat.add_comm]
    exact hone.append ih

/-- No tick is lost if each is followed by a call. -/
lemma run_each (hs : s.tickCounter = 0) (n : ℕ) : ∃ s',
    (clock fun _ => True).run s (each n) = some s' ∧ s'.tickCounter = 0 ∧
      s'.msecCounter = s.msecCounter + .ofNat n := by
  induction n generalizing s with
  | zero => exact ⟨s, rfl, hs, (UInt64.add_zero _).symm⟩
  | succ n ih =>
    obtain ⟨htick, hcount⟩ := Clock.tick_eq (by rw [hs, UInt32.toNat_zero]; norm_num)
    obtain ⟨s', hrun, hs', hmsec⟩ := ih (Clock.tickCounter_getMsecs)
    -- a single tick is below 42, so that it is one millisecond
    refine ⟨s', hrun, hs', ?_⟩
    rw [hmsec, Clock.msecCounter_getMsecs, hcount, htick, hs, Nat.add_comm n, UInt64.ofNat_add,
      ← UInt64.add_assoc]
    rfl

lemma run_ticks {n : ℕ} (hn : s.tickCounter.toNat + n < 2 ^ 32) : ∃ s',
    (clock fun _ => True).run s (replicate n .tick) = some s' ∧
      s'.tickCounter.toNat = s.tickCounter.toNat + n ∧ s'.msecCounter = s.msecCounter := by
  induction n generalizing s with
  | zero => exact ⟨s, rfl, rfl, rfl⟩
  | succ n ih =>
    obtain ⟨htick, hcount⟩ := Clock.tick_eq (s := s) (by omega)
    obtain ⟨s', hrun, hs', hmsec⟩ := ih (s := s.tick) (by omega)
    refine ⟨s', hrun, by omega, ?_⟩
    rw [hmsec, htick]

lemma sub_le_two {a b : UInt64} {x d : ℕ} (h : a + .ofNat x = b + .ofNat (x + d)) (hd : d ≤ 2) :
    a - b ≤ 2 := by
  have hsub : a - b = .ofNat d := by
    rw [UInt64.ofNat_add] at h
    grind
  rw [hsub]
  interval_cases d <;> decide

lemma near_of_add_eq {a b : UInt64} {x y : ℕ} (h : a + .ofNat x = b + .ofNat y) (hx : x ≤ 2)
    (hy : y ≤ 2) : Near a b := by
  rcases Nat.le_total x y with hle | hle
  · obtain ⟨d, rfl⟩ := Nat.exists_eq_add_of_le hle
    exact .inl (sub_le_two h (by omega))
  · obtain ⟨d, rfl⟩ := Nat.exists_eq_add_of_le hle
    exact .inr (sub_le_two h.symm (by omega))

lemma not_near_add_three (a : UInt64) : ¬ Near (a + 3) a := by
  rintro (h | h)
  · have hsub : a + 3 - a = 3 := by grind
    rw [hsub] at h
    exact absurd h (by decide)
  · have hsub : a - (a + 3) = -3 := by grind
    rw [hsub] at h
    exact absurd h (by decide)

lemma not_nearAfter {a b : Clock}
    (ha : (clock fun _ => True).run s as = some a) (hb : (clock fun _ => True).run s bs = some b)
    (hmsec : a.msecCounter = b.msecCounter + 3) : ¬ NearAfter s as bs := by
  rintro ⟨a', b', ha', hb', hnear⟩
  obtain rfl := some.inj (ha.symm.trans ha')
  obtain rfl := some.inj (hb.symm.trans hb')
  rw [hmsec] at hnear
  exact not_near_add_three _ hnear

lemma Clock.getMsecs_eq (hs : s.tickCounter = 0) : s.getMsecs = s := if_neg (not_not.mpr hs)

lemma run_append_getMsecs {as : List Action} {a : Clock}
    (ha : (clock fun _ => True).run s as = some a) :
    (clock fun _ => True).run s (as ++ [.getMsecs]) = some a.getMsecs := by
  rw [System.run_append, ha]
  rfl

/-- Of 126 ticks that wait, three are lost. -/
lemma exists_apart_126 (hs : s.tickCounter = 0) (k : ℕ) : ∃ as bs, Interleaves (126 + k) as ∧
    Interleaves (126 + k) bs ∧ ¬ NearAfter s (as ++ [.getMsecs]) (bs ++ [.getMsecs]) := by
  -- one way calls after every tick, the other one for the first time after 126
  obtain ⟨a, ha, hazero, hamsec⟩ := run_each hs (126 + k)
  have hroom : s.tickCounter.toNat + 126 < 2 ^ 32 := by
    rw [hs, UInt32.toNat_zero]
    norm_num
  obtain ⟨b1, hb1, hb1tick, hb1msec⟩ := run_ticks hroom
  obtain ⟨b, hb, hbzero, hbmsec⟩ := run_each (Clock.tickCounter_getMsecs) k
  have hbrun : (clock fun _ => True).run s (replicate 126 .tick ++ ([.getMsecs] ++ each k)) =
      some b := by
    rw [System.run_append, hb1]
    exact hb
  have hinterleaves : Interleaves (126 + k) (replicate 126 .tick ++ ([.getMsecs] ++ each k)) := by
    have hrest := interleaves_getMsecs.append (interleaves_each k)
    rw [Nat.zero_add] at hrest
    exact (interleaves_ticks 126).append hrest
  refine ⟨_, _, interleaves_each _, hinterleaves,
    not_nearAfter (run_append_getMsecs ha) (run_append_getMsecs hbrun) ?_⟩
  -- 126 ticks at once are taken for 123 milliseconds
  have hmillis : millis 126 = 123 := by decide
  have hsum : UInt64.ofNat 126 = UInt64.ofNat 123 + 3 := by decide
  rw [Clock.getMsecs_eq hazero, Clock.getMsecs_eq hbzero, hamsec, hbmsec,
    Clock.msecCounter_getMsecs, hb1msec, hb1tick, hs, UInt32.toNat_zero, Nat.zero_add, hmillis,
    UInt64.ofNat_add, hsum]
  grind

/-- Three ticks that wait at the end are not counted. -/
lemma exists_apart_three (hs : s.tickCounter = 0) (k : ℕ) : ∃ as bs, Interleaves (k + 3) as ∧
    Interleaves (k + 3) bs ∧ ¬ NearAfter s as bs := by
  -- one way calls after every tick, the other one not after the last three
  obtain ⟨a, ha, -, hamsec⟩ := run_each hs (k + 3)
  obtain ⟨b1, hb1, hb1zero, hb1msec⟩ := run_each hs k
  obtain ⟨b, hb, -, hbmsec⟩ := run_ticks (n := 3) (by rw [hb1zero, UInt32.toNat_zero]; norm_num)
  have hbrun : (clock fun _ => True).run s (each k ++ replicate 3 .tick) = some b := by
    rw [System.run_append, hb1]
    exact hb
  refine ⟨each (k + 3), each k ++ List.replicate 3 .tick, interleaves_each _,
    (interleaves_each k).append (interleaves_ticks 3), not_nearAfter ha hbrun ?_⟩
  rw [hamsec, hbmsec, hb1msec, UInt64.ofNat_add, ← UInt64.add_assoc]
  rfl

/-- From a state without ticks that wait, the clock reads nearly the same after `n` ticks if and
only if there are fewer than 126, or fewer than three if there may be ticks that wait at the end. -/
theorem near_iff (hs : s.tickCounter = 0) (n : ℕ) :
    ((∀ as bs, Interleaves n as → Interleaves n bs →
      NearAfter s (as ++ [.getMsecs]) (bs ++ [.getMsecs])) ↔ n < 126) ∧
    ((∀ as bs, Interleaves n as → Interleaves n bs → NearAfter s as bs) ↔ n < 3) := by
  -- in fewer than 126 ticks at most two are lost, in whatever way they are interleaved
  have hstart : s.Counts s.msecCounter 0 := ⟨0, by rw [hs]; rfl, by rw [hs]; rfl⟩
  have hrun : ∀ as, Interleaves n as → n < 126 →
      ∃ s', (clock fun _ => True).run s as = some s' ∧ s'.Counts s.msecCounter n := by
    intro as has hn
    obtain ⟨s', hs', hcounts⟩ := hstart.run has.noUpdate (by rw [has.count_eq]; omega)
    rw [has.count_eq, Nat.zero_add] at hcounts
    exact ⟨s', hs', hcounts⟩
  refine ⟨⟨fun h => ?_, fun hn as bs has hbs => ?_⟩, fun h => ?_, fun hn as bs has hbs => ?_⟩
  · by_contra hn
    obtain ⟨k, rfl⟩ := Nat.exists_eq_add_of_le (not_lt.mp hn)
    obtain ⟨as, bs, has, hbs, hnot⟩ := exists_apart_126 hs k
    exact hnot (h as bs has hbs)
  · obtain ⟨a, ha, hacounts⟩ := hrun as has hn
    obtain ⟨b, hb, hbcounts⟩ := hrun bs hbs hn
    obtain ⟨x, hx, hxle⟩ := hacounts.getMsecs (by omega)
    obtain ⟨y, hy, hyle⟩ := hbcounts.getMsecs (by omega)
    -- Nothing waits any more: all that is missing was lost.
    rw [Clock.tickCounter_getMsecs, UInt32.toNat_zero, Nat.zero_add] at hx hy
    exact ⟨_, _, run_append_getMsecs ha, run_append_getMsecs hb,
      near_of_add_eq (hx.trans hy.symm) (by omega) (by omega)⟩
  · by_contra hn
    obtain ⟨k, rfl⟩ := Nat.exists_eq_add_of_le' (not_lt.mp hn)
    obtain ⟨as, bs, has, hbs, hnot⟩ := exists_apart_three hs k
    exact hnot (h as bs has hbs)
  · obtain ⟨a, ha, x, hx, hxle⟩ := hrun as has (by omega)
    obtain ⟨b, hb, y, hy, hyle⟩ := hrun bs hbs (by omega)
    exact ⟨a, b, ha, hb, near_of_add_eq (hx.trans hy.symm) (by omega) (by omega)⟩

/-- The clock when the computer has started. -/
def booted : Clock := ⟨0, 0, 0, false, 86400000⟩

theorem near_booted :
    NearAfter booted (each 125 ++ [.getMsecs]) (replicate 125 .tick ++ [.getMsecs]) :=
  (near_iff rfl 125).1.mpr (by norm_num) _ _ (interleaves_each 125) (interleaves_ticks 125)

/-- After 126 ticks, the clock reads 126 or 123. -/
theorem exists_not_near : ∃ n as bs, Interleaves n as ∧ Interleaves n bs ∧
    ¬ NearAfter booted (as ++ [.getMsecs]) (bs ++ [.getMsecs]) :=
  ⟨126, exists_apart_126 rfl 0⟩

/-! ## Sleep -/

/-- `rtc_sleep_blockcheck`, for a sleep that has started at `start`. -/
def rtcSleepBlockcheck (start : UInt64) (duration : UInt32) (s : Clock) : Bool :=
  decide (s.getMsecs.msecCounter - start ≥ duration.toUInt64)

/-- The clock after `rtc_sleep` has read it. -/
def SleepsFrom (start : UInt64) (s : Clock) : Prop :=
  ∃ before : Clock, s = before.getMsecs ∧ s.msecCounter = start

namespace Clock

/-- The time that the clock shows, in whole seconds. -/
def shown (s : Clock) : UInt64 := (s.bootMsec + s.msecCounter) / 1000 * 1000

/-- What `resync_clock` makes of the clock. -/
def resynced (s : Clock) (rtcEpoch : UInt64) : UInt64 :=
  if s.shown > rtcEpoch then
    if s.msecCounter > s.shown - rtcEpoch then s.msecCounter - (s.shown - rtcEpoch) else 0
  else s.msecCounter + (rtcEpoch - s.shown)

lemma resyncClock_eq (rtcTime : Datetime) :
    s.resyncClock rtcTime = (datetime2epoch rtcTime).map fun rtcEpoch =>
      { s.getMsecs with
        msecCounter := s.getMsecs.resynced rtcEpoch
        lastResync := s.getMsecs.resynced rtcEpoch
        resyncFlag := false } := by
  -- the date of the clock, read back, is its time in whole seconds
  obtain ⟨t, -, hrounds, hback⟩ := exists_date (s.getMsecs.bootMsec + s.getMsecs.msecCounter)
  unfold resyncClock
  cases datetime2epoch rtcTime with
  | none => rfl
  | some rtcEpoch =>
    show (epoch2datetime enoughRounds (s.getMsecs.bootMsec + s.getMsecs.msecCounter)).bind _ = _
    rw [hrounds enoughRounds (by decide), bind_some]
    rw [hback]
    rfl

/-- The milliseconds do not exceed 64 bits. -/
def Fits (s : Clock) : Prop := s.msecCounter.toNat + millis s.tickCounter.toNat < 2 ^ 64

lemma toNat_getMsecs (h : s.Fits) : s.getMsecs.msecCounter.toNat =
    s.msecCounter.toNat + millis s.tickCounter.toNat := by
  unfold Fits at h
  have hmillis : millis s.tickCounter.toNat < 2 ^ 64 := by omega
  rw [msecCounter_getMsecs, UInt64.toNat_add, UInt64.toNat_ofNat_of_lt' hmillis,
    Nat.mod_eq_of_lt (by omega)]

lemma le_getMsecs (h : s.Fits) : s.msecCounter.toNat ≤ s.getMsecs.msecCounter.toNat :=
  (toNat_getMsecs h).symm ▸ Nat.le_add_right _ _

lemma le_tick (h : s.Fits) : s.msecCounter.toNat ≤ s.tick.msecCounter.toNat := by
  unfold tick
  split
  · rename_i hmax
    -- the counter is full: this tick does what `get_msecs` does
    have hget : s.getMsecs = s.updateMsecCounter := if_pos (by rw [hmax]; decide)
    have hle := le_getMsecs h
    rwa [hget] at hle
  · exact le_rfl

end Clock

/-- The clock is not put back behind the start of the sleep. -/
def Action.Ahead (start : UInt64) (s : Clock) : Action → Prop
  | .tick | .getMsecs => s.Fits
  | .update rtcTime => s.resyncFlag = true → s.Fits ∧ ∀ rtcEpoch ∈ datetime2epoch rtcTime,
      if s.getMsecs.shown > rtcEpoch then start = 0 ∨
        start.toNat + (s.getMsecs.shown.toNat - rtcEpoch.toNat) ≤ s.getMsecs.msecCounter.toNat
      else s.getMsecs.msecCounter.toNat + (rtcEpoch.toNat - s.getMsecs.shown.toNat) < 2 ^ 64

lemma Clock.le_resynced {start rtcEpoch : UInt64} (hstart : start.toNat ≤ s.msecCounter.toNat)
    (h : if s.shown > rtcEpoch then start = 0 ∨
        start.toNat + (s.shown.toNat - rtcEpoch.toNat) ≤ s.msecCounter.toNat
      else s.msecCounter.toNat + (rtcEpoch.toNat - s.shown.toNat) < 2 ^ 64) :
    start.toNat ≤ (s.resynced rtcEpoch).toNat := by
  unfold resynced
  split at h
  · rename_i hback
    have hsub : (s.shown - rtcEpoch).toNat = s.shown.toNat - rtcEpoch.toNat :=
      UInt64.toNat_sub_of_le _ _ (UInt64.le_of_lt hback)
    rcases h with rfl | h
    · exact Nat.zero_le _
    rw [if_pos hback]
    split
    · rename_i hgt
      rw [UInt64.toNat_sub_of_le _ _ (UInt64.le_of_lt hgt), hsub]
      omega
    · rename_i hgt
      -- the clock is set to zero, so that the sleep has started at zero
      rw [gt_iff_lt, UInt64.lt_iff_toNat_lt, hsub] at hgt
      rw [UInt64.toNat_zero]
      omega
  · rename_i hback
    have hle : s.shown ≤ rtcEpoch := UInt64.not_lt.mp hback
    have hsub : (rtcEpoch - s.shown).toNat = rtcEpoch.toNat - s.shown.toNat :=
      UInt64.toNat_sub_of_le _ _ hle
    rw [if_neg hback, UInt64.toNat_add, hsub, Nat.mod_eq_of_lt h]
    omega

lemma le_of_step {start : UInt64} {s' : Clock} {a : Action} {started : Clock → Prop}
    (hstart : start.toNat ≤ s.msecCounter.toNat) (ha : a.Ahead start s)
    (hstep : (clock started).step s a = some s') : start.toNat ≤ s'.msecCounter.toNat := by
  cases a with
  | tick =>
    cases hstep
    exact hstart.trans (Clock.le_tick ha)
  | getMsecs =>
    cases hstep
    exact hstart.trans (Clock.le_getMsecs ha)
  | update rtcTime =>
    change (if s.resyncFlag = true then s.resyncClock rtcTime else some s) = some s' at hstep
    split at hstep
    · rename_i hflag
      obtain ⟨hfits, hahead⟩ := ha hflag
      rw [Clock.resyncClock_eq, map_eq_some_iff] at hstep
      obtain ⟨rtcEpoch, hepoch, rfl⟩ := hstep
      exact Clock.le_resynced (hstart.trans (Clock.le_getMsecs hfits)) (hahead rtcEpoch hepoch)
    · cases hstep
      exact hstart

/-- A sleep does not end early in a run in which the clock is not put back behind its start. -/
theorem not_early_of_reaches {start : UInt64} {duration : UInt32}
    (hs : (clock (SleepsFrom start)).Reaches (fun s a => a.Ahead start s) s) (hread : s.Fits)
    (hcheck : rtcSleepBlockcheck start duration s = true) :
    start.toNat + duration.toNat ≤ s.getMsecs.msecCounter.toNat := by
  have hstart : start.toNat ≤ s.msecCounter.toNat := by
    refine hs.invariant (P := fun s => start.toNat ≤ s.msecCounter.toNat) ?_ ?_
    · rintro s ⟨before, -, rfl⟩
      exact le_rfl
    · exact fun _ _ _ hstart ha hstep => le_of_step hstart ha hstep
  have hle := hstart.trans (Clock.le_getMsecs hread)
  have hcheck := of_decide_eq_true hcheck
  rw [ge_iff_le, UInt64.le_iff_toNat_le, UInt32.toNat_toUInt64,
    UInt64.toNat_sub_of_le _ _ (UInt64.le_iff_toNat_le.mpr hle)] at hcheck
  omega

instance (s : Clock) : Decidable s.Fits := inferInstanceAs (Decidable (_ < _))

instance (start : UInt64) (s : Clock) : (a : Action) → Decidable (a.Ahead start s)
  | .tick | .getMsecs => inferInstanceAs (Decidable s.Fits)
  | .update rtcTime =>
    -- the bounded quantifier by its one value, not by all of `UInt64`
    @forall_prop_decidable _ _ _ fun _ =>
      @instDecidableAnd _ _ _ (Option.decidableForallMem (datetime2epoch rtcTime))

/-- Ten seconds after it has started, the clock is to be compared with the real-time clock. -/
def tenSeconds : Clock := { booted with msecCounter := 10000, resyncFlag := true }

/-- The first day of 2000, so many seconds after midnight. -/
def newYear (second : Int32) : Datetime := ⟨1, 1, 2000, 0, 0, second⟩

lemma sleepsFrom_tenSeconds : SleepsFrom 10000 tenSeconds := ⟨tenSeconds, rfl, rfl⟩

/-- The clock is put forward by two seconds. -/
theorem not_early_forward : ∃ s,
    (clock (SleepsFrom 10000)).Reaches (fun s a => a.Ahead 10000 s) s ∧
      rtcSleepBlockcheck 10000 1000 s = true ∧ 10000 + 1000 ≤ s.getMsecs.msecCounter.toNat := by
  have hrun : (((clock (SleepsFrom 10000)).guarded fun s a => a.Ahead 10000 s).run tenSeconds
      [.tick, .tick, .update (newYear 12), .tick]).any
      (fun s => rtcSleepBlockcheck 10000 1000 s && decide s.Fits) = true := by
    decide
  obtain ⟨s, hs, hcheck⟩ := (any_eq_true _ _).mp hrun
  rw [Bool.and_eq_true, decide_eq_true_eq] at hcheck
  have hreach := System.reaches_of_run_guarded (.init sleepsFrom_tenSeconds) hs
  exact ⟨s, hreach, hcheck.1, not_early_of_reaches hreach hcheck.2 hcheck.1⟩

/-- The clock is put back by five seconds, and a sleep of a minute ends. -/
theorem exists_early : ∃ s, (clock (SleepsFrom 10000)).Reachable s ∧
    (rtcSleepBlockcheck 10000 60000 s && decide (s.getMsecs.msecCounter = 5000)) = true := by
  have hrun : ((clock (SleepsFrom 10000)).run tenSeconds [.update (newYear 5)]).any
      (fun s => rtcSleepBlockcheck 10000 60000 s && decide (s.getMsecs.msecCounter = 5000)) =
        true := by
    decide
  exact System.exists_reachable_of_run sleepsFrom_tenSeconds hrun

end Rtc
