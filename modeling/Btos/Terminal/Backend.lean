import Btos.Lib.Loop
import Btos.Util.Map

/-!
# The console backend

* `console_backend::close`: another terminal is activated in place of one that was active, and the
  global shortcuts of the terminal are erased, one in each round of a loop.
* The button events that `console_backend_pointer_thread` queues for the active terminal.
-/

open List

namespace Terminal

/-! ## Closing a terminal -/

/-- A table of global shortcuts: key codes with the ids of terminals. -/
abbrev Shortcuts := Ministl.Map UInt16 UInt64

/-- What `close` uses of the backend and of the list of terminals. -/
structure ConsoleBackend where
  active : UInt64
  terminals : List UInt64
  /-- The id that was given last. -/
  lastId : UInt64
  globalShortcuts : Shortcuts

/-- The `for` loop: the first shortcut of the terminal is erased. -/
def eraseShortcut (id : UInt64) (m : Shortcuts) : Option Shortcuts :=
  ((List.range m.size).find? fun i => (m.data i).2 = id).map m.eraseAt

/-- A round of the `do` loop. Nothing sets `found` back. -/
def closeRound (id : UInt64) (s : Bool × Shortcuts) : Bool × Shortcuts :=
  match eraseShortcut id s.2 with
  | some m => (true, m)
  | none => s

/-- The rounds after the first one, `while(found)`. -/
def closeLoop (id : UInt64) : ℕ → Bool × Shortcuts → Option (Bool × Shortcuts) :=
  Loop.whileDo (fun s => some s.1) fun s => some (closeRound id s)

namespace ConsoleBackend

variable (b : ConsoleBackend) (id : UInt64)

/-- The first terminal is activated, or a new one if there is none. -/
def activateOther : ConsoleBackend :=
  match b.terminals with
  | term :: _ => { b with active := term }
  | [] => { b with active := b.lastId + 1, terminals := [b.lastId + 1], lastId := b.lastId + 1 }

/-- `close`, if the loop ends within `rounds` rounds after the first one. -/
def close (rounds : ℕ) : Option ConsoleBackend :=
  let b' := if b.active = id then b.activateOther else b
  (closeLoop id rounds (closeRound id (false, b.globalShortcuts))).map fun s =>
    { b' with globalShortcuts := s.2 }

/-- `close` returns, with the shortcuts of the other terminals and no others. -/
def Closes : Prop :=
  ∃ rounds b', b.close id rounds = some b' ∧ (∀ e ∈ b'.globalShortcuts.entries, e.2 ≠ id) ∧
    b'.globalShortcuts.entries.filter (·.2 ≠ id) = b.globalShortcuts.entries.filter (·.2 ≠ id)

end ConsoleBackend

variable {id : UInt64} {m : Shortcuts}

lemma eraseShortcut_eq_none : eraseShortcut id m = none ↔ ∀ e ∈ m.entries, e.2 ≠ id := by
  simp [eraseShortcut, Ministl.Map.entries]

lemma closeRound_found (id : UInt64) (m : Shortcuts) : (closeRound id (true, m)).1 = true := by
  unfold closeRound
  split <;> rfl

/-- Once a shortcut was found, the loop goes on for ever. -/
lemma closeLoop_found (rounds : ℕ) {s : Bool × Shortcuts} (hs : s.1 = true) :
    closeLoop id rounds s = none := by
  induction rounds generalizing s with
  | zero => rfl
  | succ rounds ih =>
    -- whatever a round does, `found` is still set after it
    obtain ⟨_, m⟩ := s
    obtain rfl : _ = true := hs
    exact ih (closeRound_found id m)

lemma close_eq_none (b : ConsoleBackend) {e : UInt16 × UInt64}
    (he : e ∈ b.globalShortcuts.entries) (hid : e.2 = id) (rounds : ℕ) :
    b.close id rounds = none := by
  have hfound : (closeRound id (false, b.globalShortcuts)).1 = true := by
    unfold closeRound
    split
    · rfl
    · next hnone => exact absurd hid (eraseShortcut_eq_none.mp hnone e he)
  rw [ConsoleBackend.close, closeLoop_found rounds hfound]
  rfl

/-- `close` does what it is for just when the terminal has no shortcut, and it has nothing to do. -/
theorem closes_iff (b : ConsoleBackend) (id : UInt64) :
    b.Closes id ↔ ∀ e ∈ b.globalShortcuts.entries, e.2 ≠ id := by
  constructor
  · rintro ⟨rounds, b', hclose, -⟩ e he hid
    rw [close_eq_none b he hid] at hclose
    cases hclose
  · intro hnone
    have hround : closeRound id (false, b.globalShortcuts) = (false, b.globalShortcuts) := by
      rw [closeRound, eraseShortcut_eq_none.mpr hnone]
    have hclose : b.close id 1 = some { if b.active = id then b.activateOther else b with
        globalShortcuts := b.globalShortcuts } := by
      rw [ConsoleBackend.close, hround]
      rfl
    exact ⟨1, _, hclose, hnone, rfl⟩

/-- A terminal with one shortcut is never closed. -/
theorem not_closes_shortcut :
    ¬ (⟨1, [1, 2], 2, (Ministl.Map.empty fun _ => (0, 0)).set 59 2⟩ : ConsoleBackend).Closes 2 := by
  rintro ⟨rounds, b', hclose, -⟩
  rw [close_eq_none _ (e := (59, 2)) (by decide) rfl] at hclose
  cases hclose

/-! ## The buttons of the pointer -/

/-- A mouse packet, and whether there is an active terminal when it comes. -/
structure Packet where
  flags : ℕ
  term : Bool

/-- The button event of `console_backend_pointer_thread`: `ButtonDown` or not, and the button. Flags
that are equal differ by 0. -/
def buttonEvent (oldflags flags : ℕ) : Option (Bool × ℕ) :=
  let diff := if flags > oldflags then flags - oldflags else oldflags - flags
  if diff = 1 then some (flags > oldflags, 1)
  else if diff = 2 then some (flags > oldflags, 2)
  else if diff = 4 then some (flags > oldflags, 3)
  else none

/-- The buttons that are down after an event, as bits. -/
def replay (held : ℕ) : Option (Bool × ℕ) → ℕ
  | none => held
  | some (true, button) => held ||| 2 ^ (button - 1)
  | some (false, button) => held ^^^ (held &&& 2 ^ (button - 1))

/-- The events queued so far give the five buttons of each packet. -/
def Tracks (oldflags held : ℕ) : List Packet → Prop
  | [] => True
  | p :: ps =>
      let held := if p.term then replay held (buttonEvent oldflags p.flags) else held
      held = p.flags % 32 ∧ Tracks p.flags held ps

/-- No button changes, or nothing but one of the first three and it is reported. -/
def OneChange (p q : Packet) : Prop :=
  q.flags % 32 = p.flags % 32 ∨
    q.term = true ∧ ∃ b ∈ [1, 2, 4], q.flags = p.flags ||| b ∨ p.flags = q.flags ||| b

lemma or_eq {b : ℕ} (hb : b < 32) (x : ℕ) : x ||| b = 32 * (x / 32) + (x % 32 ||| b) := by
  have hdiv : (x ||| b) / 32 = x / 32 ||| b / 32 := Nat.or_div_two_pow (n := 5)
  have hmod : (x ||| b) % 32 = x % 32 ||| b % 32 := Nat.or_mod_two_pow (n := 5)
  rw [Nat.div_eq_of_lt hb, Nat.or_zero] at hdiv
  rw [Nat.mod_eq_of_lt hb] at hmod
  rw [← hmod, ← hdiv, Nat.div_add_mod]

/-- A sum with a single bit has that bit set where nothing is carried. -/
lemma or_cases : ∀ r < 32, ∀ b ∈ [1, 2, 4],
    (r ||| b = r ∨ r ||| b = r + b) ∧ (r ||| b = (r + b) % 32 ↔ r ||| b = r + b) ∧
      ((r + b) % 32 ^^^ ((r + b) % 32 &&& b) = r ↔ r ||| b = r + b) := by
  decide

lemma bit_bounds {b : ℕ} (hb : b ∈ [1, 2, 4]) : 0 < b ∧ b < 32 := by
  revert b
  decide

lemma or_bit_iff {b x y : ℕ} (hb : b ∈ [1, 2, 4]) (hne : x ≠ y) :
    x = y ||| b ↔ x = y + b ∧ y % 32 ||| b = y % 32 + b := by
  have hr := (or_cases (y % 32) (Nat.mod_lt _ (by decide)) b hb).1
  rw [or_eq (bit_bounds hb).2]
  omega

/-- Flags that differ by a bit change that button and no other exactly if it is not carried. -/
lemma change_iff {b y : ℕ} (hb : b ∈ [1, 2, 4]) :
    ((y + b) % 32 = y % 32 ∨ ∃ c ∈ [1, 2, 4], y + b = y ||| c ∨ y = y + b ||| c) ↔
      y % 32 ||| b = y % 32 + b := by
  have hbounds := bit_bounds hb
  constructor
  · rintro (heq | ⟨c, hc, heq | heq⟩)
    · omega
    · rw [or_bit_iff hc (by omega)] at heq
      obtain rfl : b = c := by omega
      exact heq.2
    · rw [or_bit_iff hc (by omega)] at heq
      omega
  · exact fun heq => .inr ⟨b, hb, .inl ((or_bit_iff hb (by omega)).mpr ⟨rfl, heq⟩)⟩

lemma replay_buttonEvent (held y : ℕ) : ∀ b ∈ [1, 2, 4],
    replay held (buttonEvent y (y + b)) = held ||| b ∧
      replay held (buttonEvent (y + b) y) = held ^^^ (held &&& b) := by
  simp [buttonEvent, replay]

/-- One packet: what is queued for it gives its buttons exactly if at most one button changes. -/
lemma replay_iff (old new : ℕ) : replay (old % 32) (buttonEvent old new) = new % 32 ↔
    new % 32 = old % 32 ∨ ∃ b ∈ [1, 2, 4], new = old ||| b ∨ old = new ||| b := by
  have hr (y : ℕ) := or_cases (y % 32) (Nat.mod_lt _ (by decide))
  -- the flags differ by one of the bits, up or down, or else nothing is queued
  by_cases hup : ∃ b ∈ [1, 2, 4], new = old + b
  · obtain ⟨b, hb, rfl⟩ := hup
    rw [change_iff hb, (replay_buttonEvent _ _ b hb).1, ← Nat.mod_add_mod]
    exact (hr old b hb).2.1
  by_cases hdown : ∃ b ∈ [1, 2, 4], old = new + b
  · obtain ⟨b, hb, rfl⟩ := hdown
    have hchange := change_iff (y := new) hb
    rw [eq_comm] at hchange
    simp only [or_comm (a := new + b = _)] at hchange
    rw [hchange, (replay_buttonEvent _ _ b hb).2, ← Nat.mod_add_mod]
    exact (hr new b hb).2.2
  · have hnone : replay (old % 32) (buttonEvent old new) = old % 32 := by
      simp only [mem_cons, not_mem_nil, or_false, exists_eq_or_imp, exists_eq_left] at hup hdown
      have hdiff : buttonEvent old new = none := by
        unfold buttonEvent
        grind
      rw [hdiff, replay]
    rw [hnone, eq_comm, or_iff_left_of_imp]
    rintro ⟨b, hb, heq⟩
    by_contra hne
    have hne : new ≠ old := fun heq => hne (heq ▸ rfl)
    rw [or_bit_iff hb hne, or_bit_iff hb hne.symm] at heq
    exact heq.elim (fun heq => hup ⟨b, hb, heq.1⟩) fun heq => hdown ⟨b, hb, heq.1⟩

lemma tracks_iff_isChain (ps : List Packet) (p : Packet) :
    Tracks p.flags (p.flags % 32) ps ↔ (p :: ps).IsChain OneChange := by
  induction ps generalizing p with
  | nil => simp [Tracks]
  | cons q ps ih =>
    -- what has been replayed so far are the buttons of `p`
    have hstep : (if q.term then replay (p.flags % 32) (buttonEvent p.flags q.flags)
        else p.flags % 32) = q.flags % 32 ↔ OneChange p q := by
      rw [OneChange]
      cases q.term with
      | false => simp [eq_comm]
      | true => simpa using replay_iff p.flags q.flags
    rw [isChain_cons_cons, ← ih, Tracks, hstep]
    refine and_congr_right fun hone => ?_
    rw [hstep.mpr hone]

/-- The queued events give the buttons after every packet exactly if each packet changes no button,
or one of the first three alone. -/
theorem tracks_iff (ps : List Packet) : Tracks 0 0 ps ↔ (⟨0, true⟩ :: ps).IsChain OneChange :=
  tracks_iff_isChain ps ⟨0, true⟩

/-- Two buttons that go down together are not reported. -/
theorem not_tracks_both : ¬ Tracks 0 0 [⟨3, true⟩] := by
  rintro ⟨hheld, -⟩
  revert hheld
  decide

end Terminal
