import Btos.Memory.Physical

/-!
# The rotating search of `physical_alloc`

`physical_alloc` looks for a free page from the one below `lastidx` down, goes on at the end of
the array and stops where it started.
The index where the search started is never looked at, unless it is the last one; then the search
does not notice that it has come around.

Main result: `allocComplete_iff`.
-/

namespace Memory

namespace Physical

/-- How `physical_alloc` ends. -/
inductive AllocEnd where
  /-- It returns a page. -/
  | returns (r : PageRef) (ph : Physical)
  /-- It panics. -/
  | panics
  /-- It reads behind the end of the array. -/
  | outside
  deriving DecidableEq, Repr

variable (ph : Physical) (maxAddr : Word)

/-- The test of `physical_alloc`. -/
def suitable (pg : PhysPage) : Bool := pg.hasStatus .free && pg.address < maxAddr

/-- The array has a page at this index that `physical_alloc` may return. -/
def Suitable (i : ℕ) : Prop := (ph.pages[i]?).any (suitable maxAddr) = true

instance (i : ℕ) : Decidable (ph.Suitable maxAddr i) := inferInstanceAs (Decidable (_ = true))

/-- What `physical_alloc` leaves when it returns the page at an index. -/
def take (i : ℕ) : Physical :=
  { ph.setStatus i .inUse with lastidx := i, freePages := ph.freePages - 1 }

/-- The loop of `physical_alloc` from `idx` on. `none` means that it has not ended after so many
rounds. -/
def allocRounds : ℕ → ℕ → Option AllocEnd
  | 0, _ => none
  | n + 1, idx =>
      if idx = ph.lastidx then some .panics
      else
        let idx := if idx > ph.pages.length then ph.pages.length - 1 else idx
        match ph.pages[idx]? with
        | none => some .outside
        | some pg =>
            if suitable maxAddr pg then some (.returns (.ram idx) (ph.take idx))
            else allocRounds n (decIdx idx)

/-- `physical_alloc`, in at most `n` rounds of its loop. -/
def allocWithin (n : ℕ) : Option AllocEnd := ph.allocRounds maxAddr n (decIdx ph.lastidx)

/-- What `physical_alloc` does when it gives out the page at an index. -/
structure GivesOut (ph' : Physical) (i : ℕ) : Prop where
  suitable : ph.Suitable maxAddr i
  inUse : (ph'.pages[i]?).any (fun pg => pg.hasStatus .inUse) = true
  address_eq : ph'.address (.ram i) = ph.address (.ram i)
  others : ∀ j, j ≠ i → ph'.pages[j]? = ph.pages[j]?

/-- The call ends. It returns a page if there is a suitable one, and panics otherwise. -/
def AllocComplete : Prop :=
  ∃ n e, ph.allocWithin maxAddr n = some e ∧
    ((∃ r ph', e = .returns r ph') ↔ ∃ i, ph.Suitable maxAddr i) ∧
    (e = .panics ↔ ¬ ∃ i, ph.Suitable maxAddr i) ∧
    ∀ r ph', e = .returns r ph' → ∃ i, r = .ram i ∧ ph.GivesOut maxAddr ph' i

variable {ph} {i n : ℕ}

/-! ## Single rounds -/

lemma decIdx_succ (h : i + 1 < 2 ^ 32) : decIdx (i + 1) = i := by
  unfold decIdx
  omega

lemma decIdx_zero : decIdx 0 = 2 ^ 32 - 1 := by
  decide

variable {maxAddr} in
lemma Suitable.lt_length (h : ph.Suitable maxAddr i) : i < ph.pages.length := by
  by_contra hge
  rw [Suitable, List.getElem?_eq_none (not_lt.mp hge)] at h
  cases h

variable {maxAddr} in
lemma Suitable.givesOut (h : ph.Suitable maxAddr i) : ph.GivesOut maxAddr (ph.take i) i := by
  have hget (j : ℕ) : (ph.take i).pages[j]? = (ph.setStatus i .inUse).pages[j]? := rfl
  have hself := hget i
  rw [setStatus_getElem?, if_pos rfl] at hself
  obtain ⟨pg, hpg⟩ : ∃ pg, ph.pages[i]? = some pg :=
    ⟨_, List.getElem?_eq_getElem h.lt_length⟩
  refine ⟨h, ?_, ?_, fun j hj => ?_⟩
  · rw [hself, hpg]
    simp [PhysPage.hasStatus_setStatus]
  · simp [address, page, hself, hpg]
  · rw [hget, setStatus_getElem?, if_neg hj.symm]

lemma allocRounds_lastidx (n : ℕ) : ph.allocRounds maxAddr (n + 1) ph.lastidx = some .panics := by
  rw [allocRounds, if_pos rfl]

lemma allocRounds_look {idx : ℕ} (n : ℕ) (hidx : idx ≠ ph.lastidx)
    (hi : (if idx > ph.pages.length then ph.pages.length - 1 else idx) = i)
    (hlt : i < ph.pages.length) :
    ph.allocRounds maxAddr (n + 1) idx =
      if ph.Suitable maxAddr i then some (.returns (.ram i) (ph.take i))
      else ph.allocRounds maxAddr n (decIdx i) := by
  rw [allocRounds, if_neg hidx]
  simp only [hi, Suitable, List.getElem?_eq_getElem hlt, Option.any_some]

lemma allocRounds_index (n : ℕ) (hlt : i < ph.pages.length) (hi : i ≠ ph.lastidx) :
    ph.allocRounds maxAddr (n + 1) i =
      if ph.Suitable maxAddr i then some (.returns (.ram i) (ph.take i))
      else ph.allocRounds maxAddr n (decIdx i) :=
  allocRounds_look maxAddr n hi (if_neg (by omega)) hlt

section

variable (hlen : 4 * ph.pages.length ≤ 2 ^ 32)

include hlen

lemma allocRounds_wrapped (n : ℕ) (hidx : ph.lastidx < ph.pages.length) :
    ph.allocRounds maxAddr (n + 1) (2 ^ 32 - 1) =
      if ph.Suitable maxAddr (ph.pages.length - 1) then
        some (.returns (.ram (ph.pages.length - 1)) (ph.take (ph.pages.length - 1)))
      else ph.allocRounds maxAddr n (decIdx (ph.pages.length - 1)) :=
  allocRounds_look maxAddr n (by omega) (if_pos (by omega)) (by omega)

/-! ## Stretches of the array -/

/-- The indices above `lo`, `d` of them, are looked at one after the other: the first suitable
one is returned, and if there is none, the search is at `lo` then. -/
lemma allocRounds_down (lo d : ℕ) (hd : lo + d < ph.pages.length)
    (hlast : ∀ j, lo < j → j ≤ lo + d → j ≠ ph.lastidx) :
    (∃ i, lo < i ∧ i ≤ lo + d ∧ ph.Suitable maxAddr i ∧
      ∀ n, ph.allocRounds maxAddr (n + d) (lo + d) = some (.returns (.ram i) (ph.take i))) ∨
    ((∀ i, lo < i → i ≤ lo + d → ¬ ph.Suitable maxAddr i) ∧
      ∀ n, ph.allocRounds maxAddr (n + d) (lo + d) = ph.allocRounds maxAddr n lo) := by
  induction d with
  | zero => exact .inr ⟨fun i hlo hi => absurd hi (by omega), fun n => rfl⟩
  | succ d ih =>
    have hround (n : ℕ) := allocRounds_index maxAddr (n + d) hd (hlast _ (by omega) le_rfl)
    by_cases hs : ph.Suitable maxAddr (lo + (d + 1))
    · refine .inl ⟨lo + (d + 1), by omega, le_rfl, hs, fun n => ?_⟩
      rw [← Nat.add_assoc, hround, if_pos hs]
    · -- not suitable: the rest is the search from one index below
      have hstep (n : ℕ) : ph.allocRounds maxAddr (n + (d + 1)) (lo + (d + 1)) =
          ph.allocRounds maxAddr (n + d) (lo + d) := by
        rw [← Nat.add_assoc, hround, if_neg hs, ← Nat.add_assoc, decIdx_succ (by omega)]
      rcases ih (by omega) (fun j hlo hj => hlast j hlo (by omega)) with
        ⟨i, hlo, hi, hsuit, hret⟩ | ⟨hnone, hrest⟩
      · exact .inl ⟨i, hlo, by omega, hsuit, fun n => by rw [hstep, hret]⟩
      · refine .inr ⟨fun i hlo hi => ?_, fun n => by rw [hstep, hrest]⟩
        rcases Nat.lt_or_ge i (lo + (d + 1)) with hlt | hge
        · exact hnone i hlo (by omega)
        · rwa [le_antisymm hi hge]

/-- From an index below `lastidx` everything down to index 0 is looked at; if nothing there is
suitable, the search has wrapped. -/
lemma allocRounds_to_zero (hidx : ph.lastidx < ph.pages.length) (hi : i < ph.lastidx) :
    (∃ j, j ≤ i ∧ ph.Suitable maxAddr j ∧
      ∀ n, ph.allocRounds maxAddr (n + 1 + i) i = some (.returns (.ram j) (ph.take j))) ∨
    ((∀ j, j ≤ i → ¬ ph.Suitable maxAddr j) ∧
      ∀ n, ph.allocRounds maxAddr (n + 1 + i) i = ph.allocRounds maxAddr n (2 ^ 32 - 1)) := by
  have hdown := allocRounds_down maxAddr hlen 0 i (by omega) (fun j _ hj => by omega)
  rw [Nat.zero_add] at hdown
  rcases hdown with ⟨j, -, hj, hs, hret⟩ | ⟨hnone, hrest⟩
  · exact .inl ⟨j, hj, hs, fun n => hret (n + 1)⟩
  · have hzero (n : ℕ) := allocRounds_index maxAddr n (show 0 < ph.pages.length by omega)
      (show 0 ≠ ph.lastidx by omega)
    by_cases hs : ph.Suitable maxAddr 0
    · exact .inl ⟨0, Nat.zero_le i, hs, fun n => by rw [hrest, hzero, if_pos hs]⟩
    · refine .inr ⟨fun j hj => ?_, fun n => by rw [hrest, hzero, if_neg hs, decIdx_zero]⟩
      rcases Nat.eq_zero_or_pos j with rfl | hpos
      · exact hs
      · exact hnone j hpos hj

/-- From the end of the array everything above `lastidx` is looked at, and then the search ends. -/
lemma allocRounds_from_end (hidx : ph.lastidx + 1 < ph.pages.length) :
    (∃ j, ph.lastidx < j ∧ ph.Suitable maxAddr j ∧
      ∀ n, ph.allocRounds maxAddr (n + (ph.pages.length - ph.lastidx)) (2 ^ 32 - 1) =
        some (.returns (.ram j) (ph.take j))) ∨
    ((∀ j, ph.lastidx < j → ¬ ph.Suitable maxAddr j) ∧
      ∀ n, ph.allocRounds maxAddr (n + (ph.pages.length - ph.lastidx)) (2 ^ 32 - 1) =
        some .panics) := by
  -- the first round looks at the last index, the others at those between it and `lastidx`
  obtain ⟨d, hd⟩ := Nat.exists_eq_add_of_lt hidx
  have hlast : ph.pages.length - 1 = ph.lastidx + d + 1 := by omega
  have hrounds (n : ℕ) : n + (ph.pages.length - ph.lastidx) = n + 1 + d + 1 := by omega
  have hwrap (n : ℕ) := allocRounds_wrapped maxAddr hlen n (by omega)
  by_cases hs : ph.Suitable maxAddr (ph.pages.length - 1)
  · exact .inl ⟨_, by omega, hs, fun n => by rw [hrounds, hwrap, if_pos hs]⟩
  · have hstart (n : ℕ) : ph.allocRounds maxAddr (n + (ph.pages.length - ph.lastidx)) (2 ^ 32 - 1) =
        ph.allocRounds maxAddr (n + 1 + d) (ph.lastidx + d) := by
      rw [hrounds, hwrap, if_neg hs, hlast, decIdx_succ (by omega)]
    rcases allocRounds_down maxAddr hlen ph.lastidx d (by omega)
      (fun j hj _ => by omega) with ⟨j, hlo, hj, hsuit, hret⟩ | ⟨hnone, hrest⟩
    · exact .inl ⟨j, hlo, hsuit, fun n => by rw [hstart, hret]⟩
    · refine .inr ⟨fun j hj hsuit => ?_, fun n => by rw [hstart, hrest, allocRounds_lastidx]⟩
      have hlt := hsuit.lt_length
      rcases Nat.lt_or_ge (ph.lastidx + d) j with hgt | hle
      · exact hs ((show ph.pages.length - 1 = j by omega) ▸ hsuit)
      · exact hnone j hj hle hsuit

/-! ## The whole search -/

/-- A search that does not start at the last index ends, and looks at every other index. -/
lemma allocWithin_of_lt (hidx : ph.lastidx + 1 < ph.pages.length) :
    (∃ i, i ≠ ph.lastidx ∧ ph.Suitable maxAddr i ∧
      ∀ n, ph.allocWithin maxAddr (n + ph.pages.length) =
        some (.returns (.ram i) (ph.take i))) ∨
    ((∀ i, i ≠ ph.lastidx → ¬ ph.Suitable maxAddr i) ∧
      ∀ n, ph.allocWithin maxAddr (n + ph.pages.length) = some .panics) := by
  unfold allocWithin
  rcases Nat.eq_zero_or_pos ph.lastidx with hzero | hpos
  · have hdec : decIdx ph.lastidx = 2 ^ 32 - 1 := by rw [hzero, decIdx_zero]
    have hrounds (n : ℕ) : n + ph.pages.length = n + (ph.pages.length - ph.lastidx) := by omega
    simp only [hdec, hrounds]
    rcases allocRounds_from_end maxAddr hlen hidx with ⟨j, hj, hs, hret⟩ | ⟨hnone, hend⟩
    · exact .inl ⟨j, by omega, hs, hret⟩
    · exact .inr ⟨fun i hi => hnone i (by omega), hend⟩
  · obtain ⟨k, hk⟩ : ∃ k, ph.lastidx = k + 1 := ⟨ph.lastidx - 1, by omega⟩
    have hdec : decIdx ph.lastidx = k := by rw [hk, decIdx_succ (by omega)]
    have hrounds (n : ℕ) : n + ph.pages.length = n + (ph.pages.length - ph.lastidx) + 1 + k := by
      omega
    simp only [hdec, hrounds]
    rcases allocRounds_to_zero maxAddr hlen (by omega) (show k < ph.lastidx by omega)
      with ⟨j, hj, hs, hret⟩ | ⟨hlow, hrest⟩
    · exact .inl ⟨j, by omega, hs, fun n => hret _⟩
    · simp only [hrest]
      rcases allocRounds_from_end maxAddr hlen hidx with
        ⟨j, hj, hs, hret⟩ | ⟨hhigh, hend⟩
      · exact .inl ⟨j, by omega, hs, hret⟩
      · refine .inr ⟨fun i hi => ?_, hend⟩
        rcases Nat.lt_or_ge k i with hgt | hle
        · exact hhigh i (by omega)
        · exact hlow i hle

/-- A search that starts at the last index looks at that one, too: at the end of the array it
has gone past the test. -/
lemma allocWithin_of_last (hidx : ph.lastidx + 1 = ph.pages.length)
    (hs : ∃ i, ph.Suitable maxAddr i) :
    ∃ i, ph.Suitable maxAddr i ∧ ∀ n, ph.allocWithin maxAddr (n + 1 + ph.pages.length) =
      some (.returns (.ram i) (ph.take i)) := by
  have hlast : ph.pages.length - 1 = ph.lastidx := by omega
  have hwrap (n : ℕ) := allocRounds_wrapped maxAddr hlen n (by omega)
  rw [hlast] at hwrap
  unfold allocWithin
  rcases Nat.eq_zero_or_pos ph.lastidx with hzero | hpos
  · -- a single page
    obtain ⟨i, hi⟩ := hs
    have hlt := hi.lt_length
    obtain rfl : i = ph.lastidx := by omega
    refine ⟨ph.lastidx, hi, fun n => ?_⟩
    have hdec : decIdx ph.lastidx = 2 ^ 32 - 1 := by rw [hzero, decIdx_zero]
    rw [hdec, Nat.add_right_comm, hwrap, if_pos hi]
  · obtain ⟨k, hk⟩ : ∃ k, ph.lastidx = k + 1 := ⟨ph.lastidx - 1, by omega⟩
    have hdec : decIdx ph.lastidx = k := by rw [hk, decIdx_succ (by omega)]
    have hrounds (n : ℕ) : n + 1 + ph.pages.length = n + 1 + 1 + 1 + k := by omega
    simp only [hdec, hrounds]
    rcases allocRounds_to_zero maxAddr hlen (by omega) (show k < ph.lastidx by omega)
      with ⟨j, hj, hsuit, hret⟩ | ⟨hlow, hrest⟩
    · exact ⟨j, hsuit, fun n => hret _⟩
    · obtain ⟨i, hi⟩ := hs
      have hlt := hi.lt_length
      have hge : k < i := by
        by_contra hle
        exact hlow i (not_lt.mp hle) hi
      obtain rfl : i = ph.lastidx := by omega
      exact ⟨ph.lastidx, hi, fun n => by rw [hrest, hwrap, if_pos hi]⟩

lemma decIdx_of_lt (hidx : ph.lastidx + 1 = ph.pages.length) (hi : i < ph.pages.length) :
    decIdx i < ph.lastidx ∨ decIdx i = 2 ^ 32 - 1 := by
  unfold decIdx
  omega

/-- A search that starts at the last index does not end if there is nothing to find. -/
lemma allocRounds_eq_none (hidx : ph.lastidx + 1 = ph.pages.length)
    (hs : ¬ ∃ i, ph.Suitable maxAddr i) (n : ℕ) {idx : ℕ}
    (hpos : idx < ph.lastidx ∨ idx = 2 ^ 32 - 1) : ph.allocRounds maxAddr n idx = none := by
  -- the index is never `lastidx` when the loop tests it
  induction n generalizing idx with
  | zero => rfl
  | succ n ih =>
    rcases hpos with hlt | rfl
    · rw [allocRounds_index maxAddr n (by omega) (by omega), if_neg fun h => hs ⟨_, h⟩]
      exact ih (decIdx_of_lt hlen hidx (by omega))
    · rw [allocRounds_wrapped maxAddr hlen n (by omega), if_neg fun h => hs ⟨_, h⟩]
      exact ih (decIdx_of_lt hlen hidx (by omega))

end

/-! ## Completeness -/

variable {maxAddr}

lemma allocRounds_add {idx : ℕ} {e : AllocEnd} (h : ph.allocRounds maxAddr n idx = some e)
    (m : ℕ) : ph.allocRounds maxAddr (n + m) idx = some e := by
  induction n generalizing idx with
  | zero => cases h
  | succ n ih =>
    rw [allocRounds] at h
    rw [Nat.add_right_comm, allocRounds]
    split at h
    · rename_i heq
      rwa [if_pos heq]
    · rename_i hne
      rw [if_neg hne]
      dsimp only at h ⊢
      split at h
      · exact h
      · split at h
        · rename_i hs
          rwa [if_pos hs]
        · rename_i hs
          rw [if_neg hs]
          exact ih h

lemma allocWithin_unique {m : ℕ} {e e' : AllocEnd} (h : ph.allocWithin maxAddr n = some e)
    (h' : ph.allocWithin maxAddr m = some e') : e = e' := by
  have hadd := allocRounds_add h m
  rw [Nat.add_comm, allocRounds_add h' n] at hadd
  exact (Option.some.inj hadd).symm

lemma allocComplete_of_returns (hs : ph.Suitable maxAddr i)
    (hret : ph.allocWithin maxAddr n = some (.returns (.ram i) (ph.take i))) :
    ph.AllocComplete maxAddr := by
  refine ⟨n, _, hret, ⟨fun _ => ⟨i, hs⟩, fun _ => ⟨_, _, rfl⟩⟩, ?_, ?_⟩
  · exact ⟨fun h => AllocEnd.noConfusion h, fun h => absurd ⟨i, hs⟩ h⟩
  · rintro r ph' heq
    obtain ⟨rfl, rfl⟩ := AllocEnd.returns.inj heq
    exact ⟨i, rfl, hs.givesOut⟩

lemma allocComplete_iff_of_panics (hend : ph.allocWithin maxAddr n = some .panics) :
    ph.AllocComplete maxAddr ↔ ¬ ∃ i, ph.Suitable maxAddr i := by
  constructor
  · rintro ⟨m, e, he, -, hpanics, -⟩
    exact hpanics.mp (allocWithin_unique he hend)
  · intro hs
    refine ⟨n, _, hend, ⟨?_, fun h => absurd h hs⟩, ⟨fun _ => hs, fun _ => rfl⟩, ?_⟩
    · rintro ⟨r, ph', heq⟩
      cases heq
    · rintro r ph' heq
      cases heq

/-- A search that does not start at the last index misses a page exactly if it is the one where
the search started. -/
lemma allocComplete_iff_of_lt (hlen : 4 * ph.pages.length ≤ 2 ^ 32)
    (hidx : ph.lastidx + 1 < ph.pages.length) :
    ph.AllocComplete maxAddr ↔
      ((∃ i, ph.Suitable maxAddr i) → ∃ i, i ≠ ph.lastidx ∧ ph.Suitable maxAddr i) := by
  rcases allocWithin_of_lt maxAddr hlen hidx with ⟨i, hi, hs, hret⟩ | ⟨hnone, hend⟩
  · exact ⟨fun _ _ => ⟨i, hi, hs⟩, fun _ => allocComplete_of_returns hs (hret 0)⟩
  · rw [allocComplete_iff_of_panics (hend 0)]
    refine ⟨fun hs h => absurd h hs, fun himp hs => ?_⟩
    obtain ⟨i, hi, hsuit⟩ := himp hs
    exact hnone i hi hsuit

lemma allocComplete_iff_of_last (hlen : 4 * ph.pages.length ≤ 2 ^ 32)
    (hidx : ph.lastidx + 1 = ph.pages.length) :
    ph.AllocComplete maxAddr ↔ ∃ i, ph.Suitable maxAddr i := by
  constructor
  · rintro ⟨n, e, he, -⟩
    by_contra hs
    rw [allocWithin, allocRounds_eq_none maxAddr hlen hidx hs n
      (decIdx_of_lt hlen hidx (by omega))] at he
    cases he
  · intro hs
    obtain ⟨i, hsuit, hret⟩ := allocWithin_of_last maxAddr hlen hidx hs
    exact allocComplete_of_returns hsuit (hret 0)

/-- When `physical_alloc` finds a page if there is one, and panics otherwise. The array fits into
the address space, and `lastidx` is an index of it. -/
theorem allocComplete_iff (hlen : 4 * ph.pages.length ≤ 2 ^ 32)
    (hidx : ph.lastidx < ph.pages.length) :
    ph.AllocComplete maxAddr ↔
      if ph.lastidx + 1 = ph.pages.length then ∃ i, ph.Suitable maxAddr i
      else (∃ i, ph.Suitable maxAddr i) → ∃ i, i ≠ ph.lastidx ∧ ph.Suitable maxAddr i := by
  split
  · rename_i hlast
    exact allocComplete_iff_of_last hlen hlast
  · exact allocComplete_iff_of_lt hlen (by omega)

/-- Two free pages, with the first one as the place to start from. -/
def twoFree : Physical where
  pages := [⟨0x100000⟩, ⟨0x101000⟩]
  ioPages := []
  lastidx := 0
  freePages := 2

theorem allocComplete_twoFree : twoFree.AllocComplete 0xFFFFFFFF#32 :=
  (allocComplete_iff (by decide) (by decide)).mpr (by
    rw [if_neg (by decide)]
    exact fun _ => ⟨1, by decide, by decide⟩)

/-- The only free page is where the search starts: the kernel panics with a page left. -/
theorem exists_not_allocComplete : ∃ ph : Physical, 4 * ph.pages.length ≤ 2 ^ 32 ∧
    ph.lastidx < ph.pages.length ∧ ph.Suitable 0xFFFFFFFF#32 0 ∧
    ph.allocWithin 0xFFFFFFFF#32 2 = some .panics ∧ ¬ ph.AllocComplete 0xFFFFFFFF#32 := by
  refine ⟨⟨[⟨0x100000⟩, ⟨0x101001⟩], [], 0, 1⟩, by decide, by decide, by decide, by decide, ?_⟩
  rw [allocComplete_iff_of_lt (by decide) (by decide)]
  intro himp
  obtain ⟨i, hi, hs⟩ := himp ⟨0, by decide⟩
  have hlt : i < 2 := hs.lt_length
  obtain rfl : i = 1 := by
    have h0 : i ≠ 0 := hi
    omega
  revert hs
  decide

end Physical

end Memory
