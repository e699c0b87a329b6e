import Mathlib.Logic.Function.Basic

/-!
# A cache beside a store

Agents read and write a store of cells. Copies of cells are kept in a cache. An agent that reads
fetches the cell first and puts the copy into the cache later; one that writes removes the copies
first and writes to the store later.

`Coherent` says that copies, in the cache and on the way to it, are what the store has. It is kept
if nobody reads a cell while another agent writes it:

* `Coherent.read`, `Coherent.write`: an agent begins;
* `Coherent.fetch`, `Coherent.insert`: the two steps of a reader;
* `Coherent.store`: the step of a writer;
* `Coherent.evict`: copies go away.
-/

open Function Option

namespace CoherentCache

variable {ι κ δ : Type*} [DecidableEq ι]

/-- What an agent is doing. -/
inductive Access (κ δ : Type*) where
  | reading (k : κ)
  /-- The agent has a copy that is not in the cache yet. -/
  | fetched (k : κ) (d : δ)
  /-- The agent has removed the copies and has not written yet. -/
  | writing (k : κ)

/-- The cell. -/
def Access.key : Access κ δ → κ
  | .reading k | .fetched k _ | .writing k => k

/-- The cache, the store and the agents. -/
structure View (ι κ δ : Type*) where
  holds : κ → δ → Prop
  store : κ → δ
  access : ι → Option (Access κ δ)

/-- Every copy is what the store has, and what is being written has no copies. -/
structure Coherent (v : View ι κ δ) : Prop where
  cached : ∀ k d, v.holds k d → v.store k = d
  fetched : ∀ i k d, v.access i = some (.fetched k d) → v.store k = d
  absent : ∀ i k d, v.access i = some (.writing k) → ¬ v.holds k d
  apart : ∀ i j k a, v.access i = some (.writing k) → v.access j = some a → a.key = k →
    a = .writing k

namespace Coherent

variable {v : View ι κ δ} {i : ι} {k : κ} {d : δ} {holds : κ → δ → Prop}

omit [DecidableEq ι] in
lemma evict (h : Coherent v) (hle : ∀ k d, holds k d → v.holds k d) :
    Coherent { v with holds := holds } where
  cached k d hk := h.cached k d (hle k d hk)
  fetched := h.fetched
  absent i k d hi hk := h.absent i k d hi (hle k d hk)
  apart := h.apart

variable {a : Access κ δ}

lemma access_of_update {o : Option (Access κ δ)} {j : ι} (hj : update v.access i o j = some a) :
    (j = i ∧ o = some a) ∨ v.access j = some a := by
  by_cases hji : j = i
  · rw [hji, update_self] at hj
    exact .inl ⟨hji, hj⟩
  · rw [update_of_ne hji] at hj
    exact .inr hj

lemma leave (h : Coherent v) (i : ι) : Coherent { v with access := update v.access i none } := by
  have hold {j : ι} {a : Access κ δ} (hj : update v.access i none j = some a) :
      v.access j = some a := by
    rcases access_of_update hj with ⟨-, hnone⟩ | hj
    · cases hnone
    · exact hj
  exact ⟨h.cached, fun j k d hj => h.fetched j k d (hold hj),
    fun j k d hj => h.absent j k d (hold hj),
    fun j1 j2 k a h1 h2 => h.apart j1 j2 k a (hold h1) (hold h2)⟩

/-- An agent reads or has read a cell that nobody writes. -/
lemma enter (h : Coherent v) (hfree : ∀ j, v.access j ≠ some (.writing a.key))
    (ha : ∀ d, a = .fetched a.key d → v.store a.key = d) (hread : a ≠ .writing a.key) :
    Coherent { v with access := update v.access i (some a) } where
  cached := h.cached
  fetched j k d hj := by
    rcases access_of_update hj with ⟨-, heq⟩ | hj
    · cases heq
      exact ha d rfl
    · exact h.fetched j k d hj
  absent j k d hj := by
    rcases access_of_update hj with ⟨-, heq⟩ | hj
    · cases heq
      exact absurd rfl hread
    · exact h.absent j k d hj
  apart j1 j2 k b h1 h2 hk := by
    rcases access_of_update h1 with ⟨-, heq⟩ | h1
    · cases heq
      exact absurd rfl hread
    · rcases access_of_update h2 with ⟨-, heq⟩ | h2
      · cases heq
        exact absurd (hk ▸ h1) (hfree j1)
      · exact h.apart j1 j2 k b h1 h2 hk

lemma read (h : Coherent v) (hfree : ∀ j, v.access j ≠ some (.writing k)) :
    Coherent { v with access := update v.access i (some (.reading k)) } :=
  h.enter hfree (fun _ heq => nomatch heq) fun heq => nomatch heq

omit [DecidableEq ι] in
lemma not_writing (h : Coherent v) (hi : v.access i = some a)
    (hread : a ≠ .writing a.key) (j : ι) : v.access j ≠ some (.writing a.key) :=
  fun hj => hread (h.apart j i a.key a hj hi rfl)

lemma fetch (h : Coherent v) (hi : v.access i = some (.reading k)) :
    Coherent { v with access := update v.access i (some (.fetched k (v.store k))) } := by
  have hfree := h.not_writing hi fun heq => nomatch heq
  refine h.enter hfree (fun d heq => ?_) fun heq => nomatch heq
  injection heq

/-- A reader puts its copy into the cache. -/
lemma insert (h : Coherent v) (hi : v.access i = some (.fetched k d))
    (hle : ∀ k' d', holds k' d' → v.holds k' d' ∨ (k' = k ∧ d' = d)) :
    Coherent { v with holds := holds, access := update v.access i none } := by
  have hfree := h.not_writing hi fun heq => nomatch heq
  have hinserted : Coherent { v with holds := holds } := by
    refine ⟨fun k' d' hk => ?_, h.fetched, fun j k' d' hj hk => ?_, h.apart⟩
    · rcases hle k' d' hk with hk | ⟨rfl, rfl⟩
      · exact h.cached k' d' hk
      · exact h.fetched i _ _ hi
    · rcases hle k' d' hk with hk | ⟨rfl, rfl⟩
      · exact h.absent j k' d' hj hk
      · exact hfree j hj
  exact hinserted.leave i

/-- An agent removes the copies of a cell that nobody reads, and begins to write. -/
lemma write (h : Coherent v) (hle : ∀ k' d', holds k' d' → v.holds k' d' ∧ k' ≠ k)
    (hfree : ∀ j a, v.access j = some a → a.key = k → a = .writing k) :
    Coherent { v with
      holds := holds, access := update v.access i (some (.writing k)) } where
  cached k' d' hk := h.cached k' d' (hle k' d' hk).1
  fetched j k' d' hj := by
    rcases access_of_update hj with ⟨-, heq⟩ | hj
    · cases heq
    · exact h.fetched j k' d' hj
  absent j k' d' hj hk := by
    rcases access_of_update hj with ⟨-, heq⟩ | hj
    · injection heq with heq
      injection heq with heq
      exact (hle k' d' hk).2 heq.symm
    · exact h.absent j k' d' hj (hle k' d' hk).1
  apart j1 j2 k' b h1 h2 hk := by
    rcases access_of_update h2 with ⟨-, heq⟩ | h2
    · cases heq
      exact congrArg _ hk
    · rcases access_of_update h1 with ⟨-, heq⟩ | h1
      · injection heq with heq
        injection heq with heq
        exact heq ▸ hfree j2 b h2 (hk.trans heq.symm)
      · exact h.apart j1 j2 k' b h1 h2 hk

/-- A writer writes. -/
lemma store [DecidableEq κ] (h : Coherent v) (hi : v.access i = some (.writing k)) :
    Coherent { v with
      store := update v.store k d, access := update v.access i none } := by
  have hstored : Coherent { v with store := update v.store k d } := by
    refine ⟨fun k' d' hk => ?_, fun j k' d' hj => ?_, h.absent, h.apart⟩
    · have hne : k' ≠ k := by
        rintro rfl
        exact h.absent i k' d' hi hk
      dsimp only
      rw [update_of_ne hne]
      exact h.cached k' d' hk
    · have hne : k' ≠ k := by
        rintro rfl
        cases h.apart i j k' _ hi hj rfl
      dsimp only
      rw [update_of_ne hne]
      exact h.fetched j k' d' hj
  exact hstored.leave i

end Coherent

end CoherentCache
