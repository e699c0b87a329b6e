import Mathlib.Tactic

/-!
# Maps in insertion order

An `OrderedMap` is the list of its entries, in the order in which their keys were first
inserted, and carries the proof that no key has two entries. Lookups go through the list from
the front.

`lookup_put_self`, `lookup_put_of_ne`, `lookup_erase_self` and `lookup_erase_of_ne` say what the
operations do to the value of a key.
-/

open List

/-- A map as the list of its entries, without repeated keys. -/
structure OrderedMap (κ α : Type*) where
  /-- The entries, oldest first. -/
  entries : List (κ × α)
  /-- No key has two entries. -/
  unique : (entries.map Prod.fst).Nodup
  deriving DecidableEq, Repr

namespace OrderedMap

variable {κ α : Type*} [DecidableEq κ]

/-! ## Lists of entries -/

/-- Overwrite the entry of a key, or append a new entry. -/
def putEntry (k : κ) (v : α) : List (κ × α) → List (κ × α)
  | [] => [(k, v)]
  | e :: m => if e.1 = k then (k, v) :: m else e :: putEntry k v m

/-- Remove the first entry of a key. -/
def eraseEntry (k : κ) : List (κ × α) → List (κ × α)
  | [] => []
  | e :: m => if e.1 = k then m else e :: eraseEntry k m

lemma lookup_cons (k : κ) (e : κ × α) (m : List (κ × α)) :
    (e :: m).lookup k = if e.1 = k then some e.2 else m.lookup k := by
  obtain ⟨k', v⟩ := e
  by_cases h : k' = k
  · simp [h]
  · simp [List.lookup_cons, h, beq_false_of_ne (Ne.symm h)]

variable {k : κ}

lemma lookup_eq_none_of_notMem_keys {m : List (κ × α)} (h : k ∉ m.map Prod.fst) :
    m.lookup k = none := by
  induction m with
  | nil => rfl
  | cons e m ih =>
    rw [map_cons, mem_cons, not_or] at h
    rw [lookup_cons, if_neg (Ne.symm h.1), ih h.2]

lemma mem_keys_putEntry {k k' : κ} {v : α} {m : List (κ × α)} :
    k' ∈ (putEntry k v m).map Prod.fst ↔ k' = k ∨ k' ∈ m.map Prod.fst := by
  induction m with
  | nil => simp [putEntry]
  | cons e m ih =>
    by_cases h : e.1 = k
    · simp [putEntry, h]
    · rw [putEntry, if_neg h, map_cons, map_cons, mem_cons, mem_cons, ih]
      tauto

lemma nodup_keys_putEntry {m : List (κ × α)} (k : κ) (v : α) (hm : (m.map Prod.fst).Nodup) :
    ((putEntry k v m).map Prod.fst).Nodup := by
  induction m with
  | nil => simp [putEntry]
  | cons e m ih =>
    rw [map_cons, nodup_cons] at hm
    by_cases h : e.1 = k
    · rw [putEntry, if_pos h, map_cons, nodup_cons]
      exact ⟨h ▸ hm.1, hm.2⟩
    · rw [putEntry, if_neg h, map_cons, nodup_cons]
      refine ⟨fun hmem => ?_, ih hm.2⟩
      rcases mem_keys_putEntry.mp hmem with heq | hmem
      · exact h heq
      · exact hm.1 hmem

lemma eraseEntry_sublist (k : κ) (m : List (κ × α)) : (eraseEntry k m).Sublist m := by
  induction m with
  | nil => exact List.Sublist.slnil
  | cons e m ih =>
    by_cases h : e.1 = k
    · rw [eraseEntry, if_pos h]
      exact sublist_cons_self e m
    · rw [eraseEntry, if_neg h]
      exact ih.cons_cons e

variable {l : List (κ × α)}

lemma putEntry_append (v : α) (hl : ∀ e ∈ l, e.1 ≠ k)
    (m : List (κ × α)) : putEntry k v (l ++ m) = l ++ putEntry k v m := by
  induction l with
  | nil => rfl
  | cons e l ih =>
    rw [forall_mem_cons] at hl
    rw [cons_append, cons_append, putEntry, if_neg hl.1, ih hl.2]

lemma eraseEntry_append (hl : ∀ e ∈ l, e.1 ≠ k)
    (m : List (κ × α)) : eraseEntry k (l ++ m) = l ++ eraseEntry k m := by
  induction l with
  | nil => rfl
  | cons e l ih =>
    rw [forall_mem_cons] at hl
    rw [cons_append, cons_append, eraseEntry, if_neg hl.1, ih hl.2]

lemma eraseEntry_eq_self (hl : ∀ e ∈ l, e.1 ≠ k) : eraseEntry k l = l := by
  have herase := eraseEntry_append hl []
  rwa [append_nil, eraseEntry, append_nil] at herase

lemma eraseEntry_putEntry (k : κ) (v : α) (m : List (κ × α)) :
    eraseEntry k (putEntry k v m) = eraseEntry k m := by
  induction m with
  | nil => simp [putEntry, eraseEntry]
  | cons e m ih =>
    by_cases h : e.1 = k
    · simp [putEntry, eraseEntry, h]
    · simp [putEntry, eraseEntry, h, ih]

lemma lookup_append (hl : ∀ e ∈ l, e.1 ≠ k)
    (m : List (κ × α)) : (l ++ m).lookup k = m.lookup k := by
  induction l with
  | nil => rfl
  | cons e l ih =>
    rw [forall_mem_cons] at hl
    rw [cons_append, lookup_cons, if_neg hl.1, ih hl.2]

/-! ## Maps -/

/-- The map without entries. -/
def empty : OrderedMap κ α := ⟨[], List.nodup_nil⟩

/-- The value of a key. -/
def lookup (m : OrderedMap κ α) (k : κ) : Option α := m.entries.lookup k

/-- Overwrite the entry of a key, or append a new entry. -/
def put (k : κ) (v : α) (m : OrderedMap κ α) : OrderedMap κ α :=
  ⟨putEntry k v m.entries, nodup_keys_putEntry k v m.unique⟩

/-- Remove the entry of a key. -/
def erase (k : κ) (m : OrderedMap κ α) : OrderedMap κ α :=
  ⟨eraseEntry k m.entries, ((eraseEntry_sublist k m.entries).map Prod.fst).nodup m.unique⟩

/-- Change the values and keep the keys. -/
def mapValues {β : Type*} (f : α → β) (m : OrderedMap κ α) : OrderedMap κ β where
  entries := m.entries.map fun e => (e.1, f e.2)
  unique := by
    rw [List.map_map]
    exact m.unique

lemma lookup_mapValues {β : Type*} (f : α → β) (m : OrderedMap κ α) (k : κ) :
    (m.mapValues f).lookup k = (m.lookup k).map f := by
  obtain ⟨m, hm⟩ := m
  simp only [lookup, mapValues]
  clear hm
  induction m with
  | nil => rfl
  | cons e m ih =>
    rw [map_cons, lookup_cons, lookup_cons, ih]
    split <;> rfl

variable {m : OrderedMap κ α}

omit [DecidableEq κ] in
lemma eq_empty (h : m.entries = []) : m = empty := by
  obtain ⟨l, hl⟩ := m
  subst h
  rfl

@[simp]
lemma lookup_empty (k : κ) : (empty : OrderedMap κ α).lookup k = none := rfl

@[simp]
lemma lookup_put_self (k : κ) (v : α) (m : OrderedMap κ α) : (m.put k v).lookup k = some v := by
  obtain ⟨m, hm⟩ := m
  simp only [lookup, put]
  clear hm
  induction m with
  | nil => simp [putEntry]
  | cons e m ih =>
    by_cases h : e.1 = k
    · simp [putEntry, h]
    · rw [putEntry, if_neg h, lookup_cons, if_neg h, ih]

lemma lookup_put_of_ne {k k' : κ} (v : α) (m : OrderedMap κ α) (hk : k' ≠ k) :
    (m.put k v).lookup k' = m.lookup k' := by
  obtain ⟨m, hm⟩ := m
  simp only [lookup, put]
  clear hm
  induction m with
  | nil => simp [putEntry, lookup_cons, Ne.symm hk]
  | cons e m ih =>
    by_cases h : e.1 = k
    · rw [putEntry, if_pos h, lookup_cons, lookup_cons, h, if_neg (Ne.symm hk), if_neg (Ne.symm hk)]
    · rw [putEntry, if_neg h, lookup_cons, lookup_cons, ih]

lemma lookup_erase_of_ne {k k' : κ} (m : OrderedMap κ α) (hk : k' ≠ k) :
    (m.erase k).lookup k' = m.lookup k' := by
  obtain ⟨m, hm⟩ := m
  simp only [lookup, erase]
  clear hm
  induction m with
  | nil => rfl
  | cons e m ih =>
    by_cases h : e.1 = k
    · rw [eraseEntry, if_pos h, lookup_cons, h, if_neg (Ne.symm hk)]
    · rw [eraseEntry, if_neg h, lookup_cons, lookup_cons, ih]

@[simp]
lemma lookup_erase_self (k : κ) (m : OrderedMap κ α) : (m.erase k).lookup k = none := by
  obtain ⟨m, hm⟩ := m
  simp only [lookup, erase]
  -- The first entry of `k` is the only one, so the rest of the list has none.
  induction m with
  | nil => rfl
  | cons e m ih =>
    rw [map_cons, nodup_cons] at hm
    by_cases h : e.1 = k
    · rw [eraseEntry, if_pos h]
      exact lookup_eq_none_of_notMem_keys (h ▸ hm.1)
    · rw [eraseEntry, if_neg h, lookup_cons, if_neg h]
      exact ih hm.2

lemma lookup_of_mem {v : α} (h : (k, v) ∈ m.entries) : m.lookup k = some v := by
  obtain ⟨m, hm⟩ := m
  simp only [lookup]
  induction m with
  | nil => simp at h
  | cons e m ih =>
    rw [map_cons, nodup_cons] at hm
    rw [OrderedMap.lookup_cons]
    rcases mem_cons.mp h with rfl | h
    · exact if_pos rfl
    · rw [if_neg, ih hm.2 h]
      rintro rfl
      exact hm.1 (mem_map.mpr ⟨_, h, rfl⟩)

lemma erase_eq_self (h : m.lookup k = none) : m.erase k = m := by
  obtain ⟨l, hl⟩ := m
  have hkeys : ∀ e ∈ l, e.1 ≠ k := by
    rintro ⟨k', v⟩ he rfl
    rw [lookup_of_mem he] at h
    cases h
  rw [erase, OrderedMap.mk.injEq]
  exact eraseEntry_eq_self hkeys

end OrderedMap
