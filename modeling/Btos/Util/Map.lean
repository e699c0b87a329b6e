import Btos.Lib.OrderedMap

/-!
# The map of `ministl`

`map` keeps its entries in one buffer, in the order of insertion, and looks for keys from the
front. Erasing an entry moves the ones behind it, and the cell after the last entry with them.

* `Map.entries` is the part of the buffer that counts; the rest of it may hold anything.
* `entries_set` and `entries_erase`: assigning through `operator[]` and erasing do to the entries
  what `OrderedMap` does.
* `Bounded`: every cell that the functions read or write is inside of the buffer.
-/

open Function List

namespace Ministl

/-- `map`: the first `size` cells of the buffer are the entries. -/
structure Map (κ α : Type*) where
  size : ℕ
  capacity : ℕ
  data : ℕ → κ × α

namespace Map

variable {κ α : Type*} [DecidableEq κ]

/-- `map_growth_factor`. -/
def growthFactor : ℕ := 64

/-- An empty map; the buffer is not initialised. -/
def empty (data : ℕ → κ × α) : Map κ α := ⟨0, growthFactor, data⟩

variable (m : Map κ α)

/-- The loop over the entries that looks for a key. -/
def indexOf? (k : κ) : Option ℕ := (List.range m.size).find? fun i => (m.data i).1 = k

/-- `has_key`. -/
def hasKey (k : κ) : Bool := (m.indexOf? k).isSome

/-- `reserve`; the cells behind the entries are not initialised, so they may keep any value. -/
def reserve (capacity : ℕ) : Map κ α :=
  if capacity < m.capacity then m else { m with capacity := capacity }

/-- `insert`. -/
def insert (e : κ × α) : Map κ α :=
  let m := if m.size + 1 ≥ m.capacity then m.reserve (m.capacity + growthFactor) else m
  { m with size := m.size + 1, data := Function.update m.data m.size e }

/-- `m[k] = v`: the entry of the key is overwritten, or one is inserted first. -/
def set (k : κ) (v : α) : Map κ α :=
  match m.indexOf? k with
  | some i => { m with data := Function.update m.data i ((m.data i).1, v) }
  | none => m.insert (k, v)

/-- `m[k]` where the key is known to have an entry. -/
def get? (k : κ) : Option α := (m.indexOf? k).map fun i => (m.data i).2

/-- `erase` at a position: `memmove(i, i + 1, sizeof(value_type) * (size_ - (i - begin())))`. -/
def eraseAt (i : ℕ) : Map κ α :=
  { m with
    size := m.size - 1
    data := fun j => if i ≤ j ∧ j < i + (m.size - i) then m.data (j + 1) else m.data j }

/-- `erase` of a key. -/
def erase (k : κ) : Map κ α :=
  match m.indexOf? k with
  | some i => m.eraseAt i
  | none => m

/-! ## The entries -/

/-- The entries, in the order of the buffer. -/
def entries : List (κ × α) := (List.range m.size).map m.data

variable {m} {k : κ} {v : α} {i : ℕ}

lemma map_range_add {β : Type*} (f : ℕ → β) {n d : ℕ} (hn : n = i + d) :
    (range n).map f = (range i).map f ++ (range d).map fun j => f (i + j) := by
  rw [hn, range_add, map_append, map_map]
  rfl

lemma map_range_split {β : Type*} (f : ℕ → β) {n : ℕ} (hi : i < n) :
    (range n).map f = (range i).map f ++ f i :: (range (n - 1 - i)).map fun j => f (i + j + 1) := by
  have hn : n = i + (n - 1 - i + 1) := by omega
  rw [map_range_add f hn, range_succ_eq_map, map_cons, map_map]
  rfl

lemma indexOf?_eq_some (h : m.indexOf? k = some i) :
    i < m.size ∧ (m.data i).1 = k ∧ ∀ j < i, (m.data j).1 ≠ k := by
  rw [indexOf?, find?_range_eq_some] at h
  obtain ⟨hkey, hmem, hfirst⟩ := h
  exact ⟨mem_range.mp hmem, of_decide_eq_true hkey, fun j hj => by simpa using hfirst j hj⟩

lemma indexOf?_eq_none (h : m.indexOf? k = none) : ∀ e ∈ m.entries, e.1 ≠ k := by
  intro e he
  obtain ⟨j, hj, rfl⟩ := mem_map.mp he
  rw [indexOf?, find?_eq_none] at h
  simpa using h j hj

lemma indexOf?_of_nodup (hm : (m.entries.map Prod.fst).Nodup) (hi : i < m.size) :
    m.indexOf? (m.data i).1 = some i := by
  rw [entries, map_map] at hm
  rw [indexOf?, find?_range_eq_some]
  refine ⟨decide_eq_true rfl, mem_range.mpr hi, fun j hj => ?_⟩
  have hne : (m.data j).1 ≠ (m.data i).1 := fun heq =>
    hj.ne (inj_on_of_nodup_map hm (mem_range.mpr (hj.trans hi)) (mem_range.mpr hi) heq)
  simpa using hne

lemma front_ne (h : m.indexOf? k = some i) : ∀ e ∈ (range i).map m.data, e.1 ≠ k := by
  intro e he
  obtain ⟨j, hj, rfl⟩ := mem_map.mp he
  exact (indexOf?_eq_some h).2.2 j (mem_range.mp hj)

/-- There is a cell behind the last entry, which `erase` reads. -/
def Bounded (m : Map κ α) : Prop := m.size < m.capacity

omit [DecidableEq κ] in
lemma exists_insert_eq (m : Map κ α) (e : κ × α) :
    ∃ c, m.insert e = ⟨m.size + 1, c, update m.data m.size e⟩ ∧ (m.Bounded → m.size + 1 < c) := by
  have hkept : ¬ m.capacity + growthFactor < m.capacity := by omega
  unfold insert reserve Bounded
  rw [if_neg hkept]
  split
  · refine ⟨m.capacity + growthFactor, rfl, fun h => ?_⟩
    rw [growthFactor]
    omega
  · exact ⟨m.capacity, rfl, fun h => by omega⟩

omit [DecidableEq κ] in
lemma entries_concat (m : Map κ α) (capacity : ℕ) (e : κ × α) :
    entries ⟨m.size + 1, capacity, update m.data m.size e⟩ = m.entries ++ [e] := by
  rw [entries, entries]
  dsimp only
  rw [range_succ, map_append, map_singleton, update_self]
  congr 1
  refine map_congr_left fun j hj => update_of_ne ?_ _ _
  exact Nat.ne_of_lt (mem_range.mp hj)

omit [DecidableEq κ] in
lemma insert_entries (m : Map κ α) (e : κ × α) : (m.insert e).entries = m.entries ++ [e] := by
  obtain ⟨c, hc, -⟩ := exists_insert_eq m e
  rw [hc, entries_concat]

/-- Assigning through `operator[]` puts the entry. -/
lemma entries_set (m : Map κ α) (k : κ) (v : α) :
    (m.set k v).entries = OrderedMap.putEntry k v m.entries := by
  unfold set
  split
  · rename_i i hi
    obtain ⟨hlt, hkey, -⟩ := indexOf?_eq_some hi
    -- Only the cell at the position changes.
    have hother : ∀ j, j ≠ i → update m.data i ((m.data i).1, v) j = m.data j :=
      fun j hj => update_of_ne hj _ _
    have hfront : (range i).map (update m.data i ((m.data i).1, v)) = (range i).map m.data :=
      map_congr_left fun j hj => hother j (Nat.ne_of_lt (mem_range.mp hj))
    have hrest : (range (m.size - 1 - i)).map (fun j =>
        update m.data i ((m.data i).1, v) (i + j + 1)) =
        (range (m.size - 1 - i)).map fun j => m.data (i + j + 1) :=
      map_congr_left fun j _ => hother _ (by omega)
    rw [entries, entries]
    dsimp only
    rw [map_range_split _ hlt, map_range_split m.data hlt,
      OrderedMap.putEntry_append v (front_ne hi), OrderedMap.putEntry, if_pos hkey, hfront, hrest,
      update_self, hkey]
  · rename_i hnone
    have hput := OrderedMap.putEntry_append v (indexOf?_eq_none hnone) []
    rw [append_nil] at hput
    rw [insert_entries, hput]
    rfl

/-- Erasing a key removes its entry. -/
lemma entries_erase (m : Map κ α) (k : κ) :
    (m.erase k).entries = OrderedMap.eraseEntry k m.entries := by
  unfold erase
  split
  · rename_i i hi
    obtain ⟨hlt, hkey, -⟩ := indexOf?_eq_some hi
    rw [entries, entries, map_range_split m.data hlt,
      OrderedMap.eraseEntry_append (front_ne hi), OrderedMap.eraseEntry, if_pos hkey]
    have hsize : m.size - 1 = i + (m.size - 1 - i) := by omega
    show (range (m.size - 1)).map (m.eraseAt i).data = _
    -- The cells behind the position have moved, those in front of it have not.
    rw [map_range_add _ hsize]
    congr 1
    · refine map_congr_left fun j hj => if_neg fun hle => ?_
      have hj := mem_range.mp hj
      omega
    · refine map_congr_left fun j hj => if_pos ?_
      have hj := mem_range.mp hj
      omega
  · rename_i hnone
    exact (OrderedMap.eraseEntry_eq_self (indexOf?_eq_none hnone)).symm

lemma get?_eq_lookup (m : Map κ α) (k : κ) : m.get? k = m.entries.lookup k := by
  rw [get?]
  cases hi : m.indexOf? k with
  | none =>
    have hlookup := OrderedMap.lookup_append (indexOf?_eq_none hi) []
    rw [append_nil] at hlookup
    rw [hlookup]
    rfl
  | some i =>
    obtain ⟨hlt, hkey, -⟩ := indexOf?_eq_some hi
    rw [entries, map_range_split m.data hlt, OrderedMap.lookup_append (front_ne hi),
      OrderedMap.lookup_cons, if_pos hkey]
    rfl

lemma hasKey_eq_isSome (m : Map κ α) (k : κ) : m.hasKey k = (m.entries.lookup k).isSome := by
  rw [← get?_eq_lookup, get?, Option.isSome_map, hasKey]

/-! ## Cells that stay as they are -/

lemma data_set_of_ne (hi : i < m.size) (hk : m.indexOf? k ≠ some i) :
    (m.set k v).data i = m.data i := by
  unfold set
  split
  · rename_i j hj
    have hij : i ≠ j := by
      rintro rfl
      exact hk hj
    exact update_of_ne hij _ _
  · obtain ⟨c, hc, -⟩ := exists_insert_eq m (k, v)
    rw [hc]
    exact update_of_ne hi.ne _ _

lemma size_le_size_set (m : Map κ α) (k : κ) (v : α) : m.size ≤ (m.set k v).size := by
  unfold set
  split
  · exact le_rfl
  · obtain ⟨c, hc, -⟩ := exists_insert_eq m (k, v)
    rw [hc]
    exact m.size.le_succ

lemma indexOf?_set (h : m.indexOf? k = some i) : (m.set k v).indexOf? k = some i := by
  have hkeys : ∀ j, (update m.data i ((m.data i).1, v) j).1 = (m.data j).1 := by
    intro j
    by_cases hj : j = i
    · rw [hj, update_self]
    · rw [update_of_ne hj]
  unfold set
  rw [h]
  rw [indexOf?]
  simp only [hkeys]
  exact h

lemma data_erase_of_lt {j : ℕ} (h : m.indexOf? k = some j) (hi : i < j) :
    (m.erase k).data i = m.data i := by
  unfold erase
  rw [h]
  exact if_neg fun hle => by omega

lemma size_erase (h : m.indexOf? k = some i) : (m.erase k).size = m.size - 1 := by
  unfold erase
  rw [h]
  rfl

/-! ## The bounds of the buffer -/

omit [DecidableEq κ] in
lemma empty_bounded (data : ℕ → κ × α) : (empty data).Bounded := by
  show 0 < growthFactor
  decide

lemma Bounded.set (h : m.Bounded) (k : κ) (v : α) : (m.set k v).Bounded := by
  unfold Map.set
  split
  · exact h
  · obtain ⟨c, hc, hlt⟩ := exists_insert_eq m (k, v)
    rw [hc]
    exact hlt h

lemma Bounded.erase (h : m.Bounded) (k : κ) : (m.erase k).Bounded := by
  unfold Map.erase
  split
  · exact (Nat.sub_le _ _).trans_lt h
  · exact h

end Map

end Ministl
