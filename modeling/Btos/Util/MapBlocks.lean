import Btos.Lib.Simulation
import Btos.Util.Map

/-!
# The block of a map

`Map` has its sizes as natural numbers. Here they are the unsigned numbers of 32 bits that they are
in the code, and a map knows how many bytes it got from `malloc`. `overrun` remembers whether a
cell outside of the block was ever used: `insert` writes the cell behind the entries, and `erase`
reads it.

`Represents` relates a map to the finite map in insertion order that it stands for. In every run
in which the number of bytes of each block has 32 bits, maps do what finite maps do and stay inside
of their blocks (`agrees_of_traces`). `exists_outside_map` reserves more than that.
-/

open List Option

namespace Ministl

/-- `map`, with its block. -/
structure MapBlock (κ α : Type*) extends Map κ α where
  /-- The number of bytes of the block. -/
  bytes : ℕ
  /-- A cell outside of the block was read or written. -/
  overrun : Bool

namespace MapBlock

variable {κ α : Type*} [DecidableEq κ] (sz : ℕ+)

/-- What `_Alloc().allocate(n)` passes to `malloc`, for entries of `sz` bytes. -/
def allocate (n : ℕ) : ℕ := n * sz % 2 ^ 32

/-- The first `n` cells are used. -/
def use (b : MapBlock κ α) (n : ℕ) : MapBlock κ α :=
  { b with overrun := b.overrun || decide (b.bytes < n * sz) }

/-- `map()`; `junk` is what the memory held before. -/
def empty (junk : ℕ → κ × α) : MapBlock κ α :=
  { Map.empty junk with bytes := allocate sz Map.growthFactor, overrun := false }

/-- `map(const _Myt &_Rhs)`. -/
def copy (junk : ℕ → κ × α) (rhs : MapBlock κ α) : MapBlock κ α :=
  use sz
    { rhs with
      data := fun i => if i < rhs.size then rhs.data i else junk i
      bytes := allocate sz rhs.capacity
      overrun := false }
    rhs.size

variable (b : MapBlock κ α)

/-- `reserve`. -/
def reserve (capacity : ℕ) : MapBlock κ α :=
  if capacity < b.capacity then b
  else use sz { b with capacity := capacity, bytes := allocate sz capacity } b.size

/-- The first part of `insert`: one cell behind the new entry has to be left. -/
def grow : MapBlock κ α :=
  if (b.size + 1) % 2 ^ 32 ≥ b.capacity then
    b.reserve sz ((b.capacity + Map.growthFactor) % 2 ^ 32)
  else b

/-- `insert`. -/
def insert (e : κ × α) : MapBlock κ α :=
  let b := b.grow sz
  use sz { b with size := (b.size + 1) % 2 ^ 32, data := Function.update b.data b.size e }
    (b.size + 1)

/-- `operator[]` and `get`: an entry of the key is made if there is none. -/
def entry [Inhabited α] (k : κ) : MapBlock κ α :=
  if b.hasKey k then b else b.insert sz (k, default)

/-- An assignment through `operator[]`. -/
def set (k : κ) (v : α) : MapBlock κ α :=
  match b.indexOf? k with
  | some i => { b with data := Function.update b.data i ((b.data i).1, v) }
  | none => b.insert sz (k, v)

/-- `erase` at an iterator: the cells up to the one behind the entries are moved. -/
def eraseAt (i : ℕ) : MapBlock κ α :=
  { use sz b (b.size + 1) with toMap := b.toMap.eraseAt i }

/-- `erase` of a key. -/
def erase (k : κ) : MapBlock κ α :=
  match b.indexOf? k with
  | some i => b.eraseAt sz i
  | none => b

end MapBlock

/-- The methods that change a map. -/
inductive MapMethod (κ α : Type*) where
  /-- `operator[]`. -/
  | index (k : κ)
  | get (k : κ)
  /-- An assignment through `operator[]`. -/
  | set (k : κ) (v : α)
  | insert (k : κ) (v : α)
  | erase (k : κ)
  /-- `erase` of the entry at an iterator. -/
  | eraseAt (i : ℕ)
  | reserve (capacity : UInt32)
  deriving DecidableEq, Repr

section Classes

variable (κ α : Type*) [DecidableEq κ] [Inhabited α]

variable {κ α} in
/-- The maps of the code, with entries of `sz` bytes. -/
def mapClass (sz : ℕ+) (junk : ℕ → κ × α) : ObjectClass (MapBlock κ α) (MapMethod κ α) where
  fresh := .empty sz junk
  copy := .copy sz junk
  -- the implicit `operator=` leaves both maps with one block
  assign _ := none
  call b
    | .index k | .get k => some (b.entry sz k)
    | .set k v => some (b.set sz k v)
    | .insert k v => some (b.insert sz (k, v))
    | .erase k => some (b.erase sz k)
    | .eraseAt i => some (b.eraseAt sz i)
    | .reserve capacity => some (b.reserve sz capacity.toNat)

/-- What the maps are for: finite maps in insertion order. -/
def orderedMapClass : ObjectClass (OrderedMap κ α) (MapMethod κ α) where
  fresh := .empty
  copy m := m
  assign _ := none
  call m
    | .index k | .get k => some (if (m.lookup k).isSome then m else m.put k default)
    | .set k v | .insert k v => some (m.put k v)
    | .erase k => some (m.erase k)
    | .eraseAt i => m.entries[i]?.map fun e => m.erase e.1
    | .reserve _ => some m

end Classes

namespace MapBlock

variable {κ α : Type*} [DecidableEq κ] {sz : ℕ+} {b : MapBlock κ α} {m : OrderedMap κ α}

/-- The map has these entries in this order, and a block with one cell more. -/
structure Represents (sz : ℕ+) (b : MapBlock κ α) (m : OrderedMap κ α) : Prop where
  entries_eq : b.entries = m.entries
  bounded : b.size < b.capacity
  bytes_eq : b.bytes = b.capacity * sz
  bytes_lt : b.bytes < 2 ^ 32
  overrun_eq : b.overrun = false

omit [DecidableEq κ] in
lemma use_eq {n : ℕ} (hn : n * sz ≤ b.bytes) : b.use sz n = b := by
  rw [use, decide_eq_false (not_lt.mpr hn), Bool.or_false]

namespace Represents

omit [DecidableEq κ] in
lemma cells_le (h : Represents sz b m) : (b.size + 1) * sz ≤ b.bytes := by
  rw [h.bytes_eq]
  exact Nat.mul_le_mul_right _ h.bounded

omit [DecidableEq κ] in
lemma capacity_lt (h : Represents sz b m) : b.capacity < 2 ^ 32 :=
  (Nat.le_mul_of_pos_right _ sz.pos).trans_lt (h.bytes_eq ▸ h.bytes_lt)

lemma get?_eq (h : Represents sz b m) (k : κ) : b.get? k = m.lookup k := by
  rw [Map.get?_eq_lookup, h.entries_eq]
  rfl

lemma hasKey_eq (h : Represents sz b m) (k : κ) : b.hasKey k = (m.lookup k).isSome := by
  rw [Map.hasKey_eq_isSome, h.entries_eq]
  rfl

omit [DecidableEq κ] in
lemma empty (junk : ℕ → κ × α) (hsz : Map.growthFactor * sz < 2 ^ 32) :
    Represents sz (MapBlock.empty sz junk) .empty where
  entries_eq := rfl
  bounded := Map.empty_bounded junk
  bytes_eq := Nat.mod_eq_of_lt hsz
  bytes_lt := Nat.mod_lt _ (by decide)
  overrun_eq := rfl

omit [DecidableEq κ] in
lemma copy (h : Represents sz b m) (junk : ℕ → κ × α) : Represents sz (b.copy sz junk) m := by
  have hbytes : allocate sz b.capacity = b.capacity * sz :=
    Nat.mod_eq_of_lt (h.bytes_eq ▸ h.bytes_lt)
  unfold MapBlock.copy
  rw [use_eq]
  swap
  · exact hbytes ▸ Nat.mul_le_mul_right _ h.bounded.le
  refine ⟨?_, h.bounded, hbytes, hbytes ▸ h.bytes_eq ▸ h.bytes_lt, rfl⟩
  rw [← h.entries_eq]
  exact map_congr_left fun i hi => if_pos (mem_range.mp hi)

omit [DecidableEq κ] in
lemma reserve (h : Represents sz b m) {n : ℕ} (hn : n * sz < 2 ^ 32) :
    Represents sz (b.reserve sz n) m := by
  have hbytes : allocate sz n = n * sz := Nat.mod_eq_of_lt hn
  unfold MapBlock.reserve
  split
  · exact h
  · rename_i hge
    have hbounded : b.size < n := h.bounded.trans_le (not_lt.mp hge)
    rw [use_eq]
    swap
    · exact hbytes ▸ Nat.mul_le_mul_right _ hbounded.le
    exact ⟨h.entries_eq, hbounded, hbytes, hbytes ▸ hn, h.overrun_eq⟩

section

variable (h : Represents sz b m)
  (hroom : b.size + 1 < b.capacity ∨ (b.capacity + Map.growthFactor) * sz < 2 ^ 32)
include h hroom

omit [DecidableEq κ] in
/-- After the first part of `insert` there are two cells behind the entries. -/
lemma grow : Represents sz (b.grow sz) m ∧ (b.grow sz).size + 1 < (b.grow sz).capacity := by
  have hbounded := h.bounded
  have hsize : (b.size + 1) % 2 ^ 32 = b.size + 1 :=
    Nat.mod_eq_of_lt (Nat.lt_of_le_of_lt hbounded h.capacity_lt)
  unfold MapBlock.grow
  rw [hsize]
  split
  · rename_i hfull
    have hlt := hroom.resolve_left (by omega)
    have hmod : (b.capacity + Map.growthFactor) % 2 ^ 32 = b.capacity + Map.growthFactor :=
      Nat.mod_eq_of_lt ((Nat.le_mul_of_pos_right _ sz.pos).trans_lt hlt)
    rw [hmod]
    refine ⟨h.reserve hlt, ?_⟩
    unfold MapBlock.reserve
    rw [if_neg (by omega)]
    show b.size + 1 < b.capacity + Map.growthFactor
    rw [Map.growthFactor]
    omega
  · exact ⟨h, by omega⟩

/-- A new key is appended. -/
lemma insert {k : κ} (habsent : b.hasKey k = false) (v : α) :
    Represents sz (b.insert sz (k, v)) (m.put k v) := by
  have hput : (m.put k v).entries = m.entries ++ [(k, v)] := by
    have hnone : b.indexOf? k = none := by
      rwa [Map.hasKey, isSome_eq_false_iff, isNone_iff_eq_none] at habsent
    have happend := OrderedMap.putEntry_append v (h.entries_eq ▸ Map.indexOf?_eq_none hnone) []
    rwa [append_nil] at happend
  obtain ⟨hw, hlt⟩ := h.grow hroom
  unfold MapBlock.insert
  set w := b.grow sz
  clear_value w
  have hsize : (w.size + 1) % 2 ^ 32 = w.size + 1 :=
    Nat.mod_eq_of_lt (hlt.trans hw.capacity_lt)
  dsimp only
  rw [use_eq, hsize]
  swap
  · exact hw.cells_le
  refine ⟨?_, hlt, hw.bytes_eq, hw.bytes_lt, hw.overrun_eq⟩
  rw [hput, ← hw.entries_eq]
  exact Map.entries_concat w.toMap _ _

lemma entry [Inhabited α] (k : κ) :
    Represents sz (b.entry sz k) (if (m.lookup k).isSome then m else m.put k default) := by
  unfold MapBlock.entry
  rw [← h.hasKey_eq]
  split
  · exact h
  · rename_i habsent
    exact h.insert hroom (Bool.eq_false_of_not_eq_true habsent) _

lemma set (k : κ) (v : α) : Represents sz (b.set sz k v) (m.put k v) := by
  have hset := Map.entries_set b.toMap k v
  unfold MapBlock.set
  unfold Map.set at hset
  split
  · rename_i i hi
    rw [hi, h.entries_eq] at hset
    exact { h with entries_eq := hset }
  · rename_i hnone
    exact h.insert hroom (by rw [Map.hasKey, hnone]; rfl) v

end

lemma erase (h : Represents sz b m) (k : κ) : Represents sz (b.erase sz k) (m.erase k) := by
  have herase := Map.entries_erase b.toMap k
  have hbounded : (b.toMap.erase k).Bounded := Map.Bounded.erase h.bounded k
  unfold MapBlock.erase
  unfold Map.erase at herase hbounded
  split
  · rename_i i hi
    rw [hi, h.entries_eq] at herase
    rw [hi] at hbounded
    unfold MapBlock.eraseAt
    rw [use_eq h.cells_le]
    exact { h with entries_eq := herase, bounded := hbounded }
  · rename_i hnone
    rw [hnone, h.entries_eq] at herase
    exact { h with entries_eq := h.entries_eq.trans herase }

lemma eraseAt (h : Represents sz b m) {i : ℕ} (hi : i < b.size) :
    ∃ e, m.entries[i]? = some e ∧ Represents sz (b.eraseAt sz i) (m.erase e.1) := by
  have hindex : b.indexOf? (b.data i).1 = some i :=
    Map.indexOf?_of_nodup (h.entries_eq ▸ m.unique) hi
  refine ⟨b.data i, ?_, ?_⟩
  · rw [← h.entries_eq, Map.entries, getElem?_map, getElem?_range hi]
    rfl
  · have herase := h.erase (b.data i).1
    unfold MapBlock.erase at herase
    rwa [hindex] at herase

end Represents

end MapBlock

/-! ## Any number of maps -/

variable {κ α : Type*} [DecidableEq κ] [Inhabited α] {sz : ℕ+} {junk : ℕ → κ × α}

/-- A method can be called: the block has room for a new entry or can grow, an inserted key is
new, an iterator stands at an entry, and a reserved block has a number of bytes of 32 bits. -/
def MapMethod.HasRoom (sz : ℕ+) (b : MapBlock κ α) : MapMethod κ α → Prop
  | .index _ | .get _ | .set _ _ =>
      b.size + 1 < b.capacity ∨ (b.capacity + Map.growthFactor) * sz < 2 ^ 32
  | .insert k _ =>
      b.hasKey k = false ∧
        (b.size + 1 < b.capacity ∨ (b.capacity + Map.growthFactor) * sz < 2 ^ 32)
  | .erase _ => True
  | .eraseAt i => i < b.size
  | .reserve capacity => capacity.toNat * sz < 2 ^ 32

instance MapMethod.decidableHasRoom (b : MapBlock κ α) :
    (m : MapMethod κ α) → Decidable (m.HasRoom sz b)
  | .index _ | .get _ | .set _ _ => inferInstanceAs (Decidable (_ ∨ _))
  | .insert _ _ => inferInstanceAs (Decidable (_ ∧ (_ ∨ _)))
  | .erase _ => inferInstanceAs (Decidable True)
  | .eraseAt _ | .reserve _ => inferInstanceAs (Decidable (_ < _))

/-- A map with room does what a finite map does. -/
lemma mapClass_refines : (mapClass sz junk).Refines (orderedMapClass κ α)
    (Map.growthFactor * sz < 2 ^ 32) (fun b m => m.HasRoom sz b) (MapBlock.Represents sz) where
  fresh hsz := .empty junk hsz
  copy _ _ h := h.copy junk
  assign _ _ _ _ h := nomatch h
  call b m method b' h hroom hcall := by
    cases method with
    | index k | get k =>
      cases hcall
      exact ⟨_, rfl, h.entry hroom k⟩
    | set k v =>
      cases hcall
      exact ⟨_, rfl, h.set hroom k v⟩
    | insert k v =>
      cases hcall
      exact ⟨_, rfl, h.insert hroom.2 hroom.1 v⟩
    | erase k =>
      cases hcall
      exact ⟨_, rfl, h.erase k⟩
    | eraseAt i =>
      cases hcall
      obtain ⟨e, he, hrep⟩ := h.eraseAt hroom
      exact ⟨_, congrArg (Option.map fun e : κ × α => m.erase e.1) he, hrep⟩
    | reserve capacity =>
      cases hcall
      exact ⟨_, rfl, h.reserve hroom⟩

/-- What a map and the finite map it stands for have in common. -/
structure MapBlock.Agrees (sz : ℕ+) (b : MapBlock κ α) (m : OrderedMap κ α) : Prop where
  /-- There is a cell behind the entries. -/
  bounded : b.size < b.capacity
  /-- It is inside of the block. -/
  inside : (b.size + 1) * sz ≤ b.bytes
  overrun_eq : b.overrun = false
  nodup : (b.entries.map Prod.fst).Nodup
  entries_eq : b.entries = m.entries
  get?_eq : ∀ k, b.get? k = m.lookup k
  hasKey_eq : ∀ k, b.hasKey k = (m.lookup k).isSome

omit [Inhabited α] in
lemma MapBlock.Represents.agrees {b : MapBlock κ α} {m : OrderedMap κ α}
    (h : b.Represents sz m) : b.Agrees sz m where
  __ := h
  inside := h.cells_le
  nodup := h.entries_eq ▸ m.unique
  get?_eq := h.get?_eq
  hasKey_eq := h.hasKey_eq

/-- In every run in which the maps have room, they have the entries that finite maps would have,
in the order of insertion, and use no cell outside of their blocks. -/
theorem agrees_of_traces {as : List (ObjectAction (MapMethod κ α))} {s : ℕ → Option (MapBlock κ α)}
    (hs : (mapClass sz junk).system.Traces
      (ObjectClass.Guarded (Map.growthFactor * sz < 2 ^ 32) fun b m => m.HasRoom sz b) as s) :
    ∃ t, (orderedMapClass κ α).system.run (fun _ => none) as = some t ∧
      ∀ v, Option.Rel (MapBlock.Agrees sz) (s v) (t v) := by
  obtain ⟨t, hrun, hrel⟩ := mapClass_refines.simulates.exists_run hs
  refine ⟨t, hrun, fun v => ?_⟩
  have hv := hrel v
  generalize s v = x, t v = y at hv ⊢
  cases hv with
  | none => exact .none
  | some h => exact .some h.agrees

/-- A map of numbers and a copy of it. -/
def twoMaps : List (ObjectAction (MapMethod ℕ ℕ)) :=
  [.construct 0, .call 0 (.set 7 1), .call 0 (.insert 8 2), .call 0 (.index 9), .copy 1 0,
    .call 0 (.erase 8), .call 0 (.eraseAt 1), .call 1 (.reserve 100), .call 1 (.set 7 5)]

theorem agrees_twoMaps : ∃ s t,
    (mapClass 8 fun _ => (0, 0)).system.Traces
      (ObjectClass.Guarded (Map.growthFactor * ((8 : ℕ+) : ℕ) < 2 ^ 32) fun b m => m.HasRoom 8 b)
      twoMaps s ∧
    (orderedMapClass ℕ ℕ).system.run (fun _ => none) twoMaps = some t ∧
    (t 0).map (·.entries) = some [(7, 1)] ∧
    (t 1).map (·.entries) = some [(7, 5), (8, 2), (9, 0)] ∧
    ∀ v, Option.Rel (MapBlock.Agrees 8) (s v) (t v) := by
  have hrun : (((mapClass 8 fun _ => (0, 0)).system.guarded (ObjectClass.Guarded
      (Map.growthFactor * ((8 : ℕ+) : ℕ) < 2 ^ 32) fun b m => m.HasRoom 8 b)).run (fun _ => none)
      twoMaps).isSome = true := by decide
  obtain ⟨s, hs⟩ := isSome_iff_exists.mp hrun
  have htrace := System.traces_of_run_guarded (.init rfl) hs
  obtain ⟨t, ht, hrel⟩ := agrees_of_traces htrace
  have hmaps : ((orderedMapClass ℕ ℕ).system.run (fun _ => none) twoMaps).any
      (fun t => (t 0).map (·.entries) = some [(7, 1)] ∧
        (t 1).map (·.entries) = some [(7, 5), (8, 2), (9, 0)]) = true := by decide
  rw [nil_append] at ht
  rw [ht] at hmaps
  obtain ⟨hfirst, hsecond⟩ := of_decide_eq_true hmaps
  exact ⟨s, t, htrace, ht, hfirst, hsecond, hrel⟩

/-- With entries of 8 bytes, `reserve` of `2 ^ 29` of them asks for a block of no bytes at all, and
the next entry is written outside of it. -/
theorem exists_outside_map : ∃ s,
    (mapClass 8 fun _ => ((0 : ℕ), (0 : ℕ))).system.Reachable s ∧
      (s 0).any (fun b => b.overrun && decide (b.bytes < (b.size + 1) * 8)) = true := by
  have hrun : ((mapClass 8 fun _ => ((0 : ℕ), (0 : ℕ))).system.run (fun _ => none)
      [.construct 0, .call 0 (.reserve (2 ^ 29)), .call 0 (.set 7 1)]).any
      (fun s => (s 0).any fun b => b.overrun && decide (b.bytes < (b.size + 1) * 8)) = true := by
    decide
  exact System.exists_reachable_of_run rfl hrun

end Ministl
