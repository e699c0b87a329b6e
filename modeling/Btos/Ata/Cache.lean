import Mathlib.Data.List.Basic

/-!
# The sector cache of the ATA driver

The cache is an array of elements that are in use or not. `Holds` is what can be seen of it: the
copies of sectors that it has. The lemmas say what the functions of `cache.cpp` do to the copies;
which element is taken, and which are thrown away when the array is full, does not matter for
them.
-/

open List

namespace Ata

variable {D : Type*}

/-- `cache_element`, with the contents of a sector in `D`. -/
structure Element (D : Type*) where
  inuse : Bool
  deviceid : UInt32
  sector : UInt32
  usecount : UInt32
  data : D
  deriving DecidableEq, Repr

/-- The array `cache`, of any size. -/
abbrev Cache (D : Type*) := List (Element D)

/-- The element is in use for the sector. -/
def Element.Caches (e : Element D) (deviceid sector : UInt32) : Prop :=
  e.inuse = true ∧ e.deviceid = deviceid ∧ e.sector = sector

instance (e : Element D) (deviceid sector : UInt32) : Decidable (e.Caches deviceid sector) :=
  inferInstanceAs (Decidable (_ ∧ _))

namespace Cache

variable (cache : Cache D)

/-- `find_free`. -/
def findFree : Option ℕ := cache.findIdx? fun e => !e.inuse

/-- The first loop of `prune_cache`. -/
def minUses : UInt32 :=
  cache.foldl (fun minUses e => if e.inuse ∧ e.usecount < minUses then e.usecount else minUses)
    0xFFFFFFFF

/-- The body of the second loop of `prune_cache`. -/
def prune (minUses : UInt32) (e : Element D) : Element D :=
  if e.inuse then
    let usecount := e.usecount - minUses
    { e with usecount := usecount, inuse := usecount ≠ 0 }
  else e

/-- `prune_cache`. -/
def pruneCache : Cache D := cache.map (prune cache.minUses)

/-- `cache_add`. -/
def cacheAdd (deviceid sector : UInt32) (data : D) : Cache D :=
  let element : Element D := ⟨true, deviceid, sector, 0, data⟩
  match cache.findFree with
  | some index => cache.set index element
  | none =>
      let cache := cache.pruneCache
      match cache.findFree with
      | some index => cache.set index element
      | none => cache

/-- `cache_get`, `none` for `false`. -/
def cacheGet (deviceid sector : UInt32) : Cache D → Option (D × Cache D)
  | [] => none
  | e :: cache =>
      if e.Caches deviceid sector then
        some (e.data, { e with usecount := e.usecount + 1 } :: cache)
      else (cacheGet deviceid sector cache).map fun (data, cache) => (data, e :: cache)

/-- `cache_drop`. -/
def cacheDrop (deviceid sector : UInt32) : Cache D :=
  cache.map fun e => if e.Caches deviceid sector then { e with inuse := false } else e

/-- There is a copy of the sector in the cache. -/
def Holds (k : UInt32 × UInt32) (d : D) : Prop :=
  ∃ e ∈ cache, e.Caches k.1 k.2 ∧ e.data = d

variable {cache} {cache' : Cache D} {deviceid sector : UInt32} {data d : D} {k : UInt32 × UInt32}

lemma holds_set {index : ℕ}
    (h : Cache.Holds (cache.set index ⟨true, deviceid, sector, 0, data⟩) k d) :
    cache.Holds k d ∨ (k = (deviceid, sector) ∧ d = data) := by
  obtain ⟨e, he, hcaches, rfl⟩ := h
  rcases mem_or_eq_of_mem_set he with he | rfl
  · exact .inl ⟨e, he, hcaches, rfl⟩
  · exact .inr ⟨Prod.ext hcaches.2.1.symm hcaches.2.2.symm, rfl⟩

lemma holds_of_holds_pruneCache (h : cache.pruneCache.Holds k d) : cache.Holds k d := by
  obtain ⟨e', he', hcaches, rfl⟩ := h
  obtain ⟨e, he, rfl⟩ := mem_map.mp he'
  rw [prune] at hcaches ⊢
  split at hcaches
  · rename_i hinuse
    rw [if_pos hinuse]
    exact ⟨e, he, ⟨hinuse, hcaches.2⟩, rfl⟩
  · rename_i hinuse
    exact absurd hcaches.1 hinuse

lemma holds_cacheAdd (h : (cache.cacheAdd deviceid sector data).Holds k d) :
    cache.Holds k d ∨ (k = (deviceid, sector) ∧ d = data) := by
  rw [cacheAdd] at h
  split at h
  · exact holds_set h
  · dsimp only at h
    split at h
    · exact (holds_set h).imp_left holds_of_holds_pruneCache
    · exact .inl (holds_of_holds_pruneCache h)

/-- `cache_get` returns a copy and keeps all of them. -/
lemma holds_cacheGet (h : cache.cacheGet deviceid sector = some (data, cache')) :
    cache.Holds (deviceid, sector) data ∧ ∀ k d, cache'.Holds k d → cache.Holds k d := by
  induction cache generalizing cache' with
  | nil => cases h
  | cons e cache ih =>
    rw [cacheGet] at h
    split at h
    · rename_i hcaches
      obtain ⟨rfl, rfl⟩ := Prod.ext_iff.mp (Option.some.inj h)
      refine ⟨⟨e, mem_cons_self, hcaches, rfl⟩, fun k d hholds => ?_⟩
      obtain ⟨e', he', hcaches', rfl⟩ := hholds
      rcases mem_cons.mp he' with rfl | he'
      · exact ⟨e, mem_cons_self, hcaches', rfl⟩
      · exact ⟨e', mem_cons_of_mem e he', hcaches', rfl⟩
    · obtain ⟨⟨data', rest⟩, hrest, heq⟩ := Option.map_eq_some_iff.mp h
      obtain ⟨rfl, rfl⟩ := Prod.ext_iff.mp heq
      obtain ⟨⟨e0, he0, hcaches0, hdata0⟩, hkept⟩ := ih hrest
      refine ⟨⟨e0, mem_cons_of_mem e he0, hcaches0, hdata0⟩, fun k d hholds => ?_⟩
      obtain ⟨e', he', hcaches', hdata'⟩ := hholds
      rcases mem_cons.mp he' with rfl | he'
      · exact ⟨e', mem_cons_self, hcaches', hdata'⟩
      · obtain ⟨e1, he1, hboth⟩ := hkept k d ⟨e', he', hcaches', hdata'⟩
        exact ⟨e1, mem_cons_of_mem e he1, hboth⟩

lemma holds_cacheDrop (h : (cache.cacheDrop deviceid sector).Holds k d) :
    cache.Holds k d ∧ k ≠ (deviceid, sector) := by
  obtain ⟨e', he', hcaches, rfl⟩ := h
  obtain ⟨e, he, rfl⟩ := mem_map.mp he'
  split at hcaches
  · exact absurd hcaches.1 Bool.false_ne_true
  · rename_i hother
    rw [if_neg hother]
    refine ⟨⟨e, he, hcaches, rfl⟩, ?_⟩
    rintro rfl
    exact hother hcaches

end Cache

end Ata
