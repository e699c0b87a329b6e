import Btos.Lib.Simulation
import Mathlib.Tactic

/-!
# The vector of `ministl`

`vector` keeps its elements in one block, which is replaced by one of twice the size when it is
full. Sizes are unsigned numbers of 32 bits, and so is the number of bytes that is passed to
`malloc`.

A `Vec` has the cells from the beginning of its block on, and `overrun` remembers whether an
element was ever written to a cell that is not inside of the block. `Represents` relates it to the
list of its elements.

A copy of an empty vector has a block without cells, and twice of nothing is nothing:
`exists_overrun` pushes an element into such a copy. A reference to an element can be given to
`push_back` and `insert`, which move the elements before they read it. Apart from that, and from
sizes whose number of bytes exceeds 32 bits, the vectors do what lists do
(`represents_of_traces`).
-/

open Function List

namespace Ministl

/-- `vector`. -/
structure Vec (α : Type*) where
  dataSize : ℕ
  reserved : ℕ
  /-- The number of bytes of the block. -/
  bytes : ℕ
  /-- The cells from the beginning of the block on; `none` is a cell without an element. -/
  data : ℕ → Option α
  /-- An element was written outside of the block. -/
  overrun : Bool

/-- What a `const T &` is bound to: an object outside of the vector, or one of its elements. -/
inductive Ref (α : Type*) where
  | value (x : α)
  | element (i : UInt32)
  deriving DecidableEq, Repr

/-- What a reference reads, given the elements. -/
def Ref.read {α : Type*} (elements : ℕ → Option α) : Ref α → Option α
  | .value x => some x
  | .element i => elements i.toNat

namespace Vec

variable {α : Type*} (sz : ℕ+)

/-- `data[i] = x` or `new (&data[i]) T(x)`, for elements of `sz` bytes. -/
def store (v : Vec α) (i : ℕ) (x : Option α) : Vec α :=
  { v with
    data := Function.update v.data i x
    overrun := v.overrun || decide (v.bytes < (i + 1) * sz) }

/-- The loops that construct the first `n` elements from those at another place. -/
def construct (elements : ℕ → Option α) : ℕ → Vec α → Vec α
  | 0, v => v
  | n + 1, v => (construct elements n v).store sz n (elements n)

/-- `reserve`. -/
def reserve (v : Vec α) (newSize : ℕ) : Vec α :=
  if newSize < v.reserved then v
  else
    construct sz v.data v.dataSize
      { v with reserved := newSize, bytes := sz * newSize % 2 ^ 32, data := fun _ => none }

/-- What the members are before the block is allocated. -/
def unallocated (reserved : ℕ) : Vec α := ⟨0, reserved, 0, fun _ => none, false⟩

/-- `vector()`. -/
def empty : Vec α := (unallocated 10).reserve sz 10

/-- `vector(const vector<T> &other)`. -/
def copy (other : Vec α) : Vec α :=
  let v := (unallocated other.dataSize).reserve sz other.dataSize
  construct sz other.data v.reserved { v with dataSize := v.reserved }

/-- `if (dataSize == reserved) reserve(reserved * 2)`. -/
def grow (v : Vec α) : Vec α :=
  if v.dataSize = v.reserved then v.reserve sz (v.reserved * 2 % 2 ^ 32) else v

/-- The cells that a reference to an element sees in `v`, if it was made in `old`: none if `grow`
has replaced the block. -/
def seen (old v : Vec α) : ℕ → Option α :=
  if old.dataSize = old.reserved ∧ old.reserved ≤ old.reserved * 2 % 2 ^ 32 then fun _ => none
  else v.data

/-- `push_back`. -/
def pushBack (v : Vec α) (item : Ref α) : Vec α :=
  let w := v.grow sz
  { w.store sz w.dataSize (item.read (v.seen w)) with dataSize := (w.dataSize + 1) % 2 ^ 32 }

/-- The loop of `insert`, from `loop = pos + k` down to `pos + 1`. -/
def moveUp (pos : ℕ) : ℕ → Vec α → Vec α
  | 0, v => v
  | k + 1, v => moveUp pos k (v.store sz (pos + k + 1) (v.data (pos + k)))

/-- `insert` up to the place where the value is written. -/
def openGap (v : Vec α) (pos : ℕ) : Vec α :=
  let v := v.grow sz
  let v := if v.dataSize ≠ 0 then v.store sz v.dataSize (v.data (v.dataSize - 1)) else v
  let v := moveUp sz pos (v.dataSize - 1 - pos) v
  { v with dataSize := (v.dataSize + 1) % 2 ^ 32 }

/-- `insert`; `none` is the exception. The reference is read after the elements were moved. -/
def insert (v : Vec α) (pos : ℕ) (value : Ref α) : Option (Vec α) :=
  if pos ≥ v.dataSize then none
  else
    let w := v.openGap sz pos
    some (w.store sz pos (value.read (v.seen w)))

/-- The loop of `erase` that moves `n` elements down. -/
def moveDown : ℕ → ℕ → ℕ → Vec α → Vec α
  | 0, _, _, v => v
  | n + 1, dst, src, v => moveDown n (dst + 1) (src + 1) (v.store sz dst (v.data src))

/-- `erase` of a range. -/
def eraseRange (v : Vec α) (start last : ℕ) : Vec α :=
  let last := if last > v.dataSize then v.dataSize else last
  let start := if start > last then last else start
  let v := moveDown sz (v.dataSize - last) start last v
  { v with dataSize := v.dataSize - (last - start) }

/-- `erase` of one element. -/
def erase (v : Vec α) (index : ℕ) : Vec α := v.eraseRange sz index ((index + 1) % 2 ^ 32)

/-- `clear`. -/
def clear (v : Vec α) : Vec α := v.eraseRange sz 0 v.dataSize

end Vec

/-- The methods that change a vector. -/
inductive VecMethod (α : Type*) where
  | pushBack (item : Ref α)
  | insert (pos : UInt32) (value : Ref α)
  | erase (index : UInt32)
  | eraseRange (start last : UInt32)
  | clear
  | reserve (newSize : UInt32)
  deriving DecidableEq, Repr

/-- The vectors of the code, with elements of `sz` bytes. -/
def vectorClass (α : Type*) (sz : ℕ+) : ObjectClass (Vec α) (VecMethod α) where
  fresh := .empty sz
  copy := .copy sz
  -- `operator=` takes a copy, and swaps with it
  assign other := some (other.copy sz)
  call v
    | .pushBack item => some (v.pushBack sz item)
    | .insert pos value => v.insert sz pos.toNat value
    | .erase index => some (v.erase sz index.toNat)
    | .eraseRange start last => some (v.eraseRange sz start.toNat last.toNat)
    | .clear => some (v.clear sz)
    | .reserve newSize => some (v.reserve sz newSize.toNat)

/-- What the vectors are for: lists. -/
def listClass (α : Type*) : ObjectClass (List α) (VecMethod α) where
  fresh := []
  copy l := l
  assign l := some l
  call l
    | .pushBack item => (item.read (l[·]?)).map fun x => l ++ [x]
    | .insert pos value =>
        if pos.toNat < l.length then (value.read (l[·]?)).map (l.insertIdx pos.toNat) else none
    | .erase index => some (l.eraseIdx index.toNat)
    | .eraseRange start last =>
        some (l.take (min start.toNat last.toNat) ++ l.drop last.toNat)
    | .clear => some []
    | .reserve _ => some l

namespace Vec

variable {α : Type*} {sz : ℕ+} {v : Vec α} {l : List α}

/-- The vector has these elements, and a block with a cell for each of them. -/
structure Represents (sz : ℕ+) (v : Vec α) (l : List α) : Prop where
  dataSize_eq : v.dataSize = l.length
  dataSize_le : v.dataSize ≤ v.reserved
  bytes_eq : v.bytes = v.reserved * sz
  bytes_lt : v.bytes < 2 ^ 32
  data_eq : ∀ i, i < l.length → v.data i = l[i]?
  overrun_eq : v.overrun = false

/-! ## The loops -/

/-- The vector with other contents of its cells. -/
def withData (v : Vec α) (data : ℕ → Option α) : Vec α := { v with data := data }

@[simp]
lemma dataSize_withData (data : ℕ → Option α) : (v.withData data).dataSize = v.dataSize := rfl

@[simp]
lemma data_withData (data : ℕ → Option α) : (v.withData data).data = data := rfl

lemma store_eq (v : Vec α) {i : ℕ} (x : Option α) (hi : (i + 1) * sz ≤ v.bytes) :
    v.store sz i x = v.withData (update v.data i x) := by
  rw [store, decide_eq_false (by omega), Bool.or_false]
  rfl

lemma cell_le {i n bytes : ℕ} (hn : n * sz ≤ bytes) (hi : i < n) : (i + 1) * sz ≤ bytes :=
  (Nat.mul_le_mul_right _ hi).trans hn

variable {n : ℕ}

lemma construct_eq (v : Vec α) (elements : ℕ → Option α) (hn : n * sz ≤ v.bytes) :
    construct sz elements n v = v.withData fun j => if j < n then elements j else v.data j := by
  induction n with
  | zero => rfl
  | succ n ih =>
    have hprev : n * sz ≤ v.bytes := (Nat.mul_le_mul_right _ n.le_succ).trans hn
    rw [construct, ih hprev, store_eq]
    swap
    · exact cell_le hn n.lt_succ_self
    refine congrArg v.withData (funext fun j => ?_)
    rcases Nat.lt_trichotomy j n with hj | rfl | hj
    · rw [update_of_ne hj.ne, if_pos (by omega)]
      exact if_pos hj
    · rw [update_self, if_pos j.lt_succ_self]
    · rw [update_of_ne hj.ne', if_neg (by omega)]
      exact if_neg (by omega)

lemma moveUp_eq (v : Vec α) {pos k : ℕ} (hk : (pos + k + 1) * sz ≤ v.bytes) :
    moveUp sz pos k v = v.withData fun j =>
      if pos < j ∧ j ≤ pos + k then v.data (j - 1) else v.data j := by
  induction k generalizing v with
  | zero =>
    refine congrArg v.withData (funext fun j => ?_)
    rw [if_neg (by omega)]
  | succ k ih =>
    rw [moveUp, store_eq v _ (cell_le hk (by omega)), ih]
    swap
    · exact cell_le hk (by omega)
    refine congrArg v.withData (funext fun j => ?_)
    dsimp only [withData]
    -- The cell written here is not read again: the next ones read in front of it.
    by_cases hj : j = pos + k + 1
    · subst hj
      rw [if_neg (by omega), if_pos (by omega), update_self, Nat.add_sub_cancel]
    · rw [update_of_ne hj]
      by_cases hmoved : pos < j ∧ j ≤ pos + k
      · rw [if_pos hmoved, if_pos (by omega), update_of_ne (by omega)]
      · rw [if_neg hmoved, if_neg (by omega)]

lemma moveDown_eq (v : Vec α) {n dst src : ℕ} (hle : dst ≤ src) (hn : (dst + n) * sz ≤ v.bytes) :
    moveDown sz n dst src v = v.withData fun j =>
      if dst ≤ j ∧ j < dst + n then v.data (j + (src - dst)) else v.data j := by
  induction n generalizing v dst src with
  | zero =>
    refine congrArg v.withData (funext fun j => ?_)
    rw [if_neg (by omega)]
  | succ n ih =>
    have hrest : (dst + 1 + n) * sz ≤ v.bytes := by rwa [Nat.add_right_comm]
    rw [moveDown, store_eq v _ (cell_le hn (by omega)), ih]
    rotate_left
    · omega
    · exact hrest
    refine congrArg v.withData (funext fun j => ?_)
    dsimp only [withData]
    -- The cells that are read later are behind the one that is written here.
    by_cases hj : j = dst
    · subst hj
      rw [if_neg (by omega), if_pos (by omega), update_self]
      congr 1
      omega
    · rw [update_of_ne hj]
      by_cases hmoved : dst + 1 ≤ j ∧ j < dst + 1 + n
      · rw [if_pos hmoved, if_pos (by omega), update_of_ne (by omega)]
        congr 1
        omega
      · rw [if_neg hmoved, if_neg (by omega)]

/-! ## The methods -/

namespace Represents

lemma size_le (h : Represents sz v l) : v.dataSize * sz ≤ v.bytes := by
  rw [h.bytes_eq]
  exact Nat.mul_le_mul_right _ h.dataSize_le

lemma reserved_lt (h : Represents sz v l) : v.reserved < 2 ^ 32 :=
  (Nat.le_mul_of_pos_right _ sz.pos).trans_lt (h.bytes_eq ▸ h.bytes_lt)

lemma unallocated (hn : n * sz < 2 ^ 32) :
    Represents sz ((Vec.unallocated n).reserve sz n : Vec α) [] ∧
      ((Vec.unallocated n).reserve sz n : Vec α).reserved = n := by
  have hbytes : sz * n % 2 ^ 32 = n * sz := by rw [Nat.mul_comm, Nat.mod_eq_of_lt hn]
  unfold Vec.reserve Vec.unallocated
  rw [if_neg (lt_irrefl _)]
  refine ⟨⟨rfl, Nat.zero_le _, hbytes, hbytes.trans_lt hn, fun i hi => ?_, rfl⟩, rfl⟩
  cases hi

section

variable (h : Represents sz v l)
include h

lemma reserve_eq (hn : n * sz < 2 ^ 32) (hge : v.reserved ≤ n) :
    v.reserve sz n = ⟨v.dataSize, n, n * sz, fun j => if j < v.dataSize then v.data j else none,
      v.overrun⟩ := by
  unfold Vec.reserve
  rw [if_neg (not_lt.mpr hge), Nat.mul_comm, Nat.mod_eq_of_lt hn, construct_eq]
  · rfl
  · exact Nat.mul_le_mul_right _ (h.dataSize_le.trans hge)

lemma reserve (hn : n * sz < 2 ^ 32) : Represents sz (v.reserve sz n) l := by
  rcases Nat.lt_or_ge n v.reserved with hlt | hge
  · unfold Vec.reserve
    rwa [if_pos hlt]
  · rw [h.reserve_eq hn hge]
    refine ⟨h.dataSize_eq, h.dataSize_le.trans hge, rfl, hn, fun i hi => ?_, h.overrun_eq⟩
    exact (if_pos (h.dataSize_eq ▸ hi)).trans (h.data_eq i hi)

section

variable (hroom : v.dataSize < v.reserved ∨ 0 < v.reserved ∧ v.reserved * 2 * sz < 2 ^ 32)
include hroom

lemma grow : Represents sz (v.grow sz) l ∧ (v.grow sz).dataSize < (v.grow sz).reserved := by
  unfold Vec.grow
  split
  · rename_i hfull
    obtain ⟨hpos, hlt⟩ := hroom.resolve_left (by omega)
    have hmod : v.reserved * 2 % 2 ^ 32 = v.reserved * 2 :=
      Nat.mod_eq_of_lt ((Nat.le_mul_of_pos_right _ sz.pos).trans_lt hlt)
    rw [hmod]
    refine ⟨h.reserve hlt, ?_⟩
    rw [h.reserve_eq hlt (by omega)]
    dsimp only
    omega
  · rename_i hne
    exact ⟨h, lt_of_le_of_ne h.dataSize_le hne⟩

/-- After that, there is a cell for one more element. -/
lemma exists_grow : ∃ w : Vec α, v.grow sz = w ∧ Represents sz w l ∧ w.dataSize < w.reserved ∧
    (w.dataSize + 1) * sz ≤ w.bytes ∧ (w.dataSize + 1) % 2 ^ 32 = w.dataSize + 1 := by
  obtain ⟨hw, hlt⟩ := h.grow hroom
  exact ⟨_, rfl, hw, hlt, cell_le hw.bytes_eq.ge hlt,
    Nat.mod_eq_of_lt (lt_of_le_of_lt hlt hw.reserved_lt)⟩

lemma pushBack {item : Ref α} {x : α} (hx : item.read (v.seen (v.grow sz)) = some x) :
    Represents sz (v.pushBack sz item) (l ++ [x]) := by
  obtain ⟨w, hgrow, hw, hlt, hcell, hsize⟩ := h.exists_grow hroom
  have hn := hw.dataSize_eq
  unfold Vec.pushBack
  dsimp only
  rw [hx, hgrow, store_eq w _ hcell, hsize]
  refine ⟨?_, hlt, hw.bytes_eq, hw.bytes_lt, fun i hi => ?_, hw.overrun_eq⟩
  · rw [length_append, ← hw.dataSize_eq]
    rfl
  · dsimp only [withData]
    rw [length_append, length_singleton] at hi
    by_cases hi' : i = w.dataSize
    · rw [hi', update_self, hw.dataSize_eq, getElem?_concat_length]
    · rw [update_of_ne hi', getElem?_append_left (by omega : i < l.length)]
      exact hw.data_eq i (by omega)

/-- The elements from the position on are moved up by one, and the one at the position stays where
it is, too. -/
lemma openGap {pos : ℕ} (hpos : pos < l.length) :
    ∃ w : Vec α, v.openGap sz pos = w ∧ w.dataSize = l.length + 1 ∧ w.dataSize ≤ w.reserved ∧
      w.bytes = w.reserved * sz ∧ w.bytes < 2 ^ 32 ∧ w.overrun = false ∧
      ∀ i ≤ l.length, w.data i = if i ≤ pos then l[i]? else l[i - 1]? := by
  obtain ⟨w, hgrow, hw, hlt, hcell, hsize⟩ := h.exists_grow hroom
  have hn := hw.dataSize_eq
  refine ⟨_, rfl, ?_⟩
  unfold Vec.openGap
  dsimp only
  rw [hgrow, if_pos (by omega), store_eq w _ hcell, dataSize_withData, moveUp_eq]
  swap
  · exact cell_le hw.bytes_eq.ge (by omega)
  simp only [data_withData, dataSize_withData, hsize]
  refine ⟨by omega, hlt, hw.bytes_eq, hw.bytes_lt, hw.overrun_eq, fun i hi => ?_⟩
  by_cases hip : i ≤ pos
  · rw [if_neg (by omega), update_of_ne (by omega), if_pos hip]
    exact hw.data_eq i (by omega)
  · rw [if_neg hip]
    -- The last element has its copy behind it, the others were moved by the loop.
    by_cases hlast : i = w.dataSize
    · rw [if_neg (by omega), hlast, update_self]
      exact hw.data_eq _ (by omega)
    · rw [if_pos (by omega), update_of_ne (by omega)]
      exact hw.data_eq _ (by omega)

lemma insert {pos : ℕ} {value : Ref α} {x : α} (hpos : pos < l.length)
    (hx : value.read (v.seen (v.openGap sz pos)) = some x) :
    ∃ v', v.insert sz pos value = some v' ∧ Represents sz v' (l.insertIdx pos x) := by
  obtain ⟨w, hw, hsize, hle, hbytes, hlt, hover, hdata⟩ := h.openGap hroom hpos
  refine ⟨w.store sz pos (some x), ?_, ?_⟩
  · unfold Vec.insert
    rw [if_neg (by rw [h.dataSize_eq]; omega)]
    dsimp only
    rw [hx, hw]
  rw [store_eq _ _ (cell_le hbytes.ge (by omega))]
  have hlength := length_insertIdx_of_le_length (a := x) hpos.le
  refine ⟨hsize.trans hlength.symm, hle, hbytes, hlt, fun i hi => ?_, hover⟩
  dsimp only [withData]
  rcases Nat.lt_trichotomy i pos with hip | rfl | hip
  · rw [update_of_ne hip.ne, hdata i (by omega), if_pos hip.le, getElem?_insertIdx_of_lt hip]
  · rw [update_self, getElem?_insertIdx_self, if_pos hpos.le]
  · rw [update_of_ne hip.ne', hdata i (by omega), if_neg (by omega), getElem?_insertIdx_of_gt hip]

end

end

lemma take_append_drop_clamped (l : List α) (start last : ℕ) :
    l.take (min start (min last l.length)) ++ l.drop (min last l.length) =
      l.take (min start last) ++ l.drop last := by
  rcases Nat.le_total last l.length with hle | hle
  · rw [Nat.min_eq_left hle]
  · rw [Nat.min_eq_right hle, drop_length, drop_of_length_le hle, append_nil,
      append_nil, take_eq_take_iff]
    omega

section

variable (h : Represents sz v l)
include h

lemma eraseRange (start last : ℕ) :
    Represents sz (v.eraseRange sz start last) (l.take (min start last) ++ l.drop last) := by
  have hn := h.dataSize_eq
  rw [← take_append_drop_clamped]
  have hlast : (if last > v.dataSize then v.dataSize else last) = min last l.length := by
    split <;> omega
  unfold Vec.eraseRange
  dsimp only
  rw [hlast]
  set b := min last l.length
  have hstart : (if start > b then b else start) = min start b := by split <;> omega
  rw [hstart]
  set a := min start b
  have hfits : (a + (v.dataSize - b)) * sz ≤ v.bytes :=
    (Nat.mul_le_mul_right _ (by omega)).trans h.size_le
  rw [moveDown_eq v (by omega) hfits]
  have hlength : (l.take a ++ l.drop b).length = l.length - (b - a) := by
    rw [length_append, length_take, length_drop]
    omega
  have hle := h.dataSize_le
  refine ⟨?_, ?_, h.bytes_eq, h.bytes_lt, fun i hi => ?_, h.overrun_eq⟩
  · rw [hlength, ← hn]
    rfl
  · dsimp only [withData]
    omega
  · rw [hlength] at hi
    dsimp only [withData]
    -- in front of the range nothing is moved, behind it everything by its length
    by_cases hia : i < a
    · rw [if_neg (by omega), getElem?_append_left (by rw [length_take]; omega),
        getElem?_take_of_lt hia]
      exact h.data_eq i (by omega)
    · have hdrop : i - (l.take a).length + b = i + (b - a) := by
        rw [length_take]
        omega
      rw [if_pos (by omega), getElem?_append_right (by rw [length_take]; omega),
        getElem?_drop, Nat.add_comm b, hdrop]
      exact h.data_eq _ (by omega)

lemma erase {index : ℕ} (hindex : index < 2 ^ 32) :
    Represents sz (v.erase sz index) (l.eraseIdx index) := by
  have hsize : l.length < 2 ^ 32 := h.dataSize_eq ▸ h.dataSize_le.trans_lt h.reserved_lt
  unfold Vec.erase
  rcases Nat.lt_or_ge (index + 1) (2 ^ 32) with hlt | hge
  · have herase := h.eraseRange index (index + 1)
    rwa [Nat.min_eq_left index.le_succ, ← eraseIdx_eq_take_drop_succ,
      ← Nat.mod_eq_of_lt hlt] at herase
  · -- The end of the range wraps, and nothing is removed; there was nothing at the index.
    have hzero : (index + 1) % 2 ^ 32 = 0 := by omega
    have herase := h.eraseRange index 0
    rw [Nat.min_zero, take_zero, nil_append, drop_zero] at herase
    rwa [hzero, eraseIdx_of_length_le (by omega)]

lemma clear : Represents sz (v.clear sz) [] := by
  have herase := h.eraseRange 0 v.dataSize
  rwa [Nat.zero_min, take_zero, nil_append, drop_of_length_le h.dataSize_eq.ge] at herase

lemma copy : Represents sz (v.copy sz) l := by
  have hn : v.dataSize * sz < 2 ^ 32 := h.size_le.trans_lt h.bytes_lt
  obtain ⟨hw, hreserved⟩ := unallocated (α := α) hn
  unfold Vec.copy
  set w := (Vec.unallocated v.dataSize).reserve sz v.dataSize
  clear_value w
  rw [construct_eq]
  swap
  · exact hw.bytes_eq.ge
  refine ⟨hreserved.trans h.dataSize_eq, le_rfl, hw.bytes_eq, hw.bytes_lt, fun i hi => ?_,
    hw.overrun_eq⟩
  have hi' : i < w.reserved := hreserved ▸ h.dataSize_eq ▸ hi
  exact (if_pos hi').trans (h.data_eq i hi)

end

end Represents

end Vec

variable {α : Type*} {sz : ℕ+}

/-! ## Any number of vectors -/

/-- The block has room for a new element, or it has cells and one of twice the size has a number
of bytes of 32 bits. -/
def Vec.HasRoom (sz : ℕ+) (v : Vec α) : Prop :=
  v.dataSize < v.reserved ∨ 0 < v.reserved ∧ v.reserved * 2 * sz < 2 ^ 32
  deriving Decidable

/-- A new element at the position leaves what the reference is bound to as it is: if it is an
element, the block is not replaced, and the element is not moved or equals the one in front of it,
which comes to its place. -/
def Ref.Stays (v : Vec α) (pos : ℕ) : Ref α → Prop
  | .value _ => True
  | .element i => i.toNat < v.dataSize ∧ v.dataSize < v.reserved ∧
      (i.toNat ≤ pos ∨ v.data i.toNat = v.data (i.toNat - 1))

instance Ref.decidableStays [DecidableEq α] (v : Vec α) (pos : ℕ) :
    (r : Ref α) → Decidable (r.Stays v pos)
  | .value _ => inferInstanceAs (Decidable True)
  | .element _ => inferInstanceAs (Decidable (_ ∧ _ ∧ (_ ∨ _)))

/-- The condition for a call. -/
def VecMethod.Allowed (sz : ℕ+) (v : Vec α) : VecMethod α → Prop
  | .pushBack item => v.HasRoom sz ∧ item.Stays v v.dataSize
  | .insert pos value => v.HasRoom sz ∧ value.Stays v pos.toNat
  | .reserve newSize => newSize.toNat * sz < 2 ^ 32
  | .erase _ | .eraseRange _ _ | .clear => True

instance VecMethod.decidableAllowed [DecidableEq α] (v : Vec α) :
    (m : VecMethod α) → Decidable (m.Allowed sz v)
  | .pushBack _ | .insert _ _ => inferInstanceAs (Decidable (_ ∧ _))
  | .reserve _ => inferInstanceAs (Decidable (_ < _))
  | .erase _ | .eraseRange _ _ | .clear => inferInstanceAs (Decidable True)

variable {v w : Vec α} {l : List α} {pos : ℕ} {r : Ref α}

/-- A reference is read behind the moves as it was before them. -/
lemma Ref.Stays.exists_read (hr : r.Stays v pos) (h : v.Represents sz l)
    (hdata : v.dataSize < v.reserved →
      ∀ i < l.length, w.data i = if i ≤ pos then l[i]? else l[i - 1]?) :
    ∃ x, r.read (l[·]?) = some x ∧ r.read (v.seen w) = some x := by
  cases r with
  | value x => exact ⟨x, rfl, rfl⟩
  | element i =>
    obtain ⟨hi, hlt, hstays⟩ := hr
    rw [h.dataSize_eq] at hi
    refine ⟨l[i.toNat], getElem?_eq_getElem hi, ?_⟩
    show v.seen w i.toNat = _
    rw [Vec.seen, if_neg (by omega), hdata hlt _ hi]
    split
    · exact getElem?_eq_getElem hi
    · have heq := hstays.resolve_left ‹_›
      rw [h.data_eq _ hi, h.data_eq _ (by omega)] at heq
      rw [← heq]
      exact getElem?_eq_getElem hi

/-- A vector with room does what a list does. -/
lemma vectorClass_refines : (vectorClass α sz).Refines (listClass α) (10 * sz < 2 ^ 32)
    (fun v m => m.Allowed sz v) (Vec.Represents sz) where
  fresh hten := (Vec.Represents.unallocated hten).1
  copy _ _ h := h.copy
  assign _ l _ h hassign := by
    cases hassign
    exact ⟨l, rfl, h.copy⟩
  call v l m v' h hallowed hcall := by
    cases m with
    | pushBack item =>
      cases hcall
      obtain ⟨x, hl, hv⟩ := hallowed.2.exists_read h (w := v.grow sz) fun hlt i hi => by
        rw [Vec.grow, if_neg hlt.ne, if_pos (h.dataSize_eq ▸ hi.le), h.data_eq i hi]
      refine ⟨l ++ [x], ?_, h.pushBack hallowed.1 hv⟩
      show (item.read _).map _ = _
      rw [hl, Option.map_some]
    | insert pos value =>
      have hpos : pos.toNat < l.length := by
        by_contra hpos
        have hnone : v.insert sz pos.toNat value = none :=
          if_pos (by rw [h.dataSize_eq]; omega)
        exact nomatch hnone.symm.trans hcall
      obtain ⟨w, hw, -, -, -, -, -, hdata⟩ := h.openGap hallowed.1 hpos
      obtain ⟨x, hl, hv⟩ := hallowed.2.exists_read h fun _ i hi => hdata i hi.le
      obtain ⟨v'', hv'', hrep⟩ := h.insert hallowed.1 hpos (hw ▸ hv)
      refine ⟨l.insertIdx pos.toNat x, ?_, Option.some.inj (hv''.symm.trans hcall) ▸ hrep⟩
      show (if _ then (value.read _).map _ else none) = _
      rw [if_pos hpos, hl, Option.map_some]
    | erase index =>
      cases hcall
      exact ⟨_, rfl, h.erase index.toNat_lt⟩
    | eraseRange start last =>
      cases hcall
      exact ⟨_, rfl, h.eraseRange _ _⟩
    | clear =>
      cases hcall
      exact ⟨_, rfl, h.clear⟩
    | reserve newSize =>
      cases hcall
      exact ⟨_, rfl, h.reserve hallowed⟩

/-- In every run whose calls are allowed, the vectors have the elements that lists would have, and
no element was written outside of a block. -/
theorem represents_of_traces {as : List (ObjectAction (VecMethod α))} {s : ℕ → Option (Vec α)}
    (hs : (vectorClass α sz).system.Traces
      (ObjectClass.Guarded (10 * sz < 2 ^ 32) fun v m => m.Allowed sz v) as s) :
    ∃ t, (listClass α).system.run (fun _ => none) as = some t ∧
      ∀ v, Option.Rel (Vec.Represents sz) (s v) (t v) :=
  vectorClass_refines.simulates.exists_run hs

/-- Two vectors of numbers: the second is made as a copy of the first, and assigned to it. -/
def twoVectors : List (ObjectAction (VecMethod ℕ)) :=
  [.construct 0, .call 0 (.pushBack (.value 3)), .call 0 (.insert 0 (.value 9)),
    .call 0 (.pushBack (.element 1)), .copy 1 0, .call 1 (.pushBack (.value 5)), .call 1 (.erase 0),
    .assign 0 1]

theorem represents_twoVectors : ∃ s t,
    (vectorClass ℕ 4).system.Traces
      (ObjectClass.Guarded (10 * ((4 : ℕ+) : ℕ) < 2 ^ 32) fun v m => m.Allowed 4 v) twoVectors s ∧
    (listClass ℕ).system.run (fun _ => none) twoVectors = some t ∧ t 1 = some [3, 3, 5] ∧
      ∀ v, Option.Rel (Vec.Represents 4) (s v) (t v) := by
  have hrun : (((vectorClass ℕ 4).system.guarded (ObjectClass.Guarded
      (10 * ((4 : ℕ+) : ℕ) < 2 ^ 32) fun v m => m.Allowed 4 v)).run (fun _ => none)
      twoVectors).isSome = true := by decide
  obtain ⟨s, hs⟩ := Option.isSome_iff_exists.mp hrun
  have htrace := System.traces_of_run_guarded (.init rfl) hs
  obtain ⟨t, ht, hrel⟩ := represents_of_traces htrace
  refine ⟨s, t, htrace, ht, ?_, hrel⟩
  have hlist : ((listClass ℕ).system.run (fun _ => none) twoVectors).any
      (fun t => t 1 = some [3, 3, 5]) = true := by decide
  rw [nil_append] at ht
  rw [ht] at hlist
  exact of_decide_eq_true hlist

/-- An element pushed into a copy of an empty vector is written outside of its block. -/
theorem exists_overrun : ∃ s, (vectorClass ℕ 4).system.Reachable s ∧
    (s 1).any (fun v => v.overrun && decide (v.reserved < v.dataSize)) = true := by
  have hrun : ((vectorClass ℕ 4).system.run (fun _ => none)
      [.construct 0, .copy 1 0, .call 1 (.pushBack (.value 7))]).any
      (fun s => (s 1).any fun v => v.overrun && decide (v.reserved < v.dataSize)) = true := by
    decide
  exact System.exists_reachable_of_run rfl hrun

end Ministl
