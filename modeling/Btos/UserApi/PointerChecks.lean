import Btos.Memory.Addresses
import Btos.Memory.Coherence
import Btos.Memory.SharedMemory
import Btos.Memory.ShmCalls
import Btos.UserApi.Access

/-!
# What the check of a pointer is worth

`is_safe_ptr` asks `resolve_addr` for one address after the other, and goes on by the number that
it gets. That number is the place of the address in its page where it should be what is left of
the page. The walk does not skip a page, but it may end before it has entered the last one. The
ends of the range are not checked against the end of the address space either.

Main results: `safeRange_iff` and `exists_not_safeRange`.
-/

open Option BitVec

namespace Memory

namespace State

/-! ## Checks -/

/-- `PageDirectory::resolve_addr`: 0 for an address that is not mapped. The number that
`is_safe_ptr` goes on by is taken from the place of the address in its page. -/
def resolveAddr (s : State) (d : ℕ) (addr : Word) : Option (ℕ × State) :=
  (s.handlePf d addr).map fun (_, s) =>
    let (physaddr, s) := s.virt2phys d addr
    let ret := physaddr.toNat % pageSize
    (if physaddr = 0 then 0 else if ret = 0 then pageSize else ret, s)

/-- The loop of `is_safe_ptr`, for at most `n` rounds; `none` when they are used up. -/
def isSafeLoop (ptr size : Word) : ℕ → Word → State → Option (Bool × State)
  | 0, i, s => if i < size then none else some (true, s)
  | n + 1, i, s =>
      if i < size then
        (s.resolveAddr s.current (ptr + i)).bind fun (res, s) =>
          if res = 0 then some (false, s)
          -- The counter is a `size_t` as well and may wrap.
          else isSafeLoop ptr size n (i + BitVec.ofNat 32 res) s
      else some (true, s)

/-- `is_safe_ptr` for the calling process. -/
def isSafePtr (s : State) (n : ℕ) (ptr size : Word) : Option (Bool × State) :=
  if ptr ≥ kernelBoundary then isSafeLoop ptr size n 0 s else some (false, s)

end State

/-! ## The walk -/

/-- The number that `resolve_addr` returns for a mapped address. -/
def stride (a : ℕ) : ℕ := if a % pageSize = 0 then pageSize else a % pageSize

/-- The address that is asked for in round `k`. -/
def walk (a : ℕ) : ℕ → ℕ
  | 0 => a
  | k + 1 => walk (a + stride a) k

/-- An address on page `p`, before the end `e` of the range, is asked for. -/
def Enters (a e p : ℕ) : Prop := ∃ k, walk a k < e ∧ walk a k / pageSize = p

lemma stride_pos (a : ℕ) : 0 < stride a := by
  rw [stride, pageSize]
  split <;> omega

lemma stride_le (a : ℕ) : stride a ≤ pageSize := by
  rw [stride, pageSize]
  split <;> omega

lemma le_walk (a k : ℕ) : a ≤ walk a k := by
  induction k generalizing a with
  | zero => exact le_refl a
  | succ k ih => exact le_trans (Nat.le_add_right a _) (ih _)

lemma enters_iff {a e p : ℕ} (ha : a < e) :
    Enters a e p ↔ p = a / pageSize ∨ Enters (a + stride a) e p := by
  constructor
  · rintro ⟨k, hlt, rfl⟩
    cases k with
    | zero => exact .inl rfl
    | succ k => exact .inr ⟨k, hlt, rfl⟩
  · rintro (rfl | ⟨k, hlt, hp⟩)
    · exact ⟨0, ha, rfl⟩
    · exact ⟨k + 1, hlt, hp⟩

lemma not_enters {a e p : ℕ} (ha : e ≤ a) : ¬ Enters a e p := by
  rintro ⟨k, hlt, -⟩
  have := le_walk a k
  omega

lemma Enters.exists_lt {a e p : ℕ} (h : Enters a e p) : ∃ k < e - a, (a + k) / pageSize = p := by
  obtain ⟨k, hlt, hp⟩ := h
  have hle := le_walk a k
  refine ⟨walk a k - a, by omega, ?_⟩
  rw [Nat.add_sub_cancel' hle]
  exact hp

/-- A round leads at most to the next page, so every page is entered that lies in the range with
its end. -/
lemma enters_of_lt {a e p : ℕ} (hp : a / pageSize ≤ p) (he : (p + 1) * pageSize ≤ e) :
    Enters a e p := by
  induction hn : (p + 1) * pageSize - a using Nat.strong_induction_on generalizing a with
  | _ n ih =>
    have hlt : a < e := by
      simp only [pageSize] at hp he
      omega
    rw [enters_iff hlt]
    by_cases heq : p = a / pageSize
    · exact .inl heq
    · have hpos := stride_pos a
      have hle := stride_le a
      refine .inr (ih _ ?_ ?_ rfl) <;>
        · simp only [pageSize] at *
          omega

namespace State

/-! ## Checked ranges -/

/-- The entries that the current directory has cached for pages in user space are right. -/
structure UserCached (s : State) : Prop where
  wf : WF s
  cached : HitCache.Holds (fun q v => kernelPages ≤ q → v = s.view s.current q)
    (s.dirs s.current).entrycache

/-- The page is present in the current directory. -/
def Mapped (s : State) (p : ℕ) : Prop := isPresent (s.stored s.current p) = true

/-- Every byte of the range is in user space, in front of the end of the address space, and on a
page that is present. -/
def SafeRange (s : State) (ptr size : Word) : Prop :=
  ∀ k < size.toNat, kernelBoundary.toNat ≤ ptr.toNat + k ∧ ptr.toNat + k < 2 ^ 32 ∧
    s.Mapped ((ptr.toNat + k) / pageSize)

/-- What makes the check of a range sufficient. -/
structure Sufficient (s : State) (ptr size : Word) : Prop where
  no_wrap : ptr.toNat + size.toNat ≤ 2 ^ 32
  /-- A page that has a frame is present. -/
  present : ∀ p, Enters ptr.toNat (ptr.toNat + size.toNat) p →
    frame (s.stored s.current p) ≠ 0 → s.Mapped p
  /-- The page of the last byte is looked at, or no look is necessary. -/
  last : Enters ptr.toNat (ptr.toNat + size.toNat) ((ptr.toNat + size.toNat - 1) / pageSize) ∨
    s.Mapped ((ptr.toNat + size.toNat - 1) / pageSize)

variable {s s' s'' : State} {p : ℕ} {e addr : Word} {V V' : ℕ → Prop}

lemma CacheInv.userCached (h : CacheInv s) : UserCached s :=
  ⟨h.wf, fun x hx hne _ => h.caches _ h.wf.current_mem x hx hne⟩

lemma UserCached.ne_windowPage (h : UserCached s) (hp : kernelPages ≤ p) : p ≠ s.windowPage :=
  fun heq => absurd h.wf.window_lt (Nat.not_lt.mpr (heq ▸ hp))

/-! ## Paging in -/

/-- A step that leaves the entries in user space, except for those of the pages in `V` that have
no frame: they may become present. -/
structure PagesIn (s s' : State) (V : ℕ → Prop) : Prop where
  cached : UserCached s'
  current_eq : s'.current = s.current
  entry : ∀ q, kernelPages ≤ q → s'.stored s.current q = s.stored s.current q ∨
    V q ∧ frame (s.stored s.current q) = 0 ∧ isPresent (s'.stored s.current q) = true

lemma UserCached.pagesIn (h : UserCached s) : PagesIn s s V :=
  ⟨h, rfl, fun _ _ => .inl rfl⟩

lemma PagesIn.trans (h : PagesIn s s' V) (h' : PagesIn s' s'' V) : PagesIn s s'' V := by
  refine ⟨h'.cached, h'.current_eq.trans h.current_eq, fun q hq => ?_⟩
  have hentry' := h'.entry q hq
  rw [h.current_eq] at hentry'
  rcases h.entry q hq with heq | ⟨hV, h0, hpresent⟩
  · rw [heq] at hentry'
    exact hentry'
  · rcases hentry' with heq' | ⟨-, -, hpresent'⟩
    · exact .inr ⟨hV, h0, heq' ▸ hpresent⟩
    · exact .inr ⟨hV, h0, hpresent'⟩

lemma PagesIn.mono (h : PagesIn s s' V) (hV : ∀ q, V q → V' q) : PagesIn s s' V' :=
  ⟨h.cached, h.current_eq, fun q hq => (h.entry q hq).imp_right fun hq => ⟨hV q hq.1, hq.2⟩⟩

lemma PagesIn.entry_eq (h : PagesIn s s' V) {q : ℕ} (hq : kernelPages ≤ q)
    (hne : frame (s.stored s.current q) ≠ 0) : s'.stored s.current q = s.stored s.current q :=
  (h.entry q hq).resolve_right fun hin => hne hin.2.1

section

variable (h : UserCached s)
include h

/-- A lookup finds the entry of the page table. -/
lemma UserCached.lookup (hp : kernelPages ≤ p) :
    (s.getTableEntry s.current p).1 = s.stored s.current p ∧
      PagesIn s (s.getTableEntry s.current p).2 V := by
  have hw := h.ne_windowPage hp
  have hlooked := getTableEntry_looked h.wf h.wf.current_mem h.wf.window_current p
  obtain ⟨hvalue, hcache⟩ :=
    getTableEntry_eq_view h.wf hw h.cached (fun _ _ => rfl) fun _ hv => hv hp
  rw [view_eq_stored hw] at hvalue
  refine ⟨hvalue, ⟨hlooked.wf h.wf, ?_⟩, hlooked.current_eq, fun q hq => .inl ?_⟩
  · rw [hlooked.current_eq]
    simp only [hlooked.view_eq _ h.wf.current_mem]
    exact hcache
  · have hview := hlooked.view_eq _ h.wf.current_mem q
    have hqw := h.ne_windowPage hq
    rwa [view_eq_stored (hlooked.windowPage_eq ▸ hqw), view_eq_stored hqw] at hview

/-- An entry of a page without a frame becomes present. -/
lemma UserCached.entrySet
    (h0 : frame (s.stored s.current p) = 0) (he : isPresent e = true) (hset : EntrySet s s' p e) :
    PagesIn s s' (· = p) := by
  refine ⟨⟨hset.wf, ?_⟩, hset.current_eq, fun q hq => ?_⟩
  · rw [hset.current_eq, hset.cache_self]
    refine HitCache.clear_holds h.cached fun q v hqp hv hq => ?_
    rw [hset.view_other _ h.wf.current_mem q hqp]
    exact hv hq
  · by_cases hqp : q = p
    · rw [hqp, hset.stored_self]
      exact .inr ⟨rfl, h0, he⟩
    · have hview := hset.view_other _ h.wf.current_mem q hqp
      have hqw := h.ne_windowPage hq
      rw [view_eq_stored (hset.windowPage_eq ▸ hqw), view_eq_stored hqw] at hview
      exact .inl hview

/-- A space may get a page, which is nothing that the page tables show. -/
lemma UserCached.spacePage {id : ℕ} {space : ShmSpace} {page : PageRef} {a : Word}
    (hs : s.spacePage id space a = some (page, s')) :
    UserCached s' ∧ s'.current = s.current ∧ ∀ q, s'.stored s.current q = s.stored s.current q := by
  have hwf := (Fault.wf_spacePage h.wf hs).1
  unfold State.spacePage at hs
  split at hs
  · cases hs
    exact ⟨h, rfl, fun _ => rfl⟩
  · obtain ⟨⟨r, phys⟩, -, heq⟩ := map_eq_some_iff.mp hs
    cases heq
    exact ⟨⟨hwf, h.cached⟩, rfl, fun _ => rfl⟩

lemma UserCached.shmPfHandler {id : ℕ}
    (h0 : frame (s.stored s.current (pageOf addr)) = 0) (hs : s.shmPfHandler id addr = some s') :
    PagesIn s s' (· = pageOf addr) := by
  unfold State.shmPfHandler at hs
  split at hs
  · simp at hs
  split at hs
  · simp at hs
  obtain ⟨⟨page, s1⟩, hpage, hs⟩ := bind_eq_some_iff.mp hs
  obtain ⟨h1, hcurrent, hstored⟩ := h.spacePage hpage
  have hset := mapPageAt_entrySet h1.wf hs
  rw [pageOf_mask] at hset
  have hin : PagesIn s1 s' (· = pageOf addr) := by
    refine h1.entrySet ?_ ?_ hset
    · rw [hcurrent, hstored]
      exact h0
    · rw [isPresent_or (aligned_address _ _)]
      decide
  refine ⟨hin.cached, hin.current_eq.trans hcurrent, fun q hq => ?_⟩
  rw [← hstored, ← hcurrent]
  exact hin.entry q hq

lemma UserCached.mmapRead {id : ℕ}
    (h0 : frame (s.stored s.current (pageOf addr)) = 0) (hs : s.mmapRead id addr = some s') :
    PagesIn s s' (· = pageOf addr) := by
  unfold State.mmapRead at hs
  split at hs
  · simp at hs
  split at hs
  · simp at hs
  · obtain ⟨f, -, -, -, hf, hset⟩ := mapNewPageAt_entrySet h.wf hs
    rw [pageOf_mask] at hset
    refine h.entrySet h0 ?_ hset
    rw [isPresent_or hf]
    split <;> decide

end

lemma toNat_frame_add_mod (e addr : Word) :
    (frame e + (addr &&& ~~~addressMask)).toNat % pageSize = addr.toNat % pageSize := by
  have hmask : (~~~addressMask).toNat = 2 ^ 12 - 1 := by decide
  have hoffset : (addr &&& ~~~addressMask).toNat = addr.toNat % pageSize := by
    rw [toNat_and, hmask, Nat.and_two_pow_sub_one_eq_mod]
    rfl
  rw [toNat_add, hoffset, frame_toNat]
  simp only [pageSize]
  omega

section

variable (h : UserCached s) (haddr : kernelPages ≤ pageOf addr)
include h haddr

/-- `virt2phys` gives 0 for a page without a frame, and an address in the frame otherwise. -/
lemma UserCached.virt2phys :
    PagesIn s (s.virt2phys s.current addr).2 V ∧
      ((s.virt2phys s.current addr).1 = 0 ↔ frame (s.stored s.current (pageOf addr)) = 0) ∧
      (frame (s.stored s.current (pageOf addr)) ≠ 0 →
        (s.virt2phys s.current addr).1.toNat % pageSize = addr.toNat % pageSize) := by
  obtain ⟨hvalue, hin⟩ := h.lookup haddr
  dsimp only [State.virt2phys]
  rw [hvalue]
  refine ⟨hin, ?_, fun hne => ?_⟩
  · by_cases hne : frame (s.stored s.current (pageOf addr)) = 0
    · rw [if_neg (not_not.mpr hne)]
    · rw [if_pos hne]
      exact iff_of_false (frame_add_ne_zero hne) hne
  · rw [if_pos hne]
    exact toNat_frame_add_mod _ _

lemma UserCached.handlePf {b : Bool}
    (hs : s.handlePf s.current addr = some (b, s')) : PagesIn s s' (· = pageOf addr) := by
  obtain ⟨h1, hzero, -⟩ := h.virt2phys haddr
  have hin : PagesIn s _ (· = pageOf addr) := h1.mono fun _ => False.elim
  obtain ⟨-, rfl⟩ | ⟨-, hphys, r, -, hhandle⟩ := handlePf_cases hs
  · exact hin
  set s1 := (s.virt2phys s.current addr).2
  -- The handler is called for a page without a frame.
  have h0 : frame (s1.stored s1.current (pageOf addr)) = 0 := by
    rw [h1.current_eq, (h1.entry _ haddr).resolve_right fun hq => hq.1]
    exact hzero.mp hphys
  refine hin.trans ?_
  unfold pfHandle at hhandle
  split at hhandle
  · exact h1.cached.shmPfHandler h0 hhandle
  · exact h1.cached.mmapRead h0 hhandle

/-- `resolve_addr` pages the address in, and finds the page with a frame or returns 0. -/
lemma UserCached.resolveAddr {res : ℕ} (hs : s.resolveAddr s.current addr = some (res, s')) :
    PagesIn s s' (· = pageOf addr) ∧
      (res ≠ 0 → res = stride addr.toNat ∧ frame (s'.stored s.current (pageOf addr)) ≠ 0) := by
  obtain ⟨⟨b, s1⟩, hpf, heq⟩ := map_eq_some_iff.mp hs
  have hres : (if (s1.virt2phys s.current addr).1 = 0 then 0 else
      stride (s1.virt2phys s.current addr).1.toNat) = res := congrArg Prod.fst heq
  obtain rfl : (s1.virt2phys s.current addr).2 = s' := congrArg Prod.snd heq
  have h1 := h.handlePf haddr hpf
  obtain ⟨h2, hzero, hmod⟩ := h1.cached.virt2phys haddr
  rw [h1.current_eq] at h2 hzero hmod
  refine ⟨h1.trans (h2.mono fun _ => False.elim), fun hne => ?_⟩
  have hphys : (s1.virt2phys s.current addr).1 ≠ 0 := by
    intro h0
    rw [if_pos h0] at hres
    exact hne hres.symm
  have hframe := mt hzero.mpr hphys
  constructor
  · rw [← hres, if_neg hphys, stride, hmod hframe, stride]
  · have hentry := h2.entry _ haddr
    rw [h1.current_eq] at hentry
    rw [hentry.resolve_right fun hq => hq.1]
    exact hframe

end

/-! ## Checking a range -/

lemma kernelPages_le_of_boundary {ptr : Word} (hptr : kernelBoundary ≤ ptr) {a : ℕ}
    (ha : ptr.toNat ≤ a) : kernelPages ≤ a / pageSize := by
  rw [le_def] at hptr
  have hval : kernelBoundary.toNat = kernelPages * pageSize := rfl
  rw [hval] at hptr
  exact (Nat.le_div_iff_mul_le (by decide)).mpr (hptr.trans ha)

/-- The address that a round asks for, which is in user space. -/
lemma toNat_round {ptr size i : Word} (hptr : kernelBoundary ≤ ptr)
    (hwrap : ptr.toNat + size.toNat ≤ 2 ^ 32) (hi : i < size) :
    (ptr + i).toNat = ptr.toNat + i.toNat ∧ kernelPages ≤ pageOf (ptr + i) := by
  rw [lt_def] at hi
  have haddr : (ptr + i).toNat = ptr.toNat + i.toNat := by
    rw [toNat_add, Nat.mod_eq_of_lt (by omega)]
  refine ⟨haddr, ?_⟩
  rw [pageOf, haddr]
  exact kernelPages_le_of_boundary hptr (Nat.le_add_right _ _)

variable {n : ℕ}

/-- The loop is over, and nothing more is entered. -/
lemma UserCached.isSafeLoop_of_not_lt (h : UserCached s) {ptr size i : Word}
    (hi : ¬ i < size) (hs : isSafeLoop ptr size n i s = some (true, s')) :
    PagesIn s s' (Enters (ptr.toNat + i.toNat) (ptr.toNat + size.toNat)) ∧
      ∀ q, Enters (ptr.toNat + i.toNat) (ptr.toNat + size.toNat) q →
        frame (s'.stored s.current q) ≠ 0 := by
  have hloop : isSafeLoop ptr size n i s = some (true, s) := by
    cases n <;> rw [State.isSafeLoop, if_neg hi]
  rw [hloop] at hs
  obtain rfl : s = s' := congrArg Prod.snd (some.inj hs)
  rw [lt_def] at hi
  exact ⟨h.pagesIn, fun q hq => absurd hq (not_enters (by omega))⟩

/-- A run of the loop that ends with true pages in what it enters, and finds frames there. -/
lemma UserCached.isSafeLoop (h : UserCached s) {ptr size i : Word}
    (hptr : kernelBoundary ≤ ptr) (hwrap : ptr.toNat + size.toNat ≤ 2 ^ 32)
    (hs : isSafeLoop ptr size n i s = some (true, s')) :
    PagesIn s s' (Enters (ptr.toNat + i.toNat) (ptr.toNat + size.toNat)) ∧
      ∀ q, Enters (ptr.toNat + i.toNat) (ptr.toNat + size.toNat) q →
        frame (s'.stored s.current q) ≠ 0 := by
  induction n generalizing s i with
  | zero =>
    by_cases hi : i < size
    · rw [State.isSafeLoop, if_pos hi] at hs
      simp at hs
    · exact h.isSafeLoop_of_not_lt hi hs
  | succ n ih =>
    by_cases hi : i < size
    · rw [State.isSafeLoop, if_pos hi] at hs
      obtain ⟨⟨res, s1⟩, hresolve, hs⟩ := bind_eq_some_iff.mp hs
      dsimp only at hs
      obtain ⟨haddr, hge⟩ := toNat_round hptr hwrap hi
      rw [lt_def] at hi
      have hpage : pageOf (ptr + i) = (ptr.toNat + i.toNat) / pageSize := by
        rw [pageOf, haddr]
      obtain ⟨h1, hres⟩ := h.resolveAddr hge hresolve
      split at hs
      · simp at hs
      rename_i hne
      obtain ⟨hstride, hframe⟩ := hres hne
      rw [haddr] at hstride
      -- The counter stays in front of `2 ^ 32`, since a round adds a page at most.
      have hcount : (i + BitVec.ofNat 32 res).toNat = i.toNat + res := by
        have hle := stride_le (ptr.toNat + i.toNat)
        have hbase : kernelBoundary.toNat ≤ ptr.toNat := le_def.mp hptr
        refine toNat_add_ofNat ?_
        rw [show kernelBoundary.toNat = 0x40000000 from rfl] at hbase
        rw [← hstride, pageSize] at hle
        omega
      obtain ⟨h2, hframes⟩ := ih h1.cached hs
      rw [hcount, ← Nat.add_assoc, hstride] at h2 hframes
      rw [h1.current_eq] at hframes
      have hlt : ptr.toNat + i.toNat < ptr.toNat + size.toNat := by omega
      refine ⟨(h1.mono fun q hq => ?_).trans (h2.mono fun q hq => ?_), fun q hq => ?_⟩
      · exact (enters_iff hlt).mpr (.inl (hq.trans hpage))
      · exact (enters_iff hlt).mpr (.inr hq)
      · rcases (enters_iff hlt).mp hq with heq | hq
        · have hkeep := h2.entry_eq hge
          rw [h1.current_eq] at hkeep
          rw [heq, ← hpage, hkeep hframe]
          exact hframe
        · exact hframes q hq
    · exact h.isSafeLoop_of_not_lt hi hs

/-- A check that succeeds does so as well on a machine, as the calls of `Access` see it, that
resolves addresses as the page directory does after the check. -/
lemma UserCached.machine_isSafeLoop (h : UserCached s) {m : UserApi.Machine} {pid : ℕ}
    {ptr size i : Word} (hm : ∀ a, m.resolve pid a =
      if frame (s'.stored s.current (pageOf a)) = 0 then 0 else stride a.toNat)
    (hptr : kernelBoundary ≤ ptr) (hwrap : ptr.toNat + size.toNat ≤ 2 ^ 32)
    (hs : State.isSafeLoop ptr size n i s = some (true, s')) :
    m.isSafeLoop pid ptr size n i = true := by
  induction n generalizing s i with
  | zero =>
    by_cases hi : i < size
    · rw [State.isSafeLoop, if_pos hi] at hs
      simp at hs
    · simp [UserApi.Machine.isSafeLoop, hi]
  | succ n ih =>
    rw [UserApi.Machine.isSafeLoop]
    by_cases hi : i < size
    · obtain ⟨haddr, hge⟩ := toNat_round hptr hwrap hi
      -- the page of this round is one that the whole loop enters
      have hlt : ptr.toNat + i.toNat < ptr.toNat + size.toNat := Nat.add_lt_add_left hi _
      have hframe := (h.isSafeLoop hptr hwrap hs).2 (pageOf (ptr + i))
        ((enters_iff hlt).mpr (.inl (by rw [pageOf, haddr])))
      rw [State.isSafeLoop, if_pos hi] at hs
      obtain ⟨⟨res, s1⟩, hresolve, hs⟩ := bind_eq_some_iff.mp hs
      dsimp only at hs
      obtain ⟨h1, hres⟩ := h.resolveAddr hge hresolve
      split at hs
      · simp at hs
      rename_i hne
      have hanswer : m.resolve pid (ptr + i) = res := by
        rw [hm, if_neg hframe, (hres hne).1]
      rw [if_pos hi, hanswer, if_neg hne]
      exact ih h1.cached (h1.current_eq.symm ▸ hm) hs
    · rw [if_neg hi]

/-- What the check of the kernel accepts, the check of the machine accepts. -/
theorem UserCached.machine_isSafePtr (h : UserCached s) {m : UserApi.Machine} {pid : ℕ}
    {ptr size : Word} (hm : ∀ a, m.resolve pid a =
      if frame (s'.stored s.current (pageOf a)) = 0 then 0 else stride a.toNat)
    (hwrap : ptr.toNat + size.toNat ≤ 2 ^ 32) (hs : s.isSafePtr n ptr size = some (true, s')) :
    m.isSafePtr n ptr size pid = true := by
  rw [State.isSafePtr] at hs
  split at hs
  · rename_i hptr
    rw [UserApi.Machine.isSafePtr, if_pos hptr]
    exact h.machine_isSafeLoop hm hptr hwrap hs
  · simp at hs

variable {ptr size : Word}

lemma le_of_isSafePtr (hs : s.isSafePtr n ptr size = some (true, s')) : kernelBoundary ≤ ptr := by
  by_contra hlt
  rw [State.isSafePtr, if_neg hlt] at hs
  simp at hs

lemma UserCached.isSafePtr (h : UserCached s)
    (hwrap : ptr.toNat + size.toNat ≤ 2 ^ 32) (hs : s.isSafePtr n ptr size = some (true, s')) :
    PagesIn s s' (Enters ptr.toNat (ptr.toNat + size.toNat)) ∧
      ∀ q, Enters ptr.toNat (ptr.toNat + size.toNat) q → frame (s'.stored s.current q) ≠ 0 := by
  have hptr := le_of_isSafePtr hs
  rw [State.isSafePtr, if_pos hptr] at hs
  exact h.isSafeLoop hptr hwrap hs

lemma SafeRange.no_wrap (h : s.SafeRange ptr size) (hsize : 0 < size.toNat) :
    ptr.toNat + size.toNat ≤ 2 ^ 32 := by
  have hlast := (h (size.toNat - 1) (by omega)).2.1
  omega

/-- What is accessible after the check was there before, or has been entered. -/
lemma SafeRange.sufficient (hsafe : s'.SafeRange ptr size)
    (hsize : 0 < size.toNat) (hptr : kernelBoundary ≤ ptr)
    (hin : PagesIn s s' (Enters ptr.toNat (ptr.toNat + size.toNat))) :
    s.Sufficient ptr size := by
  have hmapped : ∀ k < size.toNat,
      isPresent (s'.stored s.current ((ptr.toNat + k) / pageSize)) = true := by
    intro k hk
    have hk := (hsafe k hk).2.2
    rw [Mapped, hin.current_eq] at hk
    exact hk
  refine ⟨hsafe.no_wrap hsize, fun p hp hne => ?_, ?_⟩
  · obtain ⟨k, hk, rfl⟩ := hp.exists_lt
    rw [Mapped, ← hin.entry_eq (kernelPages_le_of_boundary hptr (Nat.le_add_right _ _)) hne]
    exact hmapped k (by omega)
  · rw [or_iff_not_imp_left, Nat.add_sub_assoc hsize]
    intro hnot
    have hentry := hin.entry _
      (kernelPages_le_of_boundary hptr (Nat.le_add_right ptr.toNat (size.toNat - 1)))
    rw [Mapped, ← hentry.resolve_right fun hq => hnot hq.1]
    exact hmapped _ (by omega)

/-- What has been entered has a frame, and only the page of the last byte may be left out. -/
lemma Sufficient.safeRange (h : s.Sufficient ptr size) (hptr : kernelBoundary ≤ ptr)
    (hin : PagesIn s s' (Enters ptr.toNat (ptr.toNat + size.toNat)))
    (hframes : ∀ q, Enters ptr.toNat (ptr.toNat + size.toNat) q →
      frame (s'.stored s.current q) ≠ 0) : s'.SafeRange ptr size := by
  intro k hk
  have hbase : kernelBoundary.toNat ≤ ptr.toNat := le_def.mp hptr
  have hwrap := h.no_wrap
  refine ⟨by omega, by omega, ?_⟩
  have hentry := hin.entry _ (kernelPages_le_of_boundary hptr (Nat.le_add_right ptr.toNat k))
  rw [Mapped, hin.current_eq]
  by_cases henter : Enters ptr.toNat (ptr.toNat + size.toNat) ((ptr.toNat + k) / pageSize)
  · rcases hentry with heq | ⟨-, -, hpresent⟩
    · have hframe := hframes _ henter
      rw [heq] at hframe ⊢
      exact h.present _ henter hframe
    · exact hpresent
  · have hpage : (ptr.toNat + k) / pageSize = (ptr.toNat + size.toNat - 1) / pageSize := by
      by_contra hne
      refine henter (enters_of_lt (Nat.div_le_div_right (Nat.le_add_right _ _)) ?_)
      simp only [pageSize] at hne ⊢
      omega
    rw [hentry.resolve_right fun hq => henter hq.1, hpage]
    rw [hpage] at henter
    exact h.last.resolve_left henter

/-- **What `is_safe_ptr` is worth.** A range that has passed the check is accessible exactly when it
is empty, or when it does not wrap, every page with a frame that the check enters was present, and
the page of the last byte is entered or was present as well. -/
theorem safeRange_iff (h : UserCached s) {ptr size : Word} {n : ℕ}
    (hs : s.isSafePtr n ptr size = some (true, s')) :
    s'.SafeRange ptr size ↔ size = 0 ∨ s.Sufficient ptr size := by
  have hptr := le_of_isSafePtr hs
  by_cases hsize : size = 0
  · refine iff_of_true (fun k hk => ?_) (.inl hsize)
    rw [hsize] at hk
    exact absurd hk (Nat.not_lt_zero k)
  · have hpos : 0 < size.toNat :=
      Nat.pos_of_ne_zero fun h0 => hsize (eq_of_toNat_eq h0)
    constructor
    · intro hsafe
      obtain ⟨hin, -⟩ := h.isSafePtr (hsafe.no_wrap hpos) hs
      exact .inr (hsafe.sufficient hpos hptr hin)
    · rintro (h0 | hsuff)
      · exact absurd h0 hsize
      · obtain ⟨hin, hframes⟩ := h.isSafePtr hsuff.no_wrap hs
        exact hsuff.safeRange hptr hin hframes

/-! ## Ranges of a process with one page -/

lemma exists_onePage : ∃ s : State, UserCached s ∧
    (booted [0]).mapNewPageAt 0 kernelBoundary userFlags = some s := by
  have hinv := (booted_fresh (by decide : 0 ∈ [0])).inv
  have hsome : ((booted [0]).mapNewPageAt 0 kernelBoundary userFlags).isSome = true := by
    decide +kernel
  obtain ⟨s, hs⟩ := isSome_iff_exists.mp hsome
  obtain ⟨f, -, -, -, -, hset⟩ := mapNewPageAt_entrySet hinv.wf hs
  refine ⟨s, (hinv.entrySet ⟨by decide, fun hlt => absurd hlt (by decide)⟩ hset).userCached, hs⟩

/-- The whole page passes the check, and is accessible. -/
theorem safeRange_onePage : ∃ s s' : State, UserCached s ∧
    s.isSafePtr 1 kernelBoundary 4096 = some (true, s') ∧
    (s'.SafeRange kernelBoundary 4096 ↔ (4096 : Word) = 0 ∨ s.Sufficient kernelBoundary 4096) := by
  obtain ⟨s, hs, hmap⟩ := exists_onePage
  have hcheck : (((booted [0]).mapNewPageAt 0 kernelBoundary userFlags).bind
      fun s => s.isSafePtr 1 kernelBoundary 4096).any (·.1) = true := by
    decide +kernel
  rw [hmap, bind_some, any_eq_true] at hcheck
  obtain ⟨⟨safe, s'⟩, hcheck, rfl⟩ := hcheck
  exact ⟨s, s', hs, hcheck, safeRange_iff hs hcheck⟩

/-- From byte 3000 of the page on, 2000 bytes pass the check after one look, since the next address
to look at is 3000 bytes away. Most of them are not accessible. -/
theorem exists_not_safeRange : ∃ s s' : State, UserCached s ∧
    s.isSafePtr 1 0x40000BB8#32 2000 = some (true, s') ∧ ¬ s'.SafeRange 0x40000BB8#32 2000 := by
  obtain ⟨s, hs, hmap⟩ := exists_onePage
  have hcheck : (((booted [0]).mapNewPageAt 0 kernelBoundary userFlags).bind
      fun s => s.isSafePtr 1 0x40000BB8#32 2000).any
      (fun r => r.1 && !isPresent (r.2.stored r.2.current 0x40001)) = true := by
    decide +kernel
  rw [hmap, bind_some, any_eq_true] at hcheck
  obtain ⟨⟨safe, s'⟩, hcheck, hr⟩ := hcheck
  rw [Bool.and_eq_true, Bool.not_eq_true'] at hr
  obtain ⟨rfl, hpresent⟩ := hr
  refine ⟨s, s', hs, hcheck, fun hsafe => ?_⟩
  have hmapped : s'.Mapped 0x40001 := (hsafe 1096 (by decide)).2.2
  rw [Mapped, hpresent] at hmapped
  cases hmapped

end State

end Memory
