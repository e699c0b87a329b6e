import Btos.Memory.PageDirectory

/-!
# What system calls access

The bytes that the handlers of `BT_SEND`, `BT_GET_ARG` and `BT_GETENV`, of the RTC extension and of
`Peek` and `Poke` of the debug extension read or write through the pointers that a process passes.

Main results: `confined_iff` and `exists_not_confined`.
-/

open List

namespace UserApi

open Memory

/-! ## The machine -/

/-- What the handlers find. -/
structure Machine where
  /-- `proc_current_pid`. -/
  current : ℕ
  /-- The memory of a process. -/
  mem : ℕ → Word → BitVec 8
  /-- `PageDirectory::resolve_addr` in the directory of a process. -/
  resolve : ℕ → Word → ℕ
  /-- Whether there is such a process. -/
  exist : ℕ → Bool
  /-- The length of an argument of the current process, as far as there is a string. -/
  arg : Word → ℕ
  /-- The length of the value of an environment variable that the process may read. -/
  env : List (BitVec 8) → ℕ
  /-- Whether there is a block of that size on the kernel's heap. -/
  mallocs : ℕ → Bool

namespace Machine

variable (m : Machine)

/-- A 32-bit word of the current process. -/
def read32 (a : Word) : Word :=
  m.mem m.current (a + 3) ++ m.mem m.current (a + 2) ++ m.mem m.current (a + 1) ++
    m.mem m.current a

/-- A 64-bit number of the current process. -/
def read64 (a : Word) : ℕ := (m.read32 (a + 4)).toNat * 2 ^ 32 + (m.read32 a).toNat

/-! ## Checks -/

/-- The loop of `is_safe_ptr`. It may go around for ever; here it fails after `n` rounds, since
nothing is accessed then either. -/
def isSafeLoop (pid : ℕ) (ptr size : Word) : ℕ → Word → Bool
  | 0, i => !(i < size)
  | n + 1, i =>
      if i < size then
        let res := m.resolve pid (ptr + i)
        if res = 0 then false else isSafeLoop pid ptr size n (i + BitVec.ofNat 32 res)
      else true

/-- `is_safe_ptr`. -/
def isSafePtr (n : ℕ) (ptr size : Word) (pid : ℕ) : Bool :=
  if ptr ≥ kernelBoundary then m.isSafeLoop pid ptr size n 0 else false

/-- The loop of `is_safe_string` for at most `k` bytes, with the bytes that are read: their
addresses and what they are. -/
def isSafeStringLoop (n : ℕ) : ℕ → Word → Bool × List (Word × BitVec 8)
  | 0, _ => (false, [])
  | k + 1, ptr =>
      if m.isSafePtr n ptr 1 m.current then
        if m.mem m.current ptr = 0 then (true, [(ptr, 0)])
        else
          let (safe, bytes) := isSafeStringLoop n k (ptr + 1)
          (safe, (ptr, m.mem m.current ptr) :: bytes)
      else (false, [])

/-- `is_safe_string`. After `2 ^ 32` bytes the address has long been below the boundary. -/
def isSafeString (n : ℕ) (ptr : Word) : Bool × List (Word × BitVec 8) :=
  m.isSafeStringLoop n (2 ^ 32) ptr

end Machine

/-! ## Accesses -/

/-- The addresses of `n` bytes; behind the end of the address space it begins again. -/
def bytes (a : Word) (n : ℕ) : List Word := (List.range n).map fun i => a + BitVec.ofNat 32 i

/-- The number of bytes that `strncpy` writes for a string of some length. It counts the size down
before it looks at it, so that a size of 0 is no limit. -/
def strncpyCount (len : ℕ) (size : Word) : ℕ := min len (size - 1).toNat + 1

/-- `BT_MSG_MAX`. -/
def msgMax : Word := 4096

/-- `sizeof(bt_msg_header)`. -/
def msgHeaderSize : ℕ := 60

/-- `bt_msg_flags::Reply`. -/
def replyFlag : Word := 0x2#32

/-- `DEBUG_COPYLIMT`. -/
def debugCopyLimit : Word := 0x400000#32

/-- `sizeof(bt_debug_copy_params)`. -/
def copyParamsSize : ℕ := 16

/-- A call with the registers that it uses. -/
inductive Call where
  /-- `BT_SEND`. -/
  | send (ebx ecx : Word)
  /-- `BT_GET_ARG`. -/
  | getArg (ebx ecx edx : Word)
  /-- `BT_GETENV`. -/
  | getenv (ebx ecx edx : Word)
  /-- `bt_rtc_api::Millis`. -/
  | millis (ebx : Word)
  /-- `bt_rtc_api::GetTime`. -/
  | getTime (ebx : Word)
  /-- `bt_rtc_api::CreateTimer`. -/
  | createTimer (ebx ecx : Word)
  /-- `bt_debug_function::Peek`. -/
  | peek (ebx ecx : Word)
  /-- `bt_debug_function::Poke`. -/
  | poke (ebx ecx : Word)

variable (m : Machine) (n : ℕ)

/-- `proc_send_message` copies the content for a reply, or when both processes exist. -/
def copiesContent (header : Word) : Bool :=
  m.read32 (header + 20) &&& replyFlag ≠ 0 ||
    (m.exist m.current && m.exist (m.read64 (header + 36)))

/-- The content of a message that `proc_send_message` reads. -/
def sendMessage (header : Word) : List Word :=
  if copiesContent m header then bytes (m.read32 (header + 56)) (m.read32 (header + 48)).toNat
  else []

/-- The handler of `BT_SEND`. -/
def send (ebx ecx : Word) : List Word :=
  if m.isSafePtr n ebx (BitVec.ofNat 32 msgHeaderSize) m.current && m.isSafePtr n ecx 8 m.current
  then
    bytes ebx msgHeaderSize ++
      if m.read32 (ebx + 48) > msgMax then [] else sendMessage m ebx ++ bytes ecx 8
  else []

/-- The handler of `BT_GET_ARG`. -/
def getArg (ebx ecx edx : Word) : List Word :=
  if m.isSafePtr n ecx edx m.current then
    if m.exist m.current then bytes ecx (strncpyCount (m.arg ebx) edx) else []
  else []

/-- The handler of `BT_GETENV`. The name is read once more when it is made a `string`. -/
def getenv (ebx ecx edx : Word) : List Word :=
  let (safe, name) := m.isSafeString n ebx
  name.map Prod.fst ++
    if safe && m.isSafePtr n ecx edx m.current then
      name.map Prod.fst ++
        if m.env (name.map Prod.snd) ≠ 0 then
          bytes ecx (strncpyCount (m.env (name.map Prod.snd)) edx)
        else []
    else []

/-- `debug_copymem`. -/
def copymem (faddr taddr size : Word) : List Word :=
  if m.mallocs size.toNat then bytes faddr size.toNat ++ bytes taddr size.toNat else []

/-- The handlers of `Peek` and `Poke`, which check the same. -/
def debugCopy (poke : Bool) (ebx ecx : Word) : List Word :=
  if m.isSafePtr n ebx 0 m.current && m.isSafePtr n ecx (BitVec.ofNat 32 copyParamsSize) m.current
  then
    bytes ecx 8 ++
      if m.read64 ecx ≠ 0 ∧ m.exist (m.read64 ecx) then
        bytes (ecx + 8) 8 ++
          if m.isSafePtr n (m.read32 (ecx + 8)) (m.read32 (ecx + 12)) (m.read64 ecx) ∧
              m.read32 (ecx + 12) ≤ debugCopyLimit then
            if poke then copymem m ebx (m.read32 (ecx + 8)) (m.read32 (ecx + 12))
            else copymem m (m.read32 (ecx + 8)) ebx (m.read32 (ecx + 12))
          else []
      else []
  else []

/-- The addresses of the bytes that a call reads or writes through its pointers. -/
def accesses : Call → List Word
  | .send ebx ecx => send m n ebx ecx
  | .getArg ebx ecx edx => getArg m n ebx ecx edx
  | .getenv ebx ecx edx => getenv m n ebx ecx edx
  | .millis ebx => bytes ebx 8
  | .getTime ebx => bytes ebx 8
  | .createTimer _ ecx => bytes ecx 4
  | .peek ebx ecx => debugCopy m n false ebx ecx
  | .poke ebx ecx => debugCopy m n true ebx ecx

/-- All the addresses are in user space. -/
def Confined (l : List Word) : Prop := ∀ a ∈ l, kernelBoundary ≤ a

/-! ## Conditions -/

/-- A range that is in user space, or empty. -/
def Fits (a : Word) (n : ℕ) : Prop := n = 0 ∨ kernelBoundary ≤ a ∧ a.toNat + n ≤ 2 ^ 32

/-- A range that does not go on behind the end of the address space, or is empty. For a pointer
that `is_safe_ptr` has accepted, this is all that is left to ask. -/
def Ends (a : Word) (n : ℕ) : Prop := n = 0 ∨ a.toNat + n ≤ 2 ^ 32

/-- The parameters of `Peek` and `Poke`, and what they copy, are in user space. -/
def DebugCopyWithin (ebx ecx : Word) : Prop :=
  m.isSafePtr n ebx 0 m.current = true →
    m.isSafePtr n ecx (BitVec.ofNat 32 copyParamsSize) m.current = true →
    Ends ecx 8 ∧ (m.read64 ecx ≠ 0 ∧ m.exist (m.read64 ecx) = true →
      Fits (ecx + 8) 8 ∧
        (m.isSafePtr n (m.read32 (ecx + 8)) (m.read32 (ecx + 12)) (m.read64 ecx) = true ∧
          m.read32 (ecx + 12) ≤ debugCopyLimit → m.mallocs (m.read32 (ecx + 12)).toNat = true →
          Ends (m.read32 (ecx + 8)) (m.read32 (ecx + 12)).toNat ∧
            Ends ebx (m.read32 (ecx + 12)).toNat))

/-- The ranges that have to be in user space. -/
def Within : Call → Prop
  | .send ebx ecx =>
      m.isSafePtr n ebx (BitVec.ofNat 32 msgHeaderSize) m.current = true →
        m.isSafePtr n ecx 8 m.current = true →
        Ends ebx msgHeaderSize ∧ (m.read32 (ebx + 48) ≤ msgMax →
          (copiesContent m ebx = true →
            Fits (m.read32 (ebx + 56)) (m.read32 (ebx + 48)).toNat) ∧ Ends ecx 8)
  | .getArg ebx ecx edx =>
      m.isSafePtr n ecx edx m.current = true → m.exist m.current = true →
        Ends ecx (strncpyCount (m.arg ebx) edx)
  | .getenv ebx ecx edx =>
      (m.isSafeString n ebx).1 = true → m.isSafePtr n ecx edx m.current = true →
        m.env ((m.isSafeString n ebx).2.map Prod.snd) ≠ 0 →
          Ends ecx (strncpyCount (m.env ((m.isSafeString n ebx).2.map Prod.snd)) edx)
  | .millis ebx => Fits ebx 8
  | .getTime ebx => Fits ebx 8
  | .createTimer _ ecx => Fits ecx 4
  | .peek ebx ecx => DebugCopyWithin m n ebx ecx
  | .poke ebx ecx => DebugCopyWithin m n ebx ecx

/-! ## Ranges -/

@[simp]
lemma confined_nil : Confined [] := fun _ ha => absurd ha not_mem_nil

@[simp]
lemma confined_append {l l' : List Word} : Confined (l ++ l') ↔ Confined l ∧ Confined l' :=
  forall_mem_append

lemma confined_ite {c : Prop} [Decidable c] {l : List Word} :
    Confined (if c then l else []) ↔ (c → Confined l) := by
  split_ifs with hc
  · exact ⟨fun h _ => h, fun h => h hc⟩
  · exact ⟨fun _ h => absurd h hc, fun _ => confined_nil⟩

/-- A range is in user space when it starts there and does not get behind the end of the address
space, where it would go on at 0. -/
lemma confined_bytes_iff {a : Word} {n : ℕ} (hn : n ≤ 2 ^ 32) :
    Confined (bytes a n) ↔ Fits a n := by
  have hmem : ∀ i < n, a + BitVec.ofNat 32 i ∈ bytes a n := fun i hi =>
    mem_map_of_mem (mem_range.mpr hi)
  have hboundary : kernelBoundary.toNat = 0x40000000 := rfl
  constructor
  · intro h
    rcases Nat.eq_zero_or_pos n with h0 | hpos
    · exact .inl h0
    · have hfirst := h _ (hmem 0 hpos)
      rw [BitVec.add_zero] at hfirst
      refine .inr ⟨hfirst, ?_⟩
      by_contra hlong
      -- The byte behind the last address is at 0.
      have hzero := h _ (hmem (2 ^ 32 - a.toNat) (by omega))
      rw [BitVec.le_def, BitVec.toNat_add, BitVec.toNat_ofNat] at hzero
      rw [BitVec.le_def] at hfirst
      omega
  · rintro (rfl | ⟨hge, hle⟩) x hx
    · exact absurd hx not_mem_nil
    · obtain ⟨i, hi, rfl⟩ := mem_map.mp hx
      rw [mem_range] at hi
      rw [BitVec.le_def] at hge ⊢
      rw [BitVec.toNat_add, BitVec.toNat_ofNat]
      omega

lemma strncpyCount_le (len : ℕ) (size : Word) : strncpyCount len size ≤ 2 ^ 32 := by
  unfold strncpyCount
  omega

/-! ## Strings -/

variable {m n}

lemma Machine.isSafePtr_ge {ptr size : Word} {pid : ℕ} (h : m.isSafePtr n ptr size pid = true) :
    kernelBoundary ≤ ptr := by
  unfold Machine.isSafePtr at h
  split at h
  · assumption
  · cases h

/-- A pointer that `is_safe_ptr` has accepted is in user space. -/
lemma fits_iff_ends {ptr size : Word} {pid k : ℕ} (h : m.isSafePtr n ptr size pid = true) :
    Fits ptr k ↔ Ends ptr k := by
  rw [Fits, Ends, and_iff_right (Machine.isSafePtr_ge h)]

lemma Machine.confined_isSafeStringLoop (k : ℕ) (ptr : Word) :
    Confined ((m.isSafeStringLoop n k ptr).2.map Prod.fst) := by
  induction k generalizing ptr with
  | zero => exact confined_nil
  | succ k ih =>
    rw [isSafeStringLoop]
    split
    · rename_i hsafe
      have hptr := isSafePtr_ge hsafe
      split
      · intro a ha
        rw [map_singleton, mem_singleton] at ha
        exact ha ▸ hptr
      · intro a ha
        rw [map_cons, mem_cons] at ha
        rcases ha with rfl | ha
        · exact hptr
        · exact ih (ptr + 1) a ha
    · exact confined_nil

/-! ## The calls -/

lemma confined_send_iff (ebx ecx : Word) :
    Confined (send m n ebx ecx) ↔ Within m n (.send ebx ecx) := by
  have hlen := (m.read32 (ebx + 48)).isLt
  have hmessage : Confined (sendMessage m ebx) ↔ (copiesContent m ebx = true →
      Fits (m.read32 (ebx + 56)) (m.read32 (ebx + 48)).toNat) := by
    rw [sendMessage, confined_ite, confined_bytes_iff (le_of_lt hlen)]
  have hrest : Confined (if m.read32 (ebx + 48) > msgMax then []
      else sendMessage m ebx ++ bytes ecx 8) ↔ (m.read32 (ebx + 48) ≤ msgMax →
        (copiesContent m ebx = true →
          Fits (m.read32 (ebx + 56)) (m.read32 (ebx + 48)).toNat) ∧ Fits ecx 8) := by
    split_ifs with hmax
    · exact iff_of_true confined_nil fun hle => absurd hle (BitVec.not_le.mpr hmax)
    · rw [confined_append, hmessage, confined_bytes_iff (by decide)]
      exact ⟨fun h _ => h, fun h => h (BitVec.not_lt.mp hmax)⟩
  rw [send, confined_ite, confined_append, confined_bytes_iff (by decide), hrest,
    Bool.and_eq_true, and_imp, Within]
  refine imp_congr_right fun hebx => imp_congr_right fun hecx => ?_
  rw [fits_iff_ends hebx, fits_iff_ends hecx]

lemma confined_getenv_iff (ebx ecx edx : Word) :
    Confined (getenv m n ebx ecx edx) ↔ Within m n (.getenv ebx ecx edx) := by
  have hname : Confined ((m.isSafeString n ebx).2.map Prod.fst) :=
    Machine.confined_isSafeStringLoop _ _
  rw [getenv, confined_append, confined_ite, confined_append, confined_ite,
    confined_bytes_iff (strncpyCount_le _ _), Bool.and_eq_true, and_imp, Within,
    and_iff_right hname]
  refine imp_congr_right fun _ => imp_congr_right fun hecx => ?_
  rw [and_iff_right hname, fits_iff_ends hecx]

lemma confined_copymem_iff (faddr taddr size : Word) :
    Confined (copymem m faddr taddr size) ↔
      (m.mallocs size.toNat = true → Fits faddr size.toNat ∧ Fits taddr size.toNat) := by
  have hsize := le_of_lt size.isLt
  rw [copymem, confined_ite, confined_append, confined_bytes_iff hsize, confined_bytes_iff hsize]

lemma confined_debugCopy_iff (poke : Bool) (ebx ecx : Word) :
    Confined (debugCopy m n poke ebx ecx) ↔ DebugCopyWithin m n ebx ecx := by
  -- The direction of the copy makes no difference to what is accessed.
  have hcopy : Confined (if poke then copymem m ebx (m.read32 (ecx + 8)) (m.read32 (ecx + 12))
      else copymem m (m.read32 (ecx + 8)) ebx (m.read32 (ecx + 12))) ↔
      (m.mallocs (m.read32 (ecx + 12)).toNat = true →
        Fits (m.read32 (ecx + 8)) (m.read32 (ecx + 12)).toNat ∧
          Fits ebx (m.read32 (ecx + 12)).toNat) := by
    cases poke with
    | false => exact confined_copymem_iff _ _ _
    | true =>
      rw [and_comm]
      exact confined_copymem_iff _ _ _
  rw [debugCopy, confined_ite, confined_append, confined_ite, confined_append, confined_ite, hcopy,
    confined_bytes_iff (by decide), confined_bytes_iff (by decide), Bool.and_eq_true, and_imp,
    DebugCopyWithin]
  refine imp_congr_right fun hebx => imp_congr_right fun hecx => ?_
  refine and_congr (fits_iff_ends hecx) (imp_congr_right fun _ => and_congr_right fun _ => ?_)
  refine imp_congr_right fun hdata => ?_
  rw [fits_iff_ends hdata.1, fits_iff_ends hebx]

variable (m n)

/-- What a call accesses through its pointers is in user space exactly when its ranges are. -/
theorem confined_iff (call : Call) : Confined (accesses m n call) ↔ Within m n call := by
  cases call with
  | send ebx ecx => exact confined_send_iff ebx ecx
  | getArg ebx ecx edx =>
    rw [accesses, getArg, confined_ite, confined_ite, confined_bytes_iff (strncpyCount_le _ _),
      Within]
    exact imp_congr_right fun hecx => imp_congr_right fun _ => fits_iff_ends hecx
  | getenv ebx ecx edx => exact confined_getenv_iff ebx ecx edx
  | millis ebx => exact confined_bytes_iff (by decide)
  | getTime ebx => exact confined_bytes_iff (by decide)
  | createTimer ebx ecx => exact confined_bytes_iff (by decide)
  | peek ebx ecx => exact confined_debugCopy_iff false ebx ecx
  | poke ebx ecx => exact confined_debugCopy_iff true ebx ecx

/-- A process with a message header at `0x40000000`: a reply of four bytes at `0x1000`, in the
kernel. -/
def leaking : Machine where
  current := 1
  mem _ a :=
    if a = 0x40000014#32 then 0x02 else if a = 0x40000030#32 then 0x04
    else if a = 0x40000039#32 then 0x10 else 0
  resolve _ a := if a ≥ kernelBoundary then pageSize else 0
  exist pid := pid = 1
  arg _ := 0
  env _ := 0
  mallocs _ := true

/-- `Millis` writes to the address that it is given, and `BT_SEND` reads the content of a message
wherever it is said to be. -/
theorem exists_not_confined :
    ¬ Confined (accesses leaking 1 (.millis 0x1000#32)) ∧
      ¬ Confined (accesses leaking 1 (.send 0x40000000#32 0x40001000#32)) := by
  have hmillis : 0x1000#32 ∈ accesses leaking 1 (.millis 0x1000#32) := by decide
  have hsend : 0x1000#32 ∈ accesses leaking 1 (.send 0x40000000#32 0x40001000#32) := by decide
  exact ⟨fun h => absurd (h _ hmillis) (by decide), fun h => absurd (h _ hsend) (by decide)⟩

end UserApi
