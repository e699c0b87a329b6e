import Btos.Filesystems.Seek

/-!
# Reading and writing in the graphics modes

`graphics_read` and `graphics_write` of the VGA driver, between seeks. They cut a request at the
number of pixels of the mode, also where a byte is two pixels.
-/

open Terminal

namespace Filesystems

/-- The modes of `modes.cpp`: 12h, X and 03h. -/
def vgaModes : List BtVidmode := [⟨640, 480, 4, false⟩, ⟨320, 240, 8, false⟩, ⟨80, 25, 4, true⟩]

/-- The pixels that go to `read_pixels` or `write_pixels`, and the bytes of the caller's buffer. -/
structure Transfer where
  pixpos : UInt32
  pixcount : UInt32
  bytes : UInt32
  deriving DecidableEq, Repr

/-- What `graphics_read` and `graphics_write` transfer: they compute it in the same way. -/
def graphicsTransfer (m : BtVidmode) (pos bytes : UInt32) : Transfer :=
  let maxpix := m.width * m.height
  let bytes := cut (maxpix - pos) (if bytes > maxpix then 0 else bytes)
  if m.bpp = 4 then ⟨pos * 2, bytes * 2, bytes⟩ else ⟨pos, bytes, bytes⟩

inductive GraphicsCall where
  | seek (pos flags : UInt32)
  | read (bytes : UInt32)
  | write (bytes : UInt32)

/-- The pixels are pixels of the mode, and the bytes are in a buffer of the size requested. -/
def Transfer.Inside (t : Transfer) (m : BtVidmode) (bytes : UInt32) : Prop :=
  (t.pixcount ≠ 0 → t.pixpos.toNat + t.pixcount.toNat ≤ m.width.toNat * m.height.toNat) ∧
    t.bytes.toNat ≤ bytes.toNat
  deriving Decidable

/-- Every read and write of a sequence of calls has the property, at the position that it is made
at. -/
def EveryTransfer (m : BtVidmode) (P : UInt32 → UInt32 → Prop) :
    VgaInstance → List GraphicsCall → Prop
  | _, [] => True
  | inst, .seek pos flags :: calls =>
      EveryTransfer m P { inst with pos := graphicsSeek inst m pos flags } calls
  | inst, .read bytes :: calls | inst, .write bytes :: calls =>
      P inst.pos bytes ∧ EveryTransfer m P
        { inst with pos := inst.pos + (graphicsTransfer m inst.pos bytes).bytes } calls

/-- All transfers of a sequence of calls are inside. -/
def AllInside (m : BtVidmode) : VgaInstance → List GraphicsCall → Prop :=
  EveryTransfer m fun pos bytes => (graphicsTransfer m pos bytes).Inside m bytes

/-- A request of `bytes` bytes at a position stays on the screen: it is empty, or so large that it
is ignored, or it starts on the screen and, where a byte is two pixels, also ends there. -/
def StaysOn (m : BtVidmode) (pos bytes : UInt32) : Prop :=
  let size := m.width.toNat * m.height.toNat
  bytes = 0 ∨ size < bytes.toNat ∨
    if m.bpp = 4 then pos.toNat = size ∨ 2 * pos.toNat % 2 ^ 32 + 2 * bytes.toNat ≤ size
    else pos.toNat ≤ size

lemma toNat_cut (limit pos : UInt32) : (cut limit pos).toNat = min limit.toNat pos.toNat := by
  unfold cut
  split
  · next h => exact (min_eq_left (UInt32.lt_iff_toNat_lt.mp h).le).symm
  · next h => exact (min_eq_right (UInt32.le_iff_toNat_le.mp (UInt32.not_lt.mp h))).symm

variable {m : BtVidmode} {inst : VgaInstance}

lemma EveryTransfer.congr {P Q : UInt32 → UInt32 → Prop}
    (h : ∀ pos bytes, P pos bytes ↔ Q pos bytes) (calls : List GraphicsCall) :
    EveryTransfer m P inst calls ↔ EveryTransfer m Q inst calls := by
  induction calls generalizing inst with
  | nil => rfl
  | cons call calls ih =>
    cases call with
    | seek pos flags => exact ih
    | read bytes | write bytes => exact and_congr (h _ _) ih

lemma toNat_pixels : ∀ m ∈ vgaModes,
    (m.width * m.height).toNat = m.width.toNat * m.height.toNat := by
  decide

/-- The number of bytes that a call transfers. -/
lemma toNat_bytes_graphicsTransfer (hm : m ∈ vgaModes) (pos bytes : UInt32) :
    (graphicsTransfer m pos bytes).bytes.toNat =
      let size := m.width.toNat * m.height.toNat
      min ((2 ^ 32 - pos.toNat + size) % 2 ^ 32)
        (if size < bytes.toNat then 0 else bytes.toNat) := by
  have hbytes : (graphicsTransfer m pos bytes).bytes =
      cut (m.width * m.height - pos) (if bytes > m.width * m.height then 0 else bytes) := by
    rw [graphicsTransfer]
    split <;> rfl
  rw [hbytes, toNat_cut, UInt32.toNat_sub, toNat_pixels m hm, apply_ite UInt32.toNat]
  simp only [gt_iff_lt, UInt32.lt_iff_toNat_lt, toNat_pixels m hm]
  rfl

/-- A call transfers pixels of the mode exactly if its request stays on the screen. -/
lemma inside_graphicsTransfer_iff (hm : m ∈ vgaModes) (htext : m.textmode = false)
    (pos bytes : UInt32) :
    (graphicsTransfer m pos bytes).Inside m bytes ↔ StaysOn m pos bytes := by
  have hn := toNat_bytes_graphicsTransfer hm pos bytes
  have hpos := pos.toNat_lt
  have hmode : ∀ m ∈ vgaModes, m.textmode = false →
      m = ⟨640, 480, 4, false⟩ ∨ m = ⟨320, 240, 8, false⟩ := by
    decide
  generalize hbytes : (graphicsTransfer m pos bytes).bytes = n at hn
  rcases hmode m hm htext with rfl | rfl
  · have ht : graphicsTransfer ⟨640, 480, 4, false⟩ pos bytes = ⟨pos * 2, n * 2, n⟩ :=
      hbytes ▸ rfl
    rw [ht]
    show ((n * 2 ≠ 0 → (pos * 2).toNat + (n * 2).toNat ≤ 307200) ∧ n.toNat ≤ bytes.toNat) ↔
      bytes = 0 ∨ 307200 < bytes.toNat ∨
        (pos.toNat = 307200 ∨ 2 * pos.toNat % 2 ^ 32 + 2 * bytes.toNat ≤ 307200)
    replace hn : n.toNat = min ((2 ^ 32 - pos.toNat + 307200) % 2 ^ 32)
      (if 307200 < bytes.toNat then 0 else bytes.toNat) := hn
    rw [ne_eq, ← UInt32.toNat_inj, ← UInt32.toNat_inj (a := bytes), UInt32.toNat_mul,
      UInt32.toNat_mul]
    show (¬ n.toNat * 2 % 2 ^ 32 = 0 → pos.toNat * 2 % 2 ^ 32 + n.toNat * 2 % 2 ^ 32 ≤ 307200) ∧
      _ ↔ bytes.toNat = 0 ∨ _
    split at hn <;> omega
  · have ht : graphicsTransfer ⟨320, 240, 8, false⟩ pos bytes = ⟨pos, n, n⟩ :=
      hbytes ▸ rfl
    rw [ht]
    show ((n ≠ 0 → pos.toNat + n.toNat ≤ 76800) ∧ n.toNat ≤ bytes.toNat) ↔
      bytes = 0 ∨ 76800 < bytes.toNat ∨ pos.toNat ≤ 76800
    replace hn : n.toNat = min ((2 ^ 32 - pos.toNat + 76800) % 2 ^ 32)
      (if 76800 < bytes.toNat then 0 else bytes.toNat) := hn
    rw [ne_eq, ← UInt32.toNat_inj, ← UInt32.toNat_inj (a := bytes)]
    show (¬ n.toNat = 0 → _) ∧ _ ↔ bytes.toNat = 0 ∨ _
    split at hn <;> omega

lemma graphicsSeek_le (hbpp : m.bpp ≠ 4) (inst : VgaInstance) (pos flags : UInt32) :
    (graphicsSeek inst m pos flags).toNat ≤ (m.width * m.height).toNat := by
  rw [graphicsSeek, if_neg hbpp, toNat_cut]
  exact min_le_left _ _

/-- Where a pixel is a byte, every sequence of calls that starts on the screen stays there. -/
lemma everyTransfer_staysOn (hm : m ∈ vgaModes) (hbpp : m.bpp ≠ 4) (calls : List GraphicsCall)
    (hpos : inst.pos.toNat ≤ m.width.toNat * m.height.toNat) :
    EveryTransfer m (StaysOn m) inst calls := by
  induction calls generalizing inst with
  | nil => trivial
  | cons call calls ih =>
    cases call with
    | seek pos flags => exact ih (toNat_pixels m hm ▸ graphicsSeek_le hbpp inst pos flags)
    | read bytes | write bytes =>
      refine ⟨.inr (.inr (by rwa [if_neg hbpp])), ih ?_⟩
      -- what is transferred ends on the screen
      have hn := toNat_bytes_graphicsTransfer hm inst.pos bytes
      show (inst.pos + (graphicsTransfer m inst.pos bytes).bytes).toNat ≤ _
      rw [UInt32.toNat_add]
      dsimp only at hn
      omega

end Filesystems
