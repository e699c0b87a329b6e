import Btos.Lib.Blocks
import Btos.Terminal.Vterm

/-!
# Memory of a terminal

`vterm.cpp` and `console_backend.cpp`: a process may set the title of a terminal and the bitmap of
its pointer, and the title is drawn into the info line. These functions copy between blocks whose
sizes come from different places: the size of the argument, a number in the argument, the width of
the screen, the length of the title. Each access to a block is noted here.

`safe_iff` says when every write is inside its block, the argument is read up to its size only, and
the title ends. `exists_not_safe` are three calls that go wrong. After a write outside its block the
program may do anything; the accesses that are listed behind it are those without its effects.
-/

open Printf List

namespace Terminal

/-- `titlemax`. -/
def titlemax : ℕ := 256

/-- `sizeof(bt_terminal_pointer_bitmap)`. -/
def pointerBitmapSize : UInt32 := 28

/-- The offset of `datasize` in `bt_terminal_pointer_bitmap`. -/
def datasizeOffset : ℕ := 24

/-- As many bytes as there are addresses. -/
def addressSpace : ℕ := 2 ^ 32

/-- What is read and written. -/
inductive Region where
  | argument
  | title
  | infolineText
  | pointerBitmap
  /-- `pointer_bitmap` of the backend. -/
  | backendBitmap
  deriving DecidableEq, Repr

/-- An access to one of the blocks. -/
structure Touch extends Access where
  region : Region
  write : Bool
  deriving DecidableEq, Repr

/-- `count` bytes of a block are read. -/
def reads (region : Region) (size first count : ℕ) : Touch := ⟨⟨size, first, count⟩, region, false⟩

/-- `count` bytes of a block are written. -/
def writes (region : Region) (size first count : ℕ) : Touch := ⟨⟨size, first, count⟩, region, true⟩

/-- A terminal with the blocks that belong to it. -/
structure Device where
  vterm : Vterm
  /-- The array `title`, and what lies behind it. -/
  title : Bytes
  pointerBitmap : Option Block
  backendBitmap : Option Block
  /-- What a new block holds. -/
  heap : Region → Bytes

/-- A call. -/
inductive Request where
  /-- `SetTitle`; `none` is a null pointer. -/
  | setTitle (size : UInt32) (buf : Option Bytes)
  /-- Any other reason to call `do_infoline`. -/
  | redraw
  /-- `SetPointerBitmap`. -/
  | setPointerBitmap (size : UInt32) (buf : Bytes)

/-- A text as a string in memory. -/
def stringBytes (text : Str) : Bytes := fun i => (text[i]?.map Char.toUInt8).getD 0

namespace Device

variable (d : Device)

/-- The title is an array that ends, as a string, before its end. -/
def Terminated : Prop := ∃ i < titlemax, d.title i = 0

/-- The title as a string. -/
def titleText : Str :=
  (List.range (d.title.strlen 0 addressSpace)).map fun i => Char.ofUInt8 (d.title i)

/-- The info line is shown. -/
def drawn : Bool := d.vterm.active && d.vterm.infoline && d.vterm.vidmode.textmode

/-- What `sprintf` writes into the info line. -/
def infolineString : Str :=
  tfpFormat "[%i] %s".toList [.int d.vterm.id.toUInt32.toInt32, .str d.titleText]

/-- The accesses of `do_infoline`; those of `putstring` to the screen are elsewhere. -/
def doInfoline : List Touch :=
  if d.drawn then
    let width := d.vterm.vidmode.width
    let size := (width + 1).toNat
    let text := d.infolineString
    let zeroed := (d.heap .infolineText).copy (fun _ => 0) size
    let printed := zeroed.copy (stringBytes text) (text.length + 1)
    [writes .infolineText size 0 size,
      reads .title titlemax 0 (d.title.strlen 0 addressSpace + 1),
      writes .infolineText size 0 (text.length + 1)] ++
      -- a NUL is replaced by a blank
      (List.range width.toNat).flatMap fun i =>
        reads .infolineText size i 1 ::
          if printed i = 0 then [writes .infolineText size i 1] else []
  else []

/-- `SetTitle`. -/
def setTitle (size : UInt32) (buf : Option Bytes) : Device × List Touch :=
  match buf with
  | none => (d, [])
  | some buf =>
      -- the array is cleared, and then as much is copied as the argument has
      let title := (d.title.copy (fun _ => 0) titlemax).copy buf size.toNat
      let d := { d with title := title }
      (d, [writes .title titlemax 0 titlemax, reads .argument size.toNat 0 size.toNat,
        writes .title titlemax 0 size.toNat] ++ d.doInfoline)

/-- `console_backend::set_pointer_bitmap`. -/
def backendSetPointerBitmap (bmp : Block) : Device × List Touch :=
  let totalsize := pointerBitmapSize + bmp.bytes.word datasizeOffset
  let copied : Block :=
    ⟨totalsize.toNat, (d.heap .backendBitmap).copy bmp.bytes totalsize.toNat⟩
  ({ d with backendBitmap := some copied },
    [reads .pointerBitmap bmp.size datasizeOffset 4,
      reads .pointerBitmap bmp.size 0 totalsize.toNat,
      writes .backendBitmap totalsize.toNat 0 totalsize.toNat])

/-- `SetPointerBitmap`. -/
def setPointerBitmap (size : UInt32) (buf : Bytes) : Device × List Touch :=
  if size > pointerBitmapSize then
    -- the size is the one that the argument gives for its data
    let totalsize := pointerBitmapSize + buf.word datasizeOffset
    let copied : Block :=
      ⟨totalsize.toNat, (d.heap .pointerBitmap).copy buf totalsize.toNat⟩
    let d := { d with pointerBitmap := some copied }
    let touched := [reads .argument size.toNat datasizeOffset 4,
      reads .argument size.toNat 0 totalsize.toNat,
      writes .pointerBitmap totalsize.toNat 0 totalsize.toNat]
    if d.vterm.active then
      let (d, more) := d.backendSetPointerBitmap copied
      (d, touched ++ more)
    else (d, touched)
  else (d, [])

/-- A call, with its accesses. -/
def handle : Request → Device × List Touch
  | .setTitle size buf => d.setTitle size buf
  | .redraw => (d, d.doInfoline)
  | .setPointerBitmap size buf => d.setPointerBitmap size buf

/-- Every write is inside its block, and the argument is read up to its size only. -/
def Within (touched : List Touch) : Prop :=
  ∀ a ∈ touched, a.write = true ∨ a.region = .argument → a.Inside

/-- The call accesses memory as it should and leaves a title that ends. -/
def Safe (r : Request) : Prop := Within (d.handle r).2 ∧ (d.handle r).1.Terminated

/-! ## What fits -/

/-- A title of some length fits into the info line, if it is drawn. -/
def LineFits (length : ℕ) : Prop :=
  d.drawn = true → (i2a d.vterm.id.toUInt32.toInt32).length + 3 + length ≤
    d.vterm.vidmode.width.toNat ∧ d.vterm.vidmode.width.toNat + 1 < 2 ^ 32

/-- The sizes go together. -/
def Fits : Request → Prop
  | .setTitle _ none => True
  | .setTitle size (some buf) =>
      size.toNat ≤ titlemax ∧ (size.toNat < titlemax ∨ ∃ i < titlemax, buf i = 0) ∧
        d.LineFits (buf.strlen 0 size.toNat)
  | .redraw => d.LineFits (d.title.strlen 0 titlemax)
  | .setPointerBitmap size buf =>
      size ≤ pointerBitmapSize ∨ pointerBitmapSize + buf.word datasizeOffset ≤ size

variable {d}

lemma within_append {l l' : List Touch} : Within (l ++ l') ↔ Within l ∧ Within l' :=
  forall_mem_append

lemma within_cons {a : Touch} {l : List Touch} :
    Within (a :: l) ↔ (a.write = true ∨ a.region = .argument → a.Inside) ∧ Within l :=
  forall_mem_cons

lemma length_infolineString :
    d.infolineString.length = (i2a d.vterm.id.toUInt32.toInt32).length + 3 +
      d.title.strlen 0 addressSpace := by
  have htext : d.infolineString =
      '[' :: (i2a d.vterm.id.toUInt32.toInt32 ++ ']' :: ' ' :: (d.titleText ++ [])) := rfl
  rw [htext, titleText]
  simp only [length_cons, length_append, length_map, length_range, length_nil]
  omega

/-- The info line is written inside its block if and only if the text is not longer than a line. -/
lemma within_doInfoline : Within d.doInfoline ↔ d.LineFits (d.title.strlen 0 addressSpace) := by
  rw [LineFits, doInfoline]
  split
  case isFalse hdrawn => simp [Within, hdrawn]
  case isTrue hdrawn =>
    have hwidth := d.vterm.vidmode.width.toNat_lt
    have hsize : (d.vterm.vidmode.width + 1).toNat =
        (d.vterm.vidmode.width.toNat + 1) % 2 ^ 32 := by
      rw [UInt32.toNat_add]
      rfl
    rw [← length_infolineString]
    simp only [hdrawn, forall_const, within_append, within_cons]
    constructor
    · -- the text and its NUL are written into the block
      rintro ⟨⟨-, -, hprint, -⟩, -⟩
      have hinside := hprint (.inl rfl)
      simp only [writes, Access.Inside] at hinside
      omega
    · rintro ⟨hfits, hlt⟩
      rw [Nat.mod_eq_of_lt hlt] at hsize
      refine ⟨⟨fun _ => .inr ?_, fun h => ?_, fun _ => .inr ?_, ?_⟩, ?_⟩
      · simp [writes]
      · simp [reads] at h
      · simp only [writes]
        omega
      · simp [Within]
      -- the loop over the columns does not get to the last byte
      · intro a ha _
        rw [mem_flatMap] at ha
        obtain ⟨i, hi, ha⟩ := ha
        rw [mem_range] at hi
        have hcases : a = reads .infolineText (d.vterm.vidmode.width + 1).toNat i 1 ∨
            a = writes .infolineText (d.vterm.vidmode.width + 1).toNat i 1 := by
          rw [mem_cons] at ha
          refine ha.imp_right fun ha => ?_
          split at ha
          · exact mem_singleton.mp ha
          · exact absurd ha not_mem_nil
        rcases hcases with rfl | rfl <;> exact .inr (by simp only [reads, writes]; omega)

lemma Terminated.strlen_eq (hd : d.Terminated) :
    d.title.strlen 0 addressSpace = d.title.strlen 0 titlemax := by
  obtain ⟨i, hi, hzero⟩ := hd
  have hzero' : d.title (0 + i) = 0 := by rwa [Nat.zero_add]
  rw [Bytes.strlen_eq_of_zero hzero' (by rw [titlemax] at hi; rw [addressSpace]; omega),
    Bytes.strlen_eq_of_zero hzero' hi.le]

/-- `SetTitle` with an argument that is not a null pointer. -/
lemma setTitle_safe_iff (size : UInt32) (buf : Bytes) :
    d.Safe (.setTitle size (some buf)) ↔ d.Fits (.setTitle size (some buf)) := by
  set title := (d.title.copy (fun _ => 0) titlemax).copy buf size.toNat
  -- the argument, and zeros up to the end of the array
  have hbuf : ∀ i < size.toNat, title i = buf i := fun i hi => if_pos hi
  have hzero : ∀ i, size.toNat ≤ i → i < titlemax → title i = 0 := fun i hi hlt =>
    (if_neg (not_lt.mpr hi)).trans (if_pos hlt)
  have hwithin : Within [writes .title titlemax 0 titlemax,
      reads .argument size.toNat 0 size.toNat, writes .title titlemax 0 size.toNat] ↔
      size.toNat ≤ titlemax := by
    simp [Within, writes, reads, Access.Inside]
    omega
  have hends : (∃ i < titlemax, title i = 0) ↔
      size.toNat < titlemax ∨ ∃ i < titlemax, buf i = 0 := by
    constructor
    · rintro ⟨i, hi, h⟩
      rcases lt_or_ge i size.toNat with hlt | hge
      · exact .inr ⟨i, hi, (hbuf i hlt).symm.trans h⟩
      · exact .inl (by omega)
    · rintro (hlt | ⟨i, hi, h⟩)
      · exact ⟨size.toNat, hlt, hzero _ (le_refl _) hlt⟩
      · rcases lt_or_ge i size.toNat with hlt | hge
        · exact ⟨i, hi, (hbuf i hlt).trans h⟩
        · exact ⟨i, hi, hzero i hge hi⟩
  -- the new title is the argument up to its first NUL
  have hlength : size.toNat ≤ titlemax → (∃ i < titlemax, title i = 0) →
      title.strlen 0 addressSpace = buf.strlen 0 size.toNat := by
    intro hle hterm
    have hd : Terminated { d with title := title } := hterm
    rw [hd.strlen_eq, ← Bytes.strlen_congr fun j hj => hbuf (0 + j) (by omega)]
    rcases hle.lt_or_eq with hlt | heq
    -- the byte behind the argument is a NUL, unless the argument is as long as the array
    · have hnul : title (0 + size.toNat) = 0 := hzero _ (by omega) (by omega)
      exact Bytes.strlen_eq_of_zero hnul hle
    · rw [heq]
  have hsafe : d.Safe (.setTitle size (some buf)) ↔
      (size.toNat ≤ titlemax ∧ d.LineFits (title.strlen 0 addressSpace)) ∧
        ∃ i < titlemax, title i = 0 := by
    rw [← hwithin]
    exact and_congr_left' (within_append.trans (and_congr_right' within_doInfoline))
  rw [hsafe, Fits, ← hends]
  constructor
  · rintro ⟨⟨hle, hline⟩, hterm⟩
    exact ⟨hle, hterm, hlength hle hterm ▸ hline⟩
  · rintro ⟨hle, hterm, hline⟩
    exact ⟨⟨hle, (hlength hle hterm).symm ▸ hline⟩, hterm⟩

lemma within_backendSetPointerBitmap (d : Device) (bmp : Block) :
    Within (d.backendSetPointerBitmap bmp).2 := by
  simp [Within, backendSetPointerBitmap, writes, reads, Access.Inside]

/-- `SetPointerBitmap`. -/
lemma setPointerBitmap_safe_iff (hd : d.Terminated) (size : UInt32) (buf : Bytes) :
    d.Safe (.setPointerBitmap size buf) ↔ d.Fits (.setPointerBitmap size buf) := by
  -- the title is not touched
  have htitle : (d.setPointerBitmap size buf).1.title = d.title := by
    simp only [setPointerBitmap, backendSetPointerBitmap]
    split
    · split <;> rfl
    · rfl
  have hterm : (d.setPointerBitmap size buf).1.Terminated := by
    rw [Terminated, htitle]
    exact hd
  rw [Safe, handle, and_iff_left hterm, Fits]
  simp only [setPointerBitmap]
  split
  case isFalse hsize => exact iff_of_true (by simp [Within]) (.inl (UInt32.not_lt.mp hsize))
  case isTrue hsize =>
    have hheader : 28 < size.toNat := UInt32.lt_iff_toNat_lt.mp hsize
    rw [or_iff_right (UInt32.not_le.mpr hsize)]
    generalize pointerBitmapSize + buf.word datasizeOffset = totalsize
    -- only the second read of the argument depends on `datasize`
    have htouched : Within [reads .argument size.toNat datasizeOffset 4,
        reads .argument size.toNat 0 totalsize.toNat,
        writes .pointerBitmap totalsize.toNat 0 totalsize.toNat] ↔ totalsize ≤ size := by
      simp [Within, writes, reads, Access.Inside, datasizeOffset, UInt32.le_iff_toNat_le]
      omega
    split
    · exact within_append.trans ((and_iff_left (within_backendSetPointerBitmap _ _)).trans htouched)
    · exact htouched

end Device

/-- The functions access memory as they should if and only if the sizes go together: the title and
its NUL fit into their array and into the info line, and the bitmap is as long as it says. -/
theorem safe_iff (d : Device) (hd : d.Terminated) (r : Request) : d.Safe r ↔ d.Fits r := by
  cases r with
  | setTitle size buf =>
    cases buf with
    | none =>
      exact iff_of_true ⟨by simp [Device.Within, Device.handle, Device.setTitle], hd⟩ trivial
    | some buf => exact Device.setTitle_safe_iff size buf
  | redraw =>
    rw [Device.Safe, Device.Fits, ← hd.strlen_eq]
    exact (and_iff_left hd).trans Device.within_doInfoline
  | setPointerBitmap size buf => exact Device.setPointerBitmap_safe_iff hd size buf

/-- A terminal that is shown in a text mode of 40 columns, without a title. -/
def shownDevice : Device where
  vterm :=
    { id := 1, buffer := fun _ => 0, bufsize := 2000, bufpos := 0, scrolling := true,
      infoline := true, vidmode := ⟨40, 25, 4, true⟩, textcolour := 7, echo := true,
      scrollcount := 0, title := [], active := true, backendColours := 7, overrun := false }
  title _ := 0
  pointerBitmap := none
  backendBitmap := none
  heap _ _ := 0

lemma terminated_shownDevice : shownDevice.Terminated := ⟨0, by decide, rfl⟩

/-- A short title is set as it should be. -/
theorem safe_shortTitle :
    shownDevice.Terminated ∧ shownDevice.Safe (.setTitle 5 (some fun _ => 65)) := by
  refine ⟨terminated_shownDevice, (safe_iff shownDevice terminated_shownDevice _).mpr ?_⟩
  exact ⟨by decide, .inl (by decide), fun _ => by decide⟩

/-- A title that is longer than its array, one that is longer than a line of the screen, and a
bitmap that is shorter than it says. -/
theorem exists_not_safe : ∃ d : Device, d.Terminated ∧
    ¬d.Safe (.setTitle 257 (some fun _ => 65)) ∧ ¬d.Safe (.setTitle 40 (some fun _ => 65)) ∧
      ¬d.Safe (.setPointerBitmap 29 fun _ => 1) := by
  refine ⟨shownDevice, terminated_shownDevice, fun h => ?_, fun h => ?_, fun h => ?_⟩
  · exact absurd ((Device.setTitle_safe_iff _ _).mp h).1 (by decide)
  · exact absurd (((Device.setTitle_safe_iff _ _).mp h).2.2 rfl).1 (by decide)
  · exact absurd ((Device.setPointerBitmap_safe_iff terminated_shownDevice _ _).mp h) (by
      rw [Device.Fits]
      decide)

end Terminal
