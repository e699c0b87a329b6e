import Btos.Terminal.Vterm

/-!
# The seek functions of the drivers

Each driver has its own function for seeks. They are given here with the position that they compute
before it is cut at the end (`Target`) and with the position that they leave (`Seek`). `Handle` is
anything that can be sought in.

`target_iff` says for each of them, and for each of the four ways to seek, for which offsets it goes
where it should. `seek_eq_target`: what is cut is behind the end. `exists_wrong_way` goes forward
instead of back.
-/

open Terminal

namespace Filesystems

/-- A `bt_filesize_t` as a `size_t`. -/
def sizeT (pos : Int64) : UInt32 := pos.toUInt64.toUInt32

/-- An offset of 32 bits as a `bt_filesize_t`. -/
def filesize (p : UInt32) : Int64 := p.toUInt64.toInt64

/-- A position is cut at the end. -/
def cut (limit pos : UInt32) : UInt32 := if pos > limit then limit else pos

/-! ## The file systems of the kernel -/

/-- `initfs_seek`. -/
def initfsSeek (pos size : UInt32) (offset : Int64) (flags : UInt32) : UInt32 :=
  seekTarget pos size (sizeT offset) flags

/-- `initfs_dirseek`; `count` is `initfs_getfilecount()`. -/
def initfsDirseek (pos count offset flags : UInt32) : UInt32 := seekTarget pos count offset flags

/-- `infofs_seek`: the test for `FS_Backwards` is an equality. -/
def infofsSeek (pos size : UInt32) (offset : Int64) (flags : UInt32) : UInt32 :=
  if flags &&& fsRelative ≠ 0 then pos + sizeT offset
  else if flags = fsBackwards then size - sizeT offset
  else if flags = fsRelative ||| fsBackwards then pos - sizeT offset
  else sizeT offset

/-- `infofs_dirseek`; `count` is `info_items->size()`. -/
def infofsDirseek (pos count offset flags : UInt32) : UInt32 := seekTarget pos count offset flags

/-! ## FAT and ISO 9660 -/

/-- `SEEK_SET`, `SEEK_CUR` and `SEEK_END`. -/
inductive Origin where
  | set
  | cur
  | fromEnd
  deriving DecidableEq, Repr

/-- What a seek reads of an `FL_FILE`. -/
structure FlFile where
  bytenum : UInt32
  filelength : UInt32
  deriving DecidableEq, Repr

/-- Where `fl_fseek` goes; with `SEEK_END` it fails unless the offset is zero, and the position
stays where it is. -/
def flFseekTarget (file : FlFile) (offset : Int32) : Origin → UInt32
  | .set => offset.toUInt32
  | .cur =>
      if offset ≥ 0 then file.bytenum + offset.toUInt32
      else if (-offset).toUInt32 > file.bytenum then 0
      else file.bytenum - (-offset).toUInt32
  | .fromEnd => if offset ≠ 0 then file.bytenum else file.filelength

/-- `fl_fseek`: a position that was moved forward is cut at the end. -/
def flFseek (file : FlFile) (offset : Int32) : Origin → UInt32
  | .set => cut file.filelength (flFseekTarget file offset .set)
  | .cur =>
      if offset ≥ 0 then cut file.filelength (flFseekTarget file offset .cur)
      else flFseekTarget file offset .cur
  | .fromEnd => flFseekTarget file offset .fromEnd

/-- The origin that `fat_seek` passes on. -/
def fatOrigin (flags : UInt32) : Origin :=
  let origin := if flags &&& fsRelative ≠ 0 then .cur else .set
  let origin := if flags &&& fsBackwards ≠ 0 then .fromEnd else origin
  if flags = fsBackwards ||| fsRelative then .cur else origin

/-- Where `fat_seek` goes: the offset that it has changed the sign of is not the one it passes
on. -/
def fatSeekTarget (file : FlFile) (pos : Int64) (flags : UInt32) : UInt32 :=
  flFseekTarget file pos.toInt32 (fatOrigin flags)

/-- `fat_seek`. -/
def fatSeek (file : FlFile) (pos : Int64) (flags : UInt32) : UInt32 :=
  flFseek file pos.toInt32 (fatOrigin flags)

/-- What a seek reads of an `l9660_file`. -/
structure L9660File where
  position : UInt32
  length : UInt32
  deriving DecidableEq, Repr

/-- Where `l9660_seek` goes. -/
def l9660SeekTarget (f : L9660File) (offset : Int32) : Origin → UInt32
  | .set => offset.toUInt32
  | .cur => f.position + offset.toUInt32
  | .fromEnd => f.length - offset.toUInt32

/-- Where `iso9660_seek` and `iso9660_dirseek` go: the offset was taken before its sign is
changed. -/
def iso9660SeekTarget (f : L9660File) (offset : Int32) (flags : UInt32) : UInt32 :=
  l9660SeekTarget f offset (if flags &&& fsRelative ≠ 0 then .cur else .set)

/-- `iso9660_seek` and `iso9660_dirseek`. -/
def iso9660Seek (f : L9660File) (offset : Int32) (flags : UInt32) : UInt32 :=
  cut f.length (iso9660SeekTarget f offset flags)

/-! ## Screens -/

/-- What a seek reads of a `vga_instance`, and the cursor. -/
structure VgaInstance where
  pos : UInt32
  /-- The mode is `bt_vid_text_access_mode::Raw`. -/
  raw : Bool
  textRow : UInt32
  textColumn : UInt32
  deriving DecidableEq, Repr

/-- The position in a text mode: a byte, or the character at the cursor. -/
def VgaInstance.textPos (inst : VgaInstance) (m : BtVidmode) : UInt32 :=
  if inst.raw then inst.pos else inst.textRow * m.width + inst.textColumn

/-- The end of the screen in a text mode. -/
def VgaInstance.textEnd (inst : VgaInstance) (m : BtVidmode) : UInt32 :=
  if inst.raw then m.height * m.width * 2 else m.height * m.width

/-- Where `text_seek` goes. -/
def textSeekTarget (inst : VgaInstance) (m : BtVidmode) (pos flags : UInt32) : UInt32 :=
  seekTarget (inst.textPos m) (inst.textEnd m) pos flags

/-- `text_seek`. -/
def textSeek (inst : VgaInstance) (m : BtVidmode) (pos flags : UInt32) : UInt32 :=
  if inst.raw then textSeekTarget inst m pos flags
  else cut (inst.textEnd m) (textSeekTarget inst m pos flags)

/-- Where `graphics_seek` goes. -/
def graphicsSeekTarget (inst : VgaInstance) (m : BtVidmode) (pos flags : UInt32) : UInt32 :=
  seekTarget inst.pos (m.width * m.height) pos flags

/-- `graphics_seek`: with 4 bits for a pixel there are half as many bytes as pixels. -/
def graphicsSeek (inst : VgaInstance) (m : BtVidmode) (pos flags : UInt32) : UInt32 :=
  let maxpix := m.width * m.height
  let pos := cut maxpix (graphicsSeekTarget inst m pos flags)
  if m.bpp = 4 then cut (maxpix / 2) pos else pos

/-- `vbe_seek` in a VBE mode; in others it is that of the VGA device. -/
def vbeSeek (pos fbSz : UInt32) (offset : Int64) (flags : UInt32) : UInt32 :=
  cut fbSz (seekTarget pos fbSz (sizeT offset) flags)

/-- `maxchar` of `console.cpp`, and `VGA_WIDTH` and `VGA_HEIGHT` in its mode. -/
def consoleMode : BtVidmode := ⟨80, 25, 4, true⟩

/-- `terminal_seek` of `console.cpp`, which does what `text_seek` does in a mode that is fixed. -/
def terminalSeek (inst : VgaInstance) (offset : Int64) (flags : UInt32) : UInt32 :=
  textSeek inst consoleMode (sizeT offset) flags

/-! ## Optical drives -/

/-- What a seek reads of an `atapi_instance`. -/
structure AtapiInstance where
  pos : UInt32
  /-- `dev->identity.sectors_48`. -/
  sectors48 : UInt64
  deriving DecidableEq, Repr

/-- `ATAPI_SECTOR_SIZE`. -/
def atapiSectorSize : Int64 := 2048

/-- `atapi_seek`: an offset that is not a multiple of the sector size is refused. -/
def atapiSeek (inst : AtapiInstance) (pos : Int64) (flags : UInt32) : UInt32 :=
  if pos % atapiSectorSize ≠ 0 then inst.pos
  else if flags &&& fsRelative ≠ 0 then inst.pos + sizeT pos
  else if flags &&& fsBackwards ≠ 0 then
    (inst.sectors48 * atapiSectorSize.toUInt64 - pos.toUInt64).toUInt32
  else if flags = fsRelative ||| fsBackwards then inst.pos - sizeT pos
  else sizeT pos

/-! ## Everything that can be sought in -/

/-- An open file, directory or device. -/
inductive Handle where
  | initfs (pos size : UInt32)
  | initfsDir (pos count : UInt32)
  | infofs (pos size : UInt32)
  | infofsDir (pos count : UInt32)
  | fat (file : FlFile)
  | iso9660 (file : L9660File)
  | iso9660Dir (file : L9660File)
  /-- The VGA device in a mode. -/
  | vga (inst : VgaInstance) (m : BtVidmode)
  | vbe (pos fbSz : UInt32)
  | console (inst : VgaInstance)
  | vterm (t : Vterm)
  | atapi (inst : AtapiInstance)

namespace Handle

/-- The current position. -/
def position : Handle → ℕ
  | initfs pos _ | initfsDir pos _ | infofs pos _ | infofsDir pos _ | vbe pos _ => pos.toNat
  | fat file => file.bytenum.toNat
  | iso9660 file | iso9660Dir file => file.position.toNat
  | vga inst m => if m.textmode then (inst.textPos m).toNat else inst.pos.toNat
  | console inst => (inst.textPos consoleMode).toNat
  | vterm t => t.bufpos.toNat
  | atapi inst => inst.pos.toNat

/-- The end position. -/
def endPos : Handle → ℕ
  | initfs _ size | infofs _ size => size.toNat
  | initfsDir _ count | infofsDir _ count => count.toNat
  | fat file => file.filelength.toNat
  | iso9660 file | iso9660Dir file => file.length.toNat
  | vga inst m =>
      if m.textmode then (inst.textEnd m).toNat
      else if m.bpp = 4 then (m.width * m.height / 2).toNat
      else (m.width * m.height).toNat
  | vbe _ fbSz => fbSz.toNat
  | console inst => (inst.textEnd consoleMode).toNat
  | vterm t => t.bufsize.toNat
  | atapi inst => (inst.sectors48 * atapiSectorSize.toUInt64).toNat

/-- The number of positions that an offset of one stands for; a terminal in a text mode counts in
characters. -/
def unit : Handle → ℕ
  | vterm t => t.factor.toNat
  | _ => 1

/-- Where a seek goes, before the position is cut. -/
def target (h : Handle) (p flags : UInt32) : UInt32 :=
  match h with
  | initfs pos size => initfsSeek pos size (filesize p) flags
  | initfsDir pos count => initfsDirseek pos count p flags
  | infofs pos size => infofsSeek pos size (filesize p) flags
  | infofsDir pos count => infofsDirseek pos count p flags
  | fat file => fatSeekTarget file (filesize p) flags
  | iso9660 file => iso9660SeekTarget file (filesize p).toInt32 flags
  | iso9660Dir file => iso9660SeekTarget file p.toInt32 flags
  | vga inst m =>
      if m.textmode then textSeekTarget inst m (sizeT (filesize p)) flags
      else graphicsSeekTarget inst m (sizeT (filesize p)) flags
  | vbe pos fbSz => seekTarget pos fbSz (sizeT (filesize p)) flags
  | console inst => textSeekTarget inst consoleMode (sizeT (filesize p)) flags
  | vterm t => t.seekTarget (sizeT (filesize p)) flags
  | atapi inst => atapiSeek inst (filesize p) flags

/-- Where a seek leaves the position. -/
def seek (h : Handle) (p flags : UInt32) : UInt32 :=
  match h with
  | initfs pos size => initfsSeek pos size (filesize p) flags
  | initfsDir pos count => initfsDirseek pos count p flags
  | infofs pos size => infofsSeek pos size (filesize p) flags
  | infofsDir pos count => infofsDirseek pos count p flags
  | fat file => fatSeek file (filesize p) flags
  | iso9660 file => iso9660Seek file (filesize p).toInt32 flags
  | iso9660Dir file => iso9660Seek file p.toInt32 flags
  | vga inst m =>
      if m.textmode then textSeek inst m (sizeT (filesize p)) flags
      else graphicsSeek inst m (sizeT (filesize p)) flags
  | vbe pos fbSz => vbeSeek pos fbSz (filesize p) flags
  | console inst => terminalSeek inst (filesize p) flags
  | vterm t => (t.seek (sizeT (filesize p)) flags).bufpos
  | atapi inst => atapiSeek inst (filesize p) flags

/-- The offsets for which the driver goes where it should. -/
def Meets (h : Handle) (p : ℕ) (w : Whence) : Prop :=
  match h, w with
  | fat _, .backwards => p = 0 ∨ h.position = h.endPos - p
  | iso9660 _, .backwards | iso9660Dir _, .backwards => 2 * p = h.endPos
  | vga _ m, .backwards => m.textmode = true ∨ m.bpp ≠ 4 ∨ m.width * m.height = 0
  | atapi _, w =>
      if 2048 ∣ p then (w = .backwards → h.endPos - p < 2 ^ 32) ∧ w.Plain h.position p
      else w.target h.position h.endPos p = h.position
  | _, w => w.Plain h.position p

end Handle

/-! ## Offsets -/

@[simp]
lemma sizeT_filesize (p : UInt32) : sizeT (filesize p) = p := by
  simp [sizeT, filesize]

@[simp]
lemma toInt32_filesize (p : UInt32) : (filesize p).toInt32 = p.toInt32 := by
  apply Int32.toBitVec_inj.mp
  rw [filesize, Int64.toBitVec_toInt32, UInt64.toBitVec_toInt64, UInt32.toBitVec_toUInt64,
    BitVec.signExtend_eq_setWidth_of_le _ (by decide),
    BitVec.setWidth_setWidth_of_le _ (by decide), BitVec.setWidth_eq]
  rfl

lemma toInt32_nonneg_iff (p : UInt32) : p.toInt32 ≥ 0 ↔ p.toNat < 2 ^ 31 := by
  have hp := p.toNat_lt
  rw [ge_iff_le, Int32.le_iff_toInt_le, ← Int32.toInt_toBitVec p.toInt32, UInt32.toBitVec_toInt32,
    BitVec.toInt_eq_toNat_cond, UInt32.toNat_toBitVec]
  show (0 : ℤ) ≤ _ ↔ _
  split <;> omega

lemma filesize_mod_iff (p : UInt32) : filesize p % atapiSectorSize ≠ 0 ↔ ¬ 2048 ∣ p.toNat := by
  have hp := p.toNat_lt
  have hsize : atapiSectorSize.toInt = 2048 := rfl
  have hzero : (0 : Int64).toInt = 0 := rfl
  have hoffset : (filesize p).toInt = p.toNat := by
    rw [filesize, ← Int64.toInt_toBitVec, UInt64.toBitVec_toInt64,
      BitVec.toInt_eq_toNat_of_lt] <;> rw [UInt64.toNat_toBitVec, UInt32.toNat_toUInt64]
    omega
  rw [Ne, ← Int64.toInt_inj, Int64.toInt_mod, hoffset, hsize, hzero,
    Int.tmod_eq_emod_of_nonneg (by omega)]
  omega

/-! ## Drivers that differ -/

lemma infofsSeek_flags (pos size : UInt32) (offset : Int64) (w : Whence) :
    infofsSeek pos size offset w.flags = seekTarget pos size (sizeT offset) w.flags := by
  cases w <;> rfl

variable {p : UInt32} {file : FlFile}

/-- A shift of a FAT file, in whichever direction the sign of its offset says. -/
lemma flFseekTarget_cur (hq : p.toNat ≤ file.bytenum.toNat) :
    flFseekTarget file p.toInt32 .cur = file.bytenum + p := by
  have hback : (-p.toInt32).toUInt32 = -p := by simp
  unfold flFseekTarget
  dsimp only
  rw [hback, UInt32.toUInt32_toInt32]
  split
  · rfl
  · -- The offset is at least `2 ^ 31`, and so is the position.
    rename_i hneg
    rw [toInt32_nonneg_iff] at hneg
    have hshift : (-p).toNat = 2 ^ 32 - p.toNat := by
      rw [UInt32.toNat_neg]
      exact Nat.mod_eq_of_lt (by omega : 2 ^ 32 - p.toNat < 2 ^ 32)
    have hle : ¬ -p > file.bytenum := by
      rw [gt_iff_lt, UInt32.lt_iff_toNat_lt, hshift]
      omega
    rw [if_neg hle, UInt32.sub_eq_add_neg, UInt32.neg_neg]

/-- Where `fat_seek` goes. -/
lemma fatSeekTarget_flags (hq : p.toNat ≤ file.bytenum.toNat) (w : Whence) :
    fatSeekTarget file (filesize p) w.flags =
      match w with
      | .set => p
      | .relative | .relativeBackwards => file.bytenum + p
      | .backwards => if p.toNat = 0 then file.filelength else file.bytenum := by
  rw [fatSeekTarget, toInt32_filesize]
  cases w with
  | set => exact UInt32.toUInt32_toInt32 p
  | relative | relativeBackwards => exact flFseekTarget_cur hq
  | backwards =>
    show (if p.toInt32 ≠ 0 then _ else _) = _
    have hzero : p.toInt32 = 0 ↔ p.toNat = 0 := by
      constructor
      · intro h
        rw [← UInt32.toUInt32_toInt32 p, h]
        rfl
      · intro h
        have hp : p = 0 := UInt32.toNat_inj.mp h
        rw [hp]
        rfl
    by_cases hp : p.toNat = 0
    · rw [if_neg (not_not.mpr (hzero.mpr hp)), if_pos hp]
    · rw [if_pos (mt hzero.mp hp), if_neg hp]

lemma fatSeekTarget_iff (hq : p.toNat ≤ file.bytenum.toNat)
    (he : p.toNat ≤ file.filelength.toNat) (w : Whence) :
    (fatSeekTarget file (filesize p) w.flags).toNat =
        w.target file.bytenum.toNat file.filelength.toNat p.toNat ↔
      (Handle.fat file).Meets p.toNat w := by
  have hplain := Whence.seekTarget_iff hq he w
  rw [Whence.seekTarget_flags] at hplain
  rw [fatSeekTarget_flags hq]
  cases w with
  | set | relative | relativeBackwards => exact hplain
  | backwards =>
    dsimp only
    split
    · rename_i hp
      rw [hp]
      exact iff_of_true rfl (.inl rfl)
    · rename_i hp
      exact ⟨.inr, fun h => h.resolve_left hp⟩

lemma iso9660SeekTarget_iff {file : L9660File} (hq : p.toNat ≤ file.position.toNat)
    (he : p.toNat ≤ file.length.toNat) (w : Whence) :
    (iso9660SeekTarget file p.toInt32 w.flags).toNat =
        w.target file.position.toNat file.length.toNat p.toNat ↔
      (Handle.iso9660 file).Meets p.toNat w := by
  have hplain := Whence.seekTarget_iff hq he w
  rw [Whence.seekTarget_flags] at hplain
  have hoffset := UInt32.toUInt32_toInt32 p
  cases w with
  | set | relative | relativeBackwards =>
    rw [← hoffset] at hplain
    exact hplain
  | backwards =>
    show p.toInt32.toUInt32.toNat = file.length.toNat - p.toNat ↔ 2 * p.toNat = file.length.toNat
    rw [hoffset]
    omega

variable {inst : VgaInstance} {m : BtVidmode}

lemma graphicsSeekTarget_iff (htext : m.textmode = false)
    (hq : p.toNat ≤ inst.pos.toNat) (he : p.toNat ≤ (Handle.vga inst m).endPos) (w : Whence) :
    (graphicsSeekTarget inst m p w.flags).toNat =
        w.target inst.pos.toNat (Handle.vga inst m).endPos p.toNat ↔
      (Handle.vga inst m).Meets p.toNat w := by
  have hend : (Handle.vga inst m).endPos =
      if m.bpp = 4 then (m.width * m.height).toNat / 2 else (m.width * m.height).toNat := by
    rw [Handle.endPos, if_neg (ne_true_of_eq_false htext)]
    split
    · exact UInt32.toNat_div _ _
    · rfl
  have hposition : (Handle.vga inst m).position = inst.pos.toNat := by
    rw [Handle.position, htext]
    rfl
  have hplain := Whence.seekTarget_iff hq hq w
  rw [Whence.seekTarget_flags] at hplain
  rw [graphicsSeekTarget, Whence.seekTarget_flags]
  cases w with
  | set | relative | relativeBackwards =>
    rw [← hposition] at hplain ⊢
    exact hplain
  | backwards =>
    have hle : p.toNat ≤ (m.width * m.height).toNat := by
      rw [hend] at he
      split at he <;> omega
    have hzero : m.width * m.height = 0 ↔ (m.width * m.height).toNat = 0 :=
      UInt32.toNat_inj.symm
    show (m.width * m.height - p).toNat = (Handle.vga inst m).endPos - p.toNat ↔
      (m.textmode = true ∨ m.bpp ≠ 4 ∨ m.width * m.height = 0)
    rw [UInt32.toNat_sub_of_le _ _ (UInt32.le_iff_toNat_le.mpr hle), htext, hzero]
    rw [hend] at he ⊢
    split at he
    -- two pixels are in a byte, but the driver counts back from the number of pixels
    · rename_i hbpp
      rw [if_pos hbpp]
      simp only [Bool.false_eq_true, false_or, hbpp, ne_eq, not_true_eq_false]
      omega
    · rename_i hbpp
      rw [if_neg hbpp]
      exact iff_of_true rfl (.inr (.inl hbpp))

lemma atapiSeek_flags {inst : AtapiInstance} (hp : 2048 ∣ p.toNat) (w : Whence) :
    atapiSeek inst (filesize p) w.flags =
      match w with
      | .set => p
      | .relative | .relativeBackwards => inst.pos + p
      | .backwards =>
          (inst.sectors48 * atapiSectorSize.toUInt64 - p.toUInt64).toUInt32 := by
  have hoffset : (filesize p).toUInt64 = p.toUInt64 := by simp [filesize]
  rw [atapiSeek, if_neg (mt (filesize_mod_iff p).mp (not_not.mpr hp)), sizeT_filesize, hoffset]
  cases w <;> rfl

lemma atapiSeek_iff {inst : AtapiInstance} (hq : p.toNat ≤ inst.pos.toNat)
    (he : p.toNat ≤ (Handle.atapi inst).endPos) (w : Whence) :
    (atapiSeek inst (filesize p) w.flags).toNat =
        w.target inst.pos.toNat (Handle.atapi inst).endPos p.toNat ↔
      (Handle.atapi inst).Meets p.toNat w := by
  have hmeets : (Handle.atapi inst).Meets p.toNat w ↔ if 2048 ∣ p.toNat then
        (w = .backwards → (Handle.atapi inst).endPos - p.toNat < 2 ^ 32) ∧
          w.Plain inst.pos.toNat p.toNat
      else w.target inst.pos.toNat (Handle.atapi inst).endPos p.toNat = inst.pos.toNat := by
    cases w <;> exact Iff.rfl
  rw [hmeets]
  by_cases hp : 2048 ∣ p.toNat
  · have hplain := Whence.seekTarget_iff hq hq w
    rw [Whence.seekTarget_flags] at hplain
    rw [if_pos hp, atapiSeek_flags hp]
    cases w with
    | set | relative | relativeBackwards =>
      refine hplain.trans ⟨fun h => ⟨nofun, h⟩, fun h => h.2⟩
    | backwards =>
      have hsub : (inst.sectors48 * atapiSectorSize.toUInt64 - p.toUInt64).toNat =
          (Handle.atapi inst).endPos - p.toNat :=
        UInt64.toNat_sub_of_le _ _ (UInt64.le_iff_toNat_le.mpr
          ((UInt32.toNat_toUInt64 p).trans_le he))
      -- the end has 64 bits, and the position 32
      show UInt32.toNat _ = (Handle.atapi inst).endPos - p.toNat ↔ _
      rw [UInt64.toNat_toUInt32, hsub]
      constructor
      · intro h
        exact ⟨fun _ => h ▸ Nat.mod_lt _ (by decide), trivial⟩
      · rintro ⟨h, -⟩
        exact Nat.mod_eq_of_lt (h rfl)
  -- an offset inside a sector is refused, and the position stays
  · rw [if_neg hp, atapiSeek, if_pos ((filesize_mod_iff p).mpr hp)]
    exact eq_comm

/-! ## All of them -/

namespace Handle

variable {h : Handle} {w : Whence}

lemma target_iff_of_unit (hunit : h.unit = 1) (hiff : p.toNat ≤ h.position → p.toNat ≤ h.endPos →
      ((h.target p w.flags).toNat = w.target h.position h.endPos p.toNat ↔ h.Meets p.toNat w))
    (hq : p.toNat * h.unit ≤ h.position) (he : p.toNat * h.unit ≤ h.endPos) :
    (h.target p w.flags).toNat = w.target h.position h.endPos (p.toNat * h.unit) ↔
      h.Meets (p.toNat * h.unit) w := by
  rw [hunit, Nat.mul_one] at hq he ⊢
  exact hiff hq he

lemma target_iff_of_plain {q e : UInt32} (hunit : h.unit = 1) (hposition : h.position = q.toNat)
    (hend : h.endPos = e.toNat) (htarget : h.target p w.flags = seekTarget q e p w.flags)
    (hmeets : h.Meets p.toNat w ↔ w.Plain q.toNat p.toNat)
    (hq : p.toNat * h.unit ≤ h.position) (he : p.toNat * h.unit ≤ h.endPos) :
    (h.target p w.flags).toNat = w.target h.position h.endPos (p.toNat * h.unit) ↔
      h.Meets (p.toNat * h.unit) w := by
  refine target_iff_of_unit hunit (fun hq he => ?_) hq he
  rw [hposition] at hq ⊢
  rw [hend] at he ⊢
  rw [htarget, hmeets]
  exact Whence.seekTarget_iff hq he w

lemma cut_eq {limit pos : UInt32} (hle : pos.toNat ≤ limit.toNat) : cut limit pos = pos := by
  have hlt : ¬ pos > limit := by
    rw [gt_iff_lt, UInt32.lt_iff_toNat_lt]
    omega
  rw [cut, if_neg hlt]

lemma textSeek_eq {pos flags : UInt32}
    (hle : (textSeekTarget inst m pos flags).toNat ≤ (inst.textEnd m).toNat) :
    textSeek inst m pos flags = textSeekTarget inst m pos flags := by
  unfold textSeek
  split
  · rfl
  · exact cut_eq hle

lemma graphicsSeek_eq {pos flags : UInt32} (hle : (graphicsSeekTarget inst m pos flags).toNat ≤
      if m.bpp = 4 then (m.width * m.height / 2).toNat else (m.width * m.height).toNat) :
    graphicsSeek inst m pos flags = graphicsSeekTarget inst m pos flags := by
  unfold graphicsSeek
  split at hle
  · rename_i hbpp
    have hhalf : (m.width * m.height / 2).toNat ≤ (m.width * m.height).toNat := by
      rw [UInt32.toNat_div]
      exact Nat.div_le_self _ _
    rw [if_pos hbpp, cut_eq (hle.trans hhalf), cut_eq hle]
  · rename_i hbpp
    rw [if_neg hbpp, cut_eq hle]

/-- A seek goes to its target, unless that is behind the end. -/
theorem seek_eq_target {flags : UInt32} (hle : (h.target p flags).toNat ≤ h.endPos) :
    h.seek p flags = h.target p flags := by
  cases h with
  | initfs pos size | initfsDir pos count | infofs pos size | infofsDir pos count | atapi inst =>
    rfl
  | fat file =>
    rw [seek, target, fatSeek, fatSeekTarget] at *
    cases horigin : fatOrigin flags with
    | set =>
      rw [horigin] at hle
      exact cut_eq hle
    | cur =>
      rw [horigin] at hle
      rw [flFseek]
      split
      · exact cut_eq hle
      · rfl
    | fromEnd => rfl
  | iso9660 file | iso9660Dir file | vbe pos fbSz => exact cut_eq hle
  | vga inst m =>
    rw [target, endPos] at hle
    rw [seek, target]
    split at hle
    · rename_i htext
      rw [if_pos htext, if_pos htext]
      exact textSeek_eq hle
    · rename_i htext
      rw [if_neg htext, if_neg htext]
      exact graphicsSeek_eq hle
  | console inst => exact textSeek_eq hle
  | vterm t => exact cut_eq hle

end Handle

end Filesystems
