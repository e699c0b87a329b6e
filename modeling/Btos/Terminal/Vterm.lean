import Btos.Filesystems.Whence
import Btos.Lib.TransitionSystem
import Btos.Util.Printf

/-!
# Virtual terminals

`vterm.cpp`: a terminal keeps the contents of its screen in a buffer, two bytes for each character
in a text mode, and `bufpos` is the index of the next one. Sizes and positions have 32 bits.

* `touch` and `touchRange` are accesses to the buffer; `overrun` remembers whether one of them was
  at or behind `bufsize`.
* A function that divides by zero does not return: it is `none`.
* `read` waits for each character without the lock, so that a turn of its loop is an action of its
  own here, `readChar`; a `read` of any size is a row of them, with other actions in between.
-/

open Filesystems Printf

namespace Terminal

/-- What a terminal reads of `bt_vidmode`. -/
structure BtVidmode where
  width : UInt32
  height : UInt32
  bpp : UInt32
  textmode : Bool
  deriving DecidableEq, Repr

/-- `vterm`. -/
structure Vterm where
  id : UInt64
  buffer : UInt32 → UInt8
  bufsize : UInt32
  bufpos : UInt32
  scrolling : Bool
  infoline : Bool
  vidmode : BtVidmode
  textcolour : UInt8
  echo : Bool
  scrollcount : UInt64
  title : Str
  /-- `backend && backend->is_active(id)`. -/
  active : Bool
  /-- `backend->get_text_colours()`. -/
  backendColours : UInt8
  /-- An index outside of the buffer was read or written. -/
  overrun : Bool

namespace Vterm

variable (t : Vterm)

/-! ## The buffer -/

/-- `buffer[i]` is read or written. -/
def touch (i : UInt32) : Vterm := { t with overrun := t.overrun || decide (t.bufsize ≤ i) }

/-- `size` bytes of the buffer are read or written, from `pos` on. -/
def touchRange (pos size : UInt32) : Vterm :=
  { t with
    overrun := t.overrun ||
      decide (0 < size.toNat ∧ t.bufsize.toNat < pos.toNat + size.toNat) }

/-- `buffer[i]=v`. -/
def store (i : UInt32) (v : UInt8) : Vterm :=
  { t.touch i with buffer := Function.update t.buffer i v }

/-- The bytes of a character; it has two of them in a text mode. -/
def factor : UInt32 := if t.vidmode.textmode then 2 else 1

/-! ## Characters -/

/-- A turn of the inner loop of `scroll`. -/
def scrollCell (start y x : UInt32) : Vterm :=
  let source := y * (t.vidmode.width * t.factor) + x
  let dest := (y - 1) * (t.vidmode.width * t.factor) + x
  let t := if y > start then (t.touch source).store dest (t.buffer source) else t
  let t := t.store source 0
  if t.vidmode.textmode && source % 2 ≠ 0 then t.store source t.textcolour else t

/-- The indices of the cells that `scroll` goes through, line by line. -/
def scrollIndices (start : ℕ) : List (UInt32 × UInt32) :=
  (List.range' (start + 1) (t.vidmode.height.toNat - (start + 1))).flatMap fun y =>
    (List.range (t.vidmode.width * t.factor).toNat).map fun x => (.ofNat y, .ofNat x)

/-- `scroll`. -/
def scroll : Vterm :=
  let start := if t.infoline then 1 else 0
  let moved :=
    if t.scrolling then
      (t.scrollIndices start).foldl (fun t i => t.scrollCell (.ofNat start) i.1 i.2) t
    else t
  { moved with
    bufpos := (t.vidmode.height - 1) * t.vidmode.width * t.factor
    scrollcount := t.scrollcount + 1 }

/-- The first part of `putchar`: the character goes to the buffer. -/
def advance (c : Char) : Option Vterm :=
  let line := t.vidmode.width * 2
  if c = '\n' then
    if line = 0 then none else some { t with bufpos := (t.bufpos / line + 1) * line }
  else if c = '\x08' then
    if t.bufpos ≥ 2 then
      some { (t.store (t.bufpos - 2) ' '.toUInt8).store (t.bufpos - 2 + 1) t.textcolour with
        bufpos := t.bufpos - 2 }
    else some t
  else
    some { (t.store t.bufpos c.toUInt8).store (t.bufpos + 1) t.textcolour with
      bufpos := t.bufpos + 2 }

/-- `putchar`. -/
def putchar (c : Char) : Option Vterm :=
  if !t.vidmode.textmode then some t
  else (t.advance c).map fun t => if t.bufpos ≥ t.bufsize then t.scroll else t

/-- `putstring`. -/
def putstring (s : Str) : Option Vterm := s.foldlM putchar t

/-- `setcolours`. -/
def setcolours (c : UInt8) : Vterm :=
  { t with textcolour := c, backendColours := if t.active then c else t.backendColours }

/-! ## Positions -/

/-- Where `seek` goes, before the position is brought into the buffer. -/
def seekTarget (pos flags : UInt32) : UInt32 :=
  Filesystems.seekTarget t.bufpos t.bufsize (pos * t.factor) flags

/-- `seek`. -/
def seek (pos flags : UInt32) : Vterm :=
  let bufpos := t.seekTarget pos flags
  { t with bufpos := if bufpos > t.bufsize then t.bufsize else bufpos }

/-- What `seek` returns. -/
def position : UInt32 := t.bufpos / t.factor

/-! ## The info line -/

/-- The text of the info line. -/
def infolineText : Str :=
  let text := tfpFormat "[%i] %s".toList [.int t.id.toUInt32.toInt32, .str t.title]
  text ++ List.replicate (t.vidmode.width.toNat - text.length) ' '

/-- `do_infoline`. -/
def doInfoline : Option Vterm :=
  if t.active && t.infoline && t.vidmode.textmode then do
    let here := t.seek 0 fsRelative
    let pos := here.position
    let line ← ((here.seek 0 fsSet).setcolours 0x1F).putstring t.infolineText
    let back := (line.setcolours t.backendColours).seek pos fsSet
    if pos < t.vidmode.width then back.putchar '\n' else some back
  else some t

/-! ## Buffers -/

/-- `clear_buffer`: zeros, and the colour in the odd bytes of a text mode. -/
def clearBuffer : Vterm :=
  { t.touchRange 0 t.bufsize with
    buffer := fun i => if t.vidmode.textmode && i % 2 ≠ 0 then t.textcolour else 0
    bufpos := 0 }

/-- `allocate_buffer`; what the new block holds is not known. -/
def allocateBuffer : Option Vterm :=
  let m := t.vidmode
  if m.textmode then some { t with bufsize := m.width * m.height * (m.bpp * 2 / 8 + 1) }
  else if m.bpp > 8 then some { t with bufsize := m.width * m.height * (m.bpp / 8) }
  else if m.bpp = 0 then none
  else some { t with bufsize := m.width * m.height / (8 / m.bpp) }

/-- The end of `ClearScreen` and of `SetScreenMode`: a line is left for the info line. -/
def startLines : Option Vterm := do
  let t ← t.putchar '\n'
  t.doInfoline

/-- `vterm(nid, back)`; `vidmode` is not initialised, and `colours` are those of the backend. -/
def construct (id : UInt64) (vidmode : BtVidmode) (colours : UInt8) : Vterm where
  id := id
  buffer _ := 0
  bufsize := 0
  bufpos := 0
  scrolling := true
  infoline := true
  vidmode := vidmode
  textcolour := 0x07
  echo := true
  scrollcount := 0
  title := tfpFormat "BT/OS Terminal %i".toList [.int id.toUInt32.toInt32]
  active := false
  backendColours := colours
  overrun := false

/-- `sync`: the terminal takes the mode of the backend and, with `content`, what is on the screen
and the position there. -/
def sync (vidmode : BtVidmode) (content : Option ((UInt32 → UInt8) × UInt32)) : Option Vterm := do
  let t ← allocateBuffer { t with vidmode := vidmode }
  match content with
  | none => some t.clearBuffer
  | some (screen, pos) =>
      some
        { t.touchRange 0 t.bufsize with
          buffer := screen
          bufpos := pos * t.factor
          backendColours := if vidmode.textmode then t.textcolour else t.backendColours }

/-! ## Calls -/

/-- The size of a transfer that does not run over the end. -/
def clampSize (size : UInt32) : UInt32 :=
  if t.bufpos + size > t.bufsize then t.bufsize - t.bufpos else size

/-- `write` of the `size` characters of `buf`. -/
def write (size : UInt32) (buf : UInt32 → Char) : Option Vterm := do
  let size := t.clampSize size
  if t.vidmode.textmode then
    let written ← t.putstring ((List.range size.toNat).map fun i => buf (.ofNat i))
    let ilineValid :=
      t.infoline && !(t.bufpos ≤ t.vidmode.width) && t.scrollcount == written.scrollcount
    if ilineValid then some written else written.doInfoline
  else
    let written :=
      if t.active then t
      else
        { t.touchRange t.bufpos size with
          buffer := fun i =>
            if t.bufpos ≤ i ∧ i < t.bufpos + size then (buf (i - t.bufpos)).toUInt8
            else t.buffer i }
    doInfoline { written with bufpos := t.bufpos + size }

/-- A turn of the loop of `read` for terminal input: `c` is the character at `i` of the buffer that
is read into. -/
def readChar (i : ℕ) (c : Char) : Option Vterm :=
  if c = '\n' then
    (if t.echo then t.putchar c else some t).bind fun echoed =>
      if t.scrollcount ≠ echoed.scrollcount then echoed.doInfoline else some echoed
  else if t.echo && !(c == '\x08' && i == 0) then t.putchar c
  else some t

/-- `read` in the video mode. -/
def readVideo (size : UInt32) : Vterm :=
  let size := t.clampSize size
  let read := if t.active then t else t.touchRange t.bufpos size
  { read with bufpos := t.bufpos + size }

/-- `activate`. -/
def activate : Option Vterm := do
  let shown := { t.touchRange 0 t.bufsize with active := true }
  let shown := if t.vidmode.textmode then shown.setcolours t.textcolour else shown
  let lined ← shown.doInfoline
  if lined.infoline && lined.bufpos == 0 then lined.putchar '\n' else some lined

/-- `deactivate`, after which another terminal becomes active; `screen` is read from the backend. -/
def deactivate (screen : UInt32 → UInt8) : Vterm :=
  if t.active then
    if t.vidmode.textmode then { t with active := false }
    else { t.touchRange 0 t.bufsize with buffer := screen, active := false }
  else t

end Vterm

/-- The functions of `ioctl` that change the buffer, or what the others look at. -/
inductive Ioctl where
  | setTitle (title : Str)
  | clearScreen
  | setEcho (echo : Bool)
  | setInfoLine (infoline : Bool)
  | setScreenMode (vidmode : BtVidmode)
  | setTextColours (c : UInt8)
  | setScrolling (scrolling : Bool)
  deriving DecidableEq, Repr

/-- `ioctl`. -/
def Vterm.ioctl (t : Vterm) : Ioctl → Option Vterm
  | .setTitle title => doInfoline { t with title := title }
  | .clearScreen =>
      let cleared := t.clearBuffer.seek 0 fsSet
      if t.infoline then cleared.startLines else some cleared
  | .setEcho echo => some { t with echo := echo }
  | .setInfoLine infoline => some { t with infoline := infoline }
  | .setScreenMode vidmode => do
      let t ← allocateBuffer { t with vidmode := vidmode }
      let cleared := t.clearBuffer
      if vidmode.textmode && t.infoline then cleared.startLines else some cleared
  | .setTextColours c => some (t.setcolours c)
  | .setScrolling scrolling => some { t with scrolling := scrolling }

/-- What can happen to a terminal, each under its lock. -/
inductive Action where
  | write (size : UInt32) (buf : UInt32 → Char)
  | readChar (i : ℕ) (c : Char)
  | readVideo (size : UInt32)
  | seek (pos flags : UInt32)
  | ioctl (fn : Ioctl)
  | activate
  | deactivate (screen : UInt32 → UInt8)

/-- A terminal, from one of the given states on. -/
def vterm (created : Vterm → Prop) : System Vterm Action where
  init := created
  step t
    | .write size buf => t.write size buf
    | .readChar i c => t.readChar i c
    | .readVideo size => some (t.readVideo size)
    | .seek pos flags => some (t.seek pos flags)
    | .ioctl fn => t.ioctl fn
    | .activate => t.activate
    | .deactivate screen => some (t.deactivate screen)

end Terminal
