import Btos.Terminal.Vterm

/-!
# The bounds of the terminal's buffer

`Inside`: no index outside of the buffer was used, the position is not behind the end, and in a text
mode the buffer has room for the screen and is used in pairs of bytes. A character can be put where
the position is in front of the end (`Ready`), which it is again afterwards; a new line or a
backspace can be put anywhere.

In every run in which text modes have such a buffer and no character is echoed at the end of it, the
terminal stays inside (`inside_of_reaches`). `exists_overrun_echo` seeks to the end.
-/

open Filesystems Option List

namespace Terminal

/-- The size that `allocate_buffer` computes for a text mode has 32 bits, is even and has room for
two bytes of each character. -/
structure BtVidmode.TextFits (m : BtVidmode) : Prop where
  width_pos : 0 < m.width.toNat
  height_pos : 0 < m.height.toNat
  four_le_bpp : 4 ≤ m.bpp.toNat
  bpp_lt : m.bpp.toNat < 2 ^ 31
  size_lt : m.width.toNat * m.height.toNat * (m.bpp.toNat * 2 / 8 + 1) < 2 ^ 32
  even : 2 ∣ m.width.toNat * m.height.toNat * (m.bpp.toNat * 2 / 8 + 1)

/-- A text mode has a buffer that fits; others need none. -/
def BtVidmode.Fits (m : BtVidmode) : Prop := m.textmode = true → m.TextFits

instance (m : BtVidmode) : Decidable m.TextFits :=
  decidable_of_iff
    (0 < m.width.toNat ∧ 0 < m.height.toNat ∧ 4 ≤ m.bpp.toNat ∧ m.bpp.toNat < 2 ^ 31 ∧
      m.width.toNat * m.height.toNat * (m.bpp.toNat * 2 / 8 + 1) < 2 ^ 32 ∧
      2 ∣ m.width.toNat * m.height.toNat * (m.bpp.toNat * 2 / 8 + 1))
    ⟨fun ⟨hw, hh, hb, hb', hs, he⟩ => ⟨hw, hh, hb, hb', hs, he⟩,
      fun ⟨hw, hh, hb, hb', hs, he⟩ => ⟨hw, hh, hb, hb', hs, he⟩⟩

instance (m : BtVidmode) : Decidable m.Fits := inferInstanceAs (Decidable (_ → _))

/-- The position is on the screen. -/
def BtVidmode.Shows (m : BtVidmode) (pos : UInt32) : Prop :=
  if m.textmode then pos.toNat ≤ m.width.toNat * m.height.toNat
  else if 8 < m.bpp.toNat then
    m.width.toNat * m.height.toNat * (m.bpp.toNat / 8) < 2 ^ 32 ∧
      pos.toNat ≤ m.width.toNat * m.height.toNat * (m.bpp.toNat / 8)
  else
    m.width.toNat * m.height.toNat < 2 ^ 32 ∧
      pos.toNat ≤ m.width.toNat * m.height.toNat / (8 / m.bpp.toNat)

variable {m : BtVidmode}

/-- The size of the buffer of a text mode that fits. -/
lemma BtVidmode.TextFits.toNat_size (h : m.TextFits) :
    (m.width * m.height * (m.bpp * 2 / 8 + 1)).toNat =
      m.width.toNat * m.height.toNat * (m.bpp.toNat * 2 / 8 + 1) := by
  have hbpp := h.bpp_lt
  have hcells : (m.bpp * 2 / 8 + 1).toNat = m.bpp.toNat * 2 / 8 + 1 := by
    have hdouble : (m.bpp * 2).toNat = m.bpp.toNat * 2 := by
      rw [UInt32.toNat_mul]
      exact Nat.mod_eq_of_lt (by omega : m.bpp.toNat * 2 < 2 ^ 32)
    rw [UInt32.toNat_add, UInt32.toNat_div, hdouble]
    exact Nat.mod_eq_of_lt (by omega : m.bpp.toNat * 2 / 8 + 1 < 2 ^ 32)
  rw [UInt32.toNat_mul, UInt32.toNat_mul, hcells, Nat.mod_mul_mod, Nat.mod_eq_of_lt h.size_lt]

namespace Vterm

/-- A new terminal, in a mode of the backend that fits. -/
def Created (t : Vterm) : Prop :=
  ∃ id junk colours vidmode content, vidmode.Fits ∧ (∀ c ∈ content, vidmode.Shows c.2) ∧
    (construct id junk colours).sync vidmode content = some t

/-- The buffer of a text mode. -/
structure Lines (t : Vterm) : Prop where
  width_pos : 0 < t.vidmode.width.toNat
  height_pos : 0 < t.vidmode.height.toNat
  screen_le : t.vidmode.height.toNat * (t.vidmode.width.toNat * 2) ≤ t.bufsize.toNat
  even_size : 2 ∣ t.bufsize.toNat
  even_pos : 2 ∣ t.bufpos.toNat

/-- The terminal is inside of its buffer. -/
structure Inside (t : Vterm) : Prop where
  overrun_eq : t.overrun = false
  pos_le : t.bufpos.toNat ≤ t.bufsize.toNat
  lines : t.vidmode.textmode = true → t.Lines

/-- A character can be put. -/
structure Ready (t : Vterm) : Prop extends Inside t where
  pos_lt : t.vidmode.textmode = true → t.bufpos.toNat < t.bufsize.toNat

variable {t t' : Vterm}

/-! ## Accesses -/

lemma touch_eq {i : UInt32} (hi : i.toNat < t.bufsize.toNat) : t.touch i = t := by
  have hlt : ¬ t.bufsize ≤ i := by
    rw [UInt32.le_iff_toNat_le]
    omega
  rw [touch, decide_eq_false hlt, Bool.or_false]

lemma store_eq {i : UInt32} (hi : i.toNat < t.bufsize.toNat) (v : UInt8) :
    t.store i v = { t with buffer := Function.update t.buffer i v } := by
  rw [store, touch_eq hi]

lemma touchRange_eq {pos size : UInt32} (h : pos.toNat + size.toNat ≤ t.bufsize.toNat) :
    t.touchRange pos size = t := by
  have hle : ¬ (0 < size.toNat ∧ t.bufsize.toNat < pos.toNat + size.toNat) := by omega
  rw [touchRange, decide_eq_false hle, Bool.or_false]

/-- Only the contents of the buffer have changed. -/
def SameButBuffer (t t' : Vterm) : Prop := ∃ buffer, t' = { t with buffer := buffer }

lemma SameButBuffer.refl (t : Vterm) : SameButBuffer t t := ⟨t.buffer, rfl⟩

lemma SameButBuffer.store (h : SameButBuffer t t') {i : UInt32}
    (hi : i.toNat < t.bufsize.toNat) (v : UInt8) : SameButBuffer t (t'.store i v) := by
  obtain ⟨b, rfl⟩ := h
  exact ⟨_, store_eq (t := { t with buffer := b }) hi v⟩

/-! ## Scrolling -/

lemma cell_lt {line height y x : ℕ} (hy : y < height) (hx : x < line) :
    y * line + x < height * line :=
  calc y * line + x < y * line + line := Nat.add_lt_add_left hx _
    _ = (y + 1) * line := (Nat.succ_mul y line).symm
    _ ≤ height * line := Nat.mul_le_mul_right line hy

lemma toNat_index {y line x : UInt32} (h : y.toNat * line.toNat + x.toNat < 2 ^ 32) :
    (y * line + x).toNat = y.toNat * line.toNat + x.toNat := by
  rw [UInt32.toNat_add, UInt32.toNat_mul, Nat.mod_add_mod, Nat.mod_eq_of_lt h]

namespace Lines

lemma of_eq (h : t.Lines) (hmode : t'.vidmode = t.vidmode) (hsize : t'.bufsize = t.bufsize)
    (heven : 2 ∣ t'.bufpos.toNat) : t'.Lines where
  width_pos := hmode ▸ h.width_pos
  height_pos := hmode ▸ h.height_pos
  screen_le := by
    rw [hmode, hsize]
    exact h.screen_le
  even_size := hsize ▸ h.even_size
  even_pos := heven

lemma line_le (h : t.Lines) : t.vidmode.width.toNat * 2 ≤ t.bufsize.toNat :=
  (Nat.le_mul_of_pos_left _ h.height_pos).trans h.screen_le

lemma toNat_line (h : t.Lines) : (t.vidmode.width * 2).toNat = t.vidmode.width.toNat * 2 := by
  have hle := h.line_le
  have hlt := t.bufsize.toNat_lt
  rw [UInt32.toNat_mul]
  exact Nat.mod_eq_of_lt (hle.trans_lt hlt)

lemma index_lt (h : t.Lines) {y x : UInt32} (hy : y.toNat < t.vidmode.height.toNat)
    (hx : x.toNat < t.vidmode.width.toNat * 2) :
    (y * (t.vidmode.width * 2) + x).toNat < t.bufsize.toNat := by
  have hcell := (cell_lt hy hx).trans_le h.screen_le
  rw [toNat_index] <;> rw [h.toNat_line]
  · exact hcell
  · exact hcell.trans t.bufsize.toNat_lt

end Lines

lemma factor_eq (htext : t.vidmode.textmode = true) : t.factor = 2 := by
  rw [factor, htext]
  rfl

lemma SameButBuffer.scrollCell (h : SameButBuffer t t') (hlines : t.Lines)
    (htext : t.vidmode.textmode = true) {start y x : UInt32} (hstart : start < y)
    (hy : y.toNat < t.vidmode.height.toNat) (hx : x.toNat < t.vidmode.width.toNat * 2) :
    SameButBuffer t (t'.scrollCell start y x) := by
  have hpred : (y - 1).toNat < t.vidmode.height.toNat := by
    have hone : (1 : UInt32) ≤ y := by
      rw [UInt32.lt_iff_toNat_lt] at hstart
      rw [UInt32.le_iff_toNat_le, UInt32.toNat_one]
      omega
    rw [UInt32.toNat_sub_of_le _ _ hone]
    omega
  have hsource := hlines.index_lt hy hx
  have hdest := hlines.index_lt hpred hx
  have hfactor := factor_eq htext
  obtain ⟨b, rfl⟩ := h
  unfold Vterm.scrollCell
  dsimp only
  rw [if_pos hstart, touch_eq]
  swap
  · exact hfactor ▸ hsource
  split
  · exact (((SameButBuffer.store ⟨b, rfl⟩ (hfactor ▸ hdest) _).store (hfactor ▸ hsource) _).store
      (hfactor ▸ hsource) _)
  · exact (SameButBuffer.store ⟨b, rfl⟩ (hfactor ▸ hdest) _).store (hfactor ▸ hsource) _

section

variable (hlines : t.Lines) (htext : t.vidmode.textmode = true)
include hlines htext

/-- The cells that are moved are those of the screen. -/
lemma mem_scrollIndices {start : ℕ} {i : UInt32 × UInt32} (hi : i ∈ t.scrollIndices start) :
    UInt32.ofNat start < i.1 ∧ i.1.toNat < t.vidmode.height.toNat ∧
      i.2.toNat < t.vidmode.width.toNat * 2 := by
  have hheight := t.vidmode.height.toNat_lt
  have hline := hlines.line_le
  have hsize := t.bufsize.toNat_lt
  rw [scrollIndices, mem_flatMap] at hi
  obtain ⟨y, hy, hi⟩ := hi
  obtain ⟨x, hx, rfl⟩ := mem_map.mp hi
  rw [mem_range'_1] at hy
  rw [mem_range, factor_eq htext, hlines.toNat_line] at hx
  have hstart32 : start < 2 ^ 32 := by omega
  have hy32 : y < 2 ^ 32 := by omega
  have hx32 : x < 2 ^ 32 := by omega
  rw [UInt32.lt_iff_toNat_lt, UInt32.toNat_ofNat_of_lt' hy32, UInt32.toNat_ofNat_of_lt' hx32,
    UInt32.toNat_ofNat_of_lt' hstart32]
  omega

/-- `scroll` moves the contents and goes to the last line. -/
lemma exists_scroll_eq :
    ∃ buffer, t.scroll =
      { t with
        buffer := buffer
        bufpos := (t.vidmode.height - 1) * t.vidmode.width * 2
        scrollcount := t.scrollcount + 1 } := by
  have hfold : ∀ (start : ℕ) (l : List (UInt32 × UInt32)), (∀ i ∈ l, i ∈ t.scrollIndices start) →
      ∀ t', SameButBuffer t t' →
        SameButBuffer t (l.foldl (fun t i => t.scrollCell (.ofNat start) i.1 i.2) t') := by
    intro start l hl
    induction l with
    | nil => exact fun _ h => h
    | cons i l ih =>
      intro t' h
      rw [forall_mem_cons] at hl
      obtain ⟨hstart, hy, hx⟩ := mem_scrollIndices hlines htext hl.1
      exact ih hl.2 _ (h.scrollCell hlines htext hstart hy hx)
  have hmoved : ∀ start, SameButBuffer t (if t.scrolling then
      (t.scrollIndices start).foldl (fun t i => t.scrollCell (.ofNat start) i.1 i.2) t else t) := by
    intro start
    split
    · exact hfold start _ (fun _ hi => hi) t (.refl t)
    · exact .refl t
  obtain ⟨b, hb⟩ := hmoved (if t.infoline then 1 else 0)
  refine ⟨b, ?_⟩
  unfold scroll
  dsimp only
  rw [hb, factor_eq htext]

/-- After scrolling there is a line for the next character. -/
lemma ready_scroll (hover : t.overrun = false) : Ready t.scroll := by
  obtain ⟨b, hb⟩ := exists_scroll_eq hlines htext
  have hone : (1 : UInt32) ≤ t.vidmode.height := by
    rw [UInt32.le_iff_toNat_le]
    exact hlines.height_pos
  have hsize := t.bufsize.toNat_lt
  have hscreen := hlines.screen_le
  have hwidth := hlines.width_pos
  -- The last line begins one line in front of the end of the screen.
  have hlast : (t.vidmode.height.toNat - 1) * t.vidmode.width.toNat * 2 +
      t.vidmode.width.toNat * 2 = t.vidmode.height.toNat * (t.vidmode.width.toNat * 2) := by
    rw [Nat.mul_assoc, ← Nat.succ_mul, Nat.succ_eq_add_one, Nat.sub_add_cancel hlines.height_pos]
  have hpos : ((t.vidmode.height - 1) * t.vidmode.width * 2).toNat =
      (t.vidmode.height.toNat - 1) * t.vidmode.width.toNat * 2 := by
    rw [UInt32.toNat_mul, UInt32.toNat_mul, UInt32.toNat_sub_of_le _ _ hone, UInt32.toNat_one,
      Nat.mod_mul_mod]
    refine Nat.mod_eq_of_lt (lt_of_le_of_lt ?_ hsize)
    show (t.vidmode.height.toNat - 1) * t.vidmode.width.toNat * 2 ≤ t.bufsize.toNat
    omega
  rw [hb]
  refine ⟨⟨hover, ?_, fun _ => hlines.of_eq rfl rfl ?_⟩, fun _ => ?_⟩
  · show UInt32.toNat _ ≤ _
    rw [hpos]
    dsimp only
    omega
  · show 2 ∣ UInt32.toNat _
    rw [hpos]
    exact Nat.dvd_mul_left 2 _
  · show UInt32.toNat _ < _
    rw [hpos]
    dsimp only
    omega

end

/-! ## Characters -/

lemma two_dvd_toNat_mul {a b : UInt32} (hb : 2 ∣ b.toNat) : 2 ∣ (a * b).toNat := by
  rw [UInt32.toNat_mul]
  exact (Nat.dvd_mod_iff (by norm_num)).mpr (Dvd.dvd.mul_left hb _)

variable {c : Char}

/-- A character that moves the position leaves the buffer as it has to be. -/
lemma Inside.advance (h : t.Inside) (htext : t.vidmode.textmode = true)
    (hc : c ≠ '\n' → c ≠ '\x08' → t.bufpos.toNat < t.bufsize.toNat) (ht' : t.advance c = some t') :
    t'.Lines ∧ t'.vidmode.textmode = true ∧ t'.overrun = false := by
  have hlines := h.lines htext
  have hsize := t.bufsize.toNat_lt
  have heven := hlines.even_pos
  have heven' := hlines.even_size
  have hle := h.pos_le
  unfold Vterm.advance at ht'
  dsimp only at ht'
  split at ht'
  · -- A new line: the position becomes a multiple of the length of a line.
    split at ht'
    · cases ht'
    · cases ht'
      have hevenLine : 2 ∣ ((t.bufpos / (t.vidmode.width * 2) + 1) * (t.vidmode.width * 2)).toNat :=
        two_dvd_toNat_mul (hlines.toNat_line ▸ Nat.dvd_mul_left 2 _)
      exact ⟨hlines.of_eq rfl rfl hevenLine, htext, h.overrun_eq⟩
  · rename_i hnewline
    split at ht'
    · split at ht'
      · -- A backspace: the character in front is blanked.
        rename_i htwo
        have hback : (t.bufpos - 2).toNat = t.bufpos.toNat - 2 := UInt32.toNat_sub_of_le _ _ htwo
        rw [ge_iff_le, UInt32.le_iff_toNat_le] at htwo
        have htwo : 2 ≤ t.bufpos.toNat := htwo
        have hnext : (t.bufpos - 2 + 1).toNat = t.bufpos.toNat - 1 := by
          rw [UInt32.toNat_add, hback, UInt32.toNat_one, Nat.mod_eq_of_lt (by omega)]
          omega
        obtain ⟨b, hb⟩ := ((SameButBuffer.refl t).store (by omega : (t.bufpos - 2).toNat < _)
          ' '.toUInt8).store (by omega : (t.bufpos - 2 + 1).toNat < _) t.textcolour
        rw [hb] at ht'
        cases ht'
        have hevenBack : 2 ∣ (t.bufpos - 2).toNat := by omega
        exact ⟨hlines.of_eq rfl rfl hevenBack, htext, h.overrun_eq⟩
      · cases ht'
        exact ⟨hlines, htext, h.overrun_eq⟩
    · -- Two bytes are written in front of the end, which is even.
      rename_i hbackspace
      have hlt := hc hnewline hbackspace
      have hnext : (t.bufpos + 1).toNat = t.bufpos.toNat + 1 := by
        rw [UInt32.toNat_add, UInt32.toNat_one, Nat.mod_eq_of_lt (by omega)]
      have hafter : (t.bufpos + 2).toNat = t.bufpos.toNat + 2 := by
        rw [UInt32.toNat_add]
        exact Nat.mod_eq_of_lt (by omega : t.bufpos.toNat + 2 < 2 ^ 32)
      obtain ⟨b, hb⟩ := ((SameButBuffer.refl t).store hlt c.toUInt8).store
        (by omega : (t.bufpos + 1).toNat < _) t.textcolour
      rw [hb] at ht'
      cases ht'
      have hevenAfter : 2 ∣ (t.bufpos + 2).toNat := by omega
      exact ⟨hlines.of_eq rfl rfl hevenAfter, htext, h.overrun_eq⟩

/-- After a character another one can be put. -/
lemma Inside.putchar (h : t.Inside)
    (hc : t.vidmode.textmode = true → c ≠ '\n' → c ≠ '\x08' → t.bufpos.toNat < t.bufsize.toNat)
    (ht' : t.putchar c = some t') : t'.Ready := by
  unfold Vterm.putchar at ht'
  cases htext : t.vidmode.textmode with
  | false =>
    rw [htext] at ht'
    cases ht'
    exact ⟨h, fun ht => absurd (htext.symm.trans ht) Bool.false_ne_true⟩
  | true =>
    rw [htext] at ht'
    obtain ⟨t1, ht1, rfl⟩ := map_eq_some_iff.mp ht'
    obtain ⟨hlines, htext1, hover⟩ := h.advance htext (hc htext) ht1
    split
    · exact ready_scroll hlines htext1 hover
    · rename_i hlt
      rw [ge_iff_le, UInt32.le_iff_toNat_le, not_le] at hlt
      exact ⟨⟨hover, hlt.le, fun _ => hlines⟩, fun _ => hlt⟩

lemma Ready.putchar (h : t.Ready) (ht' : t.putchar c = some t') : t'.Ready :=
  h.toInside.putchar (fun htext _ _ => h.pos_lt htext) ht'

lemma Ready.putstring (h : t.Ready) {s : Str} (ht' : t.putstring s = some t') : t'.Ready := by
  induction s generalizing t with
  | nil =>
    cases ht'
    exact h
  | cons c s ih =>
    rw [Vterm.putstring, foldlM_cons] at ht'
    obtain ⟨t1, ht1, hrest⟩ := bind_eq_some_iff.mp ht'
    exact ih (h.putchar ht1) hrest

/-! ## Positions -/

lemma Inside.of_eq (h : t.Inside) (hover : t'.overrun = t.overrun) (hpos : t'.bufpos = t.bufpos)
    (hsize : t'.bufsize = t.bufsize) (hmode : t'.vidmode = t.vidmode) : t'.Inside := by
  refine ⟨hover.trans h.overrun_eq, by rw [hpos, hsize]; exact h.pos_le, fun htext => ?_⟩
  have hlines := h.lines (hmode ▸ htext)
  exact hlines.of_eq hmode hsize (hpos ▸ hlines.even_pos)

lemma Inside.setcolours (h : t.Inside) (c : UInt8) : (t.setcolours c).Inside :=
  h.of_eq rfl rfl rfl rfl

lemma Inside.move (h : t.Inside) {pos : UInt32} (hle : pos.toNat ≤ t.bufsize.toNat)
    (heven : t.vidmode.textmode = true → 2 ∣ pos.toNat) : Inside { t with bufpos := pos } :=
  ⟨h.overrun_eq, hle, fun htext => (h.lines htext).of_eq rfl rfl (heven htext)⟩

lemma two_dvd_seekTarget (hlines : t.Lines) (htext : t.vidmode.textmode = true)
    (pos flags : UInt32) : 2 ∣ (t.seekTarget pos flags).toNat := by
  have heven := hlines.even_pos
  have heven' := hlines.even_size
  have hmul : 2 ∣ (pos * 2).toNat := two_dvd_toNat_mul (by decide)
  unfold seekTarget Filesystems.seekTarget
  rw [factor_eq htext]
  split
  · rw [UInt32.toNat_add]
    omega
  · split
    · rw [UInt32.toNat_sub]
      omega
    · split
      · rw [UInt32.toNat_sub]
        omega
      · exact hmul

lemma Inside.seek (h : t.Inside) (pos flags : UInt32) : (t.seek pos flags).Inside := by
  unfold Vterm.seek
  dsimp only
  split
  · exact h.move le_rfl fun htext => (h.lines htext).even_size
  · rename_i hle
    rw [gt_iff_lt, UInt32.lt_iff_toNat_lt, not_lt] at hle
    exact h.move hle fun htext => two_dvd_seekTarget (h.lines htext) htext pos flags

lemma bufpos_seek_zero (t : Vterm) : (t.seek 0 fsSet).bufpos = 0 := by
  have htarget : t.seekTarget 0 fsSet = 0 :=
    (Whence.seekTarget_flags _ _ _ .set).trans UInt32.zero_mul
  have hzero : ¬ (0 : UInt32) > t.bufsize := by
    rw [gt_iff_lt, UInt32.lt_iff_toNat_lt]
    exact Nat.not_lt_zero _
  unfold Vterm.seek
  rw [htarget]
  dsimp only
  rw [if_neg hzero]

lemma Inside.ready_of_zero (h : t.Inside) (hzero : t.bufpos = 0) : t.Ready := by
  refine ⟨h, fun htext => ?_⟩
  have hlines := h.lines htext
  have hle := hlines.line_le
  have hwidth := hlines.width_pos
  rw [hzero, UInt32.toNat_zero]
  omega

lemma Inside.doInfoline (h : t.Inside) (ht' : t.doInfoline = some t') : t'.Inside := by
  unfold Vterm.doInfoline at ht'
  split at ht'
  · obtain ⟨line, hline, hrest⟩ := bind_eq_some_iff.mp ht'
    have hstart : ((t.seek 0 fsRelative).seek 0 fsSet).Ready :=
      ((h.seek 0 fsRelative).seek 0 fsSet).ready_of_zero (bufpos_seek_zero _)
    have hready : Ready (((t.seek 0 fsRelative).seek 0 fsSet).setcolours 0x1F) :=
      ⟨hstart.toInside.setcolours _, hstart.pos_lt⟩
    have hback := ((hready.putstring hline).toInside.setcolours t.backendColours).seek
      (t.seek 0 fsRelative).position fsSet
    dsimp only at hrest
    split at hrest
    · exact (hback.putchar (fun _ hne => absurd rfl hne) hrest).toInside
    · cases hrest
      exact hback
  · cases ht'
    exact h

/-! ## Buffers -/

/-- The buffer is as its mode needs it; the position may be anywhere. -/
structure Allocated (t : Vterm) : Prop where
  overrun_eq : t.overrun = false
  lines : t.vidmode.textmode = true → Lines { t with bufpos := 0 }

lemma Inside.allocated (h : t.Inside) : t.Allocated where
  overrun_eq := h.overrun_eq
  lines htext := (h.lines htext).of_eq rfl rfl (Nat.dvd_zero 2)

lemma touchRange_bufsize (t : Vterm) : t.touchRange 0 t.bufsize = t :=
  touchRange_eq (by rw [UInt32.toNat_zero, Nat.zero_add])

lemma Allocated.clearBuffer (h : t.Allocated) : t.clearBuffer.Inside := by
  unfold Vterm.clearBuffer
  rw [touchRange_bufsize]
  exact ⟨h.overrun_eq, Nat.zero_le _, fun htext => (h.lines htext).of_eq rfl rfl (Nat.dvd_zero 2)⟩

/-- A mode that fits gets the buffer that it needs. -/
lemma allocated_allocateBuffer (hm : m.Fits) (hover : t.overrun = false)
    (ht' : allocateBuffer { t with vidmode := m } = some t') : t'.Allocated := by
  unfold allocateBuffer at ht'
  dsimp only at ht'
  cases htext : m.textmode with
  | true =>
    have hfits := hm htext
    have hbpp := hfits.four_le_bpp
    rw [htext, if_pos rfl] at ht'
    cases ht'
    refine ⟨hover, fun _ => ⟨hfits.width_pos, hfits.height_pos, ?_, ?_, Nat.dvd_zero 2⟩⟩
    · show _ ≤ UInt32.toNat _
      rw [hfits.toNat_size]
      calc m.height.toNat * (m.width.toNat * 2) = m.width.toNat * m.height.toNat * 2 := by ring
        _ ≤ m.width.toNat * m.height.toNat * (m.bpp.toNat * 2 / 8 + 1) :=
          Nat.mul_le_mul_left _ (by omega)
    · show 2 ∣ UInt32.toNat _
      rw [hfits.toNat_size]
      exact hfits.even
  | false =>
    -- Without lines there is nothing to show but the flag.
    have hlines : ∀ {size : UInt32} {t1 : Vterm},
        some { t with vidmode := m, bufsize := size } = some t1 → t1.Allocated := by
      rintro size t1 h
      cases h
      exact ⟨hover, fun ht => absurd (htext.symm.trans ht) Bool.false_ne_true⟩
    rw [htext, if_neg Bool.false_ne_true] at ht'
    split at ht'
    · exact hlines ht'
    · split at ht'
      · cases ht'
      · exact hlines ht'

lemma Inside.startLines (h : t.Inside) (ht' : t.startLines = some t') : t'.Inside := by
  obtain ⟨t1, ht1, hrest⟩ := bind_eq_some_iff.mp ht'
  have hready := h.putchar (fun _ hne => absurd rfl hne) ht1
  exact hready.toInside.doInfoline hrest

lemma Inside.ioctl (h : t.Inside) {fn : Ioctl} (hfn : ∀ m, fn = .setScreenMode m → m.Fits)
    (ht' : t.ioctl fn = some t') : t'.Inside := by
  cases fn with
  | setTitle title =>
    have htitle : Inside { t with title := title } := h.of_eq rfl rfl rfl rfl
    exact htitle.doInfoline ht'
  | clearScreen =>
    have hcleared := h.allocated.clearBuffer.seek 0 fsSet
    unfold Vterm.ioctl at ht'
    dsimp only at ht'
    split at ht'
    · exact hcleared.startLines ht'
    · cases ht'
      exact hcleared
  | setScreenMode m =>
    obtain ⟨t1, ht1, hrest⟩ := bind_eq_some_iff.mp ht'
    have hallocated := allocated_allocateBuffer (hfn m rfl) h.overrun_eq ht1
    dsimp only at hrest
    split at hrest
    · exact hallocated.clearBuffer.startLines hrest
    · cases hrest
      exact hallocated.clearBuffer
  | setEcho echo | setInfoLine infoline | setTextColours c | setScrolling scrolling =>
    cases ht'
    exact h.of_eq rfl rfl rfl rfl

/-! ## Transfers -/

variable {size : UInt32}

lemma add_clampSize (hle : t.bufpos.toNat ≤ t.bufsize.toNat)
    (hsize : t.bufpos.toNat + size.toNat < 2 ^ 32) :
    t.bufpos.toNat + (t.clampSize size).toNat =
      min (t.bufpos.toNat + size.toNat) t.bufsize.toNat := by
  have hsum : (t.bufpos + size).toNat = t.bufpos.toNat + size.toNat := by
    rw [UInt32.toNat_add, Nat.mod_eq_of_lt hsize]
  unfold clampSize
  split
  · rename_i hgt
    rw [gt_iff_lt, UInt32.lt_iff_toNat_lt, hsum] at hgt
    rw [UInt32.toNat_sub_of_le _ _ (UInt32.le_iff_toNat_le.mpr hle)]
    omega
  · rename_i hgt
    rw [gt_iff_lt, UInt32.lt_iff_toNat_lt, hsum] at hgt
    omega

lemma toNat_add_clampSize (hle : t.bufpos.toNat ≤ t.bufsize.toNat)
    (hsize : t.bufpos.toNat + size.toNat < 2 ^ 32) :
    (t.bufpos + t.clampSize size).toNat = min (t.bufpos.toNat + size.toNat) t.bufsize.toNat := by
  have hadd := add_clampSize hle hsize
  rw [UInt32.toNat_add, hadd]
  exact Nat.mod_eq_of_lt (by omega)

lemma Inside.write (h : t.Inside) {buf : UInt32 → Char}
    (hsize : t.vidmode.textmode = true ∧ t.bufpos.toNat < t.bufsize.toNat ∨
      t.bufpos.toNat + size.toNat < 2 ^ 32) (ht' : t.write size buf = some t') : t'.Inside := by
  unfold Vterm.write at ht'
  dsimp only at ht'
  cases htext : t.vidmode.textmode with
  | true =>
    rw [if_pos htext] at ht'
    obtain ⟨t1, ht1, hrest⟩ := bind_eq_some_iff.mp ht'
    have hwritten : t1.Inside := by
      by_cases hlt : t.bufpos.toNat < t.bufsize.toNat
      · exact (Ready.putstring ⟨h, fun _ => hlt⟩ ht1).toInside
      · -- At the end of the buffer nothing is left of the text.
        have hadd := add_clampSize h.pos_le (hsize.resolve_left fun hr => hlt hr.2)
        have hnone : (t.clampSize size).toNat = 0 := by
          omega
        rw [hnone] at ht1
        cases ht1
        exact h
    split at hrest
    · cases hrest
      exact hwritten
    · exact hwritten.doInfoline hrest
  | false =>
    have hsize := hsize.resolve_left fun hr => Bool.false_ne_true (htext.symm.trans hr.1)
    have hadd := add_clampSize h.pos_le hsize
    have hpos := toNat_add_clampSize h.pos_le hsize
    rw [if_neg (ne_true_of_eq_false htext)] at ht'
    rw [touchRange_eq (by omega)] at ht'
    have hmoved : Inside { t with bufpos := t.bufpos + t.clampSize size } :=
      h.move (by omega) fun ht => absurd (htext.symm.trans ht) Bool.false_ne_true
    refine Inside.doInfoline ?_ ht'
    split
    · exact hmoved
    · exact hmoved.of_eq rfl rfl rfl rfl

lemma Inside.readChar (h : t.Inside) {i : ℕ}
    (hc : t.vidmode.textmode = true → t.echo = true → c ≠ '\n' → c ≠ '\x08' →
      t.bufpos.toNat < t.bufsize.toNat) (ht' : t.readChar i c = some t') : t'.Inside := by
  unfold Vterm.readChar at ht'
  split at ht'
  · rename_i hnewline
    obtain ⟨t1, ht1, hrest⟩ := bind_eq_some_iff.mp ht'
    have hechoed : t1.Inside := by
      split at ht1
      · exact (h.putchar (fun _ hne => absurd hnewline hne) ht1).toInside
      · cases ht1
        exact h
    split at hrest
    · exact hechoed.doInfoline hrest
    · cases hrest
      exact hechoed
  · split at ht'
    · rename_i hecho
      have hecho : t.echo = true := (Bool.and_eq_true_iff.mp hecho).1
      exact (h.putchar (fun htext => hc htext hecho) ht').toInside
    · cases ht'
      exact h

lemma Inside.readVideo (h : t.Inside) (hsize : t.bufpos.toNat + size.toNat < 2 ^ 32)
    (heven : t.vidmode.textmode = true →
      2 ∣ size.toNat ∨ t.bufsize.toNat ≤ t.bufpos.toNat + size.toNat) :
    (t.readVideo size).Inside := by
  have hadd := add_clampSize h.pos_le hsize
  have hpos := toNat_add_clampSize h.pos_le hsize
  have hmoved : Inside { t with bufpos := t.bufpos + t.clampSize size } := by
    refine h.move (by omega) fun htext => ?_
    have hevenPos := (h.lines htext).even_pos
    have hevenSize := (h.lines htext).even_size
    rw [hpos]
    rcases heven htext with hdvd | hle <;> omega
  unfold Vterm.readVideo
  dsimp only
  rw [touchRange_eq (by omega)]
  split
  · exact hmoved
  · exact hmoved

lemma Inside.activate (h : t.Inside) (ht' : t.activate = some t') : t'.Inside := by
  unfold Vterm.activate at ht'
  rw [touchRange_bufsize] at ht'
  obtain ⟨lined, hlined, hrest⟩ := bind_eq_some_iff.mp ht'
  have hlines : lined.Inside := by
    refine Inside.doInfoline ?_ hlined
    split
    · exact h.of_eq rfl rfl rfl rfl
    · exact h.of_eq rfl rfl rfl rfl
  split at hrest
  · exact (hlines.putchar (fun _ hne => absurd rfl hne) hrest).toInside
  · cases hrest
    exact hlines

lemma Inside.deactivate (h : t.Inside) (screen : UInt32 → UInt8) :
    (t.deactivate screen).Inside := by
  unfold Vterm.deactivate
  rw [touchRange_bufsize]
  split
  · split
    · exact h.of_eq rfl rfl rfl rfl
    · exact h.of_eq rfl rfl rfl rfl
  · exact h

/-! ## Runs -/

/-- A position on the screen is in the buffer. -/
lemma shows_allocateBuffer (hm : m.Fits) {pos : UInt32} (hpos : m.Shows pos)
    (ht' : allocateBuffer { t with vidmode := m } = some t') :
    (pos * t'.factor).toNat ≤ t'.bufsize.toNat ∧
      (t'.vidmode.textmode = true → 2 ∣ (pos * t'.factor).toNat) := by
  unfold BtVidmode.Shows at hpos
  unfold allocateBuffer at ht'
  dsimp only at ht'
  cases htext : m.textmode with
  | true =>
    have hfits := hm htext
    have hsize := hfits.size_lt
    have hcells : 2 ≤ m.bpp.toNat * 2 / 8 + 1 := by
      have hbpp := hfits.four_le_bpp
      omega
    -- a character and its colour take two bytes, and there are at least as many for a cell
    have hroom := Nat.mul_le_mul_left (m.width.toNat * m.height.toNat) hcells
    rw [if_pos htext] at hpos ht'
    cases ht'
    have hdouble : (pos * 2).toNat = pos.toNat * 2 := by
      rw [UInt32.toNat_mul]
      exact Nat.mod_eq_of_lt (by omega : pos.toNat * 2 < 2 ^ 32)
    rw [factor_eq htext, hdouble]
    refine ⟨?_, fun _ => Nat.dvd_mul_left 2 _⟩
    rw [hfits.toNat_size]
    omega
  | false =>
    rw [if_neg (ne_true_of_eq_false htext)] at hpos ht'
    have hno : ∀ {p : Prop}, m.textmode = true → p := fun ht =>
      absurd (htext.symm.trans ht) Bool.false_ne_true
    -- in a graphics mode positions are bytes
    have hone : ∀ {t1 : Vterm}, t1.vidmode = m → pos * t1.factor = pos := by
      intro t1 hmode
      rw [factor, hmode, htext]
      exact UInt32.mul_one pos
    split at ht'
    -- bytes in a pixel, or pixels in a byte
    · rename_i hbpp
      have hlt : 8 < m.bpp.toNat := UInt32.lt_iff_toNat_lt.mp hbpp
      rw [if_pos hlt] at hpos
      cases ht'
      rw [hone rfl]
      refine ⟨?_, hno⟩
      rw [UInt32.toNat_mul, UInt32.toNat_mul, UInt32.toNat_div, Nat.mod_mul_mod]
      exact hpos.2.trans_eq (Nat.mod_eq_of_lt hpos.1).symm
    · rename_i hbpp
      have hge : ¬ 8 < m.bpp.toNat := fun hlt => hbpp (UInt32.lt_iff_toNat_lt.mpr hlt)
      rw [if_neg hge] at hpos
      split at ht'
      · cases ht'
      · cases ht'
        rw [hone rfl]
        refine ⟨?_, hno⟩
        rw [UInt32.toNat_div, UInt32.toNat_mul, UInt32.toNat_div, Nat.mod_eq_of_lt hpos.1]
        exact hpos.2

lemma Created.inside (h : t.Created) : t.Inside := by
  obtain ⟨id, junk, colours, m, content, hm, hshows, hsync⟩ := h
  obtain ⟨t1, ht1, hrest⟩ := bind_eq_some_iff.mp hsync
  have hallocated := allocated_allocateBuffer hm rfl ht1
  cases content with
  | none =>
    cases hrest
    exact hallocated.clearBuffer
  | some c =>
    obtain ⟨hle, heven⟩ := shows_allocateBuffer hm (hshows _ rfl) ht1
    dsimp only at hrest
    rw [touchRange_bufsize] at hrest
    cases hrest
    exact ⟨hallocated.overrun_eq, hle,
      fun htext => (hallocated.lines htext).of_eq rfl rfl (heven htext)⟩

end Vterm

/-- A text mode has a buffer that fits, a transfer ends below 4 GiB and in a text mode after a whole
character, and a character is put in front of the end. -/
def Action.Fits (t : Vterm) : Action → Prop
  | .write size _ =>
      t.vidmode.textmode = true ∧ t.bufpos.toNat < t.bufsize.toNat ∨
        t.bufpos.toNat + size.toNat < 2 ^ 32
  | .readChar _ c =>
      t.vidmode.textmode = true → t.echo = true → c ≠ '\n' → c ≠ '\x08' →
        t.bufpos.toNat < t.bufsize.toNat
  | .readVideo size =>
      t.bufpos.toNat + size.toNat < 2 ^ 32 ∧
        (t.vidmode.textmode = true →
          2 ∣ size.toNat ∨ t.bufsize.toNat ≤ t.bufpos.toNat + size.toNat)
  | .ioctl (.setScreenMode m) => m.Fits
  | .ioctl _ | .seek _ _ | .activate | .deactivate _ => True

instance (t : Vterm) : (a : Action) → Decidable (a.Fits t)
  | .write _ _ => inferInstanceAs (Decidable (_ ∧ _ ∨ _))
  | .readChar _ _ => inferInstanceAs (Decidable (_ → _ → _ → _ → _))
  | .readVideo _ => inferInstanceAs (Decidable (_ ∧ (_ → _ ∨ _)))
  | .ioctl (.setScreenMode m) => inferInstanceAs (Decidable m.Fits)
  | .ioctl (.setTitle _) | .ioctl .clearScreen | .ioctl (.setEcho _) | .ioctl (.setInfoLine _)
  | .ioctl (.setTextColours _) | .ioctl (.setScrolling _) | .seek _ _ | .activate
  | .deactivate _ => inferInstanceAs (Decidable True)

namespace Vterm

variable {t t' : Vterm}

lemma Inside.step (h : t.Inside) {a : Action} (ha : a.Fits t)
    (hstep : (vterm Created).step t a = some t') : t'.Inside := by
  cases a with
  | write size buf => exact h.write ha hstep
  | readChar i c => exact h.readChar ha hstep
  | readVideo size =>
    cases hstep
    exact h.readVideo ha.1 ha.2
  | seek pos flags =>
    cases hstep
    exact h.seek pos flags
  | ioctl fn =>
    refine h.ioctl (fun m hm => ?_) hstep
    subst hm
    exact ha
  | activate => exact h.activate hstep
  | deactivate screen =>
    cases hstep
    exact h.deactivate screen

/-- In every run of actions that fit, every index of the buffer that was read or written is below
`bufsize`. -/
theorem inside_of_reaches (ht : (vterm Created).Reaches (fun t a => a.Fits t) t) : t.Inside :=
  ht.invariant (fun _ h => Created.inside h) fun _ _ _ h ha hstep => h.step ha hstep

/-- The text mode of the VGA driver. -/
def text80x25 : BtVidmode := ⟨80, 25, 4, true⟩

/-- A terminal in that mode, with an empty screen. -/
def blank : Vterm :=
  ((construct 1 text80x25 0x07).sync text80x25 none).getD (construct 1 text80x25 0x07)

lemma created_blank : blank.Created := by
  have hcontent : ∀ c ∈ (none : Option ((UInt32 → UInt8) × UInt32)), text80x25.Shows c.2 :=
    fun _ hc => nomatch hc
  exact ⟨1, text80x25, 0x07, text80x25, none, by decide, hcontent, rfl⟩

/-- A character at the start, and a new line at the end. -/
def echoes : List Action :=
  [.ioctl (.setScrolling false), .readChar 0 'a', .seek 0 fsBackwards, .readChar 1 '\n']

theorem inside_echoes : ∃ t, (vterm Created).Reaches (fun t a => a.Fits t) t ∧
    t.bufpos = 3840 ∧ t.Inside := by
  have hrun : (((vterm Created).guarded fun t a => a.Fits t).run blank echoes).any
      (fun t => t.bufpos = 3840) = true := by decide
  obtain ⟨t, ht, hpos⟩ := (any_eq_true _ _).mp hrun
  have hreach := System.reaches_of_run_guarded (.init created_blank) ht
  exact ⟨t, hreach, of_decide_eq_true hpos, inside_of_reaches hreach⟩

/-- After a seek to the end of the buffer, the echo of a character is written behind it. -/
theorem exists_overrun_echo : ∃ t, (vterm Created).Reachable t ∧ t.overrun = true := by
  have hrun : ((vterm Created).run blank
      [.ioctl (.setScrolling false), .seek 0 fsBackwards, .readChar 0 'a']).any
      (fun t => t.overrun) = true := by
    decide
  exact System.exists_reachable_of_run created_blank hrun

end Vterm

end Terminal
