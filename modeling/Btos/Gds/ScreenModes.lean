import Btos.Terminal.Vterm

/-!
# The choice of a screen mode

`Screen::SetMode` in `screen.cpp` goes once through the modes of the terminal and keeps one
candidate; a candidate with no bits per pixel is none.
-/

open List Option Terminal

namespace Gds

variable (w h : UInt32) (bpp : UInt8) (modes : List BtVidmode)

/-- A round of the loop. -/
def modeRound (bestmode mode : BtVidmode) : BtVidmode :=
  if mode.textmode then bestmode
  else if w ≤ mode.width ∧ h ≤ mode.height ∧ bpp.toUInt32 ≤ mode.bpp then
    if bestmode.bpp ≠ 0 ∧ mode.width ≤ bestmode.width ∧ mode.height ≤ bestmode.height ∧
      mode.bpp ≤ bestmode.bpp then mode
    -- a mode that is smaller in one and larger in another does not replace the candidate
    else if bestmode.bpp = 0 then mode else bestmode
  else bestmode

/-- `bestmode` after the loop. -/
def bestmode : BtVidmode := modes.foldl (modeRound w h bpp) ⟨0, 0, 0, false⟩

/-- The mode that `SetMode` selects. -/
def setMode : Option BtVidmode :=
  if (bestmode w h bpp modes).bpp ≠ 0 then some (bestmode w h bpp modes) else none

/-- Modes are compared by width, height and depth together. -/
instance : Preorder BtVidmode := .lift fun m => (m.width.toNat, m.height.toNat, m.bpp.toNat)

/-- A graphics mode that is at least as large as what is asked for. -/
def Suits (m : BtVidmode) : Prop :=
  m.textmode = false ∧ w ≤ m.width ∧ h ≤ m.height ∧ bpp.toUInt32 ≤ m.bpp

variable {modes}

variable {w h bpp} in
lemma modeRound_cases {b m : BtVidmode} :
    (Suits w h bpp m ∧ (b.bpp = 0 ∨ m ≤ b)) ∧ modeRound w h bpp b m = m ∨
      ¬(Suits w h bpp m ∧ (b.bpp = 0 ∨ m ≤ b)) ∧ modeRound w h bpp b m = b := by
  have hle : m ≤ b ↔ m.width ≤ b.width ∧ m.height ≤ b.height ∧ m.bpp ≤ b.bpp := .rfl
  rw [hle, Suits, modeRound]
  split_ifs <;> simp_all

/-- The candidate after any number of rounds. -/
lemma bestmode_spec (hbpp : ∀ m ∈ modes, m.bpp ≠ 0) :
    (bestmode w h bpp modes).bpp = 0 ∧ (∀ m ∈ modes, ¬Suits w h bpp m) ∨
      Minimal (fun m => m ∈ modes ∧ Suits w h bpp m) (bestmode w h bpp modes) := by
  rw [bestmode]
  induction modes using reverseRecOn with
  | nil => exact .inl ⟨rfl, by simp⟩
  | append_singleton modes m ih =>
    rw [forall_mem_append] at hbpp
    specialize ih hbpp.1
    rw [foldl_concat]
    simp only [mem_append, mem_singleton]
    generalize modes.foldl (modeRound w h bpp) _ = best at ih
    rcases modeRound_cases with ⟨⟨hm, hb⟩, heq⟩ | ⟨hm, heq⟩ <;> rw [heq]
    · refine .inr ⟨⟨.inr rfl, hm⟩, fun y hy hle => ?_⟩
      rcases ih with ⟨-, hnone⟩ | hmin
      · grind
      · -- what is below the new candidate is below the old one
        have hmb := hb.resolve_left (hbpp.1 _ hmin.1.1)
        obtain ⟨hmem | rfl, hsuits⟩ := hy
        · exact hmb.trans (hmin.2 ⟨hmem, hsuits⟩ (hle.trans hmb))
        · exact le_rfl
    · rcases ih with ⟨hb, hnone⟩ | hmin
      · grind
      · refine .inr ⟨⟨.inl hmin.1.1, hmin.1.2⟩, ?_⟩
        rintro y ⟨hmem | rfl, hsuits⟩ hle
        · exact hmin.2 ⟨hmem, hsuits⟩ hle
        · exact absurd ⟨hsuits, .inr hle⟩ hm

/-- A mode is selected if one suits, and the selected mode is minimal among those that do. -/
theorem setMode_minimal (hbpp : ∀ m ∈ modes, m.bpp ≠ 0) :
    ((setMode w h bpp modes).isSome ↔ ∃ m ∈ modes, Suits w h bpp m) ∧
      ∀ m ∈ setMode w h bpp modes, Minimal (fun m => m ∈ modes ∧ Suits w h bpp m) m := by
  rw [setMode]
  rcases bestmode_spec w h bpp hbpp with ⟨hzero, hnone⟩ | hmin
  · simpa [hzero] using hnone
  · rw [if_pos (hbpp _ hmin.1.1)]
    exact ⟨by simpa using ⟨_, hmin.1⟩, fun m hm => some.inj hm ▸ hmin⟩

/-- A text mode, and graphics modes of which three suit a request for 640 x 400 with 8 bits. -/
def someModes : List BtVidmode :=
  [⟨80, 25, 4, true⟩, ⟨800, 600, 24, false⟩, ⟨320, 200, 8, false⟩, ⟨640, 480, 8, false⟩,
    ⟨640, 480, 24, false⟩]

theorem setMode_someModes : setMode 640 400 8 someModes = some ⟨640, 480, 8, false⟩ ∧
    Minimal (fun m => m ∈ someModes ∧ Suits 640 400 8 m) ⟨640, 480, 8, false⟩ := by
  have hset : setMode 640 400 8 someModes = some ⟨640, 480, 8, false⟩ := by decide
  exact ⟨hset, (setMode_minimal 640 400 8 (by decide)).2 _ hset⟩

end Gds
