import Mathlib.Tactic

/-!
# Slots that refer to resources

Slots of any kind refer to resources, and some of the resources are free. `Owned may r` says that
what a slot refers to is not free, and that two slots refer to the same resource only where `may`
allows it.

Main results: `Owned.step`, and `Owned.release` for a step that adds nothing.
-/

namespace Ownership

variable {σ φ : Type*}

/-- The references of slots to resources, and the resources that are free. -/
structure Refs (σ φ : Type*) where
  refers : σ → φ → Prop
  free : φ → Prop

/-- No slot refers to a free resource, and slots share resources only where they may. -/
structure Owned (may : σ → σ → φ → Prop) (r : Refs σ φ) : Prop where
  used : ∀ a f, r.refers a f → ¬ r.free f
  shared : ∀ a b f, r.refers a f → r.refers b f → may a b f

variable {may may' : σ → σ → φ → Prop} {r r' : Refs σ φ}

/-- A step that adds the references in `new`. What it frees, or leaves free, has no references
afterwards. -/
lemma Owned.step (h : Owned may r) {new : σ → φ → Prop}
    (hrefs : ∀ a f, r'.refers a f → r.refers a f ∨ new a f)
    (hfree : ∀ f, r'.free f → (r.free f ∧ ∀ a, ¬ new a f) ∨ ∀ a, ¬ r'.refers a f)
    (hmay : ∀ a b f, r'.refers a f → r'.refers b f → may a b f → may' a b f)
    (hold : ∀ a b f, new a f → r.refers b f → may' a b f ∧ may' b a f)
    (hnew : ∀ a b f, new a f → new b f → may' a b f) : Owned may' r' := by
  constructor
  · intro a f ha hf
    rcases hfree f hf with ⟨hwas, hnone⟩ | hnone
    · rcases hrefs a f ha with hr | hn
      · exact h.used a f hr hwas
      · exact hnone a hn
    · exact hnone a ha
  · intro a b f ha hb
    rcases hrefs a f ha with hra | hna <;> rcases hrefs b f hb with hrb | hnb
    · exact hmay a b f ha hb (h.shared a b f hra hrb)
    · exact (hold b a f hnb hra).2
    · exact (hold a b f hna hrb).1
    · exact hnew a b f hna hnb

lemma Owned.release (h : Owned may r) (hrefs : ∀ a f, r'.refers a f → r.refers a f)
    (hfree : ∀ f, r'.free f → r.free f ∨ ∀ a, ¬ r'.refers a f)
    (hmay : ∀ a b f, r'.refers a f → r'.refers b f → may a b f → may' a b f) : Owned may' r' :=
  @Owned.step _ _ _ _ _ _ h (fun _ _ => False) (fun a f ha => .inl (hrefs a f ha))
    (fun f hf => (hfree f hf).imp_left fun hwas => ⟨hwas, fun _ => id⟩) hmay
    (fun _ _ _ => False.elim) fun _ _ _ => False.elim

end Ownership
