import Mathlib.Data.Option.Basic

/-!
# Guarded runs of a transition system

A `System` is a set of initial states and a partial, executable step function: `step s a` is
`some s'` when action `a` is possible in state `s`, and `none` otherwise.

* `System.Reaches guard s`: some run from an initial state, all of whose steps meet `guard` in
  the state they are taken in, ends in `s`; `System.Reachable` is the case without a guard.
* `Reaches.invariant`: a predicate that holds initially and is kept by every step that meets
  the guard holds in every state such a run reaches.
* `exists_reachable_of_run`, `reaches_of_run_guarded`: a run that is executed gives such a state.
* `Respects R x`: what the program `x` does to a state is in the preorder `R`, such as
  `System.Leads`. Programs are put together from parts that do (`Respects.bind`, `Respects.mapM`).
-/

open List Option

/-- Initial states and a partial step function. -/
structure System (σ α : Type*) where
  /-- The states a run may start in. -/
  init : σ → Prop
  /-- The effect of an action, `none` where the action is impossible. -/
  step : σ → α → Option σ

namespace System

variable {σ α : Type*}

/-- States reached by a run all of whose steps meet `guard` in the state they start from. -/
inductive Reaches (sys : System σ α) (guard : σ → α → Prop) : σ → Prop
  | init {s : σ} : sys.init s → Reaches sys guard s
  | step {s s' : σ} {a : α} :
      Reaches sys guard s → guard s a → sys.step s a = some s' → Reaches sys guard s'

/-- A step of such a run. -/
structure Takes (sys : System σ α) (guard : σ → α → Prop) (s : σ) (a : α) (s' : σ) : Prop where
  reaches : sys.Reaches guard s
  meets : guard s a
  step : sys.step s a = some s'

/-- States reached by any run. -/
def Reachable (sys : System σ α) (s : σ) : Prop :=
  sys.Reaches (fun _ _ => True) s

/-- The state after a list of actions, `none` as soon as one of them is impossible. -/
def run (sys : System σ α) : σ → List α → Option σ
  | s, [] => some s
  | s, a :: as => (sys.step s a).bind fun s' => sys.run s' as

variable {sys : System σ α} {guard : σ → α → Prop}

lemma Reaches.invariant {P : σ → Prop} (hinit : ∀ s, sys.init s → P s)
    (hstep : ∀ s a s', P s → guard s a → sys.step s a = some s' → P s')
    {s : σ} (h : sys.Reaches guard s) : P s := by
  induction h with
  | init hs => exact hinit _ hs
  | step _ hg hs ih => exact hstep _ _ _ ih hg hs

lemma run_cons (s : σ) (a : α) (as : List α) :
    sys.run s (a :: as) = (sys.step s a).bind fun s' => sys.run s' as := rfl

lemma run_append (s : σ) (as bs : List α) :
    sys.run s (as ++ bs) = (sys.run s as).bind fun s' => sys.run s' bs := by
  induction as generalizing s with
  | nil => rfl
  | cons a as ih =>
    rw [cons_append, run_cons, run_cons, bind_assoc]
    exact congrArg _ (funext ih)

variable {s s' : σ} {as : List α}

lemma reaches_of_run (hguard : ∀ a ∈ as, ∀ s, guard s a)
    (hs : sys.Reaches guard s) (h : sys.run s as = some s') : sys.Reaches guard s' := by
  induction as generalizing s with
  | nil =>
    rw [run, some.injEq] at h
    exact h ▸ hs
  | cons a as ih =>
    rw [run_cons, bind_eq_some_iff] at h
    obtain ⟨s1, hstep, hrun⟩ := h
    have hrest : ∀ b ∈ as, ∀ s, guard s b := fun b hb => hguard b (mem_cons_of_mem a hb)
    exact ih hrest (.step hs (hguard a mem_cons_self s) hstep) hrun

lemma reachable_of_run (hs : sys.Reachable s) (h : sys.run s as = some s') : sys.Reachable s' :=
  reaches_of_run (fun _ _ _ => trivial) hs h

/-- The system with those steps only that meet the guard. -/
def guarded (sys : System σ α) (guard : σ → α → Prop) [∀ s a, Decidable (guard s a)] :
    System σ α where
  init := sys.init
  step s a := bif decide (guard s a) then sys.step s a else none

lemma reaches_of_run_guarded [∀ s a, Decidable (guard s a)]
    (hs : sys.Reaches guard s) (h : (sys.guarded guard).run s as = some s') :
    sys.Reaches guard s' := by
  induction as generalizing s with
  | nil =>
    rw [run, some.injEq] at h
    exact h ▸ hs
  | cons a as ih =>
    rw [run_cons, bind_eq_some_iff] at h
    obtain ⟨s1, hstep, hrun⟩ := h
    have hguard : guard s a := by
      by_contra hnot
      simp [guarded, hnot] at hstep
    have hstep' : sys.step s a = some s1 := by simpa [guarded, hguard] using hstep
    exact ih (.step hs hguard hstep') hrun

/-- A run executed from an initial state to a state that passes the test `p`, with steps that meet
the guard in every state, shows that a state passing `p` is reached. -/
lemma exists_reaches_of_run {p : σ → Bool} (hguard : ∀ a ∈ as, ∀ s, guard s a) (hs : sys.init s)
    (h : (sys.run s as).any p = true) : ∃ s', sys.Reaches guard s' ∧ p s' = true := by
  rw [Option.any_eq_true] at h
  obtain ⟨s', hrun, hp⟩ := h
  exact ⟨s', reaches_of_run hguard (.init hs) hrun, hp⟩

lemma exists_reachable_of_run {p : σ → Bool} (hs : sys.init s)
    (h : (sys.run s as).any p = true) : ∃ s', sys.Reachable s' ∧ p s' = true :=
  exists_reaches_of_run (fun _ _ _ => trivial) hs h

/-! ## Programs over states -/

/-- Some run from the first state ends in the second. -/
def Leads (sys : System σ α) (s s' : σ) : Prop := ∃ as, sys.run s as = some s'

lemma Leads.trans {s s1 s2 : σ} (h : sys.Leads s s1) (h' : sys.Leads s1 s2) :
    sys.Leads s s2 := by
  obtain ⟨as, has⟩ := h
  obtain ⟨bs, hbs⟩ := h'
  exact ⟨as ++ bs, by rw [run_append, has, bind_some, hbs]⟩

instance : IsPreorder σ sys.Leads where
  refl _ := ⟨[], rfl⟩
  trans _ _ _ := .trans

lemma Leads.of_step {a : α} (h : sys.step s a = some s') : sys.Leads s s' :=
  ⟨[a], by rw [run_cons, h]; rfl⟩

lemma Leads.reachable (h : sys.Leads s s') (hs : sys.Reachable s) :
    sys.Reachable s' := by
  obtain ⟨as, has⟩ := h
  exact reachable_of_run hs has

end System

section Programs

variable {σ β γ : Type} {R : σ → σ → Prop}

/-- What the program does to a state is in the relation. -/
def Respects (R : σ → σ → Prop) (x : StateT σ Option β) : Prop :=
  ∀ s b s', x s = some (b, s') → R s s'

/-- What the program does to a state is a run of the system. -/
def System.Follows {α : Type*} (sys : System σ α) (x : StateT σ Option β) : Prop :=
  ∀ s b s', x s = some (b, s') → sys.Leads s s'

variable [IsPreorder σ R]

lemma Respects.pure (b : β) : Respects R (pure b) := by
  intro s b' s' h
  cases h
  exact refl_of R s

lemma Respects.get : Respects R get := by
  intro s b' s' h
  cases h
  exact refl_of R s

variable {f : β → StateT σ Option γ}

lemma Respects.bind {x : StateT σ Option β} (hx : Respects R x)
    (hf : ∀ b, Respects R (f b)) : Respects R (x >>= f) := by
  intro s c s' h
  obtain ⟨⟨b, s1⟩, hb, hc⟩ := bind_eq_some_iff.mp h
  exact trans_of R (hx s b s1 hb) (hf b s1 c s' hc)

lemma Respects.mapM (hf : ∀ b, Respects R (f b)) (l : List β) : Respects R (l.mapM f) := by
  induction l with
  | nil => exact .pure []
  | cons b l ih =>
    rw [mapM_cons]
    exact .bind (hf b) fun c => .bind ih fun cs => .pure (c :: cs)

lemma Respects.foldlM {f : γ → β → StateT σ Option γ} (hf : ∀ c b, Respects R (f c b)) (c : γ)
    (l : List β) : Respects R (l.foldlM f c) := by
  induction l generalizing c with
  | nil => exact .pure c
  | cons b l ih =>
    rw [foldlM_cons]
    exact .bind (hf c b) ih

end Programs
