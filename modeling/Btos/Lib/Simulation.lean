import Btos.Lib.TransitionSystem
import Mathlib.Order.RelClasses

/-!
# Simulations

`System.Traces guard as s`: a run of the actions `as`, all of whose steps meet the guard, ends in
`s`. A system is simulated by another one, its specification, if every such step is matched by a
step with the same action (`Simulates`); then every run is matched by one of the specification
(`Simulates.exists_run`).

`ObjectClass` is the special case of a data type: objects that are made by a constructor, copied,
and changed by their methods. `ObjectClass.system` has any number of objects by name, and
`Refines.simulates` lifts a relation between the objects of two classes to the systems.
-/

open Function Option

namespace System

variable {σ τ α : Type*}

/-- The states that runs with the given actions end in, if their steps meet the guard. -/
inductive Traces (sys : System σ α) (guard : σ → α → Prop) : List α → σ → Prop
  | init {s : σ} : sys.init s → Traces sys guard [] s
  | step {s s' : σ} {as : List α} {a : α} :
      Traces sys guard as s → guard s a → sys.step s a = some s' → Traces sys guard (as ++ [a]) s'

variable {sys : System σ α} {guard : σ → α → Prop} {spec : System τ α} {R : σ → τ → Prop}

/-- An executed run that tests the guard before every step. -/
lemma traces_of_run_guarded [∀ s a, Decidable (guard s a)] {s s' : σ} {as bs : List α}
    (hs : sys.Traces guard as s) (h : (sys.guarded guard).run s bs = some s') :
    sys.Traces guard (as ++ bs) s' := by
  induction bs generalizing s as with
  | nil =>
    rw [run, some.injEq] at h
    rw [List.append_nil]
    exact h ▸ hs
  | cons b bs ih =>
    rw [run_cons, bind_eq_some_iff] at h
    obtain ⟨s1, hstep, hrun⟩ := h
    have hguard : guard s b := by
      by_contra hnot
      simp [guarded, hnot] at hstep
    have hstep' : sys.step s b = some s1 := by simpa [guarded, hguard] using hstep
    have hrest := ih (.step hs hguard hstep') hrun
    rwa [List.append_assoc] at hrest

/-- Every step that meets the guard is matched by one of the specification, which starts in
`t₀`. -/
structure Simulates (sys : System σ α) (guard : σ → α → Prop) (spec : System τ α)
    (R : σ → τ → Prop) (t₀ : τ) : Prop where
  init : ∀ s, sys.init s → R s t₀
  step : ∀ s t a s', R s t → guard s a → sys.step s a = some s' →
    ∃ t', spec.step t a = some t' ∧ R s' t'

lemma Simulates.exists_run {t0 : τ} (h : Simulates sys guard spec R t0) {as : List α} {s : σ}
    (hs : sys.Traces guard as s) : ∃ t, spec.run t0 as = some t ∧ R s t := by
  induction hs with
  | init hs => exact ⟨t0, rfl, h.init _ hs⟩
  | step _ hguard hstep ih =>
    obtain ⟨t, hrun, hR⟩ := ih
    obtain ⟨t', hstep', hR'⟩ := h.step _ _ _ _ hR hguard hstep
    refine ⟨t', ?_, hR'⟩
    rw [run_append, hrun, bind_some, run_cons, hstep', bind_some]
    rfl

end System

/-- A data type: its default constructor, its copy constructor, its assignment and its methods. -/
structure ObjectClass (V M : Type*) where
  fresh : V
  copy : V → V
  /-- What an object is after another one was assigned to it, `none` if this cannot be done. -/
  assign : V → Option V
  /-- What a method does to the object, `none` if it does not return. -/
  call : V → M → Option V

/-- What can be done with objects. -/
inductive ObjectAction (M : Type*) where
  /-- Make a new object. -/
  | construct (v : ℕ)
  /-- Make the first object, which is new, as a copy of the second. -/
  | copy (v w : ℕ)
  /-- Assign the second object to the first. -/
  | assign (v w : ℕ)
  /-- Call a method. -/
  | call (v : ℕ) (m : M)
  deriving DecidableEq, Repr

namespace ObjectClass

variable {V W M : Type*}

/-- Any number of objects, by name. -/
def system (C : ObjectClass V M) : System (ℕ → Option V) (ObjectAction M) where
  init s := s = fun _ => none
  step s
    | .construct v => some (Function.update s v (some C.fresh))
    | .copy v w =>
        if s v = none then (s w).map fun x => Function.update s v (some (C.copy x)) else none
    | .assign v w =>
        if s v = none then none
        else (s w).bind fun x => (C.assign x).map fun x' => Function.update s v (some x')
    | .call v m => (s v).bind fun x => (C.call x m).map fun x' => Function.update s v (some x')

/-- The condition on a constructor and on the calls of methods, for the actions. -/
def Guarded (fresh : Prop) (ok : V → M → Prop) (s : ℕ → Option V) : ObjectAction M → Prop
  | .construct _ => fresh
  | .copy _ _ | .assign _ _ => True
  | .call v m => ∀ x, s v = some x → ok x m

instance {fresh : Prop} [Decidable fresh] {ok : V → M → Prop} [∀ x m, Decidable (ok x m)]
    (s : ℕ → Option V) (a : ObjectAction M) : Decidable (Guarded fresh ok s a) :=
  match a with
  | .construct _ => inferInstanceAs (Decidable fresh)
  | .copy _ _ | .assign _ _ => inferInstanceAs (Decidable True)
  | .call v m =>
      match h : s v with
      | none => .isTrue fun _ hx => nomatch h.symm.trans hx
      | some x =>
          decidable_of_iff (ok x m)
            ⟨fun hok _ hy => Option.some.inj (h.symm.trans hy) ▸ hok, fun hall => hall x h⟩

/-- Objects of one class stand for objects of the other, and the operations keep it that way. -/
structure Refines (C : ObjectClass V M) (D : ObjectClass W M) (fresh : Prop)
    (ok : V → M → Prop) (R : V → W → Prop) : Prop where
  fresh : fresh → R C.fresh D.fresh
  copy : ∀ x y, R x y → R (C.copy x) (D.copy y)
  assign : ∀ x y x', R x y → C.assign x = some x' → ∃ y', D.assign y = some y' ∧ R x' y'
  call : ∀ x y m x', R x y → ok x m → C.call x m = some x' → ∃ y', D.call y m = some y' ∧ R x' y'

variable {C : ObjectClass V M} {D : ObjectClass W M} {fresh : Prop} {ok : V → M → Prop}
  {R : V → W → Prop} {s : ℕ → Option V} {t : ℕ → Option W}

lemma rel_update (h : ∀ v, Option.Rel R (s v) (t v)) {x : V} {y : W} (hxy : R x y) (v v' : ℕ) :
    Option.Rel R (update s v (some x) v') (update t v (some y) v') := by
  by_cases hv : v' = v
  · subst hv
    rw [update_self, update_self]
    exact .some hxy
  · rw [update_of_ne hv, update_of_ne hv]
    exact h v'

lemma exists_of_rel (h : ∀ v, Option.Rel R (s v) (t v)) {v : ℕ} {x : V} (hx : s v = some x) :
    ∃ y, t v = some y ∧ R x y := by
  have hrel := h v
  rw [hx] at hrel
  cases hty : t v with
  | none => rw [hty] at hrel; cases hrel
  | some y =>
    rw [hty] at hrel
    cases hrel with
    | some hxy => exact ⟨y, rfl, hxy⟩

/-- Both systems have objects with the same names. -/
lemma eq_none_iff_of_rel (h : ∀ v, Option.Rel R (s v) (t v)) (v : ℕ) : s v = none ↔ t v = none := by
  have hrel := h v
  cases hs : s v <;> cases ht : t v <;> simp_all

/-- A relation between objects that the operations keep makes the one system simulate the other. -/
lemma Refines.simulates (h : Refines C D fresh ok R) :
    System.Simulates C.system (Guarded fresh ok) D.system
      (fun s t => ∀ v, Option.Rel R (s v) (t v)) fun _ => none where
  init := by
    rintro s rfl v
    exact .none
  step := by
    intro s t a s' hrel hguard hstep
    cases a with
    | construct v =>
      cases hstep
      exact ⟨_, rfl, rel_update hrel (h.fresh hguard) v⟩
    | copy v w =>
      obtain ⟨hv, hcopy⟩ := ite_none_right_eq_some.mp hstep
      obtain ⟨x, hx, rfl⟩ := map_eq_some_iff.mp hcopy
      obtain ⟨y, hy, hxy⟩ := exists_of_rel hrel hx
      refine ⟨update t v (some (D.copy y)), ?_, rel_update hrel (h.copy x y hxy) v⟩
      show (if t v = none then (t w).map _ else none) = _
      rw [if_pos ((eq_none_iff_of_rel hrel v).mp hv), hy, map_some]
    | assign v w =>
      obtain ⟨hv, hassign⟩ := ite_none_left_eq_some.mp hstep
      obtain ⟨x, hx, hcall⟩ := bind_eq_some_iff.mp hassign
      obtain ⟨x', hx', rfl⟩ := map_eq_some_iff.mp hcall
      obtain ⟨y, hy, hxy⟩ := exists_of_rel hrel hx
      obtain ⟨y', hy', hxy'⟩ := h.assign x y x' hxy hx'
      refine ⟨update t v (some y'), ?_, rel_update hrel hxy' v⟩
      show (if t v = none then none else (t w).bind _) = _
      rw [if_neg ((eq_none_iff_of_rel hrel v).not.mp hv), hy, bind_some, hy', map_some]
    | call v m =>
      obtain ⟨x, hx, hcall⟩ := bind_eq_some_iff.mp hstep
      obtain ⟨x', hx', rfl⟩ := map_eq_some_iff.mp hcall
      obtain ⟨y, hy, hxy⟩ := exists_of_rel hrel hx
      obtain ⟨y', hy', hxy'⟩ := h.call x y m x' hxy (hguard x hx) hx'
      refine ⟨update t v (some y'), ?_, rel_update hrel hxy' v⟩
      show (t v).bind _ = _
      rw [hy, bind_some, hy', map_some]

end ObjectClass
