import Mathlib.Data.List.Basic

/-!
# Runs of a system, step by step

A system has a starting state, says which events may happen in which state, and
what state each event leads to.  A run is kept as the list of its steps, each
with the state it was taken in, so that a statement about a run can speak about
every one of its steps.

* `Trace` — the runs of a system, `Meets` — every step of a run satisfies a
  condition on the state before it and the event.
* `Trace.invariant`, `Trace.invariant_of_meets` — what the start satisfies and
  every (admitted) step keeps holds at the end of the run.
* `Trace.of_mem` — the state in which a step of a run is taken is itself reached
  by a run; `Trace.rel_of_mem` — how what it leads to is related to the end.
* `Trace.since` — what holds at the end has held since the step that made it true.
* `Trace.meets_of_meets`, `Trace.meets_iff_of_meets`, `Trace.meets_iff` — from a fact about
  one step in a state satisfying an invariant to the same fact about all steps of all runs.
* `steps`, `Runs`, `Trace.of_events` — the run that a list of events makes.
* `eq_or_mem_set`, `getElem?_set_cases`, `forall_mem_set`, `forall_mem_concat` — a list of
  records, one of them replaced or one added.
-/

namespace Transition

variable {S E : Type}

/-- A system: where it starts, which events may happen, and what they do. -/
structure System (S E : Type) where
  start : S
  Enabled : S → E → Prop
  next : S → E → S

/-- `Trace M tr s`: a run of `M` with the steps `tr` that ends in `s`. -/
inductive Trace (M : System S E) : List (S × E) → S → Prop
  | nil : Trace M [] M.start
  | snoc {tr : List (S × E)} {s : S} {e : E} (h : Trace M tr s) (he : M.Enabled s e) :
      Trace M (tr ++ [(s, e)]) (M.next s e)

/-- Every step of the run satisfies `C`, a condition on the state before the step
and the event. -/
def Meets (C : S → E → Prop) (tr : List (S × E)) : Prop := ∀ x ∈ tr, C x.1 x.2

theorem meets_append {C : S → E → Prop} {tr tr' : List (S × E)} :
    Meets C (tr ++ tr') ↔ Meets C tr ∧ Meets C tr' := List.forall_mem_append

theorem meets_singleton {C : S → E → Prop} {s : S} {e : E} : Meets C [(s, e)] ↔ C s e := by
  simp [Meets]

variable {M : System S E} {tr : List (S × E)} {s : S}

/-- **Invariants under a condition on the steps.** -/
theorem Trace.invariant_of_meets {I : S → Prop} {C : S → E → Prop} (h0 : I M.start)
    (hstep : ∀ s e, I s → M.Enabled s e → C s e → I (M.next s e)) (h : Trace M tr s)
    (hC : Meets C tr) : I s := by
  induction h with
  | nil => exact h0
  | snoc _ he ih =>
    rw [meets_append, meets_singleton] at hC
    exact hstep _ _ (ih hC.1) he hC.2

/-- **Invariants.**  What holds at the start and is kept by every step holds in
every state a run reaches. -/
theorem Trace.invariant {I : S → Prop} (h0 : I M.start)
    (hstep : ∀ s e, I s → M.Enabled s e → I (M.next s e)) (h : Trace M tr s) : I s :=
  h.invariant_of_meets (C := fun _ _ => True) h0 (fun s e hs he _ => hstep s e hs he)
    fun _ _ => trivial

/-- A step of a run is taken in a state that the steps before it reach. -/
theorem Trace.of_mem (h : Trace M tr s) {x : S × E} (hx : x ∈ tr) :
    ∃ pre, Trace M pre x.1 ∧ M.Enabled x.1 x.2 ∧ pre <+: tr := by
  induction h with
  | nil => simp at hx
  | @snoc tr s e hpre he ih =>
    rcases List.mem_append.1 hx with hx | hx
    · obtain ⟨pre, htr, hen, hp⟩ := ih hx
      exact ⟨pre, htr, hen, hp.trans (List.prefix_append ..)⟩
    · obtain rfl := List.mem_singleton.1 hx
      exact ⟨tr, hpre, he, List.prefix_append ..⟩

/-- **What steps keep.**  A relation that leads from each state to the next, and that
chains, leads from any state of a run that a step has reached to the last one. -/
theorem Trace.rel_of_mem {R : S → S → Prop} (hrefl : ∀ s, R s s)
    (htrans : ∀ s t u, R s t → R t u → R s u)
    (hstep : ∀ s e, M.Enabled s e → R s (M.next s e)) (h : Trace M tr s) {x : S × E}
    (hx : x ∈ tr) : R (M.next x.1 x.2) s := by
  induction h with
  | nil => simp at hx
  | snoc _ he ih =>
    rcases List.mem_append.1 hx with hx | hx
    · exact htrans _ _ _ (ih hx) (hstep _ _ he)
    · obtain rfl := List.mem_singleton.1 hx
      exact hrefl _

/-- **What holds since a step.**  If the start does not satisfy `Q`, and a step that makes it true
satisfies `A`, then in a run that ends in a state with `Q` some step has satisfied `A` and all
states since then have satisfied `Q`. -/
theorem Trace.since {A : S → E → Prop} {Q : S → Prop} (h0 : ¬ Q M.start)
    (hstep : ∀ s e, M.Enabled s e → Q (M.next s e) → Q s ∨ A s e) (h : Trace M tr s) (hQ : Q s) :
    ∃ pre x post, tr = pre ++ x :: post ∧ A x.1 x.2 ∧ ∀ y ∈ post, Q y.1 := by
  induction h with
  | nil => exact absurd hQ h0
  | @snoc tr s e _ he ih =>
    rcases hstep s e he hQ with hbefore | hA
    · obtain ⟨pre, x, post, rfl, hx, hpost⟩ := ih hbefore
      exact ⟨pre, x, post ++ [(s, e)], by simp, hx,
        List.forall_mem_append.2 ⟨hpost, List.forall_mem_singleton.2 hbefore⟩⟩
    · exact ⟨tr, (s, e), [], rfl, hA, fun y hy => absurd hy List.not_mem_nil⟩

theorem Meets.of_prefix {C : S → E → Prop} {pre : List (S × E)} (hC : Meets C tr)
    (hp : pre <+: tr) : Meets C pre := fun x hx => hC x (hp.subset hx)

/-- **From one step to a whole run.**  Under an invariant that the admitted steps
keep, a run whose steps all meet `C` has the property `P` at every step if each
single step that meets `C` has it. -/
theorem Trace.meets_of_meets {I : S → Prop} {C P : S → E → Prop} (h0 : I M.start)
    (hstep : ∀ s e, I s → M.Enabled s e → C s e → I (M.next s e))
    (hP : ∀ s e, I s → M.Enabled s e → C s e → P s e) (h : Trace M tr s)
    (hC : Meets C tr) : Meets P tr := by
  intro x hx
  obtain ⟨pre, htr, hen, hp⟩ := h.of_mem hx
  exact hP _ _ (htr.invariant_of_meets h0 hstep (hC.of_prefix hp)) hen (hC x hx)

/-- **Two conditions at once.**  Under an invariant that the admitted steps keep, two
conditions that agree on every admitted step are met by the same of the runs whose steps
are all admitted. -/
theorem Trace.meets_iff_of_meets {I : S → Prop} {C P Q : S → E → Prop} (h0 : I M.start)
    (hstep : ∀ s e, I s → M.Enabled s e → C s e → I (M.next s e))
    (hPQ : ∀ s e, I s → M.Enabled s e → C s e → (P s e ↔ Q s e)) (h : Trace M tr s)
    (hC : Meets C tr) : Meets P tr ↔ Meets Q tr := by
  refine forall₂_congr ?_
  intro x hx
  obtain ⟨pre, htr, hen, hp⟩ := h.of_mem hx
  exact hPQ _ _ (htr.invariant_of_meets h0 hstep (hC.of_prefix hp)) hen (hC x hx)

/-- Two conditions that agree on every step from a state satisfying the invariant
are met by the same runs. -/
theorem Trace.meets_iff {I : S → Prop} {P Q : S → E → Prop} (h0 : I M.start)
    (hstep : ∀ s e, I s → M.Enabled s e → I (M.next s e))
    (hPQ : ∀ s e, I s → M.Enabled s e → (P s e ↔ Q s e)) (h : Trace M tr s) :
    Meets P tr ↔ Meets Q tr :=
  h.meets_iff_of_meets (C := fun _ _ => True) h0 (fun s e hs he _ => hstep s e hs he)
    (fun s e hs he _ => hPQ s e hs he) fun _ _ => trivial

/-! ## Runs from lists of events -/

/-- The steps that a list of events makes from a state. -/
def steps (M : System S E) : S → List E → List (S × E)
  | _, [] => []
  | s, e :: es => (s, e) :: steps M (M.next s e) es

/-- Each of the events may happen when its turn comes. -/
def Runs (M : System S E) : S → List E → Prop
  | _, [] => True
  | s, e :: es => M.Enabled s e ∧ Runs M (M.next s e) es

/-- Events that can happen one after the other begin with such events. -/
theorem Runs.of_append {es es' : List E} (h : Runs M s (es ++ es')) : Runs M s es := by
  induction es generalizing s with
  | nil => trivial
  | cons e es ih => exact ⟨h.1, ih h.2⟩

theorem Runs.append {es es' : List E} (h : Runs M s es) (h' : Runs M (es.foldl M.next s) es') :
    Runs M s (es ++ es') := by
  induction es generalizing s with
  | nil => exact h'
  | cons e es ih => exact ⟨h.1, ih h.2 h'⟩

theorem Trace.append_steps (h : Trace M tr s) {es : List E} (hes : Runs M s es) :
    Trace M (tr ++ steps M s es) (es.foldl M.next s) := by
  induction es generalizing tr s with
  | nil => simpa [steps] using h
  | cons e es ih =>
    obtain ⟨he, hes⟩ := hes
    have hrun := ih (h.snoc he) hes
    rwa [List.append_assoc] at hrun

/-- **A list of events is a run** if each may happen when its turn comes. -/
theorem Trace.of_events {es : List E} (hes : Runs M M.start es) :
    Trace M (steps M M.start es) (es.foldl M.next M.start) := by
  simpa using Trace.nil.append_steps hes

/-- The steps of a list of events, one by one. -/
theorem meets_steps_cons {C : S → E → Prop} {e : E} {es : List E} :
    Meets C (steps M s (e :: es)) ↔ C s e ∧ Meets C (steps M (M.next s e) es) := by
  simp [steps, Meets]

theorem meets_steps_nil {C : S → E → Prop} : Meets C (steps M s []) := by
  simp [steps, Meets]

/-- What every event of the list satisfies, in whatever state, the steps satisfy. -/
theorem meets_steps_of_mem {C : S → E → Prop} {es : List E} (h : ∀ s, ∀ e ∈ es, C s e) (s : S) :
    Meets C (steps M s es) := by
  induction es generalizing s with
  | nil => exact meets_steps_nil
  | cons e es ih =>
    refine meets_steps_cons.2 ⟨h s e List.mem_cons_self, ih ?_ _⟩
    exact fun s e he => h s e (List.mem_cons_of_mem _ he)

/-- Each event is a step from where the events before it lead. -/
theorem mem_steps (pre : List E) (e : E) (post : List E) (s : S) :
    (pre.foldl M.next s, e) ∈ steps M s (pre ++ e :: post) := by
  induction pre generalizing s with
  | nil => exact List.mem_cons_self
  | cons e' pre ih => exact List.mem_cons_of_mem _ (ih _)

/-! ## Records kept in a list -/

/-- A member of a list survives the replacement of another. -/
theorem eq_or_mem_set {α : Type} {xs : List α} {i : Nat} {a b x : α} (ha : xs[i]? = some a)
    (hx : x ∈ xs) : x = a ∨ x ∈ xs.set i b := by
  obtain ⟨j, hj⟩ := List.mem_iff_getElem?.1 hx
  by_cases h : i = j
  · subst h
    exact Or.inl (Option.some.inj (hj.symm.trans ha))
  · refine Or.inr (List.mem_iff_getElem?.2 ⟨j, ?_⟩)
    rw [List.getElem?_set_ne h, hj]

/-- A place of a list with one record replaced holds this one or what it held. -/
theorem getElem?_set_cases {α : Type} {xs : List α} {i j : Nat} {b x : α}
    (h : (xs.set i b)[j]? = some x) : i = j ∧ b = x ∨ xs[j]? = some x := by
  by_cases hj : i = j
  · subst hj
    obtain ⟨hlt, -⟩ := List.getElem?_eq_some_iff.1 h
    rw [List.length_set] at hlt
    rw [List.getElem?_set_self hlt] at h
    exact Or.inl ⟨rfl, Option.some.inj h⟩
  · rw [List.getElem?_set_ne hj] at h
    exact Or.inr h

/-- What every record of a list satisfies, and the one put in, all satisfy afterwards. -/
theorem forall_mem_set {α : Type} {P : α → Prop} {xs : List α} {b : α} (h : ∀ x ∈ xs, P x)
    (hb : P b) (i : Nat) : ∀ x ∈ xs.set i b, P x := by
  intro x hx
  rcases List.mem_or_eq_of_mem_set hx with hx | rfl
  · exact h x hx
  · exact hb

theorem forall_mem_concat {α : Type} {P : α → Prop} {xs : List α} {b : α}
    (h : ∀ x ∈ xs, P x) (hb : P b) : ∀ x ∈ xs ++ [b], P x :=
  List.forall_mem_append.2 ⟨h, List.forall_mem_singleton.2 hb⟩

theorem mem_set_of_getElem? {α : Type} {xs : List α} {i : Nat} {a b : α}
    (ha : xs[i]? = some a) : b ∈ xs.set i b := by
  obtain ⟨hi, -⟩ := List.getElem?_eq_some_iff.1 ha
  exact List.mem_set hi b

end Transition
