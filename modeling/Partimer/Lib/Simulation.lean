import Partimer.Lib.Trace

/-!
# One system seen through another

A system whose steps change a part of its state as another system does, or a system that
does more than another one describes: each of its steps is matched by some steps of the
other, by none where nothing happens that the other can see.

* `Matched` — what a step leads to is reached by some events of the other system.
* `Simulation`, `Simulation.trace` — if each step is matched, so is each run.
* `Simulation.transfer` — what holds in every state the other system reaches is known of
  the state it is related to.
* `System.restrict`, `trace_restrict_iff` — a system with only the steps that meet a condition,
  to match the runs of one that meet a condition by those of the other that meet another.
-/

namespace Transition

variable {S E T F : Type} {M : System S E} {N : System T F} {R : S → T → Prop}

/-- Some events lead from `t` to a state that `s'` is related to. -/
def Matched (N : System T F) (R : S → T → Prop) (s' : S) (t : T) : Prop :=
  ∃ fs, Runs N t fs ∧ R s' (fs.foldl N.next t)

/-- Nothing happens that the other system can see. -/
theorem Matched.none {s' : S} {t : T} (h : R s' t) : Matched N R s' t := ⟨[], trivial, h⟩

/-- One event is enough. -/
theorem Matched.one {s' : S} {t : T} {f : F} (hf : N.Enabled t f) (h : R s' (N.next t f)) :
    Matched N R s' t := ⟨[f], ⟨hf, trivial⟩, h⟩

/-- Related states start the two systems, and each step from related states is matched. -/
structure Simulation (M : System S E) (N : System T F) (R : S → T → Prop) : Prop where
  start : R M.start N.start
  step : ∀ s t e, R s t → M.Enabled s e → Matched N R (M.next s e) t

/-- **Runs are matched.**  The state that a run reaches is related to one that a run of the
other system reaches. -/
theorem Simulation.trace (h : Simulation M N R) {tr : List (S × E)} {s : S}
    (hrun : Trace M tr s) : ∃ tr' t, Trace N tr' t ∧ R s t := by
  induction hrun with
  | nil => exact ⟨[], N.start, .nil, h.start⟩
  | @snoc tr s e _ he ih =>
    obtain ⟨tr', t, htrace, hrel⟩ := ih
    obtain ⟨fs, hfs, hrel'⟩ := h.step s t e hrel he
    exact ⟨_, _, htrace.append_steps hfs, hrel'⟩

/-- **What is known of the other system.**  What holds in every state that it reaches, and
passes to the states related to these, holds in every state that a run reaches. -/
theorem Simulation.transfer (h : Simulation M N R) {J : T → Prop} {I : S → Prop}
    (hJ : ∀ tr t, Trace N tr t → J t) (hI : ∀ s t, R s t → J t → I s)
    {tr : List (S × E)} {s : S} (hrun : Trace M tr s) : I s := by
  obtain ⟨tr', t, htrace, hrel⟩ := h.trace hrun
  exact hI s t hrel (hJ tr' t htrace)

/-- The system with only the steps that satisfy `C`. -/
def System.restrict (M : System S E) (C : S → E → Prop) : System S E where
  start := M.start
  Enabled s e := M.Enabled s e ∧ C s e
  next := M.next

/-- Its runs are those that meet the condition. -/
theorem trace_restrict_iff {C : S → E → Prop} {tr : List (S × E)} {s : S} :
    Trace (M.restrict C) tr s ↔ Trace M tr s ∧ Meets C tr := by
  constructor
  · intro h
    induction h with
    | nil => exact ⟨.nil, fun x hx => absurd hx List.not_mem_nil⟩
    | snoc _ he ih => exact ⟨ih.1.snoc he.1, meets_append.2 ⟨ih.2, meets_singleton.2 he.2⟩⟩
  · rintro ⟨h, hC⟩
    induction h with
    | nil => exact .nil
    | snoc _ he ih =>
      rw [meets_append, meets_singleton] at hC
      exact (ih hC.1).snoc ⟨he, hC.2⟩

end Transition
