import Mathlib.Data.List.Perm.Basic
import Partimer.Lib.Trace

/-!
# What becomes of what waits

A part of a system keeps things that wait.  Its steps put things at the end, take some from
the front, and may lose what waits.  Everything put in is accounted for, and what is taken
out comes in the order in which it was put in.

* `along` — what the steps of a run do, one after the other.
* `Outbox` — a queue within a system, with what each step issues, sends and loses.
* `Outbox.accounted` — **nothing is invented, duplicated or unaccounted for**.
* `Outbox.inOrder` — **what is sent is sent in order**; `Outbox.exact` — and all of it, if
  nothing is lost; `Outbox.filter_merged` — also when many queues send to one place.
* `Outbox.drained` — events that only send empty a queue in its order.
* `Causal`, `Causal.of_trace` — if things come with what they rest on before them, then **what is
  sent finds what it rests on**, through any number of queues and whatever is lost.
-/

namespace Transition

variable {S E W : Type}

/-- What the steps of a run give, one after the other. -/
def along (f : S → E → List W) (tr : List (S × E)) : List W := tr.flatMap fun x => f x.1 x.2

@[simp] theorem along_nil (f : S → E → List W) : along f [] = [] := rfl

theorem along_append (f : S → E → List W) (tr tr' : List (S × E)) :
    along f (tr ++ tr') = along f tr ++ along f tr' := List.flatMap_append

theorem along_snoc (f : S → E → List W) (tr : List (S × E)) (s : S) (e : E) :
    along f (tr ++ [(s, e)]) = along f tr ++ f s e := by
  simp [along]

/-- What is given along a run is given at one of its steps. -/
theorem exists_of_mem_along {f : S → E → List W} {tr : List (S × E)} {w : W}
    (h : w ∈ along f tr) : ∃ x ∈ tr, w ∈ f x.1 x.2 := List.mem_flatMap.1 h

theorem along_eq_nil_iff {f : S → E → List W} {tr : List (S × E)} :
    along f tr = [] ↔ Meets (fun s e => f s e = []) tr := List.flatMap_eq_nil_iff

/-- A queue within a system: what waits in a state, and what a step issues at its end, sends
from its front and loses. -/
structure Outbox (M : System S E) (W : Type) where
  waiting : S → List W
  issues : S → E → List W
  sends : S → E → List W
  loses : S → E → List W
  start : waiting M.start = []
  step : ∀ s e, M.Enabled s e →
    sends s e ++ (loses s e ++ waiting (M.next s e)) = waiting s ++ issues s e

namespace Outbox

variable {M : System S E} {tr : List (S × E)} {s : S}

/-- **Everything is accounted for.**  What was issued in a run has been sent, or was lost, or
waits, each as often as it was issued. -/
theorem accounted (o : Outbox M W) (h : Trace M tr s) :
    (along o.issues tr).Perm (along o.sends tr ++ (along o.loses tr ++ o.waiting s)) := by
  induction h with
  | nil => simp [o.start]
  | @snoc tr s e _ he ih =>
    rw [along_snoc, along_snoc, along_snoc]
    have hstep := o.step s e he
    calc (along o.issues tr ++ o.issues s e).Perm
          ((along o.sends tr ++ (along o.loses tr ++ o.waiting s)) ++ o.issues s e) :=
          ih.append_right _
      _ = (along o.sends tr ++ along o.loses tr) ++ (o.waiting s ++ o.issues s e) := by
          simp only [List.append_assoc]
      _ = (along o.sends tr ++ along o.loses tr) ++
          (o.sends s e ++ (o.loses s e ++ o.waiting (M.next s e))) := by rw [hstep]
      List.Perm _ ((along o.sends tr ++ o.sends s e) ++
          ((along o.loses tr ++ o.loses s e) ++ o.waiting (M.next s e))) := by
          simp only [List.append_assoc]
          refine List.Perm.append_left _ ?_
          simp only [← List.append_assoc]
          exact (List.perm_append_comm.append_right _).append_right _

/-- **In order.**  What was sent, and what waits behind it, is part of what was issued, in the
order in which it was issued. -/
theorem inOrder (o : Outbox M W) (h : Trace M tr s) :
    List.Sublist (along o.sends tr ++ o.waiting s) (along o.issues tr) := by
  induction h with
  | nil => simp [o.start]
  | @snoc tr s e _ he ih =>
    rw [along_snoc, along_snoc, List.append_assoc]
    have hkept : List.Sublist (o.sends s e ++ o.waiting (M.next s e))
        (o.waiting s ++ o.issues s e) := by
      rw [← o.step s e he]
      exact (List.Sublist.refl _).append (List.sublist_append_right _ _)
    have hfront := (List.Sublist.refl (along o.sends tr)).append hkept
    rw [← List.append_assoc (along o.sends tr) (o.waiting s)] at hfront
    exact hfront.trans (ih.append (List.Sublist.refl _))

/-- **All of it**, as long as nothing is lost. -/
theorem exact (o : Outbox M W) (h : Trace M tr s)
    (hl : Meets (fun s e => o.loses s e = []) tr) :
    along o.sends tr ++ o.waiting s = along o.issues tr := by
  refine (o.inOrder h).eq_of_length ?_
  have hlength := (o.accounted h).length_eq
  rw [along_eq_nil_iff.2 hl] at hlength
  simpa using hlength.symm

/-- **What is left at the end** of events that issue and lose nothing, behind what they send, is
what waited before. -/
theorem drained (o : Outbox M W) {es : List E} (hes : Runs M s es)
    (hquiet : Meets (fun s e => o.issues s e = [] ∧ o.loses s e = []) (steps M s es)) :
    along o.sends (steps M s es) ++ o.waiting (es.foldl M.next s) = o.waiting s := by
  induction es generalizing s with
  | nil => rfl
  | cons e es ih =>
    rw [meets_steps_cons] at hquiet
    obtain ⟨⟨hissues, hloses⟩, hrest⟩ := hquiet
    have hstep := o.step s e hes.1
    rw [hissues, hloses, List.nil_append, List.append_nil] at hstep
    rw [← hstep, ← ih hes.2 hrest, ← List.append_assoc]
    rfl

/-- **One of many queues.**  Of what all queues together have sent, those things that only the
queue `d` is ever given are what `d` has sent of them, in its order. -/
theorem filter_merged_sends {D : Type} {o : D → Outbox M W} {merged : S → E → List W}
    (hmerged : ∀ s e, ∃ d, merged s e = (o d).sends s e ∧ ∀ d', d' ≠ d → (o d').sends s e = [])
    {p : W → Bool} {d : D} (h : Trace M tr s)
    (hothers : ∀ d', d' ≠ d → ∀ w ∈ along (o d').issues tr, p w = false) :
    (along merged tr).filter p = (along (o d).sends tr).filter p := by
  unfold along
  rw [List.filter_flatMap, List.filter_flatMap]
  refine List.flatMap_congr ?_
  intro x hx
  obtain ⟨d', hsame, hnone⟩ := hmerged x.1 x.2
  rw [hsame]
  by_cases hd : d' = d
  · rw [hd]
  · rw [hnone d (Ne.symm hd), List.filter_nil, List.filter_eq_nil_iff]
    intro w hmem
    rw [hothers d' hd w]
    · exact Bool.false_ne_true
    · have hall : w ∈ along (o d').sends tr := List.mem_flatMap.2 ⟨x, hx, hmem⟩
      exact ((o d').inOrder h).subset (List.mem_append_left _ hall)

/-- They are all that was put into it, once nothing of them was lost or waits. -/
theorem filter_merged {D : Type} {o : D → Outbox M W} {merged : S → E → List W}
    (hmerged : ∀ s e, ∃ d, merged s e = (o d).sends s e ∧ ∀ d', d' ≠ d → (o d').sends s e = [])
    {p : W → Bool} {d : D} (h : Trace M tr s)
    (hothers : ∀ d', d' ≠ d → ∀ w ∈ along (o d').issues tr, p w = false)
    (hl : Meets (fun s e => (o d).loses s e = []) tr) (hw : (o d).waiting s = []) :
    (along merged tr).filter p = (along (o d).issues tr).filter p := by
  have hsent := (o d).exact h hl
  rw [hw, List.append_nil] at hsent
  rw [← hsent]
  exact filter_merged_sends hmerged h hothers

end Outbox

/-! ## What rests on what came before -/

section Causal

variable {K : Type} {gives needs : W → K → Prop}

/-- Each thing of the list needs only what is there, or what one before it gives. -/
def Causal (gives needs : W → K → Prop) (there : K → Prop) : List W → Prop
  | [] => True
  | w :: ws => (∀ k, needs w k → there k) ∧ Causal gives needs (fun k => there k ∨ gives w k) ws

variable {there there' : K → Prop} {ws ws' : List W}

theorem Causal.mono (h : Causal gives needs there ws) (hsub : ∀ k, there k → there' k) :
    Causal gives needs there' ws := by
  induction ws generalizing there there' with
  | nil => trivial
  | cons w ws ih =>
    refine ⟨fun k hk => hsub k (h.1 k hk), ih h.2 ?_⟩
    intro k hk
    exact hk.imp_left (hsub k)

theorem causal_append : Causal gives needs there (ws ++ ws') ↔ Causal gives needs there ws ∧
    Causal gives needs (fun k => there k ∨ ∃ w ∈ ws, gives w k) ws' := by
  induction ws generalizing there with
  | nil =>
    simp only [List.nil_append, Causal, List.not_mem_nil, false_and, exists_false, or_false,
      true_and]
  | cons w ws ih =>
    simp only [List.cons_append, Causal, ih, and_assoc, List.mem_cons, exists_eq_or_imp, or_assoc]

/-- What is put behind a list that rests on nothing new does not disturb it. -/
theorem Causal.append (h : Causal gives needs there ws)
    (h' : Causal gives needs there ws') : Causal gives needs there (ws ++ ws') :=
  causal_append.2 ⟨h, h'.mono fun _ => Or.inl⟩

variable {M : System S E} {D : Type} {C : S → E → Prop}

/-- **One step.**  A queue stays causal if what is put in is, if what was known or is sent is
known afterwards, and if nothing is lost but all that waited. -/
theorem Causal.step {known : S → K → Prop} (o : Outbox M W) {s : S} {e : E} (he : M.Enabled s e)
    (h : Causal gives needs (known s) (o.waiting s))
    (hissues : Causal gives needs (known s) (o.issues s e))
    (hloses : o.loses s e = [] ∨ o.sends s e = [] ∧ o.loses s e = o.waiting s)
    (hkeeps : ∀ k, known s k → known (M.next s e) k)
    (hgives : ∀ w ∈ o.sends s e, ∀ k, gives w k → known (M.next s e) k) :
    Causal gives needs (known (M.next s e)) (o.waiting (M.next s e)) := by
  have hstep := o.step s e he
  rcases hloses with hnone | ⟨hsends, hall⟩
  · rw [hnone, List.nil_append] at hstep
    have hqueue := h.append hissues
    rw [← hstep, causal_append] at hqueue
    refine hqueue.2.mono ?_
    rintro k (hk | ⟨w, hw, hk⟩)
    · exact hkeeps k hk
    · exact hgives w hw k hk
  · rw [hsends, hall, List.nil_append, List.append_cancel_left_eq] at hstep
    rw [hstep]
    exact hissues.mono hkeeps

/-- **Whole runs**, with a queue for each `d`. -/
theorem Causal.of_trace (known : S → K → Prop) (o : D → Outbox M W)
    (hissues : ∀ s e d, C s e → Causal gives needs (known s) ((o d).issues s e))
    (hloses : ∀ s e d, (o d).loses s e = [] ∨
      (o d).sends s e = [] ∧ (o d).loses s e = (o d).waiting s)
    (hkeeps : ∀ tr s e, Trace M tr s → M.Enabled s e → Meets C (tr ++ [(s, e)]) →
      ∀ k, known s k → known (M.next s e) k)
    (hgives : ∀ s e d, ∀ w ∈ (o d).sends s e, ∀ k, gives w k → known (M.next s e) k)
    {tr : List (S × E)} {s : S} (h : Trace M tr s) (hC : Meets C tr) (d : D) :
    Causal gives needs (known s) ((o d).waiting s) := by
  induction h generalizing d with
  | nil =>
    rw [(o d).start]
    trivial
  | @snoc tr s e hrun he ih =>
    obtain ⟨hpre, hlast⟩ := meets_append.1 hC
    rw [meets_singleton] at hlast
    exact Causal.step (o d) he (ih hpre d) (hissues s e d hlast) (hloses s e d)
      (hkeeps tr s e hrun he hC) (hgives s e d)

end Causal

end Transition
