import Mathlib.Data.List.Basic

/-!
# Imperative code that may throw

Statements that work on a state and may stop with an exception.  What was done
before the exception stays done: a run gives the outcome together with the state
it leaves, whichever the outcome is.

* `Code` — the monad, with `throw`, `lift` and `modify`; `run_bind_ok` and
  `run_bind_error` run a sequence statement by statement, `run_seq_ok` takes one that
  went through apart.
* `forEach` — the `for` loop; `forEach_append` — cut in two.
* `forEach_inv` — a property every pass keeps holds of the state the loop leaves,
  whether it finished or was cut short; `forEach_inv_of_ok` asks less of the
  passes of a loop that finished.
* `forEach_cons_ok`, `forEach_append_ok` — a loop that finishes, cut in two.
* `forEach_sim` — two loops side by side.
* `forEach_ok_iff` — when whether a pass throws depends on the element alone, the
  loop finishes exactly if no element makes its pass throw.
* `forEach_flatMap` — nested loops as one loop; `results`, `forEach_collect` — a loop
  whose passes read and then add leaves what was read up to the first throw;
  `outcome_map_eq_ok`, `results_map_ok` — when none throws.
-/

/-- A statement over the state `σ`, with exceptions `ε` and result `α`. -/
def Code (σ ε α : Type) : Type := σ → Except ε α × σ

namespace Code

variable {σ ε α β : Type}

/-- The outcome of a statement and the state it leaves. -/
def run (x : Code σ ε α) (s : σ) : Except ε α × σ := x s

instance : Monad (Code σ ε) where
  pure a := fun s => (.ok a, s)
  bind x f := fun s =>
    match x s with
    | (.ok a, s') => f a s'
    | (.error e, s') => (.error e, s')

/-- Leave with an exception. -/
def throw (e : ε) : Code σ ε α := fun s => (.error e, s)

/-- A computation that does not touch the state. -/
def lift (x : Except ε α) : Code σ ε α := fun s => (x, s)

/-- Change the state. -/
def modify (f : σ → σ) : Code σ ε Unit := fun s => (.ok (), f s)

@[simp] theorem run_pure (a : α) (s : σ) : (pure a : Code σ ε α).run s = (.ok a, s) := rfl

@[simp] theorem run_throw (e : ε) (s : σ) :
    (throw e : Code σ ε α).run s = (.error e, s) := rfl

@[simp] theorem lift_ok (a : α) : (lift (.ok a) : Code σ ε α) = pure a := rfl

@[simp] theorem pure_bind (a : α) (f : α → Code σ ε β) : (pure a >>= f) = f a := rfl

@[simp] theorem throw_bind (e : ε) (f : α → Code σ ε β) : (throw e >>= f) = throw e := rfl

/-- A statement that goes through hands its result to the next one. -/
theorem run_bind_ok {x : Code σ ε α} {s s' : σ} {a : α} (h : x.run s = (.ok a, s'))
    (f : α → Code σ ε β) : (x >>= f).run s = (f a).run s' := by
  show (match x.run s with
    | (.ok a, s') => (f a).run s'
    | (.error e, s') => (.error e, s')) = _
  rw [h]

/-- A statement that throws ends the sequence. -/
theorem run_bind_error {x : Code σ ε α} {s s' : σ} {e : ε} (h : x.run s = (.error e, s'))
    (f : α → Code σ ε β) : (x >>= f).run s = (.error e, s') := by
  show (match x.run s with
    | (.ok a, s') => (f a).run s'
    | (.error e, s') => (.error e, s')) = _
  rw [h]

/-- A sequence goes through when both of its parts do. -/
theorem run_seq_ok {x : Code σ ε Unit} {y : Code σ ε β} {s s' : σ} {b : β} :
    (x >>= fun _ => y).run s = (.ok b, s') ↔
      ∃ t, x.run s = (.ok (), t) ∧ y.run t = (.ok b, s') := by
  rcases hx : x.run s with ⟨e | a, t⟩
  · rw [run_bind_error hx]
    simp
  · rw [run_bind_ok hx]
    simp

/-- Sequences are the same however they are bracketed. -/
theorem bind_assoc {γ : Type} (x : Code σ ε α) (f : α → Code σ ε β) (g : β → Code σ ε γ) :
    (x >>= f >>= g) = (x >>= fun a => f a >>= g) := by
  funext s
  show (x >>= f >>= g).run s = (x >>= fun a => f a >>= g).run s
  rcases hx : x.run s with ⟨e | a, t⟩
  · rw [run_bind_error hx, run_bind_error (run_bind_error hx f)]
  · rw [run_bind_ok hx]
    rcases hf : (f a).run t with ⟨e | b, u⟩
    · rw [run_bind_error hf, run_bind_error ((run_bind_ok hx f).trans hf)]
    · rw [run_bind_ok hf, run_bind_ok ((run_bind_ok hx f).trans hf)]

/-! ## Loops -/

/-- Run `body` over the elements in order, stopping at the first exception. -/
def forEach (as : List α) (body : α → Code σ ε Unit) : Code σ ε Unit :=
  match as with
  | [] => pure ()
  | a :: as => do
    body a
    forEach as body

variable {body : α → Code σ ε Unit}

@[simp] theorem forEach_nil : forEach [] body = pure () := rfl

theorem forEach_cons (a : α) (as : List α) :
    forEach (a :: as) body = (body a >>= fun _ => forEach as body) := rfl

/-- **The invariant rule.**  A property that every pass keeps, also one that
throws, holds when the loop is left. -/
theorem forEach_inv {I : σ → Prop} {as : List α}
    (hbody : ∀ a ∈ as, ∀ s, I s → I ((body a).run s).2) {s : σ} (hs : I s) :
    I ((forEach as body).run s).2 := by
  induction as generalizing s with
  | nil => exact hs
  | cons a as ih =>
    have ha : I ((body a).run s).2 := hbody a (List.mem_cons_self ..) s hs
    rw [forEach_cons]
    rcases hb : (body a).run s with ⟨_ | _, s'⟩
    · rw [run_bind_error hb]
      rwa [hb] at ha
    · rw [run_bind_ok hb]
      rw [hb] at ha
      exact ih (fun b hm => hbody b (List.mem_cons_of_mem _ hm)) ha

/-- A loop over two lists in a row is two loops in a row. -/
theorem forEach_append (as bs : List α) :
    forEach (as ++ bs) body = (forEach as body >>= fun _ => forEach bs body) := by
  induction as with
  | nil => rfl
  | cons a as ih => rw [List.cons_append, forEach_cons, forEach_cons, ih, bind_assoc]

/-- A loop goes through when its first pass does and then the rest. -/
theorem forEach_cons_ok {a : α} {as : List α} {s s' : σ} :
    (forEach (a :: as) body).run s = (.ok (), s') ↔
      ∃ t, (body a).run s = (.ok (), t) ∧ (forEach as body).run t = (.ok (), s') := by
  rw [forEach_cons, run_seq_ok]

/-- A loop over two lists in a row goes through when both parts do. -/
theorem forEach_append_ok {as bs : List α} {s s' : σ} :
    (forEach (as ++ bs) body).run s = (.ok (), s') ↔
      ∃ t, (forEach as body).run s = (.ok (), t) ∧ (forEach bs body).run t = (.ok (), s') := by
  rw [forEach_append, run_seq_ok]

/-- The invariant rule for a loop that goes through: only passes that go through
have to keep the property. -/
theorem forEach_inv_of_ok {I : σ → Prop} {as : List α} {s s' : σ}
    (h : (forEach as body).run s = (.ok (), s'))
    (hbody : ∀ a ∈ as, ∀ t t', (body a).run t = (.ok (), t') → I t → I t') (hs : I s) :
    I s' := by
  induction as generalizing s with
  | nil => cases h; exact hs
  | cons a as ih =>
    obtain ⟨t, ha, has⟩ := forEach_cons_ok.1 h
    exact ih has (fun b hb => hbody b (List.mem_cons_of_mem _ hb))
      (hbody a (List.mem_cons_self ..) s t ha hs)

/-- **The simulation rule.**  Two loops over the same elements, whose passes keep a
relation between their states and end alike, do so as a whole. -/
theorem forEach_sim {τ : Type} {body' : α → Code τ ε Unit} {R : σ → τ → Prop} {as : List α}
    (hbody : ∀ a ∈ as, ∀ s t, R s t → ((body a).run s).1 = ((body' a).run t).1 ∧
      R ((body a).run s).2 ((body' a).run t).2) {s : σ} {t : τ} (h : R s t) :
    ((forEach as body).run s).1 = ((forEach as body').run t).1 ∧
      R ((forEach as body).run s).2 ((forEach as body').run t).2 := by
  induction as generalizing s t with
  | nil => exact ⟨rfl, h⟩
  | cons a as ih =>
    have ha := hbody a (List.mem_cons_self ..) s t h
    rw [forEach_cons, forEach_cons]
    rcases hs : (body a).run s with ⟨e | _, s'⟩
    · rcases ht : (body' a).run t with ⟨e' | _, t'⟩
      · rw [hs, ht] at ha
        rw [run_bind_error hs, run_bind_error ht]
        exact ha
      · rw [hs, ht] at ha
        cases ha.1
    · rcases ht : (body' a).run t with ⟨e' | _, t'⟩
      · rw [hs, ht] at ha
        cases ha.1
      · rw [hs, ht] at ha
        rw [run_bind_ok hs, run_bind_ok ht]
        exact ih (fun b hb => hbody b (List.mem_cons_of_mem _ hb)) ha.2

/-- When whether a pass throws depends on the element alone, the loop finishes
exactly if no element makes its pass throw. -/
theorem forEach_ok_iff {outcome : α → Except ε Unit}
    (hbody : ∀ a s, ((body a).run s).1 = outcome a) {as : List α} {s : σ} :
    ((forEach as body).run s).1 = .ok () ↔ ∀ a ∈ as, outcome a = .ok () := by
  induction as generalizing s with
  | nil => simp
  | cons a as ih =>
    rw [forEach_cons, List.forall_mem_cons, ← hbody a s]
    rcases hb : (body a).run s with ⟨e | _, s'⟩
    · rw [run_bind_error hb]
      simp
    · rw [run_bind_ok hb, ih]
      simp

/-! ## Loops that read and add -/

/-- What a row of reads gives until the first one throws. -/
def results : List (Except ε α) → List α
  | [] => []
  | .ok a :: rs => a :: results rs
  | .error _ :: _ => []

/-- How going through a row of reads ends. -/
def outcome : List (Except ε α) → Except ε Unit
  | [] => .ok ()
  | .ok _ :: rs => outcome rs
  | .error e :: _ => .error e

/-- What was read was among the reads. -/
theorem mem_of_mem_results {rs : List (Except ε α)} {a : α} (h : a ∈ results rs) :
    .ok a ∈ rs := by
  induction rs with
  | nil => cases h
  | cons r rs ih =>
    cases r with
    | error e => cases h
    | ok b =>
      rcases List.mem_cons.1 h with rfl | h
      · exact List.mem_cons_self
      · exact List.mem_cons_of_mem _ (ih h)

/-- Going through a row of reads ends well exactly if none of them throws. -/
theorem outcome_map_eq_ok {read : α → Except ε β} {as : List α} :
    outcome (as.map read) = .ok () ↔ ∀ a ∈ as, ∃ b, read a = .ok b := by
  induction as with
  | nil => simp [outcome]
  | cons a as ih =>
    rw [List.map_cons, List.forall_mem_cons, ← ih]
    cases read a with
    | error e => simp [outcome]
    | ok b => simp [outcome]

/-- Then it gives all of them. -/
theorem results_map_ok {read : α → Except ε β} {f : α → β} {as : List α}
    (h : ∀ a ∈ as, read a = .ok (f a)) : results (as.map read) = as.map f := by
  induction as with
  | nil => rfl
  | cons a as ih =>
    rw [List.forall_mem_cons] at h
    rw [List.map_cons, h.1, results, ih h.2, List.map_cons]

/-- A loop whose passes each read something first, and add it to the state only when
the read goes through: what it leaves is what was added until the first throw. -/
theorem forEach_collect {β : Type} (read : α → Except ε β) (add : σ → β → σ)
    (hbody : ∀ a, body a = do
      let b ← lift (read a)
      modify fun s => add s b) (as : List α) (s : σ) :
    (forEach as body).run s = (outcome (as.map read), (results (as.map read)).foldl add s) := by
  induction as generalizing s with
  | nil => rfl
  | cons a as ih =>
    rw [forEach_cons, List.map_cons]
    cases hr : read a with
    | error e =>
      have ha : (body a).run s = (.error e, s) := by
        rw [hbody, hr]
        rfl
      rw [run_bind_error ha]
      rfl
    | ok b =>
      have ha : (body a).run s = (.ok (), add s b) := by
        rw [hbody, hr]
        rfl
      rw [run_bind_ok ha, ih]
      rfl

/-- A loop within a loop is one loop over all the elements of the inner ones. -/
theorem forEach_flatMap {β : Type} (f : β → List α) (bs : List β) :
    (forEach bs fun b => forEach (f b) body) = forEach (bs.flatMap f) body := by
  induction bs with
  | nil => rfl
  | cons b bs ih => rw [forEach_cons, List.flatMap_cons, forEach_append, ih]

end Code
