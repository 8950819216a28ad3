import Mathlib.Data.List.Basic

/-!
# Forms whose fields are required

A form is checked field by field, in the order in which they are listed, and refused at the first
empty one with the error that is kept for it.

* `require` — the check, `require_eq_ok_iff` — what it accepts, `require_eq_error_iff` — **what it
  says about the others**.
-/

namespace Forms

variable {ε : Type}

/-- The first empty text is refused with its error. -/
def require : List (String × ε) → Except ε Unit
  | [] => .ok ()
  | (text, error) :: fields => if text.isEmpty then .error error else require fields

theorem require_cons_of_empty (error : ε) (fields : List (String × ε)) :
    require (("", error) :: fields) = .error error := rfl

theorem require_cons_of_ne {text : String} (h : text ≠ "") (error : ε)
    (fields : List (String × ε)) : require ((text, error) :: fields) = require fields := by
  rw [require, if_neg (by simpa using h)]

/-- A form is accepted exactly if none of its fields is empty. -/
theorem require_eq_ok_iff {fields : List (String × ε)} :
    require fields = .ok () ↔ ∀ x ∈ fields, x.1 ≠ "" := by
  induction fields with
  | nil => simp [require]
  | cons x fields ih =>
    obtain ⟨text, error⟩ := x
    rw [List.forall_mem_cons]
    by_cases htext : text = ""
    · subst htext
      simp [require_cons_of_empty]
    · rw [require_cons_of_ne htext, ih]
      simp [htext]

/-- **The error is that of the first empty field.** -/
theorem require_eq_error_iff {fields : List (String × ε)} {error : ε} :
    require fields = .error error ↔
      ∃ pre post, fields = pre ++ ("", error) :: post ∧ ∀ x ∈ pre, x.1 ≠ "" := by
  constructor
  · intro h
    induction fields with
    | nil => cases h
    | cons x fields ih =>
      obtain ⟨text, error'⟩ := x
      by_cases htext : text = ""
      · subst htext
        rw [require_cons_of_empty] at h
        cases h
        exact ⟨[], fields, rfl, fun x hx => absurd hx List.not_mem_nil⟩
      · rw [require_cons_of_ne htext] at h
        obtain ⟨pre, post, rfl, hpre⟩ := ih h
        exact ⟨(text, error') :: pre, post, rfl, List.forall_mem_cons.2 ⟨htext, hpre⟩⟩
  · rintro ⟨pre, post, rfl, hpre⟩
    induction pre with
    | nil => exact require_cons_of_empty error post
    | cons x pre ih =>
      rw [List.forall_mem_cons] at hpre
      rw [List.cons_append, require_cons_of_ne hpre.1]
      exact ih hpre.2

end Forms
