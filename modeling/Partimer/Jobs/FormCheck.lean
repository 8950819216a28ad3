import Partimer.Jobs.CreateJob

/-!
# The check of the job form

`checkFormFields` asks that no field is empty, and no more; what it lets through, the
rest of `addJobLocation` reads as numbers, coordinates and a path.

* `issuesBothOrNone` — however a call ends, it has issued both writes or none.
* `completes_iff_canPost` — a form that passed the check is posted exactly if the rest of
  the method can read it.
-/

namespace Partimer

open KeyTree CreateJobCompany

variable {C : Type} (P : Platform C)

/-! ## Both writes or none -/

/-- **Both writes or none.**  A call that gets through has issued the location at
`Jobs/<uid>/<position>` and then the details at `Jobs/<uid>/details`; one that the check
refuses, or that an exception leaves, has issued nothing. -/
theorem issuesBothOrNone (currentUser : Option Uid) (form : JobForm) :
    (∃ company location, currentUser = some company ∧ checkFormFields form = .ok () ∧
      ReadsLocation P form location ∧
      (addJobLocation P currentUser form).run [] = (.ok .welcomeCompany,
        [⟨["Jobs", company.text] ++ childPath form.etPos, locationNode P location⟩,
          ⟨["Jobs", company.text, "details"], newPost form.etPos form.etSal⟩])) ∨
    (∃ field error, checkFormFields form = .error (field, error) ∧
      (addJobLocation P currentUser form).run [] = (.error (.refused field error), [])) ∨
    ∃ e, checkFormFields form = .ok () ∧
      (addJobLocation P currentUser form).run [] = (.error (.thrown e), []) := by
  rcases addJobLocation_run P currentUser form [] with
    ⟨company, location, huser, hcheck, -, hreads, hrun⟩ | hrefused | ⟨e, hcheck, -, hrun⟩
  · exact Or.inl ⟨company, location, huser, hcheck, hreads, hrun⟩
  · exact Or.inr (Or.inl hrefused)
  · exact Or.inr (Or.inr ⟨e, hcheck, hrun⟩)

/-! ## What the check lets through -/

variable {P}

/-- **When a form that passed the check is posted.** -/
theorem completes_iff_canPost (company : Uid) {form : JobForm}
    (h : checkFormFields form = .ok ()) :
    (∃ screen, ((addJobLocation P (some company) form).run []).1 = .ok screen) ↔
      CanPost P (some company) form := by
  rcases addJobLocation_run P (some company) form [] with
    ⟨_, location, -, -, hpath, hreads, hrun⟩ | ⟨_, _, hrefused, -⟩ | ⟨e, -, hnot, hrun⟩
  · rw [hrun]
    exact iff_of_true ⟨_, rfl⟩ ⟨rfl, hpath, location, hreads⟩
  · cases h.symm.trans hrefused
  · rw [hrun]
    refine iff_of_false ?_ hnot
    rintro ⟨screen, hscreen⟩
    cases hscreen

theorem completes_cook :
    ∃ screen, ((addJobLocation wholeDegrees (some acme) ⟨"Cook", "10", "37", "-122"⟩).run []).1 =
      .ok screen :=
  (completes_iff_canPost acme (by decide)).2
    ⟨rfl, by decide, ⟨37, -122⟩, by decide, by decide, by decide⟩

/-- A latitude in words passes the check, and the method throws. -/
theorem not_completes_of_checked : ¬ ∀ (company : Uid) (form : JobForm),
    checkFormFields form = .ok () →
      ∃ screen, ((addJobLocation wholeDegrees (some company) form).run []).1 = .ok screen := by
  intro h
  obtain ⟨screen, hscreen⟩ := h acme ⟨"Cook", "10", "north", "-122"⟩ (by decide)
  cases hscreen

end Partimer
