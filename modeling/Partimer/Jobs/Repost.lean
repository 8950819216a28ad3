import Partimer.Jobs.Independence

/-!
# Posting a position again

A company that posts a position it has posted before writes to the same two paths again.
The path of the position can lie anywhere with respect to that of the details: beside it,
at it, below it, or above it, at the node of the company.

* `issued_of_canPost` — a form that is filled in and can be read issues both writes.
* `posts_again` — both writes, made again.
* `applyAll_posts` — whatever calls for one position came before, a call that posts
  leaves what it leaves alone.
* `repost_replaces` — two calls in a row.
-/

namespace Partimer

open KeyTree CreateJobCompany

variable {C : Type} {P : Platform C} {company : Uid}

theorem issued_of_canPost {form : JobForm} (hfilled : checkFormFields form = .ok ())
    (hcan : CanPost P (some company) form) :
    ∃ location, issued P company form = [locationWrite P company form.etPos location,
      detailsWrite company form.etPos form.etSal] := by
  rcases issued_cases P company form with hboth | ⟨-, hnot⟩
  · exact hboth
  · exact absurd ⟨hfilled, hcan⟩ hnot

/-- Both writes made again, for the same company and position. -/
theorem posts_again (company : Uid) (position salary salary' : String)
    (location location' : GeoLocation C) (db : Database C) :
    applyAll [locationWrite P company position location',
        detailsWrite company position salary']
      (applyAll [locationWrite P company position location,
        detailsWrite company position salary] db) =
      applyAll [locationWrite P company position location',
        detailsWrite company position salary'] db :=
  congrArg some (store_pair_again (["Jobs", company.text] ++ childPath position)
    (["Jobs", company.text] ++ ["details"]) _ _ _ _ db)

/-- A call that posts, after another one for the same position. -/
theorem applyAll_issued {first second : JobForm} (hposition : first.etPos = second.etPos)
    (hfilled : checkFormFields second = .ok ()) (hcan : CanPost P (some company) second)
    (db : Database C) :
    applyAll (issued P company second) (applyAll (issued P company first) db) =
      applyAll (issued P company second) db := by
  obtain ⟨location', hsecond⟩ := issued_of_canPost hfilled hcan
  rcases issued_cases P company first with ⟨location, hfirst⟩ | ⟨hnone, -⟩
  · rw [hsecond, hfirst, hposition]
    exact posts_again company second.etPos first.etSal second.etSal location location' db
  · -- the first call was refused, or it threw
    rw [hnone]
    rfl

/-- **Any number of posts.**  A call that posts, after any calls of the company for the
same position. -/
theorem applyAll_posts {earlier : List JobForm} {last : JobForm}
    (hposition : ∀ form ∈ earlier, form.etPos = last.etPos)
    (hfilled : checkFormFields last = .ok ()) (hcan : CanPost P (some company) last)
    (db : Database C) :
    applyAll (issued P company last) (applyAll (earlier.flatMap (issued P company)) db) =
      applyAll (issued P company last) db := by
  induction earlier generalizing db with
  | nil => rfl
  | cons first earlier ih =>
    rw [List.forall_mem_cons] at hposition
    have happend : applyAll ((first :: earlier).flatMap (issued P company)) db =
        applyAll (earlier.flatMap (issued P company))
          (applyAll (issued P company first) db) := by
      rw [List.flatMap_cons]
      exact List.foldl_append
    rw [happend, ih hposition.2]
    exact applyAll_issued hposition.1 hfilled hcan db

/-- **Posting again replaces the earlier post.**  Whatever the database held, whatever
path the position makes, and whatever else the first form held, the writes of two calls in
a row leave the database, and with it the `Jobs` tree, that those of the second one leave
alone. -/
theorem repost_replaces {first second : JobForm} (hposition : first.etPos = second.etPos)
    (hfilled : checkFormFields second = .ok ()) (hcan : CanPost P (some company) second)
    (db : Database C) :
    applyAll (issued P company first ++ issued P company second) db =
      applyAll (issued P company second) db := by
  have happend : applyAll (issued P company first ++ issued P company second) db =
      applyAll (issued P company second) (applyAll (issued P company first) db) :=
    List.foldl_append
  rw [happend]
  exact applyAll_issued hposition hfilled hcan db

/-- A post at the node of the company itself, above the details. -/
def cookForm : JobForm := ⟨"/", "10", "48", "2"⟩

/-- The same position again. -/
def chefForm : JobForm := ⟨"/", "20", "49", "3"⟩

theorem canPost_chefForm : CanPost wholeDegrees (some acme) chefForm :=
  ⟨rfl, by decide, ⟨49, 3⟩, ⟨by decide, by decide, by decide⟩⟩

theorem repost_chefForm :
    applyAll (issued wholeDegrees acme cookForm ++ issued wholeDegrees acme chefForm)
        (some (.leaf (.text "old"))) =
      applyAll (issued wholeDegrees acme chefForm) (some (.leaf (.text "old"))) := by
  have hposition : cookForm.etPos = chefForm.etPos := rfl
  have hfilled : checkFormFields chefForm = .ok () := by decide
  exact repost_replaces hposition hfilled canPost_chefForm _

end Partimer
