import Partimer.Jobs.Pictures
import Partimer.Screens.UseMyLocation

/-!
# From the location of a company to its marker

A company that posts a job where it is does so in five steps: a map screen processes the
location, the button writes its texts into the form, `addJobLocation` reads them back, GeoFire
stores them, and a marker loop reads what is stored.  This file follows one location through all
of them.

* `ReadsBack` — the texts of a location are read back as they were written.
* `Shown.of_pinned` — a company that has no other location can only show its latest post.
* `ownLocation_drawn` — **the marker of the job stands where the company was last seen**, in
  every order in which the database lists the children.
-/

namespace Partimer

open KeyTree CreateJobCompany JobLoops Transition

variable {C : Type} {P : Platform C}

/-! ## The form that the button fills in -/

/-- The texts that `Double.toString` writes of the location are those of its numbers, which are
in range, and no number has an empty text. -/
structure ReadsBack (P : Platform C) (location : Location C) : Prop where
  latitude : P.valueOf (P.toText location.latitude) = some location.latitude
  longitude : P.valueOf (P.toText location.longitude) = some location.longitude
  valid : P.coordinatesValid location.latitude location.longitude = true
  empty : P.valueOf "" = none

/-- A text with a number in it is not empty. -/
theorem ne_empty_of_valueOf (hempty : P.valueOf "" = none) {text : String} {c : C}
    (h : P.valueOf text = some c) : text ≠ "" := by
  rintro rfl
  rw [hempty] at h
  cases h

/-- The button in a process that has seen a location. -/
theorem setmyLocation_of_last {s : CompanyApp C} (hs : HoldsProcessed s) {location : Location C}
    (hlast : s.processed.getLast? = some location) (form : JobForm) :
    CreateJobCompany.setmyLocation P s.locationDetails form = .ok { form with
      etLati := P.toText location.latitude, etLong := P.toText location.longitude } := by
  have hlist : s.locationDetails = locationsLayout s.processed := hs
  obtain ⟨init, hinit⟩ := List.getLast?_eq_some_iff.1 hlast
  rw [hlist, hinit, locationsLayout_concat]
  rfl

/-- The form is then posted with that location, whoever is signed in. -/
theorem ReadsBack.exists_call {location : Location C} (h : ReadsBack P location) (company : Uid)
    {form : JobForm} (hpos : form.etPos ≠ "") (hsal : form.etSal ≠ "")
    (hpath : validPath form.etPos = true) :
    ∃ call : CompletedCall P, call.company = company ∧ call.form = { form with
      etLati := P.toText location.latitude, etLong := P.toText location.longitude } ∧
      call.location = ⟨location.latitude, location.longitude⟩ := by
  have hfilled : checkFormFields { form with
      etLati := P.toText location.latitude, etLong := P.toText location.longitude } = .ok () := by
    have hlati := ne_empty_of_valueOf h.empty h.latitude
    have hlong := ne_empty_of_valueOf h.empty h.longitude
    simp [checkFormFields, hpos, hsal, hlati, hlong]
  exact ⟨⟨company, _, ⟨location.latitude, location.longitude⟩,
    addJobLocation_run_of_reads P hfilled hpath ⟨h.latitude, h.longitude, h.valid⟩ []⟩,
    rfl, rfl, rfl⟩

/-! ## What is drawn of it -/

/-- A post under a key of its own lets no other pin break. -/
theorem NoBrokenPin.concat {run : List (CompletedCall P)} (h : NoBrokenPin run)
    {call : CompletedCall P} {k : String} (hk : childPath call.position = [k]) :
    NoBrokenPin (run ++ [call]) := by
  intro company k' hk'
  by_cases hcompany : company = call.company
  · subst hcompany
    rw [history_concat_self, pin_concat, hk, Pin.write]
    split
    · exact fun hbroken => by cases hbroken
    · exact h call.company k' hk'
  · rw [history_concat_ne hcompany]
    exact h company k' hk'

/-- A company that has no other location can only show its latest post. -/
theorem Shown.of_pinned {h : List (CompletedCall P)} {call : CompletedCall P} {k : String}
    (hk : childPath call.position = [k]) (hdetails : k ≠ "details")
    (hone : ∀ k' location, k' ≠ "details" → k' ≠ k → ¬ Stands k' h location) {vars : JobVars C}
    (hshown : Shown (h ++ [call]) vars) : vars = call.vars := by
  obtain ⟨⟨z, hz, hposition, hsalary⟩, hplace⟩ := hshown
  obtain rfl : call = z := by simpa using hz
  have hlocation : vars.location = call.location := by
    rcases hplace with ⟨k', hk', hstands⟩ | ⟨hall, -⟩
    · rcases stands_concat.1 hstands with ⟨-, hcall⟩ | ⟨hspares, hbefore⟩
      · exact hcall.symm
      · -- the post has not spared its own key
        have hne : k' ≠ k := by
          rintro rfl
          unfold Spares at hspares
          rw [hk] at hspares
          exact (hspares rfl).1 rfl
        exact absurd hbefore (hone k' _ hk' hne)
    · have hhead := hall call (by simp)
      rw [hk] at hhead
      exact absurd (Option.some.inj hhead) hdetails
  exact CompletedCall.vars_eq_iff.2 ⟨hposition.symm, hsalary.symm, hlocation.symm⟩

section Drawn

variable {run : List (CompletedCall P)} {call : CompletedCall P} {k : String} {t : DataSnapshot C}

/-- What is drawn of such a company is its latest post, also when the loop is cut short. -/
theorem vars_of_pinned (hk : childPath call.position = [k]) (hdetails : k ≠ "details")
    (hone : ∀ k' location, k' ≠ "details" → k' ≠ k →
      ¬ Stands k' (history call.company run) location)
    (ht : Delivers (jobsNode (runCalls (run ++ [call]))) t) {m : JobMarker C}
    (hm : m ∈ ((EmployeeMapActivity.onMapReadyJobs P t).run []).2)
    (hcompany : m.company = call.company.text) : m.vars = call.vars := by
  obtain ⟨n', hn', hv⟩ := mem_drawn P hm
  obtain ⟨company, n, z, htext, hz, hnode, hr⟩ :=
    (jobsTree_runCalls (run ++ [call])).of_mem ht hn'
  obtain rfl : company = call.company := Uid.ext_text (htext.trans hcompany)
  have hshown := hnode.shown hr hz hv
  rw [history_concat_self] at hshown
  exact hshown.of_pinned hk hdetails hone

/-- A marker is drawn for a company that posts under a key of its own, unless a pin is broken. -/
theorem exists_marker (hk : childPath call.position = [k])
    (ht : Delivers (jobsNode (runCalls (run ++ [call]))) t) (hB : NoBrokenPin run) :
    ∃ m ∈ ((EmployeeMapActivity.onMapReadyJobs P t).run []).2, m.company = call.company.text := by
  have htree := jobsTree_runCalls (run ++ [call])
  have hB' := hB.concat hk
  have hz : (history call.company (run ++ [call])).getLast? = some call := by
    rw [history_concat_self, List.getLast?_concat]
  obtain ⟨n, hn, hnode⟩ := htree.exists_node hz
  obtain ⟨m, hm, hr⟩ := ht.exists_of_mem_left hn
  obtain ⟨vars, hv⟩ := (hnode.read_ok_iff hr hz).2 (hB' call.company)
  exact ⟨_, mem_drawn_of_ok P ((htree.drawJobs_ok_iff ht []).2 hB') hm hv, rfl⟩

end Drawn

/-- **From the location to the marker.**  A company that has been located in the process presses
the button on a form with a position and a salary, and posts it.  If it has no location under
another position, every marker that a map then draws for it, in whatever order the children are
listed and also when the loop is cut short, carries this job at the last location processed; and
one is drawn as long as no company's pin is broken. -/
theorem ownLocation_drawn {tr : List (CompanyApp C × CompanyEvent C)} {s : CompanyApp C}
    (h : Trace (companyApp P) tr s) {location : Location C}
    (hlast : s.processed.getLast? = some location) (hback : ReadsBack P location) (company : Uid)
    {form : JobForm} {k : String} (hpath : validPath form.etPos = true)
    (hk : childPath form.etPos = [k]) (hdetails : k ≠ "details") (hsal : form.etSal ≠ "") :
    ∃ (form' : JobForm) (call : CompletedCall P),
      CreateJobCompany.setmyLocation P s.locationDetails form = .ok form' ∧
      call.company = company ∧ call.form = form' ∧
      ∀ run : List (CompletedCall P),
        (∀ k' location', k' ≠ "details" → k' ≠ k →
          ¬ Stands k' (history company run) location') →
        ∀ t, Delivers (jobsNode (runCalls (run ++ [call]))) t →
          (∀ m ∈ ((EmployeeMapActivity.onMapReadyJobs P t).run []).2, m.company = company.text →
            m.vars = ⟨location.latitude, location.longitude, form.etPos, form.etSal⟩) ∧
          (NoBrokenPin run →
            ∃ m ∈ ((EmployeeMapActivity.onMapReadyJobs P t).run []).2,
              m.company = company.text) := by
  have hpos : form.etPos ≠ "" := by
    intro hempty
    rw [hempty] at hk
    exact absurd hk (by simp [childPath])
  obtain ⟨call, rfl, hform, hlocation⟩ := hback.exists_call company hpos hsal hpath
  refine ⟨_, call, setmyLocation_of_last (holdsProcessed_of_trace h) hlast form, rfl, hform, ?_⟩
  intro run hone t ht
  have hcall : childPath call.position = [k] := by
    rw [CompletedCall.position, hform]
    exact hk
  refine ⟨?_, exists_marker hcall ht⟩
  intro m hm hcompany
  rw [vars_of_pinned hcall hdetails hone ht hm hcompany, CompletedCall.vars, hlocation,
    CompletedCall.position, CompletedCall.salary, hform]

/-! ## A company that is located -/

/-- The library at whole degrees, which also reads the texts that it writes. -/
def writtenDegrees : Platform Int :=
  { wholeDegrees with
    valueOf := fun text =>
      match text.toList.reverse with
      | '0' :: '.' :: cs => wholeDegrees.valueOf (String.ofList cs.reverse)
      | _ => wholeDegrees.valueOf text }

/-- The company has been located twice when it opens the form. -/
theorem located_runs : Runs (companyApp writtenDegrees) (companyApp writtenDegrees).start
    registeredCompany :=
  ⟨⟨rfl, by simp⟩, ⟨List.cons_ne_nil _ _, by simp⟩, ⟨List.cons_ne_nil _ _, by simp⟩, ⟨rfl, by simp⟩,
    ⟨_, rfl, rfl⟩, ⟨_, rfl⟩, ⟨List.cons_ne_nil _ _, by simp⟩, ⟨List.cons_ne_nil _ _, by simp⟩, rfl,
    trivial⟩

theorem located_last : (registeredCompany.foldl (companyApp writtenDegrees).next
    (companyApp writtenDegrees).start).processed.getLast? = some ⟨49, 3⟩ := rfl

theorem ownLocation_registeredCompany :
    ∃ (form' : JobForm) (call : CompletedCall writtenDegrees),
      CreateJobCompany.setmyLocation writtenDegrees (registeredCompany.foldl
        (companyApp writtenDegrees).next (companyApp writtenDegrees).start).locationDetails
        ⟨"Cook", "10", "", ""⟩ = .ok form' ∧
      call.company = acme ∧ call.form = form' ∧
      ∀ run : List (CompletedCall writtenDegrees),
        (∀ k' location', k' ≠ "details" → k' ≠ "Cook" →
          ¬ Stands k' (history acme run) location') →
        ∀ t, Delivers (jobsNode (runCalls (run ++ [call]))) t →
          (∀ m ∈ ((EmployeeMapActivity.onMapReadyJobs writtenDegrees t).run []).2,
            m.company = acme.text → m.vars = ⟨49, 3, "Cook", "10"⟩) ∧
          (NoBrokenPin run →
            ∃ m ∈ ((EmployeeMapActivity.onMapReadyJobs writtenDegrees t).run []).2,
              m.company = acme.text) :=
  ownLocation_drawn (Trace.of_events located_runs) located_last
    ⟨by decide, by decide, by decide, by decide⟩ acme (by decide) (by decide) (by decide)
    (by decide)

end Partimer
