import Partimer.Jobs.MapLoops
import Partimer.Jobs.CreateJob

/-!
# The list and the two maps agree

The list loop adds a job as soon as it meets a `details` node; the marker loops collect
the job and the coordinates in variables and add the marker after the last child.  On
snapshots whose company nodes are as the app writes them the three come to the same.

* `WellShaped` — a company's node: one `details` child with a job, before or after any
  number of other children with coordinates.
* `companyJobs_of_split`, `WellShaped.readCompany` — what the list loop and the marker
  loops make of such a node.
* `loops_agree` — all three loops finish, and what the list shows is what the markers say.
-/

namespace Partimer

open KeyTree JobLoops CreateJobCompany

variable {C : Type} (P : Platform C)

/-! ## Company nodes as the app writes them -/

/-- A number, or a text that spells one. -/
def HoldsNumber (d : DataSnapshot C) : Prop :=
  ∃ c, d = some (.leaf (.number c)) ∨ ∃ text, d = some (.leaf (.text text)) ∧
    P.valueOf text = some c

/-- A node with a position and a salary. -/
def HoldsJob (n : Node String (Value C)) : Prop :=
  (∃ position, child (some n) "Position" = some position) ∧
    ∃ salary, child (some n) "Salary" = some salary

/-- A node with coordinates. -/
def HoldsLocation (n : Node String (Value C)) : Prop :=
  HoldsNumber P (fetch (some n) ["l", "0"]) ∧ HoldsNumber P (fetch (some n) ["l", "1"])

/-- One child `details` with a job; every other child has coordinates. -/
def WellShaped (data : Node String (Value C)) : Prop :=
  ∃ pre n post, data.children = pre ++ ("details", n) :: post ∧ HoldsJob n ∧
    ∀ x ∈ pre ++ post, x.1 ≠ "details" ∧ HoldsLocation P x.2

variable {P}

theorem valueToString_some (n : Node String (Value C)) :
    ∃ text, DataSnapshot.valueToString P (some n) = .ok text := by
  cases n with
  | leaf v => cases v <;> exact ⟨_, rfl⟩
  | inner cs => exact ⟨_, rfl⟩

theorem HoldsNumber.doubleValue {d : DataSnapshot C} (h : HoldsNumber P d) :
    ∃ c, DataSnapshot.doubleValue P d = .ok c := by
  obtain ⟨c, rfl | ⟨text, rfl, htext⟩⟩ := h
  · exact ⟨c, rfl⟩
  · refine ⟨c, ?_⟩
    simp only [DataSnapshot.doubleValue, htext]

theorem HoldsJob.detailsOf {n : Node String (Value C)} (h : HoldsJob n) :
    ∃ job, detailsOf P n = .ok job := by
  obtain ⟨⟨position, hposition⟩, salary, hsalary⟩ := h
  obtain ⟨p, hp⟩ := valueToString_some (P := P) position
  obtain ⟨s, hs⟩ := valueToString_some (P := P) salary
  refine ⟨(p, s), ?_⟩
  rw [JobLoops.detailsOf, hposition, hsalary, hp, hs]
  rfl

theorem HoldsLocation.locationOf {n : Node String (Value C)} (h : HoldsLocation P n) :
    ∃ location, locationOf P n = .ok location := by
  obtain ⟨latitude, hlatitude⟩ := h.1.doubleValue
  obtain ⟨longitude, hlongitude⟩ := h.2.doubleValue
  refine ⟨⟨latitude, longitude⟩, ?_⟩
  rw [JobLoops.locationOf, hlatitude, hlongitude]
  rfl

/-! ## What the loops make of such a node -/

theorem childJobs_eq_nil {x : String × Node String (Value C)} (h : x.1 ≠ "details") :
    childJobs P x = [] := if_neg h

/-- The list loop adds one job, wherever `details` stands among the children. -/
theorem companyJobs_of_split {data : String × Node String (Value C)}
    {pre post : List (String × Node String (Value C))} {n : Node String (Value C)}
    (hsplit : data.2.children = pre ++ ("details", n) :: post)
    (hothers : ∀ x ∈ pre ++ post, x.1 ≠ "details") {job : String × String}
    (hjob : JobLoops.detailsOf P n = .ok job) : JobLoops.companyJobs P data = [job] := by
  have hnil : ∀ xs : List (String × Node String (Value C)), (∀ x ∈ xs, x.1 ≠ "details") →
      xs.flatMap (childJobs P) = [] := by
    intro xs hxs
    rw [List.flatMap_eq_nil_iff]
    exact fun x hx => childJobs_eq_nil (hxs x hx)
  have hdetails : childJobs P ("details", n) = [job] := by
    rw [childJobs, if_pos rfl, hjob]
    rfl
  rw [List.forall_mem_append] at hothers
  rw [JobLoops.companyJobs, hsplit, List.flatMap_append, List.flatMap_cons, hnil pre hothers.1,
    hnil post hothers.2, hdetails]
  rfl

/-- The marker loops read it through. -/
theorem WellShaped.readCompany {data : Node String (Value C)} (h : WellShaped P data) :
    ∃ vars, readCompany P data = .ok vars := by
  obtain ⟨pre, n, post, hsplit, hjob, hothers⟩ := h
  rw [readCompany_ok_iff, hsplit]
  have hdetails : childOutcome P ("details", n) = .ok () := by
    obtain ⟨job, hjob⟩ := hjob.detailsOf (P := P)
    rw [childOutcome, if_pos rfl, hjob]
    rfl
  have hlocation : ∀ x ∈ pre ++ post, childOutcome P x = .ok () := by
    intro x hx
    obtain ⟨hk, hloc⟩ := hothers x hx
    obtain ⟨location, hloc⟩ := hloc.locationOf
    rw [childOutcome, if_neg hk, hloc]
    rfl
  rw [List.forall_mem_append] at hlocation
  exact List.forall_mem_append.2 ⟨hlocation.1, List.forall_mem_cons.2 ⟨hdetails, hlocation.2⟩⟩

/-- **One company.**  Both make the same title of it. -/
theorem WellShaped.agree {data : String × Node String (Value C)} (h : WellShaped P data.2) :
    ∃ job vars, JobLoops.companyJobs P data = [job] ∧
      JobLoops.readCompany P data.2 = .ok vars ∧ job = (vars.position, vars.salary) := by
  obtain ⟨vars, hvars⟩ := h.readCompany
  obtain ⟨pre, n, post, hsplit, hjob, hothers⟩ := h
  obtain ⟨job, hjob⟩ := hjob.detailsOf (P := P)
  have hkeys : ∀ x ∈ pre ++ post, x.1 ≠ "details" := fun x hx => (hothers x hx).1
  have htitle := readCompany_title_of_split P hsplit
    (fun x hx => hkeys x (List.mem_append_right _ hx)) hvars
  refine ⟨job, vars, companyJobs_of_split hsplit hkeys hjob, hvars, ?_⟩
  exact Except.ok.inj (hjob.symm.trans htitle)

/-! ## All companies -/

/-- What a row of the list says, in the words of a marker. -/
def rowTitle (job : String × String) : String := job.1 ++ " -> " ++ job.2

/-- **The marker loop against the jobs listed.**  By induction over the companies. -/
theorem drawCompanies_agree (companies : List (String × Node String (Value C)))
    (h : ∀ data ∈ companies, WellShaped P data.2) :
    ∃ drawn : List (JobMarker C),
      (∀ ms, (Code.forEach companies (drawCompany P)).run ms = (.ok (), ms ++ drawn)) ∧
      (companies.flatMap (JobLoops.companyJobs P)).map rowTitle =
        drawn.map fun m => m.vars.markerOptions.title := by
  induction companies with
  | nil =>
    refine ⟨[], fun ms => ?_, rfl⟩
    rw [List.append_nil]
    rfl
  | cons data companies ih =>
    rw [List.forall_mem_cons] at h
    obtain ⟨drawn, hrun, htitles⟩ := ih h.2
    obtain ⟨job, vars, hjobs, hvars, rfl⟩ := h.1.agree
    refine ⟨⟨data.1, vars⟩ :: drawn, ?_, ?_⟩
    · intro ms
      have hfirst : (drawCompany P data).run ms = (.ok (), ms ++ [⟨data.1, vars⟩]) := by
        rw [drawCompany, hvars]
        rfl
      rw [Code.forEach_cons, Code.run_bind_ok hfirst, hrun, List.append_assoc]
      rfl
    · rw [List.flatMap_cons, hjobs, List.map_append, htitles]
      rfl

theorem listReadable_of_wellShaped {s : DataSnapshot C}
    (h : ∀ data ∈ children s, WellShaped P data.2) : ListReadable P s := by
  intro data hdata data1 hdata1 hk
  obtain ⟨pre, n, post, hsplit, hjob, hothers⟩ := h data hdata
  rw [hsplit] at hdata1
  rcases List.mem_append.1 hdata1 with hpre | hpost
  · exact absurd hk (hothers data1 (List.mem_append_left _ hpre)).1
  · rcases List.mem_cons.1 hpost with rfl | hpost
    · exact hjob.detailsOf
    · exact absurd hk (hothers data1 (List.mem_append_right _ hpost)).1

/-- **The list and the two maps agree** on every snapshot of well-shaped company nodes. -/
theorem loops_agree {s : DataSnapshot C} (h : ∀ data ∈ children s, WellShaped P data.2) :
    ∃ (drawn : List (JobMarker C)) (jobs : List (String × String)),
      (∀ ms, (EmployeeMapActivity.onMapReadyJobs P s).run ms = (.ok (), ms ++ drawn)) ∧
      (∀ ms, (BossMapActivity.onMapReadyJobs P s).run ms = (.ok (), ms ++ drawn)) ∧
      (∀ l, (EmployeeMapActivity.onCreateJobs P s).run l = (.ok (), l.append jobs)) ∧
      jobs.length = drawn.length ∧
      jobs.map rowTitle = drawn.map fun m => m.vars.markerOptions.title := by
  obtain ⟨drawn, hrun, htitles⟩ := drawCompanies_agree (children s) h
  refine ⟨drawn, snapshotJobs P s, hrun, hrun,
    listJobs_run P (listReadable_of_wellShaped h), ?_, htitles⟩
  have hlength := congrArg List.length htitles
  rwa [List.length_map, List.length_map] at hlength

/-- Two companies: one with two locations around its details, one with none. -/
def twoCompanies : DataSnapshot Int :=
  some (.inner [
    ("acme", .inner [("Baker", locationNode wholeDegrees ⟨48, 2⟩),
      ("details", newPost "Cook" "10"), ("Cook", locationNode wholeDegrees ⟨37, -122⟩)]),
    ("beta", .inner [("details", newPost "Driver" "12")])])

theorem holdsJob_newPost (position salary : String) :
    HoldsJob (newPost position salary : Node String (Value C)) := ⟨⟨_, rfl⟩, _, rfl⟩

theorem holdsLocation_locationNode (location : GeoLocation C) :
    HoldsLocation P (locationNode P location) := ⟨⟨_, Or.inl rfl⟩, _, Or.inl rfl⟩

theorem loops_agree_twoCompanies :
    ∃ (drawn : List (JobMarker Int)) (jobs : List (String × String)),
      (∀ ms, (EmployeeMapActivity.onMapReadyJobs wholeDegrees twoCompanies).run ms =
        (.ok (), ms ++ drawn)) ∧
      (∀ ms, (BossMapActivity.onMapReadyJobs wholeDegrees twoCompanies).run ms =
        (.ok (), ms ++ drawn)) ∧
      (∀ l, (EmployeeMapActivity.onCreateJobs wholeDegrees twoCompanies).run l =
        (.ok (), l.append jobs)) ∧
      jobs.length = drawn.length ∧
      jobs.map rowTitle = drawn.map fun m => m.vars.markerOptions.title := by
  refine loops_agree ?_
  intro data hdata
  rcases List.mem_cons.1 hdata with rfl | hdata
  · refine ⟨[("Baker", _)], _, [("Cook", _)], rfl, holdsJob_newPost _ _, ?_⟩
    intro x hx
    rcases List.mem_cons.1 hx with rfl | hx
    · exact ⟨by decide, holdsLocation_locationNode _⟩
    · obtain rfl := List.mem_singleton.1 hx
      exact ⟨by decide, holdsLocation_locationNode _⟩
  · obtain rfl := List.mem_singleton.1 hdata
    exact ⟨[], _, [], rfl, holdsJob_newPost _ _, fun _ hx => absurd hx List.not_mem_nil⟩

end Partimer
