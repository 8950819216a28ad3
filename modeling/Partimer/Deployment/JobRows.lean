import Partimer.Deployment.Answers
import Partimer.Deployment.DatabaseSchema
import Partimer.Screens.ViewJobs

/-!
# The job list of a deployment

The rows of the job list come from the `details` children that the list loop finds in the
snapshots its process was delivered.  A position is used as a path, and one that starts with
`details` is written over this child; between its two writes, or after the first if the process
ends, the child is no job.

* `AvoidsDetails` — no position posted starts so.
* `TitleIssued`, `titles_of_trace` — the `details` of a company are then those of one of its
  posts, in every state of the deployment.
* `ends_deliverJobs` — **no snapshot ends a process in the list loop**.
* `rows_of_trace` — **every row of every list is one post**: position and salary were in one form
  that one company has posted.
-/

namespace Partimer

open KeyTree CreateJobCompany JobLoops Registration Transition

variable {C : Type} {P : Platform C} {s : Deployment C}
  {tr : List (Deployment C × Nat × DeviceEvent C)}

/-! ## Posts that avoid `details` -/

/-- A position that is posted does not start with the path segment `details`. -/
def AvoidsDetails (_ : Deployment C) (e : Nat × DeviceEvent C) : Prop :=
  ∀ form, e.2 = .createJob form → (childPath form.etPos).head? ≠ some "details"

/-- The company has posted the form at a step of the run. -/
def PostedIn (P : Platform C) (tr : List (Deployment C × Nat × DeviceEvent C)) (company : Uid)
    (form : JobForm) : Prop := ∃ x ∈ tr, ∃ location, PostsJob P x.1 x.2 company form location

/-- If the company has `details`, they are those of one of its posts. -/
def TitleIssued (P : Platform C) (tr : List (Deployment C × Nat × DeviceEvent C)) (company : Uid)
    (t : DataSnapshot C) : Prop :=
  ∀ d, child t "details" = some d →
    ∃ form, PostedIn P tr company form ∧ d = newPost form.etPos form.etSal

/-- A write to another part of the database than `Jobs` leaves the node of a company alone. -/
theorem companyNode_apply_of_ne {w : Write C} {k : String} {rest : List String}
    (hpath : w.path = k :: rest) (hk : k ≠ "Jobs") (db : Database C) (company : Uid) :
    companyNode (w.apply db) company = companyNode db company := by
  unfold companyNode jobsNode Write.apply
  rw [hpath]
  simp only [fetch_cons, child_store_ne (Ne.symm hk)]

/-- A location that avoids `details` leaves them, or takes them away. -/
theorem details_storeLocation {path : List String} (hpath : path.head? ≠ some "details")
    (location : GeoLocation C) (t : DataSnapshot C) :
    child (some (store path (locationNode P location) t)) "details" = none ∨
      child (some (store path (locationNode P location) t)) "details" = child t "details" := by
  cases path with
  | nil => exact Or.inl rfl
  | cons k rest =>
    have hk : k ≠ "details" := fun heq => hpath (by rw [heq]; rfl)
    exact Or.inr (child_store_ne (Ne.symm hk) _ _ _)

/-- **One write** that was issued in such a run. -/
theorem TitleIssued.apply {w : Write C} (hw : IssuedIn P tr w) (havoids : Meets AvoidsDetails tr)
    {db : Database C} (h : ∀ company, TitleIssued P tr company (companyNode db company))
    (company : Uid) : TitleIssued P tr company (companyNode (w.apply db) company) := by
  obtain ⟨x, hx, hissued⟩ := hw
  cases hissued with
  | @location company' form location hposts =>
    by_cases hc : company = company'
    · subst hc
      intro d hd
      rw [locationWrite, companyNode_apply_self] at hd
      rcases details_storeLocation (havoids x hx form hposts.1) location
        (companyNode db company) with hnone | hsame
      · rw [hnone] at hd
        cases hd
      · rw [hsame] at hd
        exact h company d hd
    · rw [locationWrite, companyNode_apply_ne hc]
      exact h company
  | @details company' form location hposts =>
    by_cases hc : company = company'
    · subst hc
      intro d hd
      rw [detailsWrite, companyNode_apply_self, child_store_self] at hd
      exact ⟨form, ⟨x, hx, location, hposts⟩, (Option.some.inj hd).symm⟩
    · rw [detailsWrite, companyNode_apply_ne hc]
      exact h company
  | profile hregisters =>
    rw [companyNode_apply_of_ne rfl (by decide)]
    exact h company
  | type hregisters =>
    rw [companyNode_apply_of_ne rfl (by decide)]
    exact h company

/-- **The `details` of a company are one of its posts.** -/
theorem titles_of_trace (h : Trace (deployment P) tr s) (havoids : Meets AvoidsDetails tr)
    (company : Uid) : TitleIssued P tr company (companyNode s.reg.db company) := by
  refine holds_of_writes (I := fun db => ∀ company, TitleIssued P tr company
    (companyNode db company)) h ?_ ?_ company
  · intro company d hd
    cases hd
  · intro w db hw hdb
    exact TitleIssued.apply hw havoids hdb

/-! ## Snapshots -/

/-- The `details` children of the companies in the snapshot are posts of theirs. -/
def JobsIssued (P : Platform C) (tr : List (Deployment C × Nat × DeviceEvent C))
    (t : DataSnapshot C) : Prop :=
  ∀ data ∈ children t, ∀ d, ("details", d) ∈ data.2.children →
    ∃ company form, company.text = data.1 ∧ PostedIn P tr company form ∧
      d = newPost form.etPos form.etSal

theorem JobsIssued.mono {tr' : List (Deployment C × Nat × DeviceEvent C)} {t : DataSnapshot C}
    (h : JobsIssued P tr t) (hsub : tr ⊆ tr') : JobsIssued P tr' t := by
  intro data hdata d hd
  obtain ⟨company, form, hk, ⟨x, hx, hposts⟩, rfl⟩ := h data hdata d hd
  exact ⟨company, form, hk, ⟨x, hsub hx, hposts⟩, rfl⟩

/-- The node of a company in a snapshot is that of an account, its children in some order. -/
theorem exists_companyNode (h : Trace (deployment P) tr s) {t : DataSnapshot C}
    (ht : Delivers (jobsNode s.reg.db) t) {k : String} {m : Node String (Value C)}
    (hm : (k, m) ∈ children t) : ∃ company n, company.text = k ∧
      companyNode s.reg.db company = some n ∧ Reordered n m ∧ (keys n.children).Nodup := by
  obtain ⟨n, hn, hr⟩ := ht.exists_of_mem hm
  have hholds := schema_of_trace h
  have hdistinct := hholds.distinct
  have hnode : child (jobsNode s.reg.db) k = some n :=
    lookup_of_mem (hdistinct ["Jobs"]) hn
  have hjobs := hholds.child "Jobs"
  by_cases hk : IsAccount s.reg.accounts k
  · obtain ⟨a, -, rfl⟩ := hk
    refine ⟨a.account, n, rfl, hnode, hr, ?_⟩
    have hkeys := hdistinct ["Jobs", a.account.text]
    have hfetch : fetch s.reg.db ["Jobs", a.account.text] = some n := hnode
    rwa [hfetch] at hkeys
  · have hnone : child (jobsNode s.reg.db) k = none := hjobs.child_eq_none hk
    rw [hnone] at hnode
    cases hnode

/-- **What can be read of the jobs** in a state of the deployment. -/
theorem jobsIssued_of_delivers (h : Trace (deployment P) tr s) (havoids : Meets AvoidsDetails tr)
    {t : DataSnapshot C} (ht : Delivers (jobsNode s.reg.db) t) : JobsIssued P tr t := by
  rintro ⟨k, m⟩ hm d hd
  obtain ⟨company, n, rfl, hnode, hr, hnodup⟩ := exists_companyNode h ht hm
  have htitle := titles_of_trace h havoids company
  rw [hnode] at htitle
  obtain ⟨form, hposted, rfl⟩ :=
    htitle d (lookup_of_mem hnodup (hr.children_perm.mem_iff.2 hd))
  exact ⟨company, form, rfl, hposted, rfl⟩

/-- The list loop can read such a snapshot. -/
theorem JobsIssued.listReadable {t : DataSnapshot C} (h : JobsIssued P tr t) :
    ListReadable P t := by
  rintro data hdata ⟨k, d⟩ hd rfl
  obtain ⟨company, form, -, -, rfl⟩ := h data hdata d hd
  exact ⟨_, CompanyNode.detailsOf_newPost form.etPos form.etSal⟩

/-- The jobs it lists are posts. -/
theorem JobsIssued.mem_snapshotJobs {t : DataSnapshot C} (h : JobsIssued P tr t)
    {job : String × String} (hjob : job ∈ snapshotJobs P t) :
    ∃ company form, PostedIn P tr company form ∧ job = (form.etPos, form.etSal) := by
  simp only [snapshotJobs, companyJobs, List.mem_flatMap] at hjob
  obtain ⟨data, hdata, ⟨k, d⟩, hd, hmem⟩ := hjob
  by_cases hk : k = "details"
  · subst hk
    obtain ⟨company, form, -, hposted, rfl⟩ := h data hdata d hd
    refine ⟨company, form, hposted, ?_⟩
    simpa [childJobs, CompanyNode.detailsOf_newPost, Except.toOption] using hmem
  · simp [childJobs, hk] at hmem

/-! ## The list -/

/-- Every process has been answered such snapshots only. -/
theorem jobs_of_trace (h : Trace (deployment P) tr s) (havoids : Meets AvoidsDetails tr)
    (c : Nat) : (s.processes c).Answers (JobsIssued P tr) (fun _ => True) := by
  refine (answers_of_trace (J := fun tr t => Meets AvoidsDetails tr → JobsIssued P tr t)
    (G := fun _ _ => True) ?_ ?_ ?_ ?_ h c).mono (fun t ht => ht havoids) fun _ _ => trivial
  · intro tr x t ht hmeets
    exact (ht (meets_append.1 hmeets).1).mono (List.subset_append_left _ _)
  · exact fun tr s hrun t ht hmeets => jobsIssued_of_delivers hrun hmeets ht
  · exact fun _ _ _ _ => trivial
  · exact fun _ _ _ _ => trivial

/-- **No snapshot of the jobs ends a process in the list loop**, in any run of the deployment
whose positions avoid `details`, however the writes are mixed, delayed and lost. -/
theorem ends_deliverJobs (h : Trace (deployment P) tr s) (havoids : Meets AvoidsDetails tr)
    {c i : Nat} (he : s.Enabled c (.screen (.deliverJobs i))) :
    s.ends P c (.screen (.deliverJobs i)) = false := by
  obtain ⟨record, hi⟩ := he
  have hissued := (jobs_of_trace h havoids c).jobsAnswered record (List.mem_of_getElem? hi)
  have hok : ((EmployeeMapActivity.onCreateJobs P record).run (s.processes c).lists).1 = .ok () :=
    (listJobs_ok_iff P).2 hissued.listReadable
  simp only [Deployment.ends, ScreenEvent.session, Session.ends, hi]
  show (!((EmployeeMapActivity.onCreateJobs P record).run (s.processes c).lists).1.isOk) = false
  rw [hok]
  rfl

theorem marketDay_avoidsDetails : Meets AvoidsDetails
    (steps (deployment wholeDegrees) (deployment wholeDegrees).start marketDay) := by
  refine meets_steps_of_mem ?_ _
  rintro s ⟨c, e⟩ he form rfl
  obtain ⟨-, rfl⟩ := posted_marketDay he
  decide

/-- **Every row is one post.**  In every state of such a run, each row that a list view of any
device asks for can be shown, and is the position and salary of one form that one company has
posted. -/
theorem rows_of_trace (h : Trace (deployment P) tr s) (havoids : Meets AvoidsDetails tr)
    (c : Nat) : ∀ row ∈ CustomAdapter.rows (s.processes c).lists,
      ∃ company form, PostedIn P tr company form ∧ row = .ok (form.etPos, form.etSal) := by
  obtain ⟨tr', _, hsession, rfl⟩ := (session_simulation P c).trace h
  have hrows := (filled_of_trace hsession).rows
  intro row hrow
  have hview : (s.view c).process = s.processes c := rfl
  rw [← hview, hrows] at hrow
  obtain ⟨job, hjob, rfl⟩ := List.mem_map.1 hrow
  obtain ⟨t, ht, hmem⟩ := List.mem_flatMap.1 hjob
  obtain ⟨company, form, hposted, rfl⟩ :=
    ((jobs_of_trace h havoids c).jobsDelivered t ht).mem_snapshotJobs hmem
  exact ⟨company, form, hposted, rfl⟩

theorem rows_marketDay :
    let s := marketDay.foldl (deployment wholeDegrees).next (deployment wholeDegrees).start
    CustomAdapter.rows (s.processes 1).lists = [.ok ("Cook", "10")] ∧
      ∃ company form, PostedIn wholeDegrees (steps (deployment wholeDegrees)
        (deployment wholeDegrees).start marketDay) company form ∧
        (.ok ("Cook", "10") : Except Exn (String × String)) = .ok (form.etPos, form.etSal) :=
  ⟨rfl, rows_of_trace (Trace.of_events marketDay_runs) marketDay_avoidsDetails 1 _
    (List.mem_singleton_self _)⟩

end Partimer
