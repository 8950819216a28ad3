import Partimer.Deployment.JobRows

/-!
# The markers of a deployment

A post is two writes, and the server may be read between them, or the second may be lost with the
process.  What the marker loops make of such a database rests on the order of the queues: the
details of a job are never there before its location.

* `PostsPlain` — the positions posted are single path segments other than `details`.
* `JobChild`, `children_of_trace` — every child of a company's node is one write of one post.
* `Pinned`, `pinned_of_trace` — **a company with a node has a location**, whatever waits, is
  lost, or is sent by other devices in between.
* `markers_of_trace` — **every marker stands at a place that its company has posted**, under the
  title of one of its posts unless the snapshot has no `details` for it, and the marker loops get
  through.
-/

namespace Partimer

open KeyTree CreateJobCompany JobLoops Registration Transition

variable {C : Type} {P : Platform C} {s : Deployment C}
  {tr : List (Deployment C × Nat × DeviceEvent C)}

/-! ## The children of a company's node -/

/-- A position that is posted is a single path segment, and not `details`. -/
def PostsPlain (_ : Deployment C) (e : Nat × DeviceEvent C) : Prop :=
  ∀ form, e.2 = .createJob form → ∃ k, k ≠ "details" ∧ childPath form.etPos = [k]

/-- The company has posted the form, with these coordinates, at a step of the run. -/
def PostedAt (P : Platform C) (tr : List (Deployment C × Nat × DeviceEvent C)) (company : Uid)
    (form : JobForm) (location : GeoLocation C) : Prop :=
  ∃ x ∈ tr, PostsJob P x.1 x.2 company form location

/-- The child is the title of a post of the company, or the location of one under its
position. -/
inductive JobChild (P : Platform C) (tr : List (Deployment C × Nat × DeviceEvent C))
    (company : Uid) : String × Node String (Value C) → Prop
  | title {form : JobForm} (h : PostedIn P tr company form) :
      JobChild P tr company ("details", newPost form.etPos form.etSal)
  | location {form : JobForm} {location : GeoLocation C} {k : String} (hk : k ≠ "details")
      (hpath : childPath form.etPos = [k]) (h : PostedAt P tr company form location) :
      JobChild P tr company (k, locationNode P location)

/-- All children are such ones. -/
def JobChildren (P : Platform C) (tr : List (Deployment C × Nat × DeviceEvent C)) (company : Uid)
    (t : DataSnapshot C) : Prop := ∀ k d, child t k = some d → JobChild P tr company (k, d)

/-- A write of one child, as the others see it. -/
theorem JobChildren.put {company : Uid} {t : DataSnapshot C} (h : JobChildren P tr company t)
    {k : String} {n : Node String (Value C)} (hchild : JobChild P tr company (k, n)) :
    JobChildren P tr company (some (store [k] n t)) := by
  intro k' d hd
  by_cases hk : k' = k
  · subst hk
    rw [child_store_self] at hd
    obtain rfl : n = d := Option.some.inj hd
    exact hchild
  · rw [child_store_ne hk] at hd
    exact h k' d hd

/-- **What a write of a run does to the node of a company**: it puts one child into it, or leaves
it alone. -/
theorem companyNode_apply_issued (hplain : Meets PostsPlain tr) {w : Write C}
    (hw : IssuedIn P tr w) (db : Database C) (company : Uid) :
    companyNode (w.apply db) company = companyNode db company ∨
      ∃ k n, w.path = ["Jobs", company.text, k] ∧ JobChild P tr company (k, n) ∧
        companyNode (w.apply db) company = some (store [k] n (companyNode db company)) := by
  obtain ⟨x, hx, hissued⟩ := hw
  cases hissued with
  | @location company' form location hposts =>
    obtain ⟨k, hk, hpath⟩ := hplain x hx form hposts.1
    rw [locationWrite, hpath]
    by_cases hc : company = company'
    · subst hc
      exact Or.inr ⟨k, _, rfl, .location hk hpath ⟨x, hx, hposts⟩, companyNode_apply_self ..⟩
    · exact Or.inl (companyNode_apply_ne hc ..)
  | @details company' form location hposts =>
    rw [detailsWrite]
    by_cases hc : company = company'
    · subst hc
      exact Or.inr ⟨_, _, rfl, .title ⟨x, hx, location, hposts⟩, companyNode_apply_self ..⟩
    · exact Or.inl (companyNode_apply_ne hc ..)
  | profile hregisters => exact Or.inl (companyNode_apply_of_ne rfl (by decide) db company)
  | type hregisters => exact Or.inl (companyNode_apply_of_ne rfl (by decide) db company)

/-- **Every child of a company's node is one write of one of its posts.** -/
theorem children_of_trace (h : Trace (deployment P) tr s) (hplain : Meets PostsPlain tr)
    (company : Uid) : JobChildren P tr company (companyNode s.reg.db company) := by
  refine holds_of_writes (I := fun db => JobChildren P tr company (companyNode db company)) h
    nofun ?_
  intro w db hw hdb
  rcases companyNode_apply_issued hplain hw db company with hsame | ⟨k, n, -, hchild, hput⟩
  · rwa [hsame]
  · rw [hput]
    exact hdb.put hchild

/-! ## No title without a location -/

/-- The company's node has a child besides `details`. -/
def Pinned (db : Database C) (company : Uid) : Prop :=
  ∃ k, k ≠ "details" ∧ child (companyNode db company) k ≠ none

/-- The write puts a location into the company's node. -/
def Write.Pins (w : Write C) (company : Uid) : Prop :=
  ∃ k, k ≠ "details" ∧ w.path = ["Jobs", company.text, k]

/-- The write puts a title into the company's node. -/
def Write.Titles (w : Write C) (company : Uid) : Prop :=
  w.path = ["Jobs", company.text, "details"]

/-- A write that pins a company leaves it pinned … -/
theorem Write.Pins.apply {w : Write C} {company : Uid} (hw : w.Pins company) (db : Database C) :
    Pinned (w.apply db) company := by
  obtain ⟨k, hk, hpath⟩ := hw
  obtain ⟨path, value⟩ := w
  obtain rfl : path = ["Jobs", company.text, k] := hpath
  refine ⟨k, hk, ?_⟩
  have hnode := companyNode_apply_self company [k] value db
  rw [List.cons_append, List.cons_append, List.nil_append] at hnode
  rw [hnode, child_store_self]
  nofun

/-- … and so does any other write of a run. -/
theorem Pinned.apply {w : Write C} (hplain : Meets PostsPlain tr) (hw : IssuedIn P tr w)
    {db : Database C} {company : Uid} (h : Pinned db company) : Pinned (w.apply db) company := by
  obtain ⟨k, hk, hchild⟩ := h
  refine ⟨k, hk, ?_⟩
  rcases companyNode_apply_issued hplain hw db company with hsame | ⟨k', n, -, -, hput⟩
  · rwa [hsame]
  · rw [hput]
    by_cases heq : k = k'
    · rw [heq, child_store_self]
      nofun
    · rwa [child_store_ne heq]

/-- What a step issues is causal: the details of a job come after its location. -/
theorem causal_issues {c : Nat} {e : DeviceEvent C} (hplain : PostsPlain s (c, e))
    (there : Uid → Prop) : Causal Write.Pins Write.Titles there (s.issues P c e) := by
  cases e with
  | createJob form =>
    by_cases hcan : checkFormFields form = .ok () ∧ CanPost P (s.reg.clients c).currentUser form
    · obtain ⟨hfilled, huser, hpath, location, hreads⟩ := hcan
      obtain ⟨company, hcompany⟩ := Option.isSome_iff_exists.1 huser
      obtain ⟨k, hk, hsegment⟩ := hplain form rfl
      rw [issues_createJob hcompany hfilled hpath hreads, locationWrite, hsegment]
      have hkey : ∀ other : Uid, (⟨["Jobs", company.text, k], locationNode P location⟩ :
          Write C).Titles other → False := by
        intro other htitles
        simp only [Write.Titles, List.cons.injEq, and_true, true_and] at htitles
        exact hk htitles.2
      refine ⟨fun other htitles => (hkey other htitles).elim, ?_, trivial⟩
      intro other htitles
      simp only [detailsWrite, Write.Titles, List.cons_append, List.nil_append, List.cons.injEq,
        and_true, true_and] at htitles
      obtain rfl := Uid.ext_text htitles
      exact Or.inr ⟨k, hk, rfl⟩
    · rw [issues_createJob_of_not hcan]
      trivial
  | account e =>
    have hnone : ∀ w ∈ s.issues P c (.account e), ∀ company, ¬ w.Titles company := by
      intro w hw company htitles
      cases mem_issues hw with
      | location hposts | details hposts => cases hposts.1
      | profile hregisters | type hregisters =>
        exact absurd (List.head_eq_of_cons_eq htitles) (by decide)
    generalize s.issues P c (.account e) = ws at hnone
    induction ws generalizing there with
    | nil => trivial
    | cons w ws ih =>
      rw [List.forall_mem_cons] at hnone
      exact ⟨fun company htitles => absurd htitles (hnone.1 company), ih _ hnone.2⟩
  | screen e => trivial

/-- A step loses all that waits on a device, or nothing. -/
theorem loses_cases (c : Nat) (e : DeviceEvent C) :
    s.loses P c e = [] ∨ s.sends c e = [] ∧ s.loses P c e = (s.reg.clients c).outbox := by
  unfold Deployment.loses
  cases hends : s.ends P c e with
  | false => exact Or.inl rfl
  | true =>
    refine Or.inr ⟨?_, rfl⟩
    cases e with
    | account e =>
      cases e with
      | send => cases hends
      | _ => rfl
    | createJob form => rfl
    | screen e => rfl

/-- What a step sends is applied. -/
theorem pinned_of_sends {c : Nat} {e : DeviceEvent C} {w : Write C} (hw : w ∈ s.sends c e)
    {company : Uid} (hpins : w.Pins company) : Pinned (s.next P c e).reg.db company := by
  have hdb : (s.next P c e).reg.db = applyAll (s.sends c e) s.reg.db := db_next (e := (c, e))
  rw [hdb]
  cases e with
  | account e =>
    cases e with
    | send =>
      simp only [Deployment.sends, Option.mem_toList] at hw ⊢
      rw [hw]
      exact hpins.apply _
    | _ => cases hw
  | createJob form => cases hw
  | screen e => cases hw

/-- What a step applies was issued in the run. -/
theorem issuedIn_of_sends (h : Trace (deployment P) tr s) {c : Nat} {e : DeviceEvent C}
    (he : s.Enabled c e) {w : Write C} (hw : w ∈ s.sends c e) :
    IssuedIn P (tr ++ [(s, c, e)]) w := by
  refine issuedIn_of_applied (h.snoc (e := (c, e)) he) ?_
  rw [along_snoc]
  exact List.mem_append_right _ hw

/-- A company that is pinned stays so. -/
theorem pinned_next (h : Trace (deployment P) tr s) {c : Nat} {e : DeviceEvent C}
    (he : s.Enabled c e) (hplain : Meets PostsPlain (tr ++ [(s, c, e)])) {company : Uid}
    (hpinned : Pinned s.reg.db company) : Pinned (s.next P c e).reg.db company := by
  have hdb : (s.next P c e).reg.db = applyAll (s.sends c e) s.reg.db := db_next (e := (c, e))
  have hissued := fun w hw => issuedIn_of_sends h he (w := w) hw
  rw [hdb]
  generalize s.sends c e = ws at hissued
  generalize s.reg.db = db at hpinned
  induction ws generalizing db with
  | nil => exact hpinned
  | cons w ws ih =>
    rw [List.forall_mem_cons] at hissued
    exact ih hissued.2 _ (hpinned.apply hplain hissued.1)

/-- **On every device the details of a job wait behind its location**, unless the company has one
already. -/
theorem causal_of_trace (h : Trace (deployment P) tr s) (hplain : Meets PostsPlain tr) (c : Nat) :
    Causal Write.Pins Write.Titles (Pinned s.reg.db) (s.reg.clients c).outbox := by
  refine Causal.of_trace (fun s : Deployment C => Pinned s.reg.db) (Deployment.outbox P)
    ?_ ?_ ?_ ?_ h hplain c
  · rintro s ⟨c', e⟩ d hC
    show Causal _ _ _ (onDevice d (Deployment.issues P) s (c', e))
    unfold onDevice
    split
    · exact causal_issues hC _
    · trivial
  · rintro s ⟨c', e⟩ d
    show onDevice d (Deployment.loses P) s (c', e) = [] ∨
      onDevice d Deployment.sends s (c', e) = [] ∧
        onDevice d (Deployment.loses P) s (c', e) = (s.reg.clients d).outbox
    unfold onDevice
    by_cases hd : c' = d
    · subst hd
      rw [if_pos rfl, if_pos rfl]
      exact loses_cases c' e
    · exact Or.inl (if_neg hd)
  · rintro tr s ⟨c', e⟩ hrun he hC company hpinned
    exact pinned_next hrun he hC hpinned
  · rintro s ⟨c', e⟩ d w hw company hpins
    have hw' : w ∈ onDevice d Deployment.sends s (c', e) := hw
    unfold onDevice at hw'
    split at hw'
    · exact pinned_of_sends hw' hpins
    · cases hw'

/-- A company without a location has no node. -/
def NodesPinned (db : Database C) : Prop :=
  ∀ company, companyNode db company ≠ none → Pinned db company

/-- A title that is sent is that of a company with a location. -/
theorem NodesPinned.apply {w : Write C} (hplain : Meets PostsPlain tr) (hw : IssuedIn P tr w)
    {db : Database C} (htitles : ∀ company, w.Titles company → Pinned db company)
    (h : NodesPinned db) : NodesPinned (w.apply db) := by
  intro company hnode
  rcases companyNode_apply_issued hplain hw db company with hsame | ⟨k, n, hpath, -, -⟩
  · rw [hsame] at hnode
    exact (h company hnode).apply hplain hw
  · by_cases hk : k = "details"
    · subst hk
      exact (htitles company hpath).apply hplain hw
    · exact Write.Pins.apply ⟨k, hk, hpath⟩ db

/-- **A company with a node has a location**, in every state of such a run. -/
theorem pinned_of_trace (h : Trace (deployment P) tr s) (hplain : Meets PostsPlain tr) :
    NodesPinned s.reg.db := by
  induction h with
  | nil => exact fun company hnode => absurd rfl hnode
  | @snoc tr s e hrun he ih =>
    obtain ⟨c, e⟩ := e
    have hpre := (meets_append.1 hplain).1
    have hpinned := ih hpre
    have hcausal := causal_of_trace hrun hpre c
    have hissued := fun w hw => issuedIn_of_sends hrun he (w := w) hw
    have hdb : (s.next P c e).reg.db = applyAll (s.sends c e) s.reg.db := db_next (e := (c, e))
    show NodesPinned (s.next P c e).reg.db
    rw [hdb]
    cases e with
    | account e =>
      cases e with
      | send =>
        simp only [Deployment.sends] at hissued ⊢
        cases hout : (s.reg.clients c).outbox with
        | nil => exact hpinned
        | cons w ws =>
          rw [hout] at hcausal hissued
          exact hpinned.apply hplain (hissued w (List.mem_singleton_self _)) hcausal.1
      | _ => exact hpinned
    | createJob form => exact hpinned
    | screen e => exact hpinned

/-! ## The markers -/

/-- What is read of the node of a company. -/
structure ReadsPosts (P : Platform C) (tr : List (Deployment C × Nat × DeviceEvent C))
    (company : Uid) (data : Node String (Value C)) (vars : JobVars C) : Prop where
  /-- The place is that of a post. -/
  place : ∃ form, PostedAt P tr company form vars.location
  /-- The title is that of a post, or there is none yet. -/
  title : (∃ form, PostedIn P tr company form ∧ vars.position = form.etPos ∧
      vars.salary = form.etSal) ∨
    (∀ data1 ∈ data.children, data1.1 ≠ "details") ∧ vars.position = "" ∧ vars.salary = ""

/-- A node of such children, in any order, is read through. -/
theorem readCompany_of_jobChildren {company : Uid} {m : Node String (Value C)}
    (hnodup : (keys m.children).Nodup) (hall : ∀ x ∈ m.children, JobChild P tr company x)
    (hpinned : ∃ x ∈ m.children, x.1 ≠ "details") :
    ∃ vars, readCompany P m = .ok vars ∧ ReadsPosts P tr company m vars := by
  have hread : ∃ vars, readCompany P m = .ok vars := by
    refine (readCompany_ok_iff P).2 fun x hx => ?_
    unfold childOutcome
    cases hall x hx with
    | title hposted => rfl
    | location hk hpath hposted =>
      rw [if_neg hk]
      rfl
  obtain ⟨vars, hvars⟩ := hread
  refine ⟨vars, hvars, ?_, ?_⟩
  · rcases readCompany_location P hvars with ⟨x, hx, hk, hlocation⟩ | ⟨hdetails, -⟩
    · cases hall x hx with
      | title hposted => exact absurd rfl hk
      | @location form location k _ hpath hposted =>
        obtain rfl : location = vars.location := Except.ok.inj hlocation
        exact ⟨form, hposted⟩
    · obtain ⟨x, hx, hk⟩ := hpinned
      exact absurd (hdetails x hx) hk
  · by_cases hnone : ∀ x ∈ m.children, x.1 ≠ "details"
    · exact Or.inr ⟨hnone, readCompany_untitled P hnone hvars⟩
    · push Not at hnone
      obtain ⟨⟨k, n⟩, hx, rfl⟩ := hnone
      have htitle := readCompany_title P hnodup hx hvars
      cases hall _ hx with
      | @title form hposted =>
        rw [CompanyNode.detailsOf_newPost, Except.ok.injEq, Prod.mk.injEq] at htitle
        exact Or.inl ⟨form, hposted, htitle.1.symm, htitle.2.symm⟩
      | location hk => exact absurd rfl hk

/-- **The markers of a deployment.**  In every state of a run whose positions are plain, and for
every snapshot of the jobs that the server may answer: both marker loops get through, and draw
one marker for each company with a node.  It stands at the coordinates of one post of this
company, never at those that the loop starts with, and carries the position and salary of one
of its posts; or nothing but the arrow, if the node in the snapshot has no `details`. -/
theorem markers_of_trace (h : Trace (deployment P) tr s) (hplain : Meets PostsPlain tr)
    {t : DataSnapshot C} (ht : Delivers (jobsNode s.reg.db) t) (ms : List (JobMarker C)) :
    ∃ new, (EmployeeMapActivity.onMapReadyJobs P t).run ms = (.ok (), ms ++ new) ∧
      (BossMapActivity.onMapReadyJobs P t).run ms = (.ok (), ms ++ new) ∧
      new.map JobMarker.company = keys (children t) ∧
      ∀ m ∈ new, ∃ company : Uid, company.text = m.company ∧
        (∃ form, PostedAt P tr company form m.vars.location) ∧
        ((∃ form, PostedIn P tr company form ∧
            m.vars.markerOptions.title = form.etPos ++ " -> " ++ form.etSal) ∨
          child (child t m.company) "details" = none ∧
            m.vars.markerOptions.title = " -> ") := by
  have hnodes : ∀ x ∈ children t, ∃ company : Uid, company.text = x.1 ∧
      ∃ vars, readCompany P x.2 = .ok vars ∧ ReadsPosts P tr company x.2 vars := by
    rintro ⟨k, m⟩ hx
    obtain ⟨company, n, rfl, hnode, hr, hnodup⟩ := exists_companyNode h ht hx
    have hjobs := children_of_trace h hplain company
    obtain ⟨k, hk, hchild⟩ := pinned_of_trace h hplain company (by rw [hnode]; nofun)
    rw [hnode] at hjobs hchild
    obtain ⟨d, hd⟩ := Option.ne_none_iff_exists'.1 hchild
    refine ⟨company, rfl, readCompany_of_jobChildren ?_ ?_ ?_⟩
    · exact (hr.children_perm.map Prod.fst).nodup_iff.1 hnodup
    · exact fun x hx => hjobs x.1 x.2 (lookup_of_mem hnodup (hr.children_perm.mem_iff.2 hx))
    · exact ⟨_, hr.children_perm.mem_iff.1 (mem_of_lookup hd), hk⟩
  obtain ⟨new, hrun, hkeys, hnew⟩ := drawJobs_run P (s := t) (fun x hx =>
    let ⟨_, _, vars, hvars, _⟩ := hnodes x hx
    ⟨vars, hvars⟩) ms
  refine ⟨new, hrun, hrun, hkeys, ?_⟩
  intro m hm
  obtain ⟨n, hn, hread⟩ := hnew m hm
  obtain ⟨company, hcompany, vars, hvars, hplace, htitle⟩ := hnodes _ hn
  obtain rfl : vars = m.vars := Except.ok.inj (hvars.symm.trans hread)
  refine ⟨company, hcompany, hplace, ?_⟩
  rcases htitle with ⟨form, hposted, hposition, hsalary⟩ | ⟨hnone, hposition, hsalary⟩
  · refine Or.inl ⟨form, hposted, ?_⟩
    rw [JobVars.markerOptions, hposition, hsalary]
  · have hdistinct := (Shuffled.keys_perm ht).nodup_iff.1 ((schema_of_trace h).distinct ["Jobs"])
    have hchild : child t m.company = some n := lookup_of_mem hdistinct hn
    refine Or.inr ⟨?_, ?_⟩
    · rw [hchild]
      refine List.lookup_eq_none_iff.2 fun data1 hdata1 => ?_
      exact bne_iff_ne.2 (hnone data1 hdata1).symm
    · rw [JobVars.markerOptions, hposition, hsalary]
      rfl

/-! The day of the market: the company's job is on the map. -/

theorem marketDay_postsPlain : Meets PostsPlain
    (steps (deployment wholeDegrees) (deployment wholeDegrees).start marketDay) := by
  refine meets_steps_of_mem ?_ _
  rintro s ⟨c, e⟩ he form rfl
  obtain ⟨-, rfl⟩ := posted_marketDay he
  exact ⟨"Cook", by decide, by decide⟩

theorem markers_marketDay :
    let s := marketDay.foldl (deployment wholeDegrees).next (deployment wholeDegrees).start
    ∃ new, (EmployeeMapActivity.onMapReadyJobs wholeDegrees (jobsNode s.reg.db)).run [] =
        (.ok (), [] ++ new) ∧
      (BossMapActivity.onMapReadyJobs wholeDegrees (jobsNode s.reg.db)).run [] =
        (.ok (), [] ++ new) ∧
      new.map JobMarker.company = keys (children (jobsNode s.reg.db)) ∧
      ∀ m ∈ new, ∃ company : Uid, company.text = m.company ∧
        (∃ form, PostedAt wholeDegrees (steps (deployment wholeDegrees)
          (deployment wholeDegrees).start marketDay) company form m.vars.location) ∧
        ((∃ form, PostedIn wholeDegrees (steps (deployment wholeDegrees)
          (deployment wholeDegrees).start marketDay) company form ∧
            m.vars.markerOptions.title = form.etPos ++ " -> " ++ form.etSal) ∨
          child (child (jobsNode s.reg.db) m.company) "details" = none ∧
            m.vars.markerOptions.title = " -> ") :=
  markers_of_trace (Trace.of_events marketDay_runs) marketDay_postsPlain (Shuffled.refl _) []

end Partimer
