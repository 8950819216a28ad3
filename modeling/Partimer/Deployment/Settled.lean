import Partimer.Deployment.Delivery
import Partimer.Jobs.Independence
import Partimer.Jobs.Pictures

/-!
# A deployment that has settled

The results about posted jobs speak of runs of completed calls, each applied as a whole.  In a
deployment the writes of many devices are mixed with each other and with those of registrations,
and each arrives some time after its call has returned.  Once all of them have arrived the two
agree.

* `Deployment.posts` — the calls that a step completes.
* `Write.company`, `jobWrites` — the writes to the jobs of a company, within all others.
* `interleaves_of_trace` — what the server applies is the posts of each company in its order.
* `settled_of_trace` — **the jobs are then those of the completed calls**, and
  `settled_pictures` — **the maps can show the pictures of these calls**, and no others.
-/

namespace Partimer

open KeyTree CreateJobCompany JobLoops Registration Transition

variable {C : Type}

/-! ## The calls of a run -/

/-- The call that a step completes, with the company that has made it. -/
def Deployment.posts (P : Platform C) (s : Deployment C) (e : Nat × DeviceEvent C) :
    List (Uid × JobForm) :=
  match e.2, (s.reg.clients e.1).currentUser with
  | .createJob form, some company =>
    if (issued P company form).isEmpty then [] else [(company, form)]
  | _, _ => []

/-- Each company posts on its own device. -/
def PostsOn (device : Uid → Nat) (s : Deployment C) (e : Nat × DeviceEvent C) : Prop :=
  ∀ company form, (s.reg.clients e.1).currentUser = some company → e.2 = .createJob form →
    e.1 = device company

variable {P : Platform C} {s : Deployment C} {tr : List (Deployment C × Nat × DeviceEvent C)}

/-- A call that has issued something has completed. -/
theorem exists_completedCall {company : Uid} {form : JobForm} (h : issued P company form ≠ []) :
    ∃ call : CompletedCall P, (call.company, call.form) = (company, form) := by
  rcases addJobLocation_run P (some company) form [] with
    ⟨_, location, ⟨⟩, -, -, -, hrun⟩ | ⟨_, _, -, hrun⟩ | ⟨_, -, -, hrun⟩
  · exact ⟨⟨company, form, location, hrun⟩, rfl⟩
  · exact absurd (congrArg Prod.snd hrun) h
  · exact absurd (congrArg Prod.snd hrun) h

/-- The calls that the steps of a run complete are a run of completed calls. -/
theorem exists_completedCalls (tr : List (Deployment C × Nat × DeviceEvent C)) :
    ∃ run : List (CompletedCall P),
      run.map (fun call => (call.company, call.form)) = along (Deployment.posts P) tr := by
  have hall : ∀ x ∈ along (Deployment.posts P) tr, issued P x.1 x.2 ≠ [] := by
    intro x hx
    obtain ⟨y, -, hy⟩ := exists_of_mem_along hx
    unfold Deployment.posts at hy
    split at hy
    · split at hy
      · cases hy
      · next hne =>
        obtain rfl := List.mem_singleton.1 hy
        simpa using hne
    · cases hy
  generalize along (Deployment.posts P) tr = posts at hall
  induction posts with
  | nil => exact ⟨[], rfl⟩
  | cons x posts ih =>
    rw [List.forall_mem_cons] at hall
    obtain ⟨call, hcall⟩ := exists_completedCall hall.1
    obtain ⟨run, hrun⟩ := ih hall.2
    exact ⟨call :: run, by rw [List.map_cons, hrun, hcall]⟩

/-- What a completed call issues. -/
theorem CompletedCall.issued_eq (call : CompletedCall P) :
    issued P call.company call.form = [call.locationPart, call.detailsPart] :=
  congrArg Prod.snd call.completes

/-- The database of a run of completed calls, from their writes. -/
theorem runCalls_eq (run : List (CompletedCall P)) :
    runCalls run = applyAll (((run.map fun call => (call.company, call.form)).flatMap fun x =>
      (issued P x.1 x.2).map fun w => (x.1, w)).map Prod.snd) none := by
  induction run using List.reverseRecOn with
  | nil => rfl
  | append_singleton run call ih =>
    rw [runCalls_concat, ih, List.map_append, List.flatMap_append, List.map_append, applyAll_append]
    simp only [List.map_cons, List.map_nil, List.flatMap_cons, List.flatMap_nil, List.append_nil,
      CompletedCall.issued_eq]
    rfl

/-! ## The writes to the jobs -/

/-- The company to whose jobs the write goes. -/
def Write.company (w : Write C) : Option Uid :=
  match w.path with
  | folder :: k :: _ =>
    if h : folder = "Jobs" ∧ childPath k = [k] then some ⟨k, h.2⟩ else none
  | _ => none

theorem Write.company_below (company : Uid) (rel : List String) (value : Node String (Value C)) :
    (⟨["Jobs", company.text] ++ rel, value⟩ : Write C).company = some company :=
  dif_pos ⟨rfl, company.plain⟩

/-- A write elsewhere. -/
theorem Write.company_of_ne {w : Write C} {folder : String} {rest : List String}
    (hpath : w.path = folder :: rest) (hne : folder ≠ "Jobs") : w.company = none := by
  unfold Write.company
  rw [hpath]
  cases rest with
  | nil => rfl
  | cons k rest => exact dif_neg fun h => hne h.1

/-- The writes to the jobs of companies, each with its company. -/
def jobWrites (ws : List (Write C)) : List (Uid × Write C) :=
  ws.filterMap fun w => w.company.map fun company => (company, w)

theorem filter_jobWrites (ws : List (Write C)) (company : Uid) :
    ((jobWrites ws).filter fun x => x.1 = company).map Prod.snd =
      ws.filter fun w => w.company = some company := by
  unfold jobWrites
  induction ws with
  | nil => rfl
  | cons w ws ih =>
    cases hw : w.company with
    | none => simp [hw, ih]
    | some k =>
      by_cases hk : k = company
      · simp [hw, hk, ih]
      · simp [hw, hk, ih]

/-- Every write of a run goes to the jobs of a company, or elsewhere. -/
theorem IssuedIn.below_or {w : Write C} (h : IssuedIn P tr w) :
    (∃ (company : Uid) (rel : List String) (value : Node String (Value C)),
      w = ⟨["Jobs", company.text] ++ rel, value⟩) ∨
      ∃ folder rest, w.path = folder :: rest ∧ folder ≠ "Jobs" := by
  obtain ⟨x, -, hissued⟩ := h
  cases hissued with
  | location hposts => exact Or.inl ⟨_, _, _, rfl⟩
  | details hposts => exact Or.inl ⟨_, _, _, rfl⟩
  | profile hregisters => exact Or.inr ⟨_, _, rfl, by decide⟩
  | type hregisters => exact Or.inr ⟨_, _, rfl, by decide⟩

/-- Only the writes to the jobs count for the jobs. -/
theorem jobsNode_jobWrites {ws : List (Write C)} (hws : ∀ w ∈ ws, IssuedIn P tr w)
    {db db' : Database C} (h : jobsNode db = jobsNode db') :
    jobsNode (applyAll ws db) = jobsNode (applyAll ((jobWrites ws).map Prod.snd) db') := by
  induction ws generalizing db db' with
  | nil => exact h
  | cons w ws ih =>
    rw [List.forall_mem_cons] at hws
    unfold jobWrites
    rcases hws.1.below_or with ⟨company, rel, value, rfl⟩ | ⟨folder, rest, hpath, hne⟩
    · rw [List.filterMap_cons, Write.company_below]
      refine ih hws.2 ?_
      rw [jobsNode_apply, jobsNode_apply, h]
    · rw [List.filterMap_cons, Write.company_of_ne hpath hne]
      refine ih hws.2 ?_
      rw [← h]
      show fetch (some (store w.path w.value db)) ["Jobs"] = fetch db ["Jobs"]
      rw [hpath, fetch_cons, fetch_cons, child_store_ne (Ne.symm hne)]

/-! ## What the server applies -/

/-- What a call issues goes to the jobs of its company. -/
theorem company_of_mem_issued {company : Uid} {form : JobForm} {w : Write C}
    (hw : w ∈ issued P company form) : w.company = some company := by
  obtain ⟨rel, value, rfl⟩ := mem_issued P hw
  exact Write.company_below company rel value

/-- What is not a post issues nothing for any company. -/
theorem company_of_mem_issues_account {c : Nat} {e : RegEvent} {w : Write C}
    (hw : w ∈ s.issues P c (.account e)) : w.company = none := by
  cases mem_issues hw with
  | location hposts | details hposts => cases hposts.1
  | profile hregisters | type hregisters => exact Write.company_of_ne rfl (by decide)

theorem posts_createJob {c : Nat} {form : JobForm} {user : Uid}
    (huser : (s.reg.clients c).currentUser = some user) :
    Deployment.posts P s (c, .createJob form) =
      if (issued P user form).isEmpty then [] else [(user, form)] := by
  simp only [Deployment.posts, huser]

/-- What a call issues, by who is signed in. -/
theorem issues_createJob_eq (c : Nat) (form : JobForm) : s.issues P c (.createJob form) =
    (s.reg.clients c).currentUser.toList.flatMap fun user => issued P user form := by
  cases huser : (s.reg.clients c).currentUser with
  | none => exact issues_createJob_of_not fun h => by simp [CanPost, huser] at h
  | some user => simp [Deployment.issues, huser, issued]

/-- **What a step issues for a company** is what the calls issue that it completes for the
company. -/
theorem filter_issues (c : Nat) (e : DeviceEvent C) (company : Uid) :
    (s.issues P c e).filter (fun w => w.company = some company) =
      (((Deployment.posts P s (c, e)).filter fun y => y.1 = company).map Prod.snd).flatMap
        (issued P company) := by
  cases e with
  | createJob form =>
    rw [issues_createJob_eq]
    cases huser : (s.reg.clients c).currentUser with
    | none => simp [Deployment.posts, huser]
    | some user =>
      rw [posts_createJob huser, Option.toList_some, List.flatMap_singleton]
      by_cases hk : user = company
      · subst hk
        rw [List.filter_eq_self.2 fun w hw => decide_eq_true (company_of_mem_issued hw)]
        cases hempty : issued P user form <;> simp [hempty]
      · have hother : ∀ w ∈ issued P user form, ¬ decide (w.company = some company) = true := by
          intro w hw
          rw [company_of_mem_issued hw]
          simpa using hk
        rw [List.filter_eq_nil_iff.2 hother]
        cases hempty : issued P user form <;> simp [hk]
  | account e =>
    have hnone : ∀ w ∈ s.issues P c (.account e), ¬ decide (w.company = some company) = true := by
      intro w hw
      simp [company_of_mem_issues_account hw]
    rw [List.filter_eq_nil_iff.2 hnone]
    rfl
  | screen e => rfl

/-- A device on which a company never posts issues nothing for it. -/
theorem company_of_mem_writesOf {device : Uid → Nat} (hon : Meets (PostsOn device) tr) {c : Nat}
    {company : Uid} (hc : c ≠ device company) {w : Write C}
    (hw : w ∈ writesOf c (Deployment.issues P) tr) : w.company ≠ some company := by
  obtain ⟨⟨d, c', e⟩, hx, hmem⟩ := exists_of_mem_along hw
  unfold onDevice at hmem
  split at hmem
  · next hsame =>
    obtain rfl : c' = c := hsame
    cases e with
    | createJob form =>
      intro hcompany
      rw [issues_createJob_eq] at hmem
      obtain ⟨user, huser, hissued⟩ := List.mem_flatMap.1 hmem
      obtain rfl : user = company :=
        Option.some.inj ((company_of_mem_issued hissued).symm.trans hcompany)
      exact hc (hon _ hx user form (Option.mem_toList.1 huser) rfl)
    | account e =>
      simp [company_of_mem_issues_account hmem]
    | screen e => cases hmem
  · cases hmem

/-- What a company posts in a run. -/
def companyPosts (P : Platform C) (tr : List (Deployment C × Nat × DeviceEvent C))
    (company : Uid) : List JobForm :=
  ((along (Deployment.posts P) tr).filter fun x => x.1 = company).map Prod.snd

/-- What the device of a company issues for it is what its posts issue. -/
theorem filter_writesOf {device : Uid → Nat} (hon : Meets (PostsOn device) tr) (company : Uid) :
    (writesOf (device company) (Deployment.issues P) tr).filter
        (fun w => w.company = some company) =
      (companyPosts P tr company).flatMap (issued P company) := by
  unfold companyPosts writesOf along
  rw [List.filter_flatMap, List.filter_flatMap, List.map_flatMap, List.flatMap_assoc]
  refine List.flatMap_congr ?_
  rintro ⟨d, c, e⟩ hx
  have hstep := filter_issues (P := P) (s := d) c e company
  rw [← hstep]
  by_cases hc : c = device company
  · rw [onDevice, if_pos hc]
  · rw [onDevice, if_neg hc, List.filter_nil]
    refine (List.filter_eq_nil_iff.2 ?_).symm
    intro w hw hcompany
    have hall : w ∈ writesOf c (Deployment.issues P) tr :=
      List.mem_flatMap.2 ⟨_, hx, by rwa [onDevice, if_pos rfl]⟩
    exact company_of_mem_writesOf hon hc hall (of_decide_eq_true hcompany)

/-- **What the server applies is the posts of each company in its order**, once all of them have
been sent. -/
theorem interleaves_of_trace (h : Trace (deployment P) tr s) {device : Uid → Nat}
    (hon : Meets (PostsOn device) tr) (hup : ∀ company, Meets (StaysUp P (device company)) tr)
    (hsent : ∀ company, (s.reg.clients (device company)).outbox = []) :
    Interleaves P (companyPosts P tr) (jobWrites (along Deployment.applied tr)) := by
  intro company
  rw [filter_jobWrites, ← filter_writesOf hon company]
  refine Outbox.filter_merged (o := Deployment.outbox P) applied_eq_sends h ?_
    (loses_of_staysUp (hup company)) (hsent company)
  exact fun c hc w hw => decide_eq_false (company_of_mem_writesOf hon hc hw)

/-! ## Settled -/

/-- **A settled deployment has the jobs of its completed calls.**  Each company posts on one
device, which has stayed up and has nothing left to send: the `Jobs` tree is then the one that
the calls completed in the run leave when each is applied as a whole, its companies listed in
some order. -/
theorem settled_of_trace (h : Trace (deployment P) tr s) {device : Uid → Nat}
    (hon : Meets (PostsOn device) tr) (hup : ∀ company, Meets (StaysUp P (device company)) tr)
    (hsent : ∀ company, (s.reg.clients (device company)).outbox = [])
    {run : List (CompletedCall P)}
    (hrun : run.map (fun call => (call.company, call.form)) = along (Deployment.posts P) tr) :
    Option.Rel Reordered (jobsNode s.reg.db) (jobsNode (runCalls run)) ∧
      Option.Rel Reordered (jobsNode (runCalls run)) (jobsNode s.reg.db) := by
  have happlied := interleaves_of_trace h hon hup hsent
  have hcalls : Interleaves P (companyPosts P tr)
      ((along (Deployment.posts P) tr).flatMap fun x => (issued P x.1 x.2).map fun w => (x.1, w)) :=
    interleaves_of_posts P fun _ => rfl
  have hdb : jobsNode s.reg.db =
      jobsNode (applyAll ((jobWrites (along Deployment.applied tr)).map Prod.snd) none) := by
    rw [db_of_trace h]
    exact jobsNode_jobWrites (fun w hw => issuedIn_of_applied h hw) rfl
  rw [hdb, runCalls_eq, hrun]
  exact ⟨happlied.sameTree hcalls none, hcalls.sameTree happlied none⟩

/-- **What the maps can show of it** are the pictures of the completed calls, and no others: one
marker for each company that has completed a call, with the title of its latest one. -/
theorem settled_pictures (h : Trace (deployment P) tr s) {device : Uid → Nat}
    (hon : Meets (PostsOn device) tr) (hup : ∀ company, Meets (StaysUp P (device company)) tr)
    (hsent : ∀ company, (s.reg.clients (device company)).outbox = []) :
    ∃ run : List (CompletedCall P),
      run.map (fun call => (call.company, call.form)) = along (Deployment.posts P) tr ∧
      ∀ ms, (∃ t, Delivers (jobsNode s.reg.db) t ∧
        (EmployeeMapActivity.onMapReadyJobs P t).run [] = (.ok (), ms)) ↔
          NoBrokenPin run ∧ Picture run ms := by
  obtain ⟨run, hrun⟩ := exists_completedCalls (P := P) tr
  obtain ⟨hsame, hsame'⟩ := settled_of_trace h hon hup hsent hrun
  refine ⟨run, hrun, ?_⟩
  intro ms
  rw [← (jobsTree_runCalls run).pictures]
  exact exists_congr fun t => and_congr_left fun _ => Delivers.congr hsame hsame' t

/-! On the day of the market the company has posted on the first device, and all is sent. -/

theorem marketDay_postsOn : Meets (PostsOn fun _ => 0)
    (steps (deployment wholeDegrees) (deployment wholeDegrees).start marketDay) := by
  refine meets_steps_of_mem ?_ _
  rintro s ⟨c, e⟩ he company form - rfl
  exact (posted_marketDay he).1

theorem pictures_marketDay :
    let s := marketDay.foldl (deployment wholeDegrees).next (deployment wholeDegrees).start
    ∃ run : List (CompletedCall wholeDegrees),
      run.map (fun call => (call.company, call.form)) = along (Deployment.posts wholeDegrees)
        (steps (deployment wholeDegrees) (deployment wholeDegrees).start marketDay) ∧
      ∀ ms, (∃ t, Delivers (jobsNode s.reg.db) t ∧
        (EmployeeMapActivity.onMapReadyJobs wholeDegrees t).run [] = (.ok (), ms)) ↔
          NoBrokenPin run ∧ Picture run ms :=
  settled_pictures (Trace.of_events marketDay_runs) marketDay_postsOn
    (fun _ => marketDay_staysUp) fun _ => rfl

end Partimer
