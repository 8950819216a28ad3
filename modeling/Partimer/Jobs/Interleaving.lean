import Partimer.Jobs.Posted
import Partimer.Lib.Trace

/-!
# Posts and readers at the same time

A call of `addJobLocation` issues two writes and returns; the server answers each
of them later, in the order in which the client issued them, and a map screen may
read between the two.  The callback that shows `Job created` belongs to the first
write alone and does not look at its error.

* `PostState`, `PostEvent`, `posting` — the calls under way and the steps that the
  clients, the server and the readers take.
* `WholeJobs` — what is stored under a company's node comes from whole jobs, or a
  job of the company waits for the answer to its details; kept by every orderly
  step (`wholeJobs_next`).
* `ShowsWhole`, `Orderly`, `showsWhole_of_orderly` — as long as both writes of a job
  are answered alike, and neither a reader nor the callback comes between them, no
  half job is seen.
-/

namespace Partimer

open KeyTree CreateJobCompany JobLoops Transition

variable {C : Type} {P : Platform C}

/-! ## The system -/

/-- What the server has said to a write. -/
inductive Answer where
  | pending
  | applied
  | rejected
  deriving DecidableEq, Repr

/-- The answer `ok` or not. -/
def Answer.of (ok : Bool) : Answer := if ok then .applied else .rejected

/-- A call that has issued its two writes. -/
structure PostedJob (P : Platform C) where
  /-- The device it was made on. -/
  client : Nat
  call : CompletedCall P
  location : Answer
  details : Answer
  /-- Whether `Job created` was shown. -/
  toast : Bool

/-- Both parts of the job are stored. -/
def PostedJob.Stored (job : PostedJob P) : Prop :=
  job.location = .applied ∧ job.details = .applied

/-- The server's tree and the calls made so far, oldest first. -/
structure PostState (P : Platform C) where
  db : Database C
  jobs : List (PostedJob P)

/-- What can happen. -/
inductive PostEvent (P : Platform C) where
  /-- A call issues its two writes. -/
  | addJobLocation (client : Nat) (call : CompletedCall P)
  /-- The server answers the location write of the `i`th call. -/
  | answerLocation (i : Nat) (ok : Bool)
  /-- The server answers its details write. -/
  | answerDetails (i : Nat) (ok : Bool)
  /-- The completion callback of its location write runs. -/
  | onComplete (i : Nat)
  /-- A map screen reads `Jobs`. -/
  | onDataChange (dataSnapshot : DataSnapshot C)

/-- The server has answered all that the client issued before its `i`th call. -/
def AnsweredBefore (jobs : List (PostedJob P)) (i client : Nat) : Prop :=
  ∀ job ∈ jobs.take i, job.client = client → job.details ≠ .pending

/-- When each event can happen. -/
def PostState.Enabled (s : PostState P) : PostEvent P → Prop
  | .addJobLocation _ _ => True
  | .answerLocation i _ => ∃ job, s.jobs[i]? = some job ∧ job.location = .pending ∧
      AnsweredBefore s.jobs i job.client
  | .answerDetails i _ => ∃ job, s.jobs[i]? = some job ∧ job.location ≠ .pending ∧
      job.details = .pending
  | .onComplete i => ∃ job, s.jobs[i]? = some job ∧ job.location ≠ .pending ∧
      job.toast = false
  | .onDataChange dataSnapshot => Delivers (jobsNode s.db) dataSnapshot

/-- A write as answered. -/
def answered (ok : Bool) (w : Write C) (db : Database C) : Database C :=
  if ok then w.apply db else db

/-- What each event does. -/
def PostState.next (s : PostState P) : PostEvent P → PostState P
  | .addJobLocation client call =>
    { s with jobs := s.jobs ++ [⟨client, call, .pending, .pending, false⟩] }
  | .answerLocation i ok =>
    match s.jobs[i]? with
    | none => s
    | some job => ⟨answered ok job.call.locationPart s.db,
        s.jobs.set i { job with location := .of ok }⟩
  | .answerDetails i ok =>
    match s.jobs[i]? with
    | none => s
    | some job => ⟨answered ok job.call.detailsPart s.db,
        s.jobs.set i { job with details := .of ok }⟩
  | .onComplete i =>
    match s.jobs[i]? with
    | none => s
    | some job => { s with jobs := s.jobs.set i { job with toast := true } }
  | .onDataChange _ => s

section Next

variable {s : PostState P} {i : Nat} {job : PostedJob P}

theorem PostState.next_answerLocation (hi : s.jobs[i]? = some job) (ok : Bool) :
    s.next (.answerLocation i ok) = ⟨answered ok job.call.locationPart s.db,
      s.jobs.set i { job with location := .of ok }⟩ := by
  simp only [PostState.next, hi]

theorem PostState.next_answerDetails (hi : s.jobs[i]? = some job) (ok : Bool) :
    s.next (.answerDetails i ok) = ⟨answered ok job.call.detailsPart s.db,
      s.jobs.set i { job with details := .of ok }⟩ := by
  simp only [PostState.next, hi]

theorem PostState.next_onComplete (hi : s.jobs[i]? = some job) :
    s.next (.onComplete i) = { s with jobs := s.jobs.set i { job with toast := true } } := by
  simp only [PostState.next, hi]

end Next

/-- The calls, the server and the readers, from an empty database. -/
def posting (P : Platform C) : System (PostState P) (PostEvent P) where
  start := ⟨none, []⟩
  Enabled := PostState.Enabled
  next := PostState.next

/-! ## What the steps leave in the list of calls -/

/-- `job'` is `job` with more of its writes applied. -/
structure PostedJob.Le (job job' : PostedJob P) : Prop where
  call : job'.call = job.call
  location : job.location = .applied → job'.location = .applied
  details : job.details = .applied → job'.details = .applied

theorem PostedJob.Le.refl (job : PostedJob P) : job.Le job := ⟨rfl, id, id⟩

/-- Every call of `jobs` is still in `jobs'`, with no fewer writes applied. -/
def Grows (jobs jobs' : List (PostedJob P)) : Prop := ∀ job ∈ jobs, ∃ job' ∈ jobs', job.Le job'

theorem grows_concat (jobs : List (PostedJob P)) (job : PostedJob P) :
    Grows jobs (jobs ++ [job]) :=
  fun x hx => ⟨x, List.mem_append_left _ hx, .refl x⟩

theorem grows_set {jobs : List (PostedJob P)} {i : Nat} {job job' : PostedJob P}
    (hi : jobs[i]? = some job) (h : job.Le job') : Grows jobs (jobs.set i job') := by
  intro x hx
  rcases eq_or_mem_set hi hx with rfl | hx
  · exact ⟨job', mem_set_of_getElem? hi, h⟩
  · exact ⟨x, hx, .refl x⟩

/-! ## The invariant -/

/-- Some call of the company has stored this location. -/
def LocationStored (jobs : List (PostedJob P)) (company : Uid) (location : GeoLocation C) : Prop :=
  ∃ job ∈ jobs, job.call.company = company ∧ job.location = .applied ∧
    job.call.location = location

/-- Some call of the company has stored the details the node shows. -/
def TitleStored (jobs : List (PostedJob P)) (company : Uid) (t : DataSnapshot C) : Prop :=
  ∃ job ∈ jobs, job.call.company = company ∧ job.details = .applied ∧
    child t "details" = some (newPost job.call.position job.call.salary)

/-- Some call of the company has stored its location and waits for its details. -/
def Awaits (jobs : List (PostedJob P)) (company : Uid) : Prop :=
  ∃ job ∈ jobs, job.call.company = company ∧ job.location = .applied ∧ job.details = .pending

/-- A company's node holds what its calls have stored. -/
structure NodeStored (jobs : List (PostedJob P)) (company : Uid) (t : DataSnapshot C) : Prop where
  nodup : (keys (children t)).Nodup
  title : t ≠ none → TitleStored jobs company t ∨ Awaits jobs company
  pins : ∀ k, k ≠ "details" → ∀ location, pinOf P (child t k) = .placed location →
    LocationStored jobs company location

/-- **The invariant.**  Both writes of a call have been answered alike, and every
company's node holds what its calls have stored. -/
structure WholeJobs (s : PostState P) : Prop where
  nodup : (keys (children (jobsNode s.db))).Nodup
  companies : ∀ k ∈ keys (children (jobsNode s.db)), ∃ company : Uid, company.text = k
  alike : ∀ job ∈ s.jobs, job.details ≠ .pending → job.details = job.location
  node : ∀ company, NodeStored s.jobs company (companyNode s.db company)

section Transfer

variable {jobs jobs' : List (PostedJob P)} {company : Uid} {t : DataSnapshot C}

theorem LocationStored.grows (h : Grows jobs jobs') {location : GeoLocation C}
    (hl : LocationStored jobs company location) : LocationStored jobs' company location := by
  obtain ⟨job, hjob, hc, ha, hloc⟩ := hl
  obtain ⟨job', hjob', hle⟩ := h job hjob
  exact ⟨job', hjob', by rw [hle.call, hc], hle.location ha, by rw [hle.call, hloc]⟩

theorem TitleStored.grows (h : Grows jobs jobs') (ht : TitleStored jobs company t) :
    TitleStored jobs' company t := by
  obtain ⟨job, hjob, hc, ha, hd⟩ := ht
  obtain ⟨job', hjob', hle⟩ := h job hjob
  exact ⟨job', hjob', by rw [hle.call, hc], hle.details ha, by rw [hle.call, hd]⟩

/-- A node that is not written to, while the calls of its company go on. -/
theorem NodeStored.grows (hn : NodeStored jobs company t) (h : Grows jobs jobs')
    (ha : Awaits jobs company → Awaits jobs' company) : NodeStored jobs' company t where
  nodup := hn.nodup
  title ht := (hn.title ht).imp (TitleStored.grows h) ha
  pins k hk location hp := (hn.pins k hk location hp).grows h

/-- A call other than the one replaced goes on waiting. -/
theorem Awaits.set {i : Nat} {job job' : PostedJob P} (hi : jobs[i]? = some job)
    (hw : job.call.company = company → job.location = .applied → job.details = .pending →
      job'.call.company = company ∧ job'.location = .applied ∧ job'.details = .pending)
    (ha : Awaits jobs company) : Awaits (jobs.set i job') company := by
  obtain ⟨x, hx, hc, hl, hd⟩ := ha
  rcases eq_or_mem_set hi hx with rfl | hx
  · obtain ⟨hc', hl', hd'⟩ := hw hc hl hd
    exact ⟨job', mem_set_of_getElem? hi, hc', hl', hd'⟩
  · exact ⟨x, hx, hc, hl, hd⟩

/-- The location of a call is stored: its company awaits the details. -/
theorem NodeStored.locationPart (hn : NodeStored jobs company t) (h : Grows jobs jobs')
    {job : PostedJob P} (hjob : job ∈ jobs') (hc : job.call.company = company)
    (hl : job.location = .applied) (hd : job.details = .pending) :
    NodeStored jobs' company (some (store (childPath job.call.position)
      (locationNode P job.call.location) t)) where
  nodup := nodup_keys_storeLocation _ _ hn.nodup
  title _ := Or.inr ⟨job, hjob, hc, hl, hd⟩
  pins k hk location hp := by
    rw [pinOf_store] at hp
    rcases Pin.write_eq_placed hp with rfl | hold
    · exact ⟨job, hjob, hc, hl, rfl⟩
    · exact (hn.pins k hk location hold).grows h

/-- The details of a call are stored: they are what the node shows. -/
theorem NodeStored.detailsPart (hn : NodeStored jobs company t) (h : Grows jobs jobs')
    {job : PostedJob P} (hjob : job ∈ jobs') (hc : job.call.company = company)
    (hd : job.details = .applied) :
    NodeStored jobs' company (some (store ["details"]
      (newPost job.call.position job.call.salary) t)) where
  nodup := by
    rw [children_some, children_store_cons]
    exact nodup_keys_put _ _ hn.nodup
  title _ := Or.inl ⟨job, hjob, hc, hd, by simp⟩
  pins k hk location hp := by
    rw [child_store_ne hk] at hp
    exact (hn.pins k hk location hp).grows h

end Transfer

theorem WholeJobs.start : WholeJobs (posting P).start where
  nodup := List.nodup_nil
  companies := by simp [posting, jobsNode]
  alike := by simp [posting]
  node company := ⟨List.nodup_nil, fun h => absurd rfl h, fun k _ location hp => by cases hp⟩

/-- The `Jobs` node after a write below a company's node. -/
theorem WholeJobs.keys_answered {s : PostState P} (hs : WholeJobs s) (ok : Bool) (company : Uid)
    (rel : List String) (value : Node String (Value C)) :
    (keys (children (jobsNode
        (answered ok ⟨["Jobs", company.text] ++ rel, value⟩ s.db)))).Nodup ∧
      ∀ k ∈ keys (children (jobsNode
        (answered ok ⟨["Jobs", company.text] ++ rel, value⟩ s.db))),
        ∃ company : Uid, company.text = k := by
  cases ok with
  | false => exact ⟨hs.nodup, hs.companies⟩
  | true =>
    refine ⟨nodup_keys_jobsNode_apply _ _ _ hs.nodup, ?_⟩
    intro k hk
    rcases (mem_keys_jobsNode_apply company rel value s.db k).1 hk with rfl | hk
    · exact ⟨company, rfl⟩
    · exact hs.companies k hk

/-- A new call has stored nothing yet. -/
theorem WholeJobs.addJobLocation {s : PostState P} (hs : WholeJobs s) (client : Nat)
    (call : CompletedCall P) : WholeJobs (s.next (.addJobLocation client call)) where
  nodup := hs.nodup
  companies := hs.companies
  alike := forall_mem_concat hs.alike (absurd rfl)
  node company := by
    refine (hs.node company).grows (grows_concat _ _) ?_
    rintro ⟨job, hjob, hawaits⟩
    exact ⟨job, List.mem_append_left _ hjob, hawaits⟩

/-- The answer to a location write. -/
theorem WholeJobs.answerLocation {s : PostState P} (hs : WholeJobs s) {i : Nat} {ok : Bool}
    (he : s.Enabled (.answerLocation i ok)) : WholeJobs (s.next (.answerLocation i ok)) := by
  obtain ⟨job, hi, hpending, -⟩ := he
  have hmem : job ∈ s.jobs := List.mem_of_getElem? hi
  have hd : job.details = .pending := by
    by_contra hd
    exact hd ((hs.alike job hmem hd).trans hpending)
  have hunstored : job.location ≠ .applied := by rw [hpending]; simp
  have hle : job.Le { job with location := .of ok } :=
    ⟨rfl, fun h => absurd h hunstored, id⟩
  have hgrows := grows_set hi hle
  have hkeeps : ∀ company, Awaits s.jobs company →
      Awaits (s.jobs.set i { job with location := .of ok }) company := fun company =>
    Awaits.set hi fun _ hl _ => absurd hl hunstored
  have hkeys := hs.keys_answered ok job.call.company (childPath job.call.position)
    (locationNode P job.call.location)
  rw [PostState.next_answerLocation hi]
  refine ⟨hkeys.1, hkeys.2, ?_, ?_⟩
  · refine forall_mem_set hs.alike ?_ i
    exact absurd hd
  · intro company
    cases ok with
    | false => exact (hs.node company).grows hgrows (hkeeps company)
    | true =>
      by_cases hc : job.call.company = company
      · subst hc
        have hnode := (hs.node job.call.company).locationPart hgrows
          (mem_set_of_getElem? hi) rfl rfl hd
        simpa only [answered, if_true, CompletedCall.locationPart, locationWrite,
          companyNode_apply_self] using hnode
      · simp only [answered, if_true, CompletedCall.locationPart, locationWrite,
          companyNode_apply_ne (Ne.symm hc)]
        exact (hs.node company).grows hgrows (hkeeps company)

/-- The answer to a details write, if it is the answer its location write got. -/
theorem WholeJobs.answerDetails {s : PostState P} (hs : WholeJobs s) {i : Nat} {ok : Bool}
    (he : s.Enabled (.answerDetails i ok))
    (halike : ∀ job, s.jobs[i]? = some job → (ok = true ↔ job.location = .applied)) :
    WholeJobs (s.next (.answerDetails i ok)) := by
  obtain ⟨job, hi, hanswered, hpending⟩ := he
  have hle : job.Le { job with details := .of ok } :=
    ⟨rfl, id, fun h => by rw [hpending] at h; cases h⟩
  have hgrows := grows_set hi hle
  have hsame : Answer.of ok = job.location := by
    cases ok with
    | true => exact ((halike job hi).1 rfl).symm
    | false =>
      have hne : job.location ≠ .applied := fun h => by cases (halike job hi).2 h
      cases hl : job.location with
      | pending => exact absurd hl hanswered
      | applied => exact absurd hl hne
      | rejected => rfl
  have hkeys := hs.keys_answered ok job.call.company ["details"]
    (newPost job.call.position job.call.salary)
  rw [PostState.next_answerDetails hi]
  refine ⟨hkeys.1, hkeys.2, ?_, ?_⟩
  · exact forall_mem_set hs.alike (fun _ => hsame) i
  · intro company
    cases ok with
    | false =>
      -- the location was rejected too, so nobody waits for these details
      refine (hs.node company).grows hgrows (Awaits.set hi ?_)
      intro _ hl _
      rw [← hsame] at hl
      cases hl
    | true =>
      by_cases hc : job.call.company = company
      · subst hc
        have hnode := (hs.node job.call.company).detailsPart hgrows
          (mem_set_of_getElem? hi) rfl rfl
        simpa only [answered, if_true, CompletedCall.detailsPart, detailsWrite,
          companyNode_apply_self] using hnode
      · simp only [answered, if_true, CompletedCall.detailsPart, detailsWrite,
          companyNode_apply_ne (Ne.symm hc)]
        exact (hs.node company).grows hgrows
          (Awaits.set hi fun hc' _ _ => absurd hc' hc)

/-- The callback stores nothing. -/
theorem WholeJobs.onComplete {s : PostState P} (hs : WholeJobs s) {i : Nat}
    (he : s.Enabled (.onComplete i)) : WholeJobs (s.next (.onComplete i)) := by
  obtain ⟨job, hi, -, -⟩ := he
  have hle : job.Le { job with toast := true } := ⟨rfl, id, id⟩
  rw [PostState.next_onComplete hi]
  refine ⟨hs.nodup, hs.companies, ?_, ?_⟩
  · refine forall_mem_set hs.alike ?_ i
    exact hs.alike job (List.mem_of_getElem? hi)
  · intro company
    exact (hs.node company).grows (grows_set hi hle)
      (Awaits.set hi fun hc hl hd => ⟨hc, hl, hd⟩)

/-! ## What is seen -/

/-- A company's node without coordinates to read: its children are all called `details`. -/
def OnlyDetails (data : DataSnapshot C) : Prop := ∀ data1 ∈ children data, data1.1 = "details"

/-- What a step shows is whole.  The markers that a map draws have their title and
their coordinates from calls of the company of which both parts are stored, and
`Job created` is shown for such a call.  Only where the loop has no coordinates to read may
a marker stand at the point it starts from. -/
def ShowsWhole (s : PostState P) : PostEvent P → Prop
  | .onDataChange dataSnapshot =>
    ∀ m ∈ ((EmployeeMapActivity.onMapReadyJobs P dataSnapshot).run []).2 ++
        ((BossMapActivity.onMapReadyJobs P dataSnapshot).run []).2,
      m.vars.markerOptions.title ≠ " -> " ∧
      (∃ job ∈ s.jobs, job.Stored ∧ job.call.company.text = m.company ∧
        job.call.position = m.vars.position ∧ job.call.salary = m.vars.salary) ∧
      ((∃ job ∈ s.jobs, job.Stored ∧ job.call.company.text = m.company ∧
        job.call.location = m.vars.location) ∨
        OnlyDetails (child dataSnapshot m.company) ∧ m.vars.location = ⟨P.zero, P.zero⟩)
  | .onComplete i => ∀ job, s.jobs[i]? = some job → job.Stored
  | _ => True

/-- The server answers the details of a call as it answered its location, no reader
comes while a call has stored its location and waits for the answer to its details,
and the callback comes after that answer and not for a rejected location. -/
def Orderly (s : PostState P) : PostEvent P → Prop
  | .answerDetails i ok => ∀ job, s.jobs[i]? = some job → (ok = true ↔ job.location = .applied)
  | .onDataChange _ => ∀ job ∈ s.jobs, job.location = .applied → job.details ≠ .pending
  | .onComplete i => ∀ job, s.jobs[i]? = some job →
      job.location = .applied ∧ job.details ≠ .pending
  | _ => True

/-- **One orderly step.** -/
theorem wholeJobs_next {s : PostState P} {e : PostEvent P} (hs : WholeJobs s)
    (he : (posting P).Enabled s e) (ho : Orderly s e) : WholeJobs ((posting P).next s e) := by
  cases e with
  | addJobLocation client call => exact hs.addJobLocation client call
  | answerLocation i ok => exact hs.answerLocation he
  | answerDetails i ok => exact hs.answerDetails he ho
  | onComplete i => exact hs.onComplete he
  | onDataChange dataSnapshot => exact hs

/-- A call that has not to wait for its details has stored both parts or none. -/
theorem WholeJobs.stored {s : PostState P} (hs : WholeJobs s) {job : PostedJob P}
    (hjob : job ∈ s.jobs) (hd : job.details ≠ .pending) (hl : job.location = .applied) :
    job.Stored := ⟨hl, (hs.alike job hjob hd).trans hl⟩

/-- The title of a job is not that of a company without details. -/
theorem title_ne_blank {vars : JobVars C} (h : vars.position ≠ "") :
    vars.markerOptions.title ≠ " -> " := by
  intro heq
  have hlen := congrArg String.length heq
  simp only [JobVars.markerOptions, String.length_append] at hlen
  refine h (String.length_eq_zero_iff.1 ?_)
  have harrow : " -> ".length = 4 := rfl
  omega

/-- What a reader draws of the calls, when none of them waits for its details. -/
theorem WholeJobs.drawn {s : PostState P} (hs : WholeJobs s)
    (hw : ∀ job ∈ s.jobs, job.location = .applied → job.details ≠ .pending)
    {dataSnapshot : DataSnapshot C} (hd : Delivers (jobsNode s.db) dataSnapshot)
    {m : JobMarker C} (hm : m ∈ ((drawJobs P dataSnapshot).run []).2) :
    (∃ job ∈ s.jobs, job.Stored ∧ job.call.company.text = m.company ∧
      job.call.position = m.vars.position ∧ job.call.salary = m.vars.salary) ∧
    ((∃ job ∈ s.jobs, job.Stored ∧ job.call.company.text = m.company ∧
      job.call.location = m.vars.location) ∨
      OnlyDetails (child dataSnapshot m.company) ∧ m.vars.location = ⟨P.zero, P.zero⟩) := by
  obtain ⟨n', hn', hv⟩ := mem_drawn P hm
  obtain ⟨n, hn, hr⟩ := hd.exists_of_mem hn'
  obtain ⟨company, hcompany⟩ := hs.companies _ (List.mem_map_of_mem hn)
  have hchild : child (jobsNode s.db) m.company = some n := lookup_of_mem hs.nodup hn
  have hnode := hs.node company
  rw [companyNode, hcompany, hchild] at hnode
  have hnd : (keys n'.children).Nodup :=
    ((hr.children_perm.map Prod.fst).nodup_iff).1 hnode.nodup
  have hread : child dataSnapshot m.company = some n' :=
    lookup_of_mem ((Shuffled.keys_perm hd).nodup_iff.1 hs.nodup) hn'
  constructor
  · rcases hnode.title (by simp) with ⟨job, hjob, hc, ha, hdet⟩ | ⟨job, hjob, -, hl, hp⟩
    · have hmem := hr.children_perm.mem_iff.1 (mem_of_lookup hdet)
      have ht := readCompany_title P hnd hmem hv
      rw [CompanyNode.detailsOf_newPost, Except.ok.injEq, Prod.mk.injEq] at ht
      have hanswered : job.details ≠ .pending := by simp [ha]
      have hl : job.location = .applied := (hs.alike job hjob hanswered).symm.trans ha
      exact ⟨job, hjob, ⟨hl, ha⟩, by rw [hc, hcompany], ht.1, ht.2⟩
    · exact absurd hp (hw job hjob hl)
  · rcases readCompany_location P hv with ⟨⟨k, c⟩, hc, hk, hloc⟩ | ⟨hdetails, hzero⟩
    · have hlook : child (some n) k = some c :=
        lookup_of_mem hnode.nodup (hr.children_perm.mem_iff.2 hc)
      have hplaced : pinOf P (child (some n) k) = .placed m.vars.location := by
        rw [hlook, pinOf_eq_placed]
        exact hloc
      obtain ⟨job, hjob, hcomp, ha, hcall⟩ := hnode.pins k hk _ hplaced
      exact Or.inl ⟨job, hjob, hs.stored hjob (hw job hjob ha) ha, by rw [hcomp, hcompany],
        hcall⟩
    · refine Or.inr ⟨?_, hzero⟩
      rw [hread]
      exact hdetails

/-- **No half job is seen in an orderly run.** -/
theorem showsWhole_of_orderly {tr : List (PostState P × PostEvent P)} {s : PostState P}
    (h : Trace (posting P) tr s) (ho : Meets Orderly tr) : Meets ShowsWhole tr := by
  refine h.meets_of_meets WholeJobs.start (fun s e hs he ho => wholeJobs_next hs he ho)
    ?_ ho
  intro s e hs he ho
  cases e with
  | onDataChange dataSnapshot =>
    intro m hm
    obtain ⟨htitle, hplace⟩ := hs.drawn ho he (mem_drawn_maps.1 hm)
    refine ⟨?_, htitle, hplace⟩
    obtain ⟨job, -, -, -, hp, -⟩ := htitle
    exact title_ne_blank (hp ▸ job.call.position_ne_empty)
  | onComplete i =>
    intro job hi
    obtain ⟨hl, hd⟩ := ho job hi
    exact hs.stored (List.mem_of_getElem? hi) hd hl
  | _ => trivial

/-- A call whose two writes are applied before its callback and a reader come. -/
def quietPost : List (PostEvent wholeDegrees) :=
  [.addJobLocation 0 cookPost, .answerLocation 0 true, .answerDetails 0 true, .onComplete 0,
    .onDataChange (jobsNode (runCalls [cookPost]))]

theorem quietPost_runs :
    Runs (posting wholeDegrees) (posting wholeDegrees).start quietPost := by
  refine ⟨trivial, ⟨_, rfl, rfl, ?_⟩, ⟨_, rfl, ?_, rfl⟩, ⟨_, rfl, ?_, rfl⟩, Shuffled.refl _,
    trivial⟩
  · simp [AnsweredBefore]
  · decide
  · decide

theorem showsWhole_quietPost :
    Meets ShowsWhole (steps (posting wholeDegrees) (posting wholeDegrees).start quietPost) := by
  refine showsWhole_of_orderly (Trace.of_events quietPost_runs) ?_
  simp only [quietPost, meets_steps_cons, meets_steps_nil, and_true]
  refine ⟨trivial, trivial, ?_, ?_, ?_⟩
  · rintro job ⟨rfl⟩
    decide
  · rintro job ⟨rfl⟩
    decide
  · intro job hjob
    obtain rfl := List.mem_singleton.1 hjob
    decide

/-- A call whose location is read before its details arrive. -/
def earlyReader : List (PostEvent wholeDegrees) :=
  [.addJobLocation 0 cookPost, .answerLocation 0 true,
    .onDataChange (jobsNode (cookPost.locationPart.apply none))]

theorem earlyReader_runs :
    Runs (posting wholeDegrees) (posting wholeDegrees).start earlyReader := by
  refine ⟨trivial, ⟨_, rfl, rfl, ?_⟩, Shuffled.refl _, trivial⟩
  simp [AnsweredBefore]

/-- The reader draws a marker without a title. -/
theorem not_showsWhole_earlyReader : ¬ ∀ tr s, Trace (posting wholeDegrees) tr s →
    Meets ShowsWhole tr := by
  intro h
  have hshown := h _ _ (Trace.of_events earlyReader_runs)
  simp only [earlyReader, meets_steps_cons] at hshown
  exact (hshown.2.2.1 ⟨"acme", ⟨2, 2, "", ""⟩⟩ (by decide)).1 (by decide)

end Partimer
