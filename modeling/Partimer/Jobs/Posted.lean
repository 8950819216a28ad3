import Partimer.Jobs.Pins

/-!
# What the maps show of the posted jobs

A company posts any number of jobs; each post leaves a location under its own
position and one shared `details` child.  The readers draw one marker for each
company, with the title in `details` and the coordinates of whichever location
comes last.  This file says exactly which runs of posts the maps and the list show
as they were posted.

* `Unmixed`, `unmixed_iff` — every marker is one post, in every order in which the
  database lists children, exactly if each pin a company leaves standing was
  posted together with its latest title.
* `NothingLost`, `nothingLost_iff` — every posted job is listed and drawn exactly
  if every company's jobs are all some company's latest post and no pin is broken.
* `Finishes`, `finishes_iff` — the loops get through exactly if no pin is broken;
  `noBrokenPin_of_plain` — positions of a single path segment break none.
-/

namespace Partimer

open KeyTree CreateJobCompany JobLoops

variable {C : Type} {P : Platform C}

/-- A listener on `t` may be handed `s`: the same tree, the children of the node and
of its children listed in some order. -/
def Delivers (t s : DataSnapshot C) : Prop := Shuffled (children t) (children s)

/-! ## Companies in a snapshot -/

/-- A company node in a snapshot of the tree of a run is that of a company that
posted, its children in some order. -/
theorem JobsTree.of_mem {run : List (CompletedCall P)} {db : Database C} (hdb : JobsTree run db)
    {s : DataSnapshot C} (hs : Delivers (jobsNode db) s) {k : String} {m : Node String (Value C)}
    (hm : (k, m) ∈ children s) :
    ∃ company n z, company.text = k ∧ (history company run).getLast? = some z ∧
      CompanyNode (history company run) (some n) ∧ Reordered n m := by
  obtain ⟨n, hn, hr⟩ := hs.exists_of_mem hm
  obtain ⟨call, hcall, rfl⟩ := (hdb.companies k).1 (List.mem_map_of_mem hn)
  have hchild : child (jobsNode db) call.company.text = some n := lookup_of_mem hdb.nodup hn
  have hnode := hdb.node call.company
  rw [companyNode, hchild] at hnode
  have hne : history call.company run ≠ [] :=
    List.ne_nil_of_mem (mem_history.2 ⟨hcall, rfl⟩)
  exact ⟨call.company, n, _, rfl, List.getLast?_eq_getLast_of_ne_nil hne, hnode, hr⟩

/-- A company that posted has a node. -/
theorem JobsTree.exists_node {run : List (CompletedCall P)} {db : Database C}
    (hdb : JobsTree run db) {company : Uid} {z : CompletedCall P}
    (hz : (history company run).getLast? = some z) :
    ∃ n, (company.text, n) ∈ children (jobsNode db) ∧
      CompanyNode (history company run) (some n) := by
  obtain ⟨hmem, hcompany⟩ := mem_history.1 (List.mem_of_getLast? hz)
  have hkey := (hdb.companies company.text).2 ⟨z, hmem, by rw [hcompany]⟩
  obtain ⟨⟨k, n⟩, hn, rfl⟩ := List.mem_map.1 hkey
  refine ⟨n, hn, ?_⟩
  have hchild : child (jobsNode db) company.text = some n := lookup_of_mem hdb.nodup hn
  have hnode := hdb.node company
  rwa [companyNode, hchild] at hnode

/-! ## No marker mixes two jobs -/

/-- What a marker of the job posted would be drawn from. -/
def CreateJobCompany.CompletedCall.vars (call : CompletedCall P) : JobVars C where
  latitude := call.location.latitude
  longitude := call.location.longitude
  position := call.position
  salary := call.salary

/-- Every marker that a map draws after the run, in whatever order the database
lists the children, has its position, salary and coordinates from one and the same
call of its company. -/
def Unmixed (run : List (CompletedCall P)) : Prop :=
  ∀ s, Delivers (jobsNode (runCalls run)) s →
    ∀ m ∈ ((EmployeeMapActivity.onMapReadyJobs P s).run []).2 ++
        ((BossMapActivity.onMapReadyJobs P s).run []).2,
      ∃ call ∈ run, call.company.text = m.company ∧ m.vars = call.vars

/-- The pins that the posts `h` of a company leave, against the title they leave,
that of `z`: either some pin is broken, and no marker is drawn for the company, or
every pin standing was posted under that title; and if none stands, so was the
point the readers start from. -/
def PinsTitled (h : List (CompletedCall P)) (z : CompletedCall P) : Prop :=
  (∃ k, k ≠ "details" ∧ pin k h = .broken) ∨
    (∀ k location, k ≠ "details" → pin k h = .placed location →
      ∃ call ∈ h, call.position = z.position ∧ call.salary = z.salary ∧
        call.location = location) ∧
    ((∀ k, k ≠ "details" → pin k h = .absent) →
      ∃ call ∈ h, call.position = z.position ∧ call.salary = z.salary ∧
        call.location = ⟨P.zero, P.zero⟩)

theorem CompletedCall.vars_eq_iff {call : CompletedCall P} {vars : JobVars C} :
    vars = call.vars ↔ call.position = vars.position ∧ call.salary = vars.salary ∧
      call.location = vars.location := by
  obtain ⟨lat, long, p, s⟩ := vars
  rcases hl : call.location with ⟨clat, clong⟩
  simp only [CompletedCall.vars, JobVars.location, hl, JobVars.mk.injEq, GeoLocation.mk.injEq]
  constructor
  · rintro ⟨rfl, rfl, rfl, rfl⟩
    exact ⟨rfl, rfl, rfl, rfl⟩
  · rintro ⟨rfl, rfl, rfl, rfl⟩
    exact ⟨rfl, rfl, rfl, rfl⟩

/-- A marker that a loop draws first, in some order of the children. -/
theorem exists_drawn_of_order {db : Database C} {k : String} {n m : Node String (Value C)}
    {vars : JobVars C} (hn : (k, n) ∈ children (jobsNode db)) (hm : Reordered n m)
    (hv : readCompany P m = .ok vars) :
    ∃ s, Delivers (jobsNode db) s ∧ ⟨k, vars⟩ ∈ ((drawJobs P s).run []).2 := by
  obtain ⟨rest, hrest⟩ := Shuffled.exists_first hn hm
  exact ⟨some (.inner ((k, m) :: rest)), hrest, mem_drawn_of_first P hv []⟩

theorem mem_drawn_maps {s : DataSnapshot C} {m : JobMarker C} :
    m ∈ ((EmployeeMapActivity.onMapReadyJobs P s).run []).2 ++
        ((BossMapActivity.onMapReadyJobs P s).run []).2 ↔
      m ∈ ((drawJobs P s).run []).2 := by
  rw [List.mem_append]
  exact or_self_iff

/-- When no marker mixes two jobs, a company's pins carry its latest title. -/
theorem PinsTitled.of_unmixed {run : List (CompletedCall P)} (hU : Unmixed run) {company : Uid}
    {z : CompletedCall P} (hz : (history company run).getLast? = some z) :
    PinsTitled (history company run) z := by
  have htree := jobsTree_runCalls run
  obtain ⟨n, hn, hnode⟩ := htree.exists_node hz
  -- whatever the readers make of the node in some order is one of the company's posts
  have hread : ∀ m vars, Reordered n m → readCompany P m = .ok vars →
      ∃ call ∈ history company run, call.position = z.position ∧ call.salary = z.salary ∧
        call.location = vars.location := by
    intro m vars hm hv
    obtain ⟨s, hs, hdrawn⟩ := exists_drawn_of_order hn hm hv
    obtain ⟨call, hcall, hcompany, hvars⟩ := hU s hs _ (mem_drawn_maps.2 hdrawn)
    obtain ⟨hp, hsal, hloc⟩ := CompletedCall.vars_eq_iff.1 hvars
    obtain ⟨hp', hsal'⟩ := hnode.read_title hm hz hv
    exact ⟨call, mem_history.2 ⟨hcall, Uid.ext_text hcompany⟩, hp.trans hp',
      hsal.trans hsal', hloc⟩
  by_cases hb : ∃ k, k ≠ "details" ∧ pin k (history company run) = .broken
  · exact Or.inl hb
  · push Not at hb
    refine Or.inr ⟨?_, ?_⟩
    · intro k location hk hp
      obtain ⟨m, vars, hm, hv, hloc⟩ := hnode.exists_order hz hb hk hp
      rw [← hloc]
      exact hread m vars hm hv
    · intro habsent
      obtain ⟨vars, hv⟩ := (hnode.read_ok_iff (.refl n) hz).2 hb
      have hzero : vars.location = ⟨P.zero, P.zero⟩ := by
        rcases hnode.read_location (.refl n) hv with ⟨k, hk, hp⟩ | ⟨-, hzero⟩
        · rw [habsent k hk] at hp; cases hp
        · exact hzero
      rw [← hzero]
      exact hread n vars (.refl n) hv

/-- When all pins do, no marker mixes two jobs. -/
theorem Unmixed.of_pinsTitled {run : List (CompletedCall P)}
    (hT : ∀ company z, (history company run).getLast? = some z →
      PinsTitled (history company run) z) : Unmixed run := by
  intro s hs m hm
  obtain ⟨m', hm', hv⟩ := mem_drawn P (mem_drawn_maps.1 hm)
  obtain ⟨company, n, z, hcompany, hz, hnode, hr⟩ := (jobsTree_runCalls run).of_mem hs hm'
  obtain ⟨hp, hsal⟩ := hnode.read_title hr hz hv
  have hpost : ∃ call ∈ history company run, call.position = z.position ∧
      call.salary = z.salary ∧ call.location = m.vars.location := by
    rcases hT company z hz with ⟨k, hk, hb⟩ | ⟨hplaced, habsent⟩
    · exact absurd hb ((hnode.read_ok_iff hr hz).1 ⟨_, hv⟩ k hk)
    · rcases hnode.read_location hr hv with ⟨k, hk, hpl⟩ | ⟨hall, hzero⟩
      · exact hplaced k _ hk hpl
      · rw [hzero]
        exact habsent hall
  obtain ⟨call, hcall, hp', hsal', hloc⟩ := hpost
  obtain ⟨hrun, rfl⟩ := mem_history.1 hcall
  exact ⟨call, hrun, hcompany, CompletedCall.vars_eq_iff.2
    ⟨hp'.trans hp.symm, hsal'.trans hsal.symm, hloc⟩⟩

/-- **When no marker mixes two jobs.**  Exactly when every company's pins carry its
latest title. -/
theorem unmixed_iff (run : List (CompletedCall P)) :
    Unmixed run ↔ ∀ company z, (history company run).getLast? = some z →
      PinsTitled (history company run) z :=
  ⟨fun hU _ _ hz => .of_unmixed hU hz, .of_pinsTitled⟩

/-! Two jobs of one company at different places. -/

/-- A company posts a cook's job … -/
def cookPost : CompletedCall wholeDegrees where
  company := acme
  form := ⟨"Cook", "10", "2", "2"⟩
  location := ⟨2, 2⟩
  completes := rfl

/-- … and then a waiter's job elsewhere. -/
def waiterPost : CompletedCall wholeDegrees where
  company := acme
  form := ⟨"Waiter", "12", "1", "1"⟩
  location := ⟨1, 1⟩
  completes := rfl

/-- The tree of the two posts, the children in the order of their geohashes. -/
def twoPosts : DataSnapshot Int :=
  some (.inner [("acme", .inner [("details", newPost "Waiter" "12"),
    ("Waiter", locationNode wholeDegrees ⟨1, 1⟩), ("Cook", locationNode wholeDegrees ⟨2, 2⟩)])])

theorem twoPosts_delivers : Delivers (jobsNode (runCalls [cookPost, waiterPost])) twoPosts := by
  refine ⟨_, .refl _, .cons ⟨rfl, .inner ?_⟩ .nil⟩
  -- the cook's location was written first
  exact (List.perm_append_singleton _ [_, _]).symm

/-- The waiter's title stands at the cook's place. -/
theorem not_unmixed_twoPosts : ¬ Unmixed [cookPost, waiterPost] := by
  intro hU
  obtain ⟨call, hcall, -, hvars⟩ := hU twoPosts twoPosts_delivers
    ⟨"acme", ⟨2, 2, "Waiter", "12"⟩⟩ (by decide)
  simp only [List.mem_cons, List.not_mem_nil, or_false] at hcall
  rcases hcall with rfl | rfl
  · exact absurd hvars (by decide)
  · exact absurd hvars (by decide)

/-! ## No posted job is lost -/

/-- No company's history leaves a broken pin. -/
def NoBrokenPin (run : List (CompletedCall P)) : Prop :=
  ∀ company k, k ≠ "details" → pin k (history company run) ≠ .broken

/-- `call` is its company's latest post of its position in the run. -/
def LatestPost (run : List (CompletedCall P)) (call : CompletedCall P) : Prop :=
  ∃ pre post, run = pre ++ call :: post ∧
    ∀ later ∈ post, later.company = call.company → later.position ≠ call.position

/-- Every job posted in the run, with the salary of its company's latest post of it,
is among the entries that a pass of the list loop appends, and some marker drawn by
the employees' map carries it. -/
def NothingLost (run : List (CompletedCall P)) : Prop :=
  ∀ s, Delivers (jobsNode (runCalls run)) s → ∀ call, LatestPost run call →
    (∀ lists, (call.position, call.salary) ∈
      (((EmployeeMapActivity.onCreateJobs P s).run lists).2.posArray.drop
        lists.posArray.length).zip
      (((EmployeeMapActivity.onCreateJobs P s).run lists).2.salArray.drop
        lists.salArray.length)) ∧
    ∃ m ∈ ((EmployeeMapActivity.onMapReadyJobs P s).run []).2,
      m.vars.markerOptions.title = call.position ++ " -> " ++ call.salary

/-- The list loop finds a job in every `details` child of the tree of a run. -/
theorem JobsTree.listReadable {run : List (CompletedCall P)} {db : Database C}
    (hdb : JobsTree run db) {s : DataSnapshot C} (hs : Delivers (jobsNode db) s) :
    ListReadable P s := by
  rintro ⟨k, m⟩ hm ⟨k', c⟩ hc rfl
  obtain ⟨company, n, z, -, hz, hnode, hr⟩ := hdb.of_mem hs hm
  obtain rfl : c = newPost z.position z.salary := hnode.eq_newPost_of_mem hr hz hc
  exact ⟨_, CompanyNode.detailsOf_newPost z.position z.salary⟩

/-- The jobs a snapshot of the tree of a run lists are the latest post of each
company. -/
theorem JobsTree.mem_snapshotJobs {run : List (CompletedCall P)} {db : Database C}
    (hdb : JobsTree run db) {s : DataSnapshot C} (hs : Delivers (jobsNode db) s)
    {job : String × String} :
    job ∈ snapshotJobs P s ↔ ∃ company z, (history company run).getLast? = some z ∧
      z.position = job.1 ∧ z.salary = job.2 := by
  simp only [snapshotJobs, companyJobs, List.mem_flatMap]
  constructor
  · rintro ⟨⟨k, m⟩, hm, ⟨k', c⟩, hc, hjob⟩
    obtain ⟨company, n, z, -, hz, hnode, hr⟩ := hdb.of_mem hs hm
    by_cases hk : k' = "details"
    · subst hk
      obtain rfl := hnode.eq_newPost_of_mem hr hz hc
      obtain rfl : job = (z.position, z.salary) := by
        simpa [childJobs, CompanyNode.detailsOf_newPost, Except.toOption] using hjob
      exact ⟨company, z, hz, rfl, rfl⟩
    · simp [childJobs, hk] at hjob
  · rintro ⟨company, z, hz, hp, hsal⟩
    obtain ⟨n, hn, hnode⟩ := hdb.exists_node hz
    obtain ⟨m, hm, hr⟩ := hs.exists_of_mem_left hn
    refine ⟨_, hm, _, hnode.details_mem hr hz, ?_⟩
    simp [childJobs, CompanyNode.detailsOf_newPost, Except.toOption, hp, hsal]

/-- The marker loops get through the tree of a run exactly if no pin is broken. -/
theorem JobsTree.drawJobs_ok_iff {run : List (CompletedCall P)} {db : Database C}
    (hdb : JobsTree run db) {s : DataSnapshot C} (hs : Delivers (jobsNode db) s)
    (ms : List (JobMarker C)) :
    ((drawJobs P s).run ms).1 = .ok () ↔ NoBrokenPin run := by
  rw [JobLoops.drawJobs_ok_iff]
  constructor
  · intro hall company k hk hb
    rcases hz : (history company run).getLast? with _ | z
    · rw [List.getLast?_eq_none_iff.1 hz] at hb
      cases hb
    · obtain ⟨n, hn, hnode⟩ := hdb.exists_node hz
      obtain ⟨m, hm, hr⟩ := hs.exists_of_mem_left hn
      exact (hnode.read_ok_iff hr hz).1 (hall _ hm) k hk hb
  · rintro hB ⟨k, m⟩ hm
    obtain ⟨company, n, z, -, hz, hnode, hr⟩ := hdb.of_mem hs hm
    exact (hnode.read_ok_iff hr hz).2 (hB company)

/-- A snapshot in which a company with a broken pin comes first shows no marker. -/
theorem JobsTree.exists_drawn_nil {run : List (CompletedCall P)} {db : Database C}
    (hdb : JobsTree run db) (hB : ¬ NoBrokenPin run) :
    ∃ s, Delivers (jobsNode db) s ∧ ((drawJobs P s).run []).2 = [] := by
  rw [← hdb.drawJobs_ok_iff (Shuffled.refl _) [], JobLoops.drawJobs_ok_iff] at hB
  push Not at hB
  obtain ⟨⟨k, n⟩, hn, hv⟩ := hB
  cases hread : readCompany P n with
  | ok vars => exact absurd hread (hv vars)
  | error e =>
    obtain ⟨rest, hrest⟩ := Shuffled.exists_first hn (.refl n)
    exact ⟨some (.inner ((k, n) :: rest)), hrest, drawn_of_first_throws P hread []⟩

/-- A pass of the list loop over the tree of a run appends the jobs it lists. -/
theorem JobsTree.mem_appended {run : List (CompletedCall P)} {db : Database C}
    (hdb : JobsTree run db) {s : DataSnapshot C} (hs : Delivers (jobsNode db) s)
    (lists : JobLists) {job : String × String} :
    job ∈ (((EmployeeMapActivity.onCreateJobs P s).run lists).2.posArray.drop
        lists.posArray.length).zip
      (((EmployeeMapActivity.onCreateJobs P s).run lists).2.salArray.drop
        lists.salArray.length) ↔ job ∈ snapshotJobs P s := by
  rw [EmployeeMapActivity.onCreateJobs, listJobs_run P (hdb.listReadable hs)]
  simp [JobLists.append, List.zip_map']

/-- **When no posted job is lost.**  No pin is broken, and whatever some company
posted last of a position is the latest post of some company. -/
theorem nothingLost_iff (run : List (CompletedCall P)) :
    NothingLost run ↔ NoBrokenPin run ∧ ∀ call, LatestPost run call →
      ∃ company z, (history company run).getLast? = some z ∧
        z.position = call.position ∧ z.salary = call.salary := by
  have htree := jobsTree_runCalls run
  constructor
  · intro hN
    constructor
    · by_contra hB
      obtain ⟨s, hs, hnil⟩ := htree.exists_drawn_nil hB
      have hne : run ≠ [] := by
        rintro rfl
        exact hB fun company k _ => by simp [history]
      have hlast : LatestPost run (run.getLast hne) :=
        ⟨run.dropLast, [], (List.dropLast_append_getLast hne).symm, by simp⟩
      obtain ⟨m, hm, -⟩ := (hN s hs _ hlast).2
      rw [EmployeeMapActivity.onMapReadyJobs, hnil] at hm
      simp at hm
    · intro call hcall
      have hlist := (hN _ (Shuffled.refl _) call hcall).1 ⟨[], []⟩
      exact (htree.mem_snapshotJobs (Shuffled.refl _)).1
        ((htree.mem_appended (Shuffled.refl _) ⟨[], []⟩).1 hlist)
  · rintro ⟨hB, hL⟩ s hs call hcall
    obtain ⟨company, z, hz, hp, hsal⟩ := hL call hcall
    constructor
    · intro lists
      exact (htree.mem_appended hs lists).2
        ((htree.mem_snapshotJobs hs).2 ⟨company, z, hz, hp, hsal⟩)
    · obtain ⟨n, hn, hnode⟩ := htree.exists_node hz
      obtain ⟨m, hm, hr⟩ := hs.exists_of_mem_left hn
      obtain ⟨vars, hv⟩ := (hnode.read_ok_iff hr hz).2 (hB company)
      refine ⟨_, mem_drawn_of_ok P ((htree.drawJobs_ok_iff hs []).2 hB) hm hv, ?_⟩
      obtain ⟨hp', hsal'⟩ := hnode.read_title hr hz hv
      simp [JobVars.markerOptions, hp', hsal', hp, hsal]

/-- The cook's job is neither listed nor drawn once the waiter's is posted. -/
theorem not_nothingLost_twoPosts : ¬ NothingLost [cookPost, waiterPost] := by
  intro hN
  have hlast : LatestPost [cookPost, waiterPost] cookPost :=
    ⟨[], [waiterPost], rfl, fun later hlater _ => by
      rw [List.mem_singleton.1 hlater]
      decide⟩
  have hlisted := (hN twoPosts twoPosts_delivers cookPost hlast).1 ⟨[], []⟩
  exact absurd hlisted (by decide)

/-! ## No post breaks the readers -/

/-- The three loops get through the tree of the run, in whatever order the database
lists the children. -/
def Finishes (run : List (CompletedCall P)) : Prop :=
  ∀ s, Delivers (jobsNode (runCalls run)) s →
    (∀ lists, ((EmployeeMapActivity.onCreateJobs P s).run lists).1 = .ok ()) ∧
    (∀ ms, ((EmployeeMapActivity.onMapReadyJobs P s).run ms).1 = .ok ()) ∧
    (∀ ms, ((BossMapActivity.onMapReadyJobs P s).run ms).1 = .ok ())

/-- **When the readers get through.**  Exactly if no company's history leaves a
broken pin. -/
theorem finishes_iff (run : List (CompletedCall P)) : Finishes run ↔ NoBrokenPin run := by
  have htree := jobsTree_runCalls run
  constructor
  · intro hF
    exact (htree.drawJobs_ok_iff (Shuffled.refl _) []).1
      ((hF _ (Shuffled.refl _)).2.1 [])
  · intro hB s hs
    refine ⟨?_, ?_, ?_⟩
    · intro lists
      exact (listJobs_ok_iff P).2 (htree.listReadable hs)
    · intro ms
      exact (htree.drawJobs_ok_iff hs ms).2 hB
    · intro ms
      exact (htree.drawJobs_ok_iff hs ms).2 hB

/-- A job whose position is two segments of a path. -/
def slashPost : CompletedCall wholeDegrees where
  company := acme
  form := ⟨"Waiter/Barista", "12", "1", "1"⟩
  location := ⟨1, 1⟩
  completes := rfl

/-- Its location lies one level too deep for the readers. -/
theorem not_finishes_slashPost : ¬ Finishes [slashPost] := by
  intro hF
  have hmap := (hF _ (Shuffled.refl _)).2.1 []
  exact absurd hmap (by decide)

/-- Positions of a single path segment break no pin. -/
theorem noBrokenPin_of_plain {run : List (CompletedCall P)}
    (h : ∀ call ∈ run, ∃ k, childPath call.position = [k]) : NoBrokenPin run := by
  intro company k _
  have hh : ∀ call ∈ history company run, ∃ k, childPath call.position = [k] :=
    fun call hcall => h call (mem_history.1 hcall).1
  generalize history company run = hist at hh
  induction hist using List.reverseRecOn with
  | nil => simp
  | append_singleton hist call ih =>
    obtain ⟨k', hk'⟩ := hh call (by simp)
    rw [pin_concat, hk', Pin.write, Pin.writeBelow]
    split
    · simp
    · exact ih fun call hcall => hh call (List.mem_append_left _ hcall)

end Partimer
