import Partimer.Screens.ViewJobs

/-!
# The job list under its readers

The two static lists behind `ViewJobUser` are filled entry by entry by the listeners of
the map screens, also by one that throws half way through its loops, and the adapter of
an open list reads them without being told of a change: nothing in the app calls
`notifyDataSetChanged`.

* `JobListState`, `JobListEvent`, `jobList` — the lists, the map screens that still wait
  for a snapshot and the list views, with any snapshots in any order.  What becomes of
  the process after a listener has thrown is left open: it may end at any time.
* `ReadSoFar` — the lists hold what was read of the delivered snapshots, one after the
  other; kept by every step (`ReadSoFar.next`).
* `Aligned`, `aligned_of_trace` — position and salary of a row come from one `details`
  node, and every row can be shown.
* `CountKept`, `countKept_iff` — a list view finds the count of its last layout pass
  exactly if nothing was read of the snapshots delivered since.
-/

namespace Partimer

open KeyTree JobLoops CreateJobCompany Transition

variable {C : Type}

/-! ## The lists and the views -/

/-- The list view of a `ViewJobUser`: the count at its last layout pass, and the
snapshots delivered since then, which only record what happened. -/
structure JobListView (C : Type) where
  lastCount : Option Nat
  since : List (DataSnapshot C)

/-- A layout pass asks the adapter for its count. -/
def JobListView.layout (lists : JobLists) : JobListView C :=
  ⟨some (CustomAdapter.getCount lists), []⟩

/-- A snapshot is delivered while the view is there. -/
def JobListView.deliver (view : JobListView C) (dataSnapshot : DataSnapshot C) :
    JobListView C :=
  { view with since := view.since ++ [dataSnapshot] }

/-- The static lists, the number of map screens whose snapshot of `Jobs` is still to
come, and the list views opened.  The snapshots delivered in the process are recorded. -/
structure JobListState (C : Type) where
  lists : JobLists
  waiting : Nat
  views : List (JobListView C)
  delivered : List (DataSnapshot C)

/-- What can happen. -/
inductive JobListEvent (C : Type) where
  /-- `EmployeeMapActivity` is created and asks for the jobs. -/
  | openMap
  /-- The jobs listener of a map screen runs on a snapshot. -/
  | deliverJobs (dataSnapshot : DataSnapshot C)
  /-- `ViewJobUser` is opened. -/
  | openViewJobs
  /-- The list view of the `i`th `ViewJobUser` is laid out. -/
  | layout (i : Nat)
  /-- The process ends. -/
  | killed

namespace JobListState

variable (P : Platform C) (s : JobListState C)

/-- When each event can happen. -/
def Enabled (s : JobListState C) : JobListEvent C → Prop
  | .deliverJobs _ => 0 < s.waiting
  | .layout i => ∃ view, s.views[i]? = some view
  | _ => True

/-- A process that has just started. -/
def fresh : JobListState C := ⟨⟨[], []⟩, 0, [], []⟩

/-- What each event does; a listener that throws leaves what it has added. -/
def next (s : JobListState C) : JobListEvent C → JobListState C
  | .openMap => { s with waiting := s.waiting + 1 }
  | .deliverJobs dataSnapshot =>
    { lists := ((EmployeeMapActivity.onCreateJobs P dataSnapshot).run s.lists).2
      waiting := s.waiting - 1
      views := s.views.map fun view => view.deliver dataSnapshot
      delivered := s.delivered ++ [dataSnapshot] }
  | .openViewJobs => { s with views := s.views ++ [⟨none, []⟩] }
  | .layout i => { s with views := s.views.set i (.layout s.lists) }
  | .killed => fresh

end JobListState

/-- The lists and their readers, from the start of a process. -/
def jobList (P : Platform C) : System (JobListState C) (JobListEvent C) where
  start := JobListState.fresh
  Enabled := JobListState.Enabled
  next := JobListState.next P

/-! ## What the lists hold -/

/-- **The invariant.**  The lists hold the jobs read of the delivered snapshots, and
since its last layout pass a view has missed those read of the snapshots since. -/
structure ReadSoFar (P : Platform C) (s : JobListState C) : Prop where
  lists : s.lists = (⟨[], []⟩ : JobLists).append (s.delivered.flatMap (jobsRead P))
  views : ∀ view ∈ s.views, ∀ n, view.lastCount = some n →
    CustomAdapter.getCount s.lists = n + (view.since.flatMap (jobsRead P)).length

variable {P : Platform C} {s : JobListState C}

theorem getCount_append (lists : JobLists) (jobs : List (String × String)) :
    CustomAdapter.getCount (lists.append jobs) = CustomAdapter.getCount lists + jobs.length := by
  simp [CustomAdapter.getCount, JobLists.append]

theorem ReadSoFar.fresh : ReadSoFar P (JobListState.fresh : JobListState C) := ⟨rfl, nofun⟩

/-- A listener adds what it reads, whether it finishes or throws. -/
theorem ReadSoFar.deliverJobs (h : ReadSoFar P s) (dataSnapshot : DataSnapshot C) :
    ReadSoFar P (s.next P (.deliverJobs dataSnapshot)) where
  lists := by
    simp only [JobListState.next, EmployeeMapActivity.onCreateJobs, listJobs_snd]
    rw [h.lists, ← JobLists.append_append, List.flatMap_append, List.flatMap_singleton]
  views := by
    intro view hview n hn
    simp only [JobListState.next, EmployeeMapActivity.onCreateJobs, listJobs_snd] at hview ⊢
    obtain ⟨old, hold, rfl⟩ := List.mem_map.1 hview
    have hcount := h.views old hold n hn
    rw [getCount_append, hcount, JobListView.deliver, List.flatMap_append,
      List.flatMap_singleton, List.length_append]
    omega

/-- **One step.** -/
theorem ReadSoFar.next (h : ReadSoFar P s) (e : JobListEvent C) : ReadSoFar P (s.next P e) := by
  cases e with
  | openMap => exact ⟨h.lists, h.views⟩
  | deliverJobs dataSnapshot => exact h.deliverJobs dataSnapshot
  | openViewJobs =>
    refine ⟨h.lists, ?_⟩
    refine forall_mem_concat h.views ?_
    intro n hn
    cases hn
  | layout i =>
    refine ⟨h.lists, ?_⟩
    refine forall_mem_set h.views ?_ i
    intro n hn
    cases hn
    rfl
  | killed => exact ReadSoFar.fresh

/-- It holds in every state that a run reaches. -/
theorem readSoFar_of_trace {tr : List (JobListState C × JobListEvent C)}
    (h : Trace (jobList P) tr s) : ReadSoFar P s :=
  h.invariant ReadSoFar.fresh fun _ e hs _ => hs.next e

/-! ## The two lists are aligned -/

/-- The lists have the same length, the entries at each index are those of one `details`
node of a delivered snapshot, and the adapter can show every row it counts. -/
structure Aligned (P : Platform C) (s : JobListState C) : Prop where
  length : s.lists.posArray.length = s.lists.salArray.length
  entries : ∀ i < s.lists.posArray.length, ∃ position salary,
    s.lists.posArray[i]? = some position ∧ s.lists.salArray[i]? = some salary ∧
      ∃ dataSnapshot ∈ s.delivered, ∃ data ∈ children dataSnapshot,
        ∃ data1 ∈ data.2.children, data1.1 = "details" ∧
          detailsOf P data1.2 = .ok (position, salary)
  rows : ∀ i < CustomAdapter.getCount s.lists, ∃ row, CustomAdapter.getView s.lists i = .ok row

/-- **The two lists stay aligned** in every state that a run reaches. -/
theorem aligned_of_trace {tr : List (JobListState C × JobListEvent C)}
    (h : Trace (jobList P) tr s) : Aligned P s := by
  have hlists := (readSoFar_of_trace h).lists
  have hentry : ∀ i < s.lists.posArray.length,
      ∃ job ∈ s.delivered.flatMap (jobsRead P),
        s.lists.posArray[i]? = some job.1 ∧ s.lists.salArray[i]? = some job.2 := by
    intro i hi
    rw [hlists] at hi ⊢
    simp only [JobLists.append, List.nil_append, List.length_map] at hi ⊢
    refine ⟨_, List.getElem_mem hi, ?_, ?_⟩
    · rw [List.getElem?_map, List.getElem?_eq_getElem hi]
      rfl
    · rw [List.getElem?_map, List.getElem?_eq_getElem hi]
      rfl
  refine ⟨?_, ?_, ?_⟩
  · rw [hlists]
    simp [JobLists.append]
  · intro i hi
    obtain ⟨job, hjob, hposition, hsalary⟩ := hentry i hi
    obtain ⟨dataSnapshot, hdelivered, hread⟩ := List.mem_flatMap.1 hjob
    exact ⟨job.1, job.2, hposition, hsalary, dataSnapshot, hdelivered, mem_jobsRead P hread⟩
  · intro i hi
    obtain ⟨job, -, hposition, hsalary⟩ := hentry i hi
    refine ⟨job, ?_⟩
    simp only [CustomAdapter.getView, ArrayList.get, hposition, hsalary]
    rfl

/-! A listener that throws half way through. -/

/-- A company whose salary is missing, between two whole jobs. -/
def brokenJobs : DataSnapshot Int :=
  some (.inner [("acme", .inner [("details", newPost "Cook" "10")]),
    ("beta", .inner [("details", mapNode [("Position", "Driver")])]),
    ("gamma", .inner [("details", newPost "Waiter" "12")])])

theorem brokenJobs_runs : Runs (jobList wholeDegrees) (jobList wholeDegrees).start
    [.openMap, .openMap, .deliverJobs brokenJobs, .deliverJobs brokenJobs] :=
  ⟨trivial, trivial, Nat.two_pos, Nat.one_pos, trivial⟩

theorem aligned_brokenJobs : Aligned wholeDegrees
    ([.openMap, .openMap, .deliverJobs brokenJobs, .deliverJobs brokenJobs].foldl
      (jobList wholeDegrees).next (jobList wholeDegrees).start) :=
  aligned_of_trace (Trace.of_events brokenJobs_runs)

/-! ## The count under a displayed list -/

/-- A layout pass of a list view finds the count of the pass before. -/
def CountKept (s : JobListState C) : JobListEvent C → Prop
  | .layout i => ∀ view n, s.views[i]? = some view → view.lastCount = some n →
      CustomAdapter.getCount s.lists = n
  | _ => True

/-- When a list view is laid out again, the snapshots delivered since its last layout
pass had nothing to read: each has no `details` node, or the first one holds no job. -/
def NothingToRead (P : Platform C) (s : JobListState C) : JobListEvent C → Prop
  | .layout i => ∀ view n, s.views[i]? = some view → view.lastCount = some n →
      ∀ dataSnapshot ∈ view.since, ∀ data1, firstDetails dataSnapshot = some data1 →
        ¬ ∃ job, detailsOf P data1.2 = .ok job
  | _ => True

/-- **When the count under a displayed list stays.** -/
theorem countKept_iff {tr : List (JobListState C × JobListEvent C)}
    (h : Trace (jobList P) tr s) : Meets CountKept tr ↔ Meets (NothingToRead P) tr := by
  refine h.meets_iff (I := ReadSoFar P) ReadSoFar.fresh (fun _ e hs _ => hs.next e) ?_
  intro s e hs _
  cases e with
  | layout i =>
    refine forall_congr' fun view => forall_congr' fun n => forall₂_congr ?_
    intro hview hn
    have hcount := hs.views view (List.mem_of_getElem? hview) n hn
    rw [hcount, Nat.add_eq_left, List.length_eq_zero_iff, List.flatMap_eq_nil_iff]
    exact forall₂_congr fun dataSnapshot _ => jobsRead_eq_nil_iff P
  | _ => exact Iff.rfl

/-- A list that is laid out twice after the jobs have arrived. -/
def quietList : List (JobListEvent Int) :=
  [.openMap, .deliverJobs (jobsNode (cookPost.apply none)), .openViewJobs, .layout 0, .layout 0]

theorem quietList_runs :
    Runs (jobList wholeDegrees) (jobList wholeDegrees).start quietList :=
  ⟨trivial, Nat.one_pos, trivial, ⟨_, rfl⟩, ⟨_, rfl⟩, trivial⟩

theorem countKept_quietList : Meets CountKept
    (steps (jobList wholeDegrees) (jobList wholeDegrees).start quietList) := by
  refine (countKept_iff (Trace.of_events quietList_runs)).2 ?_
  simp only [quietList, meets_steps_cons, meets_steps_nil, and_true]
  refine ⟨trivial, trivial, trivial, ?_, ?_⟩
  · rintro view n ⟨⟩ ⟨⟩
  · rintro view n ⟨⟩ ⟨⟩ dataSnapshot hsince
    cases hsince

/-- The jobs of a map screen arrive between two layout passes. -/
def lateJobs : List (JobListEvent Int) :=
  [.openMap, .openViewJobs, .layout 0, .deliverJobs (jobsNode (cookPost.apply none)), .layout 0]

theorem lateJobs_runs :
    Runs (jobList wholeDegrees) (jobList wholeDegrees).start lateJobs :=
  ⟨trivial, trivial, ⟨_, rfl⟩, Nat.one_pos, ⟨_, rfl⟩, trivial⟩

/-- The list has grown from nothing to one row. -/
theorem not_countKept_lateJobs : ¬ ∀ tr s, Trace (jobList wholeDegrees) tr s →
    Meets CountKept tr := by
  intro h
  have hkept := h _ _ (Trace.of_events lateJobs_runs) _
    (mem_steps lateJobs.dropLast (.layout 0) [] _)
  have hcount := hkept _ 0 rfl rfl
  exact absurd hcount (by decide)

end Partimer
