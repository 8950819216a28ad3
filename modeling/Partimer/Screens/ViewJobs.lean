import Partimer.Screens.EmployeeMap

/-!
# The rows of the job list

`ViewJobUser` shows one row for each entry of the static lists `posArray` and
`salArray`, which every map screen created in the process appends to.

* `CustomAdapter.getCount`, `CustomAdapter.getView`, `CustomAdapter.rows` — the
  adapter; `Filled.rows` — its rows are the jobs of all the snapshots delivered in
  the process.
* `rowsAreLatest_iff` — they are those of the latest snapshot alone exactly if no
  earlier one listed a job.
-/

namespace Partimer

open JobLoops Transition

variable {C : Type} {P : Platform C} {s : Session C}

namespace CustomAdapter

/-- `getCount`. -/
def getCount (lists : JobLists) : Nat := lists.posArray.length

/-- `getView`: the two texts of a row. -/
def getView (lists : JobLists) (position : Nat) : Except Exn (String × String) := do
  let textPosition ← ArrayList.get lists.posArray position
  let textSalary ← ArrayList.get lists.salArray position
  return (textPosition, textSalary)

/-- The rows that the list view asks for. -/
def rows (lists : JobLists) : List (Except Exn (String × String)) :=
  (List.range (getCount lists)).map (getView lists)

/-- Lists filled from one list of jobs have these jobs as their rows. -/
theorem rows_append_nil (jobs : List (String × String)) :
    rows ((⟨[], []⟩ : JobLists).append jobs) = jobs.map .ok := by
  refine List.ext_getElem (by simp [rows, getCount, JobLists.append]) ?_
  intro i hi hi'
  have hlt : i < jobs.length := by simpa using hi'
  simp [rows, getView, ArrayList.get, JobLists.append, hlt]
  rfl

end CustomAdapter

/-- The rows are the jobs of every snapshot delivered in the process. -/
theorem Filled.rows (h : Filled P s.process) : CustomAdapter.rows s.process.lists =
    (s.process.jobsDelivered.flatMap (snapshotJobs P)).map .ok := by
  rw [h.lists, CustomAdapter.rows_append_nil]

/-- Once every requested snapshot has been delivered, the rows are the jobs of the
company nodes in the one delivered last, each once and in its order. -/
def RowsAreLatest (P : Platform C) (s : Session C) : Prop :=
  s.process.jobsRequests = [] → ∀ last, s.process.jobsDelivered.getLast? = some last →
    CustomAdapter.rows s.process.lists = (snapshotJobs P last).map .ok

/-- Once every requested snapshot has been delivered, those delivered before the last
one in the process list no job. -/
def EarlierListNothing (P : Platform C) (s : Session C) : Prop :=
  s.process.jobsRequests = [] →
    ∀ earlier ∈ s.process.jobsDelivered.dropLast, snapshotJobs P earlier = []

/-- **When the list shows each current job once.** -/
theorem rowsAreLatest_iff {tr : List (Session C × SessionEvent C)}
    (h : Trace (session P) tr s) : RowsAreLatest P s ↔ EarlierListNothing P s := by
  refine imp_congr_right ?_
  intro _
  rw [(filled_of_trace h).rows]
  rcases List.eq_nil_or_concat s.process.jobsDelivered with hnil | ⟨init, last, hsplit⟩
  · simp [hnil]
  · rw [hsplit, List.concat_eq_append, List.getLast?_concat, List.dropLast_concat,
      List.flatMap_append, List.flatMap_singleton, List.map_append]
    simp

/-! A job that stays posted, and a map that is opened twice. -/

/-- Post a job, sign in and open the map. -/
def firstMap : List (SessionEvent Int) :=
  [.write cookPost.locationPart, .write cookPost.detailsPart, .signIn acme, .openMap]

/-- The snapshot arrives. -/
def jobsArrive : List (SessionEvent Int) :=
  [.answerJobs 0 (jobsNode (cookPost.apply none)), .deliverJobs 0]

theorem firstMap_runs : Runs (session wholeDegrees) (session wholeDegrees).start
    (firstMap ++ jobsArrive) :=
  ⟨trivial, trivial, trivial, trivial, ⟨rfl, KeyTree.Shuffled.refl _⟩, ⟨_, rfl⟩, trivial⟩

theorem rowsAreLatest_firstMap : RowsAreLatest wholeDegrees
    ((firstMap ++ jobsArrive).foldl (session wholeDegrees).next (session wholeDegrees).start) :=
  (rowsAreLatest_iff (Trace.of_events firstMap_runs)).2 fun _ _ hearlier => nomatch hearlier

theorem secondMap_runs : Runs (session wholeDegrees) (session wholeDegrees).start
    (firstMap ++ jobsArrive ++ .openMap :: jobsArrive) :=
  ⟨trivial, trivial, trivial, trivial, ⟨rfl, KeyTree.Shuffled.refl _⟩, ⟨_, rfl⟩, trivial,
    ⟨rfl, KeyTree.Shuffled.refl _⟩, ⟨_, rfl⟩, trivial⟩

/-- The one job is listed twice. -/
theorem not_rowsAreLatest_secondMap : ¬ ∀ tr s, Trace (session wholeDegrees) tr s →
    RowsAreLatest wholeDegrees s := by
  intro h
  have hrows := h _ _ (Trace.of_events secondMap_runs) rfl _ rfl
  exact absurd (congrArg List.length hrows) (by decide)

end Partimer
