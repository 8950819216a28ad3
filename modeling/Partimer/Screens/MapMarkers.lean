import Partimer.Jobs.Posted
import Partimer.Lib.Trace
import Partimer.Screens.MapActivity

/-!
# The markers of the employees' map

Two listeners draw on the map of an `EmployeeMapActivity`: the one for the jobs adds a
marker for every company, and the one for the location removes the marker it remembers
and adds another.

* `Shows` — the marker remembered is the current location, and all the others are the
  jobs; kept by every operation on the map.
* `onDataChange_shows`, `onLocationResult_shows` — kept by both listeners.
* `employeeMap`, `MapHolds`, `mapHolds_of_trace` — one map screen, with its listeners
  called in any order.
-/

namespace Partimer

open KeyTree JobLoops CreateJobCompany Transition

variable {C : Type}

/-! ## What the map shows -/

/-- **The invariant.**  The marker remembered is that of the last location, and the
others are those of the jobs. -/
structure Shows (curr : Option Nat) (map : GoogleMap C) (jobs : List (MarkerOptions C))
    (last : Option (Location C)) : Prop where
  numbered : ∀ marker, curr = some marker → marker < map.nextMarker
  current : (map.markers.filter fun m => curr = some m.1).map Prod.snd =
    (last.map currentLocation).toList
  jobs : (map.markers.filter fun m => curr ≠ some m.1).map Prod.snd = jobs

namespace Shows

variable {curr : Option Nat} {map : GoogleMap C} {jobs : List (MarkerOptions C)}
  {last : Option (Location C)}

theorem start : Shows none (GoogleMap.fresh : GoogleMap C) [] none := by
  refine ⟨?_, rfl, rfl⟩
  intro marker h
  cases h

theorem curr_ne_next (h : Shows curr map jobs last) : curr ≠ some map.nextMarker := by
  intro hcurr
  exact Nat.lt_irrefl _ (h.numbered _ hcurr)

/-- A job is added to the others. -/
theorem addJob (h : Shows curr map jobs last) (options : MarkerOptions C) :
    Shows curr (map.addMarker options) (jobs ++ [options]) last := by
  have hne := h.curr_ne_next
  refine ⟨?_, ?_, ?_⟩
  · intro marker hcurr
    exact Nat.lt_succ_of_lt (h.numbered marker hcurr)
  · rw [GoogleMap.addMarker, List.filter_append, List.map_append, h.current]
    simp [hne]
  · rw [GoogleMap.addMarker, List.filter_append, List.map_append, h.jobs]
    simp [hne]

/-- The marker remembered makes room for that of a new location. -/
theorem moveTo (h : Shows curr map jobs last) (location : Location C) :
    Shows (some map.nextMarker) ((map.without curr).addMarker (currentLocation location)) jobs
      (some location) := by
  have hother : ∀ m ∈ (map.without curr).markers, m.1 ≠ map.nextMarker :=
    fun m hm => Nat.ne_of_lt ((map.without curr).numbered m hm)
  refine ⟨?_, ?_, ?_⟩
  · intro marker hcurr
    cases hcurr
    exact Nat.lt_succ_self _
  · rw [GoogleMap.addMarker, List.filter_append, List.map_append]
    have hnone : (map.without curr).markers.filter
        (fun m => some map.nextMarker = some m.1) = [] := by
      refine List.filter_eq_nil_iff.2 fun m hm => ?_
      simp [(hother m hm).symm]
    rw [hnone]
    simp [GoogleMap.without, GoogleMap.keep]
  · rw [GoogleMap.addMarker, List.filter_append, List.map_append]
    have hall : (map.without curr).markers.filter
        (fun m => some map.nextMarker ≠ some m.1) = (map.without curr).markers := by
      refine List.filter_eq_self.2 fun m hm => ?_
      simp [(hother m hm).symm]
    rw [hall, ← h.jobs]
    simp [GoogleMap.without, GoogleMap.keep]

/-- All the markers: the jobs, and the last location. -/
theorem perm (h : Shows curr map jobs last) :
    (map.markers.map Prod.snd).Perm (jobs ++ (last.map currentLocation).toList) := by
  have hsplit := (List.filter_append_perm (fun m => decide (curr ≠ some m.1)) map.markers).map
    Prod.snd
  rw [List.map_append, h.jobs] at hsplit
  have hcurrent : (map.markers.filter fun m => !decide (curr ≠ some m.1)).map Prod.snd =
      (last.map currentLocation).toList := by
    rw [← h.current]
    simp
  rw [hcurrent] at hsplit
  exact hsplit.symm

/-- A marker that is no current location is not the one remembered. -/
theorem curr_ne (h : Shows curr map jobs last) {m : Nat × MarkerOptions C}
    (hm : m ∈ map.markers) (hicon : m.2.icon = .icStoreMap) : curr ≠ some m.1 := by
  intro hcurr
  have hmem : m.2 ∈ (map.markers.filter fun m => curr = some m.1).map Prod.snd :=
    List.mem_map_of_mem (List.mem_filter.2 ⟨hm, decide_eq_true hcurr⟩)
  rw [h.current, Option.mem_toList] at hmem
  obtain ⟨location, -, heq⟩ := Option.map_eq_some_iff.1 hmem
  rw [← heq] at hicon
  cases hicon

end Shows

/-! ## The listeners -/

/-- The map of a screen shows the jobs and the last location. -/
def MapActivity.Shows (a : MapActivity C) (jobs : List (MarkerOptions C))
    (last : Option (Location C)) : Prop :=
  ∃ map, a.mMap = some map ∧ Partimer.Shows a.mCurrLocalMarker map jobs last

theorem MapActivity.Shows.of_map {a : MapActivity C} {map : GoogleMap C}
    {jobs : List (MarkerOptions C)} {last : Option (Location C)} (h : a.Shows jobs last)
    (hmap : a.mMap = some map) : Partimer.Shows a.mCurrLocalMarker map jobs last := by
  obtain ⟨map', hmap', hshows⟩ := h
  obtain rfl : map = map' := Option.some.inj (hmap.symm.trans hmap')
  exact hshows

/-- A marker is on the map of a screen. -/
def MapActivity.HasMarker (m : Nat × MarkerOptions C) (a : MapActivity C) : Prop :=
  ∃ map, a.mMap = some map ∧ m ∈ map.markers

open MapActivity EmployeeMapActivity

variable {P : Platform C} {a : MapActivity C} {jobs : List (MarkerOptions C)}
  {last : Option (Location C)}

/-- The markers that the marker loop makes of a snapshot. -/
def jobMarkers (P : Platform C) (dataSnapshot : DataSnapshot C) : List (MarkerOptions C) :=
  ((EmployeeMapActivity.onMapReadyJobs P dataSnapshot).run []).2.map fun m => m.vars.markerOptions

/-- The markers that the marker loop has drawn are on the map. -/
def DrawnOn (last : Option (Location C)) (ms : List (JobMarker C)) (a : MapActivity C) : Prop :=
  a.Shows (ms.map fun m => m.vars.markerOptions) last

/-- A pass of the jobs listener does to the map what one of the marker loop does to the
list of markers. -/
theorem drawCompany_shows (data : String × Node String (Value C)) (ms : List (JobMarker C))
    (h : DrawnOn last ms a) :
    ((JobLoops.drawCompany P data).run ms).1 = ((MapActivity.drawCompany P data).run a).1 ∧
      DrawnOn last ((JobLoops.drawCompany P data).run ms).2
        ((MapActivity.drawCompany P data).run a).2 := by
  obtain ⟨map, hmap, hshows⟩ := h
  unfold JobLoops.drawCompany MapActivity.drawCompany
  cases readCompany P data.2 with
  | error e => exact ⟨rfl, map, hmap, hshows⟩
  | ok vars =>
    rw [Code.run_bind_ok (x := Code.lift (.ok vars)) (s := a) rfl,
      Code.run_bind_ok (addMarker_run hmap _),
      Code.run_bind_ok (x := Code.lift (.ok vars)) (s := ms) rfl]
    refine ⟨rfl, _, rfl, ?_⟩
    have hadd := hshows.addJob vars.markerOptions
    rwa [← List.map_singleton (f := fun m : JobMarker C => m.vars.markerOptions)
      (a := ⟨data.1, vars⟩), ← List.map_append] at hadd

/-- **The jobs listener** on a map without jobs ends as the marker loop does, and leaves
its markers on the map. -/
theorem onDataChange_shows (dataSnapshot : DataSnapshot C) (h : a.Shows [] last) :
    ((EmployeeMapActivity.onMapReadyJobs P dataSnapshot).run []).1 =
        ((MapActivity.onDataChange P dataSnapshot).run a).1 ∧
      ((MapActivity.onDataChange P dataSnapshot).run a).2.Shows
        (jobMarkers P dataSnapshot) last := by
  have hstart : DrawnOn last [] a := h
  exact Code.forEach_sim (R := DrawnOn last) (fun data _ ms a h => drawCompany_shows data ms h)
    hstart

/-- **One location** is shown where the one before it was. -/
theorem onLocation_shows (location : Location C) (h : a.Shows jobs last) :
    ∃ a', (onLocation location).run a = (.ok (), a') ∧ a'.Shows jobs (some location) := by
  obtain ⟨map, hmap, hshows⟩ := h
  exact ⟨_, onLocation_run hmap location, _, rfl, hshows.moveTo location⟩

/-- **The location callback** goes through, and the last location of the batch is shown. -/
theorem onLocationResult_shows (locations : List (Location C)) (h : a.Shows jobs last) :
    ∃ a', (onLocationResult locations).run a = (.ok (), a') ∧
      a'.Shows jobs (locations.getLast?.or last) := by
  induction locations generalizing a last with
  | nil => exact ⟨a, rfl, h⟩
  | cons location locations ih =>
    obtain ⟨b, hb, hshows⟩ := onLocation_shows location h
    obtain ⟨c, hc, hlast⟩ := ih hshows
    refine ⟨c, ?_, ?_⟩
    · unfold onLocationResult at hc ⊢
      rw [Code.forEach_cons, Code.run_bind_ok hb, hc]
    · rwa [List.getLast?_cons, Option.some_or, ← Option.or_some]

/-! ## Markers that stay -/

theorem onLocation_hasMarker (location : Location C) {m : Nat × MarkerOptions C}
    (hicon : m.2.icon = .icStoreMap) (h : a.Shows jobs last) (hm : a.HasMarker m) :
    ((onLocation location).run a).2.HasMarker m := by
  obtain ⟨map, hmap, hm⟩ := hm
  rw [onLocation_run hmap location]
  refine ⟨_, rfl, List.mem_append_left _ (List.mem_filter.2 ⟨hm, ?_⟩)⟩
  exact decide_eq_true ((h.of_map hmap).curr_ne hm hicon)

/-- No location removes the marker of a job. -/
theorem onLocationResult_hasMarker (locations : List (Location C)) {m : Nat × MarkerOptions C}
    (hicon : m.2.icon = .icStoreMap) (h : a.Shows jobs last) (hm : a.HasMarker m) :
    ((onLocationResult locations).run a).2.HasMarker m := by
  have hkeeps : (∃ last, ((onLocationResult locations).run a).2.Shows jobs last) ∧
      ((onLocationResult locations).run a).2.HasMarker m := by
    refine Code.forEach_inv (I := fun a : MapActivity C =>
      (∃ last, a.Shows jobs last) ∧ a.HasMarker m) ?_ ⟨⟨last, h⟩, hm⟩
    rintro location - b ⟨⟨last, hb⟩, hm⟩
    obtain ⟨c, hc, hshows⟩ := onLocation_shows location hb
    refine ⟨⟨some location, ?_⟩, onLocation_hasMarker location hicon hb hm⟩
    rwa [hc]
  exact hkeeps.2

/-- The jobs listener removes no marker. -/
theorem onDataChange_hasMarker (dataSnapshot : DataSnapshot C) {m : Nat × MarkerOptions C}
    (hm : a.HasMarker m) : ((MapActivity.onDataChange P dataSnapshot).run a).2.HasMarker m := by
  refine Code.forEach_inv (I := fun a : MapActivity C => a.HasMarker m) ?_ hm
  rintro data - b ⟨map, hmap, hm⟩
  unfold MapActivity.drawCompany
  cases readCompany P data.2 with
  | error e => exact ⟨map, hmap, hm⟩
  | ok vars =>
    rw [Code.run_bind_ok (x := Code.lift (.ok vars)) (s := b) rfl,
      Code.run_bind_ok (addMarker_run hmap _)]
    exact ⟨_, rfl, List.mem_append_left _ hm⟩

/-! ## One map screen -/

/-- An `EmployeeMapActivity`, the snapshot of the jobs that was delivered to it, and the
location it processed last; these two only record what happened. -/
structure EmployeeMapState (C : Type) where
  activity : MapActivity C
  delivered : Option (DataSnapshot C)
  last : Option (Location C)

/-- What can happen to it. -/
inductive EmployeeMapEvent (C : Type) where
  | onMapReady
  | onDataChange (dataSnapshot : DataSnapshot C)
  | onLocationResult (locations : List (Location C))

namespace EmployeeMapState

variable (P : Platform C) (s : EmployeeMapState C)

/-- When each event can happen.  The jobs are asked for once, when the map is there; and
no location comes before, since the request for them that an earlier answer to the
permission dialog makes is followed by a call on the map that is not there. -/
def Enabled (s : EmployeeMapState C) : EmployeeMapEvent C → Prop
  | .onMapReady => s.activity.mMap = none
  | .onDataChange dataSnapshot => (∃ map, s.activity.mMap = some map) ∧ s.delivered = none ∧
      ((EmployeeMapActivity.onMapReadyJobs P dataSnapshot).run []).1 = .ok ()
  | .onLocationResult _ => ∃ map, s.activity.mMap = some map

/-- A screen that has just been created. -/
def created : EmployeeMapState C := ⟨.created, none, none⟩

/-- What each event does. -/
def next (s : EmployeeMapState C) : EmployeeMapEvent C → EmployeeMapState C
  | .onMapReady => { s with activity := s.activity.setReady EmployeeMapActivity.locationRequest }
  | .onDataChange dataSnapshot =>
    { s with
      activity := ((MapActivity.onDataChange P dataSnapshot).run s.activity).2
      delivered := some dataSnapshot }
  | .onLocationResult locations =>
    { s with
      activity := ((EmployeeMapActivity.onLocationResult locations).run s.activity).2
      last := locations.getLast?.or s.last }

/-- The markers of the jobs delivered. -/
def jobsShown (s : EmployeeMapState C) : List (MarkerOptions C) :=
  match s.delivered with
  | some dataSnapshot => jobMarkers P dataSnapshot
  | none => []

end EmployeeMapState

/-- One map screen with its listeners. -/
def employeeMap (P : Platform C) : System (EmployeeMapState C) (EmployeeMapEvent C) where
  start := .created
  Enabled := EmployeeMapState.Enabled P
  next := EmployeeMapState.next P

variable {s : EmployeeMapState C}

/-- Nothing has happened yet, or the map shows what was delivered. -/
def UpToDate (P : Platform C) (s : EmployeeMapState C) : Prop :=
  s = .created ∨ s.activity.Shows (s.jobsShown P) s.last

theorem UpToDate.shows (h : UpToDate P s) {map : GoogleMap C} (hmap : s.activity.mMap = some map) :
    s.activity.Shows (s.jobsShown P) s.last := by
  rcases h with rfl | h
  · cases hmap
  · exact h

theorem UpToDate.eq_created (h : UpToDate P s) (hmap : s.activity.mMap = none) : s = .created := by
  rcases h with rfl | ⟨map, hsome, -⟩
  · rfl
  · rw [hmap] at hsome
    cases hsome

/-- **One step.** -/
theorem UpToDate.next (h : UpToDate P s) {e : EmployeeMapEvent C} (he : s.Enabled P e) :
    UpToDate P (s.next P e) := by
  cases e with
  | onMapReady =>
    obtain rfl := h.eq_created he
    exact Or.inr ⟨.fresh, rfl, Shows.start⟩
  | onDataChange dataSnapshot =>
    obtain ⟨⟨map, hmap⟩, hnone, -⟩ := he
    have hshows := h.shows hmap
    rw [EmployeeMapState.jobsShown, hnone] at hshows
    exact Or.inr (onDataChange_shows dataSnapshot hshows).2
  | onLocationResult locations =>
    obtain ⟨map, hmap⟩ := he
    obtain ⟨a, hrun, hshows⟩ := onLocationResult_shows locations (h.shows hmap)
    refine Or.inr ?_
    simp only [EmployeeMapState.next, hrun]
    exact hshows

/-- The markers are those of the jobs delivered and that of the last location, and there
is at most one of a location. -/
structure MapHolds (P : Platform C) (s : EmployeeMapState C) : Prop where
  markers : ∀ map, s.activity.mMap = some map →
    (map.markers.map Prod.snd).Perm (s.jobsShown P ++ (s.last.map currentLocation).toList)
  atMostOne : ∀ map, s.activity.mMap = some map →
    (map.markers.filter fun m => m.2.icon = .icLauncherUserrunning).length ≤ 1

/-- A step leaves every marker of a job where it is. -/
def JobMarkersKept (P : Platform C) (s : EmployeeMapState C) (e : EmployeeMapEvent C) : Prop :=
  ∀ m : Nat × MarkerOptions C, m.2.icon = .icStoreMap → s.activity.HasMarker m →
    (s.next P e).activity.HasMarker m

theorem jobsShown_icon {options : MarkerOptions C} (h : options ∈ s.jobsShown P) :
    options.icon = .icStoreMap := by
  unfold EmployeeMapState.jobsShown at h
  split at h
  · obtain ⟨m, -, rfl⟩ := List.mem_map.1 h
    rfl
  · cases h

theorem UpToDate.mapHolds (h : UpToDate P s) : MapHolds P s := by
  have hperm : ∀ map, s.activity.mMap = some map →
      (map.markers.map Prod.snd).Perm (s.jobsShown P ++ (s.last.map currentLocation).toList) := by
    intro map hmap
    exact ((h.shows hmap).of_map hmap).perm
  refine ⟨hperm, ?_⟩
  intro map hmap
  have hcount := (hperm map hmap).countP_eq fun options => options.icon = .icLauncherUserrunning
  have hjobs : (s.jobsShown P).countP
      (fun options => options.icon = .icLauncherUserrunning) = 0 := by
    refine List.countP_eq_zero.2 fun options hoptions => ?_
    rw [jobsShown_icon hoptions]
    decide
  rw [List.countP_append, hjobs, List.countP_map] at hcount
  rw [← List.countP_eq_length_filter]
  have hlast := List.countP_le_length (p := fun options : MarkerOptions C =>
    options.icon = .icLauncherUserrunning) (l := (s.last.map currentLocation).toList)
  have hone := Option.length_toList_le (o := s.last.map currentLocation)
  simp only [Function.comp_def] at hcount
  omega

theorem UpToDate.jobMarkersKept (h : UpToDate P s) (e : EmployeeMapEvent C)
    (he : s.Enabled P e) : JobMarkersKept P s e := by
  intro m hicon hm
  cases e with
  | onMapReady =>
    obtain ⟨map, hmap, -⟩ := hm
    rw [show s.activity.mMap = none from he] at hmap
    cases hmap
  | onDataChange dataSnapshot => exact onDataChange_hasMarker dataSnapshot hm
  | onLocationResult locations =>
    obtain ⟨map, hmap⟩ := he
    exact onLocationResult_hasMarker locations hicon (h.shows hmap) hm

/-- **The map holds the markers of the jobs and of the last location**, in every state
that a run reaches, and no step removes the marker of a job. -/
theorem mapHolds_of_trace {tr : List (EmployeeMapState C × EmployeeMapEvent C)}
    (h : Trace (employeeMap P) tr s) : MapHolds P s ∧ Meets (JobMarkersKept P) tr := by
  have hstep : ∀ s e, UpToDate P s → (employeeMap P).Enabled s e →
      UpToDate P ((employeeMap P).next s e) := fun s e hs he => hs.next he
  have hstart : UpToDate P (employeeMap P).start := Or.inl rfl
  refine ⟨(h.invariant hstart hstep).mapHolds, ?_⟩
  intro x hx
  obtain ⟨pre, hpre, he, -⟩ := h.of_mem hx
  exact (hpre.invariant hstart hstep).jobMarkersKept x.2 he

/-- Locations before and after the jobs. -/
def walk : List (EmployeeMapEvent Int) :=
  [.onMapReady, .onLocationResult [⟨48, 2⟩], .onDataChange (jobsNode (cookPost.apply none)),
    .onLocationResult [], .onLocationResult [⟨49, 2⟩, ⟨50, 3⟩]]

theorem walk_runs : Runs (employeeMap wholeDegrees) (employeeMap wholeDegrees).start walk :=
  ⟨rfl, ⟨_, rfl⟩, ⟨⟨_, rfl⟩, rfl, rfl⟩, ⟨_, rfl⟩, ⟨_, rfl⟩, trivial⟩

theorem mapHolds_walk :
    MapHolds wholeDegrees
        (walk.foldl (employeeMap wholeDegrees).next (employeeMap wholeDegrees).start) ∧
      Meets (JobMarkersKept wholeDegrees)
        (steps (employeeMap wholeDegrees) (employeeMap wholeDegrees).start walk) :=
  mapHolds_of_trace (Trace.of_events walk_runs)

end Partimer
