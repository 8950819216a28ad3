import Partimer.Screens.MapMarkers

/-!
# The markers of the companies' map

The location callback of `BossMapActivity` starts like that of the employees' map, with the
marker it remembers, but the statements that would make one are commented out.  What it keeps
instead is a static list, shared by all instances of the screen.

* `BossMapActivity.onLocationResult_run`, `onDataChange_curr` — the callbacks on a screen that
  remembers no marker.
* `BossMaps`, `bossMaps` — the instances of the screen in one process, with the list.
* `BossHolds`, `bossHolds_of_trace` — **every instance shows the jobs that were delivered to it
  and nothing else, and the list holds the locations of all of them**, in every order of their
  callbacks.
-/

namespace Partimer

open KeyTree JobLoops CreateJobCompany Transition

variable {C : Type}

/-! ## The callbacks on a screen without a marker -/

/-- **One location** changes nothing on the screen, and is put at the front of the list; without a
map the callback throws after that. -/
theorem BossMapActivity.onLocation_run {b : BossMap C}
    (hcurr : b.activity.mCurrLocalMarker = none) (location : Location C) :
    (BossMapActivity.onLocation location).run b =
      ((MapActivity.moveCamera.run b.activity).1,
        ⟨b.activity, location.latitude :: location.longitude :: b.locationDetails⟩) := by
  have hactivity : (MapActivity.removeCurrLocalMarker.run b.activity).2 = b.activity := by
    simp only [MapActivity.removeCurrLocalMarker, Code.run, Code.modify, hcurr]
  have hsnd := BossMapActivity.onLocation_snd location b
  rw [hactivity] at hsnd
  refine Prod.ext ?_ hsnd
  have hremove : (onActivity MapActivity.removeCurrLocalMarker).run b = (.ok (), b) :=
    Prod.ext rfl (congrArg (BossMap.mk · b.locationDetails) hactivity)
  have hlatitude : (addDetail 0 location.latitude).run b =
      (.ok (), ⟨b.activity, location.latitude :: b.locationDetails⟩) := by
    simp [addDetail, Code.run, ArrayList.add]
  have hlongitude : (addDetail 1 location.longitude).run
      ⟨b.activity, location.latitude :: b.locationDetails⟩ =
      (.ok (), ⟨b.activity, location.latitude :: location.longitude :: b.locationDetails⟩) := by
    simp [addDetail, Code.run, ArrayList.add]
  unfold BossMapActivity.onLocation
  rw [Code.run_bind_ok hremove, Code.run_bind_ok hlatitude, Code.run_bind_ok hlongitude]
  rfl

/-- **The location callback** puts the batch at the front of the list, and nothing else. -/
theorem BossMapActivity.onLocationResult_run {b : BossMap C} {map : GoogleMap C}
    (hmap : b.activity.mMap = some map) (hcurr : b.activity.mCurrLocalMarker = none)
    (locations : List (Location C)) :
    (BossMapActivity.onLocationResult locations).run b =
      (.ok (), ⟨b.activity, locationsLayout locations ++ b.locationDetails⟩) := by
  have hcamera : (MapActivity.moveCamera.run b.activity).1 = .ok () := by
    simp only [Code.run, MapActivity.moveCamera, hmap]
  unfold BossMapActivity.onLocationResult
  induction locations generalizing b with
  | nil => rfl
  | cons location locations ih =>
    have hfirst := BossMapActivity.onLocation_run hcurr location
    rw [hcamera] at hfirst
    have hrest := ih (b := ⟨b.activity, location.latitude :: location.longitude ::
      b.locationDetails⟩) hmap hcurr hcamera
    rw [Code.forEach_cons, Code.run_bind_ok hfirst, hrest]
    simp [locationsLayout]

/-- Without a map it throws on the first location. -/
theorem BossMapActivity.onLocationResult_of_no_map {b : BossMap C}
    (hmap : b.activity.mMap = none) (hcurr : b.activity.mCurrLocalMarker = none)
    {locations : List (Location C)} (hne : locations ≠ []) :
    ((BossMapActivity.onLocationResult locations).run b).1 = .error .nullPointer := by
  obtain ⟨location, rest, rfl⟩ := List.exists_cons_of_ne_nil hne
  have hcamera : (MapActivity.moveCamera.run b.activity).1 = .error .nullPointer := by
    simp only [Code.run, MapActivity.moveCamera, hmap]
  have hfirst := BossMapActivity.onLocation_run hcurr location
  rw [hcamera] at hfirst
  unfold BossMapActivity.onLocationResult
  rw [Code.forEach_cons, Code.run_bind_error hfirst]

/-- The jobs listener remembers no marker. -/
theorem onDataChange_curr (P : Platform C) (dataSnapshot : DataSnapshot C) (a : MapActivity C) :
    ((MapActivity.onDataChange P dataSnapshot).run a).2.mCurrLocalMarker = a.mCurrLocalMarker := by
  refine Code.forEach_inv (I := fun b : MapActivity C =>
    b.mCurrLocalMarker = a.mCurrLocalMarker) ?_ rfl
  rintro data - b hb
  unfold MapActivity.drawCompany
  cases readCompany P data.2 with
  | error e => exact hb
  | ok vars =>
    rw [Code.run_bind_ok (x := Code.lift (.ok vars)) (s := b) rfl]
    cases hmap : b.mMap with
    | none =>
      have hadd : (MapActivity.addMarker vars.markerOptions).run b = (.error .nullPointer, b) := by
        simp only [Code.run, MapActivity.addMarker, hmap]
      rw [Code.run_bind_error hadd]
      exact hb
    | some map =>
      rw [Code.run_bind_ok (MapActivity.addMarker_run hmap _)]
      exact hb

/-! ## The instances of the screen -/

/-- A `BossMapActivity`, and the snapshot of the jobs that was delivered to it. -/
structure BossInstance (C : Type) where
  activity : MapActivity C
  delivered : Option (DataSnapshot C)

/-- The instances that the process has created, the static list, and the locations processed,
which only record what happened. -/
structure BossMaps (C : Type) where
  instances : List (BossInstance C)
  locationDetails : List C
  processed : List (Location C)

/-- What can happen. -/
inductive BossMapEvent (C : Type) where
  | onCreate
  | onMapReady (i : Nat)
  | onDataChange (i : Nat) (dataSnapshot : DataSnapshot C)
  | onLocationResult (i : Nat) (locations : List (Location C))

namespace BossMaps

variable (P : Platform C) (s : BossMaps C)

/-- When each event can happen.  The jobs are asked for once, when the map is there. -/
def Enabled (s : BossMaps C) : BossMapEvent C → Prop
  | .onCreate => True
  | .onMapReady i => ∃ b, s.instances[i]? = some b ∧ b.activity.mMap = none
  | .onDataChange i _ => ∃ b, s.instances[i]? = some b ∧ b.activity.mMap ≠ none ∧ b.delivered = none
  | .onLocationResult i _ => ∃ b, s.instances[i]? = some b

/-- A process without any. -/
def fresh : BossMaps C := ⟨[], [], []⟩

/-- The jobs listener of an instance; an exception ends the process. -/
def onDataChange (i : Nat) (b : BossInstance C) (dataSnapshot : DataSnapshot C) : BossMaps C :=
  match (MapActivity.onDataChange P dataSnapshot).run b.activity with
  | (.ok (), a) => { s with instances := s.instances.set i ⟨a, some dataSnapshot⟩ }
  | (.error _, _) => fresh

/-- The location callback of an instance; an exception ends the process. -/
def onLocationResult (i : Nat) (b : BossInstance C) (locations : List (Location C)) :
    BossMaps C :=
  match (BossMapActivity.onLocationResult locations).run ⟨b.activity, s.locationDetails⟩ with
  | (.ok (), b') =>
    ⟨s.instances.set i { b with activity := b'.activity }, b'.locationDetails,
      s.processed ++ locations⟩
  | (.error _, _) => fresh

/-- What each event does. -/
def next (s : BossMaps C) : BossMapEvent C → BossMaps C
  | .onCreate => { s with instances := s.instances ++ [⟨.created, none⟩] }
  | .onMapReady i =>
    match s.instances[i]? with
    | some b =>
      { s with instances := s.instances.set i ⟨b.activity.setReady BossMapActivity.locationRequest,
          b.delivered⟩ }
    | none => s
  | .onDataChange i dataSnapshot =>
    match s.instances[i]? with
    | some b => s.onDataChange P i b dataSnapshot
    | none => s
  | .onLocationResult i locations =>
    match s.instances[i]? with
    | some b => s.onLocationResult i b locations
    | none => s

end BossMaps

/-- The companies' maps of one process. -/
def bossMaps (P : Platform C) : System (BossMaps C) (BossMapEvent C) where
  start := .fresh
  Enabled := BossMaps.Enabled
  next := BossMaps.next P

variable {P : Platform C} {s : BossMaps C}

/-! ## What they show -/

/-- The markers of the jobs delivered to an instance. -/
def BossInstance.jobsShown (P : Platform C) (b : BossInstance C) : List (MarkerOptions C) :=
  match b.delivered with
  | some dataSnapshot => jobMarkers P dataSnapshot
  | none => []

/-- An instance remembers no marker, and its map shows its jobs. -/
structure BossInstance.Right (P : Platform C) (b : BossInstance C) : Prop where
  curr : b.activity.mCurrLocalMarker = none
  shows : b.activity.mMap = none ∧ b.delivered = none ∨
    b.activity.Shows (b.jobsShown P) none

/-- **What the maps hold.**  Each shows the jobs delivered to it and no other marker, none
remembers a marker, and the list holds the locations of all of them, the last one first. -/
structure BossHolds (P : Platform C) (s : BossMaps C) : Prop where
  current : ∀ b ∈ s.instances, b.activity.mCurrLocalMarker = none
  markers : ∀ b ∈ s.instances, ∀ map, b.activity.mMap = some map →
    map.markers.map Prod.snd = b.jobsShown P
  details : s.locationDetails = locationsLayout s.processed

/-- The invariant. -/
structure BossRight (P : Platform C) (s : BossMaps C) : Prop where
  instances : ∀ b ∈ s.instances, b.Right P
  details : s.locationDetails = locationsLayout s.processed

theorem BossRight.fresh : BossRight P (.fresh : BossMaps C) :=
  ⟨fun _ hb => absurd hb List.not_mem_nil, rfl⟩

theorem BossInstance.Right.created : BossInstance.Right P (⟨.created, none⟩ : BossInstance C) :=
  ⟨rfl, Or.inl ⟨rfl, rfl⟩⟩

theorem BossInstance.Right.shows_of_map {b : BossInstance C} (h : b.Right P)
    (hmap : b.activity.mMap ≠ none) : b.activity.Shows (b.jobsShown P) none :=
  h.shows.resolve_left fun hnone => hmap hnone.1

/-- The jobs are delivered. -/
theorem BossRight.onDataChange (h : BossRight P s) {i : Nat} {b : BossInstance C}
    (hb : b.Right P) (hmap : b.activity.mMap ≠ none) (hnone : b.delivered = none)
    (dataSnapshot : DataSnapshot C) : BossRight P (s.onDataChange P i b dataSnapshot) := by
  have hshows := hb.shows_of_map hmap
  rw [BossInstance.jobsShown, hnone] at hshows
  have hafter := (onDataChange_shows (P := P) dataSnapshot hshows).2
  have hcurr := onDataChange_curr P dataSnapshot b.activity
  rw [hb.curr] at hcurr
  unfold BossMaps.onDataChange
  rcases hrun : (MapActivity.onDataChange P dataSnapshot).run b.activity with ⟨_ | _, a⟩
  · exact BossRight.fresh
  · rw [hrun] at hafter hcurr
    exact ⟨forall_mem_set h.instances ⟨hcurr, Or.inr hafter⟩ i, h.details⟩

/-- A batch of locations comes. -/
theorem BossRight.onLocationResult (h : BossRight P s) {i : Nat} {b : BossInstance C}
    (hb : b.Right P) (locations : List (Location C)) :
    BossRight P (s.onLocationResult i b locations) := by
  unfold BossMaps.onLocationResult
  cases hmap : b.activity.mMap with
  | some map =>
    have hrun := BossMapActivity.onLocationResult_run (b := ⟨b.activity, s.locationDetails⟩) hmap
      hb.curr locations
    rw [hrun]
    refine ⟨forall_mem_set h.instances hb i, ?_⟩
    simp only [h.details, locationsLayout, List.reverse_append, List.flatMap_append]
  | none =>
    by_cases hne : locations = []
    · subst hne
      refine ⟨forall_mem_set h.instances hb i, ?_⟩
      rw [List.append_nil]
      exact h.details
    · have hthrows := BossMapActivity.onLocationResult_of_no_map
        (b := ⟨b.activity, s.locationDetails⟩) hmap hb.curr hne
      rcases hrun : (BossMapActivity.onLocationResult locations).run
        ⟨b.activity, s.locationDetails⟩ with ⟨_ | _, b'⟩
      · exact BossRight.fresh
      · rw [hrun] at hthrows
        cases hthrows

/-- **One step.** -/
theorem BossRight.next (h : BossRight P s) {e : BossMapEvent C} (he : s.Enabled e) :
    BossRight P (s.next P e) := by
  cases e with
  | onCreate => exact ⟨forall_mem_concat h.instances .created, h.details⟩
  | onMapReady i =>
    obtain ⟨b, hi, hmap⟩ := he
    have hb := h.instances b (List.mem_of_getElem? hi)
    simp only [BossMaps.next, hi]
    have hready : BossInstance.Right P
        ⟨b.activity.setReady BossMapActivity.locationRequest, b.delivered⟩ := by
      refine ⟨hb.curr, Or.inr ⟨.fresh, rfl, ?_⟩⟩
      rcases hb.shows with ⟨-, hnone⟩ | ⟨map, hsome, -⟩
      · simp only [MapActivity.setReady, BossInstance.jobsShown, hnone, hb.curr]
        exact Shows.start
      · rw [hmap] at hsome
        cases hsome
    exact ⟨forall_mem_set h.instances hready i, h.details⟩
  | onDataChange i dataSnapshot =>
    obtain ⟨b, hi, hmap, hnone⟩ := he
    simp only [BossMaps.next, hi]
    exact h.onDataChange (h.instances b (List.mem_of_getElem? hi)) hmap hnone dataSnapshot
  | onLocationResult i locations =>
    obtain ⟨b, hi⟩ := he
    simp only [BossMaps.next, hi]
    exact h.onLocationResult (h.instances b (List.mem_of_getElem? hi)) locations

theorem BossRight.holds (h : BossRight P s) : BossHolds P s where
  current b hb := (h.instances b hb).curr
  markers b hb map hmap := by
    have hright := h.instances b hb
    have hshows := (hright.shows_of_map (by simp [hmap])).of_map hmap
    have hjobs := hshows.jobs
    rw [hright.curr] at hjobs
    simpa using hjobs
  details := h.details

/-- **The companies' maps.**  However the callbacks of any number of instances come, each map
shows exactly the jobs that were delivered to its instance, no marker of a location is ever made
or remembered, and the list holds all locations processed, as they came from whichever
instance. -/
theorem bossHolds_of_trace {tr : List (BossMaps C × BossMapEvent C)}
    (h : Trace (bossMaps P) tr s) : BossHolds P s :=
  BossRight.holds (h.invariant (I := BossRight P) .fresh fun _ _ hs he => hs.next he)

/-- Two instances, the second of them with jobs. -/
def twoMaps : List (BossMapEvent Int) :=
  [.onCreate, .onMapReady 0, .onLocationResult 0 [⟨48, 2⟩], .onCreate, .onMapReady 1,
    .onDataChange 1 (jobsNode (cookPost.apply none)), .onLocationResult 1 [⟨49, 2⟩, ⟨50, 3⟩]]

theorem twoMaps_runs : Runs (bossMaps wholeDegrees) (bossMaps wholeDegrees).start twoMaps :=
  ⟨trivial, ⟨_, rfl, rfl⟩, ⟨_, rfl⟩, trivial, ⟨_, rfl, rfl⟩,
    ⟨_, rfl, fun h => Option.some_ne_none _ h, rfl⟩, ⟨_, rfl⟩, trivial⟩

theorem bossHolds_twoMaps : BossHolds wholeDegrees
    (twoMaps.foldl (bossMaps wholeDegrees).next (bossMaps wholeDegrees).start) :=
  bossHolds_of_trace (Trace.of_events twoMaps_runs)

end Partimer
