import Partimer.Lib.Trace
import Partimer.Screens.MapActivity

/-!
# When the location updates start

A map screen asks for location updates when its map is there and the permission has been
granted, or else when the answer to its request for the permission arrives.  The answer
goes to the instance of the screen that is there by then, which may still be without a map.

* `MapKind` — the two map screens, which differ in their request and in their callback.
* `Setup.onMapReady`, `Setup.checkLocationPermission`,
  `Setup.onRequestPermissionsResult` — the methods, with the calls they make.
* `MapScreen`, `MapScreenEvent`, `mapScreen` — one screen with all its instances.
* `MapInstance.Sound` — an instance with a map has its request, and one whose callback is
  registered has its map; kept by every step (`AllSound.next`).
* `updatesReady_iff_resultsInTime` — the calls find the screen ready exactly if no answer
  that grants the permission overtakes the map.
-/

namespace Partimer

open Transition

variable {C : Type}

/-! ## The methods -/

/-- The map screens. -/
inductive MapKind where
  | employeeMapActivity
  | bossMapActivity
  deriving DecidableEq, Repr

/-- The request that `onMapReady` makes. -/
def MapKind.locationRequest : MapKind → LocationRequest
  | .employeeMapActivity => EmployeeMapActivity.locationRequest
  | .bossMapActivity => BossMapActivity.locationRequest

/-- The location callback. -/
def MapKind.onLocationResult (kind : MapKind) (locations : List (Location C)) :
    Code (BossMap C) Exn Unit :=
  match kind with
  | .employeeMapActivity =>
    BossMapActivity.onActivity (EmployeeMapActivity.onLocationResult locations)
  | .bossMapActivity => BossMapActivity.onLocationResult locations

/-- The two calls that start the updates. -/
inductive LocationMethod where
  | requestLocationUpdates
  | setMyLocationEnabled
  deriving DecidableEq, Repr

/-- A call, with the fields of the screen and whether the permission is granted at that
moment. -/
structure LocationCall (C : Type) where
  method : LocationMethod
  mMap : Option (GoogleMap C)
  mLocationRequest : Option LocationRequest
  granted : Bool

/-- The entries of `grantResults`. -/
inductive GrantResult where
  | permissionGranted
  | permissionDenied
  deriving DecidableEq, Repr

/-- `Build.VERSION_CODES.M`. -/
def versionCodesM : Nat := 23

/-- `checkSelfPermission(..) == PERMISSION_GRANTED`; before `M` the permission comes with
the installation. -/
def checkSelfPermission (sdkInt : Nat) (granted : Bool) : Bool :=
  decide (sdkInt < versionCodesM) || granted

/-- An instance of a map screen: its fields, whether its callback is registered, and
whether its dialog that explains the request is shown. -/
structure MapInstance (C : Type) where
  activity : MapActivity C
  registered : Bool
  rationale : Bool

/-- An instance that has just been created. -/
def MapInstance.created : MapInstance C := ⟨.created, false, false⟩

/-- What the methods work on: the instance, the requests for the permission that are open,
and the calls made. -/
structure Setup (C : Type) extends MapInstance C where
  requests : Nat
  calls : List (LocationCall C)

namespace Setup

variable (sdkInt : Nat) (granted : Bool)

/-- A call made now. -/
def call (u : Setup C) (method : LocationMethod) : LocationCall C :=
  ⟨method, u.activity.mMap, u.activity.mLocationRequest, checkSelfPermission sdkInt granted⟩

/-- `mFusedLocationClient.requestLocationUpdates(mLocationRequest, mLocationCallback, ..)`. -/
def requestLocationUpdates : Code (Setup C) Exn Unit :=
  Code.modify fun u =>
    { u with registered := true,
             calls := u.calls ++ [u.call sdkInt granted .requestLocationUpdates] }

/-- `mMap.setMyLocationEnabled(true)`. -/
def setMyLocationEnabled : Code (Setup C) Exn Unit := fun u =>
  (match u.activity.mMap with
    | some _ => .ok ()
    | none => .error .nullPointer,
    { u with calls := u.calls ++ [u.call sdkInt granted .setMyLocationEnabled] })

/-- The two calls, one after the other. -/
def startUpdates : Code (Setup C) Exn Unit := do
  requestLocationUpdates sdkInt granted
  setMyLocationEnabled sdkInt granted

/-- `ActivityCompat.requestPermissions(.., 1)`. -/
def requestPermissions : Code (Setup C) Exn Unit :=
  Code.modify fun u => { u with requests := u.requests + 1 }

/-- `checkLocationPermission`; the system says whether an explanation should be shown. -/
def checkLocationPermission (shouldShow : Bool) : Code (Setup C) Exn Unit :=
  if checkSelfPermission sdkInt granted then pure ()
  else if shouldShow then Code.modify fun u => { u with rationale := true }
  else requestPermissions

/-- `onMapReady`. -/
def onMapReady (kind : MapKind) (shouldShow : Bool) : Code (Setup C) Exn Unit := do
  Code.modify fun u => { u with activity := u.activity.setReady kind.locationRequest }
  if versionCodesM ≤ sdkInt then
    if checkSelfPermission sdkInt granted then startUpdates sdkInt granted
    else checkLocationPermission sdkInt granted shouldShow
  else startUpdates sdkInt granted

/-- `onClick` of the dialog's button, which also closes the dialog. -/
def onClickOk : Code (Setup C) Exn Unit := do
  Code.modify fun u => { u with rationale := false }
  requestPermissions

/-- `onRequestPermissionsResult`. -/
def onRequestPermissionsResult (requestCode : Nat) (grantResults : List GrantResult) :
    Code (Setup C) Exn Unit :=
  if requestCode = 1 then
    if grantResults.head? = some .permissionGranted then
      if checkSelfPermission sdkInt granted then startUpdates sdkInt granted else pure ()
    else pure ()
  else pure ()

end Setup

/-! ## A screen and its instances -/

/-- A map screen: whether the permission is granted, its instances, the latest one last,
the requests for the permission that are open, the answers on their way, and the static
list of `BossMapActivity`. -/
structure MapScreen (C : Type) where
  granted : Bool
  instances : List (MapInstance C)
  requests : Nat
  results : List (List GrantResult)
  locationDetails : List C

/-- What can happen. -/
inductive MapScreenEvent (C : Type) where
  /-- The screen is created, or created anew. -/
  | create
  /-- The map of the `i`th instance is there. -/
  | onMapReady (i : Nat) (shouldShow : Bool)
  /-- The button of the dialog of the `i`th instance is pressed. -/
  | onClickOk (i : Nat)
  /-- A request for the permission is answered, or cancelled. -/
  | answer (grantResults : List GrantResult)
  /-- The first answer is delivered to the latest instance. -/
  | onRequestPermissionsResult
  /-- The callback of the `i`th instance is called. -/
  | onLocationResult (i : Nat) (locations : List (Location C))
  /-- The permission is given or taken in the settings. -/
  | setPermission (granted : Bool)
  /-- The process ends. -/
  | killed

namespace MapScreen

variable (sdkInt : Nat) (kind : MapKind) (s : MapScreen C)

/-- When each event can happen. -/
def Enabled (s : MapScreen C) : MapScreenEvent C → Prop
  | .onMapReady i _ => ∃ m, s.instances[i]? = some m ∧ m.activity.mMap = none
  | .onClickOk i => ∃ m, s.instances[i]? = some m ∧ m.rationale = true
  | .answer _ => 0 < s.requests
  | .onRequestPermissionsResult => s.results ≠ [] ∧ s.instances ≠ []
  | .onLocationResult i _ => ∃ m, s.instances[i]? = some m ∧ m.registered = true
  | _ => True

/-- The process has ended. -/
def ended : MapScreen C := { s with instances := [], locationDetails := [] }

/-- A method that an event calls: the index of the instance, the instance and the method. -/
def method (s : MapScreen C) :
    MapScreenEvent C → Option (Nat × MapInstance C × Code (Setup C) Exn Unit)
  | .onMapReady i shouldShow =>
    s.instances[i]?.map fun m => (i, m, Setup.onMapReady sdkInt s.granted kind shouldShow)
  | .onClickOk i => s.instances[i]?.map fun m => (i, m, Setup.onClickOk)
  | .onRequestPermissionsResult =>
    s.results.head?.bind fun grantResults => s.instances.getLast?.map fun m =>
      (s.instances.length - 1, m,
        Setup.onRequestPermissionsResult sdkInt s.granted 1 grantResults)
  | _ => none

/-- The method runs on its instance. -/
def runMethod (m : MapInstance C) (method : Code (Setup C) Exn Unit) :
    Except Exn Unit × Setup C :=
  method.run ⟨m, s.requests, []⟩

/-- The calls that an event makes. -/
def calls (s : MapScreen C) (e : MapScreenEvent C) : List (LocationCall C) :=
  match s.method sdkInt kind e with
  | some (_, m, method) => (s.runMethod m method).2.calls
  | none => []

/-- What a method leaves; an exception ends the process. -/
def afterMethod (s : MapScreen C) (e : MapScreenEvent C) : MapScreen C :=
  match s.method sdkInt kind e with
  | some (i, m, method) =>
    match s.runMethod m method with
    | (.ok (), u) =>
      { s with instances := s.instances.set i u.toMapInstance, requests := u.requests }
    | (.error _, _) => s.ended
  | none => s

/-- What a location callback leaves; an exception ends the process. -/
def afterLocations (i : Nat) (m : MapInstance C) (locations : List (Location C)) :
    MapScreen C :=
  match (kind.onLocationResult locations).run ⟨m.activity, s.locationDetails⟩ with
  | (.ok (), b) =>
    { s with instances := s.instances.set i { m with activity := b.activity },
             locationDetails := b.locationDetails }
  | (.error _, _) => s.ended

/-- What each event does.  A new instance closes the dialogs of those before it. -/
def next (s : MapScreen C) (e : MapScreenEvent C) : MapScreen C :=
  match e with
  | .create =>
    { s with instances :=
        (s.instances.map fun m => { m with rationale := false }) ++ [.created] }
  | .onMapReady _ _ => s.afterMethod sdkInt kind e
  | .onClickOk _ => s.afterMethod sdkInt kind e
  | .answer grantResults =>
    { s with granted := s.granted || grantResults.head? == some .permissionGranted
             requests := s.requests - 1
             results := s.results ++ [grantResults] }
  | .onRequestPermissionsResult =>
    { s.afterMethod sdkInt kind e with results := s.results.tail }
  | .onLocationResult i locations =>
    match s.instances[i]? with
    | some m => s.afterLocations kind i m locations
    | none => s
  | .setPermission granted => { s with granted := granted }
  | .killed => s.ended

end MapScreen

/-- A map screen, on a device without the permission. -/
def mapScreen (sdkInt : Nat) (kind : MapKind) : System (MapScreen C) (MapScreenEvent C) where
  start := ⟨false, [], 0, [], []⟩
  Enabled := MapScreen.Enabled
  next := MapScreen.next sdkInt kind

/-! ## What the methods do -/

/-- The screen is ready for a call, and the permission is granted. -/
def LocationCall.Ready (c : LocationCall C) : Prop :=
  c.mMap ≠ none ∧ c.mLocationRequest ≠ none ∧ c.granted = true

/-- A screen with its map and its request. -/
def MapActivity.Ready (a : MapActivity C) : Prop := a.mMap ≠ none ∧ a.mLocationRequest ≠ none

/-- **The invariant of an instance.**  With its map it has its request, and with its
callback registered it has its map. -/
structure MapInstance.Sound (m : MapInstance C) : Prop where
  request : m.activity.mMap ≠ none → m.activity.Ready
  registered : m.registered = true → m.activity.mMap ≠ none

theorem MapInstance.Sound.created : (MapInstance.created : MapInstance C).Sound := by
  refine ⟨?_, ?_⟩
  · intro h
    exact absurd rfl h
  · intro h
    cases h

/-- An instance with its map and its request is sound. -/
theorem MapInstance.Sound.of_ready {m : MapInstance C} (h : m.activity.Ready) : m.Sound :=
  ⟨fun _ => h, fun _ => h.1⟩

variable {sdkInt : Nat} {granted : Bool}

theorem call_ready {u : Setup C} (method : LocationMethod) (h : u.activity.Ready)
    (hgranted : checkSelfPermission sdkInt granted = true) :
    (u.call sdkInt granted method).Ready := ⟨h.1, h.2, hgranted⟩

/-- What the two calls leave. -/
def Setup.started (sdkInt : Nat) (granted : Bool) (u : Setup C) : Setup C :=
  { u with registered := true,
           calls := u.calls ++ [u.call sdkInt granted .requestLocationUpdates,
             u.call sdkInt granted .setMyLocationEnabled] }

/-- Both calls are made, whether the second one throws or not. -/
theorem startUpdates_run (u : Setup C) : (Setup.startUpdates sdkInt granted).run u =
    (((Setup.setMyLocationEnabled sdkInt granted).run u).1, u.started sdkInt granted) := by
  have hrequest : (Setup.requestLocationUpdates sdkInt granted).run u = (.ok (), { u with
      registered := true
      calls := u.calls ++ [u.call sdkInt granted .requestLocationUpdates] }) := rfl
  unfold Setup.startUpdates
  rw [Code.run_bind_ok hrequest]
  simp only [Code.run, Setup.setMyLocationEnabled, List.append_assoc]
  rfl

/-- The two calls go through if the map is there. -/
theorem startUpdates_of_map {u : Setup C} (h : u.activity.mMap ≠ none) :
    (Setup.startUpdates sdkInt granted).run u = (.ok (), u.started sdkInt granted) := by
  obtain ⟨map, hmap⟩ := Option.ne_none_iff_exists'.1 h
  rw [startUpdates_run]
  simp only [Code.run, Setup.setMyLocationEnabled, hmap]

/-- Without the map the second one throws. -/
theorem startUpdates_of_no_map {u : Setup C} (h : u.activity.mMap = none) :
    (Setup.startUpdates sdkInt granted).run u =
      (.error .nullPointer, u.started sdkInt granted) := by
  rw [startUpdates_run]
  simp only [Code.run, Setup.setMyLocationEnabled, h]

/-- Both calls find the screen ready exactly if the map is there. -/
theorem started_calls {m : MapInstance C} (hm : m.Sound) (requests : Nat)
    (hgranted : checkSelfPermission sdkInt granted = true) :
    (∀ c ∈ (Setup.started sdkInt granted ⟨m, requests, []⟩).calls, c.Ready) ↔
      m.activity.mMap ≠ none := by
  constructor
  · intro h
    exact (h _ List.mem_cons_self).1
  · intro h c hc
    simp only [Setup.started, List.nil_append, List.mem_cons, List.not_mem_nil, or_false] at hc
    rcases hc with rfl | rfl
    · exact call_ready _ (hm.request h) hgranted
    · exact call_ready _ (hm.request h) hgranted

/-- An instance with what `onMapReady` assigns. -/
def MapInstance.setReady (kind : MapKind) (m : MapInstance C) : MapInstance C :=
  { m with activity := m.activity.setReady kind.locationRequest }

/-- **`onMapReady`** goes through, and its calls find the screen ready. -/
theorem onMapReady_run (sdkInt : Nat) (granted : Bool) (kind : MapKind) (shouldShow : Bool)
    (m : MapInstance C) (requests : Nat) :
    ∃ u, (Setup.onMapReady sdkInt granted kind shouldShow).run ⟨m, requests, []⟩ = (.ok (), u) ∧
      u.toMapInstance.Sound ∧ ∀ c ∈ u.calls, c.Ready := by
  have hready : (m.setReady kind).activity.Ready :=
    ⟨Option.some_ne_none _, Option.some_ne_none _⟩
  have hset : (Code.modify fun u => { u with
      activity := u.activity.setReady kind.locationRequest } : Code (Setup C) Exn Unit).run
        ⟨m, requests, []⟩ = (.ok (), ⟨m.setReady kind, requests, []⟩) := rfl
  have hstart : checkSelfPermission sdkInt granted = true →
      ∃ u, (Setup.startUpdates sdkInt granted).run ⟨m.setReady kind, requests, []⟩ =
          (.ok (), u) ∧ u.toMapInstance.Sound ∧ ∀ c ∈ u.calls, c.Ready := by
    intro hgranted
    refine ⟨_, startUpdates_of_map hready.1, .of_ready hready, ?_⟩
    exact (started_calls (.of_ready hready) requests hgranted).2 hready.1
  unfold Setup.onMapReady
  rw [Code.run_bind_ok hset]
  by_cases hM : versionCodesM ≤ sdkInt
  · rw [if_pos hM]
    by_cases hgranted : checkSelfPermission sdkInt granted = true
    · rw [if_pos hgranted]
      exact hstart hgranted
    · rw [if_neg hgranted, Setup.checkLocationPermission, if_neg hgranted]
      cases shouldShow with
      | true => exact ⟨_, rfl, .of_ready hready, fun c hc => absurd hc List.not_mem_nil⟩
      | false => exact ⟨_, rfl, .of_ready hready, fun c hc => absurd hc List.not_mem_nil⟩
  · rw [if_neg hM]
    refine hstart ?_
    rw [checkSelfPermission, Bool.or_eq_true]
    exact Or.inl (decide_eq_true (Nat.lt_of_not_le hM))

/-- An answer starts the updates if it grants the permission and it is granted. -/
theorem onRequestPermissionsResult_of_granted {grantResults : List GrantResult}
    (hresult : grantResults.head? = some .permissionGranted)
    (hgranted : checkSelfPermission sdkInt granted = true) :
    (Setup.onRequestPermissionsResult sdkInt granted 1 grantResults :
      Code (Setup C) Exn Unit) = Setup.startUpdates sdkInt granted := by
  rw [Setup.onRequestPermissionsResult, if_pos rfl, if_pos hresult, if_pos hgranted]

/-- Any other answer does nothing. -/
theorem onRequestPermissionsResult_of_not {grantResults : List GrantResult}
    (h : ¬ (grantResults.head? = some .permissionGranted ∧
      checkSelfPermission sdkInt granted = true)) :
    (Setup.onRequestPermissionsResult sdkInt granted 1 grantResults :
      Code (Setup C) Exn Unit) = pure () := by
  rw [Setup.onRequestPermissionsResult, if_pos rfl]
  split
  · next hresult => exact if_neg fun hgranted => h ⟨hresult, hgranted⟩
  · rfl

/-- A location callback leaves a ready screen ready. -/
theorem onLocationResult_ready (kind : MapKind) (locations : List (Location C)) {b : BossMap C}
    (h : b.activity.Ready) : ((kind.onLocationResult locations).run b).2.activity.Ready := by
  cases kind with
  | employeeMapActivity =>
    refine Code.forEach_inv (I := fun a : MapActivity C => a.Ready) ?_ h
    rintro location - a ⟨hmap, hrequest⟩
    obtain ⟨map, hmap⟩ := Option.ne_none_iff_exists'.1 hmap
    rw [EmployeeMapActivity.onLocation_run hmap location]
    exact ⟨Option.some_ne_none _, hrequest⟩
  | bossMapActivity =>
    refine Code.forEach_inv (I := fun b : BossMap C => b.activity.Ready) ?_ h
    rintro location - b ⟨hmap, hrequest⟩
    obtain ⟨map, hmap⟩ := Option.ne_none_iff_exists'.1 hmap
    rw [BossMapActivity.onLocation_snd, MapActivity.removeCurrLocalMarker_run hmap]
    exact ⟨Option.some_ne_none _, hrequest⟩

/-! ## Every instance is sound -/

/-- **The invariant.** -/
def AllSound (s : MapScreen C) : Prop := ∀ m ∈ s.instances, m.Sound

variable {kind : MapKind} {s : MapScreen C} {e : MapScreenEvent C}

theorem AllSound.ended (s : MapScreen C) : AllSound s.ended :=
  fun _ hm => absurd hm List.not_mem_nil

theorem AllSound.set (h : AllSound s) {m : MapInstance C} (hm : m.Sound) (i : Nat) :
    ∀ m' ∈ s.instances.set i m, m'.Sound :=
  forall_mem_set h hm i

/-- A method leaves a sound instance sound, unless it throws. -/
theorem AllSound.method (h : AllSound s) {i : Nat} {m : MapInstance C}
    {method : Code (Setup C) Exn Unit} (hmethod : s.method sdkInt kind e = some (i, m, method))
    {u : Setup C} (hrun : s.runMethod m method = (.ok (), u)) : u.toMapInstance.Sound := by
  unfold MapScreen.runMethod at hrun
  cases e with
  | onMapReady j shouldShow =>
    obtain ⟨m', -, heq⟩ := Option.map_eq_some_iff.1 hmethod
    cases heq
    obtain ⟨u', hu', hsound, -⟩ :=
      onMapReady_run sdkInt s.granted kind shouldShow m s.requests
    cases hu'.symm.trans hrun
    exact hsound
  | onClickOk j =>
    obtain ⟨m', hm', heq⟩ := Option.map_eq_some_iff.1 hmethod
    cases heq
    have hm := h m (List.mem_of_getElem? hm')
    cases hrun
    exact ⟨hm.request, hm.registered⟩
  | onRequestPermissionsResult =>
    obtain ⟨grantResults, -, heq⟩ := Option.bind_eq_some_iff.1 hmethod
    obtain ⟨m', hm', heq⟩ := Option.map_eq_some_iff.1 heq
    cases heq
    have hm := h m (List.mem_of_getLast? hm')
    by_cases hstart : grantResults.head? = some .permissionGranted ∧
        checkSelfPermission sdkInt s.granted = true
    · rw [onRequestPermissionsResult_of_granted hstart.1 hstart.2] at hrun
      by_cases hmap : m.activity.mMap = none
      · rw [startUpdates_of_no_map hmap] at hrun
        cases hrun
      · rw [startUpdates_of_map hmap] at hrun
        cases hrun
        exact .of_ready (hm.request hmap)
    · rw [onRequestPermissionsResult_of_not hstart] at hrun
      cases hrun
      exact hm
  | _ => cases hmethod

theorem AllSound.afterMethod (h : AllSound s) (e : MapScreenEvent C) :
    AllSound (s.afterMethod sdkInt kind e) := by
  unfold MapScreen.afterMethod
  split
  · next i m method hmethod =>
    split
    · next u hrun => exact h.set (h.method hmethod hrun) i
    · exact AllSound.ended s
  · exact h

/-- **One step.** -/
theorem AllSound.next (h : AllSound s) (he : s.Enabled e) :
    AllSound (s.next sdkInt kind e) := by
  cases e with
  | create =>
    refine forall_mem_concat ?_ .created
    intro m hm
    obtain ⟨m', hm', rfl⟩ := List.mem_map.1 hm
    exact ⟨(h m' hm').request, (h m' hm').registered⟩
  | onMapReady i shouldShow => exact h.afterMethod _
  | onClickOk i => exact h.afterMethod _
  | onRequestPermissionsResult =>
    have hafter : AllSound (s.afterMethod sdkInt kind .onRequestPermissionsResult) :=
      h.afterMethod _
    exact hafter
  | onLocationResult i locations =>
    obtain ⟨m, hm, hregistered⟩ := he
    simp only [MapScreen.next, hm, MapScreen.afterLocations]
    have hsound := h m (List.mem_of_getElem? hm)
    have hready := onLocationResult_ready kind locations
      (b := ⟨m.activity, s.locationDetails⟩) (hsound.request (hsound.registered hregistered))
    split
    · next b hrun =>
      rw [hrun] at hready
      exact h.set (m := { m with activity := b.activity }) (.of_ready hready) i
    · exact AllSound.ended s
  | answer grantResults => exact h
  | setPermission granted => exact h
  | killed => exact AllSound.ended s

/-! ## Calls and callbacks find the screen ready -/

/-- Every call that the event makes finds the screen ready and the permission granted, and
a location callback finds the map. -/
def UpdatesReady (sdkInt : Nat) (kind : MapKind) (s : MapScreen C) (e : MapScreenEvent C) :
    Prop :=
  (∀ c ∈ s.calls sdkInt kind e, c.Ready) ∧
    ∀ i locations, e = .onLocationResult i locations →
      ∀ m, s.instances[i]? = some m → m.activity.mMap ≠ none

/-- An answer that grants the permission, delivered while it is granted, finds an instance
whose map is there. -/
def ResultsInTime (sdkInt : Nat) (s : MapScreen C) : MapScreenEvent C → Prop
  | .onRequestPermissionsResult => ∀ grantResults m, s.results.head? = some grantResults →
      s.instances.getLast? = some m → grantResults.head? = some .permissionGranted →
        checkSelfPermission sdkInt s.granted = true → m.activity.mMap ≠ none
  | _ => True

/-- A callback is only registered on a screen whose map is there. -/
theorem AllSound.callback (h : AllSound s) (he : s.Enabled e) {i : Nat}
    {locations : List (Location C)} (heq : e = .onLocationResult i locations)
    {m : MapInstance C} (hm : s.instances[i]? = some m) : m.activity.mMap ≠ none := by
  subst heq
  obtain ⟨m', hm', hregistered⟩ := he
  obtain rfl : m = m' := Option.some.inj (hm.symm.trans hm')
  exact (h m (List.mem_of_getElem? hm)).registered hregistered

/-- The calls of an answer. -/
theorem calls_result {m : MapInstance C} (hm : m.Sound) (requests : Nat)
    (grantResults : List GrantResult) :
    (∀ c ∈ ((Setup.onRequestPermissionsResult sdkInt granted 1 grantResults).run
        ⟨m, requests, []⟩).2.calls, c.Ready) ↔
      (grantResults.head? = some .permissionGranted →
        checkSelfPermission sdkInt granted = true → m.activity.mMap ≠ none) := by
  by_cases hstart : grantResults.head? = some .permissionGranted ∧
      checkSelfPermission sdkInt granted = true
  · obtain ⟨hresult, hgranted⟩ := hstart
    have hcalls := started_calls hm requests hgranted
    rw [onRequestPermissionsResult_of_granted hresult hgranted, startUpdates_run, hcalls]
    simp only [hresult, hgranted, forall_const]
  · rw [onRequestPermissionsResult_of_not hstart]
    refine iff_of_true ?_ ?_
    · intro c hc
      cases hc
    · intro hresult hgranted
      exact absurd ⟨hresult, hgranted⟩ hstart

/-- The calls of `onMapReady` come when everything is there. -/
theorem calls_onMapReady (i : Nat) (shouldShow : Bool) :
    ∀ c ∈ s.calls sdkInt kind (.onMapReady i shouldShow), c.Ready := by
  intro c hc
  unfold MapScreen.calls at hc
  split at hc
  · next j m method hmethod =>
    obtain ⟨m', -, heq⟩ := Option.map_eq_some_iff.1 hmethod
    cases heq
    obtain ⟨u, hu, -, hcalls⟩ :=
      onMapReady_run sdkInt s.granted kind shouldShow m s.requests
    rw [MapScreen.runMethod, hu] at hc
    exact hcalls c hc
  · cases hc

/-- The dialog's button makes none. -/
theorem calls_onClickOk (i : Nat) : s.calls sdkInt kind (.onClickOk i) = [] := by
  unfold MapScreen.calls
  split
  · next j m method hmethod =>
    obtain ⟨m', -, heq⟩ := Option.map_eq_some_iff.1 hmethod
    cases heq
    rfl
  · rfl

/-- **One step.**  Only the calls of an answer can come too early. -/
theorem AllSound.calls_ready_iff (h : AllSound s) (e : MapScreenEvent C) :
    (∀ c ∈ s.calls sdkInt kind e, c.Ready) ↔ ResultsInTime sdkInt s e := by
  cases e with
  | onMapReady i shouldShow => exact iff_of_true (calls_onMapReady i shouldShow) trivial
  | onClickOk i =>
    rw [calls_onClickOk]
    exact iff_of_true (List.forall_mem_nil _) trivial
  | onRequestPermissionsResult =>
    unfold MapScreen.calls MapScreen.method ResultsInTime
    cases hg : s.results.head? with
    | none => simp
    | some grantResults =>
      cases hl : s.instances.getLast? with
      | none => simp
      | some m =>
        have hm := h m (List.mem_of_getLast? hl)
        refine (calls_result hm s.requests grantResults).trans ?_
        constructor
        · rintro hready _ _ ⟨⟩ ⟨⟩
          exact hready
        · intro hready
          exact hready grantResults m rfl rfl
  | _ => exact iff_of_true (List.forall_mem_nil _) trivial

/-- **When the updates start on a ready screen.** -/
theorem updatesReady_iff_resultsInTime {tr : List (MapScreen C × MapScreenEvent C)}
    (h : Trace (mapScreen sdkInt kind) tr s) :
    Meets (UpdatesReady sdkInt kind) tr ↔ Meets (ResultsInTime sdkInt) tr := by
  refine h.meets_iff (I := AllSound) ?_ (fun _ e hs he => hs.next he) ?_
  · intro m hm
    cases hm
  · intro s e hs he
    unfold UpdatesReady
    rw [hs.calls_ready_iff]
    exact and_iff_left fun i locations heq m hm => hs.callback he heq hm

/-! The permission is asked for and granted, with the screen turned in between or not. -/

/-- The answer arrives on the same instance, and a location on its map. -/
def grantedOnce : List (MapScreenEvent Int) :=
  [.create, .onMapReady 0 false, .answer [.permissionGranted], .onRequestPermissionsResult,
    .onLocationResult 0 [⟨48, 2⟩]]

theorem grantedOnce_runs : Runs (mapScreen 23 .bossMapActivity)
    (mapScreen 23 .bossMapActivity).start grantedOnce :=
  ⟨trivial, ⟨_, rfl, rfl⟩, Nat.one_pos, ⟨List.cons_ne_nil _ _, List.cons_ne_nil _ _⟩,
    ⟨_, rfl, rfl⟩, trivial⟩

theorem updatesReady_grantedOnce : Meets (UpdatesReady 23 .bossMapActivity)
    (steps (mapScreen 23 .bossMapActivity) (mapScreen 23 .bossMapActivity).start grantedOnce) := by
  refine (updatesReady_iff_resultsInTime (Trace.of_events grantedOnce_runs)).2 ?_
  simp only [grantedOnce, meets_steps_cons, meets_steps_nil, and_true]
  refine ⟨trivial, trivial, trivial, ?_, trivial⟩
  rintro grantResults m - ⟨⟩ - -
  exact Option.some_ne_none _

/-- The screen is turned before the answer, and the answer comes before the new map. -/
def grantedTooEarly : List (MapScreenEvent Int) :=
  [.create, .onMapReady 0 false, .create, .answer [.permissionGranted],
    .onRequestPermissionsResult]

theorem grantedTooEarly_runs : Runs (mapScreen 23 .employeeMapActivity)
    (mapScreen 23 .employeeMapActivity).start grantedTooEarly :=
  ⟨trivial, ⟨_, rfl, rfl⟩, trivial, Nat.one_pos, ⟨List.cons_ne_nil _ _, List.cons_ne_nil _ _⟩,
    trivial⟩

/-- The updates are requested without a request, on a screen without a map. -/
theorem not_updatesReady_grantedTooEarly : ¬ ∀ tr (s : MapScreen Int),
    Trace (mapScreen 23 .employeeMapActivity) tr s →
      Meets (UpdatesReady 23 .employeeMapActivity) tr := by
  intro h
  have hready := (h _ _ (Trace.of_events grantedTooEarly_runs) _
    (mem_steps grantedTooEarly.dropLast .onRequestPermissionsResult [] _)).1
  exact (hready _ List.mem_cons_self).1 rfl

end Partimer
