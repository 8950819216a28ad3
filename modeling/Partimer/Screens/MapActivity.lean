import Partimer.Jobs.MapLoops

/-!
# The two map screens

`EmployeeMapActivity` and `BossMapActivity` have the same fields and much the same
listeners.  The location callback of the first draws a marker; that of the second, whose
marker is commented out, puts the coordinates at the front of a static list.

* `GoogleMap`, `MapActivity` — the map and the fields of a map screen.
* `MapActivity.onDataChange`, `EmployeeMapActivity.onLocationResult`,
  `BossMapActivity.onLocationResult` — the listeners.
* `addMarker_run`, `removeCurrLocalMarker_run`, `EmployeeMapActivity.onLocation_run` —
  what they do to a map that is there.
* `locationsLayout`, `locationsLayout_getElem?`, `BossMapActivity.onLocationResult_layout` —
  the static list holds the locations, the last one first, each as its latitude and then
  its longitude.
-/

namespace Partimer

open KeyTree JobLoops

variable {C : Type}

/-! ## The map and its screen -/

/-- `android.location.Location`, as far as it is read. -/
structure Location (C : Type) where
  latitude : C
  longitude : C
  deriving DecidableEq, Repr

/-- A map and the markers on it, each under the number that `addMarker` gave it; no marker
has the number that the next one will get. -/
structure GoogleMap (C : Type) where
  nextMarker : Nat
  markers : List (Nat × MarkerOptions C)
  numbered : ∀ m ∈ markers, m.1 < nextMarker

namespace GoogleMap

/-- A map that has just been made. -/
def fresh : GoogleMap C := ⟨0, [], fun _ hm => absurd hm List.not_mem_nil⟩

/-- `addMarker`. -/
def addMarker (map : GoogleMap C) (options : MarkerOptions C) : GoogleMap C where
  nextMarker := map.nextMarker + 1
  markers := map.markers ++ [(map.nextMarker, options)]
  numbered := by
    intro m hm
    rcases List.mem_append.1 hm with hm | hm
    · exact Nat.lt_succ_of_lt (map.numbered m hm)
    · obtain rfl := List.mem_singleton.1 hm
      exact Nat.lt_succ_self _

/-- The markers with some numbers only. -/
def keep (map : GoogleMap C) (p : Nat → Bool) : GoogleMap C where
  nextMarker := map.nextMarker
  markers := map.markers.filter fun m => p m.1
  numbered m hm := map.numbered m (List.mem_of_mem_filter hm)

/-- `remove` of a marker. -/
def remove (map : GoogleMap C) (marker : Nat) : GoogleMap C := map.keep fun n => n ≠ marker

/-- The map without the marker remembered, if there is one. -/
def without (map : GoogleMap C) (curr : Option Nat) : GoogleMap C :=
  map.keep fun n => curr ≠ some n

theorem without_none (map : GoogleMap C) : map.without none = map := by
  simp [without, keep]

theorem without_some (map : GoogleMap C) (marker : Nat) :
    map.without (some marker) = map.remove marker := by
  simp [without, remove, eq_comm]

end GoogleMap

/-- `LocationRequest.PRIORITY_LOW_POWER`, the only priority asked for. -/
inductive Priority where
  | priorityLowPower
  deriving DecidableEq, Repr

/-- `com.google.android.gms.location.LocationRequest`. -/
structure LocationRequest where
  interval : Nat
  fastestInterval : Nat
  priority : Priority
  deriving DecidableEq, Repr

/-- The request of `EmployeeMapActivity`. -/
def EmployeeMapActivity.locationRequest : LocationRequest := ⟨2000, 2000, .priorityLowPower⟩

/-- The request of `BossMapActivity`. -/
def BossMapActivity.locationRequest : LocationRequest := ⟨100000, 100000, .priorityLowPower⟩

/-- The fields of a map screen; `none` is `null`, and a marker is known by its number. -/
structure MapActivity (C : Type) where
  mMap : Option (GoogleMap C)
  mLocationRequest : Option LocationRequest
  mCurrLocalMarker : Option Nat

namespace MapActivity

/-- A screen that has just been created. -/
def created : MapActivity C := ⟨none, none, none⟩

/-- What `onMapReady` assigns. -/
def setReady (request : LocationRequest) (a : MapActivity C) : MapActivity C :=
  { a with mMap := some .fresh, mLocationRequest := some request }

/-- `mMap.addMarker(markerOptions)`. -/
def addMarker (markerOptions : MarkerOptions C) : Code (MapActivity C) Exn Nat := fun a =>
  match a.mMap with
  | some map => (.ok map.nextMarker, { a with mMap := some (map.addMarker markerOptions) })
  | none => (.error .nullPointer, a)

/-- `if (mCurrLocalMarker != null) mCurrLocalMarker.remove();` -/
def removeCurrLocalMarker : Code (MapActivity C) Exn Unit :=
  Code.modify fun a =>
    match a.mCurrLocalMarker with
    | some marker => { a with mMap := a.mMap.map fun map => map.remove marker }
    | none => a

/-- `mMap.moveCamera(..)` and `mMap.animateCamera(..)`, which move no marker. -/
def moveCamera : Code (MapActivity C) Exn Unit := fun a =>
  match a.mMap with
  | some _ => (.ok (), a)
  | none => (.error .nullPointer, a)

/-- One pass of the loop of the jobs listener, with the map it draws on. -/
def drawCompany (P : Platform C) (data : String × Node String (Value C)) :
    Code (MapActivity C) Exn Unit := do
  let vars ← Code.lift (readCompany P data.2)
  let _ ← addMarker vars.markerOptions

/-- The jobs listener of `onMapReady`. -/
def onDataChange (P : Platform C) (dataSnapshot : DataSnapshot C) :
    Code (MapActivity C) Exn Unit :=
  Code.forEach (children dataSnapshot) (drawCompany P)

end MapActivity

/-- The marker of a location. -/
def currentLocation (location : Location C) : MarkerOptions C where
  position := ⟨location.latitude, location.longitude⟩
  title := "Current Location"
  icon := .icLauncherUserrunning

namespace EmployeeMapActivity

open MapActivity

/-- One pass of the loop of the location callback. -/
def onLocation (location : Location C) : Code (MapActivity C) Exn Unit := do
  removeCurrLocalMarker
  let marker ← addMarker (currentLocation location)
  Code.modify fun a => { a with mCurrLocalMarker := some marker }
  moveCamera

/-- The location callback. -/
def onLocationResult (locations : List (Location C)) : Code (MapActivity C) Exn Unit :=
  Code.forEach locations onLocation

end EmployeeMapActivity

/-- What the location callback of a `BossMapActivity` works on: the fields of the screen,
and the static list. -/
structure BossMap (C : Type) where
  activity : MapActivity C
  locationDetails : List C

namespace BossMapActivity

open MapActivity

/-- A statement about the fields of the screen. -/
def onActivity {α : Type} (x : Code (MapActivity C) Exn α) : Code (BossMap C) Exn α := fun b =>
  ((x.run b.activity).1, { b with activity := (x.run b.activity).2 })

/-- `locationDetails.add(index, value)`. -/
def addDetail (index : Nat) (value : C) : Code (BossMap C) Exn Unit := fun b =>
  match ArrayList.add b.locationDetails index value with
  | .ok locationDetails => (.ok (), { b with locationDetails := locationDetails })
  | .error e => (.error e, b)

/-- One pass of the loop of the location callback; the marker is commented out. -/
def onLocation (location : Location C) : Code (BossMap C) Exn Unit := do
  onActivity removeCurrLocalMarker
  addDetail 0 location.latitude
  addDetail 1 location.longitude
  onActivity moveCamera

/-- The location callback. -/
def onLocationResult (locations : List (Location C)) : Code (BossMap C) Exn Unit :=
  Code.forEach locations onLocation

end BossMapActivity

/-! ## What they do to the map -/

variable {a : MapActivity C} {map : GoogleMap C}

/-- `mMap.addMarker` on a screen whose map is there. -/
theorem MapActivity.addMarker_run (hmap : a.mMap = some map) (options : MarkerOptions C) :
    (MapActivity.addMarker options).run a =
      (.ok map.nextMarker, { a with mMap := some (map.addMarker options) }) := by
  simp only [Code.run, MapActivity.addMarker, hmap]

/-- Removing the marker remembered leaves the others. -/
theorem MapActivity.removeCurrLocalMarker_run (hmap : a.mMap = some map) :
    removeCurrLocalMarker.run a =
      (.ok (), { a with mMap := some (map.without a.mCurrLocalMarker) }) := by
  obtain ⟨mMap, mLocationRequest, mCurrLocalMarker⟩ := a
  obtain rfl : mMap = some map := hmap
  cases mCurrLocalMarker with
  | none => rw [GoogleMap.without_none]; rfl
  | some marker => rw [GoogleMap.without_some]; rfl

/-- **One location.**  The callback goes through, and its marker is the one remembered. -/
theorem EmployeeMapActivity.onLocation_run (hmap : a.mMap = some map) (location : Location C) :
    (EmployeeMapActivity.onLocation location).run a = (.ok (), { a with
      mMap := some ((map.without a.mCurrLocalMarker).addMarker (currentLocation location)),
      mCurrLocalMarker := some map.nextMarker }) := by
  unfold EmployeeMapActivity.onLocation
  rw [Code.run_bind_ok (MapActivity.removeCurrLocalMarker_run hmap),
    Code.run_bind_ok (MapActivity.addMarker_run rfl _)]
  rfl

/-! ## What the static list holds -/

/-- The locations processed, the last one first: each as its latitude and its longitude. -/
def locationsLayout (processed : List (Location C)) : List C :=
  processed.reverse.flatMap fun location => [location.latitude, location.longitude]

theorem locationsLayout_concat (processed : List (Location C)) (location : Location C) :
    locationsLayout (processed ++ [location]) =
      location.latitude :: location.longitude :: locationsLayout processed := by
  simp [locationsLayout]

theorem locationsLayout_length (processed : List (Location C)) :
    (locationsLayout processed).length = 2 * processed.length := by
  have hreverse : processed.length = processed.reverse.length := List.length_reverse.symm
  unfold locationsLayout
  rw [hreverse]
  induction processed.reverse with
  | nil => rfl
  | cons location locations ih =>
    rw [List.flatMap_cons, List.length_append, ih]
    simp only [List.length_cons, List.length_nil]
    omega

/-- Each location takes two places, the latitude at the even one. -/
theorem locationsLayout_getElem? (processed : List (Location C)) (i : Nat) :
    (locationsLayout processed)[2 * i]? = processed.reverse[i]?.map Location.latitude ∧
      (locationsLayout processed)[2 * i + 1]? =
        processed.reverse[i]?.map Location.longitude := by
  unfold locationsLayout
  induction processed.reverse generalizing i with
  | nil => simp
  | cons location locations ih =>
    cases i with
    | zero => simp
    | succ i =>
      have heven : 2 * (i + 1) = 2 * i + 1 + 1 := by omega
      simpa [heven] using ih i

/-- **One location** is put at the front of the list; the second `add` lands behind the
first. -/
theorem BossMapActivity.onLocation_snd (location : Location C) (b : BossMap C) :
    ((BossMapActivity.onLocation location).run b).2 =
      ⟨(MapActivity.removeCurrLocalMarker.run b.activity).2,
        location.latitude :: location.longitude :: b.locationDetails⟩ := by
  have hremove : (onActivity MapActivity.removeCurrLocalMarker).run b =
      (.ok (), { b with activity := (MapActivity.removeCurrLocalMarker.run b.activity).2 }) := rfl
  have hlatitude : ∀ b : BossMap C, (addDetail 0 location.latitude).run b =
      (.ok (), { b with locationDetails := location.latitude :: b.locationDetails }) := by
    intro b
    simp [addDetail, Code.run, ArrayList.add]
  have hlongitude : ∀ b : BossMap C, b.locationDetails ≠ [] →
      (addDetail 1 location.longitude).run b =
        (.ok (), { b with
          locationDetails := b.locationDetails.insertIdx 1 location.longitude }) := by
    intro b hb
    have hlength : 1 ≤ b.locationDetails.length := List.length_pos_iff.2 hb
    simp [addDetail, Code.run, ArrayList.add, hlength]
  unfold BossMapActivity.onLocation
  rw [Code.run_bind_ok hremove, Code.run_bind_ok (hlatitude _),
    Code.run_bind_ok (hlongitude _ (List.cons_ne_nil _ _))]
  show (⟨(MapActivity.moveCamera.run _).2, _⟩ : BossMap C) = _
  unfold Code.run MapActivity.moveCamera
  split <;> rfl

/-- **The location callback**, when it goes through, keeps the layout. -/
theorem BossMapActivity.onLocationResult_layout {locations processed : List (Location C)}
    {b b' : BossMap C} (h : (BossMapActivity.onLocationResult locations).run b = (.ok (), b'))
    (hb : b.locationDetails = locationsLayout processed) :
    b'.locationDetails = locationsLayout (processed ++ locations) := by
  induction locations generalizing b processed with
  | nil =>
    cases h
    rwa [List.append_nil]
  | cons location locations ih =>
    obtain ⟨c, hfirst, hrest⟩ := Code.forEach_cons_ok.1 h
    have hc : c.locationDetails = locationsLayout (processed ++ [location]) := by
      have hsnd := BossMapActivity.onLocation_snd location b
      rw [hfirst, hb] at hsnd
      rw [locationsLayout_concat]
      exact congrArg BossMap.locationDetails hsnd
    have hlayout := ih hrest hc
    rwa [List.append_assoc] at hlayout

end Partimer
