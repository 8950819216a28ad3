import Partimer.Screens.Navigation
import Partimer.Screens.MapActivity

/-!
# The button that fills in the location

`setmyLocation` of `CreateJobCompany` reads the first two entries of a static list that
only the location callbacks of `BossMapActivity` fill.  A company that registers sees that
map first; one that signs in does not.

* `CreateJobCompany.setmyLocation` — the button.
* `CompanyApp`, `CompanyEvent`, `companyApp` — the screens of `navigation`, with the map
  screens of the companies and the list, which is lost with the process.
* `nav_of_trace` — its screens change as those of `navigation`.
* `fillsLatest_iff_locationSeen` — the button fills in the last location exactly if
  there has been one in the process.
* `locationDetails_layout` — all of the list: no latitude stands where the button expects a
  longitude.
-/

namespace Partimer

open CreateJobCompany Transition

variable {C : Type}

/-- `setmyLocation`: the first two entries are the texts of the fields. -/
def CreateJobCompany.setmyLocation (P : Platform C) (locationDetails : List C)
    (form : JobForm) : Except Exn JobForm := do
  let latitude ← ArrayList.get locationDetails 0
  let longitude ← ArrayList.get locationDetails 1
  return { form with etLati := P.toText latitude, etLong := P.toText longitude }

/-- An event of `navigation` that ends the process: the screen it opens cannot be
created, the creation of a job throws, or the system ends it. -/
def NavState.dies (P : Platform C) (s : NavState) (e : NavEvent) : Bool :=
  match s.opened P e with
  | some screen => !(screen.onCreateUid (s.userAt e)).isOk
  | none =>
    match e with
    | .ended => true
    | .createJob form =>
      match ((addJobLocation P (s.currentUser.map Account.uid) form).run []).1 with
      | .error (.thrown _) => true
      | _ => false
    | _ => false

/-- Such an event leaves nothing of the process. -/
theorem NavState.next_of_dies {P : Platform C} {s : NavState} {e : NavEvent}
    (h : s.dies P e = true) : s.next P e = .dead (s.userAt e) := by
  unfold NavState.dies at h
  unfold NavState.next
  cases hopened : s.opened P e with
  | some screen =>
    rw [hopened] at h
    cases hcreate : screen.onCreateUid (s.userAt e) with
    | ok _ => simp [hcreate, Except.isOk, Except.toBool] at h
    | error exn => simp only [hcreate]
  | none =>
    rw [hopened] at h
    cases e with
    | ended => rfl
    | createJob form =>
      dsimp only at h ⊢
      cases hrun : ((addJobLocation P (s.currentUser.map Account.uid) form).run []).1 with
      | ok screen =>
        rw [hrun] at h
        cases h
      | error stop =>
        cases stop with
        | refused field error =>
          rw [hrun] at h
          cases h
        | thrown exn => rfl
    | _ => cases h

/-! ## The app of a company -/

/-- The screens, the map screens of the companies that the process has created, and the
static list.  The locations processed in the process are recorded. -/
structure CompanyApp (C : Type) where
  nav : NavState
  maps : List (MapActivity C)
  locationDetails : List C
  processed : List (Location C)

/-- What can happen. -/
inductive CompanyEvent (C : Type) where
  /-- A screen changes, as in `navigation`. -/
  | nav (e : NavEvent)
  /-- `setmylocation` is pressed on a `CreateJobCompany` that holds this form. -/
  | setmylocation (form : JobForm)
  /-- A `BossMapActivity` is created anew. -/
  | recreateMap
  /-- The map of the `i`th map screen is there. -/
  | onMapReady (i : Nat)
  /-- The location callback of the `i`th map screen is called. -/
  | onLocationResult (i : Nat) (locations : List (Location C))

namespace CompanyApp

variable (P : Platform C) (s : CompanyApp C)

/-- When each event can happen. -/
def Enabled (s : CompanyApp C) : CompanyEvent C → Prop
  | .nav e => s.nav.Enabled e ∧ e ≠ .press .setmylocation
  | .setmylocation _ => s.nav.stack.head? = some .createJobCompany
  | .recreateMap => .bossMapActivity ∈ s.nav.stack
  | .onMapReady i => ∃ a, s.maps[i]? = some a ∧ a.mMap = none
  | .onLocationResult i _ => ∃ a, s.maps[i]? = some a

/-- A process that has ended, or has not been started. -/
def ended (nav : NavState) : CompanyApp C := ⟨nav, [], [], []⟩

/-- The location callback of a map screen; an exception ends the process. -/
def onLocationResult (i : Nat) (a : MapActivity C) (locations : List (Location C)) :
    CompanyApp C :=
  match (BossMapActivity.onLocationResult locations).run ⟨a, s.locationDetails⟩ with
  | (.ok (), b) => { s with
      maps := s.maps.set i b.activity
      locationDetails := b.locationDetails
      processed := s.processed ++ locations }
  | (.error _, _) => ended (.dead s.nav.currentUser)

/-- What each event does. -/
def next (s : CompanyApp C) : CompanyEvent C → CompanyApp C
  | .nav e =>
    if s.nav.dies P e then ended (.dead (s.nav.userAt e))
    else if s.nav.opened P e = some .bossMapActivity then
      { s with nav := s.nav.next P e, maps := s.maps ++ [.created] }
    else { s with nav := s.nav.next P e }
  | .setmylocation form =>
    match CreateJobCompany.setmyLocation P s.locationDetails form with
    | .ok _ => s
    | .error _ => ended (.dead s.nav.currentUser)
  | .recreateMap => { s with maps := s.maps ++ [.created] }
  | .onMapReady i =>
    { s with maps := s.maps.modify i fun a => a.setReady BossMapActivity.locationRequest }
  | .onLocationResult i locations =>
    match s.maps[i]? with
    | some a => s.onLocationResult i a locations
    | none => s

end CompanyApp

/-- The app of a company from its first start. -/
def companyApp (P : Platform C) : System (CompanyApp C) (CompanyEvent C) where
  start := .ended (navigation P).start
  Enabled := CompanyApp.Enabled
  next := CompanyApp.next P

variable {P : Platform C} {s : CompanyApp C}

/-! ## Its screens are those of `navigation` -/

/-- A step changes the screens as one of `navigation` does, or not at all. -/
theorem CompanyApp.nav_next {e : CompanyEvent C} (he : s.Enabled e) :
    (s.next P e).nav = s.nav ∨
      ∃ e', s.nav.Enabled e' ∧ (s.next P e).nav = s.nav.next P e' := by
  cases e with
  | nav e =>
    refine Or.inr ⟨e, he.1, ?_⟩
    simp only [CompanyApp.next]
    split
    · next hdies => exact (NavState.next_of_dies hdies).symm
    · split <;> rfl
  | setmylocation form =>
    simp only [CompanyApp.next]
    split
    · exact Or.inl rfl
    · exact Or.inr ⟨.ended, trivial, rfl⟩
  | recreateMap => exact Or.inl rfl
  | onMapReady i => exact Or.inl rfl
  | onLocationResult i locations =>
    simp only [CompanyApp.next]
    split
    · unfold CompanyApp.onLocationResult
      split
      · exact Or.inl rfl
      · exact Or.inr ⟨.ended, trivial, rfl⟩
    · exact Or.inl rfl

/-- The screens of a run are those of a run of `navigation`. -/
theorem nav_of_trace {tr : List (CompanyApp C × CompanyEvent C)}
    (h : Trace (companyApp P) tr s) : ∃ tr', Trace (navigation P) tr' s.nav := by
  induction h with
  | nil => exact ⟨[], .nil⟩
  | @snoc tr s e _ he ih =>
    obtain ⟨tr', hrun⟩ := ih
    show ∃ tr', Trace (navigation P) tr' (s.next P e).nav
    rcases CompanyApp.nav_next (P := P) he with hsame | ⟨e', he', hnext⟩
    · rw [hsame]
      exact ⟨tr', hrun⟩
    · rw [hnext]
      exact ⟨tr' ++ [(s.nav, e')], hrun.snoc he'⟩

/-! ## What the list holds -/

/-- **The invariant.**  The list holds the locations processed. -/
def HoldsProcessed (s : CompanyApp C) : Prop := s.locationDetails = locationsLayout s.processed

theorem HoldsProcessed.ended (nav : NavState) :
    HoldsProcessed (CompanyApp.ended nav : CompanyApp C) := rfl

/-- **One step.** -/
theorem HoldsProcessed.next (h : HoldsProcessed s) (e : CompanyEvent C) :
    HoldsProcessed (s.next P e) := by
  cases e with
  | nav e =>
    simp only [CompanyApp.next]
    split
    · exact HoldsProcessed.ended _
    · split
      · exact h
      · exact h
  | setmylocation form =>
    simp only [CompanyApp.next]
    split
    · exact h
    · exact HoldsProcessed.ended _
  | recreateMap => exact h
  | onMapReady i => exact h
  | onLocationResult i locations =>
    simp only [CompanyApp.next]
    split
    · next a _ =>
      unfold CompanyApp.onLocationResult
      rcases hrun : (BossMapActivity.onLocationResult locations).run ⟨a, s.locationDetails⟩
        with ⟨_ | _, b⟩
      · exact HoldsProcessed.ended _
      · exact BossMapActivity.onLocationResult_layout hrun h
    · exact h

/-- **Whole runs.** -/
theorem holdsProcessed_of_trace {tr : List (CompanyApp C × CompanyEvent C)}
    (h : Trace (companyApp P) tr s) : HoldsProcessed s :=
  h.invariant (HoldsProcessed.ended _) fun _ e hs _ => hs.next e

/-! ## The button -/

/-- The button fills in the last location processed by any of the map screens. -/
def FillsLatest (P : Platform C) (s : CompanyApp C) : CompanyEvent C → Prop
  | .setmylocation form => ∃ location, s.processed.getLast? = some location ∧
      CreateJobCompany.setmyLocation P s.locationDetails form = .ok { form with
        etLati := P.toText location.latitude, etLong := P.toText location.longitude }
  | _ => True

/-- When the button is pressed, a location has been processed in the process. -/
def LocationSeen (s : CompanyApp C) : CompanyEvent C → Prop
  | .setmylocation _ => s.processed ≠ []
  | _ => True

/-- **When the button works.** -/
theorem fillsLatest_iff_locationSeen {tr : List (CompanyApp C × CompanyEvent C)}
    (h : Trace (companyApp P) tr s) : Meets (FillsLatest P) tr ↔ Meets LocationSeen tr := by
  refine h.meets_iff (I := HoldsProcessed) (HoldsProcessed.ended _)
    (fun _ e hs _ => hs.next e) ?_
  intro s e hs _
  cases e with
  | setmylocation form =>
    constructor
    · rintro ⟨location, hlast, -⟩ hnil
      rw [hnil] at hlast
      cases hlast
    · intro hne
      rcases List.eq_nil_or_concat s.processed with hnil | ⟨init, location, hsplit⟩
      · exact absurd hnil hne
      · rw [List.concat_eq_append] at hsplit
        refine ⟨location, ?_, ?_⟩
        · rw [hsplit, List.getLast?_concat]
        · rw [show s.locationDetails = locationsLayout s.processed from hs, hsplit,
            locationsLayout_concat]
          rfl
  | _ => exact Iff.rfl

/-- A company registers, is located on the map, and opens the form. -/
def registeredCompany : List (CompanyEvent Int) :=
  [.nav .timeout, .nav (.press .registerbtn), .nav (.press .btnCompany),
    .nav (.registered ⟨acme, .company⟩), .onMapReady 0, .onLocationResult 0 [⟨48, 2⟩, ⟨49, 3⟩],
    .nav (.press .userAccountMap), .nav (.press .addJobbtn),
    .setmylocation ⟨"Cook", "10", "", ""⟩]

theorem registeredCompany_runs : Runs (companyApp wholeDegrees) (companyApp wholeDegrees).start
    registeredCompany :=
  ⟨⟨rfl, by simp⟩, ⟨List.cons_ne_nil _ _, by simp⟩, ⟨List.cons_ne_nil _ _, by simp⟩, ⟨rfl, by simp⟩,
    ⟨_, rfl, rfl⟩, ⟨_, rfl⟩, ⟨List.cons_ne_nil _ _, by simp⟩, ⟨List.cons_ne_nil _ _, by simp⟩, rfl,
    trivial⟩

theorem fillsLatest_registeredCompany : Meets (FillsLatest wholeDegrees)
    (steps (companyApp wholeDegrees) (companyApp wholeDegrees).start registeredCompany) := by
  refine (fillsLatest_iff_locationSeen (Trace.of_events registeredCompany_runs)).2 ?_
  simp only [registeredCompany, meets_steps_cons, meets_steps_nil, and_true]
  exact ⟨trivial, trivial, trivial, trivial, trivial, trivial, trivial, trivial,
    List.cons_ne_nil _ _⟩

/-- A company signs in and opens the form. -/
def signedInCompany : List (CompanyEvent Int) :=
  [.nav .timeout, .nav (.signedIn ⟨acme, .company⟩), .nav (.press .addJobbtn),
    .setmylocation ⟨"Cook", "10", "", ""⟩]

theorem signedInCompany_runs : Runs (companyApp wholeDegrees) (companyApp wholeDegrees).start
    signedInCompany :=
  ⟨⟨rfl, by simp⟩, ⟨List.mem_cons_self, by simp⟩, ⟨List.cons_ne_nil _ _, by simp⟩, rfl, trivial⟩

/-- The list is still empty. -/
theorem not_fillsLatest_signedInCompany : ¬ ∀ tr s, Trace (companyApp wholeDegrees) tr s →
    Meets (FillsLatest wholeDegrees) tr := by
  intro h
  obtain ⟨location, hlast, -⟩ := h _ _ (Trace.of_events signedInCompany_runs) _
    (mem_steps signedInCompany.dropLast (.setmylocation ⟨"Cook", "10", "", ""⟩) [] _)
  cases hlast

/-! ## The order of the entries -/

/-- **Latitudes and longitudes are never swapped.**  In every state that a run reaches, the
list holds the locations that the map screens of the process have processed, the last one
first: of `n` locations there are `2 * n` entries, and each location has its latitude at an
even index and its longitude at the next. -/
theorem locationDetails_layout {tr : List (CompanyApp C × CompanyEvent C)}
    (h : Trace (companyApp P) tr s) :
    s.locationDetails = s.processed.reverse.flatMap
        (fun location => [location.latitude, location.longitude]) ∧
      s.locationDetails.length = 2 * s.processed.length ∧
      ∀ i, s.locationDetails[2 * i]? = s.processed.reverse[i]?.map Location.latitude ∧
        s.locationDetails[2 * i + 1]? = s.processed.reverse[i]?.map Location.longitude := by
  have hlist : s.locationDetails = locationsLayout s.processed := holdsProcessed_of_trace h
  refine ⟨hlist, ?_, ?_⟩
  · rw [hlist, locationsLayout_length]
  · intro i
    rw [hlist]
    exact locationsLayout_getElem? s.processed i

/-- The registered company has been located twice. -/
theorem locationDetails_registeredCompany :
    (registeredCompany.foldl (companyApp wholeDegrees).next
      (companyApp wholeDegrees).start).locationDetails = [49, 3, 48, 2] :=
  (locationDetails_layout (Trace.of_events registeredCompany_runs)).1

end Partimer
