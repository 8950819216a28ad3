import Partimer.Firebase
import Partimer.Lib.Code

/-!
# The loops that read the jobs

Three nested loops go over a snapshot of the `Jobs` node: the list loop of
`EmployeeMapActivity.onCreate`, and the marker loops of
`EmployeeMapActivity.onMapReady` and `BossMapActivity.onMapReady`.  Each goes over
the company nodes and over the children of each, taking the child `details` for
the job and every other child for a location.

* `readChild`, `readCompany`, `drawJobs` — the marker loops; `listChild`,
  `listJobs` — the list loop.
* `readCompany_ok_iff` — a company's node is read through exactly if each of its
  children is readable as what its key makes it.
* `readCompany_location`, `readCompany_last`, `readCompany_title` — what the four
  variables hold afterwards.
* `drawJobs_ok_iff`, `drawJobs_run`, `mem_drawn`, `mem_drawn_of_ok`, `mem_drawn_of_first` — which
  markers are drawn.
* `listJobs_eq`, `listJobs_snd`, `mem_jobsRead`, `jobsRead_eq_nil_iff` — what the list
  loop leaves, also when it is cut short; `listJobs_ok_iff`, `listJobs_run` — when it
  finishes, and what it has appended then.
-/

namespace Partimer

open KeyTree

/-- `com.google.android.gms.maps.model.LatLng`. -/
structure LatLng (C : Type) where
  latitude : C
  longitude : C
  deriving DecidableEq, Repr

/-- The icons of the markers. -/
inductive Icon where
  | icStoreMap
  | icLauncherUserrunning
  deriving DecidableEq, Repr

/-- What a marker is drawn from. -/
structure MarkerOptions (C : Type) where
  position : LatLng C
  title : String
  icon : Icon
  deriving DecidableEq, Repr

/-- The variables of one pass over a company's node. -/
structure JobVars (C : Type) where
  latitude : C
  longitude : C
  position : String
  salary : String
  deriving DecidableEq, Repr

namespace JobVars

variable {C : Type}

/-- The coordinates held. -/
def location (v : JobVars C) : GeoLocation C := ⟨v.latitude, v.longitude⟩

/-- The marker made of them. -/
def markerOptions (v : JobVars C) : MarkerOptions C where
  position := ⟨v.latitude, v.longitude⟩
  title := v.position ++ " -> " ++ v.salary
  icon := .icStoreMap

end JobVars

/-- A marker put on the map, with the key of the company node it was made for. -/
structure JobMarker (C : Type) where
  company : String
  vars : JobVars C
  deriving DecidableEq, Repr

namespace JobLoops

variable {C : Type} (P : Platform C)

/-! ## The source -/

/-- The values the variables start with. -/
def startVars : JobVars C := ⟨P.zero, P.zero, "", ""⟩

/-- One pass of the inner loop of the marker loops. -/
def readChild (data1 : String × Node String (Value C)) : Code (JobVars C) Exn Unit :=
  if data1.1 = "details" then do
    let position ← Code.lift (DataSnapshot.valueToString P (child (some data1.2) "Position"))
    Code.modify fun v => { v with position := position }
    let salary ← Code.lift (DataSnapshot.valueToString P (child (some data1.2) "Salary"))
    Code.modify fun v => { v with salary := salary }
  else do
    let latitude ← Code.lift (DataSnapshot.doubleValue P (fetch (some data1.2) ["l", "0"]))
    Code.modify fun v => { v with latitude := latitude }
    let longitude ← Code.lift (DataSnapshot.doubleValue P (fetch (some data1.2) ["l", "1"]))
    Code.modify fun v => { v with longitude := longitude }

/-- The inner loop over a company's node: the variables afterwards. -/
def readCompany (data : Node String (Value C)) : Except Exn (JobVars C) :=
  match (Code.forEach data.children (readChild P)).run (startVars P) with
  | (.ok _, vars) => .ok vars
  | (.error e, _) => .error e

/-- One pass of the outer loop: read the company's node and add its marker. -/
def drawCompany (data : String × Node String (Value C)) :
    Code (List (JobMarker C)) Exn Unit := do
  let vars ← Code.lift (readCompany P data.2)
  Code.modify (· ++ [⟨data.1, vars⟩])

/-- The marker loop over a snapshot of `Jobs`. -/
def drawJobs (dataSnapshot : DataSnapshot C) : Code (List (JobMarker C)) Exn Unit :=
  Code.forEach (children dataSnapshot) (drawCompany P)

end JobLoops

/-- The two static lists of `EmployeeMapActivity`. -/
structure JobLists where
  posArray : List String
  salArray : List String
  deriving DecidableEq, Repr

namespace JobLoops

variable {C : Type} (P : Platform C)

/-- One pass of the inner loop of the list loop. -/
def listChild (data1 : String × Node String (Value C)) : Code JobLists Exn Unit :=
  if data1.1 = "details" then do
    let position ← Code.lift (DataSnapshot.valueToString P (child (some data1.2) "Position"))
    let salary ← Code.lift (DataSnapshot.valueToString P (child (some data1.2) "Salary"))
    Code.modify fun l => { l with posArray := l.posArray ++ [position] }
    Code.modify fun l => { l with salArray := l.salArray ++ [salary] }
  else pure ()

/-- The list loop over a snapshot of `Jobs`. -/
def listJobs (dataSnapshot : DataSnapshot C) : Code JobLists Exn Unit :=
  Code.forEach (children dataSnapshot) fun data =>
    Code.forEach data.2.children (listChild P)

end JobLoops

/-- The marker loop of `EmployeeMapActivity.onMapReady`. -/
def EmployeeMapActivity.onMapReadyJobs {C : Type} (P : Platform C)
    (dataSnapshot : DataSnapshot C) : Code (List (JobMarker C)) Exn Unit :=
  JobLoops.drawJobs P dataSnapshot

/-- The marker loop of `BossMapActivity.onMapReady`. -/
def BossMapActivity.onMapReadyJobs {C : Type} (P : Platform C)
    (dataSnapshot : DataSnapshot C) : Code (List (JobMarker C)) Exn Unit :=
  JobLoops.drawJobs P dataSnapshot

/-- The list loop of `EmployeeMapActivity.onCreate`. -/
def EmployeeMapActivity.onCreateJobs {C : Type} (P : Platform C)
    (dataSnapshot : DataSnapshot C) : Code JobLists Exn Unit :=
  JobLoops.listJobs P dataSnapshot

namespace JobLoops

variable {C : Type} (P : Platform C)

/-! ## Reading one child -/

/-- The job a `details` node holds. -/
def detailsOf (n : Node String (Value C)) : Except Exn (String × String) := do
  let position ← DataSnapshot.valueToString P (child (some n) "Position")
  let salary ← DataSnapshot.valueToString P (child (some n) "Salary")
  return (position, salary)

/-- The coordinates a location node holds. -/
def locationOf (n : Node String (Value C)) : Except Exn (GeoLocation C) := do
  let latitude ← DataSnapshot.doubleValue P (fetch (some n) ["l", "0"])
  let longitude ← DataSnapshot.doubleValue P (fetch (some n) ["l", "1"])
  return ⟨latitude, longitude⟩

/-- How a pass over a child ends. -/
def childOutcome (data1 : String × Node String (Value C)) : Except Exn Unit :=
  if data1.1 = "details" then (detailsOf P data1.2).map fun _ => ()
  else (locationOf P data1.2).map fun _ => ()

theorem readChild_outcome (data1 : String × Node String (Value C)) (v : JobVars C) :
    ((readChild P data1).run v).1 = childOutcome P data1 := by
  unfold readChild childOutcome
  split
  · unfold detailsOf
    cases DataSnapshot.valueToString P (child (some data1.2) "Position") with
    | error e => rfl
    | ok p =>
      cases DataSnapshot.valueToString P (child (some data1.2) "Salary") <;> rfl
  · unfold locationOf
    cases DataSnapshot.doubleValue P (fetch (some data1.2) ["l", "0"]) with
    | error e => rfl
    | ok lat =>
      cases DataSnapshot.doubleValue P (fetch (some data1.2) ["l", "1"]) <;> rfl

/-- A pass over `details` that goes through sets the job. -/
theorem readChild_details {n : Node String (Value C)} {v v' : JobVars C}
    (h : (readChild P ("details", n)).run v = (.ok (), v')) :
    ∃ d, detailsOf P n = .ok d ∧ v' = { v with position := d.1, salary := d.2 } := by
  unfold readChild at h
  unfold detailsOf
  rw [if_pos rfl] at h
  cases hp : DataSnapshot.valueToString P (child (some n) "Position") with
  | error e => rw [hp] at h; cases h
  | ok p =>
    cases hs : DataSnapshot.valueToString P (child (some n) "Salary") with
    | error e => rw [hp, hs] at h; cases h
    | ok s => rw [hp, hs] at h; cases h; exact ⟨(p, s), rfl, rfl⟩

/-- A pass over any other child that goes through sets the coordinates. -/
theorem readChild_location {k : String} (hk : k ≠ "details") {n : Node String (Value C)}
    {v v' : JobVars C} (h : (readChild P (k, n)).run v = (.ok (), v')) :
    ∃ loc, locationOf P n = .ok loc ∧
      v' = { v with latitude := loc.latitude, longitude := loc.longitude } := by
  unfold readChild at h
  unfold locationOf
  rw [if_neg hk] at h
  cases hlat : DataSnapshot.doubleValue P (fetch (some n) ["l", "0"]) with
  | error e => rw [hlat] at h; cases h
  | ok lat =>
    cases hlong : DataSnapshot.doubleValue P (fetch (some n) ["l", "1"]) with
    | error e => rw [hlat, hlong] at h; cases h
    | ok long => rw [hlat, hlong] at h; cases h; exact ⟨⟨lat, long⟩, rfl, rfl⟩

/-! ## Reading a company's node -/

theorem readCompany_eq_ok {data : Node String (Value C)} {vars : JobVars C} :
    readCompany P data = .ok vars ↔
      (Code.forEach data.children (readChild P)).run (startVars P) = (.ok (), vars) := by
  unfold readCompany
  rcases (Code.forEach data.children (readChild P)).run (startVars P) with ⟨_ | _, v⟩ <;> simp

/-- **When a company's node is read through.**  Its `details` children hold a job
and all its other children hold coordinates. -/
theorem readCompany_ok_iff {data : Node String (Value C)} :
    (∃ vars, readCompany P data = .ok vars) ↔
      ∀ x ∈ data.children, childOutcome P x = .ok () := by
  rw [← Code.forEach_ok_iff (readChild_outcome P) (s := startVars P)]
  unfold readCompany
  rcases (Code.forEach data.children (readChild P)).run (startVars P) with ⟨_ | _, v⟩ <;> simp

/-- What a pass does to the coordinates: one over `details` leaves them, any other one puts
those of its child in their place. -/
theorem readChild_coordinates {x : String × Node String (Value C)} {t t' : JobVars C}
    (h : (readChild P x).run t = (.ok (), t')) :
    (x.1 = "details" ∧ t'.location = t.location) ∨
      (x.1 ≠ "details" ∧ locationOf P x.2 = .ok t'.location) := by
  obtain ⟨k, n⟩ := x
  by_cases hk : k = "details"
  · subst hk
    obtain ⟨d, -, rfl⟩ := readChild_details P h
    exact Or.inl ⟨rfl, rfl⟩
  · obtain ⟨location, hlocation, rfl⟩ := readChild_location P hk h
    exact Or.inr ⟨hk, hlocation⟩

/-- The coordinates of a marker are those of some location child, or the initial
ones if there is none. -/
theorem readCompany_location {data : Node String (Value C)} {vars : JobVars C}
    (h : readCompany P data = .ok vars) :
    (∃ x ∈ data.children, x.1 ≠ "details" ∧ locationOf P x.2 = .ok vars.location) ∨
      ((∀ x ∈ data.children, x.1 = "details") ∧ vars.location = ⟨P.zero, P.zero⟩) := by
  rw [readCompany_eq_ok] at h
  -- once the coordinates are those of a location child, every later pass keeps them so
  have hkeeps : ∀ x ∈ data.children, ∀ t t', (readChild P x).run t = (.ok (), t') →
      (∃ y ∈ data.children, y.1 ≠ "details" ∧ locationOf P y.2 = .ok t.location) →
      ∃ y ∈ data.children, y.1 ≠ "details" ∧ locationOf P y.2 = .ok t'.location := by
    intro x hx t t' ht hI
    rcases readChild_coordinates P ht with ⟨-, hsame⟩ | ⟨hk, hlocation⟩
    · rwa [hsame]
    · exact ⟨x, hx, hk, hlocation⟩
  by_cases hall : ∀ x ∈ data.children, x.1 = "details"
  · refine Or.inr ⟨hall, ?_⟩
    refine Code.forEach_inv_of_ok (I := fun v : JobVars C => v.location = ⟨P.zero, P.zero⟩)
      h ?_ rfl
    intro x hx t t' ht hzero
    rcases readChild_coordinates P ht with ⟨-, hsame⟩ | ⟨hk, -⟩
    · rwa [hsame]
    · exact absurd (hall x hx) hk
  · refine Or.inl ?_
    push Not at hall
    obtain ⟨x, hx, hk⟩ := hall
    obtain ⟨pre, post, hsplit⟩ := List.append_of_mem hx
    rw [hsplit] at h
    obtain ⟨t, -, h⟩ := Code.forEach_append_ok.1 h
    obtain ⟨t', hchild, h⟩ := Code.forEach_cons_ok.1 h
    rcases readChild_coordinates P hchild with ⟨hdetails, -⟩ | ⟨-, hlocation⟩
    · exact absurd hdetails hk
    · refine Code.forEach_inv_of_ok (I := fun v : JobVars C =>
        ∃ y ∈ data.children, y.1 ≠ "details" ∧ locationOf P y.2 = .ok v.location) h ?_
        ⟨x, hx, hk, hlocation⟩
      intro y hy
      refine hkeeps y ?_
      rw [hsplit]
      exact List.mem_append_right _ (List.mem_cons_of_mem _ hy)

/-- A location child listed last gives the coordinates. -/
theorem readCompany_last {cs : List (String × Node String (Value C))} {k : String}
    (hk : k ≠ "details") {n : Node String (Value C)} {vars : JobVars C}
    (h : readCompany P (.inner (cs ++ [(k, n)])) = .ok vars) :
    locationOf P n = .ok vars.location := by
  rw [readCompany_eq_ok] at h
  obtain ⟨t, -, h⟩ := Code.forEach_append_ok.1 h
  obtain ⟨t', hchild, h⟩ := Code.forEach_cons_ok.1 h
  obtain ⟨loc, hloc, rfl⟩ := readChild_location P hk hchild
  cases h
  exact hloc

/-- The title is that of the last `details` child. -/
theorem readCompany_title_of_split {data : Node String (Value C)} {vars : JobVars C}
    {pre post : List (String × Node String (Value C))} {n : Node String (Value C)}
    (hsplit : data.children = pre ++ ("details", n) :: post)
    (hpost : ∀ x ∈ post, x.1 ≠ "details") (h : readCompany P data = .ok vars) :
    detailsOf P n = .ok (vars.position, vars.salary) := by
  rw [readCompany_eq_ok, hsplit] at h
  obtain ⟨t, -, h⟩ := Code.forEach_append_ok.1 h
  obtain ⟨t', hchild, h⟩ := Code.forEach_cons_ok.1 h
  obtain ⟨d, hd, rfl⟩ := readChild_details P hchild
  -- the passes after `details` leave the job alone
  have hkeep : (vars.position, vars.salary) = d := by
    refine Code.forEach_inv_of_ok (I := fun v : JobVars C => (v.position, v.salary) = d) h ?_ rfl
    rintro ⟨k', n'⟩ hx' u u' hu hI
    obtain ⟨loc, -, rfl⟩ := readChild_location P (hpost _ hx') hu
    exact hI
  rw [hkeep]
  exact hd

/-- The title is that of the `details` child. -/
theorem readCompany_title {data : Node String (Value C)} {vars : JobVars C}
    (hnd : (keys data.children).Nodup) {n : Node String (Value C)}
    (hn : ("details", n) ∈ data.children) (h : readCompany P data = .ok vars) :
    detailsOf P n = .ok (vars.position, vars.salary) := by
  obtain ⟨pre, post, hsplit⟩ := List.append_of_mem hn
  rw [hsplit] at hnd
  have hpost : ∀ x ∈ post, x.1 ≠ "details" := fun x hx heq =>
    (not_mem_keys_of_split hnd).2 (heq ▸ List.mem_map_of_mem hx)
  exact readCompany_title_of_split P hsplit hpost h

/-- Without a `details` child the title stays empty. -/
theorem readCompany_untitled {data : Node String (Value C)} {vars : JobVars C}
    (hnone : ∀ x ∈ data.children, x.1 ≠ "details") (h : readCompany P data = .ok vars) :
    vars.position = "" ∧ vars.salary = "" := by
  rw [readCompany_eq_ok] at h
  refine Code.forEach_inv_of_ok (I := fun v : JobVars C => v.position = "" ∧ v.salary = "") h ?_
    ⟨rfl, rfl⟩
  rintro ⟨k, n⟩ hx t t' ht hI
  obtain ⟨location, -, rfl⟩ := readChild_location P (hnone _ hx) ht
  exact hI

/-! ## Which markers are drawn -/

theorem drawCompany_outcome (data : String × Node String (Value C)) (ms : List (JobMarker C)) :
    ((drawCompany P data).run ms).1 = (readCompany P data.2).map fun _ => () := by
  unfold drawCompany
  cases readCompany P data.2 <;> rfl

/-- **When a marker loop finishes.**  It reads every company's node through. -/
theorem drawJobs_ok_iff {s : DataSnapshot C} {ms : List (JobMarker C)} :
    ((drawJobs P s).run ms).1 = .ok () ↔
      ∀ x ∈ children s, ∃ vars, readCompany P x.2 = .ok vars := by
  unfold drawJobs
  rw [Code.forEach_ok_iff (drawCompany_outcome P)]
  refine forall₂_congr ?_
  intro x _
  cases readCompany P x.2 <;> simp [Except.map]

theorem drawCompany_snd (data : String × Node String (Value C)) (ms : List (JobMarker C)) :
    ((drawCompany P data).run ms).2 = ms ∨ ∃ vars, readCompany P data.2 = .ok vars ∧
      ((drawCompany P data).run ms).2 = ms ++ [⟨data.1, vars⟩] := by
  unfold drawCompany
  cases h : readCompany P data.2 with
  | error e => exact Or.inl rfl
  | ok vars => exact Or.inr ⟨vars, rfl, rfl⟩

/-- Every marker drawn, also by a loop that is cut short, is that of a company node
read through. -/
theorem mem_drawn {s : DataSnapshot C} {m : JobMarker C}
    (hm : m ∈ ((drawJobs P s).run []).2) :
    ∃ n, (m.company, n) ∈ children s ∧ readCompany P n = .ok m.vars := by
  refine Code.forEach_inv (I := fun ms : List (JobMarker C) => ∀ m ∈ ms,
    ∃ n, (m.company, n) ∈ children s ∧ readCompany P n = .ok m.vars) ?_ (by simp) m hm
  rintro ⟨k, n⟩ hx ms hI m hm
  rcases drawCompany_snd P (k, n) ms with heq | ⟨vars, hvars, heq⟩
  · rw [heq] at hm
    exact hI m hm
  · rw [heq] at hm
    rcases List.mem_append.1 hm with hm | hm
    · exact hI m hm
    · obtain rfl := List.mem_singleton.1 hm
      exact ⟨n, hx, hvars⟩

/-- Once a marker is drawn it stays. -/
theorem drawCompany_keeps {data : String × Node String (Value C)} {ms : List (JobMarker C)}
    {m : JobMarker C} (hm : m ∈ ms) : m ∈ ((drawCompany P data).run ms).2 := by
  rcases drawCompany_snd P data ms with heq | ⟨vars, -, heq⟩
  · rwa [heq]
  · rw [heq]
    exact List.mem_append_left _ hm

/-- A loop draws the marker of the first company it reads, whatever follows. -/
theorem mem_drawn_of_first {k : String} {n : Node String (Value C)}
    {rest : List (String × Node String (Value C))} {vars : JobVars C}
    (h : readCompany P n = .ok vars) (ms : List (JobMarker C)) :
    (⟨k, vars⟩ : JobMarker C) ∈
      ((Code.forEach ((k, n) :: rest) (drawCompany P)).run ms).2 := by
  have hfirst : (drawCompany P (k, n)).run ms = (.ok (), ms ++ [⟨k, vars⟩]) := by
    unfold drawCompany
    rw [h]
    rfl
  rw [Code.forEach_cons, Code.run_bind_ok hfirst]
  refine Code.forEach_inv (I := fun ms : List (JobMarker C) => ⟨k, vars⟩ ∈ ms)
    (fun a _ ms hms => drawCompany_keeps P hms)
    (List.mem_append_right _ (List.mem_singleton_self _))

/-- A loop that cannot read the first company draws nothing. -/
theorem drawn_of_first_throws {k : String} {n : Node String (Value C)}
    {rest : List (String × Node String (Value C))} {e : Exn}
    (h : readCompany P n = .error e) (ms : List (JobMarker C)) :
    ((Code.forEach ((k, n) :: rest) (drawCompany P)).run ms).2 = ms := by
  have hfirst : (drawCompany P (k, n)).run ms = (.error e, ms) := by
    unfold drawCompany
    rw [h]
    rfl
  rw [Code.forEach_cons, Code.run_bind_error hfirst]

/-- A loop that finishes draws the marker of every company. -/
theorem mem_drawn_of_ok {s : DataSnapshot C} (hok : ((drawJobs P s).run []).1 = .ok ())
    {k : String} {n : Node String (Value C)} (hn : (k, n) ∈ children s) {vars : JobVars C}
    (h : readCompany P n = .ok vars) :
    (⟨k, vars⟩ : JobMarker C) ∈ ((drawJobs P s).run []).2 := by
  obtain ⟨pre, post, hsplit⟩ := List.append_of_mem hn
  unfold drawJobs at hok ⊢
  rw [hsplit] at hok ⊢
  rcases hrun : (Code.forEach (pre ++ (k, n) :: post) (drawCompany P)).run [] with ⟨r, ms⟩
  rw [hrun] at hok
  obtain rfl : r = .ok () := hok
  obtain ⟨t, -, hpost⟩ := Code.forEach_append_ok.1 hrun
  have hdrawn : (⟨k, vars⟩ : JobMarker C) ∈
      ((Code.forEach ((k, n) :: post) (drawCompany P)).run t).2 := mem_drawn_of_first P h t
  rwa [hpost] at hdrawn

/-- A loop over nodes that are read through draws what is read, in their order. -/
theorem drawCompanies_run {companies : List (String × Node String (Value C))}
    {new : List (JobMarker C)}
    (h : List.Forall₂ (fun x m => m.company = x.1 ∧ readCompany P x.2 = .ok m.vars) companies new)
    (ms : List (JobMarker C)) :
    (Code.forEach companies (drawCompany P)).run ms = (.ok (), ms ++ new) := by
  induction h generalizing ms with
  | nil => simp
  | @cons x m companies new hread _ ih =>
    have hfirst : (drawCompany P x).run ms = (.ok (), ms ++ [m]) := by
      unfold drawCompany
      rw [hread.2, ← hread.1]
      rfl
    rw [Code.forEach_cons, Code.run_bind_ok hfirst, ih, List.append_assoc]
    rfl

/-- **What a loop that finishes draws.**  One marker for each company, in their order, from
what is read of its node. -/
theorem drawJobs_run {s : DataSnapshot C}
    (h : ∀ x ∈ children s, ∃ vars, readCompany P x.2 = .ok vars) (ms : List (JobMarker C)) :
    ∃ new, (drawJobs P s).run ms = (.ok (), ms ++ new) ∧
      new.map JobMarker.company = keys (children s) ∧
      ∀ m ∈ new, ∃ n, (m.company, n) ∈ children s ∧ readCompany P n = .ok m.vars := by
  suffices hreads : ∃ new : List (JobMarker C), List.Forall₂
      (fun x m => m.company = x.1 ∧ readCompany P x.2 = .ok m.vars) (children s) new ∧
      new.map JobMarker.company = keys (children s) ∧
      ∀ m ∈ new, ∃ n, (m.company, n) ∈ children s ∧ readCompany P n = .ok m.vars by
    obtain ⟨new, hnew, hkeys, hmem⟩ := hreads
    exact ⟨new, drawCompanies_run P hnew ms, hkeys, hmem⟩
  generalize children s = companies at h
  induction companies with
  | nil => exact ⟨[], .nil, rfl, nofun⟩
  | cons x companies ih =>
    rw [List.forall_mem_cons] at h
    obtain ⟨vars, hvars⟩ := h.1
    obtain ⟨new, hnew, hkeys, hmem⟩ := ih h.2
    refine ⟨⟨x.1, vars⟩ :: new, .cons ⟨rfl, hvars⟩ hnew, by simp [keys, hkeys], ?_⟩
    rw [List.forall_mem_cons]
    refine ⟨⟨x.2, List.mem_cons_self, hvars⟩, ?_⟩
    intro m hm
    obtain ⟨n, hn, hread⟩ := hmem m hm
    exact ⟨n, List.mem_cons_of_mem _ hn, hread⟩

/-! ## What the list loop appends -/

/-- What a child adds to the list of jobs. -/
def childJobs (data1 : String × Node String (Value C)) : List (String × String) :=
  if data1.1 = "details" then (detailsOf P data1.2).toOption.toList else []

/-- The jobs a company's node lists. -/
def companyJobs (data : String × Node String (Value C)) : List (String × String) :=
  data.2.children.flatMap (childJobs P)

/-- The jobs a snapshot lists: those of the `details` children, in order. -/
def snapshotJobs (s : DataSnapshot C) : List (String × String) :=
  (children s).flatMap (companyJobs P)

/-- Every `details` child of a company node holds a job. -/
def ListReadable (s : DataSnapshot C) : Prop :=
  ∀ x ∈ children s, ∀ y ∈ x.2.children, y.1 = "details" → ∃ d, detailsOf P y.2 = .ok d

end JobLoops

/-- The lists with a run of jobs appended. -/
def JobLists.append (l : JobLists) (jobs : List (String × String)) : JobLists :=
  ⟨l.posArray ++ jobs.map Prod.fst, l.salArray ++ jobs.map Prod.snd⟩

@[simp] theorem JobLists.append_nil (l : JobLists) : l.append [] = l := by
  simp [JobLists.append]

theorem JobLists.append_append (l : JobLists) (jobs jobs' : List (String × String)) :
    l.append (jobs ++ jobs') = (l.append jobs).append jobs' := by
  simp [JobLists.append]

theorem JobLists.foldl_append {α : Type} (f : α → List (String × String)) (as : List α)
    (l : JobLists) : as.foldl (fun l a => l.append (f a)) l = l.append (as.flatMap f) := by
  induction as generalizing l with
  | nil => simp
  | cons a as ih => rw [List.foldl_cons, ih, List.flatMap_cons, JobLists.append_append]

namespace JobLoops

variable {C : Type} (P : Platform C)

/-- A pass over `details` appends its job, or throws with nothing appended. -/
theorem listChild_details {data1 : String × Node String (Value C)} (hk : data1.1 = "details")
    (l : JobLists) : (listChild P data1).run l = match detailsOf P data1.2 with
      | .ok d => (.ok (), l.append [d])
      | .error e => (.error e, l) := by
  unfold listChild detailsOf
  rw [if_pos hk]
  cases DataSnapshot.valueToString P (child (some data1.2) "Position") with
  | error e => rfl
  | ok p =>
    cases DataSnapshot.valueToString P (child (some data1.2) "Salary") <;> rfl

/-- What the pass of the list loop over a child reads. -/
def childRead (data1 : String × Node String (Value C)) : Except Exn (List (String × String)) :=
  if data1.1 = "details" then (detailsOf P data1.2).map fun d => [d] else .ok []

/-- The jobs that the list loop reads of a snapshot: those of the `details` children, in
order, up to the first that holds none. -/
def jobsRead (s : DataSnapshot C) : List (String × String) :=
  (Code.results (((children s).flatMap fun data => data.2.children).map (childRead P))).flatten

theorem listChild_read (data1 : String × Node String (Value C)) :
    listChild P data1 = (do
      let jobs ← Code.lift (childRead P data1)
      Code.modify fun l => l.append jobs) := by
  funext l
  unfold childRead
  by_cases hk : data1.1 = "details"
  · rw [if_pos hk]
    refine (listChild_details P hk l).trans ?_
    cases detailsOf P data1.2 <;> rfl
  · rw [if_neg hk, listChild, if_neg hk]
    show (Except.ok (), l) = (Except.ok (), l.append [])
    rw [JobLists.append_nil]

/-- **What the list loop does.**  It ends as going through its reads does, and leaves the
lists with the jobs read so far appended. -/
theorem listJobs_eq (s : DataSnapshot C) (l : JobLists) : (listJobs P s).run l =
    (Code.outcome (((children s).flatMap fun data => data.2.children).map (childRead P)),
      l.append (jobsRead P s)) := by
  have hfold : ∀ (jobs : List (List (String × String))) (l : JobLists),
      jobs.foldl JobLists.append l = l.append jobs.flatten := by
    intro jobs l
    exact (JobLists.foldl_append id jobs l).trans (by rw [List.flatMap_id])
  unfold listJobs jobsRead
  rw [Code.forEach_flatMap, Code.forEach_collect _ JobLists.append (listChild_read P), hfold]

/-- Also when it is cut short, it leaves what it has read. -/
theorem listJobs_snd (s : DataSnapshot C) (l : JobLists) :
    ((listJobs P s).run l).2 = l.append (jobsRead P s) := by
  rw [listJobs_eq]

/-- Each job read is that of a `details` child of the snapshot. -/
theorem mem_jobsRead {s : DataSnapshot C} {job : String × String} (h : job ∈ jobsRead P s) :
    ∃ data ∈ children s, ∃ data1 ∈ data.2.children,
      data1.1 = "details" ∧ detailsOf P data1.2 = .ok job := by
  obtain ⟨jobs, hjobs, hmem⟩ := List.mem_flatten.1 h
  obtain ⟨data1, hdata1, hread⟩ := List.mem_map.1 (Code.mem_of_mem_results hjobs)
  obtain ⟨data, hdata, hchild⟩ := List.mem_flatMap.1 hdata1
  refine ⟨data, hdata, data1, hchild, ?_⟩
  unfold childRead at hread
  split at hread
  · next hk =>
    cases hd : detailsOf P data1.2 with
    | error e =>
      rw [hd] at hread
      cases hread
    | ok d =>
      rw [hd] at hread
      cases hread
      obtain rfl := List.mem_singleton.1 hmem
      exact ⟨hk, rfl⟩
  · cases hread
    cases hmem

/-- The first `details` node that the list loop comes to. -/
def firstDetails (s : DataSnapshot C) : Option (String × Node String (Value C)) :=
  ((children s).flatMap fun data => data.2.children).find? fun data1 => data1.1 = "details"

/-- Nothing is read exactly if there is no `details` node, or the first one holds no job. -/
theorem jobsRead_eq_nil_iff {s : DataSnapshot C} : jobsRead P s = [] ↔
    ∀ data1, firstDetails s = some data1 → ¬ ∃ job, detailsOf P data1.2 = .ok job := by
  unfold jobsRead firstDetails
  induction (children s).flatMap fun data => data.2.children with
  | nil => simp [Code.results]
  | cons data1 rest ih =>
    rw [List.map_cons]
    by_cases hk : data1.1 = "details"
    · rw [List.find?_cons_of_pos (by simpa using hk), childRead, if_pos hk]
      cases hd : detailsOf P data1.2 with
      | error e => simp [Code.results, Except.map, hd]
      | ok job =>
        refine iff_of_false ?_ fun h => h data1 rfl ⟨job, hd⟩
        simp [Code.results, Except.map]
    · rw [List.find?_cons_of_neg (by simpa using hk), childRead, if_neg hk, ← ih]
      simp [Code.results]

/-- A child is read if it holds a job or is none of the `details`. -/
theorem childRead_of_readable {data1 : String × Node String (Value C)}
    (h : data1.1 = "details" → ∃ d, detailsOf P data1.2 = .ok d) :
    childRead P data1 = .ok (childJobs P data1) := by
  unfold childRead childJobs
  by_cases hk : data1.1 = "details"
  · obtain ⟨d, hd⟩ := h hk
    rw [if_pos hk, if_pos hk, hd]
    rfl
  · rw [if_neg hk, if_neg hk]

/-- On a snapshot whose `details` children hold jobs every child is read. -/
theorem ListReadable.childRead {s : DataSnapshot C} (h : ListReadable P s) :
    ∀ data1 ∈ (children s).flatMap fun data => data.2.children,
      JobLoops.childRead P data1 = .ok (childJobs P data1) := by
  intro data1 hdata1
  obtain ⟨data, hdata, hchild⟩ := List.mem_flatMap.1 hdata1
  exact childRead_of_readable P (h data hdata data1 hchild)

/-- The list loop finishes exactly on such snapshots. -/
theorem listJobs_ok_iff {s : DataSnapshot C} {l : JobLists} :
    ((listJobs P s).run l).1 = .ok () ↔ ListReadable P s := by
  rw [listJobs_eq, Code.outcome_map_eq_ok]
  constructor
  · intro h data hdata data1 hchild hk
    obtain ⟨jobs, hread⟩ := h data1 (List.mem_flatMap.2 ⟨data, hdata, hchild⟩)
    rw [childRead, if_pos hk] at hread
    cases hd : detailsOf P data1.2 with
    | error e =>
      rw [hd] at hread
      cases hread
    | ok d => exact ⟨d, rfl⟩
  · intro h data1 hdata1
    exact ⟨_, h.childRead P data1 hdata1⟩

/-- **What the list loop appends.**  On such a snapshot it goes through and appends exactly
the jobs of the `details` children. -/
theorem listJobs_run {s : DataSnapshot C} (h : ListReadable P s) (l : JobLists) :
    (listJobs P s).run l = (.ok (), l.append (snapshotJobs P s)) := by
  have hjobs : jobsRead P s = snapshotJobs P s := by
    unfold jobsRead snapshotJobs companyJobs
    rw [Code.results_map_ok (h.childRead P), ← List.flatMap_def, List.flatMap_assoc]
  refine Prod.ext ((listJobs_ok_iff P).2 h) ?_
  rw [listJobs_snd, hjobs]

end JobLoops

end Partimer
