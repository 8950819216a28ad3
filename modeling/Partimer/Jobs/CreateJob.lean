import Partimer.Firebase
import Partimer.Lib.Code

/-!
# Posting a job

`CreateJobCompany`: the form of a company, its check, and `addJobLocation`, which
issues two writes, the location of the job under its position and then the
details of the job under the fixed key `details`.

* `checkFormFields`, `addJobLocation` — the source, statement by statement; the
  writes issued before an exception stay issued.
* `CanPost`, `addJobLocation_run` — the method issues both writes and ends, or the form is
  refused, or there is something it cannot read and it has issued none.
* `addJobLocation_completes_iff` — when the method runs to its end, and what it
  has written then.
* `CompletedCall` — a call that did, and `runCalls`, the database after a run of
  them.
-/

namespace Partimer

open KeyTree

/-- The four text fields of `CreateJobCompany`. -/
structure JobForm where
  etPos : String
  etSal : String
  etLati : String
  etLong : String
  deriving DecidableEq, Repr

namespace CreateJobCompany

/-- The field an error message is attached to. -/
inductive Field where
  | etPos
  | etSal
  | etLati
  | etLong
  deriving DecidableEq, Repr

/-- How `addJobLocation` can end early: the form check marks a field and the
method returns, or an exception leaves it. -/
inductive Stop where
  | refused (field : Field) (error : String)
  | thrown (e : Exn)
  deriving DecidableEq, Repr

/-- The check of the form: the first empty field is marked with an error. -/
def checkFormFields (form : JobForm) : Except (Field × String) Unit :=
  if form.etPos.isEmpty then .error (.etPos, "Position Required")
  else if form.etSal.isEmpty then .error (.etSal, "Salary Required")
  else if form.etLati.isEmpty then .error (.etLati, "Latitude Required")
  else if form.etLong.isEmpty then .error (.etLong, "Longitude Required")
  else .ok ()

variable {C : Type} (P : Platform C)

/-- Code that issues writes and may stop early; the state is what was issued. -/
abbrev Posting (C α : Type) := Code (List (Write C)) Stop α

/-- `setValue` on the reference at `path`. -/
def setValue (path : List String) (value : Node String (Value C)) : Posting C Unit :=
  Code.modify (· ++ [⟨path, value⟩])

/-- `GeoFire.setLocation(key, location)` on the reference at `path`; the key is a
child path and is checked before anything is written. -/
def setLocation (path : List String) (key : String) (location : GeoLocation C) :
    Posting C Unit :=
  if validPath key then setValue (path ++ childPath key) (locationNode P location)
  else Code.throw (.thrown .database)

/-- `Double.valueOf(text)`. -/
def valueOf (text : String) : Posting C C :=
  match P.valueOf text with
  | some c => pure c
  | none => Code.throw (.thrown .numberFormat)

/-- `new GeoLocation(latitude, longitude)`. -/
def newGeoLocation (latitude longitude : C) : Posting C (GeoLocation C) :=
  if P.coordinatesValid latitude longitude then pure ⟨latitude, longitude⟩
  else Code.throw (.thrown .illegalArgument)

/-- `if (!checkFormFields()) return;` -/
def checked (form : JobForm) : Posting C Unit :=
  match checkFormFields form with
  | .ok () => pure ()
  | .error (field, error) => Code.throw (.refused field error)

/-- The map `newPost`. -/
def newPost (position salary : String) : Node String (Value C) :=
  mapNode [("Position", position), ("Salary", salary)]

/-- `addJobLocation`: on success the screen it opens. -/
def addJobLocation (currentUser : Option Uid) (form : JobForm) : Posting C Screen := do
  checked form
  let latitude ← valueOf P form.etLati
  let longitude ← valueOf P form.etLong
  let userId ← Code.lift ((getUid currentUser).mapError .thrown)
  let currentUserDB := ["Jobs"] ++ childPath userId.text
  let location ← newGeoLocation P latitude longitude
  setLocation P currentUserDB form.etPos location
  setValue (currentUserDB ++ ["details"]) (newPost form.etPos form.etSal)
  return .welcomeCompany

/-- The first write of a call: the location under the position. -/
def locationWrite (company : Uid) (position : String) (location : GeoLocation C) : Write C :=
  ⟨["Jobs", company.text] ++ childPath position, locationNode P location⟩

/-- The second write of a call: the details under their fixed key. -/
def detailsWrite (company : Uid) (position salary : String) : Write C :=
  ⟨["Jobs", company.text] ++ ["details"], newPost position salary⟩

/-- The coordinates of a form: both texts are numbers, and in range. -/
structure ReadsLocation (form : JobForm) (location : GeoLocation C) : Prop where
  latitude : P.valueOf form.etLati = some location.latitude
  longitude : P.valueOf form.etLong = some location.longitude
  valid : P.coordinatesValid location.latitude location.longitude = true

/-- What the method needs after the check of the form. -/
def CanPost (currentUser : Option Uid) (form : JobForm) : Prop :=
  currentUser.isSome ∧ validPath form.etPos = true ∧ ∃ location, ReadsLocation P form location

/-- A call that can read everything it needs issues both writes. -/
theorem addJobLocation_run_of_reads {company : Uid} {form : JobForm} {location : GeoLocation C}
    (hfilled : checkFormFields form = .ok ()) (hpath : validPath form.etPos = true)
    (hreads : ReadsLocation P form location) (ws : List (Write C)) :
    (addJobLocation P (some company) form).run ws = (.ok .welcomeCompany,
      ws ++ [locationWrite P company form.etPos location,
        detailsWrite company form.etPos form.etSal]) := by
  unfold addJobLocation
  simp only [checked, hfilled, valueOf, hreads.latitude, hreads.longitude, getUid,
    Except.mapError, Code.lift_ok, company.plain, newGeoLocation, hreads.valid, setLocation, hpath,
    if_true, Code.pure_bind]
  show (Except.ok Screen.welcomeCompany, ws ++ [locationWrite P company form.etPos _] ++
    [detailsWrite company form.etPos form.etSal]) = _
  rw [List.append_assoc]
  rfl

/-- A call that cannot is left by an exception before it has issued anything. -/
theorem addJobLocation_run_of_not_canPost {currentUser : Option Uid} {form : JobForm}
    (hfilled : checkFormFields form = .ok ()) (hnot : ¬ CanPost P currentUser form)
    (ws : List (Write C)) :
    ∃ e, (addJobLocation P currentUser form).run ws = (.error (.thrown e), ws) := by
  unfold addJobLocation
  simp only [checked, hfilled, Code.pure_bind]
  -- the statements in their order, each of which may be the one that throws
  cases hlat : P.valueOf form.etLati with
  | none => exact ⟨.numberFormat, by simp [valueOf, hlat]⟩
  | some latitude =>
    cases hlong : P.valueOf form.etLong with
    | none => exact ⟨.numberFormat, by simp [valueOf, hlat, hlong]⟩
    | some longitude =>
      simp only [valueOf, hlat, hlong, Code.pure_bind]
      cases currentUser with
      | none => exact ⟨.nullPointer, rfl⟩
      | some company =>
        simp only [getUid, Except.mapError, Code.lift_ok, Code.pure_bind, company.plain,
          newGeoLocation]
        cases hvalid : P.coordinatesValid latitude longitude with
        | false => exact ⟨.illegalArgument, rfl⟩
        | true =>
          cases hpath : validPath form.etPos with
          | false => exact ⟨.database, by simp [setLocation, hpath]⟩
          | true => exact absurd ⟨rfl, hpath, ⟨latitude, longitude⟩, ⟨hlat, hlong, hvalid⟩⟩ hnot

/-- **What a call does.**  It completes with both writes issued, one after the other and
for the same account and position, or the check of the form refuses it, or an exception
leaves it; in both of these cases nothing has been issued. -/
theorem addJobLocation_run (currentUser : Option Uid) (form : JobForm) (ws : List (Write C)) :
    (∃ company location, currentUser = some company ∧ checkFormFields form = .ok () ∧
      validPath form.etPos = true ∧ ReadsLocation P form location ∧
      (addJobLocation P currentUser form).run ws = (.ok .welcomeCompany,
        ws ++ [locationWrite P company form.etPos location,
          detailsWrite company form.etPos form.etSal])) ∨
    (∃ field error, checkFormFields form = .error (field, error) ∧
      (addJobLocation P currentUser form).run ws = (.error (.refused field error), ws)) ∨
    ∃ e, checkFormFields form = .ok () ∧ ¬ CanPost P currentUser form ∧
      (addJobLocation P currentUser form).run ws = (.error (.thrown e), ws) := by
  cases hc : checkFormFields form with
  | error e =>
    refine Or.inr (Or.inl ⟨e.1, e.2, rfl, ?_⟩)
    unfold addJobLocation
    simp [checked, hc]
  | ok _ =>
    by_cases hcan : CanPost P currentUser form
    · obtain ⟨huser, hpath, location, hreads⟩ := hcan
      obtain ⟨company, rfl⟩ := Option.isSome_iff_exists.1 huser
      exact Or.inl ⟨company, location, rfl, rfl, hpath, hreads,
        addJobLocation_run_of_reads P hc hpath hreads ws⟩
    · obtain ⟨e, hrun⟩ := addJobLocation_run_of_not_canPost P hc hcan ws
      exact Or.inr (Or.inr ⟨e, rfl, hcan, hrun⟩)

/-- A call that completes opens `WelcomeCompany`. -/
theorem addJobLocation_screen {currentUser : Option Uid} {form : JobForm} {ws : List (Write C)}
    {screen : Screen} (h : ((addJobLocation P currentUser form).run ws).1 = .ok screen) :
    screen = .welcomeCompany := by
  rcases addJobLocation_run P currentUser form ws with
    ⟨_, _, -, -, -, -, hrun⟩ | ⟨_, _, -, hrun⟩ | ⟨_, -, -, hrun⟩
  · rw [hrun] at h
    cases h
    rfl
  · rw [hrun] at h
    cases h
  · rw [hrun] at h
    cases h

/-- **When a call completes.**  No field is empty, both coordinates are numbers in
range, the position is a path the database accepts; the call has then issued the
location write and after it the details write. -/
theorem addJobLocation_completes_iff {company : Uid} {form : JobForm} {ws : List (Write C)} :
    (addJobLocation P (some company) form).run [] = (.ok .welcomeCompany, ws) ↔
      checkFormFields form = .ok () ∧ validPath form.etPos = true ∧
        ∃ location : GeoLocation C, P.valueOf form.etLati = some location.latitude ∧
          P.valueOf form.etLong = some location.longitude ∧
          P.coordinatesValid location.latitude location.longitude = true ∧
          ws = [locationWrite P company form.etPos location,
            detailsWrite company form.etPos form.etSal] := by
  rcases addJobLocation_run P (some company) form [] with
    ⟨_, location, ⟨⟩, hc, hpath, hreads, hrun⟩ | ⟨field, error, hc, hrun⟩ | ⟨e, hc, hnot, hrun⟩
  · rw [hrun]
    constructor
    · rintro ⟨⟩
      exact ⟨hc, hpath, location, hreads.latitude, hreads.longitude, hreads.valid, rfl⟩
    · rintro ⟨-, -, ⟨_, _⟩, hlat, hlong, -, rfl⟩
      cases hreads.latitude.symm.trans hlat
      cases hreads.longitude.symm.trans hlong
      rfl
  · rw [hrun]
    constructor
    · rintro ⟨⟩
    · rintro ⟨hok, -⟩
      cases hc.symm.trans hok
  · rw [hrun]
    constructor
    · rintro ⟨⟩
    · rintro ⟨-, hpath, location, hlat, hlong, hvalid, -⟩
      exact absurd ⟨rfl, hpath, location, hlat, hlong, hvalid⟩ hnot

/-! ## Runs of completed calls -/

/-- A call of `addJobLocation` that ran to its end. -/
structure CompletedCall (P : Platform C) where
  /-- The company signed in. -/
  company : Uid
  /-- What the form held. -/
  form : JobForm
  /-- The coordinates it was read to. -/
  location : GeoLocation C
  completes : (addJobLocation P (some company) form).run [] = (.ok .welcomeCompany,
    [locationWrite P company form.etPos location, detailsWrite company form.etPos form.etSal])

variable {P}

namespace CompletedCall

/-- The position posted. -/
def position (call : CompletedCall P) : String := call.form.etPos

/-- The salary posted. -/
def salary (call : CompletedCall P) : String := call.form.etSal

/-- The location write the call has issued. -/
def locationPart (call : CompletedCall P) : Write C :=
  locationWrite P call.company call.position call.location

/-- The details write the call has issued. -/
def detailsPart (call : CompletedCall P) : Write C :=
  detailsWrite call.company call.position call.salary

/-- What the call leaves of a database. -/
def apply (call : CompletedCall P) (db : Database C) : Database C :=
  call.detailsPart.apply (call.locationPart.apply db)

/-- The check of the form lets no empty position through. -/
theorem position_ne_empty (call : CompletedCall P) : call.position ≠ "" := by
  obtain ⟨hc, -⟩ := (addJobLocation_completes_iff P).1 call.completes
  intro h
  have hempty : call.form.etPos = "" := h
  rw [checkFormFields, hempty] at hc
  cases hc

end CompletedCall

/-- The database after a run of completed calls, from an empty one. -/
def runCalls (run : List (CompletedCall P)) : Database C :=
  run.foldl (fun db call => call.apply db) none

theorem runCalls_concat (run : List (CompletedCall P)) (call : CompletedCall P) :
    runCalls (run ++ [call]) = call.apply (runCalls run) := by
  simp [runCalls]

end CreateJobCompany

end Partimer
