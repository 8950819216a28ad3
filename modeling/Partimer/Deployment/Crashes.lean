import Partimer.Deployment.JobRows
import Partimer.Deployment.Profiles

/-!
# How a process ends

An exception that nobody catches ends the process, and with it the writes that wait and all that
its screens hold.  The source throws in many places; this file says which of them are reached by
what a `deployment` has on its devices: registrations and their completion listeners, the posting
of jobs, `EmployeeMapActivity.onCreate` with its two listeners, and `Welcome.onCreate`.  The
marker loops of `onMapReady`, `WelcomeCompany.onCreate`, `setmyLocation` and the lookup of a
log-in are no events of it; they throw too, and other files say when.

* `Crash` — five ways to end.
* `Filled.onCreate_isOk`, `requests_of_trace` — what `Welcome` and the completion listeners find.
* `crashes_of_trace` — **an event of a deployment ends a process in these ways only**, as long as
  no position posted starts with `details`.
-/

namespace Partimer

open KeyTree CreateJobCompany JobLoops Registration Transition

variable {C : Type} {P : Platform C} {s : Deployment C}
  {tr : List (Deployment C × Nat × DeviceEvent C)}

/-- **How an event of a deployment ends the process of its device.** -/
inductive Crash (P : Platform C) (s : Deployment C) (c : Nat) : DeviceEvent C → Prop
  /-- The system ends it. -/
  | kill : Crash P s c (.account .kill)
  /-- The account of a registration was created, and nobody is signed in when its listener
  is called. -/
  | onComplete {j : Nat} {sub : Submission} {account : Uid}
      (hsub : (s.reg.clients c).submissions[j]? = some sub)
      (hout : sub.outcome = some (.created account))
      (huser : (s.reg.clients c).currentUser = none) : Crash P s c (.account (.onComplete j))
  /-- A complete form that cannot be posted: nobody is signed in, the position is no path, or
  the coordinates are no numbers or out of range. -/
  | createJob {form : JobForm} (hfilled : checkFormFields form = .ok ())
      (hcannot : ¬ CanPost P (s.reg.clients c).currentUser form) : Crash P s c (.createJob form)
  /-- `EmployeeMapActivity` is opened with nobody signed in. -/
  | openMap (huser : (s.reg.clients c).currentUser = none) : Crash P s c (.screen .openMap)
  /-- `Welcome` is opened with nobody signed in, or before the first profile has come. -/
  | openWelcome (h : (s.reg.clients c).currentUser = none ∨
      (s.processes c).profilesDelivered = []) : Crash P s c (.screen .openWelcome)

/-! ## Each of the places -/

/-- `Welcome` is created exactly if a profile has been delivered and somebody is signed in. -/
theorem Filled.onCreate_isOk {p : Process C} (h : Filled P p) (currentUser : Option Uid) :
    (Welcome.onCreate p.userDetails currentUser).isOk = false ↔
      currentUser = none ∨ p.profilesDelivered = [] := by
  obtain ⟨ps, hps, hdetails⟩ := h.userDetails
  rw [hdetails]
  generalize p.profilesDelivered = delivered at hps ⊢
  cases hps with
  | nil => exact iff_of_true rfl (Or.inr rfl)
  | @cons first q rest qs _ _ =>
    rw [List.flatMap_cons]
    cases currentUser with
    | none => exact iff_of_true rfl (Or.inl rfl)
    | some account =>
      rw [onCreate_append]
      exact iff_of_false Bool.noConfusion (by simp)

/-- The requests of every device are right about their screens. -/
theorem requests_of_trace (h : Trace (deployment P) tr s) (c : Nat) :
    (s.reg.clients c).Right s.reg.accounts := by
  refine (accounts_simulation P).transfer (J := Registered)
    (I := fun s => ∀ c, (s.reg.clients c).Right s.reg.accounts) ?_ ?_ h c
  · exact fun tr' r hr => hr.invariant registered_start fun _ _ hs he => registered_next hs he
  · intro s r hsame hregistered c
    have hright := hregistered.clients c
    rw [hsame.clients c, hsame.accounts] at hright
    exact hright

/-- The listener of a request throws exactly if its account was created and nobody is signed in. -/
theorem throws_iff {client : Client C} {sub : Submission}
    (hscreen : ∃ screen, client.screens[sub.screen]? = some screen) :
    client.throws sub = true ↔
      (∃ account, sub.outcome = some (.created account)) ∧ client.currentUser = none := by
  obtain ⟨screen, hscreen⟩ := hscreen
  unfold Client.throws
  rcases hout : sub.outcome with _ | ⟨account⟩ | _
  · simp
  · simp only [hscreen, Role.userProfile_eq]
    cases huser : client.currentUser with
    | none => exact iff_of_true rfl ⟨⟨account, rfl⟩, rfl⟩
    | some user =>
      rw [userProfile_run]
      exact iff_of_false Bool.false_ne_true (by simp)
  · simp

/-- A registration event ends the process exactly if it is one of the first two. -/
theorem ends_account_iff (h : Trace (deployment P) tr s) {c : Nat} {e : RegEvent}
    (he : s.reg.Enabled c e) : s.reg.ends c e = true ↔ Crash P s c (.account e) := by
  cases e with
  | kill => exact iff_of_true rfl .kill
  | onComplete j =>
    obtain ⟨sub, hj, -, hattached⟩ := he
    obtain ⟨form, hscreen⟩ := (requests_of_trace h c sub (List.mem_of_getElem? hj)).screen hattached
    simp only [RegState.ends, hj]
    rw [throws_iff ⟨_, hscreen⟩]
    constructor
    · rintro ⟨⟨account, hout⟩, huser⟩
      exact .onComplete hj hout huser
    · rintro (_ | ⟨hsub, hout, huser⟩)
      obtain rfl := Option.some.inj (hj.symm.trans hsub)
      exact ⟨⟨_, hout⟩, huser⟩
  | _ => exact iff_of_false Bool.false_ne_true fun h => by cases h

/-- Posting ends the process exactly if the form is complete and cannot be posted. -/
theorem ends_createJob_iff (c : Nat) (form : JobForm) :
    s.ends P c (.createJob form) = true ↔ Crash P s c (.createJob form) := by
  have hcrash : Crash P s c (.createJob form) ↔ checkFormFields form = .ok () ∧
      ¬ CanPost P (s.reg.clients c).currentUser form := by
    constructor
    · rintro (_ | _ | ⟨hfilled, hcannot⟩)
      exact ⟨hfilled, hcannot⟩
    · exact fun h => .createJob h.1 h.2
  rw [hcrash]
  simp only [Deployment.ends]
  rcases addJobLocation_run P (s.reg.clients c).currentUser form (s.reg.clients c).outbox with
    ⟨company, location, huser, hfilled, hpath, hreads, hrun⟩ | ⟨field, error, hrefused, hrun⟩ |
    ⟨exn, hfilled, hcannot, hrun⟩
  · rw [hrun]
    refine iff_of_false Bool.false_ne_true fun hnot => hnot.2 ⟨?_, hpath, location, hreads⟩
    rw [huser]
    rfl
  · rw [hrun]
    refine iff_of_false Bool.false_ne_true fun hnot => ?_
    cases hrefused.symm.trans hnot.1
  · rw [hrun]
    exact iff_of_true rfl ⟨hfilled, hcannot⟩

/-- A screen event ends the process exactly if a screen is opened that cannot be created. -/
theorem ends_screen_iff (h : Trace (deployment P) tr s) (havoids : Meets AvoidsDetails tr) {c : Nat}
    {e : ScreenEvent C} (he : s.Enabled c (.screen e)) :
    s.ends P c (.screen e) = true ↔ Crash P s c (.screen e) := by
  cases e with
  | openMap =>
    have hends : s.ends P c (.screen .openMap) = true ↔ (s.reg.clients c).currentUser = none := by
      show (!(getUid (s.reg.clients c).currentUser).isOk) = true ↔ _
      cases (s.reg.clients c).currentUser with
      | none => exact iff_of_true rfl rfl
      | some account => exact iff_of_false Bool.false_ne_true (by simp)
    rw [hends]
    constructor
    · exact .openMap
    · rintro (_ | _ | _ | huser)
      exact huser
  | openWelcome =>
    obtain ⟨tr', _, hsession, rfl⟩ := (session_simulation P c).trace h
    have hfilled : Filled P (s.processes c) := filled_of_trace hsession
    have hends : s.ends P c (.screen .openWelcome) = true ↔
        (s.reg.clients c).currentUser = none ∨ (s.processes c).profilesDelivered = [] := by
      rw [← hfilled.onCreate_isOk]
      show (!(Welcome.onCreate (s.processes c).userDetails (s.reg.clients c).currentUser).isOk) =
        true ↔ _
      rw [Bool.not_eq_true']
    rw [hends]
    constructor
    · exact .openWelcome
    · rintro (_ | _ | _ | _ | hwhich)
      exact hwhich
  | deliverJobs i =>
    rw [ends_deliverJobs h havoids he]
    exact iff_of_false Bool.false_ne_true fun h => by cases h
  | deliverProfile i =>
    rw [ends_deliverProfile h he]
    exact iff_of_false Bool.false_ne_true fun h => by cases h
  | _ => exact iff_of_false Bool.false_ne_true fun h => by cases h

/-! ## All events of a deployment -/

/-- **How processes end.**  In a run of the deployment whose positions avoid `details`, a step
ends the process of its device exactly if it is one of the five.  The two listeners of
`EmployeeMapActivity.onCreate`, for the job list and for the profile, are not among them: no
record that they are called with ends a process. -/
theorem crashes_of_trace (h : Trace (deployment P) tr s) (havoids : Meets AvoidsDetails tr) :
    Meets (fun s e => s.ends P e.1 e.2 = true ↔ Crash P s e.1 e.2) tr := by
  rintro ⟨s, c, e⟩ hx
  obtain ⟨pre, hpre, he, hprefix⟩ := h.of_mem hx
  cases e with
  | account e => exact ends_account_iff hpre he
  | createJob form => exact ends_createJob_iff c form
  | screen e => exact ends_screen_iff hpre (havoids.of_prefix hprefix) he

theorem crashes_marketDay :
    Meets (fun s e => s.ends wholeDegrees e.1 e.2 = true ↔ Crash wholeDegrees s e.1 e.2)
      (steps (deployment wholeDegrees) (deployment wholeDegrees).start marketDay) :=
  crashes_of_trace (Trace.of_events marketDay_runs) marketDay_avoidsDetails

end Partimer
