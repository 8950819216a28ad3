import Partimer.Deployment.JobRows
import Partimer.Deployment.LogIns
import Partimer.Lib.Form

/-!
# What the forms let through

Four screens have a form, and each checks it in the same way before it does anything: the first
empty field is marked with an error of its own and the method returns.

* `requiredFields`, `checkFormFields_eq` — for each of the forms, its fields with their errors, and
  its check as one of the library.
* `FirstEmpty`, `Refused`, `next_of_refused` — **a press that is refused changes nothing**, on any
  device, and its error is that of the first empty field.
* `titles_ne_empty` — no job of the database has an empty position or salary.
* `Asked`, `RefusesEmpty`, `forms_of_trace` — **nothing empty is asked for**, no account, no
  sign-in, and no job; and a press on a form with an empty field marks the first one.
-/

namespace Partimer

open Forms KeyTree Transition

variable {C : Type} {P : Platform C}

/-! ## The four forms -/

namespace CreateJobCompany

/-- The text of a field of the form of a job. -/
def Field.text (form : JobForm) : Field → String
  | .etPos => form.etPos
  | .etSal => form.etSal
  | .etLati => form.etLati
  | .etLong => form.etLong

/-- The fields of the form with their errors, in the order of the check. -/
def requiredFields (form : JobForm) : List (String × Field × String) :=
  [(form.etPos, .etPos, "Position Required"), (form.etSal, .etSal, "Salary Required"),
    (form.etLati, .etLati, "Latitude Required"), (form.etLong, .etLong, "Longitude Required")]

theorem checkFormFields_eq (form : JobForm) :
    checkFormFields form = require (requiredFields form) := rfl

/-- Each error is marked on the field that it is about. -/
theorem text_requiredFields {form : JobForm} {x : String × Field × String}
    (hx : x ∈ requiredFields form) : x.2.1.text form = x.1 := by
  simp only [requiredFields, List.mem_cons, List.not_mem_nil, or_false] at hx
  rcases hx with rfl | rfl | rfl | rfl <;> rfl

end CreateJobCompany

namespace Registration

/-- The text of a field of the form of an account. -/
def Field.text (form : AccountForm) : Field → String
  | .etEmail => form.etEmail
  | .etPass => form.etPass
  | .name => form.name
  | .age => form.age
  | .city => form.city
  | .country => form.country

/-- The fields of the form with their errors, in the order of the check. -/
def requiredFields (form : AccountForm) : List (String × Field × String) :=
  [(form.etEmail, .etEmail, "Email Required"), (form.etPass, .etPass, "Password Required"),
    (form.name, .name, "Name Required"), (form.age, .age, "Age Required"),
    (form.city, .city, "City Required"), (form.country, .country, "Country Required")]

theorem checkFormFields_eq (role : Role) (form : AccountForm) :
    role.checkFormFields form = require (requiredFields form) := by
  cases role <;> rfl

theorem text_requiredFields {form : AccountForm} {x : String × Field × String}
    (hx : x ∈ requiredFields form) : x.2.1.text form = x.1 := by
  simp only [requiredFields, List.mem_cons, List.not_mem_nil, or_false] at hx
  rcases hx with rfl | rfl | rfl | rfl | rfl | rfl <;> rfl

end Registration

namespace LogInActivity

/-- The text of a field of the form of a sign-in. -/
def Field.text (form : LogInForm) : Field → String
  | .etEmail => form.etEmail
  | .etPass => form.etPass

/-- The fields of the form with their errors, in the order of the check. -/
def requiredFields (form : LogInForm) : List (String × Field × String) :=
  [(form.etEmail, .etEmail, "Email Required"), (form.etPass, .etPass, "Password Required")]

theorem checkFormFields_eq (form : LogInForm) :
    checkFormFields form = require (requiredFields form) := rfl

theorem text_requiredFields {form : LogInForm} {x : String × Field × String}
    (hx : x ∈ requiredFields form) : x.2.1.text form = x.1 := by
  simp only [requiredFields, List.mem_cons, List.not_mem_nil, or_false] at hx
  rcases hx with rfl | rfl <;> rfl

end LogInActivity

/-! ## Refused presses -/

/-- The field is the first empty one, and the error its own. -/
def FirstEmpty {F : Type} (text : F → String) (fields : List (String × F × String))
    (field : F) (error : String) : Prop :=
  text field = "" ∧ ∃ pre post, fields = pre ++ ("", field, error) :: post ∧
    ∀ x ∈ pre, text x.2.1 ≠ ""

/-- What a check says of a form whose errors are marked on the fields that they are about. -/
theorem require_iff_firstEmpty {F : Type} {text : F → String}
    {fields : List (String × F × String)} (htext : ∀ x ∈ fields, text x.2.1 = x.1) {field : F}
    {error : String} :
    require fields = .error (field, error) ↔ FirstEmpty text fields field error := by
  rw [require_eq_error_iff]
  constructor
  · rintro ⟨pre, post, rfl, hpre⟩
    rw [List.forall_mem_append, List.forall_mem_cons] at htext
    refine ⟨htext.2.1, pre, post, rfl, ?_⟩
    intro x hx
    rw [htext.1 x hx]
    exact hpre x hx
  · rintro ⟨-, pre, post, rfl, hpre⟩
    rw [List.forall_mem_append] at htext
    refine ⟨pre, post, rfl, ?_⟩
    intro x hx
    rw [← htext.1 x hx]
    exact hpre x hx

/-- A form with an empty field has a first one. -/
theorem exists_firstEmpty {F : Type} {text : F → String} {fields : List (String × F × String)}
    (htext : ∀ x ∈ fields, text x.2.1 = x.1) (hempty : ∃ x ∈ fields, x.1 = "") :
    ∃ field error, FirstEmpty text fields field error := by
  obtain ⟨x, hx, hx'⟩ := hempty
  cases hrequire : require fields with
  | error marked =>
    obtain ⟨field, error⟩ := marked
    exact ⟨field, error, (require_iff_firstEmpty htext).1 hrequire⟩
  | ok _ => exact absurd hx' (require_eq_ok_iff.1 hrequire x hx)

theorem CreateJobCompany.refused_iff {form : JobForm} {field : CreateJobCompany.Field}
    {error : String} : CreateJobCompany.checkFormFields form = .error (field, error) ↔
      FirstEmpty (CreateJobCompany.Field.text form) (CreateJobCompany.requiredFields form) field
        error :=
  require_iff_firstEmpty fun _ => CreateJobCompany.text_requiredFields

theorem Registration.refused_iff {role : Role} {form : AccountForm} {field : Registration.Field}
    {error : String} : role.checkFormFields form = .error (field, error) ↔
      FirstEmpty (Registration.Field.text form) (Registration.requiredFields form) field error := by
  rw [Registration.checkFormFields_eq]
  exact require_iff_firstEmpty fun _ => Registration.text_requiredFields

theorem LogInActivity.refused_iff {form : LogInForm} {field : LogInActivity.Field}
    {error : String} : LogInActivity.checkFormFields form = .error (field, error) ↔
      FirstEmpty (LogInActivity.Field.text form) (LogInActivity.requiredFields form) field error :=
  require_iff_firstEmpty fun _ => LogInActivity.text_requiredFields

/-- **A button is pressed on a form with an empty field**, the first of which is marked. -/
inductive Refused (s : LogInDeployment C) (c : Nat) : UserEvent C → Prop
  | createJob {form : JobForm} {field : CreateJobCompany.Field} {error : String}
      (h : FirstEmpty (CreateJobCompany.Field.text form) (CreateJobCompany.requiredFields form)
        field error) : Refused s c (.device (.createJob form))
  | createUserAccount {i : Nat} {screen : RegScreen} {field : Registration.Field} {error : String}
      (hi : (s.devices.reg.clients c).screens[i]? = some screen)
      (h : FirstEmpty (Registration.Field.text screen.form)
        (Registration.requiredFields screen.form) field error) :
      Refused s c (.device (.account (.createUserAccount i)))
  | signUserIn {form : LogInForm} {field : LogInActivity.Field} {error : String}
      (h : FirstEmpty (LogInActivity.Field.text form) (LogInActivity.requiredFields form) field
        error) : Refused s c (.logIn (.signUserIn form))

theorem LogInDeployment.update_attempts_self (s : LogInDeployment C) (c : Nat) :
    Function.update s.attempts c (s.attempts c) = s.attempts :=
  Function.update_eq_self c s.attempts

/-- **A press that is refused changes nothing.** -/
theorem next_of_refused {s : LogInDeployment C} {c : Nat} {e : UserEvent C}
    (h : Refused s c e) : s.next P c e = s := by
  cases h with
  | @createJob form field error h =>
    rw [← CreateJobCompany.refused_iff] at h
    rcases Deployment.next_createJob (P := P) (s := s.devices) c form with
      ⟨_, _, -, hfilled, -⟩ | ⟨-, ⟨hends, hnext⟩ | ⟨hends, -⟩⟩
    · cases hfilled.symm.trans h
    · simp only [LogInDeployment.next, hnext, hends]
      rfl
    · -- the check comes before everything that can throw
      have hrun := CreateJobCompany.addJobLocation_run P (s.devices.reg.clients c).currentUser form
        (s.devices.reg.clients c).outbox
      rcases hrun with ⟨_, _, -, hfilled, -⟩ | ⟨_, _, -, hrun⟩ | ⟨_, hfilled, -⟩
      · cases hfilled.symm.trans h
      · simp only [Deployment.ends, hrun] at hends
        cases hends
      · cases hfilled.symm.trans h
  | @createUserAccount i screen field error hi h =>
    have hrefused : screen.role.checkFormFields screen.form = .error (field, error) :=
      Registration.refused_iff.2 h
    have hclient : (s.devices.reg.clients c).createUserAccount i = s.devices.reg.clients c := by
      simp only [Client.createUserAccount, hi, hrefused]
    have hreg : s.devices.reg.next c (.createUserAccount i) = s.devices.reg := by
      simp only [RegState.next, hclient, RegState.update]
      rw [Function.update_eq_self]
    have hdevices : s.devices.next P c (.account (.createUserAccount i)) = s.devices := by
      simp only [Deployment.next, hreg]
      rfl
    simp only [LogInDeployment.next, hdevices]
    rfl
  | @signUserIn form field error h =>
    rw [← LogInActivity.refused_iff] at h
    have hscreen : s.nextScreen c (.signUserIn form) = s.screen c := by
      simp only [LogInDeployment.nextScreen, LogInState.next, h]
    simp only [LogInDeployment.next, hscreen]
    show (⟨s.devices.setUser c (s.devices.reg.clients c).currentUser,
      Function.update s.attempts c (s.attempts c)⟩ : LogInDeployment C) = s
    rw [Deployment.setUser_self, LogInDeployment.update_attempts_self]

/-- What becomes of a press on a form with these fields and this check, from `s` to `s'`: if a
field is empty, the first one is marked with its own error, and nothing else happens. -/
def RefusesEmpty {F : Type} (text : F → String) (fields : List (String × F × String))
    (check : Except (F × String) Unit) (s s' : LogInDeployment C) : Prop :=
  (∃ x ∈ fields, x.1 = "") →
    ∃ field error, FirstEmpty text fields field error ∧ check = .error (field, error) ∧ s' = s

/-- Each of the four forms refuses empty fields on the device. -/
structure FormsRefuse (P : Platform C) (s : LogInDeployment C) (c : Nat) : Prop where
  createJob : ∀ form, RefusesEmpty (CreateJobCompany.Field.text form)
    (CreateJobCompany.requiredFields form) (CreateJobCompany.checkFormFields form) s
    (s.next P c (.device (.createJob form)))
  createUserAccount : ∀ i screen, (s.devices.reg.clients c).screens[i]? = some screen →
    RefusesEmpty (Registration.Field.text screen.form) (Registration.requiredFields screen.form)
      (screen.role.checkFormFields screen.form) s
      (s.next P c (.device (.account (.createUserAccount i))))
  signUserIn : ∀ form, RefusesEmpty (LogInActivity.Field.text form)
    (LogInActivity.requiredFields form) (LogInActivity.checkFormFields form) s
    (s.next P c (.logIn (.signUserIn form)))

/-- **Empty fields are refused**, on every device and in every state. -/
theorem formsRefuse (s : LogInDeployment C) (c : Nat) : FormsRefuse P s c where
  createJob form hempty := by
    obtain ⟨field, error, h⟩ :=
      exists_firstEmpty (fun _ => CreateJobCompany.text_requiredFields) hempty
    exact ⟨field, error, h, CreateJobCompany.refused_iff.2 h, next_of_refused (.createJob h)⟩
  createUserAccount i screen hi hempty := by
    obtain ⟨field, error, h⟩ :=
      exists_firstEmpty (fun _ => Registration.text_requiredFields) hempty
    exact ⟨field, error, h, Registration.refused_iff.2 h,
      next_of_refused (.createUserAccount hi h)⟩
  signUserIn form hempty := by
    obtain ⟨field, error, h⟩ :=
      exists_firstEmpty (fun _ => LogInActivity.text_requiredFields) hempty
    exact ⟨field, error, h, LogInActivity.refused_iff.2 h, next_of_refused (.signUserIn h)⟩

/-! ## What is asked for -/

/-- What stands below a location, or is one, is no `details` of a job. -/
theorem storeLocation_ne_newPost (rest : List String) (location : GeoLocation C)
    (t : DataSnapshot C) (position salary : String) :
    store rest (locationNode P location) t ≠ CreateJobCompany.newPost position salary := by
  intro heq
  cases rest with
  | nil => simp [locationNode, CreateJobCompany.newPost, mapNode] at heq
  | cons k rest =>
    have hchild := child_store_self k rest (locationNode P location) t
    obtain ⟨cs, hinner⟩ : ∃ cs, store rest (locationNode P location) (child t k) = .inner cs := by
      cases rest <;> exact ⟨_, rfl⟩
    rw [heq, hinner] at hchild
    have hmem := mem_of_lookup hchild
    simp [CreateJobCompany.newPost, mapNode] at hmem

/-- The `details` of the companies have no empty position or salary. -/
def TitlesFilled (db : Database C) : Prop :=
  ∀ company position salary, child (companyNode db company) "details" =
    some (CreateJobCompany.newPost position salary) → position ≠ "" ∧ salary ≠ ""

/-- An accepted form of a job has no empty position or salary. -/
theorem CreateJobCompany.ne_empty_of_ok {form : JobForm}
    (h : CreateJobCompany.checkFormFields form = .ok ()) : form.etPos ≠ "" ∧ form.etSal ≠ "" := by
  rw [CreateJobCompany.checkFormFields_eq, require_eq_ok_iff] at h
  exact ⟨h _ List.mem_cons_self, h _ (List.mem_cons_of_mem _ List.mem_cons_self)⟩

section Runs

variable {s : Deployment C} {tr : List (Deployment C × Nat × DeviceEvent C)}

/-- **One write.** -/
theorem TitlesFilled.apply {w : Write C} (hw : IssuedIn P tr w) {db : Database C}
    (h : TitlesFilled db) : TitlesFilled (w.apply db) := by
  obtain ⟨x, hx, hissued⟩ := hw
  intro company position salary hd
  cases hissued with
  | @location company' form location hposts =>
    by_cases hc : company = company'
    · subst hc
      rw [CreateJobCompany.locationWrite, companyNode_apply_self] at hd
      rcases hpath : childPath form.etPos with _ | ⟨k, rest⟩
      · rw [hpath] at hd
        cases hd
      · rw [hpath] at hd
        by_cases hk : k = "details"
        · subst hk
          rw [child_store_self] at hd
          exact absurd (Option.some.inj hd) (storeLocation_ne_newPost rest location _ _ _)
        · rw [child_store_ne (Ne.symm hk)] at hd
          exact h company position salary hd
    · rw [CreateJobCompany.locationWrite, companyNode_apply_ne hc] at hd
      exact h company position salary hd
  | @details company' form location hposts =>
    by_cases hc : company = company'
    · subst hc
      rw [CreateJobCompany.detailsWrite, companyNode_apply_self, child_store_self] at hd
      obtain ⟨rfl, rfl⟩ : form.etPos = position ∧ form.etSal = salary := by
        simpa [CreateJobCompany.newPost, mapNode] using hd
      exact CreateJobCompany.ne_empty_of_ok hposts.2.2.1
    · rw [CreateJobCompany.detailsWrite, companyNode_apply_ne hc] at hd
      exact h company position salary hd
  | profile hregisters =>
    rw [companyNode_apply_of_ne rfl (by decide)] at hd
    exact h company position salary hd
  | type hregisters =>
    rw [companyNode_apply_of_ne rfl (by decide)] at hd
    exact h company position salary hd

/-- **No job of the database has an empty position or salary**, whatever paths the positions are. -/
theorem titles_ne_empty (h : Trace (deployment P) tr s) : TitlesFilled s.reg.db := by
  refine holds_of_writes (I := TitlesFilled) h ?_ fun w db hw hdb => TitlesFilled.apply hw hdb
  intro company position salary hd
  cases hd

end Runs

/-- **Nothing empty is asked for**: no field of a form is empty with which an account was asked
for, or a sign-in, and no job of the database has an empty position or salary. -/
structure Asked (s : LogInDeployment C) : Prop where
  accounts : ∀ c, ∀ sub ∈ (s.devices.reg.clients c).submissions,
    ∀ x ∈ Registration.requiredFields sub.accepted, x.1 ≠ ""
  signIns : ∀ c, ∀ attempt ∈ s.attempts c,
    ∀ x ∈ LogInActivity.requiredFields attempt.form, x.1 ≠ ""
  jobs : TitlesFilled s.devices.reg.db

/-- The requests of a deployment hold forms that their screens have accepted. -/
theorem accepted_of_trace {s : Deployment C} {tr : List (Deployment C × Nat × DeviceEvent C)}
    (h : Trace (deployment P) tr s) (c : Nat) : ∀ sub ∈ (s.reg.clients c).submissions,
      sub.role.checkFormFields sub.accepted = .ok () := by
  obtain ⟨tr', r, hr, hsame⟩ := (accounts_simulation P).trace h
  have hregistered : Registered r :=
    hr.invariant registered_start fun _ _ hs he => registered_next hs he
  intro sub hsub
  refine (hregistered.clients c sub ?_).accepted
  rw [hsame.clients c, accountPart_submissions]
  exact hsub

/-- The attempts of a log-in screen hold forms that it has accepted. -/
def SignInsFilled (attempts : List Attempt) : Prop :=
  ∀ attempt ∈ attempts, ∀ x ∈ LogInActivity.requiredFields attempt.form, x.1 ≠ ""

/-- **One event of the screen.** -/
theorem SignInsFilled.next {db : Database C} {auth : LogInForm → Option Uid} {t : LogInState}
    (h : SignInsFilled t.attempts) {e : LogInEvent} (he : t.Enabled auth e) :
    SignInsFilled (t.next db auth e).attempts := by
  intro x hx
  cases LogInState.came_next he x hx with
  | kept hmem => exact h x hmem
  | started hform =>
    rw [LogInActivity.checkFormFields_eq] at hform
    exact require_eq_ok_iff.1 hform
  | @succeeded i attempt account hi => exact h attempt (List.mem_of_getElem? hi)
  | @failed i attempt hi => exact h attempt (List.mem_of_getElem? hi)
  | @looksUp i attempt user hi => exact h attempt (List.mem_of_getElem? hi)
  | @refused i attempt hi => exact h attempt (List.mem_of_getElem? hi)
  | @opens i attempt account screen hi => exact h attempt (List.mem_of_getElem? hi)
  | @stopped attempt hmem =>
    have hform : attempt.stop.form = attempt.form := by
      unfold Attempt.stop
      split <;> rfl
    rw [hform]
    exact h attempt hmem

theorem signIns_of_trace {s : LogInDeployment C}
    {tr : List (LogInDeployment C × Nat × UserEvent C)} (h : Trace (logInDeployment P) tr s) :
    ∀ c, SignInsFilled (s.attempts c) := by
  refine h.invariant (I := fun s => ∀ c, SignInsFilled (s.attempts c)) ?_ ?_
  · exact fun c attempt hattempt => absurd hattempt List.not_mem_nil
  · rintro s ⟨c, e⟩ hs he
    cases e with
    | device e =>
      intro c'
      show SignInsFilled ((s.next P c (.device e)).attempts c')
      simp only [LogInDeployment.next]
      split
      · exact forall_attempts_update hs
          (fun attempt hattempt => absurd hattempt List.not_mem_nil) c'
      · exact hs c'
    | logIn e =>
      have hscreen : SignInsFilled (s.nextScreen c e).attempts :=
        SignInsFilled.next (t := s.screen c) (hs c) he
      exact forall_attempts_update hs hscreen

/-- **What the forms let through.**  In every state of a deployment with log-in screens nothing
empty has been asked for; and a button that is pressed on a form with an empty field marks the
first one with its own error and changes nothing else, neither a device nor the database. -/
theorem forms_of_trace {s : LogInDeployment C}
    {tr : List (LogInDeployment C × Nat × UserEvent C)} (h : Trace (logInDeployment P) tr s) :
    Asked s ∧ ∀ c, FormsRefuse P s c := by
  obtain ⟨tr', d, hd, rfl⟩ := (logIns_simulation P).trace h
  refine ⟨⟨?_, signIns_of_trace h, titles_ne_empty hd⟩, formsRefuse s⟩
  intro c sub hsub
  have haccepted := accepted_of_trace hd c sub hsub
  rw [Registration.checkFormFields_eq] at haccepted
  exact require_eq_ok_iff.1 haccepted

theorem forms_acmeLogsIn :
    let s := acmeLogsIn.foldl (logInDeployment wholeDegrees).next
      (logInDeployment wholeDegrees).start
    Asked s ∧ ∃ field error,
      LogInActivity.checkFormFields ⟨"acme@example", ""⟩ = .error (field, error) ∧
        s.next wholeDegrees 0 (.logIn (.signUserIn ⟨"acme@example", ""⟩)) = s := by
  obtain ⟨hasked, hrefuse⟩ := forms_of_trace (Trace.of_events acmeLogsIn_runs)
  obtain ⟨field, error, -, hmarks, hsame⟩ := (hrefuse 0).signUserIn ⟨"acme@example", ""⟩
    ⟨_, List.mem_cons_of_mem _ List.mem_cons_self, rfl⟩
  exact ⟨hasked, field, error, hmarks, hsame⟩

end Partimer
