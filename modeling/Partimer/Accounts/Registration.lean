import Mathlib.Logic.Function.Basic
import Partimer.Firebase
import Partimer.Lib.Code
import Partimer.Lib.Trace

/-!
# Registering an account

`SignInActivity` and `SignInCompanyActivity` are two copies of one flow: check the
form, ask the authentication service for an account, and when it answers read the
form again, store a profile and a type, and open the first screen.  Between the
press and the answer anything can happen on the device.

* `checkFormFields`, `userProfile` — the source; `userProfile_run` — what it issues.
* `Client`, `Auth`, `RegEvent`, `registrations` — any number of devices, the
  authentication service and the database, and the steps they take in any order: a
  screen can be stopped and a process killed at every point.
* `Registered` — what always holds of the submissions and the accounts;
  `registered_next` — every step keeps it.
-/

namespace Partimer

open KeyTree Transition

/-! ## The two screens -/

/-- The folder below `Users` for the profiles of a role. -/
def Role.folder : Role → String
  | .user => "Person"
  | .company => "Company"

/-- The key of the name in a profile. -/
def Role.nameKey : Role → String
  | .user => "User_name"
  | .company => "company_name"

/-- The text stored as the type of an account. -/
def Role.type : Role → String
  | .user => "user"
  | .company => "company"

/-- The screen on which accounts of a role are registered. -/
def Role.registration : Role → Screen
  | .user => .signInActivity
  | .company => .signInCompanyActivity

/-- The screen that a completed registration opens. -/
def Role.registered : Role → Screen
  | .user => .employeeMapActivity
  | .company => .bossMapActivity

/-- The six text fields of a registration screen. -/
structure AccountForm where
  etEmail : String
  etPass : String
  name : String
  age : String
  city : String
  country : String
  deriving DecidableEq, Repr

namespace Registration

/-- The field an error message is attached to. -/
inductive Field where
  | etEmail
  | etPass
  | name
  | age
  | city
  | country
  deriving DecidableEq, Repr

/-- The check of the form: the first empty field is marked with an error. -/
def checkFormFields (form : AccountForm) : Except (Field × String) Unit :=
  if form.etEmail.isEmpty then .error (.etEmail, "Email Required")
  else if form.etPass.isEmpty then .error (.etPass, "Password Required")
  else if form.name.isEmpty then .error (.name, "Name Required")
  else if form.age.isEmpty then .error (.age, "Age Required")
  else if form.city.isEmpty then .error (.city, "City Required")
  else if form.country.isEmpty then .error (.country, "Country Required")
  else .ok ()

variable {C : Type}

/-- The profile stored for an account. -/
def profileWrite (role : Role) (account : Uid) (form : AccountForm) : Write C :=
  ⟨["Users", role.folder] ++ childPath account.text,
    mapNode [(role.nameKey, form.name), ("age", form.age), ("country", form.country),
      ("city", form.city)]⟩

/-- The type stored for an account. -/
def typeWrite (role : Role) (account : Uid) : Write C :=
  ⟨["Users_type"] ++ childPath account.text, mapNode [("type", role.type)]⟩

/-- `userProfile`: read the form and the current user, and issue the two writes; the
result is the screen it opens. -/
def userProfile (role : Role) (form : AccountForm) (currentUser : Option Uid) :
    Code (List (Write C)) Exn Screen := do
  let userId ← Code.lift (getUid currentUser)
  Code.modify (· ++ [profileWrite role userId form])
  Code.modify (· ++ [typeWrite role userId])
  return role.registered

/-- **What `userProfile` issues.**  With an account, the profile and then the type. -/
theorem userProfile_run (role : Role) (form : AccountForm) (account : Uid)
    (ws : List (Write C)) : (userProfile role form (some account)).run ws =
      (.ok role.registered, ws ++ [profileWrite role account form, typeWrite role account]) := by
  show (Except.ok role.registered, ws ++ [profileWrite role account form] ++
    [typeWrite role account]) = _
  rw [List.append_assoc]
  rfl

theorem userProfile_run_none (role : Role) (form : AccountForm) (ws : List (Write C)) :
    (userProfile role form none).run ws = (.error .nullPointer, ws) := rfl

end Registration

/-- `SignInActivity.checkFormFields`. -/
def SignInActivity.checkFormFields (form : AccountForm) :
    Except (Registration.Field × String) Unit := Registration.checkFormFields form

/-- `SignInCompanyActivity.checkFormFields`. -/
def SignInCompanyActivity.checkFormFields (form : AccountForm) :
    Except (Registration.Field × String) Unit := Registration.checkFormFields form

/-- `SignInActivity.userProfile`. -/
def SignInActivity.userProfile {C : Type} (form : AccountForm) (currentUser : Option Uid) :
    Code (List (Write C)) Exn Screen := Registration.userProfile .user form currentUser

/-- `SignInCompanyActivity.userProfile`. -/
def SignInCompanyActivity.userProfile {C : Type} (form : AccountForm)
    (currentUser : Option Uid) : Code (List (Write C)) Exn Screen :=
  Registration.userProfile .company form currentUser

/-- The check of the screen for a role. -/
def Role.checkFormFields : Role → AccountForm → Except (Registration.Field × String) Unit
  | .user => SignInActivity.checkFormFields
  | .company => SignInCompanyActivity.checkFormFields

/-- The callback body of the screen for a role. -/
def Role.userProfile {C : Type} :
    Role → AccountForm → Option Uid → Code (List (Write C)) Exn Screen
  | .user => SignInActivity.userProfile
  | .company => SignInCompanyActivity.userProfile

theorem Role.userProfile_eq {C : Type} (role : Role) :
    (role.userProfile : AccountForm → Option Uid → Code (List (Write C)) Exn Screen) =
      Registration.userProfile role := by
  cases role <;> rfl

/-- An accepted form has no empty field. -/
theorem Role.checkFormFields_ok {role : Role} {form : AccountForm}
    (h : role.checkFormFields form = .ok ()) :
    form.name ≠ "" ∧ form.age ≠ "" ∧ form.city ≠ "" ∧ form.country ≠ "" := by
  have hcheck : Registration.checkFormFields form = .ok () := by cases role <;> exact h
  unfold Registration.checkFormFields at hcheck
  simp only [String.isEmpty_iff] at hcheck
  split_ifs at hcheck with _ _ hname hage hcity hcountry
  exact ⟨hname, hage, hcity, hcountry⟩

/-! ## Devices, the authentication service and the database -/

/-- What the authentication service answered. -/
inductive Outcome where
  | created (account : Uid)
  | failed
  deriving DecidableEq

/-- What became of the completion listener of a request. -/
inductive Listener where
  /-- It waits for the answer. -/
  | attached
  /-- It was dropped when its activity stopped. -/
  | dropped
  /-- Its process is gone. -/
  | dead
  /-- It has run. -/
  | called
  deriving DecidableEq, Repr

/-- An open registration screen and what its fields hold. -/
structure RegScreen where
  role : Role
  form : AccountForm
  deriving DecidableEq

/-- A request for an account: the screen it was made on, and the form as it was
accepted. -/
structure Submission where
  role : Role
  screen : Nat
  accepted : AccountForm
  outcome : Option Outcome
  listener : Listener
  deriving DecidableEq

/-- A request when the `i`th screen of its device stops. -/
def Submission.stop (i : Nat) (sub : Submission) : Submission :=
  if sub.screen = i ∧ sub.listener = .attached then { sub with listener := .dropped } else sub

/-- A device: the account signed in on it, the registration screens of its process,
the requests made on it, and the writes the server has not applied yet. -/
structure Client (C : Type) where
  currentUser : Option Uid
  screens : List RegScreen
  submissions : List Submission
  outbox : List (Write C)

/-- An account of the authentication service. -/
structure Auth where
  account : Uid
  email : String
  role : Role
  deriving DecidableEq

/-- The database, the accounts, and all devices. -/
structure RegState (C : Type) where
  db : Database C
  accounts : List Auth
  clients : Nat → Client C

/-- What can happen, each on one device. -/
inductive RegEvent where
  /-- A registration screen is opened. -/
  | openScreen (role : Role)
  /-- The fields of the `i`th screen are changed. -/
  | edit (i : Nat) (form : AccountForm)
  /-- The create button of the `i`th screen is pressed. -/
  | createUserAccount (i : Nat)
  /-- The service creates the account that the `j`th request asks for. -/
  | created (j : Nat) (account : Uid)
  /-- The service refuses it. -/
  | failed (j : Nat)
  /-- The completion listener of the `j`th request runs. -/
  | onComplete (j : Nat)
  /-- The `i`th screen stops. -/
  | stop (i : Nat)
  /-- The process ends. -/
  | kill
  /-- The server applies the oldest waiting write. -/
  | send
  /-- An existing account signs in through `LogInActivity`. -/
  | signIn (account : Uid)
  /-- The account signed in signs out. -/
  | signOut

namespace Client

variable {C : Type}

/-- The process of the device is gone; the account stays signed in, and so do the
requests at the service. -/
def killed (client : Client C) : Client C where
  currentUser := client.currentUser
  screens := []
  submissions := client.submissions.map fun sub => { sub with listener := .dead }
  outbox := []

/-- `createUserAccount`: an accepted form makes a request. -/
def createUserAccount (client : Client C) (i : Nat) : Client C :=
  match client.screens[i]? with
  | none => client
  | some screen =>
    match screen.role.checkFormFields screen.form with
    | .error _ => client
    | .ok () => { client with submissions := client.submissions ++
        [⟨screen.role, i, screen.form, none, .attached⟩] }

/-- The `j`th request is now `sub`. -/
def set (client : Client C) (j : Nat) (sub : Submission) : Client C :=
  { client with submissions := client.submissions.set j sub }

/-- The account of a request exists; a process that still waits for the answer has it
as its current user. -/
def created (client : Client C) (j : Nat) (sub : Submission) (account : Uid) : Client C :=
  { client.set j { sub with outcome := some (.created account) } with
    currentUser := if sub.listener = .dead then client.currentUser else some account }

theorem subset_createUserAccount (client : Client C) (i : Nat) :
    client.submissions ⊆ (client.createUserAccount i).submissions := by
  unfold createUserAccount
  split
  · exact List.Subset.refl _
  · split
    · exact List.Subset.refl _
    · exact List.subset_append_left _ _

@[simp] theorem createUserAccount_outbox (client : Client C) (i : Nat) :
    (client.createUserAccount i).outbox = client.outbox := by
  unfold createUserAccount
  split
  · rfl
  · split <;> rfl

@[simp] theorem created_submissions (client : Client C) (j : Nat) (sub : Submission)
    (account : Uid) : (client.created j sub account).submissions =
      client.submissions.set j { sub with outcome := some (.created account) } := rfl

@[simp] theorem created_outbox (client : Client C) (j : Nat) (sub : Submission)
    (account : Uid) : (client.created j sub account).outbox = client.outbox := rfl

/-- The completion listener of a request: after a success it runs `userProfile` on
what the screen and the current user are by now; an exception ends the process. -/
def onComplete (client : Client C) (j : Nat) (sub : Submission) : Client C :=
  let called := client.set j { sub with listener := .called }
  match sub.outcome, client.screens[sub.screen]? with
  | some (.created _), some screen =>
    match (sub.role.userProfile screen.form client.currentUser).run client.outbox with
    | (.ok _, outbox) => { called with outbox := outbox }
    | (.error _, _) => called.killed
  | _, _ => called

end Client

section OnComplete

variable {C : Type} {client : Client C} {sub : Submission}

/-- A listener that is told of a success and finds a user stores the form for that
user. -/
theorem Client.onComplete_created {account user : Uid} {form : AccountForm} (j : Nat)
    (hout : sub.outcome = some (.created account))
    (hscreen : client.screens[sub.screen]? = some ⟨sub.role, form⟩)
    (huser : client.currentUser = some user) :
    client.onComplete j sub = { client.set j { sub with listener := .called } with
      outbox := client.outbox ++
        [Registration.profileWrite sub.role user form, Registration.typeWrite sub.role user] } := by
  simp only [Client.onComplete, hout, hscreen, huser, Role.userProfile_eq,
    Registration.userProfile_run]

/-- A listener that is told of a failure stores nothing. -/
theorem Client.onComplete_failed (j : Nat)
    (hout : ∀ account, sub.outcome ≠ some (.created account)) :
    client.onComplete j sub = client.set j { sub with listener := .called } := by
  unfold Client.onComplete
  dsimp only
  split
  · next account screen heq _ => exact absurd heq (hout account)
  · rfl

end OnComplete

namespace RegState

variable {C : Type} (s : RegState C)

/-- One device changes. -/
def update (c : Nat) (client : Client C) : RegState C :=
  { s with clients := Function.update s.clients c client }

/-- What holds of the device that has changed, and of every device as it was, holds of all
of them afterwards. -/
theorem forall_update {P : Nat → Client C → Prop} {c : Nat} {client : Client C}
    (hclient : P c client) (hothers : ∀ c', P c' (s.clients c')) (c' : Nat) :
    P c' ((s.update c client).clients c') := by
  show P c' (Function.update s.clients c client c')
  by_cases hc : c' = c
  · subst hc
    rwa [Function.update_self]
  · rw [Function.update_of_ne hc]
    exact hothers c'

/-- When an event can happen on the device `c`. -/
def Enabled (s : RegState C) (c : Nat) : RegEvent → Prop
  | .edit i _ => ∃ screen, (s.clients c).screens[i]? = some screen
  | .createUserAccount i => ∃ screen, (s.clients c).screens[i]? = some screen
  | .created j account => ∃ sub, (s.clients c).submissions[j]? = some sub ∧
      sub.outcome = none ∧
      ∀ a ∈ s.accounts, a.account ≠ account ∧ a.email ≠ sub.accepted.etEmail
  | .failed j => ∃ sub, (s.clients c).submissions[j]? = some sub ∧ sub.outcome = none
  | .onComplete j => ∃ sub, (s.clients c).submissions[j]? = some sub ∧
      sub.outcome ≠ none ∧ sub.listener = .attached
  | .send => (s.clients c).outbox ≠ []
  | .signIn account => ∃ a ∈ s.accounts, a.account = account
  | _ => True

/-- What an event does on the device `c`. -/
def next (s : RegState C) (c : Nat) : RegEvent → RegState C
  | .openScreen role => s.update c { s.clients c with
      screens := (s.clients c).screens ++ [⟨role, ⟨"", "", "", "", "", ""⟩⟩] }
  | .edit i form => s.update c { s.clients c with
      screens := (s.clients c).screens.modify i fun screen => { screen with form := form } }
  | .createUserAccount i => s.update c ((s.clients c).createUserAccount i)
  | .created j account =>
    match (s.clients c).submissions[j]? with
    | none => s
    | some sub => { s.update c ((s.clients c).created j sub account) with
        accounts := s.accounts ++ [⟨account, sub.accepted.etEmail, sub.role⟩] }
  | .failed j =>
    match (s.clients c).submissions[j]? with
    | none => s
    | some sub => s.update c ((s.clients c).set j { sub with outcome := some .failed })
  | .onComplete j =>
    match (s.clients c).submissions[j]? with
    | none => s
    | some sub => s.update c ((s.clients c).onComplete j sub)
  | .stop i => s.update c { s.clients c with
      submissions := (s.clients c).submissions.map (Submission.stop i) }
  | .kill => s.update c (s.clients c).killed
  | .send =>
    match (s.clients c).outbox with
    | [] => s
    | w :: ws => { s.update c { s.clients c with outbox := ws } with db := w.apply s.db }
  | .signIn account => s.update c { s.clients c with currentUser := some account }
  | .signOut => s.update c { s.clients c with currentUser := none }

end RegState

/-- All devices, the authentication service and the database, from nothing. -/
def registrations (C : Type) : System (RegState C) (Nat × RegEvent) where
  start := ⟨none, [], fun _ => ⟨none, [], [], []⟩⟩
  Enabled s e := s.Enabled e.1 e.2
  next s e := s.next e.1 e.2

/-! ## What always holds -/

/-- A request is right about its form, its account and its screen. -/
structure Submission.Right (accounts : List Auth) (screens : List RegScreen)
    (sub : Submission) : Prop where
  /-- The check of its screen accepted the form. -/
  accepted : sub.role.checkFormFields sub.accepted = .ok ()
  /-- The account it has created is one of the service's. -/
  created : ∀ account, sub.outcome = some (.created account) →
    ⟨account, sub.accepted.etEmail, sub.role⟩ ∈ accounts
  /-- The screen whose listener waits is open. -/
  screen : sub.listener = .attached → ∃ form, screens[sub.screen]? = some ⟨sub.role, form⟩

/-- Every request of the device is right. -/
def Client.Right {C : Type} (accounts : List Auth) (client : Client C) : Prop :=
  ∀ sub ∈ client.submissions, sub.Right accounts client.screens

/-- **The invariant.**  Emails and uids tell accounts apart, and every request is
right. -/
structure Registered {C : Type} (s : RegState C) : Prop where
  emails : ∀ a ∈ s.accounts, ∀ b ∈ s.accounts, a.email = b.email → a = b
  uids : ∀ a ∈ s.accounts, ∀ b ∈ s.accounts, a.account = b.account → a = b
  clients : ∀ c, (s.clients c).Right s.accounts

section Steps

variable {C : Type} {s : RegState C} {accounts : List Auth} {client : Client C}

theorem Client.Right.mono {accounts' : List Auth} (h : client.Right accounts)
    (hsub : accounts ⊆ accounts') : client.Right accounts' := fun sub hmem =>
  ⟨(h sub hmem).accepted, fun account hout => hsub ((h sub hmem).created account hout),
    (h sub hmem).screen⟩

theorem Client.Right.set (h : client.Right accounts) (j : Nat) {sub : Submission}
    (hsub : sub.Right accounts client.screens) : (client.set j sub).Right accounts :=
  forall_mem_set h hsub j

/-- A request that the service refuses creates nothing. -/
theorem Submission.Right.failed {screens : List RegScreen} {sub : Submission}
    (h : sub.Right accounts screens) :
    Submission.Right accounts screens { sub with outcome := some .failed } where
  accepted := h.accepted
  created account hout := by cases hout
  screen := h.screen

theorem Client.Right.killed (h : client.Right accounts) : client.killed.Right accounts := by
  intro x hx
  obtain ⟨sub, hsub, rfl⟩ := List.mem_map.1 hx
  exact ⟨(h sub hsub).accepted, (h sub hsub).created, nofun⟩

theorem Client.Right.openScreen (h : client.Right accounts) (screen : RegScreen) :
    Client.Right accounts { client with screens := client.screens ++ [screen] } := by
  intro sub hsub
  refine ⟨(h sub hsub).accepted, (h sub hsub).created, ?_⟩
  intro hatt
  obtain ⟨form, hform⟩ := (h sub hsub).screen hatt
  refine ⟨form, ?_⟩
  rw [List.getElem?_append_left (List.getElem?_eq_some_iff.1 hform).1]
  exact hform

theorem Client.Right.edit (h : client.Right accounts) (i : Nat) (form : AccountForm) :
    Client.Right accounts { client with
      screens := client.screens.modify i fun screen => { screen with form := form } } := by
  intro sub hsub
  refine ⟨(h sub hsub).accepted, (h sub hsub).created, ?_⟩
  intro hatt
  obtain ⟨form', hform⟩ := (h sub hsub).screen hatt
  rw [List.getElem?_modify, hform]
  by_cases hi : i = sub.screen
  · exact ⟨form, by simp [hi]⟩
  · exact ⟨form', by simp [hi]⟩

theorem Client.Right.createUserAccount (h : client.Right accounts) (i : Nat) :
    (client.createUserAccount i).Right accounts := by
  unfold Client.createUserAccount
  cases hi : client.screens[i]? with
  | none => exact h
  | some screen =>
    cases hc : screen.role.checkFormFields screen.form with
    | error e => simpa only [hc] using h
    | ok u =>
      simp only [hc]
      exact forall_mem_concat h ⟨hc, nofun, fun _ => ⟨screen.form, hi⟩⟩

theorem Client.Right.stop (h : client.Right accounts) (i : Nat) : Client.Right accounts
    { client with submissions := client.submissions.map (Submission.stop i) } := by
  intro x hx
  obtain ⟨sub, hsub, rfl⟩ := List.mem_map.1 hx
  unfold Submission.stop
  split
  · exact ⟨(h sub hsub).accepted, (h sub hsub).created, nofun⟩
  · exact h sub hsub

theorem Client.Right.onComplete (h : client.Right accounts) (j : Nat) {sub : Submission}
    (hsub : sub.Right accounts client.screens) : (client.onComplete j sub).Right accounts := by
  have hcalled : (client.set j { sub with listener := .called }).Right accounts :=
    h.set j ⟨hsub.accepted, hsub.created, nofun⟩
  unfold Client.onComplete
  dsimp only
  split
  · split
    · exact hcalled
    · exact hcalled.killed
  · exact hcalled

/-- A step of one device that creates no account. -/
theorem Registered.update (h : Registered s) (c : Nat) (hclient : client.Right s.accounts) :
    Registered (s.update c client) where
  emails := h.emails
  uids := h.uids
  clients := s.forall_update hclient h.clients

theorem Registered.db (h : Registered s) (db : Database C) : Registered { s with db := db } :=
  ⟨h.emails, h.uids, h.clients⟩

/-- The service creates an account. -/
theorem Registered.created (h : Registered s) {c j : Nat} {account : Uid}
    (he : s.Enabled c (.created j account)) : Registered (s.next c (.created j account)) := by
  obtain ⟨sub, hj, -, hfresh⟩ := he
  have hsub := h.clients c sub (List.mem_of_getElem? hj)
  simp only [RegState.next, hj]
  -- an account that differs from all others in the given part
  have hdistinct : ∀ {β : Type} (f : Auth → β),
      (∀ a ∈ s.accounts, ∀ b ∈ s.accounts, f a = f b → a = b) →
      (∀ a ∈ s.accounts, f a ≠ f ⟨account, sub.accepted.etEmail, sub.role⟩) →
      ∀ a ∈ s.accounts ++ [⟨account, sub.accepted.etEmail, sub.role⟩],
        ∀ b ∈ s.accounts ++ [⟨account, sub.accepted.etEmail, sub.role⟩], f a = f b → a = b := by
    intro β f hold hnew a ha b hb hab
    rcases List.mem_append.1 ha with ha | ha <;> rcases List.mem_append.1 hb with hb | hb
    · exact hold a ha b hb hab
    · obtain rfl := List.mem_singleton.1 hb
      exact absurd hab (hnew a ha)
    · obtain rfl := List.mem_singleton.1 ha
      exact absurd hab.symm (hnew b hb)
    · rw [List.mem_singleton.1 ha, List.mem_singleton.1 hb]
  refine ⟨hdistinct Auth.email h.emails fun a ha => (hfresh a ha).2,
    hdistinct Auth.account h.uids fun a ha => (hfresh a ha).1, ?_⟩
  have hmono : s.accounts ⊆ s.accounts ++ [⟨account, sub.accepted.etEmail, sub.role⟩] :=
    List.subset_append_left _ _
  have hright : ((s.clients c).created j sub account).Right
      (s.accounts ++ [⟨account, sub.accepted.etEmail, sub.role⟩]) := by
    refine ((h.clients c).mono hmono).set j ⟨hsub.accepted, ?_, hsub.screen⟩
    intro account' hout
    cases hout
    exact List.mem_append_right _ (List.mem_singleton_self _)
  exact s.forall_update hright fun c' => (h.clients c').mono hmono

/-- **One step.** -/
theorem registered_next (h : Registered s) {c : Nat} {e : RegEvent} (he : s.Enabled c e) :
    Registered (s.next c e) := by
  cases e with
  | openScreen role => exact h.update c ((h.clients c).openScreen _)
  | edit i form => exact h.update c ((h.clients c).edit i form)
  | createUserAccount i => exact h.update c ((h.clients c).createUserAccount i)
  | created j account => exact h.created he
  | failed j =>
    obtain ⟨sub, hj, -⟩ := he
    simp only [RegState.next, hj]
    exact h.update c ((h.clients c).set j (h.clients c sub (List.mem_of_getElem? hj)).failed)
  | onComplete j =>
    obtain ⟨sub, hj, -⟩ := he
    simp only [RegState.next, hj]
    exact h.update c ((h.clients c).onComplete j (h.clients c sub (List.mem_of_getElem? hj)))
  | stop i => exact h.update c ((h.clients c).stop i)
  | kill => exact h.update c (h.clients c).killed
  | send =>
    simp only [RegState.next]
    split
    · exact h
    · next w ws _ =>
      have hclient : Client.Right s.accounts { s.clients c with outbox := ws } := h.clients c
      exact (h.update c hclient).db _
  | signIn account => exact h.update c (h.clients c)
  | signOut => exact h.update c (h.clients c)

theorem registered_start : Registered (registrations C).start :=
  ⟨nofun, nofun, fun _ => nofun⟩

end Steps

end Partimer
