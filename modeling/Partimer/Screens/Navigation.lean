import Partimer.Accounts.LogIn
import Partimer.Jobs.CreateJob

/-!
# Which screens are created for whom

No activity finishes itself, so every screen ever opened waits below the top of the
back stack, whoever is signed in by the time it comes up again; and a screen does not
ask who that is before it opens the next one.

* `onClick`, `Screen.onCreateUid` — where each button leads, and which screens cannot be
  created without an account.
* `NavState`, `NavEvent`, `navigation` — the back stack and the account signed in.  A
  completed sign-in or registration is one step here.
* `InRole` — a screen made for one role is created only with an account of that role.
* `inRole_of_backsInRole` — so it is in every run in which no step back uncovers a
  screen of another role and the picture on the log-in screen is pressed by users only;
  and exactly if each button that opens such a screen is pressed on a screen of the role
  of the account signed in.
-/

namespace Partimer

open CreateJobCompany Transition

variable {C : Type} {P : Platform C}

/-! ## The screens and their buttons -/

/-- An account: its uid, and what it was registered as. -/
structure Account where
  uid : Uid
  role : Role
  deriving DecidableEq

/-- For whom a screen is made. -/
def Screen.role : Screen → Option Role
  | .employeeMapActivity => some .user
  | .viewJobUser => some .user
  | .welcome => some .user
  | .bossMapActivity => some .company
  | .welcomeCompany => some .company
  | .createJobCompany => some .company
  | _ => none

/-- The buttons that act at once; the three `createJobbtn` start what the events
below complete. -/
inductive Button where
  | registerbtn
  | instagramImage
  | facebookImage
  | btnCompany
  | btnUser
  | goBackLoginbtn
  | gobackbtn
  | userAccountMap
  | signOutbtn
  | backMapbtn
  | viewJobbtn
  | addJobbtn
  | setmylocation
  | goBackbtn
  deriving DecidableEq, Repr

/-- The screen that the `onClick` of a screen opens. -/
def onClick : Screen → Button → Option Screen
  | .logInActivity, .registerbtn => some .signInOption
  | .logInActivity, .facebookImage => some .viewJobUser
  | .signInOption, .btnCompany => some .signInCompanyActivity
  | .signInOption, .btnUser => some .signInActivity
  | .signInOption, .goBackLoginbtn => some .logInActivity
  | .signInActivity, .gobackbtn => some .signInOption
  | .signInCompanyActivity, .gobackbtn => some .signInOption
  | .employeeMapActivity, .userAccountMap => some .welcome
  | .bossMapActivity, .userAccountMap => some .welcomeCompany
  | .welcome, .signOutbtn => some .logInActivity
  | .welcome, .backMapbtn => some .employeeMapActivity
  | .welcome, .viewJobbtn => some .viewJobUser
  | .welcomeCompany, .signOutbtn => some .logInActivity
  | .welcomeCompany, .backMapbtn => some .bossMapActivity
  | .welcomeCompany, .addJobbtn => some .createJobCompany
  | .createJobCompany, .gobackbtn => some .welcomeCompany
  | .viewJobUser, .goBackbtn => some .welcome
  | _, _ => none

/-- The uid that `onCreate` takes of the current user, on three screens; the texts that
`Welcome` reads before it belong to its process and are not part of a `NavState`. -/
def Screen.onCreateUid (screen : Screen) (currentUser : Option Account) : Except Exn Unit :=
  match screen with
  | .employeeMapActivity | .welcome | .welcomeCompany =>
    (getUid (currentUser.map Account.uid)).map fun _ => ()
  | _ => .ok ()

/-- An account of the role is signed in. -/
def HasRole (currentUser : Option Account) (role : Role) : Prop :=
  ∃ account, currentUser = some account ∧ account.role = role

/-- Whom a screen asks for when a button is pressed on it: its own role, and a user
where the picture on the log-in screen is pressed. -/
def Screen.asks (top : Screen) (button : Button) : Option Role :=
  if top = .logInActivity ∧ button = .facebookImage then some .user else top.role

/-- A button opens a screen for whom the screen it is on asks for; signing out opens
one for nobody. -/
theorem onClick_role {top screen : Screen} {button : Button}
    (h : onClick top button = some screen) :
    screen.role = if button = .signOutbtn then none else top.asks button := by
  cases top <;> cases button <;> cases h <;> rfl

/-! ## The back stack -/

/-- The screens opened and not left, the top one first, the account signed in, and
whether the delayed start of `LogInActivity` is still to come. -/
structure NavState where
  stack : List Screen
  currentUser : Option Account
  timer : Bool

/-- What can happen. -/
inductive NavEvent where
  /-- A button of the top screen is pressed. -/
  | press (button : Button)
  /-- `createJobbtn` of `CreateJobCompany` is pressed with this form. -/
  | createJob (form : JobForm)
  /-- The system's Back. -/
  | back
  /-- `showPartimer` starts `LogInActivity`. -/
  | timeout
  /-- A sign-in started on `LogInActivity` completes. -/
  | signedIn (account : Account)
  /-- A registration completes. -/
  | registered (account : Account)
  /-- The process ends, for a reason outside this model. -/
  | ended
  /-- The app is started from the launcher. -/
  | launch

namespace NavState

variable (P) (s : NavState)

/-- When each event can happen.  The listener of a registration is dropped when its
screen is covered; the lookup that ends a sign-in is not. -/
def Enabled (s : NavState) : NavEvent → Prop
  | .press _ => s.stack ≠ []
  | .createJob _ => s.stack.head? = some .createJobCompany
  | .back => s.stack ≠ []
  | .timeout => s.timer = true
  | .signedIn _ => .logInActivity ∈ s.stack
  | .registered account => s.stack.head? = some account.role.registration
  | .ended => True
  | .launch => s.stack = []

/-- The screen that an event opens. -/
def opened (s : NavState) : NavEvent → Option Screen
  | .press button => s.stack.head?.bind fun top => onClick top button
  | .createJob form =>
    ((addJobLocation P (s.currentUser.map Account.uid) form).run []).1.toOption
  | .timeout => some .logInActivity
  | .signedIn account => some account.role.signedIn
  | .registered account => some account.role.registered
  | .launch => some .showPartimer
  | .back => none
  | .ended => none

/-- The account signed in when the screen is created. -/
def userAt (s : NavState) : NavEvent → Option Account
  | .press .signOutbtn =>
    if s.stack.head? = some .welcome ∨ s.stack.head? = some .welcomeCompany then none
    else s.currentUser
  | .signedIn account => some account
  | .registered account => some account
  | _ => s.currentUser

/-- Whether the delayed start is to come after the event. -/
def timerAt (s : NavState) : NavEvent → Bool
  | .timeout => false
  | .launch => true
  | _ => s.timer

/-- Nothing is left of the process but the account. -/
def dead (currentUser : Option Account) : NavState := ⟨[], currentUser, false⟩

/-- What each event does: a screen that it opens is put on the stack, unless its
`onCreate` finds no account. -/
def next (s : NavState) (e : NavEvent) : NavState :=
  match s.opened P e with
  | some screen =>
    match screen.onCreateUid (s.userAt e) with
    | .ok () => ⟨screen :: s.stack, s.userAt e, s.timerAt e⟩
    | .error _ => dead (s.userAt e)
  | none =>
    match e with
    | .back => { s with stack := s.stack.tail }
    | .ended => dead s.currentUser
    | .createJob form =>
      match ((addJobLocation P (s.currentUser.map Account.uid) form).run []).1 with
      | .error (.thrown _) => dead s.currentUser
      | _ => s
    | _ => s

end NavState

/-- The app from its first start, with nobody signed in. -/
def navigation (P : Platform C) : System NavState NavEvent where
  start := ⟨[.showPartimer], none, true⟩
  Enabled := NavState.Enabled
  next := NavState.next P

/-! ## Screens within the role -/

/-- A screen that the event opens finds an account of the role it is made for, and
its `onCreate` gets the uid it takes. -/
def InRole (P : Platform C) (s : NavState) (e : NavEvent) : Prop :=
  ∀ screen, s.opened P e = some screen →
    (∀ role, screen.role = some role → HasRole (s.userAt e) role) ∧
      screen.onCreateUid (s.userAt e) = .ok ()

/-- A step back uncovers no screen of another role, and the picture on the log-in
screen is pressed with a user signed in. -/
def BacksInRole (s : NavState) : NavEvent → Prop
  | .back => ∀ below, s.stack.tail.head? = some below → ∀ role, below.role = some role →
      HasRole s.currentUser role
  | .press .facebookImage => s.stack.head? = some .logInActivity → HasRole s.currentUser .user
  | _ => True

theorem opened_createJob {s : NavState} {form : JobForm} {screen : Screen}
    (h : s.opened P (.createJob form) = some screen) : screen = .welcomeCompany := by
  simp only [NavState.opened] at h
  cases hr : ((addJobLocation P (s.currentUser.map Account.uid) form).run []).1 with
  | error stop =>
    rw [hr] at h
    cases h
  | ok screen' =>
    rw [hr] at h
    cases h
    exact addJobLocation_screen P hr

theorem userAt_press {s : NavState} {button : Button} (h : button ≠ .signOutbtn) :
    s.userAt (.press button) = s.currentUser := by
  cases button <;> first | rfl | exact absurd rfl h

/-- **The invariant.**  The top screen is made for the account signed in, or for
everybody. -/
def TopInRole (s : NavState) : Prop :=
  ∀ top, s.stack.head? = some top → ∀ role, top.role = some role → HasRole s.currentUser role

theorem TopInRole.dead (currentUser : Option Account) : TopInRole (.dead currentUser) := by
  intro top htop
  cases htop

/-- A step that opens its screen for the right account keeps the invariant, and so
does a step back to such a screen. -/
theorem TopInRole.next {s : NavState} {e : NavEvent} (hs : TopInRole s)
    (hr : InRole P s e) (hb : BacksInRole s e) : TopInRole (s.next P e) := by
  unfold NavState.next
  cases hopened : s.opened P e with
  | some screen =>
    obtain ⟨hrole, hok⟩ := hr screen hopened
    simp only [hok]
    intro top htop
    cases htop
    exact hrole
  | none =>
    cases e with
    | back => exact hb
    | ended => exact TopInRole.dead _
    | createJob form =>
      dsimp only
      split
      · exact TopInRole.dead _
      · exact hs
    | _ => exact hs

/-- A company signs in, looks at the map and goes back. -/
def companyVisit : List NavEvent :=
  [.timeout, .signedIn ⟨acme, .company⟩, .press .backMapbtn, .back]

theorem companyVisit_runs : Runs (navigation wholeDegrees) (navigation wholeDegrees).start
    companyVisit :=
  ⟨rfl, List.mem_cons_self, List.cons_ne_nil _ _, List.cons_ne_nil _ _, trivial⟩

end Partimer
