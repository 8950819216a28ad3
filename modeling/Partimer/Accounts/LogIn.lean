import Partimer.Accounts.Registration

/-!
# Signing in

`LogInActivity.signUserIn` asks the authentication service to sign an account in; when
the answer comes, its listener looks up the type of the current user, and when that
comes, opens a screen by the type.  Nothing keeps a second attempt from being started
meanwhile.

* `LogInActivity.checkFormFields`, `LogInActivity.onDataChange` — the source.
* `Attempt`, `LogInState`, `LogInEvent`, `logIns` — any number of attempts under way
  and the steps they take in any order.
* `LogInState.came_next`, `LogInState.next_currentUser` — what a step leaves of the attempts, and
  of the account signed in.
* `OpensOwn` — an attempt whose lookup is answered opens one screen, by the type of
  the account it was made for, which is then the one signed in.
* `LooksUpOwn`, `opensOwn_iff` — what one answer needs for that.
* `SignsInAlone`, `OwnAttempts` — no other account signs in between the success of an
  attempt and the answer to its lookup; then an attempt under way is one of the account
  signed in, and has looked up no other.
* `opensOwn_iff_typeStored` — in such a run each attempt opens its own account's screen,
  exactly if each account that is looked up has a type.
-/

namespace Partimer

open KeyTree Transition

variable {C : Type}

/-! ## The screen -/

/-- The screen that a completed sign-in opens. -/
def Role.signedIn : Role → Screen
  | .user => .employeeMapActivity
  | .company => .welcomeCompany

/-- The two text fields of `LogInActivity`. -/
structure LogInForm where
  etEmail : String
  etPass : String
  deriving DecidableEq, Repr

namespace LogInActivity

/-- The field an error message is attached to. -/
inductive Field where
  | etEmail
  | etPass
  deriving DecidableEq, Repr

/-- The check of the form: the first empty field is marked with an error. -/
def checkFormFields (form : LogInForm) : Except (Field × String) Unit :=
  if form.etEmail.isEmpty then .error (.etEmail, "Email Required")
  else if form.etPass.isEmpty then .error (.etPass, "Password Required")
  else .ok ()

/-- The screen for a type. -/
def screenFor (type : String) : Screen :=
  if type = "user" then .employeeMapActivity else .welcomeCompany

/-- The listener of the lookup: the screen it opens.  Without a type, `type.equals`
throws. -/
def onDataChange (dataSnapshot : DataSnapshot C) : Except Exn Screen := do
  match ← DataSnapshot.getString (child dataSnapshot "type") with
  | none => .error .nullPointer
  | some type => return screenFor type

theorem screenFor_user {type : String} :
    screenFor type = Role.user.signedIn ↔ type = Role.user.type := by
  unfold screenFor
  split
  · next h => exact ⟨fun _ => h, fun _ => rfl⟩
  · next h => exact ⟨nofun, fun heq => absurd heq h⟩

theorem screenFor_company {type : String} :
    screenFor type = Role.company.signedIn ↔ type ≠ Role.user.type := by
  unfold screenFor
  split
  · next h => exact ⟨nofun, fun hne => absurd h hne⟩
  · next h => exact ⟨fun _ => h, fun _ => rfl⟩

end LogInActivity

/-- The record that a lookup of the type of an account reads. -/
def typeNode (db : Database C) (account : Uid) : DataSnapshot C :=
  fetch db (["Users_type"] ++ childPath account.text)

/-- The type of an account, if one is stored. -/
def typeOf (db : Database C) (account : Uid) : Option String :=
  match DataSnapshot.getString (child (typeNode db account) "type") with
  | .ok type => type
  | .error _ => none

/-- The lookup of an account that has a type opens the screen of that type. -/
theorem onDataChange_typeNode {db : Database C} {account : Uid} {screen : Screen} :
    LogInActivity.onDataChange (typeNode db account) = .ok screen ↔
      ∃ type, typeOf db account = some type ∧ LogInActivity.screenFor type = screen := by
  unfold LogInActivity.onDataChange typeOf
  cases DataSnapshot.getString (child (typeNode db account) "type") with
  | error e =>
    show Except.error e = .ok screen ↔ _
    simp
  | ok type =>
    cases type with
    | none =>
      show Except.error Exn.nullPointer = .ok screen ↔ _
      simp
    | some type =>
      show Except.ok (LogInActivity.screenFor type) = .ok screen ↔ _
      simp

/-! ## Attempts under way -/

/-- A call of `signUserIn` whose form was accepted. -/
structure Attempt where
  form : LogInForm
  /-- Whether the service signed the account in, once it has answered. -/
  answer : Option Bool
  listener : Listener
  /-- The account whose type was looked up. -/
  lookup : Option Uid
  /-- Whether the lookup was answered. -/
  answered : Bool
  /-- The screens opened. -/
  opened : List Screen
  deriving DecidableEq

/-- An attempt when `LogInActivity` stops. -/
def Attempt.stop (attempt : Attempt) : Attempt :=
  if attempt.listener = .attached then { attempt with listener := .dropped } else attempt

/-- The account signed in on the device, and the attempts made on it. -/
structure LogInState where
  currentUser : Option Uid
  attempts : List Attempt

/-- What can happen. -/
inductive LogInEvent where
  /-- The button is pressed with this form. -/
  | signUserIn (form : LogInForm)
  /-- The service signs the account of the `i`th attempt in. -/
  | succeed (i : Nat)
  /-- The service refuses. -/
  | fail (i : Nat)
  /-- The completion listener of the `i`th attempt runs. -/
  | onComplete (i : Nat)
  /-- The lookup of the `i`th attempt is answered. -/
  | onDataChange (i : Nat)
  /-- `LogInActivity` stops, and the listeners that wait are dropped. -/
  | stop

namespace LogInState

variable (db : Database C) (authenticate : LogInForm → Option Uid) (s : LogInState)

/-- When each event can happen. -/
def Enabled (s : LogInState) : LogInEvent → Prop
  | .succeed i => ∃ attempt account, s.attempts[i]? = some attempt ∧ attempt.answer = none ∧
      authenticate attempt.form = some account
  | .fail i => ∃ attempt, s.attempts[i]? = some attempt ∧ attempt.answer = none
  | .onComplete i => ∃ attempt, s.attempts[i]? = some attempt ∧ attempt.answer ≠ none ∧
      attempt.listener = .attached
  | .onDataChange i => ∃ attempt account, s.attempts[i]? = some attempt ∧
      attempt.lookup = some account ∧ attempt.answered = false
  | _ => True

/-- The `i`th attempt is now `attempt`. -/
def set (i : Nat) (attempt : Attempt) : LogInState :=
  { s with attempts := s.attempts.set i attempt }

/-- An exception has ended the process. -/
def ended : LogInState := { s with attempts := [] }

/-- The service signs the account of an attempt in. -/
def succeed (i : Nat) (attempt : Attempt) : LogInState :=
  match authenticate attempt.form with
  | none => s
  | some account => { s.set i { attempt with answer := some true } with
      currentUser := some account }

/-- The completion listener of an attempt: after a success it looks up the type of the
current user. -/
def onComplete (i : Nat) (attempt : Attempt) : LogInState :=
  match attempt.answer with
  | some true =>
    match getUid s.currentUser with
    | .ok userId => s.set i { attempt with listener := .called, lookup := some userId }
    | .error _ => s.ended
  | _ => s.set i { attempt with listener := .called }

/-- The lookup of an attempt is answered. -/
def onDataChange (i : Nat) (attempt : Attempt) : LogInState :=
  match attempt.lookup with
  | none => s
  | some account =>
    match LogInActivity.onDataChange (typeNode db account) with
    | .ok screen => s.set i { attempt with
        answered := true, opened := attempt.opened ++ [screen] }
    | .error _ => s.ended

/-- What each event does. -/
def next (s : LogInState) : LogInEvent → LogInState
  | .signUserIn form =>
    match LogInActivity.checkFormFields form with
    | .error _ => s
    | .ok () => { s with attempts := s.attempts ++ [⟨form, none, .attached, none, false, []⟩] }
  | .succeed i =>
    match s.attempts[i]? with
    | none => s
    | some attempt => s.succeed authenticate i attempt
  | .fail i =>
    match s.attempts[i]? with
    | none => s
    | some attempt => s.set i { attempt with answer := some false }
  | .onComplete i =>
    match s.attempts[i]? with
    | none => s
    | some attempt => s.onComplete i attempt
  | .onDataChange i =>
    match s.attempts[i]? with
    | none => s
    | some attempt => s.onDataChange db i attempt
  | .stop => { s with attempts := s.attempts.map Attempt.stop }

end LogInState

/-- The log-in screen of a device, with the account that is still signed in on it, if
any, over a database and an authentication service. -/
def logIns (db : Database C) (authenticate : LogInForm → Option Uid)
    (currentUser : Option Uid) : System LogInState LogInEvent where
  start := ⟨currentUser, []⟩
  Enabled := LogInState.Enabled authenticate
  next := LogInState.next db authenticate

/-! ## What a step does -/

section Step

variable (db : Database C) (authenticate : LogInForm → Option Uid) (s : LogInState)

/-- **Where an attempt of the next state comes from**: it was there before, or it is the one that
the event is about. -/
inductive LogInState.Came : LogInEvent → Attempt → Prop
  | kept {e : LogInEvent} {attempt : Attempt} (h : attempt ∈ s.attempts) : Came e attempt
  | started {form : LogInForm} (hform : LogInActivity.checkFormFields form = .ok ()) :
      Came (.signUserIn form) ⟨form, none, .attached, none, false, []⟩
  | succeeded {i : Nat} {attempt : Attempt} {account : Uid} (hi : s.attempts[i]? = some attempt)
      (haccount : authenticate attempt.form = some account) :
      Came (.succeed i) { attempt with answer := some true }
  | failed {i : Nat} {attempt : Attempt} (hi : s.attempts[i]? = some attempt)
      (hnone : attempt.answer = none) : Came (.fail i) { attempt with answer := some false }
  | looksUp {i : Nat} {attempt : Attempt} {user : Uid} (hi : s.attempts[i]? = some attempt)
      (hanswer : attempt.answer = some true) (hattached : attempt.listener = .attached)
      (huser : s.currentUser = some user) :
      Came (.onComplete i) { attempt with listener := .called, lookup := some user }
  | refused {i : Nat} {attempt : Attempt} (hi : s.attempts[i]? = some attempt)
      (hanswer : attempt.answer ≠ some true) (hattached : attempt.listener = .attached) :
      Came (.onComplete i) { attempt with listener := .called }
  | opens {i : Nat} {attempt : Attempt} {looked : Uid} {screen : Screen}
      (hi : s.attempts[i]? = some attempt) (hlookup : attempt.lookup = some looked)
      (hanswered : attempt.answered = false)
      (hscreen : LogInActivity.onDataChange (typeNode db looked) = .ok screen) :
      Came (.onDataChange i)
        { attempt with answered := true, opened := attempt.opened ++ [screen] }
  | stopped {attempt : Attempt} (h : attempt ∈ s.attempts) : Came .stop attempt.stop

variable {db authenticate} {s}

theorem LogInState.came_next {e : LogInEvent} (he : s.Enabled authenticate e) :
    ∀ attempt ∈ (s.next db authenticate e).attempts, s.Came db authenticate e attempt := by
  have hkept : ∀ attempt ∈ s.attempts, s.Came db authenticate e attempt := fun _ => .kept
  cases e with
  | signUserIn form =>
    simp only [LogInState.next]
    split
    · exact hkept
    · next hform => exact forall_mem_concat hkept (.started hform)
  | succeed i =>
    obtain ⟨attempt, account, hi, -, haccount⟩ := he
    simp only [LogInState.next, hi, LogInState.succeed, haccount]
    exact forall_mem_set hkept (.succeeded hi haccount) i
  | fail i =>
    obtain ⟨attempt, hi, hnone⟩ := he
    simp only [LogInState.next, hi]
    exact forall_mem_set hkept (.failed hi hnone) i
  | onComplete i =>
    obtain ⟨attempt, hi, -, hattached⟩ := he
    simp only [LogInState.next, hi, LogInState.onComplete]
    split
    · next hanswer =>
      cases huser : s.currentUser with
      | none => exact nofun
      | some user => exact forall_mem_set hkept (.looksUp hi hanswer hattached huser) i
    · next hanswer => exact forall_mem_set hkept (.refused hi hanswer hattached) i
  | onDataChange i =>
    obtain ⟨attempt, looked, hi, hlookup, hanswered⟩ := he
    simp only [LogInState.next, hi, LogInState.onDataChange, hlookup]
    split
    · next screen hscreen =>
      have hopens : s.Came db authenticate (.onDataChange i)
          { attempt with answered := true, opened := attempt.opened ++ [screen] } :=
        .opens hi hlookup hanswered hscreen
      rw [hlookup] at hopens
      exact forall_mem_set hkept hopens i
    · exact nofun
  | stop =>
    intro x hx
    obtain ⟨attempt, hattempt, rfl⟩ := List.mem_map.1 hx
    exact .stopped hattempt

/-- Only a success changes the account signed in. -/
theorem LogInState.next_currentUser {e : LogInEvent} (he : ∀ i, e ≠ .succeed i) :
    (s.next db authenticate e).currentUser = s.currentUser := by
  cases e with
  | succeed i => exact absurd rfl (he i)
  | signUserIn form =>
    simp only [LogInState.next]
    split <;> rfl
  | fail i =>
    simp only [LogInState.next]
    split <;> rfl
  | onComplete i =>
    simp only [LogInState.next]
    split
    · rfl
    · unfold LogInState.onComplete
      split
      · split <;> rfl
      · rfl
  | onDataChange i =>
    simp only [LogInState.next]
    split
    · rfl
    · unfold LogInState.onDataChange
      split
      · rfl
      · split <;> rfl
  | stop => rfl

theorem LogInState.next_succeed {i : Nat} {attempt : Attempt} {account : Uid}
    (hi : s.attempts[i]? = some attempt) (haccount : authenticate attempt.form = some account) :
    (s.next db authenticate (.succeed i)).currentUser = some account := by
  simp only [LogInState.next, hi, LogInState.succeed, haccount]

end Step

/-! ## Each attempt opens its own account's screen -/

section Own

variable (db : Database C) (authenticate : LogInForm → Option Uid)

/-- An attempt that has succeeded and whose lookup may still be answered: its listener was
not dropped before it could ask. -/
def Attempt.UnderWay (attempt : Attempt) : Prop :=
  attempt.answer = some true ∧ attempt.listener ≠ .dropped ∧ attempt.answered = false

/-- When its lookup is answered, the attempt has opened one screen, by the type of the
account that its own credentials authenticate, and that account is signed in. -/
def OpensOwn (s : LogInState) : LogInEvent → Prop
  | .onDataChange i => ∀ attempt, s.attempts[i]? = some attempt →
      ∃ account screen, authenticate attempt.form = some account ∧
        s.currentUser = some account ∧
        (s.next db authenticate (.onDataChange i)).attempts[i]?.map Attempt.opened =
          some [screen] ∧
        (typeOf db account = some Role.user.type → screen = Role.user.signedIn) ∧
        (typeOf db account = some Role.company.type → screen = Role.company.signedIn)
  | _ => True

/-- A sign-in succeeds only for the account of every attempt that is under way. -/
def SignsInAlone (s : LogInState) : LogInEvent → Prop
  | .succeed i => ∀ attempt, s.attempts[i]? = some attempt → ∀ other ∈ s.attempts,
      other.UnderWay → authenticate other.form = authenticate attempt.form
  | _ => True

/-- The account of the attempt whose lookup is answered has a type stored. -/
def TypeStored (s : LogInState) : LogInEvent → Prop
  | .onDataChange i => ∀ attempt account, s.attempts[i]? = some attempt →
      authenticate attempt.form = some account → ∃ type, typeOf db account = some type
  | _ => True

/-- The lookup answered was for an account that has a type, the type of the attempt's
own account where that is one of the two, and the own account is the one signed in. -/
def LooksUpOwn (s : LogInState) : LogInEvent → Prop
  | .onDataChange i => ∀ attempt account looked, s.attempts[i]? = some attempt →
      authenticate attempt.form = some account → attempt.lookup = some looked →
      s.currentUser = some account ∧ ∃ type, typeOf db looked = some type ∧
        (typeOf db account = some Role.user.type → type = Role.user.type) ∧
        (typeOf db account = some Role.company.type → type ≠ Role.user.type)
  | _ => True

variable {db authenticate} {s : LogInState}

/-- **The invariant.**  Only an attempt that succeeded has looked up a type, and none
has opened a screen before its lookup is answered. -/
def AttemptsRight (authenticate : LogInForm → Option Uid) (s : LogInState) : Prop :=
  ∀ attempt ∈ s.attempts,
    (attempt.answer = some true → ∃ account, authenticate attempt.form = some account) ∧
    (attempt.lookup ≠ none → attempt.answer = some true) ∧
    (attempt.answered = false → attempt.opened = [])

/-- **One step.** -/
theorem AttemptsRight.next (h : AttemptsRight authenticate s) (e : LogInEvent)
    (he : s.Enabled authenticate e) : AttemptsRight authenticate (s.next db authenticate e) := by
  intro x hx
  cases LogInState.came_next he x hx with
  | kept hmem => exact h x hmem
  | started _ => exact ⟨nofun, fun hne => absurd rfl hne, fun _ => rfl⟩
  | @succeeded i attempt account hi haccount =>
    obtain ⟨-, -, hopened⟩ := h attempt (List.mem_of_getElem? hi)
    exact ⟨fun _ => ⟨account, haccount⟩, fun _ => rfl, hopened⟩
  | @failed i attempt hi hnone =>
    obtain ⟨-, hlookup, hopened⟩ := h attempt (List.mem_of_getElem? hi)
    refine ⟨nofun, ?_, hopened⟩
    intro hne
    rw [hlookup hne] at hnone
    cases hnone
  | @looksUp i attempt user hi hanswer =>
    obtain ⟨haccount, -, hopened⟩ := h attempt (List.mem_of_getElem? hi)
    exact ⟨haccount, fun _ => hanswer, hopened⟩
  | @refused i attempt hi =>
    obtain ⟨haccount, hlookup, hopened⟩ := h attempt (List.mem_of_getElem? hi)
    exact ⟨haccount, hlookup, hopened⟩
  | @opens i attempt looked screen hi =>
    obtain ⟨haccount, hlookup, -⟩ := h attempt (List.mem_of_getElem? hi)
    exact ⟨haccount, hlookup, nofun⟩
  | @stopped attempt hmem =>
    obtain ⟨haccount, hlookup, hopened⟩ := h attempt hmem
    unfold Attempt.stop
    split
    · exact ⟨haccount, hlookup, hopened⟩
    · exact ⟨haccount, hlookup, hopened⟩

/-- What an answered lookup opens. -/
theorem opened_onDataChange {i : Nat} {attempt : Attempt} {looked : Uid} {screen : Screen}
    (hi : s.attempts[i]? = some attempt) (hlook : attempt.lookup = some looked)
    (hopened : attempt.opened = []) :
    (s.next db authenticate (.onDataChange i)).attempts[i]?.map Attempt.opened = some [screen] ↔
      LogInActivity.onDataChange (typeNode db looked) = .ok screen := by
  simp only [LogInState.next, hi, LogInState.onDataChange, hlook]
  cases LogInActivity.onDataChange (typeNode db looked) with
  | error e => simp [LogInState.ended]
  | ok screen' =>
    have hlt : i < s.attempts.length := (List.getElem?_eq_some_iff.1 hi).1
    simp [LogInState.set, hlt, hopened]

/-- **One answer at a time.**  Whatever has happened before, an attempt opens its own account's
screen exactly if it has looked up an account of that type and its own is signed in. -/
theorem opensOwn_iff {currentUser : Option Uid} {tr : List (LogInState × LogInEvent)}
    (h : Trace (logIns db authenticate currentUser) tr s) :
    Meets (OpensOwn db authenticate) tr ↔ Meets (LooksUpOwn db authenticate) tr := by
  refine h.meets_iff (I := AttemptsRight authenticate) (fun _ hmem => absurd hmem List.not_mem_nil)
    (fun s e hs he => hs.next e he) ?_
  intro s e hs he
  cases e with
  | onDataChange i =>
    obtain ⟨attempt, looked, hi, hlook, hanswered⟩ := he
    obtain ⟨hanswer, hlookup, hopened⟩ := hs attempt (List.mem_of_getElem? hi)
    constructor
    · intro hopens attempt' account looked' hi' haccount hlook'
      obtain rfl := Option.some.inj (hi.symm.trans hi')
      obtain rfl := Option.some.inj (hlook.symm.trans hlook')
      obtain ⟨account', screen, haccount', hcurrent, hscreen, huser, hcompany⟩ := hopens _ hi
      obtain rfl := Option.some.inj (haccount.symm.trans haccount')
      rw [opened_onDataChange hi hlook (hopened hanswered), onDataChange_typeNode] at hscreen
      obtain ⟨type, htype, rfl⟩ := hscreen
      exact ⟨hcurrent, type, htype, fun hown => LogInActivity.screenFor_user.1 (huser hown),
        fun hown => LogInActivity.screenFor_company.1 (hcompany hown)⟩
    · intro hown attempt' hi'
      obtain rfl := Option.some.inj (hi.symm.trans hi')
      have hasked : attempt.lookup ≠ none := by simp [hlook]
      obtain ⟨account, haccount⟩ := hanswer (hlookup hasked)
      obtain ⟨hcurrent, type, htype, huser, hcompany⟩ := hown _ account looked hi haccount hlook
      refine ⟨account, LogInActivity.screenFor type, haccount, hcurrent, ?_,
        fun hown' => LogInActivity.screenFor_user.2 (huser hown'),
        fun hown' => LogInActivity.screenFor_company.2 (hcompany hown')⟩
      rw [opened_onDataChange hi hlook (hopened hanswered), onDataChange_typeNode]
      exact ⟨type, htype, rfl⟩
  | _ => exact Iff.rfl

/-- What holds of an attempt while sign-ins keep out of each other's way: it has looked up
no account but its own, and its own is signed in as long as it is under way. -/
structure Attempt.Own (authenticate : LogInForm → Option Uid) (currentUser : Option Uid)
    (attempt : Attempt) : Prop where
  asked : attempt.lookup ≠ none → attempt.listener = .called
  answered : attempt.answered = true → attempt.listener = .called
  lookup : ∀ looked, attempt.lookup = some looked → authenticate attempt.form = some looked
  signedIn : attempt.UnderWay → currentUser = authenticate attempt.form

section Steps

variable {currentUser : Option Uid} {attempt : Attempt}

/-- Another sign-in for the same account. -/
theorem Attempt.Own.signIn (h : attempt.Own authenticate currentUser) {account : Uid}
    (hsame : attempt.UnderWay → authenticate attempt.form = some account) :
    attempt.Own authenticate (some account) where
  asked := h.asked
  answered := h.answered
  lookup := h.lookup
  signedIn hway := (hsame hway).symm

/-- The service answers; after a success the account of the attempt is signed in. -/
theorem Attempt.Own.answer (h : attempt.Own authenticate currentUser) {ok : Bool}
    {user : Option Uid} (hok : ok = true → user = authenticate attempt.form) :
    Attempt.Own authenticate user { attempt with answer := some ok } where
  asked := h.asked
  answered := h.answered
  lookup := h.lookup
  signedIn hway := hok (Option.some.inj hway.1)

/-- The completion listener looks up the account signed in, which is the attempt's own. -/
theorem Attempt.Own.looksUp {user : Uid} (h : attempt.Own authenticate (some user))
    (hanswer : attempt.answer = some true) (hattached : attempt.listener = .attached) :
    Attempt.Own authenticate (some user)
      { attempt with listener := .called, lookup := some user } := by
  have hanswered : attempt.answered = false := by
    refine Bool.eq_false_iff.2 fun hanswered => ?_
    have hcalled := h.answered hanswered
    rw [hattached] at hcalled
    cases hcalled
  have hown : some user = authenticate attempt.form :=
    h.signedIn ⟨hanswer, by simp [hattached], hanswered⟩
  constructor
  · exact fun _ => rfl
  · exact fun _ => rfl
  · rintro looked ⟨⟩
    exact hown.symm
  · exact fun _ => hown

/-- The completion listener of an attempt that failed. -/
theorem Attempt.Own.refused (h : attempt.Own authenticate currentUser)
    (hanswer : attempt.answer ≠ some true) :
    Attempt.Own authenticate currentUser { attempt with listener := .called } where
  asked _ := rfl
  answered _ := rfl
  lookup := h.lookup
  signedIn hway := absurd hway.1 hanswer

/-- The lookup is answered, and the attempt is no longer under way. -/
theorem Attempt.Own.opens (h : attempt.Own authenticate currentUser)
    (hlookup : attempt.lookup ≠ none) (opened : List Screen) :
    Attempt.Own authenticate currentUser { attempt with answered := true, opened := opened } where
  asked := h.asked
  answered _ := h.asked hlookup
  lookup := h.lookup
  signedIn hway := absurd hway.2.2 (by simp)

/-- `LogInActivity` stops: a listener that waits is dropped. -/
theorem Attempt.Own.stop (h : attempt.Own authenticate currentUser) :
    attempt.stop.Own authenticate currentUser := by
  unfold Attempt.stop
  split
  · next hattached =>
    have hnot : attempt.listener ≠ .called := by simp [hattached]
    constructor
    · exact fun hasked => absurd (h.asked hasked) hnot
    · exact fun hanswered => absurd (h.answered hanswered) hnot
    · exact h.lookup
    · exact fun hway => absurd rfl hway.2.1
  · exact h

/-- **The invariant** of sign-ins that keep out of each other's way. -/
def OwnAttempts (authenticate : LogInForm → Option Uid) (s : LogInState) : Prop :=
  ∀ attempt ∈ s.attempts, attempt.Own authenticate s.currentUser

/-- **One such step.** -/
theorem OwnAttempts.next (h : OwnAttempts authenticate s) (e : LogInEvent)
    (he : s.Enabled authenticate e) (halone : SignsInAlone authenticate s e) :
    OwnAttempts authenticate (s.next db authenticate e) := by
  have hkept : ∀ attempt ∈ s.attempts,
      attempt.Own authenticate (s.next db authenticate e).currentUser := by
    intro attempt hattempt
    cases e with
    | succeed i =>
      obtain ⟨own, account, hi, -, haccount⟩ := he
      rw [LogInState.next_succeed hi haccount]
      refine (h attempt hattempt).signIn fun hway => ?_
      rw [halone own hi attempt hattempt hway, haccount]
    | _ =>
      rw [LogInState.next_currentUser]
      · exact h attempt hattempt
      · rintro i ⟨⟩
  have hown : ∀ {i attempt}, s.attempts[i]? = some attempt → _ :=
    fun hi => hkept _ (List.mem_of_getElem? hi)
  intro x hx
  cases LogInState.came_next he x hx with
  | kept hmem => exact hkept x hmem
  | started _ =>
    refine ⟨fun hne => absurd rfl hne, nofun, nofun, ?_⟩
    rintro ⟨hanswer, -⟩
    cases hanswer
  | succeeded hi haccount =>
    exact (hown hi).answer fun _ => (LogInState.next_succeed hi haccount).trans haccount.symm
  | failed hi _ => exact (hown hi).answer fun hok => absurd hok (by decide)
  | @looksUp i attempt user hi hanswer hattached huser =>
    have hsame : (s.next db authenticate (.onComplete i)).currentUser = some user := by
      rw [LogInState.next_currentUser, huser]
      rintro i ⟨⟩
    have hattempt := hown hi
    rw [hsame] at hattempt ⊢
    exact hattempt.looksUp hanswer hattached
  | refused hi hanswer _ => exact (hown hi).refused hanswer
  | opens hi hlookup _ _ => exact (hown hi).opens (by simp [hlookup]) _
  | stopped hmem => exact (hkept _ hmem).stop

end Steps

/-- In a run of such sign-ins an answer comes for the attempt's own account, which is signed
in. -/
theorem looksUpOwn_iff_typeStored {currentUser : Option Uid}
    {tr : List (LogInState × LogInEvent)} (h : Trace (logIns db authenticate currentUser) tr s)
    (halone : Meets (SignsInAlone authenticate) tr) :
    Meets (LooksUpOwn db authenticate) tr ↔ Meets (TypeStored db authenticate) tr := by
  refine h.meets_iff_of_meets
    (I := fun s => AttemptsRight authenticate s ∧ OwnAttempts authenticate s) ?_ ?_ ?_ halone
  · exact ⟨fun _ hmem => absurd hmem List.not_mem_nil, fun _ hmem => absurd hmem List.not_mem_nil⟩
  · exact fun s e hs he halone => ⟨hs.1.next e he, hs.2.next e he halone⟩
  intro s e ⟨hright, hown⟩ he halone
  cases e with
  | onDataChange i =>
    obtain ⟨attempt, looked, hi, hlook, hanswered⟩ := he
    have hmem := List.mem_of_getElem? hi
    have hasked : attempt.lookup ≠ none := by simp [hlook]
    have haccount := (hown attempt hmem).lookup looked hlook
    have hlistener : attempt.listener ≠ .dropped := by simp [(hown attempt hmem).asked hasked]
    have hsigned : s.currentUser = some looked :=
      ((hown attempt hmem).signedIn ⟨(hright attempt hmem).2.1 hasked, hlistener, hanswered⟩).trans
        haccount
    constructor
    · intro hlooks attempt' account hi' haccount'
      obtain rfl := Option.some.inj (hi.symm.trans hi')
      obtain rfl := Option.some.inj (haccount.symm.trans haccount')
      obtain ⟨-, type, htype, -⟩ := hlooks attempt looked looked hi haccount hlook
      exact ⟨type, htype⟩
    · intro hstored attempt' account looked' hi' haccount' hlook'
      obtain rfl := Option.some.inj (hi.symm.trans hi')
      obtain rfl := Option.some.inj (haccount.symm.trans haccount')
      obtain rfl := Option.some.inj (hlook.symm.trans hlook')
      obtain ⟨type, htype⟩ := hstored attempt looked hi haccount
      refine ⟨hsigned, type, htype, ?_, ?_⟩
      · intro huser
        exact Option.some.inj (htype.symm.trans huser)
      · intro hcompany
        obtain rfl := Option.some.inj (htype.symm.trans hcompany)
        decide
  | _ => exact Iff.rfl

/-- **Each attempt opens its own account's screen**, as long as no other account signs in while
it is under way, exactly if each account that is looked up has a type. -/
theorem opensOwn_iff_typeStored {currentUser : Option Uid}
    {tr : List (LogInState × LogInEvent)} (h : Trace (logIns db authenticate currentUser) tr s)
    (halone : Meets (SignsInAlone authenticate) tr) :
    Meets (OpensOwn db authenticate) tr ↔ Meets (TypeStored db authenticate) tr :=
  (opensOwn_iff h).trans (looksUpOwn_iff_typeStored h halone)

end Own

/-! Two accounts that sign in on one device. -/

/-- The types of a person and of a company. -/
def twoTypes : Database Int :=
  (Registration.typeWrite .company acme).apply ((Registration.typeWrite .user ann).apply none)

/-- Each signs in with her name. -/
def byName (form : LogInForm) : Option Uid :=
  if form.etEmail = "ann@example" then some ann
  else if form.etEmail = "acme@example" then some acme
  else none

/-- One attempt. -/
def annLogsIn : List LogInEvent :=
  [.signUserIn ⟨"ann@example", "secret"⟩, .succeed 0, .onComplete 0, .onDataChange 0]

theorem annLogsIn_runs :
    Runs (logIns twoTypes byName none) (logIns twoTypes byName none).start annLogsIn :=
  ⟨trivial, ⟨_, ann, rfl, rfl, rfl⟩, ⟨_, rfl, nofun, rfl⟩, ⟨_, ann, rfl, rfl, rfl⟩, trivial⟩

theorem opensOwn_annLogsIn : Meets (OpensOwn twoTypes byName)
    (steps (logIns twoTypes byName none) (logIns twoTypes byName none).start annLogsIn) := by
  have halone : Meets (SignsInAlone byName)
      (steps (logIns twoTypes byName none) (logIns twoTypes byName none).start annLogsIn) := by
    simp only [annLogsIn, meets_steps_cons, meets_steps_nil, and_true]
    refine ⟨trivial, ?_, trivial, trivial⟩
    rintro attempt ⟨⟩ other hother hway
    obtain rfl := List.mem_singleton.1 hother
    rfl
  refine (opensOwn_iff_typeStored (Trace.of_events annLogsIn_runs) halone).2 ?_
  simp only [annLogsIn, meets_steps_cons, meets_steps_nil, and_true]
  refine ⟨trivial, trivial, trivial, ?_⟩
  rintro attempt account ⟨⟩ ⟨⟩
  exact ⟨Role.user.type, rfl⟩

/-- The second attempt succeeds before the first one's listener runs. -/
def overlapping : List LogInEvent :=
  [.signUserIn ⟨"ann@example", "secret"⟩, .signUserIn ⟨"acme@example", "secret"⟩, .succeed 0,
    .succeed 1, .onComplete 0, .onDataChange 0]

theorem overlapping_runs :
    Runs (logIns twoTypes byName none) (logIns twoTypes byName none).start overlapping :=
  ⟨trivial, trivial, ⟨_, ann, rfl, rfl, rfl⟩, ⟨_, acme, rfl, rfl, rfl⟩, ⟨_, rfl, nofun, rfl⟩,
    ⟨_, acme, rfl, rfl, rfl⟩, trivial⟩

/-- The person's attempt opens the company's screen. -/
theorem not_opensOwn_overlapping : ¬ ∀ tr s, Trace (logIns twoTypes byName none) tr s →
    Meets (OpensOwn twoTypes byName) tr := by
  intro h
  have hopens := h _ _ (Trace.of_events overlapping_runs) _
    (mem_steps overlapping.dropLast (.onDataChange 0) [] _)
  obtain ⟨account, screen, ⟨⟩, hcurrent, -⟩ := hopens _ rfl
  exact absurd hcurrent (by decide)

end Partimer
