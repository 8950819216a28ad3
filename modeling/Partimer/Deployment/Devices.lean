import Partimer.Accounts.Profiles
import Partimer.Jobs.Independence
import Partimer.Lib.Simulation
import Partimer.Screens.EmployeeMap
import Partimer.Screens.WelcomeCompany

/-!
# The whole deployment

Any number of devices run the app against one database and one authentication service.  On
each of them accounts are registered and sign in and out, companies post jobs, and people
look at the map and at `Welcome`; a process keeps its static lists and the writes that the
server has not applied yet, and loses both when it ends.

* `Deployment`, `DeviceEvent`, `deployment` — the accounts and outboxes of `registrations`,
  and on every device the process of `session`; an exception anywhere ends the process.
* `Deployment.next_screen`, `Deployment.next_createJob`, … — what each event can do.
* `session_simulation`, `session_of_trace` — **what one device sees is a run of `session`**:
  all that happens elsewhere are writes to the database.
-/

namespace Partimer

open KeyTree CreateJobCompany Transition

variable {C : Type}

/-! ## Devices -/

/-- What happens on a screen opened from the map. -/
inductive ScreenEvent (C : Type) where
  /-- `EmployeeMapActivity` is created. -/
  | openMap
  /-- The server answers the `i`th outstanding read of `Jobs`. -/
  | answerJobs (i : Nat) (dataSnapshot : DataSnapshot C)
  /-- Its listener is called. -/
  | deliverJobs (i : Nat)
  /-- The server answers the `i`th outstanding read of a profile. -/
  | answerProfile (i : Nat)
  /-- Its listener is called. -/
  | deliverProfile (i : Nat)
  /-- `Welcome` is opened from a map screen. -/
  | openWelcome

/-- The event of `session` that it is. -/
def ScreenEvent.session : ScreenEvent C → SessionEvent C
  | .openMap => .openMap
  | .answerJobs i dataSnapshot => .answerJobs i dataSnapshot
  | .deliverJobs i => .deliverJobs i
  | .answerProfile i => .answerProfile i
  | .deliverProfile i => .deliverProfile i
  | .openWelcome => .openWelcome

/-- What happens on a device. -/
inductive DeviceEvent (C : Type) where
  /-- A registration goes on, an account signs in or out, the process ends, or the server
  applies the oldest write that waits on the device. -/
  | account (e : RegEvent)
  /-- `createJobbtn` is pressed on a `CreateJobCompany` that holds this form. -/
  | createJob (form : JobForm)
  | screen (e : ScreenEvent C)

/-- The database, the authentication service and all devices, and on each device what its
process holds. -/
structure Deployment (C : Type) where
  reg : RegState C
  processes : Nat → Process C

/-- An event of `session` ends the process. -/
def Session.ends (P : Platform C) (s : Session C) : SessionEvent C → Bool
  | .openMap => !(getUid s.currentUser).isOk
  | .deliverJobs i =>
    match s.process.jobsRequests[i]? with
    | some (some dataSnapshot) =>
      !((EmployeeMapActivity.onCreateJobs P dataSnapshot).run s.process.lists).1.isOk
    | _ => false
  | .deliverProfile i =>
    match s.process.profileRequests[i]? with
    | some (_, some dataSnapshot) =>
      !((EmployeeMapActivity.onCreateProfile dataSnapshot).run s.process.userDetails).1.isOk
    | _ => false
  | .openWelcome => !(Welcome.onCreate s.process.userDetails s.currentUser).isOk
  | .killed => true
  | _ => false

namespace Deployment

variable (P : Platform C) (s : Deployment C)

/-- What a device sees. -/
def view (s : Deployment C) (c : Nat) : Session C :=
  ⟨s.reg.db, (s.reg.clients c).currentUser, s.processes c⟩

/-- The process of the device is now `p`. -/
def setProcess (s : Deployment C) (c : Nat) (p : Process C) : Deployment C :=
  { s with processes := Function.update s.processes c p }

/-- The process of a device ends. -/
def kill (s : Deployment C) (c : Nat) : Deployment C :=
  { (s.setProcess c .fresh) with reg := s.reg.update c (s.reg.clients c).killed }

/-- `addJobLocation` on a device; its writes wait behind those issued before. -/
def createJob (s : Deployment C) (c : Nat) (form : JobForm) : Deployment C :=
  match (addJobLocation P (s.reg.clients c).currentUser form).run (s.reg.clients c).outbox with
  | (.ok _, outbox) => { s with reg := s.reg.update c { s.reg.clients c with outbox := outbox } }
  | (.error (.refused _ _), _) => s
  | (.error (.thrown _), _) => s.kill c

/-- When each event can happen. -/
def Enabled (s : Deployment C) (c : Nat) : DeviceEvent C → Prop
  | .account e => s.reg.Enabled c e
  | .createJob _ => True
  | .screen e => (s.view c).Enabled e.session

/-- The event ends the process of its device. -/
def ends (s : Deployment C) (c : Nat) : DeviceEvent C → Bool
  | .account e => s.reg.ends c e
  | .createJob form =>
    match ((addJobLocation P (s.reg.clients c).currentUser form).run
      (s.reg.clients c).outbox).1 with
    | .error (.thrown _) => true
    | _ => false
  | .screen e => (s.view c).ends P e.session

/-- What each event does. -/
def next (s : Deployment C) (c : Nat) : DeviceEvent C → Deployment C
  | .account e =>
    if s.reg.ends c e then { (s.setProcess c .fresh) with reg := s.reg.next c e }
    else { s with reg := s.reg.next c e }
  | .createJob form => s.createJob P c form
  | .screen e =>
    if (s.view c).ends P e.session then s.kill c
    else s.setProcess c ((s.view c).next P e.session).process

end Deployment

/-- The deployment, from an empty database without accounts. -/
def deployment (P : Platform C) : System (Deployment C) (Nat × DeviceEvent C) where
  start := ⟨(registrations C).start, fun _ => .fresh⟩
  Enabled s e := s.Enabled e.1 e.2
  next s e := s.next P e.1 e.2

variable {P : Platform C} {s : Deployment C}

/-! ## What each event can do -/

@[simp] theorem RegState.update_clients_self (r : RegState C) (c : Nat) (client : Client C) :
    (r.update c client).clients c = client := Function.update_self ..

theorem RegState.update_clients_ne {c c' : Nat} (h : c' ≠ c) (r : RegState C)
    (client : Client C) : (r.update c client).clients c' = r.clients c' :=
  Function.update_of_ne h ..

@[simp] theorem RegState.update_db (r : RegState C) (c : Nat) (client : Client C) :
    (r.update c client).db = r.db := rfl

/-- A registration event changes no device but its own. -/
theorem RegState.next_clients_ne {c c' : Nat} (h : c' ≠ c) (r : RegState C) (e : RegEvent) :
    (r.next c e).clients c' = r.clients c' := by
  have hupdate : ∀ client, (r.update c client).clients c' = r.clients c' :=
    RegState.update_clients_ne h r
  cases e with
  | created j account | failed j | onComplete j =>
    simp only [RegState.next]
    split
    · rfl
    · exact hupdate _
  | send =>
    simp only [RegState.next]
    split
    · rfl
    · exact hupdate _
  | _ => exact hupdate _

/-- The listener of a request leaves the account signed in. -/
theorem Client.onComplete_currentUser (client : Client C) (j : Nat) (sub : Submission) :
    (client.onComplete j sub).currentUser = client.currentUser := by
  unfold Client.onComplete
  dsimp only
  split
  · split <;> rfl
  · rfl

/-- The account signed in on a device changes when one signs in or out on it. -/
theorem RegState.next_currentUser (r : RegState C) (c : Nat) (e : RegEvent) :
    ((r.next c e).clients c).currentUser = (r.clients c).currentUser ∨
      (∃ account, (e = .signIn account ∨ ∃ j, e = .created j account) ∧
        ((r.next c e).clients c).currentUser = some account) ∨
      e = .signOut ∧ ((r.next c e).clients c).currentUser = none := by
  cases e with
  | created j account =>
    simp only [RegState.next]
    split
    · exact Or.inl rfl
    · next sub _ =>
      simp only [RegState.update_clients_self, Client.created]
      split
      · exact Or.inl rfl
      · exact Or.inr (Or.inl ⟨account, Or.inr ⟨j, rfl⟩, rfl⟩)
  | onComplete j =>
    simp only [RegState.next]
    split
    · exact Or.inl rfl
    · rw [RegState.update_clients_self, Client.onComplete_currentUser]
      exact Or.inl rfl
  | failed j =>
    simp only [RegState.next]
    split
    · exact Or.inl rfl
    · exact Or.inl (by simp [Client.set])
  | createUserAccount i =>
    simp only [RegState.next, RegState.update_clients_self, Client.createUserAccount]
    split
    · exact Or.inl rfl
    · split <;> exact Or.inl rfl
  | send =>
    simp only [RegState.next]
    split
    · exact Or.inl rfl
    · exact Or.inl (by simp)
  | signIn account => exact Or.inr (Or.inl ⟨account, Or.inl rfl, by simp [RegState.next]⟩)
  | signOut => exact Or.inr (Or.inr ⟨rfl, by simp [RegState.next]⟩)
  | _ => exact Or.inl (by simp [RegState.next, Client.killed])

/-- The end of a process leaves the account signed in. -/
theorem RegState.currentUser_of_ends {r : RegState C} {c : Nat} {e : RegEvent}
    (h : r.ends c e = true) :
    ((r.next c e).clients c).currentUser = (r.clients c).currentUser := by
  cases e with
  | kill => simp [RegState.next, Client.killed]
  | onComplete j =>
    simp only [RegState.next]
    split
    · rfl
    · rw [RegState.update_clients_self, Client.onComplete_currentUser]
  | _ => cases h

namespace Deployment

@[simp] theorem setProcess_reg (c : Nat) (p : Process C) : (s.setProcess c p).reg = s.reg := rfl

@[simp] theorem setProcess_self (c : Nat) (p : Process C) : (s.setProcess c p).processes c = p :=
  Function.update_self ..

theorem setProcess_ne {c c' : Nat} (h : c' ≠ c) (p : Process C) :
    (s.setProcess c p).processes c' = s.processes c' := Function.update_of_ne h ..

/-- A device sees nothing of what happens in the process of another. -/
theorem view_setProcess_ne {c c' : Nat} (h : c' ≠ c) (p : Process C) :
    (s.setProcess c p).view c' = s.view c' := by
  simp only [view, setProcess_reg, setProcess_ne h]

theorem view_kill_ne {c c' : Nat} (h : c' ≠ c) : (s.kill c).view c' = s.view c' := by
  simp only [view, kill, setProcess_ne h, RegState.update_db, RegState.update_clients_ne h]

/-- Its own process is fresh after an end. -/
theorem view_kill_self (c : Nat) :
    (s.kill c).view c = { s.view c with process := .fresh } := by
  simp [view, kill, Client.killed]

end Deployment

/-- A screen event changes the process alone. -/
theorem ScreenEvent.next_session (e : ScreenEvent C) (t : Session C) :
    t.next P e.session = { t with process := (t.next P e.session).process } := by
  cases e with
  | deliverJobs i | answerProfile i | deliverProfile i =>
    simp only [ScreenEvent.session, Session.next]
    split <;> rfl
  | _ => rfl

/-- One that ends it leaves a fresh one. -/
theorem Session.next_of_ends {t : Session C} {e : ScreenEvent C}
    (h : t.ends P e.session = true) : (t.next P e.session).process = .fresh := by
  cases e with
  | openMap =>
    simp only [ScreenEvent.session, Session.ends] at h
    simp only [ScreenEvent.session, Session.next, Session.openMap]
    cases hu : getUid t.currentUser with
    | error e => rfl
    | ok u => simp [hu, Except.isOk, Except.toBool] at h
  | deliverJobs i =>
    simp only [ScreenEvent.session, Session.ends] at h
    simp only [ScreenEvent.session, Session.next]
    rcases hi : t.process.jobsRequests[i]? with _ | _ | dataSnapshot
    · simp [hi] at h
    · simp [hi] at h
    · simp only [hi] at h ⊢
      unfold Session.deliverJobs
      rcases hrun : (EmployeeMapActivity.onCreateJobs P dataSnapshot).run t.process.lists
        with ⟨_ | _, lists⟩
      · rfl
      · simp [hrun, Except.isOk, Except.toBool] at h
  | deliverProfile i =>
    simp only [ScreenEvent.session, Session.ends] at h
    simp only [ScreenEvent.session, Session.next]
    rcases hi : t.process.profileRequests[i]? with _ | ⟨account, _ | dataSnapshot⟩
    · simp [hi] at h
    · simp [hi] at h
    · simp only [hi] at h ⊢
      unfold Session.deliverProfile
      rcases hrun : (EmployeeMapActivity.onCreateProfile dataSnapshot).run
        t.process.userDetails with ⟨_ | _, userDetails⟩
      · rfl
      · simp [hrun, Except.isOk, Except.toBool] at h
  | openWelcome =>
    simp only [ScreenEvent.session, Session.ends] at h
    simp only [ScreenEvent.session, Session.next, Session.openWelcome]
    cases ho : Welcome.onCreate t.process.userDetails t.currentUser with
    | error e => rfl
    | ok p => simp [ho, Except.isOk, Except.toBool] at h
  | answerJobs i dataSnapshot => cases h
  | answerProfile i => cases h

namespace Deployment

/-- **A screen event**, as the device sees it: the event of `session` that it is. -/
theorem view_next_screen (c : Nat) (e : ScreenEvent C) :
    (s.next P c (.screen e)).view c = (s.view c).next P e.session := by
  simp only [next]
  rw [ScreenEvent.next_session]
  split
  · next hends => rw [view_kill_self, Session.next_of_ends hends]
  · simp [view]

/-- A registration event does to the accounts what it does in `registrations`. -/
theorem reg_next_account (c : Nat) (e : RegEvent) :
    (s.next P c (.account e)).reg = s.reg.next c e := by
  simp only [next]
  split <;> rfl

/-- A screen event leaves the database and the accounts. -/
theorem reg_next_screen (c : Nat) (e : ScreenEvent C) :
    (s.next P c (.screen e)).reg = s.reg ∨
      (s.next P c (.screen e)).reg = s.reg.update c (s.reg.clients c).killed := by
  simp only [next]
  split
  · exact Or.inr rfl
  · exact Or.inl rfl

/-- **Posting a job**: the writes wait behind those issued before, or nothing happens, or
the process ends. -/
theorem next_createJob (c : Nat) (form : JobForm) :
    (∃ company location, (s.reg.clients c).currentUser = some company ∧
      checkFormFields form = .ok () ∧ validPath form.etPos = true ∧
      ReadsLocation P form location ∧ s.ends P c (.createJob form) = false ∧
      s.next P c (.createJob form) = { s with reg := s.reg.update c { s.reg.clients c with
        outbox := (s.reg.clients c).outbox ++ [locationWrite P company form.etPos location,
          detailsWrite company form.etPos form.etSal] } }) ∨
    (¬ (checkFormFields form = .ok () ∧ CanPost P (s.reg.clients c).currentUser form) ∧
      ((s.ends P c (.createJob form) = false ∧ s.next P c (.createJob form) = s) ∨
      (s.ends P c (.createJob form) = true ∧ s.next P c (.createJob form) = s.kill c))) := by
  simp only [next, createJob, ends]
  rcases addJobLocation_run P (s.reg.clients c).currentUser form (s.reg.clients c).outbox with
    ⟨company, location, huser, hfilled, hpath, hreads, hrun⟩ | ⟨field, error, hrefused, hrun⟩ |
    ⟨exn, -, hcannot, hrun⟩
  · rw [hrun]
    exact Or.inl ⟨company, location, huser, hfilled, hpath, hreads, rfl, rfl⟩
  · rw [hrun]
    refine Or.inr ⟨?_, Or.inl ⟨rfl, rfl⟩⟩
    rintro ⟨hfilled, -⟩
    cases hrefused.symm.trans hfilled
  · rw [hrun]
    exact Or.inr ⟨fun h => hcannot h.2, Or.inr ⟨rfl, rfl⟩⟩

/-- What an event makes of a process: a fresh one, or what the screens of its device do. -/
theorem processes_next (c c' : Nat) (e : DeviceEvent C) :
    (s.next P c e).processes c' = .fresh ∨ (s.next P c e).processes c' = s.processes c' ∨
      ∃ e' : ScreenEvent C, c' = c ∧ e = .screen e' ∧
        (s.next P c e).processes c' = ((s.view c).next P e'.session).process := by
  have hset : ∀ p, (s.setProcess c p).processes c' = s.processes c' ∨
      c' = c ∧ (s.setProcess c p).processes c' = p := by
    intro p
    by_cases hc : c' = c
    · subst hc
      exact Or.inr ⟨rfl, setProcess_self c' p⟩
    · exact Or.inl (setProcess_ne hc p)
  have hfresh : (s.setProcess c .fresh).processes c' = .fresh ∨
      (s.setProcess c .fresh).processes c' = s.processes c' := by
    rcases hset .fresh with hsame | ⟨-, hself⟩
    · exact Or.inr hsame
    · exact Or.inl hself
  cases e with
  | account e =>
    simp only [next]
    split
    · exact hfresh.imp_right Or.inl
    · exact Or.inr (Or.inl rfl)
  | createJob form =>
    rcases next_createJob (P := P) (s := s) c form with
      ⟨company, location, -, -, -, -, -, hnext⟩ | ⟨-, ⟨-, hnext⟩ | ⟨-, hnext⟩⟩
    · rw [hnext]
      exact Or.inr (Or.inl rfl)
    · rw [hnext]
      exact Or.inr (Or.inl rfl)
    · rw [hnext]
      exact hfresh.imp_right Or.inl
  | screen e =>
    simp only [next]
    split
    · exact hfresh.imp_right Or.inl
    · rcases hset ((s.view c).next P e.session).process with hsame | ⟨rfl, hself⟩
      · exact Or.inr (Or.inl hsame)
      · exact Or.inr (Or.inr ⟨e, rfl, rfl, hself⟩)

end Deployment

/-! ## What one device sees -/

/-- The device `c` sees the session `t`. -/
def Sees (c : Nat) (s : Deployment C) (t : Session C) : Prop := s.view c = t

/-- An event of the registrations on the device itself: its process ends, a write is
applied, an account signs in or out, or it sees nothing of it. -/
theorem sees_next_account (c : Nat) (e : RegEvent) (he : s.reg.Enabled c e) :
    Matched (session P) (Sees c) (s.next P c (.account e)) (s.view c) := by
  by_cases hends : s.reg.ends c e = true
  · have hsend : e ≠ .send := by
      rintro rfl
      cases hends
    refine .one (f := .killed) trivial ?_
    simp only [Sees, Deployment.next, hends, if_true, Deployment.view,
      RegState.currentUser_of_ends hends, RegState.next_db hsend, Deployment.setProcess_self]
    rfl
  · have hview : (s.next P c (.account e)).view c = ⟨(s.reg.next c e).db,
        ((s.reg.next c e).clients c).currentUser, s.processes c⟩ := by
      simp only [Deployment.next, if_neg hends, Deployment.view]
    by_cases hsend : e = .send
    · subst hsend
      obtain ⟨w, ws, hout⟩ := List.exists_cons_of_ne_nil he
      refine .one (f := .write w) trivial ?_
      rw [Sees, hview]
      simp only [RegState.next, hout, RegState.update_clients_self]
      rfl
    · rw [RegState.next_db hsend] at hview
      rcases s.reg.next_currentUser c e with hsame | ⟨account, -, hin⟩ | ⟨-, hout⟩
      · refine .none ?_
        rw [Sees, hview, hsame]
        rfl
      · refine .one (f := .signIn account) trivial ?_
        rw [Sees, hview, hin]
        rfl
      · refine .one (f := .signOut) trivial ?_
        rw [Sees, hview, hout]
        rfl

/-- An event of the registrations on another device: a write is applied, or nothing. -/
theorem sees_next_account_ne {c c' : Nat} (h : c ≠ c') (e : RegEvent)
    (he : s.reg.Enabled c' e) :
    Matched (session P) (Sees c) (s.next P c' (.account e)) (s.view c) := by
  have hview : (s.next P c' (.account e)).view c = ⟨(s.reg.next c' e).db,
      (s.reg.clients c).currentUser, s.processes c⟩ := by
    simp only [Deployment.next]
    split
    · simp only [Deployment.view, RegState.next_clients_ne h, Deployment.setProcess_ne h]
    · simp only [Deployment.view, RegState.next_clients_ne h]
  by_cases hsend : e = .send
  · subst hsend
    obtain ⟨w, ws, hout⟩ := List.exists_cons_of_ne_nil he
    refine .one (f := .write w) trivial ?_
    rw [Sees, hview]
    simp only [RegState.next, hout]
    rfl
  · refine .none ?_
    rw [Sees, hview, RegState.next_db hsend]
    rfl

/-- **One step** of the deployment, as a device sees it. -/
theorem sees_next (c c' : Nat) (e : DeviceEvent C) (he : s.Enabled c' e) :
    Matched (session P) (Sees c) (s.next P c' e) (s.view c) := by
  by_cases hc : c = c'
  · subst hc
    cases e with
    | account e => exact sees_next_account c e he
    | createJob form =>
      rcases Deployment.next_createJob (P := P) (s := s) c form with
        ⟨company, location, -, -, -, -, -, hnext⟩ | ⟨-, ⟨-, hnext⟩ | ⟨-, hnext⟩⟩
      · rw [hnext]
        exact .none (by simp [Sees, Deployment.view])
      · rw [hnext]
        exact .none rfl
      · rw [hnext]
        exact .one (f := .killed) trivial (Deployment.view_kill_self c)
    | screen e => exact .one he (Deployment.view_next_screen c e)
  · cases e with
    | account e => exact sees_next_account_ne hc e he
    | createJob form =>
      rcases Deployment.next_createJob (P := P) (s := s) c' form with
        ⟨company, location, -, -, -, -, -, hnext⟩ | ⟨-, ⟨-, hnext⟩ | ⟨-, hnext⟩⟩
      · rw [hnext]
        exact .none (by simp [Sees, Deployment.view, RegState.update_clients_ne hc])
      · rw [hnext]
        exact .none rfl
      · rw [hnext]
        exact .none (Deployment.view_kill_ne hc)
    | screen e =>
      refine .none ?_
      simp only [Deployment.next]
      split
      · exact Deployment.view_kill_ne hc
      · exact Deployment.view_setProcess_ne hc _

/-- What a device sees changes as `session` does. -/
theorem session_simulation (P : Platform C) (c : Nat) :
    Simulation (deployment P) (session P) (Sees c) where
  start := rfl
  step s t e hrel he := by
    obtain rfl : s.view c = t := hrel
    exact sees_next c e.1 e.2 he

/-- **What one device sees is a run of `session`**, whatever happens on the others. -/
theorem session_of_trace {tr : List (Deployment C × Nat × DeviceEvent C)}
    (h : Trace (deployment P) tr s) (c : Nat) : ∃ tr', Trace (session P) tr' (s.view c) := by
  obtain ⟨tr', t, htrace, rfl⟩ := (session_simulation P c).trace h
  exact ⟨tr', htrace⟩

/-! A company and a person. -/

/-- An account is registered on a device, and its two writes are sent. -/
def registersOn (c : Nat) (role : Role) (account : Uid) (form : AccountForm) :
    List (Nat × DeviceEvent Int) :=
  [(c, .account (.openScreen role)), (c, .account (.edit 0 form)),
    (c, .account (.createUserAccount 0)), (c, .account (.created 0 account)),
    (c, .account (.onComplete 0)), (c, .account .send), (c, .account .send)]

/-- The company's form. -/
def marketForm : AccountForm := ⟨"acme@example", "secret", "Acme", "9", "Rome", "Italy"⟩

/-- A company registers and posts a job on one device; a person registers on another, and
looks at the map and at `Welcome`. -/
def marketDay : List (Nat × DeviceEvent Int) :=
  registersOn 0 .company acme marketForm ++
    [(0, .createJob ⟨"Cook", "10", "2", "2"⟩), (0, .account .send), (0, .account .send)] ++
    registersOn 1 .user ann annForm ++
    [(1, .screen .openMap), (1, .screen (.answerJobs 0 (jobsNode (cookPost.apply none)))),
      (1, .screen (.deliverJobs 0)), (1, .screen (.answerProfile 0)),
      (1, .screen (.deliverProfile 0)), (1, .screen .openWelcome)]

theorem marketDay_runs : Runs (deployment wholeDegrees) (deployment wholeDegrees).start
    marketDay := by
  refine ⟨trivial, ⟨_, rfl⟩, ⟨_, rfl⟩, ⟨_, rfl, rfl, nofun⟩, ⟨_, rfl, nofun, rfl⟩, nofun, nofun,
    trivial, nofun, nofun, trivial, ⟨_, rfl⟩, ⟨_, rfl⟩, ⟨_, rfl, rfl, by decide⟩,
    ⟨_, rfl, nofun, rfl⟩, nofun, nofun, trivial, ⟨rfl, .refl _⟩, ⟨_, rfl⟩, ⟨_, rfl⟩, ⟨_, _, rfl⟩,
    Nat.one_pos, trivial⟩

/-- The one job that is posted. -/
theorem posted_marketDay {c : Nat} {form : JobForm} (h : (c, .createJob form) ∈ marketDay) :
    c = 0 ∧ form = ⟨"Cook", "10", "2", "2"⟩ := by
  simpa [marketDay, registersOn] using h

theorem session_marketDay : ∃ tr', Trace (session wholeDegrees) tr'
    ((marketDay.foldl (deployment wholeDegrees).next (deployment wholeDegrees).start).view 1) :=
  session_of_trace (Trace.of_events marketDay_runs) 1

end Partimer
