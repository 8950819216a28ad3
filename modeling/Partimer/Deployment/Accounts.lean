import Partimer.Deployment.Devices

/-!
# The accounts within the deployment

Posting jobs and reading them goes on between the steps of the registrations, on the same
devices, through the same outboxes and against the same database.  None of it shows in what
the registrations do.

* `accountWrite`, `Client.accountPart` — the writes of registrations, and a device without
  the others.
* `SameAccounts` — the accounts, the devices and the two parts of the database that
  registrations write to are those of a state of `registrations`.
* `accounts_simulation`, `accounts_of_trace` — **a deployment registers as `registrations`
  does.**
-/

namespace Partimer

open KeyTree CreateJobCompany Registration Transition

variable {C : Type} {P : Platform C}

/-! ## The writes of the registrations -/

/-- A write that is no job. -/
def accountWrite (w : Write C) : Bool := w.path.head? ≠ some "Jobs"

/-- A device without the jobs that wait on it. -/
def Client.accountPart (client : Client C) : Client C :=
  { client with outbox := client.outbox.filter accountWrite }

theorem accountWrite_profileWrite (role : Role) (account : Uid) (form : AccountForm) :
    accountWrite (profileWrite role account form : Write C) = true := by
  simp [accountWrite, profileWrite]

theorem accountWrite_typeWrite (role : Role) (account : Uid) :
    accountWrite (typeWrite role account : Write C) = true := by
  simp [accountWrite, typeWrite]

/-- What stands under a key after a write depends on what stood there before. -/
theorem child_apply_congr {db db' : Database C} {k : String} (h : child db k = child db' k)
    (w : Write C) : child (w.apply db) k = child (w.apply db') k := by
  obtain ⟨path, value⟩ := w
  cases path with
  | nil => rfl
  | cons k' path =>
    by_cases hk : k' = k
    · subst hk
      simp only [Write.apply, child_store_self, h]
    · simp only [Write.apply, child_store_ne (Ne.symm hk), h]

/-- A job leaves what stands under another key than `Jobs`. -/
theorem child_apply_of_not_accountWrite {w : Write C} (hw : accountWrite w = false) {k : String}
    (hk : k ≠ "Jobs") (db : Database C) : child (w.apply db) k = child db k := by
  obtain ⟨path, value⟩ := w
  cases path with
  | nil => simp [accountWrite] at hw
  | cons k' path =>
    obtain rfl : k' = "Jobs" := by simpa [accountWrite] using hw
    exact child_store_ne hk path value db

/-! ## A device without its jobs -/

@[simp] theorem accountPart_currentUser (client : Client C) :
    client.accountPart.currentUser = client.currentUser := rfl

@[simp] theorem accountPart_screens (client : Client C) :
    client.accountPart.screens = client.screens := rfl

@[simp] theorem accountPart_submissions (client : Client C) :
    client.accountPart.submissions = client.submissions := rfl

theorem accountPart_createUserAccount (client : Client C) (i : Nat) :
    (client.createUserAccount i).accountPart = client.accountPart.createUserAccount i := by
  unfold Client.createUserAccount
  rw [accountPart_screens]
  cases client.screens[i]? with
  | none => rfl
  | some screen =>
    cases h : screen.role.checkFormFields screen.form with
    | error e => simp only [h]
    | ok _ =>
      simp only [h]
      rfl

theorem accountPart_killed (client : Client C) :
    client.killed.accountPart = client.accountPart.killed := rfl

/-- The listener of a request adds a profile and a type, which are no jobs. -/
theorem accountPart_onComplete (client : Client C) (j : Nat) (sub : Submission) :
    (client.onComplete j sub).accountPart = client.accountPart.onComplete j sub := by
  unfold Client.onComplete
  simp only [accountPart_screens, accountPart_currentUser]
  rcases hout : sub.outcome with _ | ⟨account⟩ | _
  · rfl
  · rcases hscreen : client.screens[sub.screen]? with _ | screen
    · rfl
    · simp only [Role.userProfile_eq]
      cases client.currentUser with
      | none => rfl
      | some user =>
        simp only [userProfile_run]
        simp [Client.accountPart, Client.set, accountWrite_profileWrite, accountWrite_typeWrite]
  · rfl

/-! ## The same accounts -/

/-- The accounts, the devices without their jobs, and what stands in the database outside of
the jobs are those of `r`. -/
structure SameAccounts (s r : RegState C) : Prop where
  accounts : r.accounts = s.accounts
  clients : ∀ c, r.clients c = (s.clients c).accountPart
  db : ∀ k, k ≠ "Jobs" → child r.db k = child s.db k

variable {s r : RegState C}

theorem SameAccounts.update (h : SameAccounts s r) (c : Nat) (client : Client C) :
    SameAccounts (s.update c client) (r.update c client.accountPart) where
  accounts := h.accounts
  clients c' := by
    by_cases hc : c' = c
    · subst hc
      simp
    · rw [RegState.update_clients_ne hc, RegState.update_clients_ne hc]
      exact h.clients c'
  db := h.db

/-- A change of the jobs that wait on a device. -/
theorem SameAccounts.jobs (h : SameAccounts s r) {c : Nat} {client : Client C}
    (hclient : client.accountPart = (s.clients c).accountPart) :
    SameAccounts (s.update c client) r := by
  have hupdate := h.update c client
  have hsame : r.update c client.accountPart = r := by
    rw [hclient, ← h.clients c]
    simp [RegState.update]
  rwa [hsame] at hupdate

/-- An event may happen with the jobs or without them, unless it sends something. -/
theorem SameAccounts.enabled (h : SameAccounts s r) {c : Nat} {e : RegEvent} (he : e ≠ .send) :
    r.Enabled c e ↔ s.Enabled c e := by
  cases e with
  | send => exact absurd rfl he
  | _ => simp only [RegState.Enabled, h.clients c, h.accounts, accountPart_screens,
      accountPart_submissions]

/-- **An event that sends nothing** does the same with the jobs and without them. -/
theorem SameAccounts.next (h : SameAccounts s r) {c : Nat} {e : RegEvent} (he : e ≠ .send) :
    SameAccounts (s.next c e) (r.next c e) := by
  cases e with
  | send => exact absurd rfl he
  | created j account =>
    simp only [RegState.next, h.clients c, accountPart_submissions]
    cases hj : (s.clients c).submissions[j]? with
    | none => exact h
    | some sub =>
      have hupdate := h.update c ((s.clients c).created j sub account)
      exact ⟨by simp [h.accounts], hupdate.clients, hupdate.db⟩
  | failed j =>
    simp only [RegState.next, h.clients c, accountPart_submissions]
    cases hj : (s.clients c).submissions[j]? with
    | none => exact h
    | some sub => exact h.update c _
  | onComplete j =>
    simp only [RegState.next, h.clients c, accountPart_submissions]
    cases hj : (s.clients c).submissions[j]? with
    | none => exact h
    | some sub =>
      show SameAccounts _ (r.update c ((s.clients c).accountPart.onComplete j sub))
      rw [← accountPart_onComplete]
      exact h.update c _
  | createUserAccount i =>
    simp only [RegState.next, h.clients c]
    rw [← accountPart_createUserAccount]
    exact h.update c _
  | kill =>
    simp only [RegState.next, h.clients c]
    rw [← accountPart_killed]
    exact h.update c _
  | _ =>
    simp only [RegState.next, h.clients c]
    exact h.update c _

/-- **What is sent**: a job, which the registrations see nothing of, or the oldest of the
other writes. -/
theorem SameAccounts.send (h : SameAccounts s r) {c : Nat} (he : s.Enabled c .send) :
    SameAccounts (s.next c .send) r ∨
      r.Enabled c .send ∧ SameAccounts (s.next c .send) (r.next c .send) := by
  obtain ⟨w, ws, hout⟩ := List.exists_cons_of_ne_nil he
  have hrest : SameAccounts (s.update c { s.clients c with outbox := ws })
      (r.update c { r.clients c with outbox := ws.filter accountWrite }) := by
    rw [h.clients c]
    exact h.update c { s.clients c with outbox := ws }
  have hnext : s.next c .send =
      { s.update c { s.clients c with outbox := ws } with db := w.apply s.db } := by
    simp only [RegState.next, hout]
  rw [hnext]
  cases hw : accountWrite w with
  | false =>
    refine Or.inl ⟨h.accounts, ?_, ?_⟩
    · have hpart : Client.accountPart { s.clients c with outbox := ws } =
          (s.clients c).accountPart := by
        simp [Client.accountPart, hout, hw]
      exact (h.jobs hpart).clients
    · intro k hk
      rw [h.db k hk]
      exact (child_apply_of_not_accountWrite hw hk s.db).symm
  | true =>
    have hout' : (r.clients c).outbox = w :: ws.filter accountWrite := by
      rw [h.clients c]
      simp [Client.accountPart, hout, hw]
    refine Or.inr ⟨?_, ?_⟩
    · simp [RegState.Enabled, hout']
    · have hnext' : r.next c .send = { r.update c { r.clients c with
          outbox := ws.filter accountWrite } with db := w.apply r.db } := by
        simp only [RegState.next, hout']
      rw [hnext']
      exact ⟨hrest.accounts, hrest.clients, fun k hk => child_apply_congr (h.db k hk) w⟩

/-! ## Runs -/

/-- **One step** of the deployment, as the registrations see it. -/
theorem sameAccounts_next {d : Deployment C} (h : SameAccounts d.reg r) {c : Nat}
    {e : DeviceEvent C} (he : d.Enabled c e) :
    Matched (registrations C) (fun d r => SameAccounts d.reg r) (d.next P c e) r := by
  have hkill : Matched (registrations C) (fun d r => SameAccounts (C := C) d.reg r) (d.kill c) r :=
    .one (f := (c, .kill)) trivial (h.next (c := c) (e := .kill) nofun)
  cases e with
  | account e =>
    by_cases hsend : e = .send
    · subst hsend
      rcases h.send he with hsame | ⟨hen, hsame⟩
      · exact .none (by rwa [Deployment.reg_next_account])
      · exact .one (f := (c, .send)) hen (by rwa [Deployment.reg_next_account])
    · refine .one (f := (c, e)) ((h.enabled hsend).2 he) ?_
      rw [Deployment.reg_next_account]
      exact h.next hsend
  | createJob form =>
    rcases Deployment.next_createJob (P := P) (s := d) c form with
      ⟨company, location, -, -, -, -, -, hnext⟩ | ⟨-, ⟨-, hnext⟩ | ⟨-, hnext⟩⟩
    · rw [hnext]
      refine .none (h.jobs ?_)
      simp [Client.accountPart, locationWrite, detailsWrite, accountWrite]
    · rw [hnext]
      exact .none h
    · rw [hnext]
      exact hkill
  | screen e =>
    simp only [Deployment.next]
    split
    · exact hkill
    · exact .none h

/-- The registrations within the deployment are those of `registrations`. -/
theorem accounts_simulation (P : Platform C) :
    Simulation (deployment P) (registrations C) (fun d r => SameAccounts d.reg r) where
  start := ⟨rfl, fun _ => rfl, fun _ _ => rfl⟩
  step _ _ _ hrel he := sameAccounts_next hrel he

/-- **A deployment registers as `registrations` does.**  In every state that a run of the
deployment reaches, the accounts, the devices without their jobs and all of the database
outside of `Jobs` are those of a state that a run of `registrations` reaches. -/
theorem accounts_of_trace {d : Deployment C} {tr : List (Deployment C × Nat × DeviceEvent C)}
    (h : Trace (deployment P) tr d) :
    ∃ tr' r, Trace (registrations C) tr' r ∧ SameAccounts d.reg r :=
  (accounts_simulation P).trace h

theorem accounts_marketDay : ∃ tr' r, Trace (registrations Int) tr' r ∧ SameAccounts
    (marketDay.foldl (deployment wholeDegrees).next (deployment wholeDegrees).start).reg r :=
  accounts_of_trace (Trace.of_events marketDay_runs)

end Partimer
