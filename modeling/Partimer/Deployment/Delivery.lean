import Partimer.Deployment.Devices
import Partimer.Lib.Queue

/-!
# How writes reach the database

`setValue` returns at once: the write waits on the device until the server applies it, one
after the other, and what waits is lost with the process.  Registrations and job posts share
this queue.

* `Deployment.issues`, `Deployment.sends`, `Deployment.loses` — what an event does to the
  writes of its device; `Deployment.outbox` — the queue of a device.
* `delivered_in_order` — **every write is applied at most once and in the order issued, and the
  database is what the writes applied make of it**.
* `IssuedAt`, `mem_issues` — where a write comes from: a posted job, or a registration;
  `issuedIn_of_applied`, `issuedIn_of_waiting` — so does every write of a run;
  `holds_of_writes` — an invariant of the database from what each of them keeps.
-/

namespace Partimer

open KeyTree CreateJobCompany Registration Transition

variable {C : Type}

/-! ## Issuing, sending and losing -/

/-- The writes that the completion listener of a request issues. -/
def Client.issues (client : Client C) (sub : Submission) : List (Write C) :=
  match sub.outcome, client.screens[sub.screen]? with
  | some (.created _), some screen =>
    ((sub.role.userProfile screen.form client.currentUser).run []).2
  | _, _ => []

namespace Deployment

variable (P : Platform C)

/-- The writes that an event issues on its device. -/
def issues (s : Deployment C) (c : Nat) : DeviceEvent C → List (Write C)
  | .createJob form => ((addJobLocation P (s.reg.clients c).currentUser form).run []).2
  | .account (.onComplete j) =>
    match (s.reg.clients c).submissions[j]? with
    | some sub => (s.reg.clients c).issues sub
    | none => []
  | _ => []

/-- The write that the server applies. -/
def sends (s : Deployment C) (c : Nat) : DeviceEvent C → List (Write C)
  | .account .send => (s.reg.clients c).outbox.head?.toList
  | _ => []

/-- The writes that are lost with the process. -/
def loses (s : Deployment C) (c : Nat) (e : DeviceEvent C) : List (Write C) :=
  if s.ends P c e then (s.reg.clients c).outbox else []

end Deployment

variable {P : Platform C} {s : Deployment C}

/-! ## One step -/

/-- What a listener issues: nothing, or the profile and the type of whoever is signed in. -/
theorem Client.issues_cases (client : Client C) (sub : Submission) : client.issues sub = [] ∨
    ∃ account screen user, sub.outcome = some (.created account) ∧
      client.screens[sub.screen]? = some screen ∧ client.currentUser = some user ∧
      client.issues sub = [profileWrite sub.role user screen.form, typeWrite sub.role user] := by
  unfold Client.issues
  rcases hout : sub.outcome with _ | ⟨account⟩ | _
  · exact Or.inl rfl
  · rcases hscreen : client.screens[sub.screen]? with _ | screen
    · exact Or.inl rfl
    · simp only [Role.userProfile_eq]
      cases huser : client.currentUser with
      | none => exact Or.inl (by rw [userProfile_run_none])
      | some user =>
        refine Or.inr ⟨account, screen, user, rfl, rfl, rfl, ?_⟩
        rw [userProfile_run, List.nil_append]
  · exact Or.inl rfl

/-- A listener that does not throw adds what it issues. -/
theorem Client.onComplete_outbox_of_not_throws {client : Client C} {sub : Submission} (j : Nat)
    (h : client.throws sub = false) :
    (client.onComplete j sub).outbox = client.outbox ++ client.issues sub := by
  unfold Client.throws at h
  unfold Client.onComplete Client.issues
  rcases hout : sub.outcome with _ | ⟨account⟩ | _
  · simp [Client.set]
  · rcases hscreen : client.screens[sub.screen]? with _ | screen
    · simp [Client.set]
    · simp only [hout, hscreen, Role.userProfile_eq] at h
      simp only [Role.userProfile_eq]
      cases huser : client.currentUser with
      | none =>
        rw [huser, userProfile_run_none] at h
        cases h
      | some user => simp [userProfile_run]
  · simp [Client.set]

/-- One that throws has issued nothing. -/
theorem Client.issues_of_throws {client : Client C} {sub : Submission}
    (h : client.throws sub = true) : client.issues sub = [] := by
  rcases client.issues_cases sub with hnone | ⟨account, screen, user, hout, hscreen, huser, -⟩
  · exact hnone
  · simp only [Client.throws, hout, hscreen, huser, Role.userProfile_eq, userProfile_run] at h
    cases h

/-- A call that can read everything issues both writes of its job … -/
theorem issues_createJob {c : Nat} {form : JobForm} {company : Uid} {location : GeoLocation C}
    (huser : (s.reg.clients c).currentUser = some company)
    (hfilled : checkFormFields form = .ok ()) (hpath : validPath form.etPos = true)
    (hreads : ReadsLocation P form location) : s.issues P c (.createJob form) =
      [locationWrite P company form.etPos location,
        detailsWrite company form.etPos form.etSal] := by
  simp only [Deployment.issues, huser, addJobLocation_run_of_reads P hfilled hpath hreads,
    List.nil_append]

/-- … and any other one issues nothing. -/
theorem issues_createJob_of_not {c : Nat} {form : JobForm}
    (hnot : ¬ (checkFormFields form = .ok () ∧ CanPost P (s.reg.clients c).currentUser form)) :
    s.issues P c (.createJob form) = [] := by
  simp only [Deployment.issues]
  rcases addJobLocation_run P (s.reg.clients c).currentUser form [] with
    ⟨company, location, huser, hfilled, hpath, hreads, -⟩ | ⟨field, error, -, hrun⟩ |
    ⟨exn, -, -, hrun⟩
  · exact absurd ⟨hfilled, by simp [huser], hpath, location, hreads⟩ hnot
  · rw [hrun]
  · rw [hrun]

/-- An event changes no device but its own. -/
theorem Deployment.clients_next_ne {c c' : Nat} (h : c ≠ c') (e : DeviceEvent C) :
    (s.next P c' e).reg.clients c = s.reg.clients c := by
  cases e with
  | account e =>
    simp only [Deployment.next]
    split <;> exact RegState.next_clients_ne h s.reg e
  | createJob form =>
    rcases Deployment.next_createJob (P := P) (s := s) c' form with
      ⟨company, location, -, -, -, -, -, hnext⟩ | ⟨-, ⟨-, hnext⟩ | ⟨-, hnext⟩⟩
    · rw [hnext]
      exact RegState.update_clients_ne h _ _
    · rw [hnext]
    · rw [hnext]
      exact RegState.update_clients_ne h _ _
  | screen e =>
    rcases Deployment.reg_next_screen (P := P) (s := s) c' e with hreg | hreg
    · rw [hreg]
    · rw [hreg, RegState.update_clients_ne h]

/-- What a registration event does to the writes that wait on its device. -/
theorem outbox_next_account {c : Nat} {e : RegEvent} (he : s.reg.Enabled c e) :
    s.sends c (.account e) ++ (s.loses P c (.account e) ++
        ((s.next P c (.account e)).reg.clients c).outbox) =
      (s.reg.clients c).outbox ++ s.issues P c (.account e) := by
  rw [Deployment.reg_next_account]
  cases e with
  | kill => simp [Deployment.sends, Deployment.loses, Deployment.issues, Deployment.ends,
      RegState.ends, RegState.next, Client.killed]
  | onComplete j =>
    obtain ⟨sub, hj, -⟩ := he
    simp only [Deployment.sends, Deployment.loses, Deployment.issues, Deployment.ends,
      RegState.ends, RegState.next, hj, RegState.update_clients_self, List.nil_append]
    cases hthrows : (s.reg.clients c).throws sub with
    | true =>
      obtain ⟨client, hclient⟩ := Client.onComplete_of_throws j hthrows
      rw [hclient, Client.issues_of_throws hthrows]
      rfl
    | false =>
      rw [Client.onComplete_outbox_of_not_throws j hthrows]
      rfl
  | send =>
    obtain ⟨w, ws, hout⟩ := List.exists_cons_of_ne_nil he
    simp [Deployment.sends, Deployment.loses, Deployment.issues, Deployment.ends, RegState.ends,
      RegState.next, hout]
  | created j account =>
    obtain ⟨sub, hj, -⟩ := he
    simp [Deployment.sends, Deployment.loses, Deployment.issues, Deployment.ends, RegState.ends,
      RegState.next, hj]
  | failed j =>
    obtain ⟨sub, hj, -⟩ := he
    simp [Deployment.sends, Deployment.loses, Deployment.issues, Deployment.ends, RegState.ends,
      RegState.next, hj, Client.set]
  | _ => simp [Deployment.sends, Deployment.loses, Deployment.issues, Deployment.ends,
      RegState.ends, RegState.next]

/-- **One step**: what is sent, lost and left is what waited and what is issued. -/
theorem outbox_next {c : Nat} {e : DeviceEvent C} (he : s.Enabled c e) :
    s.sends c e ++ (s.loses P c e ++ ((s.next P c e).reg.clients c).outbox) =
      (s.reg.clients c).outbox ++ s.issues P c e := by
  cases e with
  | account e => exact outbox_next_account he
  | createJob form =>
    simp only [Deployment.sends, Deployment.loses, List.nil_append]
    rcases Deployment.next_createJob (P := P) (s := s) c form with
      ⟨company, location, huser, hfilled, hpath, hreads, hends, hnext⟩ |
      ⟨hnot, ⟨hends, hnext⟩ | ⟨hends, hnext⟩⟩
    · rw [hnext, hends, issues_createJob huser hfilled hpath hreads]
      simp
    · rw [hnext, hends, issues_createJob_of_not hnot]
      simp
    · rw [hnext, hends, issues_createJob_of_not hnot]
      simp [Deployment.kill, Client.killed]
  | screen e =>
    simp only [Deployment.sends, Deployment.loses, Deployment.issues, Deployment.ends,
      Deployment.next, List.nil_append, List.append_nil]
    by_cases hends : (s.view c).ends P e.session = true
    · simp [hends, Deployment.kill, Client.killed]
    · simp [hends]

/-- What is done to the writes of one device. -/
def onDevice (c : Nat) (f : Deployment C → Nat → DeviceEvent C → List (Write C))
    (s : Deployment C) (e : Nat × DeviceEvent C) : List (Write C) :=
  if e.1 = c then f s e.1 e.2 else []

/-- **The queue of a device.** -/
def Deployment.outbox (P : Platform C) (c : Nat) : Outbox (deployment P) (Write C) where
  waiting s := (s.reg.clients c).outbox
  issues := onDevice c (Deployment.issues P)
  sends := onDevice c Deployment.sends
  loses := onDevice c (Deployment.loses P)
  start := rfl
  step s e he := by
    unfold onDevice
    by_cases hc : e.1 = c
    · subst hc
      rw [if_pos rfl, if_pos rfl, if_pos rfl]
      exact outbox_next he
    · rw [if_neg hc, if_neg hc, if_neg hc, List.append_nil]
      show (((s.next P e.1 e.2).reg.clients c)).outbox = _
      rw [Deployment.clients_next_ne (Ne.symm hc)]

/-! ## Runs -/

/-- The writes that the server applies, whichever device they wait on. -/
def Deployment.applied (s : Deployment C) (e : Nat × DeviceEvent C) : List (Write C) :=
  s.sends e.1 e.2

theorem applyAll_append (ws ws' : List (Write C)) (db : Database C) :
    applyAll (ws ++ ws') db = applyAll ws' (applyAll ws db) := List.foldl_append ..

/-- A step applies what is sent to the database. -/
theorem db_next {e : Nat × DeviceEvent C} :
    (s.next P e.1 e.2).reg.db = applyAll (s.applied e) s.reg.db := by
  obtain ⟨c, e⟩ := e
  cases e with
  | account e =>
    rw [Deployment.reg_next_account]
    by_cases hsend : e = .send
    · subst hsend
      simp only [RegState.next, Deployment.applied, Deployment.sends]
      cases hout : (s.reg.clients c).outbox <;> rfl
    · rw [RegState.next_db hsend]
      cases e <;> first | rfl | exact absurd rfl hsend
  | createJob form =>
    rcases Deployment.next_createJob (P := P) (s := s) c form with
      ⟨company, location, -, -, -, -, -, hnext⟩ | ⟨-, ⟨-, hnext⟩ | ⟨-, hnext⟩⟩
    · rw [hnext]
      rfl
    · rw [hnext]
      rfl
    · rw [hnext]
      rfl
  | screen e =>
    rcases Deployment.reg_next_screen (P := P) (s := s) c e with hreg | hreg
    · rw [hreg]
      rfl
    · rw [hreg]
      rfl

/-- A step applies the writes of one device. -/
theorem applied_eq_sends (d : Deployment C) (e : Nat × DeviceEvent C) :
    ∃ c, Deployment.applied d e = (Deployment.outbox P c).sends d e ∧
      ∀ c', c' ≠ c → (Deployment.outbox P c').sends d e = [] :=
  ⟨e.1, (if_pos rfl).symm, fun _ hc' => if_neg (Ne.symm hc')⟩

/-- The database is what the writes applied make of an empty one. -/
theorem db_of_trace {tr : List (Deployment C × Nat × DeviceEvent C)}
    (h : Trace (deployment P) tr s) : s.reg.db = applyAll (along Deployment.applied tr) none := by
  induction h with
  | nil => rfl
  | @snoc tr s e _ _ ih =>
    rw [along_snoc, applyAll_append, ← ih]
    exact db_next

/-- What was done to the writes of the device `c` in a run. -/
abbrev writesOf (c : Nat) (f : Deployment C → Nat → DeviceEvent C → List (Write C))
    (tr : List (Deployment C × Nat × DeviceEvent C)) : List (Write C) := along (onDevice c f) tr

/-- The process of the device does not end at the step. -/
def StaysUp (P : Platform C) (c : Nat) (s : Deployment C) (e : Nat × DeviceEvent C) : Prop :=
  e.1 = c → s.ends P e.1 e.2 = false

/-- Nothing is lost as long as the process does not end. -/
theorem loses_of_staysUp {c : Nat} {tr : List (Deployment C × Nat × DeviceEvent C)}
    (hup : Meets (StaysUp P c) tr) :
    Meets (fun s e => (Deployment.outbox P c).loses s e = []) tr := by
  intro x hx
  show onDevice c (Deployment.loses P) x.1 x.2 = []
  unfold onDevice Deployment.loses
  split
  · next hc => rw [hup x hx hc, if_neg Bool.false_ne_true]
  · rfl

/-- **How writes reach the database.**  On each device, what was issued has been sent to the
server, was lost with its process or waits, each write as often as it was issued; what was sent
was sent in the order issued, before what waits; nothing was lost as long as the process did
not end; and the database is what the writes sent by all devices, in the order in which they
came, make of an empty one. -/
theorem delivered_in_order {tr : List (Deployment C × Nat × DeviceEvent C)}
    (h : Trace (deployment P) tr s) :
    (∀ c,
      (writesOf c (Deployment.issues P) tr).Perm (writesOf c Deployment.sends tr ++
        (writesOf c (Deployment.loses P) tr ++ (s.reg.clients c).outbox)) ∧
      List.Sublist (writesOf c Deployment.sends tr ++ (s.reg.clients c).outbox)
        (writesOf c (Deployment.issues P) tr) ∧
      (Meets (StaysUp P c) tr → writesOf c Deployment.sends tr ++ (s.reg.clients c).outbox =
        writesOf c (Deployment.issues P) tr)) ∧
    s.reg.db = applyAll (along Deployment.applied tr) none := by
  refine ⟨?_, db_of_trace h⟩
  intro c
  refine ⟨(Deployment.outbox P c).accounted h, (Deployment.outbox P c).inOrder h, ?_⟩
  exact fun hup => (Deployment.outbox P c).exact h (loses_of_staysUp hup)

theorem staysUp_of_ne {c c' : Nat} (h : c' ≠ c) (e : DeviceEvent C) : StaysUp P c s (c', e) :=
  fun heq => absurd heq h

theorem marketDay_staysUp : Meets (StaysUp wholeDegrees 0)
    (steps (deployment wholeDegrees) (deployment wholeDegrees).start marketDay) := by
  have hother : ∀ s e, StaysUp wholeDegrees 0 s (1, e) := fun s e => staysUp_of_ne Nat.one_ne_zero e
  simp only [marketDay, registersOn, List.cons_append, List.nil_append, meets_steps_cons,
    meets_steps_nil, and_true, hother]
  exact ⟨fun _ => rfl, fun _ => rfl, fun _ => rfl, fun _ => rfl, fun _ => rfl, fun _ => rfl,
    fun _ => rfl, fun _ => rfl, fun _ => rfl, fun _ => rfl⟩

theorem delivered_marketDay :
    writesOf 0 Deployment.sends
        (steps (deployment wholeDegrees) (deployment wholeDegrees).start marketDay) ++
      ((marketDay.foldl (deployment wholeDegrees).next
        (deployment wholeDegrees).start).reg.clients 0).outbox =
    writesOf 0 (Deployment.issues wholeDegrees)
      (steps (deployment wholeDegrees) (deployment wholeDegrees).start marketDay) :=
  ((delivered_in_order (Trace.of_events marketDay_runs)).1 0).2.2 marketDay_staysUp

/-! ## Where a write comes from -/

/-- The account signed in on the device posts a job. -/
def PostsJob (P : Platform C) (s : Deployment C) (e : Nat × DeviceEvent C) (company : Uid)
    (form : JobForm) (location : GeoLocation C) : Prop :=
  e.2 = .createJob form ∧ (s.reg.clients e.1).currentUser = some company ∧
    checkFormFields form = .ok () ∧ ReadsLocation P form location

/-- The listener of a request finds its account created, the form on its screen, and the
account `user` signed in. -/
def Registers (s : Deployment C) (e : Nat × DeviceEvent C) (role : Role) (user : Uid)
    (form : AccountForm) : Prop :=
  ∃ j sub screen account, e.2 = .account (.onComplete j) ∧
    (s.reg.clients e.1).submissions[j]? = some sub ∧ sub.outcome = some (.created account) ∧
    sub.role = role ∧ (s.reg.clients e.1).screens[sub.screen]? = some screen ∧
    screen.form = form ∧ (s.reg.clients e.1).currentUser = some user

/-- **Where a write comes from.** -/
inductive IssuedAt (P : Platform C) (s : Deployment C) (e : Nat × DeviceEvent C) :
    Write C → Prop
  | location {company : Uid} {form : JobForm} {location : GeoLocation C}
      (h : PostsJob P s e company form location) :
      IssuedAt P s e (locationWrite P company form.etPos location)
  | details {company : Uid} {form : JobForm} {location : GeoLocation C}
      (h : PostsJob P s e company form location) :
      IssuedAt P s e (detailsWrite company form.etPos form.etSal)
  | profile {role : Role} {user : Uid} {form : AccountForm} (h : Registers s e role user form) :
      IssuedAt P s e (profileWrite role user form)
  | type {role : Role} {user : Uid} {form : AccountForm} (h : Registers s e role user form) :
      IssuedAt P s e (typeWrite role user)

theorem mem_issues {c : Nat} {e : DeviceEvent C} {w : Write C} (hw : w ∈ s.issues P c e) :
    IssuedAt P s (c, e) w := by
  cases e with
  | createJob form =>
    by_cases hcan : checkFormFields form = .ok () ∧ CanPost P (s.reg.clients c).currentUser form
    · obtain ⟨hfilled, huser, hpath, location, hreads⟩ := hcan
      obtain ⟨company, hcompany⟩ := Option.isSome_iff_exists.1 huser
      have hposts : PostsJob P s (c, .createJob form) company form location :=
        ⟨rfl, hcompany, hfilled, hreads⟩
      rw [issues_createJob hcompany hfilled hpath hreads] at hw
      simp only [List.mem_cons, List.not_mem_nil, or_false] at hw
      rcases hw with rfl | rfl
      · exact .location hposts
      · exact .details hposts
    · rw [issues_createJob_of_not hcan] at hw
      cases hw
  | account e =>
    cases e with
    | onComplete j =>
      simp only [Deployment.issues] at hw
      cases hj : (s.reg.clients c).submissions[j]? with
      | none => simp [hj] at hw
      | some sub =>
        simp only [hj] at hw
        rcases (s.reg.clients c).issues_cases sub with
          hnone | ⟨account, screen, user, hout, hscreen, huser, hissues⟩
        · rw [hnone] at hw
          cases hw
        · have hregisters : Registers s (c, .account (.onComplete j)) sub.role user screen.form :=
            ⟨j, sub, screen, account, rfl, hj, hout, rfl, hscreen, rfl, huser⟩
          rw [hissues] at hw
          simp only [List.mem_cons, List.not_mem_nil, or_false] at hw
          rcases hw with rfl | rfl
          · exact .profile hregisters
          · exact .type hregisters
    | _ => cases hw
  | screen e => cases hw

/-- The write was issued at a step of the run. -/
def IssuedIn (P : Platform C) (tr : List (Deployment C × Nat × DeviceEvent C)) (w : Write C) :
    Prop := ∃ x ∈ tr, IssuedAt P x.1 x.2 w

theorem issuedIn_of_mem {tr : List (Deployment C × Nat × DeviceEvent C)} {c : Nat} {w : Write C}
    (hw : w ∈ writesOf c (Deployment.issues P) tr) : IssuedIn P tr w := by
  obtain ⟨x, hx, hmem⟩ := exists_of_mem_along hw
  unfold onDevice at hmem
  split at hmem
  · exact ⟨x, hx, mem_issues hmem⟩
  · cases hmem

/-- **Every write that waits was issued** … -/
theorem issuedIn_of_waiting {tr : List (Deployment C × Nat × DeviceEvent C)}
    (h : Trace (deployment P) tr s) {c : Nat} {w : Write C}
    (hw : w ∈ (s.reg.clients c).outbox) : IssuedIn P tr w :=
  issuedIn_of_mem (((Deployment.outbox P c).inOrder h).subset (List.mem_append_right _ hw))

/-- … **and so was every write applied.** -/
theorem issuedIn_of_applied {tr : List (Deployment C × Nat × DeviceEvent C)}
    (h : Trace (deployment P) tr s) {w : Write C} (hw : w ∈ along Deployment.applied tr) :
    IssuedIn P tr w := by
  obtain ⟨⟨d, c, e⟩, hx, hmem⟩ := exists_of_mem_along hw
  have hsent : w ∈ writesOf c Deployment.sends tr := by
    refine List.mem_flatMap.2 ⟨_, hx, ?_⟩
    rw [onDevice, if_pos rfl]
    exact hmem
  exact issuedIn_of_mem (((Deployment.outbox P c).inOrder h).subset (List.mem_append_left _ hsent))

/-- **What the writes of a run keep.**  What an empty database has and every write issued in the
run keeps, the database has. -/
theorem holds_of_writes {tr : List (Deployment C × Nat × DeviceEvent C)} {I : Database C → Prop}
    (h : Trace (deployment P) tr s) (hnone : I none)
    (happly : ∀ w db, IssuedIn P tr w → I db → I (w.apply db)) : I s.reg.db := by
  have hall : ∀ (ws : List (Write C)) (db : Database C), (∀ w ∈ ws, IssuedIn P tr w) → I db →
      I (applyAll ws db) := by
    intro ws
    induction ws with
    | nil => exact fun _ _ hdb => hdb
    | cons w ws ih =>
      intro db hws hdb
      rw [List.forall_mem_cons] at hws
      exact ih _ hws.2 (happly w db hws.1 hdb)
  rw [db_of_trace h]
  exact hall _ none (fun w hw => issuedIn_of_applied h hw) hnone

end Partimer
