import Partimer.Accounts.SignUpCut
import Partimer.Deployment.LogIns

/-!
# From the registration to the log-in

A registration creates an account first and stores its type last.  In a deployment much can come
in between: jobs that wait before the type, a map that throws, another log-in.  This file says
what must not happen, on which device, for the account to get in.

* `Unbroken`, `NotCut` — the steps that cut no registration, without and with log-in screens.
* `SameAccounts.uncut`, `unbroken_simulation` — such runs of a deployment are runs of
  `registrations` without cuts.
* `typesFollow_of_trace` — **every account has its own type or is under way**.
* `getsIn_of_trace` — **every account that is no longer under way gets in**: its lookup opens the
  first screen of the role it was registered with.
-/

namespace Partimer

open KeyTree CreateJobCompany Registration Transition

variable {C : Type} {P : Platform C} {s : Deployment C} {r : RegState C}

/-! ## Steps that cut no registration -/

/-- A step of the registrations that cuts none; anybody may sign in at any time. -/
def UncutStep (r : RegState C) (e : Nat × RegEvent) : Prop :=
  (∀ account, e.2 ≠ .signIn account) → Uncut r e

/-- **A step of a deployment that cuts no registration.**  It ends no process on which the type of
an account is under way, and the registrations go on as `Uncut` says. -/
def Unbroken (P : Platform C) (s : Deployment C) (e : Nat × DeviceEvent C) : Prop :=
  (s.ends P e.1 e.2 = true → ∀ a ∈ s.reg.accounts, ¬ UnderWay (s.reg.clients e.1) a) ∧
    ∀ e', e.2 = .account e' → UncutStep s.reg (e.1, e')

/-- The same with log-in screens, whose exceptions end processes too. -/
def NotCut (P : Platform C) (s : LogInDeployment C) (e : Nat × UserEvent C) : Prop :=
  match e with
  | (c, .device e) => Unbroken P s.devices (c, e)
  | (c, .logIn e) => (s.screen c).ends s.devices.reg.db e = true →
      ∀ a ∈ s.devices.reg.accounts, ¬ UnderWay (s.devices.reg.clients c) a

/-! ## As the registrations see it -/

/-- The jobs that wait on a device do not matter for what is under way on it. -/
theorem underWay_accountPart {client : Client C} {a : Auth} :
    UnderWay client.accountPart a ↔ UnderWay client a := by
  unfold UnderWay AwaitsListener
  simp [Client.accountPart, accountWrite_typeWrite]

theorem SameAccounts.underWay (h : SameAccounts s.reg r) (c : Nat) (a : Auth) :
    UnderWay (r.clients c) a ↔ UnderWay (s.reg.clients c) a := by
  rw [h.clients c]
  exact underWay_accountPart

theorem SameAccounts.typeOf (h : SameAccounts s.reg r) (account : Uid) :
    typeOf r.db account = typeOf s.reg.db account := by
  unfold Partimer.typeOf typeNode
  simp only [List.cons_append, List.nil_append, fetch_cons, h.db "Users_type" (by decide)]

/-- A step that cuts nothing with the jobs cuts nothing without them. -/
theorem SameAccounts.uncut (h : SameAccounts s.reg r) {c : Nat} {e : RegEvent}
    (hu : UncutStep s.reg (c, e)) : UncutStep r (c, e) := by
  intro hnot
  have hu' := hu hnot
  cases e with
  | signIn account => exact absurd rfl (hnot account)
  | kill =>
    intro a ha
    rw [h.underWay c a]
    rw [h.accounts] at ha
    exact hu' a ha
  | created j account | onComplete j | stop i =>
    simp only [Uncut, h.clients c, accountPart_submissions, accountPart_currentUser]
    exact hu'
  | _ => trivial

/-- The end of a process that cuts nothing. -/
theorem SameAccounts.killed (h : SameAccounts s.reg r) {c : Nat}
    (hcut : ∀ a ∈ s.reg.accounts, ¬ UnderWay (s.reg.clients c) a) :
    Matched ((registrations C).restrict UncutStep) (fun d r => SameAccounts d.reg r)
      (s.kill c) r := by
  refine .one (f := (c, .kill)) ⟨trivial, h.uncut fun _ => hcut⟩ ?_
  exact h.next (c := c) (e := .kill) RegEvent.noConfusion

/-- **One step.** -/
theorem unbroken_next (h : SameAccounts s.reg r) {c : Nat} {e : DeviceEvent C}
    (he : s.Enabled c e) (hu : Unbroken P s (c, e)) :
    Matched ((registrations C).restrict UncutStep) (fun d r => SameAccounts d.reg r)
      (s.next P c e) r := by
  cases e with
  | account e =>
    have huncut : UncutStep r (c, e) := h.uncut (hu.2 e rfl)
    by_cases hsend : e = .send
    · subst hsend
      rcases h.send he with hsame | ⟨hen, hsame⟩
      · exact .none (by rwa [Deployment.reg_next_account])
      · exact .one (f := (c, .send)) ⟨hen, huncut⟩ (by rwa [Deployment.reg_next_account])
    · refine .one (f := (c, e)) ⟨(h.enabled hsend).2 he, huncut⟩ ?_
      rw [Deployment.reg_next_account]
      exact h.next hsend
  | createJob form =>
    rcases Deployment.next_createJob (P := P) (s := s) c form with
      ⟨company, location, -, -, -, -, -, hnext⟩ | ⟨-, ⟨-, hnext⟩ | ⟨hends, hnext⟩⟩
    · rw [hnext]
      refine .none (h.jobs ?_)
      simp [Client.accountPart, locationWrite, detailsWrite, accountWrite]
    · rw [hnext]
      exact .none h
    · rw [hnext]
      exact h.killed (hu.1 hends)
  | screen e =>
    simp only [Deployment.next]
    split
    · next hends => exact h.killed (hu.1 hends)
    · exact .none h

/-- **Runs that cut no registration** are such runs of `registrations`. -/
theorem unbroken_simulation (P : Platform C) :
    Simulation ((deployment P).restrict (Unbroken P)) ((registrations C).restrict UncutStep)
      (fun d r => SameAccounts d.reg r) where
  start := ⟨rfl, fun _ => rfl, fun _ _ => rfl⟩
  step _ _ _ hrel he := unbroken_next hrel he.1 he.2

/-- **Every account has its own type or is under way**, as long as no registration is cut. -/
theorem typesFollow_of_trace {tr : List (Deployment C × Nat × DeviceEvent C)}
    (h : Trace ((deployment P).restrict (Unbroken P)) tr s) {a : Auth} (ha : a ∈ s.reg.accounts) :
    (∃ c, UnderWay (s.reg.clients c) a) ∨ typeOf s.reg.db a.account = some a.role.type := by
  obtain ⟨tr', r, hr, hsame⟩ := (unbroken_simulation P).trace h
  have hfollow : TypesFollow r := by
    obtain ⟨hrun, huncut⟩ := trace_restrict_iff.1 hr
    refine hrun.invariant_of_meets (I := TypesFollow) typesFollow_start ?_ huncut
    rintro r ⟨c, e⟩ hfollow he hu
    by_cases hsigns : ∃ account, e = .signIn account
    · obtain ⟨account, rfl⟩ := hsigns
      exact hfollow.update c (hfollow.registered.clients c) (fun _ _ hunder => hunder)
        (hfollow.writes c)
    · exact typesFollow_next hfollow he (hu fun account heq => hsigns ⟨account, heq⟩)
  rcases hfollow.follows a (by rwa [hsame.accounts]) with ⟨c, hunder⟩ | htype
  · exact Or.inl ⟨c, (hsame.underWay c a).1 hunder⟩
  · exact Or.inr ((hsame.typeOf a.account).symm.trans htype)

/-! ## With log-in screens -/

/-- **Runs with log-in screens that cut no registration** are such runs of a deployment. -/
theorem notCut_simulation (P : Platform C) :
    Simulation ((logInDeployment P).restrict (NotCut P)) ((deployment P).restrict (Unbroken P))
      (fun s d => s.devices = d) where
  start := rfl
  step := by
    rintro s _ ⟨c, e⟩ rfl ⟨he, hcut⟩
    cases e with
    | device e => exact .one (f := (c, e)) ⟨he.2, hcut⟩ rfl
    | logIn e =>
      rcases devices_next_logIn (P := P) s c e with
        (hsame | ⟨account, hknown, hsigned⟩) | ⟨hends, hkill⟩
      · exact .none hsame
      · have hsigns : Unbroken P s.devices (c, .account (.signIn account)) := by
          refine ⟨fun hends => absurd hends Bool.false_ne_true, ?_⟩
          rintro _ ⟨⟩ hnot
          exact absurd rfl (hnot account)
        exact .one (f := (c, .account (.signIn account))) ⟨hknown, hsigns⟩ hsigned
      · have hkilled : Unbroken P s.devices (c, .account .kill) := by
          refine ⟨fun _ => hcut hends, ?_⟩
          rintro _ ⟨⟩ -
          exact hcut hends
        exact .one (f := (c, .account .kill)) ⟨trivial, hkilled⟩ hkill

/-- The lookup of the attempt is answered without an exception, and opens the first screen of the
role that the account was registered with. -/
structure GetsIn (P : Platform C) (s : LogInDeployment C) (c i : Nat) (a : Auth) : Prop where
  survives : (s.screen c).ends s.devices.reg.db (.onDataChange i) = false
  opens : ((s.next P c (.logIn (.onDataChange i))).attempts c)[i]?.map Attempt.opened =
    some [a.role.signedIn]
  complete : CompleteProfile a.role (profileNode s.devices.reg.db a.role a.account)

/-- **From the registration to the log-in.**  In a run that cuts no registration, however the
devices post, register and log in meanwhile, every account is still under way on some device or
gets in: each lookup of its type, on whatever device, opens the first screen of the role it was
registered with, and the profile of that role is there. -/
theorem getsIn_of_trace {s : LogInDeployment C}
    {tr : List (LogInDeployment C × Nat × UserEvent C)} (h : Trace (logInDeployment P) tr s)
    (hcut : Meets (NotCut P) tr) {a : Auth} (ha : a ∈ s.devices.reg.accounts) :
    (∃ c, UnderWay (s.devices.reg.clients c) a) ∨
      ∀ c i attempt, (s.attempts c)[i]? = some attempt → attempt.lookup = some a.account →
        attempt.answered = false → GetsIn P s c i a := by
  obtain ⟨tr', d, hd, rfl⟩ := (notCut_simulation P).trace (trace_restrict_iff.2 ⟨h, hcut⟩)
  rcases typesFollow_of_trace hd ha with hunder | htype
  · exact Or.inl hunder
  · refine Or.inr ?_
    intro c i attempt hi hlookup hanswered
    have hright := logInsRight_of_trace h
    have hopened := (hright.attempts c attempt (List.mem_of_getElem? hi)).unanswered hanswered
    have hscreen : LogInActivity.onDataChange (typeNode s.devices.reg.db a.account) =
        .ok a.role.signedIn := onDataChange_typeNode.2 ⟨_, htype, by cases a.role <;> rfl⟩
    have hi' : (s.screen c).attempts[i]? = some attempt := hi
    constructor
    · simp only [LogInState.ends, hi', Option.bind_some, hlookup, hscreen]
      rfl
    · simp only [LogInDeployment.next, Function.update_self]
      exact (opened_onDataChange hi' hlookup hopened).2 hscreen
    · exact typed_of_trace (trace_restrict_iff.1 hd).1 htype

/-! The company that asks for its type has registered without a cut. -/

theorem notCut_account {s : LogInDeployment C} {c : Nat} {e : RegEvent}
    (hends : s.devices.reg.ends c e = false) (huncut : Uncut s.devices.reg (c, e)) :
    NotCut P s (c, .device (.account e)) := by
  refine ⟨fun hdies => absurd (hends.symm.trans hdies) Bool.false_ne_true, ?_⟩
  rintro _ ⟨⟩ -
  exact huncut

theorem notCut_logIn {s : LogInDeployment C} {c : Nat} {e : LogInEvent}
    (hends : (s.screen c).ends s.devices.reg.db e = false) : NotCut P s (c, .logIn e) :=
  fun hdies => absurd (hends.symm.trans hdies) Bool.false_ne_true

theorem acmeAsks_notCut : Meets (NotCut wholeDegrees) (steps (logInDeployment wholeDegrees)
    (logInDeployment wholeDegrees).start acmeAsks) := by
  simp only [acmeAsks, registersOn, List.map_cons, List.map_nil, List.cons_append, List.nil_append,
    meets_steps_cons, meets_steps_nil, and_true]
  refine ⟨notCut_account rfl trivial, notCut_account rfl trivial, notCut_account rfl trivial,
    notCut_account rfl ?_, notCut_account rfl ?_, notCut_account rfl trivial,
    notCut_account rfl trivial, notCut_account rfl trivial, notCut_logIn rfl, notCut_logIn rfl,
    notCut_logIn rfl⟩
  · rintro sub ⟨⟩
    rfl
  · rintro sub account ⟨⟩ ⟨⟩
    rfl

theorem getsIn_acmeAsks :
    let s := acmeAsks.foldl (logInDeployment wholeDegrees).next
      (logInDeployment wholeDegrees).start
    (∃ c, UnderWay (s.devices.reg.clients c) ⟨acme, "acme@example", .company⟩) ∨
      ∀ c i attempt, (s.attempts c)[i]? = some attempt → attempt.lookup = some acme →
        attempt.answered = false →
          GetsIn wholeDegrees s c i ⟨acme, "acme@example", .company⟩ :=
  getsIn_of_trace (Trace.of_events acmeLogsIn_runs.of_append) acmeAsks_notCut
    (List.mem_singleton_self _)

end Partimer
