import Partimer.Accounts.LogIn
import Partimer.Accounts.Profiles

/-!
# Registrations that are cut short

An account exists from the moment the service creates it; its type, without which it
cannot sign in, is the last thing a registration stores.

* `UnderWay` — the type of an account is still to come from a device: a listener
  waits to store it, or its write has not been sent.
* `TypesFollow` — every account has its type or is under way; kept by every step that
  cuts no registration (`typesFollow_next`).
* `SignsIn`, `Uncut`, `signsIn_of_uncut` — in a run without cuts every account that
  signs in gets to the first screen of its role.
-/

namespace Partimer

open KeyTree Registration Transition

variable {C : Type}

/-! ## Types in the database -/

/-- A write elsewhere leaves the type of an account alone. -/
theorem typeOf_apply_of_diverge {w : Write C} {account : Uid} (db : Database C)
    (h : Diverge w.path ["Users_type", account.text]) :
    typeOf (w.apply db) account = typeOf db account := by
  have hnode : typeNode (w.apply db) account = typeNode db account := by
    unfold typeNode Write.apply
    rw [account.plain]
    exact fetch_store_of_diverge h w.value db
  unfold typeOf
  rw [hnode]

/-- A profile is no type. -/
theorem typeOf_profileWrite (role : Role) (other : Uid) (form : AccountForm) (db : Database C)
    (account : Uid) : typeOf ((profileWrite role other form).apply db) account =
      typeOf db account :=
  typeOf_apply_of_diverge db (.here (by decide) _ _)

/-- The type of one account is not that of another … -/
theorem typeOf_typeWrite_ne {role : Role} {other account : Uid} (h : other ≠ account)
    (db : Database C) : typeOf ((typeWrite role other).apply db) account = typeOf db account := by
  refine typeOf_apply_of_diverge db ?_
  rw [typeWrite, other.plain]
  exact .there _ (.here (fun heq => h (Uid.ext_text heq.symm)) [] [])

/-- … and is its own once it is stored. -/
theorem typeOf_typeWrite_self (role : Role) (account : Uid) (db : Database C) :
    typeOf ((typeWrite role account).apply db) account = some role.type := by
  unfold typeOf typeNode Write.apply typeWrite
  have hstored := fetch_store_append (["Users_type"] ++ childPath account.text) []
    (mapNode [("type", role.type)] : Node String (Value C)) db
  rw [List.append_nil] at hstored
  rw [hstored]
  rfl

/-! ## The invariant -/

/-- A listener of the device waits that the account was created for. -/
def AwaitsListener (client : Client C) (account : Uid) : Prop :=
  ∃ sub ∈ client.submissions, sub.listener = .attached ∧ sub.outcome = some (.created account)

/-- The type of the account is still to come from the device. -/
def UnderWay (client : Client C) (a : Auth) : Prop :=
  AwaitsListener client a.account ∨ typeWrite a.role a.account ∈ client.outbox

/-- The device is about to store a profile, or the type of an account under its own
role. -/
def OwnWrite (accounts : List Auth) (w : Write C) : Prop :=
  (∃ role account form, w = profileWrite role account form) ∨
    ∃ a ∈ accounts, w = typeWrite a.role a.account

/-- **The invariant.**  Every account has its type or is under way, and only types
under their own role are. -/
structure TypesFollow (s : RegState C) : Prop where
  registered : Registered s
  follows : ∀ a ∈ s.accounts, (∃ c, UnderWay (s.clients c) a) ∨
    typeOf s.db a.account = some a.role.type
  writes : ∀ c, ∀ w ∈ (s.clients c).outbox, OwnWrite s.accounts w

/-- Nothing cuts a registration: an account is created while the listener of its
request waits; no screen stops while one of its listeners is about to be told of a
success, and no process ends while the type of an account is under way on it; a
listener finds the account of its request signed in; and an account signs in once its
type is no longer under way. -/
def Uncut (s : RegState C) (e : Nat × RegEvent) : Prop :=
  match e with
  | (c, .created j _) => ∀ sub, (s.clients c).submissions[j]? = some sub →
      sub.listener = .attached
  | (c, .stop i) => ∀ sub ∈ (s.clients c).submissions, sub.screen = i →
      sub.listener = .attached → ∀ account, sub.outcome ≠ some (.created account)
  | (c, .kill) => ∀ a ∈ s.accounts, ¬ UnderWay (s.clients c) a
  | (c, .onComplete j) => ∀ sub account, (s.clients c).submissions[j]? = some sub →
      sub.outcome = some (.created account) → (s.clients c).currentUser = some account
  | (_, .signIn account) => ∀ c, ∀ a ∈ s.accounts, a.account = account →
      ¬ UnderWay (s.clients c) a
  | _ => True

/-- An account that signs in gets to the first screen of the role it was registered
with. -/
def SignsIn (s : RegState C) (e : Nat × RegEvent) : Prop :=
  match e with
  | (_, .signIn account) => ∀ a ∈ s.accounts, a.account = account →
      LogInActivity.onDataChange (typeNode s.db account) = .ok a.role.signedIn
  | _ => True

section Steps

variable {s : RegState C} {client : Client C}

/-- What is under way on some device stays so when a device changes that keeps it. -/
theorem UnderWay.update {a : Auth} {c c' : Nat}
    (hunder : UnderWay (s.clients c) a → UnderWay client a) (h : UnderWay (s.clients c') a) :
    UnderWay ((s.update c client).clients c') a :=
  s.forall_update (P := fun c' x => UnderWay (s.clients c') a → UnderWay x a) hunder
    (fun _ hold => hold) c' h

/-- A step of one device that creates no account and sends nothing. -/
theorem TypesFollow.update (h : TypesFollow s) (c : Nat) (hclient : client.Right s.accounts)
    (hunder : ∀ a ∈ s.accounts, UnderWay (s.clients c) a → UnderWay client a)
    (hwrites : ∀ w ∈ client.outbox, OwnWrite s.accounts w) : TypesFollow (s.update c client) where
  registered := h.registered.update c hclient
  follows a ha := by
    rcases h.follows a ha with ⟨c', hc'⟩ | htype
    · exact Or.inl ⟨c', hc'.update (hunder a ha)⟩
    · exact Or.inr htype
  writes := s.forall_update (P := fun _ x => ∀ w ∈ x.outbox, OwnWrite s.accounts w) hwrites
    h.writes

/-- A request that awaits nothing is replaced. -/
theorem UnderWay.set {a : Auth} {j : Nat} {sub sub' : Submission}
    (hj : client.submissions[j]? = some sub)
    (hsub : sub.listener = .attached → sub.outcome ≠ some (.created a.account))
    (h : UnderWay client a) : UnderWay (client.set j sub') a := by
  rcases h with ⟨x, hx, hlistener, houtcome⟩ | hmem
  · rcases eq_or_mem_set hj hx with rfl | hx
    · exact absurd houtcome (hsub hlistener)
    · exact Or.inl ⟨x, hx, hlistener, houtcome⟩
  · exact Or.inr hmem

/-- A completion stores the type of its account, which it finds signed in. -/
theorem TypesFollow.completes (h : TypesFollow s) {c j : Nat} {sub : Submission}
    {account : Uid} {form : AccountForm} (hj : (s.clients c).submissions[j]? = some sub)
    (hright : sub.Right s.accounts (s.clients c).screens)
    (hout : sub.outcome = some (.created account))
    (hform : (s.clients c).screens[sub.screen]? = some ⟨sub.role, form⟩)
    (huser : (s.clients c).currentUser = some account) :
    TypesFollow (s.update c ((s.clients c).onComplete j sub)) := by
  have hown := hright.created account hout
  have heq := Client.onComplete_created j hout hform huser
  refine h.update c ((h.registered.clients c).onComplete j hright) ?_ ?_
  · intro a ha hunder
    rw [heq]
    by_cases ha' : a.account = account
    · -- its own account: the type is on its way now
      obtain rfl := h.registered.uids a ha _ hown ha'
      exact Or.inr (by simp)
    · have hother : sub.outcome ≠ some (.created a.account) := by
        rw [hout]
        intro hsame
        cases hsame
        exact ha' rfl
      exact (hunder.set hj fun _ => hother).imp id (List.mem_append_left _)
  · intro w hw
    rw [heq] at hw
    rcases List.mem_append.1 hw with hw | hw
    · exact h.writes c w hw
    · simp only [List.mem_cons, List.not_mem_nil, or_false] at hw
      rcases hw with rfl | rfl
      · exact Or.inl ⟨sub.role, account, form, rfl⟩
      · exact Or.inr ⟨_, hown, rfl⟩

theorem TypesFollow.onComplete (h : TypesFollow s) {c j : Nat}
    (he : s.Enabled c (.onComplete j)) (hu : Uncut s (c, .onComplete j)) :
    TypesFollow (s.next c (.onComplete j)) := by
  obtain ⟨sub, hj, -, hattached⟩ := he
  have hright := h.registered.clients c sub (List.mem_of_getElem? hj)
  obtain ⟨form, hform⟩ := hright.screen hattached
  simp only [RegState.next, hj]
  by_cases hcreated : ∃ account, sub.outcome = some (.created account)
  · obtain ⟨account, hout⟩ := hcreated
    exact h.completes hj hright hout hform (hu sub account hj hout)
  · have hfailed : ∀ account, sub.outcome ≠ some (.created account) :=
      fun account hout => hcreated ⟨account, hout⟩
    have heq : (s.clients c).onComplete j sub = _ := Client.onComplete_failed j hfailed
    refine h.update c ((h.registered.clients c).onComplete j hright) ?_ ?_
    · intro a _ hunder
      rw [heq]
      exact hunder.set hj fun _ => hfailed a.account
    · intro w hw
      rw [heq] at hw
      exact h.writes c w hw

/-- The service creates an account whose listener waits. -/
theorem TypesFollow.created (h : TypesFollow s) {c j : Nat} {account : Uid}
    (he : s.Enabled c (.created j account)) (hu : Uncut s (c, .created j account)) :
    TypesFollow (s.next c (.created j account)) := by
  have hreg := h.registered.created he
  obtain ⟨sub, hj, hnone, -⟩ := he
  have hattached := hu sub hj
  simp only [RegState.next, hj] at hreg ⊢
  have hsub : s.accounts ⊆ s.accounts ++ [⟨account, sub.accepted.etEmail, sub.role⟩] :=
    List.subset_append_left _ _
  refine ⟨hreg, ?_, ?_⟩
  · intro a ha
    rcases List.mem_append.1 ha with ha | ha
    · rcases h.follows a ha with ⟨c', hc'⟩ | htype
      · have hunder : UnderWay (s.clients c) a →
            UnderWay ((s.clients c).created j sub account) a :=
          fun hold => hold.set hj fun _ => by simp [hnone]
        exact Or.inl ⟨c', hc'.update hunder⟩
      · exact Or.inr htype
    · obtain rfl := List.mem_singleton.1 ha
      refine Or.inl ⟨c, Or.inl ⟨{ sub with outcome := some (.created account) }, ?_, hattached,
        rfl⟩⟩
      simpa [RegState.update] using mem_set_of_getElem? hj
  · have hwrites : ∀ c', ∀ w ∈ (s.clients c').outbox,
        OwnWrite (s.accounts ++ [⟨account, sub.accepted.etEmail, sub.role⟩]) w := by
      intro c' w hw
      rcases h.writes c' w hw with hprofile | ⟨a, ha, htype⟩
      · exact Or.inl hprofile
      · exact Or.inr ⟨a, hsub ha, htype⟩
    exact s.forall_update (P := fun _ x => ∀ w ∈ x.outbox, OwnWrite _ w) (hwrites c) hwrites

/-- A write that is applied is no longer under way, but stored. -/
theorem TypesFollow.stored (h : TypesFollow s) {c : Nat} {w : Write C} {ws : List (Write C)}
    (hout : (s.clients c).outbox = w :: ws) {a : Auth} (ha : a ∈ s.accounts) :
    (w = typeWrite a.role a.account ∧ typeOf (w.apply s.db) a.account = some a.role.type) ∨
      (w ≠ typeWrite a.role a.account ∧
        typeOf (w.apply s.db) a.account = typeOf s.db a.account) := by
  by_cases hw : w = typeWrite a.role a.account
  · exact Or.inl ⟨hw, by rw [hw, typeOf_typeWrite_self]⟩
  · refine Or.inr ⟨hw, ?_⟩
    have hmem : w ∈ (s.clients c).outbox := by simp [hout]
    rcases h.writes c w hmem with ⟨role, account, form, rfl⟩ | ⟨a', ha', rfl⟩
    · exact typeOf_profileWrite role account form s.db a.account
    · refine typeOf_typeWrite_ne (fun hsame => hw ?_) s.db
      rw [h.registered.uids a' ha' a ha hsame]

/-- The server applies a write. -/
theorem TypesFollow.send (h : TypesFollow s) {c : Nat} (he : s.Enabled c .send) :
    TypesFollow (s.next c .send) := by
  have hreg := registered_next h.registered he
  obtain ⟨w, ws, hout⟩ := List.exists_cons_of_ne_nil he
  simp only [RegState.next, hout] at hreg ⊢
  refine ⟨hreg, ?_, ?_⟩
  · intro a ha
    rcases h.stored hout ha with ⟨-, htype⟩ | ⟨hne, htype⟩
    · exact Or.inr htype
    · rcases h.follows a ha with ⟨c', hc'⟩ | hstored
      · have hunder : UnderWay (s.clients c) a →
            UnderWay { s.clients c with outbox := ws } a := by
          intro hold
          rcases hold with hawaits | hmem
          · exact Or.inl hawaits
          · rw [hout] at hmem
            exact Or.inr ((List.mem_cons.1 hmem).resolve_left (Ne.symm hne))
        exact Or.inl ⟨c', hc'.update hunder⟩
      · exact Or.inr (htype.trans hstored)
  · refine s.forall_update (P := fun _ x => ∀ w ∈ x.outbox, OwnWrite s.accounts w) ?_ h.writes
    intro w' hw'
    refine h.writes c w' ?_
    rw [hout]
    exact List.mem_cons_of_mem _ hw'

/-- **One step** that cuts no registration. -/
theorem typesFollow_next (h : TypesFollow s) {c : Nat} {e : RegEvent} (he : s.Enabled c e)
    (hu : Uncut s (c, e)) : TypesFollow (s.next c e) := by
  have hright := h.registered.clients c
  have hwrites := h.writes c
  cases e with
  | openScreen role => exact h.update c (hright.openScreen _) (fun _ _ hunder => hunder) hwrites
  | edit i form => exact h.update c (hright.edit i form) (fun _ _ hunder => hunder) hwrites
  | createUserAccount i =>
    refine h.update c (hright.createUserAccount i) ?_ (by simpa using hwrites)
    intro a _ hunder
    rcases hunder with ⟨sub, hsub, hawaits⟩ | hmem
    · exact Or.inl ⟨sub, Client.subset_createUserAccount _ i hsub, hawaits⟩
    · exact Or.inr (by simpa using hmem)
  | created j account => exact h.created he hu
  | failed j =>
    obtain ⟨sub, hj, hnone⟩ := he
    simp only [RegState.next, hj]
    refine h.update c (hright.set j (hright sub (List.mem_of_getElem? hj)).failed)
      (fun a _ hunder => hunder.set hj fun _ => ?_) hwrites
    simp [hnone]
  | onComplete j => exact h.onComplete he hu
  | stop i =>
    refine h.update c (hright.stop i) ?_ hwrites
    intro a _ hunder
    rcases hunder with ⟨sub, hsub, hattached, hout⟩ | hmem
    · have hscreen : sub.screen ≠ i := fun hi => hu sub hsub hi hattached _ hout
      refine Or.inl ⟨sub, List.mem_map.2 ⟨sub, hsub, ?_⟩, hattached, hout⟩
      exact if_neg fun hstop => hscreen hstop.1
    · exact Or.inr hmem
  | kill =>
    refine h.update c hright.killed ?_ ?_
    · intro a ha hunder
      exact absurd hunder (hu a ha)
    · intro w hw
      exact absurd hw List.not_mem_nil
  | send => exact h.send he
  | signIn account => exact h.update c hright (fun _ _ hunder => hunder) hwrites
  | signOut => exact h.update c hright (fun _ _ hunder => hunder) hwrites

theorem typesFollow_start : TypesFollow (registrations C).start :=
  ⟨registered_start, nofun, nofun⟩

/-- An account whose type is stored and nowhere under way signs in. -/
theorem TypesFollow.signsIn (h : TypesFollow s) {a : Auth} (ha : a ∈ s.accounts)
    (hstill : ∀ c, ¬ UnderWay (s.clients c) a) :
    LogInActivity.onDataChange (typeNode s.db a.account) = .ok a.role.signedIn := by
  rw [onDataChange_typeNode]
  rcases h.follows a ha with ⟨c, hc⟩ | htype
  · exact absurd hc (hstill c)
  · refine ⟨a.role.type, htype, ?_⟩
    cases a.role <;> rfl

end Steps

/-- **Every account signs in** in a run that cuts no registration. -/
theorem signsIn_of_uncut {tr : List (RegState C × Nat × RegEvent)} {s : RegState C}
    (h : Trace (registrations C) tr s) (hu : Meets Uncut tr) : Meets SignsIn tr := by
  refine h.meets_of_meets (I := TypesFollow) typesFollow_start
    (fun s e hs he hu => typesFollow_next hs he hu) ?_ hu
  rintro s ⟨c, e⟩ hs he hu
  cases e with
  | signIn account =>
    rintro a ha rfl
    exact hs.signsIn ha fun c => hu c a ha rfl
  | _ => trivial

/-- A registration that is completed and sent, and a sign-in. -/
def annSignsIn : List (Nat × RegEvent) :=
  annRegisters ++ [(0, .onComplete 0), (0, .send), (0, .send), (0, .signIn ann)]

theorem annSignsIn_runs : Runs (registrations Int) (registrations Int).start annSignsIn :=
  ⟨trivial, ⟨_, rfl⟩, ⟨_, rfl⟩, ⟨_, rfl, rfl, nofun⟩, ⟨_, rfl, nofun, rfl⟩, nofun, nofun,
    ⟨_, List.mem_cons_self, rfl⟩, trivial⟩

theorem signsIn_annSignsIn : Meets SignsIn
    (steps (registrations Int) (registrations Int).start annSignsIn) := by
  refine signsIn_of_uncut (Trace.of_events annSignsIn_runs) ?_
  simp only [annSignsIn, annRegisters, List.cons_append, List.nil_append, meets_steps_cons,
    meets_steps_nil, and_true]
  refine ⟨trivial, trivial, trivial, ?_, ?_, trivial, trivial, ?_⟩
  · rintro sub ⟨⟩
    rfl
  · rintro sub account ⟨⟩ ⟨⟩
    rfl
  · -- on the device everything is sent, and the other devices have done nothing
    rintro (_ | c) a - -
    · rintro (⟨sub, hsub, hattached, -⟩ | hmem)
      · obtain rfl := List.mem_singleton.1 hsub
        cases hattached
      · exact absurd hmem List.not_mem_nil
    · rintro (⟨sub, hsub, -⟩ | hmem)
      · exact absurd hsub List.not_mem_nil
      · exact absurd hmem List.not_mem_nil

/-- The screen stops before the listener runs. -/
def annStops : List (Nat × RegEvent) := annRegisters ++ [(0, .stop 0), (0, .signIn ann)]

theorem annStops_runs : Runs (registrations Int) (registrations Int).start annStops :=
  ⟨trivial, ⟨_, rfl⟩, ⟨_, rfl⟩, ⟨_, rfl, rfl, nofun⟩, trivial, ⟨_, List.mem_cons_self, rfl⟩,
    trivial⟩

/-- The account exists and signing in throws. -/
theorem not_signsIn_annStops : ¬ ∀ tr s, Trace (registrations Int) tr s →
    Meets SignsIn tr := by
  intro h
  have hsigns := h _ _ (Trace.of_events annStops_runs) _
    (mem_steps annStops.dropLast (0, .signIn ann) [] _)
  cases hsigns _ List.mem_cons_self rfl

end Partimer
