import Partimer.Accounts.Registration

/-!
# What a registration stores

The form is checked when the button is pressed; it is read again, together with the
current user, when the service has answered.

* `StoresAccepted` — a profile record holds what was accepted, under the account of
  that request.
* `HeldSince` — by the time the listener runs, the four fields and the current user
  are those of the request.
* `storesAccepted_iff` — the one holds throughout a run exactly if the other does.
-/

namespace Partimer

open Registration Transition

variable {C : Type} {s : RegState C}

/-- Two forms have the same profile. -/
def AccountForm.SameProfile (f g : AccountForm) : Prop :=
  f.name = g.name ∧ f.age = g.age ∧ f.city = g.city ∧ f.country = g.country

/-- A profile record determines the account and the four fields. -/
theorem profileWrite_inj {role : Role} {u v : Uid} {f g : AccountForm} :
    (profileWrite role u f : Write C) = profileWrite role v g ↔ u = v ∧ f.SameProfile g := by
  constructor
  · intro h
    simp only [profileWrite, u.plain, v.plain, Write.mk.injEq, mapNode, List.map_cons,
      List.map_nil, List.append_cancel_left_eq, List.cons.injEq, and_true, KeyTree.Node.inner.injEq,
      Prod.mk.injEq, KeyTree.Node.leaf.injEq, Value.text.injEq, true_and] at h
    obtain ⟨huv, hname, hage, hcountry, hcity⟩ := h
    exact ⟨Uid.ext_text huv, hname, hage, hcity, hcountry⟩
  · rintro ⟨rfl, hname, hage, hcity, hcountry⟩
    simp only [profileWrite, hname, hage, hcity, hcountry]

/-- A record under `Users`, as opposed to one under `Users_type`. -/
def IsProfile (w : Write C) : Prop := w.path.head? = some "Users"

theorem isProfile_profileWrite (role : Role) (account : Uid) (form : AccountForm) :
    IsProfile (profileWrite role account form : Write C) := rfl

theorem not_isProfile_typeWrite (role : Role) (account : Uid) :
    ¬ IsProfile (typeWrite role account : Write C) := by
  intro h
  exact absurd (Option.some.inj h) (by decide)

/-- The completion of the request `sub` that created `account` is the step, and its
listener finds `form` on its screen. -/
structure Completes (s : RegState C) (e : Nat × RegEvent) (sub : Submission) (account : Uid)
    (form : AccountForm) : Prop where
  event : ∃ j, e.2 = .onComplete j ∧ (s.clients e.1).submissions[j]? = some sub
  created : sub.outcome = some (.created account)
  screen : (s.clients e.1).screens[sub.screen]? = some ⟨sub.role, form⟩

/-- Every profile record that a completion writes holds the four fields as they were
accepted, none of them empty, under the account created for the email of the request. -/
def StoresAccepted (s : RegState C) (e : Nat × RegEvent) : Prop :=
  ∀ sub account form, Completes s e sub account form →
    ∀ w ∈ ((sub.role.userProfile form (s.clients e.1).currentUser).run ([] : List (Write C))).2,
      IsProfile w →
        (∃ a ∈ s.accounts, a.email = sub.accepted.etEmail ∧
          w = profileWrite sub.role a.account sub.accepted) ∧
        sub.accepted.name ≠ "" ∧ sub.accepted.age ≠ "" ∧ sub.accepted.city ≠ "" ∧
          sub.accepted.country ≠ ""

/-- When a completion finds a current user, it is the account of the request, and the
four fields of the screen are those accepted. -/
def HeldSince (s : RegState C) (e : Nat × RegEvent) : Prop :=
  ∀ sub account form, Completes s e sub account form →
    ∀ user, (s.clients e.1).currentUser = some user →
      user = account ∧ form.SameProfile sub.accepted

/-- No other step writes a profile. -/
theorem HeldSince.of_ne {e : Nat × RegEvent} (h : ∀ j, e.2 ≠ .onComplete j) :
    HeldSince s e := by
  intro sub account form hc
  obtain ⟨j, hj, -⟩ := hc.event
  exact absurd hj (h j)

/-- The profile records that `userProfile` writes. -/
theorem mem_userProfile {role : Role} {form : AccountForm} {currentUser : Option Uid}
    {w : Write C} : (w ∈ ((role.userProfile form currentUser).run []).2 ∧ IsProfile w) ↔
      ∃ user, currentUser = some user ∧ w = profileWrite role user form := by
  rw [Role.userProfile_eq]
  cases currentUser with
  | none => simp [userProfile_run_none]
  | some user =>
    rw [userProfile_run]
    constructor
    · rintro ⟨hw, hprofile⟩
      simp only [List.nil_append, List.mem_cons, List.not_mem_nil, or_false] at hw
      rcases hw with rfl | rfl
      · exact ⟨user, rfl, rfl⟩
      · exact absurd hprofile (not_isProfile_typeWrite role user)
    · rintro ⟨_, ⟨rfl⟩, rfl⟩
      exact ⟨by simp, isProfile_profileWrite role user form⟩

/-- **One step.** -/
theorem storesAccepted_iff_held (h : Registered s) (e : Nat × RegEvent) :
    StoresAccepted s e ↔ HeldSince s e := by
  refine forall_congr' fun sub => forall₃_congr ?_
  intro account form hc
  obtain ⟨j, -, hj⟩ := hc.event
  have hsub := h.clients e.1 sub (List.mem_of_getElem? hj)
  have hown := hsub.created account hc.created
  constructor
  · intro hstores user huser
    obtain ⟨hw, hprofile⟩ := mem_userProfile.2
      ⟨user, huser, (rfl : (profileWrite sub.role user form : Write C) = _)⟩
    obtain ⟨⟨a, ha, hemail, heq⟩, -⟩ := hstores _ hw hprofile
    obtain ⟨rfl, hsame⟩ := profileWrite_inj.1 heq
    -- the email belongs to one account only
    obtain rfl := h.emails a ha _ hown hemail
    exact ⟨rfl, hsame⟩
  · intro hheld w hw hprofile
    obtain ⟨user, huser, rfl⟩ := mem_userProfile.1 ⟨hw, hprofile⟩
    obtain ⟨rfl, hsame⟩ := hheld user huser
    exact ⟨⟨_, hown, rfl, profileWrite_inj.2 ⟨rfl, hsame⟩⟩,
      Role.checkFormFields_ok hsub.accepted⟩

/-- **When what is stored is what was accepted.** -/
theorem storesAccepted_iff {tr : List (RegState C × Nat × RegEvent)}
    (h : Trace (registrations C) tr s) : Meets StoresAccepted tr ↔ Meets HeldSince tr :=
  h.meets_iff (I := Registered) registered_start
    (fun _ _ hs he => registered_next hs he) fun _ e hs _ => storesAccepted_iff_held hs e

/-- A form with nothing missing. -/
def annForm : AccountForm := ⟨"ann@example", "secret", "Ann", "20", "Rome", "Italy"⟩

/-- A registration on one device, up to the answer of the service. -/
def annRegisters : List (Nat × RegEvent) :=
  [(0, .openScreen .user), (0, .edit 0 annForm), (0, .createUserAccount 0), (0, .created 0 ann)]

theorem annRegisters_runs : Runs (registrations Int) (registrations Int).start
    (annRegisters ++ [(0, .onComplete 0)]) :=
  ⟨trivial, ⟨_, rfl⟩, ⟨_, rfl⟩, ⟨_, rfl, rfl, nofun⟩, ⟨_, rfl, nofun, rfl⟩, trivial⟩

/-- The listener runs while the fields are as they were. -/
theorem storesAccepted_annRegisters : Meets StoresAccepted
    (steps (registrations Int) (registrations Int).start
      (annRegisters ++ [(0, .onComplete 0)])) := by
  refine (storesAccepted_iff (Trace.of_events annRegisters_runs)).2 ?_
  simp only [annRegisters, List.cons_append, List.nil_append, meets_steps_cons,
    meets_steps_nil, and_true]
  refine ⟨.of_ne nofun, .of_ne nofun, .of_ne nofun, .of_ne nofun, ?_⟩
  rintro sub account form ⟨⟨j, ⟨⟩, ⟨⟩⟩, ⟨⟩, ⟨⟩⟩ user ⟨⟩
  exact ⟨rfl, rfl, rfl, rfl, rfl⟩

/-- The name is deleted before the listener runs. -/
def annEdits : List (Nat × RegEvent) :=
  annRegisters ++ [(0, .edit 0 { annForm with name := "" }), (0, .onComplete 0)]

theorem annEdits_runs : Runs (registrations Int) (registrations Int).start annEdits :=
  ⟨trivial, ⟨_, rfl⟩, ⟨_, rfl⟩, ⟨_, rfl, rfl, nofun⟩, ⟨_, rfl⟩, ⟨_, rfl, nofun, rfl⟩, trivial⟩

/-- A profile without a name is stored. -/
theorem not_storesAccepted_annEdits : ¬ ∀ tr s, Trace (registrations Int) tr s →
    Meets StoresAccepted tr := by
  intro h
  have hstored := h _ _ (Trace.of_events annEdits_runs) _
    (mem_steps annEdits.dropLast (0, .onComplete 0) [] _)
  obtain ⟨⟨a, -, -, heq⟩, -⟩ := hstored _ ann { annForm with name := "" } ⟨⟨0, rfl, rfl⟩, rfl, rfl⟩
    (profileWrite .user ann { annForm with name := "" }) List.mem_cons_self rfl
  exact absurd (profileWrite_inj.1 heq).2.1 (by decide)

end Partimer
