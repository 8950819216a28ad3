import Partimer.Screens.Navigation

/-!
# Who has let in whom

A screen does not ask who is signed in, and a screen below the top of the back stack stays there
after the account has gone.  So the account of a role need not be signed in while a screen of
that role is open.  But somebody has been.

* `Admits` — the steps that lead from the screens for everybody to those of a role.
* `NavState.mem_stack_next`, `NavState.currentUser_next` — what a step leaves on the stack and
  who is signed in after it.
* `admitted_of_trace` — **a screen of a role is only open since somebody of the role was let
  in, and an account is only signed in since it has signed in or registered**.
-/

namespace Partimer

open CreateJobCompany Transition

variable {C : Type} {P : Platform C} {s : NavState}

/-! ## One step -/

/-- What a step leaves on the stack was there, or is the screen that it opens. -/
theorem NavState.mem_stack_next {e : NavEvent} {screen : Screen}
    (h : screen ∈ (s.next P e).stack) : screen ∈ s.stack ∨ s.opened P e = some screen := by
  unfold NavState.next at h
  cases hopened : s.opened P e with
  | some opened =>
    simp only [hopened] at h
    cases hcreate : opened.onCreateUid (s.userAt e) with
    | error _ =>
      rw [hcreate] at h
      exact absurd h List.not_mem_nil
    | ok _ =>
      rw [hcreate] at h
      rcases List.mem_cons.1 h with rfl | hold
      · exact Or.inr rfl
      · exact Or.inl hold
  | none =>
    simp only [hopened] at h
    cases e with
    | back => exact Or.inl (List.mem_of_mem_tail h)
    | ended => exact absurd h List.not_mem_nil
    | createJob form =>
      dsimp only at h
      split at h
      · exact absurd h List.not_mem_nil
      · exact Or.inl h
    | _ => exact Or.inl h

/-- Whoever is signed in when the screen is created is so after the step, also if its `onCreate`
throws. -/
theorem NavState.currentUser_next (e : NavEvent) : (s.next P e).currentUser = s.userAt e := by
  unfold NavState.next
  cases hopened : s.opened P e with
  | some screen =>
    dsimp only
    cases screen.onCreateUid (s.userAt e) <;> rfl
  | none =>
    cases e with
    | press button =>
      by_cases hne : button = .signOutbtn
      · subst hne
        -- the screens that sign out open the next one
        have hnot : ¬ (s.stack.head? = some .welcome ∨ s.stack.head? = some .welcomeCompany) := by
          rintro (htop | htop) <;> simp [NavState.opened, htop, onClick] at hopened
        exact (if_neg hnot).symm
      · exact (userAt_press hne).symm
    | createJob form =>
      dsimp only
      split <;> rfl
    | signedIn account => cases hopened
    | registered account => cases hopened
    | _ => rfl

/-- The steps that lead into the screens of a role: an account of the role signs in or
registers, or the picture on the log-in screen is pressed, which opens one of the users'
screens for anybody. -/
def Admits (role : Role) (s : NavState) : NavEvent → Prop
  | .signedIn account => account.role = role
  | .registered account => account.role = role
  | .press .facebookImage => s.stack.head? = some .logInActivity ∧ role = .user
  | _ => False

/-- All other steps open a screen of a role only from one of the same role. -/
theorem opened_role {e : NavEvent} {screen : Screen} {role : Role} (he : s.Enabled e)
    (hopened : s.opened P e = some screen) (hrole : screen.role = some role) :
    (∃ top ∈ s.stack, top.role = some role) ∨ Admits role s e := by
  cases e with
  | press button =>
    obtain ⟨top, htop, hscreen⟩ := Option.bind_eq_some_iff.1 hopened
    rw [onClick_role hscreen] at hrole
    by_cases hne : button = .signOutbtn
    · rw [if_pos hne] at hrole
      cases hrole
    · rw [if_neg hne] at hrole
      unfold Screen.asks at hrole
      split at hrole
      · next hpicture =>
        obtain ⟨rfl, rfl⟩ := hpicture
        exact Or.inr ⟨htop, (Option.some.inj hrole).symm⟩
      · exact Or.inl ⟨top, List.mem_of_mem_head? htop, hrole⟩
  | createJob form =>
    obtain rfl := opened_createJob hopened
    exact Or.inl ⟨.createJobCompany, List.mem_of_mem_head? he, hrole⟩
  | signedIn account =>
    cases hopened
    right
    cases hr : account.role <;> rw [hr] at hrole <;> exact hr.trans (Option.some.inj hrole)
  | registered account =>
    cases hopened
    right
    cases hr : account.role <;> rw [hr] at hrole <;> exact hr.trans (Option.some.inj hrole)
  | timeout => cases hopened; cases hrole
  | launch => cases hopened; cases hrole
  | back => cases hopened
  | ended => cases hopened

/-! ## Whole runs -/

/-- A screen of the role is open. -/
def IsOpen (role : Role) (s : NavState) : Prop := ∃ screen ∈ s.stack, screen.role = some role

/-- The account signs in or registers. -/
def ComesIn (account : Account) (_ : NavState) (e : NavEvent) : Prop :=
  e = .signedIn account ∨ e = .registered account

theorem isOpen_next {role : Role} {e : NavEvent} (he : s.Enabled e)
    (h : IsOpen role (s.next P e)) : IsOpen role s ∨ Admits role s e := by
  obtain ⟨screen, hmem, hrole⟩ := h
  rcases NavState.mem_stack_next hmem with hold | hopened
  · exact Or.inl ⟨screen, hold, hrole⟩
  · exact opened_role he hopened hrole

theorem comesIn_next {account : Account} {e : NavEvent}
    (h : (s.next P e).currentUser = some account) :
    s.currentUser = some account ∨ ComesIn account s e := by
  rw [NavState.currentUser_next] at h
  cases e with
  | signedIn account' => exact Or.inr (Or.inl (by rw [Option.some.inj h]))
  | registered account' => exact Or.inr (Or.inr (by rw [Option.some.inj h]))
  | press button =>
    by_cases hne : button = .signOutbtn
    · subst hne
      simp only [NavState.userAt] at h
      split at h
      · cases h
      · exact Or.inl h
    · rw [userAt_press hne] at h
      exact Or.inl h
  | _ => exact Or.inl h

/-- **Who has let in whom.**  If a screen of a role is open anywhere on the back stack, somebody of
that role has signed in or registered, or has pressed the picture on the log-in screen, which
leads to the users' screens only; and one of the role has been open ever since.  If an account is
signed in, it has signed in or registered, and has been signed in ever since. -/
theorem admitted_of_trace {tr : List (NavState × NavEvent)} (h : Trace (navigation P) tr s) :
    (∀ role, IsOpen role s → ∃ pre x post, tr = pre ++ x :: post ∧ Admits role x.1 x.2 ∧
      ∀ y ∈ post, IsOpen role y.1) ∧
    ∀ account, s.currentUser = some account → ∃ pre x post, tr = pre ++ x :: post ∧
      ComesIn account x.1 x.2 ∧ ∀ y ∈ post, y.1.currentUser = some account := by
  constructor
  · intro role hopen
    refine h.since (A := Admits role) (Q := IsOpen role) ?_ (fun _ _ => isOpen_next) hopen
    rintro ⟨screen, hmem, hrole⟩
    obtain rfl := List.mem_singleton.1 hmem
    cases hrole
  · intro account hsigned
    exact h.since (A := ComesIn account) (Q := fun s => s.currentUser = some account)
      (fun hstart => by cases hstart) (fun _ _ _ => comesIn_next) hsigned

theorem admitted_companyVisit :
    let tr := steps (navigation wholeDegrees) (navigation wholeDegrees).start companyVisit
    let s := companyVisit.foldl (navigation wholeDegrees).next (navigation wholeDegrees).start
    (∀ role, IsOpen role s → ∃ pre x post, tr = pre ++ x :: post ∧ Admits role x.1 x.2 ∧
      ∀ y ∈ post, IsOpen role y.1) ∧
    ∀ account, s.currentUser = some account → ∃ pre x post, tr = pre ++ x :: post ∧
      ComesIn account x.1 x.2 ∧ ∀ y ∈ post, y.1.currentUser = some account :=
  admitted_of_trace (Trace.of_events companyVisit_runs)

end Partimer
