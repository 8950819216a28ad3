import Partimer.Deployment.Answers
import Partimer.Deployment.DatabaseSchema
import Partimer.Screens.Welcome

/-!
# What the listeners make of profiles and types

Three listeners read the records of accounts: that of `EmployeeMapActivity` for a person's
profile, that of `WelcomeCompany` for a company's, and that of `LogInActivity` for the type.

* `listeners_of_trace` — **none of them comes upon anything it cannot read**, in any state of the
  deployment; the sign-in alone throws, for an account without a type.
* `ProfileIssued`, `profileNode_of_trace` — the profile of an account is the form that one
  registration has found on its screen.
* `ends_deliverProfile` — **no profile ends a process**.
* `welcome_of_trace` — **what `Welcome` shows**: a whole form of one registration, or `null` four
  times, never anything mixed.
-/

namespace Partimer

open KeyTree CreateJobCompany Registration Transition

variable {C : Type}

/-! ## Reading a record of the form -/

/-- A profile that is not there. -/
def Profile.null : Profile := ⟨none, none, none, none⟩

/-- The profile of a form. -/
def AccountForm.profile (form : AccountForm) : Profile :=
  ⟨some form.name, some form.age, some form.city, some form.country⟩

/-- The record that a registration stores. -/
def AccountForm.record (role : Role) (form : AccountForm) : Node String (Value C) :=
  mapNode [(role.nameKey, form.name), ("age", form.age), ("country", form.country),
    ("city", form.city)]

theorem profileOf_none : profileOf (none : DataSnapshot C) = .ok Profile.null := rfl

theorem profileOf_record (form : AccountForm) :
    profileOf (some (form.record .user) : DataSnapshot C) = .ok form.profile := rfl

/-- The profile listener goes through where the four texts can be read. -/
theorem onCreateProfile_run {t : DataSnapshot C} {p : Profile} (h : profileOf t = .ok p)
    (l : List (Option String)) :
    (EmployeeMapActivity.onCreateProfile t).run l = (.ok (), l ++ p.toList) := by
  unfold EmployeeMapActivity.onCreateProfile EmployeeMapActivity.addDetail
  unfold profileOf at h
  cases hname : DataSnapshot.getString (child t "User_name") with
  | error e => rw [hname] at h; cases h
  | ok name =>
    cases hage : DataSnapshot.getString (child t "age") with
    | error e => rw [hname, hage] at h; cases h
    | ok age =>
      cases hcity : DataSnapshot.getString (child t "city") with
      | error e => rw [hname, hage, hcity] at h; cases h
      | ok city =>
        cases hcountry : DataSnapshot.getString (child t "country") with
        | error e => rw [hname, hage, hcity, hcountry] at h; cases h
        | ok country =>
          rw [hname, hage, hcity, hcountry] at h
          cases h
          show (Except.ok (), l ++ [name] ++ [age] ++ [city] ++ [country]) = _
          simp [Profile.toList]

section Runs

variable {P : Platform C} {s : Deployment C} {tr : List (Deployment C × Nat × DeviceEvent C)}

/-- A type of the deployment is not there, or that of a role. -/
theorem typeNode_cases (h : Trace (deployment P) tr s) (account : Uid) :
    typeNode s.reg.db account = none ∨ ∃ role : Role, typeOf s.reg.db account = some role.type := by
  have hholds := (schema_of_trace h).fetch ["Users_type", account.text]
  rw [sub_type] at hholds
  have hnode : typeNode s.reg.db account = fetch s.reg.db ["Users_type", account.text] := by
    unfold typeNode
    rw [account.plain]
    rfl
  unfold typeOf
  rw [hnode]
  cases hn : fetch s.reg.db ["Users_type", account.text] with
  | none => exact Or.inl rfl
  | some n =>
    obtain ⟨m, hm, v, rfl, role, rfl⟩ := (hholds n hn).exists_field (List.mem_singleton_self _)
    refine Or.inr ⟨role, ?_⟩
    rw [hm]
    rfl

/-- An account with a type has the profile of its role, whatever else the deployment does. -/
theorem typed_of_trace (h : Trace (deployment P) tr s) {account : Uid} {role : Role}
    (htype : typeOf s.reg.db account = some role.type) :
    CompleteProfile role (profileNode s.reg.db role account) := by
  refine (accounts_simulation P).transfer (J := Typed) (I := fun s =>
    typeOf s.reg.db account = some role.type →
      CompleteProfile role (profileNode s.reg.db role account)) ?_ ?_ h htype
  · intro tr' r hr
    exact hr.invariant typed_start fun _ _ hs he => typed_next hs he
  · intro s r hsame htyped htype
    have htypes : typeOf r.db account = typeOf s.reg.db account := by
      unfold typeOf typeNode
      simp only [List.cons_append, List.nil_append, fetch_cons, hsame.db "Users_type" (by decide)]
    have hprofile : profileNode r.db role account = profileNode s.reg.db role account := by
      unfold profileNode
      simp only [List.cons_append, List.nil_append, fetch_cons, hsame.db "Users" (by decide)]
    rw [← hprofile]
    exact htyped.stored account role (htypes.trans htype)

/-- A registration of the run has stored the form for the account. -/
def RegisteredIn (tr : List (Deployment C × Nat × DeviceEvent C)) (role : Role) (account : Uid)
    (form : AccountForm) : Prop := ∃ x ∈ tr, Registers x.1 x.2 role account form

/-- The record is not there, or the form that one registration has stored for the account. -/
def ProfileIssued (tr : List (Deployment C × Nat × DeviceEvent C)) (role : Role) (account : Uid)
    (t : DataSnapshot C) : Prop :=
  t = none ∨ ∃ form, RegisteredIn tr role account form ∧ t = some (form.record role)

theorem ProfileIssued.mono {tr' : List (Deployment C × Nat × DeviceEvent C)} {role : Role}
    {account : Uid} {t : DataSnapshot C} (h : ProfileIssued tr role account t)
    (hsub : tr ⊆ tr') : ProfileIssued tr' role account t := by
  rcases h with rfl | ⟨form, ⟨x, hx, hregisters⟩, rfl⟩
  · exact Or.inl rfl
  · exact Or.inr ⟨form, ⟨x, hsub hx, hregisters⟩, rfl⟩

theorem profileNode_profileWrite_self (role : Role) (account : Uid) (form : AccountForm)
    (db : Database C) :
    profileNode ((profileWrite role account form).apply db) role account =
      some (form.record role) := by
  have hstored := fetch_store_append (["Users", role.folder] ++ childPath account.text) []
    (form.record role : Node String (Value C)) db
  rwa [List.append_nil] at hstored

/-- A write of the run leaves the profile of an account as it was, or stores it. -/
theorem profileNode_apply_issued {w : Write C} (hw : IssuedIn P tr w) (db : Database C)
    (role : Role) (account : Uid) :
    profileNode (w.apply db) role account = profileNode db role account ∨
      ∃ form, RegisteredIn tr role account form ∧
        profileNode (w.apply db) role account = some (form.record role) := by
  obtain ⟨x, hx, hissued⟩ := hw
  cases hissued with
  | location hposts => exact Or.inl (profileNode_apply_of_diverge db (.here (by decide) _ _))
  | details hposts => exact Or.inl (profileNode_apply_of_diverge db (.here (by decide) _ _))
  | type hregisters => exact Or.inl (profileNode_typeWrite ..)
  | @profile role' user form hregisters =>
    by_cases hsame : role = role' ∧ account = user
    · obtain ⟨rfl, rfl⟩ := hsame
      exact Or.inr ⟨form, ⟨x, hx, hregisters⟩, profileNode_profileWrite_self ..⟩
    · refine Or.inl (profileNode_apply_of_diverge db ?_)
      rw [profileWrite, user.plain]
      by_cases hrole : role = role'
      · have hne : account.text ≠ user.text :=
          fun heq => hsame ⟨hrole, Uid.ext_text heq⟩
        rw [hrole]
        exact .there _ (.there _ (.here hne [] []))
      · have hne : role.folder ≠ role'.folder := by
          revert hrole
          cases role <;> cases role' <;> decide
        exact .there _ (.here hne _ _)

/-- **The profile of an account** is the form of one registration, unchanged. -/
theorem profileNode_of_trace (h : Trace (deployment P) tr s) (role : Role) (account : Uid) :
    ProfileIssued tr role account (profileNode s.reg.db role account) := by
  refine holds_of_writes (I := fun db => ProfileIssued tr role account
    (profileNode db role account)) h ?_ ?_
  · refine Or.inl ?_
    unfold profileNode
    exact fetch_none _
  · intro w db hw hdb
    rcases profileNode_apply_issued hw db role account with hsame | ⟨form, hform, hnode⟩
    · rwa [hsame]
    · exact Or.inr ⟨form, hform, hnode⟩

end Runs

/-! ## What `Welcome` shows -/

section Screens

variable {P : Platform C} {s : Deployment C} {tr : List (Deployment C × Nat × DeviceEvent C)}

/-- The record is the profile of some person, as one registration has stored it. -/
def PersonIssued (tr : List (Deployment C × Nat × DeviceEvent C)) (t : DataSnapshot C) : Prop :=
  ∃ account, ProfileIssued tr .user account t

/-- Every process has been answered such records only. -/
theorem profiles_of_trace (h : Trace (deployment P) tr s) (c : Nat) :
    (s.processes c).Answers (fun _ => True) (PersonIssued tr) := by
  refine answers_of_trace (J := fun _ _ => True) (G := PersonIssued) ?_ ?_ ?_ ?_ h c
  · exact fun _ _ _ _ => trivial
  · exact fun _ _ _ _ _ => trivial
  · rintro tr x t ⟨account, ht⟩
    exact ⟨account, ht.mono (List.subset_append_left _ _)⟩
  · exact fun tr s hrun account => ⟨account, profileNode_of_trace hrun .user account⟩

/-- What a process reads of such a record: nothing, or the form of a registration. -/
theorem PersonIssued.profileOf {t : DataSnapshot C} (h : PersonIssued tr t) :
    ∃ p, Partimer.profileOf t = .ok p ∧ (p = Profile.null ∨
      ∃ account form, RegisteredIn tr .user account form ∧ p = form.profile) := by
  obtain ⟨account, rfl | ⟨form, hform, rfl⟩⟩ := h
  · exact ⟨Profile.null, profileOf_none, Or.inl rfl⟩
  · exact ⟨form.profile, profileOf_record form, Or.inr ⟨account, form, hform, rfl⟩⟩

/-- **No profile that is delivered ends a process.** -/
theorem ends_deliverProfile (h : Trace (deployment P) tr s) {c i : Nat}
    (he : s.Enabled c (.screen (.deliverProfile i))) :
    s.ends P c (.screen (.deliverProfile i)) = false := by
  obtain ⟨account, record, hi⟩ := he
  have hread := (profiles_of_trace h c).profilesAnswered account record (List.mem_of_getElem? hi)
  obtain ⟨p, hp, -⟩ := hread.profileOf
  simp only [Deployment.ends, ScreenEvent.session, Session.ends, hi, onCreateProfile_run hp]
  rfl

/-- **What `Welcome` shows**, on every device and in every state of the deployment.  Before the
process was delivered a profile it throws, and so it does with nobody signed in; otherwise it
shows `null` four times, or the name, age, city and country of one form that a registration of
the run has stored for one person. -/
theorem welcome_of_trace (h : Trace (deployment P) tr s) (c : Nat) :
    ((s.processes c).profilesDelivered = [] →
      Welcome.onCreate (s.processes c).userDetails (s.reg.clients c).currentUser =
        .error .indexOutOfBounds) ∧
    ((s.processes c).profilesDelivered ≠ [] →
      ((s.reg.clients c).currentUser = none →
        Welcome.onCreate (s.processes c).userDetails none = .error .nullPointer) ∧
      ∀ user, (s.reg.clients c).currentUser = some user →
        ∃ p, Welcome.onCreate (s.processes c).userDetails (some user) = .ok p ∧
          (p = Profile.null ∨
            ∃ account form, RegisteredIn tr .user account form ∧ p = form.profile)) := by
  obtain ⟨tr', _, hsession, rfl⟩ := (session_simulation P c).trace h
  obtain ⟨ps, hps, hdetails⟩ := (filled_of_trace hsession).userDetails
  have hissued := (profiles_of_trace h c).profilesDelivered
  have hprocess : (s.view c).process = s.processes c := rfl
  rw [hprocess] at hps hdetails
  rw [hdetails]
  generalize (s.processes c).profilesDelivered = delivered at hps hissued ⊢
  cases hps with
  | nil => exact ⟨fun _ => onCreate_nil _, fun hne => absurd rfl hne⟩
  | @cons first p rest qs hp _ =>
    refine ⟨nofun, fun _ => ⟨fun _ => rfl, ?_⟩⟩
    intro user _
    rw [List.flatMap_cons]
    refine ⟨p, onCreate_append p _ user, ?_⟩
    obtain ⟨p', hp', hshape⟩ := (hissued first List.mem_cons_self).profileOf
    obtain rfl : p = p' := Except.ok.inj (hp.symm.trans hp')
    exact hshape

theorem welcome_marketDay :
    let s := marketDay.foldl (deployment wholeDegrees).next (deployment wholeDegrees).start
    ∃ p, Welcome.onCreate (s.processes 1).userDetails (some ann) = .ok p ∧ (p = Profile.null ∨
      ∃ account form, RegisteredIn (steps (deployment wholeDegrees)
        (deployment wholeDegrees).start marketDay) .user account form ∧ p = form.profile) :=
  ((welcome_of_trace (Trace.of_events marketDay_runs) 1).2 nofun).2 ann rfl

end Screens

end Partimer
