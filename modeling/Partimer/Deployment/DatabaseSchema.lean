import Partimer.Deployment.Accounts
import Partimer.Deployment.Delivery
import Partimer.Lib.Schema

/-!
# The form of the database

Nothing in the app declares what the database looks like; every activity writes and reads by
paths of its own.  This file says what they make of it together.

* `databaseSchema` — profiles and types of accounts, each a whole record, and the jobs of
  accounts.
* `Fits`, `fits_of_issued` — every write issued in a run fits the form.
* `schema_of_trace`, `holds_of_trace` — **the database has this form in every state that a
  deployment reaches**, whatever waits, is lost or goes on at the same time.
-/

namespace Partimer

open KeyTree CreateJobCompany Registration Transition

variable {C : Type}

/-! ## The form -/

/-- A text of the database. -/
def IsText (v : Value C) : Prop := ∃ text, v = .text text

/-- The text of a type. -/
def IsType (v : Value C) : Prop := ∃ role : Role, v = .text role.type

/-- The key is the uid of an account. -/
def IsAccount (accounts : List Auth) (k : String) : Prop := ∃ a ∈ accounts, a.account.text = k

/-- The record of a profile. -/
def profileSchema (role : Role) : Schema String (Value C) :=
  .record role.profileKeys fun _ => .leaf IsText

/-- The record of a type. -/
def typeSchema : Schema String (Value C) := .record ["type"] fun _ => .leaf IsType

/-- The profiles of a role. -/
def profilesSchema (accounts : List Auth) (role : Role) : Schema String (Value C) :=
  .folder (IsAccount accounts) fun _ => profileSchema role

/-- **The form of the database.**  Below `Users` the profiles of the two roles, below
`Users_type` the types, and below `Jobs` whatever each company has posted, all of them under
the uids of accounts. -/
def databaseSchema (accounts : List Auth) : Schema String (Value C) :=
  .folder (fun k => k = "Users" ∨ k = "Users_type" ∨ k = "Jobs") fun k =>
    if k = "Users" then
      .folder (fun folder => ∃ role : Role, role.folder = folder) fun folder =>
        profilesSchema accounts (if folder = "Person" then .user else .company)
    else if k = "Users_type" then .folder (IsAccount accounts) fun _ => typeSchema
    else .folder (IsAccount accounts) fun _ => .free

/-- The form of a profile is found under the folder of its role. -/
theorem sub_profile (accounts : List Auth) (role : Role) (k : String) :
    (databaseSchema accounts : Schema String (Value C)).sub ["Users", role.folder, k] =
      profileSchema role := by
  cases role <;> rfl

theorem sub_type (accounts : List Auth) (k : String) :
    (databaseSchema accounts : Schema String (Value C)).sub ["Users_type", k] = typeSchema := rfl

/-! ## Writes that fit -/

/-- The write goes where the form lets it, and brings what belongs there. -/
def Fits (S : Schema String (Value C)) (w : Write C) : Prop :=
  S.Enters w.path ∧ (S.sub w.path).Conforms w.value

theorem Fits.apply {S : Schema String (Value C)} {w : Write C} (hw : Fits S w) {db : Database C}
    (h : S.Holds db) : S.Holds (w.apply db) := Schema.holds_some.2 (h.store hw.1 hw.2)

/-- The node of a map whose keys are those of a record. -/
theorem conforms_mapNode {kind : Value C → Prop} {fields : List String}
    {entries : List (String × String)} (hfields : (entries.map Prod.fst).Perm fields)
    (hnodup : fields.Nodup) (hkind : ∀ e ∈ entries, kind (.text e.2)) :
    (Schema.record fields fun _ => .leaf kind).Conforms
      (mapNode entries : Node String (Value C)) := by
  have hkeys : keys (entries.map fun e => (e.1, (Node.leaf (.text e.2) : Node String (Value C)))) =
      entries.map Prod.fst := by
    simp [keys, Function.comp_def]
  refine ⟨_, rfl, ?_, ?_, ?_⟩
  · rw [hkeys]
    exact hfields.nodup_iff.2 hnodup
  · rw [hkeys]
    exact hfields
  · intro x hx
    obtain ⟨e, he, rfl⟩ := List.mem_map.1 hx
    exact ⟨_, rfl, hkind e he⟩

/-- The record of a location. -/
def locationSchema : Schema String (Value C) :=
  .record ["g", "l"] fun k =>
    if k = "l" then .record ["0", "1"] fun _ => .leaf fun v => ∃ c, v = .number c
    else .leaf IsText

theorem conforms_locationNode (P : Platform C) (location : GeoLocation C) :
    locationSchema.Conforms (locationNode P location) := by
  refine ⟨_, rfl, by simp, .refl _, ?_⟩
  simp only [List.forall_mem_cons, List.not_mem_nil, false_implies, implies_true, and_true]
  refine ⟨⟨_, rfl, _, rfl⟩, _, rfl, by simp, .refl _, ?_⟩
  simp only [List.forall_mem_cons, List.not_mem_nil, false_implies, implies_true, and_true]
  exact ⟨⟨_, rfl, _, rfl⟩, _, rfl, _, rfl⟩

section Fitting

variable {accounts : List Auth} {account : Uid}

theorem Role.nodup_profileKeys (role : Role) : role.profileKeys.Nodup := by
  cases role <;> decide

theorem fits_profileWrite (hknown : IsAccount accounts account.text) (role : Role)
    (form : AccountForm) :
    Fits (databaseSchema accounts : Schema String (Value C)) (profileWrite role account form) := by
  unfold Fits profileWrite
  rw [account.plain]
  constructor
  · cases role
    · exact ⟨Or.inl rfl, ⟨.user, rfl⟩, hknown, trivial⟩
    · exact ⟨Or.inl rfl, ⟨.company, rfl⟩, hknown, trivial⟩
  · show ((databaseSchema accounts).sub ["Users", role.folder, account.text]).Conforms _
    rw [sub_profile]
    refine conforms_mapNode ?_ role.nodup_profileKeys fun e _ => ⟨e.2, rfl⟩
    -- the country is put before the city
    exact .cons _ (.cons _ (.swap _ _ _))

theorem fits_typeWrite (hknown : IsAccount accounts account.text) (role : Role) :
    Fits (databaseSchema accounts : Schema String (Value C)) (typeWrite role account) := by
  unfold Fits typeWrite
  rw [account.plain]
  refine ⟨⟨Or.inr (Or.inl rfl), hknown, trivial⟩, ?_⟩
  show ((databaseSchema accounts).sub ["Users_type", account.text]).Conforms _
  rw [sub_type]
  refine conforms_mapNode (.refl _) (by simp) ?_
  intro e he
  obtain rfl := List.mem_singleton.1 he
  exact ⟨role, rfl⟩

/-- Below the node of a company everything goes that lists no key twice. -/
theorem fits_below_jobs (hknown : IsAccount accounts account.text) (rel : List String)
    {value : Node String (Value C)} (hvalue : Distinct (some value)) :
    Fits (databaseSchema accounts) ⟨["Jobs", account.text] ++ rel, value⟩ := by
  have henters : ∀ rel, (Schema.free : Schema String (Value C)).Enters rel := by
    intro rel
    induction rel with
    | nil => trivial
    | cons k rel ih => exact ⟨trivial, ih⟩
  refine ⟨⟨Or.inr (Or.inr rfl), hknown, henters rel⟩, ?_⟩
  show (Schema.free.sub rel).Conforms value
  rw [Schema.sub_free]
  exact hvalue

end Fitting

/-! ## Whose writes they are -/

section Known

variable {P : Platform C} {s : Deployment C}

theorem IsAccount.mono {accounts accounts' : List Auth} {k : String} (h : IsAccount accounts k)
    (hsub : accounts ⊆ accounts') : IsAccount accounts' k := by
  obtain ⟨a, ha, hk⟩ := h
  exact ⟨a, hsub ha, hk⟩

/-- No account is ever deleted. -/
theorem RegState.accounts_subset (r : RegState C) (c : Nat) (e : RegEvent) :
    r.accounts ⊆ (r.next c e).accounts := by
  cases e with
  | created j account =>
    simp only [RegState.next]
    split
    · exact List.Subset.refl _
    · exact List.subset_append_left _ _
  | failed j | onComplete j =>
    simp only [RegState.next]
    split <;> exact List.Subset.refl _
  | send =>
    simp only [RegState.next]
    split <;> exact List.Subset.refl _
  | _ => exact List.Subset.refl _

/-- Only accounts of the service are signed in. -/
def SignedInKnown (r : RegState C) : Prop :=
  ∀ c account, (r.clients c).currentUser = some account → IsAccount r.accounts account.text

theorem SignedInKnown.next {r : RegState C} (h : SignedInKnown r) {c : Nat} {e : RegEvent}
    (he : r.Enabled c e) : SignedInKnown (r.next c e) := by
  intro c' account hsigned
  by_cases hc : c' = c
  · subst hc
    rcases r.next_currentUser c' e with hsame | ⟨account', hwhich, hin⟩ | ⟨-, hout⟩
    · rw [hsame] at hsigned
      exact (h c' account hsigned).mono (r.accounts_subset c' e)
    · obtain rfl : account' = account := Option.some.inj (hin.symm.trans hsigned)
      rcases hwhich with rfl | ⟨j, rfl⟩
      · obtain ⟨a, ha, rfl⟩ := he
        exact ⟨a, ha, rfl⟩
      · obtain ⟨sub, hj, -⟩ := he
        simp only [RegState.next, hj]
        exact ⟨_, List.mem_append_right _ (List.mem_singleton_self _), rfl⟩
    · cases hout.symm.trans hsigned
  · rw [RegState.next_clients_ne hc] at hsigned
    exact (h c' account hsigned).mono (r.accounts_subset c e)

/-- **Whoever is signed in has an account**, in every state of the deployment. -/
theorem signedInKnown_of_trace {tr : List (Deployment C × Nat × DeviceEvent C)}
    (h : Trace (deployment P) tr s) : SignedInKnown s.reg := by
  refine (accounts_simulation P).transfer (J := SignedInKnown) (I := fun s => SignedInKnown s.reg)
    ?_ ?_ h
  · intro tr' r hr
    refine hr.invariant ?_ fun r e hr he => hr.next he
    intro c account hsigned
    cases hsigned
  · intro s r hsame hknown c account hsigned
    rw [← hsame.accounts]
    refine hknown c account ?_
    rw [hsame.clients c]
    exact hsigned

/-- No step deletes an account. -/
theorem accounts_next (c : Nat) (e : DeviceEvent C) :
    s.reg.accounts ⊆ (s.next P c e).reg.accounts := by
  cases e with
  | account e =>
    rw [Deployment.reg_next_account]
    exact s.reg.accounts_subset c e
  | createJob form =>
    rcases Deployment.next_createJob (P := P) (s := s) c form with
      ⟨company, location, -, -, -, -, -, hnext⟩ | ⟨-, ⟨-, hnext⟩ | ⟨-, hnext⟩⟩
    · rw [hnext]
      exact List.Subset.refl _
    · rw [hnext]
      exact List.Subset.refl _
    · rw [hnext]
      exact List.Subset.refl _
  | screen e =>
    rcases Deployment.reg_next_screen (P := P) (s := s) c e with hreg | hreg
    · rw [hreg]
      exact List.Subset.refl _
    · rw [hreg]
      exact List.Subset.refl _

end Known

/-! ## The form is kept -/

section Runs

variable {P : Platform C} {s : Deployment C} {tr : List (Deployment C × Nat × DeviceEvent C)}

/-- **Every write issued in a run fits the form**, for the accounts that there are by now. -/
theorem fits_of_issued (h : Trace (deployment P) tr s) {w : Write C} (hw : IssuedIn P tr w) :
    Fits (databaseSchema s.reg.accounts) w := by
  obtain ⟨x, hx, hissued⟩ := hw
  have hknown : ∀ account, (x.1.reg.clients x.2.1).currentUser = some account →
      IsAccount s.reg.accounts account.text := by
    intro account hsigned
    obtain ⟨pre, hpre, -, -⟩ := h.of_mem hx
    refine (signedInKnown_of_trace hpre _ _ hsigned).mono ?_
    have hlater := h.rel_of_mem (R := fun s t => s.reg.accounts ⊆ t.reg.accounts)
      (fun _ => List.Subset.refl _) (fun _ _ _ => List.Subset.trans)
      (fun s e _ => accounts_next e.1 e.2) hx
    exact List.Subset.trans (accounts_next x.2.1 x.2.2) hlater
  cases hissued with
  | location hposts =>
    exact fits_below_jobs (hknown _ hposts.2.1) _ (conforms_locationNode P _).distinct
  | @details company form location hposts =>
    have hconforms : (Schema.record ["Position", "Salary"] fun _ => .leaf IsText).Conforms
        (newPost form.etPos form.etSal : Node String (Value C)) :=
      conforms_mapNode (.refl _) (by simp) fun e _ => ⟨e.2, rfl⟩
    exact fits_below_jobs (hknown _ hposts.2.1) _ hconforms.distinct
  | profile hregisters =>
    obtain ⟨j, sub, screen, account, -, -, -, -, -, -, huser⟩ := hregisters
    exact fits_profileWrite (hknown _ huser) _ _
  | type hregisters =>
    obtain ⟨j, sub, screen, account, -, -, -, -, -, -, huser⟩ := hregisters
    exact fits_typeWrite (hknown _ huser) _

/-- Every write applied keeps the form. -/
theorem schema_of_trace (h : Trace (deployment P) tr s) :
    (databaseSchema s.reg.accounts).Holds s.reg.db :=
  holds_of_writes h (Schema.holds_none _) fun _ _ hw hdb => (fits_of_issued h hw).apply hdb

/-- **The form of the database**, in every state that a deployment reaches: whole profiles
and types, and jobs, each under the uid of an account, and nothing else; and no node lists a
key twice. -/
theorem holds_of_trace (h : Trace (deployment P) tr s) :
    (databaseSchema s.reg.accounts).Holds s.reg.db ∧ Distinct s.reg.db :=
  ⟨schema_of_trace h, (schema_of_trace h).distinct⟩

theorem holds_marketDay :
    let s := marketDay.foldl (deployment wholeDegrees).next (deployment wholeDegrees).start
    (databaseSchema s.reg.accounts).Holds s.reg.db ∧ Distinct s.reg.db :=
  holds_of_trace (Trace.of_events marketDay_runs)

end Runs

end Partimer
