import Partimer.Accounts.SignUpCut

/-!
# A type stands for a whole profile

A completed registration issues two writes, first the profile and then the type, and
the server applies the writes of one device in the order issued.  So whatever is lost
when a process ends, a type is never stored before the profile it speaks of; a process
that ends between the two calls leaves what one leaves whose second write is unsent.

* `CompleteProfile` — a record holds the four texts of a profile.
* `Pairs`, `Queued` — what waits on a device: whole pairs of profile and type, or a
  type whose profile is stored already, and then whole pairs.
* `Typed` — the invariant; `typed_next` — every step keeps it.
* `complete_of_typed` — in every state that a run reaches, an account with a type has
  a complete profile in the folder of that type.
* `Records`, `Records.next` — and no profile is stored in part.
-/

namespace Partimer

open KeyTree Registration Transition

variable {C : Type}

/-! ## Profiles in the database -/

/-- The profile of an account in the folder of a role. -/
def profileNode (db : Database C) (role : Role) (account : Uid) : DataSnapshot C :=
  fetch db (["Users", role.folder] ++ childPath account.text)

/-- The keys of a profile. -/
def Role.profileKeys (role : Role) : List String := [role.nameKey, "age", "city", "country"]

/-- The record holds a text under every key of a profile. -/
def CompleteProfile (role : Role) (t : DataSnapshot C) : Prop :=
  ∀ key ∈ role.profileKeys, ∃ text, child t key = some (.leaf (.text text))

/-- A write elsewhere leaves a profile alone. -/
theorem profileNode_apply_of_diverge {w : Write C} {role : Role} {account : Uid}
    (db : Database C) (h : Diverge w.path ["Users", role.folder, account.text]) :
    profileNode (w.apply db) role account = profileNode db role account := by
  unfold profileNode Write.apply
  rw [account.plain]
  exact fetch_store_of_diverge h w.value db

/-- A type is no profile. -/
theorem profileNode_typeWrite (role other : Role) (account account' : Uid) (db : Database C) :
    profileNode ((typeWrite other account').apply db) role account =
      profileNode db role account :=
  profileNode_apply_of_diverge db (.here (by decide) _ _)

/-- A profile that a registration stores is complete. -/
theorem complete_profileWrite (role : Role) (account : Uid) (form : AccountForm)
    (db : Database C) :
    CompleteProfile role
      (profileNode ((profileWrite role account form).apply db) role account) := by
  have hstored := fetch_store_append (["Users", role.folder] ++ childPath account.text) []
    (mapNode [(role.nameKey, form.name), ("age", form.age), ("country", form.country),
      ("city", form.city)] : Node String (Value C)) db
  rw [List.append_nil] at hstored
  unfold profileNode Write.apply profileWrite
  rw [hstored]
  intro key hkey
  simp only [Role.profileKeys, List.mem_cons, List.not_mem_nil, or_false] at hkey
  rcases hkey with rfl | rfl | rfl | rfl
  · exact ⟨form.name, by cases role <;> rfl⟩
  · exact ⟨form.age, by cases role <;> rfl⟩
  · exact ⟨form.city, by cases role <;> rfl⟩
  · exact ⟨form.country, by cases role <;> rfl⟩

/-- Storing a profile changes no other one. -/
theorem profileNode_profileWrite (role : Role) (account : Uid) (form : AccountForm)
    (db : Database C) (role' : Role) (account' : Uid) :
    profileNode ((profileWrite role account form).apply db) role' account' =
        profileNode db role' account' ∨
      CompleteProfile role'
        (profileNode ((profileWrite role account form).apply db) role' account') := by
  by_cases hr : role' = role
  · subst hr
    by_cases ha : account' = account
    · subst ha
      exact Or.inr (complete_profileWrite role' account' form db)
    · have hne : account'.text ≠ account.text := fun heq => ha (Uid.ext_text heq)
      refine Or.inl (profileNode_apply_of_diverge db ?_)
      rw [Registration.profileWrite, account.plain]
      exact .there _ (.there _ (.here hne [] []))
  · have hne : role'.folder ≠ role.folder := by
      revert hr
      cases role' <;> cases role <;> decide
    exact Or.inl (profileNode_apply_of_diverge db (.there _ (.here hne _ _)))

/-- A profile that is stored over another one leaves it complete. -/
theorem CompleteProfile.profileWrite {role : Role} {account : Uid} {db : Database C}
    (h : CompleteProfile role (profileNode db role account)) (role' : Role) (account' : Uid)
    (form : AccountForm) :
    CompleteProfile role
      (profileNode ((profileWrite role' account' form).apply db) role account) := by
  rcases profileNode_profileWrite role' account' form db role account with hsame | hdone
  · rw [hsame]
    exact h
  · exact hdone

/-! ## What waits on a device -/

/-- Profiles, each followed by the type it belongs to. -/
inductive Pairs : List (Write C) → Prop
  | nil : Pairs []
  | cons (role : Role) (account : Uid) (form : AccountForm) {ws : List (Write C)}
      (h : Pairs ws) : Pairs (profileWrite role account form :: typeWrite role account :: ws)

theorem Pairs.append {ws ws' : List (Write C)} (h : Pairs ws) (h' : Pairs ws') :
    Pairs (ws ++ ws') := by
  induction h with
  | nil => exact h'
  | cons role account form _ ih => exact .cons role account form ih

/-- The writes that wait on a device: whole pairs, or a type whose profile the server
has applied, and after it whole pairs. -/
inductive Queued (db : Database C) : List (Write C) → Prop
  | pairs {ws : List (Write C)} (h : Pairs ws) : Queued db ws
  | typed (role : Role) (account : Uid) {ws : List (Write C)}
      (hdone : CompleteProfile role (profileNode db role account)) (h : Pairs ws) :
      Queued db (typeWrite role account :: ws)

theorem Queued.append {db : Database C} {ws ws' : List (Write C)} (h : Queued db ws)
    (h' : Pairs ws') : Queued db (ws ++ ws') := by
  cases h with
  | pairs h => exact .pairs (h.append h')
  | typed role account hdone h => exact .typed role account hdone (h.append h')

/-- What the server applies next: a profile, whose type waits behind it, or a type
whose profile is stored. -/
theorem Queued.head {db : Database C} {w : Write C} {ws : List (Write C)}
    (h : Queued db (w :: ws)) :
    (∃ role account form rest, w = profileWrite role account form ∧
      ws = typeWrite role account :: rest ∧ Pairs rest) ∨
    ∃ role account, w = typeWrite role account ∧
      CompleteProfile role (profileNode db role account) ∧ Pairs ws := by
  cases h with
  | pairs h =>
    cases h with
    | cons role account form h => exact Or.inl ⟨role, account, form, _, rfl, rfl, h⟩
  | typed role account hdone h => exact Or.inr ⟨role, account, rfl, hdone, h⟩

/-- A database in which no complete profile is lost. -/
def Keeps (db db' : Database C) : Prop :=
  ∀ role account, CompleteProfile role (profileNode db role account) →
    CompleteProfile role (profileNode db' role account)

theorem Queued.mono {db db' : Database C} {ws : List (Write C)} (h : Queued db ws)
    (hkeeps : Keeps db db') : Queued db' ws := by
  cases h with
  | pairs h => exact .pairs h
  | typed role account hdone h => exact .typed role account (hkeeps role account hdone) h

/-! ## The invariant -/

/-- **The invariant.**  Every type stored has its profile, and every type that waits
is preceded by its profile. -/
structure Typed (s : RegState C) : Prop where
  stored : ∀ account role, typeOf s.db account = some (Role.type role) →
    CompleteProfile role (profileNode s.db role account)
  queued : ∀ c, Queued s.db (s.clients c).outbox

section Steps

variable {s : RegState C}

/-- What a listener adds to the writes that wait: nothing, or a pair; or its exception
ends the process and they are lost. -/
theorem Client.onComplete_outbox (client : Client C) (j : Nat) (sub : Submission) :
    (client.onComplete j sub).outbox = [] ∨
      ∃ ws, Pairs ws ∧ (client.onComplete j sub).outbox = client.outbox ++ ws := by
  have hnothing : ∃ ws, Pairs ws ∧ client.outbox = client.outbox ++ ws :=
    ⟨[], .nil, by simp⟩
  unfold Client.onComplete
  dsimp only
  split
  · next account screen _ _ =>
    rw [Role.userProfile_eq]
    cases client.currentUser with
    | none => exact Or.inl rfl
    | some user =>
      rw [userProfile_run]
      exact Or.inr ⟨_, .cons sub.role user screen.form .nil, rfl⟩
  · exact Or.inr hnothing

/-- A step of one device that sends nothing. -/
theorem Typed.update (h : Typed s) (c : Nat) {client : Client C}
    (hclient : Queued s.db client.outbox) : Typed (s.update c client) where
  stored := h.stored
  queued := s.forall_update (P := fun _ client => Queued s.db client.outbox) hclient h.queued

/-- The server applies a profile. -/
theorem Typed.sendProfile (h : Typed s) {c : Nat} {role : Role} {account : Uid}
    {form : AccountForm} {rest : List (Write C)} (hrest : Pairs rest) :
    Typed { s.update c { s.clients c with outbox := typeWrite role account :: rest } with
      db := (profileWrite role account form).apply s.db } := by
  have hkeeps : Keeps s.db ((profileWrite role account form).apply s.db) :=
    fun role' account' hdone => hdone.profileWrite role account form
  constructor
  · intro account' role' htype
    rw [typeOf_profileWrite] at htype
    exact hkeeps role' account' (h.stored account' role' htype)
  · have hdone := complete_profileWrite role account form s.db
    exact s.forall_update (P := fun _ client => Queued _ client.outbox)
      (.typed role account hdone hrest) fun c' => (h.queued c').mono hkeeps

/-- The server applies a type. -/
theorem Typed.sendType (h : Typed s) {c : Nat} {role : Role} {account : Uid}
    {rest : List (Write C)} (hdone : CompleteProfile role (profileNode s.db role account))
    (hrest : Pairs rest) :
    Typed { s.update c { s.clients c with outbox := rest } with
      db := (typeWrite role account).apply s.db } := by
  have hkeeps : Keeps s.db ((typeWrite role account).apply s.db) := by
    intro role' account' hdone'
    rwa [profileNode_typeWrite]
  constructor
  · intro account' role' htype
    by_cases ha : account = account'
    · subst ha
      rw [typeOf_typeWrite_self] at htype
      obtain rfl : role = role' := by
        revert htype
        cases role <;> cases role' <;> decide
      exact hkeeps role account hdone
    · rw [typeOf_typeWrite_ne ha] at htype
      exact hkeeps role' account' (h.stored account' role' htype)
  · exact s.forall_update (P := fun _ client => Queued _ client.outbox) (.pairs hrest)
      fun c' => (h.queued c').mono hkeeps

/-- **One step**, whichever it is. -/
theorem typed_next (h : Typed s) {c : Nat} {e : RegEvent} (he : s.Enabled c e) :
    Typed (s.next c e) := by
  have hqueued := h.queued c
  cases e with
  | openScreen role => exact h.update c hqueued
  | edit i form => exact h.update c hqueued
  | createUserAccount i => exact h.update c (by simpa using hqueued)
  | created j account =>
    obtain ⟨sub, hj, -⟩ := he
    simp only [RegState.next, hj]
    have hupdated : Typed (s.update c ((s.clients c).created j sub account)) :=
      h.update c (by simpa using hqueued)
    exact ⟨hupdated.stored, hupdated.queued⟩
  | failed j =>
    obtain ⟨sub, hj, -⟩ := he
    simp only [RegState.next, hj]
    exact h.update c hqueued
  | onComplete j =>
    obtain ⟨sub, hj, -⟩ := he
    simp only [RegState.next, hj]
    refine h.update c ?_
    rcases (s.clients c).onComplete_outbox j sub with hnil | ⟨ws, hws, happend⟩
    · rw [hnil]
      exact .pairs .nil
    · rw [happend]
      exact hqueued.append hws
  | stop i => exact h.update c hqueued
  | kill => exact h.update c (.pairs .nil)
  | send =>
    obtain ⟨w, ws, hout⟩ := List.exists_cons_of_ne_nil he
    simp only [RegState.next, hout]
    rw [hout] at hqueued
    rcases hqueued.head with ⟨role, account, form, rest, rfl, rfl, hrest⟩ |
      ⟨role, account, rfl, hdone, hrest⟩
    · exact h.sendProfile hrest
    · exact h.sendType hdone hrest
  | signIn account => exact h.update c hqueued
  | signOut => exact h.update c hqueued

theorem typed_start : Typed (registrations C).start where
  stored account role htype := by
    unfold typeOf typeNode at htype
    rw [registrations, fetch_none] at htype
    cases htype
  queued _ := .pairs .nil

end Steps

/-- **A type implies a complete profile**, in every state of the database that any run
of registrations on any devices reaches. -/
theorem complete_of_typed {tr : List (RegState C × Nat × RegEvent)} {s : RegState C}
    (h : Trace (registrations C) tr s) {account : Uid} {role : Role}
    (htype : typeOf s.db account = some role.type) :
    CompleteProfile role (profileNode s.db role account) := by
  have htyped : Typed s := h.invariant typed_start fun _ _ hs he => typed_next hs he
  exact htyped.stored account role htype

/-- A registration whose two writes are sent before its process ends. -/
def annKilled : List (Nat × RegEvent) :=
  annRegisters ++ [(0, .onComplete 0), (0, .send), (0, .send), (0, .kill)]

theorem annKilled_runs : Runs (registrations Int) (registrations Int).start annKilled :=
  ⟨trivial, ⟨_, rfl⟩, ⟨_, rfl⟩, ⟨_, rfl, rfl, nofun⟩, ⟨_, rfl, nofun, rfl⟩, nofun, nofun,
    trivial, trivial⟩

theorem complete_annKilled : CompleteProfile .user (profileNode
    (annKilled.foldl (registrations Int).next (registrations Int).start).db .user ann) :=
  complete_of_typed (Trace.of_events annKilled_runs) rfl

/-! ## What the database holds of a profile -/

/-- There is no record of an account, or a whole one. -/
def Records (db : Database C) : Prop :=
  ∀ role account, profileNode db role account = none ∨
    CompleteProfile role (profileNode db role account)

theorem Records.of_diverge {db : Database C} {w : Write C} (h : Records db)
    (hdiverge : ∀ role : Role, ∀ account : Uid,
      Diverge w.path ["Users", role.folder, account.text]) : Records (w.apply db) := by
  intro role account
  rw [profileNode_apply_of_diverge db (hdiverge role account)]
  exact h role account

/-- A registration stores a whole record. -/
theorem Records.profileWrite {db : Database C} (h : Records db) (role : Role) (account : Uid)
    (form : AccountForm) : Records ((profileWrite role account form).apply db) := by
  intro role' account'
  rcases profileNode_profileWrite role account form db role' account' with hsame | hdone
  · rw [hsame]
    exact h role' account'
  · exact Or.inr hdone

theorem Records.typeWrite {db : Database C} (h : Records db) (role : Role) (account : Uid) :
    Records ((typeWrite role account).apply db) :=
  h.of_diverge fun _ _ => .here (by decide) _ _

/-- Only a write that is sent changes the database. -/
theorem RegState.next_db {s : RegState C} {c : Nat} {e : RegEvent} (he : e ≠ .send) :
    (s.next c e).db = s.db := by
  cases e with
  | send => exact absurd rfl he
  | created j account | failed j | onComplete j =>
    simp only [RegState.next]
    split <;> rfl
  | _ => rfl

/-- **One step** of the registrations. -/
theorem Records.next {s : RegState C} (h : Records s.db) (ht : Typed s) {c : Nat} {e : RegEvent}
    (he : s.Enabled c e) : Records (s.next c e).db := by
  by_cases hsend : e = .send
  · subst hsend
    obtain ⟨w, ws, hout⟩ := List.exists_cons_of_ne_nil he
    have hqueued := ht.queued c
    rw [hout] at hqueued
    simp only [RegState.next, hout]
    rcases hqueued.head with ⟨role, account, form, _, rfl, -⟩ | ⟨role, account, rfl, -⟩
    · exact h.profileWrite role account form
    · exact h.typeWrite role account
  · rw [RegState.next_db hsend]
    exact h

/-- A write outside the profiles and the types. -/
theorem Typed.of_diverge {s : RegState C} {w : Write C} (h : Typed s)
    (hprofile : ∀ role : Role, ∀ account : Uid,
      Diverge w.path ["Users", role.folder, account.text])
    (htype : ∀ account : Uid, Diverge w.path ["Users_type", account.text]) :
    Typed { s with db := w.apply s.db } := by
  have hkeeps : Keeps s.db (w.apply s.db) := by
    intro role account hdone
    rwa [profileNode_apply_of_diverge s.db (hprofile role account)]
  refine ⟨?_, fun c => (h.queued c).mono hkeeps⟩
  intro account role hstored
  rw [typeOf_apply_of_diverge s.db (htype account)] at hstored
  exact hkeeps role account (h.stored account role hstored)

end Partimer
