import Partimer.Jobs.Posted
import Partimer.Lib.Trace

/-!
# The static lists of the employees' map

`EmployeeMapActivity.onCreate` asks for the `Jobs` tree and for the profile of the
person signed in; each answer is appended to static lists that the screens opened
from the map read.  The lists belong to the process: they are never cleared, and
only the end of the process empties them.

* `onCreateProfile`, `profileOf` — the profile listener.
* `Process`, `Session`, `SessionEvent`, `session` — the process, the account signed
  in and the database, and the steps they take in any order.
* `Filled` — the lists are what the delivered snapshots held, one after the other;
  `filled_of_trace` says so of every state a run reaches.
-/

namespace Partimer

open KeyTree JobLoops Transition

variable {C : Type}

/-! ## The profile listener -/

/-- The four texts of a person's record; `none` is the `null` of an absent one. -/
structure Profile where
  name : Option String
  age : Option String
  city : Option String
  country : Option String
  deriving DecidableEq, Repr

/-- The four texts in the order in which they are added. -/
def Profile.toList (p : Profile) : List (Option String) := [p.name, p.age, p.city, p.country]

namespace EmployeeMapActivity

/-- Read the text under `key` and add it to `userDetails`. -/
def addDetail (dataSnapshot : DataSnapshot C) (key : String) :
    Code (List (Option String)) Exn Unit := do
  let text ← Code.lift (DataSnapshot.getString (child dataSnapshot key))
  Code.modify (· ++ [text])

/-- The profile listener of `onCreate`; the state is `userDetails`. -/
def onCreateProfile (dataSnapshot : DataSnapshot C) : Code (List (Option String)) Exn Unit := do
  addDetail dataSnapshot "User_name"
  addDetail dataSnapshot "age"
  addDetail dataSnapshot "city"
  addDetail dataSnapshot "country"

end EmployeeMapActivity

/-- The four texts that a record holds. -/
def profileOf (t : DataSnapshot C) : Except Exn Profile := do
  let name ← DataSnapshot.getString (child t "User_name")
  let age ← DataSnapshot.getString (child t "age")
  let city ← DataSnapshot.getString (child t "city")
  let country ← DataSnapshot.getString (child t "country")
  return ⟨name, age, city, country⟩

/-- A listener that gets through has added the four texts of the record. -/
theorem onCreateProfile_ok {t : DataSnapshot C} {l l' : List (Option String)}
    (h : (EmployeeMapActivity.onCreateProfile t).run l = (.ok (), l')) :
    ∃ p, profileOf t = .ok p ∧ l' = l ++ p.toList := by
  unfold EmployeeMapActivity.onCreateProfile EmployeeMapActivity.addDetail at h
  unfold profileOf
  cases hname : DataSnapshot.getString (child t "User_name") with
  | error e => rw [hname] at h; cases h
  | ok name =>
    cases hage : DataSnapshot.getString (child t "age") with
    | error e => rw [hname, hage] at h; cases h
    | ok age =>
      cases hcity : DataSnapshot.getString (child t "city") with
      | error e => rw [hname, hage, hcity] at h; cases h
      | ok city =>
        cases hcountry : DataSnapshot.getString (child t "country") with
        | error e => rw [hname, hage, hcity, hcountry] at h; cases h
        | ok country =>
          rw [hname, hage, hcity, hcountry] at h
          cases h
          exact ⟨⟨name, age, city, country⟩, rfl, by simp [Profile.toList]⟩

/-! ## The process and its session -/

/-- What the process of the app holds: the static lists, the map screens created in
it, and the reads they asked for, each with the server's answer once it is taken.
The last two fields only record the answers delivered so far. -/
structure Process (C : Type) where
  lists : JobLists
  userDetails : List (Option String)
  maps : Nat
  jobsRequests : List (Option (DataSnapshot C))
  profileRequests : List (Uid × Option (DataSnapshot C))
  jobsDelivered : List (DataSnapshot C)
  profilesDelivered : List (DataSnapshot C)

/-- A process that has just started. -/
def Process.fresh : Process C := ⟨⟨[], []⟩, [], 0, [], [], [], []⟩

/-- The database, the account signed in on the device, and the process. -/
structure Session (C : Type) where
  db : Database C
  currentUser : Option Uid
  process : Process C

/-- What can happen. -/
inductive SessionEvent (C : Type) where
  /-- Some client's write is applied: of a job, a profile, or anything else. -/
  | write (w : Write C)
  | signIn (account : Uid)
  | signOut
  /-- `EmployeeMapActivity` is created, or created anew. -/
  | openMap
  /-- The server answers the `i`th outstanding read of `Jobs`. -/
  | answerJobs (i : Nat) (dataSnapshot : DataSnapshot C)
  /-- Its listener is called. -/
  | deliverJobs (i : Nat)
  /-- The server answers the `i`th outstanding read of a profile. -/
  | answerProfile (i : Nat)
  /-- Its listener is called. -/
  | deliverProfile (i : Nat)
  /-- `Welcome` is opened from a map screen. -/
  | openWelcome
  /-- The process ends, killed by the system or by an exception elsewhere. -/
  | killed

/-- The record of a person. -/
def personNode (db : Database C) (account : Uid) : DataSnapshot C :=
  fetch db (["Users", "Person"] ++ childPath account.text)

/-- `Welcome.onCreate`: the texts it shows. -/
def Welcome.onCreate (userDet : List (Option String)) (currentUser : Option Uid) :
    Except Exn Profile := do
  let proName ← ArrayList.get userDet 0
  let proAge ← ArrayList.get userDet 1
  let proCity ← ArrayList.get userDet 2
  let proCountry ← ArrayList.get userDet 3
  let _ ← getUid currentUser
  return ⟨proName, proAge, proCity, proCountry⟩

namespace Session

variable (P : Platform C) (s : Session C)

/-- When each event can happen. -/
def Enabled (s : Session C) : SessionEvent C → Prop
  | .answerJobs i dataSnapshot => s.process.jobsRequests[i]? = some none ∧
      Delivers (jobsNode s.db) dataSnapshot
  | .deliverJobs i => ∃ dataSnapshot, s.process.jobsRequests[i]? = some (some dataSnapshot)
  | .answerProfile i => ∃ account, s.process.profileRequests[i]? = some (account, none)
  | .deliverProfile i => ∃ account dataSnapshot,
      s.process.profileRequests[i]? = some (account, some dataSnapshot)
  | .openWelcome => 0 < s.process.maps
  | _ => True

/-- `EmployeeMapActivity.onCreate`: the read of `Jobs` is issued first; without an
account the next statement throws, and the process ends. -/
def openMap : Process C :=
  match getUid s.currentUser with
  | .error _ => Process.fresh
  | .ok userId => { s.process with
      maps := s.process.maps + 1
      jobsRequests := s.process.jobsRequests ++ [none]
      profileRequests := s.process.profileRequests ++ [(userId, none)] }

/-- The jobs listener runs; an exception ends the process. -/
def deliverJobs (i : Nat) (dataSnapshot : DataSnapshot C) : Process C :=
  match (EmployeeMapActivity.onCreateJobs P dataSnapshot).run s.process.lists with
  | (.error _, _) => Process.fresh
  | (.ok (), lists) => { s.process with
      lists := lists
      jobsRequests := s.process.jobsRequests.eraseIdx i
      jobsDelivered := s.process.jobsDelivered ++ [dataSnapshot] }

/-- The profile listener runs; an exception ends the process. -/
def deliverProfile (i : Nat) (dataSnapshot : DataSnapshot C) : Process C :=
  match (EmployeeMapActivity.onCreateProfile dataSnapshot).run s.process.userDetails with
  | (.error _, _) => Process.fresh
  | (.ok (), userDetails) => { s.process with
      userDetails := userDetails
      profileRequests := s.process.profileRequests.eraseIdx i
      profilesDelivered := s.process.profilesDelivered ++ [dataSnapshot] }

/-- `Welcome` is created; an exception ends the process. -/
def openWelcome : Process C :=
  match Welcome.onCreate s.process.userDetails s.currentUser with
  | .error _ => Process.fresh
  | .ok _ => s.process

/-- What each event does. -/
def next (s : Session C) : SessionEvent C → Session C
  | .write w => { s with db := w.apply s.db }
  | .signIn account => { s with currentUser := some account }
  | .signOut => { s with currentUser := none }
  | .openMap => { s with process := s.openMap }
  | .answerJobs i dataSnapshot => { s with process := { s.process with
      jobsRequests := s.process.jobsRequests.set i (some dataSnapshot) } }
  | .deliverJobs i =>
    match s.process.jobsRequests[i]? with
    | some (some dataSnapshot) => { s with process := s.deliverJobs P i dataSnapshot }
    | _ => s
  | .answerProfile i =>
    match s.process.profileRequests[i]? with
    | some (account, _) => { s with process := { s.process with
        profileRequests := s.process.profileRequests.set i
          (account, some (personNode s.db account)) } }
    | none => s
  | .deliverProfile i =>
    match s.process.profileRequests[i]? with
    | some (_, some dataSnapshot) => { s with process := s.deliverProfile i dataSnapshot }
    | _ => s
  | .openWelcome => { s with process := s.openWelcome }
  | .killed => { s with process := Process.fresh }

end Session

/-- The app on one device, with everything else that writes to the database, from an
empty database and with nobody signed in. -/
def session (P : Platform C) : System (Session C) (SessionEvent C) where
  start := ⟨none, none, Process.fresh⟩
  Enabled := Session.Enabled
  next := Session.next P

/-! ## What the lists hold -/

/-- **The invariant.**  The lists are what the delivered snapshots held, one after
the other. -/
structure Filled (P : Platform C) (p : Process C) : Prop where
  lists : p.lists = (⟨[], []⟩ : JobLists).append (p.jobsDelivered.flatMap (snapshotJobs P))
  userDetails : ∃ ps, List.Forall₂ (fun t p => profileOf t = .ok p) p.profilesDelivered ps ∧
    p.userDetails = ps.flatMap Profile.toList

variable {P : Platform C} {s : Session C}

theorem Filled.fresh : Filled P (Process.fresh : Process C) := ⟨rfl, [], .nil, rfl⟩

theorem Filled.openMap (h : Filled P s.process) : Filled P s.openMap := by
  unfold Session.openMap
  cases getUid s.currentUser with
  | error e => exact Filled.fresh
  | ok userId => exact ⟨h.lists, h.userDetails⟩

theorem Filled.deliverJobs (h : Filled P s.process) (i : Nat) (t : DataSnapshot C) :
    Filled P (s.deliverJobs P i t) := by
  unfold Session.deliverJobs
  rcases hrun : (EmployeeMapActivity.onCreateJobs P t).run s.process.lists with ⟨_ | _, lists⟩
  · exact Filled.fresh
  · have hok : ((listJobs P t).run s.process.lists).1 = .ok () := congrArg Prod.fst hrun
    have hlists := listJobs_run P ((listJobs_ok_iff P).1 hok) s.process.lists
    obtain rfl : s.process.lists.append (snapshotJobs P t) = lists :=
      congrArg Prod.snd (hlists.symm.trans hrun)
    refine ⟨?_, h.userDetails⟩
    rw [h.lists, ← JobLists.append_append, List.flatMap_append, List.flatMap_singleton]

theorem Filled.deliverProfile (h : Filled P s.process) (i : Nat) (t : DataSnapshot C) :
    Filled P (s.deliverProfile i t) := by
  unfold Session.deliverProfile
  rcases hrun : (EmployeeMapActivity.onCreateProfile t).run s.process.userDetails
    with ⟨_ | _, userDetails⟩
  · exact Filled.fresh
  · obtain ⟨p, hp, rfl⟩ := onCreateProfile_ok hrun
    obtain ⟨ps, hps, hdetails⟩ := h.userDetails
    refine ⟨h.lists, ps ++ [p], List.rel_append hps (.cons hp .nil), ?_⟩
    rw [hdetails, List.flatMap_append, List.flatMap_singleton]

theorem Filled.openWelcome (h : Filled P s.process) : Filled P s.openWelcome := by
  unfold Session.openWelcome
  cases Welcome.onCreate s.process.userDetails s.currentUser with
  | error e => exact Filled.fresh
  | ok p => exact h

/-- **One step.** -/
theorem Filled.next (h : Filled P s.process) (e : SessionEvent C) :
    Filled P (s.next P e).process := by
  cases e with
  | openMap => exact h.openMap
  | deliverJobs i =>
    simp only [Session.next]
    split
    · exact h.deliverJobs i _
    · exact h
  | answerProfile i =>
    simp only [Session.next]
    split
    · exact ⟨h.lists, h.userDetails⟩
    · exact h
  | deliverProfile i =>
    simp only [Session.next]
    split
    · exact h.deliverProfile i _
    · exact h
  | answerJobs i t => exact ⟨h.lists, h.userDetails⟩
  | openWelcome => exact h.openWelcome
  | killed => exact Filled.fresh
  | write w => exact h
  | signIn account => exact h
  | signOut => exact h

/-- **Whole runs.** -/
theorem filled_of_trace {tr : List (Session C × SessionEvent C)} (h : Trace (session P) tr s) :
    Filled P s.process :=
  h.invariant (I := fun s => Filled P s.process) Filled.fresh fun _ e hs _ => hs.next e

end Partimer
