import Partimer.Accounts.TypedProfiles

/-!
# The profile that WelcomeCompany shows

`WelcomeCompany.onCreate` takes the uid of the account signed in and asks for its record;
the listener, whenever it is called, writes to the fields of the screen that asked.  There
can be many such screens, on one device and for different accounts, and their answers can
come late and in any order.

* `onDataChange`, `shown` — the listener, and the four texts that stand for a record.
* `WelcomeCompany`, `WelcomeApp`, `WelcomeEvent`, `welcomeApp` — the screens on all devices,
  over `registrations`.
* `Readable`, `Records.readable` — the listener can read every record that registrations
  leave.
* `WelcomeApp.Right`, `right_of_trace` — the fields of a screen whose listener has been called
  are those of the answer it was given.
-/

namespace Partimer

open KeyTree Registration Transition

variable {C : Type}

/-! ## The listener -/

namespace WelcomeCompany

/-- The texts of the four fields. -/
structure Fields where
  proName : String
  proAge : String
  proCity : String
  proCountry : String
  deriving DecidableEq, Repr

/-- The fields as the layout has them. -/
def Fields.blank : Fields := ⟨"", "", "", ""⟩

/-- `label + text`: a `null` is appended as a text. -/
def labelled (label : String) (text : Option String) : String := label ++ text.getD "null"

/-- The listener of `onCreate`; the state is the fields of the screen. -/
def onDataChange (dataSnapshot : DataSnapshot C) : Code Fields Exn Unit := do
  let name ← Code.lift (DataSnapshot.getString (child dataSnapshot "company_name"))
  Code.modify fun fields => { fields with proName := labelled "Name: " name }
  let age ← Code.lift (DataSnapshot.getString (child dataSnapshot "age"))
  Code.modify fun fields => { fields with proAge := labelled "Age: " age }
  let city ← Code.lift (DataSnapshot.getString (child dataSnapshot "city"))
  Code.modify fun fields => { fields with proCity := labelled "City: " city }
  let country ← Code.lift (DataSnapshot.getString (child dataSnapshot "country"))
  Code.modify fun fields => { fields with proCountry := labelled "Country: " country }

end WelcomeCompany

open WelcomeCompany

/-- The text of a record under a key; an absent one is `null`. -/
def textAt (record : DataSnapshot C) (key : String) : Option String :=
  match child record key with
  | some (.leaf (.text text)) => some text
  | _ => none

/-- What stands for a record: each label with the text it belongs to. -/
def shown (record : DataSnapshot C) : Fields where
  proName := labelled "Name: " (textAt record "company_name")
  proAge := labelled "Age: " (textAt record "age")
  proCity := labelled "City: " (textAt record "city")
  proCountry := labelled "Country: " (textAt record "country")

/-- Under each key of a profile the record has a text or nothing. -/
def Readable (record : DataSnapshot C) : Prop :=
  ∀ key ∈ Role.company.profileKeys,
    DataSnapshot.getString (child record key) = .ok (textAt record key)

theorem readable_none : Readable (none : DataSnapshot C) := fun _ _ => rfl

theorem readable_of_complete {record : DataSnapshot C}
    (h : CompleteProfile .company record) : Readable record := by
  intro key hkey
  obtain ⟨text, htext⟩ := h key hkey
  simp only [textAt, htext]
  rfl

/-- Of what registrations leave, every record can be read. -/
theorem Records.readable {db : Database C} (h : Records db) (account : Uid) :
    Readable (profileNode db .company account) := by
  rcases h .company account with hnone | hcomplete
  · rw [hnone]
    exact readable_none
  · exact readable_of_complete hcomplete

/-- **What the listener does.**  It goes through, and the fields are those of the record,
whatever they were before. -/
theorem onDataChange_run {record : DataSnapshot C} (h : Readable record) (fields : Fields) :
    (onDataChange record).run fields = (.ok (), shown record) := by
  have hname := h "company_name" (by simp [Role.profileKeys, Role.nameKey])
  have hage := h "age" (by simp [Role.profileKeys])
  have hcity := h "city" (by simp [Role.profileKeys])
  have hcountry := h "country" (by simp [Role.profileKeys])
  unfold onDataChange
  rw [hname, hage, hcity, hcountry]
  rfl

example : shown (some (mapNode [("company_name", "Acme"), ("city", "Rome")]) : DataSnapshot Int) =
    ⟨"Name: Acme", "Age: null", "City: Rome", "Country: null"⟩ := by decide

/-! ## The screens on all devices -/

/-- A `WelcomeCompany` that has been created: its device, the account whose record it has
asked for, the answer once it is taken, whether its listener has been called, whether its
process is there, and its fields. -/
structure WelcomeCompany (C : Type) where
  device : Nat
  userId : Uid
  answer : Option (DataSnapshot C)
  called : Bool
  alive : Bool
  fields : Fields

/-- What `onCreate` makes. -/
def WelcomeCompany.created (device : Nat) (userId : Uid) : WelcomeCompany C :=
  ⟨device, userId, none, false, true, .blank⟩

/-- A screen when the process of a device ends. -/
def WelcomeCompany.stop (device : Nat) (w : WelcomeCompany C) : WelcomeCompany C :=
  if w.device = device then { w with alive := false } else w

/-- The registrations, and all the screens ever created, in this order. -/
structure WelcomeApp (C : Type) where
  reg : RegState C
  screens : List (WelcomeCompany C)

/-- What can happen. -/
inductive WelcomeEvent (C : Type) where
  /-- A registration goes on, or an account signs in or out, on a device. -/
  | reg (c : Nat) (e : RegEvent)
  /-- Some company's job is written. -/
  | jobWrite (company : Uid) (path : List String) (value : Node String (Value C))
  /-- A `WelcomeCompany` is opened on a device. -/
  | openWelcomeCompany (c : Nat)
  /-- The server answers the read of the `n`th screen. -/
  | answer (n : Nat)
  /-- The listener of the `n`th screen is called. -/
  | deliver (n : Nat)

/-- The completion listener of a request throws. -/
def Client.throws (client : Client C) (sub : Submission) : Bool :=
  match sub.outcome, client.screens[sub.screen]? with
  | some (.created _), some screen =>
    !((sub.role.userProfile screen.form client.currentUser).run client.outbox).1.isOk
  | _, _ => false

theorem Client.onComplete_of_throws {client : Client C} {sub : Submission} (j : Nat)
    (h : client.throws sub = true) :
    ∃ client' : Client C, client.onComplete j sub = client'.killed := by
  unfold Client.throws at h
  unfold Client.onComplete
  rcases hout : sub.outcome with _ | ⟨account⟩ | _
  · simp [hout] at h
  · rcases hscreen : client.screens[sub.screen]? with _ | screen
    · simp [hout, hscreen] at h
    · rcases hrun : (sub.role.userProfile screen.form client.currentUser).run client.outbox
        with ⟨e | _, outbox⟩
      · refine ⟨client.set j { sub with listener := .called }, ?_⟩
        simp only [hout, hrun]
      · simp [hout, hscreen, hrun, Except.isOk, Except.toBool] at h
  · simp [hout] at h

/-- The event ends the process of the device. -/
def RegState.ends (s : RegState C) (c : Nat) : RegEvent → Bool
  | .kill => true
  | .onComplete j =>
    match (s.clients c).submissions[j]? with
    | some sub => (s.clients c).throws sub
    | none => false
  | _ => false

/-- Such an event leaves nothing of the process. -/
theorem RegState.next_of_ends {s : RegState C} {c : Nat} {e : RegEvent}
    (h : s.ends c e = true) : ∃ client : Client C, s.next c e = s.update c client.killed := by
  cases e with
  | kill => exact ⟨s.clients c, rfl⟩
  | onComplete j =>
    cases hj : (s.clients c).submissions[j]? with
    | none => simp [RegState.ends, hj] at h
    | some sub =>
      have hthrows : (s.clients c).throws sub = true := by
        simpa only [RegState.ends, hj] using h
      obtain ⟨client, hclient⟩ := Client.onComplete_of_throws j hthrows
      exact ⟨client, by simp only [RegState.next, hj, hclient]⟩
  | _ => cases h

namespace WelcomeApp

variable (s : WelcomeApp C)

/-- When each event can happen. -/
def Enabled (s : WelcomeApp C) : WelcomeEvent C → Prop
  | .reg c e => s.reg.Enabled c e
  | .answer n => ∃ w, s.screens[n]? = some w ∧ w.alive = true ∧ w.answer = none
  | .deliver n => ∃ w dataSnapshot, s.screens[n]? = some w ∧ w.alive = true ∧
      w.answer = some dataSnapshot ∧ w.called = false
  | _ => True

/-- The process of a device ends. -/
def kill (c : Nat) : WelcomeApp C where
  reg := s.reg.next c .kill
  screens := s.screens.map (WelcomeCompany.stop c)

/-- The `n`th screen is now `w`. -/
def set (n : Nat) (w : WelcomeCompany C) : WelcomeApp C :=
  { s with screens := s.screens.set n w }

/-- The listener of a screen runs on its own fields; an exception ends the process. -/
def deliver (n : Nat) (w : WelcomeCompany C) (dataSnapshot : DataSnapshot C) : WelcomeApp C :=
  match (onDataChange dataSnapshot).run w.fields with
  | (.ok (), fields) => s.set n { w with called := true, fields := fields }
  | (.error _, fields) => (s.set n { w with called := true, fields := fields }).kill w.device

/-- What each event does. -/
def next (s : WelcomeApp C) : WelcomeEvent C → WelcomeApp C
  | .reg c e =>
    if s.reg.ends c e then ⟨s.reg.next c e, s.screens.map (WelcomeCompany.stop c)⟩
    else ⟨s.reg.next c e, s.screens⟩
  | .jobWrite company path value => { s with reg := { s.reg with
      db := Write.apply ⟨["Jobs", company.text] ++ path, value⟩ s.reg.db } }
  | .openWelcomeCompany c =>
    match getUid (s.reg.clients c).currentUser with
    | .ok userId => { s with screens := s.screens ++ [.created c userId] }
    | .error _ => s.kill c
  | .answer n =>
    match s.screens[n]? with
    | some w => s.set n { w with answer := some (profileNode s.reg.db .company w.userId) }
    | none => s
  | .deliver n =>
    match s.screens[n]? with
    | some w =>
      match w.answer with
      | some dataSnapshot => s.deliver n w dataSnapshot
      | none => s
    | none => s

end WelcomeApp

/-- The screens of all devices, from the start of `registrations`. -/
def welcomeApp (C : Type) : System (WelcomeApp C) (WelcomeEvent C) where
  start := ⟨(registrations C).start, []⟩
  Enabled := WelcomeApp.Enabled
  next := WelcomeApp.next

/-! ## What a screen shows -/

variable {s : WelcomeApp C}

/-- The answer of a screen can be read, and once the listener has been called the fields are
those of the answer. -/
structure WelcomeCompany.Right (w : WelcomeCompany C) : Prop where
  readable : ∀ record, w.answer = some record → Readable record
  shows : w.called = true → ∃ record, w.answer = some record ∧ w.fields = shown record

theorem WelcomeCompany.Right.created (c : Nat) (userId : Uid) :
    (WelcomeCompany.created c userId : WelcomeCompany C).Right := by
  refine ⟨?_, ?_⟩
  · intro record hrecord
    cases hrecord
  · intro hcalled
    cases hcalled

theorem WelcomeCompany.Right.stop {w : WelcomeCompany C} (h : w.Right) (c : Nat) :
    (w.stop c).Right := by
  unfold WelcomeCompany.stop
  split
  · exact ⟨h.readable, h.shows⟩
  · exact h

/-- An answer is taken for a screen that has none. -/
theorem WelcomeCompany.Right.answer {w : WelcomeCompany C} (h : w.Right)
    (hnone : w.answer = none) {record : DataSnapshot C} (hrecord : Readable record) :
    WelcomeCompany.Right { w with answer := some record } := by
  refine ⟨?_, ?_⟩
  · rintro _ ⟨rfl⟩
    exact hrecord
  · intro hcalled
    obtain ⟨record', hanswer, -⟩ := h.shows hcalled
    cases hnone.symm.trans hanswer

/-- The listener is called. -/
theorem WelcomeCompany.Right.deliver {w : WelcomeCompany C} (h : w.Right)
    {record : DataSnapshot C} (hanswer : w.answer = some record) :
    WelcomeCompany.Right { w with called := true, fields := shown record } :=
  ⟨h.readable, fun _ => ⟨record, hanswer, rfl⟩⟩

/-- **The invariant.** -/
structure WelcomeApp.Right (s : WelcomeApp C) : Prop where
  typed : Typed s.reg
  records : Records s.reg.db
  screens : ∀ w ∈ s.screens, w.Right

theorem WelcomeApp.Right.start : WelcomeApp.Right (welcomeApp C).start where
  typed := typed_start
  records role account := by
    left
    exact fetch_none _
  screens w hw := by cases hw

/-- The screens when a process ends. -/
theorem right_map_stop {ws : List (WelcomeCompany C)} (h : ∀ w ∈ ws, w.Right) (c : Nat) :
    ∀ w ∈ ws.map (WelcomeCompany.stop c), w.Right := by
  intro w hw
  obtain ⟨v, hv, rfl⟩ := List.mem_map.1 hw
  exact (h v hv).stop c

/-- One screen changes. -/
theorem WelcomeApp.Right.set (h : s.Right) (n : Nat) {w : WelcomeCompany C} (hw : w.Right) :
    (s.set n w).Right :=
  ⟨h.typed, h.records, forall_mem_set h.screens hw n⟩

theorem WelcomeApp.Right.kill (h : s.Right) (c : Nat) : (s.kill c).Right where
  typed := typed_next (e := .kill) h.typed trivial
  records := h.records.next (e := .kill) h.typed trivial
  screens := right_map_stop h.screens c

/-- The listener goes through. -/
theorem WelcomeApp.deliver_of_readable {n : Nat} {w : WelcomeCompany C}
    {record : DataSnapshot C} (h : Readable record) :
    s.deliver n w record = s.set n { w with called := true, fields := shown record } := by
  unfold WelcomeApp.deliver
  rw [onDataChange_run h]

/-- **One step.** -/
theorem WelcomeApp.Right.next (h : s.Right) {e : WelcomeEvent C} (he : s.Enabled e) :
    (s.next e).Right := by
  cases e with
  | reg c e =>
    have htyped : Typed (s.reg.next c e) := typed_next h.typed he
    have hrecords : Records (s.reg.next c e).db := h.records.next h.typed he
    simp only [WelcomeApp.next]
    split
    · exact ⟨htyped, hrecords, right_map_stop h.screens c⟩
    · exact ⟨htyped, hrecords, h.screens⟩
  | jobWrite company path value =>
    have hprofile : ∀ role : Role, ∀ account : Uid, Diverge
        (["Jobs", company.text] ++ path) ["Users", role.folder, account.text] :=
      fun _ _ => .here (by decide) _ _
    have htype : ∀ account : Uid,
        Diverge (["Jobs", company.text] ++ path) ["Users_type", account.text] :=
      fun _ => .here (by decide) _ _
    exact ⟨h.typed.of_diverge hprofile htype, h.records.of_diverge hprofile, h.screens⟩
  | openWelcomeCompany c =>
    simp only [WelcomeApp.next]
    split
    · exact ⟨h.typed, h.records, forall_mem_concat h.screens (.created c _)⟩
    · exact h.kill c
  | answer n =>
    obtain ⟨w, hw, -, hnone⟩ := he
    simp only [WelcomeApp.next, hw]
    have hright := h.screens w (List.mem_of_getElem? hw)
    exact h.set n (hright.answer hnone (h.records.readable w.userId))
  | deliver n =>
    obtain ⟨w, record, hw, -, hrecord, -⟩ := he
    have hright := h.screens w (List.mem_of_getElem? hw)
    have hnext : s.next (.deliver n) = s.deliver n w record := by
      simp only [WelcomeApp.next, hw, hrecord]
    rw [hnext, WelcomeApp.deliver_of_readable (hright.readable record hrecord)]
    exact h.set n (hright.deliver hrecord)

theorem right_of_trace {tr : List (WelcomeApp C × WelcomeEvent C)}
    (h : Trace (welcomeApp C) tr s) : s.Right :=
  h.invariant WelcomeApp.Right.start fun _ _ hs he => hs.next he

end Partimer
