import Partimer.Deployment.DatabaseSchema
import Partimer.Jobs.Independence

/-!
# In whatever order the devices are heard

The server applies the writes of one device in the order issued, but nothing orders those of two
devices.  As long as every account is used on one device, nothing has to.

* `RecordOf`, `AtHome` — where the records of an account are, and the steps that issue something on
  the device of whoever is signed in.
* `fetch_record_of_trace` — **the records of an account are what the writes sent by its own device
  make of nothing**, whatever the others do.
* `SameRecords`, `converged` — **two runs in which each device has sent the same have the same
  database**, as far as any reader can tell.
* `Flushes`, `flushed_of_trace` — **the writes that wait can always be sent, and all ways to do so
  end in the same database**.
-/

namespace Partimer

open KeyTree CreateJobCompany Registration Transition

variable {C : Type} {P : Platform C} {s : Deployment C}

/-! ## The records of an account -/

/-- Where the records of an account are. -/
inductive RecordOf (account : Uid) : List String → Prop
  | profile (role : Role) : RecordOf account ["Users", role.folder, account.text]
  | type : RecordOf account ["Users_type", account.text]
  | jobs : RecordOf account ["Jobs", account.text]

/-- Two records are the same record of one account, or stand apart. -/
theorem RecordOf.eq_or_diverge {account account' : Uid} {p p' : List String}
    (h : RecordOf account p) (h' : RecordOf account' p') :
    account = account' ∧ p = p' ∨ Diverge p p' := by
  have hone : account = account' ∨ Diverge [account.text] [account'.text] := by
    by_cases heq : account = account'
    · exact Or.inl heq
    · exact Or.inr (.here (fun htext => heq (Uid.ext_text htext.symm)) [] [])
  cases h with
  | profile role =>
    cases h' with
    | profile role' =>
      by_cases hfolder : role'.folder = role.folder
      · rw [hfolder]
        rcases hone with rfl | hdiverge
        · exact Or.inl ⟨rfl, rfl⟩
        · exact Or.inr (.there _ (.there _ hdiverge))
      · exact Or.inr (.there _ (.here hfolder _ _))
    | type => exact Or.inr (.here (by decide) _ _)
    | jobs => exact Or.inr (.here (by decide) _ _)
  | type =>
    cases h' with
    | profile role' => exact Or.inr (.here (by decide) _ _)
    | type =>
      rcases hone with rfl | hdiverge
      · exact Or.inl ⟨rfl, rfl⟩
      · exact Or.inr (.there _ hdiverge)
    | jobs => exact Or.inr (.here (by decide) _ _)
  | jobs =>
    cases h' with
    | profile role' => exact Or.inr (.here (by decide) _ _)
    | type => exact Or.inr (.here (by decide) _ _)
    | jobs =>
      rcases hone with rfl | hdiverge
      · exact Or.inl ⟨rfl, rfl⟩
      · exact Or.inr (.there _ hdiverge)

/-- **A write goes to or below a record of whoever is signed in** where it is issued. -/
theorem IssuedAt.exists_record {e : Nat × DeviceEvent C} {w : Write C} (h : IssuedAt P s e w) :
    ∃ account p, (s.reg.clients e.1).currentUser = some account ∧ RecordOf account p ∧
      p <+: w.path := by
  cases h with
  | location hposts => exact ⟨_, _, hposts.2.1, .jobs, List.prefix_append ..⟩
  | details hposts => exact ⟨_, _, hposts.2.1, .jobs, List.prefix_append ..⟩
  | @profile role user form hregisters =>
    obtain ⟨j, sub, screen, account, -, -, -, -, -, -, huser⟩ := hregisters
    refine ⟨_, _, huser, .profile role, ?_⟩
    rw [profileWrite, user.plain]
    exact List.prefix_rfl
  | @type role user form hregisters =>
    obtain ⟨j, sub, screen, account, -, -, -, -, -, -, huser⟩ := hregisters
    refine ⟨_, _, huser, .type, ?_⟩
    rw [typeWrite, user.plain]
    exact List.prefix_rfl

/-- Whoever is signed in where something is issued is on its own device. -/
def AtHome (P : Platform C) (device : Uid → Nat) (s : Deployment C) (e : Nat × DeviceEvent C) :
    Prop :=
  s.issues P e.1 e.2 ≠ [] → ∀ account, (s.reg.clients e.1).currentUser = some account →
    e.1 = device account

section Runs

variable {tr : List (Deployment C × Nat × DeviceEvent C)} {account : Uid} {p : List String}

/-- Each write of a run goes to or below a record, or stands apart from it. -/
theorem IssuedIn.prefix_or_diverge {w : Write C} (h : IssuedIn P tr w) (hp : RecordOf account p) :
    p <+: w.path ∨ Diverge w.path p := by
  obtain ⟨x, -, hissued⟩ := h
  obtain ⟨account', p', -, hp', r, hr⟩ := hissued.exists_record
  rw [← hr]
  rcases hp'.eq_or_diverge hp with ⟨-, rfl⟩ | hdiverge
  · exact Or.inl (List.prefix_append ..)
  · exact Or.inr (hdiverge.append r)

/-- Another device issues nothing that goes below the record. -/
theorem not_below_of_mem_writesOf {device : Uid → Nat} (hhome : Meets (AtHome P device) tr)
    (hp : RecordOf account p) {c : Nat} (hc : c ≠ device account) {w : Write C}
    (hw : w ∈ writesOf c (Deployment.issues P) tr) : ¬ p <+: w.path := by
  obtain ⟨x, hx, hmem⟩ := exists_of_mem_along hw
  unfold onDevice at hmem
  split at hmem
  · next hdevice =>
    obtain ⟨account', p', huser, hp', r, hr⟩ := (mem_issues hmem).exists_record
    rw [← hr]
    rcases hp'.eq_or_diverge hp with ⟨rfl, -⟩ | hdiverge
    · have hown : x.2.1 = device account' := hhome x hx (List.ne_nil_of_mem hmem) account' huser
      exact absurd (hdevice.symm.trans hown) hc
    · exact (hdiverge.append r).not_below
  · cases hmem

/-- **What stands at an address** after writes that go to or below it, or stand apart from it, is
what the former of them make of it. -/
theorem fetch_applyAll {ws : List (Write C)} (hws : ∀ w ∈ ws, p <+: w.path ∨ Diverge w.path p)
    {db db' : Database C} (h : fetch db p = fetch db' p) :
    fetch (applyAll ws db) p = fetch (applyAll (ws.filter fun w => p <+: w.path) db') p := by
  induction ws generalizing db db' with
  | nil => exact h
  | cons w ws ih =>
    rw [List.forall_mem_cons] at hws
    rcases hws.1 with hbelow | hdiverge
    · rw [List.filter_cons, if_pos (decide_eq_true hbelow)]
      refine ih hws.2 ?_
      obtain ⟨r, hr⟩ := hbelow
      show fetch (some (store w.path w.value db)) p = fetch (some (store w.path w.value db')) p
      rw [← hr, fetch_store_append, fetch_store_append, h]
    · rw [List.filter_cons, if_neg (by simpa using hdiverge.not_below)]
      exact ih hws.2 ((fetch_store_of_diverge hdiverge w.value db).trans h)

/-- **The records of an account are what its own device has sent**, whatever the others do. -/
theorem fetch_record_of_trace (h : Trace (deployment P) tr s) {device : Uid → Nat}
    (hhome : Meets (AtHome P device) tr) (hp : RecordOf account p) :
    fetch s.reg.db p = fetch (applyAll (writesOf (device account) Deployment.sends tr) none) p := by
  have happlied : ∀ w ∈ along Deployment.applied tr, p <+: w.path ∨ Diverge w.path p :=
    fun w hw => (issuedIn_of_applied h hw).prefix_or_diverge hp
  have hsent : ∀ w ∈ writesOf (device account) Deployment.sends tr,
      p <+: w.path ∨ Diverge w.path p := by
    intro w hw
    have hissued : IssuedIn P tr w := issuedIn_of_mem
      (((Deployment.outbox P (device account)).inOrder h).subset (List.mem_append_left _ hw))
    exact hissued.prefix_or_diverge hp
  have hown : (along Deployment.applied tr).filter (fun w => p <+: w.path) =
      (writesOf (device account) Deployment.sends tr).filter fun w => p <+: w.path := by
    refine Outbox.filter_merged_sends (o := Deployment.outbox P) applied_eq_sends h ?_
    exact fun c hc w hw => decide_eq_false (not_below_of_mem_writesOf hhome hp hc hw)
  rw [db_of_trace h, fetch_applyAll happlied rfl, fetch_applyAll hsent rfl, hown]

/-! ## What waits -/

/-- The oldest write of each of these devices is applied, one after the other. -/
def sendAll (cs : List Nat) : List (Nat × DeviceEvent C) := cs.map fun c => (c, .account .send)

/-- **The devices are heard in this order until nothing waits any more.** -/
structure Flushes (P : Platform C) (s : Deployment C) (cs : List Nat) : Prop where
  runs : Runs (deployment P) s (sendAll cs)
  sent : ∀ c, (((sendAll cs).foldl (deployment P).next s).reg.clients c).outbox = []

theorem meets_sendAll {Q : Deployment C → Nat × DeviceEvent C → Prop}
    (hQ : ∀ s c, Q s (c, .account .send)) (cs : List Nat) (s : Deployment C) :
    Meets Q (steps (deployment P) s (sendAll cs)) := by
  refine meets_steps_of_mem ?_ s
  intro s e he
  obtain ⟨c, -, rfl⟩ := List.mem_map.1 he
  exact hQ s c

/-- Nobody has to be at home for that. -/
theorem atHome_sendAll (device : Uid → Nat) (cs : List Nat) (s : Deployment C) :
    Meets (AtHome P device) (steps (deployment P) s (sendAll cs)) :=
  meets_sendAll (fun _ _ hissues => absurd rfl hissues) cs s

/-- Each device has then sent what waited on it. -/
theorem Flushes.writesOf_eq {cs : List Nat} (h : Flushes P s cs) (c : Nat) :
    writesOf c Deployment.sends (steps (deployment P) s (sendAll cs)) =
      (s.reg.clients c).outbox := by
  have hquiet : Meets (fun s e => (Deployment.outbox P c).issues s e = [] ∧
      (Deployment.outbox P c).loses s e = []) (steps (deployment P) s (sendAll cs)) := by
    refine meets_sendAll ?_ cs s
    intro s c'
    constructor
    · show onDevice c (Deployment.issues P) s (c', .account .send) = []
      unfold onDevice
      split <;> rfl
    · show onDevice c (Deployment.loses P) s (c', .account .send) = []
      unfold onDevice
      split <;> rfl
  have hdrained := (Deployment.outbox P c).drained h.runs hquiet
  have hempty : (Deployment.outbox P c).waiting
      ((sendAll cs).foldl (deployment P).next s) = [] := h.sent c
  rw [hempty, List.append_nil] at hdrained
  exact hdrained

/-- With what it had sent before. -/
theorem Flushes.writesOf_append {cs : List Nat} (h : Flushes P s cs) (c : Nat) :
    writesOf c Deployment.sends (tr ++ steps (deployment P) s (sendAll cs)) =
      writesOf c Deployment.sends tr ++ (s.reg.clients c).outbox :=
  (along_append ..).trans (congrArg _ (h.writesOf_eq c))

/-- One device is heard until nothing waits on it. -/
theorem exists_sends (c : Nat) (s : Deployment C) : ∃ n,
    Runs (deployment P) s (sendAll (List.replicate n c)) ∧
      (((sendAll (List.replicate n c)).foldl (deployment P).next s).reg.clients c).outbox = [] ∧
      ∀ c', c' ≠ c → ((sendAll (List.replicate n c)).foldl (deployment P).next s).reg.clients c' =
        s.reg.clients c' := by
  induction hout : (s.reg.clients c).outbox generalizing s with
  | nil => exact ⟨0, trivial, hout, fun _ _ => rfl⟩
  | cons w ws ih =>
    have hrest : ((s.next P c (.account .send)).reg.clients c).outbox = ws := by
      rw [Deployment.reg_next_account]
      simp [RegState.next, hout]
    obtain ⟨n, hruns, hempty, hothers⟩ := ih (s.next P c (.account .send)) hrest
    have hen : (deployment P).Enabled s (c, .account .send) := by
      show (s.reg.clients c).outbox ≠ []
      rw [hout]
      exact List.cons_ne_nil w ws
    exact ⟨n + 1, ⟨hen, hruns⟩, hempty,
      fun c' hc' => (hothers c' hc').trans (Deployment.clients_next_ne hc' _)⟩

/-- So are any finite number of devices. -/
theorem exists_sends_of_list (ds : List Nat) (s : Deployment C) : ∃ cs,
    Runs (deployment P) s (sendAll cs) ∧ ∀ c, c ∈ ds ∨ (s.reg.clients c).outbox = [] →
      (((sendAll cs).foldl (deployment P).next s).reg.clients c).outbox = [] := by
  induction ds generalizing s with
  | nil =>
    refine ⟨[], trivial, ?_⟩
    rintro c (hmem | hempty)
    · cases hmem
    · exact hempty
  | cons d ds ih =>
    obtain ⟨n, hruns, hd, hothers⟩ := exists_sends (P := P) d s
    obtain ⟨cs, hruns', hall⟩ := ih ((sendAll (List.replicate n d)).foldl (deployment P).next s)
    refine ⟨List.replicate n d ++ cs, ?_, ?_⟩
    · rw [sendAll, List.map_append]
      exact hruns.append hruns'
    · intro c hc
      rw [sendAll, List.map_append, List.foldl_append]
      refine hall c ?_
      by_cases hcd : c = d
      · subst hcd
        exact Or.inr hd
      · rw [hothers c hcd]
        exact hc.imp_left fun hmem => (List.mem_cons.1 hmem).resolve_left hcd

/-- Nothing waits on a device on which nothing has happened. -/
theorem outbox_eq_nil (h : Trace (deployment P) tr s) {c : Nat} (hc : ∀ x ∈ tr, x.2.1 ≠ c) :
    (s.reg.clients c).outbox = [] := by
  induction h with
  | nil => rfl
  | @snoc tr s e _ _ ih =>
    rw [List.forall_mem_append, List.forall_mem_singleton] at hc
    show ((s.next P e.1 e.2).reg.clients c).outbox = []
    rw [Deployment.clients_next_ne (Ne.symm hc.2)]
    exact ih hc.1

/-! ## What readers can tell apart -/

/-- **No reader can tell the two databases apart**: every record of every account is the same, and
the jobs can be read in the same orders. -/
structure SameRecords (db db' : Database C) : Prop where
  profile : ∀ role account, profileNode db role account = profileNode db' role account
  type : ∀ account, typeNode db account = typeNode db' account
  company : ∀ account, companyNode db account = companyNode db' account
  delivers : ∀ t, Delivers (jobsNode db) t ↔ Delivers (jobsNode db') t

theorem Delivers.of_perm {t u v : DataSnapshot C} (h : (children t).Perm (children u))
    (hv : Delivers t v) : Delivers u v := by
  obtain ⟨ms, hperm, hall⟩ := hv
  exact ⟨ms, h.symm.trans hperm, hall⟩

/-- Databases that two runs have reached are told apart by their records alone. -/
theorem sameRecords_of_fetch {s' : Deployment C} {tr' : List (Deployment C × Nat × DeviceEvent C)}
    (h : Trace (deployment P) tr s) (h' : Trace (deployment P) tr' s')
    (hsame : ∀ account p, RecordOf account p → fetch s.reg.db p = fetch s'.reg.db p) :
    SameRecords s.reg.db s'.reg.db := by
  have hchild : ∀ k, child (jobsNode s.reg.db) k = child (jobsNode s'.reg.db) k := by
    intro k
    by_cases hk : ∃ account : Uid, account.text = k
    · obtain ⟨account, rfl⟩ := hk
      exact hsame account _ .jobs
    · have hnone : ∀ accounts, ¬ IsAccount accounts k :=
        fun _ ⟨a, _, htext⟩ => hk ⟨a.account, htext⟩
      exact (((schema_of_trace h).child "Jobs").child_eq_none (hnone _)).trans
        (((schema_of_trace h').child "Jobs").child_eq_none (hnone _)).symm
  have hperm : (children (jobsNode s.reg.db)).Perm (children (jobsNode s'.reg.db)) :=
    children_perm_of_child ((schema_of_trace h).distinct ["Jobs"])
      ((schema_of_trace h').distinct ["Jobs"]) hchild
  constructor
  · intro role account
    unfold profileNode
    rw [account.plain]
    exact hsame account _ (.profile role)
  · intro account
    unfold typeNode
    rw [account.plain]
    exact hsame account _ .type
  · exact fun account => hsame account _ .jobs
  · exact fun t => ⟨.of_perm hperm, .of_perm hperm.symm⟩

/-! ## All ways end alike -/

/-- **The database converges.**  Two runs in which every account is used on its own device, and in
which each device has had the same writes applied, have the same records, however the server has
mixed the writes of the devices, and whatever else has happened on them. -/
theorem converged {s' : Deployment C} {tr' : List (Deployment C × Nat × DeviceEvent C)}
    (h : Trace (deployment P) tr s) (h' : Trace (deployment P) tr' s') {device : Uid → Nat}
    (hhome : Meets (AtHome P device) tr) (hhome' : Meets (AtHome P device) tr')
    (hsent : ∀ c, writesOf c Deployment.sends tr = writesOf c Deployment.sends tr') :
    SameRecords s.reg.db s'.reg.db := by
  refine sameRecords_of_fetch h h' ?_
  intro account p hp
  rw [fetch_record_of_trace h hhome hp, fetch_record_of_trace h' hhome' hp, hsent]

/-! A company and a person have registered, each on its own device, and their writes wait. -/

/-- The two registrations. -/
def bothWait : List (Nat × DeviceEvent Int) :=
  (registersOn 0 .company acme marketForm).take 5 ++ (registersOn 1 .user ann annForm).take 5

theorem bothWait_runs : Runs (deployment wholeDegrees) (deployment wholeDegrees).start bothWait :=
  ⟨trivial, ⟨_, rfl⟩, ⟨_, rfl⟩, ⟨_, rfl, rfl, nofun⟩, ⟨_, rfl, nofun, rfl⟩, trivial, ⟨_, rfl⟩,
    ⟨_, rfl⟩, ⟨_, rfl, rfl, by decide⟩, ⟨_, rfl, nofun, rfl⟩, trivial⟩

/-- The device of the company is the first one. -/
def homeOf (account : Uid) : Nat := if account = acme then 0 else 1

/-- The account that a step registers is at home on its device. -/
theorem atHome_of_user {s : Deployment Int} {c : Nat} {e : DeviceEvent Int} {user : Uid}
    (huser : (s.reg.clients c).currentUser = some user) (hc : c = homeOf user) :
    AtHome wholeDegrees homeOf s (c, e) := by
  intro _ account haccount
  obtain rfl : user = account := Option.some.inj (huser.symm.trans haccount)
  exact hc

/-- A step that issues nothing is one of nobody. -/
theorem atHome_of_quiet {s : Deployment Int} {c : Nat} {e : DeviceEvent Int}
    (hnone : s.issues wholeDegrees c e = []) : AtHome wholeDegrees homeOf s (c, e) :=
  fun hissues => absurd hnone hissues

theorem bothWait_atHome : Meets (AtHome wholeDegrees homeOf)
    (steps (deployment wholeDegrees) (deployment wholeDegrees).start bothWait) := by
  simp only [bothWait, registersOn, List.take_succ_cons, List.take_zero, List.cons_append,
    List.nil_append, meets_steps_cons, meets_steps_nil, and_true]
  exact ⟨atHome_of_quiet rfl, atHome_of_quiet rfl, atHome_of_quiet rfl, atHome_of_quiet rfl,
    atHome_of_user rfl rfl, atHome_of_quiet rfl, atHome_of_quiet rfl, atHome_of_quiet rfl,
    atHome_of_quiet rfl, atHome_of_user rfl rfl⟩

theorem flushes_inTurn : Flushes wholeDegrees
    (bothWait.foldl (deployment wholeDegrees).next (deployment wholeDegrees).start) [0, 0, 1, 1] :=
  ⟨⟨nofun, nofun, nofun, nofun, trivial⟩, fun
    | 0 => rfl
    | 1 => rfl
    | _ + 2 => rfl⟩

theorem flushes_mixed : Flushes wholeDegrees
    (bothWait.foldl (deployment wholeDegrees).next (deployment wholeDegrees).start) [1, 0, 1, 0] :=
  ⟨⟨nofun, nofun, nofun, nofun, trivial⟩, fun
    | 0 => rfl
    | 1 => rfl
    | _ + 2 => rfl⟩

theorem converged_bothWait :
    let s := bothWait.foldl (deployment wholeDegrees).next (deployment wholeDegrees).start
    SameRecords ((sendAll [0, 0, 1, 1]).foldl (deployment wholeDegrees).next s).reg.db
      ((sendAll [1, 0, 1, 0]).foldl (deployment wholeDegrees).next s).reg.db :=
  have h := Trace.of_events bothWait_runs
  converged (h.append_steps flushes_inTurn.runs) (h.append_steps flushes_mixed.runs)
    (meets_append.2 ⟨bothWait_atHome, atHome_sendAll _ _ _⟩)
    (meets_append.2 ⟨bothWait_atHome, atHome_sendAll _ _ _⟩)
    fun c => (flushes_inTurn.writesOf_append c).trans (flushes_mixed.writesOf_append c).symm

/-- **What waits can be sent, in any order.**  From every state of a run in which every account is
used on its own device, the server can hear the devices until nothing waits any more; and in
whatever order it does, it ends with the same records. -/
theorem flushed_of_trace (h : Trace (deployment P) tr s) {device : Uid → Nat}
    (hhome : Meets (AtHome P device) tr) :
    (∃ cs, Flushes P s cs) ∧ ∀ cs cs', Flushes P s cs → Flushes P s cs' →
      SameRecords ((sendAll cs).foldl (deployment P).next s).reg.db
        ((sendAll cs').foldl (deployment P).next s).reg.db := by
  constructor
  · obtain ⟨cs, hruns, hall⟩ := exists_sends_of_list (P := P) (tr.map fun x => x.2.1) s
    refine ⟨cs, hruns, ?_⟩
    intro c
    refine hall c ?_
    by_cases hc : c ∈ tr.map fun x => x.2.1
    · exact Or.inl hc
    · refine Or.inr (outbox_eq_nil h ?_)
      rintro x hx rfl
      exact hc (List.mem_map_of_mem hx)
  · intro cs cs' hcs hcs'
    have hflush := h.append_steps hcs.runs
    have hflush' := h.append_steps hcs'.runs
    have hall := meets_append.2 ⟨hhome, atHome_sendAll device cs s⟩
    have hall' := meets_append.2 ⟨hhome, atHome_sendAll device cs' s⟩
    refine sameRecords_of_fetch hflush hflush' ?_
    intro account p hp
    rw [fetch_record_of_trace hflush hall hp, fetch_record_of_trace hflush' hall' hp,
      hcs.writesOf_append, hcs'.writesOf_append]

theorem flushed_bothWait :
    let s := bothWait.foldl (deployment wholeDegrees).next (deployment wholeDegrees).start
    (∃ cs, Flushes wholeDegrees s cs) ∧
      SameRecords ((sendAll [0, 0, 1, 1]).foldl (deployment wholeDegrees).next s).reg.db
        ((sendAll [1, 0, 1, 0]).foldl (deployment wholeDegrees).next s).reg.db :=
  have h := flushed_of_trace (Trace.of_events bothWait_runs) bothWait_atHome
  ⟨h.1, h.2 _ _ flushes_inTurn flushes_mixed⟩

end Runs

end Partimer
