import Partimer.Deployment.Devices

/-!
# What the processes were answered

The listeners of the map screens work on snapshots that the server took earlier, and that wait in
the process until the listener is called.  What held of every state of the database when it was
read holds of all of them.

* `Process.Answers` — each snapshot of the jobs and each profile that a process was answered, or
  that was delivered in it, has a property.
* `Process.Answers.next` — one step on a screen; `answers_of_trace` — whole runs.
-/

namespace Partimer

open KeyTree Transition

variable {C : Type} {P : Platform C}

/-- The snapshots of the jobs have the property `J`, and the profiles have `G`. -/
structure Process.Answers (J G : DataSnapshot C → Prop) (p : Process C) : Prop where
  jobsAnswered : ∀ t, some t ∈ p.jobsRequests → J t
  jobsDelivered : ∀ t ∈ p.jobsDelivered, J t
  profilesAnswered : ∀ account t, (account, some t) ∈ p.profileRequests → G t
  profilesDelivered : ∀ t ∈ p.profilesDelivered, G t

namespace Process.Answers

variable {J G J' G' : DataSnapshot C → Prop} {p : Process C}

theorem fresh : (Process.fresh : Process C).Answers J G := ⟨nofun, nofun, nofun, nofun⟩

theorem mono (h : p.Answers J G) (hJ : ∀ t, J t → J' t) (hG : ∀ t, G t → G' t) :
    p.Answers J' G' where
  jobsAnswered t ht := hJ t (h.jobsAnswered t ht)
  jobsDelivered t ht := hJ t (h.jobsDelivered t ht)
  profilesAnswered account t ht := hG t (h.profilesAnswered account t ht)
  profilesDelivered t ht := hG t (h.profilesDelivered t ht)

variable {t : Session C}

/-- The reads that a new map screen asks for have no answer yet. -/
theorem openMap (h : t.process.Answers J G) : t.openMap.Answers J G := by
  unfold Session.openMap
  cases getUid t.currentUser with
  | error e => exact fresh
  | ok userId =>
    refine ⟨?_, h.jobsDelivered, ?_, h.profilesDelivered⟩
    · intro record hmem
      rcases List.mem_append.1 hmem with hmem | hmem
      · exact h.jobsAnswered record hmem
      · cases List.mem_singleton.1 hmem
    · intro account record hmem
      rcases List.mem_append.1 hmem with hmem | hmem
      · exact h.profilesAnswered account record hmem
      · cases List.mem_singleton.1 hmem

/-- A snapshot of the jobs is delivered as it was answered. -/
theorem deliverJobs (h : t.process.Answers J G) {i : Nat} {record : DataSnapshot C}
    (hi : t.process.jobsRequests[i]? = some (some record)) :
    (t.deliverJobs P i record).Answers J G := by
  unfold Session.deliverJobs
  rcases (EmployeeMapActivity.onCreateJobs P record).run t.process.lists with ⟨_ | _, lists⟩
  · exact fresh
  · refine ⟨fun t ht => h.jobsAnswered t (List.mem_of_mem_eraseIdx ht), ?_, h.profilesAnswered,
      h.profilesDelivered⟩
    exact forall_mem_concat h.jobsDelivered (h.jobsAnswered record (List.mem_of_getElem? hi))

/-- So is a profile. -/
theorem deliverProfile (h : t.process.Answers J G) {i : Nat} {account : Uid}
    {record : DataSnapshot C}
    (hi : t.process.profileRequests[i]? = some (account, some record)) :
    (t.deliverProfile i record).Answers J G := by
  unfold Session.deliverProfile
  rcases (EmployeeMapActivity.onCreateProfile record).run t.process.userDetails
    with ⟨_ | _, userDetails⟩
  · exact fresh
  · refine ⟨h.jobsAnswered, h.jobsDelivered, fun account t ht =>
      h.profilesAnswered account t (List.mem_of_mem_eraseIdx ht), ?_⟩
    exact forall_mem_concat h.profilesDelivered
      (h.profilesAnswered account record (List.mem_of_getElem? hi))

/-- **One step** on a screen: the server answers with what it holds. -/
theorem next (h : t.process.Answers J G) (hJ : ∀ u, Delivers (jobsNode t.db) u → J u)
    (hG : ∀ account, G (personNode t.db account)) {e : ScreenEvent C}
    (he : t.Enabled e.session) : (t.next P e.session).process.Answers J G := by
  cases e with
  | openMap => exact h.openMap
  | answerJobs i dataSnapshot =>
    refine ⟨?_, h.jobsDelivered, h.profilesAnswered, h.profilesDelivered⟩
    intro record hmem
    rcases List.mem_or_eq_of_mem_set hmem with hmem | heq
    · exact h.jobsAnswered record hmem
    · cases heq
      exact hJ _ he.2
  | deliverJobs i =>
    obtain ⟨record, hi⟩ := he
    simp only [ScreenEvent.session, Session.next, hi]
    exact h.deliverJobs hi
  | answerProfile i =>
    obtain ⟨account, hi⟩ := he
    simp only [ScreenEvent.session, Session.next, hi]
    refine ⟨h.jobsAnswered, h.jobsDelivered, ?_, h.profilesDelivered⟩
    intro account' record hmem
    rcases List.mem_or_eq_of_mem_set hmem with hmem | heq
    · exact h.profilesAnswered account' record hmem
    · cases heq
      exact hG account
  | deliverProfile i =>
    obtain ⟨account, record, hi⟩ := he
    simp only [ScreenEvent.session, Session.next, hi]
    exact h.deliverProfile hi
  | openWelcome =>
    simp only [ScreenEvent.session, Session.next, Session.openWelcome]
    cases Welcome.onCreate t.process.userDetails t.currentUser with
    | error e => exact fresh
    | ok p => exact h

end Process.Answers

/-- **Whole runs.**  What holds of all that can be read in each state of a run, and stays true
as the run goes on, holds of all that the processes were answered. -/
theorem answers_of_trace {J G : List (Deployment C × Nat × DeviceEvent C) → DataSnapshot C → Prop}
    (hJmono : ∀ tr x t, J tr t → J (tr ++ [x]) t)
    (hJ : ∀ tr s, Trace (deployment P) tr s → ∀ t, Delivers (jobsNode s.reg.db) t → J tr t)
    (hGmono : ∀ tr x t, G tr t → G (tr ++ [x]) t)
    (hG : ∀ tr s, Trace (deployment P) tr s → ∀ account, G tr (personNode s.reg.db account))
    {tr : List (Deployment C × Nat × DeviceEvent C)} {s : Deployment C}
    (h : Trace (deployment P) tr s) (c : Nat) : (s.processes c).Answers (J tr) (G tr) := by
  induction h generalizing c with
  | nil => exact .fresh
  | @snoc tr s e hrun he ih =>
    obtain ⟨c', e⟩ := e
    have hlater : ∀ c, (s.processes c).Answers (J (tr ++ [(s, c', e)])) (G (tr ++ [(s, c', e)])) :=
      fun c => (ih c).mono (fun t => hJmono tr _ t) fun t => hGmono tr _ t
    show ((s.next P c' e).processes c).Answers _ _
    rcases Deployment.processes_next (P := P) (s := s) c' c e with hfresh | hsame |
      ⟨e', rfl, rfl, hscreen⟩
    · rw [hfresh]
      exact .fresh
    · rw [hsame]
      exact hlater c
    · rw [hscreen]
      refine Process.Answers.next (t := s.view c) (hlater c) ?_ ?_ he
      · exact fun u hu => hJmono tr _ u (hJ tr s hrun u hu)
      · exact fun account => hGmono tr _ _ (hG tr s hrun account)

end Partimer
