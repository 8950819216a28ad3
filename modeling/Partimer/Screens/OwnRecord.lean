import Partimer.Screens.WelcomeCompany

/-!
# No screen shows another account's profile

A `WelcomeCompany` belongs to the account that is signed in when it is created, and keeps to
it whatever happens on the device afterwards.

* `Continues`, `continues_of_mem` — a screen keeps its account, and its answer once it is
  taken, to the end of a run.
* `Came`, `loads_of_answer` — every screen of a run was created, and every answer taken, by
  one of its steps.
* `Loads` — the account of a screen and the record it has got; `shows_of_loads`,
  `shows_of_called` — what it shows, in one run.
* `shows_own_record` — in any two runs, it depends on that record alone.
-/

namespace Partimer

open Transition WelcomeCompany

variable {C : Type} {s : WelcomeApp C}

/-! ## What a screen keeps -/

/-- The account of a screen never changes, nor does an answer once it is taken. -/
structure WelcomeCompany.Grows (w w' : WelcomeCompany C) : Prop where
  userId : w'.userId = w.userId
  answer : ∀ record, w.answer = some record → w'.answer = some record

theorem WelcomeCompany.Grows.refl (w : WelcomeCompany C) : w.Grows w := ⟨rfl, fun _ h => h⟩

theorem WelcomeCompany.Grows.trans {w w' w'' : WelcomeCompany C} (h : w.Grows w')
    (h' : w'.Grows w'') : w.Grows w'' :=
  ⟨h'.userId.trans h.userId, fun record hr => h'.answer record (h.answer record hr)⟩

@[simp] theorem WelcomeCompany.stop_userId (c : Nat) (w : WelcomeCompany C) :
    (w.stop c).userId = w.userId := by
  unfold WelcomeCompany.stop
  split <;> rfl

@[simp] theorem WelcomeCompany.stop_answer (c : Nat) (w : WelcomeCompany C) :
    (w.stop c).answer = w.answer := by
  unfold WelcomeCompany.stop
  split <;> rfl

theorem WelcomeCompany.Grows.stop (c : Nat) (w : WelcomeCompany C) : w.Grows (w.stop c) :=
  ⟨by simp, by simp⟩

/-- Every screen is still there, under its number. -/
def Continues (ws ws' : List (WelcomeCompany C)) : Prop :=
  ∀ (n : Nat) (w : WelcomeCompany C), ws[n]? = some w → ∃ w', ws'[n]? = some w' ∧ w.Grows w'

theorem Continues.refl (ws : List (WelcomeCompany C)) : Continues ws ws :=
  fun _ w hw => ⟨w, hw, .refl w⟩

theorem Continues.trans {ws ws' ws'' : List (WelcomeCompany C)} (h : Continues ws ws')
    (h' : Continues ws' ws'') : Continues ws ws'' := by
  intro n w hw
  obtain ⟨w', hw', hgrows⟩ := h n w hw
  obtain ⟨w'', hw'', hgrows'⟩ := h' n w' hw'
  exact ⟨w'', hw'', hgrows.trans hgrows'⟩

theorem Continues.stop (c : Nat) (ws : List (WelcomeCompany C)) :
    Continues ws (ws.map (WelcomeCompany.stop c)) := by
  intro n w hw
  exact ⟨w.stop c, by simp [hw], .stop c w⟩

theorem Continues.append (ws ws' : List (WelcomeCompany C)) : Continues ws (ws ++ ws') := by
  intro n w hw
  obtain ⟨hn, -⟩ := List.getElem?_eq_some_iff.1 hw
  exact ⟨w, by rw [List.getElem?_append_left hn, hw], .refl w⟩

/-- A screen is replaced by what it becomes; the others are left alone. -/
theorem Continues.set {ws : List (WelcomeCompany C)} {n : Nat} {w w' : WelcomeCompany C}
    (hw : ws[n]? = some w) (h : w.Grows w') : Continues ws (ws.set n w') := by
  intro m v hv
  obtain ⟨hn, -⟩ := List.getElem?_eq_some_iff.1 hw
  by_cases hm : n = m
  · subst hm
    obtain rfl : w = v := Option.some.inj (hw.symm.trans hv)
    exact ⟨w', by simp [hn], h⟩
  · exact ⟨v, by rw [List.getElem?_set_ne hm, hv], .refl v⟩

/-- The listener of a screen leaves the others alone. -/
theorem WelcomeApp.continues_deliver {n : Nat} {w : WelcomeCompany C}
    (hw : s.screens[n]? = some w) (record : DataSnapshot C) :
    Continues s.screens (s.deliver n w record).screens := by
  have hset : ∀ fields, Continues s.screens
      (s.set n { w with called := true, fields := fields }).screens :=
    fun fields => .set hw ⟨rfl, fun _ h => h⟩
  unfold WelcomeApp.deliver
  split
  · exact hset _
  · exact (hset _).trans (.stop _ _)

/-- **One step.** -/
theorem WelcomeApp.continues_next {e : WelcomeEvent C} (he : s.Enabled e) :
    Continues s.screens (s.next e).screens := by
  cases e with
  | reg c e =>
    simp only [WelcomeApp.next]
    split
    · exact .stop c s.screens
    · exact .refl s.screens
  | jobWrite company path value => exact .refl s.screens
  | openWelcomeCompany c =>
    simp only [WelcomeApp.next]
    split
    · exact .append s.screens _
    · exact .stop c s.screens
  | answer n =>
    obtain ⟨w, hw, -, hnone⟩ := he
    simp only [WelcomeApp.next, hw]
    refine .set hw ⟨rfl, ?_⟩
    intro record hrecord
    cases hnone.symm.trans hrecord
  | deliver n =>
    obtain ⟨w, record, hw, -, hrecord, -⟩ := he
    simp only [WelcomeApp.next, hw, hrecord]
    exact WelcomeApp.continues_deliver hw record

/-- **Whole runs.**  What a step has made of a screen lasts to the end of the run. -/
theorem continues_of_mem {tr : List (WelcomeApp C × WelcomeEvent C)}
    (h : Trace (welcomeApp C) tr s) {x : WelcomeApp C × WelcomeEvent C} (hx : x ∈ tr) :
    Continues (x.1.next x.2).screens s.screens :=
  h.rel_of_mem (R := fun s s' : WelcomeApp C => Continues s.screens s'.screens)
    (fun s => .refl s.screens) (fun _ _ _ hst htu => hst.trans htu)
    (fun _ _ he => WelcomeApp.continues_next he) hx

/-! ## Where a screen comes from -/

variable {n : Nat}

/-- Where a screen comes from that is there after a step: it was there before, or the step
has taken its answer, or has created it. -/
inductive Came (s : WelcomeApp C) (e : WelcomeEvent C) (n : Nat) (w' : WelcomeCompany C) : Prop
  | before {w : WelcomeCompany C} (hw : s.screens[n]? = some w) (huid : w'.userId = w.userId)
      (hanswer : w'.answer = w.answer)
  | taken {w : WelcomeCompany C} (he : e = .answer n) (hw : s.screens[n]? = some w)
      (huid : w'.userId = w.userId)
      (hanswer : w'.answer = some (profileNode s.reg.db .company w.userId))
  | created (c : Nat) (he : e = .openWelcomeCompany c) (hn : s.screens.length = n)
      (huser : (s.reg.clients c).currentUser = some w'.userId) (hanswer : w'.answer = none)

theorem Came.of_stop {e : WelcomeEvent C} {c : Nat} {w' : WelcomeCompany C}
    (h : (s.screens.map (WelcomeCompany.stop c))[n]? = some w') : Came s e n w' := by
  rw [List.getElem?_map] at h
  obtain ⟨w, hw, rfl⟩ := Option.map_eq_some_iff.1 h
  exact .before hw (by simp) (by simp)

/-- **One step**, looked back on. -/
theorem came_next (hs : s.Right) {e : WelcomeEvent C} (he : s.Enabled e)
    {w' : WelcomeCompany C} (h : (s.next e).screens[n]? = some w') : Came s e n w' := by
  cases e with
  | reg c e =>
    simp only [WelcomeApp.next] at h
    split at h
    · exact .of_stop h
    · exact .before h rfl rfl
  | jobWrite company path value => exact .before h rfl rfl
  | openWelcomeCompany c =>
    cases huser : (s.reg.clients c).currentUser with
    | none =>
      simp only [WelcomeApp.next, huser, getUid] at h
      exact .of_stop h
    | some userId =>
      simp only [WelcomeApp.next, huser, getUid] at h
      by_cases hn : n < s.screens.length
      · rw [List.getElem?_append_left hn] at h
        exact .before h rfl rfl
      · obtain ⟨hlt, hget⟩ := List.getElem?_eq_some_iff.1 h
        simp only [List.length_append, List.length_singleton] at hlt
        have hlast : s.screens.length = n := by omega
        subst hlast
        simp only [List.getElem_concat_length] at hget
        subst hget
        exact .created c rfl rfl huser rfl
  | answer m =>
    obtain ⟨w, hw, -, -⟩ := he
    simp only [WelcomeApp.next, hw, WelcomeApp.set] at h
    rcases getElem?_set_cases h with ⟨rfl, rfl⟩ | h
    · exact .taken rfl hw rfl rfl
    · exact .before h rfl rfl
  | deliver m =>
    obtain ⟨w, record, hw, -, hrecord, -⟩ := he
    have hright := hs.screens w (List.mem_of_getElem? hw)
    have hnext : s.next (.deliver m) = s.deliver m w record := by
      simp only [WelcomeApp.next, hw, hrecord]
    rw [hnext, WelcomeApp.deliver_of_readable (hright.readable record hrecord)] at h
    rcases getElem?_set_cases h with ⟨rfl, rfl⟩ | h
    · exact .before hw rfl rfl
    · exact .before h rfl rfl

/-! ## One run and two runs -/

/-- In the run, the `n`th screen is created while `uid` is signed in on its device. -/
def CreatedFor (tr : List (WelcomeApp C × WelcomeEvent C)) (n : Nat) (uid : Uid) : Prop :=
  ∃ t c, (t, WelcomeEvent.openWelcomeCompany c) ∈ tr ∧ t.screens.length = n ∧
    (t.reg.clients c).currentUser = some uid

/-- Its snapshot is taken while `record` is stored for `uid`. -/
def TakenOf (tr : List (WelcomeApp C × WelcomeEvent C)) (n : Nat) (uid : Uid)
    (record : DataSnapshot C) : Prop :=
  ∃ t, (t, WelcomeEvent.answer n) ∈ tr ∧ profileNode t.reg.db .company uid = record

/-- The `n`th screen of the run is one of the account `uid`, and has got `record`. -/
structure Loads (tr : List (WelcomeApp C × WelcomeEvent C)) (n : Nat) (uid : Uid)
    (record : DataSnapshot C) : Prop where
  created : CreatedFor tr n uid
  taken : TakenOf tr n uid record

variable {tr : List (WelcomeApp C × WelcomeEvent C)} {uid : Uid} {record : DataSnapshot C}
  {w : WelcomeCompany C}

/-- The account of a screen is the one signed in at its creation. -/
theorem userId_of_loads (h : Trace (welcomeApp C) tr s) (hl : Loads tr n uid record)
    (hw : s.screens[n]? = some w) : w.userId = uid := by
  obtain ⟨t, c, hmem, hn, huser⟩ := hl.created
  have hcreated : (t.next (.openWelcomeCompany c)).screens[n]? =
      some (.created c uid) := by
    simp only [WelcomeApp.next, huser, getUid]
    rw [← hn, List.getElem?_concat_length]
  obtain ⟨w', hw', hgrows⟩ := continues_of_mem h hmem n _ hcreated
  obtain rfl : w = w' := Option.some.inj (hw.symm.trans hw')
  exact hgrows.userId

/-- Its answer is the record of that account when the snapshot is taken. -/
theorem answer_of_loads (h : Trace (welcomeApp C) tr s) (hl : Loads tr n uid record)
    (hw : s.screens[n]? = some w) : w.answer = some record := by
  obtain ⟨t, hmem, hrecord⟩ := hl.taken
  obtain ⟨pre, -, hen, -⟩ := h.of_mem hmem
  obtain ⟨v, hv, -, -⟩ := hen
  obtain ⟨hn, -⟩ := List.getElem?_eq_some_iff.1 hv
  have htaken : (t.next (.answer n)).screens[n]? =
      some { v with answer := some (profileNode t.reg.db .company v.userId) } := by
    simp only [WelcomeApp.next, hv, WelcomeApp.set]
    simp [hn]
  obtain ⟨w', hw', hgrows⟩ := continues_of_mem h hmem n _ htaken
  obtain rfl : w = w' := Option.some.inj (hw.symm.trans hw')
  have huid : v.userId = uid := by
    rw [← userId_of_loads h hl hw]
    exact hgrows.userId.symm
  rw [hgrows.answer _ rfl, huid, hrecord]

/-- **One run.**  A screen whose listener has been called shows the record of its account. -/
theorem shows_of_loads (h : Trace (welcomeApp C) tr s) (hl : Loads tr n uid record)
    (hw : s.screens[n]? = some w) (hcalled : w.called = true) : w.fields = shown record := by
  have hright := (right_of_trace h).screens w (List.mem_of_getElem? hw)
  obtain ⟨record', hanswer, hfields⟩ := hright.shows hcalled
  have hsame : record' = record :=
    Option.some.inj (hanswer.symm.trans (answer_of_loads h hl hw))
  rw [hfields, hsame]

/-- Every screen of a run was created, and every answer was taken, by one of its steps. -/
theorem loads_of_answer (h : Trace (welcomeApp C) tr s) (hw : s.screens[n]? = some w) :
    CreatedFor tr n w.userId ∧
      ∀ record, w.answer = some record → TakenOf tr n w.userId record := by
  induction h generalizing w with
  | nil => simp [welcomeApp] at hw
  | @snoc tr t e hpre he ih =>
    -- the steps made before are steps of the longer run
    have hcreated : ∀ {uid}, CreatedFor tr n uid → CreatedFor (tr ++ [(t, e)]) n uid := by
      rintro uid ⟨u, c, hmem, hrest⟩
      exact ⟨u, c, List.mem_append_left _ hmem, hrest⟩
    have htaken : ∀ {uid record}, TakenOf tr n uid record →
        TakenOf (tr ++ [(t, e)]) n uid record := by
      rintro uid record ⟨u, hmem, hrest⟩
      exact ⟨u, List.mem_append_left _ hmem, hrest⟩
    rcases came_next (right_of_trace hpre) he hw with
      ⟨hv, huid, hanswer⟩ | ⟨rfl, hv, huid, hanswer⟩ | ⟨c, rfl, hn, huser, hanswer⟩
    · obtain ⟨hc, ht⟩ := ih hv
      rw [huid, hanswer]
      exact ⟨hcreated hc, fun record hrecord => htaken (ht record hrecord)⟩
    · obtain ⟨hc, -⟩ := ih hv
      rw [huid, hanswer]
      refine ⟨hcreated hc, ?_⟩
      rintro _ ⟨rfl⟩
      exact ⟨t, List.mem_append_right _ (List.mem_singleton_self _), rfl⟩
    · refine ⟨⟨t, c, List.mem_append_right _ (List.mem_singleton_self _), hn, huser⟩, ?_⟩
      intro record hrecord
      cases hanswer.symm.trans hrecord

/-- **Every screen** whose listener has been called shows the record of the account that was
signed in at its creation, as it stood when its snapshot was taken. -/
theorem shows_of_called (h : Trace (welcomeApp C) tr s) (hw : s.screens[n]? = some w)
    (hcalled : w.called = true) :
    ∃ record, Loads tr n w.userId record ∧ w.fields = shown record := by
  have hright := (right_of_trace h).screens w (List.mem_of_getElem? hw)
  obtain ⟨record, hanswer, hfields⟩ := hright.shows hcalled
  obtain ⟨hcreated, htaken⟩ := loads_of_answer h hw
  exact ⟨record, ⟨hcreated, htaken record hanswer⟩, hfields⟩

/-- **No screen shows another account's data.**  In any two runs, with any registrations,
accounts, screens and late answers around them: two screens of one account, whose snapshots
are taken of the same record, show the same four texts once their listeners have been
called, those of this record. -/
theorem shows_own_record {tr' : List (WelcomeApp C × WelcomeEvent C)} {s' : WelcomeApp C}
    {n' : Nat} {w' : WelcomeCompany C} (h : Trace (welcomeApp C) tr s)
    (h' : Trace (welcomeApp C) tr' s') (hl : Loads tr n uid record)
    (hl' : Loads tr' n' uid record) (hw : s.screens[n]? = some w)
    (hw' : s'.screens[n']? = some w') (hcalled : w.called = true)
    (hcalled' : w'.called = true) : w.fields = w'.fields ∧ w.fields = shown record := by
  have hfields : w.fields = shown record := shows_of_loads h hl hw hcalled
  have hfields' : w'.fields = shown record := shows_of_loads h' hl' hw' hcalled'
  exact ⟨hfields.trans hfields'.symm, hfields⟩

/-! Two runs with one company in common. -/

/-- A company registers on the first device; it is the `j`th request there. -/
def registers (j : Nat) (account : Uid) (form : AccountForm) : List (WelcomeEvent Int) :=
  [.reg 0 (.openScreen .company), .reg 0 (.edit j form), .reg 0 (.createUserAccount j),
    .reg 0 (.created j account), .reg 0 (.onComplete j), .reg 0 .send, .reg 0 .send]

/-- What the first company enters. -/
def acmeForm : AccountForm := ⟨"office@acme", "secret", "Acme", "20", "Rome", "Italy"⟩

/-- What another one enters. -/
def benForm : AccountForm := ⟨"ben@home", "hidden", "Ben & Co", "5", "Madrid", "Spain"⟩

/-- The first company alone. -/
def acmeAlone : List (WelcomeEvent Int) :=
  registers 0 acme acmeForm ++ [.openWelcomeCompany 0, .answer 0, .deliver 0]

/-- Another company takes over the device before the answer comes. -/
def acmeThenBen : List (WelcomeEvent Int) :=
  registers 0 acme acmeForm ++ .openWelcomeCompany 0 :: .reg 0 .signOut ::
    (registers 1 ben benForm ++
      [.openWelcomeCompany 0, .answer 1, .deliver 1, .answer 0, .deliver 0])

/-- The record of the first company. -/
def acmeRecord : DataSnapshot Int :=
  some (mapNode [("company_name", "Acme"), ("age", "20"), ("country", "Italy"), ("city", "Rome")])

theorem acmeAlone_runs : Runs (welcomeApp Int) (welcomeApp Int).start acmeAlone :=
  ⟨trivial, ⟨_, rfl⟩, ⟨_, rfl⟩, ⟨_, rfl, rfl, nofun⟩, ⟨_, rfl, nofun, rfl⟩, nofun, nofun,
    trivial, ⟨_, rfl, rfl, rfl⟩, ⟨_, _, rfl, rfl, rfl, rfl⟩, trivial⟩

theorem acmeThenBen_runs : Runs (welcomeApp Int) (welcomeApp Int).start acmeThenBen :=
  ⟨trivial, ⟨_, rfl⟩, ⟨_, rfl⟩, ⟨_, rfl, rfl, nofun⟩, ⟨_, rfl, nofun, rfl⟩, nofun, nofun,
    trivial, trivial, trivial, ⟨_, rfl⟩, ⟨_, rfl⟩,
    ⟨_, rfl, rfl, by decide⟩, ⟨_, rfl, nofun, rfl⟩, nofun, nofun, trivial,
    ⟨_, rfl, rfl, rfl⟩, ⟨_, _, rfl, rfl, rfl, rfl⟩,
    ⟨_, rfl, rfl, rfl⟩, ⟨_, _, rfl, rfl, rfl, rfl⟩, trivial⟩

theorem loads_acmeAlone : Loads (steps (welcomeApp Int) (welcomeApp Int).start acmeAlone)
    0 acme acmeRecord :=
  ⟨⟨_, 0, mem_steps (registers 0 acme acmeForm) (.openWelcomeCompany 0) _ _, rfl, rfl⟩,
    ⟨_, mem_steps (registers 0 acme acmeForm ++ [.openWelcomeCompany 0]) (.answer 0) _ _, rfl⟩⟩

theorem loads_acmeThenBen : Loads (steps (welcomeApp Int) (welcomeApp Int).start acmeThenBen)
    0 acme acmeRecord :=
  ⟨⟨_, 0, mem_steps (registers 0 acme acmeForm) (.openWelcomeCompany 0) _ _, rfl, rfl⟩,
    ⟨_, mem_steps (acmeThenBen.take 19) (.answer 0) _ _, rfl⟩⟩

theorem shows_acme : ∃ w w' : WelcomeCompany Int,
    (acmeAlone.foldl (welcomeApp Int).next (welcomeApp Int).start).screens[0]? = some w ∧
      (acmeThenBen.foldl (welcomeApp Int).next (welcomeApp Int).start).screens[0]? = some w' ∧
      w.fields = w'.fields ∧ w.fields = shown acmeRecord :=
  ⟨_, _, rfl, rfl, shows_own_record (Trace.of_events acmeAlone_runs)
    (Trace.of_events acmeThenBen_runs) loads_acmeAlone loads_acmeThenBen rfl rfl rfl rfl⟩

end Partimer
