import Partimer.Screens.EmployeeMap

/-!
# The profile that Welcome shows

`Welcome` shows the first four entries of the static list `userDetails`, whoever is
signed in.  They are those of the first profile delivered in the process.

* `ShowsSignedIn` — each opening of `Welcome` shows the record stored for the person
  signed in.
* `showsSignedIn_iff` — it does exactly if a profile was delivered and the first one
  delivered in the process held the same four texts.
-/

namespace Partimer

open Transition

variable {C : Type} {P : Platform C} {s : Session C}

/-- Opening `Welcome` with a person signed in goes through and shows the four texts
stored for that person at that moment; an absent one is shown as `null`. -/
def ShowsSignedIn (s : Session C) : SessionEvent C → Prop
  | .openWelcome => ∀ account, s.currentUser = some account →
      ∃ p, profileOf (personNode s.db account) = .ok p ∧
        Welcome.onCreate s.process.userDetails s.currentUser = .ok p
  | _ => True

/-- When `Welcome` is opened with a person signed in, a profile has been delivered
in the process, and the first one delivered held the four texts now stored for that
person. -/
def FirstIsSignedIn (s : Session C) : SessionEvent C → Prop
  | .openWelcome => ∀ account, s.currentUser = some account →
      ∃ first, s.process.profilesDelivered.head? = some first ∧
        profileOf first = profileOf (personNode s.db account)
  | _ => True

theorem onCreate_append (p : Profile) (rest : List (Option String)) (account : Uid) :
    Welcome.onCreate (p.toList ++ rest) (some account) = .ok p := rfl

theorem onCreate_nil (currentUser : Option Uid) :
    Welcome.onCreate [] currentUser = .error .indexOutOfBounds := rfl

/-- What `Welcome` shows is the first profile delivered, or an index error. -/
theorem Filled.onCreate (h : Filled P s.process) (account : Uid) (p : Profile) :
    Welcome.onCreate s.process.userDetails (some account) = .ok p ↔
      ∃ first, s.process.profilesDelivered.head? = some first ∧ profileOf first = .ok p := by
  obtain ⟨ps, hps, hdetails⟩ := h.userDetails
  rw [hdetails]
  generalize s.process.profilesDelivered = delivered at hps ⊢
  cases hps with
  | nil => simp [onCreate_nil]
  | @cons first q _ qs hq _ =>
    rw [List.flatMap_cons, onCreate_append]
    simp [hq]

/-- **When Welcome shows the person signed in.** -/
theorem showsSignedIn_iff {tr : List (Session C × SessionEvent C)}
    (h : Trace (session P) tr s) : Meets ShowsSignedIn tr ↔ Meets FirstIsSignedIn tr := by
  refine h.meets_iff (I := fun s => Filled P s.process) Filled.fresh
    (fun _ e hs _ => hs.next e) ?_
  intro s e hs _
  cases e with
  | openWelcome =>
    refine forall₂_congr ?_
    intro account hsigned
    rw [hsigned]
    constructor
    · rintro ⟨p, hstored, hshown⟩
      obtain ⟨first, hfirst, hp⟩ := (hs.onCreate account p).1 hshown
      exact ⟨first, hfirst, hp.trans hstored.symm⟩
    · rintro ⟨first, hfirst, hsame⟩
      obtain ⟨ps, hps, -⟩ := hs.userDetails
      -- the first profile was read without an exception
      obtain ⟨p, hp⟩ : ∃ p, profileOf first = .ok p := by
        generalize s.process.profilesDelivered = delivered at hps hfirst
        cases hps with
        | nil => cases hfirst
        | cons hq _ =>
          cases hfirst
          exact ⟨_, hq⟩
      exact ⟨p, hsame.symm.trans hp, (hs.onCreate account p).2 ⟨first, hfirst, hp⟩⟩
  | _ => exact Iff.rfl

/-! Two persons on one device. -/

/-- The record of a person is stored. -/
def storeProfile (account : Uid) (name age country city : String) : SessionEvent Int :=
  .write ⟨["Users", "Person", account.text],
    mapNode [("User_name", name), ("age", age), ("country", country), ("city", city)]⟩

/-- Sign in, open the map, let the profile arrive, and open `Welcome`. -/
def visit (account : Uid) : List (SessionEvent Int) :=
  [.signIn account, .openMap, .answerProfile 0, .deliverProfile 0, .openWelcome]

/-- One visit. -/
def oneVisit : List (SessionEvent Int) := storeProfile ann "Ann" "20" "Italy" "Rome" :: visit ann

theorem oneVisit_runs : Runs (session wholeDegrees) (session wholeDegrees).start oneVisit :=
  ⟨trivial, trivial, trivial, ⟨_, rfl⟩, ⟨_, _, rfl⟩, Nat.one_pos, trivial⟩

theorem showsSignedIn_oneVisit : Meets ShowsSignedIn
    (steps (session wholeDegrees) (session wholeDegrees).start oneVisit) := by
  refine (showsSignedIn_iff (Trace.of_events oneVisit_runs)).2 ?_
  simp only [oneVisit, visit, meets_steps_cons, meets_steps_nil, and_true]
  refine ⟨trivial, trivial, trivial, trivial, trivial, ?_⟩
  rintro account ⟨rfl⟩
  exact ⟨_, rfl, rfl⟩

/-- Two visits, of one person after the other. -/
def twoVisits : List (SessionEvent Int) :=
  storeProfile ann "Ann" "20" "Italy" "Rome" :: storeProfile ben "Ben" "30" "Spain" "Madrid" ::
    (visit ann ++ .signOut :: visit ben)

theorem twoVisits_runs : Runs (session wholeDegrees) (session wholeDegrees).start twoVisits :=
  ⟨trivial, trivial, trivial, trivial, ⟨_, rfl⟩, ⟨_, _, rfl⟩, Nat.one_pos, trivial, trivial,
    trivial, ⟨_, rfl⟩, ⟨_, _, rfl⟩, Nat.two_pos, trivial⟩

/-- The second person is shown the profile of the first. -/
theorem not_showsSignedIn_twoVisits : ¬ ∀ tr s, Trace (session wholeDegrees) tr s →
    Meets ShowsSignedIn tr := by
  intro h
  have hshown := h _ _ (Trace.of_events twoVisits_runs) _
    (mem_steps (twoVisits.dropLast) .openWelcome [] _)
  obtain ⟨p, hstored, hp⟩ := hshown ben rfl
  have hname : some (some "Ben") = some (some "Ann") :=
    congrArg (fun r => r.toOption.map Profile.name) (hstored.trans hp.symm)
  exact absurd hname (by decide)

end Partimer
