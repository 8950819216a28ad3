import Partimer.Jobs.Posted

/-!
# The pictures that a map can show

The server lists children in an order of its own, so that one database can give many pictures.
This file says exactly which, and from the posts alone: no tree, no fold.

* `Spares`, `Stands`, `pin_eq_placed_iff` — which coordinates survive the later posts of their
  company; `absent_iff` — when none are there.
* `Picture` — what a list of markers may show: one for each company, with its latest title, at
  any of the coordinates that stand, or at the point where the loop starts if all posts of the
  company went to `details` or below it.
* `pictures_iff` — **the marker loops draw such pictures, and they can draw each of them**.
-/

namespace Partimer

open KeyTree CreateJobCompany JobLoops

variable {C : Type} {P : Platform C}

/-! ## Which coordinates survive -/

/-- A later post of the company that leaves a location under the key `k` as it is: one that
goes elsewhere, or below it without taking a coordinate away. -/
def Spares (k : String) (call : CompletedCall P) : Prop :=
  match childPath call.position with
  | [] => False
  | k' :: rest => k' = k → rest ≠ [] ∧ spoils rest = false

/-- The history has posted these coordinates under the key `k`, and spared them since. -/
def Stands (k : String) (h : List (CompletedCall P)) (location : GeoLocation C) : Prop :=
  ∃ (pre : List (CompletedCall P)) (call : CompletedCall P) (post : List (CompletedCall P)),
    h = pre ++ call :: post ∧ childPath call.position = [k] ∧ call.location = location ∧
      ∀ later ∈ post, Spares k later

/-- What one post does to a location. -/
theorem Pin.write_placed_iff {k : String} {call : CompletedCall P} {pin : Pin C}
    {location : GeoLocation C} :
    pin.write k (childPath call.position) call.location = .placed location ↔
      childPath call.position = [k] ∧ call.location = location ∨
        Spares k call ∧ pin = .placed location := by
  unfold Pin.write Spares
  cases childPath call.position with
  | nil => by_cases hk : k = "g" ∨ k = "l" <;> simp [hk]
  | cons k' rest =>
    by_cases hk : k' = k
    · subst hk
      simp only [if_pos, Pin.writeBelow, List.cons.injEq, true_and, true_implies]
      cases rest with
      | nil => simp
      | cons r rs =>
        cases pin with
        | placed old => cases hs : spoils (r :: rs) <;> simp [hs]
        | absent => simp
        | broken => simp
    · simp [hk]

theorem stands_concat {k : String} {h : List (CompletedCall P)} {call : CompletedCall P}
    {location : GeoLocation C} :
    Stands k (h ++ [call]) location ↔ childPath call.position = [k] ∧ call.location = location ∨
      Spares k call ∧ Stands k h location := by
  constructor
  · rintro ⟨pre, first, post, hsplit, hpath, hlocation, hspares⟩
    rcases List.eq_nil_or_concat post with rfl | ⟨post, last, rfl⟩
    · obtain ⟨-, heq⟩ := List.append_inj' hsplit rfl
      obtain rfl : call = first := by simpa using heq
      exact Or.inl ⟨hpath, hlocation⟩
    · rw [List.concat_eq_append, ← List.cons_append, ← List.append_assoc] at hsplit
      obtain ⟨rfl, heq⟩ := List.append_inj' hsplit rfl
      obtain rfl : call = last := by simpa using heq
      rw [List.concat_eq_append, List.forall_mem_append, List.forall_mem_singleton] at hspares
      exact Or.inr ⟨hspares.2, pre, first, post, rfl, hpath, hlocation, hspares.1⟩
  · rintro (⟨hpath, hlocation⟩ | ⟨hspares, pre, first, post, rfl, hpath, hlocation, hpost⟩)
    · exact ⟨h, call, [], rfl, hpath, hlocation, nofun⟩
    · refine ⟨pre, first, post ++ [call], by simp, hpath, hlocation, ?_⟩
      rw [List.forall_mem_append, List.forall_mem_singleton]
      exact ⟨hpost, hspares⟩

/-- **Which coordinates survive.**  A location stands under a key exactly if some post has put it
there and every later one of the company has spared it. -/
theorem pin_eq_placed_iff {k : String} {h : List (CompletedCall P)} {location : GeoLocation C} :
    pin k h = .placed location ↔ Stands k h location := by
  induction h using List.reverseRecOn with
  | nil =>
    rw [pin_nil]
    refine iff_of_false nofun ?_
    rintro ⟨pre, call, post, hsplit, -⟩
    cases pre <;> cases hsplit
  | append_singleton h call ih => rw [pin_concat, Pin.write_placed_iff, stands_concat, ih]

/-- No child besides `details` is there exactly if every post of the company went into it. -/
theorem absent_iff {h : List (CompletedCall P)} :
    (∀ k, k ≠ "details" → pin k h = .absent) ↔
      ∀ call ∈ h, (childPath call.position).head? = some "details" := by
  induction h using List.reverseRecOn with
  | nil => simp
  | append_singleton h call ih =>
    rw [List.forall_mem_append, List.forall_mem_singleton, ← ih]
    simp only [pin_concat]
    cases hpath : childPath call.position with
    | nil =>
      refine iff_of_false ?_ fun hall => by simp at hall
      intro hall
      have hbroken := hall "g" (by decide)
      simp [Pin.write] at hbroken
    | cons k' rest =>
      by_cases hk' : k' = "details"
      · subst hk'
        simp only [List.head?_cons, and_true]
        refine forall₂_congr fun k hk => ?_
        rw [Pin.write, if_neg (Ne.symm hk)]
      · refine iff_of_false ?_ fun hall => hk' (by simpa using hall.2)
        intro hall
        have hwritten := hall k' hk'
        rw [Pin.write, if_pos rfl] at hwritten
        cases rest with
        | nil => cases hwritten
        | cons r rs =>
          cases hold : pin k' h with
          | placed old =>
            cases hs : spoils (r :: rs) <;> simp [Pin.writeBelow, hold, hs] at hwritten
          | absent => simp [Pin.writeBelow, hold] at hwritten
          | broken => simp [Pin.writeBelow, hold] at hwritten

/-! ## What a company can look like -/

/-- A marker of a company with the history `h`: the title of its latest post at any of the
coordinates that stand, or where the loop starts if all its posts went to `details` or below. -/
structure Shown (h : List (CompletedCall P)) (vars : JobVars C) : Prop where
  title : ∃ z, h.getLast? = some z ∧ vars.position = z.position ∧ vars.salary = z.salary
  place : (∃ k, k ≠ "details" ∧ Stands k h vars.location) ∨
    (∀ call ∈ h, (childPath call.position).head? = some "details") ∧
      vars.location = ⟨P.zero, P.zero⟩

/-- What is read of the node of a company, in whatever order. -/
theorem CompanyNode.shown {h : List (CompletedCall P)} {n m : Node String (Value C)}
    (hn : CompanyNode h (some n)) (hm : Reordered n m) {z : CompletedCall P}
    (hz : h.getLast? = some z) {vars : JobVars C} (hv : readCompany P m = .ok vars) :
    Shown h vars where
  title := ⟨z, hz, hn.read_title hm hz hv⟩
  place := by
    rcases hn.read_location hm hv with ⟨k, hk, hp⟩ | ⟨habsent, hzero⟩
    · exact Or.inl ⟨k, hk, pin_eq_placed_iff.1 hp⟩
    · exact Or.inr ⟨absent_iff.1 habsent, hzero⟩

/-- All of this can be read. -/
theorem CompanyNode.exists_shown {h : List (CompletedCall P)} {n : Node String (Value C)}
    (hn : CompanyNode h (some n)) (hok : ∀ k, k ≠ "details" → pin k h ≠ .broken)
    {vars : JobVars C} (hshown : Shown h vars) :
    ∃ m, Reordered n m ∧ readCompany P m = .ok vars := by
  obtain ⟨⟨z, hz, hposition, hsalary⟩, hplace⟩ := hshown
  obtain ⟨m, vars', hm, hv, hlocation⟩ : ∃ m vars', Reordered n m ∧ readCompany P m = .ok vars' ∧
      vars'.location = vars.location := by
    rcases hplace with ⟨k, hk, hstands⟩ | ⟨hdetails, hzero⟩
    · exact hn.exists_order hz hok hk (pin_eq_placed_iff.2 hstands)
    · obtain ⟨vars', hv⟩ := (hn.read_ok_iff (.refl n) hz).2 hok
      refine ⟨n, vars', .refl n, hv, ?_⟩
      rcases hn.read_location (.refl n) hv with ⟨k, hk, hp⟩ | ⟨-, hzero'⟩
      · rw [absent_iff.2 hdetails k hk] at hp
        cases hp
      · rw [hzero, hzero']
  obtain ⟨hposition', hsalary'⟩ := hn.read_title hm hz hv
  refine ⟨m, hm, ?_⟩
  obtain rfl : vars' = vars := by
    cases vars
    cases vars'
    simp only [JobVars.location, GeoLocation.mk.injEq] at hlocation
    simp_all
  exact hv

/-! ## Pictures -/

/-- **A picture of the run**: one marker for each company that posted, as its posts allow it to be
shown, and no others. -/
structure Picture (run : List (CompletedCall P)) (ms : List (JobMarker C)) : Prop where
  nodup : (ms.map JobMarker.company).Nodup
  companies : ∀ k, k ∈ ms.map JobMarker.company ↔ ∃ call ∈ run, call.company.text = k
  shown : ∀ m ∈ ms, ∃ company : Uid, company.text = m.company ∧
    Shown (history company run) m.vars

/-- What a loop that finishes has drawn is a picture. -/
theorem JobsTree.picture {run : List (CompletedCall P)} {db : Database C} (hdb : JobsTree run db)
    {s : DataSnapshot C} (hs : Delivers (jobsNode db) s) {ms : List (JobMarker C)}
    (hrun : (drawJobs P s).run [] = (.ok (), ms)) : Picture run ms := by
  have hok : ((drawJobs P s).run []).1 = .ok () := congrArg Prod.fst hrun
  have hread := (JobLoops.drawJobs_ok_iff P).1 hok
  obtain ⟨new, hnew, hkeys, hmem⟩ := drawJobs_run P hread []
  obtain rfl : ms = new := congrArg Prod.snd (hrun.symm.trans hnew)
  refine ⟨?_, ?_, ?_⟩
  · rw [hkeys]
    exact (Shuffled.keys_perm hs).nodup_iff.1 hdb.nodup
  · intro k
    rw [hkeys, ← hdb.companies k]
    exact (Shuffled.keys_perm hs).mem_iff.symm
  · intro m hm
    obtain ⟨n', hn', hv⟩ := hmem m hm
    obtain ⟨company, n, z, hk, hz, hnode, hr⟩ := hdb.of_mem hs hn'
    exact ⟨company, hk, hnode.shown hr hz hv⟩

/-- Every picture is drawn in some order of the children. -/
theorem JobsTree.exists_delivers {run : List (CompletedCall P)} {db : Database C}
    (hdb : JobsTree run db) (hB : NoBrokenPin run) {ms : List (JobMarker C)}
    (hms : Picture run ms) :
    ∃ s, Delivers (jobsNode db) s ∧ (drawJobs P s).run [] = (.ok (), ms) := by
  have horder : ∀ m ∈ ms, ∃ n n', (m.company, n) ∈ children (jobsNode db) ∧ Reordered n n' ∧
      readCompany P n' = .ok m.vars := by
    intro m hm
    obtain ⟨company, hk, hshown⟩ := hms.shown m hm
    obtain ⟨z, hz, -⟩ := hshown.title
    obtain ⟨n, hn, hnode⟩ := hdb.exists_node hz
    obtain ⟨n', hr, hv⟩ := hnode.exists_shown (hB company) hshown
    rw [hk] at hn
    exact ⟨n, n', hn, hr, hv⟩
  have : Nonempty (Node String (Value C)) := ⟨.inner []⟩
  choose! n n' hn hr hv using horder
  refine ⟨some (.inner (ms.map fun m => (m.company, n' m))),
    ⟨ms.map fun m => (m.company, n m), ?_, ?_⟩, ?_⟩
  · have hkeys : keys (ms.map fun m => (m.company, n m)) = ms.map JobMarker.company := by
      simp [keys, Function.comp_def]
    refine perm_of_keys hdb.nodup (by rw [hkeys]; exact hms.nodup) ?_ ?_
    · intro x hx
      obtain ⟨m, hm, rfl⟩ := List.mem_map.1 hx
      exact hn m hm
    · intro k hk
      rw [hkeys]
      exact (hms.companies k).2 ((hdb.companies k).1 hk)
  · rw [children_some, Node.children_inner, List.forall₂_map_left_iff,
      List.forall₂_map_right_iff, List.forall₂_same]
    exact fun m hm => ⟨rfl, hr m hm⟩
  · refine drawCompanies_run P ?_ []
    rw [children_some, Node.children_inner, List.forall₂_map_left_iff, List.forall₂_same]
    exact fun m hm => ⟨rfl, hv m hm⟩

/-- **Which pictures**, for any tree that the run can have left. -/
theorem JobsTree.pictures {run : List (CompletedCall P)} {db : Database C} (hdb : JobsTree run db)
    {ms : List (JobMarker C)} :
    (∃ s, Delivers (jobsNode db) s ∧ (drawJobs P s).run [] = (.ok (), ms)) ↔
      NoBrokenPin run ∧ Picture run ms := by
  constructor
  · rintro ⟨s, hs, hrun⟩
    exact ⟨(hdb.drawJobs_ok_iff hs []).1 (congrArg Prod.fst hrun), hdb.picture hs hrun⟩
  · rintro ⟨hB, hms⟩
    exact hdb.exists_delivers hB hms

/-- **The pictures that a map can show.**  A marker loop over the jobs of a run can finish with
these markers, in some order of the children, exactly if no pin is broken and they are a
picture: one for each company, with the title of its latest post, at any one of the coordinates
that stand, whichever the others show; or at the point where the loop starts, for a company whose
posts all went to `details` or below it. -/
theorem pictures_iff (run : List (CompletedCall P)) (ms : List (JobMarker C)) :
    (∃ s, Delivers (jobsNode (runCalls run)) s ∧
      (EmployeeMapActivity.onMapReadyJobs P s).run [] = (.ok (), ms)) ↔
      NoBrokenPin run ∧ Picture run ms :=
  (jobsTree_runCalls run).pictures

end Partimer
