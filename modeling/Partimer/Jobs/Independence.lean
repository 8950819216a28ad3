import Partimer.Jobs.Posted

/-!
# Companies do not disturb each other

A position is free text and is used as a path of any depth, but every write of a call
goes below the node of the company that makes it.  So a call leaves the nodes of the
other companies as they were, and of the writes of several companies only the order
within each company matters.

* `issued` — the writes a call issues, whether it completes or not;
  `issued_cases` — both or none; `mem_issued` — they go below the node of its company.
* `Interleaves` — the writes of the posts of each company, in its own order, mixed in
  some way with those of the others; `interleaves_of_posts` — posts that the server
  applies as a whole are one way.
* `undisturbed` — a call leaves other companies' nodes alone, and all ways to mix the
  posts end in the same `Jobs` tree and the same markers.
-/

namespace Partimer

open KeyTree CreateJobCompany

variable {C : Type} (P : Platform C)

/-- The writes that a call of `addJobLocation` issues. -/
def issued (company : Uid) (form : JobForm) : List (Write C) :=
  ((addJobLocation P (some company) form).run []).2

/-- The server applies writes one after the other. -/
def applyAll (ws : List (Write C)) (db : Database C) : Database C :=
  ws.foldl (fun db w => w.apply db) db

/-- A call issues both of its writes, or none because the form is refused or something in
it cannot be read. -/
theorem issued_cases (company : Uid) (form : JobForm) :
    (∃ location, issued P company form = [locationWrite P company form.etPos location,
      detailsWrite company form.etPos form.etSal]) ∨
    issued P company form = [] ∧
      ¬ (checkFormFields form = .ok () ∧ CanPost P (some company) form) := by
  unfold issued
  rcases addJobLocation_run P (some company) form [] with
    ⟨_, location, ⟨⟩, -, -, -, hrun⟩ | ⟨_, _, hrefused, hrun⟩ | ⟨_, -, hcannot, hrun⟩
  · rw [hrun]
    exact Or.inl ⟨location, rfl⟩
  · rw [hrun]
    exact Or.inr ⟨rfl, fun h => by cases h.1.symm.trans hrefused⟩
  · rw [hrun]
    exact Or.inr ⟨rfl, fun h => hcannot h.2⟩

/-- What a call issues goes below the node of its company. -/
theorem mem_issued {company : Uid} {form : JobForm} {w : Write C}
    (hw : w ∈ issued P company form) :
    ∃ rel value, w = ⟨["Jobs", company.text] ++ rel, value⟩ := by
  rcases issued_cases P company form with ⟨location, hboth⟩ | ⟨hnone, -⟩
  · rw [hboth] at hw
    simp only [List.mem_cons, List.not_mem_nil, or_false] at hw
    rcases hw with rfl | rfl
    · exact ⟨_, _, rfl⟩
    · exact ⟨_, _, rfl⟩
  · rw [hnone] at hw
    cases hw

/-! ## One call -/

/-- Writes below the node of one company leave another's as it was. -/
theorem companyNode_applyAll {company other : Uid} (h : other ≠ company) {ws : List (Write C)}
    (hws : ∀ w ∈ ws, ∃ rel value, w = ⟨["Jobs", company.text] ++ rel, value⟩)
    (db : Database C) : companyNode (applyAll ws db) other = companyNode db other := by
  induction ws generalizing db with
  | nil => rfl
  | cons w ws ih =>
    obtain ⟨rel, value, rfl⟩ := hws w List.mem_cons_self
    have hrest := ih (fun w hw => hws w (List.mem_cons_of_mem _ hw))
      (Write.apply ⟨["Jobs", company.text] ++ rel, value⟩ db)
    exact hrest.trans (companyNode_apply_ne h rel value db)

/-! ## Several companies -/

/-- `ws` holds, each with its company, the writes that the posts of each company issue,
those of one company in the order issued. -/
def Interleaves (posts : Uid → List JobForm) (ws : List (Uid × Write C)) : Prop :=
  ∀ company, (ws.filter fun x => x.1 = company).map Prod.snd =
    (posts company).flatMap (issued P company)

/-- Posts of several companies that are each applied as a whole. -/
theorem interleaves_of_posts {posts : Uid → List JobForm} {run : List (Uid × JobForm)}
    (h : ∀ company, (run.filter fun x => x.1 = company).map Prod.snd = posts company) :
    Interleaves P posts
      (run.flatMap fun x => (issued P x.1 x.2).map fun w => (x.1, w)) := by
  intro company
  rw [← h company]
  clear h
  induction run with
  | nil => rfl
  | cons x run ih =>
    obtain ⟨c, form⟩ := x
    rw [List.flatMap_cons, List.filter_append, List.map_append, ih]
    by_cases hc : c = company
    · subst hc
      simp [List.filter_map, Function.comp_def]
    · simp [hc, List.filter_map, Function.comp_def]

variable {P}

/-- The writes of a company, each again with its company. -/
theorem filter_eq_map (ws : List (Uid × Write C)) (company : Uid) :
    (ws.filter fun x => x.1 = company) =
      ((ws.filter fun x => x.1 = company).map Prod.snd).map fun w => (company, w) := by
  rw [List.map_map]
  refine (List.map_id _).symm.trans (List.map_congr_left ?_)
  intro x hx
  obtain rfl : x.1 = company := by simpa using (List.mem_filter.1 hx).2
  rfl

/-- What a write below a company's node does to that node. -/
def entryUpdate (x : Uid × Write C) : String × (DataSnapshot C → Node String (Value C)) :=
  (x.1.text, store (x.2.path.drop 2) x.2.value)

/-- A write below a company's node updates the entry of the company. -/
theorem jobsNode_apply_entry {x : Uid × Write C}
    (hx : ∃ rel value, x.2 = ⟨["Jobs", x.1.text] ++ rel, value⟩) (db : Database C) :
    jobsNode (x.2.apply db) = some (.inner
      (update (entryUpdate x).1 (entryUpdate x).2 (children (jobsNode db)))) := by
  obtain ⟨company, w⟩ := x
  obtain ⟨rel, value, hw⟩ := hx
  dsimp only at hw
  subst hw
  rw [jobsNode_apply]
  rfl

/-- The `Jobs` node after any writes of companies. -/
theorem jobsNode_applyAll {ws : List (Uid × Write C)} (hne : ws ≠ [])
    (hws : ∀ x ∈ ws, ∃ rel value, x.2 = ⟨["Jobs", x.1.text] ++ rel, value⟩)
    (db : Database C) : jobsNode (applyAll (ws.map Prod.snd) db) =
      some (.inner (updates (ws.map entryUpdate) (children (jobsNode db)))) := by
  induction ws generalizing db with
  | nil => exact absurd rfl hne
  | cons x ws ih =>
    have hx := jobsNode_apply_entry (hws x List.mem_cons_self) db
    by_cases hnil : ws = []
    · subst hnil
      exact hx
    · have hrest := ih hnil (fun y hy => hws y (List.mem_cons_of_mem _ hy)) (x.2.apply db)
      rw [hx] at hrest
      exact hrest

section Interleaving

variable {posts : Uid → List JobForm} {ws ws' : List (Uid × Write C)}

/-- Every write of an interleaving goes below the node of its company. -/
theorem Interleaves.below (h : Interleaves P posts ws) :
    ∀ x ∈ ws, ∃ rel value, x.2 = ⟨["Jobs", x.1.text] ++ rel, value⟩ := by
  intro x hx
  have hmem : x.2 ∈ (posts x.1).flatMap (issued P x.1) := by
    rw [← h x.1]
    exact List.mem_map_of_mem (List.mem_filter.2 ⟨hx, by simp⟩)
  obtain ⟨form, -, hissued⟩ := List.mem_flatMap.1 hmem
  exact mem_issued P hissued

/-- Two interleavings of the same posts have the same writes of each company. -/
theorem Interleaves.filter_eq (h : Interleaves P posts ws) (h' : Interleaves P posts ws')
    (company : Uid) :
    (ws.filter fun x => x.1 = company) = ws'.filter fun x => x.1 = company := by
  rw [filter_eq_map ws, filter_eq_map ws', h company, h' company]

/-- So they update each entry of the `Jobs` node in the same way. -/
theorem Interleaves.updates_eq (h : Interleaves P posts ws) (h' : Interleaves P posts ws')
    (k : String) : ((ws.map entryUpdate).filter fun u => u.1 = k) =
      (ws'.map entryUpdate).filter fun u => u.1 = k := by
  have hkey : ∀ ws : List (Uid × Write C), ((ws.map entryUpdate).filter fun u => u.1 = k) =
      (ws.filter fun x => x.1.text = k).map entryUpdate := by
    intro ws
    rw [List.filter_map]
    rfl
  rw [hkey, hkey]
  by_cases hk : ∃ company : Uid, company.text = k
  · obtain ⟨company, rfl⟩ := hk
    have hsame : ∀ ws : List (Uid × Write C), (ws.filter fun x => x.1.text = company.text) =
        ws.filter fun x => x.1 = company := by
      intro ws
      refine List.filter_congr ?_
      intro x _
      exact decide_eq_decide.2 ⟨Uid.ext_text, congrArg Uid.text⟩
    rw [hsame, hsame, h.filter_eq h']
  · have hnone : ∀ ws : List (Uid × Write C), (ws.filter fun x => x.1.text = k) = [] := by
      intro ws
      refine List.filter_eq_nil_iff.2 ?_
      intro x _ hx
      exact hk ⟨x.1, of_decide_eq_true hx⟩
    rw [hnone, hnone]

theorem Interleaves.eq_nil (h : Interleaves P posts []) (h' : Interleaves P posts ws) :
    ws = [] := by
  refine List.eq_nil_iff_forall_not_mem.2 ?_
  intro x hx
  have hmem : x ∈ ws.filter fun y => y.1 = x.1 := List.mem_filter.2 ⟨hx, by simp⟩
  rw [← h.filter_eq h'] at hmem
  cases hmem

/-- Two interleavings of the same posts end in the same `Jobs` tree, its companies
listed in some order. -/
theorem Interleaves.sameTree (h : Interleaves P posts ws) (h' : Interleaves P posts ws')
    (db : Database C) : Option.Rel Reordered (jobsNode (applyAll (ws.map Prod.snd) db))
      (jobsNode (applyAll (ws'.map Prod.snd) db)) := by
  by_cases hnil : ws = []
  · subst hnil
    rw [h.eq_nil h']
    cases jobsNode (applyAll ([].map Prod.snd) db) with
    | none => exact .none
    | some n => exact .some (.refl n)
  · have hnil' : ws' ≠ [] := by
      rintro rfl
      exact hnil (h'.eq_nil h)
    rw [jobsNode_applyAll hnil h.below, jobsNode_applyAll hnil' h'.below]
    exact .some (.inner (updates_perm (h.updates_eq h') _))

end Interleaving

/-- A listener is handed the same snapshots of a tree in whatever order the companies
are kept. -/
theorem Delivers.of_rel {t u s : DataSnapshot C} (h : Option.Rel Reordered t u)
    (hs : Delivers t s) : Delivers u s := by
  obtain ⟨ms, hperm, hall⟩ := hs
  have hchildren : (children t).Perm (children u) := by
    cases h with
    | none => exact .refl _
    | some h => exact h.children_perm
  exact ⟨ms, hchildren.symm.trans hperm, hall⟩

theorem Delivers.congr {t u : DataSnapshot C} (h : Option.Rel Reordered t u)
    (h' : Option.Rel Reordered u t) (s : DataSnapshot C) : Delivers t s ↔ Delivers u s :=
  ⟨.of_rel h, .of_rel h'⟩

variable (P)

/-- What the two maps may draw of a `Jobs` tree. -/
def Draws (t : DataSnapshot C) (drawn : List (JobMarker C) × List (JobMarker C)) : Prop :=
  ∃ s, Delivers t s ∧ drawn = (((EmployeeMapActivity.onMapReadyJobs P s).run []).2,
    ((BossMapActivity.onMapReadyJobs P s).run []).2)

/-- **Companies cannot disturb each other's jobs.**  Over every tree, a call leaves the
node of every other company as it was; and however the writes of the posts of any
companies are mixed, in each company's own order, the `Jobs` tree they end in is the
same, and so is what the maps may draw of it. -/
theorem undisturbed (db : Database C) :
    (∀ company other form, other ≠ company →
      companyNode (applyAll (issued P company form) db) other = companyNode db other) ∧
    ∀ posts ws ws', Interleaves P posts ws → Interleaves P posts ws' →
      Option.Rel Reordered (jobsNode (applyAll (ws.map Prod.snd) db))
        (jobsNode (applyAll (ws'.map Prod.snd) db)) ∧
      ∀ drawn, Draws P (jobsNode (applyAll (ws.map Prod.snd) db)) drawn ↔
        Draws P (jobsNode (applyAll (ws'.map Prod.snd) db)) drawn := by
  constructor
  · intro company other form hne
    exact companyNode_applyAll hne (fun w hw => mem_issued P hw) db
  · intro posts ws ws' h h'
    have hsame := h.sameTree h' db
    have hsame' := h'.sameTree h db
    refine ⟨hsame, ?_⟩
    intro drawn
    exact exists_congr fun s => and_congr_left fun _ => Delivers.congr hsame hsame' s

end Partimer
