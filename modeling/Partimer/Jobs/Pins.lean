import Mathlib.Data.List.Induction
import Partimer.Jobs.CreateJob
import Partimer.Jobs.MapLoops

/-!
# What a history of posts leaves under a company's node

For the readers, a company's node is a title (the child `details`) and a board of
pins, one for every other key.  This file gives the board a life of its own, with
no tree in it: `pin k h` is what the posts `h` of a company leave of the pin under
the key `k`.  The tree that `addJobLocation` writes to refines it.

* `Pin`, `Pin.write`, `pin` — the board.
* `pinOf_store` — a location write at any path, of whatever depth, changes the
  pins of the tree as `Pin.write` says.
* `CompanyNode`, `JobsTree` — the tree after a run of completed calls shows, under
  every company, the title of its latest call and the pins of its history
  (`jobsTree_runCalls`).
* `CompanyNode.read_ok_iff`, `CompanyNode.read_location`, … — what the loops read
  of such a node, in whatever order its children come.
-/

namespace Partimer

open KeyTree CreateJobCompany JobLoops

variable {C : Type}

/-! ## The board -/

/-- What the readers make of the child under one key. -/
inductive Pin (C : Type) where
  /-- There is no such child. -/
  | absent
  /-- The child holds these coordinates. -/
  | placed (location : GeoLocation C)
  /-- There is such a child, and reading its coordinates throws. -/
  | broken
  deriving DecidableEq, Repr

/-- Whether a write below a location node, at the given keys from it, takes away
its number at `l/0` or at `l/1`. -/
def spoils : List String → Bool
  | [] => false
  | k :: ks =>
    if k = "l" then
      match ks with
      | [] => true
      | k' :: _ => k' = "0" || k' = "1"
    else false

/-- What a location write below the key of a pin makes of it. -/
def Pin.writeBelow (rest : List String) (location : GeoLocation C) (pin : Pin C) : Pin C :=
  match rest, pin with
  | [], _ => .placed location
  | rest, .placed old => if spoils rest then .broken else .placed old
  | _, _ => .broken

/-- What a location write at a path makes of the pin under the key `k`.  The empty
path replaces the whole node: what is left are the children `g` and `l` of the
location node, which hold no coordinates themselves. -/
def Pin.write (k : String) (path : List String) (location : GeoLocation C) (pin : Pin C) :
    Pin C :=
  match path with
  | [] => if k = "g" ∨ k = "l" then .broken else .absent
  | k' :: rest => if k' = k then pin.writeBelow rest location else pin

/-- A write places only the coordinates it brings. -/
theorem Pin.write_eq_placed {k : String} {path : List String} {location loc : GeoLocation C}
    {pin : Pin C} (h : pin.write k path location = .placed loc) :
    loc = location ∨ pin = .placed loc := by
  unfold Pin.write at h
  split at h
  · split at h <;> cases h
  · split at h
    · unfold Pin.writeBelow at h
      split at h
      · cases h; exact Or.inl rfl
      · split at h
        · cases h
        · exact Or.inr h
      · cases h
    · exact Or.inr h

variable {P : Platform C}

/-- The pin a history of posts, oldest first, leaves under the key `k`. -/
def pin (k : String) (h : List (CompletedCall P)) : Pin C :=
  h.foldl (fun pin call => pin.write k (childPath call.position) call.location) .absent

@[simp] theorem pin_nil (k : String) : pin k ([] : List (CompletedCall P)) = .absent := rfl

theorem pin_concat (k : String) (h : List (CompletedCall P)) (call : CompletedCall P) :
    pin k (h ++ [call]) = (pin k h).write k (childPath call.position) call.location := by
  simp [pin]

/-! ## The pins of a tree -/

variable (P)

/-- The pin that a subtree is to the readers. -/
def pinOf (t : DataSnapshot C) : Pin C :=
  match t with
  | none => .absent
  | some n =>
    match locationOf P n with
    | .ok location => .placed location
    | .error _ => .broken

theorem pinOf_eq_absent {t : DataSnapshot C} : pinOf P t = .absent ↔ t = none := by
  unfold pinOf
  cases t with
  | none => simp
  | some n => cases h : locationOf P n <;> simp [h]

theorem pinOf_eq_placed {n : Node String (Value C)} {location : GeoLocation C} :
    pinOf P (some n) = .placed location ↔ locationOf P n = .ok location := by
  unfold pinOf
  cases h : locationOf P n <;> simp [h]

theorem pinOf_eq_broken {n : Node String (Value C)} :
    pinOf P (some n) = .broken ↔ ∀ location, locationOf P n ≠ .ok location := by
  unfold pinOf
  cases h : locationOf P n <;> simp [h]

/-- The coordinates of a node depend only on what it has under `l`. -/
theorem locationOf_congr {n m : Node String (Value C)}
    (h : ∀ k, k = "0" ∨ k = "1" → fetch (some n) ["l", k] = fetch (some m) ["l", k]) :
    locationOf P n = locationOf P m := by
  unfold locationOf
  rw [h "0" (Or.inl rfl), h "1" (Or.inr rfl)]

/-- A node without both coordinates under `l` is no location. -/
theorem locationOf_ne_ok_of_double {n : Node String (Value C)} {k : String}
    (hk : k = "0" ∨ k = "1")
    (h : ∀ c, DataSnapshot.doubleValue P (fetch (some n) ["l", k]) ≠ .ok c)
    (location : GeoLocation C) : locationOf P n ≠ .ok location := by
  unfold locationOf
  intro hok
  cases hlat : DataSnapshot.doubleValue P (fetch (some n) ["l", "0"]) with
  | error e => rw [hlat] at hok; cases hok
  | ok lat =>
    cases hlong : DataSnapshot.doubleValue P (fetch (some n) ["l", "1"]) with
    | error e => rw [hlat, hlong] at hok; cases hok
    | ok long =>
      rcases hk with rfl | rfl
      · exact h _ hlat
      · exact h _ hlong

/-- Writing a location node anywhere leaves an inner node, which is no number. -/
theorem doubleValue_store (ks : List String) (location : GeoLocation C) (t : DataSnapshot C)
    (c : C) :
    DataSnapshot.doubleValue P (some (store ks (locationNode P location) t)) ≠ .ok c := by
  cases ks <;> simp [store, locationNode, DataSnapshot.doubleValue]

/-- A location write that takes a coordinate away. -/
theorem pinOf_store_of_spoils {r : String} {rs : List String} (hs : spoils (r :: rs) = true)
    (location : GeoLocation C) (t : DataSnapshot C) :
    pinOf P (some (store (r :: rs) (locationNode P location) t)) = .broken := by
  rw [pinOf_eq_broken]
  obtain rfl : r = "l" := by
    by_contra hr
    simp [spoils, hr] at hs
  cases rs with
  | nil =>
    refine locationOf_ne_ok_of_double P (Or.inl rfl) ?_
    intro c
    rw [fetch_cons, child_store_self]
    -- a location node has no child `0` of its own
    show DataSnapshot.doubleValue P none ≠ .ok c
    simp [DataSnapshot.doubleValue]
  | cons x xs =>
    have hx : x = "0" ∨ x = "1" := by simpa [spoils] using hs
    refine locationOf_ne_ok_of_double P hx ?_
    intro c
    rw [fetch_cons, child_store_self, fetch_cons, child_store_self]
    exact doubleValue_store P xs location _ c

/-- Any other one below a child leaves the coordinates what they were. -/
theorem fetch_store_of_not_spoils {r : String} {rs : List String}
    (hs : ¬ spoils (r :: rs) = true) (v : Node String (Value C)) (t : DataSnapshot C) {k : String}
    (hk : k = "0" ∨ k = "1") :
    fetch (some (store (r :: rs) v t)) ["l", k] = fetch t ["l", k] := by
  by_cases hr : r = "l"
  · subst hr
    cases rs with
    | nil => simp [spoils] at hs
    | cons x xs =>
      have hne : k ≠ x := by
        rintro rfl
        rcases hk with rfl | rfl <;> simp [spoils] at hs
      rw [fetch_cons, child_store_self, fetch_cons, child_store_ne hne]
      rfl
  · rw [fetch_cons, child_store_ne (Ne.symm hr)]
    rfl

/-- A location write strictly below a child, as the pin of that child sees it. -/
theorem pinOf_storeBelow (r : String) (rs : List String) (location : GeoLocation C)
    (t : DataSnapshot C) :
    pinOf P (some (store (r :: rs) (locationNode P location) t)) =
      (pinOf P t).writeBelow (r :: rs) location := by
  by_cases hs : spoils (r :: rs) = true
  · rw [pinOf_store_of_spoils P hs]
    cases pinOf P t <;> simp [Pin.writeBelow, hs]
  · have hsame : ∀ k, k = "0" ∨ k = "1" →
        fetch (some (store (r :: rs) (locationNode P location) t)) ["l", k] =
          fetch t ["l", k] := fun k hk => fetch_store_of_not_spoils hs _ t hk
    cases t with
    | none =>
      have hb : pinOf P (some (store (r :: rs) (locationNode P location) none)) = .broken := by
        rw [pinOf_eq_broken]
        refine locationOf_ne_ok_of_double P (Or.inl rfl) ?_
        intro c
        rw [hsame "0" (Or.inl rfl)]
        simp [DataSnapshot.doubleValue]
      rw [hb]
      rfl
    | some n =>
      have hloc := locationOf_congr P hsame
      unfold pinOf
      simp only [hloc]
      cases locationOf P n <;> simp [Pin.writeBelow, hs]

/-- **The tree refines the board.**  A location write at any path changes the pin
under every key as the board says. -/
theorem pinOf_store (k : String) (path : List String) (location : GeoLocation C)
    (t : DataSnapshot C) :
    pinOf P (child (some (store path (locationNode P location) t)) k) =
      (pinOf P (child t k)).write k path location := by
  cases path with
  | nil =>
    unfold Pin.write
    by_cases hg : k = "g"
    · subst hg; rfl
    · by_cases hl : k = "l"
      · subst hl; rfl
      · have hnone : child (some (locationNode P location)) k = none := by
          simp [child, locationNode, hg, hl]
        simp [hg, hl, hnone, pinOf]
  | cons k' rest =>
    by_cases hk : k' = k
    · subst hk
      rw [child_store_self, Pin.write, if_pos rfl]
      cases rest with
      | nil => rfl
      | cons r rs => exact pinOf_storeBelow P r rs location _
    · rw [child_store_ne (Ne.symm hk), Pin.write, if_neg hk]

/-! ## One write, and the company nodes -/

variable {P}

/-- The `Jobs` node of a database. -/
def jobsNode (db : Database C) : DataSnapshot C := fetch db ["Jobs"]

/-- The node of a company. -/
def companyNode (db : Database C) (company : Uid) : DataSnapshot C :=
  child (jobsNode db) company.text

/-- A write below a company's node is a write to that node. -/
theorem jobsNode_apply (company : Uid) (rel : List String) (value : Node String (Value C))
    (db : Database C) :
    jobsNode (Write.apply ⟨["Jobs", company.text] ++ rel, value⟩ db) =
      some (store (company.text :: rel) value (jobsNode db)) := by
  unfold jobsNode Write.apply
  exact fetch_store_append ["Jobs"] (company.text :: rel) value db

theorem companyNode_apply_self (company : Uid) (rel : List String)
    (value : Node String (Value C)) (db : Database C) :
    companyNode (Write.apply ⟨["Jobs", company.text] ++ rel, value⟩ db) company =
      some (store rel value (companyNode db company)) := by
  rw [companyNode, jobsNode_apply, child_store_self, companyNode]

/-- **Companies do not touch each other's nodes.** -/
theorem companyNode_apply_ne {company other : Uid} (h : other ≠ company) (rel : List String)
    (value : Node String (Value C)) (db : Database C) :
    companyNode (Write.apply ⟨["Jobs", company.text] ++ rel, value⟩ db) other =
      companyNode db other := by
  have hne : other.text ≠ company.text := fun heq => h (Uid.ext_text heq)
  rw [companyNode, jobsNode_apply, child_store_ne hne, companyNode]

theorem mem_keys_jobsNode_apply (company : Uid) (rel : List String)
    (value : Node String (Value C)) (db : Database C) (k : String) :
    k ∈ keys (children (jobsNode (Write.apply ⟨["Jobs", company.text] ++ rel, value⟩ db))) ↔
      k = company.text ∨ k ∈ keys (children (jobsNode db)) := by
  rw [jobsNode_apply]
  exact mem_keys_put

theorem nodup_keys_jobsNode_apply (company : Uid) (rel : List String)
    (value : Node String (Value C)) {db : Database C}
    (h : (keys (children (jobsNode db))).Nodup) :
    (keys (children (jobsNode (Write.apply ⟨["Jobs", company.text] ++ rel, value⟩ db)))).Nodup := by
  rw [jobsNode_apply]
  exact nodup_keys_put _ _ h

/-- Location writes keep the keys of a company's node distinct. -/
theorem nodup_keys_storeLocation (path : List String) (location : GeoLocation C)
    {t : DataSnapshot C} (h : (keys (children t)).Nodup) :
    (keys (store path (locationNode P location) t).children).Nodup := by
  cases path with
  | nil => simp [locationNode]
  | cons k ks => exact nodup_keys_put _ _ h

/-! ## A company's node after its history -/

/-- The node of a company shows the title of its latest post and the pins of its
history `h`. -/
structure CompanyNode (h : List (CompletedCall P)) (t : DataSnapshot C) : Prop where
  nodup : (keys (children t)).Nodup
  details : child t "details" = h.getLast?.map fun z => newPost z.position z.salary
  pins : ∀ k, k ≠ "details" → pinOf P (child t k) = pin k h

theorem CompanyNode.empty : CompanyNode ([] : List (CompletedCall P)) none :=
  ⟨List.nodup_nil, rfl, fun _ _ => rfl⟩

/-- **One more post.**  The two writes of a call add it to the history. -/
theorem CompanyNode.post {h : List (CompletedCall P)} {t : DataSnapshot C}
    (ht : CompanyNode h t) (call : CompletedCall P) :
    CompanyNode (h ++ [call]) (some (store ["details"] (newPost call.position call.salary)
      (some (store (childPath call.position) (locationNode P call.location) t)))) where
  nodup := by
    rw [children_some, children_store_cons]
    exact nodup_keys_put _ _ (nodup_keys_storeLocation _ _ ht.nodup)
  details := by simp
  pins k hk := by
    rw [child_store_ne hk, pinOf_store, ht.pins k hk, pin_concat]

/-! ## The whole tree -/

/-- The posts of one company in a run. -/
def history (company : Uid) (run : List (CompletedCall P)) : List (CompletedCall P) :=
  run.filter fun call => call.company = company

theorem mem_history {company : Uid} {run : List (CompletedCall P)} {call : CompletedCall P} :
    call ∈ history company run ↔ call ∈ run ∧ call.company = company := by
  simp [history]

theorem history_concat_self (run : List (CompletedCall P)) (call : CompletedCall P) :
    history call.company (run ++ [call]) = history call.company run ++ [call] := by
  simp [history]

theorem history_concat_ne {company : Uid} {call : CompletedCall P} (h : company ≠ call.company)
    (run : List (CompletedCall P)) : history company (run ++ [call]) = history company run := by
  simp [history, Ne.symm h]

/-- The tree of a run: one node for each company that posted, as its history says. -/
structure JobsTree (run : List (CompletedCall P)) (db : Database C) : Prop where
  nodup : (keys (children (jobsNode db))).Nodup
  companies : ∀ k, k ∈ keys (children (jobsNode db)) ↔ ∃ call ∈ run, call.company.text = k
  node : ∀ company, CompanyNode (history company run) (companyNode db company)

/-- **The tree after a run of completed calls** is that of the run. -/
theorem jobsTree_runCalls (run : List (CompletedCall P)) : JobsTree run (runCalls run) := by
  induction run using List.reverseRecOn with
  | nil => exact ⟨List.nodup_nil, by simp [runCalls, jobsNode], fun _ => CompanyNode.empty⟩
  | append_singleton run call ih =>
    rw [runCalls_concat]
    refine ⟨?_, ?_, ?_⟩
    · exact nodup_keys_jobsNode_apply _ _ _ (nodup_keys_jobsNode_apply _ _ _ ih.nodup)
    · intro k
      rw [CompletedCall.apply, CompletedCall.detailsPart, detailsWrite,
        mem_keys_jobsNode_apply, CompletedCall.locationPart, locationWrite,
        mem_keys_jobsNode_apply, ih.companies]
      simp only [List.mem_append, List.mem_singleton, or_and_right, exists_or, exists_eq_left]
      rw [@eq_comm _ k, ← or_assoc, or_self, or_comm]
    · intro company
      rw [CompletedCall.apply, CompletedCall.detailsPart, CompletedCall.locationPart]
      by_cases h : company = call.company
      · subst h
        rw [history_concat_self, detailsWrite, companyNode_apply_self, locationWrite,
          companyNode_apply_self]
        exact (ih.node _).post call
      · rw [history_concat_ne h, detailsWrite, companyNode_apply_ne h, locationWrite,
          companyNode_apply_ne h]
        exact ih.node company

/-! ## Reading a company's node in any order of its children -/

namespace CompanyNode

variable {h : List (CompletedCall P)} {n m : Node String (Value C)}

theorem nodup_of_reordered (hn : CompanyNode h (some n)) (hm : Reordered n m) :
    (keys m.children).Nodup :=
  ((hm.children_perm.map Prod.fst).nodup_iff).1 hn.nodup

/-- The title of the latest post is among the children … -/
theorem details_mem (hn : CompanyNode h (some n)) (hm : Reordered n m) {z : CompletedCall P}
    (hz : h.getLast? = some z) : ("details", newPost z.position z.salary) ∈ m.children := by
  have hd := hn.details
  rw [hz, Option.map_some] at hd
  exact hm.children_perm.mem_iff.1 (mem_of_lookup hd)

/-- … and the only one under its key. -/
theorem eq_newPost_of_mem (hn : CompanyNode h (some n)) (hm : Reordered n m)
    {z : CompletedCall P} (hz : h.getLast? = some z) {c : Node String (Value C)}
    (hc : ("details", c) ∈ m.children) : c = newPost z.position z.salary := by
  have hnd := hn.nodup_of_reordered hm
  have hd := lookup_of_mem hnd (hn.details_mem hm hz)
  rw [lookup_of_mem hnd hc] at hd
  exact Option.some.inj hd

/-- A child under another key is the pin of its key. -/
theorem pinOf_of_mem (hn : CompanyNode h (some n)) (hm : Reordered n m) {k : String}
    {c : Node String (Value C)} (hc : (k, c) ∈ m.children) (hk : k ≠ "details") :
    pinOf P (some c) = pin k h := by
  have hlook : child (some n) k = some c :=
    lookup_of_mem hn.nodup (hm.children_perm.mem_iff.2 hc)
  rw [← hn.pins k hk, hlook]

/-- A pin that is not absent is a child. -/
theorem exists_child (hn : CompanyNode h (some n)) (hm : Reordered n m) {k : String}
    (hk : k ≠ "details") (hp : pin k h ≠ .absent) : ∃ c, (k, c) ∈ m.children := by
  rw [← hn.pins k hk, Ne, pinOf_eq_absent] at hp
  obtain ⟨c, hc⟩ := Option.ne_none_iff_exists'.1 hp
  exact ⟨c, hm.children_perm.mem_iff.1 (mem_of_lookup hc)⟩

theorem detailsOf_newPost (position salary : String) :
    detailsOf P (newPost position salary) = .ok (position, salary) := rfl

/-- **When the readers get through a company's node**: none of its pins is broken. -/
theorem read_ok_iff (hn : CompanyNode h (some n)) (hm : Reordered n m) {z : CompletedCall P}
    (hz : h.getLast? = some z) :
    (∃ vars, readCompany P m = .ok vars) ↔ ∀ k, k ≠ "details" → pin k h ≠ .broken := by
  rw [readCompany_ok_iff]
  constructor
  · intro hall k hk hp
    have hpresent : pin k h ≠ .absent := by simp [hp]
    obtain ⟨c, hc⟩ := hn.exists_child hm hk hpresent
    have hout := hall _ hc
    rw [← hn.pinOf_of_mem hm hc hk, pinOf_eq_broken] at hp
    unfold childOutcome at hout
    rw [if_neg hk] at hout
    cases hl : locationOf P c with
    | error e => rw [hl] at hout; cases hout
    | ok location => exact hp location hl
  · rintro hall ⟨k, c⟩ hc
    unfold childOutcome
    by_cases hk : k = "details"
    · subst hk
      obtain rfl := hn.eq_newPost_of_mem hm hz hc
      rfl
    · rw [if_neg hk]
      have hp := hall k hk
      rw [← hn.pinOf_of_mem hm hc hk, Ne, pinOf_eq_broken] at hp
      push Not at hp
      obtain ⟨location, hl⟩ := hp
      rw [hl]
      rfl

/-- What is read is the title of the latest post … -/
theorem read_title (hn : CompanyNode h (some n)) (hm : Reordered n m) {z : CompletedCall P}
    (hz : h.getLast? = some z) {vars : JobVars C} (hv : readCompany P m = .ok vars) :
    vars.position = z.position ∧ vars.salary = z.salary := by
  have ht := readCompany_title P (hn.nodup_of_reordered hm) (hn.details_mem hm hz) hv
  rw [detailsOf_newPost, Except.ok.injEq, Prod.mk.injEq] at ht
  exact ⟨ht.1.symm, ht.2.symm⟩

/-- … and the coordinates of some pin, or the initial ones if the board is empty. -/
theorem read_location (hn : CompanyNode h (some n)) (hm : Reordered n m) {vars : JobVars C}
    (hv : readCompany P m = .ok vars) :
    (∃ k, k ≠ "details" ∧ pin k h = .placed vars.location) ∨
      ((∀ k, k ≠ "details" → pin k h = .absent) ∧ vars.location = ⟨P.zero, P.zero⟩) := by
  rcases readCompany_location P hv with ⟨⟨k, c⟩, hc, hk, hl⟩ | ⟨hall, hz⟩
  · refine Or.inl ⟨k, hk, ?_⟩
    rw [← hn.pinOf_of_mem hm hc hk, pinOf_eq_placed]
    exact hl
  · refine Or.inr ⟨?_, hz⟩
    intro k hk
    by_contra hp
    obtain ⟨c, hc⟩ := hn.exists_child hm hk hp
    exact hk (hall _ hc)

/-- Each pin is the one whose coordinates are read in some order of the children. -/
theorem exists_order (hn : CompanyNode h (some n)) {z : CompletedCall P}
    (hz : h.getLast? = some z) (hok : ∀ k, k ≠ "details" → pin k h ≠ .broken) {k : String}
    (hk : k ≠ "details") {location : GeoLocation C} (hp : pin k h = .placed location) :
    ∃ m vars, Reordered n m ∧ readCompany P m = .ok vars ∧ vars.location = location := by
  have hpresent : pin k h ≠ .absent := by simp [hp]
  obtain ⟨c, hc⟩ := hn.exists_child (.refl n) hk hpresent
  cases n with
  | leaf v => simp at hc
  | inner cs =>
    obtain ⟨pre, post, rfl⟩ := List.append_of_mem hc
    -- list the child of the pin last
    have hm : Reordered (.inner (pre ++ (k, c) :: post)) (.inner ((pre ++ post) ++ [(k, c)])) :=
      .inner (List.perm_middle.trans (List.perm_append_singleton _ _).symm)
    obtain ⟨vars, hv⟩ := (hn.read_ok_iff hm hz).2 hok
    refine ⟨_, vars, hm, hv, ?_⟩
    have hl := readCompany_last P hk hv
    rw [← hn.pinOf_of_mem (.refl _) hc hk, pinOf_eq_placed, hl] at hp
    cases hp
    rfl

end CompanyNode

end Partimer
