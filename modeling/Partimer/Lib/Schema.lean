import Partimer.Lib.KeyTree

/-!
# Trees of a given form

What may stand where in a tree of keyed children: a value of some kind, a record with a
fixed set of fields, a folder whose entries all have their form by their key, or a part of
the tree that is left free.

* `Distinct`, `Distinct.store` — no node lists a key twice, and writes keep it so.
* `Schema`, `Schema.Conforms`, `Schema.Holds` — the forms, the nodes that have them, and
  the trees that are absent or do.
* `Schema.sub`, `Schema.Holds.fetch` — what stands at an address has its form.
* `Schema.Enters`, `Schema.Holds.store` — **a write keeps the form of the tree** if it passes
  through folders under keys they admit, and brings a node of the form at its address.
* `Schema.Holds.distinct` — a tree of any form lists no key twice.
-/

namespace KeyTree

variable {K V : Type} [DecidableEq K]

/-! ## Distinct keys everywhere -/

/-- No node of the tree lists a key twice. -/
def Distinct (t : Tree K V) : Prop := ∀ p, (keys (children (fetch t p))).Nodup

theorem distinct_none : Distinct (none : Tree K V) := by
  intro p
  rw [fetch_none]
  exact List.nodup_nil

theorem Distinct.child {t : Tree K V} (h : Distinct t) (k : K) : Distinct (child t k) :=
  fun p => h (k :: p)

theorem Distinct.fetch {t : Tree K V} (h : Distinct t) (p : List K) : Distinct (fetch t p) := by
  induction p generalizing t with
  | nil => exact h
  | cons k p ih => exact ih (h.child k)

/-- A node whose own keys are distinct, and whose children have distinct keys, is all right. -/
theorem distinct_of_children {t : Tree K V} (hkeys : (keys (children t)).Nodup)
    (hchildren : ∀ k, Distinct (KeyTree.child t k)) : Distinct t := by
  intro p
  cases p with
  | nil => exact hkeys
  | cons k p => exact hchildren k p

theorem distinct_leaf (v : V) : Distinct (some (.leaf v : Node K V)) := by
  refine distinct_of_children List.nodup_nil ?_
  intro k
  exact distinct_none

/-- **A write keeps the keys distinct** if it brings a node whose keys are. -/
theorem Distinct.store {t : Tree K V} (h : Distinct t) (p : List K) {v : Node K V}
    (hv : Distinct (some v)) : Distinct (some (KeyTree.store p v t)) := by
  induction p generalizing t with
  | nil => exact hv
  | cons k p ih =>
    refine distinct_of_children ?_ ?_
    · rw [children_some, children_store_cons]
      exact nodup_keys_put _ _ (h [])
    · intro k'
      by_cases hk : k' = k
      · subst hk
        rw [child_store_self]
        exact ih (h.child k')
      · rw [child_store_ne hk]
        exact h.child k'

/-! ## Forms -/

/-- The form of a node. -/
inductive Schema (K V : Type) where
  /-- A value of a kind. -/
  | leaf (kind : V → Prop)
  /-- The given fields, each of its own form; a record is written as a whole. -/
  | record (fields : List K) (entry : K → Schema K V)
  /-- Any number of entries under admitted keys, each of the form of its key. -/
  | folder (admits : K → Prop) (entry : K → Schema K V)
  /-- Anything that lists no key twice. -/
  | free

namespace Schema

/-- A node of the form. -/
def Conforms : Schema K V → Node K V → Prop
  | .leaf kind, n => ∃ v, n = .leaf v ∧ kind v
  | .record fields entry, n => ∃ cs, n = .inner cs ∧ (keys cs).Nodup ∧
      (keys cs).Perm fields ∧ ∀ e ∈ cs, (entry e.1).Conforms e.2
  | .folder admits entry, n => ∃ cs, n = .inner cs ∧ (keys cs).Nodup ∧
      ∀ e ∈ cs, admits e.1 ∧ (entry e.1).Conforms e.2
  | .free, n => Distinct (some n)

/-- The tree is absent, or of the form. -/
def Holds (S : Schema K V) (t : Tree K V) : Prop := ∀ n, t = some n → S.Conforms n

theorem holds_none (S : Schema K V) : S.Holds none := nofun

@[simp] theorem holds_some {S : Schema K V} {n : Node K V} : S.Holds (some n) ↔ S.Conforms n := by
  simp [Holds]

/-- The form of what stands under a key; below a value there is nothing. -/
def entry : Schema K V → K → Schema K V
  | .leaf _, _ => .leaf fun _ => False
  | .record _ entry, k => entry k
  | .folder _ entry, k => entry k
  | .free, _ => .free

/-- The form of what stands at an address. -/
def sub (S : Schema K V) : List K → Schema K V
  | [] => S
  | k :: ks => (S.entry k).sub ks

/-- A write may pass through the node under a key: folders ask for a key that they admit,
values and records are written as a whole. -/
def Admits : Schema K V → K → Prop
  | .leaf _, _ => False
  | .record _ _, _ => False
  | .folder admits _, k => admits k
  | .free, _ => True

/-- A write may go to the address. -/
def Enters (S : Schema K V) : List K → Prop
  | [] => True
  | k :: ks => S.Admits k ∧ (S.entry k).Enters ks

variable {S : Schema K V} {t : Tree K V}

/-! ## Reading -/

theorem Holds.child (h : S.Holds t) (k : K) : (S.entry k).Holds (KeyTree.child t k) := by
  cases t with
  | none => exact holds_none _
  | some n =>
    intro m hm
    have hn := h n rfl
    have hmem : (k, m) ∈ n.children := mem_of_lookup hm
    cases S with
    | leaf kind =>
      obtain ⟨v, rfl, -⟩ := hn
      cases hmem
    | record fields entry =>
      obtain ⟨cs, rfl, -, -, hcs⟩ := hn
      exact hcs _ hmem
    | folder admits entry =>
      obtain ⟨cs, rfl, -, hcs⟩ := hn
      exact (hcs _ hmem).2
    | free =>
      have hdistinct := Distinct.child hn k
      rwa [hm] at hdistinct

/-- **Reading.**  What stands at an address has the form that belongs there. -/
theorem Holds.fetch (h : S.Holds t) (p : List K) : (S.sub p).Holds (KeyTree.fetch t p) := by
  induction p generalizing S t with
  | nil => exact h
  | cons k p ih => exact ih (h.child k)

/-- A folder holds nothing under a key that it does not admit. -/
theorem Holds.child_eq_none {admits : K → Prop} {entry : K → Schema K V}
    (h : (folder admits entry).Holds t) {k : K} (hk : ¬ admits k) : KeyTree.child t k = none := by
  cases t with
  | none => rfl
  | some n =>
    obtain ⟨cs, rfl, -, hcs⟩ := h n rfl
    cases hm : KeyTree.child (some (.inner cs)) k with
    | none => rfl
    | some m =>
      have hmem : (k, m) ∈ cs := mem_of_lookup hm
      exact absurd (hcs _ hmem).1 hk

/-- A record has each of its fields. -/
theorem Conforms.exists_field {fields : List K} {entry : K → Schema K V} {n : Node K V}
    (h : (record fields entry).Conforms n) {k : K} (hk : k ∈ fields) :
    ∃ m, KeyTree.child (some n) k = some m ∧ (entry k).Conforms m := by
  obtain ⟨cs, rfl, hnodup, hperm, hcs⟩ := h
  obtain ⟨e, he, rfl⟩ := List.mem_map.1 (hperm.mem_iff.2 hk)
  exact ⟨e.2, lookup_of_mem hnodup he, hcs e he⟩

/-! ## Writing -/

omit [DecidableEq K] in
/-- What is left free is so all the way down. -/
theorem sub_free (p : List K) : (free : Schema K V).sub p = free := by
  induction p with
  | nil => rfl
  | cons k p ih => exact ih

/-- An entry is put where its form is admitted. -/
theorem forall_mem_put {P : K × Node K V → Prop} {k : K} {n : Node K V}
    {l : List (K × Node K V)} (hl : ∀ e ∈ l, P e) (hn : P (k, n)) : ∀ e ∈ put k n l, P e := by
  induction l with
  | nil => simpa [put] using hn
  | cons x l ih =>
    rw [List.forall_mem_cons] at hl
    by_cases hx : x.1 = k
    · rw [put, if_pos hx, List.forall_mem_cons]
      exact ⟨hn, hl.2⟩
    · rw [put, if_neg hx, List.forall_mem_cons]
      exact ⟨hl.1, ih hl.2⟩

/-- **Writing.**  A node of the form that belongs at an address, written there, leaves a
tree of its form. -/
theorem Holds.store (h : S.Holds t) {p : List K} (hp : S.Enters p) {v : Node K V}
    (hv : (S.sub p).Conforms v) : S.Conforms (KeyTree.store p v t) := by
  induction p generalizing S t with
  | nil => exact hv
  | cons k p ih =>
    have hentry := ih (h.child k) hp.2 hv
    cases S with
    | leaf kind => exact absurd hp.1 id
    | record fields entry => exact absurd hp.1 id
    | folder admits entry =>
      refine ⟨_, rfl, ?_, ?_⟩
      · refine nodup_keys_put _ _ ?_
        cases t with
        | none => exact List.nodup_nil
        | some n =>
          obtain ⟨cs, rfl, hnodup, -⟩ := h n rfl
          exact hnodup
      · refine forall_mem_put ?_ ⟨hp.1, hentry⟩
        cases t with
        | none => exact nofun
        | some n =>
          obtain ⟨cs, rfl, -, hcs⟩ := h n rfl
          exact hcs
    | free =>
      have hdistinct : Distinct t := by
        cases t with
        | none => exact distinct_none
        | some n => exact h n rfl
      rw [sub_free] at hv
      exact hdistinct.store (k :: p) hv

/-! ## Distinct keys -/

/-- **A tree of a form lists no key twice**, however deep. -/
theorem Conforms.distinct {n : Node K V} (h : S.Conforms n) : Distinct (some n) := by
  induction S generalizing n with
  | leaf kind =>
    obtain ⟨v, rfl, -⟩ := h
    exact distinct_leaf v
  | record fields entry ih =>
    obtain ⟨cs, rfl, hnodup, -, hcs⟩ := h
    refine distinct_of_children hnodup ?_
    intro k
    cases hm : KeyTree.child (some (.inner cs)) k with
    | none => exact distinct_none
    | some m => exact ih k (hcs (k, m) (mem_of_lookup hm))
  | folder admits entry ih =>
    obtain ⟨cs, rfl, hnodup, hcs⟩ := h
    refine distinct_of_children hnodup ?_
    intro k
    cases hm : KeyTree.child (some (.inner cs)) k with
    | none => exact distinct_none
    | some m => exact ih k (hcs (k, m) (mem_of_lookup hm)).2
  | free => exact h

theorem Holds.distinct (h : S.Holds t) : Distinct t := by
  cases t with
  | none => exact distinct_none
  | some n => exact (h n rfl).distinct

end Schema

end KeyTree
