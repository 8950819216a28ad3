import Mathlib.Data.List.Nodup
import Mathlib.Data.List.Perm.Basic
import Mathlib.Data.List.Forall2

/-!
# Trees of keyed children

A store whose content is one tree: a node is a leaf holding a value, or an inner
node holding an association list from keys to nodes.  A node is addressed by the
list of keys that leads to it, and the only write replaces the whole subtree at
an address, turning every leaf on the way into an inner node.

* `put`, `lookup_put_self`, `lookup_put_ne`, `nodup_keys_put`, `put_put_put` — replacing
  one entry of an association list in place.
* `updates`, `updates_perm` — a sequence of replacements, each made of what stood
  under its key: only the order of those of one key matters.
* `fetch`, `store` — reading and replacing a subtree; `fetch_store_append` says what a
  write does above and at its own address, `child_store_ne` that it leaves the
  other children of the node it enters alone.
* `children_perm_of_child` — subtrees with the same children under every key.
* `prefix_or_diverge`, `store_store_append`, `store_store_store`, `store_pair_again` — how
  two addresses can lie, and what is left of a write after later ones.
* `Reordered` — the same node with its children listed in another order, and
  `Shuffled` — two levels of it: what a reader that iterates over the children of
  a node, and over their children, may be handed.
-/

namespace KeyTree

variable {K V : Type}

/-- A node of the tree: a value, or children by key. -/
inductive Node (K V : Type) where
  | leaf (value : V)
  | inner (children : List (K × Node K V))

/-- The subtree at an address; `none` when there is nothing there. -/
abbrev Tree (K V : Type) := Option (Node K V)

/-- The children of a node, in the order they are listed. -/
def Node.children : Node K V → List (K × Node K V)
  | .leaf _ => []
  | .inner cs => cs

/-- The children of a subtree; an absent one has none. -/
def children (t : Tree K V) : List (K × Node K V) :=
  match t with
  | none => []
  | some n => n.children

@[simp] theorem children_none : children (none : Tree K V) = [] := rfl

@[simp] theorem children_some (n : Node K V) : children (some n) = n.children := rfl

@[simp] theorem Node.children_inner (cs : List (K × Node K V)) :
    (Node.inner cs).children = cs := rfl

@[simp] theorem Node.children_leaf (v : V) : (Node.leaf v : Node K V).children = [] := rfl

/-- The keys of an association list. -/
abbrev keys {α : Type} (l : List (K × α)) : List K := l.map Prod.fst

variable [DecidableEq K]

/-! ## Association lists -/

section Put

variable {α : Type}

/-- Replace the entry of key `k` where it stands, or append one. -/
def put (k : K) (a : α) : List (K × α) → List (K × α)
  | [] => [(k, a)]
  | e :: l => if e.1 = k then (k, a) :: l else e :: put k a l

@[simp] theorem lookup_put_self (k : K) (a : α) (l : List (K × α)) :
    (put k a l).lookup k = some a := by
  induction l with
  | nil => simp [put]
  | cons e l ih =>
    obtain ⟨k₀, a₀⟩ := e
    by_cases h : k₀ = k
    · simp [put, h]
    · have hk : (k == k₀) = false := by simpa using Ne.symm h
      simp [put, h, List.lookup_cons, hk, ih]

/-- The second of two replacements of one entry is the one that counts. -/
theorem put_put_self (k : K) (a b : α) (l : List (K × α)) : put k b (put k a l) = put k b l := by
  induction l with
  | nil => simp [put]
  | cons e l ih =>
    by_cases h : e.1 = k
    · simp [put, h]
    · simp [put, h, ih]

/-- An entry replaced before and after that of another key might as well be replaced
once, before it. -/
theorem put_put_put {k k' : K} (h : k' ≠ k) (a b c : α) (l : List (K × α)) :
    put k b (put k' c (put k a l)) = put k' c (put k b l) := by
  induction l with
  | nil => simp [put, Ne.symm h]
  | cons e l ih =>
    by_cases he : e.1 = k
    · simp [put, he, Ne.symm h]
    · by_cases he' : e.1 = k'
      · simp [put, he', h, put_put_self]
      · simp [put, he, he', ih]

theorem lookup_put_ne {k k' : K} (h : k' ≠ k) (a : α) (l : List (K × α)) :
    (put k a l).lookup k' = l.lookup k' := by
  have hk : (k' == k) = false := by simpa using h
  induction l with
  | nil => simp [put, List.lookup_cons, hk]
  | cons e l ih =>
    obtain ⟨k₀, a₀⟩ := e
    by_cases he : k₀ = k
    · subst he
      simp [put, List.lookup_cons, hk]
    · by_cases hk' : k' = k₀
      · subst hk'
        simp [put, h]
      · have hb : (k' == k₀) = false := by simpa using hk'
        simp [put, he, List.lookup_cons, hb, ih]

theorem mem_keys_put {k k' : K} {a : α} {l : List (K × α)} :
    k' ∈ keys (put k a l) ↔ k' = k ∨ k' ∈ keys l := by
  induction l with
  | nil => simp [put]
  | cons e l ih =>
    by_cases h : e.1 = k
    · simp [put, h]
    · simp only [put, if_neg h, List.map_cons, List.mem_cons, ih]
      tauto

/-- An association list with distinct keys keeps them distinct. -/
theorem nodup_keys_put (k : K) (a : α) {l : List (K × α)} (h : (keys l).Nodup) :
    (keys (put k a l)).Nodup := by
  induction l with
  | nil => simp [put]
  | cons e l ih =>
    simp only [List.map_cons, List.nodup_cons] at h
    by_cases he : e.1 = k
    · subst he
      simpa [put] using h
    · simp only [put, if_neg he, List.map_cons, List.nodup_cons]
      refine ⟨?_, ih h.2⟩
      intro hmem
      rcases mem_keys_put.1 hmem with heq | hl
      · exact he heq
      · exact h.1 hl

/-- With distinct keys, an entry is found under its own key. -/
theorem lookup_of_mem {l : List (K × α)} (h : (keys l).Nodup) {e : K × α} (he : e ∈ l) :
    l.lookup e.1 = some e.2 := by
  induction l with
  | nil => simp at he
  | cons x l ih =>
    obtain ⟨k₀, a₀⟩ := x
    simp only [List.map_cons, List.nodup_cons] at h
    rcases List.mem_cons.1 he with rfl | hl
    · simp
    · have hne : e.1 ≠ k₀ := fun heq => h.1 (heq ▸ List.mem_map_of_mem hl)
      have hb : (e.1 == k₀) = false := by simpa using hne
      simpa [List.lookup_cons, hb] using ih h.2 hl

omit [DecidableEq K] in
/-- With distinct keys, the key of an entry occurs neither before nor after it. -/
theorem not_mem_keys_of_split {pre post : List (K × α)} {k : K} {a : α}
    (h : (keys (pre ++ (k, a) :: post)).Nodup) : k ∉ keys pre ∧ k ∉ keys post := by
  simp only [keys, List.map_append, List.map_cons, List.nodup_append, List.nodup_cons,
    List.mem_cons] at h
  exact ⟨fun hk => h.2.2 k hk k (Or.inl rfl) rfl, h.2.1.1⟩

/-- Entries of a list that have all of its keys are the list, in another order. -/
theorem perm_of_keys {cs ms : List (K × α)} (hcs : (keys cs).Nodup) (hms : (keys ms).Nodup)
    (hsub : ∀ x ∈ ms, x ∈ cs) (hkeys : ∀ k ∈ keys cs, k ∈ keys ms) : cs.Perm ms := by
  rw [List.perm_ext_iff_of_nodup hcs.of_map hms.of_map]
  refine fun x => ⟨fun hx => ?_, hsub x⟩
  obtain ⟨y, hy, hk⟩ := List.mem_map.1 (hkeys x.1 (List.mem_map_of_mem hx))
  have hlook := lookup_of_mem hcs (hsub y hy)
  rw [hk, lookup_of_mem hcs hx] at hlook
  obtain rfl : x = y := Prod.ext hk.symm (Option.some.inj hlook)
  exact hy

theorem mem_of_lookup {l : List (K × α)} {k : K} {a : α} (h : l.lookup k = some a) :
    (k, a) ∈ l := by
  obtain ⟨l₁, l₂, rfl, -⟩ := List.lookup_eq_some_iff.1 h
  simp

/-! ### Updates in any order -/

/-- Replace the entry of key `k` by what `f` makes of it. -/
def update (k : K) (f : Option α → α) (l : List (K × α)) : List (K × α) :=
  put k (f (l.lookup k)) l

/-- A sequence of updates, the first one first. -/
def updates (us : List (K × (Option α → α))) (l : List (K × α)) : List (K × α) :=
  us.foldl (fun l u => update u.1 u.2 l) l

@[simp] theorem updates_nil (l : List (K × α)) : updates [] l = l := rfl

@[simp] theorem updates_cons (u : K × (Option α → α)) (us : List (K × (Option α → α)))
    (l : List (K × α)) : updates (u :: us) l = updates us (update u.1 u.2 l) := rfl

/-- The entries under one key. -/
def under (k : K) (l : List (K × α)) : List (K × α) := l.filter fun e => e.1 = k

theorem lookup_under (k : K) (l : List (K × α)) : (under k l).lookup k = l.lookup k := by
  induction l with
  | nil => rfl
  | cons e l ih =>
    obtain ⟨k₀, a₀⟩ := e
    by_cases h : k₀ = k
    · subst h
      simp [under]
    · have hk : (k == k₀) = false := by simpa using Ne.symm h
      have hskip : under k ((k₀, a₀) :: l) = under k l := by simp [under, h]
      rw [hskip, ih, List.lookup_cons, hk]

theorem under_put_self (k : K) (a : α) (l : List (K × α)) :
    under k (put k a l) = put k a (under k l) := by
  induction l with
  | nil => simp [under, put]
  | cons e l ih =>
    unfold under at ih ⊢
    by_cases h : e.1 = k
    · simp [put, h]
    · simp [put, h, ih]

theorem under_put_ne {k k' : K} (h : k' ≠ k) (a : α) (l : List (K × α)) :
    under k' (put k a l) = under k' l := by
  induction l with
  | nil => simp [under, put, Ne.symm h]
  | cons e l ih =>
    unfold under at ih ⊢
    by_cases he : e.1 = k
    · have hne : e.1 ≠ k' := fun heq => h (heq.symm.trans he)
      simp [put, he, Ne.symm h]
    · simp [put, he, List.filter_cons, ih]

/-- What becomes of one key depends on the updates of that key alone. -/
theorem under_updates (k : K) (us : List (K × (Option α → α))) (l : List (K × α)) :
    under k (updates us l) = updates (us.filter fun u => u.1 = k) (under k l) := by
  induction us generalizing l with
  | nil => rfl
  | cons u us ih =>
    rw [updates_cons, ih]
    by_cases h : u.1 = k
    · subst h
      simp [update, under_put_self, lookup_under]
    · simp [h, update, under_put_ne (Ne.symm h)]

/-- Two lists with the same entries under every key differ in order only. -/
theorem perm_of_under {l l' : List (K × α)} (h : ∀ k, under k l = under k l') : l.Perm l' := by
  classical
  rw [List.perm_iff_count]
  intro e
  have hcount : ∀ l : List (K × α), (under e.1 l).count e = l.count e :=
    fun l => List.count_filter (by simp)
  rw [← hcount l, ← hcount l', h e.1]

/-- **Updates of different keys are independent.**  Two sequences with the same updates
of each key, in the same order, end in the same entries. -/
theorem updates_perm {us us' : List (K × (Option α → α))}
    (h : ∀ k, (us.filter fun u => u.1 = k) = us'.filter fun u => u.1 = k)
    (l : List (K × α)) : (updates us l).Perm (updates us' l) := by
  refine perm_of_under ?_
  intro k
  rw [under_updates, under_updates, h k]

end Put

/-! ## Reading and writing a subtree -/

/-- The child of a subtree under a key. -/
def child (t : Tree K V) (k : K) : Tree K V := (children t).lookup k

@[simp] theorem child_none (k : K) : child (none : Tree K V) k = none := rfl

/-- The subtree at an address. -/
def fetch (t : Tree K V) : List K → Tree K V
  | [] => t
  | k :: ks => fetch (child t k) ks

@[simp] theorem fetch_cons (t : Tree K V) (k : K) (ks : List K) :
    fetch t (k :: ks) = fetch (child t k) ks := rfl

@[simp] theorem fetch_none (ks : List K) : fetch (none : Tree K V) ks = none := by
  induction ks with
  | nil => rfl
  | cons k ks ih => simpa using ih

/-- Replace the subtree at an address by the node `v`. -/
def store : List K → Node K V → Tree K V → Node K V
  | [], v, _ => v
  | k :: ks, v, t => .inner (put k (store ks v (child t k)) (children t))

@[simp] theorem store_nil (v : Node K V) (t : Tree K V) : store [] v t = v := rfl

theorem children_store_cons (k : K) (ks : List K) (v : Node K V) (t : Tree K V) :
    (store (k :: ks) v t).children = put k (store ks v (child t k)) (children t) := rfl

@[simp] theorem child_store_self (k : K) (ks : List K) (v : Node K V) (t : Tree K V) :
    child (some (store (k :: ks) v t)) k = some (store ks v (child t k)) := by
  simp [child, children_store_cons]

/-- **The frame of a write.**  Only the child the address enters is changed. -/
theorem child_store_ne {k k' : K} (h : k' ≠ k) (ks : List K) (v : Node K V) (t : Tree K V) :
    child (some (store (k :: ks) v t)) k' = child t k' := by
  simp only [child, children_some, children_store_cons]
  exact lookup_put_ne h _ _

/-- What stands at a prefix of the address after a write: the old subtree with
the rest of the address written. -/
theorem fetch_store_append (p q : List K) (v : Node K V) (t : Tree K V) :
    fetch (some (store (p ++ q) v t)) p = some (store q v (fetch t p)) := by
  induction p generalizing t with
  | nil => rfl
  | cons k p ih => simp [ih]

/-- Two subtrees that list no key twice and have the same children under each have the same
children, in some order. -/
theorem children_perm_of_child {t u : Tree K V} (ht : (keys (children t)).Nodup)
    (hu : (keys (children u)).Nodup) (h : ∀ k, child t k = child u k) :
    (children t).Perm (children u) := by
  refine perm_of_keys ht hu ?_ ?_
  · intro x hx
    exact mem_of_lookup ((h x.1).trans (lookup_of_mem hu hx))
  · intro k hk
    obtain ⟨x, hx, rfl⟩ := List.mem_map.1 hk
    have hchild : child u x.1 = some x.2 := (h x.1).symm.trans (lookup_of_mem ht hx)
    exact List.mem_map.2 ⟨_, mem_of_lookup hchild, rfl⟩

/-- Two addresses that part ways: neither lies on the way to the other. -/
inductive Diverge : List K → List K → Prop
  | here {k k' : K} (h : k' ≠ k) (p q : List K) : Diverge (k :: p) (k' :: q)
  | there (k : K) {p q : List K} (h : Diverge p q) : Diverge (k :: p) (k :: q)

omit [DecidableEq K] in
/-- What lies below an address parts ways where the address does. -/
theorem Diverge.append {p q : List K} (h : Diverge p q) (r : List K) : Diverge (p ++ r) q := by
  induction h with
  | here hne p q => exact .here hne (p ++ r) q
  | there k _ ih => exact .there k ih

omit [DecidableEq K] in
theorem Diverge.not_below {p q : List K} (h : Diverge p q) : ¬ q <+: p := by
  induction h with
  | here hne p q => exact fun hprefix => hne (List.cons_prefix_cons.1 hprefix).1
  | there k _ ih => exact fun hprefix => ih (List.cons_prefix_cons.1 hprefix).2

theorem fetch_store_of_diverge {p q : List K} (h : Diverge p q) (v : Node K V) (t : Tree K V) :
    fetch (some (store p v t)) q = fetch t q := by
  induction h generalizing t with
  | here hne p q => simp [child_store_ne hne]
  | there k _ ih => simp [ih]

/-- Of two addresses one leads to the other, or they part ways. -/
theorem prefix_or_diverge (p q : List K) : p <+: q ∨ q <+: p ∨ Diverge p q := by
  induction p generalizing q with
  | nil => exact Or.inl List.nil_prefix
  | cons k p ih =>
    cases q with
    | nil => exact Or.inr (Or.inl List.nil_prefix)
    | cons k' q =>
      by_cases hk : k' = k
      · subst hk
        simp only [List.prefix_cons_inj]
        rcases ih q with hp | hq | hd
        · exact Or.inl hp
        · exact Or.inr (Or.inl hq)
        · exact Or.inr (Or.inr (.there k' hd))
      · exact Or.inr (Or.inr (.here hk p q))

/-! ### Writes over writes -/

/-- A write swallows an earlier one at its own address or below. -/
theorem store_store_append (p q : List K) (v w : Node K V) (t : Tree K V) :
    store p v (some (store (p ++ q) w t)) = store p v t := by
  induction p generalizing t with
  | nil => rfl
  | cons k p ih =>
    have hinner : store p v (some (store (p ++ q) w (child t k))) = store p v (child t k) :=
      ih _
    show Node.inner (put k (store p v (child (some (store (k :: (p ++ q)) w t)) k))
      (put k (store (p ++ q) w (child t k)) (children t))) = _
    rw [child_store_self, hinner, put_put_self]
    rfl

/-- Where two addresses part ways, a write before and after one at the other address
might as well be made once, before it. -/
theorem store_store_store {p q : List K} (h : Diverge p q) (v v' w : Node K V) (t : Tree K V) :
    store p v' (some (store q w (some (store p v t)))) =
      store q w (some (store p v' t)) := by
  induction h generalizing t with
  | @here k k' hne p q =>
    have hsame : ∀ v, child (some (store (k :: p) v t)) k' = child t k' :=
      fun v => child_store_ne hne p v t
    have hother : child (some (store (k' :: q) w (some (store (k :: p) v t)))) k =
        some (store p v (child t k)) := by
      rw [child_store_ne hne.symm, child_store_self]
    have hself : store p v' (some (store p v (child t k))) = store p v' (child t k) := by
      simpa using store_store_append p [] v' v (child t k)
    show Node.inner (put k (store p v' (child (some (store (k' :: q) w _)) k))
      (put k' (store q w (child (some (store (k :: p) v t)) k'))
        (put k (store p v (child t k)) (children t)))) =
      Node.inner (put k' (store q w (child (some (store (k :: p) v' t)) k'))
        (put k (store p v' (child t k)) (children t)))
    rw [hother, hself, hsame, hsame, put_put_put hne]
  | there k _ ih =>
    show Node.inner (put k (store _ v' (child (some (store (k :: _) w _)) k))
      (put k (store _ w (child (some (store (k :: _) v t)) k))
        (put k (store _ v (child t k)) (children t)))) =
      Node.inner (put k (store _ w (child (some (store (k :: _) v' t)) k))
        (put k (store _ v' (child t k)) (children t)))
    simp only [child_store_self, ih, put_put_self]

/-- **Two writes made again.**  Whatever the two addresses, and whatever stood there,
nothing is left of the first round once both have been written again. -/
theorem store_pair_again (p q : List K) (v v' w w' : Node K V) (t : Tree K V) :
    store q w' (some (store p v' (some (store q w (some (store p v t)))))) =
      store q w' (some (store p v' t)) := by
  have hself : ∀ (p : List K) (v w : Node K V) (t : Tree K V),
      store p v (some (store p w t)) = store p v t := by
    intro p v w t
    simpa using store_store_append p [] v w t
  rcases prefix_or_diverge p q with ⟨r, rfl⟩ | ⟨r, rfl⟩ | hd
  · -- the second address is at or below the first, whose write comes first
    rw [store_store_append p r v' w, hself]
  · -- the first is at or below the second, whose write comes last
    calc store q w' (some (store (q ++ r) v' (some (store q w (some (store (q ++ r) v t))))))
        = store q w' (some (store q w (some (store (q ++ r) v t)))) := store_store_append ..
      _ = store q w' (some (store (q ++ r) v t)) := hself ..
      _ = store q w' t := store_store_append ..
      _ = store q w' (some (store (q ++ r) v' t)) := (store_store_append ..).symm
  · rw [store_store_store hd, hself]

/-! ## Iteration orders -/

omit [DecidableEq K]

/-- The same node, its children listed in another order. -/
inductive Reordered : Node K V → Node K V → Prop
  | leaf (v : V) : Reordered (.leaf v) (.leaf v)
  | inner {cs ds : List (K × Node K V)} (h : cs.Perm ds) : Reordered (.inner cs) (.inner ds)

theorem Reordered.refl (n : Node K V) : Reordered n n := by
  cases n with
  | leaf v => exact .leaf v
  | inner cs => exact .inner (.refl cs)

theorem Reordered.children_perm {n m : Node K V} (h : Reordered n m) :
    n.children.Perm m.children := by
  cases h with
  | leaf v => exact .refl _
  | inner h => exact h

/-- The entries of a list of children in another order, each child again with its
own children in another order. -/
def Shuffled (cs ds : List (K × Node K V)) : Prop :=
  ∃ ms, cs.Perm ms ∧ List.Forall₂ (fun a b => a.1 = b.1 ∧ Reordered a.2 b.2) ms ds

theorem Shuffled.refl (cs : List (K × Node K V)) : Shuffled cs cs :=
  ⟨cs, .refl cs, List.forall₂_same.2 fun x _ => ⟨rfl, .refl x.2⟩⟩

/-- An entry of the shuffled list comes from one of the original … -/
theorem Shuffled.exists_of_mem {cs ds : List (K × Node K V)} (h : Shuffled cs ds)
    {k : K} {m : Node K V} (hm : (k, m) ∈ ds) : ∃ n, (k, n) ∈ cs ∧ Reordered n m := by
  obtain ⟨ms, hperm, hall⟩ := h
  obtain ⟨i, hi, hget⟩ := List.getElem_of_mem hm
  have hi' : i < ms.length := hall.length_eq ▸ hi
  obtain ⟨hk, hr⟩ := hall.get hi' hi
  simp only [List.get_eq_getElem, hget] at hk hr
  refine ⟨ms[i].2, hperm.mem_iff.2 ?_, hr⟩
  rw [← hk]
  exact List.getElem_mem hi'

/-- … and each of the original is there. -/
theorem Shuffled.exists_of_mem_left {cs ds : List (K × Node K V)} (h : Shuffled cs ds)
    {k : K} {n : Node K V} (hn : (k, n) ∈ cs) : ∃ m, (k, m) ∈ ds ∧ Reordered n m := by
  obtain ⟨ms, hperm, hall⟩ := h
  obtain ⟨i, hi, hget⟩ := List.getElem_of_mem (hperm.mem_iff.1 hn)
  have hi' : i < ds.length := hall.length_eq ▸ hi
  obtain ⟨hk, hr⟩ := hall.get hi hi'
  simp only [List.get_eq_getElem, hget] at hk hr
  refine ⟨ds[i].2, ?_, hr⟩
  rw [hk]
  exact List.getElem_mem hi'

/-- The keys are the same, in some order. -/
theorem Shuffled.keys_perm {cs ds : List (K × Node K V)} (h : Shuffled cs ds) :
    (keys cs).Perm (keys ds) := by
  obtain ⟨ms, hperm, hall⟩ := h
  have hkeys : keys ms = keys ds := by
    rw [← List.forall₂_eq_eq_eq, keys, keys, List.forall₂_map_left_iff,
      List.forall₂_map_right_iff]
    exact hall.imp fun _ _ hsame => hsame.1
  rw [← hkeys]
  exact hperm.map _

/-- Any entry can come first, with its children in any order. -/
theorem Shuffled.exists_first {cs : List (K × Node K V)} {k : K} {n m : Node K V}
    (hn : (k, n) ∈ cs) (hm : Reordered n m) : ∃ rest, Shuffled cs ((k, m) :: rest) := by
  obtain ⟨pre, post, rfl⟩ := List.append_of_mem hn
  refine ⟨pre ++ post, (k, n) :: (pre ++ post), List.perm_middle, .cons ⟨rfl, hm⟩ ?_⟩
  exact List.forall₂_same.2 fun x _ => ⟨rfl, .refl _⟩

end KeyTree
