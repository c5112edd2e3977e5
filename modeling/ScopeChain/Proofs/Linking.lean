/-
  ScopeChain.Proofs.Linking
  ─────────────────────────
  **HOW THE NODES OF A REACHABLE STORE HANG TOGETHER.**

  Nothing in a node says that its cached outermost scope is where its parent
  links end, or that parent links end at all.  Both hold in every reachable
  store, and they rest on a third fact that is kept without a word of it in the
  code: NODES AT ONE SCOPE HAVE ONE PARENT.  Entering makes a second node at
  the old scope with the old parent; leaving brings a node back to a scope
  together with the parent of a node that is there already.

      Linked                 — the invariant
      Linked.chain_path      — the budget of `Store.chain` suffices
      Linked.scopes_nodup    — a chain meets no scope twice
      Linked.scope_top       — the last scope of a chain is the cached one
      PlacesEffect           — what a change does to the places of nodes
      SamePlaces             — two stores whose nodes are in the same places
      Reachable.linked       — the invariant holds in every reachable store
-/
import Mathlib.Data.List.Perm.Subperm
import ScopeChain.Proofs.Paths
import ScopeChain.Proofs.Runs

namespace ScopeChain

namespace Store

/-! ## §1. The invariant. -/

/-- Parent links end, they and scopes lead to what there is, the outermost scope
is handed down along them, and the scope of a node settles its parent. -/
structure Linked (s : Store) : Prop where
  exists_path : ∀ {n}, n < s.nodes.length → ∃ l, s.Path n l
  parent_lt : ∀ {n p}, n < s.nodes.length → (s.node n).parent = some p → p < s.nodes.length
  scope_lt : ∀ {n}, n < s.nodes.length → (s.node n).scope < s.scopes.length
  root_of_top : ∀ {n}, n < s.nodes.length → (s.node n).parent = none →
    (s.node n).scope = (s.node n).root
  root_of_link : ∀ {n p}, n < s.nodes.length → (s.node n).parent = some p →
    (s.node p).root = (s.node n).root
  same_parent : ∀ {n m}, n < s.nodes.length → m < s.nodes.length →
    (s.node n).scope = (s.node m).scope → (s.node n).parent = (s.node m).parent

theorem enclosing_of_parent {s : Store} {n p : NodeId} (hp : (s.node n).parent = some p) :
    s.enclosing n = s.chain p := by
  simp only [enclosing, hp]

theorem enclosing_of_top {s : Store} {n : NodeId} (hp : (s.node n).parent = none) :
    s.enclosing n = [] := by
  simp only [enclosing, hp]

namespace Linked

variable {s : Store} (h : s.Linked)
include h

/-- Whoever is met on the way outwards from a node of the store is a node of the
store. -/
theorem lt_of_mem {n : NodeId} {l : List NodeId} (hn : n < s.nodes.length)
    (path : s.Path n l) : ∀ m ∈ l, m < s.nodes.length := by
  induction path with
  | top => simpa using hn
  | link hsome _ ih =>
      intro m hm
      rcases List.mem_cons.mp hm with rfl | hm
      · exact hn
      · exact ih (h.parent_lt hn hsome) m hm

/-- A path is no longer than there are nodes. -/
theorem length_le {n : NodeId} {l : List NodeId} (hn : n < s.nodes.length)
    (path : s.Path n l) : l.length ≤ s.nodes.length := by
  -- a list without repetitions that lies within `range` is no longer than it
  have hsub : l ⊆ List.range s.nodes.length :=
    fun m hm => List.mem_range.mpr (h.lt_of_mem hn path m hm)
  have hperm := List.subperm_of_subset path.nodup hsub
  simpa using hperm.length_le

/-- The chain is the path. -/
theorem chain_eq {n : NodeId} {l : List NodeId} (hn : n < s.nodes.length)
    (path : s.Path n l) : s.chain n = l :=
  path.chainWithin_eq (h.length_le hn path)

/-- So `Store.chain`, which takes as many steps as there are nodes, never stops
short of the top. -/
theorem chain_path {n : NodeId} (hn : n < s.nodes.length) : s.Path n (s.chain n) := by
  obtain ⟨l, path⟩ := h.exists_path hn
  rw [h.chain_eq hn path]
  exact path

/-- Where a node has a parent, its chain is the parent's with the node in front. -/
theorem chain_of_parent {n p : NodeId} (hn : n < s.nodes.length)
    (hp : (s.node n).parent = some p) : s.chain n = n :: s.chain p :=
  h.chain_eq hn (.link hp (h.chain_path (h.parent_lt hn hp)))

/-- A node without a parent is its own chain. -/
theorem chain_of_top {n : NodeId} (hn : n < s.nodes.length)
    (hp : (s.node n).parent = none) : s.chain n = [n] :=
  h.chain_eq hn (.top hp)

/-- In either case the chain is the node and what `Store.enclosing` gives. -/
theorem chain_eq_cons {n : NodeId} (hn : n < s.nodes.length) :
    s.chain n = n :: s.enclosing n := by
  unfold enclosing
  split
  next hp => exact h.chain_of_top hn hp
  next p hp => exact h.chain_of_parent hn hp

/-! ## §2. Scopes along a path. -/

/-- The cached outermost scope is the same for all nodes of a path. -/
theorem root_of_mem {n : NodeId} {l : List NodeId} (hn : n < s.nodes.length)
    (path : s.Path n l) : ∀ m ∈ l, (s.node m).root = (s.node n).root := by
  induction path with
  | top => simp
  | link hsome _ ih =>
      intro m hm
      rcases List.mem_cons.mp hm with rfl | hm
      · rfl
      · rw [ih (h.parent_lt hn hsome) m hm]
        exact h.root_of_link hn hsome

/-- The last scope of a path is the outermost one that the node has cached. -/
theorem scope_top {n top : NodeId} {inner : List NodeId} (hn : n < s.nodes.length)
    (path : s.Path n (inner ++ [top])) : (s.node top).scope = (s.node n).root := by
  have hmem : top ∈ inner ++ [top] := by simp
  have hend : (s.node top).parent = none := by
    cases path.suffix with
    | top hnone => exact hnone
    | link _ outer =>
        obtain ⟨rest, hrest⟩ := outer.eq_cons
        exact absurd hrest (by simp)
  rw [h.root_of_top (h.lt_of_mem hn path top hmem) hend]
  exact h.root_of_mem hn path top hmem

/-- The cached outermost scope is one that there is. -/
theorem root_lt {n : NodeId} (hn : n < s.nodes.length) : (s.node n).root < s.scopes.length := by
  have path := h.chain_path hn
  obtain ⟨inner, top, hl, -⟩ := path.exists_top
  rw [hl] at path
  rw [← h.scope_top hn path]
  exact h.scope_lt (h.lt_of_mem hn path top (by simp))

/-- Insertions go to scopes that there are. -/
theorem targetScope_lt {n : NodeId} (hn : n < s.nodes.length) (target : Target) :
    s.targetScope n target < s.scopes.length := by
  cases target with
  | current => exact h.scope_lt hn
  | outermost => exact h.root_lt hn

/-- **A chain meets no scope twice**: a second node at the first one's scope
would have the first one's parent, which lies before it. -/
theorem scopes_nodup {n : NodeId} {l : List NodeId} (hn : n < s.nodes.length)
    (path : s.Path n l) : (l.map fun m => (s.node m).scope).Nodup := by
  induction path with
  | top => simp
  | @link n p l hsome outer ih =>
      have hp : p < s.nodes.length := h.parent_lt hn hsome
      rw [List.map_cons, List.nodup_cons]
      refine ⟨?_, ih hp⟩
      intro hmem
      obtain ⟨m, hm, hscope⟩ := List.mem_map.mp hmem
      -- so the path of `p` would go on from `m` as it began
      have hparent : (s.node m).parent = some p := by
        rw [← hsome]
        exact h.same_parent (h.lt_of_mem hp outer m hm) hn hscope
      obtain ⟨a, b, rfl⟩ := List.append_of_mem hm
      have hagain : s.Path p b := outer.suffix.outer hparent
      have hlength := congrArg List.length (outer.unique hagain)
      simp only [List.length_cons, List.length_append] at hlength
      omega

/-- The scope of a node settles the chain outside it. -/
theorem enclosing_congr {n m : NodeId} (hn : n < s.nodes.length) (hm : m < s.nodes.length)
    (hscope : (s.node n).scope = (s.node m).scope) : s.enclosing n = s.enclosing m := by
  unfold enclosing
  rw [h.same_parent hn hm hscope]

/-- Nodes at one scope cache one outermost scope, for their chains go on in the same
way. -/
theorem root_congr {n m : NodeId} (hn : n < s.nodes.length) (hm : m < s.nodes.length)
    (hscope : (s.node n).scope = (s.node m).scope) : (s.node n).root = (s.node m).root := by
  have hparent := h.same_parent hn hm hscope
  cases hp : (s.node m).parent with
  | none => rw [← h.root_of_top hm hp, ← h.root_of_top hn (hparent.trans hp), hscope]
  | some p => rw [← h.root_of_link hm hp, h.root_of_link hn (hparent.trans hp)]

/-- A node has no parent exactly when it is at its outermost scope. -/
theorem parent_eq_none_iff {n : NodeId} (hn : n < s.nodes.length) :
    (s.node n).parent = none ↔ (s.node n).scope = (s.node n).root := by
  refine ⟨h.root_of_top hn, fun hroot => ?_⟩
  -- the node shares its scope with the end of its chain, hence also the end's lack of a parent
  have path := h.chain_path hn
  obtain ⟨inner, top, hl, htop⟩ := path.exists_top
  rw [hl] at path
  have hlt : top < s.nodes.length := h.lt_of_mem hn path top (by simp)
  rw [h.same_parent hn hlt (hroot.trans (h.scope_top hn path).symm)]
  exact htop

end Linked

/-! ## §3. Changes that move no node. -/

/-- Two stores with the same nodes at the same places; what is filed, the
policies, the key functions and the objects may differ. -/
structure SamePlaces (s t : Store) : Prop where
  nodes : t.nodes.length = s.nodes.length
  scopes : t.scopes.length = s.scopes.length
  scope : ∀ n, (t.node n).scope = (s.node n).scope
  parent : ∀ n, (t.node n).parent = (s.node n).parent
  root : ∀ n, (t.node n).root = (s.node n).root
  depth : ∀ n, (t.node n).depth = (s.node n).depth

theorem SamePlaces.refl (s : Store) : SamePlaces s s :=
  ⟨rfl, rfl, fun _ => rfl, fun _ => rfl, fun _ => rfl, fun _ => rfl⟩

/-- An insertion changes a scope and no node. -/
theorem samePlaces_file (s : Store) (scope : ScopeId) (key symbol : Value) :
    SamePlaces s (s.file scope key symbol) :=
  ⟨rfl, Arena.length_write _ _ _, fun _ => rfl, fun _ => rfl, fun _ => rfl, fun _ => rfl⟩

/-- An assignment changes an object and no node. -/
theorem samePlaces_assign (s : Store) (id : ObjectId) (attr : Attribute) (value : Value) :
    SamePlaces s (s.assign id attr value) :=
  ⟨rfl, rfl, fun _ => rfl, fun _ => rfl, fun _ => rfl, fun _ => rfl⟩

/-- A node that gets a new policy stays where it is. -/
theorem samePlaces_setPolicy (s : Store) {n : NodeId} (hn : n < s.nodes.length)
    (policy : Value) : SamePlaces s (s.setPolicy n policy) := by
  refine ⟨Arena.length_write _ _ _, rfl, ?_, ?_, ?_, ?_⟩ <;> intro m <;>
    rw [node_setPolicy s policy hn] <;> split <;> simp_all

theorem samePlaces_setKeyFunction (s : Store) {n : NodeId} (hn : n < s.nodes.length)
    (keyFunction : KeyFunction) : SamePlaces s (s.setKeyFunction n keyFunction) := by
  refine ⟨Arena.length_write _ _ _, rfl, ?_, ?_, ?_, ?_⟩ <;> intro m <;>
    rw [node_setKeyFunction s keyFunction hn] <;> split <;> simp_all

/-- What a change does to the places of nodes: it makes a table, moves one node,
or leaves every node where it is. -/
inductive PlacesEffect (s : Store) : Store → Prop where
  | create (keyFunction : KeyFunction) (policy : Value) :
      PlacesEffect s (s.create keyFunction policy)
  | enter {n : NodeId} (hn : n < s.nodes.length) : PlacesEffect s (s.enter n)
  | leave {n p : NodeId} (hn : n < s.nodes.length) (hp : (s.node n).parent = some p) :
      PlacesEffect s (s.rejoin n p)
  | stay {t : Store} (same : SamePlaces s t) : PlacesEffect s t

/-- Of the changes only three concern places. -/
theorem Change.places {s t : Store} (change : Change s t) : PlacesEffect s t := by
  cases change with
  | create keyFunction policy => exact .create keyFunction policy
  | enter hn => exact .enter hn
  | leave hn hp => exact .leave hn hp
  | unchanged => exact .stay (.refl s)
  | file _ _ _ => exact .stay (samePlaces_file s _ _ _)
  | setPolicy hn policy => exact .stay (samePlaces_setPolicy s hn policy)
  | setKeyFunction hn keyFunction => exact .stay (samePlaces_setKeyFunction s hn keyFunction)
  | assign id attr value => exact .stay (samePlaces_assign s id attr value)

/-- Paths are read off parent links alone, so nodes that stay in their places keep
their paths. -/
theorem SamePlaces.path {s t : Store} (same : SamePlaces s t) {n : NodeId} {l : List NodeId}
    (h : s.Path n l) : t.Path n l :=
  h.congr fun m _ => same.parent m

/-- Chains too, whether or not parent links end: the budget is the number of nodes,
which is the same. -/
theorem SamePlaces.chain {s t : Store} (same : SamePlaces s t) (n : NodeId) :
    t.chain n = s.chain n := by
  have hwithin : ∀ (limit : Nat) (m : NodeId), t.chainWithin limit m = s.chainWithin limit m := by
    intro limit
    induction limit with
    | zero => intro m; rfl
    | succ limit ih =>
        intro m
        rw [chainWithin, chainWithin, same.parent]
        split
        · rfl
        · rw [ih]
  unfold Store.chain
  rw [same.nodes, hwithin]

/-- Insertions from the same places go to the same scopes. -/
theorem SamePlaces.targetScope_eq {s t : Store} (same : SamePlaces s t) (n : NodeId)
    (target : Target) : t.targetScope n target = s.targetScope n target := by
  cases target with
  | current => exact same.scope n
  | outermost => exact same.root n

/-- The invariant speaks of places and of the numbers of nodes and scopes, and of
nothing else. -/
theorem Linked.of_samePlaces {s t : Store} (h : s.Linked) (same : SamePlaces s t) :
    t.Linked := by
  constructor
  · intro n hn
    obtain ⟨l, path⟩ := h.exists_path (same.nodes ▸ hn)
    exact ⟨l, same.path path⟩
  · intro n p hn hp
    rw [same.nodes] at hn ⊢
    exact h.parent_lt hn (same.parent n ▸ hp)
  · intro n hn
    rw [same.scope, same.scopes]
    exact h.scope_lt (same.nodes ▸ hn)
  · intro n hn hp
    rw [same.scope, same.root]
    exact h.root_of_top (same.nodes ▸ hn) (same.parent n ▸ hp)
  · intro n p hn hp
    rw [same.root, same.root]
    exact h.root_of_link (same.nodes ▸ hn) (same.parent n ▸ hp)
  · intro n m hn hm hscope
    rw [same.scope, same.scope] at hscope
    rw [same.parent, same.parent]
    exact h.same_parent (same.nodes ▸ hn) (same.nodes ▸ hm) hscope

/-! ## §4. Changes that move or make nodes. -/

@[simp] theorem length_nodes_create (s : Store) (keyFunction : KeyFunction) (policy : Value) :
    (s.create keyFunction policy).nodes.length = s.nodes.length + 1 :=
  Arena.length_push _ _

@[simp] theorem length_nodes_enter (s : Store) (n : NodeId) :
    (s.enter n).nodes.length = s.nodes.length + 1 := by
  simp [enter]

@[simp] theorem length_nodes_rejoin (s : Store) (n p : NodeId) :
    (s.rejoin n p).nodes.length = s.nodes.length :=
  Arena.length_write _ _ _

@[simp] theorem length_scopes_create (s : Store) (keyFunction : KeyFunction) (policy : Value) :
    (s.create keyFunction policy).scopes.length = s.scopes.length + 1 :=
  Arena.length_push _ _

@[simp] theorem length_scopes_enter (s : Store) (n : NodeId) :
    (s.enter n).scopes.length = s.scopes.length + 1 :=
  Arena.length_push _ _

/-- Two nodes at one place, each in a store of its own. -/
structure StandsAs (t : Store) (m : NodeId) (s : Store) (o : NodeId) : Prop where
  scope : (t.node m).scope = (s.node o).scope
  parent : (t.node m).parent = (s.node o).parent
  root : (t.node m).root = (s.node o).root

/-- Creating a table changes no node that was there. -/
theorem create_old (s : Store) (keyFunction : KeyFunction) (policy : Value) {m : NodeId}
    (hm : m < s.nodes.length) : (s.create keyFunction policy).node m = s.node m := by
  rw [node_create, if_neg (Nat.ne_of_lt hm)]

/-- It stands alone at a fresh scope, which is also its outermost one, with the
policy as a truth value. -/
theorem node_create_self (s : Store) (keyFunction : KeyFunction) (policy : Value) :
    (s.create keyFunction policy).node s.nodes.length
      = ⟨s.scopes.length, none, s.scopes.length, 0, .bool (s.objects.truth policy),
          keyFunction⟩ := by
  rw [node_create, if_pos rfl]

/-- **Creating keeps the links**, for the new node is linked to nothing and nothing
to it. -/
theorem Linked.create {s : Store} (h : s.Linked) (keyFunction : KeyFunction)
    (policy : Value) : (s.create keyFunction policy).Linked := by
  have hcases : ∀ m, m < (s.create keyFunction policy).nodes.length →
      m < s.nodes.length ∨ m = s.nodes.length := by
    intro m hm
    rw [length_nodes_create] at hm
    exact Nat.lt_or_eq_of_le (Nat.le_of_lt_succ hm)
  have hold : ∀ m, m < s.nodes.length →
      (s.create keyFunction policy).node m = s.node m :=
    fun m hm => create_old s keyFunction policy hm
  have hnew := node_create_self s keyFunction policy
  constructor
  · intro m hm
    rcases hcases m hm with hlt | rfl
    · obtain ⟨l, path⟩ := h.exists_path hlt
      refine ⟨l, path.congr fun x hx => ?_⟩
      rw [hold x (h.lt_of_mem hlt path x hx)]
    · exact ⟨_, .top (by rw [hnew])⟩
  · intro m p hm hp
    rw [length_nodes_create]
    rcases hcases m hm with hlt | rfl
    · rw [hold m hlt] at hp
      exact Nat.lt_succ_of_lt (h.parent_lt hlt hp)
    · rw [hnew] at hp
      exact absurd hp (by simp)
  · intro m hm
    rw [length_scopes_create]
    rcases hcases m hm with hlt | rfl
    · rw [hold m hlt]
      exact Nat.lt_succ_of_lt (h.scope_lt hlt)
    · rw [hnew]
      exact Nat.lt_succ_self _
  · intro m hm hp
    rcases hcases m hm with hlt | rfl
    · rw [hold m hlt] at hp ⊢
      exact h.root_of_top hlt hp
    · rw [hnew]
  · intro m p hm hp
    rcases hcases m hm with hlt | rfl
    · rw [hold m hlt] at hp ⊢
      rw [hold p (h.parent_lt hlt hp)]
      exact h.root_of_link hlt hp
    · rw [hnew] at hp
      exact absurd hp (by simp)
  · -- the new scope is at the new node only, so no old node has to agree with it
    intro m x hm hx hscope
    rcases hcases m hm with hlt | rfl <;> rcases hcases x hx with hlt' | rfl
    · rw [hold m hlt, hold x hlt'] at hscope ⊢
      exact h.same_parent hlt hlt' hscope
    · rw [hold m hlt, hnew] at hscope
      exact absurd hscope (Nat.ne_of_lt (h.scope_lt hlt))
    · rw [hold x hlt', hnew] at hscope
      exact absurd hscope.symm (Nat.ne_of_lt (h.scope_lt hlt'))
    · rfl

/-- After entering at `n` every other node stands where a node stood before:
the fresh one where `n` stood, the rest where they stood themselves. -/
theorem enter_standsAs {s : Store} {n m : NodeId} (hn : n < s.nodes.length)
    (hm : m < (s.enter n).nodes.length) (hmn : m ≠ n) :
    ∃ o, o < s.nodes.length ∧ StandsAs (s.enter n) m s o := by
  rw [length_nodes_enter] at hm
  by_cases hfresh : m = s.nodes.length
  · refine ⟨n, hn, ?_, ?_, ?_⟩ <;> rw [node_enter s hn, if_neg hmn, if_pos hfresh]
  · have hlt : m < s.nodes.length := Nat.lt_of_le_of_ne (Nat.le_of_lt_succ hm) hfresh
    refine ⟨m, hlt, ?_, ?_, ?_⟩ <;> rw [node_enter s hn, if_neg hmn, if_neg hfresh]

/-- The entered node moves to the fresh scope and one level deeper, below the fresh
node that took its old place. -/
theorem node_enter_self (s : Store) {n : NodeId} (hn : n < s.nodes.length) :
    (s.enter n).node n
      = { s.node n with
          scope := s.scopes.length
          parent := some s.nodes.length
          depth := (s.node n).depth + 1 } := by
  rw [node_enter s hn, if_pos rfl]

/-- The fresh node keeps what the entered one had, of its policy the truth. -/
theorem node_enter_fresh (s : Store) {n : NodeId} (hn : n < s.nodes.length) :
    (s.enter n).node s.nodes.length
      = { s.node n with policy := .bool (s.objects.truth (s.node n).policy) } := by
  rw [node_enter s hn, if_neg (Nat.ne_of_gt hn), if_pos rfl]

/-- Entering at one node moves no other. -/
theorem node_enter_of_ne (s : Store) {n m : NodeId} (hn : n < s.nodes.length)
    (hm : m < s.nodes.length) (hmn : m ≠ n) : (s.enter n).node m = s.node m := by
  rw [node_enter s hn, if_neg hmn, if_neg (Nat.ne_of_lt hm)]

/-- Entering hands every node its outermost scope unchanged. -/
theorem root_enter_of_lt {s : Store} {n m : NodeId} (hn : n < s.nodes.length)
    (hm : m < s.nodes.length) : ((s.enter n).node m).root = (s.node m).root := by
  rw [node_enter s hn]
  split
  next hmn => rw [hmn]
  next => rw [if_neg (Nat.ne_of_lt hm)]

/-- The fresh node caches the outermost scope of the node whose place it took. -/
theorem root_enter_fresh {s : Store} {n : NodeId} (hn : n < s.nodes.length) :
    ((s.enter n).node s.nodes.length).root = (s.node n).root := by
  rw [node_enter s hn, if_neg (Nat.ne_of_gt hn), if_pos rfl]

/-- Parent links still end after entering. -/
theorem Linked.exists_path_enter {s : Store} (h : s.Linked) {n m : NodeId}
    (hn : n < s.nodes.length) (hm : m < (s.enter n).nodes.length) :
    ∃ l, (s.enter n).Path m l := by
  rw [length_nodes_enter] at hm
  -- an old node has its old path, spliced where it meets `n`; the fresh one has that of `n`
  rcases Nat.lt_or_eq_of_le (Nat.le_of_lt_succ hm) with hlt | rfl
  · obtain ⟨l, path⟩ := h.exists_path hlt
    by_cases hmem : n ∈ l
    · obtain ⟨a, b, rfl⟩ := List.append_of_mem hmem
      exact ⟨_, path.enter_of_mem hn (h.lt_of_mem hlt path)⟩
    · exact ⟨l, path.enter_of_not_mem hn (h.lt_of_mem hlt path) hmem⟩
  · have path := h.chain_path hn
    rw [h.chain_eq_cons hn] at path
    refine ⟨_, path.enter_fresh hn fun x hx => ?_⟩
    exact h.lt_of_mem hn path x (List.mem_cons_of_mem _ hx)

/-- **Entering keeps the links.**  The node that moved is alone at its fresh
scope; all others agree as they did before. -/
theorem Linked.enter {s : Store} (h : s.Linked) {n : NodeId} (hn : n < s.nodes.length) :
    (s.enter n).Linked := by
  have hself := node_enter_self s hn
  have halone : ∀ m, m < (s.enter n).nodes.length →
      ((s.enter n).node m).scope = s.scopes.length → m = n := by
    intro m hm hscope
    by_cases hmn : m = n
    · exact hmn
    · obtain ⟨o, ho, stands⟩ := enter_standsAs hn hm hmn
      rw [stands.scope] at hscope
      exact absurd hscope (Nat.ne_of_lt (h.scope_lt ho))
  constructor
  · exact fun hm => h.exists_path_enter hn hm
  · -- the node that moved links to the fresh one, every other node to an old one
    intro m p hm hp
    rw [length_nodes_enter]
    by_cases hmn : m = n
    · rw [hmn, hself] at hp
      cases hp
      exact Nat.lt_succ_self _
    · obtain ⟨o, ho, stands⟩ := enter_standsAs hn hm hmn
      exact Nat.lt_succ_of_lt (h.parent_lt ho (stands.parent ▸ hp))
  · intro m hm
    rw [length_scopes_enter]
    by_cases hmn : m = n
    · rw [hmn, hself]
      exact Nat.lt_succ_self _
    · obtain ⟨o, ho, stands⟩ := enter_standsAs hn hm hmn
      rw [stands.scope]
      exact Nat.lt_succ_of_lt (h.scope_lt ho)
  · intro m hm hp
    by_cases hmn : m = n
    · rw [hmn, hself] at hp
      cases hp
    · obtain ⟨o, ho, stands⟩ := enter_standsAs hn hm hmn
      rw [stands.scope, stands.root]
      exact h.root_of_top ho (stands.parent ▸ hp)
  · intro m p hm hp
    by_cases hmn : m = n
    · subst hmn
      rw [hself] at hp
      cases hp
      rw [root_enter_fresh hn, root_enter_of_lt hn hn]
    · obtain ⟨o, ho, stands⟩ := enter_standsAs hn hm hmn
      rw [stands.parent] at hp
      rw [root_enter_of_lt hn (h.parent_lt ho hp), stands.root]
      exact h.root_of_link ho hp
  · -- no other node is at the fresh scope; old scopes settle parents as before
    intro m x hm hx hscope
    by_cases hmn : m = n
    · rw [hmn, hself] at hscope
      rw [hmn, halone x hx hscope.symm]
    · by_cases hxn : x = n
      · rw [hxn, hself] at hscope
        exact absurd (halone m hm hscope) hmn
      · obtain ⟨o, ho, stands⟩ := enter_standsAs hn hm hmn
        obtain ⟨o', ho', stands'⟩ := enter_standsAs hn hx hxn
        rw [stands.scope, stands'.scope] at hscope
        rw [stands.parent, stands'.parent]
        exact h.same_parent ho ho' hscope

/-- After leaving every node stands where a node stood before: the one that
left where its parent stood, and still stands. -/
theorem Linked.rejoin_standsAs {s : Store} (h : s.Linked) {n p m : NodeId}
    (hn : n < s.nodes.length) (hp : (s.node n).parent = some p) (hm : m < s.nodes.length) :
    ∃ o, o < s.nodes.length ∧ StandsAs (s.rejoin n p) m s o := by
  by_cases hmn : m = n
  · refine ⟨p, h.parent_lt hn hp, ?_, ?_, ?_⟩ <;> rw [node_rejoin s p hn, if_pos hmn]
    exact (h.root_of_link hn hp).symm
  · refine ⟨m, hm, ?_, ?_, ?_⟩ <;> rw [node_rejoin s p hn, if_neg hmn]

/-- The node that leaves takes scope and parent of its parent, and is one level less
deep by its own count. -/
theorem node_rejoin_self (s : Store) {n : NodeId} (p : NodeId) (hn : n < s.nodes.length) :
    (s.rejoin n p).node n
      = { s.node n with
          scope := (s.node p).scope
          parent := (s.node p).parent
          depth := (s.node n).depth - 1 } := by
  rw [node_rejoin s p hn, if_pos rfl]

/-- Leaving moves no other node, the parent that was left included. -/
theorem node_rejoin_of_ne (s : Store) {n m : NodeId} (p : NodeId) (hn : n < s.nodes.length)
    (hmn : m ≠ n) : (s.rejoin n p).node m = s.node m := by
  rw [node_rejoin s p hn, if_neg hmn]

/-- The outermost scope is no part of what leaving changes. -/
theorem root_rejoin (s : Store) {n : NodeId} (p : NodeId) (hn : n < s.nodes.length)
    (m : NodeId) : ((s.rejoin n p).node m).root = (s.node m).root := by
  rw [node_rejoin s p hn]
  split
  next hmn => rw [hmn]
  next => rfl

/-- Parent links still end after leaving. -/
theorem Linked.exists_path_rejoin {s : Store} (h : s.Linked) {n p m : NodeId}
    (hn : n < s.nodes.length) (hp : (s.node n).parent = some p) (hm : m < s.nodes.length) :
    ∃ l, (s.rejoin n p).Path m l := by
  obtain ⟨l, path⟩ := h.exists_path hm
  by_cases hmem : n ∈ l
  · obtain ⟨a, rest, rfl⟩ := List.append_of_mem hmem
    obtain ⟨b, rfl⟩ := (path.suffix.outer hp).eq_cons
    exact ⟨_, path.rejoin_of_mem hn hp⟩
  · exact ⟨l, path.rejoin_of_not_mem hn hmem⟩

/-- **Leaving keeps the links.** -/
theorem Linked.rejoin {s : Store} (h : s.Linked) {n p : NodeId} (hn : n < s.nodes.length)
    (hp : (s.node n).parent = some p) : (s.rejoin n p).Linked := by
  have hlength : (s.rejoin n p).nodes.length = s.nodes.length := length_nodes_rejoin s n p
  constructor
  · intro m hm
    rw [hlength] at hm
    exact h.exists_path_rejoin hn hp hm
  · intro m q hm hq
    rw [hlength] at hm ⊢
    obtain ⟨o, ho, stands⟩ := h.rejoin_standsAs hn hp hm
    exact h.parent_lt ho (stands.parent ▸ hq)
  · intro m hm
    rw [hlength] at hm
    obtain ⟨o, ho, stands⟩ := h.rejoin_standsAs hn hp hm
    rw [stands.scope]
    exact h.scope_lt ho
  · intro m hm hq
    rw [hlength] at hm
    obtain ⟨o, ho, stands⟩ := h.rejoin_standsAs hn hp hm
    rw [stands.scope, stands.root]
    exact h.root_of_top ho (stands.parent ▸ hq)
  · intro m q hm hq
    rw [hlength] at hm
    obtain ⟨o, ho, stands⟩ := h.rejoin_standsAs hn hp hm
    rw [root_rejoin s p hn q, stands.root]
    exact h.root_of_link ho (stands.parent ▸ hq)
  · -- both stand where nodes stood before, and those agreed
    intro m x hm hx hscope
    rw [hlength] at hm hx
    obtain ⟨o, ho, stands⟩ := h.rejoin_standsAs hn hp hm
    obtain ⟨o', ho', stands'⟩ := h.rejoin_standsAs hn hp hx
    rw [stands.scope, stands'.scope] at hscope
    rw [stands.parent, stands'.parent]
    exact h.same_parent ho ho' hscope

/-! ## §5. One change in two stores. -/

namespace SamePlaces

variable {s t : Store}

/-- Nodes that differ in their policies and key functions at most are in the same
places. -/
theorem of_nodes (nodes : t.nodes.length = s.nodes.length)
    (scopes : t.scopes.length = s.scopes.length)
    (node : ∀ n, ∃ policy keyFunction,
      t.node n = { s.node n with policy := policy, keyFunction := keyFunction }) :
    SamePlaces s t := by
  refine ⟨nodes, scopes, ?_, ?_, ?_, ?_⟩ <;> intro n <;>
    obtain ⟨policy, keyFunction, hnode⟩ := node n <;> rw [hnode]

/-- And nodes in the same places differ in nothing else. -/
theorem node_eq (same : SamePlaces s t) (n : NodeId) :
    t.node n
      = { s.node n with
          policy := (t.node n).policy
          keyFunction := (t.node n).keyFunction } := by
  show t.node n = ⟨(s.node n).scope, (s.node n).parent, (s.node n).root, (s.node n).depth, _, _⟩
  rw [← same.scope, ← same.parent, ← same.root, ← same.depth]

/-- Whatever settings two tables are made with, they are made in the same place. -/
theorem create (same : SamePlaces s t) (keyFunction other : KeyFunction)
    (policy other' : Value) : SamePlaces (s.create keyFunction policy) (t.create other other') := by
  refine .of_nodes (by simp [same.nodes]) (by simp [same.scopes]) fun n => ?_
  rw [node_create, node_create, same.nodes, same.scopes]
  split
  · exact ⟨_, _, rfl⟩
  · exact ⟨_, _, same.node_eq n⟩

/-- A scope entered in both puts the node that moves and the fresh one in the same
places. -/
theorem enter (same : SamePlaces s t) {n : NodeId} (hn : n < s.nodes.length) :
    SamePlaces (s.enter n) (t.enter n) := by
  refine .of_nodes (by simp [same.nodes]) (by simp [same.scopes]) fun m => ?_
  rw [node_enter s hn, node_enter t (same.nodes ▸ hn), same.nodes, same.scopes, same.node_eq n]
  split
  · exact ⟨_, _, rfl⟩
  · split
    · exact ⟨_, _, rfl⟩
    · exact ⟨_, _, same.node_eq m⟩

/-- The other changes of nodes give one node a new record in both stores. -/
theorem write (same : SamePlaces s t) {n : NodeId} (hn : n < s.nodes.length) {x y : Node}
    (like : ∃ policy keyFunction, y = { x with policy := policy, keyFunction := keyFunction }) :
    SamePlaces { s with nodes := s.nodes.write n x } { t with nodes := t.nodes.write n y } := by
  refine .of_nodes (by simp [same.nodes]) same.scopes fun m => ?_
  show ∃ policy keyFunction, (t.nodes.write n y).read m
    = { (s.nodes.write n x).read m with policy := policy, keyFunction := keyFunction }
  rw [Arena.read_write _ _ hn, Arena.read_write _ _ (same.nodes ▸ hn)]
  split
  · exact like
  · exact ⟨_, _, same.node_eq m⟩

/-- A node that leaves goes to its parent's place, which is the same in both. -/
theorem rejoin (same : SamePlaces s t) {n : NodeId} (hn : n < s.nodes.length) (p : NodeId) :
    SamePlaces (s.rejoin n p) (t.rejoin n p) := by
  apply same.write hn
  rw [same.node_eq n, same.scope p, same.parent p]
  exact ⟨_, _, rfl⟩

/-- Two different policies may be assigned. -/
theorem setPolicy (same : SamePlaces s t) {n : NodeId} (hn : n < s.nodes.length)
    (policy other : Value) : SamePlaces (s.setPolicy n policy) (t.setPolicy n other) := by
  apply same.write hn
  rw [same.node_eq n]
  exact ⟨_, _, rfl⟩

/-- And two different key functions. -/
theorem setKeyFunction (same : SamePlaces s t) {n : NodeId} (hn : n < s.nodes.length)
    (keyFunction other : KeyFunction) :
    SamePlaces (s.setKeyFunction n keyFunction) (t.setKeyFunction n other) := by
  apply same.write hn
  rw [same.node_eq n]
  exact ⟨_, _, rfl⟩

/-- Objects have no place. -/
theorem assign (same : SamePlaces s t) (id : ObjectId) (attr : Attribute) (value : Value) :
    SamePlaces (s.assign id attr value) (t.assign id attr value) :=
  ⟨same.nodes, same.scopes, same.scope, same.parent, same.root, same.depth⟩

end SamePlaces

/-! ## §6. Reachable stores. -/

/-- Before the first table there is nothing to be linked. -/
theorem linked_empty (objects : Objects) (journaling : Bool) :
    (Store.empty objects journaling).Linked := by
  constructor <;> intro _ <;> simp [Store.empty]

/-- **Every change keeps the links.** -/
theorem Change.linked {s t : Store} (change : Change s t) (h : s.Linked) : t.Linked := by
  cases change.places with
  | create keyFunction policy => exact h.create keyFunction policy
  | enter hn => exact h.enter hn
  | leave hn hp => exact h.rejoin hn hp
  | stay same => exact h.of_samePlaces same

/-- **Every reachable store is linked.** -/
theorem Reachable.linked {s : Store} (hs : s.Reachable) : s.Linked :=
  hs.holds linked_empty Change.linked

end Store

end ScopeChain
