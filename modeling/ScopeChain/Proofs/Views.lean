/-
  ScopeChain.Proofs.Views
  ───────────────────────
  **WHAT THE NODES OF A STORE SEE, AND HOW SPLICING CHANGES IT.**

  A node sees the scopes along its chain: its VIEW.  Entering at a node gives
  it a fresh scope just before the one it was at, in its own view and in the
  view of every node whose chain passes it; leaving takes the scope of the node
  out of the same views.  Nodes whose chain does not pass it keep their view,
  also those that are at the very scope that was entered or left.

      Linked.view_nodup      — no scope is in a view twice
      Linked.exists_inner    — where a node lies on a chain
      Linked.view_enter_of_mem, Linked.view_rejoin_of_mem
                             — the splice laws, for every node on whose chain
                               the entered or left node lies
      Linked.view_enter_of_not_mem, Linked.view_rejoin_of_not_mem
                             — all other views stay
      Linked.view_enter_fresh — the fresh node takes the view over
      Store.moves            — the node that an action moves
      act_of_moves_none      — other actions move nothing
      KeepsPlace             — a node is where it was, at the depth it had
      keepsPlace_act         — so is every node that an action does not move
-/
import ScopeChain.Proofs.Linking

namespace ScopeChain

/-- An element inserted where one list ends and another begins. -/
theorem insertIdx_length_append {α : Type} (a b : List α) (x : α) :
    (a ++ b).insertIdx a.length x = a ++ x :: b := by
  induction a with
  | nil => rfl
  | cons y a ih =>
      show y :: (a ++ b).insertIdx a.length x = _
      rw [ih]
      rfl

namespace Store

/-! ## §1. Views. -/

/-- The scopes along a path are the view of the node it starts from. -/
theorem Linked.view_eq {s : Store} (h : s.Linked) {n : NodeId} {l : List NodeId}
    (hn : n < s.nodes.length) (path : s.Path n l) :
    s.view n = l.map fun m => (s.node m).scope := by
  rw [view, h.chain_eq hn path]

theorem Linked.view_eq_cons {s : Store} (h : s.Linked) {n : NodeId}
    (hn : n < s.nodes.length) :
    s.view n = (s.node n).scope :: (s.enclosing n).map fun m => (s.node m).scope := by
  rw [view, h.chain_eq_cons hn, List.map_cons]

/-- Where a node has a parent, its view is the parent's with its own scope in
front. -/
theorem Linked.view_of_parent {s : Store} (h : s.Linked) {n p : NodeId}
    (hn : n < s.nodes.length) (hp : (s.node n).parent = some p) :
    s.view n = (s.node n).scope :: s.view p := by
  rw [view, h.chain_of_parent hn hp, List.map_cons]
  rfl

/-- The last scope of a view is the outermost one that the node has cached. -/
theorem Linked.getLast?_view {s : Store} (h : s.Linked) {n : NodeId}
    (hn : n < s.nodes.length) : (s.view n).getLast? = some (s.node n).root := by
  have path := h.chain_path hn
  obtain ⟨inner, top, hl, -⟩ := path.exists_top
  rw [hl] at path
  rw [h.view_eq hn path, List.map_append, List.map_singleton, List.getLast?_concat,
    h.scope_top hn path]

/-- Insertions go to scopes in the view. -/
theorem Linked.targetScope_mem_view {s : Store} (h : s.Linked) {n : NodeId}
    (hn : n < s.nodes.length) (target : Target) : s.targetScope n target ∈ s.view n := by
  cases target with
  | current =>
      rw [h.view_eq_cons hn]
      exact List.mem_cons_self
  | outermost => exact List.mem_of_getLast? (h.getLast?_view hn)

/-- Where no node moves the view stays. -/
theorem SamePlaces.view {s t : Store} (same : SamePlaces s t) (n : NodeId) :
    t.view n = s.view n := by
  rw [Store.view, Store.view, same.chain]
  exact List.map_congr_left fun m _ => same.scope m

/-- **No scope is in a view twice.** -/
theorem Linked.view_nodup {s : Store} (h : s.Linked) {n : NodeId}
    (hn : n < s.nodes.length) : (s.view n).Nodup :=
  h.scopes_nodup hn (h.chain_path hn)

/-- A view shows scopes that there are. -/
theorem Linked.lt_of_mem_view {s : Store} (h : s.Linked) {n : NodeId}
    (hn : n < s.nodes.length) : ∀ i ∈ s.view n, i < s.scopes.length := by
  intro i hi
  obtain ⟨m, hm, rfl⟩ := List.mem_map.mp hi
  exact h.scope_lt (h.lt_of_mem hn (h.chain_path hn) m hm)

/-! ## §2. Where a node lies on a chain. -/

/-- A chain that passes a node goes on from there as that node's own chain. -/
theorem Linked.exists_inner {s : Store} (h : s.Linked) {c n : NodeId}
    (hc : c < s.nodes.length) (hmem : n ∈ s.chain c) :
    ∃ inner, s.Path c (inner ++ n :: s.enclosing n)
      ∧ (s.chain c).idxOf n = inner.length
      ∧ s.view c = inner.map (fun m => (s.node m).scope) ++ s.view n := by
  have path := h.chain_path hc
  have hn : n < s.nodes.length := h.lt_of_mem hc path n hmem
  obtain ⟨inner, rest, hl⟩ := List.append_of_mem hmem
  rw [hl] at path
  -- two paths from one node are one
  have hrest : n :: rest = n :: s.enclosing n := by
    rw [← h.chain_eq_cons hn]
    exact (h.chain_eq hn path.suffix).symm
  rw [hrest] at path hl
  have hnot : n ∉ inner := fun hin => path.ne_of_mem_left hin rfl
  refine ⟨inner, path, ?_, ?_⟩
  · rw [hl, List.idxOf_append_of_notMem hnot, List.idxOf_cons_self]
    rfl
  · rw [h.view_eq hc path, h.view_eq_cons hn, List.map_append, List.map_cons]

theorem idxOf_lt_length_view {s : Store} {c n : NodeId} (hmem : n ∈ s.chain c) :
    (s.chain c).idxOf n < (s.view c).length := by
  rw [view, List.length_map]
  exact List.idxOf_lt_length_iff.mpr hmem

/-! ## §3. Entering. -/

/-- Entering moves no old node but the one it is called on. -/
theorem scope_enter_of_ne {s : Store} {n m : NodeId} (hn : n < s.nodes.length)
    (hm : m < s.nodes.length) (hmn : m ≠ n) :
    ((s.enter n).node m).scope = (s.node m).scope := by
  rw [node_enter s hn, if_neg hmn, if_neg (Nat.ne_of_lt hm)]

theorem lt_nodes_enter {s : Store} {m : NodeId} (n : NodeId) (hm : m < s.nodes.length) :
    m < (s.enter n).nodes.length := by
  rw [length_nodes_enter]
  exact Nat.lt_succ_of_lt hm

/-- The scopes outside the entered node are left where they were. -/
theorem Linked.map_scope_enclosing_enter {s : Store} (h : s.Linked) {n : NodeId}
    (hn : n < s.nodes.length) :
    (s.enclosing n).map (fun m => ((s.enter n).node m).scope)
      = (s.enclosing n).map fun m => (s.node m).scope := by
  have path := h.chain_path hn
  rw [h.chain_eq_cons hn] at path
  refine List.map_congr_left fun m hm => ?_
  have hmn : m ≠ n := fun heq => path.not_mem_of_cons (heq ▸ hm)
  exact scope_enter_of_ne hn (h.lt_of_mem hn path m (List.mem_cons_of_mem _ hm)) hmn

/-- **Entering puts a fresh scope before the node's own**, in the view of every
node on whose chain it lies. -/
theorem Linked.view_enter_of_mem {s : Store} (h : s.Linked) {c n : NodeId}
    (hn : n < s.nodes.length) (hc : c < s.nodes.length) (hmem : n ∈ s.chain c) :
    (s.enter n).view c = (s.view c).insertIdx ((s.chain c).idxOf n) s.scopes.length := by
  obtain ⟨inner, path, hidx, hview⟩ := h.exists_inner hc hmem
  have hlt := h.lt_of_mem hc path
  have hinner : inner.map (fun m => ((s.enter n).node m).scope)
      = inner.map fun m => (s.node m).scope := by
    refine List.map_congr_left fun m hm => ?_
    exact scope_enter_of_ne hn (hlt m (List.mem_append_left _ hm)) (path.ne_of_mem_left hm)
  -- the fresh node, just after `n`, is at the scope that `n` was at
  have hself : ((s.enter n).node n).scope = s.scopes.length := by rw [node_enter_self s hn]
  have hfresh : ((s.enter n).node s.nodes.length).scope = (s.node n).scope := by
    rw [node_enter s hn, if_neg (Nat.ne_of_gt hn), if_pos rfl]
  have hlength : inner.length = (inner.map fun m => (s.node m).scope).length := by
    rw [List.length_map]
  rw [(h.enter hn).view_eq (lt_nodes_enter n hc) (path.enter_of_mem hn hlt), List.map_append,
    List.map_cons, List.map_cons, hinner, hself, hfresh, h.map_scope_enclosing_enter hn,
    ← h.view_eq_cons hn, hidx, hview, hlength, insertIdx_length_append]

/-- A node on whose chain the entered one does not lie sees what it saw. -/
theorem Linked.view_enter_of_not_mem {s : Store} (h : s.Linked) {c n : NodeId}
    (hn : n < s.nodes.length) (hc : c < s.nodes.length) (hnot : n ∉ s.chain c) :
    (s.enter n).view c = s.view c := by
  have path := h.chain_path hc
  have hlt := h.lt_of_mem hc path
  rw [(h.enter hn).view_eq (lt_nodes_enter n hc) (path.enter_of_not_mem hn hlt hnot), view]
  refine List.map_congr_left fun m hm => ?_
  exact scope_enter_of_ne hn (hlt m hm) fun heq => hnot (heq ▸ hm)

/-- The fresh node sees what the entered one saw. -/
theorem Linked.view_enter_fresh {s : Store} (h : s.Linked) {n : NodeId}
    (hn : n < s.nodes.length) : (s.enter n).view s.nodes.length = s.view n := by
  have path := h.chain_path hn
  rw [h.chain_eq_cons hn] at path
  have hlt := h.lt_of_mem hn path
  have hfresh : s.nodes.length < (s.enter n).nodes.length := by
    rw [length_nodes_enter]
    exact Nat.lt_succ_self _
  have hpath := path.enter_fresh hn fun m hm => hlt m (List.mem_cons_of_mem _ hm)
  rw [(h.enter hn).view_eq hfresh hpath, List.map_cons, h.map_scope_enclosing_enter hn,
    node_enter s hn, if_neg (Nat.ne_of_gt hn), if_pos rfl, h.view_eq_cons hn]

/-- The node that enters has the fresh scope in front of its view. -/
theorem Linked.view_enter {s : Store} (h : s.Linked) {n : NodeId} (hn : n < s.nodes.length) :
    (s.enter n).view n = s.scopes.length :: s.view n := by
  have hchain := h.chain_eq_cons hn
  have hmem : n ∈ s.chain n := hchain ▸ List.mem_cons_self
  rw [h.view_enter_of_mem hn hn hmem, hchain, List.idxOf_cons_self, List.insertIdx_zero]

/-! ## §4. Leaving. -/

/-- Leaving moves no node but the one it is called on. -/
theorem scope_rejoin_of_ne {s : Store} {n m : NodeId} (p : NodeId) (hn : n < s.nodes.length)
    (hmn : m ≠ n) : ((s.rejoin n p).node m).scope = (s.node m).scope := by
  rw [node_rejoin s p hn, if_neg hmn]

theorem lt_nodes_rejoin {s : Store} {m : NodeId} (n p : NodeId) (hm : m < s.nodes.length) :
    m < (s.rejoin n p).nodes.length := by
  rw [length_nodes_rejoin]
  exact hm

/-- **Leaving takes the node's scope out** of the view of every node on whose
chain it lies. -/
theorem Linked.view_rejoin_of_mem {s : Store} (h : s.Linked) {c n p : NodeId}
    (hn : n < s.nodes.length) (hp : (s.node n).parent = some p) (hc : c < s.nodes.length)
    (hmem : n ∈ s.chain c) :
    (s.rejoin n p).view c = (s.view c).eraseIdx ((s.chain c).idxOf n) := by
  obtain ⟨inner, path, hidx, hview⟩ := h.exists_inner hc hmem
  have hplt : p < s.nodes.length := h.parent_lt hn hp
  have henclosing : s.enclosing n = p :: s.enclosing p := by
    rw [enclosing_of_parent hp, h.chain_eq_cons hplt]
  rw [henclosing] at path
  have hown : s.Path n (n :: p :: s.enclosing p) := path.suffix
  have hinner : inner.map (fun m => ((s.rejoin n p).node m).scope)
      = inner.map fun m => (s.node m).scope :=
    List.map_congr_left fun m hm => scope_rejoin_of_ne p hn (path.ne_of_mem_left hm)
  have houter : (s.enclosing p).map (fun m => ((s.rejoin n p).node m).scope)
      = (s.enclosing p).map fun m => (s.node m).scope := by
    refine List.map_congr_left fun m hm => scope_rejoin_of_ne p hn fun heq => ?_
    exact hown.not_mem_of_cons (heq ▸ List.mem_cons_of_mem _ hm)
  have hself : ((s.rejoin n p).node n).scope = (s.node p).scope := by
    rw [node_rejoin s p hn, if_pos rfl]
  have hlength : inner.length = (inner.map fun m => (s.node m).scope).length := by
    rw [List.length_map]
  rw [(h.rejoin hn hp).view_eq (lt_nodes_rejoin n p hc) (path.rejoin_of_mem hn hp),
    List.map_append, List.map_cons, hinner, houter, hself, ← h.view_eq_cons hplt, hidx, hview,
    h.view_of_parent hn hp, hlength, List.eraseIdx_append_of_length_le (Nat.le_refl _),
    Nat.sub_self, List.eraseIdx_cons_zero]

/-- A node on whose chain the leaving one does not lie sees what it saw. -/
theorem Linked.view_rejoin_of_not_mem {s : Store} (h : s.Linked) {c n p : NodeId}
    (hn : n < s.nodes.length) (hp : (s.node n).parent = some p) (hc : c < s.nodes.length)
    (hnot : n ∉ s.chain c) : (s.rejoin n p).view c = s.view c := by
  have path := h.chain_path hc
  rw [(h.rejoin hn hp).view_eq (lt_nodes_rejoin n p hc) (path.rejoin_of_not_mem hn hnot), view]
  exact List.map_congr_left fun m hm => scope_rejoin_of_ne p hn fun heq => hnot (heq ▸ hm)

/-- The node that leaves has the first scope taken off its view. -/
theorem Linked.view_leave {s : Store} (h : s.Linked) {n p : NodeId}
    (hn : n < s.nodes.length) (hp : (s.node n).parent = some p) :
    s.view n = (s.node n).scope :: (s.rejoin n p).view n := by
  have hchain := h.chain_eq_cons hn
  have hmem : n ∈ s.chain n := hchain ▸ List.mem_cons_self
  rw [h.view_rejoin_of_mem hn hp hn hmem, hchain, List.idxOf_cons_self, h.view_eq_cons hn,
    List.eraseIdx_cons_zero]

/-! ## §5. The actions that move a node. -/

/-- A new table is in nobody's view. -/
theorem Linked.view_create {s : Store} (h : s.Linked) (keyFunction : KeyFunction)
    (policy : Value) {c : NodeId} (hc : c < s.nodes.length) :
    (s.create keyFunction policy).view c = s.view c := by
  have path := h.chain_path hc
  have hold : ∀ m ∈ s.chain c, (s.create keyFunction policy).node m = s.node m :=
    fun m hm => create_old s keyFunction policy (h.lt_of_mem hc path m hm)
  have hc' : c < (s.create keyFunction policy).nodes.length := by
    rw [length_nodes_create]
    exact Nat.lt_succ_of_lt hc
  have path' := path.congr fun m hm => congrArg Node.parent (hold m hm)
  rw [(h.create keyFunction policy).view_eq hc' path', view]
  exact List.map_congr_left fun m hm => congrArg Node.scope (hold m hm)

/-- The node that an action moves to another scope: the one that enters, or that
leaves a scope with another around it. -/
def moves (s : Store) : Action → Option NodeId
  | .call n .enter => some n
  | .call n .leave => if (s.node n).parent.isSome then some n else none
  | _ => none

/-- An action that moves a node enters a scope there, or leaves one. -/
theorem act_of_moves_some {s : Store} {a : Action} {n : NodeId} (h : s.moves a = some n) :
    a = .call n .enter ∧ (s.act a).store = s.enter n
      ∨ a = .call n .leave ∧ ∃ p, (s.node n).parent = some p
          ∧ (s.act a).store = s.rejoin n p := by
  unfold moves at h
  split at h
  next m =>
    cases h
    exact .inl ⟨rfl, rfl⟩
  next m =>
    split at h
    next hparent =>
      cases h
      obtain ⟨p, hp⟩ := Option.isSome_iff_exists.mp hparent
      refine .inr ⟨rfl, p, hp, ?_⟩
      show (s.perform n .leave).store = _
      rw [perform_leave_of_link hp]
    next => cases h
  next => cases h

/-- A leave that is done has moved the node to its parent's place. -/
theorem perform_leave_of_done {s : Store} {n : NodeId}
    (h : (s.perform n .leave).outcome = .ok .done) :
    ∃ p, (s.node n).parent = some p ∧ (s.perform n .leave).store = s.rejoin n p := by
  cases hp : (s.node n).parent with
  | none =>
      rw [perform_leave_of_top hp] at h
      cases h
  | some p =>
      refine ⟨p, rfl, ?_⟩
      rw [perform_leave_of_link hp]

/-- Any other action makes a table, or leaves every node in its place. -/
theorem act_of_moves_none {s : Store} {a : Action} (admitted : s.Admits a)
    (h : s.moves a = none) :
    (∃ keyFunction policy, a = .create keyFunction policy) ∨ SamePlaces s (s.act a).store := by
  have refl : SamePlaces s s := .refl s
  cases a with
  | create keyFunction policy => exact .inl ⟨keyFunction, policy, rfl⟩
  | assign id attr value => exact .inr (samePlaces_assign s id attr value)
  | call n op =>
      right
      show SamePlaces s (s.perform n op).store
      cases op with
      | enter => cases h
      | leave =>
          -- there is nothing to leave to, so the store stays
          have hparent : (s.node n).parent = none := by
            cases hp : (s.node n).parent with
            | none => rfl
            | some p => simp [moves, hp] at h
          rw [perform_leave_of_top hparent]
          exact refl
      | insert target key value =>
          rw [perform_insert_store]
          rcases insert_store_cases s n target key value with hsame | ⟨f, -, -, hfiled⟩
          · rw [hsame]
            exact refl
          · rw [hfiled]
            exact samePlaces_file s _ _ _
      | setPolicy policy => exact samePlaces_setPolicy s admitted policy
      | setKeyFunction keyFunction => exact samePlaces_setKeyFunction s admitted keyFunction
      | lookup => exact refl
      | contains => exact refl
      | visible => exact refl
      | depth => exact refl
      | isGlobal => exact refl
      | describe => exact refl
      | keyCount => exact refl
      | levels => exact refl
      | policy => exact refl

/-! ## §6. Nodes that stay in their places. -/

/-- A node has the place that it had, and the depth. -/
structure KeepsPlace (s t : Store) (m : NodeId) : Prop where
  scope : (t.node m).scope = (s.node m).scope
  parent : (t.node m).parent = (s.node m).parent
  root : (t.node m).root = (s.node m).root
  depth : (t.node m).depth = (s.node m).depth

namespace KeepsPlace

theorem of_node_eq {s t : Store} {m : NodeId} (h : t.node m = s.node m) : KeepsPlace s t m := by
  constructor <;> rw [h]

theorem refl (s : Store) (m : NodeId) : KeepsPlace s s m := .of_node_eq rfl

theorem trans {s t u : Store} {m : NodeId} (h : KeepsPlace s t m) (h' : KeepsPlace t u m) :
    KeepsPlace s u m :=
  ⟨h'.scope.trans h.scope, h'.parent.trans h.parent, h'.root.trans h.root,
    h'.depth.trans h.depth⟩

end KeepsPlace

theorem SamePlaces.keepsPlace {s t : Store} (same : SamePlaces s t) (m : NodeId) :
    KeepsPlace s t m :=
  ⟨same.scope m, same.parent m, same.root m, same.depth m⟩

theorem keepsPlace_enter {s : Store} {n m : NodeId} (hn : n < s.nodes.length)
    (hm : m < s.nodes.length) (hmn : m ≠ n) : KeepsPlace s (s.enter n) m :=
  .of_node_eq (node_enter_of_ne s hn hm hmn)

theorem keepsPlace_rejoin {s : Store} {n m : NodeId} (p : NodeId) (hn : n < s.nodes.length)
    (hmn : m ≠ n) : KeepsPlace s (s.rejoin n p) m :=
  .of_node_eq (node_rejoin_of_ne s p hn hmn)

/-- **What an action does not move stays in its place.** -/
theorem keepsPlace_act {s : Store} {a : Action} (admitted : s.Admits a) {m : NodeId}
    (hm : m < s.nodes.length) (stays : s.moves a ≠ some m) : KeepsPlace s (s.act a).store m := by
  cases hmoves : s.moves a with
  | none =>
      rcases act_of_moves_none admitted hmoves with ⟨keyFunction, policy, rfl⟩ | same
      · exact .of_node_eq (create_old s keyFunction policy hm)
      · exact same.keepsPlace m
  | some n =>
      have hmn : m ≠ n := by
        rintro rfl
        exact stays hmoves
      rcases act_of_moves_some hmoves with ⟨rfl, hstore⟩ | ⟨rfl, p, hp, hstore⟩
      · exact hstore ▸ keepsPlace_enter admitted hm hmn
      · exact hstore ▸ keepsPlace_rejoin p admitted hmn

/-- A chain whose nodes stay in their places is the chain later, too. -/
theorem Linked.chain_of_keepsPlace {s t : Store} (h : s.Linked) (ht : t.Linked) {n : NodeId}
    (hn : n < s.nodes.length) (hnt : n < t.nodes.length)
    (keeps : ∀ m ∈ s.chain n, KeepsPlace s t m) : t.chain n = s.chain n :=
  ht.chain_eq hnt ((h.chain_path hn).congr fun m hm => (keeps m hm).parent)

end Store

end ScopeChain
