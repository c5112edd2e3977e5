/-
  ScopeChain.Proofs.Splicing
  ──────────────────────────
  **ENTERING AND LEAVING SPLICE EVERY VIEW THAT PASSES THE NODE.**

  An entry at a node in the middle of somebody's chain puts an empty scope into
  the views of all nodes further in, and a leave there takes one out; nobody
  else notices, not even a node at the same scope.  The effect stays within one
  TABLE, the nodes that a constructor call and the entries after it have made.
  A table is known by its outermost scope: a new table has one of its own, every
  parent has the one of its child, and no node ever changes it.

      SplicedIn, SplicedOut  — what an entry and a leave do to the views
      Store.OneTable         — nodes of one table
      Runs.root_eq           — no node changes its table
      Reserved               — a scope that only one table can be at
      splice_laws            — the laws, for every reachable store
-/
import ScopeChain.Proofs.Buckets
import ScopeChain.Proofs.Views

namespace ScopeChain

namespace Store

/-! ## §1. Spliced views. -/

/-- What has become of a store in which a node entered a scope: views that pass
the node have the fresh scope just before the node's own. -/
structure SplicedIn (s : Store) (n : NodeId) (fresh : ScopeId) (t : Store) : Prop where
  unused : s.scopes.length ≤ fresh ∧ ∀ c, c < s.nodes.length → fresh ∉ s.view c
  empty : fresh < t.scopes.length ∧ t.scopes.read fresh = []
  inside : ∀ c, c < s.nodes.length → n ∈ s.chain c →
    t.view c = (s.view c).insertIdx ((s.chain c).idxOf n) fresh
  others : ∀ c, c < s.nodes.length → n ∉ s.chain c → t.view c = s.view c
  outer : ∃ p, s.nodes.length ≤ p ∧ p < t.nodes.length ∧ (t.node n).parent = some p
    ∧ t.view p = s.view n
  entries : ∀ i, i < s.scopes.length → t.scopes.read i = s.scopes.read i

/-- What has become of a store in which a node left its scope: views that pass
the node have lost the node's own scope. -/
structure SplicedOut (s : Store) (n : NodeId) (t : Store) : Prop where
  inside : ∀ c, c < s.nodes.length → n ∈ s.chain c →
    t.view c = (s.view c).eraseIdx ((s.chain c).idxOf n)
  others : ∀ c, c < s.nodes.length → n ∉ s.chain c → t.view c = s.view c
  entries : ∀ i, t.scopes.read i = s.scopes.read i

theorem Linked.splicedIn {s : Store} (h : s.Linked) {n : NodeId} (hn : n < s.nodes.length) :
    SplicedIn s n s.scopes.length (s.enter n) := by
  have hself := node_enter_self s hn
  refine ⟨⟨Nat.le_refl _, ?_⟩, ⟨?_, Arena.read_push_self _ _⟩, ?_, ?_, ?_, ?_⟩
  · intro c hc hmem
    exact absurd (h.lt_of_mem_view hc _ hmem) (Nat.lt_irrefl _)
  · rw [length_scopes_enter]
    exact Nat.lt_succ_self _
  · intro c hc hmem
    exact h.view_enter_of_mem hn hc hmem
  · intro c hc hnot
    exact h.view_enter_of_not_mem hn hc hnot
  · refine ⟨s.nodes.length, Nat.le_refl _, ?_, ?_, h.view_enter_fresh hn⟩
    · rw [length_nodes_enter]
      exact Nat.lt_succ_self _
    · rw [hself]
  · intro i _
    exact read_push_nil s.scopes i

theorem Linked.splicedOut {s : Store} (h : s.Linked) {n p : NodeId} (hn : n < s.nodes.length)
    (hp : (s.node n).parent = some p) : SplicedOut s n (s.rejoin n p) := by
  refine ⟨?_, ?_, fun _ => rfl⟩
  · intro c hc hmem
    exact h.view_rejoin_of_mem hn hp hc hmem
  · intro c hc hnot
    exact h.view_rejoin_of_not_mem hn hp hc hnot

/-- **Only a change of scope changes a view.** -/
theorem Linked.view_act_of_moves_none {s : Store} (h : s.Linked) {a : Action}
    (admitted : s.Admits a) (stays : s.moves a = none) {c : NodeId} (hc : c < s.nodes.length) :
    (s.act a).store.view c = s.view c := by
  rcases act_of_moves_none admitted stays with ⟨keyFunction, policy, rfl⟩ | same
  · exact h.view_create keyFunction policy hc
  · exact same.view c

/-! ## §2. Tables. -/

/-- Whether two nodes are of one table: they have one outermost scope. -/
def OneTable (s : Store) (n m : NodeId) : Prop := (s.node n).root = (s.node m).root

theorem Change.root_eq {s t : Store} (change : Change s t) {m : NodeId}
    (hm : m < s.nodes.length) : (t.node m).root = (s.node m).root := by
  cases change.places with
  | create keyFunction policy => rw [create_old s keyFunction policy hm]
  | enter hn => exact root_enter_of_lt hn hm
  | leave hn _ => exact root_rejoin s _ hn m
  | stay same => exact same.root m

/-- **No node ever changes its table.** -/
theorem Runs.root_eq {s t : Store} {actions : List Action} (run : Runs s actions t) {m : NodeId}
    (hm : m < s.nodes.length) : (t.node m).root = (s.node m).root := by
  have both : m < t.nodes.length ∧ (t.node m).root = (s.node m).root := by
    refine run.keeps (P := fun u => m < u.nodes.length ∧ (u.node m).root = (s.node m).root) ?_
      ⟨hm, rfl⟩
    intro u v change hu
    exact ⟨Nat.lt_of_lt_of_le hu.1 change.nodes_length_le, (change.root_eq hu.1).trans hu.2⟩
  exact both.2

/-- The nodes on a chain are of the table of the node it starts from. -/
theorem Linked.oneTable_of_mem {s : Store} (h : s.Linked) {n m : NodeId}
    (hn : n < s.nodes.length) (hmem : m ∈ s.chain n) : s.OneTable m n :=
  h.root_of_mem hn (h.chain_path hn) m hmem

/-- A new table is no table that there was. -/
theorem Linked.not_oneTable_create {s : Store} (h : s.Linked) (keyFunction : KeyFunction)
    (policy : Value) {m : NodeId} (hm : m < s.nodes.length) :
    ¬ (s.create keyFunction policy).OneTable s.nodes.length m := by
  intro heq
  unfold OneTable at heq
  rw [node_create_self, create_old s keyFunction policy hm] at heq
  -- the cached scope of `m` was there before the new one
  exact absurd (h.root_lt hm) (Nat.not_lt_of_le (Nat.le_of_eq heq))

/-! ## §3. Scopes of one table. -/

/-- A scope at which there are nodes of one table only; the table is known by
its outermost scope. -/
structure Reserved (s : Store) (root i : ScopeId) : Prop where
  lt : i < s.scopes.length
  root_of_scope : ∀ {m}, m < s.nodes.length → (s.node m).scope = i → (s.node m).root = root

/-- What is in a view is reserved for the table of the node. -/
theorem Linked.reserved_of_mem_view {s : Store} (h : s.Linked) {n : NodeId}
    (hn : n < s.nodes.length) {i : ScopeId} (hi : i ∈ s.view n) :
    Reserved s (s.node n).root i := by
  refine ⟨h.lt_of_mem_view hn i hi, ?_⟩
  intro m hm hscope
  obtain ⟨x, hx, rfl⟩ := List.mem_map.mp hi
  have hxlt : x < s.nodes.length := h.lt_of_mem hn (h.chain_path hn) x hx
  rw [h.root_congr hm hxlt hscope]
  exact h.oneTable_of_mem hn hx

/-- Where every node of a store stands as some node stood, a reserved scope stays
reserved. -/
theorem Reserved.of_standsAs {s t : Store} {root i : ScopeId} (h : Reserved s root i)
    (scopes : s.scopes.length ≤ t.scopes.length)
    (stands : ∀ {m}, m < t.nodes.length → (t.node m).scope = i →
      ∃ o, o < s.nodes.length ∧ StandsAs t m s o) : Reserved t root i := by
  refine ⟨Nat.lt_of_lt_of_le h.lt scopes, ?_⟩
  intro m hm hscope
  obtain ⟨o, ho, as⟩ := stands hm hscope
  rw [as.root]
  exact h.root_of_scope ho (as.scope ▸ hscope)

/-- **A reserved scope stays reserved**: nodes come to a scope only from a node
of their own table that is there, or when it is fresh. -/
theorem Change.reserved {s t : Store} (change : Change s t) (linked : s.Linked)
    {root i : ScopeId} (h : Reserved s root i) : Reserved t root i := by
  cases change.places with
  | create keyFunction policy =>
      refine h.of_standsAs (by rw [length_scopes_create]; exact Nat.le_succ _) ?_
      intro m hm hscope
      rw [length_nodes_create] at hm
      rcases Nat.lt_or_eq_of_le (Nat.le_of_lt_succ hm) with hlt | rfl
      · refine ⟨m, hlt, ?_, ?_, ?_⟩ <;> rw [create_old s keyFunction policy hlt]
      · rw [node_create_self] at hscope
        exact absurd h.lt (Nat.not_lt_of_le (Nat.le_of_eq hscope))
  | @enter n hn =>
      refine h.of_standsAs (by rw [length_scopes_enter]; exact Nat.le_succ _) ?_
      intro m hm hscope
      by_cases hmn : m = n
      · rw [hmn, node_enter_self s hn] at hscope
        exact absurd h.lt (Nat.not_lt_of_le (Nat.le_of_eq hscope))
      · exact enter_standsAs hn hm hmn
  | leave hn hp =>
      refine h.of_standsAs (Nat.le_refl _) ?_
      intro m hm _
      rw [length_nodes_rejoin] at hm
      exact linked.rejoin_standsAs hn hp hm
  | stay same =>
      refine h.of_standsAs (Nat.le_of_eq same.scopes.symm) ?_
      intro m hm _
      exact ⟨m, same.nodes ▸ hm, same.scope m, same.parent m, same.root m⟩

theorem Runs.reserved {s t : Store} {actions : List Action} (run : Runs s actions t)
    (linked : s.Linked) {root i : ScopeId} (h : Reserved s root i) : Reserved t root i := by
  have both : t.Linked ∧ Reserved t root i := by
    refine run.keeps (P := fun u => u.Linked ∧ Reserved u root i) ?_ ⟨linked, h⟩
    intro u v change hu
    exact ⟨change.linked hu.1, change.reserved hu.1 hu.2⟩
  exact both.2

/-! ## §4. Operations on other tables. -/

/-- A node sees nothing of what is done at a node of another table. -/
theorem Linked.view_perform_of_not_oneTable {s : Store} (h : s.Linked) {n m : NodeId}
    (hn : n < s.nodes.length) (hm : m < s.nodes.length) (apart : ¬ s.OneTable n m)
    (op : Operation) : (s.perform n op).store.view m = s.view m := by
  have hnot : n ∉ s.chain m := fun hmem => apart (h.oneTable_of_mem hm hmem)
  cases hmoves : s.moves (.call n op) with
  | none => exact h.view_act_of_moves_none (a := .call n op) hn hmoves hm
  | some k =>
      rcases act_of_moves_some hmoves with ⟨hop, hstore⟩ | ⟨hop, p, hp, hstore⟩
      · cases hop
        exact hstore ▸ h.view_enter_of_not_mem hn hm hnot
      · cases hop
        exact hstore ▸ h.view_rejoin_of_not_mem hn hp hm hnot

/-- Nothing that is done at a node changes a scope reserved for another table. -/
theorem Linked.read_perform_of_reserved {s : Store} (h : s.Linked) {n : NodeId}
    (hn : n < s.nodes.length) {root i : ScopeId} (reserved : Reserved s root i)
    (apart : (s.node n).root ≠ root) (op : Operation) :
    (s.perform n op).store.scopes.read i = s.scopes.read i := by
  generalize hstore : (s.perform n op).store = t
  have effect : EntriesEffect s (.call n op) t := hstore ▸ perform_entriesEffect s n op
  cases effect with
  | quiet _ entries => exact entries i
  | @file _ target _ _ f _ _ =>
      -- a scope that the node can write to is in its view, hence reserved for its own table
      have hne : i ≠ s.targetScope n target := by
        intro heq
        have hmem := h.targetScope_mem_view hn target
        rw [← heq] at hmem
        obtain ⟨x, hx, hscope⟩ := List.mem_map.mp hmem
        have hxlt : x < s.nodes.length := h.lt_of_mem hn (h.chain_path hn) x hx
        exact apart ((h.oneTable_of_mem hn hx).symm.trans (reserved.root_of_scope hxlt hscope))
      rw [read_file, if_neg fun both => hne both.1]

/-! ## §5. The laws. -/

/-- **The splice laws.**  In every reachable store parent links end and no view
has a scope twice.  An entry puts a fresh empty scope into the views that pass
the node, just before the node's own scope, and hands the node's old view to
the fresh node; a leave takes the node's scope out of these views; neither
touches other views or any entry.  No other action changes a view.  And what is
done at a node changes neither the views of a separately made table nor any
scope that this table sees or has ever seen. -/
theorem splice_laws {s : Store} (hs : s.Reachable) :
    (∀ c, c < s.nodes.length → s.Path c (s.chain c) ∧ (s.view c).Nodup)
      ∧ (∀ n, n < s.nodes.length →
          SplicedIn s n s.scopes.length (s.perform n .enter).store
          ∧ ((s.perform n .leave).outcome = .ok .done →
              SplicedOut s n (s.perform n .leave).store))
      ∧ (∀ a, s.Admits a → s.moves a = none → ∀ c, c < s.nodes.length →
          (s.act a).store.view c = s.view c)
      ∧ (∀ keyFunction policy m, m < s.nodes.length →
          ¬ (s.create keyFunction policy).OneTable s.nodes.length m)
      ∧ (∀ n p, n < s.nodes.length → (s.node n).parent = some p → s.OneTable p n)
      ∧ (∀ actions t, Runs s actions t → ∀ n m, n < s.nodes.length → m < s.nodes.length →
          (t.OneTable n m ↔ s.OneTable n m))
      ∧ ∀ n m, n < s.nodes.length → m < s.nodes.length → ¬ s.OneTable n m → ∀ op,
          (s.perform n op).store.view m = s.view m
          ∧ ∀ past actions, past.Reachable → Runs past actions s → m < past.nodes.length →
              ∀ i ∈ past.view m, (s.perform n op).store.scopes.read i = s.scopes.read i := by
  have h := hs.linked
  refine ⟨?_, ?_, ?_, ?_, ?_, ?_, ?_⟩
  · intro c hc
    exact ⟨h.chain_path hc, h.view_nodup hc⟩
  · intro n hn
    refine ⟨h.splicedIn hn, ?_⟩
    intro hdone
    obtain ⟨p, hp, hstore⟩ := perform_leave_of_done hdone
    rw [hstore]
    exact h.splicedOut hn hp
  · intro a admitted stays c hc
    exact h.view_act_of_moves_none admitted stays hc
  · intro keyFunction policy m hm
    exact h.not_oneTable_create keyFunction policy hm
  · intro n p hn hp
    exact h.root_of_link hn hp
  · intro actions t run n m hn hm
    unfold OneTable
    rw [run.root_eq hn, run.root_eq hm]
  · intro n m hn hm apart op
    refine ⟨h.view_perform_of_not_oneTable hn hm apart op, ?_⟩
    intro past actions hpast run hm' i hi
    -- a scope seen once is reserved from then on
    have reserved := run.reserved hpast.linked (hpast.linked.reserved_of_mem_view hm' hi)
    rw [← run.root_eq hm'] at reserved
    exact h.read_perform_of_reserved hn reserved apart op

/-- A table that has entered two scopes, so that its chain passes the fresh nodes
of both entries. -/
def twiceEnteredStore : Store :=
  (((Store.empty [] false).create KeyFunction.byDefault (.bool true)).enter 0).enter 0

theorem twiceEnteredStore_reachable : twiceEnteredStore.Reachable := by
  refine ⟨[], false, [.create KeyFunction.byDefault (.bool true), .call 0 .enter,
    .call 0 .enter], ?_⟩
  have first : (0 : Nat) < 1 := by decide
  have second : (0 : Nat) < 2 := by decide
  exact .cons trivial (.cons first (.cons second (.nil _)))

/-- At the node in the middle of the chain an entry puts a scope into the middle
of the table's view, and a leave takes one out of it. -/
theorem splice_laws_in_the_middle :
    twiceEnteredStore.Reachable ∧ twiceEnteredStore.chain 0 = [0, 2, 1]
      ∧ twiceEnteredStore.view 0 = [2, 1, 0]
      ∧ (twiceEnteredStore.perform 2 .enter).store.view 0 = [2, 3, 1, 0]
      ∧ (twiceEnteredStore.perform 2 .leave).store.view 0 = [2, 0] := by
  have hn : 2 < twiceEnteredStore.nodes.length := by decide
  have hc : 0 < twiceEnteredStore.nodes.length := by decide
  have hmem : 2 ∈ twiceEnteredStore.chain 0 := by decide
  have hdone : (twiceEnteredStore.perform 2 .leave).outcome = .ok .done := rfl
  obtain ⟨entered, left⟩ := (splice_laws twiceEnteredStore_reachable).2.1 2 hn
  refine ⟨twiceEnteredStore_reachable, by decide, by decide, ?_, ?_⟩
  · rw [entered.inside 0 hc hmem]
    decide
  · rw [(left hdone).inside 0 hc hmem]
    decide

end Store

end ScopeChain
