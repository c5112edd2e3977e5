/-
  ScopeChain.Proofs.DepthCount
  ────────────────────────────
  **WHEN THE DEPTH COUNTERS ARE RIGHT.**

  A node counts the scopes that it enters and leaves, and never looks at its
  chain.  An entry or a leave at a node changes the chain of every node further
  in as well, and their counters are not told.  So the counters are right as
  long as scopes are changed only at nodes that are nobody's parent, and the
  first change at a parent puts one of them wrong.

      DepthCounts            — every counter is the number of links outwards
      Misplaced              — a change of scope at another node's parent
      Linked.depthCounts_act_iff
                             — right counters stay right unless it is misplaced
      Store.constructed      — the nodes that constructor calls return
      Runs.not_isParent_of_constructed
                             — these are never anybody's parent
      depthCounts_along_iff  — the exact condition, over whole runs
-/
import ScopeChain.Proofs.Views

namespace ScopeChain

namespace Store

/-! ## §1. Counters and parents. -/

/-- Every node's counter is the number of links from the node to the end of its
chain. -/
def DepthCounts (s : Store) : Prop :=
  ∀ n, n < s.nodes.length → (s.node n).depth = (s.enclosing n).length

/-- Whether a node is the parent of another. -/
def IsParent (s : Store) (n : NodeId) : Prop :=
  ∃ m, m < s.nodes.length ∧ m ≠ n ∧ (s.node m).parent = some n

/-- Whether an action moves a node that is another's parent. -/
def Misplaced (s : Store) (a : Action) : Prop := ∃ n, s.moves a = some n ∧ s.IsParent n

/-- A node on a path is the first one, or the parent of one on it. -/
theorem Path.eq_or_exists_child {s : Store} {c n : NodeId} {l : List NodeId} (h : s.Path c l)
    (hmem : n ∈ l) : n = c ∨ ∃ m ∈ l, (s.node m).parent = some n := by
  induction h with
  | top => exact .inl (List.mem_singleton.mp hmem)
  | @link c p l hsome _ ih =>
      rcases List.mem_cons.mp hmem with rfl | hrest
      · exact .inl rfl
      · right
        rcases ih hrest with rfl | ⟨m, hm, hchild⟩
        · exact ⟨c, List.mem_cons_self, hsome⟩
        · exact ⟨m, List.mem_cons_of_mem _ hm, hchild⟩

namespace Linked

variable {s : Store} (h : s.Linked)
include h

theorem length_view {n : NodeId} (hn : n < s.nodes.length) :
    (s.view n).length = (s.enclosing n).length + 1 := by
  rw [h.view_eq_cons hn, List.length_cons, List.length_map]

/-- Counters are right when each, with one added, is the length of a view. -/
theorem depthCounts_iff :
    s.DepthCounts
      ↔ ∀ n, n < s.nodes.length → (s.node n).depth + 1 = ((s.view n).length : Int) := by
  constructor
  · intro counts n hn
    have hdepth := counts n hn
    have hview := h.length_view hn
    omega
  · intro counts n hn
    have hdepth := counts n hn
    have hview := h.length_view hn
    omega

/-- No node is its own parent. -/
theorem parent_ne {m n : NodeId} (hm : m < s.nodes.length)
    (hp : (s.node m).parent = some n) : m ≠ n := by
  intro heq
  have path := h.chain_path hm
  rw [h.chain_of_parent hm hp, heq] at path
  have hn : n < s.nodes.length := h.parent_lt hm hp
  rw [h.chain_eq_cons hn] at path
  exact path.not_mem_of_cons List.mem_cons_self

/-- A chain that passes a node further out passes a child of it. -/
theorem isParent_of_mem {c n : NodeId} (hc : c < s.nodes.length) (hmem : n ∈ s.chain c)
    (hcn : c ≠ n) : s.IsParent n := by
  have path := h.chain_path hc
  rcases path.eq_or_exists_child hmem with heq | ⟨m, hm, hchild⟩
  · exact absurd heq.symm hcn
  · have hlt := h.lt_of_mem hc path m hm
    exact ⟨m, hlt, h.parent_ne hlt hchild, hchild⟩

/-- The chain of a child passes its parent. -/
theorem mem_chain_of_parent {m n : NodeId} (hm : m < s.nodes.length)
    (hp : (s.node m).parent = some n) : n ∈ s.chain m := by
  rw [h.chain_of_parent hm hp, h.chain_eq_cons (h.parent_lt hm hp)]
  exact List.mem_cons_of_mem _ List.mem_cons_self

/-! ## §2. One change of scope. -/

/-- **Counters across a change of scope at a node.**  The counter of that node
goes along with its view, but so do the views of all nodes further in; hence
the counters come out right exactly if there are none. -/
theorem depthCounts_iff_of_shift {t : Store} (counts : s.DepthCounts) (ht : t.Linked)
    {n : NodeId} {shift : Int} (hshift : shift ≠ 0) (hnodes : s.nodes.length ≤ t.nodes.length)
    (depths : ∀ c, c < s.nodes.length →
      (t.node c).depth = (s.node c).depth + if c = n then shift else 0)
    (views : ∀ c, c < s.nodes.length →
      ((t.view c).length : Int) = (s.view c).length + if n ∈ s.chain c then shift else 0)
    (fresh : ∀ c, s.nodes.length ≤ c → c < t.nodes.length →
      (t.node c).depth + 1 = ((t.view c).length : Int)) :
    t.DepthCounts ↔ ¬ s.IsParent n := by
  rw [h.depthCounts_iff] at counts
  rw [ht.depthCounts_iff]
  constructor
  · -- a child keeps its counter while its view changes
    rintro after ⟨m, hm, hmn, hp⟩
    have hbefore := counts m hm
    have hafter := after m (Nat.lt_of_lt_of_le hm hnodes)
    have hdepth := depths m hm
    have hview := views m hm
    rw [if_neg hmn] at hdepth
    rw [if_pos (h.mem_chain_of_parent hm hp)] at hview
    apply hshift
    omega
  · intro alone c hc
    by_cases hlt : c < s.nodes.length
    · have hbefore := counts c hlt
      have hdepth := depths c hlt
      have hview := views c hlt
      by_cases hcn : c = n
      · -- the moved node itself: counter and view change alike
        have hmem : n ∈ s.chain c := by
          rw [h.chain_eq_cons hlt, hcn]
          exact List.mem_cons_self
        rw [if_pos hcn] at hdepth
        rw [if_pos hmem] at hview
        omega
      · have hnot : n ∉ s.chain c := fun hmem => alone (h.isParent_of_mem hlt hmem hcn)
        rw [if_neg hcn] at hdepth
        rw [if_neg hnot] at hview
        omega
    · exact fresh c (Nat.le_of_not_lt hlt) hc

theorem depthCounts_enter_iff (counts : s.DepthCounts) {n : NodeId} (hn : n < s.nodes.length) :
    (s.enter n).DepthCounts ↔ ¬ s.IsParent n := by
  refine h.depthCounts_iff_of_shift counts (h.enter hn) (by decide : (1 : Int) ≠ 0) ?_ ?_ ?_ ?_
  · rw [length_nodes_enter]
    exact Nat.le_succ _
  · intro c hc
    rw [node_enter s hn]
    by_cases hcn : c = n
    · rw [if_pos hcn, if_pos hcn, hcn]
    · rw [if_neg hcn, if_neg hcn, if_neg (Nat.ne_of_lt hc), Int.add_zero]
  · intro c hc
    by_cases hmem : n ∈ s.chain c
    · have hidx := Nat.le_of_lt (idxOf_lt_length_view hmem)
      rw [h.view_enter_of_mem hn hc hmem, List.length_insertIdx_of_le_length hidx, if_pos hmem]
      rfl
    · rw [h.view_enter_of_not_mem hn hc hmem, if_neg hmem, Int.add_zero]
  · -- the fresh node takes over counter and view of the entered one
    intro c hge hlt
    rw [length_nodes_enter] at hlt
    have hc : c = s.nodes.length := by omega
    subst hc
    rw [h.view_enter_fresh hn, node_enter s hn, if_neg (Nat.ne_of_gt hn), if_pos rfl]
    exact (h.depthCounts_iff.mp counts) n hn

theorem depthCounts_rejoin_iff (counts : s.DepthCounts) {n p : NodeId}
    (hn : n < s.nodes.length) (hp : (s.node n).parent = some p) :
    (s.rejoin n p).DepthCounts ↔ ¬ s.IsParent n := by
  refine h.depthCounts_iff_of_shift counts (h.rejoin hn hp) (by decide : (-1 : Int) ≠ 0)
    (Nat.le_of_eq (length_nodes_rejoin s n p).symm) ?_ ?_ ?_
  · intro c hc
    rw [node_rejoin s p hn]
    by_cases hcn : c = n
    · rw [if_pos hcn, if_pos hcn, hcn]
      rfl
    · rw [if_neg hcn, if_neg hcn, Int.add_zero]
  · intro c hc
    by_cases hmem : n ∈ s.chain c
    · have hidx := idxOf_lt_length_view hmem
      rw [h.view_rejoin_of_mem hn hp hc hmem, List.length_eraseIdx_of_lt hidx, if_pos hmem]
      omega
    · rw [h.view_rejoin_of_not_mem hn hp hc hmem, if_neg hmem, Int.add_zero]
  · intro c hge hlt
    rw [length_nodes_rejoin] at hlt
    exact absurd hlt (Nat.not_lt_of_le hge)

/-- An action that moves no node leaves right counters right. -/
theorem depthCounts_of_moves_none (counts : s.DepthCounts) {a : Action}
    (admitted : s.Admits a) (stays : s.moves a = none) : (s.act a).store.DepthCounts := by
  have ht : (s.act a).store.Linked := (act_change admitted).linked h
  rw [h.depthCounts_iff] at counts
  rw [ht.depthCounts_iff]
  rcases act_of_moves_none admitted stays with ⟨keyFunction, policy, rfl⟩ | same
  · intro c hc
    show ((s.create keyFunction policy).node c).depth + 1
      = (((s.create keyFunction policy).view c).length : Int)
    rw [show (s.act (.create keyFunction policy)).store = s.create keyFunction policy from rfl,
      length_nodes_create] at hc
    rcases Nat.lt_or_eq_of_le (Nat.le_of_lt_succ hc) with hlt | rfl
    · rw [h.view_create keyFunction policy hlt, create_old s keyFunction policy hlt]
      exact counts c hlt
    · have hnew := node_create_self s keyFunction policy
      have hlt : s.nodes.length < (s.create keyFunction policy).nodes.length := by
        rw [length_nodes_create]
        exact Nat.lt_succ_self _
      rw [(h.create keyFunction policy).view_eq hlt (.top (by rw [hnew])), hnew]
      rfl
  · intro c hc
    rw [same.nodes] at hc
    rw [same.depth, same.view]
    exact counts c hc

/-- **Right counters stay right unless the action is misplaced**, and then they do
not. -/
theorem depthCounts_act_iff (counts : s.DepthCounts) {a : Action} (admitted : s.Admits a) :
    (s.act a).store.DepthCounts ↔ ¬ s.Misplaced a := by
  cases hmoves : s.moves a with
  | none =>
      have well : ¬ s.Misplaced a := by
        rintro ⟨n, hn, -⟩
        exact absurd (hmoves.symm.trans hn) (by simp)
      exact iff_of_true (h.depthCounts_of_moves_none counts admitted hmoves) well
  | some n =>
      have hmis : s.Misplaced a ↔ s.IsParent n := by
        constructor
        · rintro ⟨k, hk, hparent⟩
          cases hmoves.symm.trans hk
          exact hparent
        · exact fun hparent => ⟨n, hmoves, hparent⟩
      rw [hmis]
      rcases act_of_moves_some hmoves with ⟨rfl, hstore⟩ | ⟨rfl, p, hp, hstore⟩
      · rw [hstore]
        exact h.depthCounts_enter_iff counts admitted
      · rw [hstore]
        exact h.depthCounts_rejoin_iff counts admitted hp

end Linked

/-! ## §3. Constructed nodes. -/

/-- The node that an action makes as a table of its own. -/
def newTable? (s : Store) : Action → Option NodeId
  | .create _ _ => some s.nodes.length
  | .call _ _ => none
  | .assign _ _ _ => none

/-- The nodes that the constructor calls of a run return. -/
def constructed (s : Store) : List Action → List NodeId
  | [] => []
  | a :: rest => (s.newTable? a).toList ++ (s.act a).store.constructed rest

/-- A node that is nobody's parent becomes nobody's parent: links are given to
fresh nodes, and to nodes that other links go to already. -/
theorem Change.isParent_of {s t : Store} (change : Change s t) (h : s.Linked) {n : NodeId}
    (hn : n < s.nodes.length) (parent : t.IsParent n) : s.IsParent n := by
  cases change.places with
  | create keyFunction policy =>
      obtain ⟨m, hm, hmn, hp⟩ := parent
      rw [length_nodes_create] at hm
      rcases Nat.lt_or_eq_of_le (Nat.le_of_lt_succ hm) with hlt | rfl
      · rw [create_old s keyFunction policy hlt] at hp
        exact ⟨m, hlt, hmn, hp⟩
      · rw [node_create_self] at hp
        cases hp
  | @enter k hk =>
      obtain ⟨m, hm, hmn, hp⟩ := parent
      rw [length_nodes_enter] at hm
      rw [parent_enter s hk] at hp
      by_cases hmk : m = k
      · rw [if_pos hmk] at hp
        exact absurd (Option.some.inj hp) (Nat.ne_of_gt hn)
      · rw [if_neg hmk] at hp
        by_cases hfresh : m = s.nodes.length
        · rw [if_pos hfresh] at hp
          exact ⟨k, hk, h.parent_ne hk hp, hp⟩
        · rw [if_neg hfresh] at hp
          exact ⟨m, by omega, hmn, hp⟩
  | @leave k p hk hkp =>
      obtain ⟨m, hm, hmn, hp⟩ := parent
      rw [length_nodes_rejoin] at hm
      rw [parent_rejoin s p hk] at hp
      by_cases hmk : m = k
      · rw [if_pos hmk] at hp
        have hplt := h.parent_lt hk hkp
        exact ⟨p, hplt, h.parent_ne hplt hp, hp⟩
      · rw [if_neg hmk] at hp
        exact ⟨m, hm, hmn, hp⟩
  | stay same =>
      obtain ⟨m, hm, hmn, hp⟩ := parent
      exact ⟨m, same.nodes ▸ hm, hmn, same.parent m ▸ hp⟩

theorem Runs.isParent_of {s t : Store} {actions : List Action} (run : Runs s actions t)
    (h : s.Linked) {n : NodeId} (hn : n < s.nodes.length) (parent : t.IsParent n) :
    s.IsParent n := by
  have all : t.Linked ∧ n < t.nodes.length ∧ (t.IsParent n → s.IsParent n) := by
    refine run.keeps
      (P := fun u => u.Linked ∧ n < u.nodes.length ∧ (u.IsParent n → s.IsParent n)) ?_
      ⟨h, hn, id⟩
    rintro u v change ⟨hu, hlt, hback⟩
    exact ⟨change.linked hu, Nat.lt_of_lt_of_le hlt change.nodes_length_le,
      fun hv => hback (change.isParent_of hu hlt hv)⟩
  exact all.2.2 parent

/-- A new table is nobody's parent, for no link can lead to it yet. -/
theorem Linked.not_isParent_create {s : Store} (h : s.Linked) (keyFunction : KeyFunction)
    (policy : Value) : ¬ (s.create keyFunction policy).IsParent s.nodes.length := by
  rintro ⟨m, hm, hne, hp⟩
  rw [length_nodes_create] at hm
  have hlt : m < s.nodes.length := by omega
  rw [create_old s keyFunction policy hlt] at hp
  exact absurd (h.parent_lt hlt hp) (Nat.lt_irrefl _)

/-- What an action constructs is a node from then on, and nobody's parent. -/
theorem Linked.not_isParent_newTable {s : Store} (h : s.Linked) {a : Action} {n : NodeId}
    (hnew : n ∈ (s.newTable? a).toList) :
    s.nodes.length ≤ n ∧ n < (s.act a).store.nodes.length ∧ ¬ (s.act a).store.IsParent n := by
  cases a with
  | create keyFunction policy =>
      obtain rfl : n = s.nodes.length := List.mem_singleton.mp hnew
      refine ⟨Nat.le_refl _, ?_, h.not_isParent_create keyFunction policy⟩
      show s.nodes.length < (s.create keyFunction policy).nodes.length
      rw [length_nodes_create]
      exact Nat.lt_succ_self _
  | call k op => cases hnew
  | assign id attr value => cases hnew

/-- **A constructed node is never anybody's parent**, whatever the run does. -/
theorem Runs.not_isParent_of_constructed {s t : Store} {actions : List Action}
    (run : Runs s actions t) (h : s.Linked) :
    ∀ n ∈ s.constructed actions, ¬ t.IsParent n := by
  induction run with
  | nil =>
      intro n hn
      cases hn
  | cons admitted run ih =>
      intro n hn hparent
      have hlinked := (act_change admitted).linked h
      rcases List.mem_append.mp hn with hnew | hrest
      · obtain ⟨-, hlt, hnot⟩ := h.not_isParent_newTable hnew
        exact hnot (run.isParent_of hlinked hlt hparent)
      · exact ih hlinked n hrest hparent

/-- A run constructs fresh nodes. -/
theorem Runs.le_of_mem_constructed {s t : Store} {actions : List Action}
    (run : Runs s actions t) (h : s.Linked) :
    ∀ n ∈ s.constructed actions, s.nodes.length ≤ n := by
  induction run with
  | nil =>
      intro n hn
      cases hn
  | cons admitted _ ih =>
      intro n hn
      have change := act_change admitted
      rcases List.mem_append.mp hn with hnew | hrest
      · exact (h.not_isParent_newTable hnew).1
      · exact Nat.le_trans change.nodes_length_le (ih (change.linked h) n hrest)

/-! ## §4. Whole runs. -/

/-- Where every node that is moved is nobody's parent at the start, or is made by
a constructor call of the run, no action is misplaced. -/
theorem Runs.along_not_misplaced {s t : Store} {actions : List Action} (run : Runs s actions t)
    (h : s.Linked) {P : NodeId → Prop}
    (moved : s.Along (fun u a => ∀ n, u.moves a = some n → P n) actions)
    (old : ∀ n, n < s.nodes.length → P n → ¬ s.IsParent n)
    (new : ∀ n, s.nodes.length ≤ n → P n → n ∈ s.constructed actions) :
    s.Along (fun u a => ¬ u.Misplaced a) actions := by
  induction run with
  | nil => exact trivial
  | @cons s _ a rest admitted run ih =>
      have change := act_change admitted
      have hlinked := change.linked h
      obtain ⟨first, others⟩ := moved
      constructor
      · rintro ⟨n, hmoves, hparent⟩
        have hlt : n < s.nodes.length := by
          rcases act_of_moves_some hmoves with ⟨rfl, -⟩ | ⟨rfl, -⟩
          · exact admitted
          · exact admitted
        exact old n hlt (first n hmoves) hparent
      · refine ih hlinked others ?_ ?_
        · -- a node that is there now was there before, or has just been constructed
          intro n hlt hn
          by_cases hold : n < s.nodes.length
          · exact fun hparent => old n hold hn (change.isParent_of h hold hparent)
          · rcases List.mem_append.mp (new n (Nat.le_of_not_lt hold) hn) with hnew | hrest
            · exact (h.not_isParent_newTable hnew).2.2
            · exact absurd (run.le_of_mem_constructed hlinked n hrest) (Nat.not_le_of_lt hlt)
        · intro n hge hn
          rcases List.mem_append.mp (new n (Nat.le_trans change.nodes_length_le hge) hn) with
            hnew | hrest
          · exact absurd (h.not_isParent_newTable hnew).2.1 (Nat.not_lt_of_le hge)
          · exact hrest

theorem depthCounts_empty (objects : Objects) (journaling : Bool) :
    (Store.empty objects journaling).DepthCounts := by
  intro n hn
  exact absurd hn (Nat.not_lt_zero n)

/-- **The exact condition for right depths.**  Over any run the counters are
right after every action if and only if no action is misplaced, that is, moves
a node that is then the parent of another.  What a right counter counts are the
nodes that parent links lead to, up to one without parent; so no depth is
negative, and the depth is zero exactly at the nodes that are global.  The
nodes that constructor calls return are never parents; so a run that moves no
others has right counters throughout. -/
theorem depthCounts_along_iff {objects : Objects} {journaling : Bool} {actions : List Action}
    {t : Store} (run : Runs (.empty objects journaling) actions t) :
    let s := Store.empty objects journaling
    (s.Along (fun u a => (u.act a).store.DepthCounts) actions
        ↔ s.Along (fun u a => ¬ u.Misplaced a) actions)
      ∧ (∀ n, n < t.nodes.length → t.Path n (n :: t.enclosing n))
      ∧ (t.DepthCounts → ∀ n, n < t.nodes.length →
          0 ≤ (t.node n).depth
          ∧ ((t.node n).depth = 0 ↔ (t.perform n .isGlobal).outcome = .ok (.flag true)))
      ∧ (∀ n ∈ s.constructed actions, ¬ t.IsParent n)
      ∧ (s.Along (fun u a => ∀ n, u.moves a = some n → n ∈ s.constructed actions) actions →
          s.Along (fun u a => (u.act a).store.DepthCounts) actions) := by
  intro s
  have hs : s.Linked := linked_empty objects journaling
  have ht : t.Linked := run.keeps Change.linked hs
  have condition : s.Along (fun u a => (u.act a).store.DepthCounts) actions
      ↔ s.Along (fun u a => ¬ u.Misplaced a) actions := by
    refine run.along_iff (I := fun u => u.Linked ∧ u.DepthCounts) ?_ ?_
      ⟨hs, depthCounts_empty objects journaling⟩
    · intro u a admitted hu
      exact hu.1.depthCounts_act_iff hu.2 admitted
    · intro u a admitted counts hu
      exact ⟨(act_change admitted).linked hu.1, counts⟩
  refine ⟨condition, ?_, ?_, run.not_isParent_of_constructed hs, ?_⟩
  · intro n hn
    rw [← ht.chain_eq_cons hn]
    exact ht.chain_path hn
  · intro counts n hn
    have hdepth := counts n hn
    refine ⟨by omega, ?_⟩
    have hglobal : (t.perform n .isGlobal).outcome = .ok (.flag true)
        ↔ (t.node n).parent = none := by simp [perform]
    rw [hglobal, hdepth]
    -- a node with a parent has the parent's chain outside it, which is not empty
    cases hp : (t.node n).parent with
    | none => simp [enclosing_of_top hp]
    | some p =>
        rw [enclosing_of_parent hp, ht.chain_eq_cons (ht.parent_lt hn hp), List.length_cons]
        constructor
        · intro hzero
          omega
        · intro hnone
          cases hnone
  · intro moved
    refine condition.mpr (run.along_not_misplaced hs moved ?_ ?_)
    · intro n hn
      exact absurd hn (Nat.not_lt_zero n)
    · intro n _ hconstructed
      exact hconstructed

/-- A table enters a scope, and then its parent does: the parent is the parent of
the table, so this is the end of right counters. -/
theorem depthCounts_lost_at_parent :
    let actions : List Action :=
      [.create KeyFunction.byDefault (.bool true), .call 0 .enter, .call 1 .enter]
    let s := Store.empty [] false
    Runs s actions (((s.create KeyFunction.byDefault (.bool true)).enter 0).enter 1)
      ∧ ¬ s.Along (fun u a => (u.act a).store.DepthCounts) actions := by
  intro actions s
  have run : Runs s actions (((s.create KeyFunction.byDefault (.bool true)).enter 0).enter 1) := by
    have first : (0 : Nat) < 1 := by decide
    have second : (1 : Nat) < 2 := by decide
    exact .cons trivial (.cons first (.cons second (.nil _)))
  refine ⟨run, ?_⟩
  rw [(depthCounts_along_iff run).1]
  rintro ⟨-, -, last, -⟩
  exact last ⟨1, rfl, 0, by decide, by decide, rfl⟩

end Store

end ScopeChain
