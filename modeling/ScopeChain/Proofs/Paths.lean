/-
  ScopeChain.Proofs.Paths
  ───────────────────────
  **PATHS ALONG PARENT LINKS, AND WHAT SPLICING DOES TO THEM.**

  `Store.chain` follows parent links with a budget.  A PATH is the same list of
  nodes as a derivation: it exists only where the links come to an end, it is
  unique, and it meets no node twice.  Entering a scope at a node inserts the
  fresh node just after it in every path that meets it; leaving takes the node
  after it out again.  All other paths stay.

      Store.Path             — the nodes from one outwards
      Path.nodup             — no node twice
      Path.chainWithin_eq    — the budgeted chain is the path
      Path.graft             — exchange the outer part of a path
      Path.enter_of_mem, Path.rejoin_of_mem
                             — the splice laws
-/
import ScopeChain.Store

namespace ScopeChain

namespace Store

/-! ## §1. Paths. -/

/-- The nodes from one outwards, up to a node that has no parent. -/
inductive Path (s : Store) : NodeId → List NodeId → Prop where
  | top {n : NodeId} (h : (s.node n).parent = none) : Path s n [n]
  | link {n p : NodeId} {l : List NodeId} (h : (s.node n).parent = some p)
      (outer : Path s p l) : Path s n (n :: l)

namespace Path

theorem unique {s : Store} {n : NodeId} {l l' : List NodeId} (h : s.Path n l)
    (h' : s.Path n l') : l = l' := by
  -- a node has a parent or has none, so both derivations end in the same rule
  induction h generalizing l' with
  | top hnone =>
      cases h' with
      | top => rfl
      | link hsome => exact absurd (hnone.symm.trans hsome) (by simp)
  | link hsome _ ih =>
      cases h' with
      | top hnone => exact absurd (hnone.symm.trans hsome) (by simp)
      | link hsome' outer' =>
          have hp := Option.some.inj (hsome.symm.trans hsome')
          subst hp
          rw [ih outer']

theorem eq_cons {s : Store} {n : NodeId} {l : List NodeId} (h : s.Path n l) :
    ∃ rest, l = n :: rest := by
  cases h with
  | top => exact ⟨[], rfl⟩
  | link => exact ⟨_, rfl⟩

/-- From a node on a path the path goes on as that node's own. -/
theorem suffix {s : Store} {n m : NodeId} {a b : List NodeId} (h : s.Path n (a ++ m :: b)) :
    s.Path m (m :: b) := by
  induction a generalizing n with
  | nil =>
      obtain ⟨rest, hrest⟩ := h.eq_cons
      obtain ⟨rfl, -⟩ := List.cons.inj hrest
      exact h
  | cons x a ih =>
      -- the cases below are those of the path; the split list only says which node is first
      generalize hl : (x :: a) ++ m :: b = l at h
      cases h with
      | top => simp at hl
      | link _ outer =>
          obtain ⟨-, rfl⟩ := List.cons.inj hl
          exact ih outer

/-- The part of a path strictly outside a node hangs on its parent. -/
theorem outer {s : Store} {n p : NodeId} {l : List NodeId} (h : s.Path n (n :: l))
    (hp : (s.node n).parent = some p) : s.Path p l := by
  cases h with
  | top hnone => exact absurd (hnone.symm.trans hp) (by simp)
  | link hsome outer =>
      have hq := Option.some.inj (hsome.symm.trans hp)
      subst hq
      exact outer

/-- **No path meets a node twice**: from the second meeting on it would have to
be as long as from the first. -/
theorem nodup {s : Store} {n : NodeId} {l : List NodeId} (h : s.Path n l) : l.Nodup := by
  induction h with
  | top => exact List.pairwise_singleton _ _
  | @link n p l hsome outer ih =>
      refine List.nodup_cons.mpr ⟨?_, ih⟩
      intro hmem
      obtain ⟨a, b, rfl⟩ := List.append_of_mem hmem
      -- the path from the second meeting is a path from the first, and shorter
      have hagain : s.Path n (n :: b) := outer.suffix
      have hlength := congrArg List.length (hagain.unique (.link hsome outer))
      simp only [List.length_cons, List.length_append] at hlength
      omega

/-- A path ends at a node without parent. -/
theorem exists_top {s : Store} {n : NodeId} {l : List NodeId} (h : s.Path n l) :
    ∃ inner top, l = inner ++ [top] ∧ (s.node top).parent = none := by
  induction h with
  | @top n hnone => exact ⟨[], n, rfl, hnone⟩
  | @link n p l _ _ ih =>
      obtain ⟨inner, top, rfl, htop⟩ := ih
      exact ⟨n :: inner, top, rfl, htop⟩

/-- The chain with a budget is the path, once the budget suffices. -/
theorem chainWithin_eq {s : Store} {n : NodeId} {l : List NodeId} (h : s.Path n l)
    {limit : Nat} (hlimit : l.length ≤ limit) : s.chainWithin limit n = l := by
  induction h generalizing limit with
  | top hnone =>
      obtain ⟨k, rfl⟩ : ∃ k, limit = k + 1 := ⟨limit - 1, by simp at hlimit; omega⟩
      rw [chainWithin, hnone]
  | link hsome _ ih =>
      obtain ⟨k, rfl⟩ : ∃ k, limit = k + 1 := ⟨limit - 1, by simp at hlimit; omega⟩
      rw [chainWithin, hsome]
      show _ :: s.chainWithin k _ = _
      rw [ih (by simpa using hlimit)]

/-! ## §2. Paths in a changed store. -/

/-- A path stays where the nodes on it keep their parents. -/
theorem congr {s t : Store} {n : NodeId} {l : List NodeId} (h : s.Path n l)
    (same : ∀ m ∈ l, (t.node m).parent = (s.node m).parent) : t.Path n l := by
  induction h with
  | top hnone => exact .top ((same _ List.mem_cons_self).trans hnone)
  | link hsome _ ih =>
      refine .link ((same _ List.mem_cons_self).trans hsome) (ih ?_)
      exact fun m hm => same m (List.mem_cons_of_mem _ hm)

/-- **Exchanging the outer part of a path**: the nodes before `m` keep their
parents, and `m` has a path of its own in the changed store. -/
theorem graft {s t : Store} {n m : NodeId} {a b l : List NodeId}
    (h : s.Path n (a ++ m :: b)) (same : ∀ x ∈ a, (t.node x).parent = (s.node x).parent)
    (hm : t.Path m l) : t.Path n (a ++ l) := by
  induction a generalizing n with
  | nil =>
      obtain ⟨rest, hrest⟩ := h.eq_cons
      obtain ⟨rfl, -⟩ := List.cons.inj hrest
      exact hm
  | cons x a ih =>
      generalize hl : (x :: a) ++ m :: b = whole at h
      cases h with
      | top => simp at hl
      | link hsome outer =>
          obtain ⟨rfl, rfl⟩ := List.cons.inj hl
          refine .link ((same _ List.mem_cons_self).trans hsome) ?_
          exact ih outer fun y hy => same y (List.mem_cons_of_mem _ hy)

/-- The nodes before one on a path are others. -/
theorem ne_of_mem_left {s : Store} {n m x : NodeId} {a b : List NodeId}
    (h : s.Path n (a ++ m :: b)) (hx : x ∈ a) : x ≠ m := by
  intro hxm
  subst hxm
  exact (List.nodup_append.mp h.nodup).2.2 x hx x List.mem_cons_self rfl

theorem not_mem_of_cons {s : Store} {n : NodeId} {b : List NodeId}
    (h : s.Path n (n :: b)) : n ∉ b :=
  (List.nodup_cons.mp h.nodup).1

end Path

/-! ## §3. Entering. -/

/-- Entering changes the parent of the node it is called on, and gives the
fresh node the parent it had. -/
theorem parent_enter (s : Store) {n : NodeId} (hn : n < s.nodes.length) (m : NodeId) :
    ((s.enter n).node m).parent
      = if m = n then some s.nodes.length
        else if m = s.nodes.length then (s.node n).parent
        else (s.node m).parent := by
  rw [node_enter s hn]
  split
  · rfl
  · split <;> rfl

theorem Path.enter_of_not_mem {s : Store} {n c : NodeId} {l : List NodeId}
    (hn : n < s.nodes.length) (h : s.Path c l) (hlt : ∀ m ∈ l, m < s.nodes.length)
    (hnot : n ∉ l) : (s.enter n).Path c l := by
  refine h.congr fun m hm => ?_
  have hmn : m ≠ n := fun heq => hnot (heq ▸ hm)
  rw [parent_enter s hn, if_neg hmn, if_neg (Nat.ne_of_lt (hlt m hm))]

/-- The fresh node takes over the path that the entered node had. -/
theorem Path.enter_fresh {s : Store} {n : NodeId} {b : List NodeId}
    (hn : n < s.nodes.length) (h : s.Path n (n :: b)) (hlt : ∀ m ∈ b, m < s.nodes.length) :
    (s.enter n).Path s.nodes.length (s.nodes.length :: b) := by
  have hfresh : ((s.enter n).node s.nodes.length).parent = (s.node n).parent := by
    rw [parent_enter s hn, if_neg (Nat.ne_of_gt hn), if_pos rfl]
  have hnot : n ∉ b := h.not_mem_of_cons
  cases h with
  | top hnone => exact .top (hfresh.trans hnone)
  | link hsome outer =>
      exact .link (hfresh.trans hsome) (outer.enter_of_not_mem hn hlt hnot)

/-- **Splice law, entering**: every path that meets the node meets the fresh node
just after it. -/
theorem Path.enter_of_mem {s : Store} {n c : NodeId} {a b : List NodeId}
    (hn : n < s.nodes.length) (h : s.Path c (a ++ n :: b))
    (hlt : ∀ m ∈ a ++ n :: b, m < s.nodes.length) :
    (s.enter n).Path c (a ++ n :: s.nodes.length :: b) := by
  refine h.graft ?_ ?_
  · -- before the entered node nothing changes
    intro x hx
    have hlt' : x < s.nodes.length := hlt x (List.mem_append_left _ hx)
    rw [parent_enter s hn, if_neg (h.ne_of_mem_left hx), if_neg (Nat.ne_of_lt hlt')]
  · have hself : ((s.enter n).node n).parent = some s.nodes.length := by
      rw [parent_enter s hn, if_pos rfl]
    refine .link hself (h.suffix.enter_fresh hn fun m hm => ?_)
    exact hlt m (List.mem_append_right _ (List.mem_cons_of_mem _ hm))

/-! ## §4. Leaving. -/

theorem parent_rejoin (s : Store) {n : NodeId} (p : NodeId) (hn : n < s.nodes.length)
    (m : NodeId) :
    ((s.rejoin n p).node m).parent
      = if m = n then (s.node p).parent else (s.node m).parent := by
  rw [node_rejoin s p hn]
  split <;> rfl

theorem Path.rejoin_of_not_mem {s : Store} {n p c : NodeId} {l : List NodeId}
    (hn : n < s.nodes.length) (h : s.Path c l) (hnot : n ∉ l) : (s.rejoin n p).Path c l := by
  refine h.congr fun m hm => ?_
  have hmn : m ≠ n := fun heq => hnot (heq ▸ hm)
  rw [parent_rejoin s p hn, if_neg hmn]

/-- **Splice law, leaving**: every path that meets the node goes on, after it,
where the path of its parent goes on. -/
theorem Path.rejoin_of_mem {s : Store} {n p c : NodeId} {a b : List NodeId}
    (hn : n < s.nodes.length) (h : s.Path c (a ++ n :: p :: b))
    (hp : (s.node n).parent = some p) : (s.rejoin n p).Path c (a ++ n :: b) := by
  have hown : s.Path n (n :: p :: b) := h.suffix
  have hnot : n ∉ b := fun hmem => hown.not_mem_of_cons (List.mem_cons_of_mem _ hmem)
  have hself : ((s.rejoin n p).node n).parent = (s.node p).parent := by
    rw [parent_rejoin s p hn, if_pos rfl]
  refine h.graft ?_ ?_
  · intro x hx
    rw [parent_rejoin s p hn, if_neg (h.ne_of_mem_left hx)]
  · -- the node goes on like its old parent, whose own path does not come back to it
    cases hown.outer hp with
    | top hnone => exact .top (hself.trans hnone)
    | link hsome outer => exact .link (hself.trans hsome) (outer.rejoin_of_not_mem hn hnot)

end Store

end ScopeChain
