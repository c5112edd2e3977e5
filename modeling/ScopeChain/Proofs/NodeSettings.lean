/-
  ScopeChain.Proofs.NodeSettings
  ──────────────────────────────
  **THE SETTINGS OF A NODE, FROM ACTION TO ACTION.**

  A node gets a duplicate policy and a key function when it is made, and keeps
  them until others are assigned to it.  One equation says so for every action
  and every node: the node that the action makes has the settings it is made
  with, and any other those assigned to it or else its own.

      Action.policyFor?, Action.keyFunctionFor?
                             — what an action assigns to a node
      Store.policyGiven?, Store.keyFunctionGiven?
                             — what it gives to a node, made or there before
      NodesEffect            — what an action does to nodes
      settings_act           — the settings of any node after an action
      Runs.settings          — after a run they are those assigned last
      Runs.exists_made       — every node was made by some action
-/
import ScopeChain.Proofs.Rearrangement

namespace ScopeChain

/-- What a node goes by, apart from its place. -/
structure Settings where
  policy : Value
  keyFunction : KeyFunction

/-! ## §1. What actions do to nodes. -/

namespace Action

/-- The policy that an action assigns to a node, if it does. -/
def policyFor? (n : NodeId) : Action → Option Value
  | .call m (.setPolicy policy) => if m = n then some policy else none
  | _ => none

/-- The key function that an action assigns to a node, if it does. -/
def keyFunctionFor? (n : NodeId) : Action → Option KeyFunction
  | .call m (.setKeyFunction keyFunction) => if m = n then some keyFunction else none
  | _ => none

end Action

namespace Store

/-- The settings of a node. -/
def settings (s : Store) (n : NodeId) : Settings := ⟨(s.node n).policy, (s.node n).keyFunction⟩

/-- The settings of the node that an action makes, if it makes one. -/
def made? (s : Store) : Action → Option Settings
  | .create keyFunction policy => some ⟨.bool (s.objects.truth policy), keyFunction⟩
  | .call n .enter => some ⟨.bool (s.objects.truth (s.node n).policy), (s.node n).keyFunction⟩
  | _ => none

/-- The policy that an action gives to a node, as it makes it or by an assignment. -/
def policyGiven? (s : Store) (a : Action) (n : NodeId) : Option Value :=
  if n = s.nodes.length then (s.made? a).map Settings.policy else a.policyFor? n

/-- The key function that an action gives to a node, as it makes it or by an assignment. -/
def keyFunctionGiven? (s : Store) (a : Action) (n : NodeId) : Option KeyFunction :=
  if n = s.nodes.length then (s.made? a).map Settings.keyFunction else a.keyFunctionFor? n

/-- What an action does to nodes: nothing, or it makes one, moves one or assigns a setting of
one. -/
inductive NodesEffect (s : Store) : Action → Store → Prop where
  | quiet {a : Action} {t : Store} (nodes : t.nodes = s.nodes) (made : s.made? a = none)
      (silent : ∀ n, a.policyFor? n = none ∧ a.keyFunctionFor? n = none) : NodesEffect s a t
  | create (keyFunction : KeyFunction) (policy : Value) :
      NodesEffect s (.create keyFunction policy) (s.create keyFunction policy)
  | enter (n : NodeId) : NodesEffect s (.call n .enter) (s.enter n)
  | leave {n p : NodeId} (hp : (s.node n).parent = some p) :
      NodesEffect s (.call n .leave) (s.rejoin n p)
  | setPolicy (n : NodeId) (policy : Value) :
      NodesEffect s (.call n (.setPolicy policy)) (s.setPolicy n policy)
  | setKeyFunction (n : NodeId) (keyFunction : KeyFunction) :
      NodesEffect s (.call n (.setKeyFunction keyFunction)) (s.setKeyFunction n keyFunction)

/-- **Every action has one of these effects.** -/
theorem act_nodesEffect (s : Store) (a : Action) : NodesEffect s a (s.act a).store := by
  cases a with
  | create keyFunction policy => exact .create keyFunction policy
  | assign => exact .quiet rfl rfl fun _ => ⟨rfl, rfl⟩
  | call n op =>
      show NodesEffect s (.call n op) (s.perform n op).store
      cases op with
      | enter => exact .enter n
      | leave =>
          cases hp : (s.node n).parent with
          | none =>
              rw [perform_leave_of_top hp]
              exact .quiet rfl rfl fun _ => ⟨rfl, rfl⟩
          | some p =>
              rw [perform_leave_of_link hp]
              exact .leave hp
      | insert target key value =>
          rw [perform_insert_store]
          exact .quiet (nodes_insert s n target key value) rfl fun _ => ⟨rfl, rfl⟩
      | setPolicy policy => exact .setPolicy n policy
      | setKeyFunction keyFunction => exact .setKeyFunction n keyFunction
      | lookup => exact .quiet rfl rfl fun _ => ⟨rfl, rfl⟩
      | contains => exact .quiet rfl rfl fun _ => ⟨rfl, rfl⟩
      | visible => exact .quiet rfl rfl fun _ => ⟨rfl, rfl⟩
      | depth => exact .quiet rfl rfl fun _ => ⟨rfl, rfl⟩
      | isGlobal => exact .quiet rfl rfl fun _ => ⟨rfl, rfl⟩
      | describe => exact .quiet rfl rfl fun _ => ⟨rfl, rfl⟩
      | keyCount => exact .quiet rfl rfl fun _ => ⟨rfl, rfl⟩
      | levels => exact .quiet rfl rfl fun _ => ⟨rfl, rfl⟩
      | policy => exact .quiet rfl rfl fun _ => ⟨rfl, rfl⟩

/-! ## §2. The settings after an action. -/

/-- An action makes a node or none. -/
theorem nodes_length_act (s : Store) (a : Action) :
    (s.act a).store.nodes.length = s.nodes.length + if (s.made? a).isSome then 1 else 0 := by
  have effect := act_nodesEffect s a
  revert effect
  generalize (s.act a).store = t
  intro effect
  cases effect with
  | quiet nodes made => simp [nodes, made]
  | create => simp [made?]
  | enter => simp [made?]
  | leave => simp [made?]
  | setPolicy => simp [made?, Store.setPolicy]
  | setKeyFunction => simp [made?, Store.setKeyFunction]

theorem nodes_length_act_le (s : Store) (a : Action) :
    (s.act a).store.nodes.length ≤ s.nodes.length + 1 := by
  rw [nodes_length_act]
  split <;> omega

/-- **The settings of a node after an action** are those that the action gives to it, and else
those that the node had. -/
theorem settings_act {s : Store} {a : Action} (admitted : s.Admits a) (n : NodeId) :
    (s.act a).store.settings n
      = ⟨(s.policyGiven? a n).getD (s.node n).policy,
          (s.keyFunctionGiven? a n).getD (s.node n).keyFunction⟩ := by
  have effect := act_nodesEffect s a
  revert effect
  generalize (s.act a).store = t
  intro effect
  unfold settings policyGiven? keyFunctionGiven?
  cases effect with
  | quiet nodes made silent =>
      rw [made, (silent n).1, (silent n).2, node, nodes]
      split <;> rfl
  | create keyFunction policy =>
      rw [node_create]
      split <;> rfl
  | enter m =>
      have old : m ≠ s.nodes.length := Nat.ne_of_lt admitted
      rw [node_enter s admitted]
      -- the node that enters keeps its own settings; the copy handed on goes to the fresh node
      by_cases hnm : n = m
      · subst hnm
        rw [if_pos rfl, if_neg old, if_neg old]
        rfl
      · rw [if_neg hnm]
        split <;> rfl
  | @leave m p hp =>
      rw [node_rejoin s p admitted]
      by_cases hnm : n = m
      · subst hnm
        rw [if_pos rfl]
        split <;> rfl
      · rw [if_neg hnm]
        split <;> rfl
  | setPolicy m policy =>
      have old : m ≠ s.nodes.length := Nat.ne_of_lt admitted
      rw [node_setPolicy s policy admitted]
      by_cases hnm : n = m
      · subst hnm
        rw [if_pos rfl, if_neg old, if_neg old, Action.policyFor?, if_pos rfl]
        rfl
      · rw [if_neg hnm, Action.policyFor?, if_neg (Ne.symm hnm)]
        split <;> rfl
  | setKeyFunction m keyFunction =>
      have old : m ≠ s.nodes.length := Nat.ne_of_lt admitted
      rw [node_setKeyFunction s keyFunction admitted]
      by_cases hnm : n = m
      · subst hnm
        rw [if_pos rfl, if_neg old, if_neg old, Action.keyFunctionFor?, if_pos rfl]
        rfl
      · rw [if_neg hnm, Action.keyFunctionFor?, if_neg (Ne.symm hnm)]
        split <;> rfl

/-- The policy of a node after an action. -/
theorem policy_act {s : Store} {a : Action} (admitted : s.Admits a) (n : NodeId) :
    ((s.act a).store.node n).policy = (s.policyGiven? a n).getD (s.node n).policy :=
  congrArg Settings.policy (settings_act admitted n)

/-- The key function of a node after an action. -/
theorem keyFunction_act {s : Store} {a : Action} (admitted : s.Admits a) (n : NodeId) :
    ((s.act a).store.node n).keyFunction
      = (s.keyFunctionGiven? a n).getD (s.node n).keyFunction :=
  congrArg Settings.keyFunction (settings_act admitted n)

/-- A node that an action gives no policy to was there before. -/
theorem lt_of_policyGiven?_eq_none {s : Store} {a : Action} {n : NodeId}
    (hn : n < (s.act a).store.nodes.length) (given : s.policyGiven? a n = none) :
    n < s.nodes.length := by
  unfold policyGiven? at given
  split at given
  next =>
    -- no node is made, so there are no more of them than before
    rw [nodes_length_act, Option.map_eq_none_iff.mp given] at hn
    exact hn
  next hne =>
    have hle := Nat.lt_of_lt_of_le hn (nodes_length_act_le s a)
    exact Nat.lt_of_le_of_ne (Nat.le_of_lt_succ hle) hne

/-! ## §3. The settings assigned last. -/

/-- The last value assigned is the last one of the rest, or else the first. -/
theorem getLastD_filterMap_cons {α β : Type} (f : α → Option β) (a : α) (rest : List α) (b : β) :
    ((a :: rest).filterMap f).getLastD b = (rest.filterMap f).getLastD ((f a).getD b) := by
  rw [List.filterMap_cons]
  cases f a with
  | none => rfl
  | some c => exact List.getLastD_cons

/-- **A node's settings are those assigned to it last**, or those that it had to begin with. -/
theorem Runs.settings {s t : Store} {actions : List Action} (run : Runs s actions t) {n : NodeId}
    (hn : n < s.nodes.length) :
    (t.node n).policy = (actions.filterMap (Action.policyFor? n)).getLastD (s.node n).policy
      ∧ (t.node n).keyFunction
          = (actions.filterMap (Action.keyFunctionFor? n)).getLastD (s.node n).keyFunction := by
  induction run with
  | nil => exact ⟨rfl, rfl⟩
  | @cons s t a rest admitted _ ih =>
      obtain ⟨policy, keyFunction⟩ :=
        ih (Nat.lt_of_lt_of_le hn (act_change admitted).nodes_length_le)
      -- a node that was there before can only be assigned settings
      have old : n ≠ s.nodes.length := Nat.ne_of_lt hn
      rw [policy, keyFunction, policy_act admitted, keyFunction_act admitted, policyGiven?,
        keyFunctionGiven?, if_neg old, if_neg old]
      exact ⟨(getLastD_filterMap_cons _ a rest _).symm, (getLastD_filterMap_cons _ a rest _).symm⟩

/-! ## §4. The settings at the beginning. -/

/-- An action makes a node, with settings: those that a new table is given, of the policy the
truth, or those of the node that enters a scope, as they are then, of the policy the
truth. -/
inductive Makes (s : Store) : Action → Value → KeyFunction → Prop where
  | create (keyFunction : KeyFunction) (policy : Value) :
      Makes s (.create keyFunction policy) (.bool (s.objects.truth policy)) keyFunction
  | enter (n : NodeId) :
      Makes s (.call n .enter) (.bool (s.objects.truth (s.node n).policy)) (s.node n).keyFunction

theorem makes_of_made? {s : Store} {a : Action} {x : Settings} (h : s.made? a = some x) :
    s.Makes a x.policy x.keyFunction := by
  unfold made? at h
  split at h
  next keyFunction policy =>
    cases h
    exact .create keyFunction policy
  next n =>
    cases h
    exact .enter n
  next => cases h

/-- The node by which an action makes the store longer has the settings that it is made with. -/
theorem makes_of_longer {s : Store} {a : Action} (admitted : s.Admits a)
    (longer : (s.act a).store.nodes.length = s.nodes.length + 1) :
    s.Makes a ((s.act a).store.node s.nodes.length).policy
      ((s.act a).store.node s.nodes.length).keyFunction := by
  rw [policy_act admitted, keyFunction_act admitted, policyGiven?, keyFunctionGiven?, if_pos rfl,
    if_pos rfl]
  have length := nodes_length_act s a
  cases made : s.made? a with
  | none =>
      rw [made, longer] at length
      simp at length
  | some x => exact makes_of_made? made

/-- **Every node was made by some action**, and its settings are those assigned to it last since
then, or those that it was made with. -/
theorem Runs.exists_made {s t : Store} {actions : List Action} (run : Runs s actions t)
    {n : NodeId} (made : s.nodes.length ≤ n) (hn : n < t.nodes.length) :
    ∃ before a after u policy keyFunction, actions = before ++ a :: after ∧ Runs s before u
      ∧ u.nodes.length = n ∧ u.Makes a policy keyFunction
      ∧ (t.node n).policy = (after.filterMap (Action.policyFor? n)).getLastD policy
      ∧ (t.node n).keyFunction
          = (after.filterMap (Action.keyFunctionFor? n)).getLastD keyFunction := by
  obtain ⟨before, a, after, u, hactions, first, admitted, rfl, hlonger, others⟩ :=
    run.exists_raise (fun u => u.nodes.length) (fun _ => nodes_length_act_le _ _) made hn
  have settings := others.settings (Nat.lt_of_lt_of_eq (Nat.lt_succ_self _) hlonger.symm)
  exact ⟨before, a, after, u, _, _, hactions, first, rfl, makes_of_longer admitted hlonger,
    settings⟩

end Store

end ScopeChain
