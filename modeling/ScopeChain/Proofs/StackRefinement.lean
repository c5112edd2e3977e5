/-
  ScopeChain.Proofs.StackRefinement
  ─────────────────────────────────
  **A HANDLE BEHAVES LIKE A STACK.**

  The node of a handle keeps its number while its scopes move: entering puts a
  fresh node behind it, leaving brings the scope behind it back, and insertions
  write through a scope number that other nodes have too.  What the handle sees
  is the VIEW, the scopes along its chain read out of the arena, and each
  operation does to the view what the reference does to its list.  Two facts of
  linked stores carry the argument: the last scope of the view is the cached
  outermost one, and no scope is in the view twice, so that writing one scope
  changes one place of the list.

      Tracks                 — a node's view is a stack
      Tracks.perform         — every call keeps that, with one outcome
      Session.Follows        — the same for a session with a named handle
      follows_execute        — every statement keeps that, with one step
      handle_refines_stack   — programs over a handle run as over a stack
-/
import ScopeChain.Proofs.Sessions
import ScopeChain.Proofs.Stack
import ScopeChain.Proofs.Views

namespace ScopeChain

namespace Store

/-! ## §1. Views as lists. -/

/-- The scope that an insertion goes to is the first of the view or the last. -/
theorem Linked.view_position {s : Store} (h : s.Linked) {n : NodeId}
    (hn : n < s.nodes.length) (target : Target) :
    (s.view n)[target.position (s.view n).length]? = some (s.targetScope n target) := by
  cases target with
  | current =>
      rw [h.view_eq_cons hn]
      rfl
  | outermost =>
      show (s.view n)[(s.view n).length - 1]? = some (s.node n).root
      rw [← List.getLast?_eq_getElem?, h.getLast?_view hn]

/-- Read out of an arena, cells that are all different change in one place when
one of them is written. -/
theorem map_read_write {a : Arena ScopeMap} {l : List ScopeId} (hl : l.Nodup) {i : Nat}
    {c : ScopeId} (hi : l[i]? = some c) (hc : c < a.length) (f : ScopeMap → ScopeMap) :
    l.map (a.write c (f (a.read c))).read = (l.map a.read).modify i f := by
  apply List.ext_getElem?
  intro j
  rw [List.getElem?_modify, List.getElem?_map, List.getElem?_map]
  by_cases hij : i = j
  · subst hij
    rw [hi]
    simp [Arena.read_write_self _ _ hc]
  · cases hj : l[j]? with
    | none => rfl
    | some d =>
        have hne : d ≠ c := by
          intro hdc
          subst hdc
          obtain ⟨hilt, -⟩ := List.getElem?_eq_some_iff.mp hi
          exact hij ((List.getElem?_inj hilt hl).mp (hi.trans hj.symm))
        simp [Arena.read_write_of_ne _ _ (Ne.symm hne), hij]

/-! ## §2. Nodes that track a stack. -/

/-- A node's view, read out, is the list of a stack that has the node's policy
and key function; the counter at the node is right. -/
structure Tracks (s : Store) (n : NodeId) (st : Stack) : Prop where
  linked : s.Linked
  lt : n < s.nodes.length
  scopes : st.scopes = (s.view n).map s.scopes.read
  depth : (s.node n).depth = st.depth
  objects : s.objects = st.objects
  journaling : s.journaling = st.journaling
  policy : (s.node n).policy = st.policy
  keyFunction : (s.node n).keyFunction = st.keyFunction

/-- A new table tracks a stack of one empty scope. -/
theorem Linked.tracks_create {s : Store} (h : s.Linked) (keyFunction : KeyFunction)
    (policy : Value) :
    Tracks (s.create keyFunction policy) s.nodes.length
      (.start s.objects s.journaling keyFunction policy) := by
  have hn : s.nodes.length < (s.create keyFunction policy).nodes.length := by
    rw [length_nodes_create]
    exact Nat.lt_succ_self _
  have hnew := node_create_self s keyFunction policy
  have hchain := (h.create keyFunction policy).view_eq hn (.top (by rw [hnew]))
  refine ⟨h.create keyFunction policy, hn, ?_, ?_, rfl, rfl, ?_, ?_⟩
  · rw [hchain, List.map_singleton, List.map_singleton, hnew]
    show [[]] = [(Arena.push s.scopes []).read s.scopes.length]
    rw [Arena.read_push_self]
  · rw [hnew]
    rfl
  · rw [hnew]
    rfl
  · rw [hnew]
    rfl

namespace Tracks

variable {s : Store} {n : NodeId} {st : Stack} (h : Tracks s n st)
include h

/-! ### Reading. -/

/-- The scopes on the stack are those that the chain meets. -/
theorem scopes_eq : st.scopes = (s.chain n).map s.here := by
  rw [h.scopes, view, List.map_map]
  rfl

/-- The top of the stack is the current scope, its bottom the outermost one. -/
theorem scopeAt_eq (target : Target) :
    st.scopeAt target = s.scopes.read (s.targetScope n target) := by
  have hlength : st.scopes.length = (s.view n).length := by rw [h.scopes, List.length_map]
  have hget : st.scopes[target.position st.scopes.length]? = some (st.scopeAt target) :=
    List.getElem?_eq_getElem (st.position_lt target)
  rw [hlength, h.scopes, List.getElem?_map, h.linked.view_position h.lt] at hget
  exact (Option.some.inj hget).symm

theorem here_eq : st.scopeAt .current = s.here n := h.scopeAt_eq .current

/-- Keys are prepared by the same function. -/
theorem address_eq (key : Value) : st.address key = s.addressAt n key := by
  unfold Stack.address addressAt
  rw [h.objects, h.keyFunction]

/-- The search goes down the stack as it goes out along the chain. -/
theorem matchesWithin_eq (k : Value) (f : Filter) (reach : Reach) :
    st.matchesWithin k f reach = s.matchesWithin n k f reach := by
  cases reach with
  | current => rw [Stack.matchesWithin, h.here_eq, ← h.objects]; rfl
  | chain =>
      rw [Stack.matchesWithin, h.scopes_eq, List.map_map, ← h.objects, ← firstNonempty_eq_find?]
      rfl
  | outermost => rw [Stack.matchesWithin, h.scopeAt_eq, ← h.objects]; rfl

theorem lookup_eq (reach : Reach) (key : Value) (f : Filter) :
    st.lookup reach key f = s.lookup n reach key f := by
  unfold Stack.lookup Store.lookup
  rw [h.address_eq]
  cases s.addressAt n key with
  | error fault => rfl
  | ok k =>
      show Except.ok _ = Except.ok _
      rw [h.matchesWithin_eq]

/-- Membership is a lookup on either side. -/
theorem contains_eq (key : Value) : st.contains key = s.contains n key := by
  unfold Stack.contains Store.contains
  have hlookup := h.lookup_eq .chain key .all
  cases hfound : s.lookup n .chain key .all with
  | error fault => rw [hlookup, hfound]
  | ok found => rw [hlookup, hfound]

/-- Listings too go from the top of the stack to its bottom. -/
theorem visible_eq : st.scopes.flatMap ScopeMap.entries = s.visible n := by
  rw [h.scopes_eq, List.flatMap_map]
  rfl

theorem describe_eq : st.describe = s.describe n := by
  unfold Stack.describe Store.describe
  rw [h.here_eq, h.objects, h.policy, h.depth]

/-- A stack of one scope is tracked by a node without parent. -/
theorem isEmpty_tail : st.scopes.tail.isEmpty = (s.node n).parent.isNone := by
  rw [h.scopes_eq]
  cases hp : (s.node n).parent with
  | none =>
      rw [h.linked.chain_of_top h.lt hp]
      rfl
  | some p =>
      rw [h.linked.chain_of_parent h.lt hp,
        h.linked.chain_eq_cons (h.linked.parent_lt h.lt hp)]
      rfl

/-- An insertion finds the same bucket and the same policy, so it is decided alike.
-/
theorem filing_eq (target : Target) (key value : Value) :
    st.filing target key value = s.filing n target key value := by
  unfold Stack.filing Store.filing
  rw [h.address_eq]
  cases s.addressAt n key with
  | error fault => rfl
  | ok k =>
      show Except.ok _ = Except.ok _
      rw [h.scopeAt_eq, allowsDuplicates, h.objects, h.policy]

/-- The depth that a journal line shows is the depth of the stack. -/
theorem insertionRecord_eq (target : Target) (f : Filing) :
    st.insertionRecord target f = s.insertionRecord n target f := by
  unfold Stack.insertionRecord Store.insertionRecord
  cases htext : st.objects.display f.key with
  | error fault => rw [h.journaling, h.objects, htext]
  | ok text => rw [h.journaling, h.objects, htext, h.depth]

theorem recorded_eq (event : Event) : st.recorded event = s.recorded event := by
  unfold Stack.recorded Store.recorded
  rw [h.journaling]

/-! ### Changes. -/

/-- **Entering pushes an empty scope**: outwards from its new place, a node meets
the scopes that it met before. -/
theorem enter : Tracks (s.enter n) n st.enter := by
  have hself := node_enter_self s h.lt
  refine ⟨h.linked.enter h.lt, ?_, ?_, ?_, h.objects, h.journaling, ?_, ?_⟩
  · rw [length_nodes_enter]
    exact Nat.lt_succ_of_lt h.lt
  · -- a fresh scope reads as empty, and the old ones as before
    show [] :: st.scopes = ((s.enter n).view n).map (Arena.push s.scopes []).read
    have hold : ∀ i ∈ s.view n, (Arena.push s.scopes []).read i = s.scopes.read i :=
      fun i _ => read_push_nil s.scopes i
    rw [h.linked.view_enter h.lt, List.map_cons, Arena.read_push_self,
      List.map_congr_left hold, h.scopes]
  · rw [hself, Stack.depth_enter, ← h.depth]
  · rw [hself]
    exact h.policy
  · rw [hself]
    exact h.keyFunction

/-- Where the node has a parent the stack has a second scope, and both go
there. -/
theorem leave {p : NodeId} (hp : (s.node n).parent = some p) :
    ∃ after, st.leave? = some after ∧ Tracks (s.rejoin n p) n after := by
  have hscopes := h.scopes
  rw [h.linked.view_leave h.lt hp, List.map_cons] at hscopes
  have hlinked := h.linked.rejoin h.lt hp
  have hlt : n < (s.rejoin n p).nodes.length := by
    rw [length_nodes_rejoin]
    exact h.lt
  -- the view left over is not empty, for it starts with the node's new scope
  have hcons := hlinked.view_eq_cons hlt
  rw [hcons, List.map_cons] at hscopes
  have hafter := Stack.leave?_of_cons hscopes
  refine ⟨_, hafter, hlinked, hlt, ?_, ?_, h.objects, h.journaling, ?_, ?_⟩
  · rw [hcons, List.map_cons]
    rfl
  · rw [Stack.depth_of_leave? hafter, ← h.depth, node_rejoin s p h.lt, if_pos rfl]
  · rw [node_rejoin s p h.lt, if_pos rfl]
    exact h.policy
  · rw [node_rejoin s p h.lt, if_pos rfl]
    exact h.keyFunction

/-- Where it has none the stack has one scope. -/
theorem leave?_eq_none (hp : (s.node n).parent = none) : st.leave? = none := by
  have hscopes := h.scopes_eq
  rw [h.linked.chain_of_top h.lt hp] at hscopes
  exact Stack.leave?_of_singleton hscopes

/-- Where no node moves, what is left to compare is the entries of the view and
what the node and the stack hold beside them. -/
theorem of_samePlaces {t : Store} {u : Stack} (same : SamePlaces s t)
    (scopes : u.scopes = (s.view n).map t.scopes.read) (objects : t.objects = u.objects)
    (journaling : t.journaling = u.journaling) (policy : (t.node n).policy = u.policy)
    (keyFunction : (t.node n).keyFunction = u.keyFunction) : Tracks t n u := by
  refine ⟨h.linked.of_samePlaces same, same.nodes ▸ h.lt, ?_, ?_, objects, journaling, policy,
    keyFunction⟩
  · rw [same.view]
    exact scopes
  · rw [same.depth, h.depth, Stack.depth, Stack.depth, scopes, h.scopes, List.length_map,
      List.length_map]

/-- **Filing through a shared scope changes one place of the list.** -/
theorem file (target : Target) (key symbol : Value) :
    Tracks (s.file (s.targetScope n target) key symbol) n (st.file target key symbol) := by
  have same := samePlaces_file s (s.targetScope n target) key symbol
  have hlength : st.scopes.length = (s.view n).length := by rw [h.scopes, List.length_map]
  have hlt : s.targetScope n target < s.scopes.length := h.linked.targetScope_lt h.lt target
  refine h.of_samePlaces same ?_ h.objects h.journaling h.policy h.keyFunction
  show st.scopes.modify (target.position st.scopes.length) _
    = (s.view n).map (s.scopes.write (s.targetScope n target) _).read
  rw [map_read_write (h.linked.view_nodup h.lt) (h.linked.view_position h.lt target) hlt
    (fun m => m.insert s.objects key symbol), hlength, h.scopes, h.objects]

/-- An assignment to the handle is one to the stack. -/
theorem setPolicy (policy : Value) :
    Tracks (s.setPolicy n policy) n { st with policy := policy } := by
  have same := samePlaces_setPolicy s h.lt policy
  refine h.of_samePlaces same h.scopes h.objects h.journaling ?_ ?_
  · rw [node_setPolicy s policy h.lt, if_pos rfl]
  · rw [node_setPolicy s policy h.lt, if_pos rfl]
    exact h.keyFunction

theorem setKeyFunction (keyFunction : KeyFunction) :
    Tracks (s.setKeyFunction n keyFunction) n { st with keyFunction := keyFunction } := by
  have same := samePlaces_setKeyFunction s h.lt keyFunction
  refine h.of_samePlaces same h.scopes h.objects h.journaling ?_ ?_
  · rw [node_setKeyFunction s keyFunction h.lt, if_pos rfl]
    exact h.policy
  · rw [node_setKeyFunction s keyFunction h.lt, if_pos rfl]

/-- Objects are outside of the stack, and the same for both. -/
theorem assign (id : ObjectId) (attr : Attribute) (value : Value) :
    Tracks (s.assign id attr value) n (st.assign id attr value) := by
  have same := samePlaces_assign s id attr value
  refine h.of_samePlaces same h.scopes ?_ h.journaling h.policy h.keyFunction
  show s.objects.assign id attr value = st.objects.assign id attr value
  rw [h.objects]

end Tracks

/-! ## §3. Calls. -/

/-- Two replies of one outcome and one record; the node goes on to track the
stack. -/
structure Agrees (n : NodeId) (reply : Reply) (reference : StackReply) : Prop where
  tracks : Tracks reply.store n reference.stack
  outcome : reply.outcome = reference.outcome
  events : reply.events = reference.events

namespace Tracks

variable {s : Store} {n : NodeId} {st : Stack} (h : Tracks s n st)
include h

/-- A reply that changes nothing is judged by its outcome. -/
theorem reads {outcome reference : Except Fault Answer} (same : outcome = reference) :
    Agrees n ⟨s, outcome, []⟩ ⟨st, reference, []⟩ :=
  ⟨h, same, rfl⟩

/-- Refused or accepted, an insertion does the same to both. -/
theorem insert (target : Target) (key value : Value)
    (other : Operation.insert target key value ≠ .levels) :
    Agrees n (s.perform n (.insert target key value))
      (st.perform ⟨.insert target key value, other⟩) := by
  show Agrees n (s.perform n (.insert target key value)) (st.insert target key value)
  rw [Stack.insert, h.filing_eq, Store.perform]
  cases hf : s.filing n target key value with
  | error fault =>
      rw [insert_of_undecided hf]
      exact ⟨h, rfl, rfl⟩
  -- a failing record leaves what was filed, on both sides
  | ok f =>
      simp only [Store.insert, hf, h.insertionRecord_eq]
      cases hc : f.clash with
      | none =>
          cases s.insertionRecord n target f with
          | error fault => exact ⟨h.file target f.key f.symbol, rfl, rfl⟩
          | ok events => exact ⟨h.file target f.key f.symbol, rfl, rfl⟩
      | some existing =>
          cases s.insertionRecord n target f with
          | error fault => exact ⟨h, rfl, rfl⟩
          | ok events =>
              refine ⟨h, ?_, rfl⟩
              show Except.error (rejection s.objects f.key existing target) = _
              rw [h.objects]

/-- **Every call comes to the same on both sides.** -/
theorem perform (call : Call) : Agrees n (s.perform n call.val) (st.perform call) := by
  obtain ⟨op, other⟩ := call
  cases op with
  | enter =>
      refine ⟨h.enter, rfl, ?_⟩
      show s.recorded (.entered ((s.node n).depth + 1)) = st.recorded (.entered (st.depth + 1))
      rw [h.recorded_eq, h.depth]
  | leave =>
      simp only [Store.perform, Stack.perform]
      cases hp : (s.node n).parent with
      | none =>
          rw [leave?_eq_none_iff.mpr hp, h.leave?_eq_none hp]
          exact ⟨h, rfl, (h.recorded_eq .atRoot).symm⟩
      | some p =>
          obtain ⟨after, hafter, tracks⟩ := h.leave hp
          rw [leave?_eq_some_iff.mpr ⟨p, hp, rfl⟩, hafter]
          refine ⟨tracks, rfl, ?_⟩
          show s.recorded (.left ((s.node n).depth - 1)) = st.recorded (.left (st.depth - 1))
          rw [h.recorded_eq, h.depth]
  | insert target key value => exact h.insert target key value other
  | lookup reach key filter => exact h.reads (by rw [h.lookup_eq])
  | contains key => exact h.reads (by rw [h.contains_eq])
  | visible => exact h.reads (by rw [h.visible_eq])
  | depth => exact h.reads (by rw [h.depth])
  | isGlobal => exact h.reads (by rw [h.isEmpty_tail])
  | describe => exact h.reads (by rw [h.describe_eq])
  | keyCount => exact h.reads (by rw [h.here_eq])
  | policy => exact h.reads (by rw [h.policy])
  | setPolicy policy => exact ⟨h.setPolicy policy, rfl, rfl⟩
  | setKeyFunction keyFunction => exact ⟨h.setKeyFunction keyFunction, rfl, rfl⟩
  | levels => exact absurd rfl other

/-- A sequence of calls stops at its first fault, in both at the same one. -/
theorem performAll (answer : Answer) (calls : List Call) :
    Agrees n (s.performAll n answer (calls.map Subtype.val)) (st.performAll answer calls) := by
  -- both sides stop at the same call, for up to there they agree
  induction calls generalizing s st answer with
  | nil => exact ⟨h, rfl, rfl⟩
  | cons call rest ih =>
      have first := h.perform call
      rw [List.map_cons, Store.performAll, Stack.performAll, first.outcome]
      cases hout : (st.perform call).outcome with
      | error fault => exact first
      | ok a =>
          have others := ih first.tracks a
          refine ⟨others.tracks, others.outcome, ?_⟩
          show _ ++ _ = _ ++ _
          rw [first.events, others.events]

end Tracks

end Store

namespace Session

open Store

/-! ## §4. Programs. -/

/-- A session in which a name stands for a node that tracks a stack. -/
structure Follows (name : String) (n : NodeId) (s : Session) (st : Stack) : Prop where
  named : s.tables.find? name = some n
  tracks : Tracks s.store n st

/-- Two runs of a body with the same steps, the same record and the same
failure. -/
structure BodyAgrees (name : String) (n : NodeId) (run : BodyRun) (reference : StackRun) :
    Prop where
  follows : Follows name n run.session reference.stack
  steps : run.steps = reference.steps
  events : run.events = reference.events
  fault : run.fault = reference.fault

variable {name : String} {n : NodeId}

/-- One statement of calls, through the name of the handle. -/
theorem follows_callTable {s : Session} {st : Stack} (h : Follows name n s st)
    (calls : List Call) :
    Follows name n (s.callTable name (calls.map Subtype.val)).1 (st.performAll .done calls).stack
    ∧ (s.callTable name (calls.map Subtype.val)).2
        = .plain (st.performAll .done calls).outcome (st.performAll .done calls).events := by
  have all := h.tracks.performAll .done calls
  rw [callTable, withTable, h.named]
  refine ⟨⟨h.named, all.tracks⟩, ?_⟩
  show Step.plain _ _ = _
  rw [all.outcome, all.events]

/-- The end of a block: one exit in both, and the same report of how it ended. -/
theorem follows_closeBlock {run : BodyRun} {reference : StackRun}
    (h : BodyAgrees name n run reference) (opened : List Event) (depth : Int)
    (catches : Bool) :
    Follows name n (closeBlock run n n opened depth catches).1
        (Stack.closeBlock reference opened depth catches).1
    ∧ (closeBlock run n n opened depth catches).2
        = (Stack.closeBlock reference opened depth catches).2 := by
  have left : Agrees n (run.session.store.perform n .leave)
      (reference.stack.perform Call.leave) := h.follows.tracks.perform Call.leave
  refine ⟨⟨h.follows.named, left.tracks⟩, ?_⟩
  -- a failure to leave comes first, then the body's own failure, then the depth
  cases hleft : (reference.stack.perform Call.leave).outcome with
  | error fault =>
      simp only [closeBlock, Stack.closeBlock, left.outcome, left.events, hleft, h.steps,
        h.events]
  | ok answer =>
      cases hfault : reference.fault with
      | some fault =>
          simp only [closeBlock, Stack.closeBlock, left.outcome, left.events, hleft, h.steps,
            h.events, h.fault, hfault]
      | none =>
          simp only [closeBlock, Stack.closeBlock, left.outcome, left.events, hleft, h.steps,
            h.events, h.fault, hfault, left.tracks.depth]

mutual

/-- **Every statement comes to the same step on both sides.** -/
theorem follows_execute {s : Session} {st : Stack} (h : Follows name n s st)
    (statement : Statement) :
    Follows name n (s.execute (statement.on name)).1 (st.execute statement).1
    ∧ (s.execute (statement.on name)).2 = (st.execute statement).2 := by
  match statement with
  | .table calls =>
      rw [Statement.on, execute, Stack.execute]
      exact follows_callTable h calls
  | .assign object attr value =>
      rw [Statement.on, execute, Stack.execute]
      exact ⟨⟨h.named, h.tracks.assign object attr value⟩, rfl⟩
  | .throw message =>
      rw [Statement.on, execute, Stack.execute]
      exact ⟨h, rfl⟩
  | .block catches body =>
      have opened : Agrees n (s.store.perform n .enter) (st.perform Call.enter) :=
        h.tracks.perform Call.enter
      have inside := follows_executeBody
        (s := { s with store := (s.store.perform n .enter).store })
        ⟨h.named, opened.tracks⟩ catches body
      rw [Statement.on, execute, Stack.execute, h.named]
      simp only [contextTable]
      rw [opened.events, opened.tracks.depth]
      exact follows_closeBlock inside _ _ catches

/-- So does every body of a block. -/
theorem follows_executeBody {s : Session} {st : Stack} (h : Follows name n s st)
    (catches : Bool) (body : List Statement) :
    BodyAgrees name n (s.executeBody catches (Statement.onAll name body))
      (st.executeBody catches body) := by
  match body with
  | [] =>
      rw [Statement.onAll, executeBody, Stack.executeBody]
      exact ⟨h, rfl, rfl, rfl⟩
  | statement :: rest =>
      obtain ⟨first, hstep⟩ := follows_execute h statement
      have others := follows_executeBody first catches rest
      rw [Statement.onAll, executeBody, Stack.executeBody]
      generalize s.execute (Statement.on name statement) = reply at first hstep others ⊢
      generalize st.execute statement = reference at first hstep others ⊢
      obtain ⟨after, step⟩ := reply
      obtain ⟨after', step'⟩ := reference
      obtain rfl : step = step' := hstep
      have goesOn : BodyAgrees name n
          { after.executeBody catches (Statement.onAll name rest) with
            steps := step :: (after.executeBody catches (Statement.onAll name rest)).steps
            events :=
              step.events ++ (after.executeBody catches (Statement.onAll name rest)).events }
          { after'.executeBody catches rest with
            steps := step :: (after'.executeBody catches rest).steps
            events := step.events ++ (after'.executeBody catches rest).events } :=
        ⟨others.follows, congrArg _ others.steps, congrArg _ others.events, others.fault⟩
      -- the body ends early only at a failure that the block does not catch
      cases catches with
      | true => exact goesOn
      | false =>
          simp only
          cases step.outcome with
          | ok answer => exact goesOn
          | error fault => exact ⟨first, rfl, rfl, rfl⟩

end

/-- **A whole program replies the same**, statement by statement. -/
theorem follows_executeAll {s : Session} {st : Stack} (h : Follows name n s st)
    (program : List Statement) :
    (s.executeAll (Statement.onAll name program)).2 = (st.executeAll program).2 := by
  induction program generalizing s st with
  | nil => rfl
  | cons statement rest ih =>
      obtain ⟨first, hstep⟩ := follows_execute h statement
      show _ :: _ = _ :: _
      rw [hstep, ih first]

/-- A new table starts out as a stack of one empty scope. -/
theorem follows_createTable {s : Session} (h : s.Bound) (name : String)
    (keyFunction : KeyFunction) (policy : Value) :
    Follows name s.store.nodes.length (s.createTable name keyFunction policy).1
      (.start s.store.objects s.store.journaling keyFunction policy) := by
  refine ⟨?_, h.reachable.linked.tracks_create keyFunction policy⟩
  show (s.tables.bind name s.store.nodes.length).find? name = _
  rw [Bindings.find?_bind, if_pos rfl]

/-- **A handle refines a stack of scopes.**  Whatever was done before, a table
that is then made and from there on used through its handle gives, statement by
statement, the answers, the failures and the records of the reference: results
with all their entries, errors with key, existing symbol and scope, and the
steps of nested blocks. -/
theorem handle_refines_stack (objects : Objects) (journaling : Bool) (earlier : List Command)
    (name : String) (keyFunction : KeyFunction) (policy : Value) (program : List Statement) :
    let s := ((start objects journaling).executeAll earlier).1
    (s.executeAll (.create name keyFunction policy :: Statement.onAll name program)).2
      = .plain (.ok .done) []
        :: ((Stack.start s.store.objects s.store.journaling keyFunction policy).executeAll
              program).2 := by
  intro s
  have bound : s.Bound := (leadsTo_executeAll (bound_start objects journaling) earlier).2
  have made := follows_createTable bound name keyFunction policy
  have hcreate : s.execute (.create name keyFunction policy)
      = s.createTable name keyFunction policy := by rw [execute]
  rw [executeAll, hcreate]
  show (s.createTable name keyFunction policy).2
    :: ((s.createTable name keyFunction policy).1.executeAll (Statement.onAll name program)).2 = _
  rw [follows_executeAll made program]
  rfl

end Session

end ScopeChain
