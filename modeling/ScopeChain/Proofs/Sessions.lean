/-
  ScopeChain.Proofs.Sessions
  ──────────────────────────
  **PROGRAMS OVER NAMES REACH NO OTHER STORES.**

  A session works with names, blocks and reused contexts.  Whatever it does to
  its store is a run: each command does some actions on nodes that there are,
  a block included, however its body ends.  So what holds of every reachable
  store holds at the end of every program, and on the way through it.

      Bound                  — names stand for nodes that there are
      LeadsTo                — one session comes out of another by a run
      leadsTo_execute        — every command does
      reachable_executeAll   — every program ends in a reachable store
-/
import ScopeChain.Session
import ScopeChain.Proofs.Linking

namespace ScopeChain

namespace Session

open Store

/-! ## §1. Sessions with bound names. -/

/-- The store is reachable, and every name of a table or of a context stands for
a node that there is. -/
structure Bound (s : Session) : Prop where
  reachable : s.store.Reachable
  tables : ∀ {name n}, s.tables.find? name = some n → n < s.store.nodes.length
  contexts : ∀ {name n}, s.contexts.find? name = some n → n < s.store.nodes.length

/-- One session comes out of another by a run that leaves names bound. -/
def LeadsTo (s t : Session) : Prop :=
  (∃ actions, Runs s.store actions t.store) ∧ t.Bound

theorem Bound.leadsTo {s : Session} (h : s.Bound) : s.LeadsTo s := ⟨⟨[], .nil _⟩, h⟩

/-- Two stretches of a run are a run. -/
theorem LeadsTo.trans {s t u : Session} (h₁ : s.LeadsTo t) (h₂ : t.LeadsTo u) :
    s.LeadsTo u := by
  obtain ⟨⟨first, run₁⟩, -⟩ := h₁
  obtain ⟨⟨second, run₂⟩, hu⟩ := h₂
  exact ⟨⟨first ++ second, run₁.append run₂⟩, hu⟩

/-- A new session has no names. -/
theorem bound_start (objects : Objects) (journaling : Bool) :
    (start objects journaling).Bound :=
  ⟨⟨objects, journaling, [], .nil _⟩, (fun h => nomatch h), (fun h => nomatch h)⟩

/-- A run of the store alone leaves the names bound. -/
theorem Bound.runs {s : Session} (h : s.Bound) {actions : List Action} {t : Store}
    (run : Runs s.store actions t) : s.LeadsTo { s with store := t } :=
  ⟨⟨actions, run⟩, h.reachable.runs run,
    fun hfind => Nat.lt_of_lt_of_le (h.tables hfind) run.nodes_length_le,
    fun hfind => Nat.lt_of_lt_of_le (h.contexts hfind) run.nodes_length_le⟩

/-- A name given to a node that there is stands for one that there is. -/
theorem lt_of_find?_bind {b : Bindings NodeId} {name other : String} {m n limit : NodeId}
    (hb : ∀ {name n}, b.find? name = some n → n < limit) (hm : m < limit)
    (hfind : (b.bind name m).find? other = some n) : n < limit := by
  rw [Bindings.find?_bind] at hfind
  split at hfind
  next =>
    cases hfind
    exact hm
  next => exact hb hfind

/-- A name may be given to any node there is. -/
theorem Bound.bindTable {s : Session} (h : s.Bound) (name : String) {n : NodeId}
    (hn : n < s.store.nodes.length) : s.LeadsTo { s with tables := s.tables.bind name n } :=
  ⟨⟨[], .nil _⟩, h.reachable, fun hfind => lt_of_find?_bind h.tables hn hfind, h.contexts⟩

theorem Bound.bindContext {s : Session} (h : s.Bound) (name : String) {n : NodeId}
    (hn : n < s.store.nodes.length) :
    s.LeadsTo { s with contexts := s.contexts.bind name n } :=
  ⟨⟨[], .nil _⟩, h.reachable, h.tables, fun hfind => lt_of_find?_bind h.contexts hn hfind⟩

/-- Walks are not nodes: whatever they are bound to, names lead to nodes. -/
theorem Bound.setWalks {s : Session} (h : s.Bound) (walks : Bindings Walk) :
    s.LeadsTo { s with walks := walks } :=
  ⟨⟨[], .nil _⟩, h.reachable, h.tables, h.contexts⟩

/-! ## §2. Single commands. -/

/-- A command on a named table needs to be followed only where the name stands
for a node. -/
theorem Bound.withTable {s : Session} (h : s.Bound) (name : String)
    {f : NodeId → Session × Step}
    (hf : ∀ n, n < s.store.nodes.length → s.LeadsTo (f n).1) :
    s.LeadsTo (s.withTable name f).1 := by
  unfold Session.withTable
  cases hfind : s.tables.find? name with
  | none => exact h.leadsTo
  | some n => exact hf n (h.tables hfind)

/-- Calls are operations on the node that the name stands for, if it stands for one.
-/
theorem leadsTo_callTable {s : Session} (h : s.Bound) (on : String)
    (operations : List Operation) : s.LeadsTo (s.callTable on operations).1 := by
  refine h.withTable on fun n hn => ?_
  obtain ⟨done, -, run, -⟩ := exists_runs_performAll hn operations .done
  exact h.runs run

/-- The name is bound to the node that was made a moment before. -/
theorem leadsTo_createTable {s : Session} (h : s.Bound) (name : String)
    (keyFunction : KeyFunction) (policy : Value) :
    s.LeadsTo (s.createTable name keyFunction policy).1 := by
  have run : Runs s.store [.create keyFunction policy] (s.store.create keyFunction policy) :=
    .single trivial
  have made := h.runs run
  refine made.trans (made.2.bindTable name ?_)
  show s.store.nodes.length < (s.store.create keyFunction policy).nodes.length
  rw [length_nodes_create]
  exact Nat.lt_succ_self _

/-- The parent of a node is a node, for reachable stores are linked. -/
theorem leadsTo_bindParent {s : Session} (h : s.Bound) (on name : String) :
    s.LeadsTo (s.bindParent on name).1 := by
  refine h.withTable on fun n hn => ?_
  split
  next => exact h.leadsTo
  next p hp => exact h.bindTable name (h.reachable.linked.parent_lt hn hp)

theorem leadsTo_bindContext {s : Session} (h : s.Bound) (on name : String) :
    s.LeadsTo (s.bindContext on name).1 :=
  h.withTable on fun _ hn => h.bindContext name hn

theorem leadsTo_bindWalk {s : Session} (h : s.Bound) (on name : String) :
    s.LeadsTo (s.bindWalk on name).1 :=
  h.withTable on fun _ _ => h.setWalks _

/-- A step of a walk reads the store and changes the walk. -/
theorem leadsTo_stepWalk {s : Session} (h : s.Bound) (name : String) :
    s.LeadsTo (s.stepWalk name).1 := by
  unfold stepWalk
  split
  next => exact h.leadsTo
  next => exact h.setWalks _

theorem leadsTo_compareTables {s : Session} (h : s.Bound) (a b : String) :
    s.LeadsTo (s.compareTables a b).1 :=
  h.withTable a fun _ _ => h.withTable b fun _ _ => h.leadsTo

/-- A context stands for a node that there is. -/
theorem Bound.contextTable {s : Session} (h : s.Bound) {on n : NodeId}
    {context : Option String} (hon : on < s.store.nodes.length)
    (hcontext : s.contextTable on context = .ok n) : n < s.store.nodes.length := by
  rcases of_contextTable_eq_ok hcontext with rfl | ⟨name, hfind⟩
  · exact hon
  · exact h.contexts hfind

/-- Closing a block is one exit, of the node whose context it was. -/
theorem leadsTo_closeBlock {run : BodyRun} (h : run.session.Bound) (on : NodeId)
    {context : NodeId} (hcontext : context < run.session.store.nodes.length)
    (opened : List Event) (depth : Int) (catches : Bool) :
    run.session.LeadsTo (closeBlock run on context opened depth catches).1 :=
  h.runs (.single (a := .call context .leave) hcontext)

/-! ## §3. Programs. -/

mutual

/-- **Every command leads its session on by a run.** -/
theorem leadsTo_execute {s : Session} (h : s.Bound) (command : Command) :
    s.LeadsTo (s.execute command).1 := by
  match command with
  | .table on operations =>
      rw [execute]
      exact leadsTo_callTable h on operations
  | .create name keyFunction policy =>
      rw [execute]
      exact leadsTo_createTable h name keyFunction policy
  | .bindParent on name =>
      rw [execute]
      exact leadsTo_bindParent h on name
  | .bindContext on name =>
      rw [execute]
      exact leadsTo_bindContext h on name
  | .bindWalk on name =>
      rw [execute]
      exact leadsTo_bindWalk h on name
  | .step walk =>
      rw [execute]
      exact leadsTo_stepWalk h walk
  | .compare a b =>
      rw [execute]
      exact leadsTo_compareTables h a b
  | .assign object attr value =>
      rw [execute]
      exact h.runs (.single (a := .assign object attr value) trivial)
  | .throw _ | .defaultKey _ | .display _ | .inspect _ | .equal _ _ | .attributes _
  | .report _ _ =>
      rw [execute]
      exact h.leadsTo
  | .block on context catches body =>
      rw [execute]
      cases hfind : s.tables.find? on with
      | none => exact h.leadsTo
      | some table =>
          simp only
          cases hcontext : s.contextTable table context with
          | error fault => exact h.leadsTo
          | ok n =>
              have hn := h.contextTable (h.tables hfind) hcontext
              have opened := h.runs (.single (a := .call n .enter) hn)
              -- the context's node is there after the body, for nodes stay
              have inside := leadsTo_executeBody opened.2 catches body
              refine opened.trans (inside.trans (leadsTo_closeBlock inside.2 table ?_ _ _ _))
              obtain ⟨⟨_, first⟩, -⟩ := opened
              obtain ⟨⟨_, second⟩, -⟩ := inside
              exact Nat.lt_of_lt_of_le hn
                (Nat.le_trans first.nodes_length_le second.nodes_length_le)

/-- The body of a block leads its session on by a run, up to where it ends. -/
theorem leadsTo_executeBody {s : Session} (h : s.Bound) (catches : Bool)
    (body : List Command) : s.LeadsTo (s.executeBody catches body).session := by
  match body with
  | [] =>
      rw [executeBody]
      exact h.leadsTo
  | command :: rest =>
      have first := leadsTo_execute h command
      rw [executeBody]
      split
      next after step hstep =>
        rw [hstep] at first
        split
        next => exact first
        next => exact first.trans (leadsTo_executeBody first.2 _ rest)

end

/-- **Every program keeps names bound to nodes.** -/
theorem leadsTo_executeAll {s : Session} (h : s.Bound) (program : List Command) :
    s.LeadsTo (s.executeAll program).1 := by
  induction program generalizing s with
  | nil => exact h.leadsTo
  | cons command rest ih =>
      have first := leadsTo_execute h command
      exact first.trans (ih first.2)

/-- **Every program ends in a reachable store.** -/
theorem reachable_executeAll (objects : Objects) (journaling : Bool) (program : List Command) :
    ((start objects journaling).executeAll program).1.store.Reachable :=
  (leadsTo_executeAll (bound_start objects journaling) program).2.reachable

end Session

end ScopeChain
