/-
  ScopeChain.Store
  ────────────────
  **NODES, SHARED SCOPES AND THE CHAIN BETWEEN THEM.**

  A table is a NODE with the number of the scope it is at, a link to the node of
  the enclosing scope, and the number of the outermost scope.  Several nodes can be
  at one scope and see the same entries.

  Entering a scope leaves the node where callers hold it: a fresh node takes over
  its place, and the node moves to a fresh empty scope inside.  Leaving moves it
  back to the place that its parent has AT THAT MOMENT; the parent stays.

      Store.create           — a new table at a scope of its own
      Store.enter            — splice a fresh scope in below a node
      Store.leave?           — move a node to its enclosing scope
      Store.chain            — the nodes from one outwards
      Store.view             — the scopes they are at
-/
import ScopeChain.KeyFunction
import ScopeChain.ScopeMap
import ScopeChain.Arena

namespace ScopeChain

/-! ## §1. Nodes and stores. -/

abbrev NodeId := Nat

abbrev ScopeId := Nat

/-- A table, or the parent of one (`SymbolTable`). -/
structure Node where
  /-- The scope the node is at (`symbols`). -/
  scope : ScopeId
  parent : Option NodeId
  /-- The outermost scope (`_global_symbols`). -/
  root : ScopeId
  /-- A counter of scopes entered and not left; it is copied, never recomputed. -/
  depth : Int
  /-- The duplicate policy (`allow_duplicates`); its truth counts. -/
  policy : Value
  keyFunction : KeyFunction

instance : Inhabited Node := ⟨⟨0, none, 0, 0, .bool true, KeyFunction.byDefault⟩⟩

/-- Everything that outlives an operation: the declared objects, the scopes, the
nodes, and whether operations are recorded in a journal. -/
structure Store where
  objects : Objects
  scopes : Arena ScopeMap
  nodes : Arena Node
  journaling : Bool

namespace Store

/-- A store with objects and no table yet. -/
def empty (objects : Objects) (journaling : Bool) : Store := ⟨objects, [], [], journaling⟩

/-- A node's record. -/
def node (s : Store) (n : NodeId) : Node := s.nodes.read n

/-- The entries of the scope that a node is at. -/
def here (s : Store) (n : NodeId) : ScopeMap := s.scopes.read (s.node n).scope

/-- Whether a node's policy, as it is now, lets entries share a key. -/
def allowsDuplicates (s : Store) (n : NodeId) : Bool := s.objects.truth (s.node n).policy

/-! ## §2. Opening and closing scopes. -/

/-- Make a table at a fresh empty scope, which is its outermost one; of the policy given
only the truth is kept (the constructor of `SymbolTable`).  It is node `s.nodes.length`. -/
def create (s : Store) (keyFunction : KeyFunction) (policy : Value) : Store :=
  let scope := s.scopes.length
  { s with
    scopes := s.scopes.push []
    nodes := s.nodes.push
      ⟨scope, none, scope, 0, .bool (s.objects.truth policy), keyFunction⟩ }

/-- Enter a scope at a node (`enter_scope`).  A fresh node keeps the place the node had, with
the truth of its policy; the node moves to a fresh empty scope just inside. -/
def enter (s : Store) (n : NodeId) : Store :=
  let old := s.node n
  let outer : Node := { old with policy := .bool (s.objects.truth old.policy) }
  let inner : Node :=
    { old with
      scope := s.scopes.length
      parent := some s.nodes.length
      depth := old.depth + 1 }
  { s with
    scopes := s.scopes.push []
    nodes := (s.nodes.push outer).write n inner }

/-- Leave the scope of a node (`exit_scope`), unless it has no enclosing one: the node takes
the scope and the link that its parent has now. -/
def leave? (s : Store) (n : NodeId) : Option Store :=
  let old := s.node n
  old.parent.map fun p =>
    let outer := s.node p
    { s with
      nodes := s.nodes.write n
        { old with scope := outer.scope, parent := outer.parent, depth := old.depth - 1 } }

/-- Assign a policy, as it is given. -/
def setPolicy (s : Store) (n : NodeId) (policy : Value) : Store :=
  { s with nodes := s.nodes.write n { s.node n with policy := policy } }

/-- Assign a key function. -/
def setKeyFunction (s : Store) (n : NodeId) (keyFunction : KeyFunction) : Store :=
  { s with nodes := s.nodes.write n { s.node n with keyFunction := keyFunction } }

/-- Assign an attribute of a declared object. -/
def assign (s : Store) (id : ObjectId) (a : Attribute) (v : Value) : Store :=
  { s with objects := s.objects.assign id a v }

/-! ## §3. What a change leaves behind. -/

/-- A fresh empty scope has no entries, like a scope that is not there. -/
@[simp] theorem read_push_nil (a : Arena ScopeMap) (i : ScopeId) :
    (Arena.push a []).read i = a.read i :=
  Arena.read_push_default a i

@[simp] theorem read_scopes_empty (objects : Objects) (journaling : Bool) (i : ScopeId) :
    (Store.empty objects journaling).scopes.read i = [] :=
  rfl

theorem node_create (s : Store) (keyFunction : KeyFunction) (policy : Value) (m : NodeId) :
    (s.create keyFunction policy).node m
      = if m = s.nodes.length then
          ⟨s.scopes.length, none, s.scopes.length, 0, .bool (s.objects.truth policy), keyFunction⟩
        else s.node m := by
  show Arena.read (Arena.push s.nodes _) m = _
  rw [Arena.read_push]
  rfl

/-- Entering moves the node and makes one that keeps its place. -/
theorem node_enter (s : Store) {n : NodeId} (hn : n < s.nodes.length) (m : NodeId) :
    (s.enter n).node m
      = if m = n then
          { s.node n with
            scope := s.scopes.length
            parent := some s.nodes.length
            depth := (s.node n).depth + 1 }
        else if m = s.nodes.length then
          { s.node n with policy := .bool (s.objects.truth (s.node n).policy) }
        else s.node m := by
  have hlt : n < (Arena.push s.nodes
      { s.node n with policy := .bool (s.objects.truth (s.node n).policy) }).length := by
    rw [Arena.length_push]
    exact Nat.lt_succ_of_lt hn
  show Arena.read (Arena.write (Arena.push s.nodes _) n _) m = _
  rw [Arena.read_write _ _ hlt, Arena.read_push]
  rfl

/-- A node moved to the place of another, which is one scope further out. -/
def rejoin (s : Store) (n p : NodeId) : Store :=
  { s with
    nodes := s.nodes.write n
      { s.node n with
        scope := (s.node p).scope
        parent := (s.node p).parent
        depth := (s.node n).depth - 1 } }

theorem leave?_eq_some_iff {s t : Store} {n : NodeId} :
    s.leave? n = some t ↔ ∃ p, (s.node n).parent = some p ∧ t = s.rejoin n p := by
  unfold leave?
  rw [Option.map_eq_some_iff]
  constructor
  · rintro ⟨p, hp, rfl⟩
    exact ⟨p, hp, rfl⟩
  · rintro ⟨p, hp, rfl⟩
    exact ⟨p, hp, rfl⟩

theorem leave?_eq_none_iff {s : Store} {n : NodeId} :
    s.leave? n = none ↔ (s.node n).parent = none := by
  unfold leave?
  rw [Option.map_eq_none_iff]

/-- Leaving moves the node alone. -/
theorem node_rejoin (s : Store) {n : NodeId} (p : NodeId) (hn : n < s.nodes.length)
    (m : NodeId) :
    (s.rejoin n p).node m
      = if m = n then
          { s.node n with
            scope := (s.node p).scope
            parent := (s.node p).parent
            depth := (s.node n).depth - 1 }
        else s.node m :=
  Arena.read_write _ _ hn m

theorem node_setPolicy (s : Store) {n : NodeId} (policy : Value) (hn : n < s.nodes.length)
    (m : NodeId) :
    (s.setPolicy n policy).node m
      = if m = n then { s.node n with policy := policy } else s.node m :=
  Arena.read_write _ _ hn m

theorem node_setKeyFunction (s : Store) {n : NodeId} (keyFunction : KeyFunction)
    (hn : n < s.nodes.length) (m : NodeId) :
    (s.setKeyFunction n keyFunction).node m
      = if m = n then { s.node n with keyFunction := keyFunction } else s.node m :=
  Arena.read_write _ _ hn m

/-! ## §4. The chain. -/

/-- The first nodes from one outwards, at most `limit` of them. -/
def chainWithin (s : Store) : Nat → NodeId → List NodeId
  | 0, _ => []
  | limit + 1, n =>
      match (s.node n).parent with
      | none => [n]
      | some p => n :: chainWithin s limit p

/-- The nodes from one outwards.  Parent links never return to a node, so there
are no more of them than nodes. -/
def chain (s : Store) (n : NodeId) : List NodeId := s.chainWithin s.nodes.length n

/-- The scopes that the nodes of a chain are at, innermost first. -/
def view (s : Store) (n : NodeId) : List ScopeId :=
  (s.chain n).map fun m => (s.node m).scope

/-- The nodes strictly outside one. -/
def enclosing (s : Store) (n : NodeId) : List NodeId :=
  match (s.node n).parent with
  | none => []
  | some p => s.chain p

end Store

end ScopeChain
