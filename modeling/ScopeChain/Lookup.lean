/-
  ScopeChain.Lookup
  ─────────────────
  **FINDING ENTRIES ALONG THE CHAIN.**

  A lookup derives its key at the table it is called on, even where it answers
  from an enclosing scope.  The first scope with any match answers alone.

      Store.lookup           — matches within a reach
      Store.contains         — whether a key has any entry along the chain
      Store.visible          — every entry along the chain, innermost first
-/
import ScopeChain.Store

namespace ScopeChain

/-- How far a lookup goes. -/
inductive Reach where
  /-- The scope the table is at (`local_lookup`). -/
  | current
  /-- From there outwards, until a scope answers (`lookup`). -/
  | chain
  /-- The outermost scope (`global_lookup`). -/
  | outermost
  deriving DecidableEq, Repr

/-- The first of several lists that is not empty. -/
def firstNonempty {α : Type} : List (List α) → List α
  | [] => []
  | [] :: rest => firstNonempty rest
  | (x :: xs) :: _ => x :: xs

theorem firstNonempty_eq_find? {α : Type} (ls : List (List α)) :
    firstNonempty ls = (ls.find? fun l => !l.isEmpty).getD [] := by
  induction ls with
  | nil => rfl
  | cons l rest ih =>
      cases l with
      | nil => exact ih
      | cons x xs => rfl

theorem firstNonempty_mem_or_nil {α : Type} (ls : List (List α)) :
    firstNonempty ls ∈ ls ∨ firstNonempty ls = [] := by
  induction ls with
  | nil => exact .inr rfl
  | cons l rest ih =>
      cases l with
      | nil => exact ih.imp (List.mem_cons_of_mem _) id
      | cons x xs => exact .inl List.mem_cons_self

/-- What keeps empty lists apart from the others may be done before the choice or after it. -/
theorem firstNonempty_map {α β : Type} {f : List α → List β} (nil : f [] = [])
    (cons : ∀ x xs, f (x :: xs) ≠ []) (ls : List (List α)) :
    firstNonempty (ls.map f) = f (firstNonempty ls) := by
  induction ls with
  | nil => exact nil.symm
  | cons l rest ih =>
      rw [List.map_cons]
      cases l with
      | nil =>
          rw [nil]
          exact ih
      | cons x xs =>
          obtain ⟨y, ys, hy⟩ := List.exists_cons_of_ne_nil (cons x xs)
          rw [firstNonempty, hy]
          rfl

theorem firstNonempty_append_of_nil {α : Type} {front : List (List α)}
    (h : ∀ l ∈ front, l = []) (rest : List (List α)) :
    firstNonempty (front ++ rest) = firstNonempty rest := by
  induction front with
  | nil => rfl
  | cons l front ih =>
      rw [h l List.mem_cons_self]
      exact ih fun l' hl' => h l' (List.mem_cons_of_mem _ hl')

namespace Store

/-- The key of a value at a node. -/
def addressAt (s : Store) (n : NodeId) (key : Value) : Except Fault Value :=
  s.objects.addressOf (s.node n).keyFunction key

/-- The entries of a node's own scope under a key. -/
def matchesHere (s : Store) (k : Value) (f : Filter) (n : NodeId) : List Value :=
  (s.here n).matching s.objects k f

/-- The entries under a key within a reach. -/
def matchesWithin (s : Store) (n : NodeId) (k : Value) (f : Filter) : Reach → List Value
  | .current => s.matchesHere k f n
  | .chain => firstNonempty ((s.chain n).map (s.matchesHere k f))
  | .outermost => (s.scopes.read (s.node n).root).matching s.objects k f

/-- Look a key up within a reach. -/
def lookup (s : Store) (n : NodeId) (reach : Reach) (key : Value) (f : Filter) :
    Except Fault (List Value) :=
  match s.addressAt n key with
  | .error fault => .error fault
  | .ok k => .ok (s.matchesWithin n k f reach)

/-- Whether a key has an entry anywhere along the chain (`__contains__`). -/
def contains (s : Store) (n : NodeId) (key : Value) : Except Fault Bool :=
  match s.lookup n .chain key .all with
  | .error fault => .error fault
  | .ok found => .ok (!found.isEmpty)

/-- Every entry along the chain, innermost first, as `__iter__` yields them at rest. -/
def visible (s : Store) (n : NodeId) : List Value :=
  (s.chain n).flatMap fun m => (s.here m).entries

end Store

end ScopeChain
