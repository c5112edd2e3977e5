/-
  ScopeChain.Operation
  ────────────────────
  **THE OPERATIONS OF A TABLE.**

  An `Operation` is one call on one node, with its arguments.  `Store.perform`
  carries it out and replies with the store afterwards, the answer or the
  failure, and the events for the journal.  Several operations on one node run
  up to the first failure (`Store.performAll`); what was done before it stays.
-/
import ScopeChain.Insertion
import ScopeChain.ErrorReport

namespace ScopeChain

/-! ## §1. Operations and answers. -/

/-- One call on a table. -/
inductive Operation where
  | enter
  | leave
  /-- Insert a symbol; an absent value stands for the key. -/
  | insert (target : Target) (key value : Value)
  | lookup (reach : Reach) (key : Value) (filter : Filter)
  | contains (key : Value)
  /-- All visible entries at once. -/
  | visible
  | depth
  | isGlobal
  /-- The one-line description of a table. -/
  | describe
  /-- How many keys the current scope has. -/
  | keyCount
  /-- The whole chain, scope by scope. -/
  | levels
  | policy
  | setPolicy (policy : Value)
  | setKeyFunction (keyFunction : KeyFunction)

/-- One node of a chain, as a listing shows it. -/
structure Level where
  depth : Int
  policy : Value
  buckets : ScopeMap
  deriving Repr

/-- What an operation or a command answers. -/
inductive Answer where
  | done
  | flag (b : Bool)
  | number (i : Int)
  | text (s : String)
  | value (v : Value)
  | values (vs : List Value)
  | levels (ls : List Level)
  /-- Whether two names stand for one table, and whether the two are at one
  scope. -/
  | sameness (table scope : Bool)
  | report (r : ErrorReport)

/-- What carrying out operations comes to. -/
structure Reply where
  store : Store
  outcome : Except Fault Answer
  events : List Event

/-! ## §2. Carrying out operations. -/

namespace Store

/-- The one-line description of a table (`__repr__`); its policy shows as plain text. -/
def describe (s : Store) (n : NodeId) : Except Fault String := do
  let policy ← s.objects.display (s.node n).policy
  .ok ("<SymbolTable depth=" ++ toString (s.node n).depth ++ " local_keys="
    ++ toString (s.here n).length ++ " allow_duplicates=" ++ policy ++ ">")

/-- The listing of a chain, innermost scope first. -/
def levels (s : Store) (n : NodeId) : List Level :=
  (s.chain n).map fun m => ⟨(s.node m).depth, (s.node m).policy, s.here m⟩

/-- The events that a change of scope leaves, where a journal is kept. -/
def recorded (s : Store) (event : Event) : List Event :=
  if s.journaling then [event] else []

/-- Carry out one operation on a node. -/
def perform (s : Store) (n : NodeId) : Operation → Reply
  | .enter => ⟨s.enter n, .ok .done, s.recorded (.entered ((s.node n).depth + 1))⟩
  | .leave =>
      match s.leave? n with
      | none => ⟨s, .error .underflow, s.recorded .atRoot⟩
      | some after => ⟨after, .ok .done, s.recorded (.left ((s.node n).depth - 1))⟩
  | .insert target key value =>
      let done := s.insert n target key value
      match done.fault with
      | some fault => ⟨done.store, .error fault, done.events⟩
      | none => ⟨done.store, .ok .done, done.events⟩
  | .lookup reach key filter => ⟨s, (s.lookup n reach key filter).map .values, []⟩
  | .contains key => ⟨s, (s.contains n key).map .flag, []⟩
  | .visible => ⟨s, .ok (.values (s.visible n)), []⟩
  | .depth => ⟨s, .ok (.number (s.node n).depth), []⟩
  | .isGlobal => ⟨s, .ok (.flag (s.node n).parent.isNone), []⟩
  | .describe => ⟨s, (s.describe n).map .text, []⟩
  | .keyCount => ⟨s, .ok (.number (s.here n).length), []⟩
  | .levels => ⟨s, .ok (.levels (s.levels n)), []⟩
  | .policy => ⟨s, .ok (.value (s.node n).policy), []⟩
  | .setPolicy policy => ⟨s.setPolicy n policy, .ok .done, []⟩
  | .setKeyFunction keyFunction => ⟨s.setKeyFunction n keyFunction, .ok .done, []⟩

/-- At the top of a chain leaving fails, and the failure is recorded. -/
theorem perform_leave_of_top {s : Store} {n : NodeId} (hp : (s.node n).parent = none) :
    s.perform n .leave = ⟨s, .error .underflow, s.recorded .atRoot⟩ := by
  simp only [perform, leave?_eq_none_iff.mpr hp]

theorem perform_leave_of_link {s : Store} {n p : NodeId} (hp : (s.node n).parent = some p) :
    s.perform n .leave
      = ⟨s.rejoin n p, .ok .done, s.recorded (.left ((s.node n).depth - 1))⟩ := by
  simp only [perform, leave?_eq_some_iff.mpr ⟨p, hp, rfl⟩]

theorem perform_insert_store (s : Store) (n : NodeId) (target : Target) (key value : Value) :
    (s.perform n (.insert target key value)).store = (s.insert n target key value).store := by
  simp only [perform]
  split <;> rfl

/-- An insertion is done where it is decided without a clash and can be recorded. -/
theorem perform_insert_done_iff {s : Store} {n : NodeId} {target : Target} {key value : Value} :
    (s.perform n (.insert target key value)).outcome = .ok .done
      ↔ ∃ f events, s.filing n target key value = .ok f ∧ f.clash = none
          ∧ s.insertionRecord n target f = .ok events := by
  rw [← insert_fault_eq_none_iff]
  simp only [perform]
  split
  next fault hfault => simp [hfault]
  next hfault => simp [hfault]

/-- Where it is not done, its reply is its fault. -/
theorem perform_insert_error_iff {s : Store} {n : NodeId} {target : Target} {key value : Value}
    {fault : Fault} :
    (s.perform n (.insert target key value)).outcome = .error fault
      ↔ (s.insert n target key value).fault = some fault := by
  simp only [perform]
  split
  next other hother => simp [hother]
  next hnone => simp [hnone]

/-- Carry out operations on a node one after the other, up to the first
failure; without one the answer is that of the last. -/
def performAll (s : Store) (n : NodeId) (answer : Answer) : List Operation → Reply
  | [] => ⟨s, .ok answer, []⟩
  | op :: rest =>
      let first := s.perform n op
      match first.outcome with
      | .error _ => first
      | .ok a =>
          let others := performAll first.store n a rest
          { others with events := first.events ++ others.events }

end Store

end ScopeChain
