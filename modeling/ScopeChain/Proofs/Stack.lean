/-
  ScopeChain.Proofs.Stack
  ───────────────────────
  **THE REFERENCE: A PLAIN STACK OF SCOPES.**

  What a caller with one handle has in mind.  The state is a list of scopes that
  is never empty, innermost first, with the policy and the key function of the
  handle; no scope is shared, nothing is cached and nothing is counted.
  Entering puts an empty scope in front and leaving takes the first one off.
  An insertion goes to the first scope or to the last, and a lookup reads the
  list from the front.

      Stack                  — the state
      Call, Stack.perform    — the operations of a handle
      Statement              — programs over one handle, blocks included
      Stack.execute          — what a statement comes to
      Stack.executeAll       — what a program comes to
-/
import ScopeChain.Session

namespace ScopeChain

/-! ## §1. Stacks. -/

/-- A handle's scopes, innermost first, with its policy and its key function,
over the declared objects. -/
structure Stack where
  objects : Objects
  journaling : Bool
  scopes : List ScopeMap
  nonempty : scopes ≠ []
  policy : Value
  keyFunction : KeyFunction

/-- Where a target lies among so many scopes. -/
def Target.position (count : Nat) : Target → Nat
  | .current => 0
  | .outermost => count - 1

namespace Stack

/-- One empty scope; of the policy only the truth is kept. -/
def start (objects : Objects) (journaling : Bool) (keyFunction : KeyFunction)
    (policy : Value) : Stack :=
  ⟨objects, journaling, [[]], List.cons_ne_nil _ _, .bool (objects.truth policy), keyFunction⟩

/-- How many scopes have been entered and not left. -/
def depth (st : Stack) : Int := st.scopes.length - 1

theorem position_lt (st : Stack) (target : Target) :
    target.position st.scopes.length < st.scopes.length := by
  have hpos : 0 < st.scopes.length := List.length_pos_iff.mpr st.nonempty
  cases target with
  | current => exact hpos
  | outermost =>
      show st.scopes.length - 1 < st.scopes.length
      omega

/-- The first scope or the last. -/
def scopeAt (st : Stack) (target : Target) : ScopeMap :=
  st.scopes.get ⟨target.position st.scopes.length, st.position_lt target⟩

/-- Put an empty scope in front. -/
def enter (st : Stack) : Stack :=
  { st with scopes := [] :: st.scopes, nonempty := List.cons_ne_nil _ _ }

/-- Take the first scope off, unless it is the only one. -/
def leave? (st : Stack) : Option Stack :=
  match st.scopes.tail with
  | [] => none
  | m :: rest => some { st with scopes := m :: rest, nonempty := List.cons_ne_nil _ _ }

theorem leave?_of_cons {st : Stack} {a b : ScopeMap} {rest : List ScopeMap}
    (h : st.scopes = a :: b :: rest) :
    st.leave? = some { st with scopes := b :: rest, nonempty := List.cons_ne_nil _ _ } := by
  rw [leave?, h]
  rfl

theorem leave?_of_singleton {st : Stack} {m : ScopeMap} (h : st.scopes = [m]) :
    st.leave? = none := by
  rw [leave?, h]
  rfl

/-- File a symbol under a key in the first scope or in the last. -/
def file (st : Stack) (target : Target) (key symbol : Value) : Stack :=
  { st with
    scopes := st.scopes.modify (target.position st.scopes.length)
      fun m => m.insert st.objects key symbol
    nonempty := fun h => st.nonempty (List.modify_eq_nil_iff.mp h) }

@[simp] theorem depth_enter (st : Stack) : st.enter.depth = st.depth + 1 := by
  show (([] :: st.scopes : List ScopeMap).length : Int) - 1 = (st.scopes.length : Int) - 1 + 1
  rw [List.length_cons]
  omega

theorem depth_of_leave? {st after : Stack} (h : st.leave? = some after) :
    after.depth = st.depth - 1 := by
  unfold leave? at h
  split at h
  next => cases h
  next m rest htail =>
    cases h
    have hlength := congrArg List.length htail
    rw [List.length_tail, List.length_cons] at hlength
    show ((m :: rest).length : Int) - 1 = (st.scopes.length : Int) - 1 - 1
    rw [List.length_cons]
    omega

/-- Assign an attribute of a declared object. -/
def assign (st : Stack) (id : ObjectId) (attr : Attribute) (value : Value) : Stack :=
  { st with objects := st.objects.assign id attr value }

/-! ## §2. Reading and inserting. -/

/-- The key of a value. -/
def address (st : Stack) (key : Value) : Except Fault Value :=
  st.objects.addressOf st.keyFunction key

/-- The entries under a key: of one scope, or of the first scope from the front
that has any the filter wants. -/
def matchesWithin (st : Stack) (k : Value) (f : Filter) : Reach → List Value
  | .current => (st.scopeAt .current).matching st.objects k f
  | .chain =>
      ((st.scopes.map fun m => m.matching st.objects k f).find? fun found =>
        !found.isEmpty).getD []
  | .outermost => (st.scopeAt .outermost).matching st.objects k f

/-- Look a key up within a reach. -/
def lookup (st : Stack) (reach : Reach) (key : Value) (f : Filter) :
    Except Fault (List Value) :=
  match st.address key with
  | .error fault => .error fault
  | .ok k => .ok (st.matchesWithin k f reach)

/-- Whether a key has an entry in any scope. -/
def contains (st : Stack) (key : Value) : Except Fault Bool :=
  match st.lookup .chain key .all with
  | .error fault => .error fault
  | .ok found => .ok (!found.isEmpty)

/-- The one-line description of a table. -/
def describe (st : Stack) : Except Fault String := do
  let policy ← st.objects.display st.policy
  .ok ("<SymbolTable depth=" ++ toString st.depth ++ " local_keys="
    ++ toString (st.scopeAt .current).length ++ " allow_duplicates=" ++ policy ++ ">")

/-- Decide an insertion. -/
def filing (st : Stack) (target : Target) (key value : Value) : Except Fault Filing :=
  match st.address key with
  | .error fault => .error fault
  | .ok k =>
      let symbol := if value.isAbsent then key else value
      let bucket := (st.scopeAt target).bucket st.objects k
      .ok ⟨k, symbol, clash? st.objects (st.objects.truth st.policy) bucket symbol⟩

/-- What the journal is to hold of a decided insertion. -/
def insertionRecord (st : Stack) (target : Target) (f : Filing) : Except Fault (List Event) :=
  if st.journaling then
    match st.objects.display f.key with
    | .error fault => .error fault
    | .ok text =>
        .ok [if f.clash.isSome then .rejected text target st.depth
          else .stored text target st.depth]
  else .ok []

/-- The events that a change of scope leaves. -/
def recorded (st : Stack) (event : Event) : List Event :=
  if st.journaling then [event] else []

end Stack

/-! ## §3. Calls. -/

/-- A call on a handle: every operation but the listing of the chain, which
shows what the nodes of the enclosing scopes hold besides their entries. -/
abbrev Call := { op : Operation // op ≠ .levels }

def Call.enter : Call := ⟨.enter, nofun⟩

def Call.leave : Call := ⟨.leave, nofun⟩

/-- What calls come to. -/
structure StackReply where
  stack : Stack
  outcome : Except Fault Answer
  events : List Event

namespace Stack

/-- Insert a symbol. -/
def insert (st : Stack) (target : Target) (key value : Value) : StackReply :=
  match st.filing target key value with
  | .error fault => ⟨st, .error fault, []⟩
  | .ok f =>
      let after :=
        match f.clash with
        | some _ => st
        | none => st.file target f.key f.symbol
      match st.insertionRecord target f, f.clash with
      | .error fault, _ => ⟨after, .error fault, []⟩
      | .ok events, some existing =>
          ⟨after, .error (rejection st.objects f.key existing target), events⟩
      | .ok events, none => ⟨after, .ok .done, events⟩

/-- Carry out one call. -/
def perform (st : Stack) : Call → StackReply
  | ⟨.enter, _⟩ => ⟨st.enter, .ok .done, st.recorded (.entered (st.depth + 1))⟩
  | ⟨.leave, _⟩ =>
      match st.leave? with
      | none => ⟨st, .error .underflow, st.recorded .atRoot⟩
      | some after => ⟨after, .ok .done, st.recorded (.left (st.depth - 1))⟩
  | ⟨.insert target key value, _⟩ => st.insert target key value
  | ⟨.lookup reach key filter, _⟩ => ⟨st, (st.lookup reach key filter).map .values, []⟩
  | ⟨.contains key, _⟩ => ⟨st, (st.contains key).map .flag, []⟩
  | ⟨.visible, _⟩ => ⟨st, .ok (.values (st.scopes.flatMap ScopeMap.entries)), []⟩
  | ⟨.depth, _⟩ => ⟨st, .ok (.number st.depth), []⟩
  | ⟨.isGlobal, _⟩ => ⟨st, .ok (.flag st.scopes.tail.isEmpty), []⟩
  | ⟨.describe, _⟩ => ⟨st, st.describe.map .text, []⟩
  | ⟨.keyCount, _⟩ => ⟨st, .ok (.number (st.scopeAt .current).length), []⟩
  | ⟨.policy, _⟩ => ⟨st, .ok (.value st.policy), []⟩
  | ⟨.setPolicy policy, _⟩ => ⟨{ st with policy := policy }, .ok .done, []⟩
  | ⟨.setKeyFunction keyFunction, _⟩ =>
      ⟨{ st with keyFunction := keyFunction }, .ok .done, []⟩
  | ⟨.levels, other⟩ => absurd rfl other

/-- Carry out calls one after the other, up to the first failure; without one
the answer is that of the last. -/
def performAll (st : Stack) (answer : Answer) : List Call → StackReply
  | [] => ⟨st, .ok answer, []⟩
  | call :: rest =>
      let first := st.perform call
      match first.outcome with
      | .error _ => first
      | .ok a =>
          let others := performAll first.stack a rest
          { others with events := first.events ++ others.events }

end Stack

/-! ## §4. Programs over one handle. -/

/-- A statement that uses no table but the handle. -/
inductive Statement where
  /-- Calls on the handle, up to the first failure. -/
  | table (calls : List Call)
  /-- Run a body inside a fresh scope of the handle. -/
  | block (catches : Bool) (body : List Statement)
  /-- Assign an attribute of a declared object. -/
  | assign (object : ObjectId) (attr : Attribute) (value : Value)
  /-- Fail. -/
  | throw (message : String)

namespace Statement

mutual

/-- The command that a statement is, the handle having a name. -/
def on (name : String) : Statement → Command
  | .table calls => .table name (calls.map Subtype.val)
  | .block catches body => .block name none catches (onAll name body)
  | .assign object attr value => .assign object attr value
  | .throw message => .throw message

/-- The commands that several statements are. -/
def onAll (name : String) : List Statement → List Command
  | [] => []
  | statement :: rest => on name statement :: onAll name rest

end

end Statement

/-- What running the body of a block comes to. -/
structure StackRun where
  stack : Stack
  steps : List Step
  events : List Event
  fault : Option Fault

namespace Stack

/-- Close a block: leave one scope, however the body ended.  A failure to leave
takes the place of the body's failure. -/
def closeBlock (run : StackRun) (opened : List Event) (depth : Int) (catches : Bool) :
    Stack × Step :=
  let reply := run.stack.perform Call.leave
  let outcome : Except Fault Answer :=
    match reply.outcome, run.fault with
    | .error fault, _ => .error fault
    | .ok _, some fault => .error fault
    | .ok _, none => .ok (.number reply.stack.depth)
  (reply.stack, .block outcome depth catches run.steps (opened ++ run.events ++ reply.events))

mutual

/-- Run one statement. -/
def execute (st : Stack) : Statement → Stack × Step
  | .table calls =>
      let reply := st.performAll .done calls
      (reply.stack, .plain reply.outcome reply.events)
  | .assign object attr value => (st.assign object attr value, .plain (.ok .done) [])
  | .throw message => (st, .plain (.error (.thrown message)) [])
  | .block catches body =>
      let opened := st.perform Call.enter
      closeBlock (executeBody opened.stack catches body) opened.events opened.stack.depth catches

/-- Run the statements of a body; unless the block catches failures, the first
failure ends it. -/
def executeBody (st : Stack) (catches : Bool) : List Statement → StackRun
  | [] => ⟨st, [], [], none⟩
  | statement :: rest =>
      let (after, step) := execute st statement
      match catches, step.outcome with
      | false, .error fault => ⟨after, [], step.events, some fault⟩
      | _, _ =>
          let run := executeBody after catches rest
          { run with steps := step :: run.steps, events := step.events ++ run.events }

end

/-- Run the statements of a program, whatever each comes to. -/
def executeAll (st : Stack) : List Statement → Stack × List Step
  | [] => (st, [])
  | statement :: rest =>
      let (after, step) := st.execute statement
      let (last, steps) := after.executeAll rest
      (last, step :: steps)

end Stack

end ScopeChain
