/-
  ScopeChain.Command
  ──────────────────
  **WHAT A CALLER'S PROGRAM CONSISTS OF.**

  A BLOCK closes the scope that it opened, however its body ends.
-/
import ScopeChain.Operation
import ScopeChain.Walk

namespace ScopeChain

/-- One statement over names of tables, scope contexts and walks. -/
inductive Command where
  /-- Operations on a table, up to the first failure. -/
  | table (on : String) (operations : List Operation)
  | create (name : String) (keyFunction : KeyFunction) (policy : Value)
  | bindParent (on name : String)
  | bindContext (on name : String)
  | bindWalk (on name : String)
  | step (walk : String)
  /-- Run a body inside a scope (`scope`); a failure ends it, unless the block catches
  failures. -/
  | block (on : String) (context : Option String) (catches : Bool) (body : List Command)
  | compare (a b : String)
  | assign (object : ObjectId) (attr : Attribute) (value : Value)
  | throw (message : String)
  | defaultKey (value : Value)
  | display (value : Value)
  | inspect (value : Value)
  | equal (a b : Value)
  | attributes (object : ObjectId)
  | report (errorClass : ErrorClass) (arguments : List Value)

namespace Command

/-- Enter scopes; answers the depth. -/
def enter (on : String) (times : Nat) : Command :=
  .table on (List.replicate times .enter ++ [.depth])

/-- Leave scopes; answers the depth. -/
def leave (on : String) (times : Nat) : Command :=
  .table on (List.replicate times .leave ++ [.depth])

/-- Insert numbered strings; answers how many keys there are. -/
def fill (on stem : String) (count : Nat) : Command :=
  .table on
    ((List.range count).map (fun i =>
        Operation.insert .current (.str (stem ++ toString i)) .absent)
      ++ [.keyCount])

end Command

/-- What a command came to. -/
inductive Step where
  | plain (outcome : Except Fault Answer) (events : List Event)
  /-- A block that was entered, with the steps that came to an end. -/
  | block (outcome : Except Fault Answer) (depth : Int) (catches : Bool) (body : List Step)
      (events : List Event)

namespace Step

/-- The answer or failure of a step. -/
def outcome : Step → Except Fault Answer
  | .plain outcome _ => outcome
  | .block outcome _ _ _ _ => outcome

/-- The events recorded during a step. -/
def events : Step → List Event
  | .plain _ events => events
  | .block _ _ _ _ events => events

end Step

end ScopeChain
