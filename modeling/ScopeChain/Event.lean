/-
  ScopeChain.Event
  ────────────────
  **WHAT THE JOURNAL RECORDS.**

  Changes of scope and insertions leave a trace, accepted or not; lookups and
  iteration leave none.  The depth is that right after the operation.
-/

namespace ScopeChain

/-- Where an insertion goes. -/
inductive Target where
  | current
  | outermost
  deriving DecidableEq, Repr

/-- The word for a target scope. -/
def Target.word : Target → String
  | .current => "local"
  | .outermost => "global"

/-- One entry of the journal. -/
inductive Event where
  | entered (depth : Int)
  | left (depth : Int)
  /-- The outermost scope was to be left. -/
  | atRoot
  | rejected (key : String) (target : Target) (depth : Int)
  | stored (key : String) (target : Target) (depth : Int)
  deriving DecidableEq, Repr

/-- The line that an event is logged as. -/
def Event.message : Event → String
  | .entered depth => "enter_scope: depth=" ++ toString depth
  | .left depth => "exit_scope: depth=" ++ toString depth
  | .atRoot => "exit_scope: already at the root scope"
  | .rejected key target depth =>
      "add: '" ++ key ++ "' rejected in " ++ target.word ++ " scope (depth="
        ++ toString depth ++ ")"
  | .stored key target depth =>
      "add: '" ++ key ++ "' into " ++ target.word ++ " scope (depth=" ++ toString depth ++ ")"

end ScopeChain
