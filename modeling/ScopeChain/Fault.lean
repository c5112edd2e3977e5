/-
  ScopeChain.Fault
  ────────────────
  **WHY AN OPERATION FAILS.**

  A failure is a cause with the data of its report.
-/
import ScopeChain.Objects

namespace ScopeChain

/-- A rejected insertion; its report shows the text of the key at that moment. -/
structure Clash where
  key : Value
  existing : Value
  scope : Value
  message : String
  deriving Repr

/-- The cause of a failure. -/
inductive Fault where
  | underflow
  | duplicate (clash : Clash)
  | noIdentifier
  | refused
  /-- The text of a symbol whose identifier is no string. -/
  | notText (kind : String)
  /-- A key that is, or holds, a changeable container. -/
  | changeableKey (kind : String)
  | missingAttribute (kind : String) (missing : Attribute)
  | keysChanged
  /-- References from object to object never end. -/
  | endless
  | thrown (message : String)
  | unbound (name : String)
  deriving Repr

/-- The message of `ScopeUnderflowError`. -/
def underflowMessage : String := "Already at the root scope"

/-- The message of `DuplicateSymbolError`, from the texts of its key and scope. -/
def clashMessage (key scope : String) : String :=
  "Symbol " ++ key ++ " already found in " ++ scope ++ " scope"

/-- The report of a failure. -/
def Fault.message : Fault → String
  | .underflow => underflowMessage
  | .duplicate clash => clash.message
  | .noIdentifier => "symbol has no identifier"
  | .refused => "boom"
  | .notText kind => "__str__ returned non-string (type " ++ kind ++ ")"
  | .changeableKey kind => "unhashable type: " ++ "'" ++ kind ++ "'"
  | .missingAttribute kind missing =>
      "'" ++ kind ++ "' object has no attribute '" ++ missing.word ++ "'"
  | .keysChanged => "dictionary changed size during iteration"
  | .endless => "maximum recursion depth exceeded"
  | .thrown message => message
  | .unbound name => "unbound name: " ++ name

end ScopeChain
