/-
  ScopeChain.ErrorReport
  ──────────────────────
  **ERRORS AS VALUES A CALLER CAN BUILD AND INSPECT.**

  The library has three error classes: a base class, the class for leaving the
  outermost scope and the class for rejected insertions.  A caller can build an
  error of each and ask for its plain text, its quoted form and the classes it
  counts as.  The same names serve to classify the failures of operations.
-/
import ScopeChain.Rendering

namespace ScopeChain

/-! ## §1. Classes. -/

/-- The library's own error classes. -/
inductive ErrorClass where
  | base
  | underflow
  | duplicate
  deriving DecidableEq, Repr

namespace ErrorClass

/-- The name of a class. -/
def word : ErrorClass → String
  | .base => "SymbolTableError"
  | .underflow => "ScopeUnderflowError"
  | .duplicate => "DuplicateSymbolError"

/-- The classes that an error of a class counts as, the library's own first and
then the general ones. -/
def families : ErrorClass → List String
  | .base => ["SymbolTableError"]
  | .underflow => ["SymbolTableError", "ScopeUnderflowError", "RuntimeError"]
  | .duplicate => ["SymbolTableError", "DuplicateSymbolError", "KeyError", "LookupError"]

end ErrorClass

/-- The name of the class of a failure. -/
def Fault.className : Fault → String
  | .underflow => ErrorClass.underflow.word
  | .duplicate _ => ErrorClass.duplicate.word
  | .noIdentifier => "KeyFuncError"
  | .refused => "KeyFuncError"
  | .notText _ => "TypeError"
  | .changeableKey _ => "TypeError"
  | .missingAttribute _ _ => "AttributeError"
  | .keysChanged => "RuntimeError"
  | .endless => "RecursionError"
  | .thrown _ => "ValueError"
  | .unbound _ => "NameError"

/-! ## §2. Reports. -/

/-- What an error that a caller built shows of itself. -/
structure ErrorReport where
  /-- The plain text. -/
  text : String
  /-- The quoted form: the class and the message. -/
  quoted : String
  families : List String
  /-- The data of a rejected insertion. -/
  clash : Option Clash

/-- The report of an error with one message. -/
def reportMessage (objs : Objects) (c : ErrorClass) (message : Value) :
    Except Fault ErrorReport := do
  let text ← objs.display message
  let quoted ← objs.inspect message
  .ok ⟨text, c.word ++ "(" ++ quoted ++ ")", c.families, none⟩

/-- The report of a rejected insertion with the given data. -/
def reportClash (objs : Objects) (key existing scope : Value) : Except Fault ErrorReport := do
  let keyText ← objs.display key
  let scopeText ← objs.display scope
  let message := clashMessage keyText scopeText
  .ok ⟨message, ErrorClass.duplicate.word ++ "(" ++ Text.quote message ++ ")",
    ErrorClass.duplicate.families, some ⟨key, existing, scope, message⟩⟩

/-- Build an error from its arguments, in order.  Arguments left out at the end
take their standing values. -/
def ErrorClass.report (objs : Objects) : ErrorClass → List Value → Except Fault ErrorReport
  | .base, [] => .ok ⟨"", ErrorClass.base.word ++ "()", ErrorClass.base.families, none⟩
  | .base, message :: _ => reportMessage objs .base message
  | .underflow, [] => reportMessage objs .underflow (.str underflowMessage)
  | .underflow, message :: _ => reportMessage objs .underflow message
  | .duplicate, [] => reportClash objs .absent .absent (.str "local")
  | .duplicate, [key] => reportClash objs key .absent (.str "local")
  | .duplicate, [key, existing] => reportClash objs key existing (.str "local")
  | .duplicate, key :: existing :: scope :: _ => reportClash objs key existing scope

end ScopeChain
