/-
  ScopeChain.KeyFunction
  ──────────────────────
  **HOW A KEY IS DERIVED FROM A SYMBOL.**

  A string is its own key; every other value goes through the table's KEY
  FUNCTION, which may answer with any value, and fail.

      KeyFunction.byDefault  — the identifier, or else the plain text
      Objects.keyOf          — the key of a value under a key function
      Objects.addressOf      — the same, once it is known to be usable
-/
import ScopeChain.Rendering
import ScopeChain.Equality

namespace ScopeChain

/-! ## §1. Key functions. -/

/-- A way to derive a key from a value that is no string. -/
abbrev KeyFunction := Objects → Value → Except Fault Value

namespace KeyFunction

/-- The identifier of a value, which has to be there. -/
def identifierOf (objs : Objects) (v : Value) : Except Fault Value :=
  match objs.held? .identifier v with
  | some identifier => .ok identifier
  | none => .error .noIdentifier

/-- The type of a value, absent when there is none. -/
def typeHeld (objs : Objects) (v : Value) : Value := (objs.held? .type v).getD .absent

/-- The plain text of a value's identifier. -/
def identifierText (objs : Objects) (v : Value) : Except Fault String := do
  let identifier ← identifierOf objs v
  objs.display identifier

/-- The table's own rule (`default_key`): a string, an identifier, or the plain text. -/
def byDefault : KeyFunction := fun objs v =>
  match objs.text? v with
  | some _ => .ok v
  | none => do
      let shown :=
        match (objs.held? .identifier v).getD .absent with
        | .absent => v
        | identifier => identifier
      let text ← objs.display shown
      .ok (.str text)

def byIdentifier : KeyFunction := identifierOf

/-- The texts of identifier and type, around a colon. -/
def byIdentifierAndType : KeyFunction := fun objs v => do
  let name ← identifierText objs v
  let kind ← objs.display (typeHeld objs v)
  .ok (.str (name ++ ":" ++ kind))

/-- The identifier texts on the way from a value through its parents. -/
def pathTexts (objs : Objects) : Nat → Value → Except Fault (List String)
  | _, .absent => .ok []
  | 0, _ => .error .endless
  | steps + 1, v => do
      let name ← identifierText objs v
      let outer ← pathTexts objs steps (objs.parentOf v)
      .ok (name :: outer)

/-- The dotted path of identifiers, from the outermost parent inwards. -/
def byPath : KeyFunction := fun objs v => do
  let names ← pathTexts objs (objs.length + 1) v
  .ok (.str (".".intercalate names.reverse))

/-- The identifier's text with the letters A to Z made small. -/
def bySmallLetters : KeyFunction := fun objs v => do
  let name ← identifierText objs v
  .ok (.str (name.map Char.toLower))

/-- One key for everything. -/
def constant (key : String) : KeyFunction := fun _ _ => .ok (.str key)

def byType : KeyFunction := fun objs v => .ok (typeHeld objs v)

/-- The pair of identifier and type. -/
def byIdentifierTypePair : KeyFunction := fun objs v => do
  let identifier ← identifierOf objs v
  .ok (.tuple none [identifier, typeHeld objs v])

/-- How many characters the identifier's text has. -/
def byLength : KeyFunction := fun objs v => do
  let name ← identifierText objs v
  .ok (.int name.length)

/-- No key for anything. -/
def refusing : KeyFunction := fun _ _ => .error .refused

end KeyFunction

/-! ## §2. Keys of values. -/

namespace Objects

/-- The key of a value (`_key`): a string itself, otherwise what the key function answers. -/
def keyOf (objs : Objects) (f : KeyFunction) (v : Value) : Except Fault Value :=
  match objs.text? v with
  | some _ => .ok v
  | none => f objs v

/-- The key of a value, if it can address a bucket. -/
def addressOf (objs : Objects) (f : KeyFunction) (v : Value) : Except Fault Value :=
  match objs.keyOf f v with
  | .error fault => .error fault
  | .ok key =>
      match changeable? key with
      | some kind => .error (.changeableKey kind)
      | none => .ok key

/-- A string passes the key function by. -/
theorem keyOf_of_text? {objs : Objects} {v : Value} {t : String} (f : KeyFunction)
    (h : objs.text? v = some t) : objs.keyOf f v = .ok v := by
  simp [keyOf, h]

/-- A string is no changeable container. -/
theorem changeable?_of_text? {objs : Objects} {v : Value} {t : String}
    (h : objs.text? v = some t) : changeable? v = none := by
  cases v with
  | str s => simp [changeable?]
  | object id => simp [changeable?]
  | _ => exact absurd h (by simp [text?])

/-- A string is a usable key whatever the key function. -/
theorem addressOf_of_text? {objs : Objects} {v : Value} {t : String} (f : KeyFunction)
    (h : objs.text? v = some t) : objs.addressOf f v = .ok v := by
  simp [addressOf, keyOf_of_text? f h, changeable?_of_text? h]

end Objects

end ScopeChain
