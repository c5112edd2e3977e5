/-
  ScopeChain.Rendering
  ────────────────────
  **THE TEXT OF A VALUE, PLAIN AND QUOTED.**

  A value has two texts.  The PLAIN text (`Objects.display`) is what a message
  shows: a string is its own plain text, a full symbol shows its identifier.
  The QUOTED text (`Objects.inspect`) shows the structure: strings are quoted,
  containers list the quoted texts of what they hold, a full symbol lists its
  identifier, its type and the identifier of its parent.

  The quoted text of a symbol follows `type` and `identifier` into other
  objects, so it can come back to where it started.  A container with a home is
  OPENED at that place while it is being written, and when it is met again
  inside itself it is written as an ellipsis; a return that passes no container
  is a failure.  A parent contributes its identifier only: the chain of parents
  is not followed, whatever its shape.

      inspectWith            — quoted text, given the quoted text of objects
      Objects.objectText     — quoted text of an object
      Objects.inspect        — quoted text of a value
      Objects.display        — plain text of a value
      failsForText_display   — why a text is not to be had
-/
import ScopeChain.Fault
import ScopeChain.Text.Quoted

namespace ScopeChain

/-! ## §1. Quoted texts of plain data. -/

/-- A tuple from the texts of its items; a single item keeps a comma. -/
def tupleText : List String → String
  | [one] => "(" ++ one ++ ",)"
  | parts => "(" ++ ", ".intercalate parts ++ ")"

/-- Whether a container with a home is being written already. -/
def isOpen (opened : List Place) : Option Place → Bool
  | none => false
  | some place => opened.contains place

mutual

/-- The quoted text of a value while the containers at `opened` are being
written; `object` gives the quoted text of an object. -/
def inspectWith (object : List Place → ObjectId → Except Fault String) (opened : List Place) :
    Value → Except Fault String
  | .absent => .ok "None"
  | .bool b => .ok (if b then "True" else "False")
  | .int i => .ok (toString i)
  | .float x => .ok x.text
  | .str s => .ok (Text.quote s)
  | .list home items =>
      if isOpen opened home then .ok "[...]"
      else do
        let parts ← inspectAll object (home.toList ++ opened) items
        .ok ("[" ++ ", ".intercalate parts ++ "]")
  | .tuple home items =>
      if isOpen opened home then .ok "(...)"
      else do
        let parts ← inspectAll object (home.toList ++ opened) items
        .ok (tupleText parts)
  | .dict home entries =>
      if isOpen opened home then .ok "\x7b...\x7d"
      else do
        let parts ← inspectEntries object (home.toList ++ opened) entries
        .ok ("\x7b" ++ ", ".intercalate parts ++ "\x7d")
  | .object id => object opened id

/-- The quoted texts of several values; the first failure wins. -/
def inspectAll (object : List Place → ObjectId → Except Fault String) (opened : List Place) :
    List Value → Except Fault (List String)
  | [] => .ok []
  | v :: vs => do
      let part ← inspectWith object opened v
      let parts ← inspectAll object opened vs
      .ok (part :: parts)

/-- The quoted texts of the entries of a dictionary, key before value. -/
def inspectEntries (object : List Place → ObjectId → Except Fault String)
    (opened : List Place) : List (String × Value) → Except Fault (List String)
  | [] => .ok []
  | (k, v) :: rest => do
      let part ← inspectWith object opened v
      let parts ← inspectEntries object opened rest
      .ok ((Text.quote k ++ ": " ++ part) :: parts)

end

namespace Objects

/-! ## §2. Quoted texts of objects. -/

/-- The identifier a symbol shows for its parent: absent without a parent, and
a failure where the parent has none. -/
def parentIdentifier (objs : Objects) (o : SymbolObject) : Except Fault Value :=
  match o.parent.getD .absent with
  | .absent => .ok .absent
  | p =>
      match objs.held? .identifier p with
      | some identifier => .ok identifier
      | none => .error (.missingAttribute (objs.kindName p) .identifier)

/-- The quoted text of an object (for a declaration the `__repr__` of `AstSymbol`), at
most `depth` objects deep, while the containers at `opened` are being written. -/
def objectTextWithin (objs : Objects) :
    Nat → List Place → ObjectId → Except Fault String
  | 0, _, _ => .error .endless
  | depth + 1, opened, id =>
      let o := objs.object id
      match o.kind with
      | .plain text => .ok text
      | .tagged _ text => .ok text
      | .textual text => .ok (Text.quote text)
      | .declaration => do
          let text := inspectWith (objectTextWithin objs depth) opened
          let parent ← objs.parentIdentifier o
          let identifierText ← text ((objs.held? .identifier (.object id)).getD .absent)
          let typeText ← text ((objs.held? .type (.object id)).getD .absent)
          let parentText ← text parent
          .ok ("AstSymbol(identifier=" ++ identifierText ++ ", type=" ++ typeText
            ++ ", parent=" ++ parentText ++ ")")

/-- How many objects deep a quoted text can go without an endless return: no
object twice under the same opened containers, and each object opens at most
two of them. -/
def textDepth (objs : Objects) : Nat := (2 * objs.length + 1) * (objs.length + 1)

/-- The quoted text of an object. -/
def objectText (objs : Objects) (id : ObjectId) : Except Fault String :=
  objs.objectTextWithin objs.textDepth [] id

/-- The quoted text of a value. -/
def inspect (objs : Objects) (v : Value) : Except Fault String :=
  inspectWith (objs.objectTextWithin objs.textDepth) [] v

/-! ## §3. Plain texts. -/

/-- The plain text of a value.  A full symbol shows its identifier, which then
has to be a string. -/
def display (objs : Objects) : Value → Except Fault String
  | .str s => .ok s
  | .object id =>
      match objs.kind id with
      | .plain text => .ok text
      | .tagged _ text => .ok text
      | .textual text => .ok text
      | .declaration =>
          let identifier := (objs.object id).identifier.getD .absent
          match objs.text? identifier with
          | some text => .ok text
          | none => .error (.notText (objs.kindName identifier))
  | v => objs.inspect v

/-- A value that is a string is its own plain text. -/
theorem display_of_text? {objs : Objects} {v : Value} {t : String} (h : objs.text? v = some t) :
    objs.display v = .ok t := by
  cases v with
  | str s => simp_all [text?, display]
  | object id =>
      simp only [text?] at h
      split at h
      · next hk =>
          injection h with h
          simp [display, hk, h]
      · exact absurd h (by simp)
  | _ => exact absurd h (by simp [text?])

end Objects

/-! ## §4. Why a text is not to be had. -/

/-- The failures of a text: an identifier that is no string, a parent without one, or no
end. -/
inductive Fault.OfText : Fault → Prop where
  | notText (kind : String) : OfText (.notText kind)
  | missingAttribute (kind : String) (missing : Attribute) :
      OfText (.missingAttribute kind missing)
  | endless : OfText .endless

/-- A result that fails, if it does, for a text. -/
def FailsForText {α : Type} (x : Except Fault α) : Prop := ∀ fault, x = .error fault → fault.OfText

namespace FailsForText

theorem ok {α : Type} (a : α) : FailsForText (.ok a) := by
  intro fault h
  cases h

theorem bind {α β : Type} {x : Except Fault α} {f : α → Except Fault β} (hx : FailsForText x)
    (hf : ∀ a, FailsForText (f a)) : FailsForText (x >>= f) := by
  intro fault h
  cases x with
  | error first =>
      cases h
      exact hx _ rfl
  | ok a => exact hf a fault h

end FailsForText

variable {object : List Place → ObjectId → Except Fault String}

mutual

/-- A quoted text fails for the texts of objects only. -/
theorem failsForText_inspectWith (h : ∀ opened id, FailsForText (object opened id))
    (opened : List Place) (v : Value) : FailsForText (inspectWith object opened v) := by
  cases v with
  | object id => exact h opened id
  | list home items =>
      rw [inspectWith]
      split
      · exact .ok _
      · exact (failsForText_inspectAll h _ items).bind fun _ => .ok _
  | tuple home items =>
      rw [inspectWith]
      split
      · exact .ok _
      · exact (failsForText_inspectAll h _ items).bind fun _ => .ok _
  | dict home entries =>
      rw [inspectWith]
      split
      · exact .ok _
      · exact (failsForText_inspectEntries h _ entries).bind fun _ => .ok _
  | _ => exact .ok _

theorem failsForText_inspectAll (h : ∀ opened id, FailsForText (object opened id))
    (opened : List Place) (vs : List Value) : FailsForText (inspectAll object opened vs) := by
  cases vs with
  | nil => exact .ok _
  | cons v rest =>
      rw [inspectAll]
      exact (failsForText_inspectWith h opened v).bind fun _ =>
        (failsForText_inspectAll h opened rest).bind fun _ => .ok _

theorem failsForText_inspectEntries (h : ∀ opened id, FailsForText (object opened id))
    (opened : List Place) (es : List (String × Value)) :
    FailsForText (inspectEntries object opened es) := by
  match es with
  | [] => exact .ok _
  | (k, v) :: rest =>
      rw [inspectEntries]
      exact (failsForText_inspectWith h opened v).bind fun _ =>
        (failsForText_inspectEntries h opened rest).bind fun _ => .ok _

end

namespace Objects

theorem failsForText_parentIdentifier (objs : Objects) (o : SymbolObject) :
    FailsForText (objs.parentIdentifier o) := by
  unfold parentIdentifier
  split
  next => exact .ok _
  next =>
    split
    next => exact .ok _
    next =>
      intro fault h
      cases h
      exact .missingAttribute _ _

theorem failsForText_objectTextWithin (objs : Objects) (depth : Nat) :
    ∀ opened id, FailsForText (objs.objectTextWithin depth opened id) := by
  induction depth with
  | zero =>
      intro opened id fault h
      cases h
      exact .endless
  | succ depth ih =>
      intro opened id
      rw [objectTextWithin]
      -- only a full symbol asks for further texts
      cases (objs.object id).kind with
      | declaration =>
          have text := failsForText_inspectWith ih opened
          exact (objs.failsForText_parentIdentifier _).bind fun parent =>
            (text _).bind fun _ => (text _).bind fun _ => (text parent).bind fun _ => .ok _
      | _ => exact .ok _

/-- **A plain text fails only for a text.** -/
theorem failsForText_display (objs : Objects) (v : Value) : FailsForText (objs.display v) := by
  have inspected : FailsForText (objs.inspect v) :=
    failsForText_inspectWith (objs.failsForText_objectTextWithin objs.textDepth) [] v
  cases v with
  | str => exact .ok _
  | object id =>
      rw [display]
      split
      next => exact .ok _
      next => exact .ok _
      next => exact .ok _
      next =>
        dsimp only
        split
        next => exact .ok _
        next =>
          intro fault h
          cases h
          exact .notText _
  | _ => exact inspected

end Objects

end ScopeChain
