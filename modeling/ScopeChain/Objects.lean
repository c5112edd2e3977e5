/-
  ScopeChain.Objects
  ──────────────────
  **DECLARED OBJECTS AND THEIR ATTRIBUTES.**

  A declared object is what a caller hands over as a symbol.  It has a KIND,
  fixed when it is declared, and up to four ATTRIBUTES, which can be assigned
  at any time.  The kind settles the object's text and what it is equal to;
  the attributes settle its key, and which entries it clashes with.

      SymbolObject           — kind and attributes of one object
      Objects                — all declared objects, by identity
      Objects.SameKinds      — what assignments leave alone
      Objects.attr?          — the data of an attribute of any value, if it has one
      Objects.held?          — the same, as the attribute holds it
      Objects.typeOf         — the `type` a table sees; absent when missing
      Objects.parentOf       — the `parent` a table sees; absent when missing

  Values that are no objects have no attributes at all.
-/
import ScopeChain.Value

namespace ScopeChain

/-! ## §1. Objects. -/

/-- What an object is, apart from its attributes. -/
inductive SymbolKind where
  /-- A full syntax-tree symbol: its text is its identifier, and it is equal
  only to itself. -/
  | declaration
  /-- An object with a text of its own, equal only to itself. -/
  | plain (text : String)
  /-- An object with a text of its own, equal to every object with its tag. -/
  | tagged (tag text : String)
  /-- A string that has attributes; as a value it is its text. -/
  | textual (text : String)
  deriving DecidableEq, Repr

/-- One declared object; a missing attribute is `none`. -/
structure SymbolObject where
  kind : SymbolKind
  identifier : Option Value
  type : Option Value
  parent : Option Value
  extra : Option Value
  deriving Repr

namespace SymbolObject

/-- An object of a kind, with no attributes. -/
def bare (kind : SymbolKind) : SymbolObject := ⟨kind, none, none, none, none⟩

instance : Inhabited SymbolObject := ⟨bare (.plain "")⟩

/-- A full symbol (the constructor of `AstSymbol`): all four attributes are there,
an omitted one as the absent value. -/
def declare (identifier : Value) (type parent extra : Option Value) : SymbolObject :=
  ⟨.declaration, some identifier, some (type.getD .absent), some (parent.getD .absent),
    some (extra.getD .absent)⟩

/-- Read an attribute. -/
def get (o : SymbolObject) : Attribute → Option Value
  | .identifier => o.identifier
  | .type => o.type
  | .parent => o.parent
  | .extra => o.extra

/-- Assign an attribute; the object then has it. -/
def set (o : SymbolObject) (a : Attribute) (v : Value) : SymbolObject :=
  match a with
  | .identifier => { o with identifier := some v }
  | .type => { o with type := some v }
  | .parent => { o with parent := some v }
  | .extra => { o with extra := some v }

@[simp] theorem kind_set (o : SymbolObject) (a : Attribute) (v : Value) :
    (o.set a v).kind = o.kind := by
  cases a <;> rfl

@[simp] theorem get_set_self (o : SymbolObject) (a : Attribute) (v : Value) :
    (o.set a v).get a = some v := by
  cases a <;> rfl

theorem get_set_of_ne (o : SymbolObject) {a b : Attribute} (v : Value) (h : b ≠ a) :
    (o.set a v).get b = o.get b := by
  cases a <;> cases b <;> simp_all [get, set]

end SymbolObject

/-! ## §2. All declared objects. -/

/-- The declared objects, each at its identity. -/
abbrev Objects := List SymbolObject

namespace Objects

/-- The object with an identity. -/
def object (objs : Objects) (id : ObjectId) : SymbolObject := objs[id]?.getD default

/-- The kind of the object with an identity. -/
def kind (objs : Objects) (id : ObjectId) : SymbolKind := (objs.object id).kind

/-- Assign an attribute of one object. -/
def assign (objs : Objects) (id : ObjectId) (a : Attribute) (v : Value) : Objects :=
  objs.modify id (·.set a v)

theorem object_assign (objs : Objects) (id other : ObjectId) (a : Attribute) (v : Value) :
    (objs.assign id a v).object other
      = if id = other ∧ other < objs.length then (objs.object other).set a v
        else objs.object other := by
  by_cases hlt : other < objs.length
  · by_cases h : id = other <;> simp [object, assign, h, hlt]
  · simp [object, assign, hlt]

/-- Assignments change no object's kind. -/
@[simp] theorem kind_assign (objs : Objects) (id other : ObjectId) (a : Attribute) (v : Value) :
    (objs.assign id a v).kind other = objs.kind other := by
  simp only [kind, object_assign]
  split <;> simp

/-- Two tables of objects in which each identity has one kind.  Everything that
goes by kinds alone, texts and equality above all, is the same in both. -/
def SameKinds (objs objs' : Objects) : Prop := ∀ id, objs'.kind id = objs.kind id

theorem SameKinds.refl (objs : Objects) : SameKinds objs objs := fun _ => rfl

theorem SameKinds.trans {a b c : Objects} (hab : SameKinds a b) (hbc : SameKinds b c) :
    SameKinds a c :=
  fun id => (hbc id).trans (hab id)

theorem sameKinds_assign (objs : Objects) (id : ObjectId) (a : Attribute) (v : Value) :
    SameKinds objs (objs.assign id a v) :=
  fun other => kind_assign objs id other a v

/-! ## §3. What a value shows. -/

/-- The data of an attribute of a value; only objects have attributes. -/
def attr? (objs : Objects) (a : Attribute) : Value → Option Value
  | .object id => (objs.object id).get a
  | _ => none

/-- An attribute of a value, as the attribute holds it. -/
def held? (objs : Objects) (a : Attribute) : Value → Option Value
  | .object id => ((objs.object id).get a).map (Value.heldAt ⟨id, a⟩)
  | _ => none

/-- The `type` that comparisons see (`_type_of`). -/
def typeOf (objs : Objects) (v : Value) : Value := (objs.attr? .type v).getD .absent

/-- The `parent` that comparisons see (`_parent_of`). -/
def parentOf (objs : Objects) (v : Value) : Value := (objs.attr? .parent v).getD .absent

/-- The text of a value that is a string: a plain one, or an object that is
one. -/
def text? (objs : Objects) : Value → Option String
  | .str s => some s
  | .object id =>
      match objs.kind id with
      | .textual text => some text
      | _ => none
  | _ => none

theorem SameKinds.text? {objs objs' : Objects} (h : SameKinds objs objs') (v : Value) :
    objs'.text? v = objs.text? v := by
  cases v with
  | object id => simp only [Objects.text?, h id]
  | _ => rfl

/-- The word for a value's kind in error texts. -/
def kindName (objs : Objects) : Value → String
  | .absent => "NoneType"
  | .bool _ => "bool"
  | .int _ => "int"
  | .float _ => "float"
  | .str _ => "str"
  | .list _ _ => "list"
  | .tuple _ _ => "tuple"
  | .dict _ _ => "dict"
  | .object id =>
      match objs.kind id with
      | .declaration => "AstSymbol"
      | .plain _ => "Duck"
      | .tagged _ _ => "Val"
      | .textual _ => "StrSym"

/-- Whether a value counts as true: not absent, not false, not zero, not
empty. -/
def truth (objs : Objects) : Value → Bool
  | .absent => false
  | .bool b => b
  | .int i => i != 0
  | .float x => x.number != .ofInt 0
  | .str s => s != ""
  | .list _ items => !items.isEmpty
  | .tuple _ items => !items.isEmpty
  | .dict _ entries => !entries.isEmpty
  | .object id =>
      match objs.kind id with
      | .textual text => text != ""
      | _ => true

theorem SameKinds.truth {objs objs' : Objects} (h : SameKinds objs objs') (v : Value) :
    objs'.truth v = objs.truth v := by
  cases v with
  | object id => simp only [Objects.truth, h id]
  | _ => rfl

mutual

/-- A value with every object that is a string replaced by its text. -/
def flatten (objs : Objects) : Value → Value
  | .object id => ((objs.text? (.object id)).map Value.str).getD (.object id)
  | .list home items => .list home (flattenAll objs items)
  | .tuple home items => .tuple home (flattenAll objs items)
  | .dict home entries => .dict home (flattenEntries objs entries)
  | .absent => .absent
  | .bool b => .bool b
  | .int i => .int i
  | .float x => .float x
  | .str s => .str s

/-- `flatten` on each of several values. -/
def flattenAll (objs : Objects) : List Value → List Value
  | [] => []
  | v :: vs => flatten objs v :: flattenAll objs vs

/-- `flatten` on the values of a dictionary. -/
def flattenEntries (objs : Objects) : List (String × Value) → List (String × Value)
  | [] => []
  | (k, v) :: rest => (k, flatten objs v) :: flattenEntries objs rest

end

end Objects

end ScopeChain
