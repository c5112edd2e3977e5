/-
  ScopeChain.Value
  ────────────────
  **THE VALUES A TABLE STORES AND COMPARES.**

  Keys, symbols, filters and policies are plain data, or references to DECLARED
  OBJECTS.  A container can be held by an attribute of an object that it holds
  itself; read from there, it carries the place that holds it, its HOME.
-/
import ScopeChain.Number

namespace ScopeChain

/-- A declared object, by its position among the declarations. -/
abbrev ObjectId := Nat

/-- The attributes an object can have. -/
inductive Attribute where
  | identifier
  | type
  | parent
  | extra
  deriving DecidableEq, Repr

def Attribute.word : Attribute → String
  | .identifier => "identifier"
  | .type => "type"
  | .parent => "parent"
  | .extra => "extra"

/-- Where a value can be held: an attribute of a declared object. -/
structure Place where
  owner : ObjectId
  attr : Attribute
  deriving DecidableEq, Repr

/-- A canonical text, and which of all floating values read it is. -/
structure Floating where
  text : String
  occurrence : Nat
  deriving DecidableEq, Repr, Inhabited

def Floating.number (x : Floating) : Number :=
  (Number.ofText? x.occurrence x.text).getD (.nan x.occurrence)

/-- A dynamic value. -/
inductive Value where
  | absent
  | bool (b : Bool)
  | int (i : Int)
  | float (x : Floating)
  | str (s : String)
  | list (home : Option Place) (items : List Value)
  | tuple (home : Option Place) (items : List Value)
  | dict (home : Option Place) (entries : List (String × Value))
  | object (id : ObjectId)
  deriving Repr

instance : Inhabited Value := ⟨.absent⟩

namespace Value

/-- Whether a value stands for nothing. -/
def isAbsent : Value → Bool
  | .absent => true
  | _ => false

@[simp] theorem isAbsent_iff (v : Value) : v.isAbsent = true ↔ v = .absent := by
  cases v <;> simp [isAbsent]

/-- Write one entry: a key already there keeps its place, a new one goes last. -/
def writeEntry (key : String) (value : Value) :
    List (String × Value) → List (String × Value)
  | [] => [(key, value)]
  | (k, v) :: rest =>
      if k = key then (k, value) :: rest else (k, v) :: writeEntry key value rest

/-- The dictionary that several entries write, one after the other. -/
def dictOf (entries : List (String × Value)) : Value :=
  .dict none (entries.foldl (fun written e => writeEntry e.1 e.2 written) [])

mutual

/-- A value with every container in it held by no attribute. -/
def homeless : Value → Value
  | .list _ items => .list none (homelessAll items)
  | .tuple _ items => .tuple none (homelessAll items)
  | .dict _ entries => .dict none (homelessEntries entries)
  | .absent => .absent
  | .bool b => .bool b
  | .int i => .int i
  | .float x => .float x
  | .str s => .str s
  | .object id => .object id

/-- `homeless` on several values. -/
def homelessAll : List Value → List Value
  | [] => []
  | v :: vs => homeless v :: homelessAll vs

def homelessEntries : List (String × Value) → List (String × Value)
  | [] => []
  | (k, v) :: rest => (k, homeless v) :: homelessEntries rest

end

/-- A value as an attribute holds it: a container is at home there, those inside it nowhere. -/
def heldAt (place : Place) : Value → Value
  | .list _ items => .list (some place) (homelessAll items)
  | .tuple _ items => .tuple (some place) (homelessAll items)
  | .dict _ entries => .dict (some place) (homelessEntries entries)
  | v => v

end Value

end ScopeChain
