/-
  ScopeChain.Equality
  ───────────────────
  **WHEN TWO VALUES ARE EQUAL, AND WHEN THEY ARE ONE KEY.**

  A value is spelled out as its CODE: a flat list of tokens, in which numbers
  of different kinds with one value have one token, strings and objects that
  are strings have one token, a tagged object is its tag, a dictionary lists
  its entries by key, and every container says how long it is.  Two values are
  the same key exactly when they have the same code, so sameness is an
  equivalence without further proof.  Equality differs from it at one point
  only: "not a number" is the same key as itself but equal to nothing.

      Objects.code           — the tokens of a value
      Objects.same           — one key
      Objects.equal          — equality, as the clash test and filters use it
      SameKinds.code, SameKinds.equal
                             — assignments change neither
      Objects.changeable?    — the first changeable container in a key
-/
import ScopeChain.Objects

namespace ScopeChain

/-! ## §1. Codes. -/

/-- One token of a code. -/
inductive Token where
  | absent
  | number (n : Number)
  | text (s : String)
  | list (length : Nat)
  | tuple (length : Nat)
  | dict (size : Nat)
  | object (id : ObjectId)
  | tag (s : String)
  deriving DecidableEq, Repr

/-- Whether a token opens a container that can be changed in place. -/
def Token.opensChangeable : Token → Bool
  | .list _ | .dict _ => true
  | .absent | .number _ | .text _ | .tuple _ | .object _ | .tag _ => false

/-- Insert an entry where its key belongs. -/
def insertByKey {α : Type} (e : String × α) : List (String × α) → List (String × α)
  | [] => [e]
  | x :: rest => if e.1 < x.1 then e :: x :: rest else x :: insertByKey e rest

/-- The entries in increasing order of their keys. -/
def sortByKey {α : Type} (entries : List (String × α)) : List (String × α) :=
  entries.foldr insertByKey []

namespace Objects

/-- The token of an object: what it is equal to. -/
def objectToken (objs : Objects) (id : ObjectId) : Token :=
  match objs.kind id with
  | .declaration => .object id
  | .plain _ => .object id
  | .tagged tag _ => .tag tag
  | .textual text => .text text

mutual

/-- The code of a value. -/
def code (objs : Objects) : Value → List Token
  | .absent => [.absent]
  | .bool b => [.number (.ofBool b)]
  | .int i => [.number (.ofInt i)]
  | .float x => [.number x.number]
  | .str s => [.text s]
  | .list _ items => .list items.length :: codeAll objs items
  | .tuple _ items => .tuple items.length :: codeAll objs items
  | .dict _ entries =>
      .dict entries.length
        :: (sortByKey (codeEntries objs entries)).flatMap (fun e => .text e.1 :: e.2)
  | .object id => [objs.objectToken id]

/-- The codes of several values, one after the other. -/
def codeAll (objs : Objects) : List Value → List Token
  | [] => []
  | v :: vs => code objs v ++ codeAll objs vs

/-- The entries of a dictionary with the codes of their values. -/
def codeEntries (objs : Objects) : List (String × Value) → List (String × List Token)
  | [] => []
  | (k, v) :: rest => (k, code objs v) :: codeEntries objs rest

end

mutual

/-- Codes go by the kinds of objects: no assignment changes one. -/
theorem SameKinds.code {objs objs' : Objects} (h : SameKinds objs objs') (v : Value) :
    objs'.code v = objs.code v := by
  cases v with
  | list home items => simp only [Objects.code, h.codeAll items]
  | tuple home items => simp only [Objects.code, h.codeAll items]
  | dict home entries => simp only [Objects.code, h.codeEntries entries]
  | object id => simp only [Objects.code, objectToken, h id]
  | _ => simp only [Objects.code]

theorem SameKinds.codeAll {objs objs' : Objects} (h : SameKinds objs objs')
    (vs : List Value) : objs'.codeAll vs = objs.codeAll vs := by
  cases vs with
  | nil => rfl
  | cons v rest => simp only [Objects.codeAll, h.code v, h.codeAll rest]

theorem SameKinds.codeEntries {objs objs' : Objects} (h : SameKinds objs objs')
    (es : List (String × Value)) : objs'.codeEntries es = objs.codeEntries es := by
  match es with
  | [] => rfl
  | (k, v) :: rest => simp only [Objects.codeEntries, h.code v, h.codeEntries rest]

end

/-! ## §2. Sameness and equality. -/

/-- Whether two values are one key. -/
def same (objs : Objects) (a b : Value) : Bool := objs.code a == objs.code b

/-- Whether a value is "not a number", which equals nothing. -/
def isNaN : Value → Bool
  | .float x =>
      match x.number with
      | .nan _ => true
      | _ => false
  | _ => false

/-- Whether two values are equal. -/
def equal (objs : Objects) (a b : Value) : Bool := objs.same a b && !isNaN a

/-- Two keys are one key where their codes are equal, so this is an equivalence. -/
theorem same_iff {objs : Objects} {a b : Value} :
    objs.same a b = true ↔ objs.code a = objs.code b := by
  simp [same]

@[simp] theorem same_refl (objs : Objects) (a : Value) : objs.same a a = true := by
  simp [same]

theorem same_comm (objs : Objects) (a b : Value) : objs.same a b = objs.same b a := by
  exact BEq.comm

theorem same_trans {objs : Objects} {a b c : Value} (hab : objs.same a b = true)
    (hbc : objs.same b c = true) : objs.same a c = true := by
  rw [same_iff] at *
  exact hab.trans hbc

/-- Two values that are one key answer every comparison alike. -/
theorem same_congr {objs : Objects} {a b : Value} (h : objs.same a b = true) (c : Value) :
    objs.same a c = objs.same b c := by
  rw [same_iff] at h
  simp [same, h]

/-- Equal values are one key; the converse fails for a value that is not a number.
-/
theorem same_of_equal {objs : Objects} {a b : Value} (h : objs.equal a b = true) :
    objs.same a b = true := by
  simp only [equal, Bool.and_eq_true] at h
  exact h.1

/-- "Not a number" shows in the code, whatever else a value is. -/
theorem isNaN_iff_code (objs : Objects) (v : Value) :
    isNaN v = true ↔ ∃ k, objs.code v = [.number (.nan k)] := by
  cases v with
  | float x =>
      simp only [isNaN, code]
      cases hx : x.number <;> simp
  | object id =>
      simp only [isNaN, code, objectToken]
      cases objs.kind id <;> simp
  | _ => simp [isNaN, code, Number.ofInt, Number.ofBool]

theorem isNaN_congr {objs : Objects} {a b : Value} (h : objs.same a b = true) :
    isNaN a = isNaN b := by
  rw [same_iff] at h
  rw [Bool.eq_iff_iff, isNaN_iff_code objs a, isNaN_iff_code objs b, h]

theorem equal_comm (objs : Objects) (a b : Value) : objs.equal a b = objs.equal b a := by
  simp only [equal]
  rw [same_comm]
  cases h : objs.same b a with
  | false => rfl
  | true => rw [isNaN_congr h]

theorem equal_trans {objs : Objects} {a b c : Value} (hab : objs.equal a b = true)
    (hbc : objs.equal b c = true) : objs.equal a c = true := by
  simp only [equal, Bool.and_eq_true] at *
  exact ⟨same_trans hab.1 hbc.1, hab.2⟩

/-- Values that are one key with others are equal where those are. -/
theorem equal_congr {objs : Objects} {a a' b b' : Value} (ha : objs.same a a' = true)
    (hb : objs.same b b' = true) : objs.equal a b = objs.equal a' b' := by
  have hsame : objs.same a b = objs.same a' b' := by
    rw [same_congr ha, same_comm, same_congr hb, same_comm]
  rw [equal, equal, hsame, isNaN_congr ha]

theorem SameKinds.same {objs objs' : Objects} (h : SameKinds objs objs') (a b : Value) :
    objs'.same a b = objs.same a b := by
  simp only [Objects.same, h.code]

/-- **No assignment changes which values are equal.** -/
theorem SameKinds.equal {objs objs' : Objects} (h : SameKinds objs objs') (a b : Value) :
    objs'.equal a b = objs.equal a b := by
  simp only [Objects.equal, h.same]

/-- A string is one key with every other string of its text, an object that is
one included. -/
theorem same_of_text? {objs : Objects} {a b : Value} {text : String}
    (ha : objs.text? a = some text) (hb : objs.text? b = some text) : objs.same a b = true := by
  have spelled : ∀ v, objs.text? v = some text → objs.code v = [.text text] := by
    intro v hv
    cases v with
    | str s =>
        rw [code, Option.some.inj hv]
    | object id =>
        simp only [text?] at hv
        simp only [code, objectToken]
        cases hkind : objs.kind id <;> simp_all
    | _ => exact absurd hv (by simp [text?])
  rw [same_iff, spelled a ha, spelled b hb]

/-- Only the absent value is one key with it. -/
theorem same_absent_iff {objs : Objects} {v : Value} :
    objs.same v .absent = true ↔ v = .absent := by
  rw [same_iff]
  cases v with
  | object id =>
      simp only [code, objectToken]
      cases objs.kind id <;> simp
  | _ => simp [code]

/-! ## §3. Keys that cannot address a bucket. -/

mutual

/-- The kind of the first changeable container met in a key, looking through
tuples from the left. -/
def changeable? : Value → Option String
  | .list _ _ => some "list"
  | .dict _ _ => some "dict"
  | .tuple _ items => changeableAmong? items
  | .absent | .bool _ | .int _ | .float _ | .str _ | .object _ => none

/-- `changeable?` over several values. -/
def changeableAmong? : List Value → Option String
  | [] => none
  | v :: vs => (changeable? v).or (changeableAmong? vs)

end

mutual

/-- Whether a value can address a bucket shows in its code: no token opens a
changeable container. -/
theorem changeable?_eq_none_iff (objs : Objects) (v : Value) :
    changeable? v = none ↔ ∀ t ∈ objs.code v, t.opensChangeable = false := by
  cases v with
  | list home items => simp [changeable?, code, Token.opensChangeable]
  | dict home entries => simp [changeable?, code, Token.opensChangeable]
  | tuple home items =>
      simp [changeable?, code, Token.opensChangeable,
        changeableAmong?_eq_none_iff objs items]
  | object id =>
      simp only [changeable?, code, objectToken]
      cases objs.kind id <;> simp [Token.opensChangeable]
  | _ => simp [changeable?, code, Token.opensChangeable]

theorem changeableAmong?_eq_none_iff (objs : Objects) (vs : List Value) :
    changeableAmong? vs = none ↔ ∀ t ∈ objs.codeAll vs, t.opensChangeable = false := by
  cases vs with
  | nil => simp [changeableAmong?, codeAll]
  | cons v rest =>
      rw [changeableAmong?, Option.or_eq_none_iff, changeable?_eq_none_iff objs v,
        changeableAmong?_eq_none_iff objs rest, codeAll]
      simp only [List.mem_append, or_imp, forall_and]

end

/-- What is one key with a usable key is usable. -/
theorem changeable?_eq_none_of_same {objs : Objects} {a b : Value}
    (h : objs.same a b = true) (ha : changeable? a = none) : changeable? b = none := by
  rw [changeable?_eq_none_iff objs] at ha ⊢
  rw [← same_iff.mp h]
  exact ha

end Objects

end ScopeChain
