/-
  ScopeChain.Insertion
  ────────────────────
  **FILING A SYMBOL IN A SCOPE.**

  An insertion first decides (`Store.filing`), then acts (`Store.insert`): it is
  rejected, or files the symbol.  Recording comes last, and needs the text of the
  key; where that is not to be had, the insertion fails with the symbol already filed.

      Store.filing           — the decision
      Store.insertionRecord  — what the journal is to hold
      Store.insert           — the insertion
      Store.insert_store_of_clash, Store.insert_store_of_accepted,
      Store.insert_store_cases, Store.insert_of_accepted
                             — the store afterwards
      Store.insert_fault_eq_none_iff
                             — when an insertion does not fail
-/
import ScopeChain.Lookup
import ScopeChain.Event

namespace ScopeChain

/-! ## §1. The decision. -/

/-- What an insertion comes to: the key, the symbol to store, and the entry it
clashes with. -/
structure Filing where
  key : Value
  symbol : Value
  clash : Option Value

/-- What an insertion did: the store afterwards, the failure if there was one,
and the events recorded. -/
structure Insertion where
  store : Store
  fault : Option Fault
  events : List Event

/-- The failure of an insertion that clashes: the report, or that the key has no text. -/
def rejection (objs : Objects) (key existing : Value) (target : Target) : Fault :=
  match objs.display key with
  | .error fault => fault
  | .ok text => .duplicate ⟨key, existing, .str target.word, clashMessage text target.word⟩

namespace Store

/-- The scope that an insertion at a node goes to. -/
def targetScope (s : Store) (n : NodeId) : Target → ScopeId
  | .current => (s.node n).scope
  | .outermost => (s.node n).root

/-- Decide an insertion: the first half of `_insert`. -/
def filing (s : Store) (n : NodeId) (target : Target) (key value : Value) :
    Except Fault Filing :=
  match s.addressAt n key with
  | .error fault => .error fault
  | .ok k =>
      let symbol := if value.isAbsent then key else value
      let bucket := (s.scopes.read (s.targetScope n target)).bucket s.objects k
      .ok ⟨k, symbol, clash? s.objects (s.allowsDuplicates n) bucket symbol⟩

/-! ## §2. The act. -/

/-- File a symbol under a key in a scope. -/
def file (s : Store) (scope : ScopeId) (key symbol : Value) : Store :=
  { s with scopes := s.scopes.write scope ((s.scopes.read scope).insert s.objects key symbol) }

/-- What the journal is to hold of a decided insertion: nothing where none is
kept, otherwise one event with the text of the key, which may be unavailable. -/
def insertionRecord (s : Store) (n : NodeId) (target : Target) (f : Filing) :
    Except Fault (List Event) :=
  if s.journaling then
    match s.objects.display f.key with
    | .error fault => .error fault
    | .ok text =>
        let depth := (s.node n).depth
        .ok [if f.clash.isSome then .rejected text target depth else .stored text target depth]
  else .ok []

/-- Insert a symbol (`_insert`, called by `add` and `add_to_global_scope`). -/
def insert (s : Store) (n : NodeId) (target : Target) (key value : Value) : Insertion :=
  match s.filing n target key value with
  | .error fault => ⟨s, some fault, []⟩
  | .ok f =>
      let after :=
        match f.clash with
        | some _ => s
        | none => s.file (s.targetScope n target) f.key f.symbol
      match s.insertionRecord n target f with
      | .error fault => ⟨after, some fault, []⟩
      | .ok events =>
          ⟨after, f.clash.map fun existing => rejection s.objects f.key existing target, events⟩

/-! ## §3. What an insertion leaves behind. -/

/-- Filing moves no node, so the next insertion there goes to the same scope. -/
theorem targetScope_file (s : Store) (scope : ScopeId) (key symbol : Value) (n : NodeId)
    (target : Target) :
    (s.file scope key symbol).targetScope n target = s.targetScope n target := by
  cases target <;> rfl

theorem insert_of_undecided {s : Store} {n : NodeId} {target : Target} {key value : Value}
    {fault : Fault} (h : s.filing n target key value = .error fault) :
    s.insert n target key value = ⟨s, some fault, []⟩ := by
  rw [insert, h]

/-- An insertion that clashes changes nothing, whatever becomes of its report. -/
theorem insert_store_of_clash {s : Store} {n : NodeId} {target : Target} {key value : Value}
    {f : Filing} {existing : Value} (h : s.filing n target key value = .ok f)
    (hc : f.clash = some existing) : (s.insert n target key value).store = s := by
  rw [insert, h]
  simp only [hc]
  split <;> rfl

/-- An insertion without a clash files its symbol, whatever becomes of its
record. -/
theorem insert_store_of_accepted {s : Store} {n : NodeId} {target : Target}
    {key value : Value} {f : Filing} (h : s.filing n target key value = .ok f)
    (hc : f.clash = none) :
    (s.insert n target key value).store = s.file (s.targetScope n target) f.key f.symbol := by
  rw [insert, h]
  simp only [hc]
  split <;> rfl

/-- An insertion leaves the store as it was, or it has met no clash and files
its symbol. -/
theorem insert_store_cases (s : Store) (n : NodeId) (target : Target) (key value : Value) :
    (s.insert n target key value).store = s
      ∨ ∃ f, s.filing n target key value = .ok f ∧ f.clash = none
          ∧ (s.insert n target key value).store
              = s.file (s.targetScope n target) f.key f.symbol := by
  cases hf : s.filing n target key value with
  | error fault =>
      rw [insert_of_undecided hf]
      exact .inl rfl
  | ok f =>
      cases hc : f.clash with
      | some existing => exact .inl (insert_store_of_clash hf hc)
      | none => exact .inr ⟨f, rfl, hc, insert_store_of_accepted hf hc⟩

/-- An insertion that does not fail has met no clash and filed its symbol. -/
theorem insert_of_accepted {s : Store} {n : NodeId} {target : Target} {key value : Value}
    (h : (s.insert n target key value).fault = none) :
    ∃ f, s.filing n target key value = .ok f ∧ f.clash = none
      ∧ (s.insert n target key value).store
          = s.file (s.targetScope n target) f.key f.symbol := by
  cases hf : s.filing n target key value with
  | error fault =>
      rw [insert_of_undecided hf] at h
      cases h
  | ok f =>
      cases hc : f.clash with
      | none => exact ⟨f, rfl, hc, insert_store_of_accepted hf hc⟩
      | some existing =>
          -- a clash is a failure, and so is a clash that could not be recorded
          rw [insert, hf] at h
          simp only [hc] at h
          split at h <;> cases h

/-- Exactly then an insertion does not fail: it comes to a decision, meets no clash
and can be recorded. -/
theorem insert_fault_eq_none_iff {s : Store} {n : NodeId} {target : Target} {key value : Value} :
    (s.insert n target key value).fault = none
      ↔ ∃ f events, s.filing n target key value = .ok f ∧ f.clash = none
          ∧ s.insertionRecord n target f = .ok events := by
  cases hf : s.filing n target key value with
  | error fault =>
      rw [insert_of_undecided hf]
      simp
  | ok f =>
      unfold insert
      rw [hf]
      cases hrecord : s.insertionRecord n target f with
      | error fault => simp [hrecord]
      | ok events => simp [hrecord]

end Store

end ScopeChain
