/-
  ScopeChain.Proofs.PreparedKeys
  ──────────────────────────────
  **A KEY FUNCTION ONLY PREPARES KEYS THAT ARE NO STRINGS.**

  Where a table makes a string out of a key that is none, callers may as well
  give the string themselves: no operation can tell the difference, so long as
  an insertion still stores what it would have stored.  And where all keys are
  strings already, key functions make no difference at all, whatever they do and
  whenever they are exchanged.

      Store.replies          — what each action of a run replies
      Store.Prepares         — a node makes a string out of a key
      Store.Prepared         — a program, and the same with strings given directly
      PreparedAs.perform_eq  — no step can tell
      OtherKeyFunctions      — one step of two programs with strings for keys
      SameButKeyFunctions.act
                             — every step keeps the stores the same but for them
      key_functions_only_prepare_keys
-/
import Mathlib.Data.List.Forall2
import ScopeChain.Proofs.Distinct
import ScopeChain.Proofs.NodeSettings
import ScopeChain.Proofs.Settings

namespace ScopeChain

/-- The key that an action is given, if it takes one. -/
def Action.key? : Action → Option Value
  | .call _ op => op.key?
  | _ => none

namespace Store

/-- What each of several actions replies, with the store after it. -/
def replies (s : Store) : List Action → List Reply
  | [] => []
  | a :: rest => s.act a :: replies (s.act a).store rest

/-! ## §1. Keys made into strings by the caller. -/

/-- At a node, the key function makes a string out of a key that is neither a string nor
absent. -/
structure Prepares (s : Store) (n : NodeId) (key k : Value) : Prop where
  other : s.objects.text? key = none
  present : key ≠ .absent
  derived : (s.node n).keyFunction s.objects key = .ok k
  string : (s.objects.text? k).isSome

/-- An operation on a node, and the same with the string in place of the key; an insertion
is given what it is to store. -/
inductive PreparedAs (s : Store) (n : NodeId) : Operation → Operation → Prop where
  | insert {key k : Value} (prepares : s.Prepares n key k) (target : Target) (value : Value) :
      PreparedAs s n (.insert target key value) (.insert target k (storedSymbol key value))
  | lookup {key k : Value} (prepares : s.Prepares n key k) (reach : Reach) (f : Filter) :
      PreparedAs s n (.lookup reach key f) (.lookup reach k f)
  | contains {key k : Value} (prepares : s.Prepares n key k) :
      PreparedAs s n (.contains key) (.contains k)

/-- A program that starts in a store, and the same program with strings in place of some of
the keys that the tables would make them of. -/
inductive Prepared : Store → List Action → List Action → Prop where
  | nil (s : Store) : Prepared s [] []
  | keep {s : Store} (a : Action) {rest others : List Action}
      (later : Prepared (s.act a).store rest others) : Prepared s (a :: rest) (a :: others)
  | prepare {s : Store} {n : NodeId} {op op' : Operation} (first : s.PreparedAs n op op')
      {rest others : List Action} (later : Prepared (s.perform n op).store rest others) :
      Prepared s (.call n op :: rest) (.call n op' :: others)

namespace Prepares

variable {s : Store} {n : NodeId} {key k : Value}

/-- The string is the address of the key. -/
theorem addressAt_key (h : s.Prepares n key k) : s.addressAt n key = .ok k := by
  obtain ⟨text, htext⟩ := Option.isSome_iff_exists.mp h.string
  have hkey : s.objects.keyOf (s.node n).keyFunction key = .ok k := by
    rw [Objects.keyOf, h.other]
    exact h.derived
  rw [addressAt, Objects.addressOf, hkey]
  simp only [Objects.changeable?_of_text? htext]

theorem addressAt_eq (h : s.Prepares n key k) : s.addressAt n k = s.addressAt n key := by
  rw [h.addressAt_key, addressAt_of_string h.string]

theorem filing_eq (h : s.Prepares n key k) (target : Target) (value : Value) :
    s.filing n target k (storedSymbol key value) = s.filing n target key value := by
  -- what is stored is given, so the string does not take its place
  have hpresent : storedSymbol key value ≠ .absent :=
    storedSymbol_ne_absent fun habsent => h.present habsent.1
  have hstored : storedSymbol k (storedSymbol key value) = storedSymbol key value := by
    unfold storedSymbol
    exact if_neg fun habsent => hpresent ((Value.isAbsent_iff _).mp habsent)
  rw [filing_of_address h.addressAt_key,
    filing_of_address (h.addressAt_eq.trans h.addressAt_key), hstored]

end Prepares

/-- **No step can tell** the string from the key. -/
theorem PreparedAs.perform_eq {s : Store} {n : NodeId} {op op' : Operation}
    (h : s.PreparedAs n op op') : s.perform n op' = s.perform n op := by
  cases h with
  | @insert key k prepares target value =>
      have hinsert :
          s.insert n target k (storedSymbol key value) = s.insert n target key value := by
        rw [Store.insert, Store.insert, prepares.filing_eq]
      simp only [perform, hinsert]
  | @lookup key k prepares reach f =>
      simp only [perform, Store.lookup, prepares.addressAt_eq]
  | @contains key k prepares =>
      simp only [perform, Store.contains, Store.lookup, prepares.addressAt_eq]

theorem Prepared.runs {s t : Store} {actions others : List Action}
    (h : Prepared s actions others) (run : Runs s actions t) : Runs s others t := by
  induction h with
  | nil => exact run
  | keep a _ ih =>
      cases run with
      | cons admitted rest => exact .cons admitted (ih rest)
  | @prepare s n op op' first rest others _ ih =>
      cases run with
      | cons admitted rest =>
          refine .cons admitted ?_
          show Runs (s.perform n op').store others t
          rw [first.perform_eq]
          exact ih rest

theorem Prepared.replies_eq {s : Store} {actions others : List Action}
    (h : Prepared s actions others) : s.replies others = s.replies actions := by
  induction h with
  | nil => rfl
  | keep a _ ih => exact congrArg (_ :: ·) ih
  | @prepare s n op op' first rest others _ ih =>
      show s.perform n op' :: replies (s.perform n op').store others = _
      rw [first.perform_eq, ih]
      rfl

/-! ## §2. Programs whose keys are strings. -/

/-- One step of two programs: the same in both, with a string for its key if it takes
one, but for the key functions that it gives to tables. -/
inductive OtherKeyFunctions (objs : Objects) : Action → Action → Prop where
  | create (keyFunction other : KeyFunction) (policy : Value) :
      OtherKeyFunctions objs (.create keyFunction policy) (.create other policy)
  | setKeyFunction (n : NodeId) (keyFunction other : KeyFunction) :
      OtherKeyFunctions objs (.call n (.setKeyFunction keyFunction))
        (.call n (.setKeyFunction other))
  | same (a : Action) (string : ∀ key, a.key? = some key → (objs.text? key).isSome) :
      OtherKeyFunctions objs a a

/-- Two stores that are the same but for the key functions of their nodes. -/
structure SameButKeyFunctions (s t : Store) : Prop extends SameButSettings s t where
  policy : ∀ n, (t.node n).policy = (s.node n).policy

/-- Two replies alike: one answer or failure, the same events, and stores that are the
same but for key functions. -/
structure SameReply (r r' : Reply) : Prop where
  store : SameButKeyFunctions r.store r'.store
  outcome : r'.outcome = r.outcome
  events : r'.events = r.events

namespace SameButKeyFunctions

variable {s t : Store}

theorem refl (s : Store) : SameButKeyFunctions s s := ⟨.refl s, fun _ => rfl⟩

theorem allows_eq (h : SameButKeyFunctions s t) (n : NodeId) :
    t.allowsDuplicates n = s.allowsDuplicates n := by
  rw [allowsDuplicates, allowsDuplicates, h.objects, h.policy]

theorem addressAt_eq (h : SameButKeyFunctions s t) {key : Value}
    (string : (s.objects.text? key).isSome) (n : NodeId) :
    t.addressAt n key = s.addressAt n key := by
  rw [addressAt_of_string string, addressAt_of_string (h.objects ▸ string)]

/-- What the actions of a pair leave has the same policies, if it has the same places: they
give the same policies to nodes. -/
theorem of_act (h : SameButKeyFunctions s t) {objs : Objects} {a b : Action}
    (pair : OtherKeyFunctions objs a b) (admitted : s.Admits a) (admitted' : t.Admits b)
    (same : SameButSettings (s.act a).store (t.act b).store) :
    SameButKeyFunctions (s.act a).store (t.act b).store where
  toSameButSettings := same
  policy := by
    intro n
    have made : (t.made? b).map Settings.policy = (s.made? a).map Settings.policy := by
      cases pair with
      | create => simp only [made?, Option.map_some, h.objects]
      | setKeyFunction => rfl
      | same =>
          unfold made?
          split
          next => simp only [Option.map_some, h.objects]
          next => simp only [Option.map_some, h.objects, h.policy]
          next => rfl
    have assigned : b.policyFor? n = a.policyFor? n := by
      cases pair <;> rfl
    rw [policy_act admitted', policy_act admitted, policyGiven?, policyGiven?, made, assigned,
      h.nodes, h.policy]

/-- **Every step replies alike**, and what the first program can do the second can: with a
string for its key an operation goes by no key function. -/
theorem act (h : SameButKeyFunctions s t) {objs : Objects}
    (kinds : Objects.SameKinds objs s.objects) {a b : Action} (pair : OtherKeyFunctions objs a b)
    (admitted : s.Admits a) : t.Admits b ∧ SameReply (s.act a) (t.act b) := by
  have there : ∀ n, n < s.nodes.length → n < t.nodes.length := by
    intro n hn
    rw [h.nodes]
    exact hn
  have keeps := fun admitted' same => h.of_act pair admitted admitted' same
  cases pair with
  | create keyFunction other policy =>
      have same := h.toSameButSettings.create keyFunction other policy policy
      exact ⟨trivial, keeps trivial same, rfl, rfl⟩
  | setKeyFunction n keyFunction other =>
      have same := h.toSameButSettings.setKeyFunction admitted keyFunction other
      exact ⟨there n admitted, keeps (there n admitted) same, rfl, rfl⟩
  | same a string =>
      cases a with
      | create keyFunction policy =>
          have same := h.toSameButSettings.create keyFunction keyFunction policy policy
          exact ⟨trivial, keeps trivial same, rfl, rfl⟩
      | assign id attr value =>
          exact ⟨trivial, ⟨h.toSameButSettings.assign id attr value, h.policy⟩, rfl, rfl⟩
      | call n op =>
          have address : ∀ key, op.key? = some key → t.addressAt n key = s.addressAt n key := by
            intro key hkey
            apply h.addressAt_eq
            -- what was a string at the beginning is one now
            rw [kinds.text?]
            exact string key hkey
          obtain ⟨same, events, outcome⟩ :=
            h.toSameButSettings.perform admitted address fun _ _ _ _ => h.allows_eq n
          exact ⟨there n admitted, keeps (there n admitted) same, outcome fun m _ => h.policy m,
            events⟩

/-- Whole runs reply alike, step by step. -/
theorem runs (h : SameButKeyFunctions s t) {objs : Objects}
    (kinds : Objects.SameKinds objs s.objects) {actions others : List Action}
    (pairs : List.Forall₂ (OtherKeyFunctions objs) actions others) {s' : Store}
    (run : Runs s actions s') :
    ∃ t', Runs t others t' ∧ SameButKeyFunctions s' t'
      ∧ List.Forall₂ SameReply (s.replies actions) (t.replies others) := by
  induction pairs generalizing s t with
  | nil =>
      cases run
      exact ⟨t, .nil t, h, .nil⟩
  | @cons a _ _ _ pair _ ih =>
      cases run with
      | cons admitted rest =>
          obtain ⟨admitted', reply⟩ := h.act kinds pair admitted
          have kinds' := kinds.trans (act_entriesEffect s a).grows.kinds
          obtain ⟨t', run', last, others⟩ := ih reply.store kinds' rest
          exact ⟨t', .cons admitted' run', last, .cons reply others⟩

end SameButKeyFunctions

/-! ## §3. Key functions only prepare keys. -/

/-- **A key function only prepares keys that are no strings.**  Take any run from the
beginning, over any nodes.

In each of its operations a key that is neither a string nor absent, and that the
key function of the node at that moment makes a string of, may be replaced by this
string, an insertion without a value being given the key for its value: the run goes
through, every action replies as before, and leaves the same store.

If every key given is a string, a text with attributes included, other key functions
may be given to all tables and assigned instead, failing ones included: the run goes
through, every action has the same outcome and the same events and leaves the same
scopes, places and policies, and every walk steps alike.

And a string is its own key at every node, whatever its attributes say. -/
theorem key_functions_only_prepare_keys {objects : Objects} {journaling : Bool}
    {actions : List Action} {s : Store} (run : Runs (.empty objects journaling) actions s) :
    let start := Store.empty objects journaling
    (∀ others, start.Prepared actions others →
        Runs start others s ∧ start.replies others = start.replies actions)
      ∧ (∀ others, List.Forall₂ (OtherKeyFunctions objects) actions others →
          ∃ t, Runs start others t
            ∧ List.Forall₂ SameReply (start.replies actions) (start.replies others)
            ∧ SameButKeyFunctions s t ∧ ∀ w, t.step w = s.step w)
      ∧ ∀ n key, (objects.text? key).isSome → s.addressAt n key = .ok key := by
  intro start
  refine ⟨?_, ?_, ?_⟩
  · intro others prepared
    exact ⟨prepared.runs run, prepared.replies_eq⟩
  · intro others pairs
    obtain ⟨t, run', same, replies⟩ :=
      (SameButKeyFunctions.refl start).runs (.refl objects) pairs run
    exact ⟨t, run', replies, same, same.step_eq⟩
  · intro n key string
    apply addressAt_of_string
    rw [run.grows.kinds.text?]
    exact string

/-- A symbol, and a text with an identifier of its own. -/
def namedObjects : Objects :=
  [.declare (.str "x") none none none,
    { SymbolObject.bare (.textual "x") with identifier := some (.str "y") }]

/-- A program with a symbol for its key, and the same with the name of the symbol; and a
program with a text for its key, and the same with a key function that fails. -/
theorem key_functions_only_prepare_keys_named :
    let start := Store.empty namedObjects false
    let create : Action := .create KeyFunction.byDefault (.bool true)
    let bySymbol : List Action := [create, .call 0 (.insert .current (.object 0) .absent),
      .call 0 (.contains (.object 0))]
    let byName : List Action := [create, .call 0 (.insert .current (.str "x") (.object 0)),
      .call 0 (.contains (.str "x"))]
    let inserted : Action := .call 0 (.insert .current (.object 1) .absent)
    let refusing : Action := .create KeyFunction.refusing (.bool true)
    start.replies byName = start.replies bySymbol
      ∧ List.Forall₂ SameReply (start.replies [create, inserted])
          (start.replies [refusing, inserted])
      ∧ ((start.act create).store.act inserted).store.here 0 = [⟨.object 1, [.object 1]⟩] := by
  intro start create bySymbol byName inserted refusing
  have there : (0 : Nat) < 1 := by decide
  have run : Runs start bySymbol _ := .cons trivial (.cons there (.cons there (.nil _)))
  have run' : Runs start [create, inserted] _ := .cons trivial (.cons there (.nil _))
  have prepares : ∀ s : Store, s.objects = namedObjects →
      (s.node 0).keyFunction = KeyFunction.byDefault →
      s.Prepares 0 (.object 0) (.str "x") := by
    intro s hobjects hfunction
    refine ⟨?_, by simp, ?_, rfl⟩
    · rw [hobjects]
      rfl
    · rw [hobjects, hfunction]
      rfl
  have prepared : start.Prepared bySymbol byName :=
    .keep create (.prepare (.insert (prepares _ rfl rfl) .current .absent)
      (.prepare (.contains (prepares _ rfl rfl)) (.nil _)))
  have pairs : List.Forall₂ (OtherKeyFunctions namedObjects) [create, inserted]
      [refusing, inserted] := by
    refine .cons (.create _ _ _) (.cons (.same inserted ?_) .nil)
    intro key hkey
    obtain rfl := Option.some.inj hkey
    rfl
  obtain ⟨hprepared, -, -⟩ := key_functions_only_prepare_keys run
  obtain ⟨-, hother, -⟩ := key_functions_only_prepare_keys run'
  obtain ⟨_, -, replies, -, -⟩ := hother _ pairs
  exact ⟨(hprepared _ prepared).2, replies, rfl⟩

end Store

end ScopeChain
