/-
  ScopeChain.Proofs.Runs
  ──────────────────────
  **WHAT CALLERS CAN MAKE OF A STORE.**

  A caller makes tables, calls operations on any node there is, parents of
  tables included, and assigns attributes of objects.  A RUN is any sequence of
  these, whatever comes of each; a store is REACHABLE if some run from an empty
  store leads to it.

      Action, Store.act      — one thing a caller does
      Store.Runs             — runs
      Store.Reachable        — stores at the end of a run
      Change                 — everything that an action can do to a store
      act_change             — it is everything
      Store.journal          — what a run records
      Runs.keeps             — what every change keeps, every run keeps
      Store.Along            — a condition on each action of a run
      Runs.keeps_along       — what every action under a condition keeps
      EntriesEffect          — what an action does to objects and entries

  An invariant of runs is proved change by change, never operation by
  operation: fourteen operations come to eight changes.  Where it depends on
  which insertions or assignments a run does, it is proved effect by effect.
-/
import ScopeChain.Operation

namespace ScopeChain

/-! ## §1. Runs. -/

/-- The key that an operation is given, if it takes one. -/
def Operation.key? : Operation → Option Value
  | .insert _ key _ => some key
  | .lookup _ key _ => some key
  | .contains key => some key
  | _ => none

/-- One thing that a caller does to a store. -/
inductive Action where
  /-- Make a table. -/
  | create (keyFunction : KeyFunction) (policy : Value)
  /-- Call an operation on a node. -/
  | call (n : NodeId) (op : Operation)
  /-- Assign an attribute of an object. -/
  | assign (id : ObjectId) (attr : Attribute) (value : Value)

namespace Store

/-- Do one thing. -/
def act (s : Store) : Action → Reply
  | .create keyFunction policy => ⟨s.create keyFunction policy, .ok .done, []⟩
  | .call n op => s.perform n op
  | .assign id attr value => ⟨s.assign id attr value, .ok .done, []⟩

/-- An operation can be called on a node that has been made. -/
def Admits (s : Store) : Action → Prop
  | .call n _ => n < s.nodes.length
  | .create _ _ => True
  | .assign _ _ _ => True

/-- Some actions, done one after the other, lead from one store to another. -/
inductive Runs : Store → List Action → Store → Prop where
  | nil (s : Store) : Runs s [] s
  | cons {s t : Store} {a : Action} {rest : List Action} (admitted : s.Admits a)
      (run : Runs (s.act a).store rest t) : Runs s (a :: rest) t

/-- A store that callers can arrive at. -/
def Reachable (s : Store) : Prop :=
  ∃ objects journaling actions, Runs (.empty objects journaling) actions s

theorem Runs.append {s t u : Store} {first second : List Action} (h₁ : Runs s first t)
    (h₂ : Runs t second u) : Runs s (first ++ second) u := by
  induction h₁ with
  | nil => exact h₂
  | cons admitted _ ih => exact .cons admitted (ih h₂)

theorem Runs.single {s : Store} {a : Action} (admitted : s.Admits a) :
    Runs s [a] (s.act a).store :=
  .cons admitted (.nil _)

/-- What is done in a run after its first actions is a run from where those
lead. -/
theorem Runs.rest {s t u : Store} {first second : List Action}
    (run : Runs s (first ++ second) u) (h : Runs s first t) : Runs t second u := by
  induction h with
  | nil => exact run
  | cons _ _ ih =>
      cases run with
      | cons _ others => exact ih others

/-! ## §2. Changes. -/

/-- Everything that an action can do to a store. -/
inductive Change (s : Store) : Store → Prop where
  | unchanged : Change s s
  | create (keyFunction : KeyFunction) (policy : Value) :
      Change s (s.create keyFunction policy)
  | enter {n : NodeId} (hn : n < s.nodes.length) : Change s (s.enter n)
  | leave {n p : NodeId} (hn : n < s.nodes.length) (hp : (s.node n).parent = some p) :
      Change s (s.rejoin n p)
  | file {n : NodeId} {target : Target} {key value : Value} {f : Filing}
      (hn : n < s.nodes.length) (decided : s.filing n target key value = .ok f)
      (accepted : f.clash = none) :
      Change s (s.file (s.targetScope n target) f.key f.symbol)
  | setPolicy {n : NodeId} (hn : n < s.nodes.length) (policy : Value) :
      Change s (s.setPolicy n policy)
  | setKeyFunction {n : NodeId} (hn : n < s.nodes.length) (keyFunction : KeyFunction) :
      Change s (s.setKeyFunction n keyFunction)
  | assign (id : ObjectId) (attr : Attribute) (value : Value) :
      Change s (s.assign id attr value)

theorem insert_change {s : Store} {n : NodeId} (hn : n < s.nodes.length) (target : Target)
    (key value : Value) : Change s (s.insert n target key value).store := by
  -- undecided and rejected insertions change nothing; only an accepted one files
  rcases insert_store_cases s n target key value with hsame | ⟨f, hf, hc, hfiled⟩
  · rw [hsame]
    exact .unchanged
  · rw [hfiled]
    exact .file hn hf hc

theorem perform_change {s : Store} {n : NodeId} (hn : n < s.nodes.length) (op : Operation) :
    Change s (s.perform n op).store := by
  cases op with
  | enter => exact .enter hn
  | leave =>
      simp only [perform]
      split
      next => exact .unchanged
      next after hafter =>
        obtain ⟨p, hp, rfl⟩ := leave?_eq_some_iff.mp hafter
        exact .leave hn hp
  | insert target key value =>
      rw [perform_insert_store]
      exact insert_change hn target key value
  | setPolicy policy => exact .setPolicy hn policy
  | setKeyFunction keyFunction => exact .setKeyFunction hn keyFunction
  | lookup => exact .unchanged
  | contains => exact .unchanged
  | visible => exact .unchanged
  | depth => exact .unchanged
  | isGlobal => exact .unchanged
  | describe => exact .unchanged
  | keyCount => exact .unchanged
  | levels => exact .unchanged
  | policy => exact .unchanged

/-- **Every action is one change.** -/
theorem act_change {s : Store} {a : Action} (admitted : s.Admits a) :
    Change s (s.act a).store := by
  cases a with
  | create keyFunction policy => exact .create keyFunction policy
  | call n op => exact perform_change admitted op
  | assign id attr value => exact .assign id attr value

/-- **What every change keeps, every run keeps.** -/
theorem Runs.keeps {P : Store → Prop} (keep : ∀ {s t : Store}, Change s t → P s → P t)
    {s t : Store} {actions : List Action} (run : Runs s actions t) (hs : P s) : P t := by
  induction run with
  | nil => exact hs
  | cons admitted _ ih => exact ih (keep (act_change admitted) hs)

/-- A property of empty stores that every change keeps holds of every reachable
store. -/
theorem Reachable.holds {P : Store → Prop} (start : ∀ objects journaling,
      P (.empty objects journaling)) (keep : ∀ {s t : Store}, Change s t → P s → P t)
    {s : Store} (hs : s.Reachable) : P s := by
  obtain ⟨objects, journaling, actions, run⟩ := hs
  exact run.keeps keep (start objects journaling)

theorem Reachable.runs {s t : Store} {actions : List Action} (hs : s.Reachable)
    (run : Runs s actions t) : t.Reachable := by
  obtain ⟨objects, journaling, earlier, before⟩ := hs
  exact ⟨objects, journaling, earlier ++ actions, before.append run⟩

/-- No change takes a node away. -/
theorem Change.nodes_length_le {s t : Store} (h : Change s t) :
    s.nodes.length ≤ t.nodes.length := by
  cases h with
  | create => simp [Store.create]
  | enter => simp [Store.enter]
  | leave => simp [Store.rejoin]
  | setPolicy => simp [Store.setPolicy]
  | setKeyFunction => simp [Store.setKeyFunction]
  | unchanged => exact Nat.le_refl _
  | file => exact Nat.le_refl _
  | assign => exact Nat.le_refl _

theorem Runs.nodes_length_le {s t : Store} {actions : List Action} (run : Runs s actions t) :
    s.nodes.length ≤ t.nodes.length :=
  run.keeps (P := fun u => s.nodes.length ≤ u.nodes.length)
    (fun change h => Nat.le_trans h change.nodes_length_le) (Nat.le_refl _)

/-- No change takes a scope away. -/
theorem Change.scopes_length_le {s t : Store} (h : Change s t) :
    s.scopes.length ≤ t.scopes.length := by
  cases h with
  | create => simp [Store.create]
  | enter => simp [Store.enter]
  | file => simp [Store.file]
  | unchanged => exact Nat.le_refl _
  | leave => exact Nat.le_refl _
  | setPolicy => exact Nat.le_refl _
  | setKeyFunction => exact Nat.le_refl _
  | assign => exact Nat.le_refl _

theorem Runs.scopes_length_le {s t : Store} {actions : List Action} (run : Runs s actions t) :
    s.scopes.length ≤ t.scopes.length :=
  run.keeps (P := fun u => s.scopes.length ≤ u.scopes.length)
    (fun change h => Nat.le_trans h change.scopes_length_le) (Nat.le_refl _)

/-- A size that no action raises by more than one takes every value on the way: some action
of the run brings it past each. -/
theorem Runs.exists_raise (size : Store → Nat)
    (one : ∀ {u : Store} {a : Action}, u.Admits a → size (u.act a).store ≤ size u + 1)
    {s t : Store} {actions : List Action} (run : Runs s actions t) {i : Nat} (low : size s ≤ i)
    (high : i < size t) :
    ∃ before a after u, actions = before ++ a :: after ∧ Runs s before u ∧ u.Admits a
      ∧ size u = i ∧ size (u.act a).store = i + 1 ∧ Runs (u.act a).store after t := by
  induction run with
  | nil => exact absurd high (Nat.not_lt_of_le low)
  | @cons s t a rest admitted run ih =>
      -- the first action brings it past the value, or a later one does
      by_cases hi : i < size (s.act a).store
      · have hone := one admitted
        exact ⟨[], a, rest, s, rfl, .nil s, admitted, by omega, by omega, run⟩
      · obtain ⟨before, b, after, u, rfl, first, others⟩ := ih (Nat.le_of_not_lt hi) high
        exact ⟨a :: before, b, after, u, rfl, .cons admitted first, others⟩

/-- Everything that the actions of a run record. -/
def journal (s : Store) : List Action → List Event
  | [] => []
  | a :: rest => (s.act a).events ++ journal (s.act a).store rest

theorem Runs.journal_append {s t : Store} {first : List Action} (run : Runs s first t)
    (second : List Action) : s.journal (first ++ second) = s.journal first ++ t.journal second := by
  induction run with
  | nil => rfl
  | cons _ _ ih => rw [List.cons_append, journal, journal, ih, List.append_assoc]

/-- Operations on a node, up to the first failure, are a run of the first of them, and record
what that run records. -/
theorem exists_runs_performAll {s : Store} {n : NodeId} (hn : n < s.nodes.length)
    (operations : List Operation) (answer : Answer) :
    ∃ done, done <+: operations
      ∧ Runs s (done.map (.call n)) (s.performAll n answer operations).store
      ∧ (s.performAll n answer operations).events = s.journal (done.map (.call n)) := by
  induction operations generalizing s answer with
  | nil => exact ⟨[], List.prefix_rfl, .nil s, rfl⟩
  | cons op rest ih =>
      -- a failure ends the run after the operation that failed, with its change kept
      have first : Runs s [.call n op] (s.perform n op).store := .single hn
      rw [performAll]
      cases hout : (s.perform n op).outcome with
      | error fault =>
          refine ⟨[op], List.prefix_append [op] rest, first, ?_⟩
          exact (List.append_nil _).symm
      | ok a =>
          obtain ⟨done, hdone, others, events⟩ :=
            ih (Nat.lt_of_lt_of_le hn first.nodes_length_le) a
          refine ⟨op :: done, (List.prefix_cons_inj op).mpr hdone, first.append others, ?_⟩
          show _ ++ _ = _ ++ _
          rw [events]
          rfl

/-! ## §3. Conditions along a run. -/

/-- Each action of a run, with the store that it is done to, meets a
condition. -/
def Along (P : Store → Action → Prop) (s : Store) : List Action → Prop
  | [] => True
  | a :: rest => P s a ∧ Along P (s.act a).store rest

/-- Each action of a run meets the condition in some store. -/
theorem exists_of_mem_along {s : Store} {P : Store → Action → Prop} {actions : List Action}
    (along : s.Along P actions) : ∀ a ∈ actions, ∃ u, P u a := by
  induction actions generalizing s with
  | nil =>
      intro a ha
      cases ha
  | cons b rest ih =>
      intro a ha
      rcases List.mem_cons.mp ha with rfl | hrest
      · exact ⟨s, along.1⟩
      · exact ih along.2 a hrest

/-- What is done under a condition at every step keeps what each step under it
keeps. -/
theorem Runs.keeps_along {P : Store → Action → Prop} {I : Store → Prop}
    (keep : ∀ {u : Store} {a : Action}, u.Admits a → P u a → I u → I (u.act a).store)
    {s t : Store} {actions : List Action} (run : Runs s actions t) (along : s.Along P actions)
    (hs : I s) : I t := by
  induction run with
  | nil => exact hs
  | cons admitted _ ih =>
      obtain ⟨first, rest⟩ := along
      exact ih rest (keep admitted first hs)

/-- Two conditions that come to the same at every step, as long as an invariant
holds that each step under the first one keeps, come to the same along a
run. -/
theorem Runs.along_iff {P Q : Store → Action → Prop} {I : Store → Prop}
    (same : ∀ {u : Store} {a : Action}, u.Admits a → I u → (P u a ↔ Q u a))
    (keep : ∀ {u : Store} {a : Action}, u.Admits a → P u a → I u → I (u.act a).store)
    {s t : Store} {actions : List Action} (run : Runs s actions t) (hs : I s) :
    s.Along P actions ↔ s.Along Q actions := by
  induction run with
  | nil => exact Iff.rfl
  | cons admitted _ ih =>
      -- past a step that meets neither condition nothing needs to be compared
      constructor
      · rintro ⟨first, rest⟩
        exact ⟨(same admitted hs).mp first, (ih (keep admitted first hs)).mp rest⟩
      · rintro ⟨first, rest⟩
        have first' := (same admitted hs).mpr first
        exact ⟨first', (ih (keep admitted first' hs)).mpr rest⟩

/-- Along the parts of a run. -/
theorem Runs.along_append {P : Store → Action → Prop} {s t : Store} {first second : List Action}
    (run : Runs s first t) : s.Along P (first ++ second) ↔ s.Along P first ∧ t.Along P second := by
  induction run with
  | nil => simp [Along]
  | cons _ _ ih => rw [List.cons_append, Along, Along, ih, and_assoc]

/-! ## §4. What actions do to objects and entries. -/

/-- What an action does to objects and entries: nothing, or it files a symbol,
or it assigns an attribute. -/
inductive EntriesEffect (s : Store) : Action → Store → Prop where
  | quiet {a : Action} {t : Store} (objects : t.objects = s.objects)
      (entries : ∀ i, t.scopes.read i = s.scopes.read i) : EntriesEffect s a t
  | file {n : NodeId} {target : Target} {key value : Value} {f : Filing}
      (decided : s.filing n target key value = .ok f) (accepted : f.clash = none) :
      EntriesEffect s (.call n (.insert target key value))
        (s.file (s.targetScope n target) f.key f.symbol)
  | assign (id : ObjectId) (attr : Attribute) (value : Value) :
      EntriesEffect s (.assign id attr value) (s.assign id attr value)

theorem perform_entriesEffect (s : Store) (n : NodeId) (op : Operation) :
    EntriesEffect s (.call n op) (s.perform n op).store := by
  cases op with
  | enter => exact .quiet rfl fun i => read_push_nil s.scopes i
  | leave =>
      simp only [perform]
      split
      next => exact .quiet rfl fun _ => rfl
      next after hafter =>
        obtain ⟨p, -, rfl⟩ := leave?_eq_some_iff.mp hafter
        exact .quiet rfl fun _ => rfl
  | insert target key value =>
      rw [perform_insert_store]
      rcases insert_store_cases s n target key value with hsame | ⟨f, hf, hc, hfiled⟩
      · rw [hsame]
        exact .quiet rfl fun _ => rfl
      · rw [hfiled]
        exact .file hf hc
  | lookup => exact .quiet rfl fun _ => rfl
  | contains => exact .quiet rfl fun _ => rfl
  | visible => exact .quiet rfl fun _ => rfl
  | depth => exact .quiet rfl fun _ => rfl
  | isGlobal => exact .quiet rfl fun _ => rfl
  | describe => exact .quiet rfl fun _ => rfl
  | keyCount => exact .quiet rfl fun _ => rfl
  | levels => exact .quiet rfl fun _ => rfl
  | policy => exact .quiet rfl fun _ => rfl
  | setPolicy => exact .quiet rfl fun _ => rfl
  | setKeyFunction => exact .quiet rfl fun _ => rfl

/-- **Every action has one of the effects**, whatever node it is called on. -/
theorem act_entriesEffect (s : Store) (a : Action) : EntriesEffect s a (s.act a).store := by
  cases a with
  | create => exact .quiet rfl fun i => read_push_nil s.scopes i
  | call n op => exact perform_entriesEffect s n op
  | assign id attr value => exact .assign id attr value

end Store

end ScopeChain
