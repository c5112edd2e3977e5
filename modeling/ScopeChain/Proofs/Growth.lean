/-
  ScopeChain.Proofs.Growth
  ────────────────────────
  **SCOPES ONLY GROW.**

  Nothing is ever taken out of a scope.  Of the buckets a scope has, each stays
  in its place, under the form of the key that opened it; entries are appended
  to it, and new buckets are appended to the scope.  So what was found under a
  key once is found there ever after, first and in the same order.  This is so
  for every scope, also where no node is at it any more.

      ScopeMap.Extends       — a scope, and the same scope later
      Extends.bucket         — the entries under a key, earlier and later
      Store.Grows            — a store, and the same store later
      Runs.grows             — every run makes a store grow
      ScopeMap.OneMore       — a scope, and the same scope with one more entry
      scopes_append_only     — scope by scope, and action by action
-/
import ScopeChain.Proofs.Buckets

namespace ScopeChain

/-! ## §1. Growing scopes. -/

namespace ScopeMap

/-- The second scope has the buckets of the first in their places, each with the
same key and with at least the same entries, and perhaps more buckets. -/
inductive Extends : ScopeMap → ScopeMap → Prop where
  | new (m : ScopeMap) : Extends [] m
  | kept {b b' : Bucket} {rest rest' : ScopeMap} (key : b'.key = b.key)
      (entries : b.entries <+: b'.entries) (others : Extends rest rest') :
      Extends (b :: rest) (b' :: rest')

theorem Extends.refl (m : ScopeMap) : Extends m m := by
  induction m with
  | nil => exact .new []
  | cons b rest ih => exact .kept rfl List.prefix_rfl ih

/-- Scopes that grow twice have grown. -/
theorem Extends.trans {m₁ m₂ m₃ : ScopeMap} (h : Extends m₁ m₂) (h' : Extends m₂ m₃) :
    Extends m₁ m₃ := by
  induction h generalizing m₃ with
  | new => exact .new m₃
  | kept key entries _ ih =>
      -- the second step keeps the bucket that the first one kept
      cases h' with
      | kept key' entries' others' =>
          exact .kept (key'.trans key) (entries.trans entries') (ih others')

/-- An insertion appends one entry to one bucket, or a bucket to the scope. -/
theorem extends_insert (objs : Objects) (m : ScopeMap) (key v : Value) :
    Extends m (m.insert objs key v) := by
  induction m with
  | nil => exact .new _
  | cons b rest ih =>
      rw [insert]
      split
      · exact .kept rfl (List.prefix_append _ _) (.refl rest)
      · exact .kept rfl List.prefix_rfl ih

/-- **What was found under a key is found there ever after**, before anything
newer. -/
theorem Extends.bucket {m m' : ScopeMap} (h : Extends m m') (objs : Objects) (key : Value) :
    m.bucket objs key <+: m'.bucket objs key := by
  induction h with
  | new => exact List.nil_prefix
  | kept hkey entries _ ih =>
      -- the bucket of the key is at one place in both, if it is in the first at all
      rw [ScopeMap.bucket, ScopeMap.bucket, hkey]
      split
      · exact entries
      · exact ih

/-- **The keys keep their order and their forms**; new ones come after them. -/
theorem Extends.keys {m m' : ScopeMap} (h : Extends m m') : m.keys <+: m'.keys := by
  induction h with
  | new => exact List.nil_prefix
  | kept key _ _ ih =>
      rw [ScopeMap.keys, ScopeMap.keys, List.map_cons, List.map_cons, key, List.cons_prefix_cons]
      exact ⟨rfl, ih⟩

/-- Each bucket stays at its number. -/
theorem Extends.getElem? {m m' : ScopeMap} (h : Extends m m') {number : Nat} {b : Bucket}
    (hb : m[number]? = some b) :
    ∃ b', m'[number]? = some b' ∧ b'.key = b.key ∧ b.entries <+: b'.entries := by
  induction h generalizing number with
  | new => simp at hb
  | @kept first first' rest rest' key entries _ ih =>
      cases number with
      | zero =>
          injection hb with hb
          subst hb
          exact ⟨first', rfl, key, entries⟩
      | succ number => exact ih hb

/-- No entry is lost. -/
theorem Extends.mem_entries {m m' : ScopeMap} (h : Extends m m') {v : Value}
    (hv : v ∈ m.entries) : v ∈ m'.entries := by
  induction h with
  | new => cases hv
  | kept _ entries _ ih =>
      rw [ScopeMap.entries, List.flatMap_cons, List.mem_append] at hv ⊢
      rcases hv with hfirst | hrest
      · exact .inl (entries.subset hfirst)
      · exact .inr (ih hrest)

theorem mem_entries_of_mem_bucket {objs : Objects} {m : ScopeMap} {key v : Value}
    (hv : v ∈ m.bucket objs key) : v ∈ m.entries := by
  have all : ∀ w ∈ m.bucket objs key, w ∈ m.entries := by
    refine forall_bucket (P := fun l => ∀ w ∈ l, w ∈ m.entries) ?_ (by simp) key
    intro b hb w hw
    exact List.mem_flatMap.mpr ⟨b, hb, hw⟩
  exact all v hv

/-- The second scope is the first with one entry more: appended to one of the
buckets, or alone in a new last one. -/
inductive OneMore : ScopeMap → ScopeMap → Prop where
  | appended (front : ScopeMap) (b : Bucket) (v : Value) (back : ScopeMap) :
      OneMore (front ++ b :: back) (front ++ { b with entries := b.entries ++ [v] } :: back)
  | opened (m : ScopeMap) (key v : Value) : OneMore m (m ++ [⟨key, [v]⟩])

theorem OneMore.cons {m m' : ScopeMap} (h : OneMore m m') (b : Bucket) :
    OneMore (b :: m) (b :: m') := by
  cases h with
  | appended front changed v back => exact .appended (b :: front) changed v back
  | opened _ key v => exact .opened (b :: m) key v

/-- An insertion files one entry. -/
theorem oneMore_insert (objs : Objects) (m : ScopeMap) (key v : Value) :
    OneMore m (m.insert objs key v) := by
  induction m with
  | nil => exact .opened [] key v
  | cons b rest ih =>
      rw [insert]
      split
      · exact .appended [] b v rest
      · exact ih.cons b

end ScopeMap

/-! ## §2. Growing stores. -/

namespace Store

/-- The second store has the objects of the first with their kinds, and its
scopes with all their entries. -/
structure Grows (s t : Store) : Prop where
  kinds : Objects.SameKinds s.objects t.objects
  entries : ∀ i, (s.scopes.read i).Extends (t.scopes.read i)

namespace Grows

theorem refl (s : Store) : Grows s s := ⟨.refl _, fun _ => .refl _⟩

theorem trans {s t u : Store} (h : Grows s t) (h' : Grows t u) : Grows s u :=
  ⟨h.kinds.trans h'.kinds, fun i => (h.entries i).trans (h'.entries i)⟩

/-- The entries under a key are first among those under it later. -/
theorem bucket {s t : Store} (h : Grows s t) (i : ScopeId) (key : Value) :
    (s.scopes.read i).bucket s.objects key <+: (t.scopes.read i).bucket t.objects key := by
  rw [ScopeMap.bucket_of_sameKinds h.kinds]
  exact (h.entries i).bucket s.objects key

end Grows

/-- Every effect on entries is growth. -/
theorem EntriesEffect.grows {s t : Store} {a : Action} (h : EntriesEffect s a t) :
    Grows s t := by
  cases h with
  | quiet objects entries =>
      refine ⟨?_, ?_⟩
      · rw [objects]
        exact .refl _
      · intro i
        rw [entries i]
        exact .refl _
  | @file n target key value f decided accepted =>
      -- one scope gets one entry, the others stay
      refine ⟨.refl _, ?_⟩
      intro i
      rw [read_file]
      split
      next hi =>
        rw [hi.1]
        exact ScopeMap.extends_insert _ _ _ _
      next => exact .refl _
  | assign id attr value =>
      exact ⟨Objects.sameKinds_assign s.objects id attr value, fun _ => .refl _⟩

/-- **Every run makes a store grow**, whatever its actions and wherever some of
them fail. -/
theorem Runs.grows {s t : Store} {actions : List Action} (run : Runs s actions t) :
    Grows s t := by
  induction run with
  | nil s => exact .refl s
  | cons _ _ ih => exact (act_entriesEffect _ _).grows.trans ih

/-! ## §3. What one action appends. -/

/-- An action appends one entry to one scope, or leaves every scope as it is. -/
def AddsAtMostOne (s : Store) (a : Action) : Prop :=
  (∀ i, (s.act a).store.scopes.read i = s.scopes.read i)
    ∨ ∃ home, (s.scopes.read home).OneMore ((s.act a).store.scopes.read home)
        ∧ ∀ i, i ≠ home → (s.act a).store.scopes.read i = s.scopes.read i

/-- Whatever an action is and whatever it comes to, it appends one entry at the
most. -/
theorem act_addsAtMostOne (s : Store) (a : Action) : s.AddsAtMostOne a := by
  unfold AddsAtMostOne
  -- only a filing changes entries
  have effect := act_entriesEffect s a
  revert effect
  generalize (s.act a).store = t
  intro effect
  cases effect with
  | quiet objects entries => exact .inl entries
  | assign id attr value => exact .inl fun _ => rfl
  | @file n target key value f decided accepted =>
      by_cases hlt : s.targetScope n target < s.scopes.length
      · -- the scope filed in is the only one that changes
        refine .inr ⟨s.targetScope n target, ?_, ?_⟩
        · rw [read_file, if_pos ⟨rfl, hlt⟩]
          exact ScopeMap.oneMore_insert _ _ _ _
        · intro i hi
          rw [read_file, if_neg fun h => hi h.1]
      · refine .inl fun i => ?_
        rw [read_file, if_neg fun h => hlt h.2]

/-- Of whatever length a run is, each action of it adds one entry at most. -/
theorem along_addsAtMostOne (s : Store) (actions : List Action) :
    s.Along AddsAtMostOne actions := by
  induction actions generalizing s with
  | nil => exact trivial
  | cons a rest ih => exact ⟨act_addsAtMostOne s a, ih _⟩

/-- **Scopes are append-only.**  Between any two moments of a run, whatever its
actions and wherever some of them fail, every scope that there was stays, its
keys come first among its later keys, in the order and in the forms in which
they were first used, and each bucket is the first part of what it is later, by
its number and by any key.  And each action on the way appends one entry to one
scope, or nothing to any. -/
theorem scopes_append_only {s t : Store} {actions : List Action} (run : Runs s actions t) :
    (∀ i, i < s.scopes.length →
        i < t.scopes.length
          ∧ (s.scopes.read i).keys <+: (t.scopes.read i).keys
          ∧ (∀ (number : Nat) (b : Bucket), (s.scopes.read i)[number]? = some b →
              ∃ b', (t.scopes.read i)[number]? = some b' ∧ b'.key = b.key
                ∧ b.entries <+: b'.entries)
          ∧ ∀ key, (s.scopes.read i).bucket s.objects key
              <+: (t.scopes.read i).bucket t.objects key)
      ∧ s.Along AddsAtMostOne actions := by
  have grows := run.grows
  refine ⟨?_, along_addsAtMostOne s actions⟩
  intro i hi
  refine ⟨?_, (grows.entries i).keys, ?_, grows.bucket i⟩
  · exact Nat.lt_of_lt_of_le hi run.scopes_length_le
  · intro number b hb
    exact (grows.entries i).getElem? hb

/-- Two symbols whose types are equal and differ in form; their parents tell them
apart. -/
def oneAndTrue : Objects :=
  [⟨.plain "one", none, some (.int 1), none, none⟩,
    ⟨.plain "true", none, some (.bool true), some (.str "outer"), none⟩]

/-- A table whose keys are types filed a symbol in an inner scope and left it; the
node made by a scope further in, number 2, is still there. -/
def droppedScopeStore : Store :=
  [Action.call 0 .enter, .call 0 (.insert .current (.object 0) .absent), .call 0 .enter,
    .call 0 .leave, .call 0 .leave].foldl (fun s a => (s.act a).store)
    ((Store.empty oneAndTrue false).create KeyFunction.byType (.bool true))

/-- An entry filed in the scope that was left joins the bucket of an equal key, which
keeps its first form. -/
theorem scopes_append_only_in_dropped_scope :
    let later := Action.call 2 (.insert .current (.object 1) .absent)
    let last := (droppedScopeStore.act later).store
    droppedScopeStore.Runs [later] last
      ∧ (1 ∉ droppedScopeStore.view 0 ∧ 1 < droppedScopeStore.scopes.length)
      ∧ (droppedScopeStore.scopes.read 1).keys = [.int 1]
      ∧ (last.scopes.read 1).keys = [.int 1]
      ∧ (last.scopes.read 1).bucket last.objects (.bool true) = [.object 0, .object 1]
      ∧ (droppedScopeStore.scopes.read 1).bucket droppedScopeStore.objects (.bool true)
          <+: (last.scopes.read 1).bucket last.objects (.bool true) := by
  intro later last
  have admitted : 2 < droppedScopeStore.nodes.length := by decide
  have run : droppedScopeStore.Runs [later] last := .single admitted
  have away : 1 ∉ droppedScopeStore.view 0 := by decide
  have there : 1 < droppedScopeStore.scopes.length := by decide
  have before : (droppedScopeStore.scopes.read 1).keys = [.int 1] := rfl
  have after : (last.scopes.read 1).keys = [.int 1] := rfl
  have found : (last.scopes.read 1).bucket last.objects (.bool true)
      = [.object 0, .object 1] := rfl
  obtain ⟨-, -, -, first⟩ := (scopes_append_only run).1 1 there
  exact ⟨run, ⟨away, there⟩, before, after, found, first (.bool true)⟩

end Store

end ScopeChain
