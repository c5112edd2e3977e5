/-
  ScopeChain.Proofs.Disambiguation
  ────────────────────────────────
  **ONE SYMBOL FOR A KEY, A TYPE AND A PARENT.**

  An insertion is refused by what it cannot be told apart from; a lookup with
  both filters wants what cannot be told apart from what it asks for.  So where
  the entries of every bucket can be told apart, a lookup that gives type and
  parent finds at most one symbol.  And a symbol that was accepted once stays:
  its scope only grows, and its marks are left alone.  So from every node whose
  view shows its scope a lookup with its own type and parent finds it, and it
  alone, unless a scope further in answers first.

      Filter.Full            — a filter that gives type and parent
      Objects.marks          — the filter that asks for a value's own
      length_filter_le_one   — a full filter wants one of distinct entries
      Acceptance             — an accepted insertion of a run
      Acceptance.stays       — its symbol stays, with its marks
      full_filters_disambiguate
                             — what lookups with both filters find
-/
import ScopeChain.Proofs.Distinct
import ScopeChain.Proofs.SharedScopes

namespace ScopeChain

/-! ## §1. Full filters. -/

/-- A filter that gives both a type and a parent. -/
structure Filter.Full (f : Filter) : Prop where
  type : f.type ≠ .absent
  parent : f.parent ≠ .absent

/-- The filter that asks for the type and the parent of a value. -/
def Objects.marks (objs : Objects) (v : Value) : Filter := ⟨objs.typeOf v, objs.parentOf v⟩

/-- A value has a type and a parent, both of them equal to themselves. -/
structure Objects.WellMarked (objs : Objects) (v : Value) : Prop where
  full : (objs.marks v).Full
  type : objs.equal (objs.typeOf v) (objs.typeOf v) = true
  parent : objs.equal (objs.parentOf v) (objs.parentOf v) = true

theorem Filter.accepts_iff_of_full {objs : Objects} {f : Filter} (full : f.Full) (v : Value) :
    f.accepts objs v = true
      ↔ objs.equal (objs.typeOf v) f.type = true ∧ objs.equal (objs.parentOf v) f.parent = true := by
  -- only an absent filter lets everything through
  have htype : f.type.isAbsent = false := by
    rw [Bool.eq_false_iff, ne_eq, Value.isAbsent_iff]
    exact full.type
  have hparent : f.parent.isAbsent = false := by
    rw [Bool.eq_false_iff, ne_eq, Value.isAbsent_iff]
    exact full.parent
  rw [accepts, htype, hparent, Bool.false_or, Bool.false_or, Bool.and_eq_true]

/-- What one full filter wants cannot be told apart. -/
theorem indistinguishable_of_accepts {objs : Objects} {f : Filter} (full : f.Full)
    {x y : Value} (hx : f.accepts objs x = true) (hy : f.accepts objs y = true) :
    indistinguishable objs x y = true := by
  obtain ⟨xtype, xparent⟩ := (Filter.accepts_iff_of_full full x).mp hx
  obtain ⟨ytype, yparent⟩ := (Filter.accepts_iff_of_full full y).mp hy
  rw [Objects.equal_comm] at ytype yparent
  rw [indistinguishable, Objects.equal_trans xtype ytype, Objects.equal_trans xparent yparent]
  rfl

/-- Of entries that can be told apart a full filter wants at most one. -/
theorem DistinctEntries.length_filter_le_one {objs : Objects} {entries : List Value}
    (h : DistinctEntries objs entries) {f : Filter} (full : f.Full) :
    (entries.filter (f.accepts objs)).length ≤ 1 := by
  have apart := h.apart.filter (f.accepts objs)
  have wanted : ∀ v ∈ entries.filter (f.accepts objs), f.accepts objs v = true :=
    fun v hv => (List.mem_filter.mp hv).2
  -- two wanted entries would be both apart and alike
  match hfound : entries.filter (f.accepts objs) with
  | [] => exact Nat.zero_le 1
  | [_] => exact Nat.le_refl 1
  | x :: y :: rest =>
      rw [hfound] at apart wanted
      have hxy := List.rel_of_pairwise_cons apart List.mem_cons_self
      rw [indistinguishable_of_accepts full (wanted x (by simp)) (wanted y (by simp))] at hxy
      cases hxy

/-- Marks that are left alone stay good ones. -/
theorem Objects.WellMarked.of_sameMarks {objs objs' : Objects} {v : Value}
    (h : objs.WellMarked v) (kinds : objs.SameKinds objs') (same : objs.SameMarks objs' v) :
    objs'.WellMarked v := by
  refine ⟨⟨?_, ?_⟩, ?_, ?_⟩
  · intro habsent
    refine h.full.type ((@same_absent_iff objs' _).mp ?_)
    rw [same_comm, ← habsent]
    exact same.type
  · intro habsent
    refine h.full.parent ((@same_absent_iff objs' _).mp ?_)
    rw [same_comm, ← habsent]
    exact same.parent
  · rw [equal_congr same.type same.type, kinds.equal]
    exact h.type
  · rw [equal_congr same.parent same.parent, kinds.equal]
    exact h.parent

/-! ## §2. What a lookup finds. -/

namespace Store

/-- A lookup along the chain goes through the scopes in the view. -/
theorem matchesWithin_chain (s : Store) (n : NodeId) (k : Value) (f : Filter) :
    s.matchesWithin n k f .chain
      = firstNonempty ((s.view n).map fun i => (s.scopes.read i).matching s.objects k f) := by
  rw [matchesWithin, view, List.map_map]
  rfl

theorem Distinct.length_matching_le_one {s : Store} (h : s.Distinct) (i : ScopeId)
    (key : Value) {f : Filter} (full : f.Full) :
    ((s.scopes.read i).matching s.objects key f).length ≤ 1 :=
  (h.bucket i key).length_filter_le_one full

/-- **A full filter finds at most one symbol**, within every reach. -/
theorem Distinct.length_matchesWithin_le_one {s : Store} (h : s.Distinct) (n : NodeId)
    (key : Value) {f : Filter} (full : f.Full) (reach : Reach) :
    (s.matchesWithin n key f reach).length ≤ 1 := by
  cases reach with
  | current => exact h.length_matching_le_one _ key full
  | outermost => exact h.length_matching_le_one _ key full
  | chain =>
      -- the answer is that of one scope, or empty
      rw [matchesWithin_chain]
      rcases firstNonempty_mem_or_nil
        ((s.view n).map fun i => (s.scopes.read i).matching s.objects key f) with hmem | hnil
      · obtain ⟨i, -, hi⟩ := List.mem_map.mp hmem
        rw [← hi]
        exact h.length_matching_le_one i key full
      · rw [hnil]
        exact Nat.zero_le 1

/-- An entry under a key is all that a lookup with its own marks finds there. -/
theorem Distinct.matching_marks {s : Store} (h : s.Distinct) {i : ScopeId} {key v : Value}
    (hv : v ∈ (s.scopes.read i).bucket s.objects key) (good : s.objects.WellMarked v) :
    (s.scopes.read i).matching s.objects key (s.objects.marks v) = [v] := by
  have wanted : (s.objects.marks v).accepts s.objects v = true :=
    (Filter.accepts_iff_of_full good.full v).mpr ⟨good.type, good.parent⟩
  have hmem : v ∈ (s.scopes.read i).matching s.objects key (s.objects.marks v) :=
    List.mem_filter.mpr ⟨hv, wanted⟩
  -- it is found, and a full filter finds no second one
  have hle := h.length_matching_le_one i key good.full
  obtain ⟨w, hw⟩ := List.length_eq_one_iff.mp
    (Nat.le_antisymm hle (List.length_pos_of_mem hmem))
  rw [hw] at hmem ⊢
  rw [List.mem_singleton.mp hmem]

/-! ## §3. Accepted symbols. -/

/-- An accepted insertion of a run: which one it is, the store it met, and the
key that it filed its symbol under. -/
structure Acceptance (start : Store) (actions : List Action) where
  earlier : List Action
  node : NodeId
  target : Target
  key : Value
  value : Value
  later : List Action
  before : Store
  address : Value
  /-- The insertion is one of the actions. -/
  split : actions = earlier ++ .call node (.insert target key value) :: later
  /-- The actions before it lead to the store it met. -/
  run : Runs start earlier before
  /-- It did not fail. -/
  accepted : (before.insert node target key value).fault = none
  /-- The key was derived at the node that it was called on. -/
  derived : before.addressAt node key = .ok address

namespace Acceptance

variable {start t : Store} {actions : List Action}

/-- The symbol that was stored. -/
def symbol (a : Acceptance start actions) : Value := storedSymbol a.key a.value

/-- The scope that it was stored in. -/
def scope (a : Acceptance start actions) : ScopeId := a.before.targetScope a.node a.target

/-- The store that the insertion left. -/
def after (a : Acceptance start actions) : Store :=
  (a.before.act (.call a.node (.insert a.target a.key a.value))).store

theorem after_eq (a : Acceptance start actions) :
    a.after = a.before.file a.scope a.address a.symbol := by
  obtain ⟨f, hf, -, hstore⟩ := insert_of_accepted a.accepted
  rw [filing_of_address a.derived] at hf
  injection hf with hf
  subst hf
  exact (perform_insert_store _ _ _ _ _).trans hstore

/-- Of a run with the insertion the part from there on: the insertion was called
on a node that there was. -/
theorem rest (a : Acceptance start actions) (run : Runs start actions t) :
    a.node < a.before.nodes.length ∧ Runs a.after a.later t := by
  have run' := run
  rw [a.split] at run'
  cases run'.rest a.run with
  | cons admitted others => exact ⟨admitted, others⟩

/-- The symbol is under its key when the insertion is done. -/
theorem mem_bucket (a : Acceptance start actions) (linked : a.before.Linked)
    (hn : a.node < a.before.nodes.length) :
    a.symbol ∈ (a.after.scopes.read a.scope).bucket a.after.objects a.address := by
  have hat : a.after.bucketAt a.node a.target a.address
      = a.before.bucketAt a.node a.target a.address ++ [a.symbol] := by
    rw [after_eq]
    exact bucketAt_file linked hn a.symbol
  have htarget : a.after.targetScope a.node a.target = a.scope := by
    rw [after_eq, targetScope_file]
    rfl
  rw [bucketAt, htarget] at hat
  rw [hat]
  exact List.mem_append_right _ List.mem_cons_self

/-- An entry with good marks is one with good marks after an orderly action. -/
theorem stays_step {u : Store} {action : Action} {i : ScopeId} {v : Value}
    (orderly : u.Orderly action)
    (h : v ∈ (u.scopes.read i).entries ∧ u.objects.WellMarked v) :
    v ∈ ((u.act action).store.scopes.read i).entries
      ∧ (u.act action).store.objects.WellMarked v := by
  have grows := (act_entriesEffect u action).grows
  exact ⟨(grows.entries i).mem_entries h.1, h.2.of_sameMarks grows.kinds (orderly.marks i v h.1)⟩

/-- **An accepted symbol stays under its key, with its marks.** -/
theorem stays (a : Acceptance start actions) (linked : start.Linked)
    (run : Runs start actions t) (orderly : start.Along Orderly actions)
    (good : a.before.objects.WellMarked a.symbol) :
    a.symbol ∈ (t.scopes.read a.scope).bucket t.objects a.address
      ∧ t.objects.WellMarked a.symbol := by
  obtain ⟨hn, others⟩ := a.rest run
  have hmem := a.mem_bucket (a.run.keeps Change.linked linked) hn
  have hgood : a.after.objects.WellMarked a.symbol := by
    rw [after_eq]
    exact good
  -- the actions after the insertion are orderly too, so they keep entry and marks
  have orderly' := orderly
  rw [a.split, a.run.along_append] at orderly'
  have marked := others.keeps_along
    (I := fun u => a.symbol ∈ (u.scopes.read a.scope).entries ∧ u.objects.WellMarked a.symbol)
    (fun _ good hu => stays_step good hu) orderly'.2.2
    ⟨ScopeMap.mem_entries_of_mem_bucket hmem, hgood⟩
  exact ⟨(others.grows.bucket a.scope a.address).subset hmem, marked.2⟩

end Acceptance

/-! ## §4. Lookups after a run. -/

/-- **With type and parent given, a key stands for at most one symbol.**  After
any run of orderly actions a lookup that gives both finds at most one symbol,
within every reach, under every key that can be derived.  And a symbol that was
accepted under a string, with a type and a parent that are equal to themselves,
is found by them under every string of that text: a lookup along a chain in
whose view its scope is finds it and nothing else, if no scope further in has
an entry under the key with this type and parent. -/
theorem full_filters_disambiguate {objects : Objects} {journaling : Bool}
    {actions : List Action} {t : Store} (run : Runs (.empty objects journaling) actions t)
    (orderly : (Store.empty objects journaling).Along Orderly actions) :
    (∀ n reach key f, f.Full →
        (∃ found, t.lookup n reach key f = .ok found ∧ found.length ≤ 1)
          ∨ ∃ fault, t.addressAt n key = .error fault ∧ t.lookup n reach key f = .error fault)
      ∧ ∀ (a : Acceptance (.empty objects journaling) actions) (text : String),
          a.before.objects.text? a.address = some text →
          a.before.objects.WellMarked a.symbol →
          ∀ c key inner outer, t.objects.text? key = some text →
            t.view c = inner ++ a.scope :: outer →
            (∀ i ∈ inner, (t.scopes.read i).matching t.objects key (t.objects.marks a.symbol) = []) →
            t.lookup c .chain key (t.objects.marks a.symbol) = .ok [a.symbol] := by
  have distinct : t.Distinct := run.distinct orderly (distinct_empty objects journaling)
  constructor
  · intro n reach key f full
    rw [lookup]
    cases t.addressAt n key with
    | error fault => exact .inr ⟨fault, rfl, rfl⟩
    | ok k => exact .inl ⟨_, rfl, distinct.length_matchesWithin_le_one n k full reach⟩
  · intro a text haddress good c key inner outer hkey hview hinner
    obtain ⟨hmem, hgood⟩ := a.stays (linked_empty objects journaling) run orderly good
    -- the text of the address is what it was when the symbol was accepted
    have kinds : a.before.objects.SameKinds t.objects := by
      obtain ⟨hn, others⟩ := a.rest run
      exact (act_entriesEffect a.before _).grows.kinds.trans others.grows.kinds
    have hsame : t.objects.same a.address key = true :=
      Objects.same_of_text? ((kinds.text? _).trans haddress) hkey
    rw [ScopeMap.bucket_congr hsame] at hmem
    -- nothing is found further in, and one symbol at the scope itself
    have hnil : ∀ l ∈ inner.map fun i =>
        (t.scopes.read i).matching t.objects key (t.objects.marks a.symbol), l = [] := by
      intro l hl
      obtain ⟨i, hi, rfl⟩ := List.mem_map.mp hl
      exact hinner i hi
    rw [lookup_of_text? hkey, matchesWithin_chain, hview, List.map_append, List.map_cons,
      firstNonempty_append_of_nil hnil, distinct.matching_marks hmem hgood]
    rfl

/-- The insertion of the first overload, into the scope outside the one that the
table has entered. -/
def firstOverload : Acceptance (.empty overloads false) overloading where
  earlier := [.create KeyFunction.byDefault (.bool false), .call 0 .enter]
  node := 0
  target := .outermost
  key := .object 0
  value := .absent
  later := [.assign 0 .extra (.int 1), .call 1 (.setPolicy (.bool true)),
    .call 1 (.insert .current (.object 1) .absent)]
  before := ((Store.empty overloads false).create KeyFunction.byDefault (.bool false)).enter 0
  address := .str "f"
  split := rfl
  run := by
    have first : (0 : Nat) < 1 := by decide
    exact .cons trivial (.cons first (.nil _))
  accepted := rfl
  derived := rfl

/-- The overloads are told apart by their types, from the inner scope too. -/
theorem full_filters_disambiguate_overloaded :
    Runs (.empty overloads false) overloading overloadedStore
      ∧ (Store.empty overloads false).Along Orderly overloading
      ∧ (overloadedStore.scopes.read 0).entries = [.object 0, .object 1]
      ∧ overloadedStore.objects.marks (.object 0) = ⟨.str "int", .str "main"⟩
      ∧ overloadedStore.lookup 0 .chain (.str "f") ⟨.str "int", .str "main"⟩ = .ok [.object 0]
      ∧ ∃ found, overloadedStore.lookup 1 .current (.str "f") ⟨.str "real", .str "main"⟩ = .ok found
        ∧ found.length ≤ 1 := by
  obtain ⟨atMostOne, found⟩ := full_filters_disambiguate overloading_runs overloading_orderly
  have good : firstOverload.before.objects.WellMarked firstOverload.symbol :=
    ⟨⟨nofun, nofun⟩, by decide, by decide⟩
  have hinner : ∀ i ∈ [1], (overloadedStore.scopes.read i).matching overloadedStore.objects
      (.str "f") (overloadedStore.objects.marks firstOverload.symbol) = [] := by
    intro i hi
    rw [List.mem_singleton.mp hi]
    rfl
  refine ⟨overloading_runs, overloading_orderly, rfl, rfl, ?_, ?_⟩
  · exact found firstOverload "f" rfl good 0 (.str "f") [1] [] rfl (by decide) hinner
  · rcases atMostOne 1 .current (.str "f") ⟨.str "real", .str "main"⟩ ⟨nofun, nofun⟩ with
      answer | ⟨fault, hfault, -⟩
    · exact answer
    · cases hfault

end Store

end ScopeChain
