/-
  ScopeChain.Proofs.Commuting
  ───────────────────────────
  **OPERATIONS THAT DO NOT GET IN EACH OTHER'S WAY.**

  Insertions into different scopes, or under different keys, may be made in
  either order; so may a global insertion and a change of scope.  Each comes to
  what it comes to alone, and the stores afterwards are the same, but for the
  order of keys in a scope that got both.  So a global insertion may be hoisted
  over any block of scope changes and of insertions that do not conflict with
  it.

      Store.Apart            — insertions that do not conflict
      Apart.commute          — they commute
      StaysClear             — what a global insertion may be hoisted over
      StaysClear.passes      — over one action
      hoist                  — over a block
      independent_operations_commute
                             — all three laws
-/
import ScopeChain.Proofs.Rearrangement
import ScopeChain.Proofs.SharedScopes

namespace ScopeChain

namespace Store

/-! ## §1. Filings commute. -/

/-- Filings in two scopes commute. -/
theorem file_file_of_ne (s : Store) {i j : ScopeId} (hij : i ≠ j) (k₁ v₁ k₂ v₂ : Value) :
    (s.file i k₁ v₁).file j k₂ v₂ = (s.file j k₂ v₂).file i k₁ v₁ := by
  have hi := Arena.read_write_of_ne s.scopes ((s.scopes.read j).insert s.objects k₂ v₂) hij.symm
  have hj := Arena.read_write_of_ne s.scopes ((s.scopes.read i).insert s.objects k₁ v₁) hij
  unfold file
  simp only [hi, hj]
  unfold Arena.write
  rw [List.set_comm _ _ hij]

/-- In one scope they commute under keys that differ. -/
theorem rearranged_file_file (s : Store) (i : ScopeId) {k₁ k₂ : Value}
    (apart : s.objects.same k₁ k₂ = false) (v₁ v₂ : Value) :
    Rearranged ((s.file i k₁ v₁).file i k₂ v₂) ((s.file i k₂ v₂).file i k₁ v₁) where
  objects := rfl
  journaling := rfl
  nodes := rfl
  scopes := by simp [file]
  entries := by
    intro j
    have hlength : ∀ k v, (s.file i k v).scopes.length = s.scopes.length :=
      fun k v => Arena.length_write _ _ _
    rw [read_file, read_file (s.file i k₂ v₂), hlength, hlength]
    split
    next hj =>
      rw [read_file, read_file, if_pos ⟨rfl, hj.2⟩, if_pos ⟨rfl, hj.2⟩]
      exact ScopeMap.rearranged_insert_insert apart _ v₁ v₂
    next hj =>
      rw [read_file, read_file, if_neg hj, if_neg hj]
      exact .refl _ _

/-- A fresh scope is not the one that a filing goes to. -/
theorem enter_file (s : Store) {i : ScopeId} (hi : i < s.scopes.length) (key v : Value)
    (m : NodeId) : (s.file i key v).enter m = (s.enter m).file i key v := by
  -- the fresh scope comes behind the one that is written
  have hread : (Arena.push s.scopes []).read i = s.scopes.read i := read_push_nil s.scopes i
  have hwrite : ∀ x, (Arena.push s.scopes []).write i x = (s.scopes.write i x).push [] :=
    fun x => List.set_append_left i x hi
  have hlength : ∀ x, (s.scopes.write i x).length = s.scopes.length :=
    fun x => Arena.length_write _ _ _
  unfold enter file
  simp only [hread, hwrite, hlength]
  rfl

/-! ## §2. Insertions that do not conflict. -/

/-- Two insertions do not conflict if they go to different scopes, or if their keys are
not one, where both can be derived. -/
def Apart (s : Store) (n₁ : NodeId) (target₁ : Target) (key₁ : Value) (n₂ : NodeId)
    (target₂ : Target) (key₂ : Value) : Prop :=
  s.targetScope n₁ target₁ ≠ s.targetScope n₂ target₂
    ∨ ∀ k₁ k₂, s.addressAt n₁ key₁ = .ok k₁ → s.addressAt n₂ key₂ = .ok k₂ →
        s.objects.same k₁ k₂ = false

/-- Keys that are unequal are not one, "not a number" apart. -/
theorem apart_of_unequal {s : Store} {n₁ n₂ : NodeId} {target₁ target₂ : Target}
    {key₁ key₂ : Value}
    (unequal : ∀ k₁ k₂, s.addressAt n₁ key₁ = .ok k₁ → s.addressAt n₂ key₂ = .ok k₂ →
      Objects.isNaN k₁ = false ∧ s.objects.equal k₁ k₂ = false) :
    s.Apart n₁ target₁ key₁ n₂ target₂ key₂ := by
  right
  intro k₁ k₂ h₁ h₂
  obtain ⟨hnan, hequal⟩ := unequal k₁ k₂ h₁ h₂
  unfold Objects.equal at hequal
  rw [hnan] at hequal
  simpa using hequal

/-- Insertions under different strings never conflict. -/
theorem apart_of_strings (s : Store) (n₁ n₂ : NodeId) (target₁ target₂ : Target)
    {text₁ text₂ : String} (hne : text₁ ≠ text₂) :
    s.Apart n₁ target₁ (.str text₁) n₂ target₂ (.str text₂) := by
  apply apart_of_unequal
  intro k₁ k₂ h₁ h₂
  have address : ∀ n text, s.addressAt n (.str text) = .ok (.str text) :=
    fun n text => Objects.addressOf_of_text? _ rfl
  rw [address] at h₁ h₂
  injection h₁ with h₁
  injection h₂ with h₂
  subst h₁ h₂
  simp [Objects.isNaN, Objects.equal, Objects.same, Objects.code, hne]

theorem filing_of_accepted? {s : Store} {n : NodeId} {target : Target} {key value : Value}
    {f : Filing} (h : s.accepted? n target key value = some f) :
    s.filing n target key value = .ok f := by
  unfold accepted? at h
  cases hf : s.filing n target key value with
  | error fault =>
      rw [hf] at h
      cases h
  | ok f' =>
      rw [hf] at h
      have hsome := (Option.filter_eq_some_iff.mp h).1
      exact congrArg Except.ok (Option.some.inj hsome)

/-- So a second one goes to the same scope, whether or not the first went before it.
-/
theorem targetScope_insert (s : Store) (n m : NodeId) (target target' : Target)
    (key value : Value) :
    (s.insert n target key value).store.targetScope m target' = s.targetScope m target' := by
  unfold targetScope node
  rw [nodes_insert]

namespace Apart

variable {s : Store} {n₁ n₂ : NodeId} {target₁ target₂ : Target} {key₁ key₂ : Value}

/-- Which of the two comes first does not matter. -/
theorem symm (h : s.Apart n₁ target₁ key₁ n₂ target₂ key₂) :
    s.Apart n₂ target₂ key₂ n₁ target₁ key₁ := by
  rcases h with hscope | hkeys
  · exact .inl hscope.symm
  · right
    intro k₂ k₁ h₂ h₁
    rw [Objects.same_comm]
    exact hkeys k₁ k₂ h₁ h₂

/-- Neither decision depends on the other insertion. -/
theorem filing_eq (h : s.Apart n₁ target₁ key₁ n₂ target₂ key₂) (value₁ value₂ : Value) :
    (s.insert n₂ target₂ key₂ value₂).store.filing n₁ target₁ key₁ value₁
      = s.filing n₁ target₁ key₁ value₁ := by
  rw [insert_store_eq]
  cases haccepted : s.accepted? n₂ target₂ key₂ value₂ with
  | none => rfl
  | some f =>
      have haddress := (of_filing_eq_ok (filing_of_accepted? haccepted)).1
      apply filing_congr (s := s) (t := s.file (s.targetScope n₂ target₂) f.key f.symbol)
        rfl rfl rfl
      intro k hk
      show ((s.file (s.targetScope n₂ target₂) f.key f.symbol).scopes.read
        (s.targetScope n₁ target₁)).bucket s.objects k = s.bucketAt n₁ target₁ k
      rw [read_file]
      split
      next hsame =>
        -- one scope, so the keys differ
        rcases h with hscope | hkeys
        · exact absurd hsame.1 hscope
        · have hkey : s.objects.same f.key k = false := by
            rw [Objects.same_comm]
            exact hkeys k f.key hk haddress
          rw [ScopeMap.bucket_insert, hkey, bucketAt, hsame.1]
          rfl
      next => rfl

/-- After the other insertion each files what it files alone. -/
theorem insert_store (h : s.Apart n₁ target₁ key₁ n₂ target₂ key₂) (value₁ value₂ : Value) :
    ((s.insert n₂ target₂ key₂ value₂).store.insert n₁ target₁ key₁ value₁).store
      = (s.accepted? n₁ target₁ key₁ value₁).elim (s.insert n₂ target₂ key₂ value₂).store
          (fun f => (s.insert n₂ target₂ key₂ value₂).store.file (s.targetScope n₁ target₁)
            f.key f.symbol) := by
  rw [insert_store_eq (s.insert n₂ target₂ key₂ value₂).store, targetScope_insert]
  unfold accepted?
  rw [h.filing_eq]

/-- **Insertions that do not conflict commute**: one store afterwards is the other,
rearranged, and it is the other itself where they go to different scopes. -/
theorem commute (h : s.Apart n₁ target₁ key₁ n₂ target₂ key₂) (value₁ value₂ : Value) :
    Rearranged
        ((s.insert n₁ target₁ key₁ value₁).store.insert n₂ target₂ key₂ value₂).store
        ((s.insert n₂ target₂ key₂ value₂).store.insert n₁ target₁ key₁ value₁).store
      ∧ (s.targetScope n₁ target₁ ≠ s.targetScope n₂ target₂ →
          ((s.insert n₁ target₁ key₁ value₁).store.insert n₂ target₂ key₂ value₂).store
            = ((s.insert n₂ target₂ key₂ value₂).store.insert n₁ target₁ key₁ value₁).store) := by
  rw [h.insert_store, h.symm.insert_store, insert_store_eq s n₁, insert_store_eq s n₂]
  cases haccepted₁ : s.accepted? n₁ target₁ key₁ value₁ with
  | none => exact ⟨.refl _, fun _ => rfl⟩
  | some f₁ =>
      cases haccepted₂ : s.accepted? n₂ target₂ key₂ value₂ with
      | none => exact ⟨.refl _, fun _ => rfl⟩
      | some f₂ =>
          -- both are accepted
          simp only [Option.elim_some]
          by_cases hscope : s.targetScope n₁ target₁ = s.targetScope n₂ target₂
          · refine ⟨?_, fun hne => absurd hscope hne⟩
            rw [hscope]
            apply rearranged_file_file
            have haddress₁ := (of_filing_eq_ok (filing_of_accepted? haccepted₁)).1
            have haddress₂ := (of_filing_eq_ok (filing_of_accepted? haccepted₂)).1
            rcases h with hne | hkeys
            · exact absurd hscope hne
            · exact hkeys f₁.key f₂.key haddress₁ haddress₂
          · rw [file_file_of_ne s hscope]
            exact ⟨.refl _, fun _ => rfl⟩

/-- The outcome of the first is the same after the second. -/
theorem outcome_eq (h : s.Apart n₁ target₁ key₁ n₂ target₂ key₂) (value₁ value₂ : Value) :
    ((s.perform n₂ (.insert target₂ key₂ value₂)).store.perform n₁
        (.insert target₁ key₁ value₁)).outcome
      = (s.perform n₁ (.insert target₁ key₁ value₁)).outcome := by
  rw [perform_insert_store]
  apply insert_outcome_congr
  · rw [insert_store_eq]
    cases s.accepted? n₂ target₂ key₂ value₂ <;> rfl
  · rw [insert_store_eq]
    cases s.accepted? n₂ target₂ key₂ value₂ <;> rfl
  · exact h.filing_eq value₁ value₂

end Apart

/-! ## §3. A global insertion and a change of scope. -/

/-- Of a node's record a global insertion needs the policy, the key function and the
outermost scope. -/
structure KeepsRoot (s t : Store) (n : NodeId) : Prop where
  objects : t.objects = s.objects
  journaling : t.journaling = s.journaling
  entries : ∀ i, t.scopes.read i = s.scopes.read i
  policy : (t.node n).policy = (s.node n).policy
  keyFunction : (t.node n).keyFunction = (s.node n).keyFunction
  root : (t.node n).root = (s.node n).root

namespace KeepsRoot

variable {s t : Store} {n m : NodeId}

/-- Entering, by whatever node, changes nothing of that. -/
theorem enter (hn : n < s.nodes.length) (hm : m < s.nodes.length) :
    KeepsRoot s (s.enter m) n := by
  refine ⟨rfl, rfl, fun i => read_push_nil s.scopes i, ?_, ?_, root_enter_of_lt hm hn⟩
  · rw [node_enter s hm, if_neg (Nat.ne_of_lt hn)]
    split
    next heq => rw [heq]
    next => rfl
  · rw [node_enter s hm, if_neg (Nat.ne_of_lt hn)]
    split
    next heq => rw [heq]
    next => rfl

/-- Nor does leaving. -/
theorem rejoin (hm : m < s.nodes.length) (p : NodeId) : KeepsRoot s (s.rejoin m p) n := by
  refine ⟨rfl, rfl, fun _ => rfl, ?_, ?_, ?_⟩ <;>
  · rw [node_rejoin s p hm]
    split
    next heq => rw [heq]
    next => rfl

/-- Global insertions are decided alike, for they look at the outermost scope alone.
-/
theorem filing_eq (h : KeepsRoot s t n) (key value : Value) :
    t.filing n .outermost key value = s.filing n .outermost key value := by
  apply filing_congr h.objects h.keyFunction h.policy
  intro k _
  unfold bucketAt targetScope
  rw [h.root, h.entries, h.objects]

theorem outcome_eq (h : KeepsRoot s t n) (key value : Value) :
    (t.perform n (.insert .outermost key value)).outcome
      = (s.perform n (.insert .outermost key value)).outcome :=
  insert_outcome_congr h.objects h.journaling (h.filing_eq key value)

/-- A global insertion files the same before and after. -/
theorem insert_store (h : KeepsRoot s t n) (key value : Value) :
    (t.insert n .outermost key value).store
      = (s.accepted? n .outermost key value).elim t
          (fun f => t.file (s.node n).root f.key f.symbol) := by
  have haccepted : t.accepted? n .outermost key value = s.accepted? n .outermost key value := by
    unfold accepted?
    rw [h.filing_eq]
  rw [insert_store_eq, haccepted]
  show (s.accepted? n .outermost key value).elim t
    (fun f => t.file (t.node n).root f.key f.symbol) = _
  rw [h.root]

end KeepsRoot

/-- A global insertion, by any node, commutes with entering a scope at any node. -/
theorem Linked.insert_enter {s : Store} (h : s.Linked) {n m : NodeId} (hn : n < s.nodes.length)
    (hm : m < s.nodes.length) (key value : Value) :
    (s.insert n .outermost key value).store.enter m
      = ((s.enter m).insert n .outermost key value).store := by
  rw [(KeepsRoot.enter hn hm).insert_store, insert_store_eq]
  cases s.accepted? n .outermost key value with
  | none => rfl
  | some f => exact enter_file s (h.root_lt hn) f.key f.symbol m

/-- And so with leaving one. -/
theorem insert_rejoin {s : Store} {n m : NodeId} (hm : m < s.nodes.length) (p : NodeId)
    (key value : Value) :
    (s.insert n .outermost key value).store.rejoin m p
      = ((s.rejoin m p).insert n .outermost key value).store := by
  rw [(KeepsRoot.rejoin hm p).insert_store, insert_store_eq]
  cases s.accepted? n .outermost key value <;> rfl

/-- **A global insertion, by any node, commutes with entering or leaving a scope at any
node**, whether the leaving succeeds or fails. -/
theorem Linked.insert_scope_change {s : Store} (h : s.Linked) {n m : NodeId}
    (hn : n < s.nodes.length) (hm : m < s.nodes.length) {op : Operation}
    (change : op = .enter ∨ op = .leave) (key value : Value) :
    ((s.perform m op).store.perform n (.insert .outermost key value)).outcome
        = (s.perform n (.insert .outermost key value)).outcome
      ∧ ((s.perform n (.insert .outermost key value)).store.perform m op).outcome
        = (s.perform m op).outcome
      ∧ ((s.perform n (.insert .outermost key value)).store.perform m op).store
        = ((s.perform m op).store.perform n (.insert .outermost key value)).store := by
  rw [perform_insert_store, perform_insert_store]
  rcases change with rfl | rfl
  · exact ⟨(KeepsRoot.enter hn hm).outcome_eq key value, rfl, h.insert_enter hn hm key value⟩
  · have hparent : ((s.insert n .outermost key value).store.node m).parent = (s.node m).parent := by
      unfold node
      rw [nodes_insert]
    cases hp : (s.node m).parent with
    | none =>
        -- there is nothing to leave to, before the insertion and after it
        rw [perform_leave_of_top hp, perform_leave_of_top (hparent.trans hp)]
        exact ⟨rfl, rfl, rfl⟩
    | some p =>
        rw [perform_leave_of_link hp, perform_leave_of_link (hparent.trans hp)]
        exact ⟨(KeepsRoot.rejoin hm p).outcome_eq key value, rfl, insert_rejoin hm p key value⟩

/-! ## §4. Hoisting a global insertion. -/

/-- What a global insertion at a node, under a key, may be hoisted over: changes of
scope, and insertions that do not conflict with it. -/
inductive StaysClear (n : NodeId) (key : Value) (s : Store) : Action → Prop where
  | enter (m : NodeId) : StaysClear n key s (.call m .enter)
  | leave (m : NodeId) : StaysClear n key s (.call m .leave)
  | insert {m : NodeId} {target : Target} {other : Value} (value : Value)
      (apart : s.Apart m target other n .outermost key) :
      StaysClear n key s (.call m (.insert target other value))

/-- What each of several actions comes to. -/
def outcomes (s : Store) : List Action → List (Except Fault Answer)
  | [] => []
  | a :: rest => (s.act a).outcome :: outcomes (s.act a).store rest

variable {s : Store} {n : NodeId} {key : Value}

/-- The step: over one action. -/
theorem StaysClear.passes {a : Action} (clear : StaysClear n key s a) (h : s.Linked)
    (hn : n < s.nodes.length) (admitted : s.Admits a) (value : Value) :
    ((s.act a).store.perform n (.insert .outermost key value)).outcome
        = (s.perform n (.insert .outermost key value)).outcome
      ∧ ((s.perform n (.insert .outermost key value)).store.act a).outcome = (s.act a).outcome
      ∧ Rearranged ((s.act a).store.perform n (.insert .outermost key value)).store
          ((s.perform n (.insert .outermost key value)).store.act a).store := by
  cases clear with
  | enter m =>
      obtain ⟨late, early, hstore⟩ := h.insert_scope_change hn admitted (.inl rfl) key value
      refine ⟨late, early, ?_⟩
      simp only [act, hstore]
      exact .refl _
  | leave m =>
      obtain ⟨late, early, hstore⟩ := h.insert_scope_change hn admitted (.inr rfl) key value
      refine ⟨late, early, ?_⟩
      simp only [act, hstore]
      exact .refl _
  | insert other apart =>
      refine ⟨apart.symm.outcome_eq value other, apart.outcome_eq other value, ?_⟩
      simp only [act, perform_insert_store]
      exact (apart.commute other value).1

/-- A clear action answers the same from rearranged stores. -/
theorem Rearranged.outcome_of_clear {t u : Store} (h : Rearranged s t) {a : Action}
    (clear : StaysClear n key u a) : (t.act a).outcome = (s.act a).outcome := by
  cases clear with
  | enter m => rfl
  | leave m => exact (h.leave m).2
  | insert value _ => exact h.outcome _ (by simp) (by simp)

/-- Over actions that stay clear, rearranged stores have the same outcomes. -/
theorem Rearranged.outcomes_eq {t : Store} (h : Rearranged s t) {actions : List Action}
    (clear : ∀ a ∈ actions, ∃ u, StaysClear n key u a) :
    t.outcomes actions = s.outcomes actions := by
  induction actions generalizing s t with
  | nil => rfl
  | cons a rest ih =>
      obtain ⟨u, first⟩ := clear a List.mem_cons_self
      unfold outcomes
      rw [h.outcome_of_clear first, ih (h.act a) fun b hb => clear b (List.mem_cons_of_mem _ hb)]

/-- **A global insertion may be hoisted over a block** that stays clear of it.  Before
the block or after it the insertion comes to the same, each action of the block
comes to the same, and one store at the end is the other, rearranged. -/
theorem hoist {t : Store} {block : List Action} (run : Runs s block t) (h : s.Linked)
    (hn : n < s.nodes.length) (clear : s.Along (StaysClear n key) block) (value : Value) :
    ∃ t', Runs (s.perform n (.insert .outermost key value)).store block t'
      ∧ (s.perform n (.insert .outermost key value)).outcome
          = (t.perform n (.insert .outermost key value)).outcome
      ∧ (s.perform n (.insert .outermost key value)).store.outcomes block = s.outcomes block
      ∧ Rearranged (t.perform n (.insert .outermost key value)).store t' := by
  induction run with
  | nil s => exact ⟨_, .nil _, rfl, rfl, .refl _⟩
  | @cons s t a rest admitted others ih =>
      -- over the first action, and from there over the rest
      obtain ⟨late, early, swapped⟩ := clear.1.passes h hn admitted value
      have change := act_change admitted
      have hn' : n < (s.act a).store.nodes.length := Nat.lt_of_lt_of_le hn change.nodes_length_le
      obtain ⟨u, run, hsame, houtcomes, last⟩ := ih (change.linked h) hn' clear.2
      obtain ⟨t', run', last'⟩ := swapped.runs run
      have hadmitted : (s.perform n (.insert .outermost key value)).store.Admits a := by
        cases clear.1 <;> simp only [Admits, perform_insert_store, nodes_insert] <;> exact admitted
      -- the rest of the block now runs from a rearranged store, with the same outcomes
      refine ⟨t', .cons hadmitted run', late.symm.trans hsame, ?_, last.trans last'⟩
      unfold outcomes
      rw [early, swapped.outcomes_eq (exists_of_mem_along clear.2), houtcomes]

/-- **Independent operations commute.**  In every reachable store, for insertions by any
nodes:

Two insertions that go to different scopes, or whose keys are not one, come in
either order to the same two outcomes, and the stores afterwards answer every
operation alike ever after, but for the order in listings; where the insertions
go to different scopes they are one store.

A global insertion and entering or leaving a scope come in either order to the
same two outcomes and to one store.

A global insertion may be hoisted over a block of changes of scope and of
insertions that do not conflict with it: all outcomes are the same, and the
stores at the end answer alike ever after, but for the order in listings. -/
theorem independent_operations_commute (hs : s.Reachable) {m : NodeId}
    (hn : n < s.nodes.length) (hm : m < s.nodes.length) :
    (∀ target₁ key₁ value₁ target₂ key₂ value₂, s.Apart n target₁ key₁ m target₂ key₂ →
        let first := s.perform n (.insert target₁ key₁ value₁)
        let second := s.perform m (.insert target₂ key₂ value₂)
        let firstLast := second.store.perform n (.insert target₁ key₁ value₁)
        let secondLast := first.store.perform m (.insert target₂ key₂ value₂)
        firstLast.outcome = first.outcome ∧ secondLast.outcome = second.outcome
          ∧ AlikeEverAfter secondLast.store firstLast.store
          ∧ (s.targetScope n target₁ ≠ s.targetScope m target₂ →
              secondLast.store = firstLast.store))
      ∧ (∀ key value op, op = .enter ∨ op = .leave →
          let insertion := s.perform n (.insert .outermost key value)
          let change := s.perform m op
          let insertionLast := change.store.perform n (.insert .outermost key value)
          let changeLast := insertion.store.perform m op
          insertionLast.outcome = insertion.outcome ∧ changeLast.outcome = change.outcome
            ∧ changeLast.store = insertionLast.store)
      ∧ ∀ key value block t, Runs s block t → s.Along (StaysClear n key) block →
          let insertion := s.perform n (.insert .outermost key value)
          let insertionLast := t.perform n (.insert .outermost key value)
          ∃ t', Runs insertion.store block t'
            ∧ insertion.outcome = insertionLast.outcome
            ∧ insertion.store.outcomes block = s.outcomes block
            ∧ AlikeEverAfter insertionLast.store t' := by
  have h := hs.linked
  refine ⟨?_, ?_, ?_⟩
  · intro target₁ key₁ value₁ target₂ key₂ value₂ apart
    obtain ⟨rearranged, same⟩ := apart.commute value₁ value₂
    simp only [perform_insert_store]
    refine ⟨?_, ?_, rearranged.alikeEverAfter, same⟩
    · rw [← perform_insert_store s m]
      exact apart.outcome_eq value₁ value₂
    · rw [← perform_insert_store s n]
      exact apart.symm.outcome_eq value₂ value₁
  · intro key value op change
    exact h.insert_scope_change hn hm change key value
  · intro key value block t run clear
    obtain ⟨t', run', hsame, houtcomes, last⟩ := hoist run h hn clear value
    exact ⟨t', run', hsame, houtcomes, last.alikeEverAfter⟩

/-- Leave for the outermost scope, file a symbol there, and enter a scope again. -/
def outwardAndBack : List Action :=
  [.call 0 .leave, .call 0 .leave, .call 0 (.insert .current (.str "b") .absent), .call 0 .enter]

theorem outwardAndBack_clear :
    splicedStore.Along (StaysClear 0 (.str "a")) outwardAndBack := by
  have apart : ∀ s : Store, s.Apart 0 .current (.str "b") 0 .outermost (.str "a") :=
    fun s => apart_of_strings s 0 0 .current .outermost (by decide)
  exact ⟨.leave 0, .leave 0, .insert .absent (apart _), .enter 0, trivial⟩

/-- Two global insertions by a table and by its parent, then the first of them with a scope
entered at the parent, and the same one with a block that files in its scope. -/
theorem independent_operations_commute_spliced :
    let a := Operation.insert .outermost (.str "a") .absent
    let b := Operation.insert .outermost (.str "b") .absent
    let ab := ((splicedStore.perform 0 a).store.perform 1 b).store
    let ba := ((splicedStore.perform 1 b).store.perform 0 a).store
    let last := (outwardAndBack.foldl (fun s a => (s.act a).store) splicedStore).perform 0 a
    splicedStore.Reachable ∧ 0 < splicedStore.nodes.length ∧ 1 < splicedStore.nodes.length
      ∧ splicedStore.Apart 0 .outermost (.str "a") 1 .outermost (.str "b")
      ∧ splicedStore.Along (StaysClear 0 (.str "a")) outwardAndBack
      ∧ AlikeEverAfter ab ba
      ∧ ab.visible 0 = [.str "a", .str "b"] ∧ ba.visible 0 = [.str "b", .str "a"]
      ∧ ((splicedStore.perform 0 a).store.perform 1 .enter).store
          = ((splicedStore.perform 1 .enter).store.perform 0 a).store
      ∧ ∃ t, Runs (splicedStore.perform 0 a).store outwardAndBack t
          ∧ (splicedStore.perform 0 a).outcome = last.outcome ∧ AlikeEverAfter last.store t := by
  intro a b ab ba last
  have hn : 0 < splicedStore.nodes.length := by decide
  have hm : 1 < splicedStore.nodes.length := by decide
  have apart : splicedStore.Apart 0 .outermost (.str "a") 1 .outermost (.str "b") :=
    apart_of_strings _ 0 1 _ _ (by decide)
  have run : Runs splicedStore outwardAndBack
      (outwardAndBack.foldl (fun s a => (s.act a).store) splicedStore) := by
    have there : (0 : Nat) < 3 := by decide
    exact .cons there (.cons there (.cons there (.cons there (.nil _))))
  have first : ab.visible 0 = [.str "a", .str "b"] := rfl
  have second : ba.visible 0 = [.str "b", .str "a"] := rfl
  obtain ⟨insertions, changes, blocks⟩ :=
    independent_operations_commute splicedStore_reachable hn hm
  obtain ⟨-, -, alike, -⟩ := insertions .outermost (.str "a") .absent .outermost (.str "b") .absent
    apart
  obtain ⟨-, -, same⟩ := changes (.str "a") .absent .enter (.inl rfl)
  obtain ⟨t, run', outcome, -, alike'⟩ := blocks (.str "a") .absent outwardAndBack _ run
    outwardAndBack_clear
  exact ⟨splicedStore_reachable, hn, hm, apart, outwardAndBack_clear, alike, first, second, same,
    t, run', outcome, alike'⟩

end Store

end ScopeChain
