/-
  ScopeChain.Proofs.Rearrangement
  ───────────────────────────────
  **STORES THAT DIFFER IN THE ORDER OF THEIR KEYS ONLY.**

  Two stores may have come by the same entries in different orders.  As long as
  each key has the same entries in the same order in both, no operation can
  tell them apart, except those that list a whole scope: a listing comes out
  rearranged.  And whatever is done next to both, this stays so.

      ScopeMap.Rearranged    — a scope with its keys in another order
      Store.accepted?        — what an insertion files, if it files anything
      Store.Rearranged       — stores with rearranged scopes
      Rearranged.outcome     — operations answer alike
      Rearranged.runs        — also after any further run
-/
import Mathlib.Data.List.Perm.Basic
import ScopeChain.Proofs.Reinsertion

namespace ScopeChain

/-! ## §1. Rearranged scopes. -/

namespace ScopeMap

/-- The keys and the entries of the second scope are those of the first in some
order, and under each key there is the same in both, in the same order. -/
structure Rearranged (objs : Objects) (m m' : ScopeMap) : Prop where
  keys : m'.keys.Perm m.keys
  entries : m'.entries.Perm m.entries
  bucket : ∀ key, m'.bucket objs key = m.bucket objs key

theorem Rearranged.refl (objs : Objects) (m : ScopeMap) : Rearranged objs m m :=
  ⟨.refl _, .refl _, fun _ => rfl⟩

/-- Two rearrangements in turn are one. -/
theorem Rearranged.trans {objs : Objects} {m₁ m₂ m₃ : ScopeMap} (h : Rearranged objs m₁ m₂)
    (h' : Rearranged objs m₂ m₃) : Rearranged objs m₁ m₃ :=
  ⟨h'.keys.trans h.keys, h'.entries.trans h.entries,
    fun key => (h'.bucket key).trans (h.bucket key)⟩

/-- No key is lost or made, so a walk that counts keys finds the same number. -/
theorem Rearranged.length_eq {objs : Objects} {m m' : ScopeMap} (h : Rearranged objs m m') :
    m'.length = m.length := by
  have hkeys := h.keys.length_eq
  unfold ScopeMap.keys at hkeys
  rw [List.length_map, List.length_map] at hkeys
  exact hkeys

/-- Which keys are one key depends on the kinds of objects alone. -/
theorem Rearranged.of_sameKinds {objs objs' : Objects} {m m' : ScopeMap}
    (h : Rearranged objs m m') (kinds : Objects.SameKinds objs objs') :
    Rearranged objs' m m' := by
  refine ⟨h.keys, h.entries, ?_⟩
  intro key
  rw [bucket_of_sameKinds kinds, bucket_of_sameKinds kinds]
  exact h.bucket key

/-- An insertion adds its entry, somewhere. -/
theorem entries_insert (objs : Objects) (m : ScopeMap) (key v : Value) :
    (m.insert objs key v).entries.Perm (v :: m.entries) := by
  induction m with
  | nil => exact .refl _
  | cons b rest ih =>
      unfold insert
      unfold entries at ih ⊢
      split
      · simp only [List.flatMap_cons, List.append_assoc]
        exact List.perm_middle
      · simp only [List.flatMap_cons]
        exact (ih.append_left b.entries).trans List.perm_middle

/-- An insertion into both keeps scopes rearranged. -/
theorem Rearranged.insert {objs : Objects} {m m' : ScopeMap} (h : Rearranged objs m m')
    (key v : Value) : Rearranged objs (m.insert objs key v) (m'.insert objs key v) := by
  refine ⟨?_, ?_, ?_⟩
  · rw [keys_insert_eq, keys_insert_eq, h.keys.any_eq]
    split
    · exact h.keys
    · exact h.keys.append_right [key]
  · exact (entries_insert objs m' key v).trans
      ((h.entries.cons v).trans (entries_insert objs m key v).symm)
  · intro k
    rw [bucket_insert, bucket_insert, h.bucket, h.bucket]

/-- **Insertions under different keys commute**, but for the order of the keys. -/
theorem rearranged_insert_insert {objs : Objects} {k₁ k₂ : Value}
    (apart : objs.same k₁ k₂ = false) (m : ScopeMap) (v₁ v₂ : Value) :
    Rearranged objs ((m.insert objs k₁ v₁).insert objs k₂ v₂)
      ((m.insert objs k₂ v₂).insert objs k₁ v₁) := by
  have apart' : objs.same k₂ k₁ = false := by rw [Objects.same_comm, apart]
  refine ⟨?_, ?_, ?_⟩
  · simp only [keys_insert_eq]
    -- neither key counts as present because of the other
    cases h₁ : m.keys.any (fun k => objs.same k k₁) <;>
      cases h₂ : m.keys.any (fun k => objs.same k k₂) <;>
      simp [List.any_append, h₁, h₂, apart, apart']
    exact (List.Perm.swap k₁ k₂ []).append_left m.keys
  · have first := (entries_insert objs (m.insert objs k₂ v₂) k₁ v₁).trans
      ((entries_insert objs m k₂ v₂).cons v₁)
    have second := (entries_insert objs (m.insert objs k₁ v₁) k₂ v₂).trans
      ((entries_insert objs m k₁ v₁).cons v₂)
    exact first.trans ((List.Perm.swap v₂ v₁ m.entries).trans second.symm)
  · intro k
    simp only [bucket_insert, apart, apart']
    by_cases hk₁ : objs.same k₁ k = true
    · -- no third key is one with both
      have hk₂ : objs.same k₂ k = false := by
        rw [← Objects.same_comm, ← Objects.same_congr hk₁, apart]
      simp [hk₁, hk₂]
    · simp [Bool.eq_false_iff.mpr hk₁]

end ScopeMap

/-! ## §2. What an insertion depends on. -/

namespace Store

/-- What an insertion files: nothing, where it fails to come to a decision or meets a
clash. -/
def accepted? (s : Store) (n : NodeId) (target : Target) (key value : Value) : Option Filing :=
  (s.filing n target key value).toOption.filter fun f => f.clash.isNone

/-- What an insertion does goes by what it files alone. -/
theorem insert_store_eq (s : Store) (n : NodeId) (target : Target) (key value : Value) :
    (s.insert n target key value).store
      = (s.accepted? n target key value).elim s
          (fun f => s.file (s.targetScope n target) f.key f.symbol) := by
  unfold accepted?
  cases hf : s.filing n target key value with
  | error fault =>
      rw [insert_of_undecided hf]
      rfl
  | ok f =>
      cases hclash : f.clash with
      | none =>
          rw [insert_store_of_accepted hf hclash]
          simp [Except.toOption, Option.filter, hclash]
      | some existing =>
          rw [insert_store_of_clash hf hclash]
          simp [Except.toOption, Option.filter, hclash]

/-- An insertion changes no node. -/
theorem nodes_insert (s : Store) (n : NodeId) (target : Target) (key value : Value) :
    (s.insert n target key value).store.nodes = s.nodes := by
  rw [insert_store_eq]
  cases s.accepted? n target key value <;> rfl

/-- A decision goes by the objects, the policy and the key function of the node, and the
entries that are under the key. -/
theorem filing_congr {s t : Store} {n : NodeId} {target : Target} {key : Value}
    (objects : t.objects = s.objects)
    (keyFunction : (t.node n).keyFunction = (s.node n).keyFunction)
    (policy : (t.node n).policy = (s.node n).policy)
    (bucket : ∀ k, s.addressAt n key = .ok k → t.bucketAt n target k = s.bucketAt n target k)
    (value : Value) : t.filing n target key value = s.filing n target key value := by
  have haddress : t.addressAt n key = s.addressAt n key := by
    unfold addressAt
    rw [objects, keyFunction]
  cases ha : s.addressAt n key with
  | error fault =>
      unfold filing
      rw [haddress, ha]
  | ok k =>
      rw [filing_of_address ha, filing_of_address (haddress.trans ha)]
      unfold clashAt allowsDuplicates
      rw [objects, policy, bucket k ha]

/-- One decision, one outcome. -/
theorem insert_outcome_congr {s t : Store} {n : NodeId} {target : Target} {key value : Value}
    (objects : t.objects = s.objects) (journaling : t.journaling = s.journaling)
    (filing : t.filing n target key value = s.filing n target key value) :
    (t.perform n (.insert target key value)).outcome
      = (s.perform n (.insert target key value)).outcome := by
  have hfault : (t.insert n target key value).fault = (s.insert n target key value).fault := by
    cases hf : s.filing n target key value with
    | error fault => rw [insert_of_undecided hf, insert_of_undecided (filing.trans hf)]
    | ok f =>
        -- the record may fail, and this goes by the text of the key
        unfold Store.insert
        rw [filing, hf]
        unfold insertionRecord
        rw [journaling, objects]
        cases s.journaling with
        | false => rfl
        | true => cases hd : s.objects.display f.key <;> simp [hd]
  simp only [perform, hfault]
  cases (s.insert n target key value).fault <;> rfl

/-! ## §3. Rearranged stores. -/

/-- Two stores with the same nodes and objects, each scope of the one rearranged in the
other. -/
structure Rearranged (s t : Store) : Prop where
  objects : t.objects = s.objects
  journaling : t.journaling = s.journaling
  nodes : t.nodes = s.nodes
  scopes : t.scopes.length = s.scopes.length
  entries : ∀ i, (s.scopes.read i).Rearranged s.objects (t.scopes.read i)

namespace Rearranged

variable {s t : Store}

theorem refl (s : Store) : Rearranged s s :=
  ⟨rfl, rfl, rfl, rfl, fun _ => .refl _ _⟩

theorem trans {u : Store} (h : Rearranged s t) (h' : Rearranged t u) : Rearranged s u := by
  refine ⟨h'.objects.trans h.objects, h'.journaling.trans h.journaling, h'.nodes.trans h.nodes,
    h'.scopes.trans h.scopes, ?_⟩
  intro i
  exact (h.entries i).trans (h.objects ▸ h'.entries i)

theorem node_eq (h : Rearranged s t) (n : NodeId) : t.node n = s.node n := by
  unfold node
  rw [h.nodes]

/-- Nodes are the same, so they are in the same places. -/
theorem samePlaces (h : Rearranged s t) : SamePlaces s t := by
  refine ⟨congrArg List.length h.nodes, h.scopes, ?_, ?_, ?_, ?_⟩ <;> intro n <;> rw [h.node_eq]

/-- **Insertions are decided alike**: a decision reads one bucket, which is the same
in both stores. -/
theorem filing_eq (h : Rearranged s t) (n : NodeId) (target : Target) (key value : Value) :
    t.filing n target key value = s.filing n target key value := by
  apply filing_congr h.objects
  · rw [h.node_eq]
  · rw [h.node_eq]
  · intro k _
    unfold bucketAt
    rw [h.samePlaces.targetScope_eq, h.objects]
    exact (h.entries _).bucket k

/-! ### Steps. -/

/-- Both stores get one more scope, which is empty in both. -/
theorem push (h : Rearranged s t) {nodes nodes' : Arena Node} (same : nodes' = nodes) :
    Rearranged { s with scopes := s.scopes.push [], nodes := nodes }
      { t with scopes := t.scopes.push [], nodes := nodes' } where
  objects := h.objects
  journaling := h.journaling
  nodes := same
  scopes := by simp [h.scopes]
  entries := by
    intro i
    show ((Arena.push s.scopes []).read i).Rearranged s.objects ((Arena.push t.scopes []).read i)
    rw [read_push_nil, read_push_nil]
    exact h.entries i

/-- Both stores get the same nodes. -/
theorem withNodes (h : Rearranged s t) {nodes nodes' : Arena Node} (same : nodes' = nodes) :
    Rearranged { s with nodes := nodes } { t with nodes := nodes' } :=
  ⟨h.objects, h.journaling, same, h.scopes, h.entries⟩

/-- The changes of nodes are these two: a fresh scope, and nodes that are the same
in both stores. -/
theorem create (h : Rearranged s t) (keyFunction : KeyFunction) (policy : Value) :
    Rearranged (s.create keyFunction policy) (t.create keyFunction policy) := by
  apply h.push
  rw [h.nodes, h.objects, h.scopes]

theorem enter (h : Rearranged s t) (n : NodeId) : Rearranged (s.enter n) (t.enter n) := by
  apply h.push
  rw [h.node_eq, h.nodes, h.objects, h.scopes]

theorem rejoin (h : Rearranged s t) (n p : NodeId) :
    Rearranged (s.rejoin n p) (t.rejoin n p) := by
  apply h.withNodes
  rw [h.node_eq, h.node_eq, h.nodes]

theorem setPolicy (h : Rearranged s t) (n : NodeId) (policy : Value) :
    Rearranged (s.setPolicy n policy) (t.setPolicy n policy) := by
  apply h.withNodes
  rw [h.node_eq, h.nodes]

theorem setKeyFunction (h : Rearranged s t) (n : NodeId) (keyFunction : KeyFunction) :
    Rearranged (s.setKeyFunction n keyFunction) (t.setKeyFunction n keyFunction) := by
  apply h.withNodes
  rw [h.node_eq, h.nodes]

/-- Assignments change attributes of objects, and no two keys become one key by
that. -/
theorem assign (h : Rearranged s t) (id : ObjectId) (attr : Attribute) (value : Value) :
    Rearranged (s.assign id attr value) (t.assign id attr value) where
  objects := by simp only [Store.assign, h.objects]
  journaling := h.journaling
  nodes := h.nodes
  scopes := h.scopes
  entries := fun i =>
    (h.entries i).of_sameKinds (Objects.sameKinds_assign s.objects id attr value)

/-- The buckets of the key grow by the same entry, the other buckets stay as they
are. -/
theorem file (h : Rearranged s t) (i : ScopeId) (key v : Value) :
    Rearranged (s.file i key v) (t.file i key v) where
  objects := h.objects
  journaling := h.journaling
  nodes := h.nodes
  scopes := by simp [Store.file, h.scopes]
  entries := by
    intro j
    rw [read_file, read_file, h.scopes, h.objects]
    split
    · exact (h.entries i).insert key v
    · exact h.entries j

/-- A decision is carried out in both stores or in neither. -/
theorem insert (h : Rearranged s t) (n : NodeId) (target : Target) (key value : Value) :
    Rearranged (s.insert n target key value).store (t.insert n target key value).store := by
  have haccepted : t.accepted? n target key value = s.accepted? n target key value := by
    unfold accepted?
    rw [h.filing_eq]
  rw [insert_store_eq, insert_store_eq, haccepted, h.samePlaces.targetScope_eq]
  cases s.accepted? n target key value with
  | none => exact h
  | some f => exact h.file _ f.key f.symbol

/-- Leaving fails in both stores or in neither, for it reads places alone. -/
theorem leave (h : Rearranged s t) (n : NodeId) :
    Rearranged (s.perform n .leave).store (t.perform n .leave).store
      ∧ (t.perform n .leave).outcome = (s.perform n .leave).outcome := by
  have hparent := h.samePlaces.parent n
  cases hp : (s.node n).parent with
  | none =>
      rw [perform_leave_of_top hp, perform_leave_of_top (hparent.trans hp)]
      exact ⟨h, rfl⟩
  | some p =>
      rw [perform_leave_of_link hp, perform_leave_of_link (hparent.trans hp)]
      exact ⟨h.rejoin n p, rfl⟩

/-- **Every operation keeps stores rearranged.** -/
theorem perform (h : Rearranged s t) (n : NodeId) (op : Operation) :
    Rearranged (s.perform n op).store (t.perform n op).store := by
  cases op with
  | enter => exact h.enter n
  | leave => exact (h.leave n).1
  | insert target key value =>
      rw [perform_insert_store, perform_insert_store]
      exact h.insert n target key value
  | setPolicy policy => exact h.setPolicy n policy
  | setKeyFunction keyFunction => exact h.setKeyFunction n keyFunction
  | lookup => exact h
  | contains => exact h
  | visible => exact h
  | depth => exact h
  | isGlobal => exact h
  | describe => exact h
  | keyCount => exact h
  | levels => exact h
  | policy => exact h

/-- Every step keeps stores rearranged. -/
theorem act (h : Rearranged s t) (a : Action) : Rearranged (s.act a).store (t.act a).store := by
  cases a with
  | create keyFunction policy => exact h.create keyFunction policy
  | call n op => exact h.perform n op
  | assign id attr value => exact h.assign id attr value

/-- What is done to one of two rearranged stores can be done to the other, and leaves
them rearranged. -/
theorem runs (h : Rearranged s t) {actions : List Action} {s' : Store}
    (run : Runs s actions s') : ∃ t', Runs t actions t' ∧ Rearranged s' t' := by
  induction run generalizing t with
  | nil => exact ⟨t, .nil t, h⟩
  | @cons s s' a rest admitted _ ih =>
      obtain ⟨t', run', last⟩ := ih (h.act a)
      refine ⟨t', .cons ?_ run', last⟩
      cases a with
      | create => exact trivial
      | assign => exact trivial
      | call n op =>
          show n < t.nodes.length
          rw [h.nodes]
          exact admitted

/-! ### Answers. -/

/-- The scope of a node is rearranged like every scope. -/
theorem here (h : Rearranged s t) (n : NodeId) :
    (s.here n).Rearranged s.objects (t.here n) := by
  unfold Store.here
  rw [h.node_eq]
  exact h.entries _

/-- A search reads one bucket. -/
theorem matching_eq (h : Rearranged s t) (i : ScopeId) (k : Value) (f : Filter) :
    (t.scopes.read i).matching t.objects k f = (s.scopes.read i).matching s.objects k f := by
  unfold ScopeMap.matching
  rw [h.objects, (h.entries i).bucket]

/-- **Lookups cannot tell rearranged stores apart.** -/
theorem lookup_eq (h : Rearranged s t) (n : NodeId) (reach : Reach) (key : Value) (f : Filter) :
    t.lookup n reach key f = s.lookup n reach key f := by
  have hwithin : ∀ k, t.matchesWithin n k f reach = s.matchesWithin n k f reach := by
    intro k
    have hhere : ∀ m, t.matchesHere k f m = s.matchesHere k f m := by
      intro m
      unfold matchesHere Store.here
      rw [h.node_eq, h.matching_eq]
    cases reach with
    | current => exact hhere n
    | chain =>
        unfold matchesWithin
        rw [h.samePlaces.chain, funext hhere]
    | outermost =>
        unfold matchesWithin
        rw [h.node_eq, h.matching_eq]
  unfold lookup addressAt
  rw [h.objects, h.node_eq]
  cases s.objects.addressOf (s.node n).keyFunction key with
  | error fault => rfl
  | ok k => exact congrArg Except.ok (hwithin k)

/-- A listing comes out in another order. -/
theorem visible_perm (h : Rearranged s t) (n : NodeId) : (t.visible n).Perm (s.visible n) := by
  unfold visible
  rw [h.samePlaces.chain]
  apply List.Perm.flatMap_left
  intro m _
  exact (h.here m).entries

/-- **Everything but a listing comes out the same.** -/
theorem outcome (h : Rearranged s t) (n : NodeId) {op : Operation} (visible : op ≠ .visible)
    (levels : op ≠ .levels) : (t.perform n op).outcome = (s.perform n op).outcome := by
  cases op with
  | visible => exact absurd rfl visible
  | levels => exact absurd rfl levels
  | insert target key value =>
      exact insert_outcome_congr h.objects h.journaling (h.filing_eq n target key value)
  | leave => exact (h.leave n).2
  | lookup reach key f => exact congrArg (Except.map Answer.values) (h.lookup_eq n reach key f)
  | contains key =>
      simp only [Store.perform, Store.contains]
      rw [h.lookup_eq]
  | describe =>
      simp only [Store.perform, Store.describe]
      rw [h.objects, h.node_eq, (h.here n).length_eq]
  | keyCount =>
      simp only [Store.perform]
      rw [(h.here n).length_eq]
  | depth =>
      simp only [Store.perform]
      rw [h.node_eq]
  | isGlobal =>
      simp only [Store.perform]
      rw [h.node_eq]
  | policy =>
      simp only [Store.perform]
      rw [h.node_eq]
  | enter => rfl
  | setPolicy => rfl
  | setKeyFunction => rfl

end Rearranged

/-! ## §4. Stores that answer alike. -/

/-- No operation tells two stores apart, listings apart; and those differ in their order
only. -/
structure AnswersAlike (s t : Store) : Prop where
  outcome : ∀ n op, op ≠ .visible → op ≠ .levels →
    (t.perform n op).outcome = (s.perform n op).outcome
  visible : ∀ n, (t.visible n).Perm (s.visible n)

/-- Two stores answer alike now and after whatever is done to both. -/
def AlikeEverAfter (s t : Store) : Prop :=
  ∀ actions s', Runs s actions s' → ∃ t', Runs t actions t' ∧ AnswersAlike s' t'

/-- **Rearranged stores answer alike ever after.** -/
theorem Rearranged.alikeEverAfter {s t : Store} (h : Rearranged s t) : AlikeEverAfter s t := by
  intro actions s' run
  obtain ⟨t', run', h'⟩ := h.runs run
  refine ⟨t', run', ?_, h'.visible_perm⟩
  intro n op hvisible hlevels
  exact h'.outcome n hvisible hlevels

end Store

end ScopeChain
