/-
  ScopeChain.Proofs.LockStep
  ──────────────────────────
  **A STRICT TABLE IS A PERMISSIVE ONE, CUT TO FIRST ENTRIES.**

  The same program is run twice, once with policies that refuse duplicates and
  once with any others, permissive ones above all; operations that fail are
  passed over.  The runs soon differ in what they accept.  But the strict run
  only ever misses entries that come second in a bucket: after every step the
  nodes of both runs are in the same places, the scopes have the same keys, and
  each bucket of the strict run is the first entry of its counterpart, alone.

      Twin                   — one step of the two programs
      Bucket.HeadOf          — a bucket, and the same cut to its first entry
      Store.InStep           — the two stores
      InStep.of_act          — a change of nodes keeps them in step
      InStep.act             — every step keeps them in step
      runs_in_step           — what the runs have in common

  This leaves out absent values stored as entries: the strict table takes
  another entry after one, so its buckets could outgrow one entry.
-/
import Mathlib.Data.List.Forall2
import ScopeChain.Proofs.Disambiguation
import ScopeChain.Proofs.NodeSettings
import ScopeChain.Proofs.Views

namespace ScopeChain

/-! ## §1. Programs that differ in their policies. -/

/-- One step of two programs: the same action in both.  Where it gives a policy the
first program gives one that refuses duplicates, the second any policy; and no
absent key is inserted without a value. -/
inductive Twin (objs : Objects) : Action → Action → Prop where
  | create (keyFunction : KeyFunction) {strict : Value} (other : Value)
      (refuses : objs.truth strict = false) :
      Twin objs (.create keyFunction strict) (.create keyFunction other)
  | setPolicy (n : NodeId) {strict : Value} (other : Value)
      (refuses : objs.truth strict = false) :
      Twin objs (.call n (.setPolicy strict)) (.call n (.setPolicy other))
  | call (n : NodeId) {op : Operation} (leaves : ∀ policy, op ≠ .setPolicy policy)
      (present : ∀ target, op ≠ .insert target .absent .absent) :
      Twin objs (.call n op) (.call n op)
  | assign (id : ObjectId) (attr : Attribute) (value : Value) :
      Twin objs (.assign id attr value) (.assign id attr value)

/-! ## §2. Buckets cut to their first entries. -/

/-- The first bucket holds the first entry of the second, alone, under the same
key. -/
inductive Bucket.HeadOf : Bucket → Bucket → Prop where
  | mk (key : Value) {first : Value} (rest : List Value) (present : first ≠ .absent) :
      HeadOf ⟨key, [first]⟩ ⟨key, first :: rest⟩

/-- Bucket by bucket the first scope holds the first entries of the second. -/
abbrev ScopeMap.HeadsOf : ScopeMap → ScopeMap → Prop := List.Forall₂ Bucket.HeadOf

namespace ScopeMap

/-- The two scopes have the same keys in the same order. -/
theorem HeadsOf.keys {m m' : ScopeMap} (h : HeadsOf m m') : m'.keys = m.keys := by
  induction h with
  | nil => rfl
  | cons first _ ih =>
      cases first with
      | mk key rest present => exact congrArg (key :: ·) ih

/-- Under a key there is nothing in either scope, or one entry in the first which is
the first of those in the second. -/
theorem HeadsOf.bucket {m m' : ScopeMap} (h : HeadsOf m m') (objs : Objects) (key : Value) :
    m.bucket objs key = [] ∧ m'.bucket objs key = []
      ∨ ∃ first rest, first ≠ .absent ∧ m.bucket objs key = [first]
          ∧ m'.bucket objs key = first :: rest := by
  induction h with
  | nil => exact .inl ⟨rfl, rfl⟩
  | cons head _ ih =>
      cases head with
      | @mk own first rest present =>
          unfold ScopeMap.bucket
          by_cases hkey : objs.same own key = true
          · rw [if_pos hkey, if_pos hkey]
            exact .inr ⟨first, rest, present, rfl, rfl⟩
          · rw [if_neg hkey, if_neg hkey]
            exact ih

/-- A new key gets its first entry in both scopes. -/
theorem HeadsOf.insert_both {m m' : ScopeMap} (h : HeadsOf m m') {objs : Objects}
    {key v : Value} (hnone : m.bucket objs key = []) (present : v ≠ .absent) :
    HeadsOf (m.insert objs key v) (m'.insert objs key v) := by
  induction h with
  | nil => exact .cons (.mk key [] present) .nil
  | cons head others ih =>
      cases head with
      | @mk own first rest present' =>
          unfold ScopeMap.bucket at hnone
          unfold ScopeMap.insert
          by_cases hkey : objs.same own key = true
          · rw [if_pos hkey] at hnone
            cases hnone
          · rw [if_neg hkey] at hnone ⊢
            rw [if_neg hkey]
            exact .cons (.mk own rest present') (ih hnone)

/-- A key that is there may get more entries in the second scope. -/
theorem HeadsOf.insert_right {m m' : ScopeMap} (h : HeadsOf m m') {objs : Objects}
    {key : Value} (hsome : m.bucket objs key ≠ []) (v : Value) :
    HeadsOf m (m'.insert objs key v) := by
  induction h with
  | nil => exact absurd rfl hsome
  | cons head others ih =>
      cases head with
      | @mk own first rest present =>
          unfold ScopeMap.bucket at hsome
          unfold ScopeMap.insert
          by_cases hkey : objs.same own key = true
          · rw [if_pos hkey]
            exact .cons (.mk own (rest ++ [v]) present) others
          · rw [if_neg hkey] at hsome ⊢
            exact .cons (.mk own rest present) (ih hsome)

/-- What is found under a key in the first scope is the first of what is found in the
second. -/
theorem HeadsOf.matching_all {m m' : ScopeMap} (h : HeadsOf m m') (objs : Objects)
    (key : Value) : m.matching objs key .all = (m'.matching objs key .all).take 1 := by
  have hall : ∀ l : List Value, l.filter (Filter.all.accepts objs) = l := by
    intro l
    apply List.filter_eq_self.mpr
    intro v _
    rfl
  unfold ScopeMap.matching
  rw [hall, hall]
  rcases h.bucket objs key with ⟨hnone, hnone'⟩ | ⟨first, rest, -, hone, hsome⟩
  · rw [hnone, hnone']
    rfl
  · rw [hone, hsome]
    rfl

end ScopeMap

/-! ## §3. Stores in step. -/

namespace Store

/-- The first store has strict nodes only, each in the place of the same node of the
second; and scope by scope it holds the first entries of the second.  Objects
have kept the kinds that they had when the programs began. -/
structure InStep (objs : Objects) (s t : Store) : Prop where
  kinds : Objects.SameKinds objs s.objects
  objects : t.objects = s.objects
  journaling : t.journaling = s.journaling
  nodes : t.nodes.length = s.nodes.length
  scopes : t.scopes.length = s.scopes.length
  node : ∀ n, ∃ policy, t.node n = { s.node n with policy := policy }
  strict : ∀ n, n < s.nodes.length → s.allowsDuplicates n = false
  heads : ∀ i, (s.scopes.read i).HeadsOf (t.scopes.read i)

namespace InStep

variable {objs : Objects} {s t : Store}

/-- Programs in step begin with the same empty store. -/
theorem start (objects : Objects) (journaling : Bool) :
    InStep objects (.empty objects journaling) (.empty objects journaling) where
  kinds := .refl objects
  objects := rfl
  journaling := rfl
  nodes := rfl
  scopes := rfl
  node := fun _ => ⟨_, rfl⟩
  strict := by
    intro n hn
    exact absurd hn (Nat.not_lt_zero n)
  heads := fun _ => .nil

/-- Policies apart, nodes are the same. -/
theorem samePlaces (h : InStep objs s t) : SamePlaces s t :=
  .of_nodes h.nodes h.scopes fun n => (h.node n).imp fun _ hnode => ⟨_, hnode⟩

/-- Key functions are among what is the same. -/
theorem addressAt_eq (h : InStep objs s t) (n : NodeId) (key : Value) :
    t.addressAt n key = s.addressAt n key := by
  obtain ⟨policy, hnode⟩ := h.node n
  rw [addressAt, addressAt, h.objects, hnode]

/-! ### Changes of nodes. -/

/-- New scopes are empty in both runs. -/
theorem heads_push (h : InStep objs s t) (i : ScopeId) :
    ((Arena.push s.scopes []).read i).HeadsOf ((Arena.push t.scopes []).read i) := by
  rw [read_push_nil, read_push_nil]
  exact h.heads i

/-- Every policy that the first program gives to a node refuses duplicates: it is a falsy
one, or the truth of a falsy one. -/
theorem refuses_given (h : InStep objs s t) {a b : Action} (twin : Twin objs a b)
    (admitted : s.Admits a) {n : NodeId} {policy : Value}
    (given : s.policyGiven? a n = some policy) : objs.truth policy = false := by
  unfold policyGiven? at given
  split at given
  · -- the node that the action makes
    obtain ⟨⟨_, keyFunction⟩, made, rfl⟩ := Option.map_eq_some_iff.mp given
    cases makes_of_made? made with
    | create _ strict =>
        cases twin with
        | create _ _ refuses => exact (h.kinds.truth strict).trans refuses
    | enter m => exact h.strict m admitted
  · -- a node that it assigns a policy to
    cases twin with
    | setPolicy m other refuses =>
        have assigned := (Option.ite_none_right_eq_some.mp given).2
        cases assigned
        exact refuses
    | @call m op leaves present =>
        cases op with
        | setPolicy policy => exact absurd rfl (leaves policy)
        | _ => cases given
    | create => cases given
    | assign => cases given

/-- So the first run has strict nodes only, after every action. -/
theorem strict_act (h : InStep objs s t) {a b : Action} (twin : Twin objs a b)
    (admitted : s.Admits a) {n : NodeId} (hn : n < (s.act a).store.nodes.length) :
    (s.act a).store.allowsDuplicates n = false := by
  have kinds := h.kinds.trans (act_entriesEffect s a).grows.kinds
  rw [allowsDuplicates, kinds.truth, policy_act admitted]
  cases given : s.policyGiven? a n with
  | some policy => exact h.refuses_given twin admitted given
  | none =>
      -- a node that is given no policy was there before
      have hlt : n < s.nodes.length := lt_of_policyGiven?_eq_none hn given
      exact (h.kinds.truth _).symm.trans (h.strict n hlt)

/-- Both programs give the same key functions. -/
theorem keyFunction_eq (h : InStep objs s t) {a b : Action} (twin : Twin objs a b)
    (admitted : s.Admits a) (admitted' : t.Admits b) (n : NodeId) :
    ((t.act b).store.node n).keyFunction = ((s.act a).store.node n).keyFunction := by
  have own : ∀ m, (t.node m).keyFunction = (s.node m).keyFunction := by
    intro m
    obtain ⟨_, hnode⟩ := h.node m
    rw [hnode]
  have made : (t.made? b).map Settings.keyFunction = (s.made? a).map Settings.keyFunction := by
    cases twin with
    | create => rfl
    | setPolicy => rfl
    | @call m op => cases op <;> simp [made?, own]
    | assign => rfl
  have assigned : b.keyFunctionFor? n = a.keyFunctionFor? n := by
    cases twin <;> rfl
  rw [keyFunction_act admitted', keyFunction_act admitted, keyFunctionGiven?, keyFunctionGiven?,
    made, assigned, h.nodes, own]

/-- **A change of nodes keeps stores in step** where it leaves them in the same places and
the scopes as they are, new ones aside. -/
theorem of_act (h : InStep objs s t) {a b : Action} (twin : Twin objs a b)
    (admitted : s.Admits a) (admitted' : t.Admits b) {s' t' : Store}
    (first : (s.act a).store = s') (second : (t.act b).store = t')
    (objects : t'.objects = s'.objects) (journaling : t'.journaling = s'.journaling)
    (same : SamePlaces s' t') (heads : ∀ i, (s'.scopes.read i).HeadsOf (t'.scopes.read i)) :
    InStep objs s' t' := by
  subst first second
  refine ⟨?_, objects, journaling, same.nodes, same.scopes, ?_, ?_, heads⟩
  · exact h.kinds.trans (act_entriesEffect s a).grows.kinds
  · intro n
    have hnode := same.node_eq n
    rw [h.keyFunction_eq twin admitted admitted'] at hnode
    exact ⟨_, hnode⟩
  · exact fun _ hn => h.strict_act twin admitted hn

/-! ### Insertions. -/

/-- Both runs file the first entry under a key. -/
theorem file_both (h : InStep objs s t) {i : ScopeId} {key v : Value}
    (hnone : (s.scopes.read i).bucket s.objects key = []) (present : v ≠ .absent) :
    InStep objs (s.file i key v) (t.file i key v) where
  kinds := h.kinds
  objects := h.objects
  journaling := h.journaling
  nodes := h.nodes
  scopes := by simp [Store.file, h.scopes]
  node := h.node
  strict := h.strict
  heads := by
    intro j
    rw [read_file, read_file, h.scopes, h.objects]
    split
    · exact (h.heads i).insert_both hnone present
    · exact h.heads j

/-- The second run files one more entry under a key that has one. -/
theorem file_right (h : InStep objs s t) {i : ScopeId} {key : Value}
    (hsome : (s.scopes.read i).bucket s.objects key ≠ []) (v : Value) :
    InStep objs s (t.file i key v) where
  kinds := h.kinds
  objects := h.objects
  journaling := h.journaling
  nodes := h.nodes
  scopes := by simp [Store.file, h.scopes]
  node := h.node
  strict := h.strict
  heads := by
    intro j
    rw [read_file, h.objects]
    split
    next hj =>
      rw [hj.1]
      exact (h.heads i).insert_right hsome v
    next => exact h.heads j

/-- Where the strict run finds nothing that speaks against a symbol, neither run has
an entry under its key. -/
theorem bucketAt_eq_nil (h : InStep objs s t) {n : NodeId} (hn : n < s.nodes.length)
    {target : Target} {k symbol : Value} (hclash : s.clashAt n target k symbol = none) :
    s.bucketAt n target k = [] ∧ t.bucketAt n target k = [] := by
  have hbuckets := (h.heads (s.targetScope n target)).bucket s.objects k
  unfold bucketAt
  rw [h.samePlaces.targetScope_eq, h.objects]
  rcases hbuckets with hnone | ⟨first, rest, present, hone, -⟩
  · exact hnone
  · -- the one entry of the strict bucket would be the clash
    unfold clashAt bucketAt at hclash
    rw [h.strict n hn, hone, clash?_eq_none_iff] at hclash
    rcases hclash with hnone | habsent
    · cases hnone
    · exact absurd (Option.some.inj habsent) present

/-- A symbol that the strict run files has no clash in the other. -/
theorem clashAt_eq_none (h : InStep objs s t) {n : NodeId} (hn : n < s.nodes.length)
    {target : Target} {k symbol : Value} (hclash : s.clashAt n target k symbol = none) :
    t.clashAt n target k symbol = none := by
  unfold clashAt
  rw [(h.bucketAt_eq_nil hn hclash).2]
  cases t.allowsDuplicates n <;> rfl

/-- **An insertion keeps stores in step**: what the strict one refuses, the other
refuses too or files behind an entry that is there. -/
theorem insert (h : InStep objs s t) {n : NodeId} (hn : n < s.nodes.length) {target : Target}
    {key value : Value} (present : ¬ (key = .absent ∧ value = .absent)) :
    InStep objs (s.insert n target key value).store (t.insert n target key value).store := by
  cases ha : s.addressAt n key with
  | error fault =>
      have hs : s.filing n target key value = .error fault := by rw [filing, ha]
      have ht : t.filing n target key value = .error fault := by
        rw [filing, h.addressAt_eq, ha]
      rw [insert_of_undecided hs, insert_of_undecided ht]
      exact h
  | ok k =>
      have hs := filing_of_address ha target value
      have ht := filing_of_address ((h.addressAt_eq n key).trans ha) target value
      cases hclash : s.clashAt n target k (storedSymbol key value) with
      | none =>
          -- the key is new to both
          have hempty := (h.bucketAt_eq_nil hn hclash).1
          rw [insert_store_of_accepted hs hclash,
            insert_store_of_accepted ht (h.clashAt_eq_none hn hclash), h.samePlaces.targetScope_eq]
          exact h.file_both hempty (storedSymbol_ne_absent present)
      | some existing =>
          rw [insert_store_of_clash hs hclash]
          have hsome : s.bucketAt n target k ≠ [] := by
            intro hnil
            unfold clashAt at hclash
            rw [h.strict n hn, hnil] at hclash
            cases hclash
          -- the other run may file the symbol behind the entry that is there
          rcases insert_store_cases t n target key value with hsame | ⟨f, hf, -, hfiled⟩
          · rw [hsame]
            exact h
          · rw [ht] at hf
            injection hf with hf
            rw [hfiled, ← hf, h.samePlaces.targetScope_eq]
            exact h.file_right hsome _

/-! ### Steps. -/

/-- **Every step keeps the stores in step**, and what the first program can do the
second can do as well. -/
theorem act (h : InStep objs s t) {a b : Action} (twin : Twin objs a b)
    (admitted : s.Admits a) : t.Admits b ∧ InStep objs (s.act a).store (t.act b).store := by
  have there : ∀ n, n < s.nodes.length → n < t.nodes.length := by
    intro n hn
    rw [h.nodes]
    exact hn
  -- one case for each way to pair two steps
  cases twin with
  | create keyFunction other refuses =>
      exact ⟨trivial, h.of_act (.create keyFunction other refuses) trivial trivial rfl rfl
        h.objects h.journaling (h.samePlaces.create _ _ _ _) h.heads_push⟩
  | setPolicy n other refuses =>
      exact ⟨there n admitted, h.of_act (.setPolicy n other refuses) admitted (there n admitted)
        rfl rfl h.objects h.journaling (h.samePlaces.setPolicy admitted _ _) h.heads⟩
  | assign id attr value =>
      have objects : t.objects.assign id attr value = s.objects.assign id attr value := by
        rw [h.objects]
      exact ⟨trivial, h.of_act (.assign id attr value) trivial trivial rfl rfl objects
        h.journaling (h.samePlaces.assign id attr value) h.heads⟩
  | @call n op leaves present =>
      refine ⟨there n admitted, ?_⟩
      have twin : Twin objs (.call n op) (.call n op) := .call n leaves present
      have admitted' := there n admitted
      show InStep objs (s.perform n op).store (t.perform n op).store
      cases op with
      | enter =>
          exact h.of_act twin admitted admitted' rfl rfl h.objects h.journaling
            (h.samePlaces.enter admitted) h.heads_push
      | leave =>
          have hparent := h.samePlaces.parent n
          cases hp : (s.node n).parent with
          | none =>
              rw [perform_leave_of_top hp, perform_leave_of_top (hparent.trans hp)]
              exact h
          | some p =>
              have first := congrArg Reply.store (perform_leave_of_link hp)
              have second := congrArg Reply.store (perform_leave_of_link (hparent.trans hp))
              rw [first, second]
              exact h.of_act twin admitted admitted' first second h.objects h.journaling
                (h.samePlaces.rejoin admitted p) h.heads
      | insert target key value =>
          rw [perform_insert_store, perform_insert_store]
          refine h.insert admitted ?_
          rintro ⟨rfl, rfl⟩
          exact present target rfl
      | setPolicy policy => exact absurd rfl (leaves policy)
      | setKeyFunction keyFunction =>
          exact h.of_act twin admitted admitted' rfl rfl h.objects h.journaling
            (h.samePlaces.setKeyFunction admitted _ _) h.heads
      | lookup => exact h
      | contains => exact h
      | visible => exact h
      | depth => exact h
      | isGlobal => exact h
      | describe => exact h
      | keyCount => exact h
      | levels => exact h
      | policy => exact h

/-- Whole runs keep the stores in step. -/
theorem runs (h : InStep objs s t) {strictly otherwise : List Action}
    (twins : List.Forall₂ (Twin objs) strictly otherwise) {s' : Store}
    (run : Runs s strictly s') : ∃ t', Runs t otherwise t' ∧ InStep objs s' t' := by
  induction twins generalizing s t with
  | nil =>
      cases run
      exact ⟨t, .nil t, h⟩
  | cons twin _ ih =>
      cases run with
      | cons admitted rest =>
          obtain ⟨admitted', next⟩ := h.act twin admitted
          obtain ⟨t', run', last⟩ := ih next rest
          exact ⟨t', .cons admitted' run', last⟩

/-! ### Answers. -/

/-- A search in the strict store finds the first entry of what the other finds. -/
theorem matchesWithin_all (h : InStep objs s t) (n : NodeId) (k : Value) (reach : Reach) :
    s.matchesWithin n k .all reach = (t.matchesWithin n k .all reach).take 1 := by
  cases reach with
  | current =>
      show (s.scopes.read (s.node n).scope).matching s.objects k .all
        = ((t.scopes.read (t.node n).scope).matching t.objects k .all).take 1
      rw [h.samePlaces.scope, h.objects]
      exact (h.heads _).matching_all s.objects k
  | outermost =>
      show (s.scopes.read (s.node n).root).matching s.objects k .all
        = ((t.scopes.read (t.node n).root).matching t.objects k .all).take 1
      rw [h.samePlaces.root, h.objects]
      exact (h.heads _).matching_all s.objects k
  | chain =>
      rw [matchesWithin_chain, matchesWithin_chain, h.samePlaces.view, h.objects,
        ← firstNonempty_map (f := List.take 1) rfl (by simp), List.map_map]
      refine congrArg firstNonempty (List.map_congr_left ?_)
      intro i _
      exact (h.heads i).matching_all s.objects k

/-- Without a filter the strict run finds the first of what the other finds. -/
theorem lookup_all (h : InStep objs s t) (n : NodeId) (reach : Reach) (key : Value) :
    s.lookup n reach key .all = (t.lookup n reach key .all).map (List.take 1) := by
  unfold lookup
  rw [h.addressAt_eq]
  cases s.addressAt n key with
  | error fault => rfl
  | ok k => exact congrArg Except.ok (h.matchesWithin_all n k reach)

/-- So a key is a member in both or in neither. -/
theorem contains_eq (h : InStep objs s t) (n : NodeId) (key : Value) :
    s.contains n key = t.contains n key := by
  unfold contains
  rw [h.lookup_all]
  cases t.lookup n .chain key .all with
  | error fault => rfl
  | ok found => cases found <;> rfl

/-- What the strict run accepts the other accepts. -/
theorem insert_done (h : InStep objs s t) {n : NodeId} (hn : n < s.nodes.length)
    {target : Target} {key value : Value}
    (done : (s.perform n (.insert target key value)).outcome = .ok .done) :
    (t.perform n (.insert target key value)).outcome = .ok .done := by
  rw [perform_insert_done_iff] at done ⊢
  obtain ⟨f, events, hf, hclash, hrecord⟩ := done
  obtain ⟨ha, hsymbol, hclashAt⟩ := of_filing_eq_ok hf
  have ht := filing_of_address ((h.addressAt_eq n key).trans ha) target value
  rw [hsymbol, hclash] at hclashAt
  have hnone := h.clashAt_eq_none hn hclashAt.symm
  -- the record of the insertion is the same in both, so it fails in neither
  refine ⟨_, events, ht, hnone, ?_⟩
  rw [← hrecord]
  unfold insertionRecord
  rw [h.journaling, h.objects, h.samePlaces.depth, hnone, hclash]

end InStep

/-- **Strict and permissive tables run in lock step.**  Run a program whose policies
all refuse duplicates, and the same program with any other policies, absent keys
inserted without a value apart; the second run then goes through as well.
Since programs may end anywhere, what follows holds after every step.  Every
node has the same depth in both runs and the same scopes in view; scope by
scope there are the same keys in the same order, and each bucket of the strict
run is the first entry of the other one's, alone.  Hence an insertion that the
strict run accepts is accepted by the other; both contain the same keys; and
without a filter the strict run finds the first of what the other finds, within
every reach. -/
theorem runs_in_step {objects : Objects} {journaling : Bool} {strictly otherwise : List Action}
    (twins : List.Forall₂ (Twin objects) strictly otherwise) {s : Store}
    (run : Runs (.empty objects journaling) strictly s) :
    ∃ t, Runs (.empty objects journaling) otherwise t
      ∧ t.nodes.length = s.nodes.length
      ∧ (∀ n, (t.node n).depth = (s.node n).depth ∧ t.view n = s.view n)
      ∧ (∀ i, (t.scopes.read i).keys = (s.scopes.read i).keys
          ∧ (s.scopes.read i).HeadsOf (t.scopes.read i))
      ∧ (∀ n target key value, n < s.nodes.length →
          (s.perform n (.insert target key value)).outcome = .ok .done →
          (t.perform n (.insert target key value)).outcome = .ok .done)
      ∧ ∀ n key, s.contains n key = t.contains n key
          ∧ ∀ reach, s.lookup n reach key .all
              = (t.lookup n reach key .all).map (List.take 1) := by
  obtain ⟨t, run', h⟩ := (InStep.start objects journaling).runs twins run
  refine ⟨t, run', h.nodes, ?_, ?_, ?_, ?_⟩
  · intro n
    exact ⟨h.samePlaces.depth n, h.samePlaces.view n⟩
  · intro i
    exact ⟨(h.heads i).keys, h.heads i⟩
  · intro n target key value hn
    exact h.insert_done hn
  · intro n key
    exact ⟨h.contains_eq n key, fun reach => h.lookup_all n reach key⟩

/-- An overload is filed outermost, an attribute is assigned, and the other overload is
tried under the same name, there and in a scope of its own. -/
def overloadTwice (policy : Value) : List Action :=
  [.create KeyFunction.byDefault policy, .call 0 (.insert .current (.object 0) .absent),
    .assign 0 .extra (.int 1), .call 0 .enter,
    .call 0 (.insert .outermost (.object 1) .absent), .call 0 (.insert .current (.object 1) .absent)]

/-- Where that leads. -/
def overloadedTwice (policy : Value) : Store :=
  (overloadTwice policy).foldl (fun s a => (s.act a).store) (.empty overloads false)

/-- The strict table refuses the second overload outermost, the permissive one takes it;
the programs go on in step. -/
theorem runs_in_step_overloaded :
    List.Forall₂ (Twin overloads) (overloadTwice (.bool false)) (overloadTwice (.bool true))
      ∧ Runs (.empty overloads false) (overloadTwice (.bool false)) (overloadedTwice (.bool false))
      ∧ (overloadedTwice (.bool false)).scopes.read 0 = [⟨.str "f", [.object 0]⟩]
      ∧ (overloadedTwice (.bool true)).scopes.read 0 = [⟨.str "f", [.object 0, .object 1]⟩]
      ∧ ∃ t, Runs (.empty overloads false) (overloadTwice (.bool true)) t
          ∧ t.view 0 = [1, 0]
          ∧ ScopeMap.HeadsOf [⟨.str "f", [.object 0]⟩] (t.scopes.read 0)
          ∧ (t.lookup 0 .outermost (.str "f") .all).map (List.take 1) = .ok [.object 0] := by
  have twins : List.Forall₂ (Twin overloads) (overloadTwice (.bool false))
      (overloadTwice (.bool true)) := by
    refine .cons (.create _ _ rfl) (.cons (.call 0 ?_ ?_) (.cons (.assign _ _ _)
      (.cons (.call 0 ?_ ?_) (.cons (.call 0 ?_ ?_) (.cons (.call 0 ?_ ?_) .nil)))))
    all_goals
      intro x hx
      cases hx
  have run : Runs (.empty overloads false) (overloadTwice (.bool false))
      (overloadedTwice (.bool false)) := by
    have first : (0 : Nat) < 1 := by decide
    have second : (0 : Nat) < 2 := by decide
    exact .cons trivial (.cons first (.cons trivial (.cons first (.cons second
      (.cons second (.nil _))))))
  have strict : (overloadedTwice (.bool false)).scopes.read 0 = [⟨.str "f", [.object 0]⟩] := rfl
  have permissive : (overloadedTwice (.bool true)).scopes.read 0
      = [⟨.str "f", [.object 0, .object 1]⟩] := rfl
  have found : (overloadedTwice (.bool false)).lookup 0 .outermost (.str "f") .all
      = .ok [.object 0] := rfl
  have hview : (overloadedTwice (.bool false)).view 0 = [1, 0] := rfl
  obtain ⟨t, run', -, places, scopes, -, answers⟩ := runs_in_step twins run
  refine ⟨twins, run, strict, permissive, t, run', ?_, ?_, ?_⟩
  · rw [(places 0).2, hview]
  · rw [← strict]
    exact (scopes 0).2
  · rw [← found]
    exact ((answers 0 (.str "f")).2 .outermost).symm

end Store

end ScopeChain
