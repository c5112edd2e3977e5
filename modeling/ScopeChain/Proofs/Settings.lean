/-
  ScopeChain.Proofs.Settings
  ──────────────────────────
  **STORES THAT DIFFER IN THEIR SETTINGS.**

  A node has a place and SETTINGS, its duplicate policy and its key function.
  The policy is read where an insertion looks for a clash, the key function
  where a key is derived, and nothing else reads either.  So two stores that are
  the same but for the settings of their nodes hold the same entries for all that
  only looks; an insertion that comes to the same decision in both comes to the
  same; and whatever settings a change gives to a node in the one store and in
  the other, they are the same but for the settings afterwards.

      SamePlaces.step_eq     — nodes in the same places walk alike
      Store.SameButSettings  — the two stores
      SameButSettings.matchesWithin_eq, SameButSettings.visible_eq,
      SameButSettings.step_eq
                             — matches under a key, listings, steps of a walk
      SameButSettings.insert — an insertion with one decision
      SameButSettings.create, SameButSettings.enter, SameButSettings.rejoin,
      SameButSettings.withNodes, SameButSettings.assign, SameButSettings.file
                             — one lemma for each change
      SameButSettings.perform
                             — what an operation replies
-/
import ScopeChain.Proofs.NodeSettings
import ScopeChain.Proofs.SuspendedWalks

namespace ScopeChain

namespace Store

/-! ## §1. Nodes in the same places. -/

namespace SamePlaces

variable {s t : Store}

/-- A node at the same scope, over the same scopes, has the same entries. -/
theorem here_eq (h : SamePlaces s t) (scopes : t.scopes = s.scopes) (n : NodeId) :
    t.here n = s.here n := by
  rw [here, here, scopes, h.scope]

/-- Nor do nodes in the same places see different entries. -/
theorem visible_eq (h : SamePlaces s t) (scopes : t.scopes = s.scopes) (n : NodeId) :
    t.visible n = s.visible n := by
  rw [visible, visible, h.chain]
  exact congrArg (List.flatMap · (s.chain n)) (funext fun m => congrArg _ (h.here_eq scopes m))

/-- Places and entries are all that a walk goes by. -/
theorem step_eq (h : SamePlaces s t) (scopes : t.scopes = s.scopes) (w : Walk) :
    t.step w = s.step w := by
  have hopen : ∀ nodes, t.openFirst nodes = s.openFirst nodes := fun nodes =>
    openFirst_congr (fun m _ => h.scope m) (fun m _ => h.here_eq scopes m)
  cases w with
  | finished => rfl
  | unstarted n => simp only [step, hopen, h.chain]
  | inside n scope keys bucket next =>
      have houter : t.enclosing n = s.enclosing n := by
        rw [enclosing, enclosing, h.parent]
        cases (s.node n).parent with
        | none => rfl
        | some p => exact h.chain p
      simp only [step, hopen, houter, scopes]

end SamePlaces

/-- Two stores with the same objects and scopes, whose nodes differ at most in
their policies and key functions. -/
structure SameButSettings (s t : Store) : Prop where
  objects : t.objects = s.objects
  journaling : t.journaling = s.journaling
  scopes : t.scopes = s.scopes
  nodes : t.nodes.length = s.nodes.length
  node : ∀ n, ∃ policy keyFunction,
    t.node n = { s.node n with policy := policy, keyFunction := keyFunction }

namespace SameButSettings

variable {s t : Store}

theorem refl (s : Store) : SameButSettings s s :=
  ⟨rfl, rfl, rfl, rfl, fun _ => ⟨_, _, rfl⟩⟩

/-- Where a node is, is not among its settings. -/
theorem samePlaces (h : SameButSettings s t) : SamePlaces s t :=
  .of_nodes h.nodes (congrArg List.length h.scopes) h.node

/-- And nothing else is: nodes in the same places differ in settings at most. -/
theorem of_samePlaces (objects : t.objects = s.objects) (journaling : t.journaling = s.journaling)
    (scopes : t.scopes = s.scopes) (same : SamePlaces s t) : SameButSettings s t :=
  ⟨objects, journaling, scopes, same.nodes, fun n => ⟨_, _, same.node_eq n⟩⟩

/-- A node that has its settings in both stores is the same in both. -/
theorem node_eq (h : SameButSettings s t) {n : NodeId} (same : t.settings n = s.settings n) :
    t.node n = s.node n := by
  obtain ⟨policy, keyFunction, hnode⟩ := h.node n
  unfold settings at same
  rw [hnode] at same
  cases same
  rw [hnode]

/-! ## §2. What only looks. -/

/-- No setting is read to find the entries of a scope. -/
theorem here_eq (h : SameButSettings s t) (n : NodeId) : t.here n = s.here n :=
  h.samePlaces.here_eq h.scopes n

/-- Nor to search it for a key that is prepared already. -/
theorem matchesWithin_eq (h : SameButSettings s t) (n : NodeId) (k : Value) (f : Filter)
    (reach : Reach) : t.matchesWithin n k f reach = s.matchesWithin n k f reach := by
  have hmatches : t.matchesHere k f = s.matchesHere k f := by
    funext m
    rw [matchesHere, matchesHere, h.here_eq, h.objects]
  cases reach with
  | current => exact congrFun hmatches n
  | chain => rw [matchesWithin, matchesWithin, h.samePlaces.chain, hmatches]
  | outermost => rw [matchesWithin, matchesWithin, h.scopes, h.samePlaces.root, h.objects]

/-- A lookup comes to the same where its key does. -/
theorem lookup_eq (h : SameButSettings s t) {n : NodeId} {key : Value}
    (address : t.addressAt n key = s.addressAt n key) (reach : Reach) (f : Filter) :
    t.lookup n reach key f = s.lookup n reach key f := by
  unfold lookup
  rw [address]
  cases s.addressAt n key with
  | error fault => rfl
  | ok k => exact congrArg Except.ok (h.matchesWithin_eq n k f reach)

/-- Membership is a lookup, so it also comes to the same where its key does. -/
theorem contains_eq (h : SameButSettings s t) {n : NodeId} {key : Value}
    (address : t.addressAt n key = s.addressAt n key) : t.contains n key = s.contains n key := by
  rw [contains, contains, h.lookup_eq address]

/-- Listings have no key, and come to the same whatever the settings are. -/
theorem visible_eq (h : SameButSettings s t) (n : NodeId) : t.visible n = s.visible n :=
  h.samePlaces.visible_eq h.scopes n

/-- A step of a walk comes to the same. -/
theorem step_eq (h : SameButSettings s t) (w : Walk) : t.step w = s.step w :=
  h.samePlaces.step_eq h.scopes w

/-! ## §3. Insertions. -/

/-- An insertion is decided alike where its key and the policy come to the same. -/
theorem filing_eq (h : SameButSettings s t) {n : NodeId} {key : Value}
    (address : t.addressAt n key = s.addressAt n key)
    (allows : t.allowsDuplicates n = s.allowsDuplicates n) (target : Target) (value : Value) :
    t.filing n target key value = s.filing n target key value := by
  rw [filing, filing, address, allows, h.objects, h.scopes, h.samePlaces.targetScope_eq]

/-- The journal line of an insertion shows a depth and texts, and no setting. -/
theorem insertionRecord_eq (h : SameButSettings s t) (n : NodeId) (target : Target) (f : Filing) :
    t.insertionRecord n target f = s.insertionRecord n target f := by
  rw [insertionRecord, insertionRecord, h.journaling, h.objects, h.samePlaces.depth]

/-- The entry itself goes into the same bucket of the same scope. -/
theorem file (h : SameButSettings s t) (i : ScopeId) (key v : Value) :
    SameButSettings (s.file i key v) (t.file i key v) where
  objects := h.objects
  journaling := h.journaling
  scopes := by
    show t.scopes.write i ((t.scopes.read i).insert t.objects key v) = _
    rw [h.scopes, h.objects]
    rfl
  nodes := h.nodes
  node := h.node

/-- **One decision, one insertion.** -/
theorem insert (h : SameButSettings s t) {n : NodeId} {target : Target} {key value : Value}
    (decided : t.filing n target key value = s.filing n target key value) :
    SameButSettings (s.insert n target key value).store (t.insert n target key value).store
      ∧ (t.insert n target key value).fault = (s.insert n target key value).fault
      ∧ (t.insert n target key value).events = (s.insert n target key value).events := by
  cases hf : s.filing n target key value with
  | error fault =>
      rw [insert_of_undecided hf, insert_of_undecided (decided.trans hf)]
      exact ⟨h, rfl, rfl⟩
  | ok f =>
      refine ⟨?_, ?_, ?_⟩
      · cases hclash : f.clash with
        | some existing =>
            rw [insert_store_of_clash hf hclash, insert_store_of_clash (decided.trans hf) hclash]
            exact h
        | none =>
            rw [insert_store_of_accepted hf hclash,
              insert_store_of_accepted (decided.trans hf) hclash, h.samePlaces.targetScope_eq]
            exact h.file _ _ _
      all_goals
        unfold Store.insert
        rw [decided, hf]
        simp only [h.insertionRecord_eq, h.objects]
        split <;> rfl

/-! ## §4. One lemma for each change. -/

/-- Two tables made with whatever settings differ in these at most. -/
theorem create (h : SameButSettings s t) (keyFunction other : KeyFunction)
    (policy other' : Value) :
    SameButSettings (s.create keyFunction policy) (t.create other other') :=
  .of_samePlaces h.objects h.journaling (congrArg (Arena.push · []) h.scopes)
    (h.samePlaces.create keyFunction other policy other')

/-- The fresh node takes over the settings of the one entered, different as they may be. -/
theorem enter (h : SameButSettings s t) {n : NodeId} (hn : n < s.nodes.length) :
    SameButSettings (s.enter n) (t.enter n) :=
  .of_samePlaces h.objects h.journaling (congrArg (Arena.push · []) h.scopes)
    (h.samePlaces.enter hn)

/-- The other changes of nodes leave objects and scopes alone. -/
theorem withNodes (h : SameButSettings s t) {nodes nodes' : Arena Node}
    (same : SamePlaces { s with nodes := nodes } { t with nodes := nodes' }) :
    SameButSettings { s with nodes := nodes } { t with nodes := nodes' } :=
  .of_samePlaces h.objects h.journaling h.scopes same

/-- A node that leaves brings its own settings along to its parent's place. -/
theorem rejoin (h : SameButSettings s t) {n : NodeId} (hn : n < s.nodes.length) (p : NodeId) :
    SameButSettings (s.rejoin n p) (t.rejoin n p) :=
  h.withNodes (h.samePlaces.rejoin hn p)

/-- Two different policies may be assigned, and two different key functions. -/
theorem setPolicy (h : SameButSettings s t) {n : NodeId} (hn : n < s.nodes.length)
    (policy other : Value) : SameButSettings (s.setPolicy n policy) (t.setPolicy n other) :=
  h.withNodes (h.samePlaces.setPolicy hn policy other)

theorem setKeyFunction (h : SameButSettings s t) {n : NodeId} (hn : n < s.nodes.length)
    (keyFunction other : KeyFunction) :
    SameButSettings (s.setKeyFunction n keyFunction) (t.setKeyFunction n other) :=
  h.withNodes (h.samePlaces.setKeyFunction hn keyFunction other)

/-- Objects are the same in both stores and change in the same way. -/
theorem assign (h : SameButSettings s t) (id : ObjectId) (attr : Attribute) (value : Value) :
    SameButSettings (s.assign id attr value) (t.assign id attr value) where
  objects := by
    show t.objects.assign id attr value = s.objects.assign id attr value
    rw [h.objects]
  journaling := h.journaling
  scopes := h.scopes
  nodes := h.nodes
  node := h.node

/-! ## §5. Operations. -/

end SameButSettings

/-- The nodes whose policies the answer of an operation shows. -/
def shown (s : Store) (n : NodeId) : Operation → List NodeId
  | .policy => [n]
  | .describe => [n]
  | .levels => s.chain n
  | _ => []

namespace SameButSettings

variable {s t : Store}

/-- A description shows a policy, and is the same where that is. -/
theorem describe_eq (h : SameButSettings s t) {n : NodeId}
    (policy : (t.node n).policy = (s.node n).policy) : t.describe n = s.describe n := by
  rw [describe, describe, h.objects, policy, h.samePlaces.depth, h.here_eq]

/-- The levels show the policies of a whole chain. -/
theorem levels_eq (h : SameButSettings s t) {n : NodeId}
    (policies : ∀ m ∈ s.chain n, (t.node m).policy = (s.node m).policy) :
    t.levels n = s.levels n := by
  rw [levels, levels, h.samePlaces.chain]
  refine List.map_congr_left fun m hm => ?_
  rw [h.samePlaces.depth, policies m hm, h.here_eq]

/-- **What an operation replies**: the same where its key comes to the same, where an insertion
finds the same policy, and where the policies that the answer shows are the same. -/
theorem perform (h : SameButSettings s t) {n : NodeId} (hn : n < s.nodes.length) {op : Operation}
    (address : ∀ key, op.key? = some key → t.addressAt n key = s.addressAt n key)
    (allows : ∀ target key value, op = .insert target key value →
      t.allowsDuplicates n = s.allowsDuplicates n) :
    SameButSettings (s.perform n op).store (t.perform n op).store
      ∧ (t.perform n op).events = (s.perform n op).events
      ∧ ((∀ m ∈ s.shown n op, (t.node m).policy = (s.node m).policy) →
          (t.perform n op).outcome = (s.perform n op).outcome) := by
  have hsame := h.samePlaces
  cases op with
  | enter =>
      refine ⟨h.enter hn, ?_, fun _ => rfl⟩
      simp only [Store.perform, recorded, h.journaling, hsame.depth]
  | leave =>
      cases hp : (s.node n).parent with
      | none =>
          rw [perform_leave_of_top hp, perform_leave_of_top ((hsame.parent n).trans hp)]
          refine ⟨h, ?_, fun _ => rfl⟩
          simp only [recorded, h.journaling]
      | some p =>
          rw [perform_leave_of_link hp, perform_leave_of_link ((hsame.parent n).trans hp)]
          refine ⟨h.rejoin hn p, ?_, fun _ => rfl⟩
          simp only [recorded, h.journaling, hsame.depth]
  | insert target key value =>
      have decided := h.filing_eq (address key rfl) (allows target key value rfl) target value
      obtain ⟨hstore, hfault, hevents⟩ := h.insert decided
      simp only [Store.perform, hfault]
      cases (s.insert n target key value).fault with
      | none => exact ⟨hstore, hevents, fun _ => rfl⟩
      | some fault => exact ⟨hstore, hevents, fun _ => rfl⟩
  | lookup reach key f =>
      exact ⟨h, rfl, fun _ => congrArg (Except.map _) (h.lookup_eq (address key rfl) reach f)⟩
  | contains key =>
      exact ⟨h, rfl, fun _ => congrArg (Except.map _) (h.contains_eq (address key rfl))⟩
  | visible =>
      exact ⟨h, rfl, fun _ => congrArg (fun vs => Except.ok (Answer.values vs)) (h.visible_eq n)⟩
  | depth =>
      exact ⟨h, rfl, fun _ => congrArg (fun d => Except.ok (Answer.number d)) (hsame.depth n)⟩
  | isGlobal =>
      exact ⟨h, rfl,
        fun _ => congrArg (fun p => Except.ok (Answer.flag (Option.isNone p))) (hsame.parent n)⟩
  | describe =>
      refine ⟨h, rfl, fun policies => congrArg (Except.map _) (h.describe_eq ?_)⟩
      exact policies n List.mem_cons_self
  | keyCount =>
      refine ⟨h, rfl, fun _ => ?_⟩
      simp only [Store.perform, h.here_eq]
  | levels =>
      exact ⟨h, rfl, fun policies => congrArg (fun ls => Except.ok (Answer.levels ls))
        (h.levels_eq policies)⟩
  | policy =>
      exact ⟨h, rfl, fun policies => congrArg (fun v => Except.ok (Answer.value v))
        (policies n List.mem_cons_self)⟩
  | setPolicy policy => exact ⟨h.setPolicy hn policy policy, rfl, fun _ => rfl⟩
  | setKeyFunction keyFunction =>
      exact ⟨h.setKeyFunction hn keyFunction keyFunction, rfl, fun _ => rfl⟩

end SameButSettings

end Store

end ScopeChain
