/-
  ScopeChain.Proofs.OwnSettings
  ─────────────────────────────
  **POLICY AND KEY FUNCTION BELONG TO THE NODE.**

  A node gets a duplicate policy and a key function when it is made, and keeps
  them until others are assigned to it.  Nothing else changes them: not entering
  or leaving a scope there, and not what is done through other nodes, also where
  these are at the same scope.  And an operation on a node goes by the node's own
  settings alone, although it may read the scopes of many.

  So the settings of a node that files nothing, looks up strings only and enters
  no scope are of no consequence to anyone else.

      SameButAside           — stores that differ in nodes set aside
      SameButAside.runs      — so do they after two runs, and these reply alike
      settings_belong_to_nodes
-/
import ScopeChain.Proofs.PreparedKeys

namespace ScopeChain

/-! ## §1. Nodes set aside. -/

/-- An operation that files nothing, looks up strings only and enters no scope. -/
def Operation.Modest (objs : Objects) : Operation → Prop
  | .enter => False
  | .insert _ _ _ => False
  | .lookup _ key _ => (objs.text? key).isSome
  | .contains key => (objs.text? key).isSome
  | _ => True

namespace Action

/-- An action that does nothing else than assign a setting of a node set aside. -/
def assignsAside (aside : NodeId → Bool) : Action → Bool
  | .call n (.setPolicy _) => aside n
  | .call n (.setKeyFunction _) => aside n
  | _ => false

/-- An action that is modest where it is a call on a node set aside. -/
def Spares (objs : Objects) (aside : NodeId → Bool) : Action → Prop
  | .call n op => aside n = true → op.Modest objs
  | .create _ _ => True
  | .assign _ _ _ => True

end Action

namespace Store

/-- Two stores that are the same but for the settings of nodes set aside. -/
structure SameButAside (aside : NodeId → Bool) (s t : Store) : Prop
    extends SameButSettings s t where
  node_eq : ∀ n, aside n = false → t.node n = s.node n

/-- Two actions, each with the store that it is done to, that are one, in stores that are the
same but for nodes set aside, before it and after it, with the same events, and with the same
answer or failure, except that it may show the policies of such nodes. -/
structure Alike (aside : NodeId → Bool) (x y : Store × Action) : Prop where
  action : y.2 = x.2
  before : SameButAside aside x.1 y.1
  after : SameButAside aside (x.1.act x.2).store (y.1.act y.2).store
  events : (y.1.act y.2).events = (x.1.act x.2).events
  outcome : (∀ n op, x.2 = .call n op → ∀ m ∈ x.1.shown n op, aside m = false) →
    (y.1.act y.2).outcome = (x.1.act x.2).outcome

namespace SameButAside

variable {aside : NodeId → Bool} {s t : Store}

theorem refl (s : Store) : SameButAside aside s s := ⟨.refl s, fun _ _ => rfl⟩

/-! ### One lemma for each change of nodes. -/

/-- One node gets a new record in both stores, the same one unless it is set aside. -/
theorem write (h : SameButAside aside s t) {n : NodeId} (hn : n < s.nodes.length) {x y : Node}
    (same : ∃ policy keyFunction, y = { x with policy := policy, keyFunction := keyFunction })
    (own : aside n = false → y = x) :
    SameButAside aside { s with nodes := s.nodes.write n x }
      { t with nodes := t.nodes.write n y } where
  toSameButSettings := h.toSameButSettings.withNodes (h.samePlaces.write hn same)
  node_eq := by
    intro m hm
    show (t.nodes.write n y).read m = (s.nodes.write n x).read m
    rw [Arena.read_write _ _ hn, Arena.read_write _ _ (h.nodes ▸ hn)]
    split
    next hmn => exact own (hmn ▸ hm)
    next => exact h.node_eq m hm

/-! ### What operations reply. -/

theorem addressAt_eq (h : SameButAside aside s t) {n : NodeId} (own : aside n = false)
    (key : Value) : t.addressAt n key = s.addressAt n key := by
  rw [addressAt, addressAt, h.objects, h.node_eq n own]

theorem allows_eq (h : SameButAside aside s t) {n : NodeId} (own : aside n = false) :
    t.allowsDuplicates n = s.allowsDuplicates n := by
  rw [allowsDuplicates, allowsDuplicates, h.objects, h.node_eq n own]

/-- A modest operation finds its key, whatever the key function. -/
theorem addressAt_of_modest (h : SameButAside aside s t) {n : NodeId} {op : Operation}
    (modest : op.Modest s.objects) {key : Value} (hkey : op.key? = some key) :
    t.addressAt n key = s.addressAt n key := by
  have string : (s.objects.text? key).isSome := by
    cases op with
    | insert => cases modest
    | lookup =>
        obtain rfl := Option.some.inj hkey
        exact modest
    | contains =>
        obtain rfl := Option.some.inj hkey
        exact modest
    | _ => cases hkey
  rw [addressAt_of_string string, addressAt_of_string (h.objects ▸ string)]

/-- What an action leaves differs in nodes set aside only, as before: any other node that it
makes or assigns settings to gets the same in both, if no scope is entered through a node set
aside. -/
theorem of_act (h : SameButAside aside s t) {a : Action} (admitted : s.Admits a)
    (admitted' : t.Admits a) (enters : ∀ n, a = .call n .enter → aside n = false)
    (same : SameButSettings (s.act a).store (t.act a).store) :
    SameButAside aside (s.act a).store (t.act a).store where
  toSameButSettings := same
  node_eq := by
    intro n own
    have made : t.made? a = s.made? a := by
      unfold made?
      split
      next => rw [h.objects]
      next m => rw [h.objects, h.node_eq m (enters m rfl)]
      next => rfl
    apply same.node_eq
    rw [settings_act admitted', settings_act admitted, policyGiven?, policyGiven?,
      keyFunctionGiven?, keyFunctionGiven?, made, h.nodes, h.node_eq n own]

/-- **One action comes to the same**, if it is modest on nodes set aside. -/
theorem act (h : SameButAside aside s t) {objs : Objects}
    (kinds : Objects.SameKinds objs s.objects) {a : Action} (spares : a.Spares objs aside)
    (admitted : s.Admits a) : t.Admits a ∧ Alike aside (s, a) (t, a) := by
  cases a with
  | create keyFunction policy =>
      have same := h.toSameButSettings.create keyFunction keyFunction policy policy
      exact ⟨trivial, rfl, h, h.of_act trivial trivial (fun _ made => by cases made) same, rfl,
        fun _ => rfl⟩
  | assign id attr value =>
      exact ⟨trivial, rfl, h, ⟨h.toSameButSettings.assign id attr value, h.node_eq⟩, rfl,
        fun _ => rfl⟩
  | call n op =>
      have admitted' : n < t.nodes.length := by
        rw [h.nodes]
        exact admitted
      -- on a node set aside the operation asks for no setting, on any other it finds its own
      have modest : aside n = true → op.Modest s.objects := by
        intro hn
        have given := spares hn
        cases op <;> simp_all [Operation.Modest, kinds.text?]
      have address : ∀ key, op.key? = some key → t.addressAt n key = s.addressAt n key := by
        intro key hkey
        cases hn : aside n with
        | false => exact h.addressAt_eq hn key
        | true => exact h.addressAt_of_modest (modest hn) hkey
      have allows : ∀ target key value, op = .insert target key value →
          t.allowsDuplicates n = s.allowsDuplicates n := by
        rintro target key value rfl
        cases hn : aside n with
        | false => exact h.allows_eq hn
        | true => exact (modest hn).elim
      have enters : ∀ m, Action.call n op = .call m .enter → aside m = false := by
        rintro m ⟨⟩
        cases hn : aside n with
        | false => rfl
        | true => exact (modest hn).elim
      obtain ⟨same, events, outcome⟩ := h.toSameButSettings.perform admitted address allows
      refine ⟨admitted', rfl, h, h.of_act admitted admitted' enters same, events,
        fun shown => outcome fun m hm => ?_⟩
      rw [h.node_eq m (shown n op rfl m hm)]

/-! ### Assignments to nodes set aside. -/

/-- A node set aside may get other settings in one of the stores. -/
theorem write_right (h : SameButAside aside s t) {n : NodeId} (hn : n < s.nodes.length) {y : Node}
    (same : ∃ policy keyFunction,
      y = { s.node n with policy := policy, keyFunction := keyFunction })
    (ha : aside n = true) : SameButAside aside s { t with nodes := t.nodes.write n y } := by
  -- the other store gets the record that it has
  have keep : s = { s with nodes := s.nodes.write n (s.node n) } := by
    rw [node, Arena.write_read s.nodes hn]
  rw [keep]
  refine h.write hn same fun own => ?_
  rw [ha] at own
  cases own

theorem of_assignment_right (h : SameButAside aside s t) {a : Action} (admitted : t.Admits a)
    (assigns : a.assignsAside aside = true) : SameButAside aside s (t.act a).store := by
  unfold Action.assignsAside at assigns
  split at assigns
  next n policy =>
    have hn : n < s.nodes.length := Nat.lt_of_lt_of_eq admitted h.nodes
    obtain ⟨_, keyFunction, hnode⟩ := h.node n
    refine h.write_right hn ?_ assigns
    rw [hnode]
    exact ⟨policy, keyFunction, rfl⟩
  next n keyFunction =>
    have hn : n < s.nodes.length := Nat.lt_of_lt_of_eq admitted h.nodes
    obtain ⟨policy, _, hnode⟩ := h.node n
    refine h.write_right hn ?_ assigns
    rw [hnode]
    exact ⟨policy, keyFunction, rfl⟩
  next => cases assigns

theorem symm (h : SameButAside aside s t) : SameButAside aside t s where
  objects := h.objects.symm
  journaling := h.journaling.symm
  scopes := h.scopes.symm
  nodes := h.nodes.symm
  node := by
    intro n
    obtain ⟨policy, keyFunction, hnode⟩ := h.node n
    rw [hnode]
    exact ⟨_, _, rfl⟩
  node_eq := fun n own => (h.node_eq n own).symm

theorem of_assignment_left (h : SameButAside aside s t) {a : Action} (admitted : s.Admits a)
    (assigns : a.assignsAside aside = true) : SameButAside aside (s.act a).store t :=
  (h.symm.of_assignment_right admitted assigns).symm

end SameButAside

/-! ## §2. Runs that differ in nodes set aside. -/

/-- The actions of a run but for assignments to nodes set aside, each with the store that it
is done to. -/
def stepsBut (aside : NodeId → Bool) (s : Store) : List Action → List (Store × Action)
  | [] => []
  | a :: rest =>
      if a.assignsAside aside then stepsBut aside (s.act a).store rest
      else (s, a) :: stepsBut aside (s.act a).store rest

variable {aside : NodeId → Bool} {s t s' t' : Store}

/-- Assignments to nodes set aside may come before anything else. -/
theorem SameButAside.after_assignments (h : SameButAside aside s t) {first rest : List Action}
    (assigns : ∀ a ∈ first, a.assignsAside aside = true) (run : Runs t (first ++ rest) t') :
    ∃ u, SameButAside aside s u ∧ Runs u rest t'
      ∧ t.stepsBut aside (first ++ rest) = u.stepsBut aside rest := by
  induction first generalizing t with
  | nil => exact ⟨t, h, run, rfl⟩
  | cons a first ih =>
      cases run with
      | cons admitted others =>
          have ha := assigns a List.mem_cons_self
          obtain ⟨u, same, run', steps⟩ := ih (h.of_assignment_right admitted ha)
            (fun b hb => assigns b (List.mem_cons_of_mem _ hb)) others
          refine ⟨u, same, run', ?_⟩
          rw [← steps, List.cons_append, stepsBut, if_pos ha]

/-- **Runs that differ in assignments to nodes set aside come to the same**, step by step, if
the rest of what is done on these nodes is modest. -/
theorem SameButAside.runs (h : SameButAside aside s t) {objs : Objects}
    (kinds : Objects.SameKinds objs s.objects) {actions others : List Action}
    (differ : (actions.filter fun a => !a.assignsAside aside)
      = others.filter fun a => !a.assignsAside aside)
    (spares : ∀ a ∈ actions, a.Spares objs aside) (run : Runs s actions s')
    (run' : Runs t others t') :
    SameButAside aside s' t'
      ∧ List.Forall₂ (Alike aside) (s.stepsBut aside actions) (t.stepsBut aside others) := by
  induction run generalizing t others with
  | nil s =>
      -- all that is left of the second run assigns to nodes set aside
      have assigns : ∀ a ∈ others, a.assignsAside aside = true := by
        simpa using List.filter_eq_nil_iff.mp differ.symm
      rw [← List.append_nil others] at run' ⊢
      obtain ⟨u, same, last, steps⟩ := h.after_assignments assigns run'
      cases last
      rw [steps]
      exact ⟨same, .nil⟩
  | @cons s s' a rest admitted run ih =>
      have others_spare : ∀ b ∈ rest, b.Spares objs aside :=
        fun b hb => spares b (List.mem_cons_of_mem _ hb)
      have kinds' := kinds.trans (act_entriesEffect s a).grows.kinds
      cases ha : a.assignsAside aside with
      | true =>
          -- the second run need not have anything for it
          rw [List.filter_cons_of_neg (by simp [ha])] at differ
          rw [stepsBut, if_pos ha]
          exact ih (h.of_assignment_left admitted ha) kinds' differ others_spare run'
      | false =>
          -- the second run does the same, perhaps after assignments of its own
          rw [List.filter_cons_of_pos (by simp [ha])] at differ
          obtain ⟨first, later, rfl, assigns, -, same⟩ := List.filter_eq_cons_iff.mp differ.symm
          have assigns' : ∀ b ∈ first, b.assignsAside aside = true := by simpa using assigns
          obtain ⟨u, beside, last, steps⟩ := h.after_assignments assigns' run'
          obtain ⟨-, alike⟩ := beside.act kinds (spares a List.mem_cons_self) admitted
          cases last with
          | cons _ run' =>
              obtain ⟨final, alikes⟩ := ih alike.after kinds' same.symm others_spare run'
              rw [steps, stepsBut, stepsBut, if_neg (by simp [ha]), if_neg (by simp [ha])]
              exact ⟨final, .cons alike alikes⟩

/-! ## §3. Whose settings count. -/

/-- An operation on a node goes by the settings of this node, and by no others. -/
theorem SameButSettings.alike (h : SameButSettings s t) {n : NodeId} (hn : n < s.nodes.length)
    (own : t.node n = s.node n) (op : Operation) :
    Alike (fun m => m != n) (s, .call n op) (t, .call n op) := by
  have but : SameButAside (fun m => m != n) s t := by
    refine ⟨h, fun m hm => ?_⟩
    obtain rfl : m = n := by simpa using hm
    exact own
  refine (but.act (.refl s.objects) (a := .call n op) ?_ hn).2
  intro aside
  simp at aside

/-- **Settings belong to nodes.**  Take any run from the beginning, over any nodes.

Each node was made by some action of it, and its policy and its key function are those that
were assigned to this very node last since then, or else those that it was made with: what
the new table was given, or what the node that entered a scope had at that moment, of the
policy the truth.

What an operation on a node comes to goes by these alone: in a store that differs at most in
the settings of other nodes, it comes to the same.  Neither entering nor leaving a scope
changes the settings of any node that there is.

Let a second run differ in assignments of policies and key functions to nodes set aside, on
which otherwise nothing is filed, no key is looked up but strings and no scope is entered.
Then what is done on the other nodes, and all the rest, comes to the same in both: the
answers and failures, except for policies shown of nodes set aside, the events, and the
entries of every scope; and every walk steps alike. -/
theorem settings_belong_to_nodes {objects : Objects} {journaling : Bool} {actions : List Action}
    (run : Runs (.empty objects journaling) actions s) :
    let start := Store.empty objects journaling
    (∀ n, n < s.nodes.length →
        ∃ before a after u policy keyFunction, actions = before ++ a :: after
          ∧ Runs start before u ∧ u.nodes.length = n ∧ u.Makes a policy keyFunction
          ∧ (s.node n).policy = (after.filterMap (Action.policyFor? n)).getLastD policy
          ∧ (s.node n).keyFunction
              = (after.filterMap (Action.keyFunctionFor? n)).getLastD keyFunction)
      ∧ (∀ t n op, n < s.nodes.length → SameButSettings s t → t.node n = s.node n →
          Alike (fun m => m != n) (s, .call n op) (t, .call n op))
      ∧ (∀ n m op, n < s.nodes.length → m < s.nodes.length → op = .enter ∨ op = .leave →
          ((s.perform m op).store.node n).policy = (s.node n).policy
            ∧ ((s.perform m op).store.node n).keyFunction = (s.node n).keyFunction)
      ∧ (∀ aside others t, Runs start others t →
          ((actions.filter fun a => !a.assignsAside aside)
            = others.filter fun a => !a.assignsAside aside) →
          (∀ a ∈ actions, a.Spares objects aside) →
          SameButAside aside s t
            ∧ List.Forall₂ (Alike aside) (start.stepsBut aside actions)
                (start.stepsBut aside others)
            ∧ ∀ w, t.step w = s.step w) := by
  intro start
  refine ⟨fun n hn => run.exists_made (Nat.zero_le n) hn, ?_, ?_, ?_⟩
  · intro t n op hn same own
    exact same.alike hn own op
  · intro n m op hn hm hop
    have old : n ≠ s.nodes.length := Nat.ne_of_lt hn
    have policy := policy_act (a := .call m op) hm n
    have keyFunction := keyFunction_act (a := .call m op) hm n
    rw [policyGiven?, if_neg old] at policy
    rw [keyFunctionGiven?, if_neg old] at keyFunction
    rcases hop with rfl | rfl
    · exact ⟨policy, keyFunction⟩
    · exact ⟨policy, keyFunction⟩
  · intro aside others t run' differ spares
    obtain ⟨same, alikes⟩ :=
      (SameButAside.refl start).runs (.refl objects) differ spares run run'
    exact ⟨same, alikes, same.step_eq⟩

/-- A strict policy is assigned in an inner scope, which is then left. -/
def strictInside : List Action :=
  [.create KeyFunction.byDefault (.bool true), .call 0 .enter, .call 0 (.setPolicy (.int 0)),
    .call 0 (.insert .outermost (.str "x") .absent), .call 0 .leave]

/-- The same, with assignments to the node of the outer scope, which files nothing. -/
def strictInsideAndOutside : List Action :=
  [.create KeyFunction.byDefault (.bool true), .call 0 .enter, .call 1 (.setPolicy (.str "")),
    .call 0 (.setPolicy (.int 0)), .call 0 (.insert .outermost (.str "x") .absent),
    .call 1 (.setKeyFunction KeyFunction.refusing), .call 0 .leave]

/-- The policy stays in force when the scope is left; and although the scope of the insertion
is the one that node 1 is at, what is assigned there makes no difference. -/
theorem settings_belong_to_nodes_strictInside :
    let start := Store.empty [] false
    let left := fun actions : List Action => actions.foldl (fun s a => (s.act a).store) start
    let aside := fun n : NodeId => n == 1
    Runs start strictInside (left strictInside)
      ∧ ((left strictInside).node 0).policy = .int 0
      ∧ ((left strictInside).node 1).policy = .bool true
      ∧ (((left strictInside).perform 0 .enter).store.node 0).policy = .int 0
      ∧ (left strictInsideAndOutside).scopes = (left strictInside).scopes
      ∧ List.Forall₂ (Alike aside) (start.stepsBut aside strictInside)
          (start.stepsBut aside strictInsideAndOutside) := by
  intro start left aside
  have one : (0 : Nat) < 1 := by decide
  have two : (0 : Nat) < 2 := by decide
  have two' : (1 : Nat) < 2 := by decide
  have run : Runs start strictInside (left strictInside) :=
    .cons trivial (.cons one (.cons two (.cons two (.cons two (.nil _)))))
  have run' : Runs start strictInsideAndOutside (left strictInsideAndOutside) :=
    .cons trivial (.cons one (.cons two' (.cons two (.cons two (.cons two' (.cons two
      (.nil _)))))))
  have spares : ∀ a ∈ strictInside, a.Spares [] aside := by
    simp [strictInside, Action.Spares, aside]
  have hn : 0 < (left strictInside).nodes.length := by decide
  obtain ⟨-, -, moved, others⟩ := settings_belong_to_nodes run
  obtain ⟨same, alikes, -⟩ := others aside strictInsideAndOutside _ run' rfl spares
  exact ⟨run, rfl, rfl, (moved 0 0 .enter hn hn (.inl rfl)).1, same.scopes, alikes⟩

end Store

end ScopeChain
