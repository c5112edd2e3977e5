/-
  ScopeChain.Proofs.SuspendedWalks
  ────────────────────────────────
  **SCOPE TRAFFIC DOES NOT DISTURB A SUSPENDED WALK.**

  Between two steps of a walk over a table, the table may enter and leave
  scopes, look things up and file symbols in the scopes it has just opened.  If
  it is back where it was when the walk goes on, or if the walk has already gone
  from the table itself to an enclosing node, then what the walk meets from
  there is what it would have met anyway.

  A walk reads the scope that it is inside, and the places and scopes of the
  nodes from its own node outwards, and nothing else.  Traffic on a table moves
  that table alone, and the table is on the way of a walk only while the walk is
  at the table itself.

      Store.drained          — what the next steps of a walk come to
      Undisturbed            — stores that a walk cannot tell apart
      Undisturbed.step       — nor after a step
      Store.Over             — a walk over a table, in any position
      Store.FilesBeyond      — insertions go to scopes opened since
      Store.Balanced         — a block that ends at its level, never below it
      Beside, InBlock.traffic_run
                             — what a block leaves in its place
      traffic_spares_suspended_walks
-/
import ScopeChain.Proofs.Brackets
import ScopeChain.Proofs.LiveWalks

namespace ScopeChain

/-! ## §1. Chains of nodes on a chain. -/

namespace Store

/-- The chain of a node on a chain is a part of it. -/
theorem Linked.chain_subset {s : Store} (h : s.Linked) {n c : NodeId} (hn : n < s.nodes.length)
    (hmem : c ∈ s.chain n) : ∀ m ∈ s.chain c, m ∈ s.chain n := by
  intro m hm
  rw [h.chain_eq_cons (h.lt_of_mem hn (h.chain_path hn) c hmem)] at hm
  rcases List.mem_cons.mp hm with rfl | houter
  · exact hmem
  · exact h.enclosing_subset hn hmem m houter

/-- No chain leads back to where it came from. -/
theorem Linked.not_mem_chain_of_mem {s : Store} (h : s.Linked) {n c : NodeId}
    (hn : n < s.nodes.length) (hmem : c ∈ s.chain n) (hne : c ≠ n) : n ∉ s.chain c := by
  have hchain := h.chain_eq_cons hn
  have path := h.chain_path hn
  rw [hchain] at path hmem
  have hnot : n ∉ s.enclosing n := path.not_mem_of_cons
  rcases List.mem_cons.mp hmem with heq | houter
  · exact absurd heq hne
  · -- the chain goes on inside the nodes that enclose the first
    rcases h.enclosing_cases hn with hnil | ⟨p, hp, hencl⟩
    · rw [hnil] at houter
      cases houter
    · rw [hencl] at houter hnot
      intro hback
      exact hnot (h.chain_subset hp houter n hback)

/-- **Nothing brings a node into a chain** that has been there. -/
theorem Change.not_mem_chain {s t : Store} (change : Change s t) (h : s.Linked) {n c : NodeId}
    (hn : n < s.nodes.length) (hc : c < s.nodes.length) (hnot : n ∉ s.chain c) :
    n ∉ t.chain c := by
  have ht := change.linked h
  have hct := Nat.lt_of_lt_of_le hc change.nodes_length_le
  have path := h.chain_path hc
  have hlt := h.lt_of_mem hc path
  cases change.places with
  | create keyFunction policy =>
      have path' := path.congr fun m hm =>
        congrArg Node.parent (create_old s keyFunction policy (hlt m hm))
      rw [ht.chain_eq hct path']
      exact hnot
  | @enter m hm =>
      by_cases hmem : m ∈ s.chain c
      · obtain ⟨inner, path', -, -⟩ := h.exists_inner hc hmem
        rw [h.chain_eq hc path'] at hnot hlt
        rw [ht.chain_eq hct (path'.enter_of_mem hm hlt)]
        simp only [List.mem_append, List.mem_cons, not_or] at hnot ⊢
        exact ⟨hnot.1, hnot.2.1, Nat.ne_of_lt hn, hnot.2.2⟩
      · rw [ht.chain_eq hct (path.enter_of_not_mem hm hlt hmem)]
        exact hnot
  | @leave m p hm hp =>
      by_cases hmem : m ∈ s.chain c
      · obtain ⟨inner, path', -, -⟩ := h.exists_inner hc hmem
        rw [enclosing_of_parent hp, h.chain_eq_cons (h.parent_lt hm hp)] at path'
        rw [h.chain_eq hc path'] at hnot
        rw [ht.chain_eq hct (path'.rejoin_of_mem hm hp)]
        simp only [List.mem_append, List.mem_cons, not_or] at hnot ⊢
        exact ⟨hnot.1, hnot.2.1, hnot.2.2.2⟩
      · rw [ht.chain_eq hct (path.rejoin_of_not_mem hm hmem)]
        exact hnot
  | stay same =>
      rw [same.chain]
      exact hnot

end Store

/-! ## §2. What a walk reads. -/

/-- The node that a walk is at, or will begin at. -/
def Walk.node? : Walk → Option NodeId
  | .unstarted n => some n
  | .inside n _ _ _ _ => some n
  | .finished => none

namespace Store

/-- What the next steps of a walk come to, each an entry, the end or a failure. -/
def drained (s : Store) : Nat → Walk → List (Except Fault (Option Value))
  | 0, _ => []
  | steps + 1, w => (s.step w).2 :: drained s steps (s.step w).1

theorem openFirst_congr {s t : Store} {nodes : List NodeId}
    (scope : ∀ m ∈ nodes, (t.node m).scope = (s.node m).scope)
    (here : ∀ m ∈ nodes, t.here m = s.here m) : t.openFirst nodes = s.openFirst nodes := by
  induction nodes with
  | nil => rfl
  | cons c rest ih =>
      have others := ih (fun m hm => scope m (List.mem_cons_of_mem c hm))
        (fun m hm => here m (List.mem_cons_of_mem c hm))
      unfold openFirst
      rw [scope c List.mem_cons_self, here c List.mem_cons_self, others]

/-- Opening ends a walk, or brings it into the scope of one of the nodes. -/
theorem openFirst_cases (s : Store) (nodes : List NodeId) :
    (s.openFirst nodes).1 = .finished
      ∨ ∃ c ∈ nodes, ∃ keys bucket next,
          (s.openFirst nodes).1 = .inside c (s.node c).scope keys bucket next := by
  induction nodes with
  | nil => exact .inl rfl
  | cons c rest ih =>
      unfold openFirst
      split
      next => exact .inr ⟨c, List.mem_cons_self, _, _, _, rfl⟩
      next =>
        rcases ih with hdone | ⟨m, hm, keys, bucket, next, hinside⟩
        · exact .inl hdone
        · exact .inr ⟨m, List.mem_cons_of_mem c hm, keys, bucket, next, hinside⟩

/-- A step ends a walk, leaves it at its node and in its scope, or takes it to a node ahead
and into the scope of that node. -/
theorem step_cases (s : Store) (w : Walk) :
    (s.step w).1 = .finished
      ∨ ((s.step w).1.node? = w.node? ∧ (s.step w).1.scope? = w.scope?)
      ∨ ∃ c ∈ s.ahead w, (s.step w).1.node? = some c
          ∧ (s.step w).1.scope? = some (s.node c).scope := by
  have opened : ∀ nodes, (s.openFirst nodes).1 = .finished
      ∨ ∃ c ∈ nodes, (s.openFirst nodes).1.node? = some c
          ∧ (s.openFirst nodes).1.scope? = some (s.node c).scope := by
    intro nodes
    rcases s.openFirst_cases nodes with hdone | ⟨c, hc, keys, bucket, next, hinside⟩
    · exact .inl hdone
    · rw [hinside]
      exact .inr ⟨c, hc, rfl, rfl⟩
  cases w with
  | finished => exact .inl rfl
  | unstarted n =>
      rcases opened (s.chain n) with hdone | hopen
      · exact .inl hdone
      · exact .inr (.inr hopen)
  | inside n scope keys bucket next =>
      simp only [step]
      split
      next => exact .inr (.inl ⟨rfl, rfl⟩)
      next =>
        -- the bucket is used up: another one of the scope, or outwards
        split
        next => exact .inl rfl
        next =>
          split
          next => exact .inr (.inl ⟨rfl, rfl⟩)
          next =>
            rcases opened (s.enclosing n) with hdone | hopen
            · exact .inl hdone
            · exact .inr (.inr hopen)

/-- What holds of the node and the scope of a walk, and of each node ahead and its scope,
holds of them after a step. -/
theorem step_keeps {s : Store} {w : Walk} {P : NodeId → Prop} {Q : ScopeId → Prop}
    (node : ∀ c, w.node? = some c → P c) (scope : ∀ i, w.scope? = some i → Q i)
    (ahead : ∀ m ∈ s.ahead w, P m ∧ Q (s.node m).scope) :
    (∀ c, (s.step w).1.node? = some c → P c) ∧ ∀ i, (s.step w).1.scope? = some i → Q i := by
  rcases s.step_cases w with hdone | ⟨hnode, hscope⟩ | ⟨m, hm, hnode, hscope⟩
  · rw [hdone]
    constructor <;> intro x hx <;> cases hx
  · rw [hnode, hscope]
    exact ⟨node, scope⟩
  · rw [hnode, hscope]
    obtain ⟨hp, hq⟩ := ahead m hm
    constructor <;> intro x hx <;> obtain rfl := Option.some.inj hx
    · exact hp
    · exact hq

/-- What lies ahead of a walk is on the chain of its node. -/
theorem Linked.mem_chain_of_mem_ahead {s : Store} (h : s.Linked) {w : Walk} {m : NodeId}
    (node : ∀ c, w.node? = some c → c < s.nodes.length) (hm : m ∈ s.ahead w) :
    ∃ c, w.node? = some c ∧ m ∈ s.chain c := by
  cases w with
  | finished => cases hm
  | unstarted n => exact ⟨n, rfl, hm⟩
  | inside n scope keys bucket next =>
      refine ⟨n, rfl, ?_⟩
      rw [h.chain_eq_cons (node n rfl)]
      exact List.mem_cons_of_mem _ hm

/-! ## §3. Stores that a walk cannot tell apart. -/

/-- The second store has all the nodes and scopes of the first; the scopes have the entries
that they had, and the nodes from the walk's own outwards are as they were. -/
structure Undisturbed (s t : Store) (w : Walk) : Prop where
  linked : s.Linked
  linked' : t.Linked
  nodes : s.nodes.length ≤ t.nodes.length
  entries : ∀ i, i < s.scopes.length → t.scopes.read i = s.scopes.read i
  node : ∀ c, w.node? = some c → c < s.nodes.length ∧ ∀ m ∈ s.chain c, t.node m = s.node m
  scope : ∀ i, w.scope? = some i → i < s.scopes.length

namespace Undisturbed

variable {s t : Store} {w : Walk}

/-- The chain of a node on the way is what it was. -/
theorem chain_eq (h : Undisturbed s t w) {c : NodeId} (hc : c < s.nodes.length)
    (same : ∀ m ∈ s.chain c, t.node m = s.node m) : t.chain c = s.chain c :=
  h.linked.chain_of_keepsPlace h.linked' hc (Nat.lt_of_lt_of_le hc h.nodes)
    fun m hm => .of_node_eq (same m hm)

theorem ahead_eq (h : Undisturbed s t w) : t.ahead w = s.ahead w := by
  cases w with
  | finished => rfl
  | unstarted n =>
      obtain ⟨hn, same⟩ := h.node n rfl
      exact h.chain_eq hn same
  | inside n scope keys bucket next =>
      obtain ⟨hn, same⟩ := h.node n rfl
      have hchain := h.chain_eq hn same
      rw [h.linked.chain_eq_cons hn, h.linked'.chain_eq_cons (Nat.lt_of_lt_of_le hn h.nodes)]
        at hchain
      exact (List.cons.inj hchain).2

/-- From a node ahead outwards all nodes are as they were. -/
theorem of_mem_ahead (h : Undisturbed s t w) {m : NodeId} (hm : m ∈ s.ahead w) :
    m < s.nodes.length ∧ ∀ x ∈ s.chain m, t.node x = s.node x := by
  obtain ⟨c, hwc, hmem⟩ := h.linked.mem_chain_of_mem_ahead (fun c hwc => (h.node c hwc).1) hm
  obtain ⟨hc, same⟩ := h.node c hwc
  refine ⟨h.linked.lt_of_mem hc (h.linked.chain_path hc) m hmem, ?_⟩
  intro x hx
  exact same x (h.linked.chain_subset hc hmem x hx)

theorem node_eq_of_mem_ahead (h : Undisturbed s t w) {m : NodeId} (hm : m ∈ s.ahead w) :
    t.node m = s.node m := by
  obtain ⟨hlt, same⟩ := h.of_mem_ahead hm
  apply same
  rw [h.linked.chain_eq_cons hlt]
  exact List.mem_cons_self

/-- A step comes to the same in both stores. -/
theorem step_eq (h : Undisturbed s t w) : t.step w = s.step w := by
  -- whatever a step opens is ahead
  have hopen : t.openFirst (t.ahead w) = s.openFirst (s.ahead w) := by
    rw [h.ahead_eq]
    apply openFirst_congr
    · intro m hm
      rw [h.node_eq_of_mem_ahead hm]
    · intro m hm
      unfold here
      rw [h.node_eq_of_mem_ahead hm]
      exact h.entries _ (h.linked.scope_lt (h.of_mem_ahead hm).1)
  cases w with
  | finished => rfl
  | unstarted n =>
      simp only [step]
      rw [show t.openFirst (t.chain n) = s.openFirst (s.chain n) from hopen]
  | inside n scope keys bucket next =>
      have hread := h.entries scope (h.scope scope rfl)
      simp only [step]
      rw [hread, show t.openFirst (t.enclosing n) = s.openFirst (s.enclosing n) from hopen]

/-- **And so do the steps after it.** -/
theorem step (h : Undisturbed s t w) : Undisturbed s t (s.step w).1 := by
  obtain ⟨node, scope⟩ := step_keeps (s := s) h.node h.scope fun m hm =>
    ⟨h.of_mem_ahead hm, h.linked.scope_lt (h.of_mem_ahead hm).1⟩
  exact ⟨h.linked, h.linked', h.nodes, h.entries, node, scope⟩

theorem drained_eq (h : Undisturbed s t w) (steps : Nat) :
    t.drained steps w = s.drained steps w := by
  induction steps generalizing w with
  | zero => rfl
  | succ steps ih =>
      unfold drained
      rw [h.step_eq, ih h.step]

end Undisturbed

/-! ## §4. Walks over a table. -/

/-- A walk over a table, in any position: at the table itself, or at a node from which no
parents lead to the table, or over. -/
structure Over (s : Store) (n : NodeId) (w : Walk) : Prop where
  linked : s.Linked
  lt : n < s.nodes.length
  node : ∀ c, w.node? = some c → c < s.nodes.length ∧ (c = n ∨ n ∉ s.chain c)
  scope : ∀ i, w.scope? = some i → i < s.scopes.length

theorem over_start {s : Store} (h : s.Linked) {n : NodeId} (hn : n < s.nodes.length) :
    Over s n (.unstarted n) := by
  refine ⟨h, hn, ?_, ?_⟩
  · intro c hc
    cases hc
    exact ⟨hn, .inl rfl⟩
  · intro i hi
    cases hi

namespace Over

variable {s : Store} {n : NodeId} {w : Walk}

/-- A step takes a walk outwards, so it does not come back to the table. -/
theorem step (h : Over s n w) : Over s n (s.step w).1 := by
  have ahead : ∀ m ∈ s.ahead w, m < s.nodes.length ∧ (m = n ∨ n ∉ s.chain m) := by
    intro m hm
    obtain ⟨c, hwc, hmem⟩ :=
      h.linked.mem_chain_of_mem_ahead (fun c hwc => (h.node c hwc).1) hm
    obtain ⟨hc, hn⟩ := h.node c hwc
    refine ⟨h.linked.lt_of_mem hc (h.linked.chain_path hc) m hmem, ?_⟩
    -- from the table itself its chain leads away from it, from elsewhere none leads to it
    rcases hn with rfl | hnot
    · by_cases heq : m = c
      · exact .inl heq
      · exact .inr (h.linked.not_mem_chain_of_mem hc hmem heq)
    · right
      intro hback
      exact hnot (h.linked.chain_subset hc hmem n hback)
  obtain ⟨node, scope⟩ := step_keeps (s := s) h.node h.scope fun m hm =>
    ⟨ahead m hm, h.linked.scope_lt (ahead m hm).1⟩
  exact ⟨h.linked, h.lt, node, scope⟩

/-- Whatever callers do, a walk that is past the table stays past it. -/
theorem act (h : Over s n w) {a : Action} (admitted : s.Admits a) :
    Over (s.act a).store n w := by
  have change := act_change admitted
  refine ⟨change.linked h.linked, Nat.lt_of_lt_of_le h.lt change.nodes_length_le, ?_, ?_⟩
  · intro c hnode
    obtain ⟨hc, hn⟩ := h.node c hnode
    refine ⟨Nat.lt_of_lt_of_le hc change.nodes_length_le, ?_⟩
    exact hn.imp id (change.not_mem_chain h.linked h.lt hc)
  · intro i hscope
    exact Nat.lt_of_lt_of_le (h.scope i hscope) change.scopes_length_le

/-- **At every time of a tour** the walk is in one of these positions. -/
theorem after {r : Tour} (h : Over r.store n r.walk) {turns : List Turn}
    (admitted : r.Spares [] turns) : Over (r.after turns).store n (r.after turns).walk := by
  induction turns generalizing r with
  | nil => exact h
  | cons t rest ih =>
      obtain ⟨first, others⟩ := admitted
      have next : Over (r.turn t).store n (r.turn t).walk := by
        cases t with
        | next => exact h.step
        | act a => exact h.act first.1
      exact ih next others

end Over

end Store

/-! ## §5. Traffic on a table. -/

/-- An operation that enters or leaves a scope, inserts, or only asks. -/
inductive Operation.Traffic : Operation → Prop where
  | enter : Operation.Traffic .enter
  | leave : Operation.Traffic .leave
  | insert (target : Target) (key value : Value) : Operation.Traffic (.insert target key value)
  | ask {op : Operation} (asks : op.Asks) : Operation.Traffic op

namespace Store

/-- Of operations on a node, carried out one after the other, the insertions that are
accepted all go to scopes from a number on. -/
def FilesBeyond (count : Nat) (s : Store) (n : NodeId) : List Operation → Prop
  | [] => True
  | op :: rest =>
      (∀ target key value f, op = .insert target key value →
          s.filing n target key value = .ok f → f.clash = none → count ≤ s.targetScope n target)
        ∧ FilesBeyond count (s.perform n op).store n rest

/-- Carried out one after the other, operations on a node never take it below a depth, and
end at that depth. -/
def StaysInside (base : Int) (s : Store) (n : NodeId) : List Operation → Prop
  | [] => (s.node n).depth = base
  | op :: rest =>
      base ≤ ((s.perform n op).store.node n).depth
        ∧ StaysInside base (s.perform n op).store n rest

/-- Operations on a node end at the level where they began, and never go below it. -/
def Balanced (s : Store) (n : NodeId) (ops : List Operation) : Prop :=
  StaysInside (s.node n).depth s n ops

/-- What one such operation does to a store. -/
inductive TrafficEffect (count : Nat) (s : Store) (n : NodeId) : Store → Prop where
  | enter : TrafficEffect count s n (s.perform n .enter).store
  | leave {p : NodeId} (hp : (s.node n).parent = some p) :
      TrafficEffect count s n (s.perform n .leave).store
  | file {i : ScopeId} (fresh : count ≤ i) (key v : Value) :
      TrafficEffect count s n (s.file i key v)
  | none : TrafficEffect count s n s

theorem perform_trafficEffect {count : Nat} {s : Store} {n : NodeId} {op : Operation}
    (traffic : op.Traffic)
    (beyond : ∀ target key value f, op = .insert target key value →
      s.filing n target key value = .ok f → f.clash = none → count ≤ s.targetScope n target) :
    TrafficEffect count s n (s.perform n op).store := by
  cases traffic with
  | enter => exact .enter
  | leave =>
      cases hp : (s.node n).parent with
      | some p => exact .leave hp
      | none =>
          rw [perform_leave_of_top hp]
          exact .none
  | insert target key value =>
      rw [perform_insert_store]
      rcases insert_store_cases s n target key value with hsame | ⟨f, hf, hclash, hfiled⟩
      · rw [hsame]
        exact .none
      · rw [hfiled]
        exact .file (beyond target key value f rfl hf hclash) f.key f.symbol
  | ask asks =>
      rw [(perform_of_asks s n asks).1]
      exact .none

/-- A filing in a scope opened since leaves the scopes from before. -/
theorem read_file_of_lt {s : Store} {i j : ScopeId} (hij : j < i) (key v : Value) :
    (s.file i key v).scopes.read j = s.scopes.read j := by
  rw [read_file, if_neg fun h => Nat.ne_of_lt hij h.1]

/-! ### Any block. -/

/-- A store some operations on a node later: every other node that there was is as it was,
and so is every scope. -/
structure Beside (s : Store) (n : NodeId) (u : Store) : Prop where
  linked : u.Linked
  nodes : s.nodes.length ≤ u.nodes.length
  scopes : s.scopes.length ≤ u.scopes.length
  others : ∀ m, m < s.nodes.length → m ≠ n → u.node m = s.node m
  entries : ∀ i, i < s.scopes.length → u.scopes.read i = s.scopes.read i

namespace Beside

variable {s u v : Store} {n : NodeId}

theorem effect (h : Beside s n u) (hn : n < s.nodes.length)
    (effect : TrafficEffect s.scopes.length u n v) : Beside s n v := by
  have hnu := Nat.lt_of_lt_of_le hn h.nodes
  cases effect with
  | enter =>
      show Beside s n (u.enter n)
      refine ⟨h.linked.enter hnu, ?_, ?_, ?_, ?_⟩
      · rw [length_nodes_enter]
        exact Nat.le_succ_of_le h.nodes
      · rw [length_scopes_enter]
        exact Nat.le_succ_of_le h.scopes
      · intro m hm hmn
        rw [node_enter_of_ne u hnu (Nat.lt_of_lt_of_le hm h.nodes) hmn]
        exact h.others m hm hmn
      · intro i hi
        exact (read_push_nil _ _).trans (h.entries i hi)
  | @leave p hp =>
      rw [perform_leave_of_link hp]
      refine ⟨h.linked.rejoin hnu hp, ?_, h.scopes, ?_, h.entries⟩
      · rw [length_nodes_rejoin]
        exact h.nodes
      · intro m hm hmn
        rw [node_rejoin_of_ne u p hnu hmn]
        exact h.others m hm hmn
  | @file i fresh key v =>
      have same := samePlaces_file u i key v
      refine ⟨h.linked.of_samePlaces same, h.nodes, ?_, h.others, ?_⟩
      · rw [same.scopes]
        exact h.scopes
      · intro j hj
        rw [read_file_of_lt (Nat.lt_of_lt_of_le hj fresh)]
        exact h.entries j hj
  | none => exact h

theorem run (h : Beside s n u) (hn : n < s.nodes.length) {ops : List Operation}
    (traffic : ∀ op ∈ ops, op.Traffic) (beyond : FilesBeyond s.scopes.length u n ops) :
    Beside s n (u.performEach n ops) := by
  induction ops generalizing u with
  | nil => exact h
  | cons op rest ih =>
      have first := perform_trafficEffect (traffic op List.mem_cons_self) beyond.1
      exact ih (h.effect hn first) (fun o ho => traffic o (List.mem_cons_of_mem op ho)) beyond.2

end Beside

/-! ### A balanced block. -/

namespace InBlock

variable {s u v : Store} {n : NodeId} {level : Nat}

theorem entries (h : InBlock s n [] level u) {i : ScopeId} (hi : i < s.scopes.length) :
    u.scopes.read i = s.scopes.read i := by
  by_cases heq : i = (s.node n).root
  · rw [heq]
    exact h.outermost
  · exact h.kept i hi heq

/-- Traffic that does not go below the level where a block began leads from one level inside
the block to another. -/
theorem effect (h : InBlock s n [] level u) (hn : n < s.nodes.length) (hs : s.Linked)
    (effect : TrafficEffect s.scopes.length u n v)
    (inside : (s.node n).depth ≤ (v.node n).depth) : ∃ level', InBlock s n [] level' v := by
  cases effect with
  | enter => exact ⟨level + 1, h.enter hn⟩
  | @leave p hp =>
      cases level with
      | succ level => exact ⟨level, h.leave hn⟩
      | zero =>
          -- this would be a level below
          have hdepth := h.depth
          rw [perform_leave_of_link hp, node_rejoin_self u p (h.lt hn)] at inside
          simp only at inside
          omega
  | @file i fresh key v =>
      refine ⟨level, h.file ?_ ?_⟩
      · rw [read_file_of_lt (Nat.lt_of_lt_of_le (hs.root_lt hn) fresh)]
        exact h.outermost
      · intro j hj hne
        rw [read_file_of_lt (Nat.lt_of_lt_of_le hj fresh)]
        exact h.kept j hj hne
  | none => exact ⟨level, h⟩

/-- **A balanced block brings the node back.** -/
theorem traffic_run (h : InBlock s n [] level u) (hn : n < s.nodes.length) (hs : s.Linked)
    {ops : List Operation} (traffic : ∀ op ∈ ops, op.Traffic)
    (beyond : FilesBeyond s.scopes.length u n ops)
    (inside : StaysInside (s.node n).depth u n ops) : InBlock s n [] 0 (u.performEach n ops) := by
  induction ops generalizing u level with
  | nil =>
      -- at the depth of the beginning no level is left
      have hdepth := h.depth
      have hend : (u.node n).depth = (s.node n).depth := inside
      have hlevel : level = 0 := by omega
      rw [← hlevel]
      exact h
  | cons op rest ih =>
      have first := perform_trafficEffect (traffic op List.mem_cons_self) beyond.1
      obtain ⟨level', next⟩ := h.effect hn hs first inside.1
      exact ih next (fun o ho => traffic o (List.mem_cons_of_mem op ho)) beyond.2 inside.2

end InBlock

/-! ## §6. Suspended walks. -/

theorem Over.undisturbed_of_balanced {s : Store} {n : NodeId} {w : Walk} (h : Over s n w)
    {ops : List Operation} (traffic : ∀ op ∈ ops, op.Traffic)
    (beyond : FilesBeyond s.scopes.length s n ops) (balanced : s.Balanced n ops) :
    Undisturbed s (s.performEach n ops) w := by
  have back := (inBlock_start h.linked n).traffic_run h.lt h.linked traffic beyond balanced
  refine ⟨h.linked, back.linked, back.nodes, fun i hi => back.entries hi, ?_, h.scope⟩
  intro c hnode
  have hc := (h.node c hnode).1
  refine ⟨hc, ?_⟩
  intro m hm
  exact back.node_eq (h.linked.lt_of_mem hc (h.linked.chain_path hc) m hm)

theorem Over.undisturbed_of_past {s : Store} {n : NodeId} {w : Walk} (h : Over s n w)
    {ops : List Operation} (traffic : ∀ op ∈ ops, op.Traffic)
    (beyond : FilesBeyond s.scopes.length s n ops) (past : w.node? ≠ some n) :
    Undisturbed s (s.performEach n ops) w := by
  have start : Beside s n s :=
    ⟨h.linked, Nat.le_refl _, Nat.le_refl _, fun _ _ _ => rfl, fun _ _ => rfl⟩
  have beside := start.run h.lt traffic beyond
  refine ⟨h.linked, beside.linked, beside.nodes, beside.entries, ?_, h.scope⟩
  intro c hnode
  obtain ⟨hc, hn⟩ := h.node c hnode
  refine ⟨hc, ?_⟩
  intro m hm
  apply beside.others m (h.linked.lt_of_mem hc (h.linked.chain_path hc) m hm)
  -- the table is not on the way of a walk that is past it
  rintro rfl
  rcases hn with rfl | hnot
  · exact past hnode
  · exact hnot hm

/-- **Scope traffic does not disturb a suspended walk.**  Take a walk over a table of a
reachable store, in any position that it can come to, whatever callers do to the store on
the way; and between two of its steps a block of operations on the table that enter
scopes, leave scopes, ask and insert, where accepted insertions go to scopes only that the
block has opened.  If the block ends at the level where it began and never goes below it,
or if the walk is no longer at the table itself, then the steps after the block, all of
them, come to what they come to without it: the same entries, the same failures, and the
end at the same step. -/
theorem traffic_spares_suspended_walks {s : Store} (hs : s.Reachable) {n : NodeId}
    (hn : n < s.nodes.length) {turns : List Turn}
    (admitted : (Tour.mk s (.unstarted n)).Spares [] turns) :
    let r := (Tour.mk s (.unstarted n)).after turns
    ∀ ops, (∀ op ∈ ops, op.Traffic) → FilesBeyond r.store.scopes.length r.store n ops →
      r.store.Balanced n ops ∨ r.walk.node? ≠ some n →
      ∀ steps, (r.store.performEach n ops).drained steps r.walk = r.store.drained steps r.walk := by
  intro r ops traffic beyond harmless steps
  have h : Over r.store n r.walk := (over_start hs.linked hn).after admitted
  rcases harmless with balanced | past
  · exact (h.undisturbed_of_balanced traffic beyond balanced).drained_eq steps
  · exact (h.undisturbed_of_past traffic beyond past).drained_eq steps

/-- Enter a scope, file a symbol there and leave it. -/
def thereAndBack : List Operation := [.enter, .insert .current (.str "x") .absent, .leave]

/-- Leave a scope, fail to leave another, and enter two. -/
def outAndIn : List Operation := [.leave, .leave, .enter, .enter]

/-- A block between the first two steps of a walk, which is still at the table then; and one
that is not balanced, when the walk has come to the outer scope and is about to fail there,
because the scope has got another key. -/
theorem traffic_spares_suspended_walks_twice :
    let start : Tour := ⟨twoScopesStore, .unstarted 0⟩
    let later : List Turn :=
      [.next, .next, .act (.call 1 (.insert .current (.str "c") .absent))]
    let early := start.after [.next]
    let late := start.after later
    twoScopesStore.Reachable ∧ 0 < twoScopesStore.nodes.length
      ∧ start.Spares [] [.next] ∧ start.Spares [] later
      ∧ early.store.Balanced 0 thereAndBack ∧ late.walk.node? ≠ some 0
      ∧ early.store.drained 2 early.walk = [.ok (some (.str "a")), .ok none]
      ∧ (early.store.performEach 0 thereAndBack).drained 2 early.walk
          = early.store.drained 2 early.walk
      ∧ late.store.drained 2 late.walk = [.error .keysChanged, .ok none]
      ∧ (late.store.performEach 0 outAndIn).drained 2 late.walk
          = late.store.drained 2 late.walk := by
  intro start later early late
  have hn : 0 < twoScopesStore.nodes.length := by decide
  have first : start.Spares [] [.next] := ⟨trivial, trivial⟩
  have second : start.Spares [] later := by
    have there : (1 : Nat) < 2 := by decide
    refine ⟨trivial, trivial, ⟨there, ?_⟩, trivial⟩
    intro m hm
    cases hm
  have balanced : early.store.Balanced 0 thereAndBack :=
    ⟨by decide, by decide, by decide, rfl⟩
  have past : late.walk.node? ≠ some 0 := by decide
  have beyond : FilesBeyond early.store.scopes.length early.store 0 thereAndBack := by
    refine ⟨?_, ?_, ?_, trivial⟩ <;> intro target key value f hop _ _ <;> cases hop
    exact Nat.le_refl 2
  have beyond' : FilesBeyond late.store.scopes.length late.store 0 outAndIn := by
    refine ⟨?_, ?_, ?_, ?_, trivial⟩ <;> intro target key value f hop <;> cases hop
  have traffic : ∀ op ∈ thereAndBack, op.Traffic := by
    intro op hop
    simp only [thereAndBack, List.mem_cons, List.not_mem_nil, or_false] at hop
    rcases hop with rfl | rfl | rfl
    · exact .enter
    · exact .insert _ _ _
    · exact .leave
  have traffic' : ∀ op ∈ outAndIn, op.Traffic := by
    intro op hop
    simp only [outAndIn, List.mem_cons, List.not_mem_nil, or_false] at hop
    rcases hop with rfl | rfl | rfl | rfl
    · exact .leave
    · exact .leave
    · exact .enter
    · exact .enter
  have left : early.store.drained 2 early.walk = [.ok (some (.str "a")), .ok none] := rfl
  have left' : late.store.drained 2 late.walk = [.error .keysChanged, .ok none] := rfl
  exact ⟨twoScopesStore_reachable, hn, first, second, balanced, past, left,
    traffic_spares_suspended_walks twoScopesStore_reachable hn first _ traffic beyond
      (.inl balanced) 2,
    left',
    traffic_spares_suspended_walks twoScopesStore_reachable hn second _ traffic' beyond'
      (.inr past) 2⟩

end Store

end ScopeChain
