/-
  ScopeChain.Proofs.Brackets
  ──────────────────────────
  **A BLOCK THAT CLOSES WHAT IT OPENS LEAVES NOTHING BEHIND.**

  Operations on one node that leave as many scopes as they enter, and at no time
  more, bring the node back: to the scope it was at, with the parent and the
  depth it had.  What they inserted on the way is in scopes that nothing leads
  to any more, except for what they inserted into the outermost scope.

  Leaving restores nothing by itself; it takes a place over from another node,
  made by the enter that it undoes.  The invariant says where these nodes are:
  from inside, `level` of them lead back to the place at the start.

      Bracketed              — the operations of such a block
      Store.filedOutermost   — what they file in the outermost scope
      Opened                 — a place some scopes inside another
      InBlock                — the invariant
      InBlock.enter, InBlock.leave, InBlock.insertCurrent,
      InBlock.insertOutermost
                             — its steps
      InBlock.run            — it holds throughout
      block_restores         — what holds after a block
-/
import ScopeChain.Proofs.Buckets
import ScopeChain.Proofs.SharedScopes
import ScopeChain.Proofs.Views

namespace ScopeChain

/-! ## §1. Blocks. -/

/-- An operation that asks, and changes nothing. -/
def Operation.Asks : Operation → Prop
  | .enter => False
  | .leave => False
  | .insert _ _ _ => False
  | .setPolicy _ => False
  | .setKeyFunction _ => False
  | _ => True

/-- Operations on a node at a number of scopes inside a block, up to the end of
the block: they close these scopes and what they open, and insert only into
scopes that the block has opened or into the outermost one. -/
inductive Bracketed : Nat → List Operation → Prop where
  | done : Bracketed 0 []
  | enter {level : Nat} {rest : List Operation} (others : Bracketed (level + 1) rest) :
      Bracketed level (.enter :: rest)
  | leave {level : Nat} {rest : List Operation} (others : Bracketed level rest) :
      Bracketed (level + 1) (.leave :: rest)
  | insertCurrent {level : Nat} {rest : List Operation} (key value : Value)
      (others : Bracketed (level + 1) rest) :
      Bracketed (level + 1) (.insert .current key value :: rest)
  | insertOutermost {level : Nat} {rest : List Operation} (key value : Value)
      (others : Bracketed level rest) : Bracketed level (.insert .outermost key value :: rest)
  | ask {level : Nat} {op : Operation} {rest : List Operation} (asks : op.Asks)
      (others : Bracketed level rest) : Bracketed level (op :: rest)

/-- File several symbols, one after the other. -/
def ScopeMap.insertAll (objs : Objects) (m : ScopeMap) (filings : List Filing) : ScopeMap :=
  filings.foldl (fun m f => m.insert objs f.key f.symbol) m

theorem ScopeMap.insertAll_append (objs : Objects) (m : ScopeMap) (first second : List Filing) :
    m.insertAll objs (first ++ second) = (m.insertAll objs first).insertAll objs second :=
  List.foldl_append

namespace Store

/-- File several symbols in one scope, one after the other. -/
def fileAll (s : Store) (i : ScopeId) (filings : List Filing) : Store :=
  { s with scopes := s.scopes.write i ((s.scopes.read i).insertAll s.objects filings) }

theorem read_fileAll {s : Store} {i : ScopeId} (hi : i < s.scopes.length)
    (filings : List Filing) (j : ScopeId) :
    (s.fileAll i filings).scopes.read j
      = if j = i then (s.scopes.read i).insertAll s.objects filings else s.scopes.read j :=
  Arena.read_write _ _ hi j

theorem samePlaces_fileAll (s : Store) (i : ScopeId) (filings : List Filing) :
    SamePlaces s (s.fileAll i filings) :=
  ⟨rfl, Arena.length_write _ _ _, fun _ => rfl, fun _ => rfl, fun _ => rfl, fun _ => rfl⟩

/-- Carry out operations on a node one after the other, whatever comes of
each. -/
def performEach (s : Store) (n : NodeId) : List Operation → Store
  | [] => s
  | op :: rest => performEach (s.perform n op).store n rest

/-- What an operation on a node files in the outermost scope, by way of an
insertion into it. -/
def filedBy (s : Store) (n : NodeId) : Operation → List Filing
  | .insert .outermost key value =>
      match s.filing n .outermost key value with
      | .ok f => if f.clash.isNone then [f] else []
      | .error _ => []
  | _ => []

/-- What operations on a node, carried out one after the other, file in the
outermost scope. -/
def filedOutermost (s : Store) (n : NodeId) : List Operation → List Filing
  | [] => []
  | op :: rest => s.filedBy n op ++ filedOutermost (s.perform n op).store n rest

theorem perform_of_asks (s : Store) (n : NodeId) {op : Operation} (asks : op.Asks) :
    (s.perform n op).store = s ∧ s.filedBy n op = [] := by
  cases op with
  | enter => exact asks.elim
  | leave => exact asks.elim
  | insert target key value => exact asks.elim
  | setPolicy policy => exact asks.elim
  | setKeyFunction keyFunction => exact asks.elim
  | lookup => exact ⟨rfl, rfl⟩
  | contains => exact ⟨rfl, rfl⟩
  | visible => exact ⟨rfl, rfl⟩
  | depth => exact ⟨rfl, rfl⟩
  | isGlobal => exact ⟨rfl, rfl⟩
  | describe => exact ⟨rfl, rfl⟩
  | keyCount => exact ⟨rfl, rfl⟩
  | levels => exact ⟨rfl, rfl⟩
  | policy => exact ⟨rfl, rfl⟩

/-- An insertion into the outermost scope files there what it is said to file. -/
theorem perform_insert_outermost (s : Store) (n : NodeId) (key value : Value) :
    let op := Operation.insert .outermost key value
    ((s.perform n op).store = s ∧ s.filedBy n op = [])
      ∨ ∃ f, (s.perform n op).store = s.file (s.node n).root f.key f.symbol
          ∧ s.filedBy n op = [f] := by
  intro op
  simp only [op, perform_insert_store, filedBy]
  cases hf : s.filing n .outermost key value with
  | error fault =>
      refine .inl ⟨?_, rfl⟩
      rw [insert_of_undecided hf]
  | ok f =>
      cases hc : f.clash with
      | none => exact .inr ⟨f, insert_store_of_accepted hf hc, by simp [hc]⟩
      | some existing => exact .inl ⟨insert_store_of_clash hf hc, by simp [hc]⟩

/-! ## §2. Places inside a place. -/

/-- From a node's record a number of nodes, made since an earlier time, lead to
the place that the node `n` had at that time; the scopes on the way have been
opened since. -/
inductive Opened (s u : Store) (n : NodeId) : Nat → Node → Prop where
  | home {node : Node} (scope : node.scope = (s.node n).scope)
      (parent : node.parent = (s.node n).parent) : Opened s u n 0 node
  | further {level : Nat} {node : Node} {p : NodeId} (scope : s.scopes.length ≤ node.scope)
      (parent : node.parent = some p) (fresh : s.nodes.length ≤ p) (made : p < u.nodes.length)
      (outer : Opened s u n level (u.node p)) : Opened s u n (level + 1) node

namespace Opened

variable {s u v : Store} {n : NodeId} {level : Nat} {node node' : Node}

/-- Only the place counts. -/
theorem of_place (h : Opened s u n level node) (scope : node'.scope = node.scope)
    (parent : node'.parent = node.parent) : Opened s u n level node' := by
  cases h with
  | home hscope hparent => exact .home (scope.trans hscope) (parent.trans hparent)
  | further hscope hparent fresh made outer =>
      exact .further (scope ▸ hscope) (parent.trans hparent) fresh made outer

/-- What changes none of the nodes made since leaves the way back as it is. -/
theorem of_same (h : Opened s u n level node) (grown : u.nodes.length ≤ v.nodes.length)
    (same : ∀ p, s.nodes.length ≤ p → p < u.nodes.length → v.node p = u.node p) :
    Opened s v n level node := by
  induction h with
  | home scope parent => exact .home scope parent
  | further scope parent fresh made _ ih =>
      refine .further scope parent fresh (Nat.lt_of_lt_of_le made grown) ?_
      rw [same _ fresh made]
      exact ih

end Opened

/-! ## §3. The invariant. -/

/-- A store in the course of a block on a node that began at an earlier store:
the node is some scopes inside the place it had, the other nodes that there were
are as they were, and so are the scopes, except that the outermost one of the
node has been given some symbols. -/
structure InBlock (s : Store) (n : NodeId) (filings : List Filing) (level : Nat) (u : Store) :
    Prop where
  linked : u.Linked
  objects : u.objects = s.objects
  nodes : s.nodes.length ≤ u.nodes.length
  scopes : s.scopes.length ≤ u.scopes.length
  place : Opened s u n level (u.node n)
  root : (u.node n).root = (s.node n).root
  depth : (u.node n).depth = (s.node n).depth + level
  policy : (u.node n).policy = (s.node n).policy
  keyFunction : (u.node n).keyFunction = (s.node n).keyFunction
  others : ∀ m, m < s.nodes.length → m ≠ n → u.node m = s.node m
  outermost : u.scopes.read (s.node n).root
    = (s.scopes.read (s.node n).root).insertAll s.objects filings
  kept : ∀ i, i < s.scopes.length → i ≠ (s.node n).root → u.scopes.read i = s.scopes.read i

theorem inBlock_start {s : Store} (h : s.Linked) (n : NodeId) : InBlock s n [] 0 s where
  linked := h
  objects := rfl
  nodes := Nat.le_refl _
  scopes := Nat.le_refl _
  place := .home rfl rfl
  root := rfl
  depth := (Int.add_zero _).symm
  policy := rfl
  keyFunction := rfl
  others := fun _ _ _ => rfl
  outermost := rfl
  kept := fun _ _ _ => rfl

namespace InBlock

variable {s u : Store} {n : NodeId} {filings : List Filing} {level : Nat}

theorem lt (h : InBlock s n filings level u) (hn : n < s.nodes.length) : n < u.nodes.length :=
  Nat.lt_of_lt_of_le hn h.nodes

/-- Entering goes one scope further inside: the fresh node keeps the place that
the node had. -/
theorem enter (h : InBlock s n filings level u) (hn : n < s.nodes.length) :
    InBlock s n filings (level + 1) (u.perform n .enter).store := by
  have hnu := h.lt hn
  have hlength := length_nodes_enter u n
  have grown : u.nodes.length ≤ (u.enter n).nodes.length := hlength ▸ Nat.le_succ _
  have hself := node_enter_self u hnu
  show InBlock s n filings (level + 1) (u.enter n)
  refine
    { linked := h.linked.enter hnu
      objects := h.objects
      nodes := Nat.le_trans h.nodes grown
      scopes := Nat.le_trans h.scopes (length_scopes_enter u n ▸ Nat.le_succ _)
      place := ?place
      root := by rw [hself]; exact h.root
      depth := ?depth
      policy := by rw [hself]; exact h.policy
      keyFunction := by rw [hself]; exact h.keyFunction
      others := ?others
      outermost := (read_push_nil _ _).trans h.outermost
      kept := fun i hi hne => (read_push_nil _ _).trans (h.kept i hi hne) }
  case place =>
    rw [hself]
    refine .further h.scopes rfl h.nodes (hlength ▸ Nat.lt_succ_self _) ?_
    rw [node_enter_fresh u hnu]
    refine (h.place.of_same grown fun p hp hpu => node_enter_of_ne u hnu hpu ?_).of_place rfl rfl
    exact Nat.ne_of_gt (Nat.lt_of_lt_of_le hn hp)
  case depth =>
    rw [hself]
    show (u.node n).depth + 1 = _
    rw [h.depth, Int.natCast_succ, Int.add_assoc]
  case others =>
    intro m hm hmn
    have hmu := Nat.lt_of_lt_of_le hm h.nodes
    exact (node_enter_of_ne u hnu hmu hmn).trans (h.others m hm hmn)

/-- Leaving takes the place over from the node next on the way back. -/
theorem leave (h : InBlock s n filings (level + 1) u) (hn : n < s.nodes.length) :
    InBlock s n filings level (u.perform n .leave).store := by
  have hnu := h.lt hn
  cases h.place with
  | @further _ _ p _ parent fresh made outer =>
    have hstore : (u.perform n .leave).store = u.rejoin n p := by
      rw [perform_leave_of_link parent]
    have hself := node_rejoin_self u p hnu
    rw [hstore]
    refine
      { linked := h.linked.rejoin hnu parent
        objects := h.objects
        nodes := Nat.le_trans h.nodes (Nat.le_of_eq (length_nodes_rejoin u n p).symm)
        scopes := h.scopes
        place := ?place
        root := by rw [hself]; exact h.root
        depth := ?depth
        policy := by rw [hself]; exact h.policy
        keyFunction := by rw [hself]; exact h.keyFunction
        others := fun m hm hmn => (node_rejoin_of_ne u p hnu hmn).trans (h.others m hm hmn)
        outermost := h.outermost
        kept := h.kept }
    case place =>
      rw [hself]
      refine (outer.of_same (Nat.le_of_eq (length_nodes_rejoin u n p).symm)
        fun q hq _ => node_rejoin_of_ne u p hnu ?_).of_place rfl rfl
      exact Nat.ne_of_gt (Nat.lt_of_lt_of_le hn hq)
    case depth =>
      rw [hself]
      show (u.node n).depth - 1 = _
      rw [h.depth]
      omega

/-- What is filed leaves all nodes as they are. -/
theorem file (h : InBlock s n filings level u) {i : ScopeId} {key v : Value}
    {filings' : List Filing}
    (outermost : (u.file i key v).scopes.read (s.node n).root
      = (s.scopes.read (s.node n).root).insertAll s.objects filings')
    (kept : ∀ j, j < s.scopes.length → j ≠ (s.node n).root →
      (u.file i key v).scopes.read j = s.scopes.read j) :
    InBlock s n filings' level (u.file i key v) where
  linked := h.linked.of_samePlaces (samePlaces_file u i key v)
  objects := h.objects
  nodes := h.nodes
  scopes := Nat.le_trans h.scopes (Nat.le_of_eq (samePlaces_file u i key v).scopes.symm)
  place := h.place.of_same (Nat.le_refl _) fun _ _ _ => rfl
  root := h.root
  depth := h.depth
  policy := h.policy
  keyFunction := h.keyFunction
  others := h.others
  outermost := outermost
  kept := kept

/-- Inside the block insertions go to a scope that it has opened. -/
theorem insertCurrent (h : InBlock s n filings (level + 1) u) (hs : s.Linked)
    (hn : n < s.nodes.length) (key value : Value) :
    InBlock s n filings (level + 1) (u.perform n (.insert .current key value)).store := by
  rw [perform_insert_store]
  rcases insert_store_cases u n .current key value with hsame | ⟨f, -, -, hfiled⟩
  · rw [hsame]
    exact h
  · rw [hfiled]
    cases h.place with
    | further scope _ _ _ _ =>
      have old : ∀ j, j < s.scopes.length →
          (u.file (u.targetScope n .current) f.key f.symbol).scopes.read j = u.scopes.read j := by
        intro j hj
        have hne : j ≠ (u.node n).scope := Nat.ne_of_lt (Nat.lt_of_lt_of_le hj scope)
        rw [read_file, if_neg fun heq => hne heq.1]
      refine h.file ?_ fun j hj hne => (old j hj).trans (h.kept j hj hne)
      exact (old _ (hs.root_lt hn)).trans h.outermost

/-- Insertions into the outermost scope go where they would have gone before. -/
theorem insertOutermost (h : InBlock s n filings level u) (hn : n < s.nodes.length)
    (key value : Value) :
    InBlock s n (filings ++ u.filedBy n (.insert .outermost key value)) level
      (u.perform n (.insert .outermost key value)).store := by
  rcases perform_insert_outermost u n key value with ⟨hstore, hfiled⟩ | ⟨f, hstore, hfiled⟩
  · rw [hstore, hfiled, List.append_nil]
    exact h
  · have hlt := h.linked.root_lt (h.lt hn)
    rw [hstore, hfiled, h.root]
    rw [h.root] at hlt
    refine h.file ?_ fun j hj hne => ?_
    · rw [read_file, if_pos ⟨rfl, hlt⟩, h.outermost, h.objects, ScopeMap.insertAll_append]
      rfl
    · rw [read_file, if_neg fun heq => hne heq.1]
      exact h.kept j hj hne

/-- **The invariant holds throughout a block**, and at its end the node is no
scope inside any more. -/
theorem run (h : InBlock s n filings level u) (hs : s.Linked) (hn : n < s.nodes.length)
    {ops : List Operation} (block : Bracketed level ops) :
    InBlock s n (filings ++ u.filedOutermost n ops) 0 (u.performEach n ops) := by
  induction block generalizing u filings with
  | done =>
      rw [filedOutermost, List.append_nil]
      exact h
  | enter _ ih => exact ih (h.enter hn)
  | leave _ ih => exact ih (h.leave hn)
  | insertCurrent key value _ ih => exact ih (h.insertCurrent hs hn key value)
  | insertOutermost key value _ ih =>
      rw [filedOutermost, ← List.append_assoc]
      exact ih (h.insertOutermost hn key value)
  | @ask _ op rest asks _ ih =>
      obtain ⟨hstore, hfiled⟩ := perform_of_asks u n asks
      rw [filedOutermost, performEach, hfiled, List.nil_append, hstore]
      exact ih h

/-! ## §4. After a block. -/

/-- **At the end of a block every node that there was is as it was.** -/
theorem node_eq (h : InBlock s n filings 0 u) {m : NodeId} (hm : m < s.nodes.length) :
    u.node m = s.node m := by
  by_cases hmn : m = n
  · subst hmn
    cases h.place with
    | home scope parent =>
      have depth : (u.node m).depth = (s.node m).depth := h.depth.trans (Int.add_zero _)
      have root := h.root
      have policy := h.policy
      have keyFunction := h.keyFunction
      revert scope parent root depth policy keyFunction
      generalize u.node m = x
      generalize s.node m = y
      cases x
      cases y
      rintro rfl rfl rfl rfl rfl rfl
      rfl
  · exact h.others m hm hmn

theorem chain_eq (h : InBlock s n filings 0 u) (hs : s.Linked) {m : NodeId}
    (hm : m < s.nodes.length) : u.chain m = s.chain m := by
  refine hs.chain_of_keepsPlace h.linked hm (Nat.lt_of_lt_of_le hm h.nodes) fun c hc => ?_
  exact .of_node_eq (h.node_eq (hs.lt_of_mem hm (hs.chain_path hm) c hc))

/-- The scopes that there were are as if the symbols had been filed and nothing
else had been done. -/
theorem read_eq (h : InBlock s n filings 0 u) (hs : s.Linked) (hn : n < s.nodes.length)
    {i : ScopeId} (hi : i < s.scopes.length) :
    u.scopes.read i = (s.fileAll (s.node n).root filings).scopes.read i := by
  rw [read_fileAll (hs.root_lt hn)]
  split
  next heq =>
    rw [heq]
    exact h.outermost
  next hne => exact h.kept i hi hne

theorem here_eq (h : InBlock s n filings 0 u) (hs : s.Linked) (hn : n < s.nodes.length)
    {m : NodeId} (hm : m < s.nodes.length) :
    u.here m = (s.fileAll (s.node n).root filings).here m := by
  rw [here, h.node_eq hm]
  exact h.read_eq hs hn (hs.scope_lt hm)

/-- Lookups answer as if the symbols had been filed and nothing else had been
done. -/
theorem lookup_eq (h : InBlock s n filings 0 u) (hs : s.Linked) (hn : n < s.nodes.length)
    {m : NodeId} (hm : m < s.nodes.length) (reach : Reach) (key : Value) (f : Filter) :
    u.lookup m reach key f = (s.fileAll (s.node n).root filings).lookup m reach key f := by
  have haddress : u.addressAt m key = (s.fileAll (s.node n).root filings).addressAt m key := by
    rw [addressAt, h.objects, h.node_eq hm]
    rfl
  have hwithin : ∀ k, u.matchesWithin m k f reach
      = (s.fileAll (s.node n).root filings).matchesWithin m k f reach := by
    have hhere : ∀ k, ∀ c < s.nodes.length, u.matchesHere k f c
        = (s.fileAll (s.node n).root filings).matchesHere k f c := by
      intro k c hc
      rw [matchesHere, h.here_eq hs hn hc, h.objects]
      rfl
    intro k
    cases reach with
    | current => exact hhere k m hm
    | chain =>
        simp only [matchesWithin, h.chain_eq hs hm, (samePlaces_fileAll s _ filings).chain]
        refine congrArg firstNonempty (List.map_congr_left fun c hc => ?_)
        exact hhere k c (hs.lt_of_mem hm (hs.chain_path hm) c hc)
    | outermost =>
        simp only [matchesWithin]
        rw [h.node_eq hm, h.read_eq hs hn (hs.root_lt hm), h.objects]
        rfl
  rw [lookup, lookup, haddress]
  split
  · rfl
  · rw [hwithin]

theorem visible_eq (h : InBlock s n filings 0 u) (hs : s.Linked) (hn : n < s.nodes.length)
    {m : NodeId} (hm : m < s.nodes.length) :
    u.visible m = (s.fileAll (s.node n).root filings).visible m := by
  rw [visible, visible, h.chain_eq hs hm, (samePlaces_fileAll s _ filings).chain]
  refine List.flatMap_congr fun c hc => ?_
  rw [h.here_eq hs hn (hs.lt_of_mem hm (hs.chain_path hm) c hc)]

end InBlock

/-- **A block restores everything.**  After operations on a node of a reachable
store that close what they open, insert only into scopes opened by them or into
the outermost one, and apart from that only ask, every node that there was, the
node itself among them, is as it was: at the same scope, with the same parent
and the same depth.  Every scope that there was has its keys and entries as
before, except that the outermost scope of the node has been given, in their
order, the symbols of the accepted insertions into it.  So every lookup and
every listing answers as if these symbols had been filed and nothing else had
been done. -/
theorem block_restores {s : Store} (hs : s.Reachable) {n : NodeId} (hn : n < s.nodes.length)
    {ops : List Operation} (block : Bracketed 0 ops) :
    let t := s.performEach n ops
    let root := (s.node n).root
    let filings := s.filedOutermost n ops
    (∀ m, m < s.nodes.length → t.node m = s.node m ∧ t.chain m = s.chain m)
      ∧ (∀ i, i < s.scopes.length → i ≠ root → t.scopes.read i = s.scopes.read i)
      ∧ t.scopes.read root = (s.scopes.read root).insertAll s.objects filings
      ∧ ∀ m, m < s.nodes.length →
          (∀ reach key f, t.lookup m reach key f = (s.fileAll root filings).lookup m reach key f)
            ∧ t.visible m = (s.fileAll root filings).visible m := by
  intro t root filings
  have h := hs.linked
  have after : InBlock s n filings 0 t := (inBlock_start h n).run h hn block
  refine ⟨fun m hm => ⟨after.node_eq hm, after.chain_eq h hm⟩, after.kept, after.outermost, ?_⟩
  intro m hm
  exact ⟨fun reach key f => after.lookup_eq h hn hm reach key f, after.visible_eq h hn hm⟩

/-- Two scopes opened and closed, with an insertion in the first and one from the
second into the outermost scope. -/
def bracketing : List Operation :=
  [.enter, .insert .current (.str "a") .absent, .enter, .insert .outermost (.str "g") .absent,
    .leave, .lookup .chain (.str "a") .all, .leave]

theorem bracketed_bracketing : Bracketed 0 bracketing :=
  .enter (.insertCurrent _ _ (.enter (.insertOutermost _ _ (.leave (.ask trivial (.leave .done))))))

/-- Of the two symbols only the one in the outermost scope is left. -/
theorem block_restores_bracketing :
    let t := splicedStore.performEach 0 bracketing
    splicedStore.Reachable ∧ 0 < splicedStore.nodes.length ∧ Bracketed 0 bracketing
      ∧ t.node 0 = splicedStore.node 0
      ∧ t.visible 0 = [.str "g"]
      ∧ t.lookup 0 .chain (.str "a") .all = .ok [] := by
  intro t
  have hn : 0 < splicedStore.nodes.length := by decide
  obtain ⟨nodes, -, -, answers⟩ := block_restores splicedStore_reachable hn bracketed_bracketing
  obtain ⟨lookups, listing⟩ := answers 0 hn
  have filed : splicedStore.filedOutermost 0 bracketing = [⟨.str "g", .str "g", none⟩] := rfl
  rw [filed] at lookups listing
  refine ⟨splicedStore_reachable, hn, bracketed_bracketing, (nodes 0 hn).1, ?_, ?_⟩
  · exact listing.trans rfl
  · exact (lookups .chain (.str "a") .all).trans rfl

end Store

end ScopeChain
