/-
  ScopeChain.Proofs.WalkSteps
  ───────────────────────────
  **WHAT A WALK HAS BEHIND IT, AND WHAT IT HAS LEFT.**

  A walk stands between two entries of what its node sees: some it has PASSED,
  the others REMAIN.  A step takes the first of those that remain, whatever the
  store has become since the last step; it ends the walk where none remain, and
  it fails where a scope has got a new key while the walk was inside.  Both
  parts are read off the store as it is now, so that they grow as it grows.

      Store.passed           — what lies behind a walk over a node
      Store.remaining        — what lies before it
      passed_append_remaining — together they are all that the node sees
      StepEffect             — the four things that a step can do
      step_effect            — every step does one of them
      ChainStays             — a store grows, and no node of a chain moves
      ChainStays.passed_sublist, ChainStays.remaining_sublist
                             — then both parts grow
-/
import Mathlib.Data.List.Flatten
import ScopeChain.Walk
import ScopeChain.Proofs.Slots

namespace ScopeChain

/-! ## §1. Positions. -/

namespace Walk

/-- The slot of the entry that a walk has met last. -/
def slot : Walk → Slot
  | .inside _ scope _ bucket next => ⟨scope, bucket, next - 1⟩
  | .unstarted _ => default
  | .finished => default

/-- The scope that a walk is inside. -/
def scope? : Walk → Option ScopeId
  | .inside _ scope _ _ _ => some scope
  | .unstarted _ => none
  | .finished => none

end Walk

namespace ScopeMap

/-- The entries of a scope before a place of a bucket. -/
def passedUpTo (i : ScopeId) (m : ScopeMap) (bucket next : Nat) : List (Slot × Value) :=
  placedFrom i 0 (m.take bucket) ++ placed i bucket 0 ((m.entriesAt bucket).take next)

/-- The entries of a scope from a place of a bucket on. -/
def leftFrom (i : ScopeId) (m : ScopeMap) (bucket next : Nat) : List (Slot × Value) :=
  placed i bucket next ((m.entriesAt bucket).drop next)
    ++ placedFrom i (bucket + 1) (m.drop (bucket + 1))

theorem placed_take_append_drop (i : ScopeId) (bucket place next : Nat) (entries : List Value) :
    placed i bucket place (entries.take next) ++ placed i bucket (place + next) (entries.drop next)
      = placed i bucket place entries := by
  induction entries generalizing place next with
  | nil => simp
  | cons v rest ih =>
      cases next with
      | zero => rfl
      | succ next =>
          rw [List.take_succ_cons, List.drop_succ_cons, placed_cons, placed_cons,
            List.cons_append, ← ih (place + 1) next, Nat.add_right_comm, Nat.add_assoc place]

/-- **A place of a bucket divides the entries of a scope.** -/
theorem passedUpTo_append_leftFrom (i : ScopeId) (m : ScopeMap) (bucket next : Nat) :
    passedUpTo i m bucket next ++ leftFrom i m bucket next = placedFrom i 0 m := by
  have hbucket : placed i bucket 0 ((m.entriesAt bucket).take next)
      ++ placed i bucket next ((m.entriesAt bucket).drop next)
        = placed i bucket 0 (m.entriesAt bucket) := by
    have happend := placed_take_append_drop i bucket 0 next (m.entriesAt bucket)
    rwa [Nat.zero_add] at happend
  have hrest : placed i bucket 0 (m.entriesAt bucket)
      ++ placedFrom i (bucket + 1) (m.drop (bucket + 1)) = placedFrom i bucket (m.drop bucket) := by
    by_cases hlt : bucket < m.length
    · rw [List.drop_eq_getElem_cons hlt, placedFrom, entriesAt, List.getElem?_eq_getElem hlt]
      rfl
    · have hge : m.length ≤ bucket := Nat.le_of_not_lt hlt
      rw [entriesAt, List.getElem?_eq_none hge, List.drop_eq_nil_of_le hge,
        List.drop_eq_nil_of_le (Nat.le_succ_of_le hge)]
      rfl
  rw [passedUpTo, leftFrom, List.append_assoc, ← List.append_assoc (placed i bucket 0 _), hbucket,
    hrest]
  -- the buckets before the number, and those from it on
  by_cases hlt : bucket ≤ m.length
  · have happend := placedFrom_append i 0 (m.take bucket) (m.drop bucket)
    rw [List.take_append_drop, List.length_take_of_le hlt, Nat.zero_add] at happend
    exact happend.symm
  · have hge : m.length ≤ bucket := Nat.le_of_not_le hlt
    rw [List.take_of_length_le hge, List.drop_eq_nil_of_le hge, placedFrom, List.append_nil]

theorem leftFrom_eq_cons (i : ScopeId) {m : ScopeMap} {bucket next : Nat} {v : Value}
    (h : (m.entriesAt bucket)[next]? = some v) :
    leftFrom i m bucket next = (⟨i, bucket, next⟩, v) :: leftFrom i m bucket (next + 1) := by
  obtain ⟨hlt, hv⟩ := List.getElem?_eq_some_iff.mp h
  rw [leftFrom, List.drop_eq_getElem_cons hlt, hv, placed_cons]
  rfl

/-- Where a bucket is used up the buckets after it are left. -/
theorem leftFrom_of_usedUp (i : ScopeId) {m : ScopeMap} {bucket next : Nat}
    (h : (m.entriesAt bucket)[next]? = none) :
    leftFrom i m bucket next = placedFrom i (bucket + 1) (m.drop (bucket + 1)) := by
  rw [leftFrom, List.drop_eq_nil_of_le (List.getElem?_eq_none_iff.mp h)]
  rfl

theorem placedFrom_of_firstEntryFrom_none (i : ScopeId) {number : Nat} {buckets : List Bucket}
    (h : firstEntryFrom number buckets = none) : placedFrom i number buckets = [] := by
  induction buckets generalizing number with
  | nil => rfl
  | cons b rest ih =>
      rw [firstEntryFrom] at h
      split at h
      next hempty =>
        rw [placedFrom, hempty, ih h]
        rfl
      next => cases h

/-- The first bucket that has an entry gives what is left its first entry. -/
theorem placedFrom_of_firstEntryFrom_some (i : ScopeId) {m : ScopeMap} {number bucket : Nat}
    {v : Value} (h : firstEntryFrom number (m.drop number) = some (bucket, v)) :
    placedFrom i number (m.drop number) = (⟨i, bucket, 0⟩, v) :: leftFrom i m bucket 1 := by
  generalize hbuckets : m.drop number = buckets at h ⊢
  induction buckets generalizing number with
  | nil => cases h
  | cons b rest ih =>
      have hb : m[number]? = some b := by
        rw [← List.head?_drop, hbuckets]
        rfl
      have hrest : m.drop (number + 1) = rest := by
        rw [← List.tail_drop, hbuckets]
        rfl
      rw [firstEntryFrom] at h
      split at h
      next hempty =>
        -- an empty bucket adds nothing
        rw [placedFrom, hempty, ← ih hrest h]
        rfl
      next w more hentries =>
        cases h
        rw [placedFrom, hentries, placed_cons, leftFrom, entriesAt, hb, hrest]
        simp [hentries]

theorem Extends.passedUpTo_sublist {m m' : ScopeMap} (h : Extends m m') (i : ScopeId)
    (bucket next : Nat) :
    (passedUpTo i m bucket next).Sublist (passedUpTo i m' bucket next) := by
  have htake : (m.entriesAt bucket).take next <+: (m'.entriesAt bucket).take next := by
    obtain ⟨more, hmore⟩ := h.entriesAt bucket
    rw [← hmore, List.take_append]
    exact List.prefix_append _ _
  exact ((h.take bucket).placedFrom_sublist i 0).append (placed_sublist htake i bucket 0)

theorem Extends.leftFrom_sublist {m m' : ScopeMap} (h : Extends m m') (i : ScopeId)
    (bucket next : Nat) : (leftFrom i m bucket next).Sublist (leftFrom i m' bucket next) := by
  have hdrop : (m.entriesAt bucket).drop next <+: (m'.entriesAt bucket).drop next := by
    obtain ⟨more, hmore⟩ := h.entriesAt bucket
    rw [← hmore, List.drop_append]
    exact List.prefix_append _ _
  exact (placed_sublist hdrop i bucket next).append
    ((h.drop (bucket + 1)).placedFrom_sublist i (bucket + 1))

end ScopeMap

/-! ## §2. Passed and remaining. -/

namespace Store

open ScopeMap

/-- What a node sees and a walk over it has behind it; nothing before the first
step, and all of it when the walk is over. -/
def passed (s : Store) (n : NodeId) : Walk → List (Slot × Value)
  | .unstarted _ => []
  | .inside c scope _ bucket next =>
      ((s.chain n).takeWhile fun m => m != c).flatMap s.slotsHere
        ++ passedUpTo scope (s.scopes.read scope) bucket next
  | .finished => s.slots n

/-- What a walk has before it. -/
def remaining (s : Store) : Walk → List (Slot × Value)
  | .unstarted n => s.slots n
  | .inside c scope _ bucket next =>
      leftFrom scope (s.scopes.read scope) bucket next ++ (s.enclosing c).flatMap s.slotsHere
  | .finished => []

/-- The nodes whose scopes a walk has not begun. -/
def ahead (s : Store) : Walk → List NodeId
  | .unstarted n => s.chain n
  | .inside c _ _ _ _ => s.enclosing c
  | .finished => []

/-- A walk over a node is on its chain: not begun, or at one of the nodes and
inside the scope of that node, or over. -/
def OnChain (s : Store) (n : NodeId) : Walk → Prop
  | .unstarted m => m = n
  | .inside c scope _ _ _ => c ∈ s.chain n ∧ (s.node c).scope = scope
  | .finished => True

namespace Linked

variable {s : Store} (h : s.Linked)
include h

/-- A chain is divided by a node on it: the nodes before that one, the node, and
those that enclose it. -/
theorem chain_split {n c : NodeId} (hn : n < s.nodes.length) (hmem : c ∈ s.chain n) :
    s.chain n = (s.chain n).takeWhile (fun m => m != c) ++ c :: s.enclosing c := by
  obtain ⟨inner, path, -, -⟩ := h.exists_inner hn hmem
  have hsplit := h.chain_eq hn path
  have hinner : ∀ m ∈ inner, (m != c) = true := by
    intro m hm
    simpa using path.ne_of_mem_left hm
  have htake : (s.chain n).takeWhile (fun m => m != c) = inner := by
    rw [hsplit, List.takeWhile_append_of_pos hinner]
    simp
  rw [htake]
  exact hsplit

theorem enclosing_subset {n c : NodeId} (hn : n < s.nodes.length) (hmem : c ∈ s.chain n) :
    ∀ m ∈ s.enclosing c, m ∈ s.chain n := by
  intro m hm
  rw [h.chain_split hn hmem]
  exact List.mem_append_right _ (List.mem_cons_of_mem _ hm)

/-- No enclosing node is at the scope of the node itself. -/
theorem scope_ne_of_mem_enclosing {c : NodeId} (hc : c < s.nodes.length) :
    ∀ m ∈ s.enclosing c, (s.node m).scope ≠ (s.node c).scope := by
  have hview := h.view_nodup hc
  rw [h.view_eq_cons hc, List.nodup_cons] at hview
  intro m hm hscope
  exact hview.1 (List.mem_map.mpr ⟨m, hm, hscope⟩)

theorem ahead_subset {n : NodeId} (hn : n < s.nodes.length) {w : Walk} (on : s.OnChain n w) :
    ∀ m ∈ s.ahead w, m ∈ s.chain n := by
  cases w with
  | unstarted k =>
      obtain rfl : k = n := on
      exact fun m hm => hm
  | inside c i keys b nx => exact h.enclosing_subset hn on.1
  | finished =>
      intro m hm
      cases hm

/-- **Passed and remaining together are all that the node sees.** -/
theorem passed_append_remaining {n : NodeId} (hn : n < s.nodes.length) {w : Walk}
    (on : s.OnChain n w) : s.passed n w ++ s.remaining w = s.slots n := by
  cases w with
  | unstarted m =>
      obtain rfl : m = n := on
      rfl
  | finished => exact List.append_nil _
  | inside c i keys b nx =>
      obtain ⟨hmem, rfl⟩ := on
      have hscope := passedUpTo_append_leftFrom (s.node c).scope (s.here c) b nx
      rw [passed, remaining, List.append_assoc,
        ← List.append_assoc (passedUpTo _ _ _ _) (leftFrom _ _ _ _)]
      rw [show s.scopes.read (s.node c).scope = s.here c from rfl, hscope, slots]
      conv_rhs => rw [h.chain_split hn hmem, List.flatMap_append, List.flatMap_cons]
      rfl

end Linked

/-! ## §3. Steps. -/

/-- What opening the first of several nodes' scopes that has an entry comes to. -/
inductive Opening (s : Store) (nodes : List NodeId) : Walk × Option Value → Prop
  | found {c : NodeId} {bucket : Nat} {v : Value} (mem : c ∈ nodes)
      (left : nodes.flatMap s.slotsHere
        = (⟨(s.node c).scope, bucket, 0⟩, v)
          :: s.remaining (.inside c (s.node c).scope (s.here c).length bucket 1)) :
      Opening s nodes
        (.inside c (s.node c).scope (s.here c).length bucket 1, some v)
  | none (empty : nodes.flatMap s.slotsHere = []) : Opening s nodes (.finished, none)

/-- What a step of a walk does. -/
inductive StepEffect (s : Store) : Walk → Walk → Except Fault (Option Value) → Prop
  /-- It takes the next entry of the scope that the walk is inside. -/
  | goesOn {c : NodeId} {i : ScopeId} {keys bucket next bucket' next' : Nat} {v : Value}
      (left : s.remaining (.inside c i keys bucket next)
        = (⟨i, bucket', next'⟩, v) :: s.remaining (.inside c i keys bucket' (next' + 1))) :
      StepEffect s (.inside c i keys bucket next) (.inside c i keys bucket' (next' + 1))
        (.ok (some v))
  /-- It begins a scope further out, and takes its first entry. -/
  | begins {w : Walk} {c : NodeId} {bucket : Nat} {v : Value} (mem : c ∈ s.ahead w)
      (left : s.remaining w
        = (⟨(s.node c).scope, bucket, 0⟩, v)
          :: s.remaining (.inside c (s.node c).scope (s.here c).length bucket 1)) :
      StepEffect s w (.inside c (s.node c).scope (s.here c).length bucket 1) (.ok (some v))
  /-- It ends the walk, with nothing left. -/
  | ends {w : Walk} (left : s.remaining w = []) : StepEffect s w .finished (.ok none)
  /-- It fails: the bucket is used up, and the scope has more keys than it had. -/
  | fails {c : NodeId} {i : ScopeId} {keys bucket next : Nat}
      (usedUp : ((s.scopes.read i).entriesAt bucket)[next]? = none)
      (changed : (s.scopes.read i).length ≠ keys) :
      StepEffect s (.inside c i keys bucket next) .finished (.error .keysChanged)

/-- The nodes that enclose one are the chain of its parent, or none. -/
theorem Linked.enclosing_cases {s : Store} (h : s.Linked) {n : NodeId}
    (hn : n < s.nodes.length) :
    s.enclosing n = [] ∨ ∃ p, p < s.nodes.length ∧ s.enclosing n = s.chain p := by
  cases hp : (s.node n).parent with
  | none => exact .inl (enclosing_of_top hp)
  | some p => exact .inr ⟨p, h.parent_lt hn hp, enclosing_of_parent hp⟩

theorem Linked.opening {s : Store} (h : s.Linked) {nodes : List NodeId}
    (hnodes : nodes = [] ∨ ∃ n, n < s.nodes.length ∧ nodes = s.chain n) :
    Opening s nodes (s.openFirst nodes) := by
  induction nodes with
  | nil => exact .none rfl
  | cons c rest ih =>
      -- a chain begins with its node and goes on with those that enclose it
      rcases hnodes with hnil | ⟨n, hn, hchain⟩
      · cases hnil
      rw [h.chain_eq_cons hn] at hchain
      obtain ⟨rfl, rfl⟩ := List.cons.inj hchain
      rw [openFirst]
      split
      next bucket v hfirst =>
        refine .found List.mem_cons_self ?_
        have hleft : placedFrom (s.node c).scope 0 ((s.here c).drop 0)
            = (⟨(s.node c).scope, bucket, 0⟩, v)
              :: leftFrom (s.node c).scope (s.here c) bucket 1 :=
          placedFrom_of_firstEntryFrom_some (s.node c).scope hfirst
        rw [List.drop_zero] at hleft
        rw [List.flatMap_cons, slotsHere, hleft]
        rfl
      next hfirst =>
        have hempty : s.slotsHere c = [] := placedFrom_of_firstEntryFrom_none _ hfirst
        have further := ih (h.enclosing_cases hn)
        generalize s.openFirst (s.enclosing c) = opened at further ⊢
        cases further with
        | found mem left =>
            refine .found (List.mem_cons_of_mem _ mem) ?_
            rw [List.flatMap_cons, hempty]
            exact left
        | none empty =>
            refine .none ?_
            rw [List.flatMap_cons, hempty]
            exact empty

/-- **Every step takes the first entry that remains**, ends the walk where none
does, or fails. -/
theorem Linked.step_effect {s : Store} (h : s.Linked) {n : NodeId} (hn : n < s.nodes.length)
    {w : Walk} (on : s.OnChain n w) : StepEffect s w (s.step w).1 (s.step w).2 := by
  cases w with
  | finished => exact .ends rfl
  | unstarted m =>
      obtain rfl : m = n := on
      rw [step]
      generalize hopen : s.openFirst (s.chain m) = opened
      have opening := h.opening (.inr ⟨m, hn, rfl⟩)
      rw [hopen] at opening
      cases opening with
      | found mem left => exact .begins mem left
      | none empty => exact .ends empty
  | inside c i keys bucket next =>
      have hc : c < s.nodes.length := h.lt_of_mem hn (h.chain_path hn) c on.1
      have hnext : ((s.scopes.read i)[bucket]?.map Bucket.entries).bind (fun l => l[next]?)
          = ((s.scopes.read i).entriesAt bucket)[next]? := by
        rw [entriesAt]
        cases (s.scopes.read i)[bucket]? <;> rfl
      rw [step]
      simp only [hnext]
      split
      next v hv =>
        -- the bucket has another entry
        refine .goesOn ?_
        rw [remaining, leftFrom_eq_cons i hv]
        rfl
      next hv =>
        split
        next hchanged => exact .fails hv hchanged
        next =>
          split
          next bucket' v hfirst =>
            -- the scope has another bucket with an entry
            refine .goesOn ?_
            rw [remaining, leftFrom_of_usedUp i hv, placedFrom_of_firstEntryFrom_some i hfirst]
            rfl
          next hfirst =>
            -- the scope is used up, and what is left lies in the enclosing ones
            have hleft : s.remaining (.inside c i keys bucket next)
                = (s.enclosing c).flatMap s.slotsHere := by
              rw [remaining, leftFrom_of_usedUp i hv, placedFrom_of_firstEntryFrom_none i hfirst]
              rfl
            generalize hopen : s.openFirst (s.enclosing c) = opened
            have opening := h.opening (h.enclosing_cases hc)
            rw [hopen] at opening
            cases opening with
            | found mem left => exact .begins mem (hleft.trans left)
            | none empty => exact .ends (hleft.trans empty)

namespace StepEffect

variable {s : Store} {w w' : Walk}

/-- What a step yields is the first of what remained, and the walk stands at it
afterwards. -/
theorem remaining_of_some {v : Value} (effect : StepEffect s w w' (.ok (some v))) :
    s.remaining w = (w'.slot, v) :: s.remaining w' := by
  cases effect with
  | goesOn left => exact left
  | begins mem left => exact left

/-- A step that yields nothing has ended the walk, for nothing remained. -/
theorem remaining_of_none (effect : StepEffect s w w' (.ok none)) :
    s.remaining w = [] ∧ w' = .finished := by
  cases effect with
  | ends left => exact ⟨left, rfl⟩

/-- A step that fails has ended the walk, too. -/
theorem of_error {fault : Fault} (effect : StepEffect s w w' (.error fault)) :
    w' = .finished ∧ fault = .keysChanged
      ∧ ∃ c i keys bucket next, w = .inside c i keys bucket next
        ∧ ((s.scopes.read i).entriesAt bucket)[next]? = none
        ∧ (s.scopes.read i).length ≠ keys := by
  cases effect with
  | fails usedUp changed => exact ⟨rfl, rfl, _, _, _, _, _, rfl, usedUp, changed⟩

/-- A step that leaves the walk inside a scope has gone on there, or has begun
that scope. -/
theorem of_inside {c : NodeId} {i : ScopeId} {keys bucket next : Nat}
    {found : Except Fault (Option Value)}
    (effect : StepEffect s w (.inside c i keys bucket next) found) :
    (∃ bucket' next', w = .inside c i keys bucket' next')
      ∨ c ∈ s.ahead w ∧ (s.node c).scope = i ∧ keys = (s.scopes.read i).length := by
  cases effect with
  | goesOn left => exact .inl ⟨_, _, rfl⟩
  | begins mem left => exact .inr ⟨mem, rfl, rfl⟩

/-- A walk on a chain stays on it. -/
theorem onChain (h : s.Linked) {n : NodeId} (hn : n < s.nodes.length)
    {found : Except Fault (Option Value)} (effect : StepEffect s w w' found)
    (on : s.OnChain n w) : s.OnChain n w' := by
  cases effect with
  | goesOn left => exact on
  | begins mem left => exact ⟨h.ahead_subset hn on _ mem, rfl⟩
  | ends left => trivial
  | fails usedUp changed => trivial

end StepEffect

/-- A step that needs another bucket of a scope with new keys fails. -/
theorem step_of_changed {s : Store} {c : NodeId} {i : ScopeId} {keys bucket next : Nat}
    (usedUp : ((s.scopes.read i).entriesAt bucket)[next]? = none)
    (changed : (s.scopes.read i).length ≠ keys) :
    s.step (.inside c i keys bucket next) = (.finished, .error .keysChanged) := by
  have hnext : ((s.scopes.read i)[bucket]?.map Bucket.entries).bind (fun l => l[next]?) = none := by
    rw [entriesAt] at usedUp
    cases hb : (s.scopes.read i)[bucket]? with
    | none => rfl
    | some b =>
        rw [hb] at usedUp
        exact usedUp
  simp only [step, hnext, if_pos changed]

/-! ## §4. Growing stores. -/

/-- What a node sees at its scope is there later, if the node has not moved. -/
theorem Grows.slotsHere_sublist {s t : Store} (grows : Grows s t) {m : NodeId}
    (keeps : KeepsPlace s t m) : (s.slotsHere m).Sublist (t.slotsHere m) := by
  rw [slotsHere, slotsHere, here, here, keeps.scope]
  exact (grows.entries _).placedFrom_sublist _ 0

/-- A store some time later, with a chain left in its place. -/
structure ChainStays (s t : Store) (n : NodeId) : Prop where
  grows : Grows s t
  chain : t.chain n = s.chain n
  keeps : ∀ m ∈ s.chain n, KeepsPlace s t m

/-- **What moves no node of a chain leaves the chain in its place.** -/
theorem Linked.chainStays_act {s : Store} (h : s.Linked) {a : Action} (admitted : s.Admits a)
    {n : NodeId} (hn : n < s.nodes.length) (spared : ∀ m ∈ s.chain n, s.moves a ≠ some m) :
    ChainStays s (s.act a).store n := by
  have change := act_change admitted
  have keeps : ∀ m ∈ s.chain n, KeepsPlace s (s.act a).store m :=
    fun m hm => keepsPlace_act admitted (h.lt_of_mem hn (h.chain_path hn) m hm) (spared m hm)
  have hnt := Nat.lt_of_lt_of_le hn change.nodes_length_le
  exact ⟨(act_entriesEffect s a).grows, h.chain_of_keepsPlace (change.linked h) hn hnt keeps, keeps⟩

namespace ChainStays

variable {s t : Store} {n : NodeId} (stays : ChainStays s t n)
include stays

theorem trans {u : Store} (stays' : ChainStays t u n) : ChainStays s u n := by
  refine ⟨stays.grows.trans stays'.grows, stays'.chain.trans stays.chain, ?_⟩
  intro m hm
  exact (stays.keeps m hm).trans (stays'.keeps m (stays.chain ▸ hm))

/-- A walk on the chain stays on it. -/
theorem onChain {w : Walk} (on : s.OnChain n w) : t.OnChain n w := by
  cases w with
  | unstarted m => exact on
  | finished => trivial
  | inside c i keys bucket next =>
      refine ⟨?_, (stays.keeps c on.1).scope.trans on.2⟩
      rw [stays.chain]
      exact on.1

/-- The nodes that enclose one on the chain still do. -/
theorem enclosing (h : s.Linked) (ht : t.Linked) (hn : n < s.nodes.length)
    (hnt : n < t.nodes.length) {c : NodeId} (hmem : c ∈ s.chain n) :
    t.enclosing c = s.enclosing c := by
  have hsplit := h.chain_split hn hmem
  have hsplit' := ht.chain_split hnt (stays.chain.symm ▸ hmem)
  rw [stays.chain] at hsplit'
  exact (List.cons.inj (List.append_cancel_left (hsplit'.symm.trans hsplit))).2

theorem slots_sublist : (s.slots n).Sublist (t.slots n) := by
  rw [slots, slots, stays.chain]
  exact List.Sublist.flatMap_right _ fun m hm =>
    stays.grows.slotsHere_sublist (stays.keeps m hm)

/-- **What a walk has passed it has passed later**, with what was filed there
since. -/
theorem passed_sublist (w : Walk) : (s.passed n w).Sublist (t.passed n w) := by
  cases w with
  | unstarted m => exact .slnil
  | finished => exact stays.slots_sublist
  | inside c i keys bucket next =>
      rw [passed, passed, stays.chain]
      refine List.Sublist.append ?_ ((stays.grows.entries i).passedUpTo_sublist i bucket next)
      exact List.Sublist.flatMap_right _ fun m hm => stays.grows.slotsHere_sublist
        (stays.keeps m (List.takeWhile_prefix _ |>.subset hm))

/-- **What remains of a walk remains later.** -/
theorem remaining_sublist (h : s.Linked) (ht : t.Linked) (hn : n < s.nodes.length)
    (hnt : n < t.nodes.length) {w : Walk} (on : s.OnChain n w) :
    (s.remaining w).Sublist (t.remaining w) := by
  cases w with
  | unstarted m =>
      obtain rfl : m = n := on
      exact stays.slots_sublist
  | finished => exact .slnil
  | inside c i keys bucket next =>
      rw [remaining, remaining, stays.enclosing h ht hn hnt on.1]
      refine List.Sublist.append ((stays.grows.entries i).leftFrom_sublist i bucket next) ?_
      exact List.Sublist.flatMap_right _ fun m hm => stays.grows.slotsHere_sublist
        (stays.keeps m (h.enclosing_subset hn on.1 m hm))

end ChainStays

end Store

end ScopeChain
