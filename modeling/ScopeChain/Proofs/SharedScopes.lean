/-
  ScopeChain.Proofs.SharedScopes
  ──────────────────────────────
  **NODES AT ONE SCOPE, AND THE SCOPE THAT ALL OF A CHAIN SHARE.**

  Callers hold nodes, but what they see are scopes.  Two nodes at one scope see
  the same: they have the same parent, so every lookup of a string, whatever
  its reach, and every iteration come out alike.  And the outermost scope that
  a node has cached is the scope of the node where its chain ends, so that a
  global lookup is a local one there, and a global insertion goes there.

      addressAt_of_string, lookup_of_string
                             — strings are looked up as they are
      matchesWithin_congr    — one scope, the same matches
      outermost_is_chain_end — the cached outermost scope
      scope_settles_view     — nodes at one scope

  Both statements are about every reachable store: any number of tables, every
  operation on every node, parents of tables and of their parents included.
-/
import ScopeChain.Proofs.Linking

namespace ScopeChain

namespace Store

/-! ## §1. What a node sees is settled by its scope. -/

/-- A string is its own address, whatever the key function of the node. -/
theorem addressAt_of_string {s : Store} {key : Value} (string : (s.objects.text? key).isSome)
    (n : NodeId) : s.addressAt n key = .ok key := by
  obtain ⟨text, htext⟩ := Option.isSome_iff_exists.mp string
  exact Objects.addressOf_of_text? _ htext

/-- So it is looked up as it is. -/
theorem lookup_of_string {s : Store} {key : Value} (string : (s.objects.text? key).isSome)
    (n : NodeId) (reach : Reach) (f : Filter) :
    s.lookup n reach key f = .ok (s.matchesWithin n key f reach) := by
  rw [lookup, addressAt_of_string string]

/-- The same of a string whose text is known. -/
theorem lookup_of_text? {s : Store} {key : Value} {text : String}
    (htext : s.objects.text? key = some text) (n : NodeId) (reach : Reach) (f : Filter) :
    s.lookup n reach key f = .ok (s.matchesWithin n key f reach) :=
  lookup_of_string (Option.isSome_of_eq_some htext) n reach f

/-- A string is in a table where something is found under it. -/
theorem contains_of_text? {s : Store} {key : Value} {text : String}
    (htext : s.objects.text? key = some text) (n : NodeId) :
    s.contains n key = .ok (!(s.matchesWithin n key .all .chain).isEmpty) := by
  rw [contains, lookup_of_text? htext]

/-- Nodes at one scope have the same entries at hand. -/
theorem here_congr {s : Store} {n m : NodeId}
    (hscope : (s.node n).scope = (s.node m).scope) : s.here n = s.here m := by
  rw [here, here, hscope]

theorem matchesHere_congr {s : Store} {n m : NodeId}
    (hscope : (s.node n).scope = (s.node m).scope) (k : Value) (f : Filter) :
    s.matchesHere k f n = s.matchesHere k f m := by
  rw [matchesHere, matchesHere, here_congr hscope]

/-- **Nodes at one scope find the same**, within every reach. -/
theorem Linked.matchesWithin_congr {s : Store} (h : s.Linked) {n m : NodeId}
    (hn : n < s.nodes.length) (hm : m < s.nodes.length)
    (hscope : (s.node n).scope = (s.node m).scope) (k : Value) (f : Filter) (reach : Reach) :
    s.matchesWithin n k f reach = s.matchesWithin m k f reach := by
  cases reach with
  | current => exact matchesHere_congr hscope k f
  | chain =>
      simp only [matchesWithin]
      rw [h.chain_eq_cons hn, h.chain_eq_cons hm, h.enclosing_congr hn hm hscope,
        List.map_cons, List.map_cons, matchesHere_congr hscope]
  | outermost =>
      simp only [matchesWithin]
      rw [h.root_congr hn hm hscope]

/-- Nodes at one scope see the same entries. -/
theorem Linked.visible_congr {s : Store} (h : s.Linked) {n m : NodeId}
    (hn : n < s.nodes.length) (hm : m < s.nodes.length)
    (hscope : (s.node n).scope = (s.node m).scope) : s.visible n = s.visible m := by
  rw [visible, visible, h.chain_eq_cons hn, h.chain_eq_cons hm,
    h.enclosing_congr hn hm hscope, List.flatMap_cons, List.flatMap_cons, here_congr hscope]

/-- An insertion decides by, and files in, the scope that it is to go to. -/
theorem filing_clash {s : Store} {n : NodeId} {target : Target} {key value : Value}
    {f : Filing} (h : s.filing n target key value = .ok f) :
    f.clash = clash? s.objects (s.allowsDuplicates n)
      ((s.scopes.read (s.targetScope n target)).bucket s.objects f.key) f.symbol := by
  unfold filing at h
  split at h
  next => cases h
  next k _ =>
    injection h with h
    subst h
    rfl

/-! ## §2. The outermost scope. -/

/-- **The outermost scope is where the chain ends.**  From every node the parent
links end, at a node without parent; the scope of that node is the outermost
scope of every node on the way.  So a string is found globally exactly as it is
found locally there, and an insertion into the outermost scope is decided by
that node's entries and goes among them. -/
theorem outermost_is_chain_end {s : Store} (hs : s.Reachable) {n : NodeId}
    (hn : n < s.nodes.length) :
    s.Path n (s.chain n)
      ∧ ∃ top, (s.chain n).getLast? = some top ∧ (s.node top).parent = none
        ∧ (∀ m ∈ s.chain n, (s.node m).root = (s.node top).scope)
        ∧ (∀ key text f, s.objects.text? key = some text →
            s.lookup n .outermost key f = s.lookup top .current key f)
        ∧ ∀ key value f, s.filing n .outermost key value = .ok f →
            f.clash = clash? s.objects (s.allowsDuplicates n)
                ((s.here top).bucket s.objects f.key) f.symbol
              ∧ (s.insert n .outermost key value).store
                  = if f.clash.isSome then s
                    else s.file (s.node top).scope f.key f.symbol := by
  have h := hs.linked
  have path := h.chain_path hn
  obtain ⟨inner, top, hl, htop⟩ := path.exists_top
  have hroot : (s.node n).root = (s.node top).scope := (h.scope_top hn (hl ▸ path)).symm
  refine ⟨path, top, ?_, htop, ?_, ?_, ?_⟩
  · rw [hl, List.getLast?_concat]
  · intro m hm
    rw [h.root_of_mem hn path m hm, hroot]
  · intro key text f htext
    rw [lookup_of_text? htext, lookup_of_text? htext]
    simp only [matchesWithin, matchesHere, here, hroot]
  · -- global insertions go to the cached scope, which is the one `top` is at
    intro key value f hf
    have htarget : s.targetScope n .outermost = (s.node top).scope := hroot
    refine ⟨?_, ?_⟩
    · rw [filing_clash hf, htarget, here]
    · cases hc : f.clash with
      | some existing => exact insert_store_of_clash hf hc
      | none =>
          rw [insert_store_of_accepted hf hc, htarget]
          rfl

/-- A table entered a scope, and then its parent entered one itself: the chain of
the table passes the scope of the parent before it ends. -/
def splicedStore : Store :=
  (((Store.empty [] false).create KeyFunction.byDefault (.bool true)).enter 0).enter 1

/-- One table, an enter of it and an enter of its parent lead there. -/
theorem splicedStore_reachable : splicedStore.Reachable := by
  refine ⟨[], false, [.create KeyFunction.byDefault (.bool true), .call 0 .enter,
    .call 1 .enter], ?_⟩
  have first : (0 : Nat) < 1 := by decide
  have second : (1 : Nat) < 2 := by decide
  exact .cons trivial (.cons first (.cons second (.nil _)))

theorem outermost_is_chain_end_spliced :
    splicedStore.Reachable ∧ 0 < splicedStore.nodes.length
      ∧ ∃ top, (splicedStore.chain 0).getLast? = some top
        ∧ ∀ m ∈ splicedStore.chain 0, (splicedStore.node m).root = (splicedStore.node top).scope := by
  have hn : 0 < splicedStore.nodes.length := by decide
  obtain ⟨-, top, hlast, -, hroot, -⟩ := outermost_is_chain_end splicedStore_reachable hn
  exact ⟨splicedStore_reachable, hn, top, hlast, hroot⟩

/-! ## §3. Nodes at one scope. -/

/-- **A scope settles the chain around it.**  Nodes at one scope have the same
parent, answer every lookup of a string, within every reach and under every
filter, alike, list the same entries and are global alike.  And a node is
global exactly when the scope it is at is its outermost one, that is, when
local and global insertions go to one scope. -/
theorem scope_settles_view {s : Store} (hs : s.Reachable) {n : NodeId}
    (hn : n < s.nodes.length) :
    (∀ m, m < s.nodes.length → (s.node n).scope = (s.node m).scope →
        (s.node n).parent = (s.node m).parent
        ∧ (∀ reach key text f, s.objects.text? key = some text →
            s.lookup n reach key f = s.lookup m reach key f)
        ∧ (∀ key text, s.objects.text? key = some text → s.contains n key = s.contains m key)
        ∧ s.visible n = s.visible m
        ∧ (s.perform n .isGlobal).outcome = (s.perform m .isGlobal).outcome)
      ∧ ((s.perform n .isGlobal).outcome = .ok (.flag true)
          ↔ (s.node n).scope = (s.node n).root)
      ∧ ((s.perform n .isGlobal).outcome = .ok (.flag true)
          ↔ s.targetScope n .current = s.targetScope n .outermost) := by
  have h := hs.linked
  have hglobal : (s.perform n .isGlobal).outcome = .ok (.flag true)
      ↔ (s.node n).scope = (s.node n).root := by
    rw [← h.parent_eq_none_iff hn]
    simp [perform]
  refine ⟨?_, hglobal, hglobal⟩
  intro m hm hscope
  have hparent := h.same_parent hn hm hscope
  refine ⟨hparent, ?_, ?_, h.visible_congr hn hm hscope, ?_⟩
  · intro reach key text f htext
    rw [lookup_of_text? htext, lookup_of_text? htext, h.matchesWithin_congr hn hm hscope]
  · intro key text htext
    rw [contains_of_text? htext, contains_of_text? htext, h.matchesWithin_congr hn hm hscope]
  · simp only [perform, hparent]

/-- A table entered a scope, left it and entered another: the nodes made by the two
entries are different ones at the outermost scope. -/
def reenteredStore : Store :=
  ((((Store.empty [] false).create KeyFunction.byDefault (.bool true)).enter 0).rejoin 0 1).enter 0

theorem reenteredStore_reachable : reenteredStore.Reachable := by
  refine ⟨[], false, [.create KeyFunction.byDefault (.bool true), .call 0 .enter,
    .call 0 .leave, .call 0 .enter], ?_⟩
  have first : (0 : Nat) < 1 := by decide
  have second : (0 : Nat) < 2 := by decide
  exact .cons trivial (.cons first (.cons second (.cons second (.nil _))))

theorem scope_settles_view_reentered :
    reenteredStore.Reachable ∧ 1 < reenteredStore.nodes.length
      ∧ 2 < reenteredStore.nodes.length
      ∧ (reenteredStore.node 1).scope = (reenteredStore.node 2).scope
      ∧ (reenteredStore.node 1).parent = (reenteredStore.node 2).parent
      ∧ reenteredStore.visible 1 = reenteredStore.visible 2 := by
  have hn : 1 < reenteredStore.nodes.length := by decide
  have hm : 2 < reenteredStore.nodes.length := by decide
  have hscope : (reenteredStore.node 1).scope = (reenteredStore.node 2).scope := rfl
  obtain ⟨hparent, -, -, hvisible, -⟩ :=
    (scope_settles_view reenteredStore_reachable hn).1 2 hm hscope
  exact ⟨reenteredStore_reachable, hn, hm, hscope, hparent, hvisible⟩

end Store

end ScopeChain
