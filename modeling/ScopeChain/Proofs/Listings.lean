/-
  ScopeChain.Proofs.Listings
  ──────────────────────────
  **LOOKUPS AND LISTINGS TELL ONE STORY.**

  A listing goes through the scopes of a chain bucket by bucket; a lookup picks
  one bucket of one of these scopes.  So whatever a lookup finds is a part of the
  listing, one unbroken stretch of it where nothing is filtered out, and the
  listing is what the lookups find, node by node and key by key.

      KeysApart.placedFrom_eq_flatMap_keys
                             — a scope is its buckets, key by key
      Linked.foundWithin_sublist_slots, Linked.foundWithin_infix_slots
                             — lookups among all that a node sees
      slots_eq_flatMap_keys  — all of it, node by node and key by key
      Linked.drained_eq      — a walk over a store at rest
      lookups_agree_with_listings

  The entries of a stretch are told apart by their slots: a value may be listed
  more than once.
-/
import Mathlib.Data.List.Basic
import ScopeChain.Proofs.SuspendedWalks
import ScopeChain.Proofs.Visibility

namespace ScopeChain

/-! ## §1. The buckets of a scope. -/

namespace ScopeMap

/-- **A scope is what is found under its keys**, key by key. -/
theorem KeysApart.placedFrom_eq_flatMap_keys {objs : Objects} {m : ScopeMap}
    (h : m.KeysApart objs) (i : ScopeId) (number : Nat) :
    placedFrom i number m = m.keys.flatMap (placedUnder objs i number m) := by
  induction m generalizing number with
  | nil => rfl
  | cons b rest ih =>
      unfold KeysApart at h
      rw [keys, List.map_cons, List.pairwise_cons] at h
      obtain ⟨apart, others⟩ := h
      have first : placedUnder objs i number (b :: rest) b.key = placed i number 0 b.entries := by
        rw [placedUnder, if_pos (Objects.same_refl objs b.key)]
      -- the other keys pass the first bucket by
      have later : ∀ k ∈ keys rest,
          placedUnder objs i number (b :: rest) k = placedUnder objs i (number + 1) rest k := by
        intro k hk
        rw [placedUnder, if_neg (by rw [apart k hk]; exact Bool.false_ne_true)]
      rw [placedFrom, keys, List.map_cons, List.flatMap_cons, first, ih others]
      exact congrArg _ (List.flatMap_congr later).symm

end ScopeMap

namespace Store

open ScopeMap

variable {s : Store} {n : NodeId}

/-! ## §2. What lookups find, in what a node sees. -/

theorem foundAt_sublist (s : Store) (k : Value) (f : Filter) (i : ScopeId) :
    (s.foundAt k f i).Sublist (placedFrom i 0 (s.scopes.read i)) :=
  List.filter_sublist.trans (placedUnder_sublist s.objects i 0 _ k)

theorem foundAt_all (s : Store) (k : Value) (i : ScopeId) :
    s.foundAt k .all i = placedUnder s.objects i 0 (s.scopes.read i) k :=
  List.filter_eq_self.mpr fun e _ => Filter.accepts_all s.objects e.2

/-- What a node sees, scope by scope. -/
theorem slots_eq_flatten (s : Store) (n : NodeId) :
    s.slots n = ((s.view n).map fun i => placedFrom i 0 (s.scopes.read i)).flatten := by
  rw [view, List.map_map]
  rfl

theorem placedFrom_infix_slots {i : ScopeId} (hi : i ∈ s.view n) :
    placedFrom i 0 (s.scopes.read i) <:+: s.slots n := by
  rw [slots_eq_flatten]
  exact List.infix_of_mem_flatten
    (List.mem_map_of_mem (f := fun i => placedFrom i 0 (s.scopes.read i)) hi)

/-- A lookup finds nothing, or what one of the scopes in view has. -/
theorem Linked.foundWithin_cases (h : s.Linked) (hn : n < s.nodes.length) (k : Value)
    (f : Filter) (reach : Reach) :
    s.foundWithin n k f reach = []
      ∨ ∃ i ∈ s.view n, s.foundWithin n k f reach = s.foundAt k f i := by
  cases reach with
  | current => exact .inr ⟨_, h.targetScope_mem_view hn .current, rfl⟩
  | outermost => exact .inr ⟨_, h.targetScope_mem_view hn .outermost, rfl⟩
  | chain =>
      rcases firstNonempty_mem_or_nil ((s.view n).map (s.foundAt k f)) with hmem | hnil
      · obtain ⟨i, hi, hfound⟩ := List.mem_map.mp hmem
        exact .inr ⟨i, hi, hfound.symm⟩
      · exact .inl hnil

/-- **What a lookup finds is among what the node sees**, in the same order. -/
theorem Linked.foundWithin_sublist_slots (h : s.Linked) (hn : n < s.nodes.length) (k : Value)
    (f : Filter) (reach : Reach) : (s.foundWithin n k f reach).Sublist (s.slots n) := by
  rcases h.foundWithin_cases hn k f reach with hnil | ⟨i, hi, hfound⟩
  · rw [hnil]
    exact List.nil_sublist _
  · rw [hfound]
    exact (s.foundAt_sublist k f i).trans (placedFrom_infix_slots hi).sublist

/-- **Without a filter it is one stretch of that.** -/
theorem Linked.foundWithin_infix_slots (h : s.Linked) (hn : n < s.nodes.length) (k : Value)
    (reach : Reach) : s.foundWithin n k .all reach <:+: s.slots n := by
  rcases h.foundWithin_cases hn k .all reach with hnil | ⟨i, hi, hfound⟩
  · rw [hnil]
    exact List.nil_infix
  · rw [hfound, foundAt_all]
    exact (placedUnder_infix_placedFrom s.objects i 0 _ k).trans (placedFrom_infix_slots hi)

theorem lookup_eq_ok {reach : Reach} {key : Value} {f : Filter} {found : List Value}
    (h : s.lookup n reach key f = .ok found) : ∃ k, found = s.matchesWithin n k f reach := by
  unfold lookup at h
  cases ha : s.addressAt n key with
  | error fault =>
      rw [ha] at h
      cases h
  | ok k =>
      rw [ha] at h
      exact ⟨k, (Except.ok.inj h).symm⟩

/-! ## §3. What a node sees, key by key. -/

/-- **All that a node sees**, node by node and key by key. -/
theorem slots_eq_flatMap_keys (keyed : s.Keyed) (n : NodeId) :
    s.slots n = (s.chain n).flatMap fun m =>
      (s.here m).keys.flatMap fun k => s.foundWithin m k .all .current := by
  refine List.flatMap_congr fun m _ => ?_
  refine ((keyed (s.node m).scope).placedFrom_eq_flatMap_keys (s.node m).scope 0).trans ?_
  exact List.flatMap_congr fun k _ => (s.foundAt_all k (s.node m).scope).symm

/-- Nodes on a chain see nothing that its node does not see. -/
theorem Linked.slots_subset (h : s.Linked) (hn : n < s.nodes.length) {m : NodeId}
    (hm : m ∈ s.chain n) : ∀ e ∈ s.slots m, e ∈ s.slots n := by
  intro e he
  obtain ⟨c, hc, hhere⟩ := List.mem_flatMap.mp he
  exact List.mem_flatMap.mpr ⟨c, h.chain_subset hn hm c hc, hhere⟩

/-- An unfiltered lookup of a string, from a node of a chain and within some reach, finds the
entry at a slot. -/
def FoundAlong (s : Store) (n : NodeId) (e : Slot × Value) : Prop :=
  ∃ m ∈ s.chain n, ∃ key reach, (s.objects.text? key).isSome
    ∧ s.lookup m reach key .all = .ok ((s.foundWithin m key .all reach).map Prod.snd)
    ∧ e ∈ s.foundWithin m key .all reach

/-- **Lookups along a chain find what its node sees**, where all keys are strings. -/
theorem Linked.mem_slots_iff_foundAlong (h : s.Linked) (keyed : s.Keyed)
    (hn : n < s.nodes.length)
    (strings : ∀ m ∈ s.chain n, ∀ key ∈ (s.here m).keys, (s.objects.text? key).isSome)
    (e : Slot × Value) : e ∈ s.slots n ↔ s.FoundAlong n e := by
  constructor
  · intro he
    rw [slots_eq_flatMap_keys keyed] at he
    obtain ⟨m, hm, hkeys⟩ := List.mem_flatMap.mp he
    obtain ⟨key, hkey, hfound⟩ := List.mem_flatMap.mp hkeys
    refine ⟨m, hm, key, .current, strings m hm key hkey, ?_, hfound⟩
    rw [lookup_of_string (strings m hm key hkey), foundWithin_map_snd]
  · rintro ⟨m, hm, key, reach, -, -, hfound⟩
    have hlt := h.lt_of_mem hn (h.chain_path hn) m hm
    exact h.slots_subset hn hm e ((h.foundWithin_sublist_slots hlt key .all reach).subset hfound)

/-! ## §4. A walk over a store at rest. -/

/-- The scope that a walk is inside has as many keys as when the walk began it. -/
def KeysAsBegun (s : Store) : Walk → Prop
  | .inside _ i keys _ _ => (s.scopes.read i).length = keys
  | .unstarted _ => True
  | .finished => True

/-- A step takes the first entry that remains, or ends the walk. -/
theorem StepEffect.of_keysAsBegun {w w' : Walk} {found : Except Fault (Option Value)}
    (effect : StepEffect s w w' found) (begun : s.KeysAsBegun w) :
    (∃ v, found = .ok (some v) ∧ s.remaining w = (w'.slot, v) :: s.remaining w'
        ∧ s.KeysAsBegun w')
      ∨ found = .ok none ∧ s.remaining w = [] := by
  cases effect with
  | goesOn left => exact .inl ⟨_, rfl, left, begun⟩
  | begins mem left => exact .inl ⟨_, rfl, left, rfl⟩
  | ends left => exact .inr ⟨rfl, left⟩
  | fails usedUp changed => exact absurd begun changed

/-- **A walk over a store at rest yields what remains**, and ends. -/
theorem Linked.drained_eq (h : s.Linked) (hn : n < s.nodes.length) {w : Walk}
    (on : s.OnChain n w) (begun : s.KeysAsBegun w) {left : List (Slot × Value)}
    (hleft : s.remaining w = left) :
    s.drained (left.length + 1) w = left.map (fun e => .ok (some e.2)) ++ [.ok none] := by
  -- on what remains: each step takes one entry of it, and none fails, for no scope changes
  induction left generalizing w with
  | nil =>
      rcases (h.step_effect hn on).of_keysAsBegun begun with ⟨v, -, hremaining, -⟩ | ⟨hended, -⟩
      · rw [hleft] at hremaining
        cases hremaining
      · show [(s.step w).2] = _
        rw [hended]
        rfl
  | cons e rest ih =>
      have effect := h.step_effect hn on
      rcases effect.of_keysAsBegun begun with ⟨v, hfound, hremaining, begun'⟩ | ⟨-, hnil⟩
      · obtain ⟨rfl, hrest⟩ := List.cons.inj (hleft.symm.trans hremaining)
        have others := ih (effect.onChain h hn on) begun' hrest.symm
        show (s.step w).2 :: s.drained (rest.length + 1) (s.step w).1 = _
        rw [hfound, others]
        rfl
      · rw [hleft] at hnil
        cases hnil

/-! ## §5. Lookups and listings. -/

/-- **Lookups agree with listings.**  In a reachable store, at any node:

The chain goes from the node to its parent, and so on outwards.  A lookup of a string
along the chain comes to the first answer that is not empty of the lookups in the current
scopes of these nodes, whatever their key functions and policies, and to nothing if all
are empty.

Whatever a lookup of any key finds, within any reach, is a part of the listing in its
order, and one stretch of it where nothing is filtered out.

If the keys of all scopes along the chain are strings, the listing is what the lookups
without a filter find in the current scope of each node of the chain, from the node
outwards, under each key of that scope, in the order of the keys.  So the listing has
each entry that such lookups find from a node of the chain, within any reach, and has it
once, slot by slot, and has no other.

And iteration yields the listing, entry by entry, and then ends. -/
theorem lookups_agree_with_listings (hs : s.Reachable) (hn : n < s.nodes.length) :
    s.Path n (s.chain n)
      ∧ (∀ key f, (s.objects.text? key).isSome →
          ∃ answer : NodeId → List Value,
            (∀ m, s.lookup m .current key f = .ok (answer m))
              ∧ s.lookup n .chain key f
                  = .ok ((((s.chain n).map answer).find? fun found => !found.isEmpty).getD []))
      ∧ (∀ reach key f found, s.lookup n reach key f = .ok found →
          found.Sublist (s.visible n) ∧ (f = .all → found <:+: s.visible n))
      ∧ ((∀ m ∈ s.chain n, ∀ key ∈ (s.here m).keys, (s.objects.text? key).isSome) →
          (∃ answer : NodeId → Value → List Value,
            (∀ m ∈ s.chain n, ∀ key ∈ (s.here m).keys,
                s.lookup m .current key .all = .ok (answer m key))
              ∧ s.visible n = (s.chain n).flatMap fun m => (s.here m).keys.flatMap (answer m))
            ∧ (∀ e, e ∈ s.slots n ↔ s.FoundAlong n e)
            ∧ ((s.slots n).map Prod.fst).Nodup ∧ (s.slots n).map Prod.snd = s.visible n)
      ∧ s.drained ((s.visible n).length + 1) (.unstarted n)
          = (s.visible n).map (fun v => .ok (some v)) ++ [.ok none] := by
  have linked := hs.linked
  refine ⟨linked.chain_path hn, ?_, ?_, ?_, ?_⟩
  · intro key f string
    refine ⟨s.matchesHere key f, fun m => lookup_of_string string m .current f, ?_⟩
    rw [lookup_of_string string, matchesWithin, firstNonempty_eq_find?]
  · intro reach key f found hfound
    obtain ⟨k, rfl⟩ := lookup_eq_ok hfound
    rw [← foundWithin_map_snd, ← slots_map_snd]
    refine ⟨(linked.foundWithin_sublist_slots hn k f reach).map Prod.snd, ?_⟩
    rintro rfl
    exact (linked.foundWithin_infix_slots hn k reach).map Prod.snd
  · intro strings
    refine ⟨⟨fun m key => s.matchesWithin m key .all .current, ?_, ?_⟩,
      linked.mem_slots_iff_foundAlong hs.keyed hn strings, linked.slots_nodup hn,
      s.slots_map_snd n⟩
    · intro m hm key hkey
      exact lookup_of_string (strings m hm key hkey) m .current .all
    · rw [← slots_map_snd, slots_eq_flatMap_keys hs.keyed, List.map_flatMap]
      refine List.flatMap_congr fun m _ => ?_
      rw [List.map_flatMap]
      exact List.flatMap_congr fun key _ => foundWithin_map_snd s m key .all .current
  · have hdrained := linked.drained_eq (w := .unstarted n) hn rfl trivial rfl
    rw [show s.remaining (.unstarted n) = s.slots n from rfl] at hdrained
    rw [← slots_map_snd, List.length_map, List.map_map]
    exact hdrained

/-- What files one name in each of two scopes. -/
def shadowing : List Action :=
  [.create KeyFunction.byDefault (.bool true),
    .call 0 (.insert .current (.str "x") (.str "outer")), .call 0 .enter,
    .call 0 (.insert .current (.str "x") (.str "inner"))]

def shadowingStore : Store :=
  shadowing.foldl (fun s a => (s.act a).store) (.empty [] false)

theorem shadowingStore_reachable : shadowingStore.Reachable := by
  refine ⟨[], false, shadowing, ?_⟩
  have first : (0 : Nat) < 1 := by decide
  have second : (0 : Nat) < 2 := by decide
  exact .cons trivial (.cons first (.cons first (.cons second (.nil _))))

/-- The lookup finds the inner of the two, the listing has both, and the outer one is found
from the outer node. -/
theorem lookups_agree_with_listings_shadowed :
    shadowingStore.Reachable ∧ 0 < shadowingStore.nodes.length
      ∧ shadowingStore.lookup 0 .chain (.str "x") .all = .ok [.str "inner"]
      ∧ shadowingStore.visible 0 = [.str "inner", .str "outer"]
      ∧ [Value.str "inner"] <:+: shadowingStore.visible 0
      ∧ shadowingStore.FoundAlong 0 (⟨0, 0, 0⟩, .str "outer")
      ∧ shadowingStore.drained 3 (.unstarted 0)
          = [.ok (some (.str "inner")), .ok (some (.str "outer")), .ok none] := by
  have hn : 0 < shadowingStore.nodes.length := by decide
  have found : shadowingStore.lookup 0 .chain (.str "x") .all = .ok [.str "inner"] := rfl
  have listed : shadowingStore.visible 0 = [.str "inner", .str "outer"] := rfl
  have strings : ∀ m ∈ shadowingStore.chain 0, ∀ key ∈ (shadowingStore.here m).keys,
      (shadowingStore.objects.text? key).isSome := by
    have chain : shadowingStore.chain 0 = [0, 1] := rfl
    have inner : (shadowingStore.here 0).keys = [.str "x"] := rfl
    have outer : (shadowingStore.here 1).keys = [.str "x"] := rfl
    simp [chain, inner, outer, Objects.text?]
  have seen : (⟨0, 0, 0⟩, .str "outer") ∈ shadowingStore.slots 0 := by
    have slots : shadowingStore.slots 0
        = [(⟨1, 0, 0⟩, .str "inner"), (⟨0, 0, 0⟩, .str "outer")] := rfl
    simp [slots]
  obtain ⟨-, -, parts, keyed, walked⟩ := lookups_agree_with_listings shadowingStore_reachable hn
  rw [listed] at walked
  exact ⟨shadowingStore_reachable, hn, found, listed, (parts _ _ _ _ found).2 rfl,
    ((keyed strings).2.1 _).mp seen, walked⟩

end Store

end ScopeChain
