/-
  ScopeChain.Proofs.Visibility
  ────────────────────────────
  **WHO SEES AN INSERTION.**

  An accepted insertion files one entry in one scope, and nodes all over the
  store may have that scope in view.  A lookup sees the new entry if it looks
  for the key, wants the entry, and gets to the scope: along a chain it gets no
  further than the first scope with a match.  So one and the same insertion can
  take the answer away from an enclosing scope for one node, add to the answer
  of another, and pass by a third, which is shadowed further in.

      Store.foundWithin      — what a lookup finds, with the slots
      foundWithin_map_snd    — it is the answer of the lookup
      Store.GetsTo           — a lookup gets to a scope
      content?_file          — an insertion takes one slot and no other
      foundWithin_file       — what it does to lookups from every node
      insertion_visibility   — the law for accepted insertions

  That two equal values can be stored makes the slots necessary: an answer may
  hold the value of the new entry without holding the entry.
-/
import ScopeChain.Proofs.Disambiguation
import ScopeChain.Proofs.Slots

namespace ScopeChain

/-! ## §1. The entries under a key, with their slots. -/

namespace ScopeMap

/-- The entries under a key, with their slots; the buckets are numbered from a
number on. -/
def placedUnder (objs : Objects) (i : ScopeId) : Nat → ScopeMap → Value → List (Slot × Value)
  | _, [], _ => []
  | number, b :: rest, key =>
      if objs.same b.key key then placed i number 0 b.entries
      else placedUnder objs i (number + 1) rest key

/-- The number of the bucket that answers to a key, or of the next new one. -/
def numberOf (objs : Objects) (m : ScopeMap) (key : Value) : Nat :=
  m.findIdx fun b => objs.same b.key key

/-- Without their slots, the placed entries are the bucket of the key. -/
theorem placedUnder_map_snd (objs : Objects) (i : ScopeId) (number : Nat) (m : ScopeMap)
    (key : Value) : (placedUnder objs i number m key).map Prod.snd = m.bucket objs key := by
  induction m generalizing number with
  | nil => rfl
  | cons b rest ih =>
      rw [placedUnder, bucket]
      split
      · exact placed_map_snd i number 0 b.entries
      · exact ih (number + 1)

/-- The entries under a key are one stretch of the scope's. -/
theorem placedUnder_infix_placedFrom (objs : Objects) (i : ScopeId) (number : Nat) (m : ScopeMap)
    (key : Value) : placedUnder objs i number m key <:+: placedFrom i number m := by
  induction m generalizing number with
  | nil => exact List.infix_refl []
  | cons b rest ih =>
      unfold placedUnder placedFrom
      split
      · exact (List.prefix_append _ _).isInfix
      · exact (ih (number + 1)).trans (List.suffix_append _ _).isInfix

/-- They are among the placed entries of the scope. -/
theorem placedUnder_sublist (objs : Objects) (i : ScopeId) (number : Nat) (m : ScopeMap)
    (key : Value) : (placedUnder objs i number m key).Sublist (placedFrom i number m) :=
  (placedUnder_infix_placedFrom objs i number m key).sublist

theorem numberOf_cons (objs : Objects) (b : Bucket) (rest : ScopeMap) (key : Value) :
    numberOf objs (b :: rest) key
      = if objs.same b.key key then 0 else numberOf objs rest key + 1 := by
  rw [numberOf, List.findIdx_cons]
  cases objs.same b.key key <;> rfl

/-- What an insertion does to the entries under each key, slots included: those
that there were keep theirs. -/
theorem placedUnder_insert (objs : Objects) (i : ScopeId) (number : Nat) (m : ScopeMap)
    (key v k : Value) :
    placedUnder objs i number (m.insert objs key v) k
      = if objs.same key k then
          placedUnder objs i number m k
            ++ [(⟨i, number + m.numberOf objs key, (m.bucket objs key).length⟩, v)]
        else placedUnder objs i number m k := by
  induction m generalizing number with
  | nil => rfl
  | cons b rest ih =>
      rw [insert, numberOf_cons, bucket, placedUnder]
      by_cases hb : objs.same b.key key = true
      · -- the bucket is there, and answers to what the key answers to
        rw [if_pos hb, if_pos hb, if_pos hb, placedUnder, Objects.same_congr hb k, placed_append,
          Nat.zero_add, Nat.add_zero]
        split <;> rfl
      · rw [if_neg hb, if_neg hb, if_neg hb, placedUnder, ih (number + 1), Nat.add_right_comm,
          Nat.add_assoc number]
        by_cases hbk : objs.same b.key k = true
        · -- a bucket of another key is passed by
          have hk : ¬ objs.same key k = true := fun h =>
            hb (Objects.same_trans hbk (by rw [Objects.same_comm]; exact h))
          rw [if_pos hbk, if_neg hk, if_pos hbk]
        · rw [if_neg hbk, if_neg hbk]

/-- The number of a key is that of its bucket, and past the last one for a new key.
-/
theorem entriesAt_numberOf (objs : Objects) (m : ScopeMap) (key : Value) :
    m.entriesAt (m.numberOf objs key) = m.bucket objs key := by
  induction m with
  | nil => rfl
  | cons b rest ih =>
      rw [numberOf_cons, bucket]
      split
      · rfl
      · exact ih

/-- An insertion appends to one bucket by number, a new one perhaps. -/
theorem entriesAt_insert (objs : Objects) (m : ScopeMap) (key v : Value) (number : Nat) :
    (m.insert objs key v).entriesAt number
      = if number = m.numberOf objs key then m.entriesAt number ++ [v]
        else m.entriesAt number := by
  induction m generalizing number with
  | nil => cases number <;> rfl
  | cons b rest ih =>
      rw [insert, numberOf_cons]
      by_cases hb : objs.same b.key key = true
      · rw [if_pos hb, if_pos hb]
        cases number <;> rfl
      · rw [if_neg hb, if_neg hb]
        cases number with
        | zero => rfl
        | succ number =>
            show (insert objs rest key v).entriesAt number = _
            rw [ih]
            simp only [Nat.add_right_cancel_iff]
            rfl

end ScopeMap

/-! ## §2. What a lookup finds, with the slots. -/

/-- Lists after one that is not empty make no difference. -/
theorem firstNonempty_append_of_mem {α : Type} {front : List (List α)} {l : List α}
    (hl : l ∈ front) (hne : l ≠ []) (rest : List (List α)) :
    firstNonempty (front ++ rest) = firstNonempty front := by
  induction front with
  | nil => cases hl
  | cons first front ih =>
      cases first with
      | cons x xs => rfl
      | nil =>
          rcases List.mem_cons.mp hl with rfl | hrest
          · exact absurd rfl hne
          · exact ih hrest

namespace Store

open ScopeMap

/-- The entries of a scope under a key that a filter wants, with their slots. -/
def foundAt (s : Store) (k : Value) (f : Filter) (i : ScopeId) : List (Slot × Value) :=
  (placedUnder s.objects i 0 (s.scopes.read i) k).filter fun e => f.accepts s.objects e.2

/-- The entries under a key within a reach, with their slots. -/
def foundWithin (s : Store) (n : NodeId) (k : Value) (f : Filter) : Reach → List (Slot × Value)
  | .current => s.foundAt k f (s.node n).scope
  | .chain => firstNonempty ((s.view n).map (s.foundAt k f))
  | .outermost => s.foundAt k f (s.node n).root

/-- Without their slots, the entries found are the matches. -/
theorem foundAt_map_snd (s : Store) (k : Value) (f : Filter) (i : ScopeId) :
    (s.foundAt k f i).map Prod.snd = (s.scopes.read i).matching s.objects k f := by
  rw [matching, ← placedUnder_map_snd s.objects i 0, List.filter_map]
  rfl

/-- **Without the slots it is what the lookup answers.** -/
theorem foundWithin_map_snd (s : Store) (n : NodeId) (k : Value) (f : Filter) (reach : Reach) :
    (s.foundWithin n k f reach).map Prod.snd = s.matchesWithin n k f reach := by
  cases reach with
  | current => exact foundAt_map_snd s k f _
  | outermost => exact foundAt_map_snd s k f _
  | chain =>
      rw [foundWithin, ← firstNonempty_map (f := List.map Prod.snd) rfl (by simp),
        matchesWithin_chain, List.map_map]
      refine congrArg firstNonempty (List.map_congr_left fun i _ => ?_)
      exact foundAt_map_snd s k f i

/-- What is found at a slot of a scope stands there. -/
theorem content?_of_mem_foundAt {s : Store} {k : Value} {f : Filter} {i : ScopeId} {x : Slot}
    {v : Value} (h : (x, v) ∈ s.foundAt k f i) : x.scope = i ∧ s.content? x = some v := by
  have hplaced := (placedUnder_sublist s.objects i 0 _ k).subset (List.mem_filter.mp h).1
  obtain ⟨rfl, -, hv⟩ := mem_placedFrom_iff.mp hplaced
  exact ⟨rfl, hv⟩

/-- What a lookup finds is at the slots. -/
theorem content?_of_mem_foundWithin {s : Store} {n : NodeId} {k : Value} {f : Filter}
    {reach : Reach} {x : Slot} {v : Value} (h : (x, v) ∈ s.foundWithin n k f reach) :
    s.content? x = some v := by
  cases reach with
  | current => exact (content?_of_mem_foundAt h).2
  | outermost => exact (content?_of_mem_foundAt h).2
  | chain =>
      rcases firstNonempty_mem_or_nil ((s.view n).map (s.foundAt k f)) with hmem | hnil
      · obtain ⟨i, -, hi⟩ := List.mem_map.mp hmem
        rw [foundWithin, ← hi] at h
        exact (content?_of_mem_foundAt h).2
      · rw [foundWithin, hnil] at h
        cases h

/-! ## §3. Filing an entry. -/

/-- The slot of the next entry under a key. -/
def slotFor (s : Store) (i : ScopeId) (key : Value) : Slot :=
  ⟨i, (s.scopes.read i).numberOf s.objects key, ((s.scopes.read i).bucket s.objects key).length⟩

/-- The slot for a new entry is free. -/
theorem content?_slotFor (s : Store) (i : ScopeId) (key : Value) :
    s.content? (s.slotFor i key) = none := by
  show ((s.scopes.read i).entriesAt ((s.scopes.read i).numberOf s.objects key))[
    ((s.scopes.read i).bucket s.objects key).length]? = none
  rw [entriesAt_numberOf]
  exact List.getElem?_eq_none (Nat.le_refl _)

theorem getElem?_concat {α : Type} (l : List α) (x : α) (place : Nat) :
    (l ++ [x])[place]? = if place = l.length then some x else l[place]? := by
  rcases Nat.lt_trichotomy place l.length with hlt | heq | hgt
  · rw [if_neg (Nat.ne_of_lt hlt), List.getElem?_append_left hlt]
  · rw [heq, if_pos rfl, List.getElem?_concat_length]
  · rw [if_neg (Nat.ne_of_gt hgt), List.getElem?_eq_none (Nat.le_of_lt hgt),
      List.getElem?_eq_none]
    rw [List.length_append]
    exact hgt

/-- **Filing takes one slot**, which was free, and changes no other. -/
theorem content?_file (s : Store) {i : ScopeId} (hi : i < s.scopes.length) (key v : Value)
    (y : Slot) :
    (s.file i key v).content? y = if y = s.slotFor i key then some v else s.content? y := by
  obtain ⟨j, number, place⟩ := y
  simp only [slotFor, Slot.mk.injEq, content?]
  rw [read_file]
  by_cases hj : j = i
  · subst hj
    rw [if_pos ⟨rfl, hi⟩]
    simp only [true_and]
    rw [entriesAt_insert]
    by_cases hnumber : number = (s.scopes.read j).numberOf s.objects key
    · subst hnumber
      simp only [true_and, if_true, entriesAt_numberOf]
      exact getElem?_concat _ v place
    · simp only [hnumber, false_and, if_false]
  · simp only [hj, false_and, if_false]

/-- A filing shows in its own scope, under its own key, and where the filter wants
it. -/
theorem foundAt_file (s : Store) {i : ScopeId} (hi : i < s.scopes.length) (key v k : Value)
    (f : Filter) (j : ScopeId) :
    (s.file i key v).foundAt k f j
      = if j = i ∧ s.objects.same key k = true ∧ f.accepts s.objects v = true then
          s.foundAt k f i ++ [(s.slotFor i key, v)]
        else s.foundAt k f j := by
  rw [foundAt, read_file]
  by_cases hj : j = i
  · subst hj
    rw [if_pos ⟨rfl, hi⟩]
    show (placedUnder s.objects j 0 (ScopeMap.insert s.objects _ key v) k).filter
      (fun e => f.accepts s.objects e.2) = _
    rw [placedUnder_insert]
    by_cases hsame : s.objects.same key k = true
    · rw [if_pos hsame, List.filter_append, Nat.zero_add]
      by_cases hwants : f.accepts s.objects v = true
      · rw [if_pos ⟨rfl, hsame, hwants⟩]
        simp only [List.filter_cons, List.filter_nil]
        rw [if_pos hwants]
        rfl
      · rw [if_neg fun h => hwants h.2.2]
        simp only [List.filter_cons, List.filter_nil]
        rw [if_neg hwants, List.append_nil]
        rfl
    · rw [if_neg hsame, if_neg fun h => hsame h.2.1]
      rfl
  · rw [if_neg fun h => hj h.1, if_neg fun h => hj h.1]
    rfl

/-! ## §4. Who sees it. -/

/-- A lookup within a reach gets to a scope.  Along a chain it does if the scope
is in view and no scope further in has a match. -/
def GetsTo (s : Store) (n : NodeId) (k : Value) (f : Filter) (i : ScopeId) : Reach → Prop
  | .current => (s.node n).scope = i
  | .chain => ∃ inner outer, s.view n = inner ++ i :: outer
      ∧ ∀ j ∈ inner, (s.scopes.read j).matching s.objects k f = []
  | .outermost => (s.node n).root = i

/-- Where one scope of several gets one more answer: it answers if none before it
does, and otherwise nothing changes. -/
theorem firstNonempty_of_one_more {α : Type} {i : ScopeId} {x : α} {old new : ScopeId → List α}
    (hi : new i = old i ++ [x]) (others : ∀ j, j ≠ i → new j = old j) {view : List ScopeId}
    (hview : view.Nodup) :
    ((∃ inner outer, view = inner ++ i :: outer ∧ ∀ j ∈ inner, old j = []) →
        firstNonempty (view.map new) = old i ++ [x])
      ∧ ((¬ ∃ inner outer, view = inner ++ i :: outer ∧ ∀ j ∈ inner, old j = []) →
        firstNonempty (view.map new) = firstNonempty (view.map old)) := by
  constructor
  · rintro ⟨inner, outer, rfl, hinner⟩
    have hnot := (List.nodup_cons.mp (List.nodup_middle.mp hview)).1
    have hnil : ∀ l ∈ inner.map new, l = [] := by
      intro l hl
      obtain ⟨j, hj, rfl⟩ := List.mem_map.mp hl
      have hne : j ≠ i := by
        rintro rfl
        exact hnot (List.mem_append_left _ hj)
      rw [others j hne, hinner j hj]
    rw [List.map_append, firstNonempty_append_of_nil hnil, List.map_cons, hi]
    cases old i <;> rfl
  · intro hnone
    by_cases hmem : i ∈ view
    · -- some scope before it has a match, so neither answer comes to it
      obtain ⟨inner, outer, rfl⟩ := List.append_of_mem hmem
      have hinner : ¬ ∀ j ∈ inner, old j = [] := fun h => hnone ⟨inner, outer, rfl, h⟩
      push Not at hinner
      obtain ⟨j, hj, hne⟩ := hinner
      have hnot := (List.nodup_cons.mp (List.nodup_middle.mp hview)).1
      have hsame : inner.map new = inner.map old := by
        refine List.map_congr_left fun m hm => others m ?_
        rintro rfl
        exact hnot (List.mem_append_left _ hm)
      rw [List.map_append, List.map_append, hsame,
        firstNonempty_append_of_mem (List.mem_map_of_mem hj) hne,
        firstNonempty_append_of_mem (List.mem_map_of_mem hj) hne]
    · refine congrArg firstNonempty (List.map_congr_left fun j hj => others j ?_)
      rintro rfl
      exact hmem hj

theorem foundAt_eq_nil_iff {s : Store} {k : Value} {f : Filter} {i : ScopeId} :
    s.foundAt k f i = [] ↔ (s.scopes.read i).matching s.objects k f = [] := by
  rw [← foundAt_map_snd, List.map_eq_nil_iff]

/-- A lookup sees a filed entry: the key is the one it was filed under, the filter
wants it, and the lookup gets to its scope. -/
def Sees (s : Store) (n : NodeId) (k : Value) (f : Filter) (reach : Reach) (i : ScopeId)
    (key v : Value) : Prop :=
  s.objects.same key k = true ∧ f.accepts s.objects v = true ∧ s.GetsTo n k f i reach

/-- **What filing an entry does to a lookup**: one that sees it finds what the
scope had, with the entry last, and every other one finds what it found. -/
theorem Linked.foundWithin_file {s : Store} (h : s.Linked) {n : NodeId}
    (hn : n < s.nodes.length) {i : ScopeId} (hi : i < s.scopes.length) (key v k : Value)
    (f : Filter) (reach : Reach) :
    (s.Sees n k f reach i key v →
        (s.file i key v).foundWithin n k f reach = s.foundAt k f i ++ [(s.slotFor i key, v)])
      ∧ (¬ s.Sees n k f reach i key v →
        (s.file i key v).foundWithin n k f reach = s.foundWithin n k f reach) := by
  have found := s.foundAt_file hi key v k f
  have same := samePlaces_file s i key v
  by_cases wanted : s.objects.same key k = true ∧ f.accepts s.objects v = true
  · simp only [wanted, and_true] at found
    simp only [Sees, wanted, true_and]
    cases reach with
    | current =>
        simp only [foundWithin, same.scope, found, GetsTo]
        exact ⟨fun hat => if_pos hat, fun hat => if_neg hat⟩
    | outermost =>
        simp only [foundWithin, same.root, found, GetsTo]
        exact ⟨fun hat => if_pos hat, fun hat => if_neg hat⟩
    | chain =>
        simp only [foundWithin, same.view, GetsTo, ← foundAt_eq_nil_iff]
        refine firstNonempty_of_one_more ?_ ?_ (h.view_nodup hn)
        · rw [found, if_pos rfl]
        · intro j hj
          rw [found, if_neg hj]
  · -- an entry that is not wanted changes no scope's answer
    have unchanged : (s.file i key v).foundAt k f = s.foundAt k f := by
      funext j
      rw [found, if_neg fun hj => wanted hj.2]
    refine ⟨fun hsees => absurd ⟨hsees.1, hsees.2.1⟩ wanted, fun _ => ?_⟩
    cases reach with
    | current => simp only [foundWithin, same.scope, unchanged]
    | outermost => simp only [foundWithin, same.root, unchanged]
    | chain => simp only [foundWithin, same.view, unchanged]

/-- An insertion that succeeds was decided without a clash. -/
theorem filing_of_done {s : Store} {n : NodeId} {target : Target} {key value : Value}
    (h : (s.perform n (.insert target key value)).outcome = .ok .done) :
    ∃ filed, s.filing n target key value = .ok filed ∧ filed.clash = none := by
  obtain ⟨filed, events, hfiled, hclash, -⟩ := perform_insert_done_iff.mp h
  exact ⟨filed, hfiled, hclash⟩

/-- **Who sees an insertion.**  An insertion that succeeds was decided without a
clash.  Any insertion decided so takes one slot of its target scope, which was
free, and leaves all others.  For every node there is, every string and every
filter, the answer of a lookup, within each reach, then holds the new entry if
and only if the string is the key that the entry was filed under, the filter
wants it, and the lookup gets to the target scope: that scope is the one the
node is at, or its outermost one, or, along the chain, one in view with no match
in any scope further in.  Where it does, the answer is what the target scope had
for the lookup, with the new symbol last; where not, the answer is what it
was. -/
theorem insertion_visibility {s : Store} (hs : s.Reachable) {n : NodeId}
    (hn : n < s.nodes.length) (target : Target) (key value : Value) :
    let done := s.perform n (.insert target key value)
    let t := done.store
    let home := s.targetScope n target
    (done.outcome = .ok .done →
        ∃ filed, s.filing n target key value = .ok filed ∧ filed.clash = none)
      ∧ ∀ filed, s.filing n target key value = .ok filed → filed.clash = none →
        ∃ x : Slot, x.scope = home ∧ s.content? x = none
          ∧ (∀ y, t.content? y = if y = x then some filed.symbol else s.content? y)
          ∧ ∀ c, c < s.nodes.length → ∀ k text f reach, s.objects.text? k = some text →
            t.lookup c reach k f = .ok ((t.foundWithin c k f reach).map Prod.snd)
              ∧ ((x, filed.symbol) ∈ t.foundWithin c k f reach
                  ↔ s.Sees c k f reach home filed.key filed.symbol)
              ∧ (s.Sees c k f reach home filed.key filed.symbol →
                  t.lookup c reach k f
                    = .ok ((s.scopes.read home).matching s.objects k f ++ [filed.symbol]))
              ∧ (¬ s.Sees c k f reach home filed.key filed.symbol →
                  t.lookup c reach k f = s.lookup c reach k f) := by
  intro done t home
  have h := hs.linked
  have hhome : home < s.scopes.length := h.targetScope_lt hn target
  refine ⟨filing_of_done, fun filed hfiled hclash => ?_⟩
  have ht : t = s.file home filed.key filed.symbol :=
    (perform_insert_store s n target key value).trans (insert_store_of_accepted hfiled hclash)
  have hfree := s.content?_slotFor home filed.key
  rw [ht]
  refine ⟨s.slotFor home filed.key, rfl, hfree, s.content?_file hhome _ _, ?_⟩
  intro c hc k text f reach htext
  obtain ⟨seen, unseen⟩ := h.foundWithin_file hc hhome filed.key filed.symbol k f reach
  have answer : (s.file home filed.key filed.symbol).lookup c reach k f
      = .ok (((s.file home filed.key filed.symbol).foundWithin c k f reach).map Prod.snd) := by
    have htext' : (s.file home filed.key filed.symbol).objects.text? k = some text := htext
    rw [lookup_of_text? htext', foundWithin_map_snd]
  refine ⟨answer, ⟨?_, ?_⟩, ?_, ?_⟩
  · -- what the lookup found before is at slots that were taken
    intro hmem
    by_contra hsees
    rw [unseen hsees] at hmem
    rw [content?_of_mem_foundWithin hmem] at hfree
    cases hfree
  · intro hsees
    rw [seen hsees]
    exact List.mem_append_right _ List.mem_cons_self
  · intro hsees
    rw [answer, seen hsees, List.map_append, foundAt_map_snd]
    rfl
  · intro hsees
    rw [answer, unseen hsees, foundWithin_map_snd, lookup_of_text? htext]

/-- A symbol inserted at the parent of a table, into the scope between the
table's own and the outermost one, is seen from the table, and not from the node
further out. -/
theorem insertion_visibility_in_the_middle :
    let t := (splicedStore.perform 1 (.insert .current (.str "a") .absent)).store
    splicedStore.Reachable ∧ 1 < splicedStore.nodes.length
      ∧ splicedStore.view 0 = [1, 2, 0] ∧ splicedStore.view 2 = [0]
      ∧ t.lookup 0 .chain (.str "a") .all = .ok [.str "a"]
      ∧ t.lookup 2 .chain (.str "a") .all = splicedStore.lookup 2 .chain (.str "a") .all := by
  intro t
  have hn : 1 < splicedStore.nodes.length := by decide
  obtain ⟨x, -, -, -, laws⟩ :=
    (insertion_visibility splicedStore_reachable hn .current (.str "a") .absent).2
      ⟨.str "a", .str "a", none⟩ rfl rfl
  have inView : splicedStore.Sees 0 (.str "a") .all .chain 2 (.str "a") (.str "a") := by
    refine ⟨by decide, rfl, [1], [0], rfl, ?_⟩
    intro j hj
    rw [List.mem_singleton.mp hj]
    rfl
  have outOfView : ¬ splicedStore.Sees 2 (.str "a") .all .chain 2 (.str "a") (.str "a") := by
    rintro ⟨-, -, inner, outer, hview, -⟩
    have hmem : 2 ∈ splicedStore.view 2 := by
      rw [hview]
      exact List.mem_append_right _ List.mem_cons_self
    exact absurd hmem (by decide)
  exact ⟨splicedStore_reachable, hn, rfl, rfl,
    (laws 0 (by decide) _ "a" .all .chain rfl).2.2.1 inView,
    (laws 2 (by decide) _ "a" .all .chain rfl).2.2.2 outOfView⟩

end Store

end ScopeChain
