/-
  ScopeChain.Proofs.Slots
  ───────────────────────
  **WHERE THE ENTRIES OF A STORE ARE.**

  One value can be stored many times, and one lookup or walk can meet it more
  than once.  What tells entries apart is their SLOT: a scope, a bucket of it by
  number, and a place in that bucket.  A slot, once taken, keeps its entry for
  good, for scopes only grow.  So an answer given with the slots of its entries
  says which entries it is about, whatever values they have.

      Slot                   — scope, bucket and place of an entry
      Store.content?         — the entry at a slot
      Store.slots            — all entries that a node sees, with their slots
      slots_map_snd          — they are the visible entries, in their order
      slots_nodup            — each of them once
      Extends.placedFrom_sublist — a growing scope keeps its entries in their slots
-/
import Mathlib.Data.List.Nodup
import ScopeChain.Proofs.Growth
import ScopeChain.Proofs.Views

namespace ScopeChain

/-! ## §1. Slots. -/

/-- The place of an entry: its scope, the number of its bucket there, and its
place in the bucket. -/
structure Slot where
  scope : ScopeId
  bucket : Nat
  place : Nat
  deriving DecidableEq, Repr, Inhabited

namespace ScopeMap

/-- The entries of the bucket with a number; none past the last bucket. -/
def entriesAt (m : ScopeMap) (number : Nat) : List Value :=
  (m[number]?.map Bucket.entries).getD []

/-- Entries of one bucket, from a place on, with their slots. -/
def placed (i : ScopeId) (bucket place : Nat) (entries : List Value) : List (Slot × Value) :=
  (entries.zipIdx place).map fun e => (⟨i, bucket, e.2⟩, e.1)

/-- Entries of the buckets from a number on, with their slots. -/
def placedFrom (i : ScopeId) : Nat → List Bucket → List (Slot × Value)
  | _, [] => []
  | number, b :: rest => placed i number 0 b.entries ++ placedFrom i (number + 1) rest

@[simp] theorem placed_nil (i : ScopeId) (bucket place : Nat) : placed i bucket place [] = [] := rfl

theorem placed_cons (i : ScopeId) (bucket place : Nat) (v : Value) (rest : List Value) :
    placed i bucket place (v :: rest)
      = (⟨i, bucket, place⟩, v) :: placed i bucket (place + 1) rest := by
  rw [placed, List.zipIdx_cons, List.map_cons]
  rfl

/-- Later entries of a bucket are at later places. -/
theorem placed_append (i : ScopeId) (bucket place : Nat) (first second : List Value) :
    placed i bucket place (first ++ second)
      = placed i bucket place first ++ placed i bucket (place + first.length) second := by
  rw [placed, List.zipIdx_append, List.map_append]
  rfl

/-- Without their slots, the placed entries are the entries. -/
theorem placed_map_snd (i : ScopeId) (bucket place : Nat) (entries : List Value) :
    (placed i bucket place entries).map Prod.snd = entries := by
  rw [placed, List.map_map]
  exact List.zipIdx_map_fst place entries

/-- Later buckets have later numbers. -/
theorem placedFrom_append (i : ScopeId) (number : Nat) (first second : List Bucket) :
    placedFrom i number (first ++ second)
      = placedFrom i number first ++ placedFrom i (number + first.length) second := by
  induction first generalizing number with
  | nil => rfl
  | cons b rest ih =>
      rw [List.cons_append, placedFrom, placedFrom, ih, List.append_assoc, List.length_cons,
        Nat.add_right_comm, Nat.add_assoc number]

/-- Without their slots, the placed entries of all buckets are those of the scope.
-/
theorem placedFrom_map_snd (i : ScopeId) (number : Nat) (m : ScopeMap) :
    (placedFrom i number m).map Prod.snd = m.entries := by
  induction m generalizing number with
  | nil => rfl
  | cons b rest ih =>
      rw [placedFrom, List.map_append, placed_map_snd, ih, entries, entries, List.flatMap_cons]

/-- What stands at a slot of a bucket, and that nothing stands at slots of others.
-/
theorem mem_placed_iff {i : ScopeId} {bucket place : Nat} {entries : List Value} {x : Slot}
    {v : Value} :
    (x, v) ∈ placed i bucket place entries
      ↔ x.scope = i ∧ x.bucket = bucket ∧ place ≤ x.place
        ∧ entries[x.place - place]? = some v := by
  obtain ⟨j, b, p⟩ := x
  rw [placed, List.mem_map]
  constructor
  · rintro ⟨⟨w, q⟩, hmem, heq⟩
    cases heq
    exact ⟨rfl, rfl, List.mk_mem_zipIdx_iff_le_and_getElem?_sub.mp hmem⟩
  · rintro ⟨rfl, rfl, hplace, hv⟩
    exact ⟨(v, p), List.mk_mem_zipIdx_iff_le_and_getElem?_sub.mpr ⟨hplace, hv⟩, rfl⟩

/-- What stands at a slot of a scope: the entry at its place in the bucket with its
number. -/
theorem mem_placedFrom_iff {i : ScopeId} {number : Nat} {m : ScopeMap} {x : Slot} {v : Value} :
    (x, v) ∈ placedFrom i number m
      ↔ x.scope = i ∧ number ≤ x.bucket ∧ (m.entriesAt (x.bucket - number))[x.place]? = some v := by
  induction m generalizing number with
  | nil => simp [placedFrom, entriesAt]
  | cons b rest ih =>
      rw [placedFrom, List.mem_append, mem_placed_iff, ih]
      -- the slot is in the first bucket, or its bucket is one of the others
      rcases Nat.lt_trichotomy x.bucket number with hlt | heq | hgt
      · constructor
        · rintro (⟨-, h, -⟩ | ⟨-, h, -⟩) <;> omega
        · rintro ⟨-, h, -⟩
          omega
      · subst heq
        have hlater : ¬ x.bucket + 1 ≤ x.bucket := Nat.not_succ_le_self _
        simp [entriesAt, hlater]
      · obtain ⟨k, hk⟩ : ∃ k, x.bucket = number + 1 + k := ⟨x.bucket - number - 1, by omega⟩
        have hne : x.bucket ≠ number := by omega
        have hfirst : x.bucket - (number + 1) = k := by omega
        have hall : x.bucket - number = k + 1 := by omega
        rw [hfirst, hall]
        simp [hne, entriesAt, Nat.le_of_lt hgt, Nat.succ_le_of_lt hgt]

/-- No place of a bucket comes twice. -/
theorem placed_nodup (i : ScopeId) (bucket place : Nat) (entries : List Value) :
    ((placed i bucket place entries).map Prod.fst).Nodup := by
  have hfst : (placed i bucket place entries).map Prod.fst
      = (List.range' place entries.length).map fun p => Slot.mk i bucket p := by
    rw [placed, List.map_map, ← List.zipIdx_map_snd place entries, List.map_map]
    rfl
  rw [hfst]
  refine List.Nodup.map ?_ List.nodup_range'
  intro p q hpq
  exact congrArg Slot.place hpq

/-- No slot of a scope comes twice. -/
theorem placedFrom_nodup (i : ScopeId) (number : Nat) (m : ScopeMap) :
    ((placedFrom i number m).map Prod.fst).Nodup := by
  induction m generalizing number with
  | nil => exact List.nodup_nil
  | cons b rest ih =>
      rw [placedFrom, List.map_append, List.nodup_append]
      refine ⟨placed_nodup i number 0 b.entries, ih (number + 1), ?_⟩
      -- the numbers of two buckets differ
      rintro x hx y hy rfl
      obtain ⟨⟨x', v⟩, hmem, rfl⟩ := List.mem_map.mp hx
      obtain ⟨⟨y', w⟩, hmem', heq⟩ := List.mem_map.mp hy
      obtain rfl : y' = x' := heq
      have hbucket := (mem_placed_iff.mp hmem).2.1
      have hlater := (mem_placedFrom_iff.mp hmem').2.1
      omega

end ScopeMap

/-! ## §2. The entries that a node sees. -/

namespace Store

open ScopeMap

/-- The entry at a slot. -/
def content? (s : Store) (x : Slot) : Option Value :=
  ((s.scopes.read x.scope).entriesAt x.bucket)[x.place]?

/-- The entries of a node's own scope, with their slots. -/
def slotsHere (s : Store) (n : NodeId) : List (Slot × Value) :=
  placedFrom (s.node n).scope 0 (s.here n)

/-- Every entry along the chain with its slot, in the order of the visible
entries. -/
def slots (s : Store) (n : NodeId) : List (Slot × Value) := (s.chain n).flatMap s.slotsHere

/-- The slots of a node's own scope, as far as they are taken. -/
theorem mem_slotsHere_iff {s : Store} {n : NodeId} {x : Slot} {v : Value} :
    (x, v) ∈ s.slotsHere n ↔ x.scope = (s.node n).scope ∧ s.content? x = some v := by
  rw [slotsHere, mem_placedFrom_iff, content?, here]
  constructor
  · rintro ⟨hscope, -, hv⟩
    rw [hscope]
    exact ⟨rfl, hv⟩
  · rintro ⟨hscope, hv⟩
    rw [hscope] at hv
    exact ⟨hscope, Nat.zero_le _, hv⟩

/-- **The slots of a node hold its visible entries**, in their order. -/
theorem slots_map_snd (s : Store) (n : NodeId) :
    (s.slots n).map Prod.snd = s.visible n := by
  have hhere : ∀ m, (s.slotsHere m).map Prod.snd = (s.here m).entries :=
    fun m => placedFrom_map_snd _ 0 (s.here m)
  rw [slots, List.map_flatMap, visible]
  simp only [hhere]

/-- **No slot is seen twice**, for no scope is. -/
theorem Linked.slots_nodup {s : Store} (h : s.Linked) {n : NodeId} (hn : n < s.nodes.length) :
    ((s.slots n).map Prod.fst).Nodup := by
  have hview := h.view_nodup hn
  rw [view, List.Nodup, List.pairwise_map] at hview
  rw [slots, List.map_flatMap, List.nodup_flatMap]
  refine ⟨fun m _ => placedFrom_nodup _ 0 (s.here m), hview.imp ?_⟩
  intro m m' hscope x hx hx'
  obtain ⟨⟨y, v⟩, hmem, rfl⟩ := List.mem_map.mp hx
  obtain ⟨⟨z, w⟩, hmem', heq⟩ := List.mem_map.mp hx'
  obtain rfl : z = y := heq
  exact hscope ((mem_slotsHere_iff.mp hmem).1.symm.trans (mem_slotsHere_iff.mp hmem').1)

end Store

/-! ## §3. Growing stores. -/

namespace ScopeMap

/-- A bucket keeps its number while its scope grows, and its entries stay in front.
-/
theorem Extends.entriesAt {m m' : ScopeMap} (h : Extends m m') (number : Nat) :
    m.entriesAt number <+: m'.entriesAt number := by
  induction h generalizing number with
  | new => exact List.nil_prefix
  | kept _ entries _ ih =>
      cases number with
      | zero => exact entries
      | succ number => exact ih number

theorem Extends.take {m m' : ScopeMap} (h : Extends m m') (count : Nat) :
    Extends (m.take count) (m'.take count) := by
  induction h generalizing count with
  | new =>
      rw [List.take_nil]
      exact .new _
  | kept key entries others ih =>
      cases count with
      | zero => exact .new _
      | succ count => exact .kept key entries (ih count)

theorem Extends.drop {m m' : ScopeMap} (h : Extends m m') (count : Nat) :
    Extends (m.drop count) (m'.drop count) := by
  induction h generalizing count with
  | new =>
      rw [List.drop_nil]
      exact .new _
  | kept key entries others ih =>
      cases count with
      | zero => exact .kept key entries others
      | succ count => exact ih count

/-- New entries come after the old ones of their bucket, so the old ones keep
their slots. -/
theorem placed_sublist {entries entries' : List Value} (h : entries <+: entries') (i : ScopeId)
    (bucket place : Nat) :
    (placed i bucket place entries).Sublist (placed i bucket place entries') := by
  obtain ⟨more, rfl⟩ := h
  rw [placed_append]
  exact List.sublist_append_left _ _

/-- So all that stood in a scope still stands there in its slot, with new entries in
between. -/
theorem Extends.placedFrom_sublist {m m' : ScopeMap} (h : Extends m m') (i : ScopeId)
    (number : Nat) : (placedFrom i number m).Sublist (placedFrom i number m') := by
  induction h generalizing number with
  | new => exact List.nil_sublist _
  | kept _ entries _ ih => exact (placed_sublist entries i number 0).append (ih (number + 1))

end ScopeMap

end ScopeChain
