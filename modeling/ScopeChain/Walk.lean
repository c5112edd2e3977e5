/-
  ScopeChain.Walk
  ───────────────
  **ITERATION, ONE ENTRY AT A TIME.**

  A walk is a position in a store that changes under it.  It keeps the scope it
  is inside, wherever the node moves, and follows parent links as they then are.
-/
import ScopeChain.Lookup

namespace ScopeChain

/-- Where a walk stands. -/
inductive Walk where
  | unstarted (n : NodeId)
  /-- Inside a scope that began with `keys` keys, `next` entries of a bucket met. -/
  | inside (n : NodeId) (scope : ScopeId) (keys : Nat) (bucket : Nat) (next : Nat)
  /-- Ended or failed. -/
  | finished
  deriving DecidableEq, Repr

/-- The first bucket from a number on that has an entry, with that entry. -/
def firstEntryFrom (number : Nat) : List Bucket → Option (Nat × Value)
  | [] => none
  | b :: rest =>
      match b.entries with
      | [] => firstEntryFrom (number + 1) rest
      | v :: _ => some (number, v)

namespace Store

/-- Begin the first of several scopes that has an entry. -/
def openFirst (s : Store) : List NodeId → Walk × Option Value
  | [] => (.finished, none)
  | n :: rest =>
      match firstEntryFrom 0 (s.here n) with
      | some (bucket, v) => (.inside n (s.node n).scope (s.here n).length bucket 1, some v)
      | none => openFirst s rest

/-- One step of `__iter__`: where the walk stands afterwards, and the entry it yields. -/
def step (s : Store) : Walk → Walk × Except Fault (Option Value)
  | .finished => (.finished, .ok none)
  | .unstarted n =>
      let (walk, found) := s.openFirst (s.chain n)
      (walk, .ok found)
  | .inside n scope keys bucket next =>
      let m := s.scopes.read scope
      match (m[bucket]?.map Bucket.entries).bind (·[next]?) with
      | some v => (.inside n scope keys bucket (next + 1), .ok (some v))
      | none =>
          if m.length ≠ keys then (.finished, .error .keysChanged)
          else
            match firstEntryFrom (bucket + 1) (m.drop (bucket + 1)) with
            | some (b, v) => (.inside n scope keys b 1, .ok (some v))
            | none =>
                let (walk, found) := s.openFirst (s.enclosing n)
                (walk, .ok found)

end Store

end ScopeChain
