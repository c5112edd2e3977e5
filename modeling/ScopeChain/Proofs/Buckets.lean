/-
  ScopeChain.Proofs.Buckets
  ─────────────────────────
  **WHAT THE BUCKETS OF A REACHABLE STORE LOOK LIKE.**

  A bucket is opened by the insertion of its first entry, under a key that has
  just been used as an address, and it never loses an entry.  So no bucket is
  empty and every key in a scope is usable, in every scope of every reachable
  store, those included that no node is at any more.  And a key that answers to
  one that is there opens no bucket, so no two buckets of a scope answer to one
  key: a scope is the list of its keys, each with what is found under it.

      Bucket.Sound           — an entry, under a usable key
      Store.Filled           — the first invariant
      Reachable.filled       — it holds in every reachable store
      ScopeMap.exists_bucket_of_mem_keys
                             — a key that is there has its bucket
      ScopeMap.insert_cases  — where an insertion puts its entry
      ScopeMap.KeysApart     — no two keys of a scope are one
      KeysApart.bucket_eq    — a bucket answers to its own key
      Store.Keyed            — the second invariant
      Reachable.keyed        — it holds in every reachable store
-/
import ScopeChain.Proofs.Runs

namespace ScopeChain

/-! ## §1. Buckets of a scope. -/

/-- A bucket with an entry, under a key that can address it. -/
structure Bucket.Sound (b : Bucket) : Prop where
  nonempty : b.entries ≠ []
  usable : Objects.changeable? b.key = none

namespace ScopeMap

/-- A bucket of the scope after an insertion was there before, or got the new
entry, or is the new entry's own. -/
theorem mem_insert {objs : Objects} {m : ScopeMap} {key v : Value} {b : Bucket}
    (h : b ∈ m.insert objs key v) :
    b ∈ m ∨ (∃ old ∈ m, b = { old with entries := old.entries ++ [v] }) ∨ b = ⟨key, [v]⟩ := by
  induction m with
  | nil => exact .inr (.inr (List.mem_singleton.mp h))
  | cons old rest ih =>
      rw [insert] at h
      split at h
      · rcases List.mem_cons.mp h with hb | hb
        · exact .inr (.inl ⟨old, List.mem_cons_self, hb⟩)
        · exact .inl (List.mem_cons_of_mem _ hb)
      · rcases List.mem_cons.mp h with rfl | hb
        · exact .inl List.mem_cons_self
        · rcases ih hb with hmem | ⟨old', hmem, heq⟩ | heq
          · exact .inl (List.mem_cons_of_mem _ hmem)
          · exact .inr (.inl ⟨old', List.mem_cons_of_mem _ hmem, heq⟩)
          · exact .inr (.inr heq)

/-- Insertion under a usable key keeps buckets sound. -/
theorem sound_insert {objs : Objects} {m : ScopeMap} (h : ∀ b ∈ m, b.Sound) {key : Value}
    (hkey : Objects.changeable? key = none) (v : Value) :
    ∀ b ∈ m.insert objs key v, b.Sound := by
  intro b hb
  rcases mem_insert hb with hmem | ⟨old, hmem, rfl⟩ | rfl
  · exact h b hmem
  · exact ⟨by simp, (h old hmem).usable⟩
  · exact ⟨by simp, hkey⟩

/-- Where a key that is there is the same key as a value, the value finds a
bucket. -/
theorem exists_bucket_of_mem_keys {objs : Objects} {m : ScopeMap} {k k' : Value}
    (hmem : k' ∈ m.keys) (hsame : objs.same k' k = true) :
    ∃ b ∈ m, objs.same b.key k = true ∧ m.bucket objs k = b.entries := by
  induction m with
  | nil => cases hmem
  | cons b rest ih =>
      by_cases hb : objs.same b.key k = true
      · exact ⟨b, List.mem_cons_self, hb, by rw [bucket, if_pos hb]⟩
      · rcases List.mem_cons.mp hmem with rfl | hrest
        · exact absurd hsame hb
        · obtain ⟨found, hfound, hkey, hentries⟩ := ih hrest
          refine ⟨found, List.mem_cons_of_mem _ hfound, hkey, ?_⟩
          rw [bucket, if_neg hb, hentries]

end ScopeMap

/-! ## §2. Scopes of a store. -/

namespace Store

/-- Every bucket of every scope is sound. -/
def Filled (s : Store) : Prop := ∀ i, ∀ b ∈ s.scopes.read i, b.Sound

/-- An insertion that comes to a decision has a usable key. -/
theorem changeable?_of_filing {s : Store} {n : NodeId} {target : Target} {key value : Value}
    {f : Filing} (h : s.filing n target key value = .ok f) :
    Objects.changeable? f.key = none := by
  unfold filing addressAt Objects.addressOf at h
  split at h
  next => cases h
  next k hk =>
    injection h with h
    subst h
    split at hk
    next => cases hk
    next =>
      split at hk
      next => cases hk
      next hnone =>
        injection hk with hk
        subst hk
        exact hnone

theorem read_file (s : Store) (scope : ScopeId) (key symbol : Value) (i : ScopeId) :
    (s.file scope key symbol).scopes.read i
      = if i = scope ∧ scope < s.scopes.length then
          (s.scopes.read scope).insert s.objects key symbol
        else s.scopes.read i := by
  -- past the end of the arena a write does nothing
  by_cases hlt : scope < s.scopes.length
  · show Arena.read (Arena.write s.scopes scope _) i = _
    rw [Arena.read_write _ _ hlt]
    simp [hlt]
  · have hsame : (s.file scope key symbol).scopes = s.scopes :=
      List.set_eq_of_length_le (Nat.le_of_not_lt hlt)
    simp [hsame, hlt]

theorem Change.filled {s t : Store} (change : Change s t) (h : s.Filled) : t.Filled := by
  cases change with
  | create keyFunction policy =>
      intro i
      rw [show (s.create keyFunction policy).scopes.read i = s.scopes.read i from
        read_push_nil _ i]
      exact h i
  | @enter n hn =>
      intro i
      rw [show (s.enter n).scopes.read i = s.scopes.read i from read_push_nil _ i]
      exact h i
  | file hn decided accepted =>
      intro i b hb
      rw [read_file] at hb
      split at hb
      · exact ScopeMap.sound_insert (h _) (changeable?_of_filing decided) _ b hb
      · exact h i b hb
  | unchanged => exact h
  | leave => exact h
  | setPolicy => exact h
  | setKeyFunction => exact h
  | assign => exact h

/-- **No bucket of a reachable store is empty, and no key in it unusable.** -/
theorem Reachable.filled {s : Store} (hs : s.Reachable) : s.Filled := by
  refine hs.holds ?_ Change.filled
  intro objects journaling i b hb
  rw [read_scopes_empty] at hb
  cases hb

end Store

/-! ## §3. Keys of a scope. -/

namespace ScopeMap

/-- An insertion appends to the first bucket that answers to its key, or opens
one at the end where none does. -/
theorem insert_cases (objs : Objects) (m : ScopeMap) (key v : Value) :
    (∃ front b back, m = front ++ b :: back ∧ objs.same b.key key = true
        ∧ m.bucket objs key = b.entries
        ∧ m.insert objs key v = front ++ { b with entries := b.entries ++ [v] } :: back)
      ∨ (∀ b ∈ m, objs.same b.key key = false) ∧ m.bucket objs key = []
        ∧ m.insert objs key v = m ++ [⟨key, [v]⟩] := by
  induction m with
  | nil => exact .inr ⟨by simp, rfl, rfl⟩
  | cons first rest ih =>
      unfold insert bucket
      by_cases hkey : objs.same first.key key = true
      · rw [if_pos hkey, if_pos hkey]
        exact .inl ⟨[], first, rest, rfl, hkey, rfl, rfl⟩
      · rw [if_neg hkey, if_neg hkey]
        rcases ih with ⟨front, b, back, hrest, hsame, hbucket, hinsert⟩ | ⟨hnone, hbucket, hinsert⟩
        · refine .inl ⟨first :: front, b, back, ?_, hsame, hbucket, ?_⟩
          · rw [hrest]
            rfl
          · rw [hinsert]
            rfl
        · refine .inr ⟨?_, hbucket, ?_⟩
          · simpa [hkey] using hnone
          · rw [hinsert]
            rfl

/-- No two keys of a scope are one key. -/
def KeysApart (objs : Objects) (m : ScopeMap) : Prop :=
  m.keys.Pairwise fun a b => objs.same a b = false

theorem KeysApart.insert {objs : Objects} {m : ScopeMap} (h : m.KeysApart objs)
    (key v : Value) : (m.insert objs key v).KeysApart objs := by
  unfold KeysApart at h ⊢
  rw [keys_insert_eq]
  split
  next => exact h
  next hnew =>
    -- the new key is one with none that was there
    rw [List.pairwise_append]
    refine ⟨h, List.pairwise_singleton _ _, ?_⟩
    simpa using hnew

theorem KeysApart.of_sameKinds {objs objs' : Objects} {m : ScopeMap} (h : m.KeysApart objs)
    (kinds : Objects.SameKinds objs objs') : m.KeysApart objs' := by
  refine List.Pairwise.imp ?_ h
  intro a b hab
  rw [kinds.same]
  exact hab

/-- Every bucket is found under its own key, and under each that is one with it. -/
theorem KeysApart.bucket_eq {objs : Objects} {m : ScopeMap} (h : m.KeysApart objs) {b : Bucket}
    (hb : b ∈ m) {k : Value} (hkey : objs.same b.key k = true) :
    m.bucket objs k = b.entries := by
  induction m with
  | nil => cases hb
  | cons first rest ih =>
      unfold KeysApart keys at h
      rw [List.map_cons, List.pairwise_cons] at h
      unfold bucket
      rcases List.mem_cons.mp hb with rfl | hrest
      · rw [if_pos hkey]
      · -- an earlier bucket with this key would be one with the bucket's own
        have hfirst : ¬ objs.same first.key k = true := by
          intro hsame
          have hsame' := Objects.same_trans hsame (by rw [Objects.same_comm]; exact hkey)
          rw [h.1 b.key (List.mem_map_of_mem hrest)] at hsame'
          cases hsame'
        rw [if_neg hfirst]
        exact ih h.2 hrest

end ScopeMap

namespace Store

/-- No scope has a key twice. -/
def Keyed (s : Store) : Prop := ∀ i, (s.scopes.read i).KeysApart s.objects

theorem Change.keyed {s t : Store} (change : Change s t) (h : s.Keyed) : t.Keyed := by
  cases change with
  | create keyFunction policy =>
      intro i
      show ((Arena.push s.scopes []).read i).KeysApart s.objects
      rw [read_push_nil]
      exact h i
  | enter hn =>
      intro i
      show ((Arena.push s.scopes []).read i).KeysApart s.objects
      rw [read_push_nil]
      exact h i
  | file hn decided accepted =>
      intro i
      rw [read_file]
      split
      · exact (h _).insert _ _
      · exact h i
  | assign id attr value =>
      exact fun i => (h i).of_sameKinds (Objects.sameKinds_assign s.objects id attr value)
  | unchanged => exact h
  | leave => exact h
  | setPolicy => exact h
  | setKeyFunction => exact h

/-- **No scope of a reachable store has a key twice.** -/
theorem Reachable.keyed {s : Store} (hs : s.Reachable) : s.Keyed :=
  hs.holds (fun _ _ _ => List.Pairwise.nil) Change.keyed

end Store

end ScopeChain
