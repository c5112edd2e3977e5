/-
  ScopeChain.ScopeMap
  ───────────────────
  **THE ENTRIES OF ONE SCOPE.**

  A scope files its entries in BUCKETS, one for each key, in the order in which
  the keys were first used; a bucket keeps its entries in order of insertion.
  A bucket answers to every value that is the same key as its own, and keeps
  the form of the key that opened it.

      ScopeMap.bucket        — the entries under a key, none if there are none
      ScopeMap.insert        — one more entry under a key
      ScopeMap.entries       — all entries, bucket after bucket
      Filter                 — which entries a lookup wants
      ScopeMap.matching      — the entries under a key that a filter wants
      clash?                 — the entry that speaks against an insertion
-/
import ScopeChain.Equality

namespace ScopeChain

/-! ## §1. Buckets. -/

/-- The entries filed under one key. -/
structure Bucket where
  key : Value
  entries : List Value
  deriving Repr

/-- The entries of one scope. -/
abbrev ScopeMap := List Bucket

namespace ScopeMap

/-- The entries under a key. -/
def bucket (objs : Objects) : ScopeMap → Value → List Value
  | [], _ => []
  | b :: rest, key => if objs.same b.key key then b.entries else bucket objs rest key

/-- File one more entry: last in the bucket of its key, or in a new last
bucket. -/
def insert (objs : Objects) : ScopeMap → Value → Value → ScopeMap
  | [], key, v => [⟨key, [v]⟩]
  | b :: rest, key, v =>
      if objs.same b.key key then { b with entries := b.entries ++ [v] } :: rest
      else b :: insert objs rest key v

/-- The keys, in order of first use. -/
def keys (m : ScopeMap) : List Value := m.map Bucket.key

/-- All entries, bucket after bucket. -/
def entries (m : ScopeMap) : List Value := m.flatMap Bucket.entries

/-- What an insertion does to the entries under each key. -/
theorem bucket_insert (objs : Objects) (m : ScopeMap) (key v k : Value) :
    (m.insert objs key v).bucket objs k
      = if objs.same key k then m.bucket objs key ++ [v] else m.bucket objs k := by
  induction m with
  | nil => simp [insert, bucket]
  | cons b rest ih =>
      by_cases hb : objs.same b.key key = true
      · have hk := Objects.same_congr hb k
        by_cases h : objs.same key k = true <;> simp [insert, bucket, hb, hk, h]
      · by_cases hbk : objs.same b.key k = true
        · have h : objs.same key k = false := by
            rw [Bool.eq_false_iff]
            intro h
            exact hb (Objects.same_trans hbk (by rw [Objects.same_comm]; exact h))
          simp [insert, bucket, hb, hbk, h]
        · simp [insert, bucket, hb, hbk, ih]

/-- An insertion adds its key unless there is one like it. -/
theorem keys_insert_eq (objs : Objects) (m : ScopeMap) (key v : Value) :
    (m.insert objs key v).keys
      = if m.keys.any (fun k => objs.same k key) then m.keys else m.keys ++ [key] := by
  induction m with
  | nil => rfl
  | cons b rest ih =>
      unfold insert
      unfold keys at ih ⊢
      by_cases hkey : objs.same b.key key = true
      · simp [hkey]
      · rw [if_neg hkey, List.map_cons, List.map_cons, ih, List.any_cons,
          Bool.eq_false_iff.mpr hkey, Bool.false_or]
        split <;> rfl

/-- What holds of the entries of every bucket holds of them after an insertion,
if it holds of the one bucket that gets the new entry. -/
theorem forall_insert {objs : Objects} {m : ScopeMap} {key v : Value}
    {P : List Value → Prop} (old : ∀ b ∈ m, P b.entries) (new : P (m.bucket objs key ++ [v])) :
    ∀ b ∈ m.insert objs key v, P b.entries := by
  induction m with
  | nil =>
      intro b hb
      rw [List.mem_singleton.mp hb]
      exact new
  | cons first rest ih =>
      intro b hb
      by_cases hkey : objs.same first.key key = true
      · rw [bucket, if_pos hkey] at new
        rw [insert, if_pos hkey] at hb
        rcases List.mem_cons.mp hb with rfl | hrest
        · exact new
        · exact old b (List.mem_cons_of_mem _ hrest)
      · rw [bucket, if_neg hkey] at new
        rw [insert, if_neg hkey] at hb
        rcases List.mem_cons.mp hb with rfl | hrest
        · exact old _ List.mem_cons_self
        · exact ih (fun b' hb' => old b' (List.mem_cons_of_mem _ hb')) new b hrest

/-- What holds of the entries of every bucket, and of no entries, holds of the
entries under any key. -/
theorem forall_bucket {objs : Objects} {m : ScopeMap} {P : List Value → Prop}
    (h : ∀ b ∈ m, P b.entries) (none : P []) (key : Value) : P (m.bucket objs key) := by
  induction m with
  | nil => exact none
  | cons first rest ih =>
      rw [bucket]
      split
      · exact h first List.mem_cons_self
      · exact ih fun b hb => h b (List.mem_cons_of_mem _ hb)

theorem bucket_of_sameKinds {objs objs' : Objects} (h : Objects.SameKinds objs objs')
    (m : ScopeMap) (key : Value) : m.bucket objs' key = m.bucket objs key := by
  induction m with
  | nil => rfl
  | cons first rest ih => simp only [bucket, h.same, ih]

theorem insert_of_sameKinds {objs objs' : Objects} (h : Objects.SameKinds objs objs')
    (m : ScopeMap) (key v : Value) : m.insert objs' key v = m.insert objs key v := by
  induction m with
  | nil => rfl
  | cons first rest ih => simp only [insert, h.same, ih]

theorem bucket_congr {objs : Objects} {k k' : Value} (h : objs.same k k' = true)
    (m : ScopeMap) : m.bucket objs k = m.bucket objs k' := by
  induction m with
  | nil => rfl
  | cons first rest ih =>
      have hkey : objs.same first.key k = objs.same first.key k' := by
        rw [Objects.same_comm, Objects.same_congr h, Objects.same_comm]
      simp only [bucket, hkey, ih]

end ScopeMap

/-! ## §2. Filters. -/

/-- Which entries a lookup wants: those with a given type and a given parent,
an absent one standing for any. -/
structure Filter where
  type : Value
  parent : Value
  deriving Repr

namespace Filter

/-- The filter that wants every entry. -/
def all : Filter := ⟨.absent, .absent⟩

/-- Whether a filter wants an entry: the condition of `_match`. -/
def accepts (objs : Objects) (f : Filter) (v : Value) : Bool :=
  (f.type.isAbsent || objs.equal (objs.typeOf v) f.type)
    && (f.parent.isAbsent || objs.equal (objs.parentOf v) f.parent)

@[simp] theorem accepts_all (objs : Objects) (v : Value) : all.accepts objs v = true := rfl

end Filter

/-- The entries under a key that a filter wants (`_match`). -/
def ScopeMap.matching (objs : Objects) (m : ScopeMap) (key : Value) (f : Filter) : List Value :=
  (m.bucket objs key).filter (f.accepts objs)

/-! ## §3. Clashes. -/

/-- Whether two symbols cannot be told apart: equal types and equal parents, as
`_find_clash` compares them. -/
def indistinguishable (objs : Objects) (a b : Value) : Bool :=
  objs.equal (objs.typeOf a) (objs.typeOf b) && objs.equal (objs.parentOf a) (objs.parentOf b)

/-- The entry of a bucket that speaks against a new one: the first of all where
duplicates are refused, otherwise the first that cannot be told apart from
it.  This is what `_find_clash` returns. -/
def rival? (objs : Objects) (allowsDuplicates : Bool) (bucket : List Value) (v : Value) :
    Option Value :=
  if allowsDuplicates then bucket.find? (fun entry => indistinguishable objs entry v)
  else bucket.head?

/-- The entry that an insertion clashes with, as `_insert` takes the answer of
`_find_clash`.  An absent value stored as an entry is found like any other, but
speaks against nothing. -/
def clash? (objs : Objects) (allowsDuplicates : Bool) (bucket : List Value) (v : Value) :
    Option Value :=
  (rival? objs allowsDuplicates bucket v).filter (fun entry => !entry.isAbsent)

end ScopeChain
