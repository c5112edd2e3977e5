/-
  ScopeChain.Proofs.Reinsertion
  ─────────────────────────────
  **INSERTING THE SAME SYMBOL AGAIN.**

  An accepted insertion, repeated at once, should be rejected: the symbol just
  stored cannot be told apart from itself.  It is, unless an ABSENT VALUE stands
  in the way.  The search for a rival hands back the entry that it found, and an
  absent one reads as nothing found; so an absent value speaks against nothing,
  neither against a second one nor, where it comes first, against anything else
  in its bucket.

      insert_of_clash        — a clash is reported and changes nothing
      insert_of_no_clash     — without a clash the symbol is filed
      repetition_outcome     — a repetition, rejected or filed
      refusal_outcome        — a key that is there, where duplicates are refused
      reinsertion_outcome    — exactly when a repetition is rejected
      absent_inserted_twice  — an absent value is filed twice
-/
import Mathlib.Tactic.ByContra
import ScopeChain.Proofs.Buckets
import ScopeChain.Proofs.Linking

namespace ScopeChain

/-! ## §1. Rivals after an insertion. -/

/-- What an insertion stores: the value given, or else the key. -/
def storedSymbol (key value : Value) : Value := if value.isAbsent then key else value

theorem indistinguishable_self {objs : Objects} {v : Value}
    (htype : objs.equal (objs.typeOf v) (objs.typeOf v) = true)
    (hparent : objs.equal (objs.parentOf v) (objs.parentOf v) = true) :
    indistinguishable objs v v = true := by
  rw [indistinguishable, htype, hparent]
  rfl

/-- In a bucket that ends with a symbol the symbol itself is the last resort of
the search for its rival, whatever the policy. -/
theorem rival?_concat {objs : Objects} {v : Value} (hself : indistinguishable objs v v = true)
    (allows : Bool) (bucket : List Value) :
    rival? objs allows (bucket ++ [v]) v = (rival? objs allows bucket v).or (some v) := by
  -- a strict search stops at the first entry, a lenient one at the first likeness
  cases allows with
  | false =>
      cases bucket with
      | nil => rfl
      | cons first rest => rfl
  | true =>
      simp only [rival?, if_true]
      rw [List.find?_append]
      simp [hself]

theorem clash?_eq_some_iff {objs : Objects} {allows : Bool} {bucket : List Value}
    {v existing : Value} :
    clash? objs allows bucket v = some existing
      ↔ rival? objs allows bucket v = some existing ∧ existing ≠ .absent := by
  rw [clash?, Option.filter_eq_some_iff]
  simp [← Value.isAbsent_iff]

/-- There is no clash where the search finds nothing, or an absent value. -/
theorem clash?_eq_none_iff {objs : Objects} {allows : Bool} {bucket : List Value} {v : Value} :
    clash? objs allows bucket v = none
      ↔ rival? objs allows bucket v = none ∨ rival? objs allows bucket v = some .absent := by
  rw [clash?]
  cases rival? objs allows bucket v with
  | none => simp
  | some found => cases found <;> simp [Value.isAbsent]

/-- A second copy clashes with the first, where the first met no rival and is no
absent value. -/
theorem clash?_concat_of_no_rival {objs : Objects} {v : Value}
    (hself : indistinguishable objs v v = true) {allows : Bool} {bucket : List Value}
    (hv : v ≠ .absent) (hnone : rival? objs allows bucket v = none) :
    clash? objs allows (bucket ++ [v]) v = some v := by
  rw [clash?_eq_some_iff, rival?_concat hself, hnone]
  exact ⟨rfl, hv⟩

/-- A second copy clashes with nothing, where the first was absent itself or came
past an absent value. -/
theorem clash?_concat_of_absent {objs : Objects} {v : Value}
    (hself : indistinguishable objs v v = true) {allows : Bool} {bucket : List Value}
    (accepted : clash? objs allows bucket v = none)
    (habsent : ¬ (v ≠ .absent ∧ rival? objs allows bucket v ≠ some .absent)) :
    clash? objs allows (bucket ++ [v]) v = none := by
  rw [clash?_eq_none_iff, rival?_concat hself]
  -- the search of the second insertion ends at an absent value, old or just stored
  rcases clash?_eq_none_iff.mp accepted with hnone | hfound
  · have hv : v = .absent := by
      by_contra hv
      exact habsent ⟨hv, by simp [hnone]⟩
    rw [hnone, hv]
    exact .inr rfl
  · rw [hfound]
    exact .inr rfl

/-! ## §2. Insertions whose key has a text. -/

namespace Store

/-- The entries that an insertion is decided by. -/
def bucketAt (s : Store) (n : NodeId) (target : Target) (k : Value) : List Value :=
  (s.scopes.read (s.targetScope n target)).bucket s.objects k

/-- The clash of an insertion at a node. -/
def clashAt (s : Store) (n : NodeId) (target : Target) (k symbol : Value) : Option Value :=
  clash? s.objects (s.allowsDuplicates n) (s.bucketAt n target k) symbol

theorem filing_of_address {s : Store} {n : NodeId} {key k : Value}
    (hk : s.addressAt n key = .ok k) (target : Target) (value : Value) :
    s.filing n target key value
      = .ok ⟨k, storedSymbol key value, s.clashAt n target k (storedSymbol key value)⟩ := by
  rw [filing, hk]
  rfl

/-- What an insertion comes to, where it comes to a decision. -/
theorem of_filing_eq_ok {s : Store} {n : NodeId} {target : Target} {key value : Value}
    {f : Filing} (h : s.filing n target key value = .ok f) :
    s.addressAt n key = .ok f.key ∧ f.symbol = storedSymbol key value
      ∧ f.clash = s.clashAt n target f.key f.symbol := by
  cases ha : s.addressAt n key with
  | error fault =>
      rw [filing, ha] at h
      cases h
  | ok k =>
      rw [filing_of_address ha] at h
      injection h with h
      subst h
      exact ⟨rfl, rfl, rfl⟩

variable {s : Store} {n : NodeId} {target : Target} {key value k : Value} {text : String}

/-- A clash is reported with the key just derived, and changes nothing. -/
theorem insert_of_clash {existing : Value} (hk : s.addressAt n key = .ok k)
    (htext : s.objects.display k = .ok text)
    (hclash : s.clashAt n target k (storedSymbol key value) = some existing) :
    (s.insert n target key value).store = s
      ∧ (s.insert n target key value).fault
          = some (.duplicate ⟨k, existing, .str target.word, clashMessage text target.word⟩) := by
  have hf := filing_of_address hk target value
  refine ⟨insert_store_of_clash hf hclash, ?_⟩
  rw [insert, hf]
  simp only [hclash, insertionRecord, htext]
  split
  next hrecord => split at hrecord <;> cases hrecord
  next => simp only [Option.map_some, rejection, htext]

/-- Without a clash the symbol is filed, and nothing fails. -/
theorem insert_of_no_clash (hk : s.addressAt n key = .ok k)
    (htext : s.objects.display k = .ok text)
    (hclash : s.clashAt n target k (storedSymbol key value) = none) :
    (s.insert n target key value).store
        = s.file (s.targetScope n target) k (storedSymbol key value)
      ∧ (s.insert n target key value).fault = none := by
  have hf := filing_of_address hk target value
  refine ⟨insert_store_of_accepted hf hclash, ?_⟩
  rw [insert, hf]
  simp only [hclash, insertionRecord, htext]
  split
  next hrecord => split at hrecord <;> cases hrecord
  next => rfl

/-- An insertion that fails in nothing has derived a usable key and met no
clash. -/
theorem address_of_accepted (h : (s.insert n target key value).fault = none)
    (hk : s.objects.keyOf (s.node n).keyFunction key = .ok k) :
    s.addressAt n key = .ok k := by
  cases hf : s.filing n target key value with
  | error fault =>
      rw [insert_of_undecided hf] at h
      cases h
  | ok f =>
      have husable := changeable?_of_filing hf
      cases ha : s.addressAt n key with
      | error fault =>
          rw [filing, ha] at hf
          cases hf
      | ok k' =>
          rw [addressAt, Objects.addressOf, hk] at ha
          simp only at ha
          split at ha
          · cases ha
          · exact ha.symm

/-- A key that is one with a key in a scope is usable. -/
theorem address_of_mem_keys (h : s.Filled)
    (hk : s.objects.keyOf (s.node n).keyFunction key = .ok k) {i : ScopeId} {k' : Value}
    (hmem : k' ∈ (s.scopes.read i).keys) (hsame : s.objects.same k' k = true) :
    s.addressAt n key = .ok k := by
  obtain ⟨b, hb, hkey, -⟩ := ScopeMap.exists_bucket_of_mem_keys hmem hsame
  have husable := Objects.changeable?_eq_none_of_same hkey (h i b hb).usable
  rw [addressAt, Objects.addressOf, hk]
  simp only [husable]

/-- After a filing the bucket it went to ends with the symbol. -/
theorem bucketAt_file (h : s.Linked) (hn : n < s.nodes.length) (symbol : Value) :
    (s.file (s.targetScope n target) k symbol).bucketAt n target k
      = s.bucketAt n target k ++ [symbol] := by
  have hlt := h.targetScope_lt hn target
  rw [bucketAt, targetScope_file, read_file, if_pos ⟨rfl, hlt⟩]
  show ScopeMap.bucket s.objects _ k = _
  rw [ScopeMap.bucket_insert, Objects.same_refl, if_pos rfl]
  rfl

/-- An accepted insertion has met no clash and filed its symbol. -/
theorem of_insert_accepted (hk : s.objects.keyOf (s.node n).keyFunction key = .ok k)
    (htext : s.objects.display k = .ok text)
    (accepted : (s.insert n target key value).fault = none) :
    s.addressAt n key = .ok k ∧ s.clashAt n target k (storedSymbol key value) = none
      ∧ (s.insert n target key value).store
          = s.file (s.targetScope n target) k (storedSymbol key value) := by
  have ha : s.addressAt n key = .ok k := address_of_accepted accepted hk
  have hclash : s.clashAt n target k (storedSymbol key value) = none := by
    cases hclash : s.clashAt n target k (storedSymbol key value) with
    | none => rfl
    | some existing =>
        have hfault := (insert_of_clash ha htext hclash).2
        exact absurd (accepted.symm.trans hfault) (by simp)
  exact ⟨ha, hclash, (insert_of_no_clash ha htext hclash).1⟩

/-! ## §3. Repetitions. -/

/-- **A repetition is rejected by the symbol just stored**, unless this is an absent value or
the search came to an absent entry before it; then the symbol is stored once more. -/
theorem repetition_outcome (h : s.Linked) (hn : n < s.nodes.length)
    (hk : s.objects.keyOf (s.node n).keyFunction key = .ok k)
    (htext : s.objects.display k = .ok text)
    (hself : indistinguishable s.objects (storedSymbol key value) (storedSymbol key value) = true)
    (accepted : (s.insert n target key value).fault = none) :
    let v := storedSymbol key value
    let once := (s.insert n target key value).store
    let again := once.insert n target key value
    let rival := rival? s.objects (s.allowsDuplicates n) (s.bucketAt n target k) v
    (v ≠ .absent ∧ rival ≠ some .absent)
        ∧ again.store = once
        ∧ again.fault = some (.duplicate ⟨k, v, .str target.word, clashMessage text target.word⟩)
      ∨ ¬ (v ≠ .absent ∧ rival ≠ some .absent)
        ∧ again.store = once.file (s.targetScope n target) k v ∧ again.fault = none := by
  intro v once again rival
  obtain ⟨ha, hclash, hstore⟩ := of_insert_accepted hk htext accepted
  -- the filing changes the bucket that decides the repetition, and nothing else it reads
  have hstore : once = s.file (s.targetScope n target) k v := hstore
  have ha' : once.addressAt n key = .ok k := by
    rw [hstore]
    exact ha
  have htext' : once.objects.display k = .ok text := by
    rw [hstore]
    exact htext
  have htarget : once.targetScope n target = s.targetScope n target := by
    rw [hstore]
    cases target <;> rfl
  have hclash' : once.clashAt n target k v
      = clash? s.objects (s.allowsDuplicates n) (s.bucketAt n target k ++ [v]) v := by
    rw [hstore, clashAt, bucketAt_file h hn]
    rfl
  by_cases hgood : v ≠ .absent ∧ rival ≠ some .absent
  · left
    have hnone : rival = none := (clash?_eq_none_iff.mp hclash).resolve_right hgood.2
    rw [clash?_concat_of_no_rival hself hgood.1 hnone] at hclash'
    exact ⟨hgood, insert_of_clash ha' htext' hclash'⟩
  · right
    rw [clash?_concat_of_absent hself hclash hgood] at hclash'
    obtain ⟨hagain, hfault⟩ := insert_of_no_clash ha' htext' hclash'
    exact ⟨hgood, by rw [← htarget]; exact hagain, hfault⟩

/-- **Where duplicates are refused, a key that is there is rejected by its first entry**, unless
this is an absent value; then the symbol is filed. -/
theorem refusal_outcome (h : s.Filled)
    (hk : s.objects.keyOf (s.node n).keyFunction key = .ok k)
    (htext : s.objects.display k = .ok text) (hstrict : s.allowsDuplicates n = false)
    {k' : Value} (hmem : k' ∈ (s.scopes.read (s.targetScope n target)).keys)
    (hequal : s.objects.equal k k' = true) :
    let once := s.insert n target key value
    ∃ first, (s.bucketAt n target k).head? = some first
      ∧ (first ≠ .absent ∧ once.store = s
          ∧ once.fault
            = some (.duplicate ⟨k, first, .str target.word, clashMessage text target.word⟩)
        ∨ first = .absent
          ∧ once.store = s.file (s.targetScope n target) k (storedSymbol key value)
          ∧ once.fault = none) := by
  intro once
  have hsame : s.objects.same k' k = true := by
    rw [Objects.same_comm]
    exact Objects.same_of_equal hequal
  have ha := address_of_mem_keys h hk hmem hsame
  -- the bucket of a present key is not empty, and a strict search takes its first entry
  obtain ⟨b, hb, -, hentries⟩ := ScopeMap.exists_bucket_of_mem_keys hmem hsame
  obtain ⟨first, rest, hfirst⟩ := List.exists_cons_of_ne_nil (h _ b hb).nonempty
  have hbucket : s.bucketAt n target k = first :: rest := hentries.trans hfirst
  have hrival : rival? s.objects (s.allowsDuplicates n) (s.bucketAt n target k)
      (storedSymbol key value) = some first := by
    rw [hbucket, hstrict]
    rfl
  refine ⟨first, by rw [hbucket]; rfl, ?_⟩
  by_cases habsent : first = .absent
  · right
    have hclash : s.clashAt n target k (storedSymbol key value) = none :=
      clash?_eq_none_iff.mpr (.inr (habsent ▸ hrival))
    exact ⟨habsent, insert_of_no_clash ha htext hclash⟩
  · left
    have hclash : s.clashAt n target k (storedSymbol key value) = some first :=
      clash?_eq_some_iff.mpr ⟨hrival, habsent⟩
    exact ⟨habsent, insert_of_clash ha htext hclash⟩

/-- **Exactly when a repeated insertion is rejected.**  Of an accepted insertion
the repetition is rejected, by the symbol just stored, if that symbol is no
absent value and the search had not come to an absent entry before; otherwise
it is accepted and the symbol stored once more.  And where the policy refuses
duplicates, an insertion under a key that is there is rejected by the first
entry under it, unless that entry is an absent value; then it is accepted. -/
theorem reinsertion_outcome {s : Store} (hs : s.Reachable) {n : NodeId}
    (hn : n < s.nodes.length) (target : Target) {key value k : Value} {text : String}
    (hk : s.objects.keyOf (s.node n).keyFunction key = .ok k)
    (htext : s.objects.display k = .ok text)
    (htype : s.objects.equal (s.objects.typeOf (storedSymbol key value))
      (s.objects.typeOf (storedSymbol key value)) = true)
    (hparent : s.objects.equal (s.objects.parentOf (storedSymbol key value))
      (s.objects.parentOf (storedSymbol key value)) = true) :
    let v := storedSymbol key value
    let once := s.insert n target key value
    let again := once.store.insert n target key value
    let report (existing : Value) : Fault :=
      .duplicate ⟨k, existing, .str target.word, clashMessage text target.word⟩
    let rival := rival? s.objects (s.allowsDuplicates n) (s.bucketAt n target k) v
    (once.fault = none →
        (v ≠ .absent ∧ rival ≠ some .absent)
            ∧ again.store = once.store ∧ again.fault = some (report v)
          ∨ ¬ (v ≠ .absent ∧ rival ≠ some .absent)
            ∧ again.store = once.store.file (s.targetScope n target) k v
            ∧ again.fault = none)
      ∧ (s.allowsDuplicates n = false →
          ∀ k' ∈ (s.scopes.read (s.targetScope n target)).keys, s.objects.equal k k' = true →
            ∃ first, (s.bucketAt n target k).head? = some first
              ∧ (first ≠ .absent ∧ once.store = s ∧ once.fault = some (report first)
                ∨ first = .absent ∧ once.store = s.file (s.targetScope n target) k v
                  ∧ once.fault = none)) := by
  intro v once again report rival
  have hself := indistinguishable_self htype hparent
  refine ⟨fun accepted => ?_, fun hstrict k' hmem hequal => ?_⟩
  · exact repetition_outcome hs.linked hn hk htext hself accepted
  · exact refusal_outcome hs.filled hk htext hstrict hmem hequal

/-- A table that was just made, with the table's own rule for keys. -/
def freshTable (policy : Bool) : Store :=
  (Store.empty [] false).create KeyFunction.byDefault (.bool policy)

theorem freshTable_reachable (policy : Bool) : (freshTable policy).Reachable :=
  ⟨[], false, [.create KeyFunction.byDefault (.bool policy)], .cons trivial (.nil _)⟩

/-- A string inserted twice is rejected the second time. -/
theorem reinsertion_outcome_string :
    let once := (freshTable true).insert 0 .current (.str "x") .absent
    let again := once.store.insert 0 .current (.str "x") .absent
    once.fault = none ∧ again.store = once.store
      ∧ again.fault = some (.duplicate
          ⟨.str "x", .str "x", .str "local", "Symbol x already found in local scope"⟩) := by
  intro once again
  have hn : 0 < (freshTable true).nodes.length := by decide
  have accepted : once.fault = none := rfl
  have houtcome := (@reinsertion_outcome (freshTable true) (freshTable_reachable true) 0 hn
    .current (.str "x") .absent (.str "x") "x" rfl rfl (by decide) (by decide)).1 accepted
  rcases houtcome with ⟨-, hstore, hfault⟩ | ⟨hbad, -, -⟩
  · exact ⟨accepted, hstore, hfault⟩
  · refine absurd ⟨?_, ?_⟩ hbad
    · exact fun h => by cases h
    · exact fun h => by cases h

/-- **An absent value is filed twice**, even where every duplicate is refused. -/
theorem absent_inserted_twice :
    let s := freshTable false
    let once := s.insert 0 .current .absent .absent
    let again := once.store.insert 0 .current .absent .absent
    s.Reachable ∧ s.allowsDuplicates 0 = false
      ∧ s.objects.keyOf (s.node 0).keyFunction .absent = .ok (.str "None")
      ∧ s.objects.display (.str "None") = .ok "None"
      ∧ s.objects.equal (.str "None") (.str "None") = true
      ∧ s.objects.equal (s.objects.typeOf .absent) (s.objects.typeOf .absent) = true
      ∧ s.objects.equal (s.objects.parentOf .absent) (s.objects.parentOf .absent) = true
      ∧ once.fault = none ∧ again.fault = none
      ∧ again.store.here 0 = [⟨.str "None", [.absent, .absent]⟩] := by
  intro s once again
  exact ⟨freshTable_reachable false, by decide, rfl, rfl, by decide, by decide, by decide,
    rfl, rfl, rfl⟩

end Store

end ScopeChain
