/-
  ScopeChain.Proofs.Rejections
  ────────────────────────────
  **WHICH INSERTIONS ARE REJECTED, AND WHAT THE REPORT SAYS.**

  An insertion should be rejected for a clash and for nothing else: under an
  equal key there is an entry, and either the policy of the node refuses
  duplicates or the entry is of the same type and has the same parent as the new
  symbol.  The report then names the earliest such entry, whatever others there
  are; attributes may have been assigned since, so there may be several.  An
  insertion that is not rejected files its symbol last under its key.

  Absent values stored as entries are left out, since they speak against nothing,
  and so are keys that are not numbers, which equal nothing.

      EarliestRival          — the entry to report
      rival?_eq_some_iff     — it is the entry that the search comes to
      Bucket.Refuses         — an entry speaks against a symbol
      FiledLast              — one entry more, last under its key
      insertion_rejects_exactly_clashes
-/
import ScopeChain.Proofs.Reinsertion

namespace ScopeChain

/-! ## §1. The search for a rival. -/

/-- The earliest of some entries that speaks against a symbol: the first of all where
duplicates are refused, otherwise the first with equal type and equal parent. -/
inductive EarliestRival (objs : Objects) (v : Value) : Bool → List Value → Value → Prop where
  | first (existing : Value) (later : List Value) :
      EarliestRival objs v false (existing :: later) existing
  | alike (earlier : List Value) {existing : Value} (later : List Value)
      (others : ∀ e ∈ earlier, indistinguishable objs e v = false)
      (like : indistinguishable objs existing v = true) :
      EarliestRival objs v true (earlier ++ existing :: later) existing

theorem EarliestRival.mem {objs : Objects} {v existing : Value} {allows : Bool}
    {entries : List Value} (h : EarliestRival objs v allows entries existing) :
    existing ∈ entries := by
  cases h with
  | first => exact List.mem_cons_self
  | alike => simp

/-- The search for a rival comes to the earliest. -/
theorem rival?_eq_some_iff {objs : Objects} {allows : Bool} {entries : List Value}
    {v existing : Value} :
    rival? objs allows entries v = some existing
      ↔ EarliestRival objs v allows entries existing := by
  unfold rival?
  constructor
  · intro h
    cases allows with
    | false =>
        obtain ⟨later, rfl⟩ := List.head?_eq_some_iff.mp h
        exact .first existing later
    | true =>
        obtain ⟨like, earlier, later, rfl, others⟩ := List.find?_eq_some_iff_append.mp h
        exact .alike earlier later (by simpa using others) like
  · intro h
    cases h with
    | first later => rfl
    | alike earlier later others like =>
        exact List.find?_eq_some_iff_append.mpr ⟨like, earlier, later, rfl, by simpa using others⟩

theorem rival?_nil (objs : Objects) (allows : Bool) (v : Value) :
    rival? objs allows [] v = none := by
  cases allows <;> rfl

/-- An entry of a bucket speaks against a symbol: duplicates are refused, or the entry has
equal type and equal parent. -/
def Bucket.Refuses (objs : Objects) (allows : Bool) (b : Bucket) (v : Value) : Prop :=
  ∃ e ∈ b.entries, allows = false
    ∨ objs.equal (objs.typeOf e) (objs.typeOf v) = true
      ∧ objs.equal (objs.parentOf e) (objs.parentOf v) = true

theorem exists_rival_iff {objs : Objects} {allows : Bool} {b : Bucket} {v : Value} :
    (∃ existing, rival? objs allows b.entries v = some existing)
      ↔ b.Refuses objs allows v := by
  unfold Bucket.Refuses rival?
  rw [← Option.isSome_iff_exists]
  cases allows with
  | false =>
      cases b.entries with
      | nil => simp
      | cons first rest => simp
  | true => simp [indistinguishable]

theorem EarliestRival.refuses {objs : Objects} {v existing : Value} {allows : Bool} {b : Bucket}
    (h : EarliestRival objs v allows b.entries existing) : b.Refuses objs allows v :=
  exists_rival_iff.mp ⟨existing, rival?_eq_some_iff.mpr h⟩

/-- Where no entry is absent, what the search comes to is the clash. -/
theorem clash?_eq_rival? {objs : Objects} {allows : Bool} {entries : List Value} {v : Value}
    (present : .absent ∉ entries) :
    clash? objs allows entries v = rival? objs allows entries v := by
  unfold clash?
  cases hrival : rival? objs allows entries v with
  | none => rfl
  | some e =>
      have hne : e.isAbsent ≠ true := by
        intro habsent
        rw [Value.isAbsent_iff] at habsent
        exact present (habsent ▸ (rival?_eq_some_iff.mp hrival).mem)
      simp [hne]

/-! ## §2. Equal keys. -/

/-- For a key that is no "not a number", the keys that equal it are those that are one
with it. -/
theorem Objects.equal_eq_same {objs : Objects} {k : Value} (number : isNaN k = false)
    (a : Value) : objs.equal a k = objs.same a k := by
  rw [equal_comm, equal, number, same_comm]
  simp

/-- The second scope is the first with a symbol filed under a key: at the end of the bucket
with an equal key, or in a new last bucket where there is none. -/
inductive FiledLast (objs : Objects) (k v : Value) : ScopeMap → ScopeMap → Prop where
  | appended (front : ScopeMap) {b : Bucket} (back : ScopeMap)
      (equal : objs.equal b.key k = true) :
      FiledLast objs k v (front ++ b :: back)
        (front ++ { b with entries := b.entries ++ [v] } :: back)
  | opened (m : ScopeMap) (fresh : ∀ b ∈ m, objs.equal b.key k = false) :
      FiledLast objs k v m (m ++ [⟨k, [v]⟩])

theorem filedLast_insert {objs : Objects} {k : Value} (number : Objects.isNaN k = false)
    (m : ScopeMap) (v : Value) : FiledLast objs k v m (m.insert objs k v) := by
  rcases ScopeMap.insert_cases objs m k v with
    ⟨front, b, back, hm, hkey, -, hinsert⟩ | ⟨hnew, -, hinsert⟩
  · rw [hinsert, hm]
    exact .appended front back ((Objects.equal_eq_same number b.key).trans hkey)
  · rw [hinsert]
    exact .opened m fun b hb => (Objects.equal_eq_same number b.key).trans (hnew b hb)

/-- The entries under a key are those of a bucket with an equal key, if there are any. -/
theorem ScopeMap.bucket_cases (objs : Objects) {k : Value} (number : Objects.isNaN k = false)
    (m : ScopeMap) :
    (∃ b ∈ m, objs.equal b.key k = true ∧ m.bucket objs k = b.entries)
      ∨ m.bucket objs k = [] := by
  rcases ScopeMap.insert_cases objs m k k with
    ⟨front, b, back, hm, hkey, hbucket, -⟩ | ⟨-, hbucket, -⟩
  · exact .inl ⟨b, by simp [hm], (Objects.equal_eq_same number b.key).trans hkey, hbucket⟩
  · exact .inr hbucket

namespace Store

/-! ## §3. Insertions. -/

variable {s : Store} {n : NodeId} {target : Target} {key value k : Value} {text : String}

/-- What an insertion is decided by, where no entry under an equal key is absent: the
earliest entry that speaks against the symbol, in a bucket with an equal key, or there is
no such bucket with any. -/
theorem Keyed.clashAt_cases (keyed : s.Keyed) (number : Objects.isNaN k = false)
    (present : ∀ b ∈ s.scopes.read (s.targetScope n target),
      s.objects.equal b.key k = true → .absent ∉ b.entries) (v : Value) :
    let m := s.scopes.read (s.targetScope n target)
    let allows := s.allowsDuplicates n
    (∃ b ∈ m, ∃ existing, s.objects.equal b.key k = true
        ∧ EarliestRival s.objects v allows b.entries existing
        ∧ s.clashAt n target k v = some existing)
      ∨ (∀ b ∈ m, s.objects.equal b.key k = true → ¬ b.Refuses s.objects allows v)
        ∧ s.clashAt n target k v = none := by
  intro m allows
  unfold clashAt bucketAt
  rcases ScopeMap.bucket_cases s.objects number m with ⟨b, hb, hkey, hbucket⟩ | hbucket
  · rw [hbucket, clash?_eq_rival? (present b hb hkey)]
    cases hrival : rival? s.objects allows b.entries v with
    | some existing => exact .inl ⟨b, hb, existing, hkey, rival?_eq_some_iff.mp hrival, rfl⟩
    | none =>
        refine .inr ⟨?_, rfl⟩
        -- a bucket with an equal key has the entries of this one
        intro b' hb' hkey' hrefuses
        obtain ⟨existing, hexisting⟩ := exists_rival_iff.mpr hrefuses
        have hsame := (keyed _).bucket_eq hb' (Objects.same_of_equal hkey')
        rw [← hsame, hbucket, hrival] at hexisting
        cases hexisting
  · refine .inr ⟨?_, ?_⟩
    · rintro b' hb' hkey' ⟨e, he, -⟩
      rw [← (keyed _).bucket_eq hb' (Objects.same_of_equal hkey'), hbucket] at he
      cases he
    · rw [hbucket, clash?_eq_rival? List.not_mem_nil, rival?_nil]

/-- **Insertions are rejected for clashes, and for nothing else.**  In a reachable store
insert a symbol at any node, under a key that can be derived and used, is no "not a number"
and has a text, where no entry under an equal key is absent.

The insertion is rejected if and only if some bucket of the scope it goes to has an equal key
and an entry that speaks against the symbol.  Then it changes nothing, and the report gives
the key just derived, the earliest entry of the bucket that speaks against the symbol, and
the word for the scope that was meant, however deep the node is.  Otherwise it succeeds, and
all it does is to file the symbol last under its key. -/
theorem insertion_rejects_exactly_clashes (hs : s.Reachable) (hn : n < s.nodes.length)
    (hk : s.objects.keyOf (s.node n).keyFunction key = .ok k)
    (usable : Objects.changeable? k = none) (number : Objects.isNaN k = false)
    (htext : s.objects.display k = .ok text)
    (present : ∀ b ∈ s.scopes.read (s.targetScope n target),
      s.objects.equal b.key k = true → .absent ∉ b.entries) :
    let i := s.targetScope n target
    let m := s.scopes.read i
    let v := storedSymbol key value
    let reply := s.perform n (.insert target key value)
    let refused := ∃ b ∈ m, s.objects.equal b.key k = true
      ∧ b.Refuses s.objects (s.allowsDuplicates n) v
    ((∃ report, reply.outcome = .error (.duplicate report)) ↔ refused)
      ∧ (refused → reply.store = s ∧ ∃ b ∈ m, ∃ existing, s.objects.equal b.key k = true
          ∧ EarliestRival s.objects v (s.allowsDuplicates n) b.entries existing
          ∧ reply.outcome = .error (.duplicate
              ⟨k, existing, .str target.word, clashMessage text target.word⟩))
      ∧ (¬ refused → reply.outcome = .ok .done
          ∧ ∃ m', FiledLast s.objects k v m m' ∧ reply.store.scopes.read i = m'
            ∧ reply.store = { s with scopes := s.scopes.write i m' }) := by
  intro i m v reply refused
  have address : s.addressAt n key = .ok k := by
    rw [addressAt, Objects.addressOf, hk]
    simp only [usable]
  have hstore : reply.store = (s.insert n target key value).store := perform_insert_store s n _ _ _
  rcases hs.keyed.clashAt_cases number present v with
    ⟨b, hb, existing, hkey, hrival, hclash⟩ | ⟨hnone, hclash⟩
  · obtain ⟨hsame, hfault⟩ := insert_of_clash address htext hclash
    have houtcome := perform_insert_error_iff.mpr hfault
    have hrefused : refused := ⟨b, hb, hkey, hrival.refuses⟩
    exact ⟨⟨fun _ => hrefused, fun _ => ⟨_, houtcome⟩⟩,
      fun _ => ⟨hstore.trans hsame, b, hb, existing, hkey, hrival, houtcome⟩,
      fun hnot => absurd hrefused hnot⟩
  · obtain ⟨hfiled, hfault⟩ := insert_of_no_clash address htext hclash
    have houtcome : reply.outcome = .ok .done :=
      perform_insert_done_iff.mpr (insert_fault_eq_none_iff.mp hfault)
    have hnot : ¬ refused := by
      rintro ⟨b, hb, hkey, hrefuses⟩
      exact hnone b hb hkey hrefuses
    have hread : reply.store.scopes.read i = m.insert s.objects k v := by
      rw [hstore, hfiled, read_file, if_pos ⟨rfl, hs.linked.targetScope_lt hn target⟩]
    refine ⟨⟨?_, fun hrefused => absurd hrefused hnot⟩, fun hrefused => absurd hrefused hnot,
      fun _ => ⟨houtcome, _, filedLast_insert number m v, hread, hstore.trans hfiled⟩⟩
    rintro ⟨report, hreport⟩
    rw [houtcome] at hreport
    cases hreport

/-- Three symbols of one name. -/
def namesakes : Objects :=
  [.declare (.str "x") (some (.str "int")) none none,
    .declare (.str "x") (some (.str "list")) none none,
    .declare (.str "x") (some (.str "int")) none none]

/-- Two of them are in a table; the second has got the type of the first since. -/
def retypedTable : Store :=
  let first := ((Store.empty namesakes false).create KeyFunction.byDefault (.bool true)).insert 0
    .current (.object 0) .absent
  let second := first.store.insert 0 .current (.object 1) .absent
  second.store.assign 1 .type (.str "int")

theorem retypedTable_reachable : retypedTable.Reachable := by
  have there : (0 : Nat) < 1 := by decide
  refine ⟨namesakes, false, [.create KeyFunction.byDefault (.bool true),
    .call 0 (.insert .current (.object 0) .absent),
    .call 0 (.insert .current (.object 1) .absent), .assign 1 .type (.str "int")], ?_⟩
  exact .cons trivial (.cons there (.cons there (.cons trivial (.nil _))))

/-- Two entries speak against the third symbol; the report names the earlier one. -/
theorem insertion_rejects_exactly_clashes_retyped :
    let reply := retypedTable.perform 0 (.insert .current (.object 2) .absent)
    retypedTable.Reachable ∧ 0 < retypedTable.nodes.length
      ∧ retypedTable.here 0 = [⟨.str "x", [.object 0, .object 1]⟩]
      ∧ reply.outcome = .error (.duplicate ⟨.str "x", .object 0, .str "local",
          "Symbol x already found in local scope"⟩)
      ∧ reply.store = retypedTable := by
  intro reply
  have hn : 0 < retypedTable.nodes.length := by decide
  have entries : retypedTable.here 0 = [⟨.str "x", [.object 0, .object 1]⟩] := rfl
  have key : retypedTable.objects.keyOf (retypedTable.node 0).keyFunction (.object 2)
      = .ok (.str "x") := rfl
  have shown : retypedTable.objects.display (.str "x") = .ok "x" := rfl
  have present : ∀ b ∈ retypedTable.here 0,
      retypedTable.objects.equal b.key (.str "x") = true → .absent ∉ b.entries := by
    rw [entries]
    intro b hb _
    rw [List.mem_singleton.mp hb]
    simp
  have rejected : reply.outcome = .error (.duplicate ⟨.str "x", .object 0, .str "local",
      "Symbol x already found in local scope"⟩) := rfl
  obtain ⟨exactly, unchanged, -⟩ := @insertion_rejects_exactly_clashes retypedTable 0 .current
    (.object 2) .absent (.str "x") "x" retypedTable_reachable hn key rfl rfl shown present
  exact ⟨retypedTable_reachable, hn, entries, rejected, (unchanged (exactly.mp ⟨_, rejected⟩)).1⟩

end Store

end ScopeChain
