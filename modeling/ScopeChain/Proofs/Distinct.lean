/-
  ScopeChain.Proofs.Distinct
  ──────────────────────────
  **NO TWO ENTRIES OF A BUCKET ARE ALIKE.**

  An insertion is refused where an entry under its key has an equal type and an
  equal parent, and under a strict policy where there is any entry at all.  So
  whatever the policies of the nodes that fill a scope, and however they are
  switched meanwhile, two entries under one key differ in type or in parent.
  Two things can undo this: an absent value, which as an entry speaks against
  nothing, and a type or parent assigned to an object that is an entry already.
  An action that does neither is ORDERLY.

      Objects.SameMarks      — a value keeps its type and parent
      DistinctEntries        — entries that differ in type or parent
      DistinctEntries.concat — an accepted symbol is one more of them
      Store.Orderly          — an action that spoils nothing
      buckets_distinct       — every bucket after a run of orderly actions

  Equality is not in question: it goes by the kinds of objects, which no action
  changes (`Objects.SameKinds.equal`).
-/
import ScopeChain.Proofs.Growth
import ScopeChain.Proofs.Reinsertion

namespace ScopeChain

/-! ## §1. Marks. -/

/-- A value has the type and the parent that it had. -/
structure Objects.SameMarks (objs objs' : Objects) (v : Value) : Prop where
  type : objs'.same (objs'.typeOf v) (objs.typeOf v) = true
  parent : objs'.same (objs'.parentOf v) (objs.parentOf v) = true

namespace Objects

theorem SameMarks.refl (objs : Objects) (v : Value) : SameMarks objs objs v :=
  ⟨same_refl _ _, same_refl _ _⟩

/-- An attribute that is neither type nor parent can be assigned at will. -/
theorem sameMarks_assign (objs : Objects) (id : ObjectId) {attr : Attribute} (value : Value)
    (htype : attr ≠ .type) (hparent : attr ≠ .parent) (v : Value) :
    SameMarks objs (objs.assign id attr value) v := by
  have keeps : ∀ other, attr ≠ other →
      (objs.assign id attr value).attr? other v = objs.attr? other v := by
    intro other hne
    cases v with
    | object x =>
        simp only [attr?, object_assign]
        split
        · exact SymbolObject.get_set_of_ne _ _ hne.symm
        · rfl
    | _ => rfl
  refine ⟨?_, ?_⟩
  · rw [typeOf, typeOf, keeps .type htype]
    exact same_refl _ _
  · rw [parentOf, parentOf, keeps .parent hparent]
    exact same_refl _ _

end Objects

/-- Where two values keep their marks they stay as alike as they were. -/
theorem indistinguishable_of_sameMarks {objs objs' : Objects} {x y : Value}
    (kinds : objs.SameKinds objs') (hx : objs.SameMarks objs' x)
    (hy : objs.SameMarks objs' y) : indistinguishable objs' x y = indistinguishable objs x y := by
  rw [indistinguishable, Objects.equal_congr hx.type hy.type,
    Objects.equal_congr hx.parent hy.parent, kinds.equal, kinds.equal]
  rfl

/-! ## §2. Entries that can be told apart. -/

/-- Entries of which no two have equal types and equal parents, and none is
absent. -/
structure DistinctEntries (objs : Objects) (entries : List Value) : Prop where
  apart : entries.Pairwise fun x y => indistinguishable objs x y = false
  present : Value.absent ∉ entries

/-- Entries stay distinct while objects keep their kinds and the entries their
marks. -/
theorem DistinctEntries.of_sameMarks {objs objs' : Objects} {entries : List Value}
    (h : DistinctEntries objs entries) (kinds : objs.SameKinds objs')
    (marks : ∀ v ∈ entries, objs.SameMarks objs' v) : DistinctEntries objs' entries := by
  refine ⟨h.apart.imp_of_mem ?_, h.present⟩
  intro x y hx hy hxy
  rw [indistinguishable_of_sameMarks kinds (marks x hx) (marks y hy)]
  exact hxy

theorem DistinctEntries.nil (objs : Objects) : DistinctEntries objs [] :=
  ⟨.nil, by simp⟩

/-- A rival is always an entry of the bucket. -/
theorem mem_of_rival? {objs : Objects} {allows : Bool} {bucket : List Value} {v entry : Value}
    (h : rival? objs allows bucket v = some entry) : entry ∈ bucket := by
  unfold rival? at h
  split at h
  · exact List.mem_of_find?_eq_some h
  · exact List.mem_of_head? h

/-- Where the search finds nothing the symbol is like no entry, whatever the
policy. -/
theorem indistinguishable_of_no_rival {objs : Objects} {allows : Bool} {bucket : List Value}
    {v : Value} (h : rival? objs allows bucket v = none) :
    ∀ entry ∈ bucket, indistinguishable objs entry v = false := by
  unfold rival? at h
  split at h
  · intro entry hentry
    simpa using List.find?_eq_none.mp h entry hentry
  · -- a strict search finds nothing in an empty bucket only
    rw [List.head?_eq_none_iff.mp h]
    intro entry hentry
    cases hentry

/-- **An accepted symbol can be told apart from every entry** it comes to. -/
theorem DistinctEntries.concat {objs : Objects} {allows : Bool} {entries : List Value}
    {v : Value} (h : DistinctEntries objs entries) (hv : v ≠ .absent)
    (accepted : clash? objs allows entries v = none) :
    DistinctEntries objs (entries ++ [v]) := by
  -- no entry is absent, so no clash means that there is no rival
  have hnone : rival? objs allows entries v = none := by
    rcases clash?_eq_none_iff.mp accepted with hnone | hfound
    · exact hnone
    · exact absurd (mem_of_rival? hfound) h.present
  -- between old entries nothing changes; what is new is the symbol against each of them
  refine ⟨?_, ?_⟩
  · rw [List.pairwise_append]
    refine ⟨h.apart, List.pairwise_singleton _ _, ?_⟩
    intro entry hentry w hw
    rw [List.mem_singleton.mp hw]
    exact indistinguishable_of_no_rival hnone entry hentry
  · intro habsent
    rcases List.mem_append.mp habsent with hold | hnew
    · exact h.present hold
    · exact hv (List.mem_singleton.mp hnew).symm

/-! ## §3. Orderly actions. -/

namespace Store

/-- An action that inserts no absent value, and assigns no type and no parent of
an object that is an entry of some scope, unless to what it is already. -/
structure Orderly (s : Store) (a : Action) : Prop where
  present : ∀ n target, a ≠ .call n (.insert target .absent .absent)
  marks : ∀ i, ∀ v ∈ (s.scopes.read i).entries,
    s.objects.SameMarks (s.act a).store.objects v

/-- The entries of each bucket of each scope can be told apart. -/
def Distinct (s : Store) : Prop :=
  ∀ i, ∀ b ∈ s.scopes.read i, DistinctEntries s.objects b.entries

/-- A bucket is found by its key, which need not be the key as it was first written.
-/
theorem Distinct.bucket {s : Store} (h : s.Distinct) (i : ScopeId) (key : Value) :
    DistinctEntries s.objects ((s.scopes.read i).bucket s.objects key) :=
  ScopeMap.forall_bucket (h i) (.nil s.objects) key

/-- What is stored is absent only where key and value both are. -/
theorem storedSymbol_ne_absent {key value : Value} (h : ¬ (key = .absent ∧ value = .absent)) :
    storedSymbol key value ≠ .absent := by
  intro hsymbol
  unfold storedSymbol at hsymbol
  split at hsymbol
  next habsent => exact h ⟨hsymbol, (Value.isAbsent_iff value).mp habsent⟩
  next hpresent => exact hpresent ((Value.isAbsent_iff value).mpr hsymbol)

/-- The step: an orderly action leaves distinct entries distinct. -/
theorem Orderly.distinct {s : Store} {a : Action} (orderly : s.Orderly a) (h : s.Distinct) :
    (s.act a).store.Distinct := by
  obtain ⟨present, marks⟩ := orderly
  have effect := act_entriesEffect s a
  generalize (s.act a).store = t at marks effect ⊢
  -- what was there before is as distinct as it was, seen with the objects as they are now
  have old : ∀ i, ∀ b ∈ s.scopes.read i, DistinctEntries t.objects b.entries := by
    intro i b hb
    refine (h i b hb).of_sameMarks effect.grows.kinds fun v hv => marks i v ?_
    exact List.mem_flatMap.mpr ⟨b, hb, hv⟩
  cases effect with
  | quiet _ entries =>
      intro i
      rw [entries i]
      exact old i
  | assign id attr value => exact old
  | @file n target key value f decided accepted =>
      obtain ⟨-, stored, hclash⟩ := of_filing_eq_ok decided
      have hsymbol : f.symbol ≠ .absent := by
        rw [stored]
        apply storedSymbol_ne_absent
        rintro ⟨rfl, rfl⟩
        exact present n target rfl
      rw [hclash, clashAt, bucketAt] at accepted
      intro i
      rw [read_file]
      split
      next hi =>
        -- only the bucket that the symbol goes to has got an entry
        refine ScopeMap.forall_insert (old _) ?_
        exact (h.bucket _ f.key).concat hsymbol accepted
      next => exact old i

/-- No scope of an empty store has entries. -/
theorem distinct_empty (objects : Objects) (journaling : Bool) :
    (Store.empty objects journaling).Distinct := by
  intro i b hb
  rw [read_scopes_empty] at hb
  cases hb

/-- Entries stay distinct along a run of orderly actions. -/
theorem Runs.distinct {s t : Store} {actions : List Action} (run : Runs s actions t)
    (orderly : s.Along Orderly actions) (h : s.Distinct) : t.Distinct :=
  run.keeps_along (fun _ good hu => good.distinct hu) orderly h

/-! ## §4. After a run. -/

/-- **No two entries of a bucket have equal types and equal parents**, in any
scope, after any run of orderly actions: on any nodes, into any scope, under
policies that are switched at will. -/
theorem buckets_distinct {objects : Objects} {journaling : Bool} {actions : List Action}
    {t : Store} (run : Runs (.empty objects journaling) actions t)
    (orderly : (Store.empty objects journaling).Along Orderly actions) (i : ScopeId) :
    ∀ b ∈ t.scopes.read i, b.entries.Pairwise fun x y =>
      ¬ (t.objects.equal (t.objects.typeOf x) (t.objects.typeOf y) = true
        ∧ t.objects.equal (t.objects.parentOf x) (t.objects.parentOf y) = true) := by
  intro b hb
  have h := run.distinct orderly (distinct_empty objects journaling) i b hb
  refine h.apart.imp ?_
  rintro x y hxy ⟨htype, hparent⟩
  rw [indistinguishable, htype, hparent] at hxy
  cases hxy

/-- Two symbols with one identifier and one parent, and of different types. -/
def overloads : Objects :=
  [.declare (.str "f") (some (.str "int")) (some (.str "main")) none,
    .declare (.str "f") (some (.str "real")) (some (.str "main")) none]

/-- A table that has entered a scope, and the node of the scope outside it, fill
that scope under different policies; between the insertions an entry gets
another attribute. -/
def overloading : List Action :=
  [.create KeyFunction.byDefault (.bool false), .call 0 .enter,
    .call 0 (.insert .outermost (.object 0) .absent), .assign 0 .extra (.int 1),
    .call 1 (.setPolicy (.bool true)), .call 1 (.insert .current (.object 1) .absent)]

def overloadedStore : Store :=
  overloading.foldl (fun s a => (s.act a).store) (.empty overloads false)

theorem overloading_runs : Runs (.empty overloads false) overloading overloadedStore := by
  have first : (0 : Nat) < 1 := by decide
  have second : (0 : Nat) < 2 := by decide
  have outer : (1 : Nat) < 2 := by decide
  exact .cons trivial (.cons first (.cons second (.cons trivial (.cons outer
    (.cons outer (.nil _))))))

/-- A call that leaves the objects alone is orderly, unless it inserts an absent
value. -/
theorem orderly_of_objects {s : Store} {a : Action}
    (present : ∀ n target, a ≠ .call n (.insert target .absent .absent))
    (objects : (s.act a).store.objects = s.objects) : s.Orderly a := by
  refine ⟨present, fun _ v _ => ?_⟩
  rw [objects]
  exact .refl _ v

theorem overloading_orderly : (Store.empty overloads false).Along Orderly overloading := by
  refine ⟨orderly_of_objects ?_ rfl, orderly_of_objects ?_ rfl, orderly_of_objects ?_ rfl, ⟨?_, ?_⟩,
    orderly_of_objects ?_ rfl, orderly_of_objects ?_ rfl, trivial⟩
  -- the only assignment is of an attribute that no comparison reads
  case refine_5 =>
    intro i v _
    exact Objects.sameMarks_assign _ 0 (.int 1) (by decide) (by decide) v
  all_goals
    intro n target h
    cases h

theorem buckets_distinct_overloaded :
    Runs (.empty overloads false) overloading overloadedStore
      ∧ (Store.empty overloads false).Along Orderly overloading
      ∧ overloadedStore.scopes.read 0 = [⟨.str "f", [.object 0, .object 1]⟩]
      ∧ ¬ (overloadedStore.objects.equal (overloadedStore.objects.typeOf (.object 0))
            (overloadedStore.objects.typeOf (.object 1)) = true
          ∧ overloadedStore.objects.equal (overloadedStore.objects.parentOf (.object 0))
            (overloadedStore.objects.parentOf (.object 1)) = true) := by
  have hread : overloadedStore.scopes.read 0 = [⟨.str "f", [.object 0, .object 1]⟩] := rfl
  have distinct := buckets_distinct overloading_runs overloading_orderly 0
  have pairwise := distinct ⟨.str "f", [.object 0, .object 1]⟩ (by rw [hread]; simp)
  exact ⟨overloading_runs, overloading_orderly, hread,
    List.rel_of_pairwise_cons pairwise (by simp)⟩

end Store

end ScopeChain
