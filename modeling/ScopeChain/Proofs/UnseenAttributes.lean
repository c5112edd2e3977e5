/-
  ScopeChain.Proofs.UnseenAttributes
  ──────────────────────────────────
  **WHAT A TABLE LOOKS AT.**

  A table that derives keys by its own rule asks an object for three attributes
  only, each on its occasion: for the identifier when the object is given as a
  key, for type and parent when it is to be filed or has been.  As a type or a
  parent, as a filter or as an explicit value, an object is compared and not
  looked into.  So two programs come to the same where their objects differ in
  attributes that nothing looks at, from the beginning or by assignment.

      Action.LooksAt         — the attributes that an action looks at
      Unseen                 — those that no action of a program looks at
      Objects.SameBut        — objects that differ in hidden attributes
      ProgramsBut            — programs that differ in assigning them
      Store.ByName           — the keys and key functions of such a program
      SameTables             — stores that are the same but for objects
      SameButHidden          — the two stores, as they run
      SameButHidden.perform  — what an operation replies
      unseen_attributes_make_no_difference

  What an object is equal to goes by its kind (`Objects.SameKinds.equal`), which
  is no attribute.
-/
import Mathlib.Data.List.Find
import ScopeChain.Proofs.OwnSettings

namespace ScopeChain

/-! ## §1. What actions look at. -/

namespace Action

/-- The symbol that an action is to file, if it is an insertion. -/
def symbol? : Action → Option Value
  | .call _ (.insert _ key value) => some (storedSymbol key value)
  | _ => none

/-- The key function that an action gives to a table, if it gives one. -/
def keyFunction? : Action → Option KeyFunction
  | .create keyFunction _ => some keyFunction
  | .call _ (.setKeyFunction keyFunction) => some keyFunction
  | _ => none

/-- What an action looks at: the identifier of its key, and the type and the parent of the
symbol that it is to file. -/
inductive LooksAt (a : Action) : Place → Prop where
  | identifier {id : ObjectId} (key : a.key? = some (.object id)) : LooksAt a ⟨id, .identifier⟩
  | type {id : ObjectId} (symbol : a.symbol? = some (.object id)) : LooksAt a ⟨id, .type⟩
  | parent {id : ObjectId} (symbol : a.symbol? = some (.object id)) : LooksAt a ⟨id, .parent⟩

end Action

/-- An attribute of an object that no action of a program looks at. -/
def Unseen (actions : List Action) (place : Place) : Prop := ∀ a ∈ actions, ¬ a.LooksAt place

/-- Two programs that are the same but for assignments of hidden attributes, which either of
them may make. -/
inductive ProgramsBut (hidden : Place → Prop) : List Action → List Action → Prop where
  | nil : ProgramsBut hidden [] []
  | same (a : Action) {rest others : List Action} (later : ProgramsBut hidden rest others) :
      ProgramsBut hidden (a :: rest) (a :: others)
  | first {id : ObjectId} {attr : Attribute} (value : Value) (h : hidden ⟨id, attr⟩)
      {rest others : List Action} (later : ProgramsBut hidden rest others) :
      ProgramsBut hidden (.assign id attr value :: rest) others
  | second {id : ObjectId} {attr : Attribute} (value : Value) (h : hidden ⟨id, attr⟩)
      {rest others : List Action} (later : ProgramsBut hidden rest others) :
      ProgramsBut hidden rest (.assign id attr value :: others)

/-! ## §2. Objects that differ in hidden attributes. -/

namespace Objects

/-- The same declared objects, with other values perhaps in hidden attributes. -/
structure SameBut (hidden : Place → Prop) (objs objs' : Objects) : Prop where
  length : objs'.length = objs.length
  kinds : SameKinds objs objs'
  get : ∀ id attr, ¬ hidden ⟨id, attr⟩ → (objs'.object id).get attr = (objs.object id).get attr

/-- An attribute of a value is not hidden. -/
def Shows (hidden : Place → Prop) (attr : Attribute) (v : Value) : Prop :=
  ∀ id, v = .object id → ¬ hidden ⟨id, attr⟩

/-- The attributes of a value by which it is told apart from others are not hidden. -/
structure ShowsMarks (hidden : Place → Prop) (v : Value) : Prop where
  type : Shows hidden .type v
  parent : Shows hidden .parent v

/-- A key that is a string, or an object whose identifier is one. -/
def Named (objs : Objects) (key : Value) : Prop :=
  (objs.text? key).isSome
    ∨ ∃ identifier, objs.attr? .identifier key = some identifier ∧ (objs.text? identifier).isSome

/-- What an assignment leaves in each attribute of each object. -/
theorem get_assign (objs : Objects) (id other : ObjectId) (attr attr' : Attribute) (v : Value) :
    ((objs.assign id attr v).object other).get attr'
      = if id = other ∧ other < objs.length ∧ attr' = attr then some v
        else (objs.object other).get attr' := by
  rw [object_assign]
  by_cases hother : id = other ∧ other < objs.length
  · rw [if_pos hother]
    by_cases hattr : attr' = attr
    · subst hattr
      rw [if_pos ⟨hother.1, hother.2, rfl⟩, SymbolObject.get_set_self]
    · rw [if_neg fun h => hattr h.2.2, SymbolObject.get_set_of_ne _ v hattr]
  · rw [if_neg hother, if_neg fun h => hother ⟨h.1, h.2.1⟩]

/-- An assignment to a hidden attribute shows in no other. -/
theorem get_assign_of_hidden {hidden : Place → Prop} (objs : Objects) {id : ObjectId}
    {attr : Attribute} (h : hidden ⟨id, attr⟩) (v : Value) {other : ObjectId} {attr' : Attribute}
    (shown : ¬ hidden ⟨other, attr'⟩) :
    ((objs.assign id attr v).object other).get attr' = (objs.object other).get attr' := by
  rw [get_assign, if_neg]
  rintro ⟨rfl, -, rfl⟩
  exact shown h

/-- What is said of all entries of a scope is said of those that a search meets. -/
theorem showsMarks_of_mem_bucket {hidden : Place → Prop} {objs : Objects} {m : ScopeMap}
    (marks : ∀ b ∈ m, ∀ v ∈ b.entries, ShowsMarks hidden v) {key : Value} :
    ∀ v ∈ m.bucket objs key, ShowsMarks hidden v :=
  ScopeMap.forall_bucket (P := fun vs => ∀ v ∈ vs, ShowsMarks hidden v) marks (by simp) key

namespace SameBut

variable {hidden : Place → Prop} {objs objs' : Objects}

/-- One assignment in both leaves them the same but for what was hidden. -/
theorem assign (h : objs.SameBut hidden objs') (id : ObjectId) (attr : Attribute) (v : Value) :
    (objs.assign id attr v).SameBut hidden (objs'.assign id attr v) where
  length := by simp [Objects.assign, h.length]
  kinds := by
    intro other
    rw [kind_assign, kind_assign]
    exact h.kinds other
  get := by
    intro other attr' shown
    rw [get_assign, get_assign, h.length, h.get other attr' shown]

/-- An assignment of a hidden attribute may be made in one of them alone. -/
theorem assign_left (h : objs.SameBut hidden objs') {id : ObjectId} {attr : Attribute}
    (hplace : hidden ⟨id, attr⟩) (v : Value) : (objs.assign id attr v).SameBut hidden objs' where
  length := by simp [Objects.assign, h.length]
  kinds := by
    intro other
    rw [kind_assign]
    exact h.kinds other
  get := by
    intro other attr' shown
    rw [get_assign_of_hidden objs hplace v shown]
    exact h.get other attr' shown

theorem assign_right (h : objs.SameBut hidden objs') {id : ObjectId} {attr : Attribute}
    (hplace : hidden ⟨id, attr⟩) (v : Value) : objs.SameBut hidden (objs'.assign id attr v) where
  length := by simp [Objects.assign, h.length]
  kinds := h.kinds.trans (sameKinds_assign objs' id attr v)
  get := by
    intro other attr' shown
    rw [get_assign_of_hidden objs' hplace v shown]
    exact h.get other attr' shown

/-- An attribute that shows reads the same in both. -/
theorem attr?_eq (h : objs.SameBut hidden objs') {attr : Attribute} {v : Value}
    (shown : Shows hidden attr v) : objs'.attr? attr v = objs.attr? attr v := by
  cases v with
  | object id => exact h.get id attr (shown id rfl)
  | _ => rfl

theorem typeOf_eq (h : objs.SameBut hidden objs') {v : Value} (shown : ShowsMarks hidden v) :
    objs'.typeOf v = objs.typeOf v := by
  rw [typeOf, typeOf, h.attr?_eq shown.type]

theorem parentOf_eq (h : objs.SameBut hidden objs') {v : Value} (shown : ShowsMarks hidden v) :
    objs'.parentOf v = objs.parentOf v := by
  rw [parentOf, parentOf, h.attr?_eq shown.parent]

/-! ### Comparisons. -/

/-- So a filter wants the same entries. -/
theorem accepts_eq (h : objs.SameBut hidden objs') {v : Value} (shown : ShowsMarks hidden v)
    (f : Filter) : f.accepts objs' v = f.accepts objs v := by
  rw [Filter.accepts, Filter.accepts, h.typeOf_eq shown, h.parentOf_eq shown, h.kinds.equal,
    h.kinds.equal]

theorem indistinguishable_eq (h : objs.SameBut hidden objs') {x y : Value}
    (hx : ShowsMarks hidden x) (hy : ShowsMarks hidden y) :
    indistinguishable objs' x y = indistinguishable objs x y := by
  rw [indistinguishable, indistinguishable, h.typeOf_eq hx, h.typeOf_eq hy, h.parentOf_eq hx,
    h.parentOf_eq hy, h.kinds.equal, h.kinds.equal]

/-- So a new symbol clashes with the same entry. -/
theorem clash?_eq (h : objs.SameBut hidden objs') {bucket : List Value} {v : Value}
    (entries : ∀ entry ∈ bucket, ShowsMarks hidden entry) (hv : ShowsMarks hidden v)
    (allows : Bool) : clash? objs' allows bucket v = clash? objs allows bucket v := by
  have rivals : bucket.find? (fun entry => indistinguishable objs' entry v)
      = bucket.find? (fun entry => indistinguishable objs entry v) :=
    List.find?_congr fun entry hentry => h.indistinguishable_eq (entries entry hentry) hv
  rw [clash?, clash?, rival?, rival?, rivals]

/-- So a search finds the same entries. -/
theorem matching_eq (h : objs.SameBut hidden objs') {m : ScopeMap}
    (marks : ∀ b ∈ m, ∀ v ∈ b.entries, ShowsMarks hidden v) (key : Value) (f : Filter) :
    m.matching objs' key f = m.matching objs key f := by
  rw [ScopeMap.matching, ScopeMap.matching, ScopeMap.bucket_of_sameKinds h.kinds]
  exact List.filter_congr fun v hv => h.accepts_eq (showsMarks_of_mem_bucket marks v hv) f

end SameBut

/-! ### Keys. -/

/-- A string is held as what it is. -/
theorem heldAt_of_text? {objs : Objects} {v : Value} {text : String}
    (h : objs.text? v = some text) (place : Place) : v.heldAt place = v := by
  cases v with
  | str => rfl
  | object => rfl
  | _ => exact absurd h (by simp [text?])

/-- By the table's own rule an object goes under its identifier, if that is a string. -/
theorem addressOf_byDefault {objs : Objects} {key identifier : Value} {text : String}
    (hkey : objs.text? key = none) (hid : objs.attr? .identifier key = some identifier)
    (htext : objs.text? identifier = some text) :
    objs.addressOf KeyFunction.byDefault key = .ok (.str text) := by
  have held : (objs.held? .identifier key).getD .absent = identifier := by
    cases key with
    | object id =>
        show (((objs.object id).get .identifier).map _).getD .absent = identifier
        rw [show (objs.object id).get .identifier = some identifier from hid]
        exact heldAt_of_text? htext _
    | _ => cases hid
  have present : identifier ≠ .absent := by
    rintro rfl
    cases htext
  have derived : KeyFunction.byDefault objs key = .ok (.str text) := by
    rw [KeyFunction.byDefault, hkey, held]
    cases identifier with
    | absent => exact absurd rfl present
    | _ => simp only [display_of_text? htext]; rfl
  rw [addressOf, keyOf, hkey]
  simp only [derived, changeable?]

/-- A named key has one address, a string, wherever its identifier is not hidden. -/
theorem SameBut.exists_address {hidden : Place → Prop} {objs objs' : Objects}
    (h : objs.SameBut hidden objs') {key : Value} (named : objs.Named key)
    (shown : Shows hidden .identifier key) :
    ∃ k, (objs.text? k).isSome ∧ objs.addressOf KeyFunction.byDefault key = .ok k
      ∧ objs'.addressOf KeyFunction.byDefault key = .ok k := by
  cases hkey : objs.text? key with
  | some text =>
      refine ⟨key, by simp [hkey], addressOf_of_text? _ hkey, ?_⟩
      exact addressOf_of_text? _ ((h.kinds.text? key).trans hkey)
  | none =>
      rcases named with string | ⟨identifier, hid, string⟩
      · simp [hkey] at string
      · obtain ⟨text, htext⟩ := Option.isSome_iff_exists.mp string
        refine ⟨.str text, rfl, addressOf_byDefault hkey hid htext, ?_⟩
        exact addressOf_byDefault ((h.kinds.text? key).trans hkey)
          ((h.attr?_eq shown).trans hid) ((h.kinds.text? identifier).trans htext)

end Objects

namespace Store

/-! ## §3. Stores that differ in hidden attributes. -/

/-- An action that leaves tables their own rule for keys, and gives keys that are named at that
moment. -/
structure ByName (s : Store) (a : Action) : Prop where
  keyFunction : ∀ f, a.keyFunction? = some f → f = KeyFunction.byDefault
  key : ∀ key, a.key? = some key → s.objects.Named key

/-- The tables have their own rule for keys, and the entries are told apart by attributes that
are not hidden. -/
structure InPlainView (hidden : Place → Prop) (s : Store) : Prop where
  rule : ∀ n, (s.node n).keyFunction = KeyFunction.byDefault
  marks : ∀ i, ∀ b ∈ s.scopes.read i, ∀ v ∈ b.entries, Objects.ShowsMarks hidden v

/-- Two stores with the same nodes and the same scopes, entry by entry. -/
structure SameTables (s t : Store) : Prop where
  nodes : t.nodes = s.nodes
  scopes : t.scopes = s.scopes
  journaling : t.journaling = s.journaling

/-- Two stores that are the same but for hidden attributes of the objects. -/
structure SameButHidden (hidden : Place → Prop) (s t : Store) : Prop extends SameTables s t where
  objects : s.objects.SameBut hidden t.objects

variable {hidden : Place → Prop} {s t s' : Store} {n : NodeId}

/-! ### What stays in plain view. -/

/-- An empty store has nothing to hide. -/
theorem inPlainView_empty (objects : Objects) (journaling : Bool) :
    (Store.empty objects journaling).InPlainView hidden where
  rule := fun _ => rfl
  marks := by
    intro i b hb
    rw [read_scopes_empty] at hb
    cases hb

/-- Every key function that an action gives to a node is the table's own rule, and so is the one
that a node has otherwise. -/
theorem InPlainView.rule_act (h : s.InPlainView hidden) {a : Action} (byName : s.ByName a)
    (admitted : s.Admits a) (n : NodeId) :
    ((s.act a).store.node n).keyFunction = KeyFunction.byDefault := by
  have given : ∀ f, s.keyFunctionGiven? a n = some f → f = KeyFunction.byDefault := by
    intro f hf
    unfold keyFunctionGiven? at hf
    split at hf
    next =>
      unfold made? at hf
      split at hf
      next keyFunction policy =>
        cases hf
        exact byName.keyFunction keyFunction rfl
      next m =>
        cases hf
        exact h.rule m
      next => cases hf
    next =>
      unfold Action.keyFunctionFor? at hf
      split at hf
      next m keyFunction =>
        obtain ⟨-, same⟩ := Option.ite_none_right_eq_some.mp hf
        cases same
        exact byName.keyFunction _ rfl
      next => cases hf
  rw [keyFunction_act admitted]
  cases hf : s.keyFunctionGiven? a n with
  | none => exact h.rule n
  | some f => exact given f hf

/-- What an action files, it has looked at. -/
theorem showsMarks_of_symbol? {a : Action} {v : Value} (symbol : a.symbol? = some v)
    (spares : ∀ place, a.LooksAt place → ¬ hidden place) : Objects.ShowsMarks hidden v := by
  constructor
  · rintro id rfl
    exact spares _ (.type symbol)
  · rintro id rfl
    exact spares _ (.parent symbol)

/-- What an action files shows its marks, since the action looked at them. -/
theorem InPlainView.marks_act (h : s.InPlainView hidden) {a : Action}
    (spares : ∀ place, a.LooksAt place → ¬ hidden place) :
    ∀ i, ∀ b ∈ (s.act a).store.scopes.read i, ∀ v ∈ b.entries,
      Objects.ShowsMarks hidden v := by
  have effect := act_entriesEffect s a
  revert effect
  generalize (s.act a).store = t
  intro effect i
  cases effect with
  | quiet _ entries =>
      rw [entries i]
      exact h.marks i
  | assign => exact h.marks i
  | @file n target key value f decided accepted =>
      obtain ⟨-, symbol, -⟩ := of_filing_eq_ok decided
      have new : Objects.ShowsMarks hidden f.symbol :=
        showsMarks_of_symbol? (a := .call n (.insert target key value))
          (congrArg some symbol.symm) spares
      rw [read_file]
      split
      · -- the bucket that gets the symbol held entries in plain view before
        refine ScopeMap.forall_insert (P := fun vs => ∀ v ∈ vs, Objects.ShowsMarks hidden v)
          (h.marks _) ?_
        intro v hv
        rcases List.mem_append.mp hv with hold | hnew
        · exact Objects.showsMarks_of_mem_bucket (h.marks _) v hold
        · rw [List.mem_singleton.mp hnew]
          exact new
      · exact h.marks i

/-- **What a program looks at stays in plain view**, one action at a time. -/
theorem InPlainView.act (h : s.InPlainView hidden) {a : Action} (byName : s.ByName a)
    (spares : ∀ place, a.LooksAt place → ¬ hidden place) (admitted : s.Admits a) :
    (s.act a).store.InPlainView hidden :=
  ⟨h.rule_act byName admitted, h.marks_act spares⟩

/-! ### The same tables. -/

namespace SameTables

variable (h : SameTables s t)
include h

theorem node_eq (n : NodeId) : t.node n = s.node n := by
  rw [node, node, h.nodes]

/-- Where nodes are is a matter of nodes. -/
theorem samePlaces : SamePlaces s t := by
  refine ⟨congrArg List.length h.nodes, congrArg List.length h.scopes, ?_, ?_, ?_, ?_⟩ <;>
    intro n <;> rw [h.node_eq]

theorem here_eq (n : NodeId) : t.here n = s.here n := h.samePlaces.here_eq h.scopes n

/-- A listing of the levels shows policies and entries, and reads no attribute. -/
theorem levels_eq (n : NodeId) : t.levels n = s.levels n := by
  rw [levels, levels, h.samePlaces.chain]
  exact List.map_congr_left fun m _ => by rw [h.node_eq, h.here_eq]

end SameTables

/-! ### One lemma for each change. -/

namespace SameButHidden

variable (h : SameButHidden hidden s t)
include h

/-- Whether a policy allows duplicates goes by the kind of an object. -/
theorem allows_eq (n : NodeId) : t.allowsDuplicates n = s.allowsDuplicates n := by
  rw [allowsDuplicates, allowsDuplicates, h.node_eq, h.objects.kinds.truth]

/-- A new table takes the truth of a policy, which is the same in both. -/
theorem create (keyFunction : KeyFunction) (policy : Value) :
    SameButHidden hidden (s.create keyFunction policy) (t.create keyFunction policy) where
  nodes := by simp only [Store.create, h.nodes, h.scopes, h.objects.kinds.truth]
  scopes := congrArg (Arena.push · []) h.scopes
  journaling := h.journaling
  objects := h.objects

theorem enter (n : NodeId) : SameButHidden hidden (s.enter n) (t.enter n) where
  nodes := by simp only [Store.enter, h.nodes, h.scopes, h.node_eq, h.objects.kinds.truth]
  scopes := congrArg (Arena.push · []) h.scopes
  journaling := h.journaling
  objects := h.objects

/-- The other changes of nodes write one record, the same in both stores. -/
theorem write {x y : Node} (same : y = x) (n : NodeId) :
    SameButHidden hidden { s with nodes := s.nodes.write n x }
      { t with nodes := t.nodes.write n y } where
  nodes := by simp only [h.nodes, same]
  scopes := h.scopes
  journaling := h.journaling
  objects := h.objects

theorem file (i : ScopeId) (key v : Value) :
    SameButHidden hidden (s.file i key v) (t.file i key v) where
  nodes := h.nodes
  scopes := by
    show t.scopes.write i ((t.scopes.read i).insert t.objects key v) = _
    rw [h.scopes, ScopeMap.insert_of_sameKinds h.objects.kinds]
    rfl
  journaling := h.journaling
  objects := h.objects

/-- The objects may be exchanged for others that differ from them in hidden attributes. -/
theorem withObjects {objs objs' : Objects} (same : objs.SameBut hidden objs') :
    SameButHidden hidden { s with objects := objs } { t with objects := objs' } where
  toSameTables := ⟨h.nodes, h.scopes, h.journaling⟩
  objects := same

/-! ### Keys and matches. -/

/-- A named key has the same address in both, a string. -/
theorem exists_address (view : s.InPlainView hidden) (n : NodeId) {key : Value}
    (named : s.objects.Named key) (shown : Objects.Shows hidden .identifier key) :
    ∃ k, (s.objects.text? k).isSome ∧ s.addressAt n key = .ok k ∧ t.addressAt n key = .ok k := by
  unfold addressAt
  rw [h.node_eq, view.rule]
  exact h.objects.exists_address named shown

/-- A prepared key finds the same entries within every reach. -/
theorem matchesWithin_eq (view : s.InPlainView hidden) (n : NodeId) (k : Value) (f : Filter)
    (reach : Reach) : t.matchesWithin n k f reach = s.matchesWithin n k f reach := by
  have scope : ∀ i, (s.scopes.read i).matching t.objects k f
      = (s.scopes.read i).matching s.objects k f :=
    fun i => h.objects.matching_eq (view.marks i) k f
  have hmatches : t.matchesHere k f = s.matchesHere k f := by
    funext m
    rw [matchesHere, matchesHere, h.here_eq]
    exact scope _
  cases reach with
  | current => exact congrFun hmatches n
  | chain => rw [matchesWithin, matchesWithin, h.samePlaces.chain, hmatches]
  | outermost =>
      rw [matchesWithin, matchesWithin, h.scopes, h.node_eq]
      exact scope _

/-- A lookup of a named key finds the same, and does not fail. -/
theorem exists_lookup (view : s.InPlainView hidden) (n : NodeId) {key : Value}
    (named : s.objects.Named key) (shown : Objects.Shows hidden .identifier key) (reach : Reach)
    (f : Filter) :
    ∃ found, s.lookup n reach key f = .ok found ∧ t.lookup n reach key f = .ok found := by
  obtain ⟨k, -, hs, ht⟩ := h.exists_address view n named shown
  refine ⟨s.matchesWithin n k f reach, ?_, ?_⟩
  · rw [lookup, hs]
  · rw [lookup, ht]
    exact congrArg Except.ok (h.matchesWithin_eq view n k f reach)

/-! ### Insertions. -/

/-- A symbol in plain view meets the same clash. -/
theorem clashAt_eq (view : s.InPlainView hidden) (n : NodeId) (target : Target) (k : Value)
    {symbol : Value} (marks : Objects.ShowsMarks hidden symbol) :
    t.clashAt n target k symbol = s.clashAt n target k symbol := by
  have entries : ∀ v ∈ s.bucketAt n target k, Objects.ShowsMarks hidden v :=
    Objects.showsMarks_of_mem_bucket (view.marks _)
  have bucket : t.bucketAt n target k = s.bucketAt n target k := by
    rw [bucketAt, bucketAt, h.scopes, h.samePlaces.targetScope_eq,
      ScopeMap.bucket_of_sameKinds h.objects.kinds]
  rw [clashAt, clashAt, bucket, h.allows_eq, h.objects.clash?_eq entries marks]

/-- **An insertion with a named key comes to the same**, and fails for a clash only. -/
theorem insert (view : s.InPlainView hidden) (n : NodeId) (target : Target) {key value : Value}
    (named : s.objects.Named key) (shown : Objects.Shows hidden .identifier key)
    (marks : Objects.ShowsMarks hidden (storedSymbol key value)) :
    SameButHidden hidden (s.insert n target key value).store (t.insert n target key value).store
      ∧ (t.insert n target key value).fault = (s.insert n target key value).fault
      ∧ (t.insert n target key value).events = (s.insert n target key value).events
      ∧ ∀ fault, (s.insert n target key value).fault = some fault →
          ∃ clash, fault = .duplicate clash := by
  obtain ⟨k, string, hs, ht⟩ := h.exists_address view n named shown
  -- the key derived is a string, so its text is to be had in both stores
  obtain ⟨text, htext⟩ := Option.isSome_iff_exists.mp string
  have display : s.objects.display k = .ok text := Objects.display_of_text? htext
  have display' : t.objects.display k = .ok text :=
    Objects.display_of_text? ((h.objects.kinds.text? k).trans htext)
  have clash := h.clashAt_eq view n target k marks
  have events : (t.insert n target key value).events = (s.insert n target key value).events := by
    have record : ∀ f : Filing, f.key = k →
        t.insertionRecord n target f = s.insertionRecord n target f := by
      rintro f rfl
      rw [insertionRecord, insertionRecord, h.journaling, h.node_eq, display, display']
    unfold Store.insert
    rw [filing_of_address hs, filing_of_address ht, clash]
    simp only [record]
    split <;> rfl
  cases hclash : s.clashAt n target k (storedSymbol key value) with
  | some existing =>
      obtain ⟨store, fault⟩ := insert_of_clash hs display hclash
      obtain ⟨store', fault'⟩ := insert_of_clash ht display' (clash.trans hclash)
      rw [store, store', fault, fault']
      exact ⟨h, rfl, events, fun _ hfault => ⟨_, (Option.some.inj hfault).symm⟩⟩
  | none =>
      obtain ⟨store, fault⟩ := insert_of_no_clash hs display hclash
      obtain ⟨store', fault'⟩ := insert_of_no_clash ht display' (clash.trans hclash)
      rw [store, store', fault, fault', h.samePlaces.targetScope_eq]
      exact ⟨h.file _ _ _, rfl, events, fun _ hfault => by cases hfault⟩

end SameButHidden

/-! ## §4. What operations reply. -/

/-- Two calls of one operation, each with its reply: they leave the same tables and record the
same, and walks step alike after them.  Both have the same answer or failure, and the only
failures are those of a table at its outermost scope and of a clash.  A description is left
aside, as it shows the text of a policy. -/
structure AlikeReplies (x y : Operation × Reply) : Prop where
  operation : y.1 = x.1
  tables : SameTables x.2.store y.2.store
  events : y.2.events = x.2.events
  walks : ∀ w, y.2.store.step w = x.2.store.step w
  outcome : x.1 ≠ .describe → y.2.outcome = x.2.outcome
  failure : x.1 ≠ .describe → ∀ fault, x.2.outcome = .error fault →
    fault = .underflow ∨ ∃ clash, fault = .duplicate clash

/-- One answer in both, or one of the failures. -/
theorem SameTables.alikeReplies (h : SameTables s t) {op : Operation}
    {outcome : Except Fault Answer} {events events' : List Event} (recorded : events' = events)
    (failure : ∀ fault, outcome = .error fault →
      fault = .underflow ∨ ∃ clash, fault = .duplicate clash) :
    AlikeReplies (op, ⟨s, outcome, events⟩) (op, ⟨t, outcome, events'⟩) :=
  ⟨rfl, h, recorded, h.samePlaces.step_eq h.scopes, fun _ => rfl, fun _ => failure⟩

theorem SameTables.alikeAnswers (h : SameTables s t) {op : Operation} {a : Answer}
    {events events' : List Event} (recorded : events' = events) :
    AlikeReplies (op, ⟨s, .ok a, events⟩) (op, ⟨t, .ok a, events'⟩) := by
  refine h.alikeReplies recorded ?_
  intro fault hfault
  cases hfault

/-- The journal is kept in both or in neither. -/
theorem SameTables.recorded_eq (h : SameTables s t) (event : Event) :
    t.recorded event = s.recorded event := by
  rw [recorded, recorded, h.journaling]

/-- An operation that only looks, and answers the same in both stores. -/
theorem SameButHidden.answers (h : SameButHidden hidden s t) {op : Operation} {a : Answer}
    (hs : s.perform n op = ⟨s, .ok a, []⟩) (ht : t.perform n op = ⟨t, .ok a, []⟩) :
    SameButHidden hidden (s.perform n op).store (t.perform n op).store
      ∧ AlikeReplies (op, s.perform n op) (op, t.perform n op) := by
  rw [hs, ht]
  exact ⟨h, h.alikeAnswers rfl⟩

/-- **What an operation replies does not depend on hidden attributes**, if its key is named and
it looks at none of them. -/
theorem SameButHidden.perform (h : SameButHidden hidden s t) (view : s.InPlainView hidden)
    {op : Operation} (named : ∀ key, op.key? = some key → s.objects.Named key)
    (spares : ∀ place, (Action.call n op).LooksAt place → ¬ hidden place) :
    SameButHidden hidden (s.perform n op).store (t.perform n op).store
      ∧ AlikeReplies (op, s.perform n op) (op, t.perform n op) := by
  have shown : ∀ key, op.key? = some key → Objects.Shows hidden .identifier key := by
    rintro key hkey id rfl
    exact spares _ (.identifier hkey)
  cases op with
  | enter =>
      have entered := h.enter n
      refine ⟨entered, entered.alikeAnswers ?_⟩
      rw [h.recorded_eq, h.node_eq]
  | leave =>
      cases hp : (s.node n).parent with
      | none =>
          rw [perform_leave_of_top hp, perform_leave_of_top ((h.samePlaces.parent n).trans hp)]
          refine ⟨h, h.alikeReplies (h.recorded_eq _) ?_⟩
          rintro fault ⟨⟩
          exact .inl rfl
      | some p =>
          rw [perform_leave_of_link hp, perform_leave_of_link ((h.samePlaces.parent n).trans hp)]
          have left : SameButHidden hidden (s.rejoin n p) (t.rejoin n p) :=
            h.write (by rw [h.node_eq, h.node_eq]) n
          refine ⟨left, left.alikeAnswers ?_⟩
          rw [h.recorded_eq, h.node_eq]
  | insert target key value =>
      have marks := showsMarks_of_symbol? (a := .call n (.insert target key value)) rfl spares
      obtain ⟨same, hfault, hevents, clashes⟩ :=
        h.insert view n target (named key rfl) (shown key rfl) marks
      simp only [Store.perform, hfault]
      cases hs : (s.insert n target key value).fault with
      | none => exact ⟨same, same.alikeAnswers hevents⟩
      | some fault =>
          refine ⟨same, same.alikeReplies hevents ?_⟩
          rintro fault ⟨⟩
          exact .inr (clashes _ hs)
  | lookup reach key f =>
      obtain ⟨found, hs, ht⟩ := h.exists_lookup view n (named key rfl) (shown key rfl) reach f
      refine h.answers (a := .values found) ?_ ?_ <;> simp only [Store.perform, hs, ht] <;> rfl
  | contains key =>
      obtain ⟨found, hs, ht⟩ := h.exists_lookup view n (named key rfl) (shown key rfl) .chain .all
      refine h.answers (a := .flag !found.isEmpty) ?_ ?_ <;>
        simp only [Store.perform, Store.contains, hs, ht] <;> rfl
  | visible =>
      refine h.answers rfl ?_
      simp only [Store.perform, h.samePlaces.visible_eq h.scopes]
  | depth =>
      refine h.answers rfl ?_
      simp only [Store.perform, h.node_eq]
  | isGlobal =>
      refine h.answers rfl ?_
      simp only [Store.perform, h.node_eq]
  | keyCount =>
      refine h.answers rfl ?_
      simp only [Store.perform, h.here_eq]
  | levels =>
      refine h.answers rfl ?_
      simp only [Store.perform, h.levels_eq]
  | policy =>
      refine h.answers rfl ?_
      simp only [Store.perform, h.node_eq]
  | describe =>
      exact ⟨h, rfl, h.toSameTables, rfl, h.samePlaces.step_eq h.scopes,
        fun other => absurd rfl other, fun other => absurd rfl other⟩
  | setPolicy policy =>
      have assigned : SameButHidden hidden (s.setPolicy n policy) (t.setPolicy n policy) :=
        h.write (by rw [h.node_eq]) n
      exact ⟨assigned, assigned.alikeAnswers rfl⟩
  | setKeyFunction keyFunction =>
      have assigned :
          SameButHidden hidden (s.setKeyFunction n keyFunction) (t.setKeyFunction n keyFunction) :=
        h.write (by rw [h.node_eq]) n
      exact ⟨assigned, assigned.alikeAnswers rfl⟩

/-! ## §5. Programs. -/

/-- What the calls of a run reply, each with its operation. -/
def callReplies (s : Store) : List Action → List (Operation × Reply)
  | [] => []
  | .create keyFunction policy :: rest => callReplies (s.create keyFunction policy) rest
  | .call n op :: rest => (op, s.perform n op) :: callReplies (s.perform n op).store rest
  | .assign id attr value :: rest => callReplies (s.assign id attr value) rest

/-- **Programs that differ in hidden attributes come to the same**, call by call, if they look
at none of them. -/
theorem SameButHidden.runs (h : SameButHidden hidden s t) (view : s.InPlainView hidden)
    {actions others : List Action} (programs : ProgramsBut hidden actions others)
    (spares : ∀ a ∈ actions, ∀ place, a.LooksAt place → ¬ hidden place)
    (byName : s.Along ByName actions) (run : Runs s actions s') :
    ∃ t', Runs t others t' ∧ SameButHidden hidden s' t'
      ∧ List.Forall₂ AlikeReplies (s.callReplies actions) (t.callReplies others) := by
  induction programs generalizing s t with
  | nil =>
      cases run
      exact ⟨t, .nil t, h, .nil⟩
  | @second id attr value hplace rest others _ ih =>
      -- only the second program assigns something
      obtain ⟨t', run', last, replies⟩ :=
        ih (h.withObjects (h.objects.assign_right hplace value)) view spares byName run
      exact ⟨t', .cons trivial run', last, replies⟩
  | @first id attr value hplace rest others _ ih =>
      have later : ∀ a ∈ rest, ∀ place, a.LooksAt place → ¬ hidden place :=
        fun a ha => spares a (List.mem_cons_of_mem _ ha)
      cases run with
      | cons _ run =>
          exact ih (h.withObjects (h.objects.assign_left hplace value)) ⟨view.rule, view.marks⟩
            later byName.2 run
  | @same a rest others _ ih =>
      have later : ∀ b ∈ rest, ∀ place, b.LooksAt place → ¬ hidden place :=
        fun b hb => spares b (List.mem_cons_of_mem _ hb)
      cases run with
      | cons admitted run =>
          have view' := view.act byName.1 (spares a List.mem_cons_self) admitted
          cases a with
          | create keyFunction policy =>
              obtain ⟨t', run', last, replies⟩ :=
                ih (h.create keyFunction policy) view' later byName.2 run
              exact ⟨t', .cons trivial run', last, replies⟩
          | assign id attr value =>
              obtain ⟨t', run', last, replies⟩ :=
                ih (h.withObjects (h.objects.assign id attr value)) view' later byName.2 run
              exact ⟨t', .cons trivial run', last, replies⟩
          | call n op =>
              obtain ⟨performed, reply⟩ :=
                h.perform view byName.1.key (spares _ List.mem_cons_self)
              obtain ⟨t', run', last, replies⟩ := ih performed view' later byName.2 run
              refine ⟨t', .cons ?_ run', last, .cons reply replies⟩
              show n < t.nodes.length
              rw [h.nodes]
              exact admitted

/-- **A table looks at nothing but names, and the types and parents of its own entries.**  Take
any run from the beginning, over any nodes, in which tables keep their own rule for keys and
every key is a string or an object whose identifier is a string at that moment.  Let a second
program differ from it in attributes that none of its actions looks at: the objects may have
other values there when they are declared, and assignments to such attributes may be left out,
put in or changed.  These are the extra of every object, the identifier of an object that is
never a key, and the type and the parent of an object that is never to be filed.

Then the second program runs as well.  Every call has the same answer or failure, with the same
key, entry, scope and message, leaves the same nodes and the same scopes, entry by entry, and
records the same; every walk steps alike after it.  And wherever parents and types may lead, no
call fails unless it is to leave the outermost scope or meets a clash.  Since programs may end
anywhere, the stores are in step at every moment. -/
theorem unseen_attributes_make_no_difference {objects objects' : Objects} {journaling : Bool}
    {actions others : List Action} (run : Runs (.empty objects journaling) actions s)
    (byName : (Store.empty objects journaling).Along ByName actions)
    (same : objects.SameBut (Unseen actions) objects')
    (programs : ProgramsBut (Unseen actions) actions others) :
    ∃ t, Runs (.empty objects' journaling) others t
      ∧ SameTables s t
      ∧ List.Forall₂ AlikeReplies ((Store.empty objects journaling).callReplies actions)
          ((Store.empty objects' journaling).callReplies others)
      ∧ ∀ w, t.step w = s.step w := by
  have start : SameButHidden (Unseen actions) (.empty objects journaling)
      (.empty objects' journaling) := ⟨⟨rfl, rfl, rfl⟩, same⟩
  have spares : ∀ a ∈ actions, ∀ place, a.LooksAt place → ¬ Unseen actions place :=
    fun a ha place looks unseen => unseen a ha looks
  obtain ⟨t, run', last, replies⟩ :=
    start.runs (inPlainView_empty objects journaling) programs spares byName run
  exact ⟨t, run', last.toSameTables, replies, last.samePlaces.step_eq last.scopes⟩

/-- A function and the symbol of its scope, each the parent of the other. -/
def parentCycle : Objects :=
  [.declare (.str "f") (some (.str "int")) (some (.object 1)) none,
    .declare (.str "main") none (some (.object 0)) none]

/-- The same two objects, of which the second has no name and no parent. -/
def parentNameless : Objects :=
  [.declare (.str "f") (some (.str "int")) (some (.object 1)) (some (.int 1)),
    .declare (.int 7) (some (.str "scope")) none none]

/-- The function is filed, refused the second time, and looked up by its parent; what is
assigned in between does not matter. -/
def fileAndFind (between : Action) : List Action :=
  [.create KeyFunction.byDefault (.bool true), .call 0 (.insert .current (.object 0) .absent),
    between, .call 0 (.insert .current (.str "f") (.object 0)),
    .call 0 (.lookup .chain (.object 0) ⟨.absent, .object 1⟩)]

/-- Where a program leads. -/
def afterAll (objects : Objects) (actions : List Action) : Store :=
  actions.foldl (fun s a => (s.act a).store) (.empty objects true)

/-- The parent is compared, on insertion and by the filter, but no attribute of it shows. -/
theorem unseen_attributes_make_no_difference_in_a_cycle :
    let actions := fileAndFind (.assign 1 .parent (.object 1))
    let others := fileAndFind (.assign 0 .extra (.object 0))
    let outcomes := fun (objects : Objects) (program : List Action) =>
      ((Store.empty objects true).callReplies program).map fun x => x.2.outcome
    Runs (.empty parentCycle true) actions (afterAll parentCycle actions)
      ∧ (Store.empty parentCycle true).Along ByName actions
      ∧ parentCycle.SameBut (Unseen actions) parentNameless
      ∧ ProgramsBut (Unseen actions) actions others
      ∧ List.Forall₂ AlikeReplies ((Store.empty parentCycle true).callReplies actions)
          ((Store.empty parentNameless true).callReplies others)
      ∧ outcomes parentCycle actions
          = [.ok .done,
              .error (.duplicate ⟨.str "f", .object 0, .str "local",
                "Symbol f already found in local scope"⟩),
              .ok (.values [.object 0])]
      ∧ outcomes parentNameless others = outcomes parentCycle actions := by
  intro actions others outcomes
  have one : (0 : Nat) < 1 := by decide
  have run : Runs (.empty parentCycle true) actions (afterAll parentCycle actions) :=
    .cons trivial (.cons one (.cons trivial (.cons one (.cons one (.nil _)))))
  have byName : (Store.empty parentCycle true).Along ByName actions := by
    have keyed : ∀ (u : Store) (op : Operation) (key : Value), op.key? = some key →
        u.objects.Named key → u.ByName (.call 0 op) := by
      intro u op key hkey named
      refine ⟨?_, ?_⟩
      · intro f hf
        cases op <;> cases hf
        cases hkey
      · rintro other hother
        obtain rfl : key = other := Option.some.inj (hkey.symm.trans hother)
        exact named
    refine ⟨⟨?_, ?_⟩, keyed _ _ _ rfl (.inr ⟨.str "f", rfl, rfl⟩), ⟨?_, ?_⟩,
      keyed _ _ _ rfl (.inl rfl), keyed _ _ _ rfl (.inr ⟨.str "f", rfl, rfl⟩), trivial⟩
    · rintro f ⟨⟩
      rfl
    all_goals
      rintro x ⟨⟩
  -- the program looks at nothing of the parent, and at no extra
  have keys : ∀ a ∈ actions, a.key? ≠ some (.object 1) ∧ a.symbol? ≠ some (.object 1) := by
    simp [actions, fileAndFind, Action.key?, Operation.key?, Action.symbol?, storedSymbol,
      Value.isAbsent]
  have unseen : ∀ attr, Unseen actions ⟨1, attr⟩ := by
    rintro attr a ha (⟨hkey⟩ | ⟨hsymbol⟩ | ⟨hsymbol⟩)
    · exact (keys a ha).1 hkey
    · exact (keys a ha).2 hsymbol
    · exact (keys a ha).2 hsymbol
  have unseen' : Unseen actions ⟨0, .extra⟩ := by
    rintro a - looks
    cases looks
  have same : parentCycle.SameBut (Unseen actions) parentNameless := by
    refine ⟨rfl, ?_, ?_⟩
    · rintro (_ | _ | id) <;> rfl
    · rintro (_ | _ | id) attr shown
      · cases attr with
        | extra => exact absurd unseen' shown
        | _ => rfl
      · exact absurd (unseen attr) shown
      · rfl
  have programs : ProgramsBut (Unseen actions) actions others :=
    .same _ (.same _ (.first _ (unseen .parent) (.second _ unseen' (.same _ (.same _ .nil)))))
  obtain ⟨t, -, -, replies, -⟩ := unseen_attributes_make_no_difference run byName same programs
  exact ⟨run, byName, same, programs, replies, rfl, rfl⟩

end Store

end ScopeChain
