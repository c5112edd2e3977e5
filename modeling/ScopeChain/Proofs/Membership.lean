/-
  ScopeChain.Proofs.Membership
  ────────────────────────────
  **WHICH KEYS A SCOPE HAS, AND WHEN A TABLE HAS A KEY.**

  A key is any value at all, and equality mixes kinds: a number and a truth
  value, a string and an object that is one, can be equal keys.  A scope has one
  bucket for all keys that are equal, and it gets a key by one event only, an
  insertion that files a symbol there, at whatever node.  A rejected insertion
  adds none, nor does a lookup.  So the keys of a scope are those that were
  accepted into it since it was opened, each once, in the form in which it came
  first.

      firstNonempty_eq_nil_iff
                             — when no scope answers
      bucket_eq_nil_iff      — which keys find nothing in a scope
      Linked.contains_iff    — when a table has a key
      Store.filedKey?        — the key that an action brings into a scope
      filedKey?_eq_some_iff  — when it brings one
      Store.acceptedKeys     — the keys that a run brings into a scope
      Runs.keys              — what they make of the keys it has
      foldl_withKey          — the same, as keys without their repetitions
      Runs.exists_opened     — each scope was opened by some action
      keys_and_membership    — buckets, membership and the count of keys
-/
import ScopeChain.Proofs.Failures
import ScopeChain.Proofs.Rearrangement
import ScopeChain.Proofs.Rejections

namespace ScopeChain

/-! ## §1. Finding nothing. -/

theorem firstNonempty_eq_nil_iff {α : Type} {ls : List (List α)} :
    firstNonempty ls = [] ↔ ∀ l ∈ ls, l = [] := by
  induction ls with
  | nil => simp [firstNonempty]
  | cons l rest ih =>
      cases l with
      | nil => simp [firstNonempty, ih]
      | cons x xs => simp [firstNonempty]

/-- In a scope without empty buckets a key finds nothing exactly if none is one with it. -/
theorem ScopeMap.bucket_eq_nil_iff {objs : Objects} {m : ScopeMap} (sound : ∀ b ∈ m, b.Sound)
    {k : Value} : m.bucket objs k = [] ↔ ∀ k' ∈ m.keys, objs.same k' k = false := by
  constructor
  · intro hnil k' hmem
    by_contra hsame
    obtain ⟨b, hb, -, hentries⟩ := exists_bucket_of_mem_keys hmem (by simpa using hsame)
    -- the bucket found would be empty
    rw [hnil] at hentries
    exact (sound b hb).nonempty hentries.symm
  · intro hnone
    rcases insert_cases objs m k k with ⟨front, b, back, hm, hkey, -, -⟩ | ⟨-, hnil, -⟩
    · have hmem : b.key ∈ m.keys := List.mem_map_of_mem (by simp [hm])
      rw [hnone b.key hmem] at hkey
      cases hkey
    · exact hnil

namespace Store

variable {s t : Store} {n : NodeId} {i : ScopeId} {actions : List Action}

/-- **A table has a key if and only if some scope along its chain has one that is equal.** -/
theorem Filled.contains_iff (filled : s.Filled) {key k : Value} (hk : s.addressAt n key = .ok k)
    (number : Objects.isNaN k = false) :
    ∃ held, s.contains n key = .ok held
      ∧ (held = true ↔ ∃ m ∈ s.chain n, ∃ k' ∈ (s.here m).keys, s.objects.equal k' k = true) := by
  have answer : s.contains n key = .ok (!(s.matchesWithin n k .all .chain).isEmpty) := by
    unfold contains lookup
    rw [hk]
  refine ⟨_, answer, ?_⟩
  -- a scope has no match exactly if none of its keys is one with the key
  have nowhere : s.matchesWithin n k .all .chain = []
      ↔ ∀ m ∈ s.chain n, ∀ k' ∈ (s.here m).keys, s.objects.same k' k = false := by
    show firstNonempty ((s.chain n).map (s.matchesHere k .all)) = [] ↔ _
    rw [firstNonempty_eq_nil_iff, List.forall_mem_map]
    refine forall_congr' fun m => forall_congr' fun _ => ?_
    have empty : (s.here m).bucket s.objects k = []
        ↔ ∀ k' ∈ (s.here m).keys, s.objects.same k' k = false :=
      ScopeMap.bucket_eq_nil_iff (filled (s.node m).scope)
    have all : s.matchesHere k .all m = (s.here m).bucket s.objects k :=
      List.filter_eq_self.mpr fun v _ => Filter.accepts_all s.objects v
    rw [all]
    exact empty
  rw [Bool.not_eq_true', List.isEmpty_eq_false_iff, ne_eq, nowhere]
  simp [Objects.equal_eq_same number]

/-! ## §2. Keys that a run brings into a scope. -/

/-- The key that an action files a symbol under in a scope, if it files one there. -/
def filedKey? (s : Store) (i : ScopeId) : Action → Option Value
  | .call n (.insert target key value) =>
      if s.targetScope n target = i then (s.accepted? n target key value).map Filing.key else none
  | _ => none

theorem filedKey?_insert (s : Store) (i : ScopeId) (n : NodeId) (target : Target)
    (key value : Value) :
    s.filedKey? i (.call n (.insert target key value))
      = if s.targetScope n target = i then (s.accepted? n target key value).map Filing.key
        else none :=
  rfl

/-- **An insertion brings a key into a scope** exactly if it goes there, the key is what it
derives, and it succeeds; or else everything was in order but its record. -/
theorem filedKey?_eq_some_iff {target : Target} {key value k : Value} :
    let op : Operation := .insert target key value
    s.filedKey? i (.call n op) = some k
      ↔ s.targetScope n target = i ∧ s.addressAt n key = .ok k
        ∧ ((s.perform n op).outcome = .ok .done ∨ FiledUnrecorded s n op (s.perform n op)) := by
  intro op
  -- to be filed is to be decided on without a clash, whatever becomes of the record
  have accepted : s.filedKey? i (.call n op) = some k
      ↔ s.targetScope n target = i ∧ ∃ f, s.filing n target key value = .ok f ∧ f.clash = none
          ∧ f.key = k := by
    rw [filedKey?_insert]
    unfold accepted?
    split
    next hi => cases s.filing n target key value <;> simp [hi, Except.toOption, Option.filter]
    next hi => simp [hi]
  rw [accepted]
  refine and_congr_right fun _ => ?_
  constructor
  · rintro ⟨f, decided, clear, rfl⟩
    refine ⟨(of_filing_eq_ok decided).1, ?_⟩
    cases record : s.insertionRecord n target f with
    | ok events => exact .inl (perform_insert_done_iff.mpr ⟨f, events, decided, clear, record⟩)
    | error fault => exact .inr (filedUnrecorded_of_record decided clear record)
  · rintro ⟨hk, happened⟩
    have filed : ∃ f, s.filing n target key value = .ok f ∧ f.clash = none := by
      rcases happened with done | unrecorded
      · obtain ⟨f, -, decided, clear, -⟩ := perform_insert_done_iff.mp done
        exact ⟨f, decided, clear⟩
      · exact unrecorded.filing
    obtain ⟨f, decided, clear⟩ := filed
    have haddress := (of_filing_eq_ok decided).1
    rw [hk] at haddress
    exact ⟨f, decided, clear, (Except.ok.inj haddress).symm⟩

/-- The keys that a run brings into a scope, one for each symbol that it files there, in their
order and with repetitions. -/
def acceptedKeys (i : ScopeId) (s : Store) : List Action → List Value
  | [] => []
  | a :: rest => (s.filedKey? i a).toList ++ acceptedKeys i (s.act a).store rest

end Store

/-- One key more, unless there is one that is the same. -/
def withKey (objs : Objects) (keys : List Value) (k : Value) : List Value :=
  if keys.any (fun k' => objs.same k' k) then keys else keys ++ [k]

theorem Objects.SameKinds.withKey {objs objs' : Objects} (h : SameKinds objs objs') :
    ScopeChain.withKey objs' = ScopeChain.withKey objs := by
  funext keys k
  simp only [ScopeChain.withKey, h.same]

namespace Store

variable {s t : Store} {n : NodeId} {i : ScopeId} {actions : List Action}

/-- Leaving goes back to a scope that is there. -/
theorem scopes_perform_leave (s : Store) (n : NodeId) :
    (s.perform n .leave).store.scopes = s.scopes := by
  cases hp : (s.node n).parent with
  | none => rw [perform_leave_of_top hp]
  | some p =>
      rw [perform_leave_of_link hp]
      rfl

/-- An action brings one key into a scope at the most, and takes none away. -/
theorem Linked.keys_act (linked : s.Linked) {a : Action} (admitted : s.Admits a) :
    ((s.act a).store.scopes.read i).keys
      = (s.filedKey? i a).toList.foldl (withKey s.objects) (s.scopes.read i).keys := by
  cases a with
  | create => exact congrArg ScopeMap.keys (read_push_nil s.scopes i)
  | assign => rfl
  | call n op =>
      cases op with
      | insert target key value =>
          show ((s.perform n (.insert target key value)).store.scopes.read i).keys = _
          rw [perform_insert_store, insert_store_eq, filedKey?_insert]
          cases s.accepted? n target key value with
          | none => simp
          | some f =>
              show ((s.file (s.targetScope n target) f.key f.symbol).scopes.read i).keys = _
              rw [read_file]
              by_cases hi : s.targetScope n target = i
              · subst hi
                rw [if_pos ⟨rfl, linked.targetScope_lt admitted target⟩, if_pos rfl,
                  ScopeMap.keys_insert_eq]
                rfl
              · rw [if_neg fun h => hi h.1.symm, if_neg hi]
                rfl
      | enter => exact congrArg ScopeMap.keys (read_push_nil s.scopes i)
      | leave =>
          show ((s.perform n .leave).store.scopes.read i).keys = _
          rw [scopes_perform_leave]
          rfl
      | _ => rfl

/-- **The keys of a scope after a run** are those it had and those that the run brings into it,
each unless there is one already that is the same. -/
theorem Runs.keys (run : Runs s actions t) (linked : s.Linked) :
    (t.scopes.read i).keys
      = (s.acceptedKeys i actions).foldl (withKey s.objects) (s.scopes.read i).keys := by
  induction run with
  | nil => rfl
  | @cons s t a rest admitted run ih =>
      -- no action on the way changes which keys are the same
      have kinds := (act_entriesEffect s a).grows.kinds
      rw [ih ((act_change admitted).linked linked), linked.keys_act admitted, kinds.withKey,
        acceptedKeys, List.foldl_append]

end Store

/-- Keys brought in one by one are the keys without their repetitions, where none is "not a
number". -/
theorem foldl_withKey {objs : Objects} {ks : List Value}
    (numbers : ∀ k ∈ ks, Objects.isNaN k = false) :
    ks.foldl (withKey objs) [] = ks.eraseDupsBy objs.equal := by
  -- the library keeps what it has met in reverse
  have loop : ∀ met : List Value,
      ks.foldl (withKey objs) met.reverse = List.eraseDupsBy.loop objs.equal ks met := by
    induction ks with
    | nil =>
        intro met
        rfl
    | cons k rest ih =>
        intro met
        have ih := ih fun k' hk' => numbers k' (List.mem_cons_of_mem _ hk')
        have hmet : (met.reverse.any fun k' => objs.same k' k) = met.any (objs.equal k) := by
          rw [List.any_reverse]
          refine congrArg met.any (funext fun k' => ?_)
          rw [Objects.equal_comm, Objects.equal_eq_same (numbers k List.mem_cons_self)]
        rw [List.foldl_cons, withKey, hmet, List.eraseDupsBy.loop]
        cases met.any (objs.equal k) with
        | true => exact ih met
        | false =>
            show rest.foldl (withKey objs) (met.reverse ++ [k]) = _
            rw [← List.reverse_cons]
            exact ih (k :: met)
  exact loop []

/-! ## §3. Opening a scope. -/

/-- An action opens a scope: it makes a table, or enters a scope at a node. -/
inductive Action.Opens : Action → Prop where
  | create (keyFunction : KeyFunction) (policy : Value) : Opens (.create keyFunction policy)
  | enter (n : NodeId) : Opens (.call n .enter)

namespace Store

variable {s t : Store} {n : NodeId} {i : ScopeId} {actions : List Action}

/-- An action opens one new scope, or none. -/
theorem opens_or_scopes_length_eq (s : Store) (a : Action) :
    a.Opens ∧ (s.act a).store.scopes.length = s.scopes.length + 1
      ∨ (s.act a).store.scopes.length = s.scopes.length := by
  cases a with
  | create keyFunction policy =>
      exact .inl ⟨.create keyFunction policy, length_scopes_create s keyFunction policy⟩
  | assign => exact .inr rfl
  | call n op =>
      show Action.Opens (.call n op) ∧ (s.perform n op).store.scopes.length = _
        ∨ (s.perform n op).store.scopes.length = _
      cases op with
      | enter => exact .inl ⟨.enter n, length_scopes_enter s n⟩
      | leave =>
          rw [scopes_perform_leave]
          exact .inr rfl
      | insert target key value =>
          rw [perform_insert_store, insert_store_eq]
          cases s.accepted? n target key value with
          | none => exact .inr rfl
          | some f => exact .inr (by simp [Store.file])
      | _ => exact .inr rfl

/-- The parts of a run before and after the action that opens a scope, and the store that it
is done to. -/
structure SinceOpened (s : Store) (actions : List Action) (i : ScopeId) (before : List Action)
    (a : Action) (after : List Action) (u : Store) : Prop where
  split : actions = before ++ a :: after
  run : Runs s before u
  opens : a.Opens
  /-- The scope is the next one. -/
  next : u.scopes.length = i

/-- **Every scope was opened by some action.** -/
theorem Runs.exists_opened (run : Runs s actions t) (fresh : s.scopes.length ≤ i)
    (hi : i < t.scopes.length) : ∃ before a after u, SinceOpened s actions i before a after u := by
  have one : ∀ {u : Store} {a : Action}, u.Admits a →
      (u.act a).store.scopes.length ≤ u.scopes.length + 1 := by
    intro u a _
    rcases opens_or_scopes_length_eq u a with ⟨-, h⟩ | h <;> omega
  obtain ⟨before, a, after, u, hactions, first, -, hlow, hhigh, -⟩ :=
    run.exists_raise (fun u => u.scopes.length) one fresh hi
  rcases opens_or_scopes_length_eq u a with ⟨opens, -⟩ | hsame
  · exact ⟨before, a, after, u, hactions, first, opens, hlow⟩
  · omega

/-- **The keys of a scope are those accepted since it was opened**, without repetitions. -/
theorem SinceOpened.keys_eq {before after : List Action} {a : Action} {u : Store}
    (opened : SinceOpened s actions i before a after u) (run : Runs s actions t) (linked : s.Linked)
    (numbers : ∀ k ∈ (u.act a).store.acceptedKeys i after, Objects.isNaN k = false) :
    (t.scopes.read i).keys
      = ((u.act a).store.acceptedKeys i after).eraseDupsBy t.objects.equal := by
  obtain ⟨rfl, first, opens, rfl⟩ := opened
  cases run.rest first with
  | cons admitted others =>
      have linked' := first.keeps Change.linked linked
      -- nothing is in the scope right after it was opened
      have empty : ((u.act a).store.scopes.read u.scopes.length) = [] := by
        have outside : u.scopes.read u.scopes.length = [] := by
          show u.scopes[u.scopes.length]?.getD default = []
          simp
          rfl
        cases opens with
        | create => exact (read_push_nil u.scopes _).trans outside
        | enter => exact (read_push_nil u.scopes _).trans outside
      have kinds := others.grows.kinds
      have sameEqual : t.objects.equal = (u.act a).store.objects.equal := by
        funext k k'
        exact kinds.equal k k'
      rw [others.keys ((act_change admitted).linked linked'), empty, sameEqual]
      exact foldl_withKey numbers

/-! ## §4. Buckets, membership and the count of keys. -/

/-- **What the keys of a table are.**  Let any run from an empty store lead to a store, with
calls at any nodes, under any key functions, and with any values for keys.

No bucket of any scope is empty and no two keys of one scope are equal, so that a key finds the
whole bucket of the one key that it is equal to.  A key that can be derived and used, and is no
"not a number", is in a table if and only if some scope along the table's chain has a key that
is equal to it.  And the scope that a table is at was opened by some action of the run.  Where
no key accepted into it since then, at whatever node, is "not a number", its keys are those
accepted without their repetitions, and their number is the one that the table shows. -/
theorem keys_and_membership {objects : Objects} {journaling : Bool}
    (run : Runs (.empty objects journaling) actions s) :
    (∀ i, (∀ b ∈ s.scopes.read i, b.entries ≠ [])
        ∧ (s.scopes.read i).keys.Pairwise (fun k k' => s.objects.equal k k' = false)
        ∧ ∀ b ∈ s.scopes.read i, ∀ k, s.objects.equal b.key k = true →
            (s.scopes.read i).bucket s.objects k = b.entries)
      ∧ ∀ n, n < s.nodes.length →
        (∀ key k, s.addressAt n key = .ok k → Objects.isNaN k = false →
          ∃ held, (s.perform n (.contains key)).outcome = .ok (.flag held)
            ∧ (held = true
              ↔ ∃ m ∈ s.chain n, ∃ k' ∈ (s.here m).keys, s.objects.equal k' k = true))
        ∧ (∃ before a after u,
            SinceOpened (.empty objects journaling) actions (s.node n).scope before a after u)
        ∧ ∀ before a after u,
            SinceOpened (.empty objects journaling) actions (s.node n).scope before a after u →
            let accepted := (u.act a).store.acceptedKeys (s.node n).scope after
            let distinct := accepted.eraseDupsBy s.objects.equal
            (∀ k ∈ accepted, Objects.isNaN k = false) →
              (s.here n).keys = distinct
                ∧ (s.perform n .keyCount).outcome = .ok (.number distinct.length)
                ∧ (s.perform n .describe).outcome
                    = (s.objects.display (s.node n).policy).map fun policy =>
                        .text ("<SymbolTable depth=" ++ toString (s.node n).depth
                          ++ " local_keys=" ++ toString distinct.length
                          ++ " allow_duplicates=" ++ policy ++ ">") := by
  have reachable : s.Reachable := ⟨objects, journaling, actions, run⟩
  have linked := reachable.linked
  refine ⟨?_, ?_⟩
  · intro i
    refine ⟨fun b hb => (reachable.filled i b hb).nonempty, ?_, ?_⟩
    · refine (reachable.keyed i).imp ?_
      intro k k' hkk'
      unfold Objects.equal
      rw [hkk']
      rfl
    · intro b hb k hkey
      exact (reachable.keyed i).bucket_eq hb (Objects.same_of_equal hkey)
  · intro n hn
    refine ⟨?_, ?_, ?_⟩
    · intro key k hk number
      obtain ⟨held, answer, exactly⟩ := reachable.filled.contains_iff hk number
      refine ⟨held, ?_, exactly⟩
      show (s.contains n key).map Answer.flag = _
      rw [answer]
      rfl
    · exact run.exists_opened (Nat.zero_le _) (linked.targetScope_lt hn .current)
    · intro before a after u opened accepted distinct numbers
      have keys : (s.here n).keys = distinct :=
        opened.keys_eq run (linked_empty objects journaling) numbers
      -- a bucket has one key
      have count : (s.here n).length = distinct.length := by
        rw [← keys]
        exact (List.length_map Bucket.key).symm
      refine ⟨keys, ?_, ?_⟩
      · show Except.ok (Answer.number (s.here n).length) = _
        rw [count]
      · show (s.describe n).map Answer.text = _
        unfold describe
        rw [count]
        cases s.objects.display (s.node n).policy <;> rfl

/-- Objects whose identifiers are equal numbers of three kinds, and one that is a string. -/
def onesAndText : Objects :=
  [⟨.plain "int", some (.int 1), some (.str "a"), none, none⟩,
    ⟨.plain "bool", some (.bool true), some (.str "b"), none, none⟩,
    ⟨.plain "float", some (.float ⟨"1.0", 0⟩), none, none, none⟩,
    ⟨.textual "x", none, some (.str "c"), none, none⟩]

/-- What a table and its parent do after the table has entered a scope: each of them files
symbols in that scope, and the last symbol is rejected. -/
def fillingTogether : List Action :=
  [.call 0 (.insert .current (.object 0) .absent), .call 0 .enter,
    .call 2 (.insert .current (.object 1) .absent), .call 2 (.insert .current (.str "x") .absent),
    .call 0 .leave, .call 0 (.insert .current (.object 3) .absent),
    .call 0 (.insert .current (.object 0) .absent)]

/-- A table that files objects under their identifiers has entered a scope. -/
def oneInside : Store := ((Store.empty onesAndText false).create KeyFunction.byIdentifier
  (.bool true)).enter 0

def filledTogether : Store := fillingTogether.foldl (fun s a => (s.act a).store) oneInside

theorem fillingTogether_runs :
    Runs (.empty onesAndText false)
      (.create KeyFunction.byIdentifier (.bool true) :: .call 0 .enter :: fillingTogether)
      filledTogether := by
  have first : (0 : Nat) < 1 := by decide
  have second : (0 : Nat) < 2 := by decide
  have third : (0 : Nat) < 3 := by decide
  have parent : (2 : Nat) < 3 := by decide
  exact .cons trivial (.cons first (.cons second (.cons second (.cons parent (.cons parent
    (.cons third (.cons third (.cons third (.nil _)))))))))

/-- Four keys were accepted, two and two of them equal; a third number finds the first two. -/
theorem keys_and_membership_filledTogether :
    let actions : List Action :=
      .create KeyFunction.byIdentifier (.bool true) :: .call 0 .enter :: fillingTogether
    let accepted : List Value := [.int 1, .bool true, .str "x", .object 3]
    Runs (.empty onesAndText false) actions filledTogether
      ∧ 0 < filledTogether.nodes.length
      ∧ oneInside.acceptedKeys 1 fillingTogether = accepted
      ∧ (∀ k ∈ accepted, Objects.isNaN k = false)
      ∧ (filledTogether.here 0).keys = [.int 1, .str "x"]
      ∧ (filledTogether.perform 0 .keyCount).outcome = .ok (.number 2)
      ∧ filledTogether.addressAt 0 (.object 2) = .ok (.float ⟨"1.0", 0⟩)
      ∧ (filledTogether.perform 0 (.contains (.object 2))).outcome = .ok (.flag true) := by
  intro actions accepted
  have hn : 0 < filledTogether.nodes.length := by decide
  have hkeys : oneInside.acceptedKeys 1 fillingTogether = accepted := rfl
  have numbers : ∀ k ∈ accepted, Objects.isNaN k = false := by simp [accepted, Objects.isNaN]
  obtain ⟨-, tables⟩ := keys_and_membership fillingTogether_runs
  obtain ⟨membership, -, counted⟩ := tables 0 hn
  -- the scope was opened by the second action
  have opened : SinceOpened (.empty onesAndText false) actions (filledTogether.node 0).scope
      [.create KeyFunction.byIdentifier (.bool true)] (.call 0 .enter) fillingTogether
      ((Store.empty onesAndText false).create KeyFunction.byIdentifier (.bool true)) :=
    ⟨rfl, .single trivial, .enter 0, rfl⟩
  obtain ⟨keys, count, -⟩ := counted _ _ _ _ opened numbers
  have query : filledTogether.addressAt 0 (.object 2) = .ok (.float ⟨"1.0", 0⟩) := rfl
  have number : Objects.isNaN (.float ⟨"1.0", 0⟩) = false := by decide +kernel
  have equal : filledTogether.objects.equal (.int 1) (.float ⟨"1.0", 0⟩) = true := by
    decide +kernel
  obtain ⟨held, answer, exactly⟩ := membership _ _ query number
  have mem : Value.int 1 ∈ (filledTogether.here 0).keys := by
    rw [keys]
    exact List.mem_cons_self
  rw [exactly.mpr ⟨0, by decide, .int 1, mem, equal⟩] at answer
  exact ⟨fillingTogether_runs, hn, hkeys, numbers, keys, count, query, answer⟩

end Store

end ScopeChain
