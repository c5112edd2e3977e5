/-
  ScopeChain.Proofs.LiveWalks
  ───────────────────────────
  **A WALK THROUGH A STORE THAT CHANGES UNDER IT.**

  Between the steps of a walk anything may happen to the store, as long as no
  node of the walked chain enters or leaves a scope.  What the walk has yielded
  then always lies behind it, slot by slot in the order of the listing, and what
  was there at its first step lies behind it or remains.  So no entry is met
  twice, and a walk that comes to its end has met every entry it set out with.
  A step fails only where the walk looks for another bucket of a scope that has
  got a new key while the walk was inside.

      Tour, Turn             — a store with a walk through it, and what happens
      Tour.yields            — what the walk has yielded, with slots
      Tour.Spares            — no turn moves a node of a chain
      Underway               — the invariant of a tour
      Tour.Began             — since when a walk is inside a scope
      Opens                  — an action that adds a key to a scope
      live_walk_laws         — what a walk yields, when it ends, when it fails
-/
import Mathlib.Data.List.Induction
import ScopeChain.Proofs.WalkSteps

namespace ScopeChain

/-! ## §1. Tours. -/

/-- One thing that happens while a walk is under way. -/
inductive Turn where
  /-- The caller does something to the store. -/
  | act (a : Action)
  /-- The walk takes a step. -/
  | next

/-- A store with a walk through it. -/
structure Tour where
  store : Store
  walk : Walk

namespace Tour

/-- What a turn leaves. -/
def turn (r : Tour) : Turn → Tour
  | .act a => { r with store := (r.store.act a).store }
  | .next => { r with walk := (r.store.step r.walk).1 }

/-- What several turns leave. -/
def after (r : Tour) (turns : List Turn) : Tour := turns.foldl turn r

/-- What a step of the walk would come to. -/
def found (r : Tour) : Except Fault (Option Value) := (r.store.step r.walk).2

/-- What a turn yields: the entry that a step comes to, with the slot where the
walk then stands. -/
def yielded (r : Tour) : Turn → List (Slot × Value)
  | .act _ => []
  | .next =>
      match r.found with
      | .ok (some v) => [((r.turn .next).walk.slot, v)]
      | .ok none => []
      | .error _ => []

/-- What several turns yield. -/
def yields (r : Tour) : List Turn → List (Slot × Value)
  | [] => []
  | t :: rest => r.yielded t ++ (r.turn t).yields rest

/-- A turn that moves none of some nodes. -/
def Spared (nodes : List NodeId) (r : Tour) : Turn → Prop
  | .act a => r.store.Admits a ∧ ∀ m ∈ nodes, r.store.moves a ≠ some m
  | .next => True

/-- Turns of which none moves any of some nodes. -/
def Spares (nodes : List NodeId) (r : Tour) : List Turn → Prop
  | [] => True
  | t :: rest => r.Spared nodes t ∧ (r.turn t).Spares nodes rest

/-- The walk is inside a scope and has met all that its bucket has. -/
def UsedUp (r : Tour) : Prop :=
  match r.walk with
  | .inside _ scope _ bucket next => ((r.store.scopes.read scope).entriesAt bucket)[next]? = none
  | .unstarted _ => False
  | .finished => False

/-- The step after some turns takes the walk into a scope, and through the turns
after that step it is inside. -/
structure Began (start : Tour) (before since : List Turn) (i : ScopeId) : Prop where
  outside : (start.after before).walk.scope? ≠ some i
  inside : ∀ x y, since = x ++ y → (start.after (before ++ .next :: x)).walk.scope? = some i

theorem after_append (r : Tour) (first second : List Turn) :
    r.after (first ++ second) = (r.after first).after second :=
  List.foldl_append

theorem after_concat (r : Tour) (turns : List Turn) (t : Turn) :
    r.after (turns ++ [t]) = (r.after turns).turn t := by
  rw [after_append]
  rfl

theorem yields_append (r : Tour) (first second : List Turn) :
    r.yields (first ++ second) = r.yields first ++ (r.after first).yields second := by
  induction first generalizing r with
  | nil => rfl
  | cons t rest ih =>
      rw [List.cons_append, yields, yields, ih, List.append_assoc]
      rfl

theorem spares_append {nodes : List NodeId} {r : Tour} {first second : List Turn} :
    r.Spares nodes (first ++ second)
      ↔ r.Spares nodes first ∧ (r.after first).Spares nodes second := by
  induction first generalizing r with
  | nil => simp [Spares, after]
  | cons t rest ih =>
      rw [List.cons_append, Spares, Spares, ih, and_assoc]
      rfl

/-! ## §2. What lies behind a walk and before it. -/

open Store

/-- A tour over a node, some turns after a store in which its chain was as it is
now: the walk is on the chain, and what it has yielded lies behind it. -/
structure Underway (s : Store) (n : NodeId) (r : Tour) (yields : List (Slot × Value)) : Prop where
  linked : r.store.Linked
  lt : n < r.store.nodes.length
  stays : ChainStays s r.store n
  on : r.store.OnChain n r.walk
  yields : yields.Sublist (r.store.passed n r.walk)

namespace Underway

variable {s : Store} {n : NodeId} {r : Tour} {yields : List (Slot × Value)}
  (h : Underway s n r yields)
include h

theorem effect : StepEffect r.store r.walk (r.turn .next).walk r.found :=
  h.linked.step_effect h.lt h.on

/-- What a step yields lies behind the walk after the step. -/
theorem yields_next : (yields ++ r.yielded .next).Sublist
    (r.store.passed n (r.turn .next).walk) := by
  have on := h.effect.onChain h.linked h.lt h.on
  have divided := h.linked.passed_append_remaining h.lt h.on
  have divided' := h.linked.passed_append_remaining h.lt on
  have effect := h.effect
  -- a walk that is over has everything behind it
  have ended : (r.turn .next).walk = .finished →
      (yields ++ []).Sublist (r.store.passed n (r.turn .next).walk) := by
    intro hfinished
    rw [hfinished, passed, ← divided, List.append_nil]
    exact h.yields.trans (List.sublist_append_left _ _)
  rw [yielded]
  split
  next v hfound =>
    -- the two divisions of the listing differ by the entry that the step took
    rw [hfound] at effect
    have hpassed : r.store.passed n (r.turn .next).walk
        = r.store.passed n r.walk ++ [((r.turn .next).walk.slot, v)] := by
      rw [← divided', effect.remaining_of_some, List.append_cons] at divided
      exact (List.append_cancel_right divided).symm
    rw [hpassed]
    exact h.yields.append (List.Sublist.refl _)
  next hfound =>
    rw [hfound] at effect
    exact ended effect.remaining_of_none.2
  next fault hfound =>
    rw [hfound] at effect
    exact ended effect.of_error.1

/-- An action that spares the chain leaves it in its place. -/
theorem chainStays {a : Action} (spared : r.Spared (s.chain n) (.act a)) :
    ChainStays r.store (r.store.act a).store n := by
  refine h.linked.chainStays_act spared.1 h.lt fun m hm => spared.2 m ?_
  rw [← h.stays.chain]
  exact hm

/-- **The invariant is kept by every turn** that moves no node of the chain. -/
theorem turn {t : Turn} (spared : r.Spared (s.chain n) t) :
    Underway s n (r.turn t) (yields ++ r.yielded t) := by
  cases t with
  | next =>
      exact ⟨h.linked, h.lt, h.stays, h.effect.onChain h.linked h.lt h.on, h.yields_next⟩
  | act a =>
      have change := act_change spared.1
      have stays := h.chainStays spared
      refine ⟨change.linked h.linked, Nat.lt_of_lt_of_le h.lt change.nodes_length_le,
        h.stays.trans stays, stays.onChain h.on, ?_⟩
      rw [yielded, List.append_nil]
      exact h.yields.trans (stays.passed_sublist r.walk)

end Underway

theorem underway_start {s : Store} (h : s.Linked) {n : NodeId} (hn : n < s.nodes.length) :
    Underway s n ⟨s, .unstarted n⟩ [] :=
  ⟨h, hn, ⟨.refl s, rfl, fun m _ => .refl s m⟩, rfl, .slnil⟩

/-- **The invariant holds throughout a tour.** -/
theorem Underway.after {s : Store} {n : NodeId} {r : Tour} {past : List (Slot × Value)}
    (h : Underway s n r past) {turns : List Turn} (spares : r.Spares (s.chain n) turns) :
    Underway s n (r.after turns) (past ++ r.yields turns) := by
  induction turns generalizing r past with
  | nil =>
      rw [Tour.yields, List.append_nil]
      exact h
  | cons t rest ih =>
      rw [Tour.yields, ← List.append_assoc]
      exact ih (h.turn spares.1) spares.2

/-- No step of some turns fails. -/
def Unfailing (r : Tour) (turns : List Turn) : Prop :=
  ∀ x y, turns = x ++ .next :: y → ∀ fault, (r.after x).found ≠ .error fault

/-- What remains before a turn that does not fail is yielded by it or remains
after it. -/
theorem Underway.mem_remaining {s : Store} {n : NodeId} {r : Tour} {past : List (Slot × Value)}
    (h : Underway s n r past) {t : Turn} (spared : r.Spared (s.chain n) t)
    (unfailing : t = .next → ∀ fault, r.found ≠ .error fault) {x : Slot × Value}
    (hx : x ∈ r.store.remaining r.walk) :
    x ∈ r.yielded t ∨ x ∈ (r.turn t).store.remaining (r.turn t).walk := by
  cases t with
  | act a =>
      have change := act_change spared.1
      have stays := h.chainStays spared
      have grown := stays.remaining_sublist h.linked (change.linked h.linked) h.lt
        (Nat.lt_of_lt_of_le h.lt change.nodes_length_le) h.on
      exact .inr (grown.subset hx)
  | next =>
      have effect := h.effect
      rw [yielded]
      split
      next v hfound =>
        rw [hfound] at effect
        rw [effect.remaining_of_some] at hx
        rcases List.mem_cons.mp hx with rfl | hrest
        · exact .inl List.mem_cons_self
        · exact .inr hrest
      next hfound =>
        rw [hfound] at effect
        rw [effect.remaining_of_none.1] at hx
        cases hx
      next fault hfound => exact absurd hfound (unfailing rfl fault)

/-- **What remains is met in the end, or remains still**, as long as no step
fails. -/
theorem Underway.met_or_remaining {s : Store} {n : NodeId} {r : Tour}
    {past : List (Slot × Value)} (h : Underway s n r past) {turns : List Turn}
    (spares : r.Spares (s.chain n) turns) (unfailing : r.Unfailing turns) {x : Slot × Value}
    (hx : x ∈ r.store.remaining r.walk) :
    x ∈ r.yields turns ∨ x ∈ (r.after turns).store.remaining (r.after turns).walk := by
  induction turns generalizing r past with
  | nil => exact .inr hx
  | cons t rest ih =>
      have first : t = .next → ∀ fault, r.found ≠ .error fault := by
        rintro rfl fault
        exact unfailing [] rest rfl fault
      have others : (r.turn t).Unfailing rest := by
        rintro x y rfl
        exact unfailing (t :: x) y rfl
      rw [Tour.yields, List.mem_append]
      rcases h.mem_remaining spares.1 first hx with hmet | hleft
      · exact .inl (.inl hmet)
      · rcases ih (h.turn spares.1) spares.2 others hleft with hmet | hleft'
        · exact .inl (.inr hmet)
        · exact .inr hleft'

/-! ## §3. New keys. -/

/-- An action adds a key to a scope. -/
def Opens (s : Store) (i : ScopeId) (a : Action) : Prop :=
  ∃ k, ((s.act a).store.scopes.read i).keys = (s.scopes.read i).keys ++ [k]

theorem keys_insert (objs : Objects) (m : ScopeMap) (key v : Value) :
    (m.insert objs key v).keys = m.keys ∨ (m.insert objs key v).keys = m.keys ++ [key] := by
  rw [ScopeMap.keys_insert_eq]
  split
  · exact .inl rfl
  · exact .inr rfl

/-- An action leaves the keys of a scope, or adds one. -/
theorem keys_act (s : Store) (i : ScopeId) (a : Action) :
    ((s.act a).store.scopes.read i).keys = (s.scopes.read i).keys ∨ Opens s i a := by
  have effect := act_entriesEffect s a
  rw [Opens]
  generalize (s.act a).store = t at effect ⊢
  cases effect with
  | quiet _ entries =>
      rw [entries i]
      exact .inl rfl
  | assign id attr value => exact .inl rfl
  | file decided accepted =>
      rw [read_file]
      split
      next hi =>
        rw [hi.1]
        exact (keys_insert _ _ _ _).imp id fun hkeys => ⟨_, hkeys⟩
      next => exact .inl rfl

theorem length_keys (m : ScopeMap) : m.keys.length = m.length := List.length_map _

theorem length_le_after (r : Tour) (turns : List Turn) (i : ScopeId) :
    (r.store.scopes.read i).length ≤ ((r.after turns).store.scopes.read i).length := by
  induction turns generalizing r with
  | nil => exact Nat.le_refl _
  | cons t rest ih =>
      refine Nat.le_trans ?_ (ih (r.turn t))
      cases t with
      | next => exact Nat.le_refl _
      | act a =>
          rw [← length_keys, ← length_keys]
          rcases keys_act r.store i a with hsame | ⟨k, hopen⟩
          · exact Nat.le_of_eq (congrArg List.length hsame.symm)
          · show _ ≤ ((r.store.act a).store.scopes.read i).keys.length
            rw [hopen, List.length_append]
            exact Nat.le_add_right _ _

/-- Some action among turns adds a key to a scope. -/
def OpensAmong (r : Tour) (i : ScopeId) (turns : List Turn) : Prop :=
  ∃ x a y, turns = x ++ .act a :: y ∧ Opens (r.after x).store i a

theorem opensAmong_cons {r : Tour} {i : ScopeId} {t : Turn} {rest : List Turn} :
    r.OpensAmong i (t :: rest)
      ↔ (∃ a, t = .act a ∧ Opens r.store i a) ∨ (r.turn t).OpensAmong i rest := by
  constructor
  · rintro ⟨x, a, y, hturns, hopen⟩
    cases x with
    | nil =>
        obtain ⟨rfl, -⟩ := List.cons.inj hturns
        exact .inl ⟨a, rfl, hopen⟩
    | cons u x =>
        obtain ⟨rfl, hrest⟩ := List.cons.inj hturns
        exact .inr ⟨x, a, y, hrest, hopen⟩
  · rintro (⟨a, rfl, hopen⟩ | ⟨x, a, y, rfl, hopen⟩)
    · exact ⟨[], a, rest, rfl, hopen⟩
    · exact ⟨t :: x, a, y, rfl, hopen⟩

/-- **A scope has another number of keys exactly if some action has added one.** -/
theorem length_after_ne_iff (r : Tour) (turns : List Turn) (i : ScopeId) :
    ((r.after turns).store.scopes.read i).length ≠ (r.store.scopes.read i).length
      ↔ r.OpensAmong i turns := by
  induction turns generalizing r with
  | nil =>
      refine iff_of_false (fun h => h rfl) ?_
      rintro ⟨x, a, y, hturns, -⟩
      cases x <;> cases hturns
  | cons t rest ih =>
      rw [opensAmong_cons, ← ih (r.turn t)]
      have hafter : r.after (t :: rest) = (r.turn t).after rest := rfl
      have hle := length_le_after (r.turn t) rest i
      rw [hafter]
      cases t with
      | next =>
          refine ⟨.inr, ?_⟩
          rintro (⟨a, ha, -⟩ | hne)
          · cases ha
          · exact hne
      | act a =>
          rcases keys_act r.store i a with hsame | ⟨k, hopen⟩
          · -- no key is added now, so it is added later or not at all
            have hlength : ((r.turn (.act a)).store.scopes.read i).length
                = (r.store.scopes.read i).length := by
              rw [← length_keys, ← length_keys]
              exact congrArg List.length hsame
            rw [hlength]
            refine ⟨.inr, ?_⟩
            rintro (⟨b, hb, k, hk⟩ | hne)
            · cases hb
              rw [hsame] at hk
              simp at hk
            · exact hne
          · have hlength : ((r.turn (.act a)).store.scopes.read i).length
                = (r.store.scopes.read i).length + 1 := by
              rw [← length_keys, ← length_keys]
              have := congrArg List.length hopen
              rw [List.length_append] at this
              exact this
            refine iff_of_true (by omega) (.inl ⟨a, rfl, k, hopen⟩)

/-! ## §4. Since when a walk is inside a scope. -/

/-- A walk that has come to be inside a scope has begun it at some step, and has
been inside since. -/
theorem exists_began {start : Tour} {i : ScopeId} (outside : start.walk.scope? ≠ some i)
    {turns : List Turn} (inside : (start.after turns).walk.scope? = some i) :
    ∃ before since, turns = before ++ .next :: since ∧ start.Began before since i := by
  induction turns using List.reverseRecOn with
  | nil => exact absurd inside outside
  | append_singleton turns t ih =>
      by_cases hprevious : (start.after turns).walk.scope? = some i
      · -- it was inside before the last turn, so that turn only adds to the time
        obtain ⟨before, since, rfl, began⟩ := ih hprevious
        refine ⟨before, since ++ [t], by simp, began.outside, ?_⟩
        intro x y hsplit
        rcases List.eq_nil_or_concat y with rfl | ⟨y, u, rfl⟩
        · rw [List.append_nil] at hsplit
          subst hsplit
          rw [List.append_assoc] at inside
          exact inside
        · rw [List.concat_eq_append, ← List.append_assoc] at hsplit
          exact began.inside x y (List.append_inj_left' hsplit rfl)
      · -- only a step takes a walk anywhere
        rw [after_concat] at inside
        cases t with
        | act a => exact absurd inside hprevious
        | next =>
            refine ⟨turns, [], rfl, hprevious, ?_⟩
            intro x y hsplit
            obtain ⟨rfl, rfl⟩ := List.append_eq_nil_iff.mp hsplit.symm
            rw [after_concat]
            exact inside

/-- **A walk knows how many keys its scope had when it began it.** -/
theorem keys_of_began {s : Store} {n : NodeId} {start : Tour} {past : List (Slot × Value)}
    (h : Underway s n start past) {before since : List Turn} {i : ScopeId}
    (spares : start.Spares (s.chain n) (before ++ .next :: since))
    (began : start.Began before since i) {c : NodeId} {keys bucket next : Nat}
    (hwalk : (start.after (before ++ .next :: since)).walk = .inside c i keys bucket next) :
    keys = ((start.after before).store.scopes.read i).length := by
  induction since using List.reverseRecOn generalizing c keys bucket next with
  | nil =>
      have prior := h.after (spares_append.mp spares).1
      rw [after_concat] at hwalk
      have effect := prior.effect
      rw [hwalk] at effect
      rcases effect.of_inside with ⟨bucket', next', hinside⟩ | ⟨-, -, hkeys⟩
      · exact absurd (congrArg Walk.scope? hinside) began.outside
      · exact hkeys
  | append_singleton since t ih =>
      have hsplit : before ++ .next :: (since ++ [t]) = (before ++ .next :: since) ++ [t] := by simp
      rw [hsplit] at spares hwalk
      rw [after_concat] at hwalk
      have spares' := (spares_append.mp spares).1
      have began' : start.Began before since i := by
        refine ⟨began.outside, fun x y hxy => began.inside x (y ++ [t]) ?_⟩
        rw [hxy, List.append_assoc]
      have hinside := began.inside since [t] rfl
      have prior := h.after spares'
      cases hprevious : (start.after (before ++ .next :: since)).walk with
      | unstarted m =>
          rw [hprevious] at hinside
          cases hinside
      | finished =>
          rw [hprevious] at hinside
          cases hinside
      | inside c' i' keys' bucket' next' =>
          rw [hprevious] at hinside
          obtain rfl : i' = i := Option.some.inj hinside
          have hkeys := ih spares' began' hprevious
          cases t with
          | act a =>
              have hsame := hprevious.symm.trans hwalk
              cases hsame
              exact hkeys
          | next =>
              have effect := prior.effect
              rw [hwalk, hprevious] at effect
              rcases effect.of_inside with ⟨_, _, hsame⟩ | ⟨mem, hscope, -⟩
              · cases hsame
                exact hkeys
              · -- a scope further out is another one
                have on := prior.on
                rw [hprevious] at on
                have hc' := prior.linked.lt_of_mem prior.lt (prior.linked.chain_path prior.lt)
                  c' on.1
                exact absurd (hscope.trans on.2.symm)
                  (prior.linked.scope_ne_of_mem_enclosing hc' c mem)

/-! ## §5. The laws. -/

/-- **A step fails exactly where the walk needs another bucket of a scope to which
a key has been added since the walk began it.** -/
theorem found_error_iff {s : Store} {n : NodeId} {start : Tour} {past : List (Slot × Value)}
    (h : Underway s n start past) (outside : start.walk.scope? = none) {turns : List Turn}
    (spares : start.Spares (s.chain n) turns) (fault : Fault) :
    (start.after turns).found = .error fault
      ↔ fault = .keysChanged ∧ (start.after turns).UsedUp
        ∧ ∃ before since i, turns = before ++ .next :: since ∧ start.Began before since i
          ∧ (start.after (before ++ [.next])).OpensAmong i since := by
  have prior := h.after spares
  -- where the walk is inside a scope, new keys are those added since it began the scope
  have added : ∀ before since i c keys bucket next, turns = before ++ .next :: since →
      start.Began before since i → (start.after turns).walk = .inside c i keys bucket next →
      (((start.after turns).store.scopes.read i).length ≠ keys
        ↔ (start.after (before ++ [.next])).OpensAmong i since) := by
    rintro before since i c keys bucket next rfl began hwalk
    have hkeys := keys_of_began h spares began hwalk
    rw [← length_after_ne_iff, ← after_append, List.append_assoc, after_concat, hkeys]
    exact Iff.rfl
  constructor
  · intro hfound
    have effect := prior.effect
    rw [hfound] at effect
    obtain ⟨-, hfault, c, i, keys, bucket, next, hwalk, usedUp, changed⟩ := effect.of_error
    have inside : (start.after turns).walk.scope? = some i := by
      rw [hwalk]
      rfl
    obtain ⟨before, since, hturns, began⟩ :=
      exists_began (by rw [outside]; exact nofun) inside
    refine ⟨hfault, ?_, before, since, i, hturns, began, ?_⟩
    · rw [UsedUp, hwalk]
      exact usedUp
    · exact (added before since i c keys bucket next hturns began hwalk).mp changed
  · rintro ⟨rfl, usedUp, before, since, i, hturns, began, opens⟩
    have inside := began.inside since [] (List.append_nil since).symm
    rw [← hturns] at inside
    cases hwalk : (start.after turns).walk with
    | unstarted m =>
        rw [hwalk] at inside
        cases inside
    | finished =>
        rw [hwalk] at inside
        cases inside
    | inside c j keys bucket next =>
        rw [hwalk] at inside
        obtain rfl : j = i := Option.some.inj inside
        have changed := (added before since j c keys bucket next hturns began hwalk).mpr opens
        rw [UsedUp, hwalk] at usedUp
        rw [found, hwalk, step_of_changed usedUp changed]

/-- A walk that is over stays over. -/
theorem walk_after_of_finished {r : Tour} (h : r.walk = .finished) (turns : List Turn) :
    (r.after turns).walk = .finished := by
  induction turns generalizing r with
  | nil => exact h
  | cons t rest ih =>
      refine ih ?_
      cases t with
      | act a => exact h
      | next =>
          show (r.store.step r.walk).1 = .finished
          rw [h]
          rfl

end Tour

namespace Store

open Tour

/-- **The laws of live walks.**  Let a walk over a node set out in a reachable
store, and let the turns from there on move no node of its chain: steps of the
walk, and between them insertions through any node, lookups, assignments of
policies and key functions, and whatever else.  What the walk has yielded at any
time is, entry by entry and in order, among the entries that the node sees at
any later time, where each has a slot of its own.  If no step fails and one
finds nothing, then every entry that the node saw at the outset has been
yielded.  A step fails if and only if the walk is inside a scope whose present
bucket it has used up and to which some action has added a key since the walk
began the scope.  And after a step that yields nothing all further steps yield
nothing, without failing. -/
theorem live_walk_laws {s : Store} (hs : s.Reachable) {n : NodeId} (hn : n < s.nodes.length)
    {turns : List Turn} (spares : (Tour.mk s (.unstarted n)).Spares (s.chain n) turns) :
    let start : Tour := ⟨s, .unstarted n⟩
    let last := start.after turns
    ((last.store.slots n).map Prod.snd = last.store.visible n
        ∧ ((last.store.slots n).map Prod.fst).Nodup
        ∧ ∀ earlier later, turns = earlier ++ later →
          (start.yields earlier).Sublist (last.store.slots n))
      ∧ (start.Unfailing turns → last.found = .ok none → ∀ e ∈ s.slots n, e ∈ start.yields turns)
      ∧ (∀ fault, last.found = .error fault
          ↔ fault = .keysChanged ∧ last.UsedUp
            ∧ ∃ before since i, turns = before ++ .next :: since ∧ start.Began before since i
              ∧ (start.after (before ++ [.next])).OpensAmong i since)
      ∧ ∀ earlier later, turns = earlier ++ .next :: later →
          (∀ v, (start.after earlier).found ≠ .ok (some v)) → last.found = .ok none := by
  intro start last
  have set_out : Underway s n start [] := underway_start hs.linked hn
  have here : Underway s n last (start.yields turns) := set_out.after spares
  refine ⟨⟨slots_map_snd _ n, here.linked.slots_nodup here.lt, ?_⟩, ?_, ?_, ?_⟩
  · -- what is yielded lies behind the walk, and that is a part of the listing
    rintro earlier later rfl
    have divided := here.linked.passed_append_remaining here.lt here.on
    have all : (start.yields (earlier ++ later)).Sublist (last.store.slots n) := by
      rw [← divided]
      exact here.yields.trans (List.sublist_append_left _ _)
    rw [yields_append] at all
    exact (List.sublist_append_left _ _).trans all
  · intro unfailing hfound e he
    have effect := here.effect
    rw [hfound] at effect
    rcases set_out.met_or_remaining spares unfailing he with hmet | hleft
    · exact hmet
    · rw [effect.remaining_of_none.1] at hleft
      cases hleft
  · exact found_error_iff set_out rfl spares
  · rintro earlier later rfl hnone
    have prior := set_out.after (spares_append.mp spares).1
    have effect := prior.effect
    have hover : ((start.after earlier).turn .next).walk = .finished := by
      cases hfound : (start.after earlier).found with
      | error fault =>
          rw [hfound] at effect
          exact effect.of_error.1
      | ok found =>
          cases found with
          | none =>
              rw [hfound] at effect
              exact effect.remaining_of_none.2
          | some v => exact absurd hfound (hnone v)
    have hlast : last.walk = .finished := by
      show (start.after (earlier ++ .next :: later)).walk = .finished
      rw [after_append]
      exact walk_after_of_finished hover later
    show (last.store.step last.walk).2 = .ok none
    rw [hlast]
    rfl

/-- What makes a table with an entry in each of two scopes. -/
def twoScopes : List Action :=
  [.create KeyFunction.byDefault (.bool true), .call 0 (.insert .current (.str "a") .absent),
    .call 0 .enter, .call 0 (.insert .current (.str "b") .absent)]

def twoScopesStore : Store :=
  twoScopes.foldl (fun s a => (s.act a).store) (.empty [] false)

theorem twoScopesStore_reachable : twoScopesStore.Reachable := by
  refine ⟨[], false, twoScopes, ?_⟩
  have first : (0 : Nat) < 1 := by decide
  have second : (0 : Nat) < 2 := by decide
  exact .cons trivial (.cons first (.cons first (.cons second (.nil _))))

/-- A walk over the table, with a key added to the outer scope before the walk gets
there and another one while it is inside. -/
def interrupted : List Turn :=
  [.next, .act (.call 1 (.insert .current (.str "c") .absent)), .next,
    .act (.call 0 (.insert .outermost (.str "d") .absent))]

theorem interrupted_spares :
    (Tour.mk twoScopesStore (.unstarted 0)).Spares (twoScopesStore.chain 0) interrupted := by
  have first : (0 : Nat) < 2 := by decide
  have second : (1 : Nat) < 2 := by decide
  exact ⟨trivial, ⟨second, fun m _ => nofun⟩, trivial, ⟨first, fun m _ => nofun⟩, trivial⟩

/-- The walk yields both entries that it set out with, not troubled by the first of
the new keys, and fails at the second. -/
theorem live_walk_laws_interrupted :
    let start : Tour := ⟨twoScopesStore, .unstarted 0⟩
    let last := start.after interrupted
    twoScopesStore.Reachable ∧ 0 < twoScopesStore.nodes.length
      ∧ start.Spares (twoScopesStore.chain 0) interrupted
      ∧ start.yields interrupted = [(⟨1, 0, 0⟩, .str "b"), (⟨0, 0, 0⟩, .str "a")]
      ∧ (start.yields interrupted).Sublist (last.store.slots 0)
      ∧ last.store.visible 0 = [.str "b", .str "a", .str "c", .str "d"]
      ∧ last.found = .error .keysChanged
      ∧ ∃ before since i, interrupted = before ++ .next :: since ∧ start.Began before since i
          ∧ (start.after (before ++ [.next])).OpensAmong i since := by
  have hn : 0 < twoScopesStore.nodes.length := by decide
  have met : (Tour.mk twoScopesStore (.unstarted 0)).yields interrupted
      = [(⟨1, 0, 0⟩, .str "b"), (⟨0, 0, 0⟩, .str "a")] := rfl
  have seen : ((Tour.mk twoScopesStore (.unstarted 0)).after interrupted).store.visible 0
      = [.str "b", .str "a", .str "c", .str "d"] := rfl
  have hfound : ((Tour.mk twoScopesStore (.unstarted 0)).after interrupted).found
      = .error .keysChanged := rfl
  obtain ⟨⟨-, -, among⟩, -, fails, -⟩ :=
    live_walk_laws twoScopesStore_reachable hn interrupted_spares
  exact ⟨twoScopesStore_reachable, hn, interrupted_spares, met,
    among interrupted [] (List.append_nil _).symm, seen, hfound, ((fails _).mp hfound).2.2⟩

end Store

end ScopeChain
