/-
  ScopeChain.Proofs.Narrowing
  ───────────────────────────
  **A NARROWER FILTER IS ANSWERED FURTHER OUT, IF AT ALL.**

  A lookup along a chain stops at the first scope with a match, and what counts
  as a match depends on the filter.  So filtering what a lookup finds is not the
  same as looking up with the filter: a scope whose entries are all filtered out
  no longer stops the lookup, and a scope further out answers instead.  It can
  never be one further in, and where it is the same scope the two do agree.

      Filter.Narrows         — a filter that asks for more than another
      Filter.beyond          — what it asks for besides
      Store.answerPlace      — which scope of a view answers a lookup
      foundWithin_chain_eq   — that scope alone makes up the answer
      answerPlace_le         — a narrower filter moves the place outwards
      narrower_filters_answer_outwards

  Answers are given with the slots of their entries, so that entries of two
  scopes are told apart also where they are one value.
-/
import ScopeChain.Proofs.Visibility

namespace ScopeChain

/-! ## §1. Narrower filters. -/

namespace Filter

/-- A filter that keeps what another asks for, and may ask for a type or a parent where
that one asks for none. -/
structure Narrows (g f : Filter) : Prop where
  type : f.type = .absent ∨ g.type = f.type
  parent : f.parent = .absent ∨ g.parent = f.parent

/-- What one filter asks of a mark where another asks for nothing. -/
def added (asked wider : Value) : Value := if wider.isAbsent then asked else .absent

/-- What a filter asks for where another asks for nothing. -/
def beyond (g f : Filter) : Filter := ⟨added g.type f.type, added g.parent f.parent⟩

/-- One mark passes what is asked of it if it passes the wider and what is added. -/
theorem asked_eq {asked wider : Value} (h : wider = .absent ∨ asked = wider) (objs : Objects)
    (mark : Value) :
    (asked.isAbsent || objs.equal mark asked)
      = ((wider.isAbsent || objs.equal mark wider)
        && ((added asked wider).isAbsent || objs.equal mark (added asked wider))) := by
  rcases h with rfl | rfl
  · -- all that is asked is added
    show _ = (true && (asked.isAbsent || objs.equal mark asked))
    rw [Bool.true_and]
  · -- nothing is added
    have hnone : added asked asked = .absent := by
      cases asked <;> rfl
    rw [hnone]
    exact (Bool.and_true _).symm

variable {f g : Filter}

/-- **To pass a narrower filter is to pass the wider one and what it adds.** -/
theorem Narrows.accepts_eq (h : g.Narrows f) (objs : Objects) (v : Value) :
    g.accepts objs v = (f.accepts objs v && (g.beyond f).accepts objs v) := by
  simp only [accepts, beyond]
  rw [asked_eq h.type, asked_eq h.parent]
  ac_rfl

end Filter

/-! ## §2. The first answer among several. -/

/-- The first answer that is not empty is that of the first place that has one. -/
theorem firstNonempty_map_eq {α β : Type} (answer : α → List β) (l : List α) :
    firstNonempty (l.map answer)
      = (l[l.findIdx fun a => !(answer a).isEmpty]?.map answer).getD [] := by
  induction l with
  | nil => rfl
  | cons a rest ih =>
      rw [List.map_cons, List.findIdx_cons]
      cases ha : answer a with
      | nil => exact ih
      | cons x xs => simp [firstNonempty, ha]

namespace Store

variable {s : Store} {n : NodeId} {f g : Filter}

/-- Where, in the view of a node, the scope is that answers a lookup along the chain: the
first one with a match.  If there is none it is past the end of the view. -/
def answerPlace (s : Store) (n : NodeId) (k : Value) (f : Filter) : Nat :=
  (s.view n).findIdx fun i => !((s.scopes.read i).matching s.objects k f).isEmpty

theorem isEmpty_foundAt (s : Store) (k : Value) (f : Filter) (i : ScopeId) :
    (s.foundAt k f i).isEmpty = ((s.scopes.read i).matching s.objects k f).isEmpty := by
  rw [← foundAt_map_snd, List.isEmpty_map]

/-- **One scope makes up the answer**, or there is none. -/
theorem foundWithin_chain_eq (s : Store) (n : NodeId) (k : Value) (f : Filter) :
    s.foundWithin n k f .chain
      = ((s.view n)[s.answerPlace n k f]?.map (s.foundAt k f)).getD [] := by
  rw [foundWithin, firstNonempty_map_eq, answerPlace]
  simp only [isEmpty_foundAt]

/-- The scope at the place of the answer has a match. -/
theorem foundAt_answerPlace_ne_nil {k : Value} {i : ScopeId}
    (hi : (s.view n)[s.answerPlace n k f]? = some i) : s.foundAt k f i ≠ [] := by
  obtain ⟨hlt, rfl⟩ := List.getElem?_eq_some_iff.mp hi
  have hmatch := List.findIdx_getElem (w := hlt)
  rw [Bool.not_eq_true', ← isEmpty_foundAt, List.isEmpty_eq_false_iff] at hmatch
  exact hmatch

/-- A lookup comes to nothing, or the scope at its place answers, alone. -/
theorem foundWithin_chain_cases (s : Store) (n : NodeId) (k : Value) (f : Filter) :
    (s.foundWithin n k f .chain = [] ∧ s.answerPlace n k f = (s.view n).length)
      ∨ ∃ i, (s.view n)[s.answerPlace n k f]? = some i
          ∧ s.foundWithin n k f .chain = s.foundAt k f i ∧ s.foundAt k f i ≠ [] := by
  have answer := s.foundWithin_chain_eq n k f
  cases hplace : (s.view n)[s.answerPlace n k f]? with
  | none =>
      rw [hplace] at answer
      have hend := List.getElem?_eq_none_iff.mp hplace
      exact .inl ⟨answer, Nat.le_antisymm List.findIdx_le_length hend⟩
  | some i =>
      rw [hplace] at answer
      exact .inr ⟨i, rfl, answer, foundAt_answerPlace_ne_nil hplace⟩

/-! ## §3. Narrower lookups. -/

theorem foundAt_narrow (h : g.Narrows f) (s : Store) (k : Value) (i : ScopeId) :
    s.foundAt k g i
      = (s.foundAt k f i).filter fun e => (g.beyond f).accepts s.objects e.2 := by
  rw [foundAt, foundAt, List.filter_filter]
  refine List.filter_congr fun e _ => ?_
  rw [h.accepts_eq, Bool.and_comm]

/-- **A narrower filter moves the answer outwards**, or leaves it where it is. -/
theorem answerPlace_le (h : g.Narrows f) (s : Store) (n : NodeId) (k : Value) :
    s.answerPlace n k f ≤ s.answerPlace n k g := by
  refine List.findIdx_le_findIdx fun i _ hmatch => ?_
  -- a scope with a match for the narrower filter has one for the wider
  rw [Bool.not_eq_true', ← isEmpty_foundAt, List.isEmpty_eq_false_iff] at hmatch ⊢
  intro hnil
  rw [foundAt_narrow h, hnil] at hmatch
  exact hmatch rfl

/-- What a scope further in has is all filtered out. -/
theorem beyond_rejects_of_lt (h : g.Narrows f) {k : Value}
    (hlt : s.answerPlace n k f < s.answerPlace n k g) :
    ∀ e ∈ s.foundWithin n k f .chain, (g.beyond f).accepts s.objects e.2 = false := by
  rcases s.foundWithin_chain_cases n k f with ⟨hnil, -⟩ | ⟨i, hi, hfound, -⟩
  · rw [hnil]
    exact fun e he => absurd he List.not_mem_nil
  · obtain ⟨hplace, rfl⟩ := List.getElem?_eq_some_iff.mp hi
    have hnone := List.not_of_lt_findIdx hlt
    rw [Bool.not_eq_false', ← isEmpty_foundAt, List.isEmpty_iff, foundAt_narrow h,
      List.filter_eq_nil_iff] at hnone
    rw [hfound]
    exact fun e he => Bool.eq_false_iff.mpr (hnone e he)

/-- **Filters move the answer outwards.**  In a reachable store, at any node, for any string
as key.

A lookup along the chain, with any filter, comes to nothing, or one scope in view makes up
the whole answer: it is the first one with a match, and all that the answer holds is from
this scope.

Let one filter keep what another asks for and ask for more.  If its lookup finds anything,
so does the other; and the scope that answers it is the one that answers the other, or one
further out.  If it is the same, the narrower answer is the part of the wider one that
passes what was added; if it is further out, or there is none, nothing in the wider answer
passes that. -/
theorem narrower_filters_answer_outwards (hs : s.Reachable) (hn : n < s.nodes.length)
    {key : Value} (string : (s.objects.text? key).isSome) (h : g.Narrows f) :
    let found := fun e => s.foundWithin n key e .chain
    let place := fun e => s.answerPlace n key e
    (s.view n).Nodup
      ∧ (∀ e, s.lookup n .chain key e = .ok ((found e).map Prod.snd)
          ∧ (found e = [] ∧ place e = (s.view n).length
              ∨ ∃ i, (s.view n)[place e]? = some i ∧ found e ≠ [] ∧ found e = s.foundAt key e i
                  ∧ ∀ x ∈ found e, x.1.scope = i))
      ∧ (found g ≠ [] → found f ≠ [])
      ∧ place f ≤ place g
      ∧ (place f = place g →
          found g = (found f).filter fun x => (g.beyond f).accepts s.objects x.2)
      ∧ (place f < place g →
          ∀ x ∈ found f, (g.beyond f).accepts s.objects x.2 = false) := by
  intro found place
  have hle := answerPlace_le h s n key
  refine ⟨hs.linked.view_nodup hn, fun e => ⟨?_, ?_⟩, ?_, hle, ?_, beyond_rejects_of_lt h⟩
  · rw [lookup_of_string string, ← foundWithin_map_snd]
  · rcases s.foundWithin_chain_cases n key e with hnone | ⟨i, hi, hfound, hne⟩
    · exact .inl hnone
    · refine .inr ⟨i, hi, ?_, hfound, ?_⟩
      · exact fun hnil => hne (hfound.symm.trans hnil)
      · intro x hx
        rw [show found e = s.foundAt key e i from hfound] at hx
        exact (content?_of_mem_foundAt hx).1
  · intro hg hf
    -- nothing answers the wider lookup, so its place is past the end, and so is the other
    rcases s.foundWithin_chain_cases n key f with ⟨-, hend⟩ | ⟨i, -, hfound, hne⟩
    · refine hg ?_
      show s.foundWithin n key g .chain = []
      rw [foundWithin_chain_eq, List.getElem?_eq_none (hend ▸ hle)]
      rfl
    · exact hne (hfound.symm.trans hf)
  · intro hsame
    show s.foundWithin n key g .chain = (s.foundWithin n key f .chain).filter _
    rw [foundWithin_chain_eq, foundWithin_chain_eq, show s.answerPlace n key g
      = s.answerPlace n key f from hsame.symm]
    cases (s.view n)[s.answerPlace n key f]? with
    | none => rfl
    | some i => exact foundAt_narrow h s key i

/-- A function and a variable of one name. -/
def functionAndVariable : Objects :=
  [.declare (.str "x") (some (.str "function")) none none,
    .declare (.str "x") (some (.str "variable")) none none]

/-- The variable is declared outside of the function's scope. -/
def shadowedVariable : List Action :=
  [.create KeyFunction.byDefault (.bool true),
    .call 0 (.insert .current (.object 1) .absent), .call 0 .enter,
    .call 0 (.insert .current (.object 0) .absent)]

def shadowedVariableStore : Store :=
  shadowedVariable.foldl (fun s a => (s.act a).store) (.empty functionAndVariable false)

theorem shadowedVariableStore_reachable : shadowedVariableStore.Reachable := by
  refine ⟨functionAndVariable, false, shadowedVariable, ?_⟩
  have first : (0 : Nat) < 1 := by decide
  have second : (0 : Nat) < 2 := by decide
  exact .cons trivial (.cons first (.cons first (.cons second (.nil _))))

/-- Without a filter the inner scope answers, with the function; asked for the variable the
outer one does, and the function passes no filter that asks for one. -/
theorem narrower_filters_answer_outwards_shadowed :
    let onlyVariables : Filter := ⟨.str "variable", .absent⟩
    shadowedVariableStore.Reachable ∧ 0 < shadowedVariableStore.nodes.length
      ∧ onlyVariables.Narrows .all
      ∧ shadowedVariableStore.lookup 0 .chain (.str "x") .all = .ok [.object 0]
      ∧ shadowedVariableStore.lookup 0 .chain (.str "x") onlyVariables = .ok [.object 1]
      ∧ shadowedVariableStore.answerPlace 0 (.str "x") .all
          < shadowedVariableStore.answerPlace 0 (.str "x") onlyVariables
      ∧ ∀ x ∈ shadowedVariableStore.foundWithin 0 (.str "x") .all .chain,
          (onlyVariables.beyond .all).accepts shadowedVariableStore.objects x.2 = false := by
  intro onlyVariables
  have hn : 0 < shadowedVariableStore.nodes.length := by decide
  have narrows : onlyVariables.Narrows .all := ⟨.inl rfl, .inl rfl⟩
  have inner : shadowedVariableStore.answerPlace 0 (.str "x") .all = 0 := rfl
  have outer : shadowedVariableStore.answerPlace 0 (.str "x") onlyVariables = 1 := rfl
  have further : shadowedVariableStore.answerPlace 0 (.str "x") .all
      < shadowedVariableStore.answerPlace 0 (.str "x") onlyVariables := by
    rw [inner, outer]
    exact Nat.zero_lt_one
  have string : (shadowedVariableStore.objects.text? (.str "x")).isSome := rfl
  obtain ⟨-, -, -, -, -, rejected⟩ :=
    narrower_filters_answer_outwards shadowedVariableStore_reachable hn string narrows
  exact ⟨shadowedVariableStore_reachable, hn, narrows, rfl, rfl, further, rejected further⟩

end Store

end ScopeChain
