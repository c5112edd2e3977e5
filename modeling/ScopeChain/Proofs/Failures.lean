/-
  ScopeChain.Proofs.Failures
  ──────────────────────────
  **WHAT A FAILING CALL LEAVES BEHIND.**

  A call that fails should leave no trace: no key, no empty bucket, no node
  moved, and every walk under way should go on as if the call had not been made.
  So it is, for an operation decides before it acts, and nearly everything that
  can fail is part of the decision: deriving the key, using it as an address,
  the clash, and the text of the key in the report of the clash.

  The one exception is the RECORD of an insertion.  It is written last, when the
  symbol is filed already, and it shows the text of the key.  So where a journal
  is kept and the key has no text, an insertion with nothing against it fails
  with its symbol in place.

      insertionRecord_eq_error_iff
                             — when an insertion cannot be recorded
      Store.FiledUnrecorded  — a symbol filed by a call that failed
      perform_of_error       — nothing, or that
      failing_call_effect    — exactly when a failing call leaves no trace
      unrecorded_symbol_stays
                             — a call that fails and leaves one
-/
import ScopeChain.Proofs.SuspendedWalks

namespace ScopeChain

/-- An insertion leaves no scope as it was. -/
theorem ScopeMap.insert_ne (objs : Objects) (m : ScopeMap) (key v : Value) :
    m.insert objs key v ≠ m := by
  intro hsame
  have hbucket := bucket_insert objs m key v key
  rw [if_pos (Objects.same_refl objs key), hsame] at hbucket
  have hlength := congrArg List.length hbucket
  simp at hlength

namespace Store

/-! ## §1. Failing calls. -/

theorem insertionRecord_eq_error_iff {s : Store} {n : NodeId} {target : Target} {f : Filing}
    {fault : Fault} :
    s.insertionRecord n target f = .error fault
      ↔ s.journaling = true ∧ s.objects.display f.key = .error fault := by
  unfold insertionRecord
  cases s.journaling with
  | false => simp
  | true => cases s.objects.display f.key <;> simp

/-- A call that failed with its symbol filed: nothing spoke against the symbol, a
journal is kept, and the key has no text for it. -/
inductive FiledUnrecorded (s : Store) (n : NodeId) : Operation → Reply → Prop where
  | insert {target : Target} {key value : Value} {f : Filing} {fault : Fault}
      (decided : s.filing n target key value = .ok f) (accepted : f.clash = none)
      (journal : s.journaling = true) (textless : s.objects.display f.key = .error fault) :
      FiledUnrecorded s n (.insert target key value)
        ⟨s.file (s.targetScope n target) f.key f.symbol, .error fault, []⟩

/-- It takes a journal. -/
theorem FiledUnrecorded.journaling {s : Store} {n : NodeId} {op : Operation} {reply : Reply}
    (h : FiledUnrecorded s n op reply) : s.journaling = true := by
  cases h with
  | insert _ _ journal _ => exact journal

/-- What was decided where a symbol is filed unrecorded. -/
theorem FiledUnrecorded.filing {s : Store} {n : NodeId} {target : Target} {key value : Value}
    {reply : Reply} (h : FiledUnrecorded s n (.insert target key value) reply) :
    ∃ f, s.filing n target key value = .ok f ∧ f.clash = none := by
  cases h with
  | @insert _ _ _ f _ decided accepted _ _ => exact ⟨f, decided, accepted⟩

/-- An insertion with nothing against its symbol fails only for its record. -/
theorem filedUnrecorded_of_record {s : Store} {n : NodeId} {target : Target} {key value : Value}
    {f : Filing} {fault : Fault} (decided : s.filing n target key value = .ok f)
    (accepted : f.clash = none) (record : s.insertionRecord n target f = .error fault) :
    FiledUnrecorded s n (.insert target key value) (s.perform n (.insert target key value)) := by
  obtain ⟨journal, textless⟩ := insertionRecord_eq_error_iff.mp record
  have reply : s.perform n (.insert target key value)
      = ⟨s.file (s.targetScope n target) f.key f.symbol, .error fault, []⟩ := by
    simp only [perform, Store.insert, decided, accepted, record]
  rw [reply]
  exact .insert decided accepted journal textless

theorem insert_of_error {s : Store} {n : NodeId} {target : Target} {key value : Value}
    {fault : Fault} (failed : (s.insert n target key value).fault = some fault) :
    (s.insert n target key value).store = s
      ∨ FiledUnrecorded s n (.insert target key value)
          (s.perform n (.insert target key value)) := by
  -- one case for each place where an insertion can stop, in their order
  cases hf : s.filing n target key value with
  | error fault =>
      rw [insert_of_undecided hf]
      exact .inl rfl
  | ok f =>
      cases hclash : f.clash with
      | some existing => exact .inl (insert_store_of_clash hf hclash)
      | none =>
          right
          cases hrecord : s.insertionRecord n target f with
          | ok events =>
              -- decided, accepted and recorded: this insertion has not failed
              have done := insert_fault_eq_none_iff.mpr ⟨f, events, hf, hclash, hrecord⟩
              rw [done] at failed
              cases failed
          | error fault => exact filedUnrecorded_of_record hf hclash hrecord

/-- **A failing call leaves the store as it was, or a symbol unrecorded.** -/
theorem perform_of_error {s : Store} {n : NodeId} {op : Operation} {fault : Fault}
    (failed : (s.perform n op).outcome = .error fault) :
    (s.perform n op).store = s ∨ FiledUnrecorded s n op (s.perform n op) := by
  cases op with
  | insert target key value =>
      rw [perform_insert_store]
      exact insert_of_error (perform_insert_error_iff.mp failed)
  | leave =>
      cases hp : (s.node n).parent with
      | none =>
          rw [perform_leave_of_top hp]
          exact .inl rfl
      | some p =>
          rw [perform_leave_of_link hp] at failed
          cases failed
  | enter => cases failed
  | setPolicy => cases failed
  | setKeyFunction => cases failed
  | lookup => exact .inl rfl
  | contains => exact .inl rfl
  | visible => exact .inl rfl
  | depth => exact .inl rfl
  | isGlobal => exact .inl rfl
  | describe => exact .inl rfl
  | keyCount => exact .inl rfl
  | levels => exact .inl rfl
  | policy => exact .inl rfl

/-- A symbol that is filed makes a difference. -/
theorem FiledUnrecorded.store_ne {s : Store} {n : NodeId} {op : Operation} {reply : Reply}
    (h : FiledUnrecorded s n op reply) (linked : s.Linked) (hn : n < s.nodes.length) :
    reply.store ≠ s := by
  cases h with
  | @insert target key value f fault _ _ _ _ =>
      intro hsame
      have hfiled : s.file (s.targetScope n target) f.key f.symbol = s := hsame
      have hread := read_file s (s.targetScope n target) f.key f.symbol (s.targetScope n target)
      rw [if_pos ⟨rfl, linked.targetScope_lt hn target⟩, hfiled] at hread
      exact ScopeMap.insert_ne _ _ _ _ hread.symm

/-! ## §2. Exactly when a failing call leaves no trace. -/

/-- **Failing calls.**  Let any call on any node of a reachable store end in any
failure.  It leaves the whole store exactly as it was, and with it whatever the
steps of any walk come to, unless it is an insertion that was to be recorded when
nothing spoke against its symbol, under a key without a text; that one has filed
its symbol.  So where no journal is kept no failing call leaves a trace; and a
rejected insertion leaves none in any case, its report may show the key or
not. -/
theorem failing_call_effect {s : Store} (hs : s.Reachable) {n : NodeId}
    (hn : n < s.nodes.length) {op : Operation} {fault : Fault}
    (failed : (s.perform n op).outcome = .error fault) :
    let reply := s.perform n op
    (reply.store = s ↔ ¬ FiledUnrecorded s n op reply)
      ∧ (¬ FiledUnrecorded s n op reply →
          ∀ w steps, reply.store.drained steps w = s.drained steps w)
      ∧ (s.journaling = false → reply.store = s)
      ∧ ∀ target key value f existing, op = .insert target key value →
          s.filing n target key value = .ok f → f.clash = some existing → reply.store = s := by
  intro reply
  have spared : ¬ FiledUnrecorded s n op reply → reply.store = s :=
    fun hnot => (perform_of_error failed).resolve_right hnot
  refine ⟨⟨?_, spared⟩, ?_, ?_, ?_⟩
  · intro hsame filed
    exact filed.store_ne hs.linked hn hsame
  · intro hnot w steps
    rw [spared hnot]
  · intro silent
    rcases perform_of_error failed with hsame | filed
    · exact hsame
    · have journal := filed.journaling
      rw [silent] at journal
      cases journal
  · rintro target key value f existing rfl decided clash
    show (s.perform n (.insert target key value)).store = s
    rw [perform_insert_store]
    exact insert_store_of_clash decided clash

/-- A symbol without a name, and an object that has it for its identifier. -/
def namelessObjects : Objects :=
  [.declare .absent none none none,
    { SymbolObject.bare (.plain "w") with identifier := some (.object 0) }]

/-- A table that files objects under their identifiers. -/
def identifierTable (journaling : Bool) : Store :=
  (Store.empty namelessObjects journaling).create KeyFunction.byIdentifier (.bool true)

theorem identifierTable_reachable (journaling : Bool) : (identifierTable journaling).Reachable :=
  ⟨namelessObjects, journaling, [.create KeyFunction.byIdentifier (.bool true)],
    .cons trivial (.nil _)⟩

/-- The object is in the table. -/
def identifierFiled : Store := ((identifierTable false).insert 0 .current (.object 1) .absent).store

theorem identifierFiled_reachable : identifierFiled.Reachable := by
  have first : (0 : Nat) < 1 := by decide
  refine ⟨namelessObjects, false, [.create KeyFunction.byIdentifier (.bool true),
    .call 0 (.insert .current (.object 1) .absent)], ?_⟩
  exact .cons trivial (.cons first (.nil _))

/-- A second insertion clashes with the first, and fails because its report cannot
show the key; the table keeps its one entry. -/
theorem failing_call_effect_textless :
    let again := identifierFiled.perform 0 (.insert .current (.object 1) .absent)
    identifierFiled.Reachable ∧ 0 < identifierFiled.nodes.length
      ∧ again.outcome = .error (.notText "NoneType")
      ∧ again.store = identifierFiled
      ∧ identifierFiled.here 0 = [⟨.object 0, [.object 1]⟩] := by
  intro again
  have hn : 0 < identifierFiled.nodes.length := by decide
  have failed : again.outcome = .error (.notText "NoneType") := rfl
  have entries : identifierFiled.here 0 = [⟨.object 0, [.object 1]⟩] := rfl
  obtain ⟨-, -, silent, -⟩ := failing_call_effect identifierFiled_reachable hn failed
  exact ⟨identifierFiled_reachable, hn, failed, silent rfl, entries⟩

/-- **A call that fails and leaves a trace.**  With a journal the first insertion
fails already, when it is to be recorded, and the object is in the table. -/
theorem unrecorded_symbol_stays :
    let s := identifierTable true
    let reply := s.perform 0 (.insert .current (.object 1) .absent)
    s.Reachable ∧ 0 < s.nodes.length
      ∧ reply.outcome = .error (.notText "NoneType")
      ∧ s.here 0 = [] ∧ reply.store.here 0 = [⟨.object 0, [.object 1]⟩]
      ∧ reply.store ≠ s := by
  intro s reply
  have hn : 0 < s.nodes.length := by decide
  have before : s.here 0 = [] := rfl
  have after : reply.store.here 0 = [⟨.object 0, [.object 1]⟩] := rfl
  refine ⟨identifierTable_reachable true, hn, rfl, before, after, ?_⟩
  intro hsame
  rw [hsame, before] at after
  cases after

end Store

end ScopeChain
