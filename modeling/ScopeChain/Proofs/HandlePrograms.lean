/-
  ScopeChain.Proofs.HandlePrograms
  ────────────────────────────────
  **PROGRAMS OVER ONE HANDLE ARE RUNS OVER IT.**

  A program that makes one table and names no parent works through one handle,
  however it names it: scope contexts and nested blocks all come back to it.  So
  the program comes to a sequence of operations on the handle, and of
  assignments to objects; what its steps record, blocks with all that happens
  inside them, is what that sequence records, in the same order.

      Action.OnHandle        — done through the handle, with a string for a key
      Command.OnHandle       — the same for the commands of a program
      Session.OneHandle      — every name stands for the handle
      Session.Replays        — a run over the handle, and what it records
      replays_execute        — every command comes to one
      replays_executeAll     — so does every program
      exists_runs_of_onHandle
                             — so does one over a table just made
-/
import ScopeChain.Session
import ScopeChain.Proofs.Runs

namespace ScopeChain

/-! ## §1. Operations over a handle. -/

/-- Something done to a table through its handle, with a string for a key, or to an object. -/
def Action.OnHandle (objs : Objects) (n : NodeId) : Action → Prop
  | .call m op => m = n ∧ ∀ key, op.key? = some key → (objs.text? key).isSome
  | .assign _ _ _ => True
  | .create _ _ => False

theorem Action.OnHandle.of_sameKinds {objs objs' : Objects} {n : NodeId} {a : Action}
    (h : a.OnHandle objs n) (kinds : Objects.SameKinds objs objs') : a.OnHandle objs' n := by
  cases a with
  | create => exact h
  | assign => exact trivial
  | call m op =>
      refine ⟨h.1, fun key hkey => ?_⟩
      rw [kinds.text? key]
      exact h.2 key hkey

/-! ## §2. Programs over a handle. -/

namespace Command

mutual

/-- A command that makes no table and names no parent, with strings for keys. -/
def OnHandle (objs : Objects) : Command → Prop
  | .table _ operations =>
      ∀ op ∈ operations, ∀ key, op.key? = some key → (objs.text? key).isSome
  | .create _ _ _ => False
  | .bindParent _ _ => False
  | .block _ _ _ body => AllOnHandle objs body
  | _ => True

/-- Commands that make no table and name no parent, with strings for keys. -/
def AllOnHandle (objs : Objects) : List Command → Prop
  | [] => True
  | command :: rest => OnHandle objs command ∧ AllOnHandle objs rest

end

end Command

namespace Session

open Store

/-! ## §3. Sessions with one handle. -/

/-- A session in which every name of a table or of a context stands for one node. -/
structure OneHandle (n : NodeId) (s : Session) : Prop where
  lt : n < s.store.nodes.length
  tables : ∀ name m, s.tables.find? name = some m → m = n
  contexts : ∀ name m, s.contexts.find? name = some m → m = n

/-- One session comes out of another by a run over the handle, which records the events. -/
def Replays (objs : Objects) (n : NodeId) (s t : Session) (events : List Event) : Prop :=
  (∃ actions, Runs s.store actions t.store ∧ (∀ a ∈ actions, a.OnHandle objs n)
    ∧ events = s.store.journal actions) ∧ t.OneHandle n

section

variable {objs : Objects} {n : NodeId} {s t u : Session}

theorem Replays.trans {first second : List Event} (h₁ : Replays objs n s t first)
    (h₂ : Replays objs n t u second) : Replays objs n s u (first ++ second) := by
  obtain ⟨⟨before, run₁, on₁, rfl⟩, -⟩ := h₁
  obtain ⟨⟨after, run₂, on₂, rfl⟩, handle⟩ := h₂
  refine ⟨⟨before ++ after, run₁.append run₂, ?_, (run₁.journal_append after).symm⟩, handle⟩
  intro a ha
  rcases List.mem_append.mp ha with hbefore | hafter
  · exact on₁ a hbefore
  · exact on₂ a hafter

namespace OneHandle

/-- What leaves the store alone, and names no other node, replays nothing. -/
theorem silent (h : s.OneHandle n) : Replays objs n s s [] :=
  ⟨⟨[], .nil _, by simp, rfl⟩, h⟩

/-- A run over the handle, under the names that there are. -/
theorem runs (h : s.OneHandle n) {actions : List Action} {after : Store}
    (run : Runs s.store actions after) (on : ∀ a ∈ actions, a.OnHandle objs n) :
    Replays objs n s { s with store := after } (s.store.journal actions) :=
  ⟨⟨actions, run, on, rfl⟩, Nat.lt_of_lt_of_le h.lt run.nodes_length_le, h.tables, h.contexts⟩

/-- One operation on the handle that takes no key. -/
theorem call (h : s.OneHandle n) (op : Operation) (hop : op.key? = none) :
    Replays objs n s { s with store := (s.store.perform n op).store }
      (s.store.perform n op).events := by
  have on : ∀ a ∈ [Action.call n op], a.OnHandle objs n := by
    intro a ha
    rw [List.mem_singleton.mp ha]
    refine ⟨rfl, fun key hkey => ?_⟩
    rw [hop] at hkey
    cases hkey
  have replays := h.runs (.single (a := .call n op) h.lt) on
  rw [show s.store.journal [.call n op] = (s.store.perform n op).events ++ [] from rfl,
    List.append_nil] at replays
  exact replays

theorem bindContext (h : s.OneHandle n) (name : String) :
    Replays objs n s { s with contexts := s.contexts.bind name n } [] := by
  refine ⟨⟨[], .nil _, by simp, rfl⟩, h.lt, h.tables, ?_⟩
  intro other m hfind
  rw [Bindings.find?_bind] at hfind
  split at hfind
  next =>
    cases hfind
    rfl
  next => exact h.contexts other m hfind

theorem setWalks (h : s.OneHandle n) (walks : Bindings Walk) :
    Replays objs n s { s with walks := walks } [] :=
  ⟨⟨[], .nil _, by simp, rfl⟩, h.lt, h.tables, h.contexts⟩

/-- A command on a named table needs to be followed only where the name stands for the
handle. -/
theorem withTable (h : s.OneHandle n) (name : String) {f : NodeId → Session × Step}
    (hf : Replays objs n s (f n).1 (f n).2.events) :
    Replays objs n s (s.withTable name f).1 (s.withTable name f).2.events := by
  unfold Session.withTable
  cases hfind : s.tables.find? name with
  | none => exact h.silent
  | some m =>
      rw [h.tables name m hfind]
      exact hf

end OneHandle

/-! ## §4. Commands. -/

theorem replays_callTable (h : s.OneHandle n) (on : String) {operations : List Operation}
    (strings : ∀ op ∈ operations, ∀ key, op.key? = some key → (objs.text? key).isSome) :
    Replays objs n s (s.callTable on operations).1 (s.callTable on operations).2.events := by
  refine h.withTable on ?_
  obtain ⟨done, hdone, run, events⟩ := exists_runs_performAll h.lt operations .done
  show Replays objs n s _ (s.store.performAll n .done operations).events
  rw [events]
  refine h.runs run ?_
  intro a ha
  obtain ⟨op, hop, rfl⟩ := List.mem_map.mp ha
  exact ⟨rfl, strings op (hdone.subset hop)⟩

theorem replays_stepWalk (h : s.OneHandle n) (name : String) :
    Replays objs n s (s.stepWalk name).1 (s.stepWalk name).2.events := by
  unfold stepWalk
  split
  next => exact h.silent
  next => exact h.setWalks _

/-- A context stands for the handle. -/
theorem OneHandle.contextTable (h : s.OneHandle n) {context : Option String} {m : NodeId}
    (hcontext : s.contextTable n context = .ok m) : m = n := by
  rcases of_contextTable_eq_ok hcontext with rfl | ⟨name, hfind⟩
  · rfl
  · exact h.contexts name _ hfind

mutual

/-- **Every command over the handle replays**, a block included. -/
theorem replays_execute {s : Session} (h : s.OneHandle n) {command : Command}
    (on : command.OnHandle objs) :
    Replays objs n s (s.execute command).1 (s.execute command).2.events := by
  match command, on with
  | .table name operations, on =>
      rw [execute]
      exact replays_callTable h name on
  | .bindContext _ name, _ =>
      rw [execute]
      exact h.withTable _ (h.bindContext name)
  | .bindWalk _ name, _ =>
      rw [execute]
      exact h.withTable _ (h.setWalks _)
  | .step walk, _ =>
      rw [execute]
      exact replays_stepWalk h walk
  | .compare a b, _ =>
      rw [execute]
      exact h.withTable a (h.withTable b h.silent)
  | .assign object attr value, _ =>
      rw [execute]
      refine h.runs (.single (a := .assign object attr value) trivial) ?_
      intro a ha
      rw [List.mem_singleton.mp ha]
      exact trivial
  | .throw _, _ | .defaultKey _, _ | .display _, _ | .inspect _, _ | .equal _ _, _
  | .attributes _, _ | .report _ _, _ =>
      rw [execute]
      exact h.silent
  | .block name context catches body, on =>
      rw [execute]
      cases hfind : s.tables.find? name with
      | none => exact h.silent
      | some table =>
          obtain rfl : n = table := (h.tables name table hfind).symm
          simp only
          cases hcontext : s.contextTable n context with
          | error fault => exact h.silent
          | ok m =>
              obtain rfl : n = m := (h.contextTable hcontext).symm
              -- the events of a block are those of its opening, its body and its closing
              have opened : Replays objs n s _ _ := h.call Operation.enter rfl
              have inside := replays_executeBody opened.2 catches on
              have closed : Replays objs n _ _ _ := inside.2.call Operation.leave rfl
              exact (opened.trans inside).trans closed

/-- So does the body of a block, up to where it ends. -/
theorem replays_executeBody {s : Session} (h : s.OneHandle n) (catches : Bool)
    {body : List Command} (on : Command.AllOnHandle objs body) :
    Replays objs n s (s.executeBody catches body).session (s.executeBody catches body).events := by
  match body, on with
  | [], _ =>
      rw [executeBody]
      exact h.silent
  | command :: rest, on =>
      have first := replays_execute h on.1
      rw [executeBody]
      split
      next after step hstep =>
        rw [hstep] at first
        -- a failure that is not caught ends the body, and the rest is never done
        split
        next => exact first
        next => exact first.trans (replays_executeBody first.2 _ on.2)

end

theorem replays_executeAll (h : s.OneHandle n) {program : List Command}
    (on : Command.AllOnHandle objs program) :
    Replays objs n s (s.executeAll program).1 ((s.executeAll program).2.flatMap Step.events) := by
  induction program generalizing s with
  | nil => exact h.silent
  | cons command rest ih =>
      have first := replays_execute h on.1
      exact first.trans (ih first.2 on.2)

end

/-- The table made first has the only name there is. -/
theorem oneHandle_createTable (objects : Objects) (journaling : Bool) (name : String)
    (keyFunction : KeyFunction) (policy : Value) :
    ((start objects journaling).createTable name keyFunction policy).1.OneHandle 0 := by
  refine ⟨Nat.zero_lt_one, ?_, ?_⟩
  · intro other m hfind
    have hbound : (Bindings.bind name 0 []).find? other = some m := hfind
    rw [Bindings.find?_bind] at hbound
    split at hbound
    next =>
      cases hbound
      rfl
    next => cases hbound
  · intro other m hfind
    cases hfind

/-- **A program over the first table is a run over its handle**, and records what that run
records. -/
theorem exists_runs_of_onHandle (objects : Objects) (journaling : Bool) (name : String)
    (keyFunction : KeyFunction) (policy : Value) {program : List Command}
    (on : Command.AllOnHandle objects program) :
    let made := (Store.empty objects journaling).create keyFunction policy
    let s := ((start objects journaling).execute (.create name keyFunction policy)).1
    ∃ actions, Runs made actions (s.executeAll program).1.store
      ∧ (∀ a ∈ actions, a.OnHandle objects 0)
      ∧ (s.executeAll program).2.flatMap Step.events = made.journal actions := by
  intro made s
  have hs : s = ((start objects journaling).createTable name keyFunction policy).1 := by
    show ((start objects journaling).execute (.create name keyFunction policy)).1 = _
    rw [execute]
  have handle := oneHandle_createTable objects journaling name keyFunction policy
  rw [← hs] at handle
  have hmade : made = s.store := by
    rw [hs]
    rfl
  obtain ⟨⟨actions, run, onHandle, events⟩, -⟩ := replays_executeAll handle on
  rw [hmade]
  exact ⟨actions, run, onHandle, events⟩

/-- The steps of walks are not recorded. -/
theorem stepWalk_events (s : Session) (walk : String) :
    (s.execute (.step walk)).2.events = [] := by
  rw [execute]
  unfold stepWalk
  split <;> rfl

end Session

end ScopeChain
