/-
  ScopeChain.Proofs.ScopedBlocks
  ──────────────────────────────
  **A SCOPED BLOCK CLOSES ITS SCOPE, HOWEVER ITS BODY ENDS.**

  A block enters a scope, runs its body and leaves once, whether the body came
  to its end or was cut off by a failure.  It keeps no record of the scope that
  it entered: it leaves from wherever the body has left the table.  So what it
  is worth depends on the body.  A body that enters and leaves only by blocks of
  its own, on whatever tables, can be cut off anywhere and inside any of them:
  every node is then back in its place, and the failure comes through as it is.

      KeepsPlaces            — every node that there was is in its place
      keepsPlaces_bracket    — an enter, and the leave that undoes it
      Command.ByBlocks       — scopes are entered and left only by blocks
      CutOff                 — a body ended by the failure of a command
      keepsPlaces_execute    — commands by blocks keep every node in its place
      block_laws             — what holds of every block
-/
import ScopeChain.Proofs.Sessions
import ScopeChain.Proofs.Views

namespace ScopeChain

/-! ## §1. Stores in which every node is in its place. -/

/-- An operation that enters or leaves a scope. -/
def Operation.Moves : Operation → Prop
  | .enter => True
  | .leave => True
  | _ => False

namespace Store

/-- Every node that there was has the place that it had, and the depth. -/
structure KeepsPlaces (s t : Store) : Prop where
  nodes : s.nodes.length ≤ t.nodes.length
  place : ∀ m, m < s.nodes.length → KeepsPlace s t m

theorem KeepsPlaces.refl (s : Store) : KeepsPlaces s s := ⟨Nat.le_refl _, fun m _ => .refl s m⟩

theorem KeepsPlaces.trans {s t u : Store} (h : KeepsPlaces s t) (h' : KeepsPlaces t u) :
    KeepsPlaces s u :=
  ⟨Nat.le_trans h.nodes h'.nodes,
    fun m hm => (h.place m hm).trans (h'.place m (Nat.lt_of_lt_of_le hm h.nodes))⟩

theorem keepsPlaces_act {s : Store} {a : Action} (admitted : s.Admits a)
    (h : s.moves a = none) : KeepsPlaces s (s.act a).store := by
  refine ⟨(act_change admitted).nodes_length_le, fun m hm => keepsPlace_act admitted hm ?_⟩
  rw [h]
  exact (Option.some_ne_none m).symm

theorem moves_eq_none (s : Store) (n : NodeId) {op : Operation} (stays : ¬ op.Moves) :
    s.moves (.call n op) = none := by
  cases op with
  | enter => exact absurd trivial stays
  | leave => exact absurd trivial stays
  | _ => rfl

/-- Operations that neither enter nor leave, up to the first failure. -/
theorem keepsPlaces_performAll {s : Store} {n : NodeId} (hn : n < s.nodes.length)
    {operations : List Operation} (stay : ∀ op ∈ operations, ¬ op.Moves) (answer : Answer) :
    KeepsPlaces s (s.performAll n answer operations).store := by
  induction operations generalizing s answer with
  | nil => exact .refl s
  | cons op rest ih =>
      have first : KeepsPlaces s (s.perform n op).store :=
        keepsPlaces_act (a := .call n op) hn (s.moves_eq_none n (stay op List.mem_cons_self))
      rw [performAll]
      cases (s.perform n op).outcome with
      | error fault => exact first
      | ok a =>
          refine first.trans (ih (Nat.lt_of_lt_of_le hn first.nodes) ?_ a)
          exact fun op' hop' => stay op' (List.mem_cons_of_mem _ hop')

/-- **A leave undoes an enter** if every node was in its place when it came: the
fresh node has kept the place that the node is to go back to. -/
theorem keepsPlaces_bracket {s u : Store} {n : NodeId} (hn : n < s.nodes.length)
    (between : KeepsPlaces (s.enter n) u) :
    (u.node n).parent = some s.nodes.length ∧ KeepsPlaces s (u.rejoin n s.nodes.length) := by
  have hfresh : s.nodes.length < (s.enter n).nodes.length := by
    rw [length_nodes_enter]
    exact Nat.lt_succ_self _
  have hnu : n < u.nodes.length := Nat.lt_of_lt_of_le (lt_nodes_enter n hn) between.nodes
  have inside := between.place n (lt_nodes_enter n hn)
  have outside := between.place s.nodes.length hfresh
  have hself := node_enter_self s hn
  have hmade := node_enter_fresh s hn
  refine ⟨by rw [inside.parent, hself], ?_, fun m hm => ?_⟩
  · rw [length_nodes_rejoin]
    exact Nat.le_trans (Nat.le_of_lt hfresh) between.nodes
  · by_cases hmn : m = n
    · subst hmn
      have hback := node_rejoin_self u s.nodes.length hnu
      constructor
      · rw [hback]
        show (u.node s.nodes.length).scope = _
        rw [outside.scope, hmade]
      · rw [hback]
        show (u.node s.nodes.length).parent = _
        rw [outside.parent, hmade]
      · rw [hback]
        show (u.node m).root = _
        rw [inside.root, hself]
      · rw [hback]
        show (u.node m).depth - 1 = _
        rw [inside.depth, hself]
        exact Int.add_sub_cancel _ _
    · exact ((keepsPlace_enter hn hm hmn).trans (between.place m (lt_nodes_enter n hm))).trans
        (keepsPlace_rejoin s.nodes.length hnu hmn)

end Store

/-! ## §2. Bodies. -/

namespace Command

mutual

/-- A command that enters and leaves scopes only by blocks. -/
def ByBlocks : Command → Prop
  | .table _ operations => ∀ op ∈ operations, ¬ op.Moves
  | .block _ _ _ body => AllByBlocks body
  | _ => True

/-- Commands that enter and leave scopes only by blocks. -/
def AllByBlocks : List Command → Prop
  | [] => True
  | command :: rest => ByBlocks command ∧ AllByBlocks rest

end

end Command

namespace Session

open Store

/-- The first failure among commands ends them, in the session that the failed
command leaves. -/
inductive CutOff : Session → List Command → Fault → Session → Prop where
  | here {s : Session} {command : Command} {fault : Fault}
      (failed : (s.execute command).2.outcome = .error fault) (rest : List Command) :
      CutOff s (command :: rest) fault (s.execute command).1
  | later {s t : Session} {command : Command} {rest : List Command} {a : Answer} {fault : Fault}
      (passed : (s.execute command).2.outcome = .ok a)
      (others : CutOff (s.execute command).1 rest fault t) :
      CutOff s (command :: rest) fault t

/-- How a body that has a command to run goes on. -/
theorem executeBody_cons (s : Session) (catches : Bool) (command : Command)
    (rest : List Command) :
    s.executeBody catches (command :: rest)
      = match catches, (s.execute command).2.outcome with
        | false, .error fault =>
            ⟨(s.execute command).1, [], (s.execute command).2.events, some fault⟩
        | _, _ =>
            let run := (s.execute command).1.executeBody catches rest
            { run with
              steps := (s.execute command).2 :: run.steps
              events := (s.execute command).2.events ++ run.events } :=
  executeBody.eq_2 s catches command rest

/-- **A body runs to its end, or is cut off by a failure that it does not
catch.** -/
theorem executeBody_ends (s : Session) (catches : Bool) (body : List Command) :
    let run := s.executeBody catches body
    run.fault = none ∧ run.session = (s.executeAll body).1
      ∨ catches = false ∧ ∃ fault, run.fault = some fault ∧ CutOff s body fault run.session := by
  induction body generalizing s with
  | nil =>
      rw [executeBody, executeAll]
      exact .inl ⟨rfl, rfl⟩
  | cons command rest ih =>
      have others := ih (s.execute command).1
      rw [executeBody_cons]
      cases catches with
      | true => exact others.imp id fun h => nomatch h.1
      | false =>
          cases hout : (s.execute command).2.outcome with
          | error fault => exact .inr ⟨rfl, fault, rfl, .here hout rest⟩
          | ok a =>
              refine others.imp id ?_
              rintro ⟨-, fault, hfault, cut⟩
              exact ⟨rfl, fault, hfault, .later hout cut⟩

/-! ## §3. Commands that enter and leave by blocks. -/

/-- The session inside a block: the context's table has entered a scope. -/
def entered (s : Session) (n : NodeId) : Session :=
  { s with store := (s.store.perform n .enter).store }

theorem Bound.entered {s : Session} (h : s.Bound) {n : NodeId} (hn : n < s.store.nodes.length) :
    (s.entered n).Bound :=
  (h.runs (.single (a := .call n .enter) hn)).2

/-- A block is its body inside, and then it is closed. -/
theorem execute_block {s : Session} {on : String} {context : Option String} {table n : NodeId}
    (hon : s.tables.find? on = some table) (hcontext : s.contextTable table context = .ok n)
    (catches : Bool) (body : List Command) :
    s.execute (.block on context catches body)
      = closeBlock ((s.entered n).executeBody catches body) table n
          (s.store.perform n .enter).events ((s.entered n).store.node n).depth catches := by
  rw [execute]
  simp only [hon, hcontext]
  rfl

/-- A command on a named table changes the store only where the name stands for
a node. -/
theorem keepsPlaces_withTable {s : Session} (h : s.Bound) (name : String)
    {f : NodeId → Session × Step}
    (hf : ∀ n, n < s.store.nodes.length → KeepsPlaces s.store (f n).1.store) :
    KeepsPlaces s.store (s.withTable name f).1.store := by
  unfold withTable
  cases hfind : s.tables.find? name with
  | none => exact .refl _
  | some n => exact hf n (h.tables hfind)

/-- A body that has kept every node in its place is left by undoing the enter of
its block. -/
theorem keepsPlaces_closeBlock {s : Session} {n : NodeId} (hn : n < s.store.nodes.length)
    {run : BodyRun} (inside : KeepsPlaces (s.entered n).store run.session.store) (on : NodeId)
    (opened : List Event) (depth : Int) (catches : Bool) :
    KeepsPlaces s.store (closeBlock run on n opened depth catches).1.store := by
  obtain ⟨hparent, hkeeps⟩ := keepsPlaces_bracket hn inside
  show KeepsPlaces s.store (run.session.store.perform n .leave).store
  simp only [perform, leave?_eq_some_iff.mpr ⟨_, hparent, rfl⟩]
  exact hkeeps

mutual

/-- **A command that enters and leaves by blocks leaves every node in its
place.** -/
theorem keepsPlaces_execute {s : Session} (h : s.Bound) {command : Command}
    (tidy : command.ByBlocks) : KeepsPlaces s.store (s.execute command).1.store := by
  match command with
  | .table on operations =>
      rw [Command.ByBlocks] at tidy
      rw [execute]
      exact keepsPlaces_withTable h on fun n hn => keepsPlaces_performAll hn tidy .done
  | .create name keyFunction policy =>
      rw [execute]
      exact keepsPlaces_act (a := .create keyFunction policy) trivial rfl
  | .assign object attr value =>
      rw [execute]
      exact keepsPlaces_act (a := .assign object attr value) trivial rfl
  | .bindParent on name =>
      rw [execute]
      refine keepsPlaces_withTable h on fun n _ => ?_
      split <;> exact .refl _
  | .bindContext on name =>
      rw [execute]
      exact keepsPlaces_withTable h on fun _ _ => .refl _
  | .bindWalk on name =>
      rw [execute]
      exact keepsPlaces_withTable h on fun _ _ => .refl _
  | .step walk =>
      rw [execute, stepWalk]
      split <;> exact .refl _
  | .compare a b =>
      rw [execute]
      exact keepsPlaces_withTable h a fun _ _ => keepsPlaces_withTable h b fun _ _ => .refl _
  | .throw _ | .defaultKey _ | .display _ | .inspect _ | .equal _ _ | .attributes _
  | .report _ _ =>
      rw [execute]
      exact .refl _
  | .block on context catches body =>
      rw [Command.ByBlocks] at tidy
      cases hon : s.tables.find? on with
      | none =>
          rw [execute]
          simp only [hon]
          exact .refl _
      | some table =>
          cases hcontext : s.contextTable table context with
          | error fault =>
              rw [execute]
              simp only [hon, hcontext]
              exact .refl _
          | ok n =>
              have hn := h.contextTable (h.tables hon) hcontext
              rw [execute_block hon hcontext]
              exact keepsPlaces_closeBlock hn
                (keepsPlaces_executeBody (h.entered hn) catches tidy) table _ _ _

/-- So do the commands of a body, wherever it is cut off. -/
theorem keepsPlaces_executeBody {s : Session} (h : s.Bound) (catches : Bool)
    {body : List Command} (tidy : Command.AllByBlocks body) :
    KeepsPlaces s.store (s.executeBody catches body).session.store := by
  match body with
  | [] =>
      rw [executeBody]
      exact .refl _
  | command :: rest =>
      rw [Command.AllByBlocks] at tidy
      have first := keepsPlaces_execute h tidy.1
      have bound := (leadsTo_execute h command).2
      have others := keepsPlaces_executeBody bound catches tidy.2
      rw [executeBody_cons]
      split
      next => exact first
      next => exact first.trans others

end

/-! ## §4. Blocks. -/

/-- **The laws of scoped blocks.**  A block on a context, whatever the names in
its body stand for, runs its body inside, to the end or up to a failure that is
not caught, and then leaves exactly once, with the context's table, from
wherever the body has left it.  If the body has not left the table at its
outermost scope, the block fails with what cut off the body, and with nothing
if nothing did.  If it has, the block fails for want of a scope to leave, and
stays as the body left it.  And if the body enters and leaves scopes only by
blocks, it has not, and after the block every node that there was is in its
place, at the depth it had. -/
theorem block_laws {s : Session} (h : s.Bound) {on : String} {context : Option String}
    {table n : NodeId} (hon : s.tables.find? on = some table)
    (hcontext : s.contextTable table context = .ok n) (catches : Bool) (body : List Command) :
    let run := (s.entered n).executeBody catches body
    let block := s.execute (.block on context catches body)
    (run.fault = none ∧ run.session = ((s.entered n).executeAll body).1
        ∨ catches = false ∧ ∃ fault, run.fault = some fault
            ∧ CutOff (s.entered n) body fault run.session)
      ∧ block.1 = { run.session with store := (run.session.store.perform n .leave).store }
      ∧ ((run.session.store.node n).parent ≠ none →
          (∀ fault, run.fault = some fault → block.2.outcome = .error fault)
            ∧ (run.fault = none →
                block.2.outcome = .ok (.number (block.1.store.node table).depth)))
      ∧ ((run.session.store.node n).parent = none →
          block.2.outcome = .error .underflow ∧ block.1 = run.session)
      ∧ (Command.AllByBlocks body →
          (run.session.store.node n).parent ≠ none
            ∧ (∀ m, m < s.store.nodes.length → KeepsPlace s.store block.1.store m)) := by
  intro run block
  have hn := h.contextTable (h.tables hon) hcontext
  have hblock : block = closeBlock run table n (s.store.perform n .enter).events
      ((s.entered n).store.node n).depth catches := execute_block hon hcontext catches body
  refine ⟨executeBody_ends _ catches body, ?_, ?_, ?_, ?_⟩
  · rw [hblock]
    rfl
  · intro hparent
    obtain ⟨p, hp⟩ := Option.ne_none_iff_exists'.mp hparent
    have hleave : (run.session.store.perform n .leave).outcome = .ok .done := by
      simp only [perform, leave?_eq_some_iff.mpr ⟨p, hp, rfl⟩]
    rw [hblock]
    simp only [closeBlock, hleave, Step.outcome]
    refine ⟨fun fault hfault => ?_, fun hfault => ?_⟩ <;> rw [hfault]
  · intro hparent
    have hleave := leave?_eq_none_iff.mpr hparent
    rw [hblock]
    simp only [closeBlock, perform, hleave, Step.outcome, and_true]
  · intro tidy
    have inside := keepsPlaces_executeBody (h.entered hn) catches tidy
    refine ⟨?_, ?_⟩
    · rw [(keepsPlaces_bracket hn inside).1]
      exact Option.some_ne_none _
    · rw [hblock]
      exact (keepsPlaces_closeBlock hn inside table _ _ _).place

/-- A table with a scope context. -/
def withContext : Session :=
  ((start [] false).executeAll
    [.create "t" KeyFunction.byDefault (.bool true), .bindContext "t" "c"]).1

theorem withContext_bound : withContext.Bound :=
  (leadsTo_executeAll (bound_start [] false) _).2

/-- A body that uses the context of its block again and is cut off inside. -/
def nestedBody : List Command :=
  [.table "t" [.insert .current (.str "a") .absent],
    .block "t" (some "c") false [.throw "enough"],
    .table "t" [.insert .current (.str "b") .absent]]

theorem nestedBody_byBlocks : Command.AllByBlocks nestedBody := by
  simp [nestedBody, Command.AllByBlocks, Command.ByBlocks, Operation.Moves]

/-- The failure comes through both blocks and the table is back at its scope; a
body that leaves the table's only scope itself makes the block fail. -/
theorem block_laws_nested :
    let nested := withContext.execute (.block "t" (some "c") false nestedBody)
    let unbalanced := withContext.execute (.block "t" (some "c") false [.table "t" [.leave]])
    withContext.Bound ∧ withContext.tables.find? "t" = some 0
      ∧ withContext.contextTable 0 (some "c") = .ok 0
      ∧ nested.2.outcome = .error (.thrown "enough")
      ∧ KeepsPlace withContext.store nested.1.store 0
      ∧ unbalanced.2.outcome = .error .underflow := by
  intro nested unbalanced
  have hon : withContext.tables.find? "t" = some 0 := rfl
  have hcontext : withContext.contextTable 0 (some "c") = .ok 0 := rfl
  obtain ⟨-, -, body, -, tidy⟩ := block_laws withContext_bound hon hcontext false nestedBody
  obtain ⟨inside, places⟩ := tidy nestedBody_byBlocks
  have cut : ((withContext.entered 0).executeBody false nestedBody).fault
      = some (.thrown "enough") := rfl
  obtain ⟨-, -, -, atRoot, -⟩ :=
    block_laws withContext_bound hon hcontext false [.table "t" [.leave]]
  have top : (((withContext.entered 0).executeBody false
      [.table "t" [.leave]]).session.store.node 0).parent = none := rfl
  exact ⟨withContext_bound, hon, hcontext, (body inside).1 _ cut, places 0 (by decide),
    (atRoot top).1⟩

end Session

end ScopeChain
