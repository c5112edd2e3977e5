/-
  ScopeChain.Session
  ──────────────────
  **RUNNING A CALLER'S PROGRAM.**

  A session is a store together with what the caller's names stand for.
  `Session.execute` runs one command and says what it came to; a failure is
  part of what it came to and never stops the session.

      Session.execute        — one command
      Session.executeBody    — the commands of a block's body
      Session.executeAll     — the commands of a program
-/
import ScopeChain.Command

namespace ScopeChain

/-! ## §1. Names. -/

/-- What names of one kind stand for, each name once. -/
abbrev Bindings (α : Type) := List (String × α)

namespace Bindings

/-- What a name stands for. -/
def find? {α : Type} (name : String) : Bindings α → Option α
  | [] => none
  | (k, x) :: rest => if k = name then some x else find? name rest

/-- Let a name stand for something, whatever it stood for before. -/
def bind {α : Type} (name : String) (x : α) : Bindings α → Bindings α
  | [] => [(name, x)]
  | (k, y) :: rest => if k = name then (k, x) :: rest else (k, y) :: bind name x rest

theorem find?_bind {α : Type} (name other : String) (x : α) (b : Bindings α) :
    (b.bind name x).find? other = if name = other then some x else b.find? other := by
  induction b with
  | nil => simp [bind, find?]
  | cons e rest ih =>
      obtain ⟨k, y⟩ := e
      by_cases hk : k = name
      · subst hk
        by_cases ho : k = other <;> simp [bind, find?, ho]
      · by_cases ho : k = other
        · subst ho
          simp [bind, find?, hk, Ne.symm hk]
        · simp [bind, find?, hk, ho, ih]

end Bindings

/-! ## §2. Sessions. -/

/-- A store and the names in use. -/
structure Session where
  store : Store
  tables : Bindings NodeId
  /-- A scope context is known by the node of its table. -/
  contexts : Bindings NodeId
  walks : Bindings Walk

/-- What running the body of a block comes to: the session afterwards, the
steps that came to an end, all events, and the failure that left the body. -/
structure BodyRun where
  session : Session
  steps : List Step
  events : List Event
  fault : Option Fault

namespace Session

/-- A session over declared objects, with no table yet, that keeps a journal or
does not. -/
def start (objects : Objects) (journaling : Bool) : Session :=
  ⟨.empty objects journaling, [], [], []⟩

/-- A failure that changes nothing. -/
def fail (s : Session) (fault : Fault) : Session × Step := (s, .plain (.error fault) [])

/-- An answer that changes nothing. -/
def answer (s : Session) (outcome : Except Fault Answer) : Session × Step :=
  (s, .plain outcome [])

/-- Do something with the table that a name stands for. -/
def withTable (s : Session) (name : String) (f : NodeId → Session × Step) : Session × Step :=
  match s.tables.find? name with
  | none => s.fail (.unbound name)
  | some n => f n

/-- Operations on a table. -/
def callTable (s : Session) (on : String) (operations : List Operation) : Session × Step :=
  s.withTable on fun n =>
    let reply := s.store.performAll n .done operations
    ({ s with store := reply.store }, .plain reply.outcome reply.events)

/-- Make a table. -/
def createTable (s : Session) (name : String) (keyFunction : KeyFunction) (policy : Value) :
    Session × Step :=
  ({ s with
     store := s.store.create keyFunction policy
     tables := s.tables.bind name s.store.nodes.length },
   .plain (.ok .done) [])

/-- Name the parent of a table. -/
def bindParent (s : Session) (on name : String) : Session × Step :=
  s.withTable on fun n =>
    match (s.store.node n).parent with
    | none => s.answer (.ok (.flag false))
    | some p => ({ s with tables := s.tables.bind name p }, .plain (.ok (.flag true)) [])

/-- Name a scope context of a table. -/
def bindContext (s : Session) (on name : String) : Session × Step :=
  s.withTable on fun n =>
    ({ s with contexts := s.contexts.bind name n }, .plain (.ok .done) [])

/-- Name a walk over a table. -/
def bindWalk (s : Session) (on name : String) : Session × Step :=
  s.withTable on fun n =>
    ({ s with walks := s.walks.bind name (.unstarted n) }, .plain (.ok .done) [])

/-- One step of a walk. -/
def stepWalk (s : Session) (name : String) : Session × Step :=
  match s.walks.find? name with
  | none => s.fail (.unbound name)
  | some walk =>
      let (after, found) := s.store.step walk
      ({ s with walks := s.walks.bind name after },
       .plain (found.map fun v => .values v.toList) [])

/-- Whether two tables are one. -/
def compareTables (s : Session) (a b : String) : Session × Step :=
  s.withTable a fun n => s.withTable b fun m =>
    s.answer (.ok (.sameness (n == m) ((s.store.node n).scope == (s.store.node m).scope)))

/-- The table whose scope a block opens: that of the named context, or of the
table itself. -/
def contextTable (s : Session) (on : NodeId) : Option String → Except Fault NodeId
  | none => .ok on
  | some name =>
      match s.contexts.find? name with
      | none => .error (.unbound name)
      | some n => .ok n

/-- A block is opened on the table itself, or on one that a context was made of. -/
theorem of_contextTable_eq_ok {s : Session} {on n : NodeId} {context : Option String}
    (h : s.contextTable on context = .ok n) :
    n = on ∨ ∃ name, s.contexts.find? name = some n := by
  unfold contextTable at h
  split at h
  next =>
    cases h
    exact .inl rfl
  next name =>
    split at h
    next => cases h
    next hfind =>
      cases h
      exact .inr ⟨name, hfind⟩

/-- Close a block (`__exit__` of a scope context): leave the context's scope once,
from wherever the body left its table.  A failure to leave takes the place of the
body's failure. -/
def closeBlock (run : BodyRun) (on context : NodeId) (opened : List Event) (depth : Int)
    (catches : Bool) : Session × Step :=
  let reply := run.session.store.perform context .leave
  let outcome : Except Fault Answer :=
    match reply.outcome, run.fault with
    | .error fault, _ => .error fault
    | .ok _, some fault => .error fault
    | .ok _, none => .ok (.number (reply.store.node on).depth)
  ({ run.session with store := reply.store },
   .block outcome depth catches run.steps (opened ++ run.events ++ reply.events))

mutual

/-- Run one command. -/
def execute (s : Session) : Command → Session × Step
  | .table on operations => s.callTable on operations
  | .create name keyFunction policy => s.createTable name keyFunction policy
  | .bindParent on name => s.bindParent on name
  | .bindContext on name => s.bindContext on name
  | .bindWalk on name => s.bindWalk on name
  | .step walk => s.stepWalk walk
  | .compare a b => s.compareTables a b
  | .assign object attr value =>
      ({ s with store := s.store.assign object attr value }, .plain (.ok .done) [])
  | .throw message => s.fail (.thrown message)
  | .defaultKey value =>
      s.answer ((KeyFunction.byDefault s.store.objects value).map
        fun key => .value (s.store.objects.flatten key))
  | .display value => s.answer ((s.store.objects.display value).map .text)
  | .inspect value => s.answer ((s.store.objects.inspect value).map .text)
  | .equal a b => s.answer (.ok (.flag (s.store.objects.equal a b)))
  | .attributes object =>
      let o := s.store.objects.object object
      s.answer (.ok (.values ([o.identifier, o.type, o.parent, o.extra].map (·.getD .absent))))
  | .report errorClass arguments =>
      s.answer ((errorClass.report s.store.objects arguments).map .report)
  | .block on context catches body =>
      match s.tables.find? on with
      | none => s.fail (.unbound on)
      | some table =>
          match s.contextTable table context with
          | .error fault => s.fail fault
          | .ok n =>
              let opened := s.store.perform n .enter
              let inside := { s with store := opened.store }
              closeBlock (executeBody inside catches body) table n opened.events
                (opened.store.node n).depth catches

/-- Run the commands of a body; unless the block catches failures, the first
failure ends it. -/
def executeBody (s : Session) (catches : Bool) : List Command → BodyRun
  | [] => ⟨s, [], [], none⟩
  | command :: rest =>
      let (after, step) := execute s command
      match catches, step.outcome with
      | false, .error fault => ⟨after, [], step.events, some fault⟩
      | _, _ =>
          let run := executeBody after catches rest
          { run with steps := step :: run.steps, events := step.events ++ run.events }

end

/-- Run the commands of a program, whatever each comes to. -/
def executeAll (s : Session) : List Command → Session × List Step
  | [] => (s, [])
  | command :: rest =>
      let (after, step) := s.execute command
      let (last, steps) := after.executeAll rest
      (last, step :: steps)

/-- The chain of every named table. -/
def listing (s : Session) : Bindings (List Level) :=
  s.tables.map fun e => (e.1, s.store.levels e.2)

end Session

end ScopeChain
