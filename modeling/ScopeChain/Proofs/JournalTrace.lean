/-
  ScopeChain.Proofs.JournalTrace
  ──────────────────────────────
  **THE JOURNAL IS A FAITHFUL TRACE.**

  From the lines of the journal alone one can tell how deep a handle is, and how
  many symbols each scope along its chain holds.  A stack of counters does it:
  an enter pushes a zero, a leave pops, and a filing raises the first counter or
  the last.  Each line is written after the change that it tells of, so every
  depth in it is the one after the operation; and the operations that fail are
  told by their last line.

      Mark.count             — what a line means for the counters
      Traced                 — what an operation records is what it did
      Stack.perform_traced   — every call on a stack is traced
      Tracks.act_traced      — so is every action on a handle
      Runs.traced            — and every run of them, from its first line on
      Traced.lines           — the lines alone show it
      journal_traces_scopes  — the whole of it
-/
import ScopeChain.Proofs.Growth
import ScopeChain.Proofs.HandlePrograms
import ScopeChain.Proofs.JournalLines
import ScopeChain.Proofs.Rearrangement
import ScopeChain.Proofs.StackRefinement

namespace ScopeChain

/-! ## §1. Counters. -/

/-- What a line means for the counters of entries, one for each scope, innermost first. -/
def Mark.count (counts : List Nat) : Mark → List Nat
  | .line .opened _ => 0 :: counts
  | .line .closed _ => counts.tail
  | .line (.filed target) _ => counts.modify (target.position counts.length) (· + 1)
  | .line (.rejected _) _ => counts
  | .atRoot => counts

/-- An operation that leaves its trace: from the counters before it, what it records leads to
those after it; every depth recorded is the one after it; and the last thing recorded tells
whether it was refused, and why. -/
structure Traced (before after : List Nat) (depth : Int) (outcome : Except Fault Answer)
    (events : List Event) : Prop where
  counts : (events.map Event.mark).foldl Mark.count before = after
  depth : ∀ kind d, .line kind d ∈ events.map Event.mark → d = depth
  rejected : (∃ clash, outcome = .error (.duplicate clash))
    ↔ ∃ target d, (events.map Event.mark).getLast? = some (.line (.rejected target) d)
  underflow : outcome = .error .underflow ↔ (events.map Event.mark).getLast? = some .atRoot

/-- An outcome that is no refusal by a table. -/
def Unrefused (outcome : Except Fault Answer) : Prop :=
  (∀ clash, outcome ≠ .error (.duplicate clash)) ∧ outcome ≠ .error .underflow

/-- What changes no counter and records nothing, and is not refused, is traced. -/
theorem Traced.silent {counts : List Nat} (depth : Int) {outcome : Except Fault Answer}
    (h : Unrefused outcome) : Traced counts counts depth outcome [] := by
  refine ⟨rfl, by simp, ?_, ?_⟩
  · simp [h.1]
  · simp [h.2]

/-- What records one thing and is not refused is traced, if what it records is what it did. -/
theorem Traced.single {before after : List Nat} {depth : Int} {outcome : Except Fault Answer}
    {k : LineKind} (h : Unrefused outcome) (accepted : ∀ target, k ≠ .rejected target)
    {e : Event} (he : e.mark = .line k depth) (hcount : Mark.count before e.mark = after) :
    Traced before after depth outcome [e] := by
  refine ⟨hcount, ?_, ?_, ?_⟩
  · simp [he]
  · simp [h.1, he, accepted]
  · simp [h.2, he]

theorem unrefused_ok (a : Answer) : Unrefused (.ok a) := by
  constructor
  · intro clash h
    cases h
  · intro h
    cases h

/-- A text that is not to be had is no refusal. -/
theorem FailsForText.unrefused {α : Type} {x : Except Fault α} (h : FailsForText x)
    (f : α → Answer) : Unrefused (x.map f) := by
  cases x with
  | ok a => exact unrefused_ok (f a)
  | error fault =>
      have text := h fault rfl
      constructor
      · rintro clash ⟨⟩
        cases text
      · rintro ⟨⟩
        cases text

/-! ## §2. Calls on a stack. -/

namespace Stack

variable {st : Stack}

/-- How many entries each scope has. -/
def counts (st : Stack) : List Nat := st.scopes.map fun m => m.entries.length

theorem counts_file (st : Stack) (target : Target) (key symbol : Value) :
    (st.file target key symbol).counts
      = st.counts.modify (target.position st.counts.length) (· + 1) := by
  have hlength : st.counts.length = st.scopes.length := List.length_map _
  unfold counts at hlength ⊢
  show (st.scopes.modify _ _).map _ = _
  rw [hlength]
  apply List.ext_getElem?
  intro j
  rw [List.getElem?_map, List.getElem?_modify, List.getElem?_modify, List.getElem?_map]
  by_cases hj : target.position st.scopes.length = j
  · -- the scope that gets the symbol has one entry more
    cases st.scopes[j]? with
    | none => simp
    | some m => simp [hj, (ScopeMap.entries_insert st.objects m key symbol).length_eq]
  · simp [hj]

theorem depth_file (st : Stack) (target : Target) (key symbol : Value) :
    (st.file target key symbol).depth = st.depth := by
  show ((st.scopes.modify _ _).length : Int) - 1 = (st.scopes.length : Int) - 1
  rw [List.length_modify]

theorem counts_of_leave? {after : Stack} (h : st.leave? = some after) :
    after.counts = st.counts.tail := by
  unfold leave? at h
  split at h
  next => cases h
  next m rest htail =>
    cases h
    show (m :: rest).map _ = (st.scopes.map _).tail
    rw [← htail, List.map_tail]

/-- With a string for its key a lookup always answers. -/
theorem exists_lookup_of_string {key : Value} (h : (st.objects.text? key).isSome) (reach : Reach)
    (f : Filter) : ∃ found, st.lookup reach key f = .ok found := by
  obtain ⟨text, htext⟩ := Option.isSome_iff_exists.mp h
  have address : st.address key = .ok key := Objects.addressOf_of_text? st.keyFunction htext
  unfold lookup
  rw [address]
  exact ⟨_, rfl⟩

theorem failsForText_describe (st : Stack) : FailsForText st.describe :=
  (st.objects.failsForText_display st.policy).bind fun _ => .ok _

/-- Where a journal is kept a string is filed and recorded, or rejected and recorded. -/
theorem insert_of_string (journal : st.journaling = true) {key : Value} {text : String}
    (htext : st.objects.text? key = some text) (target : Target) (value : Value) :
    (∃ symbol, st.insert target key value
        = ⟨st.file target key symbol, .ok .done, [.stored text target st.depth]⟩)
      ∨ ∃ clash, st.insert target key value
        = ⟨st, .error (.duplicate clash), [.rejected text target st.depth]⟩ := by
  have address : st.address key = .ok key := Objects.addressOf_of_text? st.keyFunction htext
  have shown : st.objects.display key = .ok text := Objects.display_of_text? htext
  obtain ⟨f, decided, hkey⟩ : ∃ f, st.filing target key value = .ok f ∧ f.key = key := by
    unfold filing
    rw [address]
    exact ⟨_, rfl, rfl⟩
  have record : st.insertionRecord target f = .ok [if f.clash.isSome then
      .rejected text target st.depth else .stored text target st.depth] := by
    unfold insertionRecord
    rw [hkey, shown, journal]
    rfl
  unfold insert
  rw [decided]
  simp only [record, hkey]
  -- the record is to be had, so the clash alone decides
  cases f.clash with
  | none => exact .inl ⟨f.symbol, rfl⟩
  | some existing =>
      right
      refine ⟨⟨key, existing, .str target.word, clashMessage text target.word⟩, ?_⟩
      unfold rejection
      rw [shown]
      rfl

/-- An insertion leaves its trace, where a journal is kept and its key is a string. -/
theorem insert_traced (journal : st.journaling = true) {key : Value}
    (string : (st.objects.text? key).isSome) (target : Target) (value : Value) :
    let reply := st.insert target key value
    Traced st.counts reply.stack.counts reply.stack.depth reply.outcome reply.events := by
  intro reply
  obtain ⟨text, htext⟩ := Option.isSome_iff_exists.mp string
  rcases insert_of_string journal htext target value with ⟨symbol, filed⟩ | ⟨clash, refused⟩
  · rw [show reply = _ from filed]
    refine .single (unrefused_ok .done) (k := .filed target) (by simp) ?_ ?_
    · show Mark.line _ st.depth = _
      rw [depth_file]
    · exact (st.counts_file target key symbol).symm
  · rw [show reply = _ from refused]
    refine ⟨rfl, ?_, ?_, ?_⟩
    · simp [Event.mark]
    · simp [Event.mark]
    · simp [Event.mark]

/-- **Every call leaves its trace**, where a journal is kept and its key, if it has one, is a
string. -/
theorem perform_traced (journal : st.journaling = true) (call : Call)
    (string : ∀ key, call.val.key? = some key → (st.objects.text? key).isSome) :
    let reply := st.perform call
    Traced st.counts reply.stack.counts reply.stack.depth reply.outcome reply.events := by
  obtain ⟨op, other⟩ := call
  have recorded : ∀ e, st.recorded e = [e] := by
    intro e
    unfold Stack.recorded
    rw [journal]
    rfl
  cases op with
  | enter =>
      show Traced _ _ st.enter.depth _ (st.recorded _)
      rw [recorded, depth_enter]
      exact .single (unrefused_ok .done) (k := .opened) (by simp) rfl rfl
  | leave =>
      simp only [perform, recorded]
      cases hleave : st.leave? with
      | none =>
          refine ⟨rfl, ?_, ?_, ?_⟩
          · simp [Event.mark]
          · simp [Event.mark]
          · simp [Event.mark]
      | some after =>
          refine .single (unrefused_ok .done) (k := .closed) (by simp) ?_ ?_
          · show Mark.line _ (st.depth - 1) = _
            rw [depth_of_leave? hleave]
          · exact (counts_of_leave? hleave).symm
  | insert target key value => exact insert_traced journal (string key rfl) target value
  | lookup reach key filter =>
      obtain ⟨found, hfound⟩ := exists_lookup_of_string (string key rfl) reach filter
      refine .silent st.depth ?_
      show Unrefused ((st.lookup reach key filter).map .values)
      rw [hfound]
      exact unrefused_ok _
  | contains key =>
      obtain ⟨found, hfound⟩ := exists_lookup_of_string (string key rfl) .chain .all
      refine .silent st.depth ?_
      show Unrefused ((st.contains key).map .flag)
      unfold contains
      rw [hfound]
      exact unrefused_ok _
  | describe => exact .silent st.depth (st.failsForText_describe.unrefused .text)
  | visible => exact .silent st.depth (unrefused_ok _)
  | depth => exact .silent st.depth (unrefused_ok _)
  | isGlobal => exact .silent st.depth (unrefused_ok _)
  | keyCount => exact .silent st.depth (unrefused_ok _)
  | policy => exact .silent st.depth (unrefused_ok _)
  | setPolicy policy => exact .silent st.depth (unrefused_ok _)
  | setKeyFunction keyFunction => exact .silent st.depth (unrefused_ok _)
  | levels => exact absurd rfl other

end Stack

/-! ## §3. Runs over a handle. -/

namespace Store

variable {s t : Store} {n : NodeId} {st : Stack} {actions : List Action}

/-- How many entries each scope along a node's chain has. -/
def counts (s : Store) (n : NodeId) : List Nat := (s.chain n).map fun m => (s.here m).entries.length

/-- A store keeps a journal ever, or never. -/
theorem Change.journaling_eq (h : Change s t) : t.journaling = s.journaling := by
  cases h <;> rfl

theorem Tracks.counts_eq (h : Tracks s n st) : st.counts = s.counts n := by
  unfold Stack.counts counts
  rw [h.scopes_eq, List.map_map]
  rfl

/-- **Everything done on a handle leaves its trace.** -/
theorem Tracks.act_traced (h : Tracks s n st) (journal : s.journaling = true) {a : Action}
    (on : a.OnHandle s.objects n) :
    let reply := s.act a
    (∃ st', Tracks reply.store n st')
      ∧ Traced (s.counts n) (reply.store.counts n) (reply.store.node n).depth reply.outcome
          reply.events := by
  intro reply
  cases a with
  | create => exact on.elim
  | assign id attr value =>
      have assigned := h.assign id attr value
      refine ⟨⟨_, assigned⟩, ?_⟩
      rw [← h.counts_eq, show reply.store.counts n = _ from assigned.counts_eq.symm]
      exact .silent _ (unrefused_ok .done)
  | call m op =>
      obtain ⟨rfl, string⟩ := on
      -- the listing of the chain is no call on a stack, but it changes and records nothing
      by_cases hop : op = .levels
      · subst hop
        exact ⟨⟨st, h⟩, .silent _ (unrefused_ok _)⟩
      · have agrees := h.perform ⟨op, hop⟩
        rw [h.objects] at string
        have traced := Stack.perform_traced (h.journaling ▸ journal) ⟨op, hop⟩ string
        refine ⟨⟨_, agrees.tracks⟩, ?_⟩
        rw [← h.counts_eq, show reply.store.counts m = _ from agrees.tracks.counts_eq.symm,
          show (reply.store.node m).depth = _ from agrees.tracks.depth,
          show reply.outcome = _ from agrees.outcome, show reply.events = _ from agrees.events]
        exact traced

/-- **What a run over a handle records leads from the counters before it to those after it.** -/
theorem Runs.traced (run : Runs s actions t) (h : Tracks s n st) (journal : s.journaling = true)
    (on : ∀ a ∈ actions, a.OnHandle s.objects n) :
    (∃ st', Tracks t n st') ∧ t.journaling = true
      ∧ ((s.journal actions).map Event.mark).foldl Mark.count (s.counts n) = t.counts n := by
  induction run generalizing st with
  | nil => exact ⟨⟨st, h⟩, journal, rfl⟩
  | @cons s t a rest admitted _ ih =>
      obtain ⟨⟨st', tracks⟩, traced⟩ := h.act_traced journal (on a List.mem_cons_self)
      have change := act_change admitted
      have kinds := (act_entriesEffect s a).grows.kinds
      obtain ⟨tracked, journal', counts⟩ := ih tracks (change.journaling_eq.trans journal)
        fun b hb => (on b (List.mem_cons_of_mem a hb)).of_sameKinds kinds
      refine ⟨tracked, journal', ?_⟩
      rw [Store.journal, List.map_append, List.foldl_append, traced.counts, counts]

end Store

/-! ## §4. The journal is a faithful trace. -/

/-- An operation that is recorded. -/
def Operation.Recorded : Operation → Prop
  | .enter => True
  | .leave => True
  | .insert _ _ _ => True
  | _ => False

/-- The lines of events are read in one way only. -/
theorem forall₂_tells_iff {events : List Event} {marks : List Mark} :
    List.Forall₂ Tells (events.map Event.message) marks ↔ marks = events.map Event.mark := by
  rw [List.forall₂_map_left_iff]
  constructor
  · intro h
    induction h with
    | nil => rfl
    | cons told _ ih => rw [List.map_cons, ih, Event.tells_message_iff.mp told]
  · rintro rfl
    rw [List.forall₂_map_right_iff]
    exact List.forall₂_same.mpr fun e _ => e.tells

/-- The last line of events tells what happened last. -/
theorem exists_getLast?_tells_iff {events : List Event} {m : Mark} :
    (∃ line ∈ (events.map Event.message).getLast?, Tells line m)
      ↔ (events.map Event.mark).getLast? = some m := by
  rw [List.getLast?_map, List.getLast?_map]
  cases events.getLast? with
  | none => simp
  | some e => simp [Event.tells_message_iff, eq_comm]

/-- **What an operation records shows in the lines**: the depth, and whether it was refused. -/
theorem Traced.lines {before after : List Nat} {depth : Int} {outcome : Except Fault Answer}
    {events : List Event} (h : Traced before after depth outcome events) :
    let lines := events.map Event.message
    (∀ line ∈ lines, ∀ kind d, Tells line (.line kind d) → d = depth)
      ∧ ((∃ clash, outcome = .error (.duplicate clash))
        ↔ ∃ line ∈ lines.getLast?, ∃ target d, Tells line (.line (.rejected target) d))
      ∧ (outcome = .error .underflow ↔ ∃ line ∈ lines.getLast?, Tells line .atRoot) := by
  intro lines
  refine ⟨?_, ?_, ?_⟩
  · intro line hline kind d told
    obtain ⟨e, he, rfl⟩ := List.mem_map.mp hline
    rw [Event.tells_message_iff] at told
    exact h.depth kind d (told ▸ List.mem_map_of_mem he)
  · rw [h.rejected]
    constructor
    · rintro ⟨target, d, last⟩
      obtain ⟨line, hline, told⟩ := exists_getLast?_tells_iff.mpr last
      exact ⟨line, hline, target, d, told⟩
    · rintro ⟨line, hline, target, d, told⟩
      exact ⟨target, d, exists_getLast?_tells_iff.mp ⟨line, hline, told⟩⟩
  · rw [h.underflow, exists_getLast?_tells_iff]

namespace Store

theorem perform_events_of_not_recorded (s : Store) (n : NodeId) {op : Operation}
    (h : ¬ op.Recorded) : (s.perform n op).events = [] := by
  cases op with
  | enter => exact absurd trivial h
  | leave => exact absurd trivial h
  | insert => exact absurd trivial h
  | _ => rfl

/-- A table just made, tracked by a stack of one empty scope. -/
theorem tracks_made (objects : Objects) (keyFunction : KeyFunction) (policy : Value) :
    Tracks ((Store.empty objects true).create keyFunction policy) 0
      (.start objects true keyFunction policy) :=
  (linked_empty objects true).tracks_create keyFunction policy

/-- There is a counter for each scope, and one scope more than have been entered. -/
theorem Tracks.length_counts {s : Store} {n : NodeId} {st : Stack} (h : Tracks s n st) :
    ((s.counts n).length : Int) = (s.node n).depth + 1 := by
  rw [h.depth, ← h.counts_eq]
  unfold Stack.counts Stack.depth
  rw [List.length_map]
  omega

/-- **The journal is a faithful trace.**  Make a table in a store that keeps a journal, and do
anything through its handle, with strings for keys, and to the objects.

At any moment the lines written so far can be read, and in one way only.  Folded over a single
zero they give the counters of entries of the scopes along the chain, one more of them than the
depth.  Whatever is done next, every depth that it prints is the one right after it; it fails
for a clash exactly if its last line tells of a rejection, and for leaving the outermost scope
exactly if its last line tells of that; and nothing is written unless a scope is entered or
left or a symbol inserted.

A program over the handle, with blocks nested in any way and walks, comes to such a sequence of
operations, and writes what that writes; and the steps of walks write nothing.  No two events
have one line, whatever the texts of their keys. -/
theorem journal_traces_scopes (objects : Objects) (keyFunction : KeyFunction) (policy : Value) :
    let made := (Store.empty objects true).create keyFunction policy
    (∀ actions s, Runs made actions s → (∀ a ∈ actions, a.OnHandle objects 0) →
        (∃ marks, List.Forall₂ Tells ((made.journal actions).map Event.message) marks
          ∧ (∀ others, List.Forall₂ Tells ((made.journal actions).map Event.message) others →
              others = marks)
          ∧ marks.foldl Mark.count [0] = (s.chain 0).map (fun m => (s.here m).entries.length)
          ∧ ((marks.foldl Mark.count [0]).length : Int) = (s.node 0).depth + 1)
        ∧ ∀ a : Action, a.OnHandle objects 0 →
          let reply := s.act a
          let lines := reply.events.map Event.message
          (∀ line ∈ lines, ∀ kind d, Tells line (.line kind d) → d = (reply.store.node 0).depth)
            ∧ ((∃ clash, reply.outcome = .error (.duplicate clash))
              ↔ ∃ line ∈ lines.getLast?, ∃ target d, Tells line (.line (.rejected target) d))
            ∧ (reply.outcome = .error .underflow ↔ ∃ line ∈ lines.getLast?, Tells line .atRoot)
            ∧ ∀ op, a = .call 0 op → ¬ op.Recorded → lines = [])
      ∧ (∀ name program, Command.AllOnHandle objects program →
          let s := ((Session.start objects true).execute (.create name keyFunction policy)).1
          ∃ actions, Runs made actions (s.executeAll program).1.store
            ∧ (∀ a ∈ actions, a.OnHandle objects 0)
            ∧ (s.executeAll program).2.flatMap Step.events = made.journal actions)
      ∧ (∀ (s : Session) walk, (s.execute (.step walk)).2.events = [])
      ∧ ∀ e e' : Event, e.message = e'.message → e = e' := by
  intro made
  have start := tracks_made objects keyFunction policy
  refine ⟨?_, ?_, ?_, fun e e' => Event.message_injective⟩
  · intro actions s run on
    obtain ⟨⟨st, tracks⟩, journal, counts⟩ := run.traced start rfl on
    have folded : ((made.journal actions).map Event.mark).foldl Mark.count [0] = s.counts 0 := counts
    refine ⟨⟨(made.journal actions).map Event.mark, forall₂_tells_iff.mpr rfl,
      fun others => forall₂_tells_iff.mp, folded, ?_⟩, ?_⟩
    · rw [folded]
      exact tracks.length_counts
    · intro a ha reply lines
      obtain ⟨-, traced⟩ := tracks.act_traced journal (ha.of_sameKinds run.grows.kinds)
      obtain ⟨depth, rejected, underflow⟩ := traced.lines
      refine ⟨depth, rejected, underflow, ?_⟩
      rintro op rfl silent
      show ((s.perform 0 op).events.map Event.message) = []
      rw [perform_events_of_not_recorded s 0 silent]
      rfl
  · intro name program on
    exact Session.exists_runs_of_onHandle objects true name keyFunction policy on
  · exact Session.stepWalk_events

/-- A table that lets no two entries share a key. -/
def journaledTable : Store := (Store.empty [] true).create KeyFunction.byDefault (.bool false)

/-- Symbols filed inside and outside, one of them under a key that quotes a line. -/
def quoting : List Action :=
  [.call 0 (.insert .current (.str "x") .absent), .call 0 .enter,
    .call 0 (.insert .outermost (.str "y' into local scope (depth=7)") .absent),
    .call 0 (.insert .current (.str "x") .absent)]

def quotedStore : Store := quoting.foldl (fun s a => (s.act a).store) journaledTable

theorem quoting_runs : Runs journaledTable quoting quotedStore := by
  have first : (0 : Nat) < 1 := by decide
  have second : (0 : Nat) < 2 := by decide
  exact .cons first (.cons first (.cons second (.cons second (.nil _))))

theorem quoting_onHandle : ∀ a ∈ quoting, a.OnHandle [] 0 := by
  simp [quoting, Action.OnHandle, Operation.key?, Objects.text?]

/-- The quoted line is not taken for one; a repeated insertion is told by its last line. -/
theorem journal_traces_scopes_quoting :
    let again := Action.call 0 (.insert .current (.str "x") .absent)
    let reply := quotedStore.act again
    Runs journaledTable quoting quotedStore ∧ (∀ a ∈ quoting, a.OnHandle [] 0)
      ∧ journaledTable.journal quoting = [.stored "x" .current 0, .entered 1,
          .stored "y' into local scope (depth=7)" .outermost 1, .stored "x" .current 1]
      ∧ (∃ marks, List.Forall₂ Tells ((journaledTable.journal quoting).map Event.message) marks
          ∧ marks.foldl Mark.count [0] = [1, 2])
      ∧ (∃ clash, reply.outcome = .error (.duplicate clash))
      ∧ ∃ line ∈ (reply.events.map Event.message).getLast?,
          ∃ target d, Tells line (.line (.rejected target) d) := by
  intro again reply
  obtain ⟨traced, -⟩ := journal_traces_scopes [] KeyFunction.byDefault (.bool false)
  obtain ⟨⟨marks, told, -, folded, -⟩, next⟩ :=
    traced quoting quotedStore quoting_runs quoting_onHandle
  have on : again.OnHandle [] 0 := by
    simp [again, Action.OnHandle, Operation.key?, Objects.text?]
  obtain ⟨-, rejected, -⟩ := next again on
  have refused : ∃ clash, reply.outcome = .error (.duplicate clash) := ⟨_, rfl⟩
  exact ⟨quoting_runs, quoting_onHandle, rfl, ⟨marks, told, folded⟩, refused,
    rejected.mp refused⟩

end Store

end ScopeChain
