/-
  ScopeChain.Proofs.QuotedTexts
  ─────────────────────────────
  **WHY THE QUOTED TEXT OF A SYMBOL ENDS.**

  The quoted text of a symbol shows the quoted text of its type, and with it
  those of further symbols; of its parent it shows the identifier, which is a
  name and leads nowhere.  So only types can lead back to a symbol that is being
  written.  Where they do not, each step leaves fewer objects to come to, and
  the text is that of the plain recursion: it does not depend on a depth, on
  open containers, or on what lies behind a parent.

      Objects.NamesOnly      — identifiers are absent or strings
      Objects.NamelessParent — a parent that has no identifier
      Objects.TypeStep, Objects.Meets, Objects.TypesEnd
                             — where the types of symbols lead
      Objects.typeRank       — to how many objects; it falls with each step
      Objects.AlikeFrom      — objects alike in what a text shows
      AlikeFrom.objectTextWithin_eq
                             — a text depends on nothing else
      inspect_symbol         — a text from the texts of the objects in the type
      text_or_namelessParent — what a text can fail for
      quoted_text_ends
-/
import Mathlib.Data.Finset.Card
import Mathlib.Logic.Relation
import ScopeChain.Proofs.QuotedForms
import ScopeChain.Proofs.UnseenAttributes

namespace ScopeChain

/-! ## §1. Names. -/

namespace Objects

variable {objs objs' : Objects}

/-- A value that an identifier may be: absent, or a string. -/
def IsName (objs : Objects) (v : Value) : Prop := v = .absent ∨ (objs.text? v).isSome

/-- Every identifier that there is, is absent or a string. -/
def NamesOnly (objs : Objects) : Prop :=
  ∀ id identifier, (objs.object id).identifier = some identifier → objs.IsName identifier

/-- The quoted text of a name. -/
def nameText (objs : Objects) (v : Value) : String := ((objs.text? v).map Text.quote).getD "None"

/-- The identifier that a symbol shows. -/
def identifierOf (objs : Objects) (id : ObjectId) : Value :=
  (objs.object id).identifier.getD .absent

/-- The parent of an object is there, but has no identifier to show. -/
def NamelessParent (objs : Objects) (id : ObjectId) : Prop :=
  objs.parentOf (.object id) ≠ .absent
    ∧ objs.attr? .identifier (objs.parentOf (.object id)) = none

/-- Whether a value is a name goes by the kind of an object. -/
theorem SameKinds.isName_iff (h : SameKinds objs objs') (v : Value) :
    objs'.IsName v ↔ objs.IsName v := by
  unfold IsName
  rw [h.text?]

theorem SameKinds.nameText_eq (h : SameKinds objs objs') (v : Value) :
    objs'.nameText v = objs.nameText v := by
  unfold nameText
  rw [h.text?]

theorem IsName.heldAt {v : Value} (h : objs.IsName v) (place : Place) : v.heldAt place = v := by
  obtain rfl | named := h
  · rfl
  · obtain ⟨text, htext⟩ := Option.isSome_iff_exists.mp named
    exact heldAt_of_text? htext place

/-- The text of a name asks an object for its kind at most. -/
theorem inspectWith_name {v : Value} (h : objs.IsName v) (depth : Nat) (opened : List Place) :
    inspectWith (objs.objectTextWithin (depth + 1)) opened v = .ok (objs.nameText v) := by
  obtain rfl | named := h
  · rfl
  · obtain ⟨text, htext⟩ := Option.isSome_iff_exists.mp named
    unfold nameText
    rw [htext]
    cases v with
    | str s =>
        cases htext
        rfl
    | object id =>
        rw [text?] at htext
        rw [inspectWith, objectTextWithin]
        cases hkind : objs.kind id with
        | textual t =>
            rw [hkind] at htext
            cases htext
            rw [kind] at hkind
            simp only [hkind]
            rfl
        | _ =>
            rw [hkind] at htext
            cases htext
    | _ => cases htext

theorem NamesOnly.identifierOf (names : objs.NamesOnly) (id : ObjectId) :
    objs.IsName (objs.identifierOf id) := by
  unfold Objects.identifierOf
  cases h : (objs.object id).identifier with
  | none => exact .inl rfl
  | some identifier => exact names id identifier h

/-- A symbol shows a name for its parent, or fails because the parent has no identifier. -/
theorem NamesOnly.parentIdentifier_cases (names : objs.NamesOnly) (id : ObjectId) :
    (¬ objs.NamelessParent id
        ∧ ∃ v, objs.parentIdentifier (objs.object id) = .ok v ∧ objs.IsName v)
      ∨ (objs.NamelessParent id
        ∧ objs.parentIdentifier (objs.object id)
            = .error (.missingAttribute (objs.kindName (objs.parentOf (.object id)))
                .identifier)) := by
  have parent : (objs.object id).parent.getD .absent = objs.parentOf (.object id) := rfl
  unfold NamelessParent parentIdentifier
  rw [parent]
  cases hparent : objs.parentOf (.object id) with
  | absent => exact .inl ⟨fun h => h.1 rfl, .absent, rfl, .inl rfl⟩
  | object p =>
      cases hidentifier : (objs.object p).get .identifier with
      | none => exact .inr ⟨⟨by simp, hidentifier⟩, by simp [held?, hidentifier]⟩
      | some identifier =>
          have named : objs.IsName identifier := names p identifier hidentifier
          refine .inl ⟨fun h => ?_, identifier, ?_, named⟩
          · rw [attr?, hidentifier] at h
            cases h.2
          · simp [held?, hidentifier, named.heldAt]
  | _ => exact .inr ⟨⟨by simp, rfl⟩, rfl⟩

/-- The identifier that is shown for a parent is a name too. -/
theorem NamesOnly.isName_of_parentIdentifier (names : objs.NamesOnly) (id : ObjectId) (v : Value)
    (h : objs.parentIdentifier (objs.object id) = .ok v) : objs.IsName v := by
  obtain ⟨-, shown, hshown, named⟩ | ⟨-, failed⟩ := names.parentIdentifier_cases id
  · rw [hshown] at h
    cases h
    exact named
  · rw [failed] at h
    cases h

/-! ## §2. Where types lead. -/

/-- The objects that the type of an object holds. -/
def typesOf (objs : Objects) (id : ObjectId) : List ObjectId := (objs.typeOf (.object id)).objects

/-- One step from a symbol to an object that its type holds.  Other objects do not show their
types. -/
def TypeStep (objs : Objects) (x y : ObjectId) : Prop :=
  objs.kind x = .declaration ∧ y ∈ objs.typesOf x

/-- The symbols met on the way through types, the first one included. -/
def Meets (objs : Objects) (id y : ObjectId) : Prop :=
  Relation.ReflTransGen objs.TypeStep id y ∧ objs.kind y = .declaration

/-- Nothing met on the way through types is met again further on. -/
def TypesEnd (objs : Objects) (id : ObjectId) : Prop :=
  ∀ y, Relation.ReflTransGen objs.TypeStep id y → ¬ Relation.TransGen objs.TypeStep y y

open Classical in
/-- The objects that the way through types leads to. -/
noncomputable def reached (objs : Objects) (id : ObjectId) : Finset ObjectId :=
  (Finset.range objs.length).filter (Relation.ReflTransGen objs.TypeStep id)

/-- How many objects the way through types leads to. -/
noncomputable def typeRank (objs : Objects) (id : ObjectId) : Nat := (objs.reached id).card

theorem mem_reached_iff {id y : ObjectId} :
    y ∈ objs.reached id ↔ y < objs.length ∧ Relation.ReflTransGen objs.TypeStep id y := by
  unfold reached
  classical
  rw [Finset.mem_filter, Finset.mem_range]

/-- Only declared objects are declarations. -/
theorem lt_length_of_declaration {id : ObjectId} (h : objs.kind id = .declaration) :
    id < objs.length := by
  by_contra beyond
  have missing : objs[id]? = none := List.getElem?_eq_none (Nat.le_of_not_lt beyond)
  rw [kind, object, missing] at h
  cases h

theorem self_mem_reached {id : ObjectId} (h : objs.kind id = .declaration) :
    id ∈ objs.reached id :=
  mem_reached_iff.mpr ⟨lt_length_of_declaration h, .refl⟩

theorem typeRank_pos {id : ObjectId} (h : objs.kind id = .declaration) : 0 < objs.typeRank id :=
  Finset.card_pos.mpr ⟨id, self_mem_reached h⟩

theorem typeRank_le_length (objs : Objects) (id : ObjectId) : objs.typeRank id ≤ objs.length := by
  have within : objs.reached id ⊆ Finset.range objs.length := fun y hy =>
    Finset.mem_range.mpr (mem_reached_iff.mp hy).1
  exact (Finset.card_le_card within).trans (Finset.card_range _).le

/-- What is met from a type is met from the symbol that has it. -/
theorem Meets.of_step {x y z : ObjectId} (step : objs.TypeStep x y) (h : objs.Meets y z) :
    objs.Meets x z :=
  ⟨.head step h.1, h.2⟩

namespace TypesEnd

variable {x y : ObjectId}

theorem step (h : objs.TypesEnd x) (step : objs.TypeStep x y) : objs.TypesEnd y :=
  fun z hz => h z (.head step hz)

theorem not_back (h : objs.TypesEnd x) (step : objs.TypeStep x y) :
    ¬ Relation.ReflTransGen objs.TypeStep y x :=
  fun back => h x .refl (.head' step back)

/-- Each step leaves fewer objects to come to: the one that it is made from is not among them
any more. -/
theorem typeRank_lt (h : objs.TypesEnd x) (step : objs.TypeStep x y) :
    objs.typeRank y < objs.typeRank x := by
  have fewer : objs.reached y ⊆ objs.reached x := by
    intro z hz
    rw [mem_reached_iff] at hz ⊢
    exact ⟨hz.1, .head step hz.2⟩
  have left : x ∉ objs.reached y := fun hx => h.not_back step (mem_reached_iff.mp hx).2
  exact Finset.card_lt_card
    ((Finset.ssubset_iff_of_subset fewer).mpr ⟨x, self_mem_reached step.1, left⟩)

/-- Where types end, what holds of an object if it holds of those in its type holds. -/
@[elab_as_elim]
theorem induct {P : ObjectId → Prop} (h : objs.TypesEnd x)
    (each : ∀ x, objs.TypesEnd x → (∀ y, objs.TypeStep x y → P y) → P x) : P x := by
  induction hrank : objs.typeRank x using Nat.strong_induction_on generalizing x with
  | _ rank ih =>
      refine each x h fun y step => ih (objs.typeRank y) ?_ (h.step step) rfl
      rw [← hrank]
      exact h.typeRank_lt step

/-- Types end where a rank falls with each step. -/
theorem of_rank (rank : ObjectId → Nat) (falls : ∀ x y, objs.TypeStep x y → rank y < rank x)
    (id : ObjectId) : objs.TypesEnd id := by
  have less : ∀ y z, Relation.TransGen objs.TypeStep y z → rank z < rank y := by
    intro y z h
    induction h with
    | single step => exact falls _ _ step
    | tail _ step ih => exact (falls _ _ step).trans ih
  exact fun y _ again => Nat.lt_irrefl _ (less y y again)

end TypesEnd

/-! ## §3. The text of a symbol whose types end. -/

/-- The quoted text of a symbol, from the texts of what it lists. -/
def symbolText (identifier type parent : String) : String :=
  "AstSymbol(identifier=" ++ identifier ++ ", type=" ++ type ++ ", parent=" ++ parent ++ ")"

/-- The text of a symbol from the texts of the objects in its type, while the type is closed. -/
theorem objectTextWithin_symbol {x : ObjectId} {form : List String → String}
    (hform : (objs.typeOf (.object x)).HasForm form) (hkind : objs.kind x = .declaration)
    (own : objs.IsName (objs.identifierOf x))
    (parents : ∀ v, objs.parentIdentifier (objs.object x) = .ok v → objs.IsName v)
    {opened : List Place} (closed : ⟨x, .type⟩ ∉ opened) (depth : Nat) :
    objs.objectTextWithin (depth + 2) opened x = (do
      let parent ← objs.parentIdentifier (objs.object x)
      let types ← (objs.typesOf x).mapM (objs.objectTextWithin (depth + 1)
        ((objs.typeOf (.object x)).opens (some ⟨x, .type⟩) ++ opened))
      .ok (symbolText (objs.nameText (objs.identifierOf x)) (form types)
        (objs.nameText parent))) := by
  have identifier : (objs.held? .identifier (.object x)).getD .absent = objs.identifierOf x := by
    rw [← own.heldAt ⟨x, .identifier⟩]
    show ((objs.object x).identifier.map _).getD Value.absent = _
    unfold identifierOf
    cases (objs.object x).identifier <;> rfl
  have type : (objs.held? .type (.object x)).getD .absent
      = (objs.typeOf (.object x)).homed (some ⟨x, .type⟩) := by
    rw [Value.homed_some]
    show ((objs.object x).type.map _).getD Value.absent
      = ((objs.object x).type.getD .absent).heldAt ⟨x, .type⟩
    cases (objs.object x).type <;> rfl
  have typeText : inspectWith (objs.objectTextWithin (depth + 1)) opened
      ((objs.typeOf (.object x)).homed (some ⟨x, .type⟩))
        = form <$> (objs.typesOf x).mapM (objs.objectTextWithin (depth + 1)
            ((objs.typeOf (.object x)).opens (some ⟨x, .type⟩) ++ opened)) :=
    hform _ _ _ (by simpa [isOpen] using closed)
  rw [objectTextWithin, show (objs.object x).kind = .declaration from hkind]
  dsimp only
  rw [identifier, inspectWith_name own, type, typeText]
  cases hparent : objs.parentIdentifier (objs.object x) with
  | error fault => rfl
  | ok parent =>
      cases (objs.typesOf x).mapM (objs.objectTextWithin (depth + 1)
          ((objs.typeOf (.object x)).opens (some ⟨x, .type⟩) ++ opened)) with
      | error fault => rfl
      | ok types =>
          have parentText := inspectWith_name (parents parent hparent) depth opened
          show (inspectWith (objs.objectTextWithin (depth + 1)) opened parent).bind
            (fun text => .ok (symbolText (objs.nameText (objs.identifierOf x)) (form types) text))
              = .ok _
          rw [parentText]
          rfl

/-! ### Neither depth nor open containers matter. -/

/-- Two tables of objects alike in what the text of a symbol shows: of each symbol met on the
way through types the identifier, the type and the identifier of the parent. -/
structure AlikeFrom (objs : Objects) (id : ObjectId) (objs' : Objects) : Prop where
  length : objs'.length = objs.length
  kinds : SameKinds objs objs'
  identifier : ∀ y, objs.Meets id y → objs'.identifierOf y = objs.identifierOf y
  type : ∀ y, objs.Meets id y → objs'.typeOf (.object y) = objs.typeOf (.object y)
  parent : ∀ y, objs.Meets id y →
    objs'.parentIdentifier (objs'.object y) = objs.parentIdentifier (objs.object y)

/-- No type on the way is being written already. -/
def Unopened (objs : Objects) (id : ObjectId) (opened : List Place) : Prop :=
  ∀ y, Relation.ReflTransGen objs.TypeStep id y → ⟨y, .type⟩ ∉ opened

theorem AlikeFrom.refl (objs : Objects) (id : ObjectId) : objs.AlikeFrom id objs :=
  ⟨rfl, .refl objs, fun _ _ => rfl, fun _ _ => rfl, fun _ _ => rfl⟩

/-- What is alike from a symbol on is alike from its types on. -/
theorem AlikeFrom.step {x y : ObjectId} (h : objs.AlikeFrom x objs') (step : objs.TypeStep x y) :
    objs.AlikeFrom y objs' where
  length := h.length
  kinds := h.kinds
  identifier z hz := h.identifier z (hz.of_step step)
  type z hz := h.type z (hz.of_step step)
  parent z hz := h.parent z (hz.of_step step)

theorem unopened_nil (objs : Objects) (id : ObjectId) : objs.Unopened id [] :=
  fun _ _ => List.not_mem_nil

/-- The type that is opened in a step does not come again. -/
theorem Unopened.step {x y : ObjectId} {opened : List Place} (h : objs.Unopened x opened)
    (ends : objs.TypesEnd x) (step : objs.TypeStep x y) :
    objs.Unopened y ((objs.typeOf (.object x)).opens (some ⟨x, .type⟩) ++ opened) := by
  intro z hz hopen
  obtain hopen | hopen := List.mem_append.mp hopen
  · have again : (⟨z, .type⟩ : Place) = ⟨x, .type⟩ := Value.eq_of_mem_opens hopen
    obtain rfl : z = x := congrArg Place.owner again
    exact ends.not_back step hz
  · exact h z (.head step hz) hopen

/-- **Where types end, no symbol is met again while it is being written.**  So its text depends
neither on how deep it may go, beyond the number of objects that types lead to, nor on what is
open, nor on anything in which the objects are not alike. -/
theorem AlikeFrom.objectTextWithin_eq (names : objs.NamesOnly) (depth : Nat) :
    ∀ {depth' : Nat} {opened opened' : List Place} {x : ObjectId}, objs.AlikeFrom x objs' →
      objs.TypesEnd x → objs.Unopened x opened → objs.Unopened x opened' →
      objs.typeRank x < depth → objs.typeRank x < depth' →
      objs'.objectTextWithin depth' opened' x = objs.objectTextWithin depth opened x := by
  induction depth with
  | zero =>
      intro depth' opened opened' x alike ends clear clear' hdepth hdepth'
      exact absurd hdepth (Nat.not_lt_zero _)
  | succ depth ih =>
      intro depth' opened opened' x alike ends clear clear' hdepth hdepth'
      obtain ⟨depth', rfl⟩ := Nat.exists_eq_succ_of_ne_zero (Nat.ne_zero_of_lt hdepth')
      have hkind' : objs'.kind x = objs.kind x := alike.kinds x
      cases hkind : objs.kind x with
      | declaration =>
          -- a symbol is among the objects that it leads to, so there is room for its names
          have rank := typeRank_pos hkind
          obtain ⟨d, rfl⟩ := Nat.exists_eq_succ_of_ne_zero (show depth ≠ 0 by omega)
          obtain ⟨d', rfl⟩ := Nat.exists_eq_succ_of_ne_zero (show depth' ≠ 0 by omega)
          have met : objs.Meets x x := ⟨.refl, hkind⟩
          have type := alike.type x met
          have parent := alike.parent x met
          have types : objs'.typesOf x = objs.typesOf x := congrArg Value.objects type
          have own := names.identifierOf x
          have own' : objs'.IsName (objs'.identifierOf x) := by
            rw [alike.identifier x met, alike.kinds.isName_iff]
            exact own
          have parents := names.isName_of_parentIdentifier x
          have parents' : ∀ v, objs'.parentIdentifier (objs'.object x) = .ok v →
              objs'.IsName v := by
            intro v hv
            rw [alike.kinds.isName_iff]
            exact parents v (parent ▸ hv)
          have texts : (objs.typesOf x).mapM (objs'.objectTextWithin (d' + 1)
                ((objs.typeOf (.object x)).opens (some ⟨x, .type⟩) ++ opened'))
              = (objs.typesOf x).mapM (objs.objectTextWithin (d + 1)
                ((objs.typeOf (.object x)).opens (some ⟨x, .type⟩) ++ opened)) := by
            refine mapM_congr fun y hy => ?_
            have step : objs.TypeStep x y := ⟨hkind, hy⟩
            have less := ends.typeRank_lt step
            exact ih (alike.step step) (ends.step step) (clear.step ends step)
              (clear'.step ends step) (by omega) (by omega)
          obtain ⟨form, hform⟩ := (objs.typeOf (.object x)).exists_form
          rw [objectTextWithin_symbol hform hkind own parents (clear x .refl),
            objectTextWithin_symbol (type ▸ hform) (hkind'.trans hkind) own' parents'
              (clear' x .refl),
            types, type, texts, parent, alike.identifier x met]
          simp only [alike.kinds.nameText_eq]
      | _ =>
          have kind : (objs.object x).kind = _ := hkind
          have kind' : (objs'.object x).kind = _ := hkind'.trans hkind
          rw [objectTextWithin, objectTextWithin, kind, kind']

/-! ## §4. The text, or a parent without an identifier. -/

/-- The depth that `objectText` is given is more than it needs. -/
theorem length_lt_textDepth (objs : Objects) : objs.length < objs.textDepth := by
  unfold textDepth
  exact Nat.lt_of_lt_of_le (Nat.lt_succ_self _) (Nat.le_mul_of_pos_left _ (by omega))

/-- The text of an object whose types end, at any depth beyond the number of objects. -/
theorem objectTextWithin_eq_inspect (names : objs.NamesOnly) {x : ObjectId}
    (ends : objs.TypesEnd x) {depth : Nat} (hdepth : objs.length < depth) {opened : List Place}
    (clear : objs.Unopened x opened) :
    objs.objectTextWithin depth opened x = objs.inspect (.object x) := by
  have rank := objs.typeRank_le_length x
  exact (AlikeFrom.refl objs x).objectTextWithin_eq names objs.textDepth ends
    (unopened_nil objs x) clear (Nat.lt_of_le_of_lt rank objs.length_lt_textDepth)
    (Nat.lt_of_le_of_lt rank hdepth)

/-- **The text of a symbol from the texts of the objects in its type**, with no depth and nothing
open. -/
theorem inspect_symbol (names : objs.NamesOnly) {x : ObjectId} (ends : objs.TypesEnd x)
    (hkind : objs.kind x = .declaration) {form : List String → String}
    (hform : (objs.typeOf (.object x)).HasForm form) :
    objs.inspect (.object x) = (do
      let parent ← objs.parentIdentifier (objs.object x)
      let types ← (objs.typesOf x).mapM fun y => objs.inspect (.object y)
      .ok (symbolText (objs.nameText (objs.identifierOf x)) (form types)
        (objs.nameText parent))) := by
  have clear := unopened_nil objs x
  rw [← objectTextWithin_eq_inspect names ends
      (show objs.length < objs.length + 2 by omega) clear,
    objectTextWithin_symbol hform hkind (names.identifierOf x)
      (names.isName_of_parentIdentifier x) (clear x .refl)]
  have texts : (objs.typesOf x).mapM (objs.objectTextWithin (objs.length + 1)
        ((objs.typeOf (.object x)).opens (some ⟨x, .type⟩) ++ []))
      = (objs.typesOf x).mapM fun y => objs.inspect (.object y) := by
    refine mapM_congr fun y hy => ?_
    have step : objs.TypeStep x y := ⟨hkind, hy⟩
    exact objectTextWithin_eq_inspect names (ends.step step) (Nat.lt_succ_self _)
      (clear.step ends step)
  rw [texts]

/-- An object that is no full symbol has a text of its own. -/
theorem exists_inspect_of_ne {x : ObjectId} (h : objs.kind x ≠ .declaration) :
    ∃ text, objs.inspect (.object x) = .ok text := by
  obtain ⟨depth, hdepth⟩ :=
    Nat.exists_eq_succ_of_ne_zero (Nat.ne_zero_of_lt objs.length_lt_textDepth)
  unfold inspect
  rw [hdepth, inspectWith, objectTextWithin]
  cases hkind : (objs.object x).kind with
  | declaration => exact absurd hkind h
  | _ => exact ⟨_, rfl⟩

/-- **A symbol has a text, or a symbol on the way has a parent without an identifier**, and then
this is the failure. -/
theorem text_or_namelessParent (names : objs.NamesOnly) {id : ObjectId}
    (ends : objs.TypesEnd id) :
    ((∃ text, objs.inspect (.object id) = .ok text)
        ∧ ∀ y, objs.Meets id y → ¬ objs.NamelessParent y)
      ∨ ∃ y, objs.Meets id y ∧ objs.NamelessParent y
        ∧ objs.inspect (.object id)
          = .error (.missingAttribute (objs.kindName (objs.parentOf (.object y)))
              .identifier) := by
  refine ends.induct fun x ends ih => ?_
  by_cases hkind : objs.kind x = .declaration
  · obtain ⟨form, hform⟩ := (objs.typeOf (.object x)).exists_form
    have text := inspect_symbol names ends hkind hform
    obtain ⟨named, parent, hparent, -⟩ | ⟨nameless, hparent⟩ := names.parentIdentifier_cases x
    · cases types : (objs.typesOf x).mapM fun y => objs.inspect (.object y) with
      | error fault =>
          obtain ⟨y, hy, failed⟩ := of_mapM_error types
          have step : objs.TypeStep x y := ⟨hkind, hy⟩
          obtain ⟨⟨written, hwritten⟩, -⟩ | ⟨z, met, nameless, hfault⟩ := ih y step
          · rw [failed] at hwritten
            cases hwritten
          · refine .inr ⟨z, met.of_step step, nameless, ?_⟩
            rw [text, hparent, types, ← hfault, failed]
            rfl
      | ok texts =>
          refine .inl ⟨⟨_, by rw [text, hparent, types]; rfl⟩, fun y met => ?_⟩
          obtain rfl | ⟨z, step, further⟩ := met.1.cases_head
          · exact named
          · obtain ⟨written, hwritten⟩ := (of_mapM_ok types).2 z step.2
            obtain ⟨-, all⟩ | ⟨w, -, -, failed⟩ := ih z step
            · exact all y ⟨further, met.2⟩
            · rw [failed] at hwritten
              cases hwritten
    · refine .inr ⟨x, ⟨.refl, hkind⟩, nameless, ?_⟩
      rw [text, hparent]
      rfl
  · refine .inl ⟨exists_inspect_of_ne hkind, fun y met => ?_⟩
    obtain rfl | ⟨z, step, -⟩ := met.1.cases_head
    · exact absurd met.2 hkind
    · exact absurd step.1 hkind

/-- What the text of a symbol does not show: every extra, and the type and the parent of an object
that is no symbol on the way through types. -/
def Undisplayed (objs : Objects) (id : ObjectId) (place : Place) : Prop :=
  place.attr = .extra ∨ place.attr ≠ .identifier ∧ ¬ objs.Meets id place.owner

/-- Objects that differ in what a text does not show are alike for it. -/
theorem SameBut.alikeFrom {id : ObjectId} (h : objs.SameBut (objs.Undisplayed id) objs') :
    objs.AlikeFrom id objs' := by
  have identifiers : ∀ v, objs'.held? .identifier v = objs.held? .identifier v := by
    intro v
    cases v with
    | object p =>
        have shown : ¬ objs.Undisplayed id ⟨p, .identifier⟩ := by
          simp [Undisplayed]
        rw [held?, held?, h.get p .identifier shown]
    | _ => rfl
  have kindNames : ∀ v, objs'.kindName v = objs.kindName v := by
    intro v
    cases v with
    | object p => simp only [kindName, h.kinds p]
    | _ => rfl
  refine ⟨h.length, h.kinds, fun y met => ?_, fun y met => ?_, fun y met => ?_⟩
  · have shown := h.get y .identifier (by simp [Undisplayed])
    exact congrArg (·.getD .absent) shown
  · have shown := h.get y .type (by simp [Undisplayed, met])
    exact congrArg (·.getD .absent) shown
  · have shown : (objs'.object y).parent = (objs.object y).parent :=
      h.get y .parent (by simp [Undisplayed, met])
    unfold parentIdentifier
    rw [shown]
    cases (objs.object y).parent.getD .absent with
    | absent => rfl
    | _ => simp only [identifiers, kindNames]

/-- **The quoted text of a symbol ends, whatever its parents lead to.**  Take any objects whose
identifiers are absent or strings, and any symbol from which types, also inside lists, tuples and
dictionaries, never lead back to an object on the way.  Parents may form any cycles.

The text of the symbol is the same at every depth beyond the number of objects, so no depth is too
small in the end.  There is no text exactly if some symbol met on the way through types, the first
one included, has a parent that is there and has no identifier; the failure is then the one of
reading it, at such a symbol.  Of each symbol met on the way, the result depends on its identifier,
its type and the identifier of its parent only.  So it stays what it is if the objects differ in
any extras, and in the types and parents of objects that are no symbols on the way: an object that
is met as a parent only adds nothing but its identifier. -/
theorem quoted_text_ends {objs : Objects} {id : ObjectId} (names : objs.NamesOnly)
    (ends : objs.TypesEnd id) :
    (∀ depth, objs.length < depth →
        objs.objectTextWithin depth [] id = objs.inspect (.object id))
      ∧ ((∃ fault, objs.inspect (.object id) = .error fault)
        ↔ ∃ y, objs.Meets id y ∧ objs.NamelessParent y)
      ∧ (∀ fault, objs.inspect (.object id) = .error fault →
          ∃ y, objs.Meets id y ∧ objs.NamelessParent y
            ∧ fault = .missingAttribute (objs.kindName (objs.parentOf (.object y))) .identifier)
      ∧ (∀ objs', objs.AlikeFrom id objs' →
          objs'.inspect (.object id) = objs.inspect (.object id))
      ∧ ∀ objs', objs.SameBut (objs.Undisplayed id) objs' →
          objs'.inspect (.object id) = objs.inspect (.object id) := by
  have clear := unopened_nil objs id
  have alike : ∀ objs', objs.AlikeFrom id objs' →
      objs'.inspect (.object id) = objs.inspect (.object id) := by
    intro objs' h
    have rank := objs.typeRank_le_length id
    have deep : objs.length < objs'.textDepth := h.length ▸ objs'.length_lt_textDepth
    exact h.objectTextWithin_eq names objs.textDepth ends clear clear
      (Nat.lt_of_le_of_lt rank objs.length_lt_textDepth) (Nat.lt_of_le_of_lt rank deep)
  refine ⟨fun depth hdepth => objectTextWithin_eq_inspect names ends hdepth clear, ⟨?_, ?_⟩, ?_,
    alike, fun objs' h => alike objs' h.alikeFrom⟩
  · rintro ⟨fault, failed⟩
    obtain ⟨⟨text, htext⟩, -⟩ | ⟨y, met, nameless, -⟩ := text_or_namelessParent names ends
    · rw [htext] at failed
      cases failed
    · exact ⟨y, met, nameless⟩
  · rintro ⟨y, met, nameless⟩
    obtain ⟨-, all⟩ | ⟨z, -, -, failed⟩ := text_or_namelessParent names ends
    · exact absurd nameless (all y met)
    · exact ⟨_, failed⟩
  · intro fault failed
    obtain ⟨⟨text, htext⟩, -⟩ | ⟨y, met, nameless, hfault⟩ := text_or_namelessParent names ends
    · rw [htext] at failed
      cases failed
    · rw [hfault] at failed
      cases failed
      exact ⟨y, met, nameless, rfl⟩

/-- A method and its class, each the parent of the other or the method's parent another value, and
a field, its own parent, whose type holds the method. -/
def loopedParents (parent : Value) : Objects :=
  [.declare (.str "m") (some (.str "func")) (some parent) none,
    .declare (.str "C") none (some (.object 0)) none,
    .declare (.str "f") (some (.list none [.object 0, .absent])) (some (.object 2)) none]

/-- The class is met as a parent only: that its type comes to hold the field, and so leads around,
does not show. -/
theorem quoted_text_ends_in_a_cycle :
    let objs := loopedParents (.object 1)
    let around := objs.assign 1 .type (.tuple none [.object 2])
    let text := "AstSymbol(identifier='f', type=[AstSymbol(identifier='m', type='func', "
      ++ "parent='C'), None], parent='f')"
    objs.NamesOnly ∧ objs.TypesEnd 2
      ∧ objs.inspect (.object 2) = .ok text
      ∧ around.inspect (.object 2) = .ok text
      ∧ (loopedParents (.str "C")).inspect (.object 2)
        = .error (.missingAttribute "str" .identifier) := by
  intro objs around text
  have names : objs.NamesOnly := by
    rintro (_ | _ | _ | id) identifier h <;> cases h
    all_goals exact .inr rfl
  have ends : objs.TypesEnd 2 := by
    refine TypesEnd.of_rank (fun id => id) ?_ 2
    rintro (_ | _ | _ | x) y ⟨hkind, hy⟩
    · cases hy
    · cases hy
    · obtain rfl : y = 0 := List.mem_singleton.mp hy
      exact Nat.zero_lt_succ _
    · cases hkind
  -- the field leads to the method, and the method no further
  have met : ∀ y, objs.Meets 2 y → y = 2 ∨ y = 0 := by
    rintro y ⟨way, -⟩
    induction way with
    | refl => exact .inl rfl
    | tail _ step ih =>
        obtain rfl | rfl := ih
        · exact .inr (List.mem_singleton.mp step.2)
        · cases step.2
  have undisplayed : objs.Undisplayed 2 ⟨1, .type⟩ := .inr ⟨by decide, fun h => by
    obtain h | h := met 1 h <;> cases h⟩
  have same : objs.SameBut (objs.Undisplayed 2) around :=
    SameBut.assign_right ⟨rfl, .refl objs, fun _ _ _ => rfl⟩ undisplayed _
  have shown : objs.inspect (.object 2) = .ok text := rfl
  obtain ⟨-, -, -, -, unchanged⟩ := quoted_text_ends names ends
  exact ⟨names, ends, shown, (unchanged around same).trans shown, rfl⟩

end Objects

end ScopeChain
