/-
  ScopeChain.Proofs.QuotedForms
  ─────────────────────────────
  **THE QUOTED TEXT OF A VALUE AS A FORM TO BE FILLED IN.**

  A value is written in one go, but for the objects that it holds.  So its
  quoted text is a FORM: what stands between the objects is fixed by the value,
  and what stands for them is their quoted texts, in order, all written while
  the same containers are open.  The first of them that fails, fails for all.

      Value.objects      — the objects that a value holds, in order
      Value.homed        — a value at home at some place, or nowhere
      Value.opens        — what is open while its objects are written
      mapM_congr, of_mapM_ok, of_mapM_error
                         — several results, one after the other
      Value.HasForm      — the form of a value
      Value.exists_form  — every value has one
-/
import ScopeChain.Rendering

namespace ScopeChain

/-! ## §1. The objects that a value holds. -/

namespace Value

mutual

/-- The objects that a value holds, in the order of its text. -/
def objects : Value → List ObjectId
  | .object id => [id]
  | .list _ items => objectsAll items
  | .tuple _ items => objectsAll items
  | .dict _ entries => objectsEntries entries
  | .absent => []
  | .bool _ => []
  | .int _ => []
  | .float _ => []
  | .str _ => []

/-- The objects that several values hold. -/
def objectsAll : List Value → List ObjectId
  | [] => []
  | v :: vs => objects v ++ objectsAll vs

/-- The objects that the values of a dictionary hold. -/
def objectsEntries : List (String × Value) → List ObjectId
  | [] => []
  | (_, v) :: rest => objects v ++ objectsEntries rest

end

/-- The same data with a home, or with none; what is inside a container has none. -/
def homed (home : Option Place) : Value → Value
  | .list _ items => .list home (homelessAll items)
  | .tuple _ items => .tuple home (homelessAll items)
  | .dict _ entries => .dict home (homelessEntries entries)
  | v => v

/-- Without a home it is what `homeless` gives. -/
theorem homed_none (v : Value) : v.homed none = v.homeless := by
  cases v <;> rfl

/-- With a home it is what reading an attribute there gives. -/
theorem homed_some (place : Place) (v : Value) : v.homed (some place) = v.heldAt place := by
  cases v <;> rfl

/-- What is opened while the text of a value with a home is written. -/
def opens (home : Option Place) : Value → List Place
  | .list _ _ => home.toList
  | .tuple _ _ => home.toList
  | .dict _ _ => home.toList
  | _ => []

/-- A container with a home opens that one and no other. -/
theorem eq_of_mem_opens {v : Value} {home place : Place} (h : place ∈ v.opens (some home)) :
    place = home := by
  cases v with
  | list _ _ => exact List.mem_singleton.mp h
  | tuple _ _ => exact List.mem_singleton.mp h
  | dict _ _ => exact List.mem_singleton.mp h
  | _ => exact absurd h List.not_mem_nil

theorem opens_none (v : Value) : v.opens none = [] := by
  cases v <;> rfl

end Value

/-! ## §2. Several results. -/

section Several

variable {α β γ δ η : Type} {f g : α → Except Fault β}

/-- Several results depend on those of the elements alone. -/
theorem mapM_congr {xs : List α} (h : ∀ x ∈ xs, f x = g x) : xs.mapM f = xs.mapM g := by
  induction xs with
  | nil => rfl
  | cons x xs ih =>
      rw [List.mapM_cons, List.mapM_cons, h x List.mem_cons_self,
        ih fun y hy => h y (List.mem_cons_of_mem x hy)]

/-- Several results are to be had where each is, one for each. -/
theorem of_mapM_ok {xs : List α} {ys : List β} (h : xs.mapM f = .ok ys) :
    ys.length = xs.length ∧ ∀ x ∈ xs, ∃ y, f x = .ok y := by
  induction xs generalizing ys with
  | nil =>
      cases h
      simp
  | cons x xs ih =>
      rw [List.mapM_cons] at h
      cases hx : f x with
      | error fault =>
          rw [hx] at h
          cases h
      | ok y =>
          cases hxs : xs.mapM f with
          | error fault =>
              rw [hx, hxs] at h
              cases h
          | ok rest =>
              rw [hx, hxs] at h
              cases h
              obtain ⟨length, each⟩ := ih hxs
              exact ⟨by simp [length], List.forall_mem_cons.mpr ⟨⟨y, hx⟩, each⟩⟩

/-- A failure of several results is a failure of one. -/
theorem of_mapM_error {xs : List α} {fault : Fault} (h : xs.mapM f = .error fault) :
    ∃ x ∈ xs, f x = .error fault := by
  induction xs with
  | nil => cases h
  | cons x xs ih =>
      rw [List.mapM_cons] at h
      cases hx : f x with
      | error first =>
          rw [hx] at h
          cases h
          exact ⟨x, List.mem_cons_self, hx⟩
      | ok y =>
          cases hxs : xs.mapM f with
          | error later =>
              rw [hx, hxs] at h
              cases h
              obtain ⟨z, hz, failed⟩ := ih hxs
              exact ⟨z, List.mem_cons_of_mem x hz, failed⟩
          | ok rest =>
              rw [hx, hxs] at h
              cases h

/-- Two forms that are filled in one after the other are one form. -/
theorem form_append (first : List β → γ) (rest : List β → δ) (join : γ → δ → η)
    (xs ys : List α) :
    (do
      let part ← first <$> xs.mapM f
      let parts ← rest <$> ys.mapM f
      .ok (join part parts))
      = (fun texts => join (first (texts.take xs.length)) (rest (texts.drop xs.length)))
          <$> (xs ++ ys).mapM f := by
  rw [List.mapM_append]
  cases hxs : xs.mapM f with
  | error fault => rfl
  | ok front =>
      cases ys.mapM f with
      | error fault => rfl
      | ok back =>
          show Except.ok (join (first front) (rest back))
            = .ok (join (first ((front ++ back).take xs.length))
                (rest ((front ++ back).drop xs.length)))
          rw [← (of_mapM_ok hxs).1, List.take_left, List.drop_left]

end Several

/-! ## §3. Quoted texts as forms. -/

namespace Value

/-- A form that gives the quoted text of a value, held anywhere, from the quoted texts of the
objects in it. -/
def HasForm (v : Value) (form : List String → String) : Prop :=
  ∀ (home : Option Place) (object : List Place → ObjectId → Except Fault String)
    (opened : List Place), isOpen opened home = false →
    inspectWith object opened (v.homed home)
      = form <$> v.objects.mapM (object (v.opens home ++ opened))

mutual

/-- **The quoted text of a value is a form filled in with those of the objects in it.** -/
theorem exists_form (v : Value) : ∃ form, v.HasForm form := by
  cases v with
  | object id =>
      refine ⟨fun texts => texts.headD "", fun home object opened _ => ?_⟩
      show object opened id = _ <$> [id].mapM (object opened)
      rw [List.mapM_cons]
      cases object opened id <;> rfl
  | list home items =>
      obtain ⟨form, filled⟩ := exists_formAll items
      refine ⟨fun texts => "[" ++ ", ".intercalate (form texts) ++ "]",
        fun home object opened closed => ?_⟩
      rw [homed, inspectWith, if_neg (by simp [closed]), filled, objects, opens]
      cases (objectsAll items).mapM (object (home.toList ++ opened)) <;> rfl
  | tuple home items =>
      obtain ⟨form, filled⟩ := exists_formAll items
      refine ⟨fun texts => tupleText (form texts), fun home object opened closed => ?_⟩
      rw [homed, inspectWith, if_neg (by simp [closed]), filled, objects, opens]
      cases (objectsAll items).mapM (object (home.toList ++ opened)) <;> rfl
  | dict home entries =>
      obtain ⟨form, filled⟩ := exists_formEntries entries
      refine ⟨fun texts => "\x7b" ++ ", ".intercalate (form texts) ++ "\x7d",
        fun home object opened closed => ?_⟩
      rw [homed, inspectWith, if_neg (by simp [closed]), filled, objects, opens]
      cases (objectsEntries entries).mapM (object (home.toList ++ opened)) <;> rfl
  | absent => exact ⟨fun _ => "None", fun _ _ _ _ => rfl⟩
  | bool b => exact ⟨fun _ => if b then "True" else "False", fun _ _ _ _ => rfl⟩
  | int i => exact ⟨fun _ => toString i, fun _ _ _ _ => rfl⟩
  | float x => exact ⟨fun _ => x.text, fun _ _ _ _ => rfl⟩
  | str s => exact ⟨fun _ => Text.quote s, fun _ _ _ _ => rfl⟩

theorem exists_formAll (vs : List Value) :
    ∃ form : List String → List String, ∀ object opened,
      inspectAll object opened (homelessAll vs)
        = form <$> (objectsAll vs).mapM (object opened) := by
  cases vs with
  | nil => exact ⟨fun _ => [], fun _ _ => rfl⟩
  | cons v rest =>
      obtain ⟨first, filled⟩ := exists_form v
      obtain ⟨others, filledAll⟩ := exists_formAll rest
      refine ⟨fun texts => first (texts.take v.objects.length)
        :: others (texts.drop v.objects.length), fun object opened => ?_⟩
      have part := filled none object opened rfl
      rw [homed_none, opens_none] at part
      rw [homelessAll, inspectAll, part, filledAll, objectsAll]
      exact form_append first others List.cons _ _

theorem exists_formEntries (es : List (String × Value)) :
    ∃ form : List String → List String, ∀ object opened,
      inspectEntries object opened (homelessEntries es)
        = form <$> (objectsEntries es).mapM (object opened) := by
  match es with
  | [] => exact ⟨fun _ => [], fun _ _ => rfl⟩
  | (k, v) :: rest =>
      obtain ⟨first, filled⟩ := exists_form v
      obtain ⟨others, filledAll⟩ := exists_formEntries rest
      refine ⟨fun texts => (Text.quote k ++ ": " ++ first (texts.take v.objects.length))
        :: others (texts.drop v.objects.length), fun object opened => ?_⟩
      have part := filled none object opened rfl
      rw [homed_none, opens_none] at part
      rw [homelessEntries, inspectEntries, part, filledAll, objectsEntries]
      exact form_append first others (fun part parts => (Text.quote k ++ ": " ++ part) :: parts)
        _ _

end

end Value

end ScopeChain
