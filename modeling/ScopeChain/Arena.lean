/-
  ScopeChain.Arena
  ────────────────
  **CELLS THAT SEVERAL HOLDERS SHARE.**

  An arena numbers its cells from zero and never gives one up, so a number
  stays good for the cell it was given out for; whoever holds the number sees
  every later change.  Reading past the end gives the default cell.

      read_push_of_lt, read_push_self    — a new cell changes no old one
      read_write_self, read_write_of_ne  — a write changes one cell
      read_push, read_write              — the same, for any number at all
-/

namespace ScopeChain

/-- Numbered cells. -/
abbrev Arena (α : Type) := List α

namespace Arena

/-- The content of a cell. -/
def read {α : Type} [Inhabited α] (a : Arena α) (i : Nat) : α := a[i]?.getD default

/-- Change the content of a cell. -/
def write {α : Type} (a : Arena α) (i : Nat) (x : α) : Arena α := a.set i x

/-- Add a cell, at the number `a.length`. -/
def push {α : Type} (a : Arena α) (x : α) : Arena α := a ++ [x]

@[simp] theorem length_push {α : Type} (a : Arena α) (x : α) :
    (a.push x).length = a.length + 1 := by
  simp [push]

@[simp] theorem length_write {α : Type} (a : Arena α) (i : Nat) (x : α) :
    (a.write i x).length = a.length := by
  simp [write]

theorem read_push_of_lt {α : Type} [Inhabited α] (a : Arena α) {i : Nat} (x : α)
    (h : i < a.length) : (a.push x).read i = a.read i := by
  simp [read, push, List.getElem?_append_left h]

@[simp] theorem read_push_self {α : Type} [Inhabited α] (a : Arena α) (x : α) :
    (a.push x).read a.length = x := by
  simp [read, push]

theorem read_write_self {α : Type} [Inhabited α] (a : Arena α) {i : Nat} (x : α)
    (h : i < a.length) : (a.write i x).read i = x := by
  simp [read, write, h]

theorem read_write_of_ne {α : Type} [Inhabited α] (a : Arena α) {i j : Nat} (x : α)
    (h : i ≠ j) : (a.write i x).read j = a.read j := by
  simp [read, write, List.getElem?_set_ne h]

/-- Writing back what is in a cell changes nothing. -/
theorem write_read {α : Type} [Inhabited α] (a : Arena α) {i : Nat} (h : i < a.length) :
    a.write i (a.read i) = a := by
  rw [read, List.getElem?_eq_getElem h, Option.getD_some]
  exact List.set_getElem_self h

/-- What a new cell changes, at any number: past the end there was the default
cell before and still is. -/
theorem read_push {α : Type} [Inhabited α] (a : Arena α) (x : α) (i : Nat) :
    (a.push x).read i = if i = a.length then x else a.read i := by
  by_cases hi : i = a.length
  · subst hi
    rw [read_push_self, if_pos rfl]
  · rw [if_neg hi]
    rcases Nat.lt_or_gt_of_ne hi with hlt | hgt
    · exact read_push_of_lt a x hlt
    · have hpush : (a.push x)[i]? = none :=
        List.getElem?_eq_none (by rw [length_push]; omega)
      have hold : a[i]? = none := List.getElem?_eq_none (by omega)
      rw [read, read, hpush, hold]

/-- What a write changes, at any number. -/
theorem read_write {α : Type} [Inhabited α] (a : Arena α) {i : Nat} (x : α)
    (h : i < a.length) (j : Nat) :
    (a.write i x).read j = if j = i then x else a.read j := by
  by_cases hj : j = i
  · subst hj
    rw [read_write_self a x h, if_pos rfl]
  · rw [if_neg hj, read_write_of_ne a x (Ne.symm hj)]

/-- Adding a default cell changes nothing that can be read. -/
@[simp] theorem read_push_default {α : Type} [Inhabited α] (a : Arena α) (i : Nat) :
    (a.push default).read i = a.read i := by
  rw [read_push]
  split
  next hi =>
    subst hi
    rw [read, List.getElem?_eq_none (Nat.le_refl _)]
    rfl
  next => rfl

end Arena

end ScopeChain
