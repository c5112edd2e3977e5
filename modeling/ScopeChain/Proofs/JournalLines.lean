/-
  ScopeChain.Proofs.JournalLines
  ──────────────────────────────
  **WHAT A LINE OF THE JOURNAL SAYS.**

  A reader of the journal has the lines alone, and the line of an insertion
  holds the text of the key, which can be any text at all: it may quote a whole
  line.  So such a line is read by its end, by what comes after the key; the
  line of a change of scope is read whole.  Nothing is ambiguous in this.
  Whatever the key holds comes before the last sign "=" of the line, what stands
  right before that sign tells the kinds of lines apart, and after it there is
  the depth.

      LineKind, Mark         — what a line can say
      Tells                   — a line, read whole or by its end
      Event.tells             — every event's line says what happened
      stem, printed          — the two sides of the last sign "="
      LineKind.ending_suffixFree
                             — no kind ends like another
      Tells.unique            — no line says two things
      Event.message_injective
                             — no two events have one line
-/
import Mathlib.Data.List.DropRight
import ScopeChain.Event

namespace ScopeChain

/-! ## §1. Lines and what they say. -/

/-- The kinds of lines that show a depth. -/
inductive LineKind where
  /-- A scope was entered. -/
  | opened
  /-- A scope was left. -/
  | closed
  /-- A symbol was filed. -/
  | filed (target : Target)
  /-- A symbol was rejected. -/
  | rejected (target : Target)
  deriving DecidableEq, Repr

/-- What a line of the journal says. -/
inductive Mark where
  | line (kind : LineKind) (depth : Int)
  /-- The outermost scope was to be left. -/
  | atRoot
  deriving DecidableEq, Repr

/-- The text right before the depth. -/
def LineKind.ending : LineKind → String
  | .opened => "enter_scope: depth="
  | .closed => "exit_scope: depth="
  | .filed target => "into " ++ target.word ++ " scope (depth="
  | .rejected target => "rejected in " ++ target.word ++ " scope (depth="

/-- A line says something: it is the line of a change of scope, or it ends like the line of an
insertion, whatever comes before. -/
inductive Tells : String → Mark → Prop where
  | opened (depth : Int) :
      Tells ("enter_scope: depth=" ++ toString depth) (.line .opened depth)
  | closed (depth : Int) :
      Tells ("exit_scope: depth=" ++ toString depth) (.line .closed depth)
  | filed (front : String) (target : Target) (depth : Int) :
      Tells (front ++ ("into " ++ target.word ++ " scope (depth=") ++ toString depth ++ ")")
        (.line (.filed target) depth)
  | rejected (front : String) (target : Target) (depth : Int) :
      Tells (front ++ ("rejected in " ++ target.word ++ " scope (depth=") ++ toString depth ++ ")")
        (.line (.rejected target) depth)
  | atRoot : Tells "exit_scope: already at the root scope" .atRoot

namespace Event

/-- What happened, without the key. -/
def mark : Event → Mark
  | .entered depth => .line .opened depth
  | .left depth => .line .closed depth
  | .atRoot => .atRoot
  | .rejected _ target depth => .line (.rejected target) depth
  | .stored _ target depth => .line (.filed target) depth

theorem message_stored (key : String) (target : Target) (depth : Int) :
    (stored key target depth).message
      = "add: '" ++ key ++ "' " ++ ("into " ++ target.word ++ " scope (depth=")
        ++ toString depth ++ ")" := by
  unfold message
  rw [← String.toList_inj]
  simp

theorem message_rejected (key : String) (target : Target) (depth : Int) :
    (rejected key target depth).message
      = "add: '" ++ key ++ "' " ++ ("rejected in " ++ target.word ++ " scope (depth=")
        ++ toString depth ++ ")" := by
  unfold message
  rw [← String.toList_inj]
  simp

/-- **Every event's line says what happened**, whatever the text of the key. -/
theorem tells (e : Event) : Tells e.message e.mark := by
  cases e with
  | entered depth => exact .opened depth
  | left depth => exact .closed depth
  | atRoot => exact .atRoot
  | stored key target depth =>
      rw [message_stored]
      exact .filed _ target depth
  | rejected key target depth =>
      rw [message_rejected]
      exact .rejected _ target depth

end Event

/-! ## §2. The two sides of the last sign "=". -/

/-- A natural number is written in digits. -/
theorem isDigit_of_mem_repr {n : Nat} {c : Char} (h : c ∈ n.repr.toList) : c.isDigit = true := by
  rw [Nat.repr_eq_ofList_toDigits, String.toList_ofList] at h
  exact Nat.isDigit_of_mem_toDigits (by decide) (by decide) h

/-- The characters of a written number. -/
theorem mem_toString {depth : Int} {c : Char} (h : c ∈ (toString depth).toList) :
    c = '-' ∨ c.isDigit = true := by
  rw [Int.toString_eq_repr, Int.repr_eq_if] at h
  split at h
  · exact .inr (isDigit_of_mem_repr h)
  · rw [String.toList_append, List.mem_append] at h
    rcases h with hsign | hdigit
    · exact .inl (List.mem_singleton.mp hsign)
    · exact .inr (isDigit_of_mem_repr hdigit)

/-- A number can be read off its text. -/
theorem eq_of_toString_eq {depth depth' : Int} (h : toString depth = toString depth') :
    depth = depth' := by
  have digits : ∀ m n : Nat, m.repr = n.repr → m = n := by
    intro m n hmn
    rw [Nat.repr_eq_ofList_toDigits, Nat.repr_eq_ofList_toDigits] at hmn
    have read := congrArg (Nat.ofDigitChars 10 · 0) (String.ofList_injective hmn)
    simpa only [Nat.ofDigitChars_ten_toDigits] using read
  -- the sign is no digit, so a text without it is not one with it
  have signed : ∀ m n : Nat, m.repr ≠ "-" ++ n.repr := by
    intro m n hmn
    have sign : '-' ∈ m.repr.toList := by
      rw [hmn, String.toList_append]
      exact List.mem_append_left _ (List.mem_singleton.mpr rfl)
    exact absurd (isDigit_of_mem_repr sign) (by decide)
  rw [Int.toString_eq_repr, Int.toString_eq_repr, Int.repr_eq_if, Int.repr_eq_if] at h
  split at h <;> split at h
  · have same := digits _ _ h
    omega
  · exact absurd h (signed _ _)
  · exact absurd h.symm (signed _ _)
  · have same := digits _ _ (String.append_right_inj _ |>.mp h)
    omega

/-- A written number has none of the signs that stand around it. -/
theorem not_mem_toString {depth : Int} {c : Char} (h : c = '=' ∨ c = ')') :
    c ∉ (toString depth).toList := by
  intro hmem
  rcases mem_toString hmem with rfl | hdigit
  · rcases h with hsign | hsign <;> exact absurd hsign (by decide)
  · rcases h with rfl | rfl <;> exact absurd hdigit (by decide)

/-- Characters, cut after the last sign "=". -/
theorem cut_after_last (front : List Char) {tail : List Char} (h : '=' ∉ tail) :
    (front ++ '=' :: tail).rdropWhile (· != '=') = front ++ ['=']
      ∧ (front ++ '=' :: tail).rtakeWhile (· != '=') = tail := by
  have reversed : (front ++ '=' :: tail).reverse = tail.reverse ++ '=' :: front.reverse := by
    simp
  have later : ∀ c ∈ tail.reverse, (c != '=') = true := by
    intro c hc
    rw [bne_iff_ne]
    rintro rfl
    exact h (List.mem_reverse.mp hc)
  unfold List.rdropWhile List.rtakeWhile
  rw [reversed, List.dropWhile_append_of_pos later, List.takeWhile_append_of_pos later]
  simp

/-- A line up to its last sign "=", that sign included. -/
def stem (line : String) : List Char := line.toList.rdropWhile (· != '=')

/-- The text after the last sign "=", without brackets. -/
def printed (line : String) : Option String :=
  if '=' ∈ line.toList then
    some (String.ofList ((line.toList.rtakeWhile (· != '=')).filter (· != ')')))
  else none

/-- A number after a sign "=", and perhaps a bracket after the number. -/
theorem stem_and_printed {front back : String} (hfront : front.toList.getLast? = some '=')
    (depth : Int) (hback : back = "" ∨ back = ")") :
    stem (front ++ toString depth ++ back) = front.toList
      ∧ printed (front ++ toString depth ++ back) = some (toString depth) := by
  obtain ⟨before, hbefore⟩ := List.getLast?_eq_some_iff.mp hfront
  have line : (front ++ toString depth ++ back).toList
      = before ++ '=' :: ((toString depth).toList ++ back.toList) := by
    rw [String.toList_append, String.toList_append, hbefore]
    simp
  have tail : '=' ∉ (toString depth).toList ++ back.toList := by
    rw [List.mem_append, not_or]
    refine ⟨not_mem_toString (.inl rfl), ?_⟩
    rcases hback with rfl | rfl <;> decide
  have digits : ((toString depth).toList ++ back.toList).filter (· != ')')
      = (toString depth).toList := by
    have number : (toString depth).toList.filter (· != ')') = (toString depth).toList := by
      refine List.filter_eq_self.mpr fun c hc => ?_
      rw [bne_iff_ne]
      intro hsign
      exact not_mem_toString (.inr hsign) hc
    have bracket : back.toList.filter (· != ')') = [] := by
      rcases hback with rfl | rfl <;> decide
    rw [List.filter_append, number, bracket, List.append_nil]
  obtain ⟨hstem, htail⟩ := cut_after_last before tail
  unfold stem printed
  rw [line, hstem, htail, digits, hbefore, if_pos (by simp), String.ofList_toList]
  exact ⟨rfl, rfl⟩

/-! ## §3. No line says two things. -/

theorem LineKind.getLast?_ending (kind : LineKind) : kind.ending.toList.getLast? = some '=' := by
  rcases kind with _ | _ | (_ | _) | (_ | _) <;> decide

/-- **No kind ends like another.** -/
theorem LineKind.ending_suffixFree {kind kind' : LineKind}
    (h : kind.ending.toList <:+ kind'.ending.toList) : kind = kind' := by
  revert h
  rcases kind with _ | _ | (_ | _) | (_ | _) <;>
    rcases kind' with _ | _ | (_ | _) | (_ | _) <;> decide

namespace Tells

variable {line : String} {m m' : Mark}

/-- What a line says shows on the two sides of its last sign "=". -/
theorem ending_and_printed {kind : LineKind} {depth : Int} (h : Tells line (.line kind depth)) :
    kind.ending.toList <:+ stem line ∧ printed line = some (toString depth) := by
  have hending := kind.getLast?_ending
  -- the line of a change of scope is nothing but its ending and the depth
  have change : kind.ending.toList <:+ stem (kind.ending ++ toString depth)
      ∧ printed (kind.ending ++ toString depth) = some (toString depth) := by
    obtain ⟨hstem, hprinted⟩ := stem_and_printed hending depth (.inl rfl)
    rw [String.append_empty] at hstem hprinted
    rw [hstem]
    exact ⟨List.suffix_rfl, hprinted⟩
  -- that of an insertion has a front, and ends in a bracket
  have insertion : ∀ front : String,
      kind.ending.toList <:+ stem (front ++ kind.ending ++ toString depth ++ ")")
        ∧ printed (front ++ kind.ending ++ toString depth ++ ")") = some (toString depth) := by
    intro front
    have hfront : (front ++ kind.ending).toList.getLast? = some '=' := by
      rw [String.toList_append, List.getLast?_append, hending]
      rfl
    obtain ⟨hstem, hprinted⟩ := stem_and_printed hfront depth (.inr rfl)
    rw [hstem, String.toList_append]
    exact ⟨List.suffix_append _ _, hprinted⟩
  cases h with
  | opened => exact change
  | closed => exact change
  | filed front target => exact insertion front
  | rejected front target => exact insertion front

theorem printed_of_atRoot (h : Tells line .atRoot) : printed line = none := by
  cases h
  decide

/-- **No line says two things**, whatever it holds. -/
theorem unique (h : Tells line m) (h' : Tells line m') : m = m' := by
  cases m with
  | atRoot =>
      cases m' with
      | atRoot => rfl
      | line kind' depth' =>
          have hprinted := h.printed_of_atRoot
          rw [h'.ending_and_printed.2] at hprinted
          cases hprinted
  | line kind depth =>
      obtain ⟨hending, hprinted⟩ := h.ending_and_printed
      cases m' with
      | atRoot =>
          rw [h'.printed_of_atRoot] at hprinted
          cases hprinted
      | line kind' depth' =>
          obtain ⟨hending', hprinted'⟩ := h'.ending_and_printed
          rw [hprinted] at hprinted'
          have hdepth : depth = depth' := eq_of_toString_eq (Option.some.inj hprinted')
          -- both endings come right before one sign, so one of them ends like the other
          have hkind : kind = kind' := by
            rcases List.suffix_or_suffix_of_suffix hending hending' with hsuffix | hsuffix
            · exact LineKind.ending_suffixFree hsuffix
            · exact (LineKind.ending_suffixFree hsuffix).symm
          rw [hkind, hdepth]

end Tells

/-- An event's line says what happened and nothing else. -/
theorem Event.tells_message_iff {e : Event} {m : Mark} : Tells e.message m ↔ m = e.mark := by
  constructor
  · intro h
    exact h.unique e.tells
  · rintro rfl
    exact e.tells

/-- **No two events have one line**: the key can be read off the line as well. -/
theorem Event.message_injective {e e' : Event} (h : e.message = e'.message) : e = e' := by
  have hmark : e.mark = e'.mark := Event.tells_message_iff.mp (h ▸ e.tells)
  -- events that differ say different things, unless they are insertions of two keys
  cases e with
  | stored key target depth =>
      cases e' with
      | stored key' target' depth' =>
          simp only [mark, Mark.line.injEq, LineKind.filed.injEq] at hmark
          obtain ⟨rfl, rfl⟩ := hmark
          simp only [message_stored, String.append_left_inj, String.append_right_inj] at h
          rw [h]
      | _ => simp [mark] at hmark
  | rejected key target depth =>
      cases e' with
      | rejected key' target' depth' =>
          simp only [mark, Mark.line.injEq, LineKind.rejected.injEq] at hmark
          obtain ⟨rfl, rfl⟩ := hmark
          simp only [message_rejected, String.append_left_inj, String.append_right_inj] at h
          rw [h]
      | _ => simp [mark] at hmark
  | entered depth => cases e' <;> simp_all [mark]
  | left depth => cases e' <;> simp_all [mark]
  | atRoot => cases e' <;> simp_all [mark]

end ScopeChain
