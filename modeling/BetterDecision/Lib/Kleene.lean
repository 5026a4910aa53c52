import Mathlib.Data.Option.Basic
import Mathlib.Data.List.Basic

/-!
# Three-valued truth

A query keeps a row where its condition is true, not where it is unknown. A condition is
an `Option Bool`, unknown being `none`; the connectives are Kleene's.
-/

namespace Kleene

abbrev Truth := Option Bool

@[grind] def not (a : Truth) : Truth := a.map Bool.not

@[grind] def and : Truth → Truth → Truth
  | some false, _ => some false
  | _, some false => some false
  | some true, some true => some true
  | _, _ => none

@[grind] def or : Truth → Truth → Truth
  | some true, _ => some true
  | _, some true => some true
  | some false, some false => some false
  | _, _ => none

/-- A row with this condition is kept. -/
@[grind] def Holds (a : Truth) : Prop := a = some true

instance (a : Truth) : Decidable (Holds a) := inferInstanceAs (Decidable (_ = _))

@[simp] theorem holds_some {b : Bool} : Holds (some b) ↔ b = true := by simp [Holds]

@[simp] theorem not_some {b : Bool} : not (some b) = some !b := rfl

@[simp] theorem holds_and {a b : Truth} : Holds (and a b) ↔ Holds a ∧ Holds b := by
  rcases a with _ | _ | _ <;> rcases b with _ | _ | _ <;> decide

@[simp] theorem holds_or {a b : Truth} : Holds (or a b) ↔ Holds a ∨ Holds b := by
  rcases a with _ | _ | _ <;> rcases b with _ | _ | _ <;> decide

/-! ## Columns that may be null -/

section Columns

variable {α : Type} [DecidableEq α]

/-- A comparison with a column: unknown where that is null. -/
@[grind] def compare (column : Option α) (test : α → Bool) : Truth := column.map test

omit [DecidableEq α] in
@[simp] theorem holds_compare {column : Option α} {test : α → Bool} :
    Holds (compare column test) ↔ ∃ a, column = some a ∧ test a = true := by
  rcases column with _ | a <;> simp [compare, Holds]

/-- `NOT IN` over values none of which is null. -/
@[grind] def notIn (column : Option α) (values : List α) : Truth :=
  if values = [] then some true else column.map (fun a => !values.contains a)

theorem holds_notIn {column : Option α} {values : List α} (hvalues : values ≠ []) :
    Holds (notIn column values) ↔ ∃ a, column = some a ∧ a ∉ values := by
  rw [notIn, if_neg hvalues]
  rcases column with _ | a <;> simp [Holds]

end Columns

end Kleene
