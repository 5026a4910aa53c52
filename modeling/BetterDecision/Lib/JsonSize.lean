import Mathlib.Algebra.Ring.Nat
import Mathlib.Algebra.BigOperators.Group.List.Basic
import Mathlib.Data.List.Induction
import BetterDecision.Lib.Json
import BetterDecision.Lib.Keyed

/-!
# How long a JSON text is

The length of a value's text, from those of its rows and fields, and what setting a field
of an object does to it.
-/

namespace Json

variable {ν : Type} (fmt : Format ν)

@[grind] def size (v : Value ν) : Nat := (dumps fmt v).length

/-- A field with the separator after it. -/
@[grind] def weight (field : List Char × Value ν) : Nat :=
  (quote fmt field.1).length + fmt.keySep.length + size fmt field.2 + fmt.itemSep.length

@[grind] def weights (fields : List (List Char × Value ν)) : Nat := (fields.map (weight fmt)).sum

/-- Rows with the separators between them. -/
@[grind] def rowsSize : List (Value ν) → Nat
  | [] => 0
  | [row] => size fmt row
  | row :: rows => size fmt row + fmt.itemSep.length + rowsSize rows

theorem rowsSize_cons_cons (row next : Value ν) (rows : List (Value ν)) :
    rowsSize fmt (row :: next :: rows) = size fmt row + fmt.itemSep.length + rowsSize fmt (next :: rows) := rfl

theorem length_moreRows (rows : List (Value ν)) :
    (moreRows fmt rows).length = if rows = [] then 1 else fmt.itemSep.length + rowsSize fmt rows + 1 := by
  induction rows with
  | nil => rw [moreRows]; rfl
  | cons row rows ih =>
    rw [moreRows, List.length_append, List.length_append, ih, if_neg (List.cons_ne_nil _ _)]
    cases rows with
    | nil => simp only [if_true, rowsSize, size]
    | cons next rows =>
      rw [if_neg (List.cons_ne_nil _ _), rowsSize_cons_cons, size]
      omega

theorem size_arr (rows : List (Value ν)) : size fmt (.arr rows) = rowsSize fmt rows + 2 := by
  cases rows with
  | nil => rw [size, dumps]; rfl
  | cons row rows =>
    rw [size, dumps, List.length_cons, List.length_append, length_moreRows]
    cases rows with
    | nil => simp only [if_true, rowsSize, size]
    | cons next rows =>
      rw [if_neg (List.cons_ne_nil _ _), rowsSize_cons_cons, size]
      omega

theorem length_moreFields (fields : List (List Char × Value ν)) :
    (moreFields fmt fields).length = weights fmt fields + 1 := by
  induction fields with
  | nil => rw [moreFields]; rfl
  | cons field fields ih =>
    rw [moreFields, weights, List.map_cons, List.sum_cons, ← weights, weight, size]
    simp only [List.length_append, ih]
    omega

/-- Of the separators of an object's fields, the last stands for its braces. -/
theorem size_obj (hsep : fmt.itemSep.length = 2) {fields : List (List Char × Value ν)} (h : fields ≠ []) :
    size fmt (.obj fields) = weights fmt fields := by
  obtain ⟨field, fields, rfl⟩ := List.exists_cons_of_ne_nil h
  rw [size, dumps, weights, List.map_cons, List.sum_cons, ← weights, weight, size]
  simp only [List.length_cons, List.length_append, length_moreFields]
  omega

theorem rowsSize_concat (rows : List (Value ν)) (row : Value ν) :
    rowsSize fmt (rows ++ [row]) = rowsSize fmt rows + (if rows = [] then 0 else fmt.itemSep.length) + size fmt row := by
  induction rows with
  | nil => simp [rowsSize]
  | cons first rows ih =>
    cases rows with
    | nil => simp [rowsSize]
    | cons second rows =>
      rw [if_neg (List.cons_ne_nil _ _)] at ih ⊢
      rw [List.cons_append, List.cons_append, rowsSize_cons_cons, ← List.cons_append, ih, rowsSize_cons_cons]
      omega

theorem rowsSize_mono {rows more : List (Value ν)} : rowsSize fmt rows ≤ rowsSize fmt (rows ++ more) := by
  induction more using List.reverseRecOn with
  | nil => exact Nat.le_of_eq (by rw [List.append_nil])
  | append_singleton more row ih =>
    rw [← List.append_assoc, rowsSize_concat]
    omega

/-! ## Setting a field -/

/-- `{**fields, key: v}`: a field that is there keeps its place. -/
@[grind] def setField (key : List Char) (v : Value ν) : List (List Char × Value ν) → List (List Char × Value ν)
  | [] => [(key, v)]
  | f :: fields => if f.1 = key then (key, v) :: fields else f :: setField key v fields

/-- The fields under other names. -/
@[grind] def without (fields : List (List Char × Value ν)) (key : List Char) : List (List Char × Value ν) :=
  fields.filter (fun f => f.1 ≠ key)

variable {fields : List (List Char × Value ν)} {key : List Char} {v : Value ν}

theorem setField_ne_nil : setField key v fields ≠ [] := by
  cases fields with
  | nil => exact List.cons_ne_nil _ _
  | cons f fields =>
    rw [setField]
    split <;> exact List.cons_ne_nil _ _

/-- A field not there yet comes last. -/
theorem setField_of_not_mem (h : key ∉ fields.map Prod.fst) : setField key v fields = fields ++ [(key, v)] := by
  induction fields with
  | nil => rfl
  | cons f fields ih =>
    rw [List.map_cons] at h
    have hrest := not_or.mp (List.mem_cons.not.mp h)
    rw [setField, if_neg (Ne.symm hrest.1), ih hrest.2, List.cons_append]

/-- Set to what it is, a field stays. -/
theorem setField_of_lookup (h : fields.lookup key = some v) : setField key v fields = fields := by
  induction fields with
  | nil => cases h
  | cons f fields ih =>
    obtain ⟨name, old⟩ := f
    rw [lookup_cons_if] at h
    rw [setField]
    by_cases hname : name = key
    · subst hname
      rw [if_pos rfl] at h
      rw [if_pos rfl, Option.some.inj h]
    · rw [if_neg (Ne.symm hname)] at h
      rw [if_neg hname, ih h]

theorem weights_append (more : List (List Char × Value ν)) :
    weights fmt (fields ++ more) = weights fmt fields + weights fmt more := by
  rw [weights, List.map_append, List.sum_append, weights, weights]

theorem mem_names_setField {k : List Char} :
    k ∈ (setField key v fields).map Prod.fst ↔ k = key ∨ k ∈ fields.map Prod.fst := by
  induction fields with
  | nil => simp [setField]
  | cons f fields ih =>
    rw [setField]
    split
    · next h => simp [← h]
    · rw [List.map_cons, List.mem_cons, ih, List.map_cons, List.mem_cons]
      tauto

theorem keyed_setField (h : Keyed Prod.fst fields) : Keyed Prod.fst (setField key v fields) := by
  induction fields with
  | nil => exact List.nodup_singleton _
  | cons f fields ih =>
    obtain ⟨hf, hfields⟩ := List.nodup_cons.mp h
    rw [setField]
    split
    · next hk => exact List.nodup_cons.mpr ⟨hk ▸ hf, hfields⟩
    · next hk =>
      refine List.nodup_cons.mpr ⟨fun hm => ?_, ih hfields⟩
      rcases mem_names_setField.mp hm with rfl | hm
      · exact hk rfl
      · exact hf hm

/-- **The field that was set, and every other as it was.** -/
theorem lookup_setField (k : List Char) :
    (setField key v fields).lookup k = if k = key then some v else fields.lookup k := by
  induction fields with
  | nil => exact lookup_cons_if k
  | cons f fields ih =>
    obtain ⟨name, old⟩ := f
    rw [setField]
    by_cases hf : name = key
    · rw [if_pos hf, lookup_cons_if, lookup_cons_if, hf]
      split <;> rfl
    · rw [if_neg hf, lookup_cons_if, ih, lookup_cons_if]
      by_cases h : k = key
      · rw [if_neg fun hk => hf (hk.symm.trans h), if_pos h, if_pos h]
      · rw [if_neg h, if_neg h]

theorem keyed_without (h : Keyed Prod.fst fields) : Keyed Prod.fst (without fields key) := h.filter _

/-- Setting a field does not touch the others. -/
theorem without_setField : without (setField key v fields) key = without fields key := by
  induction fields with
  | nil => simp [setField, without]
  | cons f fields ih =>
    rw [setField]
    split
    · next h => simp [without, h]
    · next h =>
      rw [without, List.filter_cons_of_pos (by simpa using h), ← without, ih, without, without,
        List.filter_cons_of_pos (by simpa using h)]

theorem without_setField_of_ne {other : List Char} (hne : other ≠ key) :
    without (setField key v fields) other = setField key v (without fields other) := by
  induction fields with
  | nil => simp [setField, without, Ne.symm hne]
  | cons f fields ih =>
    rw [setField]
    by_cases hf : f.1 = key
    · have hother : f.1 ≠ other := fun h => hne (h.symm.trans hf)
      rw [if_pos hf, without, without, List.filter_cons_of_pos (by simpa using Ne.symm hne),
        List.filter_cons_of_pos (by simpa using hother), setField, if_pos hf]
    · rw [if_neg hf]
      by_cases hother : f.1 = other
      · rw [without, without, List.filter_cons_of_neg (by simpa using hother),
          List.filter_cons_of_neg (by simpa using hother)]
        exact ih
      · rw [without, without, List.filter_cons_of_pos (by simpa using hother),
          List.filter_cons_of_pos (by simpa using hother), setField, if_neg hf]
        exact congrArg _ ih

/-- What a set field weighs, and the rest. -/
theorem weights_setField (h : Keyed Prod.fst fields) :
    weights fmt (setField key v fields) = weights fmt (without fields key) + weight fmt (key, v) := by
  induction fields with
  | nil => simp [setField, without, weights]
  | cons f fields ih =>
    obtain ⟨hf, hfields⟩ := List.nodup_cons.mp h
    rw [setField]
    by_cases hk : f.1 = key
    · have hrest : without fields key = fields :=
        List.filter_eq_self.mpr fun g hg => by
          simpa using fun hgk : g.1 = key => hf (List.mem_map.mpr ⟨g, hg, hgk.trans hk.symm⟩)
      rw [if_pos hk, without, List.filter_cons_of_neg (by simpa using hk), ← without, hrest, weights, List.map_cons,
        List.sum_cons, ← weights]
      omega
    · have ih := ih hfields
      rw [if_neg hk, without, List.filter_cons_of_pos (by simpa using hk), ← without, weights, weights, List.map_cons,
        List.map_cons, List.sum_cons, List.sum_cons, ← weights, ← weights]
      omega

end Json
