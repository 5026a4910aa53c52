import Mathlib.Algebra.Order.BigOperators.Group.List
import Mathlib.Data.Nat.Digits.Lemmas
import Mathlib.Logic.Relation
import BetterDecision.Model.ToolResults

/-!
# A tool result is capped without losing rows

The rows that are kept are those that fit beside the widest markers (`RowsFit`). What a
capped result weighs is its other fields, its markers and its rows, so these rows fit
beside their own markers as well, a negative offset apart.
-/

namespace BetterDecision

open Json

/-! ## How wide a number is -/

def width (n : Int) : Nat := (intText n).length

theorem length_natText_le {n k : Nat} (hk : 0 < k) : (natText n).length ≤ k ↔ n < 10 ^ k := by
  rw [natText]
  split
  · next h =>
    subst h
    exact ⟨fun _ => Nat.pow_pos (by decide), fun _ => hk⟩
  · rw [List.length_reverse, List.length_map]
    exact Nat.digits_length_le_iff (by decide) n

theorem length_natText_pos (n : Nat) : 0 < (natText n).length := by
  rw [natText]
  split
  · exact Nat.one_pos
  · next h =>
    rw [List.length_reverse, List.length_map]
    exact List.length_pos_iff.mpr (Nat.digits_ne_nil_iff_ne_zero.mpr h)

theorem lt_pow_length (n : Nat) : n < 10 ^ (natText n).length :=
  (length_natText_le (length_natText_pos n)).mp le_rfl

theorem length_natText_mono {m n : Nat} (h : m ≤ n) : (natText m).length ≤ (natText n).length :=
  (length_natText_le (length_natText_pos n)).mpr (Nat.lt_of_le_of_lt h (lt_pow_length n))

/-- A sum has no more digits than its terms together. -/
theorem length_natText_add (m n : Nat) : (natText (m + n)).length ≤ (natText m).length + (natText n).length := by
  have hm := lt_pow_length m
  have hn := lt_pow_length n
  refine (length_natText_le (Nat.add_pos_left (length_natText_pos m) _)).mpr ?_
  have hmul : (m + 1) * (n + 1) ≤ 10 ^ (natText m).length * 10 ^ (natText n).length := Nat.mul_le_mul hm hn
  rw [Nat.pow_add]
  nlinarith

theorem width_ofNat (n : Nat) : width n = (natText n).length := rfl

theorem width_neg {n : Nat} (h : 0 < n) : width (-n) = (natText n).length + 1 := by
  obtain ⟨m, rfl⟩ := Nat.exists_eq_succ_of_ne_zero (Nat.ne_of_gt h)
  rfl

theorem width_pos (n : Int) : 0 < width n := by
  cases n with
  | ofNat n => exact length_natText_pos n
  | negSucc n => exact Nat.succ_pos _

theorem width_mono {m n : Int} (hm : 0 ≤ m) (h : m ≤ n) : width m ≤ width n := by
  obtain ⟨m, rfl⟩ := Int.eq_ofNat_of_zero_le hm
  obtain ⟨n, rfl⟩ := Int.eq_ofNat_of_zero_le (Int.le_trans hm h)
  exact length_natText_mono (Int.ofNat_le.mp h)

/-- Going up, a number loses no more digits than what was added has. -/
theorem width_le_add (o : Int) (n : Nat) : width o ≤ width (o + n) + width n := by
  rcases Int.le_total 0 o with ho | ho
  · exact Nat.le_add_right_of_le (width_mono ho (by omega))
  obtain ⟨a, ha⟩ := Int.eq_ofNat_of_zero_le (Int.neg_nonneg_of_nonpos ho)
  obtain rfl : o = -(a : Int) := by omega
  rcases Nat.eq_zero_or_pos a with rfl | hpos
  · exact Nat.le_add_left_of_le (width_mono le_rfl (by omega))
  rw [width_neg hpos, width_ofNat n]
  by_cases hlt : n < a
  · have hdiff : -(a : Int) + n = -((a - n : Nat) : Int) := by omega
    have hsum := length_natText_add (a - n) n
    rw [Nat.sub_add_cancel (Nat.le_of_lt hlt)] at hsum
    rw [hdiff, width_neg (by omega)]
    omega
  · have := length_natText_mono (Nat.not_lt.mp hlt)
    have := width_pos (-(a : Int) + n)
    omega

/-! ## What a capped result weighs -/

theorem toolSep : toolFormat.itemSep.length = 2 := rfl

theorem resultSize_pos (v : ToolValue) : 0 < resultSize v := by
  refine List.length_pos_iff.mpr fun h => ?_
  cases v with
  | null => cases h
  | bool b => cases b <;> cases h
  | num n =>
    cases n with
    | int n => exact absurd (congrArg List.length h) (Nat.ne_of_gt (width_pos n))
    | float text written => exact written h
  | str s => cases h
  | arr rows => cases rows <;> cases h
  | obj fields => cases fields <;> cases h

/-- The fields that carry no marker. -/
def unmarked (offset : Option Int) (fields : ToolFields) : ToolFields :=
  match offset with
  | some _ => without (without fields nextOffsetName) truncatedName
  | none => without fields truncatedName

def markersSize (offset : Option Int) (key : FieldName) (count n : Nat) : Nat :=
  Json.weight toolFormat (truncatedName, truncatedMark key n count) +
    match offset with
    | some o => Json.weight toolFormat (nextOffsetName, .num (.int (o + n)))
    | none => 0

/-- The key carries no marker of a result with this offset. -/
def PlainKey (offset : Option Int) (key : FieldName) : Prop :=
  key ≠ truncatedName ∧ (offset.isSome → key ≠ nextOffsetName)

section Weights

variable {fields : ToolFields} {offset : Option Int} {key : FieldName} {count n m : Nat} {kept : List ToolValue}

/-- **A capped result is its other fields and its markers.** -/
theorem size_buildFields (h : Keyed Prod.fst fields) (key : FieldName) (count n : Nat) (kept : List ToolValue) :
    resultSize (.obj (buildFields fields key count n kept)) =
      weights toolFormat (unmarked (pageOffset fields) (setField key (.arr kept) fields)) +
        markersSize (pageOffset fields) key count n := by
  have hkeyed : Keyed Prod.fst (setField key (.arr kept) fields) := keyed_setField h
  rw [buildFields, resultSize]
  cases pageOffset fields with
  | none =>
    simp only [markNextOffset, unmarked, markersSize]
    rw [size_obj toolFormat toolSep setField_ne_nil, weights_setField toolFormat hkeyed]
    omega
  | some o =>
    simp only [markNextOffset, unmarked, markersSize]
    rw [size_obj toolFormat toolSep setField_ne_nil, weights_setField toolFormat (keyed_setField hkeyed),
      without_setField_of_ne (by decide), weights_setField toolFormat (keyed_without hkeyed)]
    omega

theorem unmarked_setField (hkey : PlainKey offset key) :
    unmarked offset (setField key (.arr kept) fields) = setField key (.arr kept) (unmarked offset fields) := by
  cases offset with
  | none => exact without_setField_of_ne (Ne.symm hkey.1)
  | some o =>
    simp only [unmarked]
    rw [without_setField_of_ne (Ne.symm (hkey.2 rfl)), without_setField_of_ne (Ne.symm hkey.1)]

theorem keyed_unmarked (h : Keyed Prod.fst fields) : Keyed Prod.fst (unmarked offset fields) := by
  cases offset with
  | none => exact keyed_without h
  | some o => exact keyed_without (keyed_without h)

/-- **And its rows, where the list is no marker.** -/
theorem size_buildFields_rows (h : Keyed Prod.fst fields) (hkey : PlainKey (pageOffset fields) key) :
    resultSize (.obj (buildFields fields key count n kept)) =
      resultSize (.obj (buildFields fields key count n [])) + rowsSize toolFormat kept := by
  have hrest : ∀ v, weights toolFormat (setField key v (unmarked (pageOffset fields) fields)) =
      weights toolFormat (without (unmarked (pageOffset fields) fields) key) + Json.weight toolFormat (key, v) :=
    fun v => weights_setField toolFormat (keyed_unmarked h)
  rw [size_buildFields h, size_buildFields h, unmarked_setField hkey, unmarked_setField hkey, hrest, hrest]
  simp only [Json.weight, size_arr, rowsSize]
  omega

/-- What a mark weighs without the number it shows. -/
def markRest (key : FieldName) (count : Nat) : Nat :=
  weights toolFormat [(['k', 'e', 'y'], .str key), (['o', 'f'], .num (.int count))] +
    (quote toolFormat ['s', 'h', 'o', 'w', 'n']).length + 4

theorem size_truncatedMark : size toolFormat (truncatedMark key n count) = markRest key count + width n := by
  have hnum : size toolFormat (.num (.int n)) = width n := rfl
  rw [truncatedMark, size_obj toolFormat toolSep (List.cons_ne_nil _ _), markRest]
  simp only [weights, List.map_cons, List.map_nil, List.sum_cons, List.sum_nil, Json.weight, hnum]
  simp only [toolFormat, List.length_cons, List.length_nil]
  omega

theorem markersSize_mono (ho : ∀ o ∈ offset, 0 ≤ o) (h : n ≤ m) (key : FieldName) (count : Nat) :
    markersSize offset key count n ≤ markersSize offset key count m := by
  have hshown : width n ≤ width m := width_mono (Int.natCast_nonneg n) (Int.ofNat_le.mpr h)
  cases offset with
  | none =>
    simp only [markersSize, Json.weight, size_truncatedMark]
    omega
  | some o =>
    have hnext : size toolFormat (.num (.int (o + n))) ≤ size toolFormat (.num (.int (o + m))) :=
      width_mono (Int.add_nonneg (ho o rfl) (Int.natCast_nonneg n)) (by omega)
    simp only [markersSize, Json.weight, size_truncatedMark]
    omega

/-- A negative offset loses digits on the way to zero: no more than the count has, the one
of the zero shown apart. -/
theorem markersSize_zero_le (offset : Option Int) (key : FieldName) (count : Nat) :
    markersSize offset key count 0 ≤ markersSize offset key count count + 1 := by
  have hzero : width ((0 : Nat) : Int) = 1 := rfl
  have hcount := width_pos count
  cases offset with
  | none =>
    simp only [markersSize, Json.weight, size_truncatedMark, hzero]
    omega
  | some o =>
    have hnext : size toolFormat (.num (.int (o + (0 : Nat)))) ≤
        size toolFormat (.num (.int (o + count))) + width count := by
      rw [Int.natCast_zero, Int.add_zero]
      exact width_le_add o count
    simp only [markersSize, Json.weight, size_truncatedMark, hzero]
    omega

theorem size_buildFields_zero_le (h : Keyed Prod.fst fields) (key : FieldName) (count : Nat) :
    resultSize (.obj (buildFields fields key count 0 [])) ≤
      resultSize (.obj (buildFields fields key count count [])) + 1 := by
  rw [size_buildFields h, size_buildFields h]
  have := markersSize_zero_le (pageOffset fields) key count
  omega

end Weights

/-! ## The rows that are kept -/

/-- The first `n` rows fit beside the widest markers, and one more does not. -/
structure RowsFit (fields : ToolFields) (key : FieldName) (rows : List ToolValue) (n : Nat) : Prop where
  le : n ≤ rows.length
  fits : 0 < n → rowsSize toolFormat (rows.take n) +
    resultSize (.obj (buildFields fields key rows.length rows.length [])) ≤ maxToolResultChars
  full : n < rows.length → maxToolResultChars < rowsSize toolFormat (rows.take (n + 1)) +
    resultSize (.obj (buildFields fields key rows.length rows.length []))

theorem rowsSize_take_mono {rows : List ToolValue} {m n : Nat} (h : m ≤ n) :
    rowsSize toolFormat (rows.take m) ≤ rowsSize toolFormat (rows.take n) := by
  have hcut : rows.take n = rows.take m ++ (rows.drop m).take (n - m) := by
    rw [← List.take_add, Nat.add_sub_cancel' h]
  rw [hcut]
  exact rowsSize_mono toolFormat

theorem RowsFit.unique {fields : ToolFields} {key : FieldName} {rows : List ToolValue} {m n : Nat}
    (hm : RowsFit fields key rows m) (hn : RowsFit fields key rows n) : m = n := by
  by_contra hne
  rcases Nat.lt_or_gt_of_ne hne with hlt | hlt
  · have hfull := hm.full (Nat.lt_of_lt_of_le hlt hn.le)
    have hfits := hn.fits (Nat.lt_of_le_of_lt (Nat.zero_le m) hlt)
    have hmore : rowsSize toolFormat (rows.take (m + 1)) ≤ rowsSize toolFormat (rows.take n) := rowsSize_take_mono hlt
    omega
  · have hfull := hn.full (Nat.lt_of_lt_of_le hlt hm.le)
    have hfits := hm.fits (Nat.lt_of_le_of_lt (Nat.zero_le n) hlt)
    have hmore : rowsSize toolFormat (rows.take (n + 1)) ≤ rowsSize toolFormat (rows.take m) := rowsSize_take_mono hlt
    omega

theorem rowsSize_take_succ {rows : List ToolValue} {n : Nat} (h : n < rows.length) :
    rowsSize toolFormat (rows.take (n + 1)) =
      rowsSize toolFormat (rows.take n) + (resultSize rows[n] + if n = 0 then 0 else 2) := by
  rw [List.take_succ_eq_append_getElem h, rowsSize_concat, toolSep, resultSize]
  have hnil : rows.take n = [] ↔ n = 0 := by
    rw [List.take_eq_nil_iff]
    exact or_iff_left fun hr => by simp [hr] at h
  simp only [hnil]
  omega

/-- The loop counts on from the rows it has counted. -/
theorem countRows_spec (room : Int) (rows : List ToolValue) (n : Nat) (hn : n ≤ rows.length)
    (hfits : 0 < n → (rowsSize toolFormat (rows.take n) : Int) ≤ room) :
    let c := countRows room n (rowsSize toolFormat (rows.take n)) ((rows.drop n).map resultSize)
    c ≤ rows.length ∧ (0 < c → (rowsSize toolFormat (rows.take c) : Int) ≤ room) ∧
      (c < rows.length → room < rowsSize toolFormat (rows.take (c + 1))) := by
  induction hk : rows.length - n generalizing n with
  | zero =>
    have hend : n = rows.length := by omega
    rw [hend, List.drop_length, List.map_nil, countRows]
    exact ⟨Nat.le_refl _, hend ▸ hfits, fun h => absurd h (Nat.lt_irrefl _)⟩
  | succ k ih =>
    have hlt : n < rows.length := by omega
    rw [List.drop_eq_getElem_cons hlt, List.map_cons, countRows, ← rowsSize_take_succ hlt]
    split
    · next hroom => exact ⟨hn, hfits, fun _ => hroom⟩
    · next hroom => exact ih (n + 1) hlt (fun _ => Int.not_lt.mp hroom) (by omega)

theorem countRows_rowsFit (fields : ToolFields) (key : FieldName) (rows : List ToolValue) :
    RowsFit fields key rows (countRows
      (maxToolResultChars - resultSize (.obj (buildFields fields key rows.length rows.length []))) 0 0
      (rows.map resultSize)) := by
  have hspec := countRows_spec
    (maxToolResultChars - resultSize (.obj (buildFields fields key rows.length rows.length []))) rows 0
    (Nat.zero_le _) fun h => absurd h (Nat.lt_irrefl 0)
  simp only [List.take_zero, List.drop_zero, rowsSize] at hspec
  obtain ⟨hle, hfits, hfull⟩ := hspec
  exact ⟨hle, fun h => by have := hfits h; omega, fun h => by have := hfull h; omega⟩

/-- What the code returns of a result with a list that is too large. -/
theorem capList_eq (fields : ToolFields) (key : FieldName) (rows : List ToolValue) :
    ∃ n, RowsFit fields key rows n ∧ capList fields key rows =
      if resultSize (.obj (buildFields fields key rows.length n (rows.take n))) ≤ maxToolResultChars then
        .obj (buildFields fields key rows.length n (rows.take n))
      else resultTooLarge :=
  ⟨_, countRows_rowsFit fields key rows, rfl⟩

theorem capList_of_fits {fields : ToolFields} {key : FieldName} {rows : List ToolValue} {n : Nat}
    (hn : RowsFit fields key rows n)
    (hsize : resultSize (.obj (buildFields fields key rows.length n (rows.take n))) ≤ maxToolResultChars) :
    capList fields key rows = .obj (buildFields fields key rows.length n (rows.take n)) := by
  obtain ⟨n', hn', heq⟩ := capList_eq fields key rows
  obtain rfl := hn'.unique hn
  rw [heq, if_pos hsize]

/-- Nothing fits when the result without rows does not. -/
theorem capList_of_large {fields : ToolFields} {key : FieldName} {rows : List ToolValue} (h : Keyed Prod.fst fields)
    (hlarge : maxToolResultChars < resultSize (.obj (buildFields fields key rows.length 0 []))) :
    capList fields key rows = resultTooLarge := by
  obtain ⟨n, hn, heq⟩ := capList_eq fields key rows
  have hzero := size_buildFields_zero_le h key rows.length
  have hn0 : n = 0 := by
    by_contra hne
    have hpos := Nat.pos_of_ne_zero hne
    have hfits := hn.fits hpos
    have hone : rowsSize toolFormat (rows.take 1) ≤ rowsSize toolFormat (rows.take n) := rowsSize_take_mono hpos
    have hlt : 0 < rows.length := Nat.lt_of_lt_of_le hpos hn.le
    have hrow : 0 < rowsSize toolFormat (rows.take 1) := by
      rw [rowsSize_take_succ hlt]
      have := resultSize_pos rows[0]
      omega
    omega
  subst hn0
  rw [heq, List.take_zero, if_neg (Nat.not_le.mpr hlarge)]

/-- Beside markers that do not shrink, the rows that fit beside the widest fit beside their own. -/
theorem size_build_le {fields : ToolFields} {key : FieldName} {rows : List ToolValue} {n : Nat}
    (h : Keyed Prod.fst fields) (hkey : PlainKey (pageOffset fields) key) (ho : ∀ o ∈ pageOffset fields, 0 ≤ o)
    (hn : RowsFit fields key rows n)
    (hempty : resultSize (.obj (buildFields fields key rows.length 0 [])) ≤ maxToolResultChars) :
    resultSize (.obj (buildFields fields key rows.length n (rows.take n))) ≤ maxToolResultChars := by
  rcases Nat.eq_zero_or_pos n with rfl | hpos
  · exact hempty
  · have hfits := hn.fits hpos
    have hmarks := markersSize_mono ho hn.le key rows.length
    have hwide := size_buildFields h key rows.length rows.length []
    have hown := size_buildFields h key rows.length n []
    rw [size_buildFields_rows h hkey]
    omega

/-! ## The fields of a capped result -/

section Fields

variable {fields : ToolFields} {key k : FieldName} {count n : Nat} {kept : List ToolValue}

theorem lookup_buildFields_next {o : Int} (ho : pageOffset fields = some o) :
    (buildFields fields key count n kept).lookup nextOffsetName = some (.num (.int (o + n))) := by
  rw [buildFields, ho, markNextOffset, lookup_setField, if_pos rfl]

theorem lookup_buildFields (hk : (pageOffset fields).isSome → k ≠ nextOffsetName) :
    (buildFields fields key count n kept).lookup k =
      if k = truncatedName then some (truncatedMark key n count)
      else if k = key then some (.arr kept) else fields.lookup k := by
  have hinner : (setField truncatedName (truncatedMark key n count) (setField key (.arr kept) fields)).lookup k =
      if k = truncatedName then some (truncatedMark key n count)
      else if k = key then some (.arr kept) else fields.lookup k := by
    rw [lookup_setField, lookup_setField]
  rw [buildFields]
  cases ho : pageOffset fields with
  | none => exact hinner
  | some o =>
    rw [ho] at hk
    rw [markNextOffset, lookup_setField, if_neg (hk rfl), hinner]

theorem lookup_buildFields_mark :
    (buildFields fields key count n kept).lookup truncatedName = some (truncatedMark key n count) := by
  rw [lookup_buildFields fun _ => by decide, if_pos rfl]

theorem mem_listFields {l : FieldName × List ToolValue} (h : l ∈ listFields fields) : (l.1, .arr l.2) ∈ fields := by
  obtain ⟨⟨name, v⟩, hf, heq⟩ := List.mem_filterMap.mp h
  cases v with
  | arr rows =>
    cases heq
    exact hf
  | _ => cases heq

theorem longestList_mem {rows : List ToolValue} (h : longestList fields = some (key, rows)) :
    (key, .arr rows) ∈ fields := mem_listFields (List.argmax_mem h)

theorem longestList_isSome (h : listFields fields ≠ []) : ∃ key rows, longestList fields = some (key, rows) := by
  rcases hl : longestList fields with _ | ⟨key, rows⟩
  · exact absurd (List.argmax_eq_none.mp hl) h
  · exact ⟨key, rows, rfl⟩

/-- No list is longer than the longest. -/
theorem longestList_ge {rows : List ToolValue} (h : longestList fields = some (key, rows)) :
    ∀ l ∈ listFields fields, resultSize (.arr l.2) ≤ resultSize (.arr rows) := by
  intro l hl
  have hmax : (key, rows) ∈ (listFields fields).argmax (fun l => resultSize (.arr l.2)) := h
  have hle := List.le_of_mem_argmax hl hmax
  exact hle

end Fields

/-! ## What the cap promises -/

/-- The list shows its first `n` rows, every other field is as it was, and the mark says so. -/
structure ShowsRows (fields : ToolFields) (key : FieldName) (rows : List ToolValue) (n : Nat) (out : ToolValue) :
    Prop where
  le : n ≤ rows.length
  shown : (resultFields out).lookup key = some (.arr (rows.take n))
  others : ∀ k v, k ≠ key → fields.lookup k = some v → (resultFields out).lookup k = some v
  mark : (resultFields out).lookup truncatedName = some (truncatedMark key n rows.length)

/-- Of a result that is too large, its longest list is cut; `result_too_large` means that
nothing fits even without the rows. -/
structure Capped (result out : ToolValue) : Prop where
  size_le : resultSize out ≤ maxToolResultChars
  same : resultSize result ≤ maxToolResultChars → out = result
  cut : maxToolResultChars < resultSize result → listFields (resultFields result) ≠ [] →
    ∃ key rows, longestList (resultFields result) = some (key, rows) ∧
      (∀ l ∈ listFields (resultFields result), resultSize (.arr l.2) ≤ resultSize (.arr rows)) ∧
      (out = resultTooLarge ∧
          maxToolResultChars < resultSize (.obj (buildFields (resultFields result) key rows.length 0 [])) ∨
        ∃ n, ShowsRows (resultFields result) key rows n out)

/-- The markers of a cut to `n` rows take no other field's place, and a negative offset
leaves the rows that fit room for its own digits. -/
structure MarksFit (fields : ToolFields) (key : FieldName) (rows : List ToolValue) (n : Nat) : Prop where
  mark : ∀ v, fields.lookup truncatedName = some v → v = truncatedMark key n rows.length
  next : ∀ o v, pageOffset fields = some o → fields.lookup nextOffsetName = some v → v = .num (.int (o + n))
  negative : ∀ o, pageOffset fields = some o → o < 0 →
    resultSize (.obj (buildFields fields key rows.length n (rows.take n))) ≤ maxToolResultChars

/-- What a result must be for the cap to keep its promise. -/
def CapsRight (result : ToolValue) : Prop :=
  resultSize result ≤ maxToolResultChars ∨
    ∀ key rows, longestList (resultFields result) = some (key, rows) →
      maxToolResultChars < resultSize (.obj (buildFields (resultFields result) key rows.length 0 [])) ∨
        ∀ n, RowsFit (resultFields result) key rows n → MarksFit (resultFields result) key rows n

theorem resultTooLarge_le : resultSize resultTooLarge ≤ maxToolResultChars := by
  have hsize : resultSize resultTooLarge = 29 := rfl
  rw [hsize]
  decide

theorem resultTooLarge_mark : (resultFields resultTooLarge).lookup truncatedName = none := by decide

theorem capResult_of_list {result : ToolValue} {key : FieldName} {rows : List ToolValue}
    (hlarge : maxToolResultChars < resultSize result)
    (hlongest : longestList (resultFields result) = some (key, rows)) :
    capResult result = capList (resultFields result) key rows := by
  rw [capResult, if_neg (Nat.not_le.mpr hlarge), hlongest]

theorem capResult_le (result : ToolValue) : resultSize (capResult result) ≤ maxToolResultChars := by
  by_cases hfits : resultSize result ≤ maxToolResultChars
  · rw [capResult, if_pos hfits]
    exact hfits
  · rcases hlongest : longestList (resultFields result) with _ | ⟨key, rows⟩
    · rw [capResult, if_neg hfits, hlongest]
      exact resultTooLarge_le
    · rw [capResult_of_list (Nat.not_le.mp hfits) hlongest]
      obtain ⟨n, -, heq⟩ := capList_eq (resultFields result) key rows
      rw [heq]
      split
      · next h => exact h
      · exact resultTooLarge_le

/-- The key of a cut that keeps its markers' places is no marker. -/
theorem MarksFit.plainKey {fields : ToolFields} {key : FieldName} {rows : List ToolValue} {n : Nat}
    (hm : MarksFit fields key rows n) (hrows : fields.lookup key = some (.arr rows)) :
    PlainKey (pageOffset fields) key := by
  constructor
  · rintro rfl
    cases hm.mark _ hrows
  · rintro hpaged rfl
    obtain ⟨o, ho⟩ := Option.isSome_iff_exists.mp hpaged
    cases hm.next o _ ho hrows

theorem MarksFit.size_le {fields : ToolFields} {key : FieldName} {rows : List ToolValue} {n : Nat}
    (hm : MarksFit fields key rows n) (h : Keyed Prod.fst fields) (hrows : fields.lookup key = some (.arr rows))
    (hn : RowsFit fields key rows n)
    (hempty : resultSize (.obj (buildFields fields key rows.length 0 [])) ≤ maxToolResultChars) :
    resultSize (.obj (buildFields fields key rows.length n (rows.take n))) ≤ maxToolResultChars := by
  by_cases hneg : ∃ o, pageOffset fields = some o ∧ o < 0
  · obtain ⟨o, ho, hlt⟩ := hneg
    exact hm.negative o ho hlt
  · push Not at hneg
    exact size_build_le h (hm.plainKey hrows) hneg hn hempty

theorem MarksFit.showsRows {fields : ToolFields} {key : FieldName} {rows : List ToolValue} {n : Nat}
    (hm : MarksFit fields key rows n) (hrows : fields.lookup key = some (.arr rows)) (hn : n ≤ rows.length) :
    ShowsRows fields key rows n (.obj (buildFields fields key rows.length n (rows.take n))) := by
  have hkey := hm.plainKey hrows
  refine ⟨hn, ?_, ?_, lookup_buildFields_mark⟩
  · rw [resultFields, lookup_buildFields hkey.2, if_neg hkey.1, if_pos rfl]
  · intro k v hk hv
    rw [resultFields]
    by_cases hnext : (pageOffset fields).isSome ∧ k = nextOffsetName
    · obtain ⟨hpaged, rfl⟩ := hnext
      obtain ⟨o, ho⟩ := Option.isSome_iff_exists.mp hpaged
      rw [lookup_buildFields_next ho, hm.next o v ho hv]
    · rw [lookup_buildFields fun hpaged heq => hnext ⟨hpaged, heq⟩, if_neg hk]
      split
      · next htrunc => rw [hm.mark v (htrunc ▸ hv)]
      · exact hv

/-- A cut that shows its rows kept its markers' places. -/
theorem ShowsRows.marksFit {fields : ToolFields} {key : FieldName} {rows kept : List ToolValue} {m n : Nat}
    (hs : ShowsRows fields key rows m (.obj (buildFields fields key rows.length n kept)))
    (hsize : resultSize (.obj (buildFields fields key rows.length n (rows.take n))) ≤ maxToolResultChars) :
    MarksFit fields key rows n := by
  refine ⟨fun v hv => ?_, fun o v ho hv => ?_, fun _ _ _ => hsize⟩
  · have hkey : truncatedName ≠ key := by
      rintro rfl
      have hshown := hs.shown
      rw [resultFields, lookup_buildFields_mark] at hshown
      cases hshown
    have hmark := hs.others _ v hkey hv
    rw [resultFields, lookup_buildFields_mark] at hmark
    exact (Option.some.inj hmark).symm
  · have hkey : nextOffsetName ≠ key := by
      rintro rfl
      have hshown := hs.shown
      rw [resultFields, lookup_buildFields_next ho] at hshown
      cases hshown
    have hnext := hs.others _ v hkey hv
    rw [resultFields, lookup_buildFields_next ho] at hnext
    exact (Option.some.inj hnext).symm

theorem capped_of_capsRight (result : ToolResult) (h : CapsRight result.value) :
    Capped result.value (capResult result.value) := by
  refine ⟨capResult_le _, fun hfits => if_pos hfits, fun hlarge hlists => ?_⟩
  obtain ⟨key, rows, hlongest⟩ := longestList_isSome hlists
  have hrows := lookup_eq_some_of_mem result.keyed (longestList_mem hlongest)
  refine ⟨key, rows, hlongest, longestList_ge hlongest, ?_⟩
  rw [capResult_of_list hlarge hlongest]
  rcases Nat.lt_or_ge maxToolResultChars
    (resultSize (.obj (buildFields (resultFields result.value) key rows.length 0 []))) with hempty | hempty
  · exact .inl ⟨capList_of_large result.keyed hempty, hempty⟩
  · have hmarks := ((h.resolve_left (Nat.not_le.mpr hlarge)) key rows hlongest).resolve_left (Nat.not_lt.mpr hempty)
    obtain ⟨n, hn, -⟩ := capList_eq (resultFields result.value) key rows
    have hm := hmarks n hn
    rw [capList_of_fits hn (hm.size_le result.keyed hrows hn hempty)]
    exact .inr ⟨n, hm.showsRows hrows hn.le⟩

theorem capsRight_of_capped (result : ToolResult) (h : Capped result.value (capResult result.value)) :
    CapsRight result.value := by
  by_cases hlarge : resultSize result.value ≤ maxToolResultChars
  · exact .inl hlarge
  refine .inr fun key rows hlongest => ?_
  have hlists : listFields (resultFields result.value) ≠ [] := fun hnil => by
    rw [longestList, hnil] at hlongest
    cases hlongest
  obtain ⟨key', rows', hlongest', -, hcut⟩ := h.cut (Nat.not_le.mp hlarge) hlists
  obtain ⟨rfl, rfl⟩ := Prod.mk.inj (Option.some.inj (hlongest.symm.trans hlongest'))
  rw [capResult_of_list (Nat.not_le.mp hlarge) hlongest] at hcut
  rcases hcut with ⟨-, hempty⟩ | ⟨m, hs⟩
  · exact .inl hempty
  refine .inr fun n hn => ?_
  obtain ⟨n', hn', heq⟩ := capList_eq (resultFields result.value) key rows
  obtain rfl := hn'.unique hn
  rw [heq] at hs
  split at hs
  · next hsize => exact hs.marksFit hsize
  · exact absurd (resultTooLarge_mark.symm.trans hs.mark) nofun

/-! ## The pages of a tool -/

section Pages

variable (tool : PagedTool) (o : Nat)

theorem PagedTool.names_fields :
    (tool.fields o).map Prod.fst = tool.lists.map Prod.fst ++ (tool.others o).map Prod.fst ++ [offsetName] := by
  rw [PagedTool.fields, List.map_append, List.map_append, List.map_map]
  rfl

theorem PagedTool.names_nodup : ((tool.fields o).map Prod.fst ++ [truncatedName, nextOffsetName]).Nodup := by
  rw [tool.names_fields o, List.append_assoc]
  exact tool.names o

theorem PagedTool.keyed : Keyed Prod.fst (tool.fields o) := (List.nodup_append.mp (tool.names_nodup o)).1

theorem PagedTool.not_mem_of_marker {name : FieldName} (h : name ∈ [truncatedName, nextOffsetName]) :
    name ∉ (tool.fields o).map Prod.fst :=
  fun hm => (List.nodup_append.mp (tool.names_nodup o)).2.2 name hm name h rfl

theorem PagedTool.lookup_marker {name : FieldName} (h : name ∈ [truncatedName, nextOffsetName]) :
    (tool.fields o).lookup name = none :=
  lookup_eq_none_of_not_mem fun v hv => tool.not_mem_of_marker o h (List.mem_map.mpr ⟨(name, v), hv, rfl⟩)

theorem PagedTool.pageOffset_fields : pageOffset (tool.fields o) = some (o : Int) := by
  have hmem : (offsetName, Value.num (.int o)) ∈ tool.fields o := List.mem_append_right _ List.mem_cons_self
  rw [pageOffset, lookup_eq_some_of_mem (tool.keyed o) hmem]

variable {tool o}

theorem PagedTool.lookup_list {l : FieldName × List ToolValue} (hl : l ∈ tool.lists) :
    (tool.fields o).lookup l.1 = some (.arr (pageRows l.2 o tool.limit)) :=
  lookup_eq_some_of_mem (tool.keyed o)
    (List.mem_append_left _ (List.mem_append_left _ (List.mem_map.mpr ⟨l, hl, rfl⟩)))

theorem PagedTool.list_of_longest {key : FieldName} {rows : List ToolValue}
    (h : longestList (tool.fields o) = some (key, rows)) :
    ∃ l ∈ tool.lists, l.1 = key ∧ rows = pageRows l.2 o tool.limit := by
  rcases List.mem_append.mp (longestList_mem h) with hm | hm
  · rcases List.mem_append.mp hm with hm | hm
    · obtain ⟨l, hl, heq⟩ := List.mem_map.mp hm
      cases heq
      exact ⟨l, hl, rfl, rfl⟩
    · have hlist : (key, rows) ∈ listFields (tool.others o) := List.mem_filterMap.mpr ⟨_, hm, rfl⟩
      rw [tool.others_plain o] at hlist
      cases hlist
  · cases List.mem_singleton.mp hm

theorem PagedTool.eq_of_name {l l' : FieldName × List ToolValue} (hl : l ∈ tool.lists) (hl' : l' ∈ tool.lists)
    (h : l.1 = l'.1) : l = l' :=
  List.inj_on_of_nodup_map ((List.nodup_append.mp (List.nodup_append.mp (tool.names 0)).1).1) hl hl' h

theorem length_pageRows_le (rows : List ToolValue) (o limit : Nat) : (pageRows rows o limit).length ≤ limit :=
  List.length_take_le _ _

/-- A page that keeps every row is larger with its markers than without. -/
theorem PagedTool.size_page_le {key : FieldName} {rows : List ToolValue} {n : Nat}
    (hrows : (tool.fields o).lookup key = some (.arr rows)) :
    resultSize (tool.page o) ≤ resultSize (.obj (buildFields (tool.fields o) key rows.length n rows)) := by
  have htrunc : nextOffsetName ∉
      (setField truncatedName (truncatedMark key n rows.length) (tool.fields o)).map Prod.fst := fun hm => by
    rcases mem_names_setField.mp hm with heq | hm
    · cases heq
    · exact tool.not_mem_of_marker o (by decide) hm
  have hne : tool.fields o ≠ [] := fun hnil => by
    rw [hnil] at hrows
    cases hrows
  rw [buildFields, setField_of_lookup hrows, tool.pageOffset_fields, markNextOffset, setField_of_not_mem htrunc,
    setField_of_not_mem (tool.not_mem_of_marker o (by decide)), PagedTool.page, resultSize, resultSize,
    size_obj toolFormat toolSep hne, size_obj toolFormat toolSep (List.append_ne_nil_of_right_ne_nil _ (List.cons_ne_nil _ _)),
    weights_append, weights_append]
  omega

end Pages

/-- A page leads on, and shows exactly the rows up to where the next one starts. -/
def PageShown (tool : PagedTool) (o : Nat) : Prop :=
  ∃ m : Nat, nextOffset (capResult (tool.page o)) tool.limit = some (m : Int) ∧ o < m ∧
    ∀ l ∈ tool.lists, rowsUnder (capResult (tool.page o)) l.1 = pageRows l.2 o (m - o)

/-- A page that fits; or else one row at least of its longest list fits, and no other list
has rows behind the ones that do. -/
def PageReads (tool : PagedTool) (o : Nat) : Prop :=
  resultSize (tool.page o) ≤ maxToolResultChars ∨
    ∃ key rows n, longestList (tool.fields o) = some (key, rows) ∧ RowsFit (tool.fields o) key rows n ∧ 0 < n ∧
      ∀ l ∈ tool.lists, l.1 ≠ key → l.2.length ≤ o + n

section Page

variable {tool : PagedTool} {o : Nat}

theorem pageShown_of_fits (h : resultSize (tool.page o) ≤ maxToolResultChars) : PageShown tool o := by
  have hout : capResult (tool.page o) = tool.page o := if_pos h
  refine ⟨o + tool.limit, ?_, Nat.lt_add_of_pos_right tool.limit_pos, fun l hl => ?_⟩
  · rw [hout, nextOffset, PagedTool.page, resultFields, tool.lookup_marker o (by decide), tool.pageOffset_fields]
    rfl
  · rw [hout, rowsUnder, PagedTool.page, resultFields, PagedTool.lookup_list hl, Nat.add_sub_cancel_left]

/-- What a page shows that was cut to `n` rows. -/
theorem rowsUnder_build {key : FieldName} {rows : List ToolValue} {n : Nat}
    (hlongest : longestList (tool.fields o) = some (key, rows)) (hn : n ≤ rows.length)
    {l : FieldName × List ToolValue} (hl : l ∈ tool.lists) :
    rowsUnder (.obj (buildFields (tool.fields o) key rows.length n (rows.take n))) l.1 =
      if l.1 = key then pageRows l.2 o n else pageRows l.2 o tool.limit := by
  have hlookup := PagedTool.lookup_list (o := o) hl
  have hmark : ∀ name ∈ [truncatedName, nextOffsetName], l.1 ≠ name := fun name hname heq => by
    rw [heq, tool.lookup_marker o hname] at hlookup
    cases hlookup
  rw [rowsUnder, resultFields, lookup_buildFields fun _ => hmark _ (by decide), if_neg (hmark _ (by decide))]
  by_cases hkey : l.1 = key
  · obtain ⟨l', hl', hname, rfl⟩ := PagedTool.list_of_longest hlongest
    obtain rfl := PagedTool.eq_of_name hl hl' (hkey.trans hname.symm)
    have hle : n ≤ tool.limit := Nat.le_trans hn (length_pageRows_le _ _ _)
    rw [if_pos hkey, if_pos hkey, pageRows, pageRows, List.take_take, Nat.min_eq_left hle]
  · rw [if_neg hkey, if_neg hkey, hlookup]

theorem nextOffset_build {key : FieldName} {count n limit : Nat} {kept : List ToolValue} :
    nextOffset (.obj (buildFields (tool.fields o) key count n kept)) limit = some ((o + n : Nat) : Int) := by
  rw [nextOffset, resultFields, lookup_buildFields_next (tool.pageOffset_fields o)]
  rfl

theorem pageRows_eq_of_le {rows : List ToolValue} {n limit : Nat} (h : rows.length ≤ o + n) (hn : n ≤ limit) :
    pageRows rows o limit = pageRows rows o n := by
  have hlen : (rows.drop o).length ≤ n := by
    rw [List.length_drop]
    omega
  rw [pageRows, pageRows, List.take_of_length_le hlen, List.take_of_length_le (Nat.le_trans hlen hn)]

theorem pageShown_of_reads (h : PageReads tool o) : PageShown tool o := by
  by_cases hfits : resultSize (tool.page o) ≤ maxToolResultChars
  · exact pageShown_of_fits hfits
  obtain ⟨key, rows, n, hlongest, hn, hpos, hothers⟩ := h.resolve_left hfits
  obtain ⟨l, hl, rfl, rfl⟩ := PagedTool.list_of_longest hlongest
  have hoffset : ∀ i ∈ pageOffset (tool.fields o), 0 ≤ i := by
    rw [tool.pageOffset_fields]
    intro i hi
    cases hi
    exact Int.natCast_nonneg o
  have hmarks : MarksFit (tool.fields o) l.1 (pageRows l.2 o tool.limit) n := by
    refine ⟨fun v hv => ?_, fun _ v _ hv => ?_, fun i hi hneg => absurd (hoffset i hi) (Int.not_le.mpr hneg)⟩
    · rw [tool.lookup_marker o (by decide)] at hv
      cases hv
    · rw [tool.lookup_marker o (by decide)] at hv
      cases hv
  have hkeyed := tool.keyed o
  have hempty : resultSize (.obj (buildFields (tool.fields o) l.1 (pageRows l.2 o tool.limit).length 0 [])) ≤
      maxToolResultChars := by
    have hwide := hn.fits hpos
    have hmono := markersSize_mono hoffset (Nat.zero_le (pageRows l.2 o tool.limit).length) l.1
      (pageRows l.2 o tool.limit).length
    rw [size_buildFields hkeyed] at hwide ⊢
    omega
  have hsize := hmarks.size_le hkeyed (PagedTool.lookup_list hl) hn hempty
  have hout : capResult (tool.page o) = _ :=
    (capResult_of_list (Nat.not_le.mp hfits) hlongest).trans (capList_of_fits hn hsize)
  have hle : n ≤ tool.limit := Nat.le_trans hn.le (length_pageRows_le _ _ _)
  rw [PageShown, hout]
  refine ⟨o + n, nextOffset_build, Nat.lt_add_of_pos_right hpos, fun l' hl' => ?_⟩
  rw [Nat.add_sub_cancel_left]
  refine (rowsUnder_build hlongest hn.le hl').trans ?_
  split
  · rfl
  · next hne => exact pageRows_eq_of_le (hothers l' hl' hne) hle

theorem reads_of_pageShown (h : PageShown tool o) : PageReads tool o := by
  by_cases hfits : resultSize (tool.page o) ≤ maxToolResultChars
  · exact .inl hfits
  obtain ⟨m, hnext, hlt, hrows⟩ := h
  rcases hlongest : longestList (tool.fields o) with _ | ⟨key, rows⟩
  · have hout : capResult (tool.page o) = resultTooLarge := by
      rw [capResult, if_neg hfits, PagedTool.page, resultFields, hlongest]
    rw [hout] at hnext
    cases hnext
  rw [capResult_of_list (Nat.not_le.mp hfits) hlongest] at hnext hrows
  obtain ⟨n, hn, heq⟩ := capList_eq (tool.fields o) key rows
  have heq : capList (resultFields (tool.page o)) key rows = _ := heq
  rw [heq] at hnext hrows
  split at hnext
  · next hsize =>
    rw [if_pos hsize] at hrows
    have hm : o + n = m := Int.ofNat.inj (Option.some.inj (nextOffset_build.symm.trans hnext))
    obtain ⟨l, hl, rfl, rfl⟩ := PagedTool.list_of_longest hlongest
    refine .inr ⟨l.1, _, n, hlongest, hn, by omega, fun l' hl' hne => ?_⟩
    have hshort : n < (pageRows l.2 o tool.limit).length := by
      refine Nat.lt_of_le_of_ne hn.le fun hall => hfits ?_
      rw [List.take_of_length_le (Nat.le_of_eq hall.symm)] at hsize
      exact Nat.le_trans (PagedTool.size_page_le (PagedTool.lookup_list hl)) hsize
    have hlimit := length_pageRows_le l.2 o tool.limit
    have hpage := (rowsUnder_build hlongest hn.le hl').symm.trans (hrows l' hl')
    rw [if_neg hne] at hpage
    have hlen := congrArg List.length hpage
    simp only [pageRows, List.length_take, List.length_drop] at hlen
    omega
  · cases hnext

theorem pageShown_iff : PageShown tool o ↔ PageReads tool o := ⟨reads_of_pageShown, pageShown_of_reads⟩

end Page

/-! ## The reader's run -/

/-- The reader is behind the last row of every list. -/
def Done (tool : PagedTool) (s : ToolReader) : Prop := ∀ l ∈ tool.lists, l.2.length ≤ s.offset

/-- The reader goes on while there are rows it has not seen. -/
def ReadStep (tool : PagedTool) (s s' : ToolReader) : Prop := ¬ Done tool s ∧ s.read tool = some s'

def Reached (tool : PagedTool) (s : ToolReader) : Prop := Relation.ReflTransGen (ReadStep tool) .start s

/-- The reader has always seen exactly the rows before its offset, it advances until it is
done, and it gets there. -/
structure ReadsAll (tool : PagedTool) : Prop where
  seen : ∀ s, Reached tool s → ∀ l ∈ tool.lists, s.seen l.1 = l.2.take s.offset
  advances : ∀ s, Reached tool s → ¬ Done tool s → ∃ s', s.read tool = some s' ∧ s.offset < s'.offset
  done : ∃ s, Reached tool s ∧ ∀ l ∈ tool.lists, s.seen l.1 = l.2

/-- Every page the reader asks for is one that reads. -/
def PagesRead (tool : PagedTool) : Prop := ∀ s, Reached tool s → ¬ Done tool s → PageReads tool s.offset

section Run

variable {tool : PagedTool} {s s' : ToolReader}

theorem read_eq_some (h : s.read tool = some s') : ∃ m, nextOffset (capResult (tool.page s.offset)) tool.limit = some m ∧
    s' = ⟨m.toNat, fun key => s.seen key ++ rowsUnder (capResult (tool.page s.offset)) key⟩ := by
  obtain ⟨m, hm, heq⟩ := Option.map_eq_some_iff.mp h
  exact ⟨m, hm, heq.symm⟩

/-- One page read: the offset moves on, and the rows in between are seen. -/
theorem read_of_shown (h : PageShown tool s.offset) : ∃ s', s.read tool = some s' ∧ s.offset < s'.offset ∧
    ∀ l ∈ tool.lists, s'.seen l.1 = s.seen l.1 ++ pageRows l.2 s.offset (s'.offset - s.offset) := by
  obtain ⟨m, hnext, hlt, hrows⟩ := h
  refine ⟨⟨m, fun key => s.seen key ++ rowsUnder (capResult (tool.page s.offset)) key⟩, ?_, hlt, fun l hl => ?_⟩
  · simp only [ToolReader.read, hnext, Option.map_some, Int.toNat_natCast]
  · exact congrArg (s.seen l.1 ++ ·) (hrows l hl)

theorem seen_step (h : PageReads tool s.offset) (hstep : s.read tool = some s')
    (hseen : ∀ l ∈ tool.lists, s.seen l.1 = l.2.take s.offset) :
    s.offset < s'.offset ∧ ∀ l ∈ tool.lists, s'.seen l.1 = l.2.take s'.offset := by
  obtain ⟨s'', hread, hlt, hrows⟩ := read_of_shown (pageShown_of_reads h)
  obtain rfl := Option.some.inj (hread.symm.trans hstep)
  refine ⟨hlt, fun l hl => ?_⟩
  rw [hrows l hl, hseen l hl, pageRows, ← List.take_add, Nat.add_sub_cancel' (Nat.le_of_lt hlt)]

theorem seen_of_reached (h : PagesRead tool) (hs : Reached tool s) :
    ∀ l ∈ tool.lists, s.seen l.1 = l.2.take s.offset := by
  induction hs with
  | refl => exact fun l _ => List.take_zero.symm
  | tail hs hstep ih => exact (seen_step (h _ hs hstep.1) hstep.2 ih).2

/-- The rows still ahead of the reader bound the pages it asks for. -/
theorem reaches_done (h : PagesRead tool) (hs : Reached tool s) : ∃ s, Reached tool s ∧ Done tool s := by
  induction hk : (tool.lists.map (fun l => l.2.length)).sum - s.offset using Nat.strong_induction_on generalizing s with
  | _ k ih =>
    by_cases hdone : Done tool s
    · exact ⟨s, hs, hdone⟩
    obtain ⟨s', hread, hlt, -⟩ := read_of_shown (pageShown_of_reads (h s hs hdone))
    obtain ⟨l, hl, hahead⟩ : ∃ l ∈ tool.lists, s.offset < l.2.length := by
      rw [Done] at hdone
      push Not at hdone
      exact hdone
    have hsum : l.2.length ≤ (tool.lists.map (fun l => l.2.length)).sum :=
      List.single_le_sum (fun _ _ => Nat.zero_le _) _ (List.mem_map.mpr ⟨l, hl, rfl⟩)
    exact ih _ (by omega) (hs.tail ⟨hdone, hread⟩) rfl

theorem readsAll_of_pagesRead (h : PagesRead tool) : ReadsAll tool := by
  refine ⟨fun s hs => seen_of_reached h hs, fun s hs hdone => ?_, ?_⟩
  · obtain ⟨s', hread, hlt, -⟩ := read_of_shown (pageShown_of_reads (h s hs hdone))
    exact ⟨s', hread, hlt⟩
  · obtain ⟨s, hs, hdone⟩ := reaches_done h .refl
    refine ⟨s, hs, fun l hl => ?_⟩
    rw [seen_of_reached h hs l hl, List.take_of_length_le (hdone l hl)]

theorem pagesRead_of_readsAll (h : ReadsAll tool) : PagesRead tool := by
  intro s hs hdone
  refine pageShown_iff.mp ?_
  obtain ⟨s', hread, hlt⟩ := h.advances s hs hdone
  have hseen' := h.seen s' (hs.tail ⟨hdone, hread⟩)
  obtain ⟨m, hnext, rfl⟩ := read_eq_some hread
  refine ⟨m.toNat, ?_, hlt, fun l hl => ?_⟩
  · have hm : (m.toNat : Int) = m := Int.toNat_of_nonneg (by simp only at hlt; omega)
    rw [hm]
    exact hnext
  · have hl' := hseen' l hl
    have hcut : l.2.take m.toNat = l.2.take s.offset ++ pageRows l.2 s.offset (m.toNat - s.offset) := by
      rw [pageRows, ← List.take_add, Nat.add_sub_cancel' (Nat.le_of_lt hlt)]
    simp only [h.seen s hs l hl, hcut] at hl'
    exact List.append_cancel_left hl'

end Run

/-- **A result is capped as promised exactly when its markers take no other field's place
and fit, and a reader sees every row once exactly when one row at least of every page it
asks for fits, and no other list of that page has more rows.** -/
theorem tool_results_capped_iff (result : ToolResult) (tool : PagedTool) :
    (Capped result.value (capResult result.value) ↔ CapsRight result.value) ∧ (ReadsAll tool ↔ PagesRead tool) :=
  ⟨⟨capsRight_of_capped result, capped_of_capsRight result⟩, ⟨pagesRead_of_readsAll, readsAll_of_pagesRead⟩⟩

/-! ## A row that leaves no room -/

def longRow : ToolValue := .str (List.replicate maxToolResultChars 'a')

/-- A tool with one row. -/
def longRowTool : PagedTool where
  lists := [(itemsName, [longRow])]
  others _ := []
  limit := 50
  limit_pos := by decide
  others_plain _ := rfl
  names _ := by decide

theorem resultSize_longRow : maxToolResultChars < resultSize longRow := by
  have hescape : escapeControl 'a' = ['a'] := by decide
  have hsize : resultSize longRow = (quote toolFormat (List.replicate maxToolResultChars 'a')).length := rfl
  have hraw : (List.replicate maxToolResultChars 'a').flatMap escapeControl = List.replicate maxToolResultChars 'a' := by
    rw [List.flatMap_replicate, hescape, List.flatten_replicate_singleton]
  rw [hsize, quote, toolFormat, hraw, List.length_cons, List.length_append, List.length_replicate]
  omega

/-- Its page is cut to no rows, and the reader is sent back to where it is. -/
theorem longRowTool_stuck : ¬ PageReads longRowTool 0 := by
  have hrow := resultSize_longRow
  have hpage : pageRows [longRow] 0 50 = [longRow] := rfl
  rintro (hfits | ⟨key, rows, n, hlongest, hn, hpos, -⟩)
  · have hsize : resultSize (longRowTool.page 0) = weights toolFormat (longRowTool.fields 0) :=
      size_obj toolFormat toolSep (List.cons_ne_nil _ _)
    have hfields : longRowTool.fields 0 = [(itemsName, .arr [longRow]), (offsetName, .num (.int (0 : Nat)))] := rfl
    have hweights (row : ToolValue) :
        resultSize row ≤ weights toolFormat [(itemsName, .arr [row]), (offsetName, .num (.int (0 : Nat)))] := by
      simp only [weights, List.map_cons, List.sum_cons, Json.weight, size_arr, rowsSize, resultSize]
      omega
    rw [hsize, hfields] at hfits
    exact absurd (hrow.trans_le (hweights longRow)) (Nat.not_lt.mpr hfits)
  · obtain ⟨l, hl, rfl, rfl⟩ := PagedTool.list_of_longest hlongest
    obtain rfl := List.mem_singleton.mp hl
    have hfits : rowsSize toolFormat ((pageRows [longRow] 0 longRowTool.limit).take n) + _ ≤ maxToolResultChars :=
      hn.fits hpos
    have hone : rowsSize toolFormat ((pageRows [longRow] 0 longRowTool.limit).take 1) ≤
        rowsSize toolFormat ((pageRows [longRow] 0 longRowTool.limit).take n) := rowsSize_take_mono hpos
    have hfirst : rowsSize toolFormat ((pageRows [longRow] 0 longRowTool.limit).take 1) = resultSize longRow := rfl
    omega

theorem longRowTool_not_read :
    ¬ ((∀ result : ToolResult, Capped result.value (capResult result.value)) ∧ ∀ tool : PagedTool, ReadsAll tool) := by
  rintro ⟨-, hreads⟩
  refine longRowTool_stuck (pagesRead_of_readsAll (hreads longRowTool) .start .refl fun hdone => ?_)
  have hlen := hdone _ List.mem_cons_self
  exact Nat.not_succ_le_zero 0 hlen

end BetterDecision
