import Mathlib.Data.PNat.Basic
import Mathlib.Algebra.BigOperators.Group.List.Lemmas
import BetterDecision.Model.ReportBreakdown

/-!
# A break-down and the totals of its bars

The pivot has every amount once (`pivot_bar`), the cap keeps whole bars, and fold, order and
colours only regroup slices. What can be lost is a slice that comes to nothing over all kept
bars while it is something in one: `breakdown_right_iff` says when none is.
-/

namespace BetterDecision

open InOrder

/-! ## The pivot -/

section Pivot

variable (J : JsNumbers ℚ) (primaryKey secondaryKey : Dimension) (queryRows : List (QueryRow ℚ))

def secondaries : List JsString := firstKeys (readLabel J · secondaryKey) queryRows

/-- The number of a row's secondary value. -/
def numberOf (row : QueryRow ℚ) : Nat := (secondaries J secondaryKey queryRows).idxOf (readLabel J row secondaryKey)

/-- What a bar comes to. -/
def labelTotal (label : JsString) : ℚ :=
  ((queryRows.filter (fun row => readLabel J row primaryKey = label)).map fun row => readNumber J row.value).sum

/-- What a secondary value comes to in a bar. -/
def cellTotal (label secondary : JsString) : ℚ :=
  (((queryRows.filter (fun row => readLabel J row primaryKey = label)).filter
    (fun row => readLabel J row secondaryKey = secondary)).map fun row => readNumber J row.value).sum

variable {J primaryKey secondaryKey queryRows}

theorem pivot_concat (row : QueryRow ℚ) : pivotBySecondaryDimension J primaryKey secondaryKey (queryRows ++ [row]) =
    pivotRow J primaryKey secondaryKey (pivotBySecondaryDimension J primaryKey secondaryKey queryRows) row := by
  rw [pivotBySecondaryDimension, List.foldl_append]
  rfl

theorem pivot_secondaryValues :
    (pivotBySecondaryDimension J primaryKey secondaryKey queryRows).secondaryValues = secondaries J secondaryKey queryRows := by
  induction queryRows using List.reverseRecOn with
  | nil => rfl
  | append_singleton rows row ih =>
    rw [pivot_concat, secondaries, firstKeys_concat, ← secondaries, ← ih]
    rfl

theorem mem_secondaries {row : QueryRow ℚ} (h : row ∈ queryRows) :
    readLabel J row secondaryKey ∈ secondaries J secondaryKey queryRows := mem_firstKeys.mpr ⟨row, h, rfl⟩

theorem addKey_prefix {keys : List JsString} {k : JsString} : keys <+: addKey keys k := by
  rw [addKey]
  split
  · exact List.prefix_rfl
  · exact List.prefix_append keys [k]

/-- A secondary value has its number for good. -/
theorem idxOf_of_prefix {keys more : List JsString} (h : keys <+: more) {k : JsString} (hk : k ∈ keys) :
    more.idxOf k = keys.idxOf k := by
  obtain ⟨rest, rfl⟩ := h
  exact List.idxOf_append_of_mem hk

/-- The rows of the pivot, numbered at the end. -/
theorem pivot_rows {numbers : List JsString} (h : secondaries J secondaryKey queryRows <+: numbers) :
    (pivotBySecondaryDimension J primaryKey secondaryKey queryRows).rows =
      fill (readLabel J · primaryKey) (fun row existing =>
        addCell (.s (numbers.idxOf (readLabel J row secondaryKey))) (readNumber J row.value)
          (existing.getD ⟨readLabel J row primaryKey, fun _ => 0⟩)) queryRows := by
  induction queryRows using List.reverseRecOn with
  | nil => rfl
  | append_singleton rows row ih =>
    have hlast : secondaries J secondaryKey (rows ++ [row]) =
        addKey (secondaries J secondaryKey rows) (readLabel J row secondaryKey) := firstKeys_concat row
    have hnumber : numbers.idxOf (readLabel J row secondaryKey) =
        (secondaries J secondaryKey (rows ++ [row])).idxOf (readLabel J row secondaryKey) :=
      idxOf_of_prefix h (mem_secondaries (List.mem_append_right _ List.mem_cons_self))
    rw [pivot_concat, fill_concat, ← ih ((hlast ▸ addKey_prefix).trans h), hnumber, hlast, ← pivot_secondaryValues]
    rfl

theorem foldl_addCell {key : QueryRow ℚ → SeriesKey} {base : QueryRow ℚ → BreakdownRow} (es : List (QueryRow ℚ))
    (row : BreakdownRow) :
    es.foldl (fun o e => some (addCell (key e) (readNumber J e.value) (o.getD (base e)))) (some row) =
      some ⟨row.label, fun k => row.numeric k + ((es.filter (fun e => key e = k)).map fun e => readNumber J e.value).sum⟩ := by
  induction es using List.reverseRecOn with
  | nil => simp
  | append_singleton es e ih =>
    rw [List.foldl_append, ih, List.foldl_cons, List.foldl_nil]
    refine congrArg some (congrArg (BreakdownRow.mk row.label) (funext fun k => ?_))
    simp only [Option.getD_some]
    rw [List.filter_append, List.map_append, List.sum_append]
    by_cases hk : key e = k
    · rw [if_pos hk.symm, List.filter_cons_of_pos (by simpa using hk)]
      simp [add_assoc]
    · rw [if_neg (Ne.symm hk), List.filter_cons_of_neg (by simpa using hk)]
      simp

/-- **A bar of the pivot has every amount of its label, under its secondary value's number.** -/
theorem pivot_bar {label : JsString} {bar : BreakdownRow}
    (h : (label, bar) ∈ (pivotBySecondaryDimension J primaryKey secondaryKey queryRows).rows) :
    bar.label = label ∧ (∃ row ∈ queryRows, readLabel J row primaryKey = label) ∧ ∀ i, bar.numeric (.s i) =
      (((queryRows.filter (fun row => readLabel J row primaryKey = label)).filter
        (fun row => numberOf J secondaryKey queryRows row = i)).map fun row => readNumber J row.value).sum := by
  rw [pivot_rows List.prefix_rfl] at h
  have hlookup := lookup_eq_some_of_mem keyed_fill h
  rw [lookup_fill] at hlookup
  rcases hrows : queryRows.filter (fun row => readLabel J row primaryKey = label) with _ | ⟨first, rest⟩
  · rw [hrows] at hlookup
    cases hlookup
  have hfirst : first ∈ queryRows.filter (fun row => readLabel J row primaryKey = label) := hrows ▸ List.mem_cons_self
  obtain ⟨hmem, hlabel⟩ := List.mem_filter.mp hfirst
  have hlabel := of_decide_eq_true hlabel
  rw [hrows, List.foldl_cons, foldl_addCell] at hlookup
  obtain rfl := Option.some.inj hlookup
  refine ⟨hlabel, ⟨first, hmem, hlabel⟩, fun i => ?_⟩
  have hkey : ∀ e : QueryRow ℚ, SeriesKey.s ((secondaries J secondaryKey queryRows).idxOf (readLabel J e secondaryKey)) = .s i ↔
      numberOf J secondaryKey queryRows e = i := fun e => by rw [numberOf, SeriesKey.s.injEq]
  simp only [addCell, Option.getD_none, hkey, eq_comm (a := SeriesKey.s i)]
  by_cases hi : numberOf J secondaryKey queryRows first = i
  · rw [if_pos hi, List.filter_cons_of_pos (by simpa using hi), List.map_cons, List.sum_cons, zero_add]
  · rw [if_neg hi, List.filter_cons_of_neg (by simpa using hi), zero_add]

theorem keyed_pivot : Keyed Prod.fst (pivotBySecondaryDimension J primaryKey secondaryKey queryRows).rows := by
  rw [pivot_rows List.prefix_rfl]
  exact keyed_fill

theorem mem_pivot_of_row {row : QueryRow ℚ} (h : row ∈ queryRows) :
    ∃ bar, (readLabel J row primaryKey, bar) ∈ (pivotBySecondaryDimension J primaryKey secondaryKey queryRows).rows := by
  have hkey : readLabel J row primaryKey ∈
      (pivotBySecondaryDimension J primaryKey secondaryKey queryRows).rows.map Prod.fst := by
    rw [pivot_rows List.prefix_rfl, keys_fill, mem_firstKeys]
    exact ⟨row, h, rfl⟩
  obtain ⟨⟨label, bar⟩, hmem, hlabel⟩ := List.mem_map.mp hkey
  exact ⟨bar, hlabel ▸ hmem⟩

variable (J primaryKey secondaryKey queryRows) in
/-- The bars of the pivot. -/
def pivotBars : List BreakdownRow := (pivotBySecondaryDimension J primaryKey secondaryKey queryRows).rows.map Prod.snd

theorem pivotBars_labels :
    (pivotBars J primaryKey secondaryKey queryRows).map (·.label) = firstKeys (readLabel J · primaryKey) queryRows := by
  have hkeys : (pivotBySecondaryDimension J primaryKey secondaryKey queryRows).rows.map Prod.fst =
      firstKeys (readLabel J · primaryKey) queryRows := by
    rw [pivot_rows List.prefix_rfl, keys_fill]
  rw [pivotBars, List.map_map, ← hkeys]
  refine List.map_congr_left fun p hp => ?_
  obtain ⟨label, bar⟩ := p
  exact (pivot_bar hp).1

/-- The number of a secondary value stands for it. -/
theorem bar_cell {bar : BreakdownRow} (h : bar ∈ pivotBars J primaryKey secondaryKey queryRows) {i : Nat}
    {secondary : JsString} (hi : (secondaries J secondaryKey queryRows)[i]? = some secondary) :
    bar.numeric (.s i) = cellTotal J primaryKey secondaryKey queryRows bar.label secondary := by
  obtain ⟨⟨label, bar⟩, hmem, rfl⟩ := List.mem_map.mp h
  obtain ⟨rfl, -, hcells⟩ := pivot_bar hmem
  rw [hcells, cellTotal]
  congr 2
  refine List.filter_congr fun row hrow => decide_eq_decide.mpr ?_
  have hin := @mem_secondaries J secondaryKey queryRows row (List.mem_of_mem_filter hrow)
  obtain ⟨hlt, hget⟩ := List.getElem?_eq_some_iff.mp hi
  constructor
  · intro hnumber
    have hat := List.getElem_idxOf (List.idxOf_lt_length_of_mem hin)
    rw [← hat, ← hget]
    congr 1
  · rintro rfl
    rw [numberOf, ← hget]
    exact nodup_firstKeys.idxOf_getElem i hlt

/-- **All of a bar's cells come to its label's total.** -/
theorem rowTotal_bar {bar : BreakdownRow} (h : bar ∈ pivotBars J primaryKey secondaryKey queryRows) :
    rowTotal bar (seriesKeysOf (secondaries J secondaryKey queryRows)) = labelTotal J primaryKey queryRows bar.label := by
  obtain ⟨⟨label, bar⟩, hmem, rfl⟩ := List.mem_map.mp h
  obtain ⟨rfl, -, hcells⟩ := pivot_bar hmem
  rw [rowTotal, seriesKeysOf, List.map_map]
  have hmap : (List.range (secondaries J secondaryKey queryRows).length).map (bar.numeric ∘ .s) =
      (List.range (secondaries J secondaryKey queryRows).length).map fun i =>
        (((queryRows.filter (fun row => readLabel J row primaryKey = bar.label)).filter
          (fun row => numberOf J secondaryKey queryRows row = i)).map fun row => readNumber J row.value).sum :=
    List.map_congr_left fun i _ => hcells i
  rw [hmap]
  exact sum_by_key _ List.nodup_range fun row hrow =>
    List.mem_range.mpr (List.idxOf_lt_length_of_mem (mem_secondaries (List.mem_of_mem_filter hrow)))

end Pivot

/-! ## The bars that are kept -/

section Kept

/-- Bars cut in two: those that are kept and the others. -/
structure CutAt (cap : Nat) (bars kept dropped : List BreakdownRow) : Prop where
  perm : (kept ++ dropped).Perm bars
  length : kept.length = min cap bars.length

/-- The head of the bars in an order: no dropped one is strictly before a kept one. -/
theorem cutAt_take (cap : Nat) (bars : List BreakdownRow) {le : BreakdownRow → BreakdownRow → Bool}
    (htrans : ∀ a b c, le a b = true → le b c = true → le a c = true) (htotal : ∀ a b, (le a b || le b a) = true) :
    ∃ dropped, CutAt cap bars ((bars.mergeSort le).take cap) dropped ∧
      ∀ k ∈ (bars.mergeSort le).take cap, ∀ d ∈ dropped, le k d = true := by
  refine ⟨(bars.mergeSort le).drop cap, ⟨?_, ?_⟩, ?_⟩
  · rw [List.take_append_drop]
    exact List.mergeSort_perm bars le
  · rw [List.length_take, List.length_mergeSort]
  · have hsorted := List.pairwise_mergeSort htrans htotal bars
    rw [← List.take_append_drop cap (bars.mergeSort le)] at hsorted
    exact (List.pairwise_append.mp hsorted).2.2

/-- The tail of the bars in an order: no dropped one is strictly behind a kept one. -/
theorem cutAt_lastOf {cap : Nat} (hcap : 0 < cap) {bars : List BreakdownRow} {le : BreakdownRow → BreakdownRow → Bool}
    (htrans : ∀ a b c, le a b = true → le b c = true → le a c = true) (htotal : ∀ a b, (le a b || le b a) = true) :
    ∃ dropped, CutAt cap bars (lastOf cap (bars.mergeSort le)) dropped ∧
      ∀ k ∈ lastOf cap (bars.mergeSort le), ∀ d ∈ dropped, le d k = true := by
  have hlast : lastOf cap (bars.mergeSort le) = (bars.mergeSort le).drop (bars.length - cap) := by
    rw [lastOf, if_neg (Nat.ne_of_gt hcap), List.length_mergeSort]
  rw [hlast]
  refine ⟨(bars.mergeSort le).take (bars.length - cap), ⟨?_, ?_⟩, ?_⟩
  · refine List.perm_append_comm.trans ?_
    rw [List.take_append_drop]
    exact List.mergeSort_perm bars le
  · rw [List.length_drop, List.length_mergeSort]
    omega
  · have hsorted := List.pairwise_mergeSort htrans htotal bars
    rw [← List.take_append_drop (bars.length - cap) (bars.mergeSort le)] at hsorted
    exact fun k hk d hd => (List.pairwise_append.mp hsorted).2.2 d hd k hk

/-- A total that stands better than another: greater, unless the sort is ascending. -/
def Better (sort : Option SortSpec) (x y : ℚ) : Prop := if sort.map (·.dir) = some .asc then x < y else y < x

variable {C : Collation} {bars : List BreakdownRow} {keys : List SeriesKey} {primaryKey : Dimension} {cap : Nat}
  {sort : Option SortSpec}

theorem cap_cuts (hcap : 0 < cap) : ∃ dropped, CutAt cap bars (capPrimaryBuckets C bars keys primaryKey cap sort) dropped ∧
    ∀ k ∈ capPrimaryBuckets C bars keys primaryKey cap sort, ∀ d ∈ dropped,
      if isTimeDimension primaryKey then C.le d.label k.label = true
      else sort.map (·.column) ≠ some .dimension → ¬ Better sort (rowTotal d keys) (rowTotal k keys) := by
  rw [capPrimaryBuckets]
  split
  · exact cutAt_lastOf hcap (fun a b c => C.trans _ _ _) fun a b => C.total _ _
  split
  · next hdimension =>
    refine ⟨bars.drop cap, ⟨?_, List.length_take⟩, fun _ _ _ _ hne => absurd hdimension hne⟩
    rw [List.take_append_drop]
  split
  · next hasc =>
    obtain ⟨dropped, hcut, hle⟩ := @cutAt_take cap bars
      (fun a b => rowTotal a keys ≤ rowTotal b keys)
      (fun a b c hab hbc => by simp only [decide_eq_true_eq] at *; exact hab.trans hbc)
      (fun a b => by simp only [Bool.or_eq_true, decide_eq_true_eq]; exact le_total _ _)
    refine ⟨dropped, hcut, fun k hk d hd _ => ?_⟩
    rw [Better, if_pos hasc]
    exact not_lt.mpr (of_decide_eq_true (hle k hk d hd))
  · next hasc =>
    obtain ⟨dropped, hcut, hle⟩ := @cutAt_take cap bars
      (fun a b => rowTotal b keys ≤ rowTotal a keys)
      (fun a b c hab hbc => by simp only [decide_eq_true_eq] at *; exact hbc.trans hab)
      (fun a b => by simp only [Bool.or_eq_true, decide_eq_true_eq]; exact le_total _ _)
    refine ⟨dropped, hcut, fun k hk d hd _ => ?_⟩
    rw [Better, if_neg hasc]
    exact not_lt.mpr (of_decide_eq_true (hle k hk d hd))

end Kept

/-! ## The slices -/

section Slices

variable (J : JsNumbers ℚ) (primaryKey secondaryKey : Dimension) (queryRows : List (QueryRow ℚ))

/-- What a secondary value comes to over these bars. -/
def comesTo (kept : List BreakdownRow) (secondary : JsString) : ℚ :=
  (kept.map fun bar => cellTotal J primaryKey secondaryKey queryRows bar.label secondary).sum

/-- The secondary values that come to something over the bars that are kept. -/
def inPlay (kept : List BreakdownRow) : List JsString :=
  (secondaries J secondaryKey queryRows).filter (fun s => comesTo J primaryKey secondaryKey queryRows kept s ≠ 0)

/-- Those that come to nothing. -/
def outOfPlay (kept : List BreakdownRow) : List JsString :=
  (secondaries J secondaryKey queryRows).filter (fun s => comesTo J primaryKey secondaryKey queryRows kept s = 0)

variable {J primaryKey secondaryKey queryRows} {kept : List BreakdownRow}

/-- The slices of the kept bars. -/
def slicesOf (J : JsNumbers ℚ) (primaryKey secondaryKey : Dimension) (queryRows : List (QueryRow ℚ))
    (kept : List BreakdownRow) : List Slice :=
  liveSlices (pivotBySecondaryDimension J primaryKey secondaryKey queryRows) kept

theorem slicesOf_eq : slicesOf J primaryKey secondaryKey queryRows kept =
    ((secondaries J secondaryKey queryRows).zipIdx.map fun p =>
      ({ label := p.1, key := .s p.2, total := (kept.map (·.numeric (.s p.2))).sum } : Slice)).filter (·.total ≠ 0) := by
  rw [slicesOf, liveSlices, pivot_secondaryValues]

theorem mem_slicesOf {s : Slice} (h : s ∈ slicesOf J primaryKey secondaryKey queryRows kept) :
    ∃ i, s.key = .s i ∧ (secondaries J secondaryKey queryRows)[i]? = some s.label := by
  rw [slicesOf_eq] at h
  obtain ⟨p, hp, rfl⟩ := List.mem_map.mp (List.mem_of_mem_filter h)
  exact ⟨p.2, rfl, List.mem_zipIdx_iff_getElem?.mp hp⟩

theorem keys_slicesOf_nodup : ((slicesOf J primaryKey secondaryKey queryRows kept).map (·.key)).Nodup := by
  have hall : (((secondaries J secondaryKey queryRows).zipIdx.map fun p =>
      ({ label := p.1, key := .s p.2, total := (kept.map (·.numeric (.s p.2))).sum } : Slice)).map (·.key)).Nodup := by
    rw [List.map_map]
    have hnumbers : ((secondaries J secondaryKey queryRows).zipIdx.map Prod.snd).Nodup := by
      rw [List.zipIdx_map_snd]
      exact List.nodup_range'
    have hkeys := hnumbers.map (f := SeriesKey.s) fun i j h => SeriesKey.s.inj h
    rw [List.map_map] at hkeys
    exact hkeys
  rw [slicesOf_eq]
  exact hall.sublist (List.filter_sublist.map _)

variable (hkept : ∀ bar ∈ kept, bar ∈ pivotBars J primaryKey secondaryKey queryRows)

include hkept

/-- A slice is in play by what its secondary value comes to. -/
theorem labels_slicesOf : (slicesOf J primaryKey secondaryKey queryRows kept).map (·.label) =
    inPlay J primaryKey secondaryKey queryRows kept := by
  have htest : ∀ p ∈ (secondaries J secondaryKey queryRows).zipIdx, (kept.map (·.numeric (.s p.2))).sum =
      comesTo J primaryKey secondaryKey queryRows kept p.1 := by
    intro p hp
    rw [comesTo]
    exact congrArg List.sum (List.map_congr_left fun bar hbar =>
      bar_cell (hkept bar hbar) (List.mem_zipIdx_iff_getElem?.mp hp))
  rw [slicesOf_eq, List.filter_map, List.map_map, inPlay]
  conv_rhs => rw [← List.zipIdx_map_fst 0 (secondaries J secondaryKey queryRows), List.filter_map]
  have hfilter : (secondaries J secondaryKey queryRows).zipIdx.filter
      ((fun s : Slice => decide (s.total ≠ 0)) ∘ fun p =>
        { label := p.1, key := .s p.2, total := (kept.map (·.numeric (.s p.2))).sum }) =
      (secondaries J secondaryKey queryRows).zipIdx.filter
        ((fun s => decide (comesTo J primaryKey secondaryKey queryRows kept s ≠ 0)) ∘ Prod.fst) :=
    List.filter_congr fun p hp => by simp only [Function.comp_apply, htest p hp]
  rw [hfilter]
  rfl

/-- What a kept bar's slices come to. -/
theorem sum_slicesOf {bar : BreakdownRow} (hbar : bar ∈ kept) :
    ((slicesOf J primaryKey secondaryKey queryRows kept).map fun s => bar.numeric s.key).sum =
      ((inPlay J primaryKey secondaryKey queryRows kept).map
        (cellTotal J primaryKey secondaryKey queryRows bar.label)).sum := by
  rw [← labels_slicesOf hkept, List.map_map]
  refine congrArg List.sum (List.map_congr_left fun s hs => ?_)
  obtain ⟨i, hkey, hi⟩ := mem_slicesOf hs
  rw [hkey]
  exact bar_cell (hkept bar hbar) hi

omit hkept in
/-- In play or not, the cells of a bar come to its total. -/
theorem inPlay_add_outOfPlay (label : JsString) :
    ((inPlay J primaryKey secondaryKey queryRows kept).map (cellTotal J primaryKey secondaryKey queryRows label)).sum +
      ((outOfPlay J primaryKey secondaryKey queryRows kept).map
        (cellTotal J primaryKey secondaryKey queryRows label)).sum = labelTotal J primaryKey queryRows label := by
  have hsplit : (inPlay J primaryKey secondaryKey queryRows kept ++ outOfPlay J primaryKey secondaryKey queryRows kept).Perm
      (secondaries J secondaryKey queryRows) := by
    have hout : outOfPlay J primaryKey secondaryKey queryRows kept = (secondaries J secondaryKey queryRows).filter
        (fun s => !decide (comesTo J primaryKey secondaryKey queryRows kept s ≠ 0)) :=
      List.filter_congr fun s _ => by simp
    rw [hout]
    exact List.filter_append_perm _ _
  rw [← List.sum_append, ← List.map_append, (hsplit.map _).sum_eq]
  exact sum_by_key _ nodup_firstKeys fun row hrow => mem_secondaries (List.mem_of_mem_filter hrow)

end Slices

/-! ## Fold and order -/

section Fold

variable {C : Collation} {slices : List Slice} {bar : BreakdownRow}

theorem byLabel_perm : (byLabel C slices).Perm slices := List.mergeSort_perm _ _

theorem byTotalDesc_perm : (byTotalDesc slices).Perm slices := List.mergeSort_perm _ _

theorem foldTail_s (tail : List Slice) (i : Nat) : (foldTail tail bar).numeric (.s i) = bar.numeric (.s i) := by
  simp [foldTail]

theorem foldTail_other (tail : List Slice) :
    (foldTail tail bar).numeric .other = (tail.map fun s => bar.numeric s.key).sum := by
  simp [foldTail]

/-- A folded bar's slices are as they were, and the rest is the tail. -/
theorem sum_folded (hslices : ∀ s ∈ slices, ∃ i, s.key = .s i) (n : Nat) :
    (((byLabel C ((byTotalDesc slices).take n)).map (·.key) ++ [SeriesKey.other]).map
      (foldTail ((byTotalDesc slices).drop n) bar).numeric).sum = (slices.map fun s => bar.numeric s.key).sum := by
  have hhead : ((byLabel C ((byTotalDesc slices).take n)).map (·.key)).map
      (foldTail ((byTotalDesc slices).drop n) bar).numeric =
      (byLabel C ((byTotalDesc slices).take n)).map fun s => bar.numeric s.key := by
    rw [List.map_map]
    refine List.map_congr_left fun s hs => ?_
    obtain ⟨i, hi⟩ := hslices s (byTotalDesc_perm.subset (List.mem_of_mem_take (byLabel_perm.subset hs)))
    rw [Function.comp_apply, hi, foldTail_s]
  rw [List.map_append, List.sum_append, hhead, List.map_singleton, List.sum_singleton, foldTail_other,
    (byLabel_perm.map _).sum_eq, ← List.sum_append, ← List.map_append, List.take_append_drop,
    (byTotalDesc_perm.map _).sum_eq]

theorem sum_csv (hslices : ∀ s ∈ slices, ∃ i, s.key = .s i) (tail : List Slice) :
    (((byLabel C slices).map (·.key)).map (foldTail tail bar).numeric).sum = (slices.map fun s => bar.numeric s.key).sum := by
  rw [List.map_map, (byLabel_perm.map _).sum_eq]
  refine congrArg List.sum (List.map_congr_left fun s hs => ?_)
  obtain ⟨i, hi⟩ := hslices s hs
  rw [Function.comp_apply, hi, foldTail_s]

end Fold

/-! ## The break-down -/

section Breakdown

variable (J : JsNumbers ℚ) (C : Collation) (queryRows : List (QueryRow ℚ)) (primaryKey secondaryKey : Dimension)
  (limit : Option ℕ+) (sort : Option SortSpec)

/-- The number of bars that are kept at most. -/
def barCap (limit : Option ℕ+) : Nat := (limit.map PNat.val).getD defaultPrimaryCap

/-- The break-down of a query. -/
def breakdownOf : Breakdown := buildBreakdown J C queryRows primaryKey secondaryKey (limit.map PNat.val) sort

/-- The bars the cap keeps. -/
def keptBars : List BreakdownRow :=
  capPrimaryBuckets C (pivotBars J primaryKey secondaryKey queryRows)
    (seriesKeysOf (secondaries J secondaryKey queryRows)) primaryKey (barCap limit) sort

/-- What a break-down promises of its query. -/
structure BreakdownRight (out : Breakdown) : Prop where
  count : out.rows.length = min (barCap limit) (firstKeys (readLabel J · primaryKey) queryRows).length
  labels : (out.rows.map (·.label)).Nodup ∧ ∀ bar ∈ out.rows, ∃ row ∈ queryRows, readLabel J row primaryKey = bar.label
  totals : ∀ bar ∈ out.rows, (out.seriesKeys.map bar.numeric).sum = labelTotal J primaryKey queryRows bar.label
  csvTotals : ∀ bar ∈ out.rows, (out.csvKeys.map bar.numeric).sum = labelTotal J primaryKey queryRows bar.label
  colours : out.seriesKeys.length ≤ chartSeries.length
  keys : out.seriesKeys.Nodup
  otherLast : .other ∈ out.seriesKeys → out.seriesKeys.getLast? = some .other
  otherWhen : .other ∈ out.seriesKeys ↔
    chartSeries.length < (inPlay J primaryKey secondaryKey queryRows out.rows).length
  recent : isTimeDimension primaryKey = true → ∀ day : JsString → Int,
    (∀ row ∈ queryRows, ∀ row' ∈ queryRows,
      C.le (readLabel J row primaryKey) (readLabel J row' primaryKey) = true ↔
        day (readLabel J row primaryKey) ≤ day (readLabel J row' primaryKey)) →
    ∀ bar ∈ out.rows, ∀ row ∈ queryRows, readLabel J row primaryKey ∉ out.rows.map (·.label) →
      day (readLabel J row primaryKey) ≤ day bar.label
  best : isTimeDimension primaryKey = false → sort.map (·.column) ≠ some .dimension →
    ∀ bar ∈ out.rows, ∀ row ∈ queryRows, readLabel J row primaryKey ∉ out.rows.map (·.label) →
      ¬ Better sort (labelTotal J primaryKey queryRows (readLabel J row primaryKey))
        (labelTotal J primaryKey queryRows bar.label)

/-- In every bar that is kept, the secondary values that come to nothing over all of them
come to nothing. -/
def NothingCancels : Prop :=
  ∀ bar ∈ keptBars J C queryRows primaryKey secondaryKey limit sort,
    ((outOfPlay J primaryKey secondaryKey queryRows (keptBars J C queryRows primaryKey secondaryKey limit sort)).map
      (cellTotal J primaryKey secondaryKey queryRows bar.label)).sum = 0

variable {J C queryRows primaryKey secondaryKey limit sort}

theorem barCap_pos : 0 < barCap limit := by
  cases limit with
  | none => decide
  | some cap => exact cap.pos

theorem keptBars_cut : ∃ dropped,
    CutAt (barCap limit) (pivotBars J primaryKey secondaryKey queryRows)
      (keptBars J C queryRows primaryKey secondaryKey limit sort) dropped ∧
    ∀ k ∈ keptBars J C queryRows primaryKey secondaryKey limit sort, ∀ d ∈ dropped,
      if isTimeDimension primaryKey then C.le d.label k.label = true
      else sort.map (·.column) ≠ some .dimension →
        ¬ Better sort (rowTotal d (seriesKeysOf (secondaries J secondaryKey queryRows)))
          (rowTotal k (seriesKeysOf (secondaries J secondaryKey queryRows))) := cap_cuts barCap_pos

theorem keptBars_subset : ∀ bar ∈ keptBars J C queryRows primaryKey secondaryKey limit sort,
    bar ∈ pivotBars J primaryKey secondaryKey queryRows := by
  obtain ⟨dropped, hcut, -⟩ := @keptBars_cut J C queryRows primaryKey secondaryKey limit sort
  exact fun bar hbar => hcut.perm.subset (List.mem_append_left _ hbar)

/-- The break-down of the kept bars, folded or not. -/
theorem breakdownOf_eq : breakdownOf J C queryRows primaryKey secondaryKey limit sort =
    let kept := keptBars J C queryRows primaryKey secondaryKey limit sort
    let live := slicesOf J primaryKey secondaryKey queryRows kept
    let folds := chartSeries.length < live.length
    let rendered := byLabel C (if folds then (byTotalDesc live).take 7 else live)
    { rows := if folds then kept.map (foldTail ((byTotalDesc live).drop 7)) else kept
      secondaryValues := rendered.map (·.label) ++ if folds then [otherLabel] else []
      seriesKeys := rendered.map (·.key) ++ if folds then [.other] else []
      sliceColors := chartSeries.take rendered.length ++ if folds then [otherColor] else []
      csvValues := (byLabel C live).map (·.label)
      csvKeys := (byLabel C live).map (·.key) } := by
  have hkept : capPrimaryBuckets C ((pivotBySecondaryDimension J primaryKey secondaryKey queryRows).rows.map Prod.snd)
      (seriesKeysOf (pivotBySecondaryDimension J primaryKey secondaryKey queryRows).secondaryValues) primaryKey
      ((limit.map PNat.val).getD defaultPrimaryCap) sort = keptBars J C queryRows primaryKey secondaryKey limit sort := by
    rw [pivot_secondaryValues]
    rfl
  have hlive : ∀ kept, liveSlices (pivotBySecondaryDimension J primaryKey secondaryKey queryRows) kept =
      slicesOf J primaryKey secondaryKey queryRows kept := fun _ => rfl
  rw [breakdownOf, buildBreakdown, hkept]
  simp only [hlive]
  by_cases hfolds : chartSeries.length < (slicesOf J primaryKey secondaryKey queryRows
    (keptBars J C queryRows primaryKey secondaryKey limit sort)).length
  · simp only [hfolds, if_true]
    rfl
  · simp only [hfolds, if_false]

theorem slices_s {kept : List BreakdownRow} :
    ∀ s ∈ slicesOf J primaryKey secondaryKey queryRows kept, ∃ i, s.key = .s i := fun s hs => by
  obtain ⟨i, hkey, -⟩ := mem_slicesOf hs
  exact ⟨i, hkey⟩

/-- The bars of the break-down are the kept ones, with the same labels, and what their
slices come to. -/
theorem breakdown_bars : let out := breakdownOf J C queryRows primaryKey secondaryKey limit sort
    let kept := keptBars J C queryRows primaryKey secondaryKey limit sort
    ∃ f : BreakdownRow → BreakdownRow, out.rows = kept.map f ∧ ∀ bar, (f bar).label = bar.label ∧
      (out.seriesKeys.map (f bar).numeric).sum =
        ((slicesOf J primaryKey secondaryKey queryRows kept).map fun s => bar.numeric s.key).sum ∧
      (out.csvKeys.map (f bar).numeric).sum =
        ((slicesOf J primaryKey secondaryKey queryRows kept).map fun s => bar.numeric s.key).sum := by
  intro out kept
  have hout : out = _ := breakdownOf_eq
  rw [hout]
  by_cases hfolds : chartSeries.length < (slicesOf J primaryKey secondaryKey queryRows kept).length
  · simp only [kept, hfolds, if_true]
    refine ⟨_, rfl, fun bar => ⟨rfl, sum_folded slices_s 7, sum_csv slices_s _⟩⟩
  · simp only [kept, hfolds, if_false]
    refine ⟨id, (List.map_id _).symm, fun bar => ⟨rfl, ?_, ?_⟩⟩
    · rw [List.append_nil, List.map_map, (byLabel_perm.map _).sum_eq]
      rfl
    · rw [List.map_map, (byLabel_perm.map _).sum_eq]
      rfl

/-- Keys and colours. -/
theorem breakdown_keys : let out := breakdownOf J C queryRows primaryKey secondaryKey limit sort
    let live := slicesOf J primaryKey secondaryKey queryRows (keptBars J C queryRows primaryKey secondaryKey limit sort)
    out.seriesKeys.length ≤ chartSeries.length ∧ out.seriesKeys.Nodup ∧
      (.other ∈ out.seriesKeys ↔ chartSeries.length < live.length) ∧
      (.other ∈ out.seriesKeys → out.seriesKeys.getLast? = some .other) := by
  intro out live
  have hout : out = _ := breakdownOf_eq
  rw [hout]
  have hother : ∀ slices : List Slice, slices ⊆ live → .other ∉ (byLabel C slices).map (·.key) := by
    intro slices hsub hmem
    obtain ⟨s, hs, hkey⟩ := List.mem_map.mp hmem
    obtain ⟨i, hi⟩ := slices_s s (hsub (byLabel_perm.subset hs))
    rw [hi] at hkey
    cases hkey
  have hnodup : ∀ slices : List Slice, (slices.map (·.key)).Nodup → ((byLabel C slices).map (·.key)).Nodup :=
    fun slices h => ((byLabel_perm.map _).nodup_iff).mpr h
  have hlive : (live.map (·.key)).Nodup := keys_slicesOf_nodup
  by_cases hfolds : chartSeries.length < live.length
  · simp only [live] at hfolds ⊢
    simp only [hfolds, if_true]
    have hhead : ((byTotalDesc live).take 7) ⊆ live := fun s hs => byTotalDesc_perm.subset (List.mem_of_mem_take hs)
    refine ⟨?_, ?_, iff_of_true (List.mem_append_right _ List.mem_cons_self) trivial, fun _ => List.getLast?_concat⟩
    · rw [List.length_append, List.length_map, byLabel_perm.length_eq, List.length_take]
      exact Nat.succ_le_succ (Nat.min_le_left _ _)
    · refine (hnodup _ ?_).append (List.nodup_singleton _) (List.disjoint_singleton.mpr (hother _ hhead))
      exact (((byTotalDesc_perm.map _).nodup_iff).mpr hlive).sublist ((List.take_sublist _ _).map _)
  · have hnone := hother live (List.Subset.refl _)
    simp only [live] at hfolds hnone hlive ⊢
    simp only [hfolds, if_false, List.append_nil]
    refine ⟨?_, hnodup _ hlive, iff_of_false hnone not_false, fun h => absurd h hnone⟩
    rw [List.length_map, byLabel_perm.length_eq]
    exact Nat.not_lt.mp hfolds

theorem inPlay_congr {bars bars' : List BreakdownRow} (h : bars.map (·.label) = bars'.map (·.label)) :
    inPlay J primaryKey secondaryKey queryRows bars = inPlay J primaryKey secondaryKey queryRows bars' := by
  have hcomes : ∀ (bars : List BreakdownRow) s, comesTo J primaryKey secondaryKey queryRows bars s =
      ((bars.map (·.label)).map fun l => cellTotal J primaryKey secondaryKey queryRows l s).sum := by
    intro bars s
    rw [List.map_map]
    rfl
  simp only [inPlay, hcomes, h]

theorem mem_labels_of_kept {bar : BreakdownRow} (h : bar ∈ keptBars J C queryRows primaryKey secondaryKey limit sort) :
    ∃ row ∈ queryRows, readLabel J row primaryKey = bar.label := by
  refine mem_firstKeys.mp ?_
  rw [← @pivotBars_labels J primaryKey secondaryKey queryRows]
  exact List.mem_map.mpr ⟨bar, keptBars_subset bar h, rfl⟩

theorem kept_nodup : ((keptBars J C queryRows primaryKey secondaryKey limit sort).map (·.label)).Nodup := by
  obtain ⟨dropped, hcut, -⟩ := @keptBars_cut J C queryRows primaryKey secondaryKey limit sort
  have hall : ((keptBars J C queryRows primaryKey secondaryKey limit sort ++ dropped).map (·.label)).Nodup := by
    rw [(hcut.perm.map _).nodup_iff, pivotBars_labels]
    exact nodup_firstKeys
  exact hall.sublist ((List.sublist_append_left _ _).map _)

/-- A row whose label is not kept is in a bar that was dropped. -/
theorem dropped_of_row {dropped : List BreakdownRow}
    (hcut : CutAt (barCap limit) (pivotBars J primaryKey secondaryKey queryRows)
      (keptBars J C queryRows primaryKey secondaryKey limit sort) dropped) {row : QueryRow ℚ} (hrow : row ∈ queryRows)
    (hout : readLabel J row primaryKey ∉ (keptBars J C queryRows primaryKey secondaryKey limit sort).map (·.label)) :
    ∃ d ∈ dropped, d.label = readLabel J row primaryKey ∧ d ∈ pivotBars J primaryKey secondaryKey queryRows := by
  obtain ⟨bar, hbar⟩ := @mem_pivot_of_row J primaryKey secondaryKey queryRows row hrow
  have hin : bar ∈ pivotBars J primaryKey secondaryKey queryRows := List.mem_map.mpr ⟨_, hbar, rfl⟩
  have hlabel := (pivot_bar hbar).1
  rcases List.mem_append.mp (hcut.perm.symm.subset hin) with hkept | hdropped
  · exact absurd (List.mem_map.mpr ⟨bar, hkept, hlabel⟩) hout
  · exact ⟨bar, hdropped, hlabel, hin⟩

theorem breakdownRight_of_nothingCancels (h : NothingCancels J C queryRows primaryKey secondaryKey limit sort) :
    BreakdownRight J C queryRows primaryKey secondaryKey limit sort
      (breakdownOf J C queryRows primaryKey secondaryKey limit sort) := by
  obtain ⟨f, hrows, hf⟩ := @breakdown_bars J C queryRows primaryKey secondaryKey limit sort
  obtain ⟨hcolours, hkeys, hwhen, hlast⟩ := @breakdown_keys J C queryRows primaryKey secondaryKey limit sort
  obtain ⟨dropped, hcut, hrank⟩ := @keptBars_cut J C queryRows primaryKey secondaryKey limit sort
  have hlabels : (breakdownOf J C queryRows primaryKey secondaryKey limit sort).rows.map (·.label) =
      (keptBars J C queryRows primaryKey secondaryKey limit sort).map (·.label) := by
    rw [hrows, List.map_map]
    exact List.map_congr_left fun bar _ => (hf bar).1
  have hslices : ∀ bar ∈ keptBars J C queryRows primaryKey secondaryKey limit sort,
      ((slicesOf J primaryKey secondaryKey queryRows
        (keptBars J C queryRows primaryKey secondaryKey limit sort)).map fun s => bar.numeric s.key).sum =
          labelTotal J primaryKey queryRows bar.label := by
    intro bar hbar
    rw [sum_slicesOf keptBars_subset hbar, ← @inPlay_add_outOfPlay J primaryKey secondaryKey queryRows
      (keptBars J C queryRows primaryKey secondaryKey limit sort), h bar hbar, add_zero]
  constructor
  · rw [hrows, List.length_map, hcut.length, ← @pivotBars_labels J primaryKey secondaryKey queryRows, List.length_map]
  · refine ⟨hlabels ▸ kept_nodup, fun bar hbar => ?_⟩
    obtain ⟨kept, hkept, rfl⟩ := List.mem_map.mp (hrows ▸ hbar)
    rw [(hf kept).1]
    exact mem_labels_of_kept hkept
  · intro bar hbar
    obtain ⟨kept, hkept, rfl⟩ := List.mem_map.mp (hrows ▸ hbar)
    rw [(hf kept).2.1, (hf kept).1, hslices kept hkept]
  · intro bar hbar
    obtain ⟨kept, hkept, rfl⟩ := List.mem_map.mp (hrows ▸ hbar)
    rw [(hf kept).2.2, (hf kept).1, hslices kept hkept]
  · exact hcolours
  · exact hkeys
  · exact hlast
  · rw [hwhen, inPlay_congr hlabels, ← labels_slicesOf keptBars_subset, List.length_map]
  · intro htime day hday bar hbar row hrow hout
    obtain ⟨kept, hkept, rfl⟩ := List.mem_map.mp (hrows ▸ hbar)
    obtain ⟨d, hd, hlabel, -⟩ := dropped_of_row hcut hrow (hlabels ▸ hout)
    have hle := hrank kept hkept d hd
    rw [if_pos htime] at hle
    obtain ⟨row', hrow', hlabel'⟩ := mem_labels_of_kept hkept
    rw [hlabel, ← hlabel'] at hle
    rw [(hf kept).1, ← hlabel']
    exact (hday row hrow row' hrow').mp hle
  · intro htime hvalue bar hbar row hrow hout
    obtain ⟨kept, hkept, rfl⟩ := List.mem_map.mp (hrows ▸ hbar)
    obtain ⟨d, hd, hlabel, hin⟩ := dropped_of_row hcut hrow (hlabels ▸ hout)
    have hle := hrank kept hkept d hd
    rw [if_neg (by rw [htime]; nofun)] at hle
    have hworse := hle hvalue
    rw [rowTotal_bar hin, rowTotal_bar (keptBars_subset kept hkept), hlabel] at hworse
    rw [(hf kept).1]
    exact hworse

theorem nothingCancels_of_breakdownRight (h : BreakdownRight J C queryRows primaryKey secondaryKey limit sort
    (breakdownOf J C queryRows primaryKey secondaryKey limit sort)) :
    NothingCancels J C queryRows primaryKey secondaryKey limit sort := by
  intro bar hbar
  obtain ⟨f, hrows, hf⟩ := @breakdown_bars J C queryRows primaryKey secondaryKey limit sort
  have htotal := h.totals (f bar) (hrows ▸ List.mem_map.mpr ⟨bar, hbar, rfl⟩)
  rw [(hf bar).2.1, (hf bar).1, sum_slicesOf keptBars_subset hbar] at htotal
  have hsplit := @inPlay_add_outOfPlay J primaryKey secondaryKey queryRows
    (keptBars J C queryRows primaryKey secondaryKey limit sort) bar.label
  rw [htotal] at hsplit
  exact left_eq_add.mp hsplit.symm

end Breakdown

/-- **A break-down is right exactly when no secondary values that come to nothing over all
kept bars come to something in one of them.** -/
theorem breakdown_right_iff (J : JsNumbers ℚ) (C : Collation) (queryRows : List (QueryRow ℚ))
    (primaryKey secondaryKey : Dimension) (limit : Option ℕ+) (sort : Option SortSpec) :
    BreakdownRight J C queryRows primaryKey secondaryKey limit sort
        (breakdownOf J C queryRows primaryKey secondaryKey limit sort) ↔
      NothingCancels J C queryRows primaryKey secondaryKey limit sort :=
  ⟨nothingCancels_of_breakdownRight, breakdownRight_of_nothingCancels⟩

/-! ## A slice that cancels -/

/-- Labels in the order of their code units. -/
def unitCollation : Collation where
  le a b := a ≤ b
  trans a b c hab hbc := by
    simp only [decide_eq_true_eq] at *
    exact List.le_trans hab hbc
  total a b := by
    simp only [Bool.or_eq_true, decide_eq_true_eq]
    exact List.le_total a b

/-- Whole numbers; no text of the example is one. -/
def plainRationals : JsNumbers ℚ where
  write q := units (toString q).toList
  read _ := none

def netRow (category account : JsString) (n : ℚ) : QueryRow ℚ where
  cells
    | .category => .text category
    | .account => .text account
    | _ => .null
  value := .number n

/-- Two categories, paid for from two accounts; the first account's amounts cancel. -/
def cancellingRows : List (QueryRow ℚ) :=
  [netRow [70] [65] 5, netRow [70] [66] 10, netRow [71] [66] 10, netRow [71] [65] (-5)]

theorem cancellingRows_lost : ¬ BreakdownRight plainRationals unitCollation cancellingRows .category .account none
    (some { column := .dimension }) (breakdownOf plainRationals unitCollation cancellingRows .category .account none
      (some { column := .dimension })) := by
  intro h
  have hcancels := nothingCancels_of_breakdownRight h
  rw [NothingCancels] at hcancels
  revert hcancels
  decide +kernel

end BetterDecision
