import BetterDecision.Model.TransferCollapse

/-!
# A collapsed list is a partition

A row whose transfer is not wholly in the filtered set is kept by one of the first three
branches or the last. Of the two legs of one that is, the branches between keep the leg
that outranks the other: a live one over a reverted one, then the lower id. Nothing of
this depends on which states are on the roster.
-/

namespace BetterDecision

open Kleene

variable {rows : Table Transaction} {reverted : List ReconciliationState} {orgId : Nat} {passes : Row → Bool}

/-- Two rows of the filtered set that link each other, in one org. -/
structure PairedIn (filtered : List Row) (a b : Row) : Prop where
  left : a ∈ filtered
  right : b ∈ filtered
  ne : a.1 ≠ b.1
  org : a.2.orgId = b.2.orgId
  links : a.2.linkedTransactionId = some b.1
  linksBack : b.2.linkedTransactionId = some a.1

theorem PairedIn.symm {filtered : List Row} {a b : Row} (h : PairedIn filtered a b) : PairedIn filtered b a :=
  ⟨h.right, h.left, h.ne.symm, h.org.symm, h.linksBack, h.links⟩

/-- The leg that is listed. -/
def Outranks (reverted : List ReconciliationState) (a b : Row) : Prop :=
  (rowLive reverted a.2 = true ∧ rowLive reverted b.2 = false) ∨
    (rowLive reverted a.2 = rowLive reverted b.2 ∧ a.1 < b.1)

theorem mem_filteredRows {row : Row} : row ∈ filteredRows rows orgId passes ↔
    rows.get? row.1 = some row.2 ∧ row.2.orgId = orgId ∧ passes row = true := by
  unfold filteredRows
  rw [Table.mem_select, Bool.and_eq_true, beq_iff_eq]

theorem partnerExists_iff {row : Row} {test : Transaction → Bool} : partnerExists rows row test = true ↔
    ∃ p : Row, rows.get? p.1 = some p.2 ∧ row.2.linkedTransactionId = some p.1 ∧ p.2.orgId = row.2.orgId ∧
      p.2.linkedTransactionId = some row.1 ∧ test p.2 = true := by
  unfold partnerExists
  rw [List.any_eq_true]
  refine exists_congr fun p => ?_
  rw [Table.mem_rows]
  simp only [Bool.and_eq_true, decide_eq_true_eq, holds_compare, beq_iff_eq, exists_eq_right', exists_eq_right, and_assoc]

/-- The partner of a leg is the other leg. -/
theorem PairedIn.partnerExists {a b : Row} (h : PairedIn (filteredRows rows orgId passes) a b)
    (test : Transaction → Bool) : partnerExists rows a test = test b.2 := by
  rw [Bool.eq_iff_iff, partnerExists_iff]
  constructor
  · intro ⟨p, hp, hto, _, _, htest⟩
    have hid : p.1 = b.1 := Option.some.inj (hto.symm.trans h.links)
    rw [hid, (mem_filteredRows.mp h.right).1] at hp
    rwa [Option.some.inj hp]
  · intro htest
    exact ⟨b, (mem_filteredRows.mp h.right).1, h.links, h.org.symm, h.linksBack, htest⟩

theorem mem_collapsedRows {row : Row} : row ∈ collapsedRows rows reverted orgId passes ↔
    row ∈ filteredRows rows orgId passes ∧
      Holds (transferCollapseClause rows reverted ((filteredRows rows orgId passes).map Prod.fst) row) := by
  unfold collapsedRows
  rw [List.mem_filter, decide_eq_true_eq]

/-- A row that is not a leg of a transfer in the set is listed. -/
theorem mem_collapsedRows_of_single {row : Row} (hrow : row ∈ filteredRows rows orgId passes)
    (hsingle : ∀ b, ¬ PairedIn (filteredRows rows orgId passes) row b) :
    row ∈ collapsedRows rows reverted orgId passes := by
  refine mem_collapsedRows.mpr ⟨hrow, ?_⟩
  unfold transferCollapseClause
  simp only [holds_or, not_some, holds_some]
  rcases hlink : row.2.linkedTransactionId with _ | l
  · exact Or.inl rfl
  · by_cases hself : l = row.1
    · exact Or.inr (Or.inl (holds_compare.mpr ⟨l, rfl, by simpa using hself⟩))
    · by_cases hpartner : partnerExists rows row (fun _ => true) = true
      · -- the partner links back, so it is not in the set
        obtain ⟨p, hp, hto, horg, hback, -⟩ := partnerExists_iff.mp hpartner
        obtain rfl : l = p.1 := Option.some.inj (hlink.symm.trans hto)
        refine Or.inr (Or.inr (Or.inr (Or.inr (Or.inr ?_))))
        rw [holds_notIn (List.ne_nil_of_mem (List.mem_map_of_mem hrow))]
        refine ⟨p.1, rfl, fun hmem => ?_⟩
        obtain ⟨q, hq, hid⟩ := List.mem_map.mp hmem
        have hget := (mem_filteredRows.mp hq).1
        rw [hid, hp] at hget
        obtain rfl : p = q := Prod.ext hid.symm (Option.some.inj hget)
        exact hsingle p ⟨hrow, hq, Ne.symm hself, horg.symm, hto, hback⟩
      · exact Or.inr (Or.inr (Or.inl (by simpa using hpartner)))

/-- Of the two legs of a transfer in the set, the one that outranks the other is listed. -/
theorem mem_collapsedRows_of_pair {a b : Row} (h : PairedIn (filteredRows rows orgId passes) a b) :
    a ∈ collapsedRows rows reverted orgId passes ↔ Outranks reverted a b := by
  have hnotIn : ¬ Holds (notIn a.2.linkedTransactionId ((filteredRows rows orgId passes).map Prod.fst)) := by
    rw [holds_notIn (List.ne_nil_of_mem (List.mem_map_of_mem h.left))]
    intro ⟨l, hl, hmem⟩
    obtain rfl : b.1 = l := Option.some.inj (h.links.symm.trans hl)
    exact hmem (List.mem_map_of_mem h.right)
  rw [mem_collapsedRows]
  unfold transferCollapseClause
  simp only [holds_or, holds_and, not_some, holds_some, holds_compare, h.partnerExists, hnotIn]
  simp only [h.links, h.left, Option.isNone_some, Option.some.injEq, exists_eq_left', beq_iff_eq, decide_eq_true_eq,
    h.ne.symm, Bool.not_true, Bool.false_eq_true, false_or, or_false, true_and, Bool.not_eq_true']
  unfold Outranks
  rcases rowLive reverted a.2 <;> rcases rowLive reverted b.2 <;> simp

/-- One leg outranks the other. -/
theorem outranks_or {a b : Row} (hne : a.1 ≠ b.1) : Outranks reverted a b ↔ ¬ Outranks reverted b a := by
  unfold Outranks
  rcases rowLive reverted a.2 <;> rcases rowLive reverted b.2 <;> simp <;> omega

/-- The pages of a list, one after the other. -/
theorem flatMap_pages {α : Type} (l : List α) (limit n : Nat) :
    (List.range n).flatMap (fun k => (l.drop (k * limit)).take limit) = l.take (n * limit) := by
  induction n with
  | zero => simp
  | succ n ih =>
    rw [List.range_succ, List.flatMap_append, ih, List.flatMap_singleton, Nat.succ_mul, List.take_add]

/-- Enough pages deliver every listed row once. -/
theorem pages_perm {κ : Type} [LinearOrder κ] (column : Row → κ) (descending : Bool) {limit n : Nat}
    (hn : (collapsedRows rows reverted orgId passes).length ≤ n * limit) :
    ((List.range n).flatMap (fun k =>
      (listTransactions rows reverted orgId passes column descending limit (k * limit)).1)).Perm
        (collapsedRows rows reverted orgId passes) := by
  unfold listTransactions
  dsimp only
  have hperm := List.perm_insertionSort (listedBefore column descending) (collapsedRows rows reverted orgId passes)
  rw [flatMap_pages, List.take_of_length_le (by rw [hperm.length_eq]; exact hn)]
  exact hperm

/-- **The collapsed list is a partition**: every filtered row that is not a leg of a
transfer in the filtered set, and of each such transfer one leg; a live leg over one that
is not, else the lower id. The pages deliver as many rows as the total says. -/
theorem collapse_partition (rows : Table Transaction) (reverted : List ReconciliationState) (orgId : Nat)
    (passes : Row → Bool) :
    (∀ row ∈ collapsedRows rows reverted orgId passes, row ∈ filteredRows rows orgId passes) ∧
    (∀ row ∈ filteredRows rows orgId passes, (∀ b, ¬ PairedIn (filteredRows rows orgId passes) row b) →
      row ∈ collapsedRows rows reverted orgId passes) ∧
    (∀ a b, PairedIn (filteredRows rows orgId passes) a b →
      (a ∈ collapsedRows rows reverted orgId passes ↔ b ∉ collapsedRows rows reverted orgId passes) ∧
      (rowLive reverted a.2 = true → rowLive reverted b.2 = false → a ∈ collapsedRows rows reverted orgId passes) ∧
      (rowLive reverted a.2 = rowLive reverted b.2 → a.1 < b.1 → a ∈ collapsedRows rows reverted orgId passes)) ∧
    ∀ (κ : Type) [LinearOrder κ] (column : Row → κ) (descending : Bool) (limit offset n : Nat),
      (listTransactions rows reverted orgId passes column descending limit offset).2 ≤ n * limit →
      ((List.range n).flatMap (fun k =>
        (listTransactions rows reverted orgId passes column descending limit (k * limit)).1)).Perm
          (collapsedRows rows reverted orgId passes) ∧
      ((List.range n).flatMap (fun k =>
        (listTransactions rows reverted orgId passes column descending limit (k * limit)).1)).length =
          (listTransactions rows reverted orgId passes column descending limit offset).2 := by
  refine ⟨fun row hrow => (mem_collapsedRows.mp hrow).1, fun row hrow hsingle => mem_collapsedRows_of_single hrow hsingle,
    fun a b h => ⟨?_, fun ha hb => ?_, fun hsame hlt => ?_⟩, ?_⟩
  · rw [mem_collapsedRows_of_pair h, mem_collapsedRows_of_pair h.symm, outranks_or h.ne]
  · exact (mem_collapsedRows_of_pair h).mpr (Or.inl ⟨ha, hb⟩)
  · exact (mem_collapsedRows_of_pair h).mpr (Or.inr ⟨hsame, hlt⟩)
  · intro κ _ column descending limit offset n hn
    have hperm := pages_perm column descending hn
    exact ⟨hperm, hperm.length_eq⟩

end BetterDecision
