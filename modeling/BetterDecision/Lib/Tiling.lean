import Mathlib.Data.Int.Order.Basic
import Mathlib.Data.List.Chain

/-!
# Segments end to end

Closed segments of days, each from its first day to its last. Laid end to end they cover
what lies between, and no two share a day.
-/

namespace Tiling

/-- The segments run from `lo` to `hi`, each starting on the day after the one before. -/
@[grind] def Tiles : Int → Int → List (Int × Int) → Prop
  | lo, hi, [] => lo = hi + 1
  | lo, hi, p :: segments => p.1 = lo ∧ p.1 ≤ p.2 ∧ Tiles (p.2 + 1) hi segments

variable {lo hi : Int} {segments : List (Int × Int)}

theorem Tiles.le (h : Tiles lo hi segments) : lo ≤ hi + 1 := by
  induction segments generalizing lo with
  | nil => exact h.le
  | cons p segments ih =>
    obtain ⟨rfl, hp, hrest⟩ := h
    have := ih hrest
    omega

/-- A day is in a segment iff it is in the whole. -/
theorem Tiles.covers (h : Tiles lo hi segments) (d : Int) :
    (∃ p ∈ segments, p.1 ≤ d ∧ d ≤ p.2) ↔ lo ≤ d ∧ d ≤ hi := by
  induction segments generalizing lo with
  | nil =>
    have hempty : lo = hi + 1 := h
    constructor
    · rintro ⟨_, hp, -⟩
      exact absurd hp List.not_mem_nil
    · intro hd
      omega
  | cons p segments ih =>
    obtain ⟨rfl, hp, hrest⟩ := h
    have hle := hrest.le
    rw [List.exists_mem_cons_iff, ih hrest]
    omega

theorem Tiles.start_le (h : Tiles lo hi segments) : ∀ p ∈ segments, lo ≤ p.1 := by
  induction segments generalizing lo with
  | nil => simp
  | cons p segments ih =>
    obtain ⟨rfl, hp, hrest⟩ := h
    intro q hq
    rcases List.mem_cons.mp hq with rfl | hq
    · exact le_rfl
    · have := ih hrest q hq
      omega

theorem Tiles.disjoint (h : Tiles lo hi segments) : segments.Pairwise (fun p q => p.2 < q.1) := by
  induction segments generalizing lo with
  | nil => exact List.Pairwise.nil
  | cons p segments ih =>
    obtain ⟨rfl, hp, hrest⟩ := h
    refine List.pairwise_cons.mpr ⟨fun q hq => ?_, ih hrest⟩
    have := hrest.start_le q hq
    omega

theorem Tiles.consecutive (h : Tiles lo hi segments) : segments.IsChain (fun p q => q.1 = p.2 + 1) := by
  induction segments generalizing lo with
  | nil => exact List.IsChain.nil
  | cons p segments ih =>
    obtain ⟨rfl, hp, hrest⟩ := h
    cases segments with
    | nil => exact List.isChain_singleton p
    | cons q segments => exact List.IsChain.cons_cons hrest.1 (ih hrest)

end Tiling
