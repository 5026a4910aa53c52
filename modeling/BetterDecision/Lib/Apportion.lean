import Mathlib.Algebra.BigOperators.Group.List.Basic
import Mathlib.Algebra.Order.BigOperators.Group.List
import Mathlib.Data.Int.Order.Basic
import Mathlib.Data.List.Perm.Basic
import Mathlib.Tactic.Linarith
import Mathlib.Tactic.Ring

/-!
# Sharing out whole units

Two ways to share a pool. *Apportionment* gives everyone a part of it in proportion to
a weight: the quotas rounded down, and one unit more for those with the largest
remainders. *Filling* serves needs one after the other until the pool is empty.

Apportionment rests on `total_mul_leftover`: what rounding down leaves is the sum of the
remainders, each of them below the total. So fewer units are left than there are positive
remainders, and nobody gets more than the weight.
-/

universe u

namespace Apportion

variable {ι : Type u}

/-! ## Quotas -/

section Quotas

variable (pool total : Int) (weight : ι → Int)

/-- The proportional part, rounded down. -/
@[grind] def quota (i : ι) : Int := pool * weight i / total

/-- What rounding it down cut off, in parts of the total. -/
@[grind] def remainder (i : ι) : Int := pool * weight i % total

/-- The units nobody has yet. -/
@[grind] def leftover (ids : List ι) : Int := pool - (ids.map (quota pool total weight)).sum

end Quotas

variable {pool total : Int} {weight : ι → Int} {ids : List ι}

theorem remainder_nonneg (ht : 0 < total) (i : ι) : 0 ≤ remainder pool total weight i :=
  Int.emod_nonneg _ (by omega)

theorem remainder_lt (ht : 0 < total) (i : ι) : remainder pool total weight i < total :=
  Int.emod_lt_of_pos _ ht

theorem quota_nonneg (ht : 0 < total) (hp : 0 ≤ pool) {i : ι} (hi : 0 ≤ weight i) : 0 ≤ quota pool total weight i :=
  Int.ediv_nonneg (Int.mul_nonneg hp hi) ht.le

variable (pool total weight) in
theorem quota_add_remainder (i : ι) :
    total * quota pool total weight i + remainder pool total weight i = pool * weight i :=
  Int.mul_ediv_add_emod _ _

/-- Nobody is owed more than the weight. -/
theorem quota_le (ht : 0 < total) (hp : pool ≤ total) {i : ι} (hi : 0 ≤ weight i) :
    quota pool total weight i ≤ weight i := by
  have h := quota_add_remainder pool total weight i
  have hr : 0 ≤ remainder pool total weight i := remainder_nonneg ht i
  have hw : pool * weight i ≤ total * weight i := Int.mul_le_mul_of_nonneg_right hp hi
  exact le_of_mul_le_mul_left (by omega) ht

/-- Where something was cut off there is room for one more. -/
theorem quota_lt (ht : 0 < total) (hp : pool ≤ total) {i : ι} (hi : 0 ≤ weight i)
    (hr : 0 < remainder pool total weight i) : quota pool total weight i < weight i := by
  have h := quota_add_remainder pool total weight i
  have hw : pool * weight i ≤ total * weight i := Int.mul_le_mul_of_nonneg_right hp hi
  exact lt_of_mul_lt_mul_left (by omega) ht.le

theorem total_mul_leftover (hw : (ids.map weight).sum = total) :
    total * leftover pool total weight ids = (ids.map (remainder pool total weight)).sum := by
  have key : ∀ ids : List ι, total * (ids.map (quota pool total weight)).sum +
      (ids.map (remainder pool total weight)).sum = pool * (ids.map weight).sum := by
    intro ids
    induction ids with
    | nil => simp
    | cons i ids ih =>
      have h := quota_add_remainder pool total weight i
      simp only [List.map_cons, List.sum_cons, Int.mul_add]
      omega
  have h := key ids
  rw [hw, Int.mul_comm pool total] at h
  unfold leftover
  rw [Int.mul_sub]
  omega

theorem leftover_nonneg (ht : 0 < total) (hw : (ids.map weight).sum = total) :
    0 ≤ leftover pool total weight ids := by
  have hsum : 0 ≤ (ids.map (remainder pool total weight)).sum := by
    refine List.sum_nonneg fun r hr => ?_
    obtain ⟨i, -, rfl⟩ := List.mem_map.mp hr
    exact remainder_nonneg ht i
  rw [← total_mul_leftover hw] at hsum
  exact nonneg_of_mul_nonneg_right hsum ht

/-- **Fewer units are left than there are positive remainders.** -/
theorem leftover_lt (ht : 0 < total) (hw : (ids.map weight).sum = total)
    (hpos : 0 < leftover pool total weight ids) :
    leftover pool total weight ids < (ids.filter (fun i => 0 < remainder pool total weight i)).length := by
  -- a positive remainder weighs less than the total, so the sum is short of their number
  have key : ∀ ids : List ι, (ids.map (remainder pool total weight)).sum ≤
      (total - 1) * (ids.filter (fun i => 0 < remainder pool total weight i)).length := by
    intro ids
    induction ids with
    | nil => simp
    | cons i ids ih =>
      have hlt : remainder pool total weight i < total := remainder_lt ht i
      have hnn : 0 ≤ remainder pool total weight i := remainder_nonneg ht i
      rw [List.map_cons, List.sum_cons]
      by_cases hi : 0 < remainder pool total weight i
      · rw [List.filter_cons_of_pos (by simpa using hi), List.length_cons]
        push_cast
        rw [Int.mul_add]
        omega
      · rw [List.filter_cons_of_neg (by simpa using hi)]
        omega
  have h := key ids
  rw [← total_mul_leftover hw] at h
  by_contra hge
  have hmul := Int.mul_le_mul_of_nonneg_left (not_lt.mp hge) (show 0 ≤ total - 1 by omega)
  have hexpand : (total - 1) * leftover pool total weight ids =
      total * leftover pool total weight ids - leftover pool total weight ids := by ring
  omega

/-! ## The largest remainders -/

section Share

variable [DecidableEq ι]

/-- The quota, and one unit more for those that are raised. -/
@[grind] def share (pool total : Int) (weight : ι → Int) (raised : List ι) (i : ι) : Int :=
  quota pool total weight i + if i ∈ raised then 1 else 0

omit [DecidableEq ι] in
/-- The first ones of an order by remainder have positive ones. -/
theorem remainder_pos_of_mem_take {order : List ι}
    (horder : order.Pairwise (fun i j => remainder pool total weight j ≤ remainder pool total weight i)) {n : Nat}
    (hn : n ≤ (order.filter (fun i => 0 < remainder pool total weight i)).length) :
    ∀ i ∈ order.take n, 0 < remainder pool total weight i := by
  induction order generalizing n with
  | nil => simp
  | cons j order ih =>
    obtain ⟨hj, htail⟩ := List.pairwise_cons.mp horder
    cases n with
    | zero => simp
    | succ n =>
      by_cases hpos : 0 < remainder pool total weight j
      · rw [List.filter_cons_of_pos (by simpa using hpos), List.length_cons] at hn
        intro i hi
        rcases List.mem_cons.mp hi with rfl | hi
        · exact hpos
        · exact ih htail (by omega) i hi
      · -- nothing after it is larger, so there is no positive one to be counted
        have hnone : (j :: order).filter (fun i => 0 < remainder pool total weight i) = [] := by
          refine List.filter_eq_nil_iff.mpr fun i hi => ?_
          rcases List.mem_cons.mp hi with rfl | hi
          · simpa using hpos
          · have := hj i hi
            simp only [decide_eq_true_eq]
            omega
        rw [hnone, List.length_nil] at hn
        omega

theorem sum_indicator {raised : List ι} (hids : ids.Nodup) (hraised : raised.Nodup) (hsub : ∀ i ∈ raised, i ∈ ids) :
    (ids.map (fun i => if i ∈ raised then (1 : Int) else 0)).sum = raised.length := by
  have hcount : ∀ ids : List ι, (ids.map (fun i => if i ∈ raised then (1 : Int) else 0)).sum =
      (ids.filter (fun i => decide (i ∈ raised))).length := by
    intro ids
    induction ids with
    | nil => rfl
    | cons i ids ih =>
      rw [List.map_cons, List.sum_cons, ih]
      by_cases hi : i ∈ raised
      · rw [if_pos hi, List.filter_cons_of_pos (by simpa using hi), List.length_cons]
        push_cast
        omega
      · rw [if_neg hi, List.filter_cons_of_neg (by simpa using hi)]
        omega
  have hperm : (ids.filter (fun i => decide (i ∈ raised))).Perm raised := by
    refine (List.perm_ext_iff_of_nodup (hids.filter _) hraised).mpr fun i => ?_
    rw [List.mem_filter, decide_eq_true_eq]
    exact ⟨fun h => h.2, fun h => ⟨hsub i h, h⟩⟩
  rw [hcount, hperm.length_eq]

/-- **The shares make up the pool.** -/
theorem sum_share {raised : List ι} (hids : ids.Nodup) (hraised : raised.Nodup) (hsub : ∀ i ∈ raised, i ∈ ids)
    (hlength : (raised.length : Int) = leftover pool total weight ids) :
    (ids.map (share pool total weight raised)).sum = pool := by
  have hsplit : (ids.map (share pool total weight raised)).sum =
      (ids.map (quota pool total weight)).sum + (ids.map (fun i => if i ∈ raised then (1 : Int) else 0)).sum := by
    rw [← List.sum_map_add]
    rfl
  rw [hsplit, sum_indicator hids hraised hsub, hlength]
  unfold leftover
  omega

theorem share_nonneg (ht : 0 < total) (hp : 0 ≤ pool) {i : ι} (hi : 0 ≤ weight i) (raised : List ι) :
    0 ≤ share pool total weight raised i := by
  have := quota_nonneg ht hp hi
  unfold share
  split <;> omega

/-- Nobody gets more than the weight. -/
theorem share_le (ht : 0 < total) (hp : pool ≤ total) {i : ι} (hi : 0 ≤ weight i) {raised : List ι}
    (hraised : ∀ i ∈ raised, 0 < remainder pool total weight i) : share pool total weight raised i ≤ weight i := by
  unfold share
  split
  · rename_i hmem
    have := quota_lt ht hp hi (hraised i hmem)
    omega
  · have := quota_le ht hp hi
    omega

end Share

/-! ## Filling needs in order -/

/-- Serve the needs one after the other while anything is left. -/
@[grind] def fill : Int → List (ι × Int) → List (ι × Int)
  | _, [] => []
  | remaining, (i, need) :: needs =>
    if remaining ≤ 0 then [] else (i, min remaining need) :: fill (remaining - min remaining need) needs

theorem sum_fill {needs : List (ι × Int)} {remaining : Int} (hneeds : ∀ p ∈ needs, 0 ≤ p.2) (hr : 0 ≤ remaining) :
    ((fill remaining needs).map Prod.snd).sum = min remaining (needs.map Prod.snd).sum := by
  induction needs generalizing remaining with
  | nil => simp [fill, hr]
  | cons p needs ih =>
    obtain ⟨i, need⟩ := p
    have hp : 0 ≤ need := hneeds _ List.mem_cons_self
    have hrest : 0 ≤ (needs.map Prod.snd).sum := by
      refine List.sum_nonneg fun n hn => ?_
      obtain ⟨q, hq, rfl⟩ := List.mem_map.mp hn
      exact hneeds q (List.mem_cons_of_mem _ hq)
    rw [fill, List.map_cons, List.sum_cons]
    dsimp only
    split
    · simp only [List.map_nil, List.sum_nil]
      omega
    · rw [List.map_cons, List.sum_cons, ih (fun q hq => hneeds q (List.mem_cons_of_mem _ hq)) (by omega)]
      dsimp only
      omega

theorem fill_bounds {needs : List (ι × Int)} {remaining : Int} (hneeds : ∀ p ∈ needs, 0 ≤ p.2) {i : ι} {take : Int}
    (h : (i, take) ∈ fill remaining needs) : 0 ≤ take ∧ ∃ need, (i, need) ∈ needs ∧ take ≤ need := by
  induction needs generalizing remaining with
  | nil => cases h
  | cons p needs ih =>
    obtain ⟨j, need⟩ := p
    have hp : 0 ≤ need := hneeds _ List.mem_cons_self
    rw [fill] at h
    split at h
    · cases h
    · rcases List.mem_cons.mp h with heq | h
      · obtain ⟨rfl, rfl⟩ := Prod.mk.inj heq
        exact ⟨by omega, need, List.mem_cons_self, min_le_right _ _⟩
      · obtain ⟨hnn, n, hn, hle⟩ := ih (fun q hq => hneeds q (List.mem_cons_of_mem _ hq)) h
        exact ⟨hnn, n, List.mem_cons_of_mem _ hn, hle⟩

/-- They are served in their order. -/
theorem fill_keys_sublist (remaining : Int) (needs : List (ι × Int)) :
    ((fill remaining needs).map Prod.fst).Sublist (needs.map Prod.fst) := by
  induction needs generalizing remaining with
  | nil => exact List.Sublist.refl _
  | cons p needs ih =>
    rw [fill]
    split
    · exact List.nil_sublist _
    · exact (ih _).cons_cons _

theorem fill_of_nonpos {remaining : Int} (h : remaining ≤ 0) (needs : List (ι × Int)) : fill remaining needs = [] := by
  cases needs with
  | nil => rfl
  | cons p needs => rw [fill, if_pos h]

/-- **A need is served only once those before it are met.** -/
theorem fill_served {before after : List (ι × Int)} {i : ι} {take remaining : Int} (hfirst : ∀ p ∈ before, p.1 ≠ i)
    (h : (i, take) ∈ fill remaining (before ++ after)) : ∀ p ∈ before, p ∈ fill remaining (before ++ after) := by
  induction before generalizing remaining with
  | nil => simp
  | cons q before ih =>
    obtain ⟨j, need⟩ := q
    rw [List.cons_append, fill] at h ⊢
    split at h
    · cases h
    · rename_i hgoing
      rw [if_neg hgoing]
      rcases List.mem_cons.mp h with heq | h
      · exact absurd (Prod.mk.inj heq).1.symm (hfirst _ List.mem_cons_self)
      · -- had this need not been met, nothing would be left for the later ones
        have hmet : min remaining need = need := by
          by_contra hshort
          rw [fill_of_nonpos (by omega)] at h
          cases h
        intro p hp
        rcases List.mem_cons.mp hp with rfl | hp
        · rw [hmet]
          exact List.mem_cons_self
        · exact List.mem_cons_of_mem _ (ih (fun r hr => hfirst r (List.mem_cons_of_mem _ hr)) h p hp)

end Apportion
