import Mathlib.Algebra.BigOperators.Intervals
import Mathlib.Algebra.BigOperators.Ring.Finset
import Mathlib.Algebra.Order.BigOperators.Ring.Finset
import Mathlib.Algebra.Order.Ring.Pow
import Mathlib.Data.List.GetD
import Mathlib.Tactic.Ring

/-!
# Balances that compound

A balance is multiplied by a factor each period and then takes the flow of the period. So the
balance after a period is the start and every flow up to it, each multiplied once for every
period it has lain there. It is linear in an amount that is paid in with the first flows; the
slope is what one unit paid in each of them has become.
-/

universe u

namespace Compound

variable {α : Type u}

section Semiring

variable [CommSemiring α]

/-- The balance after each flow. -/
@[grind] def balances (g start : α) : List α → List α
  | [] => []
  | flow :: flows => (start * g + flow) :: balances g (start * g + flow) flows

/-- The flows, with an amount paid in with each of the first `n`. -/
@[grind] def paying (c : α) (n : Nat) (flows : List α) : List α := flows.mapIdx (fun k flow => if k < n then flow + c else flow)

/-- What one unit paid in each of the first `n` periods has become after period `m`. -/
@[grind] def worth (g : α) (n m : Nat) : α := ∑ k ∈ Finset.range (min (m + 1) n), g ^ (m - k)

@[simp] theorem length_balances (g start : α) (flows : List α) : (balances g start flows).length = flows.length := by
  induction flows generalizing start with
  | nil => rfl
  | cons flow flows ih => rw [balances, List.length_cons, ih, List.length_cons]

@[simp] theorem length_paying (c : α) (n : Nat) (flows : List α) : (paying c n flows).length = flows.length :=
  List.length_mapIdx

/-- **The balance in closed form.** -/
theorem getElem_balances (g start : α) (flows : List α) {m : Nat} (hm : m < (balances g start flows).length) :
    (balances g start flows)[m] = start * g ^ (m + 1) + ∑ k ∈ Finset.range (m + 1), flows.getD k 0 * g ^ (m - k) := by
  induction flows generalizing start m with
  | nil => cases hm
  | cons flow flows ih =>
    cases m with
    | zero => simp [balances]
    | succ m =>
      have hm' : m < (balances g (start * g + flow) flows).length := by
        rw [length_balances] at hm ⊢
        exact Nat.lt_of_succ_lt_succ hm
      have hrest : ∑ k ∈ Finset.range (m + 1), (flow :: flows).getD (k + 1) 0 * g ^ (m + 1 - (k + 1)) =
          ∑ k ∈ Finset.range (m + 1), flows.getD k 0 * g ^ (m - k) := by
        refine Finset.sum_congr rfl fun k _ => ?_
        rw [List.getD_cons_succ, Nat.add_sub_add_right]
      calc (balances g start (flow :: flows))[m + 1]
          = (balances g (start * g + flow) flows)[m] := rfl
        _ = (start * g + flow) * g ^ (m + 1) + ∑ k ∈ Finset.range (m + 1), flows.getD k 0 * g ^ (m - k) := ih _ hm'
        _ = start * g ^ (m + 1 + 1) + (∑ k ∈ Finset.range (m + 1), flows.getD k 0 * g ^ (m - k) + flow * g ^ (m + 1)) := by
          rw [pow_succ g (m + 1)]
          ring
        _ = _ := by rw [Finset.sum_range_succ' _ (m + 1), hrest, List.getD_cons_zero, Nat.sub_zero]

/-- **A balance is linear in what is paid in.** -/
theorem getElem_balances_paying (g start c : α) (n : Nat) (flows : List α) {m : Nat}
    (hpaid : m < (balances g start (paying c n flows)).length) (hplain : m < (balances g start flows).length) :
    (balances g start (paying c n flows))[m] = (balances g start flows)[m] + c * worth g n m := by
  have hm : m < flows.length := by simpa using hplain
  rw [getElem_balances, getElem_balances, add_assoc]
  congr 1
  have hfilter : (Finset.range (m + 1)).filter (· < n) = Finset.range (min (m + 1) n) := by
    ext k
    simp
  have hflow : ∀ k ∈ Finset.range (m + 1), (paying c n flows).getD k 0 * g ^ (m - k) =
      flows.getD k 0 * g ^ (m - k) + if k < n then c * g ^ (m - k) else 0 := by
    intro k hk
    have hk : k < flows.length := by
      have := Finset.mem_range.mp hk
      omega
    have hk' : k < (paying c n flows).length := by simpa using hk
    rw [List.getD_eq_getElem _ _ hk', List.getD_eq_getElem _ _ hk]
    simp only [paying, List.getElem_mapIdx]
    split
    · rw [add_mul]
    · rw [add_zero]
  rw [Finset.sum_congr rfl hflow, Finset.sum_add_distrib, ← Finset.sum_filter, hfilter, worth, Finset.mul_sum]

/-- What one unit paid in at the start of each of `n` periods has become at the end of the last. -/
@[grind] def dueWorth (g : α) (n : Nat) : α := g * ∑ k ∈ Finset.range n, g ^ k

theorem dueWorth_zero (g : α) : dueWorth g 0 = 0 := by simp [dueWorth]

/-- Paying in and then multiplying takes the pot from one period to the next. -/
theorem dueWorth_succ (g c : α) (n : Nat) : (c * dueWorth g n + c) * g = c * dueWorth g (n + 1) := by
  unfold dueWorth
  rw [Finset.sum_range_succ']
  simp only [pow_succ, pow_zero, Finset.mul_sum, Finset.sum_mul, mul_add, add_mul]
  congr 1
  · refine Finset.sum_congr rfl fun k _ => ?_
    ring
  · ring

theorem worth_zero (g : α) (m : Nat) : worth g 0 m = 0 := by simp [worth]

end Semiring

section Ordered

variable [CommSemiring α] [PartialOrder α] [IsStrictOrderedRing α]

theorem worth_nonneg {g : α} (hg : 0 ≤ g) (n m : Nat) : 0 ≤ worth g n m :=
  Finset.sum_nonneg fun _ _ => pow_nonneg hg _

theorem worth_pos {g : α} (hg : 0 < g) {n : Nat} (hn : 0 < n) (m : Nat) : 0 < worth g n m := by
  unfold worth
  refine Finset.sum_pos (fun k _ => pow_pos hg _) ⟨0, ?_⟩
  rw [Finset.mem_range]
  omega

end Ordered

end Compound
