import Mathlib

/-!
# The first rows of an ordered result

`ORDER BY … LIMIT n` leaves ties open: any arrangement that the order allows may be the
one that is cut. A *page* is the front of one such arrangement. Which rows some page
holds needs no arrangement to say: those with fewer than `n` rows strictly before them
(`mem_page_iff`).
-/

namespace Paging

variable {α : Type*} (r : α → α → Prop)

/-- The front of some arrangement of `xs` that `r` allows. -/
@[grind] def IsPage (n : Nat) (xs page : List α) : Prop :=
  ∃ l : List α, l.Perm xs ∧ l.Pairwise r ∧ page = l.take n

/-- How many are strictly before `x`. -/
@[grind] def ahead [DecidableRel r] (xs : List α) (x : α) : Nat := xs.countP (fun y => ¬ r x y)

variable {r}

theorem IsPage.subset {n : Nat} {xs page : List α} (h : IsPage r n xs page) : page ⊆ xs := by
  obtain ⟨l, hperm, _, rfl⟩ := h
  exact fun x hx => hperm.subset (List.take_subset n l hx)

variable [DecidableRel r]

/-- What stands in front of a row of an arrangement covers everything strictly before it. -/
theorem countP_le_of_pairwise [Std.Refl r] {x : α} {before after : List α}
    (h : (before ++ x :: after).Pairwise r) : ahead r (before ++ x :: after) x ≤ before.length := by
  have hafter : (x :: after).countP (fun y => ¬ r x y) = 0 := by
    refine List.countP_eq_zero.mpr fun y hy => ?_
    have hxy : r x y := by
      rcases List.mem_cons.mp hy with rfl | hy
      · exact Std.Refl.refl y
      · exact (List.pairwise_cons.mp (List.pairwise_append.mp h).2.1).1 y hy
    simpa using hxy
  rw [ahead, List.countP_append, hafter, Nat.add_zero]
  exact List.countP_le_length

/-- Inserted into an arrangement, `x` comes right after what is strictly before it. -/
theorem takeWhile_length_le (x : α) (l : List α) :
    (l.takeWhile (fun b => ¬ r x b)).length ≤ l.countP (fun y => ¬ r x y) := by
  have hall : (l.takeWhile (fun b => ¬ r x b)).countP (fun y => ¬ r x y) =
      (l.takeWhile (fun b => ¬ r x b)).length :=
    List.countP_eq_length.mpr (List.all_eq_true.mp List.all_takeWhile)
  rw [← hall]
  exact (List.takeWhile_sublist _).countP_le

/-- `x` is on some page iff fewer than `n` are strictly before it. -/
theorem mem_page_iff [Std.Total r] [IsTrans α r] {n : Nat} {xs : List α} {x : α} :
    (∃ page, IsPage r n xs page ∧ x ∈ page) ↔ x ∈ xs ∧ ahead r xs x < n := by
  have hrefl : Std.Refl r := ⟨fun a => (Std.Total.total a a).elim id id⟩
  constructor
  · rintro ⟨page, hpage, hx⟩
    refine ⟨hpage.subset hx, ?_⟩
    obtain ⟨l, hperm, hsorted, rfl⟩ := hpage
    obtain ⟨front, back, hcut⟩ := List.append_of_mem hx
    have hl : l = front ++ x :: (back ++ l.drop n) := by
      conv_lhs => rw [← List.take_append_drop n l, hcut]
      rw [List.append_assoc, List.cons_append]
    have hfront : front.length < n := by
      have hlen := congrArg List.length hcut
      rw [List.length_take, List.length_append, List.length_cons] at hlen
      omega
    have hcount : ahead r xs x ≤ front.length := by
      rw [ahead, ← hperm.countP_eq, ← ahead, hl]
      exact countP_le_of_pairwise (hl ▸ hsorted)
    omega
  · rintro ⟨hx, hlt⟩
    obtain ⟨front, back, hcut⟩ := List.append_of_mem hx
    -- `x` sorted in last lands in front of its ties
    have hperm : (x :: (front ++ back)).Perm xs := hcut ▸ List.perm_middle.symm
    set rest := (front ++ back).insertionSort r
    have hsort : (x :: (front ++ back)).insertionSort r =
        rest.takeWhile (fun b => ¬ r x b) ++ x :: rest.dropWhile (fun b => ¬ r x b) :=
      List.insertionSort_cons_eq_take_drop r x (front ++ back)
    refine ⟨_, ⟨_, (List.perm_insertionSort r _).trans hperm, List.pairwise_insertionSort r _, rfl⟩, ?_⟩
    have hbound : (rest.takeWhile (fun b => ¬ r x b)).length < n := by
      have hle := takeWhile_length_le (r := r) x rest
      have hrest : rest.countP (fun y => ¬ r x y) ≤ ahead r xs x := by
        rw [ahead, ← hperm.countP_eq, (List.perm_insertionSort r (front ++ back)).countP_eq]
        exact (List.sublist_cons_self x _).countP_le
      omega
    rw [hsort, List.take_append, List.mem_append]
    obtain ⟨m, hm⟩ := Nat.exists_eq_add_of_lt hbound
    refine .inr ?_
    rw [show n - (rest.takeWhile (fun b => ¬ r x b)).length = m + 1 by omega, List.take_succ_cons]
    exact List.mem_cons_self

end Paging
