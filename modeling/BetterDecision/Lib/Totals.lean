import Mathlib.Data.List.Induction
import BetterDecision.Lib.Keyed

/-!
# Groups summed row by row

A dictionary of running totals, as `totals[k] = totals.get(k, 0) + x` fills it: its keys
are in the order their first rows come. `mem_totalsByKey` says what is in it, which is what
`groupSum` has.
-/

universe u v

variable {α : Type u} {κ : Type v} [DecidableEq κ]

/-- `totals[k] = totals.get(k, 0) + x`. -/
@[grind] def addTo (totals : List (κ × Int)) (k : κ) (x : Int) : List (κ × Int) :=
  if totals.any (fun t => t.1 = k) then totals.map (fun t => if t.1 = k then (t.1, t.2 + x) else t)
  else totals ++ [(k, x)]

@[grind] def totalsByKey (key : α → κ) (amount : α → Int) (rows : List α) : List (κ × Int) :=
  rows.foldl (fun totals a => addTo totals (key a) (amount a)) []

theorem mem_addTo {totals : List (κ × Int)} {k j : κ} {x y : Int} :
    (j, y) ∈ addTo totals k x ↔
      (j ≠ k ∧ (j, y) ∈ totals) ∨
      (j = k ∧ ((∃ old, (k, old) ∈ totals ∧ y = old + x) ∨ ((∀ old, (k, old) ∉ totals) ∧ y = x))) := by
  rw [addTo]
  split_ifs with hany
  · obtain ⟨⟨k', was⟩, hwas, hk⟩ := List.any_eq_true.mp hany
    obtain rfl : k' = k := of_decide_eq_true hk
    rw [List.mem_map]
    constructor
    · rintro ⟨⟨i, old⟩, hold, heq⟩
      dsimp only at heq
      split_ifs at heq with hi
      · cases heq
        exact Or.inr ⟨hi, Or.inl ⟨old, hi ▸ hold, rfl⟩⟩
      · cases heq
        exact Or.inl ⟨hi, hold⟩
    · rintro (⟨hj, hmem⟩ | ⟨rfl, ⟨old, hold, rfl⟩ | ⟨hnone, -⟩⟩)
      · exact ⟨(j, y), hmem, if_neg hj⟩
      · exact ⟨(j, old), hold, if_pos rfl⟩
      · exact absurd hwas (hnone was)
  · have hnone : ∀ old, (k, old) ∉ totals := fun old hold =>
      hany (List.any_eq_true.mpr ⟨(k, old), hold, decide_eq_true rfl⟩)
    rw [List.mem_append, List.mem_singleton, Prod.mk.injEq]
    constructor
    · rintro (hmem | ⟨rfl, rfl⟩)
      · exact Or.inl ⟨fun hj => hnone y (hj ▸ hmem), hmem⟩
      · exact Or.inr ⟨rfl, Or.inr ⟨hnone, rfl⟩⟩
    · rintro (⟨-, hmem⟩ | ⟨rfl, ⟨old, hold, -⟩ | ⟨-, rfl⟩⟩)
      · exact Or.inl hmem
      · exact absurd hold (hnone old)
      · exact Or.inr ⟨rfl, rfl⟩

section Rows

variable {key : α → κ} {amount : α → Int} {rows : List α}

theorem sumAt_concat (rows : List α) (a : α) (k : κ) :
    sumAt key amount (rows ++ [a]) k = sumAt key amount rows k + if key a = k then amount a else 0 := by
  rw [sumAt, List.filter_append, List.map_append, List.sum_append, ← sumAt]
  by_cases h : key a = k <;> simp [h]

/-- **Each key that occurs, with the sum of its rows.** -/
theorem mem_totalsByKey {k : κ} {x : Int} :
    (k, x) ∈ totalsByKey key amount rows ↔ k ∈ rows.map key ∧ x = sumAt key amount rows k := by
  induction rows using List.reverseRecOn generalizing k x with
  | nil => simp [totalsByKey]
  | append_singleton rows a ih =>
    have hstep : totalsByKey key amount (rows ++ [a]) = addTo (totalsByKey key amount rows) (key a) (amount a) := by
      rw [totalsByKey, List.foldl_append, ← totalsByKey]
      rfl
    rw [hstep, mem_addTo, sumAt_concat, List.map_append, List.mem_append]
    by_cases hk : k = key a
    · subst hk
      have hnone : (∀ old, (key a, old) ∉ totalsByKey key amount rows) ↔ key a ∉ rows.map key :=
        ⟨fun h hmem => h _ (ih.mpr ⟨hmem, rfl⟩), fun h old hold => h (ih.mp hold).1⟩
      rw [if_pos rfl, hnone]
      constructor
      · rintro (⟨hne, -⟩ | ⟨-, ⟨old, hold, rfl⟩ | ⟨habsent, rfl⟩⟩)
        · exact absurd rfl hne
        · exact ⟨Or.inr (by simp), by rw [(ih.mp hold).2]⟩
        · exact ⟨Or.inr (by simp), by rw [sumAt_of_not_mem habsent, zero_add]⟩
      · rintro ⟨-, rfl⟩
        refine Or.inr ⟨rfl, ?_⟩
        by_cases hmem : key a ∈ rows.map key
        · exact Or.inl ⟨_, ih.mpr ⟨hmem, rfl⟩, rfl⟩
        · exact Or.inr ⟨hmem, by rw [sumAt_of_not_mem hmem, zero_add]⟩
    · rw [if_neg (Ne.symm hk), add_zero]
      have hmem : k ∈ [a].map key ↔ False := by simp [hk]
      rw [hmem, or_false, ← ih]
      constructor
      · rintro (⟨-, h⟩ | ⟨heq, -⟩)
        · exact h
        · exact absurd heq hk
      · exact fun h => Or.inl ⟨hk, h⟩

end Rows
