import BetterDecision.Lib.Table

/-!
# Transactions and their locks

A table of transactions, each with the locks it holds until it ends. A statement waits
while another transaction holds a lock it needs, so no two hold the same one
(`Exclusive`): what a transaction has locked, no other has.
-/

universe u v

namespace Table

variable {α : Type u} {κ : Type v} {locks : α → List κ} {t : Table α} {i : Nat} {a : α}

/-- A row other than `i` has a lock of the kind. -/
@[grind] def HeldBy (t : Table α) (locks : α → List κ) (i : Nat) (kind : κ → Prop) : Prop :=
  ∃ q ∈ t.rows, q.1 ≠ i ∧ ∃ k ∈ locks q.2, kind k

instance decidableHeldBy (t : Table α) (locks : α → List κ) (i : Nat) (kind : κ → Prop) [DecidablePred kind] :
    Decidable (t.HeldBy locks i kind) :=
  inferInstanceAs (Decidable (∃ q ∈ t.rows, q.1 ≠ i ∧ ∃ k ∈ locks q.2, kind k))

/-- No two rows have the same lock. -/
@[grind] def Exclusive (t : Table α) (locks : α → List κ) : Prop :=
  ∀ i j a b k, t.get? i = some a → t.get? j = some b → k ∈ locks a → k ∈ locks b → i = j

theorem not_mem_of_not_heldBy {kind : κ → Prop} (h : ¬ t.HeldBy locks i kind) {j : Nat} {b : α} {k : κ}
    (hj : t.get? j = some b) (hne : j ≠ i) (hk : kind k) : k ∉ locks b :=
  fun hmem => h ⟨(j, b), mem_rows.mpr hj, hne, k, hmem, hk⟩

theorem HeldBy.mono {kind kind' : κ → Prop} (h : t.HeldBy locks i kind) (himp : ∀ k, kind k → kind' k) :
    t.HeldBy locks i kind' := by
  obtain ⟨q, hq, hne, k, hk, hkind⟩ := h
  exact ⟨q, hq, hne, k, hk, himp k hkind⟩

/-- A row of a table with one more row is that one, or was there. -/
theorem get?_insert_cases {b c : α} (h : (t.insert b).get? i = some c) :
    (i = t.next ∧ c = b) ∨ (i ≠ t.next ∧ t.get? i = some c) := by
  rw [get?_insert] at h
  by_cases hi : i = t.next
  · rw [if_pos hi] at h
    exact .inl ⟨hi, (Option.some.inj h).symm⟩
  · rw [if_neg hi] at h
    exact .inr ⟨hi, h⟩

/-- A row of a table with more rows is one of them, or was there. -/
theorem get?_insertAll_cases {c : α} (xs : List α) (h : (xs.foldl insert t).get? i = some c) :
    t.get? i = some c ∨ c ∈ xs := by
  induction xs generalizing t with
  | nil => exact .inl h
  | cons x xs ih =>
    rcases ih h with h | h
    · rcases get?_insert_cases h with ⟨-, rfl⟩ | ⟨-, h⟩
      · exact .inr List.mem_cons_self
      · exact .inl h
    · exact .inr (List.mem_cons_of_mem _ h)

/-- A row of a table with one row rewritten is that one, or is as it was. -/
theorem get?_modify_cases {f : α → α} {j : Nat} {b : α} (hi : t.get? i = some a)
    (h : (t.modify i f).get? j = some b) : (j = i ∧ b = f a) ∨ (j ≠ i ∧ t.get? j = some b) := by
  obtain ⟨old, hold, rfl⟩ := get?_modify_eq_some.mp h
  by_cases hj : j = i
  · subst hj
    obtain rfl := Option.some.inj (hi.symm.trans hold)
    exact .inl ⟨rfl, if_pos rfl⟩
  · exact .inr ⟨hj, by rw [if_neg hj]; exact hold⟩

namespace Exclusive

theorem empty : (Table.empty : Table α).Exclusive locks := fun i j a b k ha => by cases ha

/-- A new row comes without locks. -/
theorem insert (h : t.Exclusive locks) (ha : locks a = []) : (t.insert a).Exclusive locks := by
  intro i j b c k hb hc hkb hkc
  rcases get?_insert_cases hb with ⟨-, rfl⟩ | ⟨-, hb⟩
  · rw [ha] at hkb
    cases hkb
  · rcases get?_insert_cases hc with ⟨-, rfl⟩ | ⟨-, hc⟩
    · rw [ha] at hkc
      cases hkc
    · exact h i j b c k hb hc hkb hkc

/-- A row may take the locks nobody else has. -/
theorem modify (h : t.Exclusive locks) (hi : t.get? i = some a) {f : α → α}
    (hnew : ∀ k ∈ locks (f a), k ∈ locks a ∨ ¬ t.HeldBy locks i (· = k)) : (t.modify i f).Exclusive locks := by
  have alone : ∀ j b k, j ≠ i → t.get? j = some b → k ∈ locks (f a) → k ∉ locks b := by
    intro j b k hj hb hk hkb
    rcases hnew k hk with hold | hfree
    · exact hj (h j i b a k hb hi hkb hold)
    · exact not_mem_of_not_heldBy hfree hb hj rfl hkb
  intro j l b c k hb hc hkb hkc
  rcases get?_modify_cases hi hb with ⟨rfl, rfl⟩ | ⟨hj, hb'⟩
  · rcases get?_modify_cases hi hc with ⟨rfl, rfl⟩ | ⟨hl, hc'⟩
    · rfl
    · exact absurd hkc (alone l c k hl hc' hkb)
  · rcases get?_modify_cases hi hc with ⟨rfl, rfl⟩ | ⟨-, hc'⟩
    · exact absurd hkb (alone j b k hj hb' hkc)
    · exact h j l b c k hb' hc' hkb hkc

end Exclusive

end Table
