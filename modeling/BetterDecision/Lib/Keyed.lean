import Mathlib.Algebra.Ring.Int.Defs
import Mathlib.Algebra.BigOperators.Group.List.Basic
import Mathlib.Data.Int.Order.Basic
import Mathlib.Data.List.Dedup

/-!
# Rows under a natural key

Rows kept in a list, no two with the same key: a primary key, or a unique
constraint. Under `Keyed`, looking a key up and finding the row in the list are the
same thing, and every write has one lemma. A list of pairs is read the same way with
`List.lookup`, a dictionary in the order it was filled.
-/

universe u v

variable {α : Type u} {κ : Type v}

/-- No two rows have the same key. -/
@[grind] def Keyed (key : α → κ) (rows : List α) : Prop := (rows.map key).Nodup

instance [DecidableEq κ] (key : α → κ) (rows : List α) : Decidable (Keyed key rows) :=
  inferInstanceAs (Decidable (rows.map key).Nodup)

/-- The first row under a key. -/
@[grind] def rowAt [DecidableEq κ] (key : α → κ) (rows : List α) (k : κ) : Option α :=
  rows.find? (fun a => key a == k)

theorem key_of_rowAt [DecidableEq κ] {key : α → κ} {rows : List α} {k : κ} {a : α}
    (h : rowAt key rows k = some a) : key a = k := by
  simpa using List.find?_some h

theorem mem_of_rowAt [DecidableEq κ] {key : α → κ} {rows : List α} {k : κ} {a : α}
    (h : rowAt key rows k = some a) : a ∈ rows := List.mem_of_find?_eq_some h

theorem rowAt_eq_none [DecidableEq κ] {key : α → κ} {rows : List α} {k : κ} :
    rowAt key rows k = none ↔ ∀ a ∈ rows, key a ≠ k := by
  simp [rowAt]

@[simp] theorem rowAt_nil [DecidableEq κ] (key : α → κ) (k : κ) : rowAt key [] k = none := rfl

theorem rowAt_cons [DecidableEq κ] (key : α → κ) (a : α) (rows : List α) (k : κ) :
    rowAt key (a :: rows) k = if key a = k then some a else rowAt key rows k := by
  rw [rowAt, List.find?_cons]
  by_cases h : key a = k
  · simp [h]
  · rw [if_neg h, beq_eq_false_iff_ne.mpr h]
    rfl

/-- Rewrite the rows under a key. -/
@[grind] def rewriteAt [DecidableEq κ] (key : α → κ) (rows : List α) (k : κ) (f : α → α) : List α :=
  rows.map (fun a => if key a = k then f a else a)

theorem rowAt_rewriteAt [DecidableEq κ] {key : α → κ} {f : α → α} (hf : ∀ a, key (f a) = key a)
    (rows : List α) (k k' : κ) :
    rowAt key (rewriteAt key rows k f) k' =
      if k' = k then (rowAt key rows k').map f else rowAt key rows k' := by
  induction rows with
  | nil => simp [rewriteAt]
  | cons a rows ih =>
    have hkey : key (if key a = k then f a else a) = key a := by split <;> simp [hf]
    rw [rewriteAt, List.map_cons, ← rewriteAt, rowAt_cons, rowAt_cons, ih, hkey]
    by_cases ha : key a = k'
    · subst ha
      by_cases hk : key a = k <;> simp [hk]
    · simp [ha]

theorem rowAt_concat [DecidableEq κ] (key : α → κ) (rows : List α) (a : α) (k : κ) :
    rowAt key (rows ++ [a]) k = (rowAt key rows k).or (if key a = k then some a else none) := by
  simp only [rowAt, List.find?_append, List.find?_singleton, beq_iff_eq]

namespace Keyed

variable {key : α → κ} {rows : List α}

theorem nil : Keyed key [] := List.nodup_nil

/-- A row is told by its key. -/
theorem eq_of_key (h : Keyed key rows) {a b : α} (ha : a ∈ rows) (hb : b ∈ rows) (hk : key a = key b) :
    a = b := List.inj_on_of_nodup_map h ha hb hk

/-- **Looking a key up and finding the row are the same.** -/
theorem rowAt_eq_some [DecidableEq κ] (h : Keyed key rows) {k : κ} {a : α} :
    rowAt key rows k = some a ↔ a ∈ rows ∧ key a = k := by
  refine ⟨fun hr => ⟨mem_of_rowAt hr, key_of_rowAt hr⟩, fun ⟨ha, hk⟩ => ?_⟩
  rcases hr : rowAt key rows k with _ | b
  · exact absurd hk (rowAt_eq_none.mp hr a ha)
  · rw [h.eq_of_key (mem_of_rowAt hr) ha ((key_of_rowAt hr).trans hk.symm)]

theorem filter (h : Keyed key rows) (test : α → Bool) : Keyed key (rows.filter test) :=
  h.sublist (List.filter_sublist.map key)

/-- The rows with a row's key are that row. -/
theorem filter_key [DecidableEq κ] (h : Keyed key rows) {a : α} (ha : a ∈ rows) :
    rows.filter (fun b => key b = key a) = [a] := by
  induction rows with
  | nil => cases ha
  | cons b rows ih =>
    obtain ⟨hb, hrows⟩ := List.nodup_cons.mp h
    rcases List.mem_cons.mp ha with rfl | ha
    · have hnone : rows.filter (fun b => key b = key a) = [] :=
        List.filter_eq_nil_iff.mpr fun c hc hk => hb (List.mem_map.mpr ⟨c, hc, of_decide_eq_true hk⟩)
      rw [List.filter_cons_of_pos (by simp), hnone]
    · have hne : key b ≠ key a := fun hk => hb (List.mem_map.mpr ⟨a, ha, hk.symm⟩)
      rw [List.filter_cons_of_neg (by simpa using hne), ih hrows ha]

/-- Rows rewritten under their keys. -/
theorem map (h : Keyed key rows) {f : α → α} (hf : ∀ a ∈ rows, key (f a) = key a) :
    Keyed key (rows.map f) := by
  have : (rows.map f).map key = rows.map key := by
    rw [List.map_map]
    exact List.map_congr_left hf
  rw [Keyed, this]
  exact h

theorem rewriteAt [DecidableEq κ] (h : Keyed key rows) {f : α → α} (hf : ∀ a, key (f a) = key a) (k : κ) :
    Keyed key (rewriteAt key rows k f) :=
  h.map fun a _ => by split <;> simp [hf]

/-- A row with a key not yet taken, added at the end. -/
theorem concat (h : Keyed key rows) {a : α} (ha : ∀ b ∈ rows, key b ≠ key a) : Keyed key (rows ++ [a]) := by
  rw [Keyed, List.map_append, List.nodup_append]
  refine ⟨h, List.nodup_singleton _, ?_⟩
  rintro _ hx _ hy rfl
  obtain ⟨b, hb, hk⟩ := List.mem_map.mp hx
  exact ha b hb (hk.trans (by simpa using hy))

theorem cons (h : Keyed key rows) {a : α} (ha : ∀ b ∈ rows, key b ≠ key a) : Keyed key (a :: rows) := by
  rw [Keyed, List.map_cons, List.nodup_cons]
  refine ⟨fun hm => ?_, h⟩
  obtain ⟨b, hb, hk⟩ := List.mem_map.mp hm
  exact ha b hb hk

end Keyed

/-! ## Dictionaries -/

section Lookup

variable {l : List (κ × α)} {k : κ} {v : α}

section LawfulBEq

variable [BEq κ] [LawfulBEq κ]

theorem mem_of_lookup_eq_some (h : l.lookup k = some v) : (k, v) ∈ l := by
  obtain ⟨l₁, l₂, rfl, -⟩ := List.lookup_eq_some_iff.mp h
  exact List.mem_append_right _ List.mem_cons_self

theorem lookup_cons_if [DecidableEq κ] (k' : κ) : ((k, v) :: l).lookup k' = if k' = k then some v else l.lookup k' := by
  rw [List.lookup_cons]
  by_cases h : k' = k
  · rw [if_pos h, beq_iff_eq.mpr h]
  · rw [if_neg h, beq_eq_false_iff_ne.mpr h]

omit [LawfulBEq κ] in
/-- Values read through a function. -/
theorem lookup_map_snd {β : Type*} (f : α → β) : (l.map fun p => (p.1, f p.2)).lookup k = (l.lookup k).map f := by
  induction l with
  | nil => rfl
  | cons p l ih =>
    rw [List.map_cons, List.lookup_cons, List.lookup_cons, ih]
    cases k == p.1 <;> rfl

/-- The keys that have a value, with it. -/
theorem lookup_filterMap [DecidableEq κ] (f : κ → Option α) (keys : List κ) :
    (keys.filterMap fun k => (f k).map (k, ·)).lookup k = if k ∈ keys then f k else none := by
  induction keys with
  | nil => simp
  | cons i keys ih =>
    by_cases hk : k = i
    · subst hk
      rcases hf : f k with _ | v
      · rw [List.filterMap_cons_none (by rw [hf]; rfl), ih, hf, ite_self, ite_self]
      · rw [List.filterMap_cons_some (b := (k, v)) (by rw [hf]; rfl), lookup_cons_if, if_pos rfl, if_pos List.mem_cons_self]
    · have hmem : (k ∈ i :: keys) ↔ k ∈ keys := by simp [hk]
      simp only [hmem]
      rcases hf : f i with _ | v
      · rw [List.filterMap_cons_none (by rw [hf]; rfl), ih]
      · rw [List.filterMap_cons_some (b := (i, v)) (by rw [hf]; rfl), lookup_cons_if, if_neg hk, ih]

theorem lookup_eq_none_of_not_mem (h : ∀ v, (k, v) ∉ l) : l.lookup k = none := by
  rcases hl : l.lookup k with _ | v
  · rfl
  · exact absurd (mem_of_lookup_eq_some hl) (h v)

theorem exists_lookup_of_mem (h : (k, v) ∈ l) : ∃ v', l.lookup k = some v' :=
  Option.isSome_iff_exists.mp (List.lookup_isSome_iff.mpr ⟨(k, v), h, beq_self_eq_true k⟩)

/-- Under distinct keys the pair in the list is the one that is found. -/
theorem lookup_eq_some_of_mem (hkeys : (l.map Prod.fst).Nodup) (h : (k, v) ∈ l) : l.lookup k = some v := by
  obtain ⟨v', hv'⟩ := exists_lookup_of_mem h
  have heq := List.inj_on_of_nodup_map hkeys (mem_of_lookup_eq_some hv') h rfl
  rw [hv', (Prod.mk.inj heq).2]

end LawfulBEq

variable [DecidableEq κ]

omit α in
theorem sum_single {keys : List κ} (hkeys : keys.Nodup) (hk : k ∈ keys) {v : Int} :
    (keys.map (fun i => if i = k then v else 0)).sum = v := by
  induction keys with
  | nil => cases hk
  | cons i keys ih =>
    rw [List.nodup_cons] at hkeys
    rw [List.map_cons, List.sum_cons]
    by_cases hi : i = k
    · subst hi
      have hzero : keys.map (fun j => if j = i then v else 0) = keys.map (fun _ => 0) :=
        List.map_congr_left fun j hj => if_neg fun (hji : j = i) => hkeys.1 (hji ▸ hj)
      rw [if_pos rfl, hzero]
      simp
    · rw [if_neg hi, ih hkeys.2 ((List.mem_cons.mp hk).resolve_left fun h => hi h.symm), Int.zero_add]

/-- Read under every key of a list that has all of its keys, it sums to its total. -/
theorem sum_lookup {l : List (κ × Int)} {keys : List κ} (hl : (l.map Prod.fst).Nodup) (hkeys : keys.Nodup)
    (hsub : ∀ p ∈ l, p.1 ∈ keys) : (keys.map (fun k => (l.lookup k).getD 0)).sum = (l.map Prod.snd).sum := by
  induction l with
  | nil => simp
  | cons p l ih =>
    obtain ⟨k, v⟩ := p
    rw [List.map_cons, List.nodup_cons] at hl
    have hnone : l.lookup k = none :=
      lookup_eq_none_of_not_mem fun v hv => hl.1 (List.mem_map.mpr ⟨(k, v), hv, rfl⟩)
    have hsplit : ∀ i, (((k, v) :: l).lookup i).getD 0 = (if i = k then v else 0) + (l.lookup i).getD 0 := by
      intro i
      rw [List.lookup_cons]
      by_cases hi : i = k
      · subst hi
        simp [hnone]
      · rw [beq_eq_false_iff_ne.mpr hi, if_neg hi, Int.zero_add]
    simp only [hsplit]
    rw [List.sum_map_add, sum_single hkeys (hsub _ List.mem_cons_self), ih hl.2 fun q hq => hsub q (List.mem_cons_of_mem _ hq), List.map_cons,
      List.sum_cons]

end Lookup

/-! ## Grouping -/

section Group

variable [DecidableEq κ]

/-- `GROUP BY`: the sum of every group of rows. -/
@[grind] def groupSum (key : α → κ) (amount : α → Int) (rows : List α) : List (κ × Int) :=
  (rows.map key).dedup.map (fun k => (k, ((rows.filter (fun a => key a == k)).map amount).sum))

/-- **Rows that each belong to one key at most, summed key by key.** -/
theorem sum_fibers {f : α → Option κ} {keys : List κ} (hkeys : keys.Nodup) (amount : α → Int) (rows : List α) :
    (keys.map (fun k => ((rows.filter (fun a => f a == some k)).map amount).sum)).sum =
      ((rows.filter (fun a => (f a).any (fun k => keys.contains k))).map amount).sum := by
  induction rows with
  | nil => simp
  | cons a rows ih =>
    rcases hf : f a with _ | k₀
    · have hnone : ∀ k, (a :: rows).filter (fun a => f a == some k) = rows.filter (fun a => f a == some k) :=
        fun k => List.filter_cons_of_neg (by simp [hf])
      simp only [hnone]
      rw [ih, List.filter_cons_of_neg (by simp [hf])]
    · have hsplit : ∀ k, (((a :: rows).filter (fun a => f a == some k)).map amount).sum =
          (if k = k₀ then amount a else 0) + ((rows.filter (fun a => f a == some k)).map amount).sum := by
        intro k
        by_cases hk : k = k₀
        · rw [List.filter_cons_of_pos (by simp [hf, hk]), List.map_cons, List.sum_cons, if_pos hk]
        · rw [List.filter_cons_of_neg (by simp [hf, Ne.symm hk]), if_neg hk, Int.zero_add]
      simp only [hsplit]
      rw [List.sum_map_add, ih]
      by_cases hmem : k₀ ∈ keys
      · rw [sum_single hkeys hmem, List.filter_cons_of_pos (by simp [hf, hmem]), List.map_cons, List.sum_cons]
      · have hzero : keys.map (fun k => if k = k₀ then amount a else 0) = keys.map (fun _ => 0) :=
          List.map_congr_left fun k hk => if_neg fun (h : k = k₀) => hmem (h ▸ hk)
        rw [hzero, List.filter_cons_of_neg (by simp [hf, hmem])]
        simp

/-- **The groups that pass a test hold the rows that do.** -/
theorem sum_groupSum (key : α → κ) (amount : α → Int) (rows : List α) (test : κ → Bool) :
    (((groupSum key amount rows).filter (fun g => test g.1)).map Prod.snd).sum =
      ((rows.filter (fun a => test (key a))).map amount).sum := by
  have hkeys : ((rows.map key).dedup.filter test).Nodup := (List.nodup_dedup _).filter _
  have hgroups : ((groupSum key amount rows).filter (fun g => test g.1)).map Prod.snd =
      ((rows.map key).dedup.filter test).map (fun k => ((rows.filter (fun a => some (key a) == some k)).map amount).sum) := by
    unfold groupSum
    rw [List.filter_map, List.map_map]
    rfl
  rw [hgroups, sum_fibers hkeys]
  congr 2
  refine List.filter_congr fun a ha => ?_
  have hmem : key a ∈ (rows.map key).dedup := List.mem_dedup.mpr (List.mem_map_of_mem ha)
  by_cases ht : test (key a) = true
  · rw [Option.any_some, ht, List.contains_iff_mem]
    exact List.mem_filter.mpr ⟨hmem, ht⟩
  · have hnot : key a ∉ (rows.map key).dedup.filter test := fun h => ht (List.mem_filter.mp h).2
    simp only [Option.any_some, Bool.not_eq_true] at ht ⊢
    rw [ht, List.contains_eq_mem, decide_eq_false hnot]

/-- The sum of the rows with a key. -/
@[grind] def sumAt (key : α → κ) (amount : α → Int) (rows : List α) (k : κ) : Int :=
  ((rows.filter (fun a => key a == k)).map amount).sum

section Same

variable {key : α → κ} {amount : α → Int} {rows rows' : List α}

theorem mem_groupSum {k : κ} {v : Int} :
    (k, v) ∈ groupSum key amount rows ↔ k ∈ rows.map key ∧ v = sumAt key amount rows k := by
  unfold groupSum
  constructor
  · intro h
    obtain ⟨k', hk, heq⟩ := List.mem_map.mp h
    obtain ⟨rfl, rfl⟩ := Prod.mk.inj heq
    exact ⟨List.mem_dedup.mp hk, rfl⟩
  · rintro ⟨hk, rfl⟩
    exact List.mem_map.mpr ⟨k, List.mem_dedup.mpr hk, rfl⟩

theorem nodup_keys_groupSum : ((groupSum key amount rows).map Prod.fst).Nodup := by
  have hkeys : (groupSum key amount rows).map Prod.fst = (rows.map key).dedup := by
    unfold groupSum
    rw [List.map_map]
    exact List.map_id _
  rw [hkeys]
  exact List.nodup_dedup _

theorem sumAt_of_not_mem {k : κ} (h : k ∉ rows.map key) : sumAt key amount rows k = 0 := by
  have hnone : rows.filter (fun a => key a == k) = [] := by
    rw [List.filter_eq_nil_iff]
    intro a ha hk
    exact h (List.mem_map.mpr ⟨a, ha, beq_iff_eq.mp hk⟩)
  rw [sumAt, hnone]
  rfl

/-- The rows that pass a test and those that do not. -/
theorem sumAt_split (p : α → Bool) (rows : List α) (k : κ) :
    sumAt key amount rows k = sumAt key amount (rows.filter p) k + sumAt key amount (rows.filter (fun a => !p a)) k := by
  unfold sumAt
  rw [List.filter_comm _ p, List.filter_comm _ (fun a => !p a)]
  generalize rows.filter (fun a => key a == k) = group
  induction group with
  | nil => rfl
  | cons a group ih =>
    rw [List.map_cons, List.sum_cons, ih]
    by_cases hp : p a = true
    · rw [List.filter_cons_of_pos hp, List.filter_cons_of_neg (by simp [hp]), List.map_cons, List.sum_cons]
      omega
    · rw [List.filter_cons_of_neg hp, List.filter_cons_of_pos (by simpa using hp), List.map_cons, List.sum_cons]
      omega

/-- Two lists of rows have the same groups, in whatever order, iff they have the same keys and the same
sums under them. -/
theorem groupSum_perm_iff : (groupSum key amount rows).Perm (groupSum key amount rows') ↔
    ∀ k, (k ∈ rows.map key ↔ k ∈ rows'.map key) ∧ sumAt key amount rows k = sumAt key amount rows' k := by
  rw [List.perm_ext_iff_of_nodup nodup_keys_groupSum.of_map nodup_keys_groupSum.of_map]
  constructor
  · intro h k
    have hmem := h (k, sumAt key amount rows k)
    have hmem' := h (k, sumAt key amount rows' k)
    rw [mem_groupSum, mem_groupSum] at hmem hmem'
    by_cases hk : k ∈ rows.map key
    · obtain ⟨hk', heq⟩ := hmem.mp ⟨hk, rfl⟩
      exact ⟨iff_of_true hk hk', heq⟩
    · have hk' : k ∉ rows'.map key := fun hk' => hk (hmem'.mpr ⟨hk', rfl⟩).1
      exact ⟨iff_of_false hk hk', by rw [sumAt_of_not_mem hk, sumAt_of_not_mem hk']⟩
  · rintro h ⟨k, v⟩
    rw [mem_groupSum, mem_groupSum, (h k).1, (h k).2]

/-- Leaving rows out changes no group iff those left out come to nothing under each key, and leave no
group without a row. -/
theorem groupSum_filter_perm_iff (p : α → Bool) :
    (groupSum key amount rows).Perm (groupSum key amount (rows.filter p)) ↔
      ∀ k, sumAt key amount (rows.filter (fun a => !p a)) k = 0 ∧ (k ∈ rows.map key → k ∈ (rows.filter p).map key) := by
  rw [groupSum_perm_iff]
  refine forall_congr' fun k => ?_
  have hsub : k ∈ (rows.filter p).map key → k ∈ rows.map key := by
    intro hk
    obtain ⟨a, ha, rfl⟩ := List.mem_map.mp hk
    exact List.mem_map_of_mem (List.mem_of_mem_filter ha)
  rw [sumAt_split p rows k]
  constructor
  · rintro ⟨hkeys, hsum⟩
    exact ⟨by omega, hkeys.mp⟩
  · rintro ⟨hsum, hkeys⟩
    exact ⟨⟨hkeys, hsub⟩, by omega⟩

end Same

end Group
