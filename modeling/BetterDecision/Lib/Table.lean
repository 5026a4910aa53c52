import Mathlib.Algebra.BigOperators.Group.List.Basic
import Mathlib.Algebra.Group.Pi.Lemmas
import Mathlib.Algebra.Group.Prod
import Mathlib.Algebra.Order.Group.Nat
import Mathlib.Data.Int.Order.Basic

/-!
# Keyed tables

A table holds rows under ids. An id is handed out once, by `insert`, and is
above every id in the table, so the rows lie in id order and no id comes back
after a deletion. Both facts are fields, so a table that breaks them cannot be
built and nothing downstream proves them again.

There are two ways to look at a table: one row at a time (`get?`), or all rows at
once (`total`). Every operation has one lemma for each.
-/

universe u v

/-- Rows of `α` under autoincremented ids. -/
@[ext] structure Table (α : Type u) where
  rows : List (Nat × α)
  /-- The id the next insert hands out. -/
  next : Nat
  /-- Rows lie in id order, one row an id. -/
  sorted : (rows.map Prod.fst).Pairwise (· < ·)
  /-- No row has an id not yet handed out. -/
  fresh : ∀ p ∈ rows, p.1 < next

namespace Table

variable {α : Type u} {M : Type v}

/-- A table no row was ever put into. Ids start at 1. -/
@[grind] def empty : Table α := ⟨[], 1, by simp, by simp⟩

/-- The row under an id. -/
@[grind] def get? (t : Table α) (i : Nat) : Option α := (t.rows.find? (fun p => p.1 == i)).map Prod.snd

/-- Rewrite every row, ids untouched. -/
@[grind] def mapRows (t : Table α) (f : Nat → α → α) : Table α where
  rows := t.rows.map (fun p => (p.1, f p.1 p.2))
  next := t.next
  sorted := by simpa [List.map_map, Function.comp_def] using t.sorted
  fresh := by
    intro p hp
    obtain ⟨q, hq, rfl⟩ := List.mem_map.mp hp
    exact t.fresh q hq

/-- Rewrite the row under an id, if there is one. -/
@[grind] def modify (t : Table α) (i : Nat) (f : α → α) : Table α :=
  t.mapRows (fun j a => if j = i then f a else a)

/-- Add a row under the next id. -/
@[grind] def insert (t : Table α) (a : α) : Table α where
  rows := t.rows ++ [(t.next, a)]
  next := t.next + 1
  sorted := by
    rw [List.map_append, List.pairwise_append]
    refine ⟨t.sorted, by simp, ?_⟩
    intro i hi j hj
    obtain ⟨p, hp, rfl⟩ := List.mem_map.mp hi
    obtain rfl : j = t.next := by simpa using hj
    exact t.fresh p hp
  fresh := by
    intro p hp
    rcases List.mem_append.mp hp with hp | hp
    · exact Nat.lt_succ_of_lt (t.fresh p hp)
    · obtain rfl : p = (t.next, a) := by simpa using hp
      exact Nat.lt_succ_self _

/-- Drop the rows whose id is `doomed`. -/
@[grind] def remove (t : Table α) (doomed : Nat → Bool) : Table α where
  rows := t.rows.filter (fun p => !doomed p.1)
  next := t.next
  sorted := t.sorted.sublist (List.filter_sublist.map Prod.fst)
  fresh := fun p hp => t.fresh p (List.mem_of_mem_filter hp)

/-- The rows that pass a test, in id order. -/
@[grind] def select (t : Table α) (test : Nat → α → Bool) : List (Nat × α) :=
  t.rows.filter (fun p => test p.1 p.2)

/-- `f` summed over all rows. -/
@[grind] def total [AddCommMonoid M] (t : Table α) (f : Nat → α → M) : M :=
  (t.rows.map (fun p => f p.1 p.2)).sum

/-! ## One row at a time -/

/-- **Looking a row up and finding it among the rows are the same.** -/
theorem mem_rows {t : Table α} {i : Nat} {a : α} : (i, a) ∈ t.rows ↔ t.get? i = some a := by
  obtain ⟨rows, next, sorted, fresh⟩ := t
  simp only [get?]
  clear fresh
  induction rows with
  | nil => simp
  | cons q qs ih =>
    rw [List.map_cons, List.pairwise_cons] at sorted
    obtain ⟨hq, hqs⟩ := sorted
    by_cases h : q.1 = i
    · subst h
      simp only [List.mem_cons, List.find?_cons, beq_self_eq_true, Option.map_some, Option.some.injEq]
      constructor
      · rintro (he | hmem)
        · rw [← he]
        · exact absurd (hq _ (List.mem_map_of_mem hmem)) (lt_irrefl _)
      · rintro rfl
        exact .inl rfl
    · have hne : (i, a) ≠ q := fun he => h (by rw [← he])
      simp only [List.mem_cons, hne, false_or, List.find?_cons, beq_eq_false_iff_ne.mpr h, ih hqs]

theorem get?_lt_next {t : Table α} {i : Nat} {a : α} (h : t.get? i = some a) : i < t.next :=
  t.fresh _ (mem_rows.mpr h)

@[simp] theorem get?_next (t : Table α) : t.get? t.next = none := by
  rcases h : t.get? t.next with _ | a
  · rfl
  · exact absurd (get?_lt_next h) (lt_irrefl _)

@[simp] theorem get?_empty (i : Nat) : (empty : Table α).get? i = none := rfl

@[simp] theorem get?_mapRows (t : Table α) (f : Nat → α → α) (i : Nat) :
    (t.mapRows f).get? i = (t.get? i).map (f i) := by
  simp only [get?, mapRows, List.find?_map, Option.map_map]
  rcases h : t.rows.find? (fun p => p.1 == i) with _ | p
  · simp [Function.comp_def, h]
  · have : p.1 = i := by simpa using List.find?_some h
    simp [Function.comp_def, h, this]

/-- A rewrite that changes no row changes nothing. -/
theorem mapRows_eq_self {t : Table α} {f : Nat → α → α} (h : ∀ i a, t.get? i = some a → f i a = a) :
    t.mapRows f = t := by
  refine Table.ext ?_ rfl
  refine (List.map_congr_left (g := id) fun p hp => ?_).trans (List.map_id _)
  exact Prod.ext rfl (h p.1 p.2 (mem_rows.mp hp))

theorem mapRows_congr {t : Table α} {f g : Nat → α → α} (h : ∀ i a, t.get? i = some a → f i a = g i a) :
    t.mapRows f = t.mapRows g := by
  refine Table.ext ?_ rfl
  exact List.map_congr_left fun p hp => Prod.ext rfl (h p.1 p.2 (mem_rows.mp hp))

theorem get?_modify (t : Table α) (i j : Nat) (f : α → α) :
    (t.modify i f).get? j = if j = i then (t.get? j).map f else t.get? j := by
  rw [modify, get?_mapRows]
  by_cases h : j = i
  · simp only [h, if_pos]
  · simp only [h, if_false, Option.map_id']

theorem get?_modify_self {t : Table α} {i : Nat} {a : α} {f : α → α} (h : t.get? i = some a) :
    (t.modify i f).get? i = some (f a) := by
  rw [get?_modify, if_pos rfl, h, Option.map_some]

theorem get?_modify_of_ne {t : Table α} {i j : Nat} {f : α → α} (h : j ≠ i) :
    (t.modify i f).get? j = t.get? j := by
  rw [get?_modify, if_neg h]

/-- A row of a modified table is an old row, rewritten if it is the one under `i`. -/
theorem get?_modify_eq_some {t : Table α} {i j : Nat} {f : α → α} {b : α} :
    (t.modify i f).get? j = some b ↔ ∃ a, t.get? j = some a ∧ b = if j = i then f a else a := by
  rw [modify, get?_mapRows, Option.map_eq_some_iff]
  simp only [eq_comm]

theorem get?_insert (t : Table α) (a : α) (i : Nat) :
    (t.insert a).get? i = if i = t.next then some a else t.get? i := by
  by_cases h : i = t.next
  · subst h
    rw [if_pos rfl, ← mem_rows]
    exact List.mem_append_right _ (List.mem_singleton_self _)
  · rw [if_neg h]
    simp only [get?, insert, List.find?_append]
    simp [Ne.symm h]

theorem get?_insert_of_some {t : Table α} {a b : α} {i : Nat} (h : t.get? i = some b) :
    (t.insert a).get? i = some b := by
  rw [get?_insert, if_neg (get?_lt_next h).ne, h]

theorem get?_remove (t : Table α) (doomed : Nat → Bool) (i : Nat) :
    (t.remove doomed).get? i = if doomed i then none else t.get? i := by
  rcases h : (t.remove doomed).get? i with _ | a
  · by_cases hd : doomed i
    · rw [if_pos hd]
    · rw [if_neg hd]
      rcases h' : t.get? i with _ | b
      · rfl
      · have : (i, b) ∈ (t.remove doomed).rows :=
          List.mem_filter.mpr ⟨mem_rows.mpr h', by simpa using hd⟩
        rw [mem_rows, h] at this
        cases this
  · obtain ⟨hmem, hd⟩ := List.mem_filter.mp (mem_rows.mpr h)
    have hd' : doomed i = false := by simpa using hd
    rw [hd', if_neg (by simp), mem_rows.mp hmem]

@[simp] theorem mem_select {t : Table α} {test : Nat → α → Bool} {i : Nat} {a : α} :
    (i, a) ∈ t.select test ↔ t.get? i = some a ∧ test i a := by
  rw [select, List.mem_filter, mem_rows]

theorem filter_select (t : Table α) (test test' : Nat → α → Bool) :
    (t.select test).filter (fun p => test' p.1 p.2) = t.select (fun i a => test i a && test' i a) := by
  rw [select, select, List.filter_filter]
  exact List.filter_congr fun p _ => Bool.and_comm _ _

/-- Rows filtered twice are the rows with what the result has in common. -/
theorem filter_select_eq {t : Table α} {test test' : Nat → α → Bool} {p : Nat × α → Bool}
    (h : ∀ i a, t.get? i = some a → ((i, a) ∈ (t.select test).filter p ↔ test' i a = true)) :
    (t.select test).filter p = t.select test' := by
  rw [select, select, List.filter_filter]
  refine List.filter_congr fun q hq => ?_
  have hmem : q ∈ (t.select test).filter p ↔ test' q.1 q.2 = true := h q.1 q.2 (mem_rows.mp hq)
  rw [Bool.eq_iff_iff, ← hmem, List.mem_filter, select, List.mem_filter, Bool.and_eq_true]
  exact ⟨fun h => ⟨⟨hq, h.2⟩, h.1⟩, fun h => ⟨h.2, h.1.2⟩⟩

@[simp] theorem next_mapRows (t : Table α) (f : Nat → α → α) : (t.mapRows f).next = t.next := rfl
@[simp] theorem next_modify (t : Table α) (i : Nat) (f : α → α) : (t.modify i f).next = t.next := rfl
@[simp] theorem next_insert (t : Table α) (a : α) : (t.insert a).next = t.next + 1 := rfl
@[simp] theorem next_remove (t : Table α) (doomed : Nat → Bool) : (t.remove doomed).next = t.next := rfl

theorem mapRows_insert (t : Table α) (a : α) (f : Nat → α → α) :
    (t.insert a).mapRows f = (t.mapRows f).insert (f t.next a) := by
  refine Table.ext ?_ rfl
  simp [mapRows, insert]

/-- Rewriting the row just added is adding it rewritten. -/
theorem modify_insert_next (t : Table α) (a : α) (f : α → α) :
    (t.insert a).modify t.next f = t.insert (f a) := by
  have hold : t.modify t.next f = t :=
    mapRows_eq_self fun i b hb => if_neg (get?_lt_next hb).ne
  rw [modify, mapRows_insert, if_pos rfl]
  exact congrArg (·.insert (f a)) hold

theorem modify_insert_of_ne {t : Table α} {a : α} {i : Nat} {f : α → α} (h : t.next ≠ i) :
    (t.insert a).modify i f = (t.modify i f).insert a := by
  rw [modify, mapRows_insert, if_neg h]
  rfl

/-- Rewriting rows one after the other to values that are settled the first time. -/
theorem foldl_modify (f : α → α) (hf : ∀ a, f (f a) = f a) (ids : List Nat) (t : Table α) :
    ids.foldl (fun t i => t.modify i f) t = t.mapRows (fun i a => if i ∈ ids then f a else a) := by
  induction ids generalizing t with
  | nil => exact (mapRows_eq_self (by simp)).symm
  | cons k ids ih =>
    rw [List.foldl_cons, ih]
    refine Table.ext ?_ rfl
    simp only [mapRows, modify, List.map_map]
    refine List.map_congr_left fun p _ => Prod.ext rfl ?_
    by_cases hk : p.1 = k <;> by_cases hm : p.1 ∈ ids <;> simp [hk, hm, hf]

/-- Rows written over one after the other: one that every write to it leaves at `a` stays there. -/
theorem get?_overwrite_of_eq {i : Nat} {a : α} (writes : List (Nat × α)) (hagree : ∀ w ∈ writes, w.1 = i → w.2 = a)
    {t : Table α} (h : t.get? i = some a) :
    (writes.foldl (fun t w => t.modify w.1 (fun _ => w.2)) t).get? i = some a := by
  induction writes generalizing t with
  | nil => exact h
  | cons w writes ih =>
    refine ih (fun v hv => hagree v (List.mem_cons_of_mem _ hv)) ?_
    by_cases hw : i = w.1
    · subst hw
      rw [get?_modify_self h, hagree w List.mem_cons_self rfl]
    · rw [get?_modify_of_ne hw, h]

/-- A row written over at all ends as the writes to it agree. -/
theorem get?_overwrite {i : Nat} {a b : α} (writes : List (Nat × α)) (hagree : ∀ w ∈ writes, w.1 = i → w.2 = a)
    (hwritten : ∃ w ∈ writes, w.1 = i) {t : Table α} (h : t.get? i = some b) :
    (writes.foldl (fun t w => t.modify w.1 (fun _ => w.2)) t).get? i = some a := by
  induction writes generalizing t with
  | nil =>
    obtain ⟨w, hw, -⟩ := hwritten
    cases hw
  | cons w writes ih =>
    have hrest : ∀ v ∈ writes, v.1 = i → v.2 = a := fun v hv => hagree v (List.mem_cons_of_mem _ hv)
    by_cases hw : w.1 = i
    · subst hw
      refine get?_overwrite_of_eq writes hrest ?_
      rw [get?_modify_self h, hagree w List.mem_cons_self rfl]
    · obtain ⟨v, hv, hvi⟩ := hwritten
      rcases List.mem_cons.mp hv with rfl | hv
      · exact absurd hvi hw
      · refine ih hrest ⟨v, hv, hvi⟩ ?_
        rw [get?_modify_of_ne (Ne.symm hw), h]

theorem select_insert (t : Table α) (a : α) (test : Nat → α → Bool) :
    (t.insert a).select test = t.select test ++ if test t.next a then [(t.next, a)] else [] := by
  rw [select, select, insert, List.filter_append]
  by_cases h : test t.next a <;> simp [h]

theorem select_mapRows {t : Table α} {f : Nat → α → α} {test : Nat → α → Bool}
    (h : ∀ i a, t.get? i = some a → test i (f i a) = test i a) :
    (t.mapRows f).select test = (t.select test).map (fun p => (p.1, f p.1 p.2)) := by
  rw [select, select, mapRows, List.filter_map]
  congr 1
  exact List.filter_congr fun p hp => h p.1 p.2 (mem_rows.mp hp)

/-! ## Rows added one after the other -/

theorem get?_of_next_le {t : Table α} {i : Nat} (h : t.next ≤ i) : t.get? i = none := by
  rcases hi : t.get? i with _ | a
  · rfl
  · exact absurd (get?_lt_next hi) (not_lt.mpr h)

theorem get?_insertAll_of_some {β : Type v} (f : β → α) {i : Nat} {a : α} (xs : List β) {t : Table α}
    (h : t.get? i = some a) : (xs.foldl (fun t x => t.insert (f x)) t).get? i = some a := by
  induction xs generalizing t with
  | nil => exact h
  | cons x xs ih => exact ih (get?_insert_of_some h)

/-- The rows added come under the next ids, in order. -/
theorem get?_insertAll {β : Type v} (f : β → α) (xs : List β) (t : Table α) (k : Nat) :
    (xs.foldl (fun t x => t.insert (f x)) t).get? (t.next + k) = xs[k]?.map f := by
  induction xs generalizing t k with
  | nil => exact get?_of_next_le (Nat.le_add_right _ _)
  | cons x xs ih =>
    cases k with
    | zero => exact get?_insertAll_of_some f xs (by rw [Nat.add_zero, get?_insert, if_pos rfl])
    | succ k =>
      have hnext : t.next + (k + 1) = (t.insert (f x)).next + k := by rw [next_insert]; omega
      rw [hnext]
      exact ih _ k

theorem next_insertAll {β : Type v} (f : β → α) (xs : List β) (t : Table α) :
    (xs.foldl (fun t x => t.insert (f x)) t).next = t.next + xs.length := by
  induction xs generalizing t with
  | nil => rfl
  | cons x xs ih =>
    rw [List.foldl_cons, ih, next_insert, List.length_cons]
    omega

/-! ## All rows at once -/

section Total

variable [AddCommMonoid M]

/-- A total depends on nothing but the rows that are there. -/
theorem total_congr {t : Table α} {f g : Nat → α → M}
    (h : ∀ i a, t.get? i = some a → f i a = g i a) : t.total f = t.total g := by
  rw [total, total]
  congr 1
  exact List.map_congr_left fun p hp => h p.1 p.2 (mem_rows.mp hp)

@[simp] theorem total_empty (f : Nat → α → M) : (empty : Table α).total f = 0 := rfl

@[simp] theorem total_insert (t : Table α) (a : α) (f : Nat → α → M) :
    (t.insert a).total f = t.total f + f t.next a := by
  simp [total, insert]

@[simp] theorem total_mapRows (t : Table α) (g : Nat → α → α) (f : Nat → α → M) :
    (t.mapRows g).total f = t.total (fun i a => f i (g i a)) := by
  simp [total, mapRows, Function.comp_def]

theorem total_remove (t : Table α) (doomed : Nat → Bool) (f : Nat → α → M) :
    (t.remove doomed).total f = t.total (fun i a => if doomed i then 0 else f i a) := by
  simp only [total, remove]
  induction t.rows with
  | nil => rfl
  | cons q qs ih =>
    by_cases h : doomed q.1 <;> simp [h, ih]

theorem total_zero (t : Table α) : t.total (fun _ _ => (0 : M)) = 0 := by
  simp [total]

theorem total_add (t : Table α) (f g : Nat → α → M) :
    t.total (fun i a => f i a + g i a) = t.total f + t.total g := by
  simp only [total]
  induction t.rows with
  | nil => simp
  | cons q qs ih => simp only [List.map_cons, List.sum_cons, ih]; exact add_add_add_comm _ _ _ _

/-- The one row under `i`, on its own. -/
theorem total_single {t : Table α} {i : Nat} {a : α} (h : t.get? i = some a) (x : M) :
    t.total (fun j _ => if j = i then x else 0) = x := by
  have hmem := mem_rows.mpr h
  have hs := t.sorted
  simp only [total]
  generalize t.rows = rows at hmem hs
  induction rows with
  | nil => cases hmem
  | cons q qs ih =>
    rw [List.map_cons, List.pairwise_cons] at hs
    rcases List.mem_cons.mp hmem with rfl | hmem
    · have hrest : ∀ p ∈ qs, ¬ p.1 = i := fun p hp he =>
        absurd (hs.1 p.1 (List.mem_map_of_mem hp)) (by simp [he])
      rw [List.map_cons, List.sum_cons, if_pos rfl,
        List.map_congr_left (g := fun _ => 0) fun p hp => if_neg (hrest p hp)]
      simp
    · have hne : ¬ q.1 = i := fun he =>
        absurd (hs.1 i (List.mem_map.mpr ⟨_, hmem, rfl⟩)) (by simp [he])
      rw [List.map_cons, List.sum_cons, if_neg hne, ih hmem hs.2, zero_add]

end Total

/-- The rows under some ids, one amount each. -/
theorem total_contains [AddCommMonoid M] {t : Table α} {ids : List Nat} (hnodup : ids.Nodup)
    (hin : ∀ i ∈ ids, ∃ a, t.get? i = some a) (x : M) :
    t.total (fun i _ => if ids.contains i then x else 0) = ids.length • x := by
  induction ids with
  | nil => simpa using total_zero t
  | cons k ids ih =>
    obtain ⟨hk, hnodup⟩ := List.nodup_cons.mp hnodup
    obtain ⟨a, ha⟩ := hin k (List.mem_cons_self ..)
    have hrest := ih hnodup fun i hi => hin i (List.mem_cons_of_mem _ hi)
    rw [List.length_cons, succ_nsmul, ← hrest]
    refine Eq.trans ?_ (congrArg (_ + ·) (total_single ha x))
    rw [← total_add]
    refine total_congr fun i _ _ => ?_
    by_cases hi : i = k
    · subst hi
      simp [hk]
    · simp [hi]

/-- Summing the rows that pass a test. -/
theorem sum_select [AddCommMonoid M] (t : Table α) (test : Nat → α → Bool) (f : Nat → α → M) :
    ((t.select test).map (fun p => f p.1 p.2)).sum = t.total (fun i a => if test i a then f i a else 0) := by
  simp only [select, total]
  induction t.rows with
  | nil => rfl
  | cons q qs ih =>
    by_cases h : test q.1 q.2 <;> simp [h, ih]

theorem length_select (t : Table α) (test : Nat → α → Bool) :
    ((t.select test).length : Int) = t.total (fun i a => if test i a then 1 else 0) := by
  rw [← sum_select t test (fun _ _ => (1 : Int))]
  simp

/-- What respects sums respects totals. -/
theorem map_total {N : Type*} [AddCommMonoid M] [AddCommMonoid N] (φ : M →+ N) (t : Table α)
    (f : Nat → α → M) : φ (t.total f) = t.total (fun i a => φ (f i a)) := by
  rw [total, map_list_sum, List.map_map]
  rfl

theorem total_fst {N : Type*} [AddCommMonoid M] [AddCommMonoid N] (t : Table α) (f : Nat → α → M × N) :
    (t.total f).1 = t.total (fun i a => (f i a).1) := map_total (AddMonoidHom.fst M N) t f

theorem total_snd {N : Type*} [AddCommMonoid M] [AddCommMonoid N] (t : Table α) (f : Nat → α → M × N) :
    (t.total f).2 = t.total (fun i a => (f i a).2) := map_total (AddMonoidHom.snd M N) t f

theorem total_apply {ι : Type*} {N : ι → Type*} [∀ x, AddCommMonoid (N x)] (t : Table α)
    (f : Nat → α → ∀ x, N x) (x : ι) : t.total f x = t.total (fun i a => f i a x) :=
  map_total (Pi.evalAddMonoidHom N x) t f

/-- A count of rows is positive iff one is there to count. -/
theorem total_ite_pos (t : Table α) (test : Nat → α → Bool) :
    0 < t.total (fun i a => if test i a then (1 : Int) else 0) ↔
      ∃ i a, t.get? i = some a ∧ test i a = true := by
  rw [← length_select, Int.natCast_pos, List.length_pos_iff_exists_mem]
  constructor
  · rintro ⟨⟨i, a⟩, h⟩
    exact ⟨i, a, mem_select.mp h⟩
  · rintro ⟨i, a, h⟩
    exact ⟨(i, a), mem_select.mpr h⟩

theorem total_ite_nonneg (t : Table α) (test : Nat → α → Bool) :
    0 ≤ t.total (fun i a => if test i a then (1 : Int) else 0) := by
  rw [← length_select]
  exact Int.natCast_nonneg _

section TotalSub

variable [AddCommGroup M]

theorem total_sub (t : Table α) (f g : Nat → α → M) :
    t.total (fun i a => f i a - g i a) = t.total f - t.total g := by
  have h := total_add t (fun i a => f i a - g i a) g
  simp only [sub_add_cancel] at h
  exact eq_sub_of_add_eq h.symm

/-- **Rewriting a row moves a total by the new row less the old one.** -/
theorem total_modify {t : Table α} {i : Nat} {a : α} (h : t.get? i = some a) (g : α → α)
    (f : Nat → α → M) : (t.modify i g).total f = t.total f + (f i (g a) - f i a) := by
  rw [modify, total_mapRows, ← total_single h (f i (g a) - f i a), ← total_add]
  refine total_congr fun j c hc => ?_
  by_cases hj : j = i
  · subst hj
    obtain rfl : a = c := by rw [h] at hc; exact Option.some.inj hc
    simp
  · simp [hj]

end TotalSub

/-! ## How many rows pass a test -/

section Count

variable {t : Table α}

/-- A weaker test passes as many rows. -/
theorem length_select_mono {test test' : Nat → α → Bool} (h : ∀ i a, t.get? i = some a → test i a → test' i a) :
    (t.select test).length ≤ (t.select test').length := by
  have hfilter : (t.select test').filter (fun q => test q.1 q.2) = t.select test := by
    refine filter_select_eq fun i a ha => ?_
    rw [List.mem_filter, mem_select]
    exact ⟨fun h' => h'.2, fun h' => ⟨⟨ha, h i a ha h'⟩, h'⟩⟩
  rw [← hfilter]
  exact List.length_filter_le _ _

theorem length_select_insert_le (a : α) (test : Nat → α → Bool) :
    ((t.insert a).select test).length ≤ (t.select test).length + 1 := by
  rw [select_insert, List.length_append]
  split <;> simp

theorem length_select_mapRows {f : Nat → α → α} {test : Nat → α → Bool}
    (h : ∀ i a, t.get? i = some a → test i (f i a) = test i a) :
    ((t.mapRows f).select test).length = (t.select test).length := by
  rw [select_mapRows h, List.length_map]

/-- One row rewritten is one row more at most. -/
theorem length_select_modify_le (i : Nat) (f : α → α) (test : Nat → α → Bool) :
    ((t.modify i f).select test).length ≤ (t.select test).length + 1 := by
  rcases hi : t.get? i with _ | a
  · have hsame : t.modify i f = t := mapRows_eq_self fun j b hb => by
      rw [if_neg]
      rintro rfl
      rw [hi] at hb
      cases hb
    rw [hsame]
    exact Nat.le_succ _
  · have htotal := total_modify hi f (fun j b => if test j b then (1 : Int) else 0)
    have hlen := t.length_select test
    have hlen' := (t.modify i f).length_select test
    rw [htotal] at hlen'
    have hone : (if test i (f a) then (1 : Int) else 0) - (if test i a then 1 else 0) ≤ 1 := by
      split <;> split <;> omega
    omega

/-- One row rewritten that passes only if it did is no row more. -/
theorem length_select_modify_of_imp {i : Nat} {f : α → α} {test : Nat → α → Bool}
    (h : ∀ a, t.get? i = some a → test i (f a) → test i a) :
    ((t.modify i f).select test).length ≤ (t.select test).length := by
  have hcomap : ((t.modify i f).select test).length =
      (t.select (fun j a => test j (if j = i then f a else a))).length := by
    have := (t.modify i f).length_select test
    have := t.length_select (fun j a => test j (if j = i then f a else a))
    rw [modify, total_mapRows] at *
    omega
  rw [hcomap]
  refine length_select_mono fun j a ha htest => ?_
  by_cases hj : j = i
  · subst hj
    exact h a ha (by simpa using htest)
  · simpa [hj] using htest

theorem length_select_remove_le (doomed : Nat → Bool) (test : Nat → α → Bool) :
    ((t.remove doomed).select test).length ≤ (t.select test).length := by
  have hsub : ((t.remove doomed).select test).Sublist (t.select test) := List.filter_sublist.filter _
  exact hsub.length_le

end Count

end Table
