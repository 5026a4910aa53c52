import BetterDecision.Proof.CategoryEdits
import BetterDecision.Proof.CategoryItems

/-!
# The tree and its rows over every run

The category side asks the same question as the rows do, by counting. `Uses` says what a
category is used for, whatever kind of row uses it, so a type change, a migration and a
delete are each one argument: what the new category has to take is what the counts were
taken over.

The tree and the floor hold in every run. The rows fit in every run whose pairings go into
categories that take both.
-/

namespace BetterDecision

open CategoryDb

variable {db db' : CategoryDb} {cats cats' : Table Category} {orgId id : Nat}

/-! ## Uses -/

/-- A row, a template or a plan item of the org has the category, and is of the type. -/
inductive Uses (db : CategoryDb) (orgId categoryId : Nat) (type : TransactionType) : Prop
  | row (i : Nat) (t : Transaction) (get : db.books.transactions.get? i = some t) (org : t.orgId = orgId)
      (category : t.categoryId = categoryId) (type : t.type = type)
  | template (i : Nat) (r : RecurringTransaction) (get : db.books.recurring.get? i = some r) (org : r.orgId = orgId)
      (category : r.categoryId = categoryId) (type : r.type = type)
  | item (i : Nat) (p : PlanRow) (get : db.plans.get? i = some p) (org : p.orgId = orgId)
      (item : ForecastPlanItem) (mem : item ∈ p.plan.items) (category : item.categoryId = categoryId)
      (type : itemTransactionType item.type = type)

/-- Every row, template and plan item is of a type its category takes. -/
structure AllFit (db : CategoryDb) : Prop where
  plain : ∀ i t, db.books.transactions.get? i = some t → t.type ≠ .transfer
  takes : ∀ orgId categoryId type, Uses db orgId categoryId type → Takes db.books.categories orgId categoryId type

theorem allFit_iff : AllFit db ↔ BooksFit db.books ∧ PlansFit db.books.categories db.plans := by
  constructor
  · intro h
    refine ⟨⟨fun i t ht => ⟨h.plain i t ht, h.takes _ _ _ (.row i t ht rfl rfl rfl)⟩,
      fun i r hr => h.takes _ _ _ (.template i r hr rfl rfl rfl)⟩, fun i p hp item hitem => ?_⟩
    exact h.takes _ _ _ (.item i p hp rfl item hitem rfl rfl)
  · intro ⟨hb, hp⟩
    refine ⟨fun i t ht => (hb.rows i t ht).1, fun org cat type h => ?_⟩
    cases h with
    | row i t ht horg hcat htype =>
      subst horg hcat htype
      exact (hb.rows i t ht).2
    | template i r hr horg hcat htype =>
      subst horg hcat htype
      exact hb.templates i r hr
    | item i p hget horg item hmem hcat htype =>
      subst horg hcat htype
      exact hp i p hget item hmem

/-- The rows, templates and plans are as they were. -/
structure SameRows (db db' : CategoryDb) : Prop where
  rows : db'.books.transactions = db.books.transactions
  templates : db'.books.recurring = db.books.recurring
  plans : db'.plans = db.plans

theorem Uses.of_same (h : SameRows db db') {categoryId : Nat} {type : TransactionType}
    (hu : Uses db' orgId categoryId type) : Uses db orgId categoryId type := by
  cases hu with
  | row i t ht horg hcat htype => exact .row i t (h.rows ▸ ht) horg hcat htype
  | template i r hr horg hcat htype => exact .template i r (h.templates ▸ hr) horg hcat htype
  | item i p hp horg item hmem hcat htype => exact .item i p (h.plans ▸ hp) horg item hmem hcat htype

/-- What is used has to be taken by the categories as they are now. -/
theorem AllFit.recategorize (h : AllFit db) (hsame : SameRows db db')
    (htakes : ∀ org categoryId type, Uses db org categoryId type → Takes db.books.categories org categoryId type →
      Takes db'.books.categories org categoryId type) : AllFit db' where
  plain i t ht := h.plain i t (hsame.rows ▸ ht)
  takes org categoryId type hu := by
    have hu := hu.of_same hsame
    exact htakes org categoryId type hu (h.takes org categoryId type hu)

theorem takes_mapRows {g : Nat → Category → Category}
    (hg : ∀ i c, cats.get? i = some c → (g i c).orgId = c.orgId ∧ (g i c).type = c.type) {categoryId : Nat}
    {type : TransactionType} (h : Takes cats orgId categoryId type) : Takes (cats.mapRows g) orgId categoryId type := by
  obtain ⟨c, hc, horg, hmatch⟩ := h
  obtain ⟨hgorg, hgtype⟩ := hg categoryId c hc
  exact ⟨g categoryId c, by rw [Table.get?_mapRows, hc, Option.map_some], hgorg.trans horg, hgtype ▸ hmatch⟩

/-! ## Names and parents -/

theorem createCategory_fit {org : Nat} {body : CategoryCreate} (h : db.createCategory org body = .ok db')
    (hfit : AllFit db) : AllFit db' := by
  obtain ⟨type, -, h⟩ := bind_eq_ok.mp h
  obtain rfl := Except.ok.inj h
  refine hfit.recategorize ⟨rfl, rfl, rfl⟩ fun _ _ _ _ ht => ?_
  obtain ⟨c, hc, hrest⟩ := ht
  exact ⟨c, Table.get?_insert_of_some hc, hrest⟩

theorem renameCategory_fit (hfit : AllFit db) (i : Nat) (name : Option String) : AllFit (db.renameCategory i name) := by
  refine hfit.recategorize ⟨rfl, rfl, rfl⟩ fun org categoryId type _ ht => ?_
  refine takes_mapRows (g := fun j c => if j = i then { c with name := name.getD c.name } else c) (fun j c _ => ?_) ht
  split
  · exact ⟨rfl, rfl⟩
  · exact ⟨rfl, rfl⟩

theorem setParent_fit (hfit : AllFit db) (move : Nat × Nat) : AllFit (db.setParent move) := by
  refine hfit.recategorize ⟨rfl, rfl, rfl⟩ fun org categoryId type _ ht => ?_
  refine takes_mapRows (g := fun j c => if j = move.1 then { c with parentId := some move.2 } else c) (fun j c _ => ?_) ht
  split
  · exact ⟨rfl, rfl⟩
  · exact ⟨rfl, rfl⟩

theorem setParents_fit (moves : List (Nat × Nat)) : ∀ {db : CategoryDb}, AllFit db → AllFit (moves.foldl setParent db) := by
  induction moves with
  | nil => exact fun h => h
  | cons move moves ih => exact fun h => ih (setParent_fit h move)

/-! ## Counts -/

theorem no_row_of_count {categoryId : Nat} {types : List TransactionType}
    (h : db.countTransactions orgId categoryId types = 0) {i : Nat} {t : Transaction}
    (ht : db.books.transactions.get? i = some t) (horg : t.orgId = orgId) (hcat : t.categoryId = categoryId) :
    t.type ∉ types := by
  intro hmem
  have hrow : (i, t) ∈ db.books.transactions.select
      (fun _ t => t.orgId == orgId && t.categoryId == categoryId && types.contains t.type) := by
    refine Table.mem_select.mpr ⟨ht, ?_⟩
    simp [horg, hcat, hmem]
  rw [List.length_eq_zero_iff.mp h] at hrow
  cases hrow

theorem no_template_of_count {categoryId : Nat} {types : List TransactionType}
    (h : db.countRecurring orgId categoryId types = 0) {i : Nat} {r : RecurringTransaction}
    (hr : db.books.recurring.get? i = some r) (horg : r.orgId = orgId) (hcat : r.categoryId = categoryId) :
    r.type ∉ types := by
  intro hmem
  have hrow : (i, r) ∈ db.books.recurring.select
      (fun _ r => r.orgId == orgId && r.categoryId == categoryId && types.contains r.type) := by
    refine Table.mem_select.mpr ⟨hr, ?_⟩
    simp [horg, hcat, hmem]
  rw [List.length_eq_zero_iff.mp h] at hrow
  cases hrow

theorem no_item_of_count {categoryId : Nat} {types : List ForecastItemType}
    (h : db.countItems orgId categoryId types = 0) {i : Nat} {p : PlanRow} (hp : db.plans.get? i = some p)
    (horg : p.orgId = orgId) {item : ForecastPlanItem} (hitem : item ∈ p.plan.items)
    (hcat : item.categoryId = categoryId) : item.type ∉ types := by
  intro hmem
  have hplan : (i, p) ∈ db.plans.select (fun _ p => p.orgId == orgId) := Table.mem_select.mpr ⟨hp, by simp [horg]⟩
  have hle := List.single_le_sum (fun _ _ => Nat.zero_le _) _ (List.mem_map_of_mem
    (f := fun p : Nat × PlanRow =>
      (p.2.plan.items.filter (fun i => i.categoryId == categoryId && types.contains i.type)).length) hplan)
  have hzero : (p.plan.items.filter (fun i => i.categoryId == categoryId && types.contains i.type)).length = 0 :=
    Nat.le_zero.mp (h ▸ hle)
  have hrow : item ∈ p.plan.items.filter (fun i => i.categoryId == categoryId && types.contains i.type) :=
    List.mem_filter.mpr ⟨hitem, by simp [hcat, hmem]⟩
  rw [List.length_eq_zero_iff.mp hzero] at hrow
  cases hrow

/-! ## Changing a type -/

/-- No row that the new type would not take. -/
structure NoneIncompatible (counts : Incompatible) : Prop where
  transactions : counts.transactions = 0
  recurring : counts.recurring = 0
  items : counts.items = 0

theorem compatible_of_none (hfit : AllFit db) {categoryId : Nat} {newType : CategoryType} {type : TransactionType}
    (h : NoneIncompatible (db.countIncompatibleForCategory orgId categoryId newType))
    (hu : Uses db orgId categoryId type) : categoryTypeMatches newType type = true := by
  obtain ⟨htx, hrec, hitems⟩ := h
  cases newType with
  | both => rfl
  | expense =>
    cases hu with
    | row i t ht horg hcat htype =>
      have hplain := hfit.plain i t ht
      have hnone := no_row_of_count htx ht horg hcat
      subst htype
      cases hty : t.type <;> simp_all [categoryTypeMatches]
    | template i r hr horg hcat htype =>
      have hnone := no_template_of_count hrec hr horg hcat
      subst htype
      cases hty : r.type <;> simp_all [categoryTypeMatches]
    | item i p hp horg item hmem hcat htype =>
      have hnone := no_item_of_count hitems hp horg hmem hcat
      subst htype
      cases hty : item.type <;> simp_all [categoryTypeMatches, itemTransactionType]
  | income =>
    cases hu with
    | row i t ht horg hcat htype =>
      have hplain := hfit.plain i t ht
      have hnone := no_row_of_count htx ht horg hcat
      subst htype
      cases hty : t.type <;> simp_all [categoryTypeMatches]
    | template i r hr horg hcat htype =>
      have hnone := no_template_of_count hrec hr horg hcat
      subst htype
      cases hty : r.type <;> simp_all [categoryTypeMatches]
    | item i p hp horg item hmem hcat htype =>
      have hnone := no_item_of_count hitems hp horg hmem hcat
      subst htype
      cases hty : item.type <;> simp_all [categoryTypeMatches, itemTransactionType]

theorem zero_of_sum_map {α : Type*} {f : α → Nat} {xs : List α} (h : (xs.map f).sum = 0) {x : α} (hx : x ∈ xs) :
    f x = 0 := by
  have hle := List.single_le_sum (fun _ _ => Nat.zero_le _) _ (List.mem_map_of_mem (f := f) hx)
  exact Nat.le_zero.mp (h ▸ hle)

/-- A type change was let through: the new type takes both, or no row on the category or, if
it is a master, on its children is in its way. -/
theorem validateCategoryTypeChange_ok {cat : Category} {newType : CategoryType} {u : Unit} (hne : newType ≠ cat.type)
    (h : validateCategoryTypeChange db id cat newType = .ok u) :
    newType = .both ∨ ∀ x, x = id ∨ cat.parentId = none ∧ (∃ c, (x, c) ∈ db.childrenOf cat.orgId id) →
      NoneIncompatible (db.countIncompatibleForCategory cat.orgId x newType) := by
  by_cases hboth : newType = .both
  · exact .inl hboth
  · refine .inr fun x hx => ?_
    unfold validateCategoryTypeChange at h
    rw [if_neg (not_or.mpr ⟨hne, hboth⟩)] at h
    obtain ⟨_, _, h⟩ := bind_eq_ok.mp h
    dsimp only at h
    obtain ⟨_, _, h⟩ := bind_eq_ok.mp h
    have hzero := not_not.mp (refuse_eq_ok.mp h)
    simp only [List.map_map] at hzero
    obtain ⟨htx, hrec, hitems⟩ := hzero
    have hmem : x ∈ id :: (if cat.parentId = none then (db.childrenOf cat.orgId id).map Prod.fst else []) := by
      rcases hx with rfl | ⟨hroot, c, hc⟩
      · exact List.mem_cons_self
      · rw [if_pos hroot]
        exact List.mem_cons_of_mem _ (List.mem_map.mpr ⟨(x, c), hc, rfl⟩)
    exact ⟨zero_of_sum_map htx hmem, zero_of_sum_map hrec hmem, zero_of_sum_map hitems hmem⟩

theorem setCategoryType_fit (hfit : AllFit db) {org : Nat} {cat : Category} {newType : CategoryType}
    (hcat : findCategory db.books org id = some cat) (hne : newType ≠ cat.type)
    (hvalid : validateCategoryTypeChange db id cat newType = .ok ()) :
    AllFit (db.setCategoryType org id cat newType) := by
  obtain ⟨hget, horg⟩ := findCategory_eq_some.mp hcat
  refine hfit.recategorize ⟨rfl, rfl, rfl⟩ fun o x type hu ht => ?_
  obtain ⟨c, hc, hcorg, hmatch⟩ := ht
  let retype (i : Nat) (c : Category) : Category :=
    if i = id ∨ cat.parentId = none ∧ c.parentId = some id ∧ c.orgId = org then { c with type := newType } else c
  have hnew : (db.setCategoryType org id cat newType).books.categories.get? x = some (retype x c) := by
    show (db.books.categories.mapRows retype).get? x = _
    rw [Table.get?_mapRows, hc, Option.map_some]
  by_cases htouched : x = id ∨ cat.parentId = none ∧ c.parentId = some id ∧ c.orgId = org
  · -- the category changed its type, so the counts were taken over its rows
    have hretyped : retype x c = { c with type := newType } := if_pos htouched
    refine ⟨retype x c, hnew, by rw [hretyped]; exact hcorg, ?_⟩
    rw [hretyped]
    show categoryTypeMatches newType type = true
    have ho : o = cat.orgId := by
      rcases htouched with rfl | ⟨-, -, hco⟩
      · obtain rfl : cat = c := Option.some.inj (hget.symm.trans hc)
        exact hcorg.symm
      · rw [← hcorg, hco, horg]
    rcases validateCategoryTypeChange_ok hne hvalid with rfl | hnone
    · rfl
    · refine compatible_of_none hfit (hnone x ?_) (ho ▸ hu)
      rcases htouched with hx | ⟨hroot, hp, hco⟩
      · exact .inl hx
      · exact .inr ⟨hroot, c, Table.mem_select.mpr ⟨hc, by simp [hp, hco, horg]⟩⟩
  · exact ⟨c, by rw [hnew]; exact congrArg some (if_neg htouched), hcorg, hmatch⟩

theorem updateCategory_fit {org : Nat} {body : CategoryUpdate} (h : db.updateCategory org id body = .ok db')
    (hfit : AllFit db) : AllFit db' := by
  rcases updateCategory_cases h with rfl | ⟨cat, newType, hcat, -, hne, -, hvalid, -, rfl⟩
  · exact renameCategory_fit hfit id body.name
  · exact renameCategory_fit (setCategoryType_fit hfit hcat hne hvalid) id body.name

/-! ## Deleting -/

/-- What a category is used for shows in the breakdown. -/
theorem counted_of_uses (hfit : AllFit db) {categoryId : Nat} {type : TransactionType}
    (hu : Uses db orgId categoryId type) :
    (type ≠ .expense → 0 < (db.dependentBreakdown orgId categoryId).incomeCount) ∧
      (type ≠ .income → 0 < (db.dependentBreakdown orgId categoryId).expenseCount) := by
  unfold dependentBreakdown
  dsimp only
  cases hu with
  | row i t ht horg hcat htype =>
    have hplain := hfit.plain i t ht
    have hpos : 0 < db.countTransactions orgId categoryId [t.type] := by
      by_contra hzero
      exact no_row_of_count (Nat.le_zero.mp (not_lt.mp hzero)) ht horg hcat (List.mem_singleton_self _)
    subst htype
    cases hty : t.type with
    | income => rw [hty] at hpos; exact ⟨fun _ => by omega, fun h => absurd rfl h⟩
    | expense => rw [hty] at hpos; exact ⟨fun h => absurd rfl h, fun _ => by omega⟩
    | transfer => exact absurd hty hplain
  | template i r hr horg hcat htype =>
    have hpos : 0 < db.countRecurring orgId categoryId [r.type] := by
      by_contra hzero
      exact no_template_of_count (Nat.le_zero.mp (not_lt.mp hzero)) hr horg hcat (List.mem_singleton_self _)
    subst htype
    cases hty : r.type with
    | income => rw [hty] at hpos; exact ⟨fun _ => by omega, fun h => absurd rfl h⟩
    | expense => rw [hty] at hpos; exact ⟨fun h => absurd rfl h, fun _ => by omega⟩
    | transfer => rw [hty] at hpos; exact ⟨fun _ => by omega, fun _ => by omega⟩
  | item i p hp horg item hmem hcat htype =>
    have hpos : 0 < db.countItems orgId categoryId [item.type] := by
      by_contra hzero
      exact no_item_of_count (Nat.le_zero.mp (not_lt.mp hzero)) hp horg hmem hcat (List.mem_singleton_self _)
    subst htype
    cases hty : item.type with
    | income => rw [hty] at hpos; exact ⟨fun _ => by omega, fun h => absurd rfl h⟩
    | expense => rw [hty] at hpos; exact ⟨fun h => absurd rfl h, fun _ => by omega⟩

theorem counts_zero_of_total {categoryId : Nat} (h : (db.dependentBreakdown orgId categoryId).total = 0) :
    (db.dependentBreakdown orgId categoryId).incomeCount = 0 ∧
      (db.dependentBreakdown orgId categoryId).expenseCount = 0 := by
  unfold DependentBreakdown.total dependentBreakdown at h
  unfold dependentBreakdown
  dsimp only at h ⊢
  omega

/-- A migration target takes whatever the source's rows are. -/
theorem target_takes (hfit : AllFit db) {cat target : Category} {targetId : Nat} {type : TransactionType}
    (hcat : findCategory db.books orgId id = some cat) (htarget : findCategory db.books orgId targetId = some target)
    (h : checkTargetCompatibilityForDelete cat target (db.dependentBreakdown orgId id) = .ok ())
    (hu : Uses db orgId id type) : Takes db.books.categories orgId targetId type := by
  obtain ⟨hget, -⟩ := findCategory_eq_some.mp hcat
  obtain ⟨htget, htorg⟩ := findCategory_eq_some.mp htarget
  obtain ⟨c, hc, -, hmatch⟩ := hfit.takes _ _ _ hu
  obtain rfl : cat = c := Option.some.inj (hget.symm.trans hc)
  obtain ⟨hincome, hexpense⟩ := counted_of_uses hfit hu
  refine ⟨target, htget, htorg, ?_⟩
  unfold checkTargetCompatibilityForDelete at h
  dsimp only at h
  split at h
  · -- a one-sided source: its rows are of its type, and the target is not the other one
    rename_i hone
    obtain ⟨_, hfirst, h⟩ := bind_eq_ok.mp h
    have hfirst := refuse_eq_ok.mp hfirst
    have hsecond := refuse_eq_ok.mp h
    cases hs : cat.type <;> cases htt : target.type <;> cases type <;> simp_all [categoryTypeMatches]
  · obtain ⟨_, hfirst, h⟩ := bind_eq_ok.mp h
    obtain ⟨_, hsecond, h⟩ := bind_eq_ok.mp h
    have hfirst := refuse_eq_ok.mp hfirst
    have hsecond := refuse_eq_ok.mp hsecond
    have hthird := refuse_eq_ok.mp h
    cases htt : target.type with
    | both => rfl
    | income =>
      cases type with
      | income => rfl
      | expense =>
        have := hexpense (by simp)
        simp only [htt] at hsecond hthird
        rcases Nat.eq_zero_or_pos (db.dependentBreakdown orgId id).incomeCount with hz | hp
        · exact absurd ⟨this, hz, trivial⟩ hsecond
        · exact absurd ⟨hp, this, by decide⟩ hthird
      | transfer =>
        have := hincome (by simp)
        have := hexpense (by simp)
        simp only [htt] at hthird
        exact absurd ⟨‹_›, ‹_›, by decide⟩ hthird
    | expense =>
      cases type with
      | expense => rfl
      | income =>
        have := hincome (by simp)
        simp only [htt] at hfirst hthird
        rcases Nat.eq_zero_or_pos (db.dependentBreakdown orgId id).expenseCount with hz | hp
        · exact absurd ⟨this, hz, trivial⟩ hfirst
        · exact absurd ⟨this, hp, by decide⟩ hthird
      | transfer =>
        have := hincome (by simp)
        have := hexpense (by simp)
        simp only [htt] at hthird
        exact absurd ⟨‹_›, ‹_›, by decide⟩ hthird

/-- What is used once the rows have moved was used before, there or on the source. -/
theorem uses_migrateTo {org targetId categoryId : Nat} {type : TransactionType}
    (hu : Uses (db.migrateTo org id targetId) orgId categoryId type) :
    (orgId = org ∧ categoryId = targetId ∧ Uses db org id type) ∨
      (¬ (orgId = org ∧ categoryId = id ∧ id ≠ targetId)) ∧ Uses db orgId categoryId type := by
  cases hu with
  | row i t ht horg hcat htype =>
    obtain ⟨a, ha, rfl⟩ := Option.map_eq_some_iff.mp ((Table.get?_mapRows _ _ _).symm.trans ht)
    split at horg
    · rename_i hmoved
      rw [if_pos hmoved] at hcat htype
      exact .inl ⟨horg.symm.trans hmoved.1, hcat.symm, .row i a ha hmoved.1 (beq_iff_eq.mp hmoved.2) htype⟩
    · rename_i hstays
      rw [if_neg hstays] at hcat htype
      exact .inr ⟨fun hid => hstays ⟨horg.trans hid.1, beq_iff_eq.mpr (hcat.trans hid.2.1)⟩, .row i a ha horg hcat htype⟩
  | template i r hr horg hcat htype =>
    obtain ⟨a, ha, rfl⟩ := Option.map_eq_some_iff.mp ((Table.get?_mapRows _ _ _).symm.trans hr)
    split at horg
    · rename_i hmoved
      rw [if_pos hmoved] at hcat htype
      exact .inl ⟨horg.symm.trans hmoved.1, hcat.symm, .template i a ha hmoved.1 hmoved.2 htype⟩
    · rename_i hstays
      rw [if_neg hstays] at hcat htype
      exact .inr ⟨fun hid => hstays ⟨horg.trans hid.1, hcat.trans hid.2.1⟩, .template i a ha horg hcat htype⟩
  | item i p hp horg item hmem hcat htype =>
    obtain ⟨a, ha, rfl⟩ := Option.map_eq_some_iff.mp ((Table.get?_mapRows _ _ _).symm.trans hp)
    split at horg
    · rename_i hours
      rw [if_pos hours] at hmem
      obtain ⟨b, hb, rfl⟩ := List.mem_map.mp hmem
      have hkey := key_migratedItem id targetId (fun type =>
        ((a.plan.items.filter (fun i => i.key == (id, type))).map (·.plannedAmount)).sum) b
      have hb := List.mem_of_mem_filter hb
      obtain ⟨hkc, hkt⟩ := Prod.mk.inj hkey
      split at hkey
      · rename_i hid
        obtain ⟨hkc, hkt⟩ := Prod.mk.inj hkey
        refine .inl ⟨horg.symm.trans hours, hcat.symm.trans hkc, ?_⟩
        exact .item i a ha hours b hb hid (by rw [← htype]; exact congrArg itemTransactionType hkt.symm)
      · rename_i hid
        obtain ⟨hkc, hkt⟩ := Prod.mk.inj hkey
        refine .inr ⟨fun h => hid (hkc.symm.trans (hcat.trans h.2.1)), ?_⟩
        exact .item i a ha horg b hb (hkc.symm.trans hcat) (by rw [← htype]; exact congrArg itemTransactionType hkt.symm)
    · rename_i hours
      rw [if_neg hours] at hmem
      exact .inr ⟨fun h => hours (horg.trans h.1), .item i a ha horg item hmem hcat htype⟩

theorem takes_remove {categoryId : Nat} {type : TransactionType} (h : Takes cats orgId categoryId type)
    (hne : categoryId ≠ id) : Takes (cats.remove (· == id)) orgId categoryId type := by
  obtain ⟨c, hc, hrest⟩ := h
  exact ⟨c, by rw [Table.get?_remove, if_neg (by simpa using hne), hc], hrest⟩

theorem migrateTo_plain (hfit : AllFit db) (org targetId : Nat) :
    ∀ i t, (db.migrateTo org id targetId).books.transactions.get? i = some t → t.type ≠ .transfer := by
  intro i t ht
  obtain ⟨a, ha, rfl⟩ := Option.map_eq_some_iff.mp ((Table.get?_mapRows _ _ _).symm.trans ht)
  split
  · exact hfit.plain i a ha
  · exact hfit.plain i a ha

theorem deleteCategory_fit {org : Nat} {target : Option Nat}
    (h : db.deleteCategoryWithMigration org id target = .ok db') (hfit : AllFit db) : AllFit db' := by
  obtain ⟨migration, hplan, hdone⟩ := deleteCategory_cases h
  obtain ⟨cat, hcat, -, -, hguards⟩ := planCategoryDelete_ok hplan
  obtain ⟨hget, horg⟩ := findCategory_eq_some.mp hcat
  -- whoever has the category is of its org
  have howner : ∀ {o type}, Uses db o id type → o = org := by
    intro o type hu
    obtain ⟨c, hc, hcorg, -⟩ := hfit.takes o id type hu
    obtain rfl : cat = c := Option.some.inj (hget.symm.trans hc)
    exact hcorg.symm.trans horg
  rcases hdone with ⟨rfl, rfl⟩ | ⟨targetId, rfl, rfl⟩
  · rcases hguards with ⟨-, hzero⟩ | ⟨_, _, hmig, -⟩
    · refine hfit.recategorize ⟨rfl, rfl, rfl⟩ fun o x type hu ht => takes_remove ht ?_
      intro hx
      subst hx
      obtain rfl := howner hu
      obtain ⟨hincome, hexpense⟩ := counted_of_uses hfit hu
      obtain ⟨hzi, hze⟩ := counts_zero_of_total hzero
      cases type with
      | income => exact absurd (hincome nofun) (by omega)
      | expense => exact absurd (hexpense nofun) (by omega)
      | transfer => exact absurd (hincome nofun) (by omega)
    · cases hmig
  · rcases hguards with ⟨hmig, -⟩ | ⟨t, targetCat, hmig, hne, htarget, hcompat⟩
    · cases hmig
    · obtain rfl := Option.some.inj hmig
      refine ⟨migrateTo_plain hfit org targetId, fun o x type hu => ?_⟩
      have hsame : SameRows (db.migrateTo org id targetId) ((db.migrateTo org id targetId).removeCategory org id) :=
        ⟨rfl, rfl, rfl⟩
      rcases uses_migrateTo (hu.of_same hsame) with ⟨rfl, rfl, hsource⟩ | ⟨hapart, hold⟩
      · exact takes_remove (target_takes hfit hcat htarget hcompat hsource) hne
      · refine takes_remove (hfit.takes o x type hold) fun hx => ?_
        subst hx
        exact hapart ⟨howner hold, rfl, hne.symm⟩

/-! ## Calls -/

section Calls

variable {normalizeCategoryName : String → String} {roundedMean : Int → Nat → Int}

/-- Where a call puts two legs into one category, that one takes both. -/
def FitGuard (db : CategoryDb) : CategoryCall → Prop
  | .ledger call => PairsIntoBoth db.books call
  | _ => True

theorem PlansKept.rooted (h : PlansKept db db') (hr : Rooted db.books.categories orgId) :
    Rooted db'.books.categories orgId := by
  rw [h.books]
  exact hr

theorem PlansKept.fit' (h : PlansKept db db') (ht : TreeOk db.books.categories) (hfit : AllFit db) : AllFit db' := by
  obtain ⟨hb, hp⟩ := allFit_iff.mp hfit
  refine allFit_iff.mpr ⟨h.books ▸ hb, ?_⟩
  rw [h.books]
  exact h.fit hb ht hp

theorem ledger_fit {call : Call} {books : Db} (h : handle db.books call = .ok books) (hG : PairsIntoBoth db.books call)
    (hfit : AllFit db) : AllFit { db with books } := by
  obtain ⟨hb, hp⟩ := allFit_iff.mp hfit
  have hkeeps := handle_keepsFit h
  exact allFit_iff.mpr ⟨hkeeps.fit hG hb, fun i p hget item hitem => hkeeps.grown.takes (hp i p hget item hitem)⟩

/-- **Every call keeps the tree and the floor.** -/
theorem handleCategory_rooted {call : CategoryCall}
    (h : handleCategory normalizeCategoryName roundedMean db call = .ok db')
    (hr : Rooted db.books.categories orgId) : Rooted db'.books.categories orgId := by
  cases call with
  | ledger call =>
    obtain ⟨books, hbooks, h⟩ := bind_eq_ok.mp h
    obtain rfl := Except.ok.inj h
    exact (handle_keepsFit hbooks).grown.rooted hr
  | createCategory org body => exact createCategory_rooted h hr
  | updateCategory org i body => exact updateCategory_rooted h hr
  | moveSubcategory org sub target => exact moveSubcategory_rooted h hr
  | batchMove org moves => exact batchMoveSubcategories_rooted h hr
  | deleteCategory org i target => exact deleteCategory_rooted h hr
  | getOrCreatePlan org periodId => exact (getOrCreatePlan_kept h).rooted hr
  | writePlan org call => exact (writePlan_kept h).rooted hr
  | upsertItem org planId w => exact (upsertItem_kept h).rooted hr
  | bulkUpsert org planId ws => exact (bulkUpsert_kept h).rooted hr
  | updateItem org planId key plannedAmount => exact (updateItem_kept h).rooted hr
  | deleteItem org planId key => exact (deleteItem_kept h).rooted hr
  | activatePlan org planId => exact (activatePlan_kept h).rooted hr
  | revertToDraft org planId => exact (revertToDraft_kept h).rooted hr
  | discardPlan org planId => exact (discardPlan_kept h).rooted hr
  | elsewhere other => exact Except.ok.inj h ▸ hr

/-- **A call that pairs into categories that take both keeps every row fitting.** -/
theorem handleCategory_fit {call : CategoryCall}
    (h : handleCategory normalizeCategoryName roundedMean db call = .ok db') (hG : FitGuard db call)
    (ht : TreeOk db.books.categories) (hfit : AllFit db) : AllFit db' := by
  cases call with
  | ledger call =>
    obtain ⟨books, hbooks, h⟩ := bind_eq_ok.mp h
    obtain rfl := Except.ok.inj h
    exact ledger_fit hbooks hG hfit
  | createCategory org body => exact createCategory_fit h hfit
  | updateCategory org i body => exact updateCategory_fit h hfit
  | moveSubcategory org sub target =>
    obtain ⟨_, _, h⟩ := bind_eq_ok.mp h
    obtain rfl := Except.ok.inj h
    exact setParent_fit hfit (sub, target)
  | batchMove org moves =>
    obtain ⟨_, _, h⟩ := bind_eq_ok.mp h
    obtain ⟨_, _, h⟩ := bind_eq_ok.mp h
    obtain rfl := Except.ok.inj h
    exact setParents_fit moves hfit
  | deleteCategory org i target => exact deleteCategory_fit h hfit
  | getOrCreatePlan org periodId => exact (getOrCreatePlan_kept h).fit' ht hfit
  | writePlan org call => exact (writePlan_kept h).fit' ht hfit
  | upsertItem org planId w => exact (upsertItem_kept h).fit' ht hfit
  | bulkUpsert org planId ws => exact (bulkUpsert_kept h).fit' ht hfit
  | updateItem org planId key plannedAmount => exact (updateItem_kept h).fit' ht hfit
  | deleteItem org planId key => exact (deleteItem_kept h).fit' ht hfit
  | activatePlan org planId => exact (activatePlan_kept h).fit' ht hfit
  | revertToDraft org planId => exact (revertToDraft_kept h).fit' ht hfit
  | discardPlan org planId => exact (discardPlan_kept h).fit' ht hfit
  | elsewhere other =>
    obtain rfl := Except.ok.inj h
    exact hfit.recategorize ⟨rfl, rfl, rfl⟩ fun _ _ _ _ htakes => htakes

end Calls

/-! ## The seed -/

theorem TreeOk.insert (h : TreeOk cats) {c : Category}
    (hc : ∀ p, c.parentId = some p →
      ∃ m, cats.get? p = some m ∧ m.orgId = c.orgId ∧ m.parentId = none ∧ m.type = c.type) : TreeOk (cats.insert c) := by
  intro i a p ha hp
  rw [Table.get?_insert] at ha
  split at ha
  · obtain rfl := Option.some.inj ha
    obtain ⟨m, hm, hrest⟩ := hc p hp
    exact ⟨m, Table.get?_insert_of_some hm, hrest⟩
  · obtain ⟨m, hm, hrest⟩ := h i a p ha hp
    exact ⟨m, Table.get?_insert_of_some hm, hrest⟩

/-- What seeding adds: nothing is lost, and the tree stays one. -/
structure Seeded (cats cats' : Table Category) : Prop where
  kept : ∀ i c, cats.get? i = some c → cats'.get? i = some c
  tree : TreeOk cats → TreeOk cats'

theorem Seeded.refl (cats : Table Category) : Seeded cats cats := ⟨fun _ _ h => h, fun h => h⟩

theorem Seeded.trans {cats'' : Table Category} (h : Seeded cats cats') (k : Seeded cats' cats'') : Seeded cats cats'' :=
  ⟨fun i c hc => k.kept i c (h.kept i c hc), fun ht => k.tree (h.tree ht)⟩

theorem seeded_insert {c : Category}
    (hc : ∀ p, c.parentId = some p →
      ∃ m, cats.get? p = some m ∧ m.orgId = c.orgId ∧ m.parentId = none ∧ m.type = c.type) : Seeded cats (cats.insert c) :=
  ⟨fun _ _ h => Table.get?_insert_of_some h, fun ht => ht.insert hc⟩

theorem seedChildren_seeded {masterId : Nat} {m : Category} (horg : m.orgId = orgId) (hroot : m.parentId = none) :
    ∀ (children : List CategoryDef) {cats : Table Category}, cats.get? masterId = some m →
      Seeded cats (children.foldl
        (fun cats c => cats.insert (systemCategory orgId c m.type (some masterId))) cats) ∧
      (children ≠ [] → ∃ i c, (children.foldl
        (fun cats c => cats.insert (systemCategory orgId c m.type (some masterId))) cats).get? i = some c ∧
        c.orgId = orgId ∧ c.parentId = some masterId) := by
  intro children
  induction children with
  | nil => exact fun _ => ⟨.refl _, fun h => absurd rfl h⟩
  | cons d children ih =>
    intro cats hm
    have hinsert : Seeded cats (cats.insert (systemCategory orgId d m.type (some masterId))) :=
      seeded_insert fun p hp => ⟨m, Option.some.inj hp ▸ hm, horg, hroot, rfl⟩
    obtain ⟨hrest, -⟩ := ih (hinsert.kept _ _ hm)
    refine ⟨hinsert.trans hrest, fun _ => ⟨cats.next, systemCategory orgId d m.type (some masterId), ?_, rfl, rfl⟩⟩
    exact hrest.kept _ _ (by rw [Table.get?_insert, if_pos rfl])

/-- A master seeded into an org that has none of the system categories. -/
theorem seedMaster_spec (cats : Table Category) (orgId : Nat) (d : MasterDef) :
    Seeded cats (seedMaster orgId [] cats d) ∧ HasMaster (seedMaster orgId [] cats d) orgId d.type ∧
      (d.children ≠ [] → HasSub (seedMaster orgId [] cats d) orgId d.type) := by
  let m := systemCategory orgId d.toCategoryDef d.type none
  have hseed : seedMaster orgId [] cats d = d.children.foldl
      (fun cats' c => cats'.insert (systemCategory orgId c m.type (some cats.next))) (cats.insert m) := by
    unfold seedMaster seedMasterRow
    simp only [List.not_mem_nil, not_false_eq_true, decide_true, if_false, List.filter_true]
    rfl
  have hm : (cats.insert m).get? cats.next = some m := by rw [Table.get?_insert, if_pos rfl]
  have hinsert : Seeded cats (cats.insert m) := seeded_insert fun p hp => by cases hp
  obtain ⟨hchildren, hsub⟩ := seedChildren_seeded (m := m) (show m.orgId = orgId from rfl) rfl d.children hm
  rw [hseed]
  refine ⟨hinsert.trans hchildren, ⟨cats.next, m, hchildren.kept _ _ hm, rfl, rfl, rfl⟩, fun hne => ?_⟩
  obtain ⟨i, c, hc, horg, hp⟩ := hsub hne
  exact ⟨i, c, cats.next, m, hc, horg, hp, hchildren.kept _ _ hm, rfl, rfl⟩

theorem Seeded.master {type : CategoryType} (h : Seeded cats cats') (hm : HasMaster cats orgId type) :
    HasMaster cats' orgId type := by
  obtain ⟨i, c, hc, hrest⟩ := hm
  exact ⟨i, c, h.kept i c hc, hrest⟩

theorem Seeded.sub {type : CategoryType} (h : Seeded cats cats') (hs : HasSub cats orgId type) : HasSub cats' orgId type := by
  obtain ⟨i, c, p, m, hc, horg, hp, hm, hrest⟩ := hs
  exact ⟨i, c, p, m, h.kept i c hc, horg, hp, h.kept p m hm, hrest⟩

theorem seedMasters_spec (orgId : Nat) : ∀ (defs : List MasterDef) (cats : Table Category),
    Seeded cats (defs.foldl (seedMaster orgId []) cats) ∧
      ∀ d ∈ defs, d.children ≠ [] → HasMaster (defs.foldl (seedMaster orgId []) cats) orgId d.type ∧
        HasSub (defs.foldl (seedMaster orgId []) cats) orgId d.type := by
  intro defs
  induction defs with
  | nil => exact fun cats => ⟨.refl cats, fun d hd => by cases hd⟩
  | cons d defs ih =>
    intro cats
    obtain ⟨hfirst, hmaster, hsub⟩ := seedMaster_spec cats orgId d
    obtain ⟨hrest, hothers⟩ := ih (seedMaster orgId [] cats d)
    refine ⟨hfirst.trans hrest, fun e he hne => ?_⟩
    rcases List.mem_cons.mp he with rfl | he
    · exact ⟨hrest.master hmaster, hrest.sub (hsub hne)⟩
    · exact hothers e he hne

/-- An org with no categories, seeded: a tree, the floor, and no row touched. -/
theorem seedOrgDefaults_spec (hnew : ∀ i c, db.books.categories.get? i = some c → c.orgId ≠ orgId)
    (ht : TreeOk db.books.categories) (hfit : AllFit db) :
    Rooted (db.seedOrgDefaults orgId).books.categories orgId ∧ AllFit (db.seedOrgDefaults orgId) := by
  have hnone : systemSlugs db.books.categories orgId = [] := by
    unfold systemSlugs
    rw [List.map_eq_nil_iff, List.eq_nil_iff_forall_not_mem]
    intro p hp
    obtain ⟨hget, htest⟩ := Table.mem_select.mp hp
    simp only [Bool.and_eq_true, beq_iff_eq] at htest
    exact hnew p.1 p.2 hget htest.1
  obtain ⟨hseeded, hfloor⟩ := seedMasters_spec orgId (systemCategories ++ standaloneSystemCategories) db.books.categories
  have hcats : (db.seedOrgDefaults orgId).books.categories =
      (systemCategories ++ standaloneSystemCategories).foldl (seedMaster orgId []) db.books.categories := by
    show (systemCategories ++ standaloneSystemCategories).foldl
      (seedMaster orgId (systemSlugs db.books.categories orgId)) db.books.categories = _
    rw [hnone]
  refine ⟨?_, hfit.recategorize ⟨rfl, rfl, rfl⟩ fun o x type _ htakes => ?_⟩
  · rw [hcats]
    refine ⟨hseeded.tree ht, fun type hone => ?_⟩
    cases type with
    | income => exact hfloor _ List.mem_cons_self nofun
    | expense => exact hfloor _ (List.mem_cons_of_mem _ List.mem_cons_self) nofun
    | both => exact absurd rfl hone
  · obtain ⟨c, hc, hrest⟩ := htakes
    exact ⟨c, by rw [hcats]; exact hseeded.kept x c hc, hrest⟩

/-! ## Runs -/

section Runs

variable {normalizeCategoryName : String → String} {roundedMean : Int → Nat → Int}

theorem run_rooted {start : CategoryDb} (h : Rooted start.books.categories orgId) (calls : List CategoryCall) :
    Rooted (run (handleCategory normalizeCategoryName roundedMean) start calls).books.categories orgId :=
  run_invariant (I := fun db : CategoryDb => Rooted db.books.categories orgId)
    (fun _ _ _ hI hcall => handleCategory_rooted hcall hI) calls h

theorem run_fit {start : CategoryDb} {calls : List CategoryCall} (hr : Rooted start.books.categories orgId)
    (hfit : AllFit start) (hG : Guarded (handleCategory normalizeCategoryName roundedMean) FitGuard start calls) :
    AllFit (run (handleCategory normalizeCategoryName roundedMean) start calls) := by
  have hboth := run_invariant_of_guarded
    (I := fun db : CategoryDb => Rooted db.books.categories orgId ∧ AllFit db)
    (fun _ _ _ hI hg hcall =>
      ⟨handleCategory_rooted hcall hI.1, handleCategory_fit hcall hg hI.1.tree hI.2⟩) calls hG ⟨hr, hfit⟩
  exact hboth.2

/-- A batch with an item that is refused on its own is refused. -/
theorem batchMove_refused {org : Nat} {moves : List (Nat × Nat)} {move : Nat × Nat} (hmem : move ∈ moves)
    {e : ServiceError} (h : moveSubcategory normalizeCategoryName db org move.1 move.2 = .error e) :
    ∃ e, batchMoveSubcategories normalizeCategoryName db org moves = .error e := by
  rcases hbatch : batchMoveSubcategories normalizeCategoryName db org moves with e | db'
  · exact ⟨e, rfl⟩
  · exfalso
    obtain ⟨_, _, hbatch⟩ := bind_eq_ok.mp hbatch
    obtain ⟨seen, hresolve, -⟩ := bind_eq_ok.mp hbatch
    have hall : ∀ (moves : List (Nat × Nat)) (seen seen' : List ((Nat × String) × Nat)),
        moves.foldlM (resolveItem normalizeCategoryName db org) seen = .ok seen' →
        ∀ move ∈ moves, ∃ r, resolveForMove normalizeCategoryName db org move.1 move.2 = .ok r := by
      intro moves
      induction moves with
      | nil => exact fun _ _ _ _ hmem => by cases hmem
      | cons m moves ih =>
        intro seen seen' hfold move hmem
        rw [List.foldlM_cons, bind_eq_ok] at hfold
        obtain ⟨seen₁, hstep, hfold⟩ := hfold
        rcases List.mem_cons.mp hmem with rfl | hmem
        · obtain ⟨r, hr, -⟩ := bind_eq_ok.mp hstep
          exact ⟨r, hr⟩
        · exact ih seen₁ seen' hfold move hmem
    obtain ⟨r, hr⟩ := hall moves [] seen hresolve move hmem
    have hok : moveSubcategory normalizeCategoryName db org move.1 move.2 = .ok (db.setParent move) :=
      bind_eq_ok.mpr ⟨r, hr, rfl⟩
    rw [hok] at h
    cases h

/-- **Seeded, an org keeps its tree and its floor, whatever is called. Its rows, templates and
plan items are of types their categories take as long as every pairing is into a category that
takes both. A refused call changes nothing, and one refused item refuses its batch.** -/
theorem category_tree_kept (normalizeCategoryName : String → String) (roundedMean : Int → Nat → Int)
    (start : CategoryDb) (orgId : Nat) (htree : TreeOk start.books.categories) (hfit : AllFit start)
    (hnew : ∀ i c, start.books.categories.get? i = some c → c.orgId ≠ orgId) (calls : List CategoryCall) :
    let step := handleCategory normalizeCategoryName roundedMean
    let db := run step (start.seedOrgDefaults orgId) calls
    TreeOk db.books.categories ∧ Floor db orgId ∧
      (Guarded step FitGuard (start.seedOrgDefaults orgId) calls → AllFit db) ∧
      (∀ call e, step db call = .error e → serve step db call = db) ∧
      (∀ org moves move e, move ∈ moves → moveSubcategory normalizeCategoryName db org move.1 move.2 = .error e →
        serve step db (.batchMove org moves) = db) := by
  dsimp only
  obtain ⟨hroot, hfit⟩ := seedOrgDefaults_spec hnew htree hfit
  have hrooted : Rooted (run (handleCategory normalizeCategoryName roundedMean) (start.seedOrgDefaults orgId)
      calls).books.categories orgId := run_rooted hroot calls
  refine ⟨hrooted.tree, floor_iff.mpr hrooted.floor, run_fit hroot hfit, ?_, ?_⟩
  · intro call e h
    rw [serve, h]
  · intro org moves move e hmem h
    obtain ⟨e', hbatch⟩ := batchMove_refused hmem h
    have hstep : ∀ db' : CategoryDb, db' = run (handleCategory normalizeCategoryName roundedMean)
        (start.seedOrgDefaults orgId) calls → handleCategory normalizeCategoryName roundedMean db'
          (.batchMove org moves) = .error e' := by
      intro db' hdb
      rw [hdb]
      exact hbatch
    rw [serve, hstep _ rfl]

/-- An org before the seed: two accounts, nothing else. -/
def freshOrg : CategoryDb :=
  { books := { accounts := (Table.empty.insert { orgId := 1, name := "Checking" }).insert { orgId := 1, name := "Joint" } } }

/-- Spent on groceries: the seed gives them the id 21. -/
def groceries : TransactionCreate :=
  { accountId := 1, categoryId := 21, description := "Market", amount := ⟨4000, by decide⟩, type := .expense, date := 10 }

theorem freshOrg_fit : AllFit freshOrg where
  plain _ _ ht := by cases ht
  takes _ _ _ hu := by
    cases hu with
    | row i t ht => cases ht
    | template i r hr => cases hr
    | item i p hp => cases hp

/-- A master is added, groceries are filed and moved, and their old master is deleted. -/
theorem category_tree_kept_moved :
    AllFit (run (handleCategory (fun s => s) (fun _ _ => 0)) (freshOrg.seedOrgDefaults 1)
      [.createCategory 1 { name := "Household", type := .expense }, .ledger (.createTransaction 1 groceries),
        .moveSubcategory 1 21 7, .deleteCategory 1 20 none]) :=
  (category_tree_kept (fun s => s) (fun _ _ => 0) freshOrg 1 (fun _ _ _ h => by cases h) freshOrg_fit
    (fun _ _ h => by cases h) _).2.2.1 ⟨trivial, trivial, trivial, trivial, trivial⟩

/-- Groceries converted into a transfer that keeps its category: the leg that comes in is an
income, filed under an expense category. -/
theorem income_in_expense_category :
    ¬ AllFit (run (handleCategory (fun s => s) (fun _ _ => 0)) (freshOrg.seedOrgDefaults 1)
      [.ledger (.createTransaction 1 groceries), .ledger (.convertAndCreateLeg 1 1 2 false none)]) := by
  generalize hdb : run (handleCategory (fun s => s) (fun _ _ => 0)) (freshOrg.seedOrgDefaults 1)
    [.ledger (.createTransaction 1 groceries), .ledger (.convertAndCreateLeg 1 1 2 false none)] = db
  have hrow : (db.books.transactions.get? 2).map (fun t => (t.orgId, t.categoryId, t.type)) =
      some (1, 21, .income) := by rw [← hdb]; decide +kernel
  have hcat : (db.books.categories.get? 21).map (·.type) = some .expense := by rw [← hdb]; decide +kernel
  obtain ⟨t, ht, hrow⟩ := Option.map_eq_some_iff.mp hrow
  simp only [Prod.mk.injEq] at hrow
  obtain ⟨horg, hcategory, htype⟩ := hrow
  intro hfit
  obtain ⟨c, hc, -, hmatch⟩ := hfit.takes 1 21 .income (.row 2 t ht horg hcategory htype)
  rw [hc, Option.map_some, Option.some.injEq] at hcat
  rw [hcat] at hmatch
  cases hmatch

end Runs

end BetterDecision
