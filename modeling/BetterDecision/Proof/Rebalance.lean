import BetterDecision.Lib.Keyed
import BetterDecision.Model.Rebalance

/-!
# What a rebalance moves

The givers' parts and the takings each make up `movable`, so the total stands
(`sum_given`, `sum_received`). A giver's part lies within its surplus because one cent
more goes only where a remainder is positive, and `Apportion.leftover_lt` leaves enough of
those. A taking lies within the need, and a later need is served only once the earlier
ones are met.
-/

namespace BetterDecision

variable {facts : List CategoryFact} {f : CategoryFact}

/-! ## Surplus and need -/

theorem mem_headroom {p : Nat × Int} :
    p ∈ headroom facts ↔ ∃ f ∈ facts, 0 < surplusOf f ∧ p = (f.categoryId, surplusOf f) := by
  unfold headroom
  rw [List.mem_filterMap]
  constructor
  · intro ⟨f, hf, h⟩
    split at h
    · rename_i hpos
      exact ⟨f, hf, hpos, (Option.some.inj h).symm⟩
    · cases h
  · intro ⟨f, hf, hpos, hp⟩
    exact ⟨f, hf, by rw [if_pos hpos, hp]⟩

theorem mem_deficit {p : Nat × Int} :
    p ∈ deficit facts ↔ ∃ f ∈ facts, surplusOf f < 0 ∧ p = (f.categoryId, -surplusOf f) := by
  unfold deficit
  rw [List.mem_filterMap]
  constructor
  · intro ⟨f, hf, h⟩
    split at h
    · rename_i hneg
      exact ⟨f, hf, hneg, (Option.some.inj h).symm⟩
    · cases h
  · intro ⟨f, hf, hneg, hp⟩
    exact ⟨f, hf, by rw [if_pos hneg, hp]⟩

/-- Entries picked from the facts keep the order of the facts. -/
theorem filterMap_keys_sublist {g : CategoryFact → Option (Nat × Int)}
    (hg : ∀ f p, g f = some p → p.1 = f.categoryId) (facts : List CategoryFact) :
    ((facts.filterMap g).map Prod.fst).Sublist (facts.map CategoryFact.categoryId) := by
  induction facts with
  | nil => exact List.Sublist.refl _
  | cons f facts ih =>
    rcases hf : g f with _ | p
    · rw [List.filterMap_cons_none hf]
      exact ih.cons _
    · rw [List.filterMap_cons_some hf, List.map_cons, List.map_cons, hg f p hf]
      exact ih.cons_cons _

section Settled

variable (hids : Keyed CategoryFact.categoryId facts)
include hids

theorem headroom_keys : ((headroom facts).map Prod.fst).Nodup := by
  refine List.Nodup.sublist (filterMap_keys_sublist (fun f p h => ?_) facts) hids
  split at h
  · rw [← Option.some.inj h]
  · cases h

theorem deficit_keys : ((deficit facts).map Prod.fst).Nodup := by
  refine List.Nodup.sublist (filterMap_keys_sublist (fun f p h => ?_) facts) hids
  split at h
  · rw [← Option.some.inj h]
  · cases h

theorem deficit_lookup (hf : f ∈ facts) :
    (deficit facts).lookup f.categoryId = if surplusOf f < 0 then some (-surplusOf f) else none := by
  split
  · rename_i hneg
    exact lookup_eq_some_of_mem (deficit_keys hids) (mem_deficit.mpr ⟨f, hf, hneg, rfl⟩)
  · rename_i hneg
    refine lookup_eq_none_of_not_mem fun v hv => ?_
    obtain ⟨g, hg, hgneg, hp⟩ := mem_deficit.mp hv
    rw [hids.eq_of_key hf hg (Prod.mk.inj hp).1] at hneg
    exact hneg hgneg

omit hids in
theorem totalHeadroom_nonneg (facts : List CategoryFact) : 0 ≤ totalHeadroom facts := by
  refine List.sum_nonneg fun v hv => ?_
  obtain ⟨p, hp, rfl⟩ := List.mem_map.mp hv
  obtain ⟨f, -, hpos, rfl⟩ := mem_headroom.mp hp
  exact hpos.le

omit hids in
theorem totalDeficit_nonneg (facts : List CategoryFact) : 0 ≤ totalDeficit facts := by
  refine List.sum_nonneg fun v hv => ?_
  obtain ⟨p, hp, rfl⟩ := List.mem_map.mp hv
  obtain ⟨f, -, hneg, rfl⟩ := mem_deficit.mp hp
  dsimp only
  omega

omit hids in
theorem movable_nonneg (facts : List CategoryFact) : 0 ≤ movable facts :=
  le_min (totalHeadroom_nonneg facts) (totalDeficit_nonneg facts)

/-! ## Giving -/

omit hids in
/-- Fewer cents are left than there are positive remainders, unless there are neither. -/
theorem leftoverCents_lt (hpos : 0 < totalHeadroom facts) : leftoverCents facts <
      ((headroom facts).filter (fun giver => 0 < remainderOf facts giver)).length ∨
    leftoverCents facts = 0 := by
  rcases lt_or_ge 0 (leftoverCents facts) with h | h
  · exact Or.inl (Apportion.leftover_lt hpos rfl h)
  · exact Or.inr (le_antisymm h (Apportion.leftover_nonneg hpos rfl))

omit hids in
theorem giversByRemainder_perm (facts : List CategoryFact) : (giversByRemainder facts).Perm (headroom facts) :=
  List.perm_insertionSort _ _

omit hids in
theorem giversByRemainder_sorted (facts : List CategoryFact) :
    (giversByRemainder facts).Pairwise (fun p q => remainderOf facts q ≤ remainderOf facts p) := by
  have : Std.Total (fun p q : Nat × Int => remainderOf facts q < remainderOf facts p ∨
      (remainderOf facts p = remainderOf facts q ∧ p.1 ≤ q.1)) := ⟨fun p q => by omega⟩
  have : IsTrans (Nat × Int) (fun p q => remainderOf facts q < remainderOf facts p ∨
      (remainderOf facts p = remainderOf facts q ∧ p.1 ≤ q.1)) := ⟨fun p q r => by omega⟩
  refine (List.pairwise_insertionSort _ (headroom facts)).imp fun h => ?_
  omega

omit hids in
theorem leftoverCents_le (hpos : 0 < totalHeadroom facts) : (leftoverCents facts).toNat ≤
    ((giversByRemainder facts).filter (fun giver => 0 < remainderOf facts giver)).length := by
  rw [((giversByRemainder_perm facts).filter _).length_eq]
  rcases leftoverCents_lt hpos with h | h <;> omega

omit hids in
/-- One cent more is given only where a remainder is positive. -/
theorem raisedGivers_remainder (hpos : 0 < totalHeadroom facts) :
    ∀ giver ∈ raisedGivers facts, 0 < remainderOf facts giver :=
  Apportion.remainder_pos_of_mem_take (giversByRemainder_sorted facts) (leftoverCents_le hpos)

omit hids in
theorem raisedGivers_length (hpos : 0 < totalHeadroom facts) :
    ((raisedGivers facts).length : Int) = leftoverCents facts := by
  have hle := (leftoverCents_le hpos).trans (List.length_filter_le _ _)
  have hnn : 0 ≤ leftoverCents facts := Apportion.leftover_nonneg hpos rfl
  rw [raisedGivers, List.length_take, Nat.min_eq_left hle]
  omega

omit hids in
/-- What a giver gives lies within its surplus. -/
theorem given_bounds {cid : Nat} {gives : Int} (h : (cid, gives) ∈ given facts) :
    ∃ f ∈ facts, f.categoryId = cid ∧ 0 < surplusOf f ∧ 0 ≤ gives ∧ gives ≤ surplusOf f := by
  unfold given at h
  split at h
  · rename_i hpos
    obtain ⟨giver, hgiver, heq⟩ := List.mem_map.mp h
    obtain ⟨rfl, rfl⟩ := Prod.mk.inj heq
    obtain ⟨f, hf, hsurplus, rfl⟩ := mem_headroom.mp hgiver
    have hweight : 0 ≤ Prod.snd (f.categoryId, surplusOf f) := hsurplus.le
    have hmovable : movable facts ≤ totalHeadroom facts := min_le_left _ _
    exact ⟨f, hf, rfl, hsurplus, Apportion.share_nonneg hpos.1 hpos.2.le hweight _,
      Apportion.share_le hpos.1 hmovable hweight (raisedGivers_remainder hpos.1)⟩
  · cases h

theorem given_keys : ((given facts).map Prod.fst).Nodup := by
  unfold given
  split
  · rw [List.map_map]
    exact headroom_keys hids
  · exact List.nodup_nil

/-- The givers' parts make up what moves. -/
theorem sum_given : ((given facts).map Prod.snd).sum = movable facts := by
  unfold given
  split
  · rename_i hpos
    have hnodup : (headroom facts).Nodup := List.Nodup.of_map _ (headroom_keys hids)
    have hraised : (raisedGivers facts).Sublist (giversByRemainder facts) := List.take_sublist _ _
    rw [List.map_map]
    exact Apportion.sum_share hnodup
      (((giversByRemainder_perm facts).nodup_iff.mpr hnodup).sublist hraised)
      (fun giver hg => (giversByRemainder_perm facts).mem_iff.mp (hraised.mem hg)) (raisedGivers_length hpos.1)
  · rename_i hnot
    have hle : movable facts ≤ totalHeadroom facts := min_le_left _ _
    have hnn := movable_nonneg facts
    simp only [List.map_nil, List.sum_nil]
    omega

/-! ## Receiving -/

/-- Every deficit is in the order, once. -/
theorem orderedDeficits_perm {priorityIds : List Nat} (hpriority : priorityIds.Nodup) :
    (orderedDeficits facts priorityIds).Perm ((deficit facts).map Prod.fst) := by
  have hrest : (((deficit facts).insertionSort (fun p q => q.2 ≤ p.2)).map Prod.fst).Perm
      ((deficit facts).map Prod.fst) := (List.perm_insertionSort _ _).map _
  have hrestNodup := hrest.nodup_iff.mpr (deficit_keys hids)
  refine (List.perm_ext_iff_of_nodup ?_ (deficit_keys hids)).mpr fun cid => ?_
  · unfold orderedDeficits
    dsimp only
    refine List.nodup_append.mpr ⟨hpriority.filter _, hrestNodup.filter _, fun a ha b hb hab => ?_⟩
    subst hab
    have hnot := (List.mem_filter.mp hb).2
    rw [List.contains_iff_mem.mpr ha] at hnot
    cases hnot
  · unfold orderedDeficits
    dsimp only
    rw [List.mem_append]
    constructor
    · intro h
      rcases h with h | h
      · obtain ⟨v, hv⟩ := Option.isSome_iff_exists.mp (List.mem_filter.mp h).2
        exact List.mem_map.mpr ⟨_, mem_of_lookup_eq_some hv, rfl⟩
      · exact hrest.mem_iff.mp (List.mem_filter.mp h).1
    · intro h
      by_cases hnamed : cid ∈ priorityIds.filter (fun cid => ((deficit facts).lookup cid).isSome)
      · exact Or.inl hnamed
      · exact Or.inr (List.mem_filter.mpr ⟨hrest.mem_iff.mpr h, by simpa using hnamed⟩)

/-- The needs in the order they are served. -/
def orderedNeeds (facts : List CategoryFact) (priorityIds : List Nat) : List (Nat × Int) :=
  (orderedDeficits facts priorityIds).map (fun cid => (cid, ((deficit facts).lookup cid).getD 0))

omit hids in
theorem orderedNeeds_keys (priorityIds : List Nat) :
    (orderedNeeds facts priorityIds).map Prod.fst = orderedDeficits facts priorityIds := by
  unfold orderedNeeds
  rw [List.map_map]
  exact List.map_id _

theorem mem_orderedNeeds {priorityIds : List Nat} (hpriority : priorityIds.Nodup) {p : Nat × Int}
    (h : p ∈ orderedNeeds facts priorityIds) : ∃ f ∈ facts, surplusOf f < 0 ∧ p = (f.categoryId, -surplusOf f) := by
  obtain ⟨cid, hcid, rfl⟩ := List.mem_map.mp h
  obtain ⟨q, hq, rfl⟩ := List.mem_map.mp ((orderedDeficits_perm hids hpriority).mem_iff.mp hcid)
  obtain ⟨f, hf, hneg, rfl⟩ := mem_deficit.mp hq
  refine ⟨f, hf, hneg, ?_⟩
  rw [deficit_lookup hids hf, if_pos hneg, Option.getD_some]

theorem sum_orderedNeeds {priorityIds : List Nat} (hpriority : priorityIds.Nodup) :
    ((orderedNeeds facts priorityIds).map Prod.snd).sum = totalDeficit facts := by
  have hperm := (orderedDeficits_perm hids hpriority).map (fun cid => ((deficit facts).lookup cid).getD 0)
  unfold orderedNeeds totalDeficit
  rw [List.map_map]
  refine Eq.trans ?_ (sum_lookup (deficit_keys hids) (deficit_keys hids) fun p hp => List.mem_map_of_mem hp)
  exact hperm.sum_eq

/-- The takings make up what moves. -/
theorem sum_received {priorityIds : List Nat} (hpriority : priorityIds.Nodup) :
    ((received facts priorityIds).map Prod.snd).sum = movable facts := by
  have hneeds : ∀ p ∈ orderedNeeds facts priorityIds, 0 ≤ p.2 := by
    intro p hp
    obtain ⟨f, -, hneg, rfl⟩ := mem_orderedNeeds hids hpriority hp
    dsimp only
    omega
  have h := Apportion.sum_fill hneeds (movable_nonneg facts)
  rw [sum_orderedNeeds hids hpriority] at h
  exact h.trans (min_eq_left (min_le_right _ _))

theorem received_keys {priorityIds : List Nat} (hpriority : priorityIds.Nodup) :
    ((received facts priorityIds).map Prod.fst).Nodup := by
  have hsub := Apportion.fill_keys_sublist (movable facts) (orderedNeeds facts priorityIds)
  rw [orderedNeeds_keys] at hsub
  exact ((orderedDeficits_perm hids hpriority).nodup_iff.mpr (deficit_keys hids)).sublist hsub

/-- What a deficit receives lies within its need. -/
theorem received_bounds {priorityIds : List Nat} (hpriority : priorityIds.Nodup) {cid : Nat} {takes : Int}
    (h : (cid, takes) ∈ received facts priorityIds) :
    ∃ f ∈ facts, f.categoryId = cid ∧ surplusOf f < 0 ∧ 0 ≤ takes ∧ takes ≤ -surplusOf f := by
  have hneeds : ∀ p ∈ orderedNeeds facts priorityIds, 0 ≤ p.2 := by
    intro p hp
    obtain ⟨f, -, hneg, rfl⟩ := mem_orderedNeeds hids hpriority hp
    dsimp only
    omega
  obtain ⟨hnn, need, hneed, hle⟩ := Apportion.fill_bounds hneeds h
  obtain ⟨f, hf, hneg, hp⟩ := mem_orderedNeeds hids hpriority hneed
  obtain ⟨rfl, rfl⟩ := Prod.mk.inj hp
  exact ⟨f, hf, rfl, hneg, hnn, hle⟩

/-! ## The new amounts -/

/-- Where a category's amount goes. -/
inductive Rescaled (f : CategoryFact) (newAmount : Int) : Prop
  | gives (gives : Int) (hsurplus : 0 < surplusOf f) (hnn : 0 ≤ gives) (hle : gives ≤ surplusOf f)
      (hnew : newAmount = f.budgetAmount - gives)
  | receives (takes : Int) (hneg : surplusOf f < 0) (hnn : 0 ≤ takes) (hle : takes ≤ -surplusOf f)
      (hnew : newAmount = f.budgetAmount + takes)
  | stays (hnew : newAmount = f.budgetAmount)

theorem newAmountOf_moved {priorityIds : List Nat} (hpriority : priorityIds.Nodup) (hf : f ∈ facts) :
    Rescaled f (newAmountOf facts priorityIds f) := by
  unfold newAmountOf
  rcases hg : (given facts).lookup f.categoryId with _ | gives
  · rcases hr : (received facts priorityIds).lookup f.categoryId with _ | takes
    · exact .stays rfl
    · obtain ⟨g, hgm, hid, hneg, hnn, hle⟩ := received_bounds hids hpriority (mem_of_lookup_eq_some hr)
      obtain rfl := hids.eq_of_key hgm hf hid
      exact .receives takes hneg hnn hle rfl
  · obtain ⟨g, hgm, hid, hsurplus, hnn, hle⟩ := given_bounds (mem_of_lookup_eq_some hg)
    obtain rfl := hids.eq_of_key hgm hf hid
    exact .gives gives hsurplus hnn hle rfl

/-- Nobody both gives and receives. -/
theorem newAmountOf_eq {priorityIds : List Nat} (hpriority : priorityIds.Nodup) (f : CategoryFact) :
    newAmountOf facts priorityIds f = f.budgetAmount - ((given facts).lookup f.categoryId).getD 0 +
      ((received facts priorityIds).lookup f.categoryId).getD 0 := by
  unfold newAmountOf
  rcases hg : (given facts).lookup f.categoryId with _ | gives
  · rcases hr : (received facts priorityIds).lookup f.categoryId with _ | takes <;> simp
  · rcases hr : (received facts priorityIds).lookup f.categoryId with _ | takes
    · simp
    · obtain ⟨g, hgm, hgid, hsurplus, -, -⟩ := given_bounds (mem_of_lookup_eq_some hg)
      obtain ⟨r, hrm, hrid, hneg, -, -⟩ := received_bounds hids hpriority (mem_of_lookup_eq_some hr)
      obtain rfl := hids.eq_of_key hgm hrm (hgid.trans hrid.symm)
      omega

/-- **The total stands.** -/
theorem sum_newAmountOf {priorityIds : List Nat} (hpriority : priorityIds.Nodup) :
    (facts.map (newAmountOf facts priorityIds)).sum = (facts.map CategoryFact.budgetAmount).sum := by
  have hgiven : (facts.map (fun f => ((given facts).lookup f.categoryId).getD 0)).sum = movable facts := by
    rw [← sum_given hids, ← sum_lookup (given_keys hids) hids fun p hp => ?_, List.map_map]
    · rfl
    · have hp : (p.1, p.2) ∈ given facts := hp
      obtain ⟨f, hf, hid, -⟩ := given_bounds hp
      exact List.mem_map.mpr ⟨f, hf, hid⟩
  have hreceived : (facts.map (fun f => ((received facts priorityIds).lookup f.categoryId).getD 0)).sum =
      movable facts := by
    rw [← sum_received hids hpriority, ← sum_lookup (received_keys hids hpriority) hids fun p hp => ?_, List.map_map]
    · rfl
    · have hp : (p.1, p.2) ∈ received facts priorityIds := hp
      obtain ⟨f, hf, hid, -⟩ := received_bounds hids hpriority hp
      exact List.mem_map.mpr ⟨f, hf, hid⟩
  have hsplit : ∀ fs : List CategoryFact, (fs.map (newAmountOf facts priorityIds)).sum =
      (fs.map CategoryFact.budgetAmount).sum - (fs.map (fun f => ((given facts).lookup f.categoryId).getD 0)).sum +
        (fs.map (fun f => ((received facts priorityIds).lookup f.categoryId).getD 0)).sum := by
    intro fs
    induction fs with
    | nil => rfl
    | cons f fs ih =>
      simp only [List.map_cons, List.sum_cons, newAmountOf_eq hids hpriority f, ih]
      omega
  rw [hsplit, hgiven, hreceived]
  omega

omit hids in
theorem pairwise_of_splits {α : Type} {R : α → α → Prop} {l : List α}
    (h : ∀ before after, l = before ++ after → ∀ a ∈ before, ∀ b ∈ after, R a b) : l.Pairwise R := by
  induction l with
  | nil => exact List.Pairwise.nil
  | cons x l ih =>
    refine List.pairwise_cons.mpr ⟨fun y hy => h [x] l rfl x (List.mem_singleton_self x) y hy, ih ?_⟩
    intro before after heq a ha b hb
    exact h (x :: before) after (by rw [heq]; rfl) a (List.mem_cons_of_mem _ ha) b hb

theorem newAmountOf_received {priorityIds : List Nat} (hpriority : priorityIds.Nodup) {cid : Nat} {takes : Int}
    (h : (cid, takes) ∈ received facts priorityIds) (hf : f ∈ facts) (hfid : f.categoryId = cid) :
    newAmountOf facts priorityIds f = f.budgetAmount + takes := by
  obtain ⟨r, hr, hrid, hneg, -, -⟩ := received_bounds hids hpriority h
  obtain rfl := hids.eq_of_key hr hf (hrid.trans hfid.symm)
  have hgiven : (given facts).lookup r.categoryId = none := by
    refine lookup_eq_none_of_not_mem fun gives hgives => ?_
    obtain ⟨g, hg, hgid, hsurplus, -, -⟩ := given_bounds hgives
    obtain rfl := hids.eq_of_key hg hr hgid
    omega
  unfold newAmountOf
  rw [hgiven, hfid, lookup_eq_some_of_mem (received_keys hids hpriority) h]

omit hids in
/-- Whoever ends with more has received it. -/
theorem received_of_lt {priorityIds : List Nat} (hlt : f.budgetAmount < newAmountOf facts priorityIds f) :
    ∃ takes, (f.categoryId, takes) ∈ received facts priorityIds := by
  unfold newAmountOf at hlt
  rcases hg : (given facts).lookup f.categoryId with _ | gives
  · rw [hg] at hlt
    rcases hr : (received facts priorityIds).lookup f.categoryId with _ | takes
    · rw [hr] at hlt
      exact absurd hlt (lt_irrefl _)
    · exact ⟨takes, mem_of_lookup_eq_some hr⟩
  · obtain ⟨g, -, -, -, hnn, -⟩ := given_bounds (mem_of_lookup_eq_some hg)
    rw [hg] at hlt
    dsimp only at hlt
    omega

/-- Of two deficits, the later one receives only once the earlier one is met. -/
theorem received_in_order {priorityIds : List Nat} (hpriority : priorityIds.Nodup) :
    (orderedDeficits facts priorityIds).Pairwise (fun a b => ∀ f ∈ facts, f.categoryId = a → ∀ g ∈ facts,
      g.categoryId = b → g.budgetAmount < newAmountOf facts priorityIds g →
      newAmountOf facts priorityIds f = projectPeriodSpend f) := by
  have hnodup := (orderedDeficits_perm hids hpriority).nodup_iff.mpr (deficit_keys hids)
  refine pairwise_of_splits fun before after hsplit a ha b hb f hf hfa g _ hgb hraised => ?_
  obtain ⟨takes, htakes⟩ := received_of_lt hraised
  rw [hgb] at htakes
  rw [hsplit] at hnodup
  -- the needs, cut where the order is
  have hneeds : orderedNeeds facts priorityIds =
      before.map (fun cid => (cid, ((deficit facts).lookup cid).getD 0)) ++
        after.map (fun cid => (cid, ((deficit facts).lookup cid).getD 0)) := by
    rw [orderedNeeds, hsplit, List.map_append]
  have hreceived : received facts priorityIds = Apportion.fill (movable facts) (orderedNeeds facts priorityIds) := rfl
  rw [hreceived, hneeds] at htakes
  have hserved := Apportion.fill_served (fun p hp => ?_) htakes _ (List.mem_map_of_mem ha)
  · rw [← hneeds, ← hreceived] at hserved
    obtain ⟨r, hr, hrid, hneg, -, -⟩ := received_bounds hids hpriority hserved
    obtain rfl := hids.eq_of_key hr hf (hrid.trans hfa.symm)
    rw [newAmountOf_received hids hpriority hserved hr hrid, ← hrid, deficit_lookup hids hr, if_pos hneg,
      Option.getD_some]
    unfold surplusOf
    omega
  · obtain ⟨cid, hcid, rfl⟩ := List.mem_map.mp hp
    intro (heq : cid = b)
    subst heq
    exact List.disjoint_of_nodup_append hnodup hcid hb

end Settled

/-! ## The suggestions -/

/-- The amount a category ends with once the suggestions are taken. -/
def amountAfter (suggestions : List BudgetDeltaSuggestion) (fact : CategoryFact) : Int :=
  match rowAt BudgetDeltaSuggestion.categoryId suggestions fact.categoryId with
  | some s => s.suggestedAmount
  | none => fact.budgetAmount

theorem suggestion_ok {reasons : Nat → Option String} {newAmount : Int} {s : BudgetDeltaSuggestion}
    (h : suggestion reasons f newAmount = .ok s) : s.categoryId = f.categoryId ∧ s.suggestedAmount = newAmount := by
  unfold suggestion at h
  split at h
  · obtain rfl := Except.ok.inj h
    exact ⟨rfl, rfl⟩
  · cases h

/-- The suggestions are the changed rows. -/
theorem mapM_suggestion {reasons : Nat → Option String} {amount : CategoryFact → Int} {changed : List CategoryFact}
    {suggestions : List BudgetDeltaSuggestion}
    (h : changed.mapM (fun f => suggestion reasons f (amount f)) = .ok suggestions) (cid : Nat) :
    (rowAt BudgetDeltaSuggestion.categoryId suggestions cid).map BudgetDeltaSuggestion.suggestedAmount =
      (rowAt CategoryFact.categoryId changed cid).map amount := by
  have hall := mapM_eq_ok.mp h
  clear h
  induction hall with
  | nil => rfl
  | cons hs _ ih =>
    obtain ⟨hid, hamount⟩ := suggestion_ok hs
    rw [rowAt_cons, rowAt_cons, hid]
    split
    · rw [Option.map_some, Option.map_some, hamount]
    · exact ih

theorem amountAfter_eq {priorityIds : List Nat} {reasons : Nat → Option String}
    {suggestions : List BudgetDeltaSuggestion} {uncovered : Int} (hids : Keyed CategoryFact.categoryId facts)
    (h : allocateRebalance facts priorityIds reasons = .ok (suggestions, uncovered)) (hf : f ∈ facts) :
    amountAfter suggestions f = newAmountOf facts priorityIds f := by
  obtain ⟨made, hmade, h⟩ := bind_eq_ok.mp h
  obtain ⟨rfl, rfl⟩ := Prod.mk.inj (Except.ok.inj h)
  have hread := mapM_suggestion hmade f.categoryId
  unfold amountAfter
  by_cases hsame : newAmountOf facts priorityIds f = f.budgetAmount
  · have hnone : rowAt CategoryFact.categoryId
        (facts.filter (fun f => newAmountOf facts priorityIds f - f.budgetAmount != 0)) f.categoryId = none := by
      refine rowAt_eq_none.mpr fun g hg hid => ?_
      obtain ⟨hg, hchanged⟩ := List.mem_filter.mp hg
      obtain rfl := hids.eq_of_key hg hf hid
      rw [hsame] at hchanged
      simp at hchanged
    rw [hnone, Option.map_none, Option.map_eq_none_iff] at hread
    rw [hread, hsame]
  · have hsome := (hids.filter (fun f => newAmountOf facts priorityIds f - f.budgetAmount != 0)).rowAt_eq_some.mpr
      ⟨List.mem_filter.mpr ⟨hf, by simpa [sub_eq_zero] using hsame⟩, rfl⟩
    rw [hsome, Option.map_some] at hread
    obtain ⟨s, hs, heq⟩ := Option.map_eq_some_iff.mp hread
    rw [hs]
    exact heq

/-- Where nobody is projected to spend less than nothing, every suggestion is valid. -/
theorem allocateRebalance_returns {priorityIds : List Nat} (reasons : Nat → Option String)
    (hids : Keyed CategoryFact.categoryId facts) (hpriority : priorityIds.Nodup)
    (hbudget : ∀ f ∈ facts, 0 ≤ f.budgetAmount) (hprojected : ∀ f ∈ facts, 0 ≤ projectPeriodSpend f) :
    ∃ suggestions, allocateRebalance facts priorityIds reasons = .ok (suggestions, uncoveredOverspend facts) := by
  have hvalid : ∀ f ∈ facts.filter (fun f => newAmountOf facts priorityIds f - f.budgetAmount != 0),
      ∃ s, suggestion reasons f (newAmountOf facts priorityIds f) = .ok s := by
    intro f hf
    have hf := (List.mem_filter.mp hf).1
    have hb := hbudget f hf
    have hp := hprojected f hf
    have hnew : 0 ≤ newAmountOf facts priorityIds f := by
      cases newAmountOf_moved hids hpriority hf with
      | gives gives hsurplus hnn hle hnew =>
        unfold surplusOf at hle
        omega
      | receives takes hneg hnn hle hnew => omega
      | stays hnew => omega
    unfold suggestion
    rw [dif_pos ⟨hb, hnew⟩]
    exact ⟨_, rfl⟩
  obtain ⟨suggestions, hs⟩ := mapM_returns hvalid
  exact ⟨suggestions, bind_eq_ok.mpr ⟨suggestions, hs, rfl⟩⟩

/-- What the allocation promises. -/
structure Rebalanced (facts : List CategoryFact) (priorityIds : List Nat) (suggestions : List BudgetDeltaSuggestion)
    (uncovered : Int) : Prop where
  total : (facts.map (amountAfter suggestions)).sum = (facts.map CategoryFact.budgetAmount).sum
  /-- Who ends with less keeps the projected spend, so it gives cents it had in surplus. -/
  givers : ∀ f ∈ facts, amountAfter suggestions f < f.budgetAmount → projectPeriodSpend f ≤ amountAfter suggestions f
  /-- Only a surplus is lowered and only a deficit is raised. -/
  lowered : ∀ f ∈ facts, amountAfter suggestions f < f.budgetAmount → projectPeriodSpend f < f.budgetAmount
  raised : ∀ f ∈ facts, f.budgetAmount < amountAfter suggestions f → amountAfter suggestions f ≤ projectPeriodSpend f
  uncovered : uncovered = totalDeficit facts - min (totalHeadroom facts) (totalDeficit facts)
  /-- A deficit receives only once the ones before it are covered. -/
  inOrder : (orderedDeficits facts priorityIds).Pairwise (fun a b => ∀ f ∈ facts, f.categoryId = a → ∀ g ∈ facts,
    g.categoryId = b → g.budgetAmount < amountAfter suggestions g → amountAfter suggestions f = projectPeriodSpend f)
  /-- Fewer cents are left over than there are positive remainders, unless there are
  neither. -/
  leftover : leftoverCents facts < ((headroom facts).filter (fun giver => 0 < remainderOf facts giver)).length ∨
    (leftoverCents facts = 0 ∧ (headroom facts).filter (fun giver => 0 < remainderOf facts giver) = [])

/-- Where nothing is left over, nothing was cut off. -/
theorem leftoverCents_facts (facts : List CategoryFact) :
    leftoverCents facts < ((headroom facts).filter (fun giver => 0 < remainderOf facts giver)).length ∨
      (leftoverCents facts = 0 ∧ (headroom facts).filter (fun giver => 0 < remainderOf facts giver) = []) := by
  rcases (totalHeadroom_nonneg facts).lt_or_eq with hpos | hzero
  · rcases leftoverCents_lt hpos with h | h
    · exact Or.inl h
    · rcases hfilter : (headroom facts).filter (fun giver => 0 < remainderOf facts giver) with _ | ⟨giver, rest⟩
      · exact Or.inr ⟨h, rfl⟩
      · left
        rw [h, List.length_cons]
        push_cast
        omega
  · -- nobody has a surplus
    have hnone : headroom facts = [] := by
      rcases hh : headroom facts with _ | ⟨p, rest⟩
      · rfl
      · have hsum : 0 ≤ (rest.map Prod.snd).sum := by
          refine List.sum_nonneg fun v hv => ?_
          obtain ⟨q, hq, rfl⟩ := List.mem_map.mp hv
          obtain ⟨f, -, hpos, rfl⟩ := mem_headroom.mp (hh ▸ List.mem_cons_of_mem _ hq)
          exact hpos.le
        obtain ⟨f, -, hpos, rfl⟩ := mem_headroom.mp (hh ▸ List.mem_cons_self (a := p))
        have htotal : totalHeadroom facts = surplusOf f + (rest.map Prod.snd).sum := by
          unfold totalHeadroom
          rw [hh, List.map_cons, List.sum_cons]
        omega
    right
    have hmovable : movable facts = 0 := le_antisymm (hzero ▸ min_le_left _ _) (movable_nonneg facts)
    unfold leftoverCents Apportion.leftover
    rw [hnone, hmovable]
    exact ⟨rfl, rfl⟩

/-- **A rebalance is zero-sum and harms no giver.** It is computed wherever no spending is
projected to be negative. -/
theorem allocateRebalance_zero_sum (facts : List CategoryFact) (priorityIds : List Nat) (reasons : Nat → Option String)
    (hids : (facts.map CategoryFact.categoryId).Nodup) (hpriority : priorityIds.Nodup)
    (hbudget : ∀ f ∈ facts, 0 ≤ f.budgetAmount) :
    (∀ suggestions uncovered, allocateRebalance facts priorityIds reasons = .ok (suggestions, uncovered) →
      Rebalanced facts priorityIds suggestions uncovered) ∧
    ((∀ f ∈ facts, 0 ≤ projectPeriodSpend f) →
      ∃ suggestions uncovered, allocateRebalance facts priorityIds reasons = .ok (suggestions, uncovered)) := by
  refine ⟨fun suggestions uncovered hok => ?_, fun hprojected => ?_⟩
  case refine_2 =>
    obtain ⟨suggestions, hok⟩ := allocateRebalance_returns reasons hids hpriority hbudget hprojected
    exact ⟨suggestions, _, hok⟩
  have hafter : ∀ f ∈ facts, amountAfter suggestions f = newAmountOf facts priorityIds f :=
    fun f hf => amountAfter_eq hids hok hf
  obtain ⟨_, _, hret⟩ := bind_eq_ok.mp hok
  obtain rfl : uncoveredOverspend facts = uncovered := (Prod.mk.inj (Except.ok.inj hret)).2
  constructor
  case total =>
    rw [List.map_congr_left hafter]
    exact sum_newAmountOf hids hpriority
  case givers =>
    intro f hf hlt
    rw [hafter f hf] at hlt ⊢
    cases newAmountOf_moved hids hpriority hf with
    | gives gives hsurplus hnn hle hnew =>
      unfold surplusOf at hle
      omega
    | receives takes hneg hnn hle hnew => omega
    | stays hnew => omega
  case lowered =>
    intro f hf hlt
    rw [hafter f hf] at hlt
    cases newAmountOf_moved hids hpriority hf with
    | gives gives hsurplus hnn hle hnew =>
      unfold surplusOf at hsurplus
      omega
    | receives takes hneg hnn hle hnew => omega
    | stays hnew => omega
  case raised =>
    intro f hf hlt
    rw [hafter f hf] at hlt ⊢
    cases newAmountOf_moved hids hpriority hf with
    | gives gives hsurplus hnn hle hnew => omega
    | receives takes hneg hnn hle hnew =>
      unfold surplusOf at hle
      omega
    | stays hnew => omega
  case uncovered => rfl
  case inOrder =>
    refine (received_in_order hids hpriority).imp fun h f hf hfa g hg hgb hlt => ?_
    rw [hafter g hg] at hlt
    rw [hafter f hf]
    exact h f hf hfa g hg hgb hlt
  case leftover => exact leftoverCents_facts facts

/-- The priorities of an answer are known categories, each named once. -/
theorem parsePriority_nodup (raw : List GuidanceValue) (allowedIds : List Nat) :
    (parsePriority raw allowedIds).Nodup ∧ ∀ cid ∈ parsePriority raw allowedIds, cid ∈ allowedIds := by
  unfold parsePriority
  refine List.foldlRecOn (motive := fun priority : List Nat => priority.Nodup ∧ ∀ cid ∈ priority, cid ∈ allowedIds)
    raw _ ⟨List.nodup_nil, by simp⟩ ?_
  rintro priority ⟨hnodup, hknown⟩ value -
  rcases value.asInt with _ | n
  · exact ⟨hnodup, hknown⟩
  · dsimp only
    split
    · rename_i hnew
      refine ⟨List.nodup_append.mpr ⟨hnodup, List.nodup_singleton _, ?_⟩, fun cid hcid => ?_⟩
      · intro a ha b hb hab
        rw [List.mem_singleton] at hb
        exact hnew.2.2 (hb ▸ hab ▸ ha)
      · rcases List.mem_append.mp hcid with h | h
        · exact hknown cid h
        · rw [List.mem_singleton.mp h]
          exact hnew.2.1
    · exact ⟨hnodup, hknown⟩

private def rentFacts : List CategoryFact :=
  [{ categoryId := 1, budgetAmount := 1000, last3moAvg := 900, currentMoActual := 0 },
   { categoryId := 2, budgetAmount := 1000, last3moAvg := 800, currentMoActual := 0 },
   { categoryId := 3, budgetAmount := 5000, last3moAvg := 5200, currentMoActual := 100 },
   { categoryId := 4, budgetAmount := 0, last3moAvg := 0, currentMoActual := 700 }]

theorem allocateRebalance_zero_sum_rent : ∃ suggestions uncovered,
    allocateRebalance rentFacts [4, 3] (fun _ => none) = .ok (suggestions, uncovered) ∧
      Rebalanced rentFacts [4, 3] suggestions uncovered := by
  obtain ⟨hsound, hreturns⟩ :=
    allocateRebalance_zero_sum rentFacts [4, 3] (fun _ => none) (by decide) (by decide) (by decide)
  obtain ⟨suggestions, uncovered, hok⟩ := hreturns (by decide)
  exact ⟨suggestions, uncovered, hok, hsound _ _ hok⟩

/-- A surplus that covers a deficit to the cent leaves nothing over and cuts nothing off.
And of a category whose spending was refunded more is taken than its budget, which no
suggestion can say. -/
theorem allocateRebalance_refunded :
    (let facts : List CategoryFact := [{ categoryId := 1, budgetAmount := 1000, last3moAvg := 900, currentMoActual := 0 },
        { categoryId := 2, budgetAmount := 1000, last3moAvg := 1100, currentMoActual := 0 }]
     ¬ leftoverCents facts < ((headroom facts).filter (fun giver => 0 < remainderOf facts giver)).length) ∧
    allocateRebalance [{ categoryId := 1, budgetAmount := 1000, last3moAvg := -500, currentMoActual := -500 },
        { categoryId := 2, budgetAmount := 1000, last3moAvg := 2500, currentMoActual := 0 }] [] (fun _ => none) =
      .error ["suggested_amount"] := by
  decide +kernel

end BetterDecision
